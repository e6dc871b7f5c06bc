import Ttp2.CodedPacket
import Ttp2.Reference.Documented

/-! # What was received can be sent back unchanged

The DER coding carries the content of a tree across, so `decode` of `encode`
is `wire` (`decode_encode`); and as the wire form is final, a packet that was
once decoded is decoded to itself from then on. The one limit is libtasn1's:
the length of a coding is an `int`, and the wire form of a short negative
integer is longer than the integer. -/
namespace Ttp2
open Lib TwosComplement Asn1Helpers Packet Encode Decode

variable {L : Libraries} {n : L.asn1.Node} {buffer : Bytes}

/-! ## The round trip -/

/-- What was coded is decoded to what its tree stands for. -/
theorem decode_of_tree (h : L.Documented) {payload : PayloadVariants L.arrow.Table} {id : Int32}
    (hn : encodeTree L payload id = .ok n) (ht : TreeOf L payload id n)
    (he : encode L payload id = .ok buffer) :
    decode L buffer = .ok { id := wireInt id, payload := wirePayload payload } := by
  obtain ⟨n', hn', hcode⟩ := encode_eq_ok h he
  cases hn.symm.trans hn'
  obtain ⟨-, -, -, m, hm, hsame⟩ := derCode_eq_ok h.asn1 hcode
  obtain ⟨hid, typeName, hchoice, hpayload⟩ := ht.decodes m hsame
  unfold decode
  rw [h.asn1.array2tree, hm]
  simp only [hid, hchoice, Option.getD_some, hpayload, bind, Except.bind]
  rfl

/-- **The round trip.** What `encode` produces, `decode` accepts, as the wire
form of the packet. -/
theorem decode_encode (h : L.Documented) (p : Packet L.arrow.Table) (hs : p.payload.Sized L)
    (he : encode L p.payload p.id = .ok buffer) : decode L buffer = .ok (wire p) := by
  obtain ⟨n, hn, ht⟩ := encodeTree_of_codable h p.id hs (codable_of_encode h he)
  exact decode_of_tree h hn ht he

/-- The wire form of a payload is no longer than the payload, integers apart. -/
theorem Packet.PayloadVariants.Sized.wire {payload : PayloadVariants L.arrow.Table}
    (hs : payload.Sized L) : (wirePayload payload).Sized L := by
  have hstr : ∀ s : Bytes, s.length < 2 ^ 31 → (wireString s).length < 2 ^ 31 :=
    fun s hlt => Nat.lt_of_le_of_lt (List.takeWhile_prefix _).length_le hlt
  cases payload with
  | standard s => exact hstr _ hs
  | file f => exact ⟨hstr _ hs.1, hs.2⟩
  | viewportRequest v => trivial
  | viewport v => exact hs
  | tqlQuery q => exact hstr _ hs
  | error e => exact hstr _ hs
  | universal u => exact hs
  | ls l => exact hstr _ hs
  | lsSolution l => exact hs

theorem Packet.PayloadVariants.Codable.wire {payload : PayloadVariants L.arrow.Table}
    (hc : payload.Codable L) : (wirePayload payload).Codable L := by
  cases payload <;> exact hc

/-- The length of the DER coding of a packet, whether or not it can be produced. -/
def codedSize (L : Libraries) (p : Packet L.arrow.Table) : Nat :=
  match encodeTree L p.payload p.id with
  | .ok n => L.asn1.derSize n
  | .error _ => 0

/-- A packet with a complete tree is encoded exactly if its coding is short
enough for an `int`. -/
theorem encode_ok_iff_of_complete (h : L.Documented) (p : Packet L.arrow.Table)
    (hn : encodeTree L p.payload p.id = .ok n) (hc : L.asn1.Complete n) :
    (∃ buffer, encode L p.payload p.id = .ok buffer) ↔ codedSize L p < 2 ^ 31 := by
  have hsize : codedSize L p = L.asn1.derSize n := by
    unfold codedSize
    rw [hn]
  rw [hsize]
  constructor
  · rintro ⟨buffer, he⟩
    obtain ⟨n', hn', hcode⟩ := encode_eq_ok h he
    cases hn.symm.trans hn'
    exact (derCode_eq_ok h.asn1 hcode).2.1
  · intro hlt
    obtain ⟨buffer, hcode⟩ := derCode_ok h.asn1 hc hlt
    exact ⟨buffer, (encode_of_tree h.asn1.array2tree hn).trans hcode⟩

/-- A packet is encoded exactly if it can be and its coding is short enough
for an `int`. -/
theorem encode_ok_iff (h : L.Documented) (p : Packet L.arrow.Table) (hs : p.payload.Sized L)
    (hc : p.payload.Codable L) :
    (∃ buffer, encode L p.payload p.id = .ok buffer) ↔ codedSize L p < 2 ^ 31 := by
  obtain ⟨n, hn, ht⟩ := encodeTree_of_codable h p.id hs hc
  exact encode_ok_iff_of_complete h p hn ht.complete

/-- **Echo stability.** Whatever `encode` produced is decoded, without an
exception, to a packet `q` of the same alternative; `encode` of `q` returns
exactly if the coding of `q` has a length below 2^31; and then `q` is decoded
to `q`. -/
theorem echo_stable (h : L.Documented) (p : Packet L.arrow.Table) (hs : p.payload.Sized L)
    (he : encode L p.payload p.id = .ok buffer) :
    ∃ q, decode L buffer = .ok q ∧ q.payload.index = p.payload.index ∧
      ((∃ buffer', encode L q.payload q.id = .ok buffer') ↔ codedSize L q < 2 ^ 31) ∧
      ∀ buffer', encode L q.payload q.id = .ok buffer' → decode L buffer' = .ok q := by
  have hcodable := codable_of_encode h he
  refine ⟨wire p, decode_encode h p hs he, index_wirePayload p.payload,
    encode_ok_iff h (wire p) hs.wire hcodable.wire, ?_⟩
  intro buffer' he'
  have hagain := decode_encode h (wire p) hs.wire he'
  rwa [wire_wire] at hagain

theorem echo_stable_error : ∃ q, decode Reference.libraries [0x30, 0x10, 0x02, 0x01, 0x07, 0xA5, 0x0B,
      0x30, 0x09, 0x02, 0x02, 0xFF, 0x38, 0x04, 0x03, 0x6F, 0x6F, 0x70] = .ok q ∧
    q.payload.index = 5 ∧
    ((∃ buffer', encode Reference.libraries q.payload q.id = .ok buffer') ↔
      codedSize Reference.libraries q < 2 ^ 31) ∧
    ∀ buffer', encode Reference.libraries q.payload q.id = .ok buffer' →
      decode Reference.libraries buffer' = .ok q :=
  echo_stable Reference.libraries_documented
    { id := 7, payload := .error { code := -200, message := [0x6F, 0x6F, 0x70, 0x00, 0x21] } }
    (show 5 < 2 ^ 31 by decide) rfl

/-! ## The limit is reached -/

namespace Reference

theorem code_universal {n : Tree} {id type bytes : Bytes}
    (hs : Stores asn1 n "universal" [("payload.universal.bytes", bytes),
      ("payload.universal.type", type), ("id", id)]) :
    n.code = Der.tlv 0x30 (Der.tlv 0x02 id ++
      Der.tlv 0xA6 (Der.tlv 0x30 (Der.tlv 0x02 type ++ Der.tlv 0x04 bytes))) := by
  have hchosen : n.chosen = some "universal" := hs.chosen
  have hid : n.id = some id := hs.stored ("id", id) (by simp)
  have htype := hs.stored ("payload.universal.type", type) (by simp)
  have hbytes := hs.stored ("payload.universal.bytes", bytes) (by simp)
  change n.stored "payload.universal.type" = _ at htype
  change n.stored "payload.universal.bytes" = _ at hbytes
  rw [Tree.stored, if_neg (by simp), hchosen] at htype hbytes
  change n.fields "payload.universal.type" = _ at htype
  change n.fields "payload.universal.bytes" = _ at hbytes
  have htag : Tree.altTag "universal" = 0xA6 := by decide +kernel
  have hfields : packetsAsn1.lookup "universal" =
      some [("type", .integer), ("bytes", .octetString)] := rfl
  have hname1 : fieldName "universal" "type" = "payload.universal.type" := by decide +kernel
  have hname2 : fieldName "universal" "bytes" = "payload.universal.bytes" := by decide +kernel
  have hcode1 : n.fieldCode "universal" ("type", .integer) = Der.tlv 0x02 type := by
    rw [Tree.fieldCode, hname1, htype, Option.getD_some]
  have hcode2 : n.fieldCode "universal" ("bytes", .octetString) = Der.tlv 0x04 bytes := by
    rw [Tree.fieldCode, hname2, hbytes, Option.getD_some]
  rw [Tree.code, Tree.payloadCode, hchosen, hid]
  dsimp only
  rw [htag, hfields]
  simp only [Option.getD_some, List.flatMap_cons, List.flatMap_nil, List.append_nil, hcode1, hcode2]

/-- The size of a long `Universal`: the bytes, the type's octets and 29 for
the tags and lengths and the id 0. -/
theorem codedSize_universal (u : Universal) (hlo : 2 ^ 24 ≤ u.bytes.length)
    (hhi : u.bytes.length ≤ 2 ^ 31 - 31) :
    codedSize libraries { id := 0, payload := .universal u } =
      u.bytes.length + (intOctets u.type.toInt).length + 29 := by
  have hne : u.bytes ≠ [] := by
    intro he
    rw [he] at hlo
    exact absurd hlo (by decide)
  have hcount : (intOctets u.type.toInt).length ≤ 4 := by
    rw [length_intOctets]
    exact octetCount_int32 u.type
  obtain ⟨n, hn, hs⟩ := universal_stores libraries_documented.asn1 0 u hne (by omega)
  have hsize : codedSize libraries { id := 0, payload := .universal u } = n.code.length := by
    unfold codedSize
    dsimp only
    rw [hn]
    rfl
  have h1 := Der.length_tlv_long 0x04 u.bytes hlo (by omega)
  have h2 := Der.length_tlv_short 0x02 (intOctets u.type.toInt) (by omega)
  have h3 := Der.length_tlv_long 0x30
    (Der.tlv 0x02 (intOctets u.type.toInt) ++ Der.tlv 0x04 u.bytes)
    (by rw [List.length_append]; omega) (by rw [List.length_append]; omega)
  rw [List.length_append] at h3
  have h4 := Der.length_tlv_long 0xA6
    (Der.tlv 0x30 (Der.tlv 0x02 (intOctets u.type.toInt) ++ Der.tlv 0x04 u.bytes))
    (by omega) (by omega)
  have h5 : (Der.tlv 0x02 (intOctets (0 : Int32).toInt)).length = 3 := by decide
  have h6 := Der.length_tlv_long 0x30 (Der.tlv 0x02 (intOctets (0 : Int32).toInt) ++
    Der.tlv 0xA6 (Der.tlv 0x30 (Der.tlv 0x02 (intOctets u.type.toInt) ++ Der.tlv 0x04 u.bytes)))
    (by rw [List.length_append]; omega) (by rw [List.length_append]; omega)
  rw [List.length_append] at h6
  rw [hsize, code_universal hs]
  omega

end Reference

/-- A `Universal` of type -1 whose coding has 2^31 - 1 octets is encoded, but
not what is decoded from it: the type is read back as 255, which takes one
octet more. -/
theorem encode_wire_universal {bytes : Bytes} (hlen : bytes.length = 2 ^ 31 - 31) :
    let p : Packet Reference.libraries.arrow.Table :=
      { id := 0, payload := .universal { type := -1, bytes } }
    ∃ buffer q, encode Reference.libraries p.payload p.id = .ok buffer ∧
      decode Reference.libraries buffer = .ok q ∧
      ¬ ∃ buffer', encode Reference.libraries q.payload q.id = .ok buffer' := by
  intro p
  have hcodable : p.payload.Codable Reference.libraries := by
    rintro rfl
    exact absurd hlen (by decide)
  have hs : p.payload.Sized Reference.libraries := show bytes.length < 2 ^ 31 by omega
  have h := Reference.libraries_documented
  have hp : codedSize Reference.libraries p = 2 ^ 31 - 1 := by
    rw [Reference.codedSize_universal _ (by dsimp only; omega) (by dsimp only; omega)]
    have hone : (intOctets (-1 : Int32).toInt).length = 1 := by decide
    dsimp only
    omega
  have hq : codedSize Reference.libraries (wire p) = 2 ^ 31 := by
    have hwire : wire p = { id := 0, payload := .universal { type := 255, bytes } } := by
      have hid : wireInt 0 = 0 := by decide
      have htype : wireInt (-1) = 255 := by decide
      simp only [wire, wirePayload, p, hid, htype]
    rw [hwire, Reference.codedSize_universal _ (by dsimp only; omega) (by dsimp only; omega)]
    have htwo : (intOctets (255 : Int32).toInt).length = 2 := by decide
    dsimp only
    omega
  obtain ⟨buffer, he⟩ := (encode_ok_iff h p hs hcodable).mpr (by omega)
  refine ⟨buffer, wire p, he, decode_encode h p hs he, ?_⟩
  rw [encode_ok_iff h (wire p) hs.wire hcodable.wire]
  omega

/-! ## Tables longer than an `int`

`encodeFile` passes the size of a table's stream as an `int`. Of a stream of
2^32 + 4 bytes four are written, and `decode` finds no table in them. -/

namespace Reference

/-- An Arrow whose streams end with a mark, and which opens none without it. -/
def markingArrow : Arrow where
  Table := Bytes
  writeTable := fun _ => true
  finish := fun table => some (table ++ [0xFF])
  resize := fun _ => true
  append := fun _ => true
  finishBuilder := fun _ => true
  openStream := fun stream => stream.getLast? = some 0xFF
  toTable := fun stream => some stream.dropLast

theorem markingArrow_documented : markingArrow.Documented where
  stream_nonempty := by
    intro (table : Bytes) buffer h
    cases h
    exact List.append_ne_nil_of_right_ne_nil table (List.cons_ne_nil _ _)
  round_trip := by
    intro (table : Bytes) buffer h
    cases h
    have hmark : (table ++ [0xFF]).getLast? = some 0xFF := List.getLast?_concat
    have htable : (table ++ [0xFF]).dropLast = table := List.dropLast_concat
    simp [bufferToTable, markingArrow, hmark, htable]

def markingLibraries : Libraries := ⟨asn1, markingArrow, fun _ => ""⟩

theorem markingLibraries_documented : markingLibraries.Documented :=
  ⟨asn1_documented, markingArrow_documented⟩

theorem octetsOf_long {stream : Bytes} (hlen : stream.length = 2 ^ 32 + 4) :
    Tree.octetsOf (.memory stream) (Int32.ofNat stream.length) =
      Tree.octetsOf (.memory (stream.take 4)) 4 := by
  have hfour : Int32.ofNat stream.length = 4 := by
    rw [hlen]
    rfl
  have htake : (stream.take 4).length = 4 := by
    rw [List.length_take, hlen]
    rfl
  have hint : (4 : Int32).toInt = 4 := rfl
  have hne : ¬ (4 : Int32) = 0 := by decide
  rw [hfour]
  simp only [Tree.octetsOf]
  rw [if_neg hne, if_neg hne, hint, if_pos (by omega), if_pos (by omega), List.take_take]
  rfl

theorem writeValue_long (n : Tree) (name : String) {stream : Bytes}
    (hlen : stream.length = 2 ^ 32 + 4) :
    n.writeValue name (.memory stream) (Int32.ofNat stream.length) =
      n.writeValue name (.memory (stream.take 4)) 4 := by
  unfold Tree.writeValue Tree.write
  rw [octetsOf_long hlen]

/-- The tree of a file without a path, for a stream and the size passed with it. -/
def fileTree (stream : Bytes) (size : Int32) : Tree :=
  let packet := asn1EncodePayloadInt asn1 0 asn1.createElement "id"
  let packet := (asn1.writeValue packet "payload" (.text "file") 0).2
  let packet := asn1EncodePayloadString asn1 [] packet "payload.file.filePath"
  let packet := asn1EncodePayloadInt asn1 0 packet "payload.file.start"
  let packet := asn1EncodePayloadInt asn1 0 packet "payload.file.end"
  asn1EncodePayloadBuffer asn1 (.memory stream) size packet "payload.file.payload"

theorem fileTree_long {stream : Bytes} (hlen : stream.length = 2 ^ 32 + 4) :
    fileTree stream (Int32.ofNat stream.length) = fileTree (stream.take 4) 4 :=
  congrArg Prod.snd (writeValue_long _ "payload.file.payload" hlen)

theorem encodeTree_file (table : Bytes) :
    encodeTree markingLibraries (.file { filePath := [], start := 0, end_ := 0, payload := table })
      0 = .ok (fileTree (table ++ [0xFF]) (Int32.ofNat (table ++ [0xFF]).length)) := by
  have hchoice : chooseAlternative markingLibraries
      (asn1EncodePayloadInt asn1 0 asn1.createElement "id") "file" "file" =
        .ok (asn1.writeValue (asn1EncodePayloadInt asn1 0 asn1.createElement "id") "payload"
          (.text "file") 0).2 := rfl
  have htable : tableToBuffer markingLibraries.arrow table = .ok (table ++ [0xFF]) := rfl
  have hpos : 0 < (table ++ [0xFF]).length := by
    rw [List.length_append]
    exact Nat.succ_pos _
  show (chooseAlternative markingLibraries
    (asn1EncodePayloadInt asn1 0 asn1.createElement "id") "file" "file" >>= fun packet => _) = _
  rw [hchoice]
  simp only [bind, Except.bind, htable]
  rw [if_pos hpos]
  rfl

end Reference

/-- **A table with a long stream is encoded, but not decoded.** -/
theorem decode_long_table {table : Bytes} (hlen : table.length = 2 ^ 32 + 3)
    (hzero : table.take 4 = [0, 0, 0, 0]) :
    ∃ buffer, encode Reference.markingLibraries
        (.file { filePath := [], start := 0, end_ := 0, payload := table }) 0 = .ok buffer ∧
      decode Reference.markingLibraries buffer =
        .error ⟨"Open input stream failed in bufferToTable"⟩ := by
  have hstream : (table ++ [0xFF]).length = 2 ^ 32 + 4 := by
    rw [List.length_append, hlen]
    rfl
  have htake : (table ++ [0xFF]).take 4 = [0, 0, 0, 0] := by
    rw [List.take_append_of_le_length (by omega), hzero]
  have htree := Reference.encodeTree_file table
  rw [Reference.fileTree_long hstream, htake] at htree
  have hcode : derCode Reference.markingLibraries (Reference.fileTree [0, 0, 0, 0] 4) =
      .ok [0x30, 0x15, 2, 1, 0, 0xA1, 0x10, 0x30, 0x0E, 4, 0, 2, 1, 0, 2, 1, 0, 4, 4, 0, 0, 0, 0] := by
    decide +kernel
  refine ⟨_, (encode_of_tree rfl htree).trans hcode, rfl⟩

/-- **Not every echo returns**, and not every table arrives. -/
theorem echo_unstable :
    (let p : Packet Reference.libraries.arrow.Table :=
      { id := 0, payload := .universal { type := -1, bytes := List.replicate (2 ^ 31 - 31) 0 } }
    Reference.libraries.Documented ∧ p.payload.Sized Reference.libraries ∧
      ∃ buffer q, encode Reference.libraries p.payload p.id = .ok buffer ∧
        decode Reference.libraries buffer = .ok q ∧
        ¬ ∃ buffer', encode Reference.libraries q.payload q.id = .ok buffer') ∧
    (let f : File Reference.markingLibraries.arrow.Table :=
      { filePath := [], start := 0, end_ := 0, payload := List.replicate (2 ^ 32 + 3) (0 : UInt8) }
    Reference.markingLibraries.Documented ∧
      ∃ buffer, encode Reference.markingLibraries (.file f) 0 = .ok buffer ∧
        ¬ ∃ q, decode Reference.markingLibraries buffer = .ok q) := by
  constructor
  · intro p
    have hlen : (List.replicate (2 ^ 31 - 31) (0 : UInt8)).length = 2 ^ 31 - 31 :=
      List.length_replicate
    have hs : (List.replicate (2 ^ 31 - 31) (0 : UInt8)).length < 2 ^ 31 := by
      rw [hlen]
      omega
    exact ⟨Reference.libraries_documented, hs, encode_wire_universal hlen⟩
  · intro f
    have hzero : (List.replicate (2 ^ 32 + 3) (0 : UInt8)).take 4 = [0, 0, 0, 0] := by
      rw [List.take_replicate]
      rfl
    obtain ⟨buffer, he, hd⟩ := decode_long_table List.length_replicate hzero
    refine ⟨Reference.markingLibraries_documented, buffer, he, ?_⟩
    rintro ⟨q, hq⟩
    rw [hd] at hq
    cases hq

end Ttp2
