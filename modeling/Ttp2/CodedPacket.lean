import Ttp2.ComponentWrites

/-! # What `encode` hands out, and the id it carries

A coding that succeeds is of a complete tree and is accepted again with the
same content. Whatever the payload is, and however the write of its fields
ends, the tree keeps the id written first; so whatever `decode` makes of the
coding carries that id as it was read from the wire. -/
namespace Ttp2
open Lib TwosComplement Asn1Helpers Packet Encode Decode

variable {L : Libraries} {n : L.asn1.Node} {buffer : Bytes}

/-! ## The DER coding -/

theorem derCode_ok (h : L.asn1.Documented) (hc : L.asn1.Complete n)
    (hlt : L.asn1.derSize n < 2 ^ 31) : ∃ buffer, derCode L n = .ok buffer := by
  have hlen := h.der_length n hc hlt
  have hok := h.der_success n hc hlt
  refine ⟨fill (L.asn1.derSize n) (L.asn1.derCoding n (Int32.ofNat (L.asn1.derSize n))).bytes, ?_⟩
  unfold derCode
  dsimp only
  rw [hlen, toInt_ofNat_of_lt hlt, if_neg (by omega), hok, if_neg (by simp), Int.toNat_natCast]

/-- A coding that succeeds is of a complete tree, is as long as it says, and
is accepted again with the same content. -/
theorem derCode_eq_ok (h : L.asn1.Documented) (he : derCode L n = .ok buffer) :
    L.asn1.Complete n ∧ L.asn1.derSize n < 2 ^ 31 ∧ buffer.length = L.asn1.derSize n ∧
      ∃ m, L.asn1.derDecoding buffer = some m ∧ SameContent m n := by
  unfold derCode at he
  dsimp only at he
  split at he
  · cases he
  · split at he
    · cases he
    · rename_i hstatus
      have hok := not_not.mp hstatus
      obtain ⟨hc, hlt, hbytes⟩ := h.der_requires n _ hok
      have hlen := h.der_length n hc hlt
      obtain ⟨m, hm, hchosen, hstored, helements⟩ := h.der_decoding n _ hok
      rw [hlen] at he hbytes hm
      rw [toInt_ofNat_of_lt hlt, Int.toNat_natCast] at he
      generalize (L.asn1.derCoding n (Int32.ofNat (L.asn1.derSize n))).bytes = coding at he hbytes hm
      rw [← hbytes, fill_length] at he
      cases he
      exact ⟨hc, hlt, hbytes, m, hm, hchosen, hstored, helements⟩

variable {payload : PayloadVariants L.arrow.Table} {id : Int32}

theorem encode_eq_ok (h : L.Documented) (he : encode L payload id = .ok buffer) :
    ∃ n, encodeTree L payload id = .ok n ∧ derCode L n = .ok buffer := by
  unfold encode at he
  rw [h.asn1.array2tree] at he
  simp only [bind, Except.bind] at he
  cases ht : encodeTree L payload id with
  | error e =>
    rw [ht] at he
    cases he
  | ok n =>
    rw [ht] at he
    exact ⟨n, rfl, he⟩

/-- `encode` returns for no other payloads than these. -/
theorem codable_of_encode (h : L.Documented) (he : encode L payload id = .ok buffer) :
    payload.Codable L := by
  obtain ⟨n, hn, hcode⟩ := encode_eq_ok h he
  exact codable_of_complete h.asn1 hn (derCode_eq_ok h.asn1 hcode).1

theorem encode_of_tree (ha : L.asn1.array2tree = .ok ()) (ht : encodeTree L payload id = .ok n) :
    encode L payload id = derCode L n := by
  unfold encode
  rw [ha]
  simp only [ht, bind, Except.bind]

/-- The size `sendMessage` writes before the body fits its four octets. -/
theorem length_encode (h : L.Documented) (he : encode L payload id = .ok buffer) :
    buffer.length < 2 ^ 32 := by
  obtain ⟨n, -, hcode⟩ := encode_eq_ok h he
  obtain ⟨-, hlt, hlen, -⟩ := derCode_eq_ok h.asn1 hcode
  omega

/-! ## The list of a listing -/

section List
variable {lib : Libtasn1} {m : lib.Node} {alt : String} {facts : List (String × Bytes)}

/-- The loop over a list writes the list and its elements only, also when it stops early. -/
theorem Libtasn1.Framed.vectorFrom (h : lib.Framed) (key : String) (hkey : 7 ≤ key.length)
    (hp : key ≠ "payload") (items : List Bytes) (index : Nat) (m : lib.Node) :
    lib.chosen (asn1EncodePayloadVectorFrom lib key index items m) = lib.chosen m ∧
      ∀ name : String, name.length < key.length →
        lib.stored (asn1EncodePayloadVectorFrom lib key index items m) name = lib.stored m name := by
  have hwrite : ∀ (n : lib.Node) (long : String) (v : Asn1Value) (len : Int32),
      key.length ≤ long.length → long ≠ "payload" → v ≠ .null →
      lib.chosen (lib.writeValue n long v len).2 = lib.chosen n ∧ ∀ name : String,
        name.length < key.length → lib.stored (lib.writeValue n long v len).2 name =
          lib.stored n name := by
    intro n long v len hlong hpl hv
    refine ⟨h.chosen n long v len hpl, fun name hlt => ?_⟩
    have hne : name ≠ long := by
      rintro rfl
      omega
    exact (h.frame n long v len name hpl hne (fun he => absurd he hv)).1
  induction items generalizing m index with
  | nil => exact ⟨rfl, fun _ _ => rfl⟩
  | cons item items ih =>
    have hitem := length_elementName key (index + 1)
    obtain ⟨hc1, hs1⟩ := hwrite m key (.text "NEW") 1 (le_refl _) hp (by simp)
    obtain ⟨hc2, hs2⟩ := hwrite (lib.writeValue m key (.text "NEW") 1).2
      (elementName key (index + 1)) (cStr item) (Int32.ofNat item.length) (by omega)
      (elementName_ne _ (show 7 ≤ key.length + 2 by omega)) (by simp [cStr])
    unfold asn1EncodePayloadVectorFrom
    dsimp only
    split
    · exact ⟨hc1, hs1⟩
    · split
      · exact ⟨hc2.trans hc1, fun name hlt => (hs2 name hlt).trans (hs1 name hlt)⟩
      · obtain ⟨hc3, hs3⟩ := ih (index + 1) _
        exact ⟨hc3.trans (hc2.trans hc1),
          fun name hlt => (hs3 name hlt).trans ((hs2 name hlt).trans (hs1 name hlt))⟩

theorem Stores.keepVector (h : lib.Documented) {key : String} (hkey : 7 ≤ key.length)
    (hp : key ≠ "payload") (hshort : ∀ f ∈ facts, f.1.length < key.length) (items : List Bytes)
    (index : Nat) (hs : Stores lib m alt facts) :
    Stores lib (asn1EncodePayloadVectorFrom lib key index items m) alt facts := by
  obtain ⟨hchosen, hstored⟩ := h.framed.vectorFrom key hkey hp items index m
  exact ⟨hchosen.trans hs.chosen,
    fun f hf => (hstored f.1 (hshort f hf)).trans (hs.stored f hf)⟩

end List

/-! ## The scalar components -/

/-- What the id, the integers and the strings of a packet are stored as. -/
def scalars {T : Type} (id : Int32) : PayloadVariants T → List (String × Bytes)
  | .standard s => stringFact "payload.standard.payload" s.payload ++ [("id", intOctets id.toInt)]
  | .file f =>
    ("payload.file.end", intOctets f.end_.toInt) ::
      ("payload.file.start", intOctets f.start.toInt) ::
      (stringFact "payload.file.filePath" f.filePath ++ [("id", intOctets id.toInt)])
  | .viewportRequest v =>
    [("payload.viewportRequest.yEnd", intOctets v.yEnd.toInt),
      ("payload.viewportRequest.yStart", intOctets v.yStart.toInt),
      ("payload.viewportRequest.xEnd", intOctets v.xEnd.toInt),
      ("payload.viewportRequest.xStart", intOctets v.xStart.toInt), ("id", intOctets id.toInt)]
  | .viewport v =>
    [("payload.viewport.yEnd", intOctets v.yEnd.toInt),
      ("payload.viewport.yStart", intOctets v.yStart.toInt),
      ("payload.viewport.xEnd", intOctets v.xEnd.toInt),
      ("payload.viewport.xStart", intOctets v.xStart.toInt), ("id", intOctets id.toInt)]
  | .tqlQuery q => stringFact "payload.tqlQuery.query" q.query ++ [("id", intOctets id.toInt)]
  | .error e =>
    stringFact "payload.error.message" e.message ++
      [("payload.error.code", intOctets e.code.toInt), ("id", intOctets id.toInt)]
  | .universal u =>
    [("payload.universal.type", intOctets u.type.toInt), ("id", intOctets id.toInt)]
  | .ls l => stringFact "payload.ls.directory" l.directory ++ [("id", intOctets id.toInt)]
  | .lsSolution _ => [("id", intOctets id.toInt)]

theorem id_mem_scalars {T : Type} (id : Int32) (payload : PayloadVariants T) :
    ("id", intOctets id.toInt) ∈ scalars id payload := by
  cases payload <;> simp [scalars]

/-- They are what the component writes store, the last one first. -/
theorem scalars_eq {arrow : Arrow} {payload : PayloadVariants arrow.Table} (id : Int32)
    {ws : List ComponentWrite} (hws : componentWrites arrow payload = .ok ws)
    (hls : ∀ l, payload ≠ .lsSolution l) :
    scalars id payload = ws.reverse.flatMap (·.facts) ++ [("id", intOctets id.toInt)] := by
  cases payload with
  | file f =>
    simp only [componentWrites] at hws
    cases hb : tableToBuffer arrow f.payload with
    | error e => rw [hb] at hws; cases hws
    | ok b =>
      rw [hb] at hws
      cases hws
      split <;> simp [scalars, ComponentWrite.facts]
  | viewport v =>
    simp only [componentWrites] at hws
    cases hb : tableToBuffer arrow v.payload with
    | error e => rw [hb] at hws; cases hws
    | ok b => rw [hb] at hws; cases hws; rfl
  | lsSolution l => exact absurd rfl (hls l)
  | _ =>
    cases hws
    simp [scalars, ComponentWrite.facts]

/-- **The scalars are in the tree**, and the payload's alternative is chosen,
whatever became of the writes of the other components. -/
theorem encodeTree_stores (h : L.asn1.Documented) (he : encodeTree L payload id = .ok n) :
    Stores L.asn1 n payload.altName (scalars id payload) := by
  by_cases hls : ∃ l, payload = .lsSolution l
  · obtain ⟨l, rfl⟩ := hls
    obtain ⟨m, hm, h0, -, -⟩ := start_stores h id "lsSolution" "lsSolution" rfl
    simp only [encodeTree, encodeLsSolution, hm, bind, Except.bind] at he
    cases he
    exact h0.keepVector h (by decide) (by simp) short_id _ _
  · have hls' : ∀ l, payload ≠ .lsSolution l := fun l hl => hls ⟨l, hl⟩
    obtain ⟨ws, hws⟩ := encodeTree_eq_ok hls' he
    obtain ⟨m, hm, h0, -⟩ := encodeTree_eq_writeAll h id hls' hws
    have hw := componentWrites_writable hws hls'
    cases he.symm.trans hm
    rw [scalars_eq id hws hls']
    refine h0.writeAll h hw (componentWrites_typed hws hls') fun w hmem hin => ?_
    exact (hw.scalar hmem).1 (List.mem_singleton.mp hin)

/-- A coding of `encode` is accepted again, as a tree that stores the scalars
under the payload's alternative. -/
theorem derDecoding_stores (h : L.Documented) (he : encode L payload id = .ok buffer) :
    ∃ m, L.asn1.derDecoding buffer = some m ∧
      Stores L.asn1 m payload.altName (scalars id payload) ∧
      L.asn1.readChoice m "payload" 64 = some payload.altName := by
  obtain ⟨n, hn, hcode⟩ := encode_eq_ok h he
  obtain ⟨-, -, -, m, hm, hsame⟩ := derCode_eq_ok h.asn1 hcode
  have hs := (encodeTree_stores h.asn1 hn).of_same hsame
  have hshort : ∀ name ∈ packetsAsn1.map Prod.fst, name.length < 64 := by decide
  exact ⟨m, hm, hs, h.asn1.read_choice m _ 64 hs.chosen (hshort _ (altName_mem payload))⟩

/-- A decoded packet is what `decode` reads from such a tree. -/
theorem decode_stores (h : L.Documented) {q : Packet L.arrow.Table}
    (he : encode L payload id = .ok buffer) (hd : decode L buffer = .ok q) :
    ∃ m, Stores L.asn1 m payload.altName (scalars id payload) ∧
      q.id = asn1DecodePayloadInt L.asn1 m "id" ∧
      decodePayload L m payload.altName = .ok q.payload := by
  obtain ⟨m, hm, hs, hchoice⟩ := derDecoding_stores h he
  refine ⟨m, hs, ?_⟩
  unfold decode at hd
  rw [h.asn1.array2tree, hm] at hd
  simp only [hchoice, Option.getD_some, bind, Except.bind] at hd
  split at hd
  · cases hd
  · rename_i p hp
    cases hd
    exact ⟨rfl, hp⟩

/-- **The id goes over the wire** with every packet that is encoded and decoded again. -/
theorem decode_id (h : L.Documented) {q : Packet L.arrow.Table}
    (he : encode L payload id = .ok buffer) (hd : decode L buffer = .ok q) : q.id = wireInt id := by
  obtain ⟨m, hs, hid, -⟩ := decode_stores h he hd
  rw [hid]
  exact hs.readInt h.asn1 (id_mem_scalars id payload)

/-! ## Which codings are accepted -/

/-- `decode` accepts every frame `encode` produces. -/
def Decodable (L : Libraries) : Prop :=
  ∀ payload id buffer, encode L payload id = .ok buffer → ∃ q, decode L buffer = .ok q

section Tables
variable (htable : ∀ rawData, ∃ table, bufferToTable L.arrow rawData = .ok table)
include htable

theorem decodeFile_ok (m : L.asn1.Node) : ∃ file, decodeFile L m = .ok file := by
  obtain ⟨table, ht⟩ := htable (asn1DecodePayloadBuffer L.asn1 m "payload.file.payload")
  unfold decodeFile
  dsimp only
  rw [ht]
  exact ⟨_, rfl⟩

theorem decodeViewport_ok (m : L.asn1.Node) : ∃ viewport, decodeViewport L m = .ok viewport := by
  obtain ⟨table, ht⟩ := htable (asn1DecodePayloadBuffer L.asn1 m "payload.viewport.payload")
  unfold decodeViewport
  dsimp only
  rw [ht]
  exact ⟨_, rfl⟩

theorem decodePayload_ok (m : L.asn1.Node) {alt : String} (halt : alt ∈ packetsAsn1.map Prod.fst) :
    ∃ p, decodePayload L m alt = .ok p := by
  simp only [packetsAsn1, List.map_cons, List.map_nil, List.mem_cons, List.not_mem_nil,
    or_false] at halt
  rcases halt with rfl | rfl | rfl | rfl | rfl | rfl | rfl | rfl | rfl
  · exact ⟨_, rfl⟩
  · obtain ⟨file, hf⟩ := decodeFile_ok htable m
    refine ⟨.file file, ?_⟩
    show (decodeFile L m).map PayloadVariants.file = _
    rw [hf]
    rfl
  · exact ⟨_, rfl⟩
  · obtain ⟨viewport, hv⟩ := decodeViewport_ok htable m
    refine ⟨.viewport viewport, ?_⟩
    show (decodeViewport L m).map PayloadVariants.viewport = _
    rw [hv]
    rfl
  · exact ⟨_, rfl⟩
  · exact ⟨_, rfl⟩
  · exact ⟨_, rfl⟩
  · exact ⟨_, rfl⟩
  · exact ⟨_, rfl⟩

/-- That comes down to the tables: nothing else makes `decode` throw on a coding of `encode`. -/
theorem decodable_of_tables (h : L.Documented) : Decodable L := by
  intro payload id buffer he
  obtain ⟨m, hm, -, hchoice⟩ := derDecoding_stores h he
  obtain ⟨p, hp⟩ := decodePayload_ok htable m (altName_mem payload)
  refine ⟨{ id := asn1DecodePayloadInt L.asn1 m "id", payload := p }, ?_⟩
  unfold decode
  rw [h.asn1.array2tree, hm]
  simp only [hchoice, Option.getD_some, hp, bind, Except.bind]
  rfl

end Tables

end Ttp2
