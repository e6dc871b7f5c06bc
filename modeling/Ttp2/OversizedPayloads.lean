import Ttp2.Asn1Der
import Ttp2.CodedPacket
import Ttp2.EchoStability
import Ttp2.Reference.Precise

/-! # Payloads longer than an `int`

A table's stream and a byte vector go to libtasn1 with their size in an
`int`: the low 32 bits of the length. A positive size cuts the payload, of a
size below zero libtasn1 keeps what it does (`Libtasn1.negative`), and the
frame is sent if what is left of the payload is short enough. -/
namespace Ttp2
open Lib TwosComplement Asn1Helpers Packet Encode Decode

/-! ## What a component keeps -/

namespace ComponentWrite

/-- What the component stores in the end. -/
def keeps (lib : Libtasn1) : ComponentWrite → Option Bytes
  | string _ payload => keptString lib payload
  | int _ payload => some (intOctets payload.toInt)
  | buffer _ (.memory memory) size => kept lib memory size
  | buffer _ _ _ => none

/-- The component has the type its helper is for, and a buffer is no shorter than its size. -/
def Fits (alt : String) : ComponentWrite → Prop
  | string name _ => elementType (some alt) name = some .octetString
  | int name _ => elementType (some alt) name = some .integer
  | buffer name data size => elementType (some alt) name = some .octetString ∧
      ∃ memory, data = .memory memory ∧ size.toInt ≤ memory.length

/-- A buffer is longer than an `int` can say. -/
def Oversized : ComponentWrite → Prop
  | buffer _ (.memory memory) _ => 2 ^ 31 ≤ memory.length
  | _ => True

variable {lib : Libtasn1} {m : lib.Node} {alt : String} {w : ComponentWrite}

/-- The component has what its write keeps; or its write keeps nothing, and it
has more than the buffer it was given. -/
theorem write_keeps (h : lib.Documented) (hp : lib.Precise) (hfit : w.Fits alt)
    (hc : lib.chosen m = some alt) (hnone : lib.stored m w.name = none) :
    lib.stored (w.write lib m) w.name = w.keeps lib ∨ w.keeps lib = none ∧ ∃ name memory size rest,
      w = .buffer name (.memory memory) size ∧
        lib.stored (w.write lib m) w.name = some (memory ++ rest) := by
  cases w with
  | int name payload =>
    exact .inl (h.write_integer m name payload (by rw [hc]; exact hfit)).2
  | string name payload =>
    have ho : lib.OctetElement m name := .inl (by rw [hc]; exact hfit)
    have hle : (Int32.ofNat (strlen payload)).toInt ≤ (payload ++ [0]).length := by
      have := toInt_ofNat_le (strlen payload)
      have := strlen_le payload
      rw [List.length_append]
      omega
    left
    change _ = keptString lib payload
    cases hk : keptString lib payload with
    | some octets => exact (Libtasn1.write_kept h hp.write_negative ho hle hk).2
    | none =>
      rcases Libtasn1.write_unkept hp ho hk with hsame | ⟨hend, -⟩
      · exact hsame.trans hnone
      · exact absurd (List.mem_append_right _ (List.mem_singleton_self _)) hend
  | buffer name data size =>
    obtain ⟨hty, memory, rfl, hle⟩ := hfit
    have ho : lib.OctetElement m name := .inl (by rw [hc]; exact hty)
    change _ = kept lib memory size ∨ kept lib memory size = none ∧ _
    cases hk : kept lib memory size with
    | some octets => exact .inl (Libtasn1.write_kept h hp.write_negative ho hle hk).2
    | none =>
      rcases Libtasn1.write_unkept hp ho hk with hsame | ⟨-, rest, hrest⟩
      · exact .inl (hsame.trans hnone)
      · exact .inr ⟨rfl, name, memory, size, rest, rfl, hrest⟩

end ComponentWrite

/-- The frame of an alternative without a list whose components keep these
octets; none when one of them keeps nothing. -/
def keptFrame (id : Int32) (alt : String) (components : List (String × Option Bytes)) :
    Option Bytes :=
  if components.all (·.2.isSome) then
    some (packetDer (fun name => if name = "id" then some (intOctets id.toInt)
      else (components.lookup name).join) (fun _ => 0) alt)
  else none

/-! ## Which frames are refused -/

theorem lookup_keeps {lib : Libtasn1} {ws : List ComponentWrite} (hnodup : (ws.map (·.name)).Nodup)
    {w : ComponentWrite} (hw : w ∈ ws) :
    (ws.map fun w => (w.name, w.keeps lib)).lookup w.name = some (w.keeps lib) := by
  induction ws with
  | nil => cases hw
  | cons w' ws ih =>
    obtain ⟨hnew, hnodup⟩ := List.nodup_cons.mp hnodup
    rw [List.map_cons, List.lookup_cons]
    rcases List.mem_cons.mp hw with rfl | hw
    · rw [beq_self_eq_true]
    · have hne : w.name ≠ w'.name := by
        intro he
        exact hnew (List.mem_map.mpr ⟨w, hw, he⟩)
      rw [beq_false_of_ne hne]
      exact ih hnodup hw

variable {L : Libraries}

/-- The tree `encode` comes to code: the id, and each component as its write left it. -/
structure Holds (lib : Libtasn1) (n : lib.Node) (id : Int32) (alt : String)
    (ws : List ComponentWrite) : Prop where
  chosen : lib.chosen n = some alt
  id : lib.stored n "id" = some (intOctets id.toInt)
  component : ∀ w ∈ ws, lib.stored n w.name = w.keeps lib ∨ w.keeps lib = none ∧
    ∃ name memory size rest, w = .buffer name (.memory memory) size ∧
      lib.stored n w.name = some (memory ++ rest)

theorem encodeTree_holds (h : L.asn1.Documented) (hp : L.asn1.Precise)
    {payload : PayloadVariants L.arrow.Table} (id : Int32) {ws : List ComponentWrite}
    (hls : ∀ l, payload ≠ .lsSolution l) (hws : componentWrites L.arrow payload = .ok ws)
    (hfit : ∀ w ∈ ws, w.Fits payload.altName) :
    ∃ n, encodeTree L payload id = .ok n ∧ Holds L.asn1 n id payload.altName ws := by
  obtain ⟨n, hn, hs, hempty⟩ := encodeTree_eq_writeAll h id hls hws
  have hw := componentWrites_writable hws hls
  obtain ⟨hc, hkeep, heach⟩ := h.framed.writeAll hw hs.chosen
  refine ⟨_, hn, hc, ?_, ?_⟩
  · exact (hkeep "id" hw.id_not_mem).trans (hs.stored _ (List.mem_singleton_self _))
  · intro w hmem
    obtain ⟨m, hcm, hm, hvalue⟩ := heach w hmem
    have hnone : L.asn1.stored m w.name = none := hm.trans (hempty _ (hw.scalar hmem).1)
    rw [hvalue]
    exact w.write_keeps h hp (hfit w hmem) hcm hnone

section Frame
variable {lib : Libtasn1} {n : lib.Node} {id : Int32} {alt : String} {ws : List ComponentWrite}
  {fields : List (String × Asn1Type)}

/-- With something kept in every component, the tree is complete and its coding is the frame. -/
theorem Holds.frame (hp : lib.Precise) (hn : Holds lib n id alt ws) (hw : Writable alt ws)
    (hf : packetsAsn1.lookup alt = some fields)
    (hcover : ws.map (·.name) = fields.map fun f => fieldName alt f.1)
    (hall : ∀ w ∈ ws, (w.keeps lib).isSome) :
    lib.Complete n ∧ ∃ frame, keptFrame id alt (ws.map fun w => (w.name, w.keeps lib)) = some frame ∧
      lib.derSize n = frame.length := by
  have hkeeps : ∀ w ∈ ws, lib.stored n w.name = w.keeps lib := by
    intro w hmem
    rcases hn.component w hmem with hsame | ⟨hnone, -⟩
    · exact hsame
    · have hsome := hall w hmem
      rw [hnone] at hsome
      cases hsome
  have hplace : ∀ f ∈ fields, ∃ w ∈ ws, w.name = fieldName alt f.1 :=
    fun f hmem => List.mem_map.mp (hcover ▸ List.mem_map_of_mem hmem)
  have hlist : ∀ f ∈ fields, f.2 ≠ .sequenceOfUtf8String := by
    intro f hmem hty
    obtain ⟨w, hw', hname⟩ := hplace f hmem
    refine (hw.scalar hw').2.2 ?_
    rw [hname, (elementType_field hf hmem).2, hty]
  have hstored : ∀ f ∈ fields, (lib.stored n (fieldName alt f.1)).isSome := by
    intro f hmem
    obtain ⟨w, hw', hname⟩ := hplace f hmem
    rw [← hname, hkeeps w hw']
    exact hall w hw'
  have hcomplete : lib.Complete n := by
    refine ⟨by rw [hn.id]; rfl, alt, fields, hn.chosen, hf, fun f hmem => ?_⟩
    have hty := hlist f hmem
    have hsome := hstored f hmem
    obtain ⟨field, ty⟩ := f
    cases ty with
    | sequenceOfUtf8String => exact absurd rfl hty
    | integer => exact hsome
    | octetString => exact hsome
  refine ⟨hcomplete, _, if_pos ?_, ?_⟩
  · rw [List.all_map, List.all_eq_true]
    exact hall
  · rw [hp.der_size n alt hcomplete hn.chosen]
    refine congrArg List.length (packetDer_congr _ _ hf hlist hn.id fun f hmem => ?_)
    obtain ⟨w, hw', hname⟩ := hplace f hmem
    rw [← hname, hkeeps w hw', if_neg (hw.scalar hw').1, lookup_keeps hw.nodup hw']
    rfl

/-- A component that keeps nothing has no value, or one that is too long for a coding. -/
theorem Holds.unkept (hp : lib.Precise) (hn : Holds lib n id alt ws) (hw : Writable alt ws)
    (hfit : ∀ w ∈ ws, w.Fits alt)
    (hlong : ∀ w ∈ ws, w.Oversized)
    {w : ComponentWrite} (hmem : w ∈ ws) (hnone : w.keeps lib = none) (hc : lib.Complete n) :
    2 ^ 31 ≤ lib.derSize n := by
  rcases hn.component w hmem with hsame | ⟨-, name, memory, size, rest, rfl, hmore⟩
  · exact absurd hc (hw.incomplete hmem hn.chosen (hsame.trans hnone))
  · have hle : 2 ^ 31 ≤ memory.length := hlong _ hmem
    obtain ⟨fields, f, hf, hfield, -, hname⟩ := hw.component _ hmem
    have hty := (elementType_field hf hfield).2
    rw [← hname] at hty
    have hoctets := hty.symm.trans (hfit _ hmem).1
    obtain ⟨field, ty⟩ := f
    cases hoctets
    have hlt := length_lt_packetDer (lib.elements n) hf hfield (hname ▸ hmore)
    rw [List.length_append] at hlt
    rw [hp.der_size n alt hc hn.chosen]
    omega

end Frame

/-- `encode` of an alternative without a list throws exactly if one of its
components keeps nothing, or the frame of what they keep is too long. -/
theorem encode_error_iff (h : L.Documented) (hp : L.asn1.Precise)
    {payload : PayloadVariants L.arrow.Table} (id : Int32) {ws : List ComponentWrite}
    {fields : List (String × Asn1Type)} (hls : ∀ l, payload ≠ .lsSolution l)
    (hws : componentWrites L.arrow payload = .ok ws)
    (hf : packetsAsn1.lookup payload.altName = some fields)
    (hcover : ws.map (·.name) = fields.map fun f => fieldName payload.altName f.1)
    (hfit : ∀ w ∈ ws, w.Fits payload.altName)
    (hlong : ∀ w ∈ ws, w.Oversized) :
    (∃ e, encode L payload id = .error e) ↔
      ∀ frame, keptFrame id payload.altName (ws.map fun w => (w.name, w.keeps L.asn1)) =
        some frame →
        2 ^ 31 ≤ frame.length := by
  obtain ⟨n, hn, hholds⟩ := encodeTree_holds h.asn1 hp id hls hws hfit
  have hw := componentWrites_writable hws hls
  rw [encode_of_tree h.asn1.array2tree hn]
  by_cases hnone : ∃ w ∈ ws, w.keeps L.asn1 = none
  · obtain ⟨w, hmem, hnone⟩ := hnone
    refine iff_of_true ?_ ?_
    · cases hcode : derCode L n with
      | error e => exact ⟨e, rfl⟩
      | ok buffer =>
        obtain ⟨hc, hlt, -⟩ := derCode_eq_ok h.asn1 hcode
        have hle := hholds.unkept hp hw hfit hlong hmem hnone hc
        omega
    · intro frame hframe
      unfold keptFrame at hframe
      split at hframe
      · rename_i hsome
        have hw' := List.all_eq_true.mp hsome _ (List.mem_map_of_mem hmem)
        rw [hnone] at hw'
        cases hw'
      · cases hframe
  · have hall : ∀ w ∈ ws, (w.keeps L.asn1).isSome :=
      fun w hmem => Option.isSome_iff_ne_none.mpr fun he => hnone ⟨w, hmem, he⟩
    obtain ⟨hc, frame, hframe, hsize⟩ := hholds.frame hp hw hf hcover hall
    rw [hframe]
    constructor
    · rintro ⟨e, he⟩ frame' hsame
      cases hsame
      by_contra hlt
      obtain ⟨buffer, hok⟩ := derCode_ok h.asn1 hc (by omega)
      rw [hok] at he
      cases he
    · intro hle
      have hsize' := hle frame rfl
      cases hcode : derCode L n with
      | error e => exact ⟨e, rfl⟩
      | ok buffer =>
        have hlt := (derCode_eq_ok h.asn1 hcode).2.1
        omega

/-! ## Tables and byte vectors -/

/-- The octets whose length goes through an `int`: the stream of a table, or
the bytes of a `Universal`. -/
def bulkOctets (L : Libraries) : PayloadVariants L.arrow.Table → Option Bytes
  | .file f => (tableToBuffer L.arrow f.payload).toOption
  | .viewport v => (tableToBuffer L.arrow v.payload).toOption
  | .universal u => some u.bytes
  | _ => none

/-- The components of such a payload, each with the octets kept of it. -/
def keptComponents {T : Type} (lib : Libtasn1) (octets : Bytes) :
    PayloadVariants T → List (String × Option Bytes)
  | .file f => [("payload.file.filePath", keptString lib f.filePath),
      ("payload.file.start", some (intOctets f.start.toInt)),
      ("payload.file.end", some (intOctets f.end_.toInt)),
      ("payload.file.payload", keptBuffer lib octets)]
  | .viewport v => [("payload.viewport.xStart", some (intOctets v.xStart.toInt)),
      ("payload.viewport.xEnd", some (intOctets v.xEnd.toInt)),
      ("payload.viewport.yStart", some (intOctets v.yStart.toInt)),
      ("payload.viewport.yEnd", some (intOctets v.yEnd.toInt)),
      ("payload.viewport.payload", keptBuffer lib octets)]
  | .universal u => [("payload.universal.type", some (intOctets u.type.toInt)),
      ("payload.universal.bytes", keptBuffer lib octets)]
  | _ => []

theorem tableToBuffer_of_bulk {arrow : Arrow} {table : arrow.Table} {octets : Bytes}
    (h : (tableToBuffer arrow table).toOption = some octets) :
    tableToBuffer arrow table = .ok octets := by
  cases hb : tableToBuffer arrow table with
  | error e => rw [hb] at h; cases h
  | ok b => rw [hb] at h; cases h; rfl

namespace Reference

/-- Of 2^32 + 4 bytes the first four are written. -/
theorem encode_universal_long {bytes : Bytes} (hlen : bytes.length = 2 ^ 32 + 4) (type id : Int32) :
    encode libraries (.universal { type, bytes }) id =
      encode libraries (.universal { type, bytes := bytes.take 4 }) id := by
  have hne : bytes ≠ [] := by
    intro he
    rw [he] at hlen
    cases hlen
  have htake : (bytes.take 4).length = 4 := by
    rw [List.length_take, hlen]
    rfl
  have hne' : bytes.take 4 ≠ [] := by
    intro he
    rw [he] at htake
    cases htake
  have hbuffer : ∀ packet : Tree, asn1EncodePayloadBuffer asn1 (vectorData bytes)
      (Int32.ofNat bytes.length) packet "payload.universal.bytes" =
        asn1EncodePayloadBuffer asn1 (vectorData (bytes.take 4))
          (Int32.ofNat (bytes.take 4).length) packet "payload.universal.bytes" := by
    intro packet
    have hwrite := congrArg Prod.snd (writeValue_long packet "payload.universal.bytes" hlen)
    rw [vectorData, if_neg hne, vectorData, if_neg hne', htake]
    exact hwrite
  have htree : encodeTree libraries (.universal { type, bytes }) id =
      encodeTree libraries (.universal { type, bytes := bytes.take 4 }) id := by
    rw [encodeTree_eq_writes id (by simp), encodeTree_eq_writes id (by simp)]
    exact bind_congr fun packet => congrArg Except.ok (hbuffer _)
  unfold encode
  rw [htree]

end Reference

end Ttp2
