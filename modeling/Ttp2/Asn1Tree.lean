import Ttp2.WireForm

/-! # What the helpers leave in the tree, and what they read from it

`Stores` says which alternative a node has chosen and which octets some of
its elements hold. Each writing helper adds its own element to what a node
stores and keeps the rest; each reading helper returns the wire form of what
was written. -/
namespace Ttp2
open Lib TwosComplement Asn1Helpers

theorem toInt_ofNat_of_lt {k : Nat} (h : k < 2 ^ 31) : (Int32.ofNat k).toInt = k := by
  rw [Int32.toInt_ofNat']
  have hsize : Int32.size = 2 ^ 32 := rfl
  rw [hsize]
  exact Int.bmod_eq_of_le (by omega) (by omega)

/-! ## Element names -/

theorem toString_nat_inj {i j : Nat} (h : toString i = toString j) : i = j := by
  have hlist := congrArg String.toList h
  rw [Nat.toString_eq_ofList_toDigits, Nat.toString_eq_ofList_toDigits, String.toList_ofList,
    String.toList_ofList] at hlist
  have hnum := congrArg (fun ds => Nat.ofDigitChars 10 ds 0) hlist
  simpa [Nat.ofDigitChars_toDigits] using hnum

theorem elementName_inj {key : String} {i j : Nat} (h : elementName key i = elementName key j) :
    i = j := by
  have hlist := congrArg String.toList h
  simp only [elementName, String.toList_append] at hlist
  exact toString_nat_inj (String.toList_inj.mp (List.append_cancel_left hlist))

theorem length_elementName (key : String) (k : Nat) :
    key.length + 2 < (elementName key k).length := by
  have hpos : 0 < (toString k).length := by
    rw [Nat.toString_eq_ofList_toDigits, String.length_ofList]
    exact Nat.length_toDigits_pos
  have hq : (".?" : String).length = 2 := rfl
  simp only [elementName, String.length_append, hq]
  omega

theorem elementName_ne {key name : String} (k : Nat) (h : name.length ≤ key.length + 2) :
    elementName key k ≠ name := by
  rintro rfl
  have := length_elementName key k
  omega

/-! ## The schema -/

/-- A typed element other than the id is a component of the chosen alternative. -/
theorem elementType_eq_some {c : Option String} {name : String} {ty : Asn1Type}
    (h : elementType c name = some ty) (hne : name ≠ "id") :
    ∃ alt fields f, c = some alt ∧ packetsAsn1.lookup alt = some fields ∧ f ∈ fields ∧
      name = fieldName alt f.1 ∧ f.2 = ty := by
  unfold elementType at h
  rw [if_neg hne] at h
  simp only [bind, Option.bind_eq_some_iff, pure, Option.some.injEq] at h
  obtain ⟨alt, hc, fields, hf, f, hfind, hty⟩ := h
  have hname := List.find?_some hfind
  exact ⟨alt, fields, f, hc, hf, List.mem_of_find?_eq_some hfind, by simpa using hname, hty⟩

theorem mem_of_lookup {alt : String} {fields : List (String × Asn1Type)}
    (h : packetsAsn1.lookup alt = some fields) : (alt, fields) ∈ packetsAsn1 := by
  obtain ⟨as, bs, hsplit, -⟩ := List.lookup_eq_some_iff.mp h
  rw [hsplit]
  simp

theorem fieldName_ne_payload (alt field : String) : fieldName alt field ≠ "payload" := by
  intro h
  have hlen := congrArg String.length h
  have h8 : "payload.".length = 8 := rfl
  have h7 : "payload".length = 7 := rfl
  simp only [fieldName, String.length_append] at hlen
  omega

/-- The type of a component, by its place in the schema. -/
theorem elementType_field {alt : String} {fields : List (String × Asn1Type)}
    (hf : packetsAsn1.lookup alt = some fields) {f : String × Asn1Type} (hmem : f ∈ fields) :
    fieldName alt f.1 ≠ "id" ∧ elementType (some alt) (fieldName alt f.1) = some f.2 := by
  have hall : ∀ a ∈ packetsAsn1, ∀ g ∈ a.2, fieldName a.1 g.1 ≠ "id" ∧
      elementType (some a.1) (fieldName a.1 g.1) = some g.2 := by decide
  exact hall _ (mem_of_lookup hf) f hmem

/-! ## Writing -/

/-- A write keeps the choice and what other names store, whatever its status. -/
structure Libtasn1.Framed (lib : Libtasn1) : Prop where
  frame : ∀ n name v len name', name ≠ "payload" → name' ≠ name →
    (v = .null → elementType (lib.chosen n) name ≠ some .sequenceOfUtf8String) →
    lib.stored (lib.writeValue n name v len).2 name' = lib.stored n name' ∧
      lib.elements (lib.writeValue n name v len).2 name' = lib.elements n name'
  chosen : ∀ n name v len, name ≠ "payload" →
    lib.chosen (lib.writeValue n name v len).2 = lib.chosen n

theorem Libtasn1.Documented.framed {lib : Libtasn1} (h : lib.Documented) : lib.Framed :=
  ⟨h.write_frame, h.write_chosen⟩

/-- The node has chosen the alternative, and the listed elements hold the
listed octets. -/
structure Stores (lib : Libtasn1) (n : lib.Node) (alt : String) (facts : List (String × Bytes)) :
    Prop where
  chosen : lib.chosen n = some alt
  stored : ∀ f ∈ facts, lib.stored n f.1 = some f.2

variable {lib : Libtasn1} {n : lib.Node} {alt name : String} {facts : List (String × Bytes)}

/-- A successful write of a new element adds it to what the node stores. -/
theorem Stores.write (h : lib.Documented) (hs : Stores lib n alt facts) {v : Asn1Value}
    {len : Int32} {octets : Bytes} (hv : v ≠ .null) (hp : name ≠ "payload")
    (hnew : name ∉ facts.map Prod.fst)
    (hw : lib.stored (lib.writeValue n name v len).2 name = some octets) :
    Stores lib (lib.writeValue n name v len).2 alt ((name, octets) :: facts) := by
  refine ⟨by rw [h.write_chosen n name v len hp, hs.chosen], ?_⟩
  intro f hf
  rcases List.mem_cons.mp hf with rfl | hf
  · exact hw
  · have hne : f.1 ≠ name := fun he => hnew (List.mem_map.mpr ⟨f, hf, he⟩)
    rw [(h.write_frame n name v len f.1 hp hne (fun he => absurd he hv)).1]
    exact hs.stored f hf

theorem Stores.writeInt (h : lib.Documented) (hs : Stores lib n alt facts) (name : String)
    (v : Int32)
    (ht : elementType (some alt) name = some .integer) (hp : name ≠ "payload")
    (hnew : name ∉ facts.map Prod.fst) :
    Stores lib (asn1EncodePayloadInt lib v n name) alt ((name, intOctets v.toInt) :: facts) := by
  rw [← hs.chosen] at ht
  exact hs.write h (by simp) hp hnew (h.write_integer n name v ht).2

/-- Writing octets through a pointer: a positive length takes so many of
them, length 0 takes them up to the first NUL. -/
theorem write_memory (h : lib.Documented) {memory octets rest : Bytes} (ho : lib.OctetElement n name)
    (hm : memory = octets ++ rest) (hlt : octets.length < 2 ^ 31)
    (hend : octets = [] → rest.head? = some 0) :
    (lib.writeValue n name (.memory memory) (Int32.ofNat octets.length)).1 = .success ∧
      lib.stored (lib.writeValue n name (.memory memory) (Int32.ofNat octets.length)).2 name =
        some octets := by
  subst hm
  have hlen := toInt_ofNat_of_lt hlt
  cases octets with
  | nil =>
    obtain ⟨rest', rfl⟩ : ∃ rest', rest = 0 :: rest' := by
      cases rest with
      | nil => simp at hend
      | cons b rest => simp at hend; exact ⟨rest, by rw [hend]⟩
    have := h.write_terminated n name (0 :: rest') ho (by simp)
    simpa using this
  | cons b octets =>
    have hw := h.write_octets n name (b :: octets ++ rest) (Int32.ofNat (b :: octets).length) ho
      (by rw [hlen]; simp only [List.length_cons]; omega)
      (by rw [hlen, List.length_append]; omega)
    rw [hlen, Int.toNat_natCast, List.take_left] at hw
    exact hw

theorem Stores.writeString (h : lib.Documented) (hs : Stores lib n alt facts) (name : String)
    (s : Bytes) (hlt : s.length < 2 ^ 31) (ht : elementType (some alt) name = some .octetString)
    (hp : name ≠ "payload") (hnew : name ∉ facts.map Prod.fst) :
    Stores lib (asn1EncodePayloadString lib s n name) alt ((name, wireString s) :: facts) := by
  rw [← hs.chosen] at ht
  have hsplit : s ++ [0] = wireString s ++ (s.dropWhile (· ≠ 0) ++ [0]) := by
    rw [← List.append_assoc, wireString, List.takeWhile_append_dropWhile]
  have hle : (wireString s).length ≤ s.length := (List.takeWhile_prefix _).length_le
  have hw := write_memory h (.inl ht) hsplit (by omega) (by
    intro he
    cases hd : s.dropWhile (· ≠ 0) with
    | nil => rfl
    | cons b rest =>
      have hb := List.head?_dropWhile_not (· ≠ 0) s
      rw [hd] at hb
      simpa using hb)
  exact hs.write h (by simp [cStr]) hp hnew hw.2

theorem Stores.writeBuffer (h : lib.Documented) (hs : Stores lib n alt facts) (name : String)
    (b : Bytes) (hne : b ≠ []) (hlt : b.length < 2 ^ 31)
    (ht : elementType (some alt) name = some .octetString)
    (hp : name ≠ "payload") (hnew : name ∉ facts.map Prod.fst) :
    Stores lib (asn1EncodePayloadBuffer lib (.memory b) (Int32.ofNat b.length) n name) alt
      ((name, b) :: facts) := by
  rw [← hs.chosen] at ht
  have hw := write_memory h (.inl ht) (List.append_nil b).symm hlt (fun he => absurd he hne)
  exact hs.write h (by simp) hp hnew hw.2

/-! ## Reading -/

section Reading
variable {key : String} {octets : Bytes}

/-- The first of the two reads learns the length. -/
theorem read_length (h : lib.Documented) (hs : lib.stored n key = some octets) :
    lib.readValue n key 0 =
      { status := if octets = [] then .success else .memError, len := octets.length } := by
  rw [h.read_value n key octets 0 hs]
  cases octets with
  | nil => rfl
  | cons b octets => rw [if_neg (by simp), if_neg (by simp)]

/-- The second, with that much room, gets the octets. -/
theorem read_octets (h : lib.Documented) (hs : lib.stored n key = some octets) :
    lib.readValue n key octets.length =
      { status := .success, len := octets.length, bytes := octets } := by
  rw [h.read_value n key octets _ hs, if_pos (le_refl _)]

theorem asn1DecodePayloadString_of_stored (h : lib.Documented)
    (hs : lib.stored n key = some octets) : asn1DecodePayloadString lib n key = octets := by
  simp only [asn1DecodePayloadString, read_length h hs, read_octets h hs, fill_length,
    List.take_length]
  split
  · rfl
  · rename_i hz
    exact (List.eq_nil_of_length_eq_zero (by omega)).symm

theorem asn1DecodePayloadInt_of_stored (h : lib.Documented)
    (hs : lib.stored n key = some octets) :
    asn1DecodePayloadInt lib n key = bytesToInt octets octets.length := by
  simp only [asn1DecodePayloadInt, read_length h hs, read_octets h hs, fill_length]
  split
  · rfl
  · rename_i hz
    have hnil : octets = [] := List.eq_nil_of_length_eq_zero (by omega)
    rw [hnil]

theorem asn1DecodePayloadBuffer_of_stored (h : lib.Documented)
    (hs : lib.stored n key = some octets) : asn1DecodePayloadBuffer lib n key = octets := by
  simp only [asn1DecodePayloadBuffer, read_length h hs, read_octets h hs, fill_length]
  cases octets with
  | nil => rfl
  | cons b octets => rw [if_pos (by simp)]

theorem asn1DecodeItem_of_stored (h : lib.Documented) {k : Nat}
    (hs : lib.stored n (elementName key k) = some octets) :
    asn1DecodeItem lib n key k = some octets := by
  simp only [asn1DecodeItem, read_length h hs, read_octets h hs, fill_length]
  by_cases he : octets = [] <;> simp [he]

end Reading

theorem Stores.readInt (h : lib.Documented) (hs : Stores lib n alt facts) {v : Int32}
    (hm : (name, intOctets v.toInt) ∈ facts) : asn1DecodePayloadInt lib n name = wireInt v :=
  asn1DecodePayloadInt_of_stored h (hs.stored _ hm)

theorem Stores.readString (h : lib.Documented) (hs : Stores lib n alt facts) {s : Bytes}
    (hm : (name, s) ∈ facts) : asn1DecodePayloadString lib n name = s :=
  asn1DecodePayloadString_of_stored h (hs.stored _ hm)

theorem Stores.readBuffer (h : lib.Documented) (hs : Stores lib n alt facts) {b : Bytes}
    (hm : (name, b) ∈ facts) : asn1DecodePayloadBuffer lib n name = b :=
  asn1DecodePayloadBuffer_of_stored h (hs.stored _ hm)

end Ttp2
