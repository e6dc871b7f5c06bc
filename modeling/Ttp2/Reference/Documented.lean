import Ttp2.Reference.Coding

/-! # The concrete libraries behave as documented

The laws of `Libtasn1.Documented` and `Arrow.Documented` hold of the concrete
libtasn1 and of a small Arrow, so they can be relied on together. -/
namespace Ttp2
open Lib TwosComplement Der

namespace Reference

/-- An Arrow whose tables are one column of octets, streamed behind the four
octets an IPC stream starts with. -/
def arrow : Arrow where
  Table := Bytes
  writeTable := fun _ => true
  finish := fun table => some ([0xFF, 0xFF, 0xFF, 0xFF] ++ table)
  resize := fun _ => true
  append := fun _ => true
  finishBuilder := fun _ => true
  openStream := fun _ => true
  toTable := fun stream => some (stream.drop 4)

def libraries : Libraries := ⟨asn1, arrow, fun _ => ""⟩

open Reference.Tree

theorem writeValue_cases (n : Tree) (name : String) (v : Asn1Value) (len : Int32) :
    (n.writeValue name v len).2 = n ∨ Wrote n name v (n.writeValue name v len).2 := by
  unfold writeValue
  cases h : n.write name v len with
  | none => exact .inl rfl
  | some m => exact .inr (write_cases h)

theorem writeValue_octets {n : Tree} {name : String} {v : Asn1Value} {len : Int32}
    {octets : Bytes} (ho : asn1.OctetElement n name) (hv : octetsOf v len = some octets) :
    (asn1.writeValue n name v len).1 = .success ∧
      asn1.stored (asn1.writeValue n name v len).2 name = some octets := by
  obtain ⟨m, hm, hst⟩ := write_octets ho hv
  show (n.writeValue name v len).1 = _ ∧ (n.writeValue name v len).2.stored name = _
  rw [writeValue_of_write hm]
  exact ⟨rfl, hst⟩

/-- A write that is refused leaves the tree as it was. -/
theorem writeValue_refused {n : Tree} {name : String} {v : Asn1Value} {len : Int32}
    (ho : asn1.OctetElement n name) (hv : octetsOf v len = none) :
    n.writeValue name v len = (.other, n) := by
  rw [Tree.writeValue, write_octets_none ho hv]

theorem write_alternative {n : Tree} {alt : String} (len : Int32) (hc : n.chosen = none)
    (halt : (packetsAsn1.lookup alt).isSome) :
    n.writeValue "payload" (.text alt) len = (.success, { id := n.id, chosen := some alt }) := by
  refine writeValue_of_write ?_
  unfold Tree.write
  rw [if_pos rfl]
  exact if_pos ⟨hc, halt⟩

theorem derCoding_of_complete {n : Tree} (hc : asn1.Complete n) (hlt : n.code.length < 2 ^ 31)
    (room : Int32) : n.derCoding room =
      if room.toInt < n.code.length then
        { status := .memError, len := Int32.ofNat n.code.length, errorDescription := "no room" }
      else { status := .success, len := Int32.ofNat n.code.length, bytes := n.code } := by
  unfold Tree.derCoding
  rw [complete_iff.mpr hc, if_neg (by simp), if_neg (by omega)]

theorem derCoding_success {n : Tree} {room : Int32} (h : (n.derCoding room).status = .success) :
    n.complete ∧ n.code.length < 2 ^ 31 ∧ (n.derCoding room).bytes = n.code := by
  unfold Tree.derCoding at h ⊢
  split at h
  · cases h
  · rename_i hc
    split at h
    · cases h
    · rename_i hlt
      split at h
      · cases h
      · rename_i hroom
        rw [if_neg hc, if_neg hlt, if_neg hroom]
        exact ⟨by simpa using hc, by omega, rfl⟩

theorem asn1_documented : asn1.Documented where
  array2tree := rfl
  create_chosen := rfl
  write_frame := by
    intro (n : Tree) name v len name' hp hne hv
    rcases writeValue_cases n name v len with h | h
    · exact ⟨congrArg (Tree.stored · name') h, congrArg (Tree.elements · name') h⟩
    · exact Tree.write_frame h hp hne hv
  write_chosen := by
    intro (n : Tree) name v len hp
    rcases writeValue_cases n name v len with h | h
    · exact congrArg Tree.chosen h
    · exact Tree.write_chosen h hp
  write_choice_id := by
    intro (n : Tree) v len
    rcases writeValue_cases n "payload" v len with h | h
    · exact congrArg (Tree.stored · "id") h
    · show (n.writeValue "payload" v len).2.stored "id" = n.stored "id"
      generalize n.writeValue "payload" v len = w at h
      obtain ⟨status, m⟩ := w
      cases h with
      | choice => rfl
      | field hp => exact absurd rfl hp
      | append hp => exact absurd rfl hp
      | clear hp => exact absurd rfl hp
      | item hp => exact absurd rfl hp
  write_choice := by
    intro (n : Tree) alt len hc halt
    change n.chosen = none at hc
    have hw := write_alternative len hc halt
    refine ⟨congrArg Prod.fst hw, congrArg (·.2.chosen) hw, fun key => ?_⟩
    refine (congrArg (·.2.elements key) hw).trans ?_
    simp [Tree.elements]
  write_integer := by
    intro (n : Tree) name v hty
    change elementType n.chosen name = _ at hty
    have hw : n.write name (.text (toString v.toInt)) 0 =
        some (n.setField name (intOctets v.toInt)) := by
      unfold Tree.write
      rw [if_neg (ne_payload_of_elementType hty), hty]
      dsimp only
      rw [parseInteger_toString]
      rfl
    show (n.writeValue name (.text (toString v.toInt)) 0).1 = _ ∧
      (n.writeValue name (.text (toString v.toInt)) 0).2.stored name = _
    rw [writeValue_of_write hw]
    exact ⟨rfl, stored_setField _ (.inl hty)⟩
  write_octets := by
    intro (n : Tree) name memory len ho hpos hle
    refine writeValue_octets ho ?_
    have hne : len ≠ 0 := by
      rintro rfl
      exact absurd hpos (by decide)
    rw [octetsOf, if_neg hne, if_pos hle]
  write_terminated := by
    intro (n : Tree) name memory ho hzero
    exact writeValue_octets ho (by rw [octetsOf, if_pos rfl, if_pos hzero])
  write_null := by
    intro (n : Tree) name len ho
    show (n.writeValue name .null len).1 ≠ _ ∧ (n.writeValue name .null len).2.stored name = _
    rw [writeValue_refused ho rfl]
    exact ⟨by simp, rfl⟩
  choice_empty := by
    intro (n : Tree) alt len name hc halt hne
    change n.chosen = none at hc
    refine (congrArg (·.2.stored name) (write_alternative len hc halt)).trans ?_
    simp only [Tree.stored, if_neg hne]
    cases elementType (some alt) name with
    | some ty => cases ty <;> rfl
    | none =>
      cases h : Tree.itemIndex { id := n.id, chosen := some alt } name with
      | none => rfl
      | some k => exact absurd (itemIndex_eq_some h).2.1 (Nat.not_lt_zero k)
  write_new := by
    intro (n : Tree) key len hty
    change elementType n.chosen key = _ at hty
    obtain ⟨hc, rfl⟩ := elementType_list hty
    have hw : n.write itemsKey (.text "NEW") len = some { n with items := n.items ++ [none] } := by
      unfold Tree.write
      rw [if_neg (by decide), hty]
      rfl
    show (n.writeValue itemsKey (.text "NEW") len).1 = _ ∧
      (n.writeValue itemsKey (.text "NEW") len).2.elements itemsKey = n.elements itemsKey + 1
    rw [writeValue_of_write hw]
    refine ⟨rfl, ?_⟩
    simp only [Tree.elements, hty, if_true, List.length_append, List.length_singleton]
  read_value := by
    intro (n : Tree) name octets room hst
    change n.stored name = _ at hst
    show n.readValue name room = _
    rw [Tree.readValue, hst]
  read_choice := by
    intro (n : Tree) alt room hc hlt
    change n.chosen = _ at hc
    show n.readChoice "payload" room = _
    rw [Tree.readChoice, if_pos rfl, hc]
    simp [hlt]
  number_of_elements := by
    intro (n : Tree) key hty
    change elementType n.chosen key = _ at hty
    show n.numberOfElements key = (.success, n.elements key)
    rw [Tree.numberOfElements, Tree.elements, if_pos hty, if_pos hty]
  der_length := by
    intro (n : Tree) hc hlt
    change n.code.length < _ at hlt
    show (n.derCoding 0).len = Int32.ofNat n.code.length
    rw [derCoding_of_complete hc hlt]
    split <;> rfl
  der_success := by
    intro (n : Tree) hc hlt
    change n.code.length < _ at hlt
    show (n.derCoding (Int32.ofNat n.code.length)).status = _
    rw [derCoding_of_complete hc hlt, toInt_ofNat_of_lt hlt, if_neg (by omega)]
  der_requires := by
    intro (n : Tree) room h
    obtain ⟨hc, hlt, hbytes⟩ := derCoding_success h
    exact ⟨complete_iff.mp hc, hlt, congrArg List.length hbytes⟩
  der_decoding := by
    intro (n : Tree) room h
    obtain ⟨hc, hlt, hbytes⟩ := derCoding_success h
    obtain ⟨m, hm, hsame⟩ := decodeTree_code hc hlt
    refine ⟨m, ?_, hsame⟩
    show decodeTree (n.derCoding room).bytes = some m
    rw [hbytes]
    exact hm

theorem arrow_documented : arrow.Documented where
  stream_nonempty := by
    intro table buffer h
    cases h
    simp
  round_trip := by
    intro table buffer h
    cases h
    rfl

theorem libraries_documented : libraries.Documented := ⟨asn1_documented, arrow_documented⟩

end Reference
end Ttp2
