import Ttp2.Reference.Documented
import Ttp2.Asn1Der

/-! # The concrete libtasn1 at the edges of its contract

`Libtasn1.Unwritten` and `Libtasn1.Precise` hold of it too: of a negative
length it stores an empty value, and its coding is `packetDer` of what it
stores. -/
namespace Ttp2
open Lib TwosComplement Der

namespace Reference
namespace Tree
variable {n : Tree}

theorem items_eq_range (items : List (Option Bytes)) :
    items.map (·.getD []) = (List.range items.length).map fun k => (items[k]?.join).getD [] := by
  refine List.ext_getElem (by simp) fun k hk hk' => ?_
  rw [List.length_map] at hk
  simp [List.getElem?_eq_getElem hk]

theorem fieldCode_eq_componentDer {alt : String} {fields : List (String × Asn1Type)}
    (hc : n.chosen = some alt) (hf : packetsAsn1.lookup alt = some fields)
    {f : String × Asn1Type} (hmem : f ∈ fields) :
    n.fieldCode alt f = componentDer n.stored n.elements alt f := by
  obtain ⟨hid, htype⟩ := elementType_field hf hmem
  have hlist := list_field hf hmem
  obtain ⟨name, ty⟩ := f
  dsimp only at hid htype hlist ⊢
  cases ty with
  | integer => simp only [fieldCode, componentDer, stored, if_neg hid, hc, htype]
  | octetString => simp only [fieldCode, componentDer, stored, if_neg hid, hc, htype]
  | sequenceOfUtf8String =>
    obtain ⟨rfl, hkey⟩ := hlist rfl
    have hcount : n.elements itemsKey = n.items.length := by
      rw [elements, hc, elementType_itemsKey, if_pos rfl]
    simp only [fieldCode, componentDer, hkey, hcount, stored_item hc]
    rw [items_eq_range, List.flatMap_map]

theorem code_eq_packetDer {alt : String} (hcomplete : asn1.Complete n)
    (hc : n.chosen = some alt) : n.code = packetDer n.stored n.elements alt := by
  obtain ⟨-, alt', fields, hc', hf, -⟩ := hcomplete
  cases hc.symm.trans hc'
  have hid : n.stored "id" = n.id := if_pos rfl
  have hfields : fields.flatMap (n.fieldCode alt) =
      fields.flatMap (componentDer n.stored n.elements alt) :=
    List.flatMap_congr fun f hmem => fieldCode_eq_componentDer hc hf hmem
  rw [code, payloadCode, packetDer, hc, hid]
  dsimp only
  rw [hf, Option.getD_some, hfields]
  rfl

end Tree

theorem asn1_writesNegative : asn1.WritesNegative := by
  intro (n : Tree) name memory len ho hneg
  refine writeValue_octets ho ?_
  have hzero : len ≠ 0 := by
    rintro rfl
    exact absurd hneg (by decide)
  have hnothing : len.toInt.toNat = 0 := by omega
  rw [Tree.octetsOf, if_neg hzero, if_pos (by omega), hnothing, List.take_zero]

theorem asn1_unwritten : asn1.Unwritten where
  create_id := rfl
  der_reports := by
    intro (n : Tree) hcomplete
    have hfalse : n.complete = false :=
      Bool.eq_false_iff.mpr fun hc => hcomplete (Tree.complete_iff.mp hc)
    show 0 ≤ (n.derCoding 0).len.toInt
    rw [Tree.derCoding, hfalse, if_pos (by rfl)]
    decide

theorem asn1_precise : asn1.Precise where
  write_negative := asn1_writesNegative
  write_unterminated := by
    intro (n : Tree) name memory ho hend
    have hv : Tree.octetsOf (.memory memory) 0 = none := by
      rw [Tree.octetsOf, if_pos rfl, if_neg hend]
    refine .inl ?_
    show (n.writeValue name (.memory memory) 0).2.stored name = n.stored name
    rw [writeValue_refused ho hv]
  der_size := by
    intro (n : Tree) alt hcomplete hc
    exact congrArg List.length (Tree.code_eq_packetDer hcomplete hc)

end Reference
end Ttp2
