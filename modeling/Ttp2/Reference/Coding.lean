import Ttp2.Reference.Tree

/-! # The DER coding of the concrete tree is read back

`decodeTree` of `code` gives a tree with the same content, component by
component of the alternative (`readFields_fieldCode`). -/
namespace Ttp2
open Lib TwosComplement Der

namespace Reference
namespace Tree
variable {n m : Tree} {name : String} {k : Nat}

theorem short_of_lt {content : Bytes} (h : content.length < 2 ^ 31) : Short content :=
  Nat.lt_of_lt_of_le h (by norm_num)

/-- `m'` is `m` with the components `fs` as they are in `n`. -/
structure ReadBack (n : Tree) (alt : String) (fs : List (String × Asn1Type)) (m m' : Tree) :
    Prop where
  id : m'.id = m.id
  chosen : m'.chosen = m.chosen
  fields : ∀ name, m.fields name = n.fields name ∨
    (∃ f ∈ fs, f.2 ≠ .sequenceOfUtf8String ∧ name = fieldName alt f.1) →
      m'.fields name = n.fields name
  items : m.items = n.items ∨ (∃ f ∈ fs, f.2 = .sequenceOfUtf8String) → m'.items = n.items

theorem getD_of_isSome {o : Option Bytes} (h : o.isSome) : some (o.getD []) = o := by
  cases o with
  | none => cases h
  | some b => rfl

theorem readFields_fieldCode (n : Tree) (alt : String) (fs : List (String × Asn1Type)) (m : Tree)
    (hc : ∀ f ∈ fs, n.fieldComplete alt f) (hlt : (fs.flatMap (n.fieldCode alt)).length < 2 ^ 31) :
    ∃ m', readFields alt fs (fs.flatMap (n.fieldCode alt)) m = some m' ∧ ReadBack n alt fs m m' := by
  induction fs generalizing m with
  | nil => exact ⟨m, rfl, rfl, rfl, by simp, by simp⟩
  | cons f fs ih =>
    rw [List.flatMap_cons, List.length_append] at hlt
    rw [List.flatMap_cons]
    have hrest := fun m => ih m (fun g hg => hc g (List.mem_cons_of_mem _ hg)) (by omega)
    have hfirst := hc f (List.mem_cons_self ..)
    obtain ⟨name, ty⟩ := f
    by_cases hty : ty = .sequenceOfUtf8String
    · subst hty
      have hcode : n.fieldCode alt (name, .sequenceOfUtf8String) =
          tlv 0x30 ((n.items.map (·.getD [])).flatMap (tlv 0x0C)) := rfl
      have hall : ∀ o ∈ n.items, o.isSome := List.all_eq_true.mp hfirst
      have hsome : (n.items.map (·.getD [])).map some = n.items := by
        rw [List.map_map]
        exact (List.map_congr_left fun o ho => getD_of_isSome (hall o ho)).trans (List.map_id _)
      obtain ⟨m', hm', hid, hchosen, hfields, hitems⟩ := hrest { m with items := n.items }
      generalize n.items.map (·.getD []) = contents at hcode hsome
      have htlvs := length_le_tlvs 0x0C contents
      have hlen := length_lt_tlv 0x30 (contents.flatMap (tlv 0x0C))
      rw [hcode] at hlt
      have hread := takeTlvs_tlvs 0x0C contents
        (fun c hcm => short_of_lt (by have := htlvs.2 c hcm; omega)) htlvs.1
      refine ⟨m', ?_, hid, hchosen, ?_, fun _ => hitems (.inl rfl)⟩
      · rw [readFields, hcode, takeTlv_tlv _ (short_of_lt (by omega))]
        simp only [bind, Option.bind, hread, hsome]
        exact hm'
      · rintro nm (h | ⟨g, hg, hne, hname⟩)
        · exact hfields nm (.inl h)
        · rcases List.mem_cons.mp hg with rfl | hg
          · exact absurd rfl hne
          · exact hfields nm (.inr ⟨g, hg, hne, hname⟩)
    · have hsome : some ((n.fields (fieldName alt name)).getD []) = n.fields (fieldName alt name) := by
        refine getD_of_isSome ?_
        cases ty with
        | sequenceOfUtf8String => exact absurd rfl hty
        | integer => exact hfirst
        | octetString => exact hfirst
      obtain ⟨m', hm', hid, hchosen, hfields, hitems⟩ := hrest { m with
        fields := Function.update m.fields (fieldName alt name) (n.fields (fieldName alt name)) }
      generalize hcontent : (n.fields (fieldName alt name)).getD [] = content at hsome
      refine ⟨m', ?_, hid, hchosen, ?_, ?_⟩
      · cases ty with
        | sequenceOfUtf8String => exact absurd rfl hty
        | integer =>
          have hcode : n.fieldCode alt (name, .integer) = tlv 0x02 content := by
            rw [← hcontent]
            rfl
          have hlen := length_lt_tlv 0x02 content
          rw [hcode] at hlt
          rw [readFields, hcode, takeTlv_tlv _ (short_of_lt (by omega))]
          simp only [bind, Option.bind, hsome]
          exact hm'
        | octetString =>
          have hcode : n.fieldCode alt (name, .octetString) = tlv 0x04 content := by
            rw [← hcontent]
            rfl
          have hlen := length_lt_tlv 0x04 content
          rw [hcode] at hlt
          rw [readFields, hcode, takeTlv_tlv _ (short_of_lt (by omega))]
          simp only [bind, Option.bind, hsome]
          exact hm'
      · intro nm h
        by_cases hnm : nm = fieldName alt name
        · subst hnm
          exact hfields _ (.inl (Function.update_self ..))
        · rcases h with h | ⟨g, hg, hne, hname⟩
          · exact hfields nm (.inl ((Function.update_of_ne hnm ..).trans h))
          · rcases List.mem_cons.mp hg with rfl | hg
            · exact absurd hname hnm
            · exact hfields nm (.inr ⟨g, hg, hne, hname⟩)
      · rintro (h | ⟨g, hg, hgty⟩)
        · exact hitems (.inl h)
        · rcases List.mem_cons.mp hg with rfl | hg
          · exact absurd hgty hty
          · exact hitems (.inr ⟨g, hg, hgty⟩)

theorem takeWhole_tlv (tag : UInt8) {content : Bytes} (h : Short content) :
    takeWhole tag (tlv tag content) = some content := by
  have htake := takeTlv_tlv tag h []
  rw [List.append_nil] at htake
  rw [takeWhole, htake]

theorem complete_eq_true : n.complete = true ↔ n.id.isSome ∧ ∃ alt fields, n.chosen = some alt ∧
    packetsAsn1.lookup alt = some fields ∧ ∀ f ∈ fields, n.fieldComplete alt f := by
  unfold complete
  rw [Bool.and_eq_true]
  refine and_congr_right fun _ => ?_
  cases n.chosen with
  | none => simp
  | some alt =>
    cases hl : packetsAsn1.lookup alt with
    | none => simp [hl]
    | some fields => simp [hl, List.all_eq_true]

/-- The component that is a list is the schema's one list. -/
theorem list_field {alt : String} {fields : List (String × Asn1Type)}
    (hf : packetsAsn1.lookup alt = some fields) {f : String × Asn1Type} (hmem : f ∈ fields)
    (hty : f.2 = .sequenceOfUtf8String) : alt = "lsSolution" ∧ fieldName alt f.1 = itemsKey := by
  have htype := (elementType_field hf hmem).2
  rw [hty] at htype
  obtain ⟨halt, hkey⟩ := elementType_list htype
  exact ⟨Option.some.inj halt, hkey⟩

theorem fieldComplete_iff {alt : String} {fields : List (String × Asn1Type)}
    (hc : n.chosen = some alt) (hf : packetsAsn1.lookup alt = some fields)
    {f : String × Asn1Type} (hmem : f ∈ fields) :
    n.fieldComplete alt f = true ↔ match f.2 with
      | .sequenceOfUtf8String => ∀ k, 1 ≤ k → k ≤ n.elements (fieldName alt f.1) →
          (n.stored (elementName (fieldName alt f.1) k)).isSome
      | _ => (n.stored (fieldName alt f.1)).isSome := by
  obtain ⟨hid, htype⟩ := elementType_field hf hmem
  have hlist := list_field hf hmem
  obtain ⟨name, ty⟩ := f
  dsimp only at hid htype hlist ⊢
  cases ty with
  | integer => rw [fieldComplete, stored, if_neg hid, hc, htype]
  | octetString => rw [fieldComplete, stored, if_neg hid, hc, htype]
  | sequenceOfUtf8String =>
    obtain ⟨rfl, hkey⟩ := hlist rfl
    dsimp only [fieldComplete]
    rw [hkey, elements, hc, elementType_itemsKey, if_pos rfl, List.all_eq_true]
    constructor
    · intro hall k hlo hhi
      obtain ⟨j, rfl⟩ : ∃ j, k = j + 1 := ⟨k - 1, by omega⟩
      rw [stored_item hc, List.getElem?_eq_getElem hhi]
      exact hall _ (List.getElem_mem hhi)
    · intro hall o ho
      obtain ⟨j, hj, rfl⟩ := List.mem_iff_getElem.mp ho
      have hitem := hall (j + 1) (by omega) hj
      rwa [stored_item hc, List.getElem?_eq_getElem hj] at hitem

theorem complete_iff : n.complete = true ↔ asn1.Complete n := by
  rw [complete_eq_true]
  constructor
  · rintro ⟨hid, alt, fields, hc, hf, hall⟩
    exact ⟨hid, alt, fields, hc, hf, fun f hmem => (fieldComplete_iff hc hf hmem).mp (hall f hmem)⟩
  · rintro ⟨hid, alt, fields, hc, hf, hall⟩
    exact ⟨hid, alt, fields, hc, hf, fun f hmem => (fieldComplete_iff hc hf hmem).mpr (hall f hmem)⟩

theorem altOf_altTag {alt : String} {fields : List (String × Asn1Type)}
    (hf : packetsAsn1.lookup alt = some fields) (rest : Bytes) :
    altOf (altTag alt :: rest) = some (alt, fields) := by
  have hall : ∀ a ∈ packetsAsn1, packetsAsn1.find? (fun b => altTag b.1 = altTag a.1) = some a := by
    decide +kernel
  have hfind := hall _ (mem_of_lookup hf)
  unfold altOf
  exact hfind

/-- **Reading a coding back** gives a tree with the same content. -/
theorem decodeTree_code (hc : n.complete) (hlt : n.code.length < 2 ^ 31) :
    ∃ m, decodeTree n.code = some m ∧ m.chosen = n.chosen ∧
      (∀ name, m.stored name = n.stored name) ∧ ∀ key, m.elements key = n.elements key := by
  obtain ⟨hid, alt, fields, halt, hf, hall⟩ := complete_eq_true.mp hc
  have hpayload : n.payloadCode =
      tlv (altTag alt) (tlv 0x30 (fields.flatMap (n.fieldCode alt))) := by
    rw [payloadCode, halt]
    dsimp only
    rw [hf, Option.getD_some]
  have hcode : n.code = tlv 0x30 (tlv 0x02 (n.id.getD []) ++
      tlv (altTag alt) (tlv 0x30 (fields.flatMap (n.fieldCode alt)))) := by
    rw [code, hpayload]
  have hlen1 := length_lt_tlv 0x30 (tlv 0x02 (n.id.getD []) ++
    tlv (altTag alt) (tlv 0x30 (fields.flatMap (n.fieldCode alt))))
  have hlen2 := length_lt_tlv 0x02 (n.id.getD [])
  have hlen3 := length_lt_tlv (altTag alt) (tlv 0x30 (fields.flatMap (n.fieldCode alt)))
  have hlen4 := length_lt_tlv 0x30 (fields.flatMap (n.fieldCode alt))
  rw [← hcode, List.length_append] at hlen1
  obtain ⟨m, hm, hread⟩ := readFields_fieldCode n alt fields
    { id := some (n.id.getD []), chosen := some alt } hall (by omega)
  have hmid : m.id = n.id := hread.id.trans (getD_of_isSome hid)
  have hmchosen : m.chosen = n.chosen := hread.chosen.trans halt.symm
  have hmitems : n.chosen = some "lsSolution" → m.items = n.items := by
    intro hls
    cases halt.symm.trans hls
    cases hf
    exact hread.items (.inr ⟨_, List.mem_singleton_self _, rfl⟩)
  refine ⟨m, ?_, hmchosen, ?_, ?_⟩
  · rw [hcode]
    unfold decodeTree
    rw [takeWhole_tlv _ (short_of_lt (by rw [List.length_append]; omega))]
    simp only [bind, Option.bind]
    rw [takeTlv_tlv _ (short_of_lt (by omega))]
    have halt' := altOf_altTag hf (lengthOctets
      (tlv 0x30 (fields.flatMap (n.fieldCode alt))).length ++
        tlv 0x30 (fields.flatMap (n.fieldCode alt)))
    simp only [tlv] at halt' ⊢
    rw [halt']
    dsimp only
    have htag := takeWhole_tlv (altTag alt) (short_of_lt (by omega :
      (tlv 0x30 (fields.flatMap (n.fieldCode alt))).length < 2 ^ 31))
    have hseq := takeWhole_tlv 0x30 (short_of_lt (by omega :
      (fields.flatMap (n.fieldCode alt)).length < 2 ^ 31))
    simp only [tlv] at htag hseq
    rw [htag]
    dsimp only
    rw [hseq]
    exact hm
  · intro name
    refine stored_congr hmid hmchosen ?_ fun hls k _ => by rw [hmitems hls]
    intro ty hty hlist hname
    obtain ⟨alt', fields', f, halt', hf', hmem, rfl, rfl⟩ := elementType_eq_some hty hname
    cases halt.symm.trans halt'
    cases hf.symm.trans hf'
    exact hread.fields _ (.inr ⟨f, hmem, hlist, rfl⟩)
  · intro key
    unfold elements
    rw [hmchosen]
    split
    · rename_i hty
      rw [hmitems (elementType_list hty).1]
    · rfl

end Tree

end Reference
end Ttp2
