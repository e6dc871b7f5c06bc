import Ttp2.Asn1Tree
import Ttp2.Lib.Der
import Mathlib.Logic.Function.Basic

/-! # A concrete libtasn1

A tree that keeps the octets of each element, coded by the DER rules for
`packets.asn1`. The model can be evaluated with it on fixed packets. Here are
its functions and what a write does to the content of the tree. -/
namespace Ttp2
open Lib TwosComplement Der

namespace Reference

def itemsKey : String := "payload.lsSolution.directoryItems"

/-- The content of a packet's tree. -/
structure Tree where
  id : Option Bytes := none
  chosen : Option String := none
  fields : String → Option Bytes := fun _ => none
  items : List (Option Bytes) := []

namespace Tree

/-- The position in the list of the element a name denotes. -/
def itemIndex (n : Tree) (name : String) : Option Nat :=
  if n.chosen = some "lsSolution" then
    (List.range n.items.length).find? fun k => name = elementName itemsKey (k + 1)
  else none

def stored (n : Tree) (name : String) : Option Bytes :=
  if name = "id" then n.id
  else match elementType n.chosen name with
    | some .sequenceOfUtf8String => none
    | some _ => n.fields name
    | none => (n.itemIndex name).bind fun k => n.items[k]?.join

def elements (n : Tree) (key : String) : Nat :=
  if elementType n.chosen key = some .sequenceOfUtf8String then n.items.length else 0

def setField (n : Tree) (name : String) (octets : Bytes) : Tree :=
  if name = "id" then { n with id := some octets }
  else { n with fields := Function.update n.fields name (some octets) }

/-! ## Writing -/

def parseDigits (ds : List Char) : Option Nat :=
  if ds ≠ [] ∧ ds.all Char.isDigit then some (Nat.ofDigitChars 10 ds 0) else none

/-- A decimal text. -/
def parseInteger (text : String) : Option Int :=
  match text.toList with
  | '-' :: ds => (parseDigits ds).map fun k : Nat => -(k : Int)
  | ds => (parseDigits ds).map Int.ofNat

/-- The octets a pointer and a length stand for; a negative length stands for none. -/
def octetsOf (v : Asn1Value) (len : Int32) : Option Bytes :=
  match v with
  | .null => none
  | .text text => if len = 0 then some text.toUTF8.data.toList else none
  | .memory bytes =>
    if len = 0 then (if 0 ∈ bytes then some (bytes.takeWhile (· ≠ 0)) else none)
    else if len.toInt ≤ bytes.length then some (bytes.take len.toInt.toNat)
    else none

/-- The element an accepted write leaves; none for a refused one. -/
def write (n : Tree) (name : String) (v : Asn1Value) (len : Int32) : Option Tree :=
  if name = "payload" then
    match v with
    | .text alt =>
      if n.chosen = none ∧ (packetsAsn1.lookup alt).isSome then some { id := n.id, chosen := some alt }
      else none
    | _ => none
  else match elementType n.chosen name with
    | some .integer =>
      match v with
      | .text text => (parseInteger text).map fun i => n.setField name (intOctets i)
      | _ => none
    | some .octetString => (octetsOf v len).map fun octets => n.setField name octets
    | some .sequenceOfUtf8String =>
      match v with
      | .text text => if text = "NEW" then some { n with items := n.items ++ [none] } else none
      | .null => some { n with items := [] }
      | .memory _ => none
    | none =>
      match n.itemIndex name with
      | some k => (octetsOf v len).map fun octets => { n with items := n.items.set k (some octets) }
      | none => none

def writeValue (n : Tree) (name : String) (v : Asn1Value) (len : Int32) : Asn1Status × Tree :=
  match n.write name v len with
  | some m => (.success, m)
  | none => (.other, n)

/-! ## Reading -/

def readValue (n : Tree) (name : String) (room : Nat) : ReadValue :=
  match n.stored name with
  | some octets =>
    if octets.length ≤ room then { status := .success, len := octets.length, bytes := octets }
    else { status := .memError, len := octets.length }
  | none => { status := .other, len := 0 }

def readChoice (n : Tree) (name : String) (room : Nat) : Option String :=
  if name = "payload" then n.chosen.filter (·.length < room) else none

def numberOfElements (n : Tree) (key : String) : Asn1Status × Nat :=
  if elementType n.chosen key = some .sequenceOfUtf8String then (.success, n.items.length)
  else (.other, 0)

/-! ## Coding -/

def fieldComplete (n : Tree) (alt : String) (f : String × Asn1Type) : Bool :=
  match f.2 with
  | .sequenceOfUtf8String => n.items.all Option.isSome
  | _ => (n.fields (fieldName alt f.1)).isSome

def complete (n : Tree) : Bool :=
  n.id.isSome && match n.chosen with
    | none => false
    | some alt => match packetsAsn1.lookup alt with
      | none => false
      | some fields => fields.all (n.fieldComplete alt)

def fieldCode (n : Tree) (alt : String) (f : String × Asn1Type) : Bytes :=
  match f.2 with
  | .integer => tlv 0x02 ((n.fields (fieldName alt f.1)).getD [])
  | .octetString => tlv 0x04 ((n.fields (fieldName alt f.1)).getD [])
  | .sequenceOfUtf8String => tlv 0x30 ((n.items.map (·.getD [])).flatMap (tlv 0x0C))

/-- The tag of an alternative: context-specific, constructed, explicit. -/
def altTag (alt : String) : UInt8 := 0xA0 + UInt8.ofNat (packetsAsn1.findIdx (·.1 = alt))

def payloadCode (n : Tree) : Bytes :=
  match n.chosen with
  | none => []
  | some alt => tlv (altTag alt)
      (tlv 0x30 (((packetsAsn1.lookup alt).getD []).flatMap (n.fieldCode alt)))

def code (n : Tree) : Bytes := tlv 0x30 (tlv 0x02 (n.id.getD []) ++ n.payloadCode)

def derCoding (n : Tree) (room : Int32) : DerCoding :=
  if !n.complete then { status := .other, len := 0, errorDescription := "value not found" }
  else if 2 ^ 31 ≤ n.code.length then
    { status := .memError, len := Int32.ofNat n.code.length, errorDescription := "too long" }
  else if room.toInt < n.code.length then
    { status := .memError, len := Int32.ofNat n.code.length, errorDescription := "no room" }
  else { status := .success, len := Int32.ofNat n.code.length, bytes := n.code }

/-! ## Decoding -/

/-- The components of an alternative, each set in the tree as it is read. -/
def readFields (alt : String) : List (String × Asn1Type) → Bytes → Tree → Option Tree
  | [], bytes, n => if bytes = [] then some n else none
  | f :: fs, bytes, n =>
    match f.2 with
    | .integer => do
      let (content, rest) ← takeTlv 0x02 bytes
      readFields alt fs rest
        { n with fields := Function.update n.fields (fieldName alt f.1) (some content) }
    | .octetString => do
      let (content, rest) ← takeTlv 0x04 bytes
      readFields alt fs rest
        { n with fields := Function.update n.fields (fieldName alt f.1) (some content) }
    | .sequenceOfUtf8String => do
      let (content, rest) ← takeTlv 0x30 bytes
      let items ← takeTlvs 0x0C content.length content
      readFields alt fs rest { n with items := items.map some }

/-- The alternative a tag names. -/
def altOf (bytes : Bytes) : Option (String × List (String × Asn1Type)) :=
  match bytes with
  | [] => none
  | tag :: _ => packetsAsn1.find? fun a => altTag a.1 = tag

/-- A value that is all there is. -/
def takeWhole (tag : UInt8) (bytes : Bytes) : Option Bytes :=
  match takeTlv tag bytes with
  | some (content, []) => some content
  | _ => none

def decodeTree (bytes : Bytes) : Option Tree := do
  let packet ← takeWhole 0x30 bytes
  let (id, choice) ← takeTlv 0x02 packet
  let (alt, fields) ← altOf choice
  let sequence ← takeWhole (altTag alt) choice
  let content ← takeWhole 0x30 sequence
  readFields alt fields content { id := some id, chosen := some alt }

end Tree

/-- The reference libtasn1. -/
def asn1 : Libtasn1 where
  Node := Tree
  array2tree := .ok ()
  createElement := {}
  writeValue := Tree.writeValue
  readValue := Tree.readValue
  readChoice := Tree.readChoice
  numberOfElements := Tree.numberOfElements
  derCoding := Tree.derCoding
  derDecoding := Tree.decodeTree
  stored := Tree.stored
  chosen := Tree.chosen
  elements := Tree.elements
  derSize := fun n => n.code.length
  negative := fun _ _ => some []

/-! ## Element types -/

/-- The one list of the schema. -/
theorem elementType_list {c : Option String} {key : String}
    (h : elementType c key = some .sequenceOfUtf8String) :
    c = some "lsSolution" ∧ key = itemsKey := by
  have hid : key ≠ "id" := by
    rintro rfl
    cases c <;> cases h
  obtain ⟨alt, fields, f, rfl, hf, hmem, rfl, hty⟩ := elementType_eq_some h hid
  have hall : ∀ a ∈ packetsAsn1, ∀ g ∈ a.2, g.2 = .sequenceOfUtf8String →
      a.1 = "lsSolution" ∧ fieldName a.1 g.1 = itemsKey := by decide
  obtain ⟨rfl, hkey⟩ := hall _ (mem_of_lookup hf) f hmem hty
  exact ⟨rfl, hkey⟩

theorem elementType_itemsKey : elementType (some "lsSolution") itemsKey =
    some .sequenceOfUtf8String := by rfl

theorem item_ne_id (k : Nat) : elementName itemsKey k ≠ "id" := elementName_ne k (by decide)

theorem item_ne_payload (k : Nat) : elementName itemsKey k ≠ "payload" :=
  elementName_ne k (by decide)

theorem elementType_item (k : Nat) :
    elementType (some "lsSolution") (elementName itemsKey k) = none := by
  cases h : elementType (some "lsSolution") (elementName itemsKey k) with
  | none => rfl
  | some ty =>
    obtain ⟨alt, fields, f, halt, hf, hmem, hname, -⟩ := elementType_eq_some h (item_ne_id k)
    cases halt
    cases hf
    cases List.mem_singleton.mp hmem
    exact absurd hname (elementName_ne k (by decide))

/-! ## The elements of the list -/

namespace Tree
variable {n m : Tree} {name : String} {k : Nat}

theorem itemIndex_eq_some (h : n.itemIndex name = some k) :
    n.chosen = some "lsSolution" ∧ k < n.items.length ∧ name = elementName itemsKey (k + 1) := by
  unfold itemIndex at h
  split at h
  · rename_i hc
    have hmem := List.mem_range.mp (List.mem_of_find?_eq_some h)
    have hname := List.find?_some h
    exact ⟨hc, hmem, by simpa using hname⟩
  · cases h

theorem itemIndex_item (hc : n.chosen = some "lsSolution") (hk : k < n.items.length) :
    n.itemIndex (elementName itemsKey (k + 1)) = some k := by
  cases h : n.itemIndex (elementName itemsKey (k + 1)) with
  | some j =>
    have hj := elementName_inj (itemIndex_eq_some h).2.2
    rw [show j = k by omega]
  | none =>
    unfold itemIndex at h
    rw [if_pos hc] at h
    have hnone := List.find?_eq_none.mp h k (List.mem_range.mpr hk)
    simp at hnone

theorem stored_item (hc : n.chosen = some "lsSolution") (k : Nat) :
    n.stored (elementName itemsKey (k + 1)) = n.items[k]?.join := by
  unfold stored
  rw [if_neg (item_ne_id _), hc, elementType_item]
  by_cases hk : k < n.items.length
  · rw [itemIndex_item hc hk]
    rfl
  · cases h : n.itemIndex (elementName itemsKey (k + 1)) with
    | some j =>
      obtain ⟨-, hj, hname⟩ := itemIndex_eq_some h
      have := elementName_inj hname
      omega
    | none =>
      rw [List.getElem?_eq_none (by omega)]
      rfl

/-- Two trees with the same id, choice and components store the same octets
everywhere if they do in the elements of the list. -/
theorem stored_congr (hid : m.id = n.id) (hc : m.chosen = n.chosen)
    (hf : ∀ ty, elementType n.chosen name = some ty → ty ≠ .sequenceOfUtf8String → name ≠ "id" →
      m.fields name = n.fields name)
    (hi : n.chosen = some "lsSolution" → ∀ k, name = elementName itemsKey (k + 1) →
      m.items[k]?.join = n.items[k]?.join) :
    m.stored name = n.stored name := by
  by_cases hname : name = "id"
  · simp only [stored, if_pos hname, hid]
  by_cases hitem : n.chosen = some "lsSolution" ∧ ∃ k, name = elementName itemsKey (k + 1)
  · obtain ⟨hls, k, rfl⟩ := hitem
    rw [stored_item (hc.trans hls), stored_item hls, hi hls k rfl]
  · have hnone : ∀ t : Tree, t.chosen = n.chosen → t.itemIndex name = none := by
      intro t ht
      cases h : t.itemIndex name with
      | none => rfl
      | some k =>
        obtain ⟨hls, -, hk⟩ := itemIndex_eq_some h
        exact absurd ⟨ht ▸ hls, k, hk⟩ hitem
    unfold stored
    rw [if_neg hname, if_neg hname, hc, hnone m hc, hnone n rfl]
    cases hty : elementType n.chosen name with
    | none => rfl
    | some ty =>
      cases ty with
      | sequenceOfUtf8String => rfl
      | integer => exact hf _ hty (by simp) hname
      | octetString => exact hf _ hty (by simp) hname

/-! ## What a write can do -/

theorem parseDigits_toDigits (k : Nat) : parseDigits (Nat.toDigits 10 k) = some k := by
  have hne : Nat.toDigits 10 k ≠ [] := by
    intro he
    have := Nat.length_toDigits_pos (b := 10) (n := k)
    rw [he] at this
    cases this
  have hall : (Nat.toDigits 10 k).all Char.isDigit = true :=
    List.all_eq_true.mpr fun c hc => Nat.isDigit_of_mem_toDigits (by omega) (by omega) hc
  rw [parseDigits, if_pos ⟨hne, hall⟩, Nat.ofDigitChars_ten_toDigits]

theorem parseInteger_toString (i : Int) : parseInteger (toString i) = some i := by
  unfold parseInteger
  cases i with
  | ofNat k =>
    have hlist : (toString (Int.ofNat k)).toList = Nat.toDigits 10 k := by
      show (Nat.repr k).toList = _
      rw [Nat.repr_eq_ofList_toDigits, String.toList_ofList]
    rw [hlist]
    split
    · rename_i ds hds
      have hdash : '-' ∈ Nat.toDigits 10 k := by simp [hds]
      have := Nat.isDigit_of_mem_toDigits (by omega) (by omega) hdash
      cases this
    · rw [parseDigits_toDigits]
      rfl
  | negSucc k =>
    have hlist : (toString (Int.negSucc k)).toList = '-' :: Nat.toDigits 10 (k + 1) := by
      show ("-" ++ Nat.repr (k + 1)).toList = _
      simp only [Nat.repr_eq_ofList_toDigits, String.toList_append, String.toList_ofList]
      rfl
    rw [hlist]
    show (parseDigits (Nat.toDigits 10 (k + 1))).map _ = _
    rw [parseDigits_toDigits]
    rfl

/-- The ways a write is accepted. -/
inductive Wrote (n : Tree) (name : String) : Asn1Value → Tree → Prop where
  | choice {alt : String} (hname : name = "payload") (hc : n.chosen = none)
      (halt : (packetsAsn1.lookup alt).isSome) :
      Wrote n name (.text alt) { id := n.id, chosen := some alt }
  | field {v : Asn1Value} {octets : Bytes} (hname : name ≠ "payload")
      (hty : elementType n.chosen name = some .integer ∨
        elementType n.chosen name = some .octetString) :
      Wrote n name v (n.setField name octets)
  | append (hname : name ≠ "payload")
      (hty : elementType n.chosen name = some .sequenceOfUtf8String) :
      Wrote n name (.text "NEW") { n with items := n.items ++ [none] }
  | clear (hname : name ≠ "payload")
      (hty : elementType n.chosen name = some .sequenceOfUtf8String) :
      Wrote n name .null { n with items := [] }
  | item {v : Asn1Value} {k : Nat} {octets : Bytes} (hname : name ≠ "payload")
      (hk : n.itemIndex name = some k) :
      Wrote n name v { n with items := n.items.set k (some octets) }

theorem write_cases {v : Asn1Value} {len : Int32} (h : n.write name v len = some m) :
    Wrote n name v m := by
  unfold write at h
  split at h
  · rename_i hname
    split at h
    · split at h
      · rename_i hok
        cases h
        exact .choice hname hok.1 hok.2
      · cases h
    · cases h
  · rename_i hname
    split at h
    · rename_i hty
      split at h
      · obtain ⟨i, -, rfl⟩ := Option.map_eq_some_iff.mp h
        exact .field hname (.inl hty)
      · cases h
    · rename_i hty
      obtain ⟨octets, -, rfl⟩ := Option.map_eq_some_iff.mp h
      exact .field hname (.inr hty)
    · rename_i hty
      split at h
      · split at h
        · rename_i text htext
          subst htext
          cases h
          exact .append hname hty
        · cases h
      · cases h
        exact .clear hname hty
      · cases h
    · split at h
      · rename_i k hk
        obtain ⟨octets, -, rfl⟩ := Option.map_eq_some_iff.mp h
        exact .item hname hk
      · cases h

theorem writeValue_of_write {v : Asn1Value} {len : Int32} (h : n.write name v len = some m) :
    n.writeValue name v len = (.success, m) := by
  rw [writeValue, h]

@[simp] theorem setField_chosen (octets : Bytes) : (n.setField name octets).chosen = n.chosen := by
  unfold setField
  split <;> rfl

@[simp] theorem setField_items (octets : Bytes) : (n.setField name octets).items = n.items := by
  unfold setField
  split <;> rfl

theorem stored_setField (octets : Bytes) (hty : elementType n.chosen name = some .integer ∨
    elementType n.chosen name = some .octetString) :
    (n.setField name octets).stored name = some octets := by
  unfold stored
  rw [setField_chosen]
  by_cases hid : name = "id"
  · rw [if_pos hid, setField, if_pos hid]
  · rw [if_neg hid, setField, if_neg hid]
    rcases hty with hty | hty
    · rw [hty]
      exact Function.update_self name _ _
    · rw [hty]
      exact Function.update_self name _ _

theorem stored_setField_ne {name' : String} (octets : Bytes) (hne : name' ≠ name) :
    (n.setField name octets).stored name' = n.stored name' := by
  by_cases hid : name = "id"
  · subst hid
    have hset : n.setField "id" octets = { n with id := some octets } := rfl
    rw [hset, stored, stored, if_neg hne, if_neg hne]
    rfl
  · have hset : n.setField name octets =
        { n with fields := Function.update n.fields name (some octets) } := if_neg hid
    rw [hset]
    exact stored_congr rfl rfl (fun _ _ _ _ => Function.update_of_ne hne _ _) fun _ _ _ => rfl

theorem write_frame {v : Asn1Value} {name' : String} (h : Wrote n name v m)
    (hp : name ≠ "payload") (hne : name' ≠ name)
    (hv : v = .null → elementType n.chosen name ≠ some .sequenceOfUtf8String) :
    m.stored name' = n.stored name' ∧ m.elements name' = n.elements name' := by
  cases h with
  | choice hname => exact absurd hname hp
  | field _ hty =>
    refine ⟨stored_setField_ne _ hne, ?_⟩
    simp only [elements, setField_chosen, setField_items]
  | append _ hty =>
    obtain ⟨hc, hkey⟩ := elementType_list hty
    refine ⟨stored_congr rfl rfl (fun _ _ _ _ => rfl) ?_, ?_⟩
    · intro _ k _
      simp only [List.getElem?_append, List.getElem?_singleton]
      split
      · rfl
      · rename_i hk
        rw [List.getElem?_eq_none (by omega)]
        split <;> rfl
    · have hty' : elementType n.chosen name' ≠ some .sequenceOfUtf8String := by
        intro h'
        exact hne ((elementType_list h').2.trans hkey.symm)
      simp only [elements, if_neg hty']
  | clear _ hty => exact absurd hty (hv rfl)
  | @item _ k octets _ hk =>
    obtain ⟨hc, hlt, hname⟩ := itemIndex_eq_some hk
    refine ⟨stored_congr rfl rfl (fun _ _ _ _ => rfl) ?_, ?_⟩
    · intro _ j hj
      have hkj : k ≠ j := by
        rintro rfl
        exact hne (hj.trans hname.symm)
      show (n.items.set k (some octets))[j]?.join = _
      rw [List.getElem?_set_ne hkj]
    · simp only [elements, List.length_set]

theorem write_chosen {v : Asn1Value} (h : Wrote n name v m) (hp : name ≠ "payload") :
    m.chosen = n.chosen := by
  cases h with
  | choice hname => exact absurd hname hp
  | field => exact setField_chosen _
  | append => rfl
  | clear => rfl
  | item => rfl

theorem ne_payload_of_elementType {ty : Asn1Type} (hty : elementType n.chosen name = some ty) :
    name ≠ "payload" := by
  rintro rfl
  obtain ⟨alt, fields, f, -, -, -, hname, -⟩ := elementType_eq_some hty (by decide)
  exact fieldName_ne_payload alt f.1 hname.symm

/-- A write to an octet element puts there what the pointer and the length stand for. -/
theorem write_octetElement (ho : asn1.OctetElement n name) : ∃ put : Bytes → Tree,
    (∀ octets, (put octets).stored name = some octets) ∧
      ∀ v len, n.write name v len = (octetsOf v len).map put := by
  rcases ho with hty | ⟨key, k, hkey, rfl, hlo, hhi⟩
  · change elementType n.chosen name = _ at hty
    refine ⟨n.setField name, fun octets => stored_setField _ (.inr hty), fun v len => ?_⟩
    unfold write
    rw [if_neg (ne_payload_of_elementType hty), hty]
  · obtain ⟨hc, rfl⟩ := elementType_list hkey
    obtain ⟨j, rfl⟩ : ∃ j, k = j + 1 := ⟨k - 1, by omega⟩
    change n.chosen = _ at hc
    have hlt : j < n.items.length := by
      change j + 1 ≤ n.elements itemsKey at hhi
      unfold elements at hhi
      rw [hc, elementType_itemsKey, if_pos rfl] at hhi
      omega
    refine ⟨fun octets => { n with items := n.items.set j (some octets) }, fun octets => ?_,
      fun v len => ?_⟩
    · have hst := stored_item (n := { n with items := n.items.set j (some octets) }) hc j
      rw [hst]
      simp [hlt]
    · unfold write
      rw [if_neg (item_ne_payload _), hc, elementType_item, itemIndex_item hc hlt]

/-- Octets written to an octet element are stored there. -/
theorem write_octets {v : Asn1Value} {len : Int32} {octets : Bytes}
    (ho : asn1.OctetElement n name) (hv : octetsOf v len = some octets) :
    ∃ m, n.write name v len = some m ∧ m.stored name = some octets := by
  obtain ⟨put, hput, hwrite⟩ := write_octetElement ho
  exact ⟨put octets, by rw [hwrite, hv, Option.map_some], hput octets⟩

/-- What stands for no octets is refused. -/
theorem write_octets_none {v : Asn1Value} {len : Int32} (ho : asn1.OctetElement n name)
    (hv : octetsOf v len = none) : n.write name v len = none := by
  obtain ⟨put, -, hwrite⟩ := write_octetElement ho
  rw [hwrite, hv, Option.map_none]

end Tree

end Reference
end Ttp2
