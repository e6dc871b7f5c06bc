import Ttp2.Asn1Tree
import Ttp2.Lib.Der

/-! # What a write of octets keeps, and the coding of a tree

The length a write takes is an `int`, so of longer octets it keeps only some
(`kept`). The coding of a complete tree is the DER coding of what the tree
stores (`packetDer`). What the codec meets of libtasn1 beyond
`Libtasn1.Documented` is named apart: lengths below zero (`WritesNegative`),
elements never written (`Unwritten`), texts whose NUL is missing and the
length of a coding (`Precise`). -/
namespace Ttp2
open Lib Der Asn1Helpers

/-- What is kept of a pointer and an `int` length: what libtasn1 makes of a
length below zero, the bytes up to the NUL at zero, else so many bytes. -/
def kept (lib : Libtasn1) (memory : Bytes) (size : Int32) : Option Bytes :=
  if size.toInt < 0 then lib.negative memory size
  else if size = 0 then (if 0 ∈ memory then some (memory.takeWhile (· ≠ 0)) else none)
  else some (memory.take size.toInt.toNat)

/-! ## The coding -/

/-- The tag of an alternative: context-specific, constructed, explicit. -/
def choiceTag (alt : String) : UInt8 := 0xA0 + UInt8.ofNat (packetsAsn1.findIdx (·.1 = alt))

/-- The coding of a component, from the octets stored under each name and the
number of elements of each list. -/
def componentDer (stored : String → Option Bytes) (elements : String → Nat) (alt : String)
    (f : String × Asn1Type) : Bytes :=
  let octets (name : String) : Bytes := (stored name).getD []
  match f.2 with
  | .integer => tlv 0x02 (octets (fieldName alt f.1))
  | .octetString => tlv 0x04 (octets (fieldName alt f.1))
  | .sequenceOfUtf8String => tlv 0x30 ((List.range (elements (fieldName alt f.1))).flatMap
      fun k => tlv 0x0C (octets (elementName (fieldName alt f.1) (k + 1))))

/-- The coding of a packet whose payload is the alternative `alt`. -/
def packetDer (stored : String → Option Bytes) (elements : String → Nat) (alt : String) : Bytes :=
  tlv 0x30 (tlv 0x02 ((stored "id").getD []) ++ tlv (choiceTag alt)
    (tlv 0x30 (((packetsAsn1.lookup alt).getD []).flatMap (componentDer stored elements alt))))

/-- The coding of an alternative without a list reads the id and the components only. -/
theorem packetDer_congr {stored stored' : String → Option Bytes} (elements elements' : String → Nat)
    {alt : String} {fields : List (String × Asn1Type)} (hf : packetsAsn1.lookup alt = some fields)
    (hlist : ∀ f ∈ fields, f.2 ≠ .sequenceOfUtf8String) (hid : stored "id" = stored' "id")
    (hfields : ∀ f ∈ fields, stored (fieldName alt f.1) = stored' (fieldName alt f.1)) :
    packetDer stored elements alt = packetDer stored' elements' alt := by
  have hcomponents : fields.flatMap (componentDer stored elements alt) =
      fields.flatMap (componentDer stored' elements' alt) := by
    refine List.flatMap_congr fun f hmem => ?_
    have hty := hlist f hmem
    have hsame := hfields f hmem
    obtain ⟨field, ty⟩ := f
    cases ty with
    | integer => simp only [componentDer, hsame]
    | octetString => simp only [componentDer, hsame]
    | sequenceOfUtf8String => exact absurd rfl hty
  rw [packetDer, packetDer, hf, Option.getD_some, hid, hcomponents]

/-- The coding is longer than each octet string in it. -/
theorem length_lt_packetDer {stored : String → Option Bytes} (elements : String → Nat)
    {alt field : String} {fields : List (String × Asn1Type)} {octets : Bytes}
    (hf : packetsAsn1.lookup alt = some fields) (hmem : (field, .octetString) ∈ fields)
    (hs : stored (fieldName alt field) = some octets) :
    octets.length < (packetDer stored elements alt).length := by
  have hcomponent : componentDer stored elements alt (field, .octetString) = tlv 0x04 octets := by
    simp only [componentDer, hs, Option.getD_some]
  have hpart := (List.sublist_flatten_of_mem
    (List.mem_map_of_mem (f := componentDer stored elements alt) hmem)).length_le
  rw [hcomponent, ← List.flatMap_def] at hpart
  have h1 := length_lt_tlv 0x04 octets
  have h2 := length_lt_tlv 0x30 (fields.flatMap (componentDer stored elements alt))
  have h3 := length_lt_tlv (choiceTag alt)
    (tlv 0x30 (fields.flatMap (componentDer stored elements alt)))
  have h4 := length_lt_tlv 0x30 (tlv 0x02 ((stored "id").getD []) ++ tlv (choiceTag alt)
    (tlv 0x30 (fields.flatMap (componentDer stored elements alt))))
  rw [List.length_append] at h4
  rw [packetDer, hf, Option.getD_some]
  omega

/-! ## libtasn1 -/

namespace Libtasn1

/-- A negative number of bytes is refused, or what `negative` says is stored.
The documentation leaves this open; libtasn1 4.19.0 stores an empty value. -/
def WritesNegative (lib : Libtasn1) : Prop :=
  ∀ n name memory (len : Int32), lib.OctetElement n name → len.toInt < 0 →
    match lib.negative memory len with
    | some octets => (lib.writeValue n name (.memory memory) len).1 = .success ∧
        lib.stored (lib.writeValue n name (.memory memory) len).2 name = some octets
    | none => (lib.writeValue n name (.memory memory) len).1 ≠ .success ∧
        lib.stored (lib.writeValue n name (.memory memory) len).2 name = lib.stored n name

/-- Elements that were never written. -/
structure Unwritten (lib : Libtasn1) : Prop where
  /-- A fresh packet has no id. -/
  create_id : lib.stored lib.createElement "id" = none
  /-- A coding that fails for want of a value reports no negative length. -/
  der_reports : ∀ n, ¬ lib.Complete n → 0 ≤ (lib.derCoding n 0).len.toInt

/-- What libtasn1 does at the edges of its contract. -/
structure Precise (lib : Libtasn1) : Prop where
  write_negative : lib.WritesNegative
  /-- A text without a NUL in the memory given is refused, or goes on beyond that memory. -/
  write_unterminated : ∀ n name memory, lib.OctetElement n name → 0 ∉ memory →
    lib.stored (lib.writeValue n name (.memory memory) 0).2 name = lib.stored n name ∨
      ∃ rest, lib.stored (lib.writeValue n name (.memory memory) 0).2 name = some (memory ++ rest)
  /-- The length is that of the DER coding. -/
  der_size : ∀ n alt, lib.Complete n → lib.chosen n = some alt →
    lib.derSize n = (packetDer (lib.stored n) (lib.elements n) alt).length

variable {lib : Libtasn1} {n : lib.Node} {name : String} {memory octets : Bytes} {size : Int32}

/-- A write stores what it keeps. -/
theorem write_kept (h : lib.Documented) (hneg : lib.WritesNegative)
    (ho : lib.OctetElement n name) (hle : size.toInt ≤ memory.length)
    (hk : kept lib memory size = some octets) :
    (lib.writeValue n name (.memory memory) size).1 = .success ∧
      lib.stored (lib.writeValue n name (.memory memory) size).2 name = some octets := by
  unfold kept at hk
  split at hk
  · rename_i hlt
    have hwrite := hneg n name memory size ho hlt
    rw [hk] at hwrite
    exact hwrite
  · split at hk
    · rename_i hzero
      split at hk
      · rename_i hend
        subst hzero
        cases hk
        exact h.write_terminated n name memory ho hend
      · cases hk
    · rename_i hlt hzero
      cases hk
      have hne : size.toInt ≠ 0 := fun he => hzero (Int32.toInt_inj.mp he)
      exact h.write_octets n name memory size ho (by omega) hle

/-- A write that keeps nothing stores nothing, or more than it was given. -/
theorem write_unkept (h : lib.Precise) (ho : lib.OctetElement n name)
    (hk : kept lib memory size = none) :
    lib.stored (lib.writeValue n name (.memory memory) size).2 name = lib.stored n name ∨
      0 ∉ memory ∧ ∃ rest,
        lib.stored (lib.writeValue n name (.memory memory) size).2 name = some (memory ++ rest) := by
  unfold kept at hk
  split at hk
  · rename_i hneg
    have hwrite := h.write_negative n name memory size ho hneg
    rw [hk] at hwrite
    exact .inl hwrite.2
  · split at hk
    · rename_i hzero
      split at hk
      · cases hk
      · rename_i hend
        subst hzero
        exact (h.write_unterminated n name memory ho hend).imp_right fun hrest => ⟨hend, hrest⟩
    · cases hk

end Libtasn1

/-! ## Sizes of strings and buffers -/

theorem toInt_ofNat_le (k : Nat) : (Int32.ofNat k).toInt ≤ k := by
  have hsize : Int32.size = 2 ^ 32 := rfl
  rw [Int32.toInt_ofNat', hsize]
  by_cases hlt : k < 2 ^ 31
  · rw [Int.bmod_eq_of_le (by omega) (by omega)]
  · have := Int.bmod_lt (x := k) (m := 2 ^ 32) (by omega)
    omega

theorem strlen_le (s : Bytes) : strlen s ≤ s.length := (List.takeWhile_prefix _).length_le

/-- What a string component keeps of a string. -/
def keptString (lib : Libtasn1) (s : Bytes) : Option Bytes :=
  kept lib (s ++ [0]) (Int32.ofNat (strlen s))

/-- What an element of a list keeps of an item, whose size counts its NULs. -/
def keptItem (lib : Libtasn1) (item : Bytes) : Option Bytes :=
  kept lib (item ++ [0]) (Int32.ofNat item.length)

/-- What a buffer component keeps of a buffer. -/
def keptBuffer (lib : Libtasn1) (b : Bytes) : Option Bytes := kept lib b (Int32.ofNat b.length)

/-- A string ends in a NUL, so only a negative size is refused. -/
theorem kept_cStr_eq_none {lib : Libtasn1} {s : Bytes} {size : Int32}
    (h : kept lib (s ++ [0]) size = none) :
    size.toInt < 0 ∧ lib.negative (s ++ [0]) size = none := by
  unfold kept at h
  split at h
  · rename_i hneg
    exact ⟨hneg, h⟩
  · split at h
    · rw [if_pos (by simp)] at h
      cases h
    · cases h

end Ttp2
