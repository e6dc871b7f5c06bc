import Ttp2.Lib.Octets

/-! # DER values as octets

A value is its tag, its length and its content. The length takes one octet
below 128 and otherwise a count of length octets and then those octets. A
reader gets the content of a value back, whatever follows it. -/
namespace Ttp2.Lib.Der
open Octets

/-- The number of octets a length takes in its long form. -/
def longCount (n : Nat) : Nat := Nat.log 256 n + 1

/-- The length octets of a content of `n` octets, in as few octets as possible. -/
def lengthOctets (n : Nat) : Bytes :=
  if n < 128 then [UInt8.ofNat n] else UInt8.ofNat (128 + longCount n) :: toBe (longCount n) n

/-- A value: tag, length, content. -/
def tlv (tag : UInt8) (content : Bytes) : Bytes := tag :: (lengthOctets content.length ++ content)

def takeLength : Bytes → Option (Nat × Bytes)
  | [] => none
  | b :: rest =>
    if b.toNat < 128 then some (b.toNat, rest)
    else if rest.length < b.toNat - 128 then none
    else some (ofBe (rest.take (b.toNat - 128)), rest.drop (b.toNat - 128))

/-- The content of a value with this tag at the front, and what follows it. -/
def takeTlv (tag : UInt8) : Bytes → Option (Bytes × Bytes)
  | [] => none
  | b :: rest =>
    if b ≠ tag then none
    else do
      let (n, rest) ← takeLength rest
      if rest.length < n then none else some (rest.take n, rest.drop n)

/-- The contents of values with one tag, up to the end; `fuel` bounds their number. -/
def takeTlvs (tag : UInt8) : Nat → Bytes → Option (List Bytes)
  | _, [] => some []
  | 0, _ :: _ => none
  | fuel + 1, bytes => do
    let (content, rest) ← takeTlv tag bytes
    let contents ← takeTlvs tag fuel rest
    some (content :: contents)

/-- Contents whose length has a long form: it counts at most 126 octets. -/
def Short (content : Bytes) : Prop := content.length < 256 ^ 126

theorem longCount_le {n : Nat} (h : n < 256 ^ 126) : longCount n ≤ 126 := by
  rcases Nat.eq_zero_or_pos n with rfl | hpos
  · simp [longCount]
  · have hlog := Nat.log_lt_of_lt_pow (by omega) h
    unfold longCount
    omega

theorem lt_pow_longCount (n : Nat) : n < 256 ^ longCount n :=
  Nat.lt_pow_succ_log_self (by omega) n

theorem takeLength_lengthOctets {n : Nat} (h : n < 256 ^ 126) (rest : Bytes) :
    takeLength (lengthOctets n ++ rest) = some (n, rest) := by
  unfold lengthOctets
  by_cases hshort : n < 128
  · have hn : (UInt8.ofNat n).toNat = n := by
      simp only [UInt8.toNat_ofNat']
      omega
    rw [if_pos hshort, List.singleton_append, takeLength, hn, if_pos hshort]
  · have hcount := longCount_le h
    have hn : (UInt8.ofNat (128 + longCount n)).toNat = 128 + longCount n := by
      simp only [UInt8.toNat_ofNat']
      omega
    have hk : 128 + longCount n - 128 = longCount n := by omega
    rw [if_neg hshort, List.cons_append, takeLength, hn, if_neg (by omega), hk, if_neg (by simp),
      List.take_left' (length_toBe _ _), List.drop_left' (length_toBe _ _),
      ofBe_toBe_of_lt (lt_pow_longCount n)]

theorem takeTlv_tlv (tag : UInt8) {content : Bytes} (h : Short content) (rest : Bytes) :
    takeTlv tag (tlv tag content ++ rest) = some (content, rest) := by
  rw [tlv, List.cons_append, List.append_assoc, takeTlv, if_neg (by simp),
    takeLength_lengthOctets h]
  simp only [bind, Option.bind, List.length_append]
  rw [if_neg (by omega), List.take_left, List.drop_left]

theorem takeTlvs_tlvs (tag : UInt8) (contents : List Bytes) (h : ∀ c ∈ contents, Short c)
    {fuel : Nat} (hfuel : contents.length ≤ fuel) :
    takeTlvs tag fuel (contents.flatMap (tlv tag)) = some contents := by
  induction contents generalizing fuel with
  | nil => cases fuel <;> rfl
  | cons c contents ih =>
    obtain ⟨fuel, rfl⟩ : ∃ k, fuel = k + 1 := ⟨fuel - 1, by simp at hfuel; omega⟩
    have hfirst := takeTlv_tlv tag (h c (List.mem_cons_self ..)) (contents.flatMap (tlv tag))
    have hrest := ih (fun c' hc => h c' (List.mem_cons_of_mem _ hc))
      (Nat.le_of_succ_le_succ hfuel)
    rw [List.flatMap_cons]
    rw [tlv, List.cons_append] at hfirst ⊢
    simp only [takeTlvs, hfirst, hrest, bind, Option.bind]

/-! ## Lengths -/

theorem length_tlv (tag : UInt8) (content : Bytes) :
    (tlv tag content).length = 1 + (lengthOctets content.length).length + content.length := by
  simp only [tlv, List.length_cons, List.length_append]
  omega

theorem length_lt_tlv (tag : UInt8) (content : Bytes) :
    content.length < (tlv tag content).length := by
  rw [length_tlv]
  omega

/-- Values in a row are no shorter than any of their contents, and no fewer
than their octets. -/
theorem length_le_tlvs (tag : UInt8) (contents : List Bytes) :
    contents.length ≤ (contents.flatMap (tlv tag)).length ∧
      ∀ c ∈ contents, c.length ≤ (contents.flatMap (tlv tag)).length := by
  induction contents with
  | nil => simp
  | cons c contents ih =>
    have hfirst := length_lt_tlv tag c
    rw [List.flatMap_cons, List.length_append, List.length_cons]
    refine ⟨by omega, ?_⟩
    intro c' hc'
    rcases List.mem_cons.mp hc' with rfl | hc'
    · omega
    · have := ih.2 c' hc'
      omega

theorem length_tlv_short (tag : UInt8) (content : Bytes) (h : content.length < 128) :
    (tlv tag content).length = content.length + 2 := by
  rw [length_tlv, lengthOctets, if_pos h, List.length_singleton]
  omega

theorem length_pos_lengthOctets (n : Nat) : 0 < (lengthOctets n).length := by
  unfold lengthOctets
  split <;> simp

/-- A content of 2^24 octets or more has four length octets at least. -/
theorem length_tlv_ge (tag : UInt8) (content : Bytes) (h : 2 ^ 24 ≤ content.length) :
    content.length + 6 ≤ (tlv tag content).length := by
  have hlog : 3 ≤ Nat.log 256 content.length := Nat.le_log_of_pow_le (by omega) (by omega)
  rw [length_tlv, lengthOctets, if_neg (by omega), List.length_cons, length_toBe, longCount]
  omega

/-- A content of 2^24 octets or more, up to 2^32, has four length octets. -/
theorem length_tlv_long (tag : UInt8) (content : Bytes) (hlo : 2 ^ 24 ≤ content.length)
    (hhi : content.length < 2 ^ 32) : (tlv tag content).length = content.length + 6 := by
  have hlog : Nat.log 256 content.length = 3 :=
    (Nat.log_eq_iff (.inl (by omega))).mpr ⟨by omega, by omega⟩
  rw [length_tlv, lengthOctets, if_neg (by omega), List.length_cons, length_toBe, longCount, hlog]
  omega

example : tlv 0x04 [1, 2] = [0x04, 0x02, 1, 2] ∧
    lengthOctets 300 = [0x82, 0x01, 0x2C] := by decide

end Ttp2.Lib.Der
