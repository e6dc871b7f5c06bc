import Ttp2.Lib.Octets
import Mathlib.Algebra.Order.Ring.Int
import Mathlib.Tactic.NormNum
import Mathlib.Tactic.Positivity

/-! # Minimal two's-complement octets

The content octets of a DER INTEGER: as few octets as hold the value in
two's complement, most significant first. `intOctets` writes them;
`ofBe_intOctets` says what reading them back as an unsigned number gives. -/
namespace Ttp2.Lib.TwosComplement
open Octets

/-- `n` without its sign: the value whose binary length decides how many
octets `n` needs (`n` itself, or its one's complement when negative). -/
def magnitude (n : Int) : Nat := if 0 ≤ n then n.toNat else (-n - 1).toNat

/-- Binary digits of a number. -/
def bitLength (m : Nat) : Nat := if m = 0 then 0 else m.log2 + 1

/-- How many octets the minimal form has: all the digits and a sign bit. -/
def octetCount (n : Int) : Nat := bitLength (magnitude n) / 8 + 1

/-- The minimal two's-complement octets of `n`. -/
def intOctets (n : Int) : Bytes := toBe (octetCount n) (n % 256 ^ octetCount n).toNat

@[simp] theorem length_intOctets (n : Int) : (intOctets n).length = octetCount n := by
  simp [intOctets]

theorem octetCount_pos (n : Int) : 0 < octetCount n := by simp [octetCount]

theorem bitLength_le {m k : Nat} : bitLength m ≤ k ↔ m < 2 ^ k := by
  unfold bitLength
  split
  · rename_i h
    subst h
    simp
  · rename_i h
    rw [← Nat.log2_lt h, Nat.succ_le_iff]

/-- The octet count of a value is at most `k + 1` exactly when `8 * k + 7`
digits and a sign hold it. -/
theorem octetCount_le {n : Int} {k : Nat} :
    octetCount n ≤ k + 1 ↔ -(2 ^ (8 * k + 7) : Int) ≤ n ∧ n < 2 ^ (8 * k + 7) := by
  have hcount : octetCount n ≤ k + 1 ↔ magnitude n < 2 ^ (8 * k + 7) := by
    rw [← bitLength_le]
    unfold octetCount
    omega
  rw [hcount]
  have hcast : ((2 ^ (8 * k + 7) : Nat) : Int) = (2 : Int) ^ (8 * k + 7) := by push_cast; rfl
  unfold magnitude
  generalize (2 : Int) ^ (8 * k + 7) = b at hcast
  generalize 2 ^ (8 * k + 7) = c at hcast
  split
  · omega
  · omega

/-- Read back as an unsigned number, the octets of `n` are `n` modulo the
range of as many octets. -/
theorem ofBe_intOctets (n : Int) : (ofBe (intOctets n) : Int) = n % 256 ^ octetCount n := by
  have hpos : (0 : Int) < 256 ^ octetCount n := by positivity
  have hnonneg := Int.emod_nonneg n (ne_of_gt hpos)
  have hlt := Int.emod_lt_of_pos n hpos
  have hfit : (n % 256 ^ octetCount n).toNat < 256 ^ octetCount n := by
    have hcast : ((256 ^ octetCount n : Nat) : Int) = (256 : Int) ^ octetCount n := by
      push_cast; rfl
    omega
  unfold intOctets
  rw [ofBe_toBe_of_lt hfit, Int.toNat_of_nonneg hnonneg]

/-- The octets of `n` leave room for its sign. -/
theorem octetCount_range (n : Int) :
    -(256 ^ octetCount n : Int) ≤ 2 * n ∧ 2 * n < 256 ^ octetCount n := by
  obtain ⟨k, hk⟩ : ∃ k, octetCount n = k + 1 :=
    ⟨octetCount n - 1, by have := octetCount_pos n; omega⟩
  have hrange := (octetCount_le (n := n) (k := k)).mp hk.le
  have hpow : (256 : Int) ^ (k + 1) = 2 * 2 ^ (8 * k + 7) := by
    rw [show (256 : Int) = 2 ^ 8 by norm_num, ← pow_mul, ← pow_succ']
    congr 1
  rw [hk, hpow]
  omega

/-- A value that is not negative is read back as itself. -/
theorem ofBe_intOctets_of_nonneg {n : Int} (h : 0 ≤ n) : (ofBe (intOctets n) : Int) = n := by
  have hrange := octetCount_range n
  rw [ofBe_intOctets, Int.emod_eq_of_lt h (by omega)]

/-- A negative value is read back as its complement to the range of its octets. -/
theorem ofBe_intOctets_of_neg {n : Int} (h : n < 0) :
    (ofBe (intOctets n) : Int) = n + 256 ^ octetCount n := by
  have hrange := octetCount_range n
  rw [ofBe_intOctets, ← Int.add_emod_right, Int.emod_eq_of_lt (by omega) (by omega)]

/-! ## Reading with the sign -/

/-- The value octets denote in two's complement. -/
def ofTwos (bs : Bytes) : Int :=
  if 2 * ofBe bs < 256 ^ bs.length then ofBe bs else ofBe bs - 256 ^ bs.length

/-- A value that is not negative is the one the octets have without a sign. -/
theorem ofTwos_of_nonneg {bs : Bytes} (h : 0 ≤ ofTwos bs) : ofTwos bs = ofBe bs := by
  have hlt := ofBe_lt bs
  unfold ofTwos at h ⊢
  split at h
  · rename_i hpos
    rw [if_pos hpos]
  · have hcast : ((256 ^ bs.length : Nat) : Int) = (256 : Int) ^ bs.length := by
      push_cast
      rfl
    omega

example : intOctets 128 = [0x00, 0x80] ∧ intOctets (-128) = [0x80] ∧
    intOctets (-129) = [0xFF, 0x7F] := by decide

end Ttp2.Lib.TwosComplement
