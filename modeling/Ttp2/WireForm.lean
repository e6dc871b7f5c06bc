import Ttp2.Asn1Codec
import Mathlib.Data.List.TakeWhile
import Mathlib.Tactic.NormNum

/-! # What the wire makes of a packet

The encoder writes an integer in as few octets as possible, the decoder reads
the octets back unsigned into 32 bits; a `std::string` goes out up to its
first NUL. `wire` collects what becomes of a packet, and `wire_wire` says that
nothing more becomes of it the second time. -/
namespace Ttp2
open Lib Octets TwosComplement Asn1Helpers Packet

/-! ## Integers -/

theorem toInt32_shift_or (r : Int32) (b : Nat) (hb : b < 256) :
    ((r <<< 8) ||| Int32.ofNat b).toBitVec.toNat = (r.toBitVec.toNat * 256 + b) % 2 ^ 32 := by
  have hmask : (Int32.ofNat b).toBitVec.toNat = b := by
    show (BitVec.ofNat 32 b).toNat = b
    rw [BitVec.toNat_ofNat, Nat.mod_eq_of_lt (by omega)]
  have hshift : (r <<< 8).toBitVec.toNat = (r.toBitVec.toNat % 2 ^ 24) <<< 8 := by
    rw [Int32.toBitVec_shiftLeft]
    show (r.toBitVec <<< (8 : BitVec 32)).toNat = _
    have h8 : (8 : BitVec 32).toNat = 8 := rfl
    rw [BitVec.shiftLeft_eq', BitVec.toNat_shiftLeft, h8, Nat.shiftLeft_eq, Nat.shiftLeft_eq]
    omega
  rw [Int32.toBitVec_or, BitVec.toNat_or, hmask, hshift,
    ← Nat.shiftLeft_add_eq_or_of_lt (by omega), Nat.shiftLeft_eq]
  omega

/-- Reading octets keeps their value modulo the 32 bits of an `int`. -/
theorem toNat_bytesToInt (bytes : Bytes) :
    (bytesToInt bytes bytes.length).toBitVec.toNat = ofBe bytes % 2 ^ 32 := by
  unfold bytesToInt
  rw [List.take_length]
  induction bytes using List.reverseRecOn with
  | nil => rfl
  | append_singleton bytes b ih =>
    rw [List.foldl_append, List.foldl_cons, List.foldl_nil, toInt32_shift_or _ _ b.toNat_lt, ih,
      ofBe_concat]
    omega

theorem toInt_of_toNat {n : Int32} {v : Nat} (h : n.toBitVec.toNat = v % 2 ^ 32) :
    n.toInt = if 2 * (v % 2 ^ 32) < 2 ^ 32 then ((v % 2 ^ 32 : Nat) : Int)
      else ((v % 2 ^ 32 : Nat) : Int) - 2 ^ 32 := by
  show n.toBitVec.toInt = _
  rw [BitVec.toInt_eq_toNat_cond, h]
  norm_num

/-- An `int` field once it has been written and read again. -/
def wireInt (n : Int32) : Int32 := bytesToInt (intOctets n.toInt) (intOctets n.toInt).length

theorem octetCount_int32 (n : Int32) : octetCount n.toInt ≤ 4 := by
  have hlo := n.le_toInt
  have hhi := n.toInt_lt
  exact (octetCount_le (k := 3)).mpr ⟨by norm_num at *; omega, by norm_num at *; omega⟩

/-- Short negative numbers lose their sign, all others come back. -/
theorem toInt_wireInt (n : Int32) :
    (wireInt n).toInt = if n.toInt < 0 ∧ octetCount n.toInt ≤ 3
      then n.toInt + 256 ^ octetCount n.toInt else n.toInt := by
  have hlo := n.le_toInt
  have hhi := n.toInt_lt
  have hcount := octetCount_int32 n
  have hread := toInt_of_toNat (toNat_bytesToInt (intOctets n.toInt))
  change (wireInt n).toInt = _ at hread
  rw [hread]
  by_cases hneg : n.toInt < 0
  · have hvalue := ofBe_intOctets_of_neg hneg
    have hrange := octetCount_range n.toInt
    have hpos := octetCount_pos n.toInt
    obtain h | h | h | h : octetCount n.toInt = 1 ∨ octetCount n.toInt = 2 ∨
        octetCount n.toInt = 3 ∨ octetCount n.toInt = 4 := by omega
    all_goals
      rw [h] at hvalue hrange
      simp only [h, hneg, true_and]
      norm_num at hvalue hrange hlo hhi ⊢
      split <;> omega
  · have hvalue := ofBe_intOctets_of_nonneg (Int.not_lt.mp hneg)
    simp only [hneg, false_and, if_false]
    norm_num at hvalue hlo hhi ⊢
    split <;> omega

/-- What comes back is either what was sent, or not negative. -/
theorem wireInt_cases (n : Int32) : wireInt n = n ∧ n ≠ -1 ∨ 0 ≤ (wireInt n).toInt := by
  have hw := toInt_wireInt n
  have hrange := octetCount_range n.toInt
  by_cases hc : n.toInt < 0 ∧ octetCount n.toInt ≤ 3
  · rw [if_pos hc] at hw
    right
    omega
  · rw [if_neg hc] at hw
    by_cases hneg : n.toInt < 0
    · refine .inl ⟨Int32.toInt_inj.mp hw, ?_⟩
      rintro rfl
      exact hc (by decide)
    · right
      omega

@[simp] theorem wireInt_wireInt (n : Int32) : wireInt (wireInt n) = wireInt n := by
  rcases wireInt_cases n with ⟨h, -⟩ | h
  · rw [h, h]
  · have hw := toInt_wireInt (wireInt n)
    rw [if_neg (by omega)] at hw
    exact Int32.toInt_inj.mp hw

/-- No integer is read back as the sentinel. -/
theorem wireInt_ne_sentinel (n : Int32) : wireInt n ≠ -1 := by
  rcases wireInt_cases n with ⟨h, hn⟩ | h
  · rwa [h]
  · intro he
    rw [he] at h
    exact absurd h (by decide)

example : wireInt (-1) = 255 ∧ wireInt (-8388608) = 8388608 ∧ wireInt (-8388609) = -8388609 := by
  decide

/-! ## Strings and packets -/

/-- A string field once it has been written and read again. -/
def wireString (s : Bytes) : Bytes := s.takeWhile (· ≠ 0)

@[simp] theorem wireString_wireString (s : Bytes) : wireString (wireString s) = wireString s := by
  exact List.takeWhile_idem

/-- A payload once it has been written and read again. -/
def wirePayload {T : Type} : PayloadVariants T → PayloadVariants T
  | .standard s => .standard { payload := wireString s.payload }
  | .file f => .file
    { filePath := wireString f.filePath, start := wireInt f.start, end_ := wireInt f.end_,
      payload := f.payload }
  | .viewportRequest v => .viewportRequest
    { xStart := wireInt v.xStart, xEnd := wireInt v.xEnd, yStart := wireInt v.yStart,
      yEnd := wireInt v.yEnd }
  | .viewport v => .viewport
    { xStart := wireInt v.xStart, xEnd := wireInt v.xEnd, yStart := wireInt v.yStart,
      yEnd := wireInt v.yEnd, payload := v.payload }
  | .tqlQuery q => .tqlQuery { query := wireString q.query }
  | .error e => .error { code := wireInt e.code, message := wireString e.message }
  | .universal u => .universal { type := wireInt u.type, bytes := u.bytes }
  | .ls l => .ls { directory := wireString l.directory }
  | .lsSolution l => .lsSolution l

/-- A packet once it has been written and read again. -/
def wire {T : Type} (p : Packet T) : Packet T where
  id := wireInt p.id
  payload := wirePayload p.payload

@[simp] theorem wirePayload_wirePayload {T : Type} (p : PayloadVariants T) :
    wirePayload (wirePayload p) = wirePayload p := by
  cases p <;> simp [wirePayload]

@[simp] theorem index_wirePayload {T : Type} (p : PayloadVariants T) :
    (wirePayload p).index = p.index := by
  cases p <;> rfl

/-- **The wire form is final**: what was once read from the wire goes over it
unchanged. -/
theorem wire_wire {T : Type} (p : Packet T) : wire (wire p) = wire p := by
  simp [wire]

end Ttp2
