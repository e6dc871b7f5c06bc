import Ttp2.Lib.Octets
import Mathlib.Data.List.TakeWhile
import Mathlib.Tactic.IntervalCases

/-! # Text as `<cctype>` and `std::stoi` read it

The classes of the "C" locale, and `std::stoi` in base ten: white space is
skipped, a sign may follow, digits are read up to the first character that is
none, and what comes behind is not looked at. -/
namespace Ttp2.Lib.Stoi

def isspace (c : UInt8) : Bool := c = 0x20 ∨ 0x09 ≤ c ∧ c ≤ 0x0D

def isdigit (c : UInt8) : Bool := 0x30 ≤ c ∧ c ≤ 0x39

def isalpha (c : UInt8) : Bool := 0x41 ≤ c ∧ c ≤ 0x5A ∨ 0x61 ≤ c ∧ c ≤ 0x7A

/-- The exceptions of `std::stoi`. -/
inductive StoiError where
  | invalidArgument
  | outOfRange
  deriving DecidableEq

/-- The number a row of digits denotes. -/
def decimalValue (digits : Bytes) : Nat := digits.foldl (fun v c => v * 10 + (c.toNat - 0x30)) 0

/-- An optional sign: whether it is a minus, and what follows it. -/
def takeSign : Bytes → Bool × Bytes
  | 0x2D :: rest => (true, rest)
  | 0x2B :: rest => (false, rest)
  | rest => (false, rest)

/-- `std::stoi(s)`, for an `int` of 32 bits. -/
def stoi (s : Bytes) : Except StoiError Int :=
  let (negative, rest) := takeSign (s.dropWhile isspace)
  let digits := rest.takeWhile isdigit
  let value : Int := if negative then -(decimalValue digits : Int) else decimalValue digits
  if digits = [] then .error .invalidArgument
  else if value < -2 ^ 31 ∨ 2 ^ 31 ≤ value then .error .outOfRange
  else .ok value

theorem isspace_iff (c : UInt8) :
    isspace c = true ↔ c.toNat = 0x20 ∨ 0x09 ≤ c.toNat ∧ c.toNat ≤ 0x0D := by
  simp [isspace, UInt8.le_iff_toNat_le, ← UInt8.toNat_inj]

theorem isdigit_iff (c : UInt8) : isdigit c = true ↔ 0x30 ≤ c.toNat ∧ c.toNat ≤ 0x39 := by
  simp [isdigit, UInt8.le_iff_toNat_le]

theorem isalpha_iff (c : UInt8) : isalpha c = true ↔
    0x41 ≤ c.toNat ∧ c.toNat ≤ 0x5A ∨ 0x61 ≤ c.toNat ∧ c.toNat ≤ 0x7A := by
  simp [isalpha, UInt8.le_iff_toNat_le]

theorem not_isspace_of_isdigit {c : UInt8} (h : isdigit c = true) : ¬ isspace c = true := by
  rw [isdigit_iff] at h
  rw [isspace_iff]
  omega

theorem not_isalpha_of_isdigit {c : UInt8} (h : isdigit c = true) : ¬ isalpha c = true := by
  rw [isdigit_iff] at h
  rw [isalpha_iff]
  omega

theorem takeSign_of_isdigit {c : UInt8} (h : isdigit c = true) (rest : Bytes) :
    takeSign (c :: rest) = (false, c :: rest) := by
  unfold takeSign
  split
  · rename_i heq
    cases heq
    exact absurd h (by decide)
  · rename_i heq
    cases heq
    exact absurd h (by decide)
  · rfl

theorem takeSign_of_ne {c : UInt8} (hminus : c ≠ 0x2D) (hplus : c ≠ 0x2B) (rest : Bytes) :
    takeSign (c :: rest) = (false, c :: rest) := by
  unfold takeSign
  split
  · rename_i heq
    cases heq
    exact absurd rfl hminus
  · rename_i heq
    cases heq
    exact absurd rfl hplus
  · rfl

/-- A row of digits is read in full. -/
theorem stoi_digits {digits : Bytes} (hne : digits ≠ []) (h : ∀ c ∈ digits, isdigit c = true) :
    stoi digits = if 2 ^ 31 ≤ decimalValue digits then .error .outOfRange
      else .ok (decimalValue digits) := by
  obtain ⟨c, rest, rfl⟩ := List.exists_cons_of_ne_nil hne
  have hc := h c List.mem_cons_self
  have hspace : (c :: rest).dropWhile isspace = c :: rest := by
    rw [List.dropWhile_cons, if_neg (not_isspace_of_isdigit hc)]
  have hdigits : (c :: rest).takeWhile isdigit = c :: rest := List.takeWhile_eq_self_iff.mpr h
  unfold stoi
  rw [hspace, takeSign_of_isdigit hc]
  dsimp only
  rw [hdigits, if_neg hne, if_neg Bool.false_ne_true]
  by_cases hbig : 2 ^ 31 ≤ decimalValue (c :: rest)
  · rw [if_pos (.inr (by omega)), if_pos hbig]
  · rw [if_neg (by omega), if_neg hbig]

/-- No digit stands in front. -/
def NoDigit (s : Bytes) : Prop := ∀ c ∈ s.head?, ¬ isdigit c = true

theorem noDigit_nil : NoDigit [] := fun _ h => absurd h (by simp)

theorem takeWhile_append_of_noDigit {digits rest : Bytes} (h : ∀ c ∈ digits, isdigit c = true)
    (hrest : NoDigit rest) : (digits ++ rest).takeWhile isdigit = digits := by
  rw [List.takeWhile_append_of_pos h]
  cases rest with
  | nil => exact List.append_nil _
  | cons c rest => rw [List.takeWhile_cons, if_neg (hrest c rfl), List.append_nil]

/-- What comes behind a row of digits is not looked at. -/
theorem stoi_append {digits rest : Bytes} (hne : digits ≠ [])
    (h : ∀ c ∈ digits, isdigit c = true) (hrest : NoDigit rest) :
    stoi (digits ++ rest) = stoi digits := by
  obtain ⟨c, tail, rfl⟩ := List.exists_cons_of_ne_nil hne
  have hc := h c List.mem_cons_self
  have hspace : ∀ s : Bytes, (c :: s).dropWhile isspace = c :: s := fun s => by
    rw [List.dropWhile_cons, if_neg (not_isspace_of_isdigit hc)]
  have htake : (c :: (tail ++ rest)).takeWhile isdigit = (c :: tail).takeWhile isdigit := by
    rw [List.takeWhile_eq_self_iff.mpr h]
    exact takeWhile_append_of_noDigit h hrest
  unfold stoi
  rw [List.cons_append, hspace, hspace, takeSign_of_isdigit hc, takeSign_of_isdigit hc]
  dsimp only
  rw [htake]

/-- Nothing is read where no digit stands. -/
theorem stoi_nil : stoi [] = .error .invalidArgument := rfl

example : stoi [0x20, 0x2D, 0x34, 0x2F, 0x39] = .ok (-4) ∧ stoi [0x2F] = .error .invalidArgument := by
  decide

/-! ## Writing a number -/

/-- The decimal digits of a number. -/
def decimal (n : Nat) : Bytes := (Nat.toDigits 10 n).map fun c => UInt8.ofNat c.toNat

/-- `std::to_string(i)` -/
def decimalInt (i : Int) : Bytes :=
  if i < 0 then 0x2D :: decimal i.natAbs else decimal i.natAbs

/-- A digit fits an octet. -/
theorem digit_octet {n : Nat} {c : Char} (hc : c ∈ Nat.toDigits 10 n) :
    (UInt8.ofNat c.toNat).toNat = c.toNat ∧ 0x30 ≤ c.toNat ∧ c.toNat ≤ 0x39 := by
  have hdigit := Nat.isDigit_of_mem_toDigits (by decide) (by decide) hc
  simp only [Char.isDigit, Bool.and_eq_true, decide_eq_true_eq, ge_iff_le,
    UInt32.le_iff_toNat_le] at hdigit
  have hle : c.toNat ≤ 0x39 := hdigit.2
  exact ⟨UInt8.toNat_ofNat_of_lt' (Nat.lt_of_le_of_lt hle (by decide)), hdigit⟩

theorem isdigit_of_mem_decimal {n : Nat} {c : UInt8} (hc : c ∈ decimal n) : isdigit c = true := by
  obtain ⟨d, hd, rfl⟩ := List.mem_map.mp hc
  obtain ⟨hoctet, hrange⟩ := digit_octet hd
  rw [isdigit_iff, hoctet]
  exact hrange

theorem decimal_ne_nil (n : Nat) : decimal n ≠ [] :=
  fun h => Nat.toDigits_ne_nil (List.map_eq_nil_iff.mp h)

/-- No zero stands in front of other digits. -/
theorem head_decimal {n : Nat} (hn : 0 < n) : (decimal n).head? ≠ some 0x30 := by
  induction n using Nat.strongRecOn with
  | ind n ih =>
    by_cases hlt : n < 10
    · rw [decimal, Nat.toDigits_of_lt_base hlt]
      interval_cases n <;> decide
    · have hle : 10 ≤ n := Nat.le_of_not_lt hlt
      have hsplit : decimal n =
          decimal (n / 10) ++ [UInt8.ofNat (Nat.digitChar (n % 10)).toNat] := by
        rw [decimal, Nat.toDigits_of_base_le (by decide) hle, List.map_append]
        rfl
      obtain ⟨c, tail, hcons⟩ := List.exists_cons_of_ne_nil (decimal_ne_nil (n / 10))
      have hfirst := ih (n / 10) (by omega) (by omega)
      rw [hcons] at hsplit hfirst
      rw [hsplit]
      exact hfirst

theorem decimalValue_decimal (n : Nat) : decimalValue (decimal n) = n := by
  have hfold : ∀ cs : List Char, (∀ c ∈ cs, c ∈ Nat.toDigits 10 n) → ∀ v,
      (cs.map fun c => UInt8.ofNat c.toNat).foldl (fun v c => v * 10 + (c.toNat - 0x30)) v =
        Nat.ofDigitChars 10 cs v := by
    intro cs hcs
    induction cs with
    | nil => exact fun v => rfl
    | cons c cs ih =>
      intro v
      rw [List.map_cons, List.foldl_cons, ih fun d hd => hcs d (List.mem_cons_of_mem _ hd),
        Nat.ofDigitChars_cons, (digit_octet (hcs c List.mem_cons_self)).1, Nat.mul_comm v 10]
      rfl
  rw [decimalValue, decimal, hfold _ (fun c hc => hc), Nat.ofDigitChars_ten_toDigits]

end Ttp2.Lib.Stoi
