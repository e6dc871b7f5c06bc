import Ttp2.Lib.Regex
import Ttp2.Lib.Stoi

/-! # Asking for a number (`test/client/src/utils/helpers.cpp`)

`requestInt` asks until a line matches the expression of a decimal number,
fraction and exponent included, and hands this line to `std::stoi`. The two do
not agree: what is read is the whole part, and where a numeral begins with its
point or does not fit an `int`, `stoi` throws (`requestInt_reads`). Every `int`
can be entered (`requestInt_decimal`). -/
namespace Ttp2
open Lib Stoi Regex RegularExpression

namespace Helpers

/-! ## The functions -/

def digit : RegularExpression UInt8 :=
  oneOf [0x30, 0x31, 0x32, 0x33, 0x34, 0x35, 0x36, 0x37, 0x38, 0x39]

/-- `[-+]?` -/
def signRegex : RegularExpression UInt8 := zeroOrOne (oneOf [0x2D, 0x2B])

/-- `(?:\d+(?:\.\d*)?|\.\d+)` -/
def mantissaRegex : RegularExpression UInt8 :=
  oneOrMore digit * zeroOrOne (char 0x2E * star digit) + char 0x2E * oneOrMore digit

/-- `(?:[eE][-+]?\d+)?` -/
def exponentRegex : RegularExpression UInt8 :=
  zeroOrOne (oneOf [0x65, 0x45] * signRegex * oneOrMore digit)

/-- `^[-+]?(?:\d+(?:\.\d*)?|\.\d+)(?:[eE][-+]?\d+)?$` -/
def numberRegex : RegularExpression UInt8 := signRegex * mantissaRegex * exponentRegex

def isNumeric (string : Bytes) : Bool := numberRegex.rmatch string

/-- The loop over the lines of the input: what `std::stoi` makes of the first
numeric one. With no such line it asks on. -/
def requestInt : List Bytes → Option (Except StoiError Int)
  | [] => none
  | userInput :: lines => if isNumeric userInput then some (stoi userInput) else requestInt lines

/-! ## Numerals -/

inductive Sign where
  | none
  | minus
  | plus
  deriving DecidableEq

def Sign.text : Sign → Bytes
  | .none => []
  | .minus => [0x2D]
  | .plus => [0x2B]

/-- A row of digits. -/
structure Digits where
  text : Bytes
  digits : ∀ c ∈ text, isdigit c = true

/-- A row of at least one. -/
structure Number extends Digits where
  nonempty : text ≠ []

inductive Mantissa where
  | integral (number : Number)
  | point (number : Number) (fraction : Digits)
  | fractional (fraction : Number)

def Mantissa.text : Mantissa → Bytes
  | .integral number => number.text
  | .point number fraction => number.text ++ 0x2E :: fraction.text
  | .fractional fraction => 0x2E :: fraction.text

structure Exponent where
  capital : Bool
  sign : Sign
  number : Number

def Exponent.text (e : Exponent) : Bytes :=
  (if e.capital then 0x45 else 0x65) :: (e.sign.text ++ e.number.text)

/-- A decimal number as it is written. -/
structure Numeral where
  sign : Sign
  mantissa : Mantissa
  exponent : Option Exponent

def Numeral.text (n : Numeral) : Bytes :=
  n.sign.text ++ n.mantissa.text ++ (n.exponent.map Exponent.text).getD []

/-- The digits in front of the point. -/
def Mantissa.wholePart : Mantissa → Bytes
  | .integral number | .point number _ => number.text
  | .fractional _ => []

/-- The whole part, under the sign. -/
def Numeral.wholeValue (n : Numeral) : Int :=
  if n.sign = .minus then -(decimalValue n.mantissa.wholePart : Int)
  else decimalValue n.mantissa.wholePart

/-- What is read of a numeral. -/
def Numeral.reads (n : Numeral) : Except StoiError Int :=
  if n.mantissa.wholePart = [] then .error .invalidArgument
  else if n.wholeValue < -2 ^ 31 ∨ 2 ^ 31 ≤ n.wholeValue then .error .outOfRange
  else .ok n.wholeValue

/-! ## Numerals are what is numeric -/

variable {w : Bytes}

theorem mem_digit (c : UInt8) :
    c ∈ [0x30, 0x31, 0x32, 0x33, 0x34, 0x35, 0x36, 0x37, 0x38, 0x39] ↔ isdigit c = true := by
  rw [isdigit_iff]
  simp only [List.mem_cons, List.not_mem_nil, or_false, ← UInt8.toNat_inj]
  show c.toNat = 48 ∨ c.toNat = 49 ∨ c.toNat = 50 ∨ c.toNat = 51 ∨ c.toNat = 52 ∨ c.toNat = 53 ∨
    c.toNat = 54 ∨ c.toNat = 55 ∨ c.toNat = 56 ∨ c.toNat = 57 ↔ _
  omega

theorem mem_digits : w ∈ (star digit).matches' ↔ ∃ ds : Digits, ds.text = w := by
  rw [digit, mem_star_oneOf]
  constructor
  · exact fun h => ⟨⟨w, fun c hc => (mem_digit c).mp (h c hc)⟩, rfl⟩
  · rintro ⟨ds, rfl⟩ c hc
    exact (mem_digit c).mpr (ds.digits c hc)

theorem mem_number : w ∈ (oneOrMore digit).matches' ↔ ∃ n : Number, n.text = w := by
  rw [digit, mem_oneOrMore_oneOf]
  constructor
  · exact fun h => ⟨⟨⟨w, fun c hc => (mem_digit c).mp (h.2 c hc)⟩, h.1⟩, rfl⟩
  · rintro ⟨n, rfl⟩
    exact ⟨n.nonempty, fun c hc => (mem_digit c).mpr (n.digits c hc)⟩

theorem mem_signRegex : w ∈ signRegex.matches' ↔ ∃ s : Sign, s.text = w := by
  rw [signRegex, mem_zeroOrOne, mem_oneOf]
  constructor
  · rintro (rfl | ⟨c, hc, rfl⟩)
    · exact ⟨.none, rfl⟩
    · rcases List.mem_cons.mp hc with rfl | hc
      · exact ⟨.minus, rfl⟩
      · rw [List.mem_singleton.mp hc]
        exact ⟨.plus, rfl⟩
  · rintro ⟨s, rfl⟩
    cases s with
    | none => exact .inl rfl
    | minus => exact .inr ⟨0x2D, List.mem_cons_self, rfl⟩
    | plus => exact .inr ⟨0x2B, List.mem_cons_of_mem _ List.mem_cons_self, rfl⟩

/-- A word behind a character. -/
theorem mem_char_mul {c : UInt8} {P : RegularExpression UInt8} :
    w ∈ (char c * P).matches' ↔ ∃ v ∈ P.matches', c :: v = w := by
  rw [matches'_mul, Language.mem_mul, matches'_char]
  constructor
  · rintro ⟨a, rfl, v, hv, rfl⟩
    exact ⟨v, hv, rfl⟩
  · rintro ⟨v, hv, rfl⟩
    exact ⟨[c], rfl, v, hv, rfl⟩

theorem mem_mantissaRegex : w ∈ mantissaRegex.matches' ↔ ∃ m : Mantissa, m.text = w := by
  rw [mantissaRegex, matches'_add, Language.mem_add, matches'_mul, Language.mem_mul, mem_char_mul]
  constructor
  · rintro (⟨a, ha, b, hb, rfl⟩ | ⟨v, hv, rfl⟩)
    · obtain ⟨number, rfl⟩ := mem_number.mp ha
      rcases mem_zeroOrOne.mp hb with rfl | hb
      · exact ⟨.integral number, (List.append_nil _).symm⟩
      · obtain ⟨v, hv, rfl⟩ := mem_char_mul.mp hb
        obtain ⟨fraction, rfl⟩ := mem_digits.mp hv
        exact ⟨.point number fraction, rfl⟩
    · obtain ⟨fraction, rfl⟩ := mem_number.mp hv
      exact ⟨.fractional fraction, rfl⟩
  · rintro ⟨m, rfl⟩
    cases m with
    | integral number =>
      exact .inl ⟨_, mem_number.mpr ⟨number, rfl⟩, [], mem_zeroOrOne.mpr (.inl rfl),
        List.append_nil _⟩
    | point number fraction =>
      exact .inl ⟨_, mem_number.mpr ⟨number, rfl⟩, _,
        mem_zeroOrOne.mpr (.inr (mem_char_mul.mpr ⟨_, mem_digits.mpr ⟨fraction, rfl⟩, rfl⟩)), rfl⟩
    | fractional fraction => exact .inr ⟨_, mem_number.mpr ⟨fraction, rfl⟩, rfl⟩

theorem mem_exponentRegex :
    w ∈ exponentRegex.matches' ↔ ∃ e : Option Exponent, (e.map Exponent.text).getD [] = w := by
  rw [exponentRegex, mem_zeroOrOne, matches'_mul, Language.mem_mul]
  constructor
  · rintro (rfl | ⟨ab, hab, c, hc, rfl⟩)
    · exact ⟨none, rfl⟩
    · rw [matches'_mul, Language.mem_mul] at hab
      obtain ⟨a, ha, b, hb, rfl⟩ := hab
      obtain ⟨letter, hletter, rfl⟩ := mem_oneOf.mp ha
      obtain ⟨sign, rfl⟩ := mem_signRegex.mp hb
      obtain ⟨number, rfl⟩ := mem_number.mp hc
      rcases List.mem_cons.mp hletter with rfl | hletter
      · exact ⟨some ⟨false, sign, number⟩, by simp [Exponent.text]⟩
      · rw [List.mem_singleton.mp hletter]
        exact ⟨some ⟨true, sign, number⟩, by simp [Exponent.text]⟩
  · rintro ⟨e, rfl⟩
    cases e with
    | none => exact .inl rfl
    | some e =>
      have hletter : (if e.capital then 0x45 else 0x65 : UInt8) ∈ [(0x65 : UInt8), 0x45] := by
        split <;> decide
      have hfront : (if e.capital then 0x45 else 0x65 : UInt8) :: e.sign.text ∈
          (oneOf [0x65, 0x45] * signRegex).matches' := by
        rw [matches'_mul, Language.mem_mul]
        exact ⟨_, mem_oneOf.mpr ⟨_, hletter, rfl⟩, _, mem_signRegex.mpr ⟨e.sign, rfl⟩, rfl⟩
      exact .inr ⟨_, hfront, _, mem_number.mpr ⟨e.number, rfl⟩, rfl⟩

/-- The expression describes the numerals. -/
theorem isNumeric_iff (s : Bytes) : isNumeric s = true ↔ ∃ n : Numeral, n.text = s := by
  rw [isNumeric, rmatch_iff_matches', numberRegex, matches'_mul, Language.mem_mul]
  constructor
  · rintro ⟨ab, hab, c, hc, rfl⟩
    rw [matches'_mul, Language.mem_mul] at hab
    obtain ⟨a, ha, b, hb, rfl⟩ := hab
    obtain ⟨sign, rfl⟩ := mem_signRegex.mp ha
    obtain ⟨mantissa, rfl⟩ := mem_mantissaRegex.mp hb
    obtain ⟨exponent, rfl⟩ := mem_exponentRegex.mp hc
    exact ⟨⟨sign, mantissa, exponent⟩, rfl⟩
  · rintro ⟨n, rfl⟩
    have hfront : n.sign.text ++ n.mantissa.text ∈ (signRegex * mantissaRegex).matches' := by
      rw [matches'_mul, Language.mem_mul]
      exact ⟨_, mem_signRegex.mpr ⟨n.sign, rfl⟩, _, mem_mantissaRegex.mpr ⟨n.mantissa, rfl⟩, rfl⟩
    exact ⟨_, hfront, _, mem_exponentRegex.mpr ⟨n.exponent, rfl⟩, rfl⟩

/-! ## What `stoi` reads of them -/

/-- A number begins with a digit or its point. -/
theorem Mantissa.text_cons (m : Mantissa) :
    ∃ c rest, m.text = c :: rest ∧ (isdigit c = true ∨ c = 0x2E) := by
  cases m with
  | integral number =>
    obtain ⟨c, rest, h⟩ := List.exists_cons_of_ne_nil number.nonempty
    exact ⟨c, rest, h, .inl (number.digits c (h ▸ List.mem_cons_self))⟩
  | point number fraction =>
    obtain ⟨c, rest, h⟩ := List.exists_cons_of_ne_nil number.nonempty
    exact ⟨c, _, congrArg (· ++ 0x2E :: fraction.text) h,
      .inl (number.digits c (h ▸ List.mem_cons_self))⟩
  | fractional fraction => exact ⟨0x2E, fraction.text, rfl, .inr rfl⟩

/-- An exponent begins with its letter. -/
theorem takeWhile_exponent (e : Option Exponent) :
    ((e.map Exponent.text).getD []).takeWhile isdigit = [] := by
  cases e with
  | none => rfl
  | some e =>
    cases h : e.capital with
    | true => simp [Exponent.text, h, isdigit]
    | false => simp [Exponent.text, h, isdigit]

/-- The digits are read up to the point or the exponent. -/
theorem takeWhile_text (m : Mantissa) (e : Option Exponent) :
    (m.text ++ (e.map Exponent.text).getD []).takeWhile isdigit = m.wholePart := by
  cases m with
  | integral number =>
    rw [Mantissa.text, List.takeWhile_append_of_pos number.digits, takeWhile_exponent,
      List.append_nil]
    rfl
  | point number fraction =>
    rw [Mantissa.text, List.append_assoc, List.takeWhile_append_of_pos number.digits]
    exact List.append_nil _
  | fractional fraction => rfl

/-- No white space is in front, and the sign is read as a sign. -/
theorem Numeral.takeSign_text (n : Numeral) :
    takeSign (n.text.dropWhile isspace) =
      (decide (n.sign = .minus), n.mantissa.text ++ (n.exponent.map Exponent.text).getD []) := by
  obtain ⟨sign, mantissa, exponent⟩ := n
  cases sign with
  | none =>
    obtain ⟨c, rest, htext, hc⟩ := mantissa.text_cons
    have hspace : ¬ isspace c = true := by
      rcases hc with hc | rfl
      · exact not_isspace_of_isdigit hc
      · decide
    have hminus : c ≠ 0x2D := by
      rintro rfl
      rcases hc with hc | hc <;> cases hc
    have hplus : c ≠ 0x2B := by
      rintro rfl
      rcases hc with hc | hc <;> cases hc
    show takeSign ((mantissa.text ++ _).dropWhile isspace) = _
    rw [htext, List.cons_append, List.dropWhile_cons, if_neg hspace, takeSign_of_ne hminus hplus]
    rfl
  | minus => rfl
  | plus => rfl

theorem Numeral.stoi_text (n : Numeral) : stoi n.text = n.reads := by
  unfold stoi
  rw [n.takeSign_text]
  dsimp only
  rw [takeWhile_text, reads, wholeValue]
  by_cases hminus : n.sign = .minus
  · simp only [hminus, decide_true, if_true]
  · simp only [hminus, decide_false, if_false, Bool.false_eq_true]

/-! ## The loop -/

/-- **What is asked for and what is read**: lines that are no numerals are
asked for again, and of the first numeral the whole part is read, if it has
one that fits. -/
theorem requestInt_reads (lines : List Bytes) :
    match requestInt lines with
    | none => ∀ line ∈ lines, ∀ n : Numeral, n.text ≠ line
    | some result => ∃ (refused : List Bytes) (n : Numeral) (rest : List Bytes),
        lines = refused ++ n.text :: rest ∧
        (∀ line ∈ refused, ∀ m : Numeral, m.text ≠ line) ∧ result = n.reads := by
  induction lines with
  | nil => exact fun line hline => absurd hline List.not_mem_nil
  | cons userInput lines ih =>
    by_cases hnumeric : isNumeric userInput = true
    · obtain ⟨n, rfl⟩ := (isNumeric_iff userInput).mp hnumeric
      simp only [requestInt, hnumeric, if_true]
      exact ⟨[], n, lines, rfl, fun line hline => absurd hline List.not_mem_nil, n.stoi_text⟩
    · have hnone : ∀ m : Numeral, m.text ≠ userInput := fun m hm =>
        hnumeric ((isNumeric_iff userInput).mpr ⟨m, hm⟩)
      simp only [requestInt, if_neg hnumeric]
      split at ih
      · exact List.forall_mem_cons.mpr ⟨hnone, ih⟩
      · obtain ⟨refused, n, rest, rfl, hrefused, hresult⟩ := ih
        exact ⟨userInput :: refused, n, rest, rfl, List.forall_mem_cons.mpr ⟨hnone, hrefused⟩,
          hresult⟩

/-- The numeral of an integer. -/
def numeralOf (i : Int) : Numeral where
  sign := if i < 0 then .minus else .none
  mantissa := .integral
    ⟨⟨decimal i.natAbs, fun _ hc => isdigit_of_mem_decimal hc⟩, decimal_ne_nil i.natAbs⟩
  exponent := none

theorem numeralOf_text (i : Int) : (numeralOf i).text = decimalInt i := by
  by_cases hneg : i < 0
  · simp [numeralOf, Numeral.text, decimalInt, hneg, Sign.text, Mantissa.text]
  · simp [numeralOf, Numeral.text, decimalInt, hneg, Sign.text, Mantissa.text]

theorem numeralOf_wholeValue (i : Int) : (numeralOf i).wholeValue = i := by
  show (if (if i < 0 then Sign.minus else .none) = .minus then
      -(decimalValue (decimal i.natAbs) : Int) else decimalValue (decimal i.natAbs)) = i
  rw [decimalValue_decimal]
  by_cases hneg : i < 0
  · rw [if_pos hneg, if_pos rfl]
    omega
  · rw [if_neg hneg, if_neg (by decide)]
    omega

/-- **Every `int` can be entered** as it is printed, whatever was refused before. -/
theorem requestInt_decimal (i : Int32) (refused rest : List Bytes)
    (h : ∀ line ∈ refused, isNumeric line = false) :
    requestInt (refused ++ decimalInt i.toInt :: rest) = some (.ok i.toInt) := by
  induction refused with
  | nil =>
    have hrange : ¬ (i.toInt < -2 ^ 31 ∨ 2 ^ 31 ≤ i.toInt) := by
      have := i.le_toInt
      have := i.toInt_lt
      omega
    have hwhole : (numeralOf i.toInt).mantissa.wholePart ≠ [] := decimal_ne_nil _
    have hreads : (numeralOf i.toInt).reads = .ok i.toInt := by
      rw [Numeral.reads, numeralOf_wholeValue, if_neg hwhole, if_neg hrange]
    rw [List.nil_append, ← numeralOf_text, requestInt,
      if_pos ((isNumeric_iff _).mpr ⟨_, rfl⟩), Numeral.stoi_text, hreads]
  | cons line refused ih =>
    rw [List.cons_append, requestInt, if_neg (by rw [h line List.mem_cons_self]; decide)]
    exact ih fun line hline => h line (List.mem_cons_of_mem _ hline)

theorem requestInt_decimal_port :
    requestInt ([[0x78]] ++ decimalInt (9000 : Int32).toInt :: []) =
      some (.ok (9000 : Int32).toInt) :=
  requestInt_decimal 9000 [[0x78]] [] (by decide)

end Helpers
end Ttp2
