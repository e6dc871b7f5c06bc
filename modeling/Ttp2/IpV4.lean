import Ttp2.Lib.Stoi
import Mathlib.Data.List.Basic

/-! # `isValidIpV4` (`tcp_networking.cpp`)

The check of an address: its octets are what `getline` takes up to each dot
and up to the end of the stream, an empty one behind a last dot included. An
octet is refused for a leading zero, for a letter and for a value above 255;
what else it holds is left to `stoi`, which throws where it finds no number
and reads over what comes before and behind one. -/
namespace Ttp2
open Lib Stoi

namespace TcpNetworking

/-- How the check can fail to return: an exception of `stoi`, or one of its
`int` counters beyond its range. -/
inductive IpV4Failure where
  | stoi (e : StoiError)
  | overflow
  deriving DecidableEq

/-- The loop over the characters of an octet, from `index` on: whether it meets a letter. -/
def meetsAlpha : Nat → Bytes → Except IpV4Failure Bool
  | _, [] => .ok false
  | index, c :: octet =>
    if isalpha c then .ok true
    else if index + 1 = 2 ^ 31 then .error .overflow
    else meetsAlpha (index + 1) octet

/-- The body of the loop: `false` is returned at once, or the loop goes on. -/
def checkOctet (octet : Bytes) : Except IpV4Failure Bool := do
  if 1 < octet.length ∧ octet.head? = some 0x30 then return false
  if ← meetsAlpha 0 octet then return false
  match stoi octet with
  | .error e => throw (.stoi e)
  | .ok value => return decide (value ≤ 255)

/-- The loop over the octets, with `count` of them behind it. -/
def checkOctets : Nat → List Bytes → Except IpV4Failure Bool
  | count, [] => .ok (count = 4)
  | count, octet :: octets => do
    if !(← checkOctet octet) then return false
    if count + 1 = 2 ^ 31 then throw .overflow
    checkOctets (count + 1) octets

def isValidIpV4 (ipString : Bytes) : Except IpV4Failure Bool :=
  if ipString.length < 7 then .ok false
  else checkOctets 0 (ipString.splitOn 0x2E)

/-! ## The grammar -/

/-- A decimal number up to 255: digits only, and no zero in front of others. -/
structure DecimalOctet (octet : Bytes) : Prop where
  nonempty : octet ≠ []
  digits : ∀ c ∈ octet, isdigit c = true
  canonical : 1 < octet.length → octet.head? ≠ some 0x30
  range : decimalValue octet ≤ 255

/-- Four of them, joined by three dots. -/
def DottedQuad (ipString : Bytes) : Prop :=
  ∃ a b c d, DecimalOctet a ∧ DecimalOctet b ∧ DecimalOctet c ∧ DecimalOctet d ∧
    ipString = a ++ 0x2E :: (b ++ 0x2E :: (c ++ 0x2E :: d))

theorem DecimalOctet.dot_not_mem {octet : Bytes} (h : DecimalOctet octet) : 0x2E ∉ octet :=
  fun hmem => absurd (h.digits _ hmem) (by decide)

theorem dottedQuad_iff (ipString : Bytes) : DottedQuad ipString ↔
    (ipString.splitOn 0x2E).length = 4 ∧ ∀ octet ∈ ipString.splitOn 0x2E, DecimalOctet octet := by
  constructor
  · rintro ⟨a, b, c, d, ha, hb, hc, hd, rfl⟩
    rw [List.splitOn_append_cons_self_of_not_mem ha.dot_not_mem,
      List.splitOn_append_cons_self_of_not_mem hb.dot_not_mem,
      List.splitOn_append_cons_self_of_not_mem hc.dot_not_mem,
      List.splitOn_eq_singleton hd.dot_not_mem]
    simp [ha, hb, hc, hd]
  · rintro ⟨hlen, hall⟩
    have hjoin : [0x2E].intercalate (ipString.splitOn 0x2E) = ipString :=
      List.intercalate_splitOn 0x2E
    obtain ⟨a, b, c, d, hparts⟩ := List.length_eq_four.mp hlen
    rw [hparts] at hjoin hall
    simp only [List.forall_mem_cons] at hall
    exact ⟨a, b, c, d, hall.1, hall.2.1, hall.2.2.1, hall.2.2.2.1, by rw [← hjoin]; simp⟩

/-! ## One octet -/

def LeadingZero (octet : Bytes) : Prop := 1 < octet.length ∧ octet.head? = some 0x30

/-- The octets the body returns `false` for. -/
def Refused (octet : Bytes) : Prop :=
  LeadingZero octet ∨ (∃ c ∈ octet.take (2 ^ 31), isalpha c = true) ∨
    octet.length < 2 ^ 31 ∧ ∃ value, stoi octet = .ok value ∧ 255 < value

/-- The octets the loop goes on after. -/
structure Passes (octet : Bytes) : Prop where
  zero : ¬ LeadingZero octet
  letters : ∀ c ∈ octet, ¬ isalpha c = true
  short : octet.length < 2 ^ 31
  value : ∃ value, stoi octet = .ok value ∧ value ≤ 255

theorem meetsAlpha_eq_true {index : Nat} {octet : Bytes} (hi : index < 2 ^ 31) :
    meetsAlpha index octet = .ok true ↔ ∃ c ∈ octet.take (2 ^ 31 - index), isalpha c = true := by
  induction octet generalizing index with
  | nil => simp [meetsAlpha]
  | cons c octet ih =>
    obtain ⟨k, hk⟩ : ∃ k, 2 ^ 31 - index = k + 1 := ⟨2 ^ 31 - index - 1, by omega⟩
    rw [meetsAlpha, hk, List.take_succ_cons]
    by_cases hc : isalpha c = true
    · simp [hc]
    · rw [if_neg hc]
      by_cases hlast : index + 1 = 2 ^ 31
      · rw [if_pos hlast, show k = 0 by omega]
        simp [hc]
      · rw [if_neg hlast, ih (by omega), show 2 ^ 31 - (index + 1) = k by omega]
        simp [hc]

theorem meetsAlpha_eq_false {index : Nat} {octet : Bytes} (hi : index < 2 ^ 31) :
    meetsAlpha index octet = .ok false ↔
      index + octet.length < 2 ^ 31 ∧ ∀ c ∈ octet, ¬ isalpha c = true := by
  induction octet generalizing index with
  | nil => simpa [meetsAlpha] using hi
  | cons c octet ih =>
    rw [meetsAlpha, List.length_cons]
    by_cases hc : isalpha c = true
    · simp [hc]
    · rw [if_neg hc]
      by_cases hlast : index + 1 = 2 ^ 31
      · rw [if_pos hlast]
        simp only [reduceCtorEq, false_iff, not_and]
        omega
      · rw [if_neg hlast, ih (by omega), Nat.add_right_comm index 1, Nat.add_assoc]
        simp [hc]

theorem checkOctet_eq {octet : Bytes} (hzero : ¬ LeadingZero octet) :
    checkOctet octet = (meetsAlpha 0 octet >>= fun letter => if letter then .ok false
      else match stoi octet with
        | .error e => .error (.stoi e)
        | .ok value => .ok (decide (value ≤ 255))) := by
  unfold LeadingZero at hzero
  unfold checkOctet
  rw [if_neg hzero]
  rfl

theorem checkOctet_eq_false (octet : Bytes) : checkOctet octet = .ok false ↔ Refused octet := by
  by_cases hzero : LeadingZero octet
  · exact iff_of_true (if_pos hzero) (.inl hzero)
  have hletter : meetsAlpha 0 octet = .ok true ↔ ∃ c ∈ octet.take (2 ^ 31), isalpha c = true :=
    meetsAlpha_eq_true (by decide)
  have hnone : meetsAlpha 0 octet = .ok false ↔
      0 + octet.length < 2 ^ 31 ∧ ∀ c ∈ octet, ¬ isalpha c = true := meetsAlpha_eq_false (by decide)
  rw [Nat.zero_add] at hnone
  rw [checkOctet_eq hzero, Refused, or_iff_right hzero, ← hletter]
  cases hm : meetsAlpha 0 octet with
  | error e =>
    have hlong : ¬ octet.length < 2 ^ 31 := by
      intro hshort
      have hall : ∀ c ∈ octet, ¬ isalpha c = true := by
        intro c hc ha
        rw [List.take_of_length_le hshort.le] at hletter
        rw [hletter.mpr ⟨c, hc, ha⟩] at hm
        cases hm
      rw [hnone.mpr ⟨hshort, hall⟩] at hm
      cases hm
    refine iff_of_false (fun h => by cases h) ?_
    rintro (h | ⟨hshort, -⟩)
    · cases h
    · exact hlong hshort
  | ok letter =>
    cases letter with
    | true => simp [bind, Except.bind]
    | false =>
      have hshort := (hnone.mp hm).1
      cases hs : stoi octet with
      | error e => simp [bind, Except.bind]
      | ok value => simpa [bind, Except.bind] using fun _ => hshort

theorem checkOctet_eq_true (octet : Bytes) : checkOctet octet = .ok true ↔ Passes octet := by
  by_cases hzero : LeadingZero octet
  · have hrefused : checkOctet octet = .ok false := if_pos hzero
    rw [hrefused]
    exact iff_of_false (by simp) (fun h => h.zero hzero)
  have hnone : meetsAlpha 0 octet = .ok false ↔
      0 + octet.length < 2 ^ 31 ∧ ∀ c ∈ octet, ¬ isalpha c = true := meetsAlpha_eq_false (by decide)
  rw [Nat.zero_add] at hnone
  rw [checkOctet_eq hzero]
  constructor
  · intro h
    cases hm : meetsAlpha 0 octet with
    | error e =>
      rw [hm] at h
      cases h
    | ok letter =>
      rw [hm] at h
      cases letter with
      | true => cases h
      | false =>
        obtain ⟨hshort, hletters⟩ := hnone.mp hm
        cases hs : stoi octet with
        | error e =>
          simp [hs, bind, Except.bind] at h
        | ok value =>
          simp only [hs, bind, Except.bind, Bool.false_eq_true, if_false, Except.ok.injEq,
            decide_eq_true_eq] at h
          exact ⟨hzero, hletters, hshort, value, hs, h⟩
  · rintro ⟨-, hletters, hshort, value, hs, hle⟩
    rw [hnone.mpr ⟨hshort, hletters⟩, hs]
    simp [bind, Except.bind, hle]

theorem Passes.not_refused {octet : Bytes} (h : Passes octet) : ¬ Refused octet := by
  intro hrefused
  have htrue := (checkOctet_eq_true octet).mpr h
  rw [(checkOctet_eq_false octet).mpr hrefused] at htrue
  cases htrue

/-! ## Decimal numbers pass -/

theorem decimalValue_cons (c : UInt8) (rest : Bytes) :
    (c.toNat - 0x30) * 10 ^ rest.length ≤ decimalValue (c :: rest) := by
  have hfold : ∀ v, v * 10 ^ rest.length ≤
      rest.foldl (fun v c => v * 10 + (c.toNat - 0x30)) v := by
    induction rest with
    | nil => simp
    | cons d rest ih =>
      intro v
      refine Nat.le_trans ?_ (ih _)
      rw [List.length_cons, Nat.pow_succ', ← Nat.mul_assoc]
      exact Nat.mul_le_mul_right _ (Nat.le_add_right _ _)
  have := hfold (c.toNat - 0x30)
  simpa [decimalValue] using this

theorem DecimalOctet.short {octet : Bytes} (h : DecimalOctet octet) : octet.length ≤ 3 := by
  obtain ⟨c, rest, rfl⟩ := List.exists_cons_of_ne_nil h.nonempty
  by_contra hlong
  rw [List.length_cons] at hlong
  have hc := (isdigit_iff c).mp (h.digits c List.mem_cons_self)
  have hne : c.toNat ≠ 0x30 := by
    intro he
    refine h.canonical (by rw [List.length_cons]; omega) ?_
    rw [List.head?_cons, ← UInt8.toNat_inj.mp (show c.toNat = (0x30 : UInt8).toNat from he)]
  have hpow : 10 ^ 3 ≤ 10 ^ rest.length := Nat.pow_le_pow_right (by omega) (by omega)
  have hle := decimalValue_cons c rest
  have hone : 1 * 10 ^ rest.length ≤ (c.toNat - 0x30) * 10 ^ rest.length :=
    Nat.mul_le_mul_right _ (by omega)
  have := h.range
  omega

theorem DecimalOctet.passes {octet : Bytes} (h : DecimalOctet octet) : Passes octet where
  zero hzero := h.canonical hzero.1 hzero.2
  letters c hc := not_isalpha_of_isdigit (h.digits c hc)
  short := by
    have := h.short
    omega
  value := by
    have hrange := h.range
    refine ⟨decimalValue octet, ?_, by omega⟩
    rw [stoi_digits h.nonempty h.digits, if_neg (by omega)]

/-- An octet that passes is a decimal number if it is written with digits only. -/
theorem Passes.decimal_iff {octet : Bytes} (h : Passes octet) :
    DecimalOctet octet ↔ ∀ c ∈ octet, isdigit c = true := by
  refine ⟨DecimalOctet.digits, fun hdigits => ?_⟩
  obtain ⟨value, hvalue, hle⟩ := h.value
  have hne : octet ≠ [] := by
    rintro rfl
    rw [stoi_nil] at hvalue
    cases hvalue
  rw [stoi_digits hne hdigits] at hvalue
  split at hvalue
  · cases hvalue
  · cases hvalue
    exact ⟨hne, hdigits, fun hlen hhead => h.zero ⟨hlen, hhead⟩, by omega⟩

theorem DottedQuad.length_ge {ipString : Bytes} (h : DottedQuad ipString) : 7 ≤ ipString.length := by
  obtain ⟨a, b, c, d, ha, hb, hc, hd, rfl⟩ := h
  have hpos : ∀ {octet : Bytes}, DecimalOctet octet → 0 < octet.length :=
    fun h => List.length_pos_iff.mpr h.nonempty
  have := hpos ha
  have := hpos hb
  have := hpos hc
  have := hpos hd
  simp only [List.length_append, List.length_cons]
  omega

/-! ## The loop -/

/-- Octets that pass, and behind them one that is refused. -/
def RefusedFrom (count : Nat) (octets : List Bytes) : Prop :=
  ∃ before octet after, octets = before ++ octet :: after ∧ (∀ o ∈ before, Passes o) ∧
    Refused octet ∧ count + before.length < 2 ^ 31

theorem refusedFrom_cons {count : Nat} {octet : Bytes} {octets : List Bytes} (h : Passes octet) :
    RefusedFrom count (octet :: octets) ↔ RefusedFrom (count + 1) octets := by
  constructor
  · rintro ⟨before, o, after, hsplit, hbefore, ho, hcount⟩
    cases before with
    | nil =>
      cases hsplit
      exact absurd ho h.not_refused
    | cons b before =>
      cases hsplit
      rw [List.length_cons] at hcount
      exact ⟨before, o, after, rfl, fun p hp => hbefore p (List.mem_cons_of_mem _ hp), ho, by omega⟩
  · rintro ⟨before, o, after, rfl, hbefore, ho, hcount⟩
    refine ⟨octet :: before, o, after, rfl, List.forall_mem_cons.mpr ⟨h, hbefore⟩, ho, ?_⟩
    rw [List.length_cons]
    omega

theorem refusedFrom_cons_of_not_passes {count : Nat} (hcount : count < 2 ^ 31) {octet : Bytes}
    {octets : List Bytes} (h : ¬ Passes octet) :
    RefusedFrom count (octet :: octets) ↔ Refused octet := by
  constructor
  · rintro ⟨before, o, after, hsplit, hbefore, ho, -⟩
    cases before with
    | nil =>
      cases hsplit
      exact ho
    | cons b before =>
      cases hsplit
      exact absurd (hbefore _ List.mem_cons_self) h
  · exact fun ho => ⟨[], octet, octets, rfl, fun o hmem => (by cases hmem), ho, hcount⟩

/-- What the loop returns, from any octet on. -/
theorem checkOctets_eq_ok {count : Nat} (hcount : count < 2 ^ 31) (octets : List Bytes)
    (valid : Bool) : checkOctets count octets = .ok valid ↔
      RefusedFrom count octets ∧ valid = false ∨
      (∀ o ∈ octets, Passes o) ∧ count + octets.length < 2 ^ 31 ∧
        valid = decide (count + octets.length = 4) := by
  induction octets generalizing count with
  | nil =>
    have hnever : ¬ RefusedFrom count [] := by
      rintro ⟨before, octet, after, hsplit, -⟩
      simp at hsplit
    rw [checkOctets, List.length_nil, Nat.add_zero]
    simpa [hnever, eq_comm] using fun _ => hcount
  | cons octet octets ih =>
    rw [checkOctets]
    by_cases hp : Passes octet
    · rw [(checkOctet_eq_true octet).mpr hp, refusedFrom_cons hp, List.forall_mem_cons,
        and_iff_right hp, List.length_cons, ← Nat.add_assoc, Nat.add_right_comm]
      show (if count + 1 = 2 ^ 31 then .error .overflow else checkOctets (count + 1) octets) =
        Except.ok valid ↔ _
      by_cases hlast : count + 1 = 2 ^ 31
      · rw [if_pos hlast]
        refine iff_of_false (fun h => by cases h) ?_
        rintro (⟨⟨before, o, after, -, -, -, hlt⟩, -⟩ | ⟨-, hlt, -⟩)
        · omega
        · omega
      · rw [if_neg hlast]
        exact ih (by omega)
    · rw [refusedFrom_cons_of_not_passes hcount hp, List.forall_mem_cons,
        ← checkOctet_eq_false octet]
      have hnot := mt (checkOctet_eq_true octet).mp hp
      cases hc : checkOctet octet with
      | error e => simp [bind, Except.bind, hp]
      | ok go =>
        cases go with
        | true => exact absurd hc hnot
        | false => simp [bind, Except.bind, hp, pure, Except.pure, eq_comm]

/-! ## When the check decides the grammar -/

/-- The check returns, and says whether the string is a dotted quad. -/
def Decides (ipString : Bytes) : Prop :=
  ∃ valid, isValidIpV4 ipString = .ok valid ∧ (valid = true ↔ DottedQuad ipString)

/-- **When `isValidIpV4` decides the dotted quads:** on what is too short, on
what has an octet refused with only octets before it that pass, and on octets
that all pass if they are not four or have nothing but digits. -/
theorem decides_iff (ipString : Bytes) :
    Decides ipString ↔ ipString.length < 7 ∨ RefusedFrom 0 (ipString.splitOn 0x2E) ∨
      (∀ octet ∈ ipString.splitOn 0x2E, Passes octet) ∧ (ipString.splitOn 0x2E).length < 2 ^ 31 ∧
        ((ipString.splitOn 0x2E).length = 4 →
          ∀ octet ∈ ipString.splitOn 0x2E, ∀ c ∈ octet, isdigit c = true) := by
  have hquad := dottedQuad_iff ipString
  unfold Decides isValidIpV4
  by_cases hlen : ipString.length < 7
  · refine iff_of_true ⟨false, if_pos hlen, ?_⟩ (.inl hlen)
    refine iff_of_false Bool.false_ne_true fun h => ?_
    have := h.length_ge
    omega
  rw [if_neg hlen, or_iff_right hlen]
  generalize ipString.splitOn 0x2E = octets at hquad
  have hloop := checkOctets_eq_ok (show 0 < 2 ^ 31 by decide) octets
  simp only [Nat.zero_add] at hloop
  simp only [hloop, hquad]
  constructor
  · rintro ⟨valid, ⟨hrefused, -⟩ | ⟨hall, hshort, rfl⟩, hvalid⟩
    · exact .inl hrefused
    · refine .inr ⟨hall, hshort, fun hfour octet ho => ?_⟩
      exact ((hvalid.mp (decide_eq_true hfour)).2 octet ho).digits
  · rintro (hrefused | ⟨hall, hshort, hdigits⟩)
    · refine ⟨false, .inl ⟨hrefused, rfl⟩, iff_of_false Bool.false_ne_true ?_⟩
      rintro ⟨-, hdecimal⟩
      obtain ⟨before, octet, after, hsplit, -, ho, -⟩ := hrefused
      have hmem : octet ∈ octets := by
        rw [hsplit]
        exact List.mem_append_right _ List.mem_cons_self
      exact (hdecimal octet hmem).passes.not_refused ho
    · refine ⟨_, .inr ⟨hall, hshort, rfl⟩, ?_⟩
      rw [decide_eq_true_iff]
      exact ⟨fun hfour => ⟨hfour, fun octet ho =>
        (hall octet ho).decimal_iff.mpr (hdigits hfour octet ho)⟩, And.left⟩

/-- `"1.2.3.4."` ends with an empty octet, on which `stoi` throws. -/
theorem trailing_dot_throws : ¬ ∀ ipString : Bytes, Decides ipString := by
  intro h
  obtain ⟨valid, hvalid, -⟩ := h [0x31, 0x2E, 0x32, 0x2E, 0x33, 0x2E, 0x34, 0x2E]
  have hthrows : isValidIpV4 [0x31, 0x2E, 0x32, 0x2E, 0x33, 0x2E, 0x34, 0x2E] =
      .error (.stoi .invalidArgument) := by decide +kernel
  rw [hthrows] at hvalid
  cases hvalid

/-- `"1.2.3.-4"` is taken for an address. -/
example : isValidIpV4 [0x31, 0x2E, 0x32, 0x2E, 0x33, 0x2E, 0x2D, 0x34] = .ok true := by
  decide +kernel

end TcpNetworking
end Ttp2
