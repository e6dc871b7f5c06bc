import Ttp2.Lib.Stoi
import Mathlib.Data.List.Basic

/-! # Addresses as text

`inet_ntop` writes an IPv4 address as four decimal numbers. `inet_aton` reads
more: one to four numbers, the last of which fills the octets that are left,
each decimal, octal behind a `0` or hexadecimal behind `0x`. The text ends at
its NUL; a library may let it end at white space as well (`white`). -/
namespace Ttp2.Lib.Inet
open Octets Stoi

/-- `struct in_addr`, in network order. -/
structure InAddr where
  octets : Bytes
  four : octets.length = 4
  deriving DecidableEq

def InAddr.ofOctets (octets : Bytes) : Option InAddr :=
  if four : octets.length = 4 then some ⟨octets, four⟩ else none

/-- `a.b.c.d` -/
def InAddr.quad (a b c d : UInt8) : InAddr := ⟨[a, b, c, d], rfl⟩

def inaddrNone : InAddr := .quad 255 255 255 255

def inetNtop (a : InAddr) : Bytes :=
  [0x2E].intercalate (a.octets.map fun octet => decimal octet.toNat)

/-! ## The numbers -/

def digitValue (c : UInt8) : Nat :=
  if isdigit c then c.toNat - 0x30
  else if 0x61 ≤ c ∧ c ≤ 0x66 then c.toNat - 0x57
  else if 0x41 ≤ c ∧ c ≤ 0x46 then c.toNat - 0x37
  else 16

/-- The base a number is in, and its digits: those of a C constant. -/
def radix : Bytes → Nat × Bytes
  | 0x30 :: x :: c :: rest =>
    if (x = 0x78 ∨ x = 0x58) ∧ digitValue c < 16 then (16, c :: rest)
    else (8, 0x30 :: x :: c :: rest)
  | 0x30 :: rest => (8, 0x30 :: rest)
  | cp => (10, cp)

/-- `strtoul(cp, &endp, 0)` where a digit stands, for values of 32 bits. -/
def takeNumber (cp : Bytes) : Option (Nat × Bytes) :=
  if cp.head?.any isdigit then
    let (base, cp) := radix cp
    let val := (cp.takeWhile (digitValue · < base)).foldl (fun v c => v * base + digitValue c) 0
    if val < 2 ^ 32 then some (val, cp.dropWhile (digitValue · < base)) else none
  else none

/-! ## The address -/

section Read
variable (white : UInt8 → Bool)

def endsText : Bytes → Bool
  | [] => true
  | c :: _ => c = 0 ∨ white c

/-- The last number fills the octets that are left. -/
def lastNumber (octets : Bytes) (val : Nat) (cp : Bytes) : Option InAddr :=
  if endsText white cp ∧ val < 256 ^ (4 - octets.length) then
    InAddr.ofOctets (octets ++ toBe (4 - octets.length) val)
  else none

/-- From a number on, with so many dots still allowed. -/
def inetAtonFrom : Nat → Bytes → Bytes → Option InAddr
  | 0, octets, cp => (takeNumber cp).bind fun (val, cp) => lastNumber white octets val cp
  | dots + 1, octets, cp =>
    match takeNumber cp with
    | none => none
    | some (val, 0x2E :: cp) =>
      if val ≤ 255 then inetAtonFrom dots (octets ++ [UInt8.ofNat val]) cp else none
    | some (val, cp) => lastNumber white octets val cp

def inetAton (cp : Bytes) : Option InAddr := inetAtonFrom white 3 [] cp

def inetAddr (cp : Bytes) : InAddr := (inetAton white cp).getD inaddrNone

end Read

/-! ## Decimal numbers -/

theorem digitValue_of_isdigit {c : UInt8} (h : isdigit c = true) :
    digitValue c = c.toNat - 0x30 ∧ digitValue c < 10 := by
  have hrange := (isdigit_iff c).mp h
  rw [digitValue, if_pos h]
  exact ⟨rfl, by omega⟩

theorem digitValue_lt {c : UInt8} {base : Nat} (hbase : base ≤ 10) (h : ¬ isdigit c = true) :
    ¬ digitValue c < base := by
  rw [digitValue, if_neg h]
  simp only [UInt8.le_iff_toNat_le]
  split
  · rename_i hc
    have := hc.1
    change 0x61 ≤ _ at this
    omega
  · split
    · rename_i hc
      have := hc.1
      change 0x41 ≤ _ at this
      omega
    · omega

/-- A row of digits as `strtoul` reads it in base ten. -/
theorem foldl_digitValue {digits : Bytes} (h : ∀ c ∈ digits, isdigit c = true) (v : Nat) :
    digits.foldl (fun v c => v * 10 + digitValue c) v =
      digits.foldl (fun v c => v * 10 + (c.toNat - 0x30)) v := by
  induction digits generalizing v with
  | nil => rfl
  | cons c digits ih =>
    obtain ⟨hc, hdigits⟩ := List.forall_mem_cons.mp h
    rw [List.foldl_cons, List.foldl_cons, (digitValue_of_isdigit hc).1, ih hdigits]

theorem takeWhile_digits {base : Nat} (hbase : base ≤ 10) {digits rest : Bytes}
    (h : ∀ c ∈ digits, digitValue c < base) (hrest : NoDigit rest) :
    (digits ++ rest).takeWhile (digitValue · < base) = digits ∧
      (digits ++ rest).dropWhile (digitValue · < base) = rest := by
  have hall : ∀ c ∈ digits, decide (digitValue c < base) = true := fun c hc =>
    decide_eq_true (h c hc)
  rw [List.takeWhile_append_of_pos hall, List.dropWhile_append_of_pos hall]
  cases rest with
  | nil => exact ⟨List.append_nil _, rfl⟩
  | cons c rest =>
    have hc : ¬ decide (digitValue c < base) = true :=
      fun hlt => digitValue_lt hbase (hrest c rfl) (of_decide_eq_true hlt)
    rw [List.takeWhile_cons, if_neg hc, List.dropWhile_cons, if_neg hc]
    exact ⟨List.append_nil _, rfl⟩

/-- A zero alone is octal, other digits without a zero in front are decimal. -/
theorem radix_digits {c : UInt8} {tail rest : Bytes} (hzero : c = 0x30 → tail = [])
    (hletter : ∀ d ∈ rest.head?, ¬ isalpha d = true) :
    radix (c :: (tail ++ rest)) = (if c = 0x30 then 8 else 10, c :: (tail ++ rest)) := by
  unfold radix
  split
  · rename_i x d more heq
    obtain ⟨rfl, hmore⟩ := List.cons.inj heq
    rw [hzero rfl, List.nil_append] at hmore ⊢
    subst hmore
    refine if_neg fun hx => ?_
    rcases hx.1 with rfl | rfl
    · exact hletter _ rfl (by decide)
    · exact hletter _ rfl (by decide)
  · rename_i heq
    obtain ⟨rfl, hmore⟩ := List.cons.inj heq
    rw [hmore]
    rfl
  · rename_i hno
    rw [if_neg fun hc => hno _ (by rw [hc])]

/-- **A decimal number is read as one**: no zero in front makes it octal, and
no letter behind it hexadecimal. -/
theorem takeNumber_digits {digits rest : Bytes} (hne : digits ≠ [])
    (h : ∀ c ∈ digits, isdigit c = true)
    (hzero : 1 < digits.length → digits.head? ≠ some 0x30) (hrest : NoDigit rest)
    (hletter : ∀ c ∈ rest.head?, ¬ isalpha c = true) :
    takeNumber (digits ++ rest) =
      if decimalValue digits < 2 ^ 32 then some (decimalValue digits, rest) else none := by
  obtain ⟨c, tail, rfl⟩ := List.exists_cons_of_ne_nil hne
  have hc := h c List.mem_cons_self
  have hoctal : c = 0x30 → tail = [] := by
    rintro rfl
    by_contra htail
    have hpos := List.length_pos_iff.mpr htail
    exact hzero (by rw [List.length_cons]; omega) rfl
  have hread : ∀ base ≤ 10, (∀ d ∈ c :: tail, digitValue d < base) →
      radix (c :: (tail ++ rest)) = (base, c :: (tail ++ rest)) →
      takeNumber (c :: (tail ++ rest)) =
        if (c :: tail).foldl (fun v d => v * base + digitValue d) 0 < 2 ^ 32 then
          some ((c :: tail).foldl (fun v d => v * base + digitValue d) 0, rest) else none := by
    intro base hbase hall hradix
    obtain ⟨htake, hdrop⟩ := takeWhile_digits hbase hall hrest
    rw [List.cons_append] at htake hdrop
    unfold takeNumber
    rw [List.head?_cons, Option.any_some, if_pos hc, hradix]
    dsimp only
    rw [htake, hdrop]
  rw [List.cons_append]
  have hradix := radix_digits hoctal hletter
  by_cases hcase : c = 0x30
  · obtain rfl := hoctal hcase
    subst hcase
    have hoctets : [(0x30 : UInt8)].foldl (fun v d => v * 8 + digitValue d) 0 =
        decimalValue [0x30] := by decide
    have hvalue : digitValue 0x30 < 8 := by decide
    rw [hread 8 (by decide) (List.forall_mem_singleton.mpr hvalue) hradix, hoctets]
  · rw [if_neg hcase] at hradix
    rw [hread 10 (Nat.le_refl _) (fun d hd => (digitValue_of_isdigit (h d hd)).2) hradix,
      foldl_digitValue h, decimalValue]

theorem takeNumber_noDigit {cp : Bytes} (h : NoDigit cp) : takeNumber cp = none := by
  unfold takeNumber
  refine if_neg ?_
  rw [Option.any_eq_true]
  rintro ⟨c, hc, hdigit⟩
  exact h c hc hdigit

/-! ## How the text goes on -/

section Read
variable {white : UInt8 → Bool} {dots val : Nat} {octets cp rest : Bytes}

theorem inetAtonFrom_none (h : takeNumber cp = none) :
    inetAtonFrom white dots octets cp = none := by
  cases dots with
  | zero => rw [inetAtonFrom, h, Option.bind_none]
  | succ dots => rw [inetAtonFrom, h]

theorem inetAtonFrom_dot (h : takeNumber cp = some (val, 0x2E :: rest)) (hval : val ≤ 255) :
    inetAtonFrom white (dots + 1) octets cp =
      inetAtonFrom white dots (octets ++ [UInt8.ofNat val]) rest := by
  rw [inetAtonFrom, h]
  exact if_pos hval

theorem inetAtonFrom_last (h : takeNumber cp = some (val, rest))
    (hdot : dots = 0 ∨ rest.head? ≠ some 0x2E) :
    inetAtonFrom white dots octets cp = lastNumber white octets val rest := by
  cases dots with
  | zero => rw [inetAtonFrom, h, Option.bind_some]
  | succ dots =>
    have hnone := hdot.resolve_left (Nat.succ_ne_zero dots)
    rw [inetAtonFrom, h]
    split
    · rename_i heq
      cases heq
    · rename_i heq
      cases heq
      exact absurd rfl hnone
    · rename_i heq
      cases heq
      rfl

theorem toBe_small (k : Nat) (hval : val ≤ 255) :
    toBe (k + 1) val = List.replicate k 0 ++ [UInt8.ofNat val] := by
  have hzeros : ∀ k, toBe k 0 = List.replicate k 0 := by
    intro k
    induction k with
    | zero => rfl
    | succ k ih => rw [toBe, Nat.zero_div, ih, List.replicate_succ']; rfl
  rw [toBe, Nat.div_eq_of_lt (by omega), hzeros]

/-- A small last number, behind zeros for the octets that were left out. -/
theorem lastNumber_ends (hlength : octets.length + dots = 3) (hval : val ≤ 255)
    (hends : endsText white cp = true) : ∃ a, lastNumber white octets val cp = some a ∧
      a.octets = octets ++ (List.replicate dots 0 ++ [UInt8.ofNat val]) := by
  have hleft : 4 - octets.length = dots + 1 := by omega
  have hfit : val < 256 ^ (dots + 1) :=
    Nat.lt_of_lt_of_le (by omega) (Nat.le_self_pow (Nat.succ_ne_zero dots) 256)
  have hfour : (octets ++ (List.replicate dots 0 ++ [UInt8.ofNat val])).length = 4 := by
    rw [List.length_append, List.length_append, List.length_replicate, List.length_singleton]
    omega
  refine ⟨⟨_, hfour⟩, ?_, rfl⟩
  rw [lastNumber, hleft, if_pos ⟨hends, hfit⟩, toBe_small dots hval, InAddr.ofOctets, dif_pos hfour]

theorem lastNumber_not_ends (hends : ¬ endsText white cp = true) :
    lastNumber white octets val cp = none :=
  if_neg fun h => hends h.1

end Read

theorem not_mem_splitOn {sep : UInt8} {s part : Bytes} (h : part ∈ s.splitOn sep) : sep ∉ part := by
  induction s generalizing part with
  | nil =>
    rw [List.splitOn_nil, List.mem_singleton] at h
    rw [h]
    exact List.not_mem_nil
  | cons c s ih =>
    rw [List.splitOn_cons_eq_if_modifyHead] at h
    obtain ⟨first, parts, hparts⟩ := List.exists_cons_of_ne_nil (List.splitOn_ne_nil sep s)
    split at h
    · rcases List.mem_cons.mp h with rfl | h
      · exact List.not_mem_nil
      · exact ih h
    · rename_i hc
      rw [hparts] at h ih
      rcases List.mem_cons.mp h with rfl | h
      · intro hmem
        rcases List.mem_cons.mp hmem with rfl | hmem
        · exact hc (beq_self_eq_true _)
        · exact ih List.mem_cons_self hmem
      · exact ih (List.mem_cons_of_mem _ h)

end Ttp2.Lib.Inet
