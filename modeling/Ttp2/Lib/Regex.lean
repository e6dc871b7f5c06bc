import Mathlib.Computability.RegularExpressions

/-! # Operators of regular expressions

The operators programs write, over those of Mathlib: a class of characters,
`?` and `+`, each with the words it matches. -/
namespace Ttp2.Lib.Regex
open RegularExpression Computability

universe u
variable {α : Type u}

/-- A character class. -/
def oneOf (cs : List α) : RegularExpression α := cs.foldr (fun c P => char c + P) 0

/-- `P?` -/
def zeroOrOne (P : RegularExpression α) : RegularExpression α := 1 + P

/-- `P+` -/
def oneOrMore (P : RegularExpression α) : RegularExpression α := P * P.star

variable {P : RegularExpression α} {cs w : List α}

theorem mem_oneOf : w ∈ (oneOf cs).matches' ↔ ∃ c ∈ cs, w = [c] := by
  induction cs with
  | nil =>
    refine ⟨fun h => absurd h (Language.notMem_zero w), ?_⟩
    rintro ⟨c, hc, -⟩
    cases hc
  | cons c cs ih =>
    rw [oneOf, List.foldr_cons, matches'_add, Language.mem_add, ← oneOf, ih]
    simp only [List.mem_cons, exists_eq_or_imp]
    exact or_congr_left Iff.rfl

theorem mem_zeroOrOne : w ∈ (zeroOrOne P).matches' ↔ w = [] ∨ w ∈ P.matches' := by
  rw [zeroOrOne, matches'_add, Language.mem_add, matches'_epsilon, Language.mem_one]

/-- Any row of characters of the class. -/
theorem mem_star_oneOf : w ∈ (oneOf cs).star.matches' ↔ ∀ c ∈ w, c ∈ cs := by
  rw [matches'_star, Language.mem_kstar]
  constructor
  · rintro ⟨words, rfl, hwords⟩ c hc
    obtain ⟨word, hword, hc⟩ := List.mem_flatten.mp hc
    obtain ⟨d, hd, rfl⟩ := mem_oneOf.mp (hwords word hword)
    rwa [List.mem_singleton.mp hc]
  · intro h
    refine ⟨w.map fun c => [c], (List.flatMap_singleton' w).symm, fun word hword => ?_⟩
    obtain ⟨c, hc, rfl⟩ := List.mem_map.mp hword
    exact mem_oneOf.mpr ⟨c, h c hc, rfl⟩

/-- Any row but the empty one. -/
theorem mem_oneOrMore_oneOf :
    w ∈ (oneOrMore (oneOf cs)).matches' ↔ w ≠ [] ∧ ∀ c ∈ w, c ∈ cs := by
  rw [oneOrMore, matches'_mul, Language.mem_mul]
  constructor
  · rintro ⟨a, ha, b, hb, rfl⟩
    obtain ⟨c, hc, rfl⟩ := mem_oneOf.mp ha
    refine ⟨List.cons_ne_nil _ _, fun d hd => ?_⟩
    rcases List.mem_cons.mp hd with rfl | hd
    · exact hc
    · exact mem_star_oneOf.mp hb d hd
  · rintro ⟨hne, h⟩
    obtain ⟨c, rest, rfl⟩ := List.exists_cons_of_ne_nil hne
    exact ⟨[c], mem_oneOf.mpr ⟨c, h c List.mem_cons_self, rfl⟩, rest,
      mem_star_oneOf.mpr fun d hd => h d (List.mem_cons_of_mem _ hd), rfl⟩

end Ttp2.Lib.Regex
