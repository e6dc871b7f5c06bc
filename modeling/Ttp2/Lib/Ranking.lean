import Ttp2.Lib.Lts

/-! # Ranking functions

One party of a system makes steps of its own among those of others. If each
of its steps lowers a rank and no other step raises it, the party makes at
most as many steps as the rank says, in whatever order the others interfere.
Steps `within` a condition are those of a run that has not left it yet. -/
namespace Ttp2.Lib.Ranking
open Lts

universe u v
variable {σ : Type u} {ℓ : Type v}

/-- From states that meet `I`, which every step keeps, `own` steps lower the
rank and no step raises it. -/
structure Ranks (step : σ → ℓ → Option σ) (I : σ → Prop) (own : ℓ → Bool) (rank : σ → Nat) :
    Prop where
  keeps {s t : σ} {l : ℓ} : I s → step s l = some t → I t
  lowers {s t : σ} {l : ℓ} : I s → own l = true → step s l = some t → rank t < rank s
  others {s t : σ} {l : ℓ} : I s → own l = false → step s l = some t → rank t ≤ rank s

variable {step : σ → ℓ → Option σ} {I : σ → Prop} {own : ℓ → Bool} {rank : σ → Nat} {s t : σ}
  {ls : List ℓ}

/-- The rank is of a component that only `own` steps change. -/
theorem Ranks.of_step {ρ : Type} {π : σ → ρ} {r : ρ → Nat}
    (keeps : ∀ {s l t}, I s → step s l = some t → I t)
    (h : ∀ {s l t}, I s → step s l = some t →
      if own l then r (π t) < r (π s) else π t = π s) :
    Ranks step I own (fun s => r (π s)) where
  keeps := keeps
  lowers hs hown hstep := by
    have hlt := h hs hstep
    rwa [if_pos hown] at hlt
  others hs hown hstep := by
    have heq := h hs hstep
    rw [if_neg (by rw [hown]; exact Bool.false_ne_true)] at heq
    exact Nat.le_of_eq (congrArg r heq)

/-- A rank that no step raises. -/
theorem Ranks.of_le (keeps : ∀ {s l t}, I s → step s l = some t → I t)
    (h : ∀ {s l t}, I s → step s l = some t → rank t ≤ rank s) :
    Ranks step I (fun _ => false) rank where
  keeps := keeps
  lowers _ hown _ := nomatch hown
  others hs _ := h hs

theorem Ranks.invariant (h : Ranks step I own rank) (hs : I s) (hrun : run step s ls = some t) :
    I t := by
  induction ls generalizing s with
  | nil =>
    cases hrun
    exact hs
  | cons l ls ih =>
    obtain ⟨m, hm, hrun⟩ := run_cons.mp hrun
    exact ih (h.keeps hs hm) hrun

/-- **No more own steps than the rank**, and what is left of it bounds the rest. -/
theorem Ranks.count (h : Ranks step I own rank) (hs : I s) (hrun : run step s ls = some t) :
    ls.countP own + rank t ≤ rank s := by
  induction ls generalizing s with
  | nil =>
    cases hrun
    exact Nat.le_of_eq (Nat.zero_add _)
  | cons l ls ih =>
    obtain ⟨m, hm, hrun⟩ := run_cons.mp hrun
    have ih := ih (h.keeps hs hm) hrun
    cases hown : own l with
    | true =>
      have hlt := h.lowers hs hown hm
      rw [List.countP_cons_of_pos hown]
      omega
    | false =>
      have hle := h.others hs hown hm
      rw [List.countP_cons_of_neg (by rw [hown]; exact Bool.false_ne_true)]
      omega

section Within
variable {P : σ → Prop} [DecidablePred P]

/-- The steps that lead to a state with `P`. -/
def within (step : σ → ℓ → Option σ) (P : σ → Prop) [DecidablePred P] (s : σ) (l : ℓ) : Option σ :=
  (step s l).filter fun t => decide (P t)

theorem within_eq_some {l : ℓ} : within step P s l = some t ↔ step s l = some t ∧ P t := by
  rw [within, Option.filter_eq_some_iff, decide_eq_true_iff]

/-- A run along which `P` lasts. -/
theorem run_within (h : Throughout step P s ls) (hrun : run step s ls = some t) :
    run (within step P) s ls = some t := by
  induction ls generalizing s with
  | nil => exact hrun
  | cons l ls ih =>
    obtain ⟨m, hm, hrun⟩ := run_cons.mp hrun
    have hrest : Throughout step P m ls := by
      have htail := h.2
      rwa [hm] at htail
    have hfirst : P m := by
      cases ls with
      | nil => exact hrest
      | cons k ks => exact hrest.1
    exact run_cons.mpr ⟨m, within_eq_some.mpr ⟨hm, hfirst⟩, ih hrest hrun⟩

end Within

end Ttp2.Lib.Ranking
