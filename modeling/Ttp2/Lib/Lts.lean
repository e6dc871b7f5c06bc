import Mathlib.Logic.Basic

/-! # Runs of a labelled transition function

A system is a function `step : σ → ℓ → Option σ`: the label names who moves
and what the environment answers, `none` says the label is not enabled. A
run is a list of labels. Conditions on a run are conditions on the state
before each of its steps (`Along`), properties of a run are properties of
every state it visits (`Throughout`). -/
namespace Ttp2.Lib.Lts

universe u v
variable {σ : Type u} {ℓ : Type v}

/-- The state a list of labels leads to. -/
def run (step : σ → ℓ → Option σ) : σ → List ℓ → Option σ
  | s, [] => some s
  | s, l :: ls => (step s l).bind fun t => run step t ls

/-- Every step of the run meets `ok`, read in the state before the step. -/
def Along (step : σ → ℓ → Option σ) (ok : σ → ℓ → Prop) : σ → List ℓ → Prop
  | _, [] => True
  | s, l :: ls => ok s l ∧ match step s l with
    | none => True
    | some t => Along step ok t ls

/-- Every state the run visits, its first and its last included, meets `P`. -/
def Throughout (step : σ → ℓ → Option σ) (P : σ → Prop) : σ → List ℓ → Prop
  | s, [] => P s
  | s, l :: ls => P s ∧ match step s l with
    | none => True
    | some t => Throughout step P t ls

instance Along.decidable (step : σ → ℓ → Option σ) (ok : σ → ℓ → Prop)
    [∀ s l, Decidable (ok s l)] : ∀ s ls, Decidable (Along step ok s ls)
  | _, [] => isTrue trivial
  | s, l :: ls =>
    match h : step s l with
    | none => decidable_of_iff (ok s l) (by simp [Along, h])
    | some t =>
      letI := Along.decidable step ok t ls
      decidable_of_iff (ok s l ∧ Along step ok t ls) (by simp [Along, h])

variable {step : σ → ℓ → Option σ}

theorem run_cons {s t : σ} {l : ℓ} {ls : List ℓ} :
    run step s (l :: ls) = some t ↔ ∃ m, step s l = some m ∧ run step m ls = some t := by
  simp only [run, Option.bind_eq_some_iff]

theorem run_append {s t : σ} {ls ks : List ℓ} (h : run step s ls = some t) :
    run step s (ls ++ ks) = run step t ks := by
  induction ls generalizing s with
  | nil =>
    cases h
    rfl
  | cons l ls ih =>
    obtain ⟨m, hm, h⟩ := run_cons.mp h
    rw [List.cons_append, run, hm, Option.bind_some, ih h]

theorem Along.head {ok : σ → ℓ → Prop} {s : σ} {l : ℓ} {ls : List ℓ}
    (h : Along step ok s (l :: ls)) : ok s l := h.1

theorem Along.tail {ok : σ → ℓ → Prop} {s t : σ} {l : ℓ} {ls : List ℓ}
    (h : Along step ok s (l :: ls)) (hs : step s l = some t) : Along step ok t ls := by
  have h2 := h.2
  rwa [hs] at h2

theorem Along.and {ok ok' : σ → ℓ → Prop} {s : σ} {ls : List ℓ} (h : Along step ok s ls)
    (h' : Along step ok' s ls) : Along step (fun s l => ok s l ∧ ok' s l) s ls := by
  induction ls generalizing s with
  | nil => trivial
  | cons l ls ih =>
    refine ⟨⟨h.head, h'.head⟩, ?_⟩
    cases hs : step s l with
    | none => trivial
    | some t => exact ih (h.tail hs) (h'.tail hs)

/-- No condition is needed on a run whose condition always holds. -/
theorem Along.of_forall {ok : σ → ℓ → Prop} (all : ∀ s l, ok s l) (s : σ) (ls : List ℓ) :
    Along step ok s ls := by
  induction ls generalizing s with
  | nil => trivial
  | cons l ls ih =>
    refine ⟨all s l, ?_⟩
    cases step s l with
    | none => trivial
    | some t => exact ih t

/-! ## Invariants -/

theorem Throughout.last {P : σ → Prop} {s t : σ} {ls : List ℓ}
    (h : Throughout step P s ls) (hr : run step s ls = some t) : P t := by
  induction ls generalizing s with
  | nil => cases hr; exact h
  | cons l ls ih =>
    obtain ⟨m, hm, hr⟩ := run_cons.mp hr
    have h2 := h.2
    rw [hm] at h2
    exact ih h2 hr

/-- What every step that meets `ok` preserves holds in every state of a run of
such steps, and so does what it implies. -/
theorem Along.throughout {ok : σ → ℓ → Prop} {I P : σ → Prop} (implies : ∀ {s}, I s → P s)
    (pres : ∀ {s l t}, I s → ok s l → step s l = some t → I t) {s : σ} {ls : List ℓ}
    (h0 : I s) (ha : Along step ok s ls) : Throughout step P s ls := by
  induction ls generalizing s with
  | nil => exact implies h0
  | cons l ls ih =>
    refine ⟨implies h0, ?_⟩
    cases hs : step s l with
    | none => trivial
    | some t => exact ih (pres h0 ha.head hs) (ha.tail hs)

/-- **When a condition on the steps is exactly what a property needs.** The
run is one of an environment that meets `env`. The invariant `I` holds at the
start, survives every step that meets `ok`, and implies `P`; a step that
misses `ok` leads to a state without `P`. Then `P` holds in every state of the
run exactly when all its steps meet `ok`. -/
theorem throughout_iff_along {env ok : σ → ℓ → Prop} {I P : σ → Prop}
    (implies : ∀ {s}, I s → P s)
    (pres : ∀ {s l t}, I s → env s l → ok s l → step s l = some t → I t)
    (breaks : ∀ {s l t}, I s → env s l → ¬ ok s l → step s l = some t → ¬ P t)
    {s t : σ} {ls : List ℓ} (h0 : I s) (he : Along step env s ls) (hr : run step s ls = some t) :
    Throughout step P s ls ↔ Along step ok s ls := by
  induction ls generalizing s with
  | nil => exact ⟨fun _ => trivial, fun _ => implies h0⟩
  | cons l ls ih =>
    obtain ⟨m, hm, hr⟩ := run_cons.mp hr
    have henv := he.head
    have he := he.tail hm
    simp only [Throughout, Along, hm]
    by_cases hok : ok s l
    · have ih := ih (pres h0 henv hok hm) he hr
      exact ⟨fun h => ⟨hok, ih.mp h.2⟩, fun h => ⟨implies h0, ih.mpr h.2⟩⟩
    · have hbad := breaks h0 henv hok hm
      have hfirst : Throughout step P m ls → P m := by
        intro h
        cases ls with
        | nil => exact h
        | cons k ks => exact h.1
      exact ⟨fun h => absurd (hfirst h.2) hbad, fun h => absurd h.1 hok⟩

/-- **When a condition is met by every step of a run that ends well.** The run
is one of an environment that meets `env`. A step that misses `ok` leads to
`D`, and no step leads out of `D` again; then a run that does not end in `D`
meets `ok` all along. -/
theorem along_of_last {env ok : σ → ℓ → Prop} {I D : σ → Prop}
    (pres : ∀ {s l t}, I s → env s l → step s l = some t → I t)
    (dooms : ∀ {s l t}, I s → env s l → ¬ ok s l → step s l = some t → D t)
    (stays : ∀ {s l t}, D s → env s l → step s l = some t → D t)
    {s t : σ} {ls : List ℓ} (h0 : I s) (he : Along step env s ls) (hr : run step s ls = some t)
    (hlast : ¬ D t) : Along step ok s ls := by
  have hend : ∀ {ls s}, D s → Along step env s ls → run step s ls = some t → D t := by
    intro ls
    induction ls with
    | nil =>
      intro s hs _ hr
      cases hr
      exact hs
    | cons l ls ih =>
      intro s hs he hr
      obtain ⟨m, hm, hr⟩ := run_cons.mp hr
      exact ih (stays hs he.head hm) (he.tail hm) hr
  induction ls generalizing s with
  | nil => trivial
  | cons l ls ih =>
    obtain ⟨m, hm, hr⟩ := run_cons.mp hr
    refine ⟨?_, ?_⟩
    · refine Classical.byContradiction fun hbad => ?_
      exact hlast (hend (dooms h0 he.head hbad hm) (he.tail hm) hr)
    · rw [hm]
      exact ih (pres h0 he.head hm) (he.tail hm) hr

/-- A condition that follows from another one and an invariant is met all along. -/
theorem Along.of_invariant {ok ok' : σ → ℓ → Prop} {I : σ → Prop}
    (pres : ∀ {s l t}, I s → ok s l → step s l = some t → I t)
    (implies : ∀ {s l t}, I s → ok s l → step s l = some t → ok' s l)
    {s t : σ} {ls : List ℓ} (h0 : I s) (ha : Along step ok s ls) (hr : run step s ls = some t) :
    Along step ok' s ls := by
  induction ls generalizing s with
  | nil => trivial
  | cons l ls ih =>
    obtain ⟨m, hm, hr⟩ := run_cons.mp hr
    refine ⟨implies h0 ha.head hm, ?_⟩
    rw [hm]
    exact ih (pres h0 ha.head hm) (ha.tail hm) hr

end Ttp2.Lib.Lts
