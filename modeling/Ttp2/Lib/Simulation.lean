import Ttp2.Lib.Lts

/-! # Forward simulations

A step of a system shows an event or none; the events of a run are its trace.
An abstract system is a relation on its states with the event a step shows.
If every step of the concrete system is answered by abstract steps that show
the same event, every trace of it is one of the abstract system. -/
namespace Ttp2.Lib.Simulation
open Lts

universe u v w x
variable {σ : Type u} {ℓ : Type v} {α : Type w} {ε : Type x}

/-- What a run shows. -/
def trace (step : σ → ℓ → Option σ) (event : σ → ℓ → σ → Option ε) : σ → List ℓ → List ε
  | _, [] => []
  | s, l :: ls =>
    match step s l with
    | none => []
    | some t => (event s l t).toList ++ trace step event t ls

/-- The abstract system goes from one state to the other and shows these events. -/
inductive Traces (Step : α → Option ε → α → Prop) : α → List ε → α → Prop where
  | nil (a : α) : Traces Step a [] a
  | cons {a b c : α} {e : Option ε} {es : List ε} (hstep : Step a e b) (hrest : Traces Step b es c) :
      Traces Step a (e.toList ++ es) c

variable {Step : α → Option ε → α → Prop} {a b c : α}

theorem Traces.single {e : Option ε} (h : Step a e b) : Traces Step a e.toList b := by
  have htrace := Traces.cons h (.nil b)
  rwa [List.append_nil] at htrace

theorem Traces.append {es fs : List ε} (h : Traces Step a es b) (h' : Traces Step b fs c) :
    Traces Step a (es ++ fs) c := by
  induction h with
  | nil => exact h'
  | cons hstep hrest ih =>
    rw [List.append_assoc]
    exact .cons hstep (ih h')

/-- What every abstract step preserves, every abstract run does. -/
theorem Traces.invariant {I : α → Prop} (pres : ∀ {a e b}, I a → Step a e b → I b) {es : List ε}
    (h : Traces Step a es b) (ha : I a) : I b := by
  induction h with
  | nil => exact ha
  | cons hstep hrest ih => exact ih (pres ha hstep)

/-- Steps that meet `env`, from states related by `R`, are answered. -/
def Simulates (step : σ → ℓ → Option σ) (event : σ → ℓ → σ → Option ε) (env : σ → ℓ → Prop)
    (Step : α → Option ε → α → Prop) (R : σ → α → Prop) : Prop :=
  ∀ ⦃s l t a⦄, R s a → env s l → step s l = some t →
    ∃ b, Traces Step a (event s l t).toList b ∧ R t b

/-- **Every trace is one of the abstract system.** -/
theorem Simulates.traces {step : σ → ℓ → Option σ} {event : σ → ℓ → σ → Option ε}
    {env : σ → ℓ → Prop} {R : σ → α → Prop} (h : Simulates step event env Step R) {s t : σ}
    {ls : List ℓ} (hR : R s a) (henv : Along step env s ls) (hrun : run step s ls = some t) :
    ∃ b, Traces Step a (trace step event s ls) b ∧ R t b := by
  induction ls generalizing s a with
  | nil =>
    cases hrun
    exact ⟨a, .nil a, hR⟩
  | cons l ls ih =>
    obtain ⟨m, hm, hrun⟩ := run_cons.mp hrun
    obtain ⟨b, hab, hb⟩ := h hR henv.head hm
    obtain ⟨c, hbc, hc⟩ := ih hb (henv.tail hm) hrun
    refine ⟨c, ?_, hc⟩
    simp only [trace, hm]
    exact hab.append hbc

end Ttp2.Lib.Simulation
