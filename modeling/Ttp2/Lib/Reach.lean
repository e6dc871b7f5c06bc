import Ttp2.Lib.Lts
import Mathlib.Logic.Relation

/-! # What a system can still reach

`Reaches step ok s t`: some steps that meet `ok` lead from `s` to `t`. A goal
is reached from every state of an invariant if from each that misses the goal
a state of lower rank is (`Reaches.of_rank`); a part of a system reaches in
the whole what it reaches alone (`Reaches.lift`). -/
namespace Ttp2.Lib.Reach
open Lts Relation

universe u v w x
variable {σ : Type u} {ℓ : Type v} {step : σ → ℓ → Option σ} {ok : σ → ℓ → Prop} {s t : σ}

/-- Some steps that meet `ok`. -/
def Reaches (step : σ → ℓ → Option σ) (ok : σ → ℓ → Prop) : σ → σ → Prop :=
  ReflTransGen fun s t => ∃ l, ok s l ∧ step s l = some t

theorem Reaches.refl (s : σ) : Reaches step ok s s := ReflTransGen.refl

theorem Reaches.single {l : ℓ} (hok : ok s l) (hs : step s l = some t) : Reaches step ok s t :=
  ReflTransGen.single ⟨l, hok, hs⟩

theorem Reaches.trans {m : σ} (h : Reaches step ok s m) (h' : Reaches step ok m t) :
    Reaches step ok s t :=
  ReflTransGen.trans h h'

/-- What every such step preserves. -/
theorem Reaches.invariant {I : σ → Prop} (pres : ∀ {s l t}, I s → ok s l → step s l = some t → I t)
    (h : Reaches step ok s t) (hs : I s) : I t := by
  induction h with
  | refl => exact hs
  | tail _ hstep ih =>
    obtain ⟨l, hok, hstep⟩ := hstep
    exact pres ih hok hstep

/-- **Progress towards a goal.** -/
theorem Reaches.of_rank {I Goal : σ → Prop} (rank : σ → Nat)
    (progress : ∀ s, I s → ¬ Goal s → ∃ t, Reaches step ok s t ∧ I t ∧ rank t < rank s)
    (s : σ) (hs : I s) : ∃ t, Reaches step ok s t ∧ I t ∧ Goal t := by
  induction hrank : rank s using Nat.strongRecOn generalizing s with
  | ind n ih =>
    by_cases hgoal : Goal s
    · exact ⟨s, .refl s, hs, hgoal⟩
    · obtain ⟨m, hm, hI, hlt⟩ := progress s hs hgoal
      obtain ⟨t, ht, hI, hgoal⟩ := ih (rank m) (hrank ▸ hlt) m hI rfl
      exact ⟨t, hm.trans ht, hI, hgoal⟩

/-- A part moves in the whole. -/
theorem Reaches.lift {τ : Type w} {m : Type x} {step' : τ → m → Option τ} {ok' : τ → m → Prop}
    (whole : σ → τ) (label : ℓ → m)
    (h : ∀ {s l t}, ok s l → step s l = some t →
      ok' (whole s) (label l) ∧ step' (whole s) (label l) = some (whole t))
    (hst : Reaches step ok s t) : Reaches step' ok' (whole s) (whole t) := by
  induction hst with
  | refl => exact .refl _
  | tail _ hstep ih =>
    obtain ⟨l, hok, hs⟩ := hstep
    exact ih.tail ⟨label l, h hok hs⟩

theorem Reaches.mono {ok' : σ → ℓ → Prop} (h : ∀ {s l}, ok s l → ok' s l)
    (hst : Reaches step ok s t) : Reaches step ok' s t :=
  hst.lift id id fun hok hs => ⟨h hok, hs⟩

/-- The steps are a run. -/
theorem reaches_iff : Reaches step ok s t ↔ ∃ ls, run step s ls = some t ∧ Along step ok s ls := by
  constructor
  · intro h
    induction h using ReflTransGen.head_induction_on with
    | refl => exact ⟨[], rfl, trivial⟩
    | head hstep _ ih =>
      obtain ⟨l, hok, hstep⟩ := hstep
      obtain ⟨ls, hrun, halong⟩ := ih
      refine ⟨l :: ls, run_cons.mpr ⟨_, hstep, hrun⟩, hok, ?_⟩
      rw [hstep]
      exact halong
  · rintro ⟨ls, hrun, halong⟩
    induction ls generalizing s with
    | nil =>
      cases hrun
      exact .refl _
    | cons l ls ih =>
      obtain ⟨m, hm, hrun⟩ := run_cons.mp hrun
      exact (Reaches.single halong.head hm).trans (ih hrun (halong.tail hm))

theorem reachable_iff : (∃ ls, run step s ls = some t) ↔ Reaches step (fun _ _ => True) s t := by
  rw [reaches_iff]
  exact exists_congr fun ls =>
    (and_iff_left (Along.of_forall (fun _ _ => trivial) s ls)).symm

end Ttp2.Lib.Reach
