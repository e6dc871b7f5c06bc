import Mathlib.Algebra.BigOperators.Fin
import Mathlib.Algebra.BigOperators.Group.Finset.Piecewise

/-! # Threads and their places

A family of threads, each at a place of its program, one of them moving at a
time. A weight on places adds up over the threads; a move changes the sum by
the weights of the two places. -/
namespace Ttp2.Lib.Threads

variable {τ π : Type} [Fintype τ]

/-- The weights of the threads' places, added up. -/
def total (weight : π → Nat) (place : τ → π) : Nat := ∑ t, weight (place t)

theorem total_eq_zero {weight : π → Nat} {place : τ → π} (h : ∀ t, weight (place t) = 0) :
    total weight place = 0 :=
  Finset.sum_eq_zero fun t _ => h t

/-- **One thread moves.** -/
theorem total_update [DecidableEq τ] (weight : π → Nat) (place : τ → π) (t : τ) (p : π) :
    total weight (Function.update place t p) + weight (place t) =
      total weight place + weight p := by
  have hcomp : (fun u => weight (Function.update place t p u)) =
      Function.update (fun u => weight (place u)) t (weight p) := by
    funext u
    by_cases hu : u = t
    · subst hu
      rw [Function.update_self, Function.update_self]
    · rw [Function.update_of_ne hu, Function.update_of_ne hu]
  have hbefore := Finset.add_sum_erase Finset.univ (fun u => weight (place u)) (Finset.mem_univ t)
  have hafter : ∑ u, weight (Function.update place t p u) =
      weight p + ∑ u ∈ Finset.univ.erase t, weight (place u) := by
    rw [hcomp, Finset.sum_update_of_mem (Finset.mem_univ t), Finset.sdiff_singleton_eq_erase]
  unfold total
  rw [hafter]
  omega

end Ttp2.Lib.Threads
