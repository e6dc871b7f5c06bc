import Mathlib.Logic.Relation
import Mathlib.Order.Defs.PartialOrder

/-! # Locks taken in order

Threads hold locks and wait for locks. If every lock a thread holds ranks
below the one it waits for, no thread is blocked by a cycle of waits. -/
namespace Ttp2.Lib.LockOrder
open Relation

variable {τ μ ρ : Type} {owner : μ → Option τ} {wants : τ → Option μ}

/-- The thread `t` waits for a lock that `u` holds; `u` may be `t` itself. -/
def WaitsFor (owner : μ → Option τ) (wants : τ → Option μ) (t u : τ) : Prop :=
  ∃ m, wants t = some m ∧ owner m = some u

/-- What `t` waits for leads to a cycle of threads that wait for each other. -/
def BlockedByCycle (owner : μ → Option τ) (wants : τ → Option μ) (t : τ) : Prop :=
  ∃ u, ReflTransGen (WaitsFor owner wants) t u ∧ TransGen (WaitsFor owner wants) u u

/-- Every lock a thread holds ranks below the lock it waits for. -/
def Ordered [LT ρ] (rank : μ → ρ) (owner : μ → Option τ) (wants : τ → Option μ) : Prop :=
  ∀ t m m', owner m = some t → wants t = some m' → rank m < rank m'

/-- Along the waits, the locks waited for rise. -/
theorem Ordered.rank_lt [Preorder ρ] {rank : μ → ρ} (h : Ordered rank owner wants) {t u : τ}
    (hwaits : TransGen (WaitsFor owner wants) t u) {m m' : μ} (ht : wants t = some m)
    (hu : wants u = some m') : rank m < rank m' := by
  induction hwaits generalizing m' with
  | single hstep =>
    obtain ⟨k, hk, howner⟩ := hstep
    cases ht.symm.trans hk
    exact h _ _ _ howner hu
  | tail _ hstep ih =>
    obtain ⟨k, hk, howner⟩ := hstep
    exact lt_trans (ih hk) (h _ _ _ howner hu)

/-- **Locks taken in order** block nobody by a cycle. -/
theorem Ordered.not_blockedByCycle [Preorder ρ] {rank : μ → ρ} (h : Ordered rank owner wants)
    (t : τ) : ¬ BlockedByCycle owner wants t := by
  rintro ⟨u, -, hcycle⟩
  obtain ⟨v, ⟨m, hm, -⟩, -⟩ := TransGen.head'_iff.mp hcycle
  exact lt_irrefl _ (h.rank_lt hcycle hm hm)

/-- A thread that waits for a lock it holds is blocked by a cycle. -/
theorem blockedByCycle_self {t : τ} {m : μ} (hwants : wants t = some m) (howner : owner m = some t) :
    BlockedByCycle owner wants t :=
  ⟨t, .refl, .single ⟨m, hwants, howner⟩⟩

end Ttp2.Lib.LockOrder
