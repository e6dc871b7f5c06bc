import Ttp2.TcpLocks

/-! # The order of the mutexes

`connectedMutex` is taken while a queue's mutex is held, in the predicates of
the send loops, and no mutex is taken while `connectedMutex` is held.
`peekRequest` alone takes a queue's mutex while it holds one: the same one,
in `getRequestQueueSize`. So no thread is blocked by a cycle exactly as long
as no call of `peekRequest` gets its lock (`none_blocked_iff`). -/
namespace Ttp2
open Lib Lts LockOrder

/-! ## Held and waited for -/

/-- A queue's mutex is taken before `connectedMutex`. -/
def Mutex.rank : Mutex → Nat
  | .queue _ => 0
  | .connected => 1

namespace LockPc
variable {T : Type} {net net' : TcpNetworking T} {p p' : LockPc T} {m : Mutex}
  {mutexes : List Mutex}

/-- In `peekRequest`, behind its own lock. -/
def InPeekRequest : LockPc T → Prop
  | .size _ (.peekRequest _) | .sizeRead _ (.peekRequest _) | .peekRequestRead _ _ => True
  | _ => False

theorem lock_holds (h : p.lock = some (m, p')) : p'.holds = p.holds ++ [m] := by
  cases p with
  | isConnected caller =>
    cases h
    cases caller <;> rfl
  | size q caller =>
    cases h
    cases caller <;> rfl
  | _ => cases h <;> rfl

/-- What is held stays held unless it is unlocked. -/
theorem run_holds (h : p.run net = some (net', mutexes, p')) {m : Mutex} (hm : m ∈ p.holds) :
    m ∈ mutexes ∨ m ∈ p'.holds := by
  cases runs_of_run h with
  | loopParks q hconn =>
    refine .inl ?_
    simpa [holds, or_comm] using hm
  | loopLeaves q hconn =>
    simpa [holds, or_comm] using hm
  | sizePeekRequest q index =>
    simpa [holds, or_comm] using hm
  | popLeaves q hready => exact .inr hm
  | peekResponseInvalid index n hinvalid => cases hm
  | peekResponseValid index n hvalid => cases hm
  | sendLoopLeaves q hready => exact .inr hm
  | sendLoopAsks q hwait => exact .inr hm
  | sendLoopPop q first net' hpop => exact .inr hm
  | _ => exact .inl hm

/-- Outside `peekRequest` a mutex is waited for only while those before it are held. -/
theorem lock_rank (hp : ¬ p.InPeekRequest) (h : p.lock = some (m, p')) {k : Mutex}
    (hk : k ∈ p.holds) : k.rank < m.rank := by
  cases p with
  | isConnected caller =>
    cases h
    cases caller with
    | predicate q =>
      cases List.mem_singleton.mp hk
      exact Nat.zero_lt_one
    | _ => cases hk
  | size q caller =>
    cases caller with
    | peekRequest index => exact absurd trivial hp
    | _ => cases hk
  | _ => cases h <;> cases hk

theorem enter_outside (c : LockCall T) : ¬ (enter c).InPeekRequest := by
  cases c <;> exact id

/-- At the lock of `peekRequest`. -/
def atPeekRequest : LockPc T → Bool
  | .peekRequest _ => true
  | _ => false

theorem atPeekRequest_iff : p.atPeekRequest = true ↔ ∃ index, p = .peekRequest index := by
  refine ⟨fun h => ?_, fun ⟨index, h⟩ => h ▸ rfl⟩
  cases p with
  | peekRequest index => exact ⟨index, rfl⟩
  | _ => cases h

theorem lock_outside (hp : ¬ p.InPeekRequest) (hat : p.atPeekRequest = false)
    (h : p.lock = some (m, p')) : ¬ p'.InPeekRequest := by
  cases p with
  | size q caller =>
    cases h
    cases caller with
    | peekRequest index => exact absurd trivial hp
    | _ => exact id
  | peekRequest index => cases hat
  | _ => cases h <;> exact id

theorem run_outside (hp : ¬ p.InPeekRequest) (h : p.run net = some (net', mutexes, p')) :
    ¬ p'.InPeekRequest := by
  cases runs_of_run h with
  | sizePeekRequest q index => exact absurd trivial hp
  | _ => exact id

end LockPc

namespace TcpLocks
variable {τ T : Type} [DecidableEq τ] {s s' : TcpLocks τ T} {l : LockLabel τ T}

/-- The mutex a thread waits for. -/
def wants (s : TcpLocks τ T) (t : τ) : Option Mutex := (s.pc t).lock.map Prod.fst

/-- **No thread is blocked on a mutex by a cycle of held mutexes.** -/
def NoneBlocked (s : TcpLocks τ T) : Prop := ∀ t, ¬ BlockedByCycle s.owner s.wants t

/-- The thread that gets a mutex is not at the lock of `peekRequest`. -/
def OutsidePeekRequest (s : TcpLocks τ T) : LockLabel τ T → Prop
  | .lock t => (s.pc t).atPeekRequest = false
  | _ => True

structure LockInvariant (s : TcpLocks τ T) : Prop where
  owner : ∀ m t, s.owner m = some t → m ∈ (s.pc t).holds
  outside : ∀ t, ¬ (s.pc t).InPeekRequest

omit [DecidableEq τ] in
theorem LockInvariant.init : LockInvariant ({} : TcpLocks τ T) where
  owner := fun _ _ h => nomatch h
  outside := fun _ => id

omit [DecidableEq τ] in
theorem LockInvariant.noneBlocked (h : LockInvariant s) : s.NoneBlocked := by
  have hordered : Ordered Mutex.rank s.owner s.wants := by
    intro t m m' howner hwants
    obtain ⟨⟨k, p⟩, hlock, rfl⟩ := Option.map_eq_some_iff.mp hwants
    exact LockPc.lock_rank (h.outside t) hlock (h.owner m t howner)
  exact hordered.not_blockedByCycle

/-- One thread moves. What it holds then was free or its own. -/
theorem LockInvariant.move (h : LockInvariant s) {t : τ} {p : LockPc T}
    (hpc : s'.pc = Function.update s.pc t p)
    (howner : ∀ m u, s'.owner m = some u → s.owner m = some u ∧ (u = t → m ∈ p.holds) ∨
      u = t ∧ m ∈ p.holds)
    (hp : ¬ p.InPeekRequest) : LockInvariant s' where
  owner := by
    intro m u hu
    rw [hpc]
    by_cases hut : u = t
    · subst hut
      rw [Function.update_self]
      rcases howner m u hu with ⟨-, hkeep⟩ | ⟨-, hnew⟩
      · exact hkeep rfl
      · exact hnew
    · rw [Function.update_of_ne hut]
      rcases howner m u hu with ⟨hold, -⟩ | ⟨heq, -⟩
      · exact h.owner m u hold
      · exact absurd heq hut
  outside := by
    intro u
    rw [hpc]
    by_cases hut : u = t
    · subst hut
      rwa [Function.update_self]
    · rw [Function.update_of_ne hut]
      exact h.outside u

/-- A thread that holds nothing moves, and still holds nothing. -/
theorem LockInvariant.goto (h : LockInvariant s) {t : τ} {p : LockPc T}
    (hnone : (s.pc t).holds = []) (hp : ¬ p.InPeekRequest) : LockInvariant (s.goto t p) := by
  refine h.move rfl (fun m u hu => .inl ⟨hu, fun hut => ?_⟩) hp
  have hm := h.owner m u hu
  rw [hut, hnone] at hm
  exact absurd hm List.not_mem_nil

theorem LockInvariant.step (h : LockInvariant s) (hok : OutsidePeekRequest s l)
    (hs : step s l = some s') : LockInvariant s' := by
  cases moves_of_step hs with
  | call t c answer hpc => exact h.goto (by rw [hpc]; rfl) (LockPc.enter_outside c)
  | lock t m p hlock hfree =>
    refine h.move rfl (fun k u hu => ?_) (LockPc.lock_outside (h.outside t) hok hlock)
    dsimp only at hu
    by_cases hk : k = m
    · subst hk
      rw [Function.update_self] at hu
      refine .inr ⟨(Option.some.inj hu).symm, ?_⟩
      rw [LockPc.lock_holds hlock]
      exact List.mem_append_right _ (List.mem_singleton_self k)
    · rw [Function.update_of_ne hk] at hu
      refine .inl ⟨hu, fun hut => ?_⟩
      rw [LockPc.lock_holds hlock]
      exact List.mem_append_left _ (hut ▸ h.owner k u hu)
  | run t net mutexes p hrun =>
    refine h.move rfl (fun m u hu => ?_) (LockPc.run_outside (h.outside t) hrun)
    simp only [unlock, TcpLocks.goto] at hu
    split at hu
    · cases hu
    · rename_i hheld
      refine .inl ⟨hu, fun hut => ?_⟩
      exact (LockPc.run_holds hrun (hut ▸ h.owner m u hu)).resolve_left hheld
  | wake t p hpc =>
    obtain ⟨q, ⟨hpc, rfl⟩ | ⟨hpc, rfl⟩⟩ := hpc
    · exact h.goto (by rw [hpc]; rfl) id
    · exact h.goto (by rw [hpc]; rfl) id

/-- **Where a cycle comes from**: in every run of any number of threads, no
state has a thread blocked by a cycle exactly if no `peekRequest` gets its lock. -/
theorem none_blocked_iff (ls : List (LockLabel τ T)) (t : TcpLocks τ T)
    (hrun : run TcpLocks.step {} ls = some t) :
    Throughout TcpLocks.step NoneBlocked {} ls ↔ Along TcpLocks.step OutsidePeekRequest {} ls := by
  have henv : Along TcpLocks.step (fun (_ : TcpLocks τ T) _ => True) {} ls :=
    .of_forall (fun _ _ => trivial) _ _
  refine throughout_iff_along (I := LockInvariant) (fun h => h.noneBlocked)
    (fun h _ hok hs => h.step hok hs) ?_ .init henv hrun
  intro s l s' _ _ hbad hs hnone
  cases moves_of_step hs with
  | lock t m p hlock hfree =>
    -- the thread has the mutex, and waits for it in `getRequestQueueSize`
    obtain ⟨index, hpc⟩ := LockPc.atPeekRequest_iff.mp (Bool.eq_true_of_not_eq_false hbad)
    rw [hpc] at hlock
    cases hlock
    refine hnone t (blockedByCycle_self (m := .queue .request) ?_ ?_)
    · show ((Function.update s.pc t _ t).lock).map Prod.fst = _
      rw [Function.update_self]
      rfl
    · simp only [Function.update_self]
  | _ => exact hbad trivial

instance (s : TcpLocks τ T) : (l : LockLabel τ T) → Decidable (OutsidePeekRequest s l)
  | .lock _ => inferInstanceAs (Decidable (_ = false))
  | .call _ _ | .run _ | .wake _ => inferInstanceAs (Decidable True)

/-- A send loop waits, is woken by a push and sends while another thread
disconnects; then a peek at an empty queue. -/
theorem none_blocked_send_loop :
    Throughout TcpLocks.step NoneBlocked ({} : TcpLocks (Fin 3) Unit)
      [.call 0 (.sendLoop .request), .lock 0, .run 0, .lock 0, .run 0,
        .call 1 (.push .request { id := 5, payload := .ls { directory := [0x2F] } }),
        .lock 0, .run 0, .lock 1, .run 1, .wake 0, .run 1, .lock 0, .run 0, .run 0,
        .call 2 .disconnect, .lock 2, .run 2, .run 0, .lock 0, .run 0,
        .call 1 (.peekResponse 0), .lock 1, .run 1, .run 1] :=
  (none_blocked_iff _ _ rfl).mpr (by decide)

/-- **`peekRequest` waits for itself**, one thread being enough. -/
theorem peek_request_blocks :
    ¬ Throughout TcpLocks.step NoneBlocked ({} : TcpLocks (Fin 1) Unit)
      [.call 0 (.peekRequest 0), .lock 0] := by
  intro h
  obtain ⟨t, hrun, hwants, howner⟩ : ∃ t,
      run TcpLocks.step ({} : TcpLocks (Fin 1) Unit) [.call 0 (.peekRequest 0), .lock 0] = some t ∧
        t.wants 0 = some (.queue .request) ∧ t.owner (.queue .request) = some 0 :=
    ⟨_, rfl, rfl, rfl⟩
  exact h.last hrun 0 (blockedByCycle_self hwants howner)

end TcpLocks
end Ttp2
