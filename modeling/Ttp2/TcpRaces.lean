import Ttp2.LockDiscipline

/-! # Which data two threads touch at once

A thread holds the mutex of everything the code up to its next lock reads or
writes, but for one read: the predicate of `popRequest` and `popResponse`
looks at `connected` without `connectedMutex`. So the only data race of a
session is that read, on an empty queue, beside `disconnect`. -/
namespace Ttp2
open Lib Lts

/-! ## Reads and writes -/

namespace LockPc
variable {T : Type} {net net' : TcpNetworking T} {p p' : LockPc T} {mutexes : List Mutex}
  {x : Mutex}

/-- What the code up to the next lock reads, each datum named by its mutex. -/
def reads (net : TcpNetworking T) : LockPc T → List Mutex
  | .isConnectedRead _ => [.connected]
  | .hasRead q | .sizeRead q _ | .popRead q | .sendLoopTest q | .sendLoopRead q => [.queue q]
  -- `!queue.empty() || !connected`
  | .popTest q => if (net.queue q).isEmpty then [.queue q, .connected] else [.queue q]
  | .peekResponseRead _ => [.queue .response]
  | .peekRequestRead _ _ => [.queue .request]
  | _ => []

def writes : LockPc T → List Mutex
  | .disconnectBody => [.connected]
  | .pushAppend q _ | .popRead q | .sendLoopRead q => [.queue q]
  | _ => []

/-- The predicate of a pop looks at `connected`. -/
def PeeksFlag (net : TcpNetworking T) : LockPc T → Prop
  | .popTest q => (net.queue q).isEmpty = true
  | _ => False

theorem writes_holds (h : x ∈ p.writes) : x ∈ p.holds := by
  cases p <;> first | exact h | cases h

theorem reads_holds (h : x ∈ p.reads net) : x ∈ p.holds ∨ x = .connected ∧ p.PeeksFlag net := by
  cases p with
  | isConnectedRead caller =>
    rw [List.mem_singleton.mp h]
    cases caller <;> exact .inl (by simp [holds])
  | sizeRead q caller =>
    rw [List.mem_singleton.mp h]
    cases caller <;> exact .inl (by simp [holds])
  | popTest q =>
    simp only [reads] at h
    split at h
    · rename_i hempty
      rcases List.mem_cons.mp h with rfl | h
      · exact .inl (List.mem_singleton_self _)
      · exact .inr ⟨List.mem_singleton.mp h, hempty⟩
    · exact .inl h
  | _ => first | exact .inl h | cases h

theorem writes_connected (h : .connected ∈ p.writes) : p = .disconnectBody := by
  cases p <;> simp_all [writes]

theorem connected_mem_reads (h : p.PeeksFlag net) : .connected ∈ p.reads net := by
  cases p with
  | popTest q =>
    have hempty : (net.queue q).isEmpty = true := h
    simp [reads, hempty]
  | _ => cases h

/-! ## What a step releases -/

/-- `peekRequest` behind the lock of `getRequestQueueSize`: it holds that mutex
itself, so nobody gets there. -/
def BehindPeekRequest : LockPc T → Prop
  | .sizeRead _ (.peekRequest _) | .peekRequestRead _ _ => True
  | _ => False

/-- `peekRequest` asks for the size of the requests. -/
def AsksRequests : LockPc T → Prop
  | .size q (.peekRequest _) => q = .request
  | _ => True

/-- A thread unlocks what it holds, and holds nothing new. -/
theorem run_releases (hp : ¬ p.BehindPeekRequest) (h : p.run net = some (net', mutexes, p')) :
    (∀ m ∈ mutexes, m ∈ p.holds) ∧ ∀ m ∈ p'.holds, m ∈ p.holds ∧ m ∉ mutexes := by
  cases runs_of_run h with
  | sizePeekRequest q index => exact absurd trivial hp
  | peekRequestInvalid index n hinvalid => exact absurd trivial hp
  | peekRequest index n info hvalid hinfo => exact absurd trivial hp
  | _ => simp [holds]

theorem run_behind (hp : ¬ p.BehindPeekRequest) (h : p.run net = some (net', mutexes, p')) :
    ¬ p'.BehindPeekRequest ∧ p'.AsksRequests := by
  cases runs_of_run h with
  | sizePeekRequest q index => exact absurd trivial hp
  | _ => exact ⟨id, trivial⟩

theorem enter_behind (c : LockCall T) : ¬ (enter c).BehindPeekRequest ∧ (enter c).AsksRequests := by
  cases c <;> exact ⟨id, trivial⟩

theorem lock_asks {m : Mutex} (h : p.lock = some (m, p')) : p'.AsksRequests := by
  cases p with
  | peekRequest index =>
    cases h
    rfl
  | _ => cases h <;> trivial

/-- A lock leads behind `peekRequest` only if it is one the thread holds. -/
theorem lock_behind {m : Mutex} (hp : ¬ p.BehindPeekRequest) (hasks : p.AsksRequests)
    (hm : m ∉ p.holds) (h : p.lock = some (m, p')) : ¬ p'.BehindPeekRequest := by
  cases p with
  | size q caller =>
    cases h
    cases caller with
    | peekRequest index =>
      cases (show q = .request from hasks)
      exact absurd (List.mem_singleton_self _) hm
    | _ => exact id
  | _ => cases h <;> exact id

end LockPc

/-! ## Over whole runs -/

namespace TcpLocks
variable {τ T : Type} [DecidableEq τ] {s s' : TcpLocks τ T} {l : LockLabel τ T}

/-- What a thread holds by its place, it owns. -/
structure Holding (s : TcpLocks τ T) : Prop where
  owner : ∀ t, ∀ m ∈ (s.pc t).holds, s.owner m = some t
  behind : ∀ t, ¬ (s.pc t).BehindPeekRequest
  asks : ∀ t, (s.pc t).AsksRequests

omit [DecidableEq τ] in
theorem Holding.init : Holding ({} : TcpLocks τ T) where
  owner := fun _ _ h => by cases h
  behind := fun _ => id
  asks := fun _ => trivial

omit [DecidableEq τ] in
theorem Holding.exclusive (h : Holding s) {t u : τ} {m : Mutex} (ht : m ∈ (s.pc t).holds)
    (hu : m ∈ (s.pc u).holds) : t = u :=
  Option.some.inj ((h.owner t m ht).symm.trans (h.owner u m hu))

/-- One thread moves: it owns what it holds then, and the others keep theirs. -/
theorem Holding.move (h : Holding s) {t : τ} {p : LockPc T}
    (hpc : s'.pc = Function.update s.pc t p) (hown : ∀ m ∈ p.holds, s'.owner m = some t)
    (hothers : ∀ u ≠ t, ∀ m ∈ (s.pc u).holds, s'.owner m = some u)
    (hp : ¬ p.BehindPeekRequest ∧ p.AsksRequests) : Holding s' := by
  have hcases : ∀ u, u = t ∧ s'.pc u = p ∨ u ≠ t ∧ s'.pc u = s.pc u := by
    intro u
    rw [hpc]
    by_cases hut : u = t
    · exact .inl ⟨hut, by rw [hut, Function.update_self]⟩
    · exact .inr ⟨hut, Function.update_of_ne hut _ _⟩
  refine ⟨fun u m hm => ?_, fun u => ?_, fun u => ?_⟩
  · rcases hcases u with ⟨rfl, hu⟩ | ⟨hut, hu⟩
    · exact hown m (hu ▸ hm)
    · exact hothers u hut m (hu ▸ hm)
  · rcases hcases u with ⟨-, hu⟩ | ⟨-, hu⟩
    · exact hu ▸ hp.1
    · exact hu ▸ h.behind u
  · rcases hcases u with ⟨-, hu⟩ | ⟨-, hu⟩
    · exact hu ▸ hp.2
    · exact hu ▸ h.asks u

/-- A thread that holds nothing goes to a place where it holds nothing. -/
theorem Holding.goto (h : Holding s) {t : τ} {p : LockPc T} (hnone : p.holds = [])
    (hp : ¬ p.BehindPeekRequest ∧ p.AsksRequests) : Holding (s.goto t p) :=
  h.move rfl (fun m hm => by rw [hnone] at hm; cases hm) (fun u _ m hm => h.owner u m hm) hp

theorem Holding.step (h : Holding s) (hs : TcpLocks.step s l = some s') : Holding s' := by
  cases moves_of_step hs with
  | call t c answer hpc =>
    exact h.goto (by cases c <;> rfl) (LockPc.enter_behind c)
  | lock t m p hlock hfree =>
    have hnot : ∀ u, m ∉ (s.pc u).holds := by
      intro u hm
      rw [h.owner u m hm] at hfree
      cases hfree
    refine h.move rfl (fun k hk => ?_) (fun u hut k hk => ?_)
      ⟨LockPc.lock_behind (h.behind t) (h.asks t) (hnot t) hlock, LockPc.lock_asks hlock⟩
    · by_cases hkm : k = m
      · subst hkm
        exact Function.update_self ..
      · rw [LockPc.lock_holds hlock] at hk
        rcases List.mem_append.mp hk with hk | hk
        · exact (Function.update_of_ne hkm _ _).trans (h.owner t k hk)
        · exact absurd (List.mem_singleton.mp hk) hkm
    · have hkm : k ≠ m := fun he => hnot u (he ▸ hk)
      exact (Function.update_of_ne hkm _ _).trans (h.owner u k hk)
  | run t net mutexes p hrun =>
    obtain ⟨hmine, hkeep⟩ := LockPc.run_releases (h.behind t) hrun
    refine h.move rfl (fun m hm => ?_) (fun u hut m hm => ?_) (LockPc.run_behind (h.behind t) hrun)
    · obtain ⟨hm, hnot⟩ := hkeep m hm
      exact (if_neg hnot).trans (h.owner t m hm)
    · have hnot : m ∉ mutexes := fun hin => hut (h.exclusive hm (hmine m hin))
      exact (if_neg hnot).trans (h.owner u m hm)
  | wake t p hpc =>
    obtain ⟨q, ⟨-, rfl⟩ | ⟨-, rfl⟩⟩ := hpc
    · exact h.goto rfl ⟨id, trivial⟩
    · exact h.goto rfl ⟨id, trivial⟩

/-- The next code of `t` writes what the next code of another thread `u` reads or writes. -/
def Race (s : TcpLocks τ T) (t u : τ) : Prop :=
  t ≠ u ∧ ∃ x ∈ (s.pc t).writes, x ∈ (s.pc u).reads s.net ∨ x ∈ (s.pc u).writes

/-- The only races are those of `disconnect` with the predicate of a pop on an empty queue. -/
def RacesOnFlagOnly (s : TcpLocks τ T) : Prop :=
  ∀ t u, s.Race t u ↔ s.pc t = .disconnectBody ∧ (s.pc u).PeeksFlag s.net

omit [DecidableEq τ] in
theorem Holding.races (h : Holding s) : s.RacesOnFlagOnly := by
  intro t u
  constructor
  · rintro ⟨hne, x, hwrite, hread | hwrite'⟩
    · rcases LockPc.reads_holds hread with hheld | ⟨rfl, hflag⟩
      · exact absurd (h.exclusive (LockPc.writes_holds hwrite) hheld) hne
      · exact ⟨LockPc.writes_connected hwrite, hflag⟩
    · exact absurd (h.exclusive (LockPc.writes_holds hwrite) (LockPc.writes_holds hwrite')) hne
  · rintro ⟨ht, hflag⟩
    refine ⟨?_, .connected, ?_, .inl (LockPc.connected_mem_reads hflag)⟩
    · rintro rfl
      rw [ht] at hflag
      exact hflag
    · rw [ht]
      exact List.mem_singleton_self _

/-- **The data races of a session**, in every state of every run of any number of threads. -/
theorem races_on_flag_only (ls : List (LockLabel τ T)) :
    Throughout TcpLocks.step RacesOnFlagOnly {} ls :=
  (Along.of_forall (fun _ _ => trivial) _ ls).throughout (I := Holding) (fun h => h.races)
    (fun h (_ : True) hs => h.step hs) .init

/-- The race is reached: one thread is in `disconnect`, another one about to
evaluate the predicate of `popRequest`. -/
example : ∃ s, run TcpLocks.step ({} : TcpLocks (Fin 2) Unit)
    [.call 0 (.pop .request), .lock 0, .call 1 .disconnect, .lock 1] = some s ∧ s.Race 1 0 :=
  ⟨_, rfl, by decide, .connected, List.mem_singleton_self _, .inl (by decide)⟩

end TcpLocks
end Ttp2
