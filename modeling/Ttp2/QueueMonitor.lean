import Ttp2.TcpNetworking
import Ttp2.Lib.Lts
import Ttp2.Lib.Threads

/-! # The queues under their mutexes and condition variables

Any number of threads call `pushRequest`, `pushResponse`, `popRequest`,
`popResponse`, run a send loop or call `disconnect`. A label names the thread
that moves. A wait tests its predicate and, if that is false, parks and gives
the mutex back in a step of its own: `disconnect`, which takes another mutex,
can fall between the two. A parked thread runs again once it is notified, or
spuriously. -/
namespace Ttp2
open Lib Lts Threads

/-- Who waits for an element: a pop, or the loop of `sendRequestSession` or
`sendResponseSession`. -/
inductive Consumer where
  | pop
  | sendLoop
  deriving DecidableEq

/-- Where a thread is. -/
inductive ThreadPc (T : Type) where
  | idle
  /-- in `pushRequest` or `pushResponse`, before the lock -/
  | push (q : Queue) (packet : Packet T)
  /-- the lock released, before `notify_one` -/
  | notify (q : Queue)
  /-- before the lock and the first evaluation of the wait's predicate -/
  | enter (q : Queue) (c : Consumer)
  /-- the predicate was false; the thread still holds the mutex and parks next -/
  | parking (q : Queue) (c : Consumer)
  | parked (q : Queue) (c : Consumer)
  /-- awake again, before the lock and the next evaluation of the predicate -/
  | woken (q : Queue) (c : Consumer)
  /-- the wait is over; the thread holds the mutex and reads element 0 next -/
  | ready (q : Queue) (c : Consumer)
  /-- a send loop in `sendPacket`, holding the mutex -/
  | sending (q : Queue)
  /-- a send loop at `while (isConnected())` -/
  | loopTest (q : Queue)
  deriving DecidableEq

/-- The session, who holds the mutex of each queue, and its threads. -/
structure QueueMonitor (τ T : Type) where
  net : TcpNetworking T := {}
  owner : Queue → Option τ := fun _ => none
  pc : τ → ThreadPc T := fun _ => .idle

inductive MonitorLabel (τ T : Type) where
  | callPush (t : τ) (q : Queue) (packet : Packet T)
  | append (t : τ)
  /-- `notify_one` wakes a parked thread, if there is one -/
  | notify (t : τ) (wakes : Option τ)
  | callPop (t : τ) (q : Queue)
  | startLoop (t : τ) (q : Queue)
  | loopTest (t : τ)
  | evaluate (t : τ)
  | park (t : τ)
  | spurious (t : τ)
  | read (t : τ)
  | sent (t : τ)
  | disconnect (t : τ)

/-- The thread that moves. -/
def MonitorLabel.thread {τ T : Type} : MonitorLabel τ T → τ
  | .callPush t _ _ | .append t | .notify t _ | .callPop t _ | .startLoop t _ | .loopTest t
  | .evaluate t | .park t | .spurious t | .read t | .sent t | .disconnect t => t

namespace QueueMonitor
variable {τ T : Type} [DecidableEq τ]

def goto (s : QueueMonitor τ T) (t : τ) (p : ThreadPc T) : QueueMonitor τ T :=
  { s with pc := Function.update s.pc t p }

/-- The predicate of the waits: `!queue.empty() || !connected`. -/
def released (s : QueueMonitor τ T) (q : Queue) : Bool :=
  !(s.net.queue q).isEmpty || !s.net.connected

def isParkedOn (q : Queue) : ThreadPc T → Bool
  | .parked q' _ => q' = q
  | _ => false

/-- The lock is taken and the predicate evaluated: the wait is over, or the
thread is to park. -/
def evaluate (s : QueueMonitor τ T) (t : τ) (q : Queue) (c : Consumer) :
    Option (QueueMonitor τ T) :=
  if s.owner q = none then
    some { s.goto t (if s.released q then .ready q c else .parking q c) with
      owner := Function.update s.owner q (some t) }
  else none

/-- Element 0 is read and erased, which is undefined on an empty queue; a pop
returns, a send loop goes on to send. -/
def read (s : QueueMonitor τ T) (t : τ) (q : Queue) (c : Consumer) : Option (QueueMonitor τ T) :=
  (s.net.pop q).map fun (_, net) =>
    match c with
    | .pop => { s.goto t .idle with net, owner := Function.update s.owner q none }
    | .sendLoop => { s.goto t (.sending q) with net }

def step [Fintype τ] (s : QueueMonitor τ T) : MonitorLabel τ T → Option (QueueMonitor τ T)
  | .callPush t q packet =>
    match s.pc t with
    | .idle => some (s.goto t (.push q packet))
    | _ => none
  | .append t =>
    match s.pc t with
    | .push q packet =>
      if s.owner q = none then some { s.goto t (.notify q) with net := s.net.push q packet }
      else none
    | _ => none
  | .notify t none =>
    match s.pc t with
    | .notify q => if ∀ u, isParkedOn q (s.pc u) = false then some (s.goto t .idle) else none
    | _ => none
  | .notify t (some u) =>
    match s.pc t, s.pc u with
    | .notify q, .parked q' c =>
      if q' = q then some ((s.goto t .idle).goto u (.woken q c)) else none
    | _, _ => none
  | .callPop t q =>
    match s.pc t with
    | .idle => some (s.goto t (.enter q .pop))
    | _ => none
  | .startLoop t q =>
    match s.pc t with
    | .idle => some (s.goto t (.loopTest q))
    | _ => none
  | .loopTest t =>
    match s.pc t with
    | .loopTest q => some (s.goto t (if s.net.connected then .enter q .sendLoop else .idle))
    | _ => none
  | .evaluate t =>
    match s.pc t with
    | .enter q c => s.evaluate t q c
    | .woken q c => s.evaluate t q c
    | _ => none
  | .park t =>
    match s.pc t with
    | .parking q c =>
      some { s.goto t (.parked q c) with owner := Function.update s.owner q none }
    | _ => none
  | .spurious t =>
    match s.pc t with
    | .parked q c => some (s.goto t (.woken q c))
    | _ => none
  | .read t =>
    match s.pc t with
    | .ready q c => s.read t q c
    | _ => none
  | .sent t =>
    match s.pc t with
    | .sending q =>
      some { s.goto t (.loopTest q) with owner := Function.update s.owner q none }
    | _ => none
  | .disconnect t =>
    match s.pc t with
    | .idle => some { s with net := s.net.disconnect }
    | _ => none

/-! ## What a step can do -/

/-- The steps, with the place the moving thread leaves. -/
inductive Moves (s : QueueMonitor τ T) : MonitorLabel τ T → QueueMonitor τ T → Prop where
  | callPush (t : τ) (q : Queue) (packet : Packet T) (hpc : s.pc t = .idle) :
      Moves s (.callPush t q packet) (s.goto t (.push q packet))
  | append (t : τ) (q : Queue) (packet : Packet T) (hpc : s.pc t = .push q packet)
      (hfree : s.owner q = none) :
      Moves s (.append t) { s.goto t (.notify q) with net := s.net.push q packet }
  | notifyNone (t : τ) (q : Queue) (hpc : s.pc t = .notify q)
      (hnone : ∀ u c, s.pc u ≠ .parked q c) : Moves s (.notify t none) (s.goto t .idle)
  | notifyOne (t u : τ) (q : Queue) (c : Consumer) (hpc : s.pc t = .notify q)
      (hu : s.pc u = .parked q c) :
      Moves s (.notify t (some u)) ((s.goto t .idle).goto u (.woken q c))
  | callPop (t : τ) (q : Queue) (hpc : s.pc t = .idle) :
      Moves s (.callPop t q) (s.goto t (.enter q .pop))
  | startLoop (t : τ) (q : Queue) (hpc : s.pc t = .idle) :
      Moves s (.startLoop t q) (s.goto t (.loopTest q))
  | loopTest (t : τ) (q : Queue) (p : ThreadPc T) (hpc : s.pc t = .loopTest q)
      (hp : p = .enter q .sendLoop ∨ p = .idle) : Moves s (.loopTest t) (s.goto t p)
  | pass (t : τ) (q : Queue) (c : Consumer) (hpc : s.pc t = .enter q c ∨ s.pc t = .woken q c)
      (hfree : s.owner q = none) (hrel : s.released q = true) :
      Moves s (.evaluate t)
        { s.goto t (.ready q c) with owner := Function.update s.owner q (some t) }
  | refuse (t : τ) (q : Queue) (c : Consumer) (hpc : s.pc t = .enter q c ∨ s.pc t = .woken q c)
      (hfree : s.owner q = none) (hrel : s.released q = false) :
      Moves s (.evaluate t)
        { s.goto t (.parking q c) with owner := Function.update s.owner q (some t) }
  | park (t : τ) (q : Queue) (c : Consumer) (hpc : s.pc t = .parking q c) : Moves s (.park t)
      { s.goto t (.parked q c) with owner := Function.update s.owner q none }
  | spurious (t : τ) (q : Queue) (c : Consumer) (hpc : s.pc t = .parked q c) :
      Moves s (.spurious t) (s.goto t (.woken q c))
  | readPop (t : τ) (q : Queue) (packet : Packet T) (rest : List (Packet T))
      (hpc : s.pc t = .ready q .pop) (hq : s.net.queue q = packet :: rest) : Moves s (.read t)
      { s.goto t .idle with
        net := s.net.setQueue q rest, owner := Function.update s.owner q none }
  | readSend (t : τ) (q : Queue) (packet : Packet T) (rest : List (Packet T))
      (hpc : s.pc t = .ready q .sendLoop) (hq : s.net.queue q = packet :: rest) :
      Moves s (.read t) { s.goto t (.sending q) with net := s.net.setQueue q rest }
  | sent (t : τ) (q : Queue) (hpc : s.pc t = .sending q) : Moves s (.sent t)
      { s.goto t (.loopTest q) with owner := Function.update s.owner q none }
  | disconnect (t : τ) (hpc : s.pc t = .idle) :
      Moves s (.disconnect t) { s with net := s.net.disconnect }

theorem moves_of_evaluate {s s' : QueueMonitor τ T} {t : τ} {q : Queue} {c : Consumer}
    (hpc : s.pc t = .enter q c ∨ s.pc t = .woken q c) (h : s.evaluate t q c = some s') :
    Moves s (.evaluate t) s' := by
  unfold evaluate at h
  split at h
  · rename_i hfree
    cases h
    cases hrel : s.released q with
    | true => exact .pass t q c hpc hfree hrel
    | false => exact .refuse t q c hpc hfree hrel
  · cases h

theorem moves_of_read {s s' : QueueMonitor τ T} {t : τ} {q : Queue} {c : Consumer}
    (hpc : s.pc t = .ready q c) (h : s.read t q c = some s') : Moves s (.read t) s' := by
  unfold read at h
  obtain ⟨⟨packet, net⟩, hpop, rfl⟩ := Option.map_eq_some_iff.mp h
  obtain ⟨rest, hq, rfl⟩ := TcpNetworking.pop_eq_some hpop
  cases c with
  | pop => exact .readPop t q packet rest hpc hq
  | sendLoop => exact .readSend t q packet rest hpc hq

theorem moves_of_step [Fintype τ] {s s' : QueueMonitor τ T} {l : MonitorLabel τ T}
    (h : step s l = some s') : Moves s l s' := by
  cases l with
  | callPush t q packet =>
    simp only [step] at h
    split at h
    · rename_i hpc
      cases h
      exact .callPush t q packet hpc
    · cases h
  | append t =>
    simp only [step] at h
    split at h
    · rename_i q packet hpc
      split at h
      · rename_i hfree
        cases h
        exact .append t q packet hpc hfree
      · cases h
    · cases h
  | notify t wakes =>
    cases wakes with
    | none =>
      simp only [step] at h
      split at h
      · rename_i q hpc
        split at h
        · rename_i hnone
          cases h
          refine .notifyNone t q hpc fun u c hu => ?_
          have := hnone u
          rw [hu] at this
          simp [isParkedOn] at this
        · cases h
      · cases h
    | some u =>
      simp only [step] at h
      split at h
      · rename_i q q' c hpc hu
        split at h
        · rename_i heq
          subst heq
          cases h
          exact .notifyOne t u _ c hpc hu
        · cases h
      · cases h
  | callPop t q =>
    simp only [step] at h
    split at h
    · rename_i hpc
      cases h
      exact .callPop t q hpc
    · cases h
  | startLoop t q =>
    simp only [step] at h
    split at h
    · rename_i hpc
      cases h
      exact .startLoop t q hpc
    · cases h
  | loopTest t =>
    simp only [step] at h
    split at h
    · rename_i q hpc
      cases h
      refine .loopTest t q _ hpc ?_
      cases s.net.connected
      · exact .inr rfl
      · exact .inl rfl
    · cases h
  | evaluate t =>
    simp only [step] at h
    split at h
    · rename_i q c hpc
      exact moves_of_evaluate (.inl hpc) h
    · rename_i q c hpc
      exact moves_of_evaluate (.inr hpc) h
    · cases h
  | park t =>
    simp only [step] at h
    split at h
    · rename_i q c hpc
      cases h
      exact .park t q c hpc
    · cases h
  | spurious t =>
    simp only [step] at h
    split at h
    · rename_i q c hpc
      cases h
      exact .spurious t q c hpc
    · cases h
  | read t =>
    simp only [step] at h
    split at h
    · rename_i q c hpc
      exact moves_of_read hpc h
    · cases h
  | sent t =>
    simp only [step] at h
    split at h
    · rename_i q hpc
      cases h
      exact .sent t q hpc
    · cases h
  | disconnect t =>
    simp only [step] at h
    split at h
    · rename_i hpc
      cases h
      exact .disconnect t hpc
    · cases h

end QueueMonitor
end Ttp2
