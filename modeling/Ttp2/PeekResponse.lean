import Ttp2.TcpLocks

/-! # `peekResponse` among pushes and pops

`peekResponse` reads the size under the lock, compares, and takes the lock
again for the access. What it returns it reads in one step; but between its
two locks a pop can take away the packet its check relied on. Beside the
session are kept the contents of the response queue at each instant since a
thread's last call began, and what the finished calls returned. -/
namespace Ttp2
open Lib Lts

/-- A finished call: its index, the response queue at each instant from its
beginning to its last step, and what it returned. -/
structure PeekCall (T : Type) where
  index : Int32
  during : List (List (Packet T))
  answer : Option (PacketInfo T)

/-- An answer other than an invalid peek is the id and the payload of the
packet that was at that position at one instant of the call. -/
def PeekCall.Linearizable {T : Type} (c : PeekCall T) : Prop :=
  ∀ info, c.answer = some info → 0 ≤ c.index.toInt ∧ ∃ queue ∈ c.during, ∃ packet,
    queue[c.index.toInt.toNat]? = some packet ∧ info = ⟨packet.id, packet.payload⟩

structure PeekHistory (τ T : Type) where
  locks : TcpLocks τ T := {}
  /-- the response queue since the last call of a thread began -/
  during : τ → List (List (Packet T)) := fun _ => [[]]
  finished : List (PeekCall T) := []

namespace LockPc
variable {T : Type}

/-- The step from one place to the other returns from `peekResponse`. -/
def peekReturns : LockPc T → LockPc T → Option (Int32 × Option (PacketInfo T))
  | .peekResponseCheck index _, .idle (.info answer) => some (index, answer)
  | .peekResponseRead index, .idle (.info answer) => some (index, answer)
  | _, _ => none

def InPeekResponse : LockPc T → Prop
  | .size _ (.peekResponse _) | .sizeRead _ (.peekResponse _) | .peekResponseCheck _ _
  | .peekResponse _ | .peekResponseRead _ => True
  | _ => False

/-- The index of a call between the size it read and its access, if that size allows it. -/
def relied : LockPc T → Option Int32
  | .peekResponseCheck index n => if TcpNetworking.invalidPeek index n then none else some index
  | .peekResponse index | .peekResponseRead index => some index
  | _ => none

/-- The code up to the next lock takes the first response off the queue. -/
def popsResponse : LockPc T → Bool
  | .popRead .response | .sendLoopRead .response => true
  | _ => false

end LockPc

namespace PeekHistory
variable {τ T : Type} [DecidableEq τ]

/-- The contents a call has seen so far begin with those at its call. -/
def seen (s : PeekHistory τ T) : LockLabel τ T → τ → List (List (Packet T))
  | .call t (.peekResponse _), u => if u = t then [s.locks.net.responseQueue] else s.during u
  | _, u => s.during u

/-- The call a step returns from. -/
def returns (s : PeekHistory τ T) (locks : TcpLocks τ T) : LockLabel τ T → List (PeekCall T)
  | .run t =>
    ((s.locks.pc t).peekReturns (locks.pc t)).toList.map fun (index, answer) =>
      { index, during := s.during t, answer }
  | _ => []

def step (s : PeekHistory τ T) (l : LockLabel τ T) : Option (PeekHistory τ T) :=
  (TcpLocks.step s.locks l).map fun locks =>
    { locks
      during := fun t => s.seen l t ++ [locks.net.responseQueue]
      finished := s.finished ++ s.returns locks l }

end PeekHistory

/-! ## The place of a call and the queue -/

/-- The index is that of a response. -/
def TcpNetworking.HasResponse {T : Type} (net : TcpNetworking T) (index : Int32) : Prop :=
  0 ≤ index.toInt ∧ index.toInt < net.responseQueue.length

/-- The comparison with the size read lets through indices of the queue only. -/
theorem hasResponse_of_valid {T : Type} {net : TcpNetworking T} {index : Int32}
    (h : TcpNetworking.invalidPeek index (net.queueSize .response) = false) :
    net.HasResponse index := by
  simp only [TcpNetworking.invalidPeek, Bool.or_eq_false_iff, decide_eq_false_iff_not, gt_iff_lt,
    Int32.lt_iff_toInt_lt, Int.not_lt] at h
  obtain ⟨hle, hnonneg⟩ := h
  have hsize : (net.queueSize .response - 1).toInt =
      ((net.responseQueue.length : Int).bmod (2 ^ 32) - 1).bmod (2 ^ 32) := by
    rw [Int32.toInt_sub, TcpNetworking.queueSize, Int32.toInt_ofNat']
    rfl
  have hzero : (0 : Int32).toInt = 0 := rfl
  rw [hsize] at hle
  rw [hzero] at hnonneg
  simp only [Int.bmod] at hle
  exact ⟨hnonneg, by omega⟩

namespace LockPc
variable {T : Type} {net net' : TcpNetworking T} {p p' : LockPc T} {mutexes : List Mutex}

theorem run_unchanged (hp : p.InPeekResponse) (h : p.run net = some (net', mutexes, p')) :
    net' = net := by
  cases runs_of_run h with
  | disconnect => cases hp
  | push q packet => cases hp
  | pop q first net' hpop => cases hp
  | sendLoopPop q first net' hpop => cases hp
  | _ => rfl

theorem responseQueue_push (net : TcpNetworking T) (q : Queue) (packet : Packet T) :
    net.responseQueue <+: (net.push q packet).responseQueue := by
  cases q with
  | request => exact List.prefix_refl _
  | response => exact List.prefix_append _ _

theorem responseQueue_pop {q : Queue} {first : Packet T} {b : Bool}
    (h : net.pop q = some (first, net')) (hb : q = .response → b = true) :
    net.responseQueue <+: net'.responseQueue ∨ b = true ∧
      net.responseQueue.length = net'.responseQueue.length + 1 := by
  obtain ⟨rest, hq, rfl⟩ := TcpNetworking.pop_eq_some h
  cases q with
  | request => exact .inl (List.prefix_refl _)
  | response =>
    refine .inr ⟨hb rfl, ?_⟩
    change net.responseQueue = first :: rest at hq
    rw [hq]
    rfl

/-- What a step does to the responses: it may add one at the end, or take the first one. -/
theorem run_responseQueue (h : p.run net = some (net', mutexes, p')) :
    net.responseQueue <+: net'.responseQueue ∨ p.popsResponse = true ∧
      net.responseQueue.length = net'.responseQueue.length + 1 := by
  cases runs_of_run h with
  | push q packet => exact .inl (responseQueue_push net q packet)
  | pop q first net' hpop => exact responseQueue_pop hpop (fun hq => by rw [hq]; rfl)
  | sendLoopPop q first net' hpop => exact responseQueue_pop hpop (fun hq => by rw [hq]; rfl)
  | _ => exact .inl (List.prefix_refl _)

/-- `peekResponse` reads the size of the responses. -/
def SizesResponses : LockPc T → Prop
  | .size q (.peekResponse _) | .sizeRead q (.peekResponse _) => q = .response
  | _ => True

theorem sizes_of_outside (h : ¬ p.InPeekResponse) : p.SizesResponses := by
  cases p with
  | size q caller =>
    cases caller with
    | peekResponse index => exact absurd trivial h
    | _ => trivial
  | sizeRead q caller =>
    cases caller with
    | peekResponse index => exact absurd trivial h
    | _ => trivial
  | _ => trivial

theorem relied_of_outside (h : ¬ p.InPeekResponse) : p.relied = none := by
  cases p with
  | peekResponseCheck index n => exact absurd trivial h
  | peekResponse index => exact absurd trivial h
  | peekResponseRead index => exact absurd trivial h
  | _ => rfl

theorem enter_sizes (c : LockCall T) : (enter c).SizesResponses := by
  cases c <;> first | exact trivial | exact rfl

theorem enter_relied (c : LockCall T) : (enter c).relied = none := by
  cases c <;> rfl

theorem lock_sizes {m : Mutex} (hp : p.SizesResponses) (h : p.lock = some (m, p')) :
    p'.SizesResponses := by
  cases p with
  | size q caller =>
    cases h
    cases caller with
    | peekResponse index => exact hp
    | _ => trivial
  | _ => cases h <;> trivial

theorem lock_relied {m : Mutex} (h : p.lock = some (m, p')) : p'.relied = p.relied := by
  cases p <;> cases h <;> rfl

/-- Inside `peekResponse` a thread goes from the size to the comparison, and
from there on if the index passes it. -/
theorem run_peek (h : p.run net = some (net', mutexes, p')) : ¬ p'.InPeekResponse ∨
    net' = net ∧ ∃ index, (∃ q, p = .sizeRead q (.peekResponse index) ∧
      p' = .peekResponseCheck index (net.queueSize q)) ∨
      ∃ n, p = .peekResponseCheck index n ∧ TcpNetworking.invalidPeek index n = false ∧
        p' = .peekResponse index := by
  cases runs_of_run h with
  | sizePeekResponse q index => exact .inr ⟨rfl, index, .inl ⟨q, rfl, rfl⟩⟩
  | peekResponseValid index n hvalid => exact .inr ⟨rfl, index, .inr ⟨n, rfl, hvalid, rfl⟩⟩
  | _ => exact .inl id

theorem run_sizes (h : p.run net = some (net', mutexes, p')) : p'.SizesResponses := by
  rcases run_peek h with hout | ⟨-, index, ⟨q, -, rfl⟩ | ⟨n, -, -, rfl⟩⟩
  · exact sizes_of_outside hout
  · trivial
  · trivial

/-- An index is relied on once the size allows it, and from then on up to the access. -/
theorem run_relied (hp : p.SizesResponses) (h : p.run net = some (net', mutexes, p'))
    {index : Int32} (hi : p'.relied = some index) :
    net' = net ∧ (p.relied = some index ∨ net.HasResponse index) := by
  rcases run_peek h with hout | ⟨rfl, index', ⟨q, rfl, rfl⟩ | ⟨n, rfl, hvalid, rfl⟩⟩
  · rw [relied_of_outside hout] at hi
    cases hi
  · cases (show q = .response from hp)
    simp only [relied] at hi
    split at hi
    · cases hi
    · rename_i hvalid
      cases hi
      exact ⟨rfl, .inr (hasResponse_of_valid (Bool.eq_false_of_not_eq_true hvalid))⟩
  · cases hi
    refine ⟨rfl, .inl ?_⟩
    rw [relied, hvalid]
    rfl

/-- What a finished call returns is either that the peek was invalid, or what it has just read. -/
theorem run_peekReturns (h : p.run net = some (net', mutexes, p')) {index : Int32}
    {answer : Option (PacketInfo T)} (hr : p.peekReturns p' = some (index, answer)) :
    answer = none ∨ p = .peekResponseRead index ∧ answer = net.peek .response index := by
  cases runs_of_run h with
  | peekResponseInvalid index' n hinvalid =>
    cases hr
    exact .inl rfl
  | peekResponse index' info hinfo =>
    cases hr
    exact .inr ⟨rfl, hinfo.symm⟩
  | _ => cases hr

end LockPc

/-! ## Over whole runs -/

namespace PeekHistory
variable {τ T : Type} [DecidableEq τ] {s s' : PeekHistory τ T} {l : LockLabel τ T}

/-- What `peekResponse` is for: the access is in range, what is returned was
there at one instant, and the queue is left as it is. -/
structure Correct (s : PeekHistory τ T) : Prop where
  inRange : ∀ t index, s.locks.pc t = .peekResponseRead index → s.locks.net.HasResponse index
  answers : ∀ c ∈ s.finished, c.Linearizable
  unchanged : ∀ t, (s.locks.pc t).InPeekResponse → ∀ locks, (TcpLocks.step s.locks (.lock t) =
    some locks ∨ TcpLocks.step s.locks (.run t) = some locks) → locks.net = s.locks.net

/-- A response is taken off only if it leaves more than the index of every
call that is between its check and its access. -/
def KeepsRelied (s : PeekHistory τ T) : LockLabel τ T → Prop
  | .run u => (s.locks.pc u).popsResponse = true → ∀ t, ∀ index ∈ (s.locks.pc t).relied,
      index.toInt + 1 < s.locks.net.responseQueue.length
  | _ => True

/-- The indices relied on are those of responses. -/
structure Relied (locks : TcpLocks τ T) : Prop where
  sizes : ∀ t, (locks.pc t).SizesResponses
  relied : ∀ t index, (locks.pc t).relied = some index → locks.net.HasResponse index

structure PeekInvariant (s : PeekHistory τ T) : Prop where
  relied : Relied s.locks
  current : ∀ t, s.locks.net.responseQueue ∈ s.during t
  finished : ∀ c ∈ s.finished, c.Linearizable

omit [DecidableEq τ] in
theorem PeekInvariant.init : PeekInvariant ({} : PeekHistory τ T) where
  relied := ⟨fun _ => trivial, fun _ _ h => by cases h⟩
  current _ := List.mem_singleton_self _
  finished _ h := by cases h

theorem PeekInvariant.correct (h : PeekInvariant s) : s.Correct where
  inRange t index hpc := h.relied.relied t index (by rw [hpc]; rfl)
  answers := h.finished
  unchanged t hp locks hstep := by
    rcases hstep with hstep | hstep
    · cases TcpLocks.moves_of_step hstep with
      | lock t m p hlock hfree => rfl
    · cases TcpLocks.moves_of_step hstep with
      | run t net mutexes p hrun => exact LockPc.run_unchanged hp hrun

/-- One thread moves: what it relies on is there afterwards, and so is what the others rely on. -/
theorem Relied.move {locks locks' : TcpLocks τ T} (h : Relied locks) {t : τ} {p : LockPc T}
    (hpc : locks'.pc = Function.update locks.pc t p) (hp : p.SizesResponses)
    (hown : ∀ index, p.relied = some index → locks'.net.HasResponse index)
    (hothers : ∀ u index, (locks.pc u).relied = some index → locks'.net.HasResponse index) :
    Relied locks' where
  sizes u := by
    rw [hpc]
    by_cases hu : u = t
    · subst hu
      rwa [Function.update_self]
    · rw [Function.update_of_ne hu]
      exact h.sizes u
  relied u index hi := by
    rw [hpc] at hi
    by_cases hu : u = t
    · subst hu
      rw [Function.update_self] at hi
      exact hown index hi
    · rw [Function.update_of_ne hu] at hi
      exact hothers u index hi

theorem Relied.step {locks : TcpLocks τ T} (h : Relied s.locks) (hok : s.KeepsRelied l)
    (hs : TcpLocks.step s.locks l = some locks) : Relied locks := by
  cases TcpLocks.moves_of_step hs with
  | call t c answer hpc =>
    refine h.move rfl (LockPc.enter_sizes c) (fun index hi => ?_) h.relied
    rw [LockPc.enter_relied] at hi
    cases hi
  | lock t m p hlock hfree =>
    refine h.move rfl (LockPc.lock_sizes (h.sizes t) hlock) (fun index hi => ?_) h.relied
    rw [LockPc.lock_relied hlock] at hi
    exact h.relied t index hi
  | run t net mutexes p hrun =>
    refine h.move rfl (LockPc.run_sizes hrun) (fun index hi => ?_) (fun u index hi => ?_)
    · obtain ⟨rfl, hi | hvalid⟩ := LockPc.run_relied (h.sizes t) hrun hi
      · exact h.relied t index hi
      · exact hvalid
    · obtain ⟨hnonneg, hlt⟩ := h.relied u index hi
      refine ⟨hnonneg, ?_⟩
      show index.toInt < net.responseQueue.length
      rcases LockPc.run_responseQueue hrun with hkeep | ⟨hpop, hlen⟩
      · have := hkeep.length_le
        omega
      · have := hok hpop u index hi
        omega
  | wake t p hpc =>
    obtain ⟨q, ⟨-, rfl⟩ | ⟨-, rfl⟩⟩ := hpc
    · exact h.move rfl trivial (fun index hi => by cases hi) h.relied
    · exact h.move rfl trivial (fun index hi => by cases hi) h.relied

theorem linearizable_of_returns (h : PeekInvariant s) {locks : TcpLocks τ T}
    (hs : TcpLocks.step s.locks l = some locks) {c : PeekCall T} (hc : c ∈ s.returns locks l) :
    c.Linearizable := by
  cases TcpLocks.moves_of_step hs with
  | run t net mutexes p hrun =>
    simp only [returns, TcpLocks.goto, Function.update_self, List.mem_map, Option.mem_toList] at hc
    obtain ⟨⟨index, answer⟩, hreturns, rfl⟩ := hc
    intro info hinfo
    rcases LockPc.run_peekReturns hrun hreturns with rfl | ⟨hpc, rfl⟩
    · cases hinfo
    · have hrange := h.relied.relied t index (by rw [hpc]; rfl)
      obtain ⟨packet, hpacket, rfl⟩ := Option.map_eq_some_iff.mp hinfo
      exact ⟨hrange.1, _, h.current t, packet, hpacket, rfl⟩
  | _ => cases hc

theorem PeekInvariant.step (h : PeekInvariant s) (hok : s.KeepsRelied l)
    (hs : step s l = some s') : PeekInvariant s' := by
  obtain ⟨locks, hlocks, rfl⟩ := Option.map_eq_some_iff.mp hs
  refine ⟨h.relied.step hok hlocks, fun t => List.mem_append_right _ (List.mem_singleton_self _), ?_⟩
  intro c hc
  rcases List.mem_append.mp hc with hc | hc
  · exact h.finished c hc
  · exact linearizable_of_returns h hlocks hc

/-- **`peekResponse` is linearizable and in range** in every run of any number
of threads in which no pop takes a response that a call relies on. -/
theorem peek_response_correct (ls : List (LockLabel τ T)) (hok : Along step KeepsRelied {} ls) :
    Throughout step Correct {} ls :=
  hok.throughout PeekInvariant.correct PeekInvariant.step .init

instance [Fintype τ] (s : PeekHistory τ T) : (l : LockLabel τ T) → Decidable (KeepsRelied s l)
  | .run u =>
    -- an index is looked for in the one call, not among all of an `int`
    letI (t : τ) : Decidable (∀ index ∈ (s.locks.pc t).relied,
        index.toInt + 1 < s.locks.net.responseQueue.length) := Option.decidableForallMem _
    inferInstanceAs (Decidable ((s.locks.pc u).popsResponse = true → ∀ t,
      ∀ index ∈ (s.locks.pc t).relied, index.toInt + 1 < s.locks.net.responseQueue.length))
  | .call _ _ | .lock _ | .wake _ => inferInstanceAs (Decidable True)

/-- Two responses are pushed, and one is popped while another thread peeks at the first. -/
theorem peek_response_correct_pop :
    Throughout step Correct ({} : PeekHistory (Fin 2) Unit)
      [.call 0 (.push .response { id := 5 }), .lock 0, .run 0, .run 0,
        .call 0 (.push .response { id := 6 }), .lock 0, .run 0, .run 0,
        .call 0 (.pop .response), .call 1 (.peekResponse 0), .lock 1, .run 1, .lock 0, .run 0,
        .run 0, .run 1, .lock 1, .run 1] :=
  peek_response_correct _ (by decide)

/-- **A pop between the two locks**: the check has passed for index 0, and the
queue is empty when it is accessed. -/
theorem peek_response_out_of_range :
    ¬ Throughout step Correct ({} : PeekHistory (Fin 2) Unit)
      [.call 0 (.push .response { id := 5 }), .lock 0, .run 0, .run 0,
        .call 1 (.peekResponse 0), .lock 1, .run 1, .run 1,
        .call 0 (.pop .response), .lock 0, .run 0, .run 0, .lock 1] := by
  intro h
  obtain ⟨t, hrun, hpc, hempty⟩ : ∃ t, run step ({} : PeekHistory (Fin 2) Unit)
      [.call 0 (.push .response { id := 5 }), .lock 0, .run 0, .run 0,
        .call 1 (.peekResponse 0), .lock 1, .run 1, .run 1,
        .call 0 (.pop .response), .lock 0, .run 0, .run 0, .lock 1] = some t ∧
      t.locks.pc 1 = .peekResponseRead 0 ∧ t.locks.net.responseQueue = [] := ⟨_, rfl, rfl, rfl⟩
  have hrange := ((h.last hrun).inRange 1 0 hpc).2
  rw [hempty] at hrange
  exact absurd hrange (by decide)

end PeekHistory
end Ttp2
