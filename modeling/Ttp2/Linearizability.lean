import Ttp2.TcpRaces
import Ttp2.PeekResponse
import Ttp2.Lib.AtomicObject

/-! # The operations of a session are atomic

What a call of a public operation of `TcpNetworking` answers, and what it does
to the session, happens at one instant between the call and its return,
whatever the other threads do meanwhile (`linearizable`): also for
`peekResponse`, which takes its lock twice. A send loop is a call that takes
elements one at a time and goes on. What was performed is then a sequential
use of two queues, first in, first out (`queues_fifo`). -/
namespace Ttp2
open Lib Lts Simulation Atomic

/-! ## The sequential session -/

/-- What an operation does to a session nobody else uses. A peek finds the
packet at its index, or reports that there is none; it may do so as well in a
queue whose size is no `int`. -/
inductive Performs {T : Type} :
    LockCall T → TcpNetworking T → Answer T → Bool → TcpNetworking T → Prop where
  | isConnected (net : TcpNetworking T) :
      Performs .isConnected net (.flag net.connected) false net
  | disconnect (net : TcpNetworking T) : Performs .disconnect net .nothing false net.disconnect
  | has (net : TcpNetworking T) (q : Queue) :
      Performs (.has q) net (.flag (!(net.queue q).isEmpty)) false net
  | size (net : TcpNetworking T) (q : Queue) :
      Performs (.size q) net (.size (net.queueSize q)) false net
  | push (net : TcpNetworking T) (q : Queue) (packet : Packet T) :
      Performs (.push q packet) net .nothing false (net.push q packet)
  | pop (net : TcpNetworking T) (q : Queue) (first : Packet T) (rest : List (Packet T))
      (hq : net.queue q = first :: rest) :
      Performs (.pop q) net (.packet first) false (net.setQueue q rest)
  | peekFound (net : TcpNetworking T) (index : Int32) (packet : Packet T)
      (hindex : 0 ≤ index.toInt) (hpacket : net.responseQueue[index.toInt.toNat]? = some packet) :
      Performs (.peekResponse index) net (.info (some ⟨packet.id, packet.payload⟩)) false net
  | peekInvalid (net : TcpNetworking T) (index : Int32)
      (hinvalid : ¬ net.HasResponse index ∨ 2 ^ 31 ≤ net.responseQueue.length) :
      Performs (.peekResponse index) net (.info none) false net
  | sendLoopTakes (net : TcpNetworking T) (q : Queue) (first : Packet T) (rest : List (Packet T))
      (hq : net.queue q = first :: rest) :
      Performs (.sendLoop q) net (.packet first) true (net.setQueue q rest)
  | sendLoopEnds (net : TcpNetworking T) (q : Queue) (hconn : net.connected = false) :
      Performs (.sendLoop q) net .nothing false net

theorem invalid_of_invalidPeek {T : Type} {net : TcpNetworking T} {index : Int32}
    (h : TcpNetworking.invalidPeek index (net.queueSize .response) = true) :
    ¬ net.HasResponse index ∨ 2 ^ 31 ≤ net.responseQueue.length := by
  by_cases hlong : 2 ^ 31 ≤ net.responseQueue.length
  · exact .inr hlong
  · refine .inl fun ⟨hnonneg, hlt⟩ => ?_
    have hsize : (net.queueSize .response - 1).toInt =
        ((net.responseQueue.length : Int).bmod (2 ^ 32) - 1).bmod (2 ^ 32) := by
      rw [Int32.toInt_sub, TcpNetworking.queueSize, Int32.toInt_ofNat']
      rfl
    have hzero : (0 : Int32).toInt = 0 := rfl
    simp only [TcpNetworking.invalidPeek, Bool.or_eq_true, decide_eq_true_eq, gt_iff_lt,
      Int32.lt_iff_toInt_lt, hsize, hzero, Int.bmod] at h
    omega

/-! ## Where a call takes effect -/

/-- The operation `isConnected` is part of. -/
def ConnectedCaller.call {T : Type} : ConnectedCaller → LockCall T
  | .user => .isConnected
  | .loopTest q | .predicate q => .sendLoop q

def SizeCaller.call {T : Type} (q : Queue) : SizeCaller → LockCall T
  | .user => .size q
  | .peekResponse index => .peekResponse index
  | .peekRequest index => .peekRequest index

namespace LockPc
variable {T : Type} {net net' : TcpNetworking T} {p p' : LockPc T} {mutexes : List Mutex}

/-- The call a thread is in, and whether it took effect. A peek that reports
an invalid index did so when it read the size, any other one does at its access. -/
def status : LockPc T → Status (LockCall T) (Answer T)
  | .idle _ => .idle
  | .isConnected caller | .isConnectedRead caller => .called caller.call
  | .disconnect | .disconnectBody => .called .disconnect
  | .has q | .hasRead q => .called (.has q)
  | .size q caller | .sizeRead q caller => .called (caller.call q)
  | .push q packet | .pushAppend q packet => .called (.push q packet)
  | .pushNotify _ => .done .nothing
  | .pop q | .popTest q | .popParked q | .popRead q => .called (.pop q)
  | .peekResponseCheck index n =>
    if TcpNetworking.invalidPeek index n then .done (.info none) else .called (.peekResponse index)
  | .peekResponse index | .peekResponseRead index => .called (.peekResponse index)
  | .peekRequest index | .peekRequestRead index _ => .called (.peekRequest index)
  | .sendLoop q | .sendLoopTest q | .sendLoopParked q | .sendLoopRead q | .sendLoopSend q =>
    .called (.sendLoop q)

theorem enter_status (c : LockCall T) : (enter c).status = .called c := by
  cases c <;> rfl

theorem lock_status {m : Mutex} (h : p.lock = some (m, p')) : p'.status = p.status := by
  cases p <;> cases h <;> rfl

/-- The index of a peek that is on its way to its access is not negative. -/
def IndexChecked : LockPc T → Prop
  | .peekResponse index | .peekResponseRead index => 0 ≤ index.toInt
  | _ => True

theorem enter_checked (c : LockCall T) : (enter c).IndexChecked := by
  cases c <;> trivial

theorem lock_checked {m : Mutex} (hp : p.IndexChecked) (h : p.lock = some (m, p')) :
    p'.IndexChecked := by
  cases p with
  | peekResponse index =>
    cases h
    exact hp
  | _ => cases h <;> trivial

theorem run_checked (h : p.run net = some (net', mutexes, p')) : p'.IndexChecked := by
  cases runs_of_run h with
  | peekResponseValid index n hvalid =>
    simp only [TcpNetworking.invalidPeek, Bool.or_eq_false_iff, decide_eq_false_iff_not,
      Int32.lt_iff_toInt_lt, Int.not_lt] at hvalid
    exact hvalid.2
  | _ => trivial

/-- What the code up to the next lock is for the call the thread is in. -/
inductive Effect (net : TcpNetworking T) (p : LockPc T) (net' : TcpNetworking T) (p' : LockPc T) :
    Prop where
  | quiet (hnet : net' = net) (hstatus : p'.status = p.status)
      (hidle : ∀ answer, p' ≠ .idle answer)
  | performs (op : LockCall T) (answer : Answer T) (hop : p.status = .called op)
      (hperform : Performs op net answer false net') (hdone : p'.status = .done answer)
  | answers (op : LockCall T) (answer : Answer T) (hop : p.status = .called op)
      (hperform : Performs op net answer false net') (hidle : p' = .idle answer)
  | returns (answer : Answer T) (hdone : p.status = .done answer) (hnet : net' = net)
      (hidle : p' = .idle answer)
  | goesOn (op : LockCall T) (value : Answer T) (hop : p.status = .called op)
      (hperform : Performs op net value true net') (hop' : p'.status = .called op)

/-- **One effect at most** in the code between two locks. -/
theorem run_effect (hbehind : ¬ p.BehindPeekRequest) (hsizes : p.SizesResponses)
    (hchecked : p.IndexChecked) (h : p.run net = some (net', mutexes, p')) :
    Effect net p net' p' := by
  cases runs_of_run h with
  | isConnected => exact .answers _ _ rfl (.isConnected net) rfl
  | loopGoesOn q hconn => exact .quiet rfl rfl (fun _ he => nomatch he)
  | loopEnds q hconn => exact .answers _ _ rfl (.sendLoopEnds net q hconn) rfl
  | loopParks q hconn => exact .quiet rfl rfl (fun _ he => nomatch he)
  | loopLeaves q hconn => exact .quiet rfl rfl (fun _ he => nomatch he)
  | disconnect => exact .answers _ _ rfl (.disconnect net) rfl
  | has q => exact .answers _ _ rfl (.has net q) rfl
  | size q => exact .answers _ _ rfl (.size net q) rfl
  | sizePeekResponse q index =>
    cases (show q = .response from hsizes)
    cases hvalid : TcpNetworking.invalidPeek index (net.queueSize .response) with
    | true =>
      refine .performs _ (.info none) rfl (.peekInvalid net index (invalid_of_invalidPeek hvalid)) ?_
      simp only [status, hvalid, if_true]
    | false =>
      refine .quiet rfl ?_ (fun _ he => nomatch he)
      simp only [status, hvalid]
      rfl
  | sizePeekRequest q index => exact absurd trivial hbehind
  | push q packet => exact .performs _ _ rfl (.push net q packet) rfl
  | notify q => exact .returns .nothing rfl rfl rfl
  | popLeaves q hready => exact .quiet rfl rfl (fun _ he => nomatch he)
  | popParks q hwait => exact .quiet rfl rfl (fun _ he => nomatch he)
  | pop q first net' hpop =>
    obtain ⟨rest, hq, rfl⟩ := TcpNetworking.pop_eq_some hpop
    exact .answers _ _ rfl (.pop net q first rest hq) rfl
  | peekResponseInvalid index n hinvalid =>
    refine .returns (.info none) ?_ rfl rfl
    simp only [status, hinvalid, if_true]
  | peekResponseValid index n hvalid =>
    refine .quiet rfl ?_ (fun _ he => nomatch he)
    simp only [status, hvalid]
    rfl
  | peekResponse index info hinfo =>
    obtain ⟨packet, hpacket, rfl⟩ := Option.map_eq_some_iff.mp hinfo
    exact .answers _ _ rfl (.peekFound net index packet hchecked hpacket) rfl
  | peekRequestInvalid index n hinvalid => exact absurd trivial hbehind
  | peekRequest index n info hvalid hinfo => exact absurd trivial hbehind
  | sendLoopLeaves q hready => exact .quiet rfl rfl (fun _ he => nomatch he)
  | sendLoopAsks q hwait => exact .quiet rfl rfl (fun _ he => nomatch he)
  | sendLoopPop q first net' hpop =>
    obtain ⟨rest, hq, rfl⟩ := TcpNetworking.pop_eq_some hpop
    exact .goesOn _ _ rfl (.sendLoopTakes net q first rest hq) rfl
  | sendLoopSend q => exact .quiet rfl rfl (fun _ he => nomatch he)

end LockPc

/-! ## The simulation -/

namespace TcpLocks
variable {τ T : Type} [DecidableEq τ] {s s' : TcpLocks τ T} {l : LockLabel τ T}

abbrev AtomicSession (τ T : Type) := AtomicObject τ (LockCall T) (Answer T) (TcpNetworking T)

/-- A step shows a call, or the answer with which a thread returns. -/
def event (_ : TcpLocks τ T) (l : LockLabel τ T) (s' : TcpLocks τ T) :
    Option (Event τ (LockCall T) (Answer T)) :=
  match l with
  | .call t c => some (.call t c)
  | .run t =>
    match s'.pc t with
    | .idle answer => some (.answer t answer)
    | _ => none
  | _ => none

/-- The atomic session has the same data, and each thread is in the same call. -/
structure Represents (s : TcpLocks τ T) (a : AtomicSession τ T) : Prop where
  holding : Holding s
  sizes : ∀ t, (s.pc t).SizesResponses
  checked : ∀ t, (s.pc t).IndexChecked
  object : a.object = s.net
  status : a.status = fun t => (s.pc t).status

omit [DecidableEq τ] in
theorem Represents.init : Represents ({} : TcpLocks τ T) { object := {} } where
  holding := .init
  sizes := fun _ => trivial
  checked := fun _ => trivial
  object := rfl
  status := rfl

/-- One thread moves. -/
theorem Represents.move {a b : AtomicSession τ T} (h : Represents s a) {t : τ} {p : LockPc T}
    (hholding : Holding s') (hpc : s'.pc = Function.update s.pc t p) (hsizes : p.SizesResponses)
    (hchecked : p.IndexChecked) (hobject : b.object = s'.net)
    (hstatus : b.status = Function.update a.status t p.status) : Represents s' b where
  holding := hholding
  sizes u := by
    rw [hpc]
    by_cases hu : u = t
    · rw [hu, Function.update_self]
      exact hsizes
    · rw [Function.update_of_ne hu]
      exact h.sizes u
  checked u := by
    rw [hpc]
    by_cases hu : u = t
    · rw [hu, Function.update_self]
      exact hchecked
    · rw [Function.update_of_ne hu]
      exact h.checked u
  object := hobject
  status := by
    funext u
    rw [hstatus, hpc]
    by_cases hu : u = t
    · rw [hu, Function.update_self, Function.update_self]
    · rw [Function.update_of_ne hu, Function.update_of_ne hu, h.status]

/-- A step that neither performs nor returns anything is answered by none. -/
theorem Represents.quiet {a : AtomicSession τ T} (h : Represents s a) {t : τ} {p : LockPc T}
    (hholding : Holding s') (hpc : s'.pc = Function.update s.pc t p) (hsizes : p.SizesResponses)
    (hchecked : p.IndexChecked) (hnet : s'.net = s.net) (hstatus : p.status = (s.pc t).status) :
    Represents s' a := by
  refine h.move hholding hpc hsizes hchecked (h.object.trans hnet.symm) ?_
  rw [hstatus, h.status]
  exact (Function.update_eq_self t _).symm

theorem simulates : Simulates (TcpLocks.step (τ := τ) (T := T)) event (fun _ _ => True)
    (Step Performs) Represents := by
  intro s l s' a h _ hs
  have hholding := h.holding.step hs
  have hcalled : ∀ t, a.status t = (s.pc t).status := fun t => congrFun h.status t
  cases moves_of_step hs with
  | call t c answer hpc =>
    refine ⟨_, .single (.call t c ?_), h.move hholding rfl (LockPc.enter_sizes c)
      (LockPc.enter_checked c) h.object ?_⟩
    · rw [hcalled, hpc]
      rfl
    · rw [LockPc.enter_status]
  | lock t m p hlock hfree =>
    exact ⟨a, .nil a, h.quiet hholding rfl (LockPc.lock_sizes (h.sizes t) hlock)
      (LockPc.lock_checked (h.checked t) hlock) rfl (LockPc.lock_status hlock)⟩
  | run t net mutexes p hrun =>
    have hsizes := LockPc.run_sizes hrun
    have hchecked := LockPc.run_checked hrun
    have hpc : Function.update s.pc t p t = p := Function.update_self ..
    have hnone : (∀ answer, p ≠ .idle answer) →
        event s (.run t) { (s.unlock mutexes).goto t p with net } = none := by
      intro hidle
      show (match Function.update s.pc t p t with
        | .idle answer => some (Event.answer t answer)
        | _ => none) = none
      rw [hpc]
      split
      · exact absurd rfl (hidle _)
      · rfl
    have hsome : ∀ answer, p = .idle answer →
        event s (.run t) { (s.unlock mutexes).goto t p with net } = some (.answer t answer) := by
      rintro answer rfl
      show (match Function.update s.pc t (.idle answer) t with
        | .idle answer => some (Event.answer t answer)
        | _ => none) = some (.answer t answer)
      rw [hpc]
    have hnot : ∀ status : Status (LockCall T) (Answer T), status ≠ .idle → p.status = status →
        ∀ answer, p ≠ .idle answer := by
      rintro status hne hp answer rfl
      exact hne hp.symm
    cases LockPc.run_effect (h.holding.behind t) (h.sizes t) (h.checked t) hrun with
    | quiet hnet hstatus hidle =>
      rw [hnone hidle]
      exact ⟨a, .nil a, h.quiet hholding rfl hsizes hchecked hnet hstatus⟩
    | performs op answer hop hperform hdone =>
      rw [hnone (hnot _ (by simp) hdone)]
      refine ⟨_, .single (.perform t op answer net ((hcalled t).trans hop) ?_),
        h.move hholding rfl hsizes hchecked rfl (by rw [hdone])⟩
      rwa [h.object]
    | answers op answer hop hperform hidle =>
      rw [hsome answer hidle]
      refine ⟨_, traces_perform_answer net ((hcalled t).trans hop) ?_,
        h.move hholding rfl hsizes hchecked rfl (by rw [hidle]; rfl)⟩
      rwa [h.object]
    | returns answer hdone hnet hidle =>
      rw [hsome answer hidle]
      exact ⟨_, .single (.answer t answer ((hcalled t).trans hdone)),
        h.move hholding rfl hsizes hchecked (h.object.trans hnet.symm) (by rw [hidle]; rfl)⟩
    | goesOn op value hop hperform hop' =>
      rw [hnone (hnot _ (by simp) hop')]
      refine ⟨_, .single (.goOn t op value net ((hcalled t).trans hop) ?_),
        h.move hholding rfl hsizes hchecked rfl ?_⟩
      · rwa [h.object]
      · show a.status = _
        rw [hop', ← hop, ← hcalled]
        exact (Function.update_eq_self t _).symm
  | wake t p hpc =>
    refine ⟨a, .nil a, ?_⟩
    obtain ⟨q, ⟨hpc, rfl⟩ | ⟨hpc, rfl⟩⟩ := hpc
    · exact h.quiet hholding rfl trivial trivial rfl (by rw [hpc]; rfl)
    · exact h.quiet hholding rfl trivial trivial rfl (by rw [hpc]; rfl)

/-- **The session is linearizable**: every run of any number of threads shows
a trace of the atomic session, which ends with the same data. -/
theorem linearizable (ls : List (LockLabel τ T)) (s : TcpLocks τ T)
    (hrun : run TcpLocks.step {} ls = some s) :
    ∃ a : AtomicSession τ T, a.object = s.net ∧
      Traces (Step Performs) { object := {} } (trace TcpLocks.step event {} ls) a := by
  obtain ⟨a, htraces, h⟩ := simulates.traces .init (.of_forall (fun _ _ => trivial) _ _) hrun
  exact ⟨a, h.object, htraces⟩

/-- A pop that parks, and the push that ends its wait. -/
def popWaitsForPush (packet : Packet Unit) : List (LockLabel (Fin 2) Unit) :=
  [.call 0 (.pop .request), .lock 0, .run 0, .call 1 (.push .request packet), .lock 1, .run 1,
    .wake 0, .lock 0, .run 0, .run 0, .run 1]

theorem linearizable_pop : ∃ a : AtomicSession (Fin 2) Unit, a.object = {} ∧
    Traces (Step Performs) { object := {} }
      [.call 0 (.pop .request), .call 1 (.push .request {}), .answer 0 (.packet {}),
        .answer 1 .nothing] a :=
  linearizable (popWaitsForPush {}) _ rfl

/-! ## The queues -/

/-- The packets a history pushes into the queue. -/
def pushed (q : Queue) (history : List (τ × LockCall T × Answer T)) : List (Packet T) :=
  history.filterMap fun
    | (_, .push q' packet, _) => if q' = q then some packet else none
    | _ => none

/-- The packets its pops and send loops take from the queue. -/
def removed (q : Queue) (history : List (τ × LockCall T × Answer T)) : List (Packet T) :=
  history.filterMap fun
    | (_, .pop q', .packet packet) | (_, .sendLoop q', .packet packet) =>
      if q' = q then some packet else none
    | _ => none

/-- An operation that takes the first packet of one queue. -/
theorem queue_take (net : TcpNetworking T) {q q' : Queue} {first : Packet T} {rest : List (Packet T)}
    (hq : net.queue q' = first :: rest) :
    net.queue q = (if q' = q then [first] else []) ++ (net.setQueue q' rest).queue q := by
  by_cases heq : q' = q
  · subst heq
    rw [if_pos rfl, TcpNetworking.queue_setQueue, hq]
    rfl
  · rw [if_neg heq, TcpNetworking.queue_setQueue_ne net rest (Ne.symm heq), List.nil_append]

omit [DecidableEq τ] in
/-- One operation: what is in a queue and what is pushed is what is removed and what stays. -/
theorem queue_of_performs {net net' : TcpNetworking T} {op : LockCall T} {value : Answer T}
    {goesOn : Bool} (h : Performs op net value goesOn net') (t : τ) (q : Queue) :
    net.queue q ++ pushed q [(t, op, value)] = removed q [(t, op, value)] ++ net'.queue q := by
  cases h with
  | push _ q' packet =>
    by_cases heq : q' = q
    · subst heq
      simp [pushed, removed, TcpNetworking.push]
    · simp [pushed, removed, heq, TcpNetworking.push,
        TcpNetworking.queue_setQueue_ne net _ (Ne.symm heq)]
  | pop _ q' first rest hq' | sendLoopTakes _ q' first rest hq' =>
    have hremoved : removed q [(t, (.pop q' : LockCall T), .packet first)] =
        if q' = q then [first] else [] := by
      by_cases heq : q' = q <;> simp [removed, heq]
    rw [queue_take net hq', ← hremoved]
    exact List.append_nil _
  | disconnect => cases q <;> exact List.append_nil _
  | _ => exact List.append_nil _

omit [DecidableEq τ] in
/-- What a sequential session pushes into a queue it takes out again, in order. -/
theorem queue_of_legal {net net' : TcpNetworking T} {history : List (τ × LockCall T × Answer T)}
    (h : Legal Performs net history net') (q : Queue) :
    net.queue q ++ pushed q history = removed q history ++ net'.queue q := by
  induction h with
  | nil => exact List.append_nil _
  | concat t op value goesOn hlegal hperform ih =>
    have hstep := queue_of_performs hperform t q
    rw [pushed, removed, List.filterMap_append, List.filterMap_append, ← pushed, ← removed] at *
    rw [← List.append_assoc, ih, List.append_assoc, List.append_assoc]
    exact congrArg _ hstep

/-- **First in, first out**, whatever the threads do at once: the packets that
were pushed into a queue are those taken from it, in order, and then those in it. -/
theorem queues_fifo (ls : List (LockLabel τ T)) (s : TcpLocks τ T)
    (hrun : run TcpLocks.step {} ls = some s) :
    ∃ a : AtomicSession τ T,
      Traces (Step Performs) { object := {} } (trace TcpLocks.step event {} ls) a ∧
        ∀ q, pushed q a.history = removed q a.history ++ s.net.queue q := by
  obtain ⟨a, htraces, h⟩ := simulates.traces .init (.of_forall (fun _ _ => trivial) _ _) hrun
  refine ⟨a, htraces, fun q => ?_⟩
  have hqueue := queue_of_legal (legal_of_traces htraces) q
  rw [h.object] at hqueue
  cases q <;> exact hqueue

theorem queues_fifo_pop : ∃ a : AtomicSession (Fin 2) Unit,
    Traces (Step Performs) { object := {} }
      [.call 0 (.pop .request), .call 1 (.push .request {}), .answer 0 (.packet {}),
        .answer 1 .nothing] a ∧
      ∀ q, pushed q a.history = removed q a.history ++ ({} : TcpNetworking Unit).queue q :=
  queues_fifo (popWaitsForPush {}) _ rfl

end TcpLocks
end Ttp2
