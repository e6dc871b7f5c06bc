import Ttp2.TcpNetworking
import Ttp2.Lib.Lts
import Ttp2.Lib.LockOrder

/-! # The mutexes of a session

Any number of threads call the public operations of `TcpNetworking` that lock
or run a send loop; the receive loops are threads that call `isConnected`, a
push and, on the server, `disconnect`. `sendMessage`, `sendPacket` and
`receiveMessage` lock nothing and are not among the calls. A thread runs from
one lock to the next. A function that another one calls keeps its caller. The
mutexes are not recursive: a thread gets one only while nobody holds it. -/
namespace Ttp2
open Lib Lts LockOrder

/-- The mutex of a queue, and `connectedMutex`. -/
inductive Mutex where
  | queue (q : Queue)
  | connected
  deriving DecidableEq

/-- What a peek returns: id and payload. -/
structure PacketInfo (T : Type) where
  id : Int32
  payloadType : Packet.PayloadVariants T

/-- What a call returned; a peek outside the queue leaves the id uninitialised. -/
inductive Answer (T : Type) where
  | nothing
  | flag (b : Bool)
  | size (n : Int32)
  | packet (packet : Packet T)
  | info (info : Option (PacketInfo T))

/-- Who called `isConnected`: a user, `while (isConnected())` of a send loop,
or the predicate of its wait. -/
inductive ConnectedCaller where
  | user
  | loopTest (q : Queue)
  | predicate (q : Queue)
  deriving DecidableEq

/-- Who called `getRequestQueueSize` or `getResponseQueueSize`. -/
inductive SizeCaller where
  | user
  | peekResponse (index : Int32)
  | peekRequest (index : Int32)
  deriving DecidableEq

/-- Where a thread is. A function's own name is the place before its lock. -/
inductive LockPc (T : Type) where
  | idle (answer : Answer T)
  | isConnected (caller : ConnectedCaller)
  | isConnectedRead (caller : ConnectedCaller)
  | disconnect
  | disconnectBody
  | has (q : Queue)
  | hasRead (q : Queue)
  | size (q : Queue) (caller : SizeCaller)
  | sizeRead (q : Queue) (caller : SizeCaller)
  | push (q : Queue) (packet : Packet T)
  | pushAppend (q : Queue) (packet : Packet T)
  /-- the lock released, before `notify_one` -/
  | pushNotify (q : Queue)
  | pop (q : Queue)
  /-- before the predicate `!queue.empty() || !connected` -/
  | popTest (q : Queue)
  | popParked (q : Queue)
  | popRead (q : Queue)
  /-- the size read and its lock released, before the comparison -/
  | peekResponseCheck (index size : Int32)
  | peekResponse (index : Int32)
  | peekResponseRead (index : Int32)
  | peekRequest (index : Int32)
  | peekRequestRead (index size : Int32)
  | sendLoop (q : Queue)
  /-- before the predicate `!queue.empty() || !isConnected()` -/
  | sendLoopTest (q : Queue)
  | sendLoopParked (q : Queue)
  | sendLoopRead (q : Queue)
  /-- in `sendPacket` -/
  | sendLoopSend (q : Queue)

/-- A call of a public operation, or the start of a send loop. -/
inductive LockCall (T : Type) where
  | isConnected
  | disconnect
  | has (q : Queue)
  | size (q : Queue)
  | push (q : Queue) (packet : Packet T)
  | pop (q : Queue)
  | peekResponse (index : Int32)
  | peekRequest (index : Int32)
  | sendLoop (q : Queue)

inductive LockLabel (τ T : Type) where
  | call (t : τ) (c : LockCall T)
  | lock (t : τ)
  /-- the code up to the next lock, or the end of the call -/
  | run (t : τ)
  /-- a parked thread is notified, or wakes by itself -/
  | wake (t : τ)

structure TcpLocks (τ T : Type) where
  net : TcpNetworking T := {}
  owner : Mutex → Option τ := fun _ => none
  pc : τ → LockPc T := fun _ => .idle .nothing

namespace TcpNetworking
variable {T : Type}

/-- `return queue.size()`, as an `int`. -/
def queueSize (net : TcpNetworking T) (q : Queue) : Int32 := .ofNat (net.queue q).length

/-- `index > size - 1 || index < 0` -/
def invalidPeek (index size : Int32) : Bool := index > size - 1 || index < 0

/-- Element `index`; undefined beyond the end. -/
def peek (net : TcpNetworking T) (q : Queue) (index : Int32) : Option (PacketInfo T) :=
  (net.queue q)[index.toInt.toNat]?.map fun packet => ⟨packet.id, packet.payload⟩

end TcpNetworking

namespace LockPc
variable {T : Type}

/-- The first place of a call. -/
def enter : LockCall T → LockPc T
  | .isConnected => .isConnected .user
  | .disconnect => .disconnect
  | .has q => .has q
  | .size q => .size q .user
  | .push q packet => .push q packet
  | .pop q => .pop q
  | .peekResponse index => .size .response (.peekResponse index)
  | .peekRequest index => .peekRequest index
  | .sendLoop q => .isConnected (.loopTest q)

/-- The mutex a thread waits for, and where it is once it has it. -/
def lock : LockPc T → Option (Mutex × LockPc T)
  | .isConnected caller => some (.connected, .isConnectedRead caller)
  | .disconnect => some (.connected, .disconnectBody)
  | .has q => some (.queue q, .hasRead q)
  | .size q caller => some (.queue q, .sizeRead q caller)
  | .push q packet => some (.queue q, .pushAppend q packet)
  | .pop q => some (.queue q, .popTest q)
  | .peekResponse index => some (.queue .response, .peekResponseRead index)
  | .peekRequest index => some (.queue .request, .size .request (.peekRequest index))
  | .sendLoop q => some (.queue q, .sendLoopTest q)
  | _ => none

/-- The mutexes held at a place. -/
def holds : LockPc T → List Mutex
  | .isConnectedRead .user | .isConnectedRead (.loopTest _) | .disconnectBody => [.connected]
  | .isConnected (.predicate q) => [.queue q]
  | .isConnectedRead (.predicate q) => [.queue q, .connected]
  | .hasRead q | .sizeRead q .user | .sizeRead q (.peekResponse _) | .pushAppend q _ | .popTest q
  | .popRead q | .sendLoopTest q | .sendLoopRead q | .sendLoopSend q => [.queue q]
  | .peekResponseRead _ => [.queue .response]
  | .size _ (.peekRequest _) | .peekRequestRead _ _ => [.queue .request]
  | .sizeRead q (.peekRequest _) => [.queue .request, .queue q]
  | _ => []

/-- The code up to the next lock: the session then, what is unlocked, the next place. -/
def run (net : TcpNetworking T) : LockPc T → Option (TcpNetworking T × List Mutex × LockPc T)
  | .isConnectedRead .user => some (net, [.connected], .idle (.flag net.connected))
  | .isConnectedRead (.loopTest q) =>
    some (net, [.connected], if net.connected then .sendLoop q else .idle .nothing)
  | .isConnectedRead (.predicate q) =>
    if net.connected then some (net, [.connected, .queue q], .sendLoopParked q)
    else some (net, [.connected], .sendLoopRead q)
  | .disconnectBody => some (net.disconnect, [.connected], .idle .nothing)
  | .hasRead q => some (net, [.queue q], .idle (.flag (!(net.queue q).isEmpty)))
  | .sizeRead q .user => some (net, [.queue q], .idle (.size (net.queueSize q)))
  | .sizeRead q (.peekResponse index) =>
    some (net, [.queue q], .peekResponseCheck index (net.queueSize q))
  | .sizeRead q (.peekRequest index) =>
    some (net, [.queue q], .peekRequestRead index (net.queueSize q))
  | .pushAppend q packet => some (net.push q packet, [.queue q], .pushNotify q)
  | .pushNotify _ => some (net, [], .idle .nothing)
  | .popTest q =>
    if !(net.queue q).isEmpty || !net.connected then some (net, [], .popRead q)
    else some (net, [.queue q], .popParked q)
  | .popRead q => (net.pop q).map fun (first, net) => (net, [.queue q], .idle (.packet first))
  | .peekResponseCheck index n =>
    if TcpNetworking.invalidPeek index n then some (net, [], .idle (.info none))
    else some (net, [], .peekResponse index)
  | .peekResponseRead index =>
    (net.peek .response index).map fun info => (net, [.queue .response], .idle (.info (some info)))
  | .peekRequestRead index n =>
    if TcpNetworking.invalidPeek index n then
      some (net, [.queue .request], .idle (.info none))
    else (net.peek .request index).map fun info =>
      (net, [.queue .request], .idle (.info (some info)))
  | .sendLoopTest q =>
    if !(net.queue q).isEmpty then some (net, [], .sendLoopRead q)
    else some (net, [], .isConnected (.predicate q))
  | .sendLoopRead q => (net.pop q).map fun (_, net) => (net, [], .sendLoopSend q)
  | .sendLoopSend q => some (net, [.queue q], .isConnected (.loopTest q))
  | _ => none

/-- What the code up to the next lock can do, with the outcome of its tests. -/
inductive Runs (net : TcpNetworking T) :
    LockPc T → TcpNetworking T → List Mutex → LockPc T → Prop where
  | isConnected : Runs net (.isConnectedRead .user) net [.connected] (.idle (.flag net.connected))
  | loopGoesOn (q : Queue) (hconn : net.connected = true) :
      Runs net (.isConnectedRead (.loopTest q)) net [.connected] (.sendLoop q)
  | loopEnds (q : Queue) (hconn : net.connected = false) :
      Runs net (.isConnectedRead (.loopTest q)) net [.connected] (.idle .nothing)
  | loopParks (q : Queue) (hconn : net.connected = true) :
      Runs net (.isConnectedRead (.predicate q)) net [.connected, .queue q] (.sendLoopParked q)
  | loopLeaves (q : Queue) (hconn : net.connected = false) :
      Runs net (.isConnectedRead (.predicate q)) net [.connected] (.sendLoopRead q)
  | disconnect : Runs net .disconnectBody net.disconnect [.connected] (.idle .nothing)
  | has (q : Queue) :
      Runs net (.hasRead q) net [.queue q] (.idle (.flag (!(net.queue q).isEmpty)))
  | size (q : Queue) :
      Runs net (.sizeRead q .user) net [.queue q] (.idle (.size (net.queueSize q)))
  | sizePeekResponse (q : Queue) (index : Int32) :
      Runs net (.sizeRead q (.peekResponse index)) net [.queue q]
        (.peekResponseCheck index (net.queueSize q))
  | sizePeekRequest (q : Queue) (index : Int32) :
      Runs net (.sizeRead q (.peekRequest index)) net [.queue q]
        (.peekRequestRead index (net.queueSize q))
  | push (q : Queue) (packet : Packet T) :
      Runs net (.pushAppend q packet) (net.push q packet) [.queue q] (.pushNotify q)
  | notify (q : Queue) : Runs net (.pushNotify q) net [] (.idle .nothing)
  | popLeaves (q : Queue) (hready : (!(net.queue q).isEmpty || !net.connected) = true) :
      Runs net (.popTest q) net [] (.popRead q)
  | popParks (q : Queue) (hwait : (!(net.queue q).isEmpty || !net.connected) = false) :
      Runs net (.popTest q) net [.queue q] (.popParked q)
  | pop (q : Queue) (first : Packet T) (net' : TcpNetworking T)
      (hpop : net.pop q = some (first, net')) :
      Runs net (.popRead q) net' [.queue q] (.idle (.packet first))
  | peekResponseInvalid (index n : Int32) (hinvalid : TcpNetworking.invalidPeek index n = true) :
      Runs net (.peekResponseCheck index n) net [] (.idle (.info none))
  | peekResponseValid (index n : Int32) (hvalid : TcpNetworking.invalidPeek index n = false) :
      Runs net (.peekResponseCheck index n) net [] (.peekResponse index)
  | peekResponse (index : Int32) (info : PacketInfo T)
      (hinfo : net.peek .response index = some info) :
      Runs net (.peekResponseRead index) net [.queue .response] (.idle (.info (some info)))
  | peekRequestInvalid (index n : Int32) (hinvalid : TcpNetworking.invalidPeek index n = true) :
      Runs net (.peekRequestRead index n) net [.queue .request] (.idle (.info none))
  | peekRequest (index n : Int32) (info : PacketInfo T)
      (hvalid : TcpNetworking.invalidPeek index n = false)
      (hinfo : net.peek .request index = some info) :
      Runs net (.peekRequestRead index n) net [.queue .request] (.idle (.info (some info)))
  | sendLoopLeaves (q : Queue) (hready : (!(net.queue q).isEmpty) = true) :
      Runs net (.sendLoopTest q) net [] (.sendLoopRead q)
  | sendLoopAsks (q : Queue) (hwait : (!(net.queue q).isEmpty) = false) :
      Runs net (.sendLoopTest q) net [] (.isConnected (.predicate q))
  | sendLoopPop (q : Queue) (first : Packet T) (net' : TcpNetworking T)
      (hpop : net.pop q = some (first, net')) :
      Runs net (.sendLoopRead q) net' [] (.sendLoopSend q)
  | sendLoopSend (q : Queue) :
      Runs net (.sendLoopSend q) net [.queue q] (.isConnected (.loopTest q))

theorem runs_of_run {net net' : TcpNetworking T} {p p' : LockPc T} {mutexes : List Mutex}
    (h : p.run net = some (net', mutexes, p')) : Runs net p net' mutexes p' := by
  cases p with
  | isConnectedRead caller =>
    cases caller with
    | user =>
      cases h
      exact .isConnected
    | loopTest q =>
      cases hconn : net.connected with
      | true =>
        simp only [run, hconn] at h
        cases h
        exact .loopGoesOn q hconn
      | false =>
        simp only [run, hconn] at h
        cases h
        exact .loopEnds q hconn
    | predicate q =>
      simp only [run] at h
      split at h
      · rename_i hconn
        cases h
        exact .loopParks q hconn
      · rename_i hconn
        cases h
        exact .loopLeaves q (Bool.eq_false_of_not_eq_true hconn)
  | disconnectBody =>
    cases h
    exact .disconnect
  | hasRead q =>
    cases h
    exact .has q
  | sizeRead q caller =>
    cases caller with
    | user =>
      cases h
      exact .size q
    | peekResponse index =>
      cases h
      exact .sizePeekResponse q index
    | peekRequest index =>
      cases h
      exact .sizePeekRequest q index
  | pushAppend q packet =>
    cases h
    exact .push q packet
  | pushNotify q =>
    cases h
    exact .notify q
  | popTest q =>
    simp only [run] at h
    split at h
    · rename_i hready
      cases h
      exact .popLeaves q hready
    · rename_i hwait
      cases h
      exact .popParks q (Bool.eq_false_of_not_eq_true hwait)
  | popRead q =>
    obtain ⟨⟨first, popped⟩, hpop, h⟩ := Option.map_eq_some_iff.mp h
    cases h
    exact .pop q first _ hpop
  | peekResponseCheck index n =>
    simp only [run] at h
    split at h
    · rename_i hinvalid
      cases h
      exact .peekResponseInvalid index n hinvalid
    · rename_i hvalid
      cases h
      exact .peekResponseValid index n (Bool.eq_false_of_not_eq_true hvalid)
  | peekResponseRead index =>
    obtain ⟨info, hinfo, h⟩ := Option.map_eq_some_iff.mp h
    cases h
    exact .peekResponse index info hinfo
  | peekRequestRead index n =>
    simp only [run] at h
    split at h
    · rename_i hinvalid
      cases h
      exact .peekRequestInvalid index n hinvalid
    · rename_i hvalid
      obtain ⟨info, hinfo, h⟩ := Option.map_eq_some_iff.mp h
      cases h
      exact .peekRequest index n info (Bool.eq_false_of_not_eq_true hvalid) hinfo
  | sendLoopTest q =>
    simp only [run] at h
    split at h
    · rename_i hready
      cases h
      exact .sendLoopLeaves q hready
    · rename_i hwait
      cases h
      exact .sendLoopAsks q (Bool.eq_false_of_not_eq_true hwait)
  | sendLoopRead q =>
    obtain ⟨⟨first, popped⟩, hpop, h⟩ := Option.map_eq_some_iff.mp h
    cases h
    exact .sendLoopPop q first _ hpop
  | sendLoopSend q =>
    cases h
    exact .sendLoopSend q
  | _ => cases h

end LockPc

namespace TcpLocks
variable {τ T : Type} [DecidableEq τ]

def goto (s : TcpLocks τ T) (t : τ) (p : LockPc T) : TcpLocks τ T :=
  { s with pc := Function.update s.pc t p }

/-- The mutexes in the list are free afterwards. -/
def unlock (s : TcpLocks τ T) (mutexes : List Mutex) : TcpLocks τ T :=
  { s with owner := fun m => if m ∈ mutexes then none else s.owner m }

def step (s : TcpLocks τ T) : LockLabel τ T → Option (TcpLocks τ T)
  | .call t c =>
    match s.pc t with
    | .idle _ => some (s.goto t (.enter c))
    | _ => none
  | .lock t =>
    (s.pc t).lock.bind fun (m, p) =>
      if s.owner m = none then
        some { s.goto t p with owner := Function.update s.owner m (some t) }
      else none
  | .run t => ((s.pc t).run s.net).map fun (net, mutexes, p) => { (s.unlock mutexes).goto t p with net }
  | .wake t =>
    match s.pc t with
    | .popParked q => some (s.goto t (.pop q))
    | .sendLoopParked q => some (s.goto t (.sendLoop q))
    | _ => none

/-! ## What a step can do -/

inductive Moves (s : TcpLocks τ T) : LockLabel τ T → TcpLocks τ T → Prop where
  | call (t : τ) (c : LockCall T) (answer : Answer T) (hpc : s.pc t = .idle answer) :
      Moves s (.call t c) (s.goto t (.enter c))
  | lock (t : τ) (m : Mutex) (p : LockPc T) (hlock : (s.pc t).lock = some (m, p))
      (hfree : s.owner m = none) : Moves s (.lock t)
        { s.goto t p with owner := Function.update s.owner m (some t) }
  | run (t : τ) (net : TcpNetworking T) (mutexes : List Mutex) (p : LockPc T)
      (hrun : (s.pc t).run s.net = some (net, mutexes, p)) :
      Moves s (.run t) { (s.unlock mutexes).goto t p with net }
  | wake (t : τ) (p : LockPc T) (hpc : ∃ q, s.pc t = .popParked q ∧ p = .pop q ∨
      s.pc t = .sendLoopParked q ∧ p = .sendLoop q) : Moves s (.wake t) (s.goto t p)

theorem moves_of_step {s s' : TcpLocks τ T} {l : LockLabel τ T} (h : step s l = some s') :
    Moves s l s' := by
  cases l with
  | call t c =>
    simp only [step] at h
    split at h
    · rename_i answer hpc
      cases h
      exact .call t c answer hpc
    · cases h
  | lock t =>
    obtain ⟨⟨m, p⟩, hlock, h⟩ := Option.bind_eq_some_iff.mp h
    dsimp only at h
    split at h
    · rename_i hfree
      cases h
      exact .lock t m p hlock hfree
    · cases h
  | run t =>
    obtain ⟨⟨net, mutexes, p⟩, hrun, rfl⟩ := Option.map_eq_some_iff.mp h
    exact .run t net mutexes p hrun
  | wake t =>
    simp only [step] at h
    split at h
    · rename_i q hpc
      cases h
      exact .wake t _ ⟨q, .inl ⟨hpc, rfl⟩⟩
    · rename_i q hpc
      cases h
      exact .wake t _ ⟨q, .inr ⟨hpc, rfl⟩⟩
    · cases h

end TcpLocks

end Ttp2
