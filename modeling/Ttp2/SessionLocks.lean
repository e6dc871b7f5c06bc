import Ttp2.SessionStream
import Ttp2.TcpRaces
import Ttp2.Lib.Reach
import Ttp2.Lib.Simulation

/-! # A session lock by lock

`SessionController` delivers a packet, takes one or disconnects in one step;
`TcpLocks` says where the threads are between two locks, whatever they do
there. Here they are one session: its two threads and any number of users go
from lock to lock, and the two make their system calls between. Every run of
it is one of both (`refines_both`). `recv` and the `disconnect` it leads to when it
returns 0 are one step of `SessionController`; here the thread waits for
`connectedMutex` between the two, and the step is the second. -/
namespace Ttp2
open Lib Lts Reach Simulation

/-- The two threads of `networkingSession`, and those that use the session. -/
inductive SessionThread (τ : Type) where
  | sender
  | receiver
  | caller (t : τ)
  deriving DecidableEq

structure SessionLocks (τ T : Type) where
  session : SessionController T := {}
  owner : Mutex → Option (SessionThread τ) := fun _ => none
  pc : SessionThread τ → LockPc T := fun _ => .idle .nothing

inductive SessionLocksLabel (τ T : Type) where
  | call (t : τ) (c : LockCall T)
  /-- a thread of the session makes its next call -/
  | next (u : SessionThread τ)
  | lock (u : SessionThread τ)
  | run (u : SessionThread τ)
  | wake (u : SessionThread τ)
  /-- the send loop reads element 0 of an empty queue -/
  | undefined
  /-- a system call, or what the session does without a lock -/
  | outside (l : SessionLabel T)

/-- What the mutexes protect. -/
def TcpNetworking.shared {T : Type} (net : TcpNetworking T) : TcpNetworking T :=
  { net with sessionBuffers := fun _ => [], autoId := 0 }

def LockPc.isIdle {T : Type} : LockPc T → Bool
  | .idle _ => true
  | _ => false

namespace SessionLocks
variable {τ T : Type}

/-- The threads, their mutexes and what these protect. -/
def locks (s : SessionLocks τ T) : TcpLocks (SessionThread τ) T where
  net := s.session.net.shared
  owner := s.owner
  pc := s.pc

/-- Users fill the queue the send thread empties, and empty the other. -/
def intended (role : Role) : LockCall T → Bool
  | .push q _ => q = role.sends
  | .pop q => q = role.receives
  | .sendLoop _ => false
  | _ => true

/-- The next call of a thread of the session. At `recv` it is the `disconnect`
of a `recv` that has returned 0. -/
def nextCall (role : Role) (x : SessionController T) : SessionThread τ → Option (LockCall T)
  | .sender => if x.sender = .loopTest then some (.sendLoop role.sends) else none
  | .receiver =>
    match x.receiver with
    | .loopTest | .recvTest => some .isConnected
    | .hangUp | .recv => some .disconnect
    | .received packet => if packet.id = -1 then none else some (.push role.receives packet)
    | .waiting | .cut | .finished => none
  | .caller _ => none

/-! ## The code between two locks -/

def callerAfter (x : SessionController T) : LockPc T → Option (SessionController T)
  | .pushAppend q packet =>
    some { x with net := x.net.push q packet, submitted := x.submitted ++ [packet] }
  | .popRead q =>
    (x.net.pop q).map fun (packet, net) => { x with net, popped := x.popped ++ [packet] }
  | .disconnectBody => some x.disconnect
  | _ => some x

def receiverAfter (x : SessionController T) : LockPc T → Option (SessionController T)
  | .isConnectedRead _ =>
    match x.receiver with
    | .loopTest => some { x with receiver := if x.net.connected then .waiting else .finished }
    | .recvTest => some { x with receiver := if x.net.connected then .recv else .cut }
    | _ => none
  | .disconnectBody =>
    match x.receiver with
    | .hangUp => some { x.disconnect with receiver := .loopTest }
    | .recv =>
      let x := { x with calls := x.calls ++ [Call.recv] }
      some { x.disconnect with ended := true, receiver := .received {} }
    | _ => none
  | .pushAppend q packet =>
    some { x with net := x.net.push q packet, delivered := x.delivered ++ [packet],
                  receiver := .loopTest }
  | _ => some x

def senderAfter (L : Libraries) (x : SessionController L.arrow.Table) :
    LockPc L.arrow.Table → Option (SessionController L.arrow.Table)
  | .isConnectedRead (.loopTest _) =>
    some { x with sender := if x.net.connected then .waiting else .finished }
  | .sendLoopRead q =>
    if x.sender = .waiting then
      (x.net.pop q).map fun (packet, net) =>
        let (id, autoId) := assignId net.autoId packet.id
        { x with
          net := { net with autoId }
          taken := x.taken ++ [packet]
          sender := .ofEncoded (Encode.encode L packet.payload id) }
    else none
  -- `sendPacket` has returned
  | .sendLoopSend _ => if x.sender = .loopTest then some x else none
  | _ => some x

def after (L : Libraries) (x : SessionController L.arrow.Table) :
    SessionThread τ → LockPc L.arrow.Table → Option (SessionController L.arrow.Table)
  | .sender => senderAfter L x
  | .receiver => receiverAfter x
  | .caller _ => callerAfter x

/-- What the session does without a lock, the thread it is for being there. -/
def isOutside (s : SessionLocks τ T) : SessionLabel T → Bool
  | .arrive _ | .fin => true
  | .epollWait _ | .recv (.bytes _) | .recv .again | .recv .error | .cutFrame =>
    (s.pc .receiver).isIdle
  -- `if (packet.id == -1) continue;`
  | .dispatch =>
    match s.session.receiver with
    | .received packet => (s.pc .receiver).isIdle && packet.id = -1
    | _ => false
  | .send _ =>
    match s.pc .sender with
    | .sendLoopSend _ => true
    | _ => false
  | .recv .closed | .loopTest | .hangUpDisconnect | .recvTest | .sendTest | .take | .push _ | .pop
  | .disconnect => false

variable [DecidableEq τ]

/-- A thread goes on as far as its mutexes let it. -/
def goes (s : SessionLocks τ T) (l : LockLabel (SessionThread τ) T) : Option (SessionLocks τ T) :=
  (TcpLocks.step s.locks l).map fun t => { s with owner := t.owner, pc := t.pc }

def step (L : Libraries) (role : Role) (socket : Int) (s : SessionLocks τ L.arrow.Table) :
    SessionLocksLabel τ L.arrow.Table → Option (SessionLocks τ L.arrow.Table)
  | .call t c => if intended role c then s.goes (.call (.caller t) c) else none
  | .next u => (nextCall role s.session u).bind fun c => s.goes (.call u c)
  | .lock u => s.goes (.lock u)
  | .wake u => s.goes (.wake u)
  | .run u =>
    (s.goes (.run u)).bind fun t =>
      (after L s.session u (s.pc u)).map fun session => { t with session }
  | .undefined =>
    match s.pc .sender with
    | .sendLoopRead q =>
      if s.session.sender = .waiting ∧ s.session.net.queue q = [] then
        some { s with session := { s.session with sender := .undefined } }
      else none
    | _ => none
  | .outside l =>
    if s.isOutside l then
      (SessionController.step L role socket s.session l).map fun session => { s with session }
    else none

/-! ## What is shown

The answers of the system calls. That a `recv` returned 0 is shown with the
`disconnect` behind it. -/

def shown {T : Type} : SessionLabel T → Option (SessionLabel T)
  | .arrive bytes => some (.arrive bytes)
  | .fin => some .fin
  | .epollWait result => some (.epollWait result)
  | .recv answer => some (.recv answer)
  | .send result => some (.send result)
  | _ => none

/-- A step of `SessionController`, with what it shows. -/
def Shows (L : Libraries) (role : Role) (socket : Int) (x : SessionController L.arrow.Table)
    (e : Option (SessionLabel L.arrow.Table)) (y : SessionController L.arrow.Table) : Prop :=
  ∃ l, shown l = e ∧ SessionController.step L role socket x l = some y

def closes {T : Type} : LockPc T → ReceiverPc T → Option (SessionLabel T)
  | .disconnectBody, .recv => some (.recv .closed)
  | _, _ => none

def event (s : SessionLocks τ T) (l : SessionLocksLabel τ T) (_ : SessionLocks τ T) :
    Option (SessionLabel T) :=
  match l with
  | .outside l => shown l
  | .run .receiver => closes (s.pc .receiver) s.session.receiver
  | _ => none

/-! ## Where the threads are -/

/-- Where the send thread is between two locks, for where it is in its loop. -/
def SenderAt (role : Role) (x : SessionController T) : LockPc T → Prop
  | .idle _ => x.sender = .loopTest ∨ x.sender = .finished
  | .isConnected (.loopTest q) | .isConnectedRead (.loopTest q) =>
    q = role.sends ∧ x.sender = .loopTest
  | .sendLoop q | .sendLoopTest q | .sendLoopParked q | .isConnected (.predicate q)
  | .isConnectedRead (.predicate q) => q = role.sends ∧ x.sender = .waiting
  | .sendLoopRead q =>
    q = role.sends ∧ (x.sender = .waiting ∨ x.sender = .undefined) ∧
      (x.net.queue q = [] → x.net.connected = false)
  | .sendLoopSend q =>
    q = role.sends ∧ ((∃ sending, x.sender = .sending sending) ∨ x.sender = .loopTest ∨
      x.sender = .terminated)
  | _ => False

def ReceiverAt (role : Role) (x : SessionController T) : LockPc T → Prop
  | .idle _ | .pushNotify _ => True
  | .isConnected caller | .isConnectedRead caller =>
    caller = .user ∧ (x.receiver = .loopTest ∨ x.receiver = .recvTest)
  | .disconnect | .disconnectBody => x.receiver = .hangUp ∨ x.receiver = .recv
  | .push q packet | .pushAppend q packet =>
    q = role.receives ∧ packet.id ≠ -1 ∧ x.receiver = .received packet
  | _ => False

/-- A user makes the calls it is meant to make. -/
def CallerAt (role : Role) : LockPc T → Prop
  | .push q _ | .pushAppend q _ => q = role.sends
  | .pop q | .popTest q | .popParked q | .popRead q => q = role.receives
  | .isConnected caller | .isConnectedRead caller => caller = .user
  | .sendLoop _ | .sendLoopTest _ | .sendLoopParked _ | .sendLoopRead _ | .sendLoopSend _ => False
  | _ => True

def At (role : Role) (x : SessionController T) : SessionThread τ → LockPc T → Prop
  | .sender => SenderAt role x
  | .receiver => ReceiverAt role x
  | .caller _ => CallerAt role

/-- What a thread relies on is kept. -/
def Keeps (role : Role) (x y : SessionController T) : SessionThread τ → Prop
  | .sender => y.sender = x.sender ∧ (y.net.queue role.sends = [] → x.net.queue role.sends = []) ∧
      (x.net.connected = false → y.net.connected = false)
  | .receiver => y.receiver = x.receiver
  | .caller _ => True

variable {role : Role} {x y : SessionController T} {p : LockPc T}

omit [DecidableEq τ] in
theorem Keeps.refl (role : Role) (x : SessionController T) (u : SessionThread τ) :
    Keeps role x x u := by
  cases u with
  | sender => exact ⟨rfl, id, id⟩
  | receiver => rfl
  | caller t => trivial

omit [DecidableEq τ] in
theorem SenderAt.of_keeps (h : SenderAt role x p) (hk : Keeps (τ := τ) role x y .sender) :
    SenderAt role y p := by
  obtain ⟨hsender, hqueue, hconn⟩ := hk
  cases p with
  | isConnected caller | isConnectedRead caller =>
    cases caller <;> simp only [SenderAt, hsender] at h ⊢ <;> exact h
  | sendLoopRead q =>
    obtain ⟨rfl, hs, hempty⟩ := h
    exact ⟨rfl, hsender ▸ hs, fun hq => hconn (hempty (hqueue hq))⟩
  | _ => simp only [SenderAt, hsender] at h ⊢ <;> exact h

omit [DecidableEq τ] in
theorem At.of_keeps {u : SessionThread τ} (h : At role x u p) (hk : Keeps role x y u) :
    At role y u p := by
  cases u with
  | sender => exact SenderAt.of_keeps h hk
  | receiver =>
    have hreceiver : y.receiver = x.receiver := hk
    cases p <;> simp only [At, ReceiverAt, hreceiver] at h ⊢ <;> exact h
  | caller t => exact h

omit [DecidableEq τ] in
theorem Keeps.push {q : Queue} {packet : Packet T} (hsender : y.sender = x.sender)
    (hnet : y.net = x.net.push q packet) : Keeps (τ := τ) role x y .sender := by
  refine ⟨hsender, fun hempty => ?_, fun hconn => ?_⟩
  · rw [hnet, TcpNetworking.push] at hempty
    by_cases hq : role.sends = q
    · subst hq
      simp at hempty
    · rwa [TcpNetworking.queue_setQueue_ne _ _ hq] at hempty
  · rw [hnet, ← hconn]
    exact TcpNetworking.connected_setQueue ..

omit [DecidableEq τ] in
/-- A pop leaves the queue of the send thread alone. -/
theorem Keeps.pop {packets : List (Packet T)} (hsender : y.sender = x.sender)
    (hnet : y.net = x.net.setQueue role.receives packets) : Keeps (τ := τ) role x y .sender := by
  refine ⟨hsender, fun hempty => ?_, fun hconn => ?_⟩
  · rwa [hnet, TcpNetworking.queue_setQueue_ne _ _ (Role.sends_ne_receives role)] at hempty
  · rw [hnet, ← hconn]
    exact TcpNetworking.connected_setQueue ..

omit [DecidableEq τ] in
theorem Keeps.disconnect (hsender : y.sender = x.sender) (hnet : y.net = x.net.disconnect) :
    Keeps (τ := τ) role x y .sender := by
  refine ⟨hsender, fun hempty => ?_, fun _ => by rw [hnet]; rfl⟩
  rw [hnet] at hempty
  cases role <;> exact hempty

/-! ## The code between two locks, in `SessionController` -/

@[simp] theorem queue_shared (net : TcpNetworking T) (q : Queue) :
    net.shared.queue q = net.queue q := by
  cases q <;> rfl

@[simp] theorem connected_shared (net : TcpNetworking T) :
    net.shared.connected = net.connected := rfl

theorem shared_setQueue (net : TcpNetworking T) (q : Queue) (packets : List (Packet T)) :
    (net.setQueue q packets).shared = net.shared.setQueue q packets := by
  cases q <;> rfl

theorem shared_push (net : TcpNetworking T) (q : Queue) (packet : Packet T) :
    (net.push q packet).shared = net.shared.push q packet := by
  rw [TcpNetworking.push, shared_setQueue, TcpNetworking.push, queue_shared]

/-- The code of a thread between two locks, for the session: the mutexes see
the same, the thread is where it says, the others keep what they rely on, and
`SessionController` goes along. -/
structure Follows (L : Libraries) (role : Role) (socket : Int) (x : SessionController L.arrow.Table)
    (u : SessionThread τ) (e : Option (SessionLabel L.arrow.Table))
    (net : TcpNetworking L.arrow.Table) (p : LockPc L.arrow.Table)
    (y : SessionController L.arrow.Table) : Prop where
  net : y.net.shared = net
  place : At role y u p
  keeps : ∀ v ≠ u, Keeps role x y v
  answered : Traces (Shows L role socket) x e.toList y

variable {L : Libraries} {socket : Int} {u : SessionThread τ}

omit [DecidableEq τ] in
theorem Follows.quiet {x : SessionController L.arrow.Table} {p : LockPc L.arrow.Table}
    (hplace : At role x u p) : Follows L role socket x u none x.net.shared p x :=
  ⟨rfl, hplace, fun v _ => .refl role x v, .nil x⟩

omit [DecidableEq τ] in
theorem caller_follows {x y : SessionController L.arrow.Table} {p p' : LockPc L.arrow.Table}
    {net : TcpNetworking L.arrow.Table} {mutexes : List Mutex} {t : τ} (hat : CallerAt role p)
    (hlocked : ∀ packet, p = .pushAppend role.sends packet → x.sendLocked = false)
    (hruns : LockPc.Runs x.net.shared p net mutexes p') (hafter : callerAfter x p = some y) :
    Follows L role socket x (.caller t) none net p' y := by
  have hkeeps : ∀ y : SessionController L.arrow.Table, y.receiver = x.receiver →
      Keeps (τ := τ) role x y .sender → ∀ v ≠ SessionThread.caller t, Keeps role x y v := by
    intro y hreceiver hsender v _
    cases v with
    | sender => exact hsender
    | receiver => exact hreceiver
    | caller _ => trivial
  cases hruns with
  | push q packet =>
    obtain rfl : q = role.sends := hat
    cases hafter
    refine ⟨shared_push _ _ _, trivial, hkeeps _ rfl (.push rfl rfl),
      .single ⟨.push packet, rfl, ?_⟩⟩
    simp only [SessionController.step, hlocked packet rfl]
    rfl
  | pop q first net hpop =>
    obtain rfl : q = role.receives := hat
    obtain ⟨rest, hq, rfl⟩ := TcpNetworking.pop_eq_some hpop
    obtain ⟨⟨packet, popped⟩, hpop', rfl⟩ := Option.map_eq_some_iff.mp hafter
    have hstep : SessionController.step L role socket x .pop =
        some { x with net := popped, popped := x.popped ++ [packet] } := by
      rw [SessionController.step, hpop']
      rfl
    obtain ⟨rest', hq', rfl⟩ := TcpNetworking.pop_eq_some hpop'
    rw [queue_shared, hq'] at hq
    cases hq
    exact ⟨shared_setQueue _ _ _, trivial, hkeeps _ rfl (.pop rfl rfl),
      .single ⟨.pop, rfl, hstep⟩⟩
  | disconnect =>
    cases hafter
    exact ⟨rfl, trivial, hkeeps _ rfl (.disconnect rfl rfl),
      .single ⟨.disconnect, rfl, rfl⟩⟩
  | loopGoesOn q hconn | loopEnds q hconn | loopParks q hconn | loopLeaves q hconn => cases hat
  | sendLoopLeaves q hready | sendLoopAsks q hwait | sendLoopPop q first net hpop
  | sendLoopSend q => exact hat.elim
  | popLeaves q hready | popParks q hwait =>
    cases hafter
    exact .quiet (u := .caller t) hat
  | _ =>
    cases hafter
    exact .quiet (u := .caller t) trivial

omit [DecidableEq τ] in
theorem receiver_follows {x y : SessionController L.arrow.Table} {p p' : LockPc L.arrow.Table}
    {net : TcpNetworking L.arrow.Table} {mutexes : List Mutex} (hat : ReceiverAt role x p)
    (hruns : LockPc.Runs x.net.shared p net mutexes p') (hafter : receiverAfter x p = some y) :
    Follows (τ := τ) L role socket x .receiver (closes p x.receiver) net p' y := by
  -- the others do not look at where it is
  have hkeeps : ∀ y : SessionController L.arrow.Table, Keeps (τ := τ) role x y .sender →
      ∀ v ≠ SessionThread.receiver, Keeps (τ := τ) role x y v := by
    intro y hsender v hv
    cases v with
    | sender => exact hsender
    | receiver => exact absurd rfl hv
    | caller t => trivial
  cases hruns with
  | isConnected =>
    obtain ⟨-, hr | hr⟩ := hat
    · simp only [receiverAfter, hr] at hafter
      cases hafter
      exact ⟨rfl, trivial, hkeeps _ ⟨rfl, id, id⟩, .single ⟨.loopTest, rfl, by
        simp only [SessionController.step, hr]⟩⟩
    · simp only [receiverAfter, hr] at hafter
      cases hafter
      exact ⟨rfl, trivial, hkeeps _ ⟨rfl, id, id⟩, .single ⟨.recvTest, rfl, by
        simp only [SessionController.step, hr]⟩⟩
  | disconnect =>
    rcases hat with hr | hr
    · simp only [receiverAfter, hr] at hafter
      cases hafter
      exact ⟨rfl, trivial, hkeeps _ (.disconnect rfl rfl), .single ⟨.hangUpDisconnect, by
        rw [hr]; rfl, by simp only [SessionController.step, hr]⟩⟩
    · simp only [receiverAfter, hr] at hafter
      cases hafter
      exact ⟨rfl, trivial, hkeeps _ (.disconnect rfl rfl), .single ⟨.recv .closed, by
        rw [hr]; rfl, by simp only [SessionController.step, hr]; rfl⟩⟩
  | push q packet =>
    obtain ⟨rfl, hid, hr⟩ := hat
    cases hafter
    refine ⟨shared_push _ _ _, trivial, hkeeps _ (.push rfl rfl), .single ⟨.dispatch, rfl, ?_⟩⟩
    simp only [SessionController.step, hr, SessionController.dispatch, if_neg hid]
  | notify q =>
    cases hafter
    exact .quiet (u := .receiver) trivial
  | loopGoesOn q hconn | loopEnds q hconn | loopParks q hconn | loopLeaves q hconn => cases hat.1
  | _ => exact hat.elim

theorem ofEncoded_cases (e : Except Exception Bytes) :
    (∃ sending, SenderPc.ofEncoded e = .sending sending) ∨ SenderPc.ofEncoded e = .loopTest ∨
      SenderPc.ofEncoded e = .terminated := by
  cases e with
  | ok buffer => exact .inl ⟨_, rfl⟩
  | error e =>
    cases e with
    | invalidArgument what => exact .inr (.inl rfl)
    | lengthError => exact .inr (.inr rfl)

omit [DecidableEq τ] in
theorem sender_follows {x y : SessionController L.arrow.Table} {p p' : LockPc L.arrow.Table}
    {net : TcpNetworking L.arrow.Table} {mutexes : List Mutex} (hat : SenderAt role x p)
    (hruns : LockPc.Runs x.net.shared p net mutexes p') (hafter : senderAfter L x p = some y) :
    Follows (τ := τ) L role socket x .sender none net p' y := by
  have hkeeps : ∀ y : SessionController L.arrow.Table, y.receiver = x.receiver →
      ∀ v ≠ SessionThread.sender, Keeps (τ := τ) role x y v := by
    intro y hreceiver v hv
    cases v with
    | sender => exact absurd rfl hv
    | receiver => exact hreceiver
    | caller t => trivial
  cases hruns with
  | loopGoesOn q hconn | loopEnds q hconn =>
    obtain ⟨rfl, hs⟩ := hat
    rw [connected_shared] at hconn
    cases hafter
    refine ⟨rfl, ?_, hkeeps _ rfl, .single ⟨.sendTest, rfl, by simp [SessionController.step, hs]⟩⟩
    simp [At, SenderAt, hconn]
  | loopParks q hconn =>
    cases hafter
    exact .quiet (u := .sender) hat
  | loopLeaves q hconn =>
    cases hafter
    exact .quiet (u := .sender) ⟨hat.1, .inl hat.2, fun _ => hconn⟩
  | sendLoopLeaves q hready =>
    cases hafter
    refine .quiet (u := .sender) ⟨hat.1, .inl hat.2, fun hempty => ?_⟩
    rw [queue_shared, hempty] at hready
    cases hready
  | sendLoopAsks q hwait =>
    cases hafter
    exact .quiet (u := .sender) hat
  | sendLoopPop q first net hpop =>
    obtain ⟨rfl, -, -⟩ := hat
    obtain ⟨rest, hq, rfl⟩ := TcpNetworking.pop_eq_some hpop
    simp only [senderAfter] at hafter
    split at hafter
    · rename_i hs
      have hstep : SessionController.step L role socket x .take = some y := by
        simp only [SessionController.step, if_pos hs, SessionController.take]
        obtain ⟨⟨packet, popped⟩, hpop', rfl⟩ := Option.map_eq_some_iff.mp hafter
        rw [hpop']
      obtain ⟨⟨packet, popped⟩, hpop', rfl⟩ := Option.map_eq_some_iff.mp hafter
      obtain ⟨rest', hq', rfl⟩ := TcpNetworking.pop_eq_some hpop'
      rw [queue_shared, hq'] at hq
      cases hq
      exact ⟨shared_setQueue _ _ _, ⟨rfl, ofEncoded_cases _⟩, hkeeps _ rfl,
        .single ⟨.take, rfl, hstep⟩⟩
    · cases hafter
  | sendLoopSend q =>
    simp only [senderAfter] at hafter
    split at hafter
    · rename_i hs
      cases hafter
      exact .quiet (u := .sender) ⟨hat.1, hs⟩
    · cases hafter
  | _ => exact hat.elim

/-! ## Every run is one of both -/

structure Reached (role : Role) (s : SessionLocks τ T) : Prop where
  locks : Reaches TcpLocks.step (fun _ _ => True) {} s.locks
  place : ∀ u, At role s.session u (s.pc u)

theorem Reached.init : Reached role ({} : SessionLocks τ T) where
  locks := .refl _
  place u := by
    cases u with
    | sender => exact .inl rfl
    | receiver => trivial
    | caller t => trivial

variable {s s' : SessionLocks τ T}

theorem Reached.holding (h : Reached role s) : TcpLocks.Holding s.locks :=
  h.locks.invariant (fun h (_ : True) hs => h.step hs) .init

theorem goes_eq_some {l : LockLabel (SessionThread τ) T} (h : s.goes l = some s') :
    ∃ t, TcpLocks.step s.locks l = some t ∧ s' = { s with owner := t.owner, pc := t.pc } := by
  obtain ⟨t, ht, rfl⟩ := Option.map_eq_some_iff.mp h
  exact ⟨t, ht, rfl⟩

/-- One thread goes to a place where the session allows it to be. -/
theorem Reached.move (h : Reached role s) {u : SessionThread τ} {t : TcpLocks (SessionThread τ) T}
    {l : LockLabel (SessionThread τ) T} {q : LockPc T} (ht : TcpLocks.step s.locks l = some t)
    (hnet : y.net.shared = t.net) (hpc : t.pc = Function.update s.pc u q) (hplace : At role y u q)
    (hkeeps : ∀ v ≠ u, Keeps role s.session y v) :
    Reached role { s with session := y, owner := t.owner, pc := t.pc } where
  locks := by
    have hlocks : ({ net := y.net.shared, owner := t.owner, pc := t.pc } : TcpLocks _ T) = t := by
      rw [hnet]
    show Reaches _ _ _ ({ net := y.net.shared, owner := t.owner, pc := t.pc } : TcpLocks _ T)
    rw [hlocks]
    exact h.locks.trans (.single trivial ht)
  place v := by
    show At role y v (t.pc v)
    rw [hpc]
    by_cases hv : v = u
    · rw [hv, Function.update_self]
      exact hplace
    · rw [Function.update_of_ne hv]
      exact (h.place v).of_keeps (hkeeps v hv)

omit [DecidableEq τ] in
theorem enter_at {c : LockCall T} {t : τ} (hc : intended role c = true) :
    At role x (.caller t) (LockPc.enter c) := by
  cases c with
  | push q packet =>
    have hq : q = role.sends := of_decide_eq_true hc
    exact hq
  | pop q =>
    have hq : q = role.receives := of_decide_eq_true hc
    exact hq
  | sendLoop q => cases hc
  | isConnected => exact (rfl : ConnectedCaller.user = .user)
  | _ => trivial

omit [DecidableEq τ] in
theorem next_at {u : SessionThread τ} {c : LockCall T} (hc : nextCall role x u = some c) :
    At role x u (LockPc.enter c) := by
  cases u with
  | sender =>
    simp only [nextCall] at hc
    split at hc
    · rename_i hs
      cases hc
      exact ⟨rfl, hs⟩
    · cases hc
  | receiver =>
    simp only [nextCall] at hc
    split at hc
    · rename_i hr
      cases hc
      exact ⟨rfl, .inl hr⟩
    · rename_i hr
      cases hc
      exact ⟨rfl, .inr hr⟩
    · rename_i hr
      cases hc
      exact Or.inl hr
    · rename_i hr
      cases hc
      exact Or.inr hr
    · rename_i packet hr
      split at hc
      · cases hc
      · rename_i hid
        cases hc
        exact ⟨rfl, hid, hr⟩
    all_goals cases hc
  | caller t => cases hc

omit [DecidableEq τ] in
theorem lock_at {u : SessionThread τ} {p' : LockPc T} {m : Mutex} (hat : At role x u p)
    (h : p.lock = some (m, p')) : At role x u p' := by
  cases u with
  | sender =>
    cases p with
    | isConnected caller =>
      cases h
      cases caller <;> exact hat
    | sendLoop q =>
      cases h
      exact hat
    | _ => first | exact hat.elim | cases h
  | receiver =>
    cases p with
    | isConnected caller | push q packet | disconnect =>
      cases h
      exact hat
    | _ => first | exact hat.elim | cases h
  | caller t =>
    cases p with
    | isConnected caller | push q packet | pop q =>
      cases h
      exact hat
    | sendLoop q => exact hat.elim
    | _ => cases h <;> trivial

/-- A thread waits, gets a mutex or makes a call: nothing happens to the session. -/
theorem Reached.goes (h : Reached role s) {l : LockLabel (SessionThread τ) T}
    (hrun : ∀ u, l ≠ .run u) (hcall : ∀ u c, l = .call u c → At role s.session u (.enter c))
    (hs : s.goes l = some s') : Reached role s' ∧ s'.session = s.session := by
  obtain ⟨t, ht, rfl⟩ := goes_eq_some hs
  refine ⟨?_, rfl⟩
  have hkeeps : ∀ u : SessionThread τ, ∀ v ≠ u, Keeps role s.session s.session v :=
    fun _ v _ => .refl role s.session v
  cases TcpLocks.moves_of_step ht with
  | call u c answer hpc => exact h.move ht rfl rfl (hcall u c rfl) (hkeeps u)
  | lock u m q hlock hfree => exact h.move ht rfl rfl (lock_at (h.place u) hlock) (hkeeps u)
  | run u net mutexes q hq => exact absurd rfl (hrun u)
  | wake u q hpc =>
    refine h.move ht rfl rfl ?_ (hkeeps u)
    have hat := h.place u
    obtain ⟨q, ⟨hpc, rfl⟩ | ⟨hpc, rfl⟩⟩ := hpc
    · rw [show s.pc u = .popParked q from hpc] at hat
      cases u with
      | caller t => exact hat
      | _ => exact hat.elim
    · rw [show s.pc u = .sendLoopParked q from hpc] at hat
      cases u with
      | sender => exact hat
      | _ => exact hat.elim

omit [DecidableEq τ] in
/-- A thread that sends is behind the lock of its queue. -/
theorem SenderAt.of_sendLocked (h : SenderAt role x p) (hlocked : x.sendLocked = true) :
    p = .sendLoopSend role.sends := by
  obtain ⟨sending, hs⟩ : ∃ sending, x.sender = .sending sending := by
    unfold SessionController.sendLocked at hlocked
    split at hlocked
    · rename_i sending hs
      exact ⟨sending, hs⟩
    · cases hlocked
  cases p with
  | sendLoopSend q => rw [h.1]
  | isConnected caller | isConnectedRead caller => cases caller <;> simp [SenderAt, hs] at h
  | _ => simp [SenderAt, hs] at h

theorem Reached.not_sendLocked (h : Reached role s) {v : SessionThread τ} (hv : v ≠ .sender)
    (hheld : Mutex.queue role.sends ∈ (s.pc v).holds) : s.session.sendLocked = false := by
  rw [Bool.eq_false_iff]
  intro hlocked
  have hpc : s.pc .sender = .sendLoopSend role.sends :=
    SenderAt.of_sendLocked (h.place .sender) hlocked
  have hsend : Mutex.queue role.sends ∈ (s.pc .sender).holds := by
    rw [hpc]
    exact List.mem_singleton_self _
  exact hv (h.holding.exclusive hheld hsend)

theorem Reached.runs {s s' : SessionLocks τ L.arrow.Table} (h : Reached role s)
    {t : SessionLocks τ L.arrow.Table} (ht : s.goes (.run u) = some t)
    {y : SessionController L.arrow.Table} (hy : after L s.session u (s.pc u) = some y) :
    Traces (Shows L role socket) s.session (event s (.run u) s').toList y ∧
      Reached role { t with session := y } := by
  obtain ⟨t, hstep, rfl⟩ := goes_eq_some ht
  have hat := h.place u
  cases TcpLocks.moves_of_step hstep with
  | run _ net mutexes q hrun =>
    have hruns : LockPc.Runs s.session.net.shared (s.pc u) net mutexes q :=
      LockPc.runs_of_run hrun
    have hfollows : Follows L role socket s.session u (event s (.run u) s') net q y := by
      cases u with
      | sender => exact sender_follows hat hruns hy
      | receiver => exact receiver_follows hat hruns hy
      | caller t =>
        refine caller_follows hat (fun packet hpc => ?_) hruns hy
        refine h.not_sendLocked (v := .caller t) (by simp) ?_
        rw [hpc]
        exact List.mem_singleton_self _
    have hnext := h.move hstep hfollows.net rfl hfollows.place hfollows.keeps
    exact ⟨hfollows.answered, hnext⟩

omit [DecidableEq τ] in
/-- What keeps the queues and the flag. -/
theorem Keeps.shared (hsender : y.sender = x.sender) (hshared : y.net.shared = x.net.shared) :
    Keeps (τ := τ) role x y .sender := by
  refine ⟨hsender, fun hempty => ?_, fun hconn => ?_⟩
  · rwa [← queue_shared, hshared, queue_shared] at hempty
  · rwa [← connected_shared, hshared, connected_shared]

omit [DecidableEq τ] in
theorem outside_at {s : SessionLocks τ L.arrow.Table} (hat : ∀ u, At role s.session u (s.pc u))
    {l : SessionLabel L.arrow.Table} (hl : s.isOutside l = true)
    {y : SessionController L.arrow.Table}
    (hs : SessionController.step L role socket s.session l = some y) :
    y.net.shared = s.session.net.shared ∧ ∀ u, At role y u (s.pc u) := by
  have hreceiver : ∀ y : SessionController L.arrow.Table, (s.pc .receiver).isIdle = true →
      y.sender = s.session.sender → y.net.shared = s.session.net.shared →
        y.net.shared = s.session.net.shared ∧ ∀ u, At role y u (s.pc u) := by
    intro y hidle hsender hshared
    refine ⟨hshared, fun u => ?_⟩
    cases u with
    | sender => exact (hat .sender).of_keeps (Keeps.shared hsender hshared)
    | receiver =>
      cases hpc : s.pc .receiver with
      | idle answer => trivial
      | _ =>
        rw [hpc] at hidle
        cases hidle
    | caller t => exact hat (.caller t)
  cases SessionController.moves_of_step hs with
  | arrive bytes hfin | fin =>
    exact ⟨rfl, fun u => (hat u).of_keeps (by
      cases u with
      | sender => exact ⟨rfl, id, id⟩
      | receiver => rfl
      | caller t => trivial)⟩
  | epollError interrupted pc hr hpc | timeout hr | hangUp readable hr | event readable hr
  | recvBytes temp hr | recvAgain hr | recvError hr | cutNothing hr hcut
  | cutBody body rest hr hcut => exact hreceiver _ hl rfl rfl
  | skip packet hr hid =>
    refine hreceiver _ ?_ rfl rfl
    simp only [isOutside, hr, Bool.and_eq_true] at hl
    exact hl.1
  | deliver packet hr hid =>
    simp only [isOutside, hr, Bool.and_eq_true] at hl
    exact absurd (of_decide_eq_true hl.2) hid
  | send result sending out next hsending hsend =>
    have hpc : s.pc .sender = .sendLoopSend role.sends :=
      SenderAt.of_sendLocked (hat .sender) (by simp [SessionController.sendLocked, hsending])
    refine ⟨rfl, fun u => ?_⟩
    cases u with
    | sender =>
      rw [hpc]
      refine ⟨rfl, ?_⟩
      cases next with
      | none => exact .inr (.inl rfl)
      | some sending => exact .inl ⟨sending, rfl⟩
    | receiver => exact (hat .receiver).of_keeps rfl
    | caller t => exact hat (.caller t)
  | _ => cases hl

theorem Reached.outside {s : SessionLocks τ L.arrow.Table} (h : Reached role s)
    {l : SessionLabel L.arrow.Table} (hl : s.isOutside l = true)
    {y : SessionController L.arrow.Table}
    (hs : SessionController.step L role socket s.session l = some y) :
    Reached role { s with session := y } := by
  obtain ⟨hshared, hplace⟩ := outside_at h.place hl hs
  refine ⟨?_, hplace⟩
  show Reaches _ _ _ ({ net := y.net.shared, owner := s.owner, pc := s.pc } : TcpLocks _ _)
  rw [hshared]
  exact h.locks

/-- Element 0 of an empty queue is read only after the end of the session. -/
theorem Reached.undefined {s : SessionLocks τ L.arrow.Table} (h : Reached role s) (socket : Int)
    {q : Queue} (hpc : s.pc .sender = .sendLoopRead q) (hs : s.session.sender = .waiting)
    (hempty : s.session.net.queue q = []) :
    SessionController.step L role socket s.session .take =
        some { s.session with sender := .undefined } ∧
      Reached role { s with session := { s.session with sender := .undefined } } := by
  have hsender := h.place .sender
  rw [hpc] at hsender
  obtain ⟨rfl, -, hconn⟩ := hsender
  have hconn := hconn hempty
  have hpop : s.session.net.pop role.sends = none := by
    rw [TcpNetworking.pop, hempty]
  refine ⟨?_, h.locks, fun u => ?_⟩
  · simp only [SessionController.step, if_pos hs, SessionController.take, hpop, hconn]
    rfl
  · cases u with
    | sender =>
      show SenderAt role _ (s.pc .sender)
      rw [hpc]
      exact ⟨rfl, .inr rfl, fun _ => hconn⟩
    | receiver => exact (h.place .receiver).of_keeps rfl
    | caller t => exact h.place (.caller t)

theorem simulates (L : Libraries) (role : Role) (socket : Int) :
    Simulates (SessionLocks.step (τ := τ) L role socket) event (fun _ _ => True)
      (Shows L role socket) (fun s x => x = s.session ∧ Reached role s) := by
  rintro s l s' x ⟨rfl, h⟩ - hs
  have hquiet : ∀ {l : LockLabel (SessionThread τ) L.arrow.Table}, (∀ u, l ≠ .run u) →
      (∀ u c, l = .call u c → At role s.session u (.enter c)) → s.goes l = some s' →
      ∃ y, Traces (Shows L role socket) s.session [] y ∧ y = s'.session ∧ Reached role s' := by
    intro l hrun hcall hs
    obtain ⟨hreached, hsession⟩ := h.goes hrun hcall hs
    exact ⟨s.session, .nil _, hsession.symm, hreached⟩
  cases l with
  | call t c =>
    simp only [SessionLocks.step] at hs
    split at hs
    · rename_i hc
      refine hquiet (by simp) (fun u c' he => ?_) hs
      cases he
      exact enter_at hc
    · cases hs
  | next u =>
    obtain ⟨c, hc, hs⟩ := Option.bind_eq_some_iff.mp hs
    cases u with
    | caller t => cases hc
    | sender | receiver =>
      refine hquiet (by simp) (fun u c' he => ?_) hs
      cases he
      exact next_at hc
  | lock u => exact hquiet (by simp) (by simp) hs
  | wake u => exact hquiet (by simp) (by simp) hs
  | run u =>
    obtain ⟨t, ht, hs⟩ := Option.bind_eq_some_iff.mp hs
    obtain ⟨y, hy, rfl⟩ := Option.map_eq_some_iff.mp hs
    obtain ⟨htraces, hreached⟩ := h.runs ht hy
    exact ⟨y, htraces, rfl, hreached⟩
  | undefined =>
    simp only [SessionLocks.step] at hs
    split at hs
    · rename_i q hpc
      split at hs
      · rename_i hempty
        cases hs
        obtain ⟨hstep, hreached⟩ := h.undefined socket hpc hempty.1 hempty.2
        exact ⟨_, .single ⟨.take, rfl, hstep⟩, rfl, hreached⟩
      · cases hs
    · cases hs
  | outside l =>
    simp only [SessionLocks.step] at hs
    split at hs
    · rename_i hl
      obtain ⟨y, hy, rfl⟩ := Option.map_eq_some_iff.mp hs
      exact ⟨y, .single ⟨l, rfl, hy⟩, rfl, h.outside hl hy⟩
    · cases hs

/-- **One session, two models**: in every run, however the threads interleave
at the locks, the session is where `SessionController` gets with the same
answers of the system calls, and its threads and mutexes are where `TcpLocks`
has them. -/
theorem refines_both (L : Libraries) (role : Role) (socket : Int)
    (ls : List (SessionLocksLabel τ L.arrow.Table)) (s : SessionLocks τ L.arrow.Table)
    (hrun : run (SessionLocks.step L role socket) {} ls = some s) :
    Traces (Shows L role socket) {} (trace (SessionLocks.step L role socket) event {} ls)
        s.session ∧
      ∃ ks, run TcpLocks.step {} ks = some s.locks := by
  obtain ⟨x, htraces, rfl, h⟩ := (simulates L role socket).traces ⟨rfl, Reached.init⟩
    (.of_forall (fun _ _ => trivial) _ _) hrun
  exact ⟨htraces, reachable_iff.mpr h.locks⟩

/-- `recv` returns 0, and a user disconnects before the thread gets `connectedMutex`. -/
def disconnectTwice : List (SessionLocksLabel (Fin 1) Reference.libraries.arrow.Table) :=
  [.next .receiver, .lock .receiver, .run .receiver, .outside (.epollWait (.event true false)),
    .next .receiver, .lock .receiver, .run .receiver, .outside .fin, .next .receiver,
    .call 0 .disconnect, .lock (.caller 0), .run (.caller 0), .lock .receiver, .run .receiver]

theorem refines_both_closed :
    ∃ s, run (SessionLocks.step Reference.libraries .client 3) {} disconnectTwice = some s ∧
      s.session.calls = [.close, .recv, .close] ∧
      Traces (Shows Reference.libraries .client 3) {}
        [.epollWait (.event true false), .fin, .recv .closed] s.session ∧
      ∃ ks, run TcpLocks.step {} ks = some s.locks :=
  ⟨_, rfl, rfl, refines_both Reference.libraries .client 3 disconnectTwice _ rfl⟩

end SessionLocks
end Ttp2
