import Ttp2.TcpSend
import Ttp2.FrameExtraction

/-! # A session and its threads (`client_session_controller.cpp`, `server_session_controller.cpp`)

One session as a step function: the receive thread between its system calls,
the send thread likewise, any number of other threads that push, pop and
disconnect, and the network. A label names who moves and what a system call
returns. The state keeps, besides the source's own data, what happened: the
calls on the descriptor, the bytes that arrived, the bodies handed to
`decode`, the packets that went through each queue. -/
namespace Ttp2
open Lib Octets Framing Lts

/-- Which of the two controllers the session is. -/
inductive Role where
  | client
  | server
  deriving DecidableEq

/-- The queue the send thread empties. -/
def Role.sends : Role → Queue
  | .client => .request
  | .server => .response

/-- The queue the receive thread fills. -/
def Role.receives : Role → Queue
  | .client => .response
  | .server => .request

/-- What `epoll_wait` returns: -1 with `EINTR` or another error, 0, or the one
registered descriptor with its events. -/
inductive EpollResult where
  | error (interrupted : Bool)
  | timeout
  | event (readable hangUp : Bool)
  deriving DecidableEq

/-- A system call on the session's descriptor. -/
inductive Call where
  | recv
  | send
  | close
  deriving DecidableEq

/-- Where the receive thread is in `receiveRequestSession` or
`receiveResponseSession` and in `receiveMessage`. -/
inductive ReceiverPc (T : Type) where
  /-- at `while (isConnected())` -/
  | loopTest
  /-- in `epoll_wait` -/
  | waiting
  /-- server: between `close(fd)` and `disconnect()` of the hang-up branch -/
  | hangUp
  /-- in `receiveMessage`, at `while (isConnected())` -/
  | recvTest
  /-- in `receiveMessage`, at `recv` -/
  | recv
  /-- in `receiveMessage`, behind the loop -/
  | cut
  /-- `receiveMessage` has returned -/
  | received (packet : Packet T)
  | finished
  deriving DecidableEq

/-- Where the send thread is in `sendRequestSession` or `sendResponseSession`. -/
inductive SenderPc where
  | loopTest
  /-- in the wait on the condition variable -/
  | waiting
  /-- in `sendMessage`, holding the mutex of the queue -/
  | sending (s : Sending)
  | finished
  /-- element 0 of an empty queue was read -/
  | undefined
  /-- an exception left the thread -/
  | terminated
  deriving DecidableEq

/-- Inside `sendMessage`, or back at the loop once it has returned. -/
def SenderPc.ofNext : Option Sending → SenderPc
  | some s => .sending s
  | none => .loopTest

/-- What becomes of the send thread with what `encode` gave `sendMessage`. -/
def SenderPc.ofEncoded : Except Exception Bytes → SenderPc
  | .ok buffer => .sending (.start buffer)
  | .error (.invalidArgument _) => .loopTest
  | .error .lengthError => .terminated

structure SessionController (T : Type) where
  net : TcpNetworking T := {}
  receiver : ReceiverPc T := .loopTest
  sender : SenderPc := .loopTest
  /-- the kernel's receive queue -/
  kernel : Bytes := []
  /-- the peer's end of stream has arrived -/
  fin : Bool := false
  /-- the hang-up branch was taken -/
  hungUp : Bool := false
  /-- the session became disconnected, or closed its descriptor, because of the peer's close -/
  ended : Bool := false
  calls : List Call := []
  arrived : Bytes := []
  /-- the bodies handed to `decode` -/
  decoded : List Bytes := []
  /-- the packets the receive thread pushed -/
  delivered : List (Packet T) := []
  /-- the packets other threads popped -/
  popped : List (Packet T) := []
  /-- the packets other threads pushed, in the order of the lock -/
  submitted : List (Packet T) := []
  /-- the packets the send thread took -/
  taken : List (Packet T) := []
  /-- the bytes `send` accepted -/
  wire : Bytes := []

inductive SessionLabel (T : Type) where
  | arrive (bytes : Bytes)
  | fin
  | loopTest
  | epollWait (result : EpollResult)
  | hangUpDisconnect
  | recvTest
  | recv (answer : RecvResult)
  | cutFrame
  | dispatch
  | sendTest
  | take
  | send (result : SendResult)
  | push (packet : Packet T)
  | pop
  | disconnect
  deriving DecidableEq

namespace SessionController
variable {T : Type}

def buffer (s : SessionController T) (socket : Int) : Bytes := s.net.sessionBuffers socket

/-- `disconnect()`: the descriptor is closed and the session not connected. -/
def disconnect (s : SessionController T) : SessionController T :=
  { s with net := s.net.disconnect, calls := s.calls ++ [.close] }

/-! ## The receive thread -/

/-- `sessionBuffers.erase(fd); close(fd);` -/
def hangUp (role : Role) (socket : Int) (s : SessionController T) : SessionController T :=
  { s with net := s.net.setBuffer socket [], calls := s.calls ++ [.close], hungUp := true,
           ended := true,
           receiver := match role with
             | .client => .loopTest
             | .server => .hangUp }

/-- The rest of the loop once `epoll_wait` has returned. -/
def epollWait (role : Role) (socket : Int) (s : SessionController T) :
    EpollResult → SessionController T
  | .error interrupted =>
    { s with receiver := match role with
        | .client => if interrupted then .loopTest else .finished
        | .server => .loopTest }
  | .timeout => { s with receiver := .loopTest }
  | .event readable hangUp =>
    if hangUp then s.hangUp role socket
    else { s with receiver := if readable then .recvTest else .loopTest }

/-- `recv` has returned. -/
def recv (socket : Int) (s : SessionController T) (answer : RecvResult) : SessionController T :=
  let s := { s with calls := s.calls ++ [Call.recv] }
  match answer with
  | .bytes temp =>
    { s with net := s.net.insert socket temp, kernel := s.kernel.drop temp.length,
             receiver := .recvTest }
  | .again => { s with receiver := .cut }
  | .error => { s with receiver := .received {} }
  | .closed => { s.disconnect with ended := true, receiver := .received {} }

/-- Lines 147 to 171 of `receiveMessage`. -/
def cutFrame (L : Libraries) (socket : Int) (s : SessionController L.arrow.Table) :
    Option (SessionController L.arrow.Table) :=
  (TcpNetworking.cutFrame (s.buffer socket)).map fun
    | (none, _) => { s with receiver := .received {} }
    | (some derBuffer, rest) =>
      { s with net := s.net.setBuffer socket rest, decoded := s.decoded ++ [derBuffer],
               receiver := .received (TcpNetworking.decodeOrEmpty L derBuffer) }

/-- `if (packet.id == -1) continue;` and the push. -/
def dispatch (role : Role) (s : SessionController T) (packet : Packet T) : SessionController T :=
  if packet.id = -1 then { s with receiver := .loopTest }
  else { s with net := s.net.push role.receives packet, delivered := s.delivered ++ [packet],
                receiver := .loopTest }

/-! ## The send thread -/

/-- The wait is over: element 0 is taken and `sendMessage` begins. -/
def take (L : Libraries) (role : Role) (s : SessionController L.arrow.Table) :
    Option (SessionController L.arrow.Table) :=
  match s.net.pop role.sends with
  | none => if s.net.connected then none else some { s with sender := .undefined }
  | some (packet, net) =>
    let (id, autoId) := assignId net.autoId packet.id
    some { s with
      net := { net with autoId }
      taken := s.taken ++ [packet]
      sender := .ofEncoded (Encode.encode L packet.payload id) }

/-- The result of a call of `send` inside `sendMessage`. -/
def send (s : SessionController T) (sending : Sending) (result : SendResult) :
    Option (SessionController T) :=
  (sending.send result).map fun (out, next) =>
    { s with wire := s.wire ++ out, calls := s.calls ++ [.send],
             sender := .ofNext next }

/-- The send thread holds the mutex of its queue while it sends. -/
def sendLocked (s : SessionController T) : Bool :=
  match s.sender with
  | .sending _ => true
  | _ => false

/-! ## One step -/

def step (L : Libraries) (role : Role) (socket : Int) (s : SessionController L.arrow.Table) :
    SessionLabel L.arrow.Table → Option (SessionController L.arrow.Table)
  | .arrive bytes =>
    if s.fin then none
    else some { s with kernel := s.kernel ++ bytes, arrived := s.arrived ++ bytes }
  | .fin => some { s with fin := true }
  | .loopTest =>
    match s.receiver with
    | .loopTest => some { s with receiver := if s.net.connected then .waiting else .finished }
    | _ => none
  | .epollWait result =>
    match s.receiver with
    | .waiting => some (s.epollWait role socket result)
    | _ => none
  | .hangUpDisconnect =>
    match s.receiver with
    | .hangUp => some { s.disconnect with receiver := .loopTest }
    | _ => none
  | .recvTest =>
    match s.receiver with
    | .recvTest => some { s with receiver := if s.net.connected then .recv else .cut }
    | _ => none
  | .recv answer =>
    match s.receiver with
    | .recv => some (s.recv socket answer)
    | _ => none
  | .cutFrame =>
    match s.receiver with
    | .cut => s.cutFrame L socket
    | _ => none
  | .dispatch =>
    match s.receiver with
    | .received packet => some (s.dispatch role packet)
    | _ => none
  | .sendTest =>
    if s.sender = .loopTest then
      some { s with sender := if s.net.connected then .waiting else .finished }
    else none
  | .take => if s.sender = .waiting then s.take L role else none
  | .send result =>
    match s.sender with
    | .sending sending => s.send sending result
    | _ => none
  | .push packet =>
    if s.sendLocked then none
    else some { s with net := s.net.push role.sends packet, submitted := s.submitted ++ [packet] }
  | .pop =>
    (s.net.pop role.receives).map fun (packet, net) =>
      { s with net, popped := s.popped ++ [packet] }
  | .disconnect => some s.disconnect

/-! ## What a step can do -/

/-- The steps of a session, one constructor for each way a step can go. -/
inductive Moves (L : Libraries) (role : Role) (socket : Int) (s : SessionController L.arrow.Table) :
    SessionLabel L.arrow.Table → SessionController L.arrow.Table → Prop where
  | arrive (bytes : Bytes) (hfin : s.fin = false) : Moves L role socket s (.arrive bytes)
      { s with kernel := s.kernel ++ bytes, arrived := s.arrived ++ bytes }
  | fin : Moves L role socket s .fin { s with fin := true }
  | loopTest (hr : s.receiver = .loopTest) : Moves L role socket s .loopTest
      { s with receiver := if s.net.connected then .waiting else .finished }
  | epollError (interrupted : Bool) (pc : ReceiverPc L.arrow.Table) (hr : s.receiver = .waiting)
      (hpc : pc = .loopTest ∨ pc = .finished) :
      Moves L role socket s (.epollWait (.error interrupted)) { s with receiver := pc }
  | timeout (hr : s.receiver = .waiting) :
      Moves L role socket s (.epollWait .timeout) { s with receiver := .loopTest }
  | hangUp (readable : Bool) (hr : s.receiver = .waiting) :
      Moves L role socket s (.epollWait (.event readable true)) (s.hangUp role socket)
  | event (readable : Bool) (hr : s.receiver = .waiting) :
      Moves L role socket s (.epollWait (.event readable false))
        { s with receiver := if readable then .recvTest else .loopTest }
  | hangUpDisconnect (hr : s.receiver = .hangUp) : Moves L role socket s .hangUpDisconnect
      { s.disconnect with receiver := .loopTest }
  | recvTest (hr : s.receiver = .recvTest) : Moves L role socket s .recvTest
      { s with receiver := if s.net.connected then .recv else .cut }
  | recvBytes (temp : Bytes) (hr : s.receiver = .recv) :
      Moves L role socket s (.recv (.bytes temp))
        { s with calls := s.calls ++ [.recv], net := s.net.insert socket temp,
                 kernel := s.kernel.drop temp.length, receiver := .recvTest }
  | recvAgain (hr : s.receiver = .recv) : Moves L role socket s (.recv .again)
      { s with calls := s.calls ++ [.recv], receiver := .cut }
  | recvError (hr : s.receiver = .recv) : Moves L role socket s (.recv .error)
      { s with calls := s.calls ++ [.recv], receiver := .received {} }
  | recvClosed (hr : s.receiver = .recv) : Moves L role socket s (.recv .closed)
      { s with net := s.net.disconnect, calls := s.calls ++ [.recv] ++ [.close], ended := true,
               receiver := .received {} }
  | cutNothing (hr : s.receiver = .cut) (hcut : takeFrame (s.buffer socket) = none) :
      Moves L role socket s .cutFrame { s with receiver := .received {} }
  | cutBody (body rest : Bytes) (hr : s.receiver = .cut)
      (hcut : takeFrame (s.buffer socket) = some (body, rest)) :
      Moves L role socket s .cutFrame
        { s with net := s.net.setBuffer socket rest, decoded := s.decoded ++ [body],
                 receiver := .received (TcpNetworking.decodeOrEmpty L body) }
  | skip (packet : Packet L.arrow.Table) (hr : s.receiver = .received packet)
      (hid : packet.id = -1) : Moves L role socket s .dispatch { s with receiver := .loopTest }
  | deliver (packet : Packet L.arrow.Table) (hr : s.receiver = .received packet)
      (hid : packet.id ≠ -1) : Moves L role socket s .dispatch
      { s with net := s.net.push role.receives packet, delivered := s.delivered ++ [packet],
               receiver := .loopTest }
  | sendTest (hs : s.sender = .loopTest) : Moves L role socket s .sendTest
      { s with sender := if s.net.connected then .waiting else .finished }
  | takeUndefined (hs : s.sender = .waiting) (hq : s.net.queue role.sends = [])
      (hc : s.net.connected = false) : Moves L role socket s .take { s with sender := .undefined }
  | take (packet : Packet L.arrow.Table) (rest : List (Packet L.arrow.Table))
      (hs : s.sender = .waiting) (hq : s.net.queue role.sends = packet :: rest) :
      Moves L role socket s .take
        { s with
          net := { s.net.setQueue role.sends rest with
            autoId := (assignId s.net.autoId packet.id).2 }
          taken := s.taken ++ [packet]
          sender := .ofEncoded
            (Encode.encode L packet.payload (assignId s.net.autoId packet.id).1) }
  | send (result : SendResult) (sending : Sending) (out : Bytes) (next : Option Sending)
      (hs : s.sender = .sending sending) (hsend : sending.send result = some (out, next)) :
      Moves L role socket s (.send result)
        { s with wire := s.wire ++ out, calls := s.calls ++ [.send],
                 sender := .ofNext next }
  | push (packet : Packet L.arrow.Table) : Moves L role socket s (.push packet)
      { s with net := s.net.push role.sends packet, submitted := s.submitted ++ [packet] }
  | pop (packet : Packet L.arrow.Table) (rest : List (Packet L.arrow.Table))
      (hq : s.net.queue role.receives = packet :: rest) : Moves L role socket s .pop
      { s with net := s.net.setQueue role.receives rest, popped := s.popped ++ [packet] }
  | disconnect : Moves L role socket s .disconnect s.disconnect

theorem moves_of_step {L : Libraries} {role : Role} {socket : Int}
    {s t : SessionController L.arrow.Table} {l : SessionLabel L.arrow.Table}
    (h : step L role socket s l = some t) : Moves L role socket s l t := by
  cases l with
  | arrive bytes =>
    simp only [step] at h
    split at h
    · cases h
    · rename_i hfin
      cases h
      exact .arrive bytes (by simpa using hfin)
  | fin =>
    cases h
    exact .fin
  | loopTest =>
    simp only [step] at h
    split at h
    · rename_i hr
      cases h
      exact .loopTest hr
    · cases h
  | epollWait result =>
    simp only [step] at h
    split at h
    · rename_i hr
      cases h
      cases result with
      | error interrupted =>
        refine .epollError interrupted _ hr ?_
        cases role with
        | client => cases interrupted <;> simp
        | server => simp
      | timeout => exact .timeout hr
      | event readable hangUp =>
        cases hangUp with
        | true => exact .hangUp readable hr
        | false => exact .event readable hr
    · cases h
  | hangUpDisconnect =>
    simp only [step] at h
    split at h
    · rename_i hr
      cases h
      exact .hangUpDisconnect hr
    · cases h
  | recvTest =>
    simp only [step] at h
    split at h
    · rename_i hr
      cases h
      exact .recvTest hr
    · cases h
  | recv answer =>
    simp only [step] at h
    split at h
    · rename_i hr
      cases h
      cases answer with
      | bytes temp => exact .recvBytes temp hr
      | again => exact .recvAgain hr
      | error => exact .recvError hr
      | closed => exact .recvClosed hr
    · cases h
  | cutFrame =>
    simp only [step] at h
    split at h
    · rename_i hr
      unfold SessionController.cutFrame at h
      rw [TcpNetworking.cutFrame_eq] at h
      cases hcut : takeFrame (s.buffer socket) with
      | none =>
        rw [hcut] at h
        cases h
        exact .cutNothing hr hcut
      | some r =>
        obtain ⟨body, rest⟩ := r
        rw [hcut] at h
        cases h
        exact .cutBody body rest hr hcut
    · cases h
  | dispatch =>
    simp only [step] at h
    split at h
    · rename_i packet hr
      cases h
      unfold dispatch
      split
      · rename_i hid
        exact .skip packet hr hid
      · rename_i hid
        exact .deliver packet hr hid
    · cases h
  | sendTest =>
    simp only [step] at h
    split at h
    · rename_i hs
      cases h
      exact .sendTest hs
    · cases h
  | take =>
    simp only [step] at h
    split at h
    · rename_i hs
      unfold SessionController.take at h
      split at h
      · rename_i hpop
        split at h
        · cases h
        · rename_i hc
          cases h
          refine .takeUndefined hs ?_ (by simpa using hc)
          unfold TcpNetworking.pop at hpop
          split at hpop
          · assumption
          · cases hpop
      · rename_i packet net hpop
        obtain ⟨rest, hq, rfl⟩ := TcpNetworking.pop_eq_some hpop
        cases h
        rw [TcpNetworking.autoId_setQueue]
        exact .take packet rest hs hq
    · cases h
  | send result =>
    simp only [step] at h
    split at h
    · rename_i sending hs
      obtain ⟨⟨out, next⟩, hsend, rfl⟩ := Option.map_eq_some_iff.mp h
      exact .send result sending out next hs hsend
    · cases h
  | push packet =>
    simp only [step] at h
    split at h
    · cases h
    · cases h
      exact .push packet
  | pop =>
    simp only [step] at h
    obtain ⟨⟨packet, net⟩, hpop, rfl⟩ := Option.map_eq_some_iff.mp h
    obtain ⟨rest, hq, rfl⟩ := TcpNetworking.pop_eq_some hpop
    exact .pop packet rest hq
  | disconnect =>
    cases h
    exact .disconnect

end SessionController
end Ttp2
