import Ttp2.UdpNetworking
import Ttp2.Lib.Lts

/-! # The receiving half of a peer (`peer_session_controller.cpp`)

`receiveSession` between its system calls, the server socket with its
edge-triggered registration, and the threads that pop what was received and
read it. An entry's `ip` is a pointer: it points into the string `ip` of the
iteration that queued the entry, which is gone when the iteration is over. The
state keeps, besides the source's own data, what every iteration did, the
entries popped and what their callers read. -/
namespace Ttp2
open Lib Octets Framing Inet Lts

/-- A call of `sendMessageTo`: its peer and its number among the peer's calls. -/
structure CallId where
  peer : Address
  number : Nat
  deriving DecidableEq

/-- A datagram. `origin` is the call it was sent by, or answers; nobody sees it. -/
structure UdpDatagram where
  source : Address
  destination : Address
  bytes : Bytes
  origin : Option CallId := none
  deriving DecidableEq

/-! ## `receivePacketFrom` -/

namespace UdpNetworking

/-- How `receivePacketFrom` ends: the tuple `{"", -1, packet}`, a packet with
the address it came from, an exception of `decode`, or a read beyond the bytes
of the datagram. -/
inductive Reception (T : Type) where
  | failed
  | received (source : Address) (packet : Packet T)
  | threw (e : InvalidArgument)
  | undefined
  deriving DecidableEq

/-- `receivePacketFrom` on what its two calls of `recvfrom` return, `none` for
an error: the first gives the size of the buffer, the second fills it. -/
def receivePacketFrom (L : Libraries) (peeked consumed : Option UdpDatagram) :
    Reception L.arrow.Table :=
  match peeked, consumed with
  | none, _ => .failed
  | some _, none => .failed
  | some peeked, some consumed =>
    let size := peeked.bytes.length
    let buffer := Asn1Helpers.fill size (consumed.bytes.take size)
    match decodeDatagram L buffer with
    | none => .undefined
    | some (.error e) => .threw e
    | some (.ok packet) => .received consumed.source packet

/-- Both calls see the datagram in front. -/
theorem receivePacketFrom_self (L : Libraries) (d : UdpDatagram) :
    receivePacketFrom L (some d) (some d) =
      match decodeDatagram L d.bytes with
      | none => .undefined
      | some (.error e) => .threw e
      | some (.ok packet) => .received d.source packet := by
  simp only [receivePacketFrom, List.take_length, Asn1Helpers.fill_length]

/-- The length prefix is the number of bytes after it. -/
def WellFramed (bytes : Bytes) : Prop :=
  4 ≤ bytes.length ∧ ofBe (bytes.take 4) = bytes.length - 4

instance (bytes : Bytes) : Decidable (WellFramed bytes) :=
  inferInstanceAs (Decidable (_ ∧ _))

/-- A well-framed datagram is read in full. -/
theorem decodeDatagram_wellFramed {L : Libraries} {bytes : Bytes} (h : WellFramed bytes) :
    decodeDatagram L bytes = some (Decode.decode L (bytes.drop 4)) := by
  obtain ⟨hlen, hsize⟩ := h
  have hhead : TcpNetworking.range bytes 0 4 = some (bytes.take 4) := by
    rw [TcpNetworking.range, if_pos ⟨by omega, hlen⟩, List.drop_zero, Nat.sub_zero]
  have hbody : TcpNetworking.range bytes 4 (4 + (bytes.length - 4)) = some (bytes.drop 4) := by
    rw [TcpNetworking.range, if_pos ⟨by omega, by omega⟩, Nat.add_sub_cancel_left]
    rw [List.take_of_length_le (by rw [List.length_drop])]
  unfold decodeDatagram
  rw [hhead]
  simp only [bind, Option.bind, pure]
  rw [hsize, hbody]

end UdpNetworking

/-! ## `receiveSession` -/

/-- Where the receive thread is in `receiveSession`. -/
inductive ReceiveSessionPc where
  /-- at `while (isConnected())` -/
  | loopTest
  /-- in `epoll_wait` -/
  | waiting
  /-- in `receivePacketFrom`, holding `receiveMutex` -/
  | receiving
  /-- behind `lock.unlock()`, the iteration's strings still alive -/
  | queued
  | finished
  /-- an exception left the thread -/
  | terminated
  /-- bytes beyond the datagram were read -/
  | undefined
  deriving DecidableEq

/-- An entry of `receivedQueue`; `ip` points into the string of the iteration
of that number. -/
structure ReceiveSession.AddressedPacket (T : Type) where
  ip : Nat
  port : Int
  packet : Packet T
  deriving DecidableEq

/-- What an iteration did: the datagram it read, its string `ip`, and the port
and the packet of the entry it queued. -/
structure ReceiveSession.Iteration (T : Type) where
  read : Option UdpDatagram
  ip : Bytes := []
  entry : Option (Int × Packet T) := none
  deriving DecidableEq

structure ReceiveSession (T : Type) where
  connected : Bool := true
  receivedQueue : List (ReceiveSession.AddressedPacket T) := []
  pc : ReceiveSessionPc := .loopTest
  /-- what waits in the server socket -/
  socket : List UdpDatagram := []
  /-- a datagram has arrived since `epoll_wait` last reported the socket -/
  edge : Bool := false
  disconnectCalled : Bool := false
  iterations : List (ReceiveSession.Iteration T) := []
  /-- what `popReceivedPacket` returned -/
  popped : List (ReceiveSession.AddressedPacket T) := []
  /-- the strings read through the `ip` of what was popped, with its number -/
  ipsRead : List (Nat × Option Bytes) := []
  /-- the acknowledgements sent -/
  acks : List UdpDatagram := []

inductive ReceiveLabel where
  | arrive (d : UdpDatagram)
  | loopTest
  | epollWait (reports : Bool)
  /-- which of the two calls of `recvfrom` give the datagram in front -/
  | receivePacketFrom (peeks consumes : Bool)
  | endIteration
  | popReceivedPacket
  /-- the caller of the `k`-th pop reads the string `ip` points to -/
  | readIp (k : Nat)
  | hasPacket (answer : Bool)
  | disconnect
  deriving DecidableEq

namespace ReceiveSession
variable {T : Type}

/-- The iteration is not over: its strings are alive. -/
def Alive (s : ReceiveSession T) (iteration : Nat) : Prop :=
  s.pc = .queued ∧ iteration + 1 = s.iterations.length

instance (s : ReceiveSession T) (iteration : Nat) : Decidable (s.Alive iteration) :=
  inferInstanceAs (Decidable (_ ∧ _))

/-- What is read through `ip`: the string of its iteration while that lasts. -/
def readIp (s : ReceiveSession T) (ip : Nat) : Option Bytes :=
  if s.Alive ip then s.iterations[ip]?.map Iteration.ip else none

/-- `receivedQueue.push_back(addressedPacket); lock.unlock();` -/
def queueEntry (s : ReceiveSession T) (i : Iteration T) (port : Int) (packet : Packet T) :
    ReceiveSession T :=
  { s with
    receivedQueue := s.receivedQueue ++ [{ ip := s.iterations.length, port, packet }]
    iterations := s.iterations ++ [{ i with entry := some (port, packet) }]
    pc := .queued }

/-- The datagram in front is taken off the socket and answered with "1". -/
def acknowledge (address : Address) (s : ReceiveSession T) (source : Address)
    (origin : Option CallId) : ReceiveSession T :=
  { s with
    socket := s.socket.tail
    acks := s.acks ++ [{ source := address, destination := source, bytes := [0x31], origin }] }

/-- The body of the loop up to the unlock, with the datagram in front of the
socket and whether each `recvfrom` gives it. -/
def receive (L : Libraries) (address : Address) (s : ReceiveSession L.arrow.Table)
    (front : Option UdpDatagram) (peeks consumes : Bool) : ReceiveSession L.arrow.Table :=
  let peeked := if peeks then front else none
  let consumed := if consumes then front else none
  match UdpNetworking.receivePacketFrom L peeked consumed with
  | .failed => s.queueEntry { read := none } (-1) {}
  | .received source packet =>
    (s.acknowledge address source (front.bind UdpDatagram.origin)).queueEntry
      { read := front, ip := inetNtop source.ip } source.port.toNat packet
  | .threw _ =>
    { s with
      socket := s.socket.tail, iterations := s.iterations ++ [{ read := front }]
      pc := .terminated }
  | .undefined =>
    { s with
      socket := s.socket.tail, iterations := s.iterations ++ [{ read := front }]
      pc := .undefined }

/-- Element 0 and its erasure. On an empty queue the caller gets an entry
without an ip. -/
def popReceivedPacket (s : ReceiveSession T) : ReceiveSession T :=
  match s.receivedQueue with
  | [] => s
  | e :: rest => { s with receivedQueue := rest, popped := s.popped ++ [e] }

/-- `disconnect` closes the socket, and what waits in it is gone. -/
def disconnect (s : ReceiveSession T) : ReceiveSession T :=
  { s with connected := false, socket := [], edge := false, disconnectCalled := true }

def step (L : Libraries) (address : Address) (s : ReceiveSession L.arrow.Table) :
    ReceiveLabel → Option (ReceiveSession L.arrow.Table)
  | .arrive d =>
    if s.connected then some { s with socket := s.socket ++ [d], edge := true } else none
  | .loopTest =>
    match s.pc with
    | .loopTest => some { s with pc := if s.connected then .waiting else .finished }
    | _ => none
  | .epollWait reports =>
    match s.pc with
    | .waiting =>
      if reports then if s.edge then some { s with edge := false, pc := .receiving } else none
      else some { s with pc := .loopTest }
    | _ => none
  | .receivePacketFrom peeks consumes =>
    match s.pc with
    | .receiving => some (s.receive L address s.socket.head? peeks consumes)
    | _ => none
  | .endIteration =>
    match s.pc with
    | .queued => some { s with pc := .loopTest }
    | _ => none
  | .popReceivedPacket => if s.pc = .receiving then none else some s.popReceivedPacket
  | .readIp k =>
    s.popped[k]?.map fun e => { s with ipsRead := s.ipsRead ++ [(k, s.readIp e.ip)] }
  | .hasPacket answer =>
    if s.pc ≠ .receiving ∧ answer = !s.receivedQueue.isEmpty then some s else none
  | .disconnect => some s.disconnect

/-! ## What a step can do -/

/-- The steps of `receiveSession` and of the threads around it. -/
inductive Moves (L : Libraries) (address : Address) (s : ReceiveSession L.arrow.Table) :
    ReceiveLabel → ReceiveSession L.arrow.Table → Prop where
  | arrive (d : UdpDatagram) (hc : s.connected = true) : Moves L address s (.arrive d)
      { s with socket := s.socket ++ [d], edge := true }
  | loopTest (hpc : s.pc = .loopTest) : Moves L address s .loopTest
      { s with pc := if s.connected then .waiting else .finished }
  | report (hpc : s.pc = .waiting) (hedge : s.edge = true) : Moves L address s (.epollWait true)
      { s with edge := false, pc := .receiving }
  | noReport (hpc : s.pc = .waiting) : Moves L address s (.epollWait false) { s with pc := .loopTest }
  | failed (peeks consumes : Bool) (hpc : s.pc = .receiving)
      (hfails : (peeks && consumes) = true → s.socket = []) :
      Moves L address s (.receivePacketFrom peeks consumes) (s.queueEntry { read := none } (-1) {})
  | received (d : UdpDatagram) (rest : List UdpDatagram) (packet : Packet L.arrow.Table)
      (hpc : s.pc = .receiving) (hq : s.socket = d :: rest)
      (hd : UdpNetworking.decodeDatagram L d.bytes = some (.ok packet)) :
      Moves L address s (.receivePacketFrom true true)
        ((s.acknowledge address d.source d.origin).queueEntry
          { read := some d, ip := inetNtop d.source.ip } d.source.port.toNat packet)
  | threw (d : UdpDatagram) (rest : List UdpDatagram) (e : InvalidArgument)
      (hpc : s.pc = .receiving) (hq : s.socket = d :: rest)
      (hd : UdpNetworking.decodeDatagram L d.bytes = some (.error e)) :
      Moves L address s (.receivePacketFrom true true)
        { s with
          socket := s.socket.tail, iterations := s.iterations ++ [{ read := some d }]
          pc := .terminated }
  | undefined (d : UdpDatagram) (rest : List UdpDatagram) (hpc : s.pc = .receiving)
      (hq : s.socket = d :: rest) (hd : UdpNetworking.decodeDatagram L d.bytes = none) :
      Moves L address s (.receivePacketFrom true true)
        { s with
          socket := s.socket.tail, iterations := s.iterations ++ [{ read := some d }]
          pc := .undefined }
  | endIteration (hpc : s.pc = .queued) : Moves L address s .endIteration { s with pc := .loopTest }
  | pop (e : AddressedPacket L.arrow.Table) (rest : List (AddressedPacket L.arrow.Table))
      (hpc : s.pc ≠ .receiving) (hq : s.receivedQueue = e :: rest) :
      Moves L address s .popReceivedPacket
        { s with receivedQueue := rest, popped := s.popped ++ [e] }
  | readIp (k : Nat) (e : AddressedPacket L.arrow.Table) (hk : s.popped[k]? = some e) :
      Moves L address s (.readIp k) { s with ipsRead := s.ipsRead ++ [(k, s.readIp e.ip)] }
  | unchanged (l : ReceiveLabel) (hl : l = .popReceivedPacket ∨ ∃ answer, l = .hasPacket answer) :
      Moves L address s l s
  | disconnect : Moves L address s .disconnect s.disconnect

theorem moves_of_receive {L : Libraries} {address : Address} {s : ReceiveSession L.arrow.Table}
    (hpc : s.pc = .receiving) (peeks consumes : Bool) :
    Moves L address s (.receivePacketFrom peeks consumes)
      (s.receive L address s.socket.head? peeks consumes) := by
  cases peeks with
  | false => exact .failed false consumes hpc (fun h => by cases h)
  | true =>
    cases consumes with
    | false =>
      have hreceive : s.receive L address s.socket.head? true false =
          s.queueEntry { read := none } (-1) {} := by
        unfold receive
        cases s.socket.head? <;> rfl
      rw [hreceive]
      exact .failed true false hpc (fun h => by cases h)
    | true =>
      unfold receive
      cases hq : s.socket with
      | nil => exact .failed true true hpc (fun _ => hq)
      | cons d rest =>
        simp only [List.head?_cons, if_true, UdpNetworking.receivePacketFrom_self]
        cases hd : UdpNetworking.decodeDatagram L d.bytes with
        | none =>
          rw [← hq]
          exact .undefined d rest hpc hq hd
        | some r =>
          cases r with
          | error e =>
            rw [← hq]
            exact .threw d rest e hpc hq hd
          | ok packet => exact .received d rest packet hpc hq hd

theorem moves_of_step {L : Libraries} {address : Address} {s t : ReceiveSession L.arrow.Table}
    {l : ReceiveLabel} (h : step L address s l = some t) : Moves L address s l t := by
  cases l with
  | arrive d =>
    simp only [step] at h
    split at h
    · rename_i hc
      cases h
      exact .arrive d hc
    · cases h
  | loopTest =>
    simp only [step] at h
    split at h
    · rename_i hpc
      cases h
      exact .loopTest hpc
    · cases h
  | epollWait reports =>
    simp only [step] at h
    split at h
    · rename_i hpc
      cases reports with
      | true =>
        simp only [if_true] at h
        split at h
        · rename_i hedge
          cases h
          exact .report hpc hedge
        · cases h
      | false =>
        cases h
        exact .noReport hpc
    · cases h
  | receivePacketFrom peeks consumes =>
    simp only [step] at h
    split at h
    · rename_i hpc
      cases h
      exact moves_of_receive hpc peeks consumes
    · cases h
  | endIteration =>
    simp only [step] at h
    split at h
    · rename_i hpc
      cases h
      exact .endIteration hpc
    · cases h
  | popReceivedPacket =>
    simp only [step] at h
    split at h
    · cases h
    · rename_i hpc
      cases h
      unfold popReceivedPacket
      split
      · exact .unchanged _ (.inl rfl)
      · rename_i e rest hq
        exact .pop e rest hpc hq
  | readIp k =>
    obtain ⟨e, hk, rfl⟩ := Option.map_eq_some_iff.mp h
    exact .readIp k e hk
  | hasPacket answer =>
    simp only [step] at h
    split at h
    · cases h
      exact .unchanged _ (.inr ⟨answer, rfl⟩)
    · cases h
  | disconnect =>
    cases h
    exact .disconnect

end ReceiveSession
end Ttp2
