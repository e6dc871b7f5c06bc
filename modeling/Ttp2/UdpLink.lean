import Ttp2.UdpNetworking
import Ttp2.Lib.Lts

/-! # From one peer to another (`peer_session_controller.cpp`)

The send thread of a peer, the receive thread of the peer it sends to, and
the datagrams between them, which are lost or arrive in any order. They wait in
the server socket in the order in which they arrived, and `epoll_wait` reports
it once for what has arrived since its last report. A datagram and its
acknowledgement carry the number of the call of `sendMessageTo` they belong to,
which neither peer sees. -/
namespace Ttp2
open Lib Octets Framing Lts

structure Datagram where
  source : UInt16
  destination : Address
  bytes : Bytes
  call : Nat
  deriving DecidableEq

/-- The datagram "1", to the port of a temporary socket. -/
structure Ack where
  port : UInt16
  call : Nat
  deriving DecidableEq

/-- An entry of `receivedQueue`; its `ip` points into a string that is gone by
then and is left out. -/
structure AddressedPacket (T : Type) where
  port : Int
  packet : Packet T
  deriving DecidableEq

/-- A packet received, with the call it comes from. -/
structure Delivery (T : Type) where
  call : Nat
  packet : Packet T
  deriving DecidableEq

/-- Where the send thread is in `sendSession`, and in `sendMessageTo`. -/
inductive PeerSenderPc where
  /-- at `while (isConnected())` -/
  | loopTest
  /-- before the lock and the test of `sendQueue` -/
  | polling
  /-- at `sendto` -/
  | sendto (c : SendingTo)
  /-- at `recvfrom` on the temporary socket -/
  | waiting (c : SendingTo)
  | finished
  /-- an exception left the thread -/
  | terminated
  deriving DecidableEq

/-- Where the receive thread is in `receiveSession`. -/
inductive PeerReceiverPc where
  | loopTest
  /-- in `epoll_wait` -/
  | waiting
  /-- in `receivePacketFrom` -/
  | reading
  | finished
  | terminated
  /-- bytes beyond the datagram were read -/
  | undefined
  deriving DecidableEq

/-- The sending peer, the receiving peer with its socket, and the network; then
what happened: the packets queued and taken, the encoded packets handed to
`sendMessageTo`, and the packets received. -/
structure UdpLink (T : Type) where
  sendConnected : Bool := true
  sendQueue : List (Packet T) := []
  autoId : Int32 := 0
  sender : PeerSenderPc := .loopTest
  receiveConnected : Bool := true
  receivedQueue : List (AddressedPacket T) := []
  receiver : PeerReceiverPc := .loopTest
  socket : List Datagram := []
  /-- a datagram has arrived since `epoll_wait` last reported the socket -/
  edge : Bool := false
  data : List Datagram := []
  acks : List Ack := []
  queued : List (Packet T) := []
  taken : List (Packet T) := []
  called : List Bytes := []
  delivered : List (Delivery T) := []

inductive LinkLabel (T : Type) where
  | sendPacket (packet : Packet T)
  | sendTest
  /-- element 0 is taken, if there is one; the temporary socket gets a port, or
  `socket` fails -/
  | take (socket : Option UInt16)
  | sendto
  | timeout
  | waitError
  | acknowledge (k : Nat)
  | loseData (k : Nat)
  | loseAck (k : Nat)
  | arrive (k : Nat)
  | receiveTest
  | epollWait (reports : Bool)
  | read
  | readError
  | disconnectSender
  | disconnectReceiver
  deriving DecidableEq

namespace UdpLink
variable {T : Type}

/-- `sendSession` holds the mutex of the queue while it sends. -/
def sendLocked (s : UdpLink T) : Bool :=
  match s.sender with
  | .sendto _ | .waiting _ => true
  | _ => false

/-- The number of the latest call of `sendMessageTo`. -/
def call (s : UdpLink T) : Nat := s.called.length - 1

/-- What `sendto` puts on its way in an attempt of the running call. -/
def datagram (s : UdpLink T) (c : SendingTo) : Datagram where
  source := c.socket
  destination := c.serverAddress
  bytes := c.buffer
  call := s.call

/-- What `sendto` has put on its way: nothing if the buffer is too long. -/
def transmitted (s : UdpLink T) (c : SendingTo) : List Datagram :=
  if c.buffer.length ≤ maxDatagram then [s.datagram c] else []

def sent (s : UdpLink T) (c : SendingTo) : UdpLink T :=
  { s with data := s.data ++ s.transmitted c, sender := .waiting c }

/-- The datagrams that were sent and neither lost nor read. -/
def underWay (s : UdpLink T) : List Datagram := s.socket ++ s.data

/-- The body of the loop of `sendSession`, up to the first `sendto`. -/
def take (L : Libraries) (b : Address) (s : UdpLink L.arrow.Table) (socket : Option UInt16) :
    UdpLink L.arrow.Table :=
  match s.sendQueue with
  | [] => { s with sender := .loopTest }
  | packet :: rest =>
    let (id, autoId) := assignId s.autoId packet.id
    let s := { s with sendQueue := rest, autoId, taken := s.taken ++ [packet] }
    match Encode.encode L packet.payload id with
    | .error _ => { s with sender := .terminated }
    | .ok encodedPacket =>
      { s with
        called := s.called ++ [encodedPacket]
        sender := match socket with
          | none => .terminated
          | some port => .sendto (.start port b (UdpNetworking.finalBuffer encodedPacket)) }

/-- Where the send thread is once an attempt has ended. -/
def afterAttempt : Attempt → PeerSenderPc
  | .again c => .sendto c
  | .returned => .loopTest
  | .threw => .terminated

/-- The wait for the acknowledgement is over. -/
def waited (s : UdpLink T) (c : SendingTo) (result : AckResult) : UdpLink T :=
  { s with sender := afterAttempt (c.waited result) }

/-- `receivePacketFrom` has read a datagram: the packet is acknowledged and queued. -/
def read (L : Libraries) (s : UdpLink L.arrow.Table) (d : Datagram) : UdpLink L.arrow.Table :=
  match UdpNetworking.decodeDatagram L d.bytes with
  | none => { s with receiver := .undefined }
  | some (.error _) => { s with receiver := .terminated }
  | some (.ok packet) =>
    { s with
      acks := s.acks ++ [{ port := d.source, call := d.call }]
      receivedQueue := s.receivedQueue ++ [{ port := d.source.toNat, packet }]
      delivered := s.delivered ++ [{ call := d.call, packet }]
      receiver := .loopTest }

def step (L : Libraries) (b : Address) (s : UdpLink L.arrow.Table) :
    LinkLabel L.arrow.Table → Option (UdpLink L.arrow.Table)
  | .sendPacket packet =>
    if s.sendLocked then none
    else some { s with sendQueue := s.sendQueue ++ [packet], queued := s.queued ++ [packet] }
  | .sendTest =>
    match s.sender with
    | .loopTest => some { s with sender := if s.sendConnected then .polling else .finished }
    | _ => none
  | .take socket =>
    match s.sender with
    | .polling => some (s.take L b socket)
    | _ => none
  | .sendto =>
    match s.sender with
    | .sendto c => some (s.sent c)
    | _ => none
  | .timeout =>
    match s.sender with
    | .waiting c => some (s.waited c .timeout)
    | _ => none
  | .waitError =>
    match s.sender with
    | .waiting c => some (s.waited c .error)
    | _ => none
  | .acknowledge k =>
    match s.sender, s.acks[k]? with
    | .waiting c, some ack =>
      if ack.port = c.socket then
        some ({ s with acks := s.acks.eraseIdx k }.waited c (.datagram b [0x31] 0))
      else none
    | _, _ => none
  | .loseData k => some { s with data := s.data.eraseIdx k }
  | .loseAck k => some { s with acks := s.acks.eraseIdx k }
  | .arrive k =>
    match s.data[k]? with
    | some d =>
      if d.destination = b ∧ s.receiveConnected then
        some { s with data := s.data.eraseIdx k, socket := s.socket ++ [d], edge := true }
      else none
    | none => none
  | .receiveTest =>
    match s.receiver with
    | .loopTest => some { s with receiver := if s.receiveConnected then .waiting else .finished }
    | _ => none
  | .epollWait reports =>
    match s.receiver with
    | .waiting =>
      if reports then if s.edge then some { s with edge := false, receiver := .reading } else none
      else some { s with receiver := .loopTest }
    | _ => none
  | .read =>
    match s.receiver, s.socket with
    | .reading, d :: rest => some ({ s with socket := rest }.read L d)
    | _, _ => none
  | .readError =>
    match s.receiver with
    | .reading =>
      some { s with
        receivedQueue := s.receivedQueue ++ [{ port := -1, packet := {} }]
        receiver := .loopTest }
    | _ => none
  | .disconnectSender => some { s with sendConnected := false }
  | .disconnectReceiver => some { s with receiveConnected := false, socket := [], edge := false }

/-! ## What a step can do -/

/-- In the loop of `sendSession`, before a packet is taken. -/
def Idle : PeerSenderPc → Prop
  | .loopTest | .polling => True
  | _ => False

/-- Not in a call of `sendMessageTo`. -/
def Outside : PeerSenderPc → Prop
  | .sendto _ | .waiting _ => False
  | _ => True

/-- The steps of a link, by what they do to the packets and the datagrams. -/
inductive Moves (L : Libraries) (b : Address) (s : UdpLink L.arrow.Table) :
    LinkLabel L.arrow.Table → UdpLink L.arrow.Table → Prop where
  | sendPacket (packet : Packet L.arrow.Table) : Moves L b s (.sendPacket packet)
      { s with sendQueue := s.sendQueue ++ [packet], queued := s.queued ++ [packet] }
  | outside (l : LinkLabel L.arrow.Table) (pc : PeerSenderPc) (hs : Idle s.sender)
      (hpc : Outside pc) : Moves L b s l { s with sender := pc }
  | take (socket : Option UInt16) (packet : Packet L.arrow.Table) (rest : List (Packet L.arrow.Table))
      (encodedPacket : Bytes) (pc : PeerSenderPc) (hs : s.sender = .polling)
      (hq : s.sendQueue = packet :: rest)
      (he : Encode.encode L packet.payload (assignId s.autoId packet.id).1 = .ok encodedPacket)
      (hpc : pc = .terminated ∨ ∃ port,
        pc = .sendto (.start port b (UdpNetworking.finalBuffer encodedPacket))) :
      Moves L b s (.take socket)
        { s with
          sendQueue := rest, autoId := (assignId s.autoId packet.id).2
          taken := s.taken ++ [packet], called := s.called ++ [encodedPacket], sender := pc }
  | reject (socket : Option UInt16) (packet : Packet L.arrow.Table)
      (rest : List (Packet L.arrow.Table)) (e : Exception) (hs : s.sender = .polling)
      (hq : s.sendQueue = packet :: rest)
      (he : Encode.encode L packet.payload (assignId s.autoId packet.id).1 = .error e) :
      Moves L b s (.take socket)
        { s with
          sendQueue := rest, autoId := (assignId s.autoId packet.id).2
          taken := s.taken ++ [packet], sender := .terminated }
  | sendto (c : SendingTo) (hs : s.sender = .sendto c) : Moves L b s .sendto (s.sent c)
  | retry (c c' : SendingTo) (hs : s.sender = .waiting c) (hbuf : c'.buffer = c.buffer)
      (hmax : c'.maxResendCount + 1 = c.maxResendCount) :
      Moves L b s .timeout { s with sender := .sendto c' }
  | giveUp (c : SendingTo) (hs : s.sender = .waiting c) :
      Moves L b s .timeout { s with sender := .loopTest }
  | waitError (c : SendingTo) (hs : s.sender = .waiting c) :
      Moves L b s .waitError { s with sender := .terminated }
  | acknowledge (k : Nat) (c : SendingTo) (ack : Ack) (hs : s.sender = .waiting c)
      (hk : s.acks[k]? = some ack) (hport : ack.port = c.socket) :
      Moves L b s (.acknowledge k) { s with acks := s.acks.eraseIdx k, sender := .loopTest }
  | loseData (k : Nat) : Moves L b s (.loseData k) { s with data := s.data.eraseIdx k }
  | loseAck (k : Nat) : Moves L b s (.loseAck k) { s with acks := s.acks.eraseIdx k }
  | arrive (k : Nat) (d : Datagram) (hk : s.data[k]? = some d) : Moves L b s (.arrive k)
      { s with data := s.data.eraseIdx k, socket := s.socket ++ [d], edge := true }
  | receiver (l : LinkLabel L.arrow.Table) (edge : Bool) (pc : PeerReceiverPc) :
      Moves L b s l { s with edge, receiver := pc }
  | readNothing (d : Datagram) (rest : List Datagram) (pc : PeerReceiverPc)
      (hq : s.socket = d :: rest) : Moves L b s .read { s with socket := rest, receiver := pc }
  | read (d : Datagram) (rest : List Datagram) (packet : Packet L.arrow.Table)
      (hq : s.socket = d :: rest)
      (hd : UdpNetworking.decodeDatagram L d.bytes = some (.ok packet)) :
      Moves L b s .read
        { s with
          socket := rest
          acks := s.acks ++ [{ port := d.source, call := d.call }]
          receivedQueue := s.receivedQueue ++ [{ port := d.source.toNat, packet }]
          delivered := s.delivered ++ [{ call := d.call, packet }]
          receiver := .loopTest }
  | readError : Moves L b s .readError
      { s with
        receivedQueue := s.receivedQueue ++ [{ port := -1, packet := {} }]
        receiver := .loopTest }
  | disconnectSender : Moves L b s .disconnectSender { s with sendConnected := false }
  | disconnectReceiver : Moves L b s .disconnectReceiver
      { s with receiveConnected := false, socket := [], edge := false }

theorem moves_of_take {L : Libraries} {b : Address} {s : UdpLink L.arrow.Table}
    (hs : s.sender = .polling) (socket : Option UInt16) :
    Moves L b s (.take socket) (s.take L b socket) := by
  have hidle : Idle s.sender := by
    rw [hs]
    trivial
  unfold take
  split
  · exact .outside _ .loopTest hidle trivial
  · rename_i packet rest hq
    dsimp only
    cases he : Encode.encode L packet.payload (assignId s.autoId packet.id).1 with
    | error e => exact .reject socket packet rest e hs hq he
    | ok encodedPacket =>
      refine .take socket packet rest encodedPacket _ hs hq he ?_
      cases socket with
      | none => exact .inl rfl
      | some port => exact .inr ⟨port, rfl⟩

theorem moves_of_step {L : Libraries} {b : Address} {s t : UdpLink L.arrow.Table}
    {l : LinkLabel L.arrow.Table} (h : step L b s l = some t) : Moves L b s l t := by
  cases l with
  | sendPacket packet =>
    simp only [step] at h
    split at h
    · cases h
    · cases h
      exact .sendPacket packet
  | sendTest =>
    simp only [step] at h
    split at h
    · rename_i hs
      cases h
      refine .outside _ _ (by rw [hs]; trivial) ?_
      split <;> trivial
    · cases h
  | take socket =>
    simp only [step] at h
    split at h
    · rename_i hs
      cases h
      exact moves_of_take hs socket
    · cases h
  | sendto =>
    simp only [step] at h
    split at h
    · rename_i c hs
      cases h
      exact .sendto c hs
    · cases h
  | timeout =>
    simp only [step] at h
    split at h
    · rename_i c hs
      cases h
      rcases c.retry_cases with ⟨hret, -⟩ | ⟨c', hret, hretries⟩
      · rw [waited, SendingTo.waited, hret]
        exact .giveUp c hs
      · rw [waited, SendingTo.waited, hret]
        exact .retry c c' hs hretries.buffer hretries.count
    · cases h
  | waitError =>
    simp only [step] at h
    split at h
    · rename_i c hs
      cases h
      exact .waitError c hs
    · cases h
  | acknowledge k =>
    simp only [step] at h
    split at h
    · rename_i c ack hs hk
      split at h
      · rename_i hport
        cases h
        exact .acknowledge k c ack hs hk hport
      · cases h
    · cases h
  | loseData k =>
    cases h
    exact .loseData k
  | loseAck k =>
    cases h
    exact .loseAck k
  | arrive k =>
    simp only [step] at h
    split at h
    · rename_i d hk
      split at h
      · cases h
        exact .arrive k d hk
      · cases h
    · cases h
  | receiveTest =>
    simp only [step] at h
    split at h
    · cases h
      exact .receiver _ _ _
    · cases h
  | epollWait reports =>
    simp only [step] at h
    split at h
    · split at h
      · split at h
        · cases h
          exact .receiver _ _ _
        · cases h
      · cases h
        exact .receiver _ _ _
    · cases h
  | read =>
    simp only [step] at h
    split at h
    · rename_i d rest hr hq
      cases h
      unfold read
      dsimp only
      split
      · exact .readNothing d rest _ hq
      · exact .readNothing d rest _ hq
      · rename_i packet hd
        exact .read d rest packet hq hd
    · cases h
  | readError =>
    simp only [step] at h
    split at h
    · cases h
      exact .readError
    · cases h
  | disconnectSender =>
    cases h
    exact .disconnectSender
  | disconnectReceiver =>
    cases h
    exact .disconnectReceiver

end UdpLink
end Ttp2
