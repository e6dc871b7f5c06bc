import Ttp2.ReceiveSession
import Ttp2.Reference.Documented

/-! # The sending half of a peer (`peer_session_controller.cpp`)

`sendSession` between its system calls, with `sendPacketTo` and
`sendMessageTo` inside it, and the threads that queue packets. Anything may
reach the temporary socket of a call. A call keeps a record of where it sent
its buffer and of what it received. -/
namespace Ttp2
open Lib Octets Framing Lts

/-- An entry of `sendQueue`, with the address that `inet_addr` and `htons` make of
its `ip` and `port`; its caller keeps the string `ip` points to. -/
structure SendSession.AddressedPacket (T : Type) where
  address : Address
  packet : Packet T
  deriving DecidableEq

/-- What a call of `sendMessageTo` was given and did. -/
structure SendSession.CallRecord where
  number : Nat
  destination : Address
  encodedPacket : Bytes
  sentTo : List Address := []
  received : List UdpDatagram := []
  deriving DecidableEq

/-- Where the send thread is in `sendSession`, and in `sendMessageTo`. -/
inductive SendSessionPc where
  /-- at `while (isConnected())` -/
  | loopTest
  /-- before the lock and the test of `sendQueue` -/
  | polling
  /-- at `sendto` -/
  | sendto (c : SendingTo) (r : SendSession.CallRecord)
  /-- at `recvfrom` on the temporary socket -/
  | waiting (c : SendingTo) (r : SendSession.CallRecord)
  | finished
  /-- an exception left the thread -/
  | terminated
  deriving DecidableEq

structure SendSession (T : Type) where
  connected : Bool := true
  sendQueue : List (SendSession.AddressedPacket T) := []
  autoId : Int32 := 0
  pc : SendSessionPc := .loopTest
  queued : List (SendSession.AddressedPacket T) := []
  taken : List (SendSession.AddressedPacket T) := []
  /-- the destinations and encoded packets handed to `sendMessageTo` -/
  called : List (Address × Bytes) := []
  sent : List UdpDatagram := []
  /-- the calls of `sendMessageTo` that returned -/
  returned : List SendSession.CallRecord := []

inductive SendSessionLabel (T : Type) where
  | sendPacket (p : SendSession.AddressedPacket T)
  | loopTest
  /-- element 0 is taken, if there is one; the temporary socket gets a port, or
  `socket` fails -/
  | take (socket : Option UInt16)
  | sendto
  | timeout
  | waitError
  /-- a datagram reaches the temporary socket; `stale` stands in the buffer of the wait -/
  | answer (d : UdpDatagram) (stale : UInt8)
  | disconnect
  deriving DecidableEq

namespace SendSession
variable {T : Type}

/-- `sendSession` holds the mutex of the queue while it sends. -/
def sendLocked (s : SendSession T) : Bool :=
  match s.pc with
  | .sendto _ _ | .waiting _ _ => true
  | _ => false

/-- The call of `sendMessageTo` the thread is in. -/
def running (s : SendSession T) : Option (SendingTo × CallRecord) :=
  match s.pc with
  | .sendto c r | .waiting c r => some (c, r)
  | _ => none

theorem running_of_sendto {s : SendSession T} {c : SendingTo} {r : CallRecord}
    (hpc : s.pc = .sendto c r) : s.running = some (c, r) := by
  rw [running, hpc]

theorem running_of_waiting {s : SendSession T} {c : SendingTo} {r : CallRecord}
    (hpc : s.pc = .waiting c r) : s.running = some (c, r) := by
  rw [running, hpc]

theorem running_none {s : SendSession T} (h : s.running = none) {c : SendingTo} {r : CallRecord} :
    ¬ (s.pc = .sendto c r ∨ s.pc = .waiting c r) := by
  rintro (hpc | hpc)
  · rw [running_of_sendto hpc] at h
    cases h
  · rw [running_of_waiting hpc] at h
    cases h

/-- What `sendto` puts on its way. -/
def datagram (address : Address) (c : SendingTo) (r : CallRecord) : UdpDatagram where
  source := ⟨address.ip, c.socket⟩
  destination := c.serverAddress
  bytes := c.buffer
  origin := some ⟨address, r.number⟩

/-- The body of the loop, up to the first `sendto`. -/
def take (L : Libraries) (s : SendSession L.arrow.Table) (socket : Option UInt16) :
    SendSession L.arrow.Table :=
  match s.sendQueue with
  | [] => { s with pc := .loopTest }
  | p :: rest =>
    let (id, autoId) := assignId s.autoId p.packet.id
    let s := { s with sendQueue := rest, autoId, taken := s.taken ++ [p] }
    match Encode.encode L p.packet.payload id with
    | .error _ => { s with pc := .terminated }
    | .ok encodedPacket =>
      { s with
        called := s.called ++ [(p.address, encodedPacket)]
        pc := match socket with
          | none => .terminated
          | some port =>
            .sendto (.start port p.address (UdpNetworking.finalBuffer encodedPacket))
              { number := s.called.length, destination := p.address, encodedPacket } }

/-- An attempt is over. -/
def afterAttempt (s : SendSession T) (r : CallRecord) : Attempt → SendSession T
  | .again c => { s with pc := .sendto c r }
  | .returned => { s with pc := .loopTest, returned := s.returned ++ [r] }
  | .threw => { s with pc := .terminated }

/-- `recvfrom` on the temporary socket has returned. -/
def waited (s : SendSession T) (c : SendingTo) (r : CallRecord) (result : AckResult) :
    SendSession T :=
  s.afterAttempt r (c.waited result)

def step (L : Libraries) (address : Address) (s : SendSession L.arrow.Table) :
    SendSessionLabel L.arrow.Table → Option (SendSession L.arrow.Table)
  | .sendPacket p =>
    if s.sendLocked then none
    else some { s with sendQueue := s.sendQueue ++ [p], queued := s.queued ++ [p] }
  | .loopTest =>
    match s.pc with
    | .loopTest => some { s with pc := if s.connected then .polling else .finished }
    | _ => none
  | .take socket =>
    match s.pc with
    | .polling => some (s.take L socket)
    | _ => none
  | .sendto =>
    match s.pc with
    | .sendto c r =>
      some { s with
        sent := s.sent ++ [datagram address c r]
        pc := .waiting c { r with sentTo := r.sentTo ++ [c.serverAddress] } }
    | _ => none
  | .timeout =>
    match s.pc with
    | .waiting c r => some (s.waited c r .timeout)
    | _ => none
  | .waitError =>
    match s.pc with
    | .waiting c r => some (s.waited c r .error)
    | _ => none
  | .answer d stale =>
    match s.pc with
    | .waiting c r =>
      some (s.waited c { r with received := r.received ++ [d] }
        (.datagram d.source d.bytes stale))
    | _ => none
  | .disconnect => some { s with connected := false }

/-! ## What a step can do -/

theorem afterAttempt_cases (s : SendSession T) (c : SendingTo) (r : CallRecord)
    (result : AckResult) :
    (∃ c', s.waited c r result = { s with pc := .sendto c' r } ∧
      c.waited result = .again c') ∨
    (s.waited c r result = { s with pc := .loopTest, returned := s.returned ++ [r] } ∧
      c.waited result = .returned) ∨
    (s.waited c r result = { s with pc := .terminated } ∧ c.waited result = .threw) := by
  unfold SendSession.waited
  cases c.waited result with
  | again c' => exact .inl ⟨c', rfl, rfl⟩
  | returned => exact .inr (.inl ⟨rfl, rfl⟩)
  | threw => exact .inr (.inr ⟨rfl, rfl⟩)

/-- What the wait for the acknowledgement returns, and what was received. -/
inductive Waits : SendSessionLabel T → AckResult → List UdpDatagram → Prop where
  | timeout : Waits .timeout .timeout []
  | error : Waits .waitError .error []
  | answer (d : UdpDatagram) (stale : UInt8) :
      Waits (.answer d stale) (.datagram d.source d.bytes stale) [d]

/-- The steps of `sendSession` and of the threads around it. -/
inductive Moves (L : Libraries) (address : Address) (s : SendSession L.arrow.Table) :
    SendSessionLabel L.arrow.Table → SendSession L.arrow.Table → Prop where
  | sendPacket (p : AddressedPacket L.arrow.Table) : Moves L address s (.sendPacket p)
      { s with sendQueue := s.sendQueue ++ [p], queued := s.queued ++ [p] }
  | loopTest (hpc : s.pc = .loopTest) : Moves L address s .loopTest
      { s with pc := if s.connected then .polling else .finished }
  | takeNothing (socket : Option UInt16) (hpc : s.pc = .polling) (hq : s.sendQueue = []) :
      Moves L address s (.take socket) { s with pc := .loopTest }
  | take (socket : Option UInt16) (p : AddressedPacket L.arrow.Table)
      (rest : List (AddressedPacket L.arrow.Table)) (encodedPacket : Bytes) (hpc : s.pc = .polling)
      (hq : s.sendQueue = p :: rest)
      (he : Encode.encode L p.packet.payload (assignId s.autoId p.packet.id).1 =
        .ok encodedPacket) :
      Moves L address s (.take socket)
        { s with
          sendQueue := rest, autoId := (assignId s.autoId p.packet.id).2, taken := s.taken ++ [p]
          called := s.called ++ [(p.address, encodedPacket)]
          pc := match socket with
            | none => .terminated
            | some port =>
              .sendto (.start port p.address (UdpNetworking.finalBuffer encodedPacket))
                { number := s.called.length, destination := p.address, encodedPacket } }
  | reject (socket : Option UInt16) (p : AddressedPacket L.arrow.Table)
      (rest : List (AddressedPacket L.arrow.Table)) (e : Exception) (hpc : s.pc = .polling)
      (hq : s.sendQueue = p :: rest)
      (he : Encode.encode L p.packet.payload (assignId s.autoId p.packet.id).1 = .error e) :
      Moves L address s (.take socket)
        { s with
          sendQueue := rest, autoId := (assignId s.autoId p.packet.id).2, taken := s.taken ++ [p]
          pc := .terminated }
  | sendto (c : SendingTo) (r : CallRecord) (hpc : s.pc = .sendto c r) : Moves L address s .sendto
      { s with
        sent := s.sent ++ [datagram address c r]
        pc := .waiting c { r with sentTo := r.sentTo ++ [c.serverAddress] } }
  | waited (l : SendSessionLabel L.arrow.Table) (c : SendingTo) (r : CallRecord)
      (hpc : s.pc = .waiting c r) (result : AckResult) (received : List UdpDatagram)
      (hw : Waits l result received) :
      Moves L address s l (s.waited c { r with received := r.received ++ received } result)
  | disconnect : Moves L address s .disconnect { s with connected := false }

theorem moves_of_take {L : Libraries} {address : Address} {s : SendSession L.arrow.Table}
    (hpc : s.pc = .polling) (socket : Option UInt16) :
    Moves L address s (.take socket) (s.take L socket) := by
  unfold SendSession.take
  split
  · rename_i hq
    exact .takeNothing socket hpc hq
  · rename_i p rest hq
    dsimp only
    cases he : Encode.encode L p.packet.payload (assignId s.autoId p.packet.id).1 with
    | error e => exact .reject socket p rest e hpc hq he
    | ok encodedPacket => exact .take socket p rest encodedPacket hpc hq he

theorem moves_of_step {L : Libraries} {address : Address} {s t : SendSession L.arrow.Table}
    {l : SendSessionLabel L.arrow.Table} (h : step L address s l = some t) : Moves L address s l t := by
  cases l with
  | sendPacket p =>
    simp only [step] at h
    split at h
    · cases h
    · cases h
      exact .sendPacket p
  | loopTest =>
    simp only [step] at h
    split at h
    · rename_i hpc
      cases h
      exact .loopTest hpc
    · cases h
  | take socket =>
    simp only [step] at h
    split at h
    · rename_i hpc
      cases h
      exact moves_of_take hpc socket
    · cases h
  | sendto =>
    simp only [step] at h
    split at h
    · rename_i c r hpc
      cases h
      exact .sendto c r hpc
    · cases h
  | timeout =>
    simp only [step] at h
    split at h
    · rename_i c r hpc
      cases h
      have hmove : Moves L address s .timeout _ := .waited _ c r hpc .timeout [] .timeout
      rwa [List.append_nil] at hmove
    · cases h
  | waitError =>
    simp only [step] at h
    split at h
    · rename_i c r hpc
      cases h
      have hmove : Moves L address s .waitError _ := .waited _ c r hpc .error [] .error
      rwa [List.append_nil] at hmove
    · cases h
  | answer d stale =>
    simp only [step] at h
    split at h
    · rename_i c r hpc
      cases h
      exact .waited (.answer d stale) c r hpc _ [d] (.answer d stale)
    · cases h
  | disconnect =>
    cases h
    exact .disconnect

end SendSession
end Ttp2
