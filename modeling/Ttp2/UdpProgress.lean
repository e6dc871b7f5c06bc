import Ttp2.UdpDelivery
import Ttp2.Lib.Reach

/-! # What is queued can still be delivered

Wherever the two peers are, lost datagrams, late acknowledgements and all, if
nothing waits in the server socket they can go on so that every packet in the
queue is received once, in order (`can_deliver`): the running call gives up at
worst, and the calls behind it need one datagram, one edge and one
acknowledgement each. -/
namespace Ttp2
open Lib Octets Framing Lts Reach Encode Decode

namespace UdpLink
variable {L : Libraries} (b : Address) (port : UInt16) {s t : UdpLink L.arrow.Table}

/-- A step of the two threads, or a datagram that arrives; every temporary
socket gets this port. -/
def Smooth {T : Type} (port : UInt16) (_ : UdpLink T) : LinkLabel T → Prop
  | .take (some socket) => socket = port
  | .sendPacket _ | .take none | .waitError | .loseData _ | .loseAck _ | .readError
  | .disconnectSender | .disconnectReceiver => False
  | _ => True

/-- Both threads are in their loops, and nothing waits in the server socket. -/
structure Up {T : Type} (s : UdpLink T) : Prop where
  sends : s.sendConnected = true
  receives : s.receiveConnected = true
  sender : s.sender ≠ .finished ∧ s.sender ≠ .terminated
  receiver : s.receiver = .loopTest ∨ s.receiver = .waiting ∨ s.receiver = .reading
  socket : s.socket = []

/-- `encode` accepts every packet under the id it gets, `decode` its bytes, and
`sendto` the datagram. -/
def Accepted (L : Libraries) : Int32 → List (Packet L.arrow.Table) → Prop
  | _, [] => True
  | autoId, p :: packets =>
    (∃ body packet, encode L p.payload (assignId autoId p.id).1 = .ok body ∧
      decode L body = .ok packet ∧ (UdpNetworking.finalBuffer body).length ≤ maxDatagram) ∧
      Accepted L (assignId autoId p.id).2 packets

abbrev Goes (L : Libraries) (b : Address) (port : UInt16) :
    UdpLink L.arrow.Table → UdpLink L.arrow.Table → Prop :=
  Reaches (UdpLink.step L b) (Smooth port)

/-- With an edge pending, the receive thread comes to read. -/
theorem goes_reading (hc : s.receiveConnected = true) (hedge : s.edge = true)
    (hr : s.receiver = .loopTest ∨ s.receiver = .waiting ∨ s.receiver = .reading) :
    ∃ edge, Goes L b port s { s with edge, receiver := .reading } := by
  have hwaiting : ∀ s : UdpLink L.arrow.Table, s.receiver = .waiting → s.edge = true →
      Goes L b port s { s with edge := false, receiver := .reading } :=
    fun s hr hedge => .single (l := .epollWait true) trivial (by simp [step, hr, hedge])
  rcases hr with hr | hr | hr
  · have htest : Goes L b port s { s with receiver := .waiting } :=
      .single (l := .receiveTest) trivial (by simp [step, hr, hc])
    exact ⟨false, htest.trans (hwaiting { s with receiver := .waiting } rfl hedge)⟩
  · exact ⟨false, hwaiting s hr hedge⟩
  · refine ⟨s.edge, ?_⟩
    rw [← hr]
    exact .refl s

/-- A call whose datagrams get lost times out until its attempts are used up. -/
theorem goes_loopTest {c : SendingTo} (hs : s.sender = .waiting c) :
    ∃ data, Goes L b port s { s with data, sender := .loopTest } := by
  induction hn : c.maxResendCount generalizing s c with
  | zero => exact absurd c.more (by omega)
  | succ n ih =>
    have htimeout : ∀ pc, afterAttempt c.retry = pc → Goes L b port s { s with sender := pc } :=
      fun pc hpc => .single (l := .timeout) trivial (by simp [step, hs, waited, SendingTo.waited, hpc])
    rcases c.retry_cases with ⟨hret, -⟩ | ⟨c', hret, hretries⟩
    · exact ⟨s.data, htimeout .loopTest (by rw [hret]; rfl)⟩
    · have hagain := htimeout (.sendto c') (by rw [hret]; rfl)
      have hsent : Goes L b port { s with sender := .sendto c' }
          (sent { s with sender := .sendto c' } c') :=
        .single (l := .sendto) trivial rfl
      obtain ⟨data, hgoes⟩ := @ih (sent { s with sender := .sendto c' } c') c' rfl
        (Nat.succ.inj (hretries.count.trans hn))
      exact ⟨data, (hagain.trans hsent).trans hgoes⟩

theorem goes_test (hs : s.sender = .loopTest) (hc : s.sendConnected = true) :
    Goes L b port s { s with sender := .polling } :=
  .single (l := .sendTest) trivial (by simp [step, hs, hc])

theorem goes_polling (h : Up s) : ∃ data, Goes L b port s { s with data, sender := .polling } := by
  have hwaiting : ∀ (s : UdpLink L.arrow.Table) c, s.sender = .waiting c → s.sendConnected = true →
      ∃ data, Goes L b port s { s with data, sender := .polling } := by
    intro s c hs hc
    obtain ⟨data, hgoes⟩ := goes_loopTest b port hs
    exact ⟨data, hgoes.trans (goes_test b port rfl hc)⟩
  cases hs : s.sender with
  | loopTest => exact ⟨s.data, goes_test b port hs h.sends⟩
  | polling =>
    refine ⟨s.data, ?_⟩
    rw [← hs]
    exact .refl s
  | sendto c =>
    have hsent : Goes L b port s (s.sent c) := .single (l := .sendto) trivial (by simp [step, hs])
    obtain ⟨data, hgoes⟩ := hwaiting (s.sent c) c rfl h.sends
    exact ⟨data, hsent.trans hgoes⟩
  | waiting c => exact hwaiting s c hs h.sends
  | finished => exact absurd hs h.sender.1
  | terminated => exact absurd hs h.sender.2

theorem eraseIdx_concat {α : Type} (xs : List α) (x : α) : (xs ++ [x]).eraseIdx xs.length = xs := by
  rw [List.eraseIdx_append_of_length_le (Nat.le_refl _), Nat.sub_self]
  exact List.append_nil xs

/-- The latest datagram arrives and is received, and the call it belongs to
acknowledged. -/
theorem goes_answered (h : Up s) {c : SendingTo} (hs : s.sender = .waiting c) {d : Datagram}
    {data : List Datagram} (hdata : s.data = data ++ [d]) (hdestination : d.destination = b)
    (hsource : d.source = c.socket) {packet : Packet L.arrow.Table}
    (hd : UdpNetworking.decodeDatagram L d.bytes = some (.ok packet)) :
    ∃ edge, Goes L b port s { s with
      data, edge, sender := .loopTest, receiver := .loopTest
      receivedQueue := s.receivedQueue ++ [{ port := d.source.toNat, packet }]
      delivered := s.delivered ++ [{ call := d.call, packet }] } := by
  let arrived : UdpLink L.arrow.Table := { s with data, socket := [d], edge := true }
  have harrive : Goes L b port s arrived := by
    refine .single (l := .arrive data.length) trivial ?_
    have hget : s.data[data.length]? = some d := by
      rw [hdata]
      exact List.getElem?_concat_length ..
    have herase : s.data.eraseIdx data.length = data := by
      rw [hdata]
      exact eraseIdx_concat data d
    simp only [step, hget, if_pos (And.intro hdestination h.receives), herase, h.socket,
      List.nil_append, arrived]
  obtain ⟨edge, hreading⟩ := goes_reading b port (s := arrived)
    h.receives rfl h.receiver
  have hread : Goes L b port { arrived with edge, receiver := .reading } { s with
      data, edge, acks := s.acks ++ [{ port := d.source, call := d.call }], receiver := .loopTest
      receivedQueue := s.receivedQueue ++ [{ port := d.source.toNat, packet }]
      delivered := s.delivered ++ [{ call := d.call, packet }] } := by
    refine .single (l := .read) trivial ?_
    simp only [step, read, hd, arrived, h.socket]
  have hack : ∀ t : UdpLink L.arrow.Table, t.sender = .waiting c →
      t.acks = s.acks ++ [{ port := d.source, call := d.call }] →
        Goes L b port t { t with acks := s.acks, sender := .loopTest } := by
    intro t hsender hacks
    refine .single (l := .acknowledge s.acks.length) trivial ?_
    have hget : t.acks[s.acks.length]? = some { port := d.source, call := d.call } := by
      rw [hacks]
      exact List.getElem?_concat_length ..
    have herase : t.acks.eraseIdx s.acks.length = s.acks := by
      rw [hacks]
      exact eraseIdx_concat s.acks _
    simp only [step, hsender, hget, if_pos hsource, herase]
    rfl
  exact ⟨edge, ((harrive.trans hreading).trans hread).trans (hack _ hs rfl)⟩

/-- One packet is taken, sent, received and acknowledged. -/
theorem goes_received (hdoc : L.Documented) (h : Up s) (hs : s.sender = .polling)
    {p : Packet L.arrow.Table} {rest : List (Packet L.arrow.Table)} (hq : s.sendQueue = p :: rest)
    {body : Bytes} (he : encode L p.payload (assignId s.autoId p.id).1 = .ok body)
    {packet : Packet L.arrow.Table} (hd : decode L body = .ok packet)
    (hlen : (UdpNetworking.finalBuffer body).length ≤ maxDatagram) :
    ∃ t, Goes L b port s t ∧ Up t ∧ t.sender = .polling ∧ t.sendQueue = rest ∧
      t.autoId = (assignId s.autoId p.id).2 ∧ t.fromPeer = s.fromPeer ++ [packet] := by
  let c : SendingTo := .start port b (UdpNetworking.finalBuffer body)
  let taken : UdpLink L.arrow.Table := { s with
    sendQueue := rest, autoId := (assignId s.autoId p.id).2, taken := s.taken ++ [p]
    called := s.called ++ [body], sender := .sendto c }
  have htake : Goes L b port s taken := by
    refine .single (l := .take (some port)) rfl ?_
    simp only [step, hs, take, hq, he]
    rfl
  have hsent : Goes L b port taken (taken.sent c) := .single (l := .sendto) trivial rfl
  have hdata : (taken.sent c).data = s.data ++ [taken.datagram c] := congrArg _ (if_pos hlen)
  have hdecode : UdpNetworking.decodeDatagram L (taken.datagram c).bytes = some (.ok packet) := by
    rw [← hd]
    exact UdpNetworking.decodeDatagram_finalBuffer (length_encode hdoc he)
  obtain ⟨edge, hanswered⟩ := goes_answered b port (s := taken.sent c) (c := c)
    (d := taken.datagram c)
    ⟨h.sends, h.receives, ⟨by simp [sent], by simp [sent]⟩, h.receiver, h.socket⟩ rfl hdata rfl rfl
    hdecode
  refine ⟨_, ((htake.trans hsent).trans hanswered).trans (goes_test b port rfl h.sends),
    ⟨h.sends, h.receives, ⟨by simp, by simp⟩, .inl rfl, h.socket⟩, rfl, rfl, rfl, ?_⟩
  simp [fromPeer, taken, sent, datagram, c, SendingTo.start]

theorem goes_delivered (hdoc : L.Documented) {packets : List (Packet L.arrow.Table)} (h : Up s)
    (hs : s.sender = .polling) (hq : s.sendQueue = packets) (hacc : Accepted L s.autoId packets) :
    ∃ t, Goes L b port s t ∧ t.sender = .polling ∧ t.sendQueue = [] ∧
      t.fromPeer.map Except.ok = s.fromPeer.map Except.ok ++ carriedFrom L s.autoId packets := by
  induction packets generalizing s with
  | nil => exact ⟨s, .refl s, hs, hq, (List.append_nil _).symm⟩
  | cons p rest ih =>
    obtain ⟨⟨body, packet, he, hd, hlen⟩, hacc⟩ := hacc
    obtain ⟨m, hm, hup, hsender, hrest, hid, hfirst⟩ :=
      goes_received b port hdoc h hs hq he hd hlen
    obtain ⟨t, ht, hpolling, hempty, hall⟩ := ih hup hsender hrest (hid ▸ hacc)
    refine ⟨t, hm.trans ht, hpolling, hempty, ?_⟩
    rw [hall, hfirst, hid, List.map_append, List.append_assoc]
    simp only [carriedFrom, he, hd]
    rfl

/-- **No packet in the queue is out of reach**: from any state in which both
threads are in their loops and nothing waits in the server socket, they can go
on until the queue is empty and its packets have been received, each once and
in order. -/
theorem can_deliver (L : Libraries) (hdoc : L.Documented) (b : Address) (port : UInt16)
    (s : UdpLink L.arrow.Table) (h : Up s) (hacc : Accepted L s.autoId s.sendQueue) :
    ∃ t, Reaches (UdpLink.step L b) (Smooth port) s t ∧ t.sender = .polling ∧ t.sendQueue = [] ∧
      t.fromPeer.map Except.ok =
        s.fromPeer.map Except.ok ++ carriedFrom L s.autoId s.sendQueue := by
  obtain ⟨data, hpolling⟩ := goes_polling b port h
  obtain ⟨t, ht, hsender, hempty, hall⟩ := goes_delivered b port hdoc
    (s := { s with data, sender := .polling })
    ⟨h.sends, h.receives, ⟨by simp, by simp⟩, h.receiver, h.socket⟩ rfl rfl hacc
  exact ⟨t, hpolling.trans ht, hsender, hempty, hall⟩

/-- One attempt is left, and its datagram is lost. -/
theorem can_deliver_lost :
    let s : UdpLink Reference.libraries.arrow.Table :=
      { sendQueue := [{ id := 5, payload := .ls { directory := [0x2F] } }]
        sender := .waiting { SendingTo.start 40000 ⟨.quad 10 0 0 2, 9000⟩ [] with
          maxResendCount := 1, more := by omega, most := by omega } }
    ∃ t, Reaches (UdpLink.step Reference.libraries ⟨.quad 10 0 0 2, 9000⟩) (Smooth 40001) s t ∧
      t.sender = .polling ∧ t.sendQueue = [] ∧
      t.fromPeer.map Except.ok =
        s.fromPeer.map Except.ok ++ carriedFrom Reference.libraries s.autoId s.sendQueue :=
  can_deliver Reference.libraries Reference.libraries_documented _ _ _
    ⟨rfl, rfl, ⟨by simp, by simp⟩, .inl rfl, rfl⟩ ⟨⟨_, _, rfl, rfl, by decide⟩, trivial⟩

end UdpLink
end Ttp2
