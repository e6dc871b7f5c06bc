import Ttp2.CodedPacket
import Ttp2.UdpAcknowledgement

/-! # Where a received packet comes from

Datagrams carry no signature, and a retransmission goes to whoever answered
last. While only acknowledgements of peers reach the temporary sockets and
third parties send from other hosts, what a peer reads from a peer's host is a
packet that peer queued for it, and for nobody else (`received_from_queue`). -/
namespace Ttp2
open Lib Lts

/-! ## One sender -/

namespace SendSession
variable {L : Libraries} {address : Address} {s t : SendSession L.arrow.Table}
  {l : SendSessionLabel L.arrow.Table}

/-- A call was made for a packet taken. -/
theorem mem_handedOver {packets : List (AddressedPacket L.arrow.Table)} {c : Address × Bytes}
    (hc : c ∈ (handedOver L packets).1) :
    ∃ p ∈ packets, p.address = c.1 ∧ ∃ id, Encode.encode L p.packet.payload id = .ok c.2 := by
  induction packets using List.reverseRecOn with
  | nil => cases hc
  | append_singleton packets p ih =>
    rw [handedOver_concat, handNext] at hc
    dsimp only at hc
    split at hc
    · rename_i encodedPacket he
      rcases List.mem_append.mp hc with hc | hc
      · obtain ⟨q, hq, hrest⟩ := ih hc
        exact ⟨q, List.mem_append_left _ hq, hrest⟩
      · rw [List.mem_singleton.mp hc]
        exact ⟨p, List.mem_append_right _ (List.mem_singleton_self p), rfl, _, he⟩
    · obtain ⟨q, hq, hrest⟩ := ih hc
      exact ⟨q, List.mem_append_left _ hq, hrest⟩

theorem taken_subset (hs : step L address s l = some t) : s.taken ⊆ t.taken := by
  cases moves_of_step hs with
  | take socket p rest encodedPacket hpc hq he => exact List.subset_append_left ..
  | reject socket p rest e hpc hq he => exact List.subset_append_left ..
  | waited l c r hpc result received hw =>
    rcases afterAttempt_cases s c { r with received := r.received ++ received } result with
      ⟨c', ht, -⟩ | ⟨ht, -⟩ | ⟨ht, -⟩ <;> rw [ht] <;> exact List.Subset.refl _
  | _ => exact List.Subset.refl _

end SendSession

namespace UdpNetwork
variable {L : Libraries} {peers : List Address} {s t : UdpNetwork L.arrow.Table} {a : Address}
  {l : NetworkLabel L.arrow.Table}

/-- The datagram is the coding of a packet that the peer `a` took from its
queue, and goes to the address this packet was queued for. -/
def Carries (L : Libraries) (s : UdpNetwork L.arrow.Table) (a : Address) (d : UdpDatagram) : Prop :=
  ∃ p ∈ (s.senders a).taken, p.address = d.destination ∧
    ∃ id buffer, Encode.encode L p.packet.payload id = .ok buffer ∧
      d.bytes = UdpNetworking.finalBuffer buffer

/-- What the peer `b` reads from a peer's host is what this peer queued for it. -/
def FromQueue (L : Libraries) (peers : List Address) (s : UdpNetwork L.arrow.Table) : Prop :=
  ∀ b ∈ peers, ∀ i ∈ (s.receivers b).iterations, ∀ d, i.read = some d →
    ¬ Foreign peers d.source → ∀ port packet, i.entry = some (port, packet) →
      ∃ a ∈ peers, a.ip = d.source.ip ∧ ∃ p ∈ (s.senders a).taken, p.address = b ∧
        ∃ id buffer, Encode.encode L p.packet.payload id = .ok buffer ∧
          Decode.decode L buffer = .ok packet

/-- The datagrams on their way and those that were read. -/
structure Carried (L : Libraries) (peers : List Address) (s : UdpNetwork L.arrow.Table) : Prop where
  senders : ∀ a, SendSession.HandsOverInvariant L a (s.senders a)
  traced : Traced peers s
  sent : ∀ a ∈ peers, ∀ d ∈ (s.senders a).sent, d.source.ip = a.ip ∧ Carries L s a d
  read : FromQueue L peers s

theorem Carried.init : Carried L peers ({} : UdpNetwork L.arrow.Table) where
  senders := fun _ => .init
  traced := .init
  sent := fun _ _ _ hd => absurd hd List.not_mem_nil
  read := fun _ _ _ hi => absurd hi List.not_mem_nil

/-- A datagram that reads as a packet and comes from a peer's host. -/
theorem Carried.packet (h : Carried L peers s) (hdoc : L.Documented) {b : Address} (hb : b ∈ peers)
    {d : UdpDatagram} (hd : d ∈ (s.receivers b).socket) {packet : Packet L.arrow.Table}
    (hdecode : UdpNetworking.decodeDatagram L d.bytes = some (.ok packet))
    (hforeign : ¬ Foreign peers d.source) :
    ∃ a ∈ peers, a.ip = d.source.ip ∧ ∃ p ∈ (s.senders a).taken, p.address = b ∧
      ∃ id buffer, Encode.encode L p.packet.payload id = .ok buffer ∧
        Decode.decode L buffer = .ok packet := by
  obtain ⟨hdest, ⟨a, ha, hsent⟩ | hbytes | hother⟩ := h.traced.arrived b hb d hd
  · obtain ⟨hip, p, hp, haddress, id, buffer, he, hbuffer⟩ := h.sent a ha d hsent
    rw [hbuffer, UdpNetworking.decodeDatagram_finalBuffer (length_encode hdoc he)] at hdecode
    exact ⟨a, ha, hip.symm, p, hp, haddress.trans hdest, id, buffer, he, Option.some.inj hdecode⟩
  · -- an acknowledgement is no packet
    rw [hbytes] at hdecode
    cases hdecode
  · exact absurd hother hforeign

/-! ## A sender moves -/

section Sender
variable {x : SendSession L.arrow.Table} {k : SendSessionLabel L.arrow.Table}

theorem taken_grows (hs : SendSession.step L a (s.senders a) k = some x) (b : Address) :
    (s.senders b).taken ⊆ ((s.setSender a x).senders b).taken := by
  by_cases hb : b = a
  · subst hb
    rw [sender_self]
    exact SendSession.taken_subset hs
  · rw [sender_ne s x hb]
    exact List.Subset.refl _

theorem Carries.mono (hs : SendSession.step L a (s.senders a) k = some x) {b : Address}
    {d : UdpDatagram} (h : Carries L s b d) : Carries L (s.setSender a x) b d := by
  obtain ⟨p, hp, hrest⟩ := h
  exact ⟨p, taken_grows hs b hp, hrest⟩

theorem FromQueue.mono (hs : SendSession.step L a (s.senders a) k = some x)
    (h : FromQueue L peers s) : FromQueue L peers (s.setSender a x) := by
  intro b hb i hi d hread hforeign port packet hentry
  obtain ⟨q, hq, hip, p, hp, hrest⟩ := h b hb i hi d hread hforeign port packet hentry
  exact ⟨q, hq, hip, p, taken_grows hs q hp, hrest⟩

/-- A call that runs has a packet, and goes where the packet goes. -/
theorem Carried.datagram (h : Carried L peers s) (ha : a ∈ peers) {c : SendingTo}
    {r : SendSession.CallRecord} (hrun : (s.senders a).running = some (c, r)) :
    Carries L s a (SendSession.datagram a c r) := by
  have hpc : (s.senders a).pc = .sendto c r ∨ (s.senders a).pc = .waiting c r := by
    unfold SendSession.running at hrun
    split at hrun
    · rename_i hpc
      cases hrun
      exact .inl hpc
    · rename_i hpc
      cases hrun
      exact .inr hpc
    · cases hrun
  obtain ⟨-, hcalled, hbuffer⟩ := (h.senders a).current c r hpc
  have hmem := List.mem_of_getElem? hcalled
  have hhanded : (s.senders a).called = (SendSession.handedOver L (s.senders a).taken).1 :=
    congrArg Prod.fst (h.senders a).handsOver.called
  rw [hhanded] at hmem
  obtain ⟨p, hp, haddress, id, he⟩ := SendSession.mem_handedOver hmem
  exact ⟨p, hp, haddress.trans (h.traced.running a ha c r hrun).1.symm, id, _, he, hbuffer⟩

theorem Carried.sender (h : Carried L peers s) (ha : a ∈ peers)
    (hs : SendSession.step L a (s.senders a) k = some x) (htraced : Traced peers (s.setSender a x)) :
    Carried L peers (s.setSender a x) where
  senders := by
    intro b
    by_cases hb : b = a
    · subst hb
      rw [sender_self]
      exact (h.senders b).step hs
    · rw [sender_ne s x hb]
      exact h.senders b
  traced := htraced
  sent := by
    intro b hb d hd
    by_cases hba : b = a
    · subst hba
      rw [sender_self] at hd
      rcases SendSession.sent_of_step hs hd with hd | ⟨c, r, hrun, rfl⟩
      · exact (h.sent b hb d hd).imp id (Carries.mono hs)
      · exact ⟨rfl, (h.datagram hb hrun).mono hs⟩
    · rw [sender_ne s x hba] at hd
      exact (h.sent b hb d hd).imp id (Carries.mono hs)
  read := h.read.mono hs

end Sender

/-! ## A receiver moves -/

section Receiver
variable {y : ReceiveSession L.arrow.Table} {k : ReceiveLabel}

/-- An iteration is an old one, or it read a datagram of the socket. -/
theorem iterations_of_step (hs : ReceiveSession.step L a (s.receivers a) k = some y)
    {i : ReceiveSession.Iteration L.arrow.Table} (hi : i ∈ y.iterations) :
    i ∈ (s.receivers a).iterations ∨ ∀ d, i.read = some d → ∀ port packet,
      i.entry = some (port, packet) → d ∈ (s.receivers a).socket ∧
        UdpNetworking.decodeDatagram L d.bytes = some (.ok packet) := by
  cases ReceiveSession.moves_of_step hs with
  | failed peeks consumes hpc hfails =>
    rcases List.mem_append.mp hi with hi | hi
    · exact .inl hi
    · rw [List.mem_singleton.mp hi]
      exact .inr fun d hread => nomatch hread
  | received d rest packet hpc hq hd =>
    rcases List.mem_append.mp hi with hi | hi
    · exact .inl hi
    · rw [List.mem_singleton.mp hi]
      refine .inr fun d' hread port packet' hentry => ?_
      cases hread
      cases hentry
      exact ⟨by rw [hq]; exact List.mem_cons_self, hd⟩
  | threw d rest e hpc hq hd =>
    rcases List.mem_append.mp hi with hi | hi
    · exact .inl hi
    · rw [List.mem_singleton.mp hi]
      exact .inr fun d' _ port packet hentry => nomatch hentry
  | undefined d rest hpc hq hd =>
    rcases List.mem_append.mp hi with hi | hi
    · exact .inl hi
    · rw [List.mem_singleton.mp hi]
      exact .inr fun d' _ port packet hentry => nomatch hentry
  | _ => exact .inl hi

theorem Carried.receiver (h : Carried L peers s) (hdoc : L.Documented)
    (hs : ReceiveSession.step L a (s.receivers a) k = some y)
    (htraced : Traced peers (s.setReceiver a y)) : Carried L peers (s.setReceiver a y) where
  senders := h.senders
  traced := htraced
  sent := h.sent
  read := by
    intro b hb i hi d hread hforeign port packet hentry
    by_cases hba : b = a
    · subst hba
      rw [receiver_self] at hi
      rcases iterations_of_step hs hi with hi | hnew
      · exact h.read b hb i hi d hread hforeign port packet hentry
      · obtain ⟨hd, hdecode⟩ := hnew d hread port packet hentry
        exact h.packet hdoc hb hd hdecode hforeign
    · rw [receiver_ne s y hba] at hi
      exact h.read b hb i hi d hread hforeign port packet hentry

end Receiver

/-! ## The network moves -/

theorem Carried.step (h : Carried L peers s) (hdoc : L.Documented) (hok : Undisturbed peers s l)
    (hs : step L peers s l = some t) : Carried L peers t := by
  have htraced := h.traced.step hok hs
  cases moves_of_step hs with
  | send a k x ha hk hx => exact h.sender ha hx htraced
  | answer o a stale d x ha hd hsocket hx => exact h.sender ha hx htraced
  | receive a k y ha hk hy => exact h.receiver hdoc hy htraced
  | arrive o d y ha hd hy => exact h.receiver hdoc hy htraced
  | disconnect a x y ha hx hy =>
    have hmid : Traced peers (s.setSender a x) := h.traced.sender ha hx nofun nofun
    exact (h.sender ha hx hmid).receiver hdoc hy htraced

end UdpNetwork
end Ttp2
