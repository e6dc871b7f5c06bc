import Ttp2.ReceiveSession
import Ttp2.Reference.Documented

/-! # What the receiving half of a peer gets wrong, and when it does not

Nothing in `receiveSession` catches what `decode` throws: the first body it
rejects ends the thread. The registration is edge-triggered and one datagram is
read for one edge: a second one that came with the first waits for a third.
And an entry's `ip` points into a string that is gone when the iteration is
over, while a failed read is queued like a packet. -/
namespace Ttp2
open Lib Octets Framing Inet Lts

namespace ReceiveSession
variable {L : Libraries} {address : Address} {s t : ReceiveSession L.arrow.Table} {l : ReceiveLabel}

/-! ## Bodies that do not decode -/

/-- The iteration queued the decoded packet of the datagram it read, or
nothing where `decode` rejects the body. -/
def Iteration.Exact (L : Libraries) (i : Iteration L.arrow.Table) : Prop :=
  ∀ d, i.read = some d → i.entry = match Decode.decode L (d.bytes.drop 4) with
    | .ok packet => some ((d.source.port.toNat : Int), packet)
    | .error _ => none

/-- **The peer is not brought down**: no exception has left the thread, which
ends for a disconnect only; every iteration was exact, and nothing else is in
the queue or was popped from it. -/
structure GoesOn (L : Libraries) (s : ReceiveSession L.arrow.Table) : Prop where
  alive : s.pc ≠ .terminated ∧ s.pc ≠ .undefined
  finished : s.pc = .finished → s.connected = false
  connected : s.connected = !s.disconnectCalled
  exact : ∀ i ∈ s.iterations, i.Exact L
  queue : (s.popped ++ s.receivedQueue).map (fun e => (e.port, e.packet)) =
    s.iterations.filterMap Iteration.entry

/-- The datagrams that arrive are well-framed, whatever their bodies. -/
def ArrivesFramed (_ : ReceiveSession L.arrow.Table) : ReceiveLabel → Prop
  | .arrive d => UdpNetworking.WellFramed d.bytes
  | _ => True

/-- `decode` accepts the body of a datagram that is read. -/
def BodyDecodes (s : ReceiveSession L.arrow.Table) : ReceiveLabel → Prop
  | .receivePacketFrom true true =>
    s.socket.head?.all (fun d => (Decode.decode L (d.bytes.drop 4)).isOk) = true
  | _ => True

structure GoesOnInvariant (L : Libraries) (s : ReceiveSession L.arrow.Table) : Prop where
  goesOn : GoesOn L s
  framed : ∀ d ∈ s.socket, UdpNetworking.WellFramed d.bytes

theorem GoesOnInvariant.init : GoesOnInvariant L {} where
  goesOn :=
    { alive := ⟨nofun, nofun⟩
      finished := fun h => nomatch h
      connected := rfl
      exact := fun _ h => absurd h List.not_mem_nil
      queue := rfl }
  framed := fun _ h => absurd h List.not_mem_nil

/-- A step that neither reads nor pops. -/
theorem GoesOnInvariant.of_same (h : GoesOnInvariant L s)
    (hpc : t.pc = s.pc ∨ t.pc = .loopTest ∨ t.pc = .waiting ∨ t.pc = .receiving ∨
      t.pc = .finished ∧ t.connected = false)
    (hconn : s.connected = false → t.connected = false)
    (hdisconnect : t.connected = !t.disconnectCalled) (hits : t.iterations = s.iterations)
    (hqueue : t.receivedQueue = s.receivedQueue) (hpopped : t.popped = s.popped)
    (hsocket : ∀ d ∈ t.socket, UdpNetworking.WellFramed d.bytes) : GoesOnInvariant L t where
  goesOn :=
    { alive := by
        have := h.goesOn.alive
        rcases hpc with hpc | hpc | hpc | hpc | ⟨hpc, -⟩ <;> rw [hpc] <;> first | exact this | simp
      finished := fun hf => by
        rcases hpc with hpc | hpc | hpc | hpc | ⟨-, hc⟩
        · exact hconn (h.goesOn.finished (hpc ▸ hf))
        · rw [hpc] at hf
          cases hf
        · rw [hpc] at hf
          cases hf
        · rw [hpc] at hf
          cases hf
        · exact hc
      connected := hdisconnect
      exact := hits ▸ h.goesOn.exact
      queue := by rw [hits, hqueue, hpopped, h.goesOn.queue] }
  framed := hsocket

/-- An iteration queues its entry. -/
theorem GoesOnInvariant.queueEntry (h : GoesOnInvariant L s) {i : Iteration L.arrow.Table}
    {port : Int} {packet : Packet L.arrow.Table}
    (hexact : Iteration.Exact L { i with entry := some (port, packet) }) :
    GoesOnInvariant L (s.queueEntry i port packet) where
  goesOn :=
    { alive := ⟨by simp [ReceiveSession.queueEntry], by simp [ReceiveSession.queueEntry]⟩
      finished := fun hf => nomatch hf
      connected := h.goesOn.connected
      exact := by
        intro j hj
        rcases List.mem_append.mp hj with hj | hj
        · exact h.goesOn.exact j hj
        · rw [List.mem_singleton.mp hj]
          exact hexact
      queue := by
        simp only [ReceiveSession.queueEntry, List.filterMap_append]
        rw [← List.append_assoc, List.map_append, h.goesOn.queue]
        rfl }
  framed := h.framed

theorem GoesOnInvariant.step (h : GoesOnInvariant L s) (henv : ArrivesFramed s l)
    (hok : BodyDecodes s l) (hs : step L address s l = some t) : GoesOnInvariant L t := by
  cases moves_of_step hs with
  | arrive d hc =>
    refine h.of_same (.inl rfl) id h.goesOn.connected rfl rfl rfl fun d' hd' => ?_
    rcases List.mem_append.mp hd' with hd' | hd'
    · exact h.framed d' hd'
    · rw [List.mem_singleton.mp hd']
      exact henv
  | loopTest hpc =>
    refine h.of_same ?_ id h.goesOn.connected rfl rfl rfl h.framed
    by_cases hc : s.connected
    · exact .inr (.inr (.inl (if_pos hc)))
    · exact .inr (.inr (.inr (.inr ⟨if_neg hc, Bool.eq_false_iff.mpr hc⟩)))
  | report hpc hedge =>
    exact h.of_same (.inr (.inr (.inr (.inl rfl)))) id h.goesOn.connected rfl rfl rfl h.framed
  | noReport hpc => exact h.of_same (.inr (.inl rfl)) id h.goesOn.connected rfl rfl rfl h.framed
  | failed peeks consumes hpc hfails => exact h.queueEntry fun d hd => nomatch hd
  | received d rest packet hpc hq hd =>
    have hacked : GoesOnInvariant L (s.acknowledge address d.source d.origin) :=
      h.of_same (.inl rfl) id h.goesOn.connected rfl rfl rfl
        fun d' hd' => h.framed d' (List.mem_of_mem_tail hd')
    refine hacked.queueEntry fun d' hd' => ?_
    cases hd'
    have hframed := h.framed d (by rw [hq]; exact List.mem_cons_self ..)
    rw [UdpNetworking.decodeDatagram_wellFramed hframed, Option.some.injEq] at hd
    rw [hd]
  | threw d rest e hpc hq hd =>
    have hframed := h.framed d (by rw [hq]; exact List.mem_cons_self ..)
    rw [UdpNetworking.decodeDatagram_wellFramed hframed, Option.some.injEq] at hd
    simp only [BodyDecodes, hq, List.head?_cons, Option.all_some, hd] at hok
    cases hok
  | undefined d rest hpc hq hd =>
    have hframed := h.framed d (by rw [hq]; exact List.mem_cons_self ..)
    rw [UdpNetworking.decodeDatagram_wellFramed hframed] at hd
    cases hd
  | endIteration hpc =>
    exact h.of_same (.inr (.inl rfl)) id h.goesOn.connected rfl rfl rfl h.framed
  | pop e rest hpc hq =>
    refine ⟨⟨h.goesOn.alive, h.goesOn.finished, h.goesOn.connected, h.goesOn.exact, ?_⟩, h.framed⟩
    rw [← h.goesOn.queue, hq, List.append_assoc, List.singleton_append]
  | readIp k e hk => exact h.of_same (.inl rfl) id h.goesOn.connected rfl rfl rfl h.framed
  | unchanged l hl => exact h
  | disconnect =>
    exact h.of_same (.inl rfl) (fun _ => rfl) rfl rfl rfl rfl fun _ hd => absurd hd List.not_mem_nil

/-- **A well-framed datagram brings the peer down** exactly if its body does
not decode. -/
theorem goes_on_iff (L : Libraries) (address : Address) (ls : List ReceiveLabel)
    (t : ReceiveSession L.arrow.Table)
    (henv : Along (ReceiveSession.step L address) ArrivesFramed {} ls)
    (hrun : run (ReceiveSession.step L address) {} ls = some t) :
    Throughout (ReceiveSession.step L address) (GoesOn L) {} ls ↔
      Along (ReceiveSession.step L address) BodyDecodes {} ls := by
  refine throughout_iff_along (I := GoesOnInvariant L) (fun h => h.goesOn) ?_ ?_ .init henv hrun
  · intro s l t h he hok hs
    exact h.step he hok hs
  · intro s l t h he hbad hs hgoes
    cases moves_of_step hs with
    | threw d rest e hpc hq hd => exact hgoes.alive.1 rfl
    | undefined d rest hpc hq hd => exact hgoes.alive.2 rfl
    | received d rest packet hpc hq hd =>
      have hframed := h.framed d (by rw [hq]; exact List.mem_cons_self ..)
      rw [UdpNetworking.decodeDatagram_wellFramed hframed, Option.some.injEq] at hd
      exact hbad (by simp only [BodyDecodes, hq, List.head?_cons, Option.all_some, hd]; rfl)
    | failed peeks consumes hpc hfails =>
      cases peeks with
      | false => exact hbad trivial
      | true =>
        cases consumes with
        | false => exact hbad trivial
        | true => exact hbad (by simp only [BodyDecodes, hfails rfl]; rfl)
    | unchanged l hl =>
      rcases hl with rfl | ⟨answer, rfl⟩
      · exact hbad trivial
      · exact hbad trivial
    | _ => exact hbad trivial

instance (s : ReceiveSession L.arrow.Table) : (l : ReceiveLabel) → Decidable (ArrivesFramed s l)
  | .arrive d => inferInstanceAs (Decidable (UdpNetworking.WellFramed d.bytes))
  | .loopTest | .epollWait _ | .receivePacketFrom _ _ | .endIteration | .popReceivedPacket
  | .readIp _ | .hasPacket _ | .disconnect => inferInstanceAs (Decidable True)

instance (s : ReceiveSession L.arrow.Table) : (l : ReceiveLabel) → Decidable (BodyDecodes s l)
  | .receivePacketFrom true true => inferInstanceAs (Decidable (_ = true))
  | .arrive _ | .loopTest | .epollWait _ | .receivePacketFrom false _ | .receivePacketFrom true false
  | .endIteration | .popReceivedPacket | .readIp _ | .hasPacket _ | .disconnect =>
    inferInstanceAs (Decidable True)

/-- A failed read between two packets, and a disconnect. -/
theorem goes_on_packets :
    let d : UdpDatagram :=
      { source := ⟨.quad 10 0 0 1, 40000⟩, destination := ⟨.quad 10 0 0 2, 9000⟩
        bytes := frame [0x30, 0x0A, 0x02, 0x01, 5, 0xA7, 5, 0x30, 3, 4, 1, 0x2F] }
    Throughout (ReceiveSession.step Reference.libraries ⟨.quad 10 0 0 2, 9000⟩)
      (GoesOn Reference.libraries) {}
      [.arrive d, .loopTest, .epollWait true, .receivePacketFrom true true, .endIteration, .arrive d,
        .loopTest, .epollWait true, .receivePacketFrom false true, .endIteration, .arrive d,
        .popReceivedPacket, .loopTest, .epollWait true, .receivePacketFrom true true, .disconnect,
        .endIteration, .loopTest] := by
  intro d
  exact (goes_on_iff Reference.libraries ⟨.quad 10 0 0 2, 9000⟩ _ _ (by decide) rfl).mpr (by decide)

/-- **An empty body** is framed well, and ends the thread. -/
theorem empty_body_ends_thread :
    let ls : List ReceiveLabel :=
      [.arrive { source := ⟨.quad 10 0 0 1, 40000⟩, destination := ⟨.quad 10 0 0 2, 9000⟩,
                 bytes := [0, 0, 0, 0] },
        .loopTest, .epollWait true, .receivePacketFrom true true]
    Along (ReceiveSession.step Reference.libraries ⟨.quad 10 0 0 2, 9000⟩) ArrivesFramed {} ls ∧
      ¬ Throughout (ReceiveSession.step Reference.libraries ⟨.quad 10 0 0 2, 9000⟩)
        (GoesOn Reference.libraries) {} ls := by
  intro ls
  refine ⟨by decide, fun h => ?_⟩
  obtain ⟨t, hrun, hpc⟩ : ∃ t, run (ReceiveSession.step Reference.libraries ⟨.quad 10 0 0 2, 9000⟩) {}
      ls = some t ∧ t.pc = .terminated := ⟨_, rfl, rfl⟩
  exact (h.last hrun).alive.1 hpc

/-! ## One datagram for one edge -/

/-- **No datagram waits** while the thread does and no edge is pending. -/
def NoneWaiting (s : ReceiveSession L.arrow.Table) : Prop :=
  s.pc = .waiting → s.edge = false → s.socket = []

/-- A call of `receivePacketFrom` without a pending edge leaves no datagram in the socket. -/
def LastOfEdge (s : ReceiveSession L.arrow.Table) : ReceiveLabel → Prop
  | .receivePacketFrom peeks consumes =>
    s.edge = false → (if peeks && consumes then s.socket.tail else s.socket) = []
  | _ => True

/-- Outside `receivePacketFrom` what waits has an edge pending. -/
def Announced (s : ReceiveSession L.arrow.Table) : Prop :=
  s.pc = .receiving ∨ s.edge = true ∨ s.socket = []

/-- `receivePacketFrom` has taken a datagram. -/
theorem Announced.taken (hedge : t.edge = s.edge) (hsocket : t.socket = s.socket.tail)
    (hok : s.edge = false → s.socket.tail = []) : Announced t := by
  by_cases h : s.edge = true
  · exact .inr (.inl (hedge.trans h))
  · exact .inr (.inr (hsocket.trans (hok (Bool.eq_false_iff.mpr h))))

theorem Announced.step (h : Announced s) (hok : LastOfEdge s l)
    (hs : step L address s l = some t) : Announced t := by
  have hrest : s.pc ≠ .receiving → s.edge = true ∨ s.socket = [] := fun hpc => h.resolve_left hpc
  cases moves_of_step hs with
  | arrive d hc => exact .inr (.inl rfl)
  | loopTest hpc => exact .inr (hrest (by simp [hpc]))
  | report hpc hedge => exact .inl rfl
  | noReport hpc => exact .inr (hrest (by simp [hpc]))
  | failed peeks consumes hpc hfails =>
    by_cases hedge : s.edge = true
    · exact .inr (.inl hedge)
    · have hleft := hok (Bool.eq_false_iff.mpr hedge)
      refine .inr (.inr ?_)
      split at hleft
      · exact hfails ‹_›
      · exact hleft
  | received d rest packet hpc hq hd => exact Announced.taken (s := s) rfl rfl hok
  | threw d rest e hpc hq hd => exact Announced.taken (s := s) rfl rfl hok
  | undefined d rest hpc hq hd => exact Announced.taken (s := s) rfl rfl hok
  | endIteration hpc => exact .inr (hrest (by simp [hpc]))
  | pop e rest hpc hq => exact h
  | readIp k e hk => exact h
  | unchanged l hl => exact h
  | disconnect => exact .inr (.inr rfl)

/-- **No datagram is left waiting** in a run in which every call of
`receivePacketFrom` without a pending edge takes the last datagram. -/
theorem none_waiting (L : Libraries) (address : Address) (ls : List ReceiveLabel)
    (hok : Along (ReceiveSession.step L address) LastOfEdge {} ls) :
    Throughout (ReceiveSession.step L address) NoneWaiting {} ls := by
  refine hok.throughout (I := Announced) ?_ (fun h hok hs => h.step hok hs) (.inr (.inr rfl))
  intro s h hpc hedge
  rcases h with h | h | h
  · rw [hpc] at h
    cases h
  · rw [hedge] at h
    cases h
  · exact h

instance (s : ReceiveSession L.arrow.Table) : (l : ReceiveLabel) → Decidable (LastOfEdge s l)
  | .receivePacketFrom _ _ => inferInstanceAs (Decidable (_ = false → _ = []))
  | .arrive _ | .loopTest | .epollWait _ | .endIteration | .popReceivedPacket | .readIp _
  | .hasPacket _ | .disconnect => inferInstanceAs (Decidable True)

/-- The second datagram arrives between the report of the first and its read. -/
theorem none_waiting_interleaved :
    let d : UdpDatagram :=
      { source := ⟨.quad 10 0 0 1, 40000⟩, destination := ⟨.quad 10 0 0 2, 9000⟩
        bytes := frame [0x30, 0x0A, 0x02, 0x01, 5, 0xA7, 5, 0x30, 3, 4, 1, 0x2F] }
    Throughout (ReceiveSession.step Reference.libraries ⟨.quad 10 0 0 2, 9000⟩) NoneWaiting {}
      [.loopTest, .arrive d, .epollWait true, .arrive { d with source := ⟨.quad 10 0 0 3, 40001⟩ },
        .receivePacketFrom true true, .endIteration, .loopTest, .epollWait true,
        .receivePacketFrom true true, .endIteration, .loopTest] := by
  intro d
  exact none_waiting Reference.libraries ⟨.quad 10 0 0 2, 9000⟩ _ (by decide)

/-- **Two datagrams for one edge**: the second waits in the socket. -/
theorem second_datagram_waits :
    let d : UdpDatagram :=
      { source := ⟨.quad 10 0 0 1, 40000⟩, destination := ⟨.quad 10 0 0 2, 9000⟩
        bytes := frame [0x30, 0x0A, 0x02, 0x01, 5, 0xA7, 5, 0x30, 3, 4, 1, 0x2F] }
    ¬ Throughout (ReceiveSession.step Reference.libraries ⟨.quad 10 0 0 2, 9000⟩) NoneWaiting {}
      [.loopTest, .arrive d, .arrive { d with source := ⟨.quad 10 0 0 3, 40001⟩ }, .epollWait true,
        .receivePacketFrom true true, .endIteration, .loopTest] := by
  intro d h
  obtain ⟨t, hrun, hpc, hedge, hlen⟩ : ∃ t,
      run (ReceiveSession.step Reference.libraries ⟨.quad 10 0 0 2, 9000⟩) {}
        [.loopTest, .arrive d, .arrive { d with source := ⟨.quad 10 0 0 3, 40001⟩ }, .epollWait true,
          .receivePacketFrom true true, .endIteration, .loopTest] = some t ∧
      t.pc = .waiting ∧ t.edge = false ∧ t.socket.length = 1 := ⟨_, rfl, rfl, rfl, rfl⟩
  rw [h.last hrun hpc hedge] at hlen
  cases hlen

/-! ## What the callers of `popReceivedPacket` see -/

/-- The address and the packet of a datagram that was read and decoded. -/
def Iteration.received (L : Libraries) (i : Iteration L.arrow.Table) :
    Option (Bytes × Int × Packet L.arrow.Table) :=
  i.read.bind fun d => match UdpNetworking.decodeDatagram L d.bytes with
    | some (.ok packet) => some (inetNtop d.source.ip, (d.source.port.toNat : Int), packet)
    | _ => none

/-- What was received, in the order in which it was read. -/
def received (L : Libraries) (s : ReceiveSession L.arrow.Table) :
    List (Bytes × Int × Packet L.arrow.Table) :=
  s.iterations.filterMap (Iteration.received L)

/-- **What is popped is what was received**: the entries popped are the
beginning of what was received, what the caller of a pop reads through its `ip`
is the address the packet came from, no failed read queued an entry, and every
entry in the queue reports the address of its datagram. -/
structure PopsReceived (L : Libraries) (s : ReceiveSession L.arrow.Table) : Prop where
  popped : s.popped.map (fun e => (e.port, e.packet)) <+: (s.received L).map Prod.snd
  ips : ∀ k ip, (k, ip) ∈ s.ipsRead → ∃ r, (s.received L)[k]? = some r ∧ ip = some r.1
  failed : ∀ i ∈ s.iterations, i.read = none → i.entry = none
  reports : ∀ e ∈ s.receivedQueue, ∃ i d, s.iterations[e.ip]? = some i ∧ i.read = some d ∧
    s.readIp e.ip = some (inetNtop d.source.ip)

/-- No call of `recvfrom` fails, every entry is popped before its iteration is
over, and what was popped is read before that, too. -/
def ReadAtOnce (s : ReceiveSession L.arrow.Table) : ReceiveLabel → Prop
  | .receivePacketFrom peeks consumes => (peeks && consumes) = true ∧ s.socket ≠ []
  | .endIteration => s.receivedQueue = []
  | .readIp k => (s.popped[k]?).all (fun e => decide (s.Alive e.ip)) = true
  | _ => True

/-- The entry is that of a datagram received, and points into its iteration. -/
structure EntryOf (L : Libraries) (s : ReceiveSession L.arrow.Table)
    (e : AddressedPacket L.arrow.Table) (r : Bytes × Int × Packet L.arrow.Table) : Prop where
  pointer : ∃ i d, s.iterations[e.ip]? = some i ∧ i.read = some d ∧ i.ip = inetNtop d.source.ip ∧
    r.1 = inetNtop d.source.ip
  rest : (e.port, e.packet) = r.2

structure PopInvariant (L : Libraries) (s : ReceiveSession L.arrow.Table) : Prop where
  entries : List.Forall₂ (EntryOf L s) (s.popped ++ s.receivedQueue) (s.received L)
  ips : ∀ k ip, (k, ip) ∈ s.ipsRead → ∃ r, (s.received L)[k]? = some r ∧ ip = some r.1
  failed : ∀ i ∈ s.iterations, i.read = none → i.entry = none
  /-- an entry is in the queue only before its iteration is over -/
  queued : ∀ e ∈ s.receivedQueue, s.Alive e.ip

theorem PopInvariant.init : PopInvariant L {} where
  entries := .nil
  ips := fun _ _ h => absurd h List.not_mem_nil
  failed := fun _ h => absurd h List.not_mem_nil
  queued := fun _ h => absurd h List.not_mem_nil

/-- What is read through the pointer of an entry while its iteration lasts. -/
theorem EntryOf.readIp {e : AddressedPacket L.arrow.Table}
    {r : Bytes × Int × Packet L.arrow.Table} (h : EntryOf L s e r) (halive : s.Alive e.ip) :
    s.readIp e.ip = some r.1 := by
  obtain ⟨i, d, hi, -, hip, hr⟩ := h.pointer
  rw [ReceiveSession.readIp, if_pos halive, hi, Option.map_some, hip, hr]

/-- Iterations that follow leave the entries as they are. -/
theorem EntryOf.of_start {e : AddressedPacket L.arrow.Table}
    {r : Bytes × Int × Packet L.arrow.Table} (h : EntryOf L s e r)
    (hits : s.iterations <+: t.iterations) : EntryOf L t e r := by
  obtain ⟨⟨i, d, hi, hrest⟩, hpacket⟩ := h
  obtain ⟨later, hlater⟩ := hits
  refine ⟨⟨i, d, ?_, hrest⟩, hpacket⟩
  rw [← hlater, List.getElem?_append_left (List.getElem?_eq_some_iff.mp hi).1, hi]

/-- The entry of every number is that of the datagram of that number. -/
theorem PopInvariant.entry (h : PopInvariant L s) {k : Nat} {e : AddressedPacket L.arrow.Table}
    (hk : (s.popped ++ s.receivedQueue)[k]? = some e) :
    ∃ r, (s.received L)[k]? = some r ∧ EntryOf L s e r := by
  obtain ⟨hlength, hget⟩ := List.forall₂_iff_get.mp h.entries
  obtain ⟨hlt, rfl⟩ := List.getElem?_eq_some_iff.mp hk
  exact ⟨_, List.getElem?_eq_getElem (hlength ▸ hlt), hget k hlt (hlength ▸ hlt)⟩

theorem PopInvariant.pops (h : PopInvariant L s) : PopsReceived L s where
  popped := by
    have hall : (s.popped ++ s.receivedQueue).map (fun e => (e.port, e.packet)) =
        (s.received L).map Prod.snd :=
      List.forall₂_eq_eq_eq ▸ List.forall₂_map_left_iff.mpr
        (List.forall₂_map_right_iff.mpr (h.entries.imp fun _ _ he => he.rest))
    rw [← hall, List.map_append]
    exact List.prefix_append _ _
  ips := h.ips
  failed := h.failed
  reports := by
    intro e he
    obtain ⟨k, hk⟩ := List.mem_iff_getElem?.mp (List.mem_append_right s.popped he)
    obtain ⟨r, -, hentry⟩ := h.entry hk
    obtain ⟨i, d, hi, hread, -, hr⟩ := hentry.pointer
    exact ⟨i, d, hi, hread, hr ▸ hentry.readIp (h.queued e he)⟩

/-- A step that reads nothing and takes nothing from the queue. -/
theorem PopInvariant.of_same (h : PopInvariant L s) (hits : t.iterations = s.iterations)
    (hqueue : t.receivedQueue = s.receivedQueue) (hpopped : t.popped = s.popped)
    (hread : t.ipsRead = s.ipsRead) (hpc : s.receivedQueue ≠ [] → t.pc = s.pc) :
    PopInvariant L t where
  entries := by
    unfold received
    rw [hpopped, hqueue, hits]
    exact h.entries.imp fun _ _ he => he.of_start (hits ▸ List.prefix_refl _)
  ips := by
    unfold received
    rw [hread, hits]
    exact h.ips
  failed := hits ▸ h.failed
  queued := by
    rw [hqueue]
    intro e he
    unfold Alive
    rw [hpc (List.ne_nil_of_mem he), hits]
    exact h.queued e he

theorem received_concat {i : Iteration L.arrow.Table} (hits : t.iterations = s.iterations ++ [i]) :
    t.received L = s.received L ++ (i.received L).toList := by
  rw [received, hits, List.filterMap_append]
  cases hr : i.received L <;> simp [received, hr]

/-- An iteration that begins with an empty queue: what it received is queued. -/
theorem PopInvariant.iteration (h : PopInvariant L s) (hnil : s.receivedQueue = [])
    {i : Iteration L.arrow.Table} {queued : List (AddressedPacket L.arrow.Table)}
    (hits : t.iterations = s.iterations ++ [i]) (hread : i.read ≠ none)
    (hqueue : t.receivedQueue = queued) (hpopped : t.popped = s.popped)
    (hips : t.ipsRead = s.ipsRead) (halive : ∀ e ∈ queued, t.Alive e.ip)
    (hentries : List.Forall₂ (EntryOf L t) queued (i.received L).toList) : PopInvariant L t where
  entries := by
    have hbefore := h.entries
    rw [hnil, List.append_nil] at hbefore
    rw [hpopped, hqueue, received_concat hits]
    exact List.rel_append
      (hbefore.imp fun _ _ he => he.of_start (hits ▸ List.prefix_append _ _)) hentries
  ips := by
    rw [hips]
    intro k ip hk
    obtain ⟨r, hr, hip⟩ := h.ips k ip hk
    refine ⟨r, ?_, hip⟩
    rw [received_concat hits, List.getElem?_append_left (List.getElem?_eq_some_iff.mp hr).1, hr]
  failed := by
    intro j hj hnone
    rw [hits] at hj
    rcases List.mem_append.mp hj with hj | hj
    · exact h.failed j hj hnone
    · exact absurd (List.mem_singleton.mp hj ▸ hnone) hread
  queued := hqueue ▸ halive

theorem PopInvariant.step (h : PopInvariant L s) (hok : ReadAtOnce s l)
    (hs : step L address s l = some t) : PopInvariant L t := by
  -- nothing is in the queue where the thread is not behind the unlock
  have hnil : s.pc ≠ .queued → s.receivedQueue = [] := fun hpc =>
    List.eq_nil_iff_forall_not_mem.mpr fun e he => hpc (h.queued e he).1
  cases moves_of_step hs with
  | arrive d hc => exact h.of_same rfl rfl rfl rfl fun _ => rfl
  | loopTest hpc => exact h.of_same rfl rfl rfl rfl fun hne => absurd (hnil (by simp [hpc])) hne
  | report hpc hedge =>
    exact h.of_same rfl rfl rfl rfl fun hne => absurd (hnil (by simp [hpc])) hne
  | noReport hpc => exact h.of_same rfl rfl rfl rfl fun hne => absurd (hnil (by simp [hpc])) hne
  | failed peeks consumes hpc hfails => exact absurd (hfails hok.1) hok.2
  | received d rest packet hpc hq hd =>
    have hempty := hnil (by simp [hpc])
    refine h.iteration hempty rfl nofun (congrArg (· ++ _) hempty) rfl rfl ?_ ?_
    · intro e he
      obtain rfl := List.mem_singleton.mp he
      exact ⟨rfl, by simp [ReceiveSession.queueEntry, acknowledge]⟩
    · have hreceived : Iteration.received L
          { read := some d, ip := inetNtop d.source.ip,
            entry := some ((d.source.port.toNat : Int), packet) } =
          some (inetNtop d.source.ip, (d.source.port.toNat : Int), packet) := by
        simp [Iteration.received, hd]
      rw [hreceived]
      exact .cons ⟨⟨_, d, List.getElem?_concat_length .., rfl, rfl, rfl⟩, rfl⟩ .nil
  | threw d rest e hpc hq hd =>
    refine h.iteration (hnil (by simp [hpc])) rfl nofun (hnil (by simp [hpc])) rfl rfl
      (fun _ he => absurd he List.not_mem_nil) ?_
    simp [Iteration.received, hd]
  | undefined d rest hpc hq hd =>
    refine h.iteration (hnil (by simp [hpc])) rfl nofun (hnil (by simp [hpc])) rfl rfl
      (fun _ he => absurd he List.not_mem_nil) ?_
    simp [Iteration.received, hd]
  | endIteration hpc => exact h.of_same rfl rfl rfl rfl fun hne => absurd hok hne
  | pop e rest hpc hq =>
    refine ⟨?_, h.ips, h.failed, fun e' he' => h.queued e' (hq ▸ List.mem_cons_of_mem _ he')⟩
    have hentries := h.entries
    rw [hq, List.append_cons] at hentries
    exact hentries.imp fun _ _ he => he.of_start (List.prefix_refl _)
  | readIp k e hk =>
    refine ⟨?_, ?_, h.failed, h.queued⟩
    · exact h.entries.imp fun _ _ he => he.of_start (List.prefix_refl _)
    · intro k' ip hmem
      rcases List.mem_append.mp hmem with hmem | hmem
      · exact h.ips k' ip hmem
      · cases List.mem_singleton.mp hmem
        obtain ⟨r, hr, hentry⟩ := h.entry (k := k) (e := e) (by
          rw [List.getElem?_append_left (List.getElem?_eq_some_iff.mp hk).1, hk])
        have halive : s.Alive e.ip := by
          simp only [ReadAtOnce, hk, Option.all_some, decide_eq_true_eq] at hok
          exact hok
        exact ⟨r, hr, hentry.readIp halive⟩
  | unchanged l hl => exact h
  | disconnect => exact h.of_same rfl rfl rfl rfl fun _ => rfl

/-- **The callers see what was received** exactly in the runs in which no
`recvfrom` fails, and every entry is popped and its `ip` read before its
iteration is over. -/
theorem pops_received_iff (L : Libraries) (address : Address) (ls : List ReceiveLabel)
    (t : ReceiveSession L.arrow.Table)
    (hrun : run (ReceiveSession.step L address) {} ls = some t) :
    Throughout (ReceiveSession.step L address) (PopsReceived L) {} ls ↔
      Along (ReceiveSession.step L address) ReadAtOnce {} ls := by
  have henv : Along (ReceiveSession.step L address) (fun _ _ => True) {} ls :=
    Along.of_forall (fun _ _ => trivial) _ _
  refine throughout_iff_along (I := PopInvariant L) (fun h => h.pops) ?_ ?_ .init henv hrun
  · intro s l t h _ hok hs
    exact h.step hok hs
  · intro s l t h _ hbad hs hpops
    cases moves_of_step hs with
    | failed peeks consumes hpc hfails =>
      cases hpops.failed _ (List.mem_append_right _ (List.mem_singleton_self _)) rfl
    | received d rest packet hpc hq hd =>
      exact hbad ⟨rfl, by rw [hq]; exact List.cons_ne_nil _ _⟩
    | threw d rest e hpc hq hd => exact hbad ⟨rfl, by rw [hq]; exact List.cons_ne_nil _ _⟩
    | undefined d rest hpc hq hd => exact hbad ⟨rfl, by rw [hq]; exact List.cons_ne_nil _ _⟩
    | endIteration hpc =>
      -- the string of the iteration is gone, so an entry left behind reports nothing
      obtain ⟨e, he⟩ := List.exists_mem_of_ne_nil _ hbad
      obtain ⟨i, d, -, -, hread⟩ := hpops.reports e he
      rw [readIp, if_neg (fun halive => by cases halive.1)] at hread
      cases hread
    | readIp k e hk =>
      obtain ⟨r, -, hread⟩ := hpops.ips k _ (List.mem_append_right _ (List.mem_singleton_self _))
      have hdead : ¬ s.Alive e.ip := fun halive =>
        hbad (by simp only [ReadAtOnce, hk, Option.all_some, decide_eq_true halive])
      rw [readIp, if_neg hdead] at hread
      cases hread
    | unchanged l hl =>
      rcases hl with rfl | ⟨answer, rfl⟩
      · exact hbad trivial
      · exact hbad trivial
    | _ => exact hbad trivial

instance (s : ReceiveSession L.arrow.Table) : (l : ReceiveLabel) → Decidable (ReadAtOnce s l)
  | .receivePacketFrom _ _ => inferInstanceAs (Decidable (_ = true ∧ s.socket ≠ []))
  | .endIteration => decidable_of_iff (s.receivedQueue.isEmpty = true) List.isEmpty_iff
  | .readIp _ => inferInstanceAs (Decidable (_ = true))
  | .arrive _ | .loopTest | .epollWait _ | .popReceivedPacket | .hasPacket _ | .disconnect =>
    inferInstanceAs (Decidable True)

/-- A packet popped and read between the unlock and the end of its iteration. -/
theorem pops_received_at_once :
    let d : UdpDatagram :=
      { source := ⟨.quad 10 0 0 1, 40000⟩, destination := ⟨.quad 10 0 0 2, 9000⟩
        bytes := frame [0x30, 0x0A, 0x02, 0x01, 5, 0xA7, 5, 0x30, 3, 4, 1, 0x2F] }
    let ls : List ReceiveLabel :=
      [.arrive d, .loopTest, .epollWait true, .receivePacketFrom true true, .hasPacket true,
        .popReceivedPacket, .readIp 0, .endIteration, .loopTest]
    Throughout (ReceiveSession.step Reference.libraries ⟨.quad 10 0 0 2, 9000⟩)
      (PopsReceived Reference.libraries) {} ls := by
  intro d ls
  obtain ⟨t, hrun⟩ : ∃ t,
      run (ReceiveSession.step Reference.libraries ⟨.quad 10 0 0 2, 9000⟩) {} ls = some t :=
    Option.isSome_iff_exists.mp (by decide)
  exact (pops_received_iff Reference.libraries ⟨.quad 10 0 0 2, 9000⟩ ls t hrun).mpr (by decide)

/-- **The pointer outlives its string**: the address of a packet that was popped
in time is read after its iteration, when it is gone. And **a failed read is
queued like a packet.** -/
theorem popped_ip_dangles :
    (let d : UdpDatagram :=
      { source := ⟨.quad 10 0 0 1, 40000⟩, destination := ⟨.quad 10 0 0 2, 9000⟩
        bytes := frame [0x30, 0x0A, 0x02, 0x01, 5, 0xA7, 5, 0x30, 3, 4, 1, 0x2F] }
    ¬ Throughout (ReceiveSession.step Reference.libraries ⟨.quad 10 0 0 2, 9000⟩)
      (PopsReceived Reference.libraries) {}
      [.arrive d, .loopTest, .epollWait true, .receivePacketFrom true true, .popReceivedPacket,
        .endIteration, .readIp 0]) ∧
    (let d : UdpDatagram :=
      { source := ⟨.quad 10 0 0 1, 40000⟩, destination := ⟨.quad 10 0 0 2, 9000⟩
        bytes := frame [0x30, 0x0A, 0x02, 0x01, 5, 0xA7, 5, 0x30, 3, 4, 1, 0x2F] }
    ¬ Throughout (ReceiveSession.step Reference.libraries ⟨.quad 10 0 0 2, 9000⟩)
      (PopsReceived Reference.libraries) {}
      [.arrive d, .loopTest, .epollWait true, .receivePacketFrom false false,
        .popReceivedPacket]) := by
  constructor
  · intro d h
    obtain ⟨t, hrun, hread⟩ : ∃ t,
        run (ReceiveSession.step Reference.libraries ⟨.quad 10 0 0 2, 9000⟩) {}
          [.arrive d, .loopTest, .epollWait true, .receivePacketFrom true true, .popReceivedPacket,
            .endIteration, .readIp 0] = some t ∧
        t.ipsRead = [(0, none)] := Option.map_eq_some_iff.mp (by decide)
    obtain ⟨r, -, hip⟩ := (h.last hrun).ips 0 none (hread ▸ List.mem_singleton_self _)
    cases hip
  · intro d h
    obtain ⟨t, hrun, hlen, hreceived⟩ : ∃ t,
        run (ReceiveSession.step Reference.libraries ⟨.quad 10 0 0 2, 9000⟩) {}
          [.arrive d, .loopTest, .epollWait true, .receivePacketFrom false false,
            .popReceivedPacket] = some t ∧
        t.popped.length = 1 ∧ t.received Reference.libraries = [] := ⟨_, rfl, rfl, rfl⟩
    have hpre := (h.last hrun).popped.length_le
    rw [hreceived, List.length_map, hlen] at hpre
    exact absurd hpre (by decide)

end ReceiveSession
end Ttp2
