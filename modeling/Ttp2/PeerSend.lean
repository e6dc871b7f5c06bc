import Ttp2.SendSession

/-! # What the sending half of a peer does with the packets queued

Every packet taken is encoded under its id, and handed to `sendMessageTo` if
`encode` accepts it; what `encode` throws ends the thread (`sends_on_iff`). A
call of `sendMessageTo` returns when a datagram that starts with '1' comes, and
after the tenth attempt in any case (`CallInvariant`). -/
namespace Ttp2
open Lib Octets Framing Lts

namespace SendSession
variable {L : Libraries} {address : Address} {s t : SendSession L.arrow.Table}
  {l : SendSessionLabel L.arrow.Table}

/-! ## What is handed to `sendMessageTo` -/

/-- One more packet is taken: the calls so far and `autoId`. A packet that
`encode` rejects leads to no call. -/
def handNext (L : Libraries) (acc : List (Address × Bytes) × Int32)
    (p : AddressedPacket L.arrow.Table) : List (Address × Bytes) × Int32 :=
  let (id, autoId) := assignId acc.2 p.packet.id
  match Encode.encode L p.packet.payload id with
  | .ok encodedPacket => (acc.1 ++ [(p.address, encodedPacket)], autoId)
  | .error _ => (acc.1, autoId)

def handedOver (L : Libraries) (packets : List (AddressedPacket L.arrow.Table)) :
    List (Address × Bytes) × Int32 :=
  packets.foldl (handNext L) ([], 0)

theorem handedOver_concat (packets : List (AddressedPacket L.arrow.Table))
    (p : AddressedPacket L.arrow.Table) :
    handedOver L (packets ++ [p]) = handNext L (handedOver L packets) p := by
  rw [handedOver, List.foldl_append]
  rfl

/-- The datagram is a transmission of a call: the buffer of its packet. -/
def Transmits (address : Address) (s : SendSession L.arrow.Table) (d : UdpDatagram) : Prop :=
  ∃ k c, s.called[k]? = some c ∧ d.origin = some ⟨address, k⟩ ∧
    d.bytes = UdpNetworking.finalBuffer c.2

/-- The running call is the latest one. -/
def Current (s : SendSession L.arrow.Table) (c : SendingTo) (r : CallRecord) : Prop :=
  r.number + 1 = s.called.length ∧ s.called[r.number]? = some (r.destination, r.encodedPacket) ∧
    c.buffer = UdpNetworking.finalBuffer r.encodedPacket

/-- **Packets and calls**: the packets taken are the first ones queued, the
calls are those of them that `encode` accepts, in order and once each, and
nothing but their buffers is transmitted. -/
structure HandsOver (L : Libraries) (address : Address) (s : SendSession L.arrow.Table) : Prop where
  queue : s.queued = s.taken ++ s.sendQueue
  called : (s.called, s.autoId) = handedOver L s.taken
  sent : ∀ d ∈ s.sent, s.Transmits address d

theorem HandsOver.queue_taken (h : HandsOver L address s) {p : AddressedPacket L.arrow.Table}
    {rest : List (AddressedPacket L.arrow.Table)} (hq : s.sendQueue = p :: rest) :
    s.queued = s.taken ++ [p] ++ rest := by
  rw [h.queue, hq, List.append_assoc, List.singleton_append]

theorem HandsOver.called_taken (h : HandsOver L address s) (p : AddressedPacket L.arrow.Table) :
    handedOver L (s.taken ++ [p]) = handNext L (s.called, s.autoId) p := by
  rw [handedOver_concat, ← h.called]

structure HandsOverInvariant (L : Libraries) (address : Address) (s : SendSession L.arrow.Table) :
    Prop where
  handsOver : HandsOver L address s
  current : ∀ c r, s.pc = .sendto c r ∨ s.pc = .waiting c r → s.Current c r
  finished : s.pc = .finished → s.connected = false

theorem HandsOverInvariant.init : HandsOverInvariant L address {} where
  handsOver := ⟨rfl, rfl, fun _ h => absurd h List.not_mem_nil⟩
  current := fun _ _ h => by rcases h with h | h <;> cases h
  finished := fun h => nomatch h

/-- A step that takes no packet and transmits nothing. -/
theorem HandsOverInvariant.of_same (h : HandsOverInvariant L address s)
    (hqueued : t.queued = t.taken ++ t.sendQueue) (htaken : t.taken = s.taken)
    (hcalled : t.called = s.called) (hid : t.autoId = s.autoId) (hsent : t.sent = s.sent)
    (hcurrent : ∀ c r, t.pc = .sendto c r ∨ t.pc = .waiting c r → s.Current c r)
    (hfinished : t.pc = .finished → t.connected = false) : HandsOverInvariant L address t where
  handsOver :=
    { queue := hqueued
      called := by rw [hcalled, hid, htaken, h.handsOver.called]
      sent := by
        intro d hd
        unfold Transmits
        rw [hcalled]
        exact h.handsOver.sent d (hsent ▸ hd) }
  current := by
    intro c r hpc
    unfold Current
    rw [hcalled]
    exact hcurrent c r hpc
  finished := hfinished

/-- A later call leaves the earlier ones where they are. -/
theorem Transmits.of_start {d : UdpDatagram} (h : s.Transmits address d)
    (hcalled : s.called <+: t.called) : t.Transmits address d := by
  obtain ⟨k, c, hk, horigin, hbytes⟩ := h
  obtain ⟨rest, hrest⟩ := hcalled
  refine ⟨k, c, ?_, horigin, hbytes⟩
  rw [← hrest, List.getElem?_append_left (List.getElem?_eq_some_iff.mp hk).1, hk]

/-- A wait transmits nothing. -/
theorem sent_waited (s : SendSession L.arrow.Table) (c : SendingTo) (r : CallRecord)
    (result : AckResult) : (s.waited c r result).sent = s.sent := by
  rcases afterAttempt_cases s c r result with ⟨c', ht, -⟩ | ⟨ht, -⟩ | ⟨ht, -⟩ <;> rw [ht]

theorem HandsOverInvariant.step (h : HandsOverInvariant L address s)
    (hs : step L address s l = some t) : HandsOverInvariant L address t := by
  cases moves_of_step hs with
  | sendPacket p =>
    refine h.of_same ?_ rfl rfl rfl rfl h.current h.finished
    show s.queued ++ [p] = s.taken ++ (s.sendQueue ++ [p])
    rw [h.handsOver.queue, List.append_assoc]
  | loopTest hpc =>
    refine h.of_same h.handsOver.queue rfl rfl rfl rfl ?_ ?_
    · intro c r hcur
      refine absurd hcur (running_none ?_)
      by_cases hc : s.connected <;> simp [running, hc]
    · intro hf
      dsimp only at hf ⊢
      split at hf
      · cases hf
      · rename_i hc
        exact Bool.eq_false_iff.mpr hc
  | takeNothing socket hpc hq =>
    exact h.of_same h.handsOver.queue rfl rfl rfl rfl
      (fun _ _ hcur => absurd hcur (running_none rfl)) (fun hf => by cases hf)
  | take socket p rest encodedPacket hpc hq he =>
    refine ⟨⟨h.handsOver.queue_taken hq, ?_, ?_⟩, ?_, ?_⟩
    · dsimp only
      rw [h.handsOver.called_taken, handNext]
      simp only [he]
    · intro d hd
      exact (h.handsOver.sent d hd).of_start (List.prefix_append _ _)
    · intro c r hcur
      cases socket with
      | none => exact absurd hcur (running_none rfl)
      | some port =>
        rcases hcur with hcur | hcur
        · cases hcur
          exact ⟨by simp, List.getElem?_concat_length .., rfl⟩
        · cases hcur
    · intro hf
      cases socket <;> cases hf
  | reject socket p rest e hpc hq he =>
    refine ⟨⟨h.handsOver.queue_taken hq, ?_, h.handsOver.sent⟩,
      fun _ _ hcur => absurd hcur (running_none rfl), fun hf => by cases hf⟩
    dsimp only
    rw [h.handsOver.called_taken, handNext]
    simp only [he]
  | sendto c r hpc =>
    have hcur := h.current c r (.inl hpc)
    refine ⟨⟨h.handsOver.queue, h.handsOver.called, ?_⟩, ?_, fun hf => by cases hf⟩
    · intro d hd
      rcases List.mem_append.mp hd with hd | hd
      · exact h.handsOver.sent d hd
      · rw [List.mem_singleton.mp hd]
        exact ⟨r.number, _, hcur.2.1, rfl, hcur.2.2⟩
    · intro c' r' hcur'
      rcases hcur' with hcur' | hcur'
      · cases hcur'
      · cases hcur'
        exact hcur
  | waited l c r hpc result received hw =>
    have hcur := h.current c r (.inr hpc)
    rcases afterAttempt_cases s c { r with received := r.received ++ received } result with
      ⟨c', ht, hagain⟩ | ⟨ht, -⟩ | ⟨ht, -⟩
    · rw [ht]
      refine h.of_same h.handsOver.queue rfl rfl rfl rfl ?_ (fun hf => by cases hf)
      intro c'' r'' hcur'
      rcases hcur' with hcur' | hcur'
      · cases hcur'
        exact ⟨hcur.1, hcur.2.1, (SendingTo.retries_of_again hagain).2.buffer.trans hcur.2.2⟩
      · cases hcur'
    · rw [ht]
      exact h.of_same h.handsOver.queue rfl rfl rfl rfl
        (fun _ _ hcur => absurd hcur (running_none rfl)) (fun hf => by cases hf)
    · rw [ht]
      exact h.of_same h.handsOver.queue rfl rfl rfl rfl
        (fun _ _ hcur => absurd hcur (running_none rfl)) (fun hf => by cases hf)
  | disconnect =>
    exact h.of_same h.handsOver.queue rfl rfl rfl rfl h.current (fun _ => rfl)

/-! ## Packets that `encode` rejects -/

/-- **The sender goes on**: no exception has left the thread, which ends for a
disconnect only, and every packet taken was handed over or dropped. -/
structure SendsOn (L : Libraries) (address : Address) (s : SendSession L.arrow.Table) : Prop where
  alive : s.pc ≠ .terminated
  finished : s.pc = .finished → s.connected = false
  handsOver : HandsOver L address s

/-- The socket calls succeed. -/
def SocketsWork (_ : SendSession L.arrow.Table) : SendSessionLabel L.arrow.Table → Prop
  | .take none | .waitError => False
  | _ => True

/-- `encode` accepts the packet that is taken. -/
def TakenEncodes (s : SendSession L.arrow.Table) : SendSessionLabel L.arrow.Table → Prop
  | .take _ => s.sendQueue.head?.all (fun p =>
      (Encode.encode L p.packet.payload (assignId s.autoId p.packet.id).1).isOk) = true
  | _ => True

structure SendsOnInvariant (L : Libraries) (address : Address) (s : SendSession L.arrow.Table) :
    Prop where
  handsOver : HandsOverInvariant L address s
  alive : s.pc ≠ .terminated

theorem SendsOnInvariant.sendsOn (h : SendsOnInvariant L address s) : SendsOn L address s :=
  ⟨h.alive, h.handsOver.finished, h.handsOver.handsOver⟩

/-- Where the socket calls succeed, a wait does not throw. -/
theorem waited_alive {c : SendingTo} {r : CallRecord} {result : AckResult}
    (hresult : result ≠ .error) : (s.waited c r result).pc ≠ .terminated := by
  rcases afterAttempt_cases s c r result with ⟨c', ht, -⟩ | ⟨ht, -⟩ | ⟨-, hthrew⟩
  · rw [ht]
    exact nofun
  · rw [ht]
    exact nofun
  · exact absurd (SendingTo.error_of_threw hthrew) hresult

theorem SendsOnInvariant.step (h : SendsOnInvariant L address s) (henv : SocketsWork s l)
    (hok : TakenEncodes s l) (hs : step L address s l = some t) : SendsOnInvariant L address t := by
  refine ⟨h.handsOver.step hs, ?_⟩
  cases moves_of_step hs with
  | sendPacket p => exact h.alive
  | loopTest hpc =>
    dsimp only
    split <;> exact nofun
  | takeNothing socket hpc hq => exact nofun
  | take socket p rest encodedPacket hpc hq he =>
    cases socket with
    | none => exact absurd henv id
    | some port => exact nofun
  | reject socket p rest e hpc hq he =>
    simp only [TakenEncodes, hq, List.head?_cons, Option.all_some, he] at hok
    cases hok
  | sendto c r hpc => exact nofun
  | waited l c r hpc result received hw =>
    refine waited_alive ?_
    cases hw with
    | timeout => exact nofun
    | error => exact absurd henv id
    | answer d stale => exact nofun
  | disconnect => exact h.alive

/-- **A packet that `encode` rejects** stops the sender exactly if it is taken. -/
theorem sends_on_iff (L : Libraries) (address : Address)
    (ls : List (SendSessionLabel L.arrow.Table)) (t : SendSession L.arrow.Table)
    (henv : Along (SendSession.step L address) SocketsWork {} ls)
    (hrun : run (SendSession.step L address) {} ls = some t) :
    Throughout (SendSession.step L address) (SendsOn L address) {} ls ↔
      Along (SendSession.step L address) TakenEncodes {} ls := by
  refine throughout_iff_along (I := SendsOnInvariant L address) (fun h => h.sendsOn) ?_ ?_
    ⟨.init, nofun⟩ henv hrun
  · intro s l t h he hok hs
    exact h.step he hok hs
  · intro s l t h _ hbad hs hsends
    cases moves_of_step hs with
    | reject socket p rest e hpc hq he => exact hsends.alive rfl
    | takeNothing socket hpc hq => exact hbad (by simp only [TakenEncodes, hq]; rfl)
    | take socket p rest encodedPacket hpc hq he =>
      exact hbad (by simp only [TakenEncodes, hq, List.head?_cons, Option.all_some, he]; rfl)
    | waited l c r hpc result received hw => cases hw <;> exact hbad trivial
    | _ => exact hbad trivial

instance (s : SendSession L.arrow.Table) :
    (l : SendSessionLabel L.arrow.Table) → Decidable (SocketsWork s l)
  | .take none | .waitError => inferInstanceAs (Decidable False)
  | .sendPacket _ | .loopTest | .take (some _) | .sendto | .timeout | .answer _ _ | .disconnect =>
    inferInstanceAs (Decidable True)

instance (s : SendSession L.arrow.Table) :
    (l : SendSessionLabel L.arrow.Table) → Decidable (TakenEncodes s l)
  | .take _ => inferInstanceAs (Decidable (_ = true))
  | .sendPacket _ | .loopTest | .sendto | .timeout | .waitError | .answer _ _ | .disconnect =>
    inferInstanceAs (Decidable True)

/-- Two packets to two peers; the first is sent twice. -/
theorem sends_on_packets :
    Throughout (SendSession.step Reference.libraries ⟨.quad 10 0 0 1, 9000⟩)
      (SendsOn Reference.libraries ⟨.quad 10 0 0 1, 9000⟩) {}
      [.sendPacket ⟨⟨.quad 10 0 0 2, 9000⟩, { id := 5, payload := .ls { directory := [0x2F] } }⟩,
        .sendPacket ⟨⟨.quad 10 0 0 3, 9000⟩, { id := -1, payload := .ls { directory := [0x2F] } }⟩,
        .loopTest, .take (some 40000), .sendto, .timeout, .sendto,
        .answer ⟨⟨.quad 10 0 0 2, 9000⟩, ⟨.quad 10 0 0 1, 40000⟩, [0x31], none⟩ 0, .loopTest,
        .take (some 40001), .sendto] :=
  (sends_on_iff Reference.libraries ⟨.quad 10 0 0 1, 9000⟩ _ _ (by decide) rfl).mpr (by decide)

/-- **A Universal without bytes** is rejected by `encode`, and ends the thread. -/
theorem empty_universal_ends_sender :
    let ls : List (SendSessionLabel Reference.libraries.arrow.Table) :=
      [.sendPacket ⟨⟨.quad 10 0 0 2, 9000⟩, { id := 5, payload := .universal { type := 0, bytes := [] } }⟩,
        .loopTest, .take (some 40000)]
    Along (SendSession.step Reference.libraries ⟨.quad 10 0 0 1, 9000⟩) SocketsWork {} ls ∧
      ¬ Throughout (SendSession.step Reference.libraries ⟨.quad 10 0 0 1, 9000⟩)
        (SendsOn Reference.libraries ⟨.quad 10 0 0 1, 9000⟩) {} ls := by
  intro ls
  refine ⟨by decide, fun h => ?_⟩
  obtain ⟨t, hrun, hpc⟩ : ∃ t, run (SendSession.step Reference.libraries ⟨.quad 10 0 0 1, 9000⟩) {} ls =
      some t ∧ t.pc = .terminated := ⟨_, rfl, rfl⟩
  exact (h.last hrun).alive hpc

/-! ## How a call returns -/

/-- The datagram is an acknowledgement to `sendMessageTo`: its first byte is '1'. -/
def Acknowledges (d : UdpDatagram) : Prop := d.bytes.head? = some 0x31

/-- **A call that returned**: the last datagram it received starts with '1', or is
empty, where what stood in the buffer is tested; or it has called `sendto` ten
times and received no '1'. -/
def CallRecord.Ended (r : CallRecord) : Prop :=
  (∃ d, r.received.getLast? = some d ∧ (Acknowledges d ∨ d.bytes = [])) ∨
    r.sentTo.length = 10 ∧ ∀ d ∈ r.received, ¬ Acknowledges d

/-- Attempts made and attempts left. -/
structure CallInvariant (s : SendSession L.arrow.Table) : Prop where
  sendto : ∀ c r, s.pc = .sendto c r → r.sentTo.length + c.maxResendCount = 10 ∧
    ∀ d ∈ r.received, ¬ Acknowledges d
  waiting : ∀ c r, s.pc = .waiting c r → r.sentTo.length + c.maxResendCount = 11 ∧
    ∀ d ∈ r.received, ¬ Acknowledges d
  returned : ∀ r ∈ s.returned, r.Ended

theorem CallInvariant.init : CallInvariant ({} : SendSession L.arrow.Table) where
  sendto := fun _ _ h => nomatch h
  waiting := fun _ _ h => nomatch h
  returned := fun _ h => absurd h List.not_mem_nil

/-- A step that neither begins nor ends an attempt. -/
theorem CallInvariant.of_same (h : CallInvariant s) (hreturned : t.returned = s.returned)
    (hpc : t.pc = s.pc ∨ (∀ c r, t.pc ≠ .sendto c r) ∧ ∀ c r, t.pc ≠ .waiting c r) :
    CallInvariant t where
  sendto := by
    intro c r hcur
    rcases hpc with hpc | ⟨hno, -⟩
    · exact h.sendto c r (hpc ▸ hcur)
    · exact absurd hcur (hno c r)
  waiting := by
    intro c r hcur
    rcases hpc with hpc | ⟨-, hno⟩
    · exact h.waiting c r (hpc ▸ hcur)
    · exact absurd hcur (hno c r)
  returned := hreturned ▸ h.returned

/-- The wait of an attempt that the loop goes on after brought no '1'. -/
theorem not_acknowledges {result : AckResult} {received : List UdpDatagram}
    (hw : Waits l result received) (hgoes : result.continues = true) :
    ∀ d ∈ received, ¬ Acknowledges d := by
  intro d hd hack
  cases hw with
  | timeout => cases hd
  | error => cases hd
  | answer d' stale =>
    obtain rfl := List.mem_singleton.mp hd
    obtain ⟨rest, hrest⟩ := List.head?_eq_some_iff.mp hack
    rw [hrest] at hgoes
    cases hgoes

/-- The wait of an attempt is over. -/
theorem CallInvariant.waited (h : CallInvariant s) {c : SendingTo} {r : CallRecord}
    (hpc : s.pc = .waiting c r) {result : AckResult} {received : List UdpDatagram}
    (hw : Waits l result received) :
    CallInvariant (s.waited c { r with received := r.received ++ received } result) := by
  obtain ⟨hcount, hnone⟩ := h.waiting c r hpc
  -- none of this call's datagrams is an acknowledgement if the new one is none
  have hall : (∀ d ∈ received, ¬ Acknowledges d) →
      ∀ d ∈ r.received ++ received, ¬ Acknowledges d := by
    intro hnew d hd
    rcases List.mem_append.mp hd with hd | hd
    · exact hnone d hd
    · exact hnew d hd
  rcases afterAttempt_cases s c { r with received := r.received ++ received } result with
    ⟨c', ht, hagain⟩ | ⟨ht, hreturned⟩ | ⟨ht, -⟩
  · rw [ht]
    refine ⟨fun c'' r'' hcur => ?_, nofun, h.returned⟩
    cases hcur
    obtain ⟨hgoes, hretries⟩ := SendingTo.retries_of_again hagain
    have hcount' : c'.maxResendCount + 1 = c.maxResendCount := hretries.count
    exact ⟨by dsimp only; omega, hall (not_acknowledges hw hgoes)⟩
  · rw [ht]
    refine ⟨nofun, nofun, fun r' hr' => ?_⟩
    rcases List.mem_append.mp hr' with hr' | hr'
    · exact h.returned r' hr'
    · rw [List.mem_singleton.mp hr']
      rcases SendingTo.ends_of_returned hreturned with
        ⟨source, bytes, stale, hresult, hone⟩ | ⟨hgoes, hlast⟩
      · cases hw with
        | timeout => cases hresult
        | error => cases hresult
        | answer d stale' =>
          cases hresult
          refine .inl ⟨d, List.getLast?_concat, ?_⟩
          unfold Acknowledges
          cases hbytes : d.bytes with
          | nil => exact .inr rfl
          | cons b rest =>
            rw [hbytes] at hone
            exact .inl (congrArg some hone)
      · exact .inr ⟨by dsimp only; omega, hall (not_acknowledges hw hgoes)⟩
  · rw [ht]
    exact h.of_same rfl (.inr ⟨nofun, nofun⟩)

theorem CallInvariant.step (h : CallInvariant s) (hs : step L address s l = some t) :
    CallInvariant t := by
  cases moves_of_step hs with
  | sendPacket p => exact h.of_same rfl (.inl rfl)
  | loopTest hpc =>
    refine h.of_same rfl (.inr ⟨fun c r => ?_, fun c r => ?_⟩) <;> dsimp only <;> split <;>
      exact nofun
  | takeNothing socket hpc hq => exact h.of_same rfl (.inr ⟨nofun, nofun⟩)
  | take socket p rest encodedPacket hpc hq he =>
    cases socket with
    | none => exact h.of_same rfl (.inr ⟨nofun, nofun⟩)
    | some port =>
      refine ⟨fun c r hcur => ?_, fun c r hcur => ?_, h.returned⟩
      · cases hcur
        exact ⟨rfl, fun _ hd => absurd hd List.not_mem_nil⟩
      · cases hcur
  | reject socket p rest e hpc hq he => exact h.of_same rfl (.inr ⟨nofun, nofun⟩)
  | sendto c r hpc =>
    obtain ⟨hcount, hnone⟩ := h.sendto c r hpc
    refine ⟨fun c' r' hcur => ?_, fun c' r' hcur => ?_, h.returned⟩
    · cases hcur
    · cases hcur
      refine ⟨?_, hnone⟩
      rw [List.length_append, List.length_singleton]
      omega
  | waited l c r hpc result received hw => exact h.waited hpc hw
  | disconnect => exact h.of_same rfl (.inl rfl)

end SendSession
end Ttp2
