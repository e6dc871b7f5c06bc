import Ttp2.UdpLink
import Ttp2.Encodings
import Ttp2.CodedPacket
import Ttp2.Reference.Documented
import Ttp2.Lib.Subsequence

/-! # What a peer receives of what another one sends

Every entry of `receivedQueue` that came in a datagram is the packet of a call
of `sendMessageTo`, and no call leads to more than the ten it sends
(`Traced`, `Budget`). The receiver keeps no memory of what it has, so a late
or lost acknowledgement doubles a packet. Where a wait times out only because
the datagrams were lost, at most one datagram or acknowledgement is on its way
at a time, and the packets come in order, each at most once (`InStep`). -/
namespace Ttp2
open Lib Octets Framing Lts Subsequence Encode Decode

namespace UdpLink

/-- The packets in `receivedQueue` that came in a datagram. -/
def fromPeer {T : Type} (s : UdpLink T) : List (Packet T) :=
  (s.receivedQueue.filter (·.port ≠ -1)).map AddressedPacket.packet

variable {L : Libraries} {b : Address} {s t : UdpLink L.arrow.Table}
  {l : LinkLabel L.arrow.Table}

/-! ## Where the packets come from -/

structure Traced (L : Libraries) (s : UdpLink L.arrow.Table) : Prop where
  queue : s.queued = s.taken ++ s.sendQueue
  autoId : s.autoId = (encodings L s.taken).2
  called : s.called = (encodings L s.taken).1
  data : ∀ d ∈ s.underWay, ∃ body, s.called[d.call]? = some body ∧
    d.bytes = UdpNetworking.finalBuffer body
  delivered : ∀ e ∈ s.delivered, ∃ body, s.called[e.call]? = some body ∧
    decode L body = .ok e.packet
  sending : ∀ c, s.sender = .sendto c ∨ s.sender = .waiting c →
    ∃ body, s.called[s.call]? = some body ∧ c.buffer = UdpNetworking.finalBuffer body
  entries : s.fromPeer = s.delivered.map Delivery.packet

theorem Traced.init : Traced L {} where
  queue := rfl
  autoId := rfl
  called := rfl
  data := fun _ h => absurd h List.not_mem_nil
  delivered := fun _ h => absurd h List.not_mem_nil
  sending := fun _ h => by rcases h with h | h <;> cases h
  entries := rfl

/-- A step that takes no packet and delivers none. -/
theorem Traced.of_same (h : Traced L s) (hqueued : t.queued = s.queued)
    (hqueue : t.sendQueue = s.sendQueue) (htaken : t.taken = s.taken) (hid : t.autoId = s.autoId)
    (hcalled : t.called = s.called) (hdata : t.underWay ⊆ s.underWay)
    (hdelivered : t.delivered = s.delivered)
    (hsender : ∀ c, t.sender = .sendto c ∨ t.sender = .waiting c →
      ∃ c', (s.sender = .sendto c' ∨ s.sender = .waiting c') ∧ c.buffer = c'.buffer)
    (hentries : t.fromPeer = s.fromPeer) : Traced L t where
  queue := by rw [hqueued, htaken, hqueue, h.queue]
  autoId := by rw [hid, htaken, h.autoId]
  called := by rw [hcalled, htaken, h.called]
  data := fun d hd => hcalled ▸ h.data d (hdata hd)
  delivered := by
    rw [hdelivered, hcalled]
    exact h.delivered
  sending := by
    intro c hc
    obtain ⟨c', hc', hbuf⟩ := hsender c hc
    rw [call, hcalled, hbuf]
    exact h.sending c' hc'
  entries := by rw [hentries, hdelivered, h.entries]

/-! ### What is under way -/

theorem underWay_subperm_lost {T : Type} (s : UdpLink T) (k : Nat) :
    (s.socket ++ s.data.eraseIdx k).Subperm s.underWay :=
  ((List.eraseIdx_sublist ..).append_left _).subperm

theorem underWay_subperm_arrive {T : Type} {s : UdpLink T} {k : Nat} {d : Datagram}
    (hk : s.data[k]? = some d) :
    (s.socket ++ [d] ++ s.data.eraseIdx k).Subperm s.underWay := by
  obtain ⟨hlt, rfl⟩ := List.getElem?_eq_some_iff.mp hk
  rw [List.append_assoc]
  exact ((List.getElem_cons_eraseIdx_perm hlt).append_left _).subperm

theorem underWay_read {T : Type} {s : UdpLink T} {d : Datagram} {rest : List Datagram}
    (hq : s.socket = d :: rest) : s.underWay = d :: (rest ++ s.data) := by
  rw [underWay, hq, List.cons_append]

theorem underWay_subperm_read {T : Type} {s : UdpLink T} {d : Datagram} {rest : List Datagram}
    (hq : s.socket = d :: rest) : (rest ++ s.data).Subperm s.underWay := by
  rw [underWay_read hq]
  exact (List.sublist_cons_self ..).subperm

theorem underWay_subperm_closed {T : Type} (s : UdpLink T) : s.data.Subperm s.underWay :=
  (List.sublist_append_right ..).subperm

theorem mem_underWay_sent {T : Type} {s : UdpLink T} {c : SendingTo} {d : Datagram}
    (hd : d ∈ (s.sent c).underWay) : d ∈ s.underWay ∨ d = s.datagram c := by
  change d ∈ s.socket ++ (s.data ++ s.transmitted c) at hd
  rw [← List.append_assoc] at hd
  refine (List.mem_append.mp hd).imp id fun hd => ?_
  unfold transmitted at hd
  split at hd
  · exact List.mem_singleton.mp hd
  · cases hd

theorem Traced.step (h : Traced L s) (hdoc : L.Documented) (hs : step L b s l = some t) :
    Traced L t := by
  have hout : ∀ pc c, Outside pc → ¬ (pc = .sendto c ∨ pc = .waiting c) := by
    rintro _ c hpc (rfl | rfl) <;> exact hpc
  cases moves_of_step hs with
  | sendPacket packet =>
    refine ⟨?_, h.autoId, h.called, h.data, h.delivered, h.sending, h.entries⟩
    show s.queued ++ [packet] = s.taken ++ (s.sendQueue ++ [packet])
    rw [h.queue, List.append_assoc]
  | outside l pc hidle hpc =>
    exact h.of_same rfl rfl rfl rfl rfl (List.Subset.refl _) rfl
      (fun c hc => absurd hc (hout pc c hpc)) rfl
  | take socket packet rest encodedPacket pc hsnd hq he hpc =>
    have hnext : encodings L (s.taken ++ [packet]) =
        (s.called ++ [encodedPacket], (assignId s.autoId packet.id).2) := by
      rw [encodings_concat, h.called, h.autoId]
      rw [h.autoId] at he
      rcases encodeNext_cases (encodings L s.taken) packet with ⟨buffer, he', hn⟩ | ⟨e, he', hn⟩
      · cases he.symm.trans he'
        exact hn
      · cases he.symm.trans he'
    -- the earlier calls keep their numbers
    have hkeep : ∀ (k : Nat) (body : Bytes), s.called[k]? = some body →
        (s.called ++ [encodedPacket])[k]? = some body := by
      intro k body hk
      rw [List.getElem?_append_left (List.getElem?_eq_some_iff.mp hk).1, hk]
    refine ⟨?_, (congrArg Prod.snd hnext).symm, (congrArg Prod.fst hnext).symm, ?_, ?_, ?_,
      h.entries⟩
    · show s.queued = s.taken ++ [packet] ++ rest
      rw [h.queue, hq, List.append_assoc, List.singleton_append]
    · intro d hd
      obtain ⟨body, hbody, hbytes⟩ := h.data d hd
      exact ⟨body, hkeep _ _ hbody, hbytes⟩
    · intro e he
      obtain ⟨body, hbody, hdec⟩ := h.delivered e he
      exact ⟨body, hkeep _ _ hbody, hdec⟩
    · intro c hc
      refine ⟨encodedPacket, ?_, ?_⟩
      · simp [call]
      · rcases hpc with rfl | ⟨port, rfl⟩
        · rcases hc with hc | hc <;> cases hc
        · rcases hc with hc | hc <;> cases hc
          rfl
  | reject socket packet rest e hsnd hq he =>
    have hnext : encodings L (s.taken ++ [packet]) =
        (s.called, (assignId s.autoId packet.id).2) := by
      rw [encodings_concat, h.called, h.autoId]
      rw [h.autoId] at he
      rcases encodeNext_cases (encodings L s.taken) packet with ⟨buffer, he', hn⟩ | ⟨e, he', hn⟩
      · cases he.symm.trans he'
      · exact hn
    refine ⟨?_, (congrArg Prod.snd hnext).symm, (congrArg Prod.fst hnext).symm, h.data, h.delivered,
      ?_, h.entries⟩
    · show s.queued = s.taken ++ [packet] ++ rest
      rw [h.queue, hq, List.append_assoc, List.singleton_append]
    · rintro c (hc | hc) <;> cases hc
  | sendto c hsnd =>
    obtain ⟨body, hbody, hbuf⟩ := h.sending c (.inl hsnd)
    refine ⟨h.queue, h.autoId, h.called, ?_, h.delivered, ?_, h.entries⟩
    · intro d hd
      rcases mem_underWay_sent hd with hd | rfl
      · exact h.data d hd
      · exact ⟨body, hbody, hbuf⟩
    · rintro c' (hc | hc) <;> cases hc
      exact ⟨body, hbody, hbuf⟩
  | retry c c' hsnd hbuf hmax =>
    refine h.of_same rfl rfl rfl rfl rfl (List.Subset.refl _) rfl ?_ rfl
    rintro c'' (hc | hc) <;> cases hc
    exact ⟨c, .inr hsnd, hbuf⟩
  | giveUp c hsnd =>
    exact h.of_same rfl rfl rfl rfl rfl (List.Subset.refl _) rfl
      (fun c hc => absurd hc (hout .loopTest c trivial)) rfl
  | waitError c hsnd =>
    exact h.of_same rfl rfl rfl rfl rfl (List.Subset.refl _) rfl
      (fun c hc => absurd hc (hout .terminated c trivial)) rfl
  | acknowledge k c ack hsnd hk hport =>
    exact h.of_same rfl rfl rfl rfl rfl (List.Subset.refl _) rfl
      (fun c hc => absurd hc (hout .loopTest c trivial)) rfl
  | loseData k =>
    exact h.of_same rfl rfl rfl rfl rfl (underWay_subperm_lost s k).subset rfl
      (fun c hc => ⟨c, hc, rfl⟩) rfl
  | arrive k d hk =>
    exact h.of_same rfl rfl rfl rfl rfl (underWay_subperm_arrive hk).subset rfl
      (fun c hc => ⟨c, hc, rfl⟩) rfl
  | readNothing d rest pc hq =>
    exact h.of_same rfl rfl rfl rfl rfl (underWay_subperm_read hq).subset rfl
      (fun c hc => ⟨c, hc, rfl⟩) rfl
  | disconnectReceiver =>
    exact h.of_same rfl rfl rfl rfl rfl (underWay_subperm_closed s).subset rfl
      (fun c hc => ⟨c, hc, rfl⟩) rfl
  | read d rest packet hq hd =>
    obtain ⟨body, hbody, hbytes⟩ := h.data d (underWay_read hq ▸ List.mem_cons_self)
    have hdec : decode L body = .ok packet := by
      have hmem : body ∈ (encodings L s.taken).1 := h.called ▸ List.mem_of_getElem? hbody
      obtain ⟨payload, id, he⟩ := mem_encodings hmem
      rw [hbytes, UdpNetworking.decodeDatagram_finalBuffer (length_encode hdoc he)] at hd
      exact Option.some.inj hd
    refine ⟨h.queue, h.autoId, h.called,
      fun d' hd' => h.data d' ((underWay_subperm_read hq).subset hd'), ?_, h.sending, ?_⟩
    · intro e he
      rcases List.mem_append.mp he with he | he
      · exact h.delivered e he
      · rw [List.mem_singleton.mp he]
        exact ⟨body, hbody, hdec⟩
    · have hentries := h.entries
      unfold fromPeer at hentries ⊢
      rw [List.filter_append, List.map_append, hentries, List.map_append]
      simp
  | readError =>
    refine h.of_same rfl rfl rfl rfl rfl (List.Subset.refl _) rfl (fun c hc => ⟨c, hc, rfl⟩) ?_
    unfold fromPeer
    rw [List.filter_append]
    simp
  | _ =>
    exact h.of_same rfl rfl rfl rfl rfl (List.Subset.refl _) rfl (fun c hc => ⟨c, hc, rfl⟩) rfl

/-! ## At most ten of each -/

/-- The datagrams of a call on their way, and those that were received. -/
def copies {T : Type} (s : UdpLink T) (call : Nat) : Nat :=
  s.underWay.countP (·.call = call) + s.delivered.countP (·.call = call)

structure Budget {T : Type} (s : UdpLink T) : Prop where
  fresh : ∀ call, s.called.length ≤ call → s.copies call = 0
  few : ∀ call, s.copies call ≤ 10
  sendto : ∀ c, s.sender = .sendto c → s.called ≠ [] ∧ s.copies s.call + c.maxResendCount ≤ 10
  waiting : ∀ c, s.sender = .waiting c → s.called ≠ [] ∧ s.copies s.call + c.maxResendCount ≤ 11

theorem Budget.init {T : Type} : Budget ({} : UdpLink T) where
  fresh := fun _ _ => rfl
  few := fun _ => Nat.zero_le _
  sendto := fun _ h => by cases h
  waiting := fun _ h => by cases h

/-- A step that begins no call and sends nothing. -/
theorem Budget.of_le {T : Type} {s t : UdpLink T} (h : Budget s) (hcalled : t.called = s.called)
    (hcopies : ∀ call, t.copies call ≤ s.copies call)
    (hsender : t.sender = s.sender ∨ Outside t.sender) : Budget t := by
  have hcall : t.call = s.call := by rw [call, hcalled, call]
  refine ⟨?_, ?_, ?_, ?_⟩
  · intro k hk
    rw [hcalled] at hk
    exact Nat.le_zero.mp (h.fresh k hk ▸ hcopies k)
  · intro k
    exact Nat.le_trans (hcopies k) (h.few k)
  · intro c hc
    rcases hsender with hsame | hout
    · obtain ⟨hne, hle⟩ := h.sendto c (hsame ▸ hc)
      rw [hcalled, hcall]
      exact ⟨hne, Nat.le_trans (Nat.add_le_add_right (hcopies _) _) hle⟩
    · rw [hc] at hout
      exact absurd hout id
  · intro c hc
    rcases hsender with hsame | hout
    · obtain ⟨hne, hle⟩ := h.waiting c (hsame ▸ hc)
      rw [hcalled, hcall]
      exact ⟨hne, Nat.le_trans (Nat.add_le_add_right (hcopies _) _) hle⟩
    · rw [hc] at hout
      exact absurd hout id

theorem call_lt {T : Type} {s : UdpLink T} (h : s.called ≠ []) : s.call < s.called.length :=
  Nat.sub_lt (List.length_pos_iff.mpr h) Nat.one_pos

/-- A datagram that is lost, arrives or is read in vain. -/
theorem copies_subperm {T : Type} {s t : UdpLink T} (hdata : t.underWay.Subperm s.underWay)
    (hdelivered : t.delivered = s.delivered) (call : Nat) : t.copies call ≤ s.copies call := by
  rw [copies, copies, hdelivered]
  exact Nat.add_le_add_right (hdata.countP_le _) _

/-- The running call has sent one datagram more, at most. -/
theorem copies_sent {T : Type} (s : UdpLink T) (c : SendingTo) (call : Nat) :
    (s.sent c).copies call ≤ s.copies call + if s.call = call then 1 else 0 := by
  have hnew : (s.transmitted c).countP (·.call = call) ≤ if s.call = call then 1 else 0 := by
    unfold transmitted
    split
    · by_cases hcall : s.call = call <;> simp [datagram, hcall]
    · exact Nat.zero_le _
  have hall : (s.sent c).copies call =
      s.copies call + (s.transmitted c).countP (·.call = call) := by
    simp only [copies, underWay, sent, List.countP_append]
    omega
  omega

/-- A datagram on its way has become a packet received. -/
theorem copies_read {T : Type} {s t : UdpLink T} {d : Datagram} {rest : List Datagram}
    {packet : Packet T} (hq : s.socket = d :: rest) (hdata : t.underWay = rest ++ s.data)
    (hdelivered : t.delivered = s.delivered ++ [{ call := d.call, packet }]) (call : Nat) :
    t.copies call = s.copies call := by
  simp only [copies, hdata, hdelivered, underWay_read hq, List.countP_append, List.countP_cons,
    List.countP_nil]
  omega

theorem Budget.step (h : Budget s) (hs : UdpLink.step L b s l = some t) : Budget t := by
  cases moves_of_step hs with
  | outside l pc hidle hpc => exact h.of_le rfl (fun _ => Nat.le_refl _) (.inr hpc)
  | take socket packet rest encodedPacket pc hsnd hq he hpc =>
    refine ⟨?_, h.few, ?_, ?_⟩
    · intro k hk
      have hlen : (s.called ++ [encodedPacket]).length ≤ k := hk
      rw [List.length_append] at hlen
      exact h.fresh k (by omega)
    · intro c hc
      refine ⟨by simp, ?_⟩
      have hnew : s.copies (s.called ++ [encodedPacket]).length.pred = 0 := by
        refine h.fresh _ ?_
        rw [List.length_append]
        exact Nat.le_refl _
      have hmost := c.most
      show s.copies ((s.called ++ [encodedPacket]).length - 1) + _ ≤ 10
      rw [← Nat.pred_eq_sub_one, hnew]
      omega
    · intro c hc
      change pc = _ at hc
      rcases hpc with rfl | ⟨port, rfl⟩ <;> cases hc
  | reject socket packet rest e hsnd hq he =>
    exact h.of_le rfl (fun _ => Nat.le_refl _) (.inr trivial)
  | sendto c hsnd =>
    obtain ⟨hne, hle⟩ := h.sendto c hsnd
    have hmore := c.more
    refine ⟨?_, ?_, ?_, ?_⟩
    · intro k hk
      have hlt := call_lt hne
      have hk : s.called.length ≤ k := hk
      have hcopies := s.copies_sent c k
      rw [h.fresh k hk, if_neg (by omega)] at hcopies
      exact Nat.le_zero.mp hcopies
    · intro k
      have hcopies := s.copies_sent c k
      have hfew := h.few k
      by_cases hk : s.call = k
      · subst hk
        rw [if_pos rfl] at hcopies
        omega
      · rw [if_neg hk] at hcopies
        omega
    · intro c' hc'
      cases hc'
    · intro c' hc'
      cases hc'
      refine ⟨hne, ?_⟩
      have hcopies := s.copies_sent c s.call
      rw [if_pos rfl] at hcopies
      show (s.sent c).copies s.call + _ ≤ 11
      omega
  | retry c c' hsnd hbuf hmax =>
    obtain ⟨hne, hle⟩ := h.waiting c hsnd
    refine ⟨h.fresh, h.few, ?_, ?_⟩
    · intro c'' hc
      cases hc
      refine ⟨hne, ?_⟩
      show s.copies s.call + _ ≤ 10
      omega
    · intro c'' hc
      cases hc
  | giveUp c hsnd => exact h.of_le rfl (fun _ => Nat.le_refl _) (.inr trivial)
  | waitError c hsnd => exact h.of_le rfl (fun _ => Nat.le_refl _) (.inr trivial)
  | acknowledge k c ack hsnd hk hport => exact h.of_le rfl (fun _ => Nat.le_refl _) (.inr trivial)
  | loseData k => exact h.of_le rfl (copies_subperm (underWay_subperm_lost s k) rfl) (.inl rfl)
  | arrive k d hk => exact h.of_le rfl (copies_subperm (underWay_subperm_arrive hk) rfl) (.inl rfl)
  | readNothing d rest pc hq =>
    exact h.of_le rfl (copies_subperm (underWay_subperm_read hq) rfl) (.inl rfl)
  | disconnectReceiver =>
    exact h.of_le rfl (copies_subperm (underWay_subperm_closed s) rfl) (.inl rfl)
  | read d rest packet hq hd =>
    exact h.of_le rfl (fun call => Nat.le_of_eq (copies_read hq rfl rfl call)) (.inl rfl)
  -- the others leave the datagrams and the calls alone
  | _ => exact h.of_le rfl (fun _ => Nat.le_refl _) (.inl rfl)

/-! ## In order, each once -/

/-- A wait times out only where the datagrams of its call were lost: none was
received, none is on its way. -/
def TimesOutOnLoss {T : Type} (s : UdpLink T) : LinkLabel T → Prop
  | .timeout => (∀ d ∈ s.underWay, d.call ≠ s.call) ∧ ∀ e ∈ s.delivered, e.call ≠ s.call
  | _ => True

instance {T : Type} (s : UdpLink T) : (l : LinkLabel T) → Decidable (TimesOutOnLoss s l)
  | .timeout => inferInstanceAs (Decidable (_ ∧ _))
  | .sendPacket _ | .sendTest | .take _ | .sendto | .waitError | .acknowledge _ | .loseData _
  | .loseAck _ | .arrive _ | .receiveTest | .epollWait _ | .read | .readError | .disconnectSender
  | .disconnectReceiver => inferInstanceAs (Decidable True)

/-- What is on its way: nothing, one datagram of the latest call, not received
before, or the acknowledgement of one that was received. -/
inductive OnWay {T : Type} (s : UdpLink T) : Prop where
  | nothing (hdata : s.underWay = []) (hacks : s.acks = [])
  | datagram (d : Datagram) (hdata : s.underWay = [d]) (hacks : s.acks = [])
      (hcall : d.call + 1 = s.called.length) (hnew : ∀ e ∈ s.delivered, e.call < d.call)
  | ack (a : Ack) (e : Delivery T) (hdata : s.underWay = []) (hacks : s.acks = [a])
      (he : e ∈ s.delivered) (hcall : e.call + 1 = s.called.length)

structure InStep {T : Type} (s : UdpLink T) : Prop where
  increasing : s.delivered.Pairwise (·.call < ·.call)
  latest : ∀ e ∈ s.delivered, e.call < s.called.length
  onWay : OnWay s
  idle : Idle s.sender → s.underWay = [] ∧ s.acks = []
  sendto : ∀ c, s.sender = .sendto c → s.underWay = [] ∧ s.acks = [] ∧ s.called ≠ [] ∧
    ∀ e ∈ s.delivered, e.call < s.call

theorem InStep.init {T : Type} : InStep ({} : UdpLink T) where
  increasing := .nil
  latest := fun _ h => absurd h List.not_mem_nil
  onWay := .nothing rfl rfl
  idle := fun _ => ⟨rfl, rfl⟩
  sendto := fun _ h => by cases h

/-- A step that neither sends nor receives, and neither begins a call nor an attempt. -/
theorem InStep.of_same {T : Type} {s t : UdpLink T} (h : InStep s) (hdata : t.underWay = s.underWay)
    (hacks : t.acks = s.acks) (hdelivered : t.delivered = s.delivered)
    (hcalled : t.called = s.called) (hidle : Idle t.sender → Idle s.sender)
    (hsendto : ∀ c, t.sender = .sendto c → s.sender = .sendto c) : InStep t where
  increasing := hdelivered ▸ h.increasing
  latest := by
    rw [hdelivered, hcalled]
    exact h.latest
  onWay := by
    cases h.onWay with
    | nothing hd ha => exact .nothing (hdata.trans hd) (hacks.trans ha)
    | datagram d hd ha hc hn =>
      exact .datagram d (hdata.trans hd) (hacks.trans ha) (hcalled ▸ hc) (hdelivered ▸ hn)
    | ack a e hd ha he hc =>
      exact .ack a e (hdata.trans hd) (hacks.trans ha) (hdelivered ▸ he) (hcalled ▸ hc)
  idle := by
    rw [hdata, hacks]
    exact fun hi => h.idle (hidle hi)
  sendto := by
    intro c hc
    rw [hdata, hacks, hcalled, hdelivered, call, hcalled]
    exact h.sendto c (hsendto c hc)

/-- Nothing is on its way any more. -/
theorem InStep.of_lost {T : Type} {s t : UdpLink T} (h : InStep s) (hdata : t.underWay = [])
    (hacks : t.acks = []) (hdelivered : t.delivered = s.delivered)
    (hcalled : t.called = s.called) (hsender : t.sender = s.sender) : InStep t where
  increasing := hdelivered ▸ h.increasing
  latest := by
    rw [hdelivered, hcalled]
    exact h.latest
  onWay := .nothing hdata hacks
  idle := fun _ => ⟨hdata, hacks⟩
  sendto := by
    intro c hc
    rw [hsender] at hc
    obtain ⟨-, -, hnew⟩ := h.sendto c hc
    rw [hcalled, hdelivered, call, hcalled]
    exact ⟨hdata, hacks, hnew⟩

/-- What is lost, if anything, is all that was on its way. -/
theorem OnWay.subperm {T : Type} {s : UdpLink T} (h : OnWay s) {ds : List Datagram}
    (hsub : ds.Subperm s.underWay) : ds = s.underWay ∨ ds = [] ∧ s.acks = [] := by
  have hnone : s.underWay = [] → ds = s.underWay := by
    intro hd
    rw [hd] at hsub ⊢
    exact List.subperm_nil.mp hsub
  cases h with
  | nothing hd ha => exact .inl (hnone hd)
  | datagram d hd ha hc hn =>
    rw [hd] at hsub ⊢
    cases ds with
    | nil => exact .inr ⟨rfl, ha⟩
    | cons e es =>
      have hlen : es = [] := List.length_eq_zero_iff.mp (Nat.le_zero.mp (Nat.le_of_succ_le_succ
        hsub.length_le))
      have he := List.mem_singleton.mp (hsub.subset List.mem_cons_self)
      exact .inl (by rw [hlen, he])
  | ack a e hd ha he hc => exact .inl (hnone hd)

theorem OnWay.eraseAck {T : Type} {s : UdpLink T} (h : OnWay s) (k : Nat) :
    s.acks.eraseIdx k = s.acks ∨ s.acks.eraseIdx k = [] ∧ s.underWay = [] := by
  cases h with
  | nothing hd ha => exact .inl (by rw [ha]; rfl)
  | datagram d hd ha hc hn => exact .inl (by rw [ha]; rfl)
  | ack a e hd ha he hc =>
    rw [ha]
    cases k with
    | zero => exact .inr ⟨rfl, hd⟩
    | succ k => exact .inl rfl

/-- A datagram is lost, arrives or is read in vain. -/
theorem InStep.subperm {T : Type} {s t : UdpLink T} (h : InStep s)
    (hdata : t.underWay.Subperm s.underWay) (hacks : t.acks = s.acks)
    (hdelivered : t.delivered = s.delivered) (hcalled : t.called = s.called)
    (hsender : t.sender = s.sender) : InStep t := by
  rcases h.onWay.subperm hdata with hkeep | ⟨hgone, hnone⟩
  · exact h.of_same hkeep hacks hdelivered hcalled (by rw [hsender]; exact id)
      (fun c hc => hsender ▸ hc)
  · exact h.of_lost hgone (hacks.trans hnone) hdelivered hcalled hsender

/-- When a wait times out after a loss, nothing is on its way, and nothing of
the call was received. -/
theorem InStep.quiet {T : Type} {s : UdpLink T} (h : InStep s) (hok : TimesOutOnLoss s .timeout) :
    s.underWay = [] ∧ s.acks = [] ∧ ∀ e ∈ s.delivered, e.call < s.call := by
  have hbefore : ∀ e ∈ s.delivered, e.call < s.call := by
    intro e he
    have hlt := h.latest e he
    have hne := hok.2 e he
    unfold call at hne ⊢
    omega
  cases h.onWay with
  | nothing hd ha => exact ⟨hd, ha, hbefore⟩
  | datagram d hd ha hc hn =>
    have hne := hok.1 d (hd ▸ List.mem_singleton_self d)
    unfold call at hne
    omega
  | ack a e hd ha he hc =>
    have hlt := hbefore e he
    unfold call at hlt
    omega

theorem InStep.step (h : InStep s) (hbudget : Budget s) (hok : TimesOutOnLoss s l)
    (hs : UdpLink.step L b s l = some t) : InStep t := by
  cases moves_of_step hs with
  | outside l pc hidle hpc =>
    refine h.of_same rfl rfl rfl rfl (fun _ => hidle) ?_
    rintro c rfl
    exact absurd hpc id
  | take socket packet rest encodedPacket pc hsnd hq he hpc =>
    obtain ⟨hdata, hacks⟩ := h.idle (by rw [hsnd]; trivial)
    refine ⟨h.increasing, ?_, .nothing hdata hacks, fun _ => ⟨hdata, hacks⟩, ?_⟩
    · intro e he
      show e.call < (s.called ++ [encodedPacket]).length
      rw [List.length_append]
      exact Nat.lt_add_right _ (h.latest e he)
    · intro c hc
      refine ⟨hdata, hacks, by simp, ?_⟩
      intro e he
      show e.call < (s.called ++ [encodedPacket]).length - 1
      rw [List.length_append]
      exact h.latest e he
  | reject socket packet rest e hsnd hq he =>
    exact h.of_same rfl rfl rfl rfl (fun hi => absurd hi id) (fun c hc => by cases hc)
  | sendto c hsnd =>
    obtain ⟨hdata, hacks, hne, hnew⟩ := h.sendto c hsnd
    have hsent : (s.sent c).underWay = s.transmitted c := by
      show s.socket ++ (s.data ++ s.transmitted c) = _
      rw [← List.append_assoc]
      exact congrArg (· ++ _) hdata
    refine ⟨h.increasing, h.latest, ?_, fun hi => absurd hi id, fun c' hc' => by cases hc'⟩
    by_cases hlong : c.buffer.length ≤ maxDatagram
    · refine .datagram (s.datagram c) (hsent.trans (if_pos hlong)) hacks ?_ hnew
      exact Nat.sub_add_cancel (List.length_pos_iff.mpr hne)
    · exact .nothing (hsent.trans (if_neg hlong)) hacks
  | retry c c' hsnd hbuf hmax =>
    obtain ⟨hdata, hacks, hnew⟩ := h.quiet hok
    obtain ⟨hne, -⟩ := hbudget.waiting c hsnd
    exact ⟨h.increasing, h.latest, .nothing hdata hacks, fun _ => ⟨hdata, hacks⟩,
      fun _ _ => ⟨hdata, hacks, hne, hnew⟩⟩
  | giveUp c hsnd =>
    obtain ⟨hdata, hacks, -⟩ := h.quiet hok
    exact ⟨h.increasing, h.latest, .nothing hdata hacks, fun _ => ⟨hdata, hacks⟩,
      fun c hc => by cases hc⟩
  | waitError c hsnd =>
    exact h.of_same rfl rfl rfl rfl (fun hi => absurd hi id) (fun c hc => by cases hc)
  | acknowledge k c ack hsnd hk hport =>
    -- the acknowledgement was all that was on its way
    cases h.onWay with
    | nothing hd ha =>
      rw [ha] at hk
      cases hk
    | datagram d hd ha hc hn =>
      rw [ha] at hk
      cases hk
    | ack a e hd ha he hc =>
      have hgone : s.acks.eraseIdx k = [] := by
        rw [ha] at hk ⊢
        cases k with
        | zero => rfl
        | succ k => cases hk
      exact ⟨h.increasing, h.latest, .nothing hd hgone, fun _ => ⟨hd, hgone⟩,
        fun c hc => by cases hc⟩
  | loseData k => exact h.subperm (underWay_subperm_lost s k) rfl rfl rfl rfl
  | arrive k d hk => exact h.subperm (underWay_subperm_arrive hk) rfl rfl rfl rfl
  | disconnectReceiver => exact h.subperm (underWay_subperm_closed s) rfl rfl rfl rfl
  | loseAck k =>
    rcases h.onWay.eraseAck k with hkeep | ⟨hgone, hnone⟩
    · exact h.of_same rfl hkeep rfl rfl id (fun _ => id)
    · exact h.of_lost hnone hgone rfl rfl rfl
  | readNothing d rest pc hq => exact h.subperm (underWay_subperm_read hq) rfl rfl rfl rfl
  | read d rest packet hq hd =>
    -- the datagram was all that was on its way; now its acknowledgement is
    have hway := underWay_read hq
    cases h.onWay with
    | nothing hd' ha =>
      rw [hd'] at hway
      cases hway
    | datagram d' hd' ha hc hn =>
      rw [hd'] at hway
      obtain ⟨rfl, hgone⟩ := List.cons.inj hway
      have hbusy : s.underWay ≠ [] := by
        rw [hd']
        exact List.cons_ne_nil _ _
      refine ⟨?_, ?_, ?_, ?_, ?_⟩
      · refine List.pairwise_append.mpr ⟨h.increasing, List.pairwise_singleton _ _, ?_⟩
        intro e he f hf
        rw [List.mem_singleton.mp hf]
        exact hn e he
      · intro e he
        rcases List.mem_append.mp he with he | he
        · exact h.latest e he
        · rw [List.mem_singleton.mp he]
          exact hc ▸ Nat.lt_succ_self d'.call
      · exact .ack { port := d'.source, call := d'.call } { call := d'.call, packet } hgone.symm
          (congrArg (· ++ _) ha) (List.mem_append_right _ (List.mem_singleton_self _)) hc
      · exact fun hi => absurd (h.idle hi).1 hbusy
      · exact fun c hc' => absurd (h.sendto c hc').1 hbusy
    | ack a e hd' ha he hc =>
      rw [hd'] at hway
      cases hway
  | _ => exact h.of_same rfl rfl rfl rfl id (fun _ => id)

/-! ## What is received -/

/-- **Ten copies at most**: every packet received in a datagram is the packet
of a call, as it was sent, and a call leads to ten of them at most. -/
structure FewCopies (L : Libraries) (s : UdpLink L.arrow.Table) : Prop where
  entries : s.fromPeer = s.delivered.map Delivery.packet
  source : ∀ e ∈ s.delivered, (carried L s.queued)[e.call]? = some (.ok e.packet)
  few : ∀ call, s.delivered.countP (·.call = call) ≤ 10

/-- **In order, each once**: the packets received in datagrams are a
subsequence of those queued, and a call leads to one of them at most. -/
structure OnceInOrder (L : Libraries) (s : UdpLink L.arrow.Table) : Prop where
  entries : s.fromPeer = s.delivered.map Delivery.packet
  order : (s.fromPeer.map Except.ok).Sublist (carried L s.queued)
  once : ∀ call, s.delivered.countP (·.call = call) ≤ 1

/-- The packet of a call is the one queued at its place, encoded and decoded. -/
theorem Traced.source (h : Traced L s) {e : Delivery L.arrow.Table} (he : e ∈ s.delivered) :
    (carried L s.queued)[e.call]? = some (.ok e.packet) := by
  obtain ⟨body, hbody, hdec⟩ := h.delivered e he
  obtain ⟨rest, hrest⟩ := encodings_append (L := L) s.taken s.sendQueue
  rw [carried_eq, h.queue, ← hrest, ← h.called, List.getElem?_map,
    List.getElem?_append_left (List.getElem?_eq_some_iff.mp hbody).1, hbody, Option.map_some, hdec]

theorem Traced.fewCopies (h : Traced L s) (hbudget : Budget s) : FewCopies L s where
  entries := h.entries
  source := fun _ he => h.source he
  few := fun call => Nat.le_trans (Nat.le_add_left _ _) (hbudget.few call)

theorem Traced.onceInOrder (h : Traced L s) (hstep : InStep s) : OnceInOrder L s where
  entries := h.entries
  order := by
    rw [h.entries, List.map_map]
    exact map_sublist_of_increasing hstep.increasing fun e he => h.source he
  once := countP_le_one_of_increasing hstep.increasing

/-- **What a peer receives of what another one sends.** In every run the
packets received are packets of calls, no more than ten of one call; and in a
run in which a wait times out only after a loss they come in the order in which
they were queued, one of a call at most. -/
theorem received_of_queued (L : Libraries) (h : L.Documented) (b : Address)
    (ls : List (LinkLabel L.arrow.Table)) :
    Throughout (UdpLink.step L b) (FewCopies L) {} ls ∧
      (Along (UdpLink.step L b) TimesOutOnLoss {} ls →
        Throughout (UdpLink.step L b) (OnceInOrder L) {} ls) := by
  constructor
  · have hall : Along (UdpLink.step L b) (fun _ _ => True) {} ls :=
      Along.of_forall (fun _ _ => trivial) _ _
    refine hall.throughout (I := fun s => Traced L s ∧ Budget s) ?_ ?_ ⟨.init, .init⟩
    · exact fun hi => hi.1.fewCopies hi.2
    · intro s l t hi _ hs
      exact ⟨hi.1.step h hs, hi.2.step hs⟩
  · intro hok
    refine hok.throughout (I := fun s => Traced L s ∧ Budget s ∧ InStep s) ?_ ?_
      ⟨.init, .init, .init⟩
    · exact fun hi => hi.1.onceInOrder hi.2.2
    · intro s l t hi hok hs
      exact ⟨hi.1.step h hs, hi.2.1.step hs, hi.2.2.step hi.2.1 hok hs⟩

/-- The first datagram is lost and sent again, then a second packet follows. -/
theorem received_of_queued_loss :
    let ls : List (LinkLabel Reference.libraries.arrow.Table) :=
      [.sendPacket { id := 5, payload := .ls { directory := [0x2F] } },
        .sendPacket { id := -1, payload := .ls { directory := [0x2F] } }, .sendTest,
        .take (some 40000), .sendto, .loseData 0, .timeout, .sendto, .arrive 0, .receiveTest,
        .epollWait true, .read, .acknowledge 0, .sendTest, .take (some 40001), .sendto,
        .receiveTest, .arrive 0, .epollWait true, .read]
    Throughout (UdpLink.step Reference.libraries ⟨.quad 10 0 0 2, 9000⟩)
        (FewCopies Reference.libraries) {} ls ∧
      Throughout (UdpLink.step Reference.libraries ⟨.quad 10 0 0 2, 9000⟩)
        (OnceInOrder Reference.libraries) {} ls :=
  ⟨(received_of_queued Reference.libraries Reference.libraries_documented _ _).1,
    (received_of_queued Reference.libraries Reference.libraries_documented _ _).2 (by decide)⟩

/-- **A late acknowledgement doubles the packet.** The wait times out before
the acknowledgement arrives, and the second copy is received like the first. -/
theorem received_twice :
    ¬ Throughout (UdpLink.step Reference.libraries ⟨.quad 10 0 0 2, 9000⟩)
      (OnceInOrder Reference.libraries) {}
      [.sendPacket { id := 5, payload := .ls { directory := [0x2F] } }, .sendTest,
        .take (some 40000), .sendto, .arrive 0, .receiveTest, .epollWait true, .read, .timeout,
        .sendto, .arrive 0, .receiveTest, .epollWait true, .read] := by
  intro h
  obtain ⟨s, hrun, htwo, hone⟩ : ∃ s, run (UdpLink.step Reference.libraries ⟨.quad 10 0 0 2, 9000⟩) {}
      [.sendPacket { id := 5, payload := .ls { directory := [0x2F] } }, .sendTest,
        .take (some 40000), .sendto, .arrive 0, .receiveTest, .epollWait true, .read, .timeout,
        .sendto, .arrive 0, .receiveTest, .epollWait true, .read] = some s ∧
      s.fromPeer.length = 2 ∧ (carried Reference.libraries s.queued).length = 1 :=
    ⟨_, rfl, rfl, rfl⟩
  have hle := (h.last hrun).order.length_le
  rw [List.length_map, htwo, hone] at hle
  exact absurd hle (by decide)

end UdpLink
end Ttp2
