import Ttp2.UdpNetwork

/-! # What the return of `sendMessageTo` tells

A call returns for any datagram that starts with '1', for an empty one where a
'1' stands in the buffer, and after its tenth transmission. Where nothing but
the peers' acknowledgements reaches the temporary sockets, third parties send
from other hosts and no temporary port is used twice, the '1' is an
acknowledgement of this call's packet by its destination
(`acknowledged_or_exhausted`). -/
namespace Ttp2
open Lib Lts

/-- **Acknowledged by its destination**: the call received an acknowledgement
that its destination sent for one of this call's transmissions. -/
def SendSession.CallRecord.AckedByDestination (r : SendSession.CallRecord) (a : Address) : Prop :=
  ∃ d ∈ r.received, SendSession.Acknowledges d ∧ d.source = r.destination ∧
    d.origin = some ⟨a, r.number⟩

/-! ## One sender -/

namespace SendSession
variable {L : Libraries} {address : Address} {s t : SendSession L.arrow.Table}
  {l : SendSessionLabel L.arrow.Table}

/-- What is transmitted is the buffer of the running call. -/
theorem sent_of_step (hs : step L address s l = some t) {d : UdpDatagram} (hd : d ∈ t.sent) :
    d ∈ s.sent ∨ ∃ c r, s.running = some (c, r) ∧ d = datagram address c r := by
  cases moves_of_step hs with
  | sendto c r hpc =>
    rcases List.mem_append.mp hd with hd | hd
    · exact .inl hd
    · exact .inr ⟨c, r, running_of_sendto hpc, List.mem_singleton.mp hd⟩
  | waited l c r hpc result received hw =>
    rw [sent_waited] at hd
    exact .inl hd
  | _ => exact .inl hd

theorem sent_subset (hs : step L address s l = some t) : s.sent ⊆ t.sent := by
  cases moves_of_step hs with
  | sendto c r hpc => exact List.subset_append_left ..
  | waited l c r hpc result received hw =>
    rw [sent_waited]
    exact List.Subset.refl _
  | _ => exact List.Subset.refl _

/-- Nothing but acknowledgements reaches the temporary socket. -/
def AnswersAcknowledge (l : SendSessionLabel L.arrow.Table) : Prop :=
  ∀ d stale, l = .answer d stale → d.bytes = [0x31]

/-- What the attempts of one call share as long as none is answered. -/
structure SameCall (c c' : SendingTo) (r r' : CallRecord) : Prop where
  socket : c'.socket = c.socket
  serverAddress : c'.serverAddress = c.serverAddress
  number : r'.number = r.number
  destination : r'.destination = r.destination
  received : r'.received = r.received

theorem again_of_waits {c c' : SendingTo} {result : AckResult} {received : List UdpDatagram}
    (hw : Waits l result received) (hl : AnswersAcknowledge l)
    (h : c.waited result = .again c') :
    received = [] ∧ c'.serverAddress = c.serverAddress := by
  obtain ⟨hgoes, hretries⟩ := SendingTo.retries_of_again h
  cases hw with
  | timeout => exact ⟨rfl, hretries.serverAddress⟩
  | error => cases hgoes
  | answer d stale =>
    rw [hl d stale rfl] at hgoes
    cases hgoes

/-- A call that is running was running before the step, or the step begins it. -/
theorem running_of_step (hs : step L address s l = some t) (hl : AnswersAcknowledge l)
    {c' : SendingTo} {r' : CallRecord} (hrun : t.running = some (c', r')) :
    l = .take (some c'.socket) ∧ c'.serverAddress = r'.destination ∧ r'.received = [] ∨
      ∃ c r, s.running = some (c, r) ∧ SameCall c c' r r' := by
  cases moves_of_step hs with
  | sendPacket p => exact .inr ⟨c', r', hrun, rfl, rfl, rfl, rfl, rfl⟩
  | disconnect => exact .inr ⟨c', r', hrun, rfl, rfl, rfl, rfl, rfl⟩
  | loopTest hpc =>
    unfold running at hrun
    dsimp only at hrun
    split at hrun
    · rename_i hconnected
      split at hconnected <;> cases hconnected
    · rename_i hconnected
      split at hconnected <;> cases hconnected
    · cases hrun
  | takeNothing socket hpc hq => cases hrun
  | reject socket p rest e hpc hq he => cases hrun
  | take socket p rest encodedPacket hpc hq he =>
    cases socket with
    | none => cases hrun
    | some port =>
      cases hrun
      exact .inl ⟨rfl, rfl, rfl⟩
  | sendto c r hpc =>
    cases hrun
    exact .inr ⟨_, _, running_of_sendto hpc, rfl, rfl, rfl, rfl, rfl⟩
  | waited l c r hpc result received hw =>
    rcases afterAttempt_cases s c { r with received := r.received ++ received } result with
      ⟨c'', ht, hagain⟩ | ⟨ht, -⟩ | ⟨ht, -⟩ <;> rw [ht] at hrun
    · cases hrun
      obtain ⟨hnone, haddress⟩ := again_of_waits hw hl hagain
      refine .inr ⟨c, r, running_of_waiting hpc, (SendingTo.retries_of_again hagain).2.socket,
        haddress, rfl, rfl, ?_⟩
      rw [hnone, List.append_nil]
    · cases hrun
    · cases hrun

/-- A call that has returned had returned before the step, or its wait is over. -/
theorem returned_of_step (hs : step L address s l = some t) {r' : CallRecord}
    (hr : r' ∈ t.returned) :
    r' ∈ s.returned ∨ ∃ c r result received, s.pc = .waiting c r ∧ Waits l result received ∧
      r' = { r with received := r.received ++ received } := by
  cases moves_of_step hs with
  | waited l c r hpc result received hw =>
    rcases afterAttempt_cases s c { r with received := r.received ++ received } result with
      ⟨c', ht, -⟩ | ⟨ht, -⟩ | ⟨ht, -⟩ <;> rw [ht] at hr
    · exact .inl hr
    · rcases List.mem_append.mp hr with hr | hr
      · exact .inl hr
      · exact .inr ⟨c, r, result, received, hpc, hw, List.mem_singleton.mp hr⟩
    · exact .inl hr
  | _ => exact .inl hr

end SendSession

/-! ## One receiver -/

namespace ReceiveSession
variable {L : Libraries} {address : Address} {s t : ReceiveSession L.arrow.Table}
  {l : ReceiveLabel}

theorem socket_of_step (hs : step L address s l = some t) {d : UdpDatagram} (hd : d ∈ t.socket) :
    d ∈ s.socket ∨ l = .arrive d := by
  cases moves_of_step hs with
  | arrive d' hc =>
    rcases List.mem_append.mp hd with hd | hd
    · exact .inl hd
    · exact .inr (by rw [List.mem_singleton.mp hd])
  | received d' rest packet hpc hq hdecode => exact .inl (List.mem_of_mem_tail hd)
  | threw d' rest e hpc hq hdecode => exact .inl (List.mem_of_mem_tail hd)
  | undefined d' rest hpc hq hdecode => exact .inl (List.mem_of_mem_tail hd)
  | disconnect => exact absurd hd List.not_mem_nil
  | _ => exact .inl hd

/-- An acknowledgement answers a datagram of the socket that has a length prefix. -/
theorem acks_of_step (hs : step L address s l = some t) {d : UdpDatagram} (hd : d ∈ t.acks) :
    d ∈ s.acks ∨ ∃ e ∈ s.socket, e.bytes ≠ [0x31] ∧
      d = { source := address, destination := e.source, bytes := [0x31], origin := e.origin } := by
  cases moves_of_step hs with
  | received e rest packet hpc hq hdecode =>
    rcases List.mem_append.mp hd with hd | hd
    · exact .inl hd
    · refine .inr ⟨e, by rw [hq]; exact List.mem_cons_self, fun hbytes => ?_,
        List.mem_singleton.mp hd⟩
      rw [hbytes] at hdecode
      cases hdecode
  | _ => exact .inl hd

end ReceiveSession

/-! ## The network -/

namespace UdpNetwork
variable {L : Libraries} {peers : List Address} {s t : UdpNetwork L.arrow.Table} {a : Address}
  {l : NetworkLabel L.arrow.Table}

/-- On no peer's host. -/
def Foreign (peers : List Address) (source : Address) : Prop := ∀ p ∈ peers, p.ip ≠ source.ip

/-- No running call has this temporary socket, and nothing was sent from it. -/
def Fresh {T : Type} (peers : List Address) (s : UdpNetwork T) (socket : Address) : Prop :=
  ∀ p ∈ peers, callSocket p (s.senders p) ≠ some socket ∧
    ∀ d ∈ (s.senders p).sent, d.source ≠ socket

/-- Only acknowledgements of peers reach a temporary socket, third parties send
from other hosts, and no temporary socket has a port used before. -/
def Undisturbed {T : Type} (peers : List Address) (s : UdpNetwork T) : NetworkLabel T → Prop
  | .send a (.take (some port)) => Fresh peers s ⟨a.ip, port⟩
  | .toServer (.thirdParty d) => Foreign peers d.source
  | .toCall (.transmission _ _) _ _ | .toCall (.thirdParty _) _ _ => False
  | _ => True

def Transmitted {T : Type} (peers : List Address) (s : UdpNetwork T) (d : UdpDatagram) : Prop :=
  ∃ p ∈ peers, d ∈ (s.senders p).sent

/-- The acknowledgement `d` of the peer `q` answers a transmission to `q`, or
goes to another host. -/
def Answers {T : Type} (peers : List Address) (s : UdpNetwork T) (q : Address) (d : UdpDatagram) :
    Prop :=
  (∃ e, Transmitted peers s e ∧ e.source = d.destination ∧ e.destination = q ∧
    e.origin = d.origin) ∨ Foreign peers d.destination

/-- What the datagrams of an undisturbed network go back to. -/
structure Traced (peers : List Address) (s : UdpNetwork L.arrow.Table) : Prop where
  arrived : ∀ q ∈ peers, ∀ d ∈ (s.receivers q).socket, d.destination = q ∧
    (Transmitted peers s d ∨ d.bytes = [0x31] ∨ Foreign peers d.source)
  acks : ∀ q ∈ peers, ∀ d ∈ (s.receivers q).acks, d.source = q ∧ d.bytes = [0x31] ∧
    Answers peers s q d
  running : ∀ a ∈ peers, ∀ c r, (s.senders a).running = some (c, r) →
    c.serverAddress = r.destination ∧ r.received = []
  transmitted : ∀ a ∈ peers, ∀ c r, (s.senders a).running = some (c, r) →
    ∀ d, Transmitted peers s d → d.source = ⟨a.ip, c.socket⟩ →
      d.destination = r.destination ∧ d.origin = some ⟨a, r.number⟩
  distinct : ∀ a ∈ peers, ∀ b ∈ peers, ∀ socket, callSocket a (s.senders a) = some socket →
    callSocket b (s.senders b) = some socket → a = b
  returned : ∀ a ∈ peers, ∀ r ∈ (s.senders a).returned,
    r.received = [] ∨ r.AckedByDestination a

theorem callSocket_of_running {x : SendSession L.arrow.Table} {c : SendingTo}
    {r : SendSession.CallRecord} (h : x.running = some (c, r)) :
    callSocket a x = some ⟨a.ip, c.socket⟩ := by
  rw [callSocket, h]
  rfl

/-! ### A sender moves -/

section Sender
variable {x : SendSession L.arrow.Table} {k : SendSessionLabel L.arrow.Table}

theorem Transmitted.mono (hs : SendSession.step L a (s.senders a) k = some x) {d : UdpDatagram}
    (h : Transmitted peers s d) : Transmitted peers (s.setSender a x) d := by
  obtain ⟨p, hp, hd⟩ := h
  refine ⟨p, hp, ?_⟩
  by_cases hpa : p = a
  · subst hpa
    rw [sender_self]
    exact SendSession.sent_subset hs hd
  · rwa [sender_ne s x hpa]

theorem Transmitted.of_setSender (hs : SendSession.step L a (s.senders a) k = some x)
    {d : UdpDatagram} (h : Transmitted peers (s.setSender a x) d) :
    Transmitted peers s d ∨
      ∃ c r, (s.senders a).running = some (c, r) ∧ d = SendSession.datagram a c r := by
  obtain ⟨p, hp, hd⟩ := h
  by_cases hpa : p = a
  · subst hpa
    rw [sender_self] at hd
    exact (SendSession.sent_of_step hs hd).imp (fun hd => ⟨p, hp, hd⟩) id
  · rw [sender_ne s x hpa] at hd
    exact .inl ⟨p, hp, hd⟩

theorem Answers.mono (hs : SendSession.step L a (s.senders a) k = some x) {q : Address}
    {d : UdpDatagram} (h : Answers peers s q d) : Answers peers (s.setSender a x) q d :=
  h.imp (fun ⟨e, he, hrest⟩ => ⟨e, he.mono hs, hrest⟩) id

/-- The step answers the running call with an acknowledgement of its destination, if at all. -/
def AnswersCall (a : Address) (x : SendSession L.arrow.Table)
    (k : SendSessionLabel L.arrow.Table) : Prop :=
  ∀ d stale, k = .answer d stale → d.bytes = [0x31] ∧ ∀ c r, x.running = some (c, r) →
    d.source = r.destination ∧ d.origin = some ⟨a, r.number⟩

/-- A call of the sender after its step: just begun at a fresh socket, or the one before. -/
theorem running_cases (hs : SendSession.step L a (s.senders a) k = some x)
    (hanswer : AnswersCall a (s.senders a) k)
    (hfresh : ∀ port, k = .take (some port) → Fresh peers s ⟨a.ip, port⟩) {c' : SendingTo}
    {r' : SendSession.CallRecord} (hrun : x.running = some (c', r')) :
    (Fresh peers s ⟨a.ip, c'.socket⟩ ∧ c'.serverAddress = r'.destination ∧ r'.received = []) ∨
      ∃ c r, (s.senders a).running = some (c, r) ∧ SendSession.SameCall c c' r r' := by
  rcases SendSession.running_of_step hs (fun d stale hd => (hanswer d stale hd).1) hrun with
    ⟨hk, haddress, hreceived⟩ | hsame
  · exact .inl ⟨hfresh _ hk, haddress, hreceived⟩
  · exact .inr hsame

theorem callSocket_cases (hs : SendSession.step L a (s.senders a) k = some x)
    (hanswer : AnswersCall a (s.senders a) k)
    (hfresh : ∀ port, k = .take (some port) → Fresh peers s ⟨a.ip, port⟩) {b socket : Address}
    (h : callSocket b ((s.setSender a x).senders b) = some socket) :
    callSocket b (s.senders b) = some socket ∨ b = a ∧ Fresh peers s socket := by
  by_cases hb : b = a
  · subst hb
    rw [sender_self] at h
    obtain ⟨⟨c', r'⟩, hrun, rfl⟩ := Option.map_eq_some_iff.mp h
    rcases running_cases hs hanswer hfresh hrun with ⟨hnew, -, -⟩ | ⟨c, r, hold, hsame⟩
    · exact .inr ⟨rfl, hnew⟩
    · refine .inl ?_
      rw [callSocket_of_running hold, hsame.socket]
  · rw [sender_ne s x hb] at h
    exact .inl h

theorem Traced.returned_sender (h : Traced peers s) (ha : a ∈ peers)
    (hs : SendSession.step L a (s.senders a) k = some x)
    (hanswer : AnswersCall a (s.senders a) k) (r' : SendSession.CallRecord)
    (hr : r' ∈ x.returned) : r'.received = [] ∨ r'.AckedByDestination a := by
  rcases SendSession.returned_of_step hs hr with hr | ⟨c, r, result, received, hpc, hw, rfl⟩
  · exact h.returned a ha r' hr
  · have hrun := SendSession.running_of_waiting hpc
    have hnone := (h.running a ha c r hrun).2
    dsimp only
    rw [hnone, List.nil_append]
    cases hw with
    | timeout => exact .inl rfl
    | error => exact .inl rfl
    | answer d stale =>
      obtain ⟨hbytes, hcall⟩ := hanswer d stale rfl
      refine .inr ⟨d, List.mem_singleton_self d, ?_, hcall c r hrun⟩
      rw [SendSession.Acknowledges, hbytes]
      rfl

theorem Traced.transmitted_sender (h : Traced peers s) (ha : a ∈ peers)
    (hs : SendSession.step L a (s.senders a) k = some x)
    (hanswer : AnswersCall a (s.senders a) k)
    (hfresh : ∀ port, k = .take (some port) → Fresh peers s ⟨a.ip, port⟩) {b : Address}
    (hb : b ∈ peers) {c' : SendingTo} {r' : SendSession.CallRecord}
    (hrun : ((s.setSender a x).senders b).running = some (c', r')) {d : UdpDatagram}
    (hd : Transmitted peers (s.setSender a x) d) (hsource : d.source = ⟨b.ip, c'.socket⟩) :
    d.destination = r'.destination ∧ d.origin = some ⟨b, r'.number⟩ := by
  by_cases hba : b = a
  · subst hba
    rw [sender_self] at hrun
    rcases running_cases hs hanswer hfresh hrun with ⟨hnew, -, -⟩ | ⟨c, r, hold, hsame⟩
    · -- nothing comes from a fresh socket
      rcases hd.of_setSender hs with ⟨p, hp, hd⟩ | ⟨c, r, hold, rfl⟩
      · exact absurd hsource ((hnew p hp).2 d hd)
      · exact absurd ((callSocket_of_running hold).trans (congrArg some hsource)) (hnew b hb).1
    · rw [hsame.destination, hsame.number]
      rcases hd.of_setSender hs with hd | ⟨c₀, r₀, hold', rfl⟩
      · exact h.transmitted b hb c r hold d hd (by rw [hsource, hsame.socket])
      · obtain ⟨rfl, rfl⟩ := Prod.mk.inj (Option.some.inj (hold'.symm.trans hold))
        exact ⟨(h.running b hb c₀ r₀ hold).1, rfl⟩
  · rw [sender_ne s x hba] at hrun
    rcases hd.of_setSender hs with hd | ⟨c, r, hold, rfl⟩
    · exact h.transmitted b hb c' r' hrun d hd hsource
    · -- two calls that run have two sockets
      exact absurd (h.distinct b hb a ha _ (callSocket_of_running hrun)
        ((callSocket_of_running hold).trans (congrArg some hsource))) hba

theorem Traced.distinct_sender (h : Traced peers s)
    (hs : SendSession.step L a (s.senders a) k = some x)
    (hanswer : AnswersCall a (s.senders a) k)
    (hfresh : ∀ port, k = .take (some port) → Fresh peers s ⟨a.ip, port⟩) {b₁ b₂ : Address}
    (hb₁ : b₁ ∈ peers) (hb₂ : b₂ ∈ peers) {socket : Address}
    (h₁ : callSocket b₁ ((s.setSender a x).senders b₁) = some socket)
    (h₂ : callSocket b₂ ((s.setSender a x).senders b₂) = some socket) : b₁ = b₂ := by
  rcases callSocket_cases hs hanswer hfresh h₁ with hold₁ | ⟨ha₁, hnew⟩
  · rcases callSocket_cases hs hanswer hfresh h₂ with hold₂ | ⟨-, hnew⟩
    · exact h.distinct b₁ hb₁ b₂ hb₂ socket hold₁ hold₂
    · exact absurd hold₁ (hnew b₁ hb₁).1
  · rcases callSocket_cases hs hanswer hfresh h₂ with hold₂ | ⟨ha₂, -⟩
    · exact absurd hold₂ (hnew b₂ hb₂).1
    · rw [ha₁, ha₂]

theorem Traced.sender (h : Traced peers s) (ha : a ∈ peers)
    (hs : SendSession.step L a (s.senders a) k = some x)
    (hanswer : AnswersCall a (s.senders a) k)
    (hfresh : ∀ port, k = .take (some port) → Fresh peers s ⟨a.ip, port⟩) :
    Traced peers (s.setSender a x) where
  arrived := by
    intro q hq d hd
    obtain ⟨hdest, hfrom⟩ := h.arrived q hq d hd
    exact ⟨hdest, hfrom.imp (Transmitted.mono hs) id⟩
  acks := by
    intro q hq d hd
    obtain ⟨hsource, hbytes, hanswers⟩ := h.acks q hq d hd
    exact ⟨hsource, hbytes, hanswers.mono hs⟩
  running := by
    intro b hb c' r' hrun
    by_cases hba : b = a
    · subst hba
      rw [sender_self] at hrun
      rcases running_cases hs hanswer hfresh hrun with ⟨-, hnew⟩ | ⟨c, r, hold, hsame⟩
      · exact hnew
      · rw [hsame.serverAddress, hsame.destination, hsame.received]
        exact h.running b hb c r hold
    · rw [sender_ne s x hba] at hrun
      exact h.running b hb c' r' hrun
  transmitted := fun _ hb _ _ hrun _ hd hsource =>
    h.transmitted_sender ha hs hanswer hfresh hb hrun hd hsource
  distinct := fun _ hb₁ _ hb₂ _ h₁ h₂ => h.distinct_sender hs hanswer hfresh hb₁ hb₂ h₁ h₂
  returned := by
    intro b hb r hr
    by_cases hba : b = a
    · subst hba
      rw [sender_self] at hr
      exact h.returned_sender hb hs hanswer r hr
    · rw [sender_ne s x hba] at hr
      exact h.returned b hb r hr

end Sender

/-! ### A receiver moves -/

section Receiver
variable {y : ReceiveSession L.arrow.Table} {k : ReceiveLabel}

theorem Traced.receiver (h : Traced peers s) (ha : a ∈ peers)
    (hs : ReceiveSession.step L a (s.receivers a) k = some y)
    (harrives : ∀ d, k = .arrive d → d.destination = a ∧
      (Transmitted peers s d ∨ d.bytes = [0x31] ∨ Foreign peers d.source)) :
    Traced peers (s.setReceiver a y) where
  arrived := by
    intro q hq d hd
    by_cases hqa : q = a
    · subst hqa
      rw [receiver_self] at hd
      rcases ReceiveSession.socket_of_step hs hd with hd | hk
      · exact h.arrived q hq d hd
      · exact harrives d hk
    · rw [receiver_ne s y hqa] at hd
      exact h.arrived q hq d hd
  acks := by
    intro q hq d hd
    by_cases hqa : q = a
    · subst hqa
      rw [receiver_self] at hd
      rcases ReceiveSession.acks_of_step hs hd with hd | ⟨e, he, hprefix, rfl⟩
      · exact h.acks q hq d hd
      · obtain ⟨hdest, hfrom⟩ := h.arrived q hq e he
        refine ⟨rfl, rfl, ?_⟩
        rcases hfrom with hsent | hbytes | hforeign
        · exact .inl ⟨e, hsent, rfl, hdest, rfl⟩
        · exact absurd hbytes hprefix
        · exact .inr hforeign
    · rw [receiver_ne s y hqa] at hd
      exact h.acks q hq d hd
  running := h.running
  transmitted := h.transmitted
  distinct := h.distinct
  returned := h.returned

end Receiver

/-! ### The network moves -/

theorem Traced.init : Traced peers ({} : UdpNetwork L.arrow.Table) where
  arrived := fun _ _ _ hd => absurd hd List.not_mem_nil
  acks := fun _ _ _ hd => absurd hd List.not_mem_nil
  running := fun _ _ _ _ hrun => nomatch hrun
  transmitted := fun _ _ _ _ hrun => nomatch hrun
  distinct := fun _ _ _ _ _ hsocket => nomatch hsocket
  returned := fun _ _ _ hr => absurd hr List.not_mem_nil

/-- What reaches a server socket. -/
theorem Traced.fetched (h : Traced peers s) {o : Provenance} {d : UdpDatagram}
    (hd : s.fetch peers o = some d) (hok : Undisturbed peers s (.toServer o)) :
    Transmitted peers s d ∨ d.bytes = [0x31] ∨ Foreign peers d.source := by
  cases o with
  | transmission p k =>
    simp only [fetch] at hd
    split at hd
    · rename_i hp
      exact .inl ⟨p, hp, List.mem_of_getElem? hd⟩
    · cases hd
  | acknowledgement p k =>
    simp only [fetch] at hd
    split at hd
    · rename_i hp
      exact .inr (.inl (h.acks p hp d (List.mem_of_getElem? hd)).2.1)
    · cases hd
  | thirdParty d' =>
    simp only [fetch] at hd
    split at hd
    · cases hd
      exact .inr (.inr hok)
    · cases hd

/-- What reaches the temporary socket of a running call. -/
theorem Traced.fetched_call (h : Traced peers s) {o : Provenance} {d : UdpDatagram} {stale : UInt8}
    (ha : a ∈ peers) (hd : s.fetch peers o = some d) (hok : Undisturbed peers s (.toCall o a stale))
    (hsocket : callSocket a (s.senders a) = some d.destination) :
    AnswersCall a (s.senders a) (.answer d stale) := by
  intro d' stale' hd'
  cases hd'
  cases o with
  | transmission p k => exact absurd hok id
  | thirdParty d' => exact absurd hok id
  | acknowledgement p k =>
    simp only [fetch] at hd
    split at hd
    · rename_i hp
      obtain ⟨hsource, hbytes, hanswers⟩ := h.acks p hp d (List.mem_of_getElem? hd)
      refine ⟨hbytes, fun c r hrun => ?_⟩
      rw [callSocket_of_running hrun] at hsocket
      have hdest := Option.some.inj hsocket
      rcases hanswers with ⟨e, he, hsrc, hdst, horigin⟩ | hforeign
      · obtain ⟨htarget, hcall⟩ := h.transmitted a ha c r hrun e he (hsrc.trans hdest.symm)
        exact ⟨by rw [hsource, ← hdst, htarget], by rw [← horigin, hcall]⟩
      · -- the temporary socket is on this peer's host
        exact absurd (congrArg Address.ip hdest) (hforeign a ha)
    · cases hd

theorem Traced.step (h : Traced peers s) (hok : Undisturbed peers s l)
    (hs : step L peers s l = some t) : Traced peers t := by
  cases moves_of_step hs with
  | send a k x ha hk hx =>
    refine h.sender ha hx (fun d stale hd => absurd hd (hk d stale)) (fun port hport => ?_)
    subst hport
    exact hok
  | answer o a stale d x ha hd hsocket hx =>
    exact h.sender ha hx (h.fetched_call ha hd hok hsocket) nofun
  | receive a k y ha hk hy => exact h.receiver ha hy (fun d hd => absurd hd (hk d))
  | arrive o d y ha hd hy =>
    refine h.receiver ha hy (fun d' hd' => ?_)
    cases hd'
    exact ⟨rfl, h.fetched hd hok⟩
  | disconnect a x y ha hx hy => exact (h.sender ha hx nofun nofun).receiver ha hy nofun

/-- The calls of every peer, one by one. -/
theorem calls_step (h : ∀ a, SendSession.CallInvariant (s.senders a))
    (hs : step L peers s l = some t) (a : Address) : SendSession.CallInvariant (t.senders a) := by
  cases moves_of_step hs with
  | send b k x hb hk hx => exact forall_setSender h ((h b).step hx) a
  | answer o b stale d x hb hd hsocket hx => exact forall_setSender h ((h b).step hx) a
  | receive b k y hb hk hy => exact h a
  | arrive o d y hb hd hy => exact h a
  | disconnect b x y hb hx hy => exact forall_setSender h ((h b).step hx) a

/-- Every call that returned ended with a '1', with an empty datagram, or after
its tenth transmission. -/
def CallsEnded {T : Type} (s : UdpNetwork T) : Prop :=
  ∀ a, ∀ r ∈ (s.senders a).returned, r.Ended

/-- Every call that returned was acknowledged by its destination, or gave up. -/
def CallsAcknowledged {T : Type} (peers : List Address) (s : UdpNetwork T) : Prop :=
  ∀ a ∈ peers, ∀ r ∈ (s.senders a).returned,
    r.AckedByDestination a ∨ r.sentTo.length = 10 ∧ r.received = []

/-- **What a return tells**: in every run of the network a call returns for a
datagram that starts with '1' or is empty, or after ten transmissions without
a '1'. In an undisturbed run that datagram is its destination's acknowledgement of this
call, and a call that gave up has received nothing. -/
theorem acknowledged_or_exhausted (L : Libraries) (peers : List Address)
    (ls : List (NetworkLabel L.arrow.Table)) :
    Throughout (step L peers) CallsEnded {} ls ∧
      (Along (step L peers) (Undisturbed peers) {} ls →
        Throughout (step L peers) (CallsAcknowledged peers) {} ls) := by
  have hcalls : ∀ a, SendSession.CallInvariant (({} : UdpNetwork L.arrow.Table).senders a) :=
    fun _ => .init
  have hany : Along (step L peers) (fun _ _ => True) {} ls := .of_forall (fun _ _ => trivial) _ _
  refine ⟨?_, fun hok => ?_⟩
  · exact hany.throughout (I := fun s => ∀ a, SendSession.CallInvariant (s.senders a))
      (fun h a => (h a).returned) (fun h _ hs => calls_step h hs) hcalls
  · refine Along.throughout
      (I := fun s => (∀ a, SendSession.CallInvariant (s.senders a)) ∧ Traced peers s) ?_
      (fun h hok hs => ⟨calls_step h.1 hs, h.2.step hok hs⟩) ⟨hcalls, .init⟩ hok
    intro s ⟨hcalls, htraced⟩ a ha r hr
    rcases htraced.returned a ha r hr with hnone | hacked
    · rcases (hcalls a).returned r hr with ⟨d, hd, -⟩ | ⟨hten, -⟩
      · rw [hnone] at hd
        cases hd
      · exact .inr ⟨hten, hnone⟩
    · exact .inl hacked

instance (peers : List Address) (source : Address) : Decidable (Foreign peers source) :=
  inferInstanceAs (Decidable (∀ p ∈ peers, _))

instance {T : Type} (peers : List Address) (s : UdpNetwork T) (socket : Address) :
    Decidable (Fresh peers s socket) :=
  inferInstanceAs (Decidable (∀ p ∈ peers, _ ∧ ∀ d ∈ (s.senders p).sent, _))

instance {T : Type} (peers : List Address) (s : UdpNetwork T) :
    (l : NetworkLabel T) → Decidable (Undisturbed peers s l)
  | .send a (.take (some port)) => inferInstanceAs (Decidable (Fresh peers s ⟨a.ip, port⟩))
  | .toServer (.thirdParty d) => inferInstanceAs (Decidable (Foreign peers d.source))
  | .toCall (.transmission _ _) _ _ | .toCall (.thirdParty _) _ _ =>
    inferInstanceAs (Decidable False)
  | .send _ (.take none) | .send _ (.sendPacket _) | .send _ .loopTest | .send _ .sendto
  | .send _ .timeout | .send _ .waitError | .send _ (.answer _ _) | .send _ .disconnect
  | .receive _ _ | .disconnect _ | .toServer (.transmission _ _)
  | .toServer (.acknowledgement _ _) | .toCall (.acknowledgement _ _) _ _ =>
    inferInstanceAs (Decidable True)

/-- The first transmission is lost, the second one acknowledged. -/
theorem acknowledged_second_transmission :
    Throughout (step Reference.libraries [⟨.quad 10 0 0 1, 9000⟩, ⟨.quad 10 0 0 2, 9000⟩])
      (CallsAcknowledged [⟨.quad 10 0 0 1, 9000⟩, ⟨.quad 10 0 0 2, 9000⟩]) {}
      [.send ⟨.quad 10 0 0 1, 9000⟩ (.sendPacket
          ⟨⟨.quad 10 0 0 2, 9000⟩, { id := 5, payload := .ls { directory := [0x2F] } }⟩),
        .send ⟨.quad 10 0 0 1, 9000⟩ .loopTest, .send ⟨.quad 10 0 0 1, 9000⟩ (.take (some 40000)),
        .send ⟨.quad 10 0 0 1, 9000⟩ .sendto, .send ⟨.quad 10 0 0 1, 9000⟩ .timeout,
        .send ⟨.quad 10 0 0 1, 9000⟩ .sendto, .toServer (.transmission ⟨.quad 10 0 0 1, 9000⟩ 1),
        .receive ⟨.quad 10 0 0 2, 9000⟩ .loopTest, .receive ⟨.quad 10 0 0 2, 9000⟩ (.epollWait true),
        .receive ⟨.quad 10 0 0 2, 9000⟩ (.receivePacketFrom true true),
        .toCall (.acknowledgement ⟨.quad 10 0 0 2, 9000⟩ 0) ⟨.quad 10 0 0 1, 9000⟩ 0] :=
  (acknowledged_or_exhausted Reference.libraries _ _).2 (by decide)

/-- **A return without an acknowledgement**: after ten transmissions that
nobody answers, for a "1" of a third party, and for an empty datagram where
a '1' stands in the buffer. -/
theorem unacknowledged_return :
    let peers : List Address := [⟨.quad 10 0 0 1, 9000⟩]
    let start : List (NetworkLabel Reference.libraries.arrow.Table) :=
      [.send ⟨.quad 10 0 0 1, 9000⟩ (.sendPacket
          ⟨⟨.quad 10 0 0 2, 9000⟩, { id := 5, payload := .ls { directory := [0x2F] } }⟩),
        .send ⟨.quad 10 0 0 1, 9000⟩ .loopTest, .send ⟨.quad 10 0 0 1, 9000⟩ (.take (some 40000))]
    let timeouts := (List.replicate 10
      [.send ⟨.quad 10 0 0 1, 9000⟩ .sendto, .send ⟨.quad 10 0 0 1, 9000⟩ .timeout]).flatten
    let stray (bytes : Bytes) := [.send ⟨.quad 10 0 0 1, 9000⟩ .sendto,
      .toCall (.thirdParty ⟨⟨.quad 10 0 0 3, 80⟩, ⟨.quad 10 0 0 1, 40000⟩, bytes, none⟩)
        ⟨.quad 10 0 0 1, 9000⟩ 0x31]
    ∀ ls ∈ [start ++ timeouts, start ++ stray [0x31], start ++ stray []],
      ¬ Throughout (step Reference.libraries peers)
        (fun s => ∀ a ∈ peers, ∀ r ∈ (s.senders a).returned, r.AckedByDestination a) {} ls := by
  intro peers start timeouts stray ls hls h
  obtain ⟨t, hrun, r, hr, hreceived⟩ : ∃ t, run (step Reference.libraries peers) {} ls = some t ∧
      ∃ r ∈ (t.senders ⟨.quad 10 0 0 1, 9000⟩).returned, ∀ d ∈ r.received, d.origin = none := by
    simp only [List.mem_cons, List.not_mem_nil, or_false] at hls
    rcases hls with rfl | rfl | rfl
    · exact ⟨_, rfl, _, List.mem_singleton_self _, by decide⟩
    · exact ⟨_, rfl, _, List.mem_singleton_self _, by decide⟩
    · exact ⟨_, rfl, _, List.mem_singleton_self _, by decide⟩
  obtain ⟨d, hd, -, -, horigin⟩ := h.last hrun ⟨.quad 10 0 0 1, 9000⟩ (List.mem_singleton_self _) r hr
  rw [hreceived d hd] at horigin
  cases horigin

end UdpNetwork
end Ttp2
