import Ttp2.UdpDelivery

/-! # Exactly once, while the attempts last

A call of `sendMessageTo` that was acknowledged has delivered its packet; one
that has used up its ten attempts returns in the same way, and nobody is told.
Where a wait times out only after a loss, these are the only packets missing:
the receiver gets what was queued, in order and each once, exactly if no call
runs out of attempts (`exactly_once_iff`). -/
namespace Ttp2
open Lib Lts Subsequence

namespace UdpLink
variable {L : Libraries} {b : Address} {s t : UdpLink L.arrow.Table} {l : LinkLabel L.arrow.Table}

/-- A wait that times out is not the last one of its call. -/
def AttemptsLeft {T : Type} (s : UdpLink T) : LinkLabel T → Prop
  | .timeout =>
    match s.sender with
    | .waiting c => 1 < c.maxResendCount
    | _ => True
  | _ => True

instance {T : Type} (s : UdpLink T) : (l : LinkLabel T) → Decidable (AttemptsLeft s l)
  | .timeout =>
    match h : s.sender with
    | .waiting c => decidable_of_iff (1 < c.maxResendCount) (by simp only [AttemptsLeft, h])
    | .loopTest | .polling | .sendto _ | .finished | .terminated =>
      isTrue (by simp only [AttemptsLeft, h])
  | .sendPacket _ | .sendTest | .take _ | .sendto | .waitError | .acknowledge _ | .loseData _
  | .loseAck _ | .arrive _ | .receiveTest | .epollWait _ | .read | .readError | .disconnectSender
  | .disconnectReceiver => inferInstanceAs (Decidable True)

/-- In `sendSession`, with every call of `sendMessageTo` returned. -/
def Returned : PeerSenderPc → Prop
  | .loopTest | .polling | .finished => True
  | _ => False

/-- The packet of every call that returned was received. -/
structure Delivers {T : Type} (s : UdpLink T) : Prop where
  earlier : ∀ i, i + 1 < s.called.length → ∃ e ∈ s.delivered, e.call = i
  returned : Returned s.sender → ∀ i < s.called.length, ∃ e ∈ s.delivered, e.call = i

theorem Delivers.init {T : Type} : Delivers ({} : UdpLink T) where
  earlier := fun _ h => absurd h (Nat.not_lt_zero _)
  returned := fun _ _ h => absurd h (Nat.not_lt_zero _)

/-- A step that begins no call and ends none. -/
theorem Delivers.of_same {T : Type} {s t : UdpLink T} (h : Delivers s)
    (hcalled : t.called = s.called) (hdelivered : s.delivered ⊆ t.delivered)
    (hsender : Returned t.sender → Returned s.sender) : Delivers t where
  earlier := by
    rw [hcalled]
    intro i hi
    obtain ⟨e, he, hcall⟩ := h.earlier i hi
    exact ⟨e, hdelivered he, hcall⟩
  returned := by
    rw [hcalled]
    intro hr i hi
    obtain ⟨e, he, hcall⟩ := h.returned (hsender hr) i hi
    exact ⟨e, hdelivered he, hcall⟩

theorem returned_of_idle {pc : PeerSenderPc} (h : Idle pc) : Returned pc := by
  cases pc <;> trivial

/-- The last wait that times out ends its call. -/
theorem timeout_cases {c : SendingTo} (hsnd : s.sender = .waiting c)
    (hs : step L b s .timeout = some t) :
    if 1 < c.maxResendCount then ¬ Returned t.sender else t = { s with sender := .loopTest } := by
  simp only [step, hsnd, waited, SendingTo.waited, Option.some.injEq] at hs
  subst hs
  unfold SendingTo.retry
  split
  · exact id
  · rfl

theorem Delivers.step (h : Delivers s) (hstep : InStep s) (hok : AttemptsLeft s l)
    (hs : UdpLink.step L b s l = some t) : Delivers t := by
  cases moves_of_step hs with
  | outside l pc hidle hpc =>
    exact h.of_same rfl (List.Subset.refl _) fun _ => returned_of_idle hidle
  | take socket packet rest encodedPacket pc hsnd hq he hpc =>
    refine ⟨?_, ?_⟩
    · intro i hi
      have hlength : i + 1 < (s.called ++ [encodedPacket]).length := hi
      rw [List.length_append, List.length_singleton] at hlength
      exact h.returned (by rw [hsnd]; trivial) i (Nat.lt_of_succ_lt_succ hlength)
    · rcases hpc with rfl | ⟨port, rfl⟩
      · exact fun hr => absurd hr id
      · exact fun hr => absurd hr id
  | reject socket packet rest e hsnd hq he =>
    exact h.of_same rfl (List.Subset.refl _) fun hr => absurd hr id
  | sendto c hsnd => exact h.of_same rfl (List.Subset.refl _) fun hr => absurd hr id
  | retry c c' hsnd hbuf hmax => exact h.of_same rfl (List.Subset.refl _) fun hr => absurd hr id
  | giveUp c hsnd =>
    have hleft : 1 < c.maxResendCount := by
      simp only [AttemptsLeft, hsnd] at hok
      exact hok
    have hcases := timeout_cases hsnd hs
    rw [if_pos hleft] at hcases
    exact absurd trivial hcases
  | waitError c hsnd => exact h.of_same rfl (List.Subset.refl _) fun hr => absurd hr id
  | acknowledge k c ack hsnd hk hport =>
    -- what was acknowledged is the running call
    cases hstep.onWay with
    | nothing hd ha =>
      rw [ha] at hk
      cases hk
    | datagram d hd ha hc hn =>
      rw [ha] at hk
      cases hk
    | ack a e hd ha he hc =>
      refine ⟨h.earlier, fun _ i hi => ?_⟩
      by_cases hlast : i + 1 < s.called.length
      · exact h.earlier i hlast
      · have hi' : i < s.called.length := hi
        exact ⟨e, he, by omega⟩
  | read d rest packet hq hd => exact h.of_same rfl (List.subset_append_left _ _) id
  | _ => exact h.of_same rfl (List.Subset.refl _) id

/-! ## What was received -/

/-- **Exactly once**: the receiver has the first packets queued, in order and
each once, and misses at most the one that is being sent. -/
structure ExactlyOnce (L : Libraries) (s : UdpLink L.arrow.Table) : Prop where
  order : s.fromPeer.map Except.ok <+: carried L s.queued
  latest : (carried L s.taken).length ≤ s.fromPeer.length + 1
  returned : Returned s.sender → s.fromPeer.map Except.ok = carried L s.taken
  rests : Returned s.sender → s.sendQueue = [] → s.fromPeer.map Except.ok = carried L s.queued

/-- Of every packet of a call there is a frame. -/
theorem Traced.length_carried (h : Traced L s) : (carried L s.taken).length = s.called.length := by
  rw [carried_eq, List.length_map, h.called]

theorem Traced.carried_prefix (h : Traced L s) : carried L s.taken <+: carried L s.queued := by
  rw [carried_eq, carried_eq, h.queue]
  exact (encodings_append s.taken s.sendQueue).map _

/-- What was received of the first `n` calls, if it is all of them. -/
theorem received_first (htraced : Traced L s) (hstep : InStep s) {n : Nat}
    (hlt : ∀ e ∈ s.delivered, e.call < n) (hall : ∀ i < n, ∃ e ∈ s.delivered, e.call = i)
    (hn : n ≤ s.called.length) : s.fromPeer.map Except.ok = (carried L s.taken).take n := by
  have hfirst : (carried L s.taken).take n = (carried L s.queued).take n := by
    obtain ⟨rest, hrest⟩ := htraced.carried_prefix
    rw [← hrest, List.take_append_of_le_length (htraced.length_carried ▸ hn)]
  rw [htraced.entries, List.map_map, hfirst]
  exact map_eq_take_of_increasing hstep.increasing (fun e he => htraced.source he) hlt hall

theorem Delivers.exactlyOnce (h : Delivers s) (htraced : Traced L s) (hstep : InStep s) :
    ExactlyOnce L s := by
  have hlength := htraced.length_carried
  have hreturned : Returned s.sender → s.fromPeer.map Except.ok = carried L s.taken := by
    intro hr
    rw [received_first htraced hstep hstep.latest (h.returned hr) (Nat.le_refl _), ← hlength,
      List.take_length]
  -- the last call has delivered its packet, or is all that is missing
  obtain ⟨n, hn, hlast, hreceived⟩ : ∃ n, n ≤ s.called.length ∧ s.called.length ≤ n + 1 ∧
      s.fromPeer.map Except.ok = (carried L s.taken).take n := by
    by_cases hlatest : ∃ e ∈ s.delivered, e.call + 1 = s.called.length
    · refine ⟨_, Nat.le_refl _, Nat.le_succ _,
        received_first htraced hstep hstep.latest (fun i hi => ?_) (Nat.le_refl _)⟩
      by_cases hlast : i + 1 < s.called.length
      · exact h.earlier i hlast
      · obtain ⟨e, he, hcall⟩ := hlatest
        exact ⟨e, he, by omega⟩
    · refine ⟨_, Nat.sub_le _ 1, by omega, received_first htraced hstep (fun e he => ?_)
        (fun i hi => h.earlier i (by omega)) (Nat.sub_le _ 1)⟩
      have hlt := hstep.latest e he
      have hne : e.call + 1 ≠ s.called.length := fun hc => hlatest ⟨e, he, hc⟩
      omega
  refine ⟨?_, ?_, hreturned, ?_⟩
  · rw [hreceived]
    exact (List.take_prefix _ _).trans htraced.carried_prefix
  · have hcount := congrArg List.length hreceived
    rw [List.length_map, List.length_take, hlength] at hcount
    omega
  · intro hr hempty
    rw [hreturned hr, htraced.queue, hempty, List.append_nil]

/-- A call that gives up has lost its packet. -/
theorem not_exactlyOnce_of_giveUp (htraced : Traced L s) (hbudget : Budget s) (hstep : InStep s)
    (hloss : TimesOutOnLoss s l) (hgiven : ¬ AttemptsLeft s l)
    (hs : UdpLink.step L b s l = some t) : ¬ ExactlyOnce L t := by
  obtain ⟨c, rfl, hsnd, hlast⟩ :
      ∃ c, l = .timeout ∧ s.sender = .waiting c ∧ ¬ 1 < c.maxResendCount := by
    cases l with
    | timeout =>
      cases hsnd : s.sender with
      | waiting c =>
        simp only [AttemptsLeft, hsnd] at hgiven
        exact ⟨c, rfl, rfl, hgiven⟩
      | _ => exact absurd (by simp only [AttemptsLeft, hsnd]) hgiven
    | _ => exact absurd trivial hgiven
  have hcases := timeout_cases hsnd hs
  rw [if_neg hlast] at hcases
  subst hcases
  intro honce
  have hall := congrArg List.length (honce.returned trivial)
  have hreceived : s.delivered.length ≤ s.call :=
    length_le_of_increasing hstep.increasing (hstep.quiet hloss).2.2
  have hlt := call_lt (hbudget.waiting c hsnd).1
  change (s.fromPeer.map Except.ok).length = (carried L s.taken).length at hall
  rw [List.length_map, htraced.entries, List.length_map, htraced.length_carried] at hall
  omega

end UdpLink
end Ttp2
