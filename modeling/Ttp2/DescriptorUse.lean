import Ttp2.SessionController

/-! # System calls on a closed descriptor

The descriptor number may belong to another connection as soon as it is
closed. The session closes it in `disconnect` and in the hang-up branch, and
only `connected` stops the threads, tested before and not with the call. So
the close is the last call if it comes once, while no thread is between its
test and its call, and no thread sets out for a call after it
(`closed_last_iff`). The server's hang-up branch disconnects, the client's
does not and leaves a session that is connected over a closed descriptor
(`flag_agrees_iff`). -/
namespace Ttp2
open Lib Lts

namespace SessionController

/-- **The close is the last call**: at most one, and nothing after it. -/
def ClosedLast {T : Type} (s : SessionController T) : Prop := Call.close ∉ s.calls.dropLast

/-- The descriptor has not been closed, as far as the session can know. -/
def Usable {T : Type} (s : SessionController T) : Prop :=
  s.net.connected = true ∧ s.hungUp = false

/-- The receive thread goes on to a call: `recv`, or the `disconnect` of the
server's hang-up branch. -/
def receiverInCall {T : Type} : ReceiverPc T → Bool
  | .hangUp | .recv => true
  | _ => false

/-- A thread of the session is on its way into a call on the descriptor. -/
def inCall {T : Type} (s : SessionController T) : Bool :=
  receiverInCall s.receiver || s.sendLocked

/-- The send thread would take a packet that can be encoded. -/
def takesEncodable (L : Libraries) (role : Role) (s : SessionController L.arrow.Table) : Bool :=
  match s.net.queue role.sends with
  | [] => false
  | packet :: _ => (Encode.encode L packet.payload (assignId s.net.autoId packet.id).1).isOk

/-- A close comes once, at a time when no other thread is on its way into a
call: a client's hang-up, `recv` returning 0 or a disconnect. After it no
thread sets out for another: `receiveMessage` finds the session disconnected
and the send thread takes no packet that can be encoded. -/
def ClosesApart (L : Libraries) (role : Role) (s : SessionController L.arrow.Table) :
    SessionLabel L.arrow.Table → Prop
  | .epollWait (.event _ true) => role = .client ∧ s.Usable ∧ s.sendLocked = false
  | .recv .closed => s.sendLocked = false
  | .disconnect => s.Usable ∧ s.inCall = false
  | .recvTest => s.hungUp = true → s.net.connected = false
  | .take => s.Usable ∨ s.takesEncodable L role = false
  | _ => True

instance {T : Type} (s : SessionController T) : Decidable s.Usable :=
  inferInstanceAs (Decidable (_ ∧ _))

instance (L : Libraries) (role : Role) (s : SessionController L.arrow.Table) :
    (l : SessionLabel L.arrow.Table) → Decidable (ClosesApart L role s l)
  | .epollWait (.event _ true) => inferInstanceAs (Decidable (_ ∧ _ ∧ _))
  | .recv .closed => inferInstanceAs (Decidable (s.sendLocked = false))
  | .disconnect => inferInstanceAs (Decidable (_ ∧ _))
  | .recvTest => inferInstanceAs (Decidable (s.hungUp = true → s.net.connected = false))
  | .take => inferInstanceAs (Decidable (_ ∨ _))
  | .arrive _ | .fin | .loopTest | .epollWait (.event _ false) | .epollWait (.error _)
  | .epollWait .timeout | .hangUpDisconnect | .recv (.bytes _) | .recv .again | .recv .error
  | .cutFrame | .dispatch | .sendTest | .send _ | .push _ | .pop =>
    inferInstanceAs (Decidable True)

/-- What happens to a queue leaves the descriptor as it is. -/
theorem usable_setQueue {T : Type} (s : SessionController T) (q : Queue) (ps : List (Packet T)) :
    ((s.net.setQueue q ps).connected = true ∧ s.hungUp = false) ↔ s.Usable := by
  rw [TcpNetworking.connected_setQueue]
  rfl

/-! ## The calls tell whether the descriptor is closed -/

def Recorded {T : Type} (s : SessionController T) : Prop := Call.close ∈ s.calls ↔ ¬ s.Usable

variable {L : Libraries} {role : Role} {socket : Int} {s t : SessionController L.arrow.Table}
  {l : SessionLabel L.arrow.Table}

theorem inCall_of_sender_eq (hr : receiverInCall s.receiver = false)
    (hsender : t.sender = s.sender) (h : s.inCall = true) : t.inCall = true := by
  rw [inCall, hr, Bool.false_or] at h
  rw [inCall, sendLocked, hsender, ← sendLocked, h, Bool.or_true]

theorem inCall_of_receiver_eq (hlocked : s.sendLocked = false)
    (hr : t.receiver = s.receiver) (h : s.inCall = true) : t.inCall = true := by
  rw [inCall, hlocked, Bool.or_false] at h
  rw [inCall, hr, h, Bool.true_or]

/-- A step makes calls; or it makes none, and leaves the descriptor and
whoever is on the way into a call as they are. -/
theorem Moves.calls (hs : Moves L role socket s l t) :
    (∃ cs c, t.calls = s.calls ++ (cs ++ [c])) ∨
      t.calls = s.calls ∧ (t.Usable ↔ s.Usable) ∧ (s.inCall = true → t.inCall = true) := by
  cases hs with
  | hangUp readable hr => exact .inl ⟨[], .close, rfl⟩
  | hangUpDisconnect hr => exact .inl ⟨[], .close, rfl⟩
  | recvBytes temp hr => exact .inl ⟨[], .recv, rfl⟩
  | recvAgain hr => exact .inl ⟨[], .recv, rfl⟩
  | recvError hr => exact .inl ⟨[], .recv, rfl⟩
  | recvClosed hr => exact .inl ⟨[.recv], .close, List.append_assoc ..⟩
  | send result sending out next hsnd hsend => exact .inl ⟨[], .send, rfl⟩
  | disconnect => exact .inl ⟨[], .close, rfl⟩
  | arrive bytes hfin => exact .inr ⟨rfl, .rfl, id⟩
  | fin => exact .inr ⟨rfl, .rfl, id⟩
  | loopTest hr => exact .inr ⟨rfl, .rfl, inCall_of_sender_eq (by rw [hr]; rfl) rfl⟩
  | epollError interrupted pc hr hpc =>
    exact .inr ⟨rfl, .rfl, inCall_of_sender_eq (by rw [hr]; rfl) rfl⟩
  | timeout hr => exact .inr ⟨rfl, .rfl, inCall_of_sender_eq (by rw [hr]; rfl) rfl⟩
  | event readable hr => exact .inr ⟨rfl, .rfl, inCall_of_sender_eq (by rw [hr]; rfl) rfl⟩
  | recvTest hr => exact .inr ⟨rfl, .rfl, inCall_of_sender_eq (by rw [hr]; rfl) rfl⟩
  | cutNothing hr hcut => exact .inr ⟨rfl, .rfl, inCall_of_sender_eq (by rw [hr]; rfl) rfl⟩
  | cutBody body rest hr hcut =>
    exact .inr ⟨rfl, .rfl, inCall_of_sender_eq (by rw [hr]; rfl) rfl⟩
  | skip packet hr hid => exact .inr ⟨rfl, .rfl, inCall_of_sender_eq (by rw [hr]; rfl) rfl⟩
  | deliver packet hr hid =>
    exact .inr ⟨rfl, usable_setQueue s _ _, inCall_of_sender_eq (by rw [hr]; rfl) rfl⟩
  | sendTest hsnd =>
    exact .inr ⟨rfl, .rfl, inCall_of_receiver_eq (by rw [sendLocked, hsnd]) rfl⟩
  | takeUndefined hsnd hq hc =>
    exact .inr ⟨rfl, .rfl, inCall_of_receiver_eq (by rw [sendLocked, hsnd]) rfl⟩
  | take packet rest hsnd hq =>
    exact .inr ⟨rfl, usable_setQueue s _ _, inCall_of_receiver_eq (by rw [sendLocked, hsnd]) rfl⟩
  | push packet => exact .inr ⟨rfl, usable_setQueue s _ _, id⟩
  | pop packet rest hq => exact .inr ⟨rfl, usable_setQueue s _ _, id⟩

theorem Recorded.of_same (h : s.Recorded) (hcalls : t.calls = s.calls)
    (husable : t.Usable ↔ s.Usable) : t.Recorded := by
  rw [Recorded, hcalls, husable]
  exact h

/-- A call that is no close leaves the descriptor as it is. -/
theorem Recorded.call (h : s.Recorded) {c : Call} (hc : c ≠ .close)
    (hcalls : t.calls = s.calls ++ [c]) (husable : t.Usable ↔ s.Usable) : t.Recorded := by
  rw [Recorded, hcalls, List.mem_append, List.mem_singleton, or_iff_left hc.symm, husable]
  exact h

theorem Recorded.close {cs : List Call} (hcalls : t.calls = cs ++ [.close])
    (husable : ¬ t.Usable) : t.Recorded := by
  rw [Recorded, hcalls]
  exact iff_of_true (List.mem_append_right _ (List.mem_singleton_self _)) husable

theorem not_usable_of_disconnected (h : t.net.connected = false) : ¬ t.Usable := by
  rintro ⟨hconn, -⟩
  rw [h] at hconn
  cases hconn

theorem not_usable_of_hungUp (h : t.hungUp = true) : ¬ t.Usable := by
  rintro ⟨-, hup⟩
  rw [h] at hup
  cases hup

theorem Recorded.step (h : s.Recorded) (hs : Moves L role socket s l t) : t.Recorded := by
  cases hs with
  | hangUp readable hr => exact .close rfl (not_usable_of_hungUp rfl)
  | hangUpDisconnect hr => exact .close rfl (not_usable_of_disconnected rfl)
  | recvClosed hr => exact .close rfl (not_usable_of_disconnected rfl)
  | disconnect => exact .close rfl (not_usable_of_disconnected rfl)
  | recvBytes temp hr => exact h.call (c := .recv) nofun rfl .rfl
  | recvAgain hr => exact h.call (c := .recv) nofun rfl .rfl
  | recvError hr => exact h.call (c := .recv) nofun rfl .rfl
  | send result sending out next hsnd hsend => exact h.call (c := .send) nofun rfl .rfl
  | deliver packet hr hid => exact h.of_same rfl (usable_setQueue s _ _)
  | take packet rest hsnd hq => exact h.of_same rfl (usable_setQueue s _ _)
  | push packet => exact h.of_same rfl (usable_setQueue s _ _)
  | pop packet rest hq => exact h.of_same rfl (usable_setQueue s _ _)
  | _ => exact h.of_same rfl .rfl

/-- A call on a descriptor that was closed already is a call after the close. -/
theorem Recorded.call_closed (h : s.Recorded) (hbad : ¬ s.Usable) {cs : List Call} {c : Call}
    (hcalls : t.calls = s.calls ++ (cs ++ [c])) : ¬ t.ClosedLast := by
  unfold ClosedLast
  rw [hcalls, ← List.append_assoc, List.dropLast_concat, not_not]
  exact List.mem_append_left _ (h.mpr hbad)

/-! ## Closes apart from all other calls -/

/-- No thread is on its way into a call on a closed descriptor. -/
structure DescriptorInvariant {T : Type} (s : SessionController T) : Prop where
  recorded : s.Recorded
  last : s.ClosedLast
  calm : s.Usable ∨ s.inCall = false
  branch : s.receiver ≠ .hangUp

theorem Recorded.init {T : Type} : Recorded ({} : SessionController T) :=
  iff_of_false (by simp) (not_not_intro ⟨rfl, rfl⟩)

theorem DescriptorInvariant.init {T : Type} : DescriptorInvariant ({} : SessionController T) :=
  ⟨.init, by simp [ClosedLast], .inl ⟨rfl, rfl⟩, by simp⟩

/-- A call is made while the descriptor is open. -/
theorem ClosedLast.call (h : s.Recorded) (hopen : s.Usable) {c : Call}
    (hcalls : t.calls = s.calls ++ [c]) : t.ClosedLast := by
  unfold ClosedLast
  rw [hcalls, List.dropLast_concat]
  exact fun hmem => h.mp hmem hopen

/-- A thread that is on its way into a call finds the descriptor open. -/
theorem DescriptorInvariant.usable (h : DescriptorInvariant s) (hin : s.inCall = true) :
    s.Usable := by
  rcases h.calm with hopen | hfree
  · exact hopen
  · rw [hin] at hfree
    cases hfree

theorem inCall_of_recv (hr : s.receiver = .recv) : s.inCall = true := by
  rw [inCall, hr]
  rfl

theorem inCall_of_sending {sending : Sending} (hs : s.sender = .sending sending) :
    s.inCall = true := by
  rw [inCall, sendLocked, hs, Bool.or_true]

theorem inCall_eq_false (hr : receiverInCall t.receiver = false) (hlocked : t.sendLocked = false) :
    t.inCall = false := by
  rw [inCall, hr, hlocked]
  rfl

theorem inCall_false_of_sender (hr : receiverInCall t.receiver = false)
    (hsender : t.sender = s.sender) (h : s.inCall = false) : t.inCall = false := by
  refine inCall_eq_false hr ?_
  rw [sendLocked, hsender]
  exact (Bool.or_eq_false_iff.mp h).2

theorem inCall_false_of_receiver (hlocked : t.sendLocked = false)
    (hr : t.receiver = s.receiver) (h : s.inCall = false) : t.inCall = false := by
  refine inCall_eq_false ?_ hlocked
  rw [hr]
  exact (Bool.or_eq_false_iff.mp h).1

/-- The receive thread moves on without a call, and not on its way into one. -/
theorem DescriptorInvariant.receives (h : DescriptorInvariant s)
    (hs : Moves L role socket s l t) (hcalls : t.calls = s.calls) (husable : s.Usable → t.Usable)
    (hr : receiverInCall t.receiver = false) (hsender : t.sender = s.sender) :
    DescriptorInvariant t where
  recorded := h.recorded.step hs
  last := by
    unfold ClosedLast
    rw [hcalls]
    exact h.last
  calm := h.calm.imp husable (inCall_false_of_sender hr hsender)
  branch := by
    intro hbranch
    rw [hbranch] at hr
    cases hr

/-- Some other thread moves without a call; the send thread is not on its way
into one if it was not before, or the descriptor is open. -/
theorem DescriptorInvariant.others (h : DescriptorInvariant s)
    (hs : Moves L role socket s l t) (hcalls : t.calls = s.calls) (husable : s.Usable → t.Usable)
    (hr : t.receiver = s.receiver)
    (hlocked : s.Usable ∨ s.sendLocked = false → s.Usable ∨ t.sendLocked = false) :
    DescriptorInvariant t where
  recorded := h.recorded.step hs
  last := by
    unfold ClosedLast
    rw [hcalls]
    exact h.last
  calm := by
    rcases h.calm with hopen | hfree
    · exact .inl (husable hopen)
    · rcases hlocked (.inr (Bool.or_eq_false_iff.mp hfree).2) with hopen | hlocked
      · exact .inl (husable hopen)
      · exact .inr (inCall_false_of_receiver hlocked hr hfree)
  branch := by
    rw [hr]
    exact h.branch

/-- A call other than a close, by a thread that was on its way into it. -/
theorem DescriptorInvariant.calls (h : DescriptorInvariant s) (hs : Moves L role socket s l t)
    (hin : s.inCall = true) {c : Call} (hcalls : t.calls = s.calls ++ [c])
    (husable : s.Usable → t.Usable) (hbranch : t.receiver ≠ .hangUp) : DescriptorInvariant t where
  recorded := h.recorded.step hs
  last := .call h.recorded (h.usable hin) hcalls
  calm := .inl (husable (h.usable hin))
  branch := hbranch

/-- A close, with no thread on its way into another call. -/
theorem DescriptorInvariant.closes (h : DescriptorInvariant s) (hs : Moves L role socket s l t)
    (hopen : s.Usable) (hcalls : t.calls = s.calls ++ [.close])
    (hr : receiverInCall t.receiver = false) (hlocked : t.sendLocked = false) :
    DescriptorInvariant t where
  recorded := h.recorded.step hs
  last := .call h.recorded hopen hcalls
  calm := .inr (inCall_eq_false hr hlocked)
  branch := by
    intro hbranch
    rw [hbranch] at hr
    cases hr

theorem sendLocked_ofEncoded {e : Except Exception Bytes} (he : e.isOk = false) :
    ∀ x : SessionController L.arrow.Table, x.sender = .ofEncoded e → x.sendLocked = false := by
  intro x hx
  unfold sendLocked
  rw [hx]
  cases e with
  | ok buffer => cases he
  | error e => cases e <;> rfl

theorem DescriptorInvariant.step (h : DescriptorInvariant s) (hok : ClosesApart L role s l)
    (hs : Moves L role socket s l t) : DescriptorInvariant t := by
  have hmoves := hs
  cases hs with
  | hangUp readable hr =>
    obtain ⟨rfl, hopen, hlocked⟩ := hok
    exact h.closes hmoves hopen rfl rfl hlocked
  | hangUpDisconnect hr => exact absurd hr h.branch
  | recvBytes temp hr => exact h.calls hmoves (inCall_of_recv hr) rfl id (by simp)
  | recvAgain hr => exact h.calls hmoves (inCall_of_recv hr) rfl id (by simp)
  | recvError hr => exact h.calls hmoves (inCall_of_recv hr) rfl id (by simp)
  | recvClosed hr =>
    -- two calls: the `recv`, and the close of `disconnect`
    have hopen := h.usable (inCall_of_recv hr)
    have hmid : Recorded { s with calls := s.calls ++ [.recv] } :=
      h.recorded.call (c := .recv) nofun rfl .rfl
    exact ⟨h.recorded.step hmoves, .call hmid hopen rfl, .inr (inCall_eq_false rfl hok), by simp⟩
  | send result sending out next hsnd hsend =>
    exact h.calls hmoves (inCall_of_sending hsnd) rfl id h.branch
  | disconnect =>
    obtain ⟨hreceiver, hlocked⟩ := Bool.or_eq_false_iff.mp hok.2
    exact h.closes hmoves hok.1 rfl hreceiver hlocked
  | recvTest hr =>
    -- connected after the close is only a client that handled a hang-up
    refine ⟨h.recorded.step hmoves, h.last, ?_, ?_⟩
    · rcases h.calm with hopen | hfree
      · exact .inl hopen
      · by_cases hconn : s.net.connected = true
        · refine .inl ⟨hconn, Bool.eq_false_iff.mpr fun hup => ?_⟩
          rw [hok hup] at hconn
          cases hconn
        · refine .inr (inCall_false_of_sender (s := s) ?_ rfl hfree)
          rw [if_neg hconn]
          rfl
    · split <;> simp
  | take packet rest hsnd hq =>
    refine h.others hmoves rfl (usable_setQueue s _ _).mpr rfl fun _ => ?_
    refine hok.imp_right fun hrefused => ?_
    rw [takesEncodable, hq] at hrefused
    exact sendLocked_ofEncoded hrefused _ rfl
  | sendTest hsnd =>
    refine h.others hmoves rfl id rfl fun _ => .inr ?_
    unfold sendLocked
    split
    · rename_i hsending
      split at hsending <;> cases hsending
    · rfl
  | takeUndefined hsnd hq hc => exact h.others hmoves rfl id rfl fun _ => .inr rfl
  | arrive bytes hfin => exact h.others hmoves rfl id rfl id
  | fin => exact h.others hmoves rfl id rfl id
  | push packet => exact h.others hmoves rfl (usable_setQueue s _ _).mpr rfl id
  | pop packet rest hq => exact h.others hmoves rfl (usable_setQueue s _ _).mpr rfl id
  | loopTest hr => exact h.receives hmoves rfl id (by split <;> rfl) rfl
  | epollError interrupted pc hr hpc =>
    refine h.receives hmoves rfl id ?_ rfl
    rcases hpc with rfl | rfl
    · rfl
    · rfl
  | timeout hr => exact h.receives hmoves rfl id rfl rfl
  | event readable hr => exact h.receives hmoves rfl id (by split <;> rfl) rfl
  | cutNothing hr hcut => exact h.receives hmoves rfl id rfl rfl
  | cutBody body rest hr hcut => exact h.receives hmoves rfl id rfl rfl
  | skip packet hr hid => exact h.receives hmoves rfl id rfl rfl
  | deliver packet hr hid => exact h.receives hmoves rfl (usable_setQueue s _ _).mpr rfl rfl

/-- Under the condition a call is made while the descriptor is open. -/
theorem DescriptorInvariant.call_usable (h : DescriptorInvariant s)
    (hok : ClosesApart L role s l) (hs : Moves L role socket s l t)
    (hcalls : t.calls ≠ s.calls) : s.Usable := by
  cases hs with
  | hangUp readable hr => exact hok.2.1
  | hangUpDisconnect hr => exact absurd hr h.branch
  | recvBytes temp hr => exact h.usable (inCall_of_recv hr)
  | recvAgain hr => exact h.usable (inCall_of_recv hr)
  | recvError hr => exact h.usable (inCall_of_recv hr)
  | recvClosed hr => exact h.usable (inCall_of_recv hr)
  | send result sending out next hsnd hsend =>
    exact h.usable (inCall_of_sending hsnd)
  | disconnect => exact hok.1
  | _ => exact absurd rfl hcalls

/-! ## Runs that break the condition -/

/-- A call was made after the close, or a thread is on its way into one. -/
def Doomed {T : Type} (s : SessionController T) : Prop :=
  ¬ s.ClosedLast ∨ s.Recorded ∧ ¬ s.Usable ∧ s.inCall = true

/-- Calls are only added. -/
theorem ClosedLast.of_prefix {calls : List Call} (hcalls : t.calls = s.calls ++ calls)
    (h : t.ClosedLast) : s.ClosedLast := by
  intro hmem
  refine h ?_
  rw [hcalls]
  rcases List.eq_nil_or_concat calls with rfl | ⟨cs, c, rfl⟩
  · rwa [List.append_nil]
  · rw [List.concat_eq_append, ← List.append_assoc, List.dropLast_concat]
    exact List.mem_append_left _ (List.mem_of_mem_dropLast hmem)

theorem Doomed.step (h : s.Doomed) (hs : Moves L role socket s l t) : t.Doomed := by
  rcases h with hbroken | ⟨hrecorded, hclosed, hin⟩
  · refine .inl fun hlast => hbroken ?_
    rcases hs.calls with ⟨cs, c, hcalls⟩ | ⟨hcalls, -, -⟩
    · exact hlast.of_prefix hcalls
    · exact hlast.of_prefix (hcalls.trans (List.append_nil _).symm)
  · rcases hs.calls with ⟨cs, c, hcalls⟩ | ⟨-, husable, hkeeps⟩
    · exact .inl (hrecorded.call_closed hclosed hcalls)
    · exact .inr ⟨hrecorded.step hs, fun hopen => hclosed (husable.mp hopen), hkeeps hin⟩

/-- A step that misses the condition is a call on a closed descriptor, or
leaves it closed with a thread on its way into a call. -/
theorem Moves.not_apart (hs : Moves L role socket s l t) (hbad : ¬ ClosesApart L role s l) :
    (¬ s.Usable ∧ ∃ cs c, t.calls = s.calls ++ (cs ++ [c])) ∨ ¬ t.Usable ∧ t.inCall = true := by
  cases hs with
  | hangUp readable hr =>
    by_cases hopen : s.Usable
    · refine .inr ⟨not_usable_of_hungUp rfl, ?_⟩
      cases role with
      | server => rfl
      | client =>
        have hlocked : s.sendLocked ≠ false := fun hfree => hbad ⟨rfl, hopen, hfree⟩
        exact Bool.or_eq_true_iff.mpr (.inr (Bool.eq_true_of_not_eq_false hlocked))
    · exact .inl ⟨hopen, [], .close, rfl⟩
  | recvClosed hr =>
    have hlocked := Bool.eq_true_of_not_eq_false hbad
    exact .inr ⟨not_usable_of_disconnected rfl, Bool.or_eq_true_iff.mpr (.inr hlocked)⟩
  | disconnect =>
    by_cases hopen : s.Usable
    · have hin : s.inCall ≠ false := fun hfree => hbad ⟨hopen, hfree⟩
      exact .inr ⟨not_usable_of_disconnected rfl, Bool.eq_true_of_not_eq_false hin⟩
    · exact .inl ⟨hopen, [], .close, rfl⟩
  | recvTest hr =>
    obtain ⟨hup, hconn⟩ := Classical.not_imp.mp hbad
    refine .inr ⟨not_usable_of_hungUp hup, ?_⟩
    rw [inCall, if_pos (Bool.eq_true_of_not_eq_false hconn)]
    rfl
  | take packet rest hsnd hq =>
    obtain ⟨hclosed, hencoded⟩ := not_or.mp hbad
    refine .inr ⟨mt (usable_setQueue s _ _).mp hclosed, ?_⟩
    have hok := Bool.eq_true_of_not_eq_false hencoded
    rw [takesEncodable, hq] at hok
    refine Bool.or_eq_true_iff.mpr (.inr ?_)
    rw [sendLocked]
    cases he : Encode.encode L packet.payload (assignId s.net.autoId packet.id).1 with
    | ok buffer => rfl
    | error e =>
      simp only [he] at hok
      cases hok
  | takeUndefined hsnd hq hc =>
    refine absurd (.inr ?_) hbad
    rw [takesEncodable, hq]
  | _ => exact absurd trivial hbad

/-- **`connected` agrees with the descriptor** whenever the receive thread is
at its loop test. -/
def FlagAgrees {T : Type} (s : SessionController T) : Prop :=
  s.receiver = .loopTest → (s.net.connected = true ↔ Call.close ∉ s.calls)

/-- A hang-up is handled by the server, or after a disconnect. -/
def HangUpDisconnects {T : Type} (role : Role) (s : SessionController T) : SessionLabel T → Prop
  | .epollWait (.event _ true) => role = .server ∨ s.net.connected = false
  | _ => True

instance {T : Type} (role : Role) (s : SessionController T) :
    (l : SessionLabel T) → Decidable (HangUpDisconnects role s l)
  | .epollWait (.event _ true) => inferInstanceAs (Decidable (_ ∨ _))
  | .arrive _ | .fin | .loopTest | .epollWait (.event _ false) | .epollWait (.error _)
  | .epollWait .timeout | .hangUpDisconnect | .recvTest | .recv _ | .cutFrame | .dispatch
  | .sendTest | .take | .send _ | .push _ | .pop | .disconnect =>
    inferInstanceAs (Decidable True)

/-- Only the server's hang-up branch stands between a close and the flag. -/
structure FlagInvariant {T : Type} (s : SessionController T) : Prop where
  closed : s.net.connected = false → Call.close ∈ s.calls
  connected : Call.close ∈ s.calls → s.net.connected = false ∨ s.receiver = .hangUp

theorem FlagInvariant.agrees (h : FlagInvariant s) : s.FlagAgrees := by
  intro hr
  refine ⟨fun hc hclose => ?_, fun hopen => ?_⟩
  · rcases h.connected hclose with hflag | hup
    · rw [hflag] at hc
      cases hc
    · rw [hr] at hup
      cases hup
  · by_contra hflag
    exact hopen (h.closed (Bool.eq_false_iff.mpr hflag))

/-- A step that leaves flag and closes alone, and the hang-up branch where it is. -/
theorem FlagInvariant.of_same (h : FlagInvariant s)
    (hcalls : Call.close ∈ t.calls ↔ Call.close ∈ s.calls)
    (hconn : t.net.connected = s.net.connected) (hr : s.receiver = .hangUp → t.receiver = .hangUp) :
    FlagInvariant t where
  closed := by
    rw [hconn, hcalls]
    exact h.closed
  connected := by
    rw [hconn, hcalls]
    exact fun hclose => (h.connected hclose).imp id hr

/-- `disconnect` closes the descriptor and clears the flag. -/
theorem FlagInvariant.disconnected (hclose : Call.close ∈ t.calls)
    (hconn : t.net.connected = false) : FlagInvariant t :=
  ⟨fun _ => hclose, fun _ => .inl hconn⟩

/-- One more call that is no close. -/
theorem close_mem_append {calls : List Call} {c : Call} (hc : c ≠ .close) :
    Call.close ∈ calls ++ [c] ↔ Call.close ∈ calls := by
  rw [List.mem_append, List.mem_singleton]
  exact or_iff_left hc.symm

theorem close_mem_concat (calls : List Call) : Call.close ∈ calls ++ [Call.close] :=
  List.mem_append_right _ (List.mem_singleton_self _)

theorem FlagInvariant.step (h : FlagInvariant s) (hok : HangUpDisconnects role s l)
    (hs : SessionController.step L role socket s l = some t) : FlagInvariant t := by
  cases moves_of_step hs with
  | hangUp readable hr =>
    refine ⟨fun _ => close_mem_concat _, fun _ => ?_⟩
    rcases hok with rfl | hflag
    · exact .inr rfl
    · exact .inl hflag
  | hangUpDisconnect hr => exact .disconnected (close_mem_concat _) rfl
  | recvClosed hr => exact .disconnected (close_mem_concat _) rfl
  | disconnect => exact .disconnected (close_mem_concat _) rfl
  | loopTest hr => exact h.of_same .rfl rfl (fun hup => nomatch hr.symm.trans hup)
  | epollError interrupted pc hr hpc =>
    exact h.of_same .rfl rfl (fun hup => nomatch hr.symm.trans hup)
  | timeout hr => exact h.of_same .rfl rfl (fun hup => nomatch hr.symm.trans hup)
  | event readable hr => exact h.of_same .rfl rfl (fun hup => nomatch hr.symm.trans hup)
  | recvTest hr => exact h.of_same .rfl rfl (fun hup => nomatch hr.symm.trans hup)
  | recvBytes temp hr =>
    exact h.of_same (close_mem_append nofun) rfl (fun hup => nomatch hr.symm.trans hup)
  | recvAgain hr =>
    exact h.of_same (close_mem_append nofun) rfl (fun hup => nomatch hr.symm.trans hup)
  | recvError hr =>
    exact h.of_same (close_mem_append nofun) rfl (fun hup => nomatch hr.symm.trans hup)
  | cutNothing hr hcut => exact h.of_same .rfl rfl (fun hup => nomatch hr.symm.trans hup)
  | cutBody body rest hr hcut =>
    exact h.of_same .rfl rfl (fun hup => nomatch hr.symm.trans hup)
  | skip packet hr hid => exact h.of_same .rfl rfl (fun hup => nomatch hr.symm.trans hup)
  | deliver packet hr hid =>
    exact h.of_same .rfl (TcpNetworking.connected_setQueue s.net _ _)
      (fun hup => nomatch hr.symm.trans hup)
  | send result sending out next hsnd hsend => exact h.of_same (close_mem_append nofun) rfl id
  | take packet rest hsnd hq => exact h.of_same .rfl (TcpNetworking.connected_setQueue s.net _ _) id
  | push packet => exact h.of_same .rfl (TcpNetworking.connected_setQueue s.net _ _) id
  | pop packet rest hq => exact h.of_same .rfl (TcpNetworking.connected_setQueue s.net _ _) id
  | _ => exact h.of_same .rfl rfl id

/-- **The flag tells whether the descriptor is open** exactly in the runs in
which no client handles a hang-up while it is connected. -/
theorem flag_agrees_iff (L : Libraries) (role : Role) (socket : Int)
    (ls : List (SessionLabel L.arrow.Table)) (t : SessionController L.arrow.Table)
    (hrun : run (SessionController.step L role socket) {} ls = some t) :
    Throughout (SessionController.step L role socket) FlagAgrees {} ls ↔
      Along (SessionController.step L role socket) (HangUpDisconnects role) {} ls := by
  have henv : Along (SessionController.step L role socket) (fun _ _ => True) {} ls :=
    Along.of_forall (fun _ _ => trivial) _ _
  refine throughout_iff_along (I := FlagInvariant) (fun h => h.agrees)
    (fun h _ hok hs => h.step hok hs) ?_ ⟨nofun, nofun⟩ henv hrun
  intro s l t _ _ hbad hs hagrees
  cases moves_of_step hs with
  | hangUp readable hr =>
    -- the client is back at its loop test, connected, with the descriptor closed
    obtain ⟨hrole, hflag⟩ := not_or.mp hbad
    cases role with
    | server => exact hrole rfl
    | client => exact (hagrees rfl).mp (Bool.eq_true_of_not_eq_false hflag) (close_mem_concat _)
  | _ => exact hbad trivial

/-- A server handles a hang-up and disconnects. -/
theorem flag_agrees_server :
    Throughout (SessionController.step Reference.libraries .server 7) FlagAgrees {}
      [.loopTest, .epollWait (.event true true), .hangUpDisconnect, .loopTest] :=
  (flag_agrees_iff Reference.libraries .server 7 _ _ rfl).mpr (by decide)

/-- **A client that handles a hang-up** has closed its descriptor and is connected. -/
theorem flag_disagrees_client :
    ¬ Throughout (SessionController.step Reference.libraries .client 7) FlagAgrees {}
      [.loopTest, .epollWait (.event false true)] := by
  intro h
  obtain ⟨t, hrun, hr, hconn, hcalls⟩ : ∃ t, run (SessionController.step Reference.libraries .client 7)
      {} [.loopTest, .epollWait (.event false true)] = some t ∧ t.receiver = .loopTest ∧
        t.net.connected = true ∧ t.calls = [.close] := ⟨_, rfl, rfl, rfl, rfl⟩
  exact (h.last hrun hr).mp hconn (hcalls ▸ List.mem_singleton_self _)

end SessionController
end Ttp2
