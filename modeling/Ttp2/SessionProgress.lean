import Ttp2.EchoService
import Ttp2.Lib.Reach

/-! # A session can always finish what it has begun

While the connection stays open and no two complete frames wait at once, the
send thread can always get to the end of its queue (`drain_sends`) and the
receive thread to the end of what the peer has sent (`drain_receives`),
wherever the two threads are. -/
namespace Ttp2
open Lib Octets Framing Lts Reach

/-- No `encode` throws `std::length_error`, which would end the send thread. -/
def NeverTooLong (L : Libraries) (packets : List (Packet L.arrow.Table)) : Prop :=
  ∀ packet ∈ packets, ∀ id, Encode.encode L packet.payload id ≠ .error .lengthError

/-- The receive thread is in its loop, and in no hang-up branch. -/
def ReceiverPc.loops {T : Type} : ReceiverPc T → Bool
  | .finished | .hangUp => false
  | _ => true

/-- The send thread is in its loop, or an exception left it. -/
def SenderPc.loops : SenderPc → Bool
  | .finished | .undefined => false
  | _ => true

namespace SessionController
variable {L : Libraries} {role : Role} {socket : Int}
  {peer s t : SessionController L.arrow.Table} {l : SessionLabel L.arrow.Table}

/-- Bytes arrive in portions: no two complete frames wait to be read and cut. -/
def Portioned {T : Type} (socket : Int) (s : SessionController T) : SessionLabel T → Prop
  | .arrive bytes => OneFrame (s.buffer socket ++ s.kernel ++ bytes)
  | _ => True

/-- `epoll_wait` fails with `EINTR` only. -/
def Waits {T : Type} : SessionLabel T → Prop
  | .epollWait (.error interrupted) => interrupted = true
  | _ => True

/-- An open connection whose bytes arrive in portions. -/
structure Cooperates {T : Type} (socket : Int) (peer s : SessionController T)
    (l : SessionLabel T) : Prop where
  steady : Connection.Steady peer s l
  isOpen : Open s l
  portioned : Portioned socket s l
  waits : Waits l

instance {T : Type} (socket : Int) (s : SessionController T) :
    (l : SessionLabel T) → Decidable (Portioned socket s l)
  | .arrive bytes => inferInstanceAs (Decidable (OneFrame (s.buffer socket ++ s.kernel ++ bytes)))
  | .fin | .loopTest | .epollWait _ | .hangUpDisconnect | .recvTest | .recv _ | .cutFrame
  | .dispatch | .sendTest | .take | .send _ | .push _ | .pop | .disconnect =>
    inferInstanceAs (Decidable True)

instance {T : Type} : (l : SessionLabel T) → Decidable (Waits l)
  | .epollWait (.error interrupted) => inferInstanceAs (Decidable (interrupted = true))
  | .epollWait .timeout | .epollWait (.event _ _) | .arrive _ | .fin | .loopTest | .hangUpDisconnect
  | .recvTest | .recv _ | .cutFrame | .dispatch | .sendTest | .take | .send _ | .push _ | .pop
  | .disconnect => inferInstanceAs (Decidable True)

instance {T : Type} (socket : Int) (peer s : SessionController T) (l : SessionLabel T) :
    Decidable (Cooperates socket peer s l) :=
  decidable_of_iff (Connection.Steady peer s l ∧ Open s l ∧ Portioned socket s l ∧ Waits l)
    ⟨fun ⟨hsteady, hopen, hportioned, hwaits⟩ => ⟨hsteady, hopen, hportioned, hwaits⟩,
      fun h => ⟨h.steady, h.isOpen, h.portioned, h.waits⟩⟩

/-- Every thread of a connected session is somewhere in its loop. -/
structure Working (L : Libraries) (socket : Int) (s : SessionController L.arrow.Table) : Prop where
  connected : s.net.connected = true
  fin : s.fin = false
  receiver : s.receiver.loops = true
  sender : s.sender.loops = true
  encodes : NeverTooLong L s.taken → s.sender ≠ .terminated
  oneFrame : OneFrame (s.buffer socket ++ s.kernel)

theorem Working.init : Working L socket {} where
  connected := rfl
  fin := rfl
  receiver := rfl
  sender := rfl
  encodes := fun _ h => nomatch h
  oneFrame := .of_none rfl

/-- The receive thread moves, and neither bytes nor the send thread. -/
theorem Working.gotoReceiver (h : Working L socket s) {pc : ReceiverPc L.arrow.Table}
    (hpc : pc.loops = true) (calls : List Call) :
    Working L socket { s with receiver := pc, calls } :=
  ⟨h.connected, h.fin, hpc, h.sender, h.encodes, h.oneFrame⟩

theorem ofNext_loops (next : Option Sending) :
    (SenderPc.ofNext next).loops = true ∧ SenderPc.ofNext next ≠ .terminated := by
  cases next with
  | none => exact ⟨rfl, fun h => nomatch h⟩
  | some sending => exact ⟨rfl, fun h => nomatch h⟩

theorem ofEncoded_loops (encoded : Except Exception Bytes) :
    (SenderPc.ofEncoded encoded).loops = true ∧
      (encoded ≠ .error .lengthError → SenderPc.ofEncoded encoded ≠ .terminated) := by
  cases encoded with
  | ok buffer => exact ⟨rfl, fun _ h => nomatch h⟩
  | error e =>
    cases e with
    | invalidArgument e => exact ⟨rfl, fun _ h => nomatch h⟩
    | lengthError => exact ⟨rfl, fun h => absurd rfl h⟩

/-- Bytes that move from the kernel to the buffer stay in their order. -/
theorem insert_append (s : SessionController L.arrow.Table) {temp : Bytes}
    (htemp : temp <+: s.kernel) :
    (s.net.insert socket temp).sessionBuffers socket ++ s.kernel.drop temp.length =
      s.buffer socket ++ s.kernel := by
  obtain ⟨rest, hrest⟩ := htemp
  show Function.update s.net.sessionBuffers socket (s.net.sessionBuffers socket ++ temp) socket ++
    s.kernel.drop temp.length = s.net.sessionBuffers socket ++ s.kernel
  rw [Function.update_self, ← hrest, List.drop_left, List.append_assoc]

/-- An interrupted `epoll_wait` is called again. -/
theorem receiver_of_interrupted
    (hs : step L role socket s (.epollWait (.error true)) = some t) : t.receiver = .loopTest := by
  simp only [SessionController.step] at hs
  split at hs
  · cases hs
    cases role <;> rfl
  · cases hs

theorem Working.step (h : Working L socket s) (hok : Cooperates socket peer s l)
    (hs : step L role socket s l = some t) : Working L socket t := by
  cases moves_of_step hs with
  | arrive bytes hfin =>
    refine ⟨h.connected, hfin, h.receiver, h.sender, h.encodes, ?_⟩
    show OneFrame (s.buffer socket ++ (s.kernel ++ bytes))
    rw [← List.append_assoc]
    exact hok.portioned
  | fin => exact absurd hok.isOpen id
  | loopTest hr =>
    rw [if_pos h.connected]
    exact h.gotoReceiver rfl _
  | epollError interrupted pc hr hpc =>
    have hinterrupted : interrupted = true := hok.waits
    subst hinterrupted
    have hloop : pc = .loopTest := receiver_of_interrupted hs
    subst hloop
    exact h.gotoReceiver rfl _
  | timeout hr => exact h.gotoReceiver rfl _
  | hangUp readable hr => exact absurd hok.isOpen.2.1 (by decide)
  | event readable hr =>
    refine h.gotoReceiver ?_ _
    split <;> rfl
  | hangUpDisconnect hr => exact absurd hok.isOpen id
  | recvTest hr =>
    rw [if_pos h.connected]
    exact h.gotoReceiver rfl _
  | recvBytes temp hr =>
    refine ⟨h.connected, h.fin, rfl, h.sender, h.encodes, ?_⟩
    exact (insert_append s hok.isOpen.2.2).symm ▸ h.oneFrame
  | recvAgain hr => exact h.gotoReceiver rfl _
  | recvError hr => exact absurd hok.isOpen id
  | recvClosed hr => exact absurd hok.isOpen id
  | cutNothing hr hcut => exact h.gotoReceiver rfl _
  | cutBody body rest hr hcut =>
    refine ⟨h.connected, h.fin, rfl, h.sender, h.encodes, .of_none ?_⟩
    show takeFrame ((s.net.setBuffer socket rest).sessionBuffers socket ++ s.kernel) = none
    rw [TcpNetworking.setBuffer_buffer]
    exact h.oneFrame.rest hcut
  | skip packet hr hid => exact h.gotoReceiver rfl _
  | deliver packet hr hid =>
    refine ⟨(TcpNetworking.connected_setQueue s.net _ _).trans h.connected, h.fin, rfl, h.sender,
      h.encodes, ?_⟩
    show OneFrame ((s.net.push role.receives packet).sessionBuffers socket ++ s.kernel)
    rw [TcpNetworking.push, TcpNetworking.sessionBuffers_setQueue]
    exact h.oneFrame
  | sendTest hsnd =>
    rw [if_pos h.connected]
    exact ⟨h.connected, h.fin, h.receiver, rfl, (fun _ => SenderPc.noConfusion), h.oneFrame⟩
  | takeUndefined hsnd hq hc =>
    rw [h.connected] at hc
    cases hc
  | take packet rest hsnd hq =>
    have hloops :=
      ofEncoded_loops (Encode.encode L packet.payload (assignId s.net.autoId packet.id).1)
    refine ⟨(TcpNetworking.connected_setQueue s.net _ _).trans h.connected, h.fin, h.receiver,
      hloops.1, fun hlong => hloops.2 ?_, ?_⟩
    · exact hlong packet (List.mem_append_right _ (List.mem_singleton_self packet)) _
    · show OneFrame ((s.net.setQueue role.sends rest).sessionBuffers socket ++ s.kernel)
      rw [TcpNetworking.sessionBuffers_setQueue]
      exact h.oneFrame
  | send result sending out next hsnd hsend =>
    exact ⟨h.connected, h.fin, h.receiver, (ofNext_loops next).1, fun _ => (ofNext_loops next).2,
      h.oneFrame⟩
  | push packet =>
    refine ⟨(TcpNetworking.connected_setQueue s.net _ _).trans h.connected, h.fin, h.receiver,
      h.sender, h.encodes, ?_⟩
    show OneFrame ((s.net.push role.sends packet).sessionBuffers socket ++ s.kernel)
    rw [TcpNetworking.push, TcpNetworking.sessionBuffers_setQueue]
    exact h.oneFrame
  | pop packet rest hq =>
    refine ⟨(TcpNetworking.connected_setQueue s.net _ _).trans h.connected, h.fin, h.receiver,
      h.sender, h.encodes, ?_⟩
    show OneFrame ((s.net.setQueue role.receives rest).sessionBuffers socket ++ s.kernel)
    rw [TcpNetworking.sessionBuffers_setQueue]
    exact h.oneFrame
  | disconnect => exact absurd hok.isOpen id

/-- The wake-ups of a cooperating connection find one frame at most. -/
theorem Working.singleFrame (h : Working L socket s) : SingleFrame socket s l := by
  unfold SingleFrame
  split
  · split
    · trivial
    · rename_i body rest hcut
      exact takeFrame_eq_none_of_append (h.oneFrame.rest hcut)
  · trivial

/-- Steps of the two threads and the network over a cooperating connection. -/
def Works {T : Type} (socket : Int) (peer s : SessionController T) (l : SessionLabel T) : Prop :=
  Cooperates socket peer s l ∧ l.byUser = false

/-- What the session has become by such steps. -/
abbrev Goes (L : Libraries) (role : Role) (socket : Int) (peer : SessionController L.arrow.Table) :
    SessionController L.arrow.Table → SessionController L.arrow.Table → Prop :=
  Reaches (step L role socket) (Works socket peer)

/-! ## The send thread -/

/-- What the send thread leaves alone. -/
structure SameReceipt (role : Role) (s t : SessionController L.arrow.Table) : Prop where
  receiver : t.receiver = s.receiver
  kernel : t.kernel = s.kernel
  arrived : t.arrived = s.arrived
  queue : t.net.queue role.receives = s.net.queue role.receives
  submitted : t.submitted = s.submitted

theorem SameReceipt.refl (s : SessionController L.arrow.Table) : SameReceipt role s s :=
  ⟨rfl, rfl, rfl, rfl, rfl⟩

theorem SameReceipt.trans {m : SessionController L.arrow.Table} (h : SameReceipt role s m)
    (h' : SameReceipt role m t) : SameReceipt role s t :=
  ⟨h'.receiver.trans h.receiver, h'.kernel.trans h.kernel, h'.arrived.trans h.arrived,
    h'.queue.trans h.queue, h'.submitted.trans h.submitted⟩

/-- `send` accepts all that is left of the running `sendBytes`. -/
theorem sends_rest (role : Role) (socket : Int) (peer s : SessionController L.arrow.Table)
    {sending : Sending} (hpc : s.sender = .sending sending) :
    ∃ t, Goes L role socket peer s t ∧ SameReceipt role s t ∧
      t.net = s.net ∧ t.taken = s.taken ∧ t.sender = .ofNext sending.returned := by
  have hmore := sending.more
  let rest := sending.buffer.length - sending.sentBytes
  let out := (sending.buffer.drop sending.sentBytes).take rest
  have hsend : sending.send (.accepted rest) = some (out, sending.returned) := by
    rw [Sending.send, if_pos (by omega), dif_neg (by omega)]
  have hstep : step L role socket s (.send (.accepted rest)) = some { s with
      wire := s.wire ++ out, calls := s.calls ++ [.send], sender := .ofNext sending.returned } := by
    simp only [step, hpc, send, hsend]
    rfl
  exact ⟨_, .single (l := .send (.accepted rest)) ⟨⟨trivial, trivial, trivial, trivial⟩, rfl⟩ hstep,
    ⟨rfl, rfl, rfl, rfl, rfl⟩, rfl, rfl, rfl⟩

/-- `sendMessage` returns. -/
theorem sends_message (role : Role) (socket : Int) (peer s : SessionController L.arrow.Table)
    {sending : Sending} (hpc : s.sender = .sending sending) :
    ∃ t, Goes L role socket peer s t ∧ SameReceipt role s t ∧
      t.net = s.net ∧ t.taken = s.taken ∧ t.sender = .loopTest := by
  obtain ⟨m, hm, hsame, hnet, htaken, hsender⟩ :=
    sends_rest role socket peer s hpc
  cases hnext : sending.returned with
  | none =>
    rw [hnext] at hsender
    exact ⟨m, hm, hsame, hnet, htaken, hsender⟩
  | some body =>
    rw [hnext] at hsender
    obtain ⟨t, ht, hsame', hnet', htaken', hsender'⟩ :=
      sends_rest role socket peer m hsender
    refine ⟨t, hm.trans ht, hsame.trans hsame', hnet'.trans hnet, htaken'.trans htaken, ?_⟩
    -- behind the body there is nothing
    have hlast : body.returned = none := by
      unfold Sending.returned at hnext ⊢
      cases hbody : sending.next with
      | none =>
        rw [hbody] at hnext
        cases hnext
      | some buffer =>
        rw [hbody] at hnext
        change Sending.sendBytes buffer none = some body at hnext
        unfold Sending.sendBytes at hnext
        split at hnext
        · cases hnext
        · cases hnext
          rfl
    rw [hlast] at hsender'
    exact hsender'

/-- How far the send thread is from its next packet. -/
def sendDistance : SenderPc → Nat
  | .sending _ => 2
  | .loopTest => 1
  | _ => 0

theorem sendDistance_le (pc : SenderPc) : sendDistance pc ≤ 2 := by
  cases pc <;> simp [sendDistance]

def sendRank {T : Type} (role : Role) (s : SessionController T) : Nat :=
  3 * (s.net.queue role.sends).length + sendDistance s.sender

/-- Everything pushed was handed to `send` and accepted. -/
def SentAll {T : Type} (role : Role) (s : SessionController T) : Prop :=
  s.net.queue role.sends = [] ∧ unsent s.sender = []

/-- On the way there from `s`. -/
structure Sends (L : Libraries) (role : Role) (socket : Int)
    (s t : SessionController L.arrow.Table) : Prop where
  working : Working L socket t
  sent : Sent L role t
  same : SameReceipt role s t

theorem Sends.trans {m : SessionController L.arrow.Table} (h : Sends L role socket s t)
    (hm : Goes L role socket peer t m) (hsame : SameReceipt role t m) :
    Sends L role socket s m where
  working := hm.invariant (fun h hok hs => h.step hok.1 hs) h.working
  sent := hm.invariant (fun h hok hs => h.step hok.1.steady.accepting hs) h.sent
  same := h.same.trans hsame

theorem Sends.progress (peer : SessionController L.arrow.Table) (h : Sends L role socket s t)
    (hlong : NeverTooLong L s.submitted)
    (hgoal : ¬ SentAll role t) :
    ∃ m, Goes L role socket peer t m ∧ Sends L role socket s m ∧ sendRank role m < sendRank role t := by
  have hqueue : unsent t.sender = [] → t.net.queue role.sends ≠ [] :=
    fun hunsent hempty => hgoal ⟨hempty, hunsent⟩
  cases hpc : t.sender with
  | sending sending =>
    obtain ⟨m, hm, hsame, hnet, -, hsender⟩ :=
      sends_message role socket peer t hpc
    refine ⟨m, hm, h.trans hm hsame, ?_⟩
    rw [sendRank, sendRank, hnet, hsender, hpc]
    exact Nat.lt_succ_self _
  | loopTest =>
    have hstep : step L role socket t .sendTest = some { t with sender := .waiting } := by
      simp only [step, hpc, if_true, h.working.connected]
    have hm : Goes L role socket peer t { t with sender := .waiting } :=
      .single (l := .sendTest) ⟨⟨trivial, trivial, trivial, trivial⟩, rfl⟩ hstep
    refine ⟨_, hm, h.trans hm ⟨rfl, rfl, rfl, rfl, rfl⟩, ?_⟩
    rw [sendRank, sendRank, hpc]
    exact Nat.lt_succ_self _
  | waiting =>
    obtain ⟨packet, rest, hq⟩ := List.exists_cons_of_ne_nil (hqueue (by rw [hpc]; rfl))
    have hpop : t.net.pop role.sends = some (packet, t.net.setQueue role.sends rest) := by
      rw [TcpNetworking.pop, hq]
    have hstep : step L role socket t .take = some { t with
        net := { t.net.setQueue role.sends rest with
          autoId := (assignId (t.net.setQueue role.sends rest).autoId packet.id).2 }
        taken := t.taken ++ [packet]
        sender := .ofEncoded (Encode.encode L packet.payload
          (assignId (t.net.setQueue role.sends rest).autoId packet.id).1) } := by
      simp only [step, hpc, if_true, take, hpop]
    have hm : Goes L role socket peer t _ :=
      .single (l := .take) ⟨⟨trivial, trivial, trivial, trivial⟩, rfl⟩ hstep
    have hreceives : (t.net.setQueue role.sends rest).queue role.receives =
        t.net.queue role.receives :=
      TcpNetworking.queue_setQueue_ne t.net _ role.sends_ne_receives.symm
    refine ⟨_, hm, h.trans hm ⟨rfl, rfl, rfl, ?_, rfl⟩, ?_⟩
    · rw [← hreceives]
      cases role <;> rfl
    · have hrest : TcpNetworking.queue { t.net.setQueue role.sends rest with
          autoId := (assignId (t.net.setQueue role.sends rest).autoId packet.id).2 } role.sends =
            rest := by
        cases role <;> rfl
      have hdistance := sendDistance_le (.ofEncoded (Encode.encode L packet.payload
        (assignId (t.net.setQueue role.sends rest).autoId packet.id).1))
      rw [sendRank, sendRank, hrest, hq, hpc, List.length_cons]
      simp only [sendDistance] at hdistance ⊢
      omega
  | finished => exact absurd h.working.sender (by rw [hpc]; exact Bool.false_ne_true)
  | undefined => exact absurd h.working.sender (by rw [hpc]; exact Bool.false_ne_true)
  | terminated =>
    refine absurd hpc (h.working.encodes fun packet hp => hlong packet ?_)
    rw [← h.same.submitted, h.sent.queue]
    exact List.mem_append_left _ hp

/-- **The send thread can empty its queue.** -/
theorem drain_sends (peer : SessionController L.arrow.Table) (hw : Working L socket s)
    (hsent : Sent L role s)
    (hlong : NeverTooLong L s.submitted) :
    ∃ t, Goes L role socket peer s t ∧ SameReceipt role s t ∧ SentAll role t := by
  obtain ⟨t, ht, h, hall⟩ := Reaches.of_rank (sendRank role)
    (fun t h hgoal => Sends.progress peer h hlong hgoal) s
    (⟨hw, hsent, .refl s⟩ : Sends L role socket s s)
  exact ⟨t, ht, h.same, hall⟩

/-! ## The receive thread -/

/-- What the receive thread and the network leave alone. -/
structure SameSending (role : Role) (s t : SessionController L.arrow.Table) : Prop where
  sender : t.sender = s.sender
  queue : t.net.queue role.sends = s.net.queue role.sends
  wire : t.wire = s.wire
  submitted : t.submitted = s.submitted

theorem SameSending.refl (s : SessionController L.arrow.Table) : SameSending role s s :=
  ⟨rfl, rfl, rfl, rfl⟩

theorem SameSending.trans {m : SessionController L.arrow.Table} (h : SameSending role s m)
    (h' : SameSending role m t) : SameSending role s t :=
  ⟨h'.sender.trans h.sender, h'.queue.trans h.queue, h'.wire.trans h.wire,
    h'.submitted.trans h.submitted⟩

/-- A step of the network, or of the receive thread outside the hang-up branch. -/
def receives {T : Type} : SessionLabel T → Bool
  | .arrive _ | .loopTest | .epollWait _ | .recvTest | .recv _ | .cutFrame | .dispatch => true
  | _ => false

theorem sameSending_of_step (hl : receives l = true) (hs : step L role socket s l = some t) :
    SameSending role s t := by
  cases moves_of_step hs with
  | deliver packet hr hid =>
    exact ⟨rfl, TcpNetworking.queue_setQueue_ne s.net _ role.sends_ne_receives, rfl, rfl⟩
  | fin => cases hl
  | hangUpDisconnect hr => cases hl
  | sendTest hsnd => cases hl
  | takeUndefined hsnd hq hc => cases hl
  | take packet rest hsnd hq => cases hl
  | send result sending out next hsnd hsend => cases hl
  | push packet => cases hl
  | pop packet rest hq => cases hl
  | disconnect => cases hl
  | recvClosed hr => exact ⟨rfl, by cases role <;> rfl, rfl, rfl⟩
  | _ => exact ⟨rfl, by cases role <;> rfl, rfl, rfl⟩

/-- What arrives is of the peer's stream. -/
theorem arrived_of_step (h : s.arrived <+: peer.wire) (hok : Connection.Steady peer s l)
    (hs : step L role socket s l = some t) : t.arrived <+: peer.wire := by
  cases moves_of_step hs with
  | arrive bytes hfin => exact hok
  | _ => exact h

/-- How far the receive thread is from `recv` if bytes wait, and from
`epoll_wait` if none does. -/
def receiveDistance {T : Type} (waits : Bool) : ReceiverPc T → Nat
  | .cut => if waits then 7 else 4
  | .received _ => if waits then 6 else 3
  | .loopTest => if waits then 5 else 2
  | .waiting => if waits then 4 else 1
  | .recvTest => if waits then 3 else 6
  | .recv => if waits then 2 else 5
  | .hangUp | .finished => 0

/-- A byte is first on its way, then in the kernel's queue. -/
def receiveRank {T : Type} (peer s : SessionController T) : Nat :=
  16 * (peer.wire.length - s.arrived.length) + 8 * s.kernel.length +
    receiveDistance (!s.kernel.isEmpty) s.receiver

/-- Everything the peer sent was read, and the receive thread waits for more. -/
structure ReceivedAll (peer s : SessionController L.arrow.Table) : Prop where
  waiting : s.receiver = .waiting
  kernel : s.kernel = []
  arrived : s.arrived = peer.wire

/-- On the way there from `s`. -/
structure Receives (L : Libraries) (role : Role) (socket : Int)
    (peer s t : SessionController L.arrow.Table) : Prop where
  working : Working L socket t
  drained : Drained socket t
  arrived : t.arrived <+: peer.wire
  same : SameSending role s t

theorem Receives.step {m : SessionController L.arrow.Table}
    (h : Receives L role socket peer s t) (hok : Cooperates socket peer t l)
    (hl : receives l = true) (hs : SessionController.step L role socket t l = some m) :
    Receives L role socket peer s m where
  working := h.working.step hok hs
  drained := h.drained.step hok.isOpen h.working.singleFrame hs
  arrived := arrived_of_step h.arrived hok.steady hs
  same := h.same.trans (sameSending_of_step hl hs)

/-- Its next step, on the way. -/
theorem Receives.next (h : Receives L role socket peer s t) (hgoal : ¬ ReceivedAll peer t) :
    ∃ l m, Cooperates socket peer t l ∧ receives l = true ∧
      SessionController.step L role socket t l = some m ∧
      receiveRank peer m < receiveRank peer t := by
  cases hpc : t.receiver with
  | loopTest =>
    refine ⟨.loopTest, { t with receiver := .waiting }, ⟨trivial, trivial, trivial, trivial⟩, rfl,
      by simp only [SessionController.step, hpc, h.working.connected, if_true], ?_⟩
    simp only [receiveRank, hpc, receiveDistance]
    split <;> omega
  | waiting =>
    cases hk : t.kernel with
    | cons octet kernel =>
      refine ⟨.epollWait (.event true false), { t with receiver := .recvTest },
        ⟨rfl, ⟨rfl, rfl, ?_⟩, trivial, trivial⟩, rfl, ?_, ?_⟩
      · rw [hk]
        exact List.cons_ne_nil _ _
      · simp only [SessionController.step, hpc]
        rfl
      · simp [receiveRank, hpc, receiveDistance, hk]
    | nil =>
      -- the next byte of the peer's stream arrives
      obtain ⟨rest, hwire⟩ := h.arrived
      cases rest with
      | nil => exact absurd ⟨hpc, hk, (List.append_nil _).symm.trans hwire⟩ hgoal
      | cons octet rest =>
        have hnone := h.drained.buffer (by simp [hpc]) (by simp [hpc]) (by simp [hpc])
        refine ⟨.arrive [octet],
          { t with kernel := t.kernel ++ [octet], arrived := t.arrived ++ [octet] },
          ⟨⟨rest, ?_⟩, trivial, ?_, trivial⟩, rfl, ?_, ?_⟩
        · rw [← hwire, List.append_assoc]
          rfl
        · show OneFrame (t.buffer socket ++ t.kernel ++ [octet])
          rw [hk, List.append_nil]
          exact .concat hnone octet
        · simp only [SessionController.step, h.working.fin, Bool.false_eq_true, if_false]
        · have hlength : peer.wire.length = t.arrived.length + (rest.length + 1) := by
            rw [← hwire, List.length_append, List.length_cons]
          simp [receiveRank, hpc, receiveDistance, hk, hlength]
          omega
  | recvTest =>
    refine ⟨.recvTest, { t with receiver := .recv }, ⟨trivial, trivial, trivial, trivial⟩, rfl,
      by simp only [SessionController.step, hpc, h.working.connected, if_true], ?_⟩
    simp only [receiveRank, hpc, receiveDistance]
    split <;> omega
  | recv =>
    cases hk : t.kernel with
    | cons octet kernel =>
      refine ⟨.recv (.bytes [octet]), t.recv socket (.bytes [octet]),
        ⟨⟨List.cons_ne_nil _ _, kernel, hk.symm⟩, ⟨List.cons_ne_nil _ _, by simp, kernel, hk.symm⟩,
          trivial, trivial⟩, rfl, by simp only [SessionController.step, hpc], ?_⟩
      simp only [receiveRank, hpc, receiveDistance, hk, recv, List.drop_succ_cons, List.length_cons,
        List.isEmpty_cons]
      split <;> simp <;> omega
    | nil =>
      refine ⟨.recv .again, t.recv socket .again, ⟨trivial, hk, trivial, trivial⟩, rfl,
        by simp only [SessionController.step, hpc], ?_⟩
      simp [receiveRank, hpc, receiveDistance, hk, recv]
  | cut =>
    cases hcut : takeFrame (t.buffer socket) with
    | none =>
      refine ⟨.cutFrame, { t with receiver := .received {} },
        ⟨trivial, trivial, trivial, trivial⟩, rfl, ?_, ?_⟩
      · simp only [SessionController.step, hpc, cutFrame, TcpNetworking.cutFrame_eq, hcut]
        rfl
      · simp only [receiveRank, hpc, receiveDistance]
        split <;> omega
    | some r =>
      obtain ⟨body, rest⟩ := r
      refine ⟨.cutFrame, { t with
          net := t.net.setBuffer socket rest, decoded := t.decoded ++ [body]
          receiver := .received (TcpNetworking.decodeOrEmpty L body) },
        ⟨trivial, trivial, trivial, trivial⟩, rfl, ?_, ?_⟩
      · simp only [SessionController.step, hpc, cutFrame, TcpNetworking.cutFrame_eq, hcut]
        rfl
      · simp only [receiveRank, hpc, receiveDistance]
        split <;> omega
  | received packet =>
    refine ⟨.dispatch, t.dispatch role packet, ⟨trivial, trivial, trivial, trivial⟩, rfl,
      by simp only [SessionController.step, hpc], ?_⟩
    have hloop : (t.dispatch role packet).receiver = .loopTest ∧
        (t.dispatch role packet).kernel = t.kernel ∧
        (t.dispatch role packet).arrived = t.arrived := by
      unfold dispatch
      split <;> exact ⟨rfl, rfl, rfl⟩
    rw [receiveRank, receiveRank, hloop.1, hloop.2.1, hloop.2.2, hpc]
    simp only [receiveDistance]
    split <;> omega
  | hangUp => exact absurd h.working.receiver (by rw [hpc]; exact Bool.false_ne_true)
  | finished => exact absurd h.working.receiver (by rw [hpc]; exact Bool.false_ne_true)

theorem not_byUser_of_receives (h : receives l = true) : l.byUser = false := by
  cases l <;> first | rfl | cases h

/-- **The receive thread can read and deliver all that the peer has sent.** -/
theorem drain_receives (peer : SessionController L.arrow.Table) (hw : Working L socket s)
    (hdrained : Drained socket s) (harrived : s.arrived <+: peer.wire) :
    ∃ t, Goes L role socket peer s t ∧ SameSending role s t ∧ ReceivedAll peer t := by
  have hprogress : ∀ t, Receives L role socket peer s t → ¬ ReceivedAll peer t →
      ∃ m, Goes L role socket peer t m ∧ Receives L role socket peer s m ∧
        receiveRank peer m < receiveRank peer t := by
    intro t h hgoal
    obtain ⟨l, m, hok, hl, hs, hlt⟩ := h.next hgoal
    exact ⟨m, .single ⟨hok, not_byUser_of_receives hl⟩ hs, h.step hok hl hs, hlt⟩
  obtain ⟨t, ht, h, hall⟩ := Reaches.of_rank (receiveRank peer) hprogress s
    ⟨hw, hdrained, harrived, .refl s⟩
  exact ⟨t, ht, h.same, hall⟩

/-! ## Who pops -/

/-- The users of a session can pop all that was delivered. -/
theorem drain_pops (role : Role) (socket : Int) (peer s : SessionController L.arrow.Table) : ∃ t,
    Reaches (step L role socket) (Cooperates socket peer) s t ∧ SameSending role s t ∧
      t.receiver = s.receiver ∧ t.kernel = s.kernel ∧ t.arrived = s.arrived ∧
      t.net.queue role.receives = [] := by
  induction hq : s.net.queue role.receives generalizing s with
  | nil => exact ⟨s, .refl s, .refl s, rfl, rfl, rfl, hq⟩
  | cons packet rest ih =>
    let m : SessionController L.arrow.Table :=
      { s with net := s.net.setQueue role.receives rest, popped := s.popped ++ [packet] }
    have hstep : step L role socket s .pop = some m := by
      simp only [step, TcpNetworking.pop, hq, Option.map_some]
      rfl
    have hsame : SameSending role s m :=
      ⟨rfl, TcpNetworking.queue_setQueue_ne s.net _ role.sends_ne_receives, rfl, rfl⟩
    obtain ⟨t, ht, hsame', hreceiver, hkernel, harrived, hempty⟩ :=
      ih m (TcpNetworking.queue_setQueue s.net _ rest)
    exact ⟨t, (Reaches.single (l := .pop) ⟨trivial, trivial, trivial, trivial⟩ hstep).trans ht,
      hsame.trans hsame', hreceiver, hkernel, harrived, hempty⟩

/-- A `sendMessage` that runs has bytes left. -/
theorem sendLocked_of_unsent (h : unsent s.sender = []) : s.sendLocked = false := by
  unfold sendLocked
  split
  · rename_i sending hpc
    rw [hpc] at h
    have hrest : sending.buffer.drop sending.sentBytes = [] := (List.append_eq_nil_iff.mp h).1
    have hle := List.drop_eq_nil_iff.mp hrest
    exact absurd sending.more (Nat.not_lt.mpr hle)
  · rfl

end SessionController
end Ttp2
