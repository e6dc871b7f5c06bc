import Ttp2.SessionStream
import Ttp2.CodedPacket
import Ttp2.SendSession
import Ttp2.Lib.Ranking

/-! # What a session still does after `disconnect`

`disconnect` only clears the flag the threads test: each goes on until its
next test. The receive thread of a TCP session makes at most five more steps
and delivers at most one more packet (`receive_thread_ends`), the send thread
takes at most one more packet (`send_thread_ends`), and a peer, whose socket is
closed, makes at most one more iteration of `receiveSession`
(`receive_session_ends`) and sends at most ten more datagrams
(`send_session_ends`), whatever the other threads, the network and the users do
meanwhile. -/
namespace Ttp2
open Lib Octets Framing Lts Ranking

/-! ## The receive thread of a TCP session -/

/-- A step of the receive thread. -/
def SessionLabel.ofReceiver {T : Type} : SessionLabel T → Bool
  | .loopTest | .epollWait _ | .hangUpDisconnect | .recvTest | .recv _ | .cutFrame | .dispatch => true
  | _ => false

namespace SessionController
variable {L : Libraries} {role : Role} {socket : Int} {s t : SessionController L.arrow.Table}
  {l : SessionLabel L.arrow.Table} {ls : List (SessionLabel L.arrow.Table)}

/-- The steps a receive thread has left at most once the flag is cleared. -/
def stepsLeft {T : Type} : ReceiverPc T → Nat
  | .finished => 0
  | .loopTest => 1
  | .hangUp | .received _ => 2
  | .cut => 3
  | .recvTest => 4
  | .recv | .waiting => 5

/-- The packets it may still push. -/
def packetsLeft {T : Type} : ReceiverPc T → Nat
  | .waiting | .recvTest | .recv | .cut | .received _ => 1
  | .loopTest | .hangUp | .finished => 0

/-- The flag is never set again. -/
theorem disconnected_step (h : s.net.connected = false)
    (hs : step L role socket s l = some t) : t.net.connected = false := by
  cases moves_of_step hs with
  | take packet rest hsnd hq => exact (TcpNetworking.connected_setQueue s.net _ _).trans h
  | deliver packet hr hid => exact (TcpNetworking.connected_setQueue s.net _ _).trans h
  | push packet => exact (TcpNetworking.connected_setQueue s.net _ _).trans h
  | pop packet rest hq => exact (TcpNetworking.connected_setQueue s.net _ _).trans h
  | disconnect => rfl
  | recvClosed hr => rfl
  | hangUpDisconnect hr => rfl
  | _ => exact h

/-- A step of the receive thread brings it nearer to its end, a step of anyone
else leaves it where it is. -/
theorem receiver_step (h : s.net.connected = false) (hs : step L role socket s l = some t) :
    t.delivered.length + packetsLeft t.receiver ≤ s.delivered.length + packetsLeft s.receiver ∧
      if l.ofReceiver then stepsLeft t.receiver < stepsLeft s.receiver
      else t.receiver = s.receiver := by
  cases moves_of_step hs with
  | loopTest hr => simp [SessionLabel.ofReceiver, hr, h, stepsLeft, packetsLeft]
  | epollError _ pc hr hpc =>
    rcases hpc with rfl | rfl <;> simp [SessionLabel.ofReceiver, hr, stepsLeft, packetsLeft]
  | hangUp readable hr =>
    cases role <;>
      simp [SessionLabel.ofReceiver, SessionController.hangUp, hr, stepsLeft, packetsLeft]
  | event readable hr =>
    cases readable <;> simp [SessionLabel.ofReceiver, hr, stepsLeft, packetsLeft]
  | recvTest hr => simp [SessionLabel.ofReceiver, hr, h, stepsLeft, packetsLeft]
  | hangUpDisconnect hr =>
    simp [SessionLabel.ofReceiver, SessionController.disconnect, hr, stepsLeft, packetsLeft]
  | timeout hr | recvBytes temp hr | recvAgain hr | recvError hr | recvClosed hr
  | cutNothing hr hcut | cutBody body rest hr hcut | skip packet hr hid | deliver packet hr hid =>
    simp [SessionLabel.ofReceiver, hr, stepsLeft, packetsLeft]
  | _ => exact ⟨Nat.le_refl _, rfl⟩

theorem receiver_ranks : Ranks (step L role socket) (fun s => s.net.connected = false)
    SessionLabel.ofReceiver (fun s => stepsLeft s.receiver) :=
  .of_step disconnected_step (fun h hs => (receiver_step h hs).2)

theorem delivered_ranks : Ranks (step L role socket) (fun s => s.net.connected = false)
    (fun _ => false) (fun s => s.delivered.length + packetsLeft s.receiver) :=
  .of_le disconnected_step (fun h hs => (receiver_step h hs).1)

/-- The receive thread has a step until it is finished. -/
theorem receiver_enabled (role : Role) (socket : Int) (h : s.receiver ≠ .finished) :
    ∃ l, l.ofReceiver = true ∧ (step L role socket s l).isSome := by
  cases hr : s.receiver with
  | loopTest => exact ⟨.loopTest, rfl, by simp [step, hr]⟩
  | waiting => exact ⟨.epollWait .timeout, rfl, by simp [step, hr]⟩
  | hangUp => exact ⟨.hangUpDisconnect, rfl, by simp [step, hr]⟩
  | recvTest => exact ⟨.recvTest, rfl, by simp [step, hr]⟩
  | recv => exact ⟨.recv .again, rfl, by simp [step, hr]⟩
  | cut =>
    refine ⟨.cutFrame, rfl, ?_⟩
    simp only [step, hr, SessionController.cutFrame, TcpNetworking.cutFrame_eq]
    cases takeFrame (s.buffer socket) <;> rfl
  | received packet => exact ⟨.dispatch, rfl, by simp [step, hr]⟩
  | finished => exact absurd hr h

/-- **The receive thread of a disconnected session ends**: it makes at most
five more steps, pushes at most one more packet, and stops nowhere else. -/
theorem receive_thread_ends (L : Libraries) (role : Role) (socket : Int)
    (s t : SessionController L.arrow.Table) (ls : List (SessionLabel L.arrow.Table))
    (hconn : s.net.connected = false) (hrun : run (step L role socket) s ls = some t) :
    ls.countP SessionLabel.ofReceiver ≤ 5 ∧ t.delivered.length ≤ s.delivered.length + 1 ∧
      ((∀ l, l.ofReceiver = true → step L role socket t l = none) → t.receiver = .finished) := by
  have hsteps := receiver_ranks.count hconn hrun
  have hpackets := delivered_ranks.count hconn hrun
  have hfive : stepsLeft s.receiver ≤ 5 := by cases s.receiver <;> simp [stepsLeft]
  have hone : packetsLeft s.receiver ≤ 1 := by cases s.receiver <;> simp [packetsLeft]
  refine ⟨by omega, by omega, fun hstuck => ?_⟩
  by_contra hr
  obtain ⟨l, hown, hsome⟩ := receiver_enabled role socket hr
  rw [hstuck l hown] at hsome
  cases hsome

/-- The flag is cleared while the receive thread is in `recv`. -/
theorem receive_thread_ends_recv :
    let step := step Reference.libraries .client 7
    let ls := [.recv (.bytes [0]), .recvTest, .cutFrame, .dispatch, .loopTest]
    ∃ s t, s.receiver = .recv ∧ run step s ls = some t ∧ ls.countP SessionLabel.ofReceiver ≤ 5 ∧
      t.delivered.length ≤ s.delivered.length + 1 ∧
      ((∀ l, l.ofReceiver = true → step t l = none) → t.receiver = .finished) :=
  ⟨{ net := { connected := false }, receiver := .recv }, _, rfl, rfl,
    receive_thread_ends Reference.libraries .client 7 _ _ _ rfl rfl⟩

/-! ## The send thread of a TCP session -/

/-- A `send` leaves fewer bytes. -/
theorem remaining_send {sending : Sending} {result : SendResult} {out : Bytes}
    {next : Option Sending} (h : sending.send result = some (out, next)) :
    (unsent (.ofNext next)).length < sending.remaining.length := by
  rw [unsent_ofNext]
  cases result with
  | failed =>
    cases h
    have hmore := sending.more
    rw [Sending.remaining_returned, Sending.remaining, List.length_append, List.length_drop]
    omega
  | accepted sent =>
    have hrest := congrArg List.length (Sending.send_accepted h)
    simp only [Sending.send] at h
    split at h
    · rename_i hsent
      cases h
      rw [List.length_append, List.length_take, List.length_drop] at hrest
      omega
    · cases h

/-- A step of the send thread. -/
def ofSender {T : Type} : SessionLabel T → Bool
  | .sendTest | .take | .send _ => true
  | _ => false

/-- The steps a send thread has left at most once the flag is cleared: a
`send` for each byte it still has, and of a packet it has not taken yet
libtasn1 makes less than 2^31 bytes. -/
def sendsLeft : SenderPc → Nat
  | .loopTest => 1
  | .waiting => 2 ^ 31 + 5
  | .sending sending => sending.remaining.length + 1
  | .finished | .undefined | .terminated => 0

/-- The packets it may still take. -/
def takesLeft : SenderPc → Nat
  | .waiting => 1
  | _ => 0

theorem sendsLeft_ofNext (next : Option Sending) :
    sendsLeft (.ofNext next) = (unsent (.ofNext next)).length + 1 := by
  cases next <;> rfl

theorem takesLeft_ofNext (next : Option Sending) : takesLeft (.ofNext next) = 0 := by
  cases next <;> rfl

theorem sender_step (hdoc : L.Documented) (h : s.net.connected = false)
    (hs : step L role socket s l = some t) :
    t.taken.length + takesLeft t.sender ≤ s.taken.length + takesLeft s.sender ∧
      if ofSender l then sendsLeft t.sender < sendsLeft s.sender else t.sender = s.sender := by
  cases moves_of_step hs with
  | sendTest hsnd => simp [ofSender, hsnd, h, sendsLeft, takesLeft]
  | takeUndefined hsnd hq hc => simp [ofSender, hsnd, sendsLeft, takesLeft]
  | take packet rest hsnd hq =>
    cases he : Encode.encode L packet.payload (assignId s.net.autoId packet.id).1 with
    | ok buffer =>
      obtain ⟨n, -, hcode⟩ := encode_eq_ok hdoc he
      obtain ⟨-, hlt, hlen, -⟩ := derCode_eq_ok hdoc.asn1 hcode
      have hframe : (Sending.start buffer).remaining.length = 4 + buffer.length := by
        rw [Sending.remaining_start, frame, List.length_append, length_toBe]
      simp only [ofSender, hsnd, SenderPc.ofEncoded, sendsLeft, takesLeft, hframe,
        List.length_append, List.length_singleton, if_true]
      omega
    | error e => cases e <;> simp [ofSender, hsnd, SenderPc.ofEncoded, sendsLeft, takesLeft]
  | send result sending out next hsnd hsend =>
    have hless := remaining_send hsend
    simp only [ofSender, hsnd, if_true, sendsLeft_ofNext, takesLeft_ofNext]
    simp only [sendsLeft, takesLeft]
    omega
  | _ => exact ⟨Nat.le_refl _, rfl⟩

theorem sender_ranks (hdoc : L.Documented) :
    Ranks (step L role socket) (fun s => s.net.connected = false) ofSender
      (fun s => sendsLeft s.sender) :=
  .of_step disconnected_step (fun h hs => (sender_step hdoc h hs).2)

theorem taken_ranks (hdoc : L.Documented) :
    Ranks (step L role socket) (fun s => s.net.connected = false) (fun _ => false)
      (fun s => s.taken.length + takesLeft s.sender) :=
  .of_le disconnected_step (fun h hs => (sender_step hdoc h hs).1)

/-- The send thread has a step until it has ended, if the wait on its
condition variable is woken. -/
theorem sender_enabled (role : Role) (socket : Int) (h : s.net.connected = false) :
    s.sender = .finished ∨ s.sender = .undefined ∨ s.sender = .terminated ∨
      ∃ l, ofSender l = true ∧ (step L role socket s l).isSome := by
  cases hsnd : s.sender with
  | loopTest => exact .inr (.inr (.inr ⟨.sendTest, rfl, by simp [step, hsnd]⟩))
  | waiting =>
    refine .inr (.inr (.inr ⟨.take, rfl, ?_⟩))
    simp only [step, hsnd, if_true, SessionController.take]
    split
    · rw [h]
      rfl
    · rfl
  | sending sending =>
    exact .inr (.inr (.inr ⟨.send .failed, rfl, by
      simp [step, hsnd, SessionController.send, Sending.send]⟩))
  | finished => exact .inl rfl
  | undefined => exact .inr (.inl rfl)
  | terminated => exact .inr (.inr (.inl rfl))

/-- **The send thread of a disconnected session ends** once its wait is woken:
it takes at most one more packet, calls `send` at most once for each byte it
has left, and stops nowhere else. -/
theorem send_thread_ends (L : Libraries) (hdoc : L.Documented) (role : Role) (socket : Int)
    (s t : SessionController L.arrow.Table) (ls : List (SessionLabel L.arrow.Table))
    (hconn : s.net.connected = false) (hrun : run (step L role socket) s ls = some t) :
    ls.countP ofSender ≤ sendsLeft s.sender ∧ t.taken.length ≤ s.taken.length + 1 ∧
      ((∀ l, ofSender l = true → step L role socket t l = none) →
        t.sender = .finished ∨ t.sender = .undefined ∨ t.sender = .terminated) := by
  have hsteps := (sender_ranks hdoc).count hconn hrun
  have htaken := (taken_ranks hdoc).count hconn hrun
  have hone : takesLeft s.sender ≤ 1 := by cases s.sender <;> simp [takesLeft]
  refine ⟨by omega, by omega, fun hstuck => ?_⟩
  have hconn : t.net.connected = false := receiver_ranks.invariant hconn hrun
  rcases sender_enabled role socket hconn with h | h | h | ⟨l, hown, hsome⟩
  · exact .inl h
  · exact .inr (.inl h)
  · exact .inr (.inr h)
  · rw [hstuck l hown] at hsome
    cases hsome

/-- The flag is cleared while the send thread waits. -/
theorem send_thread_ends_waiting :
    let step := step Reference.libraries .client 7
    let ls := [.push { id := 5, payload := .ls { directory := [0x2F] } }, .take,
      .send (.accepted 4), .send .failed, .sendTest]
    ∃ s t, s.sender = .waiting ∧ run step s ls = some t ∧
      ls.countP ofSender ≤ sendsLeft s.sender ∧ t.taken.length ≤ s.taken.length + 1 ∧
      ((∀ l, ofSender l = true → step t l = none) →
        t.sender = .finished ∨ t.sender = .undefined ∨ t.sender = .terminated) :=
  ⟨{ net := { connected := false }, sender := .waiting }, _, rfl, rfl,
    send_thread_ends Reference.libraries Reference.libraries_documented .client 7 _ _ _ rfl rfl⟩

end SessionController

/-! ## The threads of a peer -/

namespace ReceiveSession
variable {L : Libraries} {address : Address} {s t : ReceiveSession L.arrow.Table} {l : ReceiveLabel}

/-- A step of `receiveSession`. -/
def ofThread : ReceiveLabel → Bool
  | .loopTest | .epollWait _ | .receivePacketFrom _ _ | .endIteration => true
  | _ => false

/-- The socket is closed and has nothing any more; a thread that was stopped
stands where it stood `before`. -/
structure Closed {T : Type} (before : ReceiveSessionPc) (s : ReceiveSession T) : Prop where
  connected : s.connected = false
  edge : s.edge = false
  socket : s.socket = []
  stopped : s.pc = .terminated ∨ s.pc = .undefined → s.pc = before

def stepsLeft : ReceiveSessionPc → Nat
  | .loopTest => 1
  | .waiting | .queued => 2
  | .receiving => 3
  | .finished | .terminated | .undefined => 0

/-- The iterations it may still make. -/
def iterationsLeft : ReceiveSessionPc → Nat
  | .receiving => 1
  | _ => 0

theorem Closed.of_pc {before : ReceiveSessionPc} (h : Closed before s)
    (hconn : t.connected = s.connected) (hedge : t.edge = s.edge) (hsocket : t.socket = s.socket)
    (hpc : t.pc = s.pc ∨ (t.pc ≠ .terminated ∧ t.pc ≠ .undefined)) : Closed before t where
  connected := hconn.trans h.connected
  edge := hedge.trans h.edge
  socket := hsocket.trans h.socket
  stopped := by
    intro hstop
    rcases hpc with hpc | ⟨hterminated, hundefined⟩
    · rw [hpc] at hstop ⊢
      exact h.stopped hstop
    · exact absurd hstop (not_or.mpr ⟨hterminated, hundefined⟩)

theorem closed_step {before : ReceiveSessionPc} (h : Closed before s)
    (hs : step L address s l = some t) :
    Closed before t ∧
      t.iterations.length + iterationsLeft t.pc ≤ s.iterations.length + iterationsLeft s.pc ∧
      if ofThread l then stepsLeft t.pc < stepsLeft s.pc else t.pc = s.pc := by
  have hnone : ∀ d rest, s.socket ≠ d :: rest := by
    intro d rest hq
    rw [h.socket] at hq
    cases hq
  cases moves_of_step hs with
  | arrive d hc =>
    rw [h.connected] at hc
    cases hc
  | loopTest hpc =>
    refine ⟨h.of_pc rfl rfl rfl (.inr ?_), ?_⟩
    · simp [h.connected]
    · simp [ofThread, hpc, h.connected, stepsLeft, iterationsLeft]
  | report hpc hreport =>
    rw [h.edge] at hreport
    cases hreport
  | noReport hpc =>
    exact ⟨h.of_pc rfl rfl rfl (.inr ⟨nofun, nofun⟩),
      by simp [ofThread, hpc, stepsLeft, iterationsLeft]⟩
  | failed peeks consumes hpc hfails =>
    exact ⟨h.of_pc rfl rfl rfl (.inr ⟨nofun, nofun⟩),
      by simp [ofThread, queueEntry, hpc, stepsLeft, iterationsLeft]⟩
  | received d rest packet hpc hq hd => exact absurd hq (hnone d rest)
  | threw d rest e hpc hq hd => exact absurd hq (hnone d rest)
  | undefined d rest hpc hq hd => exact absurd hq (hnone d rest)
  | endIteration hpc =>
    exact ⟨h.of_pc rfl rfl rfl (.inr ⟨nofun, nofun⟩),
      by simp [ofThread, hpc, stepsLeft, iterationsLeft]⟩
  | pop e rest hpc hq => exact ⟨h.of_pc rfl rfl rfl (.inl rfl), Nat.le_refl _, rfl⟩
  | readIp k e hk => exact ⟨h.of_pc rfl rfl rfl (.inl rfl), Nat.le_refl _, rfl⟩
  | unchanged l hl =>
    refine ⟨h, Nat.le_refl _, ?_⟩
    rcases hl with rfl | ⟨answer, rfl⟩ <;> rfl
  | disconnect => exact ⟨⟨rfl, rfl, rfl, h.stopped⟩, Nat.le_refl _, rfl⟩

theorem steps_ranks (before : ReceiveSessionPc) :
    Ranks (step L address) (Closed before) ofThread (fun s => stepsLeft s.pc) :=
  .of_step (fun h hs => (closed_step h hs).1) (fun h hs => (closed_step h hs).2.2)

theorem iterations_ranks (before : ReceiveSessionPc) : Ranks (step L address) (Closed before)
    (fun _ => false) (fun s => s.iterations.length + iterationsLeft s.pc) :=
  .of_le (fun h hs => (closed_step h hs).1) (fun h hs => (closed_step h hs).2.1)

theorem thread_enabled (address : Address) (s : ReceiveSession L.arrow.Table) :
    stepsLeft s.pc = 0 ∨ ∃ l, ofThread l = true ∧ (step L address s l).isSome := by
  cases hpc : s.pc with
  | loopTest => exact .inr ⟨.loopTest, rfl, by simp [step, hpc]⟩
  | waiting => exact .inr ⟨.epollWait false, rfl, by simp [step, hpc]⟩
  | receiving => exact .inr ⟨.receivePacketFrom false false, rfl, by simp [step, hpc]⟩
  | queued => exact .inr ⟨.endIteration, rfl, by simp [step, hpc]⟩
  | finished | terminated | undefined => exact .inl rfl

/-- **`receiveSession` ends after `disconnect`**: it makes at most three more
steps, at most one more iteration, and that only if it was about to read; it
stops at its end, unless an exception or a read beyond a datagram has stopped
it before. -/
theorem receive_session_ends (L : Libraries) (address : Address)
    (s t : ReceiveSession L.arrow.Table) (ls : List ReceiveLabel)
    (hrun : run (step L address) s.disconnect ls = some t) :
    ls.countP ofThread ≤ 3 ∧
      t.iterations.length ≤ s.iterations.length + (if s.pc = .receiving then 1 else 0) ∧
      ((∀ l, ofThread l = true → step L address t l = none) →
        t.pc = .finished ∨ (t.pc = .terminated ∨ t.pc = .undefined) ∧ s.pc = t.pc) := by
  have hclosed : Closed s.pc s.disconnect := ⟨rfl, rfl, rfl, fun _ => rfl⟩
  have hsteps := (steps_ranks s.pc).count hclosed hrun
  have hreads := (iterations_ranks s.pc).count hclosed hrun
  have hend := (steps_ranks s.pc).invariant hclosed hrun
  change _ ≤ stepsLeft s.pc at hsteps
  change _ ≤ s.iterations.length + iterationsLeft s.pc at hreads
  have hthree : stepsLeft s.pc ≤ 3 := by cases s.pc <;> simp [stepsLeft]
  have hleft : iterationsLeft s.pc = if s.pc = .receiving then 1 else 0 := by
    cases s.pc <;> rfl
  refine ⟨by omega, by omega, fun hstuck => ?_⟩
  rcases thread_enabled address t with hzero | ⟨l, hown, hsome⟩
  · by_cases hstop : t.pc = .terminated ∨ t.pc = .undefined
    · exact .inr ⟨hstop, (hend.stopped hstop).symm⟩
    · revert hzero hstop
      cases t.pc <;> simp [stepsLeft]
  · rw [hstuck l hown] at hsome
    cases hsome

/-- `disconnect` while the thread is in `receivePacketFrom`. -/
theorem receive_session_ends_receiving :
    let step := step Reference.libraries ⟨.quad 10 0 0 1, 9000⟩
    let ls := [.receivePacketFrom false false, .endIteration, .loopTest]
    ∃ s t : ReceiveSession Reference.libraries.arrow.Table, s.pc = .receiving ∧
      run step s.disconnect ls = some t ∧ ls.countP ofThread ≤ 3 ∧
      t.iterations.length ≤ s.iterations.length + (if s.pc = .receiving then 1 else 0) ∧
      ((∀ l, ofThread l = true → step t l = none) →
        t.pc = .finished ∨ (t.pc = .terminated ∨ t.pc = .undefined) ∧ s.pc = t.pc) :=
  ⟨{ pc := .receiving }, _, rfl, rfl,
    receive_session_ends Reference.libraries ⟨.quad 10 0 0 1, 9000⟩ _ _ _ rfl⟩

end ReceiveSession

namespace SendSession
variable {L : Libraries} {address : Address} {s t : SendSession L.arrow.Table}
  {l : SendSessionLabel L.arrow.Table}

/-- A step of `sendSession`. -/
def ofThread {T : Type} : SendSessionLabel T → Bool
  | .loopTest | .take _ | .sendto | .timeout | .waitError | .answer _ _ => true
  | _ => false

def stepsLeft : SendSessionPc → Nat
  | .loopTest => 1
  | .polling => 22
  | .sendto c _ => 2 * c.maxResendCount + 1
  | .waiting c _ => 2 * c.maxResendCount
  | .finished | .terminated => 0

/-- The datagrams it may still send. -/
def datagramsLeft : SendSessionPc → Nat
  | .polling => 10
  | .sendto c _ => c.maxResendCount
  | .waiting c _ => c.maxResendCount - 1
  | _ => 0

/-- The wait of an attempt is over: one attempt less, or none. -/
theorem waited_left (s : SendSession L.arrow.Table) (c : SendingTo) (r : CallRecord)
    (result : AckResult) :
    (s.waited c r result).connected = s.connected ∧ (s.waited c r result).sent = s.sent ∧
      stepsLeft (s.waited c r result).pc < 2 * c.maxResendCount ∧
      datagramsLeft (s.waited c r result).pc ≤ c.maxResendCount - 1 := by
  have hmore := c.more
  rcases afterAttempt_cases s c r result with ⟨c', ht, hagain⟩ | ⟨ht, -⟩ | ⟨ht, -⟩
  · have hcount : c'.maxResendCount + 1 = c.maxResendCount :=
      (SendingTo.retries_of_again hagain).2.count
    rw [ht]
    refine ⟨rfl, rfl, ?_, ?_⟩
    · show 2 * c'.maxResendCount + 1 < _
      omega
    · show c'.maxResendCount ≤ _
      omega
  · rw [ht]
    refine ⟨rfl, rfl, ?_, Nat.zero_le _⟩
    show 1 < _
    omega
  · rw [ht]
    refine ⟨rfl, rfl, ?_, Nat.zero_le _⟩
    show 0 < _
    omega

/-- Up to the next test of the flag, each step of the thread is one less to make. -/
theorem step_left (hl : l ≠ .loopTest) (hs : step L address s l = some t) :
    t.sent.length + datagramsLeft t.pc ≤ s.sent.length + datagramsLeft s.pc ∧
      if ofThread l then stepsLeft t.pc < stepsLeft s.pc else t.pc = s.pc := by
  cases moves_of_step hs with
  | sendPacket p | disconnect => exact ⟨Nat.le_refl _, rfl⟩
  | loopTest hpc => exact absurd rfl hl
  | takeNothing socket hpc hq => simp [ofThread, hpc, stepsLeft, datagramsLeft]
  | take socket p rest encodedPacket hpc hq he =>
    cases socket <;> simp [ofThread, hpc, stepsLeft, datagramsLeft, SendingTo.start]
  | reject socket p rest e hpc hq he => simp [ofThread, hpc, stepsLeft, datagramsLeft]
  | sendto c r hpc =>
    have hmore := c.more
    simp only [ofThread, hpc, stepsLeft, datagramsLeft, List.length_append, List.length_singleton,
      if_true]
    omega
  | waited l c r hpc result received hw =>
    obtain ⟨-, hsent, hsteps, hleft⟩ :=
      waited_left s c { r with received := r.received ++ received } result
    have hown : ofThread l = true := by cases hw <;> rfl
    rw [hsent, hown, hpc, if_pos rfl]
    exact ⟨Nat.add_le_add_left hleft _, hsteps⟩

theorem connected_of_step (hl : l ≠ .disconnect) (hs : step L address s l = some t) :
    t.connected = s.connected := by
  cases moves_of_step hs with
  | disconnect => exact absurd rfl hl
  | waited l c r hpc result received hw => exact (waited_left s c _ result).1
  | _ => rfl

theorem disconnected_step (h : s.connected = false) (hs : step L address s l = some t) :
    t.connected = false ∧ t.sent.length + datagramsLeft t.pc ≤ s.sent.length + datagramsLeft s.pc ∧
      if ofThread l then stepsLeft t.pc < stepsLeft s.pc else t.pc = s.pc := by
  have hconn : t.connected = false := by
    by_cases hl : l = .disconnect
    · subst hl
      cases hs
      rfl
    · exact (connected_of_step hl hs).trans h
  refine ⟨hconn, ?_⟩
  by_cases hl : l = .loopTest
  · subst hl
    cases moves_of_step hs with
    | loopTest hpc => simp [ofThread, hpc, h, stepsLeft, datagramsLeft]
    | waited l c r hpc result received hw => cases hw
  · exact step_left hl hs

theorem steps_ranks : Ranks (step L address) (fun s => s.connected = false) ofThread
    (fun s => stepsLeft s.pc) :=
  .of_step (fun h hs => (disconnected_step h hs).1) (fun h hs => (disconnected_step h hs).2.2)

theorem datagrams_ranks : Ranks (step L address) (fun s => s.connected = false) (fun _ => false)
    (fun s => s.sent.length + datagramsLeft s.pc) :=
  .of_le (fun h hs => (disconnected_step h hs).1) (fun h hs => (disconnected_step h hs).2.1)

theorem thread_enabled (address : Address) (s : SendSession L.arrow.Table) :
    stepsLeft s.pc = 0 ∨ ∃ l, ofThread l = true ∧ (step L address s l).isSome := by
  cases hpc : s.pc with
  | loopTest => exact .inr ⟨.loopTest, rfl, by simp [step, hpc]⟩
  | polling => exact .inr ⟨.take none, rfl, by simp [step, hpc]⟩
  | sendto c r => exact .inr ⟨.sendto, rfl, by simp [step, hpc]⟩
  | waiting c r => exact .inr ⟨.timeout, rfl, by simp [step, hpc]⟩
  | finished | terminated => exact .inl rfl

theorem left_le (s : SendSession L.arrow.Table) : stepsLeft s.pc ≤ 22 ∧ datagramsLeft s.pc ≤ 10 := by
  cases s.pc with
  | sendto c r | waiting c r =>
    have hten := c.most
    simp only [stepsLeft, datagramsLeft]
    omega
  | _ => simp [stepsLeft, datagramsLeft]

/-- **`sendSession` ends after `disconnect`**: it makes at most 22 more steps
and sends at most ten more datagrams, however long its queue is, and stops
nowhere but at its end or where an exception leaves it. -/
theorem send_session_ends (L : Libraries) (address : Address) (s t : SendSession L.arrow.Table)
    (ls : List (SendSessionLabel L.arrow.Table)) (hconn : s.connected = false)
    (hrun : run (step L address) s ls = some t) :
    ls.countP ofThread ≤ 22 ∧ t.sent.length ≤ s.sent.length + 10 ∧
      ((∀ l, ofThread l = true → step L address t l = none) →
        t.pc = .finished ∨ t.pc = .terminated) := by
  have hsteps := steps_ranks.count hconn hrun
  have hsent := datagrams_ranks.count hconn hrun
  have hmost := left_le s
  refine ⟨by omega, by omega, fun hstuck => ?_⟩
  rcases thread_enabled address t with hzero | ⟨l, hown, hsome⟩
  · revert hzero
    cases t.pc with
    | sendto c r | waiting c r =>
      have hmore := c.more
      simp only [stepsLeft]
      omega
    | _ => simp [stepsLeft]
  · rw [hstuck l hown] at hsome
    cases hsome

/-- The flag is cleared before the packet is taken. -/
theorem send_session_ends_polling :
    let step := step Reference.libraries ⟨.quad 10 0 0 1, 9000⟩
    let ls := [.sendPacket ⟨⟨.quad 10 0 0 2, 9001⟩, { id := 5, payload := .ls { directory := [0x2F] } }⟩,
      .take (some 4000), .sendto, .timeout, .sendto, .answer
        { source := ⟨.quad 10 0 0 2, 9001⟩, destination := ⟨.quad 10 0 0 1, 4000⟩, bytes := [0x31] } 0,
      .loopTest]
    ∃ s t, s.pc = .polling ∧ run step s ls = some t ∧ ls.countP ofThread ≤ 22 ∧
      t.sent.length ≤ s.sent.length + 10 ∧
      ((∀ l, ofThread l = true → step t l = none) →
        t.pc = .finished ∨ t.pc = .terminated) :=
  ⟨{ connected := false, pc := .polling }, _, rfl, rfl,
    send_session_ends Reference.libraries ⟨.quad 10 0 0 1, 9000⟩ _ _ _ rfl rfl⟩

end SendSession
end Ttp2
