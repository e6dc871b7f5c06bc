import Ttp2.SessionStream

/-! # Complete frames left in the session buffer

A wake-up drains the socket and takes one frame. While no wake-up finds more
than one complete frame in the buffer, nothing complete is left behind when
the receive thread waits again with an empty kernel queue; a burst of two
frames strands the second. -/
namespace Ttp2
open Lib Octets Framing Lts

namespace SessionController
variable {T : Type}

/-- The connection is open and `epoll` level-triggered: readable exactly when
the kernel's queue is not empty, and `recv` delivers the next bytes of it. -/
def Open (s : SessionController T) : SessionLabel T → Prop
  | .fin | .disconnect | .hangUpDisconnect => False
  | .epollWait .timeout => s.kernel = []
  | .epollWait (.event readable hangUp) => readable = true ∧ hangUp = false ∧ s.kernel ≠ []
  | .recv (.bytes temp) => temp ≠ [] ∧ temp.length ≤ 4096 ∧ temp <+: s.kernel
  | .recv .again => s.kernel = []
  | .recv .error | .recv .closed => False
  | _ => True

/-- Where a frame is cut off the buffer, no second one is complete behind it. -/
def SingleFrame (socket : Int) (s : SessionController T) : SessionLabel T → Prop
  | .cutFrame =>
    match takeFrame (s.buffer socket) with
    | none => True
    | some (_, rest) => takeFrame rest = none
  | _ => True

instance (s : SessionController T) : (l : SessionLabel T) → Decidable (Open s l)
  | .fin | .disconnect | .hangUpDisconnect | .recv .error | .recv .closed =>
    inferInstanceAs (Decidable False)
  | .epollWait .timeout | .recv .again => inferInstanceAs (Decidable (s.kernel = []))
  | .epollWait (.event _ _) | .recv (.bytes _) => inferInstanceAs (Decidable (_ ∧ _ ∧ _))
  | .arrive _ | .loopTest | .epollWait (.error _) | .recvTest | .cutFrame | .dispatch | .sendTest
  | .take | .send _ | .push _ | .pop => inferInstanceAs (Decidable True)

/-- The frame cut off the buffer is the only complete one. -/
theorem singleFrame_cutFrame (socket : Int) (s : SessionController T) :
    SingleFrame socket s .cutFrame ↔
      ∀ r ∈ takeFrame (s.buffer socket), takeFrame r.2 = none := by
  simp only [SingleFrame]
  cases takeFrame (s.buffer socket) with
  | none => simp
  | some r => simp

instance (socket : Int) (s : SessionController T) :
    (l : SessionLabel T) → Decidable (SingleFrame socket s l)
  | .cutFrame => decidable_of_iff _ (singleFrame_cutFrame socket s).symm
  | .arrive _ | .fin | .loopTest | .epollWait _ | .hangUpDisconnect | .recvTest | .recv _
  | .dispatch | .sendTest | .take | .send _ | .push _ | .pop | .disconnect =>
    inferInstanceAs (Decidable True)

/-- **No complete frame is stranded**: when the receive thread is in
`epoll_wait` and the kernel's queue is empty, the buffer holds no complete
frame, and every complete frame that arrived was handed to `decode`. -/
def NoneStranded (socket : Int) (s : SessionController T) : Prop :=
  s.receiver = .waiting → s.kernel = [] →
    takeFrame (s.buffer socket) = none ∧
      ∀ bodies tail, Fits bodies → takeFrame tail = none → s.arrived = frames bodies ++ tail →
        s.decoded = bodies

/-- Outside `receiveMessage`, from its first `recv` to its cut, the buffer
holds no complete frame. -/
def Drained (socket : Int) (s : SessionController T) : Prop :=
  match s.receiver with
  | .recvTest | .recv | .cut => True
  | _ => takeFrame (s.buffer socket) = none

variable {L : Libraries} {role : Role} {socket : Int} {s t : SessionController L.arrow.Table}
  {l : SessionLabel L.arrow.Table}

theorem Drained.of_same (h : Drained socket s) (hr : t.receiver = s.receiver)
    (hbuf : t.buffer socket = s.buffer socket) : Drained socket t := by
  unfold Drained at h ⊢
  rw [hr, hbuf]
  exact h

/-- Outside those three places the thread keeps the buffer drained by leaving it. -/
theorem Drained.of_buffer (hbuf : takeFrame (t.buffer socket) = none) : Drained socket t := by
  unfold Drained
  split
  · trivial
  · trivial
  · trivial
  · exact hbuf

theorem Drained.buffer (h : Drained socket s) (h1 : s.receiver ≠ .recvTest)
    (h2 : s.receiver ≠ .recv) (h3 : s.receiver ≠ .cut) : takeFrame (s.buffer socket) = none := by
  unfold Drained at h
  split at h
  · contradiction
  · contradiction
  · contradiction
  · exact h

theorem Drained.step (h : Drained socket s) (hopen : Open s l) (hone : SingleFrame socket s l)
    (hs : step L role socket s l = some t) : Drained socket t := by
  cases moves_of_step hs with
  | arrive bytes => exact h.of_same rfl rfl
  | fin => exact absurd hopen id
  | loopTest hr => exact Drained.of_buffer (h.buffer (by simp [hr]) (by simp [hr]) (by simp [hr]))
  | epollError _ pc hr hpc =>
    exact Drained.of_buffer (h.buffer (by simp [hr]) (by simp [hr]) (by simp [hr]))
  | timeout hr => exact Drained.of_buffer (h.buffer (by simp [hr]) (by simp [hr]) (by simp [hr]))
  | hangUp readable hr => exact absurd hopen.2.1 (by simp)
  | event readable hr =>
    exact Drained.of_buffer (h.buffer (by simp [hr]) (by simp [hr]) (by simp [hr]))
  | hangUpDisconnect hr => exact absurd hopen id
  | recvTest hr =>
    unfold Drained
    dsimp only
    cases s.net.connected <;> trivial
  | recvBytes temp hr => trivial
  | recvAgain hr => trivial
  | recvError hr => exact absurd hopen id
  | recvClosed hr => exact absurd hopen id
  | cutNothing hr hcut => exact Drained.of_buffer hcut
  | cutBody body rest hr hcut =>
    refine Drained.of_buffer ?_
    show takeFrame ((s.net.setBuffer socket rest).sessionBuffers socket) = none
    rw [TcpNetworking.setBuffer_buffer]
    unfold SingleFrame at hone
    rwa [hcut] at hone
  | skip packet hr hid =>
    exact Drained.of_buffer (h.buffer (by simp [hr]) (by simp [hr]) (by simp [hr]))
  | deliver packet hr hid =>
    refine Drained.of_buffer ?_
    have hbuf := h.buffer (by simp [hr]) (by simp [hr]) (by simp [hr])
    rwa [SessionController.buffer, TcpNetworking.push, TcpNetworking.sessionBuffers_setQueue]
  | sendTest hsnd => exact h.of_same rfl rfl
  | takeUndefined hsnd hq hc => exact h.of_same rfl rfl
  | take packet rest hsnd hq =>
    exact h.of_same rfl (congrArg (· socket) (TcpNetworking.sessionBuffers_setQueue s.net _ rest))
  | send result sending out next hsnd hsend => exact h.of_same rfl rfl
  | push packet =>
    exact h.of_same rfl (congrArg (· socket) (TcpNetworking.sessionBuffers_setQueue s.net _ _))
  | pop packet rest hq =>
    exact h.of_same rfl (congrArg (· socket) (TcpNetworking.sessionBuffers_setQueue s.net _ rest))
  | disconnect => exact absurd hopen id

theorem Open.genuine (h : Open s l) : Genuine s l := by
  cases l with
  | recv answer =>
    cases answer with
    | bytes temp => exact h.2.2
    | again => trivial
    | error => trivial
    | closed => trivial
  | _ => trivial

theorem hungUp_of_open (h : Open s l) (hs : step L role socket s l = some t)
    (hup : s.hungUp = false) : t.hungUp = false := by
  cases moves_of_step hs with
  | hangUp readable hr => exact absurd h.2.1 (by simp)
  | _ => exact hup

/-- What an open connection keeps while every cut meets `SingleFrame`. -/
structure OpenInvariant (L : Libraries) (role : Role) (socket : Int)
    (s : SessionController L.arrow.Table) : Prop where
  received : Received L role socket s
  drained : Drained socket s
  up : s.hungUp = false

theorem OpenInvariant.noneStranded (h : OpenInvariant L role socket s) :
    NoneStranded socket s := by
  intro hwait hkernel
  have hbuf := h.drained.buffer (by simp [hwait]) (by simp [hwait]) (by simp [hwait])
  refine ⟨hbuf, ?_⟩
  intro bodies tail hfits htail harrived
  have hbytes := h.received.bytes h.up
  rw [hkernel, List.append_nil, harrived] at hbytes
  exact (frames_unique h.received.fits hfits hbuf htail hbytes.symm).1

/-- **No frame is stranded** on an open connection as long as no wake-up finds
two complete frames in the buffer. -/
theorem none_stranded (L : Libraries) (role : Role) (socket : Int)
    (ls : List (SessionLabel L.arrow.Table)) (hopen : Along (step L role socket) Open {} ls)
    (hone : Along (step L role socket) (SingleFrame socket) {} ls) :
    Throughout (step L role socket) (NoneStranded socket) {} ls := by
  refine (hopen.and hone).throughout (I := OpenInvariant L role socket)
    OpenInvariant.noneStranded ?_ ⟨Received.init, rfl, rfl⟩
  intro s l t h hok hs
  exact ⟨h.received.step hok.1.genuine hs, h.drained.step hok.1 hok.2 hs,
    hungUp_of_open hok.1 hs h.up⟩

/-- One frame in two bursts, split in its header. -/
theorem none_stranded_split :
    Throughout (step Reference.libraries .server 7) (NoneStranded 7) {}
      [.loopTest, .arrive [0, 0], .epollWait (.event true false), .recvTest, .recv (.bytes [0, 0]),
        .recvTest, .recv .again, .cutFrame, .dispatch, .loopTest,
        .arrive [0, 0x0C, 0x30, 0x0A, 0x02, 0x01, 5, 0xA7, 5, 0x30, 3, 4, 1, 0x2F],
        .epollWait (.event true false), .recvTest,
        .recv (.bytes [0, 0x0C, 0x30, 0x0A, 0x02, 0x01, 5, 0xA7, 5, 0x30, 3, 4, 1, 0x2F]),
        .recvTest, .recv .again, .cutFrame, .dispatch, .loopTest] :=
  none_stranded Reference.libraries .server 7 _ (by decide) (by decide)

/-- **Two frames in one burst strand the second.** Every byte was received, the
thread is back in `epoll_wait`, nothing more arrives, and the second frame is
complete in the buffer. -/
theorem second_frame_stranded :
    let ls : List (SessionLabel Reference.libraries.arrow.Table) :=
      [.loopTest, .arrive (frame [0x30, 0x0A, 0x02, 0x01, 5, 0xA7, 5, 0x30, 3, 4, 1, 0x2F] ++
          frame [0x30, 0x0A, 0x02, 0x01, 6, 0xA7, 5, 0x30, 3, 4, 1, 0x2F]),
        .epollWait (.event true false), .recvTest,
        .recv (.bytes (frame [0x30, 0x0A, 0x02, 0x01, 5, 0xA7, 5, 0x30, 3, 4, 1, 0x2F] ++
          frame [0x30, 0x0A, 0x02, 0x01, 6, 0xA7, 5, 0x30, 3, 4, 1, 0x2F])),
        .recvTest, .recv .again, .cutFrame, .dispatch, .loopTest]
    Along (step Reference.libraries .server 7) Open {} ls ∧
      ¬ Throughout (step Reference.libraries .server 7) (NoneStranded 7) {} ls := by
  intro ls
  refine ⟨by decide, fun h => ?_⟩
  obtain ⟨t, hrun, hwait, hkernel, hbuf⟩ : ∃ t, run (step Reference.libraries .server 7) {} ls =
      some t ∧ t.receiver = .waiting ∧ t.kernel = [] ∧ t.buffer 7 =
        frame [0x30, 0x0A, 0x02, 0x01, 6, 0xA7, 5, 0x30, 3, 4, 1, 0x2F] :=
    ⟨_, rfl, rfl, rfl, rfl⟩
  have hnone := (h.last hrun hwait hkernel).1
  rw [hbuf] at hnone
  exact absurd hnone (by decide)

end SessionController
end Ttp2
