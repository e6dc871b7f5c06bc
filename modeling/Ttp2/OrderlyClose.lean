import Ttp2.FrameStranding

/-! # The peer's close, and the frames before it

The peer sends the frames of `bodies` and closes. What is in the session
buffer when `recv` returns 0, and what is in the buffer and in the kernel's
queue when the hang-up branch is taken, is dropped: every frame before the
close is delivered exactly if neither holds a complete frame then. -/
namespace Ttp2
open Lib Octets Framing Lts TcpNetworking

namespace SessionController

/-- The connection carries the frames of `bodies` and then the peer's close:
`recv` returns 0 once everything was received, a hang-up is reported once the
end of the stream has arrived, and a closed descriptor reports nothing. -/
def Closing {T : Type} (bodies : List Bytes) (s : SessionController T) : SessionLabel T → Prop
  | .arrive bytes => s.arrived ++ bytes <+: frames bodies
  | .fin => s.arrived = frames bodies
  | .epollWait (.event _ true) => s.fin = true ∧ s.hungUp = false
  | .recv (.bytes temp) => temp ≠ [] ∧ temp.length ≤ 4096 ∧ temp <+: s.kernel
  | .recv .closed => s.fin = true ∧ s.kernel = [] ∧ s.hungUp = false
  | _ => True

/-- Nothing complete is dropped: not with the buffer at the end of the stream,
not with the buffer and the kernel's queue at a hang-up. -/
def NothingDropped {T : Type} (socket : Int) (s : SessionController T) : SessionLabel T → Prop
  | .recv .closed => takeFrame (s.buffer socket) = none
  | .epollWait (.event _ true) => takeFrame (s.buffer socket ++ s.kernel) = none
  | _ => True

instance {T : Type} (bodies : List Bytes) (s : SessionController T) :
    (l : SessionLabel T) → Decidable (Closing bodies s l)
  | .arrive bytes => inferInstanceAs (Decidable (s.arrived ++ bytes <+: frames bodies))
  | .fin => inferInstanceAs (Decidable (s.arrived = frames bodies))
  | .epollWait (.event _ true) => inferInstanceAs (Decidable (_ ∧ _))
  | .recv (.bytes _) | .recv .closed => inferInstanceAs (Decidable (_ ∧ _ ∧ _))
  | .loopTest | .epollWait (.event _ false) | .epollWait (.error _) | .epollWait .timeout
  | .hangUpDisconnect | .recvTest | .recv .again | .recv .error | .cutFrame | .dispatch | .sendTest
  | .take | .send _ | .push _ | .pop | .disconnect => inferInstanceAs (Decidable True)

instance {T : Type} (socket : Int) (s : SessionController T) :
    (l : SessionLabel T) → Decidable (NothingDropped socket s l)
  | .recv .closed => inferInstanceAs (Decidable (takeFrame (s.buffer socket) = none))
  | .epollWait (.event _ true) =>
    inferInstanceAs (Decidable (takeFrame (s.buffer socket ++ s.kernel) = none))
  | .arrive _ | .fin | .loopTest | .epollWait (.event _ false) | .epollWait (.error _)
  | .epollWait .timeout | .hangUpDisconnect | .recvTest | .recv (.bytes _) | .recv .again
  | .recv .error | .cutFrame | .dispatch | .sendTest | .take | .send _ | .push _ | .pop
  | .disconnect => inferInstanceAs (Decidable True)

/-- The bodies are packets other than the sentinel. -/
def WellFormed (L : Libraries) (bodies : List Bytes) : Prop :=
  ∀ body ∈ bodies, ∃ packet, Decode.decode L body = .ok packet ∧ packet.id ≠ -1

/-- **Every frame before the close is delivered**: once the session is
disconnected, or its descriptor closed, because of the close, the packets of
all bodies have been pushed, in order. -/
def AllDelivered (L : Libraries) (bodies : List Bytes) (s : SessionController L.arrow.Table) :
    Prop :=
  s.ended = true → bodies.map (decodeOrEmpty L) <+: s.delivered

variable {L : Libraries} {role : Role} {socket : Int} {s t : SessionController L.arrow.Table}
  {l : SessionLabel L.arrow.Table} {bodies : List Bytes}

theorem packetsOf_wellFormed (h : WellFormed L bodies) :
    packetsOf L bodies = bodies.map (decodeOrEmpty L) := by
  refine List.filter_eq_self.mpr ?_
  intro packet hp
  obtain ⟨body, hb, rfl⟩ := List.mem_map.mp hp
  obtain ⟨packet, hdec, hid⟩ := h body hb
  simpa [decodeOrEmpty, hdec] using hid

structure ClosingInvariant (L : Libraries) (role : Role) (socket : Int) (bodies : List Bytes)
    (s : SessionController L.arrow.Table) : Prop where
  received : Received L role socket s
  arrived : s.arrived <+: frames bodies
  fin : s.fin = true → s.arrived = frames bodies
  delivered : AllDelivered L bodies s

theorem Closing.genuine (h : Closing bodies s l) : Genuine s l := by
  cases l with
  | recv answer =>
    cases answer with
    | bytes temp => exact h.2.2
    | again => trivial
    | error => trivial
    | closed => trivial
  | _ => trivial

/-- Steps only ever add to what was delivered. -/
theorem delivered_mono (hs : step L role socket s l = some t) : s.delivered <+: t.delivered := by
  cases moves_of_step hs with
  | deliver packet hr hid => exact List.prefix_append _ _
  | _ => exact List.prefix_rfl

/-- Only the two branches end the session because of the close, and only they
can drop anything. -/
theorem ended_same (hs : step L role socket s l = some t) (hclosed : l ≠ .recv .closed)
    (hup : ∀ readable, l ≠ .epollWait (.event readable true)) :
    t.ended = s.ended ∧ NothingDropped socket s l := by
  cases moves_of_step hs with
  | recvClosed hr => exact absurd rfl hclosed
  | hangUp readable hr => exact absurd rfl (hup readable)
  | _ => exact ⟨rfl, trivial⟩

theorem ClosingInvariant.arrived_step (h : ClosingInvariant L role socket bodies s)
    (henv : Closing bodies s l) (hs : step L role socket s l = some t) :
    t.arrived <+: frames bodies ∧ (t.fin = true → t.arrived = frames bodies) := by
  cases moves_of_step hs with
  | arrive bytes hfin =>
    refine ⟨henv, fun hf => ?_⟩
    rw [hfin] at hf
    cases hf
  | fin => exact ⟨h.arrived, fun _ => henv⟩
  | _ => exact ⟨h.arrived, h.fin⟩

/-- At either end, the bodies decoded are the first ones, and all of them
exactly if the bytes left over hold no complete frame. -/
theorem ClosingInvariant.decoded (h : ClosingInvariant L role socket bodies s)
    (hfits : Fits bodies) (hup : s.hungUp = false) (hfin : s.fin = true) :
    s.decoded = bodies.take s.decoded.length ∧
      (takeFrame (s.buffer socket ++ s.kernel) = none ↔ s.decoded = bodies) := by
  have hbytes := h.received.bytes hup
  rw [h.fin hfin, List.append_assoc] at hbytes
  have hsplit : frames s.decoded ++ (s.buffer socket ++ s.kernel) = frames bodies ++ [] := by
    rw [List.append_nil]
    exact hbytes.symm
  obtain ⟨htake, hrest⟩ := frames_split h.received.fits hfits takeFrame_nil hsplit
  refine ⟨htake, fun hnone => (frames_unique h.received.fits hfits hnone takeFrame_nil hsplit).1, ?_⟩
  rintro rfl
  rw [hrest, List.drop_length]
  rfl

/-- What the receive thread has delivered when it is at `recv` or waits. -/
theorem Received.delivered_idle (h : Received L role socket s)
    (hr : s.receiver = .recv ∨ s.receiver = .waiting) : s.delivered = packetsOf L s.decoded := by
  have hdel := h.delivered
  rcases hr with hr | hr
  · rw [hr] at hdel
    exact (List.append_nil _).symm.trans hdel
  · rw [hr] at hdel
    exact (List.append_nil _).symm.trans hdel

/-- In the state a close is noticed in, all is delivered exactly if nothing
complete is left over. -/
theorem ClosingInvariant.at_end (h : ClosingInvariant L role socket bodies s)
    (hfits : Fits bodies) (hwf : WellFormed L bodies) (hup : s.hungUp = false)
    (hfin : s.fin = true) (hr : s.receiver = .recv ∨ s.receiver = .waiting) :
    takeFrame (s.buffer socket ++ s.kernel) = none ↔
      bodies.map (decodeOrEmpty L) <+: s.delivered := by
  obtain ⟨htake, hiff⟩ := h.decoded hfits hup hfin
  rw [hiff, h.received.delivered_idle hr]
  constructor
  · intro heq
    rw [heq, packetsOf_wellFormed hwf]
  · intro hpre
    -- there are no more packets than decoded bodies, so the decoded ones are all there are
    have hlen := hpre.length_le
    have hfilter := List.length_filter_le (fun p : Packet L.arrow.Table => decide (p.id ≠ -1))
      (s.decoded.map (decodeOrEmpty L))
    change (packetsOf L s.decoded).length ≤ _ at hfilter
    rw [List.length_map] at hlen hfilter
    rw [htake, List.take_of_length_le (by omega)]

/-- **A step keeps all frames delivered exactly if it drops none.** -/
theorem allDelivered_step (hfits : Fits bodies) (hwf : WellFormed L bodies)
    (h : ClosingInvariant L role socket bodies s) (henv : Closing bodies s l)
    (hs : step L role socket s l = some t) :
    AllDelivered L bodies t ↔ NothingDropped socket s l := by
  by_cases hclosed : l = .recv .closed
  · subst hclosed
    cases moves_of_step hs with
    | recvClosed hr =>
      have hend := h.at_end hfits hwf henv.2.2 henv.1 (.inl hr)
      rw [henv.2.1, List.append_nil] at hend
      exact Iff.trans ⟨fun ha => ha rfl, fun hp _ => hp⟩ hend.symm
  by_cases hup : ∃ readable, l = .epollWait (.event readable true)
  · obtain ⟨readable, rfl⟩ := hup
    cases moves_of_step hs with
    | hangUp readable hr =>
      have hend := h.at_end hfits hwf henv.2 henv.1 (.inr hr)
      exact Iff.trans ⟨fun ha => ha rfl, fun hp _ => hp⟩ hend.symm
  · obtain ⟨hended, hnothing⟩ := @ended_same L role socket s t l hs hclosed
      fun readable he => hup ⟨readable, he⟩
    refine ⟨fun _ => hnothing, fun _ ht => ?_⟩
    rw [hended] at ht
    exact (h.delivered ht).trans (delivered_mono hs)

theorem ClosingInvariant.step (hfits : Fits bodies) (hwf : WellFormed L bodies)
    (h : ClosingInvariant L role socket bodies s) (henv : Closing bodies s l)
    (hok : NothingDropped socket s l) (hs : step L role socket s l = some t) :
    ClosingInvariant L role socket bodies t := by
  obtain ⟨harrived, hfin⟩ := h.arrived_step henv hs
  exact ⟨h.received.step henv.genuine hs, harrived, hfin,
    (allDelivered_step hfits hwf h henv hs).mpr hok⟩

/-- **An orderly close** swallows no message exactly in the runs in which
neither the end of the stream nor a hang-up finds a complete frame that was
not decoded. -/
theorem close_swallows_nothing_iff (L : Libraries) (role : Role) (socket : Int)
    (bodies : List Bytes) (hfits : Fits bodies) (hwf : WellFormed L bodies)
    (ls : List (SessionLabel L.arrow.Table)) (t : SessionController L.arrow.Table)
    (henv : Along (SessionController.step L role socket) (Closing bodies) {} ls)
    (hrun : run (SessionController.step L role socket) {} ls = some t) :
    Throughout (SessionController.step L role socket) (AllDelivered L bodies) {} ls ↔
      Along (SessionController.step L role socket) (NothingDropped socket) {} ls := by
  have hinit : ClosingInvariant L role socket bodies {} :=
    ⟨Received.init, List.nil_prefix, fun h => (by cases h), fun h => (by cases h)⟩
  refine throughout_iff_along (I := ClosingInvariant L role socket bodies)
    (fun h => h.delivered) ?_ ?_ hinit henv hrun
  · intro s l t h he hok hs
    exact h.step hfits hwf he hok hs
  · intro s l t h he hbad hs ha
    exact hbad ((allDelivered_step hfits hwf h he hs).mp ha)

/-- A frame taken by one wake-up and the end of the stream seen by the next. -/
theorem close_swallows_nothing_late :
    Throughout (SessionController.step Reference.libraries .client 7)
      (AllDelivered Reference.libraries [[0x30, 0x0A, 0x02, 0x01, 5, 0xA7, 5, 0x30, 3, 4, 1, 0x2F]]) {}
      [.arrive (frame [0x30, 0x0A, 0x02, 0x01, 5, 0xA7, 5, 0x30, 3, 4, 1, 0x2F]), .loopTest,
        .epollWait (.event true false), .recvTest,
        .recv (.bytes (frame [0x30, 0x0A, 0x02, 0x01, 5, 0xA7, 5, 0x30, 3, 4, 1, 0x2F])),
        .recvTest, .recv .again, .cutFrame, .dispatch, .loopTest, .fin,
        .epollWait (.event true false), .recvTest, .recv .closed, .dispatch, .loopTest] := by
  refine (close_swallows_nothing_iff Reference.libraries .client 7
    [[0x30, 0x0A, 0x02, 0x01, 5, 0xA7, 5, 0x30, 3, 4, 1, 0x2F]] (by simp) ?_ _ _
    (by decide) rfl).mpr (by decide)
  intro body hb
  rw [List.mem_singleton.mp hb]
  exact ⟨_, rfl, by decide⟩

/-- **A frame and the close in one wake-up**: the frame is received, the next
`recv` returns 0, and the session is disconnected with nothing delivered. -/
theorem close_swallows_frame :
    let bodies : List Bytes := [[0x30, 0x0A, 0x02, 0x01, 5, 0xA7, 5, 0x30, 3, 4, 1, 0x2F]]
    let ls : List (SessionLabel Reference.libraries.arrow.Table) :=
      [.arrive (frames bodies), .fin, .loopTest, .epollWait (.event true false), .recvTest,
        .recv (.bytes (frames bodies)), .recvTest, .recv .closed]
    Fits bodies ∧ WellFormed Reference.libraries bodies ∧
      Along (SessionController.step Reference.libraries .server 7) (Closing bodies) {} ls ∧
      ¬ Throughout (SessionController.step Reference.libraries .server 7)
        (AllDelivered Reference.libraries bodies) {} ls := by
  intro bodies ls
  refine ⟨by simp [bodies], ?_, by decide, fun h => ?_⟩
  · intro body hb
    rw [List.mem_singleton.mp hb]
    exact ⟨_, rfl, by decide⟩
  · obtain ⟨t, hrun, hended, hnone⟩ : ∃ t,
        run (SessionController.step Reference.libraries .server 7) {} ls = some t ∧
          t.ended = true ∧ t.delivered = [] := ⟨_, rfl, rfl, rfl⟩
    have hpre := (h.last hrun hended).length_le
    rw [hnone] at hpre
    exact absurd hpre (by decide)

end SessionController
end Ttp2
