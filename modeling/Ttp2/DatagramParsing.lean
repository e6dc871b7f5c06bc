import Ttp2.FrameExtraction
import Ttp2.ReceiveSession
import Ttp2.Reference.Documented

/-! # How far `receivePacketFrom` reads

The length prefix of a datagram is taken at its word: `receivePacketFrom` has
neither of the two guards of `cutFrame`. It stays inside the datagram exactly
when the prefix announces no more than what follows it, which is when a frame
can be taken off the front. -/
namespace Ttp2
open Lib Octets Framing Lts

namespace UdpNetworking

/-- The iterators `derBuffer` is built from: behind the size, and as many bytes
further as the size says. -/
def derBuffer (buffer : Bytes) : Option Bytes := do
  let networkSize ← TcpNetworking.range buffer 0 4
  let derLen := ofBe networkSize
  TcpNetworking.range buffer 4 (4 + derLen)

theorem decodeDatagram_eq (L : Libraries) (buffer : Bytes) :
    decodeDatagram L buffer = (derBuffer buffer).map (Decode.decode L) := by
  unfold decodeDatagram derBuffer
  cases TcpNetworking.range buffer 0 4 with
  | none => rfl
  | some networkSize => cases h : TcpNetworking.range buffer 4 (4 + ofBe networkSize) <;> simp [h]

/-- The announced length does not exceed what follows it. A datagram of fewer
than four bytes announces nothing. -/
def AnnouncesWithin (bytes : Bytes) : Prop := 4 + ofBe (bytes.take 4) ≤ bytes.length

instance (bytes : Bytes) : Decidable (AnnouncesWithin bytes) := inferInstanceAs (Decidable (_ ≤ _))

theorem range_eq_some {buffer bytes : Bytes} {first last : Nat}
    (h : TcpNetworking.range buffer first last = some bytes) :
    (first ≤ last ∧ last ≤ buffer.length) ∧ bytes = (buffer.drop first).take (last - first) := by
  unfold TcpNetworking.range at h
  split at h
  · rename_i hinside
    exact ⟨hinside, (Option.some.inj h).symm⟩
  · cases h

theorem derBuffer_eq_some {buffer body : Bytes} :
    derBuffer buffer = some body ↔
      AnnouncesWithin buffer ∧ body = (buffer.drop 4).take (ofBe (buffer.take 4)) := by
  constructor
  · intro h
    obtain ⟨networkSize, hsize, hbody⟩ := Option.bind_eq_some_iff.mp h
    obtain ⟨-, rfl⟩ := range_eq_some hsize
    obtain ⟨⟨-, hlast⟩, rfl⟩ := range_eq_some hbody
    rw [Nat.sub_zero, List.drop_zero] at hlast
    exact ⟨hlast, by rw [Nat.sub_zero, List.drop_zero, Nat.add_sub_cancel_left]⟩
  · rintro ⟨hwithin, rfl⟩
    have hlen : 4 ≤ buffer.length := Nat.le_trans (Nat.le_add_right 4 _) hwithin
    unfold derBuffer TcpNetworking.range
    rw [if_pos ⟨Nat.zero_le 4, hlen⟩, List.drop_zero, Nat.sub_zero, Option.bind_eq_bind,
      Option.bind_some, if_pos ⟨Nat.le_add_right 4 _, hwithin⟩, Nat.add_sub_cancel_left]

theorem derBuffer_eq_takeFrame (buffer : Bytes) :
    derBuffer buffer = (takeFrame buffer).map Prod.fst := by
  unfold takeFrame
  dsimp only
  by_cases hwithin : AnnouncesWithin buffer
  · have hlen : ¬ buffer.length < 4 := by
      unfold AnnouncesWithin at hwithin
      omega
    rw [derBuffer_eq_some.mpr ⟨hwithin, rfl⟩, if_neg hlen, if_neg (Nat.not_lt.mpr hwithin)]
    rfl
  · have hnone : derBuffer buffer = none :=
      Option.eq_none_iff_forall_ne_some.mpr fun body h => hwithin (derBuffer_eq_some.mp h).1
    rw [hnone, if_pos (Nat.not_le.mp hwithin), ite_self]
    rfl

/-- Of the same bytes the TCP parser cuts off the same body; where the datagram
parser reads beyond them, its guards leave them alone. -/
theorem cutFrame_eq_derBuffer (buffer : Bytes) :
    (TcpNetworking.cutFrame buffer).map Prod.fst = some (derBuffer buffer) := by
  rw [TcpNetworking.cutFrame_eq, derBuffer_eq_takeFrame]
  cases takeFrame buffer <;> rfl

/-- Every byte that is read lies in the datagram, and the body handed to
`decode` is the announced number of bytes behind the prefix. -/
def ParsedInside (L : Libraries) (d : UdpDatagram) : Prop :=
  receivePacketFrom L (some d) (some d) ≠ .undefined ∧
    ∃ size body rest, d.bytes = size ++ body ++ rest ∧ size.length = 4 ∧
      body.length = ofBe size ∧ derBuffer d.bytes = some body

theorem receivePacketFrom_undefined_iff (L : Libraries) (d : UdpDatagram) :
    receivePacketFrom L (some d) (some d) = .undefined ↔ derBuffer d.bytes = none := by
  rw [receivePacketFrom_self, decodeDatagram_eq]
  cases derBuffer d.bytes with
  | none => simp
  | some body => cases h : Decode.decode L body <;> simp [h]

/-- **When the datagram parser stays inside.** -/
theorem parsed_inside_iff (L : Libraries) (d : UdpDatagram) :
    ParsedInside L d ↔ AnnouncesWithin d.bytes := by
  constructor
  · rintro ⟨-, size, body, rest, -, -, -, hbody⟩
    exact (derBuffer_eq_some.mp hbody).1
  · intro hwithin
    have hbody := derBuffer_eq_some.mpr ⟨hwithin, rfl⟩
    refine ⟨?_, d.bytes.take 4, _, d.bytes.drop (4 + ofBe (d.bytes.take 4)), ?_, ?_, ?_, hbody⟩
    · rw [ne_eq, receivePacketFrom_undefined_iff, hbody]
      intro h
      cases h
    · rw [List.append_assoc, ← List.drop_drop, List.take_append_drop, List.take_append_drop]
    · rw [List.length_take]
      unfold AnnouncesWithin at hwithin
      omega
    · rw [List.length_take, List.length_drop]
      unfold AnnouncesWithin at hwithin
      omega

/-- Five bytes are announced, one follows. -/
theorem reads_beyond : ¬ ∀ d, ParsedInside Reference.libraries d := by
  intro h
  obtain ⟨-, _, body, _, -, -, -, hbody⟩ := h
    { source := ⟨.quad 10 0 0 1, 4000⟩, destination := ⟨.quad 10 0 0 2, 5000⟩
      bytes := [0, 0, 0, 5, 0x30] }
  exact absurd (derBuffer_eq_some.mp hbody).1 (by decide)

end UdpNetworking

/-! ## Over whole runs -/

namespace ReceiveSession
open UdpNetworking
variable {T : Type}

/-- The prefix of a datagram that is read stays inside it. -/
def ReadsWithin (s : ReceiveSession T) : ReceiveLabel → Prop
  | .receivePacketFrom true true => ∀ d ∈ s.socket.head?, AnnouncesWithin d.bytes
  | _ => True

instance (s : ReceiveSession T) : (l : ReceiveLabel) → Decidable (ReadsWithin s l)
  | .receivePacketFrom true true =>
    match h : s.socket.head? with
    | none => isTrue (by simp [ReadsWithin, h])
    | some d => decidable_of_iff (AnnouncesWithin d.bytes) (by simp [ReadsWithin, h])
  | .receivePacketFrom true false | .receivePacketFrom false _ | .arrive _ | .loopTest
  | .epollWait _ | .endIteration | .popReceivedPacket | .readIp _ | .hasPacket _ | .disconnect =>
    isTrue trivial

theorem decodeDatagram_eq_none {L : Libraries} {buffer : Bytes} :
    decodeDatagram L buffer = none ↔ ¬ AnnouncesWithin buffer := by
  rw [decodeDatagram_eq, Option.map_eq_none_iff]
  constructor
  · intro hnone hwithin
    rw [derBuffer_eq_some.mpr ⟨hwithin, rfl⟩] at hnone
    cases hnone
  · intro hbeyond
    exact Option.eq_none_iff_forall_ne_some.mpr fun body h => hbeyond (derBuffer_eq_some.mp h).1

theorem readsWithin_of_some {L : Libraries} {s : ReceiveSession T} {d : UdpDatagram}
    {rest : List UdpDatagram} (hq : s.socket = d :: rest)
    {r : Except InvalidArgument (Packet L.arrow.Table)} (hd : decodeDatagram L d.bytes = some r) :
    s.ReadsWithin (.receivePacketFrom true true) := by
  intro e he
  obtain rfl : d = e := by simpa [hq] using he
  by_contra hbeyond
  rw [decodeDatagram_eq_none.mpr hbeyond] at hd
  cases hd

/-- **The receive thread reads beyond no datagram**, in any run, exactly if
every datagram that it reads announces no more than it carries. -/
theorem never_undefined_iff (L : Libraries) (address : Address) (ls : List ReceiveLabel)
    (t : ReceiveSession L.arrow.Table) (hrun : run (step L address) {} ls = some t) :
    Throughout (step L address) (fun s => s.pc ≠ .undefined) {} ls ↔
      Along (step L address) ReadsWithin {} ls := by
  have henv : Along (step L address) (fun _ _ => True) {} ls :=
    Along.of_forall (fun _ _ => trivial) _ _
  refine throughout_iff_along (I := fun s => s.pc ≠ .undefined) id ?_ ?_ (by simp) henv hrun
  · intro s l t h _ hok hs
    cases moves_of_step hs with
    | loopTest hpc =>
      dsimp only
      split <;> exact nofun
    | undefined d rest hpc hq hd =>
      exact absurd (hok d (by rw [hq]; rfl)) (decodeDatagram_eq_none.mp hd)
    | _ => first | exact h | exact nofun
  · intro s l t h _ hbad hs hdefined
    cases moves_of_step hs with
    | failed peeks consumes hpc hfails =>
      refine hbad ?_
      cases peeks <;> cases consumes <;> first | exact trivial | simp [ReadsWithin, hfails]
    | received d rest packet hpc hq hd => exact hbad (readsWithin_of_some hq hd)
    | threw d rest e hpc hq hd => exact hbad (readsWithin_of_some hq hd)
    | undefined d rest hpc hq hd => exact hdefined rfl
    | unchanged l hl =>
      rcases hl with rfl | ⟨answer, rfl⟩
      · exact hbad trivial
      · exact hbad trivial
    | _ => exact hbad trivial

/-- A packet with bytes behind it, and a read that fails with the next datagram in front. -/
theorem never_undefined_iff_rest :
    Throughout (step Reference.libraries ⟨.quad 10 0 0 2, 9000⟩) (fun s => s.pc ≠ .undefined) {}
      [.arrive { source := ⟨.quad 10 0 0 1, 40000⟩, destination := ⟨.quad 10 0 0 2, 9000⟩
                 bytes := frame [0x30, 0x0A, 0x02, 0x01, 5, 0xA7, 5, 0x30, 3, 4, 1, 0x2F] ++ [0] },
        .loopTest, .epollWait true, .receivePacketFrom true true, .endIteration,
        .arrive { source := ⟨.quad 10 0 0 1, 40000⟩, destination := ⟨.quad 10 0 0 2, 9000⟩
                  bytes := [0, 0, 0, 5, 0x30] },
        .loopTest, .epollWait true, .receivePacketFrom true false] :=
  (never_undefined_iff Reference.libraries ⟨.quad 10 0 0 2, 9000⟩ _ _ rfl).mpr (by decide)

end ReceiveSession
end Ttp2
