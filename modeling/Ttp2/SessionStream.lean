import Ttp2.SessionController
import Ttp2.Encodings

/-! # What flows through a session

In every state of a session the bytes that arrived are the frames handed to
`decode`, the session buffer and the kernel's queue, and the packets the
receive thread pushed are those frames decoded (`Received`); the bytes sent
and still to be sent are the frames of the packets taken (`Sent`). -/
namespace Ttp2
open Lib Octets Framing Lts TcpNetworking

theorem Role.sends_ne_receives (role : Role) : role.sends ≠ role.receives := by
  cases role <;> decide

/-! ## The receiving side -/

namespace SessionController

/-- The packet on its way from `receiveMessage` to the queue. -/
def pending {T : Type} : ReceiverPc T → List (Packet T)
  | .received packet => if packet.id = -1 then [] else [packet]
  | _ => []

/-- The packets a list of bodies brings to the queue. -/
def packetsOf (L : Libraries) (bodies : List Bytes) : List (Packet L.arrow.Table) :=
  (bodies.map (decodeOrEmpty L)).filter (·.id ≠ -1)

structure Received (L : Libraries) (role : Role) (socket : Int)
    (s : SessionController L.arrow.Table) : Prop where
  bytes : s.hungUp = false → s.arrived = frames s.decoded ++ s.buffer socket ++ s.kernel
  fits : Fits s.decoded
  queue : s.delivered = s.popped ++ s.net.queue role.receives
  delivered : s.delivered ++ pending s.receiver = packetsOf L s.decoded

/-- `recv` delivers the next bytes of the kernel's queue. -/
def Genuine {T : Type} (s : SessionController T) : SessionLabel T → Prop
  | .recv (.bytes temp) => temp <+: s.kernel
  | _ => True

variable {L : Libraries} {role : Role} {socket : Int} {s t : SessionController L.arrow.Table}
  {l : SessionLabel L.arrow.Table}

theorem Received.init : Received L role socket {} where
  bytes := fun _ => rfl
  fits := fits_nil
  queue := by cases role <;> rfl
  delivered := rfl

/-- A step that keeps the bytes, the bodies and the queue keeps the invariant
if the packet on its way stays the same. -/
theorem Received.of_same (h : Received L role socket s) (hup : t.hungUp = false → s.hungUp = false)
    (harr : t.arrived = s.arrived) (hdec : t.decoded = s.decoded)
    (hbuf : t.hungUp = false → t.buffer socket = s.buffer socket) (hker : t.kernel = s.kernel)
    (hdel : t.delivered = s.delivered) (hpop : t.popped = s.popped)
    (hq : t.net.queue role.receives = s.net.queue role.receives)
    (hpend : pending t.receiver = pending s.receiver) : Received L role socket t where
  bytes := by
    intro ht
    rw [harr, hdec, hbuf ht, hker]
    exact h.bytes (hup ht)
  fits := hdec ▸ h.fits
  queue := by rw [hdel, hpop, hq, h.queue]
  delivered := by rw [hdel, hpend, hdec, h.delivered]

theorem packetsOf_concat (bodies : List Bytes) (body : Bytes) :
    packetsOf L (bodies ++ [body]) =
      packetsOf L bodies ++ pending (.received (decodeOrEmpty L body)) := by
  simp only [packetsOf, pending, List.map_append, List.map_cons, List.map_nil, List.filter_append]
  by_cases hid : (decodeOrEmpty L body).id = -1
  · simp [hid]
  · simp [hid]

theorem Received.step (h : Received L role socket s) (hok : Genuine s l)
    (hs : step L role socket s l = some t) : Received L role socket t := by
  have hne := role.sends_ne_receives
  cases moves_of_step hs with
  | arrive bytes =>
    refine ⟨fun hup => ?_, h.fits, h.queue, h.delivered⟩
    show s.arrived ++ bytes = frames s.decoded ++ s.buffer socket ++ (s.kernel ++ bytes)
    rw [h.bytes hup, List.append_assoc]
  | fin => exact h.of_same id rfl rfl (fun _ => rfl) rfl rfl rfl rfl rfl
  | loopTest hr =>
    refine h.of_same id rfl rfl (fun _ => rfl) rfl rfl rfl rfl ?_
    dsimp only
    rw [hr]
    split <;> rfl
  | epollError _ pc hr hpc =>
    refine h.of_same id rfl rfl (fun _ => rfl) rfl rfl rfl rfl ?_
    rw [hr]
    rcases hpc with rfl | rfl <;> rfl
  | timeout hr =>
    refine h.of_same id rfl rfl (fun _ => rfl) rfl rfl rfl rfl ?_
    rw [hr]
    rfl
  | hangUp _ hr =>
    refine h.of_same (fun ht => absurd ht (by simp [SessionController.hangUp])) rfl rfl
      (fun ht => absurd ht (by simp [SessionController.hangUp])) rfl rfl rfl ?_ ?_
    · cases role <;> rfl
    · rw [hr]
      cases role <;> rfl
  | event readable hr =>
    refine h.of_same id rfl rfl (fun _ => rfl) rfl rfl rfl rfl ?_
    dsimp only
    rw [hr]
    split <;> rfl
  | hangUpDisconnect hr =>
    refine h.of_same id rfl rfl (fun _ => rfl) rfl rfl rfl ?_ ?_
    · cases role <;> rfl
    · rw [hr]
      rfl
  | recvTest hr =>
    refine h.of_same id rfl rfl (fun _ => rfl) rfl rfl rfl rfl ?_
    dsimp only
    rw [hr]
    split <;> rfl
  | recvBytes temp hr =>
    obtain ⟨rest, hrest⟩ : temp <+: s.kernel := hok
    refine ⟨fun hup => ?_, h.fits, ?_, ?_⟩
    · show s.arrived = frames s.decoded ++ (s.net.insert socket temp).sessionBuffers socket ++
        s.kernel.drop temp.length
      rw [h.bytes hup, insert_buffer, ← hrest, List.drop_left]
      simp [buffer]
    · rw [h.queue]
      cases role <;> rfl
    · rw [← h.delivered, hr]
      rfl
  | recvAgain hr =>
    refine h.of_same id rfl rfl (fun _ => rfl) rfl rfl rfl rfl ?_
    rw [hr]
    rfl
  | recvError hr =>
    refine h.of_same id rfl rfl (fun _ => rfl) rfl rfl rfl rfl ?_
    rw [hr]
    rfl
  | recvClosed hr =>
    refine h.of_same id rfl rfl (fun _ => rfl) rfl rfl rfl ?_ ?_
    · cases role <;> rfl
    · rw [hr]
      rfl
  | cutNothing hr hcut =>
    refine h.of_same id rfl rfl (fun _ => rfl) rfl rfl rfl rfl ?_
    rw [hr]
    rfl
  | cutBody body rest hr hcut =>
    obtain ⟨hsplit, hlt⟩ := takeFrame_eq_some hcut
    have hdel := h.delivered
    rw [hr] at hdel
    refine ⟨fun hup => ?_, h.fits.append (by simpa [Fits] using hlt), ?_, ?_⟩
    · show s.arrived = frames (s.decoded ++ [body]) ++
        (s.net.setBuffer socket rest).sessionBuffers socket ++ s.kernel
      rw [h.bytes hup, hsplit, setBuffer_buffer, frames_append]
      simp [frames]
    · rw [h.queue]
      cases role <;> rfl
    · show s.delivered ++ _ = packetsOf L (s.decoded ++ [body])
      rw [packetsOf_concat, ← hdel]
      simp [pending]
  | skip packet hr hid =>
    refine h.of_same id rfl rfl (fun _ => rfl) rfl rfl rfl rfl ?_
    rw [hr]
    simp [pending, hid]
  | deliver packet hr hid =>
    refine ⟨fun hup => ?_, h.fits, ?_, ?_⟩
    · show s.arrived = frames s.decoded ++
        (s.net.push role.receives packet).sessionBuffers socket ++ s.kernel
      rw [h.bytes hup, TcpNetworking.push, sessionBuffers_setQueue]
      rfl
    · show s.delivered ++ [packet] = s.popped ++ (s.net.push role.receives packet).queue _
      rw [TcpNetworking.push, queue_setQueue, h.queue, List.append_assoc]
    · rw [← h.delivered, hr]
      simp [pending, hid]
  | sendTest hsnd => exact h.of_same id rfl rfl (fun _ => rfl) rfl rfl rfl rfl rfl
  | takeUndefined hsnd hq hc => exact h.of_same id rfl rfl (fun _ => rfl) rfl rfl rfl rfl rfl
  | take packet rest hsnd hq =>
    refine h.of_same id rfl rfl (fun _ => ?_) rfl rfl rfl ?_ rfl
    · exact congrArg (· socket) (sessionBuffers_setQueue s.net role.sends rest)
    · exact Eq.trans (by cases role <;> rfl) (queue_setQueue_ne s.net rest hne.symm)
  | send result sending out next hsnd hsend =>
    exact h.of_same id rfl rfl (fun _ => rfl) rfl rfl rfl rfl rfl
  | push packet =>
    refine h.of_same id rfl rfl (fun _ => ?_) rfl rfl rfl ?_ rfl
    · exact congrArg (· socket) (sessionBuffers_setQueue s.net role.sends _)
    · exact queue_setQueue_ne s.net _ hne.symm
  | pop packet rest hq =>
    refine ⟨fun hup => ?_, h.fits, ?_, h.delivered⟩
    · show s.arrived = frames s.decoded ++
        (s.net.setQueue role.receives rest).sessionBuffers socket ++ s.kernel
      rw [h.bytes hup, sessionBuffers_setQueue]
      rfl
    · show s.delivered = s.popped ++ [packet] ++ (s.net.setQueue role.receives rest).queue _
      rw [queue_setQueue, h.queue, hq]
      simp
  | disconnect =>
    refine h.of_same id rfl rfl (fun _ => rfl) rfl rfl rfl ?_ rfl
    cases role <;> rfl

/-! ## The sending side -/

/-- The bytes of a running `sendMessage` that `send` has not accepted yet. -/
def unsent : SenderPc → Bytes
  | .sending s => s.remaining
  | _ => []

structure Sent (L : Libraries) (role : Role) (s : SessionController L.arrow.Table) : Prop where
  queue : s.submitted = s.taken ++ s.net.queue role.sends
  autoId : s.net.autoId = (encodings L s.taken).2
  wire : s.wire ++ unsent s.sender = frames (encodings L s.taken).1

/-- No call of `send` fails. -/
def Accepting {T : Type} (_ : SessionController T) : SessionLabel T → Prop
  | .send .failed => False
  | _ => True

theorem Sent.init : Sent L role {} where
  queue := by cases role <;> rfl
  autoId := rfl
  wire := rfl

/-- A step that does not touch the send thread keeps the invariant. -/
theorem Sent.of_same (h : Sent L role s) (hsub : t.submitted = s.submitted)
    (htak : t.taken = s.taken) (hwire : t.wire = s.wire) (hsnd : unsent t.sender = unsent s.sender)
    (hq : t.net.queue role.sends = s.net.queue role.sends) (hid : t.net.autoId = s.net.autoId) :
    Sent L role t where
  queue := by rw [hsub, htak, hq, h.queue]
  autoId := by rw [hid, htak, h.autoId]
  wire := by rw [hwire, hsnd, htak, h.wire]

theorem unsent_ofNext (next : Option Sending) :
    unsent (.ofNext next) = (next.map Sending.remaining).getD [] := by
  cases next <;> rfl

theorem Sent.step (h : Sent L role s) (hok : Accepting s l)
    (hs : step L role socket s l = some t) : Sent L role t := by
  have hne := role.sends_ne_receives
  cases moves_of_step hs with
  | deliver packet hr hid =>
    exact h.of_same rfl rfl rfl rfl (queue_setQueue_ne s.net _ hne) (autoId_setQueue s.net _ _)
  | sendTest hsnd =>
    refine h.of_same rfl rfl rfl ?_ rfl rfl
    dsimp only
    rw [hsnd]
    split <;> rfl
  | takeUndefined hsnd hq hc =>
    refine h.of_same rfl rfl rfl ?_ rfl rfl
    rw [hsnd]
    rfl
  | take packet rest hsnd hq =>
    have hwire := h.wire
    rw [hsnd] at hwire
    have hbefore : s.wire = frames (encodings L s.taken).1 :=
      (List.append_nil _).symm.trans hwire
    refine ⟨?_, ?_, ?_⟩
    · show s.submitted = s.taken ++ [packet] ++ TcpNetworking.queue _ role.sends
      have hrest : (TcpNetworking.queue { s.net.setQueue role.sends rest with
          autoId := (assignId s.net.autoId packet.id).2 } role.sends) = rest := by
        cases role <;> rfl
      rw [hrest, h.queue, hq, List.append_assoc, List.singleton_append]
    · show (assignId s.net.autoId packet.id).2 = (encodings L (s.taken ++ [packet])).2
      rw [encodings_concat, h.autoId]
      rcases encodeNext_cases (encodings L s.taken) packet with ⟨buffer, -, hnext⟩ | ⟨e, -, hnext⟩
      · rw [hnext]
      · rw [hnext]
    · show s.wire ++ unsent (.ofEncoded (Encode.encode L packet.payload
        (assignId s.net.autoId packet.id).1)) = frames (encodings L (s.taken ++ [packet])).1
      rw [encodings_concat, h.autoId, hbefore]
      rcases encodeNext_cases (encodings L s.taken) packet with
        ⟨buffer, he, hnext⟩ | ⟨e, he, hnext⟩
      · rw [hnext, he, frames_append]
        show _ ++ (Sending.start buffer).remaining = _ ++ frames [buffer]
        rw [Sending.remaining_start]
        simp [frames]
      · rw [hnext, he]
        cases e <;> exact List.append_nil _
  | send result sending out next hsnd hsend =>
    cases result with
    | failed => exact absurd hok id
    | accepted sent =>
      have hwire := h.wire
      rw [hsnd] at hwire
      refine ⟨h.queue, h.autoId, ?_⟩
      show s.wire ++ out ++ unsent (.ofNext next) = frames (encodings L s.taken).1
      rw [unsent_ofNext, List.append_assoc, Sending.send_accepted hsend, ← hwire]
      rfl
  | push packet =>
    refine ⟨?_, ?_, h.wire⟩
    · show s.submitted ++ [packet] = s.taken ++ (s.net.push role.sends packet).queue _
      rw [TcpNetworking.push, queue_setQueue, h.queue, List.append_assoc]
    · exact (autoId_setQueue s.net _ _).trans h.autoId
  | pop packet rest hq =>
    exact h.of_same rfl rfl rfl rfl (queue_setQueue_ne s.net _ hne) (autoId_setQueue s.net _ _)
  -- the other steps are the receive thread's, the network's and `disconnect`
  | _ => exact h.of_same rfl rfl rfl rfl (by cases role <;> rfl) rfl

end SessionController
end Ttp2
