import Ttp2.TcpNetworking
import Ttp2.Reference.Documented
import Ttp2.Lib.Lts

/-! # `sendMessage` and `sendBytes`, one `send` at a time

`Sending` is a `sendMessage` between two calls of `send`: the buffer of the
running `sendBytes`, how much of it was accepted, and the buffer of the
second `sendBytes` while the first runs. The system of this module makes
calls of `sendMessage` one after another on one socket, with any behaviour
of `send`. -/
namespace Ttp2
open Lib Octets Framing Lts

/-- What a call of `send` returns: how many bytes it accepted, or -1. -/
inductive SendResult where
  | accepted (sent : Nat)
  | failed
  deriving DecidableEq

/-- A running `sendBytes` has bytes left; `next` is the body behind the size. -/
structure Sending where
  buffer : Bytes
  sentBytes : Nat
  next : Option Bytes
  more : sentBytes < buffer.length
  deriving DecidableEq

namespace Sending

/-- `sendBytes` is called; without bytes its loop is not entered. -/
def sendBytes (buffer : Bytes) (next : Option Bytes) : Option Sending :=
  if h : buffer = [] then none
  else some { buffer, sentBytes := 0, next, more := List.length_pos_iff.mpr h }

/-- The size and then the body of an encoded packet. -/
def start (buffer : Bytes) : Sending where
  buffer := toBe 4 buffer.length
  sentBytes := 0
  next := some buffer
  more := by rw [length_toBe]; omega

/-- The running `sendBytes` returns, whatever its result. -/
def returned (s : Sending) : Option Sending := s.next.bind fun buffer => sendBytes buffer none

/-- One call of `send`: what it appends to the stream, and what `sendMessage`
is at then, if it has not returned. -/
def send (s : Sending) : SendResult → Option (Bytes × Option Sending)
  | .failed => some ([], s.returned)
  | .accepted sent =>
    if 0 < sent ∧ s.sentBytes + sent ≤ s.buffer.length then
      some ((s.buffer.drop s.sentBytes).take sent,
        if h : s.sentBytes + sent < s.buffer.length then
          some { s with sentBytes := s.sentBytes + sent, more := h }
        else s.returned)
    else none

/-- The bytes still to be sent. -/
def remaining (s : Sending) : Bytes := s.buffer.drop s.sentBytes ++ s.next.getD []

theorem remaining_start (buffer : Bytes) : (start buffer).remaining = frame buffer := rfl

/-- When the running `sendBytes` returns, the body is what remains. -/
theorem remaining_returned (s : Sending) :
    ((s.returned).map remaining).getD [] = s.next.getD [] := by
  unfold returned
  cases hn : s.next with
  | none => rfl
  | some buffer =>
    by_cases hb : buffer = []
    · subst hb
      rfl
    · have hbind : (some buffer).bind (fun b => sendBytes b none) = sendBytes buffer none := rfl
      rw [hbind, sendBytes, dif_neg hb]
      simp [remaining]

/-- **A `send` that does not fail** appends the next bytes of what remains. -/
theorem send_accepted {s : Sending} {sent : Nat} {out : Bytes} {s' : Option Sending}
    (h : s.send (.accepted sent) = some (out, s')) :
    out ++ (s'.map remaining).getD [] = s.remaining := by
  simp only [send] at h
  split at h
  · rename_i hsent
    cases h
    split
    · rename_i hmore
      have hdrop : s.buffer.drop (s.sentBytes + sent) = (s.buffer.drop s.sentBytes).drop sent := by
        rw [List.drop_drop]
      simp only [Option.map_some, Option.getD_some, remaining]
      rw [hdrop, ← List.append_assoc, List.take_append_drop]
    · rename_i hmore
      have hall : (s.buffer.drop s.sentBytes).take sent = s.buffer.drop s.sentBytes := by
        apply List.take_of_length_le
        rw [List.length_drop]
        omega
      rw [hall, remaining_returned]
      rfl
  · cases h

end Sending

/-! ## `sendMessage` -/

/-- Lines 105 to 108: the id the packet goes out under, and `autoId` after it. -/
def assignId (autoId id : Int32) : Int32 × Int32 :=
  if id = -1 then (autoId, autoId + 1) else (id, autoId)

inductive Outcome where
  | running
  | returned (code : Int32)
  /-- an exception other than `std::invalid_argument` left `sendMessage` -/
  | threw
  deriving DecidableEq

/-- A call of `sendMessage`: what `encode` gave it, what it has appended to
the stream, and how it ended. -/
structure SendCall where
  encoded : Option Bytes
  appended : Bytes := []
  outcome : Outcome := .running
  deriving DecidableEq

/-- One socket: the finished calls in order, the running one, the stream. -/
structure SendState where
  autoId : Int32 := 0
  finished : List SendCall := []
  current : Option (SendCall × Sending) := none
  stream : Bytes := []

inductive SendLabel (T : Type) where
  | sendMessage (id : Int32) (payload : Packet.PayloadVariants T)
  | send (result : SendResult)
  deriving DecidableEq

/-- A call begins, or ends at once where `encode` throws. -/
def SendState.sendMessage (L : Libraries) (st : SendState) (id : Int32)
    (payload : Packet.PayloadVariants L.arrow.Table) : SendState :=
  let (id, autoId) := assignId st.autoId id
  match Encode.encode L payload id with
  | .ok buffer => { st with autoId, current := some ({ encoded := some buffer }, .start buffer) }
  | .error (.invalidArgument _) =>
    { st with autoId, finished := st.finished ++ [{ encoded := none, outcome := .returned (-1) }] }
  | .error .lengthError =>
    { st with autoId, finished := st.finished ++ [{ encoded := none, outcome := .threw }] }

/-- The running call has made a call of `send`. -/
def SendState.sent (st : SendState) (call : SendCall) (out : Bytes) : Option Sending → SendState
  | some s =>
    { st with stream := st.stream ++ out,
              current := some ({ call with appended := call.appended ++ out }, s) }
  | none =>
    { st with stream := st.stream ++ out, current := none,
              finished := st.finished ++
                [{ call with appended := call.appended ++ out, outcome := .returned 0 }] }

def sendStep (L : Libraries) (st : SendState) : SendLabel L.arrow.Table → Option SendState
  | .sendMessage id payload =>
    match st.current with
    | some _ => none
    | none => some (st.sendMessage L id payload)
  | .send result =>
    match st.current with
    | none => none
    | some (call, s) => (s.send result).map fun (out, s') => st.sent call out s'

/-! ## The stream -/

/-- The bodies of the calls that returned 0, in order. -/
def sentBodies (calls : List SendCall) : List Bytes :=
  (calls.filter (·.outcome = .returned 0)).filterMap (·.encoded)

/-- A finished call either appended its whole frame and returned 0, or was
rejected by `encode` and appended nothing. -/
def SendCall.Whole (call : SendCall) : Prop :=
  (call.outcome = .returned 0 → ∃ buffer, call.encoded = some buffer ∧
    call.appended = frame buffer) ∧
  (call.encoded = none → call.outcome ≠ .returned 0 ∧ call.appended = [])

/-- **The stream is framed**: the frames of the calls that returned 0, in
order, and of the running call, which is the last, a part of its frame that
is not all of it. -/
structure Framed (st : SendState) : Prop where
  whole : ∀ call ∈ st.finished, call.Whole
  stream : ∃ part, st.stream = frames (sentBodies st.finished) ++ part ∧
    match st.current with
    | none => part = []
    | some (call, s) => ∃ buffer, call.encoded = some buffer ∧ call.appended = part ∧
        part ++ s.remaining = frame buffer

@[simp] theorem sentBodies_append (cs ds : List SendCall) :
    sentBodies (cs ++ ds) = sentBodies cs ++ sentBodies ds := by
  simp [sentBodies]

theorem sentBodies_returned (call : SendCall) {buffer : Bytes} (h : call.encoded = some buffer)
    (appended : Bytes) :
    sentBodies [{ call with appended, outcome := .returned 0 }] = [buffer] := by
  simp [sentBodies, h]

theorem whole_append {calls : List SendCall} {call : SendCall} (hs : ∀ c ∈ calls, c.Whole)
    (h : call.Whole) : ∀ c ∈ calls ++ [call], c.Whole := by
  intro c hc
  rcases List.mem_append.mp hc with hc | hc
  · exact hs c hc
  · rw [List.mem_singleton.mp hc]
    exact h

variable {L : Libraries} {st st' : SendState}

theorem Framed.sendMessage (h : Framed st) (hidle : st.current = none) (id : Int32)
    (payload : Packet.PayloadVariants L.arrow.Table) : Framed (st.sendMessage L id payload) := by
  obtain ⟨hwhole, part, hstream, hpart⟩ := h
  rw [hidle] at hpart
  subst hpart
  unfold SendState.sendMessage
  dsimp only
  split
  · rename_i buffer _
    exact ⟨hwhole, [], hstream, buffer, rfl, rfl, Sending.remaining_start buffer⟩
  · refine ⟨whole_append hwhole ⟨fun h => ?_, fun _ => ⟨by decide, rfl⟩⟩, [], ?_, ?_⟩
    · exact absurd h (by decide)
    · rw [sentBodies_append]
      exact hstream.trans (by simp [sentBodies])
    · rw [hidle]
  · refine ⟨whole_append hwhole ⟨fun h => ?_, fun _ => ⟨by decide, rfl⟩⟩, [], ?_, ?_⟩
    · exact absurd h (by decide)
    · rw [sentBodies_append]
      exact hstream.trans (by simp [sentBodies])
    · rw [hidle]

theorem Framed.sent (h : Framed st) {call : SendCall} {s : Sending} {sent : Nat} {out : Bytes}
    {s' : Option Sending} (hcur : st.current = some (call, s))
    (hsend : s.send (.accepted sent) = some (out, s')) : Framed (st.sent call out s') := by
  obtain ⟨hwhole, part, hstream, hpart⟩ := h
  rw [hcur] at hpart
  obtain ⟨buffer, henc, rfl, hframe⟩ := hpart
  have hout := Sending.send_accepted hsend
  cases s' with
  | some s' =>
    refine ⟨hwhole, call.appended ++ out, ?_, buffer, henc, rfl, ?_⟩
    · show st.stream ++ out = _
      rw [hstream, List.append_assoc]
      rfl
    · rw [List.append_assoc, ← hframe, ← hout]
      rfl
  | none =>
    have hdone : call.appended ++ out = frame buffer := by
      rw [← hframe, ← hout]
      exact congrArg _ (List.append_nil out).symm
    refine ⟨whole_append hwhole ⟨fun _ => ⟨buffer, henc, hdone⟩, fun hnone => ?_⟩, [], ?_, rfl⟩
    · rw [show call.encoded = none from hnone] at henc
      cases henc
    · show st.stream ++ out = _
      rw [hstream, List.append_assoc, hdone]
      show _ = frames (sentBodies (st.finished ++ _)) ++ []
      rw [sentBodies_append, sentBodies_returned call henc, frames_append, List.append_nil]
      simp [frames]

/-- The condition on a step: no call of `send` fails. -/
def Accepts {T : Type} (_ : SendState) : SendLabel T → Prop
  | .send .failed => False
  | _ => True

instance {T : Type} (st : SendState) : (l : SendLabel T) → Decidable (Accepts st l)
  | .send .failed => inferInstanceAs (Decidable False)
  | .send (.accepted _) | .sendMessage _ _ => inferInstanceAs (Decidable True)

theorem Framed.step (h : Framed st) {l : SendLabel L.arrow.Table} (hok : Accepts st l)
    (hs : sendStep L st l = some st') : Framed st' := by
  cases l with
  | sendMessage id payload =>
    simp only [sendStep] at hs
    split at hs
    · cases hs
    · rename_i hidle
      cases hs
      exact h.sendMessage hidle id payload
  | send result =>
    simp only [sendStep] at hs
    split at hs
    · cases hs
    · rename_i call s hcur
      obtain ⟨⟨out, s'⟩, hsend, rfl⟩ := Option.map_eq_some_iff.mp hs
      cases result with
      | failed => exact absurd hok id
      | accepted sent => exact h.sent hcur hsend

/-- **Framing.** While no `send` fails, the stream is framed in every state. -/
theorem stream_framed (L : Libraries) (ls : List (SendLabel L.arrow.Table))
    (hok : Along (sendStep L) Accepts {} ls) : Throughout (sendStep L) Framed {} ls :=
  hok.throughout (I := Framed) id (fun h hok hs => h.step hok hs) ⟨by simp, [], rfl, rfl⟩

theorem stream_framed_ls :
    Throughout (sendStep Reference.libraries) Framed {}
      [.sendMessage (-1) (.ls { directory := [0x2F] }), .send (.accepted 3), .send (.accepted 1),
        .send (.accepted 12), .sendMessage 9 (.universal { type := 0, bytes := [] })] :=
  stream_framed Reference.libraries _ (by decide)

/-- **A full socket buffer breaks the framing.** `send` fails inside the size
and accepts the body: `sendMessage` returns 0, and the stream is no frame. -/
theorem stream_unframed :
    ¬ Throughout (sendStep Reference.libraries) Framed {}
      [.sendMessage 5 (.ls { directory := [0x2F] }), .send (.accepted 2), .send .failed,
        .send (.accepted 12)] := by
  intro h
  have hlast : run (sendStep Reference.libraries) {} [.sendMessage 5 (.ls { directory := [0x2F] }),
      .send (.accepted 2), .send .failed, .send (.accepted 12)] = some
        { stream := [0, 0, 0x30, 0x0A, 0x02, 0x01, 5, 0xA7, 5, 0x30, 3, 4, 1, 0x2F],
          finished := [{
            encoded := some [0x30, 0x0A, 0x02, 0x01, 5, 0xA7, 5, 0x30, 3, 4, 1, 0x2F],
            appended := [0, 0, 0x30, 0x0A, 0x02, 0x01, 5, 0xA7, 5, 0x30, 3, 4, 1, 0x2F],
            outcome := .returned 0 }] } := by rfl
  obtain ⟨buffer, henc, happ⟩ := ((h.last hlast).whole _ (List.mem_singleton_self _)).1 rfl
  cases henc
  exact absurd happ (by decide)

end Ttp2
