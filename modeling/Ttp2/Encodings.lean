import Ttp2.TcpSend

/-! # Packets sent one after another

`sendMessage` and `sendPacketTo` give an id to a packet that has none and
encode it. `encodings` are the bodies a sequence of packets leads to,
`carried` what a receiver of all of them decodes. -/
namespace Ttp2
open Lib Encode Decode

/-! ## Encodings in a row -/

/-- One more packet goes through `sendMessage`: the bodies encoded so far and
`autoId`. A packet that `encode` rejects leaves no body. -/
def encodeNext (L : Libraries) (acc : List Bytes × Int32) (packet : Packet L.arrow.Table) :
    List Bytes × Int32 :=
  let (id, autoId) := assignId acc.2 packet.id
  match encode L packet.payload id with
  | .ok buffer => (acc.1 ++ [buffer], autoId)
  | .error _ => (acc.1, autoId)

def encodings (L : Libraries) (packets : List (Packet L.arrow.Table)) : List Bytes × Int32 :=
  packets.foldl (encodeNext L) ([], 0)

theorem encodings_concat {L : Libraries} (packets : List (Packet L.arrow.Table))
    (packet : Packet L.arrow.Table) :
    encodings L (packets ++ [packet]) = encodeNext L (encodings L packets) packet := by
  rw [encodings, List.foldl_append]
  rfl

theorem encodeNext_cases {L : Libraries} (acc : List Bytes × Int32)
    (packet : Packet L.arrow.Table) :
    (∃ buffer, encode L packet.payload (assignId acc.2 packet.id).1 = .ok buffer ∧
        encodeNext L acc packet = (acc.1 ++ [buffer], (assignId acc.2 packet.id).2)) ∨
      (∃ e, encode L packet.payload (assignId acc.2 packet.id).1 = .error e ∧
        encodeNext L acc packet = (acc.1, (assignId acc.2 packet.id).2)) := by
  unfold encodeNext
  cases he : encode L packet.payload (assignId acc.2 packet.id).1 with
  | ok buffer => exact .inl ⟨buffer, rfl, by simp only [he]⟩
  | error e => exact .inr ⟨e, rfl, by simp only [he]⟩

/-- Packets pushed later add bodies behind those there are. -/
theorem encodings_append {L : Libraries} (ps qs : List (Packet L.arrow.Table)) :
    (encodings L ps).1 <+: (encodings L (ps ++ qs)).1 := by
  induction qs using List.reverseRecOn with
  | nil => rw [List.append_nil]
  | append_singleton qs q ih =>
    rw [← List.append_assoc, encodings_concat]
    rcases encodeNext_cases (encodings L (ps ++ qs)) q with ⟨buffer, -, h⟩ | ⟨e, -, h⟩
    · rw [h]
      exact ih.trans (List.prefix_append _ _)
    · rw [h]
      exact ih

/-! ## What is carried -/

/-- The packets `encode` accepts, in order, each as `decode(encode(payload, id))`
under its own id, or under the next automatic one where that is -1. -/
def carriedFrom (L : Libraries) : Int32 → List (Packet L.arrow.Table) →
    List (Except InvalidArgument (Packet L.arrow.Table))
  | _, [] => []
  | autoId, packet :: packets =>
    let (id, autoId) := assignId autoId packet.id
    match encode L packet.payload id with
    | .ok buffer => decode L buffer :: carriedFrom L autoId packets
    | .error _ => carriedFrom L autoId packets

def carried (L : Libraries) (packets : List (Packet L.arrow.Table)) :
    List (Except InvalidArgument (Packet L.arrow.Table)) :=
  carriedFrom L 0 packets

theorem foldl_encodeNext {L : Libraries} (packets : List (Packet L.arrow.Table))
    (bodies : List Bytes) (autoId : Int32) :
    (packets.foldl (encodeNext L) (bodies, autoId)).1.map (decode L) =
      bodies.map (decode L) ++ carriedFrom L autoId packets := by
  induction packets generalizing bodies autoId with
  | nil => exact (List.append_nil _).symm
  | cons packet packets ih =>
    rw [List.foldl_cons]
    rcases encodeNext_cases (bodies, autoId) packet with ⟨buffer, he, hnext⟩ | ⟨e, he, hnext⟩
    · rw [hnext, ih, List.map_append, List.append_assoc]
      simp only [carriedFrom, he, List.map_cons, List.map_nil, List.singleton_append]
    · rw [hnext, ih]
      simp only [carriedFrom, he]

/-- What is carried are the bodies of the stream, decoded. -/
theorem carried_eq {L : Libraries} (packets : List (Packet L.arrow.Table)) :
    carried L packets = (encodings L packets).1.map (decode L) :=
  (foldl_encodeNext packets [] 0).symm

theorem mem_encodings {L : Libraries} {packets : List (Packet L.arrow.Table)} {body : Bytes}
    (h : body ∈ (encodings L packets).1) : ∃ payload id, encode L payload id = .ok body := by
  induction packets using List.reverseRecOn with
  | nil => cases h
  | append_singleton packets packet ih =>
    rw [encodings_concat] at h
    rcases encodeNext_cases (encodings L packets) packet with ⟨buffer, he, hnext⟩ | ⟨e, -, hnext⟩
    · rw [hnext] at h
      rcases List.mem_append.mp h with h | h
      · exact ih h
      · rw [List.mem_singleton.mp h]
        exact ⟨_, _, he⟩
    · rw [hnext] at h
      exact ih h

end Ttp2
