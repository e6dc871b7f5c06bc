import Ttp2.SessionStream
import Ttp2.CodedPacket

/-! # A connection is a FIFO channel in each direction

A client and a server session joined by a connection that delivers each
side's bytes to the other in order. What one side pops is the beginning of
what the other side pushed, each packet as `decode` gives it back: the bytes
on the way, the buffer and both queues hold the rest. -/
namespace Ttp2
open Lib Octets Framing Lts Encode Decode

/-! ## The connection -/

structure Connection (T : Type) where
  client : SessionController T := {}
  server : SessionController T := {}

inductive ConnectionLabel (T : Type) where
  | client (l : SessionLabel T)
  | server (l : SessionLabel T)
  deriving DecidableEq

namespace Connection

def step (L : Libraries) (clientSocket serverSocket : Int) (s : Connection L.arrow.Table) :
    ConnectionLabel L.arrow.Table → Option (Connection L.arrow.Table)
  | .client l =>
    (SessionController.step L .client clientSocket s.client l).map fun client => { s with client }
  | .server l =>
    (SessionController.step L .server serverSocket s.server l).map fun server => { s with server }

/-- One side of a connection that stays open: the bytes that arrive are the
next ones of the peer's stream, `recv` returns the next of those that
arrived, `send` accepts bytes, and there is no hang-up. -/
def Steady {T : Type} (peer side : SessionController T) : SessionLabel T → Prop
  | .arrive bytes => side.arrived ++ bytes <+: peer.wire
  | .recv (.bytes temp) => temp ≠ [] ∧ temp <+: side.kernel
  | .epollWait (.event _ hangUp) => hangUp = false
  | .send .failed => False
  | _ => True

def Reliable {T : Type} (s : Connection T) : ConnectionLabel T → Prop
  | .client l => Steady s.server s.client l
  | .server l => Steady s.client s.server l

instance {T : Type} (peer side : SessionController T) :
    (l : SessionLabel T) → Decidable (Steady peer side l)
  | .arrive bytes => inferInstanceAs (Decidable (side.arrived ++ bytes <+: peer.wire))
  | .recv (.bytes _) => inferInstanceAs (Decidable (_ ∧ _))
  | .epollWait (.event _ hangUp) => inferInstanceAs (Decidable (hangUp = false))
  | .send .failed => inferInstanceAs (Decidable False)
  | .fin | .loopTest | .epollWait (.error _) | .epollWait .timeout | .hangUpDisconnect | .recvTest
  | .recv .again | .recv .error | .recv .closed | .cutFrame | .dispatch | .sendTest | .take
  | .send (.accepted _) | .push _ | .pop | .disconnect => inferInstanceAs (Decidable True)

instance {T : Type} (s : Connection T) : (l : ConnectionLabel T) → Decidable (Reliable s l)
  | .client l => inferInstanceAs (Decidable (Steady s.server s.client l))
  | .server l => inferInstanceAs (Decidable (Steady s.client s.server l))

/-- **A FIFO channel** from one side to the other: what was popped is a prefix
of what is carried of the packets pushed, and no frame is taken for the
sentinel `packet.id == -1`. -/
structure Fifo (L : Libraries) (sender receiver : SessionController L.arrow.Table) : Prop where
  popped : receiver.popped.map Except.ok <+: carried L sender.submitted
  kept : ∀ body ∈ receiver.decoded, (TcpNetworking.decodeOrEmpty L body).id ≠ -1

/-- Requests and responses. -/
structure FifoBothWays (L : Libraries) (s : Connection L.arrow.Table) : Prop where
  requests : Fifo L s.client s.server
  responses : Fifo L s.server s.client

/-! ## One direction -/

/-- The stream between the two sides: what the sender put on the wire, what of
it arrived, and what the receiver made of that. -/
structure Stream (L : Libraries) (senderRole receiverRole : Role) (socket : Int)
    (sender receiver : SessionController L.arrow.Table) : Prop where
  sent : SessionController.Sent L senderRole sender
  received : SessionController.Received L receiverRole socket receiver
  up : receiver.hungUp = false
  arrived : receiver.arrived <+: sender.wire

variable {L : Libraries} {senderRole receiverRole role : Role} {socket : Int}
  {sender receiver peer s t : SessionController L.arrow.Table} {l : SessionLabel L.arrow.Table}

theorem Stream.init : Stream L senderRole receiverRole socket {} {} :=
  ⟨.init, .init, rfl, List.prefix_refl _⟩

/-- The wire only grows. -/
theorem wire_grows (hs : SessionController.step L role socket s l = some t) : s.wire <+: t.wire := by
  cases SessionController.moves_of_step hs with
  | send result sending out next hsnd hsend => exact List.prefix_append _ _
  | _ => exact List.prefix_refl _

theorem Steady.genuine (h : Steady peer s l) : SessionController.Genuine s l := by
  cases l with
  | recv answer =>
    cases answer with
    | bytes temp => exact h.2
    | _ => trivial
  | _ => trivial

theorem Steady.accepting (h : Steady peer s l) : SessionController.Accepting s l := by
  cases l with
  | send result =>
    cases result with
    | failed => exact absurd h id
    | accepted sent => trivial
  | _ => trivial

theorem Stream.senderStep (h : Stream L senderRole receiverRole socket sender receiver)
    {senderSocket : Int} (hok : Steady receiver sender l)
    (hs : SessionController.step L senderRole senderSocket sender l = some t) :
    Stream L senderRole receiverRole socket t receiver :=
  ⟨h.sent.step hok.accepting hs, h.received, h.up, h.arrived.trans (wire_grows hs)⟩

theorem Stream.receiverStep (h : Stream L senderRole receiverRole socket sender receiver)
    (hok : Steady sender receiver l)
    (hs : SessionController.step L receiverRole socket receiver l = some t) :
    Stream L senderRole receiverRole socket sender t := by
  have hreceived := h.received.step hok.genuine hs
  cases SessionController.moves_of_step hs with
  | arrive bytes hfin => exact ⟨h.sent, hreceived, h.up, hok⟩
  | hangUp readable hr => exact absurd hok (by simp [Steady])
  | _ => exact ⟨h.sent, hreceived, h.up, h.arrived⟩

/-! ## The channel -/

/-- A body of the stream decodes, and not to the sentinel. -/
theorem decode_body (h : L.Documented) (hdec : Decodable L) {packets : List (Packet L.arrow.Table)}
    {body : Bytes} (hb : body ∈ (encodings L packets).1) :
    decode L body = .ok (TcpNetworking.decodeOrEmpty L body) ∧
      (TcpNetworking.decodeOrEmpty L body).id ≠ -1 := by
  obtain ⟨payload, id, he⟩ := mem_encodings hb
  obtain ⟨q, hq⟩ := hdec payload id body he
  have hempty : TcpNetworking.decodeOrEmpty L body = q := by
    rw [TcpNetworking.decodeOrEmpty, hq]
  rw [hempty]
  refine ⟨hq, ?_⟩
  rw [decode_id h he hq]
  exact wireInt_ne_sentinel id

/-- The frames taken off the buffer are the first ones of the packets pushed. -/
theorem Stream.decoded_first (h : Stream L senderRole receiverRole socket sender receiver)
    (hdoc : L.Documented) : receiver.decoded <+: (encodings L sender.submitted).1 := by
  have hfits : Fits (encodings L sender.taken).1 := by
    intro body hb
    obtain ⟨payload, id, he⟩ := mem_encodings hb
    exact length_encode hdoc he
  have hframes : frames receiver.decoded <+: frames (encodings L sender.taken).1 := by
    calc frames receiver.decoded
      _ <+: frames receiver.decoded ++ (receiver.buffer socket ++ receiver.kernel) :=
        List.prefix_append _ _
      _ <+: sender.wire := by
        have hbytes := h.received.bytes h.up
        rw [List.append_assoc] at hbytes
        exact hbytes ▸ h.arrived
      _ <+: sender.wire ++ SessionController.unsent sender.sender := List.prefix_append _ _
      _ <+: frames (encodings L sender.taken).1 := by
        rw [h.sent.wire]
  have htaken := isPrefix_of_frames h.received.fits hfits hframes
  rw [h.sent.queue]
  exact htaken.trans (encodings_append _ _)

theorem Stream.fifo (h : Stream L senderRole receiverRole socket sender receiver)
    (hdoc : L.Documented) (hdec : Decodable L) : Fifo L sender receiver := by
  have hfirst := h.decoded_first hdoc
  have hbody : ∀ body ∈ receiver.decoded,
      decode L body = .ok (TcpNetworking.decodeOrEmpty L body) ∧
        (TcpNetworking.decodeOrEmpty L body).id ≠ -1 :=
    fun body hb => decode_body hdoc hdec (hfirst.subset hb)
  -- nothing is filtered out, so what was delivered is the decoded frames
  have hpackets : SessionController.packetsOf L receiver.decoded =
      receiver.decoded.map (TcpNetworking.decodeOrEmpty L) := by
    refine List.filter_eq_self.mpr fun packet hp => ?_
    obtain ⟨body, hb, rfl⟩ := List.mem_map.mp hp
    exact decide_eq_true (hbody body hb).2
  have hdelivered : receiver.popped <+: receiver.decoded.map (TcpNetworking.decodeOrEmpty L) := by
    rw [← hpackets, ← h.received.delivered, h.received.queue, List.append_assoc]
    exact List.prefix_append _ _
  refine ⟨?_, fun body hb => (hbody body hb).2⟩
  have hok : (receiver.decoded.map (TcpNetworking.decodeOrEmpty L)).map Except.ok =
      receiver.decoded.map (decode L) := by
    rw [List.map_map]
    exact List.map_congr_left fun body hb => (hbody body hb).1.symm
  rw [carried_eq]
  have hmapped := hdelivered.map (Except.ok (ε := InvalidArgument))
  rw [hok] at hmapped
  exact hmapped.trans (hfirst.map (decode L))

/-! ## Both directions -/

structure Joined (L : Libraries) (clientSocket serverSocket : Int)
    (s : Connection L.arrow.Table) : Prop where
  requests : Stream L .client .server serverSocket s.client s.server
  responses : Stream L .server .client clientSocket s.server s.client

theorem Joined.step {clientSocket serverSocket : Int} {s t : Connection L.arrow.Table}
    {l : ConnectionLabel L.arrow.Table} (h : Joined L clientSocket serverSocket s)
    (hok : Reliable s l) (hs : step L clientSocket serverSocket s l = some t) :
    Joined L clientSocket serverSocket t := by
  cases l with
  | client l =>
    obtain ⟨client, hclient, rfl⟩ := Option.map_eq_some_iff.mp hs
    exact ⟨h.requests.senderStep hok hclient, h.responses.receiverStep hok hclient⟩
  | server l =>
    obtain ⟨server, hserver, rfl⟩ := Option.map_eq_some_iff.mp hs
    exact ⟨h.requests.receiverStep hok hserver, h.responses.senderStep hok hserver⟩

/-- **The TCP stack refines a FIFO channel**, in every state of every run over
a reliable connection, in both directions. -/
theorem fifo_both_ways (L : Libraries) (h : L.Documented) (hdec : Decodable L)
    (clientSocket serverSocket : Int) (ls : List (ConnectionLabel L.arrow.Table))
    (hrel : Along (step L clientSocket serverSocket) Reliable {} ls) :
    Throughout (step L clientSocket serverSocket) (FifoBothWays L) {} ls := by
  refine Along.throughout (I := Joined L clientSocket serverSocket) ?_ ?_
    ⟨.init, .init⟩ hrel
  · intro s hj
    exact ⟨hj.requests.fifo h hdec, hj.responses.fifo h hdec⟩
  · intro s l t hj hok hs
    exact hj.step hok hs

theorem libraries_decodable : Decodable Reference.libraries :=
  decodable_of_tables (fun rawData => ⟨rawData.drop 4, rfl⟩) Reference.libraries_documented

/-- Two requests, the second under an automatic id; the first is popped while
the second is half sent. -/
theorem fifo_both_ways_requests :
    Throughout (step Reference.libraries 3 7) (FifoBothWays Reference.libraries) {}
      [.client (.push { id := 5, payload := .ls { directory := [0x2F] } }),
        .client (.push { id := -1, payload := .ls { directory := [0x2F] } }),
        .client .sendTest, .client .take, .client (.send (.accepted 3)),
        .server (.arrive [0, 0]), .client (.send (.accepted 1)), .client (.send (.accepted 12)),
        .server .loopTest, .server (.epollWait (.event true false)), .server .recvTest,
        .server (.recv (.bytes [0, 0])), .client .sendTest, .client .take,
        .client (.send (.accepted 4)), .client (.send (.accepted 6)),
        .server (.arrive [0, 0x0C, 0x30, 0x0A, 0x02, 0x01, 5, 0xA7, 5, 0x30, 3, 4, 1, 0x2F, 0]),
        .server .recvTest,
        .server (.recv (.bytes [0, 0x0C, 0x30, 0x0A, 0x02, 0x01, 5, 0xA7, 5, 0x30, 3, 4, 1, 0x2F])),
        .server .recvTest, .server (.recv .again), .server .cutFrame, .server .dispatch,
        .server .pop] :=
  fifo_both_ways Reference.libraries Reference.libraries_documented libraries_decodable 3 7 _
    (by decide)

end Connection
end Ttp2
