import Ttp2.TcpSend
import Ttp2.Lib.InetText

/-! # `UdpNetworking` (`udp_networking.cpp`)

What `receivePacketFrom` makes of the bytes of a datagram, and
`sendMessageTo` between two system calls. -/
namespace Ttp2
open Lib Octets Framing Inet

/-- A `sockaddr_in`, its port behind `ntohs`. -/
structure Address where
  ip : InAddr
  port : UInt16
  deriving DecidableEq

namespace UdpNetworking

/-- `sendPacketTo` puts the size and the encoded packet into one buffer. -/
def finalBuffer (encodedPacket : Bytes) : Bytes := toBe 4 encodedPacket.length ++ encodedPacket

/-- Lines 76 to 84: the size is read and the body behind it decoded. Bytes
beyond those of the datagram are read without a check: `none`. -/
def decodeDatagram (L : Libraries) (buffer : Bytes) :
    Option (Except InvalidArgument (Packet L.arrow.Table)) := do
  let networkSize ← TcpNetworking.range buffer 0 4
  let derLen := ofBe networkSize
  let derBuffer ← TcpNetworking.range buffer 4 (4 + derLen)
  return Decode.decode L derBuffer

/-- The buffer of `sendPacketTo` is read back in full. -/
theorem decodeDatagram_finalBuffer {L : Libraries} {encodedPacket : Bytes}
    (h : encodedPacket.length < 2 ^ 32) :
    decodeDatagram L (finalBuffer encodedPacket) = some (Decode.decode L encodedPacket) := by
  have hlen : (finalBuffer encodedPacket).length = 4 + encodedPacket.length := by
    simp [finalBuffer]
  have hsize : TcpNetworking.range (finalBuffer encodedPacket) 0 4 =
      some (toBe 4 encodedPacket.length) := by
    rw [TcpNetworking.range, if_pos ⟨by omega, by omega⟩]
    simp [finalBuffer]
  have hbody : TcpNetworking.range (finalBuffer encodedPacket) 4 (4 + encodedPacket.length) =
      some encodedPacket := by
    rw [TcpNetworking.range, if_pos ⟨by omega, by omega⟩, Nat.add_sub_cancel_left]
    simp [finalBuffer]
  unfold decodeDatagram
  rw [hsize]
  simp only [bind, Option.bind, pure]
  rw [ofBe_toBe_of_lt (by omega), hbody]

end UdpNetworking

/-! ## `sendMessageTo` -/

/-- `sendto` takes no longer datagram over IPv4, and no other error of it is looked at. -/
def maxDatagram : Nat := 65507

/-- A running `sendMessageTo`, with the port of its temporary socket. Its loop
is entered with attempts left. -/
structure SendingTo where
  socket : UInt16
  serverAddress : Address
  buffer : Bytes
  maxResendCount : Nat
  more : 0 < maxResendCount
  most : maxResendCount ≤ 10
  deriving DecidableEq

/-- What `recvfrom` on the temporary socket returns: `EWOULDBLOCK` after a
second, another error, or a datagram. `stale` is what stands in
`receiveBuffer[0]`, which an empty datagram leaves as it is. -/
inductive AckResult where
  | timeout
  | error
  | datagram (source : Address) (bytes : Bytes) (stale : UInt8)
  deriving DecidableEq

namespace AckResult

/-- The loop goes on after it, attempts permitting. -/
def continues : AckResult → Bool
  | .timeout => true
  | .error => false
  | .datagram _ bytes stale => bytes.headD stale ≠ 0x31

/-- The address `recvfrom` fills in. -/
def source : AckResult → Option Address
  | .timeout | .error => none
  | .datagram source _ _ => some source

end AckResult

/-- How an attempt ends: another one, the return, or an exception. -/
inductive Attempt where
  | again (c : SendingTo)
  | returned
  | threw
  deriving DecidableEq

namespace SendingTo

def start (socket : UInt16) (serverAddress : Address) (buffer : Bytes) : SendingTo where
  socket
  serverAddress
  buffer
  maxResendCount := 10
  more := by omega
  most := by omega

/-- `maxResendCount--` and the test of the loop. -/
def retry (c : SendingTo) : Attempt :=
  if h : 1 < c.maxResendCount then
    .again { c with
      maxResendCount := c.maxResendCount - 1
      more := Nat.sub_pos_of_lt h
      most := Nat.le_trans (Nat.sub_le _ _) c.most }
  else .returned

/-- The wait is over. A datagram that starts with '1' is the acknowledgement,
whoever sent it; its sender's address replaces `serverAddress`. -/
def waited (c : SendingTo) : AckResult → Attempt
  | .timeout => c.retry
  | .error => .threw
  | .datagram source bytes stale =>
    if bytes.headD stale = 0x31 then .returned else retry { c with serverAddress := source }

/-- Another attempt differs in the count alone. -/
structure Retries (c c' : SendingTo) : Prop where
  socket : c'.socket = c.socket
  serverAddress : c'.serverAddress = c.serverAddress
  buffer : c'.buffer = c.buffer
  count : c'.maxResendCount + 1 = c.maxResendCount

theorem retry_cases (c : SendingTo) :
    (c.retry = .returned ∧ c.maxResendCount = 1) ∨ ∃ c', c.retry = .again c' ∧ Retries c c' := by
  have hmore := c.more
  unfold retry
  split
  · exact .inr ⟨_, rfl, rfl, rfl, rfl, Nat.sub_add_cancel hmore⟩
  · exact .inl ⟨rfl, by omega⟩

/-- What a wait leads to. -/
inductive Outcome (c : SendingTo) : AckResult → Attempt → Prop where
  | again {result : AckResult} (c' : SendingTo) (hgoes : result.continues = true)
      (hretries : Retries { c with serverAddress := result.source.getD c.serverAddress } c') :
      Outcome c result (.again c')
  | gaveUp {result : AckResult} (hgoes : result.continues = true) (hlast : c.maxResendCount = 1) :
      Outcome c result .returned
  | acknowledged (source : Address) (bytes : Bytes) (stale : UInt8)
      (hone : bytes.headD stale = 0x31) : Outcome c (.datagram source bytes stale) .returned
  | threw : Outcome c .error .threw

theorem outcome (c : SendingTo) (result : AckResult) : Outcome c result (c.waited result) := by
  have hretry : result.continues = true →
      c.waited result = retry { c with serverAddress := result.source.getD c.serverAddress } →
        Outcome c result (c.waited result) := by
    intro hgoes hwaited
    rw [hwaited]
    rcases retry_cases { c with serverAddress := result.source.getD c.serverAddress } with
      ⟨hr, hlast⟩ | ⟨c', hr, hretries⟩
    · rw [hr]
      exact .gaveUp hgoes hlast
    · rw [hr]
      exact .again c' hgoes hretries
  cases result with
  | timeout => exact hretry rfl rfl
  | error => exact .threw
  | datagram source bytes stale =>
    by_cases hone : bytes.headD stale = 0x31
    · rw [waited, if_pos hone]
      exact .acknowledged source bytes stale hone
    · exact hretry (decide_eq_true hone) (if_neg hone)

section Waited
variable {c c' : SendingTo} {result : AckResult}

/-- What a wait that is followed by another attempt has left alone. -/
theorem retries_of_again (h : c.waited result = .again c') : result.continues = true ∧
    Retries { c with serverAddress := result.source.getD c.serverAddress } c' := by
  have hout := c.outcome result
  rw [h] at hout
  cases hout with
  | again c' hgoes hretries => exact ⟨hgoes, hretries⟩

/-- What ends an attempt without another one: '1', or there is none left. -/
theorem ends_of_returned (h : c.waited result = .returned) :
    (∃ source bytes stale, result = .datagram source bytes stale ∧ bytes.headD stale = 0x31) ∨
      result.continues = true ∧ c.maxResendCount = 1 := by
  have hout := c.outcome result
  rw [h] at hout
  cases hout with
  | gaveUp hgoes hlast => exact .inr ⟨hgoes, hlast⟩
  | acknowledged source bytes stale hone => exact .inl ⟨source, bytes, stale, rfl, hone⟩

/-- Only an error of `recvfrom` throws. -/
theorem error_of_threw (h : c.waited result = .threw) : result = .error := by
  have hout := c.outcome result
  rw [h] at hout
  cases hout with
  | threw => rfl

end Waited

end SendingTo
end Ttp2
