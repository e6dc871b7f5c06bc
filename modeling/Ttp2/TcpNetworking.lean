import Ttp2.Asn1Codec
import Ttp2.Lib.Framing
import Mathlib.Logic.Function.Basic

/-! # `TcpNetworking` (`tcp_networking.cpp`): state, queues, receiving

The data of a session, its two queues, and `receiveMessage` with the answers
of `recv` as an argument. An access beyond the bytes of a buffer has no
result (`none`): that it never happens is a theorem. -/
namespace Ttp2
open Lib Octets Packet

/-- The two queues of a session. -/
inductive Queue where
  | request
  | response
  deriving DecidableEq

/-- The protected data of `TcpNetworking`. -/
structure TcpNetworking (T : Type) where
  connected : Bool := true
  requestQueue : List (Packet T) := []
  responseQueue : List (Packet T) := []
  sessionBuffers : Int → Bytes := fun _ => []
  autoId : Int32 := 0

/-- What a call of `recv` returns: bytes, `EAGAIN`, another error, or 0. -/
inductive RecvResult where
  | bytes (bytes : Bytes)
  | again
  | error
  | closed
  deriving DecidableEq

namespace TcpNetworking
variable {T : Type}

/-! ## The queues -/

def queue (net : TcpNetworking T) : Queue → List (Packet T)
  | .request => net.requestQueue
  | .response => net.responseQueue

def setQueue (net : TcpNetworking T) (q : Queue) (packets : List (Packet T)) : TcpNetworking T :=
  match q with
  | .request => { net with requestQueue := packets }
  | .response => { net with responseQueue := packets }

/-- `emplace_back` -/
def push (net : TcpNetworking T) (q : Queue) (packet : Packet T) : TcpNetworking T :=
  net.setQueue q (net.queue q ++ [packet])

def pushRequest (net : TcpNetworking T) (request : Packet T) : TcpNetworking T :=
  net.push .request request

def pushResponse (net : TcpNetworking T) (response : Packet T) : TcpNetworking T :=
  net.push .response response

/-- Element 0 and its erasure; undefined on an empty queue. -/
def pop (net : TcpNetworking T) (q : Queue) : Option (Packet T × TcpNetworking T) :=
  match net.queue q with
  | [] => none
  | first :: rest => some (first, net.setQueue q rest)

@[simp] theorem queue_setQueue (net : TcpNetworking T) (q : Queue) (packets : List (Packet T)) :
    (net.setQueue q packets).queue q = packets := by
  cases q <;> rfl

@[simp] theorem connected_setQueue (net : TcpNetworking T) (q : Queue)
    (packets : List (Packet T)) : (net.setQueue q packets).connected = net.connected := by
  cases q <;> rfl

@[simp] theorem sessionBuffers_setQueue (net : TcpNetworking T) (q : Queue)
    (packets : List (Packet T)) : (net.setQueue q packets).sessionBuffers = net.sessionBuffers := by
  cases q <;> rfl

@[simp] theorem autoId_setQueue (net : TcpNetworking T) (q : Queue)
    (packets : List (Packet T)) : (net.setQueue q packets).autoId = net.autoId := by
  cases q <;> rfl

theorem queue_setQueue_ne (net : TcpNetworking T) {q r : Queue} (packets : List (Packet T))
    (h : r ≠ q) : (net.setQueue q packets).queue r = net.queue r := by
  cases q <;> cases r <;> first | rfl | exact absurd rfl h

theorem pop_eq_some {net net' : TcpNetworking T} {q : Queue} {packet : Packet T}
    (h : net.pop q = some (packet, net')) :
    ∃ rest, net.queue q = packet :: rest ∧ net' = net.setQueue q rest := by
  unfold pop at h
  split at h
  · cases h
  · rename_i first rest hq
    cases h
    exact ⟨rest, hq, rfl⟩

/-! ## Receiving -/

/-- `sessionBuffers[socket].insert(end, temp, temp + n)` -/
def insert (net : TcpNetworking T) (socket : Int) (temp : Bytes) : TcpNetworking T :=
  { net with sessionBuffers :=
      Function.update net.sessionBuffers socket (net.sessionBuffers socket ++ temp) }

/-- `sessionBuffers[socket] = buffer` -/
def setBuffer (net : TcpNetworking T) (socket : Int) (buffer : Bytes) : TcpNetworking T :=
  { net with sessionBuffers := Function.update net.sessionBuffers socket buffer }

/-- The bytes between two iterators of a buffer. -/
def range (buffer : Bytes) (first last : Nat) : Option Bytes :=
  if first ≤ last ∧ last ≤ buffer.length then some ((buffer.drop first).take (last - first))
  else none

/-- `buffer.erase(buffer.begin(), buffer.begin() + n)` -/
def eraseFront (buffer : Bytes) (n : Nat) : Option Bytes :=
  if n ≤ buffer.length then some (buffer.drop n) else none

/-- Lines 147 to 164: at most one frame is cut off the buffer. -/
def cutFrame (buffer : Bytes) : Option (Option Bytes × Bytes) :=
  if buffer.length < 4 then some (none, buffer)
  else do
    let networkSize ← range buffer 0 4
    let derLen := ofBe networkSize
    if buffer.length < 4 + derLen then return (none, buffer)
    let derBuffer ← range buffer 4 (4 + derLen)
    let rest ← eraseFront buffer (4 + derLen)
    return (some derBuffer, rest)

/-- `decode`, or the empty packet where it throws. -/
def decodeOrEmpty (L : Libraries) (derBuffer : Bytes) : Packet L.arrow.Table :=
  match Decode.decode L derBuffer with
  | .ok packet => packet
  | .error _ => {}

/-- `disconnect` of the session controllers, the descriptor aside. -/
def disconnect (net : TcpNetworking T) : TcpNetworking T := { net with connected := false }

/-- The `recv` loop on the answers it gets: whether it goes on to the buffer
or returns the empty packet. No answer left means it has not ended. -/
def recvLoop (socket : Int) : List RecvResult → TcpNetworking T → Option (Bool × TcpNetworking T)
  | [], net => if net.connected then none else some (true, net)
  | answer :: answers, net =>
    if !net.connected then some (true, net)
    else match answer with
      | .bytes temp => recvLoop socket answers (net.insert socket temp)
      | .again => some (true, net)
      | .error => some (false, net)
      | .closed => some (false, net.disconnect)

/-- `receiveMessage`, with the body it took off the buffer beside its result. -/
def receiveMessage (L : Libraries) (socket : Int) (answers : List RecvResult)
    (net : TcpNetworking L.arrow.Table) :
    Option ((Option Bytes × Packet L.arrow.Table) × TcpNetworking L.arrow.Table) := do
  let (goesOn, net) ← recvLoop socket answers net
  if !goesOn then return ((none, {}), net)
  match ← cutFrame (net.sessionBuffers socket) with
  | (none, _) => return ((none, {}), net)
  | (some derBuffer, rest) =>
    return ((some derBuffer, decodeOrEmpty L derBuffer), net.setBuffer socket rest)

end TcpNetworking
end Ttp2
