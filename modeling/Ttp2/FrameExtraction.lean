import Ttp2.TcpNetworking
import Ttp2.Reference.Documented

/-! # `receiveMessage` takes the frames of the stream in order

One call appends what `recv` delivers to the buffer and takes at most one
frame off it (`receiveMessage_spec`). So over any calls the frames taken and
the buffer make up the bytes received, and as a stream has one reading as
frames, the frames taken are the first ones sent. -/
namespace Ttp2
open Lib Octets Framing

namespace TcpNetworking

/-- Lines 147 to 164 stay within the buffer and take its first frame. -/
theorem cutFrame_eq (buffer : Bytes) :
    cutFrame buffer = some (match takeFrame buffer with
      | some (body, rest) => (some body, rest)
      | none => (none, buffer)) := by
  unfold cutFrame takeFrame
  by_cases h4 : buffer.length < 4
  · rw [if_pos h4, if_pos h4]
  · have hhead : range buffer 0 4 = some (buffer.take 4) := by
      rw [range, if_pos ⟨by omega, by omega⟩, List.drop_zero, Nat.sub_zero]
    rw [if_neg h4, if_neg h4, hhead]
    simp only [bind, Option.bind, pure]
    by_cases hn : buffer.length < 4 + ofBe (buffer.take 4)
    · rw [if_pos hn, if_pos hn]
    · have hbody : range buffer 4 (4 + ofBe (buffer.take 4)) =
          some ((buffer.drop 4).take (ofBe (buffer.take 4))) := by
        rw [range, if_pos ⟨by omega, by omega⟩, Nat.add_sub_cancel_left]
      have hrest : eraseFront buffer (4 + ofBe (buffer.take 4)) =
          some (buffer.drop (4 + ofBe (buffer.take 4))) := by
        rw [eraseFront, if_pos (by omega)]
      rw [if_neg hn, if_neg hn, hbody]
      dsimp only
      rw [hrest]

@[simp] theorem insert_buffer {T : Type} (net : TcpNetworking T) (socket : Int) (temp : Bytes) :
    (net.insert socket temp).sessionBuffers socket = net.sessionBuffers socket ++ temp :=
  Function.update_self ..

@[simp] theorem setBuffer_buffer {T : Type} (net : TcpNetworking T) (socket : Int)
    (buffer : Bytes) : (net.setBuffer socket buffer).sessionBuffers socket = buffer :=
  Function.update_self ..

/-- A `recv` loop that ends in `EAGAIN` on an open connection has appended
every chunk it got. -/
theorem recvLoop_again {T : Type} (socket : Int) (chunks : List Bytes) (net : TcpNetworking T)
    (hconn : net.connected = true) :
    ∃ net', recvLoop socket (chunks.map .bytes ++ [.again]) net = some (true, net') ∧
      net'.connected = true ∧
      net'.sessionBuffers socket = net.sessionBuffers socket ++ chunks.flatten := by
  induction chunks generalizing net with
  | nil =>
    refine ⟨net, ?_, hconn, by rw [List.flatten_nil, List.append_nil]⟩
    simp [recvLoop, hconn]
  | cons chunk chunks ih =>
    obtain ⟨net', hrun, hconn', hbuf⟩ := ih (net.insert socket chunk) hconn
    refine ⟨net', ?_, hconn', ?_⟩
    · simp only [List.map_cons, List.cons_append, recvLoop, hconn]
      exact hrun
    · rw [hbuf, insert_buffer, List.flatten_cons, List.append_assoc]

variable {L : Libraries} {socket : Int} {net : TcpNetworking L.arrow.Table}

/-- What a call returns for the body it took. -/
def resultOf (L : Libraries) : Option Bytes → Packet L.arrow.Table
  | some body => decodeOrEmpty L body
  | none => {}

/-- **One call.** It stays within the buffer, and the frame it takes, if any,
and the new buffer are the old buffer and what was received. -/
theorem receiveMessage_spec (chunks : List Bytes) (hconn : net.connected = true) :
    ∃ body net', receiveMessage L socket (chunks.map .bytes ++ [.again]) net =
        some ((body, resultOf L body), net') ∧ net'.connected = true ∧ Fits body.toList ∧
      frames body.toList ++ net'.sessionBuffers socket =
        net.sessionBuffers socket ++ chunks.flatten := by
  obtain ⟨net', hrun, hconn', hbuf⟩ := recvLoop_again socket chunks net hconn
  unfold receiveMessage
  rw [hrun]
  simp only [bind, Option.bind, pure, cutFrame_eq]
  cases hcut : takeFrame (net'.sessionBuffers socket) with
  | none =>
    refine ⟨none, net', rfl, hconn', fits_nil, ?_⟩
    rw [hbuf]
    rfl
  | some r =>
    obtain ⟨body, rest⟩ := r
    obtain ⟨hsplit, hlt⟩ := takeFrame_eq_some hcut
    refine ⟨some body, net'.setBuffer socket rest, rfl, hconn', by simpa [Fits] using hlt, ?_⟩
    rw [setBuffer_buffer, ← hbuf, hsplit]
    simp [frames]

/-- `receiveMessage` once for each list of chunks; the results in order. -/
def receiveAll (L : Libraries) (socket : Int) : List (List Bytes) →
    TcpNetworking L.arrow.Table →
    Option (List (Option Bytes × Packet L.arrow.Table) × TcpNetworking L.arrow.Table)
  | [], net => some ([], net)
  | chunks :: calls, net => do
    let (result, net) ← receiveMessage L socket (chunks.map .bytes ++ [.again]) net
    let (results, net) ← receiveAll L socket calls net
    return (result :: results, net)

theorem receiveAll_spec (calls : List (List Bytes)) (hconn : net.connected = true) :
    ∃ results net', receiveAll L socket calls net = some (results, net') ∧
      net'.connected = true ∧ (∀ r ∈ results, r.2 = resultOf L r.1) ∧
      Fits (results.filterMap Prod.fst) ∧
      frames (results.filterMap Prod.fst) ++ net'.sessionBuffers socket =
        net.sessionBuffers socket ++ calls.flatten.flatten := by
  induction calls generalizing net with
  | nil => exact ⟨[], net, rfl, hconn, by simp, fits_nil, by simp⟩
  | cons chunks calls ih =>
    obtain ⟨body, net1, hcall, hconn1, hfits1, hbytes1⟩ :=
      @receiveMessage_spec L socket _ chunks hconn
    obtain ⟨results, net2, hcalls, hconn2, hresults, hfits2, hbytes2⟩ := ih hconn1
    have hextract : ((body, resultOf L body) :: results).filterMap Prod.fst =
        body.toList ++ results.filterMap Prod.fst := by
      cases body <;> rfl
    refine ⟨(body, resultOf L body) :: results, net2, ?_, hconn2, ?_, ?_, ?_⟩
    · simp only [receiveAll, bind, Option.bind, pure, hcall, hcalls]
    · intro r hr
      rcases List.mem_cons.mp hr with rfl | hr
      · rfl
      · exact hresults r hr
    · rw [hextract]
      exact hfits1.append hfits2
    · rw [hextract, frames_append, List.append_assoc, hbytes2, List.flatten_cons,
        List.flatten_append, ← List.append_assoc, ← List.append_assoc, hbytes1]

/-- **Segmentation does not matter.** The peer's bytes are the frames of
`bodies` and an incomplete frame; `calls` are the chunks `recv` delivered to
each call of `receiveMessage`, `pending` what is not yet received. Every call
stays within the buffer; the calls that took a frame took the bodies from the
first on, in order; each returned its body decoded, or the empty packet; and
the buffer and the pending bytes are the remaining frames and the tail. -/
theorem receive_resynchronises {bodies : List Bytes} {tail : Bytes} (hfits : Fits bodies)
    (htail : takeFrame tail = none) (hconn : net.connected = true)
    (hempty : net.sessionBuffers socket = []) (calls : List (List Bytes)) (pending : Bytes)
    (hstream : calls.flatten.flatten ++ pending = frames bodies ++ tail) :
    ∃ results net', receiveAll L socket calls net = some (results, net') ∧
      (∀ r ∈ results, r.2 = resultOf L r.1) ∧
      results.filterMap Prod.fst = bodies.take (results.filterMap Prod.fst).length ∧
      net'.sessionBuffers socket ++ pending =
        frames (bodies.drop (results.filterMap Prod.fst).length) ++ tail := by
  obtain ⟨results, net', hrun, -, hresults, hfits', hbytes⟩ :=
    @receiveAll_spec L socket _ calls hconn
  have hsplit : frames (results.filterMap Prod.fst) ++
      (net'.sessionBuffers socket ++ pending) = frames bodies ++ tail := by
    rw [← List.append_assoc, hbytes, hempty, List.nil_append, hstream]
  obtain ⟨htaken, hleft⟩ := frames_split hfits' hfits htail hsplit
  exact ⟨results, net', hrun, hresults, htaken, hleft⟩

/-- Two frames and half of a third, in four chunks over three calls: an
undecodable body, a header split across two calls, an empty body. -/
theorem receive_resynchronises_split : ∃ results net',
    receiveAll Reference.libraries 7 [[[0, 0], [0, 1, 9, 0]], [[0, 0, 0], [0, 0, 0]], []] {} =
      some (results, net') ∧
    (∀ r ∈ results, r.2 = resultOf Reference.libraries r.1) ∧
    results.filterMap Prod.fst = [[9], []].take (results.filterMap Prod.fst).length ∧
    net'.sessionBuffers 7 ++ [2, 5] =
      frames ([[9], []].drop (results.filterMap Prod.fst).length) ++ [0, 0, 0, 2, 5] :=
  receive_resynchronises (by simp) (by decide) rfl rfl _ _ (by decide)

end TcpNetworking
end Ttp2
