import Ttp2.CodedPacket
import Ttp2.TcpSend
import Ttp2.PeerSend
import Ttp2.Lib.FreshIds

/-! # The ids `sendMessage` and `sendPacketTo` choose

Whoever sends under the id -1 is given the value of `autoId`, also if the
packet is then rejected. Nothing limits the counter: the ids are fresh as long
as fewer than 2^31 of them were asked for, whatever else is sent between. -/
namespace Ttp2
open Lib Lts FreshIds

/-- The id of a packet that asked for one. -/
def automaticId (autoId id : Int32) : Option Int32 :=
  if id = -1 then some (assignId autoId id).1 else none

theorem automaticId_eq (autoId id : Int32) :
    automaticId autoId id = if id = -1 then some autoId else none := by
  unfold automaticId assignId
  split <;> rfl

/-! ## `sendMessage` -/

/-- The label is a call of `sendMessage` under the id -1. -/
def SendLabel.asks {T : Type} : SendLabel T → Bool
  | .sendMessage id _ => id = -1
  | .send _ => false

def SendLabel.given {T : Type} (st : SendState) : SendLabel T → Option Int32
  | .sendMessage id _ => automaticId st.autoId id
  | .send _ => none

/-- Calls of `sendMessage` on one object, with the ids chosen for them. -/
def sendRecording (L : Libraries) : SendState × List Int32 → SendLabel L.arrow.Table →
    Option (SendState × List Int32) :=
  recording (sendStep L) SendLabel.given

theorem autoId_sendMessage (L : Libraries) (st : SendState) (id : Int32)
    (payload : Packet.PayloadVariants L.arrow.Table) :
    (st.sendMessage L id payload).autoId = (assignId st.autoId id).2 := by
  unfold SendState.sendMessage
  dsimp only
  split <;> rfl

theorem autoId_sent (st : SendState) (call : SendCall) (out : Bytes) (s : Option Sending) :
    (st.sent call out s).autoId = st.autoId := by
  cases s <;> rfl

theorem sendStep_counts (L : Libraries) :
    Counts (sendStep L) SendLabel.given SendState.autoId SendLabel.asks where
  given st l := by
    cases l with
    | sendMessage id payload =>
      simp only [SendLabel.given, SendLabel.asks, automaticId_eq, decide_eq_true_eq]
    | send result => rfl
  next st l st' h := by
    cases l with
    | sendMessage id payload =>
      simp only [sendStep] at h
      split at h
      · cases h
      · cases h
        rw [autoId_sendMessage, assignId]
        simp only [SendLabel.asks, decide_eq_true_eq]
        split <;> rfl
    | send result =>
      simp only [sendStep] at h
      split at h
      · cases h
      · obtain ⟨⟨out, s'⟩, -, rfl⟩ := Option.map_eq_some_iff.mp h
        exact autoId_sent ..

/-! ## `sendPacketTo` -/

namespace UdpNetworking

def asks {T : Type} (p : SendSession.AddressedPacket T) : Bool := p.packet.id = -1

def given {T : Type} (acc : List (Address × Bytes) × Int32) (p : SendSession.AddressedPacket T) :
    Option Int32 :=
  automaticId acc.2 p.packet.id

/-- Calls of `sendPacketTo` on one object: what they hand to `sendMessageTo`,
`autoId`, and the ids chosen for them. -/
def sendRecording (L : Libraries) : (List (Address × Bytes) × Int32) × List Int32 →
    SendSession.AddressedPacket L.arrow.Table →
    Option ((List (Address × Bytes) × Int32) × List Int32) :=
  recording (fun acc p => some (SendSession.handNext L acc p)) given

theorem handNext_counts (L : Libraries) :
    Counts (fun acc p => some (SendSession.handNext L acc p)) given Prod.snd asks where
  given acc p := by
    simp only [given, asks, automaticId_eq, decide_eq_true_eq]
  next acc p acc' h := by
    cases h
    have hnext : (SendSession.handNext L acc p).2 = (assignId acc.2 p.packet.id).2 := by
      unfold SendSession.handNext
      dsimp only
      split <;> rfl
    rw [hnext, assignId]
    simp only [asks, decide_eq_true_eq]
    split <;> rfl

end UdpNetworking

/-- **How long automatic ids stay fresh:** as long as a run has fewer than
2^31 calls under the id -1, on either transport. -/
theorem automatic_ids_fresh_iff (L : Libraries) :
    (∀ ls t, run (sendRecording L) ({}, []) ls = some t →
      (Fresh t.2 ↔ ls.countP SendLabel.asks < 2 ^ 31)) ∧
    ∀ packets t, run (UdpNetworking.sendRecording L) (([], 0), []) packets = some t →
      (Fresh t.2 ↔ packets.countP UdpNetworking.asks < 2 ^ 31) :=
  ⟨fun _ _ hr => fresh_iff_of_run (sendStep_counts L) rfl hr,
    fun _ _ hr => fresh_iff_of_run (UdpNetworking.handNext_counts L) rfl hr⟩

theorem automatic_ids_fresh_three :
    (∃ st, run (sendRecording Reference.libraries) ({}, []) [.sendMessage (-1) (.universal ⟨0, []⟩),
      .sendMessage 7 (.universal ⟨0, []⟩), .sendMessage (-1) (.ls ⟨[0x2F]⟩)] = some (st, [0, 1])) ∧
    Fresh [0, 1] ∧
    (∃ acc, run (UdpNetworking.sendRecording Reference.libraries) (([], 0), [])
      [{ address := ⟨.quad 10 0 0 2, 5000⟩, packet := { payload := .ls ⟨[0x2F]⟩ } }] =
        some (acc, [0])) ∧
    Fresh [0] := by
  obtain ⟨htcp, hudp⟩ := automatic_ids_fresh_iff Reference.libraries
  have hsent : ∃ st, run (sendRecording Reference.libraries) ({}, [])
      [.sendMessage (-1) (.universal ⟨0, []⟩), .sendMessage 7 (.universal ⟨0, []⟩),
        .sendMessage (-1) (.ls ⟨[0x2F]⟩)] = some (st, [0, 1]) := ⟨_, rfl⟩
  have hsentTo : ∃ acc, run (UdpNetworking.sendRecording Reference.libraries) (([], 0), [])
      [{ address := ⟨.quad 10 0 0 2, 5000⟩, packet := { payload := .ls ⟨[0x2F]⟩ } }] =
        some (acc, [0]) := ⟨_, rfl⟩
  obtain ⟨st, hst⟩ := hsent
  obtain ⟨acc, hacc⟩ := hsentTo
  exact ⟨⟨st, hst⟩, (htcp _ _ hst).mpr (by decide), ⟨acc, hacc⟩, (hudp _ _ hacc).mpr (by decide)⟩

/-! ## The counter runs out -/

/-- Packets that are rejected can be sent any number of times. -/
theorem run_rejected {L : Libraries} (h : L.Documented) (type : Int32) (k : Nat) (st : SendState)
    (hidle : st.current = none) (ids : List Int32) : ∃ t, run (sendRecording L) (st, ids)
      (List.replicate k (.sendMessage (-1) (.universal { type, bytes := [] }))) = some t := by
  induction k generalizing st ids with
  | zero => exact ⟨_, rfl⟩
  | succ k ih =>
    let label : SendLabel L.arrow.Table := .sendMessage (-1) (.universal { type, bytes := [] })
    have hstep : sendStep L st label =
        some (st.sendMessage L (-1) (.universal { type, bytes := [] })) := by
      simp only [label, sendStep, hidle]
    have hstill : (st.sendMessage L (-1) (.universal { type, bytes := [] })).current = none := by
      unfold SendState.sendMessage
      dsimp only
      split
      · rename_i buffer he
        exact absurd rfl (codable_of_encode h he)
      · exact hidle
      · exact hidle
    obtain ⟨t, ht⟩ := ih _ hstill (ids ++ (label.given st).toList)
    refine ⟨t, run_cons.mpr ⟨_, ?_, ht⟩⟩
    rw [sendRecording, recording, hstep]
    rfl

theorem not_fresh_of_rejected {k : Nat} (hk : 2 ^ 31 ≤ k) :
    ∃ ls t, run (sendRecording Reference.libraries) ({}, []) ls = some t ∧ ¬ Fresh t.2 := by
  obtain ⟨t, ht⟩ := run_rejected Reference.libraries_documented 0 k {} rfl []
  refine ⟨_, t, ht, fun hfresh => ?_⟩
  have hcount := (fresh_iff_of_run (sendStep_counts Reference.libraries) rfl ht).mp hfresh
  rw [List.countP_replicate] at hcount
  exact absurd hcount (Nat.not_lt.mpr hk)

/-- After 2^31 - 1 rejected packets the counter is at its last value; the next
one increments it beyond the range of an `int`. -/
theorem automatic_ids_run_out :
    ¬ ∀ ls t, run (sendRecording Reference.libraries) ({}, []) ls = some t → Fresh t.2 := by
  intro h
  obtain ⟨ls, t, hr, hnot⟩ := not_fresh_of_rejected (Nat.le_refl (2 ^ 31))
  exact hnot (h ls t hr)

end Ttp2
