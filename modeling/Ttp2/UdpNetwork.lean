import Ttp2.PeerSend
import Ttp2.PeerReceive

/-! # A network of UDP peers

Any number of peers, each with its sending and its receiving half, and third
parties that send what they like. What was ever sent may arrive at any time
and may be lost by never arriving: the histories of the peers are what is on
its way. -/
namespace Ttp2
open Lib Lts

structure UdpNetwork (T : Type) where
  senders : Address → SendSession T := fun _ => {}
  receivers : Address → ReceiveSession T := fun _ => {}

/-- Where a datagram that arrives comes from: the `k`-th transmission of a
peer, the `k`-th acknowledgement of a peer, or a third party. -/
inductive Provenance where
  | transmission (p : Address) (k : Nat)
  | acknowledgement (p : Address) (k : Nat)
  | thirdParty (d : UdpDatagram)
  deriving DecidableEq

inductive NetworkLabel (T : Type) where
  | send (a : Address) (l : SendSessionLabel T)
  | receive (a : Address) (l : ReceiveLabel)
  /-- a datagram arrives at the server socket it is addressed to -/
  | toServer (o : Provenance)
  /-- a datagram arrives at the temporary socket of the running call of `a`, where
  `stale` stands in the buffer -/
  | toCall (o : Provenance) (a : Address) (stale : UInt8)
  | disconnect (a : Address)
  deriving DecidableEq

namespace UdpNetwork
variable {T : Type}

def setSender (s : UdpNetwork T) (a : Address) (x : SendSession T) : UdpNetwork T :=
  { s with senders := Function.update s.senders a x }

def setReceiver (s : UdpNetwork T) (a : Address) (x : ReceiveSession T) : UdpNetwork T :=
  { s with receivers := Function.update s.receivers a x }

/-- The datagram that arrives. A third party is no peer and transmits no call's buffer. -/
def fetch (peers : List Address) (s : UdpNetwork T) : Provenance → Option UdpDatagram
  | .transmission p k => if p ∈ peers then (s.senders p).sent[k]? else none
  | .acknowledgement p k => if p ∈ peers then (s.receivers p).acks[k]? else none
  | .thirdParty d => if d.source ∉ peers ∧ d.origin = none then some d else none

/-- The address of the temporary socket of a running call. -/
def callSocket (a : Address) (x : SendSession T) : Option Address :=
  x.running.map fun call => ⟨a.ip, call.1.socket⟩

def stepSender (L : Libraries) (peers : List Address) (s : UdpNetwork L.arrow.Table) (a : Address)
    (l : SendSessionLabel L.arrow.Table) : Option (UdpNetwork L.arrow.Table) :=
  if a ∈ peers then (SendSession.step L a (s.senders a) l).map (s.setSender a) else none

def stepReceiver (L : Libraries) (peers : List Address) (s : UdpNetwork L.arrow.Table)
    (a : Address) (l : ReceiveLabel) : Option (UdpNetwork L.arrow.Table) :=
  if a ∈ peers then (ReceiveSession.step L a (s.receivers a) l).map (s.setReceiver a) else none

def step (L : Libraries) (peers : List Address) (s : UdpNetwork L.arrow.Table) :
    NetworkLabel L.arrow.Table → Option (UdpNetwork L.arrow.Table)
  | .send _ (.answer _ _) | .send _ .disconnect | .receive _ (.arrive _) | .receive _ .disconnect =>
    none
  | .send a l => s.stepSender L peers a l
  | .receive a l => s.stepReceiver L peers a l
  | .toServer o =>
    (s.fetch peers o).bind fun d => s.stepReceiver L peers d.destination (.arrive d)
  | .toCall o a stale =>
    (s.fetch peers o).bind fun d =>
      if callSocket a (s.senders a) = some d.destination then
        s.stepSender L peers a (.answer d stale)
      else none
  | .disconnect a =>
    (s.stepSender L peers a .disconnect).bind fun s => s.stepReceiver L peers a .disconnect

/-! ## What a step can do -/

/-- The steps of a network: of one half of one peer, or of both for a disconnect. -/
inductive Moves (L : Libraries) (peers : List Address) (s : UdpNetwork L.arrow.Table) :
    NetworkLabel L.arrow.Table → UdpNetwork L.arrow.Table → Prop where
  | send (a : Address) (l : SendSessionLabel L.arrow.Table) (x : SendSession L.arrow.Table)
      (ha : a ∈ peers) (hl : ∀ d stale, l ≠ .answer d stale)
      (hs : SendSession.step L a (s.senders a) l = some x) :
      Moves L peers s (.send a l) (s.setSender a x)
  | answer (o : Provenance) (a : Address) (stale : UInt8) (d : UdpDatagram)
      (x : SendSession L.arrow.Table) (ha : a ∈ peers) (hd : s.fetch peers o = some d)
      (hsocket : callSocket a (s.senders a) = some d.destination)
      (hs : SendSession.step L a (s.senders a) (.answer d stale) = some x) :
      Moves L peers s (.toCall o a stale) (s.setSender a x)
  | receive (a : Address) (l : ReceiveLabel) (x : ReceiveSession L.arrow.Table)
      (ha : a ∈ peers) (hl : ∀ d, l ≠ .arrive d)
      (hs : ReceiveSession.step L a (s.receivers a) l = some x) :
      Moves L peers s (.receive a l) (s.setReceiver a x)
  | arrive (o : Provenance) (d : UdpDatagram) (x : ReceiveSession L.arrow.Table)
      (ha : d.destination ∈ peers) (hd : s.fetch peers o = some d)
      (hs : ReceiveSession.step L d.destination (s.receivers d.destination) (.arrive d) = some x) :
      Moves L peers s (.toServer o) (s.setReceiver d.destination x)
  | disconnect (a : Address) (x : SendSession L.arrow.Table) (y : ReceiveSession L.arrow.Table)
      (ha : a ∈ peers) (hx : SendSession.step L a (s.senders a) .disconnect = some x)
      (hy : ReceiveSession.step L a (s.receivers a) .disconnect = some y) :
      Moves L peers s (.disconnect a) ((s.setSender a x).setReceiver a y)

theorem stepSender_eq_some {L : Libraries} {peers : List Address} {s t : UdpNetwork L.arrow.Table}
    {a : Address} {l : SendSessionLabel L.arrow.Table} (h : s.stepSender L peers a l = some t) :
    a ∈ peers ∧ ∃ x, SendSession.step L a (s.senders a) l = some x ∧ t = s.setSender a x := by
  unfold stepSender at h
  split at h
  · rename_i ha
    obtain ⟨x, hx, rfl⟩ := Option.map_eq_some_iff.mp h
    exact ⟨ha, x, hx, rfl⟩
  · cases h

theorem stepReceiver_eq_some {L : Libraries} {peers : List Address}
    {s t : UdpNetwork L.arrow.Table} {a : Address} {l : ReceiveLabel}
    (h : s.stepReceiver L peers a l = some t) :
    a ∈ peers ∧ ∃ x, ReceiveSession.step L a (s.receivers a) l = some x ∧
      t = s.setReceiver a x := by
  unfold stepReceiver at h
  split at h
  · rename_i ha
    obtain ⟨x, hx, rfl⟩ := Option.map_eq_some_iff.mp h
    exact ⟨ha, x, hx, rfl⟩
  · cases h

theorem moves_of_step {L : Libraries} {peers : List Address} {s t : UdpNetwork L.arrow.Table}
    {l : NetworkLabel L.arrow.Table} (h : step L peers s l = some t) : Moves L peers s l t := by
  cases l with
  | send a l =>
    have hlocal : (∀ d stale, l ≠ .answer d stale) ∧ s.stepSender L peers a l = some t := by
      cases l with
      | answer d stale => cases h
      | disconnect => cases h
      | _ => exact ⟨nofun, h⟩
    obtain ⟨ha, x, hx, rfl⟩ := stepSender_eq_some hlocal.2
    exact .send a l x ha hlocal.1 hx
  | receive a l =>
    have hlocal : (∀ d, l ≠ .arrive d) ∧ s.stepReceiver L peers a l = some t := by
      cases l with
      | arrive d => cases h
      | disconnect => cases h
      | _ => exact ⟨nofun, h⟩
    obtain ⟨ha, x, hx, rfl⟩ := stepReceiver_eq_some hlocal.2
    exact .receive a l x ha hlocal.1 hx
  | toServer o =>
    obtain ⟨d, hd, h⟩ := Option.bind_eq_some_iff.mp h
    obtain ⟨ha, x, hx, rfl⟩ := stepReceiver_eq_some h
    exact .arrive o d x ha hd hx
  | toCall o a stale =>
    obtain ⟨d, hd, h⟩ := Option.bind_eq_some_iff.mp h
    split at h
    · rename_i hsocket
      obtain ⟨ha, x, hx, rfl⟩ := stepSender_eq_some h
      exact .answer o a stale d x ha hd hsocket hx
    · cases h
  | disconnect a =>
    obtain ⟨m, hm, h⟩ := Option.bind_eq_some_iff.mp h
    obtain ⟨ha, x, hx, rfl⟩ := stepSender_eq_some hm
    obtain ⟨-, y, hy, rfl⟩ := stepReceiver_eq_some h
    exact .disconnect a x y ha hx hy

/-! ## One half of one peer moves -/

@[simp] theorem senders_setReceiver (s : UdpNetwork T) (a : Address) (y : ReceiveSession T) :
    (s.setReceiver a y).senders = s.senders := rfl

@[simp] theorem receivers_setSender (s : UdpNetwork T) (a : Address) (x : SendSession T) :
    (s.setSender a x).receivers = s.receivers := rfl

theorem sender_self (s : UdpNetwork T) (a : Address) (x : SendSession T) :
    (s.setSender a x).senders a = x := Function.update_self ..

theorem sender_ne (s : UdpNetwork T) {a p : Address} (x : SendSession T) (h : p ≠ a) :
    (s.setSender a x).senders p = s.senders p := Function.update_of_ne h ..

theorem receiver_self (s : UdpNetwork T) (a : Address) (y : ReceiveSession T) :
    (s.setReceiver a y).receivers a = y := Function.update_self ..

theorem receiver_ne (s : UdpNetwork T) {a p : Address} (y : ReceiveSession T) (h : p ≠ a) :
    (s.setReceiver a y).receivers p = s.receivers p := Function.update_of_ne h ..

/-- What holds of every sender holds of it after one of them moved. -/
theorem forall_setSender {P : SendSession T → Prop} {s : UdpNetwork T} {a : Address}
    {x : SendSession T} (h : ∀ p, P (s.senders p)) (hx : P x) (p : Address) :
    P ((s.setSender a x).senders p) := by
  by_cases hp : p = a
  · rw [hp, sender_self]
    exact hx
  · rw [sender_ne s x hp]
    exact h p

end UdpNetwork
end Ttp2
