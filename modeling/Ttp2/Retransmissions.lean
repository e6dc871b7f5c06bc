import Ttp2.UdpNetworking

/-! # Where `sendMessageTo` transmits

The loop of `sendMessageTo` over everything its calls of `sendto` and its waits
may return. It transmits up to ten times, always the whole buffer. The first
destination is what `inet_addr` and `htons` make of the arguments, and the
variable it stands in is the one `recvfrom` writes the sender's address to: a
datagram that does not end the loop decides where the next transmission goes. -/
namespace Ttp2
open Lib Octets Inet

/-- A round of the loop: whether `sendto` takes a buffer it can take, and what
the wait behind it returns. -/
structure Round where
  sent : Bool
  result : AckResult
  deriving DecidableEq

namespace SendingTo

/-- What is transmitted in the rounds listed, by destination and bytes: nothing
if the buffer is too long. -/
def transmissions (c : SendingTo) : List Round → List (Address × Bytes)
  | [] => []
  | round :: rounds =>
    (if round.sent ∧ c.buffer.length ≤ maxDatagram then [(c.serverAddress, c.buffer)] else []) ++
      match c.waited round.result with
      | .again c => c.transmissions rounds
      | .returned | .threw => []

end SendingTo

namespace UdpNetworking

/-- The port that `htons(port)` puts into the address: the low 16 bits. -/
def htons (port : Int32) : UInt16 := .ofNat (port.toInt % 2 ^ 16).toNat

/-- The transmissions of a call, whose temporary socket has the port `socket`. -/
def sendMessageTo (white : UInt8 → Bool) (socket : UInt16) (ip : Bytes) (port : Int32)
    (buffer : Bytes) (rounds : List Round) : List (Address × Bytes) :=
  (SendingTo.start socket ⟨inetAddr white ip, htons port⟩ buffer).transmissions rounds

/-- The address that `ip` and `port` are the text and the number of. -/
def Denotes (white : UInt8 → Bool) (ip : Bytes) (port : Int32) (address : Address) : Prop :=
  inetAton white ip = some address.ip ∧ (address.port.toNat : Int) = port.toInt

theorem htons_eq {port : Int32} (h : 0 ≤ port.toInt) (hsmall : port.toInt < 2 ^ 16) :
    ((htons port).toNat : Int) = port.toInt := by
  have hlow : (port.toInt % 2 ^ 16).toNat < UInt16.size := by
    show _ < 2 ^ 16
    omega
  rw [htons, UInt16.toNat_ofNat_of_lt' hlow]
  omega

end UdpNetworking

namespace SendingTo

/-- The rounds the loop makes: one that ends it is the last. -/
def made : Nat → List Round → List Round
  | 0, _ | _, [] => []
  | n + 1, round :: rounds => round :: if round.result.continues then made n rounds else []

/-- Where the transmissions of these rounds go, the first one to `address`. -/
def destinations (address : Address) : List Round → List Address
  | [] => []
  | round :: rounds =>
    (if round.sent then [address] else []) ++ destinations (round.result.source.getD address) rounds

/-- The sender of the last datagram received. -/
def lastSource (rounds : List Round) : Option Address :=
  (rounds.filterMap (·.result.source)).getLast?

/-- `sendto` never takes the buffer. -/
theorem transmissions_eq_nil {c : SendingTo} (hlong : maxDatagram < c.buffer.length)
    (rounds : List Round) : c.transmissions rounds = [] := by
  induction rounds generalizing c with
  | nil => rfl
  | cons round rounds ih =>
    rw [transmissions, if_neg (fun h => Nat.not_le.mpr hlong h.2), List.nil_append]
    generalize round.result = result
    have hout := c.outcome result
    generalize c.waited result = attempt at hout
    cases hout with
    | again c' hgoes hretries => exact ih (hretries.buffer ▸ hlong)
    | _ => rfl

theorem transmissions_eq {c : SendingTo} (hshort : c.buffer.length ≤ maxDatagram)
    (rounds : List Round) :
    c.transmissions rounds =
      (destinations c.serverAddress (made c.maxResendCount rounds)).map (·, c.buffer) := by
  induction rounds generalizing c with
  | nil => cases c.maxResendCount <;> rfl
  | cons round rounds ih =>
    obtain ⟨n, hn⟩ : ∃ n, c.maxResendCount = n + 1 := ⟨_, (Nat.sub_add_cancel c.more).symm⟩
    have hmore : c.transmissions (round :: rounds) =
        (if round.sent then [(c.serverAddress, c.buffer)] else []) ++
          match c.waited round.result with
          | .again c => c.transmissions rounds
          | .returned | .threw => [] := by
      simp only [transmissions, and_iff_left hshort]
    rw [hmore, hn, made, destinations, List.map_append, apply_ite (List.map (·, c.buffer))]
    refine congrArg _ ?_
    generalize hresult : round.result = result
    have hout := c.outcome result
    generalize c.waited result = attempt at hout
    cases hout with
    | again c' hgoes hretries =>
      dsimp only
      have hcount : c'.maxResendCount = n := Nat.succ.inj (hretries.count.trans hn)
      rw [if_pos hgoes, ih (hretries.buffer ▸ hshort), hretries.serverAddress, hretries.buffer,
        hcount]
    | gaveUp hgoes hlast =>
      obtain rfl : n = 0 := Nat.succ.inj (hn.symm.trans hlast)
      rw [if_pos hgoes]
      cases rounds <;> rfl
    | acknowledged source bytes stale hone =>
      have hends : (AckResult.datagram source bytes stale).continues = false :=
        decide_eq_false (not_not.mpr hone)
      rw [hends]
      rfl
    | threw => rfl

theorem length_made (n : Nat) (rounds : List Round) : (made n rounds).length ≤ n := by
  induction rounds generalizing n with
  | nil => cases n <;> exact Nat.zero_le _
  | cons round rounds ih =>
    cases n with
    | zero => exact Nat.le_refl 0
    | succ n =>
      rw [made, List.length_cons]
      split
      · exact Nat.succ_le_succ (ih n)
      · exact Nat.succ_le_succ (Nat.zero_le n)

theorem length_destinations (address : Address) (rounds : List Round) :
    (destinations address rounds).length = rounds.countP Round.sent := by
  induction rounds generalizing address with
  | nil => rfl
  | cons round rounds ih =>
    rw [destinations, List.length_append, ih, List.countP_cons]
    cases round.sent <;> simp [Nat.add_comm]

/-- A transmission goes to the sender of the last datagram received before it. -/
theorem mem_destinations {address destination : Address} {rounds : List Round} :
    destination ∈ destinations address rounds ↔
      ∃ before round after, rounds = before ++ round :: after ∧ round.sent = true ∧
        destination = (lastSource before).getD address := by
  induction rounds generalizing address with
  | nil => simp [destinations]
  | cons first rounds ih =>
    have hlast : ∀ before, (lastSource (first :: before)).getD address =
        (lastSource before).getD (first.result.source.getD address) := by
      intro before
      cases hs : first.result.source with
      | none => simp [lastSource, hs]
      | some source => simp [lastSource, hs, List.getLast?_cons]
    rw [destinations, List.mem_append, ih]
    constructor
    · rintro (hfirst | ⟨before, round, after, rfl, hsent, hdest⟩)
      · split at hfirst
        · rename_i hsent
          exact ⟨[], first, rounds, rfl, hsent, List.mem_singleton.mp hfirst⟩
        · cases hfirst
      · exact ⟨first :: before, round, after, rfl, hsent, hdest.trans (hlast before).symm⟩
    · rintro ⟨before, round, after, hsplit, hsent, hdest⟩
      cases before with
      | nil =>
        cases hsplit
        rw [if_pos hsent, hdest]
        exact .inl (List.mem_singleton_self _)
      | cons b before =>
        cases hsplit
        exact .inr ⟨before, round, after, rfl, hsent, hdest.trans (hlast before)⟩

end SendingTo

namespace UdpNetworking

/-- **Nothing leads a call astray**: `ip` is the text of an address and `port`
the number of a port, the buffer is not too long and `sendto` takes it at least
once, and where it does, the last datagram received before, if any, came from
there. -/
structure Undiverted (white : UInt8 → Bool) (ip : Bytes) (port : Int32) (buffer : Bytes)
    (rounds : List Round) : Prop where
  text : (inetAton white ip).isSome = true
  number : 0 ≤ port.toInt ∧ port.toInt < 2 ^ 16
  short : buffer.length ≤ maxDatagram
  sent : ∃ round ∈ rounds, round.sent = true
  sources : ∀ before round after, rounds = before ++ round :: after → round.sent = true →
    ∀ source ∈ SendingTo.lastSource before, Denotes white ip port source

/-- **Where the transmissions of a call go**: one up to ten of the whole buffer,
all to the given address, exactly if nothing leads it astray. -/
theorem transmissions_iff (white : UInt8 → Bool) (socket : UInt16) (ip : Bytes) (port : Int32)
    (buffer : Bytes) (rounds : List Round) :
    let sent := sendMessageTo white socket ip port buffer rounds
    (1 ≤ sent.length ∧ sent.length ≤ 10 ∧ ∀ t ∈ sent, Denotes white ip port t.1 ∧ t.2 = buffer) ↔
      Undiverted white ip port buffer (SendingTo.made 10 rounds) := by
  intro sent
  by_cases hshort : buffer.length ≤ maxDatagram
  swap
  · have hnone : sent = [] := SendingTo.transmissions_eq_nil (Nat.not_le.mp hshort) rounds
    rw [hnone]
    exact iff_of_false (fun h => Nat.not_succ_le_zero 0 h.1) fun h => hshort h.short
  have hsent : sent = (SendingTo.destinations ⟨inetAddr white ip, htons port⟩
      (SendingTo.made 10 rounds)).map (·, buffer) :=
    SendingTo.transmissions_eq (c := .start socket ⟨inetAddr white ip, htons port⟩ buffer) hshort
      rounds
  have hlength : sent.length = (SendingTo.made 10 rounds).countP Round.sent := by
    rw [hsent, List.length_map, SendingTo.length_destinations]
  have hall : (∀ t ∈ sent, Denotes white ip port t.1 ∧ t.2 = buffer) ↔
      ∀ destination ∈ SendingTo.destinations ⟨inetAddr white ip, htons port⟩
        (SendingTo.made 10 rounds), Denotes white ip port destination := by
    rw [hsent]
    simp
  rw [hall]
  constructor
  · rintro ⟨hone, -, hdenotes⟩
    obtain ⟨round, hround, hsent⟩ := List.countP_pos_iff.mp (hlength ▸ hone)
    obtain ⟨before, after, hsplit⟩ := List.append_of_mem hround
    obtain ⟨hip, hport⟩ := hdenotes _
      (SendingTo.mem_destinations.mpr ⟨before, round, after, hsplit, hsent, rfl⟩)
    refine ⟨by rw [hip]; rfl, ?_, hshort, ⟨round, hround, hsent⟩, ?_⟩
    · rw [← hport]
      exact ⟨Int.natCast_nonneg _, by exact_mod_cast UInt16.toNat_lt _⟩
    · intro before round after hsplit hsent source hsource
      have hgoes := hdenotes _
        (SendingTo.mem_destinations.mpr ⟨before, round, after, hsplit, hsent, rfl⟩)
      rwa [Option.mem_def.mp hsource, Option.getD_some] at hgoes
  · rintro ⟨hip, ⟨hport, hsmall⟩, -, ⟨round, hround, hsent⟩, hsources⟩
    refine ⟨?_, ?_, ?_⟩
    · rw [hlength]
      exact List.countP_pos_iff.mpr ⟨round, hround, hsent⟩
    · rw [hlength]
      exact Nat.le_trans List.countP_le_length (SendingTo.length_made 10 rounds)
    · intro destination hdest
      obtain ⟨before, round, after, hsplit, hsent, rfl⟩ := SendingTo.mem_destinations.mp hdest
      cases hsource : SendingTo.lastSource before with
      | none =>
        obtain ⟨a, ha⟩ := Option.isSome_iff_exists.mp hip
        refine ⟨?_, htons_eq hport hsmall⟩
        rw [ha, Option.getD_none, inetAddr, ha]
        rfl
      | some source => exact hsources before round after hsplit hsent source hsource

/-- A stray datagram that is no acknowledgement draws the next transmission to
its sender. -/
theorem retransmission_diverted :
    ¬ ∀ (white : UInt8 → Bool) (socket : UInt16) (ip : Bytes) (port : Int32) (buffer : Bytes)
      (rounds : List Round),
      (inetAton white ip).isSome = true → 0 ≤ port.toInt ∧ port.toInt < 2 ^ 16 →
        buffer.length ≤ maxDatagram → (∃ round ∈ SendingTo.made 10 rounds, round.sent = true) →
          let sent := sendMessageTo white socket ip port buffer rounds
          1 ≤ sent.length ∧ sent.length ≤ 10 ∧
            ∀ t ∈ sent, Denotes white ip port t.1 ∧ t.2 = buffer := by
  intro h
  obtain ⟨-, -, hall⟩ := h (fun _ => false) 40000
    [0x31, 0x30, 0x2E, 0x30, 0x2E, 0x30, 0x2E, 0x32] 5000 [0, 0, 0, 1, 0x30]
    [⟨true, .datagram ⟨.quad 10 0 0 9, 9⟩ [0x30] 0⟩, ⟨true, .timeout⟩]
    (by decide +kernel) (by decide) (by decide) ⟨⟨true, .timeout⟩, by decide, rfl⟩
  obtain ⟨⟨-, hport⟩, -⟩ := hall (⟨.quad 10 0 0 9, 9⟩, [0, 0, 0, 1, 0x30])
    (List.mem_cons_of_mem _ List.mem_cons_self)
  exact absurd hport (by decide)

end UdpNetworking
end Ttp2
