import Ttp2.TcpNetworking
import Ttp2.Lib.Lts
import Mathlib.Algebra.BigOperators.Group.List.Basic

/-! # The throughput benchmark (`test/client/src/utils/benchmark.cpp`)

For a minute one thread pushes requests, at most 500 of them unanswered, while
the thread of the constructor pops the responses and counts them; then it
disconnects, notifies and joins. However the threads interleave, the window is
kept (`window`), and every response is counted once (`statistics`) as long as
an `int` holds how many there were. -/
namespace Ttp2
open Lib Lts

/-- Where `sendSession` is. At `inFlightTest` and at `isConnected` it is in the
predicate of the wait and holds `packetMutex`. -/
inductive BenchmarkSenderPc where
  | loopTest
  | lock
  | isConnected
  | inFlightTest
  | parked
  | sendTest
  | pushRequest
  | count
  | finished
  deriving DecidableEq

/-- Where the constructor is. -/
inductive BenchmarkPc where
  | clock
  | hasResponse
  | popResponse
  | count
  | notifyOne
  | delta
  | disconnect
  | notifyAll
  | join
  | cleanup
  | cleanupPop
  | returned
  deriving DecidableEq

/-- The benchmark over its session, its counters an `int` or a `long long` as
in the source. `pushed` and `received` count the requests pushed and the
responses the measuring loop popped; times are nanoseconds since `start`. -/
structure Benchmark (T : Type) where
  net : TcpNetworking T := {}
  connected : Bool := true
  inFlight : Int := 0
  sender : BenchmarkSenderPc := .loopTest
  main : BenchmarkPc := .clock
  now : Nat := 0
  deltaStart : Nat := 0
  ppsCollection : List Int32 := []
  totalBytesSent : Int64 := 0
  maxPacketsPerSecond : Int32 := 0
  receivedPacketsThisSecond : Int32 := 0
  pushed : Nat := 0
  received : Nat := 0

/-- The receive thread of the session pushes a response, its send thread takes
a request; the sender moves, or wakes up spuriously; the constructor reads the
clock, or moves. -/
inductive BenchmarkLabel (T : Type) where
  | pushResponse (packet : Packet T)
  | takeRequest
  | sender
  | wake
  | clock (now : Nat)
  | main

namespace Benchmark
variable {T : Type}

def maxInFlight : Int := 500

def benchmarkDurationSeconds : Nat := 60

/-- The packet `sendSession` sends: a payload of `max(0, packetSize)` zeros. -/
def packet (packetSize : Int32) : Packet T :=
  { payload := .standard { payload := List.replicate packetSize.toInt.toNat 0x30 } }

def holdsPacketMutex : BenchmarkSenderPc → Bool
  | .isConnected | .inFlightTest => true
  | _ => false

/-- `notify_one` and `notify_all`: nobody but the sender waits. -/
def notify (s : Benchmark T) : Benchmark T :=
  { s with sender := if s.sender = .parked then .lock else s.sender }

/-- Lines 83 to 86. -/
def sum (s : Benchmark T) : Int32 := s.ppsCollection.foldl (· + ·) 0

/-- `avgPps`: an `int` divided by a `size_t` is converted to `size_t` first,
and the quotient back to `int`. -/
def avgPps (s : Benchmark T) : Int32 :=
  if s.ppsCollection.isEmpty then s.receivedPacketsThisSecond
  else .ofNat ((s.sum.toInt % 2 ^ 64).toNat / s.ppsCollection.length)

/-- `sendSession` -/
def stepSender (payloadSize : Int32) (s : Benchmark T) : Option (Benchmark T) :=
  match s.sender with
  | .loopTest => some { s with sender := if s.connected then .lock else .finished }
  | .lock => some { s with sender := .isConnected }
  | .isConnected => some { s with sender := if s.connected then .inFlightTest else .sendTest }
  | .inFlightTest =>
    some { s with sender := if s.inFlight < maxInFlight then .sendTest else .parked }
  | .parked => none
  | .sendTest => some { s with sender := if s.connected then .pushRequest else .finished }
  | .pushRequest => some { s with
      net := s.net.pushRequest (packet payloadSize), pushed := s.pushed + 1, sender := .count }
  | .count => some { s with inFlight := s.inFlight + 1, sender := .loopTest }
  | .finished => none

/-- Lines 55 to 63: once a second the count goes into `ppsCollection`. -/
def delta (s : Benchmark T) : Benchmark T :=
  let s := { s with main := .clock }
  if 1000 ≤ (s.now - s.deltaStart) / 10 ^ 6 then
    { s with
      deltaStart := s.now
      maxPacketsPerSecond :=
        if s.maxPacketsPerSecond < s.receivedPacketsThisSecond then s.receivedPacketsThisSecond
        else s.maxPacketsPerSecond
      ppsCollection := s.ppsCollection ++ [s.receivedPacketsThisSecond]
      receivedPacketsThisSecond := 0 }
  else s

/-- The constructor, but for its readings of the clock. -/
def stepMain (payloadSize : Int32) (s : Benchmark T) : Option (Benchmark T) :=
  match s.main with
  | .clock => none
  | .hasResponse => some { s with
      main := if (s.net.queue .response).isEmpty then .delta else .popResponse }
  | .popResponse => (s.net.pop .response).map fun (_, net) => { s with
      net, main := .count
      receivedPacketsThisSecond := s.receivedPacketsThisSecond + 1
      totalBytesSent := s.totalBytesSent + payloadSize.toInt64
      received := s.received + 1 }
  | .count =>
    if holdsPacketMutex s.sender then none
    else some { s with inFlight := s.inFlight - 1, main := .notifyOne }
  | .notifyOne => some { s.notify with main := .hasResponse }
  | .delta => some s.delta
  | .disconnect => some { s with connected := false, main := .notifyAll }
  | .notifyAll => some { s.notify with main := .join }
  | .join => if s.sender = .finished then some { s with main := .cleanup } else none
  | .cleanup => some { s with
      main := if (s.net.queue .response).isEmpty then .returned else .cleanupPop }
  | .cleanupPop => (s.net.pop .response).map fun (_, net) => { s with net, main := .cleanup }
  | .returned => none

def step (payloadSize : Int32) (s : Benchmark T) : BenchmarkLabel T → Option (Benchmark T)
  | .pushResponse packet => some { s with net := s.net.pushResponse packet }
  | .takeRequest => (s.net.pop .request).map fun (_, net) => { s with net }
  | .sender => s.stepSender payloadSize
  | .wake => if s.sender = .parked then some { s with sender := .lock } else none
  | .clock now =>
    if s.main = .clock then some { s with
      now, main := if benchmarkDurationSeconds ≤ now / 10 ^ 9 then .disconnect else .hasResponse }
    else none
  | .main => s.stepMain payloadSize

variable {payloadSize : Int32} {s t : Benchmark T} {l : BenchmarkLabel T}

/-! ## What a step can do -/

/-- The steps of the sender. -/
inductive SenderMoves (payloadSize : Int32) (s : Benchmark T) : Benchmark T → Prop where
  | loopTest (hpc : s.sender = .loopTest) : SenderMoves payloadSize s
      { s with sender := if s.connected then .lock else .finished }
  | lock (hpc : s.sender = .lock) : SenderMoves payloadSize s { s with sender := .isConnected }
  | isConnected (hpc : s.sender = .isConnected) : SenderMoves payloadSize s
      { s with sender := if s.connected then .inFlightTest else .sendTest }
  | inFlightTest (hpc : s.sender = .inFlightTest) : SenderMoves payloadSize s
      { s with sender := if s.inFlight < maxInFlight then .sendTest else .parked }
  | sendTest (hpc : s.sender = .sendTest) : SenderMoves payloadSize s
      { s with sender := if s.connected then .pushRequest else .finished }
  | pushRequest (hpc : s.sender = .pushRequest) : SenderMoves payloadSize s
      { s with net := s.net.pushRequest (packet payloadSize), pushed := s.pushed + 1,
               sender := .count }
  | count (hpc : s.sender = .count) : SenderMoves payloadSize s
      { s with inFlight := s.inFlight + 1, sender := .loopTest }

/-- The steps of the constructor, its readings of the clock included. -/
inductive MainMoves (payloadSize : Int32) (s : Benchmark T) : Benchmark T → Prop where
  | clock (now : Nat) (hpc : s.main = .clock) : MainMoves payloadSize s { s with
      now, main := if benchmarkDurationSeconds ≤ now / 10 ^ 9 then .disconnect else .hasResponse }
  | hasResponse (hpc : s.main = .hasResponse) : MainMoves payloadSize s
      { s with main := if (s.net.queue .response).isEmpty then .delta else .popResponse }
  | popResponse (response : Packet T) (rest : List (Packet T)) (hpc : s.main = .popResponse)
      (hq : s.net.queue .response = response :: rest) : MainMoves payloadSize s { s with
      net := s.net.setQueue .response rest, main := .count
      receivedPacketsThisSecond := s.receivedPacketsThisSecond + 1
      totalBytesSent := s.totalBytesSent + payloadSize.toInt64
      received := s.received + 1 }
  | count (hpc : s.main = .count) (hfree : holdsPacketMutex s.sender = false) :
      MainMoves payloadSize s { s with inFlight := s.inFlight - 1, main := .notifyOne }
  | notifyOne (hpc : s.main = .notifyOne) :
      MainMoves payloadSize s { s.notify with main := .hasResponse }
  | delta (hpc : s.main = .delta) : MainMoves payloadSize s s.delta
  | disconnect (hpc : s.main = .disconnect) :
      MainMoves payloadSize s { s with connected := false, main := .notifyAll }
  | notifyAll (hpc : s.main = .notifyAll) :
      MainMoves payloadSize s { s.notify with main := .join }
  | join (hpc : s.main = .join) (hfinished : s.sender = .finished) :
      MainMoves payloadSize s { s with main := .cleanup }
  | cleanup (hpc : s.main = .cleanup) : MainMoves payloadSize s
      { s with main := if (s.net.queue .response).isEmpty then .returned else .cleanupPop }
  | cleanupPop (response : Packet T) (rest : List (Packet T)) (hpc : s.main = .cleanupPop)
      (hq : s.net.queue .response = response :: rest) : MainMoves payloadSize s
      { s with net := s.net.setQueue .response rest, main := .cleanup }

/-- The steps by who makes them. -/
inductive Moves (payloadSize : Int32) (s : Benchmark T) : BenchmarkLabel T → Benchmark T → Prop
  where
  | pushResponse (packet : Packet T) :
      Moves payloadSize s (.pushResponse packet) { s with net := s.net.pushResponse packet }
  | takeRequest (request : Packet T) (rest : List (Packet T))
      (hq : s.net.queue .request = request :: rest) :
      Moves payloadSize s .takeRequest { s with net := s.net.setQueue .request rest }
  | wake (hpc : s.sender = .parked) : Moves payloadSize s .wake { s with sender := .lock }
  | sender {t : Benchmark T} (hm : SenderMoves payloadSize s t) : Moves payloadSize s .sender t
  | main {t : Benchmark T} {l : BenchmarkLabel T} (hl : l = .main ∨ ∃ now, l = .clock now)
      (hm : MainMoves payloadSize s t) : Moves payloadSize s l t

theorem senderMoves_of_step (h : s.stepSender payloadSize = some t) :
    SenderMoves payloadSize s t := by
  unfold stepSender at h
  split at h
  · rename_i hpc
    cases h
    exact .loopTest hpc
  · rename_i hpc
    cases h
    exact .lock hpc
  · rename_i hpc
    cases h
    exact .isConnected hpc
  · rename_i hpc
    cases h
    exact .inFlightTest hpc
  · cases h
  · rename_i hpc
    cases h
    exact .sendTest hpc
  · rename_i hpc
    cases h
    exact .pushRequest hpc
  · rename_i hpc
    cases h
    exact .count hpc
  · cases h

theorem mainMoves_of_step (h : s.stepMain payloadSize = some t) : MainMoves payloadSize s t := by
  unfold stepMain at h
  split at h
  · cases h
  · rename_i hpc
    cases h
    exact .hasResponse hpc
  · rename_i hpc
    obtain ⟨⟨response, net⟩, hpop, rfl⟩ := Option.map_eq_some_iff.mp h
    obtain ⟨rest, hq, rfl⟩ := TcpNetworking.pop_eq_some hpop
    exact .popResponse response rest hpc hq
  · rename_i hpc
    split at h
    · cases h
    · rename_i hfree
      cases h
      exact .count hpc (Bool.eq_false_iff.mpr hfree)
  · rename_i hpc
    cases h
    exact .notifyOne hpc
  · rename_i hpc
    cases h
    exact .delta hpc
  · rename_i hpc
    cases h
    exact .disconnect hpc
  · rename_i hpc
    cases h
    exact .notifyAll hpc
  · rename_i hpc
    split at h
    · rename_i hfinished
      cases h
      exact .join hpc hfinished
    · cases h
  · rename_i hpc
    cases h
    exact .cleanup hpc
  · rename_i hpc
    obtain ⟨⟨response, net⟩, hpop, rfl⟩ := Option.map_eq_some_iff.mp h
    obtain ⟨rest, hq, rfl⟩ := TcpNetworking.pop_eq_some hpop
    exact .cleanupPop response rest hpc hq
  · cases h

theorem moves_of_step (h : step payloadSize s l = some t) : Moves payloadSize s l t := by
  cases l with
  | pushResponse packet =>
    cases h
    exact .pushResponse packet
  | takeRequest =>
    obtain ⟨⟨request, net⟩, hpop, rfl⟩ := Option.map_eq_some_iff.mp h
    obtain ⟨rest, hq, rfl⟩ := TcpNetworking.pop_eq_some hpop
    exact .takeRequest request rest hq
  | sender => exact .sender (senderMoves_of_step h)
  | wake =>
    simp only [step] at h
    split at h
    · rename_i hpc
      cases h
      exact .wake hpc
    · cases h
  | clock now =>
    simp only [step] at h
    split at h
    · rename_i hpc
      cases h
      exact .main (.inr ⟨now, rfl⟩) (.clock now hpc)
    · cases h
  | main => exact .main (.inl rfl) (mainMoves_of_step h)

/-! ## The window -/

/-- A request pushed and not yet counted. -/
def uncounted (s : Benchmark T) : Int := if s.sender = .count then 1 else 0

/-- A response popped and not yet counted. -/
def undiscounted (s : Benchmark T) : Int := if s.main = .count then 1 else 0

/-- **The window is kept**: at most 500 requests more are pushed than responses
are popped, and a pop finds a response. -/
structure Window (s : Benchmark T) : Prop where
  unanswered : (s.pushed : Int) ≤ s.received + maxInFlight
  counter : s.inFlight ≤ maxInFlight
  available : s.main = .popResponse ∨ s.main = .cleanupPop → s.net.queue .response ≠ []

/-- The sender has passed the wait with the flag set, or passes it so at the
next test: only it raises `inFlight`, and that it has not done yet. -/
def Passed (s : Benchmark T) : Prop :=
  s.sender = .pushRequest ∨ s.sender = .count ∨ s.sender = .sendTest ∧ s.connected = true

structure WindowInvariant (s : Benchmark T) : Prop where
  counts : s.inFlight + s.uncounted = s.pushed - s.received + s.undiscounted
  room : Passed s → s.inFlight < maxInFlight
  counter : s.inFlight ≤ maxInFlight
  available : s.main = .popResponse ∨ s.main = .cleanupPop → s.net.queue .response ≠ []

theorem WindowInvariant.init : WindowInvariant ({} : Benchmark T) where
  counts := rfl
  room := fun _ => show (0 : Int) < 500 by decide
  counter := show (0 : Int) ≤ 500 by decide
  available := fun h => by rcases h with h | h <;> cases h

theorem WindowInvariant.keeps (h : WindowInvariant s) : Window s where
  unanswered := by
    have hcounts := h.counts
    have hcounter := h.counter
    have hun : s.undiscounted ≥ 0 := by
      unfold undiscounted
      split <;> decide
    by_cases hpc : s.sender = .count
    · have hroom := h.room (.inr (.inl hpc))
      rw [uncounted, if_pos hpc] at hcounts
      omega
    · rw [uncounted, if_neg hpc] at hcounts
      omega
  counter := h.counter
  available := h.available

/-- The sender moves, and neither counts nor has pushed. -/
theorem WindowInvariant.goto (h : WindowInvariant s) {p : BenchmarkSenderPc} (hs : s.sender ≠ .count)
    (hp : p ≠ .count) (hroom : Passed { s with sender := p } → s.inFlight < maxInFlight) :
    WindowInvariant { s with sender := p } where
  counts := by
    have hcounts := h.counts
    rw [uncounted, if_neg hs] at hcounts
    rw [uncounted, if_neg hp]
    exact hcounts
  room := hroom
  counter := h.counter
  available := h.available

theorem WindowInvariant.notify (h : WindowInvariant s) : WindowInvariant s.notify := by
  unfold Benchmark.notify
  split
  · rename_i hpc
    refine h.goto (by rw [hpc]; decide) (by decide) fun hp => ?_
    rcases hp with hp | hp | ⟨hp, -⟩ <;> cases hp
  · exact h

/-- The constructor moves, and neither counts nor goes to a pop. -/
theorem WindowInvariant.gotoMain (h : WindowInvariant s) {p : BenchmarkPc} (hs : s.main ≠ .count)
    (hp : p ≠ .count)
    (havailable : p = .popResponse ∨ p = .cleanupPop → s.net.queue .response ≠ []) :
    WindowInvariant { s with main := p } where
  counts := by
    have hcounts := h.counts
    rw [undiscounted, if_neg hs] at hcounts
    rw [undiscounted, if_neg hp]
    exact hcounts
  room := h.room
  counter := h.counter
  available := havailable

/-- The invariant reads the session's responses only, and no statistics. -/
theorem WindowInvariant.of_same (h : WindowInvariant s) (hsender : t.sender = s.sender)
    (hmain : t.main = s.main) (hconnected : t.connected = s.connected)
    (hinFlight : t.inFlight = s.inFlight) (hpushed : t.pushed = s.pushed)
    (hreceived : t.received = s.received)
    (hqueue : s.net.queue .response ≠ [] → t.net.queue .response ≠ []) : WindowInvariant t where
  counts := by
    have hcounts := h.counts
    simp only [uncounted, undiscounted] at hcounts ⊢
    rwa [hsender, hmain, hinFlight, hpushed, hreceived]
  room := by
    rw [Passed, hsender, hconnected, hinFlight]
    exact h.room
  counter := hinFlight ▸ h.counter
  available := fun hm => hqueue (h.available (by rwa [hmain] at hm))

theorem WindowInvariant.sender (h : WindowInvariant s) (hm : SenderMoves payloadSize s t) :
    WindowInvariant t := by
  cases hm with
  | loopTest hpc =>
    refine h.goto (by rw [hpc]; decide) (by split <;> decide) fun hp => ?_
    rcases hp with hp | hp | ⟨hp, -⟩ <;> (dsimp only at hp; split at hp <;> cases hp)
  | lock hpc =>
    refine h.goto (by rw [hpc]; decide) (by decide) fun hp => ?_
    rcases hp with hp | hp | ⟨hp, -⟩ <;> cases hp
  | isConnected hpc =>
    refine h.goto (by rw [hpc]; decide) (by split <;> decide) fun hp => ?_
    rcases hp with hp | hp | ⟨hp, hconnected⟩
    · dsimp only at hp
      split at hp <;> cases hp
    · dsimp only at hp
      split at hp <;> cases hp
    · -- the predicate is left this way only when the flag is cleared
      dsimp only at hp hconnected
      rw [if_pos hconnected] at hp
      cases hp
  | inFlightTest hpc =>
    refine h.goto (by rw [hpc]; decide) (by split <;> decide) fun hp => ?_
    by_cases hlt : s.inFlight < maxInFlight
    · exact hlt
    · rcases hp with hp | hp | ⟨hp, -⟩ <;> (dsimp only at hp; rw [if_neg hlt] at hp; cases hp)
  | sendTest hpc =>
    refine h.goto (by rw [hpc]; decide) (by split <;> decide) fun hp => ?_
    by_cases hconnected : s.connected = true
    · exact h.room (.inr (.inr ⟨hpc, hconnected⟩))
    · rcases hp with hp | hp | ⟨hp, -⟩ <;>
        (dsimp only at hp; rw [if_neg hconnected] at hp; cases hp)
  | pushRequest hpc =>
    refine ⟨?_, fun _ => h.room (.inl hpc), h.counter, fun hm => ?_⟩
    · have hcounts := h.counts
      rw [uncounted, if_neg (by rw [hpc]; decide)] at hcounts
      rw [uncounted, if_pos rfl]
      simp only [undiscounted] at hcounts ⊢
      push_cast
      omega
    · show (s.net.push .request _).queue .response ≠ []
      rw [TcpNetworking.push, TcpNetworking.queue_setQueue_ne s.net _ (by decide)]
      exact h.available hm
  | count hpc =>
    have hroom := h.room (.inr (.inl hpc))
    refine ⟨?_, fun hp => ?_, Int.add_one_le_of_lt hroom, h.available⟩
    · have hcounts := h.counts
      rw [uncounted, if_pos hpc] at hcounts
      rw [uncounted, if_neg (fun hc => nomatch hc)]
      simp only [undiscounted] at hcounts ⊢
      omega
    · rcases hp with hp | hp | ⟨hp, -⟩ <;> cases hp

theorem WindowInvariant.main (h : WindowInvariant s) (hm : MainMoves payloadSize s t) :
    WindowInvariant t := by
  cases hm with
  | clock now hpc =>
    have hnext := h.gotoMain (p := if benchmarkDurationSeconds ≤ now / 10 ^ 9 then .disconnect
      else .hasResponse) (by rw [hpc]; decide) (by split <;> decide) fun hp => by
        rcases hp with hp | hp <;> (split at hp <;> cases hp)
    exact hnext.of_same rfl rfl rfl rfl rfl rfl id
  | hasResponse hpc =>
    refine h.gotoMain (by rw [hpc]; decide) (by split <;> decide) fun hp he => ?_
    rw [he] at hp
    rcases hp with hp | hp <;> cases hp
  | popResponse response rest hpc hq =>
    refine ⟨?_, h.room, h.counter, fun hp => by rcases hp with hp | hp <;> cases hp⟩
    have hcounts := h.counts
    rw [undiscounted, if_neg (by rw [hpc]; decide)] at hcounts
    rw [undiscounted, if_pos rfl]
    simp only [uncounted] at hcounts ⊢
    push_cast
    omega
  | count hpc hfree =>
    refine ⟨?_, fun hp => ?_, ?_, fun hp => by rcases hp with hp | hp <;> cases hp⟩
    · have hcounts := h.counts
      rw [undiscounted, if_pos hpc] at hcounts
      rw [undiscounted, if_neg (fun hc => nomatch hc)]
      simp only [uncounted] at hcounts ⊢
      omega
    · exact Int.lt_trans (Int.sub_lt_self _ (by decide)) (h.room hp)
    · exact Int.le_trans (Int.sub_le_self _ (by decide)) h.counter
  | notifyOne hpc =>
    exact h.notify.gotoMain (by show s.main ≠ _; rw [hpc]; decide) (by decide) fun hp => by
      rcases hp with hp | hp <;> cases hp
  | delta hpc =>
    have hnext := h.gotoMain (p := .clock) (by rw [hpc]; decide) (by decide) fun hp => by
      rcases hp with hp | hp <;> cases hp
    unfold delta
    dsimp only
    split
    · exact hnext.of_same rfl rfl rfl rfl rfl rfl id
    · exact hnext
  | disconnect hpc =>
    have hnext := h.gotoMain (p := .notifyAll) (by rw [hpc]; decide) (by decide) fun hp => by
      rcases hp with hp | hp <;> cases hp
    refine ⟨hnext.counts, fun hp => hnext.room ?_, hnext.counter, hnext.available⟩
    exact hp.imp_right (Or.imp_right fun hp => absurd hp.2 Bool.false_ne_true)
  | notifyAll hpc =>
    exact h.notify.gotoMain (by show s.main ≠ _; rw [hpc]; decide) (by decide) fun hp => by
      rcases hp with hp | hp <;> cases hp
  | join hpc hfinished =>
    exact h.gotoMain (by rw [hpc]; decide) (by decide) fun hp => by
      rcases hp with hp | hp <;> cases hp
  | cleanup hpc =>
    refine h.gotoMain (by rw [hpc]; decide) (by split <;> decide) fun hp he => ?_
    rw [he] at hp
    rcases hp with hp | hp <;> cases hp
  | cleanupPop response rest hpc hq =>
    refine ⟨?_, h.room, h.counter, fun hp => by rcases hp with hp | hp <;> cases hp⟩
    have hcounts := h.counts
    rw [undiscounted, if_neg (by rw [hpc]; decide)] at hcounts
    rw [undiscounted, if_neg (fun hc => nomatch hc)]
    exact hcounts

theorem WindowInvariant.step (h : WindowInvariant s) (hs : step payloadSize s l = some t) :
    WindowInvariant t := by
  cases moves_of_step hs with
  | pushResponse packet =>
    refine h.of_same rfl rfl rfl rfl rfl rfl fun _ => ?_
    show (s.net.push .response packet).queue .response ≠ []
    rw [TcpNetworking.push, TcpNetworking.queue_setQueue]
    exact List.append_ne_nil_of_right_ne_nil _ (List.cons_ne_nil _ _)
  | takeRequest request rest hq =>
    refine h.of_same rfl rfl rfl rfl rfl rfl fun hne => ?_
    rwa [TcpNetworking.queue_setQueue_ne s.net _ (by decide)]
  | wake hpc =>
    refine h.goto (by rw [hpc]; decide) (by decide) fun hp => ?_
    rcases hp with hp | hp | ⟨hp, -⟩ <;> cases hp
  | sender hm => exact h.sender hm
  | main _ hm => exact h.main hm

theorem throughout_of_windowInvariant {P : Benchmark T → Prop}
    (implies : ∀ {s}, WindowInvariant s → P s) (payloadSize : Int32)
    (ls : List (BenchmarkLabel T)) : Throughout (step payloadSize) P {} ls :=
  (Along.of_forall (fun _ _ => trivial) _ ls).throughout implies
    (fun h (_ : True) hs => h.step hs) .init

/-- **The window is kept**, whatever the session does and however the threads
and their wake-ups interleave. -/
theorem window (payloadSize : Int32) (ls : List (BenchmarkLabel T)) :
    Throughout (step payloadSize) Window {} ls :=
  throughout_of_windowInvariant (fun h => h.keeps) payloadSize ls

/-! ## The counters -/

theorem toInt_add_of_lt {a b : Int32} (ha : 0 ≤ a.toInt) (hb : 0 ≤ b.toInt)
    (hlt : a.toInt + b.toInt < 2 ^ 31) : (a + b).toInt = a.toInt + b.toInt := by
  rw [Int32.toInt_add]
  exact Int.bmod_eq_of_le (by omega) (by omega)

/-- The loop of line 84 adds up without overflow what an `int` holds. -/
theorem toInt_foldl_add {xs : List Int32} (hxs : ∀ x ∈ xs, 0 ≤ x.toInt) {a : Int32}
    (ha : 0 ≤ a.toInt) (hlt : a.toInt + (xs.map Int32.toInt).sum < 2 ^ 31) :
    (xs.foldl (· + ·) a).toInt = a.toInt + (xs.map Int32.toInt).sum := by
  induction xs generalizing a with
  | nil => exact (Int.add_zero _).symm
  | cons x xs ih =>
    rw [List.map_cons, List.sum_cons, ← Int.add_assoc] at hlt ⊢
    have hx := hxs x List.mem_cons_self
    have hrest := fun y hy => hxs y (List.mem_cons_of_mem x hy)
    have hsum : 0 ≤ (xs.map Int32.toInt).sum :=
      List.sum_nonneg fun n hn => by
        obtain ⟨y, hy, rfl⟩ := List.mem_map.mp hn
        exact hrest y hy
    have hadd := toInt_add_of_lt ha hx (by omega)
    rw [List.foldl_cons, ih hrest (by omega) (by omega), hadd]

/-- What `ppsCollection` adds up to. -/
def total (s : Benchmark T) : Int := (s.ppsCollection.map Int32.toInt).sum

/-- What the constructor prints and prints from: every response popped is in
exactly one count, and the average is over whole seconds and not above the
maximum, if there was a whole second. -/
structure Counters (payloadSize : Int32) (s : Benchmark T) : Prop where
  counted : s.total + s.receivedPacketsThisSecond.toInt = s.received
  totalBytesSent : s.totalBytesSent.toInt = s.received * payloadSize.toInt
  maximum : ∀ pps ∈ s.ppsCollection, pps ≤ s.maxPacketsPerSecond
  reached : s.ppsCollection ≠ [] → s.maxPacketsPerSecond ∈ s.ppsCollection
  mean : s.ppsCollection ≠ [] → s.avgPps.toInt = s.total / s.ppsCollection.length
  average : s.ppsCollection ≠ [] → s.avgPps ≤ s.maxPacketsPerSecond
  noSecond : s.ppsCollection = [] → s.avgPps.toInt = s.received ∧ s.maxPacketsPerSecond = 0

structure CountersInvariant (payloadSize : Int32) (s : Benchmark T) : Prop where
  counted : s.total + s.receivedPacketsThisSecond.toInt = s.received
  totalBytesSent : s.totalBytesSent.toInt = s.received * payloadSize.toInt
  running : 0 ≤ s.receivedPacketsThisSecond.toInt
  seconds : ∀ pps ∈ s.ppsCollection, 0 ≤ pps.toInt
  maximum : ∀ pps ∈ s.ppsCollection, pps ≤ s.maxPacketsPerSecond
  reached : s.maxPacketsPerSecond = 0 ∨ s.maxPacketsPerSecond ∈ s.ppsCollection

theorem CountersInvariant.init : CountersInvariant payloadSize ({} : Benchmark T) where
  counted := rfl
  totalBytesSent := (Int.zero_mul _).symm
  running := Int.le_refl 0
  seconds := fun _ h => absurd h List.not_mem_nil
  maximum := fun _ h => absurd h List.not_mem_nil
  reached := .inl rfl

theorem CountersInvariant.total_nonneg (h : CountersInvariant payloadSize s) : 0 ≤ s.total :=
  List.sum_nonneg fun n hn => by
    obtain ⟨pps, hpps, rfl⟩ := List.mem_map.mp hn
    exact h.seconds pps hpps

theorem CountersInvariant.toInt_sum (h : CountersInvariant payloadSize s)
    (hfits : s.received < 2 ^ 31) : s.sum.toInt = s.total := by
  have hcounted := h.counted
  have hrunning := h.running
  have hsum : s.sum.toInt = (0 : Int32).toInt + s.total :=
    toInt_foldl_add h.seconds (Int.le_refl 0) (by
      show 0 + s.total < 2 ^ 31
      omega)
  rw [hsum]
  exact Int.zero_add _

theorem CountersInvariant.mean (h : CountersInvariant payloadSize s)
    (hfits : s.received < 2 ^ 31) (hne : s.ppsCollection ≠ []) :
    s.avgPps.toInt = s.total / s.ppsCollection.length := by
  have hcounted := h.counted
  have hrunning := h.running
  obtain ⟨n, hn⟩ := Int.eq_ofNat_of_zero_le h.total_nonneg
  have hmod : (s.sum.toInt % 2 ^ 64).toNat = n := by
    rw [h.toInt_sum hfits]
    omega
  have hle : n / s.ppsCollection.length ≤ n := Nat.div_le_self _ _
  rw [avgPps, if_neg (by rwa [List.isEmpty_iff]), hmod, Int32.toInt_ofNat_of_lt (by omega), hn]
  exact Int.natCast_div _ _

theorem CountersInvariant.keeps (h : CountersInvariant payloadSize s)
    (hfits : s.received < 2 ^ 31) : Counters payloadSize s where
  counted := h.counted
  totalBytesSent := h.totalBytesSent
  maximum := h.maximum
  reached := by
    intro hne
    refine h.reached.elim (fun hzero => ?_) id
    -- the counts are 0, and so is their maximum
    obtain ⟨pps, hpps⟩ := List.exists_mem_of_ne_nil _ hne
    have hle := Int32.le_iff_toInt_le.mp (h.maximum pps hpps)
    have hnonneg := h.seconds pps hpps
    have hpps0 : pps = s.maxPacketsPerSecond :=
      Int32.toInt.inj (Int.le_antisymm hle (by rw [hzero]; exact hnonneg))
    exact hpps0 ▸ hpps
  mean := h.mean hfits
  average := by
    intro hne
    have hsum : s.total ≤ (s.ppsCollection.map Int32.toInt).length • s.maxPacketsPerSecond.toInt :=
      List.sum_le_card_nsmul _ _ fun n hn => by
        obtain ⟨pps, hpps, rfl⟩ := List.mem_map.mp hn
        exact Int32.le_iff_toInt_le.mp (h.maximum pps hpps)
    rw [List.length_map, nsmul_eq_mul] at hsum
    have hpos : (0 : Int) < s.ppsCollection.length :=
      Int.natCast_pos.mpr (List.length_pos_iff.mpr hne)
    rw [Int32.le_iff_toInt_le, h.mean hfits hne]
    exact Int.ediv_le_of_le_mul hpos (by rwa [Int.mul_comm])
  noSecond := by
    intro hnil
    have hcounted := h.counted
    rw [total, hnil, List.map_nil, List.sum_nil, Int.zero_add] at hcounted
    refine ⟨?_, h.reached.resolve_right fun hmem => ?_⟩
    · rw [avgPps, if_pos (List.isEmpty_iff.mpr hnil)]
      exact hcounted
    · rw [hnil] at hmem
      cases hmem

/-- A response popped. -/
theorem CountersInvariant.pop (h : CountersInvariant payloadSize s)
    (hfits : s.received + 1 < 2 ^ 31) {net : TcpNetworking T} {p : BenchmarkPc} :
    CountersInvariant payloadSize { s with
      net, main := p
      receivedPacketsThisSecond := s.receivedPacketsThisSecond + 1
      totalBytesSent := s.totalBytesSent + payloadSize.toInt64
      received := s.received + 1 } := by
  have hcounted := h.counted
  have htotal := h.total_nonneg
  have hrunning := h.running
  have hone : (s.receivedPacketsThisSecond + 1).toInt = s.receivedPacketsThisSecond.toInt + 1 :=
    toInt_add_of_lt hrunning (by decide) (by
      show s.receivedPacketsThisSecond.toInt + 1 < 2 ^ 31
      omega)
  refine ⟨?_, ?_, ?_, h.seconds, h.maximum, h.reached⟩
  · show s.total + (s.receivedPacketsThisSecond + 1).toInt = ((s.received + 1 : Nat) : Int)
    omega
  · -- 2^31 responses of 2^31 bytes fit into a `long long`
    show (s.totalBytesSent + payloadSize.toInt64).toInt =
      ((s.received + 1 : Nat) : Int) * payloadSize.toInt
    have hle : ((s.received + 1 : Nat) : Int) * payloadSize.toInt ≤
        ((s.received + 1 : Nat) : Int) * 2 ^ 31 :=
      Int.mul_le_mul_of_nonneg_left (Int.le_of_lt payloadSize.toInt_lt) (Int.natCast_nonneg _)
    have hge : ((s.received + 1 : Nat) : Int) * -2 ^ 31 ≤
        ((s.received + 1 : Nat) : Int) * payloadSize.toInt :=
      Int.mul_le_mul_of_nonneg_left payloadSize.le_toInt (Int.natCast_nonneg _)
    have hadd : ((s.received + 1 : Nat) : Int) * payloadSize.toInt =
        s.received * payloadSize.toInt + payloadSize.toInt := by
      rw [Int.natCast_succ, Int.add_mul, Int.one_mul]
    rw [Int64.toInt_add, Int32.toInt_toInt64, h.totalBytesSent, ← hadd]
    exact Int.bmod_eq_of_le (by omega) (by omega)
  · show 0 ≤ (s.receivedPacketsThisSecond + 1).toInt
    omega

/-- The end of a second. -/
theorem CountersInvariant.second (h : CountersInvariant payloadSize s) {p : BenchmarkPc} :
    CountersInvariant payloadSize { s with
      main := p
      deltaStart := s.now
      maxPacketsPerSecond :=
        if s.maxPacketsPerSecond < s.receivedPacketsThisSecond then s.receivedPacketsThisSecond
        else s.maxPacketsPerSecond
      ppsCollection := s.ppsCollection ++ [s.receivedPacketsThisSecond]
      receivedPacketsThisSecond := 0 } := by
  refine ⟨?_, h.totalBytesSent, Int.le_refl 0, fun pps hpps => ?_, fun pps hpps => ?_, ?_⟩
  · show ((s.ppsCollection ++ [s.receivedPacketsThisSecond]).map Int32.toInt).sum + 0 = s.received
    rw [List.map_append, List.sum_append, List.map_singleton, List.sum_singleton, Int.add_zero]
    exact h.counted
  · rcases List.mem_append.mp hpps with hpps | hpps
    · exact h.seconds pps hpps
    · rw [List.mem_singleton.mp hpps]
      exact h.running
  · dsimp only at hpps ⊢
    rcases List.mem_append.mp hpps with hpps | hpps
    · have hle := h.maximum pps hpps
      split
      · exact Int32.le_trans hle (Int32.le_of_lt ‹_›)
      · exact hle
    · rw [List.mem_singleton.mp hpps]
      split
      · exact Int32.le_refl _
      · exact Int32.not_lt.mp ‹_›
  · dsimp only
    split
    · exact .inr (List.mem_append_right _ (List.mem_singleton_self _))
    · exact h.reached.imp_right (List.mem_append_left _)

theorem CountersInvariant.of_same (h : CountersInvariant payloadSize s)
    (hpps : t.ppsCollection = s.ppsCollection)
    (hsecond : t.receivedPacketsThisSecond = s.receivedPacketsThisSecond)
    (hreceived : t.received = s.received) (hbytes : t.totalBytesSent = s.totalBytesSent)
    (hmax : t.maxPacketsPerSecond = s.maxPacketsPerSecond) :
    CountersInvariant payloadSize t where
  counted := by rw [total, hpps, hsecond, hreceived]; exact h.counted
  totalBytesSent := by rw [hbytes, hreceived, h.totalBytesSent]
  running := by rw [hsecond]; exact h.running
  seconds := by rw [hpps]; exact h.seconds
  maximum := by rw [hpps, hmax]; exact h.maximum
  reached := by rw [hpps, hmax]; exact h.reached

/-! ## The statistics -/

/-- `ppsCollection` stays within what was reserved for it, and as long as an
`int` holds the responses popped, the counters are right. -/
structure Statistics (payloadSize : Int32) (s : Benchmark T) : Prop where
  reserved : s.ppsCollection.length < benchmarkDurationSeconds
  counters : s.received < 2 ^ 31 → Counters payloadSize s

/-- The loop of line 34, after its first test. -/
def measures : BenchmarkPc → Bool
  | .hasResponse | .popResponse | .count | .notifyOne | .delta => true
  | _ => false

structure StatisticsInvariant (payloadSize : Int32) (s : Benchmark T) : Prop where
  counters : s.received < 2 ^ 31 → CountersInvariant payloadSize s
  /-- the counts are a second apart -/
  seconds : s.ppsCollection.length * 10 ^ 9 ≤ s.deltaStart
  past : s.deltaStart ≤ s.now
  started : s.deltaStart < benchmarkDurationSeconds * 10 ^ 9
  running : measures s.main = true → s.now < benchmarkDurationSeconds * 10 ^ 9

theorem StatisticsInvariant.init : StatisticsInvariant payloadSize ({} : Benchmark T) where
  counters := fun _ => .init
  seconds := Nat.le_of_eq (Nat.zero_mul _)
  past := Nat.le_refl _
  started := show 0 < 60 * 10 ^ 9 by decide
  running := fun h => absurd h Bool.false_ne_true

theorem StatisticsInvariant.counts (h : StatisticsInvariant payloadSize s) :
    Statistics payloadSize s where
  reserved := Nat.lt_of_mul_lt_mul_right (Nat.lt_of_le_of_lt h.seconds h.started)
  counters := fun hfits => (h.counters hfits).keeps hfits

/-- The statistics are kept, and so is the clock. -/
theorem StatisticsInvariant.of_same (h : StatisticsInvariant payloadSize s)
    (hpps : t.ppsCollection = s.ppsCollection)
    (hsecond : t.receivedPacketsThisSecond = s.receivedPacketsThisSecond)
    (hreceived : t.received = s.received) (hbytes : t.totalBytesSent = s.totalBytesSent)
    (hmax : t.maxPacketsPerSecond = s.maxPacketsPerSecond) (hdelta : t.deltaStart = s.deltaStart)
    (hnow : t.now = s.now) (hmain : measures t.main = true → measures s.main = true) :
    StatisticsInvariant payloadSize t where
  counters := fun hfits =>
    (h.counters (hreceived ▸ hfits)).of_same hpps hsecond hreceived hbytes hmax
  seconds := by rw [hpps, hdelta]; exact h.seconds
  past := by rw [hdelta, hnow]; exact h.past
  started := by rw [hdelta]; exact h.started
  running := fun hm => by rw [hnow]; exact h.running (hmain hm)

/-- 1000 whole milliseconds are a second. -/
theorem second_of_elapsed {start now : Nat} (hle : start ≤ now)
    (h : 1000 ≤ (now - start) / 10 ^ 6) : start + 1 * 10 ^ 9 ≤ now := by
  have hms : 1000 * 10 ^ 6 ≤ now - start := (Nat.le_div_iff_mul_le (by decide)).mp h
  omega

/-- The end of a second, or of an iteration within one. -/
theorem StatisticsInvariant.delta (h : StatisticsInvariant payloadSize s) (hpc : s.main = .delta) :
    StatisticsInvariant payloadSize s.delta := by
  have hsame : StatisticsInvariant payloadSize { s with main := .clock } :=
    h.of_same rfl rfl rfl rfl rfl rfl rfl nofun
  unfold Benchmark.delta
  dsimp only
  split
  · rename_i helapsed
    refine ⟨fun hfits => (h.counters hfits).second, ?_, Nat.le_refl _,
      h.running (by rw [hpc]; rfl), nofun⟩
    show (s.ppsCollection ++ [s.receivedPacketsThisSecond]).length * 10 ^ 9 ≤ s.now
    rw [List.length_append, List.length_singleton, Nat.add_mul]
    exact Nat.le_trans (Nat.add_le_add_right h.seconds _) (second_of_elapsed h.past helapsed)
  · exact hsame

/-- `std::chrono::steady_clock` does not go back. -/
def Steady (s : Benchmark T) : BenchmarkLabel T → Prop
  | .clock now => s.now ≤ now
  | _ => True

instance Steady.decidable (s : Benchmark T) : ∀ l, Decidable (Steady s l)
  | .clock now => inferInstanceAs (Decidable (s.now ≤ now))
  | .pushResponse _ | .takeRequest | .sender | .wake | .main => isTrue trivial

theorem StatisticsInvariant.clock (h : StatisticsInvariant payloadSize s) {now : Nat}
    (hle : s.now ≤ now) : StatisticsInvariant payloadSize { s with
      now, main := if benchmarkDurationSeconds ≤ now / 10 ^ 9 then .disconnect else .hasResponse }
    where
  counters := fun hfits => (h.counters hfits).of_same rfl rfl rfl rfl rfl
  seconds := h.seconds
  past := Nat.le_trans h.past hle
  started := h.started
  running := by
    intro hm
    by_cases hover : benchmarkDurationSeconds ≤ now / 10 ^ 9
    · dsimp only at hm
      rw [if_pos hover] at hm
      cases hm
    · exact (Nat.div_lt_iff_lt_mul (by decide)).mp (Nat.lt_of_not_le hover)

theorem StatisticsInvariant.main (h : StatisticsInvariant payloadSize s)
    (hm : MainMoves payloadSize s t) (hclock : s.main ≠ .clock) :
    StatisticsInvariant payloadSize t := by
  cases hm with
  | clock now hpc => exact absurd hpc hclock
  | hasResponse hpc => exact h.of_same rfl rfl rfl rfl rfl rfl rfl fun _ => by rw [hpc]; rfl
  | popResponse response rest hpc hq =>
    exact ⟨fun hfits => (h.counters (Nat.lt_of_succ_lt hfits)).pop hfits, h.seconds, h.past,
      h.started, fun _ => h.running (by rw [hpc]; rfl)⟩
  | count hpc hfree => exact h.of_same rfl rfl rfl rfl rfl rfl rfl fun _ => by rw [hpc]; rfl
  | notifyOne hpc => exact h.of_same rfl rfl rfl rfl rfl rfl rfl fun _ => by rw [hpc]; rfl
  | delta hpc => exact h.delta hpc
  | disconnect hpc => exact h.of_same rfl rfl rfl rfl rfl rfl rfl nofun
  | notifyAll hpc => exact h.of_same rfl rfl rfl rfl rfl rfl rfl nofun
  | join hpc hfinished => exact h.of_same rfl rfl rfl rfl rfl rfl rfl nofun
  | cleanup hpc =>
    refine h.of_same rfl rfl rfl rfl rfl rfl rfl fun hm => ?_
    dsimp only at hm
    split at hm <;> cases hm
  | cleanupPop response rest hpc hq => exact h.of_same rfl rfl rfl rfl rfl rfl rfl nofun

theorem StatisticsInvariant.step (h : StatisticsInvariant payloadSize s) (hok : Steady s l)
    (hs : step payloadSize s l = some t) : StatisticsInvariant payloadSize t := by
  cases moves_of_step hs with
  | pushResponse packet => exact h.of_same rfl rfl rfl rfl rfl rfl rfl id
  | takeRequest request rest hq => exact h.of_same rfl rfl rfl rfl rfl rfl rfl id
  | wake hpc => exact h.of_same rfl rfl rfl rfl rfl rfl rfl id
  | sender hm => cases hm <;> exact h.of_same rfl rfl rfl rfl rfl rfl rfl id
  | main hl hm =>
    rcases hl with rfl | ⟨now, rfl⟩
    · refine h.main hm fun hpc => ?_
      simp only [Benchmark.step, stepMain, hpc] at hs
      cases hs
    · simp only [Benchmark.step] at hs
      split at hs
      · cases hs
        exact h.clock hok
      · cases hs

/-- **Every response is counted once**, in the second its iteration belongs
to, in every run on a steady clock: 2^31 responses are too many for the
counters. -/
theorem statistics (payloadSize : Int32) (ls : List (BenchmarkLabel T))
    (hclock : Along (step payloadSize) Steady {} ls) :
    Throughout (step payloadSize) (Statistics payloadSize) {} ls :=
  hclock.throughout (I := StatisticsInvariant payloadSize) (fun h => h.counts)
    (fun h hok hs => h.step hok hs) .init

theorem statistics_second : Throughout (step 1460) (Statistics 1460) ({} : Benchmark Unit)
    [.clock 0, .sender, .sender, .sender, .sender, .sender, .sender, .takeRequest,
      .pushResponse {}, .main, .main, .sender, .main, .main, .main, .main, .clock 1000000000,
      .main, .main, .clock 60000000000, .main, .main] :=
  statistics 1460 _ (by decide)

end Benchmark
end Ttp2
