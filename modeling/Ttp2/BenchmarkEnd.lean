import Ttp2.Benchmark

/-! # How the benchmark ends

`disconnect()` clears the flag under `connectedMutex`, while the sender tests
it under `packetMutex`. The last notification can therefore fall between the
test of the flag and the wait, and the constructor joins a thread that sleeps
for ever: that is the only way for it not to return (`returns_iff`). -/
namespace Ttp2
open Lib Lts

namespace Benchmark
variable {T : Type} {payloadSize : Int32} {s t : Benchmark T} {l : BenchmarkLabel T}
  {ls : List (BenchmarkLabel T)}

/-- The constructor joins a sender that sleeps, or is about to, and that
nobody notifies any more. -/
def LeftBehind (s : Benchmark T) : Prop :=
  s.main = .join ∧
    (s.sender = .parked ∨ s.sender = .inFlightTest ∧ maxInFlight ≤ s.inFlight)

/-- `notify_all` is not called while the sender, with the window full, is
between the two tests of its predicate. -/
def NotifiesInTime (s : Benchmark T) : BenchmarkLabel T → Prop
  | .main => ¬ (s.main = .notifyAll ∧ s.sender = .inFlightTest ∧ maxInFlight ≤ s.inFlight)
  | _ => True

instance NotifiesInTime.decidable (s : Benchmark T) : ∀ l, Decidable (NotifiesInTime s l)
  | .main => inferInstanceAs (Decidable (¬ (s.main = .notifyAll ∧ s.sender = .inFlightTest ∧
      maxInFlight ≤ s.inFlight)))
  | .pushResponse _ | .takeRequest | .sender | .wake | .clock _ => isTrue trivial

/-- Neither thread of the benchmark can move. -/
def AtRest (payloadSize : Int32) (s : Benchmark T) : Prop :=
  step payloadSize s .sender = none ∧ step payloadSize s .main = none ∧
    ∀ now, step payloadSize s (.clock now) = none

/-- Past `disconnect()` in line 70. -/
def disconnected : BenchmarkPc → Bool
  | .notifyAll | .join | .cleanup | .cleanupPop | .returned => true
  | _ => false

structure EndInvariant (s : Benchmark T) : Prop where
  cleared : disconnected s.main = true → s.connected = false
  notified : ¬ LeftBehind s

theorem EndInvariant.init : EndInvariant ({} : Benchmark T) where
  cleared := nofun
  notified := fun h => nomatch h.1

/-- A sender that goes on with the flag cleared does not go to sleep. -/
theorem EndInvariant.sender (h : EndInvariant s) (hm : SenderMoves payloadSize s t) :
    EndInvariant t := by
  have hmain : t.main = s.main ∧ t.connected = s.connected := by
    cases hm <;> exact ⟨rfl, rfl⟩
  refine ⟨fun hd => ?_, fun hleft => ?_⟩
  · rw [hmain.1] at hd
    rw [hmain.2]
    exact h.cleared hd
  · obtain ⟨hjoin, hsleeps⟩ := hleft
    rw [hmain.1] at hjoin
    have hconnected := h.cleared (by rw [hjoin]; rfl)
    cases hm with
    | loopTest hpc =>
      dsimp only at hsleeps
      rw [hconnected] at hsleeps
      rcases hsleeps with hp | ⟨hp, -⟩ <;> cases hp
    | lock hpc => rcases hsleeps with hp | ⟨hp, -⟩ <;> cases hp
    | isConnected hpc =>
      dsimp only at hsleeps
      rw [hconnected] at hsleeps
      rcases hsleeps with hp | ⟨hp, -⟩ <;> cases hp
    | inFlightTest hpc =>
      by_cases hlt : s.inFlight < maxInFlight
      · dsimp only at hsleeps
        rw [if_pos hlt] at hsleeps
        rcases hsleeps with hp | ⟨hp, -⟩ <;> cases hp
      · exact h.notified ⟨hjoin, .inr ⟨hpc, Int.not_lt.mp hlt⟩⟩
    | sendTest hpc =>
      dsimp only at hsleeps
      rw [hconnected] at hsleeps
      rcases hsleeps with hp | ⟨hp, -⟩ <;> cases hp
    | pushRequest hpc => rcases hsleeps with hp | ⟨hp, -⟩ <;> cases hp
    | count hpc => rcases hsleeps with hp | ⟨hp, -⟩ <;> cases hp

theorem notify_ne_parked (s : Benchmark T) : s.notify.sender ≠ .parked := by
  unfold notify
  dsimp only
  split
  · exact fun h => nomatch h
  · assumption

theorem EndInvariant.of_not_join (hjoin : t.main ≠ .join)
    (hcleared : disconnected t.main = true → t.connected = false) : EndInvariant t :=
  ⟨hcleared, fun hleft => hjoin hleft.1⟩

theorem delta_main (s : Benchmark T) : s.delta.main = .clock := by
  unfold delta
  dsimp only
  split <;> rfl

theorem EndInvariant.main (h : EndInvariant s) (hm : MainMoves payloadSize s t)
    (hok : NotifiesInTime s .main) : EndInvariant t := by
  cases hm with
  | clock now hpc =>
    refine .of_not_join (by dsimp only; split <;> decide) fun hd => ?_
    dsimp only at hd
    split at hd <;> cases hd
  | hasResponse hpc =>
    refine .of_not_join (by dsimp only; split <;> decide) fun hd => ?_
    dsimp only at hd
    split at hd <;> cases hd
  | popResponse response rest hpc hq => exact .of_not_join (fun hj => nomatch hj) nofun
  | count hpc hfree => exact .of_not_join (fun hj => nomatch hj) nofun
  | notifyOne hpc => exact .of_not_join (fun hj => nomatch hj) nofun
  | delta hpc =>
    refine .of_not_join (by rw [delta_main]; decide) fun hd => ?_
    rw [delta_main] at hd
    cases hd
  | disconnect hpc => exact .of_not_join (fun hj => nomatch hj) fun _ => rfl
  | notifyAll hpc =>
    refine ⟨fun _ => h.cleared (by rw [hpc]; rfl), fun hleft => ?_⟩
    rcases hleft.2 with hp | ⟨hp, hfull⟩
    · exact notify_ne_parked s hp
    · -- the notification did not wake it, so it was there before
      refine hok ⟨hpc, ?_, hfull⟩
      change (if s.sender = .parked then BenchmarkSenderPc.lock else s.sender) = .inFlightTest at hp
      split at hp
      · cases hp
      · exact hp
  | join hpc hfinished =>
    exact .of_not_join (fun hj => nomatch hj) fun _ => h.cleared (by rw [hpc]; rfl)
  | cleanup hpc =>
    exact .of_not_join (by dsimp only; split <;> decide) fun _ => h.cleared (by rw [hpc]; rfl)
  | cleanupPop response rest hpc hq =>
    exact .of_not_join (fun hj => nomatch hj) fun _ => h.cleared (by rw [hpc]; rfl)

theorem EndInvariant.step (h : EndInvariant s) (hok : NotifiesInTime s l)
    (hs : step payloadSize s l = some t) : EndInvariant t := by
  cases moves_of_step hs with
  | pushResponse packet => exact ⟨h.cleared, h.notified⟩
  | takeRequest request rest hq => exact ⟨h.cleared, h.notified⟩
  | wake hpc =>
    refine ⟨h.cleared, fun hleft => ?_⟩
    rcases hleft.2 with hp | ⟨hp, -⟩ <;> cases hp
  | sender hm => exact h.sender hm
  | main hl hm =>
    rcases hl with rfl | ⟨now, rfl⟩
    · exact h.main hm hok
    · refine h.main hm fun hmiss => ?_
      simp only [Benchmark.step] at hs
      split at hs
      · rename_i hpc
        rw [hpc] at hmiss
        cases hmiss.1
      · cases hs

/-- Without a spurious wake-up it stays behind. -/
theorem LeftBehind.step (h : LeftBehind s) (hwake : l ≠ .wake)
    (hs : step payloadSize s l = some t) : LeftBehind t := by
  obtain ⟨hjoin, hsleeps⟩ := h
  cases moves_of_step hs with
  | pushResponse packet => exact ⟨hjoin, hsleeps⟩
  | takeRequest request rest hq => exact ⟨hjoin, hsleeps⟩
  | wake hpc => exact absurd rfl hwake
  | sender hm =>
    rcases hsleeps with hp | ⟨hp, hfull⟩
    · cases hm <;> (rename_i hpc; rw [hpc] at hp; cases hp)
    · cases hm with
      | inFlightTest hpc =>
        refine ⟨hjoin, .inl ?_⟩
        exact if_neg (Int.not_lt.mpr hfull)
      | _ hpc => rw [hpc] at hp; cases hp
  | main hl hm =>
    cases hm with
    | join hpc hfinished =>
      rcases hsleeps with hp | ⟨hp, -⟩
      · rw [hfinished] at hp
        cases hp
      · rw [hfinished] at hp
        cases hp
    | clock _ hpc | hasResponse hpc | popResponse _ _ hpc _ | count hpc _ | notifyOne hpc
    | delta hpc | disconnect hpc | notifyAll hpc | cleanup hpc | cleanupPop _ _ hpc _ =>
      rw [hjoin] at hpc
      cases hpc

theorem LeftBehind.run (h : LeftBehind s) (hwake : .wake ∉ ls)
    (hrun : run (Benchmark.step payloadSize) s ls = some t) : LeftBehind t := by
  induction ls generalizing s with
  | nil =>
    cases hrun
    exact h
  | cons l ls ih =>
    obtain ⟨m, hm, hrun⟩ := run_cons.mp hrun
    rw [List.mem_cons, not_or] at hwake
    exact ih (h.step (Ne.symm hwake.1) hm) hwake.2 hrun

theorem leftBehind_of_late (hok : ¬ NotifiesInTime s l) (hs : step payloadSize s l = some t) :
    LeftBehind t := by
  cases l with
  | main =>
    obtain ⟨hpc, hsender, hfull⟩ := not_not.mp hok
    simp only [Benchmark.step, stepMain, hpc] at hs
    cases hs
    refine ⟨rfl, .inr ⟨?_, hfull⟩⟩
    rw [notify, hsender]
    rfl
  | _ => exact absurd trivial hok

/-- Left behind is who was notified too early, and nobody else. -/
theorem not_leftBehind_iff (h : EndInvariant s) (hwake : .wake ∉ ls)
    (hrun : run (step payloadSize) s ls = some t) :
    ¬ LeftBehind t ↔ Along (step payloadSize) NotifiesInTime s ls := by
  induction ls generalizing s with
  | nil =>
    cases hrun
    exact ⟨fun _ => trivial, fun _ => h.notified⟩
  | cons l ls ih =>
    obtain ⟨m, hm, hrun⟩ := run_cons.mp hrun
    rw [List.mem_cons, not_or] at hwake
    by_cases hok : NotifiesInTime s l
    · rw [ih (h.step hok hm) hwake.2 hrun, Along, hm]
      exact (and_iff_right hok).symm
    · have hleft := (leftBehind_of_late hok hm).run hwake.2 hrun
      exact ⟨fun hnot => absurd hleft hnot, fun halong => absurd halong.head hok⟩

theorem stepSender_eq_none (h : s.stepSender payloadSize = none) :
    s.sender = .parked ∨ s.sender = .finished := by
  unfold stepSender at h
  split at h
  · cases h
  · cases h
  · cases h
  · cases h
  · exact .inl ‹_›
  · cases h
  · cases h
  · cases h
  · exact .inr ‹_›

/-- A pop that finds a response is a step. -/
theorem pop_ne_none (h : s.net.queue .response ≠ []) : s.net.pop .response ≠ none := by
  unfold TcpNetworking.pop
  split
  · exact fun _ => absurd ‹_› h
  · exact fun hnone => nomatch hnone

theorem returned_of_atRest (h : WindowInvariant s) (hleft : ¬ LeftBehind s)
    (hrest : AtRest payloadSize s) : s.main = .returned := by
  obtain ⟨hsender, hmain, hclock⟩ := hrest
  have hsender := stepSender_eq_none hsender
  change s.stepMain payloadSize = none at hmain
  unfold stepMain at hmain
  split at hmain
  · rename_i hpc
    have hclock := hclock 0
    rw [Benchmark.step, if_pos hpc] at hclock
    cases hclock
  · cases hmain
  · rename_i hpc
    exact absurd (Option.map_eq_none_iff.mp hmain) (pop_ne_none (h.available (.inl hpc)))
  · -- who holds the mutex goes on, and the sender does not
    rcases hsender with hp | hp <;> (rw [hp] at hmain; cases hmain)
  · cases hmain
  · cases hmain
  · cases hmain
  · cases hmain
  · rename_i hpc
    rcases hsender with hp | hp
    · exact absurd ⟨hpc, .inl hp⟩ hleft
    · rw [if_pos hp] at hmain
      cases hmain
  · cases hmain
  · rename_i hpc
    exact absurd (Option.map_eq_none_iff.mp hmain) (pop_ne_none (h.available (.inr hpc)))
  · assumption

/-- **The benchmark comes to rest at its end exactly if its sender is notified
in time**, in every run without spurious wake-ups. -/
theorem returns_iff (payloadSize : Int32) (ls : List (BenchmarkLabel T)) (t : Benchmark T)
    (hrun : run (step payloadSize) {} ls = some t) (hwake : .wake ∉ ls)
    (hrest : AtRest payloadSize t) :
    t.main = .returned ↔ Along (step payloadSize) NotifiesInTime {} ls := by
  rw [← not_leftBehind_iff .init hwake hrun]
  constructor
  · intro hreturned hleft
    rw [hleft.1] at hreturned
    cases hreturned
  · intro hleft
    exact returned_of_atRest ((throughout_of_windowInvariant id payloadSize ls).last hrun) hleft
      hrest

/-- With no answer the window fills up: an iteration of the sender is seven
steps. -/
theorem fill (payloadSize : Int32) {k : Nat} (hk : s.inFlight + k ≤ maxInFlight)
    (hsender : s.sender = .loopTest) (hconnected : s.connected = true) :
    ∃ net, net.queue .response = s.net.queue .response ∧
      run (step payloadSize) s (List.replicate (7 * k) .sender) =
        some { s with net, pushed := s.pushed + k, inFlight := s.inFlight + k } := by
  induction k generalizing s with
  | zero => exact ⟨s.net, rfl, by simp [run]⟩
  | succ k ih =>
    have hlt : s.inFlight < maxInFlight := by omega
    have hround : run (step payloadSize) s (List.replicate 7 .sender) =
        some { s with net := s.net.pushRequest (packet payloadSize), pushed := s.pushed + 1,
                      inFlight := s.inFlight + 1 } := by
      simp [run, step, stepSender, List.replicate, hsender, hconnected, hlt]
    obtain ⟨net, hqueue, hrun⟩ := ih
      (s := { s with net := s.net.pushRequest (packet payloadSize), pushed := s.pushed + 1,
                     inFlight := s.inFlight + 1 })
      (by show s.inFlight + 1 + k ≤ maxInFlight; omega) hsender hconnected
    have hpush : (s.net.pushRequest (packet payloadSize)).queue .response = s.net.queue .response :=
      TcpNetworking.queue_setQueue_ne s.net (q := .request) _ (by decide)
    refine ⟨net, hqueue.trans hpush, ?_⟩
    have hpushed : s.pushed + 1 + k = s.pushed + (k + 1) := by omega
    have hinFlight : s.inFlight + 1 + k = s.inFlight + (k + 1 : Nat) := by omega
    rw [Nat.mul_succ, Nat.add_comm, List.replicate_add, run_append hround, hrun]
    simp only [hpushed, hinFlight]

theorem wake_not_mem {n : Nat} (h : BenchmarkLabel.wake ∉ ls) :
    .wake ∉ List.replicate n BenchmarkLabel.sender ++ ls := fun hmem => by
  rcases List.mem_append.mp hmem with hmem | hmem
  · cases List.eq_of_mem_replicate hmem
  · exact h hmem

/-- The sender sleeps on a full window until the minute is over, and
`notify_all` wakes it. -/
theorem returns_iff_notified : ∃ s t : Benchmark Unit,
    run (step 1460) {} (List.replicate (7 * 500) .sender ++ List.replicate 4 .sender) = some s ∧
    s.sender = .parked ∧ t.main = .returned ∧
    (t.main = .returned ↔ Along (step 1460) NotifiesInTime ({} : Benchmark Unit)
      (List.replicate (7 * 500) .sender ++ [.sender, .sender, .sender, .sender,
        .clock 60000000000, .main, .main, .sender, .sender, .sender, .main, .main])) := by
  obtain ⟨net, hqueue, hfill⟩ := fill 1460 (s := ({} : Benchmark Unit)) (k := 500)
    (by decide) rfl rfl
  have hempty : net.queue .response = [] := hqueue
  refine ⟨{ net, pushed := 500, inFlight := 500, sender := .parked },
    { net, pushed := 500, inFlight := 500, sender := .finished, connected := false,
      now := 60000000000, main := .returned }, (run_append hfill).trans rfl, rfl, rfl,
    returns_iff 1460 _ _ ?_ (wake_not_mem (by simp)) ⟨rfl, rfl, fun _ => rfl⟩⟩
  rw [run_append hfill]
  simp [run, step, stepSender, stepMain, notify, maxInFlight, benchmarkDurationSeconds, hempty]

/-- The constructor can wait for ever: the minute ends while the sender, with
the window full, tests it. -/
theorem left_behind_reachable (payloadSize : Int32) :
    ∃ ls t, BenchmarkLabel.wake ∉ ls ∧
      run (step payloadSize) ({} : Benchmark T) ls = some t ∧ LeftBehind t := by
  obtain ⟨net, -, hfill⟩ := fill payloadSize (s := ({} : Benchmark T)) (k := 500)
    (show (0 : Int) + 500 ≤ 500 by decide) rfl rfl
  refine ⟨List.replicate (7 * 500) .sender ++ [.sender, .sender, .sender, .clock 60000000000,
    .main, .main],
    { net, pushed := 500, inFlight := 500, sender := .inFlightTest, connected := false,
      now := 60000000000, main := .join },
    wake_not_mem (by simp), ?_, rfl, .inr ⟨rfl, Int.le_refl 500⟩⟩
  rw [run_append hfill]
  simp [run, step, stepSender, stepMain, notify, benchmarkDurationSeconds]

end Benchmark
end Ttp2
