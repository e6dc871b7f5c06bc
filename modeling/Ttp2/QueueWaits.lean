import Ttp2.QueueMonitor

/-! # Waiting for an element

The waits are over on data and on a disconnect alike, and what follows is the
same read of element 0; so a read finds an element exactly if no wait was
released by a disconnect alone. And `disconnect` notifies nobody: a thread
that is parked when the session is disconnected stays parked, and so does one
that has tested the predicate and parks after it. -/
namespace Ttp2
open Lib Lts Threads

namespace QueueMonitor
variable {τ T : Type} [DecidableEq τ]

/-! ## Reads find an element -/

/-- **No read of an empty queue**: a thread whose next step is the read of
element 0 finds one. -/
def ReadsElement (s : QueueMonitor τ T) : Prop := ∀ t q c, s.pc t = .ready q c → s.net.queue q ≠ []

/-- The predicate of a wait is evaluated while the session is connected or the
queue has an element. -/
def WaitsForData (s : QueueMonitor τ T) : MonitorLabel τ T → Prop
  | .evaluate t =>
    match s.pc t with
    | .enter q _ | .woken q _ => s.net.connected = true ∨ s.net.queue q ≠ []
    | _ => True
  | _ => True

omit [DecidableEq τ] in
theorem waitsForData_evaluate {s : QueueMonitor τ T} {t : τ} {q : Queue} {c : Consumer}
    (hpc : s.pc t = .enter q c ∨ s.pc t = .woken q c) :
    WaitsForData s (.evaluate t) ↔ s.net.connected = true ∨ s.net.queue q ≠ [] := by
  rcases hpc with hpc | hpc
  · simp only [WaitsForData, hpc]
  · simp only [WaitsForData, hpc]

/-! ## Who holds a mutex -/

/-- The thread holds the mutex of the queue. -/
def Holds (q : Queue) : ThreadPc T → Prop
  | .parking q' _ | .ready q' _ | .sending q' => q' = q
  | _ => False

/-- A thread that holds a mutex is its owner. -/
def Owned (s : QueueMonitor τ T) : Prop := ∀ t q, Holds q (s.pc t) → s.owner q = some t

variable {s s' : QueueMonitor τ T} {l : MonitorLabel τ T}

theorem goto_pc_self (s : QueueMonitor τ T) (t : τ) (p : ThreadPc T) : (s.goto t p).pc t = p :=
  Function.update_self ..

theorem goto_pc_ne (s : QueueMonitor τ T) {t u : τ} (p : ThreadPc T) (h : u ≠ t) :
    (s.goto t p).pc u = s.pc u :=
  Function.update_of_ne h ..

/-- A step moves its own thread, and may wake one that is parked. -/
theorem Moves.others (hs : Moves s l s') {u : τ} (hne : u ≠ l.thread) :
    s'.pc u = s.pc u ∨ ∃ q c, s.pc u = .parked q c ∧ s'.pc u = .woken q c := by
  cases hs with
  | notifyOne t v q c hpc hv =>
    by_cases huv : u = v
    · subst huv
      exact .inr ⟨q, c, hv, goto_pc_self ..⟩
    · exact .inl ((goto_pc_ne _ _ huv).trans (goto_pc_ne s .idle hne))
  | disconnect t hpc => exact .inl rfl
  | _ => exact .inl (goto_pc_ne s _ hne)

/-- A thread that holds a mutex is the one that moves, or held it before. -/
theorem Moves.holder (hs : Moves s l s') {u : τ} (hne : u ≠ l.thread) {q : Queue}
    (hu : Holds q (s'.pc u)) : s'.pc u = s.pc u := by
  rcases hs.others hne with hsame | ⟨q', c, -, hwoken⟩
  · exact hsame
  · rw [hwoken] at hu
    exact absurd hu id

omit [DecidableEq τ] in
/-- The mutex of a queue has one holder. -/
theorem Owned.exclusive (h : s.Owned) {t u : τ} {q : Queue}
    (ht : Holds q (s.pc t)) (hu : Holds q (s.pc u)) : u = t :=
  Option.some.inj ((h u q hu).symm.trans (h t q ht))

/-- The steps of the others leave a mutex and its queue to the holder. -/
theorem Owned.frame (h : s.Owned) (hs : Moves s l s') {u : τ} (hne : u ≠ l.thread) {q : Queue}
    (hu : Holds q (s.pc u)) : s'.owner q = some u ∧ s'.net.queue q = s.net.queue q := by
  have howner := h u q hu
  have hfree : ∀ q', s.owner q' = none → q ≠ q' := by
    rintro q' hnone rfl
    rw [howner] at hnone
    cases hnone
  have hother : ∀ q', Holds q' (s.pc l.thread) → q ≠ q' := by
    rintro q' ht rfl
    exact hne (h.exclusive ht hu)
  cases hs with
  | append t q' packet hpc hnone =>
    exact ⟨howner, TcpNetworking.queue_setQueue_ne s.net _ (hfree q' hnone)⟩
  | pass t q' c hpc hnone hrel =>
    exact ⟨(Function.update_of_ne (hfree q' hnone) ..).trans howner, rfl⟩
  | refuse t q' c hpc hnone hrel =>
    exact ⟨(Function.update_of_ne (hfree q' hnone) ..).trans howner, rfl⟩
  | park t q' c hpc =>
    have hq := hother q' (show Holds q' (s.pc t) by rw [hpc]; rfl)
    exact ⟨(Function.update_of_ne hq ..).trans howner, rfl⟩
  | readPop t q' packet rest hpc hdata =>
    have hq := hother q' (show Holds q' (s.pc t) by rw [hpc]; rfl)
    exact ⟨(Function.update_of_ne hq ..).trans howner,
      TcpNetworking.queue_setQueue_ne s.net _ hq⟩
  | readSend t q' packet rest hpc hdata =>
    have hq := hother q' (show Holds q' (s.pc t) by rw [hpc]; rfl)
    exact ⟨howner, TcpNetworking.queue_setQueue_ne s.net _ hq⟩
  | sent t q' hpc =>
    have hq := hother q' (show Holds q' (s.pc t) by rw [hpc]; rfl)
    exact ⟨(Function.update_of_ne hq ..).trans howner, rfl⟩
  | _ => exact ⟨howner, rfl⟩

/-- Where a step leaves its own thread: about to read, about to park or
parked only by way of the wait. -/
inductive Arrives (s s' : QueueMonitor τ T) (l : MonitorLabel τ T) (t : τ) : ThreadPc T → Prop where
  | elsewhere (p : ThreadPc T) (hholds : ∀ q, ¬ Holds q p) (hparked : ∀ q c, p ≠ .parked q c) :
      Arrives s s' l t p
  | ready (q : Queue) (c : Consumer) (hl : l = .evaluate t)
      (hpc : s.pc t = .enter q c ∨ s.pc t = .woken q c) (hrel : s.released q = true)
      (howner : s'.owner q = some t) (hnet : s'.net = s.net) : Arrives s s' l t (.ready q c)
  | parking (q : Queue) (c : Consumer) (hrel : s.released q = false)
      (howner : s'.owner q = some t) (hnet : s'.net = s.net) : Arrives s s' l t (.parking q c)
  | parked (q : Queue) (c : Consumer) (hpc : s.pc t = .parking q c) (hnet : s'.net = s.net) :
      Arrives s s' l t (.parked q c)
  | sending (q : Queue) (hpc : s.pc t = .ready q .sendLoop) (howner : s'.owner q = s.owner q) :
      Arrives s s' l t (.sending q)

theorem Moves.arrives (hs : Moves s l s') : Arrives s s' l l.thread (s'.pc l.thread) := by
  have hgoto : ∀ (t : τ) (p : ThreadPc T), (∀ q, ¬ Holds q p) → (∀ q c, p ≠ .parked q c) →
      Arrives s s' l t ((s.goto t p).pc t) := by
    intro t p hholds hparked
    rw [goto_pc_self]
    exact .elsewhere p hholds hparked
  cases hs with
  | pass t q c hpc hnone hrel =>
    have hself := goto_pc_self s t (.ready q c)
    exact hself.symm ▸ .ready q c rfl hpc hrel (Function.update_self ..) rfl
  | refuse t q c hpc hnone hrel =>
    have hself := goto_pc_self s t (.parking q c)
    exact hself.symm ▸ .parking q c hrel (Function.update_self ..) rfl
  | park t q c hpc =>
    have hself := goto_pc_self s t (.parked q c)
    exact hself.symm ▸ .parked q c hpc rfl
  | readSend t q packet rest hpc hdata =>
    have hself := goto_pc_self s t (.sending q)
    exact hself.symm ▸ .sending q hpc rfl
  | notifyOne t v q c hpc hv =>
    have hne : t ≠ v := by
      rintro rfl
      rw [hpc] at hv
      cases hv
    have hself : ((s.goto t .idle).goto v (.woken q c)).pc t = .idle :=
      (goto_pc_ne _ _ hne).trans (goto_pc_self ..)
    exact hself.symm ▸ .elsewhere _ (fun _ => id) (fun _ _ hp => by cases hp)
  | disconnect t hpc => exact hpc.symm ▸ .elsewhere _ (fun _ => id) (fun _ _ hp => by cases hp)
  | loopTest t q p hpc hp =>
    rcases hp with rfl | rfl
    · exact hgoto t _ (fun _ => id) (fun _ _ hp => by cases hp)
    · exact hgoto t _ (fun _ => id) (fun _ _ hp => by cases hp)
  | _ => exact hgoto _ _ (fun _ => id) (fun _ _ hp => by cases hp)

/-- The thread that moves owns what it holds then. -/
theorem Owned.acquires (h : s.Owned) (hs : Moves s l s') {q : Queue}
    (hu : Holds q (s'.pc l.thread)) : s'.owner q = some l.thread := by
  have harrives := hs.arrives
  generalize s'.pc l.thread = p at harrives hu
  cases harrives with
  | elsewhere _ hholds _ => exact absurd hu (hholds q)
  | ready q' c hl hpc hrel howner hnet =>
    cases hu
    exact howner
  | parking q' c hrel howner hnet =>
    cases hu
    exact howner
  | parked q' c hpc hnet => exact absurd hu id
  | sending q' hpc howner =>
    cases hu
    exact howner.trans (h _ q (by rw [hpc]; rfl))

theorem Owned.step (h : s.Owned) (hs : Moves s l s') : s'.Owned := by
  intro u q hu
  by_cases hne : u = l.thread
  · subst hne
    exact h.acquires hs hu
  · rw [hs.holder hne hu] at hu
    exact (h.frame hs hne hu).1

/-! ## Which reads find one -/

structure ReadInvariant (s : QueueMonitor τ T) : Prop where
  owned : s.Owned
  reads : s.ReadsElement

theorem ReadInvariant.step [Fintype τ] (h : ReadInvariant s) (hok : WaitsForData s l)
    (hs : step s l = some s') : ReadInvariant s' := by
  have hmoves := moves_of_step hs
  refine ⟨h.owned.step hmoves, fun u q c hu => ?_⟩
  by_cases hne : u = l.thread
  · subst hne
    have harrives := hmoves.arrives
    rw [hu] at harrives
    cases harrives with
    | elsewhere _ hholds _ => exact absurd rfl (hholds q)
    | ready _ _ hl hpc hrel howner hnet =>
      rw [hnet]
      rw [hl] at hok
      rcases (waitsForData_evaluate hpc).mp hok with hconn | hdata
      · intro hempty
        rw [released, hempty, hconn] at hrel
        cases hrel
      · exact hdata
  · have hholds : Holds q (s'.pc u) := by rw [hu]; rfl
    have hsame := hmoves.holder hne hholds
    rw [hsame] at hu hholds
    rw [(h.owned.frame hmoves hne hholds).2]
    exact h.reads u q c hu

/-- A wait released by a disconnect alone goes on to read an empty queue. -/
theorem not_readsElement [Fintype τ] (hbad : ¬ WaitsForData s l) (hs : step s l = some s') :
    ¬ s'.ReadsElement := by
  have hcase : ∀ t q c, (s.pc t = .enter q c ∨ s.pc t = .woken q c) → l = .evaluate t →
      s.net.connected = false ∧ s.net.queue q = [] := by
    rintro t q c hpc rfl
    rw [waitsForData_evaluate hpc] at hbad
    simpa using hbad
  cases moves_of_step hs with
  | pass t q c hpc hfree hrel =>
    obtain ⟨-, hempty⟩ := hcase t q c hpc rfl
    intro hreads
    exact hreads t q c (Function.update_self ..) hempty
  | refuse t q c hpc hfree hrel =>
    obtain ⟨hconn, -⟩ := hcase t q c hpc rfl
    rw [released, hconn, Bool.not_false, Bool.or_true] at hrel
    cases hrel
  | _ => exact absurd trivial hbad

/-- **No dequeue reads an empty queue**, in every state of a run, exactly if
every wait is evaluated while the session is connected or has an element. -/
theorem reads_element_iff [Fintype τ] (ls : List (MonitorLabel τ T)) (s : QueueMonitor τ T)
    (hrun : run QueueMonitor.step {} ls = some s) :
    Throughout QueueMonitor.step ReadsElement {} ls ↔
      Along QueueMonitor.step WaitsForData {} ls := by
  have henv : Along QueueMonitor.step (fun _ _ => True) ({} : QueueMonitor τ T) ls :=
    Along.of_forall (fun _ _ => trivial) _ _
  have hinit : ReadInvariant ({} : QueueMonitor τ T) :=
    ⟨fun _ _ h => absurd h id, fun _ _ _ h => by cases h⟩
  refine throughout_iff_along (I := ReadInvariant) (fun h => h.reads) ?_ ?_ hinit henv hrun
  · intro s l t h _ hok hs
    exact h.step hok hs
  · intro s l t _ _ hbad hs
    exact not_readsElement hbad hs

instance [Fintype τ] (s : QueueMonitor τ T) (l : MonitorLabel τ T) :
    Decidable (WaitsForData s l) := by
  unfold WaitsForData
  split
  · split <;> infer_instance
  · infer_instance

/-- A pop that waits, and the push that ends its wait. -/
theorem reads_element_pushed : Throughout QueueMonitor.step ReadsElement
    ({} : QueueMonitor (Fin 2) Unit)
    [.callPop 0 .request, .evaluate 0, .park 0, .callPush 1 .request {}, .append 1,
      .notify 1 (some 0), .evaluate 0, .read 0] :=
  (reads_element_iff _ _ rfl).mpr (by decide)

/-- **A disconnect releases a wait on an empty queue**, and element 0 is read. -/
theorem reads_empty_queue : ¬ Throughout QueueMonitor.step ReadsElement
    ({} : QueueMonitor (Fin 2) Unit) [.disconnect 1, .callPop 0 .request, .evaluate 0] := by
  intro h
  obtain ⟨s, hrun, hready, hempty⟩ : ∃ s, run QueueMonitor.step ({} : QueueMonitor (Fin 2) Unit)
      [.disconnect 1, .callPop 0 .request, .evaluate 0] = some s ∧
        s.pc 0 = .ready .request .pop ∧ s.net.queue .request = [] := ⟨_, rfl, rfl, rfl⟩
  exact h.last hrun 0 .request .pop hready hempty

/-! ## Lost wake-ups -/

/-- Nothing is in progress but parked waits. -/
def Quiescent (s : QueueMonitor τ T) : Prop :=
  ∀ t, s.pc t = .idle ∨ ∃ q c, s.pc t = .parked q c

/-- **No wake-up is lost**: when nothing but parked waits is in progress, the
predicate of each of them is false. -/
def NoneLost (s : QueueMonitor τ T) : Prop :=
  s.Quiescent → ∀ t q c, s.pc t = .parked q c → s.released q = false

/-- The thread is parked in a wait, or past the test of its predicate and about to park. -/
def isWaiting : ThreadPc T → Bool
  | .parking _ _ | .parked _ _ => true
  | _ => false

/-- The session is disconnected while no thread is parked or about to park. -/
def DisconnectsUnwaited (s : QueueMonitor τ T) : MonitorLabel τ T → Prop
  | .disconnect _ => ∀ t, isWaiting (s.pc t) = false
  | _ => True

/-- A thread that will yet take an element of the queue, or wake one that will. -/
def credit (q : Queue) : ThreadPc T → Nat
  | .notify q' | .woken q' _ | .ready q' _ => if q' = q then 1 else 0
  | _ => 0

theorem credit_notify (q q' : Queue) :
    credit q (.notify q' : ThreadPc T) = if q' = q then 1 else 0 := rfl

theorem credit_woken (q q' : Queue) (c : Consumer) :
    credit q (.woken q' c : ThreadPc T) = if q' = q then 1 else 0 := rfl

theorem credit_ready (q q' : Queue) (c : Consumer) :
    credit q (.ready q' c : ThreadPc T) = if q' = q then 1 else 0 := rfl

theorem credit_push (q q' : Queue) (packet : Packet T) : credit q (.push q' packet) = 0 := rfl

/-- While a thread is parked, each element has its thread under way. -/
def Covered [Fintype τ] (s : QueueMonitor τ T) : Prop :=
  ∀ q, (∃ t c, s.pc t = .parked q c) → (s.net.queue q).length ≤ total (credit q) s.pc

structure WakeInvariant [Fintype τ] (s : QueueMonitor τ T) : Prop where
  owned : s.Owned
  covered : s.Covered
  /-- Until the thread parks it keeps the mutex, and the queue stays empty. -/
  refused : ∀ t q c, s.pc t = .parking q c → s.net.queue q = []
  unwaited : s.net.connected = false → ∀ t, isWaiting (s.pc t) = false

section Wake

omit [DecidableEq τ] in
theorem released_eq_false {q : Queue} (h : s.released q = false) :
    s.net.queue q = [] ∧ s.net.connected = true := by
  obtain ⟨hqueue, hconn⟩ := Bool.or_eq_false_iff.mp h
  exact ⟨by simpa using hqueue, by simpa using hconn⟩

/-- A thread about to park found the queue empty, and so it still is. -/
theorem Moves.refused (hs : Moves s l s') (howned : s.Owned)
    (h : ∀ t q c, s.pc t = .parking q c → s.net.queue q = []) {t : τ} {q : Queue} {c : Consumer}
    (ht : s'.pc t = .parking q c) : s'.net.queue q = [] := by
  by_cases hne : t = l.thread
  · subst hne
    have harrives := hs.arrives
    rw [ht] at harrives
    cases harrives with
    | elsewhere _ hholds _ => exact absurd rfl (hholds q)
    | parking _ _ hrel howner hnet =>
      rw [hnet]
      exact (released_eq_false hrel).1
  · have hholds : Holds q (s'.pc t) := by rw [ht]; rfl
    have hsame := hs.holder hne hholds
    rw [hsame] at ht hholds
    rw [(howned.frame hs hne hholds).2]
    exact h t q c ht

theorem Moves.connected (hs : Moves s l s') :
    s'.net.connected = s.net.connected ∨ ∃ t, l = .disconnect t := by
  cases hs with
  | append t q packet hpc hfree => exact .inl (TcpNetworking.connected_setQueue s.net q _)
  | readPop t q packet rest hpc hq => exact .inl (TcpNetworking.connected_setQueue s.net q _)
  | readSend t q packet rest hpc hq => exact .inl (TcpNetworking.connected_setQueue s.net q _)
  | disconnect t hpc => exact .inr ⟨t, rfl⟩
  | _ => exact .inl rfl

/-- A thread waits that waited before, or has just found the session connected. -/
theorem Moves.waiting (hs : Moves s l s') {t : τ} (ht : isWaiting (s'.pc t) = true) :
    isWaiting (s.pc t) = true ∨ s.net.connected = true := by
  by_cases hne : t = l.thread
  · subst hne
    have harrives := hs.arrives
    generalize s'.pc l.thread = p at harrives ht
    cases harrives with
    | elsewhere _ hholds hparked =>
      cases p with
      | parking q c => exact absurd rfl (hholds q)
      | parked q c => exact absurd rfl (hparked q c)
      | _ => cases ht
    | parking q c hrel => exact .inr (released_eq_false hrel).2
    | parked q c hpc => exact .inl (by rw [hpc]; rfl)
    | ready => cases ht
    | sending => cases ht
  · rcases hs.others hne with hsame | ⟨q, c, -, hwoken⟩
    · exact .inl (hsame ▸ ht)
    · rw [hwoken] at ht
      cases ht

theorem Moves.unwaited (hs : Moves s l s') (hok : DisconnectsUnwaited s l)
    (h : s.net.connected = false → ∀ t, isWaiting (s.pc t) = false)
    (hconn : s'.net.connected = false) (t : τ) : isWaiting (s'.pc t) = false := by
  have hbefore : ∀ u, isWaiting (s.pc u) = false := by
    rcases hs.connected with hsame | ⟨u, rfl⟩
    · exact h (hsame.symm.trans hconn)
    · exact hok
  by_contra hwaits
  rcases hs.waiting (by simpa using hwaits) with hwaited | hconn'
  · rw [hbefore t] at hwaited
    cases hwaited
  · rcases hs.connected with hsame | ⟨u, rfl⟩
    · rw [hsame, hconn'] at hconn
      cases hconn
    · cases hs with
      | disconnect _ hpc =>
        rw [show _ = isWaiting (s.pc t) from rfl, hbefore t] at hwaits
        exact hwaits rfl

variable [Fintype τ]

/-- A thread moves to a place where it is not parked: it may take credit away
only with an element, or where there is none. -/
theorem Covered.move (h : s.Covered) {t : τ} {p : ThreadPc T}
    (hpc : s'.pc = Function.update s.pc t p) (hp : ∀ q c, p ≠ .parked q c)
    (hlen : ∀ q, (∃ u c, s.pc u = .parked q c) → s'.net.queue q = [] ∨
      (s'.net.queue q).length + credit q (s.pc t) ≤ (s.net.queue q).length + credit q p) :
    s'.Covered := by
  rintro q ⟨u, c, hu⟩
  have hparked : s.pc u = .parked q c := by
    rw [hpc] at hu
    by_cases hut : u = t
    · subst hut
      rw [Function.update_self] at hu
      exact absurd hu (hp q c)
    · rwa [Function.update_of_ne hut] at hu
  rcases hlen q ⟨u, c, hparked⟩ with hempty | hmove
  · rw [hempty]
    exact Nat.zero_le _
  · have hbefore := h q ⟨u, c, hparked⟩
    have htotal := total_update (credit q) s.pc t p
    rw [hpc]
    omega

/-- The queues stay, and no credit is lost. -/
theorem Covered.goto (h : s.Covered) (t : τ) {p : ThreadPc T} (hp : ∀ q c, p ≠ .parked q c)
    (hcredit : ∀ q, credit q (s.pc t) ≤ credit q p) : (s.goto t p).Covered :=
  h.move (t := t) rfl hp fun q _ => .inr (Nat.add_le_add_left (hcredit q) _)

theorem length_queue_setQueue (net : TcpNetworking T) (q q' : Queue) (ps : List (Packet T)) :
    ((net.setQueue q ps).queue q').length =
      if q = q' then ps.length else (net.queue q').length := by
  by_cases hq : q = q'
  · subst hq
    rw [if_pos rfl, TcpNetworking.queue_setQueue]
  · rw [if_neg hq, TcpNetworking.queue_setQueue_ne net _ (Ne.symm hq)]

/-- An element is taken by a thread that had credit for it. -/
theorem Covered.take (h : s.Covered) {t : τ} {q : Queue} {c : Consumer} {p : ThreadPc T}
    {packet : Packet T} {rest : List (Packet T)} (hpc : s.pc t = .ready q c)
    (hq : s.net.queue q = packet :: rest) (hp : ∀ q c, p ≠ .parked q c)
    (hnet : s'.net = s.net.setQueue q rest) (hpc' : s'.pc = Function.update s.pc t p) :
    s'.Covered := by
  refine h.move (t := t) hpc' hp fun q' _ => .inr ?_
  rw [hnet, hpc, length_queue_setQueue]
  by_cases hqq : q = q'
  · subst hqq
    rw [if_pos rfl, hq, credit_ready, if_pos rfl, List.length_cons]
    omega
  · rw [if_neg hqq, credit_ready, if_neg hqq]
    omega

/-- The notifying thread's credit goes over to the thread it wakes. -/
theorem Covered.wake (h : s.Covered) {t u : τ} {q : Queue} {c : Consumer}
    (hpc : s.pc t = .notify q) (hu : s.pc u = .parked q c) :
    ((s.goto t .idle).goto u (.woken q c)).Covered := by
  have hne : u ≠ t := by
    rintro rfl
    rw [hpc] at hu
    cases hu
  have hu' : (s.goto t .idle).pc u = .parked q c := (goto_pc_ne s .idle hne).trans hu
  have htotal : ∀ q', total (credit q') ((s.goto t .idle).goto u (.woken q c)).pc =
      total (credit q') s.pc := by
    intro q'
    have h1 := total_update (credit q') s.pc t .idle
    have h2 := total_update (credit q') (s.goto t .idle).pc u (.woken q c)
    rw [hpc] at h1
    rw [hu'] at h2
    simp only [credit, Nat.add_zero] at h1 h2
    show total (credit q') (Function.update (s.goto t .idle).pc u (.woken q c)) = _
    rw [h2]
    exact h1
  have hmoves : Moves s (.notify t (some u)) ((s.goto t .idle).goto u (.woken q c)) :=
    .notifyOne t u q c hpc hu
  rintro q' ⟨v, c', hv⟩
  rw [htotal]
  refine h q' ⟨v, c', ?_⟩
  by_cases hvt : v = t
  · subst hvt
    rw [goto_pc_ne _ _ hne.symm, goto_pc_self] at hv
    cases hv
  · rcases hmoves.others hvt with hsame | ⟨_, _, -, hwoken⟩
    · exact hsame.symm.trans hv
    · rw [hwoken] at hv
      cases hv

/-- A thread parks on an empty queue. -/
theorem Covered.park (h : s.Covered) {t : τ} {q : Queue} {c : Consumer}
    (hpc : s.pc t = .parking q c) (hempty : s.net.queue q = []) (hnet : s'.net = s.net)
    (hpc' : s'.pc = Function.update s.pc t (.parked q c)) : s'.Covered := by
  rintro q' ⟨u, c', hu⟩
  rw [hnet]
  by_cases hqq : q = q'
  · subst hqq
    rw [hempty]
    exact Nat.zero_le _
  · have hut : u ≠ t := by
      rintro rfl
      rw [hpc', Function.update_self] at hu
      cases hu
      exact hqq rfl
    rw [hpc', Function.update_of_ne hut] at hu
    have hbefore := h q' ⟨u, c', hu⟩
    have htotal := total_update (credit q') s.pc t (.parked q c)
    rw [hpc] at htotal
    simp only [credit, Nat.add_zero] at htotal
    rw [hpc', htotal]
    exact hbefore

theorem WakeInvariant.covered_step (h : WakeInvariant s) (hs : Moves s l s') : s'.Covered := by
  have hcov := h.covered
  cases hs with
  | callPush t q packet hpc =>
    exact hcov.goto t (fun _ _ hp => by cases hp) fun q' => by rw [hpc]; exact Nat.le_refl _
  | append t q packet hpc hfree =>
    refine hcov.move (t := t) rfl (fun _ _ hp => by cases hp) fun q' _ => .inr ?_
    show ((s.net.setQueue q (s.net.queue q ++ [packet])).queue q').length + _ ≤ _
    rw [length_queue_setQueue, hpc]
    by_cases hqq : q = q'
    · subst hqq
      rw [if_pos rfl, List.length_append, List.length_singleton, credit_push, credit_notify,
        if_pos rfl]
    · rw [if_neg hqq, credit_push, credit_notify, if_neg hqq]
  | notifyNone t q hpc hnone =>
    refine hcov.move (t := t) rfl (fun _ _ hp => by cases hp) fun q' hparked => .inr ?_
    have hqq : q ≠ q' := by
      rintro rfl
      obtain ⟨u, c, hu⟩ := hparked
      exact hnone u c hu
    rw [hpc, credit_notify, if_neg hqq]
    exact Nat.le_add_right _ _
  | notifyOne t u q c hpc hu => exact hcov.wake hpc hu
  | callPop t q hpc =>
    exact hcov.goto t (fun _ _ hp => by cases hp) fun q' => by rw [hpc]; exact Nat.le_refl _
  | startLoop t q hpc =>
    exact hcov.goto t (fun _ _ hp => by cases hp) fun q' => by rw [hpc]; exact Nat.le_refl _
  | loopTest t q p hpc hp =>
    rcases hp with rfl | rfl
    · exact hcov.goto t (fun _ _ hp => by cases hp) fun q' => by rw [hpc]; exact Nat.le_refl _
    · exact hcov.goto t (fun _ _ hp => by cases hp) fun q' => by rw [hpc]; exact Nat.le_refl _
  | pass t q c hpc hfree hrel =>
    refine hcov.move (t := t) rfl (fun _ _ hp => by cases hp) fun q' _ => .inr ?_
    refine Nat.add_le_add_left ?_ _
    rcases hpc with hpc | hpc
    · rw [hpc]
      exact Nat.zero_le _
    · rw [hpc]
      exact Nat.le_refl _
  | refuse t q c hpc hfree hrel =>
    refine hcov.move (t := t) rfl (fun _ _ hp => by cases hp) fun q' _ => ?_
    -- a thread that was woken for an element of the queue gives up its credit where there is none
    by_cases hqq : q = q'
    · exact .inl (hqq ▸ (released_eq_false hrel).1)
    · refine .inr (Nat.add_le_add_left ?_ _)
      rcases hpc with hpc | hpc
      · rw [hpc]
        exact Nat.zero_le _
      · rw [hpc, credit_woken, if_neg hqq]
        exact Nat.zero_le _
  | park t q c hpc => exact hcov.park hpc (h.refused t q c hpc) rfl rfl
  | spurious t q c hpc =>
    exact hcov.goto t (fun _ _ hp => by cases hp) fun q' => by rw [hpc]; exact Nat.zero_le _
  | readPop t q packet rest hpc hq => exact hcov.take hpc hq (fun _ _ hp => by cases hp) rfl rfl
  | readSend t q packet rest hpc hq => exact hcov.take hpc hq (fun _ _ hp => by cases hp) rfl rfl
  | sent t q hpc =>
    exact hcov.move (t := t) rfl (fun _ _ hp => by cases hp)
      fun q' _ => .inr (by rw [hpc]; exact Nat.le_refl _)
  | disconnect t hpc => exact hcov

theorem WakeInvariant.step (h : WakeInvariant s) (hok : DisconnectsUnwaited s l)
    (hs : QueueMonitor.step s l = some s') : WakeInvariant s' := by
  have hmoves := moves_of_step hs
  exact ⟨h.owned.step hmoves, h.covered_step hmoves,
    fun t q c ht => hmoves.refused h.owned h.refused ht, hmoves.unwaited hok h.unwaited⟩

omit [DecidableEq τ] in
/-- Nothing in progress holds credit, so a queue with a parked thread is empty. -/
theorem WakeInvariant.noneLost (h : WakeInvariant s) : s.NoneLost := by
  intro hquiet t q c hparked
  have hcredit : total (credit q) s.pc = 0 := by
    refine total_eq_zero fun u => ?_
    rcases hquiet u with hu | ⟨q', c', hu⟩
    · rw [hu]
      rfl
    · rw [hu]
      rfl
  have hlen := h.covered q ⟨t, c, hparked⟩
  have hempty : s.net.queue q = [] := List.length_eq_zero_iff.mp (by omega)
  have hconn : s.net.connected = true := by
    by_contra hc
    have hwaits := h.unwaited (Bool.eq_false_iff.mpr hc) t
    rw [hparked] at hwaits
    cases hwaits
  rw [released, hempty, hconn]
  rfl

/-- **No wake-up is lost** in a run that disconnects the session only while no
thread is parked or about to park. -/
theorem none_lost (ls : List (MonitorLabel τ T))
    (hrun : Along QueueMonitor.step DisconnectsUnwaited {} ls) :
    Throughout QueueMonitor.step NoneLost {} ls := by
  have hinit : WakeInvariant ({} : QueueMonitor τ T) :=
    ⟨fun _ _ h => absurd h id, fun _ ⟨_, _, h⟩ => (by cases h), fun _ _ _ h => (by cases h),
      fun _ _ => rfl⟩
  refine Along.throughout (I := WakeInvariant) (fun h => h.noneLost) ?_ hinit hrun
  intro s l t h hok hs
  exact h.step hok hs

instance (s : QueueMonitor τ T) : (l : MonitorLabel τ T) → Decidable (DisconnectsUnwaited s l)
  | .disconnect _ => inferInstanceAs (Decidable (∀ t, isWaiting (s.pc t) = false))
  | .callPush .. | .append _ | .notify .. | .callPop .. | .startLoop .. | .loopTest _
  | .evaluate _ | .park _ | .spurious _ | .read _ | .sent _ => inferInstanceAs (Decidable True)

end Wake

/-- Two pops parked on one queue, two pushes that wake them, and then a disconnect. -/
theorem none_lost_woken : Throughout QueueMonitor.step NoneLost
    ({} : QueueMonitor (Fin 3) Unit)
    [.callPop 0 .request, .evaluate 0, .park 0, .callPop 1 .request, .evaluate 1, .park 1,
      .callPush 2 .request {}, .append 2, .notify 2 (some 0), .callPush 2 .request {}, .append 2,
      .evaluate 0, .notify 2 (some 1), .read 0, .evaluate 1, .read 1, .disconnect 2] :=
  none_lost _ (by decide)

/-- **A disconnect notifies nobody**: the pop that waits is parked for good,
though its predicate is true. -/
theorem disconnect_wakes_nobody : ¬ Throughout QueueMonitor.step NoneLost
    ({} : QueueMonitor (Fin 2) Unit) [.callPop 0 .request, .evaluate 0, .park 0, .disconnect 1] := by
  intro h
  obtain ⟨s, hrun, hfirst, hsecond, hconn⟩ : ∃ s,
      run QueueMonitor.step ({} : QueueMonitor (Fin 2) Unit)
        [.callPop 0 .request, .evaluate 0, .park 0, .disconnect 1] = some s ∧
      s.pc 0 = .parked .request .pop ∧ s.pc 1 = .idle ∧ s.net.connected = false :=
    ⟨_, rfl, rfl, rfl, rfl⟩
  have hquiet : s.Quiescent := fun t =>
    match t with
    | 0 => .inr ⟨.request, .pop, hfirst⟩
    | 1 => .inl hsecond
  have hfalse := h.last hrun hquiet 0 .request .pop hfirst
  rw [released, hconn, Bool.not_false, Bool.or_true] at hfalse
  cases hfalse

end QueueMonitor
end Ttp2
