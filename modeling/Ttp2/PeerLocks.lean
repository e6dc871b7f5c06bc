import Ttp2.Shutdown
import Ttp2.Lib.Reach

/-! # The mutexes of a peer (`peer_session_controller.cpp`)

`SendSession` and `ReceiveSession` take what stands between a lock and its
unlock to be undisturbed, each for its own half of the peer. Here the two
halves are one peer, and any number of threads call its public methods and
wait for its three mutexes. What the peer can get into is what the two halves
can (`refines`), and a wait for a mutex ends (`waits_end`). -/
namespace Ttp2
open Lib Lts Reach Ranking Relation

inductive PeerMutex where
  | connected
  | receive
  | send
  deriving DecidableEq

/-- A public method of `PeerSessionController`. -/
inductive PeerCall (T : Type) where
  | isConnected
  | disconnect
  | hasPacket
  | popReceivedPacket
  | sendPacket (p : SendSession.AddressedPacket T)

/-- The mutex its `lock_guard` takes. -/
def PeerCall.mutex {T : Type} : PeerCall T → PeerMutex
  | .isConnected | .disconnect => .connected
  | .hasPacket | .popReceivedPacket => .receive
  | .sendPacket _ => .send

inductive PeerAnswer (T : Type) where
  | nothing
  | flag (answer : Bool)
  /-- `none` is an entry nothing was assigned to -/
  | entry (e : Option (ReceiveSession.AddressedPacket T))

/-- Where a thread that uses the peer is. -/
inductive PeerPc (T : Type) where
  | idle (answer : PeerAnswer T)
  | calling (c : PeerCall T)

/-- The two threads of `networkingSession`, and those that use the peer. -/
inductive PeerThread (τ : Type) where
  | sender
  | receiver
  | caller (t : τ)
  deriving DecidableEq

structure PeerLocks (τ T : Type) where
  sending : SendSession T := {}
  receiving : ReceiveSession T := {}
  owner : PeerMutex → Option (PeerThread τ) := fun _ => none
  /-- what a `lock_guard` or `unique_lock` of the thread holds -/
  held : PeerThread τ → Option PeerMutex := fun _ => none
  pc : τ → PeerPc T := fun _ => .idle .nothing

inductive PeerLabel (τ T : Type) where
  | call (t : τ) (c : PeerCall T)
  | lock (u : PeerThread τ)
  /-- the body of the method, its unlock and its return -/
  | method (t : τ)
  /-- a step of `sendSession` -/
  | send (l : SendSessionLabel T)
  /-- a step of `receiveSession`, a datagram that arrives, or a string that is read -/
  | receive (l : ReceiveLabel)
  /-- `lock.unlock()` -/
  | unlock (u : PeerThread τ)

namespace PeerLocks
variable {τ T : Type} [DecidableEq τ]

def acquire (s : PeerLocks τ T) (u : PeerThread τ) (m : PeerMutex) : PeerLocks τ T :=
  { s with
    owner := Function.update s.owner m (some u), held := Function.update s.held u (some m) }

def release (s : PeerLocks τ T) (u : PeerThread τ) (m : PeerMutex) : PeerLocks τ T :=
  { s with owner := Function.update s.owner m none, held := Function.update s.held u none }

/-- The mutex a thread waits for. -/
def wants (s : PeerLocks τ T) (u : PeerThread τ) : Option PeerMutex :=
  if s.held u = none then
    match u with
    | .sender =>
      match s.sending.pc with
      | .loopTest => some .connected
      | .polling => some .send
      | _ => none
    | .receiver =>
      match s.receiving.pc with
      | .loopTest => some .connected
      | .receiving => some .receive
      | _ => none
    | .caller t =>
      match s.pc t with
      | .calling c => some c.mutex
      | .idle _ => none
  else none

/-- The body of a method, and what it returns. -/
def execute (s : PeerLocks τ T) : PeerCall T → PeerLocks τ T × PeerAnswer T
  | .isConnected => (s, .flag s.sending.connected)
  | .disconnect =>
    ({ s with
      sending := { s.sending with connected := false }, receiving := s.receiving.disconnect },
      .nothing)
  | .hasPacket => (s, .flag !s.receiving.receivedQueue.isEmpty)
  | .popReceivedPacket =>
    ({ s with receiving := s.receiving.popReceivedPacket }, .entry s.receiving.receivedQueue.head?)
  | .sendPacket p =>
    ({ s with sending := { s.sending with
        sendQueue := s.sending.sendQueue ++ [p], queued := s.sending.queued ++ [p] } }, .nothing)

/-- What `unlock` needs: the end of the section in `sendSession`, or in `receiveSession`. -/
def unlocks (s : PeerLocks τ T) : PeerThread τ → Option PeerMutex
  | .sender =>
    if s.sending.pc = .loopTest ∧ s.held .sender = some .send then some .send else none
  | .receiver =>
    if s.receiving.pc = .queued ∧ s.held .receiver = some .receive then some .receive else none
  | .caller _ => none

def step (L : Libraries) (address : Address) (s : PeerLocks τ L.arrow.Table) :
    PeerLabel τ L.arrow.Table → Option (PeerLocks τ L.arrow.Table)
  | .call t c =>
    match s.pc t with
    | .idle _ => some { s with pc := Function.update s.pc t (.calling c) }
    | .calling _ => none
  | .lock u =>
    (s.wants u).bind fun m => if s.owner m = none then some (s.acquire u m) else none
  | .method t =>
    match s.pc t with
    | .calling c =>
      if s.held (.caller t) = some c.mutex then
        let (s, answer) := s.execute c
        some { s.release (.caller t) c.mutex with pc := Function.update s.pc t (.idle answer) }
      else none
    | .idle _ => none
  | .send .loopTest =>
    if s.held .sender = some .connected then
      (SendSession.step L address s.sending .loopTest).map fun sending =>
        { s.release .sender .connected with sending }
    else none
  | .send (.take socket) =>
    if s.held .sender = some .send then
      (SendSession.step L address s.sending (.take socket)).map fun sending => { s with sending }
    else none
  | .send (.sendPacket _) | .send .disconnect => none
  | .send l => (SendSession.step L address s.sending l).map fun sending => { s with sending }
  | .receive .loopTest =>
    if s.held .receiver = some .connected then
      (ReceiveSession.step L address s.receiving .loopTest).map fun receiving =>
        { s.release .receiver .connected with receiving }
    else none
  | .receive (.receivePacketFrom peeks consumes) =>
    if s.held .receiver = some .receive then
      (ReceiveSession.step L address s.receiving (.receivePacketFrom peeks consumes)).map
        fun receiving => { s with receiving }
    else none
  | .receive .endIteration =>
    if s.held .receiver = none then
      (ReceiveSession.step L address s.receiving .endIteration).map fun receiving =>
        { s with receiving }
    else none
  | .receive .popReceivedPacket | .receive (.hasPacket _) | .receive .disconnect => none
  | .receive l =>
    (ReceiveSession.step L address s.receiving l).map fun receiving => { s with receiving }
  | .unlock u => (s.unlocks u).map fun m => s.release u m

/-! ## What a step can do -/

/-- A step of a half that takes or returns no lock. -/
def SendsInside {T : Type} (held : Option PeerMutex) : SendSessionLabel T → Prop
  | .take _ => held = some .send
  | .sendto | .timeout | .waitError | .answer _ _ => True
  | .loopTest | .sendPacket _ | .disconnect => False

def ReceivesInside (held : Option PeerMutex) : ReceiveLabel → Prop
  | .receivePacketFrom _ _ => held = some .receive
  | .endIteration => held = none
  | .arrive _ | .epollWait _ | .readIp _ => True
  | .loopTest | .popReceivedPacket | .hasPacket _ | .disconnect => False

inductive Moves (L : Libraries) (address : Address) (s : PeerLocks τ L.arrow.Table) :
    PeerLabel τ L.arrow.Table → PeerLocks τ L.arrow.Table → Prop where
  | call (t : τ) (c : PeerCall L.arrow.Table) (answer : PeerAnswer L.arrow.Table)
      (hpc : s.pc t = .idle answer) :
      Moves L address s (.call t c) { s with pc := Function.update s.pc t (.calling c) }
  | lock (u : PeerThread τ) (m : PeerMutex) (hwants : s.wants u = some m)
      (hfree : s.owner m = none) : Moves L address s (.lock u) (s.acquire u m)
  | method (t : τ) (c : PeerCall L.arrow.Table) (hpc : s.pc t = .calling c)
      (hheld : s.held (.caller t) = some c.mutex) :
      Moves L address s (.method t) { (s.execute c).1.release (.caller t) c.mutex with
        pc := Function.update (s.execute c).1.pc t (.idle (s.execute c).2) }
  | sendTest (x : SendSession L.arrow.Table) (hheld : s.held .sender = some .connected)
      (hs : SendSession.step L address s.sending .loopTest = some x) :
      Moves L address s (.send .loopTest) { s.release .sender .connected with sending := x }
  | send (l : SendSessionLabel L.arrow.Table) (x : SendSession L.arrow.Table)
      (hl : SendsInside (s.held .sender) l) (hs : SendSession.step L address s.sending l = some x) :
      Moves L address s (.send l) { s with sending := x }
  | receiveTest (x : ReceiveSession L.arrow.Table) (hheld : s.held .receiver = some .connected)
      (hs : ReceiveSession.step L address s.receiving .loopTest = some x) :
      Moves L address s (.receive .loopTest) { s.release .receiver .connected with receiving := x }
  | receive (l : ReceiveLabel) (x : ReceiveSession L.arrow.Table)
      (hl : ReceivesInside (s.held .receiver) l)
      (hs : ReceiveSession.step L address s.receiving l = some x) :
      Moves L address s (.receive l) { s with receiving := x }
  | unlockSend (hpc : s.sending.pc = .loopTest) (hheld : s.held .sender = some .send) :
      Moves L address s (.unlock .sender) (s.release .sender .send)
  | unlockReceive (hpc : s.receiving.pc = .queued) (hheld : s.held .receiver = some .receive) :
      Moves L address s (.unlock .receiver) (s.release .receiver .receive)

variable {L : Libraries} {address : Address} {s s' : PeerLocks τ L.arrow.Table}
  {l : PeerLabel τ L.arrow.Table}

theorem moves_of_send {l : SendSessionLabel L.arrow.Table}
    (h : step L address s (.send l) = some s') : Moves L address s (.send l) s' := by
  cases l with
  | loopTest =>
    simp only [step] at h
    split at h
    · rename_i hheld
      obtain ⟨x, hx, rfl⟩ := Option.map_eq_some_iff.mp h
      exact .sendTest x hheld hx
    · cases h
  | take socket =>
    simp only [step] at h
    split at h
    · rename_i hheld
      obtain ⟨x, hx, rfl⟩ := Option.map_eq_some_iff.mp h
      exact .send _ x hheld hx
    · cases h
  | sendPacket p | disconnect => cases h
  | sendto | timeout | waitError | answer d stale =>
    obtain ⟨x, hx, rfl⟩ := Option.map_eq_some_iff.mp h
    exact .send _ x trivial hx

theorem moves_of_receive {l : ReceiveLabel} (h : step L address s (.receive l) = some s') :
    Moves L address s (.receive l) s' := by
  cases l with
  | loopTest =>
    simp only [step] at h
    split at h
    · rename_i hheld
      obtain ⟨x, hx, rfl⟩ := Option.map_eq_some_iff.mp h
      exact .receiveTest x hheld hx
    · cases h
  | receivePacketFrom peeks consumes | endIteration =>
    simp only [step] at h
    split at h
    · rename_i hheld
      obtain ⟨x, hx, rfl⟩ := Option.map_eq_some_iff.mp h
      exact .receive _ x hheld hx
    · cases h
  | popReceivedPacket | hasPacket answer | disconnect => cases h
  | arrive d | epollWait reports | readIp k =>
    obtain ⟨x, hx, rfl⟩ := Option.map_eq_some_iff.mp h
    exact .receive _ x trivial hx

theorem moves_of_step (h : step L address s l = some s') : Moves L address s l s' := by
  cases l with
  | call t c =>
    simp only [step] at h
    split at h
    · rename_i answer hpc
      cases h
      exact .call t c answer hpc
    · cases h
  | lock u =>
    obtain ⟨m, hwants, h⟩ := Option.bind_eq_some_iff.mp h
    split at h
    · rename_i hfree
      cases h
      exact .lock u m hwants hfree
    · cases h
  | method t =>
    simp only [step] at h
    split at h
    · rename_i c hpc
      split at h
      · rename_i hheld
        cases h
        exact .method t c hpc hheld
      · cases h
    · cases h
  | send l => exact moves_of_send h
  | receive l => exact moves_of_receive h
  | unlock u =>
    obtain ⟨m, hm, rfl⟩ := Option.map_eq_some_iff.mp h
    cases u with
    | sender =>
      simp only [unlocks] at hm
      split at hm
      · rename_i hend
        cases hm
        exact .unlockSend hend.1 hend.2
      · cases hm
    | receiver =>
      simp only [unlocks] at hm
      split at hm
      · rename_i hend
        cases hm
        exact .unlockReceive hend.1 hend.2
      · cases hm
    | caller t => cases hm

/-! ## Who holds what -/

/-- From the lock of `receiveMutex` to its unlock. -/
def InReceive : ReceiveSessionPc → Prop
  | .receiving | .queued | .terminated | .undefined => True
  | .loopTest | .waiting | .finished => False

/-- A thread is where its code holds the mutex. -/
def HoldsAt (s : PeerLocks τ T) : PeerThread τ → PeerMutex → Prop
  | .sender, .connected => s.sending.pc = .loopTest
  | .sender, .send => s.sending.pc ≠ .finished
  | .receiver, .connected => s.receiving.pc = .loopTest
  | .receiver, .receive => InReceive s.receiving.pc
  | .caller t, m => ∃ c, s.pc t = .calling c ∧ c.mutex = m
  | .sender, .receive | .receiver, .send => False

/-- The thread is where it was. -/
def SamePlace (s s' : PeerLocks τ T) : PeerThread τ → Prop
  | .sender => s'.sending.pc = s.sending.pc
  | .receiver => s'.receiving.pc = s.receiving.pc
  | .caller t => s'.pc t = s.pc t

omit [DecidableEq τ] in
theorem samePlace_of_sender (hreceiving : s'.receiving = s.receiving) (hpc : s'.pc = s.pc)
    {u : PeerThread τ} (hu : u ≠ .sender) : SamePlace s s' u := by
  cases u with
  | sender => exact absurd rfl hu
  | receiver => exact congrArg ReceiveSession.pc hreceiving
  | caller t => exact congrFun hpc t

omit [DecidableEq τ] in
theorem samePlace_of_receiver (hsending : s'.sending = s.sending) (hpc : s'.pc = s.pc)
    {u : PeerThread τ} (hu : u ≠ .receiver) : SamePlace s s' u := by
  cases u with
  | receiver => exact absurd rfl hu
  | sender => exact congrArg SendSession.pc hsending
  | caller t => exact congrFun hpc t

omit [DecidableEq τ] in
theorem HoldsAt.of_samePlace {u : PeerThread τ} {m : PeerMutex} (h : s.HoldsAt u m)
    (hsame : SamePlace s s' u) : s'.HoldsAt u m := by
  cases u with
  | sender =>
    cases m with
    | connected => exact hsame.trans h
    | send => exact fun he => h (hsame.symm.trans he)
    | receive => exact h
  | receiver =>
    cases m with
    | connected => exact hsame.trans h
    | receive =>
      change InReceive s.receiving.pc at h
      rw [← show s'.receiving.pc = s.receiving.pc from hsame] at h
      exact h
    | send => exact h
  | caller t =>
    obtain ⟨c, hc, hm⟩ := h
    exact ⟨c, hsame.trans hc, hm⟩

structure Holding (s : PeerLocks τ T) : Prop where
  owner : ∀ u m, s.owner m = some u ↔ s.held u = some m
  place : ∀ u m, s.held u = some m → s.HoldsAt u m
  sendLocked : s.sending.sendLocked = true → s.held .sender = some .send

omit [DecidableEq τ] in
theorem Holding.init : Holding ({} : PeerLocks τ T) where
  owner _ _ := by simp
  place _ _ h := by cases h
  sendLocked h := by cases h

omit [DecidableEq τ] in
theorem Holding.exclusive (h : Holding s) {u v : PeerThread τ} {m : PeerMutex}
    (hu : s.held u = some m) (hv : s.held v = some m) : u = v :=
  Option.some.inj (((h.owner u m).mpr hu).symm.trans ((h.owner v m).mpr hv))

omit [DecidableEq τ] in
theorem wants_held {u : PeerThread τ} {m : PeerMutex} (h : s.wants u = some m) :
    s.held u = none := by
  unfold wants at h
  split at h
  · assumption
  · cases h

omit [DecidableEq τ] in
theorem wants_place {u : PeerThread τ} {m : PeerMutex} (h : s.wants u = some m) : s.HoldsAt u m := by
  have hnone := wants_held h
  unfold wants at h
  rw [if_pos hnone] at h
  cases u with
  | sender =>
    dsimp only at h
    split at h
    · rename_i hpc
      cases h
      exact hpc
    · rename_i hpc
      cases h
      rw [HoldsAt, hpc]
      simp
    · cases h
  | receiver =>
    dsimp only at h
    split at h
    · rename_i hpc
      cases h
      exact hpc
    · rename_i hpc
      cases h
      rw [HoldsAt, hpc]
      trivial
    · cases h
  | caller t =>
    dsimp only at h
    split at h
    · rename_i c hpc
      cases h
      exact ⟨c, hpc, rfl⟩
    · cases h

theorem Holding.acquire (h : Holding s) {u : PeerThread τ} {m : PeerMutex}
    (hwants : s.wants u = some m) (hfree : s.owner m = none) : Holding (s.acquire u m) where
  owner v k := by
    have hnone := wants_held hwants
    have hsame := h.owner v k
    show Function.update s.owner m (some u) k = some v ↔ Function.update s.held u (some m) v = some k
    by_cases hk : k = m
    · subst hk
      rw [Function.update_self]
      by_cases hv : v = u
      · rw [hv, Function.update_self]
        exact iff_of_true rfl rfl
      · rw [Function.update_of_ne hv, ← hsame, hfree]
        simp [Ne.symm hv]
    · rw [Function.update_of_ne hk, hsame]
      by_cases hv : v = u
      · rw [hv, Function.update_self, hnone]
        simp [Ne.symm hk]
      · rw [Function.update_of_ne hv]
  place v k hv := by
    change Function.update s.held u (some m) v = some k at hv
    by_cases hvu : v = u
    · rw [hvu, Function.update_self] at hv
      cases hv
      have hplace := wants_place hwants
      rw [hvu]
      exact hplace
    · rw [Function.update_of_ne hvu] at hv
      exact h.place v k hv
  sendLocked hlocked := by
    have hsend := h.sendLocked hlocked
    show Function.update s.held u (some m) .sender = some .send
    rw [Function.update_of_ne, hsend]
    rintro rfl
    rw [wants_held hwants] at hsend
    cases hsend

/-- A mutex is released; the other threads stay where they are. -/
theorem Holding.release (h : Holding s) {u : PeerThread τ} {m : PeerMutex}
    (hheld : s.held u = some m) (howner : s'.owner = Function.update s.owner m none)
    (hheld' : s'.held = Function.update s.held u none)
    (hplace : ∀ v ≠ u, SamePlace s s' v)
    (hlocked : s'.sending.sendLocked = true → u ≠ .sender ∧ s.sending.sendLocked = true) :
    Holding s' where
  owner v k := by
    have hsame := h.owner v k
    rw [howner, hheld']
    by_cases hv : v = u
    · subst hv
      rw [Function.update_self]
      by_cases hk : k = m
      · rw [hk, Function.update_self]
        simp
      · rw [Function.update_of_ne hk, hsame, hheld]
        simp [Ne.symm hk]
    · rw [Function.update_of_ne hv]
      by_cases hk : k = m
      · rw [hk, Function.update_self]
        exact iff_of_false (by simp) fun hvm => hv (h.exclusive hvm hheld)
      · rw [Function.update_of_ne hk, hsame]
  place v k hv := by
    rw [hheld'] at hv
    by_cases hvu : v = u
    · rw [hvu, Function.update_self] at hv
      cases hv
    · rw [Function.update_of_ne hvu] at hv
      exact (h.place v k hv).of_samePlace (hplace v hvu)
  sendLocked hs := by
    obtain ⟨hne, hlocked⟩ := hlocked hs
    rw [hheld', Function.update_of_ne (Ne.symm hne)]
    exact h.sendLocked hlocked

/-- One thread moves on, and no mutex changes hands. -/
theorem Holding.of_same (h : Holding s) {u : PeerThread τ} (howner : s'.owner = s.owner)
    (hheld : s'.held = s.held) (hplace : ∀ v ≠ u, SamePlace s s' v)
    (hu : ∀ k, s.held u = some k → s'.HoldsAt u k)
    (hlocked : s'.sending.sendLocked = true → s.held .sender = some .send) : Holding s' where
  owner v k := by
    rw [howner, hheld]
    exact h.owner v k
  place v k hv := by
    rw [hheld] at hv
    by_cases hvu : v = u
    · subst hvu
      exact hu k hv
    · exact (h.place v k hv).of_samePlace (hplace v hvu)
  sendLocked hs := by
    rw [hheld]
    exact hlocked hs

/-! ## Inside a section -/

omit [DecidableEq τ] in
/-- A method moves no other thread, and takes no mutex but its own. -/
theorem execute_same (s : PeerLocks τ T) (c : PeerCall T) :
    (s.execute c).1.owner = s.owner ∧ (s.execute c).1.held = s.held ∧
      ∀ u, SamePlace s (s.execute c).1 u := by
  cases c with
  | popReceivedPacket =>
    refine ⟨rfl, rfl, fun u => ?_⟩
    cases u with
    | receiver =>
      show s.receiving.popReceivedPacket.pc = s.receiving.pc
      unfold ReceiveSession.popReceivedPacket
      split <;> rfl
    | _ => rfl
  | _ => exact ⟨rfl, rfl, fun u => by cases u <;> rfl⟩

/-- `sendSession` in its section, or about to take an entry: it holds `sendMutex`. -/
theorem sends_inside {held : Option PeerMutex} {x y : SendSession L.arrow.Table}
    {l : SendSessionLabel L.arrow.Table} (hl : SendsInside held l)
    (hs : SendSession.step L address x l = some y) :
    (held = some .send ∨ x.sendLocked = true) ∧ y.pc ≠ .finished ∧
      SendSession.ofThread l = true ∧ l ≠ .loopTest ∧ l ≠ .disconnect := by
  have hwaited : ∀ (x : SendSession L.arrow.Table) c r result,
      (x.waited c r result).pc ≠ .finished := by
    intro x c r result
    rcases SendSession.afterAttempt_cases x c r result with ⟨c', ht, -⟩ | ⟨ht, -⟩ | ⟨ht, -⟩ <;>
      simp [ht]
  cases SendSession.moves_of_step hs with
  | sendPacket p | loopTest hpc | disconnect => exact hl.elim
  | takeNothing socket hpc hq | reject socket p rest e hpc hq he =>
    exact ⟨.inl hl, by simp, rfl, by simp, by simp⟩
  | take socket p rest encodedPacket hpc hq he =>
    exact ⟨.inl hl, by cases socket <;> simp, rfl, by simp, by simp⟩
  | sendto c r hpc =>
    exact ⟨.inr (by rw [SendSession.sendLocked, hpc]), by simp, rfl, by simp, by simp⟩
  | waited l c r hpc result received hw =>
    refine ⟨.inr (by rw [SendSession.sendLocked, hpc]), hwaited _ _ _ _, ?_⟩
    cases hw <;> exact ⟨rfl, by simp, by simp⟩

/-- What a step of `receiveSession` that takes no lock leads to. -/
inductive ReceivesTo (held : Option PeerMutex) (x y : ReceiveSession L.arrow.Table) :
    ReceiveLabel → Prop where
  | arrives (d : UdpDatagram) (hpc : y.pc = x.pc) : ReceivesTo held x y (.arrive d)
  | looks (k : Nat) (hpc : y.pc = x.pc) : ReceivesTo held x y (.readIp k)
  | polls (reports : Bool) (hpc : x.pc = .waiting) : ReceivesTo held x y (.epollWait reports)
  | reads (peeks consumes : Bool) (hheld : held = some .receive) (hin : InReceive y.pc)
      (hlt : ReceiveSession.stepsLeft y.pc < ReceiveSession.stepsLeft x.pc) :
      ReceivesTo held x y (.receivePacketFrom peeks consumes)
  | ends (hheld : held = none) : ReceivesTo held x y .endIteration

theorem receives_inside {held : Option PeerMutex} {x y : ReceiveSession L.arrow.Table}
    {l : ReceiveLabel} (hl : ReceivesInside held l)
    (hs : ReceiveSession.step L address x l = some y) : ReceivesTo held x y l := by
  cases ReceiveSession.moves_of_step hs with
  | arrive d hc => exact .arrives d rfl
  | readIp k e hk => exact .looks k rfl
  | report hpc hedge | noReport hpc => exact .polls _ hpc
  | failed peeks consumes hpc hfails =>
    exact .reads _ _ hl trivial (by simp [ReceiveSession.queueEntry, hpc, ReceiveSession.stepsLeft])
  | received d rest packet hpc hq hd =>
    exact .reads _ _ hl trivial (by
      simp [ReceiveSession.queueEntry, ReceiveSession.acknowledge, hpc, ReceiveSession.stepsLeft])
  | threw d rest e hpc hq hd | undefined d rest hpc hq hd =>
    exact .reads _ _ hl trivial (by simp [hpc, ReceiveSession.stepsLeft])
  | endIteration hpc => exact .ends hl
  | loopTest hpc | pop e rest hpc hq | disconnect => exact hl.elim
  | unchanged l hunchanged =>
    rcases hunchanged with rfl | ⟨answer, rfl⟩
    · exact hl.elim
    · exact hl.elim

omit [DecidableEq τ] in
/-- In `epoll_wait` it holds nothing. -/
theorem not_holdsAt_waiting (hpc : s.receiving.pc = .waiting) (m : PeerMutex) :
    ¬ s.HoldsAt .receiver m := by
  intro hplace
  cases m with
  | connected =>
    rw [show s.receiving.pc = .loopTest from hplace] at hpc
    cases hpc
  | receive =>
    change InReceive s.receiving.pc at hplace
    rw [hpc] at hplace
    exact hplace
  | send => exact hplace

omit [DecidableEq τ] in
theorem Holding.sends (h : Holding s) {x : SendSession L.arrow.Table}
    {l : SendSessionLabel L.arrow.Table} (hl : SendsInside (s.held .sender) l)
    (hs : SendSession.step L address s.sending l = some x) : s.held .sender = some .send :=
  (sends_inside hl hs).1.elim id h.sendLocked

theorem Holding.step (h : Holding s) (hs : PeerLocks.step L address s l = some s') : Holding s' := by
  cases moves_of_step hs with
  | call t c answer hpc =>
    refine h.of_same (u := .caller t) rfl rfl (fun v hv => ?_) (fun k hk => ?_) h.sendLocked
    · cases v with
      | caller u => exact Function.update_of_ne (fun he => hv (congrArg _ he)) _ _
      | _ => rfl
    · obtain ⟨c', hc', -⟩ := h.place _ _ hk
      rw [hpc] at hc'
      cases hc'
  | lock u m hwants hfree => exact h.acquire hwants hfree
  | method t c hpc hheld =>
    obtain ⟨howner, hheld', hsame⟩ := s.execute_same c
    have hfree : Function.update (s.execute c).1.owner c.mutex none =
        Function.update s.owner c.mutex none := by rw [howner]
    have hnone : Function.update (s.execute c).1.held (.caller t) none =
        Function.update s.held (.caller t) none := by rw [hheld']
    refine h.release hheld hfree hnone (fun v hv => ?_) (fun hlocked => ⟨by simp, ?_⟩)
    · cases v with
      | caller u =>
        exact (Function.update_of_ne (fun he => hv (congrArg _ he)) _ _).trans (hsame (.caller u))
      | sender => exact hsame .sender
      | receiver => exact hsame .receiver
    · have hsending : (s.execute c).1.sending.pc = s.sending.pc := hsame .sender
      change (s.execute c).1.sending.sendLocked = true at hlocked
      rw [SendSession.sendLocked, hsending] at hlocked
      exact hlocked
  | sendTest x hheld hx =>
    refine h.release hheld rfl rfl (fun _ hv => samePlace_of_sender (by rfl) (by rfl) hv)
      fun hlocked => ?_
    change x.sendLocked = true at hlocked
    cases SendSession.moves_of_step hx with
    | loopTest hpc =>
      rw [SendSession.sendLocked] at hlocked
      by_cases hc : s.sending.connected <;> simp [hc] at hlocked
    | waited l c r hpc result received hw => cases hw
  | send l x hl hx =>
    have hsend := h.sends hl hx
    refine h.of_same rfl rfl (fun _ hv => samePlace_of_sender (by rfl) (by rfl) hv)
      (fun k hk => ?_) fun _ => hsend
    rw [hsend] at hk
    cases hk
    exact (sends_inside hl hx).2.1
  | receiveTest x hheld hx =>
    exact h.release hheld rfl rfl (fun _ hv => samePlace_of_receiver (by rfl) (by rfl) hv)
      fun hlocked => ⟨by simp, hlocked⟩
  | receive l x hl hx =>
    refine h.of_same rfl rfl (fun _ hv => samePlace_of_receiver (by rfl) (by rfl) hv)
      (fun k hk => ?_) h.sendLocked
    have hplace := h.place _ _ hk
    cases receives_inside hl hx with
    | arrives d hpc | looks k hpc => exact hplace.of_samePlace hpc
    | polls reports hpc => exact absurd hplace (not_holdsAt_waiting hpc k)
    | reads peeks consumes hheld hin hlt =>
      rw [hheld] at hk
      cases hk
      exact hin
    | ends hheld =>
      rw [hheld] at hk
      cases hk
  | unlockSend hpc hheld =>
    refine h.release hheld rfl rfl (fun _ hv => samePlace_of_sender (by rfl) (by rfl) hv)
      fun hlocked => ?_
    change s.sending.sendLocked = true at hlocked
    rw [SendSession.sendLocked, hpc] at hlocked
    cases hlocked
  | unlockReceive hpc hheld =>
    exact h.release hheld rfl rfl (fun _ hv => samePlace_of_receiver (by rfl) (by rfl) hv)
      fun hlocked => ⟨by simp, hlocked⟩

/-! ## What the peer can get into -/

/-- What a half can be led to. -/
abbrev SendReaches (L : Libraries) (address : Address) : SendSession L.arrow.Table →
    SendSession L.arrow.Table → Prop :=
  Reaches (SendSession.step L address) fun _ _ => True

abbrev ReceiveReaches (L : Libraries) (address : Address) : ReceiveSession L.arrow.Table →
    ReceiveSession L.arrow.Table → Prop :=
  Reaches (ReceiveSession.step L address) fun _ _ => True

omit [DecidableEq τ] in
theorem ReceiveReaches.tail {x y z : ReceiveSession L.arrow.Table} (h : ReceiveReaches L address x y)
    {l : ReceiveLabel} (hs : ReceiveSession.step L address y l = some z) :
    ReceiveReaches L address x z :=
  h.trans (.single trivial hs)

omit [DecidableEq τ] in
theorem pop_eq (x : ReceiveSession L.arrow.Table) : x.popReceivedPacket = { x with
    receivedQueue := x.receivedQueue.tail
    popped := x.popped ++ x.receivedQueue.head?.toList } := by
  obtain ⟨connected, receivedQueue⟩ := x
  cases receivedQueue with
  | nil => simp [ReceiveSession.popReceivedPacket]
  | cons e rest => rfl

omit [DecidableEq τ] in
/-- A pop between `epoll_wait` and the lock of `receiveMutex`, where
`ReceiveSession` allows none, is one before `epoll_wait` returns. -/
theorem pop_reached {x : ReceiveSession L.arrow.Table} (h : ReceiveReaches L address {} x) :
    ReceiveReaches L address {} x.popReceivedPacket := by
  have hpop : ∀ x : ReceiveSession L.arrow.Table, x.pc ≠ .receiving →
      ReceiveSession.step L address x .popReceivedPacket = some x.popReceivedPacket :=
    fun x hpc => if_neg hpc
  induction h with
  | refl => exact .single trivial (hpop {} (by simp))
  | @tail y x hy hstep ih =>
    have hx : ReceiveReaches L address {} x := ReflTransGen.tail hy hstep
    by_cases hpc : x.pc = .receiving
    · obtain ⟨l, -, hs⟩ := hstep
      cases ReceiveSession.moves_of_step hs with
      | report hwaiting hedge =>
        have hafter : ReceiveReaches L address {} y.popReceivedPacket :=
          ReceiveReaches.tail hy (hpop y (by simp [hwaiting]))
        refine hafter.tail (l := .epollWait true) ?_
        rw [pop_eq, pop_eq]
        simp [ReceiveSession.step, hwaiting, hedge]
      | arrive d hc =>
        refine ih.tail (l := .arrive d) ?_
        rw [pop_eq, pop_eq]
        simp [ReceiveSession.step, hc]
      | disconnect =>
        refine ih.tail (l := .disconnect) ?_
        rw [pop_eq, pop_eq]
        rfl
      | readIp k e hk =>
        refine ih.tail (l := .readIp k) ?_
        have hk' : (y.popped ++ y.receivedQueue.head?.toList)[k]? = some e := by
          rw [List.getElem?_append_left (List.getElem?_eq_some_iff.mp hk).1, hk]
        rw [pop_eq, pop_eq]
        simp only [ReceiveSession.step, hk', Option.map_some]
        rfl
      | unchanged l hl => exact ih
      | pop e rest hne hq => exact absurd hpc hne
      | loopTest hloop => by_cases hc : y.connected <;> simp [hc] at hpc
      | _ => cases hpc
    · exact hx.tail (hpop x hpc)

/-- The halves of the peer are where `SendSession` and `ReceiveSession` can be,
and share the flag. -/
structure Refines (L : Libraries) (address : Address) (s : PeerLocks τ L.arrow.Table) : Prop where
  sending : ∃ ls, run (SendSession.step L address) {} ls = some s.sending
  receiving : ∃ ls, run (ReceiveSession.step L address) {} ls = some s.receiving
  connected : s.sending.connected = s.receiving.connected

/-- The halves can be where they are, for all that the mutexes allow. -/
structure Reached (L : Libraries) (address : Address) (s : PeerLocks τ L.arrow.Table) : Prop where
  holding : Holding s
  sending : SendReaches L address {} s.sending
  receiving : ReceiveReaches L address {} s.receiving
  connected : s.sending.connected = s.receiving.connected

omit [DecidableEq τ] in
theorem Reached.init : Reached L address ({} : PeerLocks τ L.arrow.Table) :=
  ⟨.init, .refl _, .refl _, rfl⟩

omit [DecidableEq τ] in
theorem receive_connected {x y : ReceiveSession L.arrow.Table} {l : ReceiveLabel}
    (hl : l ≠ .disconnect) (hs : ReceiveSession.step L address x l = some y) :
    y.connected = x.connected := by
  cases ReceiveSession.moves_of_step hs with
  | disconnect => exact absurd rfl hl
  | _ => rfl

omit [DecidableEq τ] in
/-- Nobody adds to `sendQueue` while `sendSession` is in its section. -/
theorem Holding.not_sendLocked (h : Holding s) {t : τ}
    (hheld : s.held (.caller t) = some .send) : s.sending.sendLocked = false := by
  rw [Bool.eq_false_iff]
  intro hlocked
  cases h.exclusive hheld (h.sendLocked hlocked)

theorem Reached.step (h : Reached L address s) (hs : PeerLocks.step L address s l = some s') :
    Reached L address s' := by
  have hholding := h.holding.step hs
  cases moves_of_step hs with
  | call t c answer hpc | lock u m hwants hfree | unlockSend hpc hheld | unlockReceive hpc hheld =>
    exact ⟨hholding, h.sending, h.receiving, h.connected⟩
  | method t c hpc hheld =>
    cases c with
    | isConnected | hasPacket => exact ⟨hholding, h.sending, h.receiving, h.connected⟩
    | disconnect =>
      exact ⟨hholding, h.sending.trans (.single (l := .disconnect) trivial rfl),
        h.receiving.tail (l := .disconnect) rfl, rfl⟩
    | popReceivedPacket =>
      refine ⟨hholding, h.sending, pop_reached h.receiving, h.connected.trans ?_⟩
      show _ = s.receiving.popReceivedPacket.connected
      unfold ReceiveSession.popReceivedPacket
      split <;> rfl
    | sendPacket p =>
      have hopen := h.holding.not_sendLocked hheld
      refine ⟨hholding, h.sending.trans (.single (l := .sendPacket p) trivial ?_), h.receiving,
        h.connected⟩
      simp only [SendSession.step, hopen]
      rfl
  | sendTest x hheld hx =>
    exact ⟨hholding, h.sending.trans (.single trivial hx), h.receiving,
      (SendSession.connected_of_step (by simp) hx).trans h.connected⟩
  | send l x hl hx =>
    exact ⟨hholding, h.sending.trans (.single trivial hx), h.receiving,
      (SendSession.connected_of_step (sends_inside hl hx).2.2.2.2 hx).trans h.connected⟩
  | receiveTest x hheld hx =>
    exact ⟨hholding, h.sending, h.receiving.tail hx,
      h.connected.trans (receive_connected (by simp) hx).symm⟩
  | receive l x hl hx =>
    have hne : l ≠ .disconnect := by
      rintro rfl
      exact hl
    exact ⟨hholding, h.sending, h.receiving.tail hx,
      h.connected.trans (receive_connected hne hx).symm⟩

/-- **The mutexes do what the two halves take for granted**: every state of
every run, of any number of threads, has its halves where `SendSession` and
`ReceiveSession` can be. -/
theorem refines (L : Libraries) (address : Address) (ls : List (PeerLabel τ L.arrow.Table)) :
    Throughout (PeerLocks.step L address) (Refines L address) {} ls :=
  (Along.of_forall (fun _ _ => trivial) _ ls).throughout (I := Reached L address)
    (fun h => ⟨reachable_iff.mpr h.sending, reachable_iff.mpr h.receiving, h.connected⟩)
    (fun h (_ : True) hs => h.step hs) .init

/-! ## Waiting for a mutex -/

/-- A step of this thread. -/
def ofThread (u : PeerThread τ) : PeerLabel τ T → Bool
  | .call t _ | .method t => decide (u = .caller t)
  | .lock v | .unlock v => decide (u = v)
  | .send _ => decide (u = .sender)
  | .receive (.arrive _) | .receive (.readIp _) => false
  | .receive _ => decide (u = .receiver)

/-- The thread is gone, by an exception or after undefined behaviour. -/
def Gone (s : PeerLocks τ T) : PeerThread τ → Prop
  | .sender => s.sending.pc = .terminated
  | .receiver => s.receiving.pc = .terminated ∨ s.receiving.pc = .undefined
  | .caller _ => False

/-- Whoever waits for a mutex waits for a thread that waits for none, goes on
if it is not gone, and makes at most 22 steps before it lets go of the mutex. -/
def WaitsEnd (L : Libraries) (address : Address) (s : PeerLocks τ L.arrow.Table) : Prop :=
  ∀ u v m, s.wants u = some m → s.owner m = some v →
    s.wants v = none ∧
      (s.Gone v ∨ ∃ l, ofThread v l = true ∧ (step L address s l).isSome = true) ∧
      ∀ ls t, run (step L address) s ls = some t →
        Throughout (step L address) (fun s => s.owner m = some v) s ls →
          ls.countP (ofThread v) ≤ 22

/-- The steps a thread makes at most while it holds a mutex. -/
def stepsLeft (s : PeerLocks τ T) : PeerThread τ → Nat
  | .sender => SendSession.stepsLeft s.sending.pc
  | .receiver => ReceiveSession.stepsLeft s.receiving.pc
  | .caller _ => 0

omit [DecidableEq τ] in
theorem stepsLeft_le (s : PeerLocks τ L.arrow.Table) (u : PeerThread τ) : s.stepsLeft u ≤ 22 := by
  cases u with
  | sender => exact (SendSession.left_le s.sending).1
  | receiver =>
    show ReceiveSession.stepsLeft s.receiving.pc ≤ 22
    cases s.receiving.pc <;> simp [ReceiveSession.stepsLeft]
  | caller t => exact Nat.zero_le _

theorem Holding.goes_on (h : Holding s) (address : Address) {v : PeerThread τ} {m : PeerMutex}
    (hheld : s.held v = some m) :
    s.Gone v ∨ ∃ l, ofThread v l = true ∧ (PeerLocks.step L address s l).isSome = true := by
  have hplace := h.place v m hheld
  cases v with
  | caller t =>
    obtain ⟨c, hpc, rfl⟩ := hplace
    exact .inr ⟨.method t, decide_eq_true rfl, by simp [PeerLocks.step, hpc, hheld]⟩
  | sender =>
    cases m with
    | connected =>
      have hpc : s.sending.pc = .loopTest := hplace
      exact .inr ⟨.send .loopTest, rfl, by simp [PeerLocks.step, SendSession.step, hpc, hheld]⟩
    | send =>
      cases hpc : s.sending.pc with
      | loopTest => exact .inr ⟨.unlock .sender, rfl, by simp [PeerLocks.step, unlocks, hpc, hheld]⟩
      | polling =>
        exact .inr ⟨.send (.take none), rfl, by simp [PeerLocks.step, SendSession.step, hpc, hheld]⟩
      | sendto c r =>
        exact .inr ⟨.send .sendto, rfl, by simp [PeerLocks.step, SendSession.step, hpc]⟩
      | waiting c r =>
        exact .inr ⟨.send .timeout, rfl, by simp [PeerLocks.step, SendSession.step, hpc]⟩
      | terminated => exact .inl hpc
      | finished => exact absurd hpc hplace
    | receive => exact hplace.elim
  | receiver =>
    cases m with
    | connected =>
      have hpc : s.receiving.pc = .loopTest := hplace
      exact .inr ⟨.receive .loopTest, rfl, by
        simp [PeerLocks.step, ReceiveSession.step, hpc, hheld]⟩
    | receive =>
      change InReceive s.receiving.pc at hplace
      cases hpc : s.receiving.pc with
      | receiving =>
        exact .inr ⟨.receive (.receivePacketFrom false false), rfl, by
          simp [PeerLocks.step, ReceiveSession.step, hpc, hheld]⟩
      | queued => exact .inr ⟨.unlock .receiver, rfl, by simp [PeerLocks.step, unlocks, hpc, hheld]⟩
      | terminated => exact .inl (.inl hpc)
      | undefined => exact .inl (.inr hpc)
      | loopTest | waiting | finished =>
        rw [hpc] at hplace
        exact hplace.elim
    | send => exact hplace.elim

/-- A thread that holds a mutex before and after its step has one step less to make. -/
theorem Holding.lowers (h : Holding s) {v : PeerThread τ} {m : PeerMutex}
    (howner : s.owner m = some v) (howner' : s'.owner m = some v) (hown : ofThread v l = true)
    (hs : PeerLocks.step L address s l = some s') : s'.stepsLeft v < s.stepsLeft v := by
  have hheld := (h.owner v m).mp howner
  have hreleased : ∀ k f, s.held v = some k → s'.owner = Function.update f k none → False := by
    intro k f hk hfree
    rw [hheld] at hk
    cases hk
    rw [hfree, Function.update_self] at howner'
    cases howner'
  cases moves_of_step hs with
  | call t c answer hpc =>
    obtain rfl := of_decide_eq_true hown
    obtain ⟨c', hc', -⟩ := h.place _ _ hheld
    rw [hpc] at hc'
    cases hc'
  | lock u k hwants hfree =>
    obtain rfl := of_decide_eq_true hown
    rw [wants_held hwants] at hheld
    cases hheld
  | method t c hpc hheld' =>
    obtain rfl := of_decide_eq_true hown
    exact (hreleased c.mutex _ hheld' rfl).elim
  | sendTest x hheld' hx =>
    obtain rfl := of_decide_eq_true hown
    exact (hreleased .connected _ hheld' rfl).elim
  | send l x hl hx =>
    obtain rfl := of_decide_eq_true hown
    obtain ⟨-, -, hthread, hne, -⟩ := sends_inside hl hx
    have hstep := (SendSession.step_left hne hx).2
    rw [hthread] at hstep
    exact hstep
  | receiveTest x hheld' hx =>
    obtain rfl := of_decide_eq_true hown
    exact (hreleased .connected _ hheld' rfl).elim
  | receive l x hl hx =>
    cases receives_inside hl hx with
    | arrives d hpc | looks k hpc => cases hown
    | polls reports hpc =>
      obtain rfl := of_decide_eq_true hown
      exact absurd (h.place _ _ hheld) (not_holdsAt_waiting hpc m)
    | reads peeks consumes hheld' hin hlt =>
      obtain rfl := of_decide_eq_true hown
      exact hlt
    | ends hnone =>
      obtain rfl := of_decide_eq_true hown
      rw [hnone] at hheld
      cases hheld
  | unlockSend hpc hheld' =>
    obtain rfl := of_decide_eq_true hown
    exact (hreleased .send _ hheld' rfl).elim
  | unlockReceive hpc hheld' =>
    obtain rfl := of_decide_eq_true hown
    exact (hreleased .receive _ hheld' rfl).elim

/-- The steps of the others leave a thread where it is. -/
theorem stepsLeft_of_others {v : PeerThread τ} (hown : ofThread v l = false)
    (hs : PeerLocks.step L address s l = some s') : s'.stepsLeft v = s.stepsLeft v := by
  cases v with
  | caller t => rfl
  | sender =>
    have hpc : s'.sending.pc = s.sending.pc := by
      cases moves_of_step hs with
      | method t c hpc hheld => exact (s.execute_same c).2.2 .sender
      | sendTest x hheld hx | send l x hl hx => cases hown
      | _ => rfl
    exact congrArg SendSession.stepsLeft hpc
  | receiver =>
    have hpc : s'.receiving.pc = s.receiving.pc := by
      cases moves_of_step hs with
      | method t c hpc hheld => exact (s.execute_same c).2.2 .receiver
      | receiveTest x hheld hx => cases hown
      | receive l x hl hx =>
        cases receives_inside hl hx with
        | arrives d hpc | looks k hpc => exact hpc
        | _ => cases hown
      | _ => rfl
    exact congrArg ReceiveSession.stepsLeft hpc

theorem holder_ranks (v : PeerThread τ) (m : PeerMutex) :
    Ranks (within (PeerLocks.step L address) fun s => s.owner m = some v)
      (fun s => Holding s ∧ s.owner m = some v) (ofThread v) (fun s => s.stepsLeft v) where
  keeps h hs := by
    obtain ⟨hs, howner⟩ := within_eq_some.mp hs
    exact ⟨h.1.step hs, howner⟩
  lowers h hown hs := by
    obtain ⟨hs, howner⟩ := within_eq_some.mp hs
    exact h.1.lowers h.2 howner hown hs
  others _ hown hs := Nat.le_of_eq (stepsLeft_of_others hown (within_eq_some.mp hs).1)

theorem Holding.waitsEnd (h : Holding s) : WaitsEnd L address s := by
  intro u v m hwants howner
  have hheld := (h.owner v m).mp howner
  refine ⟨?_, h.goes_on address hheld, fun ls t hrun hthroughout => ?_⟩
  · unfold wants
    rw [if_neg (by simp [hheld])]
  · have hcount := (holder_ranks v m).count ⟨h, howner⟩ (run_within hthroughout hrun)
    have hmost := stepsLeft_le s v
    omega

/-- **No wait is for more than one section**, in every state of every run. -/
theorem waits_end (L : Libraries) (address : Address) (ls : List (PeerLabel τ L.arrow.Table)) :
    Throughout (PeerLocks.step L address) (WaitsEnd L address) {} ls :=
  (Along.of_forall (fun _ _ => trivial) _ ls).throughout (I := Holding) (fun h => h.waitsEnd)
    (fun h (_ : True) hs => h.step hs) .init

/-- `sendPacket` waits while `sendSession` waits for an acknowledgement. -/
example : ∃ s : PeerLocks (Fin 2) Reference.libraries.arrow.Table,
    run (PeerLocks.step Reference.libraries ⟨.quad 10 0 0 1, 9000⟩) {}
      [.call 0 (.sendPacket ⟨⟨.quad 10 0 0 2, 9001⟩,
          { id := 5, payload := .ls { directory := [0x2F] } }⟩),
        .lock (.caller 0), .method 0, .lock .sender, .send .loopTest, .lock .sender,
        .send (.take (some 4000)), .send .sendto, .call 1 (.sendPacket ⟨⟨.quad 10 0 0 2, 9001⟩, {}⟩)] =
          some s ∧ s.wants (.caller 1) = some .send ∧ s.owner .send = some .sender := by
  refine ⟨_, rfl, ?_, ?_⟩
  · decide
  · decide

end PeerLocks
end Ttp2
