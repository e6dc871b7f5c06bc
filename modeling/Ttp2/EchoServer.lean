import Ttp2.EchoService
import Ttp2.DescriptorUse
import Ttp2.Lib.Handles

/-! # The echo server and its clients (`main` of `test/server/main.cpp`)

`main` accepts connections for ever and starts a `clientManager` on each. The
sessions are separate objects; what they share is the descriptor table of the
process, where a number that one of them closed is the next one `accept4`
returns. A session that calls or closes once more then works on the connection
of another client (`isolated_iff`). While every session calls only before its
close, each client is served as if it were alone (`clients_served`). -/
namespace Ttp2
open Lib Octets Lts Handles

/-! ## What a session does with its descriptor -/

inductive SocketUse where
  | recv
  /-- the bytes the call accepted -/
  | send (out : Bytes)
  | close
  deriving DecidableEq

def SocketUse.closes : SocketUse → Bool
  | .close => true
  | _ => false

def SocketUse.sent : SocketUse → Bytes
  | .send out => out
  | _ => []

namespace SessionController
variable {T : Type}

/-- The calls a step makes, in order. -/
def uses (s : SessionController T) : SessionLabel T → List SocketUse
  | .recv .closed => [.recv, .close]
  | .recv _ => [.recv]
  | .send result =>
    match s.sender with
    | .sending sending => [.send (((sending.send result).map Prod.fst).getD [])]
    | _ => []
  | .epollWait (.event _ true) | .hangUpDisconnect | .disconnect => [.close]
  | _ => []

variable {L : Libraries} {role : Role} {socket : Int} {s t : SessionController L.arrow.Table}
  {l : SessionLabel L.arrow.Table}

/-- What a step is for the descriptor. -/
inductive Spends (s : SessionController T) (l : SessionLabel T) (t : SessionController T) : Prop where
  | nothing (huses : s.uses l = []) (husable : t.Usable ↔ s.Usable) (hwire : t.wire = s.wire)
  | one (u : SocketUse) (huses : s.uses l = [u]) (hopen : u.closes = false)
      (husable : t.Usable ↔ s.Usable) (hwire : t.wire = s.wire ++ u.sent)
  | closes (first : List SocketUse) (huses : s.uses l = first ++ [.close])
      (hfirst : ∀ u ∈ first, u.closes = false ∧ u.sent = []) (husable : ¬ t.Usable)
      (hwire : t.wire = s.wire)

theorem spends_of_step (hs : step L role socket s l = some t) : Spends s l t := by
  cases moves_of_step hs with
  | hangUp readable hr => exact .closes [] rfl nofun (fun hu => Bool.noConfusion hu.2) rfl
  | hangUpDisconnect hr => exact .closes [] rfl nofun (fun hu => Bool.false_ne_true hu.1) rfl
  | disconnect => exact .closes [] rfl nofun (fun hu => Bool.false_ne_true hu.1) rfl
  | recvBytes temp hr => exact .one .recv rfl rfl .rfl (List.append_nil _).symm
  | recvAgain hr => exact .one .recv rfl rfl .rfl (List.append_nil _).symm
  | recvError hr => exact .one .recv rfl rfl .rfl (List.append_nil _).symm
  | recvClosed hr =>
    refine .closes [.recv] rfl ?_ (fun hu => Bool.false_ne_true hu.1) rfl
    intro u hu
    rw [List.mem_singleton.mp hu]
    exact ⟨rfl, rfl⟩
  | send result sending out next hsnd hsend =>
    refine .one (.send out) ?_ rfl .rfl rfl
    simp only [uses, hsnd, hsend, Option.map_some, Option.getD_some]
  | deliver packet hr hid => exact .nothing rfl (usable_setQueue s _ _) rfl
  | take packet rest hsnd hq => exact .nothing rfl (usable_setQueue s _ _) rfl
  | push packet => exact .nothing rfl (usable_setQueue s _ _) rfl
  | pop packet rest hq => exact .nothing rfl (usable_setQueue s _ _) rfl
  | _ => exact .nothing rfl .rfl rfl

/-- A step that leaves the calls as they are uses nothing. -/
theorem Moves.uses_eq_nil (hs : Moves L role socket s l t) (hcalls : t.calls = s.calls) :
    s.uses l = [] := by
  cases hs with
  | hangUp => simp [SessionController.hangUp] at hcalls
  | hangUpDisconnect => simp [SessionController.disconnect] at hcalls
  | disconnect => simp [SessionController.disconnect] at hcalls
  | recvBytes => simp at hcalls
  | recvAgain => simp at hcalls
  | recvError => simp at hcalls
  | recvClosed => simp at hcalls
  | send => simp at hcalls
  | _ => rfl

/-- A step that uses nothing makes no call. -/
theorem Moves.keeps_of_uses (hs : Moves L role socket s l t) (huses : s.uses l = []) :
    t.calls = s.calls ∧ (t.Usable ↔ s.Usable) ∧ (s.inCall = true → t.inCall = true) := by
  rcases hs.calls with ⟨cs, c, hcalls⟩ | hkeeps
  · cases hs with
    | send result sending out next hsnd hsend =>
      simp only [uses, hsnd] at huses
      cases huses
    | hangUp => cases huses
    | hangUpDisconnect => cases huses
    | disconnect => cases huses
    | recvBytes => cases huses
    | recvAgain => cases huses
    | recvError => cases huses
    | recvClosed => cases huses
    | _ => simp at hcalls
  · exact hkeeps

end SessionController

/-! ## One connection of the server -/

namespace EchoService

/-- The calls on the descriptor of the server's side; the client is another process. -/
def uses {T : Type} (s : EchoService T) : EchoLabel T → List SocketUse
  | .server l => if l.byUser then [] else s.connection.server.uses l
  | _ => []

/-- The descriptor of the server's side has not been closed. -/
def Usable {T : Type} (s : EchoService T) : Prop := s.connection.server.Usable

instance {T : Type} (s : EchoService T) : Decidable s.Usable :=
  inferInstanceAs (Decidable s.connection.server.Usable)

variable {L : Libraries} {clientSocket serverSocket : Int} {s t : EchoService L.arrow.Table}
  {l : EchoLabel L.arrow.Table}

/-- What a step of the service is for the descriptor. -/
inductive Spends {T : Type} (s : EchoService T) (l : EchoLabel T) (t : EchoService T) : Prop where
  | nothing (huses : s.uses l = []) (husable : t.Usable ↔ s.Usable)
      (hwire : t.connection.server.wire = s.connection.server.wire)
  | one (u : SocketUse) (huses : s.uses l = [u]) (hopen : u.closes = false)
      (husable : t.Usable ↔ s.Usable)
      (hwire : t.connection.server.wire = s.connection.server.wire ++ u.sent)
  | closes (first : List SocketUse) (huses : s.uses l = first ++ [.close])
      (hfirst : ∀ u ∈ first, u.closes = false ∧ u.sent = []) (husable : ¬ t.Usable)
      (hwire : t.connection.server.wire = s.connection.server.wire)

/-- Closes apart from all calls, on the server's side. -/
def ClosesApart (L : Libraries) (s : EchoService L.arrow.Table) : EchoLabel L.arrow.Table → Prop
  | .server l => SessionController.ClosesApart L .server s.connection.server l
  | _ => True

instance (s : EchoService L.arrow.Table) :
    (l : EchoLabel L.arrow.Table) → Decidable (ClosesApart L s l)
  | .server l => inferInstanceAs
    (Decidable (SessionController.ClosesApart L .server s.connection.server l))
  | .client _ | .manager => inferInstanceAs (Decidable True)

/-- The server's session is left alone, or makes a step of its own. -/
theorem server_step (hs : step L clientSocket serverSocket s l = some t) :
    (t.connection.server = s.connection.server ∧ s.uses l = [] ∧ ClosesApart L s l) ∨
      ∃ l', SessionController.step L .server serverSocket s.connection.server l' =
          some t.connection.server ∧ s.uses l = s.connection.server.uses l' ∧
        (ClosesApart L s l ↔
          SessionController.ClosesApart L .server s.connection.server l') := by
  cases moves_of_step hs with
  | client l client hclient => exact .inl ⟨rfl, rfl, trivial⟩
  | test manager hheld hheld' hdefined hpop => exact .inl ⟨rfl, rfl, trivial⟩
  | undefined hm hempty => exact .inl ⟨rfl, rfl, trivial⟩
  | server l server huser hserver =>
    refine .inr ⟨l, hserver, ?_, .rfl⟩
    rw [uses, huser]
    rfl
  | popRequest packet server hm hserver hpopped hsubmitted => exact .inr ⟨.pop, hserver, rfl, .rfl⟩
  | pushResponse packet server hm hserver hpopped hsubmitted =>
    exact .inr ⟨.push packet, hserver, rfl, .rfl⟩

theorem spends_of_step (hs : step L clientSocket serverSocket s l = some t) : Spends s l t := by
  rcases server_step hs with ⟨hsame, huses, -⟩ | ⟨l', hserver, huses, -⟩
  · refine .nothing huses ?_ (congrArg _ hsame)
    rw [Usable, Usable, hsame]
  · cases SessionController.spends_of_step hserver with
    | nothing h husable hwire => exact .nothing (huses.trans h) husable hwire
    | one u h hopen husable hwire => exact .one u (huses.trans h) hopen husable hwire
    | closes first h hfirst husable hwire => exact .closes first (huses.trans h) hfirst husable hwire

/-- What holds while the closes stay apart from the calls holds on. -/
theorem descriptor_step (h : SessionController.DescriptorInvariant s.connection.server)
    (hok : ClosesApart L s l) (hs : step L clientSocket serverSocket s l = some t) :
    SessionController.DescriptorInvariant t.connection.server ∧ (s.uses l ≠ [] → s.Usable) := by
  rcases server_step hs with ⟨hsame, huses, -⟩ | ⟨l', hserver, huses, happly⟩
  · rw [hsame]
    exact ⟨h, fun hne => absurd huses hne⟩
  · have hmoves := SessionController.moves_of_step hserver
    refine ⟨h.step (happly.mp hok) hmoves, fun hne => ?_⟩
    refine h.call_usable (happly.mp hok) hmoves fun hsame => hne ?_
    rw [huses]
    exact hmoves.uses_eq_nil hsame

/-- A step that misses the condition without a call on a closed descriptor
leaves it closed with a thread on its way into a call. -/
theorem sets_out (hbad : ¬ ClosesApart L s l) (hopen : s.uses l ≠ [] → s.Usable)
    (hs : step L clientSocket serverSocket s l = some t) :
    ¬ t.Usable ∧ t.connection.server.inCall = true := by
  rcases server_step hs with ⟨-, -, hok⟩ | ⟨l', hserver, huses, happly⟩
  · exact absurd hok hbad
  · have hmoves := SessionController.moves_of_step hserver
    rcases hmoves.not_apart (mt happly.mpr hbad) with ⟨hclosed, cs, c, hcalls⟩ | hafter
    · refine absurd (hopen fun hnil => ?_) hclosed
      rw [huses] at hnil
      rw [(hmoves.keeps_of_uses hnil).1] at hcalls
      simp at hcalls
    · exact hafter

/-- It stays so until that thread's call. -/
theorem stays_out (hclosed : ¬ s.Usable) (hin : s.connection.server.inCall = true)
    (hopen : s.uses l ≠ [] → s.Usable) (hs : step L clientSocket serverSocket s l = some t) :
    ¬ t.Usable ∧ t.connection.server.inCall = true := by
  have hnil : s.uses l = [] := by
    by_contra hne
    exact hclosed (hopen hne)
  rcases server_step hs with ⟨hsame, -, -⟩ | ⟨l', hserver, huses, -⟩
  · rw [Usable, hsame]
    exact ⟨hclosed, hin⟩
  · have hkeeps := (SessionController.moves_of_step hserver).keeps_of_uses (huses.symm.trans hnil)
    exact ⟨mt hkeeps.2.1.mp hclosed, hkeeps.2.2 hin⟩

end EchoService

/-! ## The server -/

/-- `clientManager` on a descriptor, with the client at the other end. -/
def clientManager (L : Libraries) (clientSocket : Int) :
    Kind (EchoService L.arrow.Table) (EchoLabel L.arrow.Table) SocketUse where
  init := {}
  step n s l := EchoService.step L clientSocket n s l
  uses s l := s.uses l
  closes := SocketUse.closes

/-- The process: its descriptors and a session for each accepted connection. -/
abbrev EchoServer (ι T : Type) := Shared ι (EchoService T) SocketUse

abbrev ServerLabel (ι T : Type) := Label ι (EchoLabel T)

namespace EchoServer
variable {ι : Type} [DecidableEq ι] {L : Libraries} {clientSocket : Int}
  {s t : EchoServer ι L.arrow.Table} {l : ServerLabel ι L.arrow.Table}

/-- The loop of `main`, `accept4` with the number it returns, and every session. -/
abbrev step (L : Libraries) (clientSocket : Int) :
    EchoServer ι L.arrow.Table → ServerLabel ι L.arrow.Table → Option (EchoServer ι L.arrow.Table) :=
  (clientManager L clientSocket).sharedStep

theorem disciplined : (clientManager L clientSocket).Disciplined EchoService.Usable where
  init := ⟨rfl, rfl⟩
  quiet := by
    intro n p q l hs huses
    change p.uses l = [] at huses
    cases EchoService.spends_of_step hs with
    | nothing h husable hwire => exact husable
    | one u h hopen husable hwire => exact husable
    | closes first h hfirst husable hwire =>
      rw [h] at huses
      exact absurd huses (by simp)
  last := by
    intro n p q l first use hs huses hopen
    change p.uses l = first ++ [use] at huses
    cases EchoService.spends_of_step hs with
    | nothing h husable hwire =>
      rw [h] at huses
      exact absurd huses.symm (by simp)
    | one u h hu husable hwire =>
      rw [h] at huses
      rw [← List.nil_append [u]] at huses
      obtain ⟨rfl, hlast⟩ := List.append_inj' huses rfl
      cases hlast
      refine ⟨nofun, ?_⟩
      show SocketUse.closes _ = true ↔ _
      rw [hu]
      exact ⟨nofun, fun hq => absurd (husable.mpr hopen) hq⟩
    | closes first' h hfirst husable hwire =>
      rw [h] at huses
      obtain ⟨rfl, hlast⟩ := List.append_inj' huses rfl
      cases hlast
      exact ⟨fun u hu => (hfirst u hu).1, fun _ => husable, fun _ => rfl⟩
  closed := by
    intro n p q l hs hclosed
    cases EchoService.spends_of_step hs with
    | nothing h husable hwire => exact mt husable.mp hclosed
    | one u h hopen husable hwire => exact mt husable.mp hclosed
    | closes first h hfirst husable hwire => exact husable

theorem totals : (clientManager L clientSocket).Totals SocketUse.sent
    (fun p => p.connection.server.wire) where
  init := rfl
  step := by
    intro n p q l hs
    show _ = _ ++ (p.uses l).flatMap SocketUse.sent
    cases EchoService.spends_of_step hs with
    | nothing h husable hwire =>
      rw [h, hwire]
      exact (List.append_nil _).symm
    | one u h hopen husable hwire =>
      rw [h, hwire]
      exact congrArg _ (List.append_nil _).symm
    | closes first h hfirst husable hwire =>
      have hnone : (first ++ [SocketUse.close]).flatMap SocketUse.sent = [] := by
        refine List.flatMap_eq_nil_iff.mpr fun u hu => ?_
        rcases List.mem_append.mp hu with hu | hu
        · exact (hfirst u hu).2
        · rw [List.mem_singleton.mp hu]
          rfl
      rw [h, hwire, hnone, List.append_nil]

instance (s : EchoServer ι L.arrow.Table) : (l : ServerLabel ι L.arrow.Table) →
    Decidable ((clientManager L clientSocket).UsesOpen EchoService.Usable s l)
  | .part k l =>
    inferInstanceAs (Decidable (∀ r ∈ s.parts k, EchoService.uses r.2 l ≠ [] → r.2.Usable))
  | .start _ _ | .reserve _ => inferInstanceAs (Decidable True)

/-- Every session closes its descriptor apart from its calls. -/
def ClosesApart (L : Libraries) (s : EchoServer ι L.arrow.Table) :
    ServerLabel ι L.arrow.Table → Prop
  | .part k l => ∀ r ∈ s.parts k, EchoService.ClosesApart L r.2 l
  | _ => True

instance (s : EchoServer ι L.arrow.Table) :
    (l : ServerLabel ι L.arrow.Table) → Decidable (ClosesApart L s l)
  | .part _ _ => Option.decidableForallMem _
  | .start _ _ | .reserve _ => inferInstanceAs (Decidable True)

/-- Some session's descriptor is closed, with a thread on its way into a call. -/
def SetsOut (s : EchoServer ι L.arrow.Table) : Prop :=
  ∃ k n p, s.parts k = some (n, p) ∧ ¬ p.Usable ∧ p.connection.server.inCall = true

theorem SetsOut.step (h : s.SetsOut)
    (hopen : (clientManager L clientSocket).UsesOpen EchoService.Usable s l)
    (hs : step L clientSocket s l = some t) : t.SetsOut := by
  obtain ⟨k, n, p, hk, hclosed, hin⟩ := h
  rcases parts_of_step hs k with hsame | ⟨n', p', q, l', rfl, hk', hq, hk''⟩
  · exact ⟨k, n, p, (hsame (by rw [hk]; rfl)).trans hk, hclosed, hin⟩
  · cases hk.symm.trans hk'
    exact ⟨k, n, q, hk'', EchoService.stays_out hclosed hin (hopen _ hk) hq⟩

theorem setsOut_of_not_apart (hbad : ¬ ClosesApart L s l)
    (hopen : (clientManager L clientSocket).UsesOpen EchoService.Usable s l)
    (hs : step L clientSocket s l = some t) : t.SetsOut := by
  cases l with
  | part k l =>
    obtain ⟨n, p, q, hk, hq, rfl⟩ := part_step hs
    simp only [ClosesApart, hk, Option.mem_some_iff, forall_eq'] at hbad
    exact ⟨k, n, q, Function.update_self .., EchoService.sets_out hbad (hopen _ hk) hq⟩
  | _ => exact absurd trivial hbad

/-- A client asks and closes its connection; the next client gets the same
descriptor number while the answer is being sent. -/
def descriptorReused (directory frame : Bytes) :
    List (ServerLabel (Bool) Reference.libraries.arrow.Table) :=
  [.start false 5] ++ ([.client (.push { id := -1, payload := .ls { directory } }),
    .client .sendTest, .client .take, .client (.send (.accepted 4)),
    .client (.send (.accepted (frame.length - 4))),
    .server .loopTest, .server (.arrive frame), .server (.epollWait (.event true false)),
    .server .recvTest, .server (.recv (.bytes frame)), .server .recvTest, .server (.recv .again),
    .server .cutFrame, .server .dispatch, .manager, .manager, .manager, .manager,
    .server .sendTest, .server .take, .server .loopTest, .server (.epollWait (.event true false)),
    .server .recvTest, .server (.recv .closed)] : List (EchoLabel _)).map (.part false) ++
  [.start true 5, .part false (.server (.send (.accepted 4))),
    .part false (.server (.send (.accepted (frame.length - 4))))] ++
  ([.client .loopTest, .client (.arrive frame), .client (.epollWait (.event true false)),
    .client .recvTest, .client (.recv (.bytes frame)), .client .recvTest, .client (.recv .again),
    .client .cutFrame, .client .dispatch, .client .pop] : List (EchoLabel _)).map (.part true)

/-- A connection stays open and delivers in order: to the client what reached
its connection, whoever sent it, and to a session what its client sent, where
the session's calls reach its own connection. -/
def Delivers {T : Type} (s : EchoServer ι T) : ServerLabel ι T → Prop
  | .part k (.client l) => ∀ r ∈ s.parts k,
    Connection.Steady { r.2.connection.server with wire := received SocketUse.sent k s.uses }
      r.2.connection.client l
  | .part k (.server l) => ∀ r ∈ s.parts k,
    r.2.uses (.server l) = [] ∨ s.owner r.1 = some (.part k) →
      Connection.Steady r.2.connection.client r.2.connection.server l
  | _ => True

instance {T : Type} (s : EchoServer ι T) : (l : ServerLabel ι T) → Decidable (Delivers s l)
  | .part _ (.client _) | .part _ (.server _) => Option.decidableForallMem _
  | .part _ .manager | .start _ _ | .reserve _ => inferInstanceAs (Decidable True)

/-- What holds of the server while its sessions call before their close. -/
structure Serves (L : Libraries) (clientSocket : Int) (s : EchoServer ι L.arrow.Table) : Prop where
  tallied : Tallied EchoService.Usable SocketUse.sent (fun p => p.connection.server.wire) s
  echoes : Each (fun n p => EchoService.Echoes L clientSocket n p) s

omit [DecidableEq ι] in
theorem steady_of_wire {peer peer' side : SessionController L.arrow.Table}
    {l : SessionLabel L.arrow.Table} (h : Connection.Steady peer' side l)
    (hwire : peer'.wire = peer.wire) : Connection.Steady peer side l := by
  cases l with
  | arrive bytes =>
    change _ <+: peer.wire
    rw [← hwire]
    exact h
  | recv answer => cases answer <;> exact h
  | epollWait result => cases result <;> exact h
  | send result => cases result <;> exact h
  | _ => trivial

theorem Serves.step (h : Serves L clientSocket s) (hdel : Delivers s l)
    (hopen : (clientManager L clientSocket).UsesOpen EchoService.Usable s l)
    (hs : step L clientSocket s l = some t) : Serves L clientSocket t := by
  refine ⟨h.tallied.step disciplined totals hopen hs, ?_⟩
  refine h.echoes.step (fun n => .init) ?_ hs
  rintro k n p q l' rfl hk hq hechoes
  refine EchoService.Echoes.step hechoes ?_ hq
  cases l' with
  | client l' => exact steady_of_wire (hdel _ hk) (h.tallied.received_eq hk)
  | server l' =>
    refine hdel _ hk ?_
    by_cases huses : p.uses (.server l') = []
    · exact .inl huses
    · exact .inr ((h.tallied.part hk).mpr (hopen _ hk huses))
  | manager => trivial

/-- **Each client is served as if it were alone**: while every call of a
session comes before its close, each client has popped the first answers to
its own requests, whatever the other clients do. -/
theorem clients_served (L : Libraries) (hdoc : L.Documented) (clientSocket : Int)
    (ls : List (ServerLabel ι L.arrow.Table))
    (hdel : Along (step L clientSocket) Delivers {} ls)
    (hopen : Along (step L clientSocket)
      ((clientManager L clientSocket).UsesOpen EchoService.Usable) {} ls) :
    Throughout (step L clientSocket) (Each fun _ p => EchoService.Answered L p) {} ls := by
  refine (hdel.and hopen).throughout (I := Serves L clientSocket) ?_
    (fun h hok hs => h.step hok.1 hok.2 hs) ⟨.init, fun _ _ _ h => nomatch h⟩
  intro s h k n p hk
  exact (h.echoes k n p hk).answered hdoc

set_option maxRecDepth 4000 in
/-- Two clients, served one after the other. -/
theorem clients_served_two :
    Throughout (step (ι := Bool) Reference.libraries 3)
      (Each fun _ p => EchoService.Answered Reference.libraries p) {}
      ([.start false 5, .start true 6] ++
        (EchoService.echoedOnce [0x2F] EchoService.slashFrame).map (.part false) ++
        (EchoService.echoedOnce [0x2F] EchoService.slashFrame).map (.part true)) :=
  clients_served Reference.libraries Reference.libraries_documented 3 _ (by decide) (by decide)

set_option maxRecDepth 4000 in
/-- `Delivers` alone is not enough: where the first session goes on after its
close, the second client, which has pushed nothing, pops a packet. -/
example :
    Along (step (ι := Bool) Reference.libraries 3) Delivers {}
        (descriptorReused [0x2F] EchoService.slashFrame) ∧
      ∃ s n p, run (step Reference.libraries 3) {}
          (descriptorReused [0x2F] EchoService.slashFrame) = some s ∧
        s.parts true = some (n, p) ∧ p.connection.client.submitted = [] ∧
        p.connection.client.popped = [{ id := 0, payload := .ls { directory := [0x2F] } }] :=
  ⟨by decide, _, _, _, rfl, rfl, rfl, rfl⟩

end EchoServer
end Ttp2
