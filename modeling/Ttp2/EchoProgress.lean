import Ttp2.SessionProgress
import Ttp2.OversizedPayloads

/-! # No state of the echo service is a dead end

From every state of a run over a cooperating connection the threads can go on
until nothing is on its way any more, whatever state they are in, without the
client pushing anything; and then the client has popped the answer to every
request that can be answered (`echo_can_finish`). -/
namespace Ttp2
open Lib Octets Framing Lts Reach Connection TwosComplement Der Asn1Helpers

namespace EchoService
variable {L : Libraries} {clientSocket serverSocket : Int} {s t : EchoService L.arrow.Table}
  {l : EchoLabel L.arrow.Table}

/-- Both ends behave as over an open connection whose bytes arrive in portions. -/
def Cooperative {T : Type} (clientSocket serverSocket : Int) (s : EchoService T) :
    EchoLabel T → Prop
  | .client l =>
    SessionController.Cooperates clientSocket s.connection.server s.connection.client l
  | .server l =>
    SessionController.Cooperates serverSocket s.connection.client s.connection.server l
  | .manager => True

instance {T : Type} (clientSocket serverSocket : Int) (s : EchoService T) :
    (l : EchoLabel T) → Decidable (Cooperative clientSocket serverSocket s l)
  | .client l => inferInstanceAs (Decidable (SessionController.Cooperates clientSocket
      s.connection.server s.connection.client l))
  | .server l => inferInstanceAs (Decidable (SessionController.Cooperates serverSocket
      s.connection.client s.connection.server l))
  | .manager => inferInstanceAs (Decidable True)

theorem Cooperative.reliable (h : Cooperative clientSocket serverSocket s l) : Reliable s l := by
  cases l with
  | client l => exact h.steady
  | server l => exact h.steady
  | manager => trivial

/-- Every thread of the service is somewhere in its loop. -/
structure Working (L : Libraries) (clientSocket serverSocket : Int)
    (s : EchoService L.arrow.Table) : Prop where
  echoes : PacedEchoes L clientSocket serverSocket s
  client : SessionController.Working L clientSocket s.connection.client
  server : SessionController.Working L serverSocket s.connection.server
  ready : Ready s
  manager : s.manager ≠ .terminated

theorem Working.init : Working L clientSocket serverSocket {} where
  echoes := ⟨.init, rfl, rfl⟩
  client := .init
  server := .init
  ready := ⟨(fun h => nomatch h), (fun h => nomatch h)⟩
  manager := fun h => nomatch h

theorem Working.paced (h : Working L clientSocket serverSocket s)
    (hok : Cooperative clientSocket serverSocket s l) : Paced clientSocket serverSocket s l := by
  cases l with
  | client l => exact ⟨hok.isOpen, h.client.singleFrame⟩
  | server l => exact ⟨hok.isOpen, h.server.singleFrame⟩
  | manager => trivial

/-- The manager leaves its loop only when the session is disconnected. -/
theorem manager_of_step (hconnected : s.connection.server.net.connected = true)
    (hm : s.manager ≠ .terminated) (hs : step L clientSocket serverSocket s l = some t) :
    t.manager ≠ .terminated := by
  cases l with
  | client l =>
    obtain ⟨connection, -, rfl⟩ := Option.map_eq_some_iff.mp hs
    exact hm
  | server l =>
    simp only [step] at hs
    split at hs
    · cases hs
    · obtain ⟨connection, -, rfl⟩ := Option.map_eq_some_iff.mp hs
      exact hm
  | manager =>
    simp only [step] at hs
    split at hs
    · rw [if_pos hconnected] at hs
      cases hs
      simp
    · cases hs
      dsimp only
      split <;> simp
    · split at hs
      · obtain ⟨m, -, rfl⟩ := Option.map_eq_some_iff.mp hs
        simp
      · split at hs
        · cases hs
        · cases hs
    · obtain ⟨m, -, rfl⟩ := Option.map_eq_some_iff.mp hs
      simp
    · cases hs
    · cases hs

theorem Working.step (h : Working L clientSocket serverSocket s)
    (hok : Cooperative clientSocket serverSocket s l)
    (hs : EchoService.step L clientSocket serverSocket s l = some t) :
    Working L clientSocket serverSocket t where
  echoes := h.echoes.step hok.reliable (h.paced hok) hs
  client := by
    cases moves_of_step hs with
    | client l client hclient => exact h.client.step hok hclient
    | _ => exact h.client
  server := by
    cases moves_of_step hs with
    | server l server huser hserver => exact h.server.step hok hserver
    | popRequest packet server hm hserver hpopped hsubmitted =>
      have hpop : SessionController.Cooperates serverSocket s.connection.client
          s.connection.server .pop := ⟨trivial, trivial, trivial, trivial⟩
      exact h.server.step hpop hserver
    | pushResponse packet server hm hserver hpopped hsubmitted =>
      have hpush : SessionController.Cooperates serverSocket s.connection.client
          s.connection.server (.push packet) := ⟨trivial, trivial, trivial, trivial⟩
      exact h.server.step hpush hserver
    | _ => exact h.server
  ready := h.ready.step hs
  manager := manager_of_step h.server.connected h.manager hs

/-- What the service can become. -/
abbrev Goes (L : Libraries) (clientSocket serverSocket : Int) :
    EchoService L.arrow.Table → EchoService L.arrow.Table → Prop :=
  Reaches (EchoService.step L clientSocket serverSocket) (Cooperative clientSocket serverSocket)

theorem Working.goes (h : Working L clientSocket serverSocket s)
    (hst : Goes L clientSocket serverSocket s t) : Working L clientSocket serverSocket t :=
  hst.invariant (fun h hok hs => h.step hok hs) h

/-! ## One side moves -/

theorem goes_client (s : EchoService L.arrow.Table) {client : SessionController L.arrow.Table}
    (h : Reaches (SessionController.step L .client clientSocket)
      (SessionController.Cooperates clientSocket s.connection.server) s.connection.client client) :
    Goes L clientSocket serverSocket s { s with connection := { s.connection with client } } := by
  refine h.lift (fun client => { s with connection := { s.connection with client } })
    EchoLabel.client ?_
  intro c l d hok hs
  refine ⟨hok, ?_⟩
  simp only [step, connectionStep, Connection.step, hs, Option.map_some]

theorem goes_server (s : EchoService L.arrow.Table) {server : SessionController L.arrow.Table}
    (h : SessionController.Goes L .server serverSocket s.connection.client s.connection.server
      server) :
    Goes L clientSocket serverSocket s { s with connection := { s.connection with server } } := by
  refine h.lift (fun server => { s with connection := { s.connection with server } })
    EchoLabel.server ?_
  rintro c l d ⟨hok, huser⟩ hs
  refine ⟨hok, ?_⟩
  simp only [step, huser, Bool.false_eq_true, if_false, connectionStep, Connection.step, hs,
    Option.map_some]

/-! ## The manager -/

/-- How far the manager is from its next `popRequest`. -/
def managerDistance {T : Type} : ManagerPc T → Nat
  | .pushResponse _ => 4
  | .loopTest => 3
  | .hasRequest => 2
  | .popRequest => 1
  | .terminated | .undefined => 0

def managerRank {T : Type} (s : EchoService T) : Nat :=
  4 * s.connection.server.net.requestQueue.length + managerDistance s.manager

/-- Every request in the queue was pushed back. -/
def EchoedAll {T : Type} (s : EchoService T) : Prop :=
  s.connection.server.net.requestQueue = [] ∧ s.manager.held = []

/-- What the manager leaves alone. -/
structure SameThreads (s t : EchoService L.arrow.Table) : Prop where
  client : t.connection.client = s.connection.client
  receiver : t.connection.server.receiver = s.connection.server.receiver
  kernel : t.connection.server.kernel = s.connection.server.kernel
  arrived : t.connection.server.arrived = s.connection.server.arrived
  sender : t.connection.server.sender = s.connection.server.sender

theorem SameThreads.refl (s : EchoService L.arrow.Table) : SameThreads s s :=
  ⟨rfl, rfl, rfl, rfl, rfl⟩

theorem SameThreads.trans {m : EchoService L.arrow.Table} (h : SameThreads s m)
    (h' : SameThreads m t) : SameThreads s t :=
  ⟨h'.client.trans h.client, h'.receiver.trans h.receiver, h'.kernel.trans h.kernel,
    h'.arrived.trans h.arrived, h'.sender.trans h.sender⟩

/-- The next step of the manager, while the send thread does not hold the queue. -/
theorem Working.managerNext (h : Working L clientSocket serverSocket s)
    (hfree : s.connection.server.sendLocked = false) (hgoal : ¬ EchoedAll s) :
    ∃ t, EchoService.step L clientSocket serverSocket s .manager = some t ∧ SameThreads s t ∧
      managerRank t < managerRank s := by
  cases hm : s.manager with
  | loopTest =>
    refine ⟨{ s with manager := .hasRequest }, ?_, ⟨rfl, rfl, rfl, rfl, rfl⟩, ?_⟩
    · simp only [EchoService.step, hm, h.server.connected, if_true]
    · rw [managerRank, managerRank, hm]
      exact Nat.lt_succ_self _
  | hasRequest =>
    cases hq : s.connection.server.net.requestQueue with
    | nil => exact absurd ⟨hq, by rw [hm]; rfl⟩ hgoal
    | cons packet rest =>
      refine ⟨{ s with manager := .popRequest }, ?_, ⟨rfl, rfl, rfl, rfl, rfl⟩, ?_⟩
      · simp [EchoService.step, hm, hq]
      · rw [managerRank, managerRank, hm]
        exact Nat.lt_succ_self _
  | popRequest =>
    obtain ⟨packet, rest, hq⟩ := List.exists_cons_of_ne_nil (h.ready.2 hm)
    have hpop : s.connection.server.net.pop .request =
        some (packet, s.connection.server.net.setQueue .request rest) := by
      rw [TcpNetworking.pop, TcpNetworking.queue, hq]
    refine ⟨{ connection := { s.connection with server := { s.connection.server with
        net := s.connection.server.net.setQueue .request rest
        popped := s.connection.server.popped ++ [packet] } }, manager := .pushResponse packet }, ?_,
      ⟨rfl, rfl, rfl, rfl, rfl⟩, ?_⟩
    · simp [EchoService.step, hm, hpop, connectionStep, Connection.step, SessionController.step,
        Role.receives]
    · rw [managerRank, managerRank, hm, hq]
      simp only [TcpNetworking.setQueue, managerDistance, List.length_cons]
      omega
  | pushResponse packet =>
    refine ⟨{ connection := { s.connection with server := { s.connection.server with
        net := s.connection.server.net.push .response packet
        submitted := s.connection.server.submitted ++ [packet] } }, manager := .loopTest }, ?_,
      ⟨rfl, rfl, rfl, rfl, rfl⟩, ?_⟩
    · simp [EchoService.step, hm, connectionStep, Connection.step, SessionController.step, hfree,
        Role.sends]
    · rw [managerRank, managerRank, hm]
      exact Nat.lt_succ_self _
  | terminated => exact absurd hm h.manager
  | undefined => exact absurd hm h.ready.1

/-- **The manager can push back every request that was delivered.** -/
theorem Working.manager_drains (h : Working L clientSocket serverSocket s)
    (hfree : s.connection.server.sendLocked = false) :
    ∃ t, Goes L clientSocket serverSocket s t ∧ SameThreads s t ∧ EchoedAll t := by
  have hprogress : ∀ t, Working L clientSocket serverSocket t ∧ SameThreads s t → ¬ EchoedAll t →
      ∃ m, Goes L clientSocket serverSocket t m ∧
        (Working L clientSocket serverSocket m ∧ SameThreads s m) ∧
          managerRank m < managerRank t := by
    intro t ⟨hw, hsame⟩ hgoal
    have hfree' : t.connection.server.sendLocked = false := by
      rw [SessionController.sendLocked, hsame.sender]
      exact hfree
    obtain ⟨m, hs, hsame', hlt⟩ := hw.managerNext hfree' hgoal
    exact ⟨m, .single (l := .manager) trivial hs,
      ⟨hw.step (l := .manager) trivial hs, hsame.trans hsame'⟩, hlt⟩
  obtain ⟨t, ht, ⟨-, hsame⟩, hall⟩ := Reaches.of_rank managerRank hprogress s ⟨h, .refl s⟩
  exact ⟨t, ht, hsame, hall⟩

/-! ## From one side to the other -/

theorem Working.requests_arrive (h : Working L clientSocket serverSocket s)
    (hlong : NeverTooLong L s.connection.client.submitted) :
    ∃ t, Goes L clientSocket serverSocket s t ∧
      SessionController.SentAll .client t.connection.client ∧
      SessionController.ReceivedAll t.connection.client t.connection.server ∧
      t.connection.client.submitted = s.connection.client.submitted := by
  obtain ⟨client, hclient, hsame, hsent⟩ := SessionController.drain_sends
    s.connection.server h.client h.echoes.echoes.joined.requests.sent hlong
  have hgo : Goes L clientSocket serverSocket s _ :=
    goes_client s (hclient.mono fun hok => hok.1)
  have hw := h.goes hgo
  obtain ⟨server, hserver, -, hreceived⟩ := SessionController.drain_receives client
    hw.server hw.echoes.server hw.echoes.echoes.joined.requests.arrived
  exact ⟨_, hgo.trans (goes_server _ hserver), hsent, hreceived, hsame.submitted⟩

/-- Everything the manager pushed was popped before. -/
theorem Working.answers_fit (h : Working L clientSocket serverSocket s) (hdoc : L.Documented)
    (hsized : AllSized L s.connection.client.submitted)
    (hlong : NeverTooLong L (arrivals L s.connection.client.submitted)) :
    NeverTooLong L s.connection.server.submitted :=
  fun packet hp => hlong packet ((h.echoes.echoes.submitted_arrivals hdoc hsized).subset hp)

theorem Working.answers_sent (h : Working L clientSocket serverSocket s) (hdoc : L.Documented)
    (hsized : AllSized L s.connection.client.submitted)
    (hlong : NeverTooLong L (arrivals L s.connection.client.submitted)) :
    ∃ t, Goes L clientSocket serverSocket s t ∧ t.connection.client = s.connection.client ∧
      t.connection.server.receiver = s.connection.server.receiver ∧
      t.connection.server.kernel = s.connection.server.kernel ∧
      t.connection.server.arrived = s.connection.server.arrived ∧
      SessionController.SentAll .server t.connection.server ∧ EchoedAll t := by
  -- the send thread lets go of its queue, the manager fills it, the send thread empties it
  obtain ⟨free, hfree, hsameFree, hsentFree⟩ := SessionController.drain_sends
    s.connection.client h.server h.echoes.echoes.joined.responses.sent
    (h.answers_fit hdoc hsized hlong)
  have hgoFree : Goes L clientSocket serverSocket s _ := goes_server s hfree
  have hwFree := h.goes hgoFree
  obtain ⟨m, hm, hsame, hechoed⟩ :=
    hwFree.manager_drains (SessionController.sendLocked_of_unsent hsentFree.2)
  have hwm := hwFree.goes hm
  have hclient : m.connection.client = s.connection.client := hsame.client
  obtain ⟨server, hserver, hsameServer, hsent⟩ := SessionController.drain_sends
    m.connection.client hwm.server hwm.echoes.echoes.joined.responses.sent
    (hwm.answers_fit hdoc (hclient ▸ hsized) (hclient ▸ hlong))
  refine ⟨_, (hgoFree.trans hm).trans (goes_server m hserver), hclient, ?_, ?_, ?_, hsent, ?_, ?_⟩
  · exact hsameServer.receiver.trans (hsame.receiver.trans hsameFree.receiver)
  · exact hsameServer.kernel.trans (hsame.kernel.trans hsameFree.kernel)
  · exact hsameServer.arrived.trans (hsame.arrived.trans hsameFree.arrived)
  · exact hsameServer.queue.trans hechoed.1
  · exact hechoed.2

theorem Working.responses_arrive (h : Working L clientSocket serverSocket s) :
    ∃ t, Goes L clientSocket serverSocket s t ∧ t.connection.server = s.connection.server ∧
      t.manager = s.manager ∧
      SessionController.SameSending .client s.connection.client t.connection.client ∧
      SessionController.ReceivedAll t.connection.server t.connection.client ∧
      t.connection.client.net.responseQueue = [] := by
  obtain ⟨read, hread, hsameRead, hreceived⟩ := SessionController.drain_receives
    s.connection.server h.client h.echoes.client
    h.echoes.echoes.joined.responses.arrived
  obtain ⟨client, hclient, hsame, hreceiver, hkernel, harrived, hempty⟩ :=
    SessionController.drain_pops .client clientSocket s.connection.server read
  have hgo : Goes L clientSocket serverSocket s _ := goes_client s
    ((hread.mono fun hok => hok.1).trans hclient)
  exact ⟨_, hgo, rfl, rfl, hsameRead.trans hsame, ⟨hreceiver.trans hreceived.waiting,
    hkernel.trans hreceived.kernel, harrived.trans hreceived.arrived⟩, hempty⟩

/-- **The service can come to rest** without another request. -/
theorem Working.rests (h : Working L clientSocket serverSocket s) (hdoc : L.Documented)
    (hsized : AllSized L s.connection.client.submitted)
    (hlong : NeverTooLong L s.connection.client.submitted)
    (hanswers : NeverTooLong L (arrivals L s.connection.client.submitted)) :
    ∃ t, Goes L clientSocket serverSocket s t ∧ AtRest t ∧
      t.connection.client.submitted = s.connection.client.submitted := by
  obtain ⟨a, ha, hsentA, hreceivedA, hsubmitted⟩ := h.requests_arrive hlong
  have hwa := h.goes ha
  obtain ⟨b, hb, hclient, hreceiver, hkernel, harrived, hsentB, hechoed⟩ :=
    hwa.answers_sent hdoc (hsubmitted ▸ hsized) (hsubmitted ▸ hanswers)
  have hwb := hwa.goes hb
  obtain ⟨c, hc, hserver, hmanager, hsame, hreceivedC, hempty⟩ := hwb.responses_arrive
  refine ⟨c, (ha.trans hb).trans hc, ⟨⟨?_, ?_, ?_, ?_, ?_, ?_⟩, ⟨?_, ?_, ?_, ?_, ?_, ?_⟩, ?_⟩, ?_⟩
  -- the requests
  · rw [hsame.queue, hclient, hsentA.1]
  · rw [hsame.sender, hclient, hsentA.2]
  · rw [hserver, harrived, hreceivedA.arrived, hsame.wire, hclient]
  · rw [hserver, hkernel, hreceivedA.kernel]
  · rw [hserver, hreceiver, hreceivedA.waiting]
  · rw [hserver]
    exact hechoed.1
  -- the responses
  · rw [hserver, hsentB.1]
  · rw [hserver, hsentB.2]
  · exact hreceivedC.arrived
  · exact hreceivedC.kernel
  · exact hreceivedC.waiting
  · exact hempty
  -- the manager, and what was pushed
  · rw [hmanager, hechoed.2]
  · rw [hsame.submitted, hclient, hsubmitted]

/-- **No state is a dead end**: over a cooperating connection every run can be
continued, without another request, to a state where the client has popped the
answer to every request that can be answered. -/
theorem echo_can_finish (L : Libraries) (hdoc : L.Documented) (clientSocket serverSocket : Int)
    (ls : List (EchoLabel L.arrow.Table)) (s : EchoService L.arrow.Table)
    (hcoop : Along (EchoService.step L clientSocket serverSocket)
      (Cooperative clientSocket serverSocket) {} ls)
    (hrun : run (EchoService.step L clientSocket serverSocket) {} ls = some s)
    (hsized : AllSized L s.connection.client.submitted)
    (hlong : NeverTooLong L s.connection.client.submitted)
    (hanswers : NeverTooLong L (arrivals L s.connection.client.submitted)) :
    ∃ ls' t, run (EchoService.step L clientSocket serverSocket) s ls' = some t ∧
      Along (EchoService.step L clientSocket serverSocket)
        (Cooperative clientSocket serverSocket) s ls' ∧
      t.connection.client.submitted = s.connection.client.submitted ∧ AtRest t ∧
      t.connection.client.popped = answers L s.connection.client.submitted := by
  have hw : Working L clientSocket serverSocket s :=
    Working.init.goes (reaches_iff.mpr ⟨ls, hrun, hcoop⟩)
  obtain ⟨t, ht, hrest, hsubmitted⟩ := hw.rests hdoc hsized hlong hanswers
  have hcomplete := (hw.goes ht).echoes.complete hdoc (hsubmitted.symm ▸ hsized) hrest
  obtain ⟨ls', hrun', halong⟩ := reaches_iff.mp ht
  exact ⟨ls', t, hrun', halong, hsubmitted, hrest, hsubmitted ▸ hcomplete⟩

/-- The request for `/` can be encoded under every id. -/
theorem encode_slash (id : Int32) (e : Exception) :
    Encode.encode Reference.libraries (.ls { directory := [0x2F] }) id ≠ .error e := by
  intro he
  have hframe : keptFrame id "ls" [("payload.ls.directory", keptString Reference.asn1 [0x2F])] =
      some (tlv 0x30 (tlv 2 (intOctets id.toInt) ++ [0xA7, 5, 0x30, 3, 4, 1, 0x2F])) := rfl
  have hwrites : componentWrites Reference.libraries.arrow (.ls { directory := [0x2F] }) =
      .ok [.string "payload.ls.directory" [0x2F]] := rfl
  have hfits : (ComponentWrite.string "payload.ls.directory" [0x2F]).Fits "ls" := rfl
  have hlong := (encode_error_iff Reference.libraries_documented Reference.asn1_precise id
    (by simp) hwrites rfl rfl (List.forall_mem_singleton.mpr hfits)
    (List.forall_mem_singleton.mpr trivial)).mp ⟨e, he⟩ _ hframe
  have hid := octetCount_int32 id
  have hint : (tlv 2 (intOctets id.toInt)).length = octetCount id.toInt + 2 := by
    rw [length_tlv_short _ _ (by rw [length_intOctets]; omega), length_intOctets]
  have hlength : (tlv 2 (intOctets id.toInt) ++ [0xA7, 5, 0x30, 3, 4, 1, 0x2F]).length ≤ 13 := by
    rw [List.length_append, hint]
    simp only [List.length_cons, List.length_nil]
    omega
  rw [length_tlv_short _ _ (by omega)] at hlong
  omega

/-- The manager holds the request when the rest of the run begins. -/
theorem echo_can_finish_popped :
    ∃ s, run (EchoService.step Reference.libraries 3 7) {}
        ((echoedOnce [0x2F] slashFrame).take 18) = some s ∧ s.manager.held ≠ [] ∧
      ∃ ls' t, run (EchoService.step Reference.libraries 3 7) s ls' = some t ∧
        Along (EchoService.step Reference.libraries 3 7) (Cooperative 3 7) s ls' ∧
        t.connection.client.submitted = s.connection.client.submitted ∧ AtRest t ∧
        t.connection.client.popped = answers Reference.libraries s.connection.client.submitted := by
  obtain ⟨s, hrun, hheld, hsubmitted, harrivals⟩ : ∃ s,
      run (EchoService.step Reference.libraries 3 7) {}
        ((echoedOnce [0x2F] slashFrame).take 18) = some s ∧ s.manager.held ≠ [] ∧
      s.connection.client.submitted = [{ id := -1, payload := .ls { directory := [0x2F] } }] ∧
      arrivals Reference.libraries s.connection.client.submitted =
        [{ id := 0, payload := .ls { directory := [0x2F] } }] :=
    ⟨_, rfl, List.cons_ne_nil _ _, rfl, rfl⟩
  refine ⟨s, hrun, hheld, ?_⟩
  refine echo_can_finish Reference.libraries Reference.libraries_documented 3 7
    ((echoedOnce [0x2F] slashFrame).take 18) s (by decide) hrun ?_ ?_ ?_
  · rw [hsubmitted]
    exact List.forall_mem_singleton.mpr (by decide : 1 < 2 ^ 31)
  · rw [hsubmitted]
    exact List.forall_mem_singleton.mpr fun id => encode_slash id _
  · rw [harrivals]
    exact List.forall_mem_singleton.mpr fun id => encode_slash id _

end EchoService
end Ttp2
