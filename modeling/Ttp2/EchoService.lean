import Ttp2.FifoChannel
import Ttp2.FrameStranding
import Ttp2.EchoStability

/-! # The echo service (`test/server/main.cpp`)

`clientManager` runs a server session and pushes every request it pops as a
response. Over a connection that stays open, a client pops the answers to its
requests in the order of the requests, each the request as it came over the
wire (`echo_answers`); under automatic ids a response names the request it
answers (`echo_correlates`); and when nothing is on its way any more, every
request that can be answered is (`echo_completes`). -/
namespace Ttp2
open Lib Octets Framing Lts Encode Decode

/-! ## What arrives of packets sent in a row -/

/-- `encode` accepts the payload under this id. -/
def Encodes (L : Libraries) (payload : Packet.PayloadVariants L.arrow.Table) (id : Int32) : Bool :=
  (encode L payload id).isOk

/-- The packets `encode` accepts, in order, in wire form: each under its own
id, or under the next automatic one where that is -1. -/
def arrivalsFrom (L : Libraries) : Int32 → List (Packet L.arrow.Table) →
    List (Packet L.arrow.Table)
  | _, [] => []
  | autoId, packet :: packets =>
    let (id, autoId) := assignId autoId packet.id
    if Encodes L packet.payload id then wire { packet with id } :: arrivalsFrom L autoId packets
    else arrivalsFrom L autoId packets

def arrivals (L : Libraries) (packets : List (Packet L.arrow.Table)) :
    List (Packet L.arrow.Table) :=
  arrivalsFrom L 0 packets

/-- What comes back of what arrives: the packets `encode` accepts once more. -/
def answers (L : Libraries) (requests : List (Packet L.arrow.Table)) :
    List (Packet L.arrow.Table) :=
  (arrivals L requests).filter fun q => Encodes L q.payload q.id

/-- No string, list, byte vector or serialised table in them is longer than an `int`. -/
def AllSized (L : Libraries) (packets : List (Packet L.arrow.Table)) : Prop :=
  ∀ packet ∈ packets, packet.payload.Sized L

variable {L : Libraries} {packets : List (Packet L.arrow.Table)} {autoId : Int32}

theorem carriedFrom_eq_arrivals (h : L.Documented) (hs : AllSized L packets) :
    carriedFrom L autoId packets = (arrivalsFrom L autoId packets).map .ok := by
  induction packets generalizing autoId with
  | nil => rfl
  | cons packet packets ih =>
    have ih := @ih (assignId autoId packet.id).2 fun p hp => hs p (List.mem_cons_of_mem _ hp)
    have hsized : packet.payload.Sized L := hs packet List.mem_cons_self
    cases he : encode L packet.payload (assignId autoId packet.id).1 with
    | ok buffer =>
      have hd := decode_encode h { packet with id := (assignId autoId packet.id).1 } hsized he
      simp only [carriedFrom, arrivalsFrom, Encodes, he, Except.isOk, Except.toBool, if_true,
        List.map_cons]
      rw [hd, ih]
    | error e =>
      simp only [carriedFrom, arrivalsFrom, Encodes, he, Except.isOk, Except.toBool,
        Bool.false_eq_true, if_false]
      exact ih

theorem carried_eq_arrivals (h : L.Documented) (hs : AllSized L packets) :
    carried L packets = (arrivals L packets).map .ok :=
  carriedFrom_eq_arrivals h hs

/-- What arrives is in wire form. -/
theorem mem_arrivalsFrom {q : Packet L.arrow.Table} (hq : q ∈ arrivalsFrom L autoId packets) :
    ∃ packet ∈ packets, ∃ id, q = wire { packet with id } := by
  induction packets generalizing autoId with
  | nil => cases hq
  | cons packet packets ih =>
    simp only [arrivalsFrom] at hq
    split at hq
    · rcases List.mem_cons.mp hq with rfl | hq
      · exact ⟨packet, List.mem_cons_self, _, rfl⟩
      · obtain ⟨p, hp, id, rfl⟩ := ih hq
        exact ⟨p, List.mem_cons_of_mem _ hp, id, rfl⟩
    · obtain ⟨p, hp, id, rfl⟩ := ih hq
      exact ⟨p, List.mem_cons_of_mem _ hp, id, rfl⟩

theorem arrivals_sized (hs : AllSized L packets) : AllSized L (arrivals L packets) := by
  intro q hq
  obtain ⟨packet, hp, id, rfl⟩ := mem_arrivalsFrom hq
  exact (hs packet hp).wire

/-- Packets in wire form arrive as they are. -/
theorem arrivalsFrom_of_wire (hwire : ∀ p ∈ packets, wire p = p) :
    arrivalsFrom L autoId packets = packets.filter fun q => Encodes L q.payload q.id := by
  induction packets generalizing autoId with
  | nil => rfl
  | cons packet packets ih =>
    have hp := hwire packet List.mem_cons_self
    have hid : packet.id ≠ -1 := by
      rw [← hp]
      exact wireInt_ne_sentinel packet.id
    have ih := @ih autoId fun p h => hwire p (List.mem_cons_of_mem _ h)
    rw [List.filter_cons, ← ih]
    simp only [arrivalsFrom, assignId, if_neg hid, hp]

/-- The echo of what arrives are the answers. -/
theorem arrivals_arrivals : arrivals L (arrivals L packets) = answers L packets := by
  refine arrivalsFrom_of_wire fun q hq => ?_
  obtain ⟨packet, -, id, rfl⟩ := mem_arrivalsFrom hq
  exact wire_wire _

theorem arrivalsFrom_append (ps qs : List (Packet L.arrow.Table)) :
    arrivalsFrom L autoId ps <+: arrivalsFrom L autoId (ps ++ qs) := by
  induction ps generalizing autoId with
  | nil => exact List.nil_prefix
  | cons p ps ih =>
    simp only [List.cons_append, arrivalsFrom]
    split
    · exact List.cons_prefix_cons.mpr ⟨rfl, ih⟩
    · exact ih

theorem arrivals_prefix {ps qs : List (Packet L.arrow.Table)} (h : ps <+: qs) :
    arrivals L ps <+: arrivals L qs := by
  obtain ⟨rest, rfl⟩ := h
  exact arrivalsFrom_append ps rest

/-! ## A stream of sized packets -/

namespace Connection
variable {senderRole receiverRole : Role} {socket : Int}
  {sender receiver : SessionController L.arrow.Table}

/-- The bodies of the stream bring what arrives. -/
theorem packetsOf_encodings (h : L.Documented) (hs : AllSized L packets) :
    SessionController.packetsOf L (encodings L packets).1 = arrivals L packets := by
  have hcarried := carried_eq_arrivals h hs
  rw [carried_eq] at hcarried
  have hmap : (encodings L packets).1.map (TcpNetworking.decodeOrEmpty L) = arrivals L packets := by
    have hdecode : ∀ body, TcpNetworking.decodeOrEmpty L body =
        (decode L body).toOption.getD {} := by
      intro body
      unfold TcpNetworking.decodeOrEmpty
      cases decode L body <;> rfl
    have hok := congrArg (List.map fun r => r.toOption.getD {}) hcarried
    rw [List.map_map, List.map_map] at hok
    rw [List.map_congr_left fun body _ => hdecode body]
    exact hok.trans (List.map_id _)
  rw [SessionController.packetsOf, hmap]
  refine List.filter_eq_self.mpr fun q hq => ?_
  obtain ⟨packet, -, id, rfl⟩ := mem_arrivalsFrom hq
  exact decide_eq_true (wireInt_ne_sentinel id)

theorem packetsOf_prefix {bodies bodies' : List Bytes} (h : bodies <+: bodies') :
    SessionController.packetsOf L bodies <+: SessionController.packetsOf L bodies' :=
  (h.map _).filter _

/-- What was popped, what waits in the queue and what is on its way there are
the first of what arrives. -/
theorem Stream.received_arrivals (h : Stream L senderRole receiverRole socket sender receiver)
    (hdoc : L.Documented) (hs : AllSized L sender.submitted) :
    receiver.popped ++ receiver.net.queue receiverRole.receives ++
      SessionController.pending receiver.receiver <+: arrivals L sender.submitted := by
  rw [← h.received.queue, h.received.delivered, ← packetsOf_encodings hdoc hs]
  exact packetsOf_prefix (h.decoded_first hdoc)

theorem Stream.popped_arrivals (h : Stream L senderRole receiverRole socket sender receiver)
    (hdoc : L.Documented) (hs : AllSized L sender.submitted) :
    receiver.popped <+: arrivals L sender.submitted := by
  have hall := h.received_arrivals hdoc hs
  rw [List.append_assoc] at hall
  exact (List.prefix_append _ _).trans hall

/-- Nothing is on its way from one side to the other. -/
structure Idle (senderRole receiverRole : Role)
    (sender receiver : SessionController L.arrow.Table) : Prop where
  taken : sender.net.queue senderRole.sends = []
  sent : SessionController.unsent sender.sender = []
  arrived : receiver.arrived = sender.wire
  read : receiver.kernel = []
  waiting : receiver.receiver = .waiting
  popped : receiver.net.queue receiverRole.receives = []

/-- **An idle stream has delivered everything.** -/
theorem Stream.popped_of_idle (h : Stream L senderRole receiverRole socket sender receiver)
    (hidle : Idle senderRole receiverRole sender receiver)
    (hcut : takeFrame (receiver.buffer socket) = none) (hdoc : L.Documented)
    (hs : AllSized L sender.submitted) : receiver.popped = arrivals L sender.submitted := by
  have htaken : sender.submitted = sender.taken := by
    rw [h.sent.queue, hidle.taken, List.append_nil]
  have hfits : Fits (encodings L sender.taken).1 := by
    intro body hb
    obtain ⟨payload, id, he⟩ := mem_encodings hb
    exact length_encode hdoc he
  have hwire := h.sent.wire
  rw [hidle.sent, List.append_nil] at hwire
  have hbytes := h.received.bytes h.up
  rw [hidle.read, List.append_nil, hidle.arrived, hwire] at hbytes
  have hdecoded : receiver.decoded = (encodings L sender.taken).1 :=
    (frames_unique h.received.fits hfits hcut takeFrame_nil
      (hbytes.symm.trans (List.append_nil _).symm)).1
  have hqueue := h.received.queue
  rw [hidle.popped, List.append_nil] at hqueue
  have hdelivered := h.received.delivered
  rw [hidle.waiting, hqueue, hdecoded, ← htaken, packetsOf_encodings hdoc hs] at hdelivered
  exact (List.append_nil _).symm.trans hdelivered

end Connection

/-! ## The manager of a client -/

/-- Where `clientManager` is. -/
inductive ManagerPc (T : Type) where
  /-- at `while (serverSessionController->isConnected())` -/
  | loopTest
  /-- at `if (serverSessionController->hasRequest())` -/
  | hasRequest
  /-- in `popRequest` -/
  | popRequest
  /-- in `pushResponse` -/
  | pushResponse (packet : Packet T)
  | terminated
  /-- element 0 of an empty queue was read -/
  | undefined

/-- The packet the manager holds. -/
def ManagerPc.held {T : Type} : ManagerPc T → List (Packet T)
  | .pushResponse packet => [packet]
  | _ => []

structure EchoService (T : Type) where
  connection : Connection T := {}
  manager : ManagerPc T := .loopTest

/-- The manager is the one user of the server session: its queues are pushed
to and popped by nobody else, and nobody disconnects it from outside. -/
def SessionLabel.byUser {T : Type} : SessionLabel T → Bool
  | .push _ | .pop | .disconnect => true
  | _ => false

inductive EchoLabel (T : Type) where
  | client (l : SessionLabel T)
  | server (l : SessionLabel T)
  | manager

namespace EchoService
open Connection

def connectionStep (L : Libraries) (clientSocket serverSocket : Int) (s : EchoService L.arrow.Table)
    (l : ConnectionLabel L.arrow.Table) : Option (EchoService L.arrow.Table) :=
  (Connection.step L clientSocket serverSocket s.connection l).map fun connection =>
    { s with connection }

def step (L : Libraries) (clientSocket serverSocket : Int) (s : EchoService L.arrow.Table) :
    EchoLabel L.arrow.Table → Option (EchoService L.arrow.Table)
  | .client l => s.connectionStep L clientSocket serverSocket (.client l)
  | .server l =>
    if l.byUser then none else s.connectionStep L clientSocket serverSocket (.server l)
  | .manager =>
    let net := s.connection.server.net
    match s.manager with
    | .loopTest => some { s with manager := if net.connected then .hasRequest else .terminated }
    | .hasRequest =>
      some { s with manager := if !net.requestQueue.isEmpty then .popRequest else .loopTest }
    | .popRequest =>
      match net.pop .request with
      | some (packet, _) =>
        (s.connectionStep L clientSocket serverSocket (.server .pop)).map fun s =>
          { s with manager := .pushResponse packet }
      | none => if net.connected then none else some { s with manager := .undefined }
    | .pushResponse packet =>
      (s.connectionStep L clientSocket serverSocket (.server (.push packet))).map fun s =>
        { s with manager := .loopTest }
    | .terminated | .undefined => none

/-- What a step of the service can be. -/
inductive Moves (L : Libraries) (clientSocket serverSocket : Int) (s : EchoService L.arrow.Table) :
    EchoLabel L.arrow.Table → EchoService L.arrow.Table → Prop where
  | client (l : SessionLabel L.arrow.Table) (client : SessionController L.arrow.Table)
      (hs : SessionController.step L .client clientSocket s.connection.client l = some client) :
      Moves L clientSocket serverSocket s (.client l)
        { s with connection := { s.connection with client } }
  | server (l : SessionLabel L.arrow.Table) (server : SessionController L.arrow.Table)
      (huser : l.byUser = false)
      (hs : SessionController.step L .server serverSocket s.connection.server l = some server) :
      Moves L clientSocket serverSocket s (.server l)
        { s with connection := { s.connection with server } }
  | test (manager : ManagerPc L.arrow.Table) (hheld : s.manager.held = [])
      (hheld' : manager.held = []) (hdefined : manager ≠ .undefined)
      (hpop : manager = .popRequest → s.connection.server.net.requestQueue ≠ []) :
      Moves L clientSocket serverSocket s .manager { s with manager }
  | undefined (hm : s.manager = .popRequest) (hempty : s.connection.server.net.requestQueue = []) :
      Moves L clientSocket serverSocket s .manager { s with manager := .undefined }
  | popRequest (packet : Packet L.arrow.Table) (server : SessionController L.arrow.Table)
      (hm : s.manager = .popRequest)
      (hs : SessionController.step L .server serverSocket s.connection.server .pop = some server)
      (hpopped : server.popped = s.connection.server.popped ++ [packet])
      (hsubmitted : server.submitted = s.connection.server.submitted) :
      Moves L clientSocket serverSocket s .manager
        { connection := { s.connection with server }, manager := .pushResponse packet }
  | pushResponse (packet : Packet L.arrow.Table) (server : SessionController L.arrow.Table)
      (hm : s.manager = .pushResponse packet)
      (hs : SessionController.step L .server serverSocket s.connection.server (.push packet) =
        some server)
      (hpopped : server.popped = s.connection.server.popped)
      (hsubmitted : server.submitted = s.connection.server.submitted ++ [packet]) :
      Moves L clientSocket serverSocket s .manager
        { connection := { s.connection with server }, manager := .loopTest }

variable {clientSocket serverSocket : Int} {s t : EchoService L.arrow.Table}
  {l : EchoLabel L.arrow.Table}

theorem connectionStep_server {l : SessionLabel L.arrow.Table}
    (h : s.connectionStep L clientSocket serverSocket (.server l) = some t) :
    ∃ server, SessionController.step L .server serverSocket s.connection.server l = some server ∧
      t = { s with connection := { s.connection with server } } := by
  obtain ⟨connection, hc, rfl⟩ := Option.map_eq_some_iff.mp h
  obtain ⟨server, hs, rfl⟩ := Option.map_eq_some_iff.mp hc
  exact ⟨server, hs, rfl⟩

theorem moves_of_step (h : step L clientSocket serverSocket s l = some t) :
    Moves L clientSocket serverSocket s l t := by
  cases l with
  | client l =>
    obtain ⟨connection, hc, rfl⟩ := Option.map_eq_some_iff.mp h
    obtain ⟨client, hs, rfl⟩ := Option.map_eq_some_iff.mp hc
    exact .client l client hs
  | server l =>
    simp only [step] at h
    split at h
    · cases h
    · rename_i huser
      obtain ⟨server, hs, rfl⟩ := connectionStep_server h
      exact .server l server (Bool.eq_false_of_not_eq_true huser) hs
  | manager =>
    simp only [step] at h
    split at h
    · rename_i hm
      cases h
      refine .test _ (by rw [hm]; rfl) ?_ ?_ ?_
      · split <;> rfl
      · split <;> simp
      · split <;> simp
    · rename_i hm
      cases h
      refine .test _ (by rw [hm]; rfl) ?_ ?_ ?_
      · split <;> rfl
      · split <;> simp
      · split
        · rename_i hqueue
          intro _ he
          rw [he] at hqueue
          cases hqueue
        · simp
    · rename_i hm
      split at h
      · rename_i packet net hpop
        obtain ⟨u, hu, rfl⟩ := Option.map_eq_some_iff.mp h
        obtain ⟨server, hs, rfl⟩ := connectionStep_server hu
        have hserver := hs
        simp only [SessionController.step, Role.receives, hpop, Option.map_some] at hserver
        cases hserver
        exact .popRequest packet _ hm hs rfl rfl
      · rename_i hpop
        split at h
        · cases h
        · cases h
          refine .undefined hm ?_
          unfold TcpNetworking.pop at hpop
          split at hpop
          · assumption
          · cases hpop
    · rename_i packet hm
      obtain ⟨u, hu, rfl⟩ := Option.map_eq_some_iff.mp h
      obtain ⟨server, hs, rfl⟩ := connectionStep_server hu
      have hserver := hs
      simp only [SessionController.step] at hserver
      split at hserver
      · cases hserver
      · cases hserver
        exact .pushResponse packet _ hm hs rfl rfl
    · cases h
    · cases h

/-! ## The manager never reads an empty queue -/

/-- The network and the receive thread only add requests. -/
theorem requests_grow {role : Role} {socket : Int} {c d : SessionController L.arrow.Table}
    {l : SessionLabel L.arrow.Table} (huser : l.byUser = false)
    (hs : SessionController.step L role socket c l = some d) :
    c.net.queue role.receives <+: d.net.queue role.receives := by
  have hne := role.sends_ne_receives
  cases SessionController.moves_of_step hs with
  | deliver packet hr hid =>
    show _ <+: (c.net.push role.receives packet).queue role.receives
    rw [TcpNetworking.push, TcpNetworking.queue_setQueue]
    exact List.prefix_append _ _
  | take packet rest hsnd hq =>
    have hsame : TcpNetworking.queue { c.net.setQueue role.sends rest with
        autoId := (assignId c.net.autoId packet.id).2 } role.receives =
          c.net.queue role.receives := by
      cases role <;> rfl
    rw [hsame]
  | push | pop | disconnect => cases huser
  | _ => cases role <;> exact List.prefix_refl _

/-- In `popRequest` the manager finds the request it saw. -/
def Ready (s : EchoService L.arrow.Table) : Prop :=
  s.manager ≠ .undefined ∧
    (s.manager = .popRequest → s.connection.server.net.requestQueue ≠ [])

theorem Ready.step (h : Ready s) (hs : step L clientSocket serverSocket s l = some t) :
    Ready t := by
  cases moves_of_step hs with
  | client l client hclient => exact h
  | server l server huser hserver =>
    refine ⟨h.1, fun hm hempty => h.2 hm ?_⟩
    have hgrow : s.connection.server.net.requestQueue <+: server.net.requestQueue :=
      requests_grow huser hserver
    rw [show server.net.requestQueue = [] from hempty] at hgrow
    exact List.prefix_nil.mp hgrow
  | test manager hheld hheld' hdefined hpop => exact ⟨hdefined, hpop⟩
  | undefined hm hempty => exact absurd hempty (h.2 hm)
  | popRequest packet server hm hserver hpopped hsubmitted => exact ⟨by simp, by simp⟩
  | pushResponse packet server hm hserver hpopped hsubmitted => exact ⟨by simp, by simp⟩

/-- **`popRequest` neither waits nor reads an empty queue** in the manager, in
whatever environment. -/
theorem manager_finds_requests (L : Libraries) (clientSocket serverSocket : Int)
    (ls : List (EchoLabel L.arrow.Table)) :
    Throughout (step L clientSocket serverSocket) Ready {} ls :=
  (Along.of_forall (fun _ _ => trivial) _ ls).throughout (I := Ready) id
    (fun h (_ : True) hs => h.step hs) ⟨by simp, by simp⟩

/-! ## The answers -/

/-- Both ends behave as over a connection that stays open. -/
def Reliable {T : Type} (s : EchoService T) : EchoLabel T → Prop
  | .client l => Steady s.connection.server s.connection.client l
  | .server l => Steady s.connection.client s.connection.server l
  | .manager => True

instance {T : Type} (s : EchoService T) : (l : EchoLabel T) → Decidable (Reliable s l)
  | .client l => inferInstanceAs (Decidable (Steady s.connection.server s.connection.client l))
  | .server l => inferInstanceAs (Decidable (Steady s.connection.client s.connection.server l))
  | .manager => inferInstanceAs (Decidable True)

theorem popped_submitted_of_not_user {role : Role} {socket : Int}
    {c d : SessionController L.arrow.Table} {l : SessionLabel L.arrow.Table}
    (huser : l.byUser = false) (hs : SessionController.step L role socket c l = some d) :
    d.popped = c.popped ∧ d.submitted = c.submitted := by
  cases SessionController.moves_of_step hs with
  | push | pop | disconnect => cases huser
  | _ => exact ⟨rfl, rfl⟩

/-- What the manager popped it pushed back, or holds. -/
structure Echoes (L : Libraries) (clientSocket serverSocket : Int)
    (s : EchoService L.arrow.Table) : Prop where
  joined : Joined L clientSocket serverSocket s.connection
  echo : s.connection.server.popped = s.connection.server.submitted ++ s.manager.held

theorem Echoes.init : Echoes L clientSocket serverSocket {} :=
  ⟨⟨.init, .init⟩, rfl⟩

theorem Echoes.step (h : Echoes L clientSocket serverSocket s) (hok : Reliable s l)
    (hs : step L clientSocket serverSocket s l = some t) :
    Echoes L clientSocket serverSocket t := by
  have hserverStep : ∀ {k : SessionLabel L.arrow.Table} {server : SessionController L.arrow.Table},
      Steady s.connection.client s.connection.server k →
        SessionController.step L .server serverSocket s.connection.server k = some server →
          Joined L clientSocket serverSocket { s.connection with server } := by
    intro k server hk hserver
    exact ⟨h.joined.requests.receiverStep hk hserver, h.joined.responses.senderStep hk hserver⟩
  cases moves_of_step hs with
  | client l client hclient =>
    exact ⟨⟨h.joined.requests.senderStep hok hclient, h.joined.responses.receiverStep hok hclient⟩,
      h.echo⟩
  | server l server huser hserver =>
    obtain ⟨hpopped, hsubmitted⟩ := popped_submitted_of_not_user huser hserver
    refine ⟨hserverStep hok hserver, ?_⟩
    show server.popped = server.submitted ++ _
    rw [hpopped, hsubmitted, h.echo]
  | test manager hheld hheld' hdefined hpop =>
    refine ⟨h.joined, ?_⟩
    show _ = _ ++ manager.held
    rw [h.echo, hheld, hheld']
  | undefined hm hempty =>
    refine ⟨h.joined, ?_⟩
    show _ = _ ++ []
    rw [h.echo, hm]
    rfl
  | popRequest packet server hm hserver hpopped hsubmitted =>
    refine ⟨hserverStep (k := .pop) trivial hserver, ?_⟩
    show server.popped = server.submitted ++ [packet]
    rw [hpopped, hsubmitted, h.echo, hm]
    exact congrArg (· ++ [packet]) (List.append_nil _)
  | pushResponse packet server hm hserver hpopped hsubmitted =>
    refine ⟨hserverStep (k := .push packet) trivial hserver, ?_⟩
    show server.popped = server.submitted ++ []
    rw [hpopped, hsubmitted, h.echo, hm, List.append_nil]
    rfl

/-- What the client popped are the first of the answers to what it pushed. -/
def Answered (L : Libraries) (s : EchoService L.arrow.Table) : Prop :=
  AllSized L s.connection.client.submitted →
    s.connection.client.popped <+: answers L s.connection.client.submitted

theorem Echoes.submitted_arrivals (h : Echoes L clientSocket serverSocket s) (hdoc : L.Documented)
    (hs : AllSized L s.connection.client.submitted) :
    s.connection.server.submitted <+: arrivals L s.connection.client.submitted := by
  have hpopped := h.joined.requests.popped_arrivals hdoc hs
  rw [h.echo] at hpopped
  exact (List.prefix_append _ _).trans hpopped

theorem Echoes.submitted_sized (h : Echoes L clientSocket serverSocket s) (hdoc : L.Documented)
    (hs : AllSized L s.connection.client.submitted) :
    AllSized L s.connection.server.submitted :=
  fun q hq => arrivals_sized hs q ((h.submitted_arrivals hdoc hs).subset hq)

theorem Echoes.answered (h : Echoes L clientSocket serverSocket s) (hdoc : L.Documented) :
    Answered L s := by
  intro hs
  calc s.connection.client.popped
    _ <+: arrivals L s.connection.server.submitted :=
      h.joined.responses.popped_arrivals hdoc (h.submitted_sized hdoc hs)
    _ <+: arrivals L (arrivals L s.connection.client.submitted) :=
      arrivals_prefix (h.submitted_arrivals hdoc hs)
    _ = answers L s.connection.client.submitted := arrivals_arrivals

/-- **The service echoes**: in every state of every run over a reliable
connection the client has popped the first answers to its requests. -/
theorem echo_answers (L : Libraries) (h : L.Documented) (clientSocket serverSocket : Int)
    (ls : List (EchoLabel L.arrow.Table))
    (hrel : Along (step L clientSocket serverSocket) Reliable {} ls) :
    Throughout (step L clientSocket serverSocket) (Answered L) {} ls :=
  hrel.throughout (I := Echoes L clientSocket serverSocket) (fun he => he.answered h)
    (fun he hok hs => he.step hok hs) .init

/-- A request for the directory under an automatic id, and its echo. -/
def echoedOnce (directory frame : Bytes) : List (EchoLabel Reference.libraries.arrow.Table) :=
  [.client (.push { id := -1, payload := .ls { directory } }), .client .sendTest, .client .take,
    .client (.send (.accepted 4)), .client (.send (.accepted (frame.length - 4))),
    .server .loopTest, .server (.arrive frame), .server (.epollWait (.event true false)),
    .server .recvTest, .server (.recv (.bytes frame)), .server .recvTest, .server (.recv .again),
    .server .cutFrame, .server .dispatch, .server .loopTest,
    .manager, .manager, .manager, .manager,
    .server .sendTest, .server .take, .server (.send (.accepted 4)),
    .server (.send (.accepted (frame.length - 4))),
    .client .loopTest, .client (.arrive frame), .client (.epollWait (.event true false)),
    .client .recvTest, .client (.recv (.bytes frame)), .client .recvTest, .client (.recv .again),
    .client .cutFrame, .client .dispatch, .client .loopTest, .client .pop]

def slashFrame : Bytes := [0, 0, 0, 0x0C, 0x30, 0x0A, 0x02, 0x01, 0, 0xA7, 5, 0x30, 3, 4, 1, 0x2F]

theorem echo_answers_once :
    Throughout (step Reference.libraries 3 7) (Answered Reference.libraries) {}
      (echoedOnce [0x2F] slashFrame) :=
  echo_answers Reference.libraries Reference.libraries_documented 3 7 _ (by decide)

/-! ## Automatic ids tell which request a response answers -/

/-- Under automatic ids the packet at an index gets the index as its id. -/
theorem arrivalsFrom_automatic {k : Nat} (hauto : ∀ p ∈ packets, p.id = -1) :
    arrivalsFrom L (.ofNat k) packets =
      ((packets.zipIdx k).filter fun (p, i) => Encodes L p.payload (.ofNat i)).map
        fun (p, i) => wire { p with id := .ofNat i } := by
  induction packets generalizing k with
  | nil => rfl
  | cons packet packets ih =>
    have hid : packet.id = -1 := hauto packet List.mem_cons_self
    have hnext : Int32.ofNat k + 1 = Int32.ofNat (k + 1) := (Int32.ofNat_add k 1).symm
    have ih := ih (k := k + 1) fun p hp => hauto p (List.mem_cons_of_mem _ hp)
    rw [List.zipIdx_cons, List.filter_cons]
    simp only [arrivalsFrom, assignId, hid, if_true, hnext, ih]
    split
    · rw [List.map_cons]
    · rfl

/-- An id below 2^31 goes over the wire as it is. -/
theorem toInt_wireInt_ofNat {i : Nat} (hi : i < 2 ^ 31) :
    (wireInt (.ofNat i)).toInt = (i : Int) := by
  have hint : (Int32.ofNat i).toInt = (i : Int) := Int32.toInt_ofNat_of_lt hi
  rw [toInt_wireInt, if_neg (by omega), hint]

/-- Each response answers the request its id is the index of, and the ids grow. -/
structure Correlates {T : Type} (requests responses : List (Packet T)) : Prop where
  increasing : responses.Pairwise fun p q => p.id.toInt < q.id.toInt
  request : ∀ response ∈ responses, 0 ≤ response.id.toInt ∧
    ∃ request, requests[response.id.toInt.toNat]? = some request ∧
      response.payload = wirePayload request.payload

theorem Correlates.sublist {T : Type} {requests responses responses' : List (Packet T)}
    (h : Correlates requests responses) (hsub : responses'.Sublist responses) :
    Correlates requests responses' :=
  ⟨h.increasing.sublist hsub, fun r hr => h.request r (hsub.subset hr)⟩

theorem correlates_arrivals (hauto : ∀ p ∈ packets, p.id = -1) (hlen : packets.length ≤ 2 ^ 31) :
    Correlates packets (arrivals L packets) := by
  have hid : ∀ x ∈ packets.zipIdx, (wireInt (.ofNat x.2)).toInt = (x.2 : Int) := by
    rintro ⟨p, i⟩ hx
    have hi := (List.mem_zipIdx hx).2.1
    exact toInt_wireInt_ofNat (by omega)
  have heq : arrivals L packets = _ := arrivalsFrom_automatic (k := 0) hauto
  rw [heq]
  constructor
  · refine List.pairwise_map.mpr (List.Pairwise.filter _ ?_)
    have hindices : (packets.zipIdx.map Prod.snd).Pairwise (· < ·) := by
      rw [List.zipIdx_map_snd]
      exact List.pairwise_lt_range'
    refine (List.pairwise_map.mp hindices).imp_of_mem fun {x y} hx hy hlt => ?_
    show (wireInt _).toInt < (wireInt _).toInt
    rw [hid x hx, hid y hy]
    exact_mod_cast hlt
  · intro response hr
    obtain ⟨⟨p, i⟩, hx, rfl⟩ := List.mem_map.mp hr
    have hx := (List.mem_filter.mp hx).1
    have hvalue : (wireInt (.ofNat i)).toInt = (i : Int) := hid ⟨p, i⟩ hx
    refine ⟨?_, p, ?_, rfl⟩
    · show 0 ≤ (wireInt (.ofNat i)).toInt
      omega
    · show packets[(wireInt (.ofNat i)).toInt.toNat]? = some p
      rw [hvalue]
      exact List.mem_zipIdx_iff_getElem?.mp hx

/-- Under automatic ids, of fewer than 2^31 requests, the responses say which
request they answer. -/
def Correlated (L : Libraries) (s : EchoService L.arrow.Table) : Prop :=
  AllSized L s.connection.client.submitted →
    (∀ request ∈ s.connection.client.submitted, request.id = -1) →
      s.connection.client.submitted.length ≤ 2 ^ 31 →
        Correlates s.connection.client.submitted s.connection.client.popped

theorem echo_correlates (L : Libraries) (h : L.Documented) (clientSocket serverSocket : Int)
    (ls : List (EchoLabel L.arrow.Table))
    (hrel : Along (step L clientSocket serverSocket) Reliable {} ls) :
    Throughout (step L clientSocket serverSocket) (Correlated L) {} ls := by
  refine hrel.throughout (I := Echoes L clientSocket serverSocket) ?_
    (fun he hok hs => he.step hok hs) .init
  intro s he hs hauto hlen
  have hanswered := (he.answered h hs).sublist
  exact (correlates_arrivals hauto hlen).sublist (hanswered.trans List.filter_sublist)

theorem echo_correlates_once :
    Throughout (step Reference.libraries 3 7) (Correlated Reference.libraries) {}
      (echoedOnce [0x2F] slashFrame) :=
  echo_correlates Reference.libraries Reference.libraries_documented 3 7 _ (by decide)

/-! ## Every answer comes back -/

/-- Both sides stay open, and no wake-up finds two complete frames. -/
def Paced {T : Type} (clientSocket serverSocket : Int) (s : EchoService T) : EchoLabel T → Prop
  | .client l => SessionController.Open s.connection.client l ∧
    SessionController.SingleFrame clientSocket s.connection.client l
  | .server l => SessionController.Open s.connection.server l ∧
    SessionController.SingleFrame serverSocket s.connection.server l
  | .manager => True

instance {T : Type} (clientSocket serverSocket : Int) (s : EchoService T) :
    (l : EchoLabel T) → Decidable (Paced clientSocket serverSocket s l)
  | .client _ | .server _ => inferInstanceAs (Decidable (_ ∧ _))
  | .manager => inferInstanceAs (Decidable True)

/-- Nothing is on its way, in neither direction. -/
structure AtRest (s : EchoService L.arrow.Table) : Prop where
  requests : Idle .client .server s.connection.client s.connection.server
  responses : Idle .server .client s.connection.server s.connection.client
  manager : s.manager.held = []

/-- A service at rest has answered all it can answer. -/
def Complete (L : Libraries) (s : EchoService L.arrow.Table) : Prop :=
  AllSized L s.connection.client.submitted → AtRest s →
    s.connection.client.popped = answers L s.connection.client.submitted

structure PacedEchoes (L : Libraries) (clientSocket serverSocket : Int)
    (s : EchoService L.arrow.Table) : Prop where
  echoes : Echoes L clientSocket serverSocket s
  client : SessionController.Drained clientSocket s.connection.client
  server : SessionController.Drained serverSocket s.connection.server

theorem PacedEchoes.step (h : PacedEchoes L clientSocket serverSocket s) (hok : Reliable s l)
    (hpaced : Paced clientSocket serverSocket s l)
    (hs : step L clientSocket serverSocket s l = some t) :
    PacedEchoes L clientSocket serverSocket t := by
  refine ⟨h.echoes.step hok hs, ?_, ?_⟩
  · cases moves_of_step hs with
    | client l client hclient => exact h.client.step hpaced.1 hpaced.2 hclient
    | _ => exact h.client
  · cases moves_of_step hs with
    | server l server huser hserver => exact h.server.step hpaced.1 hpaced.2 hserver
    | popRequest packet server hm hserver hpopped hsubmitted =>
      exact h.server.step (l := .pop) trivial trivial hserver
    | pushResponse packet server hm hserver hpopped hsubmitted =>
      exact h.server.step (l := .push packet) trivial trivial hserver
    | _ => exact h.server

theorem PacedEchoes.complete (h : PacedEchoes L clientSocket serverSocket s)
    (hdoc : L.Documented) : Complete L s := by
  intro hs hrest
  have hcut : ∀ {socket : Int} {c : SessionController L.arrow.Table},
      SessionController.Drained socket c → c.receiver = .waiting →
        takeFrame (c.buffer socket) = none := by
    intro socket c hd hw
    exact hd.buffer (by simp [hw]) (by simp [hw]) (by simp [hw])
  have hechoed : s.connection.server.submitted = s.connection.server.popped := by
    rw [h.echoes.echo, hrest.manager, List.append_nil]
  calc s.connection.client.popped
    _ = arrivals L s.connection.server.submitted :=
      h.echoes.joined.responses.popped_of_idle hrest.responses
        (hcut h.client hrest.responses.waiting) hdoc (h.echoes.submitted_sized hdoc hs)
    _ = arrivals L (arrivals L s.connection.client.submitted) := by
      rw [hechoed, h.echoes.joined.requests.popped_of_idle hrest.requests
        (hcut h.server hrest.requests.waiting) hdoc hs]
    _ = answers L s.connection.client.submitted := arrivals_arrivals

/-- **No answer is lost**: while no wake-up finds two complete frames, the
client of a service at rest has popped the answer to every request that
`encode` accepts, and accepts again in wire form. -/
theorem echo_completes (L : Libraries) (h : L.Documented) (clientSocket serverSocket : Int)
    (ls : List (EchoLabel L.arrow.Table))
    (hrel : Along (step L clientSocket serverSocket) Reliable {} ls)
    (hpaced : Along (step L clientSocket serverSocket) (Paced clientSocket serverSocket) {} ls) :
    Throughout (step L clientSocket serverSocket) (Complete L) {} ls :=
  (hrel.and hpaced).throughout (I := PacedEchoes L clientSocket serverSocket)
    (fun he => he.complete h) (fun he hok hs => he.step hok.1 hok.2 hs) ⟨.init, rfl, rfl⟩

theorem echo_completes_once :
    ∃ s, run (step Reference.libraries 3 7) {} (echoedOnce [0x2F] slashFrame) = some s ∧ AtRest s ∧
      s.connection.client.popped = answers Reference.libraries s.connection.client.submitted := by
  obtain ⟨s, hrun, hsized, hrest⟩ : ∃ s,
      run (step Reference.libraries 3 7) {} (echoedOnce [0x2F] slashFrame) = some s ∧
        AllSized Reference.libraries s.connection.client.submitted ∧ AtRest s := by
    refine ⟨_, rfl, ?_, ⟨rfl, rfl, rfl, rfl, rfl, rfl⟩, ⟨rfl, rfl, rfl, rfl, rfl, rfl⟩, rfl⟩
    intro packet hp
    rw [List.mem_singleton.mp hp]
    exact (by decide : 1 < 2 ^ 31)
  have hcomplete := (echo_completes Reference.libraries Reference.libraries_documented 3 7
    (echoedOnce [0x2F] slashFrame) (by decide) (by decide)).last hrun
  exact ⟨s, hrun, hrest, hcomplete hsized hrest⟩

end EchoService
end Ttp2
