import Ttp2.SessionStream
import Ttp2.CodedPacket
import Ttp2.Lib.Turns

/-! # `sendMessage` beside the session

`sendMessage` and `sendPacket` are public and take no lock: any number of
calls may run while the send loop of the session sends. The calls are numbered
as they begin; every `send` appends to the one stream of the socket. -/
namespace Ttp2
open Lib Octets Framing Lts Turns

/-- Where a call of `sendMessage` is, and what it returned. -/
inductive SendCallPc where
  | sending (s : Sending)
  | returned (code : Int32)
  /-- an exception other than `std::invalid_argument` left the call -/
  | threw
  deriving DecidableEq

def SendCallPc.ofNext : Option Sending → SendCallPc
  | some s => .sending s
  | none => .returned 0

def SendCallPc.ofEncoded : Except Exception Bytes → SendCallPc
  | .ok buffer => .sending (.start buffer)
  | .error (.invalidArgument _) => .returned (-1)
  | .error .lengthError => .threw

/-- The session, the calls of `sendMessage` by other threads, and the bodies
of all calls that began to send, the send loop's included. -/
structure SharedSocket (T : Type) where
  session : SessionController T := {}
  calls : List SendCallPc := []
  begun : List Bytes := []

inductive SharedLabel (T : Type) where
  | session (l : SessionLabel T)
  | sendMessage (id : Int32) (payload : Packet.PayloadVariants T)
  | send (call : Nat) (result : SendResult)
  deriving DecidableEq

/-- The body a running `sendMessage` sends. -/
def Sending.body (s : Sending) : Bytes := s.next.getD s.buffer

namespace SharedSocket
variable {T : Type}

/-- The body of the call that a step begins, if `encode` accepts its packet. -/
def encoded : Except Exception Bytes → List Bytes
  | .ok buffer => [buffer]
  | .error _ => []

def sendMessage (L : Libraries) (s : SharedSocket L.arrow.Table) (id : Int32)
    (payload : Packet.PayloadVariants L.arrow.Table) : SharedSocket L.arrow.Table :=
  let (id, autoId) := assignId s.session.net.autoId id
  let buffer := Encode.encode L payload id
  { session := { s.session with net := { s.session.net with autoId } }
    calls := s.calls ++ [.ofEncoded buffer]
    begun := s.begun ++ encoded buffer }

/-- `sendPacket(socket, packet)` -/
def sendPacket (L : Libraries) (s : SharedSocket L.arrow.Table) (packet : Packet L.arrow.Table) :
    SharedSocket L.arrow.Table :=
  s.sendMessage L packet.id packet.payload

/-- The body of the packet the send loop takes. -/
def taken (l : SessionLabel T) (sender : SenderPc) : List Bytes :=
  match l, sender with
  | .take, .sending sending => [sending.body]
  | _, _ => []

def send (s : SharedSocket T) (call : Nat) (sending : Sending) (result : SendResult) :
    Option (SharedSocket T) :=
  (sending.send result).map fun (out, next) =>
    { s with
      session := { s.session with
        wire := s.session.wire ++ out, calls := s.session.calls ++ [.send] }
      calls := s.calls.set call (.ofNext next) }

def step (L : Libraries) (role : Role) (socket : Int) (s : SharedSocket L.arrow.Table) :
    SharedLabel L.arrow.Table → Option (SharedSocket L.arrow.Table)
  | .session l =>
    (SessionController.step L role socket s.session l).map fun session =>
      { s with session, begun := s.begun ++ taken l session.sender }
  | .sendMessage id payload => some (s.sendMessage L id payload)
  | .send call result =>
    match s.calls[call]? with
    | some (.sending sending) => s.send call sending result
    | _ => none

/-! ## Who is sending -/

/-- The `sendMessage`s that run. -/
def running (calls : List SendCallPc) : List Sending :=
  calls.filterMap fun
    | .sending s => some s
    | _ => none

/-- The `sendMessage` of the send loop. -/
def looping : SenderPc → List Sending
  | .sending s => [s]
  | _ => []

def active (s : SharedSocket T) : List Sending := looping s.session.sender ++ running s.calls

/-- Nothing of the frame has been sent. -/
def Unsent (s : Sending) : Prop := s.sentBytes = 0 ∧ s.next.isSome = true

instance (s : Sending) : Decidable (Unsent s) := inferInstanceAs (Decidable (_ ∧ _))

/-- **Turns are taken**: whoever calls `send`, no other frame is partly sent. -/
def TakesTurns (s : SharedSocket T) : SharedLabel T → Prop
  | .session (.send _) => ∀ sending ∈ running s.calls, Unsent sending
  | .send call _ =>
    ∀ sending ∈ looping s.session.sender ++ running (s.calls.eraseIdx call), Unsent sending
  | _ => True

/-- No call of `send` fails. -/
def Accepts (_ : SharedSocket T) : SharedLabel T → Prop
  | .session (.send .failed) | .send _ .failed => False
  | _ => True

/-- **No frame is torn**: once all calls have returned, the stream is their
frames in some order, and a receiver, whatever `recv` delivers to each of its
calls of `receiveMessage`, takes these bodies one by one. -/
def Untorn (L : Libraries) (s : SharedSocket L.arrow.Table) : Prop :=
  s.active = [] → ∃ bodies : List Bytes, bodies.Perm s.begun ∧ s.session.wire = frames bodies ∧
    ∀ (socket : Int) (net : TcpNetworking L.arrow.Table) (calls : List (List Bytes)),
      net.connected = true → net.sessionBuffers socket = [] →
      calls.flatten.flatten = s.session.wire →
      ∃ results net', TcpNetworking.receiveAll L socket calls net = some (results, net') ∧
        results.filterMap Prod.fst = bodies.take (results.filterMap Prod.fst).length ∧
        net'.sessionBuffers socket = frames (bodies.drop (results.filterMap Prod.fst).length)

end SharedSocket

/-! ## One `sendMessage` -/

namespace Sending

/-- The first `sendBytes` sends the size of the body behind it. -/
def Formed (s : Sending) : Prop := ∀ body, s.next = some body → s.buffer = toBe 4 body.length

theorem formed_start (buffer : Bytes) : (start buffer).Formed := by
  intro body h
  cases h
  rfl

theorem remaining_unsent {s : Sending} (h : s.Formed) (hunsent : SharedSocket.Unsent s) :
    s.remaining = frame s.body := by
  obtain ⟨hsent, hnext⟩ := hunsent
  obtain ⟨body, hbody⟩ := Option.isSome_iff_exists.mp hnext
  rw [remaining, Sending.body, hsent, hbody, h body hbody]
  rfl

/-- The next `send` of the same `sendMessage`. -/
theorem send_again {s s' : Sending} (h : s.Formed) {sent : Nat} {out : Bytes}
    (hsend : s.send (.accepted sent) = some (out, some s')) : s'.Formed ∧ s'.body = s.body := by
  simp only [send] at hsend
  split at hsend
  · simp only [Option.some.injEq, Prod.mk.injEq] at hsend
    obtain ⟨-, hnext⟩ := hsend
    split at hnext
    · cases hnext
      exact ⟨h, rfl⟩
    · obtain ⟨body, hbody, hstart⟩ := Option.bind_eq_some_iff.mp hnext
      unfold sendBytes at hstart
      split at hstart
      · cases hstart
      · cases hstart
        refine ⟨fun _ hnone => (by cases hnone), ?_⟩
        rw [Sending.body, Sending.body, hbody]
        rfl
  · cases hsend

/-- A `sendMessage` as a writer of its frame. -/
def writer (s : Sending) : Writing UInt8 Bytes := ⟨s.body, s.remaining⟩

end Sending

/-! ## All of them -/

namespace SharedSocket
variable {L : Libraries} {role : Role} {socket : Int} {s t : SharedSocket L.arrow.Table}
  {l : SharedLabel L.arrow.Table}

structure TurnsInvariant (s : SharedSocket L.arrow.Table) : Prop where
  formed : ∀ sending ∈ s.active, sending.Formed
  orderly : Orderly frame s.session.wire s.begun (s.active.map Sending.writer)
  fits : Fits s.begun

theorem TurnsInvariant.init : TurnsInvariant ({} : SharedSocket L.arrow.Table) :=
  ⟨nofun, .nil, fits_nil⟩

theorem TurnsInvariant.of_same (h : TurnsInvariant s) (hactive : t.active = s.active)
    (hwire : t.session.wire = s.session.wire) (hbegun : t.begun = s.begun) : TurnsInvariant t where
  formed := hactive ▸ h.formed
  orderly := by
    rw [hactive, hwire, hbegun]
    exact h.orderly
  fits := hbegun ▸ h.fits

/-- A call begins to send. -/
theorem TurnsInvariant.start (h : TurnsInvariant s) {buffer : Bytes}
    (hlength : buffer.length < 2 ^ 32) (hactive : t.active.Perm (.start buffer :: s.active))
    (hwire : t.session.wire = s.session.wire) (hbegun : t.begun = s.begun ++ [buffer]) :
    TurnsInvariant t where
  formed := by
    intro sending hsending
    rcases List.mem_cons.mp (hactive.mem_iff.mp hsending) with rfl | hold
    · exact Sending.formed_start buffer
    · exact h.formed sending hold
  orderly := by
    rw [hwire, hbegun]
    exact (h.orderly.start buffer).perm (hactive.map Sending.writer).symm
  fits := by
    rw [hbegun]
    exact h.fits.append (by simpa using hlength)

/-- A call of `send` while no other frame is partly sent. -/
theorem TurnsInvariant.sent (h : TurnsInvariant s) {sending : Sending} {others : List Sending}
    (hactive : s.active.Perm (sending :: others)) (hothers : ∀ other ∈ others, Unsent other)
    {sent : Nat} {out : Bytes} {next : Option Sending}
    (hsend : sending.send (.accepted sent) = some (out, next))
    (hnew : t.active.Perm (next.toList ++ others))
    (hwire : t.session.wire = s.session.wire ++ out) (hbegun : t.begun = s.begun) :
    TurnsInvariant t := by
  have hformed : ∀ other ∈ sending :: others, other.Formed :=
    fun other hother => h.formed other (hactive.mem_iff.mpr hother)
  have hfresh : ∀ v ∈ others.map Sending.writer, v.Fresh frame := by
    intro v hv
    obtain ⟨other, hother, rfl⟩ := List.mem_map.mp hv
    exact Sending.remaining_unsent (hformed other (List.mem_cons_of_mem _ hother))
      (hothers other hother)
  have horderly := h.orderly.perm (hactive.map Sending.writer)
  have hpiece := Sending.send_accepted hsend
  cases next with
  | none =>
    refine ⟨fun other hother => ?_, ?_, hbegun ▸ h.fits⟩
    · exact hformed other (List.mem_cons_of_mem _ (hnew.mem_iff.mp hother))
    · have hlast : out = sending.remaining := by
        rw [← hpiece]
        exact (List.append_nil out).symm
      rw [hwire, hbegun, hlast]
      exact (horderly.finish hfresh).perm (hnew.map Sending.writer).symm
  | some next =>
    obtain ⟨hnext, hbody⟩ := Sending.send_again (hformed sending List.mem_cons_self) hsend
    refine ⟨fun other hother => ?_, ?_, hbegun ▸ h.fits⟩
    · rcases List.mem_cons.mp (hnew.mem_iff.mp hother) with rfl | hother
      · exact hnext
      · exact hformed other (List.mem_cons_of_mem _ hother)
    · have hwrite := horderly.write hfresh hpiece
      rw [hwire, hbegun]
      refine Orderly.perm ?_ (hnew.map Sending.writer).symm
      rw [Option.toList_some, List.singleton_append, List.map_cons, Sending.writer, hbody]
      exact hwrite

/-! ### The steps -/

theorem taken_ofEncoded (e : Except Exception Bytes) :
    taken (.take : SessionLabel T) (.ofEncoded e) = encoded e := by
  cases e with
  | ok buffer => rfl
  | error e => cases e <;> rfl

theorem looping_ofNext (next : Option Sending) : looping (.ofNext next) = next.toList := by
  cases next <;> rfl

/-- The calls besides one that is sending. -/
theorem running_perm {calls : List SendCallPc} {call : Nat} {sending : Sending}
    (h : calls[call]? = some (.sending sending)) :
    (running calls).Perm (sending :: running (calls.eraseIdx call)) := by
  obtain ⟨hlt, hget⟩ := List.getElem?_eq_some_iff.mp h
  have hperm := (List.getElem_cons_eraseIdx_perm hlt).symm
  rw [hget] at hperm
  exact hperm.filterMap _

theorem running_set {calls : List SendCallPc} {call : Nat} (hlt : call < calls.length)
    (next : Option Sending) :
    (running (calls.set call (.ofNext next))).Perm
      (next.toList ++ running (calls.eraseIdx call)) := by
  have hperm := (List.set_perm_cons_eraseIdx hlt (.ofNext next)).filterMap
    (fun | .sending s => some s | _ => none)
  cases next <;> exact hperm

theorem TurnsInvariant.sendMessage (hdoc : L.Documented) (h : TurnsInvariant s) (id : Int32)
    (payload : Packet.PayloadVariants L.arrow.Table) :
    TurnsInvariant (s.sendMessage L id payload) := by
  have hrunning : ∀ pc, running (s.calls ++ [pc]) = running s.calls ++ running [pc] :=
    fun pc => List.filterMap_append
  unfold SharedSocket.sendMessage
  dsimp only
  cases he : Encode.encode L payload (assignId s.session.net.autoId id).1 with
  | ok buffer =>
    refine h.start (length_encode hdoc he) ?_ rfl rfl
    show (looping s.session.sender ++ running (s.calls ++ [.sending (.start buffer)])).Perm _
    rw [hrunning, ← List.append_assoc]
    exact List.perm_append_singleton _ _
  | error e =>
    refine h.of_same ?_ rfl (List.append_nil _)
    show looping s.session.sender ++ running (s.calls ++ [.ofEncoded (.error e)]) = _
    rw [hrunning]
    cases e <;> exact congrArg _ (List.append_nil _)

theorem TurnsInvariant.session (hdoc : L.Documented) (h : TurnsInvariant s)
    {k : SessionLabel L.arrow.Table} (henv : Accepts s (.session k))
    (hok : TakesTurns s (.session k)) {session : SessionController L.arrow.Table}
    (hs : SessionController.step L role socket s.session k = some session) :
    TurnsInvariant { s with session, begun := s.begun ++ taken k session.sender } := by
  have hidle : ∀ pc, s.session.sender = pc → looping pc = [] → s.active = running s.calls := by
    intro pc hpc hnone
    rw [active, hpc, hnone, List.nil_append]
  cases SessionController.moves_of_step hs with
  | take packet rest hwaiting hq =>
    dsimp only
    rw [taken_ofEncoded]
    cases he : Encode.encode L packet.payload (assignId s.session.net.autoId packet.id).1 with
    | ok buffer =>
      refine h.start (length_encode hdoc he) ?_ rfl rfl
      rw [hidle _ hwaiting rfl]
      exact .refl _
    | error e =>
      refine h.of_same ?_ rfl (List.append_nil _)
      rw [hidle _ hwaiting rfl]
      cases e <;> rfl
  | takeUndefined hwaiting hq hc =>
    exact h.of_same (hidle _ hwaiting rfl).symm rfl (List.append_nil _)
  | sendTest htest =>
    refine h.of_same ?_ rfl (List.append_nil _)
    rw [hidle _ htest rfl, active]
    dsimp only
    split <;> rfl
  | send result sending out next hsending hsend =>
    cases result with
    | failed => exact absurd henv id
    | accepted sent =>
      have hactive : s.active.Perm (sending :: running s.calls) := by
        rw [active, hsending]
        exact .refl _
      refine h.sent hactive hok hsend ?_ rfl (List.append_nil _)
      rw [active, looping_ofNext]
  | _ => exact h.of_same rfl rfl (List.append_nil _)

theorem TurnsInvariant.step (hdoc : L.Documented) (h : TurnsInvariant s) (henv : Accepts s l)
    (hok : TakesTurns s l) (hs : step L role socket s l = some t) : TurnsInvariant t := by
  cases l with
  | session k =>
    obtain ⟨session, hsession, rfl⟩ := Option.map_eq_some_iff.mp hs
    exact h.session hdoc henv hok hsession
  | sendMessage id payload =>
    cases hs
    exact h.sendMessage hdoc id payload
  | send call result =>
    simp only [SharedSocket.step] at hs
    split at hs
    · rename_i sending hcall
      obtain ⟨⟨out, next⟩, hsend, rfl⟩ := Option.map_eq_some_iff.mp hs
      cases result with
      | failed => exact absurd henv id
      | accepted sent =>
        refine h.sent ?_ hok hsend ?_ rfl rfl
        · have hperm := (running_perm hcall).append_left (looping s.session.sender)
          exact hperm.trans List.perm_middle
        · have hlt := (List.getElem?_eq_some_iff.mp hcall).1
          have hperm := (running_set hlt next).append_left (looping s.session.sender)
          exact hperm.trans (List.perm_append_comm_assoc ..)
    · cases hs

theorem TurnsInvariant.untorn (h : TurnsInvariant s) : Untorn L s := by
  intro hidle
  have horderly := h.orderly
  rw [hidle] at horderly
  obtain ⟨bodies, hperm, hwire⟩ := horderly.order
  refine ⟨bodies, hperm, hwire, fun socket net calls hconn hempty hcalls => ?_⟩
  have hfits : Fits bodies := fun body hbody => h.fits body (hperm.mem_iff.mp hbody)
  obtain ⟨results, net', hrun, -, htaken, hleft⟩ :=
    TcpNetworking.receive_resynchronises hfits takeFrame_nil hconn hempty calls []
      (by rw [hcalls, hwire, List.append_nil, List.append_nil]; rfl)
  rw [List.append_nil, List.append_nil] at hleft
  exact ⟨results, net', hrun, htaken, hleft⟩

/-- **Senders that take turns** do not tear each other's frames. -/
theorem untorn_of_turns (L : Libraries) (hdoc : L.Documented) (role : Role) (socket : Int)
    (ls : List (SharedLabel L.arrow.Table))
    (henv : Along (SharedSocket.step L role socket) Accepts {} ls)
    (hok : Along (SharedSocket.step L role socket) TakesTurns {} ls) :
    Throughout (SharedSocket.step L role socket) (Untorn L) {} ls :=
  (henv.and hok).throughout (I := TurnsInvariant) (fun h => h.untorn)
    (fun h hboth hs => h.step hdoc hboth.1 hboth.2 hs) .init

instance (s : SharedSocket T) : (l : SharedLabel T) → Decidable (Accepts s l)
  | .session (.send .failed) | .send _ .failed => inferInstanceAs (Decidable False)
  | .session (.arrive _) | .session .fin | .session .loopTest | .session (.epollWait _)
  | .session .hangUpDisconnect | .session .recvTest | .session (.recv _) | .session .cutFrame
  | .session .dispatch | .session .sendTest | .session .take | .session (.send (.accepted _))
  | .session (.push _) | .session .pop | .session .disconnect | .sendMessage _ _
  | .send _ (.accepted _) => inferInstanceAs (Decidable True)

instance (s : SharedSocket T) : (l : SharedLabel T) → Decidable (TakesTurns s l)
  | .session (.send _) | .send _ _ => inferInstanceAs (Decidable (∀ sending ∈ _, Unsent sending))
  | .session (.arrive _) | .session .fin | .session .loopTest | .session (.epollWait _)
  | .session .hangUpDisconnect | .session .recvTest | .session (.recv _) | .session .cutFrame
  | .session .dispatch | .session .sendTest | .session .take | .session (.push _)
  | .session .pop | .session .disconnect | .sendMessage _ _ => inferInstanceAs (Decidable True)

/-- The send loop and two threads, one after the other. -/
theorem untorn_three_senders :
    Throughout (SharedSocket.step Reference.libraries .client 7) (Untorn Reference.libraries) {}
      [.session (.push { id := 5, payload := .ls { directory := [0x2F] } }), .session .sendTest,
        .session .take, .sendMessage 6 (.ls { directory := [0x2F] }),
        .session (.send (.accepted 3)), .session (.send (.accepted 1)),
        .session (.send (.accepted 12)), .send 0 (.accepted 4),
        .sendMessage (-1) (.ls { directory := [0x2F] }), .send 0 (.accepted 5),
        .send 0 (.accepted 7), .send 1 (.accepted 4), .send 1 (.accepted 12)] :=
  untorn_of_turns Reference.libraries Reference.libraries_documented .client 7 _ (by decide)
    (by decide)

/-- **A call beside the send loop tears the frames**: both sizes are sent
before the first body. -/
theorem torn_beside_send_loop :
    let ls : List (SharedLabel Reference.libraries.arrow.Table) :=
      [.session (.push { id := 5, payload := .ls { directory := [0x2F] } }), .session .sendTest,
        .session .take, .sendMessage 6 (.ls { directory := [0x2F] }),
        .session (.send (.accepted 4)), .send 0 (.accepted 4), .session (.send (.accepted 12)),
        .send 0 (.accepted 12)]
    Along (SharedSocket.step Reference.libraries .client 7) Accepts {} ls ∧
      ¬ Throughout (SharedSocket.step Reference.libraries .client 7) (Untorn Reference.libraries)
        {} ls := by
  intro ls
  refine ⟨by decide, fun h => ?_⟩
  obtain ⟨t, hrun, hidle, hbegun, hwire⟩ : ∃ t, run (SharedSocket.step Reference.libraries .client 7)
      {} ls = some t ∧ t.active = [] ∧
        t.begun = [[0x30, 0x0A, 2, 1, 5, 0xA7, 5, 0x30, 3, 4, 1, 0x2F],
          [0x30, 0x0A, 2, 1, 6, 0xA7, 5, 0x30, 3, 4, 1, 0x2F]] ∧
        t.session.wire.take 8 = [0, 0, 0, 12, 0, 0, 0, 12] := ⟨_, rfl, rfl, rfl, rfl⟩
  obtain ⟨bodies, hperm, hframes, -⟩ := h.last hrun hidle
  rw [hbegun] at hperm
  cases bodies with
  | nil => cases hperm.length_eq
  | cons body rest =>
    -- the stream would start with the size and the first bytes of a body
    have hfirst : ∀ body ∈ [[0x30, 0x0A, 2, 1, 5, 0xA7, 5, 0x30, 3, 4, 1, 0x2F],
        [0x30, 0x0A, 2, 1, 6, 0xA7, 5, 0x30, 3, 4, 1, 0x2F]],
        (frame body).take 8 ≠ [0, 0, 0, 12, 0, 0, 0, 12] ∧ 8 ≤ (frame body).length := by decide
    obtain ⟨hne, hlen⟩ := hfirst body (hperm.mem_iff.mp List.mem_cons_self)
    rw [hframes, frames_cons, List.take_append_of_le_length hlen] at hwire
    exact hne hwire

end SharedSocket
end Ttp2
