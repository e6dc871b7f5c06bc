import Ttp2.EchoStability

/-! # Which fields survive the wire

An integer is written with its sign and read without it, a string is written
up to its first NUL: an integer field survives exactly if it is not negative
or needs four octets, a string field exactly if it holds no zero byte. That
depends on the field alone, not on the rest of the packet. -/
namespace Ttp2
open Lib TwosComplement Asn1Helpers Packet Encode Decode

/-! ## The fields -/

inductive Coordinate where
  | xStart
  | xEnd
  | yStart
  | yEnd
  deriving DecidableEq

/-- The INTEGER fields of the format. -/
inductive IntegerField where
  | id
  | fileStart
  | fileEnd
  | viewportRequest (c : Coordinate)
  | viewport (c : Coordinate)
  | errorCode
  | universalType
  deriving DecidableEq

/-- The string fields of the format, list items aside. -/
inductive StringField where
  | standardPayload
  | fileFilePath
  | tqlQueryQuery
  | errorMessage
  | lsDirectory
  deriving DecidableEq

def Coordinate.ofRequest (v : ViewportRequest) : Coordinate → Int32
  | .xStart => v.xStart
  | .xEnd => v.xEnd
  | .yStart => v.yStart
  | .yEnd => v.yEnd

def Coordinate.ofViewport {T : Type} (v : Viewport T) : Coordinate → Int32
  | .xStart => v.xStart
  | .xEnd => v.xEnd
  | .yStart => v.yStart
  | .yEnd => v.yEnd

/-- The field of a packet, if the packet holds its alternative. -/
def IntegerField.value {T : Type} (field : IntegerField) (p : Packet T) : Option Int32 :=
  match field, p.payload with
  | .id, _ => some p.id
  | .fileStart, .file f => some f.start
  | .fileEnd, .file f => some f.end_
  | .viewportRequest c, .viewportRequest v => some (c.ofRequest v)
  | .viewport c, .viewport v => some (c.ofViewport v)
  | .errorCode, .error e => some e.code
  | .universalType, .universal u => some u.type
  | _, _ => none

def StringField.value {T : Type} (field : StringField) (p : Packet T) : Option Bytes :=
  match field, p.payload with
  | .standardPayload, .standard s => some s.payload
  | .fileFilePath, .file f => some f.filePath
  | .tqlQueryQuery, .tqlQuery q => some q.query
  | .errorMessage, .error e => some e.message
  | .lsDirectory, .ls l => some l.directory
  | _, _ => none

/-- The name of the field's element in the tree. -/
def IntegerField.key : IntegerField → String
  | .id => "id"
  | .fileStart => "payload.file.start"
  | .fileEnd => "payload.file.end"
  | .viewportRequest .xStart => "payload.viewportRequest.xStart"
  | .viewportRequest .xEnd => "payload.viewportRequest.xEnd"
  | .viewportRequest .yStart => "payload.viewportRequest.yStart"
  | .viewportRequest .yEnd => "payload.viewportRequest.yEnd"
  | .viewport .xStart => "payload.viewport.xStart"
  | .viewport .xEnd => "payload.viewport.xEnd"
  | .viewport .yStart => "payload.viewport.yStart"
  | .viewport .yEnd => "payload.viewport.yEnd"
  | .errorCode => "payload.error.code"
  | .universalType => "payload.universal.type"

def StringField.key : StringField → String
  | .standardPayload => "payload.standard.payload"
  | .fileFilePath => "payload.file.filePath"
  | .tqlQueryQuery => "payload.tqlQuery.query"
  | .errorMessage => "payload.error.message"
  | .lsDirectory => "payload.ls.directory"

variable {L : Libraries} {m : L.asn1.Node} {p q : Packet L.arrow.Table}

/-! ## What is stored and what is read -/

theorem IntegerField.stored {field : IntegerField} {n : Int32} (h : field.value p = some n) :
    (field.key, intOctets n.toInt) ∈ scalars p.id p.payload := by
  obtain ⟨id, payload⟩ := p
  cases field with
  | id =>
    cases h
    exact id_mem_scalars ..
  | viewportRequest c =>
    cases payload <;> cases h
    cases c <;> simp [scalars, key, Coordinate.ofRequest]
  | viewport c =>
    cases payload <;> cases h
    cases c <;> simp [scalars, key, Coordinate.ofViewport]
  | _ =>
    cases payload <;> cases h
    simp [scalars, key]

theorem StringField.stored {field : StringField} {s : Bytes} (h : field.value p = some s)
    (hlt : s.length < 2 ^ 31) : (field.key, wireString s) ∈ scalars p.id p.payload := by
  obtain ⟨id, payload⟩ := p
  cases field <;> cases payload <;> cases h <;> simp [scalars, key, mem_stringFact hlt]

theorem decodeFile_eq_ok {file : File L.arrow.Table} (h : decodeFile L m = .ok file) :
    file.filePath = asn1DecodePayloadString L.asn1 m "payload.file.filePath" ∧
      file.start = asn1DecodePayloadInt L.asn1 m "payload.file.start" ∧
      file.end_ = asn1DecodePayloadInt L.asn1 m "payload.file.end" := by
  simp only [decodeFile, bind, Except.bind] at h
  split at h
  · cases h
  · cases h
    exact ⟨rfl, rfl, rfl⟩

theorem decodeViewport_eq_ok {viewport : Viewport L.arrow.Table}
    (h : decodeViewport L m = .ok viewport) :
    viewport.xStart = asn1DecodePayloadInt L.asn1 m "payload.viewport.xStart" ∧
      viewport.xEnd = asn1DecodePayloadInt L.asn1 m "payload.viewport.xEnd" ∧
      viewport.yStart = asn1DecodePayloadInt L.asn1 m "payload.viewport.yStart" ∧
      viewport.yEnd = asn1DecodePayloadInt L.asn1 m "payload.viewport.yEnd" := by
  simp only [decodeViewport, bind, Except.bind] at h
  split at h
  · cases h
  · cases h
    exact ⟨rfl, rfl, rfl, rfl⟩

/-- What `decodePayload` makes of a tree with the alternative of a payload. -/
def readAs (L : Libraries) (m : L.asn1.Node) :
    PayloadVariants L.arrow.Table → Except InvalidArgument (PayloadVariants L.arrow.Table)
  | .standard _ => .ok (.standard (decodeStandard L m))
  | .file _ => (decodeFile L m).map .file
  | .viewportRequest _ => .ok (.viewportRequest (decodeViewportRequest L m))
  | .viewport _ => (decodeViewport L m).map .viewport
  | .tqlQuery _ => .ok (.tqlQuery (decodeTqlQuery L m))
  | .error _ => .ok (.error (decodeError L m))
  | .universal _ => .ok (.universal (decodeUniversal L m))
  | .ls _ => .ok (.ls (decodeLs L m))
  | .lsSolution _ => .ok (.lsSolution (decodeLsSolution L m))

theorem decodePayload_altName (payload : PayloadVariants L.arrow.Table) :
    decodePayload L m payload.altName = readAs L m payload := by
  cases payload <;> rfl

theorem map_eq_ok {ε α β : Type} {f : α → β} {e : Except ε α} {b : β} (h : e.map f = .ok b) :
    ∃ a, e = .ok a ∧ b = f a := by
  cases e with
  | error e => cases h
  | ok a =>
    cases h
    exact ⟨a, rfl, rfl⟩

/-- A decoded packet has its integers from their elements. -/
theorem IntegerField.read {field : IntegerField} (hid : q.id = asn1DecodePayloadInt L.asn1 m "id")
    (hp : readAs L m p.payload = .ok q.payload) (h : (field.value p).isSome) :
    field.value q = some (asn1DecodePayloadInt L.asn1 m field.key) := by
  obtain ⟨id, payload⟩ := p
  obtain ⟨id', payload'⟩ := q
  cases field with
  | id => exact congrArg some hid
  | fileStart =>
    cases payload <;> cases h
    obtain ⟨file, hf, rfl⟩ := map_eq_ok hp
    exact congrArg some (decodeFile_eq_ok hf).2.1
  | fileEnd =>
    cases payload <;> cases h
    obtain ⟨file, hf, rfl⟩ := map_eq_ok hp
    exact congrArg some (decodeFile_eq_ok hf).2.2
  | viewportRequest c =>
    cases payload <;> cases h
    cases hp
    cases c <;> rfl
  | viewport c =>
    cases payload <;> cases h
    obtain ⟨viewport, hv, rfl⟩ := map_eq_ok hp
    obtain ⟨hxStart, hxEnd, hyStart, hyEnd⟩ := decodeViewport_eq_ok hv
    cases c with
    | xStart => exact congrArg some hxStart
    | xEnd => exact congrArg some hxEnd
    | yStart => exact congrArg some hyStart
    | yEnd => exact congrArg some hyEnd
  | errorCode =>
    cases payload <;> cases h
    cases hp
    rfl
  | universalType =>
    cases payload <;> cases h
    cases hp
    rfl

/-- A decoded packet has its strings from their elements. -/
theorem StringField.read {field : StringField} (hp : readAs L m p.payload = .ok q.payload)
    (h : (field.value p).isSome) :
    field.value q = some (asn1DecodePayloadString L.asn1 m field.key) := by
  obtain ⟨id, payload⟩ := p
  obtain ⟨id', payload'⟩ := q
  cases field with
  | fileFilePath =>
    cases payload <;> cases h
    obtain ⟨file, hf, rfl⟩ := map_eq_ok hp
    exact congrArg some (decodeFile_eq_ok hf).1
  | _ =>
    cases payload <;> cases h
    cases hp
    rfl

/-! ## What survives -/

/-- An integer is read back as itself if it is not negative or needs four octets. -/
theorem wireInt_eq_iff (n : Int32) : wireInt n = n ↔ 0 ≤ n.toInt ∨ n.toInt < -2 ^ 23 := by
  have hw := toInt_wireInt n
  have hshort : octetCount n.toInt ≤ 3 ↔ -2 ^ 23 ≤ n.toInt ∧ n.toInt < 2 ^ 23 :=
    octetCount_le (k := 2)
  have hpos : (0 : Int) < 256 ^ octetCount n.toInt := by positivity
  rw [← Int32.toInt_inj, hw]
  split
  · rename_i hneg
    have hrange := hshort.mp hneg.2
    omega
  · rename_i hother
    refine ⟨fun _ => ?_, fun _ => rfl⟩
    by_contra hbad
    exact hother ⟨by omega, hshort.mpr ⟨by omega, by omega⟩⟩

/-- A string is read back as itself if it holds no zero byte. -/
theorem wireString_eq_iff (s : Bytes) : wireString s = s ↔ 0 ∉ s := by
  rw [wireString, List.takeWhile_eq_self_iff]
  refine ⟨fun h hz => ?_, fun h b hb => ?_⟩
  · exact absurd (h 0 hz) (by decide)
  · have hne : b ≠ 0 := fun he => h (he ▸ hb)
    simpa using hne

variable {buffer : Bytes}

/-- **An integer field survives** exactly if it is not negative or needs four
octets, whatever the rest of the packet is. -/
theorem integer_survives_iff (h : L.Documented) (p : Packet L.arrow.Table) (field : IntegerField)
    (n : Int32) (hn : field.value p = some n) (he : encode L p.payload p.id = .ok buffer) :
    (p.payload.Sized L → ∃ q, decode L buffer = .ok q) ∧
      ∀ q, decode L buffer = .ok q →
        (field.value q = some n ↔ 0 ≤ n.toInt ∨ n.toInt < -2 ^ 23) := by
  refine ⟨fun hs => ⟨wire p, decode_encode h p hs he⟩, fun q hd => ?_⟩
  obtain ⟨m, hs, hid, hp⟩ := decode_stores h he hd
  rw [decodePayload_altName] at hp
  rw [IntegerField.read hid hp (by rw [hn]; rfl), hs.readInt h.asn1 (IntegerField.stored hn),
    Option.some.injEq, wireInt_eq_iff]

/-- The code of an error: 300, in two octets. -/
theorem integer_survives_error_code : ∃ q,
    decode Reference.libraries [0x30, 14, 2, 1, 7, 0xA5, 9, 0x30, 7, 2, 2, 1, 44, 4, 1, 0x78] =
      .ok q ∧ IntegerField.errorCode.value q = some 300 := by
  obtain ⟨hreturns, hfield⟩ := integer_survives_iff Reference.libraries_documented
    { id := 7, payload := .error { code := 300, message := [0x78] } } .errorCode 300 rfl rfl
  obtain ⟨q, hq⟩ := hreturns (show 1 < 2 ^ 31 by decide)
  exact ⟨q, hq, (hfield q hq).mpr (by decide)⟩

/-- **The code -1 comes back as 255**: its one octet is read without the sign. -/
theorem negative_code_changes :
    ¬ ∀ (p q : Packet Reference.libraries.arrow.Table) (field : IntegerField) (n : Int32)
        (buffer : Bytes), field.value p = some n →
      encode Reference.libraries p.payload p.id = .ok buffer →
      decode Reference.libraries buffer = .ok q → field.value q = some n := by
  intro h
  have hcode := h { id := 7, payload := .error { code := -1, message := [] } }
    { id := 7, payload := .error { code := 255, message := [] } } .errorCode (-1)
    [0x30, 12, 2, 1, 7, 0xA5, 7, 0x30, 5, 2, 1, 255, 4, 0] rfl rfl rfl
  cases hcode

/-- **A string field survives** exactly if it holds no zero byte, whatever the
rest of the packet is. -/
theorem string_survives_iff (h : L.Documented) (p : Packet L.arrow.Table) (field : StringField)
    (s : Bytes) (hlt : s.length < 2 ^ 31) (hn : field.value p = some s)
    (he : encode L p.payload p.id = .ok buffer) :
    (p.payload.Sized L → ∃ q, decode L buffer = .ok q) ∧
      ∀ q, decode L buffer = .ok q → (field.value q = some s ↔ 0 ∉ s) := by
  refine ⟨fun hs => ⟨wire p, decode_encode h p hs he⟩, fun q hd => ?_⟩
  obtain ⟨m, hs, -, hp⟩ := decode_stores h he hd
  rw [decodePayload_altName] at hp
  rw [StringField.read hp (by rw [hn]; rfl), hs.readString h.asn1 (StringField.stored hn hlt),
    Option.some.injEq, wireString_eq_iff]

/-- A directory whose name is not ASCII. -/
theorem string_survives_directory : ∃ q,
    decode Reference.libraries [0x30, 11, 2, 1, 7, 0xA7, 6, 0x30, 4, 4, 2, 0x2F, 0xC3] = .ok q ∧
      StringField.lsDirectory.value q = some [0x2F, 0xC3] := by
  obtain ⟨hreturns, hfield⟩ := string_survives_iff Reference.libraries_documented
    { id := 7, payload := .ls { directory := [0x2F, 0xC3] } } .lsDirectory [0x2F, 0xC3] (by decide)
    rfl rfl
  obtain ⟨q, hq⟩ := hreturns (show 2 < 2 ^ 31 by decide)
  exact ⟨q, hq, (hfield q hq).mpr (by decide)⟩

/-- **A zero byte ends the string**: `strlen` stops there. -/
theorem zero_byte_truncates :
    ¬ ∀ (p q : Packet Reference.libraries.arrow.Table) (field : StringField) (s buffer : Bytes),
      s.length < 2 ^ 31 → field.value p = some s →
      encode Reference.libraries p.payload p.id = .ok buffer →
      decode Reference.libraries buffer = .ok q → field.value q = some s := by
  intro h
  have hpayload := h { id := 7, payload := .standard { payload := [0x61, 0, 0x62] } }
    { id := 7, payload := .standard { payload := [0x61] } } .standardPayload [0x61, 0, 0x62]
    [0x30, 10, 2, 1, 7, 0xA0, 5, 0x30, 3, 4, 1, 0x61] (by decide) rfl rfl rfl
  cases hpayload

end Ttp2
