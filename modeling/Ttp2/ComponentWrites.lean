import Ttp2.Asn1Echo

/-! # The writes of a packet's components, as data

`encode` of an alternative without a list is one choice and then one call of
a writing helper for each component (`encodeTree_eq_writes`). A write leaves
the other components alone, so what the tree has under a name in the end is
what the one write of that name left there (`Framed.writeAll`). -/
namespace Ttp2
open Lib TwosComplement Asn1Helpers Packet Encode

/-- A call of one of the three `asn1EncodePayload` helpers for a component. -/
inductive ComponentWrite where
  | string (name : String) (payload : Bytes)
  | int (name : String) (payload : Int32)
  | buffer (name : String) (data : Asn1Value) (size : Int32)

namespace ComponentWrite

def name : ComponentWrite → String
  | string name _ => name
  | int name _ => name
  | buffer name _ _ => name

/-- What the component is in the schema. -/
def type : ComponentWrite → Asn1Type
  | string _ _ => .octetString
  | int _ _ => .integer
  | buffer _ _ _ => .octetString

def write (lib : Libtasn1) (n : lib.Node) : ComponentWrite → lib.Node
  | string name payload => asn1EncodePayloadString lib payload n name
  | int name payload => asn1EncodePayloadInt lib payload n name
  | buffer name data size => asn1EncodePayloadBuffer lib data size n name

/-- The `asn1_write_value` call behind a helper call. -/
theorem write_eq (w : ComponentWrite) : ∃ v len, ∀ (lib : Libtasn1) (n : lib.Node),
    w.write lib n = (lib.writeValue n w.name v len).2 := by
  cases w with
  | string name payload => exact ⟨cStr payload, Int32.ofNat (strlen payload), fun _ _ => rfl⟩
  | int name payload => exact ⟨.text (toString payload.toInt), 0, fun _ _ => rfl⟩
  | buffer name data size => exact ⟨data, size, fun _ _ => rfl⟩

end ComponentWrite

def writeAll (lib : Libtasn1) (ws : List ComponentWrite) (n : lib.Node) : lib.Node :=
  ws.foldl (fun n w => w.write lib n) n

@[simp] theorem writeAll_nil (lib : Libtasn1) (n : lib.Node) : writeAll lib [] n = n := rfl

@[simp] theorem writeAll_cons (lib : Libtasn1) (w : ComponentWrite) (ws : List ComponentWrite)
    (n : lib.Node) : writeAll lib (w :: ws) n = writeAll lib ws (w.write lib n) := rfl

/-! ## The writes of each alternative -/

/-- The name of the alternative a payload holds. -/
def Packet.PayloadVariants.altName {T : Type} : PayloadVariants T → String
  | .standard _ => "standard"
  | .file _ => "file"
  | .viewportRequest _ => "viewportRequest"
  | .viewport _ => "viewport"
  | .tqlQuery _ => "tqlQuery"
  | .error _ => "error"
  | .universal _ => "universal"
  | .ls _ => "ls"
  | .lsSolution _ => "lsSolution"

theorem altName_mem {T : Type} (payload : PayloadVariants T) :
    payload.altName ∈ packetsAsn1.map Prod.fst := by
  cases payload <;> simp [packetsAsn1, PayloadVariants.altName]

/-- How the exception of a refused choice names the alternative. -/
def Packet.PayloadVariants.altWhat {T : Type} : PayloadVariants T → String
  | .viewportRequest _ => "viewport request"
  | .tqlQuery _ => "tql query"
  | payload => payload.altName

/-- The components of a payload, in the order they are written; of a listing there are none. -/
def componentWrites (arrow : Arrow) :
    PayloadVariants arrow.Table → Except Exception (List ComponentWrite)
  | .standard s => .ok [.string "payload.standard.payload" s.payload]
  | .file f => do
    let buffer ← tableToBuffer arrow f.payload
    return [.string "payload.file.filePath" f.filePath, .int "payload.file.start" f.start,
      .int "payload.file.end" f.end_] ++
      if 0 < buffer.length then
        [.buffer "payload.file.payload" (.memory buffer) (Int32.ofNat buffer.length)]
      else []
  | .viewportRequest v => .ok [.int "payload.viewportRequest.xStart" v.xStart,
      .int "payload.viewportRequest.xEnd" v.xEnd, .int "payload.viewportRequest.yStart" v.yStart,
      .int "payload.viewportRequest.yEnd" v.yEnd]
  | .viewport v => do
    let buffer ← tableToBuffer arrow v.payload
    return [.int "payload.viewport.xStart" v.xStart, .int "payload.viewport.xEnd" v.xEnd,
      .int "payload.viewport.yStart" v.yStart, .int "payload.viewport.yEnd" v.yEnd,
      .buffer "payload.viewport.payload" (.memory buffer) (Int32.ofNat buffer.length)]
  | .tqlQuery q => .ok [.string "payload.tqlQuery.query" q.query]
  | .error e => .ok [.int "payload.error.code" e.code, .string "payload.error.message" e.message]
  | .universal u => .ok [.int "payload.universal.type" u.type,
      .buffer "payload.universal.bytes" (vectorData u.bytes) (Int32.ofNat u.bytes.length)]
  | .ls l => .ok [.string "payload.ls.directory" l.directory]
  | .lsSolution _ => .ok []

variable {L : Libraries}

/-- The tree of an alternative without a list: the id, the choice, the components. -/
theorem encodeTree_eq_writes {payload : PayloadVariants L.arrow.Table} (id : Int32)
    (hls : ∀ l, payload ≠ .lsSolution l) :
    encodeTree L payload id = (do
      let packet ← chooseAlternative L (asn1EncodePayloadInt L.asn1 id L.asn1.createElement "id")
        payload.altName payload.altWhat
      let writes ← componentWrites L.arrow payload
      return writeAll L.asn1 writes packet) := by
  cases payload with
  | file f =>
    simp only [encodeTree, encodeFile, componentWrites]
    cases tableToBuffer L.arrow f.payload with
    | error e => rfl
    | ok b =>
      refine bind_congr fun packet => ?_
      by_cases hb : 0 < b.length
      · simp only [bind, Except.bind, hb, if_true]
        rfl
      · simp only [bind, Except.bind, hb, if_false]
        rfl
  | viewport v =>
    simp only [encodeTree, encodeViewport, componentWrites]
    cases tableToBuffer L.arrow v.payload <;> rfl
  | lsSolution l => exact absurd rfl (hls l)
  | standard s => rfl
  | viewportRequest v => rfl
  | tqlQuery q => rfl
  | error e => rfl
  | universal u => rfl
  | ls l => rfl

/-- Each component is written once at most, as what the schema has it as and in its order. -/
theorem componentWrites_fields {arrow : Arrow} {payload : PayloadVariants arrow.Table}
    {ws : List ComponentWrite} (h : componentWrites arrow payload = .ok ws)
    (hls : ∀ l, payload ≠ .lsSolution l) :
    ∃ fields, packetsAsn1.lookup payload.altName = some fields ∧
      (ws.map fun w => (w.name, w.type)) <+:
        fields.map fun f => (fieldName payload.altName f.1, f.2) := by
  cases payload with
  | file f =>
    simp only [componentWrites] at h
    cases hb : tableToBuffer arrow f.payload with
    | error e => rw [hb] at h; cases h
    | ok b =>
      rw [hb] at h
      cases h
      refine ⟨_, rfl, ?_⟩
      split
      · exact List.prefix_rfl
      · exact List.prefix_append _ [("payload.file.payload", Asn1Type.octetString)]
  | viewport v =>
    simp only [componentWrites] at h
    cases hb : tableToBuffer arrow v.payload with
    | error e => rw [hb] at h; cases h
    | ok b =>
      rw [hb] at h
      cases h
      exact ⟨_, rfl, List.prefix_rfl⟩
  | lsSolution l => exact absurd rfl (hls l)
  | standard s => cases h; exact ⟨_, rfl, List.prefix_rfl⟩
  | viewportRequest v => cases h; exact ⟨_, rfl, List.prefix_rfl⟩
  | tqlQuery q => cases h; exact ⟨_, rfl, List.prefix_rfl⟩
  | error e => cases h; exact ⟨_, rfl, List.prefix_rfl⟩
  | universal u => cases h; exact ⟨_, rfl, List.prefix_rfl⟩
  | ls l => cases h; exact ⟨_, rfl, List.prefix_rfl⟩

/-! ## Each name is written once -/

/-- The names are components of the alternative, none twice. -/
structure Writable (alt : String) (ws : List ComponentWrite) : Prop where
  nodup : (ws.map (·.name)).Nodup
  component : ∀ w ∈ ws, ∃ fields f, packetsAsn1.lookup alt = some fields ∧ f ∈ fields ∧
    f.2 ≠ .sequenceOfUtf8String ∧ w.name = fieldName alt f.1

theorem componentWrites_writable {arrow : Arrow} {payload : PayloadVariants arrow.Table}
    {ws : List ComponentWrite} (h : componentWrites arrow payload = .ok ws)
    (hls : ∀ l, payload ≠ .lsSolution l) : Writable payload.altName ws := by
  obtain ⟨fields, hf, hstart⟩ := componentWrites_fields h hls
  have hnodup : ∀ a ∈ packetsAsn1, (a.2.map fun f => fieldName a.1 f.1).Nodup := by decide +kernel
  have hlist : ∀ a ∈ packetsAsn1, a.1 ≠ "lsSolution" → ∀ f ∈ a.2, f.2 ≠ .sequenceOfUtf8String := by
    decide
  have hmem := mem_of_lookup hf
  have halt : payload.altName ≠ "lsSolution" := by
    cases payload <;> simp [PayloadVariants.altName] at hls ⊢
  have hnames := (hstart.map Prod.fst).sublist
  rw [List.map_map, List.map_map] at hnames
  refine ⟨(hnodup _ hmem).sublist hnames, fun w hw => ?_⟩
  obtain ⟨f, hfield, hf'⟩ := List.mem_map.mp (hstart.subset (List.mem_map_of_mem hw))
  obtain ⟨hname, -⟩ := Prod.mk.inj hf'
  exact ⟨fields, f, hf, hfield, hlist _ hmem halt f hfield, hname.symm⟩

theorem componentWrites_typed {arrow : Arrow} {payload : PayloadVariants arrow.Table}
    {ws : List ComponentWrite} (h : componentWrites arrow payload = .ok ws)
    (hls : ∀ l, payload ≠ .lsSolution l) :
    ∀ w ∈ ws, elementType (some payload.altName) w.name = some w.type := by
  intro w hw
  obtain ⟨fields, hf, hstart⟩ := componentWrites_fields h hls
  obtain ⟨f, hfield, hf'⟩ := List.mem_map.mp (hstart.subset (List.mem_map_of_mem hw))
  obtain ⟨hname, htype⟩ := Prod.mk.inj hf'
  rw [← hname, ← htype]
  exact (elementType_field hf hfield).2

section Written
variable {alt : String} {w : ComponentWrite} {ws : List ComponentWrite}

theorem Writable.tail (h : Writable alt (w :: ws)) :
    Writable alt ws ∧ w.name ∉ ws.map (·.name) := by
  obtain ⟨hnew, hnodup⟩ := List.nodup_cons.mp h.nodup
  exact ⟨⟨hnodup, fun w' hw' => h.component w' (List.mem_cons_of_mem _ hw')⟩, hnew⟩

theorem Writable.scalar (h : Writable alt ws) (hw : w ∈ ws) :
    w.name ≠ "id" ∧ w.name ≠ "payload" ∧
      elementType (some alt) w.name ≠ some .sequenceOfUtf8String := by
  obtain ⟨fields, f, hf, hmem, hty, hname⟩ := h.component w hw
  obtain ⟨hid, htype⟩ := elementType_field hf hmem
  rw [hname]
  exact ⟨hid, fieldName_ne_payload alt f.1, by rw [htype]; simpa using hty⟩

theorem Writable.id_not_mem (h : Writable alt ws) : "id" ∉ ws.map (·.name) := by
  intro hmem
  obtain ⟨w, hw, hname⟩ := List.mem_map.mp hmem
  exact (h.scalar hw).1 hname

/-- A component without a value leaves the tree incomplete. -/
theorem Writable.incomplete {lib : Libtasn1} {n : lib.Node} (h : Writable alt ws) (hw : w ∈ ws)
    (hc : lib.chosen n = some alt) (hnone : lib.stored n w.name = none) : ¬ lib.Complete n := by
  rintro ⟨-, alt', fields', hc', hf', hall⟩
  cases hc.symm.trans hc'
  obtain ⟨fields, f, hf, hmem, hty, hname⟩ := h.component w hw
  cases hf.symm.trans hf'
  have hsome := hall f hmem
  rw [hname] at hnone
  obtain ⟨field, ty⟩ := f
  cases ty with
  | sequenceOfUtf8String => exact hty rfl
  | integer => simp only [hnone, Option.isSome_none, Bool.false_eq_true] at hsome
  | octetString => simp only [hnone, Option.isSome_none, Bool.false_eq_true] at hsome

/-! ## A write leaves the rest alone -/

variable {lib : Libtasn1} {n : lib.Node}

/-- What one write of several leaves alone. -/
theorem Libtasn1.Framed.write (h : lib.Framed) (hw : Writable alt ws) (hmem : w ∈ ws)
    (hc : lib.chosen n = some alt) : lib.chosen (w.write lib n) = some alt ∧
      ∀ name, name ≠ w.name → lib.stored (w.write lib n) name = lib.stored n name := by
  obtain ⟨-, hp, hty⟩ := hw.scalar hmem
  obtain ⟨v, len, hwrite⟩ := w.write_eq
  rw [hwrite]
  exact ⟨(h.chosen n w.name v len hp).trans hc,
    fun name hne => (h.frame n w.name v len name hp hne fun _ => by rwa [hc]).1⟩

/-- **Each component is as its own write left it**, and what is not written is as it was. -/
theorem Libtasn1.Framed.writeAll (h : lib.Framed) (hw : Writable alt ws)
    (hc : lib.chosen n = some alt) : lib.chosen (writeAll lib ws n) = some alt ∧
      (∀ name, name ∉ ws.map (·.name) → lib.stored (writeAll lib ws n) name = lib.stored n name) ∧
      ∀ w ∈ ws, ∃ m, lib.chosen m = some alt ∧ lib.stored m w.name = lib.stored n w.name ∧
        lib.stored (writeAll lib ws n) w.name = lib.stored (w.write lib m) w.name := by
  induction ws generalizing n with
  | nil => exact ⟨hc, fun _ _ => rfl, by simp⟩
  | cons w ws ih =>
    obtain ⟨hc1, hframe⟩ := h.write hw (List.mem_cons_self ..) hc
    obtain ⟨htail, hnew⟩ := hw.tail
    obtain ⟨hc2, hkeep, heach⟩ := ih htail hc1
    refine ⟨hc2, ?_, ?_⟩
    · intro name hname
      rw [List.map_cons, List.mem_cons, not_or] at hname
      exact (hkeep name hname.2).trans (hframe name hname.1)
    · intro w' hw'
      rcases List.mem_cons.mp hw' with rfl | hw'
      · exact ⟨n, hc, rfl, hkeep _ hnew⟩
      · obtain ⟨m, hcm, hm, hvalue⟩ := heach w' hw'
        have hne : w'.name ≠ w.name := fun he => hnew (he ▸ List.mem_map_of_mem hw')
        exact ⟨m, hcm, hm.trans (hframe _ hne), hvalue⟩

end Written

/-! ## What the writes store -/

/-- What a string component stores, if its length is an `int`. -/
def stringFact (name : String) (s : Bytes) : List (String × Bytes) :=
  if s.length < 2 ^ 31 then [(name, wireString s)] else []

@[simp] theorem mem_map_stringFact {name name' : String} {s : Bytes} :
    name' ∈ (stringFact name s).map Prod.fst ↔ s.length < 2 ^ 31 ∧ name' = name := by
  unfold stringFact
  split <;> simp_all

theorem mem_stringFact {name : String} {s : Bytes} (h : s.length < 2 ^ 31) :
    (name, wireString s) ∈ stringFact name s := by
  rw [stringFact, if_pos h]
  exact List.mem_singleton_self _

namespace ComponentWrite

/-- What a write stores whatever becomes of the others; of a buffer that is left open. -/
def facts : ComponentWrite → List (String × Bytes)
  | string name payload => stringFact name payload
  | int name payload => [(name, intOctets payload.toInt)]
  | buffer _ _ _ => []

theorem name_of_mem_facts {w : ComponentWrite} {name : String}
    (h : name ∈ w.facts.map Prod.fst) : name = w.name := by
  cases w with
  | string name' s => exact (mem_map_stringFact.mp h).2
  | int name' v => exact List.mem_singleton.mp h
  | buffer name' data size => cases h

end ComponentWrite

section Stored
variable {lib : Libtasn1} {m : lib.Node} {alt name : String} {facts : List (String × Bytes)}

/-- A write elsewhere keeps what is stored and the choice, whatever its status. -/
theorem Stores.keep (h : lib.Documented) (hs : Stores lib m alt facts) {v : Asn1Value}
    {len : Int32} (hp : name ≠ "payload") (hnew : name ∉ facts.map Prod.fst)
    (hv : v = .null → elementType (some alt) name ≠ some .sequenceOfUtf8String) :
    Stores lib (lib.writeValue m name v len).2 alt facts := by
  refine ⟨(h.write_chosen m name v len hp).trans hs.chosen, ?_⟩
  intro f hf
  have hne : f.1 ≠ name := fun he => hnew (List.mem_map.mpr ⟨f, hf, he⟩)
  rw [← hs.chosen] at hv
  exact ((h.write_frame m name v len f.1 hp hne hv).1).trans (hs.stored f hf)

/-- One helper call adds what its component stores. -/
theorem Stores.component (h : lib.Documented) (hs : Stores lib m alt facts) (w : ComponentWrite)
    (ht : elementType (some alt) w.name = some w.type) (hp : w.name ≠ "payload")
    (hnew : w.name ∉ facts.map Prod.fst) : Stores lib (w.write lib m) alt (w.facts ++ facts) := by
  cases w with
  | string name s =>
    show Stores lib (asn1EncodePayloadString lib s m name) alt (stringFact name s ++ facts)
    unfold stringFact
    split
    · rename_i hlt
      exact hs.writeString h name s hlt ht hp hnew
    · exact hs.keep h hp hnew (fun he => nomatch he)
  | int name v => exact hs.writeInt h name v ht hp hnew
  | buffer name data size =>
    have htype : elementType (some alt) name = some .octetString := ht
    exact hs.keep h hp hnew (fun _ => by rw [htype]; simp)

/-- All helper calls of an alternative add what each of its components stores. -/
theorem Stores.writeAll (h : lib.Documented) {ws : List ComponentWrite} (hw : Writable alt ws)
    (ht : ∀ w ∈ ws, elementType (some alt) w.name = some w.type)
    (hnew : ∀ w ∈ ws, w.name ∉ facts.map Prod.fst) (hs : Stores lib m alt facts) :
    Stores lib (writeAll lib ws m) alt (ws.reverse.flatMap (·.facts) ++ facts) := by
  induction ws generalizing m facts with
  | nil => exact hs
  | cons w ws ih =>
    obtain ⟨htail, hfresh⟩ := hw.tail
    have hmem : w ∈ w :: ws := List.mem_cons_self ..
    have hs' := hs.component h w (ht w hmem) (hw.scalar hmem).2.1 (hnew w hmem)
    have hnew' : ∀ w' ∈ ws, w'.name ∉ (w.facts ++ facts).map Prod.fst := by
      intro w' hw' hin
      rw [List.map_append, List.mem_append] at hin
      rcases hin with hin | hin
      · rw [← ComponentWrite.name_of_mem_facts hin] at hfresh
        exact hfresh (List.mem_map_of_mem hw')
      · exact hnew w' (List.mem_cons_of_mem _ hw') hin
    have hall := ih htail (fun w' hw' => ht w' (List.mem_cons_of_mem _ hw')) hnew' hs'
    rw [List.reverse_cons, List.flatMap_append, List.flatMap_singleton, List.append_assoc]
    exact hall

end Stored

/-- The tree of an alternative without a list comes from one that has the id and nothing else. -/
theorem encodeTree_eq_writeAll (h : L.asn1.Documented) {payload : PayloadVariants L.arrow.Table}
    (id : Int32) {ws : List ComponentWrite} (hls : ∀ l, payload ≠ .lsSolution l)
    (hws : componentWrites L.arrow payload = .ok ws) :
    ∃ n, encodeTree L payload id = .ok (writeAll L.asn1 ws n) ∧
      Stores L.asn1 n payload.altName [("id", intOctets id.toInt)] ∧
        ∀ name, name ≠ "id" → L.asn1.stored n name = none := by
  obtain ⟨fields, hf, -⟩ := componentWrites_fields hws hls
  obtain ⟨n, hn, hs, -, hempty⟩ := start_stores h id payload.altName payload.altWhat
    (by rw [hf]; rfl)
  refine ⟨n, ?_, hs, hempty⟩
  rw [encodeTree_eq_writes id hls, hn, hws]
  rfl

theorem encodeTree_eq_ok {payload : PayloadVariants L.arrow.Table}
    {id : Int32} {n : L.asn1.Node} (hls : ∀ l, payload ≠ .lsSolution l)
    (he : encodeTree L payload id = .ok n) : ∃ ws, componentWrites L.arrow payload = .ok ws := by
  cases hws : componentWrites L.arrow payload with
  | ok ws => exact ⟨ws, rfl⟩
  | error e =>
    rw [encodeTree_eq_writes id hls, hws] at he
    cases hn : chooseAlternative L (asn1EncodePayloadInt L.asn1 id L.asn1.createElement "id")
      payload.altName payload.altWhat with
    | error e' => rw [hn] at he; cases he
    | ok m => rw [hn] at he; cases he

end Ttp2
