import Ttp2.FieldSurvival

/-! # Integers of frames from elsewhere

A frame may carry an INTEGER of any number of octets. `decode` shifts them all
into 32 bits: a value that is not negative comes out as itself exactly when an
`int` can hold it. -/
namespace Ttp2
open Lib Octets TwosComplement Asn1Helpers Packet Encode Decode

/-- The alternative that has the field; none for the id, which every packet has. -/
def IntegerField.alternative : IntegerField → Option String
  | .id => none
  | .fileStart | .fileEnd => some "file"
  | .viewportRequest _ => some "viewportRequest"
  | .viewport _ => some "viewport"
  | .errorCode => some "error"
  | .universalType => some "universal"

/-- A packet of this alternative has the field. -/
def IntegerField.In (field : IntegerField) (alt : String) : Prop :=
  ∀ a ∈ field.alternative, a = alt

/-- The element with the table, in the alternatives that have one. -/
def tableKey (alt : String) : Option String :=
  if alt = "file" then some "payload.file.payload"
  else if alt = "viewport" then some "payload.viewport.payload"
  else none

variable {L : Libraries} {m : L.asn1.Node} {q : Packet L.arrow.Table} {alt : String}

/-- The tree has a table Arrow does not read; `decode` throws then. -/
def TableRefused (L : Libraries) (m : L.asn1.Node) (alt : String) : Prop :=
  ∃ key ∈ tableKey alt, ∃ e,
    bufferToTable L.arrow (asn1DecodePayloadBuffer L.asn1 m key) = .error e

/-- What `decode` returns for an accepted frame. -/
theorem decode_accepted (h : L.asn1.Documented) {derBuffer : Bytes}
    (hm : L.asn1.derDecoding derBuffer = some m) (hc : L.asn1.chosen m = some alt)
    (hl : (packetsAsn1.lookup alt).isSome) :
    decode L derBuffer = (decodePayload L m alt).map fun payload =>
      { id := asn1DecodePayloadInt L.asn1 m "id", payload } := by
  have hshort : ∀ name, (packetsAsn1.lookup name).isSome → name.length < 64 := by
    intro name hname
    obtain ⟨fields, hf⟩ := Option.isSome_iff_exists.mp hname
    have hall : ∀ a ∈ packetsAsn1, a.1.length < 64 := by decide
    exact hall _ (mem_of_lookup hf)
  unfold decode
  rw [h.array2tree, hm]
  dsimp only
  rw [h.read_choice m alt 64 hc (hshort alt hl), Option.getD_some]
  cases decodePayload L m alt <;> rfl

theorem altName_of_decodePayload {name : String} {payload : PayloadVariants L.arrow.Table}
    (h : decodePayload L m name = .ok payload) : name = payload.altName := by
  unfold decodePayload at h
  split_ifs at h with h1 h2 h3 h4 h5 h6 h7 h8 h9
  · cases h
    exact h1
  · obtain ⟨file, -, rfl⟩ := map_eq_ok h
    exact h2
  · cases h
    exact h3
  · obtain ⟨viewport, -, rfl⟩ := map_eq_ok h
    exact h4
  · cases h
    exact h5
  · cases h
    exact h6
  · cases h
    exact h7
  · cases h
    exact h8
  · cases h
    exact h9

theorem ok_or_error {ε α : Type} (e : Except ε α) :
    (∃ a, e = .ok a) ↔ ¬ ∃ error, e = .error error := by
  cases e <;> simp

theorem decodeFile_ok_iff : (∃ file, decodeFile L m = .ok file) ↔
    ∃ table, bufferToTable L.arrow (asn1DecodePayloadBuffer L.asn1 m "payload.file.payload") =
      .ok table := by
  simp only [decodeFile, bind, Except.bind]
  cases bufferToTable L.arrow (asn1DecodePayloadBuffer L.asn1 m "payload.file.payload") with
  | error e => simp
  | ok table => simp [pure, Except.pure]

theorem decodeViewport_ok_iff : (∃ viewport, decodeViewport L m = .ok viewport) ↔
    ∃ table, bufferToTable L.arrow (asn1DecodePayloadBuffer L.asn1 m "payload.viewport.payload") =
      .ok table := by
  simp only [decodeViewport, bind, Except.bind]
  cases bufferToTable L.arrow (asn1DecodePayloadBuffer L.asn1 m "payload.viewport.payload") with
  | error e => simp
  | ok table => simp [pure, Except.pure]

theorem map_ok_iff {ε α β : Type} (f : α → β) (e : Except ε α) :
    (∃ b, e.map f = .ok b) ↔ ∃ a, e = .ok a := by
  cases e <;> simp [Except.map]

/-- Only a table keeps `decodePayload` from returning. -/
theorem decodePayload_ok_iff (hl : (packetsAsn1.lookup alt).isSome) :
    (∃ payload, decodePayload L m alt = .ok payload) ↔ ¬ TableRefused L m alt := by
  obtain ⟨fields, hf⟩ := Option.isSome_iff_exists.mp hl
  have hmem : alt ∈ packetsAsn1.map Prod.fst :=
    List.mem_map.mpr ⟨_, mem_of_lookup hf, rfl⟩
  have hother : tableKey alt = none → ¬ TableRefused L m alt := by
    rintro hnone ⟨key, hkey, -⟩
    rw [hnone] at hkey
    cases hkey
  have htable : ∀ key, tableKey alt = some key → (TableRefused L m alt ↔
      ∃ e, bufferToTable L.arrow (asn1DecodePayloadBuffer L.asn1 m key) = .error e) := by
    intro key hkey
    simp [TableRefused, hkey]
  simp only [packetsAsn1, List.map_cons, List.map_nil, List.mem_cons, List.not_mem_nil, or_false]
    at hmem
  rcases hmem with rfl | rfl | rfl | rfl | rfl | rfl | rfl | rfl | rfl
  · exact iff_of_true ⟨_, rfl⟩ (hother rfl)
  · rw [htable _ rfl, ← ok_or_error, ← decodeFile_ok_iff]
    exact map_ok_iff _ _
  · exact iff_of_true ⟨_, rfl⟩ (hother rfl)
  · rw [htable _ rfl, ← ok_or_error, ← decodeViewport_ok_iff]
    exact map_ok_iff _ _
  · exact iff_of_true ⟨_, rfl⟩ (hother rfl)
  · exact iff_of_true ⟨_, rfl⟩ (hother rfl)
  · exact iff_of_true ⟨_, rfl⟩ (hother rfl)
  · exact iff_of_true ⟨_, rfl⟩ (hother rfl)
  · exact iff_of_true ⟨_, rfl⟩ (hother rfl)

theorem IntegerField.isSome_value {field : IntegerField} (h : field.In q.payload.altName) :
    (field.value q).isSome := by
  obtain ⟨id, payload⟩ := q
  cases field <;> cases payload <;>
    first
    | rfl
    | simp [In, alternative, PayloadVariants.altName] at h

/-- The octets of an element, read into an `int`. -/
theorem toInt_bytesToInt_eq_iff {octets : Bytes} (hv : 0 ≤ ofTwos octets) :
    (bytesToInt octets octets.length).toInt = ofTwos octets ↔ ofTwos octets < 2 ^ 31 := by
  have hread := toInt_of_toNat (toNat_bytesToInt octets)
  have hvalue := ofTwos_of_nonneg hv
  rw [hread, hvalue]
  split <;> omega

/-- **Which integers of a foreign frame arrive.** In a frame libtasn1 accepts,
an integer that is not negative is decoded to its value, or the frame is
refused, exactly if the value fits an `int` or the frame's table cannot be
read. -/
theorem foreign_integer_iff (h : L.asn1.Documented) {derBuffer : Bytes}
    (hm : L.asn1.derDecoding derBuffer = some m) (hc : L.asn1.chosen m = some alt)
    (hl : (packetsAsn1.lookup alt).isSome) (field : IntegerField) (hfield : field.In alt)
    {octets : Bytes} (hs : L.asn1.stored m field.key = some octets) (hv : 0 ≤ ofTwos octets) :
    (∀ q, decode L derBuffer = .ok q → ∃ n, field.value q = some n ∧ n.toInt = ofTwos octets) ↔
      ofTwos octets < 2 ^ 31 ∨ TableRefused L m alt := by
  have hdecode := decode_accepted h hm hc hl
  have hread : ∀ q, decode L derBuffer = .ok q →
      field.value q = some (bytesToInt octets octets.length) := by
    intro q hq
    rw [hdecode] at hq
    obtain ⟨payload, hp, rfl⟩ := map_eq_ok hq
    have hname := altName_of_decodePayload hp
    rw [hname, decodePayload_altName] at hp
    cases hname
    have hsome := IntegerField.isSome_value (q := { payload }) hfield
    rw [IntegerField.read (p := { payload }) rfl hp hsome, asn1DecodePayloadInt_of_stored h hs]
  constructor
  · intro hall
    by_cases hr : TableRefused L m alt
    · exact .inr hr
    · obtain ⟨payload, hp⟩ := (decodePayload_ok_iff hl).mpr hr
      rw [hp] at hdecode
      obtain ⟨n, hn, hvalue⟩ := hall _ hdecode
      rw [hread _ hdecode] at hn
      cases hn
      exact .inl ((toInt_bytesToInt_eq_iff hv).mp hvalue)
  · rintro (hlt | hr) q hq
    · exact ⟨_, hread q hq, (toInt_bytesToInt_eq_iff hv).mpr hlt⟩
    · rw [hdecode] at hq
      obtain ⟨payload, hp, -⟩ := map_eq_ok hq
      exact absurd hr ((decodePayload_ok_iff hl).mp ⟨payload, hp⟩)

/-- The code 200 of an error, with a zero octet in front. -/
theorem foreign_error_code :
    (∀ q, decode Reference.libraries [0x30, 14, 2, 1, 7, 0xA5, 9, 0x30, 7, 2, 2, 0, 200, 4, 1, 0x78] =
        .ok q → ∃ n, IntegerField.errorCode.value q = some n ∧ n.toInt = ofTwos [0, 200]) ↔
      ofTwos [0, 200] < 2 ^ 31 ∨ TableRefused Reference.libraries
        { id := some [7], chosen := some "error",
          fields := Function.update (Function.update (fun _ => none) "payload.error.code"
            (some [0, 200])) "payload.error.message" (some [0x78]) } "error" :=
  foreign_integer_iff Reference.asn1_documented rfl rfl rfl .errorCode
    (fun a ha => (Option.some.inj ha).symm) rfl (by decide)

/-- **An id of 2^32 - 1 comes out as the sentinel -1.** -/
theorem foreign_id_becomes_sentinel :
    ¬ ∀ (derBuffer octets : Bytes) (m : Reference.libraries.asn1.Node) (alt : String)
        (field : IntegerField), Reference.asn1.derDecoding derBuffer = some m →
      Reference.asn1.chosen m = some alt → field.In alt →
      Reference.asn1.stored m field.key = some octets → 0 ≤ ofTwos octets →
      ∀ q, decode Reference.libraries derBuffer = .ok q →
        ∃ n, field.value q = some n ∧ n.toInt = ofTwos octets := by
  intro h
  obtain ⟨n, hn, hvalue⟩ := h [0x30, 14, 2, 5, 0, 255, 255, 255, 255, 0xA7, 5, 0x30, 3, 4, 1, 0x2F]
    [0, 255, 255, 255, 255]
    { id := some [0, 255, 255, 255, 255], chosen := some "ls",
      fields := Function.update (fun _ => none) "payload.ls.directory" (some [0x2F]) } "ls" .id
    rfl rfl (fun a ha => by cases ha) rfl (by decide) { id := -1, payload := .ls { directory := [0x2F] } }
    rfl
  cases hn
  exact absurd hvalue (by decide)

end Ttp2
