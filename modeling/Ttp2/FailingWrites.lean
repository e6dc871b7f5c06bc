import Ttp2.CodedPacket
import Ttp2.Reference.Precise

/-! # Writes that fail while a packet is encoded

Some of the `asn1_write_value` calls of one `encode` fail and leave the
structure as it was. A component or an element that goes without its value
stops the coding. An element that was never appended does not: the helper
returns early and `encode` goes on with the shorter list. -/
namespace Ttp2
open Lib TwosComplement Asn1Helpers Packet Encode

/-- libtasn1 with the calls of `asn1_write_value` counted from 0, of which
those that `fails` picks fail and leave the structure as it was. -/
@[reducible] def Libtasn1.failing (lib : Libtasn1) (fails : Nat → Bool) : Libtasn1 where
  Node := lib.Node × Nat
  array2tree := lib.array2tree
  createElement := (lib.createElement, 0)
  writeValue n name v len :=
    if fails n.2 then (.other, n.1, n.2 + 1)
    else ((lib.writeValue n.1 name v len).1, (lib.writeValue n.1 name v len).2, n.2 + 1)
  readValue n := lib.readValue n.1
  readChoice n := lib.readChoice n.1
  numberOfElements n := lib.numberOfElements n.1
  derCoding n := lib.derCoding n.1
  derDecoding derBuffer := (lib.derDecoding derBuffer).map fun n => (n, 0)
  stored n := lib.stored n.1
  chosen n := lib.chosen n.1
  elements n := lib.elements n.1
  derSize n := lib.derSize n.1
  negative := lib.negative

@[reducible] def Libraries.failing (L : Libraries) (fails : Nat → Bool) : Libraries where
  asn1 := L.asn1.failing fails
  arrow := L.arrow
  unwrittenTypeName := L.unwrittenTypeName

section Calls
variable {lib : Libtasn1} {fails : Nat → Bool} (n : lib.Node) {k : Nat}

theorem failing_write_of_fails (hk : fails k = true) (name : String) (v : Asn1Value) (len : Int32) :
    (lib.failing fails).writeValue (n, k) name v len = (.other, n, k + 1) := if_pos hk

theorem failing_write_of_not (hk : fails k = false) (name : String) (v : Asn1Value) (len : Int32) :
    (lib.failing fails).writeValue (n, k) name v len =
      ((lib.writeValue n name v len).1, (lib.writeValue n name v len).2, k + 1) :=
  if_neg (by simp [hk])

theorem Libtasn1.Framed.failing (h : lib.Framed) (fails : Nat → Bool) :
    (lib.failing fails).Framed where
  frame := by
    intro (n, k) name v len name' hp hne hv
    cases hk : fails k with
    | true =>
      rw [failing_write_of_fails n hk]
      exact ⟨rfl, rfl⟩
    | false =>
      rw [failing_write_of_not n hk]
      exact h.frame n name v len name' hp hne hv
  chosen := by
    intro (n, k) name v len hp
    cases hk : fails k with
    | true => rw [failing_write_of_fails n hk]
    | false =>
      rw [failing_write_of_not n hk]
      exact h.chosen n name v len hp

end Calls

variable {L : Libraries} {fails : Nat → Bool} {id : Int32}

/-! ## What becomes of the coding -/

/-- The coding of the tree `encode` comes to code fails only for want of a value. -/
def CodesComplete (L : Libraries) (payload : PayloadVariants L.arrow.Table) (id : Int32) : Prop :=
  ∀ n, encodeTree L payload id = .ok n → L.asn1.Complete n →
    ∃ room, (L.asn1.derCoding n room).status = .success

/-- With these failing calls, `encode` throws `std::invalid_argument` or
returns what it returns without them. -/
def Settled (L : Libraries) (fails : Nat → Bool) (payload : PayloadVariants L.arrow.Table)
    (id : Int32) : Prop :=
  (∃ what, encode (L.failing fails) payload id = .error (.invalidArgument what)) ∨
    ∃ buffer, encode (L.failing fails) payload id = .ok buffer ∧ encode L payload id = .ok buffer

section Coding
variable {payload : PayloadVariants L.arrow.Table} {n : L.asn1.Node} {k : Nat}

theorem derCode_of_incomplete (h : L.asn1.Documented) (hu : L.asn1.Unwritten)
    (hc : ¬ L.asn1.Complete n) : ∃ what, derCode L n = .error (.invalidArgument what) := by
  have hlen := hu.der_reports n hc
  unfold derCode
  dsimp only
  rw [if_neg (by omega), if_pos fun hok => hc (h.der_requires n _ hok).1]
  exact ⟨_, rfl⟩

theorem settled_of_error (ha : L.asn1.array2tree = .ok ()) {what : String}
    (he : encodeTree (L.failing fails) payload id = .error (.invalidArgument what)) :
    Settled L fails payload id := by
  refine .inl ⟨what, ?_⟩
  have ha' : (L.failing fails).asn1.array2tree = .ok () := ha
  unfold encode
  rw [ha']
  simp only [he, bind, Except.bind]

theorem settled_of_incomplete (h : L.asn1.Documented) (hu : L.asn1.Unwritten)
    (he : encodeTree (L.failing fails) payload id = .ok (n, k)) (hc : ¬ L.asn1.Complete n) :
    Settled L fails payload id := by
  obtain ⟨what, hcode⟩ := derCode_of_incomplete h hu hc
  exact .inl ⟨what, (encode_of_tree (L := L.failing fails) h.array2tree he).trans hcode⟩

theorem settled_of_no_id (h : L.asn1.Documented) (hu : L.asn1.Unwritten)
    (he : encodeTree (L.failing fails) payload id = .ok (n, k))
    (hnone : L.asn1.stored n "id" = none) : Settled L fails payload id := by
  refine settled_of_incomplete h hu he fun hc => ?_
  have hsome := hc.1
  rw [hnone] at hsome
  cases hsome

theorem settled_of_same (h : L.asn1.Documented) (hu : L.asn1.Unwritten)
    (hcoded : CodesComplete (L.failing fails) payload id)
    (he : encodeTree (L.failing fails) payload id = .ok (n, k))
    (hsame : encodeTree L payload id = .ok n) : Settled L fails payload id := by
  by_cases hc : L.asn1.Complete n
  · obtain ⟨room, hroom⟩ := hcoded (n, k) he hc
    obtain ⟨buffer, hcode⟩ := derCode_ok h hc (h.der_requires n room hroom).2.1
    exact .inr ⟨buffer, (encode_of_tree (L := L.failing fails) h.array2tree he).trans hcode,
      (encode_of_tree h.array2tree hsame).trans hcode⟩
  · exact settled_of_incomplete h hu he hc

end Coding

/-! ## The id and the choice -/

/-- A tree the choice was made in, before the alternative's components are written. -/
structure Chosen (lib : Libtasn1) (n : lib.Node) (alt : String) : Prop where
  chosen : lib.chosen n = some alt
  elements : ∀ key, lib.elements n key = 0
  empty : ∀ name, name ≠ "id" → lib.stored n name = none

theorem choose_of_refused {packet m : L.asn1.Node} {alt : String} (what : String)
    (hw : L.asn1.writeValue packet "payload" (.text alt) 0 = (.other, m)) :
    chooseAlternative L packet alt what =
      .error (.invalidArgument s!"ASN1 set payload as {what} failed!") := by
  unfold chooseAlternative
  rw [hw]

theorem choose_of_accepted {packet m : L.asn1.Node} {alt : String} (what : String)
    (hw : L.asn1.writeValue packet "payload" (.text alt) 0 = (.success, m)) :
    chooseAlternative L packet alt what = .ok m := by
  unfold chooseAlternative
  rw [hw]

/-- The write of the choice succeeds where none was made, and keeps the id. -/
theorem choice_written (h : L.asn1.Documented) {m : L.asn1.Node} {alt : String}
    (hl : (packetsAsn1.lookup alt).isSome) (hm : L.asn1.chosen m = none) :
    ∃ n, L.asn1.writeValue m "payload" (.text alt) 0 = (.success, n) ∧ Chosen L.asn1 n alt ∧
      L.asn1.stored n "id" = L.asn1.stored m "id" := by
  obtain ⟨hok, hchosen, hcount⟩ := h.write_choice m alt 0 hm hl
  have hempty : ∀ name, name ≠ "id" → L.asn1.stored (L.asn1.writeValue m "payload" (.text alt) 0).2
      name = none := fun name hne => h.choice_empty m alt 0 name hm hl hne
  exact ⟨_, Prod.ext hok rfl, ⟨hchosen, hcount, hempty⟩, h.write_choice_id m _ _⟩

/-- The first two calls: the write of the choice fails and `encode` throws, or
the write of the id fails and the tree has none, or neither does. -/
theorem choose_failing (fails : Nat → Bool) (id : Int32) (h : L.asn1.Documented)
    (hu : L.asn1.Unwritten) (alt what : String) (hl : (packetsAsn1.lookup alt).isSome) :
    let packet := asn1EncodePayloadInt (L.failing fails).asn1 id
      (L.failing fails).asn1.createElement "id"
    (fails 1 = true ∧ ∃ e, chooseAlternative (L.failing fails) packet alt what =
        .error (.invalidArgument e)) ∨
    (fails 1 = false ∧ ∃ n, chooseAlternative (L.failing fails) packet alt what = .ok (n, 2) ∧
      Chosen L.asn1 n alt ∧
      (fails 0 = true ∧ L.asn1.stored n "id" = none ∨ fails 0 = false ∧
        chooseAlternative L (asn1EncodePayloadInt L.asn1 id L.asn1.createElement "id") alt what =
          .ok n ∧ L.asn1.stored n "id" = some (intOctets id.toInt))) := by
  intro packet
  obtain ⟨m, hpacket, hm, hid⟩ : ∃ m : L.asn1.Node, packet = (m, 1) ∧ L.asn1.chosen m = none ∧
      (fails 0 = true ∧ L.asn1.stored m "id" = none ∨ fails 0 = false ∧
        m = asn1EncodePayloadInt L.asn1 id L.asn1.createElement "id") := by
    cases h0 : fails 0 with
    | true =>
      exact ⟨L.asn1.createElement, congrArg Prod.snd (failing_write_of_fails _ h0 "id" _ _),
        h.create_chosen, .inl ⟨rfl, hu.create_id⟩⟩
    | false =>
      exact ⟨_, congrArg Prod.snd (failing_write_of_not _ h0 "id" _ _),
        (h.write_chosen _ "id" _ _ (by simp)).trans h.create_chosen, .inr ⟨rfl, rfl⟩⟩
  rw [hpacket]
  cases h1 : fails 1 with
  | true =>
    exact .inl ⟨rfl, _, choose_of_refused (L := L.failing fails) what
      (failing_write_of_fails m h1 "payload" (.text alt) 0)⟩
  | false =>
    obtain ⟨n, hw, hn, hnid⟩ := choice_written h hl hm
    have hw' := failing_write_of_not m h1 "payload" (.text alt) 0
    rw [hw] at hw'
    refine .inr ⟨rfl, n, choose_of_accepted (L := L.failing fails) what hw', hn, ?_⟩
    rcases hid with ⟨h0, hnone⟩ | ⟨h0, rfl⟩
    · exact .inl ⟨h0, hnid.trans hnone⟩
    · exact .inr ⟨h0, choose_of_accepted what hw,
        hnid.trans (h.write_integer _ "id" id rfl).2⟩

/-! ## Alternatives without a list -/

/-- The components come out as without failing calls, or one of them has no value. -/
theorem writeAll_failing (fails : Nat → Bool) {lib : Libtasn1} (h : lib.Framed) {alt : String}
    {ws : List ComponentWrite} (hw : Writable alt ws) {n : lib.Node} (k : Nat)
    (hc : lib.chosen n = some alt) (hempty : ∀ w ∈ ws, lib.stored n w.name = none) :
    (writeAll (lib.failing fails) ws (n, k)).1 = writeAll lib ws n ∨
      ∃ w ∈ ws, lib.stored (writeAll (lib.failing fails) ws (n, k)).1 w.name = none := by
  induction ws generalizing n k with
  | nil => exact .inl rfl
  | cons w ws ih =>
    obtain ⟨htail, hnew⟩ := hw.tail
    obtain ⟨v, len, hwrite⟩ := w.write_eq
    cases hk : fails k with
    | true =>
      have hsame : w.write (lib.failing fails) (n, k) = (n, k + 1) := by
        rw [hwrite, failing_write_of_fails n hk]
      obtain ⟨-, hkeep, -⟩ := (h.failing fails).writeAll (n := (n, k + 1)) htail hc
      refine .inr ⟨w, List.mem_cons_self .., ?_⟩
      rw [writeAll_cons, hsame]
      exact (hkeep w.name hnew).trans (hempty w (List.mem_cons_self ..))
    | false =>
      have hnext : w.write (lib.failing fails) (n, k) = (w.write lib n, k + 1) := by
        rw [hwrite, hwrite, failing_write_of_not n hk]
      obtain ⟨hc', hframe⟩ := h.write hw (List.mem_cons_self ..) hc
      have hempty' : ∀ w' ∈ ws, lib.stored (w.write lib n) w'.name = none := by
        intro w' hw'
        have hne : w'.name ≠ w.name := by
          intro he
          exact hnew (List.mem_map.mpr ⟨w', hw', he⟩)
        exact (hframe _ hne).trans (hempty w' (List.mem_cons_of_mem _ hw'))
      rw [writeAll_cons, writeAll_cons, hnext]
      rcases ih htail (k + 1) hc' hempty' with hsame | ⟨w', hw', hnone⟩
      · exact .inl hsame
      · exact .inr ⟨w', List.mem_cons_of_mem _ hw', hnone⟩

theorem tableToBuffer_eq_error {arrow : Arrow} {table : arrow.Table} {e : Exception}
    (h : tableToBuffer arrow table = .error e) : ∃ what, e = .invalidArgument what := by
  unfold tableToBuffer at h
  split at h
  · cases h
    exact ⟨_, rfl⟩
  · split at h
    · cases h
      exact ⟨_, rfl⟩
    · cases h

theorem componentWrites_eq_error {arrow : Arrow} {payload : PayloadVariants arrow.Table}
    {e : Exception} (h : componentWrites arrow payload = .error e) :
    ∃ what, e = .invalidArgument what := by
  cases payload with
  | file f =>
    simp only [componentWrites] at h
    cases hb : tableToBuffer arrow f.payload with
    | error e' =>
      rw [hb] at h
      cases h
      exact tableToBuffer_eq_error hb
    | ok b => rw [hb] at h; cases h
  | viewport v =>
    simp only [componentWrites] at h
    cases hb : tableToBuffer arrow v.payload with
    | error e' =>
      rw [hb] at h
      cases h
      exact tableToBuffer_eq_error hb
    | ok b => rw [hb] at h; cases h
  | standard s => cases h
  | viewportRequest v => cases h
  | tqlQuery q => cases h
  | error e => cases h
  | universal u => cases h
  | ls l => cases h
  | lsSolution l => cases h

/-- An alternative without a list is sent whole or not at all. -/
theorem settled_of_components (h : L.asn1.Documented) (hu : L.asn1.Unwritten)
    {payload : PayloadVariants L.arrow.Table} (hls : ∀ l, payload ≠ .lsSolution l)
    (hcoded : CodesComplete (L.failing fails) payload id) : Settled L fails payload id := by
  have hl : (packetsAsn1.lookup payload.altName).isSome := by
    cases payload <;> rfl
  have htree := encodeTree_eq_writes (L := L.failing fails) id hls
  have htree' := encodeTree_eq_writes id hls
  rcases choose_failing fails id h hu payload.altName payload.altWhat hl with
    ⟨-, e, he⟩ | ⟨-, n, hn, hchosen, hid⟩
  · rw [he] at htree
    exact settled_of_error h.array2tree htree
  · rw [hn] at htree
    cases hws : componentWrites L.arrow payload with
    | error e =>
      obtain ⟨what, rfl⟩ := componentWrites_eq_error hws
      rw [hws] at htree
      exact settled_of_error h.array2tree htree
    | ok ws =>
      rw [hws] at htree
      have hw := componentWrites_writable hws hls
      have hempty : ∀ w ∈ ws, L.asn1.stored n w.name = none :=
        fun w hmem => hchosen.empty _ (hw.scalar hmem).1
      obtain ⟨hc, hkeep, -⟩ := (h.framed.failing fails).writeAll (n := (n, 2)) hw hchosen.chosen
      have hcases := writeAll_failing fails h.framed hw 2 hchosen.chosen hempty
      have hout : encodeTree (L.failing fails) payload id =
        .ok (writeAll (L.asn1.failing fails) ws (n, 2)) := htree
      have hidkeep : L.asn1.stored (writeAll (L.asn1.failing fails) ws (n, 2)).1 "id" =
        L.asn1.stored n "id" := hkeep "id" hw.id_not_mem
      generalize writeAll (L.asn1.failing fails) ws (n, 2) = out at hout hc hidkeep hcases
      obtain ⟨m, k⟩ := out
      rcases hcases with rfl | ⟨w, hmem, hnone⟩
      · rcases hid with ⟨-, hnone⟩ | ⟨-, hn', -⟩
        · exact settled_of_no_id h hu hout (hidkeep.trans hnone)
        · rw [hn', hws] at htree'
          exact settled_of_same h hu hcoded hout htree'
      · exact settled_of_incomplete h hu hout (hw.incomplete hmem hc hnone)

/-! ## The list of `LsSolution` -/

/-- Of the calls from the `k`-th on, which write the items in turn, the first
to fail is the one that appends an element; of the items before it libtasn1
keeps something, as it does of every item shorter than 2^31. -/
def AppendFailsFirst (lib : Libtasn1) (fails : Nat → Bool) (k : Nat) (items : List Bytes) : Prop :=
  ∃ j < items.length, fails (k + 2 * j) = true ∧ (∀ i < 2 * j, fails (k + i) = false) ∧
    ∀ item ∈ items.take j, keptItem lib item ≠ none

theorem appendFailsFirst_cons {lib : Libtasn1} {k : Nat} {item : Bytes} {items : List Bytes} :
    AppendFailsFirst lib fails k (item :: items) ↔ fails k = true ∨ fails k = false ∧
      fails (k + 1) = false ∧ keptItem lib item ≠ none ∧
        AppendFailsFirst lib fails (k + 2) items := by
  constructor
  · rintro ⟨j, hj, hfail, hbefore, hsizes⟩
    cases j with
    | zero => exact .inl hfail
    | succ j =>
      refine .inr ⟨hbefore 0 (by omega), hbefore 1 (by omega), hsizes item (by simp), j,
        Nat.lt_of_succ_lt_succ hj, ?_, ?_, ?_⟩
      · rw [← hfail]
        exact congrArg fails (by omega)
      · intro i hi
        rw [← hbefore (i + 2) (by omega)]
        exact congrArg fails (by omega)
      · intro item' hmem
        exact hsizes item' (by rw [List.take_succ_cons]; exact List.mem_cons_of_mem _ hmem)
  · rintro (hfail | ⟨h0, h1, hsize, j, hj, hfail, hbefore, hsizes⟩)
    · exact ⟨0, by simp, hfail, by simp, by simp⟩
    · refine ⟨j + 1, by simpa using hj, ?_, ?_, ?_⟩
      · rw [← hfail]
        exact congrArg fails (by omega)
      · intro i hi
        obtain rfl | rfl | ⟨i, rfl⟩ : i = 0 ∨ i = 1 ∨ ∃ i', i = i' + 2 := by
          have : i = 0 ∨ i = 1 ∨ i = i - 2 + 2 := by omega
          exact this.imp_right (.imp_right fun he => ⟨i - 2, he⟩)
        · exact h0
        · exact h1
        · rw [← hbefore i (by omega)]
          exact congrArg fails (by omega)
      · rw [List.take_succ_cons]
        intro item' hmem
        rcases List.mem_cons.mp hmem with rfl | hmem
        · exact hsize
        · exact hsizes item' hmem

section Iteration
variable (lib : Libtasn1) {key : String} {n m n' : lib.Node}

theorem vectorFrom_unappended {status : Asn1Status} (index : Nat) (item : Bytes)
    (items : List Bytes) (hw : lib.writeValue n key (.text "NEW") 1 = (status, n'))
    (hs : status ≠ .success) :
    asn1EncodePayloadVectorFrom lib key index (item :: items) n = n' := by
  unfold asn1EncodePayloadVectorFrom
  dsimp only
  rw [hw, if_pos hs]

theorem vectorFrom_unwritten {status : Asn1Status} {index : Nat} {item : Bytes}
    (items : List Bytes) (hw : lib.writeValue n key (.text "NEW") 1 = (.success, m))
    (hw' : lib.writeValue m (elementName key (index + 1)) (cStr item) (Int32.ofNat item.length) =
      (status, n')) (hs : status ≠ .success) :
    asn1EncodePayloadVectorFrom lib key index (item :: items) n = n' := by
  unfold asn1EncodePayloadVectorFrom
  dsimp only
  rw [hw, if_neg (by simp), hw', if_pos hs]

theorem vectorFrom_written {index : Nat} {item : Bytes} (items : List Bytes)
    (hw : lib.writeValue n key (.text "NEW") 1 = (.success, m))
    (hw' : lib.writeValue m (elementName key (index + 1)) (cStr item) (Int32.ofNat item.length) =
      (.success, n')) :
    asn1EncodePayloadVectorFrom lib key index (item :: items) n =
      asn1EncodePayloadVectorFrom lib key (index + 1) items n' := by
  rw [asn1EncodePayloadVectorFrom]
  dsimp only
  rw [hw, if_neg (by simp), hw', if_neg (by simp)]

end Iteration

section Vector
variable {lib : Libtasn1} {alt key : String} {facts : List (String × Bytes)} {n : lib.Node}

/-- Some element of the list has no value. -/
def Gap (lib : Libtasn1) (n : lib.Node) (key : String) : Prop :=
  ∃ e, 1 ≤ e ∧ e ≤ lib.elements n key ∧ lib.stored n (elementName key e) = none

/-- One iteration without failing calls: the appended element has no value
yet; then the write of the item is refused for its size, or the item is listed. -/
theorem Lists.iteration (h : lib.Documented) (hneg : lib.WritesNegative)
    (ht : elementType (some alt) key = some .sequenceOfUtf8String) (hlen : 7 ≤ key.length)
    (hkey : key ≠ "payload") (hshort : ∀ f ∈ facts, f.1.length < key.length)
    {listed : List Bytes} (hl : Lists lib n alt facts key listed)
    (hfresh : ∀ e, listed.length < e → lib.stored n (elementName key e) = none) (item : Bytes) :
    ∃ m, lib.writeValue n key (.text "NEW") 1 = (.success, m) ∧ Gap lib m key ∧
      (keptItem lib item = none ∧ (∃ status n', status ≠ .success ∧
        lib.writeValue m (elementName key (listed.length + 1)) (cStr item)
          (Int32.ofNat item.length) = (status, n') ∧ Gap lib n' key) ∨
      keptItem lib item ≠ none ∧ ∃ octets n',
        lib.writeValue m (elementName key (listed.length + 1)) (cStr item)
          (Int32.ofNat item.length) = (.success, n') ∧
        Lists lib n' alt facts key (listed ++ [octets]) ∧
          ∀ e, listed.length + 1 < e → lib.stored n' (elementName key e) = none) := by
  obtain ⟨hok, hchosen, hcount, hframe⟩ := hl.new h ht hkey
  have hfresh' : ∀ e, listed.length < e →
      lib.stored (lib.writeValue n key (.text "NEW") 1).2 (elementName key e) = none :=
    fun e he => (hframe _ (elementName_ne _ (by omega))).trans (hfresh e he)
  have hle : (Int32.ofNat item.length).toInt ≤ (item ++ [0]).length := by
    have := toInt_ofNat_le item.length
    rw [List.length_append]
    omega
  have hkept := fun octets (hk : keptItem lib item = some octets) =>
    hl.appendOctets h ht hlen hkey hshort fun _ ho => Libtasn1.write_kept h hneg ho hle hk
  generalize hm : (lib.writeValue n key (.text "NEW") 1).2 = m at hchosen hcount hfresh'
  refine ⟨m, Prod.ext hok hm, ⟨_, by omega, hcount.ge, hfresh' _ (by omega)⟩, ?_⟩
  have hframe' : ∀ name, name ≠ elementName key (listed.length + 1) → _ :=
    fun name hne => h.write_frame m (elementName key (listed.length + 1)) (cStr item)
      (Int32.ofNat item.length) name (elementName_ne _ (show 7 ≤ key.length + 2 by omega)) hne
      (by simp [cStr])
  cases hk : keptItem lib item with
  | none =>
    have ho : lib.OctetElement m (elementName key (listed.length + 1)) :=
      .inr ⟨key, listed.length + 1, by rw [hchosen, ht], rfl, by omega, hcount.ge⟩
    obtain ⟨hsize, hnone⟩ := kept_cStr_eq_none hk
    have hwrite := hneg m _ (item ++ [0]) _ ho hsize
    rw [hnone] at hwrite
    obtain ⟨hrefused, hsame⟩ := hwrite
    refine .inl ⟨rfl, _, _, hrefused, rfl, listed.length + 1, by omega, ?_,
      hsame.trans (hfresh' _ (by omega))⟩
    exact hcount.ge.trans_eq (hframe' key (elementName_ne _ (by omega)).symm).2.symm
  | some octets =>
    obtain ⟨-, hok', hl'⟩ := hkept octets hk
    rw [hm] at hok' hl'
    refine .inr ⟨by simp, octets, _, Prod.ext hok' rfl, hl', fun e he => ?_⟩
    have hne : elementName key e ≠ elementName key (listed.length + 1) := by
      intro heq
      have := elementName_inj heq
      omega
    exact (hframe' _ hne).1.trans (hfresh' e (by omega))

/-- How the loop ends: with a list that is cut short if an append is the first
call to fail, and else with an element that has no value or as it does
without failing calls. -/
inductive LoopEnds (lib : Libtasn1) (fails : Nat → Bool) (k : Nat) (items : List Bytes)
    (alt : String) (facts : List (String × Bytes)) (key : String) (listed : List Bytes)
    (whole out : lib.Node) : Prop where
  | cut (more : List Bytes) (hcut : AppendFailsFirst lib fails k items)
      (hmore : more.length < items.length) (hlists : Lists lib out alt facts key (listed ++ more))
  | gap (hcut : ¬ AppendFailsFirst lib fails k items) (hgap : Gap lib out key)
  | whole (more : List Bytes) (hcut : ¬ AppendFailsFirst lib fails k items) (hsame : out = whole)
      (hmore : more.length = items.length) (hlists : Lists lib out alt facts key (listed ++ more))

/-- An item that is listed before the rest leaves the end as it is. -/
theorem LoopEnds.cons {k : Nat} {item octets : Bytes} {items listed : List Bytes}
    {whole out : lib.Node} (h0 : fails k = false) (h1 : fails (k + 1) = false)
    (hkept : keptItem lib item ≠ none)
    (h : LoopEnds lib fails (k + 2) items alt facts key (listed ++ [octets]) whole out) :
    LoopEnds lib fails k (item :: items) alt facts key listed whole out := by
  have hiff : AppendFailsFirst lib fails k (item :: items) ↔
      AppendFailsFirst lib fails (k + 2) items := by
    rw [appendFailsFirst_cons]
    simp only [h0, h1, hkept, Bool.false_eq_true, ne_eq, not_false_eq_true, false_or, true_and]
  cases h with
  | cut more hcut hmore hlists =>
    rw [List.append_assoc, List.singleton_append] at hlists
    exact .cut (octets :: more) (hiff.mpr hcut) (by simpa using hmore) hlists
  | gap hcut hgap => exact .gap (mt hiff.mp hcut) hgap
  | whole more hcut hsame hmore hlists =>
    rw [List.append_assoc, List.singleton_append] at hlists
    exact .whole (octets :: more) (mt hiff.mp hcut) hsame (by simpa using hmore) hlists

theorem vectorFrom_failing (fails : Nat → Bool) (h : lib.Documented) (hneg : lib.WritesNegative)
    (ht : elementType (some alt) key = some .sequenceOfUtf8String) (hlen : 7 ≤ key.length)
    (hkey : key ≠ "payload") (hshort : ∀ f ∈ facts, f.1.length < key.length) (items : List Bytes)
    {listed : List Bytes} (k : Nat) (hl : Lists lib n alt facts key listed)
    (hfresh : ∀ e, listed.length < e → lib.stored n (elementName key e) = none) :
    LoopEnds lib fails k items alt facts key listed
      (asn1EncodePayloadVectorFrom lib key listed.length items n)
      (asn1EncodePayloadVectorFrom (lib.failing fails) key listed.length items (n, k) :
        lib.Node × Nat).1 := by
  induction items generalizing n k listed with
  | nil =>
    refine .whole [] ?_ rfl rfl (by rwa [List.append_nil])
    rintro ⟨j, hj, -⟩
    exact absurd hj (Nat.not_lt_zero j)
  | cons item items ih =>
    obtain ⟨m, happended, hgap, hitem⟩ := hl.iteration h hneg ht hlen hkey hshort hfresh item
    cases h0 : fails k with
    | true =>
      rw [vectorFrom_unappended (lib.failing fails) _ _ _
        (failing_write_of_fails n h0 key (.text "NEW") 1) (by simp)]
      refine .cut [] (appendFailsFirst_cons.mpr (.inl h0)) (by simp) ?_
      rwa [List.append_nil]
    | false =>
      have happended' := failing_write_of_not n h0 key (.text "NEW") 1
      rw [happended] at happended'
      cases h1 : fails (k + 1) with
      | true =>
        rw [vectorFrom_unwritten (lib.failing fails) items happended'
          (failing_write_of_fails m h1 _ (cStr item) (Int32.ofNat item.length)) (by simp)]
        refine .gap ?_ hgap
        rw [appendFailsFirst_cons]
        simp [h0, h1]
      | false =>
        have hwritten := failing_write_of_not m h1
          (elementName key (listed.length + 1)) (cStr item) (Int32.ofNat item.length)
        rcases hitem with ⟨hnone, status, n', hs, hw, hgap'⟩ | ⟨hkept, octets, n', hw, hl', hfresh'⟩
        · rw [hw] at hwritten
          rw [vectorFrom_unwritten (lib.failing fails) items happended' hwritten hs]
          refine .gap ?_ hgap'
          rw [appendFailsFirst_cons, h0]
          rintro (hfalse | ⟨-, -, hkept, -⟩)
          · cases hfalse
          · exact hkept hnone
        · rw [hw] at hwritten
          have hrest := ih (k + 2) hl' (by rwa [List.length_append, List.length_singleton])
          rw [List.length_append, List.length_singleton] at hrest
          rw [vectorFrom_written (lib.failing fails) items happended' hwritten,
            vectorFrom_written lib items happended hw]
          exact hrest.cons h0 h1 hkept

/-- The loop with no call failing. -/
theorem vectorFrom_never (hnever : ∀ k, fails k = false) (items : List Bytes) (index k : Nat)
    (n : lib.Node) : (asn1EncodePayloadVectorFrom (lib.failing fails) key index items (n, k)).1 =
      asn1EncodePayloadVectorFrom lib key index items n := by
  induction items generalizing index k n with
  | nil => rfl
  | cons item items ih =>
    have happended := failing_write_of_not n (hnever k) key (.text "NEW") 1
    cases ha : lib.writeValue n key (.text "NEW") 1 with
    | mk status m =>
      rw [ha] at happended
      by_cases hs : status = .success
      · subst hs
        have hwritten := failing_write_of_not m (hnever (k + 1)) (elementName key (index + 1))
          (cStr item) (Int32.ofNat item.length)
        cases hb : lib.writeValue m (elementName key (index + 1)) (cStr item)
          (Int32.ofNat item.length) with
        | mk status' n' =>
          rw [hb] at hwritten
          by_cases hs' : status' = .success
          · subst hs'
            rw [vectorFrom_written (lib.failing fails) items happended hwritten,
              vectorFrom_written lib items ha hb]
            exact ih (index + 1) (k + 2) n'
          · rw [vectorFrom_unwritten (lib.failing fails) items happended hwritten hs',
              vectorFrom_unwritten lib items ha hb hs']
      · rw [vectorFrom_unappended (lib.failing fails) index item items happended hs,
          vectorFrom_unappended lib index item items ha hs]

end Vector

section Listing
variable {n : L.asn1.Node} {facts : List (String × Bytes)} {content : List Bytes}

theorem Gap.incomplete (hc : L.asn1.chosen n = some "lsSolution")
    (hg : Gap L.asn1 n "payload.lsSolution.directoryItems") : ¬ L.asn1.Complete n := by
  rintro ⟨-, alt, fields, hc', hf, hall⟩
  cases hc.symm.trans hc'
  cases hf
  obtain ⟨e, hlo, hhi, hnone⟩ := hg
  have hsome := hall _ (List.mem_singleton_self _) e hlo hhi
  change (L.asn1.stored n (elementName "payload.lsSolution.directoryItems" e)).isSome at hsome
  rw [hnone] at hsome
  cases hsome

/-- What the loop starts from. -/
theorem Chosen.lists (hn : Chosen L.asn1 n "lsSolution")
    (hid : L.asn1.stored n "id" = some (intOctets id.toInt)) :
    Lists L.asn1 n "lsSolution" [("id", intOctets id.toInt)] "payload.lsSolution.directoryItems" [] ∧
      ∀ e, ([] : List Bytes).length < e →
        L.asn1.stored n (elementName "payload.lsSolution.directoryItems" e) = none := by
  refine ⟨⟨⟨hn.chosen, fun f hf => ?_⟩, hn.elements _, fun k hk => absurd hk (Nat.not_lt_zero k)⟩,
    fun e _ => hn.empty _ (elementName_ne e (by decide))⟩
  rw [List.mem_singleton.mp hf]
  exact hid

/-- Without failing calls a complete tree lists every item. -/
theorem elements_of_complete (h : L.asn1.Documented) (hneg : L.asn1.WritesNegative)
    (hn : Chosen L.asn1 n "lsSolution") (hid : L.asn1.stored n "id" = some (intOctets id.toInt))
    (hc : L.asn1.Complete (asn1EncodePayloadVectorFrom L.asn1 "payload.lsSolution.directoryItems" 0
      content n)) :
    L.asn1.elements (asn1EncodePayloadVectorFrom L.asn1 "payload.lsSolution.directoryItems" 0
      content n) "payload.lsSolution.directoryItems" = content.length := by
  obtain ⟨hl, hfresh⟩ := hn.lists hid
  have hrun := vectorFrom_failing (fun _ => false) h hneg rfl (by decide) (by simp) short_id
    content 0 hl hfresh
  dsimp only [List.length_nil] at hrun
  rw [vectorFrom_never fun _ => rfl] at hrun
  have hchosen := (h.framed.vectorFrom "payload.lsSolution.directoryItems" (by decide)
    (by simp) content 0 n).1.trans hn.chosen
  cases hrun with
  | cut more hcut hmore hlists =>
    obtain ⟨j, -, hfail, -⟩ := hcut
    cases hfail
  | gap hcut hgap => exact absurd hc (hgap.incomplete hchosen)
  | whole more hcut hsame hmore hlists => rw [hlists.elements, List.nil_append, hmore]

/-- A shorter list is coded to something else than the whole list is. -/
theorem not_settled_of_cut (h : L.Documented) (hneg : L.asn1.WritesNegative) {l : LsSolution} {k : Nat}
    {m : L.asn1.Node} {more : List Bytes} (hn : Chosen L.asn1 n "lsSolution")
    (hid : L.asn1.stored n "id" = some (intOctets id.toInt))
    (hcoded : CodesComplete (L.failing fails) (.lsSolution l) id)
    (he : encodeTree (L.failing fails) (.lsSolution l) id = .ok (m, k))
    (hwhole : encodeTree L (.lsSolution l) id =
      .ok (asn1EncodePayloadVectorFrom L.asn1 "payload.lsSolution.directoryItems" 0 l.content n))
    (hl : Lists L.asn1 m "lsSolution" [("id", intOctets id.toInt)]
      "payload.lsSolution.directoryItems" more) (hmore : more.length < l.content.length) :
    ¬ Settled L fails (.lsSolution l) id := by
  have hc := hl.complete (List.mem_singleton_self _)
  obtain ⟨room, hroom⟩ := hcoded (m, k) he hc
  obtain ⟨buffer, hcode⟩ := derCode_ok h.asn1 hc (h.asn1.der_requires m room hroom).2.1
  have hsent := (encode_of_tree (L := L.failing fails) h.asn1.array2tree he).trans hcode
  rintro (⟨what, hthrown⟩ | ⟨buffer', hreturned, hsame⟩)
  · cases hsent.symm.trans hthrown
  · cases hsent.symm.trans hreturned
    obtain ⟨-, -, -, d, hd, hcontent⟩ := derCode_eq_ok h.asn1 hcode
    obtain ⟨t, ht, hcode'⟩ := encode_eq_ok h hsame
    cases hwhole.symm.trans ht
    obtain ⟨hc', -, -, d', hd', hcontent'⟩ := derCode_eq_ok h.asn1 hcode'
    cases hd.symm.trans hd'
    have hcount := (hcontent.elements "payload.lsSolution.directoryItems").symm.trans
      (hcontent'.elements "payload.lsSolution.directoryItems")
    rw [hl.elements, elements_of_complete h.asn1 hneg hn hid hc'] at hcount
    omega

end Listing

/-- The calls fail first where the list of an `LsSolution` is to get its next element. -/
def ListCutShort {T : Type} (lib : Libtasn1) (fails : Nat → Bool) : PayloadVariants T → Prop
  | .lsSolution l => fails 0 = false ∧ fails 1 = false ∧ AppendFailsFirst lib fails 2 l.content
  | _ => False

theorem settled_lsSolution_iff (h : L.Documented) (hu : L.asn1.Unwritten)
    (hneg : L.asn1.WritesNegative) (l : LsSolution)
    (hcoded : CodesComplete (L.failing fails) (.lsSolution l) id) :
    Settled L fails (.lsSolution l) id ↔
      ¬ ListCutShort (T := L.arrow.Table) L.asn1 fails (.lsSolution l) := by
  have htree : encodeTree (L.failing fails) (.lsSolution l) id = (do
    let packet ← chooseAlternative (L.failing fails) (asn1EncodePayloadInt (L.failing fails).asn1 id
      (L.failing fails).asn1.createElement "id") "lsSolution" "lsSolution"
    return asn1EncodePayloadVectorFrom (L.failing fails).asn1 "payload.lsSolution.directoryItems" 0
      l.content packet) := rfl
  have htree' : encodeTree L (.lsSolution l) id = (do
    let packet ← chooseAlternative L (asn1EncodePayloadInt L.asn1 id L.asn1.createElement "id")
      "lsSolution" "lsSolution"
    return asn1EncodePayloadVectorFrom L.asn1 "payload.lsSolution.directoryItems" 0 l.content
      packet) := rfl
  rcases choose_failing fails id h.asn1 hu "lsSolution" "lsSolution" rfl with
    ⟨h1, e, he⟩ | ⟨h1, n, hn, hchosen, hid⟩
  · rw [he] at htree
    refine iff_of_true (settled_of_error h.asn1.array2tree htree) ?_
    rintro ⟨-, h1', -⟩
    rw [h1] at h1'
    cases h1'
  · rw [hn] at htree
    have hout : encodeTree (L.failing fails) (.lsSolution l) id =
      .ok (asn1EncodePayloadVectorFrom (L.asn1.failing fails) "payload.lsSolution.directoryItems" 0
        l.content (n, 2)) := htree
    obtain ⟨hc, hkeep⟩ := (h.asn1.framed.failing fails).vectorFrom
      "payload.lsSolution.directoryItems" (by decide) (by simp) l.content 0 (n, 2)
    have hchosen' := hc.trans hchosen.chosen
    have hidkeep := hkeep "id" (by decide)
    rcases hid with ⟨h0, hnone⟩ | ⟨h0, hn', hid⟩
    · generalize asn1EncodePayloadVectorFrom (L.asn1.failing fails) _ 0 l.content (n, 2) = out
        at hout hidkeep
      obtain ⟨m, k⟩ := out
      refine iff_of_true (settled_of_no_id h.asn1 hu hout (hidkeep.trans hnone)) ?_
      rintro ⟨h0', -⟩
      rw [h0] at h0'
      cases h0'
    · rw [hn'] at htree'
      obtain ⟨hl, hfresh⟩ := hchosen.lists hid
      have hrun := vectorFrom_failing fails h.asn1 hneg rfl (by decide) (by simp) short_id
        l.content 2 hl hfresh
      dsimp only [List.length_nil] at hrun
      generalize asn1EncodePayloadVectorFrom (L.asn1.failing fails) _ 0 l.content (n, 2) = out
        at hout hrun hchosen'
      obtain ⟨m, k⟩ := out
      cases hrun with
      | cut more hcut hmore hlists =>
        exact iff_of_false (not_settled_of_cut h hneg hchosen hid hcoded hout htree' hlists hmore)
          (not_not_intro ⟨h0, h1, hcut⟩)
      | gap hwhole hgap =>
        exact iff_of_true (settled_of_incomplete h.asn1 hu hout (hgap.incomplete hchosen'))
          fun hcut => hwhole hcut.2.2
      | whole more hwhole hsame hmore hlists =>
        cases hsame
        exact iff_of_true (settled_of_same h.asn1 hu hcoded hout htree')
          fun hcut => hwhole hcut.2.2

/-- **When a partly failed encode is sent:** only as a listing cut short. -/
theorem failed_writes_iff (h : L.Documented) (hu : L.asn1.Unwritten)
    (hneg : L.asn1.WritesNegative) (fails : Nat → Bool)
    (payload : PayloadVariants L.arrow.Table) (id : Int32)
    (hcoded : CodesComplete (L.failing fails) payload id) :
    Settled L fails payload id ↔ ¬ ListCutShort L.asn1 fails payload := by
  cases payload with
  | lsSolution l => exact settled_lsSolution_iff h hu hneg l hcoded
  | standard s => exact iff_of_true (settled_of_components h.asn1 hu (by simp) hcoded) not_false
  | file f => exact iff_of_true (settled_of_components h.asn1 hu (by simp) hcoded) not_false
  | viewportRequest v =>
    exact iff_of_true (settled_of_components h.asn1 hu (by simp) hcoded) not_false
  | viewport v => exact iff_of_true (settled_of_components h.asn1 hu (by simp) hcoded) not_false
  | tqlQuery q => exact iff_of_true (settled_of_components h.asn1 hu (by simp) hcoded) not_false
  | error e => exact iff_of_true (settled_of_components h.asn1 hu (by simp) hcoded) not_false
  | universal u => exact iff_of_true (settled_of_components h.asn1 hu (by simp) hcoded) not_false
  | ls l => exact iff_of_true (settled_of_components h.asn1 hu (by simp) hcoded) not_false

theorem failed_writes_item :
    Settled Reference.libraries (· == 3) (.lsSolution { content := [[0x61], [0x62]] }) 7 ↔
      ¬ ListCutShort (T := Bytes) Reference.asn1 (· == 3) (.lsSolution { content := [[0x61], [0x62]] }) :=
  failed_writes_iff Reference.libraries_documented Reference.asn1_unwritten
    Reference.asn1_writesNegative (· == 3)
    (.lsSolution { content := [[0x61], [0x62]] }) 7 (by
      intro n hn hc
      cases hn
      exact absurd (Reference.Tree.complete_iff.mpr hc) (by decide +kernel))

/-- A listing of one item whose element cannot be appended is sent as an empty listing. -/
theorem failed_append_sent : ¬ ∀ (fails : Nat → Bool)
    (payload : PayloadVariants Reference.libraries.arrow.Table) (id : Int32),
    CodesComplete (Reference.libraries.failing fails) payload id →
      Settled Reference.libraries fails payload id := by
  intro h
  have hsent : encode (Reference.libraries.failing (· == 2)) (.lsSolution { content := [[0x61]] }) 7 =
      .ok [0x30, 0x09, 2, 1, 7, 0xA8, 4, 0x30, 2, 0x30, 0] := rfl
  have hwhole : encode Reference.libraries (.lsSolution { content := [[0x61]] }) 7 =
      .ok [0x30, 0x0C, 2, 1, 7, 0xA8, 7, 0x30, 5, 0x30, 3, 0x0C, 1, 0x61] := rfl
  have hcoded : CodesComplete (Reference.libraries.failing (· == 2))
      (.lsSolution { content := [[0x61]] }) 7 := by
    intro n hn _
    cases hn
    exact ⟨100, rfl⟩
  rcases h (· == 2) (.lsSolution { content := [[0x61]] }) 7 hcoded with ⟨what, he⟩ | ⟨buffer, he, he'⟩
  · rw [hsent] at he
    cases he
  · rw [hsent] at he
    cases he
    rw [hwhole] at he'
    cases he'

end Ttp2
