import Ttp2.Asn1Tree

/-! # Encoding and decoding a packet gives its wire form

For each alternative, the tree `encode` builds is complete and every tree
with the same content decodes to the wire form of the payload (`TreeOf`).
The exceptions are named by `Codable`: `encode` gets no complete tree from a
table that cannot be serialised or from an empty byte vector. -/
namespace Ttp2
open Lib TwosComplement Asn1Helpers Packet Encode Decode

/-- Every string, byte vector, list, list item and serialised table of the
payload is shorter than 2^31: its length is an `int`. -/
def Packet.PayloadVariants.Sized (L : Libraries) : PayloadVariants L.arrow.Table → Prop
  | .standard s => s.payload.length < 2 ^ 31
  | .file f => f.filePath.length < 2 ^ 31 ∧
      ∀ b, tableToBuffer L.arrow f.payload = .ok b → b.length < 2 ^ 31
  | .viewportRequest _ => True
  | .viewport v => ∀ b, tableToBuffer L.arrow v.payload = .ok b → b.length < 2 ^ 31
  | .tqlQuery q => q.query.length < 2 ^ 31
  | .error e => e.message.length < 2 ^ 31
  | .universal u => u.bytes.length < 2 ^ 31
  | .ls l => l.directory.length < 2 ^ 31
  | .lsSolution l => l.content.length < 2 ^ 31 ∧ ∀ item ∈ l.content, item.length < 2 ^ 31

/-- Two nodes with the same choice, the same octets and the same lists. -/
structure SameContent {lib : Libtasn1} (m n : lib.Node) : Prop where
  chosen : lib.chosen m = lib.chosen n
  stored : ∀ name, lib.stored m name = lib.stored n name
  elements : ∀ key, lib.elements m key = lib.elements n key

theorem Stores.of_same {lib : Libtasn1} {m n : lib.Node} {alt : String}
    {facts : List (String × Bytes)} (hs : Stores lib n alt facts) (hm : SameContent m n) :
    Stores lib m alt facts :=
  ⟨hm.chosen.trans hs.chosen, fun f hf => (hm.stored f.1).trans (hs.stored f hf)⟩

/-- The tree holds the payload under this id: it can be coded, and whatever
has its content decodes to the wire form. -/
structure TreeOf (L : Libraries) (payload : PayloadVariants L.arrow.Table) (id : Int32)
    (n : L.asn1.Node) : Prop where
  complete : L.asn1.Complete n
  decodes : ∀ m, SameContent m n → asn1DecodePayloadInt L.asn1 m "id" = wireInt id ∧
    ∃ typeName, L.asn1.readChoice m "payload" 64 = some typeName ∧
      decodePayload L m typeName = .ok (wirePayload payload)

variable {L : Libraries} {id : Int32} {n : L.asn1.Node} {alt : String}
  {facts : List (String × Bytes)}

/-- An alternative without lists holds its payload once each of its
components is stored and they decode to the wire form. -/
theorem TreeOf.of_stores (h : L.asn1.Documented) {payload : PayloadVariants L.arrow.Table}
    {fields : List (String × Asn1Type)} (hs : Stores L.asn1 n alt facts)
    (hid : ("id", intOctets id.toInt) ∈ facts) (hf : packetsAsn1.lookup alt = some fields)
    (hall : ∀ f ∈ fields, f.2 ≠ .sequenceOfUtf8String ∧ ∃ o, (fieldName alt f.1, o) ∈ facts)
    (hshort : alt.length < 64)
    (hd : ∀ m, Stores L.asn1 m alt facts → decodePayload L m alt = .ok (wirePayload payload)) :
    TreeOf L payload id n := by
  refine ⟨⟨?_, alt, fields, hs.chosen, hf, ?_⟩, ?_⟩
  · rw [hs.stored _ hid]; rfl
  · intro f hmem
    obtain ⟨hlist, o, ho⟩ := hall f hmem
    have hst := hs.stored _ ho
    obtain ⟨name, ty⟩ := f
    cases ty with
    | sequenceOfUtf8String => exact absurd rfl hlist
    | integer => simp only [hst, Option.isSome_some]
    | octetString => simp only [hst, Option.isSome_some]
  · intro m hm
    have hs' := hs.of_same hm
    exact ⟨hs'.readInt h hid, alt, h.read_choice m alt 64 hs'.chosen hshort, hd m hs'⟩

/-- The tree before an alternative is written: the id, and the choice made. -/
theorem start_stores (h : L.asn1.Documented) (id : Int32) (alt what : String)
    (hl : (packetsAsn1.lookup alt).isSome) :
    ∃ n, chooseAlternative L (asn1EncodePayloadInt L.asn1 id L.asn1.createElement "id") alt what =
        .ok n ∧ Stores L.asn1 n alt [("id", intOctets id.toInt)] ∧
      (∀ key, L.asn1.elements n key = 0) ∧ ∀ name, name ≠ "id" → L.asn1.stored n name = none := by
  let n0 := asn1EncodePayloadInt L.asn1 id L.asn1.createElement "id"
  have hid : L.asn1.stored n0 "id" = some (intOctets id.toInt) :=
    (h.write_integer _ "id" id rfl).2
  have hfresh : L.asn1.chosen n0 = none :=
    (h.write_chosen _ "id" _ _ (by simp)).trans h.create_chosen
  obtain ⟨hok, hchosen, hcount⟩ := h.write_choice n0 alt 0 hfresh hl
  refine ⟨(L.asn1.writeValue n0 "payload" (.text alt) 0).2, ?_, ⟨hchosen, ?_⟩, hcount, ?_⟩
  · show chooseAlternative L n0 alt what = _
    unfold chooseAlternative
    cases hw : L.asn1.writeValue n0 "payload" (.text alt) 0 with
    | mk status node =>
      rw [hw] at hok
      dsimp only at hok
      rw [hok]
  · intro f hf
    rw [List.mem_singleton.mp hf]
    exact (h.write_choice_id n0 _ _).trans hid
  · intro name hne
    exact h.choice_empty n0 alt 0 name hfresh hl hne

/-! ## The nine alternatives -/

theorem tree_standard (h : L.asn1.Documented) (id : Int32) (s : Standard)
    (hs : s.payload.length < 2 ^ 31) :
    ∃ n, encodeTree L (.standard s) id = .ok n ∧ TreeOf L (.standard s) id n := by
  obtain ⟨n, hn, h0, -, -⟩ := start_stores h id "standard" "standard" rfl
  have h1 := h0.writeString h "payload.standard.payload" s.payload hs rfl (by simp) (by simp)
  refine ⟨_, ?_, TreeOf.of_stores h h1 (by simp) rfl ?_ (by decide) ?_⟩
  · simp only [encodeTree, encodeStandard, hn]; rfl
  · simp [fieldName]
  · intro m hm
    simp only [decodePayload, if_true, decodeStandard, wirePayload]
    rw [hm.readString h (List.mem_cons_self ..)]

theorem tree_file (h : L.asn1.Documented) (id : Int32) (f : File L.arrow.Table) {b : Bytes}
    (hs : f.filePath.length < 2 ^ 31) (hb : tableToBuffer L.arrow f.payload = .ok b)
    (hne : b ≠ []) (hlt : b.length < 2 ^ 31) (ht : bufferToTable L.arrow b = .ok f.payload) :
    ∃ n, encodeTree L (.file f) id = .ok n ∧ TreeOf L (.file f) id n := by
  obtain ⟨n, hn, h0, -, -⟩ := start_stores h id "file" "file" rfl
  have h1 := h0.writeString h "payload.file.filePath" f.filePath hs rfl (by simp) (by simp)
  have h2 := h1.writeInt h "payload.file.start" f.start rfl (by simp) (by simp)
  have h3 := h2.writeInt h "payload.file.end" f.end_ rfl (by simp) (by simp)
  have h4 := h3.writeBuffer h "payload.file.payload" b hne hlt rfl (by simp) (by simp)
  refine ⟨_, ?_, TreeOf.of_stores h h4 (by simp) rfl ?_ (by decide) ?_⟩
  · have hpos : 0 < b.length := List.length_pos_iff.mpr hne
    simp only [encodeTree, encodeFile, hn, hb, bind, Except.bind, hpos, if_true]; rfl
  · simp [fieldName]
  · intro m hm
    simp only [decodePayload, decodeFile, bind, Except.bind]
    rw [hm.readBuffer h (List.mem_cons_self ..), hm.readString h (s := wireString f.filePath) (by simp),
      hm.readInt h (v := f.start) (by simp), hm.readInt h (v := f.end_) (by simp), ht]
    rfl

theorem tree_viewportRequest (h : L.asn1.Documented) (id : Int32) (v : ViewportRequest) :
    ∃ n, encodeTree L (.viewportRequest v) id = .ok n ∧ TreeOf L (.viewportRequest v) id n := by
  obtain ⟨n, hn, h0, -, -⟩ := start_stores h id "viewportRequest" "viewport request" rfl
  have h1 := h0.writeInt h "payload.viewportRequest.xStart" v.xStart rfl (by simp) (by simp)
  have h2 := h1.writeInt h "payload.viewportRequest.xEnd" v.xEnd rfl (by simp) (by simp)
  have h3 := h2.writeInt h "payload.viewportRequest.yStart" v.yStart rfl (by simp) (by simp)
  have h4 := h3.writeInt h "payload.viewportRequest.yEnd" v.yEnd rfl (by simp) (by simp)
  refine ⟨_, ?_, TreeOf.of_stores h h4 (by simp) rfl ?_ (by decide) ?_⟩
  · simp only [encodeTree, encodeViewportRequest, hn]; rfl
  · simp [fieldName]
  · intro m hm
    simp only [decodePayload, decodeViewportRequest]
    rw [hm.readInt h (v := v.xStart) (by simp), hm.readInt h (v := v.xEnd) (by simp),
      hm.readInt h (v := v.yStart) (by simp), hm.readInt h (v := v.yEnd) (by simp)]
    rfl

theorem tree_viewport (h : L.asn1.Documented) (id : Int32) (v : Viewport L.arrow.Table) {b : Bytes}
    (hb : tableToBuffer L.arrow v.payload = .ok b) (hne : b ≠ []) (hlt : b.length < 2 ^ 31)
    (ht : bufferToTable L.arrow b = .ok v.payload) :
    ∃ n, encodeTree L (.viewport v) id = .ok n ∧ TreeOf L (.viewport v) id n := by
  obtain ⟨n, hn, h0, -, -⟩ := start_stores h id "viewport" "viewport" rfl
  have h1 := h0.writeInt h "payload.viewport.xStart" v.xStart rfl (by simp) (by simp)
  have h2 := h1.writeInt h "payload.viewport.xEnd" v.xEnd rfl (by simp) (by simp)
  have h3 := h2.writeInt h "payload.viewport.yStart" v.yStart rfl (by simp) (by simp)
  have h4 := h3.writeInt h "payload.viewport.yEnd" v.yEnd rfl (by simp) (by simp)
  have h5 := h4.writeBuffer h "payload.viewport.payload" b hne hlt rfl (by simp) (by simp)
  refine ⟨_, ?_, TreeOf.of_stores h h5 (by simp) rfl ?_ (by decide) ?_⟩
  · simp only [encodeTree, encodeViewport, hn, hb]; rfl
  · simp [fieldName]
  · intro m hm
    simp only [decodePayload, decodeViewport, bind, Except.bind]
    rw [hm.readBuffer h (List.mem_cons_self ..), hm.readInt h (v := v.xStart) (by simp),
      hm.readInt h (v := v.xEnd) (by simp), hm.readInt h (v := v.yStart) (by simp),
      hm.readInt h (v := v.yEnd) (by simp), ht]
    rfl

theorem tree_tqlQuery (h : L.asn1.Documented) (id : Int32) (q : TqlQuery)
    (hs : q.query.length < 2 ^ 31) :
    ∃ n, encodeTree L (.tqlQuery q) id = .ok n ∧ TreeOf L (.tqlQuery q) id n := by
  obtain ⟨n, hn, h0, -, -⟩ := start_stores h id "tqlQuery" "tql query" rfl
  have h1 := h0.writeString h "payload.tqlQuery.query" q.query hs rfl (by simp) (by simp)
  refine ⟨_, ?_, TreeOf.of_stores h h1 (by simp) rfl ?_ (by decide) ?_⟩
  · simp only [encodeTree, encodeTqlQuery, hn]; rfl
  · simp [fieldName]
  · intro m hm
    simp only [decodePayload, decodeTqlQuery]
    rw [hm.readString h (List.mem_cons_self ..)]
    rfl

theorem tree_error (h : L.asn1.Documented) (id : Int32) (e : Packet.Error)
    (hs : e.message.length < 2 ^ 31) :
    ∃ n, encodeTree L (.error e) id = .ok n ∧ TreeOf L (.error e) id n := by
  obtain ⟨n, hn, h0, -, -⟩ := start_stores h id "error" "error" rfl
  have h1 := h0.writeInt h "payload.error.code" e.code rfl (by simp) (by simp)
  have h2 := h1.writeString h "payload.error.message" e.message hs rfl (by simp) (by simp)
  refine ⟨_, ?_, TreeOf.of_stores h h2 (by simp) rfl ?_ (by decide) ?_⟩
  · simp only [encodeTree, encodeError, hn]; rfl
  · simp [fieldName]
  · intro m hm
    simp only [decodePayload, decodeError]
    rw [hm.readString h (List.mem_cons_self ..), hm.readInt h (v := e.code) (by simp)]
    rfl

theorem universal_stores (h : L.asn1.Documented) (id : Int32) (u : Universal) (hne : u.bytes ≠ [])
    (hlt : u.bytes.length < 2 ^ 31) :
    ∃ n, encodeTree L (.universal u) id = .ok n ∧ Stores L.asn1 n "universal"
      [("payload.universal.bytes", u.bytes), ("payload.universal.type", intOctets u.type.toInt),
        ("id", intOctets id.toInt)] := by
  obtain ⟨n, hn, h0, -, -⟩ := start_stores h id "universal" "universal" rfl
  have h1 := h0.writeInt h "payload.universal.type" u.type rfl (by simp) (by simp)
  have h2 := h1.writeBuffer h "payload.universal.bytes" u.bytes hne hlt rfl (by simp) (by simp)
  refine ⟨_, ?_, h2⟩
  simp only [encodeTree, encodeUniversal, hn, vectorData, if_neg hne]
  rfl

theorem tree_universal (h : L.asn1.Documented) (id : Int32) (u : Universal) (hne : u.bytes ≠ [])
    (hlt : u.bytes.length < 2 ^ 31) :
    ∃ n, encodeTree L (.universal u) id = .ok n ∧ TreeOf L (.universal u) id n := by
  obtain ⟨n, hn, h2⟩ := universal_stores h id u hne hlt
  refine ⟨n, hn, TreeOf.of_stores h h2 (by simp) rfl ?_ (by decide) ?_⟩
  · simp [fieldName]
  · intro m hm
    simp only [decodePayload, decodeUniversal]
    rw [hm.readBuffer h (List.mem_cons_self ..), hm.readInt h (v := u.type) (by simp)]
    rfl

theorem tree_ls (h : L.asn1.Documented) (id : Int32) (l : Ls) (hs : l.directory.length < 2 ^ 31) :
    ∃ n, encodeTree L (.ls l) id = .ok n ∧ TreeOf L (.ls l) id n := by
  obtain ⟨n, hn, h0, -, -⟩ := start_stores h id "ls" "ls" rfl
  have h1 := h0.writeString h "payload.ls.directory" l.directory hs rfl (by simp) (by simp)
  refine ⟨_, ?_, TreeOf.of_stores h h1 (by simp) rfl ?_ (by decide) ?_⟩
  · simp only [encodeTree, encodeLs, hn]; rfl
  · simp [fieldName]
  · intro m hm
    simp only [decodePayload, decodeLs]
    rw [hm.readString h (List.mem_cons_self ..)]
    rfl

/-! ## The list of `LsSolution`

The loop of `asn1EncodePayload(std::vector<std::string>, …)` appends an empty
element and then writes it; `Lists` is what holds between two iterations. -/

section VectorLoop
variable {lib : Libtasn1} {m : lib.Node} {key : String} {items : List Bytes}

/-- The elements of the list `key` are `items`; `facts` are stored elsewhere. -/
structure Lists (lib : Libtasn1) (m : lib.Node) (alt : String) (facts : List (String × Bytes))
    (key : String) (items : List Bytes) : Prop where
  stores : Stores lib m alt facts
  elements : lib.elements m key = items.length
  items : ∀ k (hk : k < items.length), lib.stored m (elementName key (k + 1)) = some items[k]

/-- "NEW" adds an element and leaves all others as they were. -/
theorem Lists.new (h : lib.Documented) (hl : Lists lib m alt facts key items)
    (ht : elementType (some alt) key = some .sequenceOfUtf8String) (hp : key ≠ "payload") :
    let appended := lib.writeValue m key (.text "NEW") 1
    appended.1 = .success ∧ lib.chosen appended.2 = some alt ∧
      lib.elements appended.2 key = items.length + 1 ∧
      ∀ name, name ≠ key → lib.stored appended.2 name = lib.stored m name := by
  intro appended
  have hseq : elementType (lib.chosen m) key = some .sequenceOfUtf8String := by
    rw [hl.stores.chosen, ht]
  obtain ⟨hok, hcount⟩ := h.write_new m key 1 hseq
  refine ⟨hok, (h.write_chosen m key _ _ hp).trans hl.stores.chosen, ?_, ?_⟩
  · rw [← hl.elements]
    exact hcount
  · intro name hne
    exact (h.write_frame m key (.text "NEW") 1 name hp hne (fun he => nomatch he)).1

/-- One iteration lists one item more when the element takes the octets. -/
theorem Lists.appendOctets (h : lib.Documented) (hl : Lists lib m alt facts key items)
    (ht : elementType (some alt) key = some .sequenceOfUtf8String) (hp : 7 ≤ key.length)
    (hp' : key ≠ "payload") (hshort : ∀ f ∈ facts, f.1.length < key.length) {memory octets : Bytes}
    {size : Int32} (hw : ∀ n, lib.OctetElement n (elementName key (items.length + 1)) →
      (lib.writeValue n (elementName key (items.length + 1)) (.memory memory) size).1 = .success ∧
        lib.stored (lib.writeValue n (elementName key (items.length + 1)) (.memory memory) size).2
          (elementName key (items.length + 1)) = some octets) :
    let appended := lib.writeValue m key (.text "NEW") 1
    let written := lib.writeValue appended.2 (elementName key (items.length + 1)) (.memory memory)
      size
    appended.1 = .success ∧ written.1 = .success ∧
      Lists lib written.2 alt facts key (items ++ [octets]) := by
  intro appended written
  obtain ⟨hok, hchosen, hcount, hframe⟩ := hl.new h ht hp'
  have ho : lib.OctetElement appended.2 (elementName key (items.length + 1)) :=
    .inr ⟨key, items.length + 1, by rw [hchosen, ht], rfl, by omega, hcount.ge⟩
  obtain ⟨hok', hnew⟩ := hw appended.2 ho
  have hne_payload : elementName key (items.length + 1) ≠ "payload" :=
    elementName_ne _ (show 7 ≤ key.length + 2 by omega)
  have hframe' : ∀ name, name ≠ elementName key (items.length + 1) →
      lib.stored written.2 name = lib.stored appended.2 name ∧
        lib.elements written.2 name = lib.elements appended.2 name :=
    fun name hne => h.write_frame _ _ (.memory memory) _ name hne_payload hne (fun he => nomatch he)
  refine ⟨hok, hok', ⟨(h.write_chosen _ _ _ _ hne_payload).trans hchosen, ?_⟩, ?_, ?_⟩
  · intro f hf
    have hlen := hshort f hf
    have hne_key : f.1 ≠ key := by
      rintro rfl
      omega
    have hne_elem : f.1 ≠ elementName key (items.length + 1) :=
      (elementName_ne _ (by omega)).symm
    rw [(hframe' _ hne_elem).1, hframe _ hne_key, hl.stores.stored f hf]
  · have hne_elem : key ≠ elementName key (items.length + 1) :=
      (elementName_ne _ (by omega)).symm
    rw [(hframe' _ hne_elem).2, List.length_append, List.length_singleton]
    exact hcount
  · intro k hk
    rw [List.length_append, List.length_singleton] at hk
    by_cases hlast : k = items.length
    · subst hlast
      rw [List.getElem_concat_length rfl]
      exact hnew
    · have hne_elem : elementName key (k + 1) ≠ elementName key (items.length + 1) := by
        intro he
        have := elementName_inj he
        omega
      rw [(hframe' _ hne_elem).1, hframe _ (elementName_ne _ (by omega)),
        List.getElem_append_left (by omega)]
      exact hl.items k (by omega)

/-- One iteration succeeds and lists one item more. -/
theorem Lists.append (h : lib.Documented) (hl : Lists lib m alt facts key items)
    (ht : elementType (some alt) key = some .sequenceOfUtf8String) (hp : 7 ≤ key.length)
    (hp' : key ≠ "payload") (hshort : ∀ f ∈ facts, f.1.length < key.length) (item : Bytes)
    (hlt : item.length < 2 ^ 31) :
    let appended := lib.writeValue m key (.text "NEW") 1
    let written := lib.writeValue appended.2 (elementName key (items.length + 1)) (cStr item)
      (Int32.ofNat item.length)
    appended.1 = .success ∧ written.1 = .success ∧
      Lists lib written.2 alt facts key (items ++ [item]) :=
  hl.appendOctets h ht hp hp' hshort fun _ ho =>
    write_memory h ho (Eq.refl (item ++ [0])) hlt (fun _ => rfl)

/-- The loop from any iteration on lists the remaining items after those listed. -/
theorem Lists.vectorFrom (h : lib.Documented) (ht : elementType (some alt) key =
      some .sequenceOfUtf8String) (hp : 7 ≤ key.length) (hp' : key ≠ "payload")
    (hshort : ∀ f ∈ facts, f.1.length < key.length) (more : List Bytes)
    (hlt : ∀ item ∈ more, item.length < 2 ^ 31) (hl : Lists lib m alt facts key items) :
    Lists lib (asn1EncodePayloadVectorFrom lib key items.length more m) alt facts key
      (items ++ more) := by
  induction more generalizing m items with
  | nil =>
    rw [List.append_nil]
    exact hl
  | cons item more ih =>
    obtain ⟨hok, hok', hl'⟩ := hl.append h ht hp hp' hshort item (hlt item (List.mem_cons_self ..))
    have hnext := ih (fun i hi => hlt i (List.mem_cons_of_mem _ hi)) hl'
    unfold asn1EncodePayloadVectorFrom
    dsimp only
    rw [if_neg (by rw [hok]; simp), if_neg (by rw [hok']; simp)]
    rw [List.length_append, List.length_singleton, List.append_assoc] at hnext
    exact hnext

theorem filterMap_getElem? {α : Type} (xs : List α) (k : Nat) :
    (List.range k).filterMap (xs[·]?) = xs.take k := by
  induction k with
  | zero => rfl
  | succ k ih =>
    rw [List.range_succ, List.filterMap_append, ih, List.take_add_one]
    cases hk : xs[k]? with
    | none => simp [hk]
    | some x => simp [hk]

/-- Reading the list gives its items, each from its own element. -/
theorem asn1DecodePayloadVector_of_lists (h : lib.Documented)
    (hl : Lists lib m alt facts key items)
    (ht : elementType (some alt) key = some .sequenceOfUtf8String) :
    asn1DecodePayloadVector lib m key = items := by
  have hcount := h.number_of_elements m key (by rw [hl.stores.chosen, ht])
  unfold asn1DecodePayloadVector
  rw [hcount, hl.elements]
  dsimp only
  have hread : ∀ k ∈ List.range items.length, (asn1DecodeItem lib m key ∘ (1 + ·)) k = items[k]? := by
    intro k hk
    have hk' := List.mem_range.mp hk
    rw [Function.comp_apply, Nat.add_comm, asn1DecodeItem_of_stored h (hl.items k hk'),
      List.getElem?_eq_getElem hk']
  rw [List.range'_eq_map_range, List.filterMap_map, List.filterMap_congr hread]
  rw [filterMap_getElem?, List.take_length]

end VectorLoop

theorem short_id {id : Int32} : ∀ f ∈ [("id", intOctets id.toInt)],
    f.1.length < "payload.lsSolution.directoryItems".length := by
  intro f hf
  rw [List.mem_singleton.mp hf]
  exact (by decide : "id".length < "payload.lsSolution.directoryItems".length)

theorem lists_lsSolution (h : L.asn1.Documented) (id : Int32) (l : LsSolution)
    (hs : ∀ item ∈ l.content, item.length < 2 ^ 31) :
    ∃ n, encodeTree L (.lsSolution l) id = .ok n ∧ Lists L.asn1 n "lsSolution"
      [("id", intOctets id.toInt)] "payload.lsSolution.directoryItems" l.content := by
  obtain ⟨n, hn, h0, hcount, -⟩ := start_stores h id "lsSolution" "lsSolution" rfl
  have hlist : Lists L.asn1 n "lsSolution" [("id", intOctets id.toInt)]
      "payload.lsSolution.directoryItems" [] :=
    ⟨h0, hcount _, fun k hk => absurd hk (Nat.not_lt_zero k)⟩
  have hl := hlist.vectorFrom h rfl (by decide) (by simp) short_id l.content hs
  rw [List.nil_append, List.length_nil] at hl
  refine ⟨_, ?_, hl⟩
  simp only [encodeTree, encodeLsSolution, hn]
  rfl

/-- A listed item is a value, so the tree of a listing is complete with its id. -/
theorem Lists.complete {octets : Bytes} {content : List Bytes} (hl : Lists L.asn1 n "lsSolution" facts
    "payload.lsSolution.directoryItems" content) (hid : ("id", octets) ∈ facts) :
    L.asn1.Complete n := by
  refine ⟨?_, "lsSolution", _, hl.stores.chosen, rfl, ?_⟩
  · rw [hl.stores.stored _ hid]
    rfl
  · intro f hf
    rw [List.mem_singleton.mp hf]
    intro k hk hk'
    have hle : k ≤ content.length := hl.elements ▸ hk'
    obtain ⟨j, rfl⟩ : ∃ j, k = j + 1 := ⟨k - 1, by omega⟩
    have hitem := hl.items j (by omega)
    show (L.asn1.stored _ (elementName "payload.lsSolution.directoryItems" (j + 1))).isSome
    rw [hitem]
    rfl

theorem tree_lsSolution (h : L.asn1.Documented) (id : Int32) (l : LsSolution)
    (hs : ∀ item ∈ l.content, item.length < 2 ^ 31) :
    ∃ n, encodeTree L (.lsSolution l) id = .ok n ∧ TreeOf L (.lsSolution l) id n := by
  obtain ⟨n, hn, hl⟩ := lists_lsSolution h id l hs
  refine ⟨n, hn, hl.complete (List.mem_singleton_self _), ?_⟩
  intro m hm
  have hst := hl.stores.of_same hm
  have hl' : Lists L.asn1 m "lsSolution" [("id", intOctets id.toInt)]
      "payload.lsSolution.directoryItems" l.content :=
    ⟨hst, (hm.elements _).trans hl.elements, fun k hk => (hm.stored _).trans (hl.items k hk)⟩
  refine ⟨hst.readInt h (List.mem_singleton_self _), "lsSolution",
    h.read_choice m "lsSolution" 64 hst.chosen (by decide), ?_⟩
  simp only [decodePayload, decodeLsSolution]
  rw [asn1DecodePayloadVector_of_lists h hl' rfl]
  rfl

/-- A byte vector that is empty goes to libtasn1 as a null pointer and leaves
the component without a value. -/
theorem universal_incomplete (h : L.asn1.Documented) (id : Int32) (type : Int32) :
    ∃ n, encodeTree L (.universal { type, bytes := [] }) id = .ok n ∧ ¬ L.asn1.Complete n := by
  obtain ⟨n, hn, h0, -, hempty⟩ := start_stores h id "universal" "universal" rfl
  have h1 := h0.writeInt h "payload.universal.type" type rfl (by simp) (by simp)
  have hframe := (h.write_frame n "payload.universal.type" (.text (toString type.toInt)) 0
    "payload.universal.bytes" (by simp) (by simp) (fun he => nomatch he)).1
  have ho : L.asn1.OctetElement (asn1EncodePayloadInt L.asn1 type n "payload.universal.type")
      "payload.universal.bytes" := .inl (by rw [h1.chosen]; rfl)
  have hnull := (h.write_null _ _ (Int32.ofNat ([] : Bytes).length) ho).2
  have hchosen := h.write_chosen (asn1EncodePayloadInt L.asn1 type n "payload.universal.type")
    "payload.universal.bytes" .null (Int32.ofNat ([] : Bytes).length) (by simp)
  refine ⟨asn1EncodePayloadBuffer L.asn1 .null (Int32.ofNat ([] : Bytes).length)
    (asn1EncodePayloadInt L.asn1 type n "payload.universal.type") "payload.universal.bytes", ?_, ?_⟩
  · simp only [encodeTree, encodeUniversal, hn, vectorData, if_true]
    rfl
  · rintro ⟨-, alt, fields, halt, hf, hall⟩
    rw [asn1EncodePayloadBuffer, hchosen, h1.chosen] at halt
    cases halt
    cases hf
    have hbytes := hall ("bytes", .octetString) (by simp)
    change (L.asn1.stored _ "payload.universal.bytes").isSome at hbytes
    rw [asn1EncodePayloadBuffer, hnull, asn1EncodePayloadInt, hframe, hempty _ (by simp)] at hbytes
    cases hbytes

/-! ## Which payloads have a complete tree -/

/-- The table can be serialised, and a byte vector is not empty. -/
def Packet.PayloadVariants.Codable (L : Libraries) : PayloadVariants L.arrow.Table → Prop
  | .file f => ∃ b, tableToBuffer L.arrow f.payload = .ok b
  | .viewport v => ∃ b, tableToBuffer L.arrow v.payload = .ok b
  | .universal u => u.bytes ≠ []
  | _ => True

theorem encodeTree_of_codable (h : L.Documented) (id : Int32)
    {payload : PayloadVariants L.arrow.Table} (hs : payload.Sized L) (hc : payload.Codable L) :
    ∃ n, encodeTree L payload id = .ok n ∧ TreeOf L payload id n := by
  cases payload with
  | standard s => exact tree_standard h.asn1 id s hs
  | file f =>
    obtain ⟨b, hb⟩ := hc
    exact tree_file h.asn1 id f hs.1 hb (h.arrow.stream_nonempty _ _ hb) (hs.2 b hb)
      (h.arrow.round_trip _ _ hb)
  | viewportRequest v => exact tree_viewportRequest h.asn1 id v
  | viewport v =>
    obtain ⟨b, hb⟩ := hc
    exact tree_viewport h.asn1 id v hb (h.arrow.stream_nonempty _ _ hb) (hs b hb)
      (h.arrow.round_trip _ _ hb)
  | tqlQuery q => exact tree_tqlQuery h.asn1 id q hs
  | error e => exact tree_error h.asn1 id e hs
  | universal u => exact tree_universal h.asn1 id u hc hs
  | ls l => exact tree_ls h.asn1 id l hs
  | lsSolution l => exact tree_lsSolution h.asn1 id l hs.2

/-- No other payload gets as far as a complete tree. -/
theorem codable_of_complete (h : L.asn1.Documented) {payload : PayloadVariants L.arrow.Table}
    (he : encodeTree L payload id = .ok n) (hc : L.asn1.Complete n) : payload.Codable L := by
  cases payload with
  | standard s => trivial
  | file f =>
    obtain ⟨n', hn', -, -, -⟩ := start_stores h id "file" "file" rfl
    cases hb : tableToBuffer L.arrow f.payload with
    | error e =>
      simp only [encodeTree, encodeFile, hn', hb, bind, Except.bind] at he
      cases he
    | ok b => exact ⟨b, hb⟩
  | viewportRequest v => trivial
  | viewport v =>
    obtain ⟨n', hn', -, -, -⟩ := start_stores h id "viewport" "viewport" rfl
    cases hb : tableToBuffer L.arrow v.payload with
    | error e =>
      simp only [encodeTree, encodeViewport, hn', hb, bind, Except.bind] at he
      cases he
    | ok b => exact ⟨b, hb⟩
  | tqlQuery q => trivial
  | error e => trivial
  | universal u =>
    obtain ⟨type, bytes⟩ := u
    rintro rfl
    obtain ⟨n', hn', hnc⟩ := universal_incomplete h id type
    rw [he] at hn'
    cases hn'
    exact hnc hc
  | ls l => trivial
  | lsSolution l => trivial

end Ttp2
