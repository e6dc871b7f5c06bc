import Ttp2.EchoStability

/-! # Byte vectors and directory listings on the wire

A `Universal` arrives with its bytes unless it has none: the null pointer of
an empty vector is refused and the frame cannot be coded, where an empty
string is sent. A listing arrives item by item, empty items included, as long
as its coding has a length an `int` can hold. -/
namespace Ttp2
open Lib TwosComplement Asn1Helpers Packet Encode Decode

variable {L : Libraries}

/-! ## `Universal` -/

/-- The packet is encoded, and decoded to a `Universal` with the same bytes. -/
def BytesArrive (L : Libraries) (u : Universal) (id : Int32) : Prop :=
  ∃ buffer q u', encode L (.universal u) id = .ok buffer ∧ decode L buffer = .ok q ∧
    q.payload = .universal u' ∧ u'.bytes = u.bytes

/-- **Which byte vectors can be sent:** all but the empty one. -/
theorem bytes_arrive_iff (h : L.Documented) (u : Universal) (id : Int32)
    (hlt : u.bytes.length < 2 ^ 31)
    (hframe : u.bytes ≠ [] → codedSize L { id, payload := .universal u } < 2 ^ 31) :
    BytesArrive L u id ↔ u.bytes ≠ [] := by
  constructor
  · rintro ⟨buffer, q, u', he, -⟩
    exact codable_of_encode h he
  · intro hne
    obtain ⟨n, hn, ht⟩ := tree_universal h.asn1 id u hne hlt
    obtain ⟨buffer, he⟩ := (encode_ok_iff_of_complete h { id, payload := .universal u } hn
      ht.complete).mpr (hframe hne)
    exact ⟨buffer, _, _, he, decode_of_tree h hn ht he, rfl, rfl⟩

theorem bytes_arrive_one :
    BytesArrive Reference.libraries { type := 1, bytes := [0x00] } 7 ↔ [(0x00 : UInt8)] ≠ [] :=
  bytes_arrive_iff Reference.libraries_documented { type := 1, bytes := [0x00] } 7 (by decide)
    (fun _ => by decide +kernel)

/-- A `Universal` without bytes is refused. -/
theorem empty_bytes_refused : ¬ ∀ (u : Universal) (id : Int32), u.bytes.length < 2 ^ 31 →
    codedSize Reference.libraries { id, payload := .universal u } < 2 ^ 31 →
    BytesArrive Reference.libraries u id := by
  intro h
  obtain ⟨buffer, -, -, he, -⟩ := h { type := 1, bytes := [] } 7 (by decide) (by decide +kernel)
  have hrefused : encode Reference.libraries (.universal { type := 1, bytes := [] }) 7 =
      .error (.invalidArgument "Error while encoding packet: value not found") := rfl
  rw [hrefused] at he
  cases he

/-! ## `LsSolution` -/

/-- **Directory listings survive the wire:** any number of items of any
content, as long as the coding has a length an `int` can hold. -/
theorem listing_arrives (h : L.Documented) (l : LsSolution) (id : Int32)
    (hs : ∀ item ∈ l.content, item.length < 2 ^ 31)
    (hframe : codedSize L { id, payload := .lsSolution l } < 2 ^ 31) :
    ∃ buffer q, encode L (.lsSolution l) id = .ok buffer ∧ decode L buffer = .ok q ∧
      q.payload = .lsSolution l := by
  obtain ⟨n, hn, ht⟩ := tree_lsSolution h.asn1 id l hs
  obtain ⟨buffer, he⟩ := (encode_ok_iff_of_complete h { id, payload := .lsSolution l } hn
    ht.complete).mpr hframe
  exact ⟨buffer, _, he, decode_of_tree h hn ht he, rfl⟩

theorem listing_arrives_two :
    ∃ buffer q, encode Reference.libraries (.lsSolution { content := [[], [0x61, 0x00]] }) 7 =
        .ok buffer ∧ decode Reference.libraries buffer = .ok q ∧
      q.payload = .lsSolution { content := [[], [0x61, 0x00]] } :=
  listing_arrives Reference.libraries_documented { content := [[], [0x61, 0x00]] } 7 (by decide)
    (by decide +kernel)

/-- The coding of a listing takes 33 octets more than a long item, at least:
six for each of the five values around it and three for the id. -/
theorem Reference.item_le_code {n : Reference.Tree} {item id : Bytes}
    (hc : n.chosen = some "lsSolution") (hi : some item ∈ n.items) (hid : n.id = some id)
    (hpos : 1 ≤ id.length) (hlong : 2 ^ 24 ≤ item.length) :
    item.length + 33 ≤ n.code.length := by
  have hitem : item ∈ n.items.map (·.getD []) := List.mem_map.mpr ⟨some item, hi, rfl⟩
  have hfields : packetsAsn1.lookup "lsSolution" =
      some [("directoryItems", .sequenceOfUtf8String)] := rfl
  have hpayload : n.payloadCode = Der.tlv (Reference.Tree.altTag "lsSolution")
      (Der.tlv 0x30 (Der.tlv 0x30 ((n.items.map (·.getD [])).flatMap (Der.tlv 0x0C)))) := by
    rw [Reference.Tree.payloadCode, hc]
    dsimp only
    rw [hfields, Option.getD_some, List.flatMap_cons, List.flatMap_nil, List.append_nil]
    rfl
  rw [Reference.Tree.code, hpayload, hid, Option.getD_some]
  generalize hitems : (n.items.map (·.getD [])).flatMap (Der.tlv 0x0C) = items
  have h1 := Der.length_tlv_ge 0x0C item hlong
  have h2 : (Der.tlv 0x0C item).length ≤ items.length := by
    rw [← hitems, List.flatMap_def]
    exact (List.sublist_flatten_of_mem (List.mem_map_of_mem hitem)).length_le
  have h3 := Der.length_tlv_ge 0x30 items (by omega)
  have h4 := Der.length_tlv_ge 0x30 (Der.tlv 0x30 items) (by omega)
  have h5 := Der.length_tlv_ge (Reference.Tree.altTag "lsSolution")
    (Der.tlv 0x30 (Der.tlv 0x30 items)) (by omega)
  have h6 := Der.length_tlv 0x02 id
  have h7 := Der.length_pos_lengthOctets id.length
  have h8 := Der.length_tlv_ge 0x30 (Der.tlv 0x02 id ++
    Der.tlv (Reference.Tree.altTag "lsSolution") (Der.tlv 0x30 (Der.tlv 0x30 items)))
    (by rw [List.length_append]; omega)
  rw [List.length_append] at h8
  omega

/-- One item of 2^31 - 33 octets is a listing whose coding has 2^31 octets, one
more than an `int` can say. -/
theorem long_listing_refused :
    ¬ ∀ (l : LsSolution) (id : Int32), (∀ item ∈ l.content, item.length < 2 ^ 31) →
      ∃ buffer q, encode Reference.libraries (.lsSolution l) id = .ok buffer ∧
        decode Reference.libraries buffer = .ok q ∧ q.payload = .lsSolution l := by
  intro h
  have hlen : (List.replicate (2 ^ 31 - 33) (0 : UInt8)).length = 2 ^ 31 - 33 :=
    List.length_replicate
  generalize List.replicate (2 ^ 31 - 33) (0 : UInt8) = item at hlen
  have hs : ∀ i ∈ [item], i.length < 2 ^ 31 := by
    intro i hi
    rw [List.mem_singleton.mp hi, hlen]
    decide
  obtain ⟨buffer, q, he, -⟩ := h { content := [item] } 0 hs
  obtain ⟨n, hn, hcode⟩ := encode_eq_ok Reference.libraries_documented he
  have hlt := (derCode_eq_ok Reference.libraries_documented.asn1 hcode).2.1
  obtain ⟨n', hn', hl⟩ := lists_lsSolution Reference.libraries_documented.asn1 0 { content := [item] } hs
  cases hn.symm.trans hn'
  have hitem := hl.items 0 (by simp)
  change Reference.Tree.stored n (elementName Reference.itemsKey (0 + 1)) = some item at hitem
  rw [Reference.Tree.stored_item hl.stores.chosen] at hitem
  have hmem : some item ∈ n.items := List.mem_of_getElem? (Option.join_eq_some_iff.mp hitem)
  have hid : n.id = some [0] := hl.stores.stored _ (List.mem_singleton_self _)
  have hle := Reference.item_le_code hl.stores.chosen hmem hid (by decide) (by omega)
  change n.code.length < 2 ^ 31 at hlt
  omega

end Ttp2
