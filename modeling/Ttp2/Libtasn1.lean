import Ttp2.PacketTypes
import Ttp2.Lib.TwosComplement
import Mathlib.Data.List.Range

/-! # The schema, and the two libraries the codec calls

`packets.asn1` as data, and libtasn1 and Arrow as parameters: what they do is
not in the repository. `Libtasn1.Documented` names what their documentation
promises and the codec relies on, in terms of what an element of the tree
stores (`stored`), which alternative is chosen (`chosen`) and how many
elements a list has (`elements`). -/
namespace Ttp2
open Lib TwosComplement

/-! ## packets.asn1 -/

inductive Asn1Type where
  | integer
  | octetString
  | sequenceOfUtf8String
  deriving DecidableEq

/-- The alternatives of `Packet.payload` in the order of their tags [0] to
[8], each with the components of its SEQUENCE. -/
def packetsAsn1 : List (String × List (String × Asn1Type)) := [
  ("standard", [("payload", .octetString)]),
  ("file", [("filePath", .octetString), ("start", .integer), ("end", .integer),
    ("payload", .octetString)]),
  ("viewportRequest", [("xStart", .integer), ("xEnd", .integer), ("yStart", .integer),
    ("yEnd", .integer)]),
  ("viewport", [("xStart", .integer), ("xEnd", .integer), ("yStart", .integer),
    ("yEnd", .integer), ("payload", .octetString)]),
  ("tqlQuery", [("query", .octetString)]),
  ("error", [("code", .integer), ("message", .octetString)]),
  ("universal", [("type", .integer), ("bytes", .octetString)]),
  ("ls", [("directory", .octetString)]),
  ("lsSolution", [("directoryItems", .sequenceOfUtf8String)])]

/-- The full name of a component of the chosen alternative. -/
def fieldName (alt field : String) : String := "payload." ++ alt ++ "." ++ field

/-- The name of the `k`-th element of a list, counted from 1. -/
def elementName (key : String) (k : Nat) : String := key ++ ".?" ++ toString k

/-- The type of the element a name denotes once `chosen` is the alternative
of `payload`; none when the schema has no such element. -/
def elementType (chosen : Option String) (name : String) : Option Asn1Type :=
  if name = "id" then some .integer
  else do
    let alt ← chosen
    let fields ← packetsAsn1.lookup alt
    let field ← fields.find? fun f => name = fieldName alt f.1
    return field.2

/-! ## libtasn1 -/

/-- The statuses the code tells apart: `ASN1_SUCCESS`, `ASN1_MEM_ERROR` and
every other. -/
inductive Asn1Status where
  | success
  | memError
  | other
  deriving DecidableEq

/-- The `ivalue` argument of `asn1_write_value`: a null pointer, a
NUL-terminated text, or a pointer to readable memory. -/
inductive Asn1Value where
  | null
  | text (text : String)
  | memory (bytes : Bytes)

/-- What `asn1_read_value` leaves: its status, `*len`, and the bytes it wrote. -/
structure ReadValue where
  status : Asn1Status
  len : Nat
  bytes : Bytes := []

/-- What `asn1_der_coding` leaves: its status, `*len`, the bytes it wrote and
the error text. -/
structure DerCoding where
  status : Asn1Status
  len : Int32
  bytes : Bytes := []
  errorDescription : String := ""

/-- libtasn1, as far as the codec calls it. `stored`, `chosen`, `elements`,
`derSize` and `negative` are not called: they name what a node holds, for the
documentation to speak about, and what it leaves open. -/
structure Libtasn1 where
  Node : Type
  /-- `asn1_array2tree(packets_asn1_tab, &definitions, errorDescription)` -/
  array2tree : Except String Unit
  /-- `asn1_create_element(definitions, "Packets.Packet", &packet)` -/
  createElement : Node
  /-- `asn1_write_value(packet, name, value, len)` -/
  writeValue : Node → String → Asn1Value → Int32 → Asn1Status × Node
  /-- `asn1_read_value(packet, name, buffer, &len)` with `len` bytes of room -/
  readValue : Node → String → Nat → ReadValue
  /-- `asn1_read_value` of a CHOICE: the chosen alternative's name -/
  readChoice : Node → String → Nat → Option String
  /-- `asn1_number_of_elements(packet, name, &count)` -/
  numberOfElements : Node → String → Asn1Status × Nat
  /-- `asn1_der_coding(packet, "", buffer, &len, errorDescription)` -/
  derCoding : Node → Int32 → DerCoding
  /-- `asn1_der_decoding(&packet, bytes, size, errorDescription)` -/
  derDecoding : Bytes → Option Node
  stored : Node → String → Option Bytes
  chosen : Node → Option String
  elements : Node → String → Nat
  derSize : Node → Nat
  /-- What a write of a negative number of bytes keeps; none if it is refused. -/
  negative : Bytes → Int32 → Option Bytes

namespace Libtasn1

/-- The name denotes an element whose content is an octet string: an OCTET
STRING component or an element of a list. -/
def OctetElement (lib : Libtasn1) (n : lib.Node) (name : String) : Prop :=
  elementType (lib.chosen n) name = some .octetString ∨
    ∃ key k, elementType (lib.chosen n) key = some .sequenceOfUtf8String ∧
      name = elementName key k ∧ 1 ≤ k ∧ k ≤ lib.elements n key

/-- Every mandatory element has a value: the id, the choice, the components
of the chosen alternative and the elements of its lists. -/
def Complete (lib : Libtasn1) (n : lib.Node) : Prop :=
  (lib.stored n "id").isSome ∧ ∃ alt fields, lib.chosen n = some alt ∧
    packetsAsn1.lookup alt = some fields ∧ ∀ f ∈ fields, match f.2 with
      | .sequenceOfUtf8String => ∀ k, 1 ≤ k → k ≤ lib.elements n (fieldName alt f.1) →
          (lib.stored n (elementName (fieldName alt f.1) k)).isSome
      | _ => (lib.stored n (fieldName alt f.1)).isSome

/-- What the documentation of libtasn1 promises, for the schema above. -/
structure Documented (lib : Libtasn1) : Prop where
  array2tree : lib.array2tree = .ok ()
  create_chosen : lib.chosen lib.createElement = none
  /-- A write leaves every element of another name as it was, whatever its
  status; only the choice, and a null value for a list, reach below the name. -/
  write_frame : ∀ n name v len name', name ≠ "payload" → name' ≠ name →
    (v = .null → elementType (lib.chosen n) name ≠ some .sequenceOfUtf8String) →
    lib.stored (lib.writeValue n name v len).2 name' = lib.stored n name' ∧
      lib.elements (lib.writeValue n name v len).2 name' = lib.elements n name'
  write_chosen : ∀ n name v len, name ≠ "payload" →
    lib.chosen (lib.writeValue n name v len).2 = lib.chosen n
  write_choice_id : ∀ n v len, lib.stored (lib.writeValue n "payload" v len).2 "id" =
    lib.stored n "id"
  /-- Writing an alternative's name to a fresh choice selects it. -/
  write_choice : ∀ n alt len, lib.chosen n = none → (packetsAsn1.lookup alt).isSome →
    (lib.writeValue n "payload" (.text alt) len).1 = .success ∧
      lib.chosen (lib.writeValue n "payload" (.text alt) len).2 = some alt ∧
      ∀ key, lib.elements (lib.writeValue n "payload" (.text alt) len).2 key = 0
  /-- A decimal text is stored as minimal two's-complement octets. -/
  write_integer : ∀ n name (v : Int32), elementType (lib.chosen n) name = some .integer →
    (lib.writeValue n name (.text (toString v.toInt)) 0).1 = .success ∧
      lib.stored (lib.writeValue n name (.text (toString v.toInt)) 0).2 name =
        some (intOctets v.toInt)
  /-- A positive length stores exactly so many bytes. -/
  write_octets : ∀ n name memory (len : Int32), lib.OctetElement n name → 0 < len.toInt →
    len.toInt ≤ memory.length →
    (lib.writeValue n name (.memory memory) len).1 = .success ∧
      lib.stored (lib.writeValue n name (.memory memory) len).2 name =
        some (memory.take len.toInt.toNat)
  /-- Length 0 stores the bytes up to the terminating NUL. -/
  write_terminated : ∀ n name memory, lib.OctetElement n name → 0 ∈ memory →
    (lib.writeValue n name (.memory memory) 0).1 = .success ∧
      lib.stored (lib.writeValue n name (.memory memory) 0).2 name =
        some (memory.takeWhile (· ≠ 0))
  /-- A null value is refused for a mandatory element and leaves it as it was. -/
  write_null : ∀ n name len, lib.OctetElement n name →
    (lib.writeValue n name .null len).1 ≠ .success ∧
      lib.stored (lib.writeValue n name .null len).2 name = lib.stored n name
  /-- The alternative's components have no value before they are written. -/
  choice_empty : ∀ n alt len name, lib.chosen n = none → (packetsAsn1.lookup alt).isSome → name ≠ "id" →
    lib.stored (lib.writeValue n "payload" (.text alt) len).2 name = none
  /-- Writing "NEW" to a list appends one element. -/
  write_new : ∀ n key len, elementType (lib.chosen n) key = some .sequenceOfUtf8String →
    (lib.writeValue n key (.text "NEW") len).1 = .success ∧
      lib.elements (lib.writeValue n key (.text "NEW") len).2 key = lib.elements n key + 1
  /-- Reading gives the stored octets where they fit, else their number. -/
  read_value : ∀ n name octets room, lib.stored n name = some octets →
    lib.readValue n name room =
      if octets.length ≤ room then { status := .success, len := octets.length, bytes := octets }
      else { status := .memError, len := octets.length }
  read_choice : ∀ n alt room, lib.chosen n = some alt → alt.length < room →
    lib.readChoice n "payload" room = some alt
  number_of_elements : ∀ n key, elementType (lib.chosen n) key = some .sequenceOfUtf8String →
    lib.numberOfElements n key = (.success, lib.elements n key)
  /-- The length of the coding is reported through an `int`. -/
  der_length : ∀ n, lib.Complete n → lib.derSize n < 2 ^ 31 →
    (lib.derCoding n 0).len = Int32.ofNat (lib.derSize n)
  der_success : ∀ n, lib.Complete n → lib.derSize n < 2 ^ 31 →
    (lib.derCoding n (Int32.ofNat (lib.derSize n))).status = .success
  /-- The coding fails when a mandatory element has no value, and when its
  length is beyond an `int`. -/
  der_requires : ∀ n room, (lib.derCoding n room).status = .success →
    lib.Complete n ∧ lib.derSize n < 2 ^ 31 ∧
      (lib.derCoding n room).bytes.length = lib.derSize n
  /-- What was coded is accepted again, with the same content. -/
  der_decoding : ∀ n room, (lib.derCoding n room).status = .success →
    ∃ m, lib.derDecoding (lib.derCoding n room).bytes = some m ∧ lib.chosen m = lib.chosen n ∧
      (∀ name, lib.stored m name = lib.stored n name) ∧
      ∀ key, lib.elements m key = lib.elements n key

end Libtasn1

/-! ## Arrow -/

/-- The Arrow calls of `tableToBuffer` and `bufferToTable`, each with the
outcome the code tests. -/
structure Arrow where
  Table : Type
  /-- `streamWriter->WriteTable(*table)` is ok -/
  writeTable : Table → Bool
  /-- `outputStream->Finish()` once the table is written and the writer closed -/
  finish : Table → Option Bytes
  /-- `bufferBuilder.Resize(dataSize)` is ok -/
  resize : Nat → Bool
  /-- `bufferBuilder.Append(rawData, dataSize)` is ok -/
  append : Bytes → Bool
  /-- `bufferBuilder.Finish(&buffer)` is ok -/
  finishBuilder : Bytes → Bool
  /-- `RecordBatchStreamReader::Open(inputStream)` is ok -/
  openStream : Bytes → Bool
  /-- `streamReader->ToTable()` -/
  toTable : Bytes → Option Table

/-- The libraries the repository is built against. -/
structure Libraries where
  asn1 : Libtasn1
  arrow : Arrow
  /-- What the array `typeName` of `decode` reads as while nothing was written to it. -/
  unwrittenTypeName : Bytes → String

end Ttp2
