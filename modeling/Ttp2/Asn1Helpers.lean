import Ttp2.Libtasn1

/-! # `Asn1Helpers` (`asn1_helpers.cpp`)

The helpers between a packet's fields and the elements of the libtasn1 tree,
and between Arrow tables and buffers. A helper that fails to write logs the
failure and goes on; the log is not modelled. -/
namespace Ttp2
open Lib

/-- The exceptions that leave `encode`: `std::invalid_argument` with its text,
and the `std::length_error` of a vector built with a negative size. -/
inductive Exception where
  | invalidArgument (what : String)
  | lengthError
  deriving DecidableEq

/-- `std::invalid_argument`, the one exception that leaves `decode`. -/
structure InvalidArgument where
  what : String
  deriving DecidableEq

namespace Asn1Helpers

/-- A buffer of `size` zero bytes into which `bytes` were written. -/
def fill (size : Nat) (bytes : Bytes) : Bytes := bytes ++ List.replicate (size - bytes.length) 0

@[simp] theorem fill_length (bytes : Bytes) : fill bytes.length bytes = bytes := by simp [fill]

/-- `std::string::c_str`: the bytes and the terminating NUL. -/
def cStr (s : Bytes) : Asn1Value := .memory (s ++ [0])

/-- `std::strlen` of a string's `c_str`. -/
def strlen (s : Bytes) : Nat := (s.takeWhile (· ≠ 0)).length

/-- `std::vector::data`: null for an empty vector. -/
def vectorData (v : Bytes) : Asn1Value := if v = [] then .null else .memory v

variable (lib : Libtasn1)

/-! ## Writing -/

/-- `asn1EncodePayload(std::string, …)` -/
def asn1EncodePayloadString (payload : Bytes) (packet : lib.Node) (asn1Key : String) : lib.Node :=
  (lib.writeValue packet asn1Key (cStr payload) (Int32.ofNat (strlen payload))).2

/-- `asn1EncodePayload(int, …)`: the value goes to libtasn1 as decimal text. -/
def asn1EncodePayloadInt (payload : Int32) (packet : lib.Node) (asn1Key : String) : lib.Node :=
  (lib.writeValue packet asn1Key (.text (toString payload.toInt)) 0).2

/-- `asn1EncodePayload(const uint8_t*, int, …)` -/
def asn1EncodePayloadBuffer (buffer : Asn1Value) (size : Int32) (packet : lib.Node)
    (asn1Key : String) : lib.Node :=
  (lib.writeValue packet asn1Key buffer size).2

/-- The loop of `asn1EncodePayload(std::vector<std::string>, …)` from `index` on. -/
def asn1EncodePayloadVectorFrom (asn1Key : String) : Nat → List Bytes → lib.Node → lib.Node
  | _, [], packet => packet
  | index, item :: items, packet =>
    let appended := lib.writeValue packet asn1Key (.text "NEW") 1
    if appended.1 ≠ .success then appended.2
    else
      let written := lib.writeValue appended.2 (elementName asn1Key (index + 1)) (cStr item)
        (Int32.ofNat item.length)
      if written.1 ≠ .success then written.2
      else asn1EncodePayloadVectorFrom asn1Key (index + 1) items written.2

/-- `asn1EncodePayload(std::vector<std::string>, …)` -/
def asn1EncodePayloadVector (payload : List Bytes) (packet : lib.Node) (asn1Key : String) :
    lib.Node :=
  asn1EncodePayloadVectorFrom lib asn1Key 0 payload packet

/-! ## Reading -/

def asn1DecodePayloadString (packet : lib.Node) (asn1Key : String) : Bytes :=
  let probe := lib.readValue packet asn1Key 0
  if 0 < probe.len then
    let read := lib.readValue packet asn1Key probe.len
    (fill probe.len read.bytes).take read.len
  else []

def bytesToInt (bytes : Bytes) (size : Nat) : Int32 :=
  (bytes.take size).foldl (fun result byte => (result <<< 8) ||| Int32.ofNat byte.toNat) 0

def asn1DecodePayloadInt (packet : lib.Node) (asn1Key : String) : Int32 :=
  let probe := lib.readValue packet asn1Key 0
  if 0 < probe.len then
    let read := lib.readValue packet asn1Key probe.len
    bytesToInt (fill probe.len read.bytes) read.len
  else bytesToInt [] probe.len

def asn1DecodePayloadBuffer (packet : lib.Node) (asn1Key : String) : Bytes :=
  let probe := lib.readValue packet asn1Key 0
  if probe.status = .memError ∧ 0 < probe.len then
    fill probe.len (lib.readValue packet asn1Key probe.len).bytes
  else fill probe.len []

/-- One iteration of the loop of `asn1DecodePayloadVector`; an element that
cannot be read is skipped. -/
def asn1DecodeItem (packet : lib.Node) (asn1Key : String) (index : Nat) : Option Bytes :=
  let elementKey := elementName asn1Key index
  let probe := lib.readValue packet elementKey 0
  if probe.status ≠ .memError ∧ probe.status ≠ .success then none
  else
    let read := lib.readValue packet elementKey probe.len
    if read.status ≠ .success then none
    else some (fill probe.len read.bytes)

def asn1DecodePayloadVector (packet : lib.Node) (asn1Key : String) : List Bytes :=
  match lib.numberOfElements packet asn1Key with
  | (.success, count) => (List.range' 1 count).filterMap (asn1DecodeItem lib packet asn1Key)
  | _ => []

/-! ## Tables -/

variable (arrow : Arrow)

def tableToBuffer (table : arrow.Table) : Except Exception Bytes :=
  if !arrow.writeTable table then
    .error (.invalidArgument "Something went wrong while writing the structure!")
  else match arrow.finish table with
    | none => .error (.invalidArgument "Something went wrong while converting table to buffer!")
    | some buffer => .ok buffer

def bufferToTable (rawData : Bytes) : Except InvalidArgument arrow.Table :=
  if !arrow.resize rawData.length then .error ⟨"Buffer allocation failed in bufferToTable"⟩
  else if !arrow.append rawData then .error ⟨"Failed to append raw data to buffer"⟩
  else if !arrow.finishBuilder rawData then .error ⟨"Failed to finish buffer building"⟩
  else if !arrow.openStream rawData then .error ⟨"Open input stream failed in bufferToTable"⟩
  else match arrow.toTable rawData with
    | none => .error ⟨"Create table failed in bufferToTable"⟩
    | some table => .ok table

end Asn1Helpers

/-- What the documentation of Arrow promises of its IPC stream format: a
stream carries at least its schema, and reading it gives the table back. -/
structure Arrow.Documented (arrow : Arrow) : Prop where
  stream_nonempty : ∀ table buffer, Asn1Helpers.tableToBuffer arrow table = .ok buffer →
    buffer ≠ []
  round_trip : ∀ table buffer, Asn1Helpers.tableToBuffer arrow table = .ok buffer →
    Asn1Helpers.bufferToTable arrow buffer = .ok table

/-- The libraries behave as documented. -/
structure Libraries.Documented (L : Libraries) : Prop where
  asn1 : L.asn1.Documented
  arrow : L.arrow.Documented

end Ttp2
