import Ttp2.Asn1Helpers

/-! # `encode` and `decode` (`asn1_encode.cpp`, `asn1_decode.cpp` and their tdfs parts)

One function per alternative on either side, under the source's names. -/
namespace Ttp2
open Lib Asn1Helpers Packet

/-! ## Encoding -/

namespace Encode
variable (L : Libraries)

/-- "Write structure": the choice is set to `alt`, or the function throws. -/
def chooseAlternative (packet : L.asn1.Node) (alt what : String) :
    Except Exception L.asn1.Node :=
  match L.asn1.writeValue packet "payload" (.text alt) 0 with
  | (.success, packet) => .ok packet
  | _ => .error (.invalidArgument s!"ASN1 set payload as {what} failed!")

def encodeStandard (packet : L.asn1.Node) (standard : Standard) : Except Exception L.asn1.Node := do
  let packet ← chooseAlternative L packet "standard" "standard"
  return asn1EncodePayloadString L.asn1 standard.payload packet "payload.standard.payload"

def encodeFile (packet : L.asn1.Node) (file : File L.arrow.Table) :
    Except Exception L.asn1.Node := do
  let packet ← chooseAlternative L packet "file" "file"
  let packet := asn1EncodePayloadString L.asn1 file.filePath packet "payload.file.filePath"
  let packet := asn1EncodePayloadInt L.asn1 file.start packet "payload.file.start"
  let packet := asn1EncodePayloadInt L.asn1 file.end_ packet "payload.file.end"
  let buffer ← tableToBuffer L.arrow file.payload
  if 0 < buffer.length then
    return asn1EncodePayloadBuffer L.asn1 (.memory buffer) (Int32.ofNat buffer.length) packet
      "payload.file.payload"
  return packet

def encodeViewportRequest (packet : L.asn1.Node) (viewportRequest : ViewportRequest) :
    Except Exception L.asn1.Node := do
  let packet ← chooseAlternative L packet "viewportRequest" "viewport request"
  let packet := asn1EncodePayloadInt L.asn1 viewportRequest.xStart packet
    "payload.viewportRequest.xStart"
  let packet := asn1EncodePayloadInt L.asn1 viewportRequest.xEnd packet
    "payload.viewportRequest.xEnd"
  let packet := asn1EncodePayloadInt L.asn1 viewportRequest.yStart packet
    "payload.viewportRequest.yStart"
  return asn1EncodePayloadInt L.asn1 viewportRequest.yEnd packet "payload.viewportRequest.yEnd"

def encodeViewport (packet : L.asn1.Node) (viewport : Viewport L.arrow.Table) :
    Except Exception L.asn1.Node := do
  let packet ← chooseAlternative L packet "viewport" "viewport"
  let packet := asn1EncodePayloadInt L.asn1 viewport.xStart packet "payload.viewport.xStart"
  let packet := asn1EncodePayloadInt L.asn1 viewport.xEnd packet "payload.viewport.xEnd"
  let packet := asn1EncodePayloadInt L.asn1 viewport.yStart packet "payload.viewport.yStart"
  let packet := asn1EncodePayloadInt L.asn1 viewport.yEnd packet "payload.viewport.yEnd"
  let buffer ← tableToBuffer L.arrow viewport.payload
  return asn1EncodePayloadBuffer L.asn1 (.memory buffer) (Int32.ofNat buffer.length) packet
    "payload.viewport.payload"

def encodeTqlQuery (packet : L.asn1.Node) (tqlQuery : TqlQuery) : Except Exception L.asn1.Node := do
  let packet ← chooseAlternative L packet "tqlQuery" "tql query"
  return asn1EncodePayloadString L.asn1 tqlQuery.query packet "payload.tqlQuery.query"

def encodeError (packet : L.asn1.Node) (error : Packet.Error) : Except Exception L.asn1.Node := do
  let packet ← chooseAlternative L packet "error" "error"
  let packet := asn1EncodePayloadInt L.asn1 error.code packet "payload.error.code"
  return asn1EncodePayloadString L.asn1 error.message packet "payload.error.message"

def encodeUniversal (packet : L.asn1.Node) (universal : Universal) :
    Except Exception L.asn1.Node := do
  let packet ← chooseAlternative L packet "universal" "universal"
  let packet := asn1EncodePayloadInt L.asn1 universal.type packet "payload.universal.type"
  return asn1EncodePayloadBuffer L.asn1 (vectorData universal.bytes)
    (Int32.ofNat universal.bytes.length) packet "payload.universal.bytes"

def encodeLs (packet : L.asn1.Node) (ls : Ls) : Except Exception L.asn1.Node := do
  let packet ← chooseAlternative L packet "ls" "ls"
  return asn1EncodePayloadString L.asn1 ls.directory packet "payload.ls.directory"

def encodeLsSolution (packet : L.asn1.Node) (lsSolution : LsSolution) :
    Except Exception L.asn1.Node := do
  let packet ← chooseAlternative L packet "lsSolution" "lsSolution"
  return asn1EncodePayloadVector L.asn1 lsSolution.content packet
    "payload.lsSolution.directoryItems"

/-- The tree `encode` has built when it comes to the DER coding. -/
def encodeTree (payload : PayloadVariants L.arrow.Table) (id : Int32) :
    Except Exception L.asn1.Node :=
  let packet := asn1EncodePayloadInt L.asn1 id L.asn1.createElement "id"
  match payload with
  | .standard standard => encodeStandard L packet standard
  | .file file => encodeFile L packet file
  | .viewportRequest viewportRequest => encodeViewportRequest L packet viewportRequest
  | .viewport viewport => encodeViewport L packet viewport
  | .tqlQuery tqlQuery => encodeTqlQuery L packet tqlQuery
  | .error error => encodeError L packet error
  | .universal universal => encodeUniversal L packet universal
  | .ls ls => encodeLs L packet ls
  | .lsSolution lsSolution => encodeLsSolution L packet lsSolution

/-- The DER coding of a tree in two calls: the first asks for the length, the
second writes into a vector of that size. -/
def derCode (packet : L.asn1.Node) : Except Exception Bytes :=
  let derLen := (L.asn1.derCoding packet 0).len
  if derLen.toInt < 0 then .error .lengthError
  else
    let coding := L.asn1.derCoding packet derLen
    if coding.status ≠ .success then
      .error (.invalidArgument ("Error while encoding packet: " ++ coding.errorDescription))
    else .ok (fill derLen.toInt.toNat coding.bytes)

def encode (payload : PayloadVariants L.arrow.Table) (id : Int32) : Except Exception Bytes :=
  match L.asn1.array2tree with
  | .error errorDescription => .error
      (.invalidArgument ("Error in sendMessage when loading asn1: " ++ errorDescription))
  | .ok _ => do
    let packet ← encodeTree L payload id
    derCode L packet

end Encode

/-! ## Decoding -/

namespace Decode
variable (L : Libraries)

def decodeStandard (packet : L.asn1.Node) : Standard where
  payload := asn1DecodePayloadString L.asn1 packet "payload.standard.payload"

def decodeFile (packet : L.asn1.Node) : Except InvalidArgument (File L.arrow.Table) := do
  let filePath := asn1DecodePayloadString L.asn1 packet "payload.file.filePath"
  let start := asn1DecodePayloadInt L.asn1 packet "payload.file.start"
  let end_ := asn1DecodePayloadInt L.asn1 packet "payload.file.end"
  let buffer := asn1DecodePayloadBuffer L.asn1 packet "payload.file.payload"
  let payload ← bufferToTable L.arrow buffer
  return { filePath, start, end_, payload }

def decodeViewportRequest (packet : L.asn1.Node) : ViewportRequest where
  xStart := asn1DecodePayloadInt L.asn1 packet "payload.viewportRequest.xStart"
  xEnd := asn1DecodePayloadInt L.asn1 packet "payload.viewportRequest.xEnd"
  yStart := asn1DecodePayloadInt L.asn1 packet "payload.viewportRequest.yStart"
  yEnd := asn1DecodePayloadInt L.asn1 packet "payload.viewportRequest.yEnd"

def decodeViewport (packet : L.asn1.Node) : Except InvalidArgument (Viewport L.arrow.Table) := do
  let xStart := asn1DecodePayloadInt L.asn1 packet "payload.viewport.xStart"
  let xEnd := asn1DecodePayloadInt L.asn1 packet "payload.viewport.xEnd"
  let yStart := asn1DecodePayloadInt L.asn1 packet "payload.viewport.yStart"
  let yEnd := asn1DecodePayloadInt L.asn1 packet "payload.viewport.yEnd"
  let buffer := asn1DecodePayloadBuffer L.asn1 packet "payload.viewport.payload"
  let payload ← bufferToTable L.arrow buffer
  return { xStart, xEnd, yStart, yEnd, payload }

def decodeTqlQuery (packet : L.asn1.Node) : TqlQuery where
  query := asn1DecodePayloadString L.asn1 packet "payload.tqlQuery.query"

def decodeError (packet : L.asn1.Node) : Packet.Error where
  code := asn1DecodePayloadInt L.asn1 packet "payload.error.code"
  message := asn1DecodePayloadString L.asn1 packet "payload.error.message"

def decodeUniversal (packet : L.asn1.Node) : Universal where
  type := asn1DecodePayloadInt L.asn1 packet "payload.universal.type"
  bytes := asn1DecodePayloadBuffer L.asn1 packet "payload.universal.bytes"

def decodeLs (packet : L.asn1.Node) : Ls where
  directory := asn1DecodePayloadString L.asn1 packet "payload.ls.directory"

def decodeLsSolution (packet : L.asn1.Node) : LsSolution where
  content := asn1DecodePayloadVector L.asn1 packet "payload.lsSolution.directoryItems"

/-- The alternative named by the decoded choice. -/
def decodePayload (packet : L.asn1.Node) (typeName : String) :
    Except InvalidArgument (PayloadVariants L.arrow.Table) :=
  if typeName = "standard" then .ok (.standard (decodeStandard L packet))
  else if typeName = "file" then (decodeFile L packet).map .file
  else if typeName = "viewportRequest" then
    .ok (.viewportRequest (decodeViewportRequest L packet))
  else if typeName = "viewport" then (decodeViewport L packet).map .viewport
  else if typeName = "tqlQuery" then .ok (.tqlQuery (decodeTqlQuery L packet))
  else if typeName = "error" then .ok (.error (decodeError L packet))
  else if typeName = "universal" then .ok (.universal (decodeUniversal L packet))
  else if typeName = "ls" then .ok (.ls (decodeLs L packet))
  else if typeName = "lsSolution" then .ok (.lsSolution (decodeLsSolution L packet))
  else .error ⟨"Error decoding payload: Unknown type!"⟩

def decode (derBuffer : Bytes) : Except InvalidArgument (Packet L.arrow.Table) :=
  match L.asn1.array2tree with
  | .error _ => .ok {}
  | .ok _ =>
    match L.asn1.derDecoding derBuffer with
    | none => .error ⟨"Error decoding ASN1"⟩
    | some packet => do
      let id := asn1DecodePayloadInt L.asn1 packet "id"
      -- the status of the read is not looked at
      let typeName := (L.asn1.readChoice packet "payload" 64).getD (L.unwrittenTypeName derBuffer)
      let payload ← decodePayload L packet typeName
      return { id, payload }

end Decode
end Ttp2
