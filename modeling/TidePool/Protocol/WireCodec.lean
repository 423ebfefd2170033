import TidePool.Api.BlockCodec

/-! The wire protocol, version 1 (`src/protocol/wire_codec.cpp`): a big-endian header of 32 bytes and a
    payload whose length the header declares.

        0  "TPNW"   4  version   6  header size   8  kind   9  opcode   10  status   12  flags
        16  request_id   24  payload_bytes   32  payload

    `enum class` values come off the wire unchecked, so a header carries the raw numbers; the
    enumerations below are the numbers that have a meaning. Functions that copy bytes take the outcome of
    that allocation (`alloc`); a null pointer only ever comes with no bytes and is not modelled apart. -/

namespace TidePool.Wire

open Schemes.Endian

def magic : UInt32 := 0x54504e57
def version : UInt16 := 1
def headerBytes : ℕ := 32
def blockKeyBytes : ℕ := 16

inductive MessageKind where
  | request | response
  deriving DecidableEq, Repr

def MessageKind.raw : MessageKind → UInt8
  | .request => 1
  | .response => 2

inductive Opcode where
  | get | put | ping
  deriving DecidableEq, Repr

def Opcode.raw : Opcode → UInt8
  | .get => 1
  | .put => 2
  | .ping => 3

inductive WireStatus where
  | ok | notImplemented | notFound | invalidArgument | alreadyExists | ioError | networkError
  | unavailable | outOfCapacity | corruption | internal
  deriving DecidableEq, Repr

def WireStatus.raw : WireStatus → UInt16
  | .ok => 0
  | .notImplemented => 1
  | .notFound => 2
  | .invalidArgument => 3
  | .alreadyExists => 4
  | .ioError => 5
  | .networkError => 6
  | .unavailable => 7
  | .outOfCapacity => 8
  | .corruption => 9
  | .internal => 10

/-- The raw numbers of a header. -/
structure FrameHeader where
  kind : UInt8 := MessageKind.request.raw
  opcode : UInt8 := Opcode.ping.raw
  status : UInt16 := WireStatus.ok.raw
  flags : UInt32 := 0
  requestId : UInt64 := 0
  payloadBytes : UInt64 := 0
  deriving DecidableEq, Repr

structure CodecLimits where
  maxFrameBytes : UInt64 := 268435456
  maxErrorMessageBytes : UInt32 := 4096
  deriving DecidableEq, Repr

/-! ### Statuses of the codec -/

def invalid (message : String) : Status := .invalidArgument ("wire_codec: " ++ message)
def corrupt (message : String) : Status := .corruption ("wire_codec: " ++ message)
def capacity (message : String) : Status := .outOfCapacity ("wire_codec: " ++ message)

def inputError (networkInput : Bool) (message : String) : Status :=
  if networkInput then corrupt message else invalid message

/-! ### Headers -/

def isKnownKind (kind : UInt8) : Bool :=
  kind == MessageKind.request.raw || kind == MessageKind.response.raw

def isKnownOpcode (opcode : UInt8) : Bool :=
  opcode == Opcode.get.raw || opcode == Opcode.put.raw || opcode == Opcode.ping.raw

/-- `IsKnownWireStatus`: the values of `WireStatus` are `0` to `10`. -/
def isKnownWireStatus (status : UInt16) : Bool := status ≤ WireStatus.internal.raw

/-- `ValidateFrameSizeImpl`; lengths are numbers here, as every call passes one that fits 64 bits. -/
def validateFrameSizeImpl (payloadBytes : ℕ) (limits : CodecLimits) (networkInput : Bool) :
    Result ℕ :=
  if limits.maxFrameBytes.toNat < headerBytes then
    .error (invalid "max_frame_bytes is smaller than the 32-byte header")
  else if limits.maxFrameBytes.toNat - headerBytes < payloadBytes then
    .error (inputError networkInput "payload is larger than max_frame_bytes")
  else if UInt64.size - 1 - headerBytes < payloadBytes then
    .error (inputError networkInput "header plus payload length overflows size_t")
  else .ok (headerBytes + payloadBytes)

def validateFrameSize (payloadBytes : ℕ) (limits : CodecLimits) : Result ℕ :=
  validateFrameSizeImpl payloadBytes limits false

/-- The payload length a request must declare. -/
def validateRequestLength (header : FrameHeader) (networkInput : Bool) : Result Unit :=
  if header.status ≠ WireStatus.ok.raw then .error (inputError networkInput "request status must be kOk")
  else if header.opcode = Opcode.get.raw ∧ header.payloadBytes.toNat ≠ blockKeyBytes then
    .error (inputError networkInput "Get request payload must be exactly 16 bytes")
  else if header.opcode = Opcode.put.raw ∧ header.payloadBytes.toNat ≤ blockKeyBytes then
    .error (inputError networkInput "Put request must contain a non-empty Block blob")
  else if header.opcode = Opcode.ping.raw ∧ header.payloadBytes ≠ 0 then
    .error (inputError networkInput "Ping request payload must be empty")
  else .ok ()

/-- The payload length a response must declare. -/
def validateResponseLength (header : FrameHeader) (limits : CodecLimits) (networkInput : Bool) :
    Result Unit :=
  if header.status ≠ WireStatus.ok.raw then
    if header.payloadBytes.toNat < 4 then
      .error (inputError networkInput "error response payload is shorter than its length field")
    else if 4 + limits.maxErrorMessageBytes.toNat < header.payloadBytes.toNat then
      .error (inputError networkInput "error response payload exceeds the error message limit")
    else .ok ()
  else if header.opcode = Opcode.get.raw ∧ header.payloadBytes = 0 then
    .error (inputError networkInput "successful Get response requires a non-empty Block blob")
  else if header.opcode = Opcode.put.raw ∧ header.payloadBytes ≠ 0 then
    .error (inputError networkInput "successful Put response payload must be empty")
  else if header.opcode = Opcode.ping.raw ∧ header.payloadBytes ≠ 0 then
    .error (inputError networkInput "successful Ping response payload must be empty")
  else .ok ()

def validatePayloadLength (header : FrameHeader) (limits : CodecLimits) (networkInput : Bool) :
    Result Unit :=
  if header.kind = MessageKind.request.raw then validateRequestLength header networkInput
  else validateResponseLength header limits networkInput

def validateHeaderFields (header : FrameHeader) (limits : CodecLimits) (networkInput : Bool) :
    Result Unit :=
  if !isKnownKind header.kind then .error (inputError networkInput "unknown message kind")
  else if !isKnownOpcode header.opcode then .error (inputError networkInput "unknown opcode")
  else if !isKnownWireStatus header.status then .error (inputError networkInput "unknown wire status")
  else if header.flags ≠ 0 then .error (inputError networkInput "v1 flags must be zero")
  else
    match validateFrameSizeImpl header.payloadBytes.toNat limits networkInput with
    | .error s => .error s
    | .ok _ => validatePayloadLength header limits networkInput

/-- The fields of a header in the order they are written. -/
def headerFields (header : FrameHeader) (rest : Bytes) : Bytes :=
  putBe header.kind ++ (putBe header.opcode ++ (putBe header.status ++ (putBe header.flags ++
    (putBe header.requestId ++ (putBe header.payloadBytes ++ rest)))))

/-- What every header of this version starts with. -/
def preamble : Bytes := putBe magic ++ (putBe version ++ putBe (UInt16.ofNat headerBytes))

def encodeHeader (header : FrameHeader) (limits : CodecLimits) : Result Bytes :=
  match validateHeaderFields header limits false with
  | .error s => .error s
  | .ok () => .ok (preamble ++ headerFields header [])

/-- The fields at their offsets. -/
def readHeader (bytes : Bytes) : FrameHeader where
  kind := getBe bytes 8
  opcode := getBe bytes 9
  status := getBe bytes 10
  flags := getBe bytes 12
  requestId := getBe bytes 16
  payloadBytes := getBe bytes 24

def decodeHeader (bytes : Bytes) (limits : CodecLimits) : Result FrameHeader :=
  if bytes.length < headerBytes then .error (corrupt "truncated fixed header")
  else if headerBytes < bytes.length then .error (corrupt "unexpected bytes after fixed header")
  else if limits.maxFrameBytes.toNat < headerBytes then
    .error (invalid "max_frame_bytes is smaller than the 32-byte header")
  else if getBe bytes 0 ≠ magic then .error (corrupt "bad magic")
  else if getBe bytes 4 ≠ version then .error (corrupt "unsupported version")
  else if getBe bytes 6 ≠ UInt16.ofNat headerBytes then .error (corrupt "invalid header size")
  else
    match validateHeaderFields (readHeader bytes) limits true with
    | .error s => .error s
    | .ok () => .ok (readHeader bytes)

/-! ### Payloads -/

def copyBytes (bytes : Bytes) (alloc : Bool) : Result Bytes :=
  if bytes.isEmpty then .ok []
  else if alloc then .ok bytes else .error (capacity "byte buffer allocation failed")

def copyString (bytes : Bytes) (alloc : Bool) : Result Bytes :=
  if bytes.isEmpty then .ok []
  else if alloc then .ok bytes else .error (capacity "string allocation failed")

def encodeBlockKey (key : BlockKey) : Bytes :=
  putBe key.prefixHash ++ (putBe key.prefixLen ++ putBe key.modelFingerprint)

def decodeBlockKey (bytes : Bytes) : Result BlockKey :=
  if bytes.length < blockKeyBytes then .error (corrupt "truncated BlockKey")
  else if blockKeyBytes < bytes.length then .error (corrupt "unexpected bytes after BlockKey")
  else .ok ⟨getBe bytes 0, getBe bytes 8, getBe bytes 12⟩

def encodeGetRequest (key : BlockKey) (alloc : Bool) : Result Bytes :=
  if alloc then .ok (encodeBlockKey key) else .error (capacity "Get request allocation failed")

def decodeGetRequest (payload : Bytes) : Result BlockKey := decodeBlockKey payload

def encodeGetSuccessPayload (blockBlob : Bytes) (limits : CodecLimits) (alloc : Bool) : Result Bytes :=
  if blockBlob.isEmpty then .error (invalid "successful Get payload requires a non-empty Block blob")
  else
    match validateFrameSize blockBlob.length limits with
    | .error s => .error s
    | .ok _ => copyBytes blockBlob alloc

def decodeGetSuccessPayload (payload : Bytes) (limits : CodecLimits) (alloc : Bool) : Result Bytes :=
  if payload.isEmpty then .error (corrupt "successful Get payload requires a non-empty Block blob")
  else
    match validateFrameSizeImpl payload.length limits true with
    | .error s => .error s
    | .ok _ => copyString payload alloc

def encodePutRequest (key : BlockKey) (blockBlob : Bytes) (limits : CodecLimits) (alloc : Bool) :
    Result Bytes :=
  if blockBlob.isEmpty then .error (invalid "Put request requires a non-empty Block blob")
  else if UInt64.size - 1 - blockKeyBytes < blockBlob.length then
    .error (invalid "Put request length overflows uint64_t")
  else
    match validateFrameSize (blockKeyBytes + blockBlob.length) limits with
    | .error s => .error s
    | .ok _ =>
      if alloc then .ok (encodeBlockKey key ++ blockBlob)
      else .error (capacity "Put request allocation failed")

/-- `DecodePutRequest`: the key and the blob. -/
def decodePutRequest (payload : Bytes) (limits : CodecLimits) (alloc : Bool) : Result (BlockKey × Bytes) :=
  if payload.length ≤ blockKeyBytes then
    .error (corrupt "Put request must contain a key and non-empty Block blob")
  else
    match validateFrameSizeImpl payload.length limits true with
    | .error s => .error s
    | .ok _ =>
      match decodeBlockKey (payload.take blockKeyBytes) with
      | .error s => .error s
      | .ok key =>
        match copyString (payload.drop blockKeyBytes) alloc with
        | .error s => .error s
        | .ok blob => .ok (key, blob)

def encodePingRequest : Result Bytes := .ok []

def decodePingRequest (payload : Bytes) : Result Unit :=
  if payload.isEmpty then .ok () else .error (corrupt "Ping request payload must be empty")

def encodeEmptySuccessPayload : Result Bytes := .ok []

def decodeEmptySuccessPayload (payload : Bytes) : Result Unit :=
  if payload.isEmpty then .ok () else .error (corrupt "successful response payload must be empty")

def encodeErrorPayload (message : Bytes) (limits : CodecLimits) (alloc : Bool) : Result Bytes :=
  if limits.maxErrorMessageBytes.toNat < message.length then
    .error (invalid "error message exceeds max_error_message_bytes")
  else if UInt32.size - 1 < message.length then
    .error (invalid "error message length overflows uint32_t")
  else
    match validateFrameSize (4 + message.length) limits with
    | .error s => .error s
    | .ok _ =>
      if alloc then .ok (putBe (UInt32.ofNat message.length) ++ message)
      else .error (capacity "error payload allocation failed")

def decodeErrorPayload (payload : Bytes) (limits : CodecLimits) (alloc : Bool) : Result Bytes :=
  if payload.length < 4 then .error (corrupt "truncated error payload length field")
  else
    match validateFrameSizeImpl payload.length limits true with
    | .error s => .error s
    | .ok _ =>
      let messageBytes : UInt32 := getBe payload 0
      if limits.maxErrorMessageBytes < messageBytes then
        .error (corrupt "error message exceeds max_error_message_bytes")
      else if messageBytes.toNat ≠ payload.length - 4 then
        .error (corrupt "error message length does not exactly match payload")
      else copyString (payload.drop 4) alloc

/-! ### Whole frames -/

/-- The status of a result whose value is not looked at. -/
def discard {α : Type} : Result α → Result Unit
  | .ok _ => .ok ()
  | .error s => .error s

def validateRequest (header : FrameHeader) (payload : Bytes) (limits : CodecLimits) (alloc : Bool) :
    Result Unit :=
  match validateHeaderFields header limits true with
  | .error s => .error s
  | .ok () =>
    if header.kind ≠ MessageKind.request.raw then
      .error (corrupt "ValidateRequest received a response header")
    else if header.requestId = 0 then .error (corrupt "request_id zero is reserved")
    else if header.payloadBytes.toNat ≠ payload.length then
      .error (corrupt "payload size does not match header payload_bytes")
    else if header.opcode = Opcode.get.raw then discard (decodeGetRequest payload)
    else if header.opcode = Opcode.put.raw then discard (decodePutRequest payload limits alloc)
    else if header.opcode = Opcode.ping.raw then decodePingRequest payload
    else .error (corrupt "unknown request opcode")

def validateResponse (header : FrameHeader) (payload : Bytes) (limits : CodecLimits) (alloc : Bool) :
    Result Unit :=
  match validateHeaderFields header limits true with
  | .error s => .error s
  | .ok () =>
    if header.kind ≠ MessageKind.response.raw then
      .error (corrupt "ValidateResponse received a request header")
    else if header.requestId = 0 then .error (corrupt "request_id zero is reserved")
    else if header.payloadBytes.toNat ≠ payload.length then
      .error (corrupt "payload size does not match header payload_bytes")
    else if header.status ≠ WireStatus.ok.raw then discard (decodeErrorPayload payload limits alloc)
    else if header.opcode = Opcode.get.raw then discard (decodeGetSuccessPayload payload limits alloc)
    else if header.opcode = Opcode.put.raw ∨ header.opcode = Opcode.ping.raw then
      decodeEmptySuccessPayload payload
    else .error (corrupt "unknown response opcode")

/-! ### Status codes -/

/-- `ToWireStatus`; every `StatusCode` has a number. -/
def toWireStatus : StatusCode → WireStatus
  | .ok => .ok
  | .notImplemented => .notImplemented
  | .notFound => .notFound
  | .invalidArgument => .invalidArgument
  | .alreadyExists => .alreadyExists
  | .ioError => .ioError
  | .networkError => .networkError
  | .unavailable => .unavailable
  | .outOfCapacity => .outOfCapacity
  | .corruption => .corruption
  | .internal => .internal

/-- `FromWireStatus`, on the raw number. -/
def fromWireStatus (status : UInt16) : Result StatusCode :=
  if status = WireStatus.ok.raw then .ok .ok
  else if status = WireStatus.notImplemented.raw then .ok .notImplemented
  else if status = WireStatus.notFound.raw then .ok .notFound
  else if status = WireStatus.invalidArgument.raw then .ok .invalidArgument
  else if status = WireStatus.alreadyExists.raw then .ok .alreadyExists
  else if status = WireStatus.ioError.raw then .ok .ioError
  else if status = WireStatus.networkError.raw then .ok .networkError
  else if status = WireStatus.unavailable.raw then .ok .unavailable
  else if status = WireStatus.outOfCapacity.raw then .ok .outOfCapacity
  else if status = WireStatus.corruption.raw then .ok .corruption
  else if status = WireStatus.internal.raw then .ok .internal
  else .error (corrupt "unknown WireStatus")

end TidePool.Wire
