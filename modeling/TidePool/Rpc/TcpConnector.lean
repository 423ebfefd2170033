import TidePool.Transport.WireFraming

/-! The RPC client of one remote node (`src/rpc/tcp_connector.cpp`).

    A call allocates an id, checks the request, connects if it has to, writes one frame, reads one frame
    and looks at it. Three things may be wrong with what comes back, and they are told apart by what is
    left on the stream:

        no whole frame, or not the frame asked for   -> the stream is lost, drop the connection
        the frame, with a remote failure in it       -> report it, keep the connection
        the frame, but no memory to look into it     -> report that, keep the connection

    The calls hold one mutex from start to end, so a call is a function of the state. What a call finds
    (how dialling ends, which of its allocations succeed) is its argument `env`; an allocation that fails
    where the source catches `std::bad_alloc` is one of these, `std::length_error` is not kept apart. The
    endpoint and the options never change and are the parameter `cfg`. `past` and `issued` record the
    connections that were dropped and the ids that were allocated; nothing reads them. -/

namespace TidePool.Rpc

open Wire Transport

structure TcpEndpoint where
  host : String
  port : UInt16 := 0

structure TcpConnectorOptions where
  connection : TcpConnectionOptions := {}
  codecLimits : CodecLimits := {}

structure TcpConfig where
  endpoint : TcpEndpoint
  options : TcpConnectorOptions := {}

/-- What a call finds: how dialling ends, and which allocations succeed. -/
structure CallEnv where
  dial : Dial := .connected {}
  serialize : Bool := true          -- `SerializeBlock`
  encode : Bool := true             -- the request payload
  validateRequest : Bool := true    -- the copy made in `ValidateRequest`
  connection : Bool := true         -- the connection object
  payload : Bool := true            -- the response payload
  validateResponse : Bool := true   -- the copy made in `ValidateResponse`
  status : Bool := true             -- a status of `ExecuteLocked` after the first byte went out
  decode : Bool := true             -- the copy made by the response decoder
  reply : Bool := true              -- what is returned after that

/-- Every allocation after the first byte went out succeeds. -/
def CallEnv.Roomy (env : CallEnv) : Prop :=
  env.payload = true ∧ env.validateResponse = true ∧ env.status = true ∧ env.decode = true ∧ env.reply = true

structure TcpConnector where
  connection : Option TcpConnection := none
  nextRequestId : UInt64 := 1
  past : List TcpConnection := []
  issued : List UInt64 := []

def capacity (message : String) : Status := .outOfCapacity ("TcpConnector: " ++ message)

def protocolError (message : String) : Status := .corruption ("TcpConnector: " ++ message)

/-- A `std::string` as text, one character per byte. -/
def textOf (bytes : Bytes) : String := String.ofList (bytes.map fun c => Char.ofNat c.toNat)

def envelopeBytes : ℕ := blockKeyBytes + BlockCodec.headerSize

def validateBlockSize (block : Block) (limits : CodecLimits) : Result Unit :=
  if UInt64.size - 1 - envelopeBytes < block.sizeBytes then
    .error (capacity "Put payload length overflows uint64_t")
  else Wire.discard (validateFrameSize (envelopeBytes + block.sizeBytes) limits)

def validateConfiguration (cfg : TcpConfig) : Result Unit :=
  let connection := cfg.options.connection
  if cfg.endpoint.host.isEmpty then .error (.invalidArgument "TcpConnector: endpoint host is empty")
  else if cfg.endpoint.port = 0 then .error (.invalidArgument "TcpConnector: endpoint port is zero")
  else if connection.connectTimeout < 0 ∨ connection.readTimeout < 0 ∨ connection.writeTimeout < 0 then
    .error (.invalidArgument "TcpConnector: connection timeouts must be non-negative")
  else if cfg.options.codecLimits.maxFrameBytes.toNat < headerBytes then
    .error (.invalidArgument "TcpConnector: max_frame_bytes is smaller than the Wire header")
  else .ok ()

namespace TcpConnector

def dropConnection (c : TcpConnector) : TcpConnector :=
  match c.connection with
  | none => c
  | some conn => { c with connection := none, past := c.past ++ [conn.close] }

/-- `EnsureConnectedLocked`, with the connection it leaves in `connection_`. -/
def ensureConnected (c : TcpConnector) (cfg : TcpConfig) (env : CallEnv) :
    Except Raised TcpConnection × TcpConnector :=
  match c.connection with
  | some conn => if conn.isOpen then (.ok conn, c) else dial c.dropConnection
  | none => dial c
where
  dial (c : TcpConnector) : Except Raised TcpConnection × TcpConnector :=
    match TcpConnection.connect cfg.endpoint.host cfg.endpoint.port cfg.options.connection env.dial with
    | .error r => (.error r, c)
    | .ok conn =>
      if env.connection then (.ok conn, { c with connection := some conn })
      else
        -- the connected socket goes away with the local that holds it
        (.error (.status (capacity "connection object allocation failed")),
          { c with past := c.past ++ [conn.close] })

/-- The id after this one; 0 is left out. -/
def nextId (requestId : UInt64) : UInt64 := if requestId.toNat = UInt64.size - 1 then 1 else requestId + 1

def allocateRequestId (c : TcpConnector) : UInt64 × TcpConnector :=
  (c.nextRequestId, { c with
    nextRequestId := nextId c.nextRequestId
    issued := c.issued ++ [c.nextRequestId] })

/-- An exit of `ExecuteLocked` that drops `connection_`. When there is no memory for the status, the
    handler drops the connection as well. -/
def failed (c : TcpConnector) (conn : TcpConnection) (s : Status) (env : CallEnv) :
    Except Raised WireFrame × TcpConnector :=
  (.error (.status (if env.status then s else capacity "RPC allocation failed after network I/O began")),
    { c with connection := some conn }.dropConnection)

/-- The part of `ExecuteLocked` after the connection is there. -/
def exchange (c : TcpConnector) (cfg : TcpConfig) (conn : TcpConnection) (request : WireFrame)
    (env : CallEnv) : Except Raised WireFrame × TcpConnector :=
  let limits := cfg.options.codecLimits
  match conn.writeWireFrame request limits with
  | (.error s, conn) => c.failed conn s env
  | (.ok (), conn) =>
    match conn.readWireFrame limits env.payload with
    | (.error s, conn) => c.failed conn s env
    | (.ok response, conn) =>
      if response.header.kind ≠ MessageKind.response.raw then
        c.failed conn (protocolError "peer sent a request where a response was expected") env
      else if response.header.opcode ≠ request.header.opcode then
        c.failed conn (protocolError "response opcode does not match request") env
      else if response.header.requestId ≠ request.header.requestId then
        c.failed conn (protocolError "response request_id does not match request") env
      else
        match validateResponse response.header response.payload limits env.validateResponse with
        | .ok () => (.ok response, { c with connection := some conn })
        | .error s =>
          if s.code ≠ .outOfCapacity then c.failed conn s env
          else if env.status then (.error (.status s), { c with connection := some conn })
          else c.failed conn s env

def executeLocked (c : TcpConnector) (cfg : TcpConfig) (opcode : Opcode) (payload : Bytes) (env : CallEnv) :
    Except Raised WireFrame × TcpConnector :=
  let (requestId, c) := c.allocateRequestId
  let request := headerFor .request opcode .ok requestId payload
  match validateRequest request payload cfg.options.codecLimits env.validateRequest with
  | .error s => (.error (.status s), c)
  | .ok () =>
    match c.ensureConnected cfg env with
    | (.error r, c) => (.error r, c)
    | (.ok conn, c) => c.exchange cfg conn ⟨request, payload⟩ env

/-- `DecodeRemoteErrorLocked`. -/
def decodeRemoteError (cfg : TcpConfig) (response : WireFrame) (env : CallEnv) : Result Status :=
  match decodeErrorPayload response.payload cfg.options.codecLimits env.decode with
  | .error s => .error s
  | .ok message =>
    match fromWireStatus response.header.status with
    | .error s => .error s
    | .ok code =>
      if code = .ok then .error (protocolError "remote error decoder received kOk")
      else .ok ⟨code, textOf message⟩

/-- A status built under the handler of a call, which reports `what` when there is no memory for it. -/
def guarded (env : CallEnv) (what : String) (s : Status) : Status := if env.reply then s else capacity what

/-- How each call ends that got a response other than `kOk`. -/
def remoteError (c : TcpConnector) (cfg : TcpConfig) (response : WireFrame) (env : CallEnv) (what : String) :
    Status × TcpConnector :=
  match decodeRemoteError cfg response env with
  | .error s => (guarded env what s, if s.code ≠ .outOfCapacity then c.dropConnection else c)
  | .ok s => (s, c)

/-- The status a call reports when `ExecuteLocked` gave no frame. -/
def raisedStatus (what : String) : Raised → Status
  | .status s => s
  | .badAlloc => capacity what

def getFailure : String := "Get Block allocation failed"

/-- How `Get` ends that got a block blob. -/
def getBlock (c : TcpConnector) (cfg : TcpConfig) (response : WireFrame) (env : CallEnv) :
    Result Block × TcpConnector :=
  match decodeGetSuccessPayload response.payload cfg.options.codecLimits env.decode with
  | .error s => (.error (guarded env getFailure s), if s.code ≠ .outOfCapacity then c.dropConnection else c)
  | .ok blob =>
    match BlockCodec.deserializeHeader blob with
    | .error s =>
      if env.reply then
        (.error (protocolError ("invalid Block blob in Get response: " ++ s.message)), c.dropConnection)
      else (.error (capacity getFailure), c)   -- thrown while the status was built, before the drop
    | .ok header =>
      if env.reply then (.ok ⟨header.metadata, header.payload blob⟩, c)
      else (.error (capacity getFailure), c)

def get (c : TcpConnector) (cfg : TcpConfig) (key : BlockKey) (env : CallEnv) :
    Result Block × TcpConnector :=
  match validateConfiguration cfg with
  | .error s => (.error s, c)
  | .ok () =>
    match encodeGetRequest key env.encode with
    | .error s => (.error s, c)
    | .ok payload =>
      match c.executeLocked cfg .get payload env with
      | (.error r, c) => (.error (raisedStatus getFailure r), c)
      | (.ok response, c) =>
        if response.header.status ≠ WireStatus.ok.raw then
          (c.remoteError cfg response env getFailure).map .error id
        else c.getBlock cfg response env

/-- How `Put` and `Ping` go on with a request payload. -/
def acknowledged (c : TcpConnector) (cfg : TcpConfig) (opcode : Opcode) (payload : Bytes) (env : CallEnv)
    (what : String) : Result Unit × TcpConnector :=
  match c.executeLocked cfg opcode payload env with
  | (.error r, c) => (.error (raisedStatus what r), c)
  | (.ok response, c) =>
    if response.header.status ≠ WireStatus.ok.raw then (c.remoteError cfg response env what).map .error id
    else (.ok (), c)

def put (c : TcpConnector) (cfg : TcpConfig) (key : BlockKey) (block : Block) (env : CallEnv) :
    Result Unit × TcpConnector :=
  match validateConfiguration cfg with
  | .error s => (.error s, c)
  | .ok () =>
    match validateBlockSize block cfg.options.codecLimits with
    | .error s => (.error s, c)
    | .ok () =>
      if !env.serialize then (.error (capacity "Put allocation failed"), c)
      else
        match encodePutRequest key (BlockCodec.serializeBlock block) cfg.options.codecLimits env.encode with
        | .error s => (.error s, c)
        | .ok payload => c.acknowledged cfg .put payload env "Put allocation failed"

def ping (c : TcpConnector) (cfg : TcpConfig) (env : CallEnv) : Result Unit × TcpConnector :=
  match validateConfiguration cfg with
  | .error s => (.error s, c)
  | .ok () =>
    match encodePingRequest with
    | .error s => (.error s, c)
    | .ok payload => c.acknowledged cfg .ping payload env "Ping allocation failed"

def close (c : TcpConnector) : TcpConnector := c.dropConnection

end TcpConnector

end TidePool.Rpc
