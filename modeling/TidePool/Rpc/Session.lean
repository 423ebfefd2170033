import TidePool.Rpc.TcpConnector

/-! What the RPC client does to its connections, over any sequence of calls and against any peer.

    `logs` is everything that crossed any socket of the connector, one pair per socket in the order they
    were opened. A call adds to one pair at most (`Traffic`). A connection that is kept after a call has
    carried whole frames only, each request answered by the response after it (`Balanced`):

        sent      | request 1 | request 2 | ... | request n |
        received  | answer 1  | answer 2  | ... | answer n  |

    so whatever the next call reads is the answer to the next call's request, or the stream is dropped. -/

namespace TidePool.Rpc

open Wire Transport Transport.TcpConnection

/-! ### Observations -/

/-- What crossed a socket, in both directions. -/
def view (conn : TcpConnection) : Bytes × Bytes := (conn.sent, conn.received)

namespace TcpConnector

/-- What crossed each socket so far. -/
def logs (c : TcpConnector) : List (Bytes × Bytes) := (c.past ++ c.connection.toList).map view

@[simp] theorem logs_dropConnection (c : TcpConnector) : c.dropConnection.logs = c.logs := by
  cases h : c.connection <;> simp [dropConnection, logs, h, view, TcpConnection.close]

@[simp] theorem connection_dropConnection (c : TcpConnector) : c.dropConnection.connection = none := by
  cases h : c.connection <;> simp [dropConnection, h]

@[simp] theorem issued_dropConnection (c : TcpConnector) : c.dropConnection.issued = c.issued := by
  cases h : c.connection <;> simp [dropConnection, h]

@[simp] theorem nextRequestId_dropConnection (c : TcpConnector) :
    c.dropConnection.nextRequestId = c.nextRequestId := by
  cases h : c.connection <;> simp [dropConnection, h]

end TcpConnector

/-- One socket at most saw something new: `p` out and `q` in. -/
inductive Traffic (before after : List (Bytes × Bytes)) : Bytes → Bytes → Prop where
  | idle (h : after = before) : Traffic before after [] []
  | dialled {p q : Bytes} (h : after = before ++ [(p, q)]) : Traffic before after p q
  | reused {p q : Bytes} (earlier : List (Bytes × Bytes)) (s r : Bytes) (h : before = earlier ++ [(s, r)])
      (h' : after = earlier ++ [(s ++ p, r ++ q)]) : Traffic before after p q

/-- A response to this request. -/
structure Answers (request response : WireFrame) : Prop where
  asks : request.header.kind = MessageKind.request.raw
  replies : response.header.kind = MessageKind.response.raw
  opcode : response.header.opcode = request.header.opcode
  requestId : response.header.requestId = request.header.requestId

/-- Whole frames in both directions, every request with its answer. -/
def Balanced (limits : CodecLimits) (conn : TcpConnection) : Prop :=
  ∃ requests responses, AreFrames limits requests conn.sent ∧ AreFrames limits responses conn.received ∧
    List.Forall₂ Answers requests responses

/-- The beginning of a frame. -/
def PartOf (limits : CodecLimits) (frame : WireFrame) (p : Bytes) : Prop :=
  p = [] ∨ ∃ whole, IsFrame limits frame whole ∧ p <+: whole

section Frames

variable {limits : CodecLimits} {frame request response : WireFrame} {frames : List WireFrame} {a b : Bytes}

theorem areFrames_append (h : AreFrames limits frames a) (hb : IsFrame limits frame b) :
    AreFrames limits (frames ++ [frame]) (a ++ b) := by
  induction frames generalizing a with
  | nil =>
    obtain rfl : a = [] := h
    exact ⟨b, [], hb, rfl, by simp⟩
  | cons x xs ih =>
    obtain ⟨first, rest, hfirst, hrest, rfl⟩ := h
    exact ⟨first, rest ++ b, hfirst, ih hrest, List.append_assoc _ _ _⟩

theorem PartOf.whole (h : IsFrame limits frame a) : PartOf limits frame a :=
  .inr ⟨a, h, List.prefix_rfl⟩

/-- One more exchange. -/
theorem Balanced.exchange {conn conn' : TcpConnection} (h : Balanced limits conn)
    (hsent : conn'.sent = conn.sent ++ a) (hreceived : conn'.received = conn.received ++ b)
    (hrequest : IsFrame limits request a) (hresponse : IsFrame limits response b)
    (hanswers : Answers request response) : Balanced limits conn' := by
  obtain ⟨requests, responses, hreq, hresp, hpairs⟩ := h
  refine ⟨requests ++ [request], responses ++ [response], ?_, ?_, ?_⟩
  · rw [hsent]; exact areFrames_append hreq hrequest
  · rw [hreceived]; exact areFrames_append hresp hresponse
  · exact List.rel_append hpairs (.cons hanswers .nil)

theorem Balanced.fresh {conn : TcpConnection} (hsent : conn.sent = []) (hreceived : conn.received = []) :
    Balanced limits conn :=
  ⟨[], [], hsent, hreceived, .nil⟩

end Frames

namespace TcpConnector

variable {cfg : TcpConfig} {c : TcpConnector} {env : CallEnv}

/-! ### Connecting -/

/-- A connection that is held is usable, and has carried whole exchanges only. -/
def Synced (cfg : TcpConfig) (c : TcpConnector) : Prop :=
  ∀ conn, c.connection = some conn → conn.isOpen = true ∧ Balanced cfg.options.codecLimits conn

theorem Synced.none (h : c.connection = none) : Synced cfg c := by
  intro conn hconn
  rw [h] at hconn
  cases hconn

theorem Synced.dropConnection (c : TcpConnector) : Synced cfg c.dropConnection :=
  .none (connection_dropConnection c)

/-- A fresh connection has carried nothing. -/
theorem connect_fresh {host : String} {port : UInt16} {options : TcpConnectionOptions} {dial : Dial}
    {conn : TcpConnection} (h : TcpConnection.connect host port options dial = .ok conn) :
    conn.isOpen = true ∧ conn.sent = [] ∧ conn.received = [] := by
  simp only [connect] at h
  split_ifs at h
  cases hoptions : validateOptions options with
  | error s => simp only [hoptions, reduceCtorEq] at h
  | ok _ =>
    rw [hoptions] at h
    cases dial with
    | connected peer => obtain rfl := Except.ok.inj h; exact ⟨rfl, rfl, rfl⟩
    | failed _ | timedOut _ | badAlloc => simp only [reduceCtorEq] at h

/-- What `EnsureConnectedLocked` leaves: the held connection, or a fresh one, or none. -/
structure Connects (cfg : TcpConfig) (c c' : TcpConnector) (r : Except Raised TcpConnection) : Prop where
  issued : c'.issued = c.issued
  next : c'.nextRequestId = c.nextRequestId
  held : ∀ conn, r = .ok conn → c'.connection = some conn ∧ conn.isOpen = true ∧
    Balanced cfg.options.codecLimits conn ∧
    (c' = c ∨ c'.logs = c.logs ++ [([], [])] ∧ view conn = ([], []))
  lost : ∀ e, r = .error e → c'.connection = none ∧ (c'.logs = c.logs ∨ c'.logs = c.logs ++ [([], [])])

theorem dial_connects (hnone : c.connection = none) :
    Connects cfg c (ensureConnected.dial cfg env c).2 (ensureConnected.dial cfg env c).1 := by
  simp only [ensureConnected.dial]
  cases hconnect : TcpConnection.connect cfg.endpoint.host cfg.endpoint.port cfg.options.connection
    env.dial with
  | error e =>
    exact ⟨rfl, rfl, nofun, fun _ _ => ⟨hnone, .inl rfl⟩⟩
  | ok conn =>
    obtain ⟨hopen, hsent, hreceived⟩ := connect_fresh hconnect
    have hview : view conn = ([], []) := by rw [view, hsent, hreceived]
    have hclosed : view conn.close = ([], []) := hview
    simp only
    split_ifs with hroom
    · refine ⟨rfl, rfl, fun _ h => ?_, nofun⟩
      obtain rfl := Except.ok.inj h
      exact ⟨rfl, hopen, .fresh hsent hreceived, .inr ⟨by simp [logs, hnone, hview], hview⟩⟩
    · exact ⟨rfl, rfl, nofun, fun _ _ => ⟨hnone, .inr (by simp [logs, hnone, hclosed])⟩⟩

theorem ensureConnected_connects (hsync : Synced cfg c) (env : CallEnv) :
    Connects cfg c (c.ensureConnected cfg env).2 (c.ensureConnected cfg env).1 := by
  simp only [ensureConnected]
  cases hconn : c.connection with
  | none => exact dial_connects hconn
  | some conn =>
    obtain ⟨hopen, hbalanced⟩ := hsync conn hconn
    simp only [hopen, if_true]
    refine ⟨rfl, rfl, fun _ h => ?_, nofun⟩
    obtain rfl := Except.ok.inj h
    exact ⟨hconn, hopen, hbalanced, .inl rfl⟩

/-! ### One exchange -/

/-- A request was written and its response was read. -/
structure Exchanged (limits : CodecLimits) (request response : WireFrame) (p q : Bytes) : Prop where
  written : IsFrame limits request p
  read : IsFrame limits response q
  answers : Answers request response

/-- What an exchange over `conn` leaves: `p` went out and `q` came in. -/
structure Exchanges (cfg : TcpConfig) (c c' : TcpConnector) (conn : TcpConnection) (request : WireFrame)
    (p q : Bytes) : Prop where
  issued : c'.issued = c.issued
  next : c'.nextRequestId = c.nextRequestId
  logs : c'.logs = c.past.map view ++ [(conn.sent ++ p, conn.received ++ q)]
  synced : Synced cfg c'
  sends : PartOf cfg.options.codecLimits request p

/-- The exit that drops the connection. -/
theorem failed_exchanges {conn conn' : TcpConnection} {request : WireFrame} {p q : Bytes} (s : Status)
    (env : CallEnv) (hsent : conn'.sent = conn.sent ++ p) (hreceived : conn'.received = conn.received ++ q)
    (hpart : PartOf cfg.options.codecLimits request p) :
    Exchanges cfg c (c.failed conn' s env).2 conn request p q where
  issued := issued_dropConnection _
  next := nextRequestId_dropConnection _
  logs := by
    simp only [failed, logs_dropConnection]
    simp [TcpConnector.logs, view, hsent, hreceived]
  synced := .dropConnection _
  sends := hpart

/-- The exit that keeps the connection. -/
theorem kept_exchanges {conn conn' : TcpConnection} {request response : WireFrame} {p q : Bytes}
    (hbalanced : Balanced cfg.options.codecLimits conn) (hopen : conn'.isOpen = true)
    (hsent : conn'.sent = conn.sent ++ p) (hreceived : conn'.received = conn.received ++ q)
    (h : Exchanged cfg.options.codecLimits request response p q) :
    Exchanges cfg c { c with connection := some conn' } conn request p q where
  issued := rfl
  next := rfl
  logs := by simp [TcpConnector.logs, view, hsent, hreceived]
  synced := by
    rintro _ ⟨⟩
    exact ⟨hopen, hbalanced.exchange hsent hreceived h.written h.read h.answers⟩
  sends := .whole h.written

/-- How `ExecuteLocked` ends: a frame that is handed on is the answer to the request, read whole; an error
    read nothing or lost the connection, unless there was no memory to look into an answer. -/
def Concludes (cfg : TcpConfig) (env : CallEnv) (request : WireFrame) (c' : TcpConnector) (p q : Bytes) :
    Except Raised WireFrame → Prop
  | .ok response => Exchanged cfg.options.codecLimits request response p q ∧
      ResponseFrame cfg.options.codecLimits env.validateResponse response.header response.payload ∧
      c'.connection.isSome = true
  | .error e => q = [] ∨ c'.connection = none ∨
      env.validateResponse = false ∧ ∃ s, e = .status s ∧ s.code = .outOfCapacity

/-- EXCHANGE: one frame out and one in, or the connection is gone. -/
theorem exchange_spec {conn : TcpConnection} (request : WireFrame) (hopen : conn.isOpen = true)
    (hbalanced : Balanced cfg.options.codecLimits conn)
    (hkind : request.header.kind = MessageKind.request.raw) (env : CallEnv) :
    ∃ r c' p q, c.exchange cfg conn request env = (r, c') ∧ Exchanges cfg c c' conn request p q ∧
      Concludes cfg env request c' p q r := by
  simp only [exchange]
  obtain ⟨r₁, conn₁, p, h₁, hwrites, hr₁⟩ := writeWireFrame_spec conn request cfg.options.codecLimits
  rw [h₁]
  cases r₁ with
  | error s =>
    have hpart : PartOf cfg.options.codecLimits request p := hr₁.imp And.left And.right
    have hreceived : conn₁.received = conn.received ++ [] := by rw [hwrites.received, List.append_nil]
    exact ⟨_, _, p, [], rfl, failed_exchanges s env hwrites.sent hreceived hpart,
      .inl rfl⟩
  | ok _ =>
    obtain ⟨hframe, hopen₁⟩ := hr₁
    obtain ⟨r₂, conn₂, q, h₂, hreads, hr₂⟩ := readWireFrame_spec conn₁ cfg.options.codecLimits env.payload
    have hsent : conn₂.sent = conn.sent ++ p := hreads.sent.trans hwrites.sent
    have hreceived : conn₂.received = conn.received ++ q := by rw [hreads.received, hwrites.received]
    have hlost : ∀ s, ∃ r c' p q, c.failed conn₂ s env = (r, c') ∧ Exchanges cfg c c' conn request p q ∧
        Concludes cfg env request c' p q r := fun s =>
      ⟨_, _, p, q, rfl, failed_exchanges s env hsent hreceived (.whole hframe),
        .inr (.inl (connection_dropConnection _))⟩
    simp only [h₂]
    cases r₂ with
    | error s => exact hlost s
    | ok response =>
      obtain ⟨hresponse, hopen₂⟩ := hr₂
      have hstill : conn₂.isOpen = true := hopen₂.trans (hopen₁.trans hopen)
      by_cases hresp : response.header.kind = MessageKind.response.raw
      case neg => simp only [hresp, ne_eq, not_false_eq_true, if_true]; exact hlost _
      by_cases hop : response.header.opcode = request.header.opcode
      case neg => simp only [hresp, hop, ne_eq, not_true, not_false_eq_true, if_true, if_false]; exact hlost _
      by_cases hid : response.header.requestId = request.header.requestId
      case neg =>
        simp only [hresp, hop, hid, ne_eq, not_true, not_false_eq_true, if_true, if_false]; exact hlost _
      have hexchanged : Exchanged cfg.options.codecLimits request response p q :=
        ⟨hframe, hresponse, hkind, hresp, hop, hid⟩
      have hkept : Exchanges cfg c { c with connection := some conn₂ } conn request p q :=
        kept_exchanges hbalanced hstill hsent hreceived hexchanged
      simp only [hresp, hop, hid, ne_eq, not_true, if_false]
      cases hvalid : validateResponse response.header response.payload cfg.options.codecLimits
          env.validateResponse with
      | ok _ => exact ⟨_, _, p, q, rfl, hkept, hexchanged, validateResponse_eq_ok_iff.mp hvalid, rfl⟩
      | error s =>
        simp only
        split_ifs with hcode hstatus
        · exact ⟨_, _, p, q, rfl, hkept,
            .inr (.inr ⟨Honest.validateResponse _ _ _ s hvalid hcode, s, rfl, hcode⟩)⟩
        · exact hlost s
        · exact hlost s

/-! ### A whole request -/

/-- The frame that a call with this opcode and payload sends next. -/
def requestFrame (c : TcpConnector) (opcode : Opcode) (payload : Bytes) : WireFrame :=
  ⟨headerFor .request opcode .ok c.nextRequestId payload, payload⟩

/-- What `ExecuteLocked` leaves. -/
structure Executes (cfg : TcpConfig) (c c' : TcpConnector) (request : WireFrame) (p q : Bytes) : Prop where
  traffic : Traffic c.logs c'.logs p q
  synced : Synced cfg c'
  sends : PartOf cfg.options.codecLimits request p
  issued : c'.issued = c.issued ++ [c.nextRequestId]
  next : c'.nextRequestId = nextId c.nextRequestId

/-- The logs with a held connection, which comes last. -/
theorem logs_held {conn : TcpConnection} (h : c.connection = some conn) :
    c.logs = c.past.map view ++ [view conn] := by
  simp [logs, h]

theorem executeLocked_spec (hsync : Synced cfg c) (opcode : Opcode) (payload : Bytes) (env : CallEnv) :
    ∃ r c' p q, c.executeLocked cfg opcode payload env = (r, c') ∧
      Executes cfg c c' (c.requestFrame opcode payload) p q ∧
      Concludes cfg env (c.requestFrame opcode payload) c' p q r := by
  simp only [executeLocked, allocateRequestId]
  set c₁ : TcpConnector := { c with
    nextRequestId := nextId c.nextRequestId
    issued := c.issued ++ [c.nextRequestId] }
  cases hvalid : validateRequest (headerFor .request opcode .ok c.nextRequestId payload) payload
      cfg.options.codecLimits env.validateRequest with
  | error s => exact ⟨_, c₁, [], [], rfl, ⟨.idle rfl, hsync, .inl rfl, rfl, rfl⟩, .inl rfl⟩
  | ok _ =>
    have hsync₁ : Synced cfg c₁ := hsync
    have hconnects := ensureConnected_connects hsync₁ env
    simp only
    rcases hensure : c₁.ensureConnected cfg env with ⟨r, c₂⟩
    rw [hensure] at hconnects
    cases r with
    | error e =>
      obtain ⟨hnone, hsame | hmore⟩ := hconnects.lost e rfl
      · exact ⟨_, c₂, [], [], rfl, ⟨.idle hsame, .none hnone, .inl rfl, hconnects.issued, hconnects.next⟩,
          .inl rfl⟩
      · exact ⟨_, c₂, [], [], rfl, ⟨.dialled hmore, .none hnone, .inl rfl, hconnects.issued, hconnects.next⟩,
          .inl rfl⟩
    | ok conn =>
      obtain ⟨hheld, hopen, hbalanced, hwhich⟩ := hconnects.held conn rfl
      have hlogs₂ := logs_held hheld
      obtain ⟨r, c', p, q, heq, hexchange, hend⟩ :=
        exchange_spec (c := c₂) (c.requestFrame opcode payload) hopen hbalanced rfl env
      refine ⟨r, c', p, q, heq, ⟨?_, hexchange.synced, hexchange.sends, ?_, ?_⟩, hend⟩
      · rcases hwhich with rfl | ⟨hmore, hview⟩
        · exact .reused _ conn.sent conn.received hlogs₂ hexchange.logs
        · -- the fresh connection is the new last entry
          rw [hlogs₂, hview] at hmore
          have hpast := (List.append_inj' hmore rfl).1
          obtain ⟨hsent, hreceived⟩ := Prod.mk.inj hview
          refine .dialled ?_
          rw [hexchange.logs, hpast, hsent, hreceived]
          rfl
      · exact hexchange.issued.trans hconnects.issued
      · exact hexchange.next.trans hconnects.next

end TcpConnector

/-! ### Calls and replies -/

inductive RpcCall where
  | get (key : BlockKey)
  | put (key : BlockKey) (block : Block)
  | ping
  | close

inductive RpcReply where
  | block (r : Result Block)
  | status (r : Result Unit)
  | closed

/-- The error a reply reports. -/
def RpcReply.failure : RpcReply → Option Status
  | .block (.error s) | .status (.error s) => some s
  | _ => none

/-- The payload that a reply without error stands for. -/
def RpcReply.Accepts : RpcReply → Bytes → Prop
  | .block (.ok b), payload => payload = BlockCodec.serializeBlock b
  | .status (.ok ()), payload => payload = []
  | _, _ => False

/-- What a call sends under, if it is an RPC. -/
def RpcCall.opcode : RpcCall → Option Opcode
  | .get _ => some .get
  | .put _ _ => some .put
  | .ping => some .ping
  | .close => none

theorem toNat_byteChar (c : UInt8) : (Char.ofNat c.toNat).toNat = c.toNat := by
  have hvalid : c.toNat.isValidChar := .inl (lt_trans c.toNat_lt (by decide))
  rw [Char.ofNat, dif_pos hvalid]
  rfl

/-- The text of a byte string shows every byte of it. -/
theorem textOf_injective : Function.Injective textOf := by
  intro a b h
  refine List.map_injective_iff.mpr (fun x y hxy => ?_) (String.ofList_injective h)
  have hnat := congrArg Char.toNat hxy
  rw [toNat_byteChar, toNat_byteChar] at hnat
  exact UInt8.toNat_inj.mp hnat

namespace TcpConnector

variable {cfg : TcpConfig} {c c' : TcpConnector} {env : CallEnv} {opcode : Opcode}

/-- `q` is a response to the request with this opcode and id. -/
structure IsResponse (limits : CodecLimits) (opcode : Opcode) (id : UInt64) (response : WireFrame)
    (q : Bytes) : Prop where
  frame : IsFrame limits response q
  kind : response.header.kind = MessageKind.response.raw
  opcode : response.header.opcode = opcode.raw
  requestId : response.header.requestId = id

/-- `q` is a response that reports the failure `s` of the remote node: the code is the one its status
    stands for and the message is the one in its payload, byte for byte. -/
def RemoteFailure (limits : CodecLimits) (opcode : Opcode) (id : UInt64) (q : Bytes) (s : Status) : Prop :=
  ∃ response message, IsResponse limits opcode id response q ∧ response.header.status ≠ WireStatus.ok.raw ∧
    decodeErrorPayload response.payload limits true = .ok message ∧
    fromWireStatus response.header.status = .ok s.code ∧ s.code ≠ .ok ∧
    ∀ sent, s.message = textOf sent ↔ sent = message

/-- What an RPC does: see the fields. -/
structure Calls (cfg : TcpConfig) (env : CallEnv) (c c' : TcpConnector) (opcode : Opcode) (reply : RpcReply)
    (p q : Bytes) : Prop where
  traffic : Traffic c.logs c'.logs p q
  synced : Synced cfg c'
  ids : (p = [] ∧ c'.issued = c.issued ∧ c'.nextRequestId = c.nextRequestId) ∨
    (c'.issued = c.issued ++ [c.nextRequestId] ∧ c'.nextRequestId = nextId c.nextRequestId)
  sends : ∃ payload, PartOf cfg.options.codecLimits (c.requestFrame opcode payload) p
  success : reply.failure = none → c'.connection.isSome = true ∧
    ∃ response, IsResponse cfg.options.codecLimits opcode c.nextRequestId response q ∧
      response.header.status = WireStatus.ok.raw ∧ reply.Accepts response.payload
  failure : ∀ s, reply.failure = some s → q = [] ∨
    (c'.connection.isSome = true ∧ RemoteFailure cfg.options.codecLimits opcode c.nextRequestId q s) ∨
    c'.connection = none ∨ (¬ env.Roomy ∧ s.code = .outOfCapacity)

/-- A call that gave up before it had an id. -/
theorem Calls.refused (hsync : Synced cfg c) {reply : RpcReply} {s : Status} (h : reply.failure = some s) :
    Calls cfg env c c opcode reply [] [] where
  traffic := .idle rfl
  synced := hsync
  ids := .inl ⟨rfl, rfl, rfl⟩
  sends := ⟨[], .inl rfl⟩
  success hnone := by rw [h] at hnone; cases hnone
  failure _ _ := .inl rfl

section Endings

variable {payload p q : Bytes} {response : WireFrame}

/-- The response behind an exchange. -/
theorem Exchanged.isResponse
    (h : Exchanged cfg.options.codecLimits (c.requestFrame opcode payload) response p q) :
    IsResponse cfg.options.codecLimits opcode c.nextRequestId response q :=
  ⟨h.read, h.answers.replies, h.answers.opcode, h.answers.requestId⟩

variable {reply : RpcReply} {s : Status}

/-- The ending that keeps the connection. -/
theorem Executes.kept (h : Executes cfg c c' (c.requestFrame opcode payload) p q)
    (hsuccess : reply.failure = none → c'.connection.isSome = true ∧
      ∃ response, IsResponse cfg.options.codecLimits opcode c.nextRequestId response q ∧
        response.header.status = WireStatus.ok.raw ∧ reply.Accepts response.payload)
    (hfailure : ∀ s, reply.failure = some s → q = [] ∨
      (c'.connection.isSome = true ∧ RemoteFailure cfg.options.codecLimits opcode c.nextRequestId q s) ∨
      c'.connection = none ∨ (¬ env.Roomy ∧ s.code = .outOfCapacity)) :
    Calls cfg env c c' opcode reply p q :=
  ⟨h.traffic, h.synced, .inr ⟨h.issued, h.next⟩, ⟨payload, h.sends⟩, hsuccess, hfailure⟩

/-- The ending that reports a failure and drops the connection. -/
theorem Executes.dropped (h : Executes cfg c c' (c.requestFrame opcode payload) p q)
    (hreply : reply.failure = some s) : Calls cfg env c c'.dropConnection opcode reply p q where
  traffic := by rw [logs_dropConnection]; exact h.traffic
  synced := .dropConnection _
  ids := .inr ⟨by rw [issued_dropConnection]; exact h.issued,
    by rw [nextRequestId_dropConnection]; exact h.next⟩
  sends := ⟨payload, h.sends⟩
  success hnone := by rw [hreply] at hnone; cases hnone
  failure _ _ := .inr (.inr (.inl (connection_dropConnection _)))

/-- The ending that reports a failure and keeps the connection. -/
theorem Executes.reported (h : Executes cfg c c' (c.requestFrame opcode payload) p q)
    (hreply : reply.failure = some s)
    (hwhy : q = [] ∨
      (c'.connection.isSome = true ∧ RemoteFailure cfg.options.codecLimits opcode c.nextRequestId q s) ∨
      c'.connection = none ∨ (¬ env.Roomy ∧ s.code = .outOfCapacity)) :
    Calls cfg env c c' opcode reply p q := by
  refine h.kept (fun hnone => ?_) fun t ht => ?_
  · rw [hreply] at hnone; cases hnone
  · obtain rfl := Option.some.inj (hreply.symm.trans ht)
    exact hwhy

/-- The ending for want of memory, which keeps the connection. -/
theorem Executes.starved (h : Executes cfg c c' (c.requestFrame opcode payload) p q)
    (hreply : reply.failure = some s) (hroom : ¬ env.Roomy) (hcode : s.code = .outOfCapacity) :
    Calls cfg env c c' opcode reply p q :=
  h.reported hreply (.inr (.inr (.inr ⟨hroom, hcode⟩)))

theorem not_roomy_decode (h : env.decode = false) : ¬ env.Roomy := fun ⟨_, _, _, hdecode, _⟩ => by
  rw [h] at hdecode; cases hdecode

theorem not_roomy_reply (h : env.reply = false) : ¬ env.Roomy := fun ⟨_, _, _, _, hreply⟩ => by
  rw [h] at hreply; cases hreply

theorem guarded_code {what : String} (h : s.code = .outOfCapacity) :
    (guarded env what s).code = .outOfCapacity := by
  simp only [guarded]
  split_ifs
  · exact h
  · rfl

/-- The ending with a remote failure. -/
theorem remoteError_calls (hexec : Executes cfg c c' (c.requestFrame opcode payload) p q)
    (hexchanged : Exchanged cfg.options.codecLimits (c.requestFrame opcode payload) response p q)
    (hframe : ResponseFrame cfg.options.codecLimits env.validateResponse response.header response.payload)
    (hheld : c'.connection.isSome = true) (hstatus : response.header.status ≠ WireStatus.ok.raw)
    {what : String} (hreply : reply.failure = some (c'.remoteError cfg response env what).1) :
    Calls cfg env c (c'.remoteError cfg response env what).2 opcode reply p q := by
  obtain ⟨code, hcode, hne⟩ := fromWireStatus_failure hframe.valid.status hstatus
  simp only [remoteError, decodeRemoteError] at hreply ⊢
  cases hdecode : decodeErrorPayload response.payload cfg.options.codecLimits env.decode with
  | ok message =>
    have hmessage : decodeErrorPayload response.payload cfg.options.codecLimits true = .ok message :=
      decodeErrorPayload_eq_ok_iff.mpr ⟨(decodeErrorPayload_eq_ok_iff.mp hdecode).1, .inr rfl⟩
    simp only [hdecode, hcode, hne, if_false] at hreply ⊢
    exact hexec.reported hreply
      (.inr (.inl ⟨hheld, response, message, hexchanged.isResponse, hstatus, hmessage, hcode, hne,
        fun _ => textOf_injective.eq_iff.trans eq_comm⟩))
  | error e =>
    simp only [hdecode] at hreply ⊢
    split_ifs with hcapacity
    · exact hexec.dropped hreply
    · have hcapacity := not_not.mp hcapacity
      have hroom := Honest.decodeErrorPayload _ _ e hdecode hcapacity
      exact hexec.starved hreply (not_roomy_decode hroom) (guarded_code hcapacity)

/-- The ending of `Get` with a blob. -/
theorem getBlock_calls (hexec : Executes cfg c c' (c.requestFrame .get payload) p q)
    (hexchanged : Exchanged cfg.options.codecLimits (c.requestFrame .get payload) response p q)
    (hheld : c'.connection.isSome = true) (hstatus : response.header.status = WireStatus.ok.raw) :
    Calls cfg env c (c'.getBlock cfg response env).2 .get (.block (c'.getBlock cfg response env).1) p q := by
  simp only [getBlock]
  cases hdecode : decodeGetSuccessPayload response.payload cfg.options.codecLimits env.decode with
  | error e =>
    simp only
    split_ifs with hcapacity
    · exact hexec.dropped rfl
    · have hcapacity := not_not.mp hcapacity
      have hroom := Honest.decodeGetSuccessPayload _ _ e hdecode hcapacity
      exact hexec.starved rfl (not_roomy_decode hroom) (guarded_code hcapacity)
  | ok blob =>
    have hblob : response.payload = blob := (decodeGetSuccessPayload_eq_ok_iff.mp hdecode).1.bytes
    simp only
    cases hroom : env.reply with
    | false =>
      have hnot := not_roomy_reply hroom
      cases BlockCodec.deserializeHeader blob with
      | error e => exact hexec.starved rfl hnot rfl
      | ok header => exact hexec.starved rfl hnot rfl
    | true =>
      cases hheader : BlockCodec.deserializeHeader blob with
      | error e => exact hexec.dropped rfl
      | ok header =>
        obtain ⟨b, rfl, rfl⟩ := BlockCodec.eq_serializeBlock_of_deserializeHeader hheader
        refine hexec.kept (fun _ => ⟨hheld, response, hexchanged.isResponse, hstatus, ?_⟩) nofun
        simpa [RpcReply.Accepts] using hblob

/-- The ending without a frame. -/
theorem raised_calls (hexec : Executes cfg c c' (c.requestFrame opcode payload) p q) {e : Raised}
    (hend : Concludes cfg env (c.requestFrame opcode payload) c' p q (.error e)) {what : String}
    (hreply : reply.failure = some (raisedStatus what e)) : Calls cfg env c c' opcode reply p q := by
  refine hexec.reported hreply ?_
  rcases hend with hnothing | hlost | ⟨hroom, s, rfl, hcode⟩
  · exact .inl hnothing
  · exact .inr (.inr (.inl hlost))
  · refine .inr (.inr (.inr ⟨fun ⟨_, hvalidate, _⟩ => ?_, hcode⟩))
    rw [hroom] at hvalidate; cases hvalidate

end Endings

/-! ### The calls -/

theorem get_calls (hsync : Synced cfg c) (key : BlockKey) (env : CallEnv) :
    ∃ p q, Calls cfg env c (c.get cfg key env).2 .get (.block (c.get cfg key env).1) p q := by
  simp only [get]
  cases validateConfiguration cfg with
  | error s => exact ⟨[], [], .refused hsync rfl⟩
  | ok _ =>
    simp only
    cases encodeGetRequest key env.encode with
    | error s => exact ⟨[], [], .refused hsync rfl⟩
    | ok payload =>
      simp only
      obtain ⟨r, c', p, q, heq, hexec, hend⟩ := executeLocked_spec hsync .get payload env
      rw [heq]
      refine ⟨p, q, ?_⟩
      cases r with
      | error e => exact raised_calls hexec hend rfl
      | ok response =>
        obtain ⟨hexchanged, hframe, hheld⟩ := hend
        simp only
        split_ifs with hstatus
        · exact remoteError_calls hexec hexchanged hframe hheld hstatus rfl
        · exact getBlock_calls hexec hexchanged hheld (not_not.mp hstatus)

theorem acknowledged_calls (hsync : Synced cfg c) (hop : opcode ≠ .get) (payload : Bytes) (env : CallEnv)
    (what : String) :
    ∃ p q, Calls cfg env c (c.acknowledged cfg opcode payload env what).2 opcode
      (.status (c.acknowledged cfg opcode payload env what).1) p q := by
  simp only [acknowledged]
  obtain ⟨r, c', p, q, heq, hexec, hend⟩ := executeLocked_spec hsync opcode payload env
  rw [heq]
  refine ⟨p, q, ?_⟩
  cases r with
  | error e => exact raised_calls hexec hend rfl
  | ok response =>
    obtain ⟨hexchanged, hframe, hheld⟩ := hend
    simp only
    split_ifs with hstatus
    · exact remoteError_calls hexec hexchanged hframe hheld hstatus rfl
    · have hstatus := not_not.mp hstatus
      have hraw : response.header.opcode ≠ Opcode.get.raw := by
        rw [hexchanged.isResponse.opcode]
        cases opcode with
        | get => exact absurd rfl hop
        | put | ping => decide
      have hempty := decodeEmptySuccessPayload_eq_ok_iff.mp (hframe.empty hstatus hraw)
      exact hexec.kept (fun _ => ⟨hheld, response, hexchanged.isResponse, hstatus, hempty⟩) nofun

theorem put_calls (hsync : Synced cfg c) (key : BlockKey) (block : Block) (env : CallEnv) :
    ∃ p q, Calls cfg env c (c.put cfg key block env).2 .put (.status (c.put cfg key block env).1) p q := by
  simp only [put]
  cases validateConfiguration cfg with
  | error s => exact ⟨[], [], .refused hsync rfl⟩
  | ok _ =>
    cases validateBlockSize block cfg.options.codecLimits with
    | error s => exact ⟨[], [], .refused hsync rfl⟩
    | ok _ =>
      cases env.serialize with
      | false => exact ⟨[], [], .refused hsync rfl⟩
      | true =>
        simp only [Bool.not_true, Bool.false_eq_true, if_false]
        cases encodePutRequest key (BlockCodec.serializeBlock block) cfg.options.codecLimits env.encode with
        | error s => exact ⟨[], [], .refused hsync rfl⟩
        | ok payload => exact acknowledged_calls hsync (by decide) payload env _

theorem ping_calls (hsync : Synced cfg c) (env : CallEnv) :
    ∃ p q, Calls cfg env c (c.ping cfg env).2 .ping (.status (c.ping cfg env).1) p q := by
  simp only [ping, encodePingRequest]
  cases validateConfiguration cfg with
  | error s => exact ⟨[], [], .refused hsync rfl⟩
  | ok _ => exact acknowledged_calls hsync (by decide) [] env _

/-! ### Any sequence of calls -/

/-- A call and what it finds. -/
def rpcStep (cfg : TcpConfig) (c : TcpConnector) (call : RpcCall × CallEnv) : RpcReply × TcpConnector :=
  match call.1 with
  | .get key => (c.get cfg key call.2).map .block id
  | .put key block => (c.put cfg key block call.2).map .status id
  | .ping => (c.ping cfg call.2).map .status id
  | .close => (.closed, c.close)

/-- The connector after a sequence of calls. -/
def rpcRun (cfg : TcpConfig) (c : TcpConnector) (calls : List (RpcCall × CallEnv)) : TcpConnector :=
  calls.foldl (fun c call => (rpcStep cfg c call).2) c

theorem rpcStep_calls (hsync : Synced cfg c) (call : RpcCall) (env : CallEnv) {opcode : Opcode}
    (hop : call.opcode = some opcode) :
    ∃ p q, Calls cfg env c (rpcStep cfg c (call, env)).2 opcode (rpcStep cfg c (call, env)).1 p q := by
  cases call with
  | get key => obtain rfl := Option.some.inj hop; exact get_calls hsync key env
  | put key block => obtain rfl := Option.some.inj hop; exact put_calls hsync key block env
  | ping => obtain rfl := Option.some.inj hop; exact ping_calls hsync env
  | close => cases hop

/-- The `n`-th id, counted from 0. -/
def idAt (n : ℕ) : UInt64 := UInt64.ofNat (n % (UInt64.size - 1) + 1)

theorem idAt_toNat (n : ℕ) : (idAt n).toNat = n % (UInt64.size - 1) + 1 := by
  refine UInt64.toNat_ofNat_of_lt' ?_
  have hlt : n % (UInt64.size - 1) < UInt64.size - 1 := Nat.mod_lt n (by decide)
  simp only [UInt64.size] at hlt ⊢
  omega

/-- Counting up, with the wrap from the last id to 1. -/
theorem nextId_idAt (n : ℕ) : nextId (idAt n) = idAt (n + 1) := by
  apply UInt64.toNat_inj.mp
  have hid := idAt_toNat n
  have hnext := idAt_toNat (n + 1)
  simp only [nextId, UInt64.size] at hid hnext ⊢
  split_ifs with hlast
  · rw [hnext]
    simp
    omega
  · rw [UInt64.toNat_add, hnext, hid]
    simp
    omega

/-- What holds of a connector between calls. -/
structure Session (cfg : TcpConfig) (c : TcpConnector) : Prop where
  synced : Synced cfg c
  next : c.nextRequestId = idAt c.issued.length
  issued : ∀ n id, c.issued[n]? = some id → id = idAt n

theorem Session.fresh : Session cfg {} := ⟨.none rfl, rfl, nofun⟩

/-- One more id. -/
theorem Session.issue (h : Session cfg c) (hsync : Synced cfg c')
    (hissued : c'.issued = c.issued ++ [c.nextRequestId])
    (hnext : c'.nextRequestId = nextId c.nextRequestId) : Session cfg c' where
  synced := hsync
  next := by rw [hnext, h.next, nextId_idAt, hissued, List.length_append]; rfl
  issued n id hn := by
    rw [hissued] at hn
    rcases Nat.lt_trichotomy n c.issued.length with hlt | rfl | hgt
    · rw [List.getElem?_append_left hlt] at hn
      exact h.issued n id hn
    · rw [List.getElem?_append_right le_rfl, Nat.sub_self] at hn
      rw [← h.next]
      exact (Option.some.inj hn).symm
    · rw [List.getElem?_eq_none (by simp; omega)] at hn
      cases hn

theorem session_step (h : Session cfg c) (call : RpcCall × CallEnv) : Session cfg (rpcStep cfg c call).2 := by
  obtain ⟨call, env⟩ := call
  cases hop : call.opcode with
  | some opcode =>
    obtain ⟨p, q, hcalls⟩ := rpcStep_calls h.synced call env hop
    rcases hcalls.ids with ⟨-, hissued, hnext⟩ | ⟨hissued, hnext⟩
    · exact ⟨hcalls.synced, by rw [hnext, hissued, h.next], by rw [hissued]; exact h.issued⟩
    · exact h.issue hcalls.synced hissued hnext
  | none =>
    cases call with
    | get _ | put _ _ | ping => cases hop
    | close =>
      refine ⟨.dropConnection c, ?_, ?_⟩
      · simp only [rpcStep, close, nextRequestId_dropConnection, issued_dropConnection]; exact h.next
      · simp only [rpcStep, close, issued_dropConnection]; exact h.issued

theorem session_run (calls : List (RpcCall × CallEnv)) (h : Session cfg c) :
    Session cfg (rpcRun cfg c calls) := by
  induction calls generalizing c with
  | nil => exact h
  | cons call calls ih => exact ih (session_step h call)

/-- The connector after these calls from its construction. -/
def reached (cfg : TcpConfig) (calls : List (RpcCall × CallEnv)) : TcpConnector := rpcRun cfg {} calls

theorem session_reached (cfg : TcpConfig) (calls : List (RpcCall × CallEnv)) :
    Session cfg (reached cfg calls) := session_run calls .fresh

/-- NO DESYNCHRONISATION, NO REPLAY: after any calls, a connection that is held and open has carried whole
    frames only, as many requests as responses; and the next call, whatever it is, writes a part of one
    request frame at most, on one connection at most. -/
theorem rpc_never_desynchronises (cfg : TcpConfig) (calls : List (RpcCall × CallEnv)) :
    (∀ conn, (reached cfg calls).connection = some conn → conn.isOpen = true →
      Balanced cfg.options.codecLimits conn) ∧
    ∀ call, ∃ p q, Traffic (reached cfg calls).logs (rpcStep cfg (reached cfg calls) call).2.logs p q ∧
      (p = [] ∨ ∃ request whole, request.header.kind = MessageKind.request.raw ∧
        IsFrame cfg.options.codecLimits request whole ∧ p <+: whole) := by
  have hsession := session_reached cfg calls
  refine ⟨fun conn hconn _ => (hsession.synced conn hconn).2, fun ⟨call, env⟩ => ?_⟩
  cases hop : call.opcode with
  | some opcode =>
    obtain ⟨p, q, hcalls⟩ := rpcStep_calls hsession.synced call env hop
    obtain ⟨payload, hpart⟩ := hcalls.sends
    exact ⟨p, q, hcalls.traffic, hpart.imp_right fun ⟨whole, hframe, hprefix⟩ =>
      ⟨_, whole, rfl, hframe, hprefix⟩⟩
  | none =>
    cases call with
    | get _ | put _ _ | ping => cases hop
    | close => exact ⟨[], [], .idle (logs_dropConnection _), .inl rfl⟩

/-- SOUND RESULTS: the `n`-th id is `n mod (2^64 - 1) + 1`, counted from 0. A call that sent its request
    under id `r` succeeds only on a response to it with `kOk` and the payload it hands out; it reports a
    remote failure, and keeps the connection, only on a response to it that carries this failure; and
    after anything else it read it fails and drops the connection, lack of memory aside. -/
theorem rpc_results_sound (cfg : TcpConfig) (calls : List (RpcCall × CallEnv)) :
    (∀ n id, (reached cfg calls).issued[n]? = some id → id.toNat = n % (UInt64.size - 1) + 1 ∧ id ≠ 0) ∧
    (∀ i j a b, i < j → j < i + (UInt64.size - 1) → (reached cfg calls).issued[i]? = some a →
      (reached cfg calls).issued[j]? = some b → a ≠ b) ∧
    ∀ call env opcode, call.opcode = some opcode →
      ∃ p q, Traffic (reached cfg calls).logs (rpcStep cfg (reached cfg calls) (call, env)).2.logs p q ∧
        (p ≠ [] → (rpcStep cfg (reached cfg calls) (call, env)).2.issued =
            (reached cfg calls).issued ++ [(reached cfg calls).nextRequestId] ∧
          ∃ payload whole,
            IsFrame cfg.options.codecLimits ((reached cfg calls).requestFrame opcode payload) whole ∧
            p <+: whole) ∧
        ((rpcStep cfg (reached cfg calls) (call, env)).1.failure = none →
          ∃ response, IsResponse cfg.options.codecLimits opcode (reached cfg calls).nextRequestId response q ∧
            response.header.status = WireStatus.ok.raw ∧
            (rpcStep cfg (reached cfg calls) (call, env)).1.Accepts response.payload) ∧
        ∀ s, (rpcStep cfg (reached cfg calls) (call, env)).1.failure = some s → q ≠ [] →
          (RemoteFailure cfg.options.codecLimits opcode (reached cfg calls).nextRequestId q s ∧
            ∃ conn, (rpcStep cfg (reached cfg calls) (call, env)).2.connection = some conn ∧
            conn.isOpen = true) ∨
          (rpcStep cfg (reached cfg calls) (call, env)).2.connection = none ∨
          (¬ env.Roomy ∧ s.code = .outOfCapacity) := by
  have hsession := session_reached cfg calls
  refine ⟨fun n id hn => ?_, fun i j a b hij hnear ha hb hab => ?_, fun call env opcode hop => ?_⟩
  · have hid := idAt_toNat n
    rw [hsession.issued n id hn]
    refine ⟨hid, fun hzero => ?_⟩
    rw [hzero] at hid
    simp at hid
  · have hi := idAt_toNat i
    have hj := idAt_toNat j
    rw [← hsession.issued i a ha] at hi
    rw [← hsession.issued j b hb, ← hab, hi] at hj
    simp only [UInt64.size] at hj hnear
    omega
  · obtain ⟨p, q, hcalls⟩ := rpcStep_calls hsession.synced call env hop
    refine ⟨p, q, hcalls.traffic, fun hp => ?_, fun h => (hcalls.success h).2, fun s hs hq => ?_⟩
    · obtain ⟨payload, hpart⟩ := hcalls.sends
      obtain ⟨whole, hframe, hprefix⟩ := hpart.resolve_left hp
      rcases hcalls.ids with ⟨hnone, -⟩ | ⟨hissued, -⟩
      · exact absurd hnone hp
      · exact ⟨hissued, payload, whole, hframe, hprefix⟩
    · rcases hcalls.failure s hs with hnothing | ⟨hheld, hremote⟩ | hrest
      · exact absurd hnothing hq
      · obtain ⟨conn, hconn⟩ := Option.isSome_iff_exists.mp hheld
        exact .inl ⟨hremote, conn, hconn, (hcalls.synced conn hconn).1⟩
      · exact .inr hrest

end TcpConnector

end TidePool.Rpc
