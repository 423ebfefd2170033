import TidePool.Rpc.Session
import TidePool.Schemes.Machine

/-! What the RPC client gets from a peer that keeps to the protocol.

    `Session` is about any peer: nothing false is accepted. Here the peer is a remote node that decodes every
    request with the codec of this repository, handles it, and encodes its answer under the id and the opcode
    of the request. The bytes may be split in any way, but none is lost.

        client   request 1  →          request 2  →
        remote         handle 1 → response 1  handle 2 → response 2
        client                    ← reply 1            ← reply 2

    Then every call returns what the remote answered to it, the remote has handled the calls of the client,
    each once and in order, and the connection is there for the next call. -/

namespace TidePool.Rpc
open Schemes Wire Transport Transport.TcpConnection

/-! ### The peer -/

/-- A call that is sent to the remote node. -/
inductive Request where
  | get (key : BlockKey)
  | put (key : BlockKey) (block : Block)
  | ping

/-- What the remote node has to say about it. -/
inductive Answer where
  | block (b : Block)
  | done
  | failed (code : StatusCode) (message : Bytes)

namespace Request

def call : Request → RpcCall
  | .get key => .get key
  | .put key block => .put key block
  | .ping => .ping

def opcode : Request → Opcode
  | .get _ => .get
  | .put _ _ => .put
  | .ping => .ping

def payload : Request → Bytes
  | .get key => encodeBlockKey key
  | .put key block => encodeBlockKey key ++ BlockCodec.serializeBlock block
  | .ping => []

/-- The frame of a request under this id. -/
def frame (id : UInt64) (r : Request) : WireFrame := ⟨headerFor .request r.opcode .ok id r.payload, r.payload⟩

/-- The frames of requests one after another. -/
def frames : UInt64 → List Request → List WireFrame
  | _, [] => []
  | id, r :: rs => r.frame id :: frames (TcpConnector.nextId id) rs

/-- The request a frame stands for. -/
def decode (limits : CodecLimits) (frame : WireFrame) : Result Request :=
  match validateRequest frame.header frame.payload limits true with
  | .error s => .error s
  | .ok () =>
    if frame.header.opcode = Opcode.get.raw then (decodeGetRequest frame.payload).map .get
    else if frame.header.opcode = Opcode.put.raw then
      match decodePutRequest frame.payload limits true with
      | .error s => .error s
      | .ok (key, blob) =>
        (BlockCodec.deserializeHeader blob).map fun header => .put key ⟨header.metadata, header.payload blob⟩
    else .ok .ping

end Request

namespace Answer

/-- `Get` is answered with a block and the others with nothing, unless they fail. -/
def Suits : Answer → Request → Prop
  | .block _, .get _ | .done, .put _ _ | .done, .ping => True
  | .failed code _, _ => code ≠ .ok
  | _, _ => False

/-- Status and payload of the response. -/
def encode (limits : CodecLimits) : Answer → Result (WireStatus × Bytes)
  | .block b => (encodeGetSuccessPayload (BlockCodec.serializeBlock b) limits true).map fun p => (.ok, p)
  | .done => encodeEmptySuccessPayload.map fun p => (.ok, p)
  | .failed code message => (encodeErrorPayload message limits true).map fun p => (toWireStatus code, p)

/-- What the caller is to see. -/
def reply : Answer → Request → RpcReply
  | .block b, _ => .block (.ok b)
  | .done, _ => .status (.ok ())
  | .failed code message, .get _ => .block (.error ⟨code, textOf message⟩)
  | .failed code message, _ => .status (.error ⟨code, textOf message⟩)

end Answer

/-- A remote node: how it handles a request, with an answer that suits it. -/
structure RemoteNode (S : Type) where
  handle : S → Request → Answer × S
  suits : ∀ s r, (handle s r).1.Suits r

namespace RemoteNode

variable {S : Type} (remote : RemoteNode S) (limits : CodecLimits)

/-- The response to a request frame. -/
def respond (s : S) (request : WireFrame) : Result (WireFrame × S) :=
  match Request.decode limits request with
  | .error e => .error e
  | .ok r =>
    ((remote.handle s r).1.encode limits).map fun (status, payload) =>
      (⟨headerFor .response r.opcode status request.header.requestId payload, payload⟩, (remote.handle s r).2)

/-- The answers to requests one after another. -/
def serve : S → List Request → List Answer × S
  | s, [] => ([], s)
  | s, r :: rs =>
    let (answer, s') := remote.handle s r
    (serve s' rs).map (answer :: ·) id

end RemoteNode

/-! ### Frames -/

section Frames

variable {limits : CodecLimits} {id : UInt64} {payload : Bytes}

theorem opcode_raw_injective {a b : Opcode} (h : a.raw = b.raw) : a = b := by
  revert h
  cases a <;> cases b <;> decide

theorem isFrame_of_valid {header : FrameHeader} (hvalid : header.Valid limits)
    (hsize : header.payloadBytes.toNat = payload.length) :
    IsFrame limits ⟨header, payload⟩ (preamble ++ headerFields header [] ++ payload) :=
  ⟨hsize, _, encodeHeader_eq_ok_iff.mpr ⟨hvalid, rfl⟩, rfl⟩

/-- The payload of a request fits into a frame. -/
def Request.Fits (limits : CodecLimits) (r : Request) : Prop := Wire.Fits limits r.payload.length

theorem toNat_payloadBytes (h : Wire.Fits limits payload.length) :
    (UInt64.ofNat payload.length).toNat = payload.length :=
  UInt64.toNat_ofNat_of_lt' h.lt_size

theorem serializeBlock_ne_nil (b : Block) : BlockCodec.serializeBlock b ≠ [] := by
  intro h
  have hlen := BlockCodec.length_serializeBlock b
  rw [h, List.length_nil] at hlen
  simp only [BlockCodec.headerSize] at hlen
  omega

theorem Request.putPayload {key : BlockKey} {block : Block} (h : (Request.put key block).Fits limits) :
    PutPayload limits key (BlockCodec.serializeBlock block) (Request.put key block).payload :=
  ⟨serializeBlock_ne_nil block, h, rfl⟩

theorem Request.opcode_of_raw {r : Request} {op : Opcode} (h : (r.frame id).header.opcode = op.raw) :
    r.opcode = op :=
  opcode_raw_injective h

theorem Request.requestLength (r : Request) (h : r.Fits limits) : RequestLength (r.frame id).header where
  status := rfl
  get ho := by
    cases r with
    | get key => exact (toNat_payloadBytes h).trans (length_encodeBlockKey key)
    | put _ _ | ping => cases opcode_of_raw ho
  put ho := by
    cases r with
    | put key block =>
      have hpos := List.length_pos_of_ne_nil (serializeBlock_ne_nil block)
      have hlen := (Request.putPayload h).length
      rw [frame, headerFor, toNat_payloadBytes h]
      omega
    | get _ | ping => cases opcode_of_raw ho
  ping ho := by
    cases r with
    | ping => rfl
    | get _ | put _ _ => cases opcode_of_raw ho

/-- A request that fits is one the validator takes. -/
theorem Request.requestFrame (r : Request) (h : r.Fits limits) (hid : id ≠ 0) :
    RequestFrame limits true (r.frame id).header (r.frame id).payload where
  valid := headerFor_valid h (fun _ => r.requestLength h) (fun hk => by cases hk)
  kind := rfl
  id := hid
  size := toNat_payloadBytes h
  get ho := by
    cases r with
    | get key => exact ⟨key, decodeBlockKey_encodeBlockKey key⟩
    | put _ _ | ping => cases opcode_of_raw ho
  put ho := by
    cases r with
    | put key block => exact ⟨_, decodePutRequest_eq_ok_iff.mpr ⟨Request.putPayload h, rfl⟩⟩
    | get _ | ping => cases opcode_of_raw ho
  ping ho := by
    cases r with
    | ping => rfl
    | get _ | put _ _ => cases opcode_of_raw ho

/-- UNDERSTOOD: the remote reads off a frame the request it was made from. -/
theorem Request.decode_frame (r : Request) (h : r.Fits limits) (hid : id ≠ 0) :
    Request.decode limits (r.frame id) = .ok r := by
  have hvalid := validateRequest_eq_ok_iff.mpr (r.requestFrame h hid)
  simp only [decode, hvalid]
  cases r with
  | get key =>
    have hkey : decodeGetRequest (encodeBlockKey key) = .ok key := decodeBlockKey_encodeBlockKey key
    have hop : ((Request.get key).frame id).header.opcode = Opcode.get.raw := rfl
    rw [if_pos hop, frame, payload, hkey]
    rfl
  | put key block =>
    have hget : ((Request.put key block).frame id).header.opcode ≠ Opcode.get.raw :=
      fun ho => by cases opcode_of_raw ho
    have hop : ((Request.put key block).frame id).header.opcode = Opcode.put.raw := rfl
    have hput : decodePutRequest ((Request.put key block).frame id).payload limits true =
        .ok (key, BlockCodec.serializeBlock block) :=
      decodePutRequest_eq_ok_iff.mpr ⟨Request.putPayload h, rfl⟩
    rw [if_neg hget, if_pos hop, hput]
    simp only [BlockCodec.deserializeHeader_serializeBlock, Except.map, BlockCodec.payload_headerOf,
      BlockCodec.headerOf_metadata]
  | ping =>
    have hget : (Request.ping.frame id).header.opcode ≠ Opcode.get.raw := fun ho => by cases opcode_of_raw ho
    have hput : (Request.ping.frame id).header.opcode ≠ Opcode.put.raw := fun ho => by cases opcode_of_raw ho
    rw [if_neg hget, if_neg hput]

theorem fromWireStatus_toWireStatus (code : StatusCode) :
    fromWireStatus (toWireStatus code).raw = .ok code := by
  cases code <;> rfl

theorem toWireStatus_ne_ok {code : StatusCode} (h : code ≠ .ok) : toWireStatus code ≠ .ok := by
  cases code <;> first | exact absurd rfl h | exact fun hw => by cases hw

theorem raw_ne_ok {status : WireStatus} (h : status ≠ .ok) : status.raw ≠ WireStatus.ok.raw := by
  cases status <;> first | exact absurd rfl h | decide

theorem map_eq_ok {α β : Type} {f : α → β} {c : Result α} {b : β} (h : c.map f = .ok b) :
    ∃ a, c = .ok a ∧ f a = b := by
  cases c with
  | error s => cases h
  | ok a => exact ⟨a, rfl, Except.ok.inj h⟩

/-- A success without payload, of a call other than `Get`. -/
theorem emptyResponse {opcode : Opcode} (hop : opcode ≠ .get) (hfits : Wire.Fits limits 0) (hid : id ≠ 0) :
    ResponseFrame limits true (headerFor .response opcode .ok id []) [] := by
  have hget : opcode.raw ≠ Opcode.get.raw := fun ho => hop (opcode_raw_injective ho)
  have hrule : ResponseLength limits (headerFor .response opcode .ok id []) :=
    ⟨fun hne => absurd rfl hne, fun _ ho => absurd ho hget, fun _ _ => rfl, fun _ _ => rfl⟩
  exact ⟨headerFor_valid hfits (fun hk => by cases hk) (fun _ => hrule), rfl, hid, rfl,
    fun hne => absurd rfl hne, fun _ ho => absurd ho hget, fun _ _ => rfl⟩

/-- A response that the client's validator takes. -/
theorem Answer.responseFrame {answer : Answer} {r : Request} {status : WireStatus} (hsuits : answer.Suits r)
    (h : answer.encode limits = .ok (status, payload)) (hping : Wire.Fits limits 0) (hid : id ≠ 0) :
    ResponseFrame limits true (headerFor .response r.opcode status id payload) payload := by
  cases answer with
  | block b =>
    cases r with
    | get key =>
      obtain ⟨p, hp, heq⟩ := map_eq_ok h
      obtain ⟨rfl, rfl⟩ := Prod.mk.inj heq
      exact (encodeGetSuccessPayload_eq_ok_iff.mp hp).1.responseFrame hid
    | put _ _ | ping => cases hsuits
  | done =>
    obtain ⟨rfl, rfl⟩ := Prod.mk.inj (Except.ok.inj h)
    have hop : r.opcode ≠ .get := by
      cases r with
      | get _ => cases hsuits
      | put _ _ | ping => exact fun ho => by cases ho
    exact emptyResponse hop hping hid
  | failed code message =>
    obtain ⟨p, hp, heq⟩ := map_eq_ok h
    obtain ⟨rfl, rfl⟩ := Prod.mk.inj heq
    exact (encodeErrorPayload_eq_ok_iff.mp hp).1.responseFrame r.opcode (toWireStatus_ne_ok hsuits) hid

end Frames

/-! ### Both directions of a connection -/

theorem writeExact_reading (conn : TcpConnection) (input : Bytes) :
    (conn.writeExact input).2.peer.incoming = conn.peer.incoming ∧
      (conn.writeExact input).2.peer.reads = conn.peer.reads := by
  simp only [writeExact]
  split_ifs
  · exact ⟨rfl, rfl⟩
  · exact ⟨rfl, rfl⟩
  · exact ⟨rfl, rfl⟩
  · rcases writeLoop input.length conn.peer.writes 0 with ⟨_ | _, _, _⟩ <;> exact ⟨rfl, rfl⟩

theorem writeWireFrame_reading (conn : TcpConnection) (frame : WireFrame) (limits : CodecLimits) :
    (conn.writeWireFrame frame limits).2.peer.incoming = conn.peer.incoming ∧
      (conn.writeWireFrame frame limits).2.peer.reads = conn.peer.reads := by
  by_cases hsize : frame.header.payloadBytes.toNat = frame.payload.length
  swap
  · simp only [writeWireFrame, ne_eq, hsize, not_false_eq_true, if_true, and_self]
  simp only [writeWireFrame, hsize, ne_eq, not_true, if_false]
  cases encodeHeader frame.header limits with
  | error s => exact ⟨rfl, rfl⟩
  | ok header =>
    obtain ⟨hin, hreads⟩ := writeExact_reading conn header
    simp only
    rcases hwrite : conn.writeExact header with ⟨_ | _, conn₁⟩ <;> rw [hwrite] at hin hreads
    · exact ⟨hin, hreads⟩
    · obtain ⟨hin₁, hreads₁⟩ := writeExact_reading conn₁ frame.payload
      by_cases hempty : frame.payload.isEmpty = true
      · simp only [hempty, if_true]; exact ⟨hin, hreads⟩
      · simp only [hempty]; exact ⟨hin₁.trans hin, hreads₁.trans hreads⟩

theorem readExact_writing (conn : TcpConnection) (bytes : ℕ) :
    (conn.readExact bytes).2.peer.writes = conn.peer.writes := by
  simp only [readExact]
  split_ifs
  · rfl
  · rfl
  · rfl
  · rcases readLoop bytes conn.peer.reads conn.peer.incoming [] with ⟨_ | _, _, _, _⟩ <;> rfl

theorem readWireFrame_writing (conn : TcpConnection) (limits : CodecLimits) (alloc : Bool) :
    (conn.readWireFrame limits alloc).2.peer.writes = conn.peer.writes := by
  have hfirst := readExact_writing conn headerBytes
  simp only [readWireFrame]
  rcases hread : conn.readExact headerBytes with ⟨_ | bytes, conn₁⟩ <;> rw [hread] at hfirst
  · exact hfirst
  · simp only
    cases decodeHeader bytes limits with
    | error s => exact hfirst
    | ok header =>
      simp only
      cases validateFrameSize header.payloadBytes.toNat limits with
      | error s => exact hfirst
      | ok size =>
        have hsecond := readExact_writing conn₁ (size - headerBytes)
        simp only
        split_ifs
        · exact hfirst
        · exact hfirst
        · rcases hread' : conn₁.readExact (size - headerBytes) with ⟨_ | _, conn₂⟩ <;>
            rw [hread'] at hsecond <;>
            exact hsecond.trans hfirst

/-- A usable connection on which no turn fails, with these bytes still to come in. -/
structure Line (conn : TcpConnection) (incoming : Bytes) : Prop where
  sends : conn.Sends
  receives : conn.Receives
  incoming : conn.peer.incoming = incoming

/-- One frame out and one frame in. -/
structure Carried (conn conn' : TcpConnection) (p q rest : Bytes) : Prop where
  line : Line conn' rest
  sent : conn'.sent = conn.sent ++ p
  received : conn'.received = conn.received ++ q

namespace TcpConnector

variable {cfg : TcpConfig} {c : TcpConnector} {env : CallEnv} {conn : TcpConnection} {rest : Bytes}

/-- EXCHANGE: the request goes out whole and the response, which is valid, comes in. -/
theorem exchange_delivers {request response : WireFrame} {p q : Bytes} (hline : Line conn (q ++ rest))
    (hrequest : IsFrame cfg.options.codecLimits request p)
    (hresponse : IsFrame cfg.options.codecLimits response q) (hanswers : Answers request response)
    (hvalid : ResponseFrame cfg.options.codecLimits true response.header response.payload)
    (henv : env.Roomy) :
    ∃ conn', c.exchange cfg conn request env = (.ok response, { c with connection := some conn' }) ∧
      Carried conn conn' p q rest := by
  obtain ⟨hpayload, hvalidate, -⟩ := henv
  obtain ⟨conn₁, hwrite, hsends, hwrites⟩ := writeWireFrame_sends hline.sends hrequest
  have hreading := writeWireFrame_reading conn request cfg.options.codecLimits
  rw [hwrite] at hreading
  have hreceives : conn₁.Receives := ⟨hsends.isOpen, by rw [hreading.2]; exact hline.receives.reads⟩
  obtain ⟨conn₂, hread, hreceives₂, hreads, hrest⟩ :=
    readWireFrame_receives hreceives hresponse (hreading.1.trans hline.incoming)
  have hwriting := readWireFrame_writing conn₁ cfg.options.codecLimits true
  rw [hread] at hwriting
  refine ⟨conn₂, ?_, ⟨⟨⟨hreceives₂.isOpen, by rw [hwriting]; exact hsends.writes⟩, hreceives₂, hrest⟩,
    ?_, ?_⟩⟩
  · simp only [exchange, hwrite, hpayload, hread, hanswers.replies, hanswers.opcode, hanswers.requestId,
      ne_eq, not_true, if_false, hvalidate, validateResponse_eq_ok_iff.mpr hvalid]
  · rw [hreads.sent, hwrites.sent]
  · rw [hreads.received, hwrites.received]

/-- A connection that was just made. -/
def opened (peer : Peer) : TcpConnection := { socket := true, broken := false, peer }

/-- The connection of the next call: the one that is held, or the one it will make. -/
inductive Uses (c : TcpConnector) (env : CallEnv) : TcpConnection → Prop
  | held {conn : TcpConnection} (h : c.connection = some conn) (hopen : conn.isOpen = true) : Uses c env conn
  | dialled (peer : Peer) (h : c.connection = none) (hdial : env.dial = .connected peer)
      (hroom : env.connection = true) : Uses c env (opened peer)

theorem ensureConnected_uses (hcfg : validateConfiguration cfg = .ok ()) (h : Uses c env conn) :
    c.ensureConnected cfg env = (.ok conn, { c with connection := some conn }) := by
  cases h with
  | held h hopen =>
    have hsame : { c with connection := some conn } = c := by rw [← h]
    rw [hsame]
    simp only [ensureConnected, h, hopen, if_true]
  | dialled peer h hdial hroom =>
    simp only [validateConfiguration] at hcfg
    split_ifs at hcfg with hhost hport htimeouts
    obtain ⟨hconnect, hread, hwrite⟩ := not_or.mp htimeouts |>.imp_right not_or.mp
    have hoptions : validateOptions cfg.options.connection = .ok () := by
      simp only [validateOptions, hconnect, hread, hwrite, if_false]
    have hdialled :
        TcpConnection.connect cfg.endpoint.host cfg.endpoint.port cfg.options.connection env.dial =
        .ok (opened peer) := by
      simp only [TcpConnection.connect, hhost, hport, hoptions, hdial, Bool.false_eq_true, if_false]
      rfl
    simp only [ensureConnected, h, ensureConnected.dial, hdialled, hroom, if_true]

/-- The connector after a call that used its id and kept the connection. -/
def after (c : TcpConnector) (conn : TcpConnection) : TcpConnector where
  connection := some conn
  nextRequestId := nextId c.nextRequestId
  past := c.past
  issued := c.issued ++ [c.nextRequestId]

/-- The response with this status and payload to the next request. -/
def responseTo (c : TcpConnector) (r : Request) (status : WireStatus) (payload : Bytes) : WireFrame :=
  ⟨headerFor .response r.opcode status c.nextRequestId payload, payload⟩

variable {r : Request} {status : WireStatus} {payload q : Bytes}

/-- EXECUTE: with its response next on the line, a request gets it. -/
theorem executeLocked_delivers (hcfg : validateConfiguration cfg = .ok ()) (hid : c.nextRequestId ≠ 0)
    (hfits : r.Fits cfg.options.codecLimits) (hrequest : env.validateRequest = true) (henv : env.Roomy)
    (huses : Uses c env conn) (hline : Line conn (q ++ rest))
    (hresponse : IsFrame cfg.options.codecLimits (c.responseTo r status payload) q)
    (hvalid : ResponseFrame cfg.options.codecLimits true (c.responseTo r status payload).header payload) :
    ∃ p conn', c.executeLocked cfg r.opcode r.payload env =
        (.ok (c.responseTo r status payload), c.after conn') ∧
      IsFrame cfg.options.codecLimits (r.frame c.nextRequestId) p ∧ Carried conn conn' p q rest := by
  have hframe := r.requestFrame hfits hid
  have hwritten := isFrame_of_valid hframe.valid hframe.size
  let c₁ : TcpConnector := { c.allocateRequestId.2 with connection := some conn }
  have huses₁ : Uses c.allocateRequestId.2 env conn := by
    cases huses with
    | held h hopen => exact .held h hopen
    | dialled peer h hdial hroom => exact .dialled peer h hdial hroom
  have hensure := ensureConnected_uses hcfg huses₁
  obtain ⟨conn', hexchange, hcarried⟩ : ∃ conn', c₁.exchange cfg conn (r.frame c.nextRequestId) env =
      (.ok (c.responseTo r status payload), { c₁ with connection := some conn' }) ∧
      Carried conn conn' _ q rest :=
    exchange_delivers hline hwritten hresponse ⟨rfl, rfl, rfl, rfl⟩ hvalid henv
  refine ⟨_, conn', ?_, hwritten, hcarried⟩
  have hchecked := validateRequest_eq_ok_iff.mpr hframe
  rw [← hrequest] at hchecked
  have hchecked' : validateRequest (headerFor .request r.opcode .ok c.allocateRequestId.1 r.payload) r.payload
      cfg.options.codecLimits env.validateRequest = .ok () := hchecked
  simp only [executeLocked, hchecked', hensure]
  exact hexchange

/-- The failure that the remote reported, as the caller sees it. -/
theorem remoteError_delivers {code : StatusCode} {message : Bytes} (hcode : code ≠ .ok)
    (hdecode : env.decode = true)
    (hpayload : ErrorPayload cfg.options.codecLimits message payload) (c' : TcpConnector) (what : String) :
    c'.remoteError cfg (c.responseTo r (toWireStatus code) payload) env what =
      (⟨code, textOf message⟩, c') := by
  have hmessage : decodeErrorPayload payload cfg.options.codecLimits env.decode = .ok message :=
    decodeErrorPayload_eq_ok_iff.mpr ⟨hpayload, .inr hdecode⟩
  have hstatus : fromWireStatus (c.responseTo r (toWireStatus code) payload).header.status = .ok code :=
    fromWireStatus_toWireStatus code
  have herror : decodeRemoteError cfg (c.responseTo r (toWireStatus code) payload) env =
      .ok ⟨code, textOf message⟩ := by
    simp only [decodeRemoteError, responseTo] at hstatus ⊢
    simp only [hmessage, hstatus, hcode, if_false]
  simp only [remoteError, herror]

/-- A response that is not `kOk`. -/
theorem status_responseTo_failed {code : StatusCode} (hcode : code ≠ .ok) :
    (c.responseTo r (toWireStatus code) payload).header.status ≠ WireStatus.ok.raw :=
  raw_ne_ok (toWireStatus_ne_ok hcode)

/-- What a `Put` or `Ping` makes of the answer. -/
theorem acknowledged_delivers {c' : TcpConnector} {answer : Answer} (hsuits : answer.Suits r)
    (hop : r.opcode ≠ .get) (hencode : answer.encode cfg.options.codecLimits = .ok (status, payload))
    (henv : env.Roomy) (what : String)
    (hexec : c.executeLocked cfg r.opcode r.payload env = (.ok (c.responseTo r status payload), c')) :
    (c.acknowledged cfg r.opcode r.payload env what).map .status id = (answer.reply r, c') := by
  simp only [acknowledged, hexec]
  cases answer with
  | block b =>
    cases r with
    | get _ => exact absurd rfl hop
    | put _ _ | ping => cases hsuits
  | done =>
    obtain ⟨rfl, rfl⟩ := Prod.mk.inj (Except.ok.inj hencode)
    have hok : (c.responseTo r .ok []).header.status = WireStatus.ok.raw := rfl
    simp only [hok, ne_eq, not_true, if_false]
    rfl
  | failed code message =>
    obtain ⟨p, hp, heq⟩ := map_eq_ok hencode
    obtain ⟨rfl, rfl⟩ := Prod.mk.inj heq
    simp only [status_responseTo_failed hsuits, ne_eq, not_false_eq_true, if_true,
      remoteError_delivers hsuits henv.2.2.2.1 (encodeErrorPayload_eq_ok_iff.mp hp).1]
    cases r with
    | get _ => exact absurd rfl hop
    | put _ _ | ping => rfl

/-- What a `Get` makes of the answer. -/
theorem get_delivers {c' : TcpConnector} {key : BlockKey} {answer : Answer}
    (hcfg : validateConfiguration cfg = .ok ()) (hsuits : answer.Suits (.get key))
    (hencode : answer.encode cfg.options.codecLimits = .ok (status, payload))
    (halloc : env.encode = true) (henv : env.Roomy)
    (hexec : c.executeLocked cfg .get (encodeBlockKey key) env =
      (.ok (c.responseTo (.get key) status payload), c')) :
    (c.get cfg key env).map .block id = (answer.reply (.get key), c') := by
  obtain ⟨-, -, -, hdecode, hreply⟩ := henv
  simp only [get, hcfg, encodeGetRequest, halloc, if_true, hexec]
  cases answer with
  | block b =>
    obtain ⟨p, hp, heq⟩ := map_eq_ok hencode
    obtain ⟨rfl, rfl⟩ := Prod.mk.inj heq
    have hblob : decodeGetSuccessPayload p cfg.options.codecLimits env.decode =
        .ok (BlockCodec.serializeBlock b) :=
      decodeGetSuccessPayload_eq_ok_iff.mpr ⟨(encodeGetSuccessPayload_eq_ok_iff.mp hp).1, hdecode⟩
    have hok : (c.responseTo (.get key) .ok p).header.status = WireStatus.ok.raw := rfl
    have hpayload : (c.responseTo (.get key) .ok p).payload = p := rfl
    simp only [hok, ne_eq, not_true, if_false, getBlock, hpayload, hblob,
      BlockCodec.deserializeHeader_serializeBlock, hreply, if_true, BlockCodec.payload_headerOf,
      BlockCodec.headerOf_metadata]
    rfl
  | done => cases hsuits
  | failed code message =>
    obtain ⟨p, hp, heq⟩ := map_eq_ok hencode
    obtain ⟨rfl, rfl⟩ := Prod.mk.inj heq
    simp only [status_responseTo_failed hsuits, ne_eq, not_false_eq_true, if_true,
      remoteError_delivers hsuits hdecode (encodeErrorPayload_eq_ok_iff.mp hp).1]
    rfl

/-- A block that fits into a request passes the size check of `Put`. -/
theorem validateBlockSize_of_fits {key : BlockKey} {block : Block}
    (h : (Request.put key block).Fits cfg.options.codecLimits) :
    validateBlockSize block cfg.options.codecLimits = .ok () := by
  have hlen : (Request.put key block).payload.length = envelopeBytes + block.sizeBytes := by
    rw [(Request.putPayload h).length, BlockCodec.length_serializeBlock, envelopeBytes, Nat.add_assoc]
  have hfits : Wire.Fits cfg.options.codecLimits (envelopeBytes + block.sizeBytes) := hlen ▸ h
  have hlt := hfits.lt_size
  have hover : ¬ UInt64.size - 1 - envelopeBytes < block.sizeBytes := by
    simp only [UInt64.size] at hlt ⊢
    omega
  simp only [validateBlockSize, hover, if_false, validateFrameSize, validateFrameSizeImpl_of_fits false hfits]
  rfl

/-- Every allocation of a call succeeds. -/
structure Ample (env : CallEnv) : Prop where
  roomy : env.Roomy
  serialize : env.serialize = true
  encode : env.encode = true
  validateRequest : env.validateRequest = true
  connection : env.connection = true

theorem fits_empty (hcfg : validateConfiguration cfg = .ok ()) : Wire.Fits cfg.options.codecLimits 0 := by
  simp only [validateConfiguration] at hcfg
  split_ifs at hcfg with _ _ _ hsmall
  exact not_lt.mp hsmall

/-- STEP: with the remote's response next on the line, a call returns what the remote answered. -/
theorem rpcStep_delivers (hcfg : validateConfiguration cfg = .ok ()) (hid : c.nextRequestId ≠ 0)
    (hfits : r.Fits cfg.options.codecLimits) (henv : Ample env) (huses : Uses c env conn)
    (hline : Line conn (q ++ rest)) {answer : Answer} (hsuits : answer.Suits r)
    (hencode : answer.encode cfg.options.codecLimits = .ok (status, payload))
    (hresponse : IsFrame cfg.options.codecLimits (c.responseTo r status payload) q) :
    ∃ p conn', rpcStep cfg c (r.call, env) = (answer.reply r, c.after conn') ∧
      IsFrame cfg.options.codecLimits (r.frame c.nextRequestId) p ∧ Carried conn conn' p q rest := by
  have hvalid := Answer.responseFrame hsuits hencode (fits_empty hcfg) hid
  obtain ⟨p, conn', hexec, hwritten, hcarried⟩ :=
    executeLocked_delivers hcfg hid hfits henv.validateRequest henv.roomy huses hline hresponse hvalid
  refine ⟨p, conn', ?_, hwritten, hcarried⟩
  cases r with
  | get key => exact get_delivers hcfg hsuits hencode henv.encode henv.roomy hexec
  | put key block =>
    have hpayload :
        encodePutRequest key (BlockCodec.serializeBlock block) cfg.options.codecLimits env.encode =
        .ok (Request.put key block).payload :=
      encodePutRequest_eq_ok_iff.mpr ⟨Request.putPayload hfits, henv.encode⟩
    have hsize : validateBlockSize block cfg.options.codecLimits = .ok () := validateBlockSize_of_fits hfits
    simp only [rpcStep, Request.call, put, hcfg, hsize, henv.serialize, Bool.not_true, Bool.false_eq_true,
      if_false, hpayload]
    exact acknowledged_delivers hsuits (fun ho => by cases ho) hencode henv.roomy _ hexec
  | ping =>
    simp only [rpcStep, Request.call, ping, hcfg, encodePingRequest]
    exact acknowledged_delivers hsuits (fun ho => by cases ho) hencode henv.roomy _ hexec

/-! ### Any sequence of calls -/

/-- The replies to a sequence of calls. -/
def rpcReplies (cfg : TcpConfig) : TcpConnector → List (RpcCall × CallEnv) → List RpcReply × TcpConnector
  | c, [] => ([], c)
  | c, call :: calls =>
    let (reply, c') := rpcStep cfg c call
    (rpcReplies cfg c' calls).map (reply :: ·) id

theorem nextId_ne_zero (id : UInt64) : nextId id ≠ 0 := by
  intro hzero
  have hnat := congrArg UInt64.toNat hzero
  simp only [nextId, UInt64.size] at hnat
  split_ifs at hnat with hlast
  · simp at hnat
  · rw [UInt64.toNat_add] at hnat
    have hlt := id.toNat_lt
    simp at hnat
    omega

/-- What a response says about the remote. -/
theorem respond_frame {S : Type} {remote : RemoteNode S} {limits : CodecLimits} {s s' : S} {id : UInt64}
    {response : WireFrame} (hfits : r.Fits limits) (hid : id ≠ 0)
    (h : remote.respond limits s (r.frame id) = .ok (response, s')) :
    ∃ status payload, (remote.handle s r).1.encode limits = .ok (status, payload) ∧
      response = ⟨headerFor .response r.opcode status id payload, payload⟩ ∧ s' = (remote.handle s r).2 := by
  simp only [RemoteNode.respond, r.decode_frame hfits hid] at h
  obtain ⟨⟨status, payload⟩, hencode, heq⟩ := map_eq_ok h
  obtain ⟨rfl, rfl⟩ := Prod.mk.inj heq
  exact ⟨status, payload, hencode, rfl, rfl⟩

/-- A call of the client that can be made. -/
structure Sendable (cfg : TcpConfig) (ask : Request × CallEnv) : Prop where
  fits : ask.1.Fits cfg.options.codecLimits
  ample : Ample ask.2

/-- The requests of the client went out, these bytes came in, and the connection is kept; with no request the
    client may have none yet. -/
structure Conversed (cfg : TcpConfig) (c : TcpConnector) (conn : TcpConnection) (requests : List Request)
    (received rest : Bytes) (c' : TcpConnector) (conn' : TcpConnection) : Prop where
  held : c'.connection = some conn' ∨ requests = [] ∧ c' = c ∧ conn' = conn
  sent : ∃ sent, AreFrames cfg.options.codecLimits (Request.frames c.nextRequestId requests) sent ∧
    Carried conn conn' sent received rest

section Runs

variable {S : Type} {remote : RemoteNode S} {s s' : S} {responses : List WireFrame} {bytes : Bytes}

/-- RUN: every call of a sequence returns what the remote answered to it. -/
theorem rpcReplies_delivers (hcfg : validateConfiguration cfg = .ok ()) (asks : List (Request × CallEnv))
    (hasks : ∀ ask ∈ asks, Sendable cfg ask) (hid : c.nextRequestId ≠ 0)
    (huses : ∀ ask ∈ asks.head?, Uses c ask.2 conn) (hline : Line conn (bytes ++ rest))
    (hremote : run (remote.respond cfg.options.codecLimits) s
      (Request.frames c.nextRequestId (asks.map Prod.fst)) = .ok (responses, s'))
    (hbytes : AreFrames cfg.options.codecLimits responses bytes) :
    ∃ answers c' conn', remote.serve s (asks.map Prod.fst) = (answers, s') ∧
      rpcReplies cfg c (asks.map fun ask => (ask.1.call, ask.2)) =
        (List.zipWith Answer.reply answers (asks.map Prod.fst), c') ∧
      Conversed cfg c conn (asks.map Prod.fst) bytes rest c' conn' := by
  induction asks generalizing s c conn responses bytes with
  | nil =>
    obtain ⟨rfl, rfl⟩ := run_nil_iff.mp hremote
    obtain rfl : bytes = [] := hbytes
    exact ⟨[], c, conn, rfl, rfl, .inr ⟨rfl, rfl, rfl⟩, [], rfl, hline, by simp, by simp⟩
  | cons ask asks ih =>
    obtain ⟨r, env⟩ := ask
    obtain ⟨hask, hasks⟩ := List.forall_mem_cons.mp hasks
    obtain ⟨response, s₁, responses', hfirst, hlater, rfl⟩ := run_cons_iff.mp hremote
    obtain ⟨status, payload, hencode, rfl, rfl⟩ := respond_frame hask.fits hid hfirst
    obtain ⟨q, later, hq, hrest, rfl⟩ := hbytes
    rw [List.append_assoc] at hline
    obtain ⟨p, conn₁, hstep, hp, hcarried⟩ := rpcStep_delivers hcfg hid hask.fits hask.ample
      (huses _ rfl) hline (remote.suits s r) hencode hq
    have hheld : ∀ ask ∈ asks.head?, Uses (c.after conn₁) ask.2 conn₁ :=
      fun _ _ => .held rfl hcarried.line.sends.isOpen
    obtain ⟨answers, c', conn', hserve, hreplies, hconversed⟩ :=
      ih hasks (nextId_ne_zero _) hheld hcarried.line hlater hrest
    obtain ⟨sent, hsent, hcarried'⟩ := hconversed.sent
    have hkept : c'.connection = some conn' := by
      rcases hconversed.held with h | ⟨-, rfl, rfl⟩
      · exact h
      · rfl
    refine ⟨(remote.handle s r).1 :: answers, c', conn', ?_, ?_, .inl hkept, p ++ sent,
      ⟨p, sent, hp, hsent, rfl⟩, hcarried'.line, ?_, ?_⟩
    · simp only [List.map_cons, RemoteNode.serve, hserve]; rfl
    · simp only [List.map_cons, rpcReplies, hstep, hreplies]; rfl
    · rw [hcarried'.sent, hcarried.sent, List.append_assoc]
    · rw [hcarried'.received, hcarried.received, List.append_assoc]

/-- DELIVERY: wherever earlier calls have led, if the connection that comes next loses nothing and brings what
    a remote node responds to the requests, then the remote handles exactly these requests, once each and in
    order, and every call returns the remote's answer to it, be it a block, a success or a failure with its
    code and message. Request frames are all that went out, and the connection is kept. -/
theorem rpc_delivers (cfg : TcpConfig) (earlier : List (RpcCall × CallEnv)) (asks : List (Request × CallEnv))
    (conn : TcpConnection) (remote : RemoteNode S) (s s' : S) (responses : List WireFrame)
    (bytes rest : Bytes)
    (hcfg : validateConfiguration cfg = .ok ()) (hasks : ∀ ask ∈ asks, Sendable cfg ask)
    (huses : ∀ ask ∈ asks.head?, Uses (reached cfg earlier) ask.2 conn) (hline : Line conn (bytes ++ rest))
    (hremote : run (remote.respond cfg.options.codecLimits) s
      (Request.frames (reached cfg earlier).nextRequestId (asks.map Prod.fst)) = .ok (responses, s'))
    (hbytes : AreFrames cfg.options.codecLimits responses bytes) :
    ∃ answers c' conn', remote.serve s (asks.map Prod.fst) = (answers, s') ∧
      rpcReplies cfg (reached cfg earlier) (asks.map fun ask => (ask.1.call, ask.2)) =
        (List.zipWith Answer.reply answers (asks.map Prod.fst), c') ∧
      Conversed cfg (reached cfg earlier) conn (asks.map Prod.fst) bytes rest c' conn' := by
  have hid : (reached cfg earlier).nextRequestId ≠ 0 := by
    rw [(session_reached cfg earlier).next]
    intro hzero
    have hnat := idAt_toNat (reached cfg earlier).issued.length
    rw [hzero] at hnat
    simp at hnat
  exact rpcReplies_delivers hcfg asks hasks hid huses hline hremote hbytes

end Runs

/-- A remote node that keeps the last block it was sent, whatever the key. -/
def cell : RemoteNode (Option Block) where
  handle
    | _, .put _ block => (.done, some block)
    | some block, .get _ => (.block block, some block)
    | none, .get _ => (.failed .notFound [], none)
    | held, .ping => (.done, held)
  suits s r := by
    cases s <;> cases r <;> first | trivial | exact fun h => by cases h

def cellConfig : TcpConfig := { endpoint := { host := "h", port := 1 } }

/-- A block of one byte. -/
def cellBlock : Block := ⟨{}, ⟨[7], by simp [UInt64.size]⟩⟩

def cellRequests : List Request := [.get ⟨1, 1, 1⟩, .put ⟨1, 1, 1⟩ cellBlock, .get ⟨1, 1, 1⟩]

/-- The responses: not found, done, and the block. -/
def cellResponses : List WireFrame :=
  [⟨headerFor .response .get .notFound 1 [0, 0, 0, 0], [0, 0, 0, 0]⟩, ⟨headerFor .response .put .ok 2 [], []⟩,
    ⟨headerFor .response .get .ok 3 (BlockCodec.serializeBlock cellBlock),
    BlockCodec.serializeBlock cellBlock⟩]

/-- They come in with the first bytes one by one. -/
def cellPeer : Peer where
  incoming := cellResponses.flatMap fun frame => preamble ++ headerFields frame.header [] ++ frame.payload
  reads := [.moved 0, .again, .moved 0]

def cellAsks : List (Request × CallEnv) := cellRequests.map fun r => (r, { dial := .connected cellPeer })

theorem cellResponses_frames : AreFrames {} cellResponses cellPeer.incoming := by
  refine ⟨_, _, ⟨rfl, _, rfl, rfl⟩, ⟨_, _, ⟨rfl, _, rfl, rfl⟩, ⟨_, _, ⟨rfl, _, rfl, rfl⟩, rfl, rfl⟩, rfl⟩, ?_⟩
  rfl

/-- A `Get` that finds nothing, a `Put`, and a `Get` that finds the block. -/
theorem rpc_delivers_cell :
    (rpcReplies cellConfig {} (cellAsks.map fun ask => (ask.1.call, ask.2))).1 =
      [.block (.error ⟨.notFound, ""⟩), .status (.ok ()), .block (.ok cellBlock)] := by
  have hample : Ample { dial := .connected cellPeer } := ⟨⟨rfl, rfl, rfl, rfl, rfl⟩, rfl, rfl, rfl, rfl⟩
  have hasks : ∀ ask ∈ cellAsks, Sendable cellConfig ask := by
    intro ask hask
    obtain ⟨r, hr, rfl⟩ := List.mem_map.mp hask
    refine ⟨?_, hample⟩
    simp only [cellRequests, List.mem_cons, List.not_mem_nil, or_false] at hr
    rcases hr with rfl | rfl | rfl <;> exact Nat.le_of_ble_eq_true rfl
  obtain ⟨answers, c', conn', hserve, hreplies, -⟩ :=
    rpc_delivers cellConfig [] cellAsks (opened cellPeer) cell none
    (some cellBlock) cellResponses cellPeer.incoming [] rfl hasks
    (fun ask hask => .dialled cellPeer rfl (by cases hask; rfl) (by cases hask; rfl))
    ⟨⟨rfl, by decide⟩, ⟨rfl, by decide⟩, (List.append_nil _).symm⟩ rfl cellResponses_frames
  obtain ⟨rfl, -⟩ := Prod.mk.inj hserve
  have hstart : reached cellConfig [] = {} := rfl
  rw [hstart] at hreplies
  rw [hreplies]
  rfl

end TcpConnector

end TidePool.Rpc
