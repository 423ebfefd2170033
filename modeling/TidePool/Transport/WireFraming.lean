import TidePool.Protocol.PayloadLaws
import TidePool.Transport.TcpConnection

/-! Frames on a connection (`src/transport/tcp/wire_framing.cpp`).

    A frame goes out as its encoded header and then its payload, and comes in the same way. Arguments are
    checked before the first byte is written; after the first byte there is no way back, so a call that
    fails then leaves a connection that nobody can use:

        WriteWireFrame   refused   -> nothing moved, connection as before
                         failed    -> a part of the frame moved, connection broken
        ReadWireFrame    any error -> connection broken -/

namespace TidePool.Transport

open Wire

structure WireFrame where
  header : FrameHeader
  payload : Bytes
  deriving DecidableEq

namespace TcpConnection

/-- `ReadWireFrame`; `alloc` is the outcome of `payload.resize`. -/
def readWireFrame (conn : TcpConnection) (limits : CodecLimits) (alloc : Bool) :
    Result WireFrame × TcpConnection :=
  match conn.readExact headerBytes with
  | (.error s, conn) => (.error s, conn)
  | (.ok encodedHeader, conn) =>
    match decodeHeader encodedHeader limits with
    | .error s => (.error s, conn.shutdown)
    | .ok header =>
      match validateFrameSize header.payloadBytes.toNat limits with
      | .error s => (.error s, conn.shutdown)
      | .ok frameSize =>
        let payloadSize := frameSize - headerBytes
        if payloadSize = 0 then (.ok ⟨header, []⟩, conn)
        else if !alloc then
          (.error (.outOfCapacity "ReadWireFrame: payload allocation failed"), conn.shutdown)
        else
          match conn.readExact payloadSize with
          | (.error s, conn) => (.error s, conn)
          | (.ok payload, conn) => (.ok ⟨header, payload⟩, conn)

def writeWireFrame (conn : TcpConnection) (frame : WireFrame) (limits : CodecLimits) :
    Result Unit × TcpConnection :=
  if frame.header.payloadBytes.toNat ≠ frame.payload.length then
    (.error (.invalidArgument "WriteWireFrame: header payload_bytes does not match payload size"), conn)
  else
    match encodeHeader frame.header limits with
    | .error s => (.error s, conn)
    | .ok encodedHeader =>
      match conn.writeExact encodedHeader with
      | (.error s, conn) => (.error s, conn)
      | (.ok (), conn) => if frame.payload.isEmpty then (.ok (), conn) else conn.writeExact frame.payload

end TcpConnection

/-! ### One frame -/

/-- The bytes a frame has on the wire. -/
structure IsFrame (limits : CodecLimits) (frame : WireFrame) (bytes : Bytes) : Prop where
  size : frame.header.payloadBytes.toNat = frame.payload.length
  encoded : ∃ header, encodeHeader frame.header limits = .ok header ∧ bytes = header ++ frame.payload

/-- The bytes of frames one after the other. -/
def AreFrames (limits : CodecLimits) : List WireFrame → Bytes → Prop
  | [], bytes => bytes = []
  | frame :: frames, bytes => ∃ first rest, IsFrame limits frame first ∧ AreFrames limits frames rest ∧
      bytes = first ++ rest

theorem IsFrame.ne_nil {limits : CodecLimits} {frame : WireFrame} {bytes : Bytes}
    (h : IsFrame limits frame bytes) : bytes ≠ [] := by
  obtain ⟨header, hencode, rfl⟩ := h.encoded
  have hlen := length_encodeHeader hencode
  intro hnil
  rw [(List.append_eq_nil_iff.mp hnil).1] at hlen
  cases hlen

namespace TcpConnection

/-- READ: a whole frame was taken off the stream, or the connection is not usable any more. -/
theorem readWireFrame_spec (conn : TcpConnection) (limits : CodecLimits) (alloc : Bool) :
    ∃ r conn' q, conn.readWireFrame limits alloc = (r, conn') ∧ Reads conn conn' q ∧
      match r with
      | .ok frame => IsFrame limits frame q ∧ conn'.isOpen = conn.isOpen
      | .error _ => conn'.isOpen = false := by
  simp only [readWireFrame]
  obtain ⟨r₁, conn₁, q₁, h₁, hreads₁, hr₁⟩ := readExact_spec conn headerBytes
  rw [h₁]
  cases r₁ with
  | error s => exact ⟨_, conn₁, q₁, rfl, hreads₁, hr₁⟩
  | ok encodedHeader =>
    obtain ⟨rfl, hlen, hopen₁⟩ := hr₁
    simp only
    cases hdecode : decodeHeader encodedHeader limits with
    | error s => exact ⟨_, _, _, rfl, hreads₁.shutdown, isOpen_shutdown _⟩
    | ok header =>
      have hencode := encodeHeader_of_decodeHeader hdecode
      have hfits := (encodeHeader_eq_ok_iff.mp hencode).1.fits
      have hsize : validateFrameSize header.payloadBytes.toNat limits =
          .ok (headerBytes + header.payloadBytes.toNat) := validateFrameSizeImpl_of_fits false hfits
      simp only [hsize, Nat.add_sub_cancel_left]
      split_ifs with hzero halloc
      · refine ⟨_, conn₁, encodedHeader, rfl, hreads₁, ⟨hzero, encodedHeader, hencode, ?_⟩, hopen₁⟩
        rw [List.append_nil]
      · exact ⟨_, _, _, rfl, hreads₁.shutdown, isOpen_shutdown _⟩
      · obtain ⟨r₂, conn₂, q₂, h₂, hreads₂, hr₂⟩ := readExact_spec conn₁ header.payloadBytes.toNat
        rw [h₂]
        cases r₂ with
        | error s => exact ⟨_, conn₂, _, rfl, hreads₁.trans hreads₂, hr₂⟩
        | ok payload =>
          obtain ⟨rfl, hcount, hopen₂⟩ := hr₂
          exact ⟨_, conn₂, _, rfl, hreads₁.trans hreads₂, ⟨hcount.symm, encodedHeader, hencode, rfl⟩,
            hopen₂.trans hopen₁⟩

/-- WRITE: the whole frame was put on the stream; or it was refused and nothing moved; or a part of it
    moved and the connection is not usable any more. -/
theorem writeWireFrame_spec (conn : TcpConnection) (frame : WireFrame) (limits : CodecLimits) :
    ∃ r conn' p, conn.writeWireFrame frame limits = (r, conn') ∧ Writes conn conn' p ∧
      match r with
      | .ok () => IsFrame limits frame p ∧ conn'.isOpen = conn.isOpen
      | .error _ => (p = [] ∧ conn' = conn) ∨
          (conn'.isOpen = false ∧ ∃ whole, IsFrame limits frame whole ∧ p <+: whole) := by
  simp only [writeWireFrame]
  by_cases hsize : frame.header.payloadBytes.toNat = frame.payload.length
  case neg => exact ⟨_, conn, [], if_pos hsize, .refl conn, .inl ⟨rfl, rfl⟩⟩
  rw [if_neg (not_not.mpr hsize)]
  cases hencode : encodeHeader frame.header limits with
  | error s => exact ⟨_, conn, [], rfl, .refl conn, .inl ⟨rfl, rfl⟩⟩
  | ok encodedHeader =>
    have hframe : IsFrame limits frame (encodedHeader ++ frame.payload) :=
      ⟨hsize, encodedHeader, hencode, rfl⟩
    obtain ⟨r₁, conn₁, p₁, h₁, hwrites₁, hp₁, hr₁⟩ := writeExact_spec conn encodedHeader
    simp only [h₁]
    cases r₁ with
    | error s =>
      exact ⟨_, conn₁, p₁, rfl, hwrites₁, .inr ⟨hr₁, _, hframe, hp₁.trans (List.prefix_append _ _)⟩⟩
    | ok _ =>
      obtain ⟨rfl, hopen₁⟩ := hr₁
      simp only
      split_ifs with hempty
      · refine ⟨_, conn₁, p₁, rfl, hwrites₁, ?_, hopen₁⟩
        rwa [List.isEmpty_iff.mp hempty, List.append_nil] at hframe
      · obtain ⟨r₂, conn₂, p₂, h₂, hwrites₂, hp₂, hr₂⟩ := writeExact_spec conn₁ frame.payload
        rw [h₂]
        cases r₂ with
        | error s =>
          exact ⟨_, conn₂, _, rfl, hwrites₁.trans hwrites₂,
            .inr ⟨hr₂, _, hframe, (List.prefix_append_right_inj p₁).mpr hp₂⟩⟩
        | ok _ =>
          obtain ⟨rfl, hopen₂⟩ := hr₂
          exact ⟨_, conn₂, _, rfl, hwrites₁.trans hwrites₂, hframe, hopen₂.trans hopen₁⟩

/-! ### Any sequence of calls -/

/-- The calls made on one connection, with their arguments. -/
inductive FrameCall where
  | read (limits : CodecLimits) (alloc : Bool)
  | write (frame : WireFrame) (limits : CodecLimits)
  | shutdown

inductive FrameReply where
  | frame (r : Result WireFrame)
  | written (r : Result Unit)
  | none

def frameStep (conn : TcpConnection) : FrameCall → FrameReply × TcpConnection
  | .read limits alloc => ((conn.readWireFrame limits alloc).map .frame id)
  | .write frame limits => ((conn.writeWireFrame frame limits).map .written id)
  | .shutdown => (.none, conn.shutdown)

/-- The connection after a sequence of calls. -/
def frameRun (conn : TcpConnection) (calls : List FrameCall) : TcpConnection :=
  calls.foldl (fun conn call => (conn.frameStep call).2) conn

/-- What holds of a connection that nothing moves on any more. -/
structure Silent (conn conn' : TcpConnection) : Prop where
  isOpen : conn'.isOpen = false
  sent : conn'.sent = conn.sent
  received : conn'.received = conn.received

/-- A call on a connection that is not usable moves nothing. -/
theorem frameStep_silent {conn : TcpConnection} (hclosed : conn.isOpen = false) (call : FrameCall) :
    Silent conn (conn.frameStep call).2 := by
  cases call with
  | read limits alloc =>
    obtain ⟨r, conn', q, heq, hreads, -⟩ := readWireFrame_spec conn limits alloc
    have hq := hreads.closed hclosed
    simp only [frameStep, heq, Prod.map_apply, id_eq]
    exact ⟨hreads.stays hclosed, hreads.sent, by rw [hreads.received, hq, List.append_nil]⟩
  | write frame limits =>
    obtain ⟨r, conn', p, heq, hwrites, -⟩ := writeWireFrame_spec conn frame limits
    have hp := hwrites.closed hclosed
    simp only [frameStep, heq, Prod.map_apply, id_eq]
    exact ⟨hwrites.stays hclosed, by rw [hwrites.sent, hp, List.append_nil], hwrites.received⟩
  | shutdown => exact ⟨isOpen_shutdown conn, rfl, rfl⟩

/-- And so does every further call. -/
theorem frameRun_silent (calls : List FrameCall) {conn : TcpConnection} (hclosed : conn.isOpen = false) :
    Silent conn (conn.frameRun calls) := by
  induction calls generalizing conn with
  | nil => exact ⟨hclosed, rfl, rfl⟩
  | cons call rest ih =>
    have hone := frameStep_silent hclosed call
    have hmany := ih hone.isOpen
    exact ⟨hmany.isOpen, hmany.sent.trans hone.sent, hmany.received.trans hone.received⟩

/-- No frame comes out of a connection that is not usable. -/
theorem readWireFrame_closed {conn : TcpConnection} (hclosed : conn.isOpen = false) (limits : CodecLimits)
    (alloc : Bool) : ∃ s, (conn.readWireFrame limits alloc).1 = .error s := by
  obtain ⟨r, conn', q, heq, hreads, hr⟩ := readWireFrame_spec conn limits alloc
  rw [heq]
  cases r with
  | error s => exact ⟨s, rfl⟩
  | ok frame => exact absurd (hreads.closed hclosed) hr.1.ne_nil

/-- NO HALF FRAME: wherever a sequence of calls has led, a write that fails left everything as it was or
    a connection that is not usable, a read that fails left one that is not usable, and on such a
    connection no later call moves a byte or hands out a frame. -/
theorem no_half_frame (conn : TcpConnection) (calls : List FrameCall) :
    (∀ frame limits s conn', (conn.frameRun calls).writeWireFrame frame limits = (.error s, conn') →
      conn' = conn.frameRun calls ∨ conn'.isOpen = false) ∧
    (∀ limits alloc s conn', (conn.frameRun calls).readWireFrame limits alloc = (.error s, conn') →
      conn'.isOpen = false) ∧
    ((conn.frameRun calls).isOpen = false → ∀ later,
      ((conn.frameRun calls).frameRun later).isOpen = false ∧
      ((conn.frameRun calls).frameRun later).sent = (conn.frameRun calls).sent ∧
      ((conn.frameRun calls).frameRun later).received = (conn.frameRun calls).received ∧
      ∀ limits alloc, ∃ s, (((conn.frameRun calls).frameRun later).readWireFrame limits alloc).1 =
      .error s) := by
  refine ⟨fun frame limits s conn' h => ?_, fun limits alloc s conn' h => ?_, fun hclosed later => ?_⟩
  · obtain ⟨r, conn'', p, heq, -, hr⟩ := writeWireFrame_spec (conn.frameRun calls) frame limits
    obtain ⟨rfl, rfl⟩ := Prod.mk.inj (heq.symm.trans h)
    exact hr.imp And.right And.left
  · obtain ⟨r, conn'', q, heq, -, hr⟩ := readWireFrame_spec (conn.frameRun calls) limits alloc
    obtain ⟨rfl, rfl⟩ := Prod.mk.inj (heq.symm.trans h)
    exact hr
  · have hsilent := frameRun_silent later hclosed
    exact ⟨hsilent.isOpen, hsilent.sent, hsilent.received, readWireFrame_closed hsilent.isOpen⟩

/-! ### From one side to the other -/

/-- Write frames one after the other. -/
def writeFrames (limits : CodecLimits) : TcpConnection → List WireFrame → Result Unit × TcpConnection
  | conn, [] => (.ok (), conn)
  | conn, frame :: frames =>
    match conn.writeWireFrame frame limits with
    | (.error s, conn) => (.error s, conn)
    | (.ok (), conn) => writeFrames limits conn frames

/-- Read so many frames one after the other. -/
def readFrames (limits : CodecLimits) : ℕ → TcpConnection → Result (List WireFrame) × TcpConnection
  | 0, conn => (.ok [], conn)
  | n + 1, conn =>
    match conn.readWireFrame limits true with
    | (.error s, conn) => (.error s, conn)
    | (.ok frame, conn) =>
      match readFrames limits n conn with
      | (.error s, conn) => (.error s, conn)
      | (.ok frames, conn) => (.ok (frame :: frames), conn)

section Smooth

variable {limits : CodecLimits} {frame : WireFrame} {bytes : Bytes}

/-- Where no turn fails, a frame that has bytes is written. -/
theorem writeWireFrame_sends {conn : TcpConnection} (h : conn.Sends) (hframe : IsFrame limits frame bytes) :
    ∃ conn', conn.writeWireFrame frame limits = (.ok (), conn') ∧ conn'.Sends ∧ Writes conn conn' bytes := by
  obtain ⟨header, hencode, rfl⟩ := hframe.encoded
  obtain ⟨conn₁, h₁, hsends₁, hwrites₁⟩ := writeExact_smooth h header
  obtain ⟨conn₂, h₂, hsends₂, hwrites₂⟩ := writeExact_smooth hsends₁ frame.payload
  have hsize : ¬ frame.header.payloadBytes.toNat ≠ frame.payload.length := not_not.mpr hframe.size
  simp only [writeWireFrame, hsize, if_false, hencode, h₁]
  by_cases hempty : frame.payload.isEmpty = true
  · rw [if_pos hempty, List.isEmpty_iff.mp hempty, List.append_nil]
    exact ⟨conn₁, rfl, hsends₁, hwrites₁⟩
  · exact ⟨conn₂, by rw [if_neg hempty, h₂], hsends₂, hwrites₁.trans hwrites₂⟩

/-- Where no turn fails, a frame that comes next on the stream is read. -/
theorem readWireFrame_receives {conn : TcpConnection} (h : conn.Receives)
    (hframe : IsFrame limits frame bytes) {rest : Bytes} (hin : conn.peer.incoming = bytes ++ rest) :
    ∃ conn', conn.readWireFrame limits true = (.ok frame, conn') ∧ conn'.Receives ∧ Reads conn conn' bytes ∧
      conn'.peer.incoming = rest := by
  obtain ⟨header, hencode, rfl⟩ := hframe.encoded
  have hdecode := decodeHeader_of_encodeHeader hencode
  have hsize : validateFrameSize frame.header.payloadBytes.toNat limits =
      .ok (headerBytes + frame.payload.length) := by
    rw [hframe.size]
    exact validateFrameSizeImpl_of_fits false (hframe.size ▸ (encodeHeader_eq_ok_iff.mp hencode).1.fits)
  rw [List.append_assoc] at hin
  obtain ⟨conn₁, h₁, hreceives₁, hreads₁, hin₁⟩ := readExact_smooth h hin
  obtain ⟨conn₂, h₂, hreceives₂, hreads₂, hin₂⟩ := readExact_smooth hreceives₁ hin₁
  rw [length_encodeHeader hencode] at h₁
  simp only [readWireFrame, h₁, hdecode, hsize, Nat.add_sub_cancel_left, Bool.not_true, Bool.false_eq_true,
    if_false]
  by_cases hempty : frame.payload = []
  · rw [hempty] at hin₁
    refine ⟨conn₁, ?_, hreceives₁, by rwa [hempty, List.append_nil], hin₁⟩
    obtain ⟨fields, payload⟩ := frame
    obtain rfl : payload = [] := hempty
    rfl
  · have hzero : frame.payload.length ≠ 0 := by simpa using hempty
    exact ⟨conn₂, by simp only [hzero, if_false, h₂], hreceives₂, hreads₁.trans hreads₂, hin₂⟩

/-- A frame that some call wrote has bytes. -/
theorem exists_isFrame_of_written {conn conn' : TcpConnection}
    (h : conn.writeWireFrame frame limits = (.ok (), conn')) : ∃ bytes, IsFrame limits frame bytes := by
  obtain ⟨r, conn'', p, heq, -, hr⟩ := writeWireFrame_spec conn frame limits
  obtain ⟨rfl, rfl⟩ := Prod.mk.inj (heq.symm.trans h)
  exact ⟨p, hr.1⟩

theorem exists_areFrames {frames : List WireFrame}
    (h : ∀ frame ∈ frames, ∃ bytes, IsFrame limits frame bytes) :
    ∃ bytes, AreFrames limits frames bytes := by
  induction frames with
  | nil => exact ⟨[], rfl⟩
  | cons frame frames ih =>
    obtain ⟨⟨first, hfirst⟩, hothers⟩ := List.forall_mem_cons.mp h
    obtain ⟨rest, hrest⟩ := ih hothers
    exact ⟨first ++ rest, first, rest, hfirst, hrest, rfl⟩

theorem writeFrames_sends {frames : List WireFrame} {conn : TcpConnection} (h : conn.Sends)
    (hframes : AreFrames limits frames bytes) :
    ∃ conn', writeFrames limits conn frames = (.ok (), conn') ∧ Writes conn conn' bytes := by
  induction frames generalizing conn bytes with
  | nil =>
    obtain rfl : bytes = [] := hframes
    exact ⟨conn, rfl, .refl conn⟩
  | cons frame frames ih =>
    obtain ⟨first, rest, hfirst, hrest, rfl⟩ := hframes
    obtain ⟨conn₁, h₁, hsends, hwrites⟩ := writeWireFrame_sends h hfirst
    obtain ⟨conn₂, h₂, hwrites'⟩ := ih hsends hrest
    exact ⟨conn₂, by simp only [writeFrames, h₁, h₂], hwrites.trans hwrites'⟩

theorem readFrames_receives {frames : List WireFrame} {conn : TcpConnection} (h : conn.Receives)
    (hframes : AreFrames limits frames bytes) {left : Bytes} (hin : conn.peer.incoming = bytes ++ left) :
    ∃ conn', readFrames limits frames.length conn = (.ok frames, conn') ∧ Reads conn conn' bytes ∧
      conn'.peer.incoming = left := by
  induction frames generalizing conn bytes with
  | nil =>
    obtain rfl : bytes = [] := hframes
    exact ⟨conn, rfl, .refl conn, hin⟩
  | cons frame frames ih =>
    obtain ⟨first, rest, hfirst, hrest, rfl⟩ := hframes
    rw [List.append_assoc] at hin
    obtain ⟨conn₁, h₁, hreceives, hreads, hin₁⟩ := readWireFrame_receives h hfirst hin
    obtain ⟨conn₂, h₂, hreads', hin₂⟩ := ih hreceives hrest hin₁
    exact ⟨conn₂, by simp only [List.length_cons, readFrames, h₁, h₂], hreads.trans hreads', hin₂⟩

end Smooth

/-- LOSSLESS: frames that `WriteWireFrame` accepts, written in order, are read in order on the other side,
    and nothing else is consumed, however the sends and the receives are split. -/
theorem framing_lossless (limits : CodecLimits) (frames : List WireFrame) (tx rx : TcpConnection)
    (haccepted : ∀ frame ∈ frames, ∃ conn conn' : TcpConnection,
      conn.writeWireFrame frame limits = (.ok (), conn'))
    (htx : tx.Sends) (hrx : rx.Receives) :
    ∃ tx' written, writeFrames limits tx frames = (.ok (), tx') ∧ tx'.sent = tx.sent ++ written ∧
      ∀ rest, rx.peer.incoming = written ++ rest →
        ∃ rx', readFrames limits frames.length rx = (.ok frames, rx') ∧
          rx'.received = rx.received ++ written ∧ rx'.peer.incoming = rest := by
  have hbytes : ∀ frame ∈ frames, ∃ bytes, IsFrame limits frame bytes := fun frame hmem => by
    obtain ⟨conn, conn', h⟩ := haccepted frame hmem
    exact exists_isFrame_of_written h
  obtain ⟨written, hframes⟩ := exists_areFrames hbytes
  obtain ⟨tx', htx', hwrites⟩ := writeFrames_sends htx hframes
  refine ⟨tx', written, htx', hwrites.sent, fun rest hin => ?_⟩
  obtain ⟨rx', hrx', hreads, hleft⟩ := readFrames_receives hrx hframes hin
  exact ⟨rx', hrx', hreads.received, hleft⟩

/-- A `Ping` and a `Get` request. -/
def twoRequests : List WireFrame :=
  [⟨{ requestId := 1 }, []⟩,
    ⟨{ opcode := Opcode.get.raw, requestId := 2, payloadBytes := 16 }, encodeBlockKey ⟨7, 8, 9⟩⟩]

/-- A sender whose socket takes 5 bytes, is interrupted, and then takes more. -/
def slowSender : TcpConnection :=
  { socket := true, broken := false, peer := { writes := [.moved 4, .again, .moved 40] } }

/-- A receiver whose socket first gives single bytes. -/
def slowReceiver : TcpConnection :=
  { socket := true, broken := false,
    peer := {
      incoming := (writeFrames {} slowSender twoRequests).2.sent
      reads := [.again, .moved 0, .moved 0] } }

theorem framing_lossless_slow :
    ∃ rx', readFrames {} 2 slowReceiver = (.ok twoRequests, rx') ∧ rx'.peer.incoming = [] := by
  have haccepted : ∀ frame ∈ twoRequests, ∃ conn conn' : TcpConnection,
      conn.writeWireFrame frame {} = (.ok (), conn') := by
    refine List.forall_mem_cons.mpr ⟨⟨slowSender, _, rfl⟩,
      List.forall_mem_cons.mpr ⟨⟨slowSender, _, rfl⟩, ?_⟩⟩
    exact fun _ h => absurd h List.not_mem_nil
  obtain ⟨tx', written, htx, hsent, hread⟩ :=
    framing_lossless {} twoRequests slowSender slowReceiver haccepted ⟨rfl, by decide⟩ ⟨rfl, by decide⟩
  have hin : slowReceiver.peer.incoming = written ++ [] := by
    simp only [slowReceiver, htx, hsent, List.append_nil]
    rfl
  obtain ⟨rx', hrx', -, hleft⟩ := hread [] hin
  exact ⟨rx', hrx', hleft⟩

end TcpConnection

end TidePool.Transport
