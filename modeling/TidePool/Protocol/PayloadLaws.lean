import TidePool.Protocol.WireLaws

/-! Payloads of the wire protocol.

        Get   request  key                 success  blob
        Put   request  key ++ blob         success  nothing
        Ping  request  nothing             success  nothing
        any   failure  length ++ message

    For each shape one relation between values and bytes is read off the encoder and off the decoder; that
    the two agree under every limit is then immediate, and the frame validators ask for nothing more. -/

namespace TidePool.Wire

open Schemes.Endian

variable {limits : CodecLimits} {payload blob message : Bytes} {alloc networkInput : Bool} {key : BlockKey}

/-! ### Copies and keys -/

theorem copyBytes_eq_ok_iff {bytes copy : Bytes} :
    copyBytes bytes alloc = .ok copy ↔ copy = bytes ∧ (bytes = [] ∨ alloc = true) := by
  cases bytes <;> cases alloc <;> simp [copyBytes, eq_comm]

theorem copyString_eq_ok_iff {bytes copy : Bytes} :
    copyString bytes alloc = .ok copy ↔ copy = bytes ∧ (bytes = [] ∨ alloc = true) := by
  cases bytes <;> cases alloc <;> simp [copyString, eq_comm]

theorem length_encodeBlockKey (key : BlockKey) : (encodeBlockKey key).length = blockKeyBytes := by
  simp [encodeBlockKey, blockKeyBytes]

/-- A key is read back, also when it is all there is. -/
theorem decodeBlockKey_encodeBlockKey (key : BlockKey) : decodeBlockKey (encodeBlockKey key) = .ok key := by
  have hhash : getBe (encodeBlockKey key) 0 = key.prefixHash := getBe_head _ _
  have hlen : getBe (encodeBlockKey key) 8 = key.prefixLen := by simp [encodeBlockKey, getBe_skip]
  have hmodel : getBe (encodeBlockKey key) 12 = key.modelFingerprint := by
    rw [encodeBlockKey, getBe_skip (by simp), getBe_skip (by simp)]
    simpa using getBe_head key.modelFingerprint []
  simp only [decodeBlockKey, length_encodeBlockKey, lt_irrefl, if_false, hhash, hlen, hmodel]

/-- A key's bytes are the only ones read as it. -/
theorem encodeBlockKey_of_decodeBlockKey {bytes : Bytes} (h : decodeBlockKey bytes = .ok key) :
    encodeBlockKey key = bytes := by
  simp only [decodeBlockKey] at h
  split_ifs at h with hshort hlong
  obtain rfl := Except.ok.inj h
  simp only [blockKeyBytes] at hshort hlong
  have h16 : bytes.drop 16 = [] := List.drop_eq_nil_of_le (by omega)
  have h12 : putBe (getBe bytes 12 : UInt32) ++ bytes.drop 16 = bytes.drop 12 :=
    putBe_getBe_append 12 (by simp; omega)
  have h8 : putBe (getBe bytes 8 : UInt32) ++ bytes.drop 12 = bytes.drop 8 :=
    putBe_getBe_append 8 (by simp; omega)
  have h0 : putBe (getBe bytes 0 : UInt64) ++ bytes.drop 8 = bytes.drop 0 :=
    putBe_getBe_append 0 (by simp; omega)
  rw [h16, List.append_nil] at h12
  simp only [encodeBlockKey, h12, h8, h0, List.drop_zero]

theorem decodeBlockKey_eq_ok_iff {bytes : Bytes} :
    decodeBlockKey bytes = .ok key ↔ bytes = encodeBlockKey key :=
  ⟨fun h => (encodeBlockKey_of_decodeBlockKey h).symm, fun h => h ▸ decodeBlockKey_encodeBlockKey key⟩

/-! ### Payload shapes -/

/-- The payload of a `Put` request. -/
structure PutPayload (limits : CodecLimits) (key : BlockKey) (blob payload : Bytes) : Prop where
  nonempty : blob ≠ []
  fits : Fits limits payload.length
  bytes : payload = encodeBlockKey key ++ blob

/-- The payload of a successful `Get`. -/
structure GetPayload (limits : CodecLimits) (blob payload : Bytes) : Prop where
  nonempty : blob ≠ []
  fits : Fits limits payload.length
  bytes : payload = blob

/-- The payload of a failure. -/
structure ErrorPayload (limits : CodecLimits) (message payload : Bytes) : Prop where
  short : message.length ≤ limits.maxErrorMessageBytes.toNat
  fits : Fits limits payload.length
  bytes : payload = putBe (UInt32.ofNat message.length) ++ message

theorem PutPayload.length (h : PutPayload limits key blob payload) :
    payload.length = blockKeyBytes + blob.length := by
  rw [h.bytes, List.length_append, length_encodeBlockKey]

theorem ErrorPayload.length (h : ErrorPayload limits message payload) :
    payload.length = 4 + message.length := by
  rw [h.bytes]; simp

theorem Fits.lt_size {n : ℕ} (h : Fits limits n) : n < UInt64.size := by
  have hmax : limits.maxFrameBytes.toNat < UInt64.size := limits.maxFrameBytes.toNat_lt
  unfold Fits at h
  omega

theorem encodeGetSuccessPayload_eq_ok_iff :
    encodeGetSuccessPayload blob limits alloc = .ok payload ↔
      GetPayload limits blob payload ∧ alloc = true := by
  simp only [encodeGetSuccessPayload, validateFrameSize, List.isEmpty_iff]
  by_cases hempty : blob = []
  · rw [if_pos hempty]
    exact iff_of_false (by simp) fun ⟨h, _⟩ => h.nonempty hempty
  rw [if_neg hempty]
  by_cases hfits : Fits limits blob.length
  · simp only [validateFrameSizeImpl_of_fits false hfits, copyBytes_eq_ok_iff, hempty, false_or]
    constructor
    · rintro ⟨rfl, halloc⟩
      exact ⟨⟨hempty, hfits, rfl⟩, halloc⟩
    · rintro ⟨h, halloc⟩
      exact ⟨h.bytes, halloc⟩
  · obtain ⟨s, hs⟩ := validateFrameSizeImpl_of_not_fits false hfits
    simp only [hs]
    exact iff_of_false (by simp) fun ⟨h, _⟩ => hfits (h.bytes ▸ h.fits)

theorem decodeGetSuccessPayload_eq_ok_iff :
    decodeGetSuccessPayload payload limits alloc = .ok blob ↔
      GetPayload limits blob payload ∧ alloc = true := by
  simp only [decodeGetSuccessPayload, List.isEmpty_iff]
  by_cases hempty : payload = []
  · rw [if_pos hempty]
    exact iff_of_false (by simp) fun ⟨h, _⟩ => h.nonempty (h.bytes ▸ hempty)
  rw [if_neg hempty]
  by_cases hfits : Fits limits payload.length
  · simp only [validateFrameSizeImpl_of_fits true hfits, copyString_eq_ok_iff, hempty, false_or]
    constructor
    · rintro ⟨rfl, halloc⟩
      exact ⟨⟨hempty, hfits, rfl⟩, halloc⟩
    · rintro ⟨h, halloc⟩
      exact ⟨h.bytes.symm, halloc⟩
  · obtain ⟨s, hs⟩ := validateFrameSizeImpl_of_not_fits true hfits
    simp only [hs]
    exact iff_of_false (by simp) fun ⟨h, _⟩ => hfits h.fits

theorem encodePutRequest_eq_ok_iff :
    encodePutRequest key blob limits alloc = .ok payload ↔
      PutPayload limits key blob payload ∧ alloc = true := by
  simp only [encodePutRequest, validateFrameSize, List.isEmpty_iff]
  by_cases hempty : blob = []
  · rw [if_pos hempty]
    exact iff_of_false (by simp) fun ⟨h, _⟩ => h.nonempty hempty
  rw [if_neg hempty]
  by_cases hwrap : UInt64.size - 1 - blockKeyBytes < blob.length
  · rw [if_pos hwrap]
    refine iff_of_false (by simp) fun ⟨h, _⟩ => ?_
    have hlt := h.fits.lt_size
    rw [h.length] at hlt
    omega
  rw [if_neg hwrap]
  by_cases hfits : Fits limits (blockKeyBytes + blob.length)
  · have hlen : (encodeBlockKey key ++ blob).length = blockKeyBytes + blob.length := by
      rw [List.length_append, length_encodeBlockKey]
    simp only [validateFrameSizeImpl_of_fits false hfits]
    cases alloc with
    | false => exact iff_of_false (by simp) (by simp)
    | true =>
      simp only [if_true, Except.ok.injEq, and_true]
      constructor
      · rintro rfl
        exact ⟨hempty, hlen ▸ hfits, rfl⟩
      · exact fun h => h.bytes.symm
  · obtain ⟨s, hs⟩ := validateFrameSizeImpl_of_not_fits false hfits
    simp only [hs]
    exact iff_of_false (by simp) fun ⟨h, _⟩ => hfits (h.length ▸ h.fits)

theorem decodePutRequest_eq_ok_iff :
    decodePutRequest payload limits alloc = .ok (key, blob) ↔
      PutPayload limits key blob payload ∧ alloc = true := by
  simp only [decodePutRequest]
  by_cases hshort : payload.length ≤ blockKeyBytes
  · rw [if_pos hshort]
    refine iff_of_false (by simp) fun ⟨h, _⟩ => h.nonempty (List.length_eq_zero_iff.mp ?_)
    have hlen := h.length
    omega
  rw [if_neg hshort]
  by_cases hfits : Fits limits payload.length
  · simp only [validateFrameSizeImpl_of_fits true hfits]
    have hdrop : payload.drop blockKeyBytes ≠ [] := fun hnil => hshort (List.drop_eq_nil_iff.mp hnil)
    constructor
    · intro h
      cases hkey : decodeBlockKey (payload.take blockKeyBytes) with
      | error s => simp only [hkey, reduceCtorEq] at h
      | ok key' =>
        cases hblob : copyString (payload.drop blockKeyBytes) alloc with
        | error s => simp only [hkey, hblob, reduceCtorEq] at h
        | ok blob' =>
          simp only [hkey, hblob, Except.ok.injEq, Prod.mk.injEq] at h
          obtain ⟨rfl, rfl⟩ := h
          obtain ⟨rfl, hroom⟩ := copyString_eq_ok_iff.mp hblob
          refine ⟨⟨hdrop, hfits, ?_⟩, hroom.resolve_left hdrop⟩
          rw [encodeBlockKey_of_decodeBlockKey hkey, List.take_append_drop]
    · rintro ⟨h, rfl⟩
      have htake : payload.take blockKeyBytes = encodeBlockKey key := by
        rw [h.bytes, ← length_encodeBlockKey key, List.take_left]
      have hrest : payload.drop blockKeyBytes = blob := by
        rw [h.bytes, ← length_encodeBlockKey key, List.drop_left]
      have hcopy : copyString blob true = .ok blob := copyString_eq_ok_iff.mpr ⟨rfl, .inr rfl⟩
      simp only [htake, hrest, decodeBlockKey_encodeBlockKey, hcopy]
  · obtain ⟨s, hs⟩ := validateFrameSizeImpl_of_not_fits true hfits
    simp only [hs]
    exact iff_of_false (by simp) fun ⟨h, _⟩ => hfits h.fits

theorem encodeErrorPayload_eq_ok_iff :
    encodeErrorPayload message limits alloc = .ok payload ↔
      ErrorPayload limits message payload ∧ alloc = true := by
  have hmax : limits.maxErrorMessageBytes.toNat < UInt32.size := limits.maxErrorMessageBytes.toNat_lt
  simp only [encodeErrorPayload, validateFrameSize]
  by_cases hlong : limits.maxErrorMessageBytes.toNat < message.length
  · rw [if_pos hlong]
    exact iff_of_false (by simp) fun ⟨h, _⟩ => not_lt.mpr h.short hlong
  rw [if_neg hlong, if_neg (by omega)]
  by_cases hfits : Fits limits (4 + message.length)
  · simp only [validateFrameSizeImpl_of_fits false hfits]
    cases alloc with
    | false => exact iff_of_false (by simp) (by simp)
    | true =>
      simp only [if_true, Except.ok.injEq, and_true]
      constructor
      · rintro rfl
        exact ⟨not_lt.mp hlong, by simpa using hfits, rfl⟩
      · exact fun h => h.bytes.symm
  · obtain ⟨s, hs⟩ := validateFrameSizeImpl_of_not_fits false hfits
    simp only [hs]
    exact iff_of_false (by simp) fun ⟨h, _⟩ => hfits (h.length ▸ h.fits)

theorem decodeErrorPayload_eq_ok_iff :
    decodeErrorPayload payload limits alloc = .ok message ↔
      ErrorPayload limits message payload ∧ (message = [] ∨ alloc = true) := by
  have hmax : limits.maxErrorMessageBytes.toNat < UInt32.size := limits.maxErrorMessageBytes.toNat_lt
  simp only [decodeErrorPayload]
  by_cases hshort : payload.length < 4
  · rw [if_pos hshort]
    refine iff_of_false (by simp) fun ⟨h, _⟩ => ?_
    have hlen := h.length
    omega
  rw [if_neg hshort]
  by_cases hfits : Fits limits payload.length
  · simp only [validateFrameSizeImpl_of_fits true hfits]
    constructor
    · intro h
      split_ifs at h with hlarge hexact
      obtain ⟨rfl, hroom⟩ := copyString_eq_ok_iff.mp h
      have hcount : (getBe payload 0 : UInt32).toNat = (payload.drop 4).length := by
        rw [List.length_drop]; exact not_not.mp hexact
      refine ⟨⟨?_, hfits, ?_⟩, hroom⟩
      · rw [← hcount]
        exact UInt32.le_iff_toNat_le.mp (UInt32.not_lt.mp hlarge)
      · have hexact : putBe (getBe payload 0 : UInt32) ++ payload.drop 4 = payload.drop 0 :=
          putBe_getBe_append 0 (by simp; omega)
        rw [← hcount, UInt32.ofNat_toNat, hexact, List.drop_zero]
    · rintro ⟨h, hroom⟩
      have hlen := h.length
      have hcount : (UInt32.ofNat message.length).toNat = message.length :=
        UInt32.toNat_ofNat_of_lt' (by have := h.short; omega)
      have hhead : (getBe payload 0 : UInt32) = UInt32.ofNat message.length := by
        rw [h.bytes, getBe_head]
      have hrest : payload.drop 4 = message := by rw [h.bytes]; simp
      have hsmall : ¬ limits.maxErrorMessageBytes < UInt32.ofNat message.length := by
        rw [UInt32.lt_iff_toNat_lt, hcount]; exact not_lt.mpr h.short
      rw [hhead, if_neg hsmall, if_neg (by rw [hcount]; omega), hrest]
      exact copyString_eq_ok_iff.mpr ⟨rfl, hroom⟩
  · obtain ⟨s, hs⟩ := validateFrameSizeImpl_of_not_fits true hfits
    simp only [hs]
    exact iff_of_false (by simp) fun ⟨h, _⟩ => hfits h.fits

theorem decodePingRequest_eq_ok_iff : decodePingRequest payload = .ok () ↔ payload = [] := by
  cases payload <;> simp [decodePingRequest]

theorem decodeEmptySuccessPayload_eq_ok_iff : decodeEmptySuccessPayload payload = .ok () ↔ payload = [] := by
  cases payload <;> simp [decodeEmptySuccessPayload]

/-! ### Whole frames -/

section Frames

variable {header : FrameHeader}

theorem discard_eq_ok_iff {α : Type} {r : Result α} : discard r = .ok () ↔ ∃ a, r = .ok a := by
  cases r <;> simp [discard]

theorem opcode_cases (h : isKnownOpcode header.opcode = true) :
    header.opcode = Opcode.get.raw ∨ header.opcode = Opcode.put.raw ∨ header.opcode = Opcode.ping.raw := by
  simpa [isKnownOpcode, or_assoc] using h

/-- What `ValidateRequest` asks for: a valid request header that counts a payload its decoder takes. -/
structure RequestFrame (limits : CodecLimits) (alloc : Bool) (header : FrameHeader) (payload : Bytes) :
    Prop where
  valid : header.Valid limits
  kind : header.kind = MessageKind.request.raw
  id : header.requestId ≠ 0
  size : header.payloadBytes.toNat = payload.length
  get : header.opcode = Opcode.get.raw → ∃ key, decodeGetRequest payload = .ok key
  put : header.opcode = Opcode.put.raw → ∃ put, decodePutRequest payload limits alloc = .ok put
  ping : header.opcode = Opcode.ping.raw → decodePingRequest payload = .ok ()

/-- What `ValidateResponse` asks for. -/
structure ResponseFrame (limits : CodecLimits) (alloc : Bool) (header : FrameHeader) (payload : Bytes) :
    Prop where
  valid : header.Valid limits
  kind : header.kind = MessageKind.response.raw
  id : header.requestId ≠ 0
  size : header.payloadBytes.toNat = payload.length
  error : header.status ≠ WireStatus.ok.raw → ∃ message, decodeErrorPayload payload limits alloc = .ok message
  get : header.status = WireStatus.ok.raw → header.opcode = Opcode.get.raw →
    ∃ blob, decodeGetSuccessPayload payload limits alloc = .ok blob
  empty : header.status = WireStatus.ok.raw → header.opcode ≠ Opcode.get.raw →
    decodeEmptySuccessPayload payload = .ok ()

theorem validateRequest_eq_ok_iff :
    validateRequest header payload limits alloc = .ok () ↔ RequestFrame limits alloc header payload := by
  simp only [validateRequest]
  constructor
  · intro h
    cases hfields : validateHeaderFields header limits true with
    | error s => rw [hfields] at h; cases h
    | ok _ =>
      rw [hfields] at h
      have hvalid := validateHeaderFields_eq_ok_iff.mp hfields
      have hget : Opcode.get.raw ≠ Opcode.put.raw ∧ Opcode.get.raw ≠ Opcode.ping.raw ∧
        Opcode.put.raw ≠ Opcode.ping.raw := by decide
      simp only at h
      split_ifs at h with hkind hid hsize hop hop hop
      · exact ⟨hvalid, not_not.mp hkind, hid, not_not.mp hsize, fun _ => discard_eq_ok_iff.mp h,
          fun ho => absurd (hop ▸ ho) hget.1, fun ho => absurd (hop ▸ ho) hget.2.1⟩
      · exact ⟨hvalid, not_not.mp hkind, hid, not_not.mp hsize, fun ho => absurd (ho ▸ hop) hget.1,
          fun _ => discard_eq_ok_iff.mp h, fun ho => absurd (hop ▸ ho) hget.2.2⟩
      · exact ⟨hvalid, not_not.mp hkind, hid, not_not.mp hsize, fun ho => absurd (ho ▸ hop) hget.2.1,
          fun ho => absurd (ho ▸ hop) hget.2.2, fun _ => h⟩
  · intro h
    simp only [validateHeaderFields_eq_ok_iff.mpr h.valid, h.kind, h.id, h.size, ne_eq, not_true, if_false]
    split_ifs with hget hput hping
    · exact discard_eq_ok_iff.mpr (h.get hget)
    · exact discard_eq_ok_iff.mpr (h.put hput)
    · exact h.ping hping
    · rcases opcode_cases h.valid.opcode with ho | ho | ho <;> contradiction

theorem validateResponse_eq_ok_iff :
    validateResponse header payload limits alloc = .ok () ↔ ResponseFrame limits alloc header payload := by
  simp only [validateResponse]
  constructor
  · intro h
    cases hfields : validateHeaderFields header limits true with
    | error s => rw [hfields] at h; cases h
    | ok _ =>
      rw [hfields] at h
      have hvalid := validateHeaderFields_eq_ok_iff.mp hfields
      simp only at h
      split_ifs at h with hkind hid hsize hstatus hget hempty
      · exact ⟨hvalid, not_not.mp hkind, hid, not_not.mp hsize, fun _ => discard_eq_ok_iff.mp h,
          fun hok => absurd hok hstatus, fun hok => absurd hok hstatus⟩
      · exact ⟨hvalid, not_not.mp hkind, hid, not_not.mp hsize, fun hne => absurd hne hstatus,
          fun _ _ => discard_eq_ok_iff.mp h, fun _ hne => absurd hget hne⟩
      · exact ⟨hvalid, not_not.mp hkind, hid, not_not.mp hsize, fun hne => absurd hne hstatus,
          fun _ ho => absurd ho hget, fun _ _ => h⟩
  · intro h
    simp only [validateHeaderFields_eq_ok_iff.mpr h.valid, h.kind, h.id, h.size, ne_eq, not_true, if_false]
    split_ifs with hstatus hget hempty
    · exact discard_eq_ok_iff.mpr (h.get hstatus hget)
    · exact h.empty hstatus hget
    · rcases opcode_cases h.valid.opcode with ho | ho | ho
      · contradiction
      · exact absurd (.inl ho) hempty
      · exact absurd (.inr ho) hempty
    · exact discard_eq_ok_iff.mpr (h.error hstatus)

/-- The known statuses are the numbers of the enumeration. -/
theorem exists_raw_eq {status : UInt16} (h : isKnownWireStatus status = true) :
    ∃ w : WireStatus, w.raw = status := by
  have hle : status.toNat ≤ 10 := UInt16.le_iff_toNat_le.mp (of_decide_eq_true h)
  have hof : UInt16.ofNat status.toNat = status := UInt16.ofNat_toNat
  generalize status.toNat = n at hle hof
  subst hof
  match n, hle with
  | 0, _ => exact ⟨.ok, rfl⟩
  | 1, _ => exact ⟨.notImplemented, rfl⟩
  | 2, _ => exact ⟨.notFound, rfl⟩
  | 3, _ => exact ⟨.invalidArgument, rfl⟩
  | 4, _ => exact ⟨.alreadyExists, rfl⟩
  | 5, _ => exact ⟨.ioError, rfl⟩
  | 6, _ => exact ⟨.networkError, rfl⟩
  | 7, _ => exact ⟨.unavailable, rfl⟩
  | 8, _ => exact ⟨.outOfCapacity, rfl⟩
  | 9, _ => exact ⟨.corruption, rfl⟩
  | 10, _ => exact ⟨.internal, rfl⟩

/-- A known status other than `kOk` is the code of a failure. -/
theorem fromWireStatus_failure {status : UInt16} (hknown : isKnownWireStatus status = true)
    (hfail : status ≠ WireStatus.ok.raw) : ∃ code, fromWireStatus status = .ok code ∧ code ≠ .ok := by
  obtain ⟨w, rfl⟩ := exists_raw_eq hknown
  cases w <;> first | exact absurd rfl hfail | exact ⟨_, rfl, by decide⟩

/-! ### Refusals -/

/-- The result lacks memory only when an allocation failed. -/
def Honest {α : Type} (alloc : Bool) (r : Result α) : Prop :=
  ∀ s, r = .error s → s.code = .outOfCapacity → alloc = false

theorem Honest.ok {α : Type} (a : α) : Honest alloc (.ok a : Result α) := nofun

theorem Honest.corrupt {α : Type} (text : String) : Honest alloc (.error (corrupt text) : Result α) := by
  rintro _ ⟨⟩ hcode
  cases hcode

theorem Honest.invalid {α : Type} (text : String) : Honest alloc (.error (invalid text) : Result α) := by
  rintro _ ⟨⟩ hcode
  cases hcode

theorem Honest.inputError {α : Type} (text : String) :
    Honest alloc (.error (inputError networkInput text) : Result α) := by
  cases networkInput
  · exact .invalid text
  · exact .corrupt text

theorem Honest.copyString (bytes : Bytes) : Honest alloc (copyString bytes alloc) := by
  intro s hs _
  cases alloc with
  | false => rfl
  | true =>
    rw [copyString_eq_ok_iff.mpr ⟨rfl, .inr rfl⟩] at hs
    cases hs

theorem Honest.frameSize (n : ℕ) (limits : CodecLimits) :
    Honest alloc (validateFrameSizeImpl n limits networkInput) := by
  unfold validateFrameSizeImpl
  split_ifs
  · exact .invalid _
  · exact .inputError _
  · exact .inputError _
  · exact .ok _

/-- A refusal that is passed on. -/
theorem Honest.passed {α β : Type} {r : Result α} {s : Status} (h : Honest alloc r) (hr : r = .error s) :
    Honest alloc (.error s : Result β) := by
  rintro _ ⟨⟩ hcode
  exact h s hr hcode

theorem Honest.discard {α : Type} {r : Result α} (h : Honest alloc r) : Honest alloc (discard r) := by
  cases r with
  | ok a => exact .ok ()
  | error s => exact h.passed rfl

theorem Honest.payloadLength (header : FrameHeader) (limits : CodecLimits) :
    Honest alloc (validatePayloadLength header limits networkInput) := by
  simp only [validatePayloadLength, validateRequestLength, validateResponseLength]
  split_ifs
  all_goals first | exact .ok () | exact .inputError _

theorem Honest.headerFields (header : FrameHeader) (limits : CodecLimits) :
    Honest alloc (validateHeaderFields header limits networkInput) := by
  simp only [validateHeaderFields]
  split_ifs
  case neg =>
    cases hsize : validateFrameSizeImpl header.payloadBytes.toNat limits networkInput with
    | error s => exact (Honest.frameSize _ _).passed hsize
    | ok size => exact .payloadLength header limits
  all_goals exact .inputError _

theorem Honest.decodeErrorPayload (payload : Bytes) (limits : CodecLimits) :
    Honest alloc (decodeErrorPayload payload limits alloc) := by
  simp only [Wire.decodeErrorPayload]
  cases hsize : validateFrameSizeImpl payload.length limits true with
  | error s =>
    dsimp only
    split_ifs
    · exact .corrupt _
    · exact (Honest.frameSize _ _).passed hsize
  | ok size =>
    split_ifs
    · exact .corrupt _
    · exact .corrupt _
    · exact .corrupt _
    · exact .copyString _

theorem Honest.decodeGetSuccessPayload (payload : Bytes) (limits : CodecLimits) :
    Honest alloc (decodeGetSuccessPayload payload limits alloc) := by
  simp only [Wire.decodeGetSuccessPayload]
  split_ifs with hempty
  · exact .corrupt _
  cases hsize : validateFrameSizeImpl payload.length limits true with
  | error s => exact (Honest.frameSize _ _).passed hsize
  | ok size => exact .copyString _

theorem Honest.validateResponse (header : FrameHeader) (payload : Bytes) (limits : CodecLimits) :
    Honest alloc (validateResponse header payload limits alloc) := by
  simp only [Wire.validateResponse]
  cases hfields : validateHeaderFields header limits true with
  | error s => exact (Honest.headerFields _ _).passed hfields
  | ok _ =>
    simp only [decodeEmptySuccessPayload]
    split_ifs
    all_goals first
      | exact .corrupt _
      | exact .ok ()
      | exact (Honest.decodeErrorPayload _ _).discard
      | exact (Honest.decodeGetSuccessPayload _ _).discard

/-! ### Encoders, decoders and validators agree -/

/-- The header that goes with a payload. -/
def headerFor (kind : MessageKind) (opcode : Opcode) (status : WireStatus) (requestId : UInt64)
    (payload : Bytes) : FrameHeader where
  kind := kind.raw
  opcode := opcode.raw
  status := status.raw
  flags := 0
  requestId := requestId
  payloadBytes := UInt64.ofNat payload.length

variable {kind : MessageKind} {opcode : Opcode} {status : WireStatus} {id : UInt64}

/-- Beyond the size, only the length rule of its kind is left to check of such a header. -/
theorem headerFor_valid (hfits : Fits limits payload.length)
    (hreq : kind = .request → RequestLength (headerFor kind opcode status id payload))
    (hresp : kind = .response → ResponseLength limits (headerFor kind opcode status id payload)) :
    (headerFor kind opcode status id payload).Valid limits where
  kind := by cases kind <;> rfl
  opcode := by cases opcode <;> rfl
  status := by cases status <;> rfl
  flags := rfl
  fits := by
    rw [headerFor, UInt64.toNat_ofNat_of_lt' hfits.lt_size]
    exact hfits
  request h := by
    cases kind with
    | request => exact hreq rfl
    | response => simp [headerFor, MessageKind.raw] at h
  response h := by
    cases kind with
    | request => exact absurd rfl h
    | response => exact hresp rfl

theorem PutPayload.requestFrame (h : PutPayload limits key blob payload) (hid : id ≠ 0) :
    RequestFrame limits true (headerFor .request .put .ok id payload) payload := by
  have hsize : (UInt64.ofNat payload.length).toNat = payload.length :=
    UInt64.toNat_ofNat_of_lt' h.fits.lt_size
  have hlen : blockKeyBytes < payload.length := by
    have hpos := List.length_pos_of_ne_nil h.nonempty
    rw [h.length]; omega
  have hrule : RequestLength (headerFor .request .put .ok id payload) :=
    ⟨rfl, fun ho => absurd ho (by simp [headerFor, Opcode.raw]),
      fun _ => by simpa [headerFor, hsize] using hlen,
      fun ho => absurd ho (by simp [headerFor, Opcode.raw])⟩
  exact ⟨headerFor_valid h.fits (fun _ => hrule) nofun, rfl, hid, hsize,
    fun ho => absurd ho (by simp [headerFor, Opcode.raw]),
    fun _ => ⟨(key, blob), decodePutRequest_eq_ok_iff.mpr ⟨h, rfl⟩⟩,
    fun ho => absurd ho (by simp [headerFor, Opcode.raw])⟩

theorem GetPayload.responseFrame (h : GetPayload limits blob payload) (hid : id ≠ 0) :
    ResponseFrame limits true (headerFor .response .get .ok id payload) payload := by
  have hsize : (UInt64.ofNat payload.length).toNat = payload.length :=
    UInt64.toNat_ofNat_of_lt' h.fits.lt_size
  have hpos : 0 < payload.length := by
    rw [h.bytes]; exact List.length_pos_of_ne_nil h.nonempty
  have hrule : ResponseLength limits (headerFor .response .get .ok id payload) := by
    refine ⟨fun hne => absurd rfl hne, fun _ _ hzero => ?_,
      fun _ ho => absurd ho (by simp [headerFor, Opcode.raw]),
      fun _ ho => absurd ho (by simp [headerFor, Opcode.raw])⟩
    have hzero : UInt64.ofNat payload.length = 0 := hzero
    rw [hzero] at hsize
    simp at hsize
    omega
  exact ⟨headerFor_valid h.fits nofun (fun _ => hrule), rfl, hid, hsize, fun hne => absurd rfl hne,
    fun _ _ => ⟨blob, decodeGetSuccessPayload_eq_ok_iff.mpr ⟨h, rfl⟩⟩, fun _ hne => absurd rfl hne⟩

theorem ErrorPayload.responseFrame (h : ErrorPayload limits message payload) (opcode : Opcode)
    (hstatus : status ≠ .ok) (hid : id ≠ 0) :
    ResponseFrame limits true (headerFor .response opcode status id payload) payload := by
  have hsize : (UInt64.ofNat payload.length).toNat = payload.length :=
    UInt64.toNat_ofNat_of_lt' h.fits.lt_size
  have hraw : status.raw ≠ WireStatus.ok.raw := by
    cases status <;> first | exact absurd rfl hstatus | decide
  have hlen := h.length
  have hshort := h.short
  have hrule : ResponseLength limits (headerFor .response opcode status id payload) :=
    ⟨fun _ => by simp only [headerFor, hsize]; omega, fun hok => absurd hok hraw, fun hok => absurd hok hraw,
      fun hok => absurd hok hraw⟩
  exact ⟨headerFor_valid h.fits nofun (fun _ => hrule), rfl, hid, hsize,
    fun _ => ⟨message, decodeErrorPayload_eq_ok_iff.mpr ⟨h, .inr rfl⟩⟩, fun hok => absurd hok hraw,
    fun hok => absurd hok hraw⟩

/-- AGREEMENT: what an encoder makes under some limits is accepted with its header by the header encoder
    and the frame validator and decoded to the same values; what a frame validator accepts can be written,
    and re-encoding what its payload decodes to gives the payload back. -/
theorem payload_codecs_agree (limits : CodecLimits) :
    (∀ key blob payload id, encodePutRequest key blob limits true = .ok payload → id ≠ 0 →
      (∃ bytes, encodeHeader (headerFor .request .put .ok id payload) limits = .ok bytes) ∧
      validateRequest (headerFor .request .put .ok id payload) payload limits true = .ok () ∧
      decodePutRequest payload limits true = .ok (key, blob)) ∧
    (∀ blob payload id, encodeGetSuccessPayload blob limits true = .ok payload → id ≠ 0 →
      (∃ bytes, encodeHeader (headerFor .response .get .ok id payload) limits = .ok bytes) ∧
      validateResponse (headerFor .response .get .ok id payload) payload limits true = .ok () ∧
      decodeGetSuccessPayload payload limits true = .ok blob) ∧
    (∀ message payload opcode status id, encodeErrorPayload message limits true = .ok payload →
      status ≠ .ok → id ≠ 0 →
      (∃ bytes, encodeHeader (headerFor .response opcode status id payload) limits = .ok bytes) ∧
      validateResponse (headerFor .response opcode status id payload) payload limits true = .ok () ∧
      decodeErrorPayload payload limits true = .ok message) ∧
    (∀ header payload, validateRequest header payload limits true = .ok () →
      (∃ bytes, encodeHeader header limits = .ok bytes) ∧
      ((header.opcode = Opcode.get.raw ∧
          ∃ key, decodeGetRequest payload = .ok key ∧ encodeGetRequest key true = .ok payload) ∨
        (header.opcode = Opcode.put.raw ∧ ∃ key blob, decodePutRequest payload limits true = .ok (key, blob) ∧
          encodePutRequest key blob limits true = .ok payload) ∨
        (header.opcode = Opcode.ping.raw ∧
          decodePingRequest payload = .ok () ∧ encodePingRequest = .ok payload))) ∧
    ∀ header payload, validateResponse header payload limits true = .ok () →
      (∃ bytes, encodeHeader header limits = .ok bytes) ∧
      ((header.status ≠ WireStatus.ok.raw ∧ ∃ message, decodeErrorPayload payload limits true = .ok message ∧
          encodeErrorPayload message limits true = .ok payload) ∨
        (header.status = WireStatus.ok.raw ∧ header.opcode = Opcode.get.raw ∧
          ∃ blob, decodeGetSuccessPayload payload limits true = .ok blob ∧
            encodeGetSuccessPayload blob limits true = .ok payload) ∨
        (header.status = WireStatus.ok.raw ∧ header.opcode ≠ Opcode.get.raw ∧
          decodeEmptySuccessPayload payload = .ok () ∧ encodeEmptySuccessPayload = .ok payload)) := by
  refine ⟨fun key blob payload id h hid => ?_, fun blob payload id h hid => ?_,
    fun message payload opcode status id h hstatus hid => ?_, fun header payload h => ?_,
    fun header payload h => ?_⟩
  · have hput := (encodePutRequest_eq_ok_iff.mp h).1
    have hframe := hput.requestFrame hid
    exact ⟨⟨_, encodeHeader_valid hframe.valid⟩, validateRequest_eq_ok_iff.mpr hframe,
      decodePutRequest_eq_ok_iff.mpr ⟨hput, rfl⟩⟩
  · have hget := (encodeGetSuccessPayload_eq_ok_iff.mp h).1
    have hframe := hget.responseFrame hid
    exact ⟨⟨_, encodeHeader_valid hframe.valid⟩, validateResponse_eq_ok_iff.mpr hframe,
      decodeGetSuccessPayload_eq_ok_iff.mpr ⟨hget, rfl⟩⟩
  · have herror := (encodeErrorPayload_eq_ok_iff.mp h).1
    have hframe := herror.responseFrame opcode hstatus hid
    exact ⟨⟨_, encodeHeader_valid hframe.valid⟩, validateResponse_eq_ok_iff.mpr hframe,
      decodeErrorPayload_eq_ok_iff.mpr ⟨herror, .inr rfl⟩⟩
  · have hframe := validateRequest_eq_ok_iff.mp h
    refine ⟨⟨_, encodeHeader_valid hframe.valid⟩, ?_⟩
    rcases opcode_cases hframe.valid.opcode with ho | ho | ho
    · obtain ⟨key, hkey⟩ := hframe.get ho
      exact .inl ⟨ho, key, hkey, by rw [decodeBlockKey_eq_ok_iff.mp hkey]; rfl⟩
    · obtain ⟨⟨key, blob⟩, hput⟩ := hframe.put ho
      exact .inr (.inl ⟨ho, key, blob, hput,
        encodePutRequest_eq_ok_iff.mpr (decodePutRequest_eq_ok_iff.mp hput)⟩)
    · have hping := hframe.ping ho
      exact .inr (.inr ⟨ho, hping, by rw [decodePingRequest_eq_ok_iff.mp hping]; rfl⟩)
  · have hframe := validateResponse_eq_ok_iff.mp h
    refine ⟨⟨_, encodeHeader_valid hframe.valid⟩, ?_⟩
    by_cases hok : header.status = WireStatus.ok.raw
    · by_cases hget : header.opcode = Opcode.get.raw
      · obtain ⟨blob, hblob⟩ := hframe.get hok hget
        exact .inr (.inl ⟨hok, hget, blob, hblob,
          encodeGetSuccessPayload_eq_ok_iff.mpr (decodeGetSuccessPayload_eq_ok_iff.mp hblob)⟩)
      · have hempty := hframe.empty hok hget
        exact .inr (.inr ⟨hok, hget, hempty, by rw [decodeEmptySuccessPayload_eq_ok_iff.mp hempty]; rfl⟩)
    · obtain ⟨message, hmessage⟩ := hframe.error hok
      exact .inl ⟨hok, message, hmessage,
        encodeErrorPayload_eq_ok_iff.mpr ⟨(decodeErrorPayload_eq_ok_iff.mp hmessage).1, rfl⟩⟩

end Frames

end TidePool.Wire
