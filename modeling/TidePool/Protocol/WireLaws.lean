import TidePool.Protocol.WireCodec

/-! What the codec accepts.

    Every check of a header is a comparison that does not depend on where the header came from: the flag
    `networkInput` only chooses the words of a refusal. So acceptance is one predicate, `Valid`, and the
    encoder and the decoder are two directions of one relation between headers and bytes. -/

namespace TidePool.Wire

open Schemes.Endian

/-! ### Acceptance -/

/-- A payload of this length keeps the frame within the limit. -/
def Fits (limits : CodecLimits) (payloadBytes : ℕ) : Prop :=
  headerBytes + payloadBytes ≤ limits.maxFrameBytes.toNat

/-- The payload length a request may declare. -/
structure RequestLength (header : FrameHeader) : Prop where
  status : header.status = WireStatus.ok.raw
  get : header.opcode = Opcode.get.raw → header.payloadBytes.toNat = blockKeyBytes
  put : header.opcode = Opcode.put.raw → blockKeyBytes < header.payloadBytes.toNat
  ping : header.opcode = Opcode.ping.raw → header.payloadBytes = 0

/-- The payload length a response may declare. -/
structure ResponseLength (limits : CodecLimits) (header : FrameHeader) : Prop where
  error : header.status ≠ WireStatus.ok.raw → 4 ≤ header.payloadBytes.toNat ∧
    header.payloadBytes.toNat ≤ 4 + limits.maxErrorMessageBytes.toNat
  get : header.status = WireStatus.ok.raw → header.opcode = Opcode.get.raw → header.payloadBytes ≠ 0
  put : header.status = WireStatus.ok.raw → header.opcode = Opcode.put.raw → header.payloadBytes = 0
  ping : header.status = WireStatus.ok.raw → header.opcode = Opcode.ping.raw → header.payloadBytes = 0

/-- A header that is accepted under the limits. -/
structure FrameHeader.Valid (limits : CodecLimits) (header : FrameHeader) : Prop where
  kind : isKnownKind header.kind = true
  opcode : isKnownOpcode header.opcode = true
  status : isKnownWireStatus header.status = true
  flags : header.flags = 0
  fits : Fits limits header.payloadBytes.toNat
  request : header.kind = MessageKind.request.raw → RequestLength header
  response : header.kind ≠ MessageKind.request.raw → ResponseLength limits header

section Acceptance

variable {header : FrameHeader} {limits : CodecLimits} {networkInput : Bool} {payloadBytes size : ℕ}

/-- The overflow check never fires after the limit check. -/
theorem validateFrameSizeImpl_eq_ok_iff :
    validateFrameSizeImpl payloadBytes limits networkInput = .ok size ↔
      Fits limits payloadBytes ∧ size = headerBytes + payloadBytes := by
  have hmax := limits.maxFrameBytes.toNat_lt
  unfold validateFrameSizeImpl Fits headerBytes UInt64.size
  by_cases hsmall : limits.maxFrameBytes.toNat < 32
  · rw [if_pos hsmall]
    exact iff_of_false (by simp) (by omega)
  rw [if_neg hsmall]
  by_cases hlarge : limits.maxFrameBytes.toNat - 32 < payloadBytes
  · rw [if_pos hlarge]
    exact iff_of_false (by simp) (by omega)
  rw [if_neg hlarge, if_neg (by omega), Except.ok.injEq]
  omega

theorem validateFrameSizeImpl_of_fits (networkInput : Bool) (h : Fits limits payloadBytes) :
    validateFrameSizeImpl payloadBytes limits networkInput = .ok (headerBytes + payloadBytes) :=
  validateFrameSizeImpl_eq_ok_iff.mpr ⟨h, rfl⟩

theorem validateFrameSizeImpl_of_not_fits (networkInput : Bool) (h : ¬ Fits limits payloadBytes) :
    ∃ s, validateFrameSizeImpl payloadBytes limits networkInput = .error s := by
  cases hsize : validateFrameSizeImpl payloadBytes limits networkInput with
  | error s => exact ⟨s, rfl⟩
  | ok size => exact absurd (validateFrameSizeImpl_eq_ok_iff.mp hsize).1 h

theorem validateRequestLength_eq_ok_iff :
    validateRequestLength header networkInput = .ok () ↔ RequestLength header := by
  simp only [validateRequestLength]
  constructor
  · intro h
    split_ifs at h with hstatus hget hput hping
    exact ⟨not_not.mp hstatus, fun ho => by_contra fun hn => hget ⟨ho, hn⟩,
      fun ho => by_contra fun hn => hput ⟨ho, not_lt.mp hn⟩, fun ho => by_contra fun hn => hping ⟨ho, hn⟩⟩
  · intro h
    rw [if_neg (not_not.mpr h.status), if_neg fun hn => hn.2 (h.get hn.1),
      if_neg fun hn => not_lt.mpr hn.2 (h.put hn.1), if_neg fun hn => hn.2 (h.ping hn.1)]

theorem validateResponseLength_eq_ok_iff :
    validateResponseLength header limits networkInput = .ok () ↔ ResponseLength limits header := by
  simp only [validateResponseLength]
  by_cases hok : header.status = WireStatus.ok.raw
  · rw [if_neg (not_not.mpr hok)]
    constructor
    · intro h
      split_ifs at h with hget hput hping
      exact ⟨fun hn => absurd hok hn, fun _ ho hn => hget ⟨ho, hn⟩,
        fun _ ho => by_contra fun hn => hput ⟨ho, hn⟩, fun _ ho => by_contra fun hn => hping ⟨ho, hn⟩⟩
    · intro h
      rw [if_neg fun hn => h.get hok hn.1 hn.2, if_neg fun hn => hn.2 (h.put hok hn.1),
        if_neg fun hn => hn.2 (h.ping hok hn.1)]
  · rw [if_pos hok]
    constructor
    · intro h
      split_ifs at h with hshort hlong
      exact ⟨fun _ => ⟨not_lt.mp hshort, not_lt.mp hlong⟩, fun he => absurd he hok,
        fun he => absurd he hok, fun he => absurd he hok⟩
    · intro h
      obtain ⟨hshort, hlong⟩ := h.error hok
      rw [if_neg (not_lt.mpr hshort), if_neg (not_lt.mpr hlong)]

theorem validatePayloadLength_eq_ok_iff :
    validatePayloadLength header limits networkInput = .ok () ↔
      (header.kind = MessageKind.request.raw → RequestLength header) ∧
      (header.kind ≠ MessageKind.request.raw → ResponseLength limits header) := by
  simp only [validatePayloadLength]
  split_ifs with hreq
  · simp [hreq, validateRequestLength_eq_ok_iff]
  · simp [hreq, validateResponseLength_eq_ok_iff]

/-- Both directions accept the same headers. -/
theorem validateHeaderFields_eq_ok_iff :
    validateHeaderFields header limits networkInput = .ok () ↔ header.Valid limits := by
  simp only [validateHeaderFields]
  constructor
  · intro h
    split_ifs at h with hkind hopcode hstatus hflags
    cases hsize : validateFrameSizeImpl header.payloadBytes.toNat limits networkInput with
    | error s => rw [hsize] at h; cases h
    | ok size =>
      rw [hsize] at h
      obtain ⟨hreq, hresp⟩ := validatePayloadLength_eq_ok_iff.mp h
      exact ⟨by simpa using hkind, by simpa using hopcode, by simpa using hstatus, not_not.mp hflags,
        (validateFrameSizeImpl_eq_ok_iff.mp hsize).1, hreq, hresp⟩
  · intro h
    have hsize := validateFrameSizeImpl_of_fits networkInput h.fits
    simp only [h.kind, h.opcode, h.status, h.flags, Bool.not_true, Bool.false_eq_true, if_false, ne_eq,
      not_true, hsize]
    exact validatePayloadLength_eq_ok_iff.mpr ⟨h.request, h.response⟩

end Acceptance

/-! ### Header bytes -/

section Header

variable {header : FrameHeader} {limits : CodecLimits} {bytes : Bytes}

theorem length_preamble : preamble.length = 8 := rfl

theorem length_headerFields (header : FrameHeader) :
    (preamble ++ headerFields header []).length = headerBytes := by
  simp [headerFields, length_preamble, headerBytes]

/-- Reading the fields that were written. -/
theorem readHeader_append {marks : Bytes} (h : marks.length = 8) (header : FrameHeader) (rest : Bytes) :
    readHeader (marks ++ headerFields header rest) = header := by
  simp [readHeader, headerFields, getBe_skip, h]

/-- Writing the fields that were read, from the last one back. -/
theorem headerFields_readHeader (h : bytes.length = headerBytes) :
    headerFields (readHeader bytes) [] = bytes.drop 8 := by
  simp only [headerBytes] at h
  have h32 : bytes.drop 32 = [] := List.drop_eq_nil_of_le (by omega)
  have h24 : putBe (getBe bytes 24 : UInt64) ++ bytes.drop 32 = bytes.drop 24 :=
    putBe_getBe_append 24 (by simp; omega)
  have h16 : putBe (getBe bytes 16 : UInt64) ++ bytes.drop 24 = bytes.drop 16 :=
    putBe_getBe_append 16 (by simp; omega)
  have h12 : putBe (getBe bytes 12 : UInt32) ++ bytes.drop 16 = bytes.drop 12 :=
    putBe_getBe_append 12 (by simp; omega)
  have h10 : putBe (getBe bytes 10 : UInt16) ++ bytes.drop 12 = bytes.drop 10 :=
    putBe_getBe_append 10 (by simp; omega)
  have h9 : putBe (getBe bytes 9 : UInt8) ++ bytes.drop 10 = bytes.drop 9 :=
    putBe_getBe_append 9 (by simp; omega)
  have h8 : putBe (getBe bytes 8 : UInt8) ++ bytes.drop 9 = bytes.drop 8 :=
    putBe_getBe_append 8 (by simp; omega)
  rw [h32] at h24
  simp only [headerFields, readHeader, h24, h16, h12, h10, h9, h8]

/-- The first eight bytes, when they are the right ones. -/
theorem preamble_append (h : bytes.length = headerBytes) (hmagic : getBe bytes 0 = magic)
    (hversion : getBe bytes 4 = version) (hsize : getBe bytes 6 = UInt16.ofNat headerBytes) :
    preamble ++ bytes.drop 8 = bytes := by
  simp only [headerBytes] at h
  have h6 : putBe (getBe bytes 6 : UInt16) ++ bytes.drop 8 = bytes.drop 6 :=
    putBe_getBe_append 6 (by simp; omega)
  have h4 : putBe (getBe bytes 4 : UInt16) ++ bytes.drop 6 = bytes.drop 4 :=
    putBe_getBe_append 4 (by simp; omega)
  have h0 : putBe (getBe bytes 0 : UInt32) ++ bytes.drop 4 = bytes.drop 0 :=
    putBe_getBe_append 0 (by simp; omega)
  rw [hsize] at h6
  rw [hversion] at h4
  rw [hmagic] at h0
  simp only [preamble, List.append_assoc, h6, h4, h0, List.drop_zero]

/-- The encoder writes the fields of a valid header. -/
theorem encodeHeader_eq_ok_iff :
    encodeHeader header limits = .ok bytes ↔
      header.Valid limits ∧ bytes = preamble ++ headerFields header [] := by
  simp only [encodeHeader]
  cases hvalid : validateHeaderFields header limits false with
  | error s =>
    have hnot : ¬ header.Valid limits := fun h => by
      rw [validateHeaderFields_eq_ok_iff.mpr h] at hvalid; cases hvalid
    simp [hnot]
  | ok _ => simp [validateHeaderFields_eq_ok_iff.mp hvalid, eq_comm]

theorem encodeHeader_valid (h : header.Valid limits) :
    encodeHeader header limits = .ok (preamble ++ headerFields header []) :=
  encodeHeader_eq_ok_iff.mpr ⟨h, rfl⟩

theorem length_encodeHeader (h : encodeHeader header limits = .ok bytes) : bytes.length = headerBytes := by
  rw [(encodeHeader_eq_ok_iff.mp h).2, length_headerFields]

/-- READ BACK: a header that was encoded is decoded as it was. -/
theorem decodeHeader_of_encodeHeader (h : encodeHeader header limits = .ok bytes) :
    decodeHeader bytes limits = .ok header := by
  have hlen := length_encodeHeader h
  obtain ⟨hvalid, rfl⟩ := encodeHeader_eq_ok_iff.mp h
  have hlimit : headerBytes ≤ limits.maxFrameBytes.toNat := (Nat.le_add_right _ _).trans hvalid.fits
  have hmagic : getBe (preamble ++ headerFields header []) 0 = magic := getBe_head _ _
  have hversion : getBe (preamble ++ headerFields header []) 4 = version := by
    simp [preamble, getBe_skip]
  have hsize : getBe (preamble ++ headerFields header []) 6 = UInt16.ofNat headerBytes := by
    simp [preamble, getBe_skip]
  have hfields : validateHeaderFields header limits true = .ok () :=
    validateHeaderFields_eq_ok_iff.mpr hvalid
  simp only [decodeHeader, hlen, lt_irrefl, if_false, not_lt.mpr hlimit, hmagic, hversion, hsize,
    ne_eq, not_true, readHeader_append length_preamble, hfields]

/-- EXACT: a header that was decoded is encoded to the bytes it came from. -/
theorem encodeHeader_of_decodeHeader (h : decodeHeader bytes limits = .ok header) :
    encodeHeader header limits = .ok bytes := by
  simp only [decodeHeader] at h
  split_ifs at h with hshort hlong hlimit hmagic hversion hsize
  have hlen : bytes.length = headerBytes := by omega
  cases hvalid : validateHeaderFields (readHeader bytes) limits true with
  | error s => rw [hvalid] at h; cases h
  | ok _ =>
    rw [hvalid] at h
    obtain rfl := Except.ok.inj h
    refine encodeHeader_eq_ok_iff.mpr ⟨validateHeaderFields_eq_ok_iff.mp hvalid, ?_⟩
    rw [headerFields_readHeader hlen,
      preamble_append hlen (not_not.mp hmagic) (not_not.mp hversion) (not_not.mp hsize)]

/-- BIJECTION: under any limits, encoding and decoding a header are inverse to each other. Both accept the
    same headers, different headers are different bytes, and only the encoder's output is decoded. -/
theorem header_codec_exact (limits : CodecLimits) :
    (∀ header bytes, encodeHeader header limits = .ok bytes ↔ decodeHeader bytes limits = .ok header) ∧
    (∀ header, (∃ bytes, encodeHeader header limits = .ok bytes) ↔
      ∃ bytes, decodeHeader bytes limits = .ok header) ∧
    (∀ header header' bytes, encodeHeader header limits = .ok bytes →
      encodeHeader header' limits = .ok bytes → header = header') ∧
    ∀ bytes header, decodeHeader bytes limits = .ok header →
      bytes.length = headerBytes ∧ ∃ header', encodeHeader header' limits = .ok bytes := by
  have hboth : ∀ header bytes,
      encodeHeader header limits = .ok bytes ↔ decodeHeader bytes limits = .ok header :=
    fun _ _ => ⟨decodeHeader_of_encodeHeader, encodeHeader_of_decodeHeader⟩
  refine ⟨hboth, fun header => exists_congr (hboth header), fun header header' bytes h h' => ?_,
    fun bytes header h => ?_⟩
  · have heq := (decodeHeader_of_encodeHeader h).symm.trans (decodeHeader_of_encodeHeader h')
    exact Except.ok.inj heq
  · have henc := encodeHeader_of_decodeHeader h
    exact ⟨length_encodeHeader henc, header, henc⟩

end Header

end TidePool.Wire
