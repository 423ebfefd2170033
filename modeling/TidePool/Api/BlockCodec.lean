import TidePool.Api.Types
import TidePool.Schemes.Endian

/-! The self-describing form of a block (`src/api/block_codec.cpp`): a little-endian header of 36 bytes
    and the payload.

        0  'T' 'P'   2  version   3  serde_id   4  num_tokens   8  num_layers   12  dtype_size
        14  kv_heads   16  created_unix_ns   24  model_fingerprint   28  payload_len   36  payload

    `payload_len` must match the rest of the blob exactly, so the format is a bijection between blocks
    and the blobs that are accepted. -/

namespace TidePool

open Schemes.Endian

namespace BlockCodec

def magic0 : UInt8 := 84
def magic1 : UInt8 := 80
def version : UInt8 := 1
def serdeRaw : UInt8 := 0
def headerSize : ℕ := 36

def putU16 (v : UInt16) : Bytes := putLe v
def putU32 (v : UInt32) : Bytes := putLe v
def putU64 (v : UInt64) : Bytes := putLe v

def getU16 (p : Bytes) (off : ℕ) : UInt16 := getLe p off
def getU32 (p : Bytes) (off : ℕ) : UInt32 := getLe p off
def getU64 (p : Bytes) (off : ℕ) : UInt64 := getLe p off

/-- The fields after the four marker bytes, and what follows the header. -/
def fields (m : BlockMetadata) (payloadLen : UInt64) (rest : Bytes) : Bytes :=
  putU32 m.numTokens ++ (putU32 m.numLayers ++ (putU16 m.dtypeSize ++ (putU16 m.kvHeads ++
    (putU64 m.createdUnixNs ++ (putU32 m.modelFingerprint ++ (putU64 payloadLen ++ rest))))))

/-- `SerializeBlock`. -/
def serializeBlock (block : Block) : Bytes :=
  [magic0, magic1, version, serdeRaw] ++
    fields block.metadata (UInt64.ofNat block.sizeBytes) block.data.val

/-- What `DeserializeHeader` hands out. -/
structure BlobHeader where
  metadata : BlockMetadata
  payloadLen : UInt64
  payloadOffset : ℕ
  deriving DecidableEq

theorem BlobHeader.payload_lt (h : BlobHeader) (blob : Bytes) :
    (slice h.payloadOffset h.payloadLen.toNat blob).length < UInt64.size :=
  lt_of_le_of_lt (List.length_take_le _ _) h.payloadLen.toNat_lt_size

/-- The bytes of the blob that a header says are the payload. -/
def BlobHeader.payload (h : BlobHeader) (blob : Bytes) : Payload :=
  ⟨slice h.payloadOffset h.payloadLen.toNat blob, h.payload_lt blob⟩

/-- The metadata fields at their offsets. -/
def readMetadata (p : Bytes) : BlockMetadata where
  numTokens := getU32 p 4
  numLayers := getU32 p 8
  dtypeSize := getU16 p 12
  kvHeads := getU16 p 14
  createdUnixNs := getU64 p 16
  modelFingerprint := getU32 p 24

/-- `DeserializeHeader`. -/
def deserializeHeader (blob : Bytes) : Result BlobHeader :=
  if blob.length < headerSize then
    .error (.invalidArgument "block_codec: blob shorter than header (36 bytes)")
  else if blob.getD 0 0 ≠ magic0 ∨ blob.getD 1 0 ≠ magic1 then
    .error (.invalidArgument "block_codec: bad magic (not a TP blob)")
  else if blob.getD 2 0 ≠ version then
    .error (.invalidArgument "block_codec: unsupported version")
  else if blob.getD 3 0 ≠ serdeRaw then
    .error (.notImplemented "block_codec: serde_id not supported (only raw=0)")
  else
    let payloadLen := getU64 blob 28
    let available := blob.length - headerSize
    if payloadLen.toNat ≠ available then
      .error (.invalidArgument "block_codec: payload_len does not exactly match blob length")
    else .ok ⟨readMetadata blob, payloadLen, headerSize⟩

theorem length_serializeBlock (b : Block) : (serializeBlock b).length = headerSize + b.sizeBytes := by
  simp only [serializeBlock, fields, putU16, putU32, putU64, headerSize, Block.sizeBytes, List.length_append,
    List.length_cons, List.length_nil, length_putLe, bytes_uint16, bytes_uint32, bytes_uint64]
  omega

section RoundTrip

variable {m : BlockMetadata} {n : UInt64} {rest marks : Bytes}

/-- Reading the fields that were written. -/
theorem readMetadata_fields (h : marks.length = 4) : readMetadata (marks ++ fields m n rest) = m := by
  simp [readMetadata, fields, getU16, getU32, getU64, putU16, putU32, putU64, getLe_skip, h]

theorem payloadLen_fields (h : marks.length = 4) : getU64 (marks ++ fields m n rest) 28 = n := by
  simp [fields, getU64, putU16, putU32, putU64, getLe_skip, h]

theorem drop_fields (h : marks.length = 4) : (marks ++ fields m n rest).drop headerSize = rest := by
  have hlen : (marks ++ fields m n []).length = headerSize := by
    simp [fields, putU16, putU32, putU64, headerSize, h]
  have happ : marks ++ fields m n rest = (marks ++ fields m n []) ++ rest := by simp [fields]
  rw [happ, ← hlen, List.drop_left]

end RoundTrip

/-- The payload stands right after the header. -/
theorem drop_serializeBlock (b : Block) : (serializeBlock b).drop headerSize = b.data.val :=
  drop_fields rfl

/-- The header that a block is written with. -/
def headerOf (b : Block) : BlobHeader := ⟨b.metadata, UInt64.ofNat b.sizeBytes, headerSize⟩

@[simp] theorem headerOf_metadata (b : Block) : (headerOf b).metadata = b.metadata := rfl

@[simp] theorem headerOf_payloadLen (b : Block) : (headerOf b).payloadLen.toNat = b.sizeBytes :=
  UInt64.toNat_ofNat_of_lt' b.sizeBytes_lt

@[simp] theorem payload_headerOf (b : Block) : (headerOf b).payload (serializeBlock b) = b.data := by
  have hbytes : slice headerSize (headerOf b).payloadLen.toNat (serializeBlock b) = b.data.val := by
    rw [headerOf_payloadLen, slice, drop_serializeBlock, Block.sizeBytes, List.take_length]
  exact Subtype.ext hbytes

/-- ROUND TRIP: what was serialized is accepted, and read back as it was. -/
theorem deserializeHeader_serializeBlock (b : Block) :
    deserializeHeader (serializeBlock b) = .ok (headerOf b) := by
  have hlen := length_serializeBlock b
  have hmeta : readMetadata (serializeBlock b) = b.metadata := readMetadata_fields rfl
  have hpay : getU64 (serializeBlock b) 28 = UInt64.ofNat b.sizeBytes := payloadLen_fields rfl
  have hpay' : (UInt64.ofNat b.sizeBytes).toNat = b.sizeBytes := UInt64.toNat_ofNat_of_lt' b.sizeBytes_lt
  have hm0 : (serializeBlock b).getD 0 0 = magic0 := rfl
  have hm1 : (serializeBlock b).getD 1 0 = magic1 := rfl
  have hver : (serializeBlock b).getD 2 0 = version := rfl
  have hserde : (serializeBlock b).getD 3 0 = serdeRaw := rfl
  have hshort : ¬ headerSize + b.sizeBytes < headerSize := by omega
  simp only [deserializeHeader, hlen, hshort, hm0, hm1, hver, hserde, hmeta, hpay, hpay', if_false, ne_eq,
    not_true, or_self, Nat.add_sub_cancel_left, headerOf]

/-- Writing the fields that were read, from the last one back. -/
theorem fields_readMetadata {s : Bytes} (h : headerSize ≤ s.length) :
    fields (readMetadata s) (getU64 s 28) (s.drop headerSize) = s.drop 4 := by
  simp only [headerSize] at h ⊢
  have h28 : putU64 (getU64 s 28) ++ s.drop 36 = s.drop 28 := putLe_getLe_append 28 h
  have h24 : putU32 (getU32 s 24) ++ s.drop 28 = s.drop 24 := putLe_getLe_append 24 (by simp; omega)
  have h16 : putU64 (getU64 s 16) ++ s.drop 24 = s.drop 16 := putLe_getLe_append 16 (by simp; omega)
  have h14 : putU16 (getU16 s 14) ++ s.drop 16 = s.drop 14 := putLe_getLe_append 14 (by simp; omega)
  have h12 : putU16 (getU16 s 12) ++ s.drop 14 = s.drop 12 := putLe_getLe_append 12 (by simp; omega)
  have h8 : putU32 (getU32 s 8) ++ s.drop 12 = s.drop 8 := putLe_getLe_append 8 (by simp; omega)
  have h4 : putU32 (getU32 s 4) ++ s.drop 8 = s.drop 4 := putLe_getLe_append 4 (by simp; omega)
  simp only [fields, readMetadata, h28, h24, h16, h14, h12, h8, h4]

/-- EXACT: only serialized blocks are accepted. -/
theorem eq_serializeBlock_of_deserializeHeader {s : Bytes} {h : BlobHeader}
    (hs : deserializeHeader s = .ok h) :
    ∃ b : Block, s = serializeBlock b ∧ h = headerOf b := by
  simp only [deserializeHeader] at hs
  split at hs
  · cases hs
  split at hs
  · cases hs
  split at hs
  · cases hs
  split at hs
  · cases hs
  split at hs
  · cases hs
  rename_i hlen hmagic hversion hserde hpay
  have hpay' : (s.drop headerSize).length = (getU64 s 28).toNat := by
    rw [List.length_drop, not_not.mp hpay]
  have hlt : (s.drop headerSize).length < UInt64.size := hpay' ▸ (getU64 s 28).toNat_lt_size
  have hsize : UInt64.ofNat (s.drop headerSize).length = getU64 s 28 := by
    rw [hpay', UInt64.ofNat_toNat]
  have hmarks : [magic0, magic1, version, serdeRaw] = s.take 4 := by
    simp only [ne_eq, not_or, not_not] at hmagic hversion hserde
    match s, hlen with
    | a :: b :: c :: d :: _, _ => rw [← hmagic.1, ← hmagic.2, ← hversion, ← hserde]; rfl
  refine ⟨⟨readMetadata s, s.drop headerSize, hlt⟩, ?_, ?_⟩
  · rw [serializeBlock, Block.sizeBytes, hsize, hmarks, fields_readMetadata (not_lt.mp hlen),
      List.take_append_drop]
  · rw [← Except.ok.inj hs, headerOf, Block.sizeBytes, hsize]

theorem serializeBlock_injective : Function.Injective serializeBlock := by
  intro a b h
  have ha := deserializeHeader_serializeBlock a
  rw [h, deserializeHeader_serializeBlock b] at ha
  have hmeta : b.metadata = a.metadata := congrArg BlobHeader.metadata (Except.ok.inj ha)
  have hdata : a.data.val = b.data.val := by rw [← drop_serializeBlock, h, drop_serializeBlock]
  exact Block.ext hmeta.symm (Subtype.ext hdata)

/-- Decoding gives exactly the block a blob was written from. -/
theorem eq_serializeBlock_iff (b : Block) (s : Bytes) :
    s = serializeBlock b ↔ ∃ h, deserializeHeader s = .ok h ∧ h.metadata = b.metadata ∧
    h.payload s = b.data := by
  constructor
  · rintro rfl
    exact ⟨headerOf b, deserializeHeader_serializeBlock b, rfl, payload_headerOf b⟩
  · rintro ⟨h, hs, hmeta, hdata⟩
    obtain ⟨b', rfl, rfl⟩ := eq_serializeBlock_of_deserializeHeader hs
    rw [payload_headerOf] at hdata
    rw [show b' = b from Block.ext hmeta hdata]

/-- EXACT FORMAT: a blob is the encoding of `b` iff it is accepted with the metadata of `b` and a range that
    holds the bytes of `b`; what is accepted encodes to itself and its range ends where the blob ends. -/
theorem blob_format_exact (b : Block) (s : Bytes) :
    (s = serializeBlock b ↔ ∃ h, deserializeHeader s = .ok h ∧ h.metadata = b.metadata ∧
    h.payloadOffset = 36 ∧
      h.payloadLen.toNat = b.sizeBytes ∧ slice h.payloadOffset h.payloadLen.toNat s = b.data.val) ∧
    ∀ h, deserializeHeader s = .ok h →
      serializeBlock ⟨h.metadata, h.payload s⟩ = s ∧ h.payloadOffset + h.payloadLen.toNat = s.length := by
  refine ⟨⟨?_, ?_⟩, ?_⟩
  · rintro rfl
    exact ⟨headerOf b, deserializeHeader_serializeBlock b, rfl, rfl, headerOf_payloadLen b,
      congrArg Subtype.val (payload_headerOf b)⟩
  · rintro ⟨h, hs, hmeta, -, -, hbytes⟩
    exact (eq_serializeBlock_iff b s).mpr ⟨h, hs, hmeta, Subtype.ext hbytes⟩
  · intro h hs
    obtain ⟨b', rfl, rfl⟩ := eq_serializeBlock_of_deserializeHeader hs
    rw [headerOf_metadata, payload_headerOf, headerOf_payloadLen, length_serializeBlock]
    exact ⟨rfl, rfl⟩

end BlockCodec

end TidePool
