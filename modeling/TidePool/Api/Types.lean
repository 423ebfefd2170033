import Mathlib.Data.UInt

/-! The vocabulary of the pool: statuses, block keys, blocks, buffers and locations
    (`include/tidepool/api`).

    Functions that return `Status` or `Result<T>` return `Result α`; `Status::Ok()` is `.ok ()`.
    `Halt` is what no status reports: `std::terminate`, a null tier pointer, or a loop that is still
    going when its fuel is used up. -/

namespace TidePool

/-- `enum class StatusCode`. -/
inductive StatusCode where
  | ok | notImplemented | notFound | invalidArgument | alreadyExists | ioError | networkError
  | unavailable | outOfCapacity | corruption | internal
  deriving DecidableEq, Repr

/-- `StatusCodeName`. -/
def StatusCode.name : StatusCode → String
  | .ok => "Ok"
  | .notImplemented => "NotImplemented"
  | .notFound => "NotFound"
  | .invalidArgument => "InvalidArgument"
  | .alreadyExists => "AlreadyExists"
  | .ioError => "IoError"
  | .networkError => "NetworkError"
  | .unavailable => "Unavailable"
  | .outOfCapacity => "OutOfCapacity"
  | .corruption => "Corruption"
  | .internal => "Internal"

structure Status where
  code : StatusCode
  message : String
  deriving DecidableEq, Repr

namespace Status

def notImplemented (msg : String) : Status := ⟨.notImplemented, msg⟩
def notFound (msg : String) : Status := ⟨.notFound, msg⟩
def invalidArgument (msg : String) : Status := ⟨.invalidArgument, msg⟩
def alreadyExists (msg : String) : Status := ⟨.alreadyExists, msg⟩
def unavailable (msg : String) : Status := ⟨.unavailable, msg⟩
def ioError (msg : String) : Status := ⟨.ioError, msg⟩
def networkError (msg : String) : Status := ⟨.networkError, msg⟩
def outOfCapacity (msg : String) : Status := ⟨.outOfCapacity, msg⟩
def corruption (msg : String) : Status := ⟨.corruption, msg⟩
def internal (msg : String) : Status := ⟨.internal, msg⟩

/-- `Status::ToString`. -/
def toText (s : Status) : String :=
  s.code.name ++ if s.message.isEmpty then "" else ": " ++ s.message

end Status

/-- `Status` and `Result<T>`: a value, or the status that says why there is none. -/
abbrev Result (α : Type) := Except Status α

/-- The status code a caller sees. -/
def Result.code {α : Type} : Result α → StatusCode
  | .ok _ => .ok
  | .error s => s.code

/-- The ends of a call that never returns. -/
inductive Halt where
  | terminate   -- `std::terminate`
  | nullTier    -- a call through a null `Tier*`
  | fuel        -- the loop did not end within its fuel
  deriving DecidableEq, Repr

/-- Byte strings: `std::string`, `std::vector<uint8_t>`. -/
abbrev Bytes := List UInt8

structure BlockKey where
  prefixHash : UInt64
  prefixLen : UInt32
  modelFingerprint : UInt32
  deriving DecidableEq, Repr

structure BlockMetadata where
  numTokens : UInt32 := 0
  numLayers : UInt32 := 0
  dtypeSize : UInt16 := 0
  kvHeads : UInt16 := 0
  createdUnixNs : UInt64 := 0
  modelFingerprint : UInt32 := 0
  deriving DecidableEq, Repr

/-- Bytes held in memory: their number is a `size_t`. -/
abbrev Payload := { bytes : Bytes // bytes.length < UInt64.size }

/-- An owning block. -/
@[ext] structure Block where
  metadata : BlockMetadata
  data : Payload
  deriving DecidableEq

/-- `Block::size_bytes`. -/
def Block.sizeBytes (b : Block) : ℕ := b.data.val.length

theorem Block.sizeBytes_lt (b : Block) : b.sizeBytes < UInt64.size := b.data.property

theorem Payload.nil_lt : ([] : Bytes).length < UInt64.size := by simp [UInt64.size]

/-- A caller-owned destination: whether `data` is a real pointer, and how much room it has. -/
structure MutableBuffer where
  data : Bool
  capacity : ℕ
  deriving DecidableEq, Repr

/-- A null pointer may only come with no room. -/
def MutableBuffer.Valid (dst : MutableBuffer) : Prop := dst.data = true ∨ dst.capacity = 0

instance (dst : MutableBuffer) : Decidable dst.Valid := inferInstanceAs (Decidable (_ ∨ _))

/-- What a read hands back: whether `data` is a real pointer, and the `size` bytes at it. -/
structure BlockView where
  data : Bool := false
  bytes : Payload := ⟨[], Payload.nil_lt⟩
  metadata : BlockMetadata := {}
  deriving DecidableEq

def BlockView.size (v : BlockView) : ℕ := v.bytes.val.length

/-- `enum class TierType`, hot to cold. -/
inductive TierType where
  | gpu | dram | ssd
  deriving DecidableEq, Repr

/-- `TierTypeName`. -/
def TierType.name : TierType → String
  | .gpu => "gpu"
  | .dram => "dram"
  | .ssd => "ssd"

structure Location where
  nodeId : String
  tier : TierType
  handle : UInt64
  deriving DecidableEq, Repr

end TidePool
