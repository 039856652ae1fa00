import Mathlib.Data.Nat.Notation

/-!
# GPFIFO entries (`shared/gpu_types.h`)

The command format that user space, the ioctl driver and the simulated hardware share.

* `GpuGpfifoEntry` — the packed struct, one field per bit field or word;
* `GpuGpfifoEntry.ofBytes` — the struct as the puller sees it in device memory, little endian at
  the packed offsets, `sizeofGpfifoEntry` bytes long;
* the method opcodes `gpuOp…` and packet formats `format…`.
-/

namespace UsrLinuxEmu.GpuDriver

/-! ### Deciding bounded statements

A condition on the members of an option or a list is decided member by member; machine words being
finite, the alternative is to go through all of them. -/

instance (priority := 2000) decidableForallMemOption {α : Type*} (p : α → Prop) [DecidablePred p] :
    ∀ o : Option α, Decidable (∀ a ∈ o, p a)
  | none => .isTrue fun _ h => nomatch h
  | some a => decidable_of_iff (p a) (by simp)

instance (priority := 2000) decidableForallMemList {α : Type*} (p : α → Prop) [DecidablePred p]
    (l : List α) : Decidable (∀ a ∈ l, p a) := List.decidableBAll p l

/-! ### Error codes -/

def eNOENT : Int := 2
def eNOMEM : Int := 12
def eFAULT : Int := 14
def eBUSY : Int := 16
def eNODEV : Int := 19
def eINVAL : Int := 22

/-! ### Opcodes and formats -/

def gpuOpLaunchKernel : BitVec 12 := 0x100
def gpuOpLaunchCpuTask : BitVec 12 := 0x101
def gpuOpMemcpy : BitVec 12 := 0x102
def gpuOpMemset : BitVec 12 := 0x103
def gpuOpFence : BitVec 12 := 0x104
def gpuOpSemWait : BitVec 12 := 0x105
def gpuOpSemRelease : BitVec 12 := 0x106
def gpuOpBarrierAnd : BitVec 12 := 0x107
def gpuOpBarrierOr : BitVec 12 := 0x108
def gpuOpPdlLaunch : BitVec 12 := 0x10B

def formatUsrNative : UInt8 := 0
def formatAql : UInt8 := 1
def formatPm4 : UInt8 := 2

/-- Channel priorities of the global scheduler. -/
def gpuChanPriLow : Int := 1
def gpuChanPriNormal : Int := 2

def maxIbNest : ℕ := 4
def maxPdlNest : Int := 4

/-- GREEN contexts are preemptable by any pending BROWN one. -/
inductive ContextType where
  | brown
  | green
  deriving DecidableEq, Repr

/-! ### The entry -/

/-- One GPFIFO entry; the reserved and padding bits carry no data. -/
structure GpuGpfifoEntry where
  valid : Bool
  priv : Bool
  method : BitVec 12
  subchannel : BitVec 3
  format : UInt8
  payload : Vector UInt64 7
  semaphoreVa : UInt64
  semaphoreValue : UInt32
  tsQuery : UInt64
  release : Bool
  tlSemHandle : UInt64
  tlSignalValue : UInt64
  tlWaitValue : UInt64
  deriving DecidableEq, Repr

/-- The all-zero entry. -/
def GpuGpfifoEntry.zero : GpuGpfifoEntry where
  valid := false
  priv := false
  method := 0
  subchannel := 0
  format := formatUsrNative
  payload := Vector.replicate 7 0
  semaphoreVa := 0
  semaphoreValue := 0
  tsQuery := 0
  release := false
  tlSemHandle := 0
  tlSignalValue := 0
  tlWaitValue := 0

/-- `payload[i] = x`. -/
def GpuGpfifoEntry.setPayload (e : GpuGpfifoEntry) (i : Fin 7) (x : UInt64) : GpuGpfifoEntry :=
  { e with payload := e.payload.set i x }

/-- `sizeof(gpu_gpfifo_entry)`: the struct is packed. -/
def sizeofGpfifoEntry : ℕ := 109

/-! ### Little-endian words -/

def le32 (b : ℕ → UInt8) (off : ℕ) : UInt32 :=
  (b off).toUInt32 ||| (b (off + 1)).toUInt32 <<< 8 ||| (b (off + 2)).toUInt32 <<< 16 |||
    (b (off + 3)).toUInt32 <<< 24

def le64 (b : ℕ → UInt8) (off : ℕ) : UInt64 :=
  (le32 b off).toUInt64 ||| (le32 b (off + 4)).toUInt64 <<< 32

/-- Byte `k` of a 32-bit word in memory. -/
def byteOf32 (v : UInt32) (k : ℕ) : UInt8 := (v >>> UInt32.ofNat (8 * k)).toUInt8

/-- The entry whose bytes start at `b 0`. -/
def GpuGpfifoEntry.ofBytes (b : ℕ → UInt8) : GpuGpfifoEntry where
  valid := (le32 b 0).toBitVec.getLsbD 0
  priv := (le32 b 0).toBitVec.getLsbD 1
  method := (le32 b 0).toBitVec.extractLsb' 2 12
  subchannel := (le32 b 0).toBitVec.extractLsb' 14 3
  format := b 4
  payload := Vector.ofFn fun i => le64 b (5 + 8 * i.val)
  semaphoreVa := le64 b 61
  semaphoreValue := le32 b 69
  tsQuery := le64 b 73
  release := (le32 b 81).toBitVec.getLsbD 0
  tlSemHandle := le64 b 85
  tlSignalValue := le64 b 93
  tlWaitValue := le64 b 101

/-- The methods that DECODE hands to `processSemOp`. -/
def GpuGpfifoEntry.isSemOp (e : GpuGpfifoEntry) : Bool :=
  e.method == gpuOpSemWait || e.method == gpuOpBarrierAnd || e.method == gpuOpBarrierOr

/-- Zeroed memory holds zero entries. -/
example : GpuGpfifoEntry.ofBytes (fun _ => 0) = GpuGpfifoEntry.zero := by decide +kernel

end UsrLinuxEmu.GpuDriver
