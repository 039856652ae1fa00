import UsrLinuxEmu.GpuDriver.GpuTypes

/-!
# Device memory behind the HAL (`hal/hal_user.cpp`)

`user_mem_read` and `user_mem_write` turn a device address into an offset into the malloc'ed heap
with 64-bit wrap-around arithmetic and check the end of the range only.

* `HalUserContext` — the heap, addressed by the 64-bit offset from its first byte, and the
  interrupt counter;
* `memRead` / `memWrite` — `none` stands for `-EINVAL`, a rejected call;
* `readU32` / `writeU32` — the semaphore accesses of the puller, which ignore the return code.
-/

namespace UsrLinuxEmu.GpuDriver

def halHeapBase : UInt64 := 0x100000000
def halHeapSize : UInt64 := 256 * 1024 * 1024

/-- The part of `hal_user_context` that the puller reaches through `gpu_hal_ops`. -/
structure HalUserContext where
  heap : UInt64 → UInt8
  interruptCount : UInt64

namespace HalUserContext

/-- `dev_addr - HAL_HEAP_BASE`. -/
def heapOff (devAddr : UInt64) : UInt64 := devAddr - halHeapBase

/-- The range check `heap_off + size > HAL_HEAP_SIZE`, in wrapping arithmetic. -/
def outOfRange (devAddr size : UInt64) : Bool := decide (heapOff devAddr + size > halHeapSize)

/-- `user_mem_read` into a non-null buffer: byte `k` of the buffer is the `k`-th result. -/
def memRead (ctx : HalUserContext) (devAddr size : UInt64) : Option (ℕ → UInt8) :=
  if outOfRange devAddr size then none
  else some fun k => ctx.heap (heapOff devAddr + UInt64.ofNat k)

/-- `user_mem_write` from a non-null buffer whose byte `k` is `buf k`. -/
def memWrite (ctx : HalUserContext) (devAddr size : UInt64) (buf : ℕ → UInt8) :
    Option HalUserContext :=
  if outOfRange devAddr size then none
  else some { ctx with
    heap := fun a => if a - heapOff devAddr < size then buf (a - heapOff devAddr).toNat
      else ctx.heap a }

/-- The reader lambda of the semaphore code: `u32 val = 0; mem_read(…); return val;`. -/
def readU32 (ctx : HalUserContext) (addr : UInt64) : UInt32 :=
  match ctx.memRead addr 4 with
  | some b => le32 b 0
  | none => 0

/-- The writer lambda of the semaphore code, which drops the return code. -/
def writeU32 (ctx : HalUserContext) (addr : UInt64) (value : UInt32) : HalUserContext :=
  (ctx.memWrite addr 4 (byteOf32 value)).getD ctx

/-- `user_interrupt_raise`: the handlers are outside the model. -/
def interruptRaise (ctx : HalUserContext) : HalUserContext :=
  { ctx with interruptCount := ctx.interruptCount + 1 }

theorem memRead_eq_none {ctx : HalUserContext} {devAddr size : UInt64}
    (h : outOfRange devAddr size = true) : ctx.memRead devAddr size = none := by
  rw [memRead, if_pos h]

end HalUserContext

end UsrLinuxEmu.GpuDriver
