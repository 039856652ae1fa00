import UsrLinuxEmu.GpuCore.BuddySizes
import UsrLinuxEmu.GpuCore.BuddySoundness
import UsrLinuxEmu.GpuDriver.GpuTypes

/-!
# Memory pools (`sim/mem_pool.cpp`, `sim/sim_device_va_allocator.cpp`)

A pool takes a range of device addresses from a buddy allocator, and serves its allocations from a
buddy allocator of its own over that range.  Allocations and frees are answered with a fence id.

* `create`, `destroy`, `allocAsync`, `freeAsync` — the calls;
* `LivesDisjoint` — the live allocations of all pools are disjoint;
* `PoolStepSound` — an allocation lies in the range of its pool, and a live one can be freed once
  and allocated again;
* `ResourcesLeft` — the call finds list nodes, fence ids and pool handles that it can use;
* `InsideRange` — the part of a free block that serves the request ends inside the pool's range.
-/

namespace UsrLinuxEmu.GpuDriver

open UsrLinuxEmu.GpuCore UsrLinuxEmu.Transition

/-! ### The tables -/

def simPoolErrInvalidHandle : Int := -1
def simPoolErrNoSpc : Int := -2
def simPoolErrInval : Int := -3

def simDeviceVaBase : UInt64 := 0x560000000000
def simDeviceVaSize : UInt64 := 0x400000000

def simFenceIdBase : UInt64 := 0x100000000

def alignUp4k (x : UInt64) : UInt64 := (x + 0xFFF) &&& 0xFFFFFFFFFFFFF000

structure PoolInternalEntry where
  va : UInt64
  size : UInt64
  deriving DecidableEq

/-- `vaBase` and `vaLimit` are the fields of `props` that the calls below read. -/
structure PoolTableEntry where
  vaBase : UInt64
  vaLimit : UInt64
  allocated : UInt64 → Option PoolInternalEntry
  poolBuddy : GpuBuddy

/-- `pool_table_` is the list of its entries in ascending order of the handles; `deviceBuddy` is
`none` until the first allocation of a range. -/
structure MemPools where
  deviceBuddy : Option GpuBuddy
  poolTable : List (UInt64 × PoolTableEntry)
  nextPoolHandle : UInt64
  nextSimFenceId : UInt64

/-- `mapped` is whether `mmap` succeeds at the range of the new pool. -/
inductive PoolOp where
  | create (size : UInt64) (mapped : Bool)
  | allocAsync (handle size : UInt64)
  | freeAsync (va : UInt64)
  | destroy (handle : UInt64)
  deriving DecidableEq

/-- The device addresses before any of them is taken. -/
def deviceBuddyInit : GpuBuddy := (GpuBuddy.gpuBuddyInit simDeviceVaBase simDeviceVaSize).get rfl

namespace PoolTableEntry

/-- The pool that `try_emplace` makes. -/
def empty : PoolTableEntry := ⟨0, 0, fun _ => none, GpuBuddy.fresh 0 0⟩

def inRange (p : PoolTableEntry) (va : UInt64) : Bool := !(va < p.vaBase || p.vaLimit ≤ va)

/-- The pool after a call of its allocator, and a write or an erasure in `allocated`. -/
def update (p : PoolTableEntry) (b : GpuBuddy) (va : UInt64) (e : Option PoolInternalEntry) :
    PoolTableEntry :=
  { p with poolBuddy := b, allocated := Function.update p.allocated va e }

end PoolTableEntry

namespace MemPools

def init : MemPools := ⟨none, [], 1, simFenceIdBase⟩

def device (s : MemPools) : GpuBuddy := s.deviceBuddy.getD deviceBuddyInit

def setDevice (s : MemPools) (b : GpuBuddy) : MemPools := { s with deviceBuddy := some b }

def findPool (s : MemPools) (handle : UInt64) : Option PoolTableEntry :=
  (s.poolTable.find? fun q => q.1 = handle).map Prod.snd

def setPool (s : MemPools) (handle : UInt64) (p : PoolTableEntry) : MemPools :=
  { s with poolTable := s.poolTable.map fun q => if q.1 = handle then (handle, p) else q }

/-- The entry of a new key, or a new entry of an old one, in its place. -/
def emplacePool (s : MemPools) (handle : UInt64) (p : PoolTableEntry) : MemPools :=
  { s with
    poolTable := s.poolTable.filter (fun q => decide (q.1 < handle)) ++
      (handle, p) :: s.poolTable.filter fun q => decide (handle < q.1) }

def erasePool (s : MemPools) (handle : UInt64) : MemPools :=
  { s with poolTable := s.poolTable.filter fun q => decide (q.1 ≠ handle) }

/-! ### The device ranges -/

def simDeviceVaAlloc (s : MemPools) (size : UInt64) : Option UInt64 × MemPools :=
  if size = 0 then (none, s)
  else if simDeviceVaSize < size then (none, s)
  else
    let r := s.device.gpuBuddyAlloc size
    (r.1, s.setDevice r.2)

def simDeviceVaFree (s : MemPools) (base : UInt64) : MemPools :=
  match s.deviceBuddy with
  | none => s
  | some b => s.setDevice (b.gpuBuddyFree base).2

/-! ### The calls -/

/-- `sim_fence_id_alloc`, with the sign of the cast. -/
def simFenceIdAlloc (s : MemPools) : Int × MemPools :=
  (s.nextSimFenceId.toInt64.toInt, { s with nextSimFenceId := s.nextSimFenceId + 1 })

/-- The new pool, or `try_emplace`'s old one with its range and allocator replaced; sizes that the
device hands out have an order. -/
def newPool (s : MemPools) (handle vaBase size aligned : UInt64) : PoolTableEntry :=
  { (s.findPool handle).getD .empty with
    vaBase := vaBase
    vaLimit := vaBase + size
    poolBuddy := (GpuBuddy.gpuBuddyInit vaBase aligned).getD (.fresh vaBase gpuBuddyMaxOrder) }

def create (s : MemPools) (size : UInt64) (mapped : Bool) : Except Int UInt64 × MemPools :=
  if size = 0 then (.error simPoolErrInval, s)
  else
    match s.simDeviceVaAlloc (alignUp4k size) with
    | (none, s) => (.error simPoolErrNoSpc, s)
    | (some vaBase, s) =>
      if !mapped then (.error simPoolErrNoSpc, s.simDeviceVaFree vaBase)
      else
        let h := s.nextPoolHandle
        let s := { s with nextPoolHandle := h + 1 }
        (.ok h, s.emplacePool h (s.newPool h vaBase size (alignUp4k size)))

def destroy (s : MemPools) (handle : UInt64) : Int × MemPools :=
  match s.findPool handle with
  | none => (simPoolErrInvalidHandle, s)
  | some p => (0, (s.simDeviceVaFree p.vaBase).erasePool handle)

/-- `sim_mem_pool_alloc`. -/
def alloc (s : MemPools) (handle size : UInt64) : Except Int UInt64 × MemPools :=
  match s.findPool handle with
  | none => (.error simPoolErrInvalidHandle, s)
  | some p =>
    if size = 0 then (.error simPoolErrInval, s)
    else
      match p.poolBuddy.gpuBuddyAlloc (alignUp4k size) with
      | (none, b) => (.error simPoolErrNoSpc, s.setPool handle { p with poolBuddy := b })
      | (some addr, b) => (.ok addr, s.setPool handle (p.update b addr (some ⟨addr, alignUp4k size⟩)))

/-- A fence id, or the error that an exhausted counter is answered with. -/
def answerFence (s : MemPools) : Int × MemPools :=
  let r := s.simFenceIdAlloc
  (if r.1 < 0 then -eNOMEM else r.1, r.2)

/-- The return value, `*va_out` and the state. -/
def allocAsync (s : MemPools) (handle size : UInt64) : Int × Option UInt64 × MemPools :=
  match s.alloc handle size with
  | (.error rc, s) => (rc, none, s)
  | (.ok va, s) => (s.answerFence.1, some va, s.answerFence.2)

/-- The first pool in whose range the address lies decides. -/
def freeAsync (s : MemPools) (va : UInt64) : Int × MemPools :=
  match s.poolTable.find? fun q => q.2.inRange va with
  | none => (simPoolErrInvalidHandle, s)
  | some (handle, p) =>
    match p.allocated va with
    | none => (simPoolErrInvalidHandle, s)
    | some _ => (s.setPool handle (p.update (p.poolBuddy.gpuBuddyFree va).2 va none)).answerFence

def step (s : MemPools) : PoolOp → MemPools
  | .create size mapped => (s.create size mapped).2
  | .allocAsync handle size => (s.allocAsync handle size).2.2
  | .freeAsync va => (s.freeAsync va).2
  | .destroy handle => (s.destroy handle).2

/-! ### The allocation law -/

/-- The allocation at `va` in the pool `q`. -/
def LiveAt (s : MemPools) (q : UInt64 × PoolTableEntry) (va : UInt64) (e : PoolInternalEntry) :
    Prop :=
  q ∈ s.poolTable ∧ q.2.allocated va = some e

def LivesDisjoint (s : MemPools) : Prop :=
  ∀ q va e q' va' e', s.LiveAt q va e → s.LiveAt q' va' e' → (q.1, va) ≠ (q'.1, va') →
    va.toNat + e.size.toNat ≤ va'.toNat ∨ va'.toNat + e'.size.toNat ≤ va.toNat

/-- What a call owes to its caller. -/
def PoolStepSound (s : MemPools) : PoolOp → Prop
  | .allocAsync handle size => ∀ va, 0 ≤ (s.allocAsync handle size).1 →
      (s.allocAsync handle size).2.1 = some va → ∃ p, s.findPool handle = some p ∧
        p.vaBase.toNat ≤ va.toNat ∧ va.toNat + size.toNat ≤ p.vaLimit.toNat
  | .freeAsync va => ∀ q e, s.LiveAt q va e → 0 ≤ (s.freeAsync va).1 ∧
      ((s.freeAsync va).2.freeAsync va).1 < 0 ∧ 0 ≤ ((s.freeAsync va).2.allocAsync q.1 e.size).1
  | _ => True

/-- The handle counter has not come round to a live pool, the fence counter is below the values that
read as errors, and there are list nodes for the splits of an allocation, and for a free and the
splits that undo it. -/
def ResourcesLeft (s : MemPools) : PoolOp → Prop
  | .create _ _ => ∀ q ∈ s.poolTable, q.1 ≠ s.nextPoolHandle
  | .allocAsync handle size => s.nextSimFenceId.toNat < 2 ^ 63 ∧ ∀ p ∈ s.findPool handle,
      ∀ t ∈ p.poolBuddy.firstFit (orderForSize (alignedSize (alignUp4k size))),
        p.poolBuddy.blockPoolUsed + 2 * (t - orderForSize (alignedSize (alignUp4k size))) ≤
          blockPoolSize
  | .freeAsync va => s.nextSimFenceId.toNat + 1 < 2 ^ 63 ∧ ∀ q ∈ s.poolTable,
      ∀ r ∈ q.2.poolBuddy.findRecord va, q.2.poolBuddy.blockPoolUsed + 1 +
        3 * q.2.poolBuddy.mergeCount (q.2.poolBuddy.maxOrder - r.order) r.order va ≤ blockPoolSize
  | .destroy _ => True

instance decidableResourcesLeft (s : MemPools) : ∀ op, Decidable (ResourcesLeft s op)
  | .create _ _ => inferInstanceAs (Decidable (∀ q ∈ s.poolTable, q.1 ≠ s.nextPoolHandle))
  | .allocAsync handle _ =>
    inferInstanceAs (Decidable (_ ∧ ∀ p ∈ s.findPool handle, ∀ t ∈ GpuBuddy.firstFit _ _, _))
  | .freeAsync va =>
    inferInstanceAs (Decidable (_ ∧ ∀ q ∈ s.poolTable, ∀ r ∈ GpuBuddy.findRecord _ va, _))
  | .destroy _ => inferInstanceAs (Decidable True)

/-- The request is served from the end of the first block of the lowest order that has one; the
bytes asked for must end inside the range. -/
def InsideRange (s : MemPools) : PoolOp → Prop
  | .allocAsync handle size => alignUp4k size ≠ 0 → ∀ p ∈ s.findPool handle,
      ∀ t ∈ p.poolBuddy.firstFit (orderForSize (alignedSize (alignUp4k size))),
        ∀ a ∈ (p.poolBuddy.freeLists t).head?,
          a.toNat + (2 ^ t - 2 ^ orderForSize (alignedSize (alignUp4k size))) * 4096 + size.toNat ≤
            p.vaLimit.toNat
  | _ => True

instance decidableInsideRange (s : MemPools) : ∀ op, Decidable (InsideRange s op)
  | .allocAsync handle size =>
    inferInstanceAs (Decidable (alignUp4k size ≠ 0 → ∀ p ∈ s.findPool handle,
      ∀ t ∈ GpuBuddy.firstFit _ _, ∀ a ∈ List.head? _, _))
  | .create .. | .freeAsync _ | .destroy _ => inferInstanceAs (Decidable True)

end MemPools

end UsrLinuxEmu.GpuDriver
