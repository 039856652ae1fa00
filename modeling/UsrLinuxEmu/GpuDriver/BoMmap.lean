import UsrLinuxEmu.GpuDriver.DeviceMmap
import UsrLinuxEmu.GpuDriver.KernelModule

/-!
# Mappings of buffer objects (`drv/gpgpu_device.cpp`, `drv/gpu_drm_driver.cpp`)

`mmap` takes the low 32 bits of the offset for a handle, and checks the length against the size that
was asked for.

* `gpuIoctlAllocBo`, `BoRequest` — the requests that buffer objects come from;
* `BoMapping` / `BoIsolated` — a mapping lies in the block of the object that the offset names;
* `SharedHeap` — what holds of the table under any requests;
* `bo_isolated_iff` — the offsets and lengths for which that is so.
-/

namespace UsrLinuxEmu.GpuDriver

open UsrLinuxEmu.GpuCore UsrLinuxEmu.Transition

/-! ### Requests -/

/-- `gpu_ioctl_alloc_bo`: as `handleAllocBo`, but the entry gets no host pointer. -/
def BoTable.gpuIoctlAllocBo (s : BoTable) (size : UInt64) (domain flags : UInt32) :
    Except Int (UInt32 × UInt64) × BoTable :=
  match s.handleAllocBo size domain flags with
  | (.error rc, s) => (.error rc, s)
  | (.ok (handle, gpuVa), s) =>
    (.ok (handle, gpuVa), s.setBo handle (some ⟨gpuVa, size, domain, flags, 0⟩))

/-- The requests that reach handles, entries or the heap. -/
inductive BoRequest where
  | device (r : ModuleRequest)
  | drmAllocBo (size : UInt64) (domain flags : UInt32)

namespace ModuleDevice

def boStep (s : ModuleDevice) : BoRequest → ModuleDevice
  | .device r => s.step r
  | .drmAllocBo size domain flags => { s with dev := (s.dev.gpuIoctlAllocBo size domain flags).2 }

end ModuleDevice

/-! ### The property -/

/-- The offset is the handle of a live buffer object, and what is mapped lies in its block and
apart from those of the others. -/
structure BoMapping (s : BoTable) (length offset ptr : UInt64) (handle : UInt32) (info : BoInfo)
    (k : ℕ) : Prop where
  named : offset = handle.toUInt64
  valid : s.handleValid handle = true
  entry : s.boMap handle = some info
  block : ⟨k, info.gpuVa⟩ ∈ s.heap.liveBlocks
  pointer : ptr = s.heapAddr info.gpuVa
  inside : length.toNat ≤ 2 ^ k * 4096
  apart : ∀ handle' info' k', handle' ≠ handle → s.boMap handle' = some info' →
    ⟨k', info'.gpuVa⟩ ∈ s.heap.liveBlocks →
      info.gpuVa.toNat + length.toNat ≤ info'.gpuVa.toNat ∨
        info'.gpuVa.toNat + 2 ^ k' * 4096 ≤ info.gpuVa.toNat

def BoIsolated (s : BoTable) (store : GpuVramStore) (page : Option UInt64)
    (length offset : UInt64) : Prop :=
  ∀ ptr, mmap store s page length offset = .bo ptr →
    ∃ handle info k, BoMapping s length offset ptr handle info k

/-- An offset beyond 32 bits names no entry that takes the length, and an entry of more than
`2 ^ 63` bytes is mapped up to a page only. -/
def NamesObject (s : BoTable) (length offset : UInt64) : Prop :=
  ¬InBar2 offset → ∀ info, s.boMap offset.toUInt32 = some info → length ≤ info.size →
    info.hostPtr ≠ 0 →
      offset.toNat < 2 ^ 32 ∧ (info.size.toNat ≤ 2 ^ 63 ∨ length.toNat ≤ 4096)

/-! ### The invariant -/

/-- The block is of the order that the size asks for, and the host pointer leads to it. -/
def OwnBlock (heapPtr : UInt64) (k : ℕ) (info : BoInfo) : Prop :=
  k = orderForSize (alignedSize info.size) ∧ info.size ≠ 0 ∧
    (info.hostPtr = 0 ∨ info.hostPtr = heapPtr + (info.gpuVa - halHeapBase))

/-- Handles, entries and blocks agree, whatever has been asked of the device. -/
structure SharedHeap (heapPtr : UInt64) (s : BoTable) : Prop where
  backed : BoTable.BoBacked (OwnBlock heapPtr) s
  mapped : s.heapPtr = heapPtr

namespace SharedHeap

variable {heapPtr : UInt64} {s : BoTable}

theorem init (heapPtr : UInt64) : SharedHeap heapPtr (BoTable.init heapPtr) where
  backed := by
    obtain ⟨hkeys, hsteady, hbase, horder, -, -⟩ := BoTable.boInv_init heapPtr
    exact ⟨hkeys, hsteady, hbase, horder, nofun, nofun⟩
  mapped := rfl

theorem steady (h : SharedHeap heapPtr s) : HeapSteady s :=
  ⟨h.backed.steady, h.backed.base, h.backed.order⟩

/-- Blocks that no entry names may come. -/
theorem setBuddy (h : SharedHeap heapPtr s) {b : GpuBuddy} (hsteady : b.Steady)
    (hbase : b.baseAddr = s.heap.baseAddr) (horder : b.maxOrder = s.heap.maxOrder)
    (hlive : ∀ x ∈ s.heap.liveBlocks, x ∈ b.liveBlocks) : SharedHeap heapPtr (s.setBuddy b) where
  backed := {
    keys := h.backed.keys
    steady := hsteady
    base := hbase.trans h.backed.base
    order := horder.trans h.backed.order
    live := fun handle info hinfo => by
      obtain ⟨k, hmem, hown⟩ := h.backed.live handle info hinfo
      exact ⟨k, hlive _ hmem, hown⟩
    inj := h.backed.inj }
  mapped := h.mapped

theorem handleAllocBo (h : SharedHeap heapPtr s) (size : UInt64) (domain flags : UInt32) :
    SharedHeap heapPtr (s.handleAllocBo size domain flags).2 ∧
      SharedHeap heapPtr (s.gpuIoctlAllocBo size domain flags).2 := by
  have hcall := h.backed.allocCall size domain flags
  rw [BoTable.gpuIoctlAllocBo]
  generalize s.handleAllocBo size domain flags = r at hcall ⊢
  cases hcall with
  | refused _ hbits hmap hheap hptr =>
    have hsame : SharedHeap heapPtr _ := ⟨h.backed.of_eq hbits hmap hheap, hptr.trans h.mapped⟩
    exact ⟨hsame, hsame⟩
  | lost _ _ _ _ _ hsteady hpool =>
    have hlost := h.setBuddy hsteady hpool.base hpool.order fun x hx => by
      rwa [GpuBuddy.liveBlocks, hpool.records]
    exact ⟨hlost, hlost⟩
  | @served i gpuVa b t hdomain hsize _ _ hi hbit hsteady hbase horder hlive =>
    have hinsert (hostPtr : UInt64) (hptr : hostPtr = 0 ∨ hostPtr = s.heapAddr gpuVa) :
        SharedHeap heapPtr (((s.setBuddy b).setBit i true).setBo i
          (some ⟨gpuVa, size, domain, flags, hostPtr⟩)) := by
      refine ⟨h.backed.insert hi hbit hsteady hbase horder hlive ⟨rfl, hsize, ?_⟩, h.mapped⟩
      rwa [BoTable.heapAddr, h.mapped] at hptr
    refine ⟨hinsert _ (.inr rfl), ?_⟩
    simp only [BoTable.setBo_setBo]
    exact hinsert 0 (.inl rfl)

theorem handleFreeBo (h : SharedHeap heapPtr s) (handle : UInt32) :
    SharedHeap heapPtr (s.handleFreeBo handle).2 := by
  have hstep := h.backed.freeStep handle
  change SharedHeap heapPtr (s.call (.freeBo handle)).2
  generalize s.call (.freeBo handle) = r at hstep ⊢
  cases hstep with
  | refused => exact h
  | freed hinfo hsteady hbase horder hlive =>
    exact ⟨h.backed.erase hinfo hsteady hbase horder hlive, h.mapped⟩

theorem handleLoadKernelModule {d : ModuleDevice} (h : SharedHeap heapPtr d.dev)
    (args : Option GpuLoadKernelModuleArgs) :
    SharedHeap heapPtr (d.handleLoadKernelModule args).2.dev := by
  cases args with
  | none => exact h
  | some a =>
    simp only [ModuleDevice.handleLoadKernelModule, ModuleDevice.userKernelModuleLoad,
      BoTable.memAlloc_eq]
    by_cases hchecks : a.imageSize = 0 ∨ maxKernelImageSize < a.imageSize
    · simpa only [if_pos hchecks] using h
    simp only [if_neg hchecks]
    cases a.imagePtr with
    | none => exact h
    | some image =>
      have hstep := h.backed.steady.allocStep a.imageSize
      have hrange : ∀ addr b, d.dev.heap.gpuBuddyAlloc a.imageSize = (some addr, b) →
          HalUserContext.outOfRange addr a.imageSize = false := fun _ _ =>
        h.steady.inRange (UInt64.not_lt.mp (not_or.mp hchecks).2)
      generalize d.dev.heap.gpuBuddyAlloc a.imageSize = r at hstep hrange ⊢
      cases hstep with
      | refused => exact h.setBuddy h.backed.steady rfl rfl fun x hx => hx
      | lost _ _ _ _ hsteady hpool =>
        exact h.setBuddy hsteady hpool.base hpool.order fun x hx => by
          rwa [GpuBuddy.liveBlocks, hpool.records]
      | @served t addr b _ _ _ hsteady hbase horder hlive =>
        simp only [HalUserContext.memWrite, hrange addr b rfl, Bool.false_eq_true, if_false]
        exact h.setBuddy hsteady hbase horder fun x hx =>
          hlive.mem_iff.mpr (List.mem_cons_of_mem _ hx)

theorem boStep {d : ModuleDevice} (h : SharedHeap heapPtr d.dev) (r : BoRequest) :
    SharedHeap heapPtr (d.boStep r).dev := by
  cases r with
  | drmAllocBo size domain flags => exact (h.handleAllocBo size domain flags).2
  | device r =>
    cases r with
    | loadKernelModule args => exact h.handleLoadKernelModule args
    | allocBo size domain flags => exact (h.handleAllocBo size domain flags).1
    | freeBo handle => exact h.handleFreeBo handle
    | freeModule vramAddr => exact h.handleFreeBo vramAddr.toUInt32

theorem run (heapPtr : UInt64) (hal : HalUserContext) (requests : List BoRequest) :
    SharedHeap heapPtr
      (Transition.run ModuleDevice.boStep (ModuleDevice.start heapPtr hal) requests).dev :=
  run_of_invariant (I := fun d : ModuleDevice => SharedHeap heapPtr d.dev)
    (fun _ r h => h.boStep r) requests (init heapPtr)

end SharedHeap

/-! ### What is mapped -/

theorem mmapBo_eq_bo {info : BoInfo} {length ptr : UInt64} :
    mmapBo info length = .bo ptr ↔
      length ≤ info.size ∧ info.hostPtr ≠ 0 ∧ ptr = info.hostPtr := by
  rw [mmapBo]
  split_ifs with hlength hptr
  · simp [UInt64.not_le.mpr hlength]
  · simp [hptr]
  · simp [UInt64.not_lt.mp hlength, hptr, eq_comm]

/-- Outside the BAR2 window an entry is what a mapping of a buffer object comes from. -/
theorem mmap_eq_bo {s : BoTable} {store : GpuVramStore} {page : Option UInt64}
    {length offset ptr : UInt64} :
    mmap store s page length offset = .bo ptr ↔ ¬InBar2 offset ∧
      ∃ info, s.boMap offset.toUInt32 = some info ∧ length ≤ info.size ∧ info.hostPtr ≠ 0 ∧
        ptr = info.hostPtr := by
  rw [mmap]
  by_cases hbar : InBar2 offset
  · rw [if_pos hbar, mmapBar2_eq]
    split_ifs
    · simp [hbar]
    · simp [hbar]
  · rw [if_neg hbar, and_iff_right hbar]
    cases hinfo : s.boMap offset.toUInt32 with
    | some info => simp only [mmapBo_eq_bo, Option.some.injEq, exists_eq_left']
    | none =>
      simp only [reduceCtorEq, false_and, exists_false, iff_false]
      cases page with
      | none => simp
      | some addr =>
        split_ifs
        · exact nofun
        · exact nofun

theorem toUInt64_toUInt32 {offset : UInt64} (h : offset.toNat < 2 ^ 32) :
    offset = offset.toUInt32.toUInt64 := by
  rw [← UInt64.toNat_inj, UInt32.toNat_toUInt64, UInt64.toNat_toUInt32, Nat.mod_eq_of_lt h]

section Mapping

variable {heapPtr : UInt64} {s : BoTable}

/-- A block covers the lengths that `mmap` lets through, up to `2 ^ 63` bytes. -/
theorem SharedHeap.covers (h : SharedHeap heapPtr s) {handle : UInt32} {info : BoInfo}
    (hinfo : s.boMap handle = some info) :
    ∃ k, ⟨k, info.gpuVa⟩ ∈ s.heap.liveBlocks ∧ OwnBlock heapPtr k info ∧
      (info.size.toNat ≤ 2 ^ 63 → info.size.toNat ≤ 2 ^ k * 4096) ∧
      (2 ^ 63 < info.size.toNat → k = 0) := by
  obtain ⟨k, hmem, hown⟩ := h.backed.live handle info hinfo
  refine ⟨k, hmem, hown, fun hle => ?_, fun hlt => hown.1.trans (orderForSize_of_lt hlt)⟩
  have horder := hown.1
  subst horder
  exact BoTable.BoInv.covers h.backed.steady h.backed.order hown.2.1 hle hmem

/-- The lengths of an entry's mappings that its block covers. -/
theorem SharedHeap.inside_iff (h : SharedHeap heapPtr s) {handle : UInt32} {info : BoInfo}
    (hinfo : s.boMap handle = some info) {length : UInt64} (hlength : length ≤ info.size) {k : ℕ}
    (hmem : ⟨k, info.gpuVa⟩ ∈ s.heap.liveBlocks) :
    length.toNat ≤ 2 ^ k * 4096 ↔ info.size.toNat ≤ 2 ^ 63 ∨ length.toNat ≤ 4096 := by
  obtain ⟨k', hmem', -, hcovers, hpage⟩ := h.covers hinfo
  obtain rfl := h.backed.steady.live_order_eq hmem hmem'
  have hle := UInt64.le_iff_toNat_le.mp hlength
  rcases Nat.lt_or_ge (2 ^ 63) info.size.toNat with hlarge | hsmall
  · rw [hpage hlarge]
    omega
  · exact ⟨fun _ => .inl hsmall, fun _ => hle.trans (hcovers hsmall)⟩

/-- **One mapping.**  It lies in the block of the object that the offset names exactly when the
offset is a handle and the block covers the length. -/
theorem SharedHeap.isolated_iff (h : SharedHeap heapPtr s) (store : GpuVramStore)
    (page : Option UInt64) (length offset : UInt64) :
    BoIsolated s store page length offset ↔ NamesObject s length offset := by
  constructor
  · intro hisolated hbar info hinfo hlength hptr
    obtain ⟨handle, info', k, hmap⟩ := hisolated info.hostPtr
      (mmap_eq_bo.mpr ⟨hbar, info, hinfo, hlength, hptr, rfl⟩)
    have hnamed := hmap.named
    subst hnamed
    rw [UInt32.toUInt32_toUInt64, hmap.entry, Option.some.injEq] at hinfo
    subst hinfo
    refine ⟨?_, (h.inside_iff hmap.entry hlength hmap.block).mp hmap.inside⟩
    rw [UInt32.toNat_toUInt64]
    exact handle.toNat_lt
  · intro hnames ptr hmmap
    obtain ⟨hbar, info, hinfo, hlength, hptr, rfl⟩ := mmap_eq_bo.mp hmmap
    obtain ⟨hsmall, hsize⟩ := hnames hbar info hinfo hlength hptr
    obtain ⟨k, hmem, hown, -⟩ := h.covers hinfo
    have hinside := (h.inside_iff hinfo hlength hmem).mpr hsize
    refine ⟨offset.toUInt32, info, k, toUInt64_toUInt32 hsmall, ?_, hinfo, hmem, ?_, hinside, ?_⟩
    · rw [h.backed.keys, hinfo]
      rfl
    · rw [BoTable.heapAddr, h.mapped]
      exact hown.2.2.resolve_left hptr
    · intro handle' info' k' hne hinfo' hmem'
      have hapart := h.backed.steady.live_disjoint hmem hmem' fun heq =>
        hne (h.backed.inj _ _ _ _ hinfo' hinfo (congrArg BuddyBlock.addr heq).symm)
      simp only [BuddyBlock.bytes] at hapart
      omega

end Mapping

/-- **Buffer objects.**  In every state that requests lead to, the mappings of buffer objects are
isolated exactly for the offsets that are handles, and the lengths that the block covers. -/
theorem bo_isolated_iff (heapPtr : UInt64) (hal : HalUserContext) (requests : List BoRequest)
    (store : GpuVramStore) (page : Option UInt64) (length offset : UInt64) :
    BoIsolated (run ModuleDevice.boStep (ModuleDevice.start heapPtr hal) requests).dev store page
        length offset ↔
      NamesObject (run ModuleDevice.boStep (ModuleDevice.start heapPtr hal) requests).dev length
        offset :=
  (SharedHeap.run heapPtr hal requests).isolated_iff store page length offset

/-- The offset `2 ^ 32 + 1` maps the first buffer object. -/
theorem bo_isolated_fails :
    ¬BoIsolated (run ModuleDevice.boStep (ModuleDevice.start 0x7f0000000000 ⟨fun _ => 0, 0⟩)
      [.device (.allocBo 4096 1 0)]).dev GpuVramStore.start none 4096 0x100000001 := by
  intro h
  have hentry : (run ModuleDevice.boStep (ModuleDevice.start 0x7f0000000000 ⟨fun _ => 0, 0⟩)
      [.device (.allocBo 4096 1 0)]).dev.boMap (0x100000001 : UInt64).toUInt32 =
      some ⟨0x10ffff000, 4096, 1, 0, 0x7f000ffff000⟩ := by decide +kernel
  obtain ⟨handle, info, k, hmap⟩ := h 0x7f000ffff000
    (mmap_eq_bo.mpr ⟨by decide, _, hentry, by decide, by decide, rfl⟩)
  have hnat := congrArg UInt64.toNat hmap.named
  rw [UInt32.toNat_toUInt64] at hnat
  have hlt := handle.toNat_lt
  rw [← hnat] at hlt
  exact absurd hlt (by decide)

end UsrLinuxEmu.GpuDriver
