import UsrLinuxEmu.GpuDriver.BoTable
import UsrLinuxEmu.Transition.Simulation

/-!
# Kernel modules (`drv/gpgpu_device.cpp`, `hal/hal_user.cpp`)

A module's image lies in a block of the HAL heap that no handle names.  It is to be unloaded by
FREE_BO on its address, of which the handler reads the low 32 bits as a handle.

* `userKernelModuleLoad`, `handleLoadKernelModule` — the upload;
* `Reclaims` — FREE_BO on the address releases that block and nothing else;
* `load_accepted` — which uploads succeed;
* `modules_reclaimable_iff` — every loaded module can be unloaded exactly when none is loaded.
-/

namespace UsrLinuxEmu.GpuDriver

open UsrLinuxEmu.GpuCore UsrLinuxEmu.Transition

/-! ### The device -/

/-- `MAX_KERNEL_IMAGE_SIZE`. -/
def maxKernelImageSize : UInt64 := 64 * 1024 * 1024

/-- The inputs of the request; byte `k` of a readable image is its `k`-th value. -/
structure GpuLoadKernelModuleArgs where
  imagePtr : Option (ℕ → UInt8)
  imageSize : UInt64

structure ModuleDevice where
  dev : BoTable
  hal : HalUserContext

inductive ModuleRequest where
  | loadKernelModule (args : Option GpuLoadKernelModuleArgs)
  | allocBo (size : UInt64) (domain flags : UInt32)
  | freeBo (handle : UInt32)
  /-- FREE_BO with a pointer to `out_vram_addr`. -/
  | freeModule (vramAddr : UInt64)

namespace ModuleDevice

def start (heapPtr : UInt64) (hal : HalUserContext) : ModuleDevice := ⟨BoTable.init heapPtr, hal⟩

/-- The address of the block, and the bytes of the image in it. -/
def userKernelModuleLoad (s : ModuleDevice) (a : GpuLoadKernelModuleArgs) :
    Except Int UInt64 × ModuleDevice :=
  if a.imageSize = 0 ∨ maxKernelImageSize < a.imageSize then (.error (-eINVAL), s)
  else
    match a.imagePtr with
    | none => (.error (-eFAULT), s)
    | some image =>
      match s.dev.memAlloc a.imageSize with
      | (none, dev) => (.error (-1), { s with dev := dev })
      | (some vramAddr, dev) =>
        match s.hal.memWrite vramAddr a.imageSize image with
        | none => (.error (-eINVAL), { s with dev := dev.memFree vramAddr })
        | some hal => (.ok vramAddr, ⟨dev, hal⟩)

def handleLoadKernelModule (s : ModuleDevice) (args : Option GpuLoadKernelModuleArgs) :
    Except Int UInt64 × ModuleDevice :=
  match args with
  | none => (.error (-eFAULT), s)
  | some a =>
    if a.imageSize = 0 ∨ maxKernelImageSize < a.imageSize then (.error (-eINVAL), s)
    else s.userKernelModuleLoad a

/-- The handler reads a 32-bit handle from where the address starts. -/
def freeModule (s : BoTable) (vramAddr : UInt64) : Except Int Unit × BoTable :=
  s.handleFreeBo vramAddr.toUInt32

def step (s : ModuleDevice) : ModuleRequest → ModuleDevice
  | .loadKernelModule args => (s.handleLoadKernelModule args).2
  | .allocBo size domain flags => { s with dev := (s.dev.handleAllocBo size domain flags).2 }
  | .freeBo handle => { s with dev := (s.dev.handleFreeBo handle).2 }
  | .freeModule vramAddr => { s with dev := (freeModule s.dev vramAddr).2 }

/-- The modules that are loaded and not yet freed. -/
def noteLoaded (loaded : Set UInt64) (s : ModuleDevice) : ModuleRequest → Set UInt64
  | .loadKernelModule args =>
    match (s.handleLoadKernelModule args).1 with
    | .ok vramAddr => insert vramAddr loaded
    | .error _ => loaded
  | .freeModule vramAddr =>
    if (freeModule s.dev vramAddr).1.toBool then loaded \ {vramAddr} else loaded
  | _ => loaded

/-- The device, with the addresses of the loaded modules. -/
abbrev loadedStep : Set UInt64 × ModuleDevice → ModuleRequest → Set UInt64 × ModuleDevice :=
  observed step noteLoaded

abbrev loadedStart (heapPtr : UInt64) (hal : HalUserContext) : Set UInt64 × ModuleDevice :=
  (∅, start heapPtr hal)

end ModuleDevice

/-! ### The property -/

/-- FREE_BO on the address succeeds, releases the block there, and touches no buffer object. -/
structure Reclaims (s : BoTable) (vramAddr : UInt64) : Prop where
  succeeds : (ModuleDevice.freeModule s vramAddr).1.toBool = true
  releases : ∃ k, s.heap.liveBlocks.Perm
    (⟨k, vramAddr⟩ :: (ModuleDevice.freeModule s vramAddr).2.heap.liveBlocks)
  handles : (ModuleDevice.freeModule s vramAddr).2.allocatedBits = s.allocatedBits
  bos : (ModuleDevice.freeModule s vramAddr).2.boMap = s.boMap

def ModulesReclaimable (x : Set UInt64 × ModuleDevice) : Prop :=
  ∀ vramAddr ∈ x.1, Reclaims x.2.dev vramAddr

/-- The request is refused: the size, the pointer, or no block of the heap for it. -/
def LoadRefused (x : Set UInt64 × ModuleDevice) : ModuleRequest → Prop
  | .loadKernelModule args => ∀ a ∈ args,
    a.imageSize = 0 ∨ maxKernelImageSize < a.imageSize ∨ a.imagePtr = none ∨
      (x.2.dev.heap.gpuBuddyAlloc a.imageSize).1 = none
  | _ => True

/-- FREE_BO fails, or takes a handle away. -/
theorem not_reclaims (s : BoTable) (vramAddr : UInt64) : ¬Reclaims s vramAddr := by
  intro h
  have hok := h.succeeds
  have hbits := h.handles
  simp only [ModuleDevice.freeModule] at hok hbits
  generalize vramAddr.toUInt32 = handle at hok hbits
  by_cases hvalid : s.handleValid handle = true
  · have hbit := (BoTable.handleValid_iff.mp hvalid).2
    rw [BoTable.handleFreeBo_bits, if_pos hvalid] at hbits
    have hcleared := congrFun hbits handle
    rw [Function.update_self, hbit] at hcleared
    cases hcleared
  · unfold BoTable.handleFreeBo at hok
    rw [Bool.not_eq_true] at hvalid
    simp only [hvalid, Bool.not_false, if_true, ite_self] at hok
    cases hok

/-! ### The heap under any requests -/

/-- The heap is sound, whatever has been asked of it. -/
structure HeapSteady (s : BoTable) : Prop where
  steady : s.heap.Steady
  base : s.heap.baseAddr = halHeapBase
  order : s.heap.maxOrder = 16

namespace HeapSteady

variable {s : BoTable}

theorem init (heapPtr : UInt64) : HeapSteady (BoTable.init heapPtr) where
  steady := (BoTable.boInv_init heapPtr).steady
  base := (BoTable.boInv_init heapPtr).base
  order := (BoTable.boInv_init heapPtr).order

theorem of_heap {s' : BoTable} (h : HeapSteady s) (hheap : s'.heap = s.heap) : HeapSteady s' where
  steady := hheap ▸ h.steady
  base := hheap ▸ h.base
  order := hheap ▸ h.order

theorem buddyStep (h : HeapSteady s) (op : GpuBuddy.Op) :
    HeapSteady (s.setBuddy (s.heap.step op)) := by
  obtain ⟨hsteady, hbase, horder⟩ := GpuBuddy.steady_step s.heap op h.steady
  exact ⟨hsteady, hbase.trans h.base, horder.trans h.order⟩

theorem memAlloc (h : HeapSteady s) (size : UInt64) : HeapSteady (s.memAlloc size).2 :=
  h.buddyStep (.alloc size)

theorem memFree (h : HeapSteady s) (devAddr : UInt64) : HeapSteady (s.memFree devAddr) := by
  unfold BoTable.memFree
  cases hbuddy : s.buddy with
  | none => exact h
  | some b =>
    have hheap : s.heap = b := by
      rw [BoTable.heap, hbuddy]
      rfl
    rw [← hheap]
    exact h.buddyStep (.free devAddr)

theorem handleAllocBo (h : HeapSteady s) (size : UInt64) (domain flags : UInt32) :
    HeapSteady (s.handleAllocBo size domain flags).2 := by
  have hmem := h.memAlloc size
  unfold BoTable.handleAllocBo
  rw [BoTable.memAlloc_eq] at hmem ⊢
  generalize s.heap.gpuBuddyAlloc size = r at hmem ⊢
  obtain ⟨addr, b⟩ := r
  split_ifs
  · exact h
  · cases addr with
    | none => exact hmem
    | some gpuVa =>
      simp only
      split_ifs
      · exact hmem
      · unfold BoTable.allocateHandle
        cases BoTable.handles.find? fun i => !(s.setBuddy b).allocatedBits i with
        | none => exact hmem.memFree gpuVa
        | some handle => exact hmem.of_heap rfl

theorem handleFreeBo (h : HeapSteady s) (handle : UInt32) :
    HeapSteady (s.handleFreeBo handle).2 := by
  have hhandle (t : BoTable) (ht : HeapSteady t) : HeapSteady (t.freeHandle handle) := by
    unfold BoTable.freeHandle
    split_ifs
    · exact ht.of_heap rfl
    · exact ht
  unfold BoTable.handleFreeBo
  split_ifs
  · exact h
  · exact h
  · cases s.boMap handle with
    | none => exact hhandle s h
    | some info => exact hhandle _ ((h.memFree info.gpuVa).of_heap rfl)

/-- A block that the heap has handed out takes the bytes it was asked for. -/
theorem inRange (h : HeapSteady s) {size addr : UInt64} {b : GpuBuddy}
    (hle : size ≤ maxKernelImageSize) (hcall : s.heap.gpuBuddyAlloc size = (some addr, b)) :
    HalUserContext.outOfRange addr size = false := by
  have hstep := h.steady.allocStep size
  rw [hcall] at hstep
  cases hstep with
  | served hsize hfit hnodes hsteady hbase horder hlive =>
    have hmem := hlive.mem_iff.mpr List.mem_cons_self
    have hsmall : size.toNat ≤ 64 * 1024 * 1024 := UInt64.le_iff_toNat_le.mp hle
    have hcovers := BoTable.BoInv.covers hsteady (horder.trans h.order) hsize (by omega) hmem
    obtain ⟨hstart, hstop⟩ := hsteady.laid.bounds (List.mem_append_left _ hmem)
    have hinside := hsteady.laid.inside (List.mem_append_left _ hmem)
    rw [hbase, h.base] at hstart hstop hinside
    rw [horder, h.order] at hinside
    have hheap : halHeapBase.toNat = 4294967296 := rfl
    have hpool : halHeapSize.toNat = 268435456 := rfl
    simp only [BuddyBlock.bytes] at hstop
    have hle : halHeapBase ≤ addr := by
      rw [UInt64.le_iff_toNat_le, hstart]
      exact Nat.le_add_right _ _
    have hoff : (addr - halHeapBase).toNat = addr.toNat - 4294967296 := by
      rw [UInt64.toNat_sub_of_le _ _ hle, hheap]
    rw [HalUserContext.outOfRange, decide_eq_false_iff_not, HalUserContext.heapOff, gt_iff_lt,
      UInt64.lt_iff_toNat_lt, UInt64.toNat_add, hoff, hpool]
    omega

end HeapSteady

/-! ### Which uploads succeed -/

namespace ModuleDevice

variable {s : ModuleDevice}

/-- An upload fails exactly when it is refused: the bytes fit in the block. -/
theorem load_fails_iff (h : HeapSteady s.dev) (loaded : Set UInt64)
    (args : Option GpuLoadKernelModuleArgs) :
    (s.handleLoadKernelModule args).1.toBool = false ↔
      LoadRefused (loaded, s) (.loadKernelModule args) := by
  cases args with
  | none => exact ⟨fun _ a ha => absurd ha (Option.not_mem_none a), fun _ => rfl⟩
  | some a =>
    simp only [LoadRefused, Option.mem_some_iff, forall_eq', handleLoadKernelModule,
      userKernelModuleLoad, BoTable.memAlloc_eq]
    by_cases hchecks : a.imageSize = 0 ∨ maxKernelImageSize < a.imageSize
    · rw [if_pos hchecks]
      exact ⟨fun _ => hchecks.imp_right Or.inl, fun _ => rfl⟩
    rw [if_neg hchecks, if_neg hchecks]
    obtain ⟨hzero, hmax⟩ := not_or.mp hchecks
    cases himage : a.imagePtr with
    | none => exact ⟨fun _ => .inr (.inr (.inl rfl)), fun _ => rfl⟩
    | some image =>
      cases hcall : (s.dev.heap.gpuBuddyAlloc a.imageSize).1 with
      | none => exact ⟨fun _ => .inr (.inr (.inr rfl)), fun _ => rfl⟩
      | some vramAddr =>
        have hrange := h.inRange (UInt64.not_lt.mp hmax) (Prod.ext hcall rfl)
        simp only [HalUserContext.memWrite, hrange, Bool.false_eq_true, if_false]
        constructor
        · intro hfail
          cases hfail
        · rintro (hsize | hsize | hnull | hnone)
          · exact absurd hsize hzero
          · exact absurd hsize hmax
          · cases hnull
          · cases hnone

theorem heapSteady_load (h : HeapSteady s.dev) (args : Option GpuLoadKernelModuleArgs) :
    HeapSteady (s.handleLoadKernelModule args).2.dev := by
  cases args with
  | none => exact h
  | some a =>
    simp only [handleLoadKernelModule, userKernelModuleLoad]
    have hmem := h.memAlloc a.imageSize
    generalize s.dev.memAlloc a.imageSize = r at hmem
    obtain ⟨addr, dev⟩ := r
    split_ifs
    · exact h
    cases a.imagePtr with
    | none => exact h
    | some image =>
      cases addr with
      | none => exact hmem
      | some vramAddr =>
        simp only
        cases s.hal.memWrite vramAddr a.imageSize image with
        | none => exact hmem.memFree vramAddr
        | some hal => exact hmem

theorem heapSteady_step (h : HeapSteady s.dev) (r : ModuleRequest) :
    HeapSteady (s.step r).dev := by
  cases r with
  | loadKernelModule args => exact heapSteady_load h args
  | allocBo size domain flags => exact h.handleAllocBo size domain flags
  | freeBo handle => exact h.handleFreeBo handle
  | freeModule vramAddr => exact h.handleFreeBo vramAddr.toUInt32

end ModuleDevice

/-! ### Which runs can free their modules -/

/-- No module is loaded, and the heap is sound. -/
structure NoneLoaded (x : Set UInt64 × ModuleDevice) : Prop where
  empty : x.1 = ∅
  heap : HeapSteady x.2.dev

namespace NoneLoaded

variable {x : Set UInt64 × ModuleDevice}

theorem step (h : NoneLoaded x) (r : ModuleRequest) (hG : LoadRefused x r) :
    NoneLoaded (ModuleDevice.loadedStep x r) where
  empty := by
    show ModuleDevice.noteLoaded x.1 x.2 r = ∅
    cases r with
    | loadKernelModule args =>
      have hfail := (ModuleDevice.load_fails_iff h.heap x.1 args).mpr hG
      simp only [ModuleDevice.noteLoaded]
      cases hcall : (x.2.handleLoadKernelModule args).1 with
      | error rc => exact h.empty
      | ok vramAddr =>
        rw [hcall] at hfail
        cases hfail
    | allocBo size domain flags => exact h.empty
    | freeBo handle => exact h.empty
    | freeModule vramAddr =>
      simp only [ModuleDevice.noteLoaded, h.empty, Set.empty_sdiff, ite_self]
  heap := ModuleDevice.heapSteady_step h.heap r

theorem reclaimable (h : NoneLoaded x) : ModulesReclaimable x := by
  intro vramAddr hmem
  rw [h.empty] at hmem
  exact absurd hmem (Set.notMem_empty vramAddr)

/-- A module that has been loaded cannot be freed. -/
theorem refused (h : NoneLoaded x) (r : ModuleRequest)
    (hafter : ModulesReclaimable (ModuleDevice.loadedStep x r)) : LoadRefused x r := by
  cases r with
  | loadKernelModule args =>
    refine (ModuleDevice.load_fails_iff h.heap x.1 args).mp ?_
    cases hcall : (x.2.handleLoadKernelModule args).1 with
    | error rc => rfl
    | ok vramAddr =>
      have hmem : vramAddr ∈ (ModuleDevice.loadedStep x (.loadKernelModule args)).1 := by
        show vramAddr ∈ ModuleDevice.noteLoaded x.1 x.2 (.loadKernelModule args)
        simp only [ModuleDevice.noteLoaded, hcall]
        exact Set.mem_insert vramAddr x.1
      exact absurd (hafter vramAddr hmem) (not_reclaims _ vramAddr)
  | allocBo size domain flags => trivial
  | freeBo handle => trivial
  | freeModule vramAddr => trivial

end NoneLoaded

/-- **Loaded modules can be freed exactly along the runs that load none.** -/
theorem modules_reclaimable_iff (heapPtr : UInt64) (hal : HalUserContext)
    (requests : List ModuleRequest) :
    Always ModuleDevice.loadedStep ModulesReclaimable (ModuleDevice.loadedStart heapPtr hal)
        requests ↔
      Guarded ModuleDevice.loadedStep LoadRefused (ModuleDevice.loadedStart heapPtr hal)
        requests :=
  always_iff_guarded (I := NoneLoaded) (fun _ r h hG => h.step r hG) (fun _ h => h.reclaimable)
    (fun _ r h hafter => h.refused r hafter) requests ⟨rfl, HeapSteady.init heapPtr⟩

/-- FREE_BO on the address of the first module is refused. -/
theorem modules_reclaimable_fails :
    ¬Always ModuleDevice.loadedStep ModulesReclaimable
      (ModuleDevice.loadedStart 0 ⟨fun _ => 0, 0⟩)
      [.loadKernelModule (some ⟨some fun _ => 0, 4096⟩)] := by
  intro h
  have hload : ((ModuleDevice.start 0 ⟨fun _ => 0, 0⟩).handleLoadKernelModule
      (some ⟨some fun _ => 0, 4096⟩)).1 = .ok 0x10ffff000 := by
    decide +kernel
  have hloaded : 0x10ffff000 ∈ (run ModuleDevice.loadedStep
      (ModuleDevice.loadedStart 0 ⟨fun _ => 0, 0⟩)
      [.loadKernelModule (some ⟨some fun _ => 0, 4096⟩)]).1 := by
    show 0x10ffff000 ∈ ModuleDevice.noteLoaded ∅ (ModuleDevice.start 0 ⟨fun _ => 0, 0⟩)
      (.loadKernelModule (some ⟨some fun _ => 0, 4096⟩))
    simp only [ModuleDevice.noteLoaded, hload]
    exact Set.mem_insert _ _
  have hok := (Always.last _ h 0x10ffff000 hloaded).succeeds
  revert hok
  decide +kernel

end UsrLinuxEmu.GpuDriver
