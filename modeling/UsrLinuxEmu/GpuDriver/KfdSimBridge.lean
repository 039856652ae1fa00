import Mathlib.Data.List.AList
import Mathlib.Data.List.Perm.Subperm
import UsrLinuxEmu.GpuDriver.PageMigration
import UsrLinuxEmu.Kernel.MmShim

/-!
# The KFD bridge (`plugins/gpu_driver/drv/kfd_sim_bridge.cpp`)

A map request takes the next address and the next page of the device memory; the addresses go up,
the pages start again after 16 MiB.

* `KfdSimState` — the two tables, the counter, the next address and page, the bound VMA tracker;
* `kfdSimHandleMapMemory`, `kfdSimHandleUnmapMemory` — the requests;
* `KfdTablesSound` — the counter counts the entries of both tables, and mapped addresses have
  frames of their own;
* `kfd_tables_iff` — the runs along which that holds, and in which no failed request changes a table.
-/

namespace UsrLinuxEmu.GpuDriver

open UsrLinuxEmu.Kernel UsrLinuxEmu.Transition

/-! ### The state -/

def kfdDeviceMemSize : UInt64 := 16 * 1024 * 1024
def kfdPageSize : UInt64 := 4096
def gpuVaBase : UInt64 := 0x100000
def gpuVaStride : UInt64 := 0x1000

/-- The page tracker exists after the first reset; `mmShim` outlives the resets. -/
structure KfdSimState where
  pm : Option SimPageMigration
  gpuVaToPfn : AList fun _ : UInt64 => UInt64
  handleToGpuVa : AList fun _ : UInt32 => UInt64
  pageCount : UInt32
  nextGpuVa : UInt64
  nextOffset : UInt64
  mmShim : Option UsMmShim

/-- The inputs of the request; the device ids and the flags are not read. -/
structure GpuMapMemoryArgs where
  handle : UInt32
  nDevices : UInt32
  size : UInt64
  deriving DecidableEq, Repr

structure GpuUnmapMemoryArgs where
  handle : UInt32
  nDevices : UInt32
  deriving DecidableEq, Repr

/-- What a map request writes back. -/
structure GpuMapMemoryOut where
  gpuVa : UInt64
  nSuccess : UInt32
  deriving DecidableEq, Repr

/-- The tracker of the bridge is attached to no domain. -/
def SimPageMigration.migrateToDevice (p : SimPageMigration) (offset : UInt64)
    (src : UInt64 → UInt8) (size : UInt64) : Int × SimPageMigration :=
  let r :=
    MigrationSystem.simPmMigrateToDevice ⟨p, .empty, false, false, false⟩ offset (some src) size
  (r.1, r.2.pm)

namespace KfdSimState

/-- The globals before anything has run. -/
def initial : KfdSimState := ⟨none, ∅, ∅, 0, gpuVaBase, 0, none⟩

def kfdSimReset (s : KfdSimState) : KfdSimState :=
  { s with
    pm := SimPageMigration.simPmCreate kfdDeviceMemSize
    gpuVaToPfn := ∅
    handleToGpuVa := ∅
    pageCount := 0
    nextGpuVa := gpuVaBase
    nextOffset := 0 }

def kfdSimSetMmShim (s : KfdSimState) (mmShim : Option UsMmShim) : KfdSimState :=
  { s with mmShim := mmShim }

/-- The pages of the size, rounded up in 64 bits. -/
def pagesOf (size : UInt64) : UInt64 :=
  let nPages := (size + kfdPageSize - 1) / kfdPageSize
  if nPages = 0 then 1 else nPages

def registerPage (m : UsMmShim) (gpuVa : UInt64) (p : ℕ) : Int × UsMmShim :=
  m.registerVma (gpuVa + UInt64.ofNat p * kfdPageSize)
    (gpuVa + (UInt64.ofNat p + 1) * kfdPageSize) 0

/-- The loop after `n` turns; what the calls return is dropped. -/
def registerFirst (m : UsMmShim) (gpuVa : UInt64) (n : ℕ) : UsMmShim :=
  (List.range n).foldl (fun m p => (registerPage m gpuVa p).2) m

def registerPages (m : UsMmShim) (gpuVa size : UInt64) : UsMmShim :=
  registerFirst m gpuVa (pagesOf size).toNat

def kfdSimHandleMapMemory (s : KfdSimState) (args : Option GpuMapMemoryArgs) :
    Except Int GpuMapMemoryOut × KfdSimState :=
  match args with
  | none => (.error (-1), s)
  | some args =>
    if args.size = 0 then (.error (-22), s)
    else if args.nDevices = 0 ∨ 8 < args.nDevices then (.error (-22), s)
    else
      match s.pm with
      | none => (.error (-19), s)
      | some pm =>
        let offset := s.nextOffset
        let nextOffset := (s.nextOffset + kfdPageSize) % kfdDeviceMemSize
        let (ret, pm) := pm.migrateToDevice offset (fun _ => 0) kfdPageSize
        if ret < 0 then (.error ret, { s with pm := some pm, nextOffset := nextOffset })
        else
          let gpuVa := s.nextGpuVa
          (.ok ⟨gpuVa, args.nDevices⟩,
            { pm := some pm
              gpuVaToPfn := s.gpuVaToPfn.insert gpuVa (pm.simPmLookupPfn offset)
              handleToGpuVa := s.handleToGpuVa.insert args.handle gpuVa
              pageCount := s.pageCount + 1
              nextGpuVa := s.nextGpuVa + gpuVaStride
              nextOffset := nextOffset
              mmShim := s.mmShim.map fun m => registerPages m gpuVa args.size })

/-- The devices reported back; a handle without a mapping is no error. -/
def kfdSimHandleUnmapMemory (s : KfdSimState) (args : Option GpuUnmapMemoryArgs) :
    Except Int UInt32 × KfdSimState :=
  match args with
  | none => (.error (-1), s)
  | some args =>
    if args.nDevices = 0 ∨ 8 < args.nDevices then (.error (-22), s)
    else if s.pm.isNone then (.error (-19), s)
    else
      match s.handleToGpuVa.lookup args.handle with
      | some gpuVa =>
        (.ok args.nDevices,
          { s with
            handleToGpuVa := s.handleToGpuVa.erase args.handle
            gpuVaToPfn := s.gpuVaToPfn.erase gpuVa
            pageCount := if 0 < s.pageCount then s.pageCount - 1 else s.pageCount
            mmShim := s.mmShim.map fun m => (m.unregisterVma gpuVa (gpuVa + kfdPageSize)).2 })
      | none => (.ok args.nDevices, s)

end KfdSimState

inductive KfdRequest where
  | reset
  | setMmShim (mmShim : Option UsMmShim)
  | map (args : Option GpuMapMemoryArgs)
  | unmap (args : Option GpuUnmapMemoryArgs)

namespace KfdSimState

/-- Whether the request succeeds, and the state it leaves. -/
def call (s : KfdSimState) : KfdRequest → Bool × KfdSimState
  | .reset => (true, s.kfdSimReset)
  | .setMmShim mmShim => (true, s.kfdSimSetMmShim mmShim)
  | .map args =>
    let r := s.kfdSimHandleMapMemory args
    (r.1.toBool, r.2)
  | .unmap args =>
    let r := s.kfdSimHandleUnmapMemory args
    (r.1.toBool, r.2)

def step (s : KfdSimState) (request : KfdRequest) : KfdSimState := (s.call request).2

/-- What the property is about. -/
def tables (s : KfdSimState) :
    (AList fun _ : UInt64 => UInt64) × (AList fun _ : UInt32 => UInt64) × UInt32 :=
  (s.gpuVaToPfn, s.handleToGpuVa, s.pageCount)

end KfdSimState

/-! ### The property -/

structure KfdTablesSound (s : KfdSimState) : Prop where
  handles : s.pageCount.toNat = s.handleToGpuVa.keys.length
  addresses : s.pageCount.toNat = s.gpuVaToPfn.keys.length
  frames : ∀ va va' pfn, s.gpuVaToPfn.lookup va = some pfn → s.gpuVaToPfn.lookup va' = some pfn →
    va = va'

/-- A request that fails changes no table. -/
def KfdFailsCleanly (s : KfdSimState) (request : KfdRequest) : Prop :=
  (s.call request).1 = false → (s.step request).tables = s.tables

/-- The checks that a map request passes. -/
def KfdMapAccepted (s : KfdSimState) (args : GpuMapMemoryArgs) : Prop :=
  args.size ≠ 0 ∧ args.nDevices ≠ 0 ∧ args.nDevices ≤ 8 ∧ s.pm.isSome = true

/-- A handle is not mapped twice, and the page whose turn it is has been given back. -/
def KfdTablesGuard (s : KfdSimState) : KfdRequest → Prop
  | .map (some args) =>
    KfdMapAccepted s args →
      s.handleToGpuVa.lookup args.handle = none ∧
        s.nextOffset / kfdPageSize ∉ s.gpuVaToPfn.entries.map Sigma.snd
  | _ => True

/-! ### What a request does -/

/-- The address and the page of the next map request belong together, and the page fits. -/
structure KfdReady (s : KfdSimState) : Prop where
  memSize : ∀ pm, s.pm = some pm → pm.deviceMemSize = kfdDeviceMemSize
  aligned : s.nextGpuVa.toNat % 4096 = 0
  offset : s.nextOffset = (s.nextGpuVa - gpuVaBase) % kfdDeviceMemSize

namespace KfdSimState

variable {s : KfdSimState}

/-- The tracker after the page has been brought in. -/
def pageIn (s : KfdSimState) : Option SimPageMigration :=
  s.pm.map fun pm => (pm.copyIn s.nextOffset (fun _ => 0) kfdPageSize).recordDevice s.nextOffset

/-- The state after an accepted map request. -/
def mapped (s : KfdSimState) (args : GpuMapMemoryArgs) : KfdSimState where
  pm := s.pageIn
  gpuVaToPfn := s.gpuVaToPfn.insert s.nextGpuVa (s.nextOffset / kfdPageSize)
  handleToGpuVa := s.handleToGpuVa.insert args.handle s.nextGpuVa
  pageCount := s.pageCount + 1
  nextGpuVa := s.nextGpuVa + gpuVaStride
  nextOffset := (s.nextOffset + kfdPageSize) % kfdDeviceMemSize
  mmShim := s.mmShim.map fun m => registerPages m s.nextGpuVa args.size

/-- The state after the unmap of a mapped handle. -/
def unmapped (s : KfdSimState) (handle : UInt32) (gpuVa : UInt64) : KfdSimState :=
  { s with
    handleToGpuVa := s.handleToGpuVa.erase handle
    gpuVaToPfn := s.gpuVaToPfn.erase gpuVa
    pageCount := if 0 < s.pageCount then s.pageCount - 1 else s.pageCount
    mmShim := s.mmShim.map fun m => (m.unregisterVma gpuVa (gpuVa + kfdPageSize)).2 }

end KfdSimState

namespace KfdReady

variable {s : KfdSimState}

theorem offset_toNat (h : KfdReady s) :
    s.nextOffset.toNat % 4096 = 0 ∧ s.nextOffset.toNat + 4096 ≤ 16 * 1024 * 1024 := by
  have haligned := h.aligned
  have hoffset : s.nextOffset.toNat =
      (2 ^ 64 - 0x100000 + s.nextGpuVa.toNat) % 2 ^ 64 % (16 * 1024 * 1024) := by
    rw [h.offset, UInt64.toNat_mod, UInt64.toNat_sub]
    rfl
  omega

theorem fits (h : KfdReady s) {pm : SimPageMigration} (hpm : s.pm = some pm) :
    ¬pm.deviceMemSize < s.nextOffset + kfdPageSize := by
  have hbound := h.offset_toNat.2
  have hpage : kfdPageSize.toNat = 4096 := rfl
  have hmem : kfdDeviceMemSize.toNat = 16 * 1024 * 1024 := rfl
  rw [h.memSize pm hpm, UInt64.lt_iff_toNat_lt, UInt64.toNat_add, hpage, hmem]
  omega

theorem migrate (h : KfdReady s) {pm : SimPageMigration} (hpm : s.pm = some pm) :
    pm.migrateToDevice s.nextOffset (fun _ => 0) kfdPageSize =
      (0, (pm.copyIn s.nextOffset (fun _ => 0) kfdPageSize).recordDevice s.nextOffset) := by
  unfold SimPageMigration.migrateToDevice MigrationSystem.simPmMigrateToDevice
  simp only [if_neg (h.fits hpm), Bool.false_eq_true, if_false]

theorem map_accepted (h : KfdReady s) {args : GpuMapMemoryArgs} (hargs : KfdMapAccepted s args) :
    s.kfdSimHandleMapMemory (some args) = (.ok ⟨s.nextGpuVa, args.nDevices⟩, s.mapped args) := by
  obtain ⟨hsize, hdev, hmax, hpm⟩ := hargs
  obtain ⟨pm, hpm⟩ := Option.isSome_iff_exists.mp hpm
  have hchecks : ¬(args.nDevices = 0 ∨ 8 < args.nDevices) :=
    not_or.mpr ⟨hdev, UInt32.not_lt.mpr hmax⟩
  have hpfn : ((pm.copyIn s.nextOffset (fun _ => 0) kfdPageSize).recordDevice
      s.nextOffset).simPmLookupPfn s.nextOffset = s.nextOffset / kfdPageSize := by
    simp [SimPageMigration.simPmLookupPfn, SimPageMigration.recordDevice, pfnOf, kfdPageSize]
  unfold KfdSimState.kfdSimHandleMapMemory
  simp only [if_neg hsize, if_neg hchecks, hpm, h.migrate hpm, hpfn, KfdSimState.mapped,
    KfdSimState.pageIn, Option.map_some]
  rfl

end KfdReady

namespace KfdSimState

variable {s : KfdSimState}

theorem map_rejected (s : KfdSimState) (args : Option GpuMapMemoryArgs)
    (hargs : ∀ a, args = some a → ¬KfdMapAccepted s a) :
    ∃ rc, s.kfdSimHandleMapMemory args = (.error rc, s) := by
  cases args with
  | none => exact ⟨-1, rfl⟩
  | some args =>
    have hnot := hargs args rfl
    unfold kfdSimHandleMapMemory
    simp only
    split_ifs with hsize hchecks
    · exact ⟨-22, rfl⟩
    · exact ⟨-22, rfl⟩
    · rw [not_or] at hchecks
      cases hpm : s.pm with
      | none => exact ⟨-19, rfl⟩
      | some pm =>
        have hsome : s.pm.isSome = true := by
          rw [hpm]
          rfl
        exact absurd ⟨hsize, hchecks.1, UInt32.not_lt.mp hchecks.2, hsome⟩ hnot

/-- An unmap request changes the state only when it is accepted and finds the handle mapped. -/
theorem unmap_cases (s : KfdSimState) (args : Option GpuUnmapMemoryArgs) :
    (s.kfdSimHandleUnmapMemory args).2 = s ∨
      ∃ a gpuVa, args = some a ∧ s.handleToGpuVa.lookup a.handle = some gpuVa ∧
        s.kfdSimHandleUnmapMemory args = (.ok a.nDevices, s.unmapped a.handle gpuVa) := by
  cases args with
  | none => exact .inl rfl
  | some a =>
    simp only [kfdSimHandleUnmapMemory]
    by_cases hchecks : a.nDevices = 0 ∨ 8 < a.nDevices
    · rw [if_pos hchecks]
      exact .inl rfl
    by_cases hpm : s.pm.isNone
    · rw [if_neg hchecks, if_pos hpm]
      exact .inl rfl
    rw [if_neg hchecks, if_neg hpm]
    cases hva : s.handleToGpuVa.lookup a.handle with
    | none => exact .inl rfl
    | some gpuVa => exact .inr ⟨a, gpuVa, rfl, hva, rfl⟩

end KfdSimState

/-! ### The pages go with the addresses -/

namespace KfdReady

variable {s : KfdSimState}

/-- A map request is accepted, or leaves the state as it is. -/
theorem map_cases (h : KfdReady s) (args : Option GpuMapMemoryArgs) :
    (∃ a, args = some a ∧ KfdMapAccepted s a ∧ s.kfdSimHandleMapMemory args =
      (.ok ⟨s.nextGpuVa, a.nDevices⟩, s.mapped a)) ∨
        ∃ rc, s.kfdSimHandleMapMemory args = (.error rc, s) := by
  by_cases hargs : ∃ a, args = some a ∧ KfdMapAccepted s a
  · obtain ⟨a, rfl, ha⟩ := hargs
    exact .inl ⟨a, rfl, ha, h.map_accepted ha⟩
  · exact .inr (KfdSimState.map_rejected s args fun a ha hacc => hargs ⟨a, ha, hacc⟩)

theorem initial : KfdReady .initial where
  memSize := fun _ hpm => by cases hpm
  aligned := rfl
  offset := rfl

theorem reset (s : KfdSimState) : KfdReady s.kfdSimReset where
  memSize := fun _ hpm => by
    cases hpm
    rfl
  aligned := KfdReady.initial.aligned
  offset := KfdReady.initial.offset

theorem mapped (h : KfdReady s) (args : GpuMapMemoryArgs) : KfdReady (s.mapped args) where
  memSize := by
    intro pm hpm
    obtain ⟨before, hbefore, rfl⟩ := Option.map_eq_some_iff.mp hpm
    exact h.memSize before hbefore
  aligned := by
    have haligned := h.aligned
    show (s.nextGpuVa + gpuVaStride).toNat % 4096 = 0
    rw [UInt64.toNat_add, show gpuVaStride.toNat = 4096 from rfl]
    omega
  offset := by
    have hsub (a : UInt64) : (a - gpuVaBase).toNat = (2 ^ 64 - 0x100000 + a.toNat) % 2 ^ 64 := by
      rw [UInt64.toNat_sub]
      rfl
    have hmem : kfdDeviceMemSize.toNat = 16 * 1024 * 1024 := rfl
    have hpage : kfdPageSize.toNat = 4096 := rfl
    have hstride : gpuVaStride.toNat = 4096 := rfl
    show (s.nextOffset + kfdPageSize) % kfdDeviceMemSize =
      (s.nextGpuVa + gpuVaStride - gpuVaBase) % kfdDeviceMemSize
    rw [← UInt64.toNat_inj, h.offset]
    simp only [UInt64.toNat_mod, UInt64.toNat_add, hsub, hmem, hpage, hstride]
    omega

theorem unmapped (h : KfdReady s) (handle : UInt32) (gpuVa : UInt64) :
    KfdReady (s.unmapped handle gpuVa) :=
  { h with }

end KfdReady

/-! ### The invariant -/

/-- The page of the address. -/
def kfdFrameOf (gpuVa : UInt64) : UInt64 := (gpuVa - gpuVaBase) % kfdDeviceMemSize / kfdPageSize

/-- Every handle has an address of its own in the other table, and every address its page. -/
structure KfdInv (s : KfdSimState) : Prop extends KfdReady s, KfdTablesSound s where
  backed : ∀ handle va, s.handleToGpuVa.lookup handle = some va → va ∈ s.gpuVaToPfn
  distinct : ∀ handle handle' va, s.handleToGpuVa.lookup handle = some va →
    s.handleToGpuVa.lookup handle' = some va → handle = handle'
  frameOf : ∀ va pfn, s.gpuVaToPfn.lookup va = some pfn → pfn = kfdFrameOf va

theorem kfdFrameOf_lt (gpuVa : UInt64) : (kfdFrameOf gpuVa).toNat < 4096 := by
  have hmem : kfdDeviceMemSize.toNat = 16 * 1024 * 1024 := rfl
  have hpage : kfdPageSize.toNat = 4096 := rfl
  rw [kfdFrameOf, UInt64.toNat_div, UInt64.toNat_mod, hmem, hpage]
  omega

section AList

variable {α β : Type*} [DecidableEq α] (s : AList fun _ : α => β) {a : α}

theorem length_keys_insert_of_notMem (h : a ∉ s) (b : β) :
    (s.insert a b).keys.length = s.keys.length + 1 := by
  rw [AList.keys_insert, List.length_cons, List.erase_of_not_mem (mt AList.mem_keys.mpr h)]

theorem length_keys_insert_of_mem (h : a ∈ s) (b : β) :
    (s.insert a b).keys.length = s.keys.length := by
  rw [AList.keys_insert, List.length_cons, List.length_erase_of_mem (AList.mem_keys.mp h)]
  exact Nat.sub_add_cancel (List.length_pos_of_mem (AList.mem_keys.mp h))

theorem length_keys_erase_of_mem (h : a ∈ s) :
    (s.erase a).keys.length + 1 = s.keys.length := by
  rw [AList.keys_erase, List.length_erase_of_mem (AList.mem_keys.mp h)]
  exact Nat.sub_add_cancel (List.length_pos_of_mem (AList.mem_keys.mp h))

theorem lookup_insert_eq (a' : α) (b : β) :
    (s.insert a b).lookup a' = if a' = a then some b else s.lookup a' := by
  split_ifs with h
  · rw [h, AList.lookup_insert]
  · exact AList.lookup_insert_ne h

theorem lookup_erase_eq (a' : α) :
    (s.erase a).lookup a' = if a' = a then none else s.lookup a' := by
  split_ifs with h
  · rw [h, AList.lookup_erase]
  · exact AList.lookup_erase_ne h

theorem mem_values_iff (b : β) :
    b ∈ s.entries.map Sigma.snd ↔ ∃ a, s.lookup a = some b := by
  constructor
  · intro h
    obtain ⟨⟨a, _⟩, hmem, rfl⟩ := List.mem_map.mp h
    exact ⟨a, AList.mem_lookup_iff.mpr hmem⟩
  · rintro ⟨a, ha⟩
    exact List.mem_map.mpr ⟨⟨a, b⟩, AList.mem_lookup_iff.mp ha, rfl⟩

end AList

namespace KfdInv

variable {s : KfdSimState}

theorem initial : KfdInv .initial where
  toKfdReady := KfdReady.initial
  handles := rfl
  addresses := rfl
  frames := fun _ _ _ h => by cases h
  backed := fun _ _ h => by cases h
  distinct := fun _ _ _ h => by cases h
  frameOf := fun _ _ h => by cases h

theorem reset (s : KfdSimState) : KfdInv s.kfdSimReset where
  toKfdReady := KfdReady.reset s
  handles := rfl
  addresses := rfl
  frames := fun _ _ _ h => by cases h
  backed := fun _ _ h => by cases h
  distinct := fun _ _ _ h => by cases h
  frameOf := fun _ _ h => by cases h

/-- There are at most as many mapped addresses as pages. -/
theorem pageCount_le (h : KfdInv s) : s.pageCount.toNat ≤ 4096 := by
  have hlookup (va : UInt64) (hva : va ∈ s.gpuVaToPfn.keys) :
      s.gpuVaToPfn.lookup va = some (kfdFrameOf va) := by
    obtain ⟨pfn, hpfn⟩ := Option.isSome_iff_exists.mp
      (AList.lookup_isSome.mpr (AList.mem_keys.mpr hva))
    rw [hpfn, h.frameOf va pfn hpfn]
  have hnodup : (s.gpuVaToPfn.keys.map fun va => (kfdFrameOf va).toNat).Nodup := by
    refine List.Nodup.map_on ?_ s.gpuVaToPfn.keys_nodup
    intro va hva va' hva' heq
    have hframe : kfdFrameOf va = kfdFrameOf va' := UInt64.toNat_inj.mp heq
    refine h.frames va va' (kfdFrameOf va) (hlookup va hva) ?_
    rw [hframe]
    exact hlookup va' hva'
  have hrange : (s.gpuVaToPfn.keys.map fun va => (kfdFrameOf va).toNat) ⊆ List.range 4096 := by
    intro n hn
    obtain ⟨va, -, rfl⟩ := List.mem_map.mp hn
    exact List.mem_range.mpr (kfdFrameOf_lt va)
  have hlength := (List.subperm_of_subset hnodup hrange).length_le
  rw [List.length_map, List.length_range] at hlength
  rw [h.addresses]
  exact hlength

/-- The page whose turn it is is that of the next address. -/
theorem nextFrame (h : KfdReady s) : s.nextOffset / kfdPageSize = kfdFrameOf s.nextGpuVa := by
  rw [h.offset]
  rfl

theorem count_succ (h : KfdInv s) : (s.pageCount + 1).toNat = s.pageCount.toNat + 1 := by
  have hle := h.pageCount_le
  rw [UInt32.toNat_add, show (1 : UInt32).toNat = 1 from rfl]
  omega

theorem mapped (h : KfdInv s) (args : GpuMapMemoryArgs)
    (hhandle : s.handleToGpuVa.lookup args.handle = none)
    (hpage : s.nextOffset / kfdPageSize ∉ s.gpuVaToPfn.entries.map Sigma.snd) :
    KfdInv (s.mapped args) := by
  have hframe := nextFrame h.toKfdReady
  have hnot (va : UInt64) : s.gpuVaToPfn.lookup va ≠ some (s.nextOffset / kfdPageSize) :=
    fun hva => hpage ((mem_values_iff s.gpuVaToPfn _).mpr ⟨va, hva⟩)
  -- an address that came round again would still have its page
  have hfresh : s.nextGpuVa ∉ s.gpuVaToPfn := by
    intro hmem
    obtain ⟨pfn, hpfn⟩ := Option.isSome_iff_exists.mp (AList.lookup_isSome.mpr hmem)
    refine hnot s.nextGpuVa ?_
    rw [hframe, hpfn, h.frameOf _ pfn hpfn]
  have hnew : args.handle ∉ s.handleToGpuVa := AList.lookup_eq_none.mp hhandle
  have hva (handle : UInt32) : s.handleToGpuVa.lookup handle ≠ some s.nextGpuVa :=
    fun hmapped => hfresh (h.backed handle s.nextGpuVa hmapped)
  exact {
    toKfdReady := h.toKfdReady.mapped args
    handles := by
      show (s.pageCount + 1).toNat = (s.handleToGpuVa.insert args.handle s.nextGpuVa).keys.length
      rw [h.count_succ, length_keys_insert_of_notMem _ hnew, h.handles]
    addresses := by
      show (s.pageCount + 1).toNat = (s.gpuVaToPfn.insert s.nextGpuVa _).keys.length
      rw [h.count_succ, length_keys_insert_of_notMem _ hfresh, h.addresses]
    frames := by
      intro va va' pfn hpfn hpfn'
      replace hpfn : (s.gpuVaToPfn.insert s.nextGpuVa _).lookup va = some pfn := hpfn
      replace hpfn' : (s.gpuVaToPfn.insert s.nextGpuVa _).lookup va' = some pfn := hpfn'
      rw [lookup_insert_eq] at hpfn hpfn'
      split_ifs at hpfn hpfn' with hv hv' hv'
      · rw [hv, hv']
      · rw [← hpfn] at hpfn'
        exact absurd hpfn' (hnot va')
      · rw [← hpfn'] at hpfn
        exact absurd hpfn (hnot va)
      · exact h.frames va va' pfn hpfn hpfn'
    backed := by
      intro handle va hmapped
      replace hmapped : (s.handleToGpuVa.insert args.handle s.nextGpuVa).lookup handle = some va :=
        hmapped
      rw [lookup_insert_eq] at hmapped
      show va ∈ s.gpuVaToPfn.insert s.nextGpuVa _
      rw [AList.mem_insert]
      split_ifs at hmapped with hh
      · exact .inl (Option.some.inj hmapped).symm
      · exact .inr (h.backed handle va hmapped)
    distinct := by
      intro handle handle' va hm hm'
      replace hm : (s.handleToGpuVa.insert args.handle s.nextGpuVa).lookup handle = some va := hm
      replace hm' : (s.handleToGpuVa.insert args.handle s.nextGpuVa).lookup handle' = some va := hm'
      rw [lookup_insert_eq] at hm hm'
      split_ifs at hm hm' with hh hh' hh'
      · rw [hh, hh']
      · rw [← hm] at hm'
        exact absurd hm' (hva handle')
      · rw [← hm'] at hm
        exact absurd hm (hva handle)
      · exact h.distinct handle handle' va hm hm'
    frameOf := by
      intro va pfn hpfn
      replace hpfn : (s.gpuVaToPfn.insert s.nextGpuVa _).lookup va = some pfn := hpfn
      rw [lookup_insert_eq] at hpfn
      split_ifs at hpfn with hv
      · rw [hv, ← hframe]
        exact (Option.some.inj hpfn).symm
      · exact h.frameOf va pfn hpfn }

theorem unmapped (h : KfdInv s) {handle : UInt32} {gpuVa : UInt64}
    (hmapped : s.handleToGpuVa.lookup handle = some gpuVa) :
    KfdInv (s.unmapped handle gpuVa) := by
  have hmem : handle ∈ s.handleToGpuVa := by
    rw [← AList.lookup_isSome, hmapped]
    rfl
  have hva : gpuVa ∈ s.gpuVaToPfn := h.backed handle gpuVa hmapped
  have hhandles := length_keys_erase_of_mem s.handleToGpuVa hmem
  have haddresses := length_keys_erase_of_mem s.gpuVaToPfn hva
  have hcount : (s.unmapped handle gpuVa).pageCount.toNat + 1 = s.pageCount.toNat := by
    have hpos : 0 < s.pageCount.toNat := by
      rw [h.handles, ← hhandles]
      exact Nat.succ_pos _
    show (if 0 < s.pageCount then s.pageCount - 1 else s.pageCount).toNat + 1 = _
    have hle : (1 : UInt32) ≤ s.pageCount := by
      rw [UInt32.le_iff_toNat_le]
      exact hpos
    have hnonzero : 0 < s.pageCount := UInt32.lt_iff_toNat_lt.mpr hpos
    rw [if_pos hnonzero, UInt32.toNat_sub_of_le _ _ hle]
    exact Nat.sub_add_cancel hpos
  exact {
    toKfdReady := h.toKfdReady.unmapped handle gpuVa
    handles := by
      have hbefore := h.handles
      show _ = (s.handleToGpuVa.erase handle).keys.length
      omega
    addresses := by
      have hbefore := h.addresses
      show _ = (s.gpuVaToPfn.erase gpuVa).keys.length
      omega
    frames := by
      intro va va' pfn hpfn hpfn'
      replace hpfn : (s.gpuVaToPfn.erase gpuVa).lookup va = some pfn := hpfn
      replace hpfn' : (s.gpuVaToPfn.erase gpuVa).lookup va' = some pfn := hpfn'
      rw [lookup_erase_eq] at hpfn hpfn'
      split_ifs at hpfn hpfn'
      exact h.frames va va' pfn hpfn hpfn'
    backed := by
      intro handle' va hm
      replace hm : (s.handleToGpuVa.erase handle).lookup handle' = some va := hm
      rw [lookup_erase_eq] at hm
      split_ifs at hm with hh
      refine AList.mem_erase.mpr ⟨?_, h.backed handle' va hm⟩
      rintro rfl
      exact hh (h.distinct handle' handle va hm hmapped)
    distinct := by
      intro handle' handle'' va hm hm'
      replace hm : (s.handleToGpuVa.erase handle).lookup handle' = some va := hm
      replace hm' : (s.handleToGpuVa.erase handle).lookup handle'' = some va := hm'
      rw [lookup_erase_eq] at hm hm'
      split_ifs at hm hm'
      exact h.distinct handle' handle'' va hm hm'
    frameOf := by
      intro va pfn hpfn
      replace hpfn : (s.gpuVaToPfn.erase gpuVa).lookup va = some pfn := hpfn
      rw [lookup_erase_eq] at hpfn
      split_ifs at hpfn
      exact h.frameOf va pfn hpfn }

theorem step (h : KfdInv s) (request : KfdRequest) (hG : KfdTablesGuard s request) :
    KfdInv (s.step request) := by
  cases request with
  | reset => exact reset s
  | setMmShim mmShim => exact { h with }
  | map args =>
    show KfdInv (s.kfdSimHandleMapMemory args).2
    rcases h.toKfdReady.map_cases args with ⟨a, rfl, ha, hcall⟩ | ⟨rc, hcall⟩
    · obtain ⟨hhandle, hpage⟩ := hG ha
      rw [hcall]
      exact h.mapped a hhandle hpage
    · rw [hcall]
      exact h
  | unmap args =>
    show KfdInv (s.kfdSimHandleUnmapMemory args).2
    rcases s.unmap_cases args with hsame | ⟨a, gpuVa, -, hmapped, hcall⟩
    · rw [hsame]
      exact h
    · rw [hcall]
      exact h.unmapped hmapped

end KfdInv

/-! ### Which runs keep the tables in step -/

theorem KfdReady.failsCleanly {s : KfdSimState} (h : KfdReady s) (request : KfdRequest) :
    KfdFailsCleanly s request := by
  intro hfail
  cases request with
  | reset => cases hfail
  | setMmShim mmShim => cases hfail
  | map args =>
    rcases h.map_cases args with ⟨a, rfl, -, hcall⟩ | ⟨rc, hcall⟩
    · have hok : (s.kfdSimHandleMapMemory (some a)).1.toBool = false := hfail
      rw [hcall] at hok
      cases hok
    · exact congrArg (fun r => r.2.tables) hcall
  | unmap args =>
    rcases s.unmap_cases args with hsame | ⟨a, gpuVa, -, -, hcall⟩
    · exact congrArg KfdSimState.tables hsame
    · have hok : (s.kfdSimHandleUnmapMemory args).1.toBool = false := hfail
      rw [hcall] at hok
      cases hok

/-- A map request after which the tables are in step found its handle unmapped and its page free. -/
theorem KfdInv.guard {s : KfdSimState} (h : KfdInv s) (request : KfdRequest)
    (hsound : KfdTablesSound (s.step request)) : KfdTablesGuard s request := by
  cases request with
  | reset => trivial
  | setMmShim mmShim => trivial
  | unmap args => trivial
  | map args =>
    cases args with
    | none => trivial
    | some a =>
      intro ha
      have hstep : s.step (.map (some a)) = s.mapped a :=
        congrArg (fun r => r.2) (h.map_accepted ha)
      rw [hstep] at hsound
      have hcount : (s.mapped a).pageCount.toNat = s.pageCount.toNat + 1 := h.count_succ
      constructor
      · by_contra hmapped
        have hmem : a.handle ∈ s.handleToGpuVa := not_not.mp (mt AList.lookup_eq_none.mpr hmapped)
        have hlength : (s.mapped a).handleToGpuVa.keys.length = s.handleToGpuVa.keys.length :=
          length_keys_insert_of_mem s.handleToGpuVa hmem s.nextGpuVa
        have hafter := hsound.handles
        have hbefore := h.handles
        omega
      · intro hlive
        obtain ⟨va, hva⟩ := (mem_values_iff s.gpuVaToPfn _).mp hlive
        by_cases hsame : va = s.nextGpuVa
        · have hmem : s.nextGpuVa ∈ s.gpuVaToPfn := by
            rw [← AList.lookup_isSome, ← hsame, hva]
            rfl
          have hlength : (s.mapped a).gpuVaToPfn.keys.length = s.gpuVaToPfn.keys.length :=
            length_keys_insert_of_mem s.gpuVaToPfn hmem _
          have hafter := hsound.addresses
          have hbefore := h.addresses
          omega
        · refine hsame (hsound.frames va s.nextGpuVa (s.nextOffset / kfdPageSize) ?_ ?_)
          · exact (AList.lookup_insert_ne hsame).trans hva
          · exact AList.lookup_insert s.gpuVaToPfn

/-- **The tables of the bridge stay in step exactly along the guarded runs**, and no failed request
changes them. -/
theorem kfd_tables_iff (requests : List KfdRequest) :
    (Always KfdSimState.step KfdTablesSound .initial requests ∧
        Guarded KfdSimState.step KfdFailsCleanly .initial requests) ↔
      Guarded KfdSimState.step KfdTablesGuard .initial requests :=
  always_guarded_iff (fun _ request h hG => h.step request hG) (fun _ h => h.toKfdTablesSound)
    (fun _ request h _ => h.toKfdReady.failsCleanly request)
    (fun _ request h hsound _ => h.guard request hsound) requests KfdInv.initial

/-- One handle mapped twice: two addresses for one handle. -/
theorem kfd_tables_fails :
    ¬ ∀ requests : List KfdRequest,
      Always KfdSimState.step KfdTablesSound .initial requests := by
  intro h
  have hcount :=
    (Always.last _ (h [.reset, .map (some ⟨1, 1, 4096⟩), .map (some ⟨1, 1, 4096⟩)])).handles
  revert hcount
  decide +kernel

end UsrLinuxEmu.GpuDriver
