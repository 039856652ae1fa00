import UsrLinuxEmu.GpuDriver.BoTable
import UsrLinuxEmu.GpuDriver.KfdSimBridge
import UsrLinuxEmu.Transition.Simulation

/-!
# The VMAs of the KFD mappings (`drv/gpgpu_device.cpp`, `drv/gpu_drm_driver.cpp`)

The bridge registers a mapping page by page and removes its first page; the DRM driver registers the
whole range besides, and removes the range of the buffer object.  Both have the same tracker.

* `handleMapMemory`, `gpuIoctlMapMemory` and their unmaps — the two ioctl paths;
* `VmaTracks` — an address is found exactly when it lies in a mapping;
* `VmaUndoes` — the unmap of a new mapping restores the entries;
* `mapCall`, `unmapCall` — what a request does on either path.
-/

namespace UsrLinuxEmu.GpuDriver

open UsrLinuxEmu.Kernel UsrLinuxEmu.Transition

/-! ### The two paths -/

/-- The device's ioctl handlers, and the handlers of its DRM driver. -/
inductive KfdPath where
  | gpgpu
  | drm
  deriving DecidableEq, Repr

section Paths

variable (dev : BoTable)

def handleMapMemory (s : KfdSimState) (args : Option GpuMapMemoryArgs) :
    Except Int GpuMapMemoryOut × KfdSimState :=
  match args with
  | none => (.error (-eFAULT), s)
  | some args =>
    if !dev.handleValid args.handle then (.error (-eINVAL), s)
    else s.kfdSimHandleMapMemory (some args)

def handleUnmapMemory (s : KfdSimState) (args : Option GpuUnmapMemoryArgs) :
    Except Int UInt32 × KfdSimState :=
  match args with
  | none => (.error (-eFAULT), s)
  | some args =>
    if !dev.handleValid args.handle then (.error (-eINVAL), s)
    else s.kfdSimHandleUnmapMemory (some args)

/-- `mm_shim_` of the device is the tracker of the bridge. -/
def gpuIoctlMapMemory (s : KfdSimState) (args : Option GpuMapMemoryArgs) :
    Except Int GpuMapMemoryOut × KfdSimState :=
  match args with
  | none => (.error (-eFAULT), s)
  | some args =>
    if !dev.handleValid args.handle then (.error (-eINVAL), s)
    else if args.nDevices = 0 ∨ 8 < args.nDevices then (.error (-eINVAL), s)
    else if args.size = 0 then (.error (-eINVAL), s)
    else
      match s.kfdSimHandleMapMemory (some args) with
      | (.error rc, s) => (.error rc, s)
      | (.ok out, s) =>
        (.ok out, s.kfdSimSetMmShim
          (s.mmShim.map fun m => (m.registerVma out.gpuVa (out.gpuVa + args.size) 0).2))

/-- The range of the buffer object, not that of the mapping, is removed. -/
def unregisterBo (m : UsMmShim) (handle : UInt32) : UsMmShim :=
  match dev.boMap handle with
  | some info => (m.unregisterVma info.gpuVa (info.gpuVa + info.size)).2
  | none => m

def gpuIoctlUnmapMemory (s : KfdSimState) (args : Option GpuUnmapMemoryArgs) :
    Except Int UInt32 × KfdSimState :=
  match args with
  | none => (.error (-eFAULT), s)
  | some args =>
    if !dev.handleValid args.handle then (.error (-eINVAL), s)
    else if args.nDevices = 0 ∨ 8 < args.nDevices then (.error (-eINVAL), s)
    else
      match s.kfdSimHandleUnmapMemory (some args) with
      | (.error rc, s) => (.error rc, s)
      | (.ok n, s) =>
        (.ok n, s.kfdSimSetMmShim (s.mmShim.map fun m => unregisterBo dev m args.handle))

def mapMemory (path : KfdPath) (s : KfdSimState) (args : Option GpuMapMemoryArgs) :
    Except Int GpuMapMemoryOut × KfdSimState :=
  match path with
  | .gpgpu => handleMapMemory dev s args
  | .drm => gpuIoctlMapMemory dev s args

def unmapMemory (path : KfdPath) (s : KfdSimState) (args : Option GpuUnmapMemoryArgs) :
    Except Int UInt32 × KfdSimState :=
  match path with
  | .gpgpu => handleUnmapMemory dev s args
  | .drm => gpuIoctlUnmapMemory dev s args

end Paths

inductive VmaRequest where
  | map (args : Option GpuMapMemoryArgs)
  | unmap (args : Option GpuUnmapMemoryArgs)

/-! ### Mappings and their sizes -/

/-- The bridge, with the size of the last mapping of each handle. -/
abbrev SizedKfd := (UInt32 → UInt64) × KfdSimState

section Runs

variable (path : KfdPath) (dev : BoTable)

def vmaStep (s : KfdSimState) : VmaRequest → KfdSimState
  | .map args => (mapMemory dev path s args).2
  | .unmap args => (unmapMemory dev path s args).2

def noteSize (sizes : UInt32 → UInt64) (s : KfdSimState) : VmaRequest → UInt32 → UInt64
  | .map (some args) =>
    if (mapMemory dev path s (some args)).1.toBool then
      Function.update sizes args.handle args.size
    else sizes
  | _ => sizes

abbrev sizedStep : SizedKfd → VmaRequest → SizedKfd :=
  observed (vmaStep path dev) (noteSize path dev)

/-- A bridge just reset, with a new tracker bound to it. -/
def sizedStart : SizedKfd :=
  (fun _ => 0, (KfdSimState.initial.kfdSimReset).kfdSimSetMmShim (some .init))

/-- The address lies in the range of a mapping. -/
def InMapping (x : SizedKfd) (addr : UInt64) : Prop :=
  ∃ handle va, x.2.handleToGpuVa.lookup handle = some va ∧ va.toNat ≤ addr.toNat ∧
    addr.toNat < va.toNat + (x.1 handle).toNat

def VmaTracks (x : SizedKfd) : Prop :=
  ∀ m, x.2.mmShim = some m → ∀ addr, (m.findVma addr).toBool = true ↔ InMapping x addr

/-- The entries of the bound tracker. -/
def vmaSet (s : KfdSimState) : Set UsMmVma := {v | ∃ m, s.mmShim = some m ∧ v ∈ m.vmas}

/-- Unmapping a mapping just made restores the entries from before it. -/
def VmaUndoes (x : SizedKfd) : VmaRequest → Prop
  | .map (some args) =>
    (mapMemory dev path x.2 (some args)).1.toBool = true →
      vmaSet (unmapMemory dev path (mapMemory dev path x.2 (some args)).2
        (some ⟨args.handle, args.nDevices⟩)).2 = vmaSet x.2
  | _ => True

/-- No registration of the request is refused for lack of room. -/
def VmaRoom (x : SizedKfd) : VmaRequest → Prop
  | .map (some args) =>
    (mapMemory dev path x.2 (some args)).1.toBool = true → ∀ m, x.2.mmShim = some m →
      (∀ p < (KfdSimState.pagesOf args.size).toNat,
        (KfdSimState.registerPage (KfdSimState.registerFirst m x.2.nextGpuVa p)
          x.2.nextGpuVa p).1 ≠ mmEnospc) ∧
      (path = .drm → ((KfdSimState.registerPages m x.2.nextGpuVa args.size).registerVma
        x.2.nextGpuVa (x.2.nextGpuVa + args.size) 0).1 ≠ mmEnospc)
  | _ => True

/-- The removal of the buffer object's range takes no other mapping's entry. -/
def BoApart (s : KfdSimState) (handle : UInt32) : Prop :=
  path = .drm → ∀ info, dev.boMap handle = some info → info.size = kfdPageSize →
    ∀ other, s.handleToGpuVa.lookup other = some info.gpuVa → other = handle

/-- A mapping is one page, of a handle that is not mapped, at an address that no mapping has and
that is not the last page; the ranges of buffer objects stay apart. -/
def VmaGuard (x : SizedKfd) : VmaRequest → Prop
  | .map (some args) =>
    (mapMemory dev path x.2 (some args)).1.toBool = true →
      args.size = kfdPageSize ∧ x.2.handleToGpuVa.lookup args.handle = none ∧
        (∀ other, x.2.handleToGpuVa.lookup other ≠ some x.2.nextGpuVa) ∧
        x.2.nextGpuVa.toNat + 4096 < 2 ^ 64 ∧ BoApart path dev x.2 args.handle
  | .unmap (some args) =>
    (unmapMemory dev path x.2 (some args)).1.toBool = true → BoApart path dev x.2 args.handle
  | _ => True

theorem forall_lookup_iff {P : UInt32 → Prop} (t : AList fun _ : UInt32 => UInt64) (va : UInt64) :
    (∀ other, t.lookup other = some va → P other) ↔ ∀ e ∈ t.entries, e.2 = va → P e.1 := by
  constructor
  · intro h e he hva
    exact h e.1 (hva ▸ AList.mem_lookup_iff.mpr he)
  · intro h other hother
    exact h ⟨other, va⟩ (AList.mem_lookup_iff.mp hother) rfl

instance decidableVmaRoom (x : SizedKfd) : ∀ r, Decidable (VmaRoom path dev x r)
  | .map (some _) =>
    inferInstanceAs (Decidable (_ → ∀ m ∈ x.2.mmShim, (∀ p < _, _) ∧ (path = .drm → _)))
  | .map none | .unmap _ => inferInstanceAs (Decidable True)

instance decidableBoApart (s : KfdSimState) (handle : UInt32) :
    Decidable (BoApart path dev s handle) :=
  decidable_of_iff (path = .drm → ∀ info ∈ dev.boMap handle, info.size = kfdPageSize →
      ∀ e ∈ s.handleToGpuVa.entries, e.2 = info.gpuVa → e.1 = handle) <|
    imp_congr_right fun _ => forall₂_congr fun _ _ => imp_congr_right fun _ =>
      (forall_lookup_iff (P := fun other => other = handle) _ _).symm

instance decidableVmaGuard (x : SizedKfd) : ∀ r, Decidable (VmaGuard path dev x r)
  | .map (some args) =>
    decidable_of_iff ((mapMemory dev path x.2 (some args)).1.toBool = true →
        args.size = kfdPageSize ∧ x.2.handleToGpuVa.lookup args.handle = none ∧
          (∀ e ∈ x.2.handleToGpuVa.entries, e.2 = x.2.nextGpuVa → False) ∧
          x.2.nextGpuVa.toNat + 4096 < 2 ^ 64 ∧ BoApart path dev x.2 args.handle) <|
      imp_congr_right fun _ => and_congr_right' <| and_congr_right' <| and_congr_left' <|
        (forall_lookup_iff (P := fun _ => False) _ _).symm
  | .unmap (some args) => inferInstanceAs (Decidable (_ → BoApart path dev x.2 args.handle))
  | .map none | .unmap none => inferInstanceAs (Decidable True)

end Runs

/-! ### What a request does -/

section Calls

variable {path : KfdPath} {dev : BoTable} {s : KfdSimState}

/-- The tracker after an accepted map request. -/
def shimMapped (path : KfdPath) (m : UsMmShim) (gpuVa size : UInt64) : UsMmShim :=
  match path with
  | .gpgpu => KfdSimState.registerPages m gpuVa size
  | .drm => ((KfdSimState.registerPages m gpuVa size).registerVma gpuVa (gpuVa + size) 0).2

/-- The tracker after an accepted unmap request. -/
def shimUnmapped (path : KfdPath) (dev : BoTable) (m : UsMmShim) (handle : UInt32)
    (gpuVa : Option UInt64) : UsMmShim :=
  let m := match gpuVa with
    | some gpuVa => (m.unregisterVma gpuVa (gpuVa + kfdPageSize)).2
    | none => m
  match path with
  | .gpgpu => m
  | .drm => unregisterBo dev m handle

/-- The state after an accepted map request. -/
def vmaMapped (path : KfdPath) (s : KfdSimState) (a : GpuMapMemoryArgs) : KfdSimState :=
  (s.mapped a).kfdSimSetMmShim (s.mmShim.map fun m => shimMapped path m s.nextGpuVa a.size)

/-- The tables after an accepted unmap request. -/
def tablesUnmapped (s : KfdSimState) (handle : UInt32) : KfdSimState :=
  match s.handleToGpuVa.lookup handle with
  | some gpuVa => s.unmapped handle gpuVa
  | none => s

def vmaUnmapped (path : KfdPath) (dev : BoTable) (s : KfdSimState) (handle : UInt32) :
    KfdSimState :=
  (tablesUnmapped s handle).kfdSimSetMmShim
    (s.mmShim.map fun m => shimUnmapped path dev m handle (s.handleToGpuVa.lookup handle))

inductive MapCall (path : KfdPath) (dev : BoTable) (s : KfdSimState) :
    Option GpuMapMemoryArgs → Bool → KfdSimState → Prop
  | rejected (args : Option GpuMapMemoryArgs) : MapCall path dev s args false s
  | accepted (a : GpuMapMemoryArgs) (hargs : KfdMapAccepted s a)
      (hvalid : dev.handleValid a.handle = true) :
      MapCall path dev s (some a) true (vmaMapped path s a)

inductive UnmapCall (path : KfdPath) (dev : BoTable) (s : KfdSimState) :
    Option GpuUnmapMemoryArgs → Bool → KfdSimState → Prop
  | rejected (args : Option GpuUnmapMemoryArgs) : UnmapCall path dev s args false s
  | accepted (a : GpuUnmapMemoryArgs) :
      UnmapCall path dev s (some a) true (vmaUnmapped path dev s a.handle)

theorem mapCall (path : KfdPath) (dev : BoTable) (h : KfdReady s) (args : Option GpuMapMemoryArgs) :
    MapCall path dev s args (mapMemory dev path s args).1.toBool
      (mapMemory dev path s args).2 := by
  cases args with
  | none => cases path <;> exact .rejected none
  | some a =>
    by_cases hvalid : dev.handleValid a.handle = true
    swap
    · rw [Bool.not_eq_true] at hvalid
      cases path <;> simp only [mapMemory, handleMapMemory, gpuIoctlMapMemory, hvalid] <;>
        exact .rejected (some a)
    by_cases hargs : KfdMapAccepted s a
    · have hcall := h.map_accepted hargs
      have hstep : MapCall path dev s (some a) true (vmaMapped path s a) :=
        .accepted a hargs hvalid
      obtain ⟨hsize, hdev, hmax, -⟩ := hargs
      have hchecks : ¬(a.nDevices = 0 ∨ 8 < a.nDevices) :=
        not_or.mpr ⟨hdev, UInt32.not_lt.mpr hmax⟩
      cases path with
      | gpgpu =>
        simp only [mapMemory, handleMapMemory, hvalid, hcall]
        exact hstep
      | drm =>
        simp only [mapMemory, gpuIoctlMapMemory, hvalid, hcall, if_neg hchecks, if_neg hsize,
          KfdSimState.mapped, KfdSimState.kfdSimSetMmShim, Option.map_map]
        exact hstep
    · obtain ⟨rc, hcall⟩ := KfdSimState.map_rejected s (some a)
        fun b hb => by
          cases hb
          exact hargs
      cases path with
      | gpgpu =>
        simp only [mapMemory, handleMapMemory, hvalid, hcall]
        exact .rejected (some a)
      | drm =>
        simp only [mapMemory, gpuIoctlMapMemory, hvalid, hcall]
        simp only [Bool.not_true, Bool.false_eq_true, if_false]
        split_ifs <;> exact .rejected (some a)

/-- What the bridge makes of an unmap request. -/
theorem kfdUnmap_cases (dev : BoTable) (s : KfdSimState) (a : GpuUnmapMemoryArgs) :
    (∃ rc, s.kfdSimHandleUnmapMemory (some a) = (.error rc, s)) ∨
      s.kfdSimHandleUnmapMemory (some a) = (.ok a.nDevices,
        (tablesUnmapped s a.handle).kfdSimSetMmShim
          (s.mmShim.map fun m => shimUnmapped .gpgpu dev m a.handle
            (s.handleToGpuVa.lookup a.handle))) := by
  simp only [KfdSimState.kfdSimHandleUnmapMemory, tablesUnmapped, shimUnmapped]
  by_cases hchecks : a.nDevices = 0 ∨ 8 < a.nDevices
  · rw [if_pos hchecks]
    exact .inl ⟨-22, rfl⟩
  by_cases hpm : s.pm.isNone
  · rw [if_neg hchecks, if_pos hpm]
    exact .inl ⟨-19, rfl⟩
  rw [if_neg hchecks, if_neg hpm]
  cases s.handleToGpuVa.lookup a.handle with
  | some gpuVa => exact .inr rfl
  | none =>
    refine .inr ?_
    simp [KfdSimState.kfdSimSetMmShim]

theorem unmapCall (path : KfdPath) (dev : BoTable) (s : KfdSimState)
    (args : Option GpuUnmapMemoryArgs) :
    UnmapCall path dev s args (unmapMemory dev path s args).1.toBool
      (unmapMemory dev path s args).2 := by
  cases args with
  | none => cases path <;> exact .rejected none
  | some a =>
    by_cases hvalid : dev.handleValid a.handle = true
    swap
    · rw [Bool.not_eq_true] at hvalid
      cases path <;> simp only [unmapMemory, handleUnmapMemory, gpuIoctlUnmapMemory, hvalid] <;>
        exact .rejected (some a)
    have hstep : UnmapCall path dev s (some a) true (vmaUnmapped path dev s a.handle) :=
      .accepted a
    rcases kfdUnmap_cases dev s a with ⟨rc, hcall⟩ | hcall
    · cases path with
      | gpgpu =>
        simp only [unmapMemory, handleUnmapMemory, hvalid, hcall]
        exact .rejected (some a)
      | drm =>
        simp only [unmapMemory, gpuIoctlUnmapMemory, hvalid, hcall]
        simp only [Bool.not_true, Bool.false_eq_true, if_false]
        split_ifs <;> exact .rejected (some a)
    · cases path with
      | gpgpu =>
        simp only [unmapMemory, handleUnmapMemory, hvalid, hcall]
        exact hstep
      | drm =>
        simp only [unmapMemory, gpuIoctlUnmapMemory, hvalid, hcall,
          KfdSimState.kfdSimSetMmShim, Option.map_map]
        simp only [Bool.not_true, Bool.false_eq_true, if_false]
        split_ifs
        · exact .rejected (some a)
        · exact hstep

theorem lookup_vmaMapped (path : KfdPath) (s : KfdSimState) (a : GpuMapMemoryArgs)
    (handle : UInt32) :
    (vmaMapped path s a).handleToGpuVa.lookup handle =
      if handle = a.handle then some s.nextGpuVa else s.handleToGpuVa.lookup handle :=
  lookup_insert_eq s.handleToGpuVa handle s.nextGpuVa

theorem lookup_vmaUnmapped (path : KfdPath) (dev : BoTable) (s : KfdSimState)
    (h handle : UInt32) :
    (vmaUnmapped path dev s h).handleToGpuVa.lookup handle =
      if handle = h then none else s.handleToGpuVa.lookup handle := by
  show (tablesUnmapped s h).handleToGpuVa.lookup handle = _
  unfold tablesUnmapped
  cases hva : s.handleToGpuVa.lookup h with
  | some gpuVa => exact lookup_erase_eq s.handleToGpuVa handle
  | none =>
    split_ifs with hh
    · rw [hh]
      exact hva
    · rfl

theorem ready_vmaMapped (h : KfdReady s) (a : GpuMapMemoryArgs) : KfdReady (vmaMapped path s a) :=
  { h.mapped a with }

theorem ready_vmaUnmapped (h : KfdReady s) (handle : UInt32) :
    KfdReady (vmaUnmapped path dev s handle) := by
  have htables : KfdReady (tablesUnmapped s handle) := by
    unfold tablesUnmapped
    split
    · exact h.unmapped handle _
    · exact h
  exact { htables with }

/-- A valid handle and a number of devices that the map has accepted are accepted again. -/
theorem unmap_accepted {a : GpuUnmapMemoryArgs} (hvalid : dev.handleValid a.handle = true)
    (hdev : a.nDevices ≠ 0) (hmax : a.nDevices ≤ 8) (hpm : s.pm.isSome = true) :
    (unmapMemory dev path s (some a)).2 = vmaUnmapped path dev s a.handle := by
  have hchecks : ¬(a.nDevices = 0 ∨ 8 < a.nDevices) := not_or.mpr ⟨hdev, UInt32.not_lt.mpr hmax⟩
  rcases kfdUnmap_cases dev s a with ⟨rc, hcall⟩ | hcall
  · rw [Option.isSome_iff_ne_none] at hpm
    simp only [KfdSimState.kfdSimHandleUnmapMemory, if_neg hchecks, Option.isNone_iff_eq_none,
      if_neg hpm] at hcall
    split at hcall <;> cases hcall
  · cases path with
    | gpgpu =>
      simp only [unmapMemory, handleUnmapMemory, hvalid, hcall]
      rfl
    | drm =>
      simp only [unmapMemory, gpuIoctlUnmapMemory, hvalid, hcall, if_neg hchecks,
        KfdSimState.kfdSimSetMmShim, Option.map_map]
      rfl

end Calls

end UsrLinuxEmu.GpuDriver
