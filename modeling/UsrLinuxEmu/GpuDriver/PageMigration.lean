import UsrLinuxEmu.Iommu.DmaRemap

/-!
# Page migration and the IOMMU domain (`plugins/gpu_driver/sim/page_migration.cpp`)

The tracker maps a page that it brings to the device in the domain it is attached to, and unmaps
a page that it takes back; it drops the errors of both calls.  An unmap tells the tracker through
the domain's flush hook, unless vfio has taken the flush.

* `SimPageMigration` — the tracker, with `simPmInvalidate`, `simPmMarkDirty` and its queries;
* `MigrationSystem` — the tracker and the domain, with the calls that reach both;
* `DeviceMapped`, `PagesMapped` — the two tables agree, on the frames recorded now, and on the
  frames last recorded;
* `pages_agree_iff` — the runs along which they do.
-/

namespace UsrLinuxEmu.GpuDriver

open UsrLinuxEmu.Iommu UsrLinuxEmu.Transition

/-! ### The tracker -/

inductive PageState where
  | clean
  | dirty
  | evicted
  deriving DecidableEq, Repr

/-- `deviceMemory` is addressed from the start of the buffer; a copy that runs out of it hits what
lies there.  `page_dirty` and `page_state` are maps by offset. -/
structure SimPageMigration where
  deviceMemSize : UInt64
  deviceMemory : UInt64 → UInt8
  pageState : UInt64 → Option PageState
  pageTable : UInt64 → Option UInt64
  migrationCount : Int32
  pageDirty : UInt64 → Option Bool

def pmEinval : Int := -22
def pmEfault : Int := -14

def invalidPfn : UInt64 := 0xFFFFFFFFFFFFFFFF

/-- The frame that a migration to the device records for the page. -/
def pfnOf (offset : UInt64) : UInt64 := offset / 4096

namespace SimPageMigration

def simPmCreate (deviceMemSize : UInt64) : Option SimPageMigration :=
  if deviceMemSize = 0 then none
  else some ⟨deviceMemSize, fun _ => 0, fun _ => none, fun _ => none, 0, fun _ => none⟩

def simPmIsPageOnDevice (p : SimPageMigration) (offset : UInt64) : Bool :=
  match p.pageState offset with
  | some .clean | some .dirty => true
  | some .evicted | none => false

def simPmLookupPfn (p : SimPageMigration) (offset : UInt64) : UInt64 :=
  (p.pageTable offset).getD invalidPfn

def simPmIsPageDirty (p : SimPageMigration) (offset : UInt64) : Bool :=
  (p.pageDirty offset).getD false

/-- The tracker does not unmap the page. -/
def simPmInvalidate (p : SimPageMigration) (offset : UInt64) : SimPageMigration :=
  if p.simPmIsPageOnDevice offset then
    { p with
      pageState := Function.update p.pageState offset (some .evicted)
      pageTable := Function.update p.pageTable offset none
      pageDirty := Function.update p.pageDirty offset none }
  else p

def simPmMarkDirty (p : SimPageMigration) (offset : UInt64) : SimPageMigration :=
  if p.simPmIsPageOnDevice offset then
    { p with
      pageState := Function.update p.pageState offset (some .dirty)
      pageDirty := Function.update p.pageDirty offset (some true) }
  else p

/-- `memcpy` into the device memory. -/
def copyIn (p : SimPageMigration) (offset : UInt64) (src : UInt64 → UInt8) (size : UInt64) :
    SimPageMigration :=
  { p with
    deviceMemory := fun a => if a - offset < size then src (a - offset) else p.deviceMemory a }

/-- The page is clean, on the device, in the frame of its offset. -/
def recordDevice (p : SimPageMigration) (offset : UInt64) : SimPageMigration :=
  { p with
    pageState := Function.update p.pageState offset (some .clean)
    pageTable := Function.update p.pageTable offset (some (pfnOf offset))
    migrationCount := p.migrationCount + 1 }

def recordEvicted (p : SimPageMigration) (offset : UInt64) : SimPageMigration :=
  { p with
    pageState := Function.update p.pageState offset (some .evicted)
    pageTable := Function.update p.pageTable offset none
    migrationCount := p.migrationCount + 1 }

/-- What `memcpy` reads out of the device memory. -/
def copyOut (p : SimPageMigration) (offset size : UInt64) : List UInt8 :=
  (List.range size.toNat).map fun i => p.deviceMemory (offset + UInt64.ofNat i)

end SimPageMigration

/-! ### The tracker and the domain -/

/-- `pmDomain`: the tracker's `iommu_domain` is this domain; `domainPm`: the domain's `sim_pm` is
this tracker; `flushIotlb`: the domain's operations have the default flush hook. -/
structure MigrationSystem where
  pm : SimPageMigration
  domain : IommuDomainState
  pmDomain : Bool
  domainPm : Bool
  flushIotlb : Bool

namespace MigrationSystem

/-- A new domain and a new tracker, attached to each other. -/
def attached (pm : SimPageMigration) (flushIotlb : Bool) : MigrationSystem :=
  ⟨pm, .empty, true, true, flushIotlb⟩

/-- `vfio`: the invalidation through vfio has succeeded, and the hook does not reach the tracker. -/
def defaultFlushIotlb (s : MigrationSystem) (iova : UInt64) (vfio : Bool) : MigrationSystem :=
  if vfio then s
  else if s.domainPm then { s with pm := s.pm.simPmInvalidate iova }
  else s

def eraseIova (s : MigrationSystem) (iova size : UInt64) : MigrationSystem :=
  { s with domain := (s.domain.iommuUnmap iova size).2 }

def iommuUnmap (s : MigrationSystem) (iova size : UInt64) (vfio : Bool) : Int × MigrationSystem :=
  if size ≠ iommuPageSize then (iommuErrEinval, s)
  else if s.domain.iovaToPhys iova = none then (iommuErrEnokey, s)
  else
    (size.toNat,
      if s.flushIotlb then (s.eraseIova iova size).defaultFlushIotlb iova vfio
      else s.eraseIova iova size)

def simPmMigrateToDevice (s : MigrationSystem) (offset : UInt64) (src : Option (UInt64 → UInt8))
    (size : UInt64) : Int × MigrationSystem :=
  match src with
  | none => (pmEinval, s)
  | some src =>
    if s.pm.deviceMemSize < offset + size then (pmEfault, s)
    else
      let s := { s with pm := (s.pm.copyIn offset src size).recordDevice offset }
      if s.pmDomain then
        (0, { s with domain := (s.domain.iommuMap offset (pfnOf offset <<< 12) size).2 })
      else (0, s)

/-- The bytes are those that `dst` receives. -/
def simPmMigrateToSystem (s : MigrationSystem) (offset : UInt64) (dst : Bool) (size : UInt64)
    (vfio : Bool) : (Int × List UInt8) × MigrationSystem :=
  if dst = false then ((pmEinval, []), s)
  else if s.pm.deviceMemSize < offset + size then ((pmEfault, []), s)
  else
    let s := if s.pmDomain then (s.iommuUnmap offset size vfio).2 else s
    ((0, s.pm.copyOut offset size), { s with pm := s.pm.recordEvicted offset })

end MigrationSystem

inductive MigrationOp where
  | migrateToDevice (offset : UInt64) (src : Option (UInt64 → UInt8)) (size : UInt64)
  | migrateToSystem (offset : UInt64) (dst : Bool) (size : UInt64) (vfio : Bool)
  | invalidate (offset : UInt64)
  | markDirty (offset : UInt64)
  | iommuUnmap (iova size : UInt64) (vfio : Bool)

namespace MigrationOp

/-- The page that the operation is about. -/
def page : MigrationOp → UInt64
  | migrateToDevice offset _ _ => offset
  | migrateToSystem offset _ _ _ => offset
  | invalidate offset => offset
  | markDirty offset => offset
  | iommuUnmap iova _ _ => iova

end MigrationOp

def MigrationSystem.step (s : MigrationSystem) : MigrationOp → MigrationSystem
  | .migrateToDevice offset src size => (s.simPmMigrateToDevice offset src size).2
  | .migrateToSystem offset dst size vfio => (s.simPmMigrateToSystem offset dst size vfio).2
  | .invalidate offset => { s with pm := s.pm.simPmInvalidate offset }
  | .markDirty offset => { s with pm := s.pm.simPmMarkDirty offset }
  | .iommuUnmap iova size vfio => (s.iommuUnmap iova size vfio).2

/-! ### Agreement -/

/-- A tracked page is on the device exactly when the domain maps its address to the frame that
the tracker has recorded for it. -/
def DeviceMapped (s : MigrationSystem) : Prop :=
  ∀ offset, s.pm.pageState offset ≠ none →
    (s.pm.simPmIsPageOnDevice offset = true ↔
      ∃ pfn, s.pm.pageTable offset = some pfn ∧
        s.domain.iovaToPhys offset = some (pfn <<< 12))

/-- The same for the frame that the tracker last recorded, also when it has dropped the record. -/
def PagesMapped (s : MigrationSystem) : Prop :=
  ∀ offset, s.pm.pageState offset ≠ none →
    (s.pm.simPmIsPageOnDevice offset = true ↔
      s.domain.iovaToPhys offset = some (pfnOf offset <<< 12))

/-- The call returns success. -/
def Succeeds (s : MigrationSystem) (offset size : UInt64) : Prop :=
  offset + size ≤ s.pm.deviceMemSize

instance (s : MigrationSystem) (offset size : UInt64) : Decidable (Succeeds s offset size) :=
  inferInstanceAs (Decidable (offset + size ≤ s.pm.deviceMemSize))

/-- A page brought to the device is one page, and aligned, or the domain maps it already; the
unmap of a page on the device tells the tracker. -/
def DeviceGuard (s : MigrationSystem) : MigrationOp → Prop
  | .migrateToDevice offset src size =>
    src.isSome → Succeeds s offset size →
      s.domain.iovaToPhys offset ≠ none ∨ size = iommuPageSize ∧ offset &&& iommuPageMask = 0
  | .iommuUnmap iova size vfio =>
    s.pm.simPmIsPageOnDevice iova = true → size = iommuPageSize →
      s.flushIotlb = true ∧ vfio = false
  | _ => True

/-- Besides, a page that the domain maps is taken back as one page, and no page on the device is
invalidated other than by an unmap. -/
def PagesGuard (s : MigrationSystem) (op : MigrationOp) : Prop :=
  DeviceGuard s op ∧
    match op with
    | .migrateToSystem offset dst size _ =>
      dst = true → Succeeds s offset size → s.domain.iovaToPhys offset ≠ none →
        size = iommuPageSize
    | .invalidate offset => s.pm.simPmIsPageOnDevice offset = false
    | .migrateToDevice _ _ _ | .markDirty _ | .iommuUnmap _ _ _ => True

instance decidableDeviceGuard (s : MigrationSystem) : ∀ op, Decidable (DeviceGuard s op)
  | .migrateToDevice offset src size =>
    inferInstanceAs (Decidable (src.isSome → Succeeds s offset size →
      s.domain.iovaToPhys offset ≠ none ∨ size = iommuPageSize ∧ offset &&& iommuPageMask = 0))
  | .iommuUnmap iova size vfio =>
    inferInstanceAs (Decidable (s.pm.simPmIsPageOnDevice iova = true → size = iommuPageSize →
      s.flushIotlb = true ∧ vfio = false))
  | .migrateToSystem _ _ _ _ | .invalidate _ | .markDirty _ => inferInstanceAs (Decidable True)

/-! ### One page -/

/-- What the two tables say about a page. -/
structure PageView where
  state : Option PageState
  frame : Option UInt64
  phys : Option UInt64

namespace PageView

def onDevice (v : PageView) : Bool :=
  match v.state with
  | some .clean | some .dirty => true
  | some .evicted | none => false

def invalidate (v : PageView) : PageView :=
  if v.onDevice then ⟨some .evicted, none, v.phys⟩ else v

def markDirty (v : PageView) : PageView :=
  if v.onDevice then { v with state := some .dirty } else v

/-- `notify`: the flush hook reaches the tracker. -/
def unmap (v : PageView) (size : UInt64) (notify : Bool) : PageView :=
  if size = iommuPageSize ∧ v.phys ≠ none then
    if notify then { v with phys := none }.invalidate else { v with phys := none }
  else v

def bring (v : PageView) (offset size : UInt64) : PageView :=
  ⟨some .clean, some (pfnOf offset),
    if v.phys = none ∧ size = iommuPageSize ∧ offset &&& iommuPageMask = 0 then
      some (pfnOf offset <<< 12)
    else v.phys⟩

def evict (v : PageView) : PageView := ⟨some .evicted, none, v.phys⟩

end PageView

/-- The recorded frame is the address of a page. -/
theorem pfn_aligned (offset : UInt64) : (pfnOf offset <<< 12) &&& iommuPageMask = 0 := by
  rw [Iommu.and_pageMask, Aligned]
  show (pfnOf offset <<< 12).toNat % 4096 = 0
  rw [UInt64.toNat_shiftLeft, show (12 : UInt64).toNat % 64 = 12 from rfl, Nat.shiftLeft_eq]
  omega

namespace MigrationSystem

def view (s : MigrationSystem) (offset : UInt64) : PageView :=
  ⟨s.pm.pageState offset, s.pm.pageTable offset, s.domain.iovaToPhys offset⟩

variable {s : MigrationSystem}

theorem view_invalidate (s : MigrationSystem) (offset o : UInt64) :
    ({ s with pm := s.pm.simPmInvalidate offset } : MigrationSystem).view o =
      if o = offset then (s.view o).invalidate else s.view o := by
  unfold SimPageMigration.simPmInvalidate PageView.invalidate
  by_cases ho : o = offset
  · subst ho
    rw [if_pos rfl, show (s.view o).onDevice = s.pm.simPmIsPageOnDevice o from rfl]
    split_ifs
    · simp [view]
    · rfl
  · rw [if_neg ho]
    split_ifs
    · simp [view, Function.update_of_ne ho]
    · rfl

theorem view_markDirty (s : MigrationSystem) (offset o : UInt64) :
    ({ s with pm := s.pm.simPmMarkDirty offset } : MigrationSystem).view o =
      if o = offset then (s.view o).markDirty else s.view o := by
  unfold SimPageMigration.simPmMarkDirty PageView.markDirty
  by_cases ho : o = offset
  · subst ho
    rw [if_pos rfl, show (s.view o).onDevice = s.pm.simPmIsPageOnDevice o from rfl]
    split_ifs
    · simp [view]
    · rfl
  · rw [if_neg ho]
    split_ifs
    · simp [view, Function.update_of_ne ho]
    · rfl

theorem view_eraseIova (s : MigrationSystem) {iova size : UInt64} (hsize : size = iommuPageSize)
    (hmap : s.domain.iovaToPhys iova ≠ none) (o : UInt64) :
    (s.eraseIova iova size).view o =
      if o = iova then { s.view o with phys := none } else s.view o := by
  rw [eraseIova, IommuDomainState.iommuUnmap, if_neg (not_not.mpr hsize), if_neg hmap]
  by_cases ho : o = iova
  · subst ho
    simp [view]
  · simp [view, ho]

theorem view_defaultFlushIotlb (hpm : s.domainPm = true) (iova : UInt64) (vfio : Bool)
    (o : UInt64) :
    (s.defaultFlushIotlb iova vfio).view o =
      if o = iova then if vfio then s.view o else (s.view o).invalidate else s.view o := by
  unfold defaultFlushIotlb
  cases vfio with
  | true => rw [if_pos rfl, if_pos rfl, ite_self]
  | false =>
    rw [if_neg Bool.false_ne_true, if_pos hpm, view_invalidate, if_neg Bool.false_ne_true]

theorem view_iommuUnmap (hpm : s.domainPm = true) (iova size : UInt64) (vfio : Bool) (o : UInt64) :
    (s.iommuUnmap iova size vfio).2.view o =
      if o = iova then (s.view o).unmap size (s.flushIotlb && !vfio) else s.view o := by
  unfold iommuUnmap PageView.unmap
  by_cases hsize : size = iommuPageSize
  swap
  · rw [if_pos hsize]
    split_ifs with ho hphys
    · exact absurd hphys.1 hsize
    · exact absurd hphys.1 hsize
    · rfl
    · rfl
  by_cases hmap : s.domain.iovaToPhys iova = none
  · rw [if_neg (not_not.mpr hsize), if_pos hmap]
    split_ifs with ho hphys
    · subst ho
      exact absurd hmap hphys.2
    · subst ho
      exact absurd hmap hphys.2
    · rfl
    · rfl
  rw [if_neg (not_not.mpr hsize), if_neg hmap]
  have herase := s.view_eraseIova hsize hmap o
  have hflush := view_defaultFlushIotlb (s := s.eraseIova iova size) hpm iova vfio o
  rw [herase] at hflush
  by_cases ho : o = iova
  · subst ho
    rw [if_pos rfl] at hflush herase ⊢
    rw [if_pos rfl] at hflush
    have hmapped : size = iommuPageSize ∧ (s.view o).phys ≠ none := ⟨hsize, hmap⟩
    rw [if_pos hmapped]
    cases hhook : s.flushIotlb with
    | false => exact herase
    | true =>
      cases vfio with
      | false => exact hflush
      | true => exact hflush
  · rw [if_neg ho] at hflush herase ⊢
    rw [if_neg ho] at hflush
    split_ifs
    · exact hflush
    · exact herase

theorem view_iommuMap (s : MigrationSystem) (offset size o : UInt64) :
    ({ s with domain := (s.domain.iommuMap offset (pfnOf offset <<< 12) size).2 } :
        MigrationSystem).view o =
      if o = offset ∧ (s.view o).phys = none ∧ size = iommuPageSize ∧
          offset &&& iommuPageMask = 0 then
        { s.view o with phys := some (pfnOf offset <<< 12) }
      else s.view o := by
  have hframe := pfn_aligned offset
  unfold IommuDomainState.iommuMap
  by_cases hsize : size = iommuPageSize
  swap
  · rw [if_pos hsize, if_neg fun hc => hsize hc.2.2.1]
  by_cases halign : offset &&& iommuPageMask = 0
  swap
  · rw [if_neg (not_not.mpr hsize), if_pos halign, if_neg fun hc => halign hc.2.2.2]
  rw [if_neg (not_not.mpr hsize), if_neg (not_not.mpr halign), if_neg (not_not.mpr hframe)]
  by_cases hmap : s.domain.iovaToPhys offset = none
  · rw [if_neg (not_not.mpr hmap)]
    by_cases ho : o = offset
    · subst ho
      rw [if_pos ⟨rfl, hmap, hsize, halign⟩]
      simp [view]
    · rw [if_neg fun hc => ho hc.1]
      simp [view, ho]
  · rw [if_pos hmap, if_neg]
    rintro ⟨rfl, hphys, -⟩
    exact hmap hphys

theorem view_simPmMigrateToDevice (hdomain : s.pmDomain = true) (offset : UInt64)
    (src : UInt64 → UInt8) {size : UInt64} (hfits : Succeeds s offset size) (o : UInt64) :
    (s.simPmMigrateToDevice offset (some src) size).2.view o =
      if o = offset then (s.view o).bring offset size else s.view o := by
  have hfit : ¬s.pm.deviceMemSize < offset + size := UInt64.not_lt.mpr hfits
  have hmap := view_iommuMap { s with pm := (s.pm.copyIn offset src size).recordDevice offset }
    offset size o
  simp only [simPmMigrateToDevice, if_neg hfit, hdomain, if_true]
  rw [hdomain] at hmap
  rw [hmap, PageView.bring]
  by_cases ho : o = offset
  · subst ho
    rw [if_pos rfl]
    split_ifs with hnew hbring hbring
    · simp [view, SimPageMigration.recordDevice, SimPageMigration.copyIn]
    · exact absurd hnew.2 hbring
    · exact absurd ⟨rfl, hbring⟩ hnew
    · simp [view, SimPageMigration.recordDevice, SimPageMigration.copyIn]
  · simp [view, SimPageMigration.recordDevice, SimPageMigration.copyIn, ho]

theorem view_simPmMigrateToSystem (hdomain : s.pmDomain = true) (hpm : s.domainPm = true)
    (offset : UInt64) {size : UInt64} (vfio : Bool) (hfits : Succeeds s offset size) (o : UInt64) :
    (s.simPmMigrateToSystem offset true size vfio).2.view o =
      if o = offset then ((s.view o).unmap size (s.flushIotlb && !vfio)).evict else s.view o := by
  have hfit : ¬s.pm.deviceMemSize < offset + size := UInt64.not_lt.mpr hfits
  have hunmap := view_iommuUnmap hpm offset size vfio o
  simp only [simPmMigrateToSystem, Bool.true_eq_false, if_false, if_neg hfit, hdomain, if_true]
  by_cases ho : o = offset
  · subst ho
    rw [if_pos rfl] at hunmap ⊢
    rw [← hunmap]
    simp [view, SimPageMigration.recordEvicted, PageView.evict]
  · rw [if_neg ho] at hunmap ⊢
    rw [← hunmap]
    simp [view, SimPageMigration.recordEvicted, ho]

end MigrationSystem

/-! ### Which runs keep the tables in step -/

/-- A page's record is the frame of its offset while it is on the device, and its mapping, if it has
one, leads there. -/
structure PageRecorded (offset : UInt64) (v : PageView) : Prop where
  frame : v.frame = if v.onDevice then some (pfnOf offset) else none
  phys : v.phys = none ∨ v.phys = some (pfnOf offset <<< 12)

structure MigrationInv (s : MigrationSystem) : Prop where
  pmDomain : s.pmDomain = true
  domainPm : s.domainPm = true
  recorded : ∀ offset, PageRecorded offset (s.view offset)

namespace PageRecorded

variable {offset : UInt64} {v : PageView}

theorem invalidate (h : PageRecorded offset v) : PageRecorded offset v.invalidate := by
  unfold PageView.invalidate
  split_ifs
  · exact ⟨rfl, h.phys⟩
  · exact h

theorem markDirty (h : PageRecorded offset v) : PageRecorded offset v.markDirty := by
  unfold PageView.markDirty
  split_ifs with hdevice
  · refine ⟨?_, h.phys⟩
    rw [h.frame, if_pos hdevice]
    rfl
  · exact h

theorem evict (h : PageRecorded offset v) : PageRecorded offset v.evict := ⟨rfl, h.phys⟩

theorem unmap (h : PageRecorded offset v) (size : UInt64) (notify : Bool) :
    PageRecorded offset (v.unmap size notify) := by
  have hnone : PageRecorded offset { v with phys := none } := ⟨h.frame, .inl rfl⟩
  unfold PageView.unmap
  split_ifs
  · exact hnone.invalidate
  · exact hnone
  · exact h

theorem bring (h : PageRecorded offset v) (size : UInt64) :
    PageRecorded offset (v.bring offset size) := by
  refine ⟨rfl, ?_⟩
  unfold PageView.bring
  split_ifs
  · exact .inr rfl
  · exact h.phys

end PageRecorded

/-- What an operation does to the page it is about. -/
def PageView.step (v : PageView) (s : MigrationSystem) : MigrationOp → PageView
  | .migrateToDevice offset src size =>
    if src.isSome ∧ Succeeds s offset size then v.bring offset size else v
  | .migrateToSystem offset dst size vfio =>
    if dst = true ∧ Succeeds s offset size then (v.unmap size (s.flushIotlb && !vfio)).evict else v
  | .invalidate _ => v.invalidate
  | .markDirty _ => v.markDirty
  | .iommuUnmap _ size vfio => v.unmap size (s.flushIotlb && !vfio)

variable {s : MigrationSystem}

theorem view_step (hI : MigrationInv s) (op : MigrationOp) (o : UInt64) :
    (s.step op).view o = if o = op.page then (s.view o).step s op else s.view o := by
  cases op with
  | migrateToDevice offset src size =>
    cases src with
    | none => exact (ite_self (s.view o)).symm
    | some src =>
      by_cases hfits : Succeeds s offset size
      · have hpage : (s.view o).step s (.migrateToDevice offset (some src) size) =
            (s.view o).bring offset size := if_pos ⟨rfl, hfits⟩
        rw [hpage]
        exact MigrationSystem.view_simPmMigrateToDevice hI.pmDomain offset src hfits o
      · have hfail : s.pm.deviceMemSize < offset + size := UInt64.not_le.mp hfits
        have hpage : (s.view o).step s (.migrateToDevice offset (some src) size) = s.view o :=
          if_neg fun hc => hfits hc.2
        rw [hpage, ite_self, MigrationSystem.step, MigrationSystem.simPmMigrateToDevice,
          if_pos hfail]
  | migrateToSystem offset dst size vfio =>
    cases dst with
    | false => exact (ite_self (s.view o)).symm
    | true =>
      by_cases hfits : Succeeds s offset size
      · have hpage : (s.view o).step s (.migrateToSystem offset true size vfio) =
            ((s.view o).unmap size (s.flushIotlb && !vfio)).evict := if_pos ⟨rfl, hfits⟩
        rw [hpage]
        exact MigrationSystem.view_simPmMigrateToSystem hI.pmDomain hI.domainPm offset vfio hfits o
      · have hfail : s.pm.deviceMemSize < offset + size := UInt64.not_le.mp hfits
        have hpage : (s.view o).step s (.migrateToSystem offset true size vfio) = s.view o :=
          if_neg fun hc => hfits hc.2
        rw [hpage, ite_self, MigrationSystem.step, MigrationSystem.simPmMigrateToSystem,
          if_neg (by decide), if_pos hfail]
  | invalidate offset => exact s.view_invalidate offset o
  | markDirty offset => exact s.view_markDirty offset o
  | iommuUnmap iova size vfio => exact MigrationSystem.view_iommuUnmap hI.domainPm iova size vfio o

theorem PageRecorded.step {offset : UInt64} {v : PageView} (h : PageRecorded offset v)
    (s : MigrationSystem) {op : MigrationOp} (hpage : offset = op.page) :
    PageRecorded offset (v.step s op) := by
  cases op with
  | migrateToDevice page src size =>
    replace hpage : offset = page := hpage
    subst hpage
    show PageRecorded offset (if _ then _ else _)
    split_ifs
    · exact h.bring size
    · exact h
  | migrateToSystem page dst size vfio =>
    show PageRecorded offset (if _ then _ else _)
    split_ifs
    · exact (h.unmap size _).evict
    · exact h
  | invalidate page => exact h.invalidate
  | markDirty page => exact h.markDirty
  | iommuUnmap iova size vfio => exact h.unmap size _

theorem iommuUnmap_attached (s : MigrationSystem) (iova size : UInt64) (vfio : Bool) :
    (s.iommuUnmap iova size vfio).2.pmDomain = s.pmDomain ∧
      (s.iommuUnmap iova size vfio).2.domainPm = s.domainPm := by
  unfold MigrationSystem.iommuUnmap MigrationSystem.defaultFlushIotlb
  split_ifs <;> exact ⟨rfl, rfl⟩

/-- No operation detaches the two. -/
theorem step_attached (s : MigrationSystem) (op : MigrationOp) :
    (s.step op).pmDomain = s.pmDomain ∧ (s.step op).domainPm = s.domainPm := by
  cases op with
  | migrateToDevice offset src size =>
    unfold MigrationSystem.step MigrationSystem.simPmMigrateToDevice
    cases src with
    | none => exact ⟨rfl, rfl⟩
    | some src =>
      simp only
      split_ifs <;> exact ⟨rfl, rfl⟩
  | migrateToSystem offset dst size vfio =>
    unfold MigrationSystem.step MigrationSystem.simPmMigrateToSystem
    simp only
    split_ifs
    · exact ⟨rfl, rfl⟩
    · exact ⟨rfl, rfl⟩
    · exact iommuUnmap_attached s offset size vfio
    · exact ⟨rfl, rfl⟩
  | invalidate offset => exact ⟨rfl, rfl⟩
  | markDirty offset => exact ⟨rfl, rfl⟩
  | iommuUnmap iova size vfio => exact iommuUnmap_attached s iova size vfio

theorem MigrationInv.step (hI : MigrationInv s) (op : MigrationOp) : MigrationInv (s.step op) where
  pmDomain := (step_attached s op).1.trans hI.pmDomain
  domainPm := (step_attached s op).2.trans hI.domainPm
  recorded := by
    intro o
    rw [view_step hI]
    split_ifs with ho
    · exact (hI.recorded o).step s ho
    · exact hI.recorded o

theorem migrationInv_attached {deviceMemSize : UInt64} {pm : SimPageMigration}
    (hpm : SimPageMigration.simPmCreate deviceMemSize = some pm) (flushIotlb : Bool) :
    MigrationInv (.attached pm flushIotlb) where
  pmDomain := rfl
  domainPm := rfl
  recorded := by
    intro offset
    unfold SimPageMigration.simPmCreate at hpm
    split_ifs at hpm
    cases hpm
    exact ⟨rfl, .inl rfl⟩

/-! ### Agreement, page by page -/

/-- The mapping of a page, when it has one, is the one to its frame. -/
theorem PageRecorded.phys_iff {offset : UInt64} {v : PageView} (h : PageRecorded offset v) :
    v.phys = some (pfnOf offset <<< 12) ↔ v.phys ≠ none := by
  constructor
  · intro hphys
    rw [hphys]
    exact Option.some_ne_none _
  · exact h.phys.resolve_left

def PageView.Mapped (v : PageView) : Prop := v.onDevice = true → v.phys ≠ none

def PageView.InStep (v : PageView) : Prop :=
  v.state ≠ none → (v.onDevice = true ↔ v.phys ≠ none)

theorem PageView.state_of_onDevice {v : PageView} (h : v.onDevice = true) : v.state ≠ none := by
  intro hstate
  rw [PageView.onDevice, hstate] at h
  cases h

theorem deviceMapped_iff (hI : MigrationInv s) : DeviceMapped s ↔ ∀ o, (s.view o).Mapped := by
  refine forall_congr' fun o => ?_
  have hrec := hI.recorded o
  have hframe : s.pm.pageTable o =
      if s.pm.simPmIsPageOnDevice o then some (pfnOf o) else none := hrec.frame
  show (s.pm.pageState o ≠ none → _) ↔ (s.pm.simPmIsPageOnDevice o = true → _)
  rw [hframe]
  cases hdevice : s.pm.simPmIsPageOnDevice o with
  | false => simp
  | true =>
    have htracked : s.pm.pageState o ≠ none :=
      PageView.state_of_onDevice (v := s.view o) hdevice
    have hphys : s.domain.iovaToPhys o = some (pfnOf o <<< 12) ↔ (s.view o).phys ≠ none :=
      hrec.phys_iff
    simp [htracked, hphys]

theorem pagesMapped_iff (hI : MigrationInv s) : PagesMapped s ↔ ∀ o, (s.view o).InStep := by
  refine forall_congr' fun o => ?_
  have hphys : s.domain.iovaToPhys o = some (pfnOf o <<< 12) ↔ (s.view o).phys ≠ none :=
    (hI.recorded o).phys_iff
  rw [hphys]
  rfl

/-- A property of every page holds after a step when it holds of the page the step is about. -/
theorem forall_view_step (hI : MigrationInv s) (op : MigrationOp) {P : PageView → Prop}
    (h : ∀ o, P (s.view o)) :
    (∀ o, P ((s.step op).view o)) ↔ P ((s.view op.page).step s op) := by
  constructor
  · intro hall
    have hpage := hall op.page
    rw [view_step hI, if_pos rfl] at hpage
    exact hpage
  · intro hpage o
    rw [view_step hI]
    split_ifs with ho
    · rw [ho]
      exact hpage
    · exact h o

namespace PageView

variable {v : PageView}

@[simp] theorem onDevice_evict (v : PageView) : v.evict.onDevice = false := rfl

@[simp] theorem onDevice_bring (v : PageView) (offset size : UInt64) :
    (v.bring offset size).onDevice = true := rfl

@[simp] theorem onDevice_invalidate (v : PageView) : v.invalidate.onDevice = false := by
  unfold invalidate
  split_ifs with hdevice
  · rfl
  · exact Bool.eq_false_iff.mpr hdevice

@[simp] theorem phys_invalidate (v : PageView) : v.invalidate.phys = v.phys := by
  unfold invalidate
  split_ifs <;> rfl

@[simp] theorem onDevice_markDirty (v : PageView) : v.markDirty.onDevice = v.onDevice := by
  unfold markDirty
  split_ifs with hdevice
  · exact hdevice.symm
  · rfl

@[simp] theorem phys_markDirty (v : PageView) : v.markDirty.phys = v.phys := by
  unfold markDirty
  split_ifs <;> rfl

theorem phys_bring (v : PageView) (offset size : UInt64) :
    (v.bring offset size).phys ≠ none ↔
      v.phys ≠ none ∨ size = iommuPageSize ∧ offset &&& iommuPageMask = 0 := by
  unfold bring
  by_cases hphys : v.phys = none
  · simp [hphys]
  · simp [hphys]

theorem phys_unmap (v : PageView) (size : UInt64) (notify : Bool) :
    (v.unmap size notify).phys = if size = iommuPageSize then none else v.phys := by
  unfold unmap
  by_cases hsize : size = iommuPageSize
  · by_cases hphys : v.phys = none
    · simp [hsize, hphys]
    · cases notify <;> simp [hsize, hphys]
  · simp [hsize]

theorem onDevice_unmap (v : PageView) (size : UInt64) (notify : Bool) :
    (v.unmap size notify).onDevice =
      (v.onDevice && !(decide (size = iommuPageSize) && v.phys.isSome && notify)) := by
  unfold unmap
  by_cases hsize : size = iommuPageSize
  · cases hphys : v.phys with
    | none => simp
    | some phys =>
      cases notify with
      | false => simp [hsize, onDevice]
      | true => simp [hsize]
  · simp [hsize]

theorem Mapped.unmap (h : v.Mapped) (size : UInt64) (notify : Bool) :
    (v.unmap size notify).Mapped ↔
      (v.onDevice = true → size = iommuPageSize → notify = true) := by
  unfold Mapped at h ⊢
  rw [onDevice_unmap, phys_unmap]
  cases hdevice : v.onDevice with
  | false => simp
  | true =>
    have hphys : v.phys.isSome = true := Option.isSome_iff_ne_none.mpr (h hdevice)
    by_cases hsize : size = iommuPageSize
    · cases notify <;> simp [hsize, hphys]
    · simp [hsize, h hdevice]

end PageView

/-- A step keeps every page on the device mapped exactly when it meets the condition. -/
theorem mapped_step (h : ∀ o, (s.view o).Mapped) (op : MigrationOp) :
    ((s.view op.page).step s op).Mapped ↔ DeviceGuard s op := by
  have hpage := h op.page
  cases op with
  | migrateToDevice offset src size =>
    show (if _ then _ else _ : PageView).Mapped ↔ (_ → _ → _)
    split_ifs with hdone
    · rw [PageView.Mapped, PageView.phys_bring]
      simp only [PageView.onDevice_bring, forall_const, hdone.1, hdone.2]
      rfl
    · exact iff_of_true hpage fun hsrc hfits => absurd ⟨hsrc, hfits⟩ hdone
  | migrateToSystem offset dst size vfio =>
    refine iff_of_true ?_ trivial
    show (if _ then _ else _ : PageView).Mapped
    split_ifs
    · intro hdevice
      cases hdevice
    · exact hpage
  | invalidate offset =>
    refine iff_of_true (fun hdevice => ?_) trivial
    have hoff : (s.view offset).invalidate.onDevice = false := PageView.onDevice_invalidate _
    exact absurd (hoff.symm.trans hdevice) (by decide)
  | markDirty offset =>
    refine iff_of_true (fun hdevice => ?_) trivial
    have hbefore : (s.view offset).onDevice = true :=
      (PageView.onDevice_markDirty _).symm.trans hdevice
    show (s.view offset).markDirty.phys ≠ none
    rw [PageView.phys_markDirty]
    exact hpage hbefore
  | iommuUnmap iova size vfio =>
    have hunmap : ((s.view iova).unmap size (s.flushIotlb && !vfio)).Mapped ↔ _ :=
      PageView.Mapped.unmap hpage size (s.flushIotlb && !vfio)
    show ((s.view iova).unmap size (s.flushIotlb && !vfio)).Mapped ↔
      ((s.view iova).onDevice = true → size = iommuPageSize → _)
    rw [hunmap, Bool.and_eq_true, Bool.not_eq_true']
    exact Iff.rfl

theorem deviceMapped_step (hI : MigrationInv s) (h : DeviceMapped s) (op : MigrationOp) :
    DeviceMapped (s.step op) ↔ DeviceGuard s op := by
  have hviews := (deviceMapped_iff hI).mp h
  rw [deviceMapped_iff (hI.step op), forall_view_step hI op hviews]
  exact mapped_step hviews op

namespace PageView

variable {v : PageView}

theorem InStep.mapped (h : v.InStep) : v.Mapped :=
  fun hdevice => (h (state_of_onDevice hdevice)).mp hdevice

theorem state_invalidate (v : PageView) : v.invalidate.state ≠ none ↔ v.state ≠ none := by
  unfold invalidate
  split_ifs with hdevice
  · exact iff_of_true (Option.some_ne_none _) (state_of_onDevice hdevice)
  · exact Iff.rfl

theorem state_markDirty (v : PageView) : v.markDirty.state ≠ none ↔ v.state ≠ none := by
  unfold markDirty
  split_ifs with hdevice
  · exact iff_of_true (Option.some_ne_none _) (state_of_onDevice hdevice)
  · exact Iff.rfl

theorem state_unmap (v : PageView) (size : UInt64) (notify : Bool) :
    (v.unmap size notify).state ≠ none ↔ v.state ≠ none := by
  unfold unmap
  split_ifs
  · exact state_invalidate _
  · exact Iff.rfl
  · exact Iff.rfl

theorem InStep.bring (offset size : UInt64) :
    (v.bring offset size).InStep ↔
      v.phys ≠ none ∨ size = iommuPageSize ∧ offset &&& iommuPageMask = 0 := by
  have hstate : (v.bring offset size).state ≠ none := Option.some_ne_none _
  rw [InStep, onDevice_bring, phys_bring]
  simp [hstate]

theorem InStep.evict (size : UInt64) (notify : Bool) :
    (v.unmap size notify).evict.InStep ↔ (v.phys ≠ none → size = iommuPageSize) := by
  have hstate : (v.unmap size notify).evict.state ≠ none := Option.some_ne_none _
  have hphys : (v.unmap size notify).evict.phys = (v.unmap size notify).phys := rfl
  rw [InStep, onDevice_evict, hphys, phys_unmap]
  by_cases hsize : size = iommuPageSize
  · simp [hsize]
  · simp [hsize, hstate]

theorem InStep.invalidate (h : v.InStep) : v.invalidate.InStep ↔ v.onDevice = false := by
  rw [InStep, onDevice_invalidate, phys_invalidate, state_invalidate]
  cases hdevice : v.onDevice with
  | false =>
    rw [InStep, hdevice] at h
    exact iff_of_true h rfl
  | true =>
    have hstate := state_of_onDevice hdevice
    have hphys := h.mapped hdevice
    simp [hstate, hphys]

theorem InStep.markDirty (h : v.InStep) : v.markDirty.InStep := by
  rw [InStep, onDevice_markDirty, phys_markDirty, state_markDirty]
  exact h

theorem InStep.unmap (h : v.InStep) (size : UInt64) (notify : Bool) :
    (v.unmap size notify).InStep ↔
      (v.onDevice = true → size = iommuPageSize → notify = true) := by
  rw [← h.mapped.unmap size notify]
  constructor
  · exact InStep.mapped
  · intro hmapped hstate
    refine ⟨hmapped, fun hphys => ?_⟩
    rw [phys_unmap] at hphys
    rw [onDevice_unmap]
    -- a page that is still mapped was not unmapped
    split_ifs at hphys with hsize
    · exact absurd rfl hphys
    · have hdevice := (h ((state_unmap v size notify).mp hstate)).mpr hphys
      simp [hdevice, hsize]

end PageView

theorem pagesMapped_step (hI : MigrationInv s) (h : PagesMapped s) (op : MigrationOp) :
    PagesMapped (s.step op) ↔ PagesGuard s op := by
  have hviews := (pagesMapped_iff hI).mp h
  have hpage := hviews op.page
  rw [pagesMapped_iff (hI.step op), forall_view_step hI op hviews]
  have hmapped := mapped_step (fun o => (hviews o).mapped) op
  cases op with
  | migrateToDevice offset src size =>
    refine Iff.trans (Iff.trans ?_ hmapped) (and_iff_left trivial).symm
    show (if _ then _ else _ : PageView).InStep ↔ (if _ then _ else _ : PageView).Mapped
    split_ifs
    · rw [PageView.InStep.bring, PageView.Mapped, PageView.phys_bring]
      simp
    · exact iff_of_true hpage hpage.mapped
  | migrateToSystem offset dst size vfio =>
    show (if _ then _ else _ : PageView).InStep ↔ True ∧ (_ → _ → _ → _)
    split_ifs with hdone
    · rw [PageView.InStep.evict]
      simp only [hdone.1, hdone.2, forall_const, true_and]
      rfl
    · exact iff_of_true hpage ⟨trivial, fun hdst hfits => absurd ⟨hdst, hfits⟩ hdone⟩
  | invalidate offset =>
    exact (PageView.InStep.invalidate hpage).trans (and_iff_right trivial).symm
  | markDirty offset =>
    exact iff_of_true (PageView.InStep.markDirty hpage) ⟨trivial, trivial⟩
  | iommuUnmap iova size vfio =>
    refine Iff.trans (Iff.trans ?_ hmapped) (and_iff_left trivial).symm
    have hstep : ((s.view iova).unmap size (s.flushIotlb && !vfio)).InStep ↔ _ :=
      PageView.InStep.unmap hpage size _
    exact hstep.trans (hpage.mapped.unmap size _).symm

/-- **The tables agree exactly along the guarded runs**, read with the frame that the tracker
records now, and read with the frame it last recorded. -/
theorem pages_agree_iff {deviceMemSize : UInt64} {pm : SimPageMigration}
    (hpm : SimPageMigration.simPmCreate deviceMemSize = some pm) (flushIotlb : Bool)
    (ops : List MigrationOp) :
    (Always MigrationSystem.step DeviceMapped (.attached pm flushIotlb) ops ↔
        Guarded MigrationSystem.step DeviceGuard (.attached pm flushIotlb) ops) ∧
      (Always MigrationSystem.step PagesMapped (.attached pm flushIotlb) ops ↔
        Guarded MigrationSystem.step PagesGuard (.attached pm flushIotlb) ops) := by
  have hI : MigrationInv (.attached pm flushIotlb) := migrationInv_attached hpm flushIotlb
  have huntracked : ∀ o, ¬pm.pageState o ≠ none := by
    intro o
    unfold SimPageMigration.simPmCreate at hpm
    split_ifs at hpm
    cases hpm
    exact not_not.mpr rfl
  constructor
  · exact always_iff_guarded (I := fun s => MigrationInv s ∧ DeviceMapped s)
      (fun s op h hG => ⟨h.1.step op, (deviceMapped_step h.1 h.2 op).mpr hG⟩)
      (fun s h => h.2) (fun s op h hnext => (deviceMapped_step h.1 h.2 op).mp hnext) ops
      ⟨hI, fun o ho => absurd ho (huntracked o)⟩
  · exact always_iff_guarded (I := fun s => MigrationInv s ∧ PagesMapped s)
      (fun s op h hG => ⟨h.1.step op, (pagesMapped_step h.1 h.2 op).mpr hG⟩)
      (fun s h => h.2) (fun s op h hnext => (pagesMapped_step h.1 h.2 op).mp hnext) ops
      ⟨hI, fun o ho => absurd ho (huntracked o)⟩


/-- A tracker over 64 KiB of device memory. -/
def freshTracker : SimPageMigration :=
  ⟨0x10000, fun _ => 0, fun _ => none, fun _ => none, 0, fun _ => none⟩

/-- A page is brought to the device, unmapped in the domain, brought again and taken back. -/
def migrateAndUnmap : List MigrationOp :=
  [.migrateToDevice 0x1000 (some fun _ => 7) 4096, .iommuUnmap 0x1000 4096 false,
    .migrateToDevice 0x1000 (some fun _ => 8) 4096, .migrateToSystem 0x1000 true 4096 false]

theorem pages_agree_unmap :
    Always MigrationSystem.step DeviceMapped (.attached freshTracker true) migrateAndUnmap ∧
      Always MigrationSystem.step PagesMapped (.attached freshTracker true) migrateAndUnmap := by
  have hagree := @pages_agree_iff 0x10000 freshTracker rfl true migrateAndUnmap
  have hunmap : Guarded MigrationSystem.step DeviceGuard (.attached freshTracker true)
      migrateAndUnmap := by decide +kernel
  refine ⟨hagree.1.mpr hunmap, hagree.2.mpr ?_⟩
  refine ⟨⟨hunmap.1, trivial⟩, ⟨hunmap.2.1, trivial⟩, ⟨hunmap.2.2.1, trivial⟩,
    ⟨trivial, fun _ _ _ => rfl⟩, trivial⟩

/-- Two pages are brought to the device at once: the domain refuses the size, and the tracker drops
the error. -/
theorem pages_agree_fails :
    ¬Always MigrationSystem.step DeviceMapped (.attached freshTracker true)
        [.migrateToDevice 0 (some fun _ => 7) 8192] ∧
      ¬Always MigrationSystem.step PagesMapped (.attached freshTracker true)
        [.migrateToDevice 0 (some fun _ => 7) 8192] := by
  constructor
  · intro h
    obtain ⟨pfn, -, hphys⟩ := (Always.last _ h 0 (by decide)).mp (by decide)
    cases hphys
  · intro h
    have hphys := (Always.last _ h 0 (by decide)).mp (by decide)
    cases hphys

end UsrLinuxEmu.GpuDriver
