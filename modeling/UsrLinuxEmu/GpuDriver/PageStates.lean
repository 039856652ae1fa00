import UsrLinuxEmu.GpuDriver.MigrationMemory

/-!
# The three maps of the migration tracker (`plugins/gpu_driver/sim/page_migration.cpp`)

The tracker keeps the state, the frame and the dirty flag of a page in maps of their own.  A
migration sets the state and the frame, and leaves the flag.

* `PageMarks` — what the maps say about a page, and what the calls make of it;
* `StatesAgree` — the maps agree;
* `page_states_iff` — the runs along which they do.
-/

namespace UsrLinuxEmu.GpuDriver

open UsrLinuxEmu.Iommu UsrLinuxEmu.Transition

/-! ### One page -/

/-- What the three maps say about a page. -/
structure PageMarks where
  state : Option PageState
  frame : Option UInt64
  dirty : Option Bool

namespace PageMarks

def onDevice (m : PageMarks) : Bool :=
  match m.state with
  | some .clean | some .dirty => true
  | some .evicted | none => false

def isDirty (m : PageMarks) : Bool := m.dirty.getD false

def invalidate (m : PageMarks) : PageMarks :=
  if m.onDevice then ⟨some .evicted, none, none⟩ else m

def markDirty (m : PageMarks) : PageMarks :=
  if m.onDevice then { m with state := some .dirty, dirty := some true } else m

def bring (m : PageMarks) (offset : UInt64) : PageMarks :=
  { m with state := some .clean, frame := some (pfnOf offset) }

def evict (m : PageMarks) : PageMarks := { m with state := some .evicted, frame := none }

end PageMarks

/-- What an operation does to the page it is about. -/
def PageMarks.step (m : PageMarks) (s : MigrationSystem) : MigrationOp → PageMarks
  | .migrateToDevice offset src size =>
    if src.isSome ∧ Succeeds s offset size then m.bring offset else m
  | .migrateToSystem offset dst size vfio =>
    if dst = true ∧ Succeeds s offset size then
      if s.pmDomain = true ∧ s.UnmapInvalidates offset size vfio then m.invalidate.evict
      else m.evict
    else m
  | .invalidate _ => m.invalidate
  | .markDirty _ => m.markDirty
  | .iommuUnmap iova size vfio => if s.UnmapInvalidates iova size vfio then m.invalidate else m

namespace SimPageMigration

def marks (p : SimPageMigration) (offset : UInt64) : PageMarks :=
  ⟨p.pageState offset, p.pageTable offset, p.pageDirty offset⟩

theorem marks_invalidate (p : SimPageMigration) (offset o : UInt64) :
    (p.simPmInvalidate offset).marks o =
      if o = offset then (p.marks o).invalidate else p.marks o := by
  unfold simPmInvalidate PageMarks.invalidate
  by_cases ho : o = offset
  · subst ho
    rw [if_pos rfl, show (p.marks o).onDevice = p.simPmIsPageOnDevice o from rfl]
    split_ifs
    · simp [marks]
    · rfl
  · rw [if_neg ho]
    split_ifs
    · simp [marks, Function.update_of_ne ho]
    · rfl

theorem marks_markDirty (p : SimPageMigration) (offset o : UInt64) :
    (p.simPmMarkDirty offset).marks o =
      if o = offset then (p.marks o).markDirty else p.marks o := by
  unfold simPmMarkDirty PageMarks.markDirty
  by_cases ho : o = offset
  · subst ho
    rw [if_pos rfl, show (p.marks o).onDevice = p.simPmIsPageOnDevice o from rfl]
    split_ifs
    · simp [marks]
    · rfl
  · rw [if_neg ho]
    split_ifs
    · simp [marks, Function.update_of_ne ho]
    · rfl

theorem marks_recordDevice (p : SimPageMigration) (offset o : UInt64) :
    (p.recordDevice offset).marks o =
      if o = offset then (p.marks o).bring offset else p.marks o := by
  by_cases ho : o = offset
  · subst ho
    simp [marks, recordDevice, PageMarks.bring]
  · simp [marks, recordDevice, ho]

theorem marks_recordEvicted (p : SimPageMigration) (offset o : UInt64) :
    (p.recordEvicted offset).marks o = if o = offset then (p.marks o).evict else p.marks o := by
  by_cases ho : o = offset
  · subst ho
    simp [marks, recordEvicted, PageMarks.evict]
  · simp [marks, recordEvicted, ho]

end SimPageMigration

theorem marks_unmapped (s : MigrationSystem) (offset size : UInt64) (vfio : Bool) (o : UInt64) :
    (s.unmapped offset size vfio).marks o =
      if o = offset ∧ s.pmDomain = true ∧ s.UnmapInvalidates offset size vfio then
        (s.pm.marks o).invalidate
      else s.pm.marks o := by
  unfold MigrationSystem.unmapped
  by_cases hunmap : s.pmDomain = true ∧ s.UnmapInvalidates offset size vfio
  · rw [if_pos hunmap, SimPageMigration.marks_invalidate]
    exact if_congr (and_iff_left hunmap).symm rfl rfl
  · rw [if_neg hunmap, if_neg fun hc => hunmap hc.2]

/-- **One step.**  An operation changes what the maps say about its own page only. -/
theorem marks_step (s : MigrationSystem) (op : MigrationOp) (o : UInt64) :
    (s.step op).pm.marks o =
      if o = op.page then (s.pm.marks o).step s op else s.pm.marks o := by
  cases op with
  | migrateToDevice offset src size =>
    cases src with
    | none => exact (ite_self (s.pm.marks o)).symm
    | some src =>
      have hpm := s.pm_migrateToDevice offset src size
      show (s.simPmMigrateToDevice offset (some src) size).2.pm.marks o = _
      by_cases hfit : Succeeds s offset size
      · have hpage : (s.pm.marks o).step s (.migrateToDevice offset (some src) size) =
            (s.pm.marks o).bring offset := if_pos ⟨rfl, hfit⟩
        rw [hpm, if_pos hfit, hpage]
        exact SimPageMigration.marks_recordDevice (s.pm.copyIn offset src size) offset o
      · have hpage : (s.pm.marks o).step s (.migrateToDevice offset (some src) size) =
            s.pm.marks o := if_neg fun hc => hfit hc.2
        rw [hpm, if_neg hfit, hpage, ite_self]
  | migrateToSystem offset dst size vfio =>
    cases dst with
    | false => exact (ite_self (s.pm.marks o)).symm
    | true =>
      have hpm := s.pm_migrateToSystem offset size vfio
      show (s.simPmMigrateToSystem offset true size vfio).2.pm.marks o = _
      by_cases hfit : Succeeds s offset size
      · have hpage : (s.pm.marks o).step s (.migrateToSystem offset true size vfio) =
            if s.pmDomain = true ∧ s.UnmapInvalidates offset size vfio then
              (s.pm.marks o).invalidate.evict
            else (s.pm.marks o).evict := if_pos ⟨rfl, hfit⟩
        rw [hpm, if_pos hfit, hpage, SimPageMigration.marks_recordEvicted, marks_unmapped]
        by_cases ho : o = offset
        · subst ho
          show (if o = o then _ else _) = if o = o then _ else _
          simp only [true_and, if_true]
          split_ifs
          · rfl
          · rfl
        · rw [if_neg ho, if_neg fun hc => ho hc.1]
          exact (if_neg ho).symm
      · have hpage : (s.pm.marks o).step s (.migrateToSystem offset true size vfio) =
            s.pm.marks o := if_neg fun hc => hfit hc.2
        rw [hpm, if_neg hfit, hpage, ite_self]
  | invalidate offset => exact s.pm.marks_invalidate offset o
  | markDirty offset => exact s.pm.marks_markDirty offset o
  | iommuUnmap iova size vfio =>
    have hpm := s.pm_iommuUnmap iova size vfio
    show (s.iommuUnmap iova size vfio).2.pm.marks o = _
    by_cases hunmap : s.UnmapInvalidates iova size vfio
    · have hpage : (s.pm.marks o).step s (.iommuUnmap iova size vfio) =
          (s.pm.marks o).invalidate := if_pos hunmap
      rw [hpm, if_pos hunmap, hpage]
      exact s.pm.marks_invalidate iova o
    · have hpage : (s.pm.marks o).step s (.iommuUnmap iova size vfio) = s.pm.marks o :=
        if_neg hunmap
      rw [hpm, if_neg hunmap, hpage, ite_self]

/-! ### The property -/

/-- The flag is that of a dirty page, and the frame that of a page on the device. -/
def StatesAgree (p : SimPageMigration) : Prop :=
  ∀ offset,
    (p.simPmIsPageDirty offset = true ↔ p.pageState offset = some .dirty) ∧
      (p.simPmLookupPfn offset ≠ invalidPfn ↔ p.simPmIsPageOnDevice offset = true)

/-- A migration finds the page without its flag, or clears it by the unmap on the way. -/
def dirtyGuard (s : MigrationSystem) : MigrationOp → Prop
  | .migrateToDevice offset src size =>
    src.isSome → Succeeds s offset size → s.pm.simPmIsPageDirty offset = false
  | .migrateToSystem offset dst size vfio =>
    dst = true → Succeeds s offset size →
      s.pm.simPmIsPageDirty offset = false ∨
        s.pmDomain = true ∧ s.UnmapInvalidates offset size vfio
  | .invalidate _ | .markDirty _ | .iommuUnmap _ _ _ => True

/-! ### The invariant -/

namespace PageMarks

/-- The frame is recorded for a page on the device. -/
def Framed (m : PageMarks) (offset : UInt64) : Prop :=
  m.frame = if m.onDevice then some (pfnOf offset) else none

/-- The flag is set for a dirty page. -/
def Flagged (m : PageMarks) : Prop := m.isDirty = true ↔ m.state = some .dirty

variable {m : PageMarks} {offset : UInt64}

theorem Framed.invalidate (h : m.Framed offset) : m.invalidate.Framed offset := by
  unfold PageMarks.invalidate
  split_ifs
  · rfl
  · exact h

theorem Framed.markDirty (h : m.Framed offset) : m.markDirty.Framed offset := by
  unfold PageMarks.markDirty
  split_ifs with hdevice
  · show m.frame = some (pfnOf offset)
    rw [h, if_pos hdevice]
  · exact h

theorem Framed.step (h : m.Framed offset) (s : MigrationSystem) {op : MigrationOp}
    (hpage : offset = op.page) : (m.step s op).Framed offset := by
  cases op with
  | migrateToDevice page src size =>
    obtain rfl : offset = page := hpage
    rw [PageMarks.step]
    split_ifs
    · rfl
    · exact h
  | migrateToSystem page dst size vfio =>
    rw [PageMarks.step]
    split_ifs
    · rfl
    · rfl
    · exact h
  | invalidate page => exact h.invalidate
  | markDirty page => exact h.markDirty
  | iommuUnmap iova size vfio =>
    rw [PageMarks.step]
    split_ifs
    · exact h.invalidate
    · exact h

theorem onDevice_of_dirty (h : m.state = some .dirty) : m.onDevice = true := by
  rw [onDevice, h]

theorem Flagged.not_dirty (h : m.Flagged) (hdevice : m.onDevice = false) : m.isDirty = false := by
  rw [← Bool.not_eq_true]
  intro hdirty
  have hon := onDevice_of_dirty (h.mp hdirty)
  rw [hdevice] at hon
  cases hon

theorem isDirty_invalidate (h : m.Flagged) : m.invalidate.isDirty = false := by
  unfold PageMarks.invalidate
  split_ifs with hdevice
  · rfl
  · exact h.not_dirty (Bool.not_eq_true _ ▸ hdevice)

theorem Flagged.invalidate (h : m.Flagged) : m.invalidate.Flagged := by
  have hclear := isDirty_invalidate h
  refine iff_of_false (by rw [hclear]; exact Bool.false_ne_true) ?_
  unfold PageMarks.invalidate
  split_ifs with hdevice
  · nofun
  · exact fun hstate => hdevice (onDevice_of_dirty hstate)

theorem Flagged.markDirty (h : m.Flagged) : m.markDirty.Flagged := by
  unfold PageMarks.markDirty
  split_ifs
  · exact iff_of_true rfl rfl
  · exact h

/-- A page that is brought in or taken back agrees with its flag when the flag is clear. -/
theorem flagged_bring_iff : (m.bring offset).Flagged ↔ m.isDirty = false := by
  show (m.isDirty = true ↔ some PageState.clean = some .dirty) ↔ _
  simp

theorem flagged_evict_iff : m.evict.Flagged ↔ m.isDirty = false := by
  show (m.isDirty = true ↔ some PageState.evicted = some .dirty) ↔ _
  simp

end PageMarks

theorem pfnOf_ne_invalid (offset : UInt64) : pfnOf offset ≠ invalidPfn := by
  intro h
  have hnat : (pfnOf offset).toNat = invalidPfn.toNat := congrArg UInt64.toNat h
  have hlt := offset.toNat_lt
  rw [pfnOf, UInt64.toNat_div, show (4096 : UInt64).toNat = 4096 from rfl,
    show invalidPfn.toNat = 2 ^ 64 - 1 from rfl] at hnat
  omega

/-- The frames are right, and the flags as well. -/
structure StatesInv (s : MigrationSystem) : Prop where
  framed : ∀ o, (s.pm.marks o).Framed o
  flagged : ∀ o, (s.pm.marks o).Flagged

section Steps

variable {s : MigrationSystem}

/-- With the frames right, the maps agree when the flags do. -/
theorem statesAgree_iff (h : ∀ o, (s.pm.marks o).Framed o) :
    StatesAgree s.pm ↔ ∀ o, (s.pm.marks o).Flagged := by
  refine forall_congr' fun o => and_iff_left ?_
  have hframe : s.pm.pageTable o =
      if s.pm.simPmIsPageOnDevice o then some (pfnOf o) else none := h o
  rw [SimPageMigration.simPmLookupPfn, hframe]
  cases s.pm.simPmIsPageOnDevice o with
  | false => simp
  | true => simp [pfnOf_ne_invalid]

theorem framed_step (h : ∀ o, (s.pm.marks o).Framed o) (op : MigrationOp) :
    ∀ o, ((s.step op).pm.marks o).Framed o := by
  intro o
  rw [marks_step]
  split_ifs with ho
  · exact (h o).step s ho
  · exact h o

/-- The flags are right after a step when that of its page is. -/
theorem flagged_step_iff (h : ∀ o, (s.pm.marks o).Flagged) (op : MigrationOp) :
    (∀ o, ((s.step op).pm.marks o).Flagged) ↔ ((s.pm.marks op.page).step s op).Flagged := by
  constructor
  · intro hall
    have hpage := hall op.page
    rw [marks_step, if_pos rfl] at hpage
    exact hpage
  · intro hpage o
    rw [marks_step]
    split_ifs with ho
    · rw [ho]
      exact hpage
    · exact h o

theorem flagged_page_iff (h : ∀ o, (s.pm.marks o).Flagged) (op : MigrationOp) :
    ((s.pm.marks op.page).step s op).Flagged ↔ dirtyGuard s op := by
  have hpage := h op.page
  cases op with
  | migrateToDevice offset src size =>
    rw [PageMarks.step, dirtyGuard]
    split_ifs with hok
    · rw [PageMarks.flagged_bring_iff]
      exact ⟨fun hclear _ _ => hclear, fun hguard => hguard hok.1 hok.2⟩
    · exact iff_of_true hpage fun hsrc hfit => absurd ⟨hsrc, hfit⟩ hok
  | migrateToSystem offset dst size vfio =>
    rw [PageMarks.step, dirtyGuard]
    split_ifs with hok hunmap
    · refine iff_of_true ?_ fun _ _ => .inr hunmap
      exact PageMarks.flagged_evict_iff.mpr (PageMarks.isDirty_invalidate hpage)
    · rw [PageMarks.flagged_evict_iff]
      exact ⟨fun hclear _ _ => .inl hclear, fun hguard => (hguard hok.1 hok.2).resolve_right hunmap⟩
    · exact iff_of_true hpage fun hdst hfit => absurd ⟨hdst, hfit⟩ hok
  | invalidate offset => exact iff_of_true hpage.invalidate trivial
  | markDirty offset => exact iff_of_true hpage.markDirty trivial
  | iommuUnmap iova size vfio =>
    refine iff_of_true ?_ trivial
    rw [PageMarks.step]
    split_ifs
    · exact hpage.invalidate
    · exact hpage

theorem StatesInv.agree (h : StatesInv s) : StatesAgree s.pm :=
  (statesAgree_iff h.framed).mpr h.flagged

/-- The maps agree after a step exactly when it meets the condition. -/
theorem statesAgree_step_iff (h : StatesInv s) (op : MigrationOp) :
    StatesAgree (s.step op).pm ↔ dirtyGuard s op := by
  rw [statesAgree_iff (framed_step h.framed op), flagged_step_iff h.flagged,
    flagged_page_iff h.flagged]

theorem statesInv_step (s : MigrationSystem) (op : MigrationOp) (h : StatesInv s)
    (hG : dirtyGuard s op) : StatesInv (s.step op) where
  framed := framed_step h.framed op
  flagged := (statesAgree_iff (framed_step h.framed op)).mp ((statesAgree_step_iff h op).mpr hG)

theorem statesInv_create {deviceMemSize : UInt64} {pm : SimPageMigration}
    (hpm : pm ∈ SimPageMigration.simPmCreate deviceMemSize) (s : MigrationSystem) :
    StatesInv { s with pm := pm } := by
  unfold SimPageMigration.simPmCreate at hpm
  split_ifs at hpm
  · exact absurd hpm nofun
  · obtain rfl := Option.some.inj hpm
    exact ⟨fun _ => rfl, fun _ => iff_of_false nofun nofun⟩

end Steps

/-- **States.**  From a new tracker, the maps agree all along a run exactly when every migration
finds its page without the flag, or clears it by the unmap on the way. -/
theorem page_states_iff (deviceMemSize : UInt64) (s : MigrationSystem) (ops : List MigrationOp) :
    (∀ pm ∈ SimPageMigration.simPmCreate deviceMemSize,
        Always MigrationSystem.step (fun s => StatesAgree s.pm) { s with pm := pm } ops) ↔
      ∀ pm ∈ SimPageMigration.simPmCreate deviceMemSize,
        Guarded MigrationSystem.step dirtyGuard { s with pm := pm } ops := by
  refine forall₂_congr fun pm hpm => ?_
  exact always_iff_guarded statesInv_step (fun _ h => h.agree)
    (fun _ op h => (statesAgree_step_iff h op).mp) ops (statesInv_create hpm s)

/-- A page without a domain is brought in, marked and taken back. -/
theorem page_states_fail :
    ¬∀ (deviceMemSize : UInt64) (s : MigrationSystem) (ops : List MigrationOp),
      ∀ pm ∈ SimPageMigration.simPmCreate deviceMemSize,
        Always MigrationSystem.step (fun s => StatesAgree s.pm) { s with pm := pm } ops := by
  intro h
  let pm : SimPageMigration := ⟨0x1000, fun _ => 0, fun _ => none, fun _ => none, 0, fun _ => none⟩
  have hlast := (h 0x1000 ⟨pm, .empty, false, false, true⟩
    [.migrateToDevice 0 (some fun _ => 0) 0x1000, .markDirty 0,
      .migrateToSystem 0 true 0x1000 false]
    pm rfl).last
  exact absurd ((hlast 0).1.mp rfl) (by decide)

end UsrLinuxEmu.GpuDriver
