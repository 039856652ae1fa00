import UsrLinuxEmu.GpuDriver.PageMigration
import UsrLinuxEmu.Layout.ByteHistory
import UsrLinuxEmu.Layout.Confinement
import UsrLinuxEmu.Transition.Simulation

/-!
# The memory behind the migrations (`plugins/gpu_driver/sim/page_migration.cpp`)

A migration copies a range of any size to or from the buffer; the pages are recorded by the start of
the range alone.  The end of the range is checked in 64-bit arithmetic.

* `pm_iommuUnmap`, `pm_migrateToDevice`, `pm_migrateToSystem` — what the calls make of the tracker;
* `MigrationLaw` — a migration succeeds inside the buffer only, and what comes back is what was
  last brought there;
* `migrated_bytes_iff` — the runs along which that is so.
-/

namespace UsrLinuxEmu.GpuDriver

open UsrLinuxEmu.Iommu UsrLinuxEmu.Layout UsrLinuxEmu.Transition

/-! ### What the calls make of the tracker -/

namespace MigrationSystem

variable {s : MigrationSystem}

/-- The unmap finds the page, and its flush reaches the tracker. -/
def UnmapInvalidates (s : MigrationSystem) (iova size : UInt64) (vfio : Bool) : Prop :=
  size = iommuPageSize ∧ s.domain.iovaToPhys iova ≠ none ∧ s.flushIotlb = true ∧ vfio = false ∧
    s.domainPm = true

instance (s : MigrationSystem) (iova size : UInt64) (vfio : Bool) :
    Decidable (s.UnmapInvalidates iova size vfio) :=
  inferInstanceAs (Decidable (_ ∧ _))

theorem pm_iommuUnmap (s : MigrationSystem) (iova size : UInt64) (vfio : Bool) :
    (s.iommuUnmap iova size vfio).2.pm =
      if s.UnmapInvalidates iova size vfio then s.pm.simPmInvalidate iova else s.pm := by
  unfold iommuUnmap
  by_cases hsize : size = iommuPageSize
  swap
  · have hnot : ¬s.UnmapInvalidates iova size vfio := fun h => hsize h.1
    rw [if_pos hsize, if_neg hnot]
  by_cases hmap : s.domain.iovaToPhys iova = none
  · have hnot : ¬s.UnmapInvalidates iova size vfio := fun h => h.2.1 hmap
    rw [if_neg (not_not.mpr hsize), if_pos hmap, if_neg hnot]
  rw [if_neg (not_not.mpr hsize), if_neg hmap]
  unfold defaultFlushIotlb eraseIova
  by_cases hinvalidates : s.UnmapInvalidates iova size vfio
  · rw [if_pos hinvalidates]
    obtain ⟨-, -, hflush, rfl, hpm⟩ := hinvalidates
    simp [hflush, hpm]
  · rw [if_neg hinvalidates]
    cases hflush : s.flushIotlb with
    | false => rfl
    | true =>
      cases vfio with
      | true => rfl
      | false =>
        cases hpm : s.domainPm with
        | false => simp
        | true => exact absurd ⟨hsize, hmap, hflush, rfl, hpm⟩ hinvalidates

theorem pm_migrateToDevice (s : MigrationSystem) (offset : UInt64) (src : UInt64 → UInt8)
    (size : UInt64) :
    (s.simPmMigrateToDevice offset (some src) size).2.pm =
      if Succeeds s offset size then (s.pm.copyIn offset src size).recordDevice offset
      else s.pm := by
  unfold simPmMigrateToDevice
  by_cases hfit : Succeeds s offset size
  · rw [if_pos hfit]
    simp only [if_neg (UInt64.not_lt.mpr hfit)]
    split_ifs
    · rfl
    · rfl
  · rw [if_neg hfit]
    simp only [if_pos (UInt64.not_le.mp hfit)]

/-- The tracker when the page is about to be taken back. -/
def unmapped (s : MigrationSystem) (offset size : UInt64) (vfio : Bool) : SimPageMigration :=
  if s.pmDomain = true ∧ s.UnmapInvalidates offset size vfio then s.pm.simPmInvalidate offset
  else s.pm

theorem pm_migrateToSystem (s : MigrationSystem) (offset size : UInt64) (vfio : Bool) :
    (s.simPmMigrateToSystem offset true size vfio).2.pm =
      if Succeeds s offset size then (s.unmapped offset size vfio).recordEvicted offset
      else s.pm := by
  unfold simPmMigrateToSystem
  by_cases hfit : Succeeds s offset size
  · rw [if_pos hfit, unmapped]
    simp only [if_neg (UInt64.not_lt.mpr hfit), Bool.true_eq_false, if_false]
    cases hdomain : s.pmDomain with
    | false => simp
    | true => simp [pm_iommuUnmap]
  · rw [if_neg hfit]
    simp only [if_pos (UInt64.not_le.mp hfit), Bool.true_eq_false, if_false]

end MigrationSystem

/-! ### The property -/

/-- The range lies in the buffer. -/
def InBuffer (s : MigrationSystem) (offset size : UInt64) : Prop :=
  Inside 0 s.pm.deviceMemSize.toNat offset.toNat size.toNat

/-- The successful migrations to the device, newest first. -/
def noteMigration (ws : List ByteWrite) (s : MigrationSystem) : MigrationOp → List ByteWrite
  | .migrateToDevice offset (some src) size =>
    if (s.simPmMigrateToDevice offset (some src) size).1 = 0 then
      ⟨offset.toNat, size.toNat, fun k => src (UInt64.ofNat k)⟩ :: ws
    else ws
  | _ => ws

abbrev observedMigration :
    List ByteWrite × MigrationSystem → MigrationOp → List ByteWrite × MigrationSystem :=
  observed MigrationSystem.step noteMigration

/-- A migration succeeds for ranges in the buffer only, and one to the system returns for each byte
what was last brought there, zero if nothing was. -/
def MigrationLaw (x : List ByteWrite × MigrationSystem) : MigrationOp → Prop
  | .migrateToDevice offset src size =>
    (x.2.simPmMigrateToDevice offset src size).1 = 0 → InBuffer x.2 offset size
  | .migrateToSystem offset dst size vfio =>
    (x.2.simPmMigrateToSystem offset dst size vfio).1.1 = 0 → InBuffer x.2 offset size ∧
      (x.2.simPmMigrateToSystem offset dst size vfio).1.2 =
        (List.range size.toNat).map fun i => (lastWritten x.1 (offset.toNat + i)).getD 0
  | .invalidate _ | .markDirty _ | .iommuUnmap _ _ _ => True

/-- The end of the range does not wrap around into the buffer. -/
def EndsInOrder (s : MigrationSystem) (offset size : UInt64) : Prop :=
  ¬WrapsInto (2 ^ 64) s.pm.deviceMemSize.toNat offset.toNat size.toNat

/-- No migration with a buffer on the other side wraps around. -/
def migrationGuard (x : List ByteWrite × MigrationSystem) : MigrationOp → Prop
  | .migrateToDevice offset src size => src.isSome → EndsInOrder x.2 offset size
  | .migrateToSystem offset dst size _ => dst = true → EndsInOrder x.2 offset size
  | .invalidate _ | .markDirty _ | .iommuUnmap _ _ _ => True

/-! ### The invariant -/

/-- The buffer holds what the migrations have brought. -/
def BufferHolds (x : List ByteWrite × MigrationSystem) : Prop :=
  Reflects (fun k => x.2.pm.deviceMemory (UInt64.ofNat k)) x.2.pm.deviceMemSize.toNat x.1

section Steps

variable {ws : List ByteWrite} {s t : MigrationSystem} {offset size : UInt64}

theorem succeeds_iff (s : MigrationSystem) (offset size : UInt64) :
    Succeeds s offset size ↔ InBuffer s offset size ∨ ¬EndsInOrder s offset size := by
  rw [Succeeds, EndsInOrder, not_not, UInt64.le_iff_toNat_le, UInt64.toNat_add,
    check_iff offset.toNat_lt size.toNat_lt]
  simp only [InBuffer, Inside, Nat.zero_le, true_and, Nat.zero_add]

/-- In order, a migration succeeds in the buffer only; and it is the other way round. -/
theorem endsInOrder_iff (s : MigrationSystem) (offset size : UInt64) :
    EndsInOrder s offset size ↔ (Succeeds s offset size → InBuffer s offset size) := by
  have hlimit := s.pm.deviceMemSize.toNat_lt
  rw [succeeds_iff]
  refine ⟨fun h hok => hok.resolve_right (not_not.mpr h), fun h => ?_⟩
  by_contra hwraps
  have hin := (h (.inr hwraps)).2
  have hends := (not_not.mp hwraps).1
  omega

theorem migrateToDevice_zero_iff (s : MigrationSystem) (offset : UInt64)
    (src : Option (UInt64 → UInt8)) (size : UInt64) :
    (s.simPmMigrateToDevice offset src size).1 = 0 ↔ src.isSome ∧ Succeeds s offset size := by
  cases src with
  | none => simp [MigrationSystem.simPmMigrateToDevice, pmEinval]
  | some src =>
    unfold MigrationSystem.simPmMigrateToDevice
    by_cases hfit : Succeeds s offset size
    · simp only [if_neg (UInt64.not_lt.mpr hfit), hfit, Option.isSome_some, and_self, iff_true]
      split_ifs
      · rfl
      · rfl
    · simp [if_pos (UInt64.not_le.mp hfit), hfit, pmEfault]

/-! #### What leaves the buffer alone -/

/-- The tracker has the same buffer. -/
def SameBuffer (p q : SimPageMigration) : Prop :=
  q.deviceMemory = p.deviceMemory ∧ q.deviceMemSize = p.deviceMemSize

theorem sameBuffer_invalidate (p : SimPageMigration) (offset : UInt64) :
    SameBuffer p (p.simPmInvalidate offset) := by
  unfold SimPageMigration.simPmInvalidate
  split_ifs
  · exact ⟨rfl, rfl⟩
  · exact ⟨rfl, rfl⟩

theorem sameBuffer_markDirty (p : SimPageMigration) (offset : UInt64) :
    SameBuffer p (p.simPmMarkDirty offset) := by
  unfold SimPageMigration.simPmMarkDirty
  split_ifs
  · exact ⟨rfl, rfl⟩
  · exact ⟨rfl, rfl⟩

theorem sameBuffer_iommuUnmap (s : MigrationSystem) (iova size : UInt64) (vfio : Bool) :
    SameBuffer s.pm (s.iommuUnmap iova size vfio).2.pm := by
  rw [MigrationSystem.pm_iommuUnmap]
  split_ifs
  · exact sameBuffer_invalidate s.pm iova
  · exact ⟨rfl, rfl⟩

theorem sameBuffer_unmapped (s : MigrationSystem) (offset size : UInt64) (vfio : Bool) :
    SameBuffer s.pm (s.unmapped offset size vfio) := by
  unfold MigrationSystem.unmapped
  split_ifs
  · exact sameBuffer_invalidate s.pm offset
  · exact ⟨rfl, rfl⟩

theorem sameBuffer_migrateToSystem (s : MigrationSystem) (offset : UInt64) (dst : Bool)
    (size : UInt64) (vfio : Bool) :
    SameBuffer s.pm (s.simPmMigrateToSystem offset dst size vfio).2.pm := by
  cases dst with
  | false => exact ⟨rfl, rfl⟩
  | true =>
    rw [MigrationSystem.pm_migrateToSystem]
    split_ifs
    · exact sameBuffer_unmapped s offset size vfio
    · exact ⟨rfl, rfl⟩

theorem migrateToSystem_result (s : MigrationSystem) (offset : UInt64) (dst : Bool)
    (size : UInt64) (vfio : Bool) :
    (s.simPmMigrateToSystem offset dst size vfio).1 =
      if dst = false then (pmEinval, [])
      else if Succeeds s offset size then (0, s.pm.copyOut offset size)
      else (pmEfault, []) := by
  unfold MigrationSystem.simPmMigrateToSystem
  cases dst with
  | false => rfl
  | true =>
    by_cases hfit : Succeeds s offset size
    · simp only [Bool.true_eq_false, if_false, if_neg (UInt64.not_lt.mpr hfit), if_pos hfit]
      cases s.pmDomain with
      | false => rfl
      | true =>
        have hmem := (sameBuffer_iommuUnmap s offset size vfio).1
        simp only [if_true, SimPageMigration.copyOut, hmem]
    · simp [if_pos (UInt64.not_le.mp hfit), hfit]

/-- What comes back from a range in the buffer is what was last brought there. -/
theorem BufferHolds.copyOut (h : BufferHolds (ws, s)) (hin : InBuffer s offset size) :
    s.pm.copyOut offset size =
      (List.range size.toNat).map fun i => (lastWritten ws (offset.toNat + i)).getD 0 := by
  refine List.map_congr_left fun i hi => ?_
  have hi' := List.mem_range.mp hi
  have hend := hin.2
  have hlimit := s.pm.deviceMemSize.toNat_lt
  have hplace : offset + UInt64.ofNat i = UInt64.ofNat (offset.toNat + i) := by
    rw [UInt64.ofNat_add, UInt64.ofNat_toNat]
  rw [hplace]
  exact h (offset.toNat + i) (by show _ < s.pm.deviceMemSize.toNat; omega)

/-- A tracker with the same buffer. -/
theorem BufferHolds.same (h : BufferHolds (ws, s)) (hsame : SameBuffer s.pm t.pm) :
    BufferHolds (ws, t) := by
  rw [BufferHolds] at h ⊢
  simp only [hsame.1, hsame.2]
  exact h

/-- A migration to the device that stays in the buffer. -/
theorem BufferHolds.copyIn (h : BufferHolds (ws, s)) (src : UInt64 → UInt8)
    (hin : InBuffer s offset size)
    (hsame : SameBuffer (s.pm.copyIn offset src size) t.pm) :
    BufferHolds (⟨offset.toNat, size.toNat, fun k => src (UInt64.ofNat k)⟩ :: ws, t) := by
  have hend := hin.2
  have hlimit := s.pm.deviceMemSize.toNat_lt
  rw [BufferHolds, hsame.1, hsame.2]
  refine Reflects.write h _ fun k hk => ?_
  replace hk : k < s.pm.deviceMemSize.toNat := hk
  have hrange : UInt64.ofNat k - offset < size ↔ _ :=
    ofNat_sub_lt_iff (hk.trans hlimit) (by omega)
  set w : ByteWrite := ⟨offset.toNat, size.toNat, fun k => src (UInt64.ofNat k)⟩
  show (if _ then _ else _) = _
  by_cases hcover : w.Covers k
  · rw [if_pos (hrange.mpr hcover), if_pos hcover, ofNat_sub hcover.1]
    rfl
  · rw [if_neg (mt hrange.mp hcover), if_neg hcover]

end Steps

/-! ### The law -/

theorem bufferHolds_step (x : List ByteWrite × MigrationSystem) (op : MigrationOp)
    (h : BufferHolds x) (hG : migrationGuard x op) : BufferHolds (observedMigration x op) := by
  obtain ⟨ws, s⟩ := x
  cases op with
  | migrateToDevice offset src size =>
    cases src with
    | none => exact h
    | some src =>
      have hresult := migrateToDevice_zero_iff s offset (some src) size
      have hpm := s.pm_migrateToDevice offset src size
      show BufferHolds (if _ then _ else _, _)
      by_cases hfit : Succeeds s offset size
      · have hin := (endsInOrder_iff s offset size).mp (hG rfl) hfit
        rw [if_pos (hresult.mpr ⟨rfl, hfit⟩)]
        rw [if_pos hfit] at hpm
        refine h.copyIn src hin ?_
        show SameBuffer _ (s.simPmMigrateToDevice offset (some src) size).2.pm
        rw [hpm]
        exact ⟨rfl, rfl⟩
      · rw [if_neg fun hzero => hfit (hresult.mp hzero).2]
        rw [if_neg hfit] at hpm
        refine h.same ?_
        show SameBuffer _ (s.simPmMigrateToDevice offset (some src) size).2.pm
        rw [hpm]
        exact ⟨rfl, rfl⟩
  | migrateToSystem offset dst size vfio =>
    exact h.same (sameBuffer_migrateToSystem s offset dst size vfio)
  | invalidate offset => exact h.same (sameBuffer_invalidate s.pm offset)
  | markDirty offset => exact h.same (sameBuffer_markDirty s.pm offset)
  | iommuUnmap iova size vfio => exact h.same (sameBuffer_iommuUnmap s iova size vfio)

/-- A migration obeys the law exactly when it meets the condition. -/
theorem migrationLaw_iff (x : List ByteWrite × MigrationSystem) (op : MigrationOp)
    (h : BufferHolds x) : MigrationLaw x op ↔ migrationGuard x op := by
  obtain ⟨ws, s⟩ := x
  cases op with
  | migrateToDevice offset src size =>
    show (_ → _) ↔ (_ → _)
    rw [migrateToDevice_zero_iff, endsInOrder_iff]
    exact ⟨fun hlaw hsrc hfit => hlaw ⟨hsrc, hfit⟩, fun hguard hok => hguard hok.1 hok.2⟩
  | migrateToSystem offset dst size vfio =>
    show (_ → _) ↔ (_ → _)
    rw [migrateToSystem_result, endsInOrder_iff]
    cases dst with
    | false => simp [pmEinval]
    | true =>
      by_cases hfit : Succeeds s offset size
      · simp only [Bool.true_eq_false, if_false, if_true, true_imp_iff, hfit]
        exact ⟨fun hlaw => hlaw.1, fun hin => ⟨hin, h.copyOut hin⟩⟩
      · simp [hfit, pmEfault]
  | invalidate offset => exact Iff.rfl
  | markDirty offset => exact Iff.rfl
  | iommuUnmap iova size vfio => exact Iff.rfl

theorem bufferHolds_create {deviceMemSize : UInt64} {pm : SimPageMigration}
    (hpm : pm ∈ SimPageMigration.simPmCreate deviceMemSize) (s : MigrationSystem) :
    BufferHolds ([], { s with pm := pm }) := by
  unfold SimPageMigration.simPmCreate at hpm
  split_ifs at hpm
  · exact absurd hpm nofun
  · obtain rfl := Option.some.inj hpm
    exact fun _ _ => rfl

/-- **Migrations.**  From a new tracker, every migration succeeds in the buffer only and brings back
what was last brought there exactly when no end of a range wraps around into the buffer. -/
theorem migrated_bytes_iff (deviceMemSize : UInt64) (s : MigrationSystem)
    (ops : List MigrationOp) :
    (∀ pm ∈ SimPageMigration.simPmCreate deviceMemSize,
        Guarded observedMigration MigrationLaw ([], { s with pm := pm }) ops) ↔
      ∀ pm ∈ SimPageMigration.simPmCreate deviceMemSize,
        Guarded observedMigration migrationGuard ([], { s with pm := pm }) ops := by
  refine forall₂_congr fun pm hpm => ?_
  exact guarded_iff_of_inductive bufferHolds_step (fun x op h => (migrationLaw_iff x op h).mpr)
    (fun x op h => (migrationLaw_iff x op h).mp) ops (bufferHolds_create hpm s)

/-- The 16 bytes before the buffer are taken back from it. -/
theorem migrated_bytes_fails :
    ¬∀ (deviceMemSize : UInt64) (s : MigrationSystem) (ops : List MigrationOp),
      ∀ pm ∈ SimPageMigration.simPmCreate deviceMemSize,
        Guarded observedMigration MigrationLaw ([], { s with pm := pm }) ops := by
  intro h
  let pm : SimPageMigration := ⟨0x1000, fun _ => 0, fun _ => none, fun _ => none, 0, fun _ => none⟩
  obtain ⟨hlaw, -⟩ := h 0x1000 (.attached pm true)
    [.migrateToSystem 0xfffffffffffffff0 true 0x10 false] pm rfl
  have hok : (((MigrationSystem.attached pm true).simPmMigrateToSystem 0xfffffffffffffff0 true
      0x10 false).1).1 = 0 := rfl
  exact absurd (hlaw hok).1.2 (by decide)

end UsrLinuxEmu.GpuDriver
