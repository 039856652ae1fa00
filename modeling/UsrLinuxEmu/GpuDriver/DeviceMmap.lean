import UsrLinuxEmu.GpuDriver.BoTable
import UsrLinuxEmu.Layout.Confinement
import UsrLinuxEmu.Transition.Simulation

/-!
# `mmap` on the GPU device (`drv/gpgpu_device.cpp`, `hal/hal_user.cpp`, `sim/vram_store.cpp`)

The offset tells what is mapped: the VRAM store, through the BAR2 window; a buffer object, whose
handle it is; or the doorbell page.

* `GpuVramStore` / `init` — the store, with the memory that the system has mapped for it;
* `userMemMapBo`, `mmap` — the mapping of a range of the store, and the decoder over it;
* `Bar2Confined` — a mapping of BAR2 lies in the window and in the store;
* `bar2_confined_iff` — it does exactly when the end of the range does not wrap around.
-/

namespace UsrLinuxEmu.GpuDriver

open UsrLinuxEmu.Layout UsrLinuxEmu.Transition

/-! ### The VRAM store -/

/-- `poolBacking` is zero for `nullptr`. -/
structure GpuVramStore where
  vramSize : UInt64
  poolBacking : UInt64
  initialized : Bool
  deriving DecidableEq

/-- A call of `init`: its argument, and where the system puts the memory, `none` for
`MAP_FAILED`. -/
structure VramInit where
  vramSizeMb : UInt64
  mapping : Option UInt64
  deriving DecidableEq

/-- Memory that the system has mapped. -/
structure Backing where
  addr : UInt64
  bytes : UInt64
  deriving DecidableEq

namespace GpuVramStore

def start : GpuVramStore := ⟨0, 0, false⟩

/-- `vram_size_mb * 1024 * 1024`. -/
def requestedBytes (i : VramInit) : UInt64 := i.vramSizeMb * 1024 * 1024

def init (s : GpuVramStore) (i : VramInit) : Bool × GpuVramStore :=
  if s.initialized then (s.vramSize == requestedBytes i, s)
  else
    match i.mapping with
    | none => (false, ⟨requestedBytes i, 0, false⟩)
    | some addr => (true, ⟨requestedBytes i, addr, true⟩)

def step (s : GpuVramStore) (i : VramInit) : GpuVramStore := (s.init i).2

/-- What the system has mapped for the store; a store that is set up asks for nothing. -/
def noteMapped (mapped : Option Backing) (s : GpuVramStore) (i : VramInit) : Option Backing :=
  if s.initialized then mapped else i.mapping.map fun addr => ⟨addr, requestedBytes i⟩

/-- The store, with the memory that has been mapped for it. -/
abbrev mappedStep : Option Backing × GpuVramStore → VramInit → Option Backing × GpuVramStore :=
  observed step noteMapped

abbrev mappedStart : Option Backing × GpuVramStore := (none, start)

/-- `*user_map`, or the return code. -/
def userMemMapBo (s : GpuVramStore) (boOffset size : UInt64) : Except Int UInt64 :=
  if !s.initialized then .error (-eNODEV)
  else if s.poolBacking = 0 then .error (-eNODEV)
  else if s.vramSize < boOffset then .error (-eINVAL)
  else if s.vramSize < boOffset + size then .error (-eINVAL)
  else .ok (s.poolBacking + boOffset)

end GpuVramStore

/-! ### The decoder -/

/-- `BAR2_OFFSET_BASE`. -/
def bar2OffsetBase : UInt64 := 0x200000000

/-- `BAR2_OFFSET_SIZE`. -/
def bar2OffsetSize : UInt64 := 0x10000000

/-- `DOORBELL_MMAP_OFFSET`. -/
def doorbellMmapOffset : UInt64 := 0x20000

/-- The pointer, and what it points to. -/
inductive MmapResult where
  | failed
  | vram (ptr : UInt64)
  | bo (ptr : UInt64)
  | doorbell (ptr : UInt64)
  deriving DecidableEq

def InBar2 (offset : UInt64) : Prop :=
  bar2OffsetBase ≤ offset ∧ offset < bar2OffsetBase + bar2OffsetSize

instance (offset : UInt64) : Decidable (InBar2 offset) := inferInstanceAs (Decidable (_ ∧ _))

/-- `bo_offset`. -/
def bar2Offset (offset : UInt64) : UInt64 := offset - bar2OffsetBase

def mmapBar2 (store : GpuVramStore) (length offset : UInt64) : MmapResult :=
  if bar2OffsetSize < bar2Offset offset + length then .failed
  else
    match store.userMemMapBo (bar2Offset offset) length with
    | .error _ => .failed
    | .ok mapping => if mapping = 0 then .failed else .vram mapping

def mmapBo (info : BoInfo) (length : UInt64) : MmapResult :=
  if info.size < length then .failed
  else if info.hostPtr = 0 then .failed
  else .bo info.hostPtr

/-- `page` is the doorbell page, `none` when `posix_memalign` has none.  Rings are not mapped, nor
are other offsets. -/
def mmap (store : GpuVramStore) (bos : BoTable) (page : Option UInt64) (length offset : UInt64) :
    MmapResult :=
  if InBar2 offset then mmapBar2 store length offset
  else
    match bos.boMap offset.toUInt32 with
    | some info => mmapBo info length
    | none => if offset = doorbellMmapOffset then page.elim .failed .doorbell else .failed

/-! ### The property -/

/-- In the BAR2 window, what is mapped lies in the window and in the memory of the store, at the
same offset. -/
def Bar2Confined (x : Option Backing × GpuVramStore) (bos : BoTable) (page : Option UInt64)
    (length offset : UInt64) : Prop :=
  InBar2 offset → mmap x.2 bos page length offset ≠ .failed →
    Inside bar2OffsetBase.toNat bar2OffsetSize.toNat offset.toNat length.toNat ∧
      ∃ b ∈ x.1, Inside 0 b.bytes.toNat (bar2Offset offset).toNat length.toNat ∧
        mmap x.2 bos page length offset = .vram (b.addr + bar2Offset offset)

/-- The store has been set up, and has a byte or an end at the offset. -/
def GpuVramStore.Reaches (s : GpuVramStore) (boOffset : UInt64) : Prop :=
  s.initialized = true ∧ s.poolBacking ≠ 0 ∧ boOffset ≤ s.vramSize ∧ s.poolBacking + boOffset ≠ 0

instance (s : GpuVramStore) (boOffset : UInt64) : Decidable (s.Reaches boOffset) :=
  inferInstanceAs (Decidable (_ ∧ _))

/-- The end of the range does not wrap around, where the store reaches its start. -/
def Bar2NoWrap (s : GpuVramStore) (length offset : UInt64) : Prop :=
  InBar2 offset → s.Reaches (bar2Offset offset) →
    (bar2Offset offset).toNat + length.toNat < 2 ^ 64

/-! ### The store over a run -/

/-- A store that is set up has the memory that has been mapped for it. -/
def StoreBacked (x : Option Backing × GpuVramStore) : Prop :=
  x.2.initialized = true → x.1 = some ⟨x.2.poolBacking, x.2.vramSize⟩

theorem StoreBacked.step {x : Option Backing × GpuVramStore} (h : StoreBacked x) (i : VramInit) :
    StoreBacked (GpuVramStore.mappedStep x i) := by
  obtain ⟨mapped, s⟩ := x
  simp only [StoreBacked, observed, GpuVramStore.step, GpuVramStore.init, GpuVramStore.noteMapped]
    at h ⊢
  by_cases hset : s.initialized = true
  · simp only [if_pos hset]
    exact h
  · simp only [if_neg hset]
    cases i.mapping with
    | none => exact nofun
    | some addr => exact fun _ => rfl

theorem storeBacked_run (inits : List VramInit) :
    StoreBacked (run GpuVramStore.mappedStep GpuVramStore.mappedStart inits) :=
  run_of_invariant (I := StoreBacked) (fun _ i h => h.step i) inits fun h => by cases h

/-! ### What BAR2 maps -/

theorem bar2Offset_lt {offset : UInt64} (h : InBar2 offset) :
    (bar2Offset offset).toNat < bar2OffsetSize.toNat ∧
      offset.toNat = bar2OffsetBase.toNat + (bar2Offset offset).toNat := by
  obtain ⟨hge, hlt⟩ := h
  have hend : (bar2OffsetBase + bar2OffsetSize).toNat =
      bar2OffsetBase.toNat + bar2OffsetSize.toNat := by decide
  have hge' := UInt64.le_iff_toNat_le.mp hge
  have hlt' := UInt64.lt_iff_toNat_lt.mp hlt
  rw [bar2Offset, UInt64.toNat_sub_of_le _ _ hge]
  omega

/-- A range below a limit, as the two checks see it: they accept it when it ends below the limit,
and when its end wraps around. -/
theorem end_le_iff {off size limit : UInt64} (hoff : off ≤ limit) :
    off + size ≤ limit ↔
      off.toNat + size.toNat ≤ limit.toNat ∨ 2 ^ 64 ≤ off.toNat + size.toNat := by
  rw [UInt64.le_iff_toNat_le, UInt64.toNat_add, check_iff off.toNat_lt size.toNat_lt,
    wrapsInto_iff_of_le (UInt64.le_iff_toNat_le.mp hoff) size.toNat_lt]

/-- The two checks. -/
def Bar2Accepts (s : GpuVramStore) (length offset : UInt64) : Prop :=
  s.Reaches (bar2Offset offset) ∧ bar2Offset offset + length ≤ bar2OffsetSize ∧
    bar2Offset offset + length ≤ s.vramSize

instance (s : GpuVramStore) (length offset : UInt64) : Decidable (Bar2Accepts s length offset) :=
  inferInstanceAs (Decidable (_ ∧ _))

/-- What the window maps, and when. -/
theorem mmapBar2_eq (s : GpuVramStore) (length offset : UInt64) :
    mmapBar2 s length offset =
      if Bar2Accepts s length offset then .vram (s.poolBacking + bar2Offset offset)
      else .failed := by
  simp only [mmapBar2, GpuVramStore.userMemMapBo, Bar2Accepts, GpuVramStore.Reaches,
    ← UInt64.not_lt]
  by_cases hwindow : bar2OffsetSize < bar2Offset offset + length
  · simp [hwindow]
  by_cases hset : s.initialized = true
  · by_cases hnull : s.poolBacking = 0
    · simp [hset, hnull]
    by_cases hoff : s.vramSize < bar2Offset offset
    · simp [hset, hnull, hoff]
    by_cases hend : s.vramSize < bar2Offset offset + length
    · simp [hset, hnull, hoff, hend]
    by_cases hptr : s.poolBacking + bar2Offset offset = 0
    · simp [hset, hnull, hoff, hend, hptr]
    · simp [hset, hwindow, hnull, hoff, hend, hptr]
  · simp [hset]

theorem bar2Accepts_iff {s : GpuVramStore} {length offset : UInt64} (hbar : InBar2 offset)
    (hreach : s.Reaches (bar2Offset offset)) :
    Bar2Accepts s length offset ↔
      (bar2Offset offset).toNat + length.toNat ≤ min bar2OffsetSize.toNat s.vramSize.toNat ∨
        2 ^ 64 ≤ (bar2Offset offset).toNat + length.toNat := by
  have hwindow : bar2Offset offset ≤ bar2OffsetSize :=
    UInt64.le_iff_toNat_le.mpr (bar2Offset_lt hbar).1.le
  rw [Bar2Accepts, and_iff_right hreach, end_le_iff hwindow, end_le_iff hreach.2.2.1, Nat.le_min,
    ← and_or_right]

/-- **BAR2.**  The mappings of the window lie in it, and in the store, exactly when the end of the
range does not wrap around. -/
theorem bar2_confined_iff (inits : List VramInit) (bos : BoTable) (page : Option UInt64)
    (length offset : UInt64) :
    Bar2Confined (run GpuVramStore.mappedStep GpuVramStore.mappedStart inits) bos page length
        offset ↔
      Bar2NoWrap (run GpuVramStore.mappedStep GpuVramStore.mappedStart inits).2 length offset := by
  have hbacked := storeBacked_run inits
  generalize run GpuVramStore.mappedStep GpuVramStore.mappedStart inits = x at hbacked ⊢
  obtain ⟨mapped, s⟩ := x
  refine forall_congr' fun hbar => ?_
  obtain ⟨hoff, hbase⟩ := bar2Offset_lt hbar
  have hmmap : mmap s bos page length offset = mmapBar2 s length offset := if_pos hbar
  simp only [hmmap, mmapBar2_eq]
  by_cases haccept : Bar2Accepts s length offset
  · have hreach := haccept.1
    have hmapped := hbacked hreach.1
    rw [if_pos haccept]
    constructor
    · intro h _
      obtain ⟨⟨-, hend⟩, -⟩ := h nofun
      have hsize : bar2OffsetSize.toNat < 2 ^ 64 := bar2OffsetSize.toNat_lt
      omega
    · intro hnowrap _
      have hends := ((bar2Accepts_iff hbar hreach).mp haccept).resolve_right
        (Nat.not_le.mpr (hnowrap hreach))
      obtain ⟨hwindow, hstore⟩ := Nat.le_min.mp hends
      refine ⟨⟨?_, ?_⟩, ⟨s.poolBacking, s.vramSize⟩, hmapped, ⟨Nat.zero_le _, ?_⟩, rfl⟩
      · omega
      · omega
      · simpa only [Nat.zero_add] using hstore
  · rw [if_neg haccept]
    refine ⟨fun _ hreach => ?_, fun _ h => absurd rfl h⟩
    rw [bar2Accepts_iff hbar hreach] at haccept
    omega

/-- From the second page on, a range of almost all of the space is mapped. -/
theorem bar2_confined_fails :
    ¬Bar2Confined
      (run GpuVramStore.mappedStep GpuVramStore.mappedStart [⟨256, some 0x7f0000000000⟩])
      (BoTable.init 0) none 0xfffffffffffff000 0x200001000 := by
  intro h
  obtain ⟨hwindow, -⟩ := h (by decide) (by decide)
  revert hwindow
  decide

end UsrLinuxEmu.GpuDriver
