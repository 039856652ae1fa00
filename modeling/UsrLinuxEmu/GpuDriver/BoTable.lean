import Mathlib.Data.List.Perm.Subperm
import UsrLinuxEmu.GpuCore.BuddySizes
import UsrLinuxEmu.GpuCore.BuddySoundness
import UsrLinuxEmu.GpuDriver.HalUser

/-!
# Buffer objects (`drv/gpgpu_device.cpp`, `hal/hal_user.cpp`)

A buffer object has a bit in the handle manager, an entry in `bo_map_` and a block of the HAL heap,
which is set up at its first allocation.

* `handleAllocBo`, `handleFreeBo`, `handleMapBo` — the ioctls;
* `BoTableSound` — the bits are those of the entries, every entry has a live block, and the ranges
  of distinct entries are disjoint;
* `FailsCleanly` — an ioctl that fails leaves handles, entries and heap as they were;
* `bo_table_iff` — with requests that the heap can round up, both hold along a run exactly when no
  request runs out of list nodes half-way.
-/

namespace UsrLinuxEmu.GpuDriver

open UsrLinuxEmu.GpuCore UsrLinuxEmu.Transition

/-! ### The device -/

/-- `max_handles_`. -/
def maxBoHandles : ℕ := 65535

structure BoInfo where
  gpuVa : UInt64
  size : UInt64
  domain : UInt32
  flags : UInt32
  hostPtr : UInt64
  deriving DecidableEq

/-- `buddy` is `none` until the first allocation, and `heapPtr` is where the heap is mapped. -/
structure BoTable where
  allocatedBits : UInt32 → Bool
  boMap : UInt32 → Option BoInfo
  buddy : Option GpuBuddy
  heapPtr : UInt64

inductive BoOp where
  | allocBo (size : UInt64) (domain flags : UInt32)
  | freeBo (handle : UInt32)
  | mapBo (handle : UInt32)
  deriving DecidableEq

/-- The heap that the first allocation sets up. -/
def halBuddyInit : GpuBuddy := (GpuBuddy.gpuBuddyInit halHeapBase halHeapSize).get rfl

namespace BoTable

def init (heapPtr : UInt64) : BoTable := ⟨fun _ => false, fun _ => none, none, heapPtr⟩

def heap (s : BoTable) : GpuBuddy := s.buddy.getD halBuddyInit

def setBuddy (s : BoTable) (b : GpuBuddy) : BoTable := { s with buddy := some b }

/-- `bo_map_[handle] = info`, or its erasure. -/
def setBo (s : BoTable) (handle : UInt32) (info : Option BoInfo) : BoTable :=
  { s with boMap := Function.update s.boMap handle info }

theorem setBo_setBo (s : BoTable) (handle : UInt32) (info info' : Option BoInfo) :
    (s.setBo handle info).setBo handle info' = s.setBo handle info' := by
  simp only [setBo, Function.update_idem]

def setBit (s : BoTable) (handle : UInt32) (bit : Bool) : BoTable :=
  { s with allocatedBits := Function.update s.allocatedBits handle bit }

/-! ### The HAL heap -/

def memAlloc (s : BoTable) (size : UInt64) : Option UInt64 × BoTable :=
  let r := s.heap.gpuBuddyAlloc size
  (r.1, s.setBuddy r.2)

/-- A heap that has not been set up has no record to free. -/
def memFree (s : BoTable) (devAddr : UInt64) : BoTable :=
  match s.buddy with
  | none => s
  | some b => s.setBuddy (b.gpuBuddyFree devAddr).2

def heapAddr (s : BoTable) (gpuVa : UInt64) : UInt64 := s.heapPtr + (gpuVa - halHeapBase)

/-! ### The handle manager -/

def handles : List UInt32 := (List.range' 1 maxBoHandles).map UInt32.ofNat

def allocateHandle (s : BoTable) : Option (UInt32 × BoTable) :=
  (handles.find? fun i => !s.allocatedBits i).map fun i => (i, s.setBit i true)

def handleValid (s : BoTable) (handle : UInt32) : Bool :=
  handle != 0 && decide (handle.toNat ≤ maxBoHandles) && s.allocatedBits handle

def freeHandle (s : BoTable) (handle : UInt32) : BoTable :=
  if s.handleValid handle then s.setBit handle false else s

/-! ### The ioctls -/

def handleAllocBo (s : BoTable) (size : UInt64) (domain flags : UInt32) :
    Except Int (UInt32 × UInt64) × BoTable :=
  if domain = 0 then (.error (-eINVAL), s)
  else
    match s.memAlloc size with
    | (none, s) => (.error (-eNOMEM), s)
    | (some gpuVa, s) =>
      if gpuVa = 0 then (.error (-eNOMEM), s)
      else
        match s.allocateHandle with
        | none => (.error (-eNOMEM), s.memFree gpuVa)
        | some (handle, s) =>
          (.ok (handle, gpuVa), s.setBo handle (some ⟨gpuVa, size, domain, flags, s.heapAddr gpuVa⟩))

def handleFreeBo (s : BoTable) (handle : UInt32) : Except Int Unit × BoTable :=
  if handle = 0 then (.error (-eINVAL), s)
  else if !s.handleValid handle then (.error (-eINVAL), s)
  else
    match s.boMap handle with
    | some info => (.ok (), ((s.memFree info.gpuVa).setBo handle none).freeHandle handle)
    | none => (.ok (), s.freeHandle handle)

/-- The address that `args->gpu_va` is set to. -/
def handleMapBo (s : BoTable) (handle : UInt32) : Except Int UInt64 :=
  if !s.handleValid handle then .error (-eINVAL)
  else
    match s.boMap handle with
    | none => .error (-eINVAL)
    | some info => .ok info.hostPtr

/-- Whether the ioctl succeeds, and the state it leaves. -/
def call (s : BoTable) : BoOp → Bool × BoTable
  | .allocBo size domain flags =>
    let r := s.handleAllocBo size domain flags
    (r.1.toBool, r.2)
  | .freeBo handle =>
    let r := s.handleFreeBo handle
    (r.1.toBool, r.2)
  | .mapBo handle => ((s.handleMapBo handle).toBool, s)

def step (s : BoTable) (op : BoOp) : BoTable := (s.call op).2

/-! ### Soundness -/

structure BoTableSound (s : BoTable) : Prop where
  keys : ∀ h, s.handleValid h = (s.boMap h).isSome
  live : ∀ h info, s.boMap h = some info → ∃ k, ⟨k, info.gpuVa⟩ ∈ s.heap.liveBlocks
  disjoint : ∀ h h' info info', s.boMap h = some info → s.boMap h' = some info' → h ≠ h' →
    info.gpuVa.toNat + info.size.toNat ≤ info'.gpuVa.toNat ∨
      info'.gpuVa.toNat + info'.size.toNat ≤ info.gpuVa.toNat

def FailsCleanly (s : BoTable) (op : BoOp) : Prop :=
  (s.call op).1 = false → (s.step op).allocatedBits = s.allocatedBits ∧
    (s.step op).boMap = s.boMap ∧ (s.step op).heap = s.heap

/-- A request of more than `2 ^ 63` bytes, which rounds up to zero, is refused. -/
def SizeOk (s : BoTable) : BoOp → Prop
  | .allocBo size domain _ => domain ≠ 0 → size.toNat ≤ 2 ^ 63 ∨
      s.heap.firstFit (orderForSize (alignedSize size)) = none
  | _ => True

instance decidableSizeOk (s : BoTable) : ∀ op, Decidable (SizeOk s op)
  | .allocBo _ domain _ =>
    inferInstanceAs (Decidable (domain ≠ 0 → _ ∨ GpuBuddy.firstFit _ _ = none))
  | .freeBo _ | .mapBo _ => inferInstanceAs (Decidable True)

/-- The request finds a node for the left half of every block that it splits. -/
def NodesOk (s : BoTable) : BoOp → Prop
  | .allocBo size domain _ => domain ≠ 0 → size ≠ 0 →
      ∀ t ∈ s.heap.firstFit (orderForSize (alignedSize size)),
        t = orderForSize (alignedSize size) ∨
          s.heap.blockPoolUsed + 2 * (t - orderForSize (alignedSize size)) ≤ blockPoolSize + 1
  | _ => True

instance decidableNodesOk (s : BoTable) : ∀ op, Decidable (NodesOk s op)
  | .allocBo size domain _ =>
    inferInstanceAs (Decidable (domain ≠ 0 → size ≠ 0 → ∀ t ∈ GpuBuddy.firstFit _ _, _ ∨ _))
  | .freeBo _ | .mapBo _ => inferInstanceAs (Decidable True)

/-! ### The invariant -/

theorem halBuddyInit_eq : halBuddyInit = GpuBuddy.fresh halHeapBase 16 := rfl

structure BoInv (s : BoTable) : Prop where
  keys : ∀ h, s.handleValid h = (s.boMap h).isSome
  steady : s.heap.Steady
  base : s.heap.baseAddr = halHeapBase
  order : s.heap.maxOrder = 16
  live : ∀ h info, s.boMap h = some info →
    ∃ k, ⟨k, info.gpuVa⟩ ∈ s.heap.liveBlocks ∧ info.size.toNat ≤ 2 ^ k * 4096
  inj : ∀ h h' info info', s.boMap h = some info → s.boMap h' = some info' →
    info.gpuVa = info'.gpuVa → h = h'

theorem boInv_init (heapPtr : UInt64) : BoInv (init heapPtr) where
  keys := fun h => by simp [handleValid, init]
  steady := by
    have hfits : PoolFits halHeapBase 16 := by decide
    exact GpuBuddy.steady_fresh hfits (by decide)
  base := GpuBuddy.fresh_baseAddr halHeapBase 16
  order := GpuBuddy.fresh_maxOrder halHeapBase 16
  live := nofun
  inj := nofun

/-- Handles and entries agree, and every entry has a block of its own, of an order that is right for
it. -/
structure BoBacked (fits : ℕ → BoInfo → Prop) (s : BoTable) : Prop where
  keys : ∀ h, s.handleValid h = (s.boMap h).isSome
  steady : s.heap.Steady
  base : s.heap.baseAddr = halHeapBase
  order : s.heap.maxOrder = 16
  live : ∀ h info, s.boMap h = some info → ∃ k, ⟨k, info.gpuVa⟩ ∈ s.heap.liveBlocks ∧ fits k info
  inj : ∀ h h' info info', s.boMap h = some info → s.boMap h' = some info' →
    info.gpuVa = info'.gpuVa → h = h'

/-- The block covers the size. -/
def Covers (k : ℕ) (info : BoInfo) : Prop := info.size.toNat ≤ 2 ^ k * 4096

section Invariant

variable {s : BoTable} {fits : ℕ → BoInfo → Prop}

theorem BoInv.backed (h : BoInv s) : BoBacked Covers s :=
  ⟨h.keys, h.steady, h.base, h.order, h.live, h.inj⟩

theorem BoBacked.boInv (h : BoBacked Covers s) : BoInv s :=
  ⟨h.keys, h.steady, h.base, h.order, h.live, h.inj⟩

theorem BoInv.sound (h : BoInv s) : BoTableSound s where
  keys := h.keys
  live := fun handle info hinfo => by
    obtain ⟨k, hlive, -⟩ := h.live handle info hinfo
    exact ⟨k, hlive⟩
  disjoint := fun handle handle' info info' hinfo hinfo' hne => by
    obtain ⟨k, hlive, hsize⟩ := h.live handle info hinfo
    obtain ⟨k', hlive', hsize'⟩ := h.live handle' info' hinfo'
    have hapart := h.steady.live_disjoint hlive hlive' fun heq =>
      hne (h.inj handle handle' info info' hinfo hinfo' (congrArg BuddyBlock.addr heq))
    simp only [BuddyBlock.bytes] at hapart
    omega

/-! ### Handles -/

theorem mem_handles {h : UInt32} : h ∈ handles ↔ h ≠ 0 ∧ h.toNat ≤ maxBoHandles := by
  constructor
  · intro hmem
    obtain ⟨i, hi, rfl⟩ := List.mem_map.mp hmem
    have hbounds := List.mem_range'_1.mp hi
    unfold maxBoHandles at hbounds ⊢
    have hnat : (UInt32.ofNat i).toNat = i := UInt32.toNat_ofNat_of_lt' (by
      rw [UInt32.size]
      omega)
    refine ⟨fun hzero => ?_, by omega⟩
    rw [hzero] at hnat
    simp at hnat
    omega
  · intro ⟨hne, hle⟩
    refine List.mem_map.mpr ⟨h.toNat, List.mem_range'_1.mpr ⟨?_, ?_⟩, UInt32.ofNat_toNat⟩
    · rcases Nat.eq_zero_or_pos h.toNat with hzero | hpos
      · exact absurd (UInt32.toNat_inj.mp hzero) hne
      · exact hpos
    · omega

theorem nodup_handles : handles.Nodup := by
  refine List.Nodup.map_on (fun i hi j hj heq => ?_) List.nodup_range'
  have hi' := List.mem_range'_1.mp hi
  have hj' := List.mem_range'_1.mp hj
  unfold maxBoHandles at hi' hj'
  have hnat := congrArg UInt32.toNat heq
  rwa [UInt32.toNat_ofNat_of_lt' (by rw [UInt32.size]; omega),
    UInt32.toNat_ofNat_of_lt' (by rw [UInt32.size]; omega)] at hnat

theorem handleValid_iff {h : UInt32} :
    s.handleValid h = true ↔ h ∈ handles ∧ s.allocatedBits h = true := by
  rw [mem_handles, handleValid, Bool.and_eq_true, Bool.and_eq_true, bne_iff_ne, decide_eq_true_eq]

/-- There are more handles than blocks that the heap can hand out. -/
theorem BoBacked.exists_free_handle (h : BoBacked fits s) :
    ∃ i ∈ handles, s.allocatedBits i = false := by
  by_contra hnot
  have hall : ∀ i ∈ handles, ∃ info, s.boMap i = some info := by
    intro i hi
    have hbit : s.allocatedBits i = true := by
      by_contra hbit
      exact hnot ⟨i, hi, Bool.not_eq_true _ ▸ hbit⟩
    have hvalid := h.keys i
    rw [handleValid_iff.mpr ⟨hi, hbit⟩] at hvalid
    exact Option.isSome_iff_exists.mp hvalid.symm
  have hnodup : (handles.map fun i => ((s.boMap i).map BoInfo.gpuVa).getD 0).Nodup := by
    refine List.Nodup.map_on (fun i hi j hj heq => ?_) nodup_handles
    obtain ⟨info, hinfo⟩ := hall i hi
    obtain ⟨info', hinfo'⟩ := hall j hj
    rw [hinfo, hinfo'] at heq
    exact h.inj i j info info' hinfo hinfo' heq
  have hsub : (handles.map fun i => ((s.boMap i).map BoInfo.gpuVa).getD 0) ⊆
      s.heap.liveBlocks.map BuddyBlock.addr := by
    intro va hva
    obtain ⟨i, hi, rfl⟩ := List.mem_map.mp hva
    obtain ⟨info, hinfo⟩ := hall i hi
    obtain ⟨k, hlive, -⟩ := h.live i info hinfo
    rw [hinfo]
    exact List.mem_map.mpr ⟨_, hlive, rfl⟩
  have hlen := (List.Nodup.subperm hnodup hsub).length_le
  have hlive : s.heap.liveBlocks.length ≤ s.heap.blocks.length := by simp [GpuBuddy.blocks]
  have hnodes := h.steady.nodes
  have hused := h.steady.used_le
  simp only [List.length_map, handles, List.length_range', maxBoHandles] at hlen
  simp only [blockPoolSize, gpuBuddyMaxRecords, gpuBuddyMaxOrder] at hused
  omega

/-! ### What the ioctls do -/

/-- ALLOC_BO fails with nothing changed, or runs out of nodes under a split, or adds an entry. -/
inductive AllocBoStep (s : BoTable) (size : UInt64) (domain : UInt32) : Bool × BoTable → Prop
  | refused {s' : BoTable}
      (h : domain = 0 ∨ size = 0 ∨ s.heap.firstFit (orderForSize (alignedSize size)) = none)
      (hbits : s'.allocatedBits = s.allocatedBits) (hmap : s'.boMap = s.boMap)
      (hheap : s'.heap = s.heap) : AllocBoStep s size domain (false, s')
  | lost {s' : BoTable} {t : ℕ} (hdomain : domain ≠ 0) (hsize : size ≠ 0)
      (hfit : s.heap.firstFit (orderForSize (alignedSize size)) = some t)
      (hsplit : orderForSize (alignedSize size) < t)
      (hshort : blockPoolSize + 1 <
        s.heap.blockPoolUsed + 2 * (t - orderForSize (alignedSize size)))
      (hvolume : s'.heap.volume < s.heap.volume) : AllocBoStep s size domain (false, s')
  | served {i : UInt32} {info : BoInfo} {b : GpuBuddy} {t : ℕ} (hdomain : domain ≠ 0)
      (hsize : size ≠ 0) (hfit : s.heap.firstFit (orderForSize (alignedSize size)) = some t)
      (hnodes : t = orderForSize (alignedSize size) ∨
        s.heap.blockPoolUsed + 2 * (t - orderForSize (alignedSize size)) ≤ blockPoolSize + 1)
      (hi : i ∈ handles) (hbit : s.allocatedBits i = false) (hinfo : info.size = size)
      (hsteady : b.Steady)
      (hbase : b.baseAddr = s.heap.baseAddr) (horder : b.maxOrder = s.heap.maxOrder)
      (hlive : b.liveBlocks.Perm
        (⟨orderForSize (alignedSize size), info.gpuVa⟩ :: s.heap.liveBlocks)) :
      AllocBoStep s size domain (true, ((s.setBuddy b).setBit i true).setBo i (some info))

theorem memAlloc_eq (s : BoTable) (size : UInt64) : s.memAlloc size =
    ((s.heap.gpuBuddyAlloc size).1, s.setBuddy (s.heap.gpuBuddyAlloc size).2) := rfl

/-- No block lies at address zero. -/
theorem live_ne_zero {b : GpuBuddy} (hb : b.Steady) (hbase : b.baseAddr = halHeapBase)
    {x : BuddyBlock} (hx : x ∈ b.liveBlocks) : x.addr ≠ 0 := by
  intro hzero
  obtain ⟨hstart, -⟩ := hb.laid.bounds (List.mem_append_left _ hx)
  have hpos : 0 < halHeapBase.toNat := by decide
  have hnat : (0 : UInt64).toNat = 0 := rfl
  rw [hbase, hzero, hnat] at hstart
  omega

/-- What ALLOC_BO does, in full. -/
inductive AllocBoCall (s : BoTable) (size : UInt64) (domain flags : UInt32) :
    Except Int (UInt32 × UInt64) × BoTable → Prop
  | refused {rc : Int} {s' : BoTable}
      (h : domain = 0 ∨ size = 0 ∨ s.heap.firstFit (orderForSize (alignedSize size)) = none)
      (hbits : s'.allocatedBits = s.allocatedBits) (hmap : s'.boMap = s.boMap)
      (hheap : s'.heap = s.heap) (hptr : s'.heapPtr = s.heapPtr) :
      AllocBoCall s size domain flags (.error rc, s')
  | lost {rc : Int} {b : GpuBuddy} {t : ℕ} (hdomain : domain ≠ 0) (hsize : size ≠ 0)
      (hfit : s.heap.firstFit (orderForSize (alignedSize size)) = some t)
      (hsplit : orderForSize (alignedSize size) < t)
      (hshort : blockPoolSize + 1 <
        s.heap.blockPoolUsed + 2 * (t - orderForSize (alignedSize size)))
      (hsteady : b.Steady) (hpool : GpuBuddy.SamePool s.heap b)
      (hvolume : b.volume < s.heap.volume) :
      AllocBoCall s size domain flags (.error rc, s.setBuddy b)
  | served {i : UInt32} {gpuVa : UInt64} {b : GpuBuddy} {t : ℕ} (hdomain : domain ≠ 0)
      (hsize : size ≠ 0) (hfit : s.heap.firstFit (orderForSize (alignedSize size)) = some t)
      (hnodes : t = orderForSize (alignedSize size) ∨
        s.heap.blockPoolUsed + 2 * (t - orderForSize (alignedSize size)) ≤ blockPoolSize + 1)
      (hi : i ∈ handles) (hbit : s.allocatedBits i = false) (hsteady : b.Steady)
      (hbase : b.baseAddr = s.heap.baseAddr) (horder : b.maxOrder = s.heap.maxOrder)
      (hlive : b.liveBlocks.Perm (⟨orderForSize (alignedSize size), gpuVa⟩ :: s.heap.liveBlocks)) :
      AllocBoCall s size domain flags (.ok (i, gpuVa), ((s.setBuddy b).setBit i true).setBo i
        (some ⟨gpuVa, size, domain, flags, s.heapAddr gpuVa⟩))

theorem BoBacked.allocCall (h : BoBacked fits s) (size : UInt64) (domain flags : UInt32) :
    AllocBoCall s size domain flags (s.handleAllocBo size domain flags) := by
  rw [handleAllocBo]
  by_cases hdomain : domain = 0
  · rw [if_pos hdomain]
    exact .refused (.inl hdomain) rfl rfl rfl rfl
  rw [if_neg hdomain, memAlloc_eq]
  have hstep := h.steady.allocStep size
  generalize s.heap.gpuBuddyAlloc size = r at hstep ⊢
  cases hstep with
  | refused hreason => exact .refused (.inr hreason) rfl rfl rfl rfl
  | lost hsize hfit hsplit hshort hsteady hpool hvolume =>
    exact .lost hdomain hsize hfit hsplit hshort hsteady hpool hvolume
  | @served t addr b hsize hfit hnodes hsteady hbase horder hlive =>
    have hne := live_ne_zero hsteady (hbase.trans h.base) (hlive.mem_iff.mpr List.mem_cons_self)
    obtain ⟨j, hj, hjbit⟩ := h.exists_free_handle
    have hsome : (handles.find? fun i => !s.allocatedBits i).isSome = true :=
      List.find?_isSome.mpr ⟨j, hj, by rw [hjbit]; rfl⟩
    obtain ⟨i, hfind⟩ := Option.isSome_iff_exists.mp hsome
    have hhandle : (s.setBuddy b).allocateHandle = some (i, (s.setBuddy b).setBit i true) := by
      rw [allocateHandle, show (s.setBuddy b).allocatedBits = s.allocatedBits from rfl, hfind]
      rfl
    have hbit : s.allocatedBits i = false := by simpa using List.find?_some hfind
    dsimp only
    rw [if_neg hne, hhandle]
    exact .served hdomain hsize hfit hnodes (List.mem_of_find?_eq_some hfind) hbit hsteady
      hbase horder hlive

theorem BoInv.allocStep (h : BoInv s) (size : UInt64) (domain flags : UInt32) :
    AllocBoStep s size domain (s.call (.allocBo size domain flags)) := by
  have hcall := h.backed.allocCall size domain flags
  rw [call]
  generalize s.handleAllocBo size domain flags = r at hcall ⊢
  cases hcall with
  | refused hreason hbits hmap hheap => exact .refused hreason hbits hmap hheap
  | lost hdomain hsize hfit hsplit hshort _ _ hvolume =>
    exact .lost hdomain hsize hfit hsplit hshort hvolume
  | served hdomain hsize hfit hnodes hi hbit hsteady hbase horder hlive =>
    exact .served hdomain hsize hfit hnodes hi hbit rfl hsteady hbase horder hlive

/-- FREE_BO fails with nothing changed, or removes an entry. -/
inductive FreeBoStep (s : BoTable) (handle : UInt32) : Bool × BoTable → Prop
  | refused : FreeBoStep s handle (false, s)
  | freed {info : BoInfo} {k : ℕ} {b : GpuBuddy} (hinfo : s.boMap handle = some info)
      (hsteady : b.Steady) (hbase : b.baseAddr = s.heap.baseAddr)
      (horder : b.maxOrder = s.heap.maxOrder)
      (hlive : s.heap.liveBlocks.Perm (⟨k, info.gpuVa⟩ :: b.liveBlocks)) :
      FreeBoStep s handle (true, ((s.setBuddy b).setBo handle none).setBit handle false)

/-- The heap of an entry has been set up. -/
theorem BoBacked.memFree (h : BoBacked fits s) {handle : UInt32} {info : BoInfo}
    (hinfo : s.boMap handle = some info) :
    s.memFree info.gpuVa = s.setBuddy (s.heap.gpuBuddyFree info.gpuVa).2 := by
  obtain ⟨k, hlive, -⟩ := h.live handle info hinfo
  rcases hbuddy : s.buddy with _ | b
  · rw [heap, hbuddy, Option.getD_none, halBuddyInit_eq, GpuBuddy.fresh_live] at hlive
    cases hlive
  · rw [BoTable.memFree, heap, hbuddy]
    rfl

theorem BoBacked.freeStep (h : BoBacked fits s) (handle : UInt32) :
    FreeBoStep s handle (s.call (.freeBo handle)) := by
  rw [call, handleFreeBo]
  by_cases hzero : handle = 0
  · rw [if_pos hzero]
    exact .refused
  rw [if_neg hzero]
  by_cases hvalid : s.handleValid handle = true
  · have hinfo := h.keys handle
    rw [hvalid] at hinfo
    obtain ⟨info, hinfo⟩ := Option.isSome_iff_exists.mp hinfo.symm
    obtain ⟨k, hlive, -⟩ := h.live handle info hinfo
    have hstep := h.steady.freeStep info.gpuVa
    simp only [hvalid, Bool.not_true, Bool.false_eq_true, if_false, hinfo, h.memFree hinfo]
    generalize s.heap.gpuBuddyFree info.gpuVa = r at hstep ⊢
    cases hstep with
    | unknown hfind => exact absurd hlive (GpuBuddy.findRecord_none hfind k)
    | @freed _ b hfind hsteady hbase horder hlive' =>
      have hbit : ((s.setBuddy b).setBo handle none).handleValid handle = true := hvalid
      rw [freeHandle, if_pos hbit]
      exact .freed hinfo hsteady hbase horder hlive'
  · simp only [hvalid, Bool.not_false, if_true]
    exact .refused

/-! ### The invariant is kept -/

theorem BoBacked.of_eq {s' : BoTable} (h : BoBacked fits s)
    (hbits : s'.allocatedBits = s.allocatedBits) (hmap : s'.boMap = s.boMap)
    (hheap : s'.heap = s.heap) : BoBacked fits s' where
  keys := by
    unfold handleValid
    rw [hbits, hmap]
    exact h.keys
  steady := hheap ▸ h.steady
  base := hheap ▸ h.base
  order := hheap ▸ h.order
  live := by
    rw [hmap, hheap]
    exact h.live
  inj := by
    rw [hmap]
    exact h.inj

theorem BoBacked.insert (h : BoBacked fits s) {i : UInt32} {info : BoInfo} {b : GpuBuddy} {k : ℕ}
    (hi : i ∈ handles) (hbit : s.allocatedBits i = false) (hsteady : b.Steady)
    (hbase : b.baseAddr = s.heap.baseAddr) (horder : b.maxOrder = s.heap.maxOrder)
    (hlive : b.liveBlocks.Perm (⟨k, info.gpuVa⟩ :: s.heap.liveBlocks))
    (hsize : fits k info) :
    BoBacked fits (((s.setBuddy b).setBit i true).setBo i (some info)) := by
  have hnew : ∀ handle info', s.boMap handle = some info' → info'.gpuVa ≠ info.gpuVa := by
    intro handle info' hinfo' heq
    obtain ⟨k', hlive', -⟩ := h.live handle info' hinfo'
    exact hsteady.addr_ne hlive hlive' heq
  refine ⟨fun handle => ?_, hsteady, hbase.trans h.base, horder.trans h.order,
    fun handle info' hinfo' => ?_, fun handle handle' info₁ info₂ hinfo₁ hinfo₂ heq => ?_⟩
  · by_cases heq : handle = i
    · subst heq
      obtain ⟨hne, hle⟩ := mem_handles.mp hi
      simp [handleValid, setBo, setBit, hne, hle]
    · have hkeys := h.keys handle
      simp only [handleValid, setBo, setBit, Function.update_of_ne heq] at hkeys ⊢
      exact hkeys
  · change Function.update s.boMap i (some info) handle = some info' at hinfo'
    by_cases heq : handle = i
    · rw [heq, Function.update_self, Option.some.injEq] at hinfo'
      subst hinfo'
      exact ⟨k, hlive.mem_iff.mpr List.mem_cons_self, hsize⟩
    · rw [Function.update_of_ne heq] at hinfo'
      obtain ⟨k', hlive', hsize'⟩ := h.live handle info' hinfo'
      exact ⟨k', hlive.mem_iff.mpr (List.mem_cons_of_mem _ hlive'), hsize'⟩
  · change Function.update s.boMap i (some info) handle = some info₁ at hinfo₁
    change Function.update s.boMap i (some info) handle' = some info₂ at hinfo₂
    by_cases h₁ : handle = i
    · by_cases h₂ : handle' = i
      · exact h₁.trans h₂.symm
      · rw [h₁, Function.update_self, Option.some.injEq] at hinfo₁
        rw [Function.update_of_ne h₂] at hinfo₂
        exact absurd (hinfo₁ ▸ heq.symm) (hnew handle' info₂ hinfo₂)
    · rw [Function.update_of_ne h₁] at hinfo₁
      by_cases h₂ : handle' = i
      · rw [h₂, Function.update_self, Option.some.injEq] at hinfo₂
        exact absurd (hinfo₂ ▸ heq) (hnew handle info₁ hinfo₁)
      · rw [Function.update_of_ne h₂] at hinfo₂
        exact h.inj handle handle' info₁ info₂ hinfo₁ hinfo₂ heq

theorem BoBacked.erase (h : BoBacked fits s) {i : UInt32} {info : BoInfo} {b : GpuBuddy} {k : ℕ}
    (hinfo : s.boMap i = some info) (hsteady : b.Steady) (hbase : b.baseAddr = s.heap.baseAddr)
    (horder : b.maxOrder = s.heap.maxOrder)
    (hlive : s.heap.liveBlocks.Perm (⟨k, info.gpuVa⟩ :: b.liveBlocks)) :
    BoBacked fits (((s.setBuddy b).setBo i none).setBit i false) := by
  have hother : ∀ handle info', Function.update s.boMap i none handle = some info' →
      handle ≠ i ∧ s.boMap handle = some info' := by
    intro handle info' hinfo'
    by_cases heq : handle = i
    · rw [heq, Function.update_self] at hinfo'
      cases hinfo'
    · rw [Function.update_of_ne heq] at hinfo'
      exact ⟨heq, hinfo'⟩
  refine ⟨fun handle => ?_, hsteady, hbase.trans h.base, horder.trans h.order,
    fun handle info' hinfo' => ?_, fun handle handle' info₁ info₂ hinfo₁ hinfo₂ heq => ?_⟩
  · by_cases heq : handle = i
    · subst heq
      simp [handleValid, setBo, setBit]
    · have hkeys := h.keys handle
      simp only [handleValid, setBo, setBit, Function.update_of_ne heq] at hkeys ⊢
      exact hkeys
  · obtain ⟨hne, hinfo'⟩ := hother handle info' hinfo'
    obtain ⟨k', hlive', hsize'⟩ := h.live handle info' hinfo'
    rcases List.mem_cons.mp (hlive.mem_iff.mp hlive') with heq | hmem
    · have haddr : info'.gpuVa = info.gpuVa := congrArg BuddyBlock.addr heq
      exact absurd (h.inj handle i info' info hinfo' hinfo haddr) hne
    · exact ⟨k', hmem, hsize'⟩
  · exact h.inj handle handle' info₁ info₂ (hother handle info₁ hinfo₁).2
      (hother handle' info₂ hinfo₂).2 heq

/-- A block that the heap has handed out covers the request. -/
theorem BoInv.covers {b : GpuBuddy} (hsteady : b.Steady) (horder : b.maxOrder = 16)
    {size gpuVa : UInt64} (hsize : size ≠ 0) (hle : size.toNat ≤ 2 ^ 63)
    (hlive : ⟨orderForSize (alignedSize size), gpuVa⟩ ∈ b.liveBlocks) :
    size.toNat ≤ 2 ^ orderForSize (alignedSize size) * 4096 := by
  have hmax : orderForSize (alignedSize size) ≤ b.maxOrder :=
    hsteady.laid.order_le (List.mem_append_left _ hlive)
  refine le_order_of_request hsize hle (Nat.lt_of_le_of_lt (hmax.trans_eq horder) ?_)
  decide

theorem BoInv.step (h : BoInv s) (op : BoOp) (hsize : SizeOk s op) (hnodes : NodesOk s op) :
    BoInv (s.step op) := by
  rw [BoTable.step]
  cases op with
  | allocBo size domain flags =>
    have hstep := h.allocStep size domain flags
    generalize s.call (.allocBo size domain flags) = r at hstep ⊢
    cases hstep with
    | refused _ hbits hmap hheap => exact (h.backed.of_eq hbits hmap hheap).boInv
    | lost hdomain hsize' hfit hsplit hshort =>
      have hle := hnodes hdomain hsize' _ hfit
      omega
    | served hdomain hsize' hfit _ hi hbit hinfo hsteady hbase horder hlive =>
      refine (h.backed.insert hi hbit hsteady hbase horder hlive ?_).boInv
      rw [Covers, hinfo]
      have hne : s.heap.firstFit (orderForSize (alignedSize size)) ≠ none := by
        rw [hfit]
        exact Option.some_ne_none _
      exact covers hsteady (horder.trans h.order) hsize' ((hsize hdomain).resolve_right hne)
        (hlive.mem_iff.mpr List.mem_cons_self)
  | freeBo handle =>
    have hstep := h.backed.freeStep handle
    generalize s.call (.freeBo handle) = r at hstep ⊢
    cases hstep with
    | refused => exact h
    | freed hinfo hsteady hbase horder hlive =>
      exact (h.backed.erase hinfo hsteady hbase horder hlive).boInv
  | mapBo handle => exact h

/-- A failed ioctl changes something only when a request has run out of nodes. -/
theorem BoInv.failsCleanly_iff (h : BoInv s) (op : BoOp) : FailsCleanly s op ↔ NodesOk s op := by
  unfold FailsCleanly
  rw [BoTable.step]
  cases op with
  | allocBo size domain flags =>
    have hstep := h.allocStep size domain flags
    generalize s.call (.allocBo size domain flags) = r at hstep ⊢
    cases hstep with
    | refused hreason hbits hmap hheap =>
      refine ⟨fun _ hdomain hsize t ht => ?_, fun _ _ => ⟨hbits, hmap, hheap⟩⟩
      rw [(hreason.resolve_left hdomain).resolve_left hsize] at ht
      cases ht
    | lost hdomain hsize hfit hsplit hshort hvolume =>
      refine ⟨fun hclean => ?_, fun hnodes => ?_⟩
      · rw [(hclean rfl).2.2] at hvolume
        exact absurd hvolume (Nat.lt_irrefl _)
      · have hle := hnodes hdomain hsize _ hfit
        omega
    | served hdomain hsize hfit hnodes =>
      refine ⟨fun _ _ _ t ht => ?_, nofun⟩
      rw [hfit, Option.mem_some_iff] at ht
      rwa [← ht]
  | freeBo handle =>
    have hstep := h.backed.freeStep handle
    generalize s.call (.freeBo handle) = r at hstep ⊢
    cases hstep with
    | refused => exact ⟨fun _ => trivial, fun _ _ => ⟨rfl, rfl, rfl⟩⟩
    | freed => exact ⟨fun _ => trivial, nofun⟩
  | mapBo handle => exact ⟨fun _ => trivial, fun _ _ => ⟨rfl, rfl, rfl⟩⟩

end Invariant

/-! ### What the ioctls do to the handles -/

section Handles

variable {s : BoTable}

theorem memFree_allocatedBits (s : BoTable) (devAddr : UInt64) :
    (s.memFree devAddr).allocatedBits = s.allocatedBits := by
  unfold memFree
  cases s.buddy <;> rfl

theorem handleValid_of_bits {s' : BoTable} (h : s'.allocatedBits = s.allocatedBits)
    (handle : UInt32) : s'.handleValid handle = s.handleValid handle := by
  rw [handleValid, handleValid, h]

/-- ALLOC_BO fails with the handles unchanged, or takes a free one. -/
inductive AllocBoBits (s : BoTable) : Except Int (UInt32 × UInt64) × BoTable → Prop
  | refused {rc : Int} {s' : BoTable} (hbits : s'.allocatedBits = s.allocatedBits) :
      AllocBoBits s (.error rc, s')
  | served {handle : UInt32} {gpuVa : UInt64} {s' : BoTable} (hmem : handle ∈ handles)
      (hfree : s.allocatedBits handle = false)
      (hbits : s'.allocatedBits = Function.update s.allocatedBits handle true) :
      AllocBoBits s (.ok (handle, gpuVa), s')

theorem handleAllocBo_bits (s : BoTable) (size : UInt64) (domain flags : UInt32) :
    AllocBoBits s (s.handleAllocBo size domain flags) := by
  unfold handleAllocBo
  by_cases hdomain : domain = 0
  · rw [if_pos hdomain]
    exact .refused rfl
  rw [if_neg hdomain, memAlloc_eq]
  rcases (s.heap.gpuBuddyAlloc size).1 with _ | gpuVa
  · exact .refused rfl
  simp only
  by_cases hzero : gpuVa = 0
  · rw [if_pos hzero]
    exact .refused rfl
  rw [if_neg hzero, allocateHandle]
  cases hfind : handles.find?
      fun i => !(s.setBuddy (s.heap.gpuBuddyAlloc size).2).allocatedBits i with
  | none => exact .refused (memFree_allocatedBits _ _)
  | some handle =>
    have hfree := List.find?_some hfind
    rw [Bool.not_eq_true'] at hfree
    exact .served (List.mem_of_find?_eq_some hfind) hfree rfl

/-- FREE_BO fails with nothing changed, or gives the handle back. -/
theorem handleFreeBo_bits (s : BoTable) (handle : UInt32) :
    (s.handleFreeBo handle).2.allocatedBits =
      if s.handleValid handle = true then Function.update s.allocatedBits handle false
      else s.allocatedBits := by
  unfold handleFreeBo
  by_cases hvalid : s.handleValid handle = true
  · have hzero : handle ≠ 0 := by
      rintro rfl
      cases hvalid
    simp only [if_neg hzero, hvalid, Bool.not_true, Bool.false_eq_true, if_false, if_true]
    cases s.boMap handle with
    | none =>
      simp only [freeHandle, if_pos hvalid]
      rfl
    | some info =>
      have hstill : ((s.memFree info.gpuVa).setBo handle none).handleValid handle = true :=
        (handleValid_of_bits (memFree_allocatedBits s info.gpuVa) handle).trans hvalid
      simp only [freeHandle, if_pos hstill]
      show Function.update (s.memFree info.gpuVa).allocatedBits handle false = _
      rw [memFree_allocatedBits]
  · rw [if_neg hvalid]
    split_ifs
    · rfl
    · rfl
    · rename_i hnot
      rw [Bool.not_eq_true] at hvalid
      exact absurd (by rw [hvalid]; rfl) hnot

end Handles

/-- **BO table.**  Along a run whose requests the heap can round up, handles, entries and heap agree
and failed ioctls change nothing exactly when no request runs out of list nodes under a split. -/
theorem bo_table_iff (heapPtr : UInt64) (ops : List BoOp)
    (hsizes : Guarded step SizeOk (init heapPtr) ops) :
    (Always step BoTableSound (init heapPtr) ops ∧ Guarded step FailsCleanly (init heapPtr) ops) ↔
      Guarded step NodesOk (init heapPtr) ops := by
  have hboth := always_guarded_iff (I := BoInv) (P := BoTableSound)
    (R := fun s op => FailsCleanly s op ∧ SizeOk s op) (G := fun s op => NodesOk s op ∧ SizeOk s op)
    (fun s op h hop => h.step op hop.2 hop.1) (fun s h => h.sound)
    (fun s op h hop => ⟨(h.failsCleanly_iff op).mpr hop.1, hop.2⟩)
    (fun s op h _ hop => ⟨(h.failsCleanly_iff op).mp hop.1, hop.2⟩) ops (boInv_init heapPtr)
  constructor
  · intro ⟨hsound, hclean⟩
    exact (hboth.mp ⟨hsound, hclean.and step hsizes⟩).mono step fun _ _ hop => hop.1
  · intro hnodes
    obtain ⟨hsound, hclean⟩ := hboth.mpr (hnodes.and step hsizes)
    exact ⟨hsound, hclean.mono step fun _ _ hop => hop.1⟩

/-- Two buffer objects, of which the first is freed; its handle is refused then, as one is that was
never allocated. -/
theorem bo_table_twoBos :
    let ops : List BoOp :=
      [.allocBo 4096 1 0, .allocBo 12288 1 0, .freeBo 1, .mapBo 2, .mapBo 1, .freeBo 7]
    Always step BoTableSound (init 0) ops ∧ Guarded step FailsCleanly (init 0) ops :=
  (bo_table_iff 0 _ (by decide +kernel)).mpr (by decide +kernel)

/-- A request of more than `2 ^ 63` bytes is rounded up to zero and gets a block of one page. -/
theorem bo_table_fails :
    ¬Always step BoTableSound (init 0) [.allocBo 4096 1 0, .allocBo 0x8000000000000001 1 0] := by
  intro hsound
  have hlast := hsound.last
  have hfirst : (run step (init 0) [.allocBo 4096 1 0, .allocBo 0x8000000000000001 1 0]).boMap 1 =
      some ⟨0x10ffff000, 4096, 1, 0, 0xffff000⟩ := by decide +kernel
  have hsecond : (run step (init 0) [.allocBo 4096 1 0, .allocBo 0x8000000000000001 1 0]).boMap 2 =
      some ⟨0x10fffe000, 0x8000000000000001, 1, 0, 0xfffe000⟩ := by decide +kernel
  have hapart := hlast.disjoint 1 2 _ _ hfirst hsecond (by decide)
  revert hapart
  decide

end BoTable

end UsrLinuxEmu.GpuDriver
