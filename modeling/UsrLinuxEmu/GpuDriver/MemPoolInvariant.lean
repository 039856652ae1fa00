import Mathlib.Data.List.Perm.Basic
import UsrLinuxEmu.GpuDriver.MemPool

/-!
# The invariant of memory pools

* `PoolInv` / `MemInv` — every pool has a live block of the device to itself, and its allocations
  are live blocks of its own allocator;
* `MemInv.range_unique` — no address of a live allocation lies in the range of another pool;
* `MemInv.livesDisjoint` — live allocations are disjoint;
* `MemInv.setPool`, `MemInv.setDevice` — what keeps the invariant.
-/

namespace UsrLinuxEmu.GpuDriver

open UsrLinuxEmu.GpuCore UsrLinuxEmu.Transition

/-! ### Rounding to pages -/

theorem and_pageMask {y : ℕ} (h : y < 2 ^ 64) : y &&& (2 ^ 52 - 1) <<< 12 = y / 4096 * 4096 := by
  have hshift : y / 4096 * 4096 = (y >>> 12) <<< 12 := by
    rw [Nat.shiftLeft_eq, Nat.shiftRight_eq_div_pow]
  rw [hshift]
  refine Nat.eq_of_testBit_eq fun i => ?_
  rw [Nat.testBit_and, Nat.testBit_shiftLeft, Nat.testBit_shiftLeft, Nat.testBit_two_pow_sub_one,
    Nat.testBit_shiftRight]
  by_cases hi : 12 ≤ i
  · rw [Nat.add_sub_of_le hi]
    by_cases hlt : i < 64
    · have hlt' : i - 12 < 52 := by omega
      simp [hi, hlt']
    · have hbit : y.testBit i = false :=
        Nat.testBit_lt_two_pow (h.trans_le (Nat.pow_le_pow_right Nat.two_pos (Nat.not_lt.mp hlt)))
      simp [hbit]
  · simp [hi]

theorem alignUp4k_toNat (x : UInt64) :
    (alignUp4k x).toNat = (x.toNat + 4095) % 2 ^ 64 / 4096 * 4096 := by
  have hmask : (0xFFFFFFFFFFFFF000 : UInt64).toNat = (2 ^ 52 - 1) <<< 12 := by decide
  have hlt := (x + 0xFFF).toNat_lt
  rw [alignUp4k, UInt64.toNat_and, hmask, and_pageMask hlt, UInt64.toNat_add]
  rfl

theorem alignUp4k_alignUp4k (x : UInt64) : alignUp4k (alignUp4k x) = alignUp4k x := by
  rw [← UInt64.toNat_inj, alignUp4k_toNat, alignUp4k_toNat x]
  omega

theorem alignUp4k_bounds {x : UInt64} (h : x.toNat ≤ 2 ^ 62) :
    x.toNat ≤ (alignUp4k x).toNat ∧ (alignUp4k x).toNat ≤ x.toNat + 4095 := by
  rw [alignUp4k_toNat]
  omega

namespace MemPools

variable {s : MemPools}

/-! ### The invariant -/

/-- A pool over the device allocator `d`. -/
structure PoolInv (d : GpuBuddy) (p : PoolTableEntry) : Prop where
  steady : p.poolBuddy.Steady
  base : p.poolBuddy.baseAddr = p.vaBase
  reserved : ∃ j, ⟨j, p.vaBase⟩ ∈ d.liveBlocks ∧ p.poolBuddy.maxOrder ≤ j ∧
    (p.vaLimit.toNat ≤ p.vaBase.toNat + 2 ^ j * 4096 ∨ gpuBuddyMaxOrder ≤ j)
  limit : p.vaLimit.toNat ≤ 2 ^ 62
  live : ∀ va e, p.allocated va = some e → va.toNat < p.vaLimit.toNat ∧
    alignUp4k e.size = e.size ∧ e.size ≠ 0 ∧ e.size.toNat ≤ 2 ^ 63 ∧
    ⟨orderForSize (alignedSize e.size), va⟩ ∈ p.poolBuddy.liveBlocks

structure MemInv (s : MemPools) : Prop where
  steady : s.device.Steady
  base : s.device.baseAddr = simDeviceVaBase
  order : s.device.maxOrder = gpuBuddyMaxOrder
  pools : ∀ q ∈ s.poolTable, PoolInv s.device q.2
  handles : (s.poolTable.map Prod.fst).Nodup
  bases : (s.poolTable.map fun q => q.2.vaBase).Nodup

theorem deviceBuddyInit_eq : deviceBuddyInit = GpuBuddy.fresh simDeviceVaBase gpuBuddyMaxOrder := rfl

theorem memInv_init : MemInv init where
  steady := by
    have hfits : PoolFits simDeviceVaBase gpuBuddyMaxOrder := by decide
    exact GpuBuddy.steady_fresh hfits (Nat.le_refl _)
  base := GpuBuddy.fresh_baseAddr simDeviceVaBase gpuBuddyMaxOrder
  order := GpuBuddy.fresh_maxOrder simDeviceVaBase gpuBuddyMaxOrder
  pools := nofun
  handles := List.nodup_nil
  bases := List.nodup_nil

/-- The blocks of the device stay where they are. -/
theorem PoolInv.of_device {d d' : GpuBuddy} {p : PoolTableEntry} (h : PoolInv d p)
    (hlive : ∀ j, ⟨j, p.vaBase⟩ ∈ d.liveBlocks → ⟨j, p.vaBase⟩ ∈ d'.liveBlocks) : PoolInv d' p where
  steady := h.steady
  base := h.base
  reserved := by
    obtain ⟨j, hj, hrest⟩ := h.reserved
    exact ⟨j, hlive j hj, hrest⟩
  limit := h.limit
  live := h.live

theorem PoolInv.order_le {d : GpuBuddy} {p : PoolTableEntry} (h : PoolInv d p) :
    p.poolBuddy.maxOrder ≤ gpuBuddyMaxOrder := h.steady.order_le

/-- The bytes of an allocation lie in its block, unless the block is a whole device. -/
theorem PoolInv.covers {d : GpuBuddy} {p : PoolTableEntry} (h : PoolInv d p) {va : UInt64}
    {e : PoolInternalEntry} (he : p.allocated va = some e) :
    e.size.toNat ≤ 2 ^ orderForSize (alignedSize e.size) * 4096 ∨
      gpuBuddyMaxOrder ≤ orderForSize (alignedSize e.size) := by
  obtain ⟨-, -, hsize, hle, -⟩ := h.live va e he
  rcases Nat.lt_or_ge (orderForSize (alignedSize e.size)) gpuBuddyMaxOrder with hlt | hge
  · exact .inl (le_order_of_request hsize hle hlt)
  · exact .inr hge

/-- A live block of a pool lies in the block that the pool has taken from the device. -/
theorem PoolInv.within {d : GpuBuddy} {p : PoolTableEntry} (h : PoolInv d p) {x : BuddyBlock}
    (hx : x ∈ p.poolBuddy.liveBlocks) {j : ℕ} (hj : p.poolBuddy.maxOrder ≤ j) :
    p.vaBase.toNat ≤ x.addr.toNat ∧
      x.addr.toNat + x.bytes ≤ p.vaBase.toNat + 2 ^ j * 4096 := by
  obtain ⟨⟨m, hstart⟩, hstop⟩ := h.steady.sound.placed x (List.mem_append_left _ hx)
  have hpow := Nat.pow_le_pow_right Nat.two_pos hj
  rw [h.base] at hstart hstop
  refine ⟨?_, hstop.trans (Nat.add_le_add_left (Nat.mul_le_mul_right _ hpow) _)⟩
  rw [hstart]
  exact Nat.le_add_right _ _

/-- A block of the device that is all of it is the only one. -/
theorem MemInv.eq_of_whole (h : MemInv s) {x y : BuddyBlock} (hx : x ∈ s.device.liveBlocks)
    (hy : y ∈ s.device.liveBlocks) (horder : gpuBuddyMaxOrder ≤ x.order) : y = x := by
  have hsingle := h.steady.laid.eq_singleton (List.mem_append_left _ hx) (h.order.trans_le horder)
  have hmem : y ∈ s.device.blocks := List.mem_append_left _ hy
  rw [hsingle] at hmem
  exact List.mem_singleton.mp hmem

theorem MemInv.eq_of_base (h : MemInv s) {q q' : UInt64 × PoolTableEntry} (hq : q ∈ s.poolTable)
    (hq' : q' ∈ s.poolTable) (heq : q.2.vaBase = q'.2.vaBase) : q = q' :=
  List.inj_on_of_nodup_map h.bases hq hq' heq

theorem MemInv.eq_of_handle (h : MemInv s) {q q' : UInt64 × PoolTableEntry} (hq : q ∈ s.poolTable)
    (hq' : q' ∈ s.poolTable) (heq : q.1 = q'.1) : q = q' :=
  List.inj_on_of_nodup_map h.handles hq hq' heq

/-- The blocks of two pools are apart. -/
theorem MemInv.apart (h : MemInv s) {q q' : UInt64 × PoolTableEntry} (hq : q ∈ s.poolTable)
    (hq' : q' ∈ s.poolTable) (hne : q ≠ q') {j j' : ℕ}
    (hj : ⟨j, q.2.vaBase⟩ ∈ s.device.liveBlocks) (hj' : ⟨j', q'.2.vaBase⟩ ∈ s.device.liveBlocks) :
    j < gpuBuddyMaxOrder ∧ j' < gpuBuddyMaxOrder ∧
      (q.2.vaBase.toNat + 2 ^ j * 4096 ≤ q'.2.vaBase.toNat ∨
        q'.2.vaBase.toNat + 2 ^ j' * 4096 ≤ q.2.vaBase.toNat) := by
  have hbases : q.2.vaBase ≠ q'.2.vaBase := fun heq => hne (h.eq_of_base hq hq' heq)
  refine ⟨?_, ?_, ?_⟩
  · by_contra hge
    have heq := h.eq_of_whole hj hj' (Nat.not_lt.mp hge)
    exact hbases (congrArg BuddyBlock.addr heq).symm
  · by_contra hge
    have heq := h.eq_of_whole hj' hj (Nat.not_lt.mp hge)
    exact hbases (congrArg BuddyBlock.addr heq)
  · exact h.steady.live_disjoint hj hj' fun heq => hbases (congrArg BuddyBlock.addr heq)

/-- The address of a live allocation lies in the range of no other pool. -/
theorem MemInv.range_unique (h : MemInv s) {q q' : UInt64 × PoolTableEntry} {va : UInt64}
    {e : PoolInternalEntry} (hlive : s.LiveAt q va e) (hq' : q' ∈ s.poolTable)
    (hrange : q'.2.inRange va = true) : q' = q := by
  by_contra hne
  obtain ⟨hq, he⟩ := hlive
  obtain ⟨j, hj, hmax, -⟩ := (h.pools q hq).reserved
  obtain ⟨j', hj', -, hlimit⟩ := (h.pools q' hq').reserved
  obtain ⟨-, hlt', hapart⟩ := h.apart hq hq' (Ne.symm hne) hj hj'
  obtain ⟨-, -, -, -, hblock⟩ := (h.pools q hq).live va e he
  obtain ⟨hstart, hstop⟩ := (h.pools q hq).within hblock hmax
  have hpos := Nat.two_pow_pos (orderForSize (alignedSize e.size))
  have hlimit' := hlimit.resolve_right (Nat.not_le.mpr hlt')
  simp only [PoolTableEntry.inRange, Bool.not_eq_true', Bool.or_eq_false_iff, decide_eq_false_iff_not,
    UInt64.lt_iff_toNat_lt, UInt64.le_iff_toNat_le] at hrange
  simp only [BuddyBlock.bytes] at hstart hstop
  omega

theorem MemInv.inRange (h : MemInv s) {q : UInt64 × PoolTableEntry} {va : UInt64}
    {e : PoolInternalEntry} (hlive : s.LiveAt q va e) : q.2.inRange va = true := by
  obtain ⟨hq, he⟩ := hlive
  obtain ⟨hlt, -, -, -, hblock⟩ := (h.pools q hq).live va e he
  obtain ⟨hstart, -⟩ := (h.pools q hq).within hblock (Nat.le_refl _)
  simp only [PoolTableEntry.inRange, Bool.not_eq_true', Bool.or_eq_false_iff, decide_eq_false_iff_not,
    UInt64.lt_iff_toNat_lt, UInt64.le_iff_toNat_le]
  exact ⟨Nat.not_lt.mpr hstart, Nat.not_le.mpr hlt⟩

theorem MemInv.livesDisjoint (h : MemInv s) : LivesDisjoint s := by
  intro q va e q' va' e' ⟨hq, he⟩ ⟨hq', he'⟩ hne
  have hp := h.pools q hq
  have hp' := h.pools q' hq'
  obtain ⟨-, -, -, -, hblock⟩ := hp.live va e he
  obtain ⟨-, -, -, -, hblock'⟩ := hp'.live va' e' he'
  have hcovers := hp.covers he
  have hcovers' := hp'.covers he'
  have hle := hp.steady.laid.order_le (List.mem_append_left _ hblock)
  have hle' := hp'.steady.laid.order_le (List.mem_append_left _ hblock')
  by_cases hqq : q = q'
  · subst hqq
    have hva : va ≠ va' := fun heq => hne (congrArg (Prod.mk q.1) heq)
    -- a block as large as the pool would be the only one
    have hlone : ∀ {x y : BuddyBlock}, x ∈ q.2.poolBuddy.liveBlocks → y ∈ q.2.poolBuddy.liveBlocks →
        gpuBuddyMaxOrder ≤ x.order → y = x := by
      intro x y hx hy horder
      have hsingle := hp.steady.laid.eq_singleton (List.mem_append_left _ hx)
        (hp.order_le.trans horder)
      have hmem : y ∈ q.2.poolBuddy.blocks := List.mem_append_left _ hy
      rw [hsingle] at hmem
      exact List.mem_singleton.mp hmem
    have hsize := hcovers.resolve_right fun horder =>
      hva (congrArg BuddyBlock.addr (hlone hblock hblock' horder)).symm
    have hsize' := hcovers'.resolve_right fun horder =>
      hva (congrArg BuddyBlock.addr (hlone hblock' hblock horder))
    have hapart := hp.steady.live_disjoint hblock hblock' fun heq =>
      hva (congrArg BuddyBlock.addr heq)
    simp only [BuddyBlock.bytes] at hapart
    omega
  · obtain ⟨j, hj, hmax, -⟩ := hp.reserved
    obtain ⟨j', hj', hmax', -⟩ := hp'.reserved
    obtain ⟨hlt, hlt', hapart⟩ := h.apart hq hq' hqq hj hj'
    obtain ⟨hstart, hstop⟩ := hp.within hblock hmax
    obtain ⟨hstart', hstop'⟩ := hp'.within hblock' hmax'
    simp only at hle hle'
    have hsize := hcovers.resolve_right (by omega)
    have hsize' := hcovers'.resolve_right (by omega)
    simp only [BuddyBlock.bytes] at hstart hstop hstart' hstop'
    omega

/-! ### The pool table -/

theorem mem_of_findPool {handle : UInt64} {p : PoolTableEntry} (h : s.findPool handle = some p) :
    (handle, p) ∈ s.poolTable := by
  obtain ⟨q, hq, rfl⟩ := Option.map_eq_some_iff.mp h
  have hkey : q.1 = handle := by simpa using List.find?_some hq
  rw [← hkey]
  exact List.mem_of_find?_eq_some hq

theorem MemInv.findPool_of_mem (h : MemInv s) {q : UInt64 × PoolTableEntry}
    (hq : q ∈ s.poolTable) : s.findPool q.1 = some q.2 := by
  have hsome : (s.poolTable.find? fun q' => q'.1 = q.1).isSome = true :=
    List.find?_isSome.mpr ⟨q, hq, by simp⟩
  obtain ⟨q', hfind⟩ := Option.isSome_iff_exists.mp hsome
  have hkey : q'.1 = q.1 := by simpa using List.find?_some hfind
  rw [findPool, hfind, h.eq_of_handle (List.mem_of_find?_eq_some hfind) hq hkey]
  rfl

/-- The entries other than the one replaced, and that one. -/
theorem mem_setPool {handle : UInt64} {p : PoolTableEntry} {q : UInt64 × PoolTableEntry}
    (hq : q ∈ (s.setPool handle p).poolTable) :
    q = (handle, p) ∨ (q ∈ s.poolTable ∧ q.1 ≠ handle) := by
  obtain ⟨q', hq', rfl⟩ := List.mem_map.mp hq
  by_cases hkey : q'.1 = handle
  · rw [if_pos hkey]
    exact .inl rfl
  · rw [if_neg hkey]
    exact .inr ⟨hq', hkey⟩

theorem mem_setPool_self {handle : UInt64} {p p' : PoolTableEntry}
    (hp : (handle, p) ∈ s.poolTable) : (handle, p') ∈ (s.setPool handle p').poolTable :=
  List.mem_map.mpr ⟨(handle, p), hp, if_pos rfl⟩

/-- A pool changes inside. -/
theorem MemInv.setPool (h : MemInv s) {handle : UInt64} {p p' : PoolTableEntry}
    (hp : (handle, p) ∈ s.poolTable) (hp' : PoolInv s.device p') (hbase : p'.vaBase = p.vaBase) :
    MemInv (s.setPool handle p') where
  steady := h.steady
  base := h.base
  order := h.order
  pools := fun q hq => by
    rcases mem_setPool hq with rfl | ⟨hq, -⟩
    · exact hp'
    · exact h.pools q hq
  handles := by
    have hkeys : (s.setPool handle p').poolTable.map Prod.fst = s.poolTable.map Prod.fst := by
      rw [MemPools.setPool, List.map_map]
      refine List.map_congr_left fun q _ => ?_
      by_cases hkey : q.1 = handle
      · simp [hkey]
      · simp [hkey]
    rw [hkeys]
    exact h.handles
  bases := by
    have hbases : ((s.setPool handle p').poolTable.map fun q => q.2.vaBase) =
        s.poolTable.map fun q => q.2.vaBase := by
      rw [MemPools.setPool, List.map_map]
      refine List.map_congr_left fun q hq => ?_
      by_cases hkey : q.1 = handle
      · have heq := h.eq_of_handle hq hp hkey
        simp [heq, hbase]
      · simp [hkey]
    rw [hbases]
    exact h.bases

/-- The device allocator changes, and keeps the blocks of the pools. -/
theorem MemInv.setDevice (h : MemInv s) {d : GpuBuddy} (hsteady : d.Steady)
    (hbase : d.baseAddr = s.device.baseAddr) (horder : d.maxOrder = s.device.maxOrder)
    (hlive : ∀ x ∈ s.device.liveBlocks, x ∈ d.liveBlocks) : MemInv (s.setDevice d) where
  steady := hsteady
  base := hbase.trans h.base
  order := horder.trans h.order
  pools := fun q hq => (h.pools q hq).of_device fun _ hj => hlive _ hj
  handles := h.handles
  bases := h.bases

/-! ### Fences -/

theorem MemInv.answerFence (h : MemInv s) : MemInv s.answerFence.2 :=
  ⟨h.steady, h.base, h.order, h.pools, h.handles, h.bases⟩

theorem answerFence_nonneg (h : s.nextSimFenceId.toNat < 2 ^ 63) : 0 ≤ s.answerFence.1 := by
  have hint : s.nextSimFenceId.toInt64.toInt = s.nextSimFenceId.toNat := by
    have hbits : s.nextSimFenceId.toBitVec.toNat < 2 ^ 63 := h
    change s.nextSimFenceId.toBitVec.toInt = _
    rw [BitVec.toInt_eq_toNat_of_lt (by omega)]
    rfl
  rw [MemPools.answerFence, simFenceIdAlloc]
  simp only [hint]
  rw [if_neg (by omega)]
  omega

end MemPools

end UsrLinuxEmu.GpuDriver
