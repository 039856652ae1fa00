import UsrLinuxEmu.GpuDriver.MemPoolInvariant

/-!
# The allocation law of memory pools

* `PoolAllocStep` / `MemInv.allocStep` — what an allocation does;
* `MemInv.allocSound_iff` — it lies in the range of its pool exactly when the part of the free block
  that serves it does;
* `PoolFreed` / `MemInv.freeSound` — what a free does, and that it can be undone;
* `MemInv.create`, `MemInv.destroy` — pools come and go;
* `MemInv.insideRange` — a pool of a power of two many pages serves inside its range;
* `mem_pool_law_iff` — the runs along which the law holds.
-/

namespace UsrLinuxEmu.GpuDriver

open UsrLinuxEmu.GpuCore UsrLinuxEmu.Transition

namespace MemPools

variable {s : MemPools}

/-! ### Allocation -/

/-- Where the pool serves a request of order `k` from a free block of order `t` at `a`. -/
def servedAt (a : UInt64) (t k : ℕ) : UInt64 := a + UInt64.ofNat ((2 ^ t - 2 ^ k) * 4096)

/-- The list nodes that the splits of an allocation take are there. -/
def AllocNodes (s : MemPools) (handle size : UInt64) : Prop :=
  ∀ p ∈ s.findPool handle,
    ∀ t ∈ p.poolBuddy.firstFit (orderForSize (alignedSize (alignUp4k size))),
      p.poolBuddy.blockPoolUsed + 2 * (t - orderForSize (alignedSize (alignUp4k size))) ≤
        blockPoolSize

/-- An allocation that finds its nodes is refused, or served from the end of a free block. -/
inductive PoolAllocStep (s : MemPools) (handle size : UInt64) : Except Int UInt64 × MemPools → Prop
  | refused {rc : Int} {s' : MemPools}
      (h : ∀ p ∈ s.findPool handle, alignUp4k size = 0 ∨
        p.poolBuddy.firstFit (orderForSize (alignedSize (alignUp4k size))) = none)
      (hrc : rc < 0) (hinv : MemInv s') : PoolAllocStep s handle size (.error rc, s')
  | served {p : PoolTableEntry} {t : ℕ} {a : UInt64} {b : GpuBuddy}
      (hp : s.findPool handle = some p) (hsize : alignUp4k size ≠ 0)
      (hfit : p.poolBuddy.firstFit (orderForSize (alignedSize (alignUp4k size))) = some t)
      (ha : a ∈ (p.poolBuddy.freeLists t).head?) (hsteady : b.Steady)
      (hbase : b.baseAddr = p.poolBuddy.baseAddr) (horder : b.maxOrder = p.poolBuddy.maxOrder)
      (hlive : b.liveBlocks.Perm (⟨orderForSize (alignedSize (alignUp4k size)),
        servedAt a t (orderForSize (alignedSize (alignUp4k size)))⟩ :: p.poolBuddy.liveBlocks)) :
      PoolAllocStep s handle size
        (.ok (servedAt a t (orderForSize (alignedSize (alignUp4k size)))),
          s.setPool handle (p.update b (servedAt a t (orderForSize (alignedSize (alignUp4k size))))
            (some ⟨servedAt a t (orderForSize (alignedSize (alignUp4k size))), alignUp4k size⟩)))

theorem MemInv.allocStep (h : MemInv s) {handle size : UInt64} (hnodes : s.AllocNodes handle size) :
    PoolAllocStep s handle size (s.alloc handle size) := by
  rw [alloc]
  rcases hp : s.findPool handle with _ | p
  · refine .refused (fun p hp' => ?_) (by decide) h
    rw [hp] at hp'
    cases hp'
  have hmem := mem_of_findPool hp
  have hpool := h.pools _ hmem
  by_cases hzero : size = 0
  · subst hzero
    exact .refused (fun _ _ => .inl (by decide)) (by decide) h
  simp only [if_neg hzero]
  have hstep := hpool.steady.allocStep (alignUp4k size)
  have hrefused : ∀ {rc : Int}, rc < 0 → (alignUp4k size = 0 ∨
      p.poolBuddy.firstFit (orderForSize (alignedSize (alignUp4k size))) = none) →
        PoolAllocStep s handle size (.error rc, s.setPool handle p) := by
    intro rc hrc hreason
    refine .refused (fun p' hp' => ?_) hrc (h.setPool hmem hpool rfl)
    rw [hp, Option.mem_some_iff] at hp'
    rwa [← hp']
  rcases hfit : p.poolBuddy.firstFit (orderForSize (alignedSize (alignUp4k size))) with _ | t
  · generalize p.poolBuddy.gpuBuddyAlloc (alignUp4k size) = r at hstep ⊢
    cases hstep with
    | refused hreason => exact hrefused (by decide) hreason
    | lost _ hfit' =>
      rw [hfit] at hfit'
      cases hfit'
    | served _ hfit' =>
      rw [hfit] at hfit'
      cases hfit'
  by_cases hsize : alignUp4k size = 0
  · generalize p.poolBuddy.gpuBuddyAlloc (alignUp4k size) = r at hstep ⊢
    cases hstep with
    | refused hreason => exact hrefused (by decide) hreason
    | lost hne => exact absurd hsize hne
    | served hne => exact absurd hsize hne
  · obtain ⟨-, -, hne, -⟩ := GpuBuddy.firstFit_some hfit
    obtain ⟨a, l, hlist⟩ := List.exists_cons_of_ne_nil hne
    obtain ⟨b, halloc, -, -⟩ := GpuBuddy.alloc_eq hpool.order_le hpool.steady.none_mem_records hsize
      hfit hlist (hnodes p hp t hfit)
    have ha : a ∈ (p.poolBuddy.freeLists t).head? := by
      rw [hlist]
      rfl
    rw [halloc] at hstep ⊢
    cases hstep with
    | served _ _ _ hsteady hbase horder hlive =>
      exact .served hp hsize hfit ha hsteady hbase horder hlive

theorem PoolInv.insert {d : GpuBuddy} {p : PoolTableEntry} (h : PoolInv d p) {b : GpuBuddy}
    {va size : UInt64} (hsteady : b.Steady) (hbase : b.baseAddr = p.poolBuddy.baseAddr)
    (horder : b.maxOrder = p.poolBuddy.maxOrder)
    (hlive : b.liveBlocks.Perm (⟨orderForSize (alignedSize (alignUp4k size)), va⟩ ::
      p.poolBuddy.liveBlocks)) (hsize : alignUp4k size ≠ 0)
    (hinside : va.toNat + size.toNat ≤ p.vaLimit.toNat) :
    PoolInv d (p.update b va (some ⟨va, alignUp4k size⟩)) where
  steady := hsteady
  base := hbase.trans h.base
  reserved := by
    obtain ⟨j, hj, hmax, hrest⟩ := h.reserved
    exact ⟨j, hj, horder.trans_le hmax, hrest⟩
  limit := h.limit
  live := by
    intro va' e he
    change Function.update p.allocated va _ va' = some e at he
    by_cases heq : va' = va
    · subst heq
      rw [Function.update_self, Option.some.injEq] at he
      subst he
      have hlimit := h.limit
      have hbounds := alignUp4k_bounds (x := size) (by omega)
      have hpos : size.toNat ≠ 0 := by
        intro hzero
        rw [UInt64.toNat_inj (b := 0) |>.mp hzero] at hsize
        exact hsize (by decide)
      change va'.toNat < p.vaLimit.toNat ∧ _
      exact ⟨by omega, alignUp4k_alignUp4k size, hsize, by
        change (alignUp4k size).toNat ≤ 2 ^ 63
        omega, hlive.mem_iff.mpr List.mem_cons_self⟩
    · rw [Function.update_of_ne heq] at he
      obtain ⟨hlt, halign, hne, hle, hblock⟩ := h.live va' e he
      exact ⟨hlt, halign, hne, hle, hlive.mem_iff.mpr (List.mem_cons_of_mem _ hblock)⟩

/-- What the address of a served request is worth. -/
theorem PoolInv.servedAt_toNat {d : GpuBuddy} {p : PoolTableEntry} (h : PoolInv d p) {t k : ℕ}
    {a : UInt64} (hfit : p.poolBuddy.firstFit k = some t)
    (ha : a ∈ (p.poolBuddy.freeLists t).head?) :
    (servedAt a t k).toNat = a.toNat + (2 ^ t - 2 ^ k) * 4096 := by
  obtain ⟨-, hmax, -, -⟩ := GpuBuddy.firstFit_some hfit
  exact h.steady.served_toNat hmax (List.mem_of_head? ha)

theorem MemInv.alloc (h : MemInv s) {handle size : UInt64} (hnodes : s.AllocNodes handle size)
    (hinside : InsideRange s (.allocAsync handle size)) : MemInv (s.alloc handle size).2 := by
  have hstep := h.allocStep hnodes
  generalize s.alloc handle size = r at hstep ⊢
  cases hstep with
  | refused _ _ hinv => exact hinv
  | served hp hsize hfit ha hsteady hbase horder hlive =>
    have hmem := mem_of_findPool hp
    have hpool := h.pools _ hmem
    refine h.setPool hmem (hpool.insert hsteady hbase horder hlive hsize ?_) rfl
    rw [hpool.servedAt_toNat hfit ha]
    exact hinside hsize _ hp _ hfit _ ha

theorem allocAsync_error {handle size : UInt64} {rc : Int} {s' : MemPools}
    (h : s.alloc handle size = (.error rc, s')) : s.allocAsync handle size = (rc, none, s') := by
  rw [allocAsync, h]

theorem allocAsync_ok {handle size va : UInt64} {s' : MemPools}
    (h : s.alloc handle size = (.ok va, s')) :
    s.allocAsync handle size = (s'.answerFence.1, some va, s'.answerFence.2) := by
  rw [allocAsync, h]

/-- **Allocation.**  An allocation lies in the range of its pool exactly when the part of the free
block that serves it does. -/
theorem MemInv.allocSound_iff (h : MemInv s) {handle size : UInt64}
    (hres : ResourcesLeft s (.allocAsync handle size)) :
    PoolStepSound s (.allocAsync handle size) ↔ InsideRange s (.allocAsync handle size) := by
  obtain ⟨hfence, hnodes⟩ := hres
  have hstep := h.allocStep hnodes
  rw [PoolStepSound]
  generalize halloc : s.alloc handle size = r at hstep
  cases hstep with
  | refused hreason hrc hinv =>
    rw [allocAsync_error halloc]
    refine ⟨fun _ hsize p hp t ht => ?_, fun _ va hret => absurd hret (Int.not_le.mpr hrc)⟩
    rw [(hreason p hp).resolve_left hsize] at ht
    cases ht
  | @served p t a b hp hsize hfit ha hsteady hbase horder hlive =>
    have hpool := h.pools _ (mem_of_findPool hp)
    have hnat := hpool.servedAt_toNat hfit ha
    rw [allocAsync_ok halloc]
    constructor
    · intro hsound _ p' hp' t' ht' a' ha'
      rw [hp, Option.mem_some_iff] at hp'
      subst hp'
      rw [hfit, Option.mem_some_iff] at ht'
      subst ht'
      have haa : a = a' := Option.mem_unique ha ha'
      subst haa
      obtain ⟨p', hp', -, hend⟩ := hsound _ (answerFence_nonneg hfence) rfl
      rw [hp, Option.some.injEq] at hp'
      subst hp'
      rwa [hnat] at hend
    · intro hinside va _ hva
      rw [Option.some.injEq] at hva
      subst hva
      obtain ⟨⟨m, hstart⟩, -⟩ := hsteady.sound.placed _
        (List.mem_append_left _ (hlive.mem_iff.mpr List.mem_cons_self))
      rw [hbase, hpool.base] at hstart
      refine ⟨p, hp, ?_, ?_⟩
      · exact hstart ▸ Nat.le_add_right _ _
      · rw [hnat]
        exact hinside hsize _ hp _ hfit _ ha

/-! ### Free -/

theorem MemInv.find_of_live (h : MemInv s) {q : UInt64 × PoolTableEntry} {va : UInt64}
    {e : PoolInternalEntry} (hlive : s.LiveAt q va e) :
    (s.poolTable.find? fun q => q.2.inRange va) = some q := by
  have hsome : (s.poolTable.find? fun q => q.2.inRange va).isSome = true :=
    List.find?_isSome.mpr ⟨q, hlive.1, h.inRange hlive⟩
  obtain ⟨q', hfind⟩ := Option.isSome_iff_exists.mp hsome
  have hrange : q'.2.inRange va = true := by
    simpa only using List.find?_some hfind
  rw [hfind, h.range_unique hlive (List.mem_of_find?_eq_some hfind) hrange]

theorem freeAsync_of_not_live {va : UInt64} (hnot : ∀ q e, ¬s.LiveAt q va e) :
    s.freeAsync va = (simPoolErrInvalidHandle, s) := by
  rw [freeAsync]
  rcases hfind : s.poolTable.find? fun q => q.2.inRange va with _ | ⟨handle, p⟩
  · rw [hfind]
  · rw [hfind]
    rcases he : p.allocated va with _ | e
    · simp only [he]
    · exact absurd ⟨List.mem_of_find?_eq_some hfind, he⟩ (hnot (handle, p) e)

/-- What the free of a live allocation does to its pool. -/
structure PoolFreed (p : PoolTableEntry) (va : UInt64) (r : GpuBuddyRecord) (b : GpuBuddy) : Prop where
  find : p.poolBuddy.findRecord va = some r
  steady : b.Steady
  base : b.baseAddr = p.poolBuddy.baseAddr
  order : b.maxOrder = p.poolBuddy.maxOrder
  live : p.poolBuddy.liveBlocks.Perm (⟨r.order, va⟩ :: b.liveBlocks)
  enough : p.poolBuddy.blockPoolUsed + 1 +
      p.poolBuddy.mergeCount (p.poolBuddy.maxOrder - r.order) r.order va ≤ blockPoolSize →
    b.blockPoolUsed = p.poolBuddy.blockPoolUsed + 1 +
        p.poolBuddy.mergeCount (p.poolBuddy.maxOrder - r.order) r.order va ∧
      b.freeLists (r.order +
        p.poolBuddy.mergeCount (p.poolBuddy.maxOrder - r.order) r.order va) ≠ []

theorem MemInv.freeStep (h : MemInv s) {q : UInt64 × PoolTableEntry} {va : UInt64}
    {e : PoolInternalEntry} (hlive : s.LiveAt q va e) :
    ∃ r b, PoolFreed q.2 va r b ∧
      s.freeAsync va = (s.setPool q.1 (q.2.update b va none)).answerFence := by
  obtain ⟨hq, he⟩ := hlive
  obtain ⟨-, -, -, -, hblock⟩ := (h.pools q hq).live va e he
  have hstep := (h.pools q hq).steady.freeStep va
  rw [freeAsync, h.find_of_live ⟨hq, he⟩]
  dsimp only
  rw [he]
  dsimp only
  generalize q.2.poolBuddy.gpuBuddyFree va = r at hstep ⊢
  cases hstep with
  | unknown hfind => exact absurd hblock (GpuBuddy.findRecord_none hfind _)
  | freed hfind hsteady hbase horder hlive henough =>
    exact ⟨_, _, ⟨hfind, hsteady, hbase, horder, hlive, fun hle => (henough hle).2⟩, rfl⟩

theorem PoolInv.erase {d : GpuBuddy} {p : PoolTableEntry} (h : PoolInv d p) {va : UInt64}
    {r : GpuBuddyRecord} {b : GpuBuddy} (hfreed : PoolFreed p va r b) :
    PoolInv d (p.update b va none) where
  steady := hfreed.steady
  base := hfreed.base.trans h.base
  reserved := by
    obtain ⟨j, hj, hmax, hrest⟩ := h.reserved
    exact ⟨j, hj, hfreed.order.trans_le hmax, hrest⟩
  limit := h.limit
  live := by
    intro va' e he
    change Function.update p.allocated va none va' = some e at he
    by_cases heq : va' = va
    · rw [heq, Function.update_self] at he
      cases he
    · rw [Function.update_of_ne heq] at he
      obtain ⟨hlt, halign, hne, hle, hblock⟩ := h.live va' e he
      refine ⟨hlt, halign, hne, hle, ?_⟩
      rcases List.mem_cons.mp (hfreed.live.mem_iff.mp hblock) with heq' | hmem
      · exact absurd (congrArg BuddyBlock.addr heq') heq
      · exact hmem

theorem MemInv.free (h : MemInv s) (va : UInt64) : MemInv (s.freeAsync va).2 := by
  by_cases hlive : ∃ q e, s.LiveAt q va e
  · obtain ⟨q, e, hlive⟩ := hlive
    obtain ⟨r, b, hfreed, heq⟩ := h.freeStep hlive
    rw [heq]
    exact (h.setPool hlive.1 ((h.pools q hlive.1).erase hfreed) rfl).answerFence
  · rw [freeAsync_of_not_live fun q e hq => hlive ⟨q, e, hq⟩]
    exact h

/-- The freed pool serves the same request again. -/
theorem PoolFreed.firstFit {d : GpuBuddy} {p : PoolTableEntry} (h : PoolInv d p) {va : UInt64}
    {r : GpuBuddyRecord} {b : GpuBuddy} (hfreed : PoolFreed p va r b)
    (hnodes : p.poolBuddy.blockPoolUsed + 1 +
      3 * p.poolBuddy.mergeCount (p.poolBuddy.maxOrder - r.order) r.order va ≤ blockPoolSize) :
    ∃ t, b.firstFit r.order = some t ∧ b.blockPoolUsed + 2 * (t - r.order) ≤ blockPoolSize := by
  have hcount := p.poolBuddy.mergeCount_le (p.poolBuddy.maxOrder - r.order) r.order va
  have horder : r.order ≤ p.poolBuddy.maxOrder := h.steady.laid.order_le
    (List.mem_append_left _ (hfreed.live.mem_iff.mpr List.mem_cons_self))
  have horder' := hfreed.order
  obtain ⟨hused, hlands⟩ := hfreed.enough (by omega)
  generalize p.poolBuddy.mergeCount (p.poolBuddy.maxOrder - r.order) r.order va = m at *
  rcases hfit : b.firstFit r.order with _ | t
  · exact absurd (GpuBuddy.firstFit_none hfit (Nat.le_add_right _ m) (by omega)) hlands
  · obtain ⟨-, -, -, hempty⟩ := GpuBuddy.firstFit_some hfit
    have hle : t ≤ r.order + m := by
      by_contra hlt
      exact hlands (hempty _ (Nat.le_add_right _ m) (Nat.not_le.mp hlt))
    exact ⟨t, rfl, by omega⟩

/-- **Free.**  A live allocation can be freed once, and the same amount allocated again. -/
theorem MemInv.freeSound (h : MemInv s) {va : UInt64} (hres : ResourcesLeft s (.freeAsync va)) :
    PoolStepSound s (.freeAsync va) := by
  obtain ⟨hfence, hnodes⟩ := hres
  intro q e hlive
  obtain ⟨r, b, hfreed, heq⟩ := h.freeStep hlive
  have hq := hlive.1
  have hpool := h.pools q hq
  obtain ⟨-, halign, hsize, -, hblock⟩ := hpool.live va e hlive.2
  have hfreed' : MemInv (s.setPool q.1 (q.2.update b va none)).answerFence.2 :=
    (h.setPool hq (hpool.erase hfreed) rfl).answerFence
  rw [heq]
  refine ⟨answerFence_nonneg (Nat.lt_of_succ_lt hfence), ?_, ?_⟩
  · -- the entry is gone, and no other pool has the address
    rw [freeAsync_of_not_live]
    · exact (by decide : simPoolErrInvalidHandle < 0)
    · intro q' e' hlive'
      rcases mem_setPool hlive'.1 with rfl | ⟨hq', hne⟩
      · have hnone : Function.update q.2.allocated va none va = some e' := hlive'.2
        rw [Function.update_self] at hnone
        cases hnone
      · have heq' := h.range_unique hlive hq' (h.inRange ⟨hq', hlive'.2⟩)
        exact hne (congrArg Prod.fst heq')
  · have hmem : (q.1, q.2.update b va none) ∈
        (s.setPool q.1 (q.2.update b va none)).answerFence.2.poolTable := mem_setPool_self hq
    have hfind := hfreed'.findPool_of_mem hmem
    have horder : orderForSize (alignedSize e.size) = r.order :=
      hpool.steady.live_order_eq hblock (hfreed.live.mem_iff.mpr List.mem_cons_self)
    obtain ⟨t, hfit, hroom⟩ := hfreed.firstFit hpool (hnodes q hq r hfreed.find)
    have hagain : (s.setPool q.1 (q.2.update b va none)).answerFence.2.AllocNodes q.1 e.size := by
      intro p hp t' ht'
      rw [hfind, Option.mem_some_iff] at hp
      subst hp
      rw [halign, horder] at ht' ⊢
      have htt : some t = some t' := hfit.symm.trans ht'
      rw [Option.some.injEq] at htt
      rwa [← htt]
    have hstep := hfreed'.allocStep hagain
    generalize halloc :
      (s.setPool q.1 (q.2.update b va none)).answerFence.2.alloc q.1 e.size = a at hstep
    cases hstep with
    | refused hreason =>
      have hnone := (hreason _ hfind).resolve_left (by rwa [halign])
      rw [halign, horder] at hnone
      exact absurd (hfit.symm.trans hnone) (Option.some_ne_none t)
    | served hp =>
      rw [allocAsync_ok halloc]
      refine answerFence_nonneg ?_
      change (s.nextSimFenceId + 1).toNat < 2 ^ 63
      have hone : (1 : UInt64).toNat = 1 := rfl
      rw [UInt64.toNat_add, hone, Nat.mod_eq_of_lt (by omega)]
      exact hfence

/-! ### Create and destroy -/

theorem MemInv.emplacePool (h : MemInv s) {handle : UInt64} {p : PoolTableEntry}
    (hnew : ∀ q ∈ s.poolTable, q.1 ≠ handle) (hp : PoolInv s.device p)
    (hbase : ∀ q ∈ s.poolTable, q.2.vaBase ≠ p.vaBase) : MemInv (s.emplacePool handle p) := by
  have hrest : s.poolTable.filter (fun q => decide (handle < q.1)) =
      s.poolTable.filter fun q => !decide (q.1 < handle) := by
    refine List.filter_congr fun q hq => ?_
    have hne : q.1.toNat ≠ handle.toNat := fun heq => hnew q hq (UInt64.toNat_inj.mp heq)
    rw [← decide_not, decide_eq_decide, UInt64.lt_iff_toNat_lt, UInt64.lt_iff_toNat_lt]
    omega
  have hperm : (s.emplacePool handle p).poolTable.Perm ((handle, p) :: s.poolTable) := by
    rw [MemPools.emplacePool, hrest]
    exact List.perm_middle.trans ((List.filter_append_perm _ s.poolTable).cons _)
  refine ⟨h.steady, h.base, h.order, fun q hq => ?_, ?_, ?_⟩
  · rcases List.mem_cons.mp (hperm.mem_iff.mp hq) with rfl | hq
    · exact hp
    · exact h.pools q hq
  · rw [(hperm.map _).nodup_iff, List.map_cons, List.nodup_cons]
    refine ⟨fun hmem => ?_, h.handles⟩
    obtain ⟨q, hq, heq⟩ := List.mem_map.mp hmem
    exact hnew q hq heq
  · rw [(hperm.map _).nodup_iff, List.map_cons, List.nodup_cons]
    refine ⟨fun hmem => ?_, h.bases⟩
    obtain ⟨q, hq, heq⟩ := List.mem_map.mp hmem
    exact hbase q hq heq

theorem le_alignUp4k {size : UInt64} (h : alignUp4k size ≠ 0) :
    size.toNat ≤ (alignUp4k size).toNat := by
  have hpos : (alignUp4k size).toNat ≠ 0 := fun hzero => h (UInt64.toNat_inj.mp hzero)
  have hlt := size.toNat_lt
  rw [alignUp4k_toNat] at hpos ⊢
  omega

/-- The pool over a block that the device has just handed out. -/
theorem poolInv_new {d : GpuBuddy} {addr size : UInt64} (hsteady : d.Steady)
    (hbase : d.baseAddr = simDeviceVaBase) (horder : d.maxOrder = gpuBuddyMaxOrder)
    (hsize : alignUp4k size ≠ 0) (hle : ¬simDeviceVaSize < alignUp4k size)
    (hlive : ⟨orderForSize (alignedSize (alignUp4k size)), addr⟩ ∈ d.liveBlocks) :
    ∃ N, GpuBuddy.gpuBuddyInit addr (alignUp4k size) = some (GpuBuddy.fresh addr N) ∧
      PoolInv d ⟨addr, addr + size, fun _ => none, GpuBuddy.fresh addr N⟩ := by
  have hk := GpuBuddy.orderForSize_le (alignedSize (alignUp4k size))
  have hmem := List.mem_append_left d.freeBlocks hlive
  have hsmall : (alignUp4k size).toNat ≤ 0x400000000 :=
    UInt64.le_iff_toNat_le.mp (UInt64.not_lt.mp hle)
  have hcovers := le_order_of_request hsize (by omega)
  have hround := le_alignUp4k hsize
  obtain ⟨hstart, hstop⟩ := hsteady.laid.bounds hmem
  have hinside := hsteady.laid.inside hmem
  have hbaseNat : simDeviceVaBase.toNat = 0x560000000000 := rfl
  rw [hbase, hbaseNat] at hstart hstop
  rw [hbase, horder] at hinside
  simp only [BuddyBlock.bytes] at hstop
  generalize orderForSize (alignedSize (alignUp4k size)) = k at *
  have hmax : gpuBuddyMaxOrder = 21 := rfl
  have haddr : addr.toNat + 2 ^ k * 4096 ≤ 0x560000000000 + 2 ^ 21 * 4096 := by
    rw [hmax] at hinside
    omega
  obtain ⟨N, hN, hinit⟩ : ∃ N ≤ k, GpuBuddy.gpuBuddyInit addr (alignUp4k size) =
      some (GpuBuddy.fresh addr N) := by
    rcases Nat.lt_or_ge k gpuBuddyMaxOrder with hlt | hge
    · have hnot : ¬blockSize k < alignUp4k size := by
        have hfits := hcovers hlt
        rw [UInt64.lt_iff_toNat_lt, blockSize_toNat hk]
        omega
      obtain ⟨N, hN, hinit⟩ := gpuBuddyInit_of_le addr (by omega) hnot
      exact ⟨N, hN.trans (Nat.min_le_left _ _), hinit⟩
    · have hnot : ¬blockSize 22 < alignUp4k size := by
        have hblock : (blockSize 22).toNat = 0x400000000 := by decide
        rw [UInt64.lt_iff_toNat_lt, hblock]
        omega
      obtain ⟨N, hN, hinit⟩ := gpuBuddyInit_of_le addr (by decide) hnot
      exact ⟨N, hN.trans ((Nat.min_le_right _ _).trans hge), hinit⟩
  have hpow := Nat.pow_le_pow_right Nat.two_pos hN
  have hlimit : (addr + size).toNat = addr.toNat + size.toNat := by
    rw [UInt64.toNat_add]
    exact Nat.mod_eq_of_lt (by omega)
  have hfits : PoolFits addr N := by
    unfold PoolFits
    omega
  refine ⟨N, hinit, ?_, ?_, ⟨k, hlive, ?_, ?_⟩, ?_, ?_⟩
  · exact GpuBuddy.steady_fresh hfits (hN.trans hk)
  · exact GpuBuddy.fresh_baseAddr addr N
  · exact (GpuBuddy.fresh_maxOrder addr N).trans_le hN
  · rcases Nat.lt_or_ge k gpuBuddyMaxOrder with hlt | hge
    · have hfits' := hcovers hlt
      exact .inl (by
        change (addr + size).toNat ≤ addr.toNat + _
        omega)
    · exact .inr hge
  · change (addr + size).toNat ≤ 2 ^ 62
    omega
  · intro va info hinfo
    cases hinfo

theorem liveBlocks_of_records {b b' : GpuBuddy} (h : b'.records = b.records) :
    b'.liveBlocks = b.liveBlocks := by
  rw [GpuBuddy.liveBlocks, GpuBuddy.liveBlocks, h]

theorem MemInv.create (h : MemInv s) {size : UInt64} {mapped : Bool}
    (hnew : ResourcesLeft s (.create size mapped)) : MemInv (s.create size mapped).2 := by
  rw [MemPools.create]
  by_cases hzero : size = 0
  · rw [if_pos hzero]
    exact h
  rw [if_neg hzero, simDeviceVaAlloc]
  by_cases hsize : alignUp4k size = 0
  · rw [if_pos hsize]
    exact h
  rw [if_neg hsize]
  by_cases hle : simDeviceVaSize < alignUp4k size
  · rw [if_pos hle]
    exact h
  rw [if_neg hle]
  have hstep := h.steady.allocStep (alignUp4k size)
  generalize s.device.gpuBuddyAlloc (alignUp4k size) = r at hstep ⊢
  cases hstep with
  | refused => exact h.setDevice h.steady rfl rfl fun _ hx => hx
  | lost _ _ _ _ hsteady hpool =>
    refine h.setDevice hsteady hpool.base hpool.order fun x hx => ?_
    rwa [liveBlocks_of_records hpool.records]
  | @served _ addr d _ _ _ hsteady hbase horder hlive =>
    have hkept : ∀ x ∈ s.device.liveBlocks, x ∈ d.liveBlocks :=
      fun x hx => hlive.mem_iff.mpr (List.mem_cons_of_mem _ hx)
    have hinv := h.setDevice hsteady hbase horder hkept
    cases mapped with
    | false =>
      -- the range goes back to the device
      have hfree := hsteady.freeStep addr
      change MemInv (s.setDevice (d.gpuBuddyFree addr).2)
      generalize d.gpuBuddyFree addr = r at hfree ⊢
      cases hfree with
      | unknown => exact hinv
      | freed _ hsteady' hbase' horder' hlive' =>
        refine h.setDevice hsteady' (hbase'.trans hbase) (horder'.trans horder) fun x hx => ?_
        rcases List.mem_cons.mp (hlive'.mem_iff.mp (hkept x hx)) with heq | hmem
        · exact absurd (congrArg BuddyBlock.addr heq) (hsteady.addr_ne hlive hx)
        · exact hmem
    | true =>
      obtain ⟨N, hinit, hpool⟩ := poolInv_new hsteady (hbase.trans h.base) (horder.trans h.order)
        hsize hle (hlive.mem_iff.mpr List.mem_cons_self)
      have hentry : newPool { s.setDevice d with nextPoolHandle := s.nextPoolHandle + 1 }
          s.nextPoolHandle addr size (alignUp4k size) =
            ⟨addr, addr + size, fun _ => none, GpuBuddy.fresh addr N⟩ := by
        have hfind : findPool { s.setDevice d with nextPoolHandle := s.nextPoolHandle + 1 }
            s.nextPoolHandle = none := by
          rw [findPool, Option.map_eq_none_iff, List.find?_eq_none]
          intro q hq
          simpa using hnew q hq
        rw [newPool, hfind, hinit]
        rfl
      change MemInv (MemPools.emplacePool { s.setDevice d with nextPoolHandle := s.nextPoolHandle + 1 }
        s.nextPoolHandle (newPool { s.setDevice d with nextPoolHandle := s.nextPoolHandle + 1 }
          s.nextPoolHandle addr size (alignUp4k size)))
      rw [hentry]
      have hinv' : MemInv { s.setDevice d with nextPoolHandle := s.nextPoolHandle + 1 } :=
        ⟨hinv.steady, hinv.base, hinv.order, hinv.pools, hinv.handles, hinv.bases⟩
      refine hinv'.emplacePool hnew hpool fun q hq => ?_
      obtain ⟨j, hj, -⟩ := (h.pools q hq).reserved
      exact hsteady.addr_ne hlive hj

theorem MemInv.destroy (h : MemInv s) (handle : UInt64) : MemInv (s.destroy handle).2 := by
  rw [MemPools.destroy]
  rcases hp : s.findPool handle with _ | p
  · exact h
  have hmem := mem_of_findPool hp
  obtain ⟨j, hj, -⟩ := (h.pools _ hmem).reserved
  rcases hdevice : s.deviceBuddy with _ | d
  · rw [device, hdevice, Option.getD_none, deviceBuddyInit_eq, GpuBuddy.fresh_live] at hj
    cases hj
  have hd : s.device = d := by rw [device, hdevice, Option.getD_some]
  have hfree := h.steady.freeStep p.vaBase
  dsimp only
  rw [simDeviceVaFree, hdevice]
  dsimp only
  rw [hd] at hfree hj
  generalize d.gpuBuddyFree p.vaBase = r at hfree ⊢
  cases hfree with
  | unknown hfind => exact absurd hj (GpuBuddy.findRecord_none hfind j)
  | freed _ hsteady hbase horder hlive =>
    refine ⟨hsteady, hbase.trans (hd ▸ h.base), horder.trans (hd ▸ h.order), fun q hq => ?_,
      h.handles.sublist (List.filter_sublist.map _), h.bases.sublist (List.filter_sublist.map _)⟩
    obtain ⟨hq, hkey⟩ := List.mem_filter.mp hq
    refine (h.pools q hq).of_device fun i hi => ?_
    rw [hd] at hi
    rcases List.mem_cons.mp (hlive.mem_iff.mp hi) with heq | hlive'
    · have heq' := h.eq_of_base hq hmem (congrArg BuddyBlock.addr heq)
      rw [heq'] at hkey
      simp at hkey
    · exact hlive'

/-! ### Runs -/

theorem MemInv.step (h : MemInv s) (op : PoolOp) (hres : ResourcesLeft s op)
    (hinside : InsideRange s op) : MemInv (s.step op) := by
  cases op with
  | create size mapped => exact h.create hres
  | allocAsync handle size =>
    have hinv := h.alloc hres.2 hinside
    rw [MemPools.step]
    generalize halloc : s.alloc handle size = r at hinv
    obtain ⟨res, s'⟩ := r
    cases res with
    | error rc =>
      rw [allocAsync_error halloc]
      exact hinv
    | ok va =>
      rw [allocAsync_ok halloc]
      exact hinv.answerFence
  | freeAsync va => exact h.free va
  | destroy handle => exact h.destroy handle

theorem MemInv.stepSound_iff (h : MemInv s) (op : PoolOp) (hres : ResourcesLeft s op) :
    PoolStepSound s op ↔ InsideRange s op := by
  cases op with
  | create => exact Iff.rfl
  | allocAsync handle size => exact h.allocSound_iff hres
  | freeAsync va => exact ⟨fun _ => trivial, fun _ => h.freeSound hres⟩
  | destroy => exact Iff.rfl

/-- A pool whose range is all that its allocator covers serves every request inside it. -/
theorem MemInv.insideRange (h : MemInv s) {handle size : UInt64} (hsize : size.toNat ≤ 2 ^ 33)
    (hfull : ∀ p ∈ s.findPool handle,
      p.vaLimit.toNat = p.vaBase.toNat + 2 ^ p.poolBuddy.maxOrder * 4096) :
    InsideRange s (.allocAsync handle size) := by
  intro haligned p hp t ht a ha
  have hpool := h.pools _ (mem_of_findPool hp)
  obtain ⟨hle, hmax, -, -⟩ := GpuBuddy.firstFit_some ht
  have hblock := GpuBuddy.mem_blocks_of_free (hmax.trans hpool.order_le) (List.mem_of_head? ha)
  obtain ⟨-, hstop⟩ := hpool.steady.sound.placed _ hblock
  have hbounds := alignUp4k_bounds (x := size) (by omega)
  have hcovers := le_order_of_request haligned (by omega)
  have hk := GpuBuddy.orderForSize_le (alignedSize (alignUp4k size))
  have hlimit := hfull p hp
  rw [hpool.base] at hstop
  simp only [BuddyBlock.bytes] at hstop
  generalize orderForSize (alignedSize (alignUp4k size)) = k at *
  have hpow := Nat.pow_le_pow_right Nat.two_pos hle
  have hsmall : size.toNat ≤ 2 ^ k * 4096 := by
    rcases Nat.lt_or_ge k gpuBuddyMaxOrder with hlt | hge
    · exact hbounds.1.trans (hcovers hlt)
    · have heq : k = 21 := Nat.le_antisymm hk hge
      rw [heq]
      exact hsize
  omega

/-- **Allocation law.**  As long as list nodes, fence ids and pool handles last, live allocations are
disjoint, lie in their pools and can be freed and allocated again along a run exactly when the part
of a free block that serves a request always ends inside the range of the pool. -/
theorem mem_pool_law_iff (ops : List PoolOp) (hres : Guarded step ResourcesLeft init ops) :
    (Always step LivesDisjoint init ops ∧ Guarded step PoolStepSound init ops) ↔
      Guarded step InsideRange init ops := by
  have hboth := always_guarded_iff (I := MemInv) (P := LivesDisjoint)
    (R := fun s op => PoolStepSound s op ∧ ResourcesLeft s op)
    (G := fun s op => InsideRange s op ∧ ResourcesLeft s op)
    (fun s op h hop => h.step op hop.2 hop.1) (fun s h => h.livesDisjoint)
    (fun s op h hop => ⟨(h.stepSound_iff op hop.2).mpr hop.1, hop.2⟩)
    (fun s op h _ hop => ⟨(h.stepSound_iff op hop.2).mp hop.1, hop.2⟩) ops memInv_init
  constructor
  · intro ⟨hdisjoint, hsound⟩
    exact (hboth.mp ⟨hdisjoint, hsound.and step hres⟩).mono step fun _ _ hop => hop.1
  · intro hinside
    obtain ⟨hdisjoint, hsound⟩ := hboth.mpr (hinside.and step hres)
    exact ⟨hdisjoint, hsound.mono step fun _ _ hop => hop.1⟩

/-- Two allocations from a pool of four pages; the second one is freed, and a third is served from
its first page. -/
theorem mem_pool_law_fourPages :
    let ops : List PoolOp := [.create 16384 true, .allocAsync 1 4096, .allocAsync 1 8192,
      .freeAsync 0x5601ffffc000, .allocAsync 1 100]
    Always step LivesDisjoint init ops ∧ Guarded step PoolStepSound init ops :=
  (mem_pool_law_iff _ (by decide +kernel)).mpr (by decide +kernel)

/-- A pool of three pages gets a block of four, and serves its first page from the last one. -/
theorem mem_pool_law_fails :
    ¬Guarded step PoolStepSound init [.create 12288 true, .allocAsync 1 4096] := by
  intro hsound
  have hret : (allocAsync (step init (.create 12288 true)) 1 4096).1 = 0x100000000 := by
    decide +kernel
  have hva : (allocAsync (step init (.create 12288 true)) 1 4096).2.1 = some 0x5601fffff000 := by
    decide +kernel
  have hlimit : (findPool (step init (.create 12288 true)) 1).map PoolTableEntry.vaLimit =
      some 0x5601fffff000 := by decide +kernel
  obtain ⟨p, hp, -, hend⟩ := hsound.2.1 0x5601fffff000 (by rw [hret]; decide) hva
  rw [hp, Option.map_some, Option.some.injEq] at hlimit
  rw [hlimit] at hend
  exact absurd hend (by decide)

end MemPools

end UsrLinuxEmu.GpuDriver
