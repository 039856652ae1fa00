import UsrLinuxEmu.GpuCore.BuddySizes
import UsrLinuxEmu.GpuCore.BuddySoundness

/-!
# What a request gets (`libgpu_core/src/buddy.c`)

A request is rounded up to an order and cut from the end of a free block.  The rounding wraps to
zero above `2 ^ 63`, the order stops at the highest, and a pool that is no power of two ends inside
its block.

* `gpuBuddyInit_isSome_iff` — when the loop of `gpu_buddy_init` ends;
* `CutFrom` / `alloc_cut`, `alloc_refused` — the free block that serves a request, if any;
* `Served` — a request that succeeds gets a block of its size inside the pool;
* `staysInside` / `buddy_requests_iff` — when that is so along a run;
* `whole_pool_requests` — in a pool that fills its block only requests above 8 GiB matter.
-/

namespace UsrLinuxEmu.GpuCore

open UsrLinuxEmu.Transition UsrLinuxEmu.Dyadic

namespace GpuBuddy

variable {b : GpuBuddy}

/-! ### The property -/

/-- A request that succeeds is recorded as a block that is large enough, and its bytes lie in
`[base, base + size)`. -/
def Served (base size : UInt64) (b : GpuBuddy) : Op → Prop
  | .alloc request => ∀ addr ∈ (b.gpuBuddyAlloc request).1,
      (∃ k, (b.gpuBuddyAlloc request).2.liveBlocks.Perm (⟨k, addr⟩ :: b.liveBlocks) ∧
        request.toNat ≤ (⟨k, addr⟩ : BuddyBlock).bytes) ∧
      base.toNat ≤ addr.toNat ∧ addr.toNat + request.toNat ≤ base.toNat + size.toNat
  | .free _ | .reset => True

/-- A request of order `k` is cut from the block at `addr` in the list of order `t`: the lowest
order with a free block, with nodes for the splits and an unused record. -/
structure CutFrom (b : GpuBuddy) (k t : ℕ) (addr : UInt64) : Prop where
  fit : b.firstFit k = some t
  head : addr ∈ (b.freeLists t).head?
  nodes : t = k ∨ b.blockPoolUsed + 2 * (t - k) ≤ blockPoolSize + 1
  record : none ∈ b.records

/-- How far above the base the pages begin that are cut from the end of the block at `addr`. -/
def pieceOffset (base : UInt64) (b : GpuBuddy) (k t : ℕ) (addr : UInt64) : UInt64 :=
  addr - base + UInt64.ofNat (pagesBefore b.blockPoolUsed k t * 4096)

/-- A request that finds a block is of 8 GiB at most, and as many bytes of the last pages of that
block as it asks for lie in the pool. -/
def staysInside (base size : UInt64) (b : GpuBuddy) : Op → Prop
  | .alloc request => request ≠ 0 →
      ∀ t addr, b.CutFrom (orderForSize (alignedSize request)) t addr →
        request.toNat ≤ 2 ^ 33 ∧
        base.toNat + (b.pieceOffset base (orderForSize (alignedSize request)) t addr).toNat <
          2 ^ 64 ∧
        (b.pieceOffset base (orderForSize (alignedSize request)) t addr).toNat + request.toNat ≤
          size.toNat
  | .free _ | .reset => True

/-! ### Initialisation -/

theorem blockSize_le {k : ℕ} (hk : k < 64) : (blockSize k).toNat ≤ 2 ^ 63 := by
  have hall : ∀ k < 64, (blockSize k).toNat ≤ 2 ^ 63 := by decide
  exact hall k hk

theorem maxOrderLoop_none {size : UInt64} (hsize : 2 ^ 63 < size.toNat) (n i : ℕ)
    (hi : i + n = 64) : maxOrderLoop size n i = none := by
  induction n generalizing i with
  | zero => rfl
  | succ n ih =>
    have hle := blockSize_le (k := i) (by omega)
    rw [maxOrderLoop, if_pos (UInt64.lt_iff_toNat_lt.mpr (by omega))]
    exact ih (i + 1) (by omega)

/-- **Initialisation ends** for pools of `2 ^ 63` bytes at most: above that no shift of the block
size reaches the pool size. -/
theorem gpuBuddyInit_isSome_iff (base size : UInt64) :
    (gpuBuddyInit base size).isSome = true ↔ size.toNat ≤ 2 ^ 63 := by
  constructor
  · intro h
    by_contra hlarge
    rw [gpuBuddyInit, maxOrderLoop_none (Nat.not_le.mp hlarge) 64 0 rfl] at h
    cases h
  · intro h
    have hcovers : ¬blockSize 51 < size := by
      have hfull : (blockSize 51).toNat = 2 ^ 63 := rfl
      rw [UInt64.lt_iff_toNat_lt]
      omega
    obtain ⟨N, -, hinit⟩ := gpuBuddyInit_of_le base (by decide) hcovers
    rw [hinit]
    rfl

/-! ### Orders -/

/-- The blocks of a request's order cover it up to 8 GiB, and then only. -/
theorem request_le_bytes_iff {request : UInt64} (hne : request ≠ 0) :
    request.toNat ≤ 2 ^ orderForSize (alignedSize request) * 4096 ↔ request.toNat ≤ 2 ^ 33 := by
  have hle := orderForSize_le (alignedSize request)
  constructor
  · intro h
    have hpow := Nat.pow_le_pow_right Nat.two_pos hle
    have htop : 2 ^ gpuBuddyMaxOrder * 4096 = 2 ^ 33 := by decide
    exact h.trans ((Nat.mul_le_mul_right 4096 hpow).trans_eq htop)
  · intro h
    rcases Nat.lt_or_ge (orderForSize (alignedSize request)) gpuBuddyMaxOrder with hlt | hge
    · exact le_order_of_request hne (h.trans (by decide)) hlt
    · rw [Nat.le_antisymm hle hge]
      exact h

/-! ### Requests that find no block -/

/-- When the nodes run out before the last split, the list that is reached is empty. -/
theorem splitLoop_stuck (order n : ℕ) (b : GpuBuddy) (hle : order + n ≤ b.maxOrder) (hn : n ≠ 0)
    (hshort : blockPoolSize + 1 < b.blockPoolUsed + 2 * n)
    (hempty : ∀ j, order ≤ j → j < order + n → b.freeLists j = [])
    {addr : UInt64} {l : List UInt64} (hlist : b.freeLists (order + n) = addr :: l) :
    (b.splitLoop order n).2.freeLists (b.splitLoop order n).1 = [] := by
  induction n generalizing b addr l with
  | zero => exact absurd rfl hn
  | succ n ih =>
    have htop : order + n + 1 ≤ b.maxOrder := hle
    rw [splitLoop, freeListPop_cons htop hlist]
    dsimp only
    have hbelow : ∀ j, order ≤ j → j < order + n + 1 →
        (b.setList (order + n + 1) l).freeLists j = [] := by
      intro j hj hlt
      rw [setList_of_ne b hlt.ne]
      exact hempty j hj hlt
    have hsplit := splitStep (b.setList (order + n + 1) l) (Nat.le_of_succ_le htop) addr
    generalize (b.setList (order + n + 1) l).splitBlock addr (order + n + 1) = b₁ at hsplit ⊢
    have hlower : ∀ j, order ≤ j → j < order + n → b₁.freeLists j = [] := by
      intro j hj hlt
      rw [hsplit.list_of_ne hlt.ne]
      exact hbelow j hj (Nat.lt_succ_of_lt hlt)
    cases hsplit with
    | both htwo =>
      have htwo' : b.blockPoolUsed + 2 ≤ blockPoolSize := htwo
      refine ih _ (Nat.le_of_succ_le htop) (by omega) ?_ hlower (push_self _ _ _)
      change _ < b.blockPoolUsed + 1 + 1 + 2 * n
      omega
    | one hone =>
      have hlast : b.blockPoolUsed + 1 = blockPoolSize := hone
      refine ih _ (Nat.le_of_succ_le htop) (by omega) ?_ hlower (push_self _ _ _)
      change _ < b.blockPoolUsed + 1 + 2 * n
      omega
    | none hnone =>
      have hnil : (b.setList (order + n + 1) l).freeLists (order + n) = [] :=
        hbelow _ (Nat.le_add_right _ _) (Nat.lt_succ_self _)
      rw [splitLoop_of_empty hnil]
      exact hnil

/-- **Refused requests.**  A request fails that is empty or is cut from no block. -/
theorem alloc_refused {request : UInt64} (hmax : b.maxOrder ≤ gpuBuddyMaxOrder)
    (h : request ≠ 0 → ∀ t addr, ¬b.CutFrom (orderForSize (alignedSize request)) t addr) :
    (b.gpuBuddyAlloc request).1 = none := by
  rw [gpuBuddyAlloc]
  by_cases hne : request = 0
  · rw [if_pos hne]
  rw [if_neg hne]
  have hcut := h hne
  simp only [if_neg (Nat.not_lt.mpr (orderForSize_le (alignedSize request)))]
  generalize orderForSize (alignedSize request) = k at hcut ⊢
  cases hfit : b.firstFit k with
  | none => rfl
  | some t =>
    obtain ⟨hle, htop, hnonempty, hempty⟩ := firstFit_some hfit
    obtain ⟨addr, l, hlist⟩ := List.exists_cons_of_ne_nil hnonempty
    have hsum : k + (t - k) = t := Nat.add_sub_of_le hle
    dsimp only
    by_cases hnodes : t = k ∨ b.blockPoolUsed + 2 * (t - k) ≤ blockPoolSize + 1
    · -- the piece is cut, and no record is free
      have hrecord : none ∉ b.records := fun hrecord =>
        hcut t addr ⟨hfit, by rw [hlist]; rfl, hnodes, hrecord⟩
      obtain ⟨hreached, hpool, hhead⟩ := splitLoop_head k (t - k) b hmax (by rwa [hsum])
        (by omega) (by rwa [hsum])
      generalize splitLoop k (t - k) b = r at hreached hpool hhead ⊢
      obtain ⟨t', b₁⟩ := r
      subst hreached
      obtain ⟨rest, hcons⟩ := List.head?_eq_some_iff.mp hhead
      have hfull : ∀ addr, (b₁.setList t' rest).addRecord ⟨addr, alignedSize request, t'⟩ =
          none := by
        intro addr
        have hnot : (b₁.setList t' rest).records.findIdx? Option.isNone = none := by
          rw [List.findIdx?_eq_none_iff]
          intro r hr
          change r ∈ b₁.records at hr
          rw [hpool.records] at hr
          cases r with
          | none => exact absurd hr hrecord
          | some r => rfl
        rw [addRecord, hnot]
      rw [freeListPop_cons (hpool.order ▸ hle.trans htop) hcons]
      simp only [hfull]
    · rw [not_or, Nat.not_le] at hnodes
      have hnil := splitLoop_stuck k (t - k) b (by rwa [hsum]) (by omega) hnodes.2
        (by rwa [hsum]) (by rwa [hsum])
      generalize splitLoop k (t - k) b = r at hnil ⊢
      obtain ⟨t', b₁⟩ := r
      have hpop : b₁.freeListPop t' = none := by
        have hnil' : b₁.freeLists t' = [] := hnil
        rw [freeListPop, hnil']
        exact ite_self _
      simp only [hpop]

/-! ### Steps -/

theorem splitLoop_maxOrder (order n : ℕ) (b : GpuBuddy) :
    (b.splitLoop order n).2.maxOrder = b.maxOrder := by
  induction n generalizing b with
  | zero => rfl
  | succ n ih =>
    rw [splitLoop, freeListPop]
    split_ifs
    · rfl
    · cases b.freeLists (order + n + 1) with
      | nil => rfl
      | cons addr rest =>
        dsimp only
        rw [ih, splitBlock, (insertNew_samePool _ _ _).order, (insertNew_samePool _ _ _).order]
        rfl

theorem coalesceFrom_maxOrder (n order : ℕ) (b : GpuBuddy) :
    (coalesceFrom n order b).maxOrder = b.maxOrder := by
  induction n generalizing order b with
  | zero => rfl
  | succ n ih =>
    rw [coalesceFrom]
    generalize (b.freeLists order).length = m
    induction m generalizing b with
    | zero => rfl
    | succ m ihm =>
      rw [coalesceLoop]
      cases b.mergeable order with
      | none => rfl
      | some pair =>
        dsimp only
        rw [ihm, ih, merge, (insertNew_samePool _ _ _).order]
        rfl

theorem freeListPop_maxOrder {k : ℕ} {addr : UInt64} {b' : GpuBuddy}
    (h : b.freeListPop k = some (addr, b')) : b'.maxOrder = b.maxOrder := by
  rw [freeListPop] at h
  split_ifs at h
  cases hlist : b.freeLists k with
  | nil =>
    rw [hlist] at h
    cases h
  | cons a rest =>
    rw [hlist] at h
    rw [← (Prod.mk.inj (Option.some.inj h)).2]
    rfl

theorem addRecord_maxOrder {r : GpuBuddyRecord} {b' : GpuBuddy} (h : b.addRecord r = some b') :
    b'.maxOrder = b.maxOrder := by
  rw [addRecord] at h
  cases hidx : b.records.findIdx? Option.isNone with
  | none =>
    rw [hidx] at h
    cases h
  | some i =>
    rw [hidx] at h
    rw [← Option.some.inj h]

theorem alloc_maxOrder (b : GpuBuddy) (request : UInt64) :
    (b.gpuBuddyAlloc request).2.maxOrder = b.maxOrder := by
  rw [gpuBuddyAlloc]
  by_cases hzero : request = 0
  · rw [if_pos hzero]
  rw [if_neg hzero]
  simp only [if_neg (Nat.not_lt.mpr (orderForSize_le (alignedSize request)))]
  cases b.firstFit (orderForSize (alignedSize request)) with
  | none => rfl
  | some t =>
    have hsplit := splitLoop_maxOrder (orderForSize (alignedSize request))
      (t - orderForSize (alignedSize request)) b
    dsimp only
    generalize splitLoop _ _ b = r at hsplit ⊢
    obtain ⟨t', b₁⟩ := r
    cases hpop : b₁.freeListPop t' with
    | none => exact hsplit
    | some cut =>
      obtain ⟨addr, b₂⟩ := cut
      have hcut := (freeListPop_maxOrder hpop).trans hsplit
      dsimp only
      cases hadd : b₂.addRecord ⟨addr, alignedSize request, t'⟩ with
      | none => exact (insertNew_samePool _ _ _).order.trans hcut
      | some b₃ => exact (addRecord_maxOrder hadd).trans hcut

theorem removeRecord_maxOrder (b : GpuBuddy) (addr : UInt64) :
    (b.removeRecord addr).maxOrder = b.maxOrder := by
  rw [removeRecord]
  split
  · rfl
  · rfl

theorem step_maxOrder (b : GpuBuddy) (op : Op) : (b.step op).maxOrder = b.maxOrder := by
  cases op with
  | alloc request => exact alloc_maxOrder b request
  | free addr =>
    rw [step, gpuBuddyFree]
    cases b.findRecord addr with
    | none => rfl
    | some r =>
      dsimp only
      rw [coalesce, coalesceFrom_maxOrder, (insertNew_samePool _ _ _).order, removeRecord_maxOrder]
  | reset => exact fresh_maxOrder _ _

/-- **One request.**  It is served as it should be exactly when what it is cut from stays inside. -/
theorem served_iff (base size : UInt64) (hmax : b.maxOrder ≤ gpuBuddyMaxOrder) (op : Op) :
    Served base size b op ↔ staysInside base size b op := by
  cases op with
  | free addr => exact Iff.rfl
  | reset => exact Iff.rfl
  | alloc request =>
    rw [Served, staysInside]
    by_cases hcut : request ≠ 0 ∧ ∃ t addr, b.CutFrom (orderForSize (alignedSize request)) t addr
    · obtain ⟨hne, t, addr, hcut⟩ := hcut
      obtain ⟨l, hlist⟩ := List.head?_eq_some_iff.mp hcut.head
      obtain ⟨b', halloc, -, hlive⟩ :=
        alloc_cut hmax hcut.record hne hcut.fit hlist hcut.nodes
      have hunique : ∀ t' addr', b.CutFrom (orderForSize (alignedSize request)) t' addr' →
          t' = t ∧ addr' = addr := by
        intro t' addr' h
        obtain rfl := Option.some.inj (h.fit.symm.trans hcut.fit)
        exact ⟨rfl, Option.some.inj (h.head.symm.trans hcut.head)⟩
      have hbytes := request_le_bytes_iff hne
      rw [halloc]
      generalize orderForSize (alignedSize request) = k at hcut hlive hunique hbytes ⊢
      have hpiece : addr + UInt64.ofNat (pagesBefore b.blockPoolUsed k t * 4096) =
          base + b.pieceOffset base k t addr := by
        rw [pieceOffset, ← UInt64.add_assoc, UInt64.add_comm base, UInt64.sub_add_cancel]
      rw [hpiece] at hlive ⊢
      have hbase := base.toNat_lt
      have hoffset := (b.pieceOffset base k t addr).toNat_lt
      constructor
      · intro h _ t' addr' hcut'
        obtain ⟨rfl, rfl⟩ := hunique t' addr' hcut'
        obtain ⟨⟨k', hlive', hfits⟩, hlow, hhigh⟩ := h _ rfl
        -- the new record decides the order
        have horders := ((hlive'.symm.trans hlive).map BuddyBlock.order).sum_eq
        have horder : k' = k := by
          simpa only [List.map_cons, List.sum_cons, Nat.add_right_cancel_iff] using horders
        rw [horder] at hfits
        refine ⟨hbytes.mp hfits, ?_⟩
        rw [UInt64.toNat_add] at hlow hhigh
        omega
      · intro h piece hsome
        obtain rfl := Option.some.inj hsome
        obtain ⟨hrequest, hnowrap, hinside⟩ := h hne t addr hcut
        refine ⟨⟨k, hlive, hbytes.mpr hrequest⟩, ?_⟩
        rw [UInt64.toNat_add]
        omega
    · have hnone : (b.gpuBuddyAlloc request).1 = none :=
        alloc_refused hmax fun hne t addr h => hcut ⟨hne, t, addr, h⟩
      rw [hnone]
      constructor
      · intro _ hne t addr h
        exact absurd ⟨hne, t, addr, h⟩ hcut
      · intro _ addr haddr
        cases haddr

/-! ### Runs -/

/-- **Requests.**  `gpu_buddy_init` ends, and every request that succeeds along a run gets a block
of its size inside the pool, exactly when the pool has `2 ^ 63` bytes at most and every request that
finds a block stays inside. -/
theorem buddy_requests_iff (base size : UInt64) (ops : List Op) :
    ((gpuBuddyInit base size).isSome = true ∧
        ∀ b ∈ gpuBuddyInit base size, Guarded step (Served base size) b ops) ↔
      size.toNat ≤ 2 ^ 63 ∧
        ∀ b ∈ gpuBuddyInit base size, Guarded step (staysInside base size) b ops := by
  rw [gpuBuddyInit_isSome_iff]
  refine and_congr_right fun _ => forall₂_congr fun b hinit => ?_
  have hmax : b.maxOrder ≤ gpuBuddyMaxOrder := (gpuBuddyInit_eq hinit).2.2
  have hstep : ∀ {G : GpuBuddy → Op → Prop} (b : GpuBuddy) (op : Op),
      b.maxOrder ≤ gpuBuddyMaxOrder → G b op → (b.step op).maxOrder ≤ gpuBuddyMaxOrder :=
    fun b op h _ => (step_maxOrder b op).trans_le h
  constructor
  · exact guarded_of_inductive hstep (fun b op h => (served_iff base size h op).mp) hmax
  · exact guarded_of_inductive hstep (fun b op h => (served_iff base size h op).mpr) hmax

/-- A request that finds a block is of 8 GiB at most. -/
def upTo8GiB (b : GpuBuddy) : Op → Prop
  | .alloc request => request ≠ 0 →
      ∀ t addr, b.CutFrom (orderForSize (alignedSize request)) t addr → request.toNat ≤ 2 ^ 33
  | .free _ | .reset => True

/-- What is cut from a block of a steady pool lies in the pool. -/
theorem Steady.pieceOffset_le (hb : Steady b) {k t : ℕ} {addr : UInt64}
    (hcut : b.CutFrom k t addr) :
    b.baseAddr.toNat + (b.pieceOffset b.baseAddr k t addr).toNat < 2 ^ 64 ∧
      (b.pieceOffset b.baseAddr k t addr).toNat + 2 ^ k * 4096 ≤ 2 ^ b.maxOrder * 4096 := by
  obtain ⟨hle, htop, -, -⟩ := firstFit_some hcut.fit
  have hmem := mem_blocks_of_free (htop.trans hb.order_le) (List.mem_of_head? hcut.head)
  obtain ⟨hstart, hstop⟩ := hb.laid.bounds hmem
  have hinside := hb.laid.inside hmem
  have hfits := hb.fits
  have hpages : pagesBefore b.blockPoolUsed k t + 2 ^ k ≤ 2 ^ t := by
    have hpow := Nat.pow_le_pow_right Nat.two_pos hle
    have hpos := Nat.two_pow_pos k
    rw [pagesBefore]
    split_ifs with hroom
    · omega
    · have hnext : 2 ^ (k + 1) ≤ 2 ^ t := Nat.pow_le_pow_right Nat.two_pos (by omega)
      rw [Nat.pow_succ] at hnext ⊢
      omega
  have hpos := Nat.two_pow_pos k
  have hpool : 2 ^ b.maxOrder ≤ 2 ^ 21 := Nat.pow_le_pow_right Nat.two_pos hb.order_le
  simp only [PoolFits, BuddyBlock.bytes] at hfits hstart hstop
  have hoffset : (b.pieceOffset b.baseAddr k t addr).toNat =
      addr.toNat - b.baseAddr.toNat + pagesBefore b.blockPoolUsed k t * 4096 := by
    have hsub : (addr - b.baseAddr).toNat = addr.toNat - b.baseAddr.toNat :=
      UInt64.toNat_sub_of_le _ _ (UInt64.le_iff_toNat_le.mpr (by omega))
    rw [pieceOffset, UInt64.toNat_add, hsub, UInt64.toNat_ofNat', Nat.mod_eq_of_lt (by omega),
      Nat.mod_eq_of_lt (by omega)]
  rw [hoffset]
  omega

/-- **Whole pools.**  In a pool that is no smaller than its initial block, and that does not wrap
around, requests up to 8 GiB get what they ask for. -/
theorem whole_pool_requests {base size : UInt64} {N : ℕ} (hN : N ≤ gpuBuddyMaxOrder)
    (hsize : 2 ^ N * 4096 ≤ size.toNat) (hfits : PoolFits base N) (ops : List Op) :
    Guarded step (Served base size) (fresh base N) ops ↔
      Guarded step upTo8GiB (fresh base N) ops := by
  have hstep : ∀ {G : GpuBuddy → Op → Prop} (b : GpuBuddy) (op : Op),
      (Steady b ∧ b.baseAddr = base ∧ b.maxOrder = N) → G b op →
        (Steady (b.step op) ∧ (b.step op).baseAddr = base ∧ (b.step op).maxOrder = N) := by
    rintro G b op ⟨hb, hbase, horder⟩ -
    obtain ⟨hb', hbase', horder'⟩ := steady_step b op hb
    exact ⟨hb', hbase'.trans hbase, horder'.trans horder⟩
  have hiff : ∀ (b : GpuBuddy) (op : Op),
      (Steady b ∧ b.baseAddr = base ∧ b.maxOrder = N) →
        (Served base size b op ↔ upTo8GiB b op) := by
    rintro b op ⟨hb, rfl, rfl⟩
    rw [served_iff _ _ hb.order_le]
    cases op with
    | free addr => exact Iff.rfl
    | reset => exact Iff.rfl
    | alloc request =>
      refine forall_congr' fun hne => forall₂_congr fun t addr => forall_congr' fun hcut => ?_
      obtain ⟨hnowrap, hinside⟩ := hb.pieceOffset_le hcut
      refine ⟨fun h => h.1, fun h => ⟨h, hnowrap, ?_⟩⟩
      have hbytes := (request_le_bytes_iff hne).mpr h
      omega
  have hinit : Steady (fresh base N) ∧ (fresh base N).baseAddr = base ∧
      (fresh base N).maxOrder = N :=
    ⟨steady_fresh hfits hN, fresh_baseAddr base N, fresh_maxOrder base N⟩
  constructor
  · exact guarded_of_inductive hstep (fun b op h => (hiff b op h).mp) hinit
  · exact guarded_of_inductive hstep (fun b op h => (hiff b op h).mpr) hinit

/-- A heap of 256 MiB serves a request for more than `2 ^ 63` bytes with one page. -/
theorem buddy_requests_fails :
    ¬((gpuBuddyInit 0x100000000 0x10000000).isSome = true ∧
      ∀ b ∈ gpuBuddyInit 0x100000000 0x10000000,
        Guarded step (Served 0x100000000 0x10000000) b [.alloc 0x8000000000000001]) := by
  rintro ⟨-, h⟩
  have hinit : gpuBuddyInit 0x100000000 0x10000000 = some (fresh 0x100000000 16) := rfl
  have hserved := (h _ hinit).1
  rw [served_iff _ _ (by rw [fresh_maxOrder]; decide)] at hserved
  have horder : orderForSize (alignedSize 0x8000000000000001) = 0 := by decide
  have hcut : (fresh 0x100000000 16).CutFrom 0 16 0x100000000 := by
    refine ⟨firstFit_fresh _ _, ?_, .inr ?_, ?_⟩
    · rw [fresh_lists, Function.update_self]
      rfl
    · rw [fresh_used]
      decide
    · rw [fresh_eq]
      exact List.mem_replicate.mpr ⟨by decide, rfl⟩
  have hlarge := (hserved (by decide) 16 0x100000000 (horder ▸ hcut)).1
  revert hlarge
  decide

end GpuBuddy

end UsrLinuxEmu.GpuCore
