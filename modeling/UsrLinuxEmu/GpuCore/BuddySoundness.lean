import UsrLinuxEmu.GpuCore.BuddyInvariant
import UsrLinuxEmu.Transition.Run

/-!
# Structural soundness of the buddy allocator

* `steady_fresh`, `steady_step` — the invariant of an initialised pool, and of every call;
* `BuddySound` — blocks disjoint, at their places, and free space coalesced;
* `splitLoop_head` / `alloc_eq` — which part of a larger block a request gets;
* `buddy_sound_iff` — every run of a pool is sound exactly when its last page starts below `2 ^ 64`.
-/

namespace UsrLinuxEmu.GpuCore

open UsrLinuxEmu.Dyadic UsrLinuxEmu.Transition

namespace GpuBuddy

variable {b : GpuBuddy}

/-! ### Initialisation -/

theorem blocks_unused (base : UInt64) (N : ℕ) :
    (⟨base, N, fun _ => [], 0, List.replicate gpuBuddyMaxRecords none⟩ : GpuBuddy).blocks = [] := by
  have hlive : tableBlocks (List.replicate gpuBuddyMaxRecords none) = [] := by
    rw [tableBlocks, List.filterMap_replicate_of_none rfl]
  refine List.append_eq_nil_iff.mpr ⟨hlive, ?_⟩
  exact List.flatMap_eq_nil_iff.mpr fun _ _ => rfl

theorem fresh_eq (base : UInt64) (N : ℕ) : fresh base N =
    push ⟨base, N, fun _ => [], 0, List.replicate gpuBuddyMaxRecords none⟩ N base := by
  have hroom : 0 < blockPoolSize := by decide
  exact insertNew_of_room hroom base (Nat.le_refl N)

theorem fresh_maxOrder (base : UInt64) (N : ℕ) : (fresh base N).maxOrder = N := by
  rw [fresh_eq]
  rfl

theorem fresh_baseAddr (base : UInt64) (N : ℕ) : (fresh base N).baseAddr = base := by
  rw [fresh_eq]
  rfl

theorem fresh_used (base : UInt64) (N : ℕ) : (fresh base N).blockPoolUsed = 1 := by
  rw [fresh_eq]
  rfl

theorem fresh_blocks (base : UInt64) {N : ℕ} (hN : N ≤ gpuBuddyMaxOrder) :
    (fresh base N).blocks = [⟨N, base⟩] := by
  rw [fresh_eq]
  have hperm := blocks_push' ⟨base, N, fun _ => [], 0, List.replicate gpuBuddyMaxRecords none⟩ hN
    base
  rw [blocks_unused] at hperm
  exact List.perm_singleton.mp hperm

theorem fresh_live (base : UInt64) (N : ℕ) : (fresh base N).liveBlocks = [] := by
  have hnil : tableBlocks (List.replicate gpuBuddyMaxRecords none) = [] := by
    rw [tableBlocks, List.filterMap_replicate_of_none rfl]
  rw [fresh_eq]
  exact hnil

theorem steady_fresh {base : UInt64} {N : ℕ} (hfits : PoolFits base N)
    (hN : N ≤ gpuBuddyMaxOrder) : Steady (fresh base N) := by
  have hroot : BuddyBlock.At base ⟨N, base⟩ (Block.root N) := by
    refine ⟨rfl, ?_⟩
    simp [Block.root, Block.start]
  have hlaid : Laid base N [⟨N, base⟩] := by
    refine ⟨fun x hx => ?_, ?_⟩
    · rw [List.mem_singleton.mp hx, hroot.toDyadic]
      exact hroot
    · rw [List.map_singleton, hroot.toDyadic]
      exact Packed.singleton_root N
  have hlist : ∀ k < N, (fresh base N).freeLists k = [] := by
    intro k hk
    rw [fresh_eq, push_of_ne _ _ hk.ne]
  have hroom : 1 ≤ blockPoolSize := by decide
  refine ⟨⟨?_, ?_, ?_, ?_, ?_, ?_⟩, ?_⟩
  · rwa [fresh_maxOrder]
  · rwa [fresh_baseAddr, fresh_maxOrder]
  · rwa [fresh_baseAddr, fresh_maxOrder, fresh_blocks base hN]
  · rw [fresh_blocks base hN, fresh_used]
    exact Nat.le_refl 2
  · rwa [fresh_used]
  · rw [fresh_eq]
    exact List.length_replicate
  · rw [fresh_maxOrder]
    intro k hk
    unfold CoalescedAt
    rw [hlist k hk]
    intro a ha
    cases ha

theorem gpuBuddyInit_eq {base size : UInt64} {b : GpuBuddy} (h : gpuBuddyInit base size = some b) :
    b = fresh base b.maxOrder ∧ b.baseAddr = base ∧ b.maxOrder ≤ gpuBuddyMaxOrder := by
  obtain ⟨order, -, rfl⟩ := Option.map_eq_some_iff.mp h
  have hpool := insertNew_samePool ⟨base, min order gpuBuddyMaxOrder, fun _ => [], 0,
    List.replicate gpuBuddyMaxRecords none⟩ base (min order gpuBuddyMaxOrder)
  have horder : (fresh base (min order gpuBuddyMaxOrder)).maxOrder = min order gpuBuddyMaxOrder :=
    hpool.order
  rw [horder]
  exact ⟨rfl, hpool.base, Nat.min_le_right _ _⟩

/-! ### Runs -/

inductive Op where
  | alloc (size : UInt64)
  | free (addr : UInt64)
  | reset
  deriving DecidableEq

def step (b : GpuBuddy) : Op → GpuBuddy
  | .alloc size => (b.gpuBuddyAlloc size).2
  | .free addr => (b.gpuBuddyFree addr).2
  | .reset => b.gpuBuddyReset

theorem steady_step (b : GpuBuddy) (op : Op) (hb : Steady b) :
    Steady (b.step op) ∧ (b.step op).baseAddr = b.baseAddr ∧
      (b.step op).maxOrder = b.maxOrder := by
  cases op with
  | alloc size =>
    have hstep := hb.allocStep size
    rw [step]
    generalize b.gpuBuddyAlloc size = r at hstep ⊢
    cases hstep with
    | refused => exact ⟨hb, rfl, rfl⟩
    | lost hsize hfit hsplit hshort hsteady hpool => exact ⟨hsteady, hpool.base, hpool.order⟩
    | served hsize hfit hnodes hsteady hbase horder => exact ⟨hsteady, hbase, horder⟩
  | free addr =>
    have hstep := hb.freeStep addr
    rw [step]
    generalize b.gpuBuddyFree addr = r at hstep ⊢
    cases hstep with
    | unknown => exact ⟨hb, rfl, rfl⟩
    | freed hfind hsteady hbase horder => exact ⟨hsteady, hbase, horder⟩
  | reset =>
    have hpool := insertNew_samePool ⟨b.baseAddr, b.maxOrder, fun _ => [], 0,
      List.replicate gpuBuddyMaxRecords none⟩ b.baseAddr b.maxOrder
    exact ⟨steady_fresh hb.fits hb.order_le, hpool.base, hpool.order⟩

/-- The live and the free blocks are disjoint and at their places in the pool, and no two free
blocks below the highest order are buddies. -/
structure BuddySound (b : GpuBuddy) : Prop where
  disjoint : b.blocks.Pairwise fun x y =>
    x.addr.toNat + x.bytes ≤ y.addr.toNat ∨ y.addr.toNat + y.bytes ≤ x.addr.toNat
  placed : ∀ x ∈ b.blocks, (∃ m, x.addr.toNat = b.baseAddr.toNat + m * x.bytes) ∧
    x.addr.toNat + x.bytes ≤ b.baseAddr.toNat + 2 ^ b.maxOrder * 4096
  coalesced : ∀ k < b.maxOrder, b.CoalescedAt k

theorem Steady.sound (hb : Steady b) : BuddySound b where
  disjoint := hb.laid.disjoint
  placed := by
    intro x hx
    obtain ⟨hstart, hstop⟩ := hb.laid.bounds hx
    refine ⟨⟨(x.toDyadic b.baseAddr).index, ?_⟩, ?_⟩
    · rw [hstart, Block.start, BuddyBlock.bytes, (hb.laid.placed x hx).order, Nat.mul_assoc]
    · rw [hstop]
      have hinside := hb.laid.inside hx
      omega
  coalesced := hb.coalesced

theorem buddy_sound {base : UInt64} {N : ℕ} (hfits : PoolFits base N) (hN : N ≤ gpuBuddyMaxOrder)
    (ops : List Op) : Always step BuddySound (fresh base N) ops :=
  (always_of_inductive (fun b op hb _ => (steady_step b op hb).1) (steady_fresh hfits hN)
    (guarded_trivial step _ ops)).mono step fun _ h => h.sound

/-! ### Pools that wrap around -/

/-- The pages of a block of order `t` in front of the one of order `k` that is cut from it, with
`used` nodes taken: it is the last one, unless the right half of the last split has no node. -/
def pagesBefore (used k t : ℕ) : ℕ :=
  if t = k ∨ used + 2 * (t - k) ≤ blockPoolSize then 2 ^ t - 2 ^ k else 2 ^ t - 2 ^ (k + 1)

theorem pagesBefore_of_room {used k t : ℕ} (h : used + 2 * (t - k) ≤ blockPoolSize) :
    pagesBefore used k t = 2 ^ t - 2 ^ k := if_pos (.inr h)

theorem half_block {k : ℕ} (h : k + 1 ≤ gpuBuddyMaxOrder) :
    blockSize (k + 1) / 2 = UInt64.ofNat (2 ^ k * 4096) := by
  have hnat := half_blockSize_toNat h (Nat.succ_pos _)
  rw [← UInt64.toNat_inj, hnat, Nat.add_sub_cancel, UInt64.toNat_ofNat', Nat.mod_eq_of_lt]
  have hpow := Nat.pow_le_pow_right Nat.two_pos (Nat.le_of_succ_le h)
  simp only [gpuBuddyMaxOrder] at hpow
  omega

theorem freeListPop_cons {k : ℕ} (hk : k ≤ b.maxOrder) {addr : UInt64} {l : List UInt64}
    (hlist : b.freeLists k = addr :: l) : b.freeListPop k = some (addr, b.setList k l) := by
  rw [freeListPop, if_neg (Nat.not_lt.mpr hk), hlist]

/-- Down to `order` with a node for every half that is looked at: the last page of the block is
reached, as a split leaves the right half at the head of the list. -/
theorem splitLoop_head (order n : ℕ) (b : GpuBuddy) (hmax : b.maxOrder ≤ gpuBuddyMaxOrder)
    (hle : order + n ≤ b.maxOrder)
    (hroom : n = 0 ∨ b.blockPoolUsed + 2 * n ≤ blockPoolSize + 1)
    {addr : UInt64} {l : List UInt64} (hlist : b.freeLists (order + n) = addr :: l) :
    (b.splitLoop order n).1 = order ∧ SamePool b (b.splitLoop order n).2 ∧
      ((b.splitLoop order n).2.freeLists order).head? =
        some (addr + UInt64.ofNat (pagesBefore b.blockPoolUsed order (order + n) * 4096)) := by
  induction n generalizing b addr l with
  | zero =>
    have hlist' : b.freeLists order = addr :: l := hlist
    refine ⟨rfl, ⟨rfl, rfl, rfl⟩, ?_⟩
    rw [splitLoop, hlist', pagesBefore, if_pos (.inl (Nat.add_zero _)), Nat.add_zero, Nat.sub_self,
      Nat.zero_mul, List.head?_cons]
    exact congrArg some (UInt64.add_zero addr).symm
  | succ n ih =>
    have htop : order + n + 1 ≤ b.maxOrder := hle
    have hused : b.blockPoolUsed + 2 * (n + 1) ≤ blockPoolSize + 1 := by omega
    rw [splitLoop, freeListPop_cons htop hlist]
    dsimp only
    have hsplit := splitStep (b.setList (order + n + 1) l) (Nat.le_of_succ_le htop) addr
    generalize (b.setList (order + n + 1) l).splitBlock addr (order + n + 1) = b₁ at hsplit ⊢
    cases hsplit with
    | both htwo =>
      have htwo' : b.blockPoolUsed + 2 ≤ blockPoolSize := htwo
      obtain ⟨horder, hpool, hhead⟩ := ih
        (((b.setList (order + n + 1) l).push (order + n) addr).push (order + n)
          (addr + blockSize (order + n + 1) / 2)) hmax (Nat.le_of_succ_le htop)
        (by change _ ∨ b.blockPoolUsed + 1 + 1 + 2 * n ≤ _; omega) (push_self _ _ _)
      refine ⟨horder, ⟨hpool.base, hpool.order, hpool.records⟩, hhead.trans (congrArg some ?_)⟩
      change addr + blockSize (order + n + 1) / 2 +
        UInt64.ofNat (pagesBefore (b.blockPoolUsed + 1 + 1) order (order + n) * 4096) = _
      rw [half_block (htop.trans hmax), UInt64.add_assoc, ← UInt64.ofNat_add, ← Nat.add_mul]
      congr 3
      -- the left half stays in front of the piece
      have hstart : 2 ^ order ≤ 2 ^ (order + n) :=
        Nat.pow_le_pow_right Nat.two_pos (Nat.le_add_right _ _)
      have hdouble : 2 ^ (order + (n + 1)) = 2 * 2 ^ (order + n) := by
        rw [← Nat.add_assoc, Nat.pow_succ, Nat.mul_comm]
      have hnext : 2 ^ (order + 1) = 2 * 2 ^ order := by
        rw [Nat.pow_succ, Nat.mul_comm]
      unfold pagesBefore
      by_cases hn : n = 0
      · subst hn
        rw [if_pos (.inl rfl), if_pos (.inr (by omega)), hdouble]
        omega
      · have hstep : 2 ^ (order + 1) ≤ 2 ^ (order + n) :=
          Nat.pow_le_pow_right Nat.two_pos (by omega)
        split_ifs with h h'
        · omega
        · exact absurd h' (by omega)
        · exact absurd h (by omega)
        · omega
    | one hone =>
      have hlast : b.blockPoolUsed + 1 = blockPoolSize := hone
      obtain rfl : n = 0 := by omega
      have hshort : ¬(order + (0 + 1) = order ∨
          b.blockPoolUsed + 2 * (order + (0 + 1) - order) ≤ blockPoolSize) := by omega
      refine ⟨rfl, ⟨rfl, rfl, rfl⟩, ?_⟩
      rw [splitLoop, pagesBefore, if_neg hshort, Nat.zero_add, Nat.sub_self, Nat.zero_mul]
      change (((b.setList (order + 0 + 1) l).push order addr).freeLists order).head? = _
      rw [push_self, List.head?_cons]
      exact congrArg some (UInt64.add_zero addr).symm
    | none hnone =>
      have hfull : blockPoolSize ≤ b.blockPoolUsed := hnone
      exact absurd hused (by omega)

theorem fresh_lists (base : UInt64) (N : ℕ) :
    (fresh base N).freeLists = Function.update (fun _ => []) N [base] := by
  rw [fresh_eq]
  rfl

theorem firstFit_fresh (base : UInt64) (N : ℕ) : (fresh base N).firstFit 0 = some N := by
  rw [firstFit, fresh_maxOrder, fresh_lists, List.find?_range'_eq_some]
  refine ⟨by simp, List.mem_range'_1.mpr ⟨Nat.zero_le N, by omega⟩, fun j _ hj => ?_⟩
  rw [Function.update_of_ne hj.ne]
  rfl

/-- A request is cut from the first block that is large enough, when there are nodes for the halves
on the way and an unused record. -/
theorem alloc_cut {size : UInt64} {t : ℕ} {addr : UInt64} {l : List UInt64}
    (hmax : b.maxOrder ≤ gpuBuddyMaxOrder) (hnone : none ∈ b.records) (hsize : size ≠ 0)
    (hfit : b.firstFit (orderForSize (alignedSize size)) = some t)
    (hlist : b.freeLists t = addr :: l)
    (hroom : t = orderForSize (alignedSize size) ∨
      b.blockPoolUsed + 2 * (t - orderForSize (alignedSize size)) ≤ blockPoolSize + 1) :
    ∃ b', b.gpuBuddyAlloc size = (some (addr + UInt64.ofNat
        (pagesBefore b.blockPoolUsed (orderForSize (alignedSize size)) t * 4096)), b') ∧
      b'.baseAddr = b.baseAddr ∧
      b'.liveBlocks.Perm (⟨orderForSize (alignedSize size), addr + UInt64.ofNat
        (pagesBefore b.blockPoolUsed (orderForSize (alignedSize size)) t * 4096)⟩ ::
          b.liveBlocks) := by
  obtain ⟨hle, htop, -, -⟩ := firstFit_some hfit
  rw [gpuBuddyAlloc, if_neg hsize]
  simp only [if_neg (Nat.not_lt.mpr (orderForSize_le (alignedSize size))), hfit]
  generalize orderForSize (alignedSize size) = k at hle hroom ⊢
  have hsum : k + (t - k) = t := Nat.add_sub_of_le hle
  obtain ⟨hreached, hpool, hhead⟩ := splitLoop_head k (t - k) b hmax (by rwa [hsum]) (by omega)
    (by rwa [hsum])
  rw [hsum] at hhead
  generalize splitLoop k (t - k) b = r at hreached hpool hhead ⊢
  obtain ⟨t', b₁⟩ := r
  subst hreached
  obtain ⟨rest, hcons⟩ := List.head?_eq_some_iff.mp hhead
  generalize addr + UInt64.ofNat (pagesBefore b.blockPoolUsed t' t * 4096) = a at hcons ⊢
  have hpop : b₁.freeListPop t' = some (a, b₁.setList t' rest) :=
    freeListPop_cons (hpool.order ▸ hle.trans htop) hcons
  have hnone' : none ∈ (b₁.setList t' rest).records := by
    change none ∈ b₁.records
    rwa [hpool.records]
  obtain ⟨b₂, hadd, hbase, -, -, -, -, hlive⟩ := addRecord_spec (b := b₁.setList t' rest)
    (r := ⟨a, alignedSize size, t'⟩) hnone'
  have hsame : (b₁.setList t' rest).liveBlocks = b.liveBlocks := by
    rw [liveBlocks, liveBlocks, ← hpool.records]
    rfl
  rw [hsame] at hlive
  simp only [hpop, hadd]
  exact ⟨b₂, rfl, hbase.trans hpool.base, hlive⟩

/-- With a node for every half it is the end of that block. -/
theorem alloc_eq {size : UInt64} {t : ℕ} {addr : UInt64} {l : List UInt64}
    (hmax : b.maxOrder ≤ gpuBuddyMaxOrder) (hnone : none ∈ b.records) (hsize : size ≠ 0)
    (hfit : b.firstFit (orderForSize (alignedSize size)) = some t)
    (hlist : b.freeLists t = addr :: l)
    (hroom : b.blockPoolUsed + 2 * (t - orderForSize (alignedSize size)) ≤ blockPoolSize) :
    ∃ b', b.gpuBuddyAlloc size = (some (addr + UInt64.ofNat
        ((2 ^ t - 2 ^ orderForSize (alignedSize size)) * 4096)), b') ∧
      b'.baseAddr = b.baseAddr ∧ (⟨orderForSize (alignedSize size), addr + UInt64.ofNat
        ((2 ^ t - 2 ^ orderForSize (alignedSize size)) * 4096)⟩ : BuddyBlock) ∈ b'.liveBlocks := by
  obtain ⟨b', halloc, hbase, hlive⟩ := alloc_cut hmax hnone hsize hfit hlist
    (.inr (Nat.le_succ_of_le hroom))
  rw [pagesBefore_of_room hroom] at halloc hlive
  exact ⟨b', halloc, hbase, hlive.mem_iff.mpr List.mem_cons_self⟩

theorem Steady.served_toNat (hb : b.Steady) {t k : ℕ} (ht : t ≤ b.maxOrder) {addr : UInt64}
    (hmem : addr ∈ b.freeLists t) :
    (addr + UInt64.ofNat ((2 ^ t - 2 ^ k) * 4096)).toNat = addr.toNat + (2 ^ t - 2 ^ k) * 4096 := by
  have hblock := mem_blocks_of_free (ht.trans hb.order_le) hmem
  obtain ⟨-, hstop⟩ := hb.laid.bounds hblock
  have hinside := hb.laid.inside hblock
  have hfits := hb.fits
  have hpos := Nat.two_pow_pos k
  have hone := Nat.two_pow_pos t
  simp only [PoolFits, BuddyBlock.bytes] at hfits hstop
  have hlt : addr.toNat + (2 ^ t - 2 ^ k) * 4096 < 2 ^ 64 := by omega
  rw [UInt64.toNat_add, UInt64.toNat_ofNat', Nat.mod_eq_of_lt (Nat.lt_of_le_of_lt
    (Nat.le_add_left _ _) hlt), Nat.mod_eq_of_lt hlt]

/-- The first page that a new pool serves is its last. -/
theorem alloc_fresh (base : UInt64) {N : ℕ} (hN : N ≤ gpuBuddyMaxOrder) :
    (⟨0, base + UInt64.ofNat ((2 ^ N - 1) * 4096)⟩ : BuddyBlock) ∈
        ((fresh base N).step (.alloc gpuBuddyMinBlockSize)).liveBlocks ∧
      ((fresh base N).step (.alloc gpuBuddyMinBlockSize)).baseAddr = base := by
  have hroom : ∀ N ≤ gpuBuddyMaxOrder, 1 + 2 * N ≤ blockPoolSize := by decide
  have horder : orderForSize (alignedSize gpuBuddyMinBlockSize) = 0 := by decide
  have hlist : (fresh base N).freeLists N = [base] := by
    rw [fresh_lists, Function.update_self]
  have hnone : none ∈ (fresh base N).records := by
    rw [fresh_eq]
    exact List.mem_replicate.mpr ⟨by decide, rfl⟩
  obtain ⟨b', halloc, hbase, hlive⟩ := alloc_eq (b := fresh base N) (t := N)
    (by rwa [fresh_maxOrder]) hnone (by decide : gpuBuddyMinBlockSize ≠ 0)
    (by rw [horder]; exact firstFit_fresh base N) hlist
    (by rw [horder, fresh_used]; exact hroom N hN)
  rw [step, halloc]
  rw [horder, Nat.pow_zero] at hlive
  exact ⟨hlive, hbase.trans (fresh_baseAddr base N)⟩

/-- In a pool that wraps around, that page lies below the base. -/
theorem not_sound_of_wraps {base : UInt64} {N : ℕ} (hN : N ≤ gpuBuddyMaxOrder)
    (hwraps : ¬PoolFits base N) :
    ¬Always step BuddySound (fresh base N) [.alloc gpuBuddyMinBlockSize] := by
  intro hsound
  unfold PoolFits at hwraps
  obtain ⟨hmem, hbase⟩ := alloc_fresh base hN
  obtain ⟨⟨m, hplace⟩, -⟩ := hsound.last.placed _ (List.mem_append_left _ hmem)
  have hsmall : ∀ N ≤ gpuBuddyMaxOrder, (2 ^ N - 1) * 4096 < 2 ^ 64 := by decide
  have hlt := hsmall N hN
  have hbound := base.toNat_lt
  rw [run_cons, run_nil, hbase] at hplace
  simp only [UInt64.toNat_add, UInt64.toNat_ofNat', Nat.mod_eq_of_lt hlt] at hplace
  omega

/-- **Structure.**  Along every run of a pool the blocks are disjoint, at their places and
coalesced, if the last page of the pool starts below `2 ^ 64`, and only then. -/
theorem buddy_sound_iff {base size : UInt64} {b : GpuBuddy}
    (hinit : gpuBuddyInit base size = some b) :
    (∀ ops, Always step BuddySound b ops) ↔ PoolFits base b.maxOrder := by
  obtain ⟨hfresh, -, hle⟩ := gpuBuddyInit_eq hinit
  generalize b.maxOrder = N at hfresh hle ⊢
  subst hfresh
  refine ⟨fun hsound => ?_, fun hfits ops => buddy_sound hfits hle ops⟩
  by_contra hwraps
  exact not_sound_of_wraps hle hwraps (hsound _)

/-- A heap of 256 MiB at 4 GiB. -/
theorem buddy_sound_heap : PoolFits 0x100000000 16 ∧
    Always step BuddySound (fresh 0x100000000 16)
      [.alloc 4096, .alloc 8192, .free 0x10FFFF000, .reset] := by
  have hinit : gpuBuddyInit 0x100000000 0x10000000 = some (fresh 0x100000000 16) := rfl
  have hfits : PoolFits 0x100000000 16 := by decide
  refine ⟨hfits, (buddy_sound_iff hinit).mpr ?_ _⟩
  rwa [fresh_maxOrder]

/-- Two pages below the end of the address space. -/
theorem buddy_sound_fails :
    gpuBuddyInit 0xFFFFFFFFFFFFF000 8192 = some (fresh 0xFFFFFFFFFFFFF000 1) ∧
      ¬Always step BuddySound (fresh 0xFFFFFFFFFFFFF000 1) [.alloc 4096] := by
  have hwraps : ¬PoolFits 0xFFFFFFFFFFFFF000 1 := by decide
  exact ⟨rfl, not_sound_of_wraps (by decide) hwraps⟩

end GpuBuddy

end UsrLinuxEmu.GpuCore
