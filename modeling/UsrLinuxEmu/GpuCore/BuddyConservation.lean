import Mathlib.Algebra.BigOperators.Ring.List
import UsrLinuxEmu.GpuCore.BuddySoundness

/-!
# Conservation of the buddy allocator's pool

The node of a block that is split, merged or handed out is not used again, so that a pool that
serves requests for long enough runs out of nodes and then loses blocks.

* `Conserved` — the blocks make up the pool, and an unused pool serves a request for all of it;
* `EnoughNodes` — the call finds the nodes that it takes;
* `Whole.serves` — a coalesced pool without live blocks is one block;
* `buddy_conserved_iff` — a run conserves the pool exactly when every call finds its nodes.
-/

namespace UsrLinuxEmu.GpuCore

open UsrLinuxEmu.Dyadic UsrLinuxEmu.Transition

namespace GpuBuddy

variable {b : GpuBuddy}

/-! ### Conserved pools -/

structure Conserved (b : GpuBuddy) : Prop where
  total : (b.freeBlocks.map BuddyBlock.bytes).sum + (b.liveBlocks.map BuddyBlock.bytes).sum =
    2 ^ b.maxOrder * 4096
  whole : b.liveBlocks = [] → (b.gpuBuddyAlloc (blockSize b.maxOrder)).1.isSome

theorem bytes_eq_volume (b : GpuBuddy) :
    (b.freeBlocks.map BuddyBlock.bytes).sum + (b.liveBlocks.map BuddyBlock.bytes).sum =
      b.volume * 4096 := by
  have hbytes : (b.blocks.map BuddyBlock.bytes).sum = b.volume * 4096 :=
    List.sum_map_mul_right b.blocks (fun x => 2 ^ x.order) 4096
  rw [← hbytes, blocks, List.map_append, List.sum_append, Nat.add_comm]

theorem Conserved.volume (h : Conserved b) : b.volume = 2 ^ b.maxOrder := by
  have htotal := h.total
  rw [bytes_eq_volume] at htotal
  omega

/-- A steady pool that has lost no block. -/
structure Whole (b : GpuBuddy) : Prop extends Steady b where
  volume : b.volume = 2 ^ b.maxOrder

theorem mem_freeBlocks {x : BuddyBlock} (h : x ∈ b.freeBlocks) : x.addr ∈ b.freeLists x.order := by
  obtain ⟨k, -, hx⟩ := List.mem_flatMap.mp h
  obtain ⟨a, ha, rfl⟩ := List.mem_map.mp hx
  exact ha

/-- No two free blocks are buddies as dyadic blocks either. -/
theorem Steady.not_buddy (hb : Steady b) {x y : BuddyBlock} (hx : x ∈ b.freeBlocks)
    (hy : y ∈ b.freeBlocks) (hlt : x.order < b.maxOrder) :
    y.toDyadic b.baseAddr ≠ (x.toDyadic b.baseAddr).buddy := by
  intro heq
  have hx' := List.mem_append_right b.liveBlocks hx
  have hplace := hb.laid.placed x hx'
  have hplace' := hb.laid.placed y (List.mem_append_right _ hy)
  rw [heq] at hplace'
  have hbuddy := at_buddyAddr hb.fits hplace (hb.laid.inside hx') (hlt.le.trans hb.order_le) hlt
  have horder : y.order = x.order := hplace'.order
  have haddr : y.addr = buddyAddr b.baseAddr x.addr (blockSize x.order) :=
    UInt64.toNat_inj.mp (hplace'.addr.trans hbuddy.addr.symm)
  have hmem := mem_freeBlocks hy
  rw [horder, haddr] at hmem
  exact hb.coalesced x.order hlt x.addr (mem_freeBlocks hx) hmem

theorem Whole.freeLists_ne_nil (hb : Whole b) (hlive : b.liveBlocks = []) :
    b.freeLists b.maxOrder ≠ [] := by
  have hblocks : b.blocks = b.freeBlocks := by rw [blocks, hlive, List.nil_append]
  have hpacked := hb.laid.packed
  have hvolume : Dyadic.volume (b.blocks.map (BuddyBlock.toDyadic b.baseAddr)) = 2 ^ b.maxOrder := by
    rw [Dyadic.volume, List.map_map, ← hb.volume]
    rfl
  have hroot := hpacked.eq_root hvolume fun d hd hlt hmem => by
    obtain ⟨x, hx, rfl⟩ := List.mem_map.mp hd
    obtain ⟨y, hy, heq⟩ := List.mem_map.mp hmem
    rw [hblocks] at hx hy
    exact hb.not_buddy hx hy hlt heq
  obtain ⟨x, hx, -⟩ := List.map_eq_singleton_iff.mp hroot
  rw [hx, List.map_singleton, List.singleton_inj] at hroot
  have hmem : x ∈ b.freeBlocks := by
    rw [← hblocks, hx]
    exact List.mem_singleton_self x
  have horder : x.order = b.maxOrder := congrArg Block.order hroot
  exact List.ne_nil_of_mem (horder ▸ mem_freeBlocks hmem)

theorem orderForSize_blockSize {k : ℕ} (h : k ≤ gpuBuddyMaxOrder) :
    orderForSize (alignedSize (blockSize k)) = k ∧ blockSize k ≠ 0 := by
  have hall : ∀ k ≤ gpuBuddyMaxOrder,
      orderForSize (alignedSize (blockSize k)) = k ∧ blockSize k ≠ 0 := by decide
  exact hall k h

/-- A pool without live blocks serves a request for all of it. -/
theorem Whole.serves (hb : Whole b) (hlive : b.liveBlocks = []) :
    (b.gpuBuddyAlloc (blockSize b.maxOrder)).1.isSome := by
  obtain ⟨horder, hsize⟩ := orderForSize_blockSize hb.order_le
  have hne := hb.freeLists_ne_nil hlive
  have hstep := hb.allocStep (blockSize b.maxOrder)
  generalize b.gpuBuddyAlloc (blockSize b.maxOrder) = r at hstep ⊢
  cases hstep with
  | refused h =>
    rcases h with h | h
    · exact absurd h hsize
    · rw [horder] at h
      exact absurd (firstFit_none h (Nat.le_refl _) (Nat.le_refl _)) hne
  | lost _ hfit hsplit =>
    obtain ⟨-, hmax, -⟩ := firstFit_some hfit
    rw [horder] at hsplit
    exact absurd hmax (Nat.not_le.mpr hsplit)
  | served => rfl

theorem Whole.conserved (hb : Whole b) : Conserved b where
  total := by rw [bytes_eq_volume, hb.volume]
  whole := hb.serves

/-! ### The nodes that a call takes -/

/-- Two nodes for every split of the request, and one for a freed block and each of its merges. -/
def EnoughNodes (b : GpuBuddy) : Op → Prop
  | .alloc size => size ≠ 0 → ∀ t ∈ b.firstFit (orderForSize (alignedSize size)),
      b.blockPoolUsed + 2 * (t - orderForSize (alignedSize size)) ≤ blockPoolSize
  | .free addr => ∀ r ∈ b.findRecord addr,
      b.blockPoolUsed + 1 + b.mergeCount (b.maxOrder - r.order) r.order addr ≤ blockPoolSize
  | .reset => True

instance decidableEnoughNodes (b : GpuBuddy) : ∀ op, Decidable (EnoughNodes b op)
  | .alloc size => inferInstanceAs (Decidable (size ≠ 0 → ∀ t ∈ b.firstFit _, _))
  | .free addr => inferInstanceAs (Decidable (∀ r ∈ b.findRecord addr, _))
  | .reset => inferInstanceAs (Decidable True)

theorem fresh_volume (base : UInt64) {N : ℕ} (hN : N ≤ gpuBuddyMaxOrder) :
    (fresh base N).volume = 2 ^ N := by
  rw [volume, fresh_blocks base hN, List.map_singleton, List.sum_singleton]

theorem whole_fresh {base : UInt64} {N : ℕ} (hfits : PoolFits base N) (hN : N ≤ gpuBuddyMaxOrder) :
    Whole (fresh base N) :=
  ⟨steady_fresh hfits hN, by rw [fresh_volume base hN, fresh_maxOrder]⟩

/-- What a call does to the volume. -/
theorem step_volume (hb : Steady b) (op : Op) (hop : op ≠ .reset) :
    (EnoughNodes b op → (b.step op).volume = b.volume) ∧
      (¬EnoughNodes b op → (b.step op).volume < b.volume) := by
  cases op with
  | alloc size =>
    have hstep := hb.allocStep size
    rw [step]
    generalize b.gpuBuddyAlloc size = r at hstep ⊢
    cases hstep with
    | refused h =>
      refine ⟨fun _ => rfl, fun hshort => absurd (fun hsize t ht => ?_) hshort⟩
      rw [h.resolve_left hsize] at ht
      cases ht
    | lost hsize hfit hsplit hshort hsteady hpool hvolume =>
      refine ⟨fun henough => ?_, fun _ => hvolume⟩
      have hnodes := henough hsize _ hfit
      omega
    | served hsize hfit hnodes hsteady hbase horder hlive henough hshort =>
      refine ⟨fun h => (henough (h hsize _ hfit)).1, fun h => hshort (Nat.not_le.mp fun hle => ?_)⟩
      refine h fun _ t ht => ?_
      rw [hfit, Option.mem_some_iff] at ht
      rwa [← ht]
  | free addr =>
    have hstep := hb.freeStep addr
    rw [step]
    generalize b.gpuBuddyFree addr = r at hstep ⊢
    cases hstep with
    | unknown hfind =>
      refine ⟨fun _ => rfl, fun hshort => absurd (fun r hr => ?_) hshort⟩
      rw [hfind] at hr
      cases hr
    | freed hfind hsteady hbase horder hlive henough hshort =>
      refine ⟨fun h => (henough (h _ hfind)).1, fun h => hshort (Nat.not_le.mp fun hle => ?_)⟩
      refine h fun r hr => ?_
      rw [hfind, Option.mem_some_iff] at hr
      rwa [← hr]
  | reset => exact absurd rfl hop

theorem whole_step (op : Op) (hb : Whole b) (henough : EnoughNodes b op) : Whole (b.step op) := by
  obtain ⟨hsteady, -, horder⟩ := steady_step b op hb.toSteady
  by_cases hop : op = .reset
  · subst hop
    exact whole_fresh hb.fits hb.order_le
  · refine ⟨hsteady, ?_⟩
    rw [(step_volume hb.toSteady op hop).1 henough, horder, hb.volume]

theorem enoughNodes_of_conserved (op : Op) (hb : Whole b) (h : Conserved (b.step op)) :
    EnoughNodes b op := by
  by_cases hop : op = .reset
  · subst hop
    trivial
  · by_contra hshort
    have hlt := (step_volume hb.toSteady op hop).2 hshort
    rw [h.volume, (steady_step b op hb.toSteady).2.2, hb.volume] at hlt
    exact absurd hlt (Nat.lt_irrefl _)

theorem Whole.conserved_iff (hb : Whole b) (ops : List Op) :
    Always step Conserved b ops ↔ Guarded step EnoughNodes b ops :=
  always_iff_guarded (fun _ op h => whole_step op h) (fun _ h => h.conserved)
    (fun _ op h => enoughNodes_of_conserved op h) ops hb

/-- **Conservation.**  A run of a pool whose last page starts below `2 ^ 64` conserves the pool
exactly when every call finds the nodes that it takes. -/
theorem buddy_conserved_iff {base size : UInt64} {b : GpuBuddy}
    (hinit : gpuBuddyInit base size = some b) (hfits : PoolFits base b.maxOrder) (ops : List Op) :
    Always step Conserved b ops ↔ Guarded step EnoughNodes b ops := by
  obtain ⟨hfresh, -, hle⟩ := gpuBuddyInit_eq hinit
  have hb : Whole b := by
    rw [hfresh]
    exact whole_fresh hfits hle
  exact hb.conserved_iff ops

/-- A pool of four pages, split for two requests and merged again. -/
theorem buddy_conserved_fourPages :
    let ops : List Op := [.alloc 4096, .alloc 8192, .free 0x100003000, .free 0x100000000]
    Always step Conserved (fresh 0x100000000 2) ops ∧
      (run step (fresh 0x100000000 2) ops).freeLists 2 = [0x100000000] :=
  have hinit : gpuBuddyInit 0x100000000 16384 = some (fresh 0x100000000 2) := rfl
  ⟨(buddy_conserved_iff hinit (by decide) _).mpr (by decide +kernel), by decide +kernel⟩

/-! ### A pool that runs out of nodes -/

/-- An unused pool of one page with `u` nodes used. -/
def onePage (u : ℕ) : GpuBuddy :=
  ⟨0x100000000, 0, Function.update (fun _ => []) 0 [0x100000000], u,
    List.replicate gpuBuddyMaxRecords none⟩

/-- The same pool while its page is live. -/
def onePageLive (u : ℕ) : GpuBuddy :=
  ⟨0x100000000, 0, fun _ => [], u,
    (List.replicate gpuBuddyMaxRecords none).set 0 (some ⟨0x100000000, 4096, 0⟩)⟩

theorem onePage_alloc (u : ℕ) : (onePage u).step (.alloc 4096) = onePageLive u := by
  have hlist : Function.update (Function.update (fun _ => []) 0 [0x100000000]) 0 [] =
      (fun _ => [] : ℕ → List UInt64) := by
    rw [Function.update_idem]
    exact Function.update_eq_self 0 _
  have horder : orderForSize (alignedSize 4096) = 0 := by decide
  have hfit : (onePage u).firstFit 0 = some 0 := rfl
  have hsize : (4096 : UInt64) ≠ 0 := by decide
  have hpop : (onePage u).freeListPop 0 = some (0x100000000,
      ⟨0x100000000, 0, fun _ => [], u, List.replicate gpuBuddyMaxRecords none⟩) := by
    rw [freeListPop, if_neg (Nat.not_lt_zero _)]
    simp only [onePage, Function.update_self, setList, hlist]
  rw [step, gpuBuddyAlloc, if_neg hsize]
  simp only [horder, if_neg (Nat.not_lt_zero _), hfit, Nat.sub_self, splitLoop, hpop]
  rfl

theorem onePage_free {u : ℕ} (h : u < blockPoolSize) :
    (onePageLive u).step (.free 0x100000000) = onePage (u + 1) := by
  have hfind : (onePageLive u).findRecord 0x100000000 = some ⟨0x100000000, 4096, 0⟩ := rfl
  have hremove : (onePageLive u).removeRecord 0x100000000 =
      ⟨0x100000000, 0, fun _ => [], u, List.replicate gpuBuddyMaxRecords none⟩ := rfl
  rw [step, gpuBuddyFree, hfind]
  dsimp only
  rw [hremove, insertNew_of_room h _ (Nat.le_refl 0)]
  rfl

theorem onePage_run (n u : ℕ) (h : u + n ≤ blockPoolSize) :
    run step (onePage u) (List.replicate n [Op.alloc 4096, Op.free 0x100000000]).flatten =
      onePage (u + n) := by
  induction n generalizing u with
  | zero => rfl
  | succ n ih =>
    rw [List.replicate_succ, List.flatten_cons, run_append, run_cons, run_cons, run_nil,
      onePage_alloc, onePage_free (by omega), ih (u + 1) (by omega)]
    congr 1
    omega

/-- The free after which the page is lost. -/
theorem onePage_lost : ¬EnoughNodes (onePageLive blockPoolSize) (.free 0x100000000) := by
  intro henough
  have hfind : (onePageLive blockPoolSize).findRecord 0x100000000 =
      some ⟨0x100000000, 4096, 0⟩ := rfl
  have hnodes := henough _ hfind
  have hused : (onePageLive blockPoolSize).blockPoolUsed = blockPoolSize := rfl
  omega

theorem onePage_whole : Whole (onePage 1) := by
  have hfits : PoolFits 0x100000000 0 := by decide
  exact whole_fresh hfits (Nat.zero_le _)

/-- A pool of one page, which is allocated and freed over and over. -/
theorem buddy_conserved_fails :
    gpuBuddyInit 0x100000000 4096 = some (onePage 1) ∧
      ¬Always step Conserved (onePage 1)
        (List.replicate blockPoolSize [Op.alloc 4096, Op.free 0x100000000]).flatten := by
  refine ⟨rfl, fun hconserved => ?_⟩
  have hguarded := (onePage_whole.conserved_iff _).mp hconserved
  have hrun : run step (onePage 1)
      ((List.replicate 4117 [Op.alloc 4096, Op.free 0x100000000]).flatten ++ [.alloc 4096]) =
        onePageLive blockPoolSize := by
    rw [run_append, onePage_run 4117 1 (by decide), run_cons, run_nil, onePage_alloc]
    rfl
  have hlast := (guarded_iff_split step EnoughNodes (onePage 1) _).mp hguarded
    ((List.replicate 4117 [Op.alloc 4096, Op.free 0x100000000]).flatten ++ [.alloc 4096])
    (.free 0x100000000) [] (by
      rw [show blockPoolSize = 4117 + 1 from rfl, List.replicate_add, List.flatten_append,
        List.append_assoc]
      rfl)
  rw [hrun] at hlast
  exact onePage_lost hlast

end GpuBuddy

end UsrLinuxEmu.GpuCore
