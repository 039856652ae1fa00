import Mathlib.Data.Nat.Bitwise
import Mathlib.Data.List.Pairwise
import Mathlib.Data.List.Perm.Lattice
import UsrLinuxEmu.Dyadic.Block
import UsrLinuxEmu.GpuCore.Buddy

/-!
# The blocks of a buddy allocator

An address of the pool and an order stand for a dyadic block of pages.  As long as no page of the
pool starts above `2 ^ 64`, the address arithmetic of the allocator is that of dyadic blocks.

* `BuddyBlock.At` — the dyadic block that an address stands for;
* `at_buddyAddr`, `at_left`, `at_right`, `at_parent` — buddies, halves and merged blocks;
* `Laid` — the blocks of a list lie in the pool, each at its place, and are disjoint;
* `GpuBuddy.blocks` — the live and the free blocks, and what list operations do to them.
-/

namespace UsrLinuxEmu.GpuCore

open UsrLinuxEmu.Dyadic

/-! ### Addresses -/

structure BuddyBlock where
  order : ℕ
  addr : UInt64
  deriving DecidableEq

namespace BuddyBlock

def bytes (x : BuddyBlock) : ℕ := 2 ^ x.order * 4096

/-- The block that starts so many bytes above the base. -/
def toDyadic (base : UInt64) (x : BuddyBlock) : Block :=
  ⟨x.order, (x.addr.toNat - base.toNat) / x.bytes⟩

/-- The address of the dyadic block `d`. -/
structure At (base : UInt64) (x : BuddyBlock) (d : Block) : Prop where
  order : x.order = d.order
  addr : x.addr.toNat = base.toNat + d.start * 4096

theorem At.toDyadic {base : UInt64} {x : BuddyBlock} {d : Block} (h : At base x d) :
    x.toDyadic base = d := by
  have hbytes : x.bytes = 2 ^ d.order * 4096 := by rw [bytes, h.order]
  have hoffset : x.addr.toNat - base.toNat = d.index * (2 ^ d.order * 4096) := by
    rw [h.addr, Nat.add_sub_cancel_left, Block.start, Nat.mul_assoc]
  have hpos : 0 < 2 ^ d.order * 4096 := Nat.mul_pos (Nat.two_pow_pos _) (by decide)
  rw [BuddyBlock.toDyadic, hbytes, hoffset, Nat.mul_div_cancel _ hpos, h.order]

end BuddyBlock

/-- No page of the pool starts above `2 ^ 64`. -/
def PoolFits (base : UInt64) (maxOrder : ℕ) : Prop :=
  base.toNat + (2 ^ maxOrder - 1) * 4096 < 2 ^ 64

instance decidablePoolFits (base : UInt64) (maxOrder : ℕ) : Decidable (PoolFits base maxOrder) :=
  inferInstanceAs (Decidable (_ < _))

section Addresses

open BuddyBlock

variable {base addr : UInt64} {N k : ℕ} {d : Block}

theorem blockSize_toNat (h : k ≤ gpuBuddyMaxOrder) : (blockSize k).toNat = 2 ^ k * 4096 := by
  have hall : ∀ k ≤ gpuBuddyMaxOrder, (blockSize k).toNat = 2 ^ k * 4096 := by decide
  exact hall k h

theorem half_blockSize_toNat (h : k ≤ gpuBuddyMaxOrder) (hpos : 0 < k) :
    (blockSize k / 2).toNat = 2 ^ (k - 1) * 4096 := by
  have hall : ∀ k ≤ gpuBuddyMaxOrder, 0 < k →
      (blockSize k / 2).toNat = 2 ^ (k - 1) * 4096 := by decide
  exact hall k h hpos

/-- The start of a block inside the pool is an address. -/
theorem start_lt (hfits : PoolFits base N) (hinside : d.stop ≤ 2 ^ N) :
    base.toNat + d.start * 4096 < 2 ^ 64 := by
  have hstop := d.stop_eq
  have hpos := d.size_pos
  have hstart : d.start ≤ 2 ^ N - 1 := by omega
  exact Nat.lt_of_le_of_lt (Nat.add_le_add_left (Nat.mul_le_mul_right _ hstart) _) hfits

theorem at_left (h : At base ⟨k, addr⟩ d) (hpos : 0 < k) : At base ⟨k - 1, addr⟩ d.left where
  order := congrArg (· - 1) h.order
  addr := by
    have horder : k = d.order := h.order
    rw [Block.left_start (horder ▸ hpos)]
    exact h.addr

theorem at_right (hfits : PoolFits base N) (h : At base ⟨k, addr⟩ d) (hinside : d.stop ≤ 2 ^ N)
    (hk : k ≤ gpuBuddyMaxOrder) (hpos : 0 < k) :
    At base ⟨k - 1, addr + blockSize k / 2⟩ d.right where
  order := congrArg (· - 1) h.order
  addr := by
    have horder : k = d.order := h.order
    have hpos' : 0 < d.order := horder ▸ hpos
    have haddr : addr.toNat = base.toNat + d.start * 4096 := h.addr
    have hlt := start_lt hfits (d := d.right) (by rwa [Block.right_stop hpos'])
    rw [Block.right_start hpos', ← horder] at hlt ⊢
    rw [UInt64.toNat_add, half_blockSize_toNat hk hpos, haddr, Nat.mod_eq_of_lt (by omega)]
    ring

theorem xor_two_pow (i m : ℕ) : (i * 2 ^ m) ^^^ 2 ^ m = (i ^^^ 1) * 2 ^ m := by
  have hone : 2 ^ m = 1 <<< m := by rw [Nat.shiftLeft_eq, Nat.one_mul]
  rw [← Nat.shiftLeft_eq, hone, ← Nat.shiftLeft_xor_distrib, Nat.shiftLeft_eq, Nat.shiftLeft_eq,
    Nat.one_mul]

theorem xor_one (i : ℕ) : i ^^^ 1 = if i % 2 = 0 then i + 1 else i - 1 := by
  by_cases h : i % 2 = 0
  · rw [if_pos h, Nat.xor_one_of_even (Nat.even_iff.mpr h)]
  · rw [if_neg h, Nat.xor_one_of_odd (Nat.odd_iff.mpr (by omega))]

/-- Flipping the bit of the block size leads to the buddy. -/
theorem at_buddyAddr (hfits : PoolFits base N) (h : At base ⟨k, addr⟩ d)
    (hinside : d.stop ≤ 2 ^ N) (hk : k ≤ gpuBuddyMaxOrder) (hlt : k < N) :
    At base ⟨k, buddyAddr base addr (blockSize k)⟩ d.buddy where
  order := h.order
  addr := by
    have horder : k = d.order := h.order
    have haddr : addr.toNat = base.toNat + d.start * 4096 := h.addr
    have hbuddy := start_lt hfits (Block.buddy_stop_le hinside (horder ▸ hlt))
    have hoffset : (addr - base).toNat = d.index * 2 ^ (k + 12) := by
      rw [UInt64.toNat_sub_of_le _ _ (UInt64.le_iff_toNat_le.mpr (by omega)), haddr,
        Nat.add_sub_cancel_left, Block.start, ← horder, Nat.pow_add]
      ring
    have hsize : (blockSize k).toNat = 2 ^ (k + 12) := by
      rw [blockSize_toNat hk, Nat.pow_add]
    have hxor : ((addr - base) ^^^ blockSize k).toNat = d.buddy.start * 4096 := by
      rw [UInt64.toNat_xor, hoffset, hsize, xor_two_pow, xor_one]
      simp only [Block.buddy, Block.start, ← horder, Nat.pow_add]
      ring
    rw [buddyAddr, UInt64.toNat_add, hxor, Nat.mod_eq_of_lt hbuddy]

theorem at_parent {buddy : UInt64} (h : At base ⟨k, addr⟩ d) (hb : At base ⟨k, buddy⟩ d.buddy) :
    At base ⟨k + 1, if addr < buddy then addr else buddy⟩ d.parent where
  order := congrArg (· + 1) h.order
  addr := by
    have haddr : addr.toNat = base.toNat + d.start * 4096 := h.addr
    have hbuddy : buddy.toNat = base.toNat + d.buddy.start * 4096 := hb.addr
    rw [Block.parent_start]
    by_cases hlt : addr < buddy
    · have hnat := UInt64.lt_iff_toNat_lt.mp hlt
      rw [if_pos hlt, haddr, Nat.min_eq_left (by omega)]
    · have hnat := UInt64.le_iff_toNat_le.mp (UInt64.not_lt.mp hlt)
      rw [if_neg hlt, hbuddy, Nat.min_eq_right (by omega)]

theorem areAdjacent_buddy {buddy : UInt64} (h : At base ⟨k, addr⟩ d)
    (hb : At base ⟨k, buddy⟩ d.buddy) (hk : k ≤ gpuBuddyMaxOrder) :
    areAdjacent addr buddy (blockSize k) = true := by
  have horder : k = d.order := h.order
  have haddr : addr.toNat = base.toNat + d.start * 4096 := h.addr
  have hbuddy : buddy.toNat = base.toNat + d.buddy.start * 4096 := hb.addr
  have hlt := addr.toNat_lt
  have hlt' := buddy.toNat_lt
  rw [areAdjacent, Bool.or_eq_true, beq_iff_eq, beq_iff_eq, ← UInt64.toNat_inj,
    ← UInt64.toNat_inj, UInt64.toNat_add, UInt64.toNat_add, blockSize_toNat hk]
  by_cases heven : d.index % 2 = 0
  · refine .inl ?_
    have hstart : d.buddy.start = d.start + 2 ^ k := by
      rw [Block.buddy_index_even heven, horder]
      simp only [Block.start]
      ring
    rw [hstart] at hbuddy
    rw [Nat.mod_eq_of_lt (by omega)]
    omega
  · refine .inr ?_
    have hstart : d.start = d.buddy.start + 2 ^ k := by
      have hindex : d.index - 1 + 1 = d.index := by omega
      rw [Block.buddy_index_odd heven, horder]
      simp only [Block.start]
      rw [← Nat.succ_mul, Nat.succ_eq_add_one, hindex]
    rw [hstart] at haddr
    rw [Nat.mod_eq_of_lt (by omega)]
    omega

end Addresses

/-! ### Blocks laid out in the pool -/

/-- Every block is at its place in the pool, and no two overlap. -/
structure Laid (base : UInt64) (N : ℕ) (L : List BuddyBlock) : Prop where
  placed : ∀ x ∈ L, x.At base (x.toDyadic base)
  packed : Packed N (L.map (BuddyBlock.toDyadic base))

namespace Laid

open BuddyBlock

variable {base : UInt64} {N : ℕ} {L L' : List BuddyBlock} {x : BuddyBlock}

theorem perm (h : Laid base N L) (hperm : L.Perm L') : Laid base N L' where
  placed := fun x hx => h.placed x (hperm.mem_iff.mpr hx)
  packed := h.packed.perm (hperm.map _)

theorem tail (h : Laid base N (x :: L)) : Laid base N L where
  placed := fun y hy => h.placed y (List.mem_cons_of_mem x hy)
  packed := h.packed.tail

theorem inside (h : Laid base N L) (hx : x ∈ L) : (x.toDyadic base).stop ≤ 2 ^ N :=
  h.packed.inside _ (List.mem_map_of_mem hx)

theorem order_le (h : Laid base N L) (hx : x ∈ L) : x.order ≤ N := by
  rw [(h.placed x hx).order]
  exact Block.order_le_of_stop_le (h.inside hx)

theorem nodup (h : Laid base N L) : L.Nodup := h.packed.nodup.of_map _

/-- The bytes of a block. -/
theorem bounds (h : Laid base N L) (hx : x ∈ L) :
    x.addr.toNat = base.toNat + (x.toDyadic base).start * 4096 ∧
      x.addr.toNat + x.bytes = base.toNat + (x.toDyadic base).stop * 4096 := by
  have hplace := h.placed x hx
  refine ⟨hplace.addr, ?_⟩
  rw [hplace.addr, Block.stop_eq, BuddyBlock.bytes, hplace.order]
  simp only [Block.size]
  ring

theorem disjoint (h : Laid base N L) :
    L.Pairwise fun x y =>
      x.addr.toNat + x.bytes ≤ y.addr.toNat ∨ y.addr.toNat + y.bytes ≤ x.addr.toNat := by
  refine (List.pairwise_map.mp h.packed.apart).imp_of_mem fun {x y} hx hy hapart => ?_
  obtain ⟨hx₁, hx₂⟩ := h.bounds hx
  obtain ⟨hy₁, hy₂⟩ := h.bounds hy
  unfold Block.Apart at hapart
  omega

theorem disjoint_of_ne (h : Laid base N L) {y : BuddyBlock} (hx : x ∈ L) (hy : y ∈ L)
    (hne : x ≠ y) : x.addr.toNat + x.bytes ≤ y.addr.toNat ∨ y.addr.toNat + y.bytes ≤ x.addr.toNat :=
  have : Std.Symm fun x y : BuddyBlock =>
      x.addr.toNat + x.bytes ≤ y.addr.toNat ∨ y.addr.toNat + y.bytes ≤ x.addr.toNat :=
    ⟨fun _ _ h => h.symm⟩
  h.disjoint.forall hx hy hne

theorem order_eq_of_addr_eq (h : Laid base N L) {k k' : ℕ} {addr : UInt64} (hx : ⟨k, addr⟩ ∈ L)
    (hy : ⟨k', addr⟩ ∈ L) : k = k' := by
  by_contra hne
  have hapart := h.disjoint_of_ne hx hy fun heq => hne (congrArg BuddyBlock.order heq)
  have hpos := Nat.two_pow_pos k
  have hpos' := Nat.two_pow_pos k'
  simp only [BuddyBlock.bytes] at hapart
  omega

/-- A block of the highest order is the only one. -/
theorem eq_singleton (h : Laid base N L) (hx : x ∈ L) (horder : N ≤ x.order) : L = [x] := by
  have hroot : x.toDyadic base = Block.root N := by
    refine Block.eq_root_of_order (h.inside hx) ?_
    rw [← (h.placed x hx).order]
    exact Nat.le_antisymm (h.order_le hx) horder
  have hmem : Block.root N ∈ L.map (BuddyBlock.toDyadic base) := hroot ▸ List.mem_map_of_mem hx
  obtain ⟨y, rfl, -⟩ := List.map_eq_singleton_iff.mp (h.packed.eq_singleton_of_root_mem hmem)
  rw [List.mem_singleton.mp hx]

variable {k : ℕ} {addr : UInt64}

theorem split (h : Laid base N (⟨k, addr⟩ :: L)) (hfits : PoolFits base N)
    (hN : N ≤ gpuBuddyMaxOrder) (hpos : 0 < k) :
    Laid base N (⟨k - 1, addr⟩ :: ⟨k - 1, addr + blockSize k / 2⟩ :: L) := by
  have hplace := h.placed _ List.mem_cons_self
  have hk : k ≤ gpuBuddyMaxOrder := (h.order_le List.mem_cons_self).trans hN
  have hleft := at_left hplace hpos
  have hright := at_right hfits hplace (h.inside List.mem_cons_self) hk hpos
  refine ⟨fun x hx => ?_, ?_⟩
  · rcases List.mem_cons.mp hx with rfl | hx
    · rwa [hleft.toDyadic]
    · rcases List.mem_cons.mp hx with rfl | hx
      · rwa [hright.toDyadic]
      · exact h.placed x (List.mem_cons_of_mem _ hx)
  · rw [List.map_cons, List.map_cons, hleft.toDyadic, hright.toDyadic]
    refine Packed.split h.packed ?_
    rwa [← hplace.order]

/-- A block and its buddy are merged. -/
theorem merge (h : Laid base N (⟨k, addr⟩ :: ⟨k, buddyAddr base addr (blockSize k)⟩ :: L))
    (hfits : PoolFits base N) (hN : N ≤ gpuBuddyMaxOrder) (hlt : k < N) :
    Laid base N (⟨k + 1, if addr < buddyAddr base addr (blockSize k) then addr
      else buddyAddr base addr (blockSize k)⟩ :: L) := by
  have hplace := h.placed _ List.mem_cons_self
  have hbuddy := at_buddyAddr hfits hplace (h.inside List.mem_cons_self) (hlt.le.trans hN) hlt
  have hparent := at_parent hplace hbuddy
  refine ⟨fun x hx => ?_, ?_⟩
  · rcases List.mem_cons.mp hx with rfl | hx
    · rwa [hparent.toDyadic]
    · exact h.placed x (List.mem_cons_of_mem _ (List.mem_cons_of_mem _ hx))
  · rw [List.map_cons, hparent.toDyadic]
    refine Packed.merge ?_
    have hpacked := h.packed
    rwa [List.map_cons, List.map_cons, hbuddy.toDyadic] at hpacked

end Laid

/-! ### The blocks of the allocator -/

namespace GpuBuddy

def liveBlocks (b : GpuBuddy) : List BuddyBlock :=
  b.records.filterMap fun r => r.map fun r => ⟨r.order, r.addr⟩

def listBlocks (b : GpuBuddy) (k : ℕ) : List BuddyBlock := (b.freeLists k).map (⟨k, ·⟩)

def freeBlocks (b : GpuBuddy) : List BuddyBlock :=
  (List.range (gpuBuddyMaxOrder + 1)).flatMap b.listBlocks

def blocks (b : GpuBuddy) : List BuddyBlock := b.liveBlocks ++ b.freeBlocks

/-- The blocks that are not in the free list of order `k`. -/
def otherBlocks (b : GpuBuddy) (k : ℕ) : List BuddyBlock :=
  b.liveBlocks ++ ((List.range (gpuBuddyMaxOrder + 1)).erase k).flatMap b.listBlocks

variable {b : GpuBuddy} {k : ℕ}

@[simp] theorem setList_self (b : GpuBuddy) (k : ℕ) (l : List UInt64) :
    (b.setList k l).freeLists k = l := by simp [setList]

theorem setList_of_ne (b : GpuBuddy) {j : ℕ} (h : j ≠ k) (l : List UInt64) :
    (b.setList k l).freeLists j = b.freeLists j := by simp [setList, h]

theorem blocks_perm (b : GpuBuddy) (hk : k ≤ gpuBuddyMaxOrder) :
    b.blocks.Perm (b.listBlocks k ++ b.otherBlocks k) := by
  have hmem : k ∈ List.range (gpuBuddyMaxOrder + 1) := List.mem_range.mpr (Nat.lt_succ_of_le hk)
  have hfree : b.freeBlocks.Perm (b.listBlocks k ++
      ((List.range (gpuBuddyMaxOrder + 1)).erase k).flatMap b.listBlocks) :=
    (List.perm_cons_erase hmem).flatMap_right _
  refine (hfree.append_left b.liveBlocks).trans ?_
  rw [← List.append_assoc, otherBlocks, ← List.append_assoc]
  exact List.perm_append_comm.append_right _

theorem otherBlocks_setList (b : GpuBuddy) (k : ℕ) (l : List UInt64) :
    (b.setList k l).otherBlocks k = b.otherBlocks k := by
  have hother : ∀ j ∈ (List.range (gpuBuddyMaxOrder + 1)).erase k,
      (b.setList k l).listBlocks j = b.listBlocks j := by
    intro j hj
    have hne : j ≠ k := by
      rintro rfl
      exact (List.nodup_range.not_mem_erase) hj
    rw [listBlocks, setList_of_ne b hne]
    rfl
  unfold otherBlocks
  rw [List.flatMap_congr hother]
  rfl

theorem blocks_setList (b : GpuBuddy) (hk : k ≤ gpuBuddyMaxOrder) (l : List UInt64) :
    (b.setList k l).blocks.Perm (l.map (⟨k, ·⟩) ++ b.otherBlocks k) := by
  have hperm := (b.setList k l).blocks_perm hk
  rwa [otherBlocks_setList, listBlocks, setList_self] at hperm

/-- A free list gets one block more. -/
theorem blocks_push (b : GpuBuddy) (hk : k ≤ gpuBuddyMaxOrder) (addr : UInt64) :
    (b.setList k (addr :: b.freeLists k)).blocks.Perm (⟨k, addr⟩ :: b.blocks) :=
  (b.blocks_setList hk _).trans ((b.blocks_perm hk).symm.cons _)

/-- A block is taken out of its free list. -/
theorem blocks_take (hk : k ≤ gpuBuddyMaxOrder) {addr : UInt64} {l : List UInt64}
    (hl : (b.freeLists k).Perm (addr :: l)) :
    b.blocks.Perm (⟨k, addr⟩ :: (b.setList k l).blocks) := by
  have hlist : (b.listBlocks k).Perm (⟨k, addr⟩ :: l.map (⟨k, ·⟩)) := hl.map _
  refine (b.blocks_perm hk).trans ((hlist.append_right _).trans ?_)
  exact ((b.blocks_setList hk l).symm.cons _)

theorem mem_blocks_of_free (hk : k ≤ gpuBuddyMaxOrder) {addr : UInt64}
    (h : addr ∈ b.freeLists k) : ⟨k, addr⟩ ∈ b.blocks :=
  (b.blocks_perm hk).mem_iff.mpr (List.mem_append_left _ (List.mem_map_of_mem h))

end GpuBuddy

end UsrLinuxEmu.GpuCore
