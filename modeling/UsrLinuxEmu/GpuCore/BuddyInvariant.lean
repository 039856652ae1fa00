import UsrLinuxEmu.GpuCore.BuddyBlocks

/-!
# The structure of the buddy allocator's pool

Every call keeps the blocks disjoint and at their places, and the free blocks coalesced, whether or
not it runs out of list nodes in the middle of its work.

* `Layout` — the blocks are laid out in the pool, and there are at most half as many as nodes used;
* `Steady` — besides, no two free blocks are buddies;
* `splitLoop_spec` / `release_spec` — what splitting down to an order and freeing a block do;
* `Steady.allocStep` / `Steady.freeStep` — what an allocation and a free can do.
-/

namespace UsrLinuxEmu.GpuCore

open UsrLinuxEmu.Dyadic

/-! ### Records -/

theorem findIdx?_of_find? {α : Type*} {p : α → Bool} {l : List α} {x : α}
    (h : l.find? p = some x) :
    ∃ l₁ l₂, l = l₁ ++ x :: l₂ ∧ l.findIdx? p = some l₁.length := by
  induction l with
  | nil => cases h
  | cons y l ih =>
    by_cases hy : p y = true
    · rw [List.find?_cons_of_pos hy, Option.some.injEq] at h
      subst h
      exact ⟨[], l, rfl, by simp [List.findIdx?_cons, hy]⟩
    · rw [List.find?_cons_of_neg hy] at h
      obtain ⟨l₁, l₂, rfl, hidx⟩ := ih h
      exact ⟨y :: l₁, l₂, rfl, by simp [List.findIdx?_cons, hy, hidx]⟩

namespace GpuBuddy

variable {b : GpuBuddy}

/-- The slots of the record table as blocks. -/
def tableBlocks (records : List (Option GpuBuddyRecord)) : List BuddyBlock :=
  records.filterMap fun r => r.map fun r => ⟨r.order, r.addr⟩

theorem tableBlocks_fill (l₁ l₂ : List (Option GpuBuddyRecord)) (r : GpuBuddyRecord) :
    (tableBlocks (l₁ ++ some r :: l₂)).Perm
      (⟨r.order, r.addr⟩ :: tableBlocks (l₁ ++ none :: l₂)) := by
  simp only [tableBlocks, List.filterMap_append, List.filterMap_cons, Option.map_some,
    Option.map_none]
  exact List.perm_middle

theorem blocks_of_live {b b' : GpuBuddy} {x : BuddyBlock} (hfree : b'.freeLists = b.freeLists)
    (hlive : b'.liveBlocks.Perm (x :: b.liveBlocks)) : b'.blocks.Perm (x :: b.blocks) := by
  have hlist : b'.listBlocks = b.listBlocks := by
    funext k
    rw [listBlocks, listBlocks, hfree]
  rw [blocks, freeBlocks, hlist]
  exact hlive.append_right _

theorem addRecord_spec {r : GpuBuddyRecord} (hfree : none ∈ b.records) :
    ∃ b', b.addRecord r = some b' ∧ b'.baseAddr = b.baseAddr ∧ b'.maxOrder = b.maxOrder ∧
      b'.freeLists = b.freeLists ∧ b'.blockPoolUsed = b.blockPoolUsed ∧
      b'.records.length = b.records.length ∧
      b'.liveBlocks.Perm (⟨r.order, r.addr⟩ :: b.liveBlocks) := by
  have hsome : (b.records.find? Option.isNone).isSome = true :=
    List.find?_isSome.mpr ⟨none, hfree, rfl⟩
  obtain ⟨x, hx⟩ := Option.isSome_iff_exists.mp hsome
  have hnone : x = none := Option.isNone_iff_eq_none.mp (List.find?_some hx)
  obtain ⟨l₁, l₂, hl, hidx⟩ := findIdx?_of_find? hx
  subst hnone
  refine ⟨{ b with records := b.records.set l₁.length (some r) }, by rw [addRecord, hidx], rfl,
    rfl, rfl, rfl, by simp, ?_⟩
  have hset : b.records.set l₁.length (some r) = l₁ ++ some r :: l₂ := by
    rw [hl]
    simp
  change (tableBlocks (b.records.set l₁.length (some r))).Perm (_ :: tableBlocks b.records)
  rw [hset, hl]
  exact tableBlocks_fill l₁ l₂ r

theorem removeRecord_spec {addr : UInt64} {r : GpuBuddyRecord} (h : b.findRecord addr = some r) :
    r.addr = addr ∧ (b.removeRecord addr).baseAddr = b.baseAddr ∧
      (b.removeRecord addr).maxOrder = b.maxOrder ∧
      (b.removeRecord addr).freeLists = b.freeLists ∧
      (b.removeRecord addr).blockPoolUsed = b.blockPoolUsed ∧
      (b.removeRecord addr).records.length = b.records.length ∧
      b.liveBlocks.Perm (⟨r.order, addr⟩ :: (b.removeRecord addr).liveBlocks) := by
  have hfind : b.records.find? (fun r => r.any fun r => r.addr == addr) = some (some r) :=
    Option.join_eq_some_iff.mp h
  have haddr : r.addr = addr := by simpa using List.find?_some hfind
  obtain ⟨l₁, l₂, hl, hidx⟩ := findIdx?_of_find? hfind
  have hset : b.records.set l₁.length none = l₁ ++ none :: l₂ := by
    rw [hl]
    simp
  rw [removeRecord, hidx]
  refine ⟨haddr, rfl, rfl, rfl, rfl, by simp, ?_⟩
  change (tableBlocks b.records).Perm (_ :: tableBlocks (b.records.set l₁.length none))
  rw [hset, hl, ← haddr]
  exact tableBlocks_fill l₁ l₂ r

/-- A live block has a record. -/
theorem findRecord_of_live {x : BuddyBlock} (h : x ∈ b.liveBlocks) :
    ∃ r, b.findRecord x.addr = some r := by
  obtain ⟨slot, hslot, hr⟩ := List.mem_filterMap.mp h
  obtain ⟨r, rfl, rfl⟩ := Option.map_eq_some_iff.mp hr
  have hsome : (b.records.find? fun s => s.any fun s => s.addr == r.addr).isSome = true :=
    List.find?_isSome.mpr ⟨some r, hslot, by simp⟩
  obtain ⟨s, hs⟩ := Option.isSome_iff_exists.mp hsome
  cases s with
  | none => exact absurd (List.find?_some hs) (by simp)
  | some s => exact ⟨s, Option.join_eq_some_iff.mpr hs⟩

/-! ### List nodes -/

/-- A node has been taken for a block that is now in the list of order `k`. -/
def push (b : GpuBuddy) (k : ℕ) (addr : UInt64) : GpuBuddy :=
  { b.setList k (addr :: b.freeLists k) with blockPoolUsed := b.blockPoolUsed + 1 }

theorem insertNew_of_full (h : blockPoolSize ≤ b.blockPoolUsed) (addr : UInt64) (k : ℕ) :
    b.insertNew addr k = b := by
  simp only [insertNew, poolAlloc, if_pos h]

theorem insertNew_of_room (h : b.blockPoolUsed < blockPoolSize) (addr : UInt64) {k : ℕ}
    (hk : k ≤ b.maxOrder) : b.insertNew addr k = b.push k addr := by
  simp only [insertNew, poolAlloc, if_neg (Nat.not_le.mpr h), freeListInsert,
    if_neg (Nat.not_lt.mpr hk)]
  rfl

theorem blocks_push' (b : GpuBuddy) {k : ℕ} (hk : k ≤ gpuBuddyMaxOrder) (addr : UInt64) :
    (b.push k addr).blocks.Perm (⟨k, addr⟩ :: b.blocks) := b.blocks_push hk addr

/-! ### The invariant -/

/-- No block of the free list has its buddy there. -/
def CoalescedAt (b : GpuBuddy) (k : ℕ) : Prop :=
  ∀ a ∈ b.freeLists k, buddyAddr b.baseAddr a (blockSize k) ∉ b.freeLists k

structure Layout (b : GpuBuddy) : Prop where
  order_le : b.maxOrder ≤ gpuBuddyMaxOrder
  fits : PoolFits b.baseAddr b.maxOrder
  laid : Laid b.baseAddr b.maxOrder b.blocks
  nodes : 2 * b.blocks.length ≤ b.blockPoolUsed + 1
  used_le : b.blockPoolUsed ≤ blockPoolSize
  table : b.records.length = gpuBuddyMaxRecords

structure Steady (b : GpuBuddy) : Prop extends Layout b where
  coalesced : ∀ k < b.maxOrder, b.CoalescedAt k

/-- Two live blocks are the same or disjoint. -/
theorem Layout.live_disjoint (hb : Layout b) {x y : BuddyBlock} (hx : x ∈ b.liveBlocks)
    (hy : y ∈ b.liveBlocks) (hne : x ≠ y) :
    x.addr.toNat + x.bytes ≤ y.addr.toNat ∨ y.addr.toNat + y.bytes ≤ x.addr.toNat :=
  hb.laid.disjoint_of_ne (List.mem_append_left _ hx) (List.mem_append_left _ hy) hne

theorem Layout.live_order_eq (hb : Layout b) {k k' : ℕ} {addr : UInt64}
    (h : ⟨k, addr⟩ ∈ b.liveBlocks) (h' : ⟨k', addr⟩ ∈ b.liveBlocks) : k = k' :=
  hb.laid.order_eq_of_addr_eq (List.mem_append_left _ h) (List.mem_append_left _ h')

/-- A block that has just been handed out is new. -/
theorem Layout.addr_ne {b b' : GpuBuddy} {k : ℕ} {addr : UInt64} (hb : Layout b')
    (hlive : b'.liveBlocks.Perm (⟨k, addr⟩ :: b.liveBlocks)) {x : BuddyBlock}
    (hx : x ∈ b.liveBlocks) : x.addr ≠ addr := by
  obtain ⟨j, a⟩ := x
  rintro rfl
  have hnodup := hb.laid.nodup.sublist (List.sublist_append_left _ _)
  rw [hlive.nodup_iff, List.nodup_cons] at hnodup
  have hk := hb.live_order_eq (hlive.mem_iff.mpr (List.mem_cons_of_mem _ hx))
    (hlive.mem_iff.mpr List.mem_cons_self)
  rw [hk] at hx
  exact hnodup.1 hx

def volume (b : GpuBuddy) : ℕ := (b.blocks.map fun x => 2 ^ x.order).sum

theorem volume_of_perm {b b' : GpuBuddy} {x : BuddyBlock} (h : b'.blocks.Perm (x :: b.blocks)) :
    b'.volume = 2 ^ x.order + b.volume := by
  rw [volume, (h.map _).sum_eq, List.map_cons, List.sum_cons, volume]

namespace Layout

variable {k : ℕ} {addr : UInt64}

theorem push (h : Layout b) (hlaid : Laid b.baseAddr b.maxOrder (⟨k, addr⟩ :: b.blocks))
    (hroom : 2 * b.blocks.length ≤ b.blockPoolUsed) (hused : b.blockPoolUsed < blockPoolSize) :
    Layout (b.push k addr) where
  order_le := h.order_le
  fits := h.fits
  laid := hlaid.perm
    (b.blocks_push' ((hlaid.order_le List.mem_cons_self).trans h.order_le) addr).symm
  nodes := by
    have hlen := (b.blocks_push' ((hlaid.order_le List.mem_cons_self).trans h.order_le)
      addr).length_eq
    rw [hlen, List.length_cons]
    change 2 * (b.blocks.length + 1) ≤ b.blockPoolUsed + 1 + 1
    omega
  used_le := hused
  table := h.table

/-- The list loses a block. -/
theorem take (h : Layout b) {l : List UInt64} (hk : k ≤ b.maxOrder)
    (hl : (b.freeLists k).Perm (addr :: l)) :
    Layout (b.setList k l) ∧ 2 * (b.setList k l).blocks.length + 2 ≤ b.blockPoolUsed + 1 ∧
      Laid b.baseAddr b.maxOrder (⟨k, addr⟩ :: (b.setList k l).blocks) := by
  have hperm := blocks_take (hk.trans h.order_le) hl
  have hlaid := h.laid.perm hperm
  have hlen := hperm.length_eq
  have hnodes := h.nodes
  rw [hlen, List.length_cons] at hnodes
  refine ⟨⟨h.order_le, h.fits, hlaid.tail, ?_, h.used_le, h.table⟩, by omega, hlaid⟩
  change 2 * (b.setList k l).blocks.length ≤ b.blockPoolUsed + 1
  omega

end Layout

/-! ### Splitting -/

/-- What the loops leave as it is. -/
structure SamePool (b b' : GpuBuddy) : Prop where
  base : b'.baseAddr = b.baseAddr
  order : b'.maxOrder = b.maxOrder
  records : b'.records = b.records

theorem SamePool.trans {b b' b'' : GpuBuddy} (h : SamePool b b') (h' : SamePool b' b'') :
    SamePool b b'' :=
  ⟨h'.base.trans h.base, h'.order.trans h.order, h'.records.trans h.records⟩

/-- The halves of a block that is in no list any more, as far as there are nodes for them. -/
inductive SplitStep (b : GpuBuddy) (t : ℕ) (addr : UInt64) : GpuBuddy → Prop
  | both (h : b.blockPoolUsed + 2 ≤ blockPoolSize) :
      SplitStep b t addr ((b.push t addr).push t (addr + blockSize (t + 1) / 2))
  | one (h : b.blockPoolUsed + 1 = blockPoolSize) : SplitStep b t addr (b.push t addr)
  | none (h : blockPoolSize ≤ b.blockPoolUsed) : SplitStep b t addr b

theorem splitStep (b : GpuBuddy) {t : ℕ} (ht : t ≤ b.maxOrder) (addr : UInt64) :
    SplitStep b t addr (b.splitBlock addr (t + 1)) := by
  rw [splitBlock, Nat.add_sub_cancel]
  by_cases hfull : blockPoolSize ≤ b.blockPoolUsed
  · rw [insertNew_of_full hfull, insertNew_of_full hfull]
    exact .none hfull
  · rw [insertNew_of_room (Nat.not_le.mp hfull) addr ht]
    by_cases hone : blockPoolSize ≤ b.blockPoolUsed + 1
    · rw [insertNew_of_full (b := b.push t addr) hone]
      exact .one (by omega)
    · rw [insertNew_of_room (b := b.push t addr) (Nat.not_le.mp hone) _ ht]
      exact .both (by omega)

section Split

variable {t : ℕ} {addr : UInt64} {b' : GpuBuddy}

theorem SplitStep.samePool (h : SplitStep b t addr b') : SamePool b b' := by
  cases h <;> exact ⟨rfl, rfl, rfl⟩

theorem SplitStep.list_of_ne (h : SplitStep b t addr b') {j : ℕ} (hj : j ≠ t) :
    b'.freeLists j = b.freeLists j := by
  cases h with
  | both h =>
    refine ((b.push t addr).setList_of_ne hj _).trans ?_
    exact b.setList_of_ne hj _
  | one h => exact b.setList_of_ne hj _
  | none h => rfl

theorem SplitStep.layout (h : SplitStep b t addr b') (hb : Layout b)
    (hlaid : Laid b.baseAddr b.maxOrder (⟨t + 1, addr⟩ :: b.blocks))
    (hroom : 2 * b.blocks.length + 2 ≤ b.blockPoolUsed + 1) : Layout b' := by
  have hhalves := hlaid.split hb.fits hb.order_le (Nat.succ_pos t)
  rw [Nat.add_sub_cancel] at hhalves
  have hle : t ≤ gpuBuddyMaxOrder := (hhalves.order_le List.mem_cons_self).trans hb.order_le
  have hleft : Laid b.baseAddr b.maxOrder (⟨t, addr⟩ :: b.blocks) :=
    (hhalves.perm (.swap _ _ _)).tail
  have hperm := b.blocks_push' hle addr
  cases h with
  | both h =>
    have hpushed := hb.push hleft (by omega) (by omega)
    refine hpushed.push (hhalves.perm ((List.Perm.swap _ _ _).trans (hperm.symm.cons _))) ?_ ?_
    · have hlen := hperm.length_eq
      rw [List.length_cons] at hlen
      change 2 * (b.push t addr).blocks.length ≤ b.blockPoolUsed + 1
      omega
    · change b.blockPoolUsed + 1 < blockPoolSize
      omega
  | one h => exact hb.push hleft (by omega) (by omega)
  | none h => exact hb

theorem SplitStep.volume (h : SplitStep b t addr b') (hle : t ≤ gpuBuddyMaxOrder) :
    (b.blockPoolUsed + 2 ≤ blockPoolSize → b'.volume = b.volume + 2 ^ (t + 1) ∧
        b'.blockPoolUsed = b.blockPoolUsed + 2) ∧
      (blockPoolSize < b.blockPoolUsed + 2 → b'.volume < b.volume + 2 ^ (t + 1) ∧
        blockPoolSize ≤ b'.blockPoolUsed) := by
  have hpow := Nat.two_pow_pos t
  have hsucc := Nat.pow_succ 2 t
  have hleft := volume_of_perm (b.blocks_push' hle addr)
  cases h with
  | both h =>
    have hright := volume_of_perm
      ((b.push t addr).blocks_push' hle (addr + blockSize (t + 1) / 2))
    refine ⟨fun _ => ⟨?_, rfl⟩, fun hlt => by omega⟩
    rw [hright, hleft]
    simp only
    omega
  | one h =>
    refine ⟨fun hle => by omega, fun _ => ⟨?_, h.ge⟩⟩
    rw [hleft]
    simp only
    omega
  | none h => exact ⟨fun hle => by omega, fun _ => ⟨by omega, h⟩⟩

theorem buddyAddr_ne {base a : UInt64} {k : ℕ} (hk : k ≤ gpuBuddyMaxOrder) :
    buddyAddr base a (blockSize k) ≠ a := by
  intro heq
  have hzero : blockSize k = 0 := by
    have hxor : (a - base) ^^^ blockSize k = a - base := by
      have hsub := congrArg (· - base) heq
      simpa only [buddyAddr, UInt64.add_comm base, UInt64.add_sub_cancel] using hsub
    have hcancel := congrArg ((a - base) ^^^ ·) hxor
    simpa [← UInt64.xor_assoc] using hcancel
  have hsize := blockSize_toNat hk
  rw [hzero] at hsize
  have hpow := Nat.two_pow_pos k
  simp at hsize

theorem buddyAddr_buddyAddr (base a block : UInt64) :
    buddyAddr base (buddyAddr base a block) block = a := by
  have hback : base + ((a - base) ^^^ block) - base = (a - base) ^^^ block := by
    rw [UInt64.add_comm base, UInt64.add_sub_cancel]
  rw [buddyAddr, buddyAddr, hback, UInt64.xor_assoc, UInt64.xor_self, UInt64.xor_zero,
    UInt64.add_comm, UInt64.sub_add_cancel]

/-- The list of order `t` without its head. -/
def dropHead (b : GpuBuddy) (t : ℕ) : GpuBuddy := b.setList t (b.freeLists t).tail

/-- After a split the list has the new left half below its head, or nothing. -/
theorem SplitStep.coalesced (h : SplitStep b t addr b') (hempty : b.freeLists t = [])
    (hle : t ≤ gpuBuddyMaxOrder) (hco : ∀ k < b.maxOrder, b.CoalescedAt k) :
    ∀ k < b.maxOrder, (b'.dropHead t).CoalescedAt k := by
  intro k hk
  by_cases hkt : k = t
  · subst hkt
    have htail : (b'.freeLists k).tail = [] ∨ (b'.freeLists k).tail = [addr] := by
      cases h with
      | both h => simp [push, hempty]
      | one h => simp [push, hempty]
      | none h => simp [hempty]
    unfold CoalescedAt dropHead
    rw [setList_self]
    rcases htail with htail | htail
    · rw [htail]
      exact nofun
    · rw [htail]
      intro a ha hmem
      rw [List.mem_singleton] at ha hmem
      rw [ha] at hmem
      exact buddyAddr_ne hle hmem
  · unfold CoalescedAt dropHead
    rw [setList_of_ne _ hkt, h.list_of_ne hkt]
    have hbase : (b'.setList t (b'.freeLists t).tail).baseAddr = b.baseAddr := h.samePool.base
    rw [hbase]
    exact hco k hk

theorem SplitStep.list_ne_nil (h : SplitStep b t addr b') :
    (b'.freeLists t ≠ [] ∧ b.blockPoolUsed < blockPoolSize) ∨
      (b' = b ∧ blockPoolSize ≤ b.blockPoolUsed) := by
  cases h with
  | both h => exact .inl ⟨by simp [push], by omega⟩
  | one h => exact .inl ⟨by simp [push], by omega⟩
  | none h => exact .inr ⟨rfl, h⟩

/-- What splitting down from `order + n` to `order` does.  It gets there as long as there is a node
for the left half of the last split, and loses nothing as long as there is one for every half. -/
structure SplitDown (order n : ℕ) (b : GpuBuddy) (t : ℕ) (b' : GpuBuddy) : Prop where
  pool : SamePool b b'
  layout : Layout b'
  le : t ≤ order + n
  coalesced : ∀ k < b.maxOrder, (b'.dropHead t).CoalescedAt k
  reached : (n = 0 ∨ b.blockPoolUsed + 2 * n ≤ blockPoolSize + 1) →
    t = order ∧ b'.freeLists t ≠ []
  stuck : n ≠ 0 → blockPoolSize + 1 < b.blockPoolUsed + 2 * n → b'.freeLists t = []
  enough : b.blockPoolUsed + 2 * n ≤ blockPoolSize →
    b'.volume = b.volume ∧ b'.blockPoolUsed = b.blockPoolUsed + 2 * n
  short : blockPoolSize < b.blockPoolUsed + 2 * n → b'.volume < b.volume

theorem SplitDown.volume_le {order n : ℕ} (h : SplitDown order n b t b') :
    b'.volume ≤ b.volume := by
  rcases Nat.lt_or_ge blockPoolSize (b.blockPoolUsed + 2 * n) with hlt | hge
  · exact (h.short hlt).le
  · exact (h.enough hge).1.le

theorem splitLoop_of_empty {order n : ℕ} (h : b.freeLists (order + n) = []) :
    b.splitLoop order n = (order + n, b) := by
  cases n with
  | zero => rfl
  | succ n =>
    have hpop : b.freeListPop (order + n + 1) = none := by
      rw [freeListPop, show b.freeLists (order + n + 1) = [] from h]
      exact ite_self _
    rw [splitLoop, hpop]
    rfl

theorem splitLoop_spec (order : ℕ) (n : ℕ) (b : GpuBuddy) (hb : Layout b)
    (hle : order + n ≤ b.maxOrder) (hne : b.freeLists (order + n) ≠ [])
    (hempty : ∀ j, order ≤ j → j < order + n → b.freeLists j = [])
    (hco : ∀ k < b.maxOrder, (b.dropHead (order + n)).CoalescedAt k) :
    SplitDown order n b (b.splitLoop order n).1 (b.splitLoop order n).2 := by
  have hused := hb.used_le
  induction n generalizing b with
  | zero =>
    exact ⟨⟨rfl, rfl, rfl⟩, hb, Nat.le_refl _, hco, fun _ => ⟨rfl, hne⟩, fun h => absurd rfl h,
      fun _ => ⟨rfl, rfl⟩, fun h => absurd h (Nat.not_lt.mpr hused)⟩
  | succ n ih =>
    obtain ⟨addr, rest, hcons⟩ := List.exists_cons_of_ne_nil hne
    have hlist : b.freeLists (order + n + 1) = addr :: rest := hcons
    have hperm : (b.freeLists (order + n + 1)).Perm (addr :: rest) := .of_eq hlist
    have htop : order + n + 1 ≤ b.maxOrder := hle
    have hpop : b.freeListPop (order + n + 1) = some (addr, b.setList (order + n + 1) rest) := by
      rw [freeListPop, if_neg (Nat.not_lt.mpr htop), hlist]
    have hloop : b.splitLoop order (n + 1) =
        splitLoop order n ((b.setList (order + n + 1) rest).splitBlock addr (order + n + 1)) := by
      rw [splitLoop, hpop]
    rw [hloop]
    obtain ⟨hb₁, hroom, hlaid⟩ := hb.take htop hperm
    have hvolume := volume_of_perm (blocks_take (htop.trans hb.order_le) hperm)
    have hco₁ : ∀ k < b.maxOrder, (b.setList (order + n + 1) rest).CoalescedAt k := by
      have hdrop : b.dropHead (order + (n + 1)) = b.setList (order + n + 1) rest := by
        rw [dropHead, hcons]
        rfl
      rw [← hdrop]
      exact hco
    have hempty₁ : ∀ j, order ≤ j → j < order + n + 1 →
        (b.setList (order + n + 1) rest).freeLists j = [] := by
      intro j hj hlt
      rw [setList_of_ne b hlt.ne]
      exact hempty j hj hlt
    have hn : order + n ≤ gpuBuddyMaxOrder := (Nat.le_of_succ_le htop).trans hb.order_le
    -- one split, and the loop from there on
    have hstep := (b.setList (order + n + 1) rest).splitStep (Nat.le_of_succ_le htop) addr
    generalize (b.setList (order + n + 1) rest).splitBlock addr (order + n + 1) = b₂ at hstep ⊢
    have hpool : SamePool b b₂ := ⟨hstep.samePool.base, hstep.samePool.order, hstep.samePool.records⟩
    have hb₂ := hstep.layout hb₁ hlaid hroom
    have hvol₂ := hstep.volume hn
    have hco₂ := hstep.coalesced (hempty₁ _ (Nat.le_add_right _ _) (Nat.lt_succ_self _)) hn hco₁
    rw [show (b.setList (order + n + 1) rest).blockPoolUsed = b.blockPoolUsed from rfl] at hvol₂
    simp only at hvolume
    rcases hstep.list_ne_nil with ⟨hne₂, hroom₂⟩ | ⟨rfl, hfull⟩
    · have hroom' : b.blockPoolUsed < blockPoolSize := hroom₂
      have hdown := ih b₂ hb₂ (hpool.order ▸ Nat.le_of_succ_le htop) hne₂
        (fun j hj hlt => (hstep.list_of_ne hlt.ne).trans (hempty₁ j hj (Nat.lt_succ_of_lt hlt)))
        (hpool.order ▸ hco₂) hb₂.used_le
      have hused₂ := hb₂.used_le
      have hle₂ := hdown.volume_le
      refine ⟨hpool.trans hdown.pool, hdown.layout, hdown.le.trans (Nat.le_succ _), ?_, ?_, ?_, ?_,
        ?_⟩
      · rw [← hpool.order]
        exact hdown.coalesced
      · intro henough
        refine hdown.reached ?_
        rcases Nat.lt_or_ge blockPoolSize (b.blockPoolUsed + 2) with hlt | hge
        · exact .inl (by omega)
        · have hused' := (hvol₂.1 hge).2
          exact .inr (by omega)
      · intro _ hstuck
        rcases Nat.lt_or_ge blockPoolSize (b.blockPoolUsed + 2) with hlt | hge
        · have hused' := (hvol₂.2 hlt).2
          exact hdown.stuck (by omega) (by omega)
        · have hused' := (hvol₂.1 hge).2
          exact hdown.stuck (by omega) (by omega)
      · intro henough
        obtain ⟨hvol, hused'⟩ := hvol₂.1 (by omega)
        obtain ⟨hvol', hused''⟩ := hdown.enough (by omega)
        exact ⟨by omega, by omega⟩
      · intro hshort
        rcases Nat.lt_or_ge blockPoolSize (b.blockPoolUsed + 2) with hlt | hge
        · have hvol := (hvol₂.2 hlt).1
          omega
        · obtain ⟨hvol, hused'⟩ := hvol₂.1 hge
          have hvol' := hdown.short (by omega)
          omega
    · have hnil := hempty₁ (order + n) (Nat.le_add_right _ _) (Nat.lt_succ_self _)
      have hfull' : blockPoolSize ≤ b.blockPoolUsed := hfull
      have hpow := Nat.two_pow_pos (order + n + 1)
      rw [splitLoop_of_empty hnil]
      refine ⟨hpool, hb₁, Nat.le_succ _, hco₂, fun h => ?_, fun _ _ => hnil, fun h => ?_, fun _ => ?_⟩
      · omega
      · omega
      · change (b.setList (order + n + 1) rest).volume < b.volume
        omega

end Split

/-! ### Releasing a block -/

/-- How often a block that is put into the list of order `k` merges, `n` orders below the highest. -/
def mergeCount (b : GpuBuddy) : ℕ → ℕ → UInt64 → ℕ
  | 0, _, _ => 0
  | n + 1, k, a =>
    let buddy := buddyAddr b.baseAddr a (blockSize k)
    if buddy ∈ b.freeLists k then mergeCount b n (k + 1) (if a < buddy then a else buddy) + 1 else 0

theorem mergeCount_congr {b c : GpuBuddy} (hbase : c.baseAddr = b.baseAddr) {n k : ℕ}
    {a : UInt64} (hlists : ∀ j, k ≤ j → c.freeLists j = b.freeLists j) :
    c.mergeCount n k a = b.mergeCount n k a := by
  induction n generalizing k a with
  | zero => rfl
  | succ n ih =>
    simp only [mergeCount, hbase, hlists k (Nat.le_refl k)]
    rw [ih fun j hj => hlists j (Nat.le_of_succ_le hj)]

theorem mergeCount_le (b : GpuBuddy) (n k : ℕ) (a : UInt64) : b.mergeCount n k a ≤ n := by
  induction n generalizing k a with
  | zero => exact Nat.le_refl _
  | succ n ih =>
    rw [mergeCount]
    by_cases hmem : buddyAddr b.baseAddr a (blockSize k) ∈ b.freeLists k
    · simp only [hmem, if_true]
      exact Nat.succ_le_succ (ih _ _)
    · simp only [hmem, if_false]
      exact Nat.zero_le _

theorem mergeable_eq_none {k : ℕ} (h : b.CoalescedAt k) : b.mergeable k = none := by
  rw [mergeable, Option.map_eq_none_iff, List.find?_eq_none]
  intro a ha hcond
  rw [Bool.and_eq_true, decide_eq_true_eq] at hcond
  exact h a ha hcond.1

theorem coalesceLoop_of_none {up : GpuBuddy → GpuBuddy} {k : ℕ} (h : b.mergeable k = none)
    (n : ℕ) : coalesceLoop up k n b = b := by
  cases n with
  | zero => rfl
  | succ n => rw [coalesceLoop, h]

section Release

variable {k n : ℕ} {addr : UInt64}

/-- What releasing a block of order `k` does when it merges `m` times.  It takes a node for the
block and one for each merge, and loses the block when one of them is missing. -/
structure Released (b : GpuBuddy) (k m : ℕ) (b' : GpuBuddy) : Prop where
  pool : SamePool b b'
  steady : Steady b'
  lists : ∀ j < k, b'.freeLists j = b.freeLists j
  enough : b.blockPoolUsed + 1 + m ≤ blockPoolSize →
    b'.volume = b.volume + 2 ^ k ∧ b'.blockPoolUsed = b.blockPoolUsed + 1 + m ∧
      b'.freeLists (k + m) ≠ []
  short : blockPoolSize < b.blockPoolUsed + 1 + m → b'.volume < b.volume + 2 ^ k

theorem push_self (b : GpuBuddy) (k : ℕ) (addr : UInt64) :
    (b.push k addr).freeLists k = addr :: b.freeLists k := b.setList_self k _

theorem push_of_ne (b : GpuBuddy) (addr : UInt64) {j : ℕ} (h : j ≠ k) :
    (b.push k addr).freeLists j = b.freeLists j := b.setList_of_ne h _

/-- The block stays alone. -/
theorem released_push (hb : Steady b)
    (hlaid : Laid b.baseAddr b.maxOrder (⟨k, addr⟩ :: b.blocks))
    (hroom : 2 * b.blocks.length ≤ b.blockPoolUsed) (hused : b.blockPoolUsed < blockPoolSize)
    (halone : k < b.maxOrder → buddyAddr b.baseAddr addr (blockSize k) ∉ b.freeLists k) :
    Released b k 0 (b.push k addr) where
  pool := ⟨rfl, rfl, rfl⟩
  steady := by
    refine ⟨hb.toLayout.push hlaid hroom hused, fun j hj => ?_⟩
    by_cases hjk : j = k
    · subst hjk
      have hjN : j < b.maxOrder := hj
      have hle := hjN.le.trans hb.order_le
      unfold CoalescedAt
      rw [push_self]
      change ∀ a ∈ _, buddyAddr b.baseAddr a (blockSize j) ∉ _
      intro a ha hmem
      rcases List.mem_cons.mp ha with rfl | ha
      · rcases List.mem_cons.mp hmem with heq | hmem
        · exact buddyAddr_ne hle heq
        · exact halone hjN hmem
      · rcases List.mem_cons.mp hmem with heq | hmem
        · rw [← heq, buddyAddr_buddyAddr] at halone
          exact halone hjN ha
        · exact hb.coalesced j hjN a ha hmem
    · unfold CoalescedAt
      rw [push_of_ne b addr hjk]
      exact hb.coalesced j hj
  lists := fun j hj => push_of_ne b addr hj.ne
  enough := by
    intro _
    have hle := (hlaid.order_le List.mem_cons_self).trans hb.order_le
    rw [volume_of_perm (b.blocks_push' hle addr)]
    refine ⟨Nat.add_comm _ _, rfl, ?_⟩
    rw [Nat.add_zero, push_self]
    exact List.cons_ne_nil _ _
  short := fun h => absurd h (by omega)

/-- The block is at the head of its list, and its buddy below it. -/
theorem mergeable_push (hadjacent : areAdjacent addr (buddyAddr b.baseAddr addr (blockSize k))
      (blockSize k) = true) (hmem : buddyAddr b.baseAddr addr (blockSize k) ∈ b.freeLists k) :
    (b.push k addr).mergeable k = some (addr, buddyAddr b.baseAddr addr (blockSize k)) := by
  have hmem' : buddyAddr b.baseAddr addr (blockSize k) ∈ addr :: b.freeLists k :=
    List.mem_cons_of_mem _ hmem
  have hfind := List.find?_cons_of_pos (l := b.freeLists k) (a := addr)
    (p := fun a => buddyAddr b.baseAddr a (blockSize k) ∈ addr :: b.freeLists k &&
      areAdjacent a (buddyAddr b.baseAddr a (blockSize k)) (blockSize k))
    (by rw [Bool.and_eq_true, decide_eq_true_eq]; exact ⟨hmem', hadjacent⟩)
  unfold mergeable
  simp only [push_self]
  change Option.map _ (List.find? (fun a => buddyAddr b.baseAddr a (blockSize k) ∈
    addr :: b.freeLists k && areAdjacent a (buddyAddr b.baseAddr a (blockSize k)) (blockSize k))
      (addr :: b.freeLists k)) = _
  rw [hfind]
  rfl

/-- The pool without the buddy, with one node used. -/
theorem merge_push (b : GpuBuddy) (k : ℕ) (addr buddy : UInt64) :
    (b.push k addr).merge k addr buddy =
      ({ b.setList k ((b.freeLists k).erase buddy) with
        blockPoolUsed := b.blockPoolUsed + 1 } : GpuBuddy).insertNew
          (if addr < buddy then addr else buddy) (k + 1) := by
  unfold merge
  congr 1
  simp only [freeListRemove, push, setList, Function.update_self, Function.update_idem,
    List.erase_cons_head]

theorem Steady.coalescedAt_erase (hb : Steady b) (a : UInt64) {j : ℕ} (hj : j < b.maxOrder) :
    (b.setList k ((b.freeLists k).erase a)).CoalescedAt j := by
  unfold CoalescedAt
  by_cases hjk : j = k
  · subst hjk
    rw [setList_self]
    intro x hx hmem
    exact hb.coalesced j hj x (List.mem_of_mem_erase hx) (List.mem_of_mem_erase hmem)
  · rw [setList_of_ne b hjk]
    exact hb.coalesced j hj

/-- **Release.**  A block put into a list of a coalesced pool merges as long as its buddy is free,
and leaves a coalesced pool. -/
theorem release_spec (n : ℕ) (b : GpuBuddy) (k : ℕ) (addr : UInt64) (hb : Steady b)
    (hn : k + n = b.maxOrder) (hlaid : Laid b.baseAddr b.maxOrder (⟨k, addr⟩ :: b.blocks))
    (hroom : 2 * b.blocks.length ≤ b.blockPoolUsed) :
    Released b k (b.mergeCount n k addr) (coalesceFrom n k (b.insertNew addr k)) := by
  have hused := hb.used_le
  have hpow := Nat.two_pow_pos k
  induction n generalizing b k addr with
  | zero =>
    rw [coalesceFrom, mergeCount]
    by_cases hfull : blockPoolSize ≤ b.blockPoolUsed
    · rw [insertNew_of_full hfull]
      exact ⟨⟨rfl, rfl, rfl⟩, hb, fun _ _ => rfl, fun h => absurd h (by omega),
        fun _ => Nat.lt_add_of_pos_right hpow⟩
    · rw [insertNew_of_room (Nat.not_le.mp hfull) addr (by omega)]
      exact released_push hb hlaid hroom (Nat.not_le.mp hfull) fun h => absurd h (by omega)
  | succ n ih =>
    have hlt : k < b.maxOrder := by omega
    rw [coalesceFrom, mergeCount]
    by_cases hfull : blockPoolSize ≤ b.blockPoolUsed
    · rw [insertNew_of_full hfull, coalesceLoop_of_none (mergeable_eq_none (hb.coalesced k hlt))]
      exact ⟨⟨rfl, rfl, rfl⟩, hb, fun _ _ => rfl, fun h => absurd h (by omega),
        fun _ => Nat.lt_add_of_pos_right hpow⟩
    have hnode := Nat.not_le.mp hfull
    rw [insertNew_of_room hnode addr hlt.le]
    by_cases hmem : buddyAddr b.baseAddr addr (blockSize k) ∈ b.freeLists k
    · have hle := hlt.le.trans hb.order_le
      have hplace := hlaid.placed _ List.mem_cons_self
      have hbuddy := at_buddyAddr hb.fits hplace (hlaid.inside List.mem_cons_self) hle hlt
      have hadjacent := areAdjacent_buddy hplace hbuddy hle
      simp only [hmem, if_true]
      rw [push_self, List.length_cons, coalesceLoop, mergeable_push hadjacent hmem]
      simp only [merge_push b k addr _]
      -- the pool without the buddy, which is left for the order above
      have hperm := List.perm_cons_erase hmem
      obtain ⟨hlayout, hroom₁, -⟩ := hb.toLayout.take hlt.le hperm
      have hblocks := blocks_take hle hperm
      have hvolume := volume_of_perm hblocks
      simp only at hvolume
      have hb₁ : Steady ({ b.setList k ((b.freeLists k).erase
          (buddyAddr b.baseAddr addr (blockSize k))) with
            blockPoolUsed := b.blockPoolUsed + 1 } : GpuBuddy) := by
        refine ⟨⟨hlayout.order_le, hlayout.fits, hlayout.laid, ?_, hnode, hlayout.table⟩,
          fun j hj => ?_⟩
        · exact hlayout.nodes.trans (Nat.le_succ _)
        · exact hb.coalescedAt_erase _ hj
      have hmerged := (hlaid.perm (hblocks.cons _)).merge hb.fits hb.order_le hlt
      have hreleased := ih _ (k + 1) _ hb₁ (by simp only [setList]; omega) hmerged
        (by
          change 2 * (b.setList k _).blocks.length ≤ b.blockPoolUsed + 1
          omega) hnode (Nat.two_pow_pos _)
      have hcount := mergeCount_congr (n := n) (k := k + 1)
        (a := if addr < buddyAddr b.baseAddr addr (blockSize k) then addr
          else buddyAddr b.baseAddr addr (blockSize k)) (b := b)
        (c := { b.setList k ((b.freeLists k).erase
          (buddyAddr b.baseAddr addr (blockSize k))) with
            blockPoolUsed := b.blockPoolUsed + 1 }) rfl
        fun j hj => b.setList_of_ne (by omega) _
      rw [hcount] at hreleased
      rw [coalesceLoop_of_none (mergeable_eq_none (hreleased.steady.coalesced k
        (hreleased.pool.order ▸ hlt)))]
      refine ⟨⟨hreleased.pool.base, hreleased.pool.order, hreleased.pool.records⟩,
        hreleased.steady, fun j hj => ?_, fun h => ?_, fun h => ?_⟩
      · exact (hreleased.lists j (Nat.lt_succ_of_lt hj)).trans (b.setList_of_ne hj.ne _)
      · obtain ⟨hvol, hused', hlands⟩ := hreleased.enough (by simp only; omega)
        rw [hvol, hused', Nat.pow_succ, hvolume]
        refine ⟨?_, ?_, ?_⟩
        · change (b.setList k _).volume + _ = _
          omega
        · simp only
          omega
        · rwa [Nat.add_right_comm] at hlands
      · have hvol := hreleased.short (by simp only; omega)
        rw [Nat.pow_succ] at hvol
        rw [hvolume]
        change _ < (b.setList k _).volume + _ at hvol
        omega
    · rw [if_neg hmem]
      have hreleased := released_push hb hlaid hroom hnode fun _ => hmem
      rw [coalesceLoop_of_none (mergeable_eq_none (hreleased.steady.coalesced k hlt))]
      exact hreleased

end Release

/-! ### The calls -/

theorem firstFit_some {order t : ℕ} (h : b.firstFit order = some t) :
    order ≤ t ∧ t ≤ b.maxOrder ∧ b.freeLists t ≠ [] ∧
      ∀ j, order ≤ j → j < t → b.freeLists j = [] := by
  rw [firstFit, List.find?_range'_eq_some] at h
  obtain ⟨hne, hmem, hempty⟩ := h
  have hbounds := List.mem_range'_1.mp hmem
  refine ⟨hbounds.1, by omega, by simpa using hne, fun j hj hlt => ?_⟩
  simpa using hempty j hj hlt

theorem firstFit_none {order : ℕ} (h : b.firstFit order = none) {j : ℕ} (hj : order ≤ j)
    (hle : j ≤ b.maxOrder) : b.freeLists j = [] := by
  rw [firstFit, List.find?_eq_none] at h
  have hempty := h j (List.mem_range'_1.mpr ⟨hj, by omega⟩)
  simpa using hempty

theorem coalescedAt_dropHead {t : ℕ} (hb : Steady b) :
    ∀ k < b.maxOrder, (b.dropHead t).CoalescedAt k := by
  intro k hk
  unfold CoalescedAt dropHead
  by_cases hkt : k = t
  · subst hkt
    rw [setList_self]
    intro x hx hmem
    exact hb.coalesced k hk x (List.mem_of_mem_tail hx) (List.mem_of_mem_tail hmem)
  · rw [setList_of_ne b hkt]
    exact hb.coalesced k hk

theorem dropHead_of_nil {t : ℕ} (h : b.freeLists t = []) : b.dropHead t = b := by
  rw [dropHead, h, List.tail_nil, ← h, setList, Function.update_eq_self]

/-- With at most half as many blocks as nodes the record table is never full. -/
theorem Layout.none_mem_records (h : Layout b) : none ∈ b.records := by
  by_contra hfull
  have hlive : b.liveBlocks.length = b.records.length := by
    rw [liveBlocks, List.length_filterMap_eq_countP, List.countP_eq_length]
    intro r hr
    cases r with
    | none => exact absurd hr hfull
    | some r => rfl
  have hlen : b.liveBlocks.length ≤ b.blocks.length := by simp [blocks]
  have hnodes := h.nodes
  have hused := h.used_le
  have htable := h.table
  simp only [blockPoolSize, gpuBuddyMaxRecords, gpuBuddyMaxOrder] at hused htable
  omega

/-- A request is refused as it is, or fails when the nodes run out under a split, or is served. -/
inductive AllocStep (b : GpuBuddy) (size : UInt64) : Option UInt64 × GpuBuddy → Prop
  | refused (h : size = 0 ∨ b.firstFit (orderForSize (alignedSize size)) = none) :
      AllocStep b size (none, b)
  | lost {t : ℕ} {b' : GpuBuddy} (hsize : size ≠ 0)
      (hfit : b.firstFit (orderForSize (alignedSize size)) = some t)
      (hsplit : orderForSize (alignedSize size) < t)
      (hshort : blockPoolSize + 1 < b.blockPoolUsed + 2 * (t - orderForSize (alignedSize size)))
      (hsteady : Steady b') (hpool : SamePool b b') (hvolume : b'.volume < b.volume) :
      AllocStep b size (none, b')
  | served {t : ℕ} {addr : UInt64} {b' : GpuBuddy} (hsize : size ≠ 0)
      (hfit : b.firstFit (orderForSize (alignedSize size)) = some t)
      (hnodes : t = orderForSize (alignedSize size) ∨
        b.blockPoolUsed + 2 * (t - orderForSize (alignedSize size)) ≤ blockPoolSize + 1)
      (hsteady : Steady b') (hbase : b'.baseAddr = b.baseAddr) (horder : b'.maxOrder = b.maxOrder)
      (hlive : b'.liveBlocks.Perm (⟨orderForSize (alignedSize size), addr⟩ :: b.liveBlocks))
      (henough : b.blockPoolUsed + 2 * (t - orderForSize (alignedSize size)) ≤ blockPoolSize →
        b'.volume = b.volume ∧
          b'.blockPoolUsed = b.blockPoolUsed + 2 * (t - orderForSize (alignedSize size)))
      (hshort : blockPoolSize < b.blockPoolUsed + 2 * (t - orderForSize (alignedSize size)) →
        b'.volume < b.volume) :
      AllocStep b size (some addr, b')

theorem orderLoop_le (size : UInt64) (n : ℕ) (block : UInt64) (order : ℕ) :
    orderLoop size n block order ≤ order + n := by
  induction n generalizing block order with
  | zero => exact Nat.le_refl _
  | succ n ih =>
    rw [orderLoop]
    split_ifs
    · have hle := ih (block * 2) (order + 1)
      omega
    · exact Nat.le_add_right _ _

theorem orderForSize_le (size : UInt64) : orderForSize size ≤ gpuBuddyMaxOrder := by
  have hle := orderLoop_le size gpuBuddyMaxOrder gpuBuddyMinBlockSize 0
  rwa [Nat.zero_add] at hle

theorem Steady.allocStep (hb : Steady b) (size : UInt64) :
    AllocStep b size (b.gpuBuddyAlloc size) := by
  rw [gpuBuddyAlloc]
  by_cases hsize : size = 0
  · rw [if_pos hsize]
    exact .refused (.inl hsize)
  rw [if_neg hsize]
  simp only [if_neg (Nat.not_lt.mpr (orderForSize_le (alignedSize size)))]
  rcases hfit : b.firstFit (orderForSize (alignedSize size)) with _ | t
  · exact .refused (.inr hfit)
  obtain ⟨hle, hmax, hne, hempty⟩ := firstFit_some hfit
  have hsum : orderForSize (alignedSize size) + (t - orderForSize (alignedSize size)) = t := by
    omega
  have hdown := splitLoop_spec (orderForSize (alignedSize size))
    (t - orderForSize (alignedSize size)) b hb.toLayout (by rwa [hsum]) (by rwa [hsum])
    (by rwa [hsum]) (by rw [hsum]; exact coalescedAt_dropHead hb)
  dsimp only
  generalize splitLoop (orderForSize (alignedSize size))
    (t - orderForSize (alignedSize size)) b = r at hdown ⊢
  obtain ⟨t', b₁⟩ := r
  have hmax' : t' ≤ b₁.maxOrder := by
    rw [hdown.pool.order]
    have hle' := hdown.le
    omega
  rcases hlist : b₁.freeLists t' with _ | ⟨addr, rest⟩
  · -- the nodes ran out under the split
    have hpop : b₁.freeListPop t' = none := by
      rw [freeListPop, hlist]
      exact ite_self _
    have hshort : orderForSize (alignedSize size) < t ∧
        blockPoolSize + 1 < b.blockPoolUsed + 2 * (t - orderForSize (alignedSize size)) := by
      by_contra hnot
      exact (hdown.reached (by omega)).2 hlist
    simp only [hpop]
    refine .lost hsize hfit hshort.1 hshort.2 ⟨hdown.layout, ?_⟩ hdown.pool
      (hdown.short (by omega))
    have hco := hdown.coalesced
    rwa [dropHead_of_nil hlist, ← hdown.pool.order] at hco
  · have hpop : b₁.freeListPop t' = some (addr, b₁.dropHead t') := by
      rw [freeListPop, if_neg (Nat.not_lt.mpr hmax'), hlist, dropHead, hlist]
      rfl
    have hreached : t = orderForSize (alignedSize size) ∨
        b.blockPoolUsed + 2 * (t - orderForSize (alignedSize size)) ≤ blockPoolSize + 1 := by
      by_contra hnot
      have hnil := hdown.stuck (by omega) (by omega)
      rw [hlist] at hnil
      cases hnil
    obtain ⟨rfl, -⟩ := hdown.reached (by omega)
    obtain ⟨b₂, hadd, hbase, horder, hfree, hused, hlen, hlive⟩ :=
      addRecord_spec (b := b₁.dropHead (orderForSize (alignedSize size)))
        (r := ⟨addr, alignedSize size, orderForSize (alignedSize size)⟩)
        hdown.layout.none_mem_records
    have htaken := blocks_take (hmax'.trans hdown.layout.order_le) (.of_eq hlist)
    have hblocks : b₂.blocks.Perm b₁.blocks := by
      refine (blocks_of_live hfree hlive).trans (htaken.trans ?_).symm
      rw [dropHead, hlist]
      exact .refl _
    have hvolume : b₂.volume = b₁.volume := (hblocks.map _).sum_eq
    have hlayout : Layout b₂ := by
      refine ⟨?_, ?_, ?_, ?_, ?_, hlen.trans hdown.layout.table⟩
      · exact horder.trans_le hdown.layout.order_le
      · rw [hbase, horder]
        exact hdown.layout.fits
      · rw [hbase, horder]
        exact hdown.layout.laid.perm hblocks.symm
      · rw [hblocks.length_eq, hused]
        exact hdown.layout.nodes
      · rw [hused]
        exact hdown.layout.used_le
    have hco : ∀ k < b₂.maxOrder, b₂.CoalescedAt k := by
      rw [horder]
      intro k hk
      unfold CoalescedAt
      rw [hbase, hfree]
      exact hdown.coalesced k (hdown.pool.order ▸ hk)
    simp only [hpop, hadd]
    refine .served hsize hfit hreached ⟨hlayout, hco⟩ (hbase.trans hdown.pool.base)
      (horder.trans hdown.pool.order) ?_ (fun h => ?_) fun h => ?_
    · refine hlive.trans (.of_eq ?_)
      rw [liveBlocks, liveBlocks, ← hdown.pool.records]
      rfl
    · rw [hvolume, hused]
      exact hdown.enough h
    · rw [hvolume]
      exact hdown.short h

theorem insertNew_samePool (b : GpuBuddy) (addr : UInt64) (k : ℕ) :
    SamePool b (b.insertNew addr k) := by
  unfold insertNew poolAlloc freeListInsert
  split_ifs with hfull
  · exact ⟨rfl, rfl, rfl⟩
  · dsimp only
    split_ifs
    · exact ⟨rfl, rfl, rfl⟩
    · exact ⟨rfl, rfl, rfl⟩

theorem findRecord_none {addr : UInt64} (h : b.findRecord addr = none) (k : ℕ) :
    ⟨k, addr⟩ ∉ b.liveBlocks := by
  intro hlive
  obtain ⟨r, hr⟩ := findRecord_of_live hlive
  rw [h] at hr
  cases hr

/-- An address without a record is refused, any other is released. -/
inductive FreeStep (b : GpuBuddy) (addr : UInt64) : Bool × GpuBuddy → Prop
  | unknown (hfind : b.findRecord addr = none) : FreeStep b addr (false, b)
  | freed {r : GpuBuddyRecord} {b' : GpuBuddy} (hfind : b.findRecord addr = some r)
      (hsteady : Steady b') (hbase : b'.baseAddr = b.baseAddr) (horder : b'.maxOrder = b.maxOrder)
      (hlive : b.liveBlocks.Perm (⟨r.order, addr⟩ :: b'.liveBlocks))
      (henough : b.blockPoolUsed + 1 + b.mergeCount (b.maxOrder - r.order) r.order addr ≤
          blockPoolSize → b'.volume = b.volume ∧ b'.blockPoolUsed =
            b.blockPoolUsed + 1 + b.mergeCount (b.maxOrder - r.order) r.order addr ∧
          b'.freeLists (r.order + b.mergeCount (b.maxOrder - r.order) r.order addr) ≠ [])
      (hshort : blockPoolSize <
          b.blockPoolUsed + 1 + b.mergeCount (b.maxOrder - r.order) r.order addr →
        b'.volume < b.volume) :
      FreeStep b addr (true, b')

theorem Steady.freeStep (hb : Steady b) (addr : UInt64) :
    FreeStep b addr (b.gpuBuddyFree addr) := by
  rw [gpuBuddyFree]
  rcases hfind : b.findRecord addr with _ | r
  · exact .unknown hfind
  obtain ⟨-, hbase, horder, hfree, hused, hlen, hlive⟩ := removeRecord_spec hfind
  have hblocks := blocks_of_live hfree.symm hlive
  have hlaid := hb.laid.perm hblocks
  have hlength := hblocks.length_eq
  have hnodes := hb.nodes
  rw [List.length_cons] at hlength
  have hle : r.order ≤ b.maxOrder := hlaid.order_le List.mem_cons_self
  have hb₁ : Steady (b.removeRecord addr) := by
    refine ⟨⟨?_, ?_, ?_, ?_, ?_, ?_⟩, ?_⟩
    · rw [horder]
      exact hb.order_le
    · rw [hbase, horder]
      exact hb.fits
    · rw [hbase, horder]
      exact hlaid.tail
    · rw [hused]
      omega
    · rw [hused]
      exact hb.used_le
    · rw [hlen]
      exact hb.table
    · rw [horder]
      intro k hk
      unfold CoalescedAt
      rw [hbase, hfree]
      exact hb.coalesced k hk
  have hreleased := release_spec (b.maxOrder - r.order) (b.removeRecord addr) r.order addr hb₁
    (by rw [horder]; omega) (by rw [hbase, horder]; exact hlaid) (by rw [hused]; omega)
  have hcoalesce : ((b.removeRecord addr).insertNew addr r.order).coalesce r.order =
      coalesceFrom (b.maxOrder - r.order) r.order
        ((b.removeRecord addr).insertNew addr r.order) := by
    rw [coalesce, (insertNew_samePool _ _ _).order, horder]
  have hvolume := volume_of_perm hblocks
  rw [mergeCount_congr hbase fun j _ => congrFun hfree j] at hreleased
  dsimp only
  rw [hcoalesce]
  refine .freed hfind hreleased.steady (hreleased.pool.base.trans hbase)
    (hreleased.pool.order.trans horder) ?_ (fun h => ?_) fun h => ?_
  · refine hlive.trans (.of_eq ?_)
    rw [liveBlocks, liveBlocks, hreleased.pool.records]
  · obtain ⟨hvol, hused', hlands⟩ := hreleased.enough (by rwa [hused])
    rw [hvol, hused', hvolume, hused, Nat.add_comm]
    exact ⟨rfl, rfl, hlands⟩
  · have hvol := hreleased.short (by rwa [hused])
    rw [hvolume, Nat.add_comm]
    exact hvol

end GpuBuddy

end UsrLinuxEmu.GpuCore
