import UsrLinuxEmu.Iommu.IommuRegistry
import UsrLinuxEmu.Ring.CyclicScan
import UsrLinuxEmu.Transition.Simulation

/-!
# IO address space ids (`plugins/iommu_driver/ioasid.cpp`)

`ioasid_alloc` goes once round the table from a cursor and takes the first free id, up to 0xFFFF;
the other three functions take 0xFFFF for an id out of range.

* `Malloc` — the blocks that the library hands out are not in use;
* `IoasidState` — the cursor, the table and the blocks, with the four functions;
* `allocLoop_spec` — the loop finds the first free id on the way round, or none is free;
* `IoasidLaw`, `AllocLaw` — what holds of the live IOASIDs, and when an allocation may fail;
* `ioasid_lifecycle_iff` — the runs along which both hold.
-/

namespace UsrLinuxEmu.Iommu

open UsrLinuxEmu.Ring UsrLinuxEmu.Transition

/-! ### The allocator -/

/-- The address of a block; a null pointer is `none`. -/
abbrev Addr := ℕ

/-- An answer of `malloc` while some blocks are in use. -/
structure Malloc where
  run : List Addr → Option Addr
  fresh : ∀ blocks p, run blocks = some p → p ∉ blocks

/-- `next`: the cursor `g_ioasid_next`; `blocks`: the blocks in use; `idOf`: their `id` fields. -/
structure IoasidState where
  next : ℕ
  table : ℕ → Option Addr
  blocks : List Addr
  idOf : Addr → ℕ

theorem iommuErrEnodev_ne : iommuErrEnodev ≠ iommuErrOk := by decide

/-- The first id that is out of range for `ioasid_alloc_id`, `ioasid_free` and `ioasid_find`. -/
def idLimit : ℕ := 0xFFFF

def advanceNext (next : ℕ) : ℕ := if (next + 1) % 0x10000 = 0 then 1 else (next + 1) % 0x10000

namespace IoasidState

def create : IoasidState := ⟨1, fun _ => none, [], fun _ => 0⟩

/-- The block holds the id, and the table the block. -/
def record (s : IoasidState) (p : Addr) (id : ℕ) : IoasidState :=
  { s with table := Function.update s.table id (some p), idOf := Function.update s.idOf p id }

/-- The turns of the loop that are left; `p` is the new block. -/
def allocLoop (p : Addr) (start : ℕ) : ℕ → IoasidState → Option Addr × IoasidState
  | 0, s => (none, { s with blocks := s.blocks.erase p })
  | turns + 1, s =>
    let candidate := s.next
    let s := { s with next := advanceNext s.next }
    if s.table candidate = none then (some p, s.record p candidate)
    else if s.next = start then (none, { s with blocks := s.blocks.erase p })
    else allocLoop p start turns s

def ioasidAlloc (s : IoasidState) (malloc : Malloc) : Option Addr × IoasidState :=
  match malloc.run s.blocks with
  | none => (none, s)
  | some p => allocLoop p s.next 0xFFFF { s with blocks := p :: s.blocks }

def ioasidAllocId (s : IoasidState) (malloc : Malloc) (id : ℕ) : Option Addr × IoasidState :=
  if id = 0 ∨ idLimit ≤ id then (none, s)
  else if s.table id ≠ none then (none, s)
  else
    match malloc.run s.blocks with
    | none => (none, s)
    | some p => (some p, { s with blocks := p :: s.blocks }.record p id)

/-- `stale`: what stands in the place of the id when the block is not in use. -/
def ioasidFree (s : IoasidState) (ioasid : Option Addr) (stale : ℕ) : Int × IoasidState :=
  match ioasid with
  | none => (iommuErrEinval, s)
  | some p =>
    let id := if p ∈ s.blocks then s.idOf p else stale
    if id = 0 ∨ idLimit ≤ id then (iommuErrEnodev, s)
    else if s.table id ≠ some p then (iommuErrEnodev, s)
    else
      (iommuErrOk,
        { s with table := Function.update s.table id none, blocks := s.blocks.erase p })

def ioasidFind (s : IoasidState) (id : ℕ) : Option Addr :=
  if id = 0 ∨ idLimit ≤ id then none else s.table id

end IoasidState

inductive IoasidOp where
  | alloc (malloc : Malloc)
  | allocId (malloc : Malloc) (id : ℕ)
  | free (ioasid : Option Addr) (stale : ℕ)

def IoasidState.step (s : IoasidState) : IoasidOp → IoasidState
  | .alloc malloc => (s.ioasidAlloc malloc).2
  | .allocId malloc id => (s.ioasidAllocId malloc id).2
  | .free ioasid stale => (s.ioasidFree ioasid stale).2

/-! ### The property -/

/-- The IOASIDs that have been handed out and not been freed. -/
def noteIoasid (live : List Addr) (s : IoasidState) : IoasidOp → List Addr
  | .alloc malloc => (s.ioasidAlloc malloc).1.toList ++ live
  | .allocId malloc id => (s.ioasidAllocId malloc id).1.toList ++ live
  | .free none _ => live
  | .free (some p) stale =>
    if (s.ioasidFree (some p) stale).1 = iommuErrOk then live.erase p else live

abbrev observedIoasid : List Addr × IoasidState → IoasidOp → List Addr × IoasidState :=
  observed IoasidState.step noteIoasid

def ioasidStart : List Addr × IoasidState := ([], .create)

/-- The IOASID can be freed, once, and its id be allocated again. -/
def FreedOnce (s : IoasidState) (p : Addr) : Prop :=
  ∀ stale, (s.ioasidFree (some p) stale).1 = iommuErrOk ∧
    (∀ stale', ((s.ioasidFree (some p) stale).2.ioasidFree (some p) stale').1 ≠ iommuErrOk) ∧
      ∀ malloc : Malloc, malloc.run (s.ioasidFree (some p) stale).2.blocks ≠ none →
        ((s.ioasidFree (some p) stale).2.ioasidAllocId malloc (s.idOf p)).1 ≠ none

/-- What holds of the live IOASIDs. -/
structure IoasidLaw (x : List Addr × IoasidState) : Prop where
  distinct : (x.1.map x.2.idOf).Nodup
  nonzero : ∀ p ∈ x.1, x.2.idOf p ≠ 0
  found : ∀ p ∈ x.1, x.2.ioasidFind (x.2.idOf p) = some p
  freed : ∀ p ∈ x.1, FreedOnce x.2 p

/-- Every id in range belongs to a live IOASID. -/
def AllLive (x : List Addr × IoasidState) : Prop :=
  ∀ id, 0 < id → id < idLimit → ∃ p ∈ x.1, x.2.idOf p = id

/-- An allocation fails only when no id is left. -/
def AllocLaw (x : List Addr × IoasidState) : IoasidOp → Prop
  | .alloc malloc => (x.2.ioasidAlloc malloc).1 = none → AllLive x
  | .allocId _ _ | .free _ _ => True

/-! ### The condition -/

/-- From the cursor to the end of the table only the last id is free. -/
def LastIsNext (s : IoasidState) : Prop :=
  s.table idLimit = none ∧ ∀ id, s.next ≤ id → id < idLimit → s.table id ≠ none

/-- Memory does not run out before the ids, and the last id is not the next one. -/
def ioasidGuard (x : List Addr × IoasidState) : IoasidOp → Prop
  | .alloc malloc =>
    (malloc.run x.2.blocks = none → AllLive x) ∧
      (malloc.run x.2.blocks ≠ none → ¬LastIsNext x.2)
  | .allocId _ _ | .free _ _ => True

/-! ### The loop -/

namespace IoasidState

variable {s : IoasidState} {p : Addr} {start : ℕ}

theorem advanceNext_eq {next : ℕ} (hle : next ≤ idLimit) :
    advanceNext next = nextSlot idLimit next := by
  unfold advanceNext nextSlot idLimit at *
  rcases Nat.lt_or_ge next 0xFFFF with hlt | hge
  · rw [Nat.mod_eq_of_lt (by omega), if_neg (by omega), if_neg (by omega)]
  · obtain rfl : next = 0xFFFF := by omega
    rfl

/-- What the loop makes of the state when it takes the id after `j` moves. -/
def taken (s : IoasidState) (p : Addr) (start j : ℕ) : IoasidState :=
  { s with next := slotFrom idLimit start (j + 1) }.record p (slotFrom idLimit start j)

/-- **The loop.**  After `k` turns it is `k` moves from the start; it takes the first free id that
is left, or goes on to where it started. -/
theorem allocLoop_spec (hstart : 0 < start) (hle : start ≤ idLimit) (turns : ℕ) :
    ∀ (k : ℕ) (s : IoasidState), turns + k = idLimit → s.next = slotFrom idLimit start k →
      (∃ j, k ≤ j ∧ j < idLimit ∧ s.table (slotFrom idLimit start j) = none ∧
          (∀ i, k ≤ i → i < j → s.table (slotFrom idLimit start i) ≠ none) ∧
          allocLoop p start turns s = (some p, taken s p start j)) ∨
        (∀ i, k ≤ i → i < idLimit → s.table (slotFrom idLimit start i) ≠ none) ∧
          ∃ k', allocLoop p start turns s =
            (none, { s with next := slotFrom idLimit start k', blocks := s.blocks.erase p }) := by
  have hn : 0 < idLimit := by decide
  induction turns with
  | zero =>
    intro k s hk hnext
    refine .inr ⟨fun i hi hlt => absurd hi (by omega), k, ?_⟩
    rw [allocLoop, ← hnext]
  | succ turns ih =>
    intro k s hk hnext
    have hmove : advanceNext s.next = slotFrom idLimit start (k + 1) := by
      rw [hnext, advanceNext_eq (slotFrom_le hn), slotFrom_succ hn]
    rw [allocLoop]
    simp only [hmove]
    by_cases hfree : s.table s.next = none
    · rw [if_pos hfree]
      rw [hnext] at hfree
      refine .inl ⟨k, le_rfl, by omega, hfree, fun i hi hlt => absurd hi (by omega), ?_⟩
      rw [taken, ← hnext]
    rw [if_neg hfree]
    rw [hnext] at hfree
    by_cases hback : slotFrom idLimit start (k + 1) = start
    · have hround := (slotFrom_eq_start_iff hstart hle (Nat.succ_pos k) (by omega)).mp hback
      rw [if_pos hback]
      refine .inr ⟨fun i hi hlt => ?_, k + 1, rfl⟩
      obtain rfl : i = k := by omega
      exact hfree
    · rw [if_neg hback]
      rcases ih (k + 1) { s with next := slotFrom idLimit start (k + 1) } (by omega) rfl with
        ⟨j, hkj, hj, hnone, hbefore, heq⟩ | ⟨hall, k', heq⟩
      · refine .inl ⟨j, by omega, hj, hnone, fun i hi hlt => ?_, heq⟩
        rcases Nat.eq_or_lt_of_le hi with rfl | hlt'
        · exact hfree
        · exact hbefore i hlt' hlt
      · refine .inr ⟨fun i hi hlt => ?_, k', heq⟩
        rcases Nat.eq_or_lt_of_le hi with rfl | hlt'
        · exact hfree
        · exact hall i hlt' hlt

end IoasidState

/-! ### The invariant -/

/-- The table holds the blocks in use, each under its id, which is in range. -/
structure TableInv (s : IoasidState) : Prop where
  nodup : s.blocks.Nodup
  next_pos : 0 < s.next
  next_le : s.next ≤ idLimit
  entry : ∀ id p, s.table id = some p ↔ p ∈ s.blocks ∧ s.idOf p = id
  inRange : ∀ p ∈ s.blocks, 0 < s.idOf p ∧ s.idOf p < idLimit

/-- Besides, the live IOASIDs are the blocks in use. -/
structure IoasidInv (x : List Addr × IoasidState) : Prop where
  live : x.1 = x.2.blocks
  table : TableInv x.2

namespace TableInv

variable {s : IoasidState} {p : Addr} {id c : ℕ}

theorem not_outOfRange (hid : 0 < id) (hlt : id < idLimit) : ¬(id = 0 ∨ idLimit ≤ id) := by omega

/-- The last id is never taken. -/
theorem last_free (h : TableInv s) : s.table idLimit = none := by
  cases hlast : s.table idLimit with
  | none => rfl
  | some q =>
    obtain ⟨hq, hid⟩ := (h.entry idLimit q).mp hlast
    have hlt := (h.inRange q hq).2
    omega

theorem record (h : TableInv s) (hp : p ∉ s.blocks) (hid : 0 < id) (hlt : id < idLimit)
    (hfree : s.table id = none) (hc : 0 < c) (hcle : c ≤ idLimit) :
    TableInv ({ s with next := c, blocks := p :: s.blocks }.record p id) where
  nodup := List.nodup_cons.mpr ⟨hp, h.nodup⟩
  next_pos := hc
  next_le := hcle
  entry := by
    intro id' q
    show Function.update s.table id (some p) id' = some q ↔
      q ∈ p :: s.blocks ∧ Function.update s.idOf p id q = id'
    by_cases hq : q = p
    · rw [hq, Function.update_self, and_iff_right List.mem_cons_self]
      by_cases hid' : id' = id
      · rw [hid', Function.update_self]
        exact iff_of_true rfl rfl
      · rw [Function.update_of_ne hid', h.entry]
        exact iff_of_false (fun hc => hp hc.1) (Ne.symm hid')
    · rw [Function.update_of_ne hq, List.mem_cons, or_iff_right hq, ← h.entry]
      by_cases hid' : id' = id
      · rw [hid', Function.update_self, hfree]
        exact iff_of_false (fun hc => hq (Option.some.inj hc).symm) nofun
      · rw [Function.update_of_ne hid']
  inRange := by
    intro q hq
    show 0 < Function.update s.idOf p id q ∧ Function.update s.idOf p id q < idLimit
    by_cases hqp : q = p
    · rw [hqp, Function.update_self]
      exact ⟨hid, hlt⟩
    · rw [Function.update_of_ne hqp]
      exact h.inRange q ((List.mem_cons.mp hq).resolve_left hqp)

/-- The table and the blocks without the IOASID. -/
def released (s : IoasidState) (p : Addr) : IoasidState :=
  { s with table := Function.update s.table (s.idOf p) none, blocks := s.blocks.erase p }

theorem release (h : TableInv s) (hp : p ∈ s.blocks) : TableInv (released s p) where
  nodup := h.nodup.erase p
  next_pos := h.next_pos
  next_le := h.next_le
  entry := by
    intro id q
    show Function.update s.table (s.idOf p) none id = some q ↔ q ∈ s.blocks.erase p ∧ s.idOf q = id
    rw [h.nodup.mem_erase_iff]
    by_cases hid : id = s.idOf p
    · rw [hid, Function.update_self]
      refine iff_of_false nofun fun ⟨⟨hne, hq⟩, hsame⟩ => hne ?_
      have htable := (h.entry (s.idOf p) q).mpr ⟨hq, hsame⟩
      rw [(h.entry (s.idOf p) p).mpr ⟨hp, rfl⟩] at htable
      exact (Option.some.inj htable).symm
    · rw [Function.update_of_ne hid, h.entry]
      refine and_congr_left fun hsame => (and_iff_right ?_).symm
      rintro rfl
      exact hid hsame.symm
  inRange := fun q hq => h.inRange q (List.mem_of_mem_erase hq)

theorem free_live (h : TableInv s) (hp : p ∈ s.blocks) (stale : ℕ) :
    s.ioasidFree (some p) stale = (iommuErrOk, released s p) := by
  obtain ⟨hid, hlt⟩ := h.inRange p hp
  have hentry : s.table (s.idOf p) = some p := (h.entry _ p).mpr ⟨hp, rfl⟩
  simp only [IoasidState.ioasidFree, if_pos hp]
  rw [if_neg (not_outOfRange hid hlt), if_neg (not_not.mpr hentry), released]

theorem free_dead (h : TableInv s) (hp : p ∉ s.blocks) (stale : ℕ) :
    s.ioasidFree (some p) stale = (iommuErrEnodev, s) := by
  have hentry : s.table stale ≠ some p := fun heq => hp ((h.entry stale p).mp heq).1
  simp only [IoasidState.ioasidFree, if_neg hp]
  rw [if_pos hentry, ite_self]

theorem freedOnce (h : TableInv s) (hp : p ∈ s.blocks) : FreedOnce s p := by
  intro stale
  obtain ⟨hid, hlt⟩ := h.inRange p hp
  have hgone : p ∉ (released s p).blocks := fun hmem => (h.nodup.mem_erase_iff.mp hmem).1 rfl
  rw [h.free_live hp]
  refine ⟨rfl, fun stale' => ?_, fun malloc hmalloc => ?_⟩
  · rw [(h.release hp).free_dead hgone]
    exact iommuErrEnodev_ne
  · have hfree : (released s p).table (s.idOf p) = none := Function.update_self ..
    obtain ⟨q, hq⟩ := Option.ne_none_iff_exists'.mp hmalloc
    simp only at hq
    rw [IoasidState.ioasidAllocId, if_neg (not_outOfRange hid hlt), if_neg (not_not.mpr hfree), hq]
    nofun

theorem find_live (h : TableInv s) (hp : p ∈ s.blocks) : s.ioasidFind (s.idOf p) = some p := by
  obtain ⟨hid, hlt⟩ := h.inRange p hp
  rw [IoasidState.ioasidFind, if_neg (not_outOfRange hid hlt)]
  exact (h.entry _ p).mpr ⟨hp, rfl⟩

end TableInv

theorem IoasidInv.law {x : List Addr × IoasidState} (h : IoasidInv x) : IoasidLaw x := by
  obtain ⟨live, s⟩ := x
  obtain rfl : live = s.blocks := h.live
  refine ⟨?_, fun p hp => ?_, fun p hp => h.table.find_live hp, fun p hp => h.table.freedOnce hp⟩
  · refine List.Nodup.map_on (fun p hp q hq heq => ?_) h.table.nodup
    have hentry := (h.table.entry (s.idOf p) p).mpr ⟨hp, rfl⟩
    rw [(h.table.entry (s.idOf p) q).mpr ⟨hq, heq.symm⟩] at hentry
    exact (Option.some.inj hentry).symm
  · exact Nat.ne_of_gt (h.table.inRange p hp).1

/-! ### Runs -/

section Steps

variable {live : List Addr} {s : IoasidState} {malloc : Malloc} {p : Addr}

/-- The last id is the next one exactly when the way round the table ends there. -/
theorem lastIsNext_iff (h : TableInv s) :
    LastIsNext s ↔ FirstFree idLimit s.next (fun id => s.table id ≠ none) (idLimit - s.next) := by
  have hpos := h.next_pos
  have hle := h.next_le
  have hlast : slotFrom idLimit s.next (idLimit - s.next) = idLimit :=
    (slotFrom_eq_last_iff hpos hle (by omega)).mpr rfl
  constructor
  · intro ⟨hfree, htaken⟩
    refine ⟨by omega, ?_, fun i hi => ?_⟩
    · rw [hlast, hfree]
      exact fun hc => hc rfl
    · rw [slotFrom_of_le hpos (by omega)]
      exact htaken (s.next + i) (by omega) (by omega)
  · intro hfirst
    refine ⟨not_not.mp (hlast ▸ hfirst.free), fun id hid hlt => ?_⟩
    have hbefore := hfirst.before (id - s.next) (by omega)
    rw [slotFrom_of_le hpos (by omega)] at hbefore
    rwa [show s.next + (id - s.next) = id by omega] at hbefore

/-- With a block, an allocation takes the first free id on the way round. -/
theorem ioasidAlloc_some (h : TableInv s) (hmalloc : malloc.run s.blocks = some p) :
    ∃ j, FirstFree idLimit s.next (fun id => s.table id ≠ none) j ∧
      s.ioasidAlloc malloc =
        (some p, IoasidState.taken { s with blocks := p :: s.blocks } p s.next j) := by
  have hround := IoasidState.allocLoop_spec (p := p) h.next_pos h.next_le 0xFFFF 0
    { s with blocks := p :: s.blocks } rfl (slotFrom_zero h.next_pos h.next_le).symm
  rw [IoasidState.ioasidAlloc, hmalloc]
  rcases hround with ⟨j, -, hj, hfree, hbefore, heq⟩ | ⟨hall, -⟩
  · exact ⟨j, ⟨hj, not_not.mpr hfree, fun i hi => hbefore i (Nat.zero_le i) hi⟩, heq⟩
  · -- the last id is free
    obtain ⟨j, hj, hlast⟩ := exists_slotFrom h.next_pos h.next_le (c := idLimit) (by decide) le_rfl
    have htaken := hall j (Nat.zero_le j) hj
    rw [hlast] at htaken
    exact absurd h.last_free htaken

theorem ioasidAlloc_none (hmalloc : malloc.run s.blocks = none) :
    s.ioasidAlloc malloc = (none, s) := by
  rw [IoasidState.ioasidAlloc, hmalloc]

theorem ioasidInv_alloc (h : IoasidInv (live, s)) (hG : ioasidGuard (live, s) (.alloc malloc)) :
    IoasidInv (observedIoasid (live, s) (.alloc malloc)) := by
  show IoasidInv ((s.ioasidAlloc malloc).1.toList ++ live, (s.ioasidAlloc malloc).2)
  cases hmalloc : malloc.run s.blocks with
  | none =>
    rw [ioasidAlloc_none hmalloc]
    exact h
  | some p =>
    obtain ⟨j, hfirst, heq⟩ := ioasidAlloc_some h.table hmalloc
    have hid : slotFrom idLimit s.next j ≤ idLimit := slotFrom_le (by decide)
    have hlt : slotFrom idLimit s.next j < idLimit := by
      refine Nat.lt_of_le_of_ne hid fun hlast => ?_
      have hj := (slotFrom_eq_last_iff h.table.next_pos h.table.next_le hfirst.lt).mp hlast
      refine hG.2 (by rw [hmalloc]; nofun) ((lastIsNext_iff h.table).mpr ?_)
      exact hj ▸ hfirst
    rw [heq]
    refine ⟨congrArg (p :: ·) h.live, ?_⟩
    exact h.table.record (malloc.fresh _ p hmalloc) slotFrom_pos hlt (not_not.mp hfirst.free)
      slotFrom_pos (slotFrom_le (by decide))

theorem ioasidInv_allocId (h : IoasidInv (live, s)) (malloc : Malloc) (id : ℕ) :
    IoasidInv (observedIoasid (live, s) (.allocId malloc id)) := by
  show IoasidInv ((s.ioasidAllocId malloc id).1.toList ++ live, (s.ioasidAllocId malloc id).2)
  rw [IoasidState.ioasidAllocId]
  split_ifs with hrange hfree
  · exact h
  · exact h
  · cases hmalloc : malloc.run s.blocks with
    | none => exact h
    | some p =>
      refine ⟨congrArg (p :: ·) h.live, ?_⟩
      exact h.table.record (malloc.fresh _ p hmalloc) (by omega) (by omega) (not_not.mp hfree)
        h.table.next_pos h.table.next_le

theorem ioasidInv_free (h : IoasidInv (live, s)) (ioasid : Option Addr) (stale : ℕ) :
    IoasidInv (observedIoasid (live, s) (.free ioasid stale)) := by
  cases ioasid with
  | none => exact h
  | some p =>
    show IoasidInv (if (s.ioasidFree (some p) stale).1 = iommuErrOk then live.erase p else live,
      (s.ioasidFree (some p) stale).2)
    by_cases hp : p ∈ s.blocks
    · rw [h.table.free_live hp, if_pos rfl]
      exact ⟨congrArg (List.erase · p) h.live, h.table.release hp⟩
    · rw [h.table.free_dead hp, if_neg iommuErrEnodev_ne]
      exact h

theorem ioasidInv_start : IoasidInv ioasidStart where
  live := rfl
  table :=
    { nodup := List.nodup_nil
      next_pos := Nat.one_pos
      next_le := by decide
      entry := fun id p => iff_of_false nofun fun hc => absurd hc.1 List.not_mem_nil
      inRange := fun p hp => absurd hp List.not_mem_nil }

end Steps

theorem ioasidInv_step (x : List Addr × IoasidState) (op : IoasidOp) (h : IoasidInv x)
    (hG : ioasidGuard x op) : IoasidInv (observedIoasid x op) := by
  cases op with
  | alloc malloc => exact ioasidInv_alloc h hG
  | allocId malloc id => exact ioasidInv_allocId h malloc id
  | free ioasid stale => exact ioasidInv_free h ioasid stale

theorem allocLaw_of_guard (x : List Addr × IoasidState) (op : IoasidOp) (h : IoasidInv x)
    (hG : ioasidGuard x op) : AllocLaw x op := by
  cases op with
  | alloc malloc =>
    intro hnone
    cases hmalloc : malloc.run x.2.blocks with
    | none => exact hG.1 hmalloc
    | some p =>
      obtain ⟨j, -, heq⟩ := ioasidAlloc_some h.table hmalloc
      rw [heq] at hnone
      cases hnone
  | allocId malloc id => trivial
  | free ioasid stale => trivial

/-- A step that keeps the law meets the condition. -/
theorem ioasidGuard_of_law (x : List Addr × IoasidState) (op : IoasidOp) (h : IoasidInv x)
    (hnext : IoasidLaw (observedIoasid x op)) (halloc : AllocLaw x op) : ioasidGuard x op := by
  cases op with
  | alloc malloc =>
    refine ⟨fun hmalloc => halloc (by rw [ioasidAlloc_none hmalloc]), fun hmalloc hlast => ?_⟩
    obtain ⟨p, hp⟩ := Option.ne_none_iff_exists'.mp hmalloc
    obtain ⟨j, hfirst, heq⟩ := ioasidAlloc_some h.table hp
    have hj := hfirst.unique ((lastIsNext_iff h.table).mp hlast)
    have hslot := (slotFrom_eq_last_iff h.table.next_pos h.table.next_le hfirst.lt).mpr hj
    -- the new IOASID has the last id, and is not found
    have hfound := hnext.found p
    have hstep : observedIoasid x (.alloc malloc) =
        (p :: x.1, IoasidState.taken { x.2 with blocks := p :: x.2.blocks } p x.2.next j) := by
      show (_, _) = _
      rw [noteIoasid, IoasidState.step, heq]
      rfl
    rw [hstep] at hfound
    have hidOf : (IoasidState.taken { x.2 with blocks := p :: x.2.blocks } p x.2.next j).idOf p =
        idLimit := (Function.update_self ..).trans hslot
    have hnone := hfound List.mem_cons_self
    rw [hidOf] at hnone
    exact absurd hnone nofun
  | allocId malloc id => trivial
  | free ioasid stale => trivial

/-- **IOASIDs.**  Along a run the live IOASIDs have ids of their own, are found, and can be freed
once, and an allocation fails only when no id is left, exactly when memory does not run out before
the ids, and no allocation finds the last id next. -/
theorem ioasid_lifecycle_iff (ops : List IoasidOp) :
    (Always observedIoasid IoasidLaw ioasidStart ops ∧
        Guarded observedIoasid AllocLaw ioasidStart ops) ↔
      Guarded observedIoasid ioasidGuard ioasidStart ops :=
  always_guarded_iff ioasidInv_step (fun _ h => h.law) allocLaw_of_guard ioasidGuard_of_law ops
    ioasidInv_start

/-! ### The last id -/

/-- Each block lies behind the blocks in use. -/
def behind : Malloc where
  run blocks := some (blocks.max?.getD 0 + 16)
  fresh blocks p hp := by
    obtain rfl := Option.some.inj hp
    intro hmem
    have hle := List.le_max?_getD_of_mem (k := 0) hmem
    omega

/-- The ids from the cursor on are free. -/
structure Ascending (s : IoasidState) (k : ℕ) : Prop where
  next : s.next = k + 1
  free : ∀ id, k < id → s.table id = none

theorem Ascending.alloc {s : IoasidState} {k : ℕ} (h : Ascending s k) (hinv : TableInv s)
    (hk : k + 1 < idLimit) : Ascending (s.step (.alloc behind)) (k + 1) := by
  have hmalloc : behind.run s.blocks = some _ := rfl
  obtain ⟨j, hfirst, heq⟩ := ioasidAlloc_some hinv hmalloc
  have hhere : FirstFree idLimit s.next (fun id => s.table id ≠ none) 0 := by
    refine ⟨by decide, ?_, fun i hi => absurd hi (Nat.not_lt_zero i)⟩
    rw [slotFrom_zero hinv.next_pos hinv.next_le, h.next]
    exact not_not.mpr (h.free (k + 1) (Nat.lt_succ_self k))
  obtain rfl := hfirst.unique hhere
  have hpos := hinv.next_pos
  have hnext := h.next
  rw [IoasidState.step, heq]
  constructor
  · show slotFrom idLimit s.next 1 = k + 1 + 1
    rw [slotFrom_of_le hpos (by omega), hnext]
  · intro id hid
    show Function.update s.table (slotFrom idLimit s.next 0) _ id = none
    rw [slotFrom_zero hpos hinv.next_le, Function.update_of_ne (by omega)]
    exact h.free id (by omega)

/-- Allocation after allocation the cursor comes to the last id. -/
theorem not_guarded_ascending (n : ℕ) : ∀ (k : ℕ) (x : List Addr × IoasidState), n + k = 0xFFFE →
    IoasidInv x → Ascending x.2 k →
      ¬Guarded observedIoasid ioasidGuard x (List.replicate (n + 1) (.alloc behind)) := by
  induction n with
  | zero =>
    intro k x hk hinv hasc hguarded
    have hnext := hasc.next
    refine hguarded.1.2 nofun ⟨hasc.free idLimit ?_, fun id hid hlt => ?_⟩
    · show k < 0xFFFF
      omega
    · have hlimit : id < 0xFFFF := hlt
      omega
  | succ n ih =>
    intro k x hk hinv hasc hguarded
    have hroom : k + 1 < idLimit := by
      show k + 1 < 0xFFFF
      omega
    exact ih (k + 1) _ (by omega) (ioasidInv_step x _ hinv hguarded.1)
      (hasc.alloc hinv.table hroom) hguarded.2

/-- The 65535th allocation in a row hands out an id that is not found. -/
theorem ioasid_lifecycle_fails :
    ¬∀ ops : List IoasidOp,
      Always observedIoasid IoasidLaw ioasidStart ops ∧
        Guarded observedIoasid AllocLaw ioasidStart ops := by
  intro h
  have hguarded := (always_guarded_iff ioasidInv_step (fun _ h => h.law) allocLaw_of_guard
    ioasidGuard_of_law _ ioasidInv_start).mp (h (List.replicate (0xFFFE + 1) (.alloc behind)))
  exact not_guarded_ascending 0xFFFE 0 ioasidStart rfl ioasidInv_start ⟨rfl, fun _ _ => rfl⟩
    hguarded

end UsrLinuxEmu.Iommu
