import Mathlib.Algebra.Order.Ring.Nat
import Mathlib.Data.List.AList
import Mathlib.Data.Multiset.AddSub
import Mathlib.Data.Multiset.Bind
import Mathlib.Data.Multiset.Count
import Mathlib.Logic.Function.Basic

/-!
# A reference-counted heap and who owns its blocks

Addresses are never handed out twice, so that an access through a stale pointer stays
recognisable: it sets `fault`.

* `RefHeap` — the heap, with `alloc`, `read`, `access`, `write` and `release`;
* `Accounts` — no access has gone wrong, and the reference count of every block is the number of
  times that the owners hold it;
* `Accounts.alloc`, `Accounts.release`, `Accounts.releaseAll` — one rule for
  each operation: what it does to the multiset of owners;
* `tableOwners` — what the values of an association list own together.
-/

namespace UsrLinuxEmu.Heap

variable {β : Type*}

/-- A heap of counted blocks. -/
structure RefHeap (β : Type*) where
  /-- The next address. -/
  next : ℕ
  /-- The blocks that are allocated, each with its reference count. -/
  block : ℕ → Option (ℕ × β)
  /-- Some access has missed. -/
  fault : Bool

namespace RefHeap

/-! ### Operations -/

def empty : RefHeap β := ⟨0, fun _ => none, false⟩

def alloc (h : RefHeap β) (b : β) : ℕ × RefHeap β :=
  (h.next, { h with next := h.next + 1, block := Function.update h.block h.next (some (1, b)) })

/-- The contents of a block. -/
def read (h : RefHeap β) (p : ℕ) : Option β := (h.block p).map Prod.snd

def failed (h : RefHeap β) : RefHeap β := { h with fault := true }

/-- An access that reads a block. -/
def access (h : RefHeap β) (p : ℕ) : RefHeap β := if (h.block p).isSome then h else h.failed

def write (h : RefHeap β) (p : ℕ) (f : β → β) : RefHeap β :=
  match h.block p with
  | none => h.failed
  | some (n, b) => { h with block := Function.update h.block p (some (n, f b)) }

/-- The last reference frees the block; a block that is allocated has at least one. -/
def release (h : RefHeap β) (p : ℕ) : RefHeap β :=
  match h.block p with
  | none => h.failed
  | some (n, b) =>
    { h with block := Function.update h.block p (if n ≤ 1 then none else some (n - 1, b)) }

/-- Several references are dropped, one after the other. -/
def releaseAll (h : RefHeap β) (ps : List ℕ) : RefHeap β := ps.foldl release h

@[simp] theorem releaseAll_nil (h : RefHeap β) : h.releaseAll [] = h := rfl

@[simp] theorem releaseAll_cons (h : RefHeap β) (p : ℕ) (ps : List ℕ) :
    h.releaseAll (p :: ps) = (h.release p).releaseAll ps := rfl

@[simp] theorem fst_alloc (h : RefHeap β) (b : β) : (h.alloc b).1 = h.next := rfl

/-! ### Contents -/

theorem read_alloc (h : RefHeap β) (b : β) (p : ℕ) :
    (h.alloc b).2.read p = if p = h.next then some b else h.read p := by
  show (Function.update h.block h.next (some (1, b)) p).map Prod.snd = _
  rw [Function.update_apply]
  split_ifs <;> rfl

theorem read_write (h : RefHeap β) (p q : ℕ) (f : β → β) :
    (h.write p f).read q = if q = p then (h.read q).map f else h.read q := by
  rw [write]
  split
  · rename_i hp
    split_ifs with hq
    · subst hq
      simp [read, failed, hp]
    · rfl
  · rename_i n b hp
    show (Function.update h.block p (some (n, f b)) q).map Prod.snd = _
    rw [Function.update_apply]
    split_ifs with hq
    · subst hq
      simp [read, hp]
    · rfl

theorem read_release_of_ne (h : RefHeap β) {p q : ℕ} (hq : q ≠ p) :
    (h.release p).read q = h.read q := by
  rw [release]
  split
  · rfl
  · show (Function.update h.block p _ q).map Prod.snd = _
    rw [Function.update_of_ne hq]
    rfl

theorem read_releaseAll_of_not_mem (h : RefHeap β) {ps : List ℕ} {q : ℕ} (hq : q ∉ ps) :
    (h.releaseAll ps).read q = h.read q := by
  induction ps generalizing h with
  | nil => rfl
  | cons p ps ih =>
    rw [List.mem_cons, not_or] at hq
    rw [releaseAll_cons, ih _ hq.2, read_release_of_ne h hq.1]

/-! ### Accounting -/

/-- The reference count of a cell is `k`; a cell that is free has none. -/
def CellCounts (cell : Option (ℕ × β)) (k : ℕ) : Prop :=
  match cell with
  | none => k = 0
  | some (n, _) => 0 < n ∧ n = k

/-- No access has missed, and every reference is one of the owners'. -/
structure Accounts (h : RefHeap β) (owners : Multiset ℕ) : Prop where
  noFault : h.fault = false
  fresh : ∀ p, h.next ≤ p → h.block p = none
  counted : ∀ p, CellCounts (h.block p) (owners.count p)

namespace Accounts

variable {h : RefHeap β} {owners : Multiset ℕ} {p : ℕ}

theorem empty : (RefHeap.empty : RefHeap β).Accounts 0 where
  noFault := rfl
  fresh := fun _ _ => rfl
  counted := fun p => Multiset.count_zero p

/-- What an owner holds is allocated. -/
theorem block_of_mem (hA : h.Accounts owners) (hp : p ∈ owners) :
    ∃ b, h.block p = some (owners.count p, b) := by
  have hcount := hA.counted p
  have hpos := Multiset.count_pos.mpr hp
  cases hb : h.block p with
  | none =>
    rw [hb] at hcount
    exact absurd hcount (Nat.ne_of_gt hpos)
  | some cell =>
    rw [hb] at hcount
    exact ⟨cell.2, by rw [← hcount.2]⟩

/-- What is allocated has an owner. -/
theorem block_isSome_iff (hA : h.Accounts owners) (p : ℕ) :
    (h.block p).isSome ↔ p ∈ owners := by
  have hcount := hA.counted p
  rw [← Multiset.count_pos]
  cases hb : h.block p with
  | none =>
    rw [hb] at hcount
    exact iff_of_false Bool.false_ne_true (Nat.not_lt.mpr (Nat.le_of_eq hcount))
  | some cell =>
    rw [hb] at hcount
    exact iff_of_true rfl (hcount.2 ▸ hcount.1)

theorem lt_next (hA : h.Accounts owners) (hp : p ∈ owners) : p < h.next := by
  by_contra hge
  have hsome := (hA.block_isSome_iff p).mpr hp
  rw [hA.fresh p (Nat.le_of_not_lt hge)] at hsome
  exact Bool.false_ne_true hsome

theorem not_mem_next (hA : h.Accounts owners) : h.next ∉ owners :=
  fun hmem => Nat.lt_irrefl _ (hA.lt_next hmem)

/-- The caller of an allocation owns the new block. -/
theorem alloc (hA : h.Accounts owners) (b : β) :
    (h.alloc b).2.Accounts (h.next ::ₘ owners) where
  noFault := hA.noFault
  fresh := by
    intro p hp
    show Function.update h.block h.next (some (1, b)) p = none
    rw [Function.update_of_ne (Nat.ne_of_gt hp)]
    exact hA.fresh p (Nat.le_of_succ_le hp)
  counted := by
    intro p
    show CellCounts (Function.update h.block h.next (some (1, b)) p) _
    by_cases hp : p = h.next
    · subst hp
      rw [Function.update_self, Multiset.count_cons_self,
        Multiset.count_eq_zero.mpr hA.not_mem_next]
      exact ⟨Nat.one_pos, rfl⟩
    · rw [Function.update_of_ne hp, Multiset.count_cons_of_ne hp]
      exact hA.counted p

/-- Accounting after the count of one block has changed. -/
theorem update (hA : h.Accounts owners) {owners' : Multiset ℕ} (hp : p ∈ owners)
    (hother : ∀ q, q ≠ p → owners'.count q = owners.count q) {cell : Option (ℕ × β)}
    (hcell : CellCounts cell (owners'.count p)) :
    ({ h with block := Function.update h.block p cell } : RefHeap β).Accounts owners' where
  noFault := hA.noFault
  fresh := by
    intro q hq
    have hne : q ≠ p := Nat.ne_of_gt (lt_of_lt_of_le (hA.lt_next hp) hq)
    show Function.update h.block p cell q = none
    rw [Function.update_of_ne hne]
    exact hA.fresh q hq
  counted := by
    intro q
    show CellCounts (Function.update h.block p cell q) _
    by_cases hq : q = p
    · subst hq
      rw [Function.update_self]
      exact hcell
    · rw [Function.update_of_ne hq, hother q hq]
      exact hA.counted q

theorem access (hA : h.Accounts owners) (hp : p ∈ owners) : h.access p = h :=
  if_pos ((hA.block_isSome_iff p).mpr hp)

theorem write (hA : h.Accounts owners) (hp : p ∈ owners) (f : β → β) :
    (h.write p f).Accounts owners := by
  obtain ⟨b, hb⟩ := hA.block_of_mem hp
  rw [RefHeap.write, hb]
  exact hA.update hp (fun _ _ => rfl) ⟨Multiset.count_pos.mpr hp, rfl⟩

/-- An owner that releases its reference owns it no longer; the last one frees the block. -/
theorem release (hA : h.Accounts (p ::ₘ owners)) : (h.release p).Accounts owners := by
  have hp : p ∈ p ::ₘ owners := Multiset.mem_cons_self p owners
  obtain ⟨b, hb⟩ := hA.block_of_mem hp
  rw [RefHeap.release, hb]
  refine hA.update hp (fun q hq => (Multiset.count_cons_of_ne hq _).symm) ?_
  rw [Multiset.count_cons_self]
  by_cases hlast : p ∈ owners
  · have hpos := Multiset.count_pos.mpr hlast
    rw [if_neg (by omega)]
    exact ⟨by omega, by omega⟩
  · rw [Multiset.count_eq_zero.mpr hlast]
    exact rfl

theorem releaseAll {ps : List ℕ} (hA : h.Accounts ((ps : Multiset ℕ) + owners)) :
    (h.releaseAll ps).Accounts owners := by
  induction ps generalizing h with
  | nil => simpa using hA
  | cons p ps ih =>
    rw [← Multiset.cons_coe, Multiset.cons_add] at hA
    exact ih hA.release

end Accounts

end RefHeap

/-! ### Owners kept in a table -/

section Table

variable {κ ν : Type*} [DecidableEq κ] (own : ν → Multiset ℕ) (t : AList fun _ : κ => ν)
  {k : κ} {v : ν}

/-- What the values of a table own together. -/
def tableOwners : Multiset ℕ := (t.entries : Multiset (Σ _ : κ, ν)).bind fun e => own e.2

theorem tableOwners_insert (k : κ) (v : ν) :
    tableOwners own (t.insert k v) = own v + tableOwners own (t.erase k) := by
  rw [tableOwners, AList.entries_insert, ← Multiset.cons_coe, Multiset.cons_bind]
  rfl

theorem tableOwners_of_lookup (h : t.lookup k = some v) :
    tableOwners own t = own v + tableOwners own (t.erase k) := by
  rw [← tableOwners_insert, tableOwners, tableOwners]
  refine congrArg (Multiset.bind · _) (Multiset.coe_eq_coe.mpr ?_)
  refine List.lookup_ext t.nodupKeys (t.insert k v).nodupKeys fun a b => ?_
  show b ∈ t.lookup a ↔ b ∈ (t.insert k v).lookup a
  by_cases ha : a = k
  · subst ha
    rw [AList.lookup_insert, h]
  · rw [AList.lookup_insert_ne ha]

theorem tableOwners_erase_of_notMem (h : k ∉ t) :
    tableOwners own (t.erase k) = tableOwners own t := by
  have herase : (t.erase k).entries = t.entries := List.kerase_of_notMem_keys h
  rw [tableOwners, tableOwners, herase]

theorem mem_tableOwners {p : ℕ} :
    p ∈ tableOwners own t ↔ ∃ k v, t.lookup k = some v ∧ p ∈ own v := by
  rw [tableOwners, Multiset.mem_bind]
  constructor
  · rintro ⟨⟨k, v⟩, he, hp⟩
    exact ⟨k, v, AList.mem_lookup_iff.mpr he, hp⟩
  · rintro ⟨k, v, hv, hp⟩
    exact ⟨⟨k, v⟩, AList.mem_lookup_iff.mp hv, hp⟩

end Table

end UsrLinuxEmu.Heap
