import Mathlib.Tactic.SplitIfs
import UsrLinuxEmu.Heap.RefHeap

/-!
# Threads that hold pointers into a heap

Blocks belong to a shared table or to a thread that is about to enter or to free them.  Other
threads may use a block that they looked up in the table, although it is not theirs.

* `setPc` — a thread goes on or ends; `held` — what the threads own;
* `BorrowsLive` — nothing has gone wrong, and what the threads use is allocated;
* `Holdings` — the heap belongs to the table and the threads, every block once;
* `Holdings.keep`, `Holdings.write`, `Holdings.alloc`, `Holdings.enter`, `Holdings.take`,
  `Holdings.release` — one rule for each kind of step;
* `Holdings.unused_of_release` — a block is freed safely only if nobody uses it;
* `Outlives` — the heap on which nothing is ever freed, and what it has in common with the real one.
-/

namespace UsrLinuxEmu.Heap

variable {β π : Type*}

/-! ### Threads -/

/-- The thread goes on at a place, or ends. -/
def setPc (pcs : AList fun _ : ℕ => π) (t : ℕ) : Option π → AList fun _ : ℕ => π
  | none => pcs.erase t
  | some pc => pcs.insert t pc

theorem lookup_setPc_self (pcs : AList fun _ : ℕ => π) (t : ℕ) (pc : Option π) :
    (setPc pcs t pc).lookup t = pc := by
  cases pc with
  | none => exact AList.lookup_erase t pcs
  | some pc => exact AList.lookup_insert pcs

theorem lookup_setPc_of_ne {pcs : AList fun _ : ℕ => π} {t u : ℕ} (pc : Option π) (hu : u ≠ t) :
    (setPc pcs t pc).lookup u = pcs.lookup u := by
  cases pc with
  | none => exact AList.lookup_erase_ne hu
  | some pc => exact AList.lookup_insert_ne hu

section Holdings

variable (own use : π → Option ℕ)

/-- What a thread at a place owns. -/
def share (pc : Option π) : Multiset ℕ := (pc.bind own).toList

/-- What the threads own. -/
def held (pcs : AList fun _ : ℕ => π) : Multiset ℕ :=
  tableOwners (fun pc => share own (some pc)) pcs

theorem held_eq (pcs : AList fun _ : ℕ => π) (t : ℕ) :
    held own pcs = share own (pcs.lookup t) + held own (pcs.erase t) := by
  cases ht : pcs.lookup t with
  | none =>
    rw [held, held, tableOwners_erase_of_notMem _ _ (AList.lookup_eq_none.mp ht)]
    exact (zero_add _).symm
  | some pc => exact tableOwners_of_lookup _ _ ht

theorem held_setPc (pcs : AList fun _ : ℕ => π) (t : ℕ) (pc : Option π) :
    held own (setPc pcs t pc) = share own pc + held own (pcs.erase t) := by
  cases pc with
  | none => exact (zero_add _).symm
  | some pc => exact tableOwners_insert _ _ t pc

/-- No access has missed, and what the threads use is allocated. -/
structure BorrowsLive (heap : RefHeap β) (pcs : AList fun _ : ℕ => π) : Prop where
  noFault : heap.fault = false
  live : ∀ t pc, pcs.lookup t = some pc → ∀ p ∈ use pc, (heap.block p).isSome = true

/-- No other thread uses the block. -/
def Unused (pcs : AList fun _ : ℕ => π) (t p : ℕ) : Prop :=
  ∀ u pc, u ≠ t → pcs.lookup u = some pc → p ∉ use pc

/-- The blocks belong to the table or to a thread, each once, and what is used is there. -/
structure Holdings (heap : RefHeap β) (table : Multiset ℕ) (pcs : AList fun _ : ℕ => π) :
    Prop where
  accounts : heap.Accounts (table + held own pcs)
  single : (table + held own pcs).Nodup
  live : ∀ t pc, pcs.lookup t = some pc → ∀ p ∈ use pc, (heap.block p).isSome = true

variable {own use} {heap : RefHeap β} {table : Multiset ℕ} {pcs : AList fun _ : ℕ => π} {t p : ℕ}
  {pc : Option π}

namespace Holdings

theorem empty : Holdings own use (RefHeap.empty : RefHeap β) 0 ∅ where
  accounts := RefHeap.Accounts.empty
  single := Multiset.nodup_zero
  live := nofun

theorem borrowsLive (h : Holdings own use heap table pcs) : BorrowsLive use heap pcs :=
  ⟨h.accounts.noFault, h.live⟩

/-- **One thread moves.**  The heap has the new owners, and what the others use has stayed. -/
theorem step {heap' : RefHeap β} {table' : Multiset ℕ} (h : Holdings own use heap table pcs)
    (pc' : Option π)
    (haccounts : heap'.Accounts (table' + (share own pc' + held own (pcs.erase t))))
    (hsingle : (table' + (share own pc' + held own (pcs.erase t))).Nodup)
    (hothers : ∀ u pc, u ≠ t → pcs.lookup u = some pc → ∀ p ∈ use pc,
      (heap.block p).isSome = true → (heap'.block p).isSome = true)
    (hmine : ∀ p ∈ pc'.bind use, (heap'.block p).isSome = true) :
    Holdings own use heap' table' (setPc pcs t pc') where
  accounts := by
    rw [held_setPc]
    exact haccounts
  single := by
    rw [held_setPc]
    exact hsingle
  live := by
    intro u pcu hu p hp
    by_cases hut : u = t
    · subst hut
      rw [lookup_setPc_self] at hu
      exact hmine p (by rw [hu]; exact hp)
    · rw [lookup_setPc_of_ne pc' hut] at hu
      exact hothers u pcu hut hu p hp (h.live u pcu hu p hp)

/-- The owners, with the thread's share in front. -/
theorem owners_eq (hpc : pcs.lookup t = pc) :
    table + held own pcs = table + (share own pc + held own (pcs.erase t)) := by
  rw [held_eq own pcs t, hpc]

/-- A thread goes on with what it owns. -/
theorem keep (h : Holdings own use heap table pcs) (hpc : pcs.lookup t = pc) (pc' : Option π)
    (hown : share own pc' = share own pc)
    (hmine : ∀ p ∈ pc'.bind use, (heap.block p).isSome = true) :
    Holdings own use heap table (setPc pcs t pc') := by
  have haccounts := h.accounts
  have hsingle := h.single
  rw [owners_eq hpc, ← hown] at haccounts hsingle
  exact h.step pc' haccounts hsingle (fun _ _ _ _ _ _ hlive => hlive) hmine

theorem isSome_write (hp : (heap.block p).isSome = true) (f : β → β) (q : ℕ) :
    ((heap.write p f).block q).isSome = (heap.block q).isSome := by
  obtain ⟨⟨n, b⟩, hb⟩ := Option.isSome_iff_exists.mp hp
  rw [RefHeap.write, hb]
  show (Function.update heap.block p (some (n, f b)) q).isSome = _
  by_cases hq : q = p
  · subst hq
    rw [Function.update_self, hb]
    rfl
  · rw [Function.update_of_ne hq]

/-- A thread writes to a block that it uses. -/
theorem write (h : Holdings own use heap table pcs) (hpc : pcs.lookup t = pc) (pc' : Option π)
    (hp : p ∈ pc.bind use) (hown : share own pc' = share own pc)
    (huse : ∀ q ∈ pc'.bind use, q = p) (f : β → β) :
    Holdings own use (heap.write p f) table (setPc pcs t pc') := by
  have hlive : (heap.block p).isSome = true := by
    cases pc with
    | none => nomatch hp
    | some pc => exact h.live t pc hpc p hp
  have haccounts := h.accounts.write ((h.accounts.block_isSome_iff p).mp hlive) f
  have hsingle := h.single
  rw [owners_eq hpc, ← hown] at haccounts hsingle
  refine h.step pc' haccounts hsingle ?_ ?_
  · intro u pcu _ _ q _ hq
    rw [isSome_write hlive]
    exact hq
  · intro q hq
    rw [isSome_write hlive, huse q hq]
    exact hlive

/-- A thread that owns nothing makes a block. -/
theorem alloc (h : Holdings own use heap table pcs) (hpc : pcs.lookup t = pc) (pc' : Option π)
    (hnone : share own pc = 0) (b : β) (hown : share own pc' = {heap.next})
    (huse : pc'.bind use = none) :
    Holdings own use (heap.alloc b).2 table (setPc pcs t pc') := by
  have hnot := h.accounts.not_mem_next
  have haccounts := h.accounts.alloc b
  have hsingle := Multiset.nodup_cons.mpr ⟨hnot, h.single⟩
  have hmove : heap.next ::ₘ (table + held own pcs) =
      table + (share own pc' + held own (pcs.erase t)) := by
    rw [owners_eq hpc, hnone, zero_add, hown, Multiset.singleton_add, Multiset.add_cons]
  rw [hmove] at haccounts hsingle
  refine h.step pc' haccounts hsingle ?_ ?_
  · intro u pcu _ _ q _ hq
    show (Function.update heap.block heap.next (some (1, b)) q).isSome = true
    by_cases hqn : q = heap.next
    · subst hqn
      rw [Function.update_self]
      rfl
    · rw [Function.update_of_ne hqn]
      exact hq
  · intro q hq
    rw [huse] at hq
    nomatch hq

/-- A thread enters its block in the table. -/
theorem enter (h : Holdings own use heap table pcs) (hpc : pcs.lookup t = pc) (pc' : Option π)
    (hown : share own pc = {p}) (hnone : share own pc' = 0) (huse : pc'.bind use = none) :
    Holdings own use heap (p ::ₘ table) (setPc pcs t pc') := by
  have haccounts := h.accounts
  have hsingle := h.single
  have hmove : table + held own pcs =
      p ::ₘ table + (share own pc' + held own (pcs.erase t)) := by
    rw [owners_eq hpc, hown, hnone, zero_add, Multiset.singleton_add, Multiset.add_cons,
      Multiset.cons_add]
  rw [hmove] at haccounts hsingle
  refine h.step pc' haccounts hsingle (fun _ _ _ _ _ _ hlive => hlive) ?_
  rw [huse]
  exact nofun

/-- A thread takes a block out of the table, to free it. -/
theorem take (h : Holdings own use heap (p ::ₘ table) pcs) (hpc : pcs.lookup t = pc)
    (pc' : Option π) (hnone : share own pc = 0) (hown : share own pc' = {p})
    (huse : pc'.bind use = none) :
    Holdings own use heap table (setPc pcs t pc') := by
  have haccounts := h.accounts
  have hsingle := h.single
  have hmove : p ::ₘ table + held own pcs =
      table + (share own pc' + held own (pcs.erase t)) := by
    rw [owners_eq hpc, hnone, zero_add, hown, Multiset.singleton_add, Multiset.add_cons,
      Multiset.cons_add]
  rw [hmove] at haccounts hsingle
  refine h.step pc' haccounts hsingle (fun _ _ _ _ _ _ hlive => hlive) ?_
  rw [huse]
  exact nofun

/-- A thread frees its block, which nobody uses. -/
theorem release (h : Holdings own use heap table pcs) (hpc : pcs.lookup t = pc) (pc' : Option π)
    (hown : share own pc = {p}) (hnone : share own pc' = 0) (huse : pc'.bind use = none)
    (hunused : Unused use pcs t p) :
    Holdings own use (heap.release p) table (setPc pcs t pc') := by
  have haccounts := h.accounts
  have hsingle := h.single
  have hmove : table + held own pcs =
      p ::ₘ (table + (share own pc' + held own (pcs.erase t))) := by
    rw [owners_eq hpc, hown, hnone, zero_add, Multiset.singleton_add, Multiset.add_cons]
  rw [hmove] at haccounts hsingle
  have hafter := haccounts.release
  refine h.step pc' hafter (Multiset.nodup_cons.mp hsingle).2 ?_ ?_
  · intro u pcu hu hlookup q hq hlive
    have hqp : q ≠ p := fun heq => hunused u pcu hu hlookup (heq ▸ hq)
    have hmem := (haccounts.block_isSome_iff q).mp hlive
    exact (hafter.block_isSome_iff q).mpr ((Multiset.mem_cons.mp hmem).resolve_left hqp)
  · rw [huse]
    exact nofun

/-- After a release that leaves what is used in place, nobody used the block. -/
theorem unused_of_release (h : Holdings own use heap table pcs) (hpc : pcs.lookup t = pc)
    (pc' : Option π) (hown : share own pc = {p})
    (hsafe : BorrowsLive use (heap.release p) (setPc pcs t pc')) :
    Unused use pcs t p := by
  intro u pcu hu hlookup hp
  have haccounts := h.accounts
  have hsingle := h.single
  rw [owners_eq hpc, hown, Multiset.singleton_add, Multiset.add_cons] at haccounts hsingle
  have hlive := hsafe.live u pcu (by rw [lookup_setPc_of_ne pc' hu, hlookup]) p hp
  exact (Multiset.nodup_cons.mp hsingle).1 ((haccounts.release.block_isSome_iff p).mp hlive)

end Holdings

end Holdings

/-! ### A heap on which nothing is freed -/

/-- What is allocated has the same contents on the other heap, where more may be allocated. -/
structure Outlives (heap' heap : RefHeap β) : Prop where
  next : heap'.next = heap.next
  read : ∀ p, (heap.block p).isSome = true → heap'.read p = heap.read p

namespace Outlives

variable {heap heap' : RefHeap β} {p : ℕ}

theorem refl (heap : RefHeap β) : Outlives heap heap := ⟨rfl, fun _ _ => rfl⟩

theorem alloc (h : Outlives heap' heap) (b : β) :
    Outlives (heap'.alloc b).2 (heap.alloc b).2 where
  next := congrArg (· + 1) h.next
  read := by
    intro q hq
    rw [RefHeap.read_alloc, RefHeap.read_alloc, h.next]
    split_ifs with hqn
    · rfl
    · refine h.read q ?_
      have hblock : (heap.alloc b).2.block q = heap.block q := Function.update_of_ne hqn _ _
      rw [← hblock]
      exact hq

theorem write (h : Outlives heap' heap) (hp : (heap.block p).isSome = true) (f : β → β) :
    Outlives (heap'.write p f) (heap.write p f) where
  next := by
    have hnext (g : RefHeap β) : (g.write p f).next = g.next := by
      rw [RefHeap.write]
      split <;> rfl
    rw [hnext, hnext, h.next]
  read := by
    intro q hq
    rw [Holdings.isSome_write hp] at hq
    rw [RefHeap.read_write, RefHeap.read_write, h.read q hq]

/-- An access changes no contents. -/
theorem access (h : Outlives heap' heap) (p : ℕ) : Outlives (heap'.access p) (heap.access p) := by
  have hnext (g : RefHeap β) : (g.access p).next = g.next := by
    rw [RefHeap.access]
    split_ifs <;> rfl
  have hblock (g : RefHeap β) : (g.access p).block = g.block := by
    rw [RefHeap.access]
    split_ifs <;> rfl
  refine ⟨by rw [hnext, hnext, h.next], fun q hq => ?_⟩
  rw [hblock] at hq
  rw [RefHeap.read, RefHeap.read, hblock, hblock]
  exact h.read q hq

/-- What a release leaves was there before, with the same contents. -/
theorem of_release {q : ℕ} (hq : ((heap.release p).block q).isSome = true) :
    (heap.block q).isSome = true ∧ (heap.release p).read q = heap.read q := by
  by_cases hqp : q = p
  · subst hqp
    cases hb : heap.block q with
    | none =>
      rw [RefHeap.release, hb] at hq
      change (heap.block q).isSome = true at hq
      rw [hb] at hq
      exact absurd hq Bool.false_ne_true
    | some cell =>
      obtain ⟨n, b⟩ := cell
      have hblock : (heap.release q).block q = if n ≤ 1 then none else some (n - 1, b) := by
        rw [RefHeap.release, hb]
        exact Function.update_self ..
      rw [hblock] at hq
      rw [RefHeap.read, RefHeap.read, hblock, hb]
      by_cases hn : n ≤ 1
      · rw [if_pos hn] at hq
        exact absurd hq Bool.false_ne_true
      · rw [if_neg hn]
        exact ⟨rfl, rfl⟩
  · refine ⟨?_, RefHeap.read_release_of_ne heap hqp⟩
    have hread := congrArg Option.isSome (RefHeap.read_release_of_ne heap hqp)
    rw [RefHeap.read, RefHeap.read, Option.isSome_map, Option.isSome_map] at hread
    rw [← hread]
    exact hq

/-- The other heap keeps what is freed. -/
theorem release (h : Outlives heap' heap) : Outlives heap' (heap.release p) where
  next := by
    rw [h.next, RefHeap.release]
    split <;> rfl
  read := by
    intro q hq
    obtain ⟨hlive, hread⟩ := of_release hq
    rw [h.read q hlive, hread]

end Outlives

end UsrLinuxEmu.Heap
