import Mathlib.Data.List.Infix
import Mathlib.Data.List.Perm.Subperm
import Mathlib.Data.List.Sort
import Mathlib.Logic.Relation

/-!
# Precedence graphs and orders by priority

`R a b` says that `a` needs `b`.  A schedule lists every node behind what it needs, and of the nodes
that could come next it takes one that the priority puts first.

* `Acyclic` / `Grounded` — no node needs itself; every chain of needs ends;
* `Grounded.mem` — what holds each node whose needs it holds, holds every grounded node;
* `Schedule` — a complete order of the nodes, needs first, by priority;
* `countP_mem_eq_length_iff` — counting needs that are done against the length of their list;
* `StdHeap` — the contract of a heap kept in a list, for any comparison.
-/

namespace UsrLinuxEmu.Graph

open Relation

variable {α : Type*} {R : α → α → Prop}

/-! ### Cycles -/

/-- No node needs itself, at once or through others. -/
def Acyclic (R : α → α → Prop) : Prop := ∀ a, ¬TransGen R a a

/-- Every chain of needs that starts at the node ends. -/
def Grounded (R : α → α → Prop) : α → Prop := Acc (Function.swap R)

theorem Grounded.of_needs {a : α} (h : ∀ b, R a b → Grounded R b) : Grounded R a := Acc.intro a h

theorem Grounded.not_cyclic {a : α} (h : Grounded R a) : ¬TransGen R a a := by
  induction h with
  | intro a _ ih =>
    intro hcycle
    obtain ⟨b, hab, hba⟩ := TransGen.head'_iff.mp hcycle
    exact ih b hab (TransGen.tail' hba hab)

theorem Grounded.mem {S : Set α} (hS : ∀ a, (∀ b, R a b → b ∈ S) → a ∈ S) {a : α}
    (h : Grounded R a) : a ∈ S := by
  induction h with
  | intro a _ ih => exact hS a ih

theorem acyclic_of_grounded (h : ∀ a, Grounded R a) : Acyclic R := fun a => (h a).not_cyclic

/-! ### Schedules -/

/-- Everything the node needs is done. -/
def Ready (R : α → α → Prop) (done : List α) (a : α) : Prop := ∀ b, R a b → b ∈ done

/-- The order puts every node behind what it needs. -/
def NeedsFirst (R : α → α → Prop) (order : List α) : Prop :=
  ∀ before a after, order = before ++ a :: after → Ready R before a

/-- No node of the set that is ready and still to come has a smaller key than the next one. -/
def ByPriority (R : α → α → Prop) (key : α → ℕ) (nodes : Set α) (order : List α) : Prop :=
  ∀ before a after, order = before ++ a :: after →
    ∀ b ∈ nodes, b ∉ before → Ready R before b → key a ≤ key b

structure Schedule (R : α → α → Prop) (key : α → ℕ) (nodes order : List α) : Prop where
  perm : order.Perm nodes
  needsFirst : NeedsFirst R order
  byPriority : ByPriority R key {a | a ∈ nodes} order

/-- A property of every split of a list holds of the list with one more element when it holds of the
new split. -/
theorem splits_concat {P : List α → α → Prop} {order : List α} {u : α}
    (h : ∀ before a after, order = before ++ a :: after → P before a) (hu : P order u)
    (before : List α) (a : α) (after : List α) (heq : order ++ [u] = before ++ a :: after) :
    P before a := by
  rcases List.eq_nil_or_concat after with rfl | ⟨rest, c, rfl⟩
  · obtain ⟨rfl, htail⟩ := List.append_inj' heq rfl
    obtain rfl : u = a := List.singleton_inj.mp htail
    exact hu
  · have hsplit : order ++ [u] = (before ++ a :: rest) ++ [c] := by
      rw [heq, List.concat_eq_append, List.append_assoc, List.cons_append]
    exact h before a rest (List.append_inj' hsplit rfl).1

/-! ### Counting needs -/

section Count

variable [DecidableEq α] {done needs : List α}

theorem filter_mem_subperm (hdone : done.Nodup) :
    (done.filter (· ∈ needs)).Subperm needs :=
  (hdone.filter _).subperm fun _ ha => by simpa using (List.mem_filter.mp ha).2

/-- As many needs are done as the list has entries exactly when it repeats none and all are done. -/
theorem countP_mem_eq_length_iff (hdone : done.Nodup) :
    done.countP (· ∈ needs) = needs.length ↔ needs.Nodup ∧ ∀ b ∈ needs, b ∈ done := by
  rw [List.countP_eq_length_filter]
  constructor
  · intro hlen
    have hsub : (done.filter (· ∈ needs)).Subperm needs := filter_mem_subperm hdone
    have hperm := hsub.perm_of_length_le hlen.ge
    refine ⟨hperm.nodup_iff.mp (hdone.filter _), fun b hb => ?_⟩
    exact (List.mem_filter.mp (hperm.mem_iff.mpr hb)).1
  · intro ⟨hneeds, hall⟩
    have hperm : (done.filter (· ∈ needs)).Perm needs := by
      refine (List.perm_ext_iff_of_nodup (hdone.filter _) hneeds).mpr fun b => ?_
      rw [List.mem_filter, decide_eq_true_iff]
      exact ⟨fun h => h.2, fun hb => ⟨hall b hb, hb⟩⟩
    exact hperm.length_eq

end Count

/-! ### Heaps -/

/-- The heap operations on a list, by what they promise: each one rearranges it, and popping moves an
element that no other exceeds to the end. -/
structure StdHeap (less : α → α → Bool) where
  IsHeap : List α → Prop
  makeHeap : List α → List α
  pushHeap : List α → List α
  popHeap : List α → List α
  makeHeap_perm : ∀ l, (makeHeap l).Perm l
  isHeap_makeHeap : ∀ l, IsHeap (makeHeap l)
  pushHeap_perm : ∀ l, (pushHeap l).Perm l
  isHeap_pushHeap : ∀ l a, IsHeap l → IsHeap (pushHeap (l ++ [a]))
  popHeap_perm : ∀ l, (popHeap l).Perm l
  isHeap_popHeap : ∀ l rest a, IsHeap l → popHeap l = rest ++ [a] → IsHeap rest
  popHeap_top : ∀ l rest a, IsHeap l → popHeap l = rest ++ [a] → ∀ b ∈ l, less a b = false

namespace StdHeap

/-- Popping a heap splits it into a heap and an element that no other exceeds. -/
theorem exists_pop {less : α → α → Bool} (h : StdHeap less) {l : List α} (hheap : h.IsHeap l)
    (hne : l ≠ []) : ∃ rest a, h.popHeap l = rest ++ [a] ∧ l.Perm (rest ++ [a]) ∧ h.IsHeap rest ∧
      ∀ b ∈ l, less a b = false := by
  have hpop : h.popHeap l ≠ [] := by
    intro hnil
    have hperm := h.popHeap_perm l
    rw [hnil] at hperm
    exact hne (List.nil_perm.mp hperm)
  obtain ⟨rest, a, heq⟩ := (List.eq_nil_or_concat (h.popHeap l)).resolve_left hpop
  rw [List.concat_eq_append] at heq
  have hperm := h.popHeap_perm l
  rw [heq] at hperm
  exact ⟨rest, a, heq, hperm.symm, h.isHeap_popHeap l rest a hheap heq,
    h.popHeap_top l rest a hheap heq⟩

/-- The order by key, the greater key behind. -/
theorem pairwise_insertionSort (key : α → ℕ) (l : List α) :
    (l.insertionSort fun a b => key a ≤ key b).Pairwise fun a b => key a ≤ key b := by
  have htotal : Std.Total fun a b : α => key a ≤ key b := ⟨fun a b => Nat.le_total _ _⟩
  have htrans : IsTrans α fun a b : α => key a ≤ key b := ⟨fun _ _ _ => Nat.le_trans⟩
  exact List.pairwise_insertionSort _ l

/-- Moving the head of a list to its end splits off the head. -/
theorem rotate_head {l rest : List α} {a : α} (h : l.tail ++ l.head?.toList = rest ++ [a]) :
    l = a :: rest := by
  cases l with
  | nil => exact absurd h.symm (List.append_ne_nil_of_right_ne_nil rest (List.cons_ne_nil a []))
  | cons b tail =>
    obtain ⟨rfl, hhead⟩ := List.append_inj' h rfl
    rw [List.singleton_inj.mp hhead, List.tail_cons]

/-- A heap that is kept sorted by key, its top in front. -/
def sorted (key : α → ℕ) : StdHeap fun a b => decide (key a > key b) where
  IsHeap l := l.Pairwise fun a b => key a ≤ key b
  makeHeap l := l.insertionSort fun a b => key a ≤ key b
  pushHeap l := l.insertionSort fun a b => key a ≤ key b
  popHeap l := l.tail ++ l.head?.toList
  makeHeap_perm l := l.perm_insertionSort _
  isHeap_makeHeap l := pairwise_insertionSort key l
  pushHeap_perm l := l.perm_insertionSort _
  isHeap_pushHeap l a _ := pairwise_insertionSort key (l ++ [a])
  popHeap_perm l := by
    cases l with
    | nil => exact List.Perm.refl _
    | cons b tail => exact List.perm_append_singleton b tail
  isHeap_popHeap l rest a hl heq := by
    rw [rotate_head heq] at hl
    exact hl.of_cons
  popHeap_top l rest a hl heq b hb := by
    rw [rotate_head heq] at hl hb
    rw [decide_eq_false_iff_not, Nat.not_lt]
    rcases List.mem_cons.mp hb with rfl | hb
    · exact Nat.le_refl _
    · exact List.rel_of_pairwise_cons hl hb

end StdHeap

end UsrLinuxEmu.Graph
