import Mathlib.Data.List.Nodup
import Mathlib.Logic.Function.Basic

/-!
# Rings of doubly linked nodes

A memory holds nodes with two pointers each; a node that is not there can be neither read nor
written.

* `LinkMemory` — the memory, with `setNext` and `setPrev`;
* `Segment` — the nodes between two nodes, linked in both directions;
* `Ring` — a head with the nodes that are linked in a circle with it;
* `Ring.insert`, `Ring.remove`, `Ring.congr` — what linking in, linking out and foreign writes do
  to a ring.
-/

namespace UsrLinuxEmu.Graph

/-! ### Nodes -/

structure Links (α : Type*) where
  next : α
  prev : α
  deriving DecidableEq, Repr

abbrev LinkMemory (α : Type*) := α → Option (Links α)

namespace LinkMemory

variable {α : Type*} (m : LinkMemory α)

def next (a : α) : Option α := (m a).map Links.next

def prev (a : α) : Option α := (m a).map Links.prev

theorem isSome_of_next {m : LinkMemory α} {a b : α} (h : m.next a = some b) : (m a).isSome = true := by
  obtain ⟨n, hn, _⟩ := Option.map_eq_some_iff.mp h
  rw [hn]
  rfl

theorem isSome_of_prev {m : LinkMemory α} {a b : α} (h : m.prev a = some b) : (m a).isSome = true := by
  obtain ⟨n, hn, _⟩ := Option.map_eq_some_iff.mp h
  rw [hn]
  rfl

variable [DecidableEq α]

def setNext (a b : α) : Option (LinkMemory α) :=
  (m a).map fun n => Function.update m a (some { n with next := b })

def setPrev (a b : α) : Option (LinkMemory α) :=
  (m a).map fun n => Function.update m a (some { n with prev := b })

variable {m} {a : α}

theorem next_update (n : Links α) :
    next (Function.update m a (some n)) = Function.update m.next a (some n.next) := by
  funext c
  by_cases hc : c = a
  · rw [hc, next, Function.update_self, Function.update_self]
    rfl
  · rw [next, Function.update_of_ne hc, Function.update_of_ne hc]
    rfl

theorem prev_update (n : Links α) :
    prev (Function.update m a (some n)) = Function.update m.prev a (some n.prev) := by
  funext c
  by_cases hc : c = a
  · rw [hc, prev, Function.update_self, Function.update_self]
    rfl
  · rw [prev, Function.update_of_ne hc, Function.update_of_ne hc]
    rfl

theorem isSome_update (n : Links α) (ha : (m a).isSome = true) (c : α) :
    (Function.update m a (some n) c).isSome = (m c).isSome := by
  by_cases hc : c = a
  · rw [hc, Function.update_self, ha]
    rfl
  · rw [Function.update_of_ne hc]

/-- A write to a node that is there changes this pointer only. -/
theorem setNext_eq (ha : (m a).isSome = true) (b : α) :
    ∃ m', m.setNext a b = some m' ∧ m'.next = Function.update m.next a (some b) ∧
      m'.prev = m.prev ∧ ∀ c, (m' c).isSome = (m c).isSome := by
  obtain ⟨n, hn⟩ := Option.isSome_iff_exists.mp ha
  refine ⟨Function.update m a (some { n with next := b }), ?_, next_update _, ?_,
    isSome_update _ ha⟩
  · rw [setNext, hn]
    rfl
  · have hprev : m.prev a = some n.prev := congrArg (Option.map Links.prev) hn
    rw [prev_update, ← hprev, Function.update_eq_self]

theorem setPrev_eq (ha : (m a).isSome = true) (b : α) :
    ∃ m', m.setPrev a b = some m' ∧ m'.next = m.next ∧
      m'.prev = Function.update m.prev a (some b) ∧ ∀ c, (m' c).isSome = (m c).isSome := by
  obtain ⟨n, hn⟩ := Option.isSome_iff_exists.mp ha
  refine ⟨Function.update m a (some { n with prev := b }), ?_, ?_, prev_update _,
    isSome_update _ ha⟩
  · rw [setPrev, hn]
    rfl
  · have hnext : m.next a = some n.next := congrArg (Option.map Links.next) hn
    rw [next_update, ← hnext, Function.update_eq_self]

end LinkMemory

/-! ### Segments -/

section Segments

variable {α : Type*} {next prev next' prev' : α → Option α} {a b c x : α} {l l' : List α}

/-- The nodes `l` stand between `a` and `b`. -/
def Segment (next prev : α → Option α) : α → List α → α → Prop
  | a, [], b => next a = some b ∧ prev b = some a
  | a, x :: l, b => (next a = some x ∧ prev x = some a) ∧ Segment next prev x l b

namespace Segment

theorem append : Segment next prev a (l ++ x :: l') b ↔
    Segment next prev a l x ∧ Segment next prev x l' b := by
  induction l generalizing a with
  | nil => rfl
  | cons y l ih => exact (and_congr_right' ih).trans and_assoc.symm

/-- Only the pointers along the segment matter. -/
theorem congr (h : Segment next prev a l b) (hnext : ∀ y ∈ a :: l, next' y = next y)
    (hprev : ∀ y ∈ l ++ [b], prev' y = prev y) : Segment next' prev' a l b := by
  induction l generalizing a with
  | nil =>
    refine ⟨(hnext a List.mem_cons_self).trans h.1, (hprev b List.mem_cons_self).trans h.2⟩
  | cons y l ih =>
    refine ⟨⟨(hnext a List.mem_cons_self).trans h.1.1,
      (hprev y List.mem_cons_self).trans h.1.2⟩, ?_⟩
    exact ih h.2 (fun z hz => hnext z (List.mem_cons_of_mem a hz))
      fun z hz => hprev z (List.mem_cons_of_mem y hz)

/-- The node before the end. -/
theorem before (h : Segment next prev a l b) :
    ∃ p ∈ a :: l, next p = some b ∧ prev b = some p := by
  induction l generalizing a with
  | nil => exact ⟨a, List.mem_cons_self, h⟩
  | cons y l ih =>
    obtain ⟨p, hp, hlink⟩ := ih h.2
    exact ⟨p, List.mem_cons_of_mem a hp, hlink⟩

/-- The node after the start. -/
theorem after (h : Segment next prev a l b) :
    ∃ s ∈ l ++ [b], next a = some s ∧ prev s = some a := by
  cases l with
  | nil => exact ⟨b, List.mem_cons_self, h⟩
  | cons y l => exact ⟨y, List.mem_cons_self, h.1⟩

/-- The node before the end is linked to another end. -/
theorem redirect (h : Segment next prev a l b) (hnodup : (a :: l).Nodup) {p : α}
    (hp : prev b = some p) (hnext : ∀ y ∈ a :: l, y ≠ p → next' y = next y)
    (hprev : ∀ y ∈ l, prev' y = prev y) (hlink : next' p = some c ∧ prev' c = some p) :
    Segment next' prev' a l c := by
  induction l generalizing a with
  | nil =>
    have hpa : p = a := Option.some.inj (hp.symm.trans h.2)
    exact hpa ▸ hlink
  | cons y l ih =>
    have hrest := (List.nodup_cons.mp hnodup).2
    obtain ⟨q, hq, _, hqb⟩ := h.2.before
    have hpq : p = q := Option.some.inj (hp.symm.trans hqb)
    have hne : a ≠ p := by
      intro heq
      rw [heq, hpq] at hnodup
      exact (List.nodup_cons.mp hnodup).1 hq
    refine ⟨⟨(hnext a List.mem_cons_self hne).trans h.1.1,
      (hprev y List.mem_cons_self).trans h.1.2⟩, ?_⟩
    exact ih h.2 hrest (fun z hz => hnext z (List.mem_cons_of_mem a hz))
      fun z hz => hprev z (List.mem_cons_of_mem y hz)

end Segment

/-! ### Rings -/

structure Ring (next prev : α → Option α) (head : α) (seq : List α) : Prop where
  nodup : (head :: seq).Nodup
  linked : Segment next prev head seq head

namespace Ring

variable {head new : α} {seq pre post : List α}

theorem single (hnext : next head = some head) (hprev : prev head = some head) :
    Ring next prev head [] where
  nodup := List.nodup_singleton head
  linked := ⟨hnext, hprev⟩

/-- Writes to other nodes leave a ring alone. -/
theorem congr (h : Ring next prev head seq) (hnext : ∀ y ∈ head :: seq, next' y = next y)
    (hprev : ∀ y ∈ head :: seq, prev' y = prev y) : Ring next' prev' head seq where
  nodup := h.nodup
  linked := h.linked.congr hnext fun y hy => hprev y (by
    rcases List.mem_append.mp hy with hy | hy
    · exact List.mem_cons_of_mem head hy
    · exact List.mem_singleton.mp hy ▸ List.mem_cons_self)

/-- The head points to itself just when there is no other node. -/
theorem next_head_iff (h : Ring next prev head seq) : next head = some head ↔ seq = [] := by
  cases seq with
  | nil => exact iff_of_true h.linked.1 rfl
  | cons x l =>
    refine iff_of_false (fun hhead => ?_) (List.cons_ne_nil x l)
    have hx : x = head := Option.some.inj (h.linked.1.1.symm.trans hhead)
    exact (List.nodup_cons.mp h.nodup).1 (hx ▸ List.mem_cons_self)

variable [DecidableEq α]

/-- A node is linked in behind the head, before the node `s` that was there. -/
theorem insert (h : Ring next prev head seq) (hnew : new ∉ head :: seq) {s : α}
    (hs : next head = some s) :
    Ring (Function.update (Function.update next new (some s)) head (some new))
      (Function.update (Function.update prev new (some head)) s (some new)) head
      (new :: seq) := by
  obtain ⟨hhead, hseq⟩ := List.nodup_cons.mp h.nodup
  obtain ⟨hne, hmem⟩ := not_or.mp (List.mem_cons.not.mp hnew)
  have hsnew : s ≠ new := by
    obtain ⟨s', hs', hnext, _⟩ := h.linked.after
    have heq : s = s' := Option.some.inj (hs.symm.trans hnext)
    rw [heq]
    rcases List.mem_append.mp hs' with hs' | hs'
    · exact fun hn => hmem (hn ▸ hs')
    · exact fun hn => hne (hn ▸ (List.mem_singleton.mp hs'))
  refine ⟨List.nodup_cons.mpr ⟨?_, List.nodup_cons.mpr ⟨hmem, hseq⟩⟩, ⟨?_, ?_⟩, ?_⟩
  · exact List.mem_cons.not.mpr (not_or.mpr ⟨fun heq => hne heq.symm, hhead⟩)
  · exact Function.update_self ..
  · rw [Function.update_of_ne hsnew.symm, Function.update_self]
  · have hnextNew : Function.update (Function.update next new (some s)) head (some new) new =
        some s := by rw [Function.update_of_ne hne, Function.update_self]
    cases seq with
    | nil =>
      have heq : s = head := Option.some.inj (hs.symm.trans h.linked.1)
      refine ⟨hnextNew.trans (congrArg some heq), ?_⟩
      rw [heq]
      exact Function.update_self ..
    | cons x l =>
      have heq : s = x := Option.some.inj (hs.symm.trans h.linked.1.1)
      have hxl := List.nodup_cons.mp hseq
      refine ⟨⟨hnextNew.trans (congrArg some heq), heq ▸ Function.update_self ..⟩,
        h.linked.2.congr (fun y hy => ?_) fun y hy => ?_⟩
      · have hyhead : y ≠ head := fun he => hhead (he ▸ hy)
        have hynew : y ≠ new := fun he => hmem (he ▸ hy)
        rw [Function.update_of_ne hyhead, Function.update_of_ne hynew]
      · have hys : y ≠ s ∧ y ≠ new := by
          rcases List.mem_append.mp hy with hy | hy
          · exact ⟨fun he => hxl.1 (heq ▸ he ▸ hy),
              fun he => hmem (he ▸ List.mem_cons_of_mem x hy)⟩
          · rw [List.mem_singleton.mp hy]
            exact ⟨fun he => hhead (he ▸ heq ▸ List.mem_cons_self), fun he => hne he.symm⟩
        rw [Function.update_of_ne hys.1, Function.update_of_ne hys.2]

/-- A node is linked out: its neighbours are linked to each other. -/
theorem remove (h : Ring next prev head (pre ++ x :: post)) {p s : α} (hp : prev x = some p)
    (hs : next x = some s) :
    Ring (Function.update next p (some s)) (Function.update prev s (some p)) head
      (pre ++ post) := by
  obtain ⟨hbefore, hafter⟩ := Segment.append.mp h.linked
  have hnodup : (head :: pre ++ x :: post).Nodup := h.nodup
  have hsub : (head :: (pre ++ post)).Nodup := by
    refine hnodup.sublist ?_
    exact List.Sublist.append_left (List.sublist_cons_self x post) (head :: pre)
  obtain ⟨hpre, hpost, hdisj⟩ := List.nodup_append'.mp hnodup
  obtain ⟨hxpost, hpost⟩ := List.nodup_cons.mp hpost
  have hpmem : p ∈ head :: pre := by
    obtain ⟨q, hq, _, hqx⟩ := hbefore.before
    exact Option.some.inj (hp.symm.trans hqx) ▸ hq
  have hlink : Function.update next p (some s) p = some s := Function.update_self ..
  have hnextPre : ∀ y ∈ head :: pre, y ≠ p → Function.update next p (some s) y = next y :=
    fun y _ hy => Function.update_of_ne hy ..
  refine ⟨hsub, ?_⟩
  cases post with
  | nil =>
    have heq : s = head := Option.some.inj (hs.symm.trans hafter.1)
    rw [List.append_nil]
    refine hbefore.redirect hpre hp hnextPre (fun y hy => ?_)
      ⟨heq ▸ hlink, heq ▸ Function.update_self ..⟩
    have hy' : y ≠ s := fun he => (List.nodup_cons.mp hpre).1 (heq ▸ he ▸ hy)
    exact Function.update_of_ne hy' ..
  | cons z l =>
    have heq : s = z := Option.some.inj (hs.symm.trans hafter.1.1)
    have hzpre : s ∉ head :: pre := fun hmem =>
      hdisj hmem (List.mem_cons_of_mem x (heq ▸ List.mem_cons_self))
    refine Segment.append.mpr ⟨hbefore.redirect hpre hp hnextPre (fun y hy => ?_)
      ⟨heq ▸ hlink, heq ▸ Function.update_self ..⟩, hafter.2.congr (fun y hy => ?_) fun y hy => ?_⟩
    · have hy' : y ≠ s := fun he => hzpre (List.mem_cons_of_mem head (he ▸ hy))
      exact Function.update_of_ne hy' ..
    · have hy' : y ≠ p := fun he => hdisj hpmem (List.mem_cons_of_mem x (he ▸ hy))
      exact Function.update_of_ne hy' ..
    · have hy' : y ≠ s := by
        rcases List.mem_append.mp hy with hy | hy
        · exact fun he => (List.nodup_cons.mp hpost).1 (heq ▸ he ▸ hy)
        · rw [List.mem_singleton.mp hy]
          exact fun he => hzpre (he ▸ List.mem_cons_self)
      exact Function.update_of_ne hy' ..

end Ring

end Segments

end UsrLinuxEmu.Graph
