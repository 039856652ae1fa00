import UsrLinuxEmu.Graph.LinkedRing

/-!
# Lists of the kernel (`include/linux_compat/list.h`)

The macros on `struct list_head`, as what they read and write.  A macro that comes to a node that is
not there has no result.

* `initListHead`, `listAdd`, `listDel`, `listEmpty` — the macros;
* `listFind` — the loops over `list_for_each_entry`, which look for an entry;
* `ring_listAdd`, `ring_listDel`, `listFind_ring` — on rings they succeed and do what they should.
-/

namespace UsrLinuxEmu.Kernel

open UsrLinuxEmu.Graph

variable {α : Type} [DecidableEq α]

/-! ### The macros -/

def initListHead (m : LinkMemory α) (ptr : α) : Option (LinkMemory α) := do
  let m ← m.setNext ptr ptr
  m.setPrev ptr ptr

def listAdd (m : LinkMemory α) (new head : α) : Option (LinkMemory α) := do
  let m ← m.setNext new (← m.next head)
  let m ← m.setPrev new head
  let m ← m.setPrev (← m.next head) new
  m.setNext head new

def listDel (m : LinkMemory α) (entry : α) : Option (LinkMemory α) := do
  let m ← m.setPrev (← m.next entry) (← m.prev entry)
  m.setNext (← m.prev entry) (← m.next entry)

def listEmpty (m : LinkMemory α) (head : α) : Option Bool := do
  return decide ((← m.next head) = head)

/-- The loop from `pos` on, with a body that stops at the first entry that passes the test. -/
def listFind (m : LinkMemory α) (head : α) (test : α → Option Bool) : ℕ → α → Option (Option α)
  | 0, _ => none
  | fuel + 1, pos =>
    if pos = head then some none
    else do
      if ← test pos then return some pos
      listFind m head test fuel (← m.next pos)

/-! ### On rings -/

variable {m : LinkMemory α} {head new x : α} {seq pre post : List α}

theorem ring_initListHead (hhead : (m head).isSome = true) :
    ∃ m', initListHead m head = some m' ∧ Ring m'.next m'.prev head [] ∧
      (∀ c, (m' c).isSome = (m c).isSome) ∧
      ∀ c, c ≠ head → m'.next c = m.next c ∧ m'.prev c = m.prev c := by
  obtain ⟨m₁, hm₁, hnext₁, hprev₁, hsome₁⟩ := LinkMemory.setNext_eq hhead head
  obtain ⟨m₂, hm₂, hnext₂, hprev₂, hsome₂⟩ :=
    LinkMemory.setPrev_eq ((hsome₁ head).trans hhead) head
  refine ⟨m₂, ?_, Ring.single ?_ ?_, fun c => (hsome₂ c).trans (hsome₁ c), fun c hc => ?_⟩
  · show (m.setNext head head).bind _ = _
    rw [hm₁]
    exact hm₂
  · rw [hnext₂, hnext₁]
    exact Function.update_self ..
  · rw [hprev₂]
    exact Function.update_self ..
  · rw [hnext₂, hnext₁, hprev₂, hprev₁]
    exact ⟨Function.update_of_ne hc .., Function.update_of_ne hc ..⟩

/-- The new node comes first; nodes outside of the ring keep their pointers. -/
theorem ring_listAdd (h : Ring m.next m.prev head seq) (hnew : new ∉ head :: seq)
    (hsome : (m new).isSome = true) :
    ∃ m', listAdd m new head = some m' ∧ Ring m'.next m'.prev head (new :: seq) ∧
      (∀ c, (m' c).isSome = (m c).isSome) ∧
      ∀ c, c ∉ head :: new :: seq → m'.next c = m.next c ∧ m'.prev c = m.prev c := by
  obtain ⟨s, hsmem, hs, hsprev⟩ := h.linked.after
  have hsring : s ∈ head :: seq := by
    rcases List.mem_append.mp hsmem with hmem | hmem
    · exact List.mem_cons_of_mem head hmem
    · exact List.mem_singleton.mp hmem ▸ List.mem_cons_self
  have hne : head ≠ new := fun he => hnew (he ▸ List.mem_cons_self)
  obtain ⟨m₁, hm₁, hnext₁, hprev₁, hsome₁⟩ := LinkMemory.setNext_eq hsome s
  obtain ⟨m₂, hm₂, hnext₂, hprev₂, hsome₂⟩ :=
    LinkMemory.setPrev_eq ((hsome₁ new).trans hsome) head
  have hhead₂ : m₂.next head = some s := by
    rw [hnext₂, hnext₁, Function.update_of_ne hne]
    exact hs
  have hssome : (m₂ s).isSome = true := by
    rw [hsome₂, hsome₁]
    exact LinkMemory.isSome_of_prev hsprev
  obtain ⟨m₃, hm₃, hnext₃, hprev₃, hsome₃⟩ := LinkMemory.setPrev_eq hssome new
  have hheadSome : (m₃ head).isSome = true := by
    rw [hsome₃]
    exact LinkMemory.isSome_of_next hhead₂
  obtain ⟨m₄, hm₄, hnext₄, hprev₄, hsome₄⟩ := LinkMemory.setNext_eq hheadSome new
  have hnext : m₄.next = Function.update (Function.update m.next new (some s)) head (some new) := by
    rw [hnext₄, hnext₃, hnext₂, hnext₁]
  have hprev : m₄.prev = Function.update (Function.update m.prev new (some head)) s (some new) := by
    rw [hprev₄, hprev₃, hprev₂, hprev₁]
  refine ⟨m₄, ?_, ?_, fun c => ?_, fun c hc => ?_⟩
  · simp only [listAdd, hs, hm₁, hm₂, hhead₂, hm₃, hm₄, Option.bind_eq_bind, Option.bind_some]
  · rw [hnext, hprev]
    exact h.insert hnew hs
  · rw [hsome₄, hsome₃, hsome₂, hsome₁]
  · have hchead : c ≠ head := fun he => hc (he ▸ List.mem_cons_self)
    have hcnew : c ≠ new := fun he => hc (he ▸ List.mem_cons_of_mem head List.mem_cons_self)
    have hcs : c ≠ s := by
      intro he
      rcases List.mem_cons.mp hsring with heq | hmem
      · exact hchead (he.trans heq)
      · exact hc (List.mem_cons_of_mem head (List.mem_cons_of_mem new (he ▸ hmem)))
    rw [hnext, hprev, Function.update_of_ne hchead, Function.update_of_ne hcnew,
      Function.update_of_ne hcs, Function.update_of_ne hcnew]
    exact ⟨rfl, rfl⟩

/-- The node leaves the ring and keeps its own pointers. -/
theorem ring_listDel (h : Ring m.next m.prev head (pre ++ x :: post)) :
    ∃ m', listDel m x = some m' ∧ Ring m'.next m'.prev head (pre ++ post) ∧
      (∀ c, (m' c).isSome = (m c).isSome) ∧
      ∀ c, c ∉ head :: (pre ++ post) → m'.next c = m.next c ∧ m'.prev c = m.prev c := by
  obtain ⟨hbefore, hafter⟩ := Segment.append.mp h.linked
  obtain ⟨p, hpmem, hpnext, hp⟩ := hbefore.before
  obtain ⟨s, hsmem, hs, hsprev⟩ := hafter.after
  have hnodup : (head :: pre ++ x :: post).Nodup := h.nodup
  obtain ⟨hpreNodup, hpostNodup, hdisj⟩ := List.nodup_append'.mp hnodup
  have hpring : p ∈ head :: (pre ++ post) := by
    rcases List.mem_cons.mp hpmem with heq | hmem
    · exact heq ▸ List.mem_cons_self
    · exact List.mem_cons_of_mem head (List.mem_append_left post hmem)
  have hsring : s ∈ head :: (pre ++ post) := by
    rcases List.mem_append.mp hsmem with hmem | hmem
    · exact List.mem_cons_of_mem head (List.mem_append_right pre hmem)
    · exact List.mem_singleton.mp hmem ▸ List.mem_cons_self
  have hxs : x ≠ s := by
    intro he
    rcases List.mem_append.mp hsmem with hmem | hmem
    · exact (List.nodup_cons.mp hpostNodup).1 (he ▸ hmem)
    · have heq : x = head := he.trans (List.mem_singleton.mp hmem)
      exact hdisj List.mem_cons_self (heq ▸ List.mem_cons_self)
  obtain ⟨m₁, hm₁, hnext₁, hprev₁, hsome₁⟩ :=
    LinkMemory.setPrev_eq (LinkMemory.isSome_of_prev hsprev) p
  have hp₁ : m₁.prev x = some p := by
    rw [hprev₁, Function.update_of_ne hxs]
    exact hp
  have hs₁ : m₁.next x = some s := (congrFun hnext₁ x).trans hs
  have hpsome : (m₁ p).isSome = true := by
    rw [hsome₁]
    exact LinkMemory.isSome_of_next hpnext
  obtain ⟨m₂, hm₂, hnext₂, hprev₂, hsome₂⟩ := LinkMemory.setNext_eq hpsome s
  have hnext : m₂.next = Function.update m.next p (some s) := by rw [hnext₂, hnext₁]
  have hprev : m₂.prev = Function.update m.prev s (some p) := by rw [hprev₂, hprev₁]
  refine ⟨m₂, ?_, ?_, fun c => (hsome₂ c).trans (hsome₁ c), fun c hc => ?_⟩
  · simp only [listDel, hs, hp, hm₁, hp₁, hs₁, hm₂, Option.bind_eq_bind, Option.bind_some]
  · rw [hnext, hprev]
    exact h.remove hp hs
  · have hcp : c ≠ p := fun he => hc (he ▸ hpring)
    have hcs : c ≠ s := fun he => hc (he ▸ hsring)
    rw [hnext, hprev, Function.update_of_ne hcp, Function.update_of_ne hcs]
    exact ⟨rfl, rfl⟩

theorem listEmpty_ring (h : Ring m.next m.prev head seq) :
    listEmpty m head = some seq.isEmpty := by
  obtain ⟨s, _, hs, _⟩ := h.linked.after
  have hiff : s = head ↔ seq = [] := by
    rw [← h.next_head_iff, hs]
    exact Option.some_inj.symm
  show (m.next head).bind (fun a => some (decide (a = head))) = _
  rw [hs]
  refine congrArg some ?_
  rw [Bool.eq_iff_iff, decide_eq_true_iff, hiff, List.isEmpty_iff]

/-- The loop ends, and comes to the nodes of the ring in their order. -/
theorem listFind_segment {a : α} (h : Segment m.next m.prev a seq head) (hhead : head ∉ seq)
    {test : α → Option Bool} {passes : α → Bool} (htest : ∀ b ∈ seq, test b = some (passes b))
    {fuel : ℕ} (hfuel : seq.length < fuel) :
    ((m.next a).bind fun pos => listFind m head test fuel pos) = some (seq.find? passes) := by
  induction seq generalizing a fuel with
  | nil =>
    rw [h.1]
    obtain ⟨fuel, rfl⟩ : ∃ n, fuel = n + 1 := ⟨fuel - 1, by omega⟩
    show listFind m head test (fuel + 1) head = some none
    rw [listFind, if_pos rfl]
  | cons y seq ih =>
    obtain ⟨hy, hrest⟩ := not_or.mp (List.mem_cons.not.mp hhead)
    obtain ⟨fuel, rfl⟩ : ∃ n, fuel = n + 1 := ⟨fuel - 1, by omega⟩
    rw [h.1.1]
    show listFind m head test (fuel + 1) y = _
    have hne : y ≠ head := fun heq => hy heq.symm
    rw [listFind, if_neg hne, htest y List.mem_cons_self, List.find?_cons]
    show (if passes y = true then some (some y) else _) = _
    cases hpass : passes y with
    | true => rfl
    | false =>
      refine ih h.2 hrest (fun b hb => htest b (List.mem_cons_of_mem y hb)) ?_
      rw [List.length_cons] at hfuel
      omega

theorem listFind_ring (h : Ring m.next m.prev head seq) {test : α → Option Bool} {passes : α → Bool}
    (htest : ∀ b ∈ seq, test b = some (passes b)) {fuel : ℕ} (hfuel : seq.length < fuel) :
    ((m.next head).bind fun pos => listFind m head test fuel pos) = some (seq.find? passes) :=
  listFind_segment h.linked (List.nodup_cons.mp h.nodup).1 htest hfuel

end UsrLinuxEmu.Kernel
