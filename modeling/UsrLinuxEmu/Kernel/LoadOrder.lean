import Mathlib.Tactic.SplitIfs
import UsrLinuxEmu.Kernel.TopoSort

/-!
# The load order is a schedule (`src/kernel/module_loader.cpp`)

Each candidate's count starts at the length of its dependency list, repeated names included, and falls
by one for each candidate on the list that is loaded.  So a count reaches zero exactly when the list
repeats no candidate and all its candidates are loaded.

* `Released` — what the inner loop does: counts, heap and order;
* `KahnInv` — counts against the order so far, and the heap against the counts;
* `kahnLoop_spec` — the loop ends, with every candidate that can become ready;
* `topoSort_correct_iff` — the sort delivers what it is for exactly when a cycle is there to be
  refused, or no list names a candidate twice.
-/

namespace UsrLinuxEmu.Kernel

open Relation UsrLinuxEmu.Graph

/-! ### Candidates on a dependency list -/

/-- The candidates that the dependency list names, one for each entry that names one. -/
def candidateDeps (cs : List Candidate) (i : ℕ) : List ℕ :=
  (candidateAt cs i).depends.filterMap (index cs)

theorem indegree_eq (cs : List Candidate) (i : ℕ) :
    indegree cs i = ((candidateDeps cs i).length : ℤ) := by
  rw [indegree, candidateDeps, List.length_filterMap_eq_countP]

theorem depU_iff {cs : List Candidate} {u i : ℕ} :
    depU cs u i = true ↔ u ∈ candidateDeps cs i := by
  rw [depU, candidateDeps, List.any_eq_true, List.mem_filterMap]
  simp only [beq_iff_eq]

theorem needsCandidate_iff {cs : List Candidate} {i j : ℕ} :
    NeedsCandidate cs i j ↔ i < cs.length ∧ j ∈ candidateDeps cs i := by
  rw [NeedsCandidate, candidateDeps, List.mem_filterMap]
  simp only [index_eq_some_iff]

theorem nodup_filterMap_iff {α β : Type*} {f : α → Option β}
    (hf : ∀ a b c, f a = some c → f b = some c → a = b) (l : List α) :
    (l.filterMap f).Nodup ↔ (l.filter fun a => (f a).isSome).Nodup := by
  induction l with
  | nil => exact iff_of_true List.nodup_nil List.nodup_nil
  | cons a l ih =>
    cases ha : f a with
    | none =>
      rw [List.filterMap_cons_none ha,
        List.filter_cons_of_neg (by rw [ha]; exact Bool.false_ne_true), ih]
    | some c =>
      rw [List.filterMap_cons_some ha, List.filter_cons_of_pos (by rw [ha]; rfl),
        List.nodup_cons, List.nodup_cons, ih]
      refine and_congr_left fun _ => not_congr ?_
      rw [List.mem_filterMap, List.mem_filter]
      constructor
      · intro ⟨b, hb, hbc⟩
        rw [hf a b c ha hbc]
        exact ⟨hb, by rw [hbc]; rfl⟩
      · intro ⟨hal, _⟩
        exact ⟨a, hal, ha⟩

theorem nodup_candidateDeps_iff {cs : List Candidate} {i : ℕ} :
    (candidateDeps cs i).Nodup ↔ NamesOnce cs (candidateAt cs i) := by
  rw [candidateDeps, nodup_filterMap_iff fun _ _ _ => index_injective, NamesOnce]
  have hsame : (candidateAt cs i).depends.filter (fun d => (index cs d).isSome) =
      (candidateAt cs i).depends.filter (· ∈ cs.map Candidate.name) := by
    refine List.filter_congr fun d _ => ?_
    rw [Bool.eq_iff_iff, index_isSome_iff, decide_eq_true_iff]
  rw [hsame]

/-! ### The inner loop -/

section Kahn

variable {cs : List Candidate} {heap : StdHeap (loadsAfter cs)}

/-- What the inner loop has done once it has passed the positions. -/
structure Released (heap : StdHeap (loadsAfter cs)) (u : ℕ) (passed : List ℕ) (s t : Kahn) :
    Prop where
  loadOrder : t.loadOrder = s.loadOrder
  isHeap : heap.IsHeap t.pq
  pq : t.pq.Perm (s.pq ++ passed.filter fun i => depU cs u i && decide (s.indeg i = 1))
  indeg : ∀ i, t.indeg i = if i ∈ passed ∧ depU cs u i then s.indeg i - 1 else s.indeg i

theorem released_one {s : Kahn} (u i : ℕ) (hs : heap.IsHeap s.pq) :
    Released heap u [i] s (release cs heap u s i) := by
  by_cases hdep : depU cs u i
  · rw [release, if_pos hdep]
    have hindeg : ∀ j, Function.update s.indeg i (s.indeg i - 1) j =
        if j ∈ [i] ∧ depU cs u j then s.indeg j - 1 else s.indeg j := by
      intro j
      by_cases hj : j = i
      · subst hj
        rw [Function.update_self, if_pos ⟨List.mem_singleton_self j, hdep⟩]
      · rw [Function.update_of_ne hj, if_neg fun h => hj (List.mem_singleton.mp h.1)]
    have hcount : Function.update s.indeg i (s.indeg i - 1) i = s.indeg i - 1 :=
      Function.update_self ..
    by_cases hzero : s.indeg i - 1 = 0
    · rw [if_pos (hcount.trans hzero)]
      have hone : s.indeg i = 1 := by omega
      refine ⟨rfl, heap.isHeap_pushHeap s.pq i hs, ?_, hindeg⟩
      rw [List.filter_cons_of_pos (by rw [hdep, hone]; rfl), List.filter_nil]
      exact heap.pushHeap_perm _
    · rw [if_neg fun h => hzero (hcount.symm.trans h)]
      refine ⟨rfl, hs, ?_, hindeg⟩
      have hone : s.indeg i ≠ 1 := by omega
      rw [List.filter_cons_of_neg (by rw [decide_eq_false hone, Bool.and_false]; decide),
        List.filter_nil, List.append_nil]
  · rw [release, if_neg hdep]
    refine ⟨rfl, hs, ?_, fun j => ?_⟩
    · rw [List.filter_cons_of_neg (by simp [hdep]), List.filter_nil, List.append_nil]
    · rw [if_neg]
      rintro ⟨hj, hdepj⟩
      rw [List.mem_singleton.mp hj] at hdepj
      exact hdep hdepj

theorem Released.cons {u i : ℕ} {passed : List ℕ} {s t w : Kahn}
    (h : Released heap u [i] s t) (h' : Released heap u passed t w) (hi : i ∉ passed) :
    Released heap u (i :: passed) s w := by
  -- the head does not touch the counts of the rest
  have hrest : ∀ j ∈ passed, t.indeg j = s.indeg j := by
    intro j hj
    rw [h.indeg, if_neg]
    rintro ⟨hmem, -⟩
    rw [List.mem_singleton.mp hmem] at hj
    exact hi hj
  refine ⟨h'.loadOrder.trans h.loadOrder, h'.isHeap, ?_, fun j => ?_⟩
  · have hfilter : passed.filter (fun j => depU cs u j && decide (t.indeg j = 1)) =
        passed.filter fun j => depU cs u j && decide (s.indeg j = 1) :=
      List.filter_congr fun j hj => by rw [hrest j hj]
    have hhead := h.pq.append_right
      (passed.filter fun j => depU cs u j && decide (s.indeg j = 1))
    rw [List.append_assoc, ← List.filter_append, List.singleton_append] at hhead
    refine h'.pq.trans ?_
    rw [hfilter]
    exact hhead
  · by_cases hj : j ∈ passed
    · rw [h'.indeg, hrest j hj]
      by_cases hdep : depU cs u j
      · rw [if_pos ⟨hj, hdep⟩, if_pos ⟨List.mem_cons_of_mem _ hj, hdep⟩]
      · rw [if_neg fun h => hdep h.2, if_neg fun h => hdep h.2]
    · rw [h'.indeg, if_neg fun h => hj h.1, h.indeg]
      simp only [List.mem_cons, List.not_mem_nil, hj, or_false]

theorem released_foldl {u : ℕ} (passed : List ℕ) (hnodup : passed.Nodup) (s : Kahn)
    (hs : heap.IsHeap s.pq) :
    Released heap u passed s (passed.foldl (release cs heap u) s) := by
  induction passed generalizing s with
  | nil =>
    refine ⟨rfl, hs, ?_, fun i => ?_⟩
    · rw [List.filter_nil, List.append_nil]
      rfl
    · rw [if_neg fun h => absurd h.1 List.not_mem_nil]
      rfl
  | cons i passed ih =>
    obtain ⟨hi, hpassed⟩ := List.nodup_cons.mp hnodup
    have hone : Released heap u [i] s (release cs heap u s i) := released_one u i hs
    exact hone.cons (ih hpassed (release cs heap u s i) hone.isHeap) hi

/-! ### The outer loop -/

/-- The candidate may be loaded next, if ever: its list repeats none, and all of them are loaded. -/
def Loadable (cs : List Candidate) (order : List ℕ) (i : ℕ) : Prop :=
  (candidateDeps cs i).Nodup ∧ ∀ j ∈ candidateDeps cs i, j ∈ order

structure KahnInv (heap : StdHeap (loadsAfter cs)) (s : Kahn) : Prop where
  isHeap : heap.IsHeap s.pq
  nodup : (s.loadOrder ++ s.pq).Nodup
  mem : ∀ i, i ∈ s.loadOrder ++ s.pq ↔ i < cs.length ∧ s.indeg i = 0
  indeg : ∀ i, i < cs.length → s.indeg i =
    (candidateDeps cs i).length - s.loadOrder.countP (· ∈ candidateDeps cs i)
  loadable : ∀ before i after, s.loadOrder = before ++ i :: after → Loadable cs before i
  priority : ∀ before i after, s.loadOrder = before ++ i :: after →
    ∀ j, j < cs.length → j ∉ before → Loadable cs before j → loadKey cs i ≤ loadKey cs j

theorem KahnInv.indeg_eq_zero_iff {s : Kahn} (h : KahnInv heap s) {i : ℕ} (hi : i < cs.length) :
    s.indeg i = 0 ↔ Loadable cs s.loadOrder i := by
  have horder : s.loadOrder.Nodup := (List.nodup_append.mp h.nodup).1
  rw [h.indeg i hi, Loadable, ← countP_mem_eq_length_iff horder]
  omega

theorem kahnInv_start : KahnInv heap (kahnStart cs heap) := by
  have hmem : ∀ i, i ∈ heap.makeHeap ((List.range cs.length).filter fun i => indegree cs i = 0) ↔
      i < cs.length ∧ indegree cs i = 0 := by
    intro i
    rw [(heap.makeHeap_perm _).mem_iff, List.mem_filter, List.mem_range, decide_eq_true_iff]
  refine ⟨heap.isHeap_makeHeap _, ?_, hmem, fun i hi => ?_, fun before i after h => ?_,
    fun before i after h => ?_⟩
  · exact (heap.makeHeap_perm _).nodup_iff.mpr (List.nodup_range.filter _)
  · show indegree cs i = _ - ((List.countP _ [] : ℕ) : ℤ)
    rw [indegree_eq, List.countP_nil]
    exact (Int.sub_zero _).symm
  · exact absurd h.symm (List.append_ne_nil_of_right_ne_nil before (List.cons_ne_nil i after))
  · exact absurd h.symm (List.append_ne_nil_of_right_ne_nil before (List.cons_ne_nil i after))

/-- What one turn of the outer loop does: `u` goes from the heap to the order, those that wait for it
count one less, and those that waited for it alone go to the heap. -/
structure Turn (heap : StdHeap (loadsAfter cs)) (u : ℕ) (s t : Kahn) : Prop where
  isHeap : heap.IsHeap t.pq
  top : u ∈ s.pq
  first : ∀ i ∈ s.pq, loadKey cs u ≤ loadKey cs i
  loadOrder : t.loadOrder = s.loadOrder ++ [u]
  members : (t.loadOrder ++ t.pq).Perm (s.loadOrder ++ s.pq ++
    (List.range cs.length).filter fun i => depU cs u i && decide (s.indeg i = 1))
  waited : ∀ i, i < cs.length → depU cs u i → t.indeg i = s.indeg i - 1
  others : ∀ i, ¬depU cs u i → t.indeg i = s.indeg i

theorem turn_loadNext {s : Kahn} (hs : heap.IsHeap s.pq) (hne : s.pq ≠ []) :
    ∃ u, Turn heap u s (loadNext cs heap s) := by
  obtain ⟨rest, u, hpop, hperm, hrest, htop⟩ := heap.exists_pop hs hne
  have hu : (heap.popHeap s.pq).getLastD 0 = u := by rw [hpop, List.getLastD_concat]
  have hdrop : (heap.popHeap s.pq).dropLast = rest := by rw [hpop, List.dropLast_concat]
  have hreleased := @released_foldl cs heap u (List.range cs.length)
    List.nodup_range { s with pq := rest, loadOrder := s.loadOrder ++ [u] } hrest
  have hnext : loadNext cs heap s = (List.range cs.length).foldl (release cs heap u)
      { s with pq := rest, loadOrder := s.loadOrder ++ [u] } := by
    rw [loadNext, hu, hdrop]
  refine ⟨u, ?_⟩
  rw [hnext]
  refine ⟨hreleased.isHeap, ?_, fun i hi => ?_, hreleased.loadOrder, ?_, fun i hi hdep => ?_,
    fun i hdep => ?_⟩
  · exact hperm.mem_iff.mpr (List.mem_append_right _ (List.mem_singleton_self u))
  · have hnot := htop i hi
    rw [loadsAfter, decide_eq_false_iff_not, Nat.not_lt] at hnot
    exact hnot
  · rw [hreleased.loadOrder]
    refine (hreleased.pq.append_left _).trans ?_
    rw [← List.append_assoc]
    refine List.Perm.append_right _ ?_
    show (s.loadOrder ++ [u] ++ rest).Perm (s.loadOrder ++ s.pq)
    rw [List.append_assoc]
    exact (List.perm_append_comm.trans hperm.symm).append_left s.loadOrder
  · rw [hreleased.indeg, if_pos ⟨List.mem_range.mpr hi, hdep⟩]
  · rw [hreleased.indeg, if_neg fun h => hdep h.2]

theorem Turn.kahnInv {u : ℕ} {s t : Kahn} (ht : Turn heap u s t) (h : KahnInv heap s) :
    KahnInv heap t := by
  obtain ⟨hulen, huzero⟩ := (h.mem u).mp (List.mem_append_right _ ht.top)
  have huload := (h.indeg_eq_zero_iff hulen).mp huzero
  have hufresh : u ∉ s.loadOrder := fun hmem =>
    (List.nodup_append.mp h.nodup).2.2 u hmem u ht.top rfl
  -- whoever is loaded or in the heap does not wait for `u`
  have hdone : ∀ i, i < cs.length → s.indeg i = 0 → ¬depU cs u i := by
    intro i hi hzero hdep
    exact hufresh (((h.indeg_eq_zero_iff hi).mp hzero).2 u (depU_iff.mp hdep))
  have hnew : ∀ i, i ∈ (List.range cs.length).filter
      (fun i => depU cs u i && decide (s.indeg i = 1)) ↔
      i < cs.length ∧ depU cs u i ∧ s.indeg i = 1 := by
    intro i
    rw [List.mem_filter, List.mem_range, Bool.and_eq_true, decide_eq_true_iff]
  refine ⟨ht.isHeap, ?_, fun i => ?_, fun i hi => ?_, ?_, ?_⟩
  · refine ht.members.nodup_iff.mpr (List.nodup_append.mpr ⟨h.nodup, List.nodup_range.filter _, ?_⟩)
    rintro i hi j hj rfl
    have hzero := ((h.mem i).mp hi).2
    have hone := ((hnew i).mp hj).2.2
    omega
  · rw [ht.members.mem_iff, List.mem_append, h.mem, hnew]
    by_cases hdep : depU cs u i
    · constructor
      · intro hcases
        rcases hcases with ⟨hi, hzero⟩ | ⟨hi, -, hone⟩
        · exact absurd hdep (hdone i hi hzero)
        · exact ⟨hi, by rw [ht.waited i hi hdep]; omega⟩
      · intro ⟨hi, hzero⟩
        rw [ht.waited i hi hdep] at hzero
        exact .inr ⟨hi, hdep, by omega⟩
    · rw [ht.others i hdep]
      exact or_iff_left fun hcase => hdep hcase.2.1
  · rw [ht.loadOrder, List.countP_append, List.countP_singleton]
    by_cases hdep : depU cs u i
    · rw [ht.waited i hi hdep, h.indeg i hi, if_pos (decide_eq_true (depU_iff.mp hdep))]
      omega
    · have hnot : ¬decide (u ∈ candidateDeps cs i) = true := fun hmem =>
        hdep (depU_iff.mpr (of_decide_eq_true hmem))
      rw [ht.others i hdep, h.indeg i hi, if_neg hnot]
      omega
  · rw [ht.loadOrder]
    exact splits_concat h.loadable huload
  · rw [ht.loadOrder]
    refine splits_concat h.priority fun j hj hfresh hload => ?_
    have hmem := (h.mem j).mpr ⟨hj, (h.indeg_eq_zero_iff hj).mpr hload⟩
    exact ht.first j ((List.mem_append.mp hmem).resolve_left hfresh)

/-- The loop ends with the heap empty. -/
theorem kahnLoop_spec (fuel : ℕ) {s : Kahn} (h : KahnInv heap s)
    (hfuel : cs.length < fuel + s.loadOrder.length) :
    ∃ t, kahnLoop cs heap fuel s = some t.loadOrder ∧ KahnInv heap t ∧ t.pq = [] := by
  induction fuel generalizing s with
  | zero =>
    have horder : s.loadOrder.Nodup := (List.nodup_append.mp h.nodup).1
    have hsub : s.loadOrder ⊆ List.range cs.length := fun i hi =>
      List.mem_range.mpr ((h.mem i).mp (List.mem_append_left _ hi)).1
    have hle := (horder.subperm hsub).length_le
    rw [List.length_range] at hle
    omega
  | succ fuel ih =>
    rw [kahnLoop]
    by_cases hempty : s.pq = []
    · rw [hempty]
      exact ⟨s, rfl, h, hempty⟩
    · obtain ⟨u, hturn⟩ := turn_loadNext h.isHeap hempty
      rw [if_neg fun hnil => hempty (List.isEmpty_iff.mp hnil)]
      refine ih (hturn.kahnInv h) ?_
      rw [hturn.loadOrder, List.length_append, List.length_singleton]
      omega

/-! ### The whole sort -/

/-- The order holds every candidate that it makes loadable, and no other. -/
theorem exists_loadOrder (cs : List Candidate) (heap : StdHeap (loadsAfter cs)) :
    ∃ order, kahnLoop cs heap (cs.length + 1) (kahnStart cs heap) = some order ∧ order.Nodup ∧
      (∀ i, i ∈ order ↔ i < cs.length ∧ Loadable cs order i) ∧
      NeedsFirst (NeedsCandidate cs) order ∧
      ∀ before i after, order = before ++ i :: after →
        ∀ j, j < cs.length → j ∉ before → Loadable cs before j → loadKey cs i ≤ loadKey cs j := by
  obtain ⟨t, hloop, hinv, hempty⟩ := kahnLoop_spec (cs.length + 1) (@kahnInv_start cs heap)
    (by omega)
  refine ⟨t.loadOrder, hloop, (List.nodup_append.mp hinv.nodup).1, fun i => ?_, ?_, hinv.priority⟩
  · have hmem := hinv.mem i
    rw [hempty, List.append_nil] at hmem
    rw [hmem]
    exact and_congr_right fun hi => hinv.indeg_eq_zero_iff hi
  · intro before i after heq j hneeds
    exact (hinv.loadable before i after heq).2 j (needsCandidate_iff.mp hneeds).2

/-- The fuel of the two loops suffices. -/
theorem topoSort_ne_none (cs : List Candidate) (heap : StdHeap (loadsAfter cs)) :
    topoSort cs heap ≠ none := by
  rcases search_answers cs with ⟨_, m, hsearch⟩ | ⟨_, m, hsearch⟩
  · rw [topoSort, hsearch]
    exact Option.some_ne_none _
  · obtain ⟨order, hloop, _⟩ := exists_loadOrder cs heap
    rw [topoSort, hsearch, hloop]
    exact Option.some_ne_none _

/-- **The sort, exactly.**  A cyclic graph is refused.  An acyclic one is scheduled exactly when no
dependency list names a candidate twice: a candidate whose list does is left out of the order. -/
theorem topoSort_correct_iff (cs : List Candidate) (heap : StdHeap (loadsAfter cs)) :
    SortsPlugins cs heap ↔ (Acyclic (NeedsCandidate cs) → ∀ c ∈ cs, NamesOnce cs c) := by
  rcases search_answers cs with ⟨hcyclic, m, hsearch⟩ | ⟨hgrounded, m, hsearch⟩
  · have hsort : topoSort cs heap = some (.error (-ELOOP)) := by rw [topoSort, hsearch]
    refine iff_of_true ⟨fun hacyclic => absurd hacyclic hcyclic, ?_⟩ fun hacyclic =>
      absurd hacyclic hcyclic
    exact iff_of_true hcyclic hsort
  have hacyclic : Acyclic (NeedsCandidate cs) := acyclic_of_grounded hgrounded
  obtain ⟨order, hloop, hnodup, hmem, hfirst, hpriority⟩ := exists_loadOrder cs heap
  have hsort : topoSort cs heap = some (.ok order) := by
    rw [topoSort, hsearch, hloop]
    rfl
  constructor
  · intro hsorts _ c hc
    obtain ⟨order', hsort', hschedule⟩ := hsorts.1 hacyclic
    obtain rfl : order = order' := Except.ok.inj (Option.some.inj (hsort.symm.trans hsort'))
    obtain ⟨i, hi, rfl⟩ := exists_candidateAt hc
    have hin := hschedule.perm.mem_iff.mpr (List.mem_range.mpr hi)
    exact nodup_candidateDeps_iff.mp ((hmem i).mp hin).2.1
  · intro honce
    have hdeps : ∀ i, i < cs.length → (candidateDeps cs i).Nodup := fun i hi =>
      nodup_candidateDeps_iff.mpr (honce hacyclic _ (candidateAt_mem hi))
    refine ⟨fun _ => ⟨order, hsort, ?_, hfirst, ?_⟩, ?_⟩
    · -- the order is closed under what becomes ready, so every grounded position is in it
      refine (List.perm_ext_iff_of_nodup hnodup List.nodup_range).mpr fun i => ?_
      rw [List.mem_range]
      refine ⟨fun hi => ((hmem i).mp hi).1, fun hi => ?_⟩
      have hclosed := (hgrounded i).mem (S := {i | i < cs.length → i ∈ order})
        fun j hneeds hj => (hmem j).mpr ⟨hj, hdeps j hj, fun k hk => by
          have hneed := needsCandidate_iff.mpr ⟨hj, hk⟩
          obtain ⟨_, _, _, hstands⟩ := id hneed
          exact hneeds k hneed hstands.1⟩
      exact hclosed hi
    · intro before i after heq j hj hfresh hready
      have hjlen : j < cs.length := List.mem_range.mp hj
      exact hpriority before i after heq j hjlen hfresh ⟨hdeps j hjlen, fun k hk =>
        hready k (needsCandidate_iff.mpr ⟨hjlen, hk⟩)⟩
    · refine iff_of_false (not_not.mpr hacyclic) fun herror => ?_
      rw [hsort] at herror
      cases herror

end Kahn

/-- A plugin that lists its dependency twice. -/
def listsTwice : List Candidate :=
  [{ path := "plugin_a.so", name := "a" },
    { path := "plugin_b.so", name := "b", depends := ["a", "a"] }]

/-- The second plugin is never loaded, and the sort reports success. -/
theorem topoSort_correct_fails :
    topoSort listsTwice (StdHeap.sorted (loadKey listsTwice)) = some (.ok [0]) ∧
      ¬SortsPlugins listsTwice (StdHeap.sorted (loadKey listsTwice)) := by
  have hsort : topoSort listsTwice (StdHeap.sorted (loadKey listsTwice)) = some (.ok [0]) := by
    decide +kernel
  refine ⟨hsort, fun hsorts => ?_⟩
  by_cases hacyclic : Acyclic (NeedsCandidate listsTwice)
  · obtain ⟨order, hok, hschedule⟩ := hsorts.1 hacyclic
    obtain rfl : [0] = order := Except.ok.inj (Option.some.inj (hsort.symm.trans hok))
    exact absurd hschedule.perm.length_eq (by decide)
  · have herror := hsort.symm.trans (hsorts.2.mp hacyclic)
    cases herror

end UsrLinuxEmu.Kernel
