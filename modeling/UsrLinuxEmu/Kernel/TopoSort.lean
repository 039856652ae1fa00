import Mathlib.Data.Finset.Card
import Mathlib.Data.List.Zip
import Mathlib.Logic.Function.Basic
import UsrLinuxEmu.Graph.Precedence

/-!
# The order in which plugins are loaded (`src/kernel/module_loader.cpp`)

`topo_sort` looks for a dependency cycle depth first, then takes candidates with no dependency left
from a heap, smallest `load_priority` first.  Names that no candidate carries are passed over, and a
name that several candidates carry stands for the last of them.

* `Candidate` / `index` — what a scan finds, and the candidate a name stands for;
* `detectCycle` / `anyCycle` — the depth-first search; the fuel bounds its depth;
* `Kahn` / `kahnLoop` — the counts, the heap and the order so far; the fuel bounds the loop;
* `NeedsCandidate` / `SortsPlugins` — the dependency graph, and what a sort is for;
* `topoSort_correct_iff` — when the sort delivers it.
-/

namespace UsrLinuxEmu.Kernel

open Relation UsrLinuxEmu.Graph

/-! ### Candidates -/

structure Candidate where
  path : String
  name : String
  loadPriority : UInt32 := 1000
  depends : List String := []
  deriving Inhabited

/-- The candidate at a position; the positions in use are those of the list. -/
def candidateAt (cs : List Candidate) (i : ℕ) : Candidate := cs.getD i default

/-- The map from names to positions: a later candidate takes the place of an earlier one. -/
def index (cs : List Candidate) : String → Option ℕ :=
  cs.zipIdx.foldl (fun idx ci => Function.update idx ci.1.name (some ci.2)) fun _ => none

/-! ### Cycle detection -/

structure Marks where
  visited : Finset String
  stack : Finset String

/-- The loop over names that a cycle ends. -/
def anyCycle (detect : String → Marks → Option (Bool × Marks)) :
    List String → Marks → Option (Bool × Marks)
  | [], m => some (false, m)
  | name :: names, m =>
    match detect name m with
    | none => none
    | some (true, m) => some (true, m)
    | some (false, m) => anyCycle detect names m

/-- The dependency names of a name: none when no candidate carries it. -/
def dependNames (cs : List Candidate) (name : String) : List String :=
  match index cs name with
  | some i => (candidateAt cs i).depends
  | none => []

def detectCycle (cs : List Candidate) : ℕ → String → Marks → Option (Bool × Marks)
  | 0, _, _ => none
  | fuel + 1, name, m =>
    if name ∈ m.stack then some (true, m)
    else if name ∈ m.visited then some (false, m)
    else
      match anyCycle (detectCycle cs fuel) (dependNames cs name)
          { m with stack := insert name m.stack } with
      | none => none
      | some (true, m) => some (true, m)
      | some (false, m) =>
        some (false, { visited := insert name m.visited, stack := m.stack.erase name })

/-! ### The sort -/

/-- The comparison of the heap: the greater `load_priority` stands lower. -/
def loadsAfter (cs : List Candidate) (a b : ℕ) : Bool :=
  decide ((candidateAt cs a).loadPriority.toNat > (candidateAt cs b).loadPriority.toNat)

structure Kahn where
  indeg : ℕ → ℤ
  pq : List ℕ
  loadOrder : List ℕ

/-- How many entries of the dependency list are candidates, repeated ones included. -/
def indegree (cs : List Candidate) (i : ℕ) : ℤ :=
  (candidateAt cs i).depends.countP fun d => (index cs d).isSome

/-- One of the dependencies is the candidate `u`. -/
def depU (cs : List Candidate) (u i : ℕ) : Bool :=
  (candidateAt cs i).depends.any fun d => index cs d == some u

section Sorting

variable (cs : List Candidate) (heap : StdHeap (loadsAfter cs))

/-- One turn of the inner loop: `u` is loaded, and `i` may have waited for it. -/
def release (u : ℕ) (s : Kahn) (i : ℕ) : Kahn :=
  if depU cs u i then
    let s := { s with indeg := Function.update s.indeg i (s.indeg i - 1) }
    if s.indeg i = 0 then { s with pq := heap.pushHeap (s.pq ++ [i]) } else s
  else s

/-- One turn of the outer loop, with a heap that is not empty. -/
def loadNext (s : Kahn) : Kahn :=
  let pq := heap.popHeap s.pq
  let u := pq.getLastD 0
  (List.range cs.length).foldl (release cs heap u)
    { s with pq := pq.dropLast, loadOrder := s.loadOrder ++ [u] }

def kahnLoop : ℕ → Kahn → Option (List ℕ)
  | 0, _ => none
  | fuel + 1, s => if s.pq.isEmpty then some s.loadOrder else kahnLoop fuel (loadNext cs heap s)

def kahnStart : Kahn where
  indeg := indegree cs
  pq := heap.makeHeap ((List.range cs.length).filter fun i => indegree cs i = 0)
  loadOrder := []

def ELOOP : ℤ := 40

/-- The load order, or the error; nothing when the fuel of a loop runs out. -/
def topoSort : Option (Except ℤ (List ℕ)) :=
  match anyCycle (detectCycle cs (cs.length + 1)) (cs.map Candidate.name) ⟨∅, ∅⟩ with
  | none => none
  | some (true, _) => some (.error (-ELOOP))
  | some (false, _) => (kahnLoop cs heap (cs.length + 1) (kahnStart cs heap)).map .ok

end Sorting

/-! ### What a sort is for -/

/-- The name stands for the candidate at the position: the last one that carries it. -/
def StandsFor (cs : List Candidate) (name : String) (i : ℕ) : Prop :=
  i < cs.length ∧ (candidateAt cs i).name = name ∧
    ∀ j, i < j → j < cs.length → (candidateAt cs j).name ≠ name

/-- The dependency graph of the candidates. -/
def NeedsCandidate (cs : List Candidate) (i j : ℕ) : Prop :=
  i < cs.length ∧ ∃ d ∈ (candidateAt cs i).depends, StandsFor cs d j

/-- The position's `load_priority`, the key of the order. -/
def loadKey (cs : List Candidate) (i : ℕ) : ℕ := (candidateAt cs i).loadPriority.toNat

/-- An acyclic graph is scheduled, and exactly a cyclic one is refused. -/
def SortsPlugins (cs : List Candidate) (heap : StdHeap (loadsAfter cs)) : Prop :=
  (Acyclic (NeedsCandidate cs) → ∃ order, topoSort cs heap = some (.ok order) ∧
    Schedule (NeedsCandidate cs) (loadKey cs) (List.range cs.length) order) ∧
  (¬Acyclic (NeedsCandidate cs) ↔ topoSort cs heap = some (.error (-ELOOP)))

/-- The dependency list names no candidate twice. -/
def NamesOnce (cs : List Candidate) (c : Candidate) : Prop :=
  (c.depends.filter (· ∈ cs.map Candidate.name)).Nodup

/-! ### Names and positions -/

section Names

variable {cs : List Candidate}

theorem candidateAt_append {c : Candidate} {i : ℕ} (hi : i < cs.length) :
    candidateAt (cs ++ [c]) i = candidateAt cs i := by
  rw [candidateAt, candidateAt, List.getD_eq_getElem?_getD, List.getD_eq_getElem?_getD,
    List.getElem?_append_left hi]

theorem candidateAt_concat (cs : List Candidate) (c : Candidate) :
    candidateAt (cs ++ [c]) cs.length = c := by
  rw [candidateAt, List.getD_eq_getElem?_getD, List.getElem?_concat_length, Option.getD_some]

theorem candidateAt_mem {i : ℕ} (hi : i < cs.length) : candidateAt cs i ∈ cs := by
  rw [candidateAt, List.getD_eq_getElem?_getD, List.getElem?_eq_getElem hi, Option.getD_some]
  exact List.getElem_mem hi

theorem exists_candidateAt {c : Candidate} (hc : c ∈ cs) :
    ∃ i, i < cs.length ∧ candidateAt cs i = c := by
  obtain ⟨i, hi, rfl⟩ := List.mem_iff_getElem.mp hc
  refine ⟨i, hi, ?_⟩
  rw [candidateAt, List.getD_eq_getElem?_getD, List.getElem?_eq_getElem hi, Option.getD_some]

theorem index_concat (cs : List Candidate) (c : Candidate) :
    index (cs ++ [c]) = Function.update (index cs) c.name (some cs.length) := by
  rw [index, List.zipIdx_append, List.foldl_append, Nat.zero_add]
  rfl

/-- The map holds, under each name, the candidate it stands for. -/
theorem index_eq_some_iff {d : String} {i : ℕ} : index cs d = some i ↔ StandsFor cs d i := by
  induction cs using List.reverseRecOn generalizing i with
  | nil =>
    exact ⟨fun h => absurd h (Option.some_ne_none i).symm,
      fun h => absurd h.1 (Nat.not_lt_zero i)⟩
  | append_singleton cs c ih =>
    have hlen : (cs ++ [c]).length = cs.length + 1 := List.length_append
    rw [index_concat]
    by_cases hd : d = c.name
    · rw [hd, Function.update_self, Option.some.injEq]
      constructor
      · rintro rfl
        exact ⟨by omega, by rw [candidateAt_concat], fun j hj hj' => by omega⟩
      · intro ⟨hi, _, hlast⟩
        by_contra hne
        exact hlast cs.length (by omega) (by omega) (by rw [candidateAt_concat])
    · rw [Function.update_of_ne hd, ih]
      constructor
      · intro ⟨hi, hname, hlast⟩
        refine ⟨by omega, by rw [candidateAt_append hi, hname], fun j hj hj' => ?_⟩
        by_cases hjlen : j < cs.length
        · rw [candidateAt_append hjlen]
          exact hlast j hj hjlen
        · obtain rfl : j = cs.length := by omega
          rw [candidateAt_concat]
          exact Ne.symm hd
      · intro ⟨hi, hname, hlast⟩
        have hilen : i < cs.length := by
          by_contra hge
          obtain rfl : i = cs.length := by omega
          rw [candidateAt_concat] at hname
          exact hd hname.symm
        rw [candidateAt_append hilen] at hname
        refine ⟨hilen, hname, fun j hj hj' => ?_⟩
        have hne := hlast j hj (by omega)
        rwa [candidateAt_append hj'] at hne

theorem index_injective {d e : String} {i : ℕ} (hd : index cs d = some i)
    (he : index cs e = some i) : d = e := by
  rw [← (index_eq_some_iff.mp hd).2.1, ← (index_eq_some_iff.mp he).2.1]

/-- Exactly the candidates' names are in the map. -/
theorem index_isSome_iff {d : String} : (index cs d).isSome ↔ d ∈ cs.map Candidate.name := by
  rw [List.mem_map]
  constructor
  · intro h
    obtain ⟨i, hi⟩ := Option.isSome_iff_exists.mp h
    have hstands := index_eq_some_iff.mp hi
    exact ⟨candidateAt cs i, candidateAt_mem hstands.1, hstands.2.1⟩
  · rintro ⟨c, hc, rfl⟩
    induction cs using List.reverseRecOn with
    | nil => exact absurd hc List.not_mem_nil
    | append_singleton cs b ih =>
      rw [index_concat]
      by_cases hname : c.name = b.name
      · rw [hname, Function.update_self]
        rfl
      · rw [Function.update_of_ne hname]
        rcases List.mem_append.mp hc with hc | hc
        · exact ih hc
        · rw [List.mem_singleton.mp hc] at hname
          exact absurd rfl hname

end Names

/-! ### The search finds the cycles -/

/-- The graph that the search walks: names need the names their candidate lists. -/
def NeedsName (cs : List Candidate) (name d : String) : Prop := d ∈ dependNames cs name

theorem needsName_iff {cs : List Candidate} {name d : String} :
    NeedsName cs name d ↔ ∃ i, index cs name = some i ∧ d ∈ (candidateAt cs i).depends := by
  rw [NeedsName, dependNames]
  cases index cs name with
  | none => simp
  | some i => simp

/-- What an answer of the search says: a cycle, or none through the names it was asked about. -/
def Answers (cs : List Candidate) (m : Marks) (names : List String) :
    Option (Bool × Marks) → Prop
  | none => False
  | some (true, _) => ¬Acyclic (NeedsName cs)
  | some (false, m') => m'.stack = m.stack ∧ (∀ v ∈ m'.visited, Grounded (NeedsName cs) v) ∧
      ∀ name ∈ names, Grounded (NeedsName cs) name

/-- What holds when the search asks about the names: the visited ones are off every cycle, and the
names on the stack, candidates all, lead to each of them. -/
structure Asks (cs : List Candidate) (m : Marks) (names : List String) : Prop where
  visited : ∀ v ∈ m.visited, Grounded (NeedsName cs) v
  stack : m.stack ⊆ (cs.map Candidate.name).toFinset
  leads : ∀ name ∈ names, ∀ v ∈ m.stack, TransGen (NeedsName cs) v name

theorem anyCycle_answers {cs : List Candidate} {detect : String → Marks → Option (Bool × Marks)}
    {stack : Finset String}
    (hdetect : ∀ name m, m.stack = stack → Asks cs m [name] → Answers cs m [name] (detect name m))
    (names : List String) (m : Marks) (hm : m.stack = stack) (h : Asks cs m names) :
    Answers cs m names (anyCycle detect names m) := by
  induction names generalizing m with
  | nil => exact ⟨rfl, h.visited, fun name hname => absurd hname List.not_mem_nil⟩
  | cons name names ih =>
    have hone : Asks cs m [name] :=
      ⟨h.visited, h.stack, fun n hn => h.leads n (by
        rw [List.mem_singleton.mp hn]
        exact List.mem_cons_self)⟩
    have hfirst := hdetect name m hm hone
    rw [anyCycle]
    cases hres : detect name m with
    | none =>
      rw [hres] at hfirst
      exact hfirst
    | some answer =>
      obtain ⟨found, m₁⟩ := answer
      rw [hres] at hfirst
      cases found with
      | true => exact hfirst
      | false =>
        obtain ⟨hstack, hvisited, hname⟩ := hfirst
        have hnext : Asks cs m₁ names :=
          ⟨hvisited, by rw [hstack]; exact h.stack, by
            rw [hstack]
            exact fun n hn => h.leads n (List.mem_cons_of_mem _ hn)⟩
        have hrest := ih m₁ (hstack.trans hm) hnext
        show Answers cs m (name :: names) (anyCycle detect names m₁)
        cases hlast : anyCycle detect names m₁ with
        | none =>
          rw [hlast] at hrest
          exact hrest
        | some answer =>
          obtain ⟨found, m₂⟩ := answer
          rw [hlast] at hrest
          cases found with
          | true => exact hrest
          | false =>
            refine ⟨hrest.1.trans hstack, hrest.2.1, fun n hn => ?_⟩
            rcases List.mem_cons.mp hn with rfl | hn
            · exact hname n List.mem_cons_self
            · exact hrest.2.2 n hn

theorem detectCycle_answers {cs : List Candidate} (fuel : ℕ) (name : String) (m : Marks)
    (hfuel : (cs.map Candidate.name).toFinset.card + 1 ≤ fuel + m.stack.card)
    (h : Asks cs m [name]) : Answers cs m [name] (detectCycle cs fuel name m) := by
  induction fuel generalizing name m with
  | zero =>
    have hcard := Finset.card_le_card h.stack
    omega
  | succ fuel ih =>
    rw [detectCycle]
    by_cases hstack : name ∈ m.stack
    · rw [if_pos hstack]
      exact fun hacyclic => hacyclic name (h.leads name List.mem_cons_self name hstack)
    rw [if_neg hstack]
    by_cases hvisited : name ∈ m.visited
    · rw [if_pos hvisited]
      refine ⟨rfl, h.visited, fun n hn => ?_⟩
      rw [List.mem_singleton.mp hn]
      exact h.visited name hvisited
    rw [if_neg hvisited]
    -- the names it needs, with the name itself on the stack
    have hneeds : Answers cs { m with stack := insert name m.stack } (dependNames cs name)
        (anyCycle (detectCycle cs fuel) (dependNames cs name)
          { m with stack := insert name m.stack }) := by
      cases hidx : index cs name with
      | none =>
        have hnil : dependNames cs name = [] := by rw [dependNames, hidx]
        rw [hnil]
        exact ⟨rfl, h.visited, fun n hn => absurd hn List.not_mem_nil⟩
      | some i =>
        have hmem : name ∈ (cs.map Candidate.name).toFinset := by
          rw [List.mem_toFinset, ← index_isSome_iff, hidx]
          rfl
        refine @anyCycle_answers _ _ (insert name m.stack) (fun n m' hm' hasks => ?_) _ _ rfl
          ⟨h.visited, Finset.insert_subset hmem h.stack, fun n hn v hv => ?_⟩
        · refine ih n m' ?_ hasks
          rw [hm', Finset.card_insert_of_notMem hstack]
          omega
        · rcases Finset.mem_insert.mp hv with rfl | hv
          · exact TransGen.single hn
          · exact (h.leads name List.mem_cons_self v hv).tail hn
    cases hres : anyCycle (detectCycle cs fuel) (dependNames cs name)
        { m with stack := insert name m.stack } with
    | none =>
      rw [hres] at hneeds
      exact hneeds
    | some answer =>
      obtain ⟨found, m'⟩ := answer
      rw [hres] at hneeds
      cases found with
      | true => exact hneeds
      | false =>
        have hname : Grounded (NeedsName cs) name := Grounded.of_needs hneeds.2.2
        refine ⟨?_, fun v hv => ?_, fun n hn => ?_⟩
        · show m'.stack.erase name = m.stack
          rw [hneeds.1]
          exact Finset.erase_insert hstack
        · rcases Finset.mem_insert.mp hv with rfl | hv
          · exact hname
          · exact hneeds.2.1 v hv
        · rw [List.mem_singleton.mp hn]
          exact hname

/-! ### Names against positions -/

theorem needsName_of_needsCandidate {cs : List Candidate} {i j : ℕ} {d : String}
    (hidx : index cs d = some i) (h : NeedsCandidate cs i j) :
    ∃ e, index cs e = some j ∧ NeedsName cs d e := by
  obtain ⟨_, e, he, hstands⟩ := h
  exact ⟨e, index_eq_some_iff.mpr hstands, needsName_iff.mpr ⟨i, hidx, he⟩⟩

theorem grounded_of_name {cs : List Candidate} {d : String} (h : Grounded (NeedsName cs) d) :
    ∀ i, index cs d = some i → Grounded (NeedsCandidate cs) i := by
  induction h with
  | intro d _ ih =>
    intro i hidx
    refine Grounded.of_needs fun j hj => ?_
    obtain ⟨e, he, hneeds⟩ := needsName_of_needsCandidate hidx hj
    exact ih e hneeds j he

/-- When no candidate's name is on a cycle, no position is. -/
theorem grounded_of_names {cs : List Candidate}
    (h : ∀ name ∈ cs.map Candidate.name, Grounded (NeedsName cs) name) (i : ℕ) :
    Grounded (NeedsCandidate cs) i := by
  refine Grounded.of_needs fun j hj => ?_
  obtain ⟨_, e, he, hstands⟩ := hj
  have hidx := index_eq_some_iff.mpr hstands
  have hmem : e ∈ cs.map Candidate.name := by
    rw [← index_isSome_iff, hidx]
    rfl
  exact grounded_of_name (h e hmem) j hidx

/-- A cycle of names is one of positions: every name on it is a candidate's. -/
theorem transGen_of_names {cs : List Candidate} {d e : String}
    (h : TransGen (NeedsName cs) d e) {j : ℕ} (he : index cs e = some j) :
    ∃ i, index cs d = some i ∧ TransGen (NeedsCandidate cs) i j := by
  induction h using TransGen.head_induction_on with
  | single hstep =>
    obtain ⟨i, hidx, hmem⟩ := needsName_iff.mp hstep
    have hlt := (index_eq_some_iff.mp hidx).1
    exact ⟨i, hidx, TransGen.single ⟨hlt, _, hmem, index_eq_some_iff.mp he⟩⟩
  | head hstep _ ih =>
    obtain ⟨k, hk, hpath⟩ := ih
    obtain ⟨i, hidx, hmem⟩ := needsName_iff.mp hstep
    have hlt := (index_eq_some_iff.mp hidx).1
    exact ⟨i, hidx, TransGen.head ⟨hlt, _, hmem, index_eq_some_iff.mp hk⟩ hpath⟩

theorem acyclic_names {cs : List Candidate} (h : Acyclic (NeedsCandidate cs)) :
    Acyclic (NeedsName cs) := by
  intro d hcycle
  obtain ⟨e, hfirst, _⟩ := TransGen.head'_iff.mp hcycle
  obtain ⟨j, hidx, _⟩ := needsName_iff.mp hfirst
  obtain ⟨i, hi, hpath⟩ := transGen_of_names hcycle hidx
  obtain rfl : i = j := Option.some.inj (hi.symm.trans hidx)
  exact h i hpath

/-- **The search is exact.**  It ends, and it answers that there is a cycle when there is one. -/
theorem search_answers (cs : List Candidate) :
    (¬Acyclic (NeedsCandidate cs) ∧ ∃ m, anyCycle (detectCycle cs (cs.length + 1))
      (cs.map Candidate.name) ⟨∅, ∅⟩ = some (true, m)) ∨
    ((∀ i, Grounded (NeedsCandidate cs) i) ∧ ∃ m, anyCycle (detectCycle cs (cs.length + 1))
      (cs.map Candidate.name) ⟨∅, ∅⟩ = some (false, m)) := by
  have hcard : (cs.map Candidate.name).toFinset.card ≤ cs.length := by
    have hle := List.toFinset_card_le (cs.map Candidate.name)
    rwa [List.length_map] at hle
  have hanswers := @anyCycle_answers cs (detectCycle cs (cs.length + 1)) ∅
    (fun name m hm hasks => detectCycle_answers _ name m (by omega) hasks)
    (cs.map Candidate.name) ⟨∅, ∅⟩ rfl
    ⟨fun v hv => absurd hv (Finset.notMem_empty v), Finset.empty_subset _,
      fun _ _ v hv => absurd hv (Finset.notMem_empty v)⟩
  cases hres : anyCycle (detectCycle cs (cs.length + 1)) (cs.map Candidate.name) ⟨∅, ∅⟩ with
  | none =>
    rw [hres] at hanswers
    exact hanswers.elim
  | some answer =>
    obtain ⟨found, m⟩ := answer
    rw [hres] at hanswers
    cases found with
    | true => exact .inl ⟨fun hacyclic => hanswers (acyclic_names hacyclic), m, rfl⟩
    | false => exact .inr ⟨grounded_of_names hanswers.2.2, m, rfl⟩

end UsrLinuxEmu.Kernel
