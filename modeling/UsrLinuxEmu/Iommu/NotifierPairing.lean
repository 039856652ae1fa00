import Mathlib.Data.List.Nodup
import UsrLinuxEmu.Iommu.DmaRemap
import UsrLinuxEmu.Transition.Simulation

/-!
# MMU notifiers of a domain (`plugins/iommu_driver/invalidate.cpp`, `dma_remap.cpp`)

A notifier is kept twice: in the list of the domain it was registered with, and in the registry of
`kernel/uvm/mmu_notifier.cpp` with the domain's `mm`.  An unmap walks the domain's list twice, and
the callbacks it makes can take notifiers out.

* `NotifierState.step` — registrations, unregistrations, maps, and unmaps whose loops go on one
  iteration at a time;
* `NotifierHistory` — every successful unmap, with the calls made until its loops are over;
* `NotifierLaw` — list and registry agree, and when no loop is going on every successful unmap has
  called each notifier that stayed registered exactly once in each loop, and no other;
* `carefully` — a notifier is unregistered through its own domain, and by a callback of the domain's
  own unmap only in the last iteration of a loop;
* `notifier_pairing` — then the law holds in every state of the run.
-/

namespace UsrLinuxEmu.Iommu

open UsrLinuxEmu.Transition

/-! ### Notifiers -/

/-- The two loops of an unmap: `invalidate_range_start`, then `invalidate_range_end`. -/
inductive RangePhase where
  | rangeStart
  | rangeEnd
  deriving DecidableEq, Repr

/-- Which callbacks an ops table has. -/
structure MmuNotifierOps where
  invalidateRangeStart : Bool
  invalidateRangeEnd : Bool
  deriving DecidableEq, Repr

/-- `state->mm` of every domain, and `mn->ops` of every notifier. -/
structure NotifierSetup where
  mm : ℕ → Option ℕ
  ops : ℕ → Option MmuNotifierOps

def NotifierSetup.callback (setup : NotifierSetup) (phase : RangePhase) (mn : ℕ) : Bool :=
  match setup.ops mn, phase with
  | none, _ => false
  | some ops, .rangeStart => ops.invalidateRangeStart
  | some ops, .rangeEnd => ops.invalidateRangeEnd

/-- An entry of `g_registry`. -/
structure NotifierEntry where
  mm : ℕ
  mn : ℕ
  deriving DecidableEq, Repr

/-- A loop of an unmap over the notifier list: the iteration, the end that was read when the loop
started, and whether a callback is running. -/
structure UnmapWalk where
  domain : ℕ
  phase : RangePhase
  position : ℕ
  stop : ℕ
  calling : Bool
  deriving DecidableEq, Repr

/-- `undefinedRead`: a loop has read an element past the end of the list. -/
structure NotifierState where
  pages : ℕ → IommuDomainState
  notifierList : ℕ → List ℕ
  registry : List NotifierEntry
  walk : Option UnmapWalk
  undefinedRead : Bool

/-- What the loop does next. -/
inductive WalkEvent where
  /-- The callback returns. -/
  | returns
  /-- The loop is over. -/
  | finished
  | pastEnd
  | call (mn : ℕ)
  /-- The notifier does not have the callback. -/
  | skip
  deriving DecidableEq, Repr

/-- The calls; an unmap starts its loops, `resume` is what they do next. -/
inductive NotifierOp where
  | map (domain : ℕ) (iova paddr size : UInt64)
  | register (domain mn : ℕ)
  | unregister (domain mn : ℕ)
  | unmap (domain : ℕ) (iova size : UInt64)
  | resume
  deriving DecidableEq, Repr

namespace NotifierState

variable (setup : NotifierSetup)

def init : NotifierState := ⟨fun _ => .empty, fun _ => [], [], none, false⟩

def findEntry (s : NotifierState) (mn : ℕ) : Option NotifierEntry :=
  s.registry.find? fun e => decide (e.mn = mn)

def mmuNotifierRegister (s : NotifierState) (mn mm : ℕ) : Int × NotifierState :=
  if setup.ops mn = none then (iommuErrEinval, s)
  else if (s.findEntry mn).isSome then (iommuErrEinval, s)
  else (0, { s with registry := s.registry ++ [⟨mm, mn⟩] })

def mmuNotifierUnregister (s : NotifierState) (mn : ℕ) : NotifierState :=
  { s with registry := s.registry.eraseP fun e => decide (e.mn = mn) }

def registerNotifierInternal (s : NotifierState) (d mn : ℕ) : Int × NotifierState :=
  match setup.mm d with
  | none => (iommuErrEinval, s)
  | some mm =>
    let r := s.mmuNotifierRegister setup mn mm
    if r.1 ≠ 0 then (r.1, s)
    else (iommuErrOk, { r.2 with
      notifierList := Function.update r.2.notifierList d (r.2.notifierList d ++ [mn]) })

def unregisterNotifierInternal (s : NotifierState) (d mn : ℕ) : NotifierState :=
  { s with notifierList := Function.update s.notifierList d ((s.notifierList d).erase mn) }
    |>.mmuNotifierUnregister mn

/-- The part of `iommu_unmap` before its loops. -/
def startUnmap (s : NotifierState) (d : ℕ) (iova size : UInt64) : NotifierState :=
  let r := (s.pages d).iommuUnmap iova size
  if r.1 < 0 then s
  else { s with
    pages := Function.update s.pages d r.2
    walk := some ⟨d, .rangeStart, 0, (s.notifierList d).length, false⟩ }

/-- What a loop over the list does next. -/
def event (w : UnmapWalk) (list : List ℕ) : WalkEvent :=
  if w.calling then .returns
  else if w.position = w.stop then .finished
  else
    match list[w.position]? with
    | none => .pastEnd
    | some mn => if setup.callback w.phase mn then .call mn else .skip

def resume (s : NotifierState) (w : UnmapWalk) : WalkEvent → NotifierState
  | .returns => { s with walk := some { w with position := w.position + 1, calling := false } }
  | .finished =>
    match w.phase with
    | .rangeStart =>
      { s with walk := some ⟨w.domain, .rangeEnd, 0, (s.notifierList w.domain).length, false⟩ }
    | .rangeEnd => { s with walk := none }
  | .pastEnd => { s with walk := none, undefinedRead := true }
  | .call _ => { s with walk := some { w with calling := true } }
  | .skip => { s with walk := some { w with position := w.position + 1 } }

/-- Within an unmap only a callback that is running calls, and only to unregister. -/
def step (s : NotifierState) (op : NotifierOp) : NotifierState :=
  match s.walk, op with
  | none, .map d iova paddr size =>
    { s with pages := Function.update s.pages d ((s.pages d).iommuMap iova paddr size).2 }
  | none, .register d mn => (s.registerNotifierInternal setup d mn).2
  | none, .unregister d mn => s.unregisterNotifierInternal d mn
  | none, .unmap d iova size => s.startUnmap d iova size
  | some w, .unregister d mn => if w.calling then s.unregisterNotifierInternal d mn else s
  | some w, .resume => s.resume w (event setup w (s.notifierList w.domain))
  | _, _ => s

end NotifierState

/-! ### The property -/

/-- A call of a callback, and whether the registry held the notifier then. -/
structure NotifierCall where
  phase : RangePhase
  mn : ℕ
  registered : Bool
  deriving DecidableEq, Repr

/-- A successful unmap whose loops are not over: the domain's list when it started and when its
loop started, and its calls so far. -/
structure OpenUnmap where
  before : List ℕ
  walked : List ℕ
  calls : List NotifierCall
  deriving DecidableEq, Repr

/-- An unmap that is over: the domain's list when it started and when it returned, and the calls it
made. -/
structure UnmapRecord where
  before : List ℕ
  after : List ℕ
  calls : List NotifierCall
  deriving DecidableEq, Repr

structure NotifierHistory where
  opened : Option OpenUnmap
  unmaps : List UnmapRecord

namespace NotifierHistory

variable (setup : NotifierSetup)

def empty : NotifierHistory := ⟨none, []⟩

/-- An unmap that returns the size is opened. -/
def noteUnmap (g : NotifierHistory) (s : NotifierState) (d : ℕ) (iova size : UInt64) :
    NotifierHistory :=
  if ((s.pages d).iommuUnmap iova size).1 < 0 then g
  else { g with opened := some ⟨s.notifierList d, s.notifierList d, []⟩ }

/-- The opened unmap is over. -/
def close (g : NotifierHistory) (after : List ℕ) : NotifierHistory :=
  match g.opened with
  | none => g
  | some u => ⟨none, ⟨u.before, after, u.calls⟩ :: g.unmaps⟩

def noteResume (g : NotifierHistory) (s : NotifierState) (w : UnmapWalk) :
    WalkEvent → NotifierHistory
  | .finished =>
    match w.phase with
    | .rangeStart =>
      { g with opened := g.opened.map fun u => { u with walked := s.notifierList w.domain } }
    | .rangeEnd => g.close (s.notifierList w.domain)
  | .call mn =>
    { g with opened := g.opened.map fun u =>
        { u with calls := u.calls ++ [⟨w.phase, mn, (s.findEntry mn).isSome⟩] } }
  | .returns | .pastEnd | .skip => g

def note (g : NotifierHistory) (s : NotifierState) (op : NotifierOp) : NotifierHistory :=
  match s.walk, op with
  | none, .unmap d iova size => g.noteUnmap s d iova size
  | some w, .resume =>
    g.noteResume s w (NotifierState.event setup w (s.notifierList w.domain))
  | _, _ => g

end NotifierHistory

/-- One call, for a notifier that has the callback. -/
def NotifierSetup.once (setup : NotifierSetup) (phase : RangePhase) (mn : ℕ) : List RangePhase :=
  if setup.callback phase mn then [phase] else []

/-- The calls that a notifier got, in order. -/
def callsOf (calls : List NotifierCall) (mn : ℕ) : List RangePhase :=
  (calls.filter fun c => decide (c.mn = mn)).map NotifierCall.phase

/-- A notifier that was registered with the domain throughout the unmap was called once in each
loop, in order, and no unregistered notifier was called. -/
structure UnmapRecord.Notified (setup : NotifierSetup) (r : UnmapRecord) : Prop where
  once : ∀ mn ∈ r.before, mn ∈ r.after →
    callsOf r.calls mn = setup.once .rangeStart mn ++ setup.once .rangeEnd mn
  registered : ∀ c ∈ r.calls, c.registered = true

/-- List and registry hold the same notifiers, each for its domain's `mm`; no loop has read past the
end; a successful unmap is over when no loop is going on, and then it has notified. -/
structure NotifierLaw (setup : NotifierSetup) (x : NotifierHistory × NotifierState) : Prop where
  listed : ∀ d, ∀ mn ∈ x.2.notifierList d, ∃ mm ∈ setup.mm d, ⟨mm, mn⟩ ∈ x.2.registry
  held : ∀ e ∈ x.2.registry, ∃ d, e.mm ∈ setup.mm d ∧ e.mn ∈ x.2.notifierList d
  defined : x.2.undefinedRead = false
  returned : x.2.walk = none → x.1.opened = none
  notified : ∀ r ∈ x.1.unmaps, r.Notified setup

/-- A registered notifier is unregistered through the domain that lists it, and by a callback of an
unmap of that domain only in the last iteration of the loop. -/
def carefully (s : NotifierState) : NotifierOp → Prop
  | .unregister d mn => ((s.findEntry mn).isSome = true → mn ∈ s.notifierList d) ∧
      ∀ w ∈ s.walk, w.domain = d → mn ∈ s.notifierList d → w.position + 1 = w.stop
  | _ => True

instance decidableCarefully (s : NotifierState) : ∀ op, Decidable (carefully s op)
  | .unregister d mn => inferInstanceAs (Decidable ((_ → mn ∈ s.notifierList d) ∧
      ∀ w ∈ s.walk, w.domain = d → mn ∈ s.notifierList d → w.position + 1 = w.stop))
  | .map .. | .register .. | .unmap .. | .resume => inferInstanceAs (Decidable True)

/-! ### Lists and registry -/

/-- Each notifier is listed once, with one domain, and registered for its `mm`. -/
structure Paired (setup : NotifierSetup) (s : NotifierState) : Prop where
  listed : ∀ d, ∀ mn ∈ s.notifierList d, ∃ mm ∈ setup.mm d, ⟨mm, mn⟩ ∈ s.registry
  held : ∀ e ∈ s.registry, ∃ d, e.mm ∈ setup.mm d ∧ e.mn ∈ s.notifierList d
  nodup : ∀ d, (s.notifierList d).Nodup
  owner : ∀ d d' mn, mn ∈ s.notifierList d → mn ∈ s.notifierList d' → d = d'
  keys : (s.registry.map NotifierEntry.mn).Nodup

theorem paired_init (setup : NotifierSetup) : Paired setup .init where
  listed := fun _ _ h => by cases h
  held := fun _ h => by cases h
  nodup := fun _ => List.nodup_nil
  owner := fun _ _ _ h => by cases h
  keys := List.nodup_nil

theorem findEntry_isSome {s : NotifierState} {mn : ℕ} :
    (s.findEntry mn).isSome = true ↔ ∃ e ∈ s.registry, e.mn = mn := by
  simp [NotifierState.findEntry]

theorem Paired.registered {setup : NotifierSetup} {s : NotifierState} (h : Paired setup s)
    {d mn : ℕ} (hmem : mn ∈ s.notifierList d) : (s.findEntry mn).isSome = true := by
  obtain ⟨mm, -, hentry⟩ := h.listed d mn hmem
  exact findEntry_isSome.mpr ⟨⟨mm, mn⟩, hentry, rfl⟩

theorem paired_register {setup : NotifierSetup} {s : NotifierState} (h : Paired setup s)
    (d mn : ℕ) : Paired setup (s.registerNotifierInternal setup d mn).2 := by
  unfold NotifierState.registerNotifierInternal NotifierState.mmuNotifierRegister
  cases hmm : setup.mm d with
  | none => exact h
  | some mm =>
    simp only
    by_cases hops : setup.ops mn = none
    · rw [if_pos hops, if_pos (show iommuErrEinval ≠ 0 by decide)]
      exact h
    rw [if_neg hops]
    by_cases hfound : (s.findEntry mn).isSome = true
    · rw [if_pos hfound, if_pos (show iommuErrEinval ≠ 0 by decide)]
      exact h
    rw [if_neg hfound, if_neg (not_not.mpr rfl)]
    have hnew : ∀ e ∈ s.registry, e.mn ≠ mn :=
      fun e he hmn => hfound (findEntry_isSome.mpr ⟨e, he, hmn⟩)
    have hunlisted : ∀ d', mn ∉ s.notifierList d' := fun d' hmem => hfound (h.registered hmem)
    have hlist : ∀ d' mn', mn' ∈ Function.update s.notifierList d (s.notifierList d ++ [mn]) d' ↔
        mn' ∈ s.notifierList d' ∨ (mn' = mn ∧ d' = d) := by
      intro d' mn'
      by_cases hd : d' = d
      · subst hd
        simp
      · simp [hd]
    refine ⟨?_, ?_, ?_, ?_, ?_⟩
    · intro d' mn' hmem
      rcases (hlist d' mn').mp hmem with hold | ⟨rfl, rfl⟩
      · obtain ⟨mm', hmm', hentry⟩ := h.listed d' mn' hold
        exact ⟨mm', hmm', List.mem_append_left _ hentry⟩
      · exact ⟨mm, hmm, List.mem_append_right _ (List.mem_singleton_self _)⟩
    · intro e he
      rcases List.mem_append.mp he with hold | hlast
      · obtain ⟨d', hd', hmem⟩ := h.held e hold
        exact ⟨d', hd', (hlist d' e.mn).mpr (.inl hmem)⟩
      · rw [List.mem_singleton.mp hlast]
        exact ⟨d, hmm, (hlist d mn).mpr (.inr ⟨rfl, rfl⟩)⟩
    · intro d'
      show (Function.update s.notifierList d (s.notifierList d ++ [mn]) d').Nodup
      by_cases hd : d' = d
      · subst hd
        rw [Function.update_self]
        exact List.nodup_append.mpr ⟨h.nodup d', List.nodup_singleton mn,
          fun a ha b hb hab => hunlisted d' (List.mem_singleton.mp hb ▸ hab ▸ ha)⟩
      · rw [Function.update_of_ne hd]
        exact h.nodup d'
    · intro d₁ d₂ mn' h₁ h₂
      rcases (hlist d₁ mn').mp h₁ with hold₁ | ⟨rfl, rfl⟩
      · rcases (hlist d₂ mn').mp h₂ with hold₂ | ⟨rfl, -⟩
        · exact h.owner d₁ d₂ mn' hold₁ hold₂
        · exact absurd hold₁ (hunlisted d₁)
      · rcases (hlist d₂ mn').mp h₂ with hold₂ | ⟨-, rfl⟩
        · exact absurd hold₂ (hunlisted d₂)
        · rfl
    · show ((s.registry ++ [NotifierEntry.mk mm mn]).map NotifierEntry.mn).Nodup
      rw [List.map_append, List.nodup_append]
      refine ⟨h.keys, List.nodup_singleton mn, fun a ha b hb hab => ?_⟩
      obtain ⟨e, he, rfl⟩ := List.mem_map.mp ha
      exact hnew e he (hab.trans (List.mem_singleton.mp hb))

/-- Where the keys differ, `eraseP` by a key takes out exactly that key. -/
theorem mem_eraseP_key {l : List NotifierEntry} (h : (l.map NotifierEntry.mn).Nodup) (mn : ℕ)
    (e : NotifierEntry) :
    e ∈ (l.eraseP fun e => decide (e.mn = mn)) ↔ e ∈ l ∧ e.mn ≠ mn := by
  induction l with
  | nil => simp
  | cons x l ih =>
    rw [List.map_cons, List.nodup_cons] at h
    by_cases hx : x.mn = mn
    · rw [List.eraseP_cons_of_pos (by simpa using hx), List.mem_cons]
      constructor
      · intro he
        refine ⟨.inr he, fun hmn => h.1 ?_⟩
        rw [hx, ← hmn]
        exact List.mem_map_of_mem he
      · rintro ⟨rfl | he, hmn⟩
        · exact absurd hx hmn
        · exact he
    · rw [List.eraseP_cons_of_neg (by simpa using hx), List.mem_cons, List.mem_cons, ih h.2]
      constructor
      · rintro (rfl | ⟨he, hmn⟩)
        · exact ⟨.inl rfl, hx⟩
        · exact ⟨.inr he, hmn⟩
      · rintro ⟨rfl | he, hmn⟩
        · exact .inl rfl
        · exact .inr ⟨he, hmn⟩

/-- An unregistration through the notifier's own domain. -/
theorem paired_unregister {setup : NotifierSetup} {s : NotifierState} (h : Paired setup s)
    {d mn : ℕ} (hown : (s.findEntry mn).isSome = true → mn ∈ s.notifierList d) :
    Paired setup (s.unregisterNotifierInternal d mn) := by
  have hlist : ∀ d' mn', mn' ∈ Function.update s.notifierList d ((s.notifierList d).erase mn) d' ↔
      mn' ∈ s.notifierList d' ∧ mn' ≠ mn := by
    intro d' mn'
    by_cases hd : d' = d
    · subst hd
      rw [Function.update_self, (h.nodup d').mem_erase_iff, and_comm]
    · rw [Function.update_of_ne hd]
      refine ⟨fun hmem => ⟨hmem, ?_⟩, fun hmem => hmem.1⟩
      rintro rfl
      exact hd (h.owner d' d mn' hmem (hown (h.registered hmem)))
  refine ⟨?_, ?_, ?_, ?_, ?_⟩
  · intro d' mn' hmem
    obtain ⟨hold, hne⟩ := (hlist d' mn').mp hmem
    obtain ⟨mm, hmm, hentry⟩ := h.listed d' mn' hold
    exact ⟨mm, hmm, (mem_eraseP_key h.keys mn _).mpr ⟨hentry, hne⟩⟩
  · intro e he
    obtain ⟨hold, hne⟩ := (mem_eraseP_key h.keys mn e).mp he
    obtain ⟨d', hd', hmem⟩ := h.held e hold
    exact ⟨d', hd', (hlist d' e.mn).mpr ⟨hmem, hne⟩⟩
  · intro d'
    show (Function.update s.notifierList d ((s.notifierList d).erase mn) d').Nodup
    by_cases hd : d' = d
    · subst hd
      rw [Function.update_self]
      exact (h.nodup d').erase mn
    · rw [Function.update_of_ne hd]
      exact h.nodup d'
  · intro d₁ d₂ mn' h₁ h₂
    exact h.owner d₁ d₂ mn' ((hlist d₁ mn').mp h₁).1 ((hlist d₂ mn').mp h₂).1
  · exact h.keys.sublist (List.eraseP_sublist.map _)

/-! ### Walks -/

/-- The list positions that a loop has dealt with. -/
def UnmapWalk.done (w : UnmapWalk) : ℕ := if w.calling then w.position + 1 else w.position

/-- The calls that a notifier which stays registered got from the earlier loop. -/
def callsBefore (setup : NotifierSetup) (mn : ℕ) : RangePhase → List RangePhase
  | .rangeStart => []
  | .rangeEnd => setup.once .rangeStart mn

/-- The calls that it has got so far. -/
def callsSoFar (setup : NotifierSetup) (w : UnmapWalk) (walked : List ℕ) (mn : ℕ) :
    List RangePhase :=
  callsBefore setup mn w.phase ++
    if mn ∈ walked.take w.done then setup.once w.phase mn else []

/-- The list is the one that the loop started with, until the last iteration. -/
structure WalkInv (setup : NotifierSetup) (u : OpenUnmap) (s : NotifierState)
    (w : UnmapWalk) : Prop where
  stop : w.stop = u.walked.length
  position : w.done ≤ w.stop
  whole : w.done < w.stop → s.notifierList w.domain = u.walked
  shrinks : (s.notifierList w.domain).Sublist u.walked
  nodup : u.walked.Nodup
  calls : ∀ mn ∈ s.notifierList w.domain,
    callsOf u.calls mn = callsSoFar setup w u.walked mn
  registered : ∀ c ∈ u.calls, c.registered = true

structure NotifierInv (setup : NotifierSetup) (x : NotifierHistory × NotifierState) : Prop where
  paired : Paired setup x.2
  defined : x.2.undefinedRead = false
  returned : x.2.walk = none → x.1.opened = none
  notified : ∀ r ∈ x.1.unmaps, r.Notified setup
  walk : ∀ w ∈ x.2.walk, ∃ u, x.1.opened = some u ∧ WalkInv setup u x.2 w

theorem NotifierInv.law {setup : NotifierSetup} {x : NotifierHistory × NotifierState}
    (h : NotifierInv setup x) : NotifierLaw setup x :=
  ⟨h.paired.listed, h.paired.held, h.defined, h.returned, h.notified⟩

theorem notifierInv_init (setup : NotifierSetup) : NotifierInv setup (.empty, .init) where
  paired := paired_init setup
  defined := rfl
  returned := fun _ => rfl
  notified := fun _ h => by cases h
  walk := fun _ h => by cases h

theorem callsOf_concat (calls : List NotifierCall) (c : NotifierCall) (mn : ℕ) :
    callsOf (calls ++ [c]) mn = callsOf calls mn ++ if c.mn = mn then [c.phase] else [] := by
  rw [callsOf, callsOf, List.filter_append, List.map_append, List.filter_cons]
  by_cases hmn : c.mn = mn
  · simp [hmn]
  · simp [hmn]

/-- The next list position adds the calls of the notifier there. -/
theorem callsSoFar_next {setup : NotifierSetup} {w w' : UnmapWalk} {walked : List ℕ}
    (hnodup : walked.Nodup) {next : ℕ} (hnext : walked[w.done]? = some next)
    (hphase : w'.phase = w.phase) (hdone : w'.done = w.done + 1) (mn : ℕ) :
    callsSoFar setup w' walked mn =
      callsSoFar setup w walked mn ++ if next = mn then setup.once w.phase mn else [] := by
  have htake : walked.take w'.done = walked.take w.done ++ [next] := by
    rw [hdone, List.take_add_one, hnext]
    rfl
  have hfresh : next ∉ walked.take w.done := by
    have hsplit := hnodup.sublist (List.take_sublist w'.done walked)
    rw [htake, List.nodup_append] at hsplit
    exact fun hmem => hsplit.2.2 next hmem next (List.mem_singleton_self _) rfl
  rw [callsSoFar, callsSoFar, hphase, htake, List.append_assoc]
  by_cases hmn : next = mn
  · subst hmn
    simp [hfresh]
  · simp [hmn, Ne.symm hmn]

/-- A notifier of the list has had its calls when the loop is over. -/
theorem WalkInv.calls_finished {setup : NotifierSetup} {u : OpenUnmap} {s : NotifierState}
    {w : UnmapWalk} (h : WalkInv setup u s w) (hdone : w.done = w.stop) :
    ∀ mn ∈ s.notifierList w.domain,
      callsOf u.calls mn = callsBefore setup mn w.phase ++ setup.once w.phase mn := by
  intro mn hmn
  rw [h.calls mn hmn, callsSoFar, hdone, h.stop, List.take_length, if_pos (h.shrinks.subset hmn)]

/-! ### Steps of a loop -/

section Walk

variable {setup : NotifierSetup} {u : OpenUnmap} {s : NotifierState} {w : UnmapWalk}

/-- The iteration ends. -/
theorem WalkInv.returns (h : WalkInv setup u s w) (hcalling : w.calling = true) (s' : NotifierState)
    (hlist : s'.notifierList = s.notifierList) :
    WalkInv setup u s' { w with position := w.position + 1, calling := false } := by
  have hdone : UnmapWalk.done { w with position := w.position + 1, calling := false } = w.done := by
    simp [UnmapWalk.done, hcalling]
  refine ⟨h.stop, hdone ▸ h.position, ?_, hlist ▸ h.shrinks, h.nodup, ?_, h.registered⟩
  · rw [hdone, hlist]
    exact h.whole
  · rw [hlist]
    intro mn hmn
    rw [h.calls mn hmn, callsSoFar, callsSoFar, hdone]

/-- A loop that is not over reads an element of the list that it started with. -/
theorem WalkInv.reads (h : WalkInv setup u s w) (hcalling : w.calling = false)
    (hstop : w.position ≠ w.stop) :
    w.done = w.position ∧ w.position < w.stop ∧ s.notifierList w.domain = u.walked ∧
      ∃ mn, u.walked[w.position]? = some mn := by
  have hdone : w.done = w.position := by simp [UnmapWalk.done, hcalling]
  have hle := h.position
  rw [hdone] at hle
  have hlt : w.position < w.stop := by omega
  refine ⟨hdone, hlt, h.whole (by omega), ?_⟩
  rw [h.stop] at hlt
  exact ⟨u.walked[w.position], List.getElem?_eq_getElem hlt⟩

/-- An iteration over a notifier starts its call, if it has one. -/
theorem WalkInv.iterate (h : WalkInv setup u s w) (hcalling : w.calling = false)
    (hstop : w.position ≠ w.stop) {mn : ℕ}
    (hread : (s.notifierList w.domain)[w.position]? = some mn) {s' : NotifierState}
    (hlist : s'.notifierList = s.notifierList) (w' : UnmapWalk)
    (hdomain : w'.domain = w.domain) (hphase : w'.phase = w.phase) (hstop' : w'.stop = w.stop)
    (hdone' : w'.done = w.position + 1) {calls : List NotifierCall}
    (hcalls : ∀ m, callsOf calls m =
      callsOf u.calls m ++ if mn = m then setup.once w.phase m else [])
    (hregistered : ∀ c ∈ calls, c.registered = true) :
    WalkInv setup { u with calls := calls } s' w' := by
  obtain ⟨hdone, hlt, hwhole, -⟩ := h.reads hcalling hstop
  refine ⟨hstop'.trans h.stop, ?_, ?_, ?_, h.nodup, ?_, hregistered⟩
  · rw [hdone', hstop']
    exact hlt
  · intro _
    rw [hlist, hdomain]
    exact hwhole
  · rw [hlist, hdomain]
    exact h.shrinks
  · rw [hlist, hdomain]
    intro m hm
    rw [hwhole, ← hdone] at hread
    rw [hcalls m, h.calls m hm,
      callsSoFar_next h.nodup hread hphase (by rw [hdone', hdone]) m]

/-- The second loop starts. -/
theorem WalkInv.second (h : WalkInv setup u s w) (hpaired : Paired setup s)
    (hcalling : w.calling = false) (hstop : w.position = w.stop) (hphase : w.phase = .rangeStart)
    {s' : NotifierState} (hlist : s'.notifierList = s.notifierList) :
    WalkInv setup { u with walked := s.notifierList w.domain } s'
      ⟨w.domain, .rangeEnd, 0, (s.notifierList w.domain).length, false⟩ := by
  have hdone : w.done = w.stop := by simpa [UnmapWalk.done, hcalling] using hstop
  refine ⟨rfl, Nat.zero_le _, fun _ => by rw [hlist], by rw [hlist], hpaired.nodup _, ?_,
    h.registered⟩
  rw [hlist]
  intro mn hmn
  rw [h.calls_finished hdone mn hmn, hphase, callsSoFar]
  simp [callsBefore, UnmapWalk.done]

/-- A callback unregisters a notifier. -/
theorem WalkInv.unregister (h : WalkInv setup u s w) (hcalling : w.calling = true) {d mn : ℕ}
    (hG : w.domain = d → mn ∈ s.notifierList d → w.position + 1 = w.stop) :
    WalkInv setup u (s.unregisterNotifierInternal d mn) w := by
  have hlist : (s.unregisterNotifierInternal d mn).notifierList =
      Function.update s.notifierList d ((s.notifierList d).erase mn) := rfl
  have hsub : ((s.unregisterNotifierInternal d mn).notifierList w.domain).Sublist
      (s.notifierList w.domain) := by
    rw [hlist]
    by_cases hd : w.domain = d
    · rw [hd, Function.update_self]
      exact List.erase_sublist
    · rw [Function.update_of_ne hd]
  refine ⟨h.stop, h.position, ?_, hsub.trans h.shrinks, h.nodup,
    fun m hm => h.calls m (hsub.subset hm), h.registered⟩
  intro hlt
  rw [← h.whole hlt, hlist]
  by_cases hd : w.domain = d
  · rw [hd, Function.update_self]
    apply List.erase_of_not_mem
    intro hmem
    -- only the last iteration takes out a notifier of the list
    have hlast := hG hd hmem
    have hdone : w.done = w.position + 1 := by simp [UnmapWalk.done, hcalling]
    omega
  · rw [Function.update_of_ne hd]

end Walk

/-! ### The result -/

theorem notifierInv_resume {setup : NotifierSetup} {g : NotifierHistory} {s : NotifierState}
    (h : NotifierInv setup (g, s)) {w : UnmapWalk} (hwalk : s.walk = some w) :
    NotifierInv setup (g.noteResume s w (NotifierState.event setup w (s.notifierList w.domain)),
      s.resume w (NotifierState.event setup w (s.notifierList w.domain))) := by
  obtain ⟨hpaired, hdefined, -, hnotified, hinv⟩ := h
  obtain ⟨u, hopened, hw⟩ := hinv w hwalk
  replace hopened : g.opened = some u := hopened
  -- the loop does not change list and registry
  have hkeep : ∀ s' : NotifierState, s'.notifierList = s.notifierList →
      s'.registry = s.registry → Paired setup s' := by
    rintro ⟨pages, list, registry, walk, undefinedRead⟩ rfl rfl
    exact ⟨hpaired.listed, hpaired.held, hpaired.nodup, hpaired.owner, hpaired.keys⟩
  unfold NotifierState.event
  by_cases hcalling : w.calling = true
  · rw [if_pos hcalling]
    refine ⟨hkeep _ rfl rfl, hdefined, nofun, hnotified, fun w' hw' => ⟨u, hopened, ?_⟩⟩
    obtain rfl := Option.some.inj hw'
    exact hw.returns hcalling _ rfl
  rw [if_neg hcalling]
  rw [Bool.not_eq_true] at hcalling
  by_cases hstop : w.position = w.stop
  · rw [if_pos hstop]
    have hdone : w.done = w.stop := by simpa [UnmapWalk.done, hcalling] using hstop
    cases hphase : w.phase with
    | rangeStart =>
      simp only [NotifierHistory.noteResume, NotifierState.resume, hphase, hopened, Option.map_some]
      refine ⟨hkeep _ rfl rfl, hdefined, nofun, hnotified, fun w' hw' => ⟨_, rfl, ?_⟩⟩
      obtain rfl := Option.some.inj hw'
      exact hw.second hpaired hcalling hstop hphase rfl
    | rangeEnd =>
      simp only [NotifierHistory.noteResume, NotifierState.resume, hphase, NotifierHistory.close,
        hopened]
      refine ⟨hkeep _ rfl rfl, hdefined, fun _ => rfl, fun r hr => ?_, fun w' hw' => by cases hw'⟩
      rcases List.mem_cons.mp hr with rfl | hr
      · refine ⟨fun mn _ hafter => ?_, hw.registered⟩
        rw [hw.calls_finished hdone mn hafter, hphase]
        rfl
      · exact hnotified r hr
  · rw [if_neg hstop]
    obtain ⟨hdone, -, hwhole, mn, hread⟩ := hw.reads hcalling hstop
    rw [← hwhole] at hread
    rw [hread]
    simp only
    split_ifs with hcb
    · simp only [NotifierHistory.noteResume, hopened, Option.map_some]
      refine ⟨hkeep _ rfl rfl, hdefined, nofun, hnotified, fun w' hw' => ⟨_, rfl, ?_⟩⟩
      obtain rfl := Option.some.inj hw'
      refine hw.iterate hcalling hstop hread (by rfl) { w with calling := true } rfl rfl rfl rfl
        ?_ ?_
      · intro m
        rw [callsOf_concat]
        by_cases hm : mn = m
        · subst hm
          simp [NotifierSetup.once, hcb]
        · simp [hm]
      · intro c hc
        rcases List.mem_append.mp hc with hold | hnew
        · exact hw.registered c hold
        · rw [List.mem_singleton.mp hnew]
          exact hpaired.registered (List.mem_of_getElem? hread)
    · refine ⟨hkeep _ rfl rfl, hdefined, nofun, hnotified, fun w' hw' => ⟨u, hopened, ?_⟩⟩
      obtain rfl := Option.some.inj hw'
      refine hw.iterate hcalling hstop hread (by rfl) { w with position := w.position + 1 } rfl rfl
        rfl ?_ ?_ hw.registered
      · simp [UnmapWalk.done, hcalling]
      · intro m
        by_cases hm : mn = m
        · subst hm
          simp [NotifierSetup.once, hcb]
        · simp [hm]

abbrev recordedNotifiers (setup : NotifierSetup) :=
  observed (NotifierState.step setup) (NotifierHistory.note setup)

/-- A registration does not touch a loop. -/
theorem registerNotifierInternal_keeps (setup : NotifierSetup) (s : NotifierState) (d mn : ℕ) :
    (s.registerNotifierInternal setup d mn).2.walk = s.walk ∧
      (s.registerNotifierInternal setup d mn).2.undefinedRead = s.undefinedRead := by
  unfold NotifierState.registerNotifierInternal NotifierState.mmuNotifierRegister
  cases setup.mm d with
  | none => exact ⟨rfl, rfl⟩
  | some mm =>
    simp only
    split_ifs
    all_goals exact ⟨rfl, rfl⟩

theorem notifierInv_step (setup : NotifierSetup) (x : NotifierHistory × NotifierState)
    (op : NotifierOp) (h : NotifierInv setup x) (hG : carefully x.2 op) :
    NotifierInv setup (recordedNotifiers setup x op) := by
  obtain ⟨g, s⟩ := x
  simp only [recordedNotifiers, observed, NotifierHistory.note, NotifierState.step]
  cases hwalk : s.walk with
  | none =>
    have hclosed : g.opened = none := h.returned hwalk
    have hnone : ∀ (g' : NotifierHistory) (s' : NotifierState), s'.walk = none →
        ∀ w ∈ s'.walk, ∃ u, g'.opened = some u ∧ WalkInv setup u s' w := by
      intro g' s' hs' w hw
      rw [hs'] at hw
      cases hw
    cases op with
    | map d iova paddr size =>
      simp only
      refine ⟨⟨h.paired.listed, h.paired.held, h.paired.nodup, h.paired.owner, h.paired.keys⟩,
        h.defined, fun _ => hclosed, h.notified, hnone _ _ rfl⟩
    | register d mn =>
      simp only
      obtain ⟨hkept, hundefined⟩ := registerNotifierInternal_keeps setup s d mn
      exact ⟨paired_register h.paired d mn, hundefined.trans h.defined, fun _ => hclosed,
        h.notified, hnone _ _ (hkept.trans hwalk)⟩
    | unregister d mn =>
      simp only
      exact ⟨paired_unregister h.paired hG.1, h.defined, fun _ => hclosed, h.notified,
        hnone _ _ hwalk⟩
    | unmap d iova size =>
      simp only
      unfold NotifierState.startUnmap NotifierHistory.noteUnmap
      simp only
      split_ifs with hrc
      · exact ⟨h.paired, h.defined, fun _ => hclosed, h.notified, hnone _ _ hwalk⟩
      · refine ⟨⟨h.paired.listed, h.paired.held, h.paired.nodup, h.paired.owner, h.paired.keys⟩,
          h.defined, nofun, h.notified, fun w hw => ⟨_, rfl, ?_⟩⟩
        obtain rfl := Option.some.inj hw
        refine ⟨rfl, Nat.zero_le _, fun _ => rfl, List.Sublist.refl _, h.paired.nodup d, ?_,
          fun c hc => by cases hc⟩
        intro mn _
        simp [callsOf, callsSoFar, callsBefore, UnmapWalk.done]
    | resume => exact h
  | some w =>
    cases op with
    | unregister d mn =>
      simp only
      split_ifs with hcalling
      · obtain ⟨u, hopened, hinv⟩ := h.walk w hwalk
        refine ⟨paired_unregister h.paired hG.1, h.defined, h.returned, h.notified,
          fun w' hw' => ⟨u, hopened, ?_⟩⟩
        have hw : w' = w := Option.some.inj (hw'.symm.trans hwalk)
        subst hw
        exact hinv.unregister hcalling (hG.2 w' hwalk)
      · exact h
    | resume => exact notifierInv_resume h hwalk
    | map _ _ _ _ | register _ _ | unmap _ _ _ => exact h

/-- **Pairing.**  When every notifier is unregistered through its own domain, and by a callback of
the domain's own unmap only in the last iteration, the law holds in every state of the run. -/
theorem notifier_pairing (setup : NotifierSetup) (ops : List NotifierOp)
    (hcareful : Guarded (NotifierState.step setup) carefully .init ops) :
    Always (recordedNotifiers setup) (NotifierLaw setup) (.empty, .init) ops := by
  rw [← guarded_observed (NotifierState.step setup) (NotifierHistory.note setup) carefully
    (.empty, .init)] at hcareful
  have hinv := always_of_inductive (notifierInv_step setup) (notifierInv_init setup) hcareful
  exact Always.mono (recordedNotifiers setup) (fun _ h => h.law) hinv

/-- Two domains of one process; every notifier has both callbacks. -/
def oneProcess : NotifierSetup := ⟨fun _ => some 0, fun _ => some ⟨true, true⟩⟩

/-- Two notifiers; the callback of the second unregisters it. -/
theorem notifier_pairing_run : Always (recordedNotifiers oneProcess) (NotifierLaw oneProcess)
    (.empty, .init) [.register 0 1, .register 0 2, .map 0 0 0 4096, .unmap 0 0 4096, .resume,
      .resume, .resume, .unregister 0 2, .resume, .resume, .resume, .resume, .resume] :=
  notifier_pairing oneProcess _ (by decide +kernel)

/-- A notifier unregistered through the other domain is still called by an unmap of the first. -/
theorem notifier_pairing_fails :
    ¬Always (recordedNotifiers oneProcess) (NotifierLaw oneProcess) (.empty, .init)
      [.register 0 1, .unregister 1 1, .map 0 0 0 4096, .unmap 0 0 4096, .resume, .resume,
        .resume, .resume, .resume, .resume, .resume] := by
  intro h
  have hnotified := (Always.last _ h).notified
    ⟨[1], [1], [⟨.rangeStart, 1, false⟩, ⟨.rangeEnd, 1, false⟩]⟩ (by decide +kernel)
  have hregistered := hnotified.registered ⟨.rangeStart, 1, false⟩ (by decide)
  cases hregistered

end UsrLinuxEmu.Iommu
