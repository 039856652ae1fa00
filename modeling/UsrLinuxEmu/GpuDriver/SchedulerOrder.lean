import Mathlib.Algebra.Order.Ring.Nat
import Mathlib.Data.List.Perm.Basic
import UsrLinuxEmu.GpuDriver.GlobalScheduler
import UsrLinuxEmu.Transition.Run
import UsrLinuxEmu.Transition.Simulation

/-!
# Order and conservation of the global scheduler (`sim/scheduler/global_scheduler.cpp`)

Items leave the ordered multiset by priority and age, except that after ten picks above normal
priority the oldest low or normal item is forced out.  A boost and its restoration take the items of
a channel out and put them back with another priority.

* `FairScheduler` — the scheduler with its starvation counter, `boostPriority`,
  `restorePriority` and `dequeue`;
* `SchedulerHistory` — what was enqueued, boosted, restored and dequeued;
* `WaitingItem.effective` — the priority of a waiting item, from the boosts and restorations alone;
* `FairlyScheduled` — conservation, the order of every pick, and a pick whenever an item waits;
* `fairly_scheduled_iff` — the runs in which that holds: no forced pick takes the item whose
  sequence number is the sentinel.
-/

namespace UsrLinuxEmu.GpuDriver

open UsrLinuxEmu.Transition

/-! ### The operations -/

def GlobalScheduler.kStarvationThreshold : Int32 := 10

/-- `UINT64_MAX`, which `extract_oldest_low_or_normal` returns when it finds nothing. -/
def noSequence : UInt64 := 0xFFFFFFFFFFFFFFFF

/-- The scheduler with the counter of picks above normal priority. -/
structure FairScheduler extends GlobalScheduler where
  starvationCycleCounter : Int32

/-- The items that `hit` selects are erased, changed and inserted again, in the queue's order. -/
def requeue (hit : WorkItem → Bool) (change : WorkItem → WorkItem) (queue : List WorkItem) :
    List WorkItem :=
  ((queue.filter hit).map change).foldl (fun q item => insertItem item q)
    (queue.filter fun item => !hit item)

def shouldForceLowPriority (item : WorkItem) : Bool := decide (item.priority ≤ gpuChanPriNormal)

/-- The loop of `extract_oldest_low_or_normal`: the first of the items with the least number. -/
def oldestLowOrNormal (queue : List WorkItem) : Option WorkItem :=
  queue.foldl (fun best item =>
    if shouldForceLowPriority item then
      match best with
      | none => some item
      | some b => if item.sequenceId < b.sequenceId then some item else some b
    else best) none

namespace FairScheduler

def create (launchCb : Bool) (kernelNames : UInt32 → Option String) : FairScheduler :=
  ⟨GlobalScheduler.create launchCb kernelNames, 0⟩

def enqueueWithPriority (s : FairScheduler) (entry : GpuGpfifoEntry) (engine : EngineType)
    (priority channelId : Int) : FairScheduler :=
  { s with toGlobalScheduler :=
      (s.toGlobalScheduler.enqueueWithPriority entry engine priority channelId).2 }

def boostPriority (s : FairScheduler) (channelId boosted : Int) : FairScheduler :=
  { s with
    inheritedPriorities := Function.update s.inheritedPriorities channelId (some boosted)
    queue := requeue
      (fun item => decide (item.channelId = channelId) && decide (item.priority < boosted))
      (fun item => { item with priority := boosted }) s.queue }

def restorePriority (s : FairScheduler) (channelId : Int) : FairScheduler :=
  { s with
    inheritedPriorities := Function.update s.inheritedPriorities channelId none
    queue := requeue
      (fun item => decide (item.channelId = channelId) &&
        decide (item.priority ≠ item.originalPriority))
      (fun item => { item with priority := item.originalPriority }) s.queue }

/-- The pick of `queue_.begin()`; on an empty queue it is undefined, here nothing. -/
def popFirst (s : FairScheduler) : Option WorkItem × FairScheduler :=
  match s.queue with
  | [] => (none, s)
  | item :: rest =>
    (some item, { s with
      queue := rest
      starvationCycleCounter :=
        if item.priority ≤ gpuChanPriNormal then 0 else s.starvationCycleCounter + 1 })

/-- A forced pick is due. -/
def starving (s : FairScheduler) : Bool :=
  decide (GlobalScheduler.kStarvationThreshold ≤ s.starvationCycleCounter)

/-- A forced item with the sentinel's number has left the queue when it is taken for none. -/
def dequeue (s : FairScheduler) : Option WorkItem × FairScheduler :=
  match s.queue with
  | [] => (none, s)
  | _ :: _ =>
    if s.starving then
      match oldestLowOrNormal s.queue with
      | none => s.popFirst
      | some forced =>
        if forced.sequenceId ≠ noSequence then
          (some forced, { s with queue := s.queue.erase forced, starvationCycleCounter := 0 })
        else { s with queue := s.queue.erase forced }.popFirst
    else s.popFirst

end FairScheduler

/-! ### Runs and their history -/

inductive SchedulerOp where
  | enqueue (entry : GpuGpfifoEntry) (engine : EngineType) (priority channelId : Int)
  | boost (channelId boosted : Int)
  | restore (channelId : Int)
  | dequeue
  deriving DecidableEq, Repr

namespace FairScheduler

def step (s : FairScheduler) : SchedulerOp → FairScheduler
  | .enqueue entry engine priority channelId =>
    s.enqueueWithPriority entry engine priority channelId
  | .boost channelId boosted => s.boostPriority channelId boosted
  | .restore channelId => s.restorePriority channelId
  | .dequeue => s.dequeue.2

end FairScheduler

/-- The item as it was enqueued, whatever its priority has become. -/
def WorkItem.asEnqueued (item : WorkItem) : WorkItem :=
  { item with priority := item.originalPriority }

/-- What is done to the priorities of a channel. -/
inductive PriorityChange where
  | boost (channelId boosted : Int)
  | restore (channelId : Int)
  deriving DecidableEq, Repr

/-- The priority that a channel hands on to its new items: its last boost, unless it has been
restored since.  The newest change comes first. -/
def inherited (channelId : Int) : List PriorityChange → Option Int
  | [] => none
  | .boost c boosted :: older =>
    if channelId = c then some boosted else inherited channelId older
  | .restore c :: older => if channelId = c then none else inherited channelId older

/-- What a change makes of the priority of an item. -/
def PriorityChange.apply (item : WorkItem) (priority : Int) : PriorityChange → Int
  | .boost c boosted => if item.channelId = c then max priority boosted else priority
  | .restore c => if item.channelId = c then item.originalPriority else priority

/-- An item that has been enqueued and not been dequeued, with the changes made before and since. -/
structure WaitingItem where
  item : WorkItem
  before : List PriorityChange
  since : List PriorityChange

namespace WaitingItem

/-- The effective priority: the inherited one if that is higher, and every change since. -/
def effective (w : WaitingItem) : Int :=
  w.since.foldr (fun change priority => change.apply w.item priority)
    (match inherited w.item.channelId w.before with
      | none => w.item.originalPriority
      | some p => max w.item.originalPriority p)

/-- The item with its effective priority. -/
def current (w : WaitingItem) : WorkItem := { w.item with priority := w.effective }

def change (c : PriorityChange) (w : WaitingItem) : WaitingItem := { w with since := c :: w.since }

end WaitingItem

/-- A pick: what was waiting, whether a forced pick was due, and the item dequeued. -/
structure Pick where
  waiting : List WorkItem
  starving : Bool
  item : WorkItem

/-- `refused` keeps what was waiting at the dequeues that returned nothing. -/
structure SchedulerHistory where
  enqueued : List WorkItem
  changes : List PriorityChange
  waiting : List WaitingItem
  picks : List Pick
  refused : List (List WorkItem)

namespace SchedulerHistory

def empty : SchedulerHistory := ⟨[], [], [], [], []⟩

def current (g : SchedulerHistory) : List WorkItem := g.waiting.map WaitingItem.current

def change (g : SchedulerHistory) (c : PriorityChange) : SchedulerHistory :=
  { g with changes := c :: g.changes, waiting := g.waiting.map (WaitingItem.change c) }

/-- The item leaves the waiting ones. -/
def pick (g : SchedulerHistory) (starving : Bool) (item : WorkItem) : SchedulerHistory :=
  { g with
    waiting := g.waiting.eraseP fun w => decide (w.current = item)
    picks := ⟨g.current, starving, item⟩ :: g.picks }

def note (g : SchedulerHistory) (s : FairScheduler) : SchedulerOp → SchedulerHistory
  | .enqueue entry engine priority channelId =>
    let item := ⟨entry, engine, priority, priority, channelId, s.sequenceCounter⟩
    { g with
      enqueued := item :: g.enqueued
      waiting := ⟨item, g.changes, []⟩ :: g.waiting }
  | .boost channelId boosted => g.change (.boost channelId boosted)
  | .restore channelId => g.change (.restore channelId)
  | .dequeue =>
    match s.dequeue.1 with
    | none => { g with refused := g.current :: g.refused }
    | some item => g.pick s.starving item

end SchedulerHistory

/-! ### The property -/

/-- A forced pick takes the oldest low or normal item; any other pick takes an item of the highest
priority, and the oldest of these. -/
def Pick.InOrder (p : Pick) : Prop :=
  p.item ∈ p.waiting ∧
    if p.starving = true ∧ ∃ item ∈ p.waiting, shouldForceLowPriority item = true then
      shouldForceLowPriority p.item = true ∧
        ∀ item ∈ p.waiting, shouldForceLowPriority item = true →
          p.item.sequenceId ≤ item.sequenceId
    else
      ∀ item ∈ p.waiting, item.priority ≤ p.item.priority ∧
        (item.priority = p.item.priority → p.item.sequenceId ≤ item.sequenceId)

/-- Each enqueued item has been dequeued once or is queued once, every pick is in order, and no
dequeue returned nothing while an item was waiting. -/
structure FairlyScheduled (x : SchedulerHistory × FairScheduler) : Prop where
  conserved : x.1.enqueued.Perm
    ((x.1.picks.map fun p => p.item.asEnqueued) ++ x.2.queue.map WorkItem.asEnqueued)
  inOrder : ∀ p ∈ x.1.picks, p.InOrder
  served : ∀ waiting ∈ x.1.refused, waiting = []

/-- No forced pick takes the item numbered as the sentinel. -/
def sparesSentinel (s : FairScheduler) : SchedulerOp → Prop
  | .dequeue => s.starving = true →
      ∀ forced ∈ oldestLowOrNormal s.queue, forced.sequenceId ≠ noSequence
  | _ => True

instance decidableSparesSentinel (s : FairScheduler) : ∀ op, Decidable (sparesSentinel s op)
  | .dequeue => inferInstanceAs (Decidable (_ → _))
  | .enqueue .. | .boost .. | .restore _ => inferInstanceAs (Decidable True)

/-! ### The ordered queue -/

theorem before_iff (a b : WorkItem) : a.before b = true ↔
    b.priority < a.priority ∨ (a.priority = b.priority ∧ a.sequenceId < b.sequenceId) := by
  unfold WorkItem.before
  split_ifs with h
  · have hne := h
    simp only [decide_eq_true_eq, hne, false_and, or_false]
  · have heq : a.priority = b.priority := not_not.mp h
    simp only [decide_eq_true_eq, heq, Int.lt_irrefl, true_and, false_or]

/-- `CompareByPriority` is a strict weak order: what is before `b` is before what `b` is not
behind. -/
theorem before_of_not_before {a b c : WorkItem} (hab : a.before b = true)
    (hbc : c.before b = false) : a.before c = true := by
  rw [before_iff] at hab ⊢
  rw [← Bool.not_eq_true, before_iff] at hbc
  simp only [UInt64.lt_iff_toNat_lt] at hab hbc ⊢
  omega

theorem before_asymm {a b : WorkItem} (h : a.before b = true) : b.before a = false := by
  rw [← Bool.not_eq_true, before_iff]
  rw [before_iff] at h
  simp only [UInt64.lt_iff_toNat_lt] at h ⊢
  omega

/-- No item comes before one that stands in front of it. -/
def Sorted (queue : List WorkItem) : Prop := queue.Pairwise fun a b => b.before a = false

theorem insertItem_perm (item : WorkItem) (queue : List WorkItem) :
    (insertItem item queue).Perm (item :: queue) := by
  induction queue with
  | nil => exact .refl _
  | cons x queue ih =>
    rw [insertItem]
    split_ifs
    · exact .refl _
    · exact (ih.cons x).trans (.swap item x queue)

theorem sorted_insertItem {item : WorkItem} {queue : List WorkItem} (h : Sorted queue) :
    Sorted (insertItem item queue) := by
  induction queue with
  | nil => exact List.pairwise_singleton ..
  | cons x queue ih =>
    obtain ⟨hx, hqueue⟩ := List.pairwise_cons.mp h
    rw [insertItem]
    split_ifs with hbefore
    · refine List.pairwise_cons.mpr ⟨fun y hy => ?_, h⟩
      rcases List.mem_cons.mp hy with rfl | hy
      · exact before_asymm hbefore
      · exact before_asymm (before_of_not_before hbefore (hx y hy))
    · refine List.pairwise_cons.mpr ⟨fun y hy => ?_, ih hqueue⟩
      rcases List.mem_cons.mp ((insertItem_perm item queue).mem_iff.mp hy) with rfl | hy
      · exact Bool.not_eq_true _ ▸ hbefore
      · exact hx y hy

theorem foldl_insertItem_perm (items queue : List WorkItem) :
    (items.foldl (fun q item => insertItem item q) queue).Perm (items ++ queue) := by
  induction items generalizing queue with
  | nil => exact .refl _
  | cons item items ih =>
    have hinsert := (insertItem_perm item queue).append_left items
    exact ((ih _).trans hinsert).trans List.perm_middle

theorem sorted_foldl_insertItem (items : List WorkItem) {queue : List WorkItem} (h : Sorted queue) :
    Sorted (items.foldl (fun q item => insertItem item q) queue) := by
  induction items generalizing queue with
  | nil => exact h
  | cons item items ih => exact ih (sorted_insertItem h)

/-- Taking items out and putting them back changes exactly those items. -/
theorem requeue_perm (hit : WorkItem → Bool) (change : WorkItem → WorkItem)
    (queue : List WorkItem) : (requeue hit change queue).Perm
      (queue.map fun item => if hit item then change item else item) := by
  refine (foldl_insertItem_perm _ _).trans ?_
  induction queue with
  | nil => exact .refl _
  | cons item queue ih =>
    cases hhit : hit item with
    | true =>
      simp only [List.filter_cons, hhit, Bool.not_true, if_true, Bool.false_eq_true, if_false,
        List.map_cons, List.cons_append]
      exact ih.cons _
    | false =>
      simp only [List.filter_cons, hhit, Bool.not_false, if_true, Bool.false_eq_true, if_false,
        List.map_cons]
      exact List.perm_middle.trans (ih.cons _)

theorem sorted_requeue {hit : WorkItem → Bool} {change : WorkItem → WorkItem}
    {queue : List WorkItem} (h : Sorted queue) : Sorted (requeue hit change queue) :=
  sorted_foldl_insertItem _ (h.filter _)

/-- A change that keeps the item as it was enqueued. -/
theorem requeue_asEnqueued {hit : WorkItem → Bool} {change : WorkItem → WorkItem}
    (hchange : ∀ item, (change item).asEnqueued = item.asEnqueued) (queue : List WorkItem) :
    ((requeue hit change queue).map WorkItem.asEnqueued).Perm (queue.map WorkItem.asEnqueued) := by
  refine ((requeue_perm hit change queue).map _).trans (List.Perm.of_eq ?_)
  rw [List.map_map]
  refine List.map_congr_left fun item _ => ?_
  rw [Function.comp_apply]
  split_ifs
  · exact hchange item
  · rfl

/-! ### Picks -/

/-- The step of the loop in `oldestLowOrNormal`. -/
theorem oldest_foldl (queue : List WorkItem) (best : Option WorkItem) (item : WorkItem)
    (h : queue.foldl (fun best item =>
      if shouldForceLowPriority item then
        match best with
        | none => some item
        | some b => if item.sequenceId < b.sequenceId then some item else some b
      else best) best = some item) :
    (best = some item ∨ (item ∈ queue ∧ shouldForceLowPriority item = true)) ∧
      (∀ b ∈ best, item.sequenceId ≤ b.sequenceId) ∧
      ∀ x ∈ queue, shouldForceLowPriority x = true → item.sequenceId ≤ x.sequenceId := by
  induction queue generalizing best with
  | nil =>
    have hbest : best = some item := h
    refine ⟨.inl hbest, fun b hb => ?_, by simp⟩
    rw [hbest] at hb
    rw [← Option.some.inj hb]
    exact UInt64.le_refl _
  | cons x queue ih =>
    rw [List.foldl_cons] at h
    obtain ⟨hmem, hbest, hrest⟩ := ih _ h
    by_cases hx : shouldForceLowPriority x = true
    · rw [if_pos hx] at hmem hbest
      cases best with
      | none =>
        have hle := hbest x rfl
        refine ⟨.inr ?_, by simp, fun y hy hlow => ?_⟩
        · rcases hmem with heq | ⟨hin, hlow⟩
          · obtain rfl := Option.some.inj heq
            exact ⟨List.mem_cons_self, hx⟩
          · exact ⟨List.mem_cons_of_mem _ hin, hlow⟩
        · rcases List.mem_cons.mp hy with rfl | hy
          · exact hle
          · exact hrest y hy hlow
      | some b =>
        have hleast : item.sequenceId ≤ b.sequenceId ∧ item.sequenceId ≤ x.sequenceId := by
          simp only at hbest
          split_ifs at hbest with hlt
          · have hle := hbest x rfl
            simp only [UInt64.le_iff_toNat_le, UInt64.lt_iff_toNat_lt] at hle hlt ⊢
            omega
          · have hle := hbest b rfl
            simp only [UInt64.le_iff_toNat_le, UInt64.lt_iff_toNat_lt] at hle hlt ⊢
            omega
        refine ⟨?_, fun b' hb' => ?_, fun y hy hlow => ?_⟩
        · rcases hmem with heq | ⟨hin, hlow⟩
          · simp only at heq
            split_ifs at heq
            · obtain rfl := Option.some.inj heq
              exact .inr ⟨List.mem_cons_self, hx⟩
            · exact .inl heq
          · exact .inr ⟨List.mem_cons_of_mem _ hin, hlow⟩
        · rw [← Option.some.inj hb']
          exact hleast.1
        · rcases List.mem_cons.mp hy with rfl | hy
          · exact hleast.2
          · exact hrest y hy hlow
    · rw [if_neg hx] at hmem hbest
      refine ⟨?_, hbest, fun y hy hlow => ?_⟩
      · rcases hmem with heq | ⟨hin, hlow⟩
        · exact .inl heq
        · exact .inr ⟨List.mem_cons_of_mem _ hin, hlow⟩
      · rcases List.mem_cons.mp hy with rfl | hy
        · exact absurd hlow hx
        · exact hrest y hy hlow

theorem oldest_eq_some {queue : List WorkItem} {item : WorkItem}
    (h : oldestLowOrNormal queue = some item) :
    item ∈ queue ∧ shouldForceLowPriority item = true ∧
      ∀ x ∈ queue, shouldForceLowPriority x = true → item.sequenceId ≤ x.sequenceId := by
  obtain ⟨hmem, -, hleast⟩ := oldest_foldl queue none item h
  rcases hmem with habs | ⟨hin, hlow⟩
  · cases habs
  · exact ⟨hin, hlow, hleast⟩

theorem oldest_eq_none {queue : List WorkItem} (h : oldestLowOrNormal queue = none) :
    ∀ x ∈ queue, shouldForceLowPriority x = false := by
  have hkeep : ∀ (queue : List WorkItem) (b : WorkItem), queue.foldl (fun best item =>
      if shouldForceLowPriority item then
        match best with
        | none => some item
        | some b => if item.sequenceId < b.sequenceId then some item else some b
      else best) (some b) ≠ none := by
    intro queue
    induction queue with
    | nil => simp
    | cons x queue ih =>
      intro b
      rw [List.foldl_cons]
      split_ifs with hx
      · simp only
        split_ifs
        · exact ih x
        · exact ih b
      · exact ih b
  induction queue with
  | nil => simp
  | cons x queue ih =>
    rw [oldestLowOrNormal, List.foldl_cons] at h
    by_cases hx : shouldForceLowPriority x = true
    · rw [if_pos hx] at h
      exact absurd h (hkeep queue x)
    · rw [if_neg hx] at h
      intro y hy
      rcases List.mem_cons.mp hy with rfl | hy
      · exact Bool.not_eq_true _ ▸ hx
      · exact ih h y hy

/-- The head of a sorted queue has the highest priority and is the oldest of that priority. -/
theorem head_first {item : WorkItem} {rest : List WorkItem} (h : Sorted (item :: rest)) :
    ∀ x ∈ item :: rest, x.priority ≤ item.priority ∧
      (x.priority = item.priority → item.sequenceId ≤ x.sequenceId) := by
  intro x hx
  rcases List.mem_cons.mp hx with rfl | hx
  · exact ⟨Int.le_refl _, fun _ => UInt64.le_refl _⟩
  · have hnot := (List.pairwise_cons.mp h).1 x hx
    rw [← Bool.not_eq_true, before_iff] at hnot
    simp only [UInt64.lt_iff_toNat_lt, UInt64.le_iff_toNat_le] at hnot ⊢
    omega

/-- A dequeue of an empty queue does nothing; any other one takes one item, in order. -/
theorem dequeue_spec {s : FairScheduler} (hsorted : Sorted s.queue)
    (hG : sparesSentinel s .dequeue) :
    (s.queue = [] ∧ s.dequeue = (none, s)) ∨
      ∃ item, s.dequeue.1 = some item ∧ s.queue.Perm (item :: s.dequeue.2.queue) ∧
        s.dequeue.2.queue.Sublist s.queue ∧ Pick.InOrder ⟨s.queue, s.starving, item⟩ := by
  cases hq : s.queue with
  | nil => exact .inl ⟨rfl, by simp only [FairScheduler.dequeue, hq]⟩
  | cons first rest =>
    right
    have hpop : s.popFirst.1 = some first ∧ s.popFirst.2.queue = rest := by
      simp only [FairScheduler.popFirst, hq, and_self]
    have hfirst : ∀ x ∈ first :: rest, x.priority ≤ first.priority ∧
        (x.priority = first.priority → first.sequenceId ≤ x.sequenceId) :=
      head_first (hq ▸ hsorted)
    by_cases hstarving : s.starving = true
    · cases hforced : oldestLowOrNormal s.queue with
      | none =>
        have hdequeue : s.dequeue = s.popFirst := by
          simp only [FairScheduler.dequeue, hq, if_pos hstarving, hq ▸ hforced]
        have hnone := oldest_eq_none hforced
        rw [hq] at hnone
        rw [hdequeue]
        refine ⟨first, hpop.1, by rw [hpop.2], by rw [hpop.2]; exact List.sublist_cons_self ..,
          List.mem_cons_self, ?_⟩
        rw [if_neg]
        · exact hfirst
        · rintro ⟨-, x, hx, hlow⟩
          rw [hnone x hx] at hlow
          cases hlow
      | some forced =>
        obtain ⟨hmem, hlow, hleast⟩ := oldest_eq_some hforced
        have hne := hG hstarving forced hforced
        have hdequeue : s.dequeue = (some forced,
            { s with queue := s.queue.erase forced, starvationCycleCounter := 0 }) := by
          simp only [FairScheduler.dequeue, hq, if_pos hstarving, hq ▸ hforced, if_pos hne]
        rw [hdequeue]
        rw [hq] at hmem hleast
        refine ⟨forced, rfl, ?_, ?_, hmem, ?_⟩
        · rw [hq]
          exact List.perm_cons_erase hmem
        · rw [hq]
          exact List.erase_sublist
        · rw [if_pos ⟨hstarving, forced, hmem, hlow⟩]
          exact ⟨hlow, hleast⟩
    · have hdequeue : s.dequeue = s.popFirst := by
        simp only [FairScheduler.dequeue, hq, if_neg hstarving]
      rw [hdequeue]
      refine ⟨first, hpop.1, by rw [hpop.2], by rw [hpop.2]; exact List.sublist_cons_self ..,
        List.mem_cons_self, ?_⟩
      rw [if_neg fun h => hstarving h.1]
      exact hfirst

/-- The item taken for none is gone. -/
theorem dequeue_sentinel {s : FairScheduler} {forced : WorkItem} (hstarving : s.starving = true)
    (hforced : oldestLowOrNormal s.queue = some forced) (hseq : forced.sequenceId = noSequence) :
    (s.dequeue.1.toList ++ s.dequeue.2.queue).length + 1 = s.queue.length := by
  have hmem := (oldest_eq_some hforced).1
  have hlen := List.length_erase_of_mem hmem
  have hpos := List.length_pos_of_mem hmem
  have hdequeue : s.dequeue = { s with queue := s.queue.erase forced }.popFirst := by
    cases hq : s.queue with
    | nil => simp [hq] at hpos
    | cons first rest =>
      simp only [FairScheduler.dequeue, hq, if_pos hstarving, hq ▸ hforced]
      rw [if_neg (by simp [hseq])]
  rw [hdequeue, FairScheduler.popFirst]
  cases hrest : s.queue.erase forced with
  | nil =>
    rw [hrest, List.length_nil] at hlen
    simp only [Option.toList_none, List.nil_append, List.length_nil]
    omega
  | cons item rest =>
    rw [hrest, List.length_cons] at hlen
    simp only [Option.toList_some, List.singleton_append, List.length_cons]
    omega

@[simp] theorem popFirst_inheritedPriorities (s : FairScheduler) :
    s.popFirst.2.inheritedPriorities = s.inheritedPriorities := by
  unfold FairScheduler.popFirst
  split
  · rfl
  · rfl

@[simp] theorem dequeue_inheritedPriorities (s : FairScheduler) :
    s.dequeue.2.inheritedPriorities = s.inheritedPriorities := by
  unfold FairScheduler.dequeue
  cases hqueue : s.queue with
  | nil => rfl
  | cons first rest =>
    simp only
    split_ifs
    · cases oldestLowOrNormal (first :: rest) with
      | none => exact popFirst_inheritedPriorities s
      | some forced =>
        simp only
        split_ifs
        · rfl
        · exact popFirst_inheritedPriorities _
    · exact popFirst_inheritedPriorities s

/-! ### The result -/

abbrev recordedStep := observed FairScheduler.step SchedulerHistory.note

/-- The queue holds the waiting items with their effective priorities, and the side table what the
channels hand on. -/
structure SchedInv (x : SchedulerHistory × FairScheduler) : Prop extends FairlyScheduled x where
  sorted : Sorted x.2.queue
  waiting : x.2.queue.Perm x.1.current
  table : ∀ channelId, x.2.inheritedPriorities channelId = inherited channelId x.1.changes

theorem schedInv_create (launchCb : Bool) (kernelNames : UInt32 → Option String) :
    SchedInv (.empty, .create launchCb kernelNames) where
  conserved := .refl _
  inOrder := fun _ h => by cases h
  served := fun _ h => by cases h
  sorted := .nil
  waiting := .nil
  table := fun _ => rfl

/-- A new item enters the queue with its effective priority. -/
theorem enqueue_current {g : SchedulerHistory} {s : FairScheduler}
    (htable : ∀ channelId, s.inheritedPriorities channelId = inherited channelId g.changes)
    (entry : GpuGpfifoEntry) (engine : EngineType) (priority channelId : Int) :
    (s.enqueueWithPriority entry engine priority channelId).queue =
      insertItem (WaitingItem.current ⟨⟨entry, engine, priority, priority, channelId,
        s.sequenceCounter⟩, g.changes, []⟩) s.queue := by
  simp only [FairScheduler.enqueueWithPriority, GlobalScheduler.enqueueWithPriority,
    htable channelId, WaitingItem.current, WaitingItem.effective, List.foldr_nil]
  cases inherited channelId g.changes with
  | none => rfl
  | some p =>
    have hmax : (if priority < p then p else priority) = max priority p := by
      split_ifs with hlt
      · exact (max_eq_right hlt.le).symm
      · exact (max_eq_left (Int.not_lt.mp hlt)).symm
    simp only [hmax]

theorem schedInv_enqueue {g : SchedulerHistory} {s : FairScheduler} (hinv : SchedInv (g, s))
    (entry : GpuGpfifoEntry) (engine : EngineType) (priority channelId : Int) :
    SchedInv (recordedStep (g, s) (.enqueue entry engine priority channelId)) := by
  have hqueue := enqueue_current hinv.table entry engine priority channelId
  have hinsert := insertItem_perm (WaitingItem.current ⟨⟨entry, engine, priority, priority,
    channelId, s.sequenceCounter⟩, g.changes, []⟩) s.queue
  rw [← hqueue] at hinsert
  refine ⟨⟨?_, hinv.inOrder, hinv.served⟩, sorted_insertItem hinv.sorted, ?_, hinv.table⟩
  · have hnew := (hinv.conserved.cons ⟨entry, engine, priority, priority, channelId,
      s.sequenceCounter⟩).trans List.perm_middle.symm
    exact hnew.trans ((hinsert.map WorkItem.asEnqueued).symm.append_left _)
  · exact hinsert.trans (hinv.waiting.cons _)

/-- What a change does to the queued items it does to the waiting ones. -/
theorem waiting_change {g : SchedulerHistory} {queue queue' : List WorkItem}
    {revise : WorkItem → WorkItem} (c : PriorityChange)
    (hrevise : ∀ item, revise item = { item with priority := c.apply item item.priority })
    (hperm : queue'.Perm (queue.map revise)) (hwaiting : queue.Perm g.current) :
    queue'.Perm (g.change c).current := by
  refine (hperm.trans (hwaiting.map _)).trans (List.Perm.of_eq ?_)
  rw [SchedulerHistory.current, SchedulerHistory.current, SchedulerHistory.change, List.map_map,
    List.map_map]
  apply List.map_congr_left
  intro w _
  show revise w.current = _
  rw [hrevise]
  cases c with
  | boost channelId boosted => rfl
  | restore channelId => rfl

theorem schedInv_boost {g : SchedulerHistory} {s : FairScheduler} (hinv : SchedInv (g, s))
    (channelId boosted : Int) :
    SchedInv (recordedStep (g, s) (.boost channelId boosted)) := by
  have hqueue : ((s.boostPriority channelId boosted).queue.map WorkItem.asEnqueued).Perm
      (s.queue.map WorkItem.asEnqueued) := by
    apply requeue_asEnqueued
    intro item
    rfl
  refine ⟨⟨hinv.conserved.trans (hqueue.symm.append_left _), hinv.inOrder, hinv.served⟩,
    sorted_requeue hinv.sorted,
    waiting_change (.boost channelId boosted) ?_ (requeue_perm _ _ _) hinv.waiting, ?_⟩
  · intro item
    simp only [PriorityChange.apply, Bool.and_eq_true, decide_eq_true_eq]
    by_cases hch : item.channelId = channelId
    · by_cases hlt : item.priority < boosted
      · rw [if_pos ⟨hch, hlt⟩, if_pos hch, max_eq_right hlt.le]
      · rw [if_neg fun h => hlt h.2, if_pos hch, max_eq_left (Int.not_lt.mp hlt)]
    · rw [if_neg fun h => hch h.1, if_neg hch]
  · intro c
    show Function.update s.inheritedPriorities channelId (some boosted) c = _
    rw [Function.update_apply, hinv.table c]
    rfl

theorem schedInv_restore {g : SchedulerHistory} {s : FairScheduler} (hinv : SchedInv (g, s))
    (channelId : Int) : SchedInv (recordedStep (g, s) (.restore channelId)) := by
  have hqueue : ((s.restorePriority channelId).queue.map WorkItem.asEnqueued).Perm
      (s.queue.map WorkItem.asEnqueued) := by
    apply requeue_asEnqueued
    intro item
    rfl
  refine ⟨⟨hinv.conserved.trans (hqueue.symm.append_left _), hinv.inOrder, hinv.served⟩,
    sorted_requeue hinv.sorted,
    waiting_change (.restore channelId) ?_ (requeue_perm _ _ _) hinv.waiting, ?_⟩
  · intro item
    simp only [PriorityChange.apply, Bool.and_eq_true, decide_eq_true_eq]
    by_cases hch : item.channelId = channelId
    · by_cases heq : item.priority = item.originalPriority
      · rw [if_neg fun h => h.2 heq, if_pos hch]
        exact congrArg (fun p => { item with priority := p }) heq
      · rw [if_pos ⟨hch, heq⟩, if_pos hch]
    · rw [if_neg fun h => hch h.1, if_neg hch]
  · intro c
    show Function.update s.inheritedPriorities channelId none c = _
    rw [Function.update_apply, hinv.table c]
    rfl

/-- What is picked in order from a queue is picked in order from the same items. -/
theorem Pick.InOrder.perm {queue waiting : List WorkItem} {starving : Bool} {item : WorkItem}
    (hperm : queue.Perm waiting) (h : Pick.InOrder ⟨queue, starving, item⟩) :
    Pick.InOrder ⟨waiting, starving, item⟩ := by
  unfold Pick.InOrder at h ⊢
  simp only [hperm.mem_iff] at h ⊢
  exact h

theorem schedInv_dequeue {g : SchedulerHistory} {s : FairScheduler} (hinv : SchedInv (g, s))
    (hG : sparesSentinel s .dequeue) : SchedInv (recordedStep (g, s) .dequeue) := by
  obtain ⟨hempty, hsame⟩ | ⟨item, hitem, hperm, hsub, hpick⟩ := dequeue_spec hinv.sorted hG
  · have hstep : recordedStep (g, s) .dequeue =
        ({ g with refused := g.current :: g.refused }, s) := by
      simp only [recordedStep, observed, SchedulerHistory.note, FairScheduler.step, hsame]
    rw [hstep]
    refine ⟨⟨hinv.conserved, hinv.inOrder, ?_⟩, hinv.sorted, hinv.waiting, hinv.table⟩
    intro waiting hwaiting
    rcases List.mem_cons.mp hwaiting with rfl | hwaiting
    · have hnone : s.queue.Perm g.current := hinv.waiting
      rw [hempty] at hnone
      exact List.nil_perm.mp hnone
    · exact hinv.served waiting hwaiting
  · have hstep : recordedStep (g, s) .dequeue = (g.pick s.starving item, s.dequeue.2) := by
      simp only [recordedStep, observed, SchedulerHistory.note, FairScheduler.step, hitem]
    rw [hstep]
    refine ⟨⟨?_, ?_, hinv.served⟩, hinv.sorted.sublist hsub, ?_, ?_⟩
    · exact (hinv.conserved.trans ((hperm.map _).append_left _)).trans List.perm_middle
    · intro p hp
      rcases List.mem_cons.mp hp with rfl | hp
      · exact hpick.perm hinv.waiting
      · exact hinv.inOrder p hp
    · have hrest := (hperm.symm.trans hinv.waiting).erase item
      rw [List.erase_cons_head] at hrest
      refine hrest.trans (List.Perm.of_eq ?_)
      simp only [SchedulerHistory.current, SchedulerHistory.pick]
      rw [List.erase_eq_eraseP', List.eraseP_map]
      rfl
    · intro c
      simp only [dequeue_inheritedPriorities]
      exact hinv.table c

theorem schedInv_step (x : SchedulerHistory × FairScheduler) (op : SchedulerOp)
    (hinv : SchedInv x) (hG : sparesSentinel x.2 op) : SchedInv (recordedStep x op) := by
  obtain ⟨g, s⟩ := x
  cases op with
  | enqueue entry engine priority channelId =>
    exact schedInv_enqueue hinv entry engine priority channelId
  | boost channelId boosted => exact schedInv_boost hinv channelId boosted
  | restore channelId => exact schedInv_restore hinv channelId
  | dequeue => exact schedInv_dequeue hinv hG

/-- A pick of the sentinel's item breaks conservation. -/
theorem sparesSentinel_of_conserved (x : SchedulerHistory × FairScheduler) (op : SchedulerOp)
    (hinv : SchedInv x) (h : FairlyScheduled (recordedStep x op)) : sparesSentinel x.2 op := by
  obtain ⟨g, s⟩ := x
  cases op with
  | dequeue =>
    intro hstarving forced hforced hseq
    have hlost := dequeue_sentinel hstarving hforced hseq
    have hbefore := hinv.conserved.length_eq
    have hafter := h.conserved.length_eq
    simp only [recordedStep, observed, SchedulerHistory.note, FairScheduler.step] at hafter
    cases hitem : s.dequeue.1 with
    | none =>
      simp only [hitem, List.length_append, List.length_map, Option.toList_none,
        List.nil_append] at hafter hbefore hlost
      omega
    | some item =>
      simp only [hitem, SchedulerHistory.pick, List.length_append, List.length_map,
        List.length_cons, Option.toList_some, List.singleton_append] at hafter hbefore hlost
      omega
  | enqueue entry engine priority channelId => trivial
  | boost channelId boosted => trivial
  | restore channelId => trivial

theorem sparesSentinel_of_fairlyScheduled {launchCb : Bool} {kernelNames : UInt32 → Option String}
    {ops : List SchedulerOp}
    (h : Always recordedStep FairlyScheduled (.empty, .create launchCb kernelNames) ops) :
    Guarded FairScheduler.step sparesSentinel (.create launchCb kernelNames) ops := by
  rw [← guarded_observed FairScheduler.step SchedulerHistory.note sparesSentinel
    (.empty, .create launchCb kernelNames)]
  exact (always_iff_guarded schedInv_step (fun _ h => h.toFairlyScheduled)
    sparesSentinel_of_conserved ops (schedInv_create launchCb kernelNames)).mp h

/-- **Scheduling.**  Items are conserved and picked in order in every state of a run exactly when no
forced pick of the run takes the item with the sentinel's number. -/
theorem fairly_scheduled_iff (launchCb : Bool) (kernelNames : UInt32 → Option String)
    (ops : List SchedulerOp) :
    Always recordedStep FairlyScheduled (.empty, .create launchCb kernelNames) ops ↔
      Guarded FairScheduler.step sparesSentinel (.create launchCb kernelNames) ops := by
  constructor
  · exact sparesSentinel_of_fairlyScheduled
  · intro hG
    rw [← guarded_observed FairScheduler.step SchedulerHistory.note sparesSentinel
      (.empty, .create launchCb kernelNames)] at hG
    have hinv := always_of_inductive schedInv_step (schedInv_create launchCb kernelNames) hG
    exact Always.mono recordedStep (fun _ h => h.toFairlyScheduled) hinv

/-- The sequence numbers of a run of enqueues and dequeues reach the sentinel. -/
def roundTrips (n : ℕ) : List SchedulerOp :=
  (List.replicate n [.enqueue .zero .compute gpuChanPriNormal (-1), .dequeue]).flatten

theorem run_roundTrips (n : ℕ) (c : UInt64) :
    run FairScheduler.step
      { FairScheduler.create false (fun _ => none) with sequenceCounter := c } (roundTrips n) =
        { FairScheduler.create false (fun _ => none) with
          sequenceCounter := c + UInt64.ofNat n } := by
  induction n generalizing c with
  | zero =>
    rw [show UInt64.ofNat 0 = 0 from rfl, UInt64.add_zero]
    rfl
  | succ n ih =>
    have hround : run FairScheduler.step
        { FairScheduler.create false (fun _ => none) with sequenceCounter := c }
        [.enqueue .zero .compute gpuChanPriNormal (-1), .dequeue] =
          { FairScheduler.create false (fun _ => none) with sequenceCounter := c + 1 } := rfl
    rw [roundTrips, List.replicate_succ, List.flatten_cons, run_append, hround]
    have hrest := ih (c + 1)
    rw [roundTrips] at hrest
    rw [hrest, UInt64.add_assoc, UInt64.ofNat_add, UInt64.add_comm 1]
    rfl

/-- After `2^64 - 1` items a low one is enqueued and ten high ones go before it; the next pick is
forced and takes the low item for none. -/
theorem fairly_scheduled_fails :
    ¬ Always recordedStep FairlyScheduled (.empty, .create false fun _ => none)
      (roundTrips (2 ^ 64 - 1) ++ [.enqueue .zero .compute gpuChanPriLow 1] ++
        List.replicate 11 (.enqueue .zero .compute 3 2) ++ List.replicate 11 .dequeue) := by
  intro h
  have hspared := sparesSentinel_of_fairlyScheduled h
  rw [List.append_assoc, List.append_assoc, guarded_append] at hspared
  have hlast := hspared.2
  have hrun := run_roundTrips (2 ^ 64 - 1) 0
  have hinit : ({ FairScheduler.create false (fun _ => none) with sequenceCounter := 0 } :
    FairScheduler) = .create false fun _ => none := rfl
  rw [hinit] at hrun
  rw [hrun] at hlast
  revert hlast
  decide +kernel

end UsrLinuxEmu.GpuDriver
