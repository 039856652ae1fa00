import Mathlib.Data.List.Nodup
import UsrLinuxEmu.GpuDriver.SchedulerOrder

/-!
# Order within a channel (`sim/scheduler/global_scheduler.cpp`)

The items of a channel can have different effective priorities: a boost raises what is queued, and
the side table, which later enqueues read, takes the new value even when it is lower.  An older item
never has the lower priority, but a forced pick does not ask for the highest.

* `FifoPerClass` — what was dequeued of a channel and an original priority is what was enqueued
  first;
* `elderNotBoosted` — no forced pick passes over an older item held above normal priority;
* `per_channel_order_iff` — the order holds along a run exactly when that does.
-/

namespace UsrLinuxEmu.GpuDriver

open UsrLinuxEmu.Transition

/-! ### The property -/

/-- The items of a channel with an original priority. -/
def inClass (channelId priority : Int) (item : WorkItem) : Bool :=
  decide (item.channelId = channelId) && decide (item.originalPriority = priority)

/-- The dequeued items, as they were enqueued, newest first. -/
def SchedulerHistory.dequeued (g : SchedulerHistory) : List WorkItem :=
  g.picks.map fun p => p.item.asEnqueued

/-- Within each class the dequeued items are the first that were enqueued, in the same order (both
lists have the newest first). -/
def FifoPerClass (x : SchedulerHistory × FairScheduler) : Prop :=
  ∀ channelId priority, x.1.dequeued.filter (inClass channelId priority) <:+
    x.1.enqueued.filter (inClass channelId priority)

/-- A new item has a higher number than every queued one, and not the sentinel's. -/
def numbersRise (s : FairScheduler) : SchedulerOp → Prop
  | .enqueue .. => (∀ item ∈ s.queue, item.sequenceId < s.sequenceCounter) ∧
      s.sequenceCounter ≠ noSequence
  | _ => True

instance decidableNumbersRise (s : FairScheduler) : ∀ op, Decidable (numbersRise s op)
  | .enqueue .. => inferInstanceAs (Decidable (_ ∧ _))
  | .boost .. | .restore _ | .dequeue => inferInstanceAs (Decidable True)

/-- When a forced pick is due, no older item of the channel and original priority of the oldest low
or normal item is held above normal priority. -/
def elderNotBoosted (s : FairScheduler) : SchedulerOp → Prop
  | .dequeue => s.starving = true → ∀ forced ∈ oldestLowOrNormal s.queue, ∀ a ∈ s.queue,
      inClass forced.channelId forced.originalPriority a = true →
        a.sequenceId < forced.sequenceId → a.priority ≤ gpuChanPriNormal
  | _ => True

instance decidableElderNotBoosted (s : FairScheduler) : ∀ op, Decidable (elderNotBoosted s op)
  | .dequeue => inferInstanceAs (Decidable (_ → ∀ forced ∈ _, ∀ a ∈ s.queue, _ → _ → _))
  | .enqueue .. | .boost .. | .restore _ => inferInstanceAs (Decidable True)

/-! ### The oldest of a list -/

/-- In a list with falling keys, an element with the least key is the last. -/
theorem eq_filter_concat {α : Type*} {key : α → UInt64} {l : List α}
    (hl : l.Pairwise fun a b => key b < key a) {x : α} (hx : x ∈ l)
    (hmin : ∀ y ∈ l, key x ≤ key y) : l = l.filter (fun y => key y ≠ key x) ++ [x] := by
  induction l with
  | nil => cases hx
  | cons y l ih =>
    obtain ⟨hy, htail⟩ := List.pairwise_cons.mp hl
    rcases List.mem_cons.mp hx with rfl | hx
    · -- nothing comes after the least
      have hnil : l = [] := by
        apply List.eq_nil_iff_forall_not_mem.mpr
        intro z hz
        exact UInt64.not_le.mpr (hy z hz) (hmin z (List.mem_cons_of_mem _ hz))
      rw [hnil]
      simp
    · have hne : key y ≠ key x := by
        intro heq
        have hlt := hy x hx
        rw [heq] at hlt
        exact UInt64.lt_irrefl _ hlt
      have hrest := ih htail hx fun z hz => hmin z (List.mem_cons_of_mem _ hz)
      rw [List.filter_cons_of_pos (by simpa using hne), List.cons_append, ← hrest]

theorem suffix_cons_append {α : Type*} {x : α} {l t : List α} (h : x :: t <:+ l ++ t) :
    ∃ init, l = init ++ [x] := by
  obtain ⟨init, hinit⟩ := h
  refine ⟨init, ?_⟩
  rw [← List.singleton_append, ← List.append_assoc] at hinit
  exact (List.append_cancel_right hinit).symm

/-! ### The invariant -/

/-- `pending` are the queued items as they were enqueued, newest first.  An older item of a class
has at least the priority of a newer one, because every item has at least the priority of the side
table. -/
structure FifoInv (x : SchedulerHistory × FairScheduler) (pending : List WorkItem) : Prop where
  sorted : Sorted x.2.queue
  numbered : ∀ item ∈ x.2.queue, item.sequenceId ≠ noSequence
  raised : ∀ item ∈ x.2.queue, item.originalPriority ≤ item.priority
  table : ∀ item ∈ x.2.queue, ∀ p ∈ x.2.inheritedPriorities item.channelId, p ≤ item.priority
  elder : ∀ a ∈ x.2.queue, ∀ b ∈ x.2.queue, inClass b.channelId b.originalPriority a = true →
    a.sequenceId < b.sequenceId → b.priority ≤ a.priority
  queued : pending.Perm (x.2.queue.map WorkItem.asEnqueued)
  falling : pending.Pairwise fun a b => b.sequenceId < a.sequenceId
  classes : ∀ channelId priority, x.1.enqueued.filter (inClass channelId priority) =
    pending.filter (inClass channelId priority) ++
      x.1.dequeued.filter (inClass channelId priority)

theorem fifoInv_create (launchCb : Bool) (kernelNames : UInt32 → Option String) :
    FifoInv (.empty, .create launchCb kernelNames) [] where
  sorted := .nil
  numbered := fun _ h => by cases h
  raised := fun _ h => by cases h
  table := fun _ h => by cases h
  elder := fun _ h => by cases h
  queued := .nil
  falling := .nil
  classes := fun _ _ => rfl

theorem FifoInv.fifo {x : SchedulerHistory × FairScheduler} {pending : List WorkItem}
    (h : FifoInv x pending) : FifoPerClass x := by
  intro channelId priority
  rw [h.classes]
  exact List.suffix_append _ _

@[simp] theorem inClass_asEnqueued (channelId priority : Int) (item : WorkItem) :
    inClass channelId priority item.asEnqueued = inClass channelId priority item := rfl

@[simp] theorem sequenceId_asEnqueued (item : WorkItem) :
    item.asEnqueued.sequenceId = item.sequenceId := rfl

@[simp] theorem originalPriority_asEnqueued (item : WorkItem) :
    item.asEnqueued.originalPriority = item.originalPriority := rfl

@[simp] theorem channelId_asEnqueued (item : WorkItem) :
    item.asEnqueued.channelId = item.channelId := rfl

/-- A queued item is pending, as it was enqueued. -/
theorem FifoInv.mem_pending {x : SchedulerHistory × FairScheduler} {pending : List WorkItem}
    (h : FifoInv x pending) {item : WorkItem} (hitem : item ∈ x.2.queue) :
    item.asEnqueued ∈ pending :=
  h.queued.mem_iff.mpr (List.mem_map_of_mem hitem)

/-- Queued items have different numbers. -/
theorem FifoInv.distinct {x : SchedulerHistory × FairScheduler} {pending : List WorkItem}
    (h : FifoInv x pending) : (x.2.queue.map WorkItem.sequenceId).Nodup := by
  have hperm := h.queued.map WorkItem.sequenceId
  rw [List.map_map] at hperm
  have hpending : (pending.map WorkItem.sequenceId).Nodup := by
    rw [List.nodup_iff_pairwise_ne, List.pairwise_map]
    apply h.falling.imp
    intro a b hlt heq
    rw [heq] at hlt
    exact UInt64.lt_irrefl _ hlt
  exact hperm.nodup_iff.mp hpending

theorem FifoInv.eq_of_sequenceId {x : SchedulerHistory × FairScheduler} {pending : List WorkItem}
    (h : FifoInv x pending) {a b : WorkItem} (ha : a ∈ x.2.queue) (hb : b ∈ x.2.queue)
    (hseq : a.sequenceId = b.sequenceId) : a = b :=
  List.inj_on_of_nodup_map h.distinct ha hb hseq

/-! ### Enqueues and changes of priority -/

/-- The item that an enqueue adds to the queue. -/
theorem enqueue_adds (s : FairScheduler) (entry : GpuGpfifoEntry) (engine : EngineType)
    (priority channelId : Int) : ∃ item,
      (s.enqueueWithPriority entry engine priority channelId).queue = insertItem item s.queue ∧
        item.asEnqueued = ⟨entry, engine, priority, priority, channelId, s.sequenceCounter⟩ ∧
        priority ≤ item.priority ∧ (∀ p ∈ s.inheritedPriorities channelId, p ≤ item.priority) ∧
        (item.priority = priority ∨ s.inheritedPriorities channelId = some item.priority) := by
  refine ⟨_, rfl, rfl, ?_⟩
  simp only
  cases s.inheritedPriorities channelId with
  | none => simp
  | some p =>
    simp only
    split_ifs with hlt
    · exact ⟨hlt.le, by simp, .inr rfl⟩
    · refine ⟨le_refl _, fun q hq => ?_, .inl rfl⟩
      rw [← Option.some.inj hq]
      exact Int.not_lt.mp hlt

theorem fifoInv_enqueue {g : SchedulerHistory} {s : FairScheduler} {pending : List WorkItem}
    (h : FifoInv (g, s) pending) (entry : GpuGpfifoEntry) (engine : EngineType)
    (priority channelId : Int) (hG : numbersRise s (.enqueue entry engine priority channelId)) :
    FifoInv (recordedStep (g, s) (.enqueue entry engine priority channelId))
      (⟨entry, engine, priority, priority, channelId, s.sequenceCounter⟩ :: pending) := by
  obtain ⟨item, hqueue, hitem, hraised, htable, heffective⟩ :=
    enqueue_adds s entry engine priority channelId
  obtain ⟨hbelow, hnumber⟩ := hG
  have hseq : item.sequenceId = s.sequenceCounter := congrArg WorkItem.sequenceId hitem
  have horiginal : item.originalPriority = priority := congrArg WorkItem.originalPriority hitem
  have hchannel : item.channelId = channelId := congrArg WorkItem.channelId hitem
  have hperm := insertItem_perm item s.queue
  have hmem : ∀ x ∈ (s.enqueueWithPriority entry engine priority channelId).queue,
      x = item ∨ x ∈ s.queue := by
    intro x hx
    rw [hqueue, hperm.mem_iff, List.mem_cons] at hx
    exact hx
  refine ⟨sorted_insertItem h.sorted, ?_, ?_, ?_, ?_, ?_, ?_, ?_⟩
  · intro x hx
    rcases hmem x hx with rfl | hx
    · rw [hseq]
      exact hnumber
    · exact h.numbered x hx
  · intro x hx
    rcases hmem x hx with rfl | hx
    · rw [horiginal]
      exact hraised
    · exact h.raised x hx
  · intro x hx p hp
    rcases hmem x hx with rfl | hx
    · rw [hchannel] at hp
      exact htable p hp
    · exact h.table x hx p hp
  · intro a ha b hb hclass hlt
    rcases hmem a ha with rfl | ha
    · -- nothing is numbered above the new item
      rcases hmem b hb with rfl | hb
      · exact le_refl _
      · rw [hseq] at hlt
        exact absurd (hbelow b hb) (UInt64.not_lt.mpr (UInt64.le_of_lt hlt))
    · rcases hmem b hb with rfl | hb
      · simp only [inClass, Bool.and_eq_true, decide_eq_true_eq] at hclass
        rcases heffective with heq | heq
        · rw [heq, ← horiginal, ← hclass.2]
          exact h.raised a ha
        · rw [← hchannel, ← hclass.1] at heq
          exact h.table a ha _ heq
      · exact h.elder a ha b hb hclass hlt
  · have hmap := hperm.map WorkItem.asEnqueued
    rw [← hqueue, List.map_cons, hitem] at hmap
    exact (h.queued.cons _).trans hmap.symm
  · refine List.pairwise_cons.mpr ⟨fun x hx => ?_, h.falling⟩
    obtain ⟨y, hy, rfl⟩ := List.mem_map.mp (h.queued.mem_iff.mp hx)
    exact hbelow y hy
  · intro c p
    have hold := h.classes c p
    simp only [recordedStep, observed, SchedulerHistory.note, SchedulerHistory.dequeued,
      List.filter_cons] at hold ⊢
    split_ifs
    · rw [hold, List.cons_append]
    · exact hold

/-- Changes of the priorities alone, which keep the order of priorities within a class. -/
theorem fifoInv_revise {g : SchedulerHistory} (c : PriorityChange) {s : FairScheduler}
    {pending : List WorkItem} (h : FifoInv (g, s) pending) {queue : List WorkItem}
    {table : Int → Option Int} {revise : WorkItem → WorkItem} (hsorted : Sorted queue)
    (hperm : queue.Perm (s.queue.map revise))
    (hsame : ∀ item, (revise item).asEnqueued = item.asEnqueued)
    (hraised : ∀ item ∈ s.queue, item.originalPriority ≤ (revise item).priority)
    (htable : ∀ item ∈ s.queue, ∀ p ∈ table item.channelId, p ≤ (revise item).priority)
    (helder : ∀ a ∈ s.queue, ∀ b ∈ s.queue, a.channelId = b.channelId →
      a.originalPriority = b.originalPriority → b.priority ≤ a.priority →
        (revise b).priority ≤ (revise a).priority) :
    FifoInv (g.change c, { s with inheritedPriorities := table, queue := queue }) pending := by
  have hseq : ∀ item, (revise item).sequenceId = item.sequenceId :=
    fun item => by simpa using congrArg WorkItem.sequenceId (hsame item)
  have horiginal : ∀ item, (revise item).originalPriority = item.originalPriority :=
    fun item => by simpa using congrArg WorkItem.originalPriority (hsame item)
  have hchannel : ∀ item, (revise item).channelId = item.channelId :=
    fun item => by simpa using congrArg WorkItem.channelId (hsame item)
  have hmem : ∀ x ∈ queue, ∃ item ∈ s.queue, revise item = x :=
    fun x hx => List.mem_map.mp (hperm.mem_iff.mp hx)
  refine ⟨hsorted, ?_, ?_, ?_, ?_, ?_, h.falling, h.classes⟩
  · intro x hx
    obtain ⟨item, hitem, rfl⟩ := hmem x hx
    rw [hseq]
    exact h.numbered item hitem
  · intro x hx
    obtain ⟨item, hitem, rfl⟩ := hmem x hx
    rw [horiginal]
    exact hraised item hitem
  · intro x hx p hp
    obtain ⟨item, hitem, rfl⟩ := hmem x hx
    rw [hchannel] at hp
    exact htable item hitem p hp
  · intro x hx y hy hclass hlt
    obtain ⟨a, ha, rfl⟩ := hmem x hx
    obtain ⟨b, hb, rfl⟩ := hmem y hy
    rw [hseq, hseq] at hlt
    simp only [inClass, Bool.and_eq_true, decide_eq_true_eq, hchannel, horiginal] at hclass
    refine helder a ha b hb hclass.1 hclass.2 (h.elder a ha b hb ?_ hlt)
    simp [inClass, hclass]
  · have hmap := hperm.map WorkItem.asEnqueued
    rw [List.map_map] at hmap
    have hfun : WorkItem.asEnqueued ∘ revise = WorkItem.asEnqueued := by
      funext item
      exact hsame item
    rw [hfun] at hmap
    exact h.queued.trans hmap.symm

theorem fifoInv_boost {g : SchedulerHistory} {s : FairScheduler} {pending : List WorkItem}
    (h : FifoInv (g, s) pending) (channelId boosted : Int) :
    FifoInv (recordedStep (g, s) (.boost channelId boosted)) pending := by
  refine fifoInv_revise (.boost channelId boosted) h (sorted_requeue h.sorted)
    (requeue_perm _ _ _) ?_ ?_ ?_ ?_
  · intro item
    split_ifs
    · rfl
    · rfl
  · intro item hitem
    have hraised := h.raised item hitem
    simp only [Bool.and_eq_true, decide_eq_true_eq]
    split_ifs with hhit
    · exact hraised.trans hhit.2.le
    · exact hraised
  · intro item hitem p hp
    have htable := h.table item hitem
    simp only [Bool.and_eq_true, decide_eq_true_eq]
    by_cases hch : item.channelId = channelId
    · rw [hch, Function.update_self] at hp
      obtain rfl := Option.some.inj hp
      split_ifs with hhit
      · exact le_refl _
      · exact Int.not_lt.mp fun hlt => hhit ⟨hch, hlt⟩
    · rw [Function.update_of_ne hch] at hp
      rw [if_neg fun hhit => hch hhit.1]
      exact htable p hp
  · intro a ha b hb hch _ hle
    simp only [Bool.and_eq_true, decide_eq_true_eq, hch]
    split_ifs with hb' ha' ha'
    · exact le_refl _
    · exact Int.not_lt.mp fun hlt => ha' ⟨hb'.1, hlt⟩
    · exact hle.trans ha'.2.le
    · exact hle

theorem fifoInv_restore {g : SchedulerHistory} {s : FairScheduler} {pending : List WorkItem}
    (h : FifoInv (g, s) pending) (channelId : Int) :
    FifoInv (recordedStep (g, s) (.restore channelId)) pending := by
  refine fifoInv_revise (.restore channelId) h (sorted_requeue h.sorted) (requeue_perm _ _ _)
    ?_ ?_ ?_ ?_
  · intro item
    split_ifs
    · rfl
    · rfl
  · intro item hitem
    have hraised := h.raised item hitem
    split_ifs with hhit
    · exact le_refl _
    · exact hraised
  · intro item hitem p hp
    have htable := h.table item hitem
    simp only [Bool.and_eq_true, decide_eq_true_eq]
    by_cases hch : item.channelId = channelId
    · rw [hch, Function.update_self] at hp
      cases hp
    · rw [Function.update_of_ne hch] at hp
      rw [if_neg fun hhit => hch hhit.1]
      exact htable p hp
  · intro a ha b hb hch horiginal hle
    simp only [Bool.and_eq_true, decide_eq_true_eq, hch]
    split_ifs with hb' ha' ha'
    · exact horiginal.ge
    · -- the older item has its own priority already
      rw [not_and_not_right] at ha'
      rw [ha' hb'.1, horiginal]
    · rw [not_and_not_right] at hb'
      rw [hb' ha'.1, horiginal]
    · exact hle

/-! ### Dequeues -/

theorem FifoInv.sparesSentinel {x : SchedulerHistory × FairScheduler} {pending : List WorkItem}
    (h : FifoInv x pending) : sparesSentinel x.2 .dequeue :=
  fun _ forced hforced => h.numbered forced (oldest_eq_some hforced).1

/-- The pick that a forced dequeue makes is the oldest low or normal item. -/
theorem FifoInv.forced_pick {g : SchedulerHistory} {s : FairScheduler} {pending : List WorkItem}
    (h : FifoInv (g, s) pending) {item forced : WorkItem} (hstarving : s.starving = true)
    (hforced : forced ∈ oldestLowOrNormal s.queue)
    (hpick : Pick.InOrder ⟨s.queue, s.starving, item⟩) : item = forced := by
  obtain ⟨hmem, hlow, hleast⟩ := oldest_eq_some hforced
  obtain ⟨hitem, horder⟩ := hpick
  rw [if_pos ⟨hstarving, forced, hmem, hlow⟩] at horder
  refine h.eq_of_sequenceId hitem hmem (UInt64.le_antisymm ?_ ?_)
  · exact horder.2 forced hmem hlow
  · exact hleast item hitem horder.1

/-- A pick takes the oldest item of its class, when no elder is passed over. -/
theorem FifoInv.pick_oldest {g : SchedulerHistory} {s : FairScheduler} {pending : List WorkItem}
    (h : FifoInv (g, s) pending) (hG : elderNotBoosted s .dequeue) {item : WorkItem}
    (hpick : Pick.InOrder ⟨s.queue, s.starving, item⟩) :
    ∀ x ∈ s.queue, inClass item.channelId item.originalPriority x = true →
      item.sequenceId ≤ x.sequenceId := by
  intro x hx hclass
  by_contra hnot
  rw [UInt64.not_le] at hnot
  obtain ⟨hitem, horder⟩ := hpick
  have helder := h.elder x hx item hitem hclass hnot
  have hfirst : item.sequenceId ≤ x.sequenceId := by
    split_ifs at horder with hdue
    · obtain ⟨hstarving, y, hy, hlow⟩ := hdue
      cases hforced : oldestLowOrNormal s.queue with
      | none =>
        rw [oldest_eq_none hforced y hy] at hlow
        cases hlow
      | some forced =>
        have hsame : item = forced := by
          refine h.forced_pick hstarving hforced ⟨hitem, ?_⟩
          rw [if_pos ⟨hstarving, y, hy, hlow⟩]
          exact horder
        subst hsame
        have hnormal := hG hstarving item hforced x hx hclass hnot
        exact horder.2 x hx (decide_eq_true hnormal)
    · have hle := horder x hx
      exact hle.2 (Int.le_antisymm hle.1 helder)
  exact UInt64.not_lt.mpr hfirst hnot

/-- The picked item leaves the pending ones, and is the oldest of its class there. -/
theorem fifoInv_pick {g : SchedulerHistory} {s s' : FairScheduler} {pending : List WorkItem}
    (h : FifoInv (g, s) pending) {item : WorkItem} (hperm : s.queue.Perm (item :: s'.queue))
    (hsub : s'.queue.Sublist s.queue) (htable : s'.inheritedPriorities = s.inheritedPriorities)
    (holdest : ∀ x ∈ s.queue, inClass item.channelId item.originalPriority x = true →
      item.sequenceId ≤ x.sequenceId) (starving : Bool) :
    FifoInv (g.pick starving item, s')
      (pending.filter fun y => y.sequenceId ≠ item.sequenceId) := by
  have hmem : ∀ x ∈ s'.queue, x ∈ s.queue := fun x hx => hsub.subset hx
  have hitem : item ∈ s.queue := hperm.mem_iff.mpr List.mem_cons_self
  refine ⟨h.sorted.sublist hsub, fun x hx => h.numbered x (hmem x hx),
    fun x hx => h.raised x (hmem x hx), fun x hx => ?_,
    fun a ha b hb => h.elder a (hmem a ha) b (hmem b hb), ?_, h.falling.filter _, fun c q => ?_⟩
  · simp only [htable]
    exact h.table x (hmem x hx)
  · -- the other queued items have other numbers
    have hnodup := h.distinct
    rw [(hperm.map _).nodup_iff, List.map_cons, List.nodup_cons] at hnodup
    have hrest : ∀ x ∈ s'.queue, x.sequenceId ≠ item.sequenceId := by
      intro x hx heq
      exact hnodup.1 (heq ▸ List.mem_map_of_mem hx)
    have hqueued := (h.queued.trans (hperm.map _)).filter fun y => y.sequenceId ≠ item.sequenceId
    rw [List.map_cons, List.filter_cons_of_neg (by simp)] at hqueued
    refine hqueued.trans (List.Perm.of_eq (List.filter_eq_self.mpr fun y hy => ?_))
    obtain ⟨x, hx, rfl⟩ := List.mem_map.mp hy
    exact decide_eq_true (hrest x hx)
  · have hold := h.classes c q
    have hfiltered : (pending.filter fun y => y.sequenceId ≠ item.sequenceId).filter
        (inClass c q) = (pending.filter (inClass c q)).filter
          fun y => y.sequenceId ≠ item.sequenceId := by
      rw [List.filter_filter, List.filter_filter]
      simp only [Bool.and_comm]
    simp only [SchedulerHistory.pick, SchedulerHistory.dequeued, List.map_cons, List.filter_cons,
      inClass_asEnqueued] at hold ⊢
    rw [hfiltered, hold]
    have hpending := h.mem_pending hitem
    by_cases hclass : inClass c q item = true
    · have hin : item.asEnqueued ∈ pending.filter (inClass c q) :=
        List.mem_filter.mpr ⟨hpending, hclass⟩
      have hlast := @eq_filter_concat _ WorkItem.sequenceId _ (h.falling.filter (inClass c q))
        _ hin fun y hy => by
          obtain ⟨hy, hyclass⟩ := List.mem_filter.mp hy
          obtain ⟨x, hx, rfl⟩ := List.mem_map.mp (h.queued.mem_iff.mp hy)
          simp only [inClass, Bool.and_eq_true, decide_eq_true_eq] at hclass hyclass
          refine holdest x hx ?_
          simpa [inClass, hclass] using hyclass
      simp only [hclass, if_true]
      simp only [sequenceId_asEnqueued] at hlast
      rw [← List.singleton_append, ← List.append_assoc]
      exact congrArg (· ++ _) hlast
    · simp only [hclass]
      rw [if_neg Bool.false_ne_true, List.append_cancel_right_eq, eq_comm, List.filter_eq_self]
      intro y hy
      obtain ⟨hy, hyclass⟩ := List.mem_filter.mp hy
      obtain ⟨x, hx, rfl⟩ := List.mem_map.mp (h.queued.mem_iff.mp hy)
      refine decide_eq_true fun hseq => hclass ?_
      obtain rfl := h.eq_of_sequenceId hx hitem hseq
      exact hyclass

/-! ### The result -/

theorem fifoInv_step (x : SchedulerHistory × FairScheduler) (op : SchedulerOp)
    (hI : ∃ pending, FifoInv x pending) (hG : numbersRise x.2 op ∧ elderNotBoosted x.2 op) :
    ∃ pending, FifoInv (recordedStep x op) pending := by
  obtain ⟨g, s⟩ := x
  obtain ⟨pending, h⟩ := hI
  cases op with
  | enqueue entry engine priority channelId =>
    exact ⟨_, fifoInv_enqueue h entry engine priority channelId hG.1⟩
  | boost channelId boosted => exact ⟨_, fifoInv_boost h channelId boosted⟩
  | restore channelId => exact ⟨_, fifoInv_restore h channelId⟩
  | dequeue =>
    obtain ⟨-, hsame⟩ | ⟨item, hitem, hperm, hsub, hpick⟩ :=
      dequeue_spec h.sorted h.sparesSentinel
    · have hstep : recordedStep (g, s) .dequeue =
          ({ g with refused := g.current :: g.refused }, s) := by
        simp only [recordedStep, observed, SchedulerHistory.note, FairScheduler.step, hsame]
      rw [hstep]
      exact ⟨_, { h with }⟩
    · have hstep : recordedStep (g, s) .dequeue = (g.pick s.starving item, s.dequeue.2) := by
        simp only [recordedStep, observed, SchedulerHistory.note, FairScheduler.step, hitem]
      rw [hstep]
      exact ⟨_, fifoInv_pick h hperm hsub (dequeue_inheritedPriorities s)
        (h.pick_oldest hG.2 hpick) _⟩

/-- A forced pick that passes over an older item of its class shows in what was dequeued. -/
theorem elderNotBoosted_of_fifo (x : SchedulerHistory × FairScheduler) (op : SchedulerOp)
    (hI : ∃ pending, FifoInv x pending) (hnext : FifoPerClass (recordedStep x op)) :
    elderNotBoosted x.2 op := by
  obtain ⟨g, s⟩ := x
  obtain ⟨pending, h⟩ := hI
  cases op with
  | enqueue entry engine priority channelId => trivial
  | boost channelId boosted => trivial
  | restore channelId => trivial
  | dequeue =>
    intro hstarving forced hforced a ha hclass hlt
    obtain ⟨hempty, -⟩ | ⟨item, hitem, -, -, hpick⟩ := dequeue_spec h.sorted h.sparesSentinel
    · exact absurd (hempty ▸ ha) List.not_mem_nil
    obtain rfl := h.forced_pick hstarving hforced hpick
    have hfifo := hnext item.channelId item.originalPriority
    have hself : inClass item.channelId item.originalPriority item = true := by simp [inClass]
    simp only [recordedStep, observed, SchedulerHistory.note, hitem, SchedulerHistory.pick,
      SchedulerHistory.dequeued, List.map_cons, List.filter_cons, inClass_asEnqueued, hself,
      if_true] at hfifo
    have hclasses := h.classes item.channelId item.originalPriority
    simp only [SchedulerHistory.dequeued] at hclasses
    rw [hclasses] at hfifo
    obtain ⟨init, hinit⟩ := suffix_cons_append hfifo
    -- the passed-over item is pending in front of the last, so it is newer
    have hain : a.asEnqueued ∈ init ++ [item.asEnqueued] := by
      rw [← hinit]
      exact List.mem_filter.mpr ⟨h.mem_pending ha, hclass⟩
    have hfalling := h.falling.filter (inClass item.channelId item.originalPriority)
    rw [hinit, List.pairwise_append] at hfalling
    rcases List.mem_append.mp hain with hbefore | hsame
    · have hnewer := hfalling.2.2 _ hbefore _ (List.mem_singleton_self _)
      exact absurd hnewer (UInt64.not_lt.mpr (UInt64.le_of_lt hlt))
    · have hseq := congrArg WorkItem.sequenceId (List.mem_singleton.mp hsame)
      simp only [sequenceId_asEnqueued] at hseq
      rw [hseq] at hlt
      exact absurd hlt (UInt64.lt_irrefl _)

/-- **Order within a channel.**  As long as the sequence numbers of new items rise, the items of
every channel and original priority leave in the order they came, in every state of a run, exactly
when no forced pick passes over an older one held above normal priority. -/
theorem per_channel_order_iff (launchCb : Bool) (kernelNames : UInt32 → Option String)
    (ops : List SchedulerOp)
    (hrise : Guarded FairScheduler.step numbersRise (.create launchCb kernelNames) ops) :
    Always recordedStep FifoPerClass (.empty, .create launchCb kernelNames) ops ↔
      Guarded FairScheduler.step elderNotBoosted (.create launchCb kernelNames) ops := by
  rw [← guarded_observed FairScheduler.step SchedulerHistory.note _
    (.empty, .create launchCb kernelNames)] at hrise ⊢
  have hboth := always_guarded_iff
    (G := fun (x : SchedulerHistory × FairScheduler) op => numbersRise x.2 op ∧
      elderNotBoosted x.2 op) (R := fun x op => numbersRise x.2 op)
    fifoInv_step (fun _ ⟨_, h⟩ => h.fifo) (fun _ _ _ hG => hG.1)
    (fun x op hI hnext hR => ⟨hR, elderNotBoosted_of_fifo x op hI hnext⟩) ops
    ⟨[], fifoInv_create launchCb kernelNames⟩
  constructor
  · intro hfifo
    exact (hboth.mp ⟨hfifo, hrise⟩).mono _ fun _ _ hG => hG.2
  · intro hG
    exact (hboth.mpr (hrise.and _ hG)).1

/-- A channel boosted before each of its two items, and ten items of another channel. -/
def boostedTwice (second : Int) : List SchedulerOp :=
  [.boost 1 3, .enqueue .zero .compute gpuChanPriNormal 1, .boost 1 second,
    .enqueue .zero .compute gpuChanPriNormal 1] ++
    List.replicate 10 (.enqueue .zero .compute 4 2) ++ List.replicate 12 .dequeue

/-- Both boosts are to the same priority. -/
theorem per_channel_order_run :
    Always recordedStep FifoPerClass (.empty, .create false fun _ => none) (boostedTwice 3) :=
  (per_channel_order_iff false (fun _ => none) _ (by decide +kernel)).mpr (by decide +kernel)

/-- The second boost is to a low priority, and the forced pick takes the second item first. -/
theorem per_channel_order_fails :
    ¬Always recordedStep FifoPerClass (.empty, .create false fun _ => none)
      (boostedTwice gpuChanPriLow) := by
  intro h
  have hfifo := Always.last _ (h : Always _ _ _ _) 1 gpuChanPriNormal
  revert hfifo
  decide +kernel

end UsrLinuxEmu.GpuDriver
