import UsrLinuxEmu.GpuDriver.SchedulerFifo

/-!
# Boosts and their restoration (`sim/scheduler/global_scheduler.cpp`)

A boost changes queued items and, through the side table, the items enqueued later; a restoration
undoes both.

* `SchedulerCall` — the operations, with `flush`;
* `ChannelOp` — boosts of one channel among enqueues of any items;
* `Unboosted` — without an entry in the table a channel's items have their own priority;
* `Boosted` — two schedulers that differ by boosts of one channel;
* `boost_neutral` — boosts and a restoration leave what the enqueues alone leave, and boosts of
  different channels commute, as long as no two items bear one number;
* `boost_neutral_fails` — across a wrap of the counter an item changes places.
-/

namespace UsrLinuxEmu.GpuDriver

open UsrLinuxEmu.Transition

/-! ### The calls -/

def FairScheduler.flush (s : FairScheduler) : FairScheduler :=
  { s with queue := [], starvationCycleCounter := 0, inheritedPriorities := fun _ => none }

inductive SchedulerCall where
  | op (op : SchedulerOp)
  | flush

def FairScheduler.call (s : FairScheduler) : SchedulerCall → FairScheduler
  | .op op => s.step op
  | .flush => s.flush

/-! ### The property -/

/-- A boost of the channel at hand, or an enqueue for any channel. -/
inductive ChannelOp where
  | boost (boosted : Int)
  | enqueue (entry : GpuGpfifoEntry) (engine : EngineType) (priority channelId : Int)

def ChannelOp.onChannel (c : Int) : ChannelOp → SchedulerOp
  | .boost boosted => .boost c boosted
  | .enqueue entry engine priority channelId => .enqueue entry engine priority channelId

/-- The enqueue alone. -/
def ChannelOp.unboosted : ChannelOp → List SchedulerOp
  | .boost _ => []
  | .enqueue entry engine priority channelId => [.enqueue entry engine priority channelId]

/-- No two queued items bear the same number. -/
def NumbersDiffer (s : FairScheduler) : Prop := (s.queue.map WorkItem.sequenceId).Nodup

instance (s : FairScheduler) : Decidable (NumbersDiffer s) :=
  inferInstanceAs (Decidable (List.Nodup _))

/-- The boosts and the restoration of `c` are as if they had not been. -/
def BoostNeutral (s : FairScheduler) (c : Int) (ops : List ChannelOp) : Prop :=
  run FairScheduler.step s (ops.map (ChannelOp.onChannel c) ++ [.restore c]) =
    run FairScheduler.step s (ops.flatMap ChannelOp.unboosted)

def BoostsCommute (s : FairScheduler) : Prop :=
  ∀ c d p q, c ≠ d →
    (s.boostPriority c p).boostPriority d q = (s.boostPriority d q).boostPriority c p

/-! ### Queues with different numbers -/

/-- A sorted queue is determined by its items when their numbers differ. -/
theorem Sorted.eq_of_perm {l l' : List WorkItem} (h : Sorted l) (h' : Sorted l')
    (hperm : l.Perm l') (hnodup : (l.map WorkItem.sequenceId).Nodup) : l = l' := by
  refine hperm.eq_of_pairwise ?_ h h'
  intro a b ha hb hab hba
  apply List.inj_on_of_nodup_map hnodup ha (hperm.mem_iff.mpr hb)
  rw [← Bool.not_eq_true, before_iff] at hab hba
  simp only [UInt64.lt_iff_toNat_lt] at hab hba
  apply UInt64.toNat_inj.mp
  omega

/-! ### Channels that are not boosted -/

/-- An item with another priority than its own belongs to a channel of the table. -/
def Unboosted (s : FairScheduler) : Prop :=
  ∀ item ∈ s.queue, s.inheritedPriorities item.channelId = none →
    item.priority = item.originalPriority

/-- The invariant of every run: a multiset in order, and no boost without an entry. -/
structure BoostInv (s : FairScheduler) : Prop where
  sorted : Sorted s.queue
  unboosted : Unboosted s

theorem boostInv_create (launchCb : Bool) (kernelNames : UInt32 → Option String) :
    BoostInv (.create launchCb kernelNames) :=
  ⟨.nil, fun _ h => by cases h⟩

/-- What is left of a queue after a dequeue. -/
theorem dequeue_sublist (s : FairScheduler) : s.dequeue.2.queue.Sublist s.queue := by
  have hpop : ∀ t : FairScheduler, t.popFirst.2.queue.Sublist t.queue := by
    intro t
    unfold FairScheduler.popFirst
    cases ht : t.queue with
    | nil => simp only [ht, List.Sublist.refl]
    | cons item rest => exact List.sublist_cons_self item rest
  unfold FairScheduler.dequeue
  cases hqueue : s.queue with
  | nil => simp only [hqueue, List.Sublist.refl]
  | cons first rest =>
    simp only
    split_ifs
    · cases oldestLowOrNormal (first :: rest) with
      | none => exact hqueue ▸ hpop s
      | some forced =>
        simp only
        split_ifs
        · exact List.erase_sublist
        · exact (hpop _).trans List.erase_sublist
    · exact hqueue ▸ hpop s

theorem boostInv_step {s : FairScheduler} (h : BoostInv s) (op : SchedulerOp) :
    BoostInv (s.step op) := by
  cases op with
  | enqueue entry engine priority channelId =>
    obtain ⟨item, hqueue, hitem, -, -, heffective⟩ :=
      enqueue_adds s entry engine priority channelId
    refine ⟨sorted_insertItem h.sorted, fun x hx hnone => ?_⟩
    have hmem : x ∈ insertItem item s.queue := hqueue ▸ hx
    rcases List.mem_cons.mp ((insertItem_perm item s.queue).mem_iff.mp hmem) with rfl | hx
    · have hchannel : x.channelId = channelId := congrArg WorkItem.channelId hitem
      have horiginal : x.originalPriority = priority := congrArg WorkItem.originalPriority hitem
      rcases heffective with heq | heq
      · rw [heq, horiginal]
      · have hsome : s.inheritedPriorities x.channelId = some x.priority := hchannel ▸ heq
        exact absurd (hsome.symm.trans hnone) (Option.some_ne_none _)
    · exact h.unboosted x hx hnone
  | boost channelId boosted =>
    refine ⟨sorted_requeue h.sorted, fun x hx hnone => ?_⟩
    obtain ⟨item, hitem, rfl⟩ := List.mem_map.mp ((requeue_perm _ _ _).mem_iff.mp hx)
    split_ifs at hnone ⊢ with hhit
    · simp only [Bool.and_eq_true, decide_eq_true_eq] at hhit
      rw [FairScheduler.step, FairScheduler.boostPriority] at hnone
      simp only [hhit.1, Function.update_self] at hnone
      cases hnone
    · by_cases hchannel : item.channelId = channelId
      · rw [FairScheduler.step, FairScheduler.boostPriority] at hnone
        simp only [hchannel, Function.update_self] at hnone
        cases hnone
      · rw [FairScheduler.step, FairScheduler.boostPriority] at hnone
        simp only [Function.update_of_ne hchannel] at hnone
        exact h.unboosted item hitem hnone
  | restore channelId =>
    refine ⟨sorted_requeue h.sorted, fun x hx hnone => ?_⟩
    obtain ⟨item, hitem, rfl⟩ := List.mem_map.mp ((requeue_perm _ _ _).mem_iff.mp hx)
    split_ifs at hnone ⊢ with hhit
    · rfl
    · simp only [Bool.and_eq_true, decide_eq_true_eq, not_and, not_not] at hhit
      by_cases hchannel : item.channelId = channelId
      · exact hhit hchannel
      · rw [FairScheduler.step, FairScheduler.restorePriority] at hnone
        simp only [Function.update_of_ne hchannel] at hnone
        exact h.unboosted item hitem hnone
  | dequeue =>
    have hsub := dequeue_sublist s
    refine ⟨h.sorted.sublist hsub, fun x hx hnone => ?_⟩
    rw [FairScheduler.step, dequeue_inheritedPriorities] at hnone
    exact h.unboosted x (hsub.subset hx) hnone

theorem boostInv_call {s : FairScheduler} (h : BoostInv s) (call : SchedulerCall) :
    BoostInv (s.call call) := by
  cases call with
  | op op => exact boostInv_step h op
  | flush => exact ⟨.nil, fun _ h => by cases h⟩

/-! ### Two schedulers -/

theorem WorkItem.asEnqueued_eq {item : WorkItem} (h : item.priority = item.originalPriority) :
    item.asEnqueued = item := by
  cases item
  cases h
  rfl

/-- The item with its own priority, if it is one of the channel. -/
def WorkItem.restored (c : Int) (item : WorkItem) : WorkItem :=
  if item.channelId = c then item.asEnqueued else item

/-- `t` is `s` with boosts of the channel `c`, which `s` does not have. -/
structure Boosted (c : Int) (t s : FairScheduler) : Prop where
  sorted : Sorted t.queue
  sorted' : Sorted s.queue
  items : (t.queue.map (WorkItem.restored c)).Perm s.queue
  others : ∀ d, d ≠ c → t.inheritedPriorities d = s.inheritedPriorities d
  absent : s.inheritedPriorities c = none
  translator : t.translator = s.translator
  counter : t.sequenceCounter = s.sequenceCounter
  cycles : t.starvationCycleCounter = s.starvationCycleCounter

section Pair

variable {c : Int} {t s : FairScheduler}

theorem Boosted.refl (h : BoostInv s) (hnone : s.inheritedPriorities c = none) :
    Boosted c s s := by
  refine ⟨h.sorted, h.sorted, ?_, fun _ _ => rfl, hnone, rfl, rfl, rfl⟩
  rw [List.map_congr_left (g := id), List.map_id]
  intro item hitem
  rw [WorkItem.restored]
  split_ifs with hchannel
  · exact WorkItem.asEnqueued_eq (h.unboosted item hitem (hchannel ▸ hnone))
  · rfl

theorem Boosted.boost (h : Boosted c t s) (boosted : Int) :
    Boosted c (t.boostPriority c boosted) s := by
  refine ⟨sorted_requeue h.sorted, h.sorted', ?_, ?_, h.absent, h.translator, h.counter, h.cycles⟩
  · refine List.Perm.trans ?_ h.items
    refine ((requeue_perm _ _ _).map _).trans (List.Perm.of_eq ?_)
    rw [List.map_map]
    apply List.map_congr_left
    intro item _
    simp only [Function.comp_apply, Bool.and_eq_true, decide_eq_true_eq]
    split_ifs with hhit
    · rw [WorkItem.restored, WorkItem.restored, if_pos hhit.1, if_pos hhit.1]
      rfl
    · rfl
  · intro d hd
    rw [FairScheduler.boostPriority]
    simp only [Function.update_of_ne hd]
    exact h.others d hd

/-- The same item is queued on both sides, boosted on one. -/
theorem Boosted.enqueue (h : Boosted c t s) (entry : GpuGpfifoEntry) (engine : EngineType)
    (priority channelId : Int) :
    Boosted c (t.enqueueWithPriority entry engine priority channelId)
      (s.enqueueWithPriority entry engine priority channelId) := by
  refine ⟨sorted_insertItem h.sorted, sorted_insertItem h.sorted', ?_, h.others, h.absent, ?_, ?_,
    h.cycles⟩
  · refine ((insertItem_perm _ _).map _).trans
      (List.Perm.trans ?_ (insertItem_perm _ _).symm)
    rw [List.map_cons]
    refine List.Perm.trans (List.Perm.of_eq ?_) (h.items.cons _)
    congr 1
    rw [WorkItem.restored, h.counter]
    by_cases hchannel : channelId = c
    · rw [if_pos hchannel, hchannel, h.absent]
      rfl
    · rw [if_neg hchannel, h.others channelId hchannel]
  · rw [FairScheduler.enqueueWithPriority, FairScheduler.enqueueWithPriority]
    simp only [GlobalScheduler.enqueueWithPriority, h.translator]
  · rw [FairScheduler.enqueueWithPriority, FairScheduler.enqueueWithPriority]
    simp only [GlobalScheduler.enqueueWithPriority, h.counter]

/-- Restoring makes the two the same, when the order is determined. -/
theorem Boosted.restore (h : Boosted c t s) (hdiffer : NumbersDiffer s) :
    t.restorePriority c = s := by
  have hperm : (t.restorePriority c).queue.Perm s.queue := by
    refine List.Perm.trans ?_ h.items
    refine (requeue_perm _ _ _).trans (List.Perm.of_eq ?_)
    apply List.map_congr_left
    intro item _
    simp only [Bool.and_eq_true, decide_eq_true_eq]
    rw [WorkItem.restored]
    by_cases hchannel : item.channelId = c
    · rw [if_pos hchannel]
      split_ifs with hhit
      · rfl
      · have hown : item.priority = item.originalPriority :=
          not_not.mp fun hne => hhit ⟨hchannel, hne⟩
        exact (WorkItem.asEnqueued_eq hown).symm
    · rw [if_neg hchannel, if_neg fun hhit => hchannel hhit.1]
  have hqueue : (t.restorePriority c).queue = s.queue :=
    (sorted_requeue h.sorted).eq_of_perm h.sorted' hperm
      ((hperm.map _).nodup_iff.mpr hdiffer)
  have htable : (t.restorePriority c).inheritedPriorities = s.inheritedPriorities := by
    funext d
    rw [FairScheduler.restorePriority]
    by_cases hd : d = c
    · simp only [hd, Function.update_self, h.absent]
    · simp only [Function.update_of_ne hd, h.others d hd]
  have hrest : t.restorePriority c =
      { t with queue := s.queue, inheritedPriorities := s.inheritedPriorities } := by
    rw [← hqueue, ← htable]
    rfl
  rw [hrest, h.translator, h.counter, h.cycles]

theorem Boosted.run (h : Boosted c t s) (ops : List ChannelOp) :
    Boosted c (Transition.run FairScheduler.step t (ops.map (ChannelOp.onChannel c)))
      (Transition.run FairScheduler.step s (ops.flatMap ChannelOp.unboosted)) := by
  induction ops generalizing t s with
  | nil => exact h
  | cons op ops ih =>
    rw [List.map_cons, run_cons, List.flatMap_cons, run_append]
    cases op with
    | boost boosted => exact ih (h.boost boosted)
    | enqueue entry engine priority channelId =>
      exact ih (h.enqueue entry engine priority channelId)

end Pair

/-! ### Boosts of two channels -/

/-- What a boost does to an item. -/
def WorkItem.boostedTo (c p : Int) (item : WorkItem) : WorkItem :=
  if item.channelId = c ∧ item.priority < p then { item with priority := p } else item

theorem boostPriority_perm (s : FairScheduler) (c p : Int) :
    (s.boostPriority c p).queue.Perm (s.queue.map (WorkItem.boostedTo c p)) := by
  refine (requeue_perm _ _ _).trans (List.Perm.of_eq ?_)
  apply List.map_congr_left
  intro item _
  simp only [Bool.and_eq_true, decide_eq_true_eq, WorkItem.boostedTo]

theorem WorkItem.boostedTo_comm {c d : Int} (hne : c ≠ d) (p q : Int) (item : WorkItem) :
    (item.boostedTo c p).boostedTo d q = (item.boostedTo d q).boostedTo c p := by
  by_cases hc : item.channelId = c
  · have hd : item.channelId ≠ d := fun h => hne (hc.symm.trans h)
    simp only [boostedTo, hd, false_and, if_false]
    split_ifs <;> simp_all
  · simp only [boostedTo, hc, false_and, if_false]
    split_ifs <;> simp_all

theorem WorkItem.boostedTo_sequenceId (c p : Int) (item : WorkItem) :
    (item.boostedTo c p).sequenceId = item.sequenceId := by
  rw [boostedTo]
  split_ifs
  · rfl
  · rfl

theorem boosts_commute {s : FairScheduler} (hsorted : Sorted s.queue) (hdiffer : NumbersDiffer s) :
    BoostsCommute s := by
  intro c d p q hne
  have hperm : ∀ c d p q, ((s.boostPriority c p).boostPriority d q).queue.Perm
      (s.queue.map fun item => (item.boostedTo c p).boostedTo d q) := by
    intro c d p q
    have htwo := (boostPriority_perm (s.boostPriority c p) d q).trans
      ((boostPriority_perm s c p).map _)
    rwa [List.map_map] at htwo
  have hboth : ((s.boostPriority c p).boostPriority d q).queue.Perm
      ((s.boostPriority d q).boostPriority c p).queue := by
    refine (hperm c d p q).trans ((List.Perm.of_eq ?_).trans (hperm d c q p).symm)
    exact List.map_congr_left fun item _ => item.boostedTo_comm hne p q
  have hnumbers : (((s.boostPriority c p).boostPriority d q).queue.map
      WorkItem.sequenceId).Nodup := by
    refine ((hperm c d p q).map _).nodup_iff.mpr ?_
    rw [List.map_map]
    have hsame : (WorkItem.sequenceId ∘ fun item => (item.boostedTo c p).boostedTo d q) =
        WorkItem.sequenceId := by
      funext item
      rw [Function.comp_apply, WorkItem.boostedTo_sequenceId, WorkItem.boostedTo_sequenceId]
    rw [hsame]
    exact hdiffer
  have hqueue : ((s.boostPriority c p).boostPriority d q).queue =
      ((s.boostPriority d q).boostPriority c p).queue :=
    (sorted_requeue (sorted_requeue hsorted)).eq_of_perm
      (sorted_requeue (sorted_requeue hsorted)) hboth hnumbers
  have htable := Function.update_comm hne (some p) (some q) s.inheritedPriorities
  have hsides : ∀ c d p q, (s.boostPriority c p).boostPriority d q = { s with
      inheritedPriorities := Function.update (Function.update s.inheritedPriorities c (some p))
        d (some q)
      queue := ((s.boostPriority c p).boostPriority d q).queue } := fun _ _ _ _ => rfl
  rw [hsides c d, hsides d c, hqueue, htable]

/-! ### The result -/

/-- **Boosts are neutral.**  From a state with no inherited priority, boosts of a channel, enqueues
and the restoration leave the scheduler of the enqueues alone, and boosts of two channels commute,
where the numbers of the queued items differ. -/
theorem boost_neutral (launchCb : Bool) (kernelNames : UInt32 → Option String)
    (calls : List SchedulerCall) :
    (∀ c ops,
      (∀ d, (run FairScheduler.call (.create launchCb kernelNames) calls).inheritedPriorities d =
        none) →
      NumbersDiffer (run FairScheduler.step
        (run FairScheduler.call (.create launchCb kernelNames) calls)
        (ops.flatMap ChannelOp.unboosted)) →
      BoostNeutral (run FairScheduler.call (.create launchCb kernelNames) calls) c ops) ∧
    (NumbersDiffer (run FairScheduler.call (.create launchCb kernelNames) calls) →
      BoostsCommute (run FairScheduler.call (.create launchCb kernelNames) calls)) := by
  have hinv : BoostInv (run FairScheduler.call (.create launchCb kernelNames) calls) :=
    run_of_invariant (fun s call (h : BoostInv s) => boostInv_call h call) calls
      (boostInv_create launchCb kernelNames)
  refine ⟨fun c ops hnone hdiffer => ?_, boosts_commute hinv.sorted⟩
  rw [BoostNeutral, run_append]
  exact ((Boosted.refl hinv (hnone c)).run ops).restore hdiffer

/-- Two items, one boosted before and one enqueued while it is. -/
theorem boost_neutral_two :
    BoostNeutral (run FairScheduler.call (.create false fun _ => none)
        [.op (.enqueue .zero .compute gpuChanPriLow 1)]) 1
      [.boost 3, .enqueue .zero .compute gpuChanPriNormal 1, .boost 2] ∧
    BoostsCommute (run FairScheduler.call (.create false fun _ => none)
      [.op (.enqueue .zero .compute gpuChanPriLow 1)]) := by
  obtain ⟨hneutral, hcommute⟩ := boost_neutral false (fun _ => none)
    [.op (.enqueue .zero .compute gpuChanPriLow 1)]
  exact ⟨hneutral 1 _ (fun _ => rfl) (by decide), hcommute (by decide)⟩

/-! ### Across a wrap of the counter -/

/-- An item of priority 3 waits for channel 1, numbered zero, and the next number is `c`. -/
def waitingAt (c : UInt64) : FairScheduler :=
  { FairScheduler.create false (fun _ => none) with
    queue := [⟨.zero, .compute, 3, 3, 1, 0⟩]
    sequenceCounter := c }

/-- A low item waits behind it, after `k` picks of others. -/
def twoWaitingAt (n c : UInt64) (k : Int32) : FairScheduler :=
  { FairScheduler.create false (fun _ => none) with
    queue := [⟨.zero, .compute, 3, 3, 1, 0⟩, ⟨.zero, .compute, gpuChanPriLow, gpuChanPriLow, 2, n⟩]
    sequenceCounter := c
    starvationCycleCounter := k }

/-- An item of priority 4 comes and goes. -/
def passing : List SchedulerCall := [.op (.enqueue .zero .compute 4 2), .op .dequeue]

theorem run_passing {k : Int32} (hk : ¬ GlobalScheduler.kStarvationThreshold ≤ k) (n c : UInt64) :
    run FairScheduler.call (twoWaitingAt n c k) passing = twoWaitingAt n (c + 1) (k + 1) := by
  have henqueue : (twoWaitingAt n c k).call (.op (.enqueue .zero .compute 4 2)) =
      { twoWaitingAt n (c + 1) k with
        queue := ⟨.zero, .compute, 4, 4, 2, c⟩ :: (twoWaitingAt n c k).queue } := rfl
  have hfour : ¬ (4 : Int) ≤ gpuChanPriNormal := by decide
  rw [passing, run_cons, henqueue, run_cons, run_nil]
  simp only [FairScheduler.call, FairScheduler.step, FairScheduler.dequeue, FairScheduler.starving,
    FairScheduler.popFirst, twoWaitingAt, hk, hfour, decide_false, Bool.false_eq_true, if_false]

theorem run_passings (n c : UInt64) {j : ℕ} (hj : j ≤ 10) :
    run FairScheduler.call (twoWaitingAt n c 0) (List.replicate j passing).flatten =
      twoWaitingAt n (c + UInt64.ofNat j) (Int32.ofNat j) := by
  induction j with
  | zero => simp
  | succ j ih =>
    have hk : ∀ i < 10, ¬ GlobalScheduler.kStarvationThreshold ≤ Int32.ofNat i := by decide
    rw [List.replicate_succ', List.flatten_append, run_append, ih (by omega),
      List.flatten_singleton, run_passing (hk j (by omega)), UInt64.ofNat_add, Int32.ofNat_add,
      UInt64.add_assoc]
    rfl

/-- Ten pass a low item, which is then forced. -/
def elevenNumbers : List SchedulerCall :=
  .op (.enqueue .zero .compute gpuChanPriLow 2) ::
    ((List.replicate 10 passing).flatten ++ [.op .dequeue])

theorem run_elevenNumbers {c : UInt64} (hc : c ≠ noSequence) :
    run FairScheduler.call (waitingAt c) elevenNumbers = waitingAt (c + 11) := by
  have henqueue : (waitingAt c).call (.op (.enqueue .zero .compute gpuChanPriLow 2)) =
      twoWaitingAt c (c + 1) 0 := rfl
  have hforced : (twoWaitingAt c (c + 11) 10).call (.op .dequeue) = waitingAt (c + 11) := by
    have hstarving : (twoWaitingAt c (c + 11) 10).starving = true := rfl
    have holdest : oldestLowOrNormal (twoWaitingAt c (c + 11) 10).queue =
        some ⟨.zero, .compute, gpuChanPriLow, gpuChanPriLow, 2, c⟩ := rfl
    have hrest : (twoWaitingAt c (c + 11) 10).queue.erase
        ⟨.zero, .compute, gpuChanPriLow, gpuChanPriLow, 2, c⟩ = (waitingAt c).queue := by
      simp [twoWaitingAt, waitingAt, gpuChanPriLow]
    rw [FairScheduler.call, FairScheduler.step, FairScheduler.dequeue, if_pos hstarving]
    simp only [holdest, if_pos hc, hrest]
    rfl
  rw [elevenNumbers, run_cons, henqueue, run_append, run_passings _ _ (le_refl _), run_cons,
    run_nil, UInt64.add_assoc]
  exact hforced

theorem run_elevens {q : ℕ} (hq : 1 + 11 * q < 2 ^ 64 - 1) :
    run FairScheduler.call (waitingAt 1) (List.replicate q elevenNumbers).flatten =
      waitingAt (UInt64.ofNat (1 + 11 * q)) := by
  induction q with
  | zero => rfl
  | succ q ih =>
    have hne : UInt64.ofNat (1 + 11 * q) ≠ noSequence := by
      intro heq
      have hnat := congrArg UInt64.toNat heq
      rw [UInt64.toNat_ofNat_of_lt' (by unfold UInt64.size; omega)] at hnat
      have hmax : noSequence.toNat = 2 ^ 64 - 1 := rfl
      omega
    have hnext : UInt64.ofNat (1 + 11 * (q + 1)) = UInt64.ofNat (1 + 11 * q) + 11 := by
      rw [Nat.mul_succ, ← Nat.add_assoc, UInt64.ofNat_add]
      rfl
    rw [List.replicate_succ', List.flatten_append, run_append, ih (by omega),
      List.flatten_singleton, run_elevenNumbers hne, hnext]

/-- The calls up to the second item that is numbered zero. -/
def aroundTheCounter : List SchedulerCall :=
  .op (.enqueue .zero .compute 3 1) ::
    ((List.replicate ((2 ^ 64 - 5) / 11) elevenNumbers).flatten ++
      List.replicate 5 (.op (.enqueue .zero .compute 3 2)))

/-- The item of channel 1 and the last item bear one number: restored after a boost, the older of
them stands behind the other. -/
theorem boost_neutral_fails :
    ¬ ∀ calls c ops, (∀ d, (run FairScheduler.call (.create false fun _ => none)
        calls).inheritedPriorities d = none) →
      BoostNeutral (run FairScheduler.call (.create false fun _ => none) calls) c ops := by
  intro h
  have hstart : (FairScheduler.create false fun _ => none).call
      (.op (.enqueue .zero .compute 3 1)) = waitingAt 1 := rfl
  have hrun : run FairScheduler.call (.create false fun _ => none) aroundTheCounter =
      run FairScheduler.call (waitingAt 0xFFFFFFFFFFFFFFFC)
        (List.replicate 5 (.op (.enqueue .zero .compute 3 2))) := by
    rw [aroundTheCounter, run_cons, hstart, run_append, run_elevens (by decide)]
    rfl
  have hlast := h aroundTheCounter 1 [.boost 4]
  rw [hrun] at hlast
  have hqueue := congrArg (fun s => s.queue) (hlast fun _ => rfl)
  revert hqueue
  decide +kernel

end UsrLinuxEmu.GpuDriver
