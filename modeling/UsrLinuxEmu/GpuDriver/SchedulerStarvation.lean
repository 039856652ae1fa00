import UsrLinuxEmu.GpuDriver.SchedulerOrder
import UsrLinuxEmu.Transition.Bypass

/-!
# Starvation in the global scheduler (`sim/scheduler/global_scheduler.cpp`)

`dequeue` counts the picks above normal priority; at the threshold it forces the oldest item of low
*or normal* priority, and a pick of either resets the counter.  Low items wait behind normal ones
without bound, but low and normal items together do not wait behind higher ones.

* `StarvationBound` — no eleven consecutive dequeues pass over a waiting item;
* `dequeue_counter` — what a dequeue does to the counter;
* `starvation_bound` — the bound for items of at most normal priority.
-/

namespace UsrLinuxEmu.GpuDriver

open UsrLinuxEmu.Transition

namespace FairScheduler

/-- The item that an operation returns. -/
def returned (s : FairScheduler) : SchedulerOp → Option WorkItem
  | .dequeue => s.dequeue.1
  | .enqueue .. | .boost .. | .restore _ => none

/-- While an item whose priority meets `waits` is queued, some item among any eleven consecutive
dequeues has at most priority `level`. -/
def StarvationBound (waits : Int → Prop) (level : Int) (s : FairScheduler)
    (ops : List SchedulerOp) : Prop :=
  Always step (fun s => ∃ item ∈ s.queue, waits item.priority) s ops →
    ∀ window, window <:+: outputs step returned s ops → window.length = 11 →
      ∃ item ∈ window, item.priority ≤ level

/-- The counter, a signed `int`, is not incremented at its largest value. -/
def countsOn (s : FairScheduler) : SchedulerOp → Prop
  | .dequeue => s.starvationCycleCounter = Int32.maxValue →
      ∃ item ∈ s.queue, shouldForceLowPriority item = true
  | .enqueue .. | .boost .. | .restore _ => True

instance decidableCountsOn (s : FairScheduler) : ∀ op, Decidable (s.countsOn op)
  | .dequeue => inferInstanceAs (Decidable (_ → ∃ item ∈ s.queue, _))
  | .enqueue .. | .boost .. | .restore _ => inferInstanceAs (Decidable True)

/-- The counter does not overflow and no forced pick takes the sentinel's item. -/
def countsAndSpares (s : FairScheduler) (op : SchedulerOp) : Prop :=
  s.countsOn op ∧ sparesSentinel s op

instance (s : FairScheduler) (op : SchedulerOp) : Decidable (s.countsAndSpares op) :=
  inferInstanceAs (Decidable (_ ∧ _))

/-! ### What a dequeue does to the counter -/

theorem popFirst_counter {s : FairScheduler} (hne : s.queue ≠ []) :
    ∃ item, s.popFirst.1 = some item ∧
      ((item.priority ≤ gpuChanPriNormal ∧ s.popFirst.2.starvationCycleCounter = 0) ∨
        (gpuChanPriNormal < item.priority ∧
          s.popFirst.2.starvationCycleCounter = s.starvationCycleCounter + 1)) := by
  cases hq : s.queue with
  | nil => exact absurd hq hne
  | cons first rest =>
    rw [popFirst, hq]
    refine ⟨first, rfl, ?_⟩
    by_cases hlow : first.priority ≤ gpuChanPriNormal
    · left
      exact ⟨hlow, if_pos hlow⟩
    · right
      exact ⟨Int.not_le.mp hlow, if_neg hlow⟩

/-- A pick of at most normal priority resets the counter.  Any other raises it, and comes at the
threshold only when nothing else is queued. -/
theorem dequeue_counter {s : FairScheduler} (hG : sparesSentinel s .dequeue) (hne : s.queue ≠ []) :
    ∃ item, s.dequeue.1 = some item ∧
      ((item.priority ≤ gpuChanPriNormal ∧ s.dequeue.2.starvationCycleCounter = 0) ∨
        (gpuChanPriNormal < item.priority ∧
          s.dequeue.2.starvationCycleCounter = s.starvationCycleCounter + 1 ∧
          (s.starving = true → ∀ x ∈ s.queue, shouldForceLowPriority x = false))) := by
  obtain ⟨item, hitem, hcounter⟩ := popFirst_counter hne
  cases hq : s.queue with
  | nil => exact absurd hq hne
  | cons first rest =>
    by_cases hstarving : s.starving = true
    · cases hforced : oldestLowOrNormal s.queue with
      | none =>
        have hdequeue : s.dequeue = s.popFirst := by
          simp only [dequeue, hq, if_pos hstarving, hq ▸ hforced]
        have hnone := oldest_eq_none hforced
        rw [hq] at hnone
        rw [hdequeue]
        refine ⟨item, hitem, hcounter.imp_right fun hhigh => ?_⟩
        exact ⟨hhigh.1, hhigh.2, fun _ => hnone⟩
      | some forced =>
        have hlow := (oldest_eq_some hforced).2.1
        have hdequeue : s.dequeue = (some forced,
            { s with queue := s.queue.erase forced, starvationCycleCounter := 0 }) := by
          have hseq := hG hstarving forced hforced
          simp only [dequeue, hq, if_pos hstarving, hq ▸ hforced, if_pos hseq]
        rw [hdequeue]
        exact ⟨forced, rfl, .inl ⟨of_decide_eq_true hlow, rfl⟩⟩
    · have hdequeue : s.dequeue = s.popFirst := by
        simp only [dequeue, hq, if_neg hstarving]
      rw [hdequeue]
      refine ⟨item, hitem, hcounter.imp_right fun hhigh => ?_⟩
      exact ⟨hhigh.1, hhigh.2, fun habs => absurd habs hstarving⟩

/-! ### The counter along a run -/

def CounterInv (s : FairScheduler) : Prop := 0 ≤ s.starvationCycleCounter.toInt

/-- The counter as a natural number. -/
def passedOver (s : FairScheduler) : ℕ := s.starvationCycleCounter.toInt.toNat

theorem toInt_succ {c : Int32} (h : c ≠ Int32.maxValue) : (c + 1).toInt = c.toInt + 1 := by
  have hne : c.toInt ≠ Int32.maxValue.toInt := fun heq => h (Int32.toInt_inj.mp heq)
  have hmax : Int32.maxValue.toInt = 2 ^ 31 - 1 := by decide
  have hlt := c.toInt_lt
  have hle := c.le_toInt
  have hone : (1 : Int32).toInt = 1 := by decide
  rw [Int32.toInt_add, hone, Int.bmod_def]
  omega

theorem starving_iff (s : FairScheduler) :
    s.starving = true ↔ 10 ≤ s.starvationCycleCounter.toInt := by
  rw [starving, decide_eq_true_eq, Int32.le_iff_toInt_le]
  rfl

/-- The counter does not wrap at a pick above normal priority. -/
theorem not_maxValue {s : FairScheduler} (hG : s.countsOn .dequeue)
    (hlast : s.starving = true → ∀ x ∈ s.queue, shouldForceLowPriority x = false) :
    s.starvationCycleCounter ≠ Int32.maxValue := by
  intro hmax
  have hstarving : s.starving = true := by
    rw [starving, hmax]
    decide
  obtain ⟨x, hx, hlow⟩ := hG hmax
  rw [hlast hstarving x hx] at hlow
  cases hlow

theorem counterInv_step (s : FairScheduler) (op : SchedulerOp) (h : s.CounterInv)
    (hG : s.countsAndSpares op) : (s.step op).CounterInv := by
  cases op with
  | enqueue entry engine priority channelId => exact h
  | boost channelId boosted => exact h
  | restore channelId => exact h
  | dequeue =>
    by_cases hne : s.queue = []
    · have hsame : s.step .dequeue = s := by simp only [step, dequeue, hne]
      rwa [hsame]
    · rcases dequeue_counter hG.2 hne with ⟨item, -, ⟨-, hzero⟩ | ⟨-, hsucc, hlast⟩⟩
      · rw [CounterInv, step, hzero]
        decide
      · have hmax := not_maxValue hG.1 hlast
        rw [CounterInv, step, hsucc, toInt_succ hmax]
        unfold CounterInv at h
        omega

/-! ### The bound -/

/-- **Starvation bound.**  While an item of at most normal priority is queued, no eleven consecutive
dequeues all return items above normal priority. -/
theorem starvation_bound (launchCb : Bool) (kernelNames : UInt32 → Option String)
    (before ops : List SchedulerOp)
    (h : Guarded step countsAndSpares (.create launchCb kernelNames) (before ++ ops)) :
    StarvationBound (· ≤ gpuChanPriNormal) gpuChanPriNormal
      (run step (.create launchCb kernelNames) before) ops := by
  intro hwait window hwindow hlength
  obtain ⟨hbefore, hops⟩ := (guarded_append step _ _ before ops).mp h
  have hinit : CounterInv (.create launchCb kernelNames) := Int.le_refl 0
  have hstart := run_of_inductive counterInv_step hinit hbefore
  have hG := hops.and step (hwait.guarded step)
  refine window_has_good (I := CounterInv) (N := 10) (f := passedOver)
    (fun s op hI hG => counterInv_step s op hI hG.1) (fun s op hI hG hout => ?_)
    (fun s op item hI hG hout hhigh => ?_) hstart hG hwindow (by omega)
  · cases op with
    | enqueue entry engine priority channelId => exact Nat.le_refl _
    | boost channelId boosted => exact Nat.le_refl _
    | restore channelId => exact Nat.le_refl _
    | dequeue =>
      obtain ⟨x, hx, -⟩ := hG.2.1
      have hne : s.queue ≠ [] := List.ne_nil_of_mem hx
      obtain ⟨item, hitem, -⟩ := dequeue_counter hG.1.2 hne
      rw [returned, hitem] at hout
      cases hout
  · cases op with
    | enqueue entry engine priority channelId => cases hout
    | boost channelId boosted => cases hout
    | restore channelId => cases hout
    | dequeue =>
      obtain ⟨x, hx, hlow⟩ := hG.2.1
      obtain ⟨item', hitem, hcases⟩ := dequeue_counter hG.1.2 (List.ne_nil_of_mem hx)
      rw [returned, hitem] at hout
      obtain rfl := Option.some.inj hout
      rcases hcases with ⟨habs, -⟩ | ⟨-, hsucc, hlast⟩
      · exact absurd habs hhigh
      -- the waiting item would have been forced
      have hcalm : ¬s.starving = true := by
        intro hstarving
        have hnot := hlast hstarving x hx
        rw [shouldForceLowPriority, decide_eq_false_iff_not] at hnot
        exact hnot hlow
      rw [starving_iff] at hcalm
      have hnext := toInt_succ (not_maxValue hG.1.1 hlast)
      rw [← hsucc] at hnext
      unfold CounterInv at hI
      show s.passedOver < s.dequeue.2.passedOver ∧ s.dequeue.2.passedOver ≤ 10
      unfold passedOver
      omega

/-- Two low items behind eleven high ones: one of them is forced out, the other waits on. -/
theorem starvation_bound_high :
    let s := run step (.create false fun _ => none)
      (List.replicate 2 (.enqueue .zero .compute gpuChanPriLow 1) ++
        List.replicate 11 (.enqueue .zero .compute 3 2))
    Always step (fun s => ∃ item ∈ s.queue, item.priority ≤ gpuChanPriNormal) s
        (List.replicate 11 .dequeue) ∧
      StarvationBound (· ≤ gpuChanPriNormal) gpuChanPriNormal s (List.replicate 11 .dequeue) :=
  ⟨by decide +kernel, starvation_bound false (fun _ => none) _ _ (by decide +kernel)⟩

/-- A low item behind eleven normal ones stays where it is. -/
theorem low_starves :
    ¬StarvationBound (· = gpuChanPriLow) gpuChanPriLow
      (run step (.create false fun _ => none)
        (.enqueue .zero .compute gpuChanPriLow 1 ::
          List.replicate 11 (.enqueue .zero .compute gpuChanPriNormal 2)))
      (List.replicate 11 .dequeue) := by
  intro hbound
  have hwait : Always step (fun s => ∃ item ∈ s.queue, item.priority = gpuChanPriLow)
      (run step (.create false fun _ => none)
        (.enqueue .zero .compute gpuChanPriLow 1 ::
          List.replicate 11 (.enqueue .zero .compute gpuChanPriNormal 2)))
      (List.replicate 11 .dequeue) := by
    decide +kernel
  obtain ⟨item, hitem, hlow⟩ := hbound hwait _ (List.infix_refl _) (by decide +kernel)
  revert item
  decide +kernel

end FairScheduler

end UsrLinuxEmu.GpuDriver
