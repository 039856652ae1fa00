import UsrLinuxEmu.Kernel.Workqueue
import UsrLinuxEmu.Transition.CondVar

/-!
# Who sleeps on a work queue (`src/kernel/thread/kernel_workqueue.cpp`)

The worker and the flushes wait on one condition variable, and `enqueue` wakes one thread.  A flush
that finds `in_flight_` not zero holds the mutex until it sleeps; the worker does not need it to
lower the counter and to wake the flushes, so that it may do both too early.

* `SleepingQueue` / `SleepingQueue.step` — the queue of `Workqueue`, with its threads asleep in
  `cv_`, and the wake-ups that are still to be made;
* `Calm` — once every wake-up is made, the worker does not sleep on a task;
* `Contended` — the states in which the one wake-up that is left may go to a flush;
* `workqueue_wakes` — those states are exactly where the worker can be stranded, and it stays so.
-/

namespace UsrLinuxEmu.Kernel

open UsrLinuxEmu.Transition

inductive QueueSleeper where
  | worker
  | flush (id : ℕ)
  deriving DecidableEq

/-- The `notify_one` of `enqueue`, and the `notify_all` of `stop`. -/
inductive QueueWake where
  | one
  | all
  deriving DecidableEq

/-- `owed` holds the wake-ups of calls that have given the mutex back.  `notifying`: the worker has
lowered `in_flight_` and is about to wake everybody.  `leaving` names a flush that has loaded
`in_flight_` and holds the mutex until it sleeps. -/
structure SleepingQueue (α : Type*) where
  base : Workqueue α
  cv : CondVar QueueSleeper
  owed : List QueueWake
  notifying : Bool
  leaving : Option ℕ

/-- The system chooses whom `notify_one` wakes; a thread may also wake for no reason. -/
inductive SleepAction (α : Type*) where
  | start (created : Bool)
  | enqueue (task : α)
  | flushCall (id : ℕ)
  | flushLook (id : ℕ)
  | flushLoad (id : ℕ)
  | flushSleep (id : ℕ)
  | flushTimeout (id : ℕ)
  | stopCall
  | stopJoin
  | stopClear
  | worker
  | wakeUp (wake : QueueWake) (pick : QueueSleeper)
  | spurious (w : QueueSleeper)
  deriving DecidableEq

variable {α : Type*}

namespace SleepingQueue

def create : SleepingQueue α := ⟨.create, .empty, [], false, none⟩

/-- Nobody holds the mutex. -/
def Free (s : SleepingQueue α) : Prop := s.base.mutex = none ∧ s.leaving = none

instance (s : SleepingQueue α) : Decidable s.Free := inferInstanceAs (Decidable (_ ∧ _))

/-- What the worker's wait waits for is not there. -/
def Idle (s : SleepingQueue α) : Prop := s.base.queue = [] ∧ s.base.started = true

instance (s : SleepingQueue α) : Decidable s.Idle := inferInstanceAs (Decidable (_ ∧ _))

def enqueue (s : SleepingQueue α) (task : α) : SleepingQueue α :=
  if s.Free then { s with base := s.base.enqueue task, owed := s.owed ++ [.one] } else s

/-- A flush takes the mutex, for the first time or after it has been woken, and sleeps if it finds
a task. -/
def flushLook (s : SleepingQueue α) (id : ℕ) : SleepingQueue α :=
  if s.Free ∧ .flush id ∉ s.cv.asleep ∧ (s.base.flushes id = .called ∨ s.base.flushes id = .waiting)
  then
    let cv := s.cv.relock (.flush id) .noTimeout
    { s with
      base := s.base.flushLook id
      cv := if s.base.queue = [] then cv else cv.sleep (.flush id) }
  else s

def flushLoad (s : SleepingQueue α) (id : ℕ) : SleepingQueue α :=
  if s.base.flushes id = .looked then
    { s with
      base := s.base.flushLoad id
      leaving := if s.base.inFlight = 0 then s.leaving else some id }
  else s

def flushSleep (s : SleepingQueue α) (id : ℕ) : SleepingQueue α :=
  if s.leaving = some id then { s with cv := s.cv.sleep (.flush id), leaving := none } else s

def flushTimeout (s : SleepingQueue α) (id : ℕ) : SleepingQueue α :=
  if s.Free ∧ .flush id ∈ s.cv.asleep then
    { s with
      base := s.base.flushTimeout id
      cv := (s.cv.wake (.flush id) .timeout).relock (.flush id) .timeout }
  else s

def stopCall (s : SleepingQueue α) : SleepingQueue α :=
  if s.Free ∧ s.base.stopping = .idle ∧ s.base.started = true then
    { s with base := s.base.stopCall, owed := s.owed ++ [.all] }
  else s

/-- `stop` joins the worker after it has woken it. -/
def stopJoin (s : SleepingQueue α) : SleepingQueue α :=
  if .all ∈ s.owed then s else { s with base := s.base.stopJoin }

def stopClear (s : SleepingQueue α) : SleepingQueue α :=
  if s.leaving = none then { s with base := s.base.stopClear } else s

/-- The lock region of the worker, which sleeps if it finds nothing. -/
def takeOrSleep (s : SleepingQueue α) : SleepingQueue α :=
  if s.Free then
    let cv := s.cv.relock .worker .noTimeout
    if s.Idle then { s with cv := cv.sleep .worker }
    else { s with base := s.base.workerLoop, cv := cv }
  else s

def worker (s : SleepingQueue α) : SleepingQueue α :=
  if s.notifying = true then { s with cv := s.cv.notifyAll, notifying := false }
  else if .worker ∈ s.cv.asleep then s
  else
    match s.base.worker with
    | .atWait => s.takeOrSleep
    | .returned => { s with base := s.base.workerLoop, notifying := true }
    | _ => { s with base := s.base.workerLoop }

def notifyOne (s : SleepingQueue α) (pick : QueueSleeper) : SleepingQueue α :=
  if s.cv.asleep = [] then { s with owed := s.owed.erase .one }
  else if pick ∈ s.cv.asleep then
    { s with cv := s.cv.wake pick .noTimeout, owed := s.owed.erase .one }
  else s

def wakeUp (s : SleepingQueue α) (wake : QueueWake) (pick : QueueSleeper) : SleepingQueue α :=
  if wake ∈ s.owed then
    match wake with
    | .one => s.notifyOne pick
    | .all => { s with cv := s.cv.notifyAll, owed := s.owed.erase .all }
  else s

def step (s : SleepingQueue α) : SleepAction α → SleepingQueue α
  | .start created => { s with base := s.base.start created }
  | .enqueue task => s.enqueue task
  | .flushCall id => { s with base := s.base.flushCall id }
  | .flushLook id => s.flushLook id
  | .flushLoad id => s.flushLoad id
  | .flushSleep id => s.flushSleep id
  | .flushTimeout id => s.flushTimeout id
  | .stopCall => s.stopCall
  | .stopJoin => s.stopJoin
  | .stopClear => s.stopClear
  | .worker => s.worker
  | .wakeUp wake pick => s.wakeUp wake pick
  | .spurious w => { s with cv := s.cv.wake w .noTimeout }

/-! ### What a step changes -/

/-- A step of the worker, case by case. -/
inductive WorkerMove (s s' : SleepingQueue α) : Prop where
  | stay (heq : s' = s)
  | notify (heq : s' = { s with cv := s.cv.notifyAll, notifying := false })
  | sleep (hnot : s.notifying = false) (hidle : s.Idle)
      (heq : s' = { s with cv := (s.cv.relock .worker .noTimeout).sleep .worker })
  | move (hawake : .worker ∉ s.cv.asleep) (cv : CondVar QueueSleeper) (notifying : Bool)
      (hcv : cv.asleep = s.cv.asleep)
      (heq : s' = { s with base := s.base.workerLoop, cv := cv, notifying := notifying })

theorem worker_cases (s : SleepingQueue α) : WorkerMove s s.worker := by
  unfold worker
  split_ifs with hnot hasleep
  · exact .notify rfl
  · exact .stay rfl
  · have hoff : s.notifying = false := by simpa using hnot
    split
    · unfold takeOrSleep
      split_ifs with hfree hidle
      · exact .sleep hoff hidle rfl
      · exact .move hasleep (s.cv.relock .worker .noTimeout) s.notifying rfl rfl
      · exact .stay rfl
    · exact .move hasleep s.cv true rfl rfl
    · exact .move hasleep s.cv s.notifying rfl rfl

/-- A wake-up does not touch the queue. -/
theorem wakeUp_base (s : SleepingQueue α) (wake : QueueWake) (pick : QueueSleeper) :
    (s.wakeUp wake pick).base = s.base := by
  unfold wakeUp
  split_ifs
  · cases wake with
    | one =>
      show (s.notifyOne pick).base = s.base
      unfold notifyOne
      split_ifs <;> rfl
    | all => rfl
  · rfl

/-! ### The polling queue -/

/-- Every step is one of the queue of `Workqueue`, or none. -/
theorem base_step (s : SleepingQueue α) (a : SleepAction α) :
    (s.step a).base = s.base ∨ ∃ b, (s.step a).base = s.base.step b := by
  cases a with
  | start created => exact .inr ⟨.start created, rfl⟩
  | enqueue task =>
    simp only [step, enqueue]
    split_ifs
    · exact .inr ⟨.enqueue task, rfl⟩
    · exact .inl rfl
  | flushCall id => exact .inr ⟨.flushCall id, rfl⟩
  | flushLook id =>
    simp only [step, flushLook]
    split
    · exact .inr ⟨.flushLook id, rfl⟩
    · exact .inl rfl
  | flushLoad id =>
    simp only [step, flushLoad]
    split
    · exact .inr ⟨.flushLoad id, rfl⟩
    · exact .inl rfl
  | flushSleep id =>
    simp only [step, flushSleep]
    split
    · exact .inl rfl
    · exact .inl rfl
  | flushTimeout id =>
    simp only [step, flushTimeout]
    split
    · exact .inr ⟨.flushTimeout id, rfl⟩
    · exact .inl rfl
  | stopCall =>
    simp only [step, stopCall]
    split
    · exact .inr ⟨.stopCall, rfl⟩
    · exact .inl rfl
  | stopJoin =>
    simp only [step, stopJoin]
    split
    · exact .inl rfl
    · exact .inr ⟨.stopJoin, rfl⟩
  | stopClear =>
    simp only [step, stopClear]
    split
    · exact .inr ⟨.stopClear, rfl⟩
    · exact .inl rfl
  | worker =>
    simp only [step]
    cases worker_cases s with
    | stay heq => exact .inl (congrArg base heq)
    | notify heq =>
      rw [heq]
      exact .inl rfl
    | sleep _ _ heq =>
      rw [heq]
      exact .inl rfl
    | move _ _ _ _ heq =>
      rw [heq]
      exact .inr ⟨.worker, rfl⟩
  | wakeUp wake pick => exact .inl (wakeUp_base s wake pick)
  | spurious w => exact .inl rfl

theorem base_run (s : SleepingQueue α) (as : List (SleepAction α)) :
    ∃ bs, (run step s as).base = run Workqueue.step s.base bs := by
  induction as generalizing s with
  | nil => exact ⟨[], rfl⟩
  | cons a as ih =>
    obtain ⟨bs, hbs⟩ := ih (s.step a)
    obtain hsame | ⟨b, hb⟩ := base_step s a
    · exact ⟨bs, by rw [run_cons, hbs, hsame]⟩
    · exact ⟨b :: bs, by rw [run_cons, hbs, hb, run_cons]⟩

/-! ### The worker asleep -/

/-- A sleeper that a wake-up is meant for: the worker, with something to do. -/
def Ready (s : SleepingQueue α) (w : QueueSleeper) : Prop := w = .worker ∧ ¬s.Idle

/-- Once every wake-up is made, the worker does not sleep while there is something to do. -/
def Calm (s : SleepingQueue α) : Prop := s.owed = [] → s.cv.Settled s.Ready

/-- The last wake-up owed is a `notify_one`, and the worker, with something to do, does not sleep
alone. -/
def Contended (s : SleepingQueue α) : Prop :=
  s.owed = [.one] ∧ .worker ∈ s.cv.asleep ∧ ¬s.Idle ∧ s.cv.asleep ≠ [.worker]

theorem calm_create : (create : SleepingQueue α).Calm :=
  fun _ _ hw => absurd hw List.not_mem_nil

/-- Steps that owe nothing less, put no worker to sleep and take no work away. -/
theorem Calm.mono {s s' : SleepingQueue α} (h : s.Calm) (howed : s'.owed = [] → s.owed = [])
    (hasleep : .worker ∈ s'.cv.asleep → .worker ∈ s.cv.asleep) (hidle : s.Idle → s'.Idle) :
    s'.Calm := by
  intro hnone w hw hready
  obtain ⟨rfl, hbusy⟩ := hready
  exact h (howed hnone) .worker (hasleep hw) ⟨rfl, fun h => hbusy (hidle h)⟩

/-- Without a worker asleep there is nothing to show. -/
theorem calm_of_awake {s : SleepingQueue α} (h : .worker ∉ s.cv.asleep) : s.Calm := by
  intro _ w hw hready
  rw [hready.1] at hw
  exact absurd hw h

theorem worker_mem_sleep_flush {cv : CondVar QueueSleeper} {id : ℕ}
    (h : .worker ∈ (cv.sleep (.flush id)).asleep) : .worker ∈ cv.asleep := by
  rcases List.mem_append.mp h with h | h
  · exact h
  · nomatch List.mem_singleton.mp h

theorem calm_owed {s : SleepingQueue α} {wake : QueueWake} {base : Workqueue α} :
    ({ s with base := base, owed := s.owed ++ [wake] } : SleepingQueue α).Calm :=
  fun howed => absurd howed (List.append_ne_nil_of_right_ne_nil _ (List.cons_ne_nil _ _))

/-- Nothing but a new task or `stop` gives the worker something to do. -/
theorem idle_step {q : Workqueue α} (h : q.queue = [] ∧ q.started = true) {b : WorkqueueAction α}
    (hb : ∀ task, b ≠ .enqueue task) (hstop : b ≠ .stopCall) :
    (q.step b).queue = [] ∧ (q.step b).started = true := by
  cases b with
  | start created =>
    simp only [Workqueue.step, Workqueue.start]
    split
    · exact ⟨h.1, rfl⟩
    · exact h
  | enqueue task => exact absurd rfl (hb task)
  | flushCall k =>
    simp only [Workqueue.step, Workqueue.flushCall]
    split <;> exact h
  | flushLook k =>
    simp only [Workqueue.step, Workqueue.flushLook]
    split_ifs <;> exact h
  | flushLoad k =>
    simp only [Workqueue.step, Workqueue.flushLoad]
    split <;> exact h
  | flushTimeout k =>
    simp only [Workqueue.step, Workqueue.flushTimeout]
    split <;> exact h
  | stopCall => exact absurd rfl hstop
  | stopJoin =>
    simp only [Workqueue.step, Workqueue.stopJoin]
    split <;> exact h
  | stopClear =>
    simp only [Workqueue.step, Workqueue.stopClear]
    split
    · exact ⟨rfl, h.2⟩
    · exact h
  | worker =>
    simp only [Workqueue.step, Workqueue.workerLoop]
    split
    · simp only [Workqueue.take, h.1, h.2, if_true]
      split <;> exact h
    all_goals exact h

theorem calm_wakeUp {s : SleepingQueue α} (h : s.Calm) (hfree : ¬s.Contended) (wake : QueueWake)
    (pick : QueueSleeper) : (s.wakeUp wake pick).Calm := by
  unfold wakeUp
  split_ifs with howed
  · cases wake with
    | one =>
      show (s.notifyOne pick).Calm
      unfold notifyOne
      split_ifs with hnone hpick
      · apply calm_of_awake
        show .worker ∉ s.cv.asleep
        rw [hnone]
        exact List.not_mem_nil
      · intro hlast
        have hone : s.owed = [.one] := by
          rcases List.erase_eq_nil_iff.mp hlast with hnil | hone
          · rw [hnil] at howed
            exact absurd howed List.not_mem_nil
          · exact hone
        -- the worker sleeps alone, if it is to be woken
        have halone : ∀ w ∈ s.cv.asleep, s.Ready w → s.cv.asleep = [w] := by
          intro w hw hready
          obtain ⟨rfl, hbusy⟩ := hready
          by_contra hne
          exact hfree ⟨hone, hw, hbusy, hne⟩
        exact (CondVar.settled_wake_iff s.cv .noTimeout).mpr halone pick hpick
      · exact h
    | all => exact fun _ => CondVar.settled_notifyAll _
  · exact h

theorem calm_worker {s : SleepingQueue α} (h : s.Calm) : s.worker.Calm := by
  cases worker_cases s with
  | stay heq => rwa [heq]
  | notify heq =>
    rw [heq]
    exact fun _ => CondVar.settled_notifyAll _
  | sleep _ hidle heq =>
    rw [heq]
    intro howed
    have hsettled : (s.cv.relock .worker .noTimeout).Settled s.Ready := h howed
    exact hsettled.sleep fun hready => hready.2 hidle
  | move hawake _ _ hcv heq =>
    rw [heq]
    apply calm_of_awake
    rwa [hcv]

theorem calm_step {s : SleepingQueue α} (h : s.Calm) (hfree : ¬s.Contended) (a : SleepAction α) :
    (s.step a).Calm := by
  cases a with
  | start created => exact h.mono id id fun hidle => idle_step (b := .start created) hidle nofun nofun
  | enqueue task =>
    simp only [step, enqueue]
    split_ifs
    · exact calm_owed
    · exact h
  | flushCall k => exact h.mono id id fun hidle => idle_step (b := .flushCall k) hidle nofun nofun
  | flushLook k =>
    simp only [step, flushLook]
    split
    · refine h.mono id (fun hw => ?_) fun hidle => idle_step (b := .flushLook k) hidle nofun nofun
      simp only at hw
      split_ifs at hw
      · exact hw
      · exact worker_mem_sleep_flush hw
    · exact h
  | flushLoad k =>
    simp only [step, flushLoad]
    split
    · exact h.mono id id fun hidle => idle_step (b := .flushLoad k) hidle nofun nofun
    · exact h
  | flushSleep k =>
    simp only [step, flushSleep]
    split
    · exact h.mono id worker_mem_sleep_flush id
    · exact h
  | flushTimeout k =>
    simp only [step, flushTimeout]
    split
    · exact h.mono id CondVar.mem_asleep_of_wake fun hidle =>
        idle_step (b := .flushTimeout k) hidle nofun nofun
    · exact h
  | stopCall =>
    simp only [step, stopCall]
    split_ifs
    · exact calm_owed
    · exact h
  | stopJoin =>
    simp only [step, stopJoin]
    split
    · exact h
    · exact h.mono id id fun hidle => idle_step (b := .stopJoin) hidle nofun nofun
  | stopClear =>
    simp only [step, stopClear]
    split
    · exact h.mono id id fun hidle => idle_step (b := .stopClear) hidle nofun nofun
    · exact h
  | worker => exact calm_worker h
  | wakeUp wake pick => exact calm_wakeUp h hfree wake pick
  | spurious w => exact h.mono id CondVar.mem_asleep_of_wake id

/-- In a contended state the system can wake a flush. -/
theorem not_calm_of_contended {s : SleepingQueue α} (h : s.Contended) : ∃ a, ¬(s.step a).Calm := by
  obtain ⟨howed, hw, hbusy, hne⟩ := h
  have hnot : ¬∀ pick ∈ s.cv.asleep, (s.cv.wake pick .noTimeout).Settled s.Ready := by
    intro hall
    exact hne ((CondVar.settled_wake_iff s.cv .noTimeout).mp hall .worker hw ⟨rfl, hbusy⟩)
  obtain ⟨pick, hbad⟩ := not_forall.mp hnot
  obtain ⟨hpick, hbad⟩ := Classical.not_imp.mp hbad
  refine ⟨.wakeUp .one pick, fun hcalm => hbad ?_⟩
  have hmem : QueueWake.one ∈ s.owed := by
    rw [howed]
    exact List.mem_singleton_self _
  have hasleep : s.cv.asleep ≠ [] := List.ne_nil_of_mem hpick
  simp only [step, wakeUp, if_pos hmem, notifyOne, if_neg hasleep, if_pos hpick] at hcalm
  refine hcalm ?_
  rw [howed]
  rfl

/-! ### A worker that is left asleep -/

/-- The actions after which the worker sleeps as before: nothing is enqueued, `stop` is not called,
and it does not wake for no reason. -/
def LeavesAsleep : SleepAction α → Prop
  | .enqueue _ | .stopCall => False
  | .spurious w => w ≠ .worker
  | _ => True

/-- A worker that sleeps is not about to wake the flushes. -/
theorem notifying_step {s : SleepingQueue α}
    (h : .worker ∈ s.cv.asleep → s.notifying = false) (a : SleepAction α) :
    .worker ∈ (s.step a).cv.asleep → (s.step a).notifying = false := by
  cases a with
  | worker =>
    intro hw
    simp only [step] at hw ⊢
    cases worker_cases s with
    | stay heq =>
      rw [heq] at hw ⊢
      exact h hw
    | notify heq =>
      rw [heq]
    | sleep hnot _ heq =>
      rw [heq]
      exact hnot
    | move hawake _ _ hcv heq =>
      rw [heq] at hw
      rw [hcv] at hw
      exact absurd hw hawake
  | start created => exact h
  | enqueue task =>
    simp only [step, enqueue]
    split <;> exact h
  | flushCall id => exact h
  | flushLook id =>
    simp only [step, flushLook]
    split
    · intro hw
      simp only at hw
      split_ifs at hw
      · exact h hw
      · exact h (worker_mem_sleep_flush hw)
    · exact h
  | flushLoad id =>
    simp only [step, flushLoad]
    split <;> exact h
  | flushSleep id =>
    simp only [step, flushSleep]
    split
    · exact fun hw => h (worker_mem_sleep_flush hw)
    · exact h
  | flushTimeout id =>
    simp only [step, flushTimeout]
    split
    · exact fun hw => h (CondVar.mem_asleep_of_wake hw)
    · exact h
  | stopCall =>
    simp only [step, stopCall]
    split <;> exact h
  | stopJoin =>
    simp only [step, stopJoin]
    split <;> exact h
  | stopClear =>
    simp only [step, stopClear]
    split <;> exact h
  | wakeUp wake pick =>
    simp only [step, wakeUp]
    split
    · cases wake with
      | one =>
        show .worker ∈ (s.notifyOne pick).cv.asleep → (s.notifyOne pick).notifying = false
        unfold notifyOne
        split_ifs
        · exact h
        · exact fun hw => h (CondVar.mem_asleep_of_wake hw)
        · exact h
      | all => exact fun hw => absurd hw List.not_mem_nil
    · exact h
  | spurious w => exact fun hw => h (CondVar.mem_asleep_of_wake hw)

theorem notifying_run (as : List (SleepAction α)) :
    .worker ∈ (run step create as).cv.asleep → (run step create as).notifying = false :=
  run_of_invariant (I := fun s : SleepingQueue α => .worker ∈ s.cv.asleep → s.notifying = false)
    (fun _ a h => notifying_step h a) as fun hw => absurd hw List.not_mem_nil

theorem stranded_step {s : SleepingQueue α} (howed : s.owed = []) (hw : .worker ∈ s.cv.asleep)
    (hnot : s.notifying = false) {a : SleepAction α} (ha : LeavesAsleep a) :
    (s.step a).owed = [] ∧ .worker ∈ (s.step a).cv.asleep := by
  cases a with
  | enqueue task => exact ha.elim
  | stopCall => exact ha.elim
  | start created => exact ⟨howed, hw⟩
  | flushCall k => exact ⟨howed, hw⟩
  | flushLook k =>
    simp only [step, flushLook]
    split
    · refine ⟨howed, ?_⟩
      simp only
      split_ifs
      · exact hw
      · exact List.mem_append_left _ hw
    · exact ⟨howed, hw⟩
  | flushLoad k =>
    simp only [step, flushLoad]
    split <;> exact ⟨howed, hw⟩
  | flushSleep k =>
    simp only [step, flushSleep]
    split
    · exact ⟨howed, List.mem_append_left _ hw⟩
    · exact ⟨howed, hw⟩
  | flushTimeout k =>
    simp only [step, flushTimeout]
    split
    · exact ⟨howed, CondVar.mem_asleep_wake_of_ne hw nofun⟩
    · exact ⟨howed, hw⟩
  | stopJoin =>
    simp only [step, stopJoin]
    split <;> exact ⟨howed, hw⟩
  | stopClear =>
    simp only [step, stopClear]
    split <;> exact ⟨howed, hw⟩
  | worker =>
    have hstay : s.worker = s := by
      rw [worker, if_neg (by simp [hnot]), if_pos hw]
    simp only [step, hstay]
    exact ⟨howed, hw⟩
  | wakeUp wake pick =>
    have hnone : wake ∉ s.owed := by
      rw [howed]
      exact List.not_mem_nil
    simp only [step, wakeUp, if_neg hnone]
    exact ⟨howed, hw⟩
  | spurious w => exact ⟨howed, CondVar.mem_asleep_wake_of_ne hw (Ne.symm ha)⟩

theorem stranded_run {s : SleepingQueue α} (howed : s.owed = []) (hw : .worker ∈ s.cv.asleep)
    (hnot : .worker ∈ s.cv.asleep → s.notifying = false) {bs : List (SleepAction α)}
    (hbs : ∀ b ∈ bs, LeavesAsleep b) : .worker ∈ (run step s bs).cv.asleep := by
  induction bs generalizing s with
  | nil => exact hw
  | cons b bs ih =>
    obtain ⟨howed', hw'⟩ := stranded_step howed hw (hnot hw) (hbs b List.mem_cons_self)
    exact ih howed' hw' (notifying_step hnot b) fun b' hb' => hbs b' (List.mem_cons_of_mem _ hb')

end SleepingQueue

open SleepingQueue

/-- **One condition variable for the worker and the flushes.**  In any interleaving the queue
goes through states of the polling one.  As long as the last wake-up owed is never the one of
`enqueue` while the worker and a flush sleep, the worker is not left asleep on a task; the first
time it is, the system may wake the flush, and the worker sleeps on until the next call. -/
theorem workqueue_wakes (as bs : List (SleepAction α)) :
    let s := run step create as
    (∃ cs, s.base = run Workqueue.step .create cs) ∧
      (Guarded step (fun s' _ => ¬s'.Contended) create as →
        Always step Calm create as ∧ ((∀ a, (s.step a).Calm) ↔ ¬s.Contended)) ∧
      (s.owed = [] → .worker ∈ s.cv.asleep → (∀ b ∈ bs, LeavesAsleep b) →
        .worker ∈ (run step s bs).cv.asleep) := by
  intro s
  refine ⟨base_run create as, fun hfree => ?_, fun howed hw hbs =>
    stranded_run howed hw (notifying_run as) hbs⟩
  have hcalm : Always step Calm create as :=
    always_of_inductive (fun _ a hs hG => calm_step hs hG a) calm_create hfree
  refine ⟨hcalm, ?_⟩
  constructor
  · intro hall hcont
    obtain ⟨a, ha⟩ := not_calm_of_contended hcont
    exact ha (hall a)
  · intro hnot a
    exact calm_step hcalm.last hnot a

/-- A flush that loads `in_flight_` before the worker lowers it sleeps after the worker has woken
everybody; the next task's wake-up goes to it. -/
def strandingRun : List (SleepAction ℕ) :=
  [.start true, .enqueue 7, .wakeUp .one .worker, .worker, .worker, .flushCall 0, .flushLook 0,
    .flushLoad 0, .worker, .worker, .worker, .flushSleep 0, .worker, .enqueue 8,
    .wakeUp .one (.flush 0)]

/-- The worker can be stranded: it sleeps, with a task in the queue. -/
theorem workqueue_strands : ¬∀ as : List (SleepAction ℕ), (run step create as).Calm := by
  intro hall
  have hcalm := hall strandingRun (by decide) .worker (by decide)
  exact hcalm ⟨rfl, by decide⟩

end UsrLinuxEmu.Kernel
