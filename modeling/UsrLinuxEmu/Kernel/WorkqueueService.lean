import UsrLinuxEmu.Kernel.Workqueue
import UsrLinuxEmu.Transition.Progress

/-!
# What a work queue does for its callers (`src/kernel/thread/kernel_workqueue.cpp`)

A queue whose worker has been started and that nobody stops.  Flushes may fail or succeed too early;
the tasks are run in order all the same, and each after a bounded number of the worker's steps.

* `Serving` — the worker is there, and `stop` has not been called;
* `InOrder` — what has been enqueued has run, is being run or waits, in this order;
* `OthersStep`, `WorkerStep` — what a step of the other threads, and one of the worker, can do;
* `tasksLeft` — the steps of the worker until it has run the first `n` tasks;
* `tasksLeft_worker` — every step it takes while nobody holds the mutex is one of them.
-/

namespace UsrLinuxEmu.Kernel

open UsrLinuxEmu.Transition

variable {α : Type*}

/-- What has been enqueued has run, is being run or waits. -/
def InOrder (x : WatchedQueue α) : Prop :=
  x.1.enqueued = x.1.finished ++ x.2.worker.held ++ x.2.queue

structure Serving (x : WatchedQueue α) : Prop where
  started : x.2.started = true
  notStopping : x.2.stopping = .idle
  present : x.2.worker ≠ .absent
  notExited : x.2.worker ≠ .exited

/-! ### The worker -/

theorem inOrder_take {g : WorkqueueHistory α} {s : Workqueue α} (h : InOrder (g, s))
    (hw : s.worker = .atWait) : InOrder (g, s.take) := by
  have hfifo : g.enqueued = g.finished ++ s.worker.held ++ s.queue := h
  rw [hw] at hfifo
  by_cases hfree : s.mutex = none
  · rw [Workqueue.take, if_pos hfree]
    cases hqueue : s.queue with
    | cons task rest =>
      rw [hqueue] at hfifo
      show g.enqueued = g.finished ++ [task] ++ rest
      rw [hfifo, WorkerPc.held, List.append_nil, List.append_assoc, List.singleton_append]
    | nil =>
      rw [hqueue] at hfifo
      show InOrder (g, if s.started then s else { s with queue := [], worker := .exited })
      split_ifs
      · exact h
      · exact hfifo
  · rw [Workqueue.take, if_neg hfree]
    exact h

theorem inOrder_worker {x : WatchedQueue α} (h : InOrder x) : InOrder (watchedStep x .worker) := by
  obtain ⟨g, s⟩ := x
  have hfifo : g.enqueued = g.finished ++ s.worker.held ++ s.queue := h
  cases hw : s.worker with
  | absent | exited =>
    rw [watchedStep_of g s .worker (by rw [WorkqueueHistory.note, hw])
      (by rw [Workqueue.step, Workqueue.workerLoop, hw])]
    exact h
  | atWait =>
    rw [watchedStep_of g s .worker (by rw [WorkqueueHistory.note, hw])
      (by rw [Workqueue.step, Workqueue.workerLoop, hw])]
    exact inOrder_take h hw
  | popped task | returned =>
    rw [watchedStep_of g s .worker (by rw [WorkqueueHistory.note, hw])
      (by rw [Workqueue.step, Workqueue.workerLoop, hw])]
    rw [hw] at hfifo
    exact hfifo
  | running task =>
    rw [watchedStep_of g s .worker (by rw [WorkqueueHistory.note, hw])
      (by rw [Workqueue.step, Workqueue.workerLoop, hw])]
    rw [hw] at hfifo
    show g.enqueued = (g.finished ++ [task]) ++ [] ++ s.queue
    rw [hfifo, WorkerPc.held, List.append_nil]

/-! ### The other threads -/

/-- The other threads add tasks, and leave the worker and what it has done alone. -/
structure OthersStep (x y : WatchedQueue α) (added : List α) : Prop where
  enqueued : y.1.enqueued = x.1.enqueued ++ added
  queue : y.2.queue = x.2.queue ++ added
  worker : y.2.worker = x.2.worker
  started : y.2.started = x.2.started
  stopping : y.2.stopping = x.2.stopping
  finished : y.1.finished = x.1.finished

theorem OthersStep.refl (x : WatchedQueue α) : OthersStep x x [] :=
  ⟨(List.append_nil _).symm, (List.append_nil _).symm, rfl, rfl, rfl, rfl⟩

theorem OthersStep.inOrder {x y : WatchedQueue α} {added : List α} (h : OthersStep x y added)
    (hx : InOrder x) : InOrder y := by
  unfold InOrder at hx ⊢
  rw [h.enqueued, h.finished, h.worker, h.queue, hx, List.append_assoc _ x.2.queue]

/-- The task that a call adds, if it gets the mutex. -/
def added (x : WatchedQueue α) : WorkqueueAction α → List α
  | .enqueue task => if x.2.mutex = none then [task] else []
  | _ => []

theorem others_step {x : WatchedQueue α} {a : WorkqueueAction α} (hidle : x.2.stopping = .idle)
    (hstart : ∀ created, a ≠ .start created) (hstop : a ≠ .stopCall) (hworker : a ≠ .worker) :
    OthersStep x (watchedStep x a) (added x a) := by
  obtain ⟨g, s⟩ := x
  have hflush (id : ℕ) (pc : FlushPc) (mutex : Option ℕ) :
      OthersStep (g, s) (g, { s.setFlush id pc with mutex := mutex }) [] :=
    ⟨(List.append_nil _).symm, (List.append_nil _).symm, rfl, rfl, rfl, rfl⟩
  cases a with
  | start created => exact absurd rfl (hstart created)
  | enqueue task =>
    by_cases hfree : s.mutex = none
    · rw [watchedStep_of g s (.enqueue task) (if_pos hfree) (if_pos hfree), added, if_pos hfree]
      exact ⟨rfl, rfl, rfl, rfl, rfl, rfl⟩
    · rw [watchedStep_of g s (.enqueue task) (if_neg hfree) (if_neg hfree), added, if_neg hfree]
      exact .refl _
  | flushCall id =>
    cases hpc : s.flushes id with
    | idle | succeeded | timedOut =>
      rw [watchedStep_of g s (.flushCall id) (by rw [WorkqueueHistory.note, hpc])
        (by rw [Workqueue.step, Workqueue.flushCall, hpc])]
      exact ⟨(List.append_nil _).symm, (List.append_nil _).symm, rfl, rfl, rfl, rfl⟩
    | called | looked | waiting =>
      rw [watchedStep_of g s (.flushCall id) (by rw [WorkqueueHistory.note, hpc])
        (by rw [Workqueue.step, Workqueue.flushCall, hpc])]
      exact .refl _
  | flushLook id =>
    show OthersStep (g, s) (g, s.flushLook id) []
    unfold Workqueue.flushLook
    split_ifs
    · exact hflush id _ _
    · exact hflush id _ s.mutex
    · exact .refl _
  | flushLoad id =>
    show OthersStep (g, s) (g, s.flushLoad id) []
    unfold Workqueue.flushLoad
    split_ifs
    · exact hflush id _ _
    · exact hflush id _ _
    · exact .refl _
  | flushTimeout id =>
    show OthersStep (g, s) (g, s.flushTimeout id) []
    unfold Workqueue.flushTimeout
    split_ifs
    · exact hflush id _ s.mutex
    · exact .refl _
  | stopCall => exact absurd rfl hstop
  | stopJoin =>
    have hjoin : s.stopJoin = s := by
      unfold Workqueue.stopJoin
      rw [show s.stopping = .idle from hidle]
    show OthersStep (g, s) (g, s.stopJoin) []
    rw [hjoin]
    exact .refl _
  | stopClear =>
    have hno : ¬(s.stopping = .clearing ∧ s.mutex = none) := by
      rw [show s.stopping = .idle from hidle]
      simp
    rw [watchedStep_of g s .stopClear (if_neg hno) (if_neg hno)]
    exact .refl _
  | worker => exact absurd rfl hworker

/-! ### Service -/

theorem OthersStep.serving {x y : WatchedQueue α} {added : List α} (h : OthersStep x y added)
    (hx : Serving x) : Serving y where
  started := h.started.trans hx.started
  notStopping := h.stopping.trans hx.notStopping
  present := by
    rw [h.worker]
    exact hx.present
  notExited := by
    rw [h.worker]
    exact hx.notExited

/-- The worker's step, case by case, on a queue that is served. -/
inductive WorkerStep (x y : WatchedQueue α) : Prop where
  | blocked (hw : x.2.worker = .atWait) (hmutex : x.2.mutex ≠ none) (heq : y = x)
  | idle (hw : x.2.worker = .atWait) (hqueue : x.2.queue = []) (heq : y = x)
  | pop (task : α) (hw : x.2.worker = .atWait) (hw' : y.2.worker = .popped task)
      (hfinished : y.1.finished = x.1.finished)
  | count (task : α) (hw : x.2.worker = .popped task) (hw' : y.2.worker = .running task)
      (hfinished : y.1.finished = x.1.finished)
  | call (task : α) (hw : x.2.worker = .running task) (hw' : y.2.worker = .returned)
      (hfinished : y.1.finished = x.1.finished ++ [task])
  | uncount (hw : x.2.worker = .returned) (hw' : y.2.worker = .atWait)
      (hfinished : y.1.finished = x.1.finished)

/-- Only the worker itself moves. -/
theorem workerStep_keeps (x : WatchedQueue α) (hx : Serving x) :
    WorkerStep x (watchedStep x .worker) ∧ (watchedStep x .worker).1.enqueued = x.1.enqueued ∧
      (watchedStep x .worker).2.started = x.2.started ∧
      (watchedStep x .worker).2.stopping = x.2.stopping := by
  obtain ⟨g, s⟩ := x
  cases hw : s.worker with
  | absent => exact absurd hw hx.present
  | exited => exact absurd hw hx.notExited
  | atWait =>
    rw [watchedStep_of g s .worker (by rw [WorkqueueHistory.note, hw])
      (by rw [Workqueue.step, Workqueue.workerLoop, hw])]
    by_cases hfree : s.mutex = none
    · cases hqueue : s.queue with
      | nil =>
        have hsame : s.take = s := by
          rw [Workqueue.take, if_pos hfree, hqueue]
          exact if_pos hx.started
        exact ⟨.idle hw hqueue (congrArg (Prod.mk g) hsame), rfl, congrArg Workqueue.started hsame,
          congrArg Workqueue.stopping hsame⟩
      | cons task rest =>
        have htake : s.take = { s with queue := rest, worker := .popped task } := by
          rw [Workqueue.take, if_pos hfree, hqueue]
        rw [htake]
        exact ⟨.pop task hw rfl rfl, rfl, rfl, rfl⟩
    · have hsame : s.take = s := by rw [Workqueue.take, if_neg hfree]
      exact ⟨.blocked hw hfree (congrArg (Prod.mk g) hsame), rfl, congrArg Workqueue.started hsame,
        congrArg Workqueue.stopping hsame⟩
  | popped task =>
    rw [watchedStep_of g s .worker (by rw [WorkqueueHistory.note, hw])
      (by rw [Workqueue.step, Workqueue.workerLoop, hw])]
    exact ⟨.count task hw rfl rfl, rfl, rfl, rfl⟩
  | running task =>
    rw [watchedStep_of g s .worker (by rw [WorkqueueHistory.note, hw])
      (by rw [Workqueue.step, Workqueue.workerLoop, hw])]
    exact ⟨.call task hw rfl rfl, rfl, rfl, rfl⟩
  | returned =>
    rw [watchedStep_of g s .worker (by rw [WorkqueueHistory.note, hw])
      (by rw [Workqueue.step, Workqueue.workerLoop, hw])]
    exact ⟨.uncount hw rfl rfl, rfl, rfl, rfl⟩

theorem serving_worker {x : WatchedQueue α} (hx : Serving x) : Serving (watchedStep x .worker) := by
  obtain ⟨hstep, -, hstarted, hstopping⟩ := workerStep_keeps x hx
  refine ⟨hstarted.trans hx.started, hstopping.trans hx.notStopping, ?_, ?_⟩
  · cases hstep with
    | blocked _ _ heq | idle _ _ heq => rw [heq]; exact hx.present
    | pop _ _ hw' | count _ _ hw' | call _ _ hw' | uncount _ hw' => rw [hw']; exact nofun
  · cases hstep with
    | blocked _ _ heq | idle _ _ heq => rw [heq]; exact hx.notExited
    | pop _ _ hw' | count _ _ hw' | call _ _ hw' | uncount _ hw' => rw [hw']; exact nofun

/-! ### How long it takes -/

/-- A task takes four steps: it is popped, counted, called, and no longer counted. -/
def WorkerPc.ahead : WorkerPc α → ℕ → ℕ
  | .popped _, k => 4 * k - 1
  | .running _, k => 4 * k - 2
  | .returned, k => 4 * k + 1
  | .absent, k | .atWait, k | .exited, k => 4 * k

/-- The worker's steps until the first `n` tasks have run. -/
def tasksLeft (n : ℕ) (x : WatchedQueue α) : ℕ :=
  if n ≤ x.1.finished.length then 0 else x.2.worker.ahead (n - x.1.finished.length)

theorem tasksLeft_eq_zero {n : ℕ} {x : WatchedQueue α} (h : tasksLeft n x = 0) :
    n ≤ x.1.finished.length := by
  unfold tasksLeft at h
  split_ifs at h with hdone
  · exact hdone
  · cases hw : x.2.worker <;> simp only [hw, WorkerPc.ahead] at h <;> omega

theorem tasksLeft_others {x y : WatchedQueue α} {added : List α} (h : OthersStep x y added)
    (n : ℕ) : tasksLeft n y = tasksLeft n x := by
  rw [tasksLeft, tasksLeft, h.finished, h.worker]

/-- A step of the worker that finishes no task. -/
theorem tasksLeft_move {x y : WatchedQueue α} (hfinished : y.1.finished = x.1.finished)
    (hahead : ∀ k, 0 < k → y.2.worker.ahead k ≤ x.2.worker.ahead k - 1) (n : ℕ) :
    tasksLeft n y ≤ tasksLeft n x - 1 := by
  rw [tasksLeft, tasksLeft, hfinished]
  by_cases hdone : n ≤ x.1.finished.length
  · rw [if_pos hdone]
    exact Nat.zero_le _
  · rw [if_neg hdone, if_neg hdone]
    exact hahead _ (by omega)

theorem tasksLeft_worker {x : WatchedQueue α} (hx : Serving x) (hfifo : InOrder x) {n : ℕ}
    (hn : n ≤ x.1.enqueued.length) :
    tasksLeft n (watchedStep x .worker) ≤ tasksLeft n x - if x.2.mutex = none then 1 else 0 := by
  have hone : (if x.2.mutex = none then 1 else 0) ≤ 1 := by split_ifs <;> omega
  cases (workerStep_keeps x hx).1 with
  | blocked hw hmutex heq =>
    rw [heq, if_neg hmutex]
    exact Nat.le_refl _
  | idle hw hqueue heq =>
    -- everything has run
    have hdone : n ≤ x.1.finished.length := by
      have hlength := congrArg List.length hfifo
      rw [hw, hqueue, WorkerPc.held, List.append_nil, List.append_nil] at hlength
      omega
    rw [heq, tasksLeft, if_pos hdone]
    exact Nat.zero_le _
  | pop task hw hw' hfinished =>
    refine (tasksLeft_move hfinished (fun k _ => ?_) n).trans (Nat.sub_le_sub_left hone _)
    rw [hw, hw']
    exact Nat.le_refl _
  | count task hw hw' hfinished =>
    refine (tasksLeft_move hfinished (fun k _ => ?_) n).trans (Nat.sub_le_sub_left hone _)
    rw [hw, hw']
    exact Nat.le_refl _
  | call task hw hw' hfinished =>
    refine le_trans ?_ (Nat.sub_le_sub_left hone _)
    rw [tasksLeft, tasksLeft, hw, hw', hfinished, List.length_append, List.length_singleton]
    split_ifs with hdone hdone'
    · exact Nat.zero_le _
    · exact Nat.zero_le _
    · omega
    · simp only [WorkerPc.ahead]
      omega
  | uncount hw hw' hfinished =>
    refine (tasksLeft_move hfinished (fun k _ => ?_) n).trans (Nat.sub_le_sub_left hone _)
    rw [hw, hw']
    exact Nat.le_refl _

end UsrLinuxEmu.Kernel
