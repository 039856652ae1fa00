import Mathlib.Algebra.Order.Ring.Int
import Mathlib.Data.List.Basic
import Mathlib.Tactic.SplitIfs
import UsrLinuxEmu.Transition.Simulation

/-!
# The work queue (`src/kernel/thread/kernel_workqueue.cpp`)

Any number of threads enqueue tasks and flush; one worker thread takes the tasks under the mutex,
but counts them in `in_flight_` only after it has given the mutex back.

* `Workqueue` — the queue, the counter, the mutex, and where the worker, `stop` and each flush are;
* `Workqueue.step` — one lock region, or one access to a counter, of one thread;
* `WorkqueueSound` — tasks run in order, once each; a flush that succeeds and a `stop` that returns
  keep what they promise;
* `workqueue_sound_iff` — the interleavings in which that holds.
-/

namespace UsrLinuxEmu.Kernel

open UsrLinuxEmu.Transition

/-! ### The threads -/

/-- Where the worker is in `worker_loop`; it gives the task back after the call. -/
inductive WorkerPc (α : Type*) where
  | absent
  | atWait
  | popped (task : α)
  | running (task : α)
  | returned
  | exited
  deriving DecidableEq

/-- `looked` holds the mutex, between the two halves of the predicate; `waiting` has found the
predicate false. -/
inductive FlushPc where
  | idle
  | called
  | looked
  | waiting
  | succeeded
  | timedOut
  deriving DecidableEq

inductive StopPc where
  | idle
  | joining
  | clearing
  deriving DecidableEq

/-- `mutex` names the flush that holds it from one step to the next; the other lock regions are
single steps. -/
structure Workqueue (α : Type*) where
  queue : List α
  started : Bool
  inFlight : ℤ
  mutex : Option ℕ
  worker : WorkerPc α
  stopping : StopPc
  flushes : ℕ → FlushPc

/-- `start` says whether `pthread_create` succeeds.  `start` and `stop` are called serially, as the
header asks, and not from a task. -/
inductive WorkqueueAction (α : Type*) where
  | start (created : Bool)
  | enqueue (task : α)
  | flushCall (id : ℕ)
  | flushLook (id : ℕ)
  | flushLoad (id : ℕ)
  | flushTimeout (id : ℕ)
  | stopCall
  | stopJoin
  | stopClear
  | worker
  deriving DecidableEq

variable {α : Type*}

/-- The task that the worker has taken and not finished. -/
def WorkerPc.held : WorkerPc α → List α
  | .popped task | .running task => [task]
  | .absent | .atWait | .returned | .exited => []

/-- What the worker contributes to `in_flight_`. -/
def WorkerPc.counted : WorkerPc α → ℤ
  | .running _ | .returned => 1
  | .absent | .atWait | .popped _ | .exited => 0

namespace Workqueue

def create : Workqueue α := ⟨[], false, 0, none, .absent, .idle, fun _ => .idle⟩

def setFlush (s : Workqueue α) (id : ℕ) (pc : FlushPc) : Workqueue α :=
  { s with flushes := Function.update s.flushes id pc }

def start (s : Workqueue α) (created : Bool) : Workqueue α :=
  if s.stopping = .idle ∧ s.started = false then
    { s with started := true, worker := if created then .atWait else .absent }
  else s

def enqueue (s : Workqueue α) (task : α) : Workqueue α :=
  if s.mutex = none then { s with queue := s.queue ++ [task] } else s

def flushCall (s : Workqueue α) (id : ℕ) : Workqueue α :=
  match s.flushes id with
  | .idle | .succeeded | .timedOut => s.setFlush id .called
  | .called | .looked | .waiting => s

/-- The mutex is taken, and `queue_.empty()` evaluated. -/
def flushLook (s : Workqueue α) (id : ℕ) : Workqueue α :=
  if (s.flushes id = .called ∨ s.flushes id = .waiting) ∧ s.mutex = none then
    if s.queue = [] then { s.setFlush id .looked with mutex := some id }
    else s.setFlush id .waiting
  else s

/-- `in_flight_` is loaded, and the mutex given back. -/
def flushLoad (s : Workqueue α) (id : ℕ) : Workqueue α :=
  if s.flushes id = .looked then
    { s.setFlush id (if s.inFlight = 0 then .succeeded else .waiting) with mutex := none }
  else s

def flushTimeout (s : Workqueue α) (id : ℕ) : Workqueue α :=
  if s.flushes id = .waiting then s.setFlush id .timedOut else s

/-- A queue that has not been started has nothing to stop. -/
def stopCall (s : Workqueue α) : Workqueue α :=
  if s.stopping = .idle ∧ s.mutex = none ∧ s.started = true then
    { s with started := false, stopping := .joining }
  else s

def stopJoin (s : Workqueue α) : Workqueue α :=
  match s.stopping, s.worker with
  | .joining, .exited | .joining, .absent => { s with worker := .absent, stopping := .clearing }
  | _, _ => s

def stopClear (s : Workqueue α) : Workqueue α :=
  if s.stopping = .clearing ∧ s.mutex = none then { s with queue := [], stopping := .idle } else s

/-- The worker's lock region. -/
def take (s : Workqueue α) : Workqueue α :=
  if s.mutex = none then
    match s.queue with
    | task :: rest => { s with queue := rest, worker := .popped task }
    | [] => if s.started then s else { s with worker := .exited }
  else s

def workerLoop (s : Workqueue α) : Workqueue α :=
  match s.worker with
  | .atWait => s.take
  | .popped task => { s with inFlight := s.inFlight + 1, worker := .running task }
  | .running _ => { s with worker := .returned }
  | .returned => { s with inFlight := s.inFlight - 1, worker := .atWait }
  | .absent | .exited => s

def step (s : Workqueue α) : WorkqueueAction α → Workqueue α
  | .start created => s.start created
  | .enqueue task => s.enqueue task
  | .flushCall id => s.flushCall id
  | .flushLook id => s.flushLook id
  | .flushLoad id => s.flushLoad id
  | .flushTimeout id => s.flushTimeout id
  | .stopCall => s.stopCall
  | .stopJoin => s.stopJoin
  | .stopClear => s.stopClear
  | .worker => s.workerLoop

end Workqueue

/-! ### What has happened -/

/-- The tasks enqueued and the tasks that have run, oldest first; how many were enqueued when each
flush was called; whether the last `stop` has returned. -/
structure WorkqueueHistory (α : Type*) where
  enqueued : List α
  finished : List α
  calls : ℕ → ℕ
  stopped : Bool

namespace WorkqueueHistory

def empty : WorkqueueHistory α := ⟨[], [], fun _ => 0, false⟩

def note (h : WorkqueueHistory α) (s : Workqueue α) : WorkqueueAction α → WorkqueueHistory α
  | .start _ =>
    if s.stopping = .idle ∧ s.started = false then { h with stopped := false } else h
  | .enqueue task => if s.mutex = none then { h with enqueued := h.enqueued ++ [task] } else h
  | .flushCall id =>
    match s.flushes id with
    | .idle | .succeeded | .timedOut =>
      { h with calls := Function.update h.calls id h.enqueued.length }
    | .called | .looked | .waiting => h
  | .stopCall =>
    if s.stopping = .idle ∧ s.mutex = none ∧ s.started = false then { h with stopped := true }
    else h
  | .stopClear =>
    if s.stopping = .clearing ∧ s.mutex = none then { h with stopped := true } else h
  | .worker =>
    match s.worker with
    | .running task => { h with finished := h.finished ++ [task] }
    | _ => h
  | .flushLook _ | .flushLoad _ | .flushTimeout _ | .stopJoin => h

end WorkqueueHistory

/-- The queue with its history. -/
abbrev WatchedQueue (α : Type*) := WorkqueueHistory α × Workqueue α

abbrev watchedStep : WatchedQueue α → WorkqueueAction α → WatchedQueue α :=
  observed Workqueue.step WorkqueueHistory.note

def watchedCreate : WatchedQueue α := (.empty, .create)

theorem flushes_setFlush (s : Workqueue α) (id : ℕ) (pc : FlushPc) (other : ℕ) :
    (s.setFlush id pc).flushes other = if other = id then pc else s.flushes other :=
  Function.update_apply s.flushes id pc other

theorem watchedStep_of (h : WorkqueueHistory α) (s : Workqueue α) (a : WorkqueueAction α)
    {h' : WorkqueueHistory α} {s' : Workqueue α} (hnote : h.note s a = h')
    (hstep : s.step a = s') : watchedStep (h, s) a = (h', s') :=
  Prod.ext hnote hstep

/-- Tasks run in the order in which they were enqueued, none twice and none left out; a flush that
returned success found every task enqueued before its call finished; once `stop` has returned no
task is running. -/
structure WorkqueueSound (x : WatchedQueue α) : Prop where
  fifo : x.1.enqueued = x.1.finished ++ x.2.worker.held ++ x.2.queue
  flushed : ∀ id, x.2.flushes id = .succeeded → x.1.calls id ≤ x.1.finished.length
  stopped : x.1.stopped = true → x.2.worker.held = []

/-- A flush that finds the counter zero does not find the worker between the pop and the count,
unless a task has been enqueued since its call; `stop` has nothing to clear. -/
def WorkqueueGuard (x : WatchedQueue α) : WorkqueueAction α → Prop
  | .flushLoad id =>
    x.2.flushes id = .looked → x.2.inFlight = 0 → ∀ task, x.2.worker = .popped task →
      x.1.calls id < x.1.enqueued.length
  | .stopClear => x.2.stopping = .clearing → x.2.mutex = none → x.2.queue = []
  | _ => True

/-! ### The invariant -/

/-- Besides the property: the counter is the worker's, a flush that has looked holds the mutex of an
empty queue, and the worker is gone once it is joined. -/
structure WorkqueueInv (x : WatchedQueue α) : Prop extends WorkqueueSound x where
  counter : x.2.inFlight = x.2.worker.counted
  looked : ∀ id, x.2.flushes id = .looked → x.2.mutex = some id ∧ x.2.queue = []
  calls : ∀ id, x.1.calls id ≤ x.1.enqueued.length
  unstarted : x.2.stopping = .idle → x.2.started = false → x.2.worker = .absent
  clearing : x.2.stopping = .clearing → x.2.worker = .absent
  draining : x.2.stopping ≠ .idle → x.2.started = false
  returned : x.1.stopped = true → x.2.stopping = .idle ∧ x.2.started = false

variable {h : WorkqueueHistory α} {s : Workqueue α}

theorem workqueueInv_create : WorkqueueInv (watchedCreate : WatchedQueue α) where
  fifo := rfl
  flushed := fun _ hflush => by cases hflush
  stopped := fun _ => rfl
  counter := rfl
  looked := fun _ hflush => by cases hflush
  calls := fun _ => le_rfl
  unstarted := fun _ _ => rfl
  clearing := fun _ => rfl
  draining := fun _ => rfl
  returned := fun hstop => by cases hstop

namespace WorkqueueInv

/-- No flush has looked while the mutex is free. -/
theorem not_looked (hI : WorkqueueInv (h, s)) (hfree : s.mutex = none) (id : ℕ) :
    s.flushes id ≠ .looked := by
  intro hlook
  have hheld := (hI.looked id hlook).1
  rw [show s.mutex = some id from hheld] at hfree
  cases hfree

theorem start (hI : WorkqueueInv (h, s)) (created : Bool) :
    WorkqueueInv (watchedStep (h, s) (.start created)) := by
  by_cases hc : s.stopping = .idle ∧ s.started = false
  · rw [watchedStep_of h s (.start created) (if_pos hc) (if_pos hc)]
    have hworker : s.worker = .absent := hI.unstarted hc.1 hc.2
    have hheld : (if created then WorkerPc.atWait else .absent : WorkerPc α).held = [] := by
      cases created <;> rfl
    have hcount : (if created then WorkerPc.atWait else .absent : WorkerPc α).counted = 0 := by
      cases created <;> rfl
    exact {
      fifo := by
        have hfifo := hI.fifo
        simp only [hworker] at hfifo
        show h.enqueued = h.finished ++ _ ++ s.queue
        rw [hheld]
        exact hfifo
      flushed := hI.flushed
      stopped := fun hstop => by cases hstop
      counter := by
        show s.inFlight = _
        rw [hcount, show s.inFlight = s.worker.counted from hI.counter, hworker]
        rfl
      looked := hI.looked
      calls := hI.calls
      unstarted := fun _ hstart => by cases hstart
      clearing := fun hclear => by
        rw [show s.stopping = .clearing from hclear] at hc
        cases hc.1
      draining := fun hstop => absurd hc.1 hstop
      returned := fun hstop => by cases hstop }
  · rw [watchedStep_of h s (.start created) (if_neg hc) (if_neg hc)]
    exact hI

theorem enqueue (hI : WorkqueueInv (h, s)) (task : α) :
    WorkqueueInv (watchedStep (h, s) (.enqueue task)) := by
  by_cases hfree : s.mutex = none
  · rw [watchedStep_of h s (.enqueue task) (if_pos hfree) (if_pos hfree)]
    exact { hI with
      fifo := by
        show h.enqueued ++ [task] = h.finished ++ s.worker.held ++ (s.queue ++ [task])
        rw [show h.enqueued = h.finished ++ s.worker.held ++ s.queue from hI.fifo,
          List.append_assoc _ s.queue]
      looked := fun id hlook => absurd hlook (hI.not_looked hfree id)
      calls := fun id => by
        show h.calls id ≤ (h.enqueued ++ [task]).length
        rw [List.length_append]
        exact (hI.calls id).trans (Nat.le_add_right _ _) }
  · rw [watchedStep_of h s (.enqueue task) (if_neg hfree) (if_neg hfree)]
    exact hI

/-- A flush that moves without looking; it may succeed when the tasks before its call have run. -/
theorem setFlush (hI : WorkqueueInv (h, s)) {id : ℕ} {pc : FlushPc} (hlook : pc ≠ .looked)
    (hdone : pc = .succeeded → h.calls id ≤ h.finished.length) :
    WorkqueueInv (h, s.setFlush id pc) :=
  { hI with
    flushed := by
      intro other hflush
      rw [flushes_setFlush] at hflush
      split_ifs at hflush with hid
      · rw [hid]
        exact hdone hflush
      · exact hI.flushed other hflush
    looked := by
      intro other hflush
      rw [flushes_setFlush] at hflush
      split_ifs at hflush with hid
      · exact absurd hflush hlook
      · exact hI.looked other hflush }

theorem flushCall (hI : WorkqueueInv (h, s)) (id : ℕ) :
    WorkqueueInv (watchedStep (h, s) (.flushCall id)) := by
  have hcall : WorkqueueInv ({ h with calls := Function.update h.calls id h.enqueued.length },
      s.setFlush id .called) := by
    have hset : WorkqueueInv (h, s.setFlush id .called) :=
      hI.setFlush (by decide) (fun hsucc => by cases hsucc)
    exact { hset with
      flushed := by
        intro other hflush
        have hne : other ≠ id := by
          rintro rfl
          rw [flushes_setFlush, if_pos rfl] at hflush
          cases hflush
        show Function.update h.calls id h.enqueued.length other ≤ h.finished.length
        rw [Function.update_of_ne hne]
        exact hset.flushed other hflush
      calls := by
        intro other
        show Function.update h.calls id h.enqueued.length other ≤ h.enqueued.length
        rw [Function.update_apply]
        split_ifs
        · exact le_rfl
        · exact hI.calls other }
  cases hpc : s.flushes id with
  | idle | succeeded | timedOut =>
    rw [watchedStep_of h s (.flushCall id) (by rw [WorkqueueHistory.note, hpc])
      (by rw [Workqueue.step, Workqueue.flushCall, hpc])]
    exact hcall
  | called | looked | waiting =>
    rw [watchedStep_of h s (.flushCall id) (by rw [WorkqueueHistory.note, hpc])
      (by rw [Workqueue.step, Workqueue.flushCall, hpc])]
    exact hI

theorem flushLook (hI : WorkqueueInv (h, s)) (id : ℕ) :
    WorkqueueInv (watchedStep (h, s) (.flushLook id)) := by
  show WorkqueueInv (h, s.flushLook id)
  rw [Workqueue.flushLook]
  split_ifs with hcall hempty
  · exact { hI with
      flushed := by
        intro other hflush
        replace hflush : (s.setFlush id .looked).flushes other = .succeeded := hflush
        rw [flushes_setFlush] at hflush
        split_ifs at hflush
        exact hI.flushed other hflush
      looked := by
        intro other hflush
        replace hflush : (s.setFlush id .looked).flushes other = .looked := hflush
        rw [flushes_setFlush] at hflush
        split_ifs at hflush with hid
        · rw [hid]
          exact ⟨rfl, hempty⟩
        · exact absurd hflush (hI.not_looked hcall.2 other) }
  · exact hI.setFlush (by decide) (fun hsucc => by cases hsucc)
  · exact hI

/-- While a flush holds the mutex of the empty queue, the only task not finished is the worker's. -/
theorem calls_le_of_looked (hI : WorkqueueInv (h, s)) {id : ℕ} (hlook : s.flushes id = .looked)
    (hzero : s.inFlight = 0)
    (hpopped : ∀ task, s.worker = .popped task → h.calls id < h.enqueued.length) :
    h.calls id ≤ h.finished.length := by
  have hempty : s.queue = [] := (hI.looked id hlook).2
  have hcalls : h.calls id ≤ h.enqueued.length := hI.calls id
  have hcount : s.worker.counted = 0 := by
    rw [← show s.inFlight = s.worker.counted from hI.counter]
    exact hzero
  have hfifo : h.enqueued = h.finished ++ s.worker.held ++ s.queue := hI.fifo
  rw [hempty, List.append_nil] at hfifo
  have hlength : h.enqueued.length = h.finished.length + s.worker.held.length := by
    rw [hfifo, List.length_append]
  cases hw : s.worker with
  | popped task =>
    have hlt := hpopped task hw
    rw [hw] at hlength
    have hone : h.enqueued.length = h.finished.length + 1 := hlength
    omega
  | running task | returned =>
    rw [hw] at hcount
    cases hcount
  | absent | atWait | exited =>
    rw [hw] at hlength
    have hnone : h.enqueued.length = h.finished.length := hlength
    omega

/-- The flush that has looked moves on and gives the mutex back. -/
theorem leave (hI : WorkqueueInv (h, s)) {id : ℕ} {pc : FlushPc} (hlook : s.flushes id = .looked)
    (hpc : pc ≠ .looked) (hdone : pc = .succeeded → h.calls id ≤ h.finished.length) :
    WorkqueueInv (h, { s.setFlush id pc with mutex := none }) := by
  have hset : WorkqueueInv (h, s.setFlush id pc) := hI.setFlush hpc hdone
  exact { hset with
    looked := by
      intro other hflush
      replace hflush : (s.setFlush id pc).flushes other = .looked := hflush
      rw [flushes_setFlush] at hflush
      split_ifs at hflush with hid
      · exact absurd hflush hpc
      · have hmine : s.mutex = some id := (hI.looked id hlook).1
        have hother : s.mutex = some other := (hI.looked other hflush).1
        rw [hmine, Option.some.injEq] at hother
        exact absurd hother.symm hid }

theorem flushLoad (hI : WorkqueueInv (h, s)) (id : ℕ)
    (hG : WorkqueueGuard (h, s) (.flushLoad id)) :
    WorkqueueInv (watchedStep (h, s) (.flushLoad id)) := by
  show WorkqueueInv (h, s.flushLoad id)
  rw [Workqueue.flushLoad]
  split_ifs with hlook hzero
  · have hdone := hI.calls_le_of_looked hlook hzero (hG hlook hzero)
    exact hI.leave hlook (by decide) (fun _ => hdone)
  · exact hI.leave hlook (by decide) (fun hsucc => by cases hsucc)
  · exact hI

theorem flushTimeout (hI : WorkqueueInv (h, s)) (id : ℕ) :
    WorkqueueInv (watchedStep (h, s) (.flushTimeout id)) := by
  show WorkqueueInv (h, s.flushTimeout id)
  rw [Workqueue.flushTimeout]
  split_ifs
  · exact hI.setFlush (by decide) (fun hsucc => by cases hsucc)
  · exact hI

theorem stopCall (hI : WorkqueueInv (h, s)) : WorkqueueInv (watchedStep (h, s) .stopCall) := by
  by_cases hidle : s.stopping = .idle ∧ s.mutex = none
  · obtain ⟨hidle, hfree⟩ := hidle
    cases hstart : s.started with
    | false =>
      rw [watchedStep_of h s .stopCall (if_pos ⟨hidle, hfree, hstart⟩)
        (if_neg fun hc => by rw [hstart] at hc; cases hc.2.2)]
      have hworker : s.worker = .absent := hI.unstarted hidle hstart
      exact { hI with
        stopped := fun _ => by
          show s.worker.held = []
          rw [hworker]
          rfl
        returned := fun _ => ⟨hidle, hstart⟩ }
    | true =>
      rw [watchedStep_of h s .stopCall (if_neg fun hc => by rw [hstart] at hc; cases hc.2.2)
        (if_pos ⟨hidle, hfree, hstart⟩)]
      exact { hI with
        unstarted := fun hjoin => by cases hjoin
        clearing := fun hjoin => by cases hjoin
        draining := fun _ => rfl
        returned := fun hstop => by
          have hoff : s.started = false := (hI.returned hstop).2
          rw [hstart] at hoff
          cases hoff }
  · rw [watchedStep_of h s .stopCall (if_neg fun hc => hidle ⟨hc.1, hc.2.1⟩)
      (if_neg fun hc => hidle ⟨hc.1, hc.2.1⟩)]
    exact hI

theorem stopJoin (hI : WorkqueueInv (h, s)) : WorkqueueInv (watchedStep (h, s) .stopJoin) := by
  have hjoin (hstop : s.stopping = .joining) (hheld : s.worker.held = [])
      (hcount : s.worker.counted = 0) :
      WorkqueueInv (h, { s with worker := .absent, stopping := .clearing }) :=
    { hI with
      fifo := by
        have hfifo : h.enqueued = h.finished ++ s.worker.held ++ s.queue := hI.fifo
        rw [hheld] at hfifo
        exact hfifo
      stopped := fun _ => rfl
      counter := by
        show s.inFlight = 0
        rw [← hcount]
        exact hI.counter
      unstarted := fun hidle => by cases hidle
      clearing := fun _ => rfl
      draining := fun _ => hI.draining (by rw [hstop]; decide)
      returned := fun hreturn => by
        have hidle : s.stopping = .idle := (hI.returned hreturn).1
        rw [hstop] at hidle
        cases hidle }
  show WorkqueueInv (h, s.stopJoin)
  rw [Workqueue.stopJoin]
  split
  · next hstop hworker => exact hjoin hstop (by rw [hworker]; rfl) (by rw [hworker]; rfl)
  · next hstop hworker => exact hjoin hstop (by rw [hworker]; rfl) (by rw [hworker]; rfl)
  · exact hI

theorem stopClear (hI : WorkqueueInv (h, s)) (hG : WorkqueueGuard (h, s) .stopClear) :
    WorkqueueInv (watchedStep (h, s) .stopClear) := by
  by_cases hc : s.stopping = .clearing ∧ s.mutex = none
  · rw [watchedStep_of h s .stopClear (if_pos hc) (if_pos hc)]
    have hworker : s.worker = .absent := hI.clearing hc.1
    have hempty : s.queue = [] := hG hc.1 hc.2
    have hstart : s.started = false := hI.draining (by rw [hc.1]; decide)
    exact { hI with
      fifo := by
        have hfifo : h.enqueued = h.finished ++ s.worker.held ++ s.queue := hI.fifo
        rw [hempty] at hfifo
        exact hfifo
      stopped := fun _ => by
        show s.worker.held = []
        rw [hworker]
        rfl
      looked := fun id hlook => absurd hlook (hI.not_looked hc.2 id)
      unstarted := fun _ _ => hworker
      clearing := fun hclear => by cases hclear
      draining := fun hbusy => absurd rfl hbusy
      returned := fun _ => ⟨rfl, hstart⟩ }
  · rw [watchedStep_of h s .stopClear (if_neg hc) (if_neg hc)]
    exact hI

/-- What the worker may do to the tables, while it is there. -/
theorem move (hI : WorkqueueInv (h, s)) (hw : s.worker ≠ .absent) {finished queue : List α}
    {inFlight : ℤ} {w : WorkerPc α} (hfifo : h.enqueued = finished ++ w.held ++ queue)
    (hcount : inFlight = w.counted) (hlength : h.finished.length ≤ finished.length)
    (hqueue : s.queue = [] → queue = []) :
    WorkqueueInv ({ h with finished := finished },
      { s with queue := queue, inFlight := inFlight, worker := w }) := by
  have hstarted : s.stopping = .idle → s.started ≠ false :=
    fun hidle hoff => hw (hI.unstarted hidle hoff)
  exact { hI with
    fifo := hfifo
    flushed := fun id hflush => (hI.flushed id hflush).trans hlength
    stopped := fun hstop => absurd (hI.returned hstop).2 (hstarted (hI.returned hstop).1)
    counter := hcount
    looked := fun id hlook => ⟨(hI.looked id hlook).1, hqueue (hI.looked id hlook).2⟩
    unstarted := fun hidle hoff => absurd hoff (hstarted hidle)
    clearing := fun hclear => absurd (hI.clearing hclear) hw }

theorem take (hI : WorkqueueInv (h, s)) (hw : s.worker = .atWait) :
    WorkqueueInv (h, s.take) := by
  have hpresent : s.worker ≠ .absent := by
    rw [hw]
    exact nofun
  have hfifo : h.enqueued = h.finished ++ s.worker.held ++ s.queue := hI.fifo
  have hzero : s.inFlight = 0 := by
    rw [show s.inFlight = s.worker.counted from hI.counter, hw]
    rfl
  rw [hw] at hfifo
  by_cases hfree : s.mutex = none
  · rw [Workqueue.take, if_pos hfree]
    cases hqueue : s.queue with
    | cons task rest =>
      refine hI.move hpresent ?_ hzero le_rfl fun hempty => ?_
      · rw [hqueue] at hfifo
        rw [hfifo, WorkerPc.held, WorkerPc.held, List.append_nil, List.append_assoc,
          List.singleton_append]
      · rw [hqueue] at hempty
        cases hempty
    | nil =>
      rw [hqueue] at hfifo
      show WorkqueueInv (h, if s.started then s else { s with queue := [], worker := .exited })
      split_ifs
      · exact hI
      · exact hI.move hpresent hfifo hzero le_rfl fun _ => rfl
  · rw [Workqueue.take, if_neg hfree]
    exact hI

theorem worker (hI : WorkqueueInv (h, s)) : WorkqueueInv (watchedStep (h, s) .worker) := by
  have hfifo : h.enqueued = h.finished ++ s.worker.held ++ s.queue := hI.fifo
  have hcount : s.inFlight = s.worker.counted := hI.counter
  cases hw : s.worker with
  | absent | exited =>
    rw [watchedStep_of h s .worker (by rw [WorkqueueHistory.note, hw])
      (by rw [Workqueue.step, Workqueue.workerLoop, hw])]
    exact hI
  | atWait =>
    rw [watchedStep_of h s .worker (by rw [WorkqueueHistory.note, hw])
      (by rw [Workqueue.step, Workqueue.workerLoop, hw])]
    exact hI.take hw
  | popped task =>
    rw [watchedStep_of h s .worker (by rw [WorkqueueHistory.note, hw])
      (by rw [Workqueue.step, Workqueue.workerLoop, hw])]
    rw [hw] at hfifo hcount
    exact hI.move (by rw [hw]; exact nofun) hfifo (by rw [hcount]; rfl) le_rfl id
  | running task =>
    rw [watchedStep_of h s .worker (by rw [WorkqueueHistory.note, hw])
      (by rw [Workqueue.step, Workqueue.workerLoop, hw])]
    rw [hw] at hfifo hcount
    refine hI.move (by rw [hw]; exact nofun) ?_ hcount ?_ id
    · rw [hfifo, WorkerPc.held, WorkerPc.held, List.append_nil]
    · rw [List.length_append]
      exact Nat.le_add_right _ _
  | returned =>
    rw [watchedStep_of h s .worker (by rw [WorkqueueHistory.note, hw])
      (by rw [Workqueue.step, Workqueue.workerLoop, hw])]
    rw [hw] at hfifo hcount
    exact hI.move (by rw [hw]; exact nofun) hfifo (by rw [hcount]; rfl) le_rfl id

end WorkqueueInv

theorem WorkqueueInv.step {x : WatchedQueue α} (hI : WorkqueueInv x) (a : WorkqueueAction α)
    (hG : WorkqueueGuard x a) : WorkqueueInv (watchedStep x a) := by
  cases a with
  | start created => exact WorkqueueInv.start hI created
  | enqueue task => exact WorkqueueInv.enqueue hI task
  | flushCall id => exact WorkqueueInv.flushCall hI id
  | flushLook id => exact WorkqueueInv.flushLook hI id
  | flushLoad id => exact WorkqueueInv.flushLoad hI id hG
  | flushTimeout id => exact WorkqueueInv.flushTimeout hI id
  | stopCall => exact WorkqueueInv.stopCall hI
  | stopJoin => exact WorkqueueInv.stopJoin hI
  | stopClear => exact WorkqueueInv.stopClear hI hG
  | worker => exact WorkqueueInv.worker hI

/-! ### Which interleavings keep the promises -/

/-- A step after which the promises hold was no other than the guard allows. -/
theorem WorkqueueInv.guard {x : WatchedQueue α} (hI : WorkqueueInv x) (a : WorkqueueAction α)
    (hsound : WorkqueueSound (watchedStep x a)) : WorkqueueGuard x a := by
  cases a with
  | flushLoad id =>
    intro hlook hzero task hw
    have hstep : watchedStep x (.flushLoad id) =
        (x.1, { x.2.setFlush id .succeeded with mutex := none }) :=
      watchedStep_of x.1 x.2 (.flushLoad id) rfl (by
        rw [Workqueue.step, Workqueue.flushLoad, if_pos hlook, if_pos hzero])
    rw [hstep] at hsound
    have hdone : x.1.calls id ≤ x.1.finished.length :=
      hsound.flushed id (by
        show (x.2.setFlush id .succeeded).flushes id = .succeeded
        rw [flushes_setFlush, if_pos rfl])
    have hfifo := hI.fifo
    rw [hw, (hI.looked id hlook).2, List.append_nil] at hfifo
    rw [hfifo, List.length_append]
    exact Nat.lt_succ_of_le hdone
  | stopClear =>
    intro hclear hfree
    have hstep : watchedStep x .stopClear =
        ({ x.1 with stopped := true }, { x.2 with queue := [], stopping := .idle }) :=
      watchedStep_of x.1 x.2 .stopClear (if_pos ⟨hclear, hfree⟩) (if_pos ⟨hclear, hfree⟩)
    rw [hstep] at hsound
    have hafter : x.1.enqueued = x.1.finished ++ x.2.worker.held ++ [] := hsound.fifo
    rw [hI.fifo] at hafter
    exact List.append_cancel_left hafter
  | start _ | enqueue _ | flushCall _ | flushLook _ | flushTimeout _ | stopCall | stopJoin
  | worker => trivial

/-- **The work queue keeps its promises exactly along the guarded interleavings**: a flush must
not read the counter as zero between the worker's pop and its count. -/
theorem workqueue_sound_iff (as : List (WorkqueueAction α)) :
    Always watchedStep WorkqueueSound (watchedCreate : WatchedQueue α) as ↔
      Guarded watchedStep WorkqueueGuard watchedCreate as :=
  always_iff_guarded (fun _ a hI hG => hI.step a hG) (fun _ hI => hI.toWorkqueueSound)
    (fun _ a hI hsound => hI.guard a hsound) as workqueueInv_create

/-- The flush looks and loads after the worker has popped the task and before it counts it. -/
def flushInWindow : List (WorkqueueAction ℕ) :=
  [.start true, .enqueue 7, .flushCall 0, .worker, .flushLook 0, .flushLoad 0]

/-- The flush returns success while the one task enqueued before it has not run. -/
theorem workqueue_sound_fails :
    ¬ ∀ as : List (WorkqueueAction ℕ), Always watchedStep WorkqueueSound watchedCreate as := by
  intro h
  have hdone := (h flushInWindow).last.flushed 0
  revert hdone
  decide

end UsrLinuxEmu.Kernel
