import Mathlib.Data.Multiset.Filter
import UsrLinuxEmu.Kernel.WorkqueueService

/-!
# Interrupts (`sim/hardware/interrupt.cpp`)

A raise loads the handler of its vector, has the work queue started if it is the first to get that
far, and enqueues a call of the handler; other threads register handlers, raise and flush in
between, and handlers may raise interrupts themselves.

* `InterruptModel` — the handlers, the raises under way and the work queue;
* `InterruptModel.step` — one access to the handlers, or one step of the work queue;
* `interrupts_delivered` — every raise that found a handler is one call of it, in the order of its
  thread; a handler that is replaced is called for earlier raises only;
* `interrupts_served` — the calls are made.
-/

namespace UsrLinuxEmu.GpuDriver

open UsrLinuxEmu.Kernel UsrLinuxEmu.Transition

def kNumVectors : UInt8 := 4

/-- The call of a handler, with the thread that raised the interrupt. -/
structure InterruptTask (τ η : Type*) where
  thread : τ
  vector : UInt8
  handler : η
  userData : UInt64
  deriving DecidableEq

/-- `raising` holds the raises that have loaded their handler and not enqueued its call;
`accepted` all that ever did, in the order of the loads. -/
structure InterruptModel (τ η : Type*) where
  handlers : UInt8 → Option η
  wqStartFlag : Bool
  raising : τ → Option (InterruptTask τ η)
  wq : WatchedQueue (InterruptTask τ η)
  accepted : List (InterruptTask τ η)

inductive FlushPart where
  | call
  | look
  | load
  | timeout
  deriving DecidableEq

/-- `created` says whether the thread of the work queue can be created. -/
inductive InterruptAction (τ η : Type*) where
  | interruptRegister (vector : UInt8) (handler : Option η)
  | interruptRaiseEx (thread : τ) (vector : UInt8) (userData : UInt64)
  | ensureWorkqueueStarted (thread : τ) (created : Bool)
  | enqueue (thread : τ)
  | interruptFlushAll (id : ℕ) (part : FlushPart)
  | worker

variable {τ η : Type*} [DecidableEq τ]

namespace InterruptModel

def init : InterruptModel τ η := ⟨fun _ => none, false, fun _ => none, watchedCreate, []⟩

def interruptRegister (s : InterruptModel τ η) (vector : UInt8) (handler : Option η) :
    ℤ × InterruptModel τ η :=
  if kNumVectors ≤ vector then (-22, s)
  else (0, { s with handlers := Function.update s.handlers vector handler })

def accept (s : InterruptModel τ η) (task : InterruptTask τ η) : InterruptModel τ η :=
  { s with
    raising := Function.update s.raising task.thread (some task)
    accepted := s.accepted ++ [task] }

def submit (s : InterruptModel τ η) (thread : τ) (task : InterruptTask τ η) :
    InterruptModel τ η :=
  { s with
    wq := watchedStep s.wq (.enqueue task)
    raising := Function.update s.raising thread none }

@[simp] theorem raising_accept (s : InterruptModel τ η) (task : InterruptTask τ η) :
    (s.accept task).raising = Function.update s.raising task.thread (some task) := rfl

@[simp] theorem raising_submit (s : InterruptModel τ η) (thread : τ) (task : InterruptTask τ η) :
    (s.submit thread task).raising = Function.update s.raising thread none := rfl

/-- Up to the load of the handler; a thread is in one raise at a time. -/
def interruptRaiseEx (s : InterruptModel τ η) (thread : τ) (vector : UInt8) (userData : UInt64) :
    InterruptModel τ η :=
  if kNumVectors ≤ vector then s
  else
    match s.raising thread, s.handlers vector with
    | none, some handler => s.accept ⟨thread, vector, handler, userData⟩
    | _, _ => s

/-- `std::call_once`. -/
def ensureWorkqueueStarted (s : InterruptModel τ η) (thread : τ) (created : Bool) :
    InterruptModel τ η :=
  if (s.raising thread).isSome ∧ s.wqStartFlag = false then
    { s with wqStartFlag := true, wq := watchedStep s.wq (.start created) }
  else s

def enqueue (s : InterruptModel τ η) (thread : τ) : InterruptModel τ η :=
  match s.raising thread with
  | some task =>
    if s.wqStartFlag = true ∧ s.wq.2.mutex = none then s.submit thread task else s
  | none => s

def flushAction (id : ℕ) : FlushPart → WorkqueueAction (InterruptTask τ η)
  | .call => .flushCall id
  | .look => .flushLook id
  | .load => .flushLoad id
  | .timeout => .flushTimeout id

def step (s : InterruptModel τ η) : InterruptAction τ η → InterruptModel τ η
  | .interruptRegister vector handler => (s.interruptRegister vector handler).2
  | .interruptRaiseEx thread vector userData => s.interruptRaiseEx thread vector userData
  | .ensureWorkqueueStarted thread created => s.ensureWorkqueueStarted thread created
  | .enqueue thread => s.enqueue thread
  | .interruptFlushAll id part => { s with wq := watchedStep s.wq (flushAction id part) }
  | .worker => { s with wq := watchedStep s.wq .worker }

/-- The calls that have been made, oldest first. -/
def called (s : InterruptModel τ η) : List (InterruptTask τ η) := s.wq.1.finished

/-- The calls that have been enqueued: made, being made, and to be made. -/
def calls (s : InterruptModel τ η) : List (InterruptTask τ η) :=
  s.wq.1.finished ++ s.wq.2.worker.held ++ s.wq.2.queue

/-! ### The invariant -/

/-- What a thread has enqueued, and then what it is about to, is what it has raised. -/
structure Inv (s : InterruptModel τ η) : Prop where
  order : InOrder s.wq
  notStopping : s.wq.2.stopping = .idle
  unstarted : s.wqStartFlag = false → s.wq.2.worker = .absent ∧ s.wq.2.started = false
  served : s.wq.2.worker ≠ .absent → Serving s.wq
  own : ∀ t task, s.raising t = some task → task.thread = t
  byThread : ∀ t, s.wq.1.enqueued.filter (fun task => task.thread = t) ++ (s.raising t).toList =
    s.accepted.filter fun task => task.thread = t

theorem inv_init : (init : InterruptModel τ η).Inv where
  order := rfl
  notStopping := rfl
  unstarted _ := ⟨rfl, rfl⟩
  served h := absurd rfl h
  own _ _ h := nomatch h
  byThread _ := rfl

/-- A step of the work queue that enqueues nothing. -/
theorem Inv.others {s : InterruptModel τ η} (h : s.Inv) {wq : WatchedQueue (InterruptTask τ η)}
    (hwq : OthersStep s.wq wq []) : { s with wq := wq }.Inv where
  order := hwq.inOrder h.order
  notStopping := hwq.stopping.trans h.notStopping
  unstarted hflag :=
    ⟨hwq.worker.trans (h.unstarted hflag).1, hwq.started.trans (h.unstarted hflag).2⟩
  served hw := hwq.serving (h.served fun habs => hw (hwq.worker.trans habs))
  own := h.own
  byThread t := by
    show wq.1.enqueued.filter _ ++ _ = _
    rw [hwq.enqueued, List.append_nil]
    exact h.byThread t

omit [DecidableEq τ] in
theorem others_flush {wq : WatchedQueue (InterruptTask τ η)} (h : wq.2.stopping = .idle) (id : ℕ)
    (part : FlushPart) : OthersStep wq (watchedStep wq (flushAction id part)) [] := by
  cases part with
  | call => exact others_step h nofun nofun nofun
  | look => exact others_step h nofun nofun nofun
  | load => exact others_step h nofun nofun nofun
  | timeout => exact others_step h nofun nofun nofun

theorem Inv.accept {s : InterruptModel τ η} (h : s.Inv) {task : InterruptTask τ η}
    (hnone : s.raising task.thread = none) : (s.accept task).Inv where
  order := h.order
  notStopping := h.notStopping
  unstarted := h.unstarted
  served := h.served
  own t task' ht := by
    rw [raising_accept] at ht
    by_cases heq : t = task.thread
    · rw [heq, Function.update_self, Option.some.injEq] at ht
      rw [heq, ← ht]
    · rw [Function.update_of_ne heq] at ht
      exact h.own t task' ht
  byThread t := by
    show s.wq.1.enqueued.filter _ ++ ((s.accept task).raising t).toList =
      (s.accepted ++ [task]).filter _
    rw [List.filter_append, ← h.byThread t, raising_accept]
    by_cases heq : t = task.thread
    · rw [heq, Function.update_self, hnone]
      simp
    · rw [Function.update_of_ne heq]
      simp [Ne.symm heq]

theorem Inv.raise {s : InterruptModel τ η} (h : s.Inv) (thread : τ) (vector : UInt8)
    (userData : UInt64) : (s.interruptRaiseEx thread vector userData).Inv := by
  unfold interruptRaiseEx
  split_ifs
  · exact h
  · split
    · next hnone _ => exact h.accept hnone
    · exact h

theorem Inv.ensureStarted {s : InterruptModel τ η} (h : s.Inv) (thread : τ) (created : Bool) :
    (s.ensureWorkqueueStarted thread created).Inv := by
  unfold ensureWorkqueueStarted
  split_ifs with hfirst
  · obtain ⟨habsent, hoff⟩ := h.unstarted hfirst.2
    have hstart : watchedStep s.wq (.start created) =
        ({ s.wq.1 with stopped := false },
          { s.wq.2 with started := true, worker := if created then .atWait else .absent }) :=
      watchedStep_of s.wq.1 s.wq.2 (.start created) (if_pos ⟨h.notStopping, hoff⟩)
        (if_pos ⟨h.notStopping, hoff⟩)
    have hheld : (if created then .atWait else .absent :
        WorkerPc (InterruptTask τ η)).held = [] := by
      cases created <;> rfl
    rw [hstart]
    refine ⟨?_, h.notStopping, nofun, fun hw => ⟨rfl, h.notStopping, hw, ?_⟩, h.own, h.byThread⟩
    · have horder := h.order
      unfold InOrder at horder ⊢
      rw [habsent] at horder
      show s.wq.1.enqueued = s.wq.1.finished ++ _ ++ s.wq.2.queue
      rw [hheld]
      exact horder
    · cases created <;> exact nofun
  · exact h

theorem Inv.submit {s : InterruptModel τ η} (h : s.Inv) {thread : τ} {task : InterruptTask τ η}
    (hraise : s.raising thread = some task) (hflag : s.wqStartFlag = true)
    (hfree : s.wq.2.mutex = none) : (s.submit thread task).Inv := by
  have hwq : OthersStep s.wq (watchedStep s.wq (.enqueue task)) [task] := by
    have hadd : added s.wq (.enqueue task) = [task] := if_pos hfree
    rw [← hadd]
    exact others_step h.notStopping nofun nofun nofun
  have hthread := h.own thread task hraise
  refine ⟨hwq.inOrder h.order, hwq.stopping.trans h.notStopping, fun hoff => ?_,
    fun hw => hwq.serving (h.served fun habs => hw (hwq.worker.trans habs)),
    fun t task' ht => ?_, fun t => ?_⟩
  · exact absurd (hflag.symm.trans hoff) (by decide)
  · rw [raising_submit] at ht
    by_cases heq : t = thread
    · rw [heq, Function.update_self] at ht
      nomatch ht
    · rw [Function.update_of_ne heq] at ht
      exact h.own t task' ht
  · show (watchedStep s.wq (.enqueue task)).1.enqueued.filter _ ++
      ((s.submit thread task).raising t).toList = s.accepted.filter _
    rw [hwq.enqueued, List.filter_append, ← h.byThread t, raising_submit]
    by_cases heq : t = thread
    · rw [heq, Function.update_self, hraise]
      simp [hthread]
    · rw [Function.update_of_ne heq]
      simp [hthread, Ne.symm heq]

theorem Inv.enqueue {s : InterruptModel τ η} (h : s.Inv) (thread : τ) :
    (s.enqueue thread).Inv := by
  cases hraise : s.raising thread with
  | none =>
    simp only [InterruptModel.enqueue, hraise]
    exact h
  | some task =>
    simp only [InterruptModel.enqueue, hraise]
    split_ifs with hfree
    · exact h.submit hraise hfree.1 hfree.2
    · exact h

theorem Inv.worker {s : InterruptModel τ η} (h : s.Inv) : (s.step .worker).Inv := by
  by_cases hw : s.wq.2.worker = .absent
  · have hsame : watchedStep s.wq .worker = s.wq :=
      watchedStep_of s.wq.1 s.wq.2 .worker (by rw [WorkqueueHistory.note, hw])
        (by rw [Workqueue.step, Workqueue.workerLoop, hw])
    show { s with wq := watchedStep s.wq .worker }.Inv
    rw [hsame]
    exact h
  · have hserving := h.served hw
    obtain ⟨-, henqueued, -, -⟩ := workerStep_keeps s.wq hserving
    have hserving' := serving_worker hserving
    refine ⟨inOrder_worker h.order, hserving'.notStopping, fun hflag => ?_, fun _ => hserving',
      h.own, fun t => ?_⟩
    · exact absurd (h.unstarted hflag).1 hw
    · show (watchedStep s.wq .worker).1.enqueued.filter _ ++ _ = _
      rw [henqueued]
      exact h.byThread t

theorem Inv.step {s : InterruptModel τ η} (h : s.Inv) (a : InterruptAction τ η) :
    (s.step a).Inv := by
  cases a with
  | interruptRegister vector handler =>
    show (s.interruptRegister vector handler).2.Inv
    unfold interruptRegister
    split_ifs
    · exact h
    · exact ⟨h.order, h.notStopping, h.unstarted, h.served, h.own, h.byThread⟩
  | interruptRaiseEx thread vector userData => exact h.raise thread vector userData
  | ensureWorkqueueStarted thread created => exact h.ensureStarted thread created
  | enqueue thread => exact h.enqueue thread
  | interruptFlushAll id part => exact h.others (others_flush h.notStopping id part)
  | worker => exact h.worker

theorem inv_run {s : InterruptModel τ η} (h : s.Inv) (as : List (InterruptAction τ η)) :
    (run InterruptModel.step s as).Inv :=
  run_of_invariant (I := Inv) (fun _ a hs => hs.step a) as h

/-! ### Handlers that are replaced -/

section Replaced

variable [DecidableEq η]

/-- The calls of a handler for a vector. -/
def ofHandler (vector : UInt8) (handler : η) (task : InterruptTask τ η) : Bool :=
  task.vector = vector ∧ task.handler = handler

theorem accepted_step {s : InterruptModel τ η} {vector : UInt8} {handler : η}
    (h : s.handlers vector ≠ some handler) {a : InterruptAction τ η}
    (ha : a ≠ .interruptRegister vector (some handler)) :
    (s.step a).handlers vector ≠ some handler ∧
      (s.step a).accepted.filter (ofHandler vector handler) =
        s.accepted.filter (ofHandler vector handler) := by
  cases a with
  | interruptRegister vector' handler' =>
    show (s.interruptRegister vector' handler').2.handlers vector ≠ some handler ∧
      (s.interruptRegister vector' handler').2.accepted.filter _ = _
    unfold interruptRegister
    split_ifs
    · exact ⟨h, rfl⟩
    · refine ⟨?_, rfl⟩
      show Function.update s.handlers vector' handler' vector ≠ some handler
      by_cases heq : vector = vector'
      · rw [heq, Function.update_self]
        rw [heq] at ha
        exact fun hsome => ha (by rw [hsome])
      · rw [Function.update_of_ne heq]
        exact h
  | interruptRaiseEx thread vector' userData =>
    show (s.interruptRaiseEx thread vector' userData).handlers vector ≠ some handler ∧
      (s.interruptRaiseEx thread vector' userData).accepted.filter _ = _
    unfold interruptRaiseEx
    split_ifs
    · exact ⟨h, rfl⟩
    · split
      · next loaded _ hloaded =>
        refine ⟨h, ?_⟩
        show (s.accepted ++ [_]).filter _ = _
        have hother : ofHandler vector handler
            (⟨thread, vector', loaded, userData⟩ : InterruptTask τ η) = false := by
          refine decide_eq_false fun hboth => h ?_
          rw [← hboth.1, ← hboth.2]
          exact hloaded
        rw [List.filter_append, List.filter_cons_of_neg (by simp [hother]), List.filter_nil,
          List.append_nil]
      · exact ⟨h, rfl⟩
  | ensureWorkqueueStarted thread created =>
    simp only [step, ensureWorkqueueStarted]
    split_ifs
    · exact ⟨h, rfl⟩
    · exact ⟨h, rfl⟩
  | enqueue thread =>
    cases hraise : s.raising thread with
    | none =>
      simp only [step, InterruptModel.enqueue, hraise]
      exact ⟨h, trivial⟩
    | some task =>
      simp only [step, InterruptModel.enqueue, hraise]
      split_ifs
      · exact ⟨h, rfl⟩
      · exact ⟨h, rfl⟩
  | interruptFlushAll id part => exact ⟨h, rfl⟩
  | worker => exact ⟨h, rfl⟩

theorem accepted_run {s : InterruptModel τ η} {vector : UInt8} {handler : η}
    (h : s.handlers vector ≠ some handler) {bs : List (InterruptAction τ η)}
    (hbs : .interruptRegister vector (some handler) ∉ bs) :
    (run step s bs).accepted.filter (ofHandler vector handler) =
      s.accepted.filter (ofHandler vector handler) := by
  induction bs generalizing s with
  | nil => rfl
  | cons b bs ih =>
    rw [List.mem_cons, not_or] at hbs
    obtain ⟨hkeep, hsame⟩ := accepted_step h (Ne.symm hbs.1)
    rw [run_cons, ih hkeep hbs.2, hsame]

/-- No call is made that has not been accepted, and none more often. -/
theorem Inv.called_le {s : InterruptModel τ η} (h : s.Inv) :
    (s.called : Multiset (InterruptTask τ η)) ≤ s.accepted := by
  have henqueued : (s.wq.1.enqueued : Multiset (InterruptTask τ η)) ≤ s.accepted := by
    rw [Multiset.le_iff_count]
    intro task
    rw [Multiset.coe_count, Multiset.coe_count]
    have hmine : decide (task.thread = task.thread) = true := decide_eq_true rfl
    rw [← List.count_filter (p := fun task' => decide (task'.thread = task.thread)) hmine,
      ← List.count_filter (l := s.accepted)
        (p := fun task' => decide (task'.thread = task.thread)) hmine,
      ← h.byThread task.thread, List.count_append]
    exact Nat.le_add_right _ _
  refine le_trans ?_ henqueued
  rw [show s.wq.1.enqueued = s.called ++ s.wq.2.worker.held ++ s.wq.2.queue from h.order,
    List.append_assoc, ← Multiset.coe_add]
  exact Multiset.le_add_right _ _

end Replaced

/-! ### Service -/

/-- The worker steps while nobody holds the mutex. -/
def serves (s : InterruptModel τ η) : InterruptAction τ η → Bool
  | .worker => s.wq.2.mutex = none
  | _ => false

/-- What the steps keep on a queue that is served. -/
structure Served (n : ℕ) (s : InterruptModel τ η) : Prop extends Inv s where
  present : s.wq.2.worker ≠ .absent
  flag : s.wqStartFlag = true
  enough : n ≤ s.wq.1.enqueued.length

theorem Inv.flag_of_present {s : InterruptModel τ η} (h : s.Inv)
    (hw : s.wq.2.worker ≠ .absent) : s.wqStartFlag = true := by
  cases hflag : s.wqStartFlag with
  | true => rfl
  | false => exact absurd (h.unstarted hflag).1 hw

/-- What a step does to the queue, once it is served. -/
theorem wq_step {s : InterruptModel τ η} (h : s.Inv) (hflag : s.wqStartFlag = true)
    {a : InterruptAction τ η} (ha : a ≠ .worker) :
    ∃ new, OthersStep s.wq (s.step a).wq new := by
  cases a with
  | interruptRegister vector handler =>
    refine ⟨[], ?_⟩
    show OthersStep s.wq (s.interruptRegister vector handler).2.wq []
    unfold interruptRegister
    split_ifs
    · exact .refl _
    · exact .refl _
  | interruptRaiseEx thread vector userData =>
    refine ⟨[], ?_⟩
    show OthersStep s.wq (s.interruptRaiseEx thread vector userData).wq []
    unfold interruptRaiseEx
    split_ifs
    · exact .refl _
    · split
      · exact .refl _
      · exact .refl _
  | ensureWorkqueueStarted thread created =>
    refine ⟨[], ?_⟩
    simp only [step, ensureWorkqueueStarted, hflag]
    rw [if_neg (by simp)]
    exact .refl _
  | enqueue thread =>
    cases hraise : s.raising thread with
    | none =>
      refine ⟨[], ?_⟩
      simp only [step, InterruptModel.enqueue, hraise]
      exact .refl _
    | some task =>
      simp only [step, InterruptModel.enqueue, hraise]
      split_ifs
      · exact ⟨_, others_step h.notStopping nofun nofun nofun⟩
      · exact ⟨[], .refl _⟩
  | interruptFlushAll id part => exact ⟨[], others_flush h.notStopping id part⟩
  | worker => exact absurd rfl ha

theorem Served.step {n : ℕ} {s : InterruptModel τ η} (h : Served n s) (a : InterruptAction τ η) :
    Served n (s.step a) ∧
      tasksLeft n (s.step a).wq ≤ tasksLeft n s.wq - if s.serves a then 1 else 0 := by
  have hserving := h.served h.present
  by_cases ha : a = .worker
  · subst ha
    have hleft := tasksLeft_worker hserving h.order h.enough
    have hpresent : (s.step .worker).wq.2.worker ≠ .absent := (serving_worker hserving).present
    refine ⟨⟨h.toInv.step .worker, hpresent, h.flag, ?_⟩, ?_⟩
    · show n ≤ (watchedStep s.wq .worker).1.enqueued.length
      rw [(workerStep_keeps s.wq hserving).2.1]
      exact h.enough
    · show tasksLeft n (watchedStep s.wq .worker) ≤ _
      simpa only [serves, decide_eq_true_eq] using hleft
  · obtain ⟨new, hwq⟩ := wq_step h.toInv h.flag ha
    have hpresent : (s.step a).wq.2.worker ≠ .absent := by
      rw [hwq.worker]
      exact h.present
    have hinv := h.toInv.step a
    refine ⟨⟨hinv, hpresent, hinv.flag_of_present hpresent, ?_⟩, ?_⟩
    · rw [hwq.enqueued, List.length_append]
      exact Nat.le_add_right_of_le h.enough
    · rw [tasksLeft_others hwq]
      cases a <;> first | exact Nat.le_refl _ | exact absurd rfl ha

/-- What has been enqueued stays where it is. -/
theorem enqueued_prefix {s : InterruptModel τ η} (h : s.Inv) (hw : s.wq.2.worker ≠ .absent)
    (bs : List (InterruptAction τ η)) :
    s.wq.1.enqueued <+: (run InterruptModel.step s bs).wq.1.enqueued := by
  have hserved : Served 0 s := ⟨h, hw, h.flag_of_present hw, Nat.zero_le _⟩
  induction bs generalizing s with
  | nil => exact List.prefix_refl _
  | cons b bs ih =>
    have hnext := (hserved.step b).1
    refine List.IsPrefix.trans ?_ (ih hnext.toInv hnext.present hnext)
    by_cases hb : b = .worker
    · subst hb
      have hsame : (watchedStep s.wq .worker).1.enqueued = s.wq.1.enqueued :=
        (workerStep_keeps s.wq (h.served hw)).2.1
      exact hsame ▸ List.prefix_refl _
    · obtain ⟨new, hwq⟩ := wq_step h (h.flag_of_present hw) hb
      rw [hwq.enqueued]
      exact List.prefix_append _ _

end InterruptModel

open InterruptModel

/-- **Every raise is one call.**  In any interleaving the calls are made in the order in which they
are enqueued, none is lost or made twice, and each thread's are in the order in which it raised the
interrupts; at most its last is still to be enqueued.  Once a handler is not registered for a
vector any more, it is called only for raises that had loaded it before. -/
theorem interrupts_delivered [DecidableEq η] (as bs : List (InterruptAction τ η)) (vector : UInt8)
    (handler : η) :
    let s := run step init as
    let s' := run step s bs
    s.wq.1.enqueued = s.calls ∧
      (∀ t, s.calls.filter (fun task => task.thread = t) ++ (s.raising t).toList =
        s.accepted.filter fun task => task.thread = t) ∧
      (s.handlers vector ≠ some handler → .interruptRegister vector (some handler) ∉ bs →
        (↑(s'.called.filter (ofHandler vector handler)) : Multiset (InterruptTask τ η)) ≤
          ↑(s.accepted.filter (ofHandler vector handler))) := by
  intro s s'
  have hinv : s.Inv := inv_run inv_init as
  have horder : s.wq.1.enqueued = s.calls := hinv.order
  refine ⟨horder, fun t => ?_, fun hgone hbs => ?_⟩
  · rw [← horder]
    exact hinv.byThread t
  · have hle := Multiset.filter_le_filter (fun task => ofHandler vector handler task = true)
      (inv_run hinv bs).called_le
    rw [Multiset.filter_coe, Multiset.filter_coe] at hle
    simp only [Bool.decide_eq_true] at hle
    rw [accepted_run hgone hbs] at hle
    exact hle

/-- **Every call is made.**  If the thread of the work queue could be created, the calls enqueued so
far have been made, in their order, once the worker has taken four steps for each that was left and
one more while nobody held the mutex; whatever other threads raise, register and flush. -/
theorem interrupts_served (as bs : List (InterruptAction τ η))
    (hworker : (run step init as).wq.2.worker ≠ .absent)
    (hsteps : 4 * ((run step init as).wq.1.enqueued.length - (run step init as).called.length) + 1 ≤
      stepsTaken step serves (run step init as) bs) :
    (run step init as).wq.1.enqueued <+: (run step (run step init as) bs).called := by
  have hinv : (run step init as).Inv := inv_run inv_init as
  generalize run step init as = s at *
  have hserved : Served s.wq.1.enqueued.length s :=
    ⟨hinv, hworker, hinv.flag_of_present hworker, Nat.le_refl _⟩
  have hbound : tasksLeft s.wq.1.enqueued.length s.wq ≤
      4 * (s.wq.1.enqueued.length - s.called.length) + 1 := by
    unfold tasksLeft called
    split_ifs
    · exact Nat.zero_le _
    · cases s.wq.2.worker <;> simp only [WorkerPc.ahead] <;> omega
  have hleft : tasksLeft s.wq.1.enqueued.length (run step s bs).wq = 0 := by
    have hrun := measure_run (I := Served s.wq.1.enqueued.length)
      (m := fun s' => tasksLeft s.wq.1.enqueued.length s'.wq)
      (fun _ a hI _ => (hI.step a).1) (fun _ a hI _ => (hI.step a).2) hserved
      (guarded_trivial step s bs)
    omega
  have hfinal := inv_run hinv bs
  have hprefix := enqueued_prefix hinv hworker bs
  rw [show (run step s bs).wq.1.enqueued =
    (run step s bs).called ++ _ ++ _ from hfinal.order, List.append_assoc] at hprefix
  exact List.prefix_of_prefix_length_le hprefix (List.prefix_append _ _) (tasksLeft_eq_zero hleft)

/-- An interrupt raised while a flush looks at the queue. -/
theorem interrupts_served_one :
    (run step (init : InterruptModel Unit Unit)
      [.interruptRegister 1 (some ()), .interruptRaiseEx () 1 7,
        .ensureWorkqueueStarted () true, .enqueue ()]).wq.1.enqueued <+:
      (run step (run step (init : InterruptModel Unit Unit)
        [.interruptRegister 1 (some ()), .interruptRaiseEx () 1 7,
          .ensureWorkqueueStarted () true, .enqueue ()])
        [.interruptFlushAll 0 .call, .interruptFlushAll 0 .look, .worker, .worker, .worker,
          .worker, .worker]).called :=
  interrupts_served _ _ (by decide) (by decide)

end UsrLinuxEmu.GpuDriver
