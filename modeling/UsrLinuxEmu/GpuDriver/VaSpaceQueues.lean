import Mathlib.Data.List.Nodup
import Mathlib.Logic.Function.Basic
import UsrLinuxEmu.GpuDriver.GpuTypes
import UsrLinuxEmu.Transition.Run

/-!
# VA spaces and the queues attached to them (`drv/gpgpu_device.cpp`)

The device keeps its queues under `queue_mutex_` and its VA spaces, each with the list of the queues
attached to it, under `va_space_mutex_`.  CREATE_QUEUE and DESTROY_QUEUE hold the first mutex while
they take the second one for single lookups; PUSHBUFFER_SUBMIT_BATCH takes the second one twice.
A step below is one critical section of `va_space_mutex_`, or what the holder of `queue_mutex_` does
between two of them.

* `VaSystem.step` — the calls of any number of threads, section by section;
* `Partitioned` — the attached queues of the VA spaces are the live queues that name them;
* `VaStepSound` — a step that adds or removes VA spaces, or destroys one, is entitled to it;
* `va_attachment_iff` — the interleavings in which both hold.
-/

namespace UsrLinuxEmu.GpuDriver

open UsrLinuxEmu.Transition

/-! ### The device -/

def gpuQueueGraphics : UInt32 := 2

/-- `GpgpuDevice::VASpace`, which is stored under its handle. -/
structure VASpace where
  pageSize : UInt32
  flags : UInt32
  attachedQueues : List UInt64

/-- The entry that `operator[]` makes for a key it does not find. -/
def VASpace.empty : VASpace := ⟨0, 0, []⟩

/-- An entry of `queues_`, with the VA space that CREATE_QUEUE was called with. -/
structure DeviceQueue where
  halHandle : UInt64
  vaSpace : UInt64

/-- A call, with the arguments that it reads. -/
inductive VaCall where
  | createVaSpace (pageSize flags : UInt32)
  | destroyVaSpace (handle : UInt64)
  | createQueue (queueType : UInt32) (vaSpace : UInt64)
  | destroyQueue (handle : UInt64)
  | submit (count : UInt32) (vaSpace streamId : UInt64)
  | removeQueue (handle : UInt64)

/-- Where a thread is: its last call has come to an end, with the value returned (`none` for a
submission that goes on with its entries), or a call is between two critical sections. -/
inductive VaPhase where
  | done (ret : Option Int)
  | spaceFound (vaSpace : UInt64)
  | inserted (vaSpace queue : UInt64)
  | queueFound (queue : UInt64)
  | detached (queue : UInt64)
  | spaceChecked (vaSpace streamId : UInt64)

namespace VaPhase

def isDone : VaPhase → Bool
  | .done _ => true
  | _ => false

/-- The thread is inside `queue_mutex_`. -/
def holdsQueueMutex : VaPhase → Bool
  | .spaceFound _ | .inserted .. | .queueFound _ | .detached _ => true
  | _ => false

/-- The queue that the thread is creating or destroying. -/
def queue : VaPhase → Option UInt64
  | .inserted _ q | .queueFound q | .detached q => some q
  | _ => none

end VaPhase

structure VaSystem where
  queues : UInt64 → Option DeviceQueue
  nextQueueHandle : UInt64
  vaSpaces : UInt64 → Option VASpace
  nextVaSpaceHandle : UInt64
  queueMutex : Option ℕ
  threads : ℕ → VaPhase

/-- A thread makes a call, or goes on with the one it is in; `hal` is the handle that
`hal_queue_create` returns, if it succeeds. -/
inductive VaAction where
  | call (t : ℕ) (c : VaCall)
  | resume (t : ℕ) (hal : Option UInt64)

namespace VaSystem

def init : VaSystem where
  queues := fun _ => none
  nextQueueHandle := 1
  vaSpaces := fun _ => none
  nextVaSpaceHandle := 1
  queueMutex := none
  threads := fun _ => .done none

/-- The thread goes on to `p`. -/
def goto (s : VaSystem) (t : ℕ) (p : VaPhase) : VaSystem :=
  { s with threads := Function.update s.threads t p }

def ret (s : VaSystem) (t : ℕ) (r : Int) : VaSystem := s.goto t (.done (some r))

/-- The call returns, and its lock guard on `queue_mutex_` with it. -/
def unlockRet (s : VaSystem) (t : ℕ) (r : Int) : VaSystem :=
  { s.ret t r with queueMutex := none }

def lockGoto (s : VaSystem) (t : ℕ) (p : VaPhase) : VaSystem :=
  { s.goto t p with queueMutex := some t }

/-- `va_spaces_[handle] = space`, or its erasure. -/
def setSpace (s : VaSystem) (handle : UInt64) (space : Option VASpace) : VaSystem :=
  { s with vaSpaces := Function.update s.vaSpaces handle space }

/-- `queues_[handle] = queue`, or its erasure. -/
def setQueue (s : VaSystem) (handle : UInt64) (queue : Option DeviceQueue) : VaSystem :=
  { s with queues := Function.update s.queues handle queue }

/-- The first occurrence of the queue is erased from the list of every VA space. -/
def eraseAttached (s : VaSystem) (queue : UInt64) : VaSystem :=
  { s with
    vaSpaces := fun h => (s.vaSpaces h).map fun space =>
      { space with attachedQueues := space.attachedQueues.erase queue } }

/-! ### The handlers -/

def vaSpaceExists (s : VaSystem) (handle : UInt64) : Bool := (s.vaSpaces handle).isSome

def createVASpace (s : VaSystem) (t : ℕ) (pageSize flags : UInt32) : VaSystem :=
  let handle := s.nextVaSpaceHandle
  let s := { s with nextVaSpaceHandle := handle + 1 }
  if handle = 0 then s.ret t (-eNOMEM)
  else
    let vaSpace : VASpace := ⟨if pageSize = 1 then 65536 else 4096, flags, []⟩
    (s.setSpace handle (some vaSpace)).ret t 0

def handleCreateVASpace (s : VaSystem) (t : ℕ) (pageSize flags : UInt32) : VaSystem :=
  if 1 < pageSize then s.ret t (-eINVAL) else s.createVASpace t pageSize flags

def handleDestroyVASpace (s : VaSystem) (t : ℕ) (handle : UInt64) : VaSystem :=
  match s.vaSpaces handle with
  | none => s.ret t (-eNOENT)
  | some vaSpace =>
    if vaSpace.attachedQueues ≠ [] then s.ret t (-eBUSY)
    else (s.setSpace handle none).ret t 0

def attachQueueToVASpace (s : VaSystem) (vaSpace queue : UInt64) : VaSystem :=
  match s.vaSpaces vaSpace with
  | none => s
  | some space =>
    s.setSpace vaSpace (some { space with attachedQueues := space.attachedQueues ++ [queue] })

/-- `handleCreateQueue` up to the end of `vaSpaceExists`. -/
def handleCreateQueue (s : VaSystem) (t : ℕ) (queueType : UInt32) (vaSpace : UInt64) : VaSystem :=
  if gpuQueueGraphics < queueType then s.ret t (-eINVAL)
  else if s.queueMutex.isSome then s
  else if s.vaSpaceExists vaSpace then s.lockGoto t (.spaceFound vaSpace)
  else s.ret t (-eINVAL)

/-- From there to the entry in `queues_`. -/
def createQueueInsert (s : VaSystem) (t : ℕ) (vaSpace : UInt64) (hal : Option UInt64) : VaSystem :=
  let handle := s.nextQueueHandle
  let s := { s with nextQueueHandle := handle + 1 }
  if handle = 0 then s.unlockRet t (-eNOMEM)
  else
    match hal with
    | none => s.unlockRet t (-eNOMEM)
    | some queueHandle =>
      if queueHandle = 0 then s.unlockRet t (-eNOMEM)
      else (s.setQueue handle (some ⟨queueHandle, vaSpace⟩)).goto t (.inserted vaSpace handle)

/-- The result of `attachQueueToVASpace` is not looked at. -/
def createQueueAttach (s : VaSystem) (t : ℕ) (vaSpace queue : UInt64) : VaSystem :=
  (s.attachQueueToVASpace vaSpace queue).unlockRet t 0

def handleDestroyQueue (s : VaSystem) (t : ℕ) (handle : UInt64) : VaSystem :=
  if s.queueMutex.isSome then s
  else if (s.queues handle).isSome then s.lockGoto t (.queueFound handle)
  else s.ret t (-eNOENT)

def destroyQueueDetach (s : VaSystem) (t : ℕ) (queue : UInt64) : VaSystem :=
  (s.eraseAttached queue).goto t (.detached queue)

def destroyQueueErase (s : VaSystem) (t : ℕ) (queue : UInt64) : VaSystem :=
  (s.setQueue queue none).unlockRet t 0

/-- `handlePushbufferSubmitBatch` up to the end of `vaSpaceExists`. -/
def submitBatchCheck (s : VaSystem) (t : ℕ) (count : UInt32) (vaSpace streamId : UInt64) :
    VaSystem :=
  if count = 0 ∨ 16 < count then s.ret t (-eINVAL)
  else if vaSpace = 0 then s.goto t (.done none)
  else if s.vaSpaceExists vaSpace then s.goto t (.spaceChecked vaSpace streamId)
  else s.ret t (-eINVAL)

/-- `va_spaces_[va_space_handle]` makes an entry when there is none any more. -/
def submitBatchLookup (s : VaSystem) (t : ℕ) (vaSpace streamId : UInt64) : VaSystem :=
  let space := (s.vaSpaces vaSpace).getD .empty
  let s := s.setSpace vaSpace (some space)
  if streamId ∈ space.attachedQueues then s.goto t (.done none) else s.ret t (-eINVAL)

/-- `queues_.erase(queue_handle) > 0`. -/
def removeQueue (s : VaSystem) (t : ℕ) (handle : UInt64) : VaSystem :=
  if s.queueMutex.isSome then s
  else (s.setQueue handle none).ret t (if (s.queues handle).isSome then 1 else 0)

def callStep (s : VaSystem) (t : ℕ) : VaCall → VaSystem
  | .createVaSpace pageSize flags => s.handleCreateVASpace t pageSize flags
  | .destroyVaSpace handle => s.handleDestroyVASpace t handle
  | .createQueue queueType vaSpace => s.handleCreateQueue t queueType vaSpace
  | .destroyQueue handle => s.handleDestroyQueue t handle
  | .submit count vaSpace streamId => s.submitBatchCheck t count vaSpace streamId
  | .removeQueue handle => s.removeQueue t handle

def resumeStep (s : VaSystem) (t : ℕ) (hal : Option UInt64) : VaSystem :=
  match s.threads t with
  | .done _ => s
  | .spaceFound vaSpace => s.createQueueInsert t vaSpace hal
  | .inserted vaSpace queue => s.createQueueAttach t vaSpace queue
  | .queueFound queue => s.destroyQueueDetach t queue
  | .detached queue => s.destroyQueueErase t queue
  | .spaceChecked vaSpace streamId => s.submitBatchLookup t vaSpace streamId

/-- A thread in the middle of a call makes no other, and a thread that finds `queue_mutex_` taken
waits. -/
def step (s : VaSystem) : VaAction → VaSystem
  | .call t c => if (s.threads t).isDone then s.callStep t c else s
  | .resume t hal => s.resumeStep t hal

/-! ### The property -/

/-- The attached queues of a VA space, none when it does not exist. -/
def attached (s : VaSystem) (vaSpace : UInt64) : List UInt64 :=
  ((s.vaSpaces vaSpace).map VASpace.attachedQueues).getD []

/-- The VA space that a live queue names. -/
def names (s : VaSystem) (queue : UInt64) : Option UInt64 :=
  (s.queues queue).map DeviceQueue.vaSpace

/-- The queue that the holder of `queue_mutex_` is creating or destroying. -/
def busy (s : VaSystem) : Option UInt64 := s.queueMutex.bind fun t => (s.threads t).queue

end VaSystem

/-- A live queue is in the list of the VA space that it names, once and in no other list, and the
lists hold no other queues; a queue that is being created or destroyed is left out. -/
structure Partitioned (s : VaSystem) : Prop where
  attached_iff : ∀ q, s.busy ≠ some q → ∀ h, q ∈ s.attached h ↔ s.names q = some h
  nodup : ∀ h, (s.attached h).Nodup

/-- The calls that are there to add or remove VA spaces. -/
def VaAction.ofVaSpace : VaAction → Bool
  | .call _ (.createVaSpace ..) | .call _ (.destroyVaSpace _) => true
  | _ => false

structure VaStepSound (s : VaSystem) (a : VaAction) : Prop where
  spaces : a.ofVaSpace = false → ∀ h, (s.step a).vaSpaceExists h = s.vaSpaceExists h
  unused : ∀ t h, a = .call t (.destroyVaSpace h) →
    (s.step a).threads t = .done (some 0) → ∀ q, s.busy ≠ some q → s.names q ≠ some h

/-- Along the run the attached queues are the live ones, and every step is entitled to what it does
to the VA spaces. -/
structure AttachmentSound (as : List VaAction) : Prop where
  partitioned : Always VaSystem.step Partitioned .init as
  steps : Guarded VaSystem.step VaStepSound .init as

/-- CREATE_QUEUE attaches to a VA space that is still there, a queue that is attached nowhere; the
second lookup of a submission finds the VA space still there; `removeQueue` is given no live queue;
the handle of a new VA space is not that of one with attached queues. -/
def attachGuard (s : VaSystem) : VaAction → Prop
  | .call t (.removeQueue q) =>
    (s.threads t).isDone = true → s.queueMutex = none → s.names q = none
  | .call t (.createVaSpace pageSize _) =>
    (s.threads t).isDone = true → pageSize ≤ 1 → s.nextVaSpaceHandle ≠ 0 →
      ∀ q ∈ s.attached s.nextVaSpaceHandle, s.busy = some q
  | .resume t _ =>
    match s.threads t with
    | .inserted vaSpace q => s.vaSpaceExists vaSpace = true ∧ ∀ h, q ∉ s.attached h
    | .spaceChecked vaSpace _ => s.vaSpaceExists vaSpace = true
    | _ => True
  | _ => True

/-! ### The invariant -/

structure AttachInv (s : VaSystem) : Prop extends Partitioned s where
  holder : ∀ t, (s.threads t).holdsQueueMutex = true → s.queueMutex = some t
  inserted : ∀ t v q, s.threads t = .inserted v q → s.names q = some v
  detached : ∀ t q, s.threads t = .detached q → ∀ h, q ∉ s.attached h

namespace VaSystem

variable {s : VaSystem} {t : ℕ} {p : VaPhase}

@[simp] theorem goto_threads (s : VaSystem) (t : ℕ) (p : VaPhase) :
    (s.goto t p).threads = Function.update s.threads t p := rfl

@[simp] theorem goto_queueMutex (s : VaSystem) (t : ℕ) (p : VaPhase) :
    (s.goto t p).queueMutex = s.queueMutex := rfl

@[simp] theorem goto_names (s : VaSystem) (t : ℕ) (p : VaPhase) (q : UInt64) :
    (s.goto t p).names q = s.names q := rfl

@[simp] theorem goto_attached (s : VaSystem) (t : ℕ) (p : VaPhase) (h : UInt64) :
    (s.goto t p).attached h = s.attached h := rfl

theorem attached_none {h : UInt64} (hv : s.vaSpaces h = none) : s.attached h = [] := by
  simp [attached, hv]

theorem attached_some {h : UInt64} {space : VASpace} (hv : s.vaSpaces h = some space) :
    s.attached h = space.attachedQueues := by
  simp [attached, hv]

theorem attached_setSpace (s : VaSystem) (v : UInt64) (x : Option VASpace) (w : UInt64) :
    (s.setSpace v x).attached w =
      if w = v then (x.map VASpace.attachedQueues).getD [] else s.attached w := by
  by_cases hw : w = v
  · simp [attached, setSpace, hw]
  · simp [attached, setSpace, hw]

theorem names_setQueue (s : VaSystem) (handle : UInt64) (x : Option DeviceQueue) (q : UInt64) :
    (s.setQueue handle x).names q = if q = handle then x.map DeviceQueue.vaSpace else s.names q := by
  by_cases hq : q = handle
  · simp [names, setQueue, hq]
  · simp [names, setQueue, hq]

theorem attached_eraseAttached (s : VaSystem) (q v : UInt64) :
    (s.eraseAttached q).attached v = (s.attached v).erase q := by
  simp only [attached, eraseAttached]
  rcases s.vaSpaces v with _ | space
  · rfl
  · rfl

theorem attachQueue_attached {v : UInt64} {space : VASpace} (hv : s.vaSpaces v = some space)
    (q w : UInt64) : (s.attachQueueToVASpace v q).attached w =
      if w = v then s.attached v ++ [q] else s.attached w := by
  rw [attachQueueToVASpace, hv, attached_some hv]
  exact attached_setSpace ..

theorem mem_attachQueue {v : UInt64} {space : VASpace} (hv : s.vaSpaces v = some space)
    {q r w : UInt64} : r ∈ (s.attachQueueToVASpace v q).attached w ↔
      r ∈ s.attached w ∨ (r = q ∧ w = v) := by
  rw [attachQueue_attached hv]
  by_cases hw : w = v
  · subst hw
    simp
  · simp [hw]

theorem attachQueue_frame (s : VaSystem) (v q : UInt64) :
    (s.attachQueueToVASpace v q).threads = s.threads ∧
      (s.attachQueueToVASpace v q).queueMutex = s.queueMutex ∧
        (s.attachQueueToVASpace v q).queues = s.queues := by
  unfold attachQueueToVASpace
  rcases s.vaSpaces v with _ | space
  · exact ⟨rfl, rfl, rfl⟩
  · exact ⟨rfl, rfl, rfl⟩

theorem attachQueue_threads (s : VaSystem) (v q : UInt64) :
    (s.attachQueueToVASpace v q).threads = s.threads := (attachQueue_frame s v q).1

theorem attachQueue_queueMutex (s : VaSystem) (v q : UInt64) :
    (s.attachQueueToVASpace v q).queueMutex = s.queueMutex := (attachQueue_frame s v q).2.1

theorem attachQueue_names (s : VaSystem) (v q r : UInt64) :
    (s.attachQueueToVASpace v q).names r = s.names r := by
  rw [names, (attachQueue_frame s v q).2.2]
  rfl

theorem attachQueue_busy (s : VaSystem) (v q : UInt64) :
    (s.attachQueueToVASpace v q).busy = s.busy := by
  rw [busy, attachQueue_threads, attachQueue_queueMutex]
  rfl

/-- Only the thread that moves has a new phase. -/
theorem goto_phase {u : ℕ} {p' : VaPhase} (hu : (s.goto t p).threads u = p') :
    (u = t ∧ p = p') ∨ (u ≠ t ∧ s.threads u = p') := by
  by_cases hut : u = t
  · subst hut
    rw [goto_threads, Function.update_self] at hu
    exact .inl ⟨rfl, hu⟩
  · rw [goto_threads, Function.update_of_ne hut] at hu
    exact .inr ⟨hut, hu⟩

/-- A phase other than the one that the thread moves to. -/
theorem phase_of_goto {u : ℕ} {p' : VaPhase} (hu : (s.goto t p).threads u = p') (hp : p ≠ p') :
    s.threads u = p' := by
  obtain ⟨-, heq⟩ | ⟨-, hu⟩ := goto_phase hu
  · exact absurd heq hp
  · exact hu

theorem queue_eq_none (hp : p.holdsQueueMutex = false) : p.queue = none := by
  cases p <;> first | rfl | cases hp

/-- A thread outside `queue_mutex_` changes nothing about the busy queue. -/
theorem busy_goto (hold : (s.threads t).holdsQueueMutex = false)
    (hp : p.holdsQueueMutex = false) : (s.goto t p).busy = s.busy := by
  unfold busy
  rw [goto_queueMutex]
  rcases s.queueMutex with _ | u
  · rfl
  · by_cases hu : u = t
    · subst hu
      simp [queue_eq_none hold, queue_eq_none hp]
    · simp [Function.update_of_ne hu]

theorem busy_of_mutex_eq_none (h : s.queueMutex = none) : s.busy = none := by
  simp [busy, h]

theorem busy_of_holder (h : s.queueMutex = some t) : s.busy = (s.threads t).queue := by
  simp [busy, h]

end VaSystem

namespace AttachInv

open VaSystem

variable {s : VaSystem} {t : ℕ} {p : VaPhase}

theorem busy_eq (h : AttachInv s) (hold : (s.threads t).holdsQueueMutex = true) :
    s.busy = (s.threads t).queue := busy_of_holder (h.holder t hold)

/-- A thread goes on outside `queue_mutex_`. -/
theorem goto (h : AttachInv s) (hold : (s.threads t).holdsQueueMutex = false)
    (hp : p.holdsQueueMutex = false) : AttachInv (s.goto t p) where
  attached_iff := by
    rw [busy_goto hold hp]
    exact h.attached_iff
  nodup := h.nodup
  holder := by
    intro u hu
    obtain ⟨-, heq⟩ | ⟨-, heq⟩ := goto_phase (s := s) (t := t) (p := p) (u := u) rfl
    · rw [← heq, hp] at hu
      exact absurd hu (by decide)
    · rw [← heq] at hu
      exact h.holder u hu
  inserted := by
    intro u v q hu
    refine h.inserted u v q (phase_of_goto hu ?_)
    rintro rfl
    cases hp
  detached := by
    intro u q hu
    refine h.detached u q (phase_of_goto hu ?_)
    rintro rfl
    cases hp

/-- The lists lose at most the busy queue. -/
theorem setSpaces (h : AttachInv s) {f : UInt64 → Option VASpace}
    (hsub : ∀ v, List.Sublist (VaSystem.attached { s with vaSpaces := f } v) (s.attached v))
    (hkeep : ∀ q, s.busy ≠ some q → ∀ v, q ∈ s.attached v →
      q ∈ VaSystem.attached { s with vaSpaces := f } v) :
    AttachInv { s with vaSpaces := f } where
  attached_iff := by
    intro q hq v
    refine Iff.trans ⟨fun hmem => (hsub v).subset hmem, hkeep q hq v⟩ ?_
    exact h.attached_iff q hq v
  nodup := fun v => (h.nodup v).sublist (hsub v)
  holder := h.holder
  inserted := h.inserted
  detached := fun u q hu v hmem => h.detached u q hu v ((hsub v).subset hmem)

/-- A VA space is added or removed that has at most the busy queue. -/
theorem setSpace (h : AttachInv s) {v : UInt64} {x : Option VASpace}
    (hx : (x.map VASpace.attachedQueues).getD [] = [])
    (hkeep : ∀ q ∈ s.attached v, s.busy = some q) : AttachInv (s.setSpace v x) := by
  refine h.setSpaces (f := Function.update s.vaSpaces v x) (fun w => ?_) fun q hq w hmem => ?_
  · have hw := attached_setSpace s v x w
    rw [VaSystem.setSpace, hx] at hw
    rw [hw]
    by_cases hw : w = v
    · rw [if_pos hw]
      exact List.nil_sublist _
    · rw [if_neg hw]
  · have hw := attached_setSpace s v x w
    rw [VaSystem.setSpace, hx] at hw
    rw [hw]
    by_cases hw : w = v
    · subst hw
      exact absurd (hkeep q hmem) hq
    · rw [if_neg hw]
      exact hmem

/-- The holder's call returns: its queue is in the right list, or dead and in none. -/
theorem unlockRet (h : AttachInv s) (hold : s.queueMutex = some t) (r : Int)
    (hq : ∀ q, s.busy = some q → ∀ v, q ∈ s.attached v ↔ s.names q = some v) :
    AttachInv (s.unlockRet t r) where
  attached_iff := by
    intro q _ v
    by_cases hbusy : s.busy = some q
    · exact hq q hbusy v
    · exact h.attached_iff q hbusy v
  nodup := h.nodup
  holder := by
    intro u hu
    obtain ⟨-, heq⟩ | ⟨hut, heq⟩ :=
      goto_phase (s := s) (t := t) (p := .done (some r)) (u := u) rfl
    · have hdone : (VaPhase.done (some r)).holdsQueueMutex = true := heq ▸ hu
      exact absurd hdone (by simp [VaPhase.holdsQueueMutex])
    · have hu' : (s.threads u).holdsQueueMutex = true := heq ▸ hu
      exact absurd (Option.some.inj ((h.holder u hu').symm.trans hold)) hut
  inserted := by
    intro u v q hu
    exact h.inserted u v q (phase_of_goto (s := s) (p := .done (some r)) hu nofun)
  detached := by
    intro u q hu
    exact h.detached u q (phase_of_goto (s := s) (p := .done (some r)) hu nofun)

/-- The holder goes on with a queue that it has taken out of every list. -/
theorem gotoDetached (h : AttachInv s) (hmutex : s.queueMutex = some t) {q : UInt64}
    (hbusy : s.busy = some q) (hgone : ∀ v, q ∉ s.attached v) :
    AttachInv (s.goto t (.detached q)) where
  attached_iff := by
    have hmutex' : (s.goto t (.detached q)).queueMutex = some t := hmutex
    rw [busy_of_holder hmutex', goto_threads, Function.update_self]
    intro q' hq'
    exact h.attached_iff q' fun heq => hq' (hbusy.symm.trans heq)
  nodup := h.nodup
  holder := by
    intro u hu
    obtain ⟨rfl, -⟩ | ⟨-, heq⟩ := goto_phase (s := s) (t := t) (p := .detached q) (u := u) rfl
    · exact hmutex
    · exact h.holder u (heq ▸ hu)
  inserted := by
    intro u v q' hu
    exact h.inserted u v q' (phase_of_goto hu nofun)
  detached := by
    intro u q' hu
    obtain ⟨-, heq⟩ | ⟨-, hu⟩ := goto_phase hu
    · cases heq
      exact hgone
    · exact h.detached u q' hu

/-- A call takes the free mutex. -/
theorem lockGoto (h : AttachInv s) (hfree : s.queueMutex = none)
    (hinserted : ∀ v q, p ≠ .inserted v q) (hdetached : ∀ q, p ≠ .detached q) :
    AttachInv (s.lockGoto t p) where
  attached_iff := by
    intro q _
    exact h.attached_iff q (by simp [busy_of_mutex_eq_none hfree])
  nodup := h.nodup
  holder := by
    intro u hu
    obtain ⟨rfl, -⟩ | ⟨-, heq⟩ := goto_phase (s := s) (t := t) (p := p) (u := u) rfl
    · rfl
    · have hu' : (s.threads u).holdsQueueMutex = true := heq ▸ hu
      exact absurd ((h.holder u hu').symm.trans hfree) (by simp)
  inserted := by
    intro u v q hu
    exact h.inserted u v q (phase_of_goto (s := s) (p := p) hu (hinserted v q))
  detached := by
    intro u q hu
    exact h.detached u q (phase_of_goto (s := s) (p := p) hu (hdetached q))

theorem setNext (h : AttachInv s) (nextQueue nextVaSpace : UInt64) :
    AttachInv { s with nextQueueHandle := nextQueue, nextVaSpaceHandle := nextVaSpace } :=
  ⟨⟨h.attached_iff, h.nodup⟩, h.holder, h.inserted, h.detached⟩

/-! ### The calls -/

theorem createVASpace (h : AttachInv s) (hout : (s.threads t).holdsQueueMutex = false)
    (hfresh : s.nextVaSpaceHandle ≠ 0 → ∀ q ∈ s.attached s.nextVaSpaceHandle, s.busy = some q)
    (pageSize flags : UInt32) : AttachInv (s.createVASpace t pageSize flags) := by
  have hnext := h.setNext s.nextQueueHandle (s.nextVaSpaceHandle + 1)
  unfold VaSystem.createVASpace
  by_cases hzero : s.nextVaSpaceHandle = 0
  · simp only [if_pos hzero]
    exact hnext.goto hout rfl
  · simp only [if_neg hzero]
    exact AttachInv.goto (hnext.setSpace rfl (hfresh hzero)) hout rfl

theorem handleDestroyVASpace (h : AttachInv s) (hout : (s.threads t).holdsQueueMutex = false)
    (handle : UInt64) : AttachInv (s.handleDestroyVASpace t handle) := by
  unfold VaSystem.handleDestroyVASpace
  rcases hspace : s.vaSpaces handle with _ | space
  · exact h.goto hout rfl
  · by_cases hempty : space.attachedQueues = []
    · simp only [if_neg (not_not.mpr hempty)]
      refine AttachInv.goto (h.setSpace rfl fun q hq => ?_) hout rfl
      rw [attached_some hspace, hempty] at hq
      cases hq
    · simp only [if_pos hempty]
      exact h.goto hout rfl

theorem handleCreateQueue (h : AttachInv s) (hout : (s.threads t).holdsQueueMutex = false)
    (queueType : UInt32) (vaSpace : UInt64) :
    AttachInv (s.handleCreateQueue t queueType vaSpace) := by
  unfold VaSystem.handleCreateQueue
  by_cases htype : gpuQueueGraphics < queueType
  · rw [if_pos htype]
    exact h.goto hout rfl
  · rw [if_neg htype]
    rcases hmutex : s.queueMutex with _ | u
    · rcases s.vaSpaceExists vaSpace with _ | _
      · exact h.goto hout rfl
      · exact h.lockGoto hmutex nofun nofun
    · exact h

theorem handleDestroyQueue (h : AttachInv s) (hout : (s.threads t).holdsQueueMutex = false)
    (handle : UInt64) : AttachInv (s.handleDestroyQueue t handle) := by
  unfold VaSystem.handleDestroyQueue
  rcases hmutex : s.queueMutex with _ | u
  · rcases s.queues handle with _ | dq
    · exact h.goto hout rfl
    · exact h.lockGoto hmutex nofun nofun
  · exact h

theorem submitBatchCheck (h : AttachInv s) (hout : (s.threads t).holdsQueueMutex = false)
    (count : UInt32) (vaSpace streamId : UInt64) :
    AttachInv (s.submitBatchCheck t count vaSpace streamId) := by
  unfold VaSystem.submitBatchCheck
  split_ifs
  · exact h.goto hout rfl
  · exact h.goto hout rfl
  · exact h.goto hout rfl
  · exact h.goto hout rfl

theorem removeQueue (h : AttachInv s) (hout : (s.threads t).holdsQueueMutex = false)
    {handle : UInt64} (hdead : s.queueMutex = none → s.names handle = none) :
    AttachInv (s.removeQueue t handle) := by
  unfold VaSystem.removeQueue
  rcases hmutex : s.queueMutex with _ | u
  · have hnone : s.queues handle = none := by simpa [VaSystem.names] using hdead hmutex
    have hsame : s.setQueue handle none = s := by
      rw [VaSystem.setQueue, ← hnone, Function.update_eq_self]
    rw [hsame]
    exact h.goto hout rfl
  · exact h

/-! ### The holder of the mutex -/

/-- The new queue is busy, and so no list has to hold it yet. -/
theorem insertQueue (h : AttachInv s) (hmutex : s.queueMutex = some t) (hbusy : s.busy = none)
    (dq : DeviceQueue) (handle : UInt64) :
    AttachInv ((s.setQueue handle (some dq)).goto t (.inserted dq.vaSpace handle)) where
  attached_iff := by
    intro q hq v
    have hne : q ≠ handle := by
      rintro rfl
      have hmutex' : ((s.setQueue q (some dq)).goto t (.inserted dq.vaSpace q)).queueMutex =
          some t := hmutex
      rw [busy_of_holder hmutex', goto_threads, Function.update_self] at hq
      exact hq rfl
    rw [goto_names, names_setQueue, if_neg hne]
    exact h.attached_iff q (by simp [hbusy]) v
  nodup := h.nodup
  holder := by
    intro u hu
    obtain ⟨rfl, -⟩ | ⟨-, heq⟩ := goto_phase (s := s.setQueue handle (some dq)) (t := t)
      (p := .inserted dq.vaSpace handle) (u := u) rfl
    · exact hmutex
    · rw [← heq] at hu
      exact h.holder u hu
  inserted := by
    intro u v q hu
    obtain ⟨-, heq⟩ | ⟨hut, hu⟩ := goto_phase hu
    · cases heq
      rw [goto_names, names_setQueue, if_pos rfl]
      rfl
    · have hold : (s.threads u).holdsQueueMutex = true := by
        rw [show s.threads u = _ from hu]
        rfl
      exact absurd (Option.some.inj ((h.holder u hold).symm.trans hmutex)) hut
  detached := by
    intro u q hu
    exact h.detached u q (phase_of_goto hu nofun)

theorem createQueueInsert (h : AttachInv s) {vaSpace : UInt64}
    (hphase : s.threads t = .spaceFound vaSpace) (hal : Option UInt64) :
    AttachInv (s.createQueueInsert t vaSpace hal) := by
  have hmutex := h.holder t (by rw [hphase]; rfl)
  have hnext := h.setNext (s.nextQueueHandle + 1) s.nextVaSpaceHandle
  have hbusy : s.busy = none := by
    rw [busy_of_holder hmutex, hphase]
    rfl
  have hfail := hnext.unlockRet hmutex (-eNOMEM) fun q hq => by cases hbusy.symm.trans hq
  unfold VaSystem.createQueueInsert
  by_cases hzero : s.nextQueueHandle = 0
  · simp only [if_pos hzero]
    exact hfail
  · simp only [if_neg hzero]
    rcases hal with _ | queueHandle
    · exact hfail
    · by_cases hnull : queueHandle = 0
      · simp only [if_pos hnull]
        exact hfail
      · simp only [if_neg hnull]
        exact hnext.insertQueue hmutex hbusy ⟨queueHandle, vaSpace⟩ s.nextQueueHandle

/-- The queue is put into the list of the VA space that it names. -/
theorem attachQueueToVASpace (h : AttachInv s) {vaSpace queue : UInt64}
    (hphase : s.threads t = .inserted vaSpace queue) (hspace : s.vaSpaceExists vaSpace = true)
    (hnew : ∀ v, queue ∉ s.attached v) : AttachInv (s.attachQueueToVASpace vaSpace queue) := by
  have hmutex := h.holder t (by rw [hphase]; rfl)
  have hbusy := h.busy_eq (t := t) (by rw [hphase]; rfl)
  rw [hphase] at hbusy
  obtain ⟨space, hsome⟩ := Option.isSome_iff_exists.mp hspace
  refine ⟨⟨fun q hq v => ?_, fun v => ?_⟩, ?_, ?_, fun u q hu v => ?_⟩
  · rw [attachQueue_busy] at hq
    have hne : q ≠ queue := by
      rintro rfl
      exact hq hbusy
    rw [mem_attachQueue hsome, attachQueue_names]
    simp only [hne, false_and, or_false]
    exact h.attached_iff q hq v
  · rw [attachQueue_attached hsome]
    by_cases hv : v = vaSpace
    · rw [if_pos hv]
      exact List.Nodup.append (h.nodup vaSpace) (List.nodup_singleton queue)
        (List.disjoint_singleton.mpr (hnew vaSpace))
    · rw [if_neg hv]
      exact h.nodup v
  · rw [attachQueue_threads, attachQueue_queueMutex]
    exact h.holder
  · simp only [attachQueue_threads, attachQueue_names]
    exact h.inserted
  · rw [attachQueue_threads] at hu
    have hut : u = t := Option.some.inj ((h.holder u (by rw [hu]; rfl)).symm.trans hmutex)
    rw [hut, hphase] at hu
    cases hu

theorem createQueueAttach (h : AttachInv s) {vaSpace queue : UInt64}
    (hphase : s.threads t = .inserted vaSpace queue) (hspace : s.vaSpaceExists vaSpace = true)
    (hnew : ∀ v, queue ∉ s.attached v) : AttachInv (s.createQueueAttach t vaSpace queue) := by
  have hmutex := h.holder t (by rw [hphase]; rfl)
  have hbusy := h.busy_eq (t := t) (by rw [hphase]; rfl)
  rw [hphase] at hbusy
  obtain ⟨space, hsome⟩ := Option.isSome_iff_exists.mp hspace
  refine (h.attachQueueToVASpace hphase hspace hnew).unlockRet ?_ 0 fun q hq v => ?_
  · rw [attachQueue_queueMutex]
    exact hmutex
  · rw [attachQueue_busy] at hq
    obtain rfl : queue = q := Option.some.inj (hbusy.symm.trans hq)
    rw [mem_attachQueue hsome, attachQueue_names, h.inserted t vaSpace queue hphase,
      Option.some.injEq]
    simp only [hnew v, false_or, true_and]
    exact eq_comm

theorem destroyQueueDetach (h : AttachInv s) {queue : UInt64}
    (hphase : s.threads t = .queueFound queue) : AttachInv (s.destroyQueueDetach t queue) := by
  have hmutex := h.holder t (by rw [hphase]; rfl)
  have hbusy : s.busy = some queue := by
    rw [busy_of_holder hmutex, hphase]
    rfl
  have hsub : ∀ v, List.Sublist ((s.eraseAttached queue).attached v) (s.attached v) := by
    intro v
    rw [attached_eraseAttached]
    exact List.erase_sublist
  have herased : AttachInv (s.eraseAttached queue) := by
    refine h.setSpaces hsub fun q hq v hmem => ?_
    have hne : q ≠ queue := by
      rintro rfl
      exact hq hbusy
    have herase := attached_eraseAttached s queue v
    rw [eraseAttached] at herase
    rw [herase]
    exact (List.mem_erase_of_ne hne).mpr hmem
  have hgone : ∀ v, queue ∉ (s.eraseAttached queue).attached v := by
    intro v
    rw [attached_eraseAttached]
    exact (h.nodup v).not_mem_erase
  unfold VaSystem.destroyQueueDetach
  exact herased.gotoDetached hmutex (by rw [hbusy.symm]; rfl) hgone

/-- The queue is in no list any more, and is erased from `queues_`. -/
theorem destroyQueueErase (h : AttachInv s) {queue : UInt64}
    (hphase : s.threads t = .detached queue) : AttachInv (s.destroyQueueErase t queue) := by
  have hmutex := h.holder t (by rw [hphase]; rfl)
  have hbusy : s.busy = some queue := by
    rw [busy_of_holder hmutex, hphase]
    rfl
  have hgone := h.detached t queue hphase
  have herased : AttachInv (s.setQueue queue none) := by
    refine ⟨⟨fun q hq v => ?_, h.nodup⟩, h.holder, fun u v q hu => ?_, h.detached⟩
    · have hne : q ≠ queue := by
        rintro rfl
        exact hq hbusy
      rw [names_setQueue, if_neg hne]
      exact h.attached_iff q hq v
    · have hu' : s.threads u = .inserted v q := hu
      have hut : u = t := Option.some.inj ((h.holder u (by rw [hu']; rfl)).symm.trans hmutex)
      rw [hut, hphase] at hu'
      cases hu'
  refine herased.unlockRet hmutex 0 fun q hq v => ?_
  obtain rfl : queue = q := Option.some.inj (hbusy.symm.trans hq)
  rw [names_setQueue, if_pos rfl]
  exact iff_of_false (hgone v) nofun

/-- The entry is there, and `operator[]` changes nothing. -/
theorem submitBatchLookup (h : AttachInv s) (hout : (s.threads t).holdsQueueMutex = false)
    {vaSpace : UInt64} (hspace : s.vaSpaceExists vaSpace = true) (streamId : UInt64) :
    AttachInv (s.submitBatchLookup t vaSpace streamId) := by
  obtain ⟨space, hsome⟩ := Option.isSome_iff_exists.mp hspace
  have hsame : s.setSpace vaSpace (some ((s.vaSpaces vaSpace).getD .empty)) = s := by
    rw [VaSystem.setSpace, hsome, Option.getD_some, ← hsome, Function.update_eq_self]
  unfold VaSystem.submitBatchLookup
  simp only [hsame]
  split_ifs
  · exact h.goto hout rfl
  · exact h.goto hout rfl

end AttachInv

/-! ### The runs -/

section Runs

open VaSystem

variable {s : VaSystem}

theorem VaPhase.outside_of_isDone {p : VaPhase} (h : p.isDone = true) :
    p.holdsQueueMutex = false := by
  cases p with
  | done => rfl
  | _ => cases h

theorem attachInv_step (s : VaSystem) (a : VaAction) (h : AttachInv s) (hG : attachGuard s a) :
    AttachInv (s.step a) := by
  cases a with
  | call t c =>
    by_cases hdone : (s.threads t).isDone = true
    · have hout := VaPhase.outside_of_isDone hdone
      rw [step, if_pos hdone]
      cases c with
      | createVaSpace pageSize flags =>
        rw [callStep, handleCreateVASpace]
        by_cases hpage : 1 < pageSize
        · rw [if_pos hpage]
          exact h.goto hout rfl
        · rw [if_neg hpage]
          exact h.createVASpace hout (hG hdone (UInt32.not_lt.mp hpage)) pageSize flags
      | destroyVaSpace handle => exact h.handleDestroyVASpace hout handle
      | createQueue queueType vaSpace => exact h.handleCreateQueue hout queueType vaSpace
      | destroyQueue handle => exact h.handleDestroyQueue hout handle
      | submit count vaSpace streamId => exact h.submitBatchCheck hout count vaSpace streamId
      | removeQueue handle => exact h.removeQueue hout (hG hdone)
    · rw [step, if_neg hdone]
      exact h
  | resume t hal =>
    rw [step, resumeStep]
    rcases hphase : s.threads t with r | v | ⟨v, q⟩ | q | q | ⟨v, streamId⟩
    · exact h
    · exact h.createQueueInsert hphase hal
    · rw [attachGuard, hphase] at hG
      exact h.createQueueAttach hphase hG.1 hG.2
    · exact h.destroyQueueDetach hphase
    · exact h.destroyQueueErase hphase
    · rw [attachGuard, hphase] at hG
      exact h.submitBatchLookup (by rw [hphase]; rfl) hG streamId

theorem vaSpaceExists_setSpace {v : UInt64} {space : VASpace} (hv : s.vaSpaceExists v = true)
    (w : UInt64) : (s.setSpace v (some space)).vaSpaceExists w = s.vaSpaceExists w := by
  by_cases hw : w = v
  · subst hw
    rw [hv]
    simp [vaSpaceExists, setSpace]
  · simp [vaSpaceExists, setSpace, hw]

theorem vaSpaceExists_attachQueue (s : VaSystem) (v q w : UInt64) :
    (s.attachQueueToVASpace v q).vaSpaceExists w = s.vaSpaceExists w := by
  unfold attachQueueToVASpace
  rcases hv : s.vaSpaces v with _ | space
  · rfl
  · exact vaSpaceExists_setSpace (by simp [vaSpaceExists, hv]) w

/-- The calls about queues change no VA space. -/
theorem callStep_vaSpaces (s : VaSystem) (t : ℕ) {c : VaCall}
    (hc : (VaAction.call t c).ofVaSpace = false) : (s.callStep t c).vaSpaces = s.vaSpaces := by
  cases c with
  | createVaSpace => cases hc
  | destroyVaSpace => cases hc
  | createQueue queueType vaSpace =>
    rw [callStep, handleCreateQueue]
    split_ifs <;> rfl
  | destroyQueue handle =>
    rw [callStep, handleDestroyQueue]
    split_ifs <;> rfl
  | submit count vaSpace streamId =>
    rw [callStep, submitBatchCheck]
    split_ifs <;> rfl
  | removeQueue handle =>
    rw [callStep, VaSystem.removeQueue]
    split_ifs <;> rfl

theorem createQueueInsert_vaSpaces (s : VaSystem) (t : ℕ) (v : UInt64) (hal : Option UInt64) :
    (s.createQueueInsert t v hal).vaSpaces = s.vaSpaces := by
  unfold createQueueInsert
  rcases hal with _ | queueHandle
  · simp only
    split_ifs <;> rfl
  · simp only
    split_ifs <;> rfl

/-- Only the second lookup of a submission can add an entry. -/
theorem resumeStep_vaSpaceExists (s : VaSystem) (t : ℕ) (hal : Option UInt64)
    (hlookup : ∀ v streamId, s.threads t = .spaceChecked v streamId → s.vaSpaceExists v = true)
    (w : UInt64) : (s.resumeStep t hal).vaSpaceExists w = s.vaSpaceExists w := by
  rw [resumeStep]
  rcases hphase : s.threads t with r | v | ⟨v, q⟩ | q | q | ⟨v, streamId⟩
  · rfl
  · simp only [vaSpaceExists, createQueueInsert_vaSpaces]
  · exact vaSpaceExists_attachQueue s v q w
  · exact Option.isSome_map
  · rfl
  · have hset : (s.setSpace v (some ((s.vaSpaces v).getD .empty))).vaSpaceExists w
        = s.vaSpaceExists w := vaSpaceExists_setSpace (hlookup v streamId hphase) w
    simp only [submitBatchLookup]
    split_ifs
    · exact hset
    · exact hset

theorem vaStepSound_of_inv (s : VaSystem) (a : VaAction) (h : AttachInv s)
    (hG : attachGuard s a) : VaStepSound s a where
  spaces := by
    intro ha w
    cases a with
    | call t c =>
      rw [step]
      split_ifs
      · rw [vaSpaceExists, callStep_vaSpaces s t ha]
        rfl
      · rfl
    | resume t hal =>
      refine resumeStep_vaSpaceExists s t hal (fun v streamId hphase => ?_) w
      rwa [attachGuard, hphase] at hG
  unused := by
    rintro t v rfl hret q hq hnames
    have hmem := (h.attached_iff q hq v).mpr hnames
    rw [step] at hret
    split_ifs at hret with hdone
    · rw [callStep, handleDestroyVASpace] at hret
      rcases hspace : s.vaSpaces v with _ | space
      · rw [attached_none hspace] at hmem
        cases hmem
      · rw [attached_some hspace] at hmem
        have hne : space.attachedQueues ≠ [] := List.ne_nil_of_mem hmem
        simp only [hspace, if_pos hne, ret, goto_threads, Function.update_self,
          VaPhase.done.injEq, Option.some.injEq] at hret
        exact absurd hret (by decide)
    · rw [hret] at hdone
      exact hdone rfl

/-- A removed queue is still attached. -/
theorem removeQueue_of_sound (h : AttachInv s) {t : ℕ} {q : UInt64}
    (hmutex : s.queueMutex = none) (hP : Partitioned (s.removeQueue t q)) : s.names q = none := by
  rw [VaSystem.removeQueue, hmutex] at hP
  by_contra hlive
  obtain ⟨v, hv⟩ := Option.ne_none_iff_exists'.mp hlive
  have hmem := (h.attached_iff q (by simp [busy_of_mutex_eq_none hmutex]) v).mpr hv
  have hmutex' : ((s.setQueue q none).ret t (if (s.queues q).isSome then 1 else 0)).queueMutex =
      none := hmutex
  have hnames := (hP.attached_iff q (by
    change VaSystem.busy ((s.setQueue q none).ret t _) ≠ some q
    simp [busy_of_mutex_eq_none hmutex']) v).mp hmem
  change (s.setQueue q none).names q = some v at hnames
  rw [names_setQueue, if_pos rfl] at hnames
  cases hnames

/-- A VA space that is overwritten loses its queues. -/
theorem createVASpace_of_sound (h : AttachInv s) {t : ℕ} {pageSize flags : UInt32}
    (hout : (s.threads t).holdsQueueMutex = false) (hne : s.nextVaSpaceHandle ≠ 0)
    (hP : Partitioned (s.createVASpace t pageSize flags)) {q : UInt64}
    (hmem : q ∈ s.attached s.nextVaSpaceHandle) : s.busy = some q := by
  by_contra hbusy
  have hnames := (h.attached_iff q hbusy _).mp hmem
  simp only [VaSystem.createVASpace, if_neg hne] at hP
  refine absurd ((hP.attached_iff q ?_ s.nextVaSpaceHandle).mpr hnames) ?_
  · exact Eq.trans_ne (busy_goto hout rfl) hbusy
  · rw [ret, goto_attached, attached_setSpace, if_pos rfl]
    exact List.not_mem_nil

/-- A queue whose VA space is gone names it in vain, and one that is attached already is then
attached twice. -/
theorem createQueueAttach_of_sound (h : AttachInv s) {t : ℕ} {v q : UInt64}
    (hphase : s.threads t = .inserted v q) (hP : Partitioned (s.createQueueAttach t v q)) :
    s.vaSpaceExists v = true ∧ ∀ w, q ∉ s.attached w := by
  have hiff : ∀ w, q ∈ (s.attachQueueToVASpace v q).attached w ↔ some v = some w := by
    intro w
    refine (hP.attached_iff q nofun w).trans ?_
    rw [← h.inserted t v q hphase, ← attachQueue_names s v q q]
    rfl
  have hspace : s.vaSpaceExists v = true := by
    by_contra hgone
    rw [vaSpaceExists, Bool.not_eq_true, Option.isSome_eq_false_iff,
      Option.isNone_iff_eq_none] at hgone
    have hmem := (hiff v).mpr rfl
    rw [attachQueueToVASpace, hgone] at hmem
    rw [attached_none hgone] at hmem
    cases hmem
  obtain ⟨space, hsome⟩ := Option.isSome_iff_exists.mp hspace
  refine ⟨hspace, fun w hmem => ?_⟩
  obtain rfl : v = w :=
    Option.some.inj ((hiff w).mp ((mem_attachQueue hsome).mpr (.inl hmem)))
  have hnodup : ((s.attachQueueToVASpace v q).attached v).Nodup := hP.nodup v
  rw [attachQueue_attached hsome, if_pos rfl] at hnodup
  exact (List.nodup_append.mp hnodup).2.2 q hmem q (List.mem_singleton_self q) rfl

theorem attachGuard_of_sound (s : VaSystem) (a : VaAction) (h : AttachInv s)
    (hP : Partitioned (s.step a)) (hS : VaStepSound s a) : attachGuard s a := by
  cases a with
  | call t c =>
    rw [step] at hP
    cases c with
    | createVaSpace pageSize flags =>
      intro hdone hpage hne q hmem
      rw [if_pos hdone, callStep, handleCreateVASpace, if_neg (UInt32.not_lt.mpr hpage)] at hP
      exact createVASpace_of_sound h (VaPhase.outside_of_isDone hdone) hne hP hmem
    | removeQueue q =>
      intro hdone hmutex
      rw [if_pos hdone] at hP
      exact removeQueue_of_sound h hmutex hP
    | _ => trivial
  | resume t hal =>
    rw [step, resumeStep] at hP
    rw [attachGuard]
    rcases hphase : s.threads t with r | v | ⟨v, q⟩ | q | q | ⟨v, streamId⟩
    · trivial
    · trivial
    · rw [hphase] at hP
      exact createQueueAttach_of_sound h hphase hP
    · trivial
    · trivial
    · have hsame := hS.spaces rfl v
      rw [step, resumeStep, hphase] at hsame
      change s.vaSpaceExists v = true
      rw [← hsame]
      simp only [submitBatchLookup]
      split_ifs
      · simp [vaSpaceExists, goto, setSpace]
      · simp [vaSpaceExists, ret, goto, setSpace]

theorem attachInv_init : AttachInv .init where
  attached_iff := fun _ _ _ => iff_of_false List.not_mem_nil nofun
  nodup := fun _ => List.nodup_nil
  holder := nofun
  inserted := nofun
  detached := nofun

/-- The interleavings along which queues and VA spaces agree. -/
theorem va_attachment_iff (as : List VaAction) :
    AttachmentSound as ↔ Guarded VaSystem.step attachGuard .init as := by
  rw [← always_guarded_iff attachInv_step (fun _ h => h.toPartitioned) vaStepSound_of_inv
    attachGuard_of_sound as attachInv_init]
  exact ⟨fun h => ⟨h.partitioned, h.steps⟩, fun h => ⟨h.1, h.2⟩⟩

/-- DESTROY_VA_SPACE between the check and the attachment of CREATE_QUEUE: the new queue lives with
no VA space. -/
theorem va_attachment_fails :
    ¬ AttachmentSound [.call 0 (.createVaSpace 0 0), .call 0 (.createQueue 0 1),
      .call 1 (.destroyVaSpace 1), .resume 0 (some 1), .resume 0 none] := by
  intro h
  have hattached := (h.partitioned.last.attached_iff 1 (by decide) 1).mpr (by decide)
  exact absurd hattached (by decide)

end Runs

end UsrLinuxEmu.GpuDriver
