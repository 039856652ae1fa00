import Mathlib.Data.List.Sort
import Mathlib.Logic.Function.Basic
import UsrLinuxEmu.Transition.Run

/-!
# Queues and pullers behind HAL handles (`hal/hal_user.cpp`)

The HAL owns its queues and pullers, but they keep raw pointers to each other: a queue to the puller
that it submits to, a puller to the queues it scans, and a doorbell to the puller created last with
it.  A puller's thread scans a copy of its queue table without the mutex, a doorbell calls its
puller without any, and a handle given out again, after the counter has wrapped, frees what it stood
for.

* `HalObjects` — the objects that exist, with the tables of handles and the raw pointers;
* `HalObjects.step` — one HAL call, or one access of a puller's thread or of a doorbell call;
* `HalObjects.Owned` — the handles and what they own; `HalObjects.NoDangling` — the raw pointers;
* `halObjects_safe_iff` — the calls that must not happen too early.
-/

namespace UsrLinuxEmu.GpuDriver

open UsrLinuxEmu.Transition

/-! ### The code -/

/-- The pointer of a `GpuQueueEmu`; its doorbell callback, which nothing calls, is left out. -/
structure HalQueue where
  queueId : UInt32
  puller : Option ℕ
  deriving DecidableEq

/-- Where the `shared_ptr` to a puller is: in a variable of `puller_create`, in the table, or in a
variable of `puller_destroy`. -/
inductive PullerOwner where
  | creating
  | listed
  | destroying
  deriving DecidableEq

/-- A `HardwarePullerEmu`, with its queue table in the order of the ids.  Its thread's scan has not
done with the queues in `snapshot`, and is to take an entry from the first if `taking`. -/
structure HalPuller where
  owner : PullerOwner
  activeQueues : List (UInt32 × ℕ)
  snapshot : List ℕ
  taking : Bool
  deriving DecidableEq

/-- `queuePtrs` stands for both tables of queues, which change together.  `doorbellCb` are the
callbacks of the doorbells, which are the caller's; `ringing` are the pullers whose `onDoorbell` is
under way, and `fault` is set by an access to an object that does not exist any more. -/
structure HalObjects where
  queues : ℕ → Option HalQueue
  pullers : ℕ → Option HalPuller
  nextAddress : ℕ
  queuePtrs : UInt64 → Option ℕ
  pullerPtrs : UInt64 → Option ℕ
  nextQueueHandle : UInt64
  nextPullerHandle : UInt64
  doorbellCb : ℕ → Option ℕ
  ringing : List ℕ
  fault : Bool

/-- Handles are those of the HAL; a puller is named by its address where the code has it at hand.
`puller_create` runs the constructor before it takes the lock, and `puller_destroy` takes the puller
out of the table before it stops it. -/
inductive HalAction where
  | queueCreate (queueId : UInt32)
  | queueDestroy (handle : UInt64)
  | queueSubmit (handle : UInt64)
  | queueRegisterPuller (queueHandle pullerHandle : UInt64)
  | pullerConstruct (doorbell : ℕ)
  | pullerEnter (p : ℕ)
  | pullerTake (handle : UInt64)
  | pullerFree (p : ℕ)
  | pullerRegisterQueue (pullerHandle queueHandle : UInt64)
  | pullerUnregisterQueue (handle : UInt64) (queueId : UInt32)
  | scanStart (p : ℕ)
  | scanNext (p : ℕ) (pending : Bool)
  | scanTake (p : ℕ) (taken : Bool)
  | doorbellWrite (doorbell : ℕ)
  | onDoorbell (call : ℕ) (last : Bool)
  deriving DecidableEq

namespace HalObjects

def init : HalObjects :=
  ⟨fun _ => none, fun _ => none, 0, fun _ => none, fun _ => none, 1, 1, fun _ => none, [], false⟩

def setQueue (s : HalObjects) (q : ℕ) (queue : HalQueue) : HalObjects :=
  { s with queues := Function.update s.queues q (some queue) }

def setPuller (s : HalObjects) (p : ℕ) (puller : HalPuller) : HalObjects :=
  { s with pullers := Function.update s.pullers p (some puller) }

def failed (s : HalObjects) : HalObjects := { s with fault := true }

def freeQueue (s : HalObjects) (ptr : Option ℕ) : HalObjects :=
  { s with queues := fun q => if ptr = some q then none else s.queues q }

def freePuller (s : HalObjects) (ptr : Option ℕ) : HalObjects :=
  { s with pullers := fun p => if ptr = some p then none else s.pullers p }

/-- The counter's next value; 0 is skipped. -/
def newHandle (next : UInt64) : UInt64 := if next = 0 then next + 1 else next

def queueCreate (s : HalObjects) (queueId : UInt32) : HalObjects :=
  { s.setQueue s.nextAddress ⟨queueId, none⟩ with
    nextAddress := s.nextAddress + 1
    queuePtrs := Function.update s.queuePtrs (newHandle s.nextQueueHandle) (some s.nextAddress)
    nextQueueHandle := newHandle s.nextQueueHandle + 1 }

def queueDestroy (s : HalObjects) (handle : UInt64) : HalObjects :=
  { s with queuePtrs := Function.update s.queuePtrs handle none }

/-- A call through a raw pointer to a puller. -/
def usePuller (s : HalObjects) (p : ℕ) : HalObjects :=
  if (s.pullers p).isSome then s else s.failed

/-- `submit` calls the puller while the lock of the queues is held. -/
def queueSubmit (s : HalObjects) (handle : UInt64) : HalObjects :=
  match s.queuePtrs handle with
  | none => s
  | some q =>
    match s.queues q with
    | none => s.failed
    | some queue =>
      match queue.puller with
      | none => s
      | some p => s.usePuller p

/-- The constructor hands the puller to its doorbell. -/
def pullerConstruct (s : HalObjects) (doorbell : ℕ) : HalObjects :=
  { s.setPuller s.nextAddress ⟨.creating, [], [], false⟩ with
    nextAddress := s.nextAddress + 1
    doorbellCb := Function.update s.doorbellCb doorbell (some s.nextAddress) }

/-- A thread that is joined has left its loop, so that it is in no scan. -/
def joined (s : HalObjects) (ptr : Option ℕ) : Bool :=
  ((ptr.bind s.pullers).map HalPuller.snapshot).getD [] == []

/-- A puller can be entered once the one that its handle stood for has been stopped. -/
def entering (s : HalObjects) (p : ℕ) : Option HalPuller :=
  (s.pullers p).filter fun puller =>
    puller.owner == .creating && s.joined (s.pullerPtrs (newHandle s.nextPullerHandle))

def pullerEnter (s : HalObjects) (p : ℕ) : HalObjects :=
  match s.entering p with
  | none => s
  | some puller =>
    { s.setPuller p { puller with owner := .listed } with
      pullerPtrs := Function.update s.pullerPtrs (newHandle s.nextPullerHandle) (some p)
      nextPullerHandle := newHandle s.nextPullerHandle + 1 }

/-- What the calls on a puller's handle look up. -/
def findPuller (s : HalObjects) (handle : UInt64) : Option ℕ :=
  if handle = 0 then none else s.pullerPtrs handle

def queueRegisterPuller (s : HalObjects) (queueHandle pullerHandle : UInt64) : HalObjects :=
  match s.queuePtrs queueHandle, s.findPuller pullerHandle with
  | some q, some p =>
    match s.queues q with
    | none => s.failed
    | some queue => s.setQueue q { queue with puller := some p }
  | _, _ => s

def pullerTake (s : HalObjects) (handle : UInt64) : HalObjects :=
  match s.findPuller handle with
  | none => s
  | some p =>
    match s.pullers p with
    | none => s.failed
    | some puller =>
      { s.setPuller p { puller with owner := .destroying } with
        pullerPtrs := Function.update s.pullerPtrs handle none }

/-- The entries of a map under other ids. -/
def unregisterQueue (queueId : UInt32) (active : List (UInt32 × ℕ)) : List (UInt32 × ℕ) :=
  active.filter fun e => e.1 != queueId

def registerQueue (queueId : UInt32) (q : ℕ) (active : List (UInt32 × ℕ)) : List (UInt32 × ℕ) :=
  (unregisterQueue queueId active).orderedInsert (fun e e' => e.1 ≤ e'.1) (queueId, q)

def pullerRegisterQueue (s : HalObjects) (pullerHandle queueHandle : UInt64) : HalObjects :=
  if queueHandle = 0 then s
  else
    match s.findPuller pullerHandle, s.queuePtrs queueHandle with
    | some p, some q =>
      match s.pullers p, s.queues q with
      | some puller, some queue =>
        s.setPuller p { puller with
          activeQueues := registerQueue queue.queueId q puller.activeQueues }
      | _, _ => s.failed
    | _, _ => s

def pullerUnregisterQueue (s : HalObjects) (handle : UInt64) (queueId : UInt32) : HalObjects :=
  match s.findPuller handle with
  | none => s
  | some p =>
    match s.pullers p with
    | none => s.failed
    | some puller =>
      s.setPuller p { puller with activeQueues := unregisterQueue queueId puller.activeQueues }

/-- `scanQueues` copies the table under the mutex. -/
def scanStart (s : HalObjects) (p : ℕ) : HalObjects :=
  match s.pullers p with
  | none => s
  | some puller =>
    if puller.snapshot = [] then
      s.setPuller p { puller with snapshot := puller.activeQueues.map Prod.snd }
    else s

/-- `hasPending` of the next queue of the copy. -/
def scanNext (s : HalObjects) (p : ℕ) (pending : Bool) : HalObjects :=
  match s.pullers p with
  | none => s
  | some puller =>
    match puller.snapshot with
    | [] => s
    | q :: rest =>
      if puller.taking then s
      else if (s.queues q).isSome then
        s.setPuller p { puller with
          snapshot := if pending then q :: rest else rest
          taking := pending }
      else s.failed

/-- `dequeue` on the queue that had an entry; the scan ends when it gets one. -/
def scanTake (s : HalObjects) (p : ℕ) (taken : Bool) : HalObjects :=
  match s.pullers p with
  | none => s
  | some puller =>
    match puller.snapshot with
    | [] => s
    | q :: rest =>
      if !puller.taking then s
      else if (s.queues q).isSome then
        s.setPuller p { puller with snapshot := if taken then [] else rest, taking := false }
      else s.failed

/-- A doorbell write calls the puller that it knows then. -/
def doorbellWrite (s : HalObjects) (doorbell : ℕ) : HalObjects :=
  { s with ringing := (s.doorbellCb doorbell).toList ++ s.ringing }

/-- An access of a doorbell call, which may be its last. -/
def onDoorbell (s : HalObjects) (call : ℕ) (last : Bool) : HalObjects :=
  match s.ringing[call]? with
  | none => s
  | some p =>
    if (s.pullers p).isSome then
      { s with ringing := if last then s.ringing.eraseIdx call else s.ringing }
    else s.failed

def call (s : HalObjects) : HalAction → HalObjects
  | .queueCreate queueId => s.queueCreate queueId
  | .queueDestroy handle => s.queueDestroy handle
  | .queueSubmit handle => s.queueSubmit handle
  | .queueRegisterPuller queue puller => s.queueRegisterPuller queue puller
  | .pullerConstruct doorbell => s.pullerConstruct doorbell
  | .pullerEnter p => s.pullerEnter p
  | .pullerTake handle => s.pullerTake handle
  | .pullerFree _ => s
  | .pullerRegisterQueue puller queue => s.pullerRegisterQueue puller queue
  | .pullerUnregisterQueue handle queueId => s.pullerUnregisterQueue handle queueId
  | .scanStart p => s.scanStart p
  | .scanNext p pending => s.scanNext p pending
  | .scanTake p taken => s.scanTake p taken
  | .doorbellWrite doorbell => s.doorbellWrite doorbell
  | .onDoorbell call last => s.onDoorbell call last

/-- The queue whose `shared_ptr` a call lets go of. -/
def releasedQueue (s : HalObjects) : HalAction → Option ℕ
  | .queueCreate _ => s.queuePtrs (newHandle s.nextQueueHandle)
  | .queueDestroy handle => s.queuePtrs handle
  | _ => none

/-- The puller whose `shared_ptr` a call lets go of, once its thread has been joined. -/
def releasedPuller (s : HalObjects) : HalAction → Option ℕ
  | .pullerEnter p =>
    if (s.entering p).isSome then s.pullerPtrs (newHandle s.nextPullerHandle) else none
  | .pullerFree p =>
    match s.pullers p with
    | none => none
    | some puller => if puller.owner = .destroying ∧ puller.snapshot = [] then some p else none
  | _ => none

def step (s : HalObjects) (a : HalAction) : HalObjects :=
  ((s.call a).freeQueue (s.releasedQueue a)).freePuller (s.releasedPuller a)

/-! ### The property -/

/-- A puller's table or the scan in hand points to the queue. -/
def ScansQueue (puller : HalPuller) (q : ℕ) : Prop :=
  (∃ e ∈ puller.activeQueues, e.2 = q) ∨ q ∈ puller.snapshot

def PointsToQueue (s : HalObjects) (q : ℕ) : Prop :=
  ∃ p puller, s.pullers p = some puller ∧ ScansQueue puller q

/-- A queue, a doorbell or a doorbell call points to the puller. -/
def PointsToPuller (s : HalObjects) (p : ℕ) : Prop :=
  (∃ q queue, s.queues q = some queue ∧ queue.puller = some p) ∨
    (∃ d, s.doorbellCb d = some p) ∨ p ∈ s.ringing

/-- Nobody points to the object that a call frees. -/
structure Unreferenced (s : HalObjects) (a : HalAction) : Prop where
  queue : ∀ q, s.releasedQueue a = some q → ¬s.PointsToQueue q
  puller : ∀ p, s.releasedPuller a = some p → ¬s.PointsToPuller p

/-- The call frees nothing. -/
def FreesNothing (s : HalObjects) (a : HalAction) : Prop :=
  s.releasedQueue a = none ∧ s.releasedPuller a = none

/-- Whatever the program does next, short of freeing more, touches no freed object. -/
def Quiet (s : HalObjects) : Prop :=
  ∀ bs : List HalAction, Guarded step FreesNothing s bs → (run step s bs).fault = false

/-! ### Owners -/

section Tables

variable {table : UInt64 → Option ℕ} {owned owned' : ℕ → Prop}

/-- Exactly the owned objects have a handle, each its own. -/
structure TableOwns (table : UInt64 → Option ℕ) (owned : ℕ → Prop) : Prop where
  owned_iff : ∀ x, owned x ↔ ∃ h, table h = some x
  distinct : ∀ {h h' x}, table h = some x → table h' = some x → h = h'

theorem TableOwns.of_handle (ht : TableOwns table owned) {h : UInt64} {x : ℕ}
    (hx : table h = some x) : owned x :=
  (ht.owned_iff x).mpr ⟨h, hx⟩

theorem TableOwns.congr (ht : TableOwns table owned) (hiff : ∀ x, owned' x ↔ owned x) :
    TableOwns table owned' :=
  ⟨fun x => (hiff x).trans (ht.owned_iff x), ht.distinct⟩

/-- What the handle stood for is let go of. -/
theorem TableOwns.take (ht : TableOwns table owned) (h : UInt64) :
    TableOwns (Function.update table h none) fun x => owned x ∧ table h ≠ some x := by
  have hiff (h' : UInt64) (x : ℕ) :
      Function.update table h none h' = some x ↔ h' ≠ h ∧ table h' = some x := by
    by_cases hh : h' = h
    · rw [hh, Function.update_self]
      simp
    · rw [Function.update_of_ne hh]
      simp [hh]
  refine ⟨fun x => ⟨?_, ?_⟩, fun {h₁ h₂ x} h₁x h₂x => ?_⟩
  · intro hx
    obtain ⟨h', hh'⟩ := (ht.owned_iff x).mp hx.1
    exact ⟨h', (hiff h' x).mpr ⟨fun hh => hx.2 (hh ▸ hh'), hh'⟩⟩
  · intro hx
    obtain ⟨h', hh'⟩ := hx
    have hh' := (hiff h' x).mp hh'
    exact ⟨ht.of_handle hh'.2, fun hold => hh'.1 (ht.distinct hh'.2 hold)⟩
  · exact ht.distinct ((hiff h₁ x).mp h₁x).2 ((hiff h₂ x).mp h₂x).2

theorem TableOwns.enter (ht : TableOwns table owned) (h : UInt64) {a : ℕ} (ha : ¬owned a) :
    TableOwns (Function.update table h (some a))
      fun x => x = a ∨ owned x ∧ table h ≠ some x := by
  have htake := ht.take h
  have hiff (h' : UInt64) (x : ℕ) :
      Function.update table h (some a) h' = some x ↔
        (h' = h ∧ x = a) ∨ Function.update table h none h' = some x := by
    by_cases hh : h' = h
    · rw [hh, Function.update_self, Function.update_self]
      simp [eq_comm]
    · rw [Function.update_of_ne hh, Function.update_of_ne hh]
      simp [hh]
  have hnew {h' : UInt64} (hh' : Function.update table h none h' = some a) : False :=
    ha (htake.of_handle hh').1
  refine ⟨fun x => ⟨?_, ?_⟩, fun {h₁ h₂ x} h₁x h₂x => ?_⟩
  · intro hx
    obtain hx | hx := hx
    · exact ⟨h, (hiff h x).mpr (Or.inl ⟨rfl, hx⟩)⟩
    · obtain ⟨h', hh'⟩ := (htake.owned_iff x).mp hx
      exact ⟨h', (hiff h' x).mpr (Or.inr hh')⟩
  · intro hx
    obtain ⟨h', hh'⟩ := hx
    obtain hh' | hh' := (hiff h' x).mp hh'
    · exact Or.inl hh'.2
    · exact Or.inr (htake.of_handle hh')
  · obtain h₁x | h₁x := (hiff h₁ x).mp h₁x
    · obtain h₂x | h₂x := (hiff h₂ x).mp h₂x
      · rw [h₁x.1, h₂x.1]
      · exact (hnew (h₁x.2 ▸ h₂x)).elim
    · obtain h₂x | h₂x := (hiff h₂ x).mp h₂x
      · exact (hnew (h₂x.2 ▸ h₁x)).elim
      · exact htake.distinct h₁x h₂x

end Tables

/-- The puller is in the table of handles. -/
def Listed (s : HalObjects) (p : ℕ) : Prop :=
  ∃ puller, s.pullers p = some puller ∧ puller.owner = .listed

/-- The `shared_ptr`s: the tables hold the queues and the listed pullers, and addresses are used
once. -/
structure Owned (s : HalObjects) : Prop where
  queue : TableOwns s.queuePtrs fun q => (s.queues q).isSome
  puller : TableOwns s.pullerPtrs s.Listed
  newQueue : ∀ q, s.nextAddress ≤ q → s.queues q = none
  newPuller : ∀ p, s.nextAddress ≤ p → s.pullers p = none

theorem owned_init : init.Owned where
  queue := ⟨fun _ => ⟨nofun, fun ⟨_, h⟩ => nomatch h⟩, nofun⟩
  puller := ⟨fun _ => ⟨fun ⟨_, h⟩ => (nomatch h.1), fun ⟨_, h⟩ => nomatch h⟩, nofun⟩
  newQueue _ _ := rfl
  newPuller _ _ := rfl

/-! ### Calls that neither make nor free an object -/

/-- Every raw pointer leads to an object. -/
structure NoDangling (s : HalObjects) : Prop where
  queue : ∀ q, s.PointsToQueue q → (s.queues q).isSome
  puller : ∀ p, s.PointsToPuller p → (s.pullers p).isSome

theorem noDangling_init : init.NoDangling where
  queue _ h := nomatch h
  puller _ h := by
    obtain ⟨_, _, h, -⟩ | ⟨_, h⟩ | h := h
    · nomatch h
    · nomatch h
    · nomatch h

/-- What such a call does: a pointer that it sets leads to an object. -/
inductive Access (s : HalObjects) : HalObjects → Prop where
  | keep : Access s s
  | queue {q : ℕ} {queue : HalQueue} {p : ℕ} (hq : s.queues q = some queue)
      (hp : (s.pullers p).isSome) : Access s (s.setQueue q { queue with puller := some p })
  | puller {p : ℕ} {puller puller' : HalPuller} (hp : s.pullers p = some puller)
      (howner : puller'.owner = puller.owner)
      (hscans : ∀ q, ScansQueue puller' q → (s.queues q).isSome) : Access s (s.setPuller p puller')
  | ringing {l : List ℕ} (hl : ∀ p ∈ l, s.PointsToPuller p) : Access s { s with ringing := l }

section Access

variable {s s' : HalObjects}

theorem isSome_update {α : Type*} {f : ℕ → Option α} {i : ℕ} {a : α} {j : ℕ}
    (h : (f j).isSome) : (Function.update f i (some a) j).isSome := by
  by_cases hj : j = i
  · rw [hj, Function.update_self]
    rfl
  · rwa [Function.update_of_ne hj]

theorem isSome_update_iff {α : Type*} {f : ℕ → Option α} {i : ℕ} {a b : α} (hi : f i = some b)
    (j : ℕ) : (Function.update f i (some a) j).isSome ↔ (f j).isSome := by
  by_cases hj : j = i
  · rw [hj, Function.update_self, hi]
    exact Iff.rfl
  · rw [Function.update_of_ne hj]

theorem NoDangling.scans (h : s.NoDangling) {p : ℕ} {puller : HalPuller}
    (hp : s.pullers p = some puller) {q : ℕ} (hq : ScansQueue puller q) : (s.queues q).isSome :=
  h.queue q ⟨p, puller, hp, hq⟩

/-- A queue that points to a puller is written. -/
theorem NoDangling.setQueue (h : s.NoDangling) (q : ℕ) {queue : HalQueue}
    (hptr : ∀ p, queue.puller = some p → (s.pullers p).isSome) :
    (s.setQueue q queue).NoDangling where
  queue x hx := isSome_update (h.queue x hx)
  puller p hp := by
    obtain hp | hp := hp
    · obtain ⟨x, other, hx, hother⟩ := hp
      by_cases hxq : x = q
      · rw [hxq] at hx
        simp only [HalObjects.setQueue, Function.update_self, Option.some.injEq] at hx
        exact hptr p (hx ▸ hother)
      · simp only [HalObjects.setQueue, Function.update_of_ne hxq] at hx
        exact h.puller p (Or.inl ⟨x, other, hx, hother⟩)
    · exact h.puller p (Or.inr hp)

/-- A puller that scans queues is written. -/
theorem NoDangling.setPuller (h : s.NoDangling) (p : ℕ) {puller : HalPuller}
    (hscans : ∀ q, ScansQueue puller q → (s.queues q).isSome) :
    (s.setPuller p puller).NoDangling where
  queue q hq := by
    obtain ⟨x, other, hx, hq⟩ := hq
    by_cases hxp : x = p
    · rw [hxp] at hx
      simp only [HalObjects.setPuller, Function.update_self, Option.some.injEq] at hx
      exact hscans q (hx ▸ hq)
    · simp only [HalObjects.setPuller, Function.update_of_ne hxp] at hx
      exact h.scans hx hq
  puller x hx := isSome_update (h.puller x hx)

theorem NoDangling.access (h : s.NoDangling) (ha : Access s s') : s'.NoDangling := by
  cases ha with
  | keep => exact h
  | queue hq hp =>
    refine h.setQueue _ fun p' hp' => ?_
    rw [← Option.some.inj hp']
    exact hp
  | puller hp howner hscans => exact h.setPuller _ hscans
  | ringing hl =>
    refine ⟨h.queue, fun p hp => ?_⟩
    obtain hp | hp | hp := hp
    · exact h.puller p (Or.inl hp)
    · exact h.puller p (Or.inr (Or.inl hp))
    · exact h.puller p (hl p hp)

theorem Access.fault (ha : Access s s') : s'.fault = s.fault := by
  cases ha <;> rfl

theorem listed_setPuller {p : ℕ} {puller puller' : HalPuller} (hp : s.pullers p = some puller)
    (howner : puller'.owner = puller.owner) (x : ℕ) :
    (s.setPuller p puller').Listed x ↔ s.Listed x := by
  unfold Listed HalObjects.setPuller
  by_cases hx : x = p
  · subst hx
    simp only [Function.update_self, hp, Option.some.injEq, exists_eq_left', howner]
  · simp only [Function.update_of_ne hx]

theorem Owned.access (h : s.Owned) (ha : Access s s') : s'.Owned := by
  cases ha with
  | keep => exact h
  | @queue q queue p hq hp =>
    refine ⟨h.queue.congr fun x => isSome_update_iff hq x, h.puller, fun x hx => ?_, h.newPuller⟩
    have hne : x ≠ q := by
      rintro rfl
      rw [h.newQueue x hx] at hq
      nomatch hq
    simp only [HalObjects.setQueue, Function.update_of_ne hne]
    exact h.newQueue x hx
  | @puller p puller puller' hp howner hscans =>
    refine ⟨h.queue, h.puller.congr (listed_setPuller hp howner), h.newQueue, fun x hx => ?_⟩
    have hne : x ≠ p := by
      rintro rfl
      rw [h.newPuller x hx] at hp
      nomatch hp
    simp only [HalObjects.setPuller, Function.update_of_ne hne]
    exact h.newPuller x hx
  | ringing hl => exact ⟨h.queue, h.puller, h.newQueue, h.newPuller⟩

/-! Each call, one after the other. -/

theorem access_usePuller {p : ℕ} (hp : (s.pullers p).isSome) : Access s (s.usePuller p) := by
  rw [usePuller, if_pos hp]
  exact .keep

theorem access_queueSubmit (hO : s.Owned) (h : s.NoDangling) (handle : UInt64) :
    Access s (s.queueSubmit handle) := by
  unfold queueSubmit
  split
  · exact .keep
  · rename_i q hq
    have hlive := hO.queue.of_handle hq
    split
    · rename_i hdead
      rw [hdead] at hlive
      nomatch hlive
    · rename_i queue hqueue
      split
      · exact .keep
      · rename_i p hp
        exact access_usePuller (h.puller p (Or.inl ⟨q, queue, hqueue, hp⟩))

theorem Owned.listed_of_findPuller (hO : s.Owned) {handle : UInt64} {p : ℕ}
    (hp : s.findPuller handle = some p) :
    ∃ puller, s.pullers p = some puller ∧ puller.owner = .listed := by
  rw [findPuller] at hp
  split at hp
  · nomatch hp
  · exact hO.puller.of_handle hp

theorem access_queueRegisterPuller (hO : s.Owned) (queueHandle pullerHandle : UInt64) :
    Access s (s.queueRegisterPuller queueHandle pullerHandle) := by
  unfold queueRegisterPuller
  split
  · rename_i q p hq hp
    have hlive := hO.queue.of_handle hq
    obtain ⟨puller, hpuller, -⟩ := hO.listed_of_findPuller hp
    split
    · rename_i hdead
      rw [hdead] at hlive
      nomatch hlive
    · rename_i queue hqueue
      exact .queue hqueue (by rw [hpuller]; rfl)
  · exact .keep

theorem mem_registerQueue {queueId : UInt32} {q : ℕ} {active : List (UInt32 × ℕ)}
    {e : UInt32 × ℕ} (he : e ∈ registerQueue queueId q active) :
    e = (queueId, q) ∨ e ∈ active := by
  rw [registerQueue, List.mem_orderedInsert] at he
  exact he.imp_right List.mem_of_mem_filter

theorem access_pullerRegisterQueue (hO : s.Owned) (h : s.NoDangling)
    (pullerHandle queueHandle : UInt64) :
    Access s (s.pullerRegisterQueue pullerHandle queueHandle) := by
  unfold pullerRegisterQueue
  split
  · exact .keep
  · split
    · rename_i p q hp hq
      obtain ⟨puller, hpuller, -⟩ := hO.listed_of_findPuller hp
      obtain ⟨queue, hqueue⟩ := Option.isSome_iff_exists.mp (hO.queue.of_handle hq)
      simp only [hpuller, hqueue]
      refine .puller hpuller rfl fun x hx => ?_
      obtain ⟨e, he, rfl⟩ | hx := hx
      · obtain rfl | he := mem_registerQueue he
        · rw [hqueue]
          rfl
        · exact h.scans hpuller (Or.inl ⟨e, he, rfl⟩)
      · exact h.scans hpuller (Or.inr hx)
    · exact .keep

theorem access_pullerUnregisterQueue (hO : s.Owned) (h : s.NoDangling) (handle : UInt64)
    (queueId : UInt32) : Access s (s.pullerUnregisterQueue handle queueId) := by
  unfold pullerUnregisterQueue
  split
  · exact .keep
  · rename_i p hp
    obtain ⟨puller, hpuller, -⟩ := hO.listed_of_findPuller hp
    simp only [hpuller]
    refine .puller hpuller rfl fun x hx => h.scans hpuller ?_
    exact hx.imp_left fun ⟨e, he, hex⟩ => ⟨e, List.mem_of_mem_filter he, hex⟩

theorem access_scanStart (h : s.NoDangling) (p : ℕ) : Access s (s.scanStart p) := by
  unfold scanStart
  split
  · exact .keep
  · rename_i puller hp
    split
    · refine .puller hp rfl fun x hx => h.scans hp (Or.inl ?_)
      obtain hx | hx := hx
      · exact hx
      · exact List.mem_map.mp hx
    · exact .keep

theorem access_scanNext (h : s.NoDangling) (p : ℕ) (pending : Bool) :
    Access s (s.scanNext p pending) := by
  unfold scanNext
  split
  · exact .keep
  · rename_i puller hp
    split
    · exact .keep
    · rename_i q rest hsnap
      have hmem (x : ℕ) (hx : x ∈ q :: rest) : (s.queues x).isSome :=
        h.scans hp (Or.inr (hsnap ▸ hx))
      split
      · exact .keep
      · rw [if_pos (hmem q List.mem_cons_self)]
        refine .puller hp rfl fun x hx => ?_
        obtain hx | hx := hx
        · exact h.scans hp (Or.inl hx)
        · cases pending with
          | true => exact hmem x hx
          | false => exact hmem x (List.mem_cons_of_mem q hx)

theorem access_scanTake (h : s.NoDangling) (p : ℕ) (taken : Bool) :
    Access s (s.scanTake p taken) := by
  unfold scanTake
  split
  · exact .keep
  · rename_i puller hp
    split
    · exact .keep
    · rename_i q rest hsnap
      have hmem (x : ℕ) (hx : x ∈ q :: rest) : (s.queues x).isSome :=
        h.scans hp (Or.inr (hsnap ▸ hx))
      split
      · exact .keep
      · rw [if_pos (hmem q List.mem_cons_self)]
        refine .puller hp rfl fun x hx => ?_
        obtain hx | hx := hx
        · exact h.scans hp (Or.inl hx)
        · cases taken with
          | true => exact absurd hx List.not_mem_nil
          | false => exact hmem x (List.mem_cons_of_mem q hx)

theorem access_doorbellWrite (s : HalObjects) (doorbell : ℕ) :
    Access s (s.doorbellWrite doorbell) := by
  refine .ringing fun p hp => ?_
  obtain hp | hp := List.mem_append.mp hp
  · exact Or.inr (Or.inl ⟨doorbell, Option.mem_toList.mp hp⟩)
  · exact Or.inr (Or.inr hp)

theorem access_onDoorbell (h : s.NoDangling) (call : ℕ) (last : Bool) :
    Access s (s.onDoorbell call last) := by
  unfold onDoorbell
  split
  · exact .keep
  · rename_i p hp
    rw [if_pos (h.puller p (Or.inr (Or.inr (List.mem_of_getElem? hp))))]
    refine .ringing fun x hx => Or.inr (Or.inr ?_)
    cases last with
    | true => exact List.mem_of_mem_eraseIdx hx
    | false => exact hx

end Access

/-! ### Calls that make, hand over or free an object -/

section Step

variable {s : HalObjects}

theorem isSome_free_iff {α : Type*} {f : ℕ → Option α} {ptr : Option ℕ} (x : ℕ) :
    (if ptr = some x then none else f x).isSome ↔ (f x).isSome ∧ ptr ≠ some x := by
  split
  · simp [*]
  · simp [*]

/-- Freeing a queue leaves no pointer dangling exactly when none leads to it. -/
theorem noDangling_freeQueue_iff (h : s.NoDangling) (ptr : Option ℕ) :
    (s.freeQueue ptr).NoDangling ↔ ∀ q, ptr = some q → ¬s.PointsToQueue q := by
  constructor
  · intro h' q hq hptr
    exact ((isSome_free_iff q).mp (h'.queue q hptr)).2 hq
  · intro hfree
    refine ⟨fun q hq => (isSome_free_iff q).mpr ⟨h.queue q hq, fun hptr => hfree q hptr hq⟩,
      fun p hp => h.puller p (hp.imp_left fun ⟨q, queue, hq, hp⟩ => ⟨q, queue, ?_, hp⟩)⟩
    simp only [freeQueue] at hq
    split at hq
    · nomatch hq
    · exact hq

theorem noDangling_freePuller_iff (h : s.NoDangling) (ptr : Option ℕ) :
    (s.freePuller ptr).NoDangling ↔ ∀ p, ptr = some p → ¬s.PointsToPuller p := by
  constructor
  · intro h' p hp hptr
    exact ((isSome_free_iff p).mp (h'.puller p hptr)).2 hp
  · intro hfree
    refine ⟨fun q hq => ?_,
      fun p hp => (isSome_free_iff p).mpr ⟨h.puller p hp, fun hptr => hfree p hptr hp⟩⟩
    obtain ⟨p, puller, hp, hq⟩ := hq
    simp only [freePuller] at hp
    split at hp
    · nomatch hp
    · exact h.scans hp hq

@[simp] theorem freeQueue_none (s : HalObjects) : s.freeQueue none = s := by
  simp [freeQueue]

@[simp] theorem freePuller_none (s : HalObjects) : s.freePuller none = s := by
  simp [freePuller]

theorem step_eq_freeQueue {a : HalAction} (ha : s.releasedPuller a = none) :
    s.step a = (s.call a).freeQueue (s.releasedQueue a) := by
  rw [step, ha, freePuller_none]

theorem step_eq_freePuller {a : HalAction} (ha : s.releasedQueue a = none) :
    s.step a = (s.call a).freePuller (s.releasedPuller a) := by
  rw [step, ha, freeQueue_none]

theorem step_eq_call {a : HalAction} (hq : s.releasedQueue a = none)
    (hp : s.releasedPuller a = none) : s.step a = s.call a := by
  rw [step_eq_freeQueue hp, hq, freeQueue_none]

theorem not_scansQueue_new {owner : PullerOwner} (q : ℕ) :
    ¬ScansQueue ⟨owner, [], [], false⟩ q := by
  simp [ScansQueue]

theorem noDangling_queueCreate (h : s.NoDangling) (queueId : UInt32) :
    (s.queueCreate queueId).NoDangling := by
  have hptr (p : ℕ) (hp : (⟨queueId, none⟩ : HalQueue).puller = some p) :
      (s.pullers p).isSome := nomatch hp
  have hnew := h.setQueue s.nextAddress hptr
  exact ⟨hnew.queue, hnew.puller⟩

theorem noDangling_pullerConstruct (h : s.NoDangling) (doorbell : ℕ) :
    (s.pullerConstruct doorbell).NoDangling := by
  have hscans (q : ℕ) (hq : ScansQueue ⟨.creating, [], [], false⟩ q) : (s.queues q).isSome :=
    absurd hq (not_scansQueue_new q)
  have hnew := h.setPuller s.nextAddress hscans
  refine ⟨hnew.queue, fun p hp => ?_⟩
  obtain hp | ⟨d, hp⟩ | hp := hp
  · exact hnew.puller p (Or.inl hp)
  · by_cases hd : d = doorbell
    · subst hd
      simp only [pullerConstruct, Function.update_self, Option.some.injEq] at hp
      subst hp
      simp only [pullerConstruct, HalObjects.setPuller, Function.update_self]
      rfl
    · simp only [pullerConstruct, Function.update_of_ne hd] at hp
      exact hnew.puller p (Or.inr (Or.inl ⟨d, hp⟩))
  · exact hnew.puller p (Or.inr (Or.inr hp))

/-- A puller that changes hands. -/
theorem NoDangling.handOver (h : s.NoDangling) {p : ℕ} {puller : HalPuller}
    (hp : s.pullers p = some puller) (owner : PullerOwner) :
    (s.setPuller p { puller with owner }).NoDangling :=
  h.setPuller p fun _ hq => h.scans hp hq

theorem pullers_of_entering {p : ℕ} {puller : HalPuller} (hp : s.entering p = some puller) :
    s.pullers p = some puller ∧ puller.owner = .creating := by
  rw [entering, Option.filter_eq_some_iff] at hp
  exact ⟨hp.1, by simpa using (Bool.and_eq_true_iff.mp hp.2).1⟩

/-- Before it frees anything, a call leaves no pointer dangling, and goes through none. -/
theorem noDangling_call (hO : s.Owned) (h : s.NoDangling) (a : HalAction) :
    (s.call a).NoDangling ∧ (s.call a).fault = s.fault := by
  have haccess {s' : HalObjects} (ha : Access s s') : s'.NoDangling ∧ s'.fault = s.fault :=
    ⟨h.access ha, ha.fault⟩
  cases a with
  | queueCreate queueId => exact ⟨noDangling_queueCreate h queueId, rfl⟩
  | queueDestroy handle => exact ⟨⟨h.queue, h.puller⟩, rfl⟩
  | queueSubmit handle => exact haccess (access_queueSubmit hO h handle)
  | queueRegisterPuller queueHandle pullerHandle =>
    exact haccess (access_queueRegisterPuller hO queueHandle pullerHandle)
  | pullerConstruct doorbell => exact ⟨noDangling_pullerConstruct h doorbell, rfl⟩
  | pullerEnter p =>
    simp only [call, pullerEnter]
    split
    · exact ⟨h, rfl⟩
    · rename_i puller hp
      have hnext := h.handOver (pullers_of_entering hp).1 .listed
      exact ⟨⟨hnext.queue, hnext.puller⟩, rfl⟩
  | pullerTake handle =>
    simp only [call, pullerTake]
    split
    · exact ⟨h, rfl⟩
    · rename_i p hp
      obtain ⟨puller, hpuller, -⟩ := hO.listed_of_findPuller hp
      have hnext := h.handOver hpuller .destroying
      simp only [hpuller]
      exact ⟨⟨hnext.queue, hnext.puller⟩, rfl⟩
  | pullerFree p => exact ⟨h, rfl⟩
  | pullerRegisterQueue pullerHandle queueHandle =>
    exact haccess (access_pullerRegisterQueue hO h pullerHandle queueHandle)
  | pullerUnregisterQueue handle queueId =>
    exact haccess (access_pullerUnregisterQueue hO h handle queueId)
  | scanStart p => exact haccess (access_scanStart h p)
  | scanNext p pending => exact haccess (access_scanNext h p pending)
  | scanTake p taken => exact haccess (access_scanTake h p taken)
  | doorbellWrite doorbell => exact haccess (access_doorbellWrite s doorbell)
  | onDoorbell call last => exact haccess (access_onDoorbell h call last)

theorem owned_queueCreate (hO : s.Owned) (queueId : UInt32) :
    (s.step (.queueCreate queueId)).Owned := by
  have hnone := hO.newQueue s.nextAddress (Nat.le_refl _)
  have hnew : ¬(s.queues s.nextAddress).isSome := by
    rw [hnone]
    exact Bool.false_ne_true
  have hold : s.queuePtrs (newHandle s.nextQueueHandle) ≠ some s.nextAddress :=
    fun h => hnew (hO.queue.of_handle h)
  rw [step_eq_freeQueue rfl]
  refine ⟨(hO.queue.enter _ hnew).congr fun x => ?_, hO.puller, fun x hx => ?_,
    fun x hx => hO.newPuller x (Nat.le_of_succ_le hx)⟩
  · refine (isSome_free_iff x).trans ?_
    show (Function.update s.queues s.nextAddress _ x).isSome ∧ _ ↔ _
    by_cases hx : x = s.nextAddress
    · rw [hx, Function.update_self]
      exact iff_of_true ⟨rfl, hold⟩ (Or.inl rfl)
    · rw [Function.update_of_ne hx]
      exact ⟨Or.inr, fun h => h.resolve_left hx⟩
  · show (if _ then none else Function.update s.queues s.nextAddress _ x) = none
    rw [Function.update_of_ne (Nat.ne_of_gt hx), hO.newQueue x (Nat.le_of_succ_le hx), ite_self]

theorem owned_queueDestroy (hO : s.Owned) (handle : UInt64) :
    (s.step (.queueDestroy handle)).Owned := by
  rw [step_eq_freeQueue rfl]
  refine ⟨(hO.queue.take handle).congr fun x => isSome_free_iff x, hO.puller, fun x hx => ?_,
    hO.newPuller⟩
  show (if _ then none else s.queues x) = none
  rw [hO.newQueue x hx, ite_self]

theorem owned_pullerConstruct (hO : s.Owned) (doorbell : ℕ) :
    (s.step (.pullerConstruct doorbell)).Owned := by
  have hnone := hO.newPuller s.nextAddress (Nat.le_refl _)
  rw [step_eq_call rfl rfl]
  refine ⟨hO.queue, hO.puller.congr fun x => ?_,
    fun x hx => hO.newQueue x (Nat.le_of_succ_le hx), fun x hx => ?_⟩
  · show (∃ puller, Function.update s.pullers s.nextAddress _ x = some puller ∧ _) ↔ _
    by_cases hx : x = s.nextAddress
    · rw [hx, Function.update_self, Listed, hnone]
      simp
    · rw [Function.update_of_ne hx]
      exact Iff.rfl
  · show Function.update s.pullers s.nextAddress _ x = none
    rw [Function.update_of_ne (Nat.ne_of_gt hx)]
    exact hO.newPuller x (Nat.le_of_succ_le hx)

/-- The listed pullers after one has changed hands and another may have been freed. -/
theorem listed_handOver {p : ℕ} (puller : HalPuller) (ptr : Option ℕ) (hptr : ptr ≠ some p)
    (x : ℕ) : ((s.setPuller p puller).freePuller ptr).Listed x ↔
      (x = p ∧ puller.owner = .listed) ∨ (x ≠ p ∧ s.Listed x ∧ ptr ≠ some x) := by
  show (∃ other, (if ptr = some x then none else Function.update s.pullers p (some puller) x) =
    some other ∧ _) ↔ _
  by_cases hx : x = p
  · subst hx
    rw [if_neg hptr, Function.update_self]
    simp
  · rw [Function.update_of_ne hx]
    split
    · simp [*]
    · simp [*, Listed]

theorem newPuller_handOver (hO : s.Owned) {p : ℕ} {puller : HalPuller}
    (hp : s.pullers p = some puller) (puller' : HalPuller) (ptr : Option ℕ) (x : ℕ)
    (hx : s.nextAddress ≤ x) :
    ((s.setPuller p puller').freePuller ptr).pullers x = none := by
  have hne : x ≠ p := by
    rintro rfl
    rw [hO.newPuller x hx] at hp
    nomatch hp
  show (if _ then none else Function.update s.pullers p _ x) = none
  rw [Function.update_of_ne hne, hO.newPuller x hx, ite_self]

theorem owned_pullerEnter (hO : s.Owned) (p : ℕ) : (s.step (.pullerEnter p)).Owned := by
  rw [step_eq_freePuller rfl]
  simp only [releasedPuller, call, pullerEnter]
  cases hp : s.entering p with
  | none =>
    rw [Option.isSome_none, if_neg Bool.false_ne_true, freePuller_none]
    exact hO
  | some puller =>
    obtain ⟨hpuller, howner⟩ := pullers_of_entering hp
    have hnew : ¬s.Listed p := by
      intro hlisted
      obtain ⟨other, hother, hlisted⟩ := hlisted
      rw [hpuller, Option.some.injEq] at hother
      rw [← hother, howner] at hlisted
      nomatch hlisted
    have hold : s.pullerPtrs (newHandle s.nextPullerHandle) ≠ some p :=
      fun h => hnew (hO.puller.of_handle h)
    rw [Option.isSome_some, if_pos rfl]
    refine ⟨hO.queue, (hO.puller.enter _ hnew).congr fun x => ?_, hO.newQueue,
      newPuller_handOver hO hpuller _ _⟩
    refine (listed_handOver _ _ hold x).trans ?_
    by_cases hx : x = p
    · simp [hx]
    · simp [hx]

theorem owned_pullerTake (hO : s.Owned) (handle : UInt64) :
    (s.step (.pullerTake handle)).Owned := by
  rw [step_eq_call rfl rfl]
  simp only [call, pullerTake]
  cases hp : s.findPuller handle with
  | none => exact hO
  | some p =>
    obtain ⟨puller, hpuller, -⟩ := hO.listed_of_findPuller hp
    have hptr : s.pullerPtrs handle = some p := by
      rw [findPuller] at hp
      split at hp
      · nomatch hp
      · exact hp
    have hnone : (none : Option ℕ) ≠ some p := nofun
    simp only [hpuller]
    refine ⟨hO.queue, (hO.puller.take handle).congr fun x => ?_, hO.newQueue, fun x hx => ?_⟩
    · have hlisted := listed_handOver (s := s) { puller with owner := .destroying } none hnone x
      rw [freePuller_none] at hlisted
      refine hlisted.trans ?_
      rw [hptr]
      by_cases hx : x = p
      · simp [hx]
      · simp [hx, Ne.symm hx]
    · have hfresh := newPuller_handOver hO hpuller { puller with owner := .destroying } none x hx
      rwa [freePuller_none] at hfresh

theorem owned_pullerFree (hO : s.Owned) (p : ℕ) : (s.step (.pullerFree p)).Owned := by
  rw [step_eq_freePuller rfl]
  simp only [releasedPuller, call]
  split
  · rw [freePuller_none]
    exact hO
  · rename_i puller hp
    split
    · rename_i hdone
      refine ⟨hO.queue, hO.puller.congr fun x => ?_, hO.newQueue, fun x hx => ?_⟩
      · show (∃ other, (if some p = some x then none else s.pullers x) = some other ∧ _) ↔ _
        split
        · rename_i hx
          rw [Option.some.injEq] at hx
          subst hx
          simp [Listed, hp, hdone.1]
        · exact Iff.rfl
      · show (if _ then none else s.pullers x) = none
        rw [hO.newPuller x hx, ite_self]
    · rw [freePuller_none]
      exact hO

theorem owned_step (hO : s.Owned) (h : s.NoDangling) (a : HalAction) : (s.step a).Owned := by
  have haccess {a : HalAction} (hq : s.releasedQueue a = none) (hp : s.releasedPuller a = none)
      (ha : Access s (s.call a)) : (s.step a).Owned := by
    rw [step_eq_call hq hp]
    exact hO.access ha
  cases a with
  | queueCreate queueId => exact owned_queueCreate hO queueId
  | queueDestroy handle => exact owned_queueDestroy hO handle
  | queueSubmit handle => exact haccess rfl rfl (access_queueSubmit hO h handle)
  | queueRegisterPuller queueHandle pullerHandle =>
    exact haccess rfl rfl (access_queueRegisterPuller hO queueHandle pullerHandle)
  | pullerConstruct doorbell => exact owned_pullerConstruct hO doorbell
  | pullerEnter p => exact owned_pullerEnter hO p
  | pullerTake handle => exact owned_pullerTake hO handle
  | pullerFree p => exact owned_pullerFree hO p
  | pullerRegisterQueue pullerHandle queueHandle =>
    exact haccess rfl rfl (access_pullerRegisterQueue hO h pullerHandle queueHandle)
  | pullerUnregisterQueue handle queueId =>
    exact haccess rfl rfl (access_pullerUnregisterQueue hO h handle queueId)
  | scanStart p => exact haccess rfl rfl (access_scanStart h p)
  | scanNext p pending => exact haccess rfl rfl (access_scanNext h p pending)
  | scanTake p taken => exact haccess rfl rfl (access_scanTake h p taken)
  | doorbellWrite doorbell => exact haccess rfl rfl (access_doorbellWrite s doorbell)
  | onDoorbell call last => exact haccess rfl rfl (access_onDoorbell h call last)

/-- A call that makes or hands over an object leaves the raw pointers to the others alone. -/
theorem pointsToQueue_call_iff {a : HalAction} {q : ℕ} (hq : s.releasedQueue a = some q) :
    (s.call a).PointsToQueue q ↔ s.PointsToQueue q := by
  cases a with
  | queueCreate queueId => exact Iff.rfl
  | queueDestroy handle => exact Iff.rfl
  | _ => nomatch hq

theorem pointsToPuller_call_iff {a : HalAction} {p : ℕ} (hp : s.releasedPuller a = some p) :
    (s.call a).PointsToPuller p ↔ s.PointsToPuller p := by
  cases a with
  | pullerEnter x =>
    simp only [call, pullerEnter]
    split <;> exact Iff.rfl
  | pullerFree x => exact Iff.rfl
  | _ => nomatch hp

/-- **One call.**  It leaves no pointer dangling exactly when nobody points to what it frees. -/
theorem noDangling_step_iff (hO : s.Owned) (h : s.NoDangling) (a : HalAction) :
    (s.step a).NoDangling ↔ s.Unreferenced a := by
  have hcall := (noDangling_call hO h a).1
  have hsplit : s.Unreferenced a ↔
      (∀ q, s.releasedQueue a = some q → ¬(s.call a).PointsToQueue q) ∧
        ∀ p, s.releasedPuller a = some p → ¬(s.call a).PointsToPuller p := by
    constructor
    · intro hfree
      exact ⟨fun q hq => (pointsToQueue_call_iff hq).not.mpr (hfree.queue q hq),
        fun p hp => (pointsToPuller_call_iff hp).not.mpr (hfree.puller p hp)⟩
    · intro hfree
      exact ⟨fun q hq => (pointsToQueue_call_iff hq).not.mp (hfree.1 q hq),
        fun p hp => (pointsToPuller_call_iff hp).not.mp (hfree.2 p hp)⟩
  rw [hsplit]
  -- no call frees both a queue and a puller
  by_cases hnone : s.releasedPuller a = none
  · rw [step_eq_freeQueue hnone, hnone, noDangling_freeQueue_iff hcall]
    exact ⟨fun hq => ⟨hq, nofun⟩, fun hboth => hboth.1⟩
  · have hqueue : s.releasedQueue a = none := by
      cases a with
      | queueCreate queueId => exact absurd rfl hnone
      | queueDestroy handle => exact absurd rfl hnone
      | _ => rfl
    rw [step_eq_freePuller hqueue, hqueue, noDangling_freePuller_iff hcall]
    exact ⟨fun hp => ⟨nofun, hp⟩, fun hboth => hboth.2⟩

theorem fault_step (hO : s.Owned) (h : s.NoDangling) (a : HalAction) :
    (s.step a).fault = s.fault :=
  (noDangling_call hO h a).2

end Step

/-! ### A dangling pointer can be followed -/

section Quiet

variable {s : HalObjects}

theorem NoDangling.quiet (hO : s.Owned) (h : s.NoDangling) (hfault : s.fault = false) :
    s.Quiet := by
  intro bs hbs
  induction bs generalizing s with
  | nil => exact hfault
  | cons b bs ih =>
    have hfree : s.Unreferenced b :=
      ⟨fun q hq => absurd (hbs.1.1.symm.trans hq) nofun,
        fun p hp => absurd (hbs.1.2.symm.trans hp) nofun⟩
    exact ih (owned_step hO h b) ((noDangling_step_iff hO h b).mpr hfree)
      ((fault_step hO h b).trans hfault) hbs.2

theorem Quiet.fault (h : s.Quiet) : s.fault = false := h [] trivial

theorem Quiet.step (h : s.Quiet) {a : HalAction} (ha : s.FreesNothing a) :
    (HalObjects.step s a).Quiet := fun bs hbs => h (a :: bs) ⟨ha, hbs⟩

/-- A quiet state after a call that frees nothing. -/
theorem Quiet.call (h : s.Quiet) {a : HalAction} (hq : s.releasedQueue a = none)
    (hp : s.releasedPuller a = none) : (s.call a).Quiet := by
  rw [← step_eq_call hq hp]
  exact h.step ⟨hq, hp⟩

/-- The next queue of a scan exists, and the scan can go on without an entry of it. -/
theorem Quiet.head (h : s.Quiet) {p q : ℕ} {puller : HalPuller} {rest : List ℕ}
    (hp : s.pullers p = some puller) (hsnap : puller.snapshot = q :: rest) :
    (s.queues q).isSome ∧
      (s.setPuller p { puller with snapshot := rest, taking := false }).Quiet := by
  cases htaking : puller.taking with
  | false =>
    have hnext := h.call (a := .scanNext p false) rfl rfl
    simp only [HalObjects.call, scanNext, hp, hsnap, htaking, Bool.false_eq_true, if_false]
      at hnext
    split at hnext
    · rename_i hlive
      exact ⟨hlive, hnext⟩
    · nomatch hnext.fault
  | true =>
    have hnext := h.call (a := .scanTake p false) rfl rfl
    simp only [HalObjects.call, scanTake, hp, hsnap, htaking, Bool.not_true,
      Bool.false_eq_true, if_false] at hnext
    split at hnext
    · rename_i hlive
      exact ⟨hlive, hnext⟩
    · nomatch hnext.fault

/-- A quiet scan finds the queues of its copy, one after the other, and then those of the table. -/
theorem Quiet.scans (h : s.Quiet) {p : ℕ} {puller : HalPuller} (hp : s.pullers p = some puller) :
    ∀ q, ScansQueue puller q → (s.queues q).isSome := by
  -- one scan, by induction on what it has not visited
  have hscan {s : HalObjects} (h : s.Quiet) {puller : HalPuller}
      (hp : s.pullers p = some puller) : (∀ q ∈ puller.snapshot, (s.queues q).isSome) ∧
        ∃ taking, (s.setPuller p { puller with snapshot := [], taking }).Quiet := by
    generalize hsnap : puller.snapshot = snapshot
    induction snapshot generalizing s puller with
    | nil =>
      refine ⟨fun q hq => absurd hq List.not_mem_nil, puller.taking, ?_⟩
      rw [HalObjects.setPuller, ← hsnap, Function.update_eq_self_iff.mpr hp.symm]
      exact h
    | cons x rest ih =>
      obtain ⟨hlive, hnext⟩ := h.head hp hsnap
      obtain ⟨hrest, taking, hend⟩ := ih hnext (Function.update_self ..) rfl
      refine ⟨fun q hq => ?_, taking, ?_⟩
      · obtain rfl | hq := List.mem_cons.mp hq
        · exact hlive
        · exact hrest q hq
      · simp only [HalObjects.setPuller, Function.update_idem] at hend
        exact hend
  obtain ⟨hcopy, taking, hidle⟩ := hscan h hp
  intro q hq
  obtain ⟨e, he, rfl⟩ | hq := hq
  · -- the scan in hand is over, and the next one copies the table
    have hnext := hidle.call (a := .scanStart p) rfl rfl
    simp only [HalObjects.call, scanStart, HalObjects.setPuller, Function.update_self, if_true]
      at hnext
    exact (hscan hnext (Function.update_self ..)).1 e.2 (List.mem_map.mpr ⟨e, he, rfl⟩)
  · exact hcopy q hq

theorem isSome_of_usePuller {p : ℕ} (h : (s.usePuller p).Quiet) : (s.pullers p).isSome := by
  by_contra hdead
  rw [usePuller, if_neg hdead] at h
  nomatch h.fault

theorem Quiet.ringing (h : s.Quiet) {p : ℕ} (hp : p ∈ s.ringing) : (s.pullers p).isSome := by
  obtain ⟨call, hcall⟩ := List.getElem?_of_mem hp
  have hnext := h.call (a := .onDoorbell call true) rfl rfl
  simp only [HalObjects.call, onDoorbell, hcall] at hnext
  split at hnext
  · assumption
  · nomatch hnext.fault

theorem Quiet.noDangling (hO : s.Owned) (h : s.Quiet) : s.NoDangling where
  queue q hq := by
    obtain ⟨p, puller, hp, hq⟩ := hq
    exact h.scans hp q hq
  puller p hp := by
    obtain hp | ⟨d, hp⟩ | hp := hp
    · obtain ⟨q, queue, hqueue, hp⟩ := hp
      obtain ⟨handle, hhandle⟩ := (hO.queue.owned_iff q).mp (by rw [hqueue]; rfl)
      have hnext := h.call (a := .queueSubmit handle) rfl rfl
      simp only [HalObjects.call, queueSubmit, hhandle, hqueue, hp] at hnext
      exact isSome_of_usePuller hnext
    · have hnext := h.call (a := .doorbellWrite d) rfl rfl
      simp only [HalObjects.call, doorbellWrite, hp] at hnext
      exact hnext.ringing List.mem_cons_self
    · exact h.ringing hp

end Quiet

end HalObjects

/-- **When a queue or a puller may be freed.**  Along a run of HAL calls, scans and doorbells, in
any interleaving, no call or access that may follow a state touches a freed object, exactly when no
queue is destroyed or loses its handle that a puller still has in its table or in the scan in hand,
and no puller that a queue, a doorbell or a doorbell call still points to. -/
theorem halObjects_safe_iff (as : List HalAction) :
    Always HalObjects.step HalObjects.Quiet HalObjects.init as ↔
      Guarded HalObjects.step HalObjects.Unreferenced HalObjects.init as := by
  refine always_iff_guarded (I := fun s => s.Owned ∧ s.NoDangling ∧ s.fault = false)
    (fun s a hs ha => ?_) (fun s hs => HalObjects.NoDangling.quiet hs.1 hs.2.1 hs.2.2)
    (fun s a hs hnext => ?_) as
    ⟨HalObjects.owned_init, HalObjects.noDangling_init, rfl⟩
  · obtain ⟨hO, hdangling, hfault⟩ := hs
    exact ⟨HalObjects.owned_step hO hdangling a,
      (HalObjects.noDangling_step_iff hO hdangling a).mpr ha,
      (HalObjects.fault_step hO hdangling a).trans hfault⟩
  · obtain ⟨hO, hdangling, -⟩ := hs
    exact (HalObjects.noDangling_step_iff hO hdangling a).mp
      (hnext.noDangling (HalObjects.owned_step hO hdangling a))

/-- Taking a queue out of the table does not end the scan that has copied it. -/
example : (run HalObjects.step HalObjects.init
    [.queueCreate 1, .pullerConstruct 0, .pullerEnter 1, .pullerRegisterQueue 1 1, .scanStart 1,
      .pullerUnregisterQueue 1 1, .queueDestroy 1, .scanNext 1 false]).fault = true := rfl

/-- A doorbell still calls a puller that has been destroyed. -/
example : (run HalObjects.step HalObjects.init
    [.pullerConstruct 0, .pullerEnter 0, .pullerTake 1, .pullerFree 0, .doorbellWrite 0,
      .onDoorbell 0 true]).fault = true := rfl

end UsrLinuxEmu.GpuDriver
