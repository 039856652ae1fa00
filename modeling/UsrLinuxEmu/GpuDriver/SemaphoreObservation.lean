import UsrLinuxEmu.GpuDriver.HalFences
import UsrLinuxEmu.Transition.Simulation

/-!
# What timeline semaphores show (`sim/semaphore_manager.cpp`, `hal/hal_user.cpp`)

`query` answers `UINT64_MAX` for an invalid handle, and the HAL takes that value for an error; a
destroyed semaphore hands its waiters their own `user_data` where a signal hands them the value.

* `halSemQuery` — the HAL's query; `destructorCalls` — the callbacks of the manager's destructor;
* `SemObserver` — what was put in and what came out: the highest value of each semaphore, the
  accepted waits, the calls of their callbacks;
* `ObservationsTrue` — queries answer with the highest value, and a callback gets a value that its
  waiter expects exactly when the semaphore has reached it;
* `sem_observation_iff` — the runs in which that holds.
-/

namespace UsrLinuxEmu.GpuDriver

open UsrLinuxEmu.Transition

/-! ### The observations -/

/-- The value that `query` answers for an invalid handle. -/
def queryError : UInt64 := UInt64.ofNat (UInt64.size - 1)

def HalFenceContext.halSemQuery (c : HalFenceContext) (handle : UInt64) : Except Int UInt64 :=
  match c.semMgr with
  | none => .error (-eNODEV)
  | some m =>
    let val := m.query handle
    if val = queryError then .error (-eINVAL) else .ok val

/-- The calls that `~SemaphoreManager` makes for one semaphore. -/
def SemaphoreManager.destructorCalls (m : SemaphoreManager) (handle : UInt64) :
    List (ℕ × UInt64) :=
  SemaphoreManager.invoke (fun _ => 0) (m.waitersAt handle)

/-- A wait with a callback that the manager accepted. -/
structure SemWait where
  ticket : ℕ
  handle : UInt64
  expected : UInt64
  deriving DecidableEq, Repr

/-- The highest value of each semaphore, which were destroyed, and the callbacks. -/
structure SemObserver where
  peak : UInt64 → Option UInt64
  gone : UInt64 → Bool
  waits : List SemWait
  received : List (ℕ × UInt64)

namespace SemObserver

def empty : SemObserver := ⟨fun _ => none, fun _ => false, [], []⟩

/-- The higher of a semaphore's peak and an accepted value. -/
def raise (peak : Option UInt64) (value : UInt64) : UInt64 :=
  match peak with
  | some p => if p < value then value else p
  | none => value

/-- What the outcome `r` of an operation adds. -/
def record (g : SemObserver) (ticket : ℕ) (r : SemResult) : SemOp → SemObserver
  | .create initial => { g with
      peak := Function.update g.peak r.handle (some initial)
      gone := Function.update g.gone r.handle false }
  | .signal handle value =>
    if r.ret = 0 then { g with
      peak := Function.update g.peak handle (some (raise (g.peak handle) value))
      received := r.calls ++ g.received }
    else g
  | .wait handle expected hasCallback _ =>
    if r.ret = 0 ∧ hasCallback then { g with
      waits := ⟨ticket, handle, expected⟩ :: g.waits
      received := r.calls ++ g.received }
    else g
  | .destroy handle =>
    if r.ret = 0 then { g with
      gone := Function.update g.gone handle true
      received := r.calls ++ g.received }
    else g

def note (g : SemObserver) (s : SemSystem) (op : SemOp) : SemObserver :=
  g.record s.tickets (SemSystem.perform s.mgr s.tickets op) op

/-- The semaphore was created and is not destroyed. -/
def live (g : SemObserver) (handle : UInt64) : Option UInt64 :=
  if g.gone handle then none else g.peak handle

/-- The semaphore has reached the value that the waiter expects. -/
def reached (g : SemObserver) (w : SemWait) : Prop := ∃ p ∈ g.peak w.handle, w.expected ≤ p

end SemObserver

abbrev observedSem := observed SemSystem.step SemObserver.note

/-- The HAL context over the manager. -/
def SemSystem.hal (s : SemSystem) : HalFenceContext := ⟨some s.mgr, fun _ => false⟩

structure ObservationsTrue (x : SemObserver × SemSystem) : Prop where
  query : ∀ h, x.2.hal.halSemQuery h = match x.1.live h with
    | some p => .ok p
    | none => .error (-eINVAL)
  fence : ∀ h, (x.1.live h).isSome = true → (x.2.hal.fenceRead h).1 = 0
  told : ∀ w ∈ x.1.waits, (∃ v, (w.ticket, v) ∈ x.1.received ∧ w.expected ≤ v) ↔ x.1.reached w
  destructor : ∀ w ∈ x.1.waits, ∀ v, (w.ticket, v) ∈ x.2.mgr.destructorCalls w.handle →
    (w.expected ≤ v ↔ x.1.reached w)

/-- The handle counter has not come back to a semaphore. -/
def freshHandle (s : SemSystem) : SemOp → Prop
  | .create _ => s.mgr.semaphores s.mgr.nextHandle = none
  | _ => True

instance decidableFreshHandle (s : SemSystem) : ∀ op, Decidable (freshHandle s op)
  | .create _ => decidable_of_iff (Option.isNone (s.mgr.semaphores s.mgr.nextHandle) = true)
      Option.isNone_iff_eq_none
  | .signal .. | .wait .. | .destroy _ => inferInstanceAs (Decidable True)

/-- No semaphore gets the value that stands for an error; a signal leaves no callback that is due
behind a waiter that expects more; and the waiters of a destroyed semaphore have `user_data` below
what they expect. -/
def unambiguous (s : SemSystem) : SemOp → Prop
  | .create initial => initial ≠ queryError
  | .signal handle value => ∀ sem ∈ s.mgr.semaphores handle, sem.destroyed = false →
      sem.value < value → value ≠ queryError ∧
        ∀ w ∈ sem.waiters.dropWhile (fun w => decide (w.expected ≤ value)),
          w.callback.isSome = true → value < w.expected
  | .destroy handle => ∀ sem ∈ s.mgr.semaphores handle, sem.destroyed = false →
      ∀ w ∈ sem.waiters, w.callback.isSome = true → w.userData < w.expected
  | .wait .. => True

instance decidableUnambiguous (s : SemSystem) : ∀ op, Decidable (unambiguous s op)
  | .create initial => inferInstanceAs (Decidable (initial ≠ queryError))
  | .signal handle _ =>
    inferInstanceAs (Decidable (∀ sem ∈ s.mgr.semaphores handle, _ → _ → _ ∧ ∀ w ∈ _, _ → _))
  | .destroy handle =>
    inferInstanceAs (Decidable (∀ sem ∈ s.mgr.semaphores handle, _ → ∀ w ∈ _, _ → _))
  | .wait .. => inferInstanceAs (Decidable True)

/-! ### The invariant -/

/-- What the observer knows of a semaphore: a queued callback is one of the waits and has not been
made. -/
structure SemOk (g : SemObserver) (h : UInt64) (sem : Semaphore) : Prop where
  peak : g.peak h = some sem.value
  gone : g.gone h = sem.destroyed
  value : sem.value ≠ queryError
  dead : sem.destroyed = true → sem.waiters = []
  queued : ∀ q ∈ sem.waiters, ∀ t, q.callback = some t → sem.value < q.expected ∧
    ⟨t, h, q.expected⟩ ∈ g.waits ∧ ∀ v, (t, v) ∉ g.received

/-- A wait is told of the value when it is due; otherwise it is queued or cut off. -/
structure WaitOk (g : SemObserver) (w : SemWait) (sem : Semaphore) : Prop where
  told : (∃ v, (w.ticket, v) ∈ g.received ∧ w.expected ≤ v) ↔ w.expected ≤ sem.value
  settled : w.expected ≤ sem.value ∨ sem.destroyed = true ∨
    ∃ q ∈ sem.waiters, q.callback = some w.ticket ∧ q.expected = w.expected

structure ObserverInv (x : SemObserver × SemSystem) : Prop where
  absent : ∀ h, x.2.mgr.semaphores h = none → x.1.peak h = none
  sems : ∀ h sem, x.2.mgr.semaphores h = some sem → SemOk x.1 h sem
  waited : ∀ w ∈ x.1.waits, ∃ sem, x.2.mgr.semaphores w.handle = some sem ∧ WaitOk x.1 w sem
  single : ∀ w ∈ x.1.waits, ∀ w' ∈ x.1.waits, w.ticket = w'.ticket → w = w'
  waitsOld : ∀ w ∈ x.1.waits, w.ticket < x.2.tickets
  receivedOld : ∀ c ∈ x.1.received, c.1 < x.2.tickets

theorem observerInv_init : ObserverInv (.empty, .init) where
  absent := fun _ _ => rfl
  sems := fun _ _ h => by cases h
  waited := fun _ hw => by cases hw
  single := fun _ hw => by cases hw
  waitsOld := fun _ hw => by cases hw
  receivedOld := fun _ hc => by cases hc

/-- The callbacks that are made for a part of a queue. -/
theorem mem_invoke {arg : TimelineWaiter → UInt64} {ws : List TimelineWaiter} {t : ℕ}
    {v : UInt64} : (t, v) ∈ SemaphoreManager.invoke arg ws ↔
      ∃ q ∈ ws, q.callback = some t ∧ arg q = v := by
  simp only [SemaphoreManager.invoke, List.mem_filterMap, Option.map_eq_some_iff, Prod.mk.injEq]
  constructor
  · rintro ⟨q, hq, t', ht, rfl, hv⟩
    exact ⟨q, hq, ht, hv⟩
  · rintro ⟨q, hq, ht, hv⟩
    exact ⟨q, hq, t, ht, rfl, hv⟩

/-- A live semaphore gets a value or an end and lets go of the front of its queue.  What it tells
the callbacks decides which side of their expectation they see. -/
structure Release (sem : Semaphore) (arg : TimelineWaiter → UInt64) (value : UInt64)
    (destroyed : Bool) (ready rest : List TimelineWaiter) : Prop where
  live : sem.destroyed = false
  queue : sem.waiters = ready ++ rest
  rises : sem.value ≤ value
  valid : value ≠ queryError
  ends : destroyed = true → rest = []
  due : destroyed = false → ∀ q ∈ ready, q.expected ≤ value
  below : ∀ q ∈ rest, q.callback.isSome = true → value < q.expected
  truthful : ∀ q ∈ ready, q.callback.isSome = true → (q.expected ≤ arg q ↔ q.expected ≤ value)

section Release

variable {sem : Semaphore} {arg : TimelineWaiter → UInt64} {value : UInt64} {destroyed : Bool}
  {ready rest : List TimelineWaiter} {q : TimelineWaiter}

theorem Release.ready_queued (hrel : Release sem arg value destroyed ready rest)
    (hq : q ∈ ready) : q ∈ sem.waiters := by
  rw [hrel.queue]
  exact List.mem_append_left _ hq

theorem Release.rest_queued (hrel : Release sem arg value destroyed ready rest) (hq : q ∈ rest) :
    q ∈ sem.waiters := by
  rw [hrel.queue]
  exact List.mem_append_right _ hq

end Release

/-- A new wait is told of the value at once, or joins the queue. -/
structure Answer (sem : Semaphore) (ticket : ℕ) (expected : UInt64) (calls : List (ℕ × UInt64))
    (more : List TimelineWaiter) : Prop where
  live : sem.destroyed = false
  cases : (expected ≤ sem.value ∧ more = [] ∧ calls = [(ticket, sem.value)]) ∨
    (sem.value < expected ∧ calls = [] ∧
      ∃ userData, more = [⟨expected, some ticket, userData⟩])

section Answer

variable {sem : Semaphore} {ticket : ℕ} {expected : UInt64} {calls : List (ℕ × UInt64)}
  {more : List TimelineWaiter}

theorem Answer.of_call (hans : Answer sem ticket expected calls more) {c : ℕ × UInt64}
    (hc : c ∈ calls) : c = (ticket, sem.value) ∧ expected ≤ sem.value := by
  rcases hans.cases with ⟨hle, -, rfl⟩ | ⟨-, rfl, -⟩
  · exact ⟨List.mem_singleton.mp hc, hle⟩
  · cases hc

theorem Answer.of_more (hans : Answer sem ticket expected calls more) {q : TimelineWaiter}
    (hq : q ∈ more) : q.expected = expected ∧ q.callback = some ticket ∧ sem.value < expected := by
  rcases hans.cases with ⟨-, rfl, -⟩ | ⟨hlt, -, userData, rfl⟩
  · cases hq
  · rw [List.mem_singleton.mp hq]
    exact ⟨rfl, rfl, hlt⟩

end Answer

namespace ObserverInv

variable {g g' : SemObserver} {s s' : SemSystem} {h : UInt64} {sem new : Semaphore}
  {arg : TimelineWaiter → UInt64} {value : UInt64} {destroyed : Bool}
  {ready rest : List TimelineWaiter}

theorem reached_iff (hI : ObserverInv (g, s)) {w : SemWait}
    (hsem : s.mgr.semaphores w.handle = some sem) : g.reached w ↔ w.expected ≤ sem.value := by
  rw [SemObserver.reached, (hI.sems w.handle sem hsem).peak]
  exact ⟨fun ⟨p, hp, hle⟩ => Option.some.inj hp ▸ hle, fun hle => ⟨sem.value, rfl, hle⟩⟩

/-- A refused operation only takes a number. -/
theorem tick (hI : ObserverInv (g, s)) (hmgr : s'.mgr = s.mgr) (htick : s.tickets ≤ s'.tickets) :
    ObserverInv (g, s') where
  absent := fun h hnone => hI.absent h (hmgr ▸ hnone)
  sems := fun h sem hsem => hI.sems h sem (hmgr ▸ hsem)
  waited := fun w hw => by
    have hold := hI.waited w hw
    simp only [hmgr] at hold ⊢
    exact hold
  single := hI.single
  waitsOld := fun w hw => Nat.lt_of_lt_of_le (hI.waitsOld w hw) htick
  receivedOld := fun c hc => Nat.lt_of_lt_of_le (hI.receivedOld c hc) htick

/-- One semaphore changes; the others and their waits are not affected. -/
theorem update (hI : ObserverInv (g, s))
    (hmgr : s'.mgr.semaphores = Function.update s.mgr.semaphores h (some new))
    (hnew : SemOk g' h new) (hpeak : ∀ k, k ≠ h → g'.peak k = g.peak k)
    (hothers : ∀ k, k ≠ h → ∀ sem, SemOk g k sem → SemOk g' k sem)
    (hwait : ∀ w ∈ g'.waits, w.handle = h → WaitOk g' w new)
    (hwaits : ∀ w ∈ g'.waits, w.handle ≠ h →
      w ∈ g.waits ∧ ∀ sem, WaitOk g w sem → WaitOk g' w sem)
    (hsingle : ∀ w ∈ g'.waits, ∀ w' ∈ g'.waits, w.ticket = w'.ticket → w = w')
    (hwaitsOld : ∀ w ∈ g'.waits, w.ticket < s'.tickets)
    (hreceivedOld : ∀ c ∈ g'.received, c.1 < s'.tickets) : ObserverInv (g', s') := by
  have hself : s'.mgr.semaphores h = some new := by rw [hmgr, Function.update_self]
  have hother : ∀ k, k ≠ h → s'.mgr.semaphores k = s.mgr.semaphores k := by
    intro k hk
    rw [hmgr, Function.update_of_ne hk]
  refine ⟨fun k hnone => ?_, fun k sem hsem => ?_, fun w hw => ?_, hsingle, hwaitsOld,
    hreceivedOld⟩
  · have hk : k ≠ h := by
      rintro rfl
      rw [hself] at hnone
      cases hnone
    show g'.peak k = none
    rw [hpeak k hk]
    exact hI.absent k (hother k hk ▸ hnone)
  · by_cases hk : k = h
    · rw [hk, hself, Option.some.injEq] at hsem
      rw [hk, ← hsem]
      exact hnew
    · exact hothers k hk sem (hI.sems k sem (hother k hk ▸ hsem))
  · by_cases hk : w.handle = h
    · exact ⟨new, hk ▸ hself, hwait w hw hk⟩
    · obtain ⟨hold, hok⟩ := hwaits w hw hk
      obtain ⟨sem, hsem, hwaitOk⟩ := hI.waited w hold
      exact ⟨sem, by rw [hother _ hk]; exact hsem, hok sem hwaitOk⟩

/-- The wait that a queued callback belongs to. -/
theorem wait_of_queued (hI : ObserverInv (g, s)) (hsem : s.mgr.semaphores h = some sem)
    {q : TimelineWaiter} (hq : q ∈ sem.waiters) {w : SemWait} (hw : w ∈ g.waits)
    (hcb : q.callback = some w.ticket) : w.handle = h ∧ w.expected = q.expected := by
  have hsame := hI.single w hw _ ((hI.sems h sem hsem).queued q hq w.ticket hcb).2.1 rfl
  exact ⟨congrArg SemWait.handle hsame, congrArg SemWait.expected hsame⟩

/-- The wait of a handle stands to its semaphore. -/
theorem waitOk (hI : ObserverInv (g, s)) {w : SemWait} (hw : w ∈ g.waits)
    (hsem : s.mgr.semaphores w.handle = some sem) : WaitOk g w sem := by
  obtain ⟨sem₀, hsem₀, hok⟩ := hI.waited w hw
  rw [hsem, Option.some.injEq] at hsem₀
  rw [hsem₀]
  exact hok

/-- The wait of a callback that is made. -/
theorem call_of_release (hI : ObserverInv (g, s)) (hsem : s.mgr.semaphores h = some sem)
    (hrel : Release sem arg value destroyed ready rest) {w : SemWait} (hw : w ∈ g.waits)
    {v : UInt64} (hv : (w.ticket, v) ∈ SemaphoreManager.invoke arg ready) :
    w.handle = h ∧ ∃ q ∈ ready, q.callback = some w.ticket ∧ arg q = v ∧
      w.expected = q.expected := by
  obtain ⟨q, hq, hcb, harg⟩ := mem_invoke.mp hv
  obtain ⟨hhandle, hexp⟩ := hI.wait_of_queued hsem (hrel.ready_queued hq) hw hcb
  exact ⟨hhandle, q, hq, hcb, harg, hexp⟩

/-- A callback that stays in the queue is not made. -/
theorem queued_release (hI : ObserverInv (g, s)) (hsem : s.mgr.semaphores h = some sem)
    (hrel : Release sem arg value destroyed ready rest) {q : TimelineWaiter} (hq : q ∈ rest)
    {t : ℕ} (ht : q.callback = some t) :
    value < q.expected ∧ ⟨t, h, q.expected⟩ ∈ g.waits ∧
      ∀ v, (t, v) ∉ SemaphoreManager.invoke arg ready ++ g.received := by
  obtain ⟨-, hwait, hnot⟩ := (hI.sems h sem hsem).queued q (hrel.rest_queued hq) t ht
  have hlt := hrel.below q hq (by rw [ht]; rfl)
  refine ⟨hlt, hwait, fun v hv => ?_⟩
  rcases List.mem_append.mp hv with hv | hv
  · -- a callback that is made expects no more than the value
    obtain ⟨-, q', hq', -, -, hexp⟩ := hI.call_of_release hsem hrel hwait hv
    cases destroyed with
    | true =>
      rw [hrel.ends rfl] at hq
      cases hq
    | false =>
      have hle := hrel.due rfl q' hq'
      rw [← hexp] at hle
      exact UInt64.not_le.mpr hlt hle
  · exact hnot v hv

/-- The waits of the semaphore are told the truth. -/
theorem waitOk_release (hI : ObserverInv (g, s)) (hsem : s.mgr.semaphores h = some sem)
    (hrel : Release sem arg value destroyed ready rest) {w : SemWait} (hw : w ∈ g.waits)
    (hh : w.handle = h) (hreceived : g'.received =
      SemaphoreManager.invoke arg ready ++ g.received) : WaitOk g' w ⟨value, rest, destroyed⟩ := by
  obtain ⟨htold, hstate⟩ := hI.waitOk hw (hh ▸ hsem)
  refine ⟨⟨?_, fun hle => ?_⟩, ?_⟩
  · rw [hreceived]
    rintro ⟨v, hv, hle⟩
    rcases List.mem_append.mp hv with hv | hv
    · obtain ⟨-, q, hq, hcb, harg, hexp⟩ := hI.call_of_release hsem hrel hw hv
      rw [hexp, ← harg] at hle
      rw [hexp]
      exact (hrel.truthful q hq (by rw [hcb]; rfl)).mp hle
    · exact UInt64.le_trans (htold.mp ⟨v, hv, hle⟩) hrel.rises
  · rw [hreceived]
    rcases hstate with hr | hd | ⟨q, hq, hcb, hexp⟩
    · obtain ⟨v, hv, hle'⟩ := htold.mpr hr
      exact ⟨v, List.mem_append_right _ hv, hle'⟩
    · rw [hrel.live] at hd
      cases hd
    · rw [hrel.queue] at hq
      rw [← hexp] at hle ⊢
      rcases List.mem_append.mp hq with hq | hq
      · refine ⟨arg q, List.mem_append_left _ (mem_invoke.mpr ⟨q, hq, hcb, rfl⟩), ?_⟩
        exact (hrel.truthful q hq (by rw [hcb]; rfl)).mpr hle
      · exact absurd hle (UInt64.not_le.mpr (hrel.below q hq (by rw [hcb]; rfl)))
  · rcases hstate with hr | hd | ⟨q, hq, hcb, hexp⟩
    · exact .inl (UInt64.le_trans hr hrel.rises)
    · rw [hrel.live] at hd
      cases hd
    · rw [hrel.queue] at hq
      rcases List.mem_append.mp hq with hq | hq
      · cases destroyed with
        | true => exact .inr (.inl rfl)
        | false => exact .inl (hexp ▸ hrel.due rfl q hq)
      · exact .inr (.inr ⟨q, hq, hcb, hexp⟩)

theorem release (hI : ObserverInv (g, s)) (hsem : s.mgr.semaphores h = some sem)
    (hrel : Release sem arg value destroyed ready rest)
    (hmgr : s'.mgr.semaphores =
      Function.update s.mgr.semaphores h (some ⟨value, rest, destroyed⟩))
    (htick : s.tickets ≤ s'.tickets) :
    ObserverInv ({ g with
      peak := Function.update g.peak h (some value)
      gone := Function.update g.gone h destroyed
      received := SemaphoreManager.invoke arg ready ++ g.received }, s') := by
  refine hI.update hmgr ⟨Function.update_self .., Function.update_self .., hrel.valid, hrel.ends,
    fun q hq t ht => hI.queued_release hsem hrel hq ht⟩ (fun k hk => Function.update_of_ne hk ..)
    (fun k hk sem' hok' => ?_) (fun w hw hh => hI.waitOk_release hsem hrel hw hh rfl)
    (fun w hw hh => ⟨hw, fun sem' hwait => ⟨?_, hwait.settled⟩⟩) hI.single
    (fun w hw => Nat.lt_of_lt_of_le (hI.waitsOld w hw) htick) fun c hc => ?_
  · refine ⟨(Function.update_of_ne hk ..).trans hok'.peak,
      (Function.update_of_ne hk ..).trans hok'.gone, hok'.value, hok'.dead, fun q hq t ht => ?_⟩
    obtain ⟨hlt, hwait, hnot⟩ := hok'.queued q hq t ht
    refine ⟨hlt, hwait, fun v hv => ?_⟩
    rcases List.mem_append.mp hv with hv | hv
    · exact hk (hI.call_of_release hsem hrel hwait hv).1
    · exact hnot v hv
  · rw [← hwait.told]
    constructor
    · rintro ⟨v, hv, hle⟩
      rcases List.mem_append.mp hv with hv | hv
      · exact absurd (hI.call_of_release hsem hrel hw hv).1 hh
      · exact ⟨v, hv, hle⟩
    · rintro ⟨v, hv, hle⟩
      exact ⟨v, List.mem_append_right _ hv, hle⟩
  · obtain ⟨t, v⟩ := c
    rcases List.mem_append.mp hc with hc | hc
    · obtain ⟨q, hq, hcb, -⟩ := mem_invoke.mp hc
      have hwait := ((hI.sems h sem hsem).queued q (hrel.ready_queued hq) t hcb).2.1
      exact Nat.lt_of_lt_of_le (hI.waitsOld _ hwait) htick
    · exact Nat.lt_of_lt_of_le (hI.receivedOld _ hc) htick

/-- A waiter without a callback joins a queue, or none does. -/
theorem silent (hI : ObserverInv (g, s)) (hsem : s.mgr.semaphores h = some sem)
    (hlive : sem.destroyed = false) {more : List TimelineWaiter}
    (hmore : ∀ q ∈ more, q.callback = none)
    (hmgr : s'.mgr.semaphores =
      Function.update s.mgr.semaphores h (some { sem with waiters := sem.waiters ++ more }))
    (htick : s.tickets ≤ s'.tickets) : ObserverInv (g, s') := by
  have hok := hI.sems h sem hsem
  refine hI.update hmgr ⟨hok.peak, hok.gone, hok.value, fun hd => ?_, fun q hq t ht => ?_⟩
    (fun _ _ => rfl) (fun _ _ _ hok => hok) (fun w hw hh => ?_)
    (fun w hw _ => ⟨hw, fun _ hwait => hwait⟩) hI.single
    (fun w hw => Nat.lt_of_lt_of_le (hI.waitsOld w hw) htick)
    fun c hc => Nat.lt_of_lt_of_le (hI.receivedOld c hc) htick
  · rw [hlive] at hd
    cases hd
  · rcases List.mem_append.mp hq with hq | hq
    · exact hok.queued q hq t ht
    · rw [hmore q hq] at ht
      cases ht
  · obtain ⟨htold, hstate⟩ := hI.waitOk hw (hh ▸ hsem)
    refine ⟨htold, hstate.imp_right (Or.imp_right ?_)⟩
    rintro ⟨q, hq, hcb⟩
    exact ⟨q, List.mem_append_left _ hq, hcb⟩

/-- A ticket that was not drawn has not been called. -/
theorem not_received (hI : ObserverInv (g, s)) (v : UInt64) : (s.tickets, v) ∉ g.received :=
  fun hv => Nat.lt_irrefl _ (hI.receivedOld _ hv)

/-- What an older wait was told it is still told, and no more. -/
theorem told_answer (hI : ObserverInv (g, s)) {expected : UInt64} {calls : List (ℕ × UInt64)}
    {more : List TimelineWaiter} (hans : Answer sem s.tickets expected calls more) {w : SemWait}
    (hw : w ∈ g.waits) (v : UInt64) :
    (w.ticket, v) ∈ calls ++ g.received ↔ (w.ticket, v) ∈ g.received := by
  rw [List.mem_append, or_iff_right]
  intro hc
  have heq : w.ticket = s.tickets := congrArg Prod.fst (hans.of_call hc).1
  exact Nat.lt_irrefl _ (heq ▸ hI.waitsOld w hw)

/-- The callbacks that were queued still are. -/
theorem queued_answer (hI : ObserverInv (g, s)) {expected : UInt64} {calls : List (ℕ × UInt64)}
    {more : List TimelineWaiter} (hans : Answer sem s.tickets expected calls more) {k : UInt64}
    {sem' : Semaphore} (hok : SemOk g k sem') {q : TimelineWaiter} (hq : q ∈ sem'.waiters) {t : ℕ}
    (ht : q.callback = some t) : sem'.value < q.expected ∧
      ⟨t, k, q.expected⟩ ∈ (⟨s.tickets, h, expected⟩ :: g.waits : List SemWait) ∧
      ∀ v, (t, v) ∉ calls ++ g.received := by
  obtain ⟨hlt, hwait, hnot⟩ := hok.queued q hq t ht
  exact ⟨hlt, List.mem_cons_of_mem _ hwait,
    fun v hv => hnot v ((hI.told_answer hans hwait v).mp hv)⟩

/-- The new wait is told of the value when it is due, and queued otherwise. -/
theorem waitOk_answer (hI : ObserverInv (g, s)) {expected : UInt64}
    {calls : List (ℕ × UInt64)} {more : List TimelineWaiter}
    (hans : Answer sem s.tickets expected calls more)
    (hreceived : g'.received = calls ++ g.received) :
    WaitOk g' ⟨s.tickets, h, expected⟩ { sem with waiters := sem.waiters ++ more } := by
  refine ⟨⟨?_, fun hle => ?_⟩, ?_⟩
  · rw [hreceived]
    rintro ⟨v, hv, -⟩
    rcases List.mem_append.mp hv with hv | hv
    · exact (hans.of_call hv).2
    · exact absurd hv (hI.not_received v)
  · rw [hreceived]
    rcases hans.cases with ⟨-, -, rfl⟩ | ⟨hlt, -⟩
    · exact ⟨sem.value, List.mem_cons_self, hle⟩
    · exact absurd hle (UInt64.not_le.mpr hlt)
  · rcases hans.cases with ⟨hle, -⟩ | ⟨-, -, userData, rfl⟩
    · exact .inl hle
    · exact .inr (.inr ⟨_, List.mem_append_right _ List.mem_cons_self, rfl, rfl⟩)

/-- The tickets of the waits stay distinct. -/
theorem single_cons (hI : ObserverInv (g, s)) (expected : UInt64) :
    ∀ w ∈ (⟨s.tickets, h, expected⟩ :: g.waits : List SemWait),
      ∀ w' ∈ (⟨s.tickets, h, expected⟩ :: g.waits : List SemWait),
        w.ticket = w'.ticket → w = w' := by
  intro w hw w' hw' heq
  rcases List.mem_cons.mp hw with rfl | hw
  · rcases List.mem_cons.mp hw' with rfl | hw'
    · rfl
    · exact absurd (hI.waitsOld w' hw') (heq ▸ Nat.lt_irrefl _)
  · rcases List.mem_cons.mp hw' with rfl | hw'
    · exact absurd (hI.waitsOld w hw) (heq ▸ Nat.lt_irrefl _)
    · exact hI.single w hw w' hw' heq

/-- A new wait, either answered at once or queued. -/
theorem register (hI : ObserverInv (g, s)) (hsem : s.mgr.semaphores h = some sem)
    {expected : UInt64} {calls : List (ℕ × UInt64)} {more : List TimelineWaiter}
    (hans : Answer sem s.tickets expected calls more)
    (hmgr : s'.mgr.semaphores =
      Function.update s.mgr.semaphores h (some { sem with waiters := sem.waiters ++ more }))
    (htick : s'.tickets = s.tickets + 1) :
    ObserverInv ({ g with
      waits := ⟨s.tickets, h, expected⟩ :: g.waits
      received := calls ++ g.received }, s') := by
  have hok := hI.sems h sem hsem
  refine hI.update hmgr ⟨hok.peak, hok.gone, hok.value, fun hd => ?_, fun q hq t ht => ?_⟩
    (fun _ _ => rfl) (fun k _ sem' hok' => ⟨hok'.peak, hok'.gone, hok'.value, hok'.dead,
      fun q hq t ht => hI.queued_answer hans hok' hq ht⟩) (fun w hw hh => ?_)
    (fun w hw hh => ?_) (hI.single_cons expected) (fun w hw => ?_) fun c hc => ?_
  · rw [hans.live] at hd
    cases hd
  · rcases List.mem_append.mp hq with hq | hq
    · exact hI.queued_answer hans hok hq ht
    · obtain ⟨hexp, hcb, hlt⟩ := hans.of_more hq
      rw [hcb] at ht
      obtain rfl := Option.some.inj ht
      rw [hexp]
      refine ⟨hlt, List.mem_cons_self, fun v hv => ?_⟩
      rcases List.mem_append.mp hv with hv | hv
      · exact UInt64.not_le.mpr hlt (hans.of_call hv).2
      · exact hI.not_received v hv
  · rcases List.mem_cons.mp hw with rfl | hw
    · exact hI.waitOk_answer hans rfl
    · have hwait := hI.waitOk hw (hh ▸ hsem)
      refine ⟨?_, hwait.settled.imp_right (Or.imp_right ?_)⟩
      · simp only [hI.told_answer hans hw]
        exact hwait.told
      · rintro ⟨q, hq, hcb⟩
        exact ⟨q, List.mem_append_left _ hq, hcb⟩
  · rcases List.mem_cons.mp hw with rfl | hw
    · exact absurd rfl hh
    · refine ⟨hw, fun sem' hwait => ⟨?_, hwait.settled⟩⟩
      simp only [hI.told_answer hans hw]
      exact hwait.told
  · rw [htick]
    rcases List.mem_cons.mp hw with rfl | hw
    · exact Nat.lt_succ_self _
    · exact Nat.lt_succ_of_lt (hI.waitsOld w hw)
  · rw [htick]
    rcases List.mem_append.mp hc with hc | hc
    · rw [(hans.of_call hc).1]
      exact Nat.lt_succ_self _
    · exact Nat.lt_succ_of_lt (hI.receivedOld c hc)

/-- A new semaphore. -/
theorem add (hI : ObserverInv (g, s)) (hnone : s.mgr.semaphores h = none) {initial : UInt64}
    (hvalue : initial ≠ queryError)
    (hmgr : s'.mgr.semaphores = Function.update s.mgr.semaphores h (some ⟨initial, [], false⟩))
    (htick : s.tickets ≤ s'.tickets) :
    ObserverInv ({ g with
      peak := Function.update g.peak h (some initial)
      gone := Function.update g.gone h false }, s') := by
  refine hI.update hmgr ⟨Function.update_self .., Function.update_self .., hvalue, fun _ => rfl,
    fun q hq => by cases hq⟩ (fun k hk => Function.update_of_ne hk ..) (fun k hk sem' hok' => ?_)
    (fun w hw hh => ?_) (fun w hw _ => ⟨hw, fun _ hwait => ⟨hwait.told, hwait.settled⟩⟩) hI.single
    (fun w hw => Nat.lt_of_lt_of_le (hI.waitsOld w hw) htick)
    fun c hc => Nat.lt_of_lt_of_le (hI.receivedOld c hc) htick
  · exact ⟨(Function.update_of_ne hk ..).trans hok'.peak,
      (Function.update_of_ne hk ..).trans hok'.gone, hok'.value, hok'.dead, hok'.queued⟩
  · obtain ⟨sem₀, hsem₀, -⟩ := hI.waited w hw
    have hnone' : s.mgr.semaphores w.handle = none := hh ▸ hnone
    rw [hnone'] at hsem₀
    cases hsem₀

end ObserverInv

/-! ### Steps -/

/-- A signal that raises the value, as the observer sees it. -/
theorem observedSem_signal {g : SemObserver} {s : SemSystem} (hI : ObserverInv (g, s))
    {handle value : UInt64} {sem : Semaphore} (hsem : s.mgr.semaphores handle = some sem)
    (hlive : sem.destroyed = false) (hlt : sem.value < value) :
    observedSem (g, s) (.signal handle value) = ({ g with
      peak := Function.update g.peak handle (some value)
      received := SemaphoreManager.invoke (fun _ => value)
        (sem.waiters.takeWhile fun w => decide (w.expected ≤ value)) ++ g.received },
      s.step (.signal handle value)) := by
  have hperform : SemSystem.perform s.mgr s.tickets (.signal handle value) = _ :=
    SemaphoreManager.signal_raises hsem hlive hlt
  have hmax : SemObserver.raise (g.peak handle) value = value := by
    rw [(hI.sems handle sem hsem).peak, SemObserver.raise, if_pos hlt]
  simp only [observedSem, observed, SemObserver.note, SemObserver.record, hperform, if_true, hmax]

theorem step_signal {s : SemSystem} {handle value : UInt64} {sem : Semaphore}
    (hsem : s.mgr.semaphores handle = some sem) (hlive : sem.destroyed = false)
    (hlt : sem.value < value) : (s.step (.signal handle value)).mgr.semaphores =
      Function.update s.mgr.semaphores handle (some ⟨value,
        sem.waiters.dropWhile fun w => decide (w.expected ≤ value), false⟩) := by
  have hperform : SemSystem.perform s.mgr s.tickets (.signal handle value) = _ :=
    SemaphoreManager.signal_raises hsem hlive hlt
  simp only [SemSystem.step, hperform, ← hlive]
  rfl

/-- The destruction of a live semaphore, as the observer sees it. -/
theorem observedSem_destroy (g : SemObserver) {s : SemSystem} {handle : UInt64} {sem : Semaphore}
    (hsem : s.mgr.semaphores handle = some sem) (hlive : sem.destroyed = false) :
    observedSem (g, s) (.destroy handle) = ({ g with
      gone := Function.update g.gone handle true
      received := SemaphoreManager.invoke TimelineWaiter.userData sem.waiters ++ g.received },
      s.step (.destroy handle)) := by
  have hperform : SemSystem.perform s.mgr s.tickets (.destroy handle) = _ :=
    SemaphoreManager.destroy_live hsem hlive
  simp only [observedSem, observed, SemObserver.note, SemObserver.record, hperform, if_true]

theorem step_destroy {s : SemSystem} {handle : UInt64} {sem : Semaphore}
    (hsem : s.mgr.semaphores handle = some sem) (hlive : sem.destroyed = false) :
    (s.step (.destroy handle)).mgr.semaphores =
      Function.update s.mgr.semaphores handle (some ⟨sem.value, [], true⟩) := by
  have hperform : SemSystem.perform s.mgr s.tickets (.destroy handle) = _ :=
    SemaphoreManager.destroy_live hsem hlive
  simp only [SemSystem.step, hperform]
  rfl

theorem observerInv_signal {g : SemObserver} {s : SemSystem} (hI : ObserverInv (g, s))
    {handle value : UInt64} (hG : unambiguous s (.signal handle value)) :
    ObserverInv (observedSem (g, s) (.signal handle value)) := by
  by_cases hraise : ∃ sem, s.mgr.semaphores handle = some sem ∧ sem.destroyed = false ∧
      sem.value < value
  · obtain ⟨sem, hsem, hlive, hlt⟩ := hraise
    obtain ⟨hvalue, hbelow⟩ := hG sem hsem hlive hlt
    have hgone : g.gone = Function.update g.gone handle false := by
      rw [← hlive, ← (hI.sems handle sem hsem).gone, Function.update_eq_self]
    have hdue : ∀ q ∈ sem.waiters.takeWhile (fun w => decide (w.expected ≤ value)),
        q.expected ≤ value := by
      intro q hq
      have hle := List.mem_takeWhile_imp
        (p := fun w : TimelineWaiter => decide (w.expected ≤ value)) hq
      exact of_decide_eq_true hle
    have hrel : Release sem (fun _ => value) value false
        (sem.waiters.takeWhile fun w => decide (w.expected ≤ value))
        (sem.waiters.dropWhile fun w => decide (w.expected ≤ value)) :=
      ⟨hlive, List.takeWhile_append_dropWhile.symm, UInt64.le_of_lt hlt, hvalue, by simp,
        fun _ => hdue, hbelow, fun _ _ _ => Iff.rfl⟩
    have hrelease := hI.release hsem hrel (step_signal hsem hlive hlt) (Nat.le_succ _)
    rw [← hgone] at hrelease
    rw [observedSem_signal hI hsem hlive hlt]
    exact hrelease
  · have hfail : SemSystem.perform s.mgr s.tickets (.signal handle value) = _ :=
      SemaphoreManager.signal_refused hraise
    simp only [observedSem, observed, SemObserver.note, SemObserver.record, hfail]
    rw [if_neg (by decide)]
    exact hI.tick (by simp only [SemSystem.step, hfail]) (Nat.le_succ _)

theorem observerInv_destroy {g : SemObserver} {s : SemSystem} (hI : ObserverInv (g, s))
    {handle : UInt64} (hG : unambiguous s (.destroy handle)) :
    ObserverInv (observedSem (g, s) (.destroy handle)) := by
  by_cases hlive : ∃ sem, s.mgr.semaphores handle = some sem ∧ sem.destroyed = false
  · obtain ⟨sem, hsem, hlive⟩ := hlive
    have hok := hI.sems handle sem hsem
    have hpeak : g.peak = Function.update g.peak handle (some sem.value) := by
      rw [← hok.peak, Function.update_eq_self]
    -- neither `user_data` nor the value comes up to what a queued waiter expects
    have htruth : ∀ q ∈ sem.waiters, q.callback.isSome = true →
        (q.expected ≤ q.userData ↔ q.expected ≤ sem.value) := by
      intro q hq hcb
      obtain ⟨t, ht⟩ := Option.isSome_iff_exists.mp hcb
      have hdata := hG sem hsem hlive q hq hcb
      have hvalue := (hok.queued q hq t ht).1
      exact iff_of_false (UInt64.not_le.mpr hdata) (UInt64.not_le.mpr hvalue)
    have hrel : Release sem TimelineWaiter.userData sem.value true sem.waiters [] :=
      ⟨hlive, (List.append_nil _).symm, UInt64.le_refl _, hok.value, fun _ => rfl, by simp,
        by simp, htruth⟩
    have hrelease := hI.release hsem hrel (step_destroy hsem hlive) (Nat.le_succ _)
    rw [← hpeak] at hrelease
    rw [observedSem_destroy g hsem hlive]
    exact hrelease
  · have hfail : SemSystem.perform s.mgr s.tickets (.destroy handle) = _ :=
      SemaphoreManager.destroy_refused hlive
    simp only [observedSem, observed, SemObserver.note, SemObserver.record, hfail]
    rw [if_neg (by decide)]
    exact hI.tick (by simp only [SemSystem.step, hfail]) (Nat.le_succ _)

theorem observerInv_wait {g : SemObserver} {s : SemSystem} (hI : ObserverInv (g, s))
    (handle expected : UInt64) (hasCallback : Bool) (userData : UInt64) :
    ObserverInv (observedSem (g, s) (.wait handle expected hasCallback userData)) := by
  by_cases hlive : ∃ sem, s.mgr.semaphores handle = some sem ∧ sem.destroyed = false
  · obtain ⟨sem, hsem, hlive⟩ := hlive
    by_cases hle : expected ≤ sem.value
    · have hperform : SemSystem.perform s.mgr s.tickets
          (.wait handle expected hasCallback userData) = _ :=
        SemaphoreManager.wait_answers hsem hlive hle
      have hsame : (s.step (.wait handle expected hasCallback userData)).mgr.semaphores =
          Function.update s.mgr.semaphores handle
            (some { sem with waiters := sem.waiters ++ [] }) := by
        rw [List.append_nil, ← hsem, Function.update_eq_self]
        simp only [SemSystem.step, hperform]
      simp only [observedSem, observed, SemObserver.note, SemObserver.record, hperform]
      cases hasCallback with
      | false => exact hI.silent hsem hlive (by simp) hsame (Nat.le_succ _)
      | true => exact hI.register hsem ⟨hlive, .inl ⟨hle, rfl, rfl⟩⟩ hsame rfl
    · have hlt := UInt64.not_le.mp hle
      have hperform : SemSystem.perform s.mgr s.tickets
          (.wait handle expected hasCallback userData) = _ :=
        SemaphoreManager.wait_queues hsem hlive hlt
      have hjoin : (s.step (.wait handle expected hasCallback userData)).mgr.semaphores =
          Function.update s.mgr.semaphores handle (some { sem with waiters := sem.waiters ++
            [⟨expected, if hasCallback then some s.tickets else none, userData⟩] }) := by
        simp only [SemSystem.step, hperform]
        rfl
      simp only [observedSem, observed, SemObserver.note, SemObserver.record, hperform]
      cases hasCallback with
      | false => exact hI.silent hsem hlive (by simp) hjoin (Nat.le_succ _)
      | true => exact hI.register hsem ⟨hlive, .inr ⟨hlt, rfl, userData, rfl⟩⟩ hjoin rfl
  · have hfail : SemSystem.perform s.mgr s.tickets
        (.wait handle expected hasCallback userData) = _ :=
      SemaphoreManager.wait_refused hlive
    simp only [observedSem, observed, SemObserver.note, SemObserver.record, hfail]
    rw [if_neg (by simp [eINVAL])]
    exact hI.tick (by simp only [SemSystem.step, hfail]) (Nat.le_succ _)

theorem create_fresh {m : SemaphoreManager} (hfresh : m.semaphores m.nextHandle = none)
    (initial : UInt64) : m.create initial = ⟨0, m.nextHandle,
      { m.put m.nextHandle ⟨initial, [], false⟩ with nextHandle := m.nextHandle + 1 }, []⟩ := by
  rw [SemaphoreManager.create, hfresh]
  rfl

theorem observerInv_create {g : SemObserver} {s : SemSystem} (hI : ObserverInv (g, s))
    {initial : UInt64} (hfresh : freshHandle s (.create initial))
    (hG : unambiguous s (.create initial)) :
    ObserverInv (observedSem (g, s) (.create initial)) := by
  have hperform : SemSystem.perform s.mgr s.tickets (.create initial) = _ :=
    create_fresh hfresh initial
  simp only [observedSem, observed, SemObserver.note, SemObserver.record, hperform]
  refine hI.add hfresh hG ?_ (Nat.le_succ _)
  simp only [SemSystem.step, hperform]
  rfl

theorem observerInv_step (x : SemObserver × SemSystem) (op : SemOp) (hI : ObserverInv x)
    (hG : freshHandle x.2 op ∧ unambiguous x.2 op) : ObserverInv (observedSem x op) := by
  obtain ⟨g, s⟩ := x
  cases op with
  | create initial => exact observerInv_create hI hG.1 hG.2
  | signal handle value => exact observerInv_signal hI hG.2
  | wait handle expected hasCallback userData =>
    exact observerInv_wait hI handle expected hasCallback userData
  | destroy handle => exact observerInv_destroy hI hG.2

/-! ### The result -/

theorem query_live {g : SemObserver} {s : SemSystem} (hI : ObserverInv (g, s)) (h : UInt64) :
    match g.live h with
    | some p => s.mgr.query h = p ∧ p ≠ queryError
    | none => s.mgr.query h = queryError := by
  rw [SemObserver.live, SemaphoreManager.query]
  cases hsem : s.mgr.semaphores h with
  | none =>
    have hpeak : g.peak h = none := hI.absent h hsem
    rw [hpeak, ite_self]
    rfl
  | some sem =>
    have hok := hI.sems h sem hsem
    rw [hok.peak, hok.gone]
    cases hd : sem.destroyed with
    | true =>
      simp only [hd, if_true]
      rfl
    | false =>
      simp only [hd, Bool.false_eq_true, if_false]
      exact ⟨trivial, hok.value⟩

theorem observationsTrue_of_inv (x : SemObserver × SemSystem) (hI : ObserverInv x) :
    ObservationsTrue x := by
  obtain ⟨g, s⟩ := x
  refine ⟨fun h => ?_, fun h hlive => ?_, fun w hw => ?_, fun w hw v hv => ?_⟩
  · have hquery := query_live hI h
    simp only [HalFenceContext.halSemQuery, SemSystem.hal]
    cases hpeak : g.live h with
    | none =>
      rw [hpeak] at hquery
      rw [if_pos hquery]
    | some p =>
      rw [hpeak] at hquery
      rw [if_neg (hquery.1 ▸ hquery.2), hquery.1]
  · have hquery := query_live hI h
    obtain ⟨p, hp⟩ := Option.isSome_iff_exists.mp hlive
    have hp' : g.live h = some p := hp
    rw [hp'] at hquery
    have hne : s.mgr.query h ≠ UInt64.ofNat (UInt64.size - 1) := hquery.1 ▸ hquery.2
    simp only [HalFenceContext.fenceRead, SemSystem.hal]
    rw [if_neg hne]
  · obtain ⟨sem, hsem, hok⟩ := hI.waited w hw
    rw [hI.reached_iff hsem]
    exact hok.told
  · obtain ⟨sem, hsem, -⟩ := hI.waited w hw
    rw [hI.reached_iff hsem]
    have hqueue : s.mgr.waitersAt w.handle = sem.waiters := by
      rw [SemaphoreManager.waitersAt, hsem]
      rfl
    rw [SemaphoreManager.destructorCalls, hqueue] at hv
    obtain ⟨q, hq, hcb, rfl⟩ := mem_invoke.mp hv
    have hexp := (hI.wait_of_queued hsem hq hw hcb).2
    have hlt := ((hI.sems w.handle sem hsem).queued q hq w.ticket hcb).1
    rw [← hexp, UInt64.lt_iff_toNat_lt] at hlt
    rw [UInt64.le_iff_toNat_le, UInt64.le_iff_toNat_le]
    exact iff_of_false (by simp; omega) (by omega)

theorem halSemQuery_ne (c : HalFenceContext) (h : UInt64) : c.halSemQuery h ≠ .ok queryError := by
  unfold HalFenceContext.halSemQuery
  cases c.semMgr with
  | none => simp
  | some m =>
    simp only
    split_ifs with hval
    · simp
    · intro heq
      exact hval (Except.ok.inj heq)

/-- No live semaphore holds the value that the HAL takes for an error. -/
theorem ObservationsTrue.live_ne {x : SemObserver × SemSystem} (h : ObservationsTrue x)
    {handle p : UInt64} (hlive : x.1.live handle = some p) : p ≠ queryError := by
  have hquery := h.query handle
  rw [hlive] at hquery
  rintro rfl
  exact halSemQuery_ne _ _ hquery

/-- A new semaphore whose value stands for an error shows in the next query. -/
theorem unambiguous_create {g : SemObserver} {s : SemSystem} {initial : UInt64}
    (hnext : ObservationsTrue (observedSem (g, s) (.create initial)))
    (hfresh : freshHandle s (.create initial)) : unambiguous s (.create initial) := by
  have hperform : SemSystem.perform s.mgr s.tickets (.create initial) = _ :=
    create_fresh hfresh initial
  refine hnext.live_ne (?_ : SemObserver.live _ s.mgr.nextHandle = some initial)
  simp only [observedSem, observed, SemObserver.note, SemObserver.record, hperform,
    SemObserver.live, Function.update_self, Bool.false_eq_true, if_false]

/-- A signal to the value that stands for an error shows in the next query; a callback that is due
and stays behind shows in what the destructor would tell it. -/
theorem unambiguous_signal {g : SemObserver} {s : SemSystem} (hI : ObserverInv (g, s))
    {handle value : UInt64} (hnext : ObservationsTrue (observedSem (g, s) (.signal handle value))) :
    unambiguous s (.signal handle value) := by
  intro sem hsem hlive hlt
  have hok : SemOk g handle sem := hI.sems handle sem hsem
  rw [observedSem_signal hI hsem hlive hlt] at hnext
  refine ⟨?_, fun q hq hcb => ?_⟩
  · refine hnext.live_ne (?_ : SemObserver.live _ handle = some value)
    simp only [SemObserver.live, Function.update_self, hok.gone, hlive, Bool.false_eq_true,
      if_false]
  · by_contra hle
    rw [UInt64.not_lt] at hle
    obtain ⟨t, ht⟩ := Option.isSome_iff_exists.mp hcb
    have hmem : q ∈ sem.waiters := (List.dropWhile_sublist _).subset hq
    obtain ⟨hbelow, hwait, -⟩ := hok.queued q hmem t ht
    have hqueue : (s.step (.signal handle value)).mgr.waitersAt handle =
        sem.waiters.dropWhile fun w => decide (w.expected ≤ value) := by
      rw [SemaphoreManager.waitersAt, step_signal hsem hlive hlt, Function.update_self]
      rfl
    have hcall : (t, 0) ∈ (s.step (.signal handle value)).mgr.destructorCalls handle := by
      rw [SemaphoreManager.destructorCalls, hqueue]
      exact mem_invoke.mpr ⟨q, hq, ht, rfl⟩
    have hzero := (hnext.destructor _ hwait 0 hcall).mpr ⟨value, Function.update_self .., hle⟩
    rw [UInt64.le_iff_toNat_le, UInt64.toNat_zero] at hzero
    rw [UInt64.lt_iff_toNat_lt] at hbelow
    simp only at hzero
    omega

/-- A waiter that is cut off with `user_data` from its expectation on takes it for the value. -/
theorem unambiguous_destroy {g : SemObserver} {s : SemSystem} (hI : ObserverInv (g, s))
    {handle : UInt64} (hnext : ObservationsTrue (observedSem (g, s) (.destroy handle))) :
    unambiguous s (.destroy handle) := by
  intro sem hsem hlive q hq hcb
  have hok : SemOk g handle sem := hI.sems handle sem hsem
  rw [observedSem_destroy g hsem hlive] at hnext
  obtain ⟨t, ht⟩ := Option.isSome_iff_exists.mp hcb
  obtain ⟨hbelow, hwait, -⟩ := hok.queued q hq t ht
  by_contra hle
  rw [UInt64.not_lt] at hle
  have hcalled : (t, q.userData) ∈
      SemaphoreManager.invoke TimelineWaiter.userData sem.waiters :=
    mem_invoke.mpr ⟨q, hq, ht, rfl⟩
  obtain ⟨p, hp, hreached⟩ := (hnext.told ⟨t, handle, q.expected⟩ hwait).mp
    ⟨q.userData, List.mem_append_left _ hcalled, hle⟩
  have hp' : g.peak handle = some p := hp
  rw [hok.peak] at hp'
  obtain rfl := Option.some.inj hp'
  exact UInt64.not_le.mpr hbelow hreached

/-- An ambiguous operation shows in the state after it. -/
theorem unambiguous_of_true (x : SemObserver × SemSystem) (op : SemOp) (hI : ObserverInv x)
    (hnext : ObservationsTrue (observedSem x op)) (hfresh : freshHandle x.2 op) :
    unambiguous x.2 op := by
  obtain ⟨g, s⟩ := x
  cases op with
  | create initial => exact unambiguous_create hnext hfresh
  | signal handle value => exact unambiguous_signal hI hnext
  | wait handle expected hasCallback userData => trivial
  | destroy handle => exact unambiguous_destroy hI hnext

/-- **Observations.**  As long as the handle counter does not come back to a semaphore, queries and
callbacks tell the truth in every state of a run exactly when its operations are unambiguous. -/
theorem sem_observation_iff (ops : List SemOp)
    (hfresh : Guarded SemSystem.step freshHandle .init ops) :
    Always observedSem ObservationsTrue (.empty, .init) ops ↔
      Guarded SemSystem.step unambiguous .init ops := by
  rw [← guarded_observed SemSystem.step SemObserver.note _ (.empty, .init)] at hfresh ⊢
  have hboth := always_guarded_iff (G := fun (x : SemObserver × SemSystem) op =>
      freshHandle x.2 op ∧ unambiguous x.2 op) (R := fun x op => freshHandle x.2 op)
    observerInv_step observationsTrue_of_inv (fun _ _ _ hG => hG.1)
    (fun x op hI hnext hR => ⟨hR, unambiguous_of_true x op hI hnext hR⟩) ops observerInv_init
  constructor
  · intro htrue
    exact (hboth.mp ⟨htrue, hfresh⟩).mono _ fun _ _ hG => hG.2
  · intro hG
    exact (hboth.mpr (hfresh.and _ hG)).1

/-- A waiter that is released by a signal, and one that is cut off. -/
theorem sem_observation_run : Always observedSem ObservationsTrue (.empty, .init)
    [.create 0, .wait 1 5 true 0, .signal 1 7, .wait 1 9 true 3, .destroy 1] :=
  (sem_observation_iff _ (by decide +kernel)).mpr (by decide +kernel)

/-- A waiter for 5 with `user_data` 100: the destruction of the semaphore hands it 100. -/
theorem sem_observation_fails : ¬Always observedSem ObservationsTrue (.empty, .init)
    [.create 0, .wait 1 5 true 100, .destroy 1] := by
  intro h
  have htold := (Always.last _ h).told ⟨1, 1, 5⟩ (by decide +kernel)
  obtain ⟨p, hp, hle⟩ := htold.mp ⟨100, by decide +kernel, by decide⟩
  have hpeak : p = 0 := (Option.some.inj hp).symm
  rw [hpeak] at hle
  revert hle
  decide

end UsrLinuxEmu.GpuDriver
