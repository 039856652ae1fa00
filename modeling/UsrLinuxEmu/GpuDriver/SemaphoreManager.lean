import Mathlib.Data.List.Nodup
import Mathlib.Data.List.TakeWhile
import Mathlib.Logic.Function.Basic
import Mathlib.Tactic.SplitIfs
import UsrLinuxEmu.GpuDriver.GpuTypes
import UsrLinuxEmu.Transition.Run

/-!
# Timeline semaphores (`sim/semaphore_manager.cpp`)

A semaphore has a 64-bit value that signals raise and a queue of waiters, each with the value it
expects.  A signal releases waiters from the front of the queue and stops at the first one that
expects more.

* `create` / `signal` / `wait` / `destroy` — the manager's operations with the callbacks they make;
* `SemSystem` — the manager with a ledger of the callbacks of the accepted waits;
* `NoLostWakeup` — no due waiter is left in a queue, and each due callback is made once;
* `no_lost_wakeup_iff` — the runs in which that holds: no signal leaves a due waiter behind one
  that expects more.
-/

namespace UsrLinuxEmu.GpuDriver

open UsrLinuxEmu.Transition

/-! ### The manager -/

/-- `SemaphoreManager::SemWaiter`; `callback` is empty, or names the `wait` call that passed it. -/
structure TimelineWaiter where
  expected : UInt64
  callback : Option ℕ
  userData : UInt64
  deriving DecidableEq, Repr

structure Semaphore where
  value : UInt64
  waiters : List TimelineWaiter
  destroyed : Bool

structure SemaphoreManager where
  nextHandle : UInt64
  semaphores : UInt64 → Option Semaphore

/-- The outcome of an operation: the return code (for `create` the handle is in `handle`), the
manager, and the callbacks made with their argument. -/
structure SemResult where
  ret : Int
  handle : UInt64
  mgr : SemaphoreManager
  calls : List (ℕ × UInt64)

namespace SemaphoreManager

def init : SemaphoreManager := ⟨1, fun _ => none⟩

def put (m : SemaphoreManager) (handle : UInt64) (sem : Semaphore) : SemaphoreManager :=
  { m with semaphores := Function.update m.semaphores handle (some sem) }

/-- The callbacks of the waiters that have one, each with the argument `arg` gives it. -/
def invoke (arg : TimelineWaiter → UInt64) (ws : List TimelineWaiter) : List (ℕ × UInt64) :=
  ws.filterMap fun w => w.callback.map fun t => (t, arg w)

/-- `semaphores_[h]` finds the old semaphore when the handle counter has wrapped. -/
def create (m : SemaphoreManager) (initial : UInt64) : SemResult :=
  let h := m.nextHandle
  let sem := (m.semaphores h).getD ⟨0, [], false⟩
  ⟨0, h, { m.put h { sem with value := initial } with nextHandle := h + 1 }, []⟩

/-- The loop pops waiters while the front one expects at most `value`. -/
def signal (m : SemaphoreManager) (handle value : UInt64) : SemResult :=
  match m.semaphores handle with
  | none => ⟨-eINVAL, handle, m, []⟩
  | some sem =>
    if sem.destroyed then ⟨-eINVAL, handle, m, []⟩
    else if value ≤ sem.value then ⟨-eINVAL, handle, m, []⟩
    else
      let ready := sem.waiters.takeWhile fun w => decide (w.expected ≤ value)
      let rest := sem.waiters.dropWhile fun w => decide (w.expected ≤ value)
      ⟨0, handle, m.put handle { sem with value := value, waiters := rest },
        invoke (fun _ => value) ready⟩

def wait (m : SemaphoreManager) (handle expected : UInt64) (callback : Option ℕ)
    (userData : UInt64) : SemResult :=
  match m.semaphores handle with
  | none => ⟨-eINVAL, handle, m, []⟩
  | some sem =>
    if sem.destroyed then ⟨-eINVAL, handle, m, []⟩
    else
      let w : TimelineWaiter := ⟨expected, callback, userData⟩
      if expected ≤ sem.value then ⟨0, handle, m, invoke (fun _ => sem.value) [w]⟩
      else ⟨0, handle, m.put handle { sem with waiters := sem.waiters ++ [w] }, []⟩

/-- `UINT64_MAX` for an invalid handle. -/
def query (m : SemaphoreManager) (handle : UInt64) : UInt64 :=
  match m.semaphores handle with
  | none => UInt64.ofNat (UInt64.size - 1)
  | some sem => if sem.destroyed then UInt64.ofNat (UInt64.size - 1) else sem.value

def destroy (m : SemaphoreManager) (handle : UInt64) : SemResult :=
  match m.semaphores handle with
  | none => ⟨-eINVAL, handle, m, []⟩
  | some sem =>
    if sem.destroyed then ⟨-eINVAL, handle, m, []⟩
    else
      ⟨0, handle, m.put handle { sem with destroyed := true, waiters := [] },
        invoke TimelineWaiter.userData sem.waiters⟩

/-! What each operation does, by what it finds. -/

section Outcomes

variable {m : SemaphoreManager} {handle value expected userData : UInt64} {sem : Semaphore}
  {callback : Option ℕ}

theorem signal_raises (hsem : m.semaphores handle = some sem) (hlive : sem.destroyed = false)
    (hlt : sem.value < value) : m.signal handle value =
      ⟨0, handle, m.put handle { sem with
          value := value
          waiters := sem.waiters.dropWhile fun w => decide (w.expected ≤ value) },
        invoke (fun _ => value) (sem.waiters.takeWhile fun w => decide (w.expected ≤ value))⟩ := by
  simp only [signal, hsem]
  rw [if_neg (by simp [hlive]), if_neg (UInt64.not_le.mpr hlt)]

theorem signal_refused (h : ¬∃ sem, m.semaphores handle = some sem ∧ sem.destroyed = false ∧
    sem.value < value) : m.signal handle value = ⟨-eINVAL, handle, m, []⟩ := by
  unfold signal
  cases hsem : m.semaphores handle with
  | none => rfl
  | some sem =>
    simp only
    split_ifs with hd hle
    · rfl
    · rfl
    · exact absurd ⟨sem, hsem, by simpa using hd, UInt64.not_le.mp hle⟩ h

theorem destroy_live (hsem : m.semaphores handle = some sem) (hlive : sem.destroyed = false) :
    m.destroy handle =
      ⟨0, handle, m.put handle { sem with destroyed := true, waiters := [] },
        invoke TimelineWaiter.userData sem.waiters⟩ := by
  simp only [destroy, hsem]
  rw [if_neg (by simp [hlive])]

theorem destroy_refused (h : ¬∃ sem, m.semaphores handle = some sem ∧ sem.destroyed = false) :
    m.destroy handle = ⟨-eINVAL, handle, m, []⟩ := by
  unfold destroy
  cases hsem : m.semaphores handle with
  | none => rfl
  | some sem =>
    simp only
    split_ifs with hd
    · rfl
    · exact absurd ⟨sem, hsem, by simpa using hd⟩ h

theorem wait_queues (hsem : m.semaphores handle = some sem) (hlive : sem.destroyed = false)
    (hlt : sem.value < expected) : m.wait handle expected callback userData =
      ⟨0, handle, m.put handle { sem with
        waiters := sem.waiters ++ [⟨expected, callback, userData⟩] }, []⟩ := by
  simp only [wait, hsem]
  rw [if_neg (by simp [hlive]), if_neg (UInt64.not_le.mpr hlt)]

theorem wait_answers (hsem : m.semaphores handle = some sem) (hlive : sem.destroyed = false)
    (hle : expected ≤ sem.value) : m.wait handle expected callback userData =
      ⟨0, handle, m, invoke (fun _ => sem.value) [⟨expected, callback, userData⟩]⟩ := by
  simp only [wait, hsem]
  rw [if_neg (by simp [hlive]), if_pos hle]

theorem wait_refused (h : ¬∃ sem, m.semaphores handle = some sem ∧ sem.destroyed = false) :
    m.wait handle expected callback userData = ⟨-eINVAL, handle, m, []⟩ := by
  unfold wait
  cases hsem : m.semaphores handle with
  | none => rfl
  | some sem =>
    simp only
    rw [if_pos]
    by_contra hd
    exact h ⟨sem, hsem, by simpa using hd⟩

end Outcomes

end SemaphoreManager

/-! ### The manager with its ledger -/

inductive SemOp where
  | create (initial : UInt64)
  | signal (handle value : UInt64)
  | wait (handle expected : UInt64) (hasCallback : Bool) (userData : UInt64)
  | destroy (handle : UInt64)
  deriving DecidableEq, Repr

/-- The operation gave the semaphore a value of at least `expected`, or destroyed it. -/
def SemResult.reaches (r : SemResult) (handle expected : UInt64) : SemOp → Bool
  | .create initial => decide (handle = r.handle) && decide (expected ≤ initial)
  | .signal h value => r.ret == 0 && decide (handle = h) && decide (expected ≤ value)
  | .wait .. => false
  | .destroy h => r.ret == 0 && decide (handle = h)

/-- What is kept of the callback of an accepted wait: where and for what it waits, whether the
semaphore had reached that value or has reached it since, or was destroyed, and how often the
callback has been made. -/
structure Registration where
  handle : UInt64
  expected : UInt64
  reached : Bool
  calls : ℕ
  deriving DecidableEq, Repr

/-- `tickets` numbers the operations, and so the callbacks. -/
structure SemSystem where
  mgr : SemaphoreManager
  tickets : ℕ
  ledger : ℕ → Option Registration

namespace SemSystem

def init : SemSystem := ⟨.init, 0, fun _ => none⟩

def perform (m : SemaphoreManager) (ticket : ℕ) : SemOp → SemResult
  | .create initial => m.create initial
  | .signal handle value => m.signal handle value
  | .wait handle expected hasCallback userData =>
    m.wait handle expected (if hasCallback then some ticket else none) userData
  | .destroy handle => m.destroy handle

/-- The registration after an operation with outcome `r`. -/
def settle (op : SemOp) (r : SemResult) (t : ℕ) (reg : Registration) : Registration :=
  { reg with
    reached := reg.reached || r.reaches reg.handle reg.expected op
    calls := reg.calls + r.calls.countP fun c => c.1 == t }

/-- The registration that an accepted wait makes, whether it is queued or answered at once. -/
def enrol (m : SemaphoreManager) (ticket : ℕ) (r : SemResult) : SemOp → Option Registration
  | .wait handle expected true _ =>
    if r.ret = 0 then
      some ⟨handle, expected, (m.semaphores handle).any fun sem => decide (expected ≤ sem.value),
        r.calls.countP fun c => c.1 == ticket⟩
    else none
  | _ => none

def step (s : SemSystem) (op : SemOp) : SemSystem :=
  let r := perform s.mgr s.tickets op
  { mgr := r.mgr
    tickets := s.tickets + 1
    ledger := fun t =>
      if t = s.tickets then enrol s.mgr s.tickets r op else (s.ledger t).map (settle op r t) }

end SemSystem

/-! ### The property -/

/-- No waiter is left whose value has been reached, and the callback of an accepted wait has been
made at most once, and exactly once when the value is reached. -/
structure NoLostWakeup (s : SemSystem) : Prop where
  noneDue : ∀ h sem, s.mgr.semaphores h = some sem → ∀ w ∈ sem.waiters, sem.value < w.expected
  atMostOnce : ∀ t reg, s.ledger t = some reg → reg.calls ≤ 1
  exactlyOnce : ∀ t reg, s.ledger t = some reg → reg.reached = true → reg.calls = 1

/-- A signal that raises the value finds no waiter it makes due behind one that expects more; a
handle given out again after the counter has wrapped has no waiter that the initial value makes
due. -/
def inOrder (s : SemSystem) : SemOp → Prop
  | .signal handle value => ∀ sem ∈ s.mgr.semaphores handle, sem.destroyed = false →
      sem.value < value →
        ∀ w ∈ sem.waiters.dropWhile (fun w => decide (w.expected ≤ value)), value < w.expected
  | .create initial => ∀ sem ∈ s.mgr.semaphores s.mgr.nextHandle,
      ∀ w ∈ sem.waiters, initial < w.expected
  | _ => True

instance decidableInOrder (s : SemSystem) : ∀ op, Decidable (inOrder s op)
  | .signal handle _ => inferInstanceAs (Decidable (∀ sem ∈ s.mgr.semaphores handle, _ → _ → _))
  | .create _ => inferInstanceAs (Decidable (∀ sem ∈ s.mgr.semaphores s.mgr.nextHandle, _))
  | .wait .. | .destroy _ => inferInstanceAs (Decidable True)

/-! ### The invariant -/

/-- The tickets of the callbacks in a queue. -/
def tickets (ws : List TimelineWaiter) : List ℕ := ws.filterMap TimelineWaiter.callback

/-- The registration of a callback that has not been made. -/
def Registration.open (h e : UInt64) : Registration := ⟨h, e, false, 0⟩

structure SemInv (s : SemSystem) : Prop where
  noneDue : ∀ h sem, s.mgr.semaphores h = some sem → ∀ w ∈ sem.waiters, sem.value < w.expected
  dead : ∀ h sem, s.mgr.semaphores h = some sem → sem.destroyed = true → sem.waiters = []
  queued : ∀ h sem, s.mgr.semaphores h = some sem → ∀ w ∈ sem.waiters, ∀ t, w.callback = some t →
    s.ledger t = some (.open h w.expected)
  once : ∀ h sem, s.mgr.semaphores h = some sem → (tickets sem.waiters).Nodup
  settled : ∀ t reg, s.ledger t = some reg → (reg.reached = true ∧ reg.calls = 1) ∨
    (reg = .open reg.handle reg.expected ∧ ∃ sem, s.mgr.semaphores reg.handle = some sem ∧
      ∃ w ∈ sem.waiters, w.callback = some t)
  fresh : ∀ t, s.tickets ≤ t → s.ledger t = none

/-- The queue of a handle, empty when there is no such semaphore. -/
def SemaphoreManager.waitersAt (m : SemaphoreManager) (h : UInt64) : List TimelineWaiter :=
  ((m.semaphores h).map Semaphore.waiters).getD []

theorem SemaphoreManager.exists_of_mem_waitersAt {m : SemaphoreManager} {h : UInt64}
    {w : TimelineWaiter} (hw : w ∈ m.waitersAt h) :
    ∃ sem, m.semaphores h = some sem ∧ w ∈ sem.waiters := by
  cases hsem : m.semaphores h with
  | none => simp [waitersAt, hsem] at hw
  | some sem =>
    refine ⟨sem, rfl, ?_⟩
    simpa [waitersAt, hsem] using hw

/-- A waiter's callback is made as often as its ticket is in the queue released. -/
theorem invoke_countP (arg : TimelineWaiter → UInt64) (ws : List TimelineWaiter) (t : ℕ) :
    (SemaphoreManager.invoke arg ws).countP (fun c => c.1 == t) = (tickets ws).count t := by
  induction ws with
  | nil => rfl
  | cons w ws ih =>
    rw [SemaphoreManager.invoke, tickets] at ih ⊢
    cases hw : w.callback with
    | none => simpa [hw] using ih
    | some t' => simp [hw, List.countP_cons, List.count_cons, ih]

theorem mem_tickets {ws : List TimelineWaiter} {t : ℕ} :
    t ∈ tickets ws ↔ ∃ w ∈ ws, w.callback = some t := by
  simp [tickets]

section Release

variable {s s' : SemSystem} {h : UInt64} {ready rest : List TimelineWaiter} {due : UInt64 → Bool}

theorem SemInv.queued_waitersAt (hinv : SemInv s) {w : TimelineWaiter} (hw : w ∈ s.mgr.waitersAt h)
    {t : ℕ} (ht : w.callback = some t) : s.ledger t = some (.open h w.expected) := by
  obtain ⟨sem, hsem, hmem⟩ := SemaphoreManager.exists_of_mem_waitersAt hw
  exact hinv.queued h sem hsem w hmem t ht

theorem SemInv.once_waitersAt (hinv : SemInv s) (h : UInt64) :
    (tickets (s.mgr.waitersAt h)).Nodup := by
  cases hsem : s.mgr.semaphores h with
  | none => simp [SemaphoreManager.waitersAt, hsem, tickets]
  | some sem => simpa [SemaphoreManager.waitersAt, hsem] using hinv.once h sem hsem

/-- A queued callback expects what its registration does. -/
theorem SemInv.expected_of_queued (hinv : SemInv s) {t : ℕ} {reg : Registration}
    (hreg : s.ledger t = some reg) {sem : Semaphore} (hsem : s.mgr.semaphores h = some sem)
    {w : TimelineWaiter} (hw : w ∈ sem.waiters) (hcb : w.callback = some t) :
    reg.expected = w.expected := by
  have hq := hinv.queued h sem hsem w hw t hcb
  rw [hreg, Option.some.injEq] at hq
  rw [hq]
  rfl

/-- What holds of the semaphores, when one of them is new. -/
theorem forall_update {f f' : UInt64 → Option Semaphore} {sem : Semaphore}
    (hf : f' = Function.update f h (some sem)) {P : UInt64 → Semaphore → Prop} (hnew : P h sem)
    (hkept : ∀ h' sem', h' ≠ h → f h' = some sem' → P h' sem') :
    ∀ h' sem', f' h' = some sem' → P h' sem' := by
  intro h' sem' hsem
  rw [hf, Function.update_apply] at hsem
  split_ifs at hsem with heq
  · obtain rfl := Option.some.inj hsem
    exact heq ▸ hnew
  · exact hkept h' sem' heq hsem

/-- How often an operation that releases `ready` makes the callback of a registration. -/
theorem SemInv.released_count (hinv : SemInv s) (hold : s.mgr.waitersAt h = ready ++ rest)
    (hdue : ∀ w ∈ ready, due w.expected = true) (hwait : ∀ w ∈ rest, due w.expected = false)
    {t : ℕ} {reg : Registration} (hreg : s.ledger t = some reg) :
    (reg.reached = true ∧ (tickets ready).count t = 0) ∨
      (reg.reached = false ∧
        (tickets ready).count t = if reg.handle = h ∧ due reg.expected = true then 1 else 0) := by
  have hready : ∀ t ∈ tickets ready, ∃ w ∈ ready, s.ledger t = some (.open h w.expected) := by
    intro t ht
    obtain ⟨w, hw, hcb⟩ := mem_tickets.mp ht
    exact ⟨w, hw, hinv.queued_waitersAt (h := h) (by rw [hold]; simp [hw]) hcb⟩
  obtain ⟨hreached, -⟩ | ⟨hopen, sem, hsem, w, hw, hcb⟩ := hinv.settled t reg hreg
  · refine .inl ⟨hreached, List.count_eq_zero.mpr fun ht => ?_⟩
    obtain ⟨w, -, hledger⟩ := hready t ht
    rw [hreg, Option.some.injEq] at hledger
    simp [hledger, Registration.open] at hreached
  · have hfalse : reg.reached = false := by rw [hopen]; rfl
    refine .inr ⟨hfalse, ?_⟩
    have hexp := hinv.expected_of_queued hreg hsem hw hcb
    split_ifs with hcond
    · -- the waiter is in the queue released, not in the rest, and in it only once
      obtain ⟨rfl, hdue'⟩ := hcond
      have hmem : w ∈ ready ++ rest := by
        rw [← hold, SemaphoreManager.waitersAt, hsem]
        exact hw
      have hnodup : (tickets ready).Nodup := by
        have hall := hinv.once_waitersAt reg.handle
        rw [hold, tickets, List.filterMap_append] at hall
        exact hall.of_append_left
      refine List.count_eq_one_of_mem hnodup (mem_tickets.mpr ⟨w, ?_, hcb⟩)
      rcases List.mem_append.mp hmem with hin | hin
      · exact hin
      · rw [hexp, hwait w hin] at hdue'
        cases hdue'
    · refine List.count_eq_zero.mpr fun ht => hcond ?_
      obtain ⟨w', hw', hledger⟩ := hready t ht
      rw [hreg, Option.some.injEq] at hledger
      rw [hledger]
      exact ⟨rfl, hdue w' hw'⟩

/-- A semaphore releases the waiters that are due and keeps the others. -/
theorem SemInv.release (hinv : SemInv s) (h : UInt64) (sem : Semaphore)
    (ready rest : List TimelineWaiter) (due : UInt64 → Bool)
    (hold : s.mgr.waitersAt h = ready ++ rest)
    (hmgr : s'.mgr.semaphores = Function.update s.mgr.semaphores h (some sem))
    (hrest : sem.waiters = rest) (hdead : sem.destroyed = true → rest = [])
    (hdue : ∀ w ∈ ready, due w.expected = true) (hwait : ∀ w ∈ rest, due w.expected = false)
    (hnone : ∀ w ∈ rest, sem.value < w.expected) (htick : s.tickets ≤ s'.tickets)
    (hledger : ∀ t, s'.ledger t = (s.ledger t).map fun reg => { reg with
      reached := reg.reached || (decide (reg.handle = h) && due reg.expected)
      calls := reg.calls + (tickets ready).count t }) : SemInv s' where
  noneDue := by
    refine forall_update hmgr ?_ fun h' sem' _ => hinv.noneDue h' sem'
    rw [hrest]
    exact hnone
  dead := by
    refine forall_update hmgr (fun hd => ?_) fun h' sem' _ => hinv.dead h' sem'
    rw [hrest, hdead hd]
  queued := by
    intro h' sem' hsem w hw t ht
    have hopen : s.ledger t = some (.open h' w.expected) ∧
        (h' = h → due w.expected = false) := by
      rw [hmgr, Function.update_apply] at hsem
      split_ifs at hsem with heq
      · obtain rfl := Option.some.inj hsem
        rw [hrest] at hw
        have hin : w ∈ s.mgr.waitersAt h := by simp [hold, hw]
        exact ⟨heq ▸ hinv.queued_waitersAt hin ht, fun _ => hwait w hw⟩
      · exact ⟨hinv.queued h' sem' hsem w hw t ht, fun hh => absurd hh heq⟩
    obtain ⟨hledger', hnot⟩ := hopen
    obtain ⟨habs, -⟩ | ⟨-, hcount⟩ := hinv.released_count hold hdue hwait hledger'
    · cases habs
    · rw [hledger, hledger', Option.map_some, Option.some.injEq]
      by_cases heq : h' = h
      · simp [Registration.open, heq, hnot heq] at hcount ⊢
        exact hcount
      · simp [Registration.open, heq] at hcount ⊢
        exact hcount
  once := by
    refine forall_update hmgr ?_ fun h' sem' _ => hinv.once h' sem'
    have hall := hinv.once_waitersAt h
    rw [hold, tickets, List.filterMap_append] at hall
    rw [hrest]
    exact hall.of_append_right
  settled := by
    intro t reg' hreg'
    rw [hledger, Option.map_eq_some_iff] at hreg'
    obtain ⟨reg, hreg, rfl⟩ := hreg'
    obtain ⟨hreached, hzero⟩ | ⟨hfalse, hcount⟩ := hinv.released_count hold hdue hwait hreg
    · obtain ⟨-, hone⟩ | ⟨hopen, -⟩ := hinv.settled t reg hreg
      · simp [hreached, hzero, hone]
      · rw [hopen] at hreached
        cases hreached
    · obtain ⟨habs, -⟩ | ⟨hopen, sem', hsem', w, hw, hcb⟩ := hinv.settled t reg hreg
      · rw [hfalse] at habs
        cases habs
      have hcalls : reg.calls = 0 := by rw [hopen]; rfl
      by_cases hcond : reg.handle = h ∧ due reg.expected = true
      · rw [if_pos hcond] at hcount
        simp [hcond.1, hcond.2, hcount, hcalls]
      · rw [if_neg hcond] at hcount
        have hnot : (decide (reg.handle = h) && due reg.expected) = false := by
          simpa using hcond
        refine .inr ⟨?_, ?_⟩
        · rw [hnot, hcount, hfalse, hcalls]
          rfl
        · simp only [hmgr, Function.update_apply]
          split_ifs with heq
          · refine ⟨sem, rfl, w, ?_, hcb⟩
            have hexp := hinv.expected_of_queued hreg hsem' hw hcb
            have hmem : w ∈ ready ++ rest := by
              rw [← hold, ← heq, SemaphoreManager.waitersAt, hsem']
              exact hw
            rw [hrest]
            rcases List.mem_append.mp hmem with hin | hin
            · exact absurd ⟨heq, hexp ▸ hdue w hin⟩ hcond
            · exact hin
          · exact ⟨sem', hsem', w, hw, hcb⟩
  fresh := by
    intro t ht
    rw [hledger, hinv.fresh t (Nat.le_trans htick ht), Option.map_none]

/-- A new waiter joins the queue of a semaphore that has not reached its value. -/
theorem SemInv.register (hinv : SemInv s) {old : Semaphore} (w : TimelineWaiter) (t₀ : ℕ)
    (hold : s.mgr.semaphores h = some old) (hlive : old.destroyed = false)
    (hmgr : s'.mgr.semaphores =
      Function.update s.mgr.semaphores h (some { old with waiters := old.waiters ++ [w] }))
    (hlt : old.value < w.expected) (ht₀ : s.tickets ≤ t₀) (htick : t₀ < s'.tickets)
    (hcb : ∀ t, w.callback = some t → t = t₀)
    (hledger : ∀ t, s'.ledger t =
      if t = t₀ then w.callback.map fun _ => .open h w.expected else s.ledger t) : SemInv s' where
  noneDue := by
    refine forall_update hmgr (fun w' hw' => ?_) fun h' sem' _ => hinv.noneDue h' sem'
    rcases List.mem_append.mp hw' with hin | hin
    · exact hinv.noneDue h old hold w' hin
    · rw [List.mem_singleton.mp hin]
      exact hlt
  dead := by
    refine forall_update hmgr (fun hd => ?_) fun h' sem' _ => hinv.dead h' sem'
    rw [hlive] at hd
    cases hd
  queued := by
    have hknown : ∀ t reg, s.ledger t = some reg → s'.ledger t = some reg := by
      intro t reg hreg
      have hne : t ≠ t₀ := by
        rintro rfl
        rw [hinv.fresh t ht₀] at hreg
        cases hreg
      rw [hledger, if_neg hne, hreg]
    refine forall_update hmgr (fun w' hw' t ht => ?_) fun h' sem' _ hsem w' hw' t ht =>
      hknown t _ (hinv.queued h' sem' hsem w' hw' t ht)
    rcases List.mem_append.mp hw' with hin | hin
    · exact hknown t _ (hinv.queued h old hold w' hin t ht)
    · rw [List.mem_singleton.mp hin] at ht ⊢
      rw [hledger, if_pos (hcb t ht), ht, Option.map_some]
  once := by
    refine forall_update hmgr ?_ fun h' sem' _ => hinv.once h' sem'
    have hnodup := hinv.once h old hold
    rw [tickets, List.filterMap_append]
    refine hnodup.append ?_ fun t ht ht' => ?_
    · cases hw : w.callback <;> simp [hw]
    · obtain ⟨w', hw', hcb'⟩ := mem_tickets.mp ht
      obtain ⟨w'', hw'', hcb''⟩ := mem_tickets.mp ht'
      rw [List.mem_singleton.mp hw''] at hcb''
      have hknown := hinv.queued h old hold w' hw' t hcb'
      rw [hcb t hcb'', hinv.fresh t₀ ht₀] at hknown
      cases hknown
  settled := by
    intro t reg hreg
    rw [hledger] at hreg
    split_ifs at hreg with heq
    · obtain ⟨t', hw, rfl⟩ := Option.map_eq_some_iff.mp hreg
      refine .inr ⟨rfl, _, by rw [hmgr]; exact Function.update_self .., w, by simp, ?_⟩
      rw [hw, heq, hcb t' hw]
    · obtain hdone | ⟨hopen, sem', hsem', w', hw', hcb'⟩ := hinv.settled t reg hreg
      · exact .inl hdone
      · refine .inr ⟨hopen, ?_⟩
        rw [hmgr, Function.update_apply]
        split_ifs with hh
        · rw [hh, hold, Option.some.injEq] at hsem'
          exact ⟨_, rfl, w', by rw [hsem']; simp [hw'], hcb'⟩
        · exact ⟨sem', hsem', w', hw', hcb'⟩
  fresh := by
    intro t ht
    have hlt' := Nat.lt_of_lt_of_le htick ht
    rw [hledger, if_neg (by omega), hinv.fresh t (by omega)]

end Release

/-! ### Steps -/

/-- The ledger after an operation that registers nothing. -/
theorem step_ledger {s : SemSystem} (hinv : SemInv s) {op : SemOp}
    (hreg : SemSystem.enrol s.mgr s.tickets (SemSystem.perform s.mgr s.tickets op) op = none)
    (t : ℕ) :
    (s.step op).ledger t =
      (s.ledger t).map (SemSystem.settle op (SemSystem.perform s.mgr s.tickets op) t) := by
  simp only [SemSystem.step]
  split_ifs with ht
  · rw [hreg, ht, hinv.fresh s.tickets (Nat.le_refl _), Option.map_none]
  · rfl

/-- An operation that changes no semaphore and makes no callback of an earlier wait; if it makes a
registration, that one is settled. -/
theorem semInv_idle {s : SemSystem} (hinv : SemInv s) {op : SemOp}
    (hmgr : (SemSystem.perform s.mgr s.tickets op).mgr = s.mgr)
    (hnew : ∀ reg, SemSystem.enrol s.mgr s.tickets (SemSystem.perform s.mgr s.tickets op) op =
      some reg → reg.reached = true ∧ reg.calls = 1)
    (hsettle : ∀ t reg, t < s.tickets →
      SemSystem.settle op (SemSystem.perform s.mgr s.tickets op) t reg = reg) :
    SemInv (s.step op) := by
  have hsame : (s.step op).mgr = s.mgr := hmgr
  have hledger : ∀ t, (s.step op).ledger t = if t = s.tickets then
      SemSystem.enrol s.mgr s.tickets (SemSystem.perform s.mgr s.tickets op) op
      else s.ledger t := by
    intro t
    simp only [SemSystem.step]
    split_ifs with heq
    · rfl
    · cases hl : s.ledger t with
      | none => rfl
      | some reg =>
        have ht : t < s.tickets := by
          by_contra hge
          rw [hinv.fresh t (Nat.le_of_not_lt hge)] at hl
          cases hl
        rw [Option.map_some, hsettle t reg ht]
  have hknown : ∀ t reg, s.ledger t = some reg → (s.step op).ledger t = some reg := by
    intro t reg hreg
    have hne : t ≠ s.tickets := by
      rintro rfl
      rw [hinv.fresh s.tickets (Nat.le_refl _)] at hreg
      cases hreg
    rw [hledger, if_neg hne, hreg]
  refine ⟨?_, ?_, ?_, ?_, fun t reg hreg => ?_, fun t ht => ?_⟩
  · rw [hsame]; exact hinv.noneDue
  · rw [hsame]; exact hinv.dead
  · rw [hsame]
    exact fun h sem hsem w hw t ht => hknown t _ (hinv.queued h sem hsem w hw t ht)
  · rw [hsame]; exact hinv.once
  · rw [hledger] at hreg
    split_ifs at hreg with heq
    · exact .inl (hnew reg hreg)
    · rw [hsame]
      exact hinv.settled t reg hreg
  · rw [hledger, if_neg (Nat.ne_of_gt ht)]
    exact hinv.fresh t (Nat.le_of_succ_le ht)

theorem semInv_signal {s : SemSystem} (hinv : SemInv s) {handle value : UInt64}
    (hG : inOrder s (.signal handle value)) : SemInv (s.step (.signal handle value)) := by
  by_cases hraise : ∃ sem, s.mgr.semaphores handle = some sem ∧ sem.destroyed = false ∧
      sem.value < value
  · obtain ⟨sem, hsem, hlive, hlt⟩ := hraise
    have hperform : SemSystem.perform s.mgr s.tickets (.signal handle value) = _ :=
      SemaphoreManager.signal_raises hsem hlive hlt
    have hrest := hG sem hsem hlive hlt
    refine hinv.release handle { sem with
        value := value
        waiters := sem.waiters.dropWhile fun w => decide (w.expected ≤ value) }
      (sem.waiters.takeWhile fun w => decide (w.expected ≤ value)) _
      (fun e => decide (e ≤ value)) ?_ ?_ rfl ?_ ?_ ?_ hrest ?_ fun t => ?_
    · simp only [SemaphoreManager.waitersAt, hsem, Option.map_some, Option.getD_some]
      exact (List.takeWhile_append_dropWhile ..).symm
    · simp only [SemSystem.step, hperform]
      rfl
    · intro hd
      exact absurd hd (by simp [hlive])
    · intro w hw
      have hle := List.mem_takeWhile_imp
        (p := fun w : TimelineWaiter => decide (w.expected ≤ value)) hw
      exact hle
    · intro w hw
      exact decide_eq_false (UInt64.not_le.mpr (hrest w hw))
    · exact Nat.le_succ _
    · rw [step_ledger hinv rfl, hperform]
      congr 1
      funext reg
      simp [SemSystem.settle, SemResult.reaches, invoke_countP]
  · have hfail : SemSystem.perform s.mgr s.tickets (.signal handle value) = _ :=
      SemaphoreManager.signal_refused hraise
    refine semInv_idle hinv (by rw [hfail]) nofun fun t reg _ => ?_
    rw [hfail]
    simp [SemSystem.settle, SemResult.reaches, eINVAL]

theorem semInv_destroy {s : SemSystem} (hinv : SemInv s) (handle : UInt64) :
    SemInv (s.step (.destroy handle)) := by
  by_cases hlive : ∃ sem, s.mgr.semaphores handle = some sem ∧ sem.destroyed = false
  · obtain ⟨sem, hsem, hlive⟩ := hlive
    have hperform : SemSystem.perform s.mgr s.tickets (.destroy handle) = _ :=
      SemaphoreManager.destroy_live hsem hlive
    refine hinv.release handle { sem with destroyed := true, waiters := [] } sem.waiters []
      (fun _ => true) ?_ ?_ rfl ?_ ?_ ?_ ?_ ?_ fun t => ?_
    · simp only [SemaphoreManager.waitersAt, hsem, Option.map_some, Option.getD_some]
      exact (List.append_nil _).symm
    · simp only [SemSystem.step, hperform]
      rfl
    · exact fun _ => rfl
    · exact fun _ _ => rfl
    · simp
    · simp
    · exact Nat.le_succ _
    · rw [step_ledger hinv rfl, hperform]
      congr 1
      funext reg
      simp [SemSystem.settle, SemResult.reaches, invoke_countP]
  · have hfail : SemSystem.perform s.mgr s.tickets (.destroy handle) = _ :=
      SemaphoreManager.destroy_refused hlive
    refine semInv_idle hinv (by rw [hfail]) nofun fun t reg _ => ?_
    rw [hfail]
    simp [SemSystem.settle, SemResult.reaches, eINVAL]

theorem semInv_create {s : SemSystem} (hinv : SemInv s) {initial : UInt64}
    (hG : inOrder s (.create initial)) : SemInv (s.step (.create initial)) := by
  have hwaiters : ((s.mgr.semaphores s.mgr.nextHandle).getD ⟨0, [], false⟩).waiters =
      s.mgr.waitersAt s.mgr.nextHandle := by
    unfold SemaphoreManager.waitersAt
    cases s.mgr.semaphores s.mgr.nextHandle <;> rfl
  have hbelow : ∀ w ∈ s.mgr.waitersAt s.mgr.nextHandle, initial < w.expected := by
    intro w hw
    obtain ⟨sem, hsem, hmem⟩ := SemaphoreManager.exists_of_mem_waitersAt hw
    exact hG sem hsem w hmem
  refine hinv.release s.mgr.nextHandle _ [] (s.mgr.waitersAt s.mgr.nextHandle)
    (fun e => decide (e ≤ initial)) rfl rfl hwaiters ?_ ?_ ?_ hbelow ?_ fun t => ?_
  · intro hd
    cases hsem : s.mgr.semaphores s.mgr.nextHandle with
    | none => simp [hsem] at hd
    | some sem =>
      have hempty := hinv.dead _ sem hsem (by simpa [hsem] using hd)
      simp [SemaphoreManager.waitersAt, hsem, hempty]
  · simp
  · intro w hw
    exact decide_eq_false (UInt64.not_le.mpr (hbelow w hw))
  · exact Nat.le_succ _
  · rw [step_ledger hinv rfl]
    rfl

theorem semInv_wait {s : SemSystem} (hinv : SemInv s) (handle expected : UInt64)
    (hasCallback : Bool) (userData : UInt64) :
    SemInv (s.step (.wait handle expected hasCallback userData)) := by
  by_cases hwait : ∃ sem, s.mgr.semaphores handle = some sem ∧ sem.destroyed = false ∧
      sem.value < expected
  · obtain ⟨sem, hsem, hlive, hlt⟩ := hwait
    have hperform : SemSystem.perform s.mgr s.tickets
        (.wait handle expected hasCallback userData) = _ :=
      SemaphoreManager.wait_queues hsem hlive hlt
    refine hinv.register ⟨expected, if hasCallback then some s.tickets else none, userData⟩
      s.tickets hsem hlive ?_ hlt (Nat.le_refl _) (Nat.lt_succ_self _) ?_ fun t => ?_
    · simp only [SemSystem.step, hperform]
      rfl
    · intro t ht
      cases hasCallback
      · cases ht
      · exact (Option.some.inj ht).symm
    · have hsame : ∀ reg, SemSystem.settle (.wait handle expected hasCallback userData)
          (SemSystem.perform s.mgr s.tickets (.wait handle expected hasCallback userData)) t reg =
            reg := by
        intro reg
        rw [hperform]
        simp [SemSystem.settle, SemResult.reaches]
      by_cases ht : t = s.tickets
      · simp only [SemSystem.step, if_pos ht, hperform]
        have hbelow : decide (expected ≤ sem.value) = false :=
          decide_eq_false (UInt64.not_le.mpr hlt)
        cases hasCallback with
        | false => rfl
        | true => simp [SemSystem.enrol, hsem, hbelow, Registration.open]
      · simp only [SemSystem.step, if_neg ht]
        cases s.ledger t with
        | none => rfl
        | some reg => rw [Option.map_some, hsame]
  · -- refused, or answered at once: nothing is queued
    have hsettle {ret : Int} {calls : List (ℕ × UInt64)}
        (hperform : SemSystem.perform s.mgr s.tickets
          (.wait handle expected hasCallback userData) = ⟨ret, handle, s.mgr, calls⟩)
        (hcalls : ∀ c ∈ calls, c.1 = s.tickets) (t : ℕ) (reg : Registration)
        (ht : t < s.tickets) : SemSystem.settle (.wait handle expected hasCallback userData)
          (SemSystem.perform s.mgr s.tickets (.wait handle expected hasCallback userData)) t reg =
            reg := by
      have hzero : calls.countP (fun c => c.1 == t) = 0 := by
        refine List.countP_eq_zero.mpr fun c hc => ?_
        simp only [hcalls c hc, beq_iff_eq]
        omega
      rw [hperform]
      simp [SemSystem.settle, SemResult.reaches, hzero]
    by_cases hlive : ∃ sem, s.mgr.semaphores handle = some sem ∧ sem.destroyed = false
    · obtain ⟨sem, hsem, hlive⟩ := hlive
      have hle : expected ≤ sem.value := by
        by_contra hnot
        exact hwait ⟨sem, hsem, hlive, UInt64.not_le.mp hnot⟩
      have hperform : SemSystem.perform s.mgr s.tickets
          (.wait handle expected hasCallback userData) = _ :=
        SemaphoreManager.wait_answers hsem hlive hle
      refine semInv_idle hinv (by rw [hperform]) (fun reg hreg => ?_)
        (hsettle hperform fun c hc => ?_)
      · rw [hperform] at hreg
        cases hasCallback with
        | false => cases hreg
        | true =>
          simp only [SemSystem.enrol, if_true, Option.some.injEq] at hreg
          rw [← hreg]
          refine ⟨?_, ?_⟩
          · rw [hsem]
            exact decide_eq_true hle
          · simp [SemaphoreManager.invoke]
      · cases hasCallback <;> simp [SemaphoreManager.invoke] at hc
        simp [hc]
    · have hperform : SemSystem.perform s.mgr s.tickets
          (.wait handle expected hasCallback userData) = _ :=
        SemaphoreManager.wait_refused hlive
      refine semInv_idle hinv (by rw [hperform]) (fun reg hreg => ?_) (hsettle hperform (by simp))
      rw [hperform] at hreg
      cases hasCallback <;> cases hreg

theorem semInv_step (s : SemSystem) (op : SemOp) (hinv : SemInv s) (hG : inOrder s op) :
    SemInv (s.step op) := by
  cases op with
  | create initial => exact semInv_create hinv hG
  | signal handle value => exact semInv_signal hinv hG
  | wait handle expected hasCallback userData =>
    exact semInv_wait hinv handle expected hasCallback userData
  | destroy handle => exact semInv_destroy hinv handle

theorem semInv_init : SemInv .init where
  noneDue := nofun
  dead := nofun
  queued := nofun
  once := nofun
  settled := nofun
  fresh := fun _ _ => rfl

/-! ### The result -/

theorem noLostWakeup_of_inv {s : SemSystem} (hinv : SemInv s) : NoLostWakeup s := by
  refine ⟨hinv.noneDue, fun t reg hreg => ?_, fun t reg hreg hreached => ?_⟩
  · obtain ⟨-, hcalls⟩ | ⟨hopen, -⟩ := hinv.settled t reg hreg
    · omega
    · rw [hopen]
      exact Nat.zero_le 1
  · obtain ⟨-, hcalls⟩ | ⟨hopen, -⟩ := hinv.settled t reg hreg
    · exact hcalls
    · rw [hopen] at hreached
      cases hreached

/-- An operation that is out of order leaves a due waiter in the queue. -/
theorem inOrder_of_noLostWakeup (s : SemSystem) (op : SemOp) (h : NoLostWakeup (s.step op)) :
    inOrder s op := by
  cases op with
  | signal handle value =>
    intro sem hsem hlive hlt w hw
    refine h.noneDue handle { sem with
      value := value
      waiters := sem.waiters.dropWhile fun w => decide (w.expected ≤ value) } ?_ w hw
    have hsem' : s.mgr.semaphores handle = some sem := hsem
    simp only [SemSystem.step, SemSystem.perform, SemaphoreManager.signal, hsem']
    rw [if_neg (by simp [hlive]), if_neg (UInt64.not_le.mpr hlt)]
    exact Function.update_self ..
  | create initial =>
    intro sem hsem w hw
    refine h.noneDue s.mgr.nextHandle { sem with value := initial } ?_ w hw
    have hsem' : s.mgr.semaphores s.mgr.nextHandle = some sem := hsem
    simp only [SemSystem.step, SemSystem.perform, SemaphoreManager.create, SemaphoreManager.put,
      hsem', Function.update_self, Option.getD_some]
  | wait handle expected hasCallback userData => trivial
  | destroy handle => trivial

/-- **Wakeups.**  No wakeup is lost in any state of a run exactly when every operation of the run
is in order. -/
theorem no_lost_wakeup_iff (ops : List SemOp) :
    Always SemSystem.step NoLostWakeup .init ops ↔ Guarded SemSystem.step inOrder .init ops :=
  always_iff_guarded semInv_step (fun _ => noLostWakeup_of_inv)
    (fun s op _ => inOrder_of_noLostWakeup s op) ops semInv_init

/-- Two waiters, the second with the lower expectation: the signal that reaches it finds it behind
the first and stops there. -/
theorem no_lost_wakeup_fails : ¬ Always SemSystem.step NoLostWakeup .init
    [.create 0, .wait 1 10 true 0, .wait 1 5 true 0, .signal 1 5] := by
  intro h
  exact absurd (h.last.noneDue 1 _ rfl ⟨5, some 2, 0⟩ (by decide +kernel)) (by decide +kernel)

end UsrLinuxEmu.GpuDriver
