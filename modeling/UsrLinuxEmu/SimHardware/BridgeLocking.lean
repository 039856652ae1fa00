import Mathlib.Logic.Function.Basic
import UsrLinuxEmu.Transition.Locking
import UsrLinuxEmu.Transition.Run

/-!
# The locks of the bridge (`sim_hardware/src/cpptlm/bridge.cpp`)

Every bridge has a mutex in its `Impl`, and `g_active_bridge_mutex` protects the pointer to the
active bridge.  `init` and `destroy` take the second while they hold the first; the interrupt shim
takes the first while it holds the second.

* `LockingState.step` — threads that run calls, one lock, unlock or body at a time;
* `DeadlockFree` — no set of threads is deadlocked;
* `unopposed` — no thread starts to wait against a thread that waits the other way;
* `bridge_locking_iff` — a run stays free of deadlocks exactly when that holds of its steps.
-/

namespace UsrLinuxEmu.SimHardware

open UsrLinuxEmu.Transition

/-! ### Calls -/

inductive BridgeMutex where
  | impl (bridge : ℕ)
  | global
  deriving DecidableEq, Repr

/-- The accessors, which hold the bridge's mutex from end to end. -/
inductive BridgeAccessor where
  | mmioRead
  | mmioWrite
  | backdoorRead
  | backdoorWrite
  | configRead
  | configWrite
  | registerMsixCallback
  | attachEndpoint
  | injectMsixForTest
  deriving DecidableEq, Repr

/-- The calls that take the bridge's mutex first.  `ready` says that the backend is the mock, or
that its library loads and makes an emulator. -/
inductive ImplCall where
  | init (ready : Bool)
  | destroy
  | access (accessor : BridgeAccessor)
  deriving DecidableEq, Repr

/-- The calls that take the global mutex first: `CpptlmBridge_get`, `CpptlmBridge_set_active` and
`bridge_inject_msix_shim`. -/
inductive GlobalCall where
  | get
  | setActive (bridge : Option ℕ)
  | injectMsixShim
  deriving DecidableEq, Repr

inductive BridgeCall where
  | onImpl (bridge : ℕ) (call : ImplCall)
  | onGlobal (call : GlobalCall)
  deriving DecidableEq, Repr

/-- Where a thread is; a lock it is about to take comes first in the name. -/
inductive BridgePc where
  | idle
  | lockImpl (bridge : ℕ) (call : ImplCall)
  | inImpl (bridge : ℕ) (call : ImplCall)
  /-- `init` or `destroy`, before `g_lock`. -/
  | lockGlobalInImpl (bridge : ℕ) (call : ImplCall)
  | inImplGlobal (bridge : ℕ) (call : ImplCall)
  | leaveImpl (bridge : ℕ)
  | lockGlobal (call : GlobalCall)
  | inGlobal (call : GlobalCall)
  /-- The shim, in `inject_msix_for_test` of the bridge it read. -/
  | lockImplInGlobal (bridge : ℕ)
  | inGlobalImpl (bridge : ℕ)
  /-- The shim calls the callback and returns. -/
  | leaveGlobal
  deriving DecidableEq, Repr

namespace BridgePc

def entry : BridgeCall → BridgePc
  | .onImpl bridge call => .lockImpl bridge call
  | .onGlobal call => .lockGlobal call

/-- The mutexes that a thread holds there, the last taken first. -/
def held : BridgePc → List BridgeMutex
  | .idle | .lockImpl .. | .lockGlobal _ => []
  | .inImpl bridge _ | .lockGlobalInImpl bridge _ | .leaveImpl bridge => [.impl bridge]
  | .inImplGlobal bridge _ => [.global, .impl bridge]
  | .inGlobal _ | .lockImplInGlobal _ | .leaveGlobal => [.global]
  | .inGlobalImpl bridge => [.impl bridge, .global]

/-- The mutex that a thread waits for there. -/
def wants : BridgePc → Option BridgeMutex
  | .lockImpl bridge _ | .lockImplInGlobal bridge => some (.impl bridge)
  | .lockGlobal _ | .lockGlobalInImpl .. => some .global
  | _ => none

end BridgePc

/-! ### Threads -/

structure LockingState where
  initialized : ℕ → Bool
  /-- `g_active_bridge`. -/
  active : Option ℕ
  owner : BridgeMutex → Option ℕ
  pc : ℕ → BridgePc

namespace LockingState

def initial : LockingState := ⟨fun _ => false, none, fun _ => none, fun _ => .idle⟩

def goto (s : LockingState) (t : ℕ) (pc : BridgePc) : LockingState :=
  { s with pc := Function.update s.pc t pc }

/-- `lock()`: the thread waits where it is while the mutex has an owner. -/
def lock (s : LockingState) (t : ℕ) (m : BridgeMutex) (pc : BridgePc) : LockingState :=
  if s.owner m = none then
    { s with owner := Function.update s.owner m (some t), pc := Function.update s.pc t pc }
  else s

def unlock (s : LockingState) (t : ℕ) (m : BridgeMutex) (pc : BridgePc) : LockingState :=
  { s with owner := Function.update s.owner m none, pc := Function.update s.pc t pc }

/-- The body of a call under the bridge's mutex. -/
def runImpl (s : LockingState) (t bridge : ℕ) : ImplCall → LockingState
  | .init ready =>
    if s.initialized bridge then s.unlock t (.impl bridge) .idle
    else if !ready then s.unlock t (.impl bridge) .idle
    else { s with initialized := Function.update s.initialized bridge true }.goto t
      (.lockGlobalInImpl bridge (.init ready))
  | .destroy => { s with initialized := Function.update s.initialized bridge false }.goto t
      (.lockGlobalInImpl bridge .destroy)
  | .access _ => s.unlock t (.impl bridge) .idle

/-- The end of `init` and `destroy`, under both mutexes. -/
def runImplGlobal (s : LockingState) (t bridge : ℕ) : ImplCall → LockingState
  | .init _ =>
    { s with active := if s.active = none then some bridge else s.active }.unlock t .global
      (.leaveImpl bridge)
  | .destroy =>
    { s with active := if s.active = some bridge then none else s.active }.unlock t .global
      (.leaveImpl bridge)
  | .access _ => s.unlock t .global (.leaveImpl bridge)

/-- The body of a call under the global mutex. -/
def runGlobal (s : LockingState) (t : ℕ) : GlobalCall → LockingState
  | .get => s.unlock t .global .idle
  | .setActive bridge => { s with active := bridge }.unlock t .global .idle
  | .injectMsixShim =>
    match s.active with
    | none => s.unlock t .global .idle
    | some bridge => s.goto t (.lockImplInGlobal bridge)

/-- What a thread that is there does next. -/
def advanceAt (s : LockingState) (t : ℕ) : BridgePc → LockingState
  | .idle => s
  | .lockImpl bridge call => s.lock t (.impl bridge) (.inImpl bridge call)
  | .inImpl bridge call => s.runImpl t bridge call
  | .lockGlobalInImpl bridge call => s.lock t .global (.inImplGlobal bridge call)
  | .inImplGlobal bridge call => s.runImplGlobal t bridge call
  | .leaveImpl bridge => s.unlock t (.impl bridge) .idle
  | .lockGlobal call => s.lock t .global (.inGlobal call)
  | .inGlobal call => s.runGlobal t call
  | .lockImplInGlobal bridge => s.lock t (.impl bridge) (.inGlobalImpl bridge)
  | .inGlobalImpl bridge => s.unlock t (.impl bridge) .leaveGlobal
  | .leaveGlobal => s.unlock t .global .idle

end LockingState

/-- A thread that runs nothing starts a call, or a thread goes on. -/
inductive LockingOp where
  | call (thread : ℕ) (call : BridgeCall)
  | advance (thread : ℕ)
  deriving DecidableEq, Repr

namespace LockingState

def step (s : LockingState) : LockingOp → LockingState
  | .call t call => if s.pc t = .idle then s.goto t (.entry call) else s
  | .advance t => s.advanceAt t (s.pc t)

/-! ### The property -/

def holds (s : LockingState) (t : ℕ) (m : BridgeMutex) : Prop := s.owner m = some t

def wants (s : LockingState) (t : ℕ) : Option BridgeMutex := (s.pc t).wants

def DeadlockFree (s : LockingState) : Prop := ∀ S, ¬Deadlock s.holds s.wants S

/-- The owner of the global mutex, if any, does not wait for the bridge's. -/
def noShimWaits (s : LockingState) (bridge : ℕ) : Prop :=
  ∀ u ∈ s.owner .global, s.pc u ≠ .lockImplInGlobal bridge

/-- The owner of the bridge's mutex, if any, does not wait for the global one. -/
def noImplWaits (s : LockingState) (bridge : ℕ) : Prop :=
  ∀ u ∈ s.owner (.impl bridge), (s.pc u).wants ≠ some .global

instance decidableNoShimWaits (s : LockingState) (bridge : ℕ) :
    Decidable (s.noShimWaits bridge) :=
  inferInstanceAs (Decidable (∀ u ∈ s.owner .global, _))

instance decidableNoImplWaits (s : LockingState) (bridge : ℕ) :
    Decidable (s.noImplWaits bridge) :=
  inferInstanceAs (Decidable (∀ u ∈ s.owner (.impl bridge), _))

/-- The condition on the step of a thread that is there. -/
def unopposedAt (s : LockingState) : BridgePc → Prop
  | .inImpl bridge (.init ready) =>
    s.initialized bridge = false → ready = true → s.noShimWaits bridge
  | .inImpl bridge .destroy => s.noShimWaits bridge
  | .inGlobal .injectMsixShim => ∀ bridge ∈ s.active, s.noImplWaits bridge
  | _ => True

/-- An `init` or `destroy` that goes on to the global mutex is not waited for by a shim that holds
it, and a shim that goes on to a bridge's mutex is not waited for by an owner of that. -/
def unopposed (s : LockingState) : LockingOp → Prop
  | .call .. => True
  | .advance t => s.unopposedAt (s.pc t)

instance decidableUnopposedAt (s : LockingState) : ∀ pc, Decidable (s.unopposedAt pc)
  | .inImpl bridge (.init _) =>
    inferInstanceAs (Decidable (_ → _ → s.noShimWaits bridge))
  | .inImpl bridge .destroy => inferInstanceAs (Decidable (s.noShimWaits bridge))
  | .inGlobal .injectMsixShim =>
    inferInstanceAs (Decidable (∀ bridge ∈ s.active, s.noImplWaits bridge))
  | .idle | .lockImpl .. | .inImpl _ (.access _) | .lockGlobalInImpl .. | .inImplGlobal ..
  | .leaveImpl _ | .lockGlobal _ | .inGlobal .get | .inGlobal (.setActive _)
  | .lockImplInGlobal _ | .inGlobalImpl _ | .leaveGlobal => inferInstanceAs (Decidable True)

instance decidableUnopposed (s : LockingState) : ∀ op, Decidable (s.unopposed op)
  | .call .. => inferInstanceAs (Decidable True)
  | .advance t => inferInstanceAs (Decidable (s.unopposedAt (s.pc t)))

/-! ### The invariant -/

/-- Owners are the threads that are where the mutex is held, and no shim waits for the mutex of a
bridge whose owner waits for the global one. -/
structure LockingInv (s : LockingState) : Prop where
  owners : ∀ m t, s.owner m = some t ↔ m ∈ (s.pc t).held
  unopposed : ∀ t u bridge call, s.pc t = .lockImplInGlobal bridge →
    s.pc u ≠ .lockGlobalInImpl bridge call

theorem lockingInv_initial : LockingInv .initial where
  owners := fun _ _ => by simp [initial, BridgePc.held]
  unopposed := fun _ _ _ _ h => by cases h

/-- Where a thread holds a mutex and waits for another, it is in `init` or `destroy` or in the
shim. -/
theorem wants_of_held {pc : BridgePc} {l m : BridgeMutex} (hl : l ∈ pc.held)
    (hm : pc.wants = some m) :
    (∃ bridge call, pc = .lockGlobalInImpl bridge call ∧ l = .impl bridge ∧ m = .global) ∨
      ∃ bridge, pc = .lockImplInGlobal bridge ∧ l = .global ∧ m = .impl bridge := by
  cases pc with
  | lockGlobalInImpl bridge call =>
    left
    exact ⟨bridge, call, rfl, List.mem_singleton.mp hl, (Option.some.inj hm).symm⟩
  | lockImplInGlobal bridge =>
    right
    exact ⟨bridge, rfl, List.mem_singleton.mp hl, (Option.some.inj hm).symm⟩
  | idle | lockImpl _ _ | lockGlobal _ => cases hl
  | inImpl _ _ | inImplGlobal _ _ | leaveImpl _ | inGlobal _ | inGlobalImpl _ | leaveGlobal =>
    cases hm

open Classical in
/-- The bridge whose mutex the shim waits for is above the global mutex, every other one below. -/
noncomputable def rank (s : LockingState) : BridgeMutex → ℕ
  | .global => 1
  | .impl bridge => if ∃ t, s.pc t = .lockImplInGlobal bridge then 2 else 0

theorem LockingInv.deadlockFree {s : LockingState} (h : LockingInv s) : s.DeadlockFree := by
  apply not_deadlock_of_rank s.rank 2
  · intro m
    unfold rank
    split
    · omega
    · split_ifs <;> omega
  · intro t l m hholds hwants
    have hl := (h.owners l t).mp hholds
    obtain ⟨bridge, call, hpc, rfl, rfl⟩ | ⟨bridge, hpc, rfl, rfl⟩ := wants_of_held hl hwants
    · have hnone : ¬∃ u, s.pc u = .lockImplInGlobal bridge := by
        rintro ⟨u, hu⟩
        exact h.unopposed u t bridge call hu hpc
      simp only [rank, if_neg hnone]
      omega
    · have hsome : ∃ u, s.pc u = .lockImplInGlobal bridge := ⟨t, hpc⟩
      simp only [rank, if_pos hsome]
      omega

/-! ### Steps -/

/-- A thread changes its place, and the owners with it. -/
theorem LockingInv.move {s : LockingState} (h : LockingInv s) {t : ℕ} {pc : BridgePc}
    {owner : BridgeMutex → Option ℕ} {initialized : ℕ → Bool} {active : Option ℕ}
    (howner : ∀ m, owner m = some t ↔ m ∈ pc.held)
    (hother : ∀ m u, u ≠ t → (owner m = some u ↔ s.owner m = some u))
    (hshim : ∀ bridge, pc = .lockImplInGlobal bridge →
      ∀ u call, s.pc u ≠ .lockGlobalInImpl bridge call)
    (himpl : ∀ bridge call, pc = .lockGlobalInImpl bridge call →
      ∀ u, s.pc u ≠ .lockImplInGlobal bridge) :
    LockingInv ⟨initialized, active, owner, Function.update s.pc t pc⟩ where
  owners := by
    intro m u
    simp only
    by_cases hu : u = t
    · subst hu
      rw [Function.update_self]
      exact howner m
    · rw [Function.update_of_ne hu]
      exact (hother m u hu).trans (h.owners m u)
  unopposed := by
    intro u v bridge call hu hv
    simp only at hu hv
    by_cases hut : u = t
    · subst hut
      rw [Function.update_self] at hu
      by_cases hvt : v = u
      · subst hvt
        rw [Function.update_self, hu] at hv
        cases hv
      · rw [Function.update_of_ne hvt] at hv
        exact hshim bridge hu v call hv
    · rw [Function.update_of_ne hut] at hu
      by_cases hvt : v = t
      · subst hvt
        rw [Function.update_self] at hv
        exact himpl bridge call hv u hu
      · rw [Function.update_of_ne hvt] at hv
        exact h.unopposed u v bridge call hu hv

/-- A thread that takes no mutex and gives none back. -/
theorem LockingInv.goto {s : LockingState} (h : LockingInv s) {t : ℕ} {pc : BridgePc}
    {initialized : ℕ → Bool} (hheld : pc.held = (s.pc t).held)
    (hshim : ∀ bridge, pc = .lockImplInGlobal bridge →
      ∀ u call, s.pc u ≠ .lockGlobalInImpl bridge call)
    (himpl : ∀ bridge call, pc = .lockGlobalInImpl bridge call →
      ∀ u, s.pc u ≠ .lockImplInGlobal bridge) :
    LockingInv ({ s with initialized := initialized }.goto t pc) := by
  refine h.move ?_ (fun _ _ _ => Iff.rfl) hshim himpl
  intro m
  rw [hheld]
  exact h.owners m t

theorem LockingInv.lock {s : LockingState} (h : LockingInv s) {t : ℕ} {m : BridgeMutex}
    {pc : BridgePc} (hheld : pc.held = m :: (s.pc t).held) (hwants : pc.wants = none) :
    LockingInv (s.lock t m pc) := by
  unfold LockingState.lock
  split_ifs with hfree
  · refine h.move ?_ ?_ ?_ ?_
    · intro l
      rw [hheld, List.mem_cons]
      by_cases hl : l = m
      · subst hl
        simp
      · rw [Function.update_of_ne hl, h.owners]
        simp [hl]
    · intro l u hu
      by_cases hl : l = m
      · subst hl
        simp [hfree, hu.symm]
      · rw [Function.update_of_ne hl]
    · rintro bridge rfl
      cases hwants
    · rintro bridge call rfl
      cases hwants
  · exact h

theorem LockingInv.unlock {s : LockingState} (h : LockingInv s) {t : ℕ} {m : BridgeMutex}
    {pc : BridgePc} (active : Option ℕ) (hheld : (s.pc t).held = m :: pc.held)
    (hother : m ∉ pc.held) (hwants : pc.wants = none) :
    LockingInv ({ s with active := active }.unlock t m pc) := by
  have howns : s.owner m = some t := by
    rw [h.owners, hheld]
    exact List.mem_cons_self
  refine h.move ?_ ?_ ?_ ?_
  · intro l
    by_cases hl : l = m
    · subst hl
      simp [hother]
    · rw [Function.update_of_ne hl, h.owners, hheld]
      simp [hl]
  · intro l u hu
    by_cases hl : l = m
    · subst hl
      simp [howns, hu.symm]
    · rw [Function.update_of_ne hl]
  · rintro bridge rfl
    cases hwants
  · rintro bridge call rfl
    cases hwants

/-- The thread that waits for a bridge's mutex in the shim owns the global one. -/
theorem LockingInv.not_shim {s : LockingState} (h : LockingInv s) {bridge : ℕ}
    (hG : s.noShimWaits bridge) (u : ℕ) : s.pc u ≠ .lockImplInGlobal bridge := by
  intro hu
  have howns : s.owner .global = some u := by
    rw [h.owners, hu]
    exact List.mem_singleton_self _
  exact hG u howns hu

theorem LockingInv.not_impl {s : LockingState} (h : LockingInv s) {bridge : ℕ}
    (hG : s.noImplWaits bridge) (u : ℕ) (call : ImplCall) :
    s.pc u ≠ .lockGlobalInImpl bridge call := by
  intro hu
  have howns : s.owner (.impl bridge) = some u := by
    rw [h.owners, hu]
    exact List.mem_singleton_self _
  apply hG u howns
  rw [hu]
  rfl

theorem lockingInv_runImpl {s : LockingState} (h : LockingInv s) {t bridge : ℕ} {call : ImplCall}
    (hpc : s.pc t = .inImpl bridge call) (hG : s.unopposedAt (.inImpl bridge call)) :
    LockingInv (s.runImpl t bridge call) := by
  have hgo : ∀ (initialized : ℕ → Bool) (call : ImplCall), s.noShimWaits bridge →
      LockingInv ({ s with initialized := initialized }.goto t
        (.lockGlobalInImpl bridge call)) := by
    intro initialized call hnoShim
    refine h.goto (by rw [hpc]; rfl) ?_ ?_
    · intro b hb
      cases hb
    · intro b c hb u
      cases hb
      exact h.not_shim hnoShim u
  have hleave : LockingInv (s.unlock t (.impl bridge) .idle) :=
    h.unlock s.active (by rw [hpc]; rfl) List.not_mem_nil rfl
  cases call with
  | init ready =>
    rw [runImpl]
    split_ifs with hinit hready
    · exact hleave
    · exact hleave
    · exact hgo _ _ (hG (Bool.not_eq_true _ ▸ hinit) (by simpa using hready))
  | destroy => exact hgo _ _ hG
  | access accessor => exact hleave

theorem lockingInv_runGlobal {s : LockingState} (h : LockingInv s) {t : ℕ} {call : GlobalCall}
    (hpc : s.pc t = .inGlobal call) (hG : s.unopposedAt (.inGlobal call)) :
    LockingInv (s.runGlobal t call) := by
  have hleave : ∀ active, LockingInv ({ s with active := active }.unlock t .global .idle) :=
    fun active => h.unlock active (by rw [hpc]; rfl) List.not_mem_nil rfl
  cases call with
  | get => exact hleave s.active
  | setActive bridge => exact hleave bridge
  | injectMsixShim =>
    rw [runGlobal]
    cases hactive : s.active with
    | none => exact hleave s.active
    | some bridge =>
      refine h.goto (by rw [hpc]; rfl) ?_ ?_
      · intro b hb u call
        cases hb
        exact h.not_impl (hG bridge hactive) u call
      · intro b c hb
        cases hb

theorem lockingInv_advance {s : LockingState} {t : ℕ} (h : LockingInv s)
    (hG : s.unopposedAt (s.pc t)) : LockingInv (s.advanceAt t (s.pc t)) := by
  cases hpc : s.pc t with
  | idle => exact h
  | lockImpl bridge call => exact h.lock (by rw [hpc]; rfl) rfl
  | inImpl bridge call => exact lockingInv_runImpl h hpc (hpc ▸ hG)
  | lockGlobalInImpl bridge call => exact h.lock (by rw [hpc]; rfl) rfl
  | inImplGlobal bridge call =>
    have hleave : ∀ active,
        LockingInv ({ s with active := active }.unlock t .global (.leaveImpl bridge)) :=
      fun active => h.unlock active (by rw [hpc]; rfl) (by simp [BridgePc.held]) rfl
    cases call with
    | init ready => exact hleave _
    | destroy => exact hleave _
    | access accessor => exact hleave s.active
  | leaveImpl bridge => exact h.unlock s.active (by rw [hpc]; rfl) List.not_mem_nil rfl
  | lockGlobal call => exact h.lock (by rw [hpc]; rfl) rfl
  | inGlobal call => exact lockingInv_runGlobal h hpc (hpc ▸ hG)
  | lockImplInGlobal bridge => exact h.lock (by rw [hpc]; rfl) rfl
  | inGlobalImpl bridge =>
    exact h.unlock s.active (by rw [hpc]; rfl) (by simp [BridgePc.held]) rfl
  | leaveGlobal => exact h.unlock s.active (by rw [hpc]; rfl) List.not_mem_nil rfl

theorem lockingInv_step (s : LockingState) (op : LockingOp) (h : LockingInv s)
    (hG : s.unopposed op) : LockingInv (s.step op) := by
  cases op with
  | call t call =>
    show LockingInv (if s.pc t = .idle then s.goto t (.entry call) else s)
    split_ifs with hidle
    · have hheld : (BridgePc.entry call).held = (s.pc t).held := by
        rw [hidle]
        cases call <;> rfl
      refine h.goto hheld ?_ ?_
      · intro bridge hentry
        cases call <;> cases hentry
      · intro bridge c hentry
        cases call <;> cases hentry
    · exact h
  | advance t => exact lockingInv_advance h hG

/-! ### The result -/

/-- Two threads that wait the opposite ways are deadlocked. -/
theorem not_deadlockFree {s : LockingState} {t u bridge : ℕ} {call : ImplCall}
    (ht : s.pc t = .lockGlobalInImpl bridge call) (hu : s.pc u = .lockImplInGlobal bridge)
    (htowns : s.owner (.impl bridge) = some t) (huowns : s.owner .global = some u) :
    ¬s.DeadlockFree := by
  intro h
  have hne : t ≠ u := by
    rintro rfl
    rw [ht] at hu
    cases hu
  refine h {t, u} (deadlock_pair hne (l := .global) (m := .impl bridge) ?_ huowns ?_ htowns)
  · rw [wants, ht]
    rfl
  · rw [wants, hu]
    rfl

/-- An `init` or `destroy` that goes on while the shim waits for its bridge is deadlocked. -/
theorem noShimWaits_of_deadlockFree {s : LockingState} (h : LockingInv s) {t bridge : ℕ}
    {call call' : ImplCall} (hpc : s.pc t = .inImpl bridge call) {initialized : ℕ → Bool}
    (hnext : ({ s with initialized := initialized }.goto t
      (.lockGlobalInImpl bridge call')).DeadlockFree) : s.noShimWaits bridge := by
  intro u hu hshim
  have hne : u ≠ t := by
    rintro rfl
    rw [hpc] at hshim
    cases hshim
  have howns : s.owner (.impl bridge) = some t := by
    rw [h.owners, hpc]
    exact List.mem_singleton_self _
  exact not_deadlockFree (s := { s with initialized := initialized }.goto t _)
    (Function.update_self ..) ((Function.update_of_ne hne ..).trans hshim) howns hu hnext

/-- A shim that goes on while an `init` or `destroy` of its bridge waits is deadlocked. -/
theorem noImplWaits_of_deadlockFree {s : LockingState} (h : LockingInv s) {t bridge : ℕ}
    {call : GlobalCall} (hpc : s.pc t = .inGlobal call)
    (hnext : (s.goto t (.lockImplInGlobal bridge)).DeadlockFree) : s.noImplWaits bridge := by
  intro u hu hwants
  have howns : s.owner .global = some t := by
    rw [h.owners, hpc]
    exact List.mem_singleton_self _
  obtain ⟨b, call', hpcu, hb, -⟩ | ⟨b, -, habs, -⟩ :=
    wants_of_held ((h.owners _ u).mp hu) hwants
  · cases hb
    have hne : u ≠ t := by
      rintro rfl
      rw [hpc] at hpcu
      cases hpcu
    exact not_deadlockFree (s := s.goto t _) ((Function.update_of_ne hne ..).trans hpcu)
      (Function.update_self ..) hu howns hnext
  · cases habs

theorem unopposed_of_deadlockFree (s : LockingState) (op : LockingOp) (h : LockingInv s)
    (hnext : (s.step op).DeadlockFree) : s.unopposed op := by
  cases op with
  | call t call => trivial
  | advance t =>
    have hafter : (s.advanceAt t (s.pc t)).DeadlockFree := hnext
    show s.unopposedAt (s.pc t)
    cases hpc : s.pc t with
    | inImpl bridge call =>
      rw [hpc] at hafter
      cases call with
      | init ready =>
        intro hinit hready
        rw [advanceAt, runImpl, if_neg (by simp [hinit]), if_neg (by simp [hready])] at hafter
        exact noShimWaits_of_deadlockFree h hpc hafter
      | destroy => exact noShimWaits_of_deadlockFree h hpc hafter
      | access accessor => trivial
    | inGlobal call =>
      rw [hpc] at hafter
      cases call with
      | get => trivial
      | setActive bridge => trivial
      | injectMsixShim =>
        intro bridge hactive
        rw [advanceAt, runGlobal, hactive] at hafter
        exact noImplWaits_of_deadlockFree h hpc hafter
    | idle | lockImpl _ _ | lockGlobalInImpl _ _ | inImplGlobal _ _ | leaveImpl _ | lockGlobal _
    | lockImplInGlobal _ | inGlobalImpl _ | leaveGlobal => trivial

/-- **Locking.**  No state of a run has a deadlock exactly when no thread of it starts to wait
against one that waits the other way. -/
theorem bridge_locking_iff (ops : List LockingOp) :
    Always step DeadlockFree .initial ops ↔ Guarded step unopposed .initial ops :=
  always_iff_guarded lockingInv_step (fun _ h => h.deadlockFree) unopposed_of_deadlockFree ops
    lockingInv_initial

/-- A bridge is initialised, and destroyed while an interrupt is injected. -/
theorem bridge_locking_fails : ¬Always step DeadlockFree .initial
    [.call 0 (.onImpl 0 (.init true)), .advance 0, .advance 0, .advance 0, .advance 0, .advance 0,
      .call 1 (.onGlobal .injectMsixShim), .advance 1, .advance 1,
      .call 0 (.onImpl 0 .destroy), .advance 0, .advance 0] := by
  intro h
  exact @not_deadlockFree _ 0 1 0 .destroy (by decide +kernel) (by decide +kernel)
    (by decide +kernel) (by decide +kernel) (Always.last _ h)

end LockingState

end UsrLinuxEmu.SimHardware
