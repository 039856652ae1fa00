import Mathlib.Algebra.Order.Group.Multiset
import Mathlib.Tactic.Abel

/-!
# Condition variables

The wait set of a condition variable, and the waiters that have left it and not yet taken the
mutex again.  What a waiter waits for is a parameter: `ready w` says that its condition holds.

* `CondVar.wake` — one waiter leaves the wait set: notified, timed out, or for no reason;
* `waiters_*` — no operation loses or duplicates a waiter;
* `Settled` — nobody sleeps whose condition holds;
* `settled_notifyAll`, `settled_wake_iff` — waking everybody settles the wait set; waking one, chosen
  by somebody else, is sure to do so only when a ready sleeper sleeps alone.
-/

namespace UsrLinuxEmu.Transition

/-- Why a waiter left the wait set, as a timed wait reports it. -/
inductive CvStatus where
  | noTimeout
  | timeout
  deriving DecidableEq

structure CondVar (ω : Type*) where
  asleep : List ω
  woken : List (ω × CvStatus)
  deriving DecidableEq

namespace CondVar

variable {ω : Type*} [DecidableEq ω]

def empty : CondVar ω := ⟨[], []⟩

/-- The mutex is given back and the thread joins the wait set, in one step. -/
def sleep (cv : CondVar ω) (w : ω) : CondVar ω := { cv with asleep := cv.asleep ++ [w] }

def wake (cv : CondVar ω) (w : ω) (status : CvStatus) : CondVar ω :=
  if w ∈ cv.asleep then ⟨cv.asleep.erase w, cv.woken ++ [(w, status)]⟩ else cv

def notifyAll (cv : CondVar ω) : CondVar ω :=
  ⟨[], cv.woken ++ cv.asleep.map fun w => (w, .noTimeout)⟩

/-- A woken thread takes the mutex. -/
def relock (cv : CondVar ω) (w : ω) (status : CvStatus) : CondVar ω :=
  { cv with woken := cv.woken.erase (w, status) }

/-- The threads inside a wait. -/
def waiters (cv : CondVar ω) : Multiset ω := ↑cv.asleep + ↑(cv.woken.map Prod.fst)

/-! ### Nobody is lost -/

omit [DecidableEq ω] in
@[simp] theorem waiters_empty : (empty : CondVar ω).waiters = 0 := rfl

omit [DecidableEq ω] in
theorem waiters_sleep (cv : CondVar ω) (w : ω) : (cv.sleep w).waiters = cv.waiters + {w} := by
  simp only [waiters, sleep, ← Multiset.coe_add, Multiset.coe_singleton]
  exact add_right_comm _ _ _

omit [DecidableEq ω] in
theorem waiters_notifyAll (cv : CondVar ω) : cv.notifyAll.waiters = cv.waiters := by
  have hmap : (cv.asleep.map fun w => (w, CvStatus.noTimeout)).map Prod.fst = cv.asleep := by
    rw [List.map_map]
    exact List.map_id _
  simp only [waiters, notifyAll, List.map_append, hmap, ← Multiset.coe_add, Multiset.coe_nil,
    zero_add]
  exact add_comm _ _

theorem waiters_wake (cv : CondVar ω) (w : ω) (status : CvStatus) :
    (cv.wake w status).waiters = cv.waiters := by
  by_cases hw : w ∈ cv.asleep
  · have hperm : (cv.asleep : Multiset ω) = {w} + ↑(cv.asleep.erase w) :=
      Multiset.coe_eq_coe.mpr (List.perm_cons_erase hw)
    rw [wake, if_pos hw]
    simp only [waiters, List.map_append, ← Multiset.coe_add, List.map_cons, List.map_nil]
    rw [hperm, Multiset.coe_singleton]
    abel
  · rw [wake, if_neg hw]

theorem waiters_relock {cv : CondVar ω} {w : ω} {status : CvStatus} (h : (w, status) ∈ cv.woken) :
    (cv.relock w status).waiters + {w} = cv.waiters := by
  have hperm : (cv.woken.map Prod.fst : Multiset ω) =
      {w} + ↑((cv.woken.erase (w, status)).map Prod.fst) :=
    Multiset.coe_eq_coe.mpr ((List.perm_cons_erase h).map Prod.fst)
  simp only [waiters, relock]
  rw [hperm]
  abel

/-! ### Who sleeps -/

theorem mem_asleep_of_wake {cv : CondVar ω} {w u : ω} {status : CvStatus}
    (h : u ∈ (cv.wake w status).asleep) : u ∈ cv.asleep := by
  by_cases hw : w ∈ cv.asleep
  · rw [wake, if_pos hw] at h
    exact List.mem_of_mem_erase h
  · rwa [wake, if_neg hw] at h

theorem mem_asleep_wake_of_ne {cv : CondVar ω} {w u : ω} {status : CvStatus} (h : u ∈ cv.asleep)
    (hne : u ≠ w) : u ∈ (cv.wake w status).asleep := by
  by_cases hw : w ∈ cv.asleep
  · rw [wake, if_pos hw]
    exact (List.mem_erase_of_ne hne).mpr h
  · rwa [wake, if_neg hw]

/-! ### Sleepers whose condition holds -/

/-- Nobody sleeps whose condition holds. -/
def Settled (ready : ω → Prop) (cv : CondVar ω) : Prop := ∀ w ∈ cv.asleep, ¬ready w

variable {ready : ω → Prop}

omit [DecidableEq ω] in
theorem settled_notifyAll (cv : CondVar ω) : cv.notifyAll.Settled ready :=
  fun _ hw => absurd hw (List.not_mem_nil)

omit [DecidableEq ω] in
theorem Settled.sleep {cv : CondVar ω} (h : cv.Settled ready) {w : ω} (hw : ¬ready w) :
    (cv.sleep w).Settled ready := by
  intro u hu
  rcases List.mem_append.mp hu with hu | hu
  · exact h u hu
  · rw [List.mem_singleton.mp hu]
    exact hw

theorem Settled.wake {cv : CondVar ω} (h : cv.Settled ready) (w : ω) (status : CvStatus) :
    (cv.wake w status).Settled ready :=
  fun u hu => h u (mem_asleep_of_wake hu)

/-- **One wake-up.**  Whichever sleeper is woken, nobody is left asleep whose condition holds:
that is so exactly when a sleeper whose condition holds is the only sleeper. -/
theorem settled_wake_iff (cv : CondVar ω) (status : CvStatus) :
    (∀ pick ∈ cv.asleep, (cv.wake pick status).Settled ready) ↔
      ∀ w ∈ cv.asleep, ready w → cv.asleep = [w] := by
  constructor
  · intro hall w hw hready
    -- waking anybody else, or a second copy of `w`, leaves `w` asleep
    by_contra hne
    obtain ⟨pick, hpick, hstays⟩ : ∃ pick ∈ cv.asleep, w ∈ (cv.wake pick status).asleep := by
      have hperm := List.perm_cons_erase hw
      cases hrest : cv.asleep.erase w with
      | nil =>
        rw [hrest] at hperm
        exact absurd (List.perm_singleton.mp hperm) hne
      | cons v rest =>
        rw [hrest] at hperm
        refine ⟨v, hperm.mem_iff.mpr (by simp), ?_⟩
        have hv : v ∈ cv.asleep := hperm.mem_iff.mpr (by simp)
        rw [CondVar.wake, if_pos hv]
        by_cases hvw : v = w
        · rw [hvw, hrest, hvw]
          exact List.mem_cons_self
        · exact (List.mem_erase_of_ne (Ne.symm hvw)).mpr hw
    exact hall pick hpick w hstays hready
  · intro halone pick hpick w hw hready
    have heq := halone w (mem_asleep_of_wake hw) hready
    have hpw : pick = w := by
      rw [heq] at hpick
      exact List.mem_singleton.mp hpick
    rw [CondVar.wake, if_pos hpick, hpw, heq] at hw
    simp at hw

end CondVar

end UsrLinuxEmu.Transition
