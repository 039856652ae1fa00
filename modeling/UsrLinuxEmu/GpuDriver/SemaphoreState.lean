import Mathlib.Tactic.SplitIfs
import UsrLinuxEmu.GpuDriver.GpuTypes

/-!
# Pending semaphore and barrier entries (`sim/scheduler/channel_state.cpp`)

`ChannelSemaphoreState` parks the entries that DECODE could not let through: SEM_WAIT entries in
`pendingEntries`, barrier entries under their barrier.  The reader argument of the source's
`process_sem_wait` is the parameter `reader`.
-/

namespace UsrLinuxEmu.GpuDriver

/-- `barrier_state`: one synchronisation point. -/
structure BarrierState where
  remainingStreams : Int
  modeAnd : Bool
  triggered : Bool
  waitingEntries : List GpuGpfifoEntry
  deriving DecidableEq, Repr

/-- The value `barriers_[id]` default-constructs. -/
def BarrierState.fresh : BarrierState := ⟨0, true, false, []⟩

/-- One stream arrives at a BARRIER_AND. -/
def BarrierState.arrive (bs : BarrierState) : BarrierState :=
  if bs.remainingStreams > 0 then { bs with remainingStreams := bs.remainingStreams - 1 } else bs

/-- The per-puller semaphore state; the maps are total functions into `Option`. -/
structure ChannelSemaphoreState where
  pendingEntries : List GpuGpfifoEntry
  barriers : UInt64 → Option BarrierState
  barrierReleased : List GpuGpfifoEntry
  pendingFences : UInt64 → Option UInt64
  frozen : Bool

namespace ChannelSemaphoreState

/-- A freshly constructed state. -/
def empty : ChannelSemaphoreState where
  pendingEntries := []
  barriers := fun _ => none
  barrierReleased := []
  pendingFences := fun _ => none
  frozen := false

/-- `clear()` empties every container and thaws the fences. -/
def clear (_ : ChannelSemaphoreState) : ChannelSemaphoreState := empty

def enqueuePending (st : ChannelSemaphoreState) (entry : GpuGpfifoEntry) :
    ChannelSemaphoreState :=
  { st with pendingEntries := st.pendingEntries ++ [entry] }

/-- The memory value has reached the value the entry waits for. -/
def reached (reader : UInt64 → UInt32) (entry : GpuGpfifoEntry) : Bool :=
  decide (entry.semaphoreValue ≤ reader entry.semaphoreVa)

/-- `true` lets the entry proceed; `false` has parked it. -/
def processSemWait (st : ChannelSemaphoreState) (entry : GpuGpfifoEntry)
    (reader : UInt64 → UInt32) : Bool × ChannelSemaphoreState :=
  if reached reader entry then (true, st) else (false, st.enqueuePending entry)

/-- `barriers_[barrierId] = bs`. -/
def putBarrier (st : ChannelSemaphoreState) (barrierId : UInt64) (bs : BarrierState) :
    ChannelSemaphoreState :=
  { st with barriers := fun i => if i = barrierId then some bs else st.barriers i }

def registerBarrierAnd (st : ChannelSemaphoreState) (barrierId : UInt64) (streamCount : Int)
    (entry : GpuGpfifoEntry) : ChannelSemaphoreState :=
  let bs := (st.barriers barrierId).getD BarrierState.fresh
  -- only the first registration initialises the counter
  let bs := if bs.remainingStreams = 0 ∧ bs.triggered = false then
      { bs with remainingStreams := streamCount, modeAnd := true, triggered := false }
    else bs
  st.putBarrier barrierId { bs with waitingEntries := bs.waitingEntries ++ [entry] }

def registerBarrierOr (st : ChannelSemaphoreState) (barrierId : UInt64)
    (entry : GpuGpfifoEntry) : ChannelSemaphoreState :=
  let bs := (st.barriers barrierId).getD BarrierState.fresh
  let bs := if bs.waitingEntries = [] ∧ bs.triggered = false then
      { bs with modeAnd := false, remainingStreams := 0, triggered := false }
    else bs
  st.putBarrier barrierId { bs with waitingEntries := bs.waitingEntries ++ [entry] }

def signalBarrier (st : ChannelSemaphoreState) (barrierId : UInt64) :
    Bool × ChannelSemaphoreState :=
  match st.barriers barrierId with
  | none => (false, st)
  | some bs =>
    if bs.triggered then (false, st)
    else if bs.modeAnd then
      if bs.arrive.remainingStreams = 0 then
        (true, { st.putBarrier barrierId { bs.arrive with triggered := true } with
          barrierReleased := bs.arrive.waitingEntries })
      else (false, st.putBarrier barrierId bs.arrive)
    else
      (true, { st.putBarrier barrierId { bs with triggered := true } with
        barrierReleased := bs.waitingEntries })

def isBarrierReleased (st : ChannelSemaphoreState) (barrierId : UInt64) : Bool :=
  match st.barriers barrierId with
  | none => false
  | some bs => bs.triggered

def isFenceFrozen (st : ChannelSemaphoreState) (fenceId : UInt64) : Bool :=
  st.frozen && (st.pendingFences fenceId).isSome

def freezePendingFences (st : ChannelSemaphoreState) : ChannelSemaphoreState :=
  { st with frozen := true }

def rebindPendingFences (st : ChannelSemaphoreState) : ChannelSemaphoreState :=
  { st with frozen := false }

/-- `restore(saved)` swaps the containers with `saved` and copies its `frozen_`; the result is the
pair of the new state and what is left in `saved`. -/
def restore (st saved : ChannelSemaphoreState) : ChannelSemaphoreState × ChannelSemaphoreState :=
  (saved, { st with frozen := saved.frozen })

/-! ### What the barrier operations keep -/

theorem isFenceFrozen_of_not_frozen {st : ChannelSemaphoreState} (h : st.frozen = false)
    (fenceId : UInt64) : st.isFenceFrozen fenceId = false := by
  rw [isFenceFrozen, h, Bool.false_and]

theorem rebindPendingFences_of_not_frozen {st : ChannelSemaphoreState} (h : st.frozen = false) :
    st.rebindPendingFences = st := by
  cases st
  simp only at h
  subst h
  rfl

@[simp] theorem registerBarrierAnd_pending (st : ChannelSemaphoreState) (i : UInt64) (n : Int)
    (e : GpuGpfifoEntry) : (st.registerBarrierAnd i n e).pendingEntries = st.pendingEntries := rfl

@[simp] theorem registerBarrierOr_pending (st : ChannelSemaphoreState) (i : UInt64)
    (e : GpuGpfifoEntry) : (st.registerBarrierOr i e).pendingEntries = st.pendingEntries := rfl

@[simp] theorem registerBarrierAnd_frozen (st : ChannelSemaphoreState) (i : UInt64) (n : Int)
    (e : GpuGpfifoEntry) : (st.registerBarrierAnd i n e).frozen = st.frozen := rfl

@[simp] theorem registerBarrierOr_frozen (st : ChannelSemaphoreState) (i : UInt64)
    (e : GpuGpfifoEntry) : (st.registerBarrierOr i e).frozen = st.frozen := rfl

theorem signalBarrier_pending (st : ChannelSemaphoreState) (i : UInt64) :
    (st.signalBarrier i).2.pendingEntries = st.pendingEntries := by
  unfold signalBarrier
  split
  · rfl
  · split_ifs <;> rfl

theorem signalBarrier_frozen (st : ChannelSemaphoreState) (i : UInt64) :
    (st.signalBarrier i).2.frozen = st.frozen := by
  unfold signalBarrier
  split
  · rfl
  · split_ifs <;> rfl

end ChannelSemaphoreState

end UsrLinuxEmu.GpuDriver
