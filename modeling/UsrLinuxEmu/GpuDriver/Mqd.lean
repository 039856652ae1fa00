import Mathlib.Tactic.SplitIfs

/-!
# Memory queue descriptors (`shared/mqd.h`, `sim/hardware/mqd_state.cpp`)

The IDLE / ACTIVE / PREEMPTED state machine on the batch context of a queue.  The driver writes
the batch fields; `mqdStatePreempt` copies them to the save area and `mqdStateResume` back.
-/

namespace UsrLinuxEmu.GpuDriver

def mqdStateIdle : UInt32 := 0
def mqdStateActive : UInt32 := 1
def mqdStatePreempted : UInt32 := 2

/-- The batch, save-area and state fields of `MQD`. -/
structure Mqd where
  gpfifoAddr : UInt64
  entryCount : UInt32
  currentIndex : UInt32
  savedGpfifoAddr : UInt64
  savedIndex : UInt32
  savedEntries : UInt32
  state : UInt32
  deriving DecidableEq, Repr

namespace Mqd

/-- `mqd_state_preempt` on a non-null pointer; the callers drop its return code. -/
def preempt (mqd : Mqd) : Mqd :=
  if mqd.state = mqdStateIdle then mqd
  else if mqd.state = mqdStatePreempted then mqd
  else { mqd with
    savedGpfifoAddr := mqd.gpfifoAddr
    savedIndex := mqd.currentIndex
    savedEntries := mqd.entryCount
    state := mqdStatePreempted }

/-- `mqd_state_resume` on a non-null pointer. -/
def resume (mqd : Mqd) : Mqd :=
  if mqd.state ≠ mqdStatePreempted then mqd
  else { mqd with
    gpfifoAddr := mqd.savedGpfifoAddr
    currentIndex := mqd.savedIndex
    entryCount := mqd.savedEntries
    state := mqdStateActive }

/-- The state in which `preempt` saves the context: neither IDLE nor already PREEMPTED. -/
def isActive (mqd : Mqd) : Bool :=
  mqd.state != mqdStateIdle && mqd.state != mqdStatePreempted

/-- Preempting an active queue and resuming it gives back the context it had. -/
theorem resume_preempt {mqd : Mqd} (h : mqd.isActive = true) :
    (mqd.preempt.resume).gpfifoAddr = mqd.gpfifoAddr ∧
      (mqd.preempt.resume).currentIndex = mqd.currentIndex ∧
      (mqd.preempt.resume).entryCount = mqd.entryCount := by
  have h0 : mqd.state ≠ mqdStateIdle := by
    intro h0
    simp [isActive, h0] at h
  have h2 : mqd.state ≠ mqdStatePreempted := by
    intro h2
    simp [isActive, h2] at h
  simp [preempt, resume, h0, h2]

end Mqd

end UsrLinuxEmu.GpuDriver
