import UsrLinuxEmu.GpuDriver.GpuTypes
import UsrLinuxEmu.Ring.WrapRing

/-!
# User queues and doorbells (`sim/gpu_queue_emu.cpp`, `sim/hardware/doorbell_emu.h`)

A `GpuQueueEmu` reads entries from a ring in shared memory; `DoorbellEmu` counts writes and calls
back.  Both deliver a doorbell by calling the puller's `onDoorbell`, which the puller's model
counts among the running callbacks.
-/

namespace UsrLinuxEmu.GpuDriver

open UsrLinuxEmu.Ring

def gpuMaxRingEntries : UInt32 := 1024

/-! ### The ring queue -/

/-- A user queue; `attached` tells whether `ring_header_` points to shared memory. -/
structure GpuQueueEmu where
  attached : Bool
  ring : WrapRing GpuGpfifoEntry

namespace GpuQueueEmu

/-- The constructor's `ring_size > 0 ? ring_size : GPU_MAX_RING_ENTRIES`. -/
def effectiveSize (ringSize : UInt32) : UInt32 := if 0 < ringSize then ringSize else gpuMaxRingEntries

theorem effectiveSize_pos (ringSize : UInt32) : 0 < effectiveSize ringSize := by
  unfold effectiveSize
  split
  · assumption
  · decide

/-- A queue just attached: both indices are zero and the slots hold what the memory held. -/
def create (attached : Bool) (ringSize : UInt32) : GpuQueueEmu where
  attached := attached
  ring := ⟨effectiveSize ringSize, effectiveSize_pos ringSize, 0, 0, fun _ => .zero⟩

/-- `hasPending` followed by `dequeue`: the puller is the only consumer. -/
def dequeue (q : GpuQueueEmu) : Option (GpuGpfifoEntry × GpuQueueEmu) :=
  if q.attached then
    match q.ring.popFront with
    | none => none
    | some (e, ring) => some (e, { q with ring := ring })
  else none

/-- The published entries that the puller has not taken. -/
def pending (q : GpuQueueEmu) : List GpuGpfifoEntry := q.ring.pending

theorem create_pending (attached : Bool) (ringSize : UInt32) :
    (create attached ringSize).pending = [] :=
  (WrapRing.pending_eq_nil_iff _).mpr rfl

/-- An empty-handed dequeue of an attached queue means the queue is empty. -/
theorem pending_of_dequeue_none {q : GpuQueueEmu} (hq : q.attached = true)
    (h : q.dequeue = none) : q.pending = [] := by
  rw [dequeue, if_pos hq] at h
  cases hp : q.ring.popFront with
  | none => exact (WrapRing.popFront_eq_none_iff q.ring).mp hp
  | some r => simp [hp] at h

/-- A dequeue hands out the oldest published entry. -/
theorem dequeue_some {q q' : GpuQueueEmu} {e : GpuGpfifoEntry} (h : q.dequeue = some (e, q')) :
    q.pending = e :: q'.pending ∧ q'.attached = q.attached := by
  rw [dequeue] at h
  cases hq : q.attached with
  | false => simp [hq] at h
  | true =>
    rw [if_pos hq] at h
    cases hp : q.ring.popFront with
    | none => simp [hp] at h
    | some r =>
      obtain ⟨e', ring⟩ := r
      simp only [hp, Option.some.injEq, Prod.mk.injEq] at h
      obtain ⟨rfl, rfl⟩ := h
      exact ⟨WrapRing.pending_popFront hp, hq⟩

end GpuQueueEmu

/-! ### The doorbell -/

def maxQueues : UInt32 := 1024

structure DoorbellEmu where
  counts : UInt32 → UInt64
  pending : UInt32 → Bool

namespace DoorbellEmu

def create : DoorbellEmu := ⟨fun _ => 0, fun _ => false⟩

/-- `write` up to the callback; `false` when the id is out of range and nothing happens. -/
def write (d : DoorbellEmu) (queueId : UInt32) : Bool × DoorbellEmu :=
  if maxQueues ≤ queueId then (false, d)
  else
    (true,
      { counts := fun q => if q = queueId then d.counts q + 1 else d.counts q
        pending := fun q => if q = queueId then true else d.pending q })

def poll (d : DoorbellEmu) (queueId : UInt32) : Bool :=
  if maxQueues ≤ queueId then false else d.pending queueId

def acknowledge (d : DoorbellEmu) (queueId : UInt32) : DoorbellEmu :=
  if queueId < maxQueues then { d with pending := fun q => if q = queueId then false else d.pending q }
  else d

end DoorbellEmu

end UsrLinuxEmu.GpuDriver
