import UsrLinuxEmu.GpuDriver.PullerSystem

/-!
# Every way the puller's step can go

`PullerStep s s'` lists the outcomes of one step of `runLoop`, each with the guard under which the
source takes it and the state it leaves, and `pullerStep_cases` shows that the list is complete.
The steps that only change the FSM state are collected in `Move`.  The invariants of this
development are proved by cases on this relation and never unfold the step function.
-/

namespace UsrLinuxEmu.GpuDriver

open ChannelManager

/-- The FSM holds an entry that has not reached the end of COMPLETE. -/
def Pc.inFlight : Pc → Bool
  | .decode | .schedule | .dispatch | .semaphore | .waitSemaphore | .complete => true
  | _ => false

namespace HardwarePullerEmu

/-! ### The parts of COMPLETE -/

/-- The yield of the current channel, as an event. -/
def yieldEvents (s : HardwarePullerEmu) : List Event :=
  match s.channelMgr with
  | none => []
  | some _ => [.yielded s.currentChannelId]

def yieldedMgr (s : HardwarePullerEmu) : Option ChannelManager :=
  s.channelMgr.map (·.yieldChannel s.currentChannelId)

theorem yieldCurrent_eq (s : HardwarePullerEmu) :
    s.yieldCurrent = { s with channelMgr := s.yieldedMgr, log := s.yieldEvents ++ s.log } := by
  unfold yieldCurrent yieldedMgr yieldEvents
  cases hm : s.channelMgr with
  | none =>
    cases s
    simp only at hm
    subst hm
    rfl
  | some m => rfl

/-- The events of COMPLETE up to the cursor's increment, newest first. -/
def finishEvents (s : HardwarePullerEmu) : List Event :=
  (if s.timelineDue then
      [.timelineSignaled s.currentEntry.tlSemHandle s.currentEntry.tlSignalValue] else []) ++
    (if s.fenceDue then [.signaled s.loaded.id s.regs.fence] else []) ++
    (if releases s.currentEntry then
      [.semWritten s.serial s.currentEntry.semaphoreVa s.currentEntry.semaphoreValue] else []) ++
    [.completed s.serial s.source s.currentEntry]

/-- The registers after COMPLETE. -/
def finishRegs (s : HardwarePullerEmu) : GpfifoRegs :=
  { s.regs with
    index := s.regs.index + 1
    fence := if s.fenceDue then 0 else s.regs.fence }

/-- COMPLETE's semaphore write. -/
def releasedHal (s : HardwarePullerEmu) : HalUserContext :=
  if releases s.currentEntry then
    s.device.hal.writeU32 s.currentEntry.semaphoreVa s.currentEntry.semaphoreValue
  else s.device.hal

/-- The device after COMPLETE. -/
def finishDevice (s : HardwarePullerEmu) : Device :=
  let d := { s.device with hal := s.releasedHal }
  let d := if s.currentEntry.release then d.interruptRaise else d
  if s.fenceDue then d.simFenceIdSignal s.regs.fence else d

theorem processSemRelease_eq (s : HardwarePullerEmu) :
    s.processSemRelease = { s with
      device := { s.device with hal := s.releasedHal }
      log := (if releases s.currentEntry then
        [.semWritten s.serial s.currentEntry.semaphoreVa s.currentEntry.semaphoreValue] else []) ++
          s.log } := by
  unfold processSemRelease releasedHal
  cases releases s.currentEntry <;> rfl

theorem signalFence_eq (s : HardwarePullerEmu) :
    s.signalFence = { s with
      device := if s.fenceDue then s.device.simFenceIdSignal s.regs.fence else s.device
      regs := { s.regs with fence := if s.fenceDue then 0 else s.regs.fence }
      log := (if s.fenceDue then [.signaled s.loaded.id s.regs.fence] else []) ++ s.log } := by
  unfold signalFence
  cases s.fenceDue <;> rfl

theorem signalTimeline_eq (s : HardwarePullerEmu) :
    s.signalTimeline = { s with
      log := (if s.timelineDue then
        [.timelineSignaled s.currentEntry.tlSemHandle s.currentEntry.tlSignalValue] else []) ++
          s.log } := by
  unfold signalTimeline
  cases s.timelineDue <;> rfl

@[simp] theorem timelineDue_signalFence (s : HardwarePullerEmu) :
    s.signalFence.timelineDue = s.timelineDue := by
  unfold signalFence Device.simFenceIdSignal
  split
  · simp only [timelineDue]
    split <;> rfl
  · rfl

theorem handleComplete_eq (s : HardwarePullerEmu) :
    s.handleComplete = { s with
      device :=
        let d := if s.currentEntry.release then s.device.interruptRaise else s.device
        if s.fenceDue then d.simFenceIdSignal s.regs.fence else d
      regs := { s.regs with fence := if s.fenceDue then 0 else s.regs.fence }
      log := (if s.timelineDue then
          [.timelineSignaled s.currentEntry.tlSemHandle s.currentEntry.tlSignalValue] else []) ++
        ((if s.fenceDue then [.signaled s.loaded.id s.regs.fence] else []) ++ s.log) } := by
  unfold handleComplete
  cases hrel : s.currentEntry.release
  · simp only [Bool.false_eq_true, if_false, signalTimeline_eq, timelineDue_signalFence]
    simp only [signalFence_eq]
  · simp only [if_true, signalTimeline_eq, timelineDue_signalFence]
    simp only [signalFence_eq]
    rfl

theorem finishEntry_eq (s : HardwarePullerEmu) :
    s.finishEntry = { s with
      device := s.finishDevice, regs := s.finishRegs, log := s.finishEvents ++ s.log } := by
  unfold finishEntry finishEvents
  simp only [handleComplete_eq, processSemRelease_eq, List.append_assoc, List.singleton_append]
  rfl

/-! ### The events of one step, one by one -/

theorem mem_yieldEvents {s : HardwarePullerEmu} {ev : Event} (h : ev ∈ s.yieldEvents) :
    ev = .yielded s.currentChannelId := by
  unfold yieldEvents at h
  split at h
  · cases h
  · exact List.mem_singleton.mp h

theorem mem_dispatchEvents {s : HardwarePullerEmu} {launches : List LaunchParams} {failed : Bool}
    {ev : Event} (h : ev ∈ s.dispatchEvents launches failed) :
    ev = .memcpyFailed s.serial s.source ∧ failed = true ∨ (∃ p, ev = .launched s.serial p) ∨
      (∃ q i t, ev = .timestamp q i t) ∨ ev = .dispatched s.serial s.currentEntry := by
  simp only [dispatchEvents, List.mem_append, List.mem_map, List.mem_singleton] at h
  obtain ((hm | ⟨p, -, rfl⟩) | ht) | rfl := h
  · cases failed with
    | false => simp at hm
    | true => exact .inl ⟨List.mem_singleton.mp hm, rfl⟩
  · exact .inr (.inl ⟨p, rfl⟩)
  · split at ht
    · cases ht
    · exact .inr (.inr (.inl ⟨_, _, _, List.mem_singleton.mp ht⟩))
  · exact .inr (.inr (.inr rfl))

theorem mem_finishEvents {s : HardwarePullerEmu} {ev : Event} (h : ev ∈ s.finishEvents) :
    (∃ handle value, ev = .timelineSignaled handle value) ∨
      ev = .signaled s.loaded.id s.regs.fence ∧ s.fenceDue = true ∨
      ev = .semWritten s.serial s.currentEntry.semaphoreVa s.currentEntry.semaphoreValue ∨
      ev = .completed s.serial s.source s.currentEntry := by
  simp only [finishEvents, List.mem_append, List.mem_singleton] at h
  obtain ((ht | hf) | hw) | rfl := h
  · split at ht
    · exact .inl ⟨_, _, List.mem_singleton.mp ht⟩
    · cases ht
  · split at hf
    · exact .inr (.inl ⟨List.mem_singleton.mp hf, ‹_›⟩)
    · cases hf
  · split at hw
    · exact .inr (.inr (.inl (List.mem_singleton.mp hw)))
    · cases hw
  · exact .inr (.inr (.inr rfl))

/-! ### Steps that only move the FSM -/

inductive Move (s : HardwarePullerEmu) : Pc → Prop
  | sleep (hpc : s.pc = .idle) (hflag : s.queues.doorbellPending = false) : Move s .idle
  | wake (hpc : s.pc = .idle) : Move s .channelSwitch
  | noManager (hpc : s.pc = .channelSwitch) (hm : s.channelMgr = none) :
      Move s (.scanQueues s.queues.activeQueues)
  | scanEnd (hpc : s.pc = .scanQueues []) : Move s .exchange
  | scanEmpty {q : UInt32} {rest : List UInt32} (hpc : s.pc = .scanQueues (q :: rest))
      (hq : (s.queues.queue q).dequeue = none) : Move s (.scanQueues rest)
  | noDoorbell (hpc : s.pc = .exchange) (hflag : s.queues.doorbellPending = false) : Move s .idle
  | fetchEnd (hpc : s.pc = .fetch) (hidx : s.regs.total ≤ s.regs.index) : Move s .idle
  | pass (hpc : s.pc = .decode) (hop : s.currentEntry.method = gpuOpSemWait)
      (hreached : ChannelSemaphoreState.reached s.device.hal.readU32 s.currentEntry = true) :
      Move s .schedule
  | toSemaphore (hpc : s.pc = .decode) (hop : s.currentEntry.isSemOp = false)
      (hrel : s.currentEntry.release = true) : Move s .semaphore
  | toSchedule (hpc : s.pc = .decode) (hop : s.currentEntry.isSemOp = false)
      (hrel : s.currentEntry.release = false) : Move s .schedule
  | schedule (hpc : s.pc = .schedule) : Move s .dispatch
  | stillWaiting (hpc : s.pc = .waitSemaphore) : Move s .waitSemaphore

theorem Move.inFlight {s : HardwarePullerEmu} {pc : Pc} (h : Move s pc) :
    pc.inFlight = s.pc.inFlight := by
  cases h <;> simp [Pc.inFlight, *]

/-! ### All steps -/

inductive PullerStep (s : HardwarePullerEmu) : HardwarePullerEmu → Prop
  | move {pc : Pc} (h : Move s pc) : PullerStep s (s.goto pc)
  | noChannel {m m' : ChannelManager} (hpc : s.pc = .channelSwitch)
      (hm : s.channelMgr = some m) (hnext : m.nextReadyChannel = (none, m')) :
      PullerStep s { s with channelMgr := some m', pc := .scanQueues s.queues.activeQueues }
  | select {m m' : ChannelManager} {c : ℕ} (hpc : s.pc = .channelSwitch)
      (hm : s.channelMgr = some m) (hnext : m.nextReadyChannel = (some c, m'))
      (hmqd : preemptedMqd m' c = none) :
      PullerStep s { s.load (s.slotId c) c (m'.channels c).batch.regs with
        channelMgr := some m', currentChannelId := c, pc := .fetch }
  | resume {m m' : ChannelManager} {c p : ℕ} (hpc : s.pc = .channelSwitch)
      (hm : s.channelMgr = some m) (hnext : m.nextReadyChannel = (some c, m'))
      (hmqd : preemptedMqd m' c = some p) {regs : GpfifoRegs}
      (hregs : regs = mqdRegs (m'.mqd p) (m'.channels c).pendingFenceId) :
      PullerStep s { ({ s with log := .resumed c regs :: s.log }).load (s.slotId c) c regs with
        channelMgr := some (m'.updateMqd p Mqd.resume)
        currentChannelId := c
        sema := (s.sema.restore s.semaBackup).1.rebindPendingFences
        semaBackup := (s.sema.restore s.semaBackup).2
        pc := .fetch }
  | dequeue {q : UInt32} {rest : List UInt32} {e : GpuGpfifoEntry} {queue : GpuQueueEmu}
      (hpc : s.pc = .scanQueues (q :: rest))
      (hq : (s.queues.queue q).dequeue = some (e, queue)) :
      PullerStep s (({ s with queues := { s.queues with
        queue := Function.update s.queues.queue q queue, currentQueueId := q } }).take (.ring q) e)
  | exchange (hpc : s.pc = .exchange)
      (hflag : (s.queues.doorbellPending || s.queues.doorbell.poll 0) = true) :
      PullerStep s { s with
        queues := { s.queues with
          doorbellPending := false, doorbell := s.queues.doorbell.acknowledge 0 }
        pc := .fetch }
  | fetch {stale e : GpuGpfifoEntry} (hpc : s.pc = .fetch) (hidx : s.regs.index < s.regs.total)
      (he : s.fetchEntry stale = some e) :
      PullerStep s (s.take
        (.batch s.loaded.id s.regs.index (entryAddr s.regs.gpfifoAddr s.regs.index)) e)
  | blockNext {sema : ChannelSemaphoreState} (hpc : s.pc = .decode)
      (hop : s.currentEntry.isSemOp = true)
      (hsema : s.processSemOp = (false, { s with sema := sema }))
      (hidx : s.regs.index + 1 < s.regs.total) :
      PullerStep s { s with
        sema := sema
        regs := { s.regs with index := s.regs.index + 1 }
        log := .blocked s.serial s.source s.currentEntry :: s.log
        pc := .fetch }
  | blockLast {sema : ChannelSemaphoreState} (hpc : s.pc = .decode)
      (hop : s.currentEntry.isSemOp = true)
      (hsema : s.processSemOp = (false, { s with sema := sema }))
      (hidx : s.regs.total ≤ s.regs.index + 1) :
      PullerStep s { s with
        sema := sema
        regs := { s.regs with index := s.regs.index + 1 }
        channelMgr := s.yieldedMgr
        log := s.yieldEvents ++ .blocked s.serial s.source s.currentEntry :: s.log
        pc := .channelSwitch }
  | dispatch (hpc : s.pc = .dispatch) {launches : List LaunchParams} {failed : Bool} {d : Device}
      (hexec : s.device.tick.execute s.currentEntry = (launches, failed, d)) :
      PullerStep s { s with
        device := d
        regs := { s.regs with fence := if failed then 0 else s.regs.fence }
        pc := .complete
        log := s.dispatchEvents launches failed ++ s.log }
  | release (hpc : s.pc = .semaphore) (hrel : s.currentEntry.release = true) (w : SemWaiter) :
      PullerStep s { s.writeEntrySemaphore with waiter := w, pc := .complete }
  | wait (hpc : s.pc = .semaphore) (hrel : s.currentEntry.release = false) (w : SemWaiter) :
      PullerStep s { s with waiter := w, pc := .waitSemaphore }
  | waited (hpc : s.pc = .waitSemaphore) (w : SemWaiter) :
      PullerStep s { s with waiter := w, pc := .dispatch }
  | completeNext (hpc : s.pc = .complete) (hidx : s.regs.index + 1 < s.regs.total) :
      PullerStep s { s with
        device := s.finishDevice, regs := s.finishRegs, log := s.finishEvents ++ s.log
        pc := .fetch }
  | completeLast (hpc : s.pc = .complete) (hidx : s.regs.total ≤ s.regs.index + 1)
      (hpre : (s.preempt.pending && !s.isInJump) = false) :
      PullerStep s { s with
        device := s.finishDevice, regs := s.finishRegs, channelMgr := s.yieldedMgr
        log := s.yieldEvents ++ (s.finishEvents ++ s.log)
        pc := .channelSwitch }
  | checkpointDirect (hpc : s.pc = .complete) (hidx : s.regs.total ≤ s.regs.index + 1)
      (hpre : (s.preempt.pending && !s.isInJump) = true) (hm : s.channelMgr = none) :
      PullerStep s { s with
        device := s.finishDevice, regs := s.finishRegs
        preempt := { s.preempt with pending := false }
        channelMgr := none
        currentChannelId := s.preempt.target
        sema := .empty
        log := s.finishEvents ++ s.log
        pc := .fetch }
  | checkpointNone {m m' : ChannelManager} (hpc : s.pc = .complete)
      (hidx : s.regs.total ≤ s.regs.index + 1)
      (hpre : (s.preempt.pending && !s.isInJump) = true) (hm : s.channelMgr = some m)
      (hnext : s.checkpointManager (m.yieldChannel s.currentChannelId) = (none, m')) :
      PullerStep s { s with
        device := s.finishDevice, regs := s.finishRegs
        preempt := { s.preempt with pending := false }
        channelMgr := some m'
        currentChannelId := s.preempt.target
        semaBackup := s.sema
        sema := .empty
        log := .preempted s.currentChannelId s.preempt.target ::
          .yielded s.currentChannelId :: (s.finishEvents ++ s.log)
        pc := .fetch }
  | checkpointLoad {m m' : ChannelManager} {c : ℕ} {regs : GpfifoRegs} (hpc : s.pc = .complete)
      (hidx : s.regs.total ≤ s.regs.index + 1)
      (hpre : (s.preempt.pending && !s.isInJump) = true) (hm : s.channelMgr = some m)
      (hnext : s.checkpointManager (m.yieldChannel s.currentChannelId) = (some c, m'))
      (hregs : regs = (m'.channels c).batch.regs) :
      PullerStep s { s with
        device := s.finishDevice
        regs := regs
        loaded := ⟨s.slotId c, c, regs⟩
        preempt := { s.preempt with pending := false }
        channelMgr := some m'
        currentChannelId := s.preempt.target
        semaBackup := s.sema
        sema := .empty
        log := .loaded ⟨s.slotId c, c, regs⟩ :: .preempted s.currentChannelId s.preempt.target ::
          .yielded s.currentChannelId :: (s.finishEvents ++ s.log)
        pc := .fetch }

/-! ### The list is complete -/

/-- What the semaphore methods of DECODE do, which look at the entry, the semaphore state and the
heap: whether the entry proceeds, and the new state. -/
def semOp (sema : ChannelSemaphoreState) (hal : HalUserContext) (e : GpuGpfifoEntry) :
    Bool × ChannelSemaphoreState :=
  if e.method = gpuOpSemWait then sema.processSemWait e hal.readU32
  else if e.method = gpuOpBarrierAnd then
    (false, sema.registerBarrierAnd e.semaphoreVa e.semaphoreValue.toInt32.toInt e)
  else (false, sema.registerBarrierOr e.semaphoreVa e)

theorem processSemOp_eq {s : HardwarePullerEmu} (hop : s.currentEntry.isSemOp = true) :
    s.processSemOp = ((semOp s.sema s.device.hal s.currentEntry).1,
      { s with sema := (semOp s.sema s.device.hal s.currentEntry).2 }) := by
  unfold processSemOp semOp
  by_cases hw : s.currentEntry.method = gpuOpSemWait
  · rw [if_pos hw, if_pos hw]
  · by_cases ha : s.currentEntry.method = gpuOpBarrierAnd
    · rw [if_neg hw, if_neg hw, if_pos ha, if_pos ha]
    · by_cases ho : s.currentEntry.method = gpuOpBarrierOr
      · rw [if_neg hw, if_neg hw, if_neg ha, if_neg ha, if_pos ho]
      · simp [GpuGpfifoEntry.isSemOp, hw, ha, ho] at hop

/-- What DECODE makes of the semaphore state, read off its result. -/
theorem semOp_of_processSemOp {s : HardwarePullerEmu} {sema : ChannelSemaphoreState} {b : Bool}
    (hop : s.currentEntry.isSemOp = true) (h : s.processSemOp = (b, { s with sema := sema })) :
    semOp s.sema s.device.hal s.currentEntry = (b, sema) := by
  rw [processSemOp_eq hop] at h
  injection h with hproceeds hstate
  exact Prod.ext hproceeds (congrArg HardwarePullerEmu.sema hstate)

section SemOp

variable (sema : ChannelSemaphoreState) (hal : HalUserContext) (e : GpuGpfifoEntry)

/-- SEM_WAIT passes when its value is reached, and everything else blocks. -/
theorem semOp_cases :
    (semOp sema hal e = (true, sema) ∧ e.method = gpuOpSemWait ∧
        ChannelSemaphoreState.reached hal.readU32 e = true) ∨
      ∃ parked, semOp sema hal e = (false, parked) := by
  unfold semOp
  by_cases hw : e.method = gpuOpSemWait
  · rw [if_pos hw, ChannelSemaphoreState.processSemWait]
    cases hr : ChannelSemaphoreState.reached hal.readU32 e with
    | true => exact .inl ⟨by simp, hw, rfl⟩
    | false => exact .inr ⟨sema.enqueuePending e, by simp⟩
  · rw [if_neg hw]
    by_cases ha : e.method = gpuOpBarrierAnd
    · exact .inr ⟨_, if_pos ha⟩
    · exact .inr ⟨_, if_neg ha⟩

/-- The semaphore methods freeze nothing. -/
theorem semOp_frozen : (semOp sema hal e).2.frozen = sema.frozen := by
  unfold semOp
  split_ifs
  · unfold ChannelSemaphoreState.processSemWait
    split_ifs <;> rfl
  · exact sema.registerBarrierAnd_frozen _ _ _
  · exact sema.registerBarrierOr_frozen _ _

/-- What they park is the entry, when it is a SEM_WAIT. -/
theorem semOp_pending {p : GpuGpfifoEntry} (hp : p ∈ (semOp sema hal e).2.pendingEntries) :
    p ∈ sema.pendingEntries ∨ p = e ∧ p.method = gpuOpSemWait := by
  unfold semOp at hp
  split_ifs at hp with hw
  · unfold ChannelSemaphoreState.processSemWait at hp
    split_ifs at hp
    · exact .inl hp
    · obtain hold | hnew := List.mem_append.mp hp
      · exact .inl hold
      · rw [List.mem_singleton] at hnew
        exact .inr ⟨hnew, by rw [hnew, hw]⟩
  · rw [ChannelSemaphoreState.registerBarrierAnd_pending] at hp
    exact .inl hp
  · rw [ChannelSemaphoreState.registerBarrierOr_pending] at hp
    exact .inl hp

end SemOp

/-- The semaphore methods of DECODE: SEM_WAIT passes when its value is reached, everything else
blocks, and only the semaphore state changes. -/
theorem processSemOp_of_isSemOp {s : HardwarePullerEmu} (h : s.currentEntry.isSemOp = true) :
    (s.processSemOp = (true, s) ∧ s.currentEntry.method = gpuOpSemWait ∧
        ChannelSemaphoreState.reached s.device.hal.readU32 s.currentEntry = true) ∨
      ∃ sema, s.processSemOp = (false, { s with sema := sema }) := by
  rw [processSemOp_eq h]
  obtain ⟨hop, hw, hr⟩ | ⟨parked, hop⟩ := semOp_cases s.sema s.device.hal s.currentEntry
  · exact .inl ⟨by rw [hop], hw, hr⟩
  · exact .inr ⟨parked, by rw [hop]⟩

theorem stepDecode_cases {s : HardwarePullerEmu} (hpc : s.pc = .decode) :
    PullerStep s s.stepDecode := by
  unfold stepDecode
  cases hop : s.currentEntry.isSemOp with
  | false =>
    simp only [Bool.false_eq_true, if_false]
    cases hrel : s.currentEntry.release with
    | true => exact .move (.toSemaphore hpc hop hrel)
    | false => exact .move (.toSchedule hpc hop hrel)
  | true =>
    simp only [if_true]
    obtain ⟨hproc, hw, hr⟩ | ⟨sema, hproc⟩ := processSemOp_of_isSemOp hop
    · rw [hproc]
      exact .move (.pass hpc hw hr)
    · rw [hproc]
      by_cases hidx : s.regs.total ≤ s.regs.index + 1
      · simp only [skipBlocked, if_pos hidx, yieldCurrent_eq, goto]
        exact .blockLast hpc hop hproc hidx
      · simp only [skipBlocked, if_neg hidx, goto]
        exact .blockNext hpc hop hproc (Nat.lt_of_not_le hidx)

theorem stepChannelSwitch_cases {s : HardwarePullerEmu} (hpc : s.pc = .channelSwitch) :
    PullerStep s s.stepChannelSwitch := by
  unfold stepChannelSwitch
  cases hm : s.channelMgr with
  | none => exact .move (.noManager hpc hm)
  | some m =>
    rcases hnext : m.nextReadyChannel with ⟨_ | c, m'⟩
    · have hstep := PullerStep.noChannel hpc hm hnext
      simpa only [hnext] using hstep
    · simp only [hnext, selectChannel]
      cases hmqd : preemptedMqd m' c with
      | none => exact .select hpc hm hnext hmqd
      | some p => exact .resume hpc hm hnext hmqd rfl

theorem stepScanQueues_cases {s : HardwarePullerEmu} {rest : List UInt32}
    (hpc : s.pc = .scanQueues rest) : PullerStep s (s.stepScanQueues rest) := by
  cases rest with
  | nil => exact .move (.scanEnd hpc)
  | cons q rest =>
    simp only [stepScanQueues]
    cases hq : (s.queues.queue q).dequeue with
    | none => exact .move (.scanEmpty hpc hq)
    | some r => exact .dequeue hpc hq

theorem stepFetch_cases {s : HardwarePullerEmu} (hpc : s.pc = .fetch) (stale : GpuGpfifoEntry) :
    PullerStep s (s.stepFetch stale) := by
  unfold stepFetch
  cases he : s.fetchEntry stale with
  | none =>
    by_cases hidx : s.regs.total ≤ s.regs.index
    · exact .move (.fetchEnd hpc hidx)
    · rw [fetchEntry, if_neg hidx] at he
      split at he <;> cases he
  | some e =>
    by_cases hidx : s.regs.total ≤ s.regs.index
    · rw [fetchEntry, if_pos hidx] at he
      cases he
    · exact .fetch hpc (Nat.lt_of_not_le hidx) he

theorem stepComplete_cases {s : HardwarePullerEmu} (hpc : s.pc = .complete) :
    PullerStep s s.stepComplete := by
  simp only [stepComplete, finishEntry_eq]
  by_cases hidx : s.regs.total ≤ s.regs.index + 1
  · have hend : s.finishRegs.total ≤ s.finishRegs.index := hidx
    rw [if_pos hend]
    simp only [endBatch, yieldCurrent_eq, yieldedMgr, yieldEvents]
    cases hpre : s.preempt.pending && !s.isInJump with
    | false =>
      exact .completeLast hpc hidx hpre
    | true =>
      simp only [if_true, preemptCheckpoint]
      cases hm : s.channelMgr with
      | none => exact .checkpointDirect hpc hidx hpre hm
      | some m =>
        simp only [Option.map_some]
        rcases hnext : s.checkpointManager (m.yieldChannel s.currentChannelId) with ⟨_ | c, m'⟩
        · have hstep := PullerStep.checkpointNone hpc hidx hpre hm hnext
          simp only [checkpointManager] at hnext ⊢
          simp only [hnext]
          exact hstep
        · have hstep := PullerStep.checkpointLoad hpc hidx hpre hm hnext rfl
          simp only [checkpointManager] at hnext ⊢
          simp only [hnext]
          exact hstep
  · have hnot : ¬ s.finishRegs.total ≤ s.finishRegs.index := hidx
    rw [if_neg hnot]
    exact .completeNext hpc (Nat.lt_of_not_le hidx)

/-- **Inversion.**  Every step of the puller's thread is one of the listed ones. -/
theorem pullerStep_cases (s : HardwarePullerEmu) (stale : GpuGpfifoEntry) :
    PullerStep s (s.pullerStep stale) := by
  unfold pullerStep
  cases hpc : s.pc with
  | idle =>
    simp only [stepIdle]
    cases hflag : s.queues.doorbellPending || s.queues.doorbell.poll 0 with
    | true => exact .move (.wake hpc)
    | false =>
      have hstep := PullerStep.move (.sleep hpc (Bool.or_eq_false_iff.mp hflag).1)
      rw [goto, ← hpc] at hstep
      exact hstep
  | channelSwitch => exact stepChannelSwitch_cases hpc
  | scanQueues rest => exact stepScanQueues_cases hpc
  | exchange =>
    simp only [stepExchange]
    cases hflag : s.queues.doorbellPending || s.queues.doorbell.poll 0 with
    | true => exact .exchange hpc hflag
    | false => exact .move (.noDoorbell hpc (Bool.or_eq_false_iff.mp hflag).1)
  | fetch => exact stepFetch_cases hpc stale
  | decode => exact stepDecode_cases hpc
  | schedule => exact .move (.schedule hpc)
  | dispatch => exact .dispatch hpc rfl
  | semaphore =>
    simp only [stepSemaphore, releaseSemaphore, signalSemaphore]
    cases hrel : s.currentEntry.release with
    | true =>
      simp only [if_true]
      split
      · exact .release hpc hrel _
      · exact .release hpc hrel s.waiter
    | false => exact .wait hpc hrel _
  | waitSemaphore =>
    simp only [stepWaitSemaphore]
    split
    · exact .waited hpc _
    · have hstep := PullerStep.move (.stillWaiting hpc)
      rw [goto, ← hpc] at hstep
      exact hstep
  | complete => exact stepComplete_cases hpc

end HardwarePullerEmu

end UsrLinuxEmu.GpuDriver
