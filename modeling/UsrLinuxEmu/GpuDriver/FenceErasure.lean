import UsrLinuxEmu.GpuDriver.ChannelIdentity
import UsrLinuxEmu.Transition.Erasure

/-!
# The fence is an output

`pending_fence_id_` is read where COMPLETE signals it and nowhere else, and nothing reads the fence
table.  A puller that lost its fence does all the rest as it would have done.

* `eraseFence` — the puller without the fence: register, table, and the events that tell of it;
* `blind_step` — no step of any party looks at what is erased;
* `eraseFence_run` — two runs from states that differ in the fence differ in nothing else.
-/

namespace UsrLinuxEmu.GpuDriver

open UsrLinuxEmu.Transition ChannelSemaphoreState

/-! ### History and fence table -/

/-- The history without the fences that were signaled or given up. -/
def withoutFences (log : List Event) : List Event := log.filter fun ev => !ev.clearsFence

@[simp] theorem withoutFences_idem (log : List Event) :
    withoutFences (withoutFences log) = withoutFences log := by
  rw [withoutFences, withoutFences, List.filter_filter]
  simp only [Bool.and_self]

@[simp] theorem withoutFences_append (new log : List Event) :
    withoutFences (new ++ log) = withoutFences new ++ withoutFences log :=
  List.filter_append ..

@[simp] theorem withoutFences_cons (ev : Event) (log : List Event) :
    withoutFences (ev :: log) = (if ev.clearsFence then [] else [ev]) ++ withoutFences log := by
  rw [withoutFences, List.filter_cons]
  cases ev.clearsFence with
  | true => rfl
  | false => rfl

/-- The device with an empty fence table. -/
def Device.withoutTable (d : Device) : Device := { d with simFenceTable := fun _ => none }

@[simp] theorem Device.withoutTable_idem (d : Device) :
    d.withoutTable.withoutTable = d.withoutTable := rfl

theorem Device.memcpy_withoutTable (d : Device) (src dst size : UInt64) :
    d.withoutTable.memcpy src dst size = (d.memcpy src dst size).map withoutTable := by
  unfold memcpy
  split_ifs
  · rfl
  · rw [Option.map_map]
    rfl
  · rfl
  · rw [Option.map_map]
    rfl
  · rfl

theorem Device.execute_withoutTable (d : Device) (e : GpuGpfifoEntry) :
    d.withoutTable.execute e =
      ((d.execute e).1, (d.execute e).2.1, (d.execute e).2.2.withoutTable) := by
  unfold execute
  rw [memcpy_withoutTable]
  split_ifs
  · cases d.memcpy (e.payload.get 0) (e.payload.get 1) (e.payload.get 2) with
    | none => rfl
    | some d' => rfl
  · have hsch : d.withoutTable.scheduler = d.scheduler := rfl
    rw [hsch]
    cases d.scheduler with
    | none => rfl
    | some sch => rfl
  · have hsch : d.withoutTable.scheduler = d.scheduler := rfl
    rw [hsch]
    cases d.scheduler with
    | none => rfl
    | some sch => rfl

theorem Device.simFenceIdSignal_withoutTable (d : Device) (fence : UInt64) :
    (d.simFenceIdSignal fence).withoutTable = d.withoutTable := by
  unfold simFenceIdSignal
  split_ifs
  · rfl
  · rfl

/-! ### The state without the fence -/

namespace HardwarePullerEmu

/-- The registers, the device and the history without the fence. -/
def eraseFence (s : HardwarePullerEmu) : HardwarePullerEmu :=
  { s with
    regs := { s.regs with fence := 0 }
    device := s.device.withoutTable
    log := withoutFences s.log }

section Parts

variable (s : HardwarePullerEmu)

@[simp] theorem eraseFence_pc : s.eraseFence.pc = s.pc := rfl
@[simp] theorem eraseFence_entry : s.eraseFence.currentEntry = s.currentEntry := rfl
@[simp] theorem eraseFence_queues : s.eraseFence.queues = s.queues := rfl
@[simp] theorem eraseFence_channelMgr : s.eraseFence.channelMgr = s.channelMgr := rfl
@[simp] theorem eraseFence_channelId : s.eraseFence.currentChannelId = s.currentChannelId := rfl
@[simp] theorem eraseFence_sema : s.eraseFence.sema = s.sema := rfl
@[simp] theorem eraseFence_hal : s.eraseFence.device.hal = s.device.hal := rfl
@[simp] theorem eraseFence_index : s.eraseFence.regs.index = s.regs.index := rfl
@[simp] theorem eraseFence_total : s.eraseFence.regs.total = s.regs.total := rfl

end Parts

/-! ### The parts of the puller's step -/

theorem blind_self : Blind eraseFence fun s => s := by
  intro s
  simp [eraseFence]

theorem blind_goto (pc : Pc) : Blind eraseFence fun s => s.goto pc := by
  intro s
  simp [eraseFence, goto]

theorem blind_take (src : Source) (e : GpuGpfifoEntry) :
    Blind eraseFence fun s => s.take src e := by
  intro s
  simp [eraseFence, take]

theorem blind_yieldCurrent : Blind eraseFence yieldCurrent := by
  intro s
  simp only [yieldCurrent, eraseFence_channelMgr]
  cases s.channelMgr with
  | none => simp [eraseFence]
  | some m => simp [eraseFence]

theorem blind_stepIdle : Blind eraseFence stepIdle :=
  .ite (fun _ => Iff.rfl) (blind_goto _) blind_self

theorem blind_selectChannel (m : ChannelManager) (c : ℕ) :
    Blind eraseFence fun s => s.selectChannel m c := by
  intro s
  simp only [selectChannel]
  cases preemptedMqd m c with
  | none => simp [eraseFence, load]
  | some p => simp [eraseFence, load]

theorem blind_stepChannelSwitch : Blind eraseFence stepChannelSwitch := by
  intro s
  simp only [stepChannelSwitch, eraseFence_channelMgr]
  cases s.channelMgr with
  | none => exact blind_goto _ s
  | some m =>
    rcases hnext : m.nextReadyChannel with ⟨_ | c, m'⟩
    · simp [hnext, eraseFence]
    · simp only [hnext]
      exact blind_selectChannel m' c s

theorem blind_stepScanQueues (rest : List UInt32) :
    Blind eraseFence fun s => s.stepScanQueues rest := by
  intro s
  cases rest with
  | nil => exact blind_goto _ s
  | cons q rest =>
    simp only [stepScanQueues, eraseFence_queues]
    cases (s.queues.queue q).dequeue with
    | none => exact blind_goto _ s
    | some r => simp [eraseFence, take]

theorem blind_stepExchange : Blind eraseFence stepExchange :=
  .ite (fun _ => Iff.rfl) (fun s => by simp [eraseFence]) (blind_goto _)

theorem blind_stepFetch (stale : GpuGpfifoEntry) : Blind eraseFence fun s => s.stepFetch stale := by
  intro s
  have hfetch : s.eraseFence.fetchEntry stale = s.fetchEntry stale := rfl
  simp only [stepFetch, hfetch]
  cases s.fetchEntry stale with
  | none => exact blind_goto _ s
  | some e => exact blind_take _ e s

/-- A blocked entry counts, with the semaphore state that DECODE leaves. -/
theorem blind_skipBlocked (sema : ChannelSemaphoreState) :
    Blind eraseFence fun s => { s with sema := sema }.skipBlocked := by
  have hcount : Blind eraseFence fun s => { s with
      sema := sema
      regs := { s.regs with index := s.regs.index + 1 }
      log := .blocked s.serial s.source s.currentEntry :: s.log } := by
    intro s
    simp [eraseFence]
  have hnext : Blind eraseFence fun s : HardwarePullerEmu =>
      if s.regs.total ≤ s.regs.index then s.yieldCurrent.goto .channelSwitch else s.goto .fetch :=
    .ite (fun _ => Iff.rfl) ((blind_goto _).comp blind_yieldCurrent) (blind_goto _)
  exact hnext.comp hcount

theorem blind_stepDecode : Blind eraseFence stepDecode := by
  intro s
  cases hop : s.currentEntry.isSemOp with
  | false =>
    simp only [stepDecode, eraseFence_entry, hop]
    exact blind_goto _ s
  | true =>
    have hproc : s.eraseFence.processSemOp =
        ((semOp s.sema s.device.hal s.currentEntry).1,
          { s.eraseFence with sema := (semOp s.sema s.device.hal s.currentEntry).2 }) :=
      processSemOp_eq hop
    simp only [stepDecode, eraseFence_entry, hop, if_true, hproc, processSemOp_eq hop]
    rcases semOp s.sema s.device.hal s.currentEntry with ⟨_ | _, sema⟩
    · exact blind_skipBlocked sema s
    · simp [eraseFence, goto]

theorem blind_stepDispatch : Blind eraseFence stepDispatch := by
  intro s
  have hexec := Device.execute_withoutTable s.device.tick s.currentEntry
  have hsame : s.eraseFence.device.tick = s.device.tick.withoutTable := rfl
  have hevents : s.eraseFence.dispatchEvents = s.dispatchEvents := rfl
  simp only [stepDispatch, hsame, hexec, hevents, eraseFence_entry]
  simp [eraseFence]

theorem blind_releaseSemaphore : Blind eraseFence releaseSemaphore := by
  intro s
  have hwrite : s.eraseFence.writeEntrySemaphore.eraseFence = s.writeEntrySemaphore.eraseFence := by
    simp only [eraseFence, writeEntrySemaphore, withoutFences_cons, withoutFences_idem]
    rfl
  have hsignal : Blind eraseFence fun t => t.signalSemaphore s.currentEntry.semaphoreVa
      s.currentEntry.semaphoreValue :=
    .ite (fun _ => Iff.rfl) (fun t => by simp [eraseFence]) blind_self
  exact hsignal.congr hwrite

theorem blind_stepSemaphore : Blind eraseFence stepSemaphore :=
  .ite (fun _ => Iff.rfl) ((blind_goto _).comp blind_releaseSemaphore)
    fun s => by simp [eraseFence]

theorem blind_stepWaitSemaphore : Blind eraseFence stepWaitSemaphore :=
  .ite (fun _ => Iff.rfl) (fun s => by simp [eraseFence]) blind_self

theorem finishDevice_withoutTable (s : HardwarePullerEmu) :
    s.finishDevice.withoutTable = if s.currentEntry.release then
      ({ s.device.withoutTable with hal := s.releasedHal } : Device).interruptRaise else
        { s.device.withoutTable with hal := s.releasedHal } := by
  unfold finishDevice
  split_ifs
  · exact Device.simFenceIdSignal_withoutTable _ _
  · rfl
  · exact Device.simFenceIdSignal_withoutTable _ _
  · rfl

theorem withoutFences_finishEvents (s : HardwarePullerEmu) :
    withoutFences s.finishEvents =
      (if s.timelineDue then
        [.timelineSignaled s.currentEntry.tlSemHandle s.currentEntry.tlSignalValue] else []) ++
      (if releases s.currentEntry then
        [.semWritten s.serial s.currentEntry.semaphoreVa s.currentEntry.semaphoreValue] else []) ++
      [.completed s.serial s.source s.currentEntry] := by
  simp only [finishEvents, withoutFences_append]
  cases s.timelineDue <;> cases s.fenceDue <;> cases releases s.currentEntry <;> rfl

/-- COMPLETE signals the fence, and does the rest as if there were none. -/
theorem blind_finishEntry : Blind eraseFence finishEntry := by
  intro s
  have hdevice : s.eraseFence.finishDevice.withoutTable = s.finishDevice.withoutTable := by
    rw [finishDevice_withoutTable, finishDevice_withoutTable]
    rfl
  have hevents : withoutFences s.eraseFence.finishEvents = withoutFences s.finishEvents := by
    rw [withoutFences_finishEvents, withoutFences_finishEvents]
    rfl
  simp only [finishEntry_eq]
  simp only [eraseFence, withoutFences_append, withoutFences_idem]
  rw [← hdevice, ← hevents]
  rfl

theorem blind_preemptCheckpoint : Blind eraseFence preemptCheckpoint := by
  intro s
  simp only [preemptCheckpoint, checkpointManager, eraseFence_channelMgr, eraseFence_channelId]
  cases s.channelMgr with
  | none => simp [eraseFence]
  | some m =>
    rcases hnext : (m.preemptMqd (m.getMqdForChannel s.currentChannelId)).nextReadyChannel
      with ⟨_ | c, m'⟩
    · simp [hnext, eraseFence]
    · simp [hnext, eraseFence, load]

theorem blind_endBatch : Blind eraseFence endBatch := by
  have hnext : Blind eraseFence fun s : HardwarePullerEmu =>
      if s.preempt.pending && !s.isInJump then s.preemptCheckpoint else s.goto .channelSwitch :=
    .ite (fun _ => Iff.rfl) blind_preemptCheckpoint (blind_goto _)
  exact hnext.comp blind_yieldCurrent

theorem blind_stepComplete : Blind eraseFence stepComplete := by
  have hnext : Blind eraseFence fun s : HardwarePullerEmu =>
      if s.regs.total ≤ s.regs.index then s.endBatch else s.goto .fetch :=
    .ite (fun _ => Iff.rfl) blind_endBatch (blind_goto _)
  exact hnext.comp blind_finishEntry

/-- One step of `runLoop`. -/
theorem blind_pullerStep (stale : GpuGpfifoEntry) :
    Blind eraseFence fun s => s.pullerStep stale := by
  intro s
  simp only [pullerStep, eraseFence_pc]
  cases s.pc with
  | idle => exact blind_stepIdle s
  | channelSwitch => exact blind_stepChannelSwitch s
  | scanQueues rest => exact blind_stepScanQueues rest s
  | exchange => exact blind_stepExchange s
  | fetch => exact blind_stepFetch stale s
  | decode => exact blind_stepDecode s
  | schedule => exact blind_goto .dispatch s
  | dispatch => exact blind_stepDispatch s
  | semaphore => exact blind_stepSemaphore s
  | waitSemaphore => exact blind_stepWaitSemaphore s
  | complete => exact blind_stepComplete s

/-! ### The other parties -/

theorem blind_acceptBatch (m : ChannelManager) (c : ℕ) (b : Batch) :
    Blind eraseFence fun s => s.acceptBatch m c b :=
  .ite (c := fun _ => m.isRegistered c = true) (fun _ => Iff.rfl) (fun s => by simp [eraseFence])
    blind_self

theorem blind_submitBatch (b : Batch) : Blind eraseFence fun s => s.submitBatch b := by
  intro s
  simp only [submitBatch, eraseFence_channelMgr]
  cases s.channelMgr with
  | none => simp [directSubmit, eraseFence, load]
  | some m =>
    have hflag : Blind eraseFence fun s : HardwarePullerEmu =>
        { s with queues := { s.queues with doorbellPending := true } } := by
      intro t
      simp [eraseFence]
    exact hflag.comp (blind_acceptBatch m s.currentChannelId b) s

theorem blind_channelSubmit (c : ℕ) (b : Batch) :
    Blind eraseFence fun s => s.channelSubmit c b := by
  intro s
  simp only [channelSubmit, eraseFence_channelMgr]
  cases s.channelMgr with
  | none => exact blind_self s
  | some m => exact blind_acceptBatch m c b s

theorem blind_writeDoorbell (q : UInt32) : Blind eraseFence fun s => s.writeDoorbell q := by
  intro s
  simp only [writeDoorbell, eraseFence_queues]
  rcases s.queues.doorbell.write q with ⟨_ | _, d⟩
  · exact blind_self s
  · simp [enterCallback, eraseFence]

theorem blind_onDoorbell : Blind eraseFence onDoorbell := by
  intro s
  simp only [onDoorbell, eraseFence_queues]
  cases s.queues.callbacks with
  | zero => exact blind_self s
  | succ n => simp [eraseFence]

theorem blind_writeEntry (q : UInt32) (e : GpuGpfifoEntry) :
    Blind eraseFence fun s => s.writeEntry q e :=
  .ite (fun _ => Iff.rfl) (fun s => by simp [eraseFence, updateRing]) blind_self

theorem blind_advanceWriteIdx (q : UInt32) : Blind eraseFence fun s => s.advanceWriteIdx q :=
  .ite (fun _ => Iff.rfl) (fun s => by simp [eraseFence, updateRing, nextSlot]) blind_self

theorem blind_ringDoorbell (q : UInt32) : Blind eraseFence fun s => s.ringDoorbell q :=
  .ite (fun _ => Iff.rfl) (fun s => by simp [eraseFence, enterCallback]) blind_self

/-- **The fence is an output.**  No step looks at it but to signal it. -/
theorem blind_step (a : Action) : Blind eraseFence fun s => step s a := by
  cases a with
  | puller stale => exact blind_pullerStep stale
  | submitBatch b => exact blind_submitBatch b
  | channelSubmit c b => exact blind_channelSubmit c b
  | writeEntry q e => exact blind_writeEntry q e
  | advanceWriteIdx q => exact blind_advanceWriteIdx q
  | ringDoorbell q => exact blind_ringDoorbell q
  | writeDoorbell q => exact blind_writeDoorbell q
  | onDoorbell => exact blind_onDoorbell
  | configure op =>
    intro s
    simp [step, configure, eraseFence]
  | triggerPreempt target =>
    intro s
    simp [step, eraseFence]
  | signalBarrier i =>
    intro s
    simp [step, eraseFence]
  | memWrite devAddr size buf =>
    intro s
    simp only [step, eraseFence, withoutFences_idem]
    rfl
  | hostWrite host =>
    intro s
    simp only [step, eraseFence, withoutFences_idem]
    rfl

/-- **Runs.**  Whatever all parties do, states that differ in the fence go on to differ in it
only. -/
theorem eraseFence_run {s t : HardwarePullerEmu} (h : s.eraseFence = t.eraseFence)
    (as : List Action) : (run step s as).eraseFence = (run step t as).eraseFence :=
  Blind.run blind_step h as

end HardwarePullerEmu

end UsrLinuxEmu.GpuDriver
