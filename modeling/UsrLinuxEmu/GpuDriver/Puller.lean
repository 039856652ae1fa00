import UsrLinuxEmu.GpuDriver.ChannelManager
import UsrLinuxEmu.GpuDriver.GlobalScheduler
import UsrLinuxEmu.GpuDriver.GpuQueue
import UsrLinuxEmu.GpuDriver.HalUser
import UsrLinuxEmu.GpuDriver.SemaphoreState

/-!
# The command puller (`sim/hardware/hardware_puller_emu.cpp`)

`HardwarePullerEmu::runLoop` as a step function: one step is one atomic action of the puller's
thread, so a state of the source is one step except CHANNEL_SWITCH, whose parts (the channel
selection, the scan of each ring, the exchange of the doorbell flag) are steps of their own.

* `HardwarePullerEmu` — the puller with the parts it drives: batch registers, rings and doorbells,
  device, channel manager, semaphore state;
* `stepIdle` … `stepComplete` — one function per state; `pullerStep` dispatches on the state;
* `Event` — what the puller did, kept newest first in `log`; with `serial`, `source`, `loaded`,
  `nextId` and `slotId` it is history that no step reads.
-/

namespace UsrLinuxEmu.GpuDriver

/-! ### Registers and history -/

/-- The GPFIFO registers: `current_gpfifo_addr_`, `current_index_`, `total_entries_`,
`pending_fence_id_`. -/
structure GpfifoRegs where
  gpfifoAddr : UInt64
  index : ℕ
  total : ℕ
  fence : UInt64
  deriving DecidableEq, Repr

/-- The registers of a batch from its start. -/
def Batch.regs (b : Batch) : GpfifoRegs := ⟨b.gpfifoAddr, 0, b.entryCount.toNat, b.fenceId⟩

/-- `current_gpfifo_addr_ + index * sizeof(gpu_gpfifo_entry)`. -/
def entryAddr (gpfifoAddr : UInt64) (index : ℕ) : UInt64 :=
  gpfifoAddr + UInt64.ofNat (index * sizeofGpfifoEntry)

/-- Where `current_entry_` came from. -/
inductive Source where
  | batch (id index : ℕ) (addr : UInt64)
  | ring (queueId : UInt32)
  deriving DecidableEq, Repr

/-- The last load of the batch registers: which submission, whose channel, what was loaded. -/
structure LoadedBatch where
  id : ℕ
  channel : ℕ
  regs : GpfifoRegs
  deriving DecidableEq, Repr

/-- What happened, told by numbered submissions and numbered entries. -/
inductive Event where
  | submitted (id channel : ℕ) (b : Batch)
  | loaded (l : LoadedBatch)
  | resumed (channel : ℕ) (regs : GpfifoRegs)
  | preempted (channel target : ℕ)
  | taken (n : ℕ) (src : Source) (e : GpuGpfifoEntry)
  | blocked (n : ℕ) (src : Source) (e : GpuGpfifoEntry)
  | dispatched (n : ℕ) (e : GpuGpfifoEntry)
  | timestamp (query : UInt64) (index : ℕ) (tick : UInt64)
  | memcpyFailed (n : ℕ) (src : Source)
  | launched (n : ℕ) (p : LaunchParams)
  | semWritten (n : ℕ) (va : UInt64) (value : UInt32)
  | completed (n : ℕ) (src : Source) (e : GpuGpfifoEntry)
  | signaled (id : ℕ) (fence : UInt64)
  | timelineSignaled (handle value : UInt64)
  | yielded (channel : ℕ)
  | wrote (queueId : UInt32)
  | published (queueId : UInt32) (e : GpuGpfifoEntry)
  | rang (queueId : UInt32)
  deriving DecidableEq, Repr

/-! ### The parts the puller drives -/

/-- `active_queues_` with the queues it points to, the doorbells, and the number of doorbell
callbacks that have been entered and have not yet stored the flag. -/
structure QueueSide where
  activeQueues : List UInt32
  currentQueueId : UInt32
  queue : UInt32 → GpuQueueEmu
  doorbellPending : Bool
  doorbell : DoorbellEmu
  callbacks : ℕ

/-- The device side of DISPATCH and COMPLETE: HAL, host memory, scheduler, logical clock, fence
table, and whether a `SemaphoreManager` is set. -/
structure Device where
  hal : HalUserContext
  host : UInt64 → UInt8
  scheduler : Option GlobalScheduler
  simTick : UInt64
  simFenceTable : UInt64 → Option Bool
  semMgr : Bool

/-- `waiting_semaphore_va_`, `waiting_semaphore_value_`, `semaphore_signaled_`. -/
structure SemWaiter where
  va : UInt64
  value : UInt32
  signaled : Bool
  deriving DecidableEq, Repr

/-- `preempt_pending_`, `preempt_target_channel_id_`. -/
structure PreemptRequest where
  pending : Bool
  target : ℕ
  deriving DecidableEq, Repr

/-- `pdl_nest_counter_`, `last_pdl_error_`. -/
structure PdlState where
  nestCounter : Int
  lastError : Int
  deriving DecidableEq, Repr

/-- The states of the FSM, with CHANNEL_SWITCH split at its atomic parts and SEMAPHORE at its
wait. -/
inductive Pc where
  | idle
  | channelSwitch
  | scanQueues (rest : List UInt32)
  | exchange
  | fetch
  | decode
  | schedule
  | dispatch
  | semaphore
  | waitSemaphore
  | complete
  deriving DecidableEq, Repr

structure HardwarePullerEmu where
  pc : Pc
  regs : GpfifoRegs
  currentEntry : GpuGpfifoEntry
  queues : QueueSide
  device : Device
  channelMgr : Option ChannelManager
  currentChannelId : ℕ
  preempt : PreemptRequest
  sema : ChannelSemaphoreState
  semaBackup : ChannelSemaphoreState
  waiter : SemWaiter
  isInJump : Bool
  pdl : PdlState
  serial : ℕ
  source : Source
  loaded : LoadedBatch
  nextId : ℕ
  slotId : ℕ → ℕ
  log : List Event

/-! ### The device operations -/

namespace Device

def simFenceIdBase : UInt64 := 0x100000000
def simFenceIdMax : UInt64 := 0x7FFFFFFFFFFFFFFF

/-- `sim_fence_id_signal` on the legacy table. -/
def simFenceIdSignal (d : Device) (fence : UInt64) : Device :=
  if fence < simFenceIdBase ∨ simFenceIdMax < fence then d
  else { d with simFenceTable := fun f => if f = fence then some true else d.simFenceTable f }

/-- The MEMCPY branch of DISPATCH; `none` stands for a failed HAL call or a size out of range.  A
null host pointer is refused by the HAL. -/
def memcpy (d : Device) (src dst size : UInt64) : Option Device :=
  if 0 < size ∧ size ≤ halHeapSize then
    if halHeapBase ≤ src ∧ src < halHeapBase + halHeapSize then
      if dst = 0 then none
      else (d.hal.memRead src size).map fun buf => { d with
        host := fun a => if a - dst < size then buf (a - dst).toNat else d.host a }
    else if src = 0 then none
    else (d.hal.memWrite dst size fun k => d.host (src + UInt64.ofNat k)).map fun hal =>
      { d with hal := hal }
  else none

/-- `g_sim_tick.fetch_add(1)`. -/
def tick (d : Device) : Device := { d with simTick := d.simTick + 1 }

/-- What DISPATCH does with the entry: the launch callbacks it causes, whether a MEMCPY failed, and
the device after it. -/
def execute (d : Device) (e : GpuGpfifoEntry) : List LaunchParams × Bool × Device :=
  if e.method = gpuOpMemcpy then
    match d.memcpy (e.payload.get 0) (e.payload.get 1) (e.payload.get 2) with
    | some d => ([], false, d)
    | none => ([], true, d)
  else
    match d.scheduler with
    | none => ([], false, d)
    | some sch =>
      if e.method = gpuOpLaunchKernel then
        let r := sch.translateLaunch e
        (r.1, false, { d with scheduler := some r.2 })
      else
        let r := sch.enqueue e (GlobalScheduler.selectEngine e)
        (r.1, false, { d with scheduler := some r.2 })

/-- `hal_->mem_write(…, &value, sizeof(value))`. -/
def writeSemaphore (d : Device) (va : UInt64) (value : UInt32) : Device :=
  { d with hal := d.hal.writeU32 va value }

def interruptRaise (d : Device) : Device := { d with hal := d.hal.interruptRaise }

end Device

/-! ### The operands of MEMCPY -/

def GpuGpfifoEntry.copySrc (e : GpuGpfifoEntry) : UInt64 := e.payload.get 0
def GpuGpfifoEntry.copyDst (e : GpuGpfifoEntry) : UInt64 := e.payload.get 1
def GpuGpfifoEntry.copySize (e : GpuGpfifoEntry) : UInt64 := e.payload.get 2

/-- `e` with these operands. -/
def GpuGpfifoEntry.withOperands (e : GpuGpfifoEntry) (a b c : UInt64) : GpuGpfifoEntry :=
  ((e.setPayload 0 a).setPayload 1 b).setPayload 2 c

/-- `payload[0]` of a kernel launch: the kernel's address. -/
def GpuGpfifoEntry.kernelAddr (e : GpuGpfifoEntry) : UInt64 := e.payload.get 0

@[simp] theorem GpuGpfifoEntry.kernelAddr_withOperands (e : GpuGpfifoEntry) (a b c : UInt64) :
    (e.withOperands a b c).kernelAddr = a := by
  show (e.withOperands a b c).payload[0] = a
  simp [withOperands, setPayload]

namespace HardwarePullerEmu

/-! ### Loading the batch registers -/

def goto (s : HardwarePullerEmu) (pc : Pc) : HardwarePullerEmu := { s with pc := pc }

/-- The registers now hold submission `id` of `channel`. -/
def load (s : HardwarePullerEmu) (id channel : ℕ) (regs : GpfifoRegs) : HardwarePullerEmu :=
  { s with
    regs := regs
    loaded := ⟨id, channel, regs⟩
    log := .loaded ⟨id, channel, regs⟩ :: s.log }

/-- The cached MQD of a channel when it is in state PREEMPTED. -/
def preemptedMqd (m : ChannelManager) (channel : ℕ) : Option ℕ :=
  match m.getMqdForChannel channel with
  | some p => if (m.mqd p).state = mqdStatePreempted then some p else none
  | none => none

/-- The registers that `mqd_state_resume` leaves in the MQD, with the fence of the slot. -/
def mqdRegs (mqd : Mqd) (fence : UInt64) : GpfifoRegs :=
  ⟨mqd.resume.gpfifoAddr, mqd.resume.currentIndex.toNat, mqd.resume.entryCount.toNat, fence⟩

/-- CHANNEL_SWITCH after `nextReadyChannel` returned `channel` and left the manager `m`. -/
def selectChannel (s : HardwarePullerEmu) (m : ChannelManager) (channel : ℕ) :
    HardwarePullerEmu :=
  match preemptedMqd m channel with
  | some p =>
    let regs := mqdRegs (m.mqd p) (m.channels channel).pendingFenceId
    let restored := s.sema.restore s.semaBackup
    { ({ s with log := .resumed channel regs :: s.log }).load (s.slotId channel) channel regs with
      channelMgr := some (m.updateMqd p Mqd.resume)
      currentChannelId := channel
      sema := restored.1.rebindPendingFences
      semaBackup := restored.2
      pc := .fetch }
  | none =>
    { s.load (s.slotId channel) channel (m.channels channel).batch.regs with
      channelMgr := some m
      currentChannelId := channel
      pc := .fetch }

/-- `channel_mgr_->yieldChannel(current_channel_id_)`, when there is a manager. -/
def yieldCurrent (s : HardwarePullerEmu) : HardwarePullerEmu :=
  match s.channelMgr with
  | none => s
  | some m =>
    { s with
      channelMgr := some (m.yieldChannel s.currentChannelId)
      log := .yielded s.currentChannelId :: s.log }

/-! ### IDLE, CHANNEL_SWITCH and FETCH -/

/-- The condition variable's predicate, less `running_`. -/
def stepIdle (s : HardwarePullerEmu) : HardwarePullerEmu :=
  if s.queues.doorbellPending || s.queues.doorbell.poll 0 then s.goto .channelSwitch else s

def stepChannelSwitch (s : HardwarePullerEmu) : HardwarePullerEmu :=
  match s.channelMgr with
  | none => s.goto (.scanQueues s.queues.activeQueues)
  | some m =>
    match m.nextReadyChannel with
    | (some channel, m) => s.selectChannel m channel
    | (none, m) =>
      { s with channelMgr := some m, pc := .scanQueues s.queues.activeQueues }

/-- `current_entry_` receives the next entry. -/
def take (s : HardwarePullerEmu) (src : Source) (e : GpuGpfifoEntry) : HardwarePullerEmu :=
  { s with
    currentEntry := e
    source := src
    serial := s.serial + 1
    pc := .decode
    log := .taken (s.serial + 1) src e :: s.log }

/-- `scanQueues` with the queues `rest` of its snapshot still to be looked at. -/
def stepScanQueues (s : HardwarePullerEmu) : List UInt32 → HardwarePullerEmu
  | [] => s.goto .exchange
  | q :: rest =>
    match (s.queues.queue q).dequeue with
    | none => s.goto (.scanQueues rest)
    | some (e, queue) =>
      ({ s with queues := { s.queues with
        queue := Function.update s.queues.queue q queue
        currentQueueId := q } }).take (.ring q) e

/-- `doorbell_pending_.exchange(false) || doorbell_->poll(0)`. -/
def stepExchange (s : HardwarePullerEmu) : HardwarePullerEmu :=
  if s.queues.doorbellPending || s.queues.doorbell.poll 0 then
    { s with
      queues := { s.queues with
        doorbellPending := false
        doorbell := s.queues.doorbell.acknowledge 0 }
      pc := .fetch }
  else s.goto .idle

/-- `fetchEntry` drops the return code of `mem_read`: a rejected read leaves `stale`, whatever the
local entry held. -/
def fetchEntry (s : HardwarePullerEmu) (stale : GpuGpfifoEntry) : Option GpuGpfifoEntry :=
  if s.regs.total ≤ s.regs.index then none
  else
    match s.device.hal.memRead (entryAddr s.regs.gpfifoAddr s.regs.index)
        (UInt64.ofNat sizeofGpfifoEntry) with
    | some b => some (.ofBytes b)
    | none => some stale

def stepFetch (s : HardwarePullerEmu) (stale : GpuGpfifoEntry) : HardwarePullerEmu :=
  match s.fetchEntry stale with
  | none => s.goto .idle
  | some e =>
    s.take (.batch s.loaded.id s.regs.index (entryAddr s.regs.gpfifoAddr s.regs.index)) e

/-! ### DECODE -/

/-- `sim_pdl_launch`: child kernel and completion signal go to the scheduler. -/
def simPdlLaunch (s : HardwarePullerEmu) (kernelAddr kernargsVa : UInt64) (gridX blockX : UInt32)
    (signalHandle signalValue : UInt64) : Int × HardwarePullerEmu :=
  if maxPdlNest ≤ s.pdl.nestCounter then (-7, s)
  else if kernelAddr = 0 then (-14, s)
  else
    let words := ((s.currentEntry.setPayload 0 kernelAddr).setPayload 1 kernargsVa).setPayload 2
      (gridX.toUInt64 <<< 32 ||| blockX.toUInt64)
    let child := { words with
      method := gpuOpLaunchKernel
      valid := true }
    let sig := { s.currentEntry with
      method := gpuOpSemRelease
      semaphoreVa := signalHandle
      semaphoreValue := signalValue.toUInt32 }
    let s := { s with pdl := { s.pdl with nestCounter := s.pdl.nestCounter + 1 } }
    match s.device.scheduler with
    | none => (0, s)
    | some sch =>
      let r := sch.enqueueWithPriority child .compute gpuChanPriLow s.currentChannelId
      let r' := r.2.enqueueWithPriority sig .firmware gpuChanPriLow s.currentChannelId
      (0, { s with
        device := { s.device with scheduler := some r'.2 }
        log := (r.1 ++ r'.1).reverse.map (.launched s.serial) ++ s.log })

/-- `processSemOp`: `true` lets the entry proceed.  DECODE calls it for SEM_WAIT and the barriers
only. -/
def processSemOp (s : HardwarePullerEmu) : Bool × HardwarePullerEmu :=
  let e := s.currentEntry
  if e.method = gpuOpSemWait then
    let r := s.sema.processSemWait e s.device.hal.readU32
    (r.1, { s with sema := r.2 })
  else if e.method = gpuOpBarrierAnd then
    (false, { s with
      sema := s.sema.registerBarrierAnd e.semaphoreVa e.semaphoreValue.toInt32.toInt e })
  else if e.method = gpuOpBarrierOr then
    (false, { s with sema := s.sema.registerBarrierOr e.semaphoreVa e })
  else if e.method = gpuOpPdlLaunch then
    if s.pdl.nestCounter = 0 then (true, { s with pdl := { s.pdl with lastError := -13 } })
    else
      let r := s.simPdlLaunch (e.payload.get 0) (e.payload.get 1)
        ((e.payload.get 2) >>> 32).toUInt32 (e.payload.get 2).toUInt32 e.semaphoreVa
        e.semaphoreValue.toUInt64
      (true, if r.1 = 0 then r.2 else { r.2 with pdl := { r.2.pdl with lastError := r.1 } })
  else (true, s)

/-- A blocked entry is skipped: `current_index_++` and on to the next one, or to the next batch. -/
def skipBlocked (s : HardwarePullerEmu) : HardwarePullerEmu :=
  let s := { s with
    regs := { s.regs with index := s.regs.index + 1 }
    log := .blocked s.serial s.source s.currentEntry :: s.log }
  if s.regs.total ≤ s.regs.index then s.yieldCurrent.goto .channelSwitch else s.goto .fetch

def stepDecode (s : HardwarePullerEmu) : HardwarePullerEmu :=
  if s.currentEntry.isSemOp then
    match s.processSemOp with
    | (false, s) => s.skipBlocked
    | (true, s) => s.goto .schedule
  else s.goto (if s.currentEntry.release then .semaphore else .schedule)

/-! ### DISPATCH and SEMAPHORE -/

/-- The events of DISPATCH, newest first. -/
def dispatchEvents (s : HardwarePullerEmu) (launches : List LaunchParams) (failed : Bool) :
    List Event :=
  (if failed then [.memcpyFailed s.serial s.source] else []) ++
    launches.reverse.map (.launched s.serial) ++
    (if s.currentEntry.tsQuery = 0 then []
      else [.timestamp s.currentEntry.tsQuery s.regs.index (s.device.simTick + 1)]) ++
    [.dispatched s.serial s.currentEntry]

def stepDispatch (s : HardwarePullerEmu) : HardwarePullerEmu :=
  let r := s.device.tick.execute s.currentEntry
  { s with
    device := r.2.2
    regs := { s.regs with fence := if r.2.1 then 0 else s.regs.fence }
    pc := .complete
    log := s.dispatchEvents r.1 r.2.1 ++ s.log }

/-- `signalSemaphore`: wakes the waiting puller when its value is reached. -/
def signalSemaphore (s : HardwarePullerEmu) (va : UInt64) (value : UInt32) : HardwarePullerEmu :=
  if va = s.waiter.va ∧ s.waiter.value ≤ value then
    { s with waiter := { s.waiter with signaled := true } }
  else s

/-- The entry's semaphore value is written to its address. -/
def writeEntrySemaphore (s : HardwarePullerEmu) : HardwarePullerEmu :=
  { s with
    device := s.device.writeSemaphore s.currentEntry.semaphoreVa s.currentEntry.semaphoreValue
    log := .semWritten s.serial s.currentEntry.semaphoreVa s.currentEntry.semaphoreValue :: s.log }

def releaseSemaphore (s : HardwarePullerEmu) : HardwarePullerEmu :=
  s.writeEntrySemaphore.signalSemaphore s.currentEntry.semaphoreVa s.currentEntry.semaphoreValue

def stepSemaphore (s : HardwarePullerEmu) : HardwarePullerEmu :=
  if s.currentEntry.release then s.releaseSemaphore.goto .complete
  else
    { s with
      waiter := ⟨s.currentEntry.semaphoreVa, s.currentEntry.semaphoreValue, false⟩
      pc := .waitSemaphore }

/-- `waitSemaphore` blocks until the semaphore is signaled or its memory value reached. -/
def stepWaitSemaphore (s : HardwarePullerEmu) : HardwarePullerEmu :=
  if s.waiter.signaled || decide (s.waiter.value ≤ s.device.hal.readU32 s.waiter.va) then
    { s with waiter := { s.waiter with va := 0, signaled := true }, pc := .dispatch }
  else s

/-! ### COMPLETE -/

/-- The method or the release flag asks for the semaphore to be written. -/
def releases (e : GpuGpfifoEntry) : Bool := e.method == gpuOpSemRelease || e.release

def processSemRelease (s : HardwarePullerEmu) : HardwarePullerEmu :=
  if releases s.currentEntry then s.writeEntrySemaphore else s

/-- The fence of the batch is due: one is pending, the cursor is on the last entry, and it is not
frozen. -/
def fenceDue (s : HardwarePullerEmu) : Bool :=
  s.regs.fence != 0 && decide (s.regs.total ≤ s.regs.index + 1) &&
    !s.sema.isFenceFrozen s.regs.fence

/-- The entry signals a timeline semaphore: it names one and the cursor is on the last entry. -/
def timelineDue (s : HardwarePullerEmu) : Bool :=
  s.device.semMgr && s.currentEntry.tlSemHandle != 0 && s.currentEntry.tlSignalValue != 0 &&
    decide (s.regs.total ≤ s.regs.index + 1)

def signalFence (s : HardwarePullerEmu) : HardwarePullerEmu :=
  if s.fenceDue then
    { s with
      device := s.device.simFenceIdSignal s.regs.fence
      regs := { s.regs with fence := 0 }
      log := .signaled s.loaded.id s.regs.fence :: s.log }
  else s

def signalTimeline (s : HardwarePullerEmu) : HardwarePullerEmu :=
  if s.timelineDue then
    { s with
      log := .timelineSignaled s.currentEntry.tlSemHandle s.currentEntry.tlSignalValue :: s.log }
  else s

def handleComplete (s : HardwarePullerEmu) : HardwarePullerEmu :=
  let s := if s.currentEntry.release then { s with device := s.device.interruptRaise } else s
  s.signalFence.signalTimeline

/-- COMPLETE up to and including `current_index_++`. -/
def finishEntry (s : HardwarePullerEmu) : HardwarePullerEmu :=
  let s := { s with log := .completed s.serial s.source s.currentEntry :: s.log }
  let s := s.processSemRelease.handleComplete
  { s with regs := { s.regs with index := s.regs.index + 1 } }

/-- The manager's part of the preemption checkpoint: save the old channel, select the next. -/
def checkpointManager (s : HardwarePullerEmu) (m : ChannelManager) : Option ℕ × ChannelManager :=
  (m.preemptMqd (m.getMqdForChannel s.currentChannelId)).nextReadyChannel

/-- The preemption checkpoint at a batch boundary.  The channel loaded is the selector's, the
channel recorded as current is the requested one. -/
def preemptCheckpoint (s : HardwarePullerEmu) : HardwarePullerEmu :=
  let target := s.preempt.target
  let s := { s with preempt := { s.preempt with pending := false } }
  match s.channelMgr with
  | none => { s with currentChannelId := target, sema := s.sema.clear, pc := .fetch }
  | some m =>
    let s' := { s with
      semaBackup := s.sema
      sema := s.sema.freezePendingFences.clear
      currentChannelId := target
      pc := .fetch
      log := .preempted s.currentChannelId target :: s.log }
    match s.checkpointManager m with
    | (some channel, m) =>
      { s'.load (s.slotId channel) channel (m.channels channel).batch.regs with
        channelMgr := some m }
    | (none, m) => { s' with channelMgr := some m }

/-- The branch of COMPLETE at the end of a batch. -/
def endBatch (s : HardwarePullerEmu) : HardwarePullerEmu :=
  let s := s.yieldCurrent
  if s.preempt.pending && !s.isInJump then s.preemptCheckpoint else s.goto .channelSwitch

def stepComplete (s : HardwarePullerEmu) : HardwarePullerEmu :=
  let s := s.finishEntry
  if s.regs.total ≤ s.regs.index then s.endBatch else s.goto .fetch

/-! ### The loop -/

/-- One atomic step of `runLoop`; `stale` is what FETCH's local entry holds when its read is
rejected. -/
def pullerStep (s : HardwarePullerEmu) (stale : GpuGpfifoEntry) : HardwarePullerEmu :=
  match s.pc with
  | .idle => s.stepIdle
  | .channelSwitch => s.stepChannelSwitch
  | .scanQueues rest => s.stepScanQueues rest
  | .exchange => s.stepExchange
  | .fetch => s.stepFetch stale
  | .decode => s.stepDecode
  | .schedule => s.goto .dispatch
  | .dispatch => s.stepDispatch
  | .semaphore => s.stepSemaphore
  | .waitSemaphore => s.stepWaitSemaphore
  | .complete => s.stepComplete

end HardwarePullerEmu

end UsrLinuxEmu.GpuDriver
