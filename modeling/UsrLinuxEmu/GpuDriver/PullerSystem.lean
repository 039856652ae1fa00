import UsrLinuxEmu.GpuDriver.Puller
import UsrLinuxEmu.Transition.History
import UsrLinuxEmu.Transition.Run

/-!
# The puller among its producers

The puller's thread interleaved with everything that acts on it from outside: submissions, ring
producers, doorbells, preemption requests, barrier signals, the driver's channel configuration and
other writers of device and host memory.

* `Action` / `step` — one atomic action of any party;
* `Config` / `init` — the machine before its first step;
* `PullerStep` / `pullerStep_cases` — every way the puller's own step can go, each with its guard
  and its outcome; the invariants of this development are proved by cases on it.
-/

namespace UsrLinuxEmu.GpuDriver

open UsrLinuxEmu.Ring UsrLinuxEmu.Transition

/-! ### Actions -/

inductive Action where
  /-- The puller's thread takes its next step. -/
  | puller (stale : GpuGpfifoEntry)
  /-- `HardwarePullerEmu::submitBatch`. -/
  | submitBatch (b : Batch)
  /-- `ChannelManager::submitBatch` on any channel. -/
  | channelSubmit (channel : ℕ) (b : Batch)
  | configure (op : ChannelManager.ConfigOp)
  | triggerPreempt (target : ℕ)
  /-- `sema_state().signal_barrier`. -/
  | signalBarrier (barrierId : UInt64)
  /-- A producer writes an entry into the slot of its write index, then advances the index. -/
  | writeEntry (queueId : UInt32) (e : GpuGpfifoEntry)
  | advanceWriteIdx (queueId : UInt32)
  /-- `GpuQueueEmu::ringDoorbell`: the queue's callback is entered. -/
  | ringDoorbell (queueId : UInt32)
  /-- `DoorbellEmu::write`: counted, then the callback is entered. -/
  | writeDoorbell (queueId : UInt32)
  /-- A running callback stores `doorbell_pending_` and returns. -/
  | onDoorbell
  | memWrite (devAddr size : UInt64) (buf : ℕ → UInt8)
  | hostWrite (host : UInt64 → UInt8)

/-- The puller's thread takes the step. -/
def Action.isPuller : Action → Bool
  | .puller _ => true
  | _ => false

namespace HardwarePullerEmu

/-! ### Submissions -/

/-- The manager accepts `b` on `channel`: the batch goes to the slot and gets the next number. -/
def acceptBatch (s : HardwarePullerEmu) (m : ChannelManager) (channel : ℕ) (b : Batch) :
    HardwarePullerEmu :=
  if m.isRegistered channel then
    { s with
      channelMgr := some (m.submitBatch channel b)
      nextId := s.nextId + 1
      slotId := Function.update s.slotId channel s.nextId
      log := .submitted s.nextId channel b :: s.log }
  else s

/-- Without a manager the batch goes straight to the registers. -/
def directSubmit (s : HardwarePullerEmu) (b : Batch) : HardwarePullerEmu :=
  { ({ s with log := .submitted s.nextId s.currentChannelId b :: s.log }).load s.nextId
      s.currentChannelId b.regs with
    nextId := s.nextId + 1
    waiter := { s.waiter with va := 0, signaled := false } }

def submitBatch (s : HardwarePullerEmu) (b : Batch) : HardwarePullerEmu :=
  match s.channelMgr with
  | some m =>
    let s := s.acceptBatch m s.currentChannelId b
    { s with queues := { s.queues with doorbellPending := true } }
  | none => s.directSubmit b

def channelSubmit (s : HardwarePullerEmu) (channel : ℕ) (b : Batch) : HardwarePullerEmu :=
  match s.channelMgr with
  | some m => s.acceptBatch m channel b
  | none => s

def configure (s : HardwarePullerEmu) (op : ChannelManager.ConfigOp) : HardwarePullerEmu :=
  { s with channelMgr := s.channelMgr.map (·.configure op) }

/-! ### Producers -/

/-- Changes the ring of a queue that has one. -/
def updateRing (s : HardwarePullerEmu) (q : UInt32)
    (f : WrapRing GpuGpfifoEntry → WrapRing GpuGpfifoEntry) : HardwarePullerEmu :=
  { s with queues := { s.queues with
    queue := Function.update s.queues.queue q
      { s.queues.queue q with ring := f (s.queues.queue q).ring } } }

def writeEntry (s : HardwarePullerEmu) (q : UInt32) (e : GpuGpfifoEntry) : HardwarePullerEmu :=
  if (s.queues.queue q).attached then
    { s.updateRing q (·.store e) with log := .wrote q :: s.log }
  else s

/-- The entry in the slot of the write index. -/
def nextSlot (s : HardwarePullerEmu) (q : UInt32) : GpuGpfifoEntry :=
  let r := (s.queues.queue q).ring
  r.slot (r.writeIdx % r.size)

def advanceWriteIdx (s : HardwarePullerEmu) (q : UInt32) : HardwarePullerEmu :=
  if (s.queues.queue q).attached then
    { s.updateRing q (·.advance) with log := .published q (s.nextSlot q) :: s.log }
  else s

/-- A callback to `onDoorbell` is entered for queue `q`. -/
def enterCallback (s : HardwarePullerEmu) (q : UInt32) : HardwarePullerEmu :=
  { s with
    queues := { s.queues with callbacks := s.queues.callbacks + 1 }
    log := .rang q :: s.log }

/-- Only a registered queue has its callback set. -/
def ringDoorbell (s : HardwarePullerEmu) (q : UInt32) : HardwarePullerEmu :=
  if q ∈ s.queues.activeQueues then s.enterCallback q else s

def writeDoorbell (s : HardwarePullerEmu) (q : UInt32) : HardwarePullerEmu :=
  match s.queues.doorbell.write q with
  | (true, d) => ({ s with queues := { s.queues with doorbell := d } }).enterCallback q
  | (false, _) => s

def onDoorbell (s : HardwarePullerEmu) : HardwarePullerEmu :=
  match s.queues.callbacks with
  | 0 => s
  | n + 1 => { s with queues := { s.queues with callbacks := n, doorbellPending := true } }

/-! ### One action -/

def step (s : HardwarePullerEmu) : Action → HardwarePullerEmu
  | .puller stale => s.pullerStep stale
  | .submitBatch b => s.submitBatch b
  | .channelSubmit channel b => s.channelSubmit channel b
  | .configure op => s.configure op
  | .triggerPreempt target => { s with preempt := ⟨true, target⟩ }
  | .signalBarrier barrierId => { s with sema := (s.sema.signalBarrier barrierId).2 }
  | .writeEntry q e => s.writeEntry q e
  | .advanceWriteIdx q => s.advanceWriteIdx q
  | .ringDoorbell q => s.ringDoorbell q
  | .writeDoorbell q => s.writeDoorbell q
  | .onDoorbell => s.onDoorbell
  | .memWrite devAddr size buf =>
    { s with device := { s.device with
      hal := (s.device.hal.memWrite devAddr size buf).getD s.device.hal } }
  | .hostWrite host => { s with device := { s.device with host := host } }

/-! ### The machine before its first step -/

/-- The queues registered, whether each is attached and how large; the MQD memory when there is a
channel manager; scheduler, memories and semaphore manager. -/
structure Config where
  activeQueues : List UInt32
  attached : UInt32 → Bool
  ringSize : UInt32 → UInt32
  mqds : Option (ℕ → Mqd)
  scheduler : Option GlobalScheduler
  heap : UInt64 → UInt8
  host : UInt64 → UInt8
  semMgr : Bool

def init (cfg : Config) : HardwarePullerEmu where
  pc := .idle
  regs := ⟨0, 0, 0, 0⟩
  currentEntry := .zero
  queues :=
    { activeQueues := cfg.activeQueues
      currentQueueId := 0
      queue := fun q => .create (cfg.attached q) (cfg.ringSize q)
      doorbellPending := false
      doorbell := .create
      callbacks := 0 }
  device :=
    { hal := ⟨cfg.heap, 0⟩
      host := cfg.host
      scheduler := cfg.scheduler
      simTick := 0
      simFenceTable := fun _ => none
      semMgr := cfg.semMgr }
  channelMgr := cfg.mqds.map .create
  currentChannelId := 0
  preempt := ⟨false, 0⟩
  sema := .empty
  semaBackup := .empty
  waiter := ⟨0, 0, false⟩
  isInJump := false
  pdl := ⟨0, 0⟩
  serial := 0
  source := .ring 0
  loaded := ⟨0, 0, 0, 0, 0, 0⟩
  nextId := 1
  slotId := fun _ => 0
  log := []

/-- The state after a run. -/
abbrev after (cfg : Config) (as : List Action) : HardwarePullerEmu := run step (init cfg) as

/-- A machine with nothing registered and zeroed memories. -/
def Config.bare : Config where
  activeQueues := []
  attached := fun _ => true
  ringSize := fun _ => 4
  mqds := none
  scheduler := none
  heap := fun _ => 0
  host := fun _ => 0
  semMgr := false

/-- The same with a channel manager whose MQDs are all idle and zero. -/
def Config.managed : Config :=
  { Config.bare with mqds := some fun _ => ⟨0, 0, 0, 0, 0, 0, mqdStateIdle⟩ }

/-- The same, with MQD 0 active and a batch of `count` entries as its context. -/
def Config.oneActive (count : UInt32) : Config :=
  { Config.managed with mqds := some fun p =>
      if p = 0 then ⟨0x100000000, count, 0, 0, 0, 0, mqdStateActive⟩
      else ⟨0, 0, 0, 0, 0, 0, mqdStateIdle⟩ }

/-- `n` steps of the puller's thread. -/
def pulls (n : ℕ) : List Action := List.replicate n (.puller .zero)

end HardwarePullerEmu

end UsrLinuxEmu.GpuDriver
