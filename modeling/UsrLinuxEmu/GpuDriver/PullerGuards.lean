import UsrLinuxEmu.GpuDriver.EnvStep

/-!
# Conditions on single steps

The results about runs hold under conditions on each step: on the state before it and the action.
This module has the predicates on states that those conditions share, all computable, with the
lemmas that tie them to the steps of the puller.

* `blocks` / `retires` — the step skips a blocked entry, or counts an entry as done;
* `resumption` — the step loads the registers from a PREEMPTED MQD instead of the slot;
* `atCheckpoint` — the step runs the preemption checkpoint;
* `switchSelection` — the channel whose batch the step loads;
* `switchVictim` — the GREEN victim that the step's selection takes the GPU from.
-/

namespace UsrLinuxEmu.GpuDriver

open ChannelManager

/-- The entry came from the batch registers, not from a ring. -/
def Source.isBatch : Source → Bool
  | .batch .. => true
  | .ring _ => false

namespace HardwarePullerEmu

/-- DECODE would park the current entry. -/
def blocks (s : HardwarePullerEmu) : Bool := s.currentEntry.isSemOp && !s.processSemOp.1

/-- The puller's next step advances the cursor: COMPLETE, or DECODE with a blocked entry. -/
def retires (s : HardwarePullerEmu) : Bool :=
  s.pc == .complete || (s.pc == .decode && s.blocks)

/-- The selection that CHANNEL_SWITCH is about to make. -/
def selection (s : HardwarePullerEmu) : Option (ℕ × ChannelManager) :=
  match s.pc, s.channelMgr with
  | .channelSwitch, some m => m.nextReadyChannel.1.map fun c => (c, m.nextReadyChannel.2)
  | _, _ => none

/-- The context in the save area of an MQD, as registers. -/
def savedRegs (mqd : Mqd) (fence : UInt64) : GpfifoRegs :=
  ⟨mqd.savedGpfifoAddr, mqd.savedIndex.toNat, mqd.savedEntries.toNat, fence⟩

/-- When the selected channel's MQD is PREEMPTED: what it has saved, and the registers that the
channel's slot would give. -/
def resumption (s : HardwarePullerEmu) : Option (GpfifoRegs × GpfifoRegs) :=
  match s.selection with
  | none => none
  | some (c, m) =>
    (preemptedMqd m c).map fun p =>
      (savedRegs (m.mqd p) (m.channels c).pendingFenceId, (m.channels c).batch.regs)

/-- COMPLETE is about to run the preemption checkpoint. -/
def atCheckpoint (s : HardwarePullerEmu) : Bool :=
  s.pc == .complete && decide (s.regs.total ≤ s.regs.index + 1) && s.preempt.pending && !s.isInJump

/-- The channel that the checkpoint is about to load. -/
def checkpointSelection (s : HardwarePullerEmu) : Option ℕ :=
  match s.channelMgr with
  | some m => (s.checkpointManager (m.yieldChannel s.currentChannelId)).1
  | none => none

/-- The channel whose batch the step is about to load. -/
def switchSelection (s : HardwarePullerEmu) : Option ℕ :=
  if s.atCheckpoint then s.checkpointSelection else s.selection.map Prod.fst

/-- The manager on which the checkpoint selects: the old channel yielded, its MQD saved. -/
def savedManager (s : HardwarePullerEmu) (m : ChannelManager) : ChannelManager :=
  (m.yieldChannel s.currentChannelId).preemptMqd
    ((m.yieldChannel s.currentChannelId).getMqdForChannel s.currentChannelId)

/-- The victim of the selection that the step is about to make, if it makes one. -/
def switchVictim (s : HardwarePullerEmu) : Option ℕ :=
  match s.channelMgr with
  | none => none
  | some m =>
    if s.pc = .channelSwitch then m.victim
    else if s.atCheckpoint then (s.savedManager m).victim
    else none

/-- The entry that the scan is about to take from a ring. -/
def ringEntry (s : HardwarePullerEmu) : Option (GpuGpfifoEntry × GpuQueueEmu) :=
  match s.pc with
  | .scanQueues (q :: _) => (s.queues.queue q).dequeue
  | _ => none

/-- The channel's slot holds a batch in flight. -/
def busy (s : HardwarePullerEmu) (c : ℕ) : Bool :=
  match s.channelMgr with
  | some m => (m.channels c).batchInFlight
  | none => false

theorem blocks_of_processSemOp {s : HardwarePullerEmu} {sema : ChannelSemaphoreState}
    (hop : s.currentEntry.isSemOp = true)
    (hsema : s.processSemOp = (false, { s with sema := sema })) : s.blocks = true := by
  rw [blocks, hop, hsema]
  rfl

theorem retires_of_block {s : HardwarePullerEmu} (hpc : s.pc = .decode) (hb : s.blocks = true) :
    s.retires = true := by
  simp [retires, hpc, hb]

theorem retires_of_complete {s : HardwarePullerEmu} (hpc : s.pc = .complete) :
    s.retires = true := by
  simp [retires, hpc]

theorem selection_eq {s : HardwarePullerEmu} {m m' : ChannelManager} {c : ℕ}
    (hpc : s.pc = .channelSwitch) (hm : s.channelMgr = some m)
    (hnext : m.nextReadyChannel = (some c, m')) : s.selection = some (c, m') := by
  simp [selection, hpc, hm, hnext]

theorem state_of_preemptedMqd {m : ChannelManager} {c p : ℕ} (h : preemptedMqd m c = some p) :
    m.getMqdForChannel c = some p ∧ (m.mqd p).state = mqdStatePreempted := by
  unfold preemptedMqd at h
  cases hget : m.getMqdForChannel c with
  | none => simp [hget] at h
  | some p' =>
    simp only [hget] at h
    split_ifs at h with hstate
    obtain rfl : p' = p := Option.some.inj h
    exact ⟨rfl, hstate⟩

/-- A PREEMPTED MQD gives back what it has saved. -/
theorem mqdRegs_eq_savedRegs {m : ChannelManager} {c p : ℕ} (h : preemptedMqd m c = some p)
    (fence : UInt64) : mqdRegs (m.mqd p) fence = savedRegs (m.mqd p) fence := by
  simp [mqdRegs, savedRegs, Mqd.resume, (state_of_preemptedMqd h).2]

theorem resumption_eq {s : HardwarePullerEmu} {m m' : ChannelManager} {c p : ℕ}
    (hpc : s.pc = .channelSwitch) (hm : s.channelMgr = some m)
    (hnext : m.nextReadyChannel = (some c, m')) (hmqd : preemptedMqd m' c = some p) :
    s.resumption = some (mqdRegs (m'.mqd p) (m'.channels c).pendingFenceId,
      (m'.channels c).batch.regs) := by
  rw [resumption, selection_eq hpc hm hnext, mqdRegs_eq_savedRegs hmqd]
  simp only [hmqd, Option.map_some]

theorem checkpointSelection_eq {s : HardwarePullerEmu} {m m' : ChannelManager} {r : Option ℕ}
    (hm : s.channelMgr = some m)
    (hnext : s.checkpointManager (m.yieldChannel s.currentChannelId) = (r, m')) :
    s.checkpointSelection = r := by
  simp only [checkpointSelection, hm, hnext]

theorem atCheckpoint_eq {s : HardwarePullerEmu} (hpc : s.pc = .complete)
    (hidx : s.regs.total ≤ s.regs.index + 1) :
    s.atCheckpoint = (s.preempt.pending && !s.isInJump) := by
  simp [atCheckpoint, hpc, hidx]

theorem not_atCheckpoint {s : HardwarePullerEmu} (hpc : s.pc ≠ .complete) :
    s.atCheckpoint = false := by
  simp [atCheckpoint, hpc]

theorem switchSelection_select {s : HardwarePullerEmu} {m m' : ChannelManager} {c : ℕ}
    (hpc : s.pc = .channelSwitch) (hm : s.channelMgr = some m)
    (hnext : m.nextReadyChannel = (some c, m')) : s.switchSelection = some c := by
  rw [switchSelection, not_atCheckpoint (by rw [hpc]; exact Pc.noConfusion), selection_eq hpc hm hnext]
  rfl

theorem switchSelection_checkpoint {s : HardwarePullerEmu} {m m' : ChannelManager} {r : Option ℕ}
    (hat : s.atCheckpoint = true) (hm : s.channelMgr = some m)
    (hnext : s.checkpointManager (m.yieldChannel s.currentChannelId) = (r, m')) :
    s.switchSelection = r := by
  rw [switchSelection, if_pos hat, checkpointSelection_eq hm hnext]

theorem switchVictim_select {s : HardwarePullerEmu} {m : ChannelManager}
    (hpc : s.pc = .channelSwitch) (hm : s.channelMgr = some m) : s.switchVictim = m.victim := by
  simp only [switchVictim, hm, hpc, if_true]

theorem switchVictim_checkpoint {s : HardwarePullerEmu} {m : ChannelManager}
    (hcheck : s.atCheckpoint = true) (hm : s.channelMgr = some m) :
    s.switchVictim = (s.savedManager m).victim := by
  have hpc : s.pc ≠ .channelSwitch := by
    intro hpc
    simp [atCheckpoint, hpc] at hcheck
  simp only [switchVictim, hm, hpc, if_false, hcheck, if_true]

@[simp] theorem savedManager_channels (s : HardwarePullerEmu) (m : ChannelManager) :
    (s.savedManager m).channels = (m.yieldChannel s.currentChannelId).channels := by
  rw [savedManager, preemptMqd_channels]

/-- A selection without a victim leaves the channels as they are. -/
theorem channels_of_select {s : HardwarePullerEmu} {m m' : ChannelManager} {r : Option ℕ}
    (hvictim : s.switchVictim = none) (hpc : s.pc = .channelSwitch) (hm : s.channelMgr = some m)
    (hnext : m.nextReadyChannel = (r, m')) : m'.channels = m.channels := by
  rw [switchVictim_select hpc hm] at hvictim
  exact nextReadyChannel_channels hvictim hnext

/-- The same for the selection at the checkpoint, which follows the yield of the old channel. -/
theorem channels_of_checkpoint {s : HardwarePullerEmu} {m m' : ChannelManager} {r : Option ℕ}
    (hvictim : s.switchVictim = none) (hcheck : s.atCheckpoint = true)
    (hm : s.channelMgr = some m) (hnext : (s.savedManager m).nextReadyChannel = (r, m')) :
    m'.channels = (m.yieldChannel s.currentChannelId).channels := by
  rw [switchVictim_checkpoint hcheck hm] at hvictim
  rw [← savedManager_channels]
  exact nextReadyChannel_channels hvictim hnext

theorem exists_of_busy {s : HardwarePullerEmu} {c : ℕ} (h : s.busy c = true) :
    ∃ m, s.channelMgr = some m ∧ (m.channels c).batchInFlight = true := by
  unfold busy at h
  cases hm : s.channelMgr with
  | none => simp [hm] at h
  | some m =>
    simp only [hm] at h
    exact ⟨m, rfl, h⟩

theorem busy_eq {s : HardwarePullerEmu} {m : ChannelManager} (hm : s.channelMgr = some m) (c : ℕ) :
    s.busy c = (m.channels c).batchInFlight := by
  rw [busy, hm]

end HardwarePullerEmu

end UsrLinuxEmu.GpuDriver
