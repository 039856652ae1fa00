import UsrLinuxEmu.GpuDriver.PullerGuards
import UsrLinuxEmu.Transition.Simulation

/-!
# The same run without preemption requests

A request makes the checkpoint at the end of a batch do the work of COMPLETE and of the next
CHANNEL_SWITCH in one step.  Without the request the puller takes the two steps one after the
other.

* `requestFree` — the same actions in the same order, less the requests, with the extra puller
  step after each checkpoint;
* `Held` — the semaphore state of the run with requests is spread over `sema` and `semaBackup`,
  without requests it is all in `sema`;
* `Mirror` / `Tracks` — the relation between the states of the two runs;
* `switchGuard` / `freeBackup` — the conditions on one step under which the relation is kept;
* `tracks_step` / `tracks_run` — it is kept.
-/

namespace UsrLinuxEmu.GpuDriver

open UsrLinuxEmu.Transition UsrLinuxEmu.Ring ChannelManager

/-- A preemption request. -/
def Action.isRequest : Action → Bool
  | .triggerPreempt _ => true
  | _ => false

/-- The events of saving and resuming a channel. -/
def Event.isPreemption : Event → Bool
  | .preempted .. | .resumed .. => true
  | _ => false

/-! ### Managers that differ in their MQDs -/

namespace ChannelManager

def withMqds (m : ChannelManager) (mqd : ℕ → Mqd) : ChannelManager := { m with mqd := mqd }

/-- The MQDs that the pre-pass would save are idle, so that it saves none. -/
def IdleVictim (m : ChannelManager) : Prop :=
  ∀ v ∈ m.victim, ∀ p ∈ m.mqdCache v, (m.mqd p).state = mqdStateIdle

instance (m : ChannelManager) : Decidable m.IdleVictim :=
  inferInstanceAs (Decidable (∀ v ∈ m.victim, ∀ p ∈ m.mqdCache v, _))

theorem preemptMqd_of_idle {m : ChannelManager} {ptr : Option ℕ}
    (h : ∀ p ∈ ptr, (m.mqd p).state = mqdStateIdle) : m.preemptMqd ptr = m := by
  cases ptr with
  | none => rfl
  | some p =>
    have hidle : (m.mqd p).preempt = m.mqd p := by rw [Mqd.preempt, if_pos (h p rfl)]
    rw [preemptMqd, updateMqd, hidle, Function.update_eq_self]

theorem yieldChannel_withMqds (m : ChannelManager) (mqd : ℕ → Mqd) (id : ℕ) :
    (m.withMqds mqd).yieldChannel id = (m.yieldChannel id).withMqds mqd := by
  have hreg : (m.withMqds mqd).isRegistered id = m.isRegistered id := rfl
  unfold yieldChannel
  rw [hreg]
  split <;> rfl

@[simp] theorem yieldChannel_mqd (m : ChannelManager) (id : ℕ) :
    (m.yieldChannel id).mqd = m.mqd := by
  unfold yieldChannel
  split <;> rfl

theorem submitBatch_withMqds (m : ChannelManager) (mqd : ℕ → Mqd) (id : ℕ) (b : Batch) :
    (m.withMqds mqd).submitBatch id b = (m.submitBatch id b).withMqds mqd := by
  have hreg : (m.withMqds mqd).isRegistered id = m.isRegistered id := rfl
  have hch : (m.withMqds mqd).channels = m.channels := rfl
  unfold submitBatch
  rw [hreg, hch]
  split
  · cases hf : (m.channels id).batchInFlight <;>
      simp only [hf, if_true, Bool.false_eq_true, if_false] <;> rfl
  · rfl

@[simp] theorem submitBatch_mqd (m : ChannelManager) (id : ℕ) (b : Batch) :
    (m.submitBatch id b).mqd = m.mqd := by
  unfold submitBatch
  split
  · cases hf : (m.channels id).batchInFlight <;> simp [hf, setChannel, pushReady]
  · rfl

/-- The driver writes an MQD. -/
def ConfigOp.isMqdWrite : ConfigOp → Bool
  | .mqdWrite .. => true
  | _ => false

theorem configure_withMqds {m : ChannelManager} {mqd : ℕ → Mqd} {op : ConfigOp}
    (hop : op.isMqdWrite = false) :
    (m.withMqds mqd).configure op = (m.configure op).withMqds mqd := by
  cases op with
  | mqdWrite p q => cases hop
  | register id priority contextType =>
    have hreg : (m.withMqds mqd).registered = m.registered := rfl
    simp only [configure, registerChannel, hreg]
    split_ifs <;> rfl
  | contextType id contextType =>
    have hreg : (m.withMqds mqd).isRegistered id = m.isRegistered id := rfl
    simp only [configure, setChannelContextType, hreg]
    split_ifs <;> rfl
  | mqdPointer id ptr =>
    have hreg : (m.withMqds mqd).isRegistered id = m.isRegistered id := rfl
    simp only [configure, setMqdForChannel, hreg]
    split_ifs <;> rfl

theorem configure_mqd {m : ChannelManager} {op : ConfigOp} (hop : op.isMqdWrite = false) :
    (m.configure op).mqd = m.mqd := by
  cases op with
  | mqdWrite p q => cases hop
  | register id priority contextType =>
    simp only [configure, registerChannel]
    split_ifs <;> rfl
  | contextType id contextType =>
    simp only [configure, setChannelContextType]
    split_ifs <;> rfl
  | mqdPointer id ptr =>
    simp only [configure, setMqdForChannel]
    split_ifs <;> rfl

/-- Which channel waits where does not depend on the MQDs. -/
theorem preemptGreen_withMqds {m : ChannelManager} {mqd : ℕ → Mqd} (hactive : m.activeCount ≠ 0)
    (h : m.IdleVictim) (h' : (m.withMqds mqd).IdleVictim) :
    (m.withMqds mqd).preemptGreen = m.preemptGreen.withMqds mqd ∧ m.preemptGreen.mqd = m.mqd := by
  have hvictim : m.victim = m.greenVictim := by rw [victim, if_neg hactive]
  have hsame : (m.withMqds mqd).victim = m.victim := rfl
  have hgreen : (m.withMqds mqd).greenVictim = m.greenVictim := rfl
  unfold preemptGreen
  rw [hgreen]
  cases hv : m.greenVictim with
  | none => exact ⟨rfl, rfl⟩
  | some v =>
    have hv' : m.victim = some v := by rw [hvictim, hv]
    have hleft := preemptMqd_of_idle (h' v (by rw [hsame, hv']; rfl))
    have hright := preemptMqd_of_idle (h v hv')
    simp only [hleft, hright]
    exact ⟨rfl, rfl⟩

theorem scanLevel_withMqds (m : ChannelManager) (mqd : ℕ → Mqd) (pri : ChannelPrio) :
    (m.withMqds mqd).scanLevel pri =
      ((m.scanLevel pri).1, (m.scanLevel pri).2.withMqds mqd) := by
  have hstale : (m.withMqds mqd).dropStale ((m.withMqds mqd).priQueues pri) =
      m.dropStale (m.priQueues pri) := rfl
  unfold scanLevel
  rw [hstale]
  cases m.dropStale (m.priQueues pri) <;> rfl

theorem scanLevels_withMqds (m : ChannelManager) (mqd : ℕ → Mqd) :
    (m.withMqds mqd).scanLevels = (m.scanLevels.1, m.scanLevels.2.withMqds mqd) := by
  unfold scanLevels
  rw [scanLevel_withMqds]
  match m.scanLevel .high with
  | (some id, m₁) => rfl
  | (none, m₁) =>
    simp only [scanLevel_withMqds m₁]
    match m₁.scanLevel .normal with
    | (some id, m₂) => rfl
    | (none, m₂) => exact scanLevel_withMqds m₂ mqd .low

theorem forceLow_withMqds (m : ChannelManager) (mqd : ℕ → Mqd) :
    (m.withMqds mqd).forceLow = (m.forceLow.1, m.forceLow.2.withMqds mqd) := by
  have hstale : (m.withMqds mqd).dropStale ((m.withMqds mqd).priQueues .low) =
      m.dropStale (m.priQueues .low) := rfl
  unfold forceLow
  rw [hstale]
  cases m.dropStale (m.priQueues .low) <;> rfl

/-- **Selection without MQDs.**  When the pre-pass saves nothing, the selection and what it does
to the queues are the same whatever the MQDs hold, and the MQDs stay as they are. -/
theorem nextReadyChannel_withMqds {m : ChannelManager} {mqd : ℕ → Mqd} (h : m.IdleVictim)
    (h' : (m.withMqds mqd).IdleVictim) :
    (m.withMqds mqd).nextReadyChannel =
        (m.nextReadyChannel.1, m.nextReadyChannel.2.withMqds mqd) ∧
      m.nextReadyChannel.2.mqd = m.mqd := by
  by_cases hactive : m.activeCount = 0
  · have hleft : (m.withMqds mqd).nextReadyChannel = (none, m.withMqds mqd) :=
      nextReadyChannel_of_inactive hactive
    rw [hleft, nextReadyChannel_of_inactive hactive]
    exact ⟨rfl, rfl⟩
  · obtain ⟨hpre, hmqd⟩ := preemptGreen_withMqds hactive h h'
    have hcount : (m.withMqds mqd).activeCount ≠ 0 := hactive
    refine ⟨?_, (nextReadyChannel_selects m hactive).same.mqd.trans hmqd⟩
    unfold nextReadyChannel
    rw [if_neg hcount, if_neg hactive]
    simp only [hpre]
    have hstarve : (m.preemptGreen.withMqds mqd).starvationCounter =
      m.preemptGreen.starvationCounter := rfl
    rw [hstarve, forceLow_withMqds]
    split_ifs
    · match m.preemptGreen.forceLow with
      | (some id, m₁) => rfl
      | (none, m₁) => exact scanLevels_withMqds m₁ mqd
    · exact scanLevels_withMqds _ mqd

/-- A selection whose pre-pass saves nothing leaves the MQDs alone. -/
theorem nextReadyChannel_mqd {m : ChannelManager} (h : m.IdleVictim) :
    m.nextReadyChannel.2.mqd = m.mqd :=
  (nextReadyChannel_withMqds h (show (m.withMqds m.mqd).IdleVictim from h)).2

end ChannelManager

namespace HardwarePullerEmu

/-! ### The run without requests -/

/-- What the run without requests does instead of an action. -/
def requestFreeAnswer (s : HardwarePullerEmu) : Action → List Action
  | .triggerPreempt _ => []
  | .puller stale =>
    if s.atCheckpoint then [.puller stale, .puller stale] else [.puller stale]
  | a => [a]

def requestFree (s : HardwarePullerEmu) (as : List Action) : List Action :=
  companions step requestFreeAnswer s as

/-- The other parties act the same, in the same order, less the requests. -/
theorem requestFree_others (s : HardwarePullerEmu) (as : List Action) :
    (requestFree s as).filter (fun a => !a.isPuller) =
      as.filter fun a => !a.isPuller && !a.isRequest := by
  refine companions_filter step (fun s a => ?_) s as
  cases a with
  | puller stale =>
    simp only [requestFreeAnswer]
    split_ifs <;> rfl
  | _ => rfl

/-! ### Semaphore state, held in one place or in two -/

/-- `one` holds what `cur` and `saved` hold between them, and neither freezes a fence. -/
structure Held (cur saved one : ChannelSemaphoreState) : Prop where
  pending : one.pendingEntries.Perm (saved.pendingEntries ++ cur.pendingEntries)
  barriers : ∀ i, one.barriers i = (cur.barriers i).or (saved.barriers i)
  disjoint : ∀ i, saved.barriers i = none ∨ cur.barriers i = none
  cur_thawed : cur.frozen = false
  saved_thawed : saved.frozen = false
  one_thawed : one.frozen = false

theorem Held.init : Held .empty .empty .empty :=
  ⟨.refl _, fun _ => rfl, fun _ => .inl rfl, rfl, rfl, rfl⟩

/-- The checkpoint saves into a free slot. -/
theorem Held.save {cur one : ChannelSemaphoreState} (h : Held cur .empty one) :
    Held .empty cur one where
  pending := by simpa [ChannelSemaphoreState.empty] using h.pending
  barriers := fun i => by simpa [ChannelSemaphoreState.empty] using h.barriers i
  disjoint := fun _ => .inr rfl
  cur_thawed := rfl
  saved_thawed := h.cur_thawed
  one_thawed := h.one_thawed

/-- A resumption swaps the two. -/
theorem Held.swap {cur saved one : ChannelSemaphoreState} (h : Held cur saved one) :
    Held (cur.restore saved).1.rebindPendingFences (cur.restore saved).2 one where
  pending := h.pending.trans List.perm_append_comm
  barriers := fun i => by
    have hbar := h.barriers i
    obtain hsaved | hcur := h.disjoint i
    · simpa [ChannelSemaphoreState.restore, ChannelSemaphoreState.rebindPendingFences, hsaved]
        using hbar
    · simpa [ChannelSemaphoreState.restore, ChannelSemaphoreState.rebindPendingFences, hcur]
        using hbar
  disjoint := fun i => (h.disjoint i).symm
  cur_thawed := rfl
  saved_thawed := h.saved_thawed
  one_thawed := h.one_thawed

theorem Held.enqueue {cur saved one : ChannelSemaphoreState} (h : Held cur saved one)
    (e : GpuGpfifoEntry) : Held (cur.enqueuePending e) saved (one.enqueuePending e) where
  pending := by
    have hperm := h.pending.append_right [e]
    rwa [List.append_assoc] at hperm
  barriers := h.barriers
  disjoint := h.disjoint
  cur_thawed := h.cur_thawed
  saved_thawed := h.saved_thawed
  one_thawed := h.one_thawed

/-- A barrier that is not saved is the same on both sides. -/
theorem Held.barrier_eq {cur saved one : ChannelSemaphoreState} (h : Held cur saved one)
    {i : UInt64} (hfree : saved.barriers i = none) : one.barriers i = cur.barriers i := by
  rw [h.barriers, hfree, Option.or_none]

/-- Both sides write the same state of a barrier that is not saved. -/
theorem Held.put {cur saved one : ChannelSemaphoreState} (h : Held cur saved one) {i : UInt64}
    (hfree : saved.barriers i = none) (bs : BarrierState) :
    Held (cur.putBarrier i bs) saved (one.putBarrier i bs) where
  pending := h.pending
  barriers := fun j => by
    by_cases hj : j = i
    · simp [ChannelSemaphoreState.putBarrier, hj]
    · simpa [ChannelSemaphoreState.putBarrier, hj] using h.barriers j
  disjoint := fun j => by
    by_cases hj : j = i
    · exact .inl (hj ▸ hfree)
    · simpa [ChannelSemaphoreState.putBarrier, hj] using h.disjoint j
  cur_thawed := h.cur_thawed
  saved_thawed := h.saved_thawed
  one_thawed := h.one_thawed

theorem Held.registerAnd {cur saved one : ChannelSemaphoreState} (h : Held cur saved one)
    {i : UInt64} (hfree : saved.barriers i = none) (n : Int) (e : GpuGpfifoEntry) :
    Held (cur.registerBarrierAnd i n e) saved (one.registerBarrierAnd i n e) := by
  unfold ChannelSemaphoreState.registerBarrierAnd
  rw [h.barrier_eq hfree]
  exact h.put hfree _

theorem Held.registerOr {cur saved one : ChannelSemaphoreState} (h : Held cur saved one)
    {i : UInt64} (hfree : saved.barriers i = none) (e : GpuGpfifoEntry) :
    Held (cur.registerBarrierOr i e) saved (one.registerBarrierOr i e) := by
  unfold ChannelSemaphoreState.registerBarrierOr
  rw [h.barrier_eq hfree]
  exact h.put hfree _

theorem Held.releasedList {cur saved one : ChannelSemaphoreState} (h : Held cur saved one)
    (l : List GpuGpfifoEntry) :
    Held { cur with barrierReleased := l } saved { one with barrierReleased := l } :=
  ⟨h.pending, h.barriers, h.disjoint, h.cur_thawed, h.saved_thawed, h.one_thawed⟩

/-- A signal finds the barrier in use, or finds it saved and already triggered. -/
theorem Held.signal {cur saved one : ChannelSemaphoreState} (h : Held cur saved one) {i : UInt64}
    (hfree : ∀ bs, saved.barriers i = some bs → bs.triggered = true) :
    Held (cur.signalBarrier i).2 saved (one.signalBarrier i).2 := by
  cases hs : saved.barriers i with
  | some bs =>
    have hcur : cur.barriers i = none := (h.disjoint i).resolve_left (by simp [hs])
    have hone : one.barriers i = some bs := by rw [h.barriers, hcur, hs, Option.none_or]
    simpa [ChannelSemaphoreState.signalBarrier, hcur, hone, hfree bs hs] using h
  | none =>
    unfold ChannelSemaphoreState.signalBarrier
    rw [h.barrier_eq hs]
    cases cur.barriers i with
    | none => exact h
    | some bs =>
      simp only
      split_ifs
      · exact h
      · exact (h.put hs _).releasedList _
      · exact h.put hs _
      · exact (h.put hs _).releasedList _

/-! ### The relation between the two runs -/

/-- What is different in the run without requests, besides that nothing is requested or saved. -/
structure Calm where
  mgr : ChannelManager
  sema : ChannelSemaphoreState
  log : List Event

/-- The state of the run without requests. -/
def calmed (s : HardwarePullerEmu) (o : Calm) : HardwarePullerEmu :=
  { s with
    channelMgr := some o.mgr
    preempt := ⟨false, 0⟩
    sema := o.sema
    semaBackup := .empty
    log := o.log }

/-- An MQD in both runs: never PREEMPTED in the second, and IDLE in both or in none. -/
structure MqdMirror (q q' : Mqd) : Prop where
  calm : q'.state ≠ mqdStatePreempted
  idle : q.state = mqdStateIdle ↔ q'.state = mqdStateIdle

structure Mirror (s : HardwarePullerEmu) (o : Calm) : Prop where
  mgr : ∃ f, s.channelMgr = some (o.mgr.withMqds f) ∧ ∀ p, MqdMirror (f p) (o.mgr.mqd p)
  held : Held s.sema s.semaBackup o.sema
  log : o.log = s.log.filter fun e => !e.isPreemption

def Tracks (s t : HardwarePullerEmu) : Prop := ∃ o, t = s.calmed o ∧ Mirror s o

theorem Tracks.regs {s t : HardwarePullerEmu} (h : Tracks s t) : t.regs = s.regs := by
  obtain ⟨o, rfl, -⟩ := h
  rfl

/-- No request is pending in the run without requests. -/
theorem Tracks.calm {s t : HardwarePullerEmu} (h : Tracks s t) : t.preempt.pending = false := by
  obtain ⟨o, rfl, -⟩ := h
  rfl

/-- The manager on which the step is about to select. -/
def selecting (s : HardwarePullerEmu) : Option ChannelManager :=
  match s.channelMgr with
  | none => none
  | some m =>
    if s.pc = .channelSwitch then some m
    else if s.atCheckpoint then some (s.savedManager m)
    else none

/-- The barrier at which DECODE is about to register the current entry. -/
def arrival (s : HardwarePullerEmu) : Option UInt64 :=
  if s.pc = .decode ∧ (s.currentEntry.method = gpuOpBarrierAnd ∨
      s.currentEntry.method = gpuOpBarrierOr) then some s.currentEntry.semaphoreVa
  else none

/-- A checkpoint loads the requested channel; a PREEMPTED MQD gives back the batch of the slot; no
barrier is used while its state is saved; the GREEN pre-pass saves no MQD and the driver writes none
as PREEMPTED. -/
def switchGuard (s : HardwarePullerEmu) : Action → Prop
  | .puller _ =>
    (s.atCheckpoint = true → s.checkpointSelection = some s.preempt.target) ∧
      (∀ r ∈ s.resumption, r.1 = r.2) ∧ (∀ i ∈ s.arrival, s.semaBackup.barriers i = none) ∧
      ∀ m ∈ s.selecting, m.IdleVictim
  | .signalBarrier i => ∀ bs ∈ s.semaBackup.barriers i, bs.triggered = true
  | .configure (.mqdWrite _ q) => q.state ≠ mqdStatePreempted
  | _ => True

instance decidableSwitchGuard (s : HardwarePullerEmu) : ∀ a, Decidable (switchGuard s a)
  | .puller _ => inferInstanceAs (Decidable (_ ∧ _ ∧ _ ∧ _))
  | .signalBarrier i => inferInstanceAs (Decidable (∀ bs ∈ s.semaBackup.barriers i, _))
  | .configure (.mqdWrite _ q) => inferInstanceAs (Decidable (q.state ≠ mqdStatePreempted))
  | .configure (.register ..) | .configure (.contextType ..) | .configure (.mqdPointer ..)
  | .submitBatch _ | .channelSubmit .. | .triggerPreempt _ | .writeEntry .. | .advanceWriteIdx _
  | .ringDoorbell _ | .writeDoorbell _ | .onDoorbell | .memWrite .. | .hostWrite _ =>
    inferInstanceAs (Decidable True)

/-- A checkpoint finds nothing saved that it would overwrite. -/
def freeBackup (s : HardwarePullerEmu) : Action → Prop
  | .puller _ => s.atCheckpoint = true → s.semaBackup = .empty
  | _ => True

/-! ### Steps that look at nothing that differs -/

/-- New events, none of them of saving or resuming, and nothing else that the relation looks at. -/
theorem Mirror.extend {s u : HardwarePullerEmu} {o : Calm} (h : Mirror s o) {E : List Event}
    (hmgr : u.channelMgr = s.channelMgr) (hsema : u.sema = s.sema)
    (hsaved : u.semaBackup = s.semaBackup) (hlog : u.log = E ++ s.log)
    (hE : ∀ e ∈ E, e.isPreemption = false) : Mirror u { o with log := E ++ o.log } where
  mgr := hmgr ▸ h.mgr
  held := hsema ▸ hsaved ▸ h.held
  log := by
    have hkeep : E.filter (fun e => !e.isPreemption) = E :=
      List.filter_eq_self.mpr fun e he => by rw [hE e he]; rfl
    rw [hlog, List.filter_append, hkeep, h.log]

theorem Mirror.tracks {s u : HardwarePullerEmu} {o : Calm} (h : Mirror s o)
    (hmgr : u.channelMgr = s.channelMgr) (hsema : u.sema = s.sema)
    (hsaved : u.semaBackup = s.semaBackup) (hlog : u.log = s.log) : Tracks u (u.calmed o) :=
  ⟨o, rfl, h.extend (E := []) hmgr hsema hsaved hlog (by simp)⟩

theorem tracks_goto {s t : HardwarePullerEmu} (h : Tracks s t) (pc : Pc) :
    Tracks (s.goto pc) (t.goto pc) := by
  obtain ⟨o, rfl, h⟩ := h
  exact h.tracks (u := s.goto pc) rfl rfl rfl rfl

theorem tracks_take {s t : HardwarePullerEmu} (h : Tracks s t) (src : Source)
    (e : GpuGpfifoEntry) : Tracks (s.take src e) (t.take src e) := by
  obtain ⟨o, rfl, h⟩ := h
  exact ⟨_, rfl, h.extend (u := s.take src e) (E := [.taken (s.serial + 1) src e]) rfl rfl rfl rfl
    (by simp [Event.isPreemption])⟩

theorem tracks_stepIdle {s t : HardwarePullerEmu} (h : Tracks s t) :
    Tracks s.stepIdle t.stepIdle := by
  have hgoto := tracks_goto h .channelSwitch
  obtain ⟨o, rfl, hm⟩ := h
  have hflag : (s.calmed o).queues = s.queues := rfl
  unfold stepIdle
  rw [hflag]
  split_ifs
  · exact hgoto
  · exact ⟨o, rfl, hm⟩

theorem tracks_stepScanQueues {s t : HardwarePullerEmu} (h : Tracks s t) (rest : List UInt32) :
    Tracks (s.stepScanQueues rest) (t.stepScanQueues rest) := by
  cases rest with
  | nil => exact tracks_goto h .exchange
  | cons q rest =>
    have hgoto := tracks_goto h (.scanQueues rest)
    obtain ⟨o, rfl, hm⟩ := h
    have hqueues : (s.calmed o).queues = s.queues := rfl
    simp only [stepScanQueues, hqueues]
    cases (s.queues.queue q).dequeue with
    | none => exact hgoto
    | some r =>
      refine tracks_take ?_ (.ring q) r.1
      exact hm.tracks (u := { s with queues := _ }) rfl rfl rfl rfl

theorem tracks_stepExchange {s t : HardwarePullerEmu} (h : Tracks s t) :
    Tracks s.stepExchange t.stepExchange := by
  have hgoto := tracks_goto h .idle
  obtain ⟨o, rfl, hm⟩ := h
  have hqueues : (s.calmed o).queues = s.queues := rfl
  unfold stepExchange
  rw [hqueues]
  split_ifs
  · exact hm.tracks (u := { s with queues := _, pc := .fetch }) rfl rfl rfl rfl
  · exact hgoto

theorem tracks_stepFetch {s t : HardwarePullerEmu} (h : Tracks s t) (stale : GpuGpfifoEntry) :
    Tracks (s.stepFetch stale) (t.stepFetch stale) := by
  have hentry : t.fetchEntry stale = s.fetchEntry stale := by
    obtain ⟨o, rfl, -⟩ := h
    rfl
  have hsrc : t.loaded = s.loaded ∧ t.regs = s.regs := by
    obtain ⟨o, rfl, -⟩ := h
    exact ⟨rfl, rfl⟩
  unfold stepFetch
  rw [hentry]
  cases s.fetchEntry stale with
  | none => exact tracks_goto h .idle
  | some e =>
    simp only [hsrc]
    exact tracks_take h _ e

theorem tracks_stepDispatch {s t : HardwarePullerEmu} (h : Tracks s t) :
    Tracks s.stepDispatch t.stepDispatch := by
  obtain ⟨o, rfl, hm⟩ := h
  refine ⟨_, rfl, hm.extend (u := s.stepDispatch) rfl rfl rfl rfl fun e he => ?_⟩
  obtain ⟨rfl, -⟩ | ⟨p, rfl⟩ | ⟨q, i, x, rfl⟩ | rfl := mem_dispatchEvents he <;> rfl

theorem tracks_writeEntrySemaphore {s t : HardwarePullerEmu} (h : Tracks s t) :
    Tracks s.writeEntrySemaphore t.writeEntrySemaphore := by
  obtain ⟨o, rfl, hm⟩ := h
  exact ⟨_, rfl, hm.extend (u := s.writeEntrySemaphore)
    (E := [.semWritten s.serial s.currentEntry.semaphoreVa s.currentEntry.semaphoreValue])
    rfl rfl rfl rfl (by simp [Event.isPreemption])⟩

theorem tracks_waiter {s t : HardwarePullerEmu} (h : Tracks s t) (w : SemWaiter) :
    Tracks { s with waiter := w } { t with waiter := w } := by
  obtain ⟨o, rfl, hm⟩ := h
  exact hm.tracks (u := { s with waiter := w }) rfl rfl rfl rfl

theorem tracks_signalSemaphore {s t : HardwarePullerEmu} (h : Tracks s t) (va : UInt64)
    (value : UInt32) : Tracks (s.signalSemaphore va value) (t.signalSemaphore va value) := by
  have hw : t.waiter = s.waiter := by
    obtain ⟨o, rfl, -⟩ := h
    rfl
  unfold signalSemaphore
  rw [hw]
  split_ifs
  · exact tracks_waiter h _
  · exact h

theorem tracks_stepSemaphore {s t : HardwarePullerEmu} (h : Tracks s t) :
    Tracks s.stepSemaphore t.stepSemaphore := by
  have hrelease := tracks_goto (tracks_signalSemaphore (tracks_writeEntrySemaphore h)
    s.currentEntry.semaphoreVa s.currentEntry.semaphoreValue) .complete
  obtain ⟨o, rfl, hm⟩ := h
  have he : (s.calmed o).currentEntry = s.currentEntry := rfl
  unfold stepSemaphore releaseSemaphore
  rw [he]
  split_ifs
  · exact hrelease
  · exact hm.tracks (u := { s with waiter := _, pc := .waitSemaphore }) rfl rfl rfl rfl

theorem tracks_stepWaitSemaphore {s t : HardwarePullerEmu} (h : Tracks s t) :
    Tracks s.stepWaitSemaphore t.stepWaitSemaphore := by
  obtain ⟨o, rfl, hm⟩ := h
  have hw : (s.calmed o).waiter = s.waiter := rfl
  have hd : (s.calmed o).device = s.device := rfl
  unfold stepWaitSemaphore
  rw [hw, hd]
  split_ifs
  · exact hm.tracks (u := { s with waiter := _, pc := .dispatch }) rfl rfl rfl rfl
  · exact ⟨o, rfl, hm⟩

/-! ### DECODE and COMPLETE -/

theorem tracks_yieldCurrent {s t : HardwarePullerEmu} (h : Tracks s t) :
    Tracks s.yieldCurrent t.yieldCurrent := by
  obtain ⟨o, rfl, hm⟩ := h
  obtain ⟨f, hmgr, hmqd⟩ := hm.mgr
  refine ⟨⟨o.mgr.yieldChannel s.currentChannelId, o.sema, .yielded s.currentChannelId :: o.log⟩,
    ?_, ⟨f, ?_, fun p => ?_⟩, ?_, ?_⟩
  · simp only [yieldCurrent, hmgr]
    rfl
  · simp only [yieldCurrent, hmgr, yieldChannel_withMqds]
  · rw [yieldChannel_mqd]
    exact hmqd p
  · simpa only [yieldCurrent, hmgr] using hm.held
  · simp [yieldCurrent, hmgr, Event.isPreemption, hm.log]

theorem Mirror.sema {s : HardwarePullerEmu} {o : Calm} (h : Mirror s o)
    {cur one : ChannelSemaphoreState} (hheld : Held cur s.semaBackup one) :
    Mirror { s with sema := cur } { o with sema := one } :=
  ⟨h.mgr, hheld, h.log⟩

/-- DECODE parks the entry in both runs or lets it through in both. -/
theorem tracks_processSemOp {s t : HardwarePullerEmu} (h : Tracks s t) (hpc : s.pc = .decode)
    (hop : s.currentEntry.isSemOp = true)
    (hfree : ∀ i ∈ s.arrival, s.semaBackup.barriers i = none) :
    t.processSemOp.1 = s.processSemOp.1 ∧ Tracks s.processSemOp.2 t.processSemOp.2 := by
  obtain ⟨o, rfl, hm⟩ := h
  have he : (s.calmed o).currentEntry = s.currentEntry := rfl
  have hdev : (s.calmed o).device = s.device := rfl
  unfold processSemOp
  rw [he, hdev]
  by_cases hw : s.currentEntry.method = gpuOpSemWait
  · simp only [if_pos hw, ChannelSemaphoreState.processSemWait]
    cases ChannelSemaphoreState.reached s.device.hal.readU32 s.currentEntry with
    | true => exact ⟨rfl, o, rfl, hm⟩
    | false => exact ⟨rfl, _, rfl, hm.sema (hm.held.enqueue s.currentEntry)⟩
  · have harrive : ∀ i, (s.currentEntry.method = gpuOpBarrierAnd ∨
        s.currentEntry.method = gpuOpBarrierOr) → s.currentEntry.semaphoreVa = i →
        s.semaBackup.barriers i = none := by
      rintro i hbar rfl
      exact hfree _ (by rw [arrival, if_pos ⟨hpc, hbar⟩]; rfl)
    by_cases ha : s.currentEntry.method = gpuOpBarrierAnd
    · simp only [if_neg hw, if_pos ha]
      exact ⟨trivial, _, rfl, hm.sema (hm.held.registerAnd (harrive _ (.inl ha) rfl) _ _)⟩
    · by_cases ho : s.currentEntry.method = gpuOpBarrierOr
      · simp only [if_neg hw, if_neg ha, if_pos ho]
        exact ⟨trivial, _, rfl, hm.sema (hm.held.registerOr (harrive _ (.inr ho) rfl) _)⟩
      · simp [GpuGpfifoEntry.isSemOp, hw, ha, ho] at hop

theorem tracks_skipBlocked {s t : HardwarePullerEmu} (h : Tracks s t) :
    Tracks s.skipBlocked t.skipBlocked := by
  obtain ⟨o, rfl, hm⟩ := h
  have hskip : Tracks
      { s with
        regs := { s.regs with index := s.regs.index + 1 }
        log := .blocked s.serial s.source s.currentEntry :: s.log }
      { s.calmed o with
        regs := { s.regs with index := s.regs.index + 1 }
        log := .blocked s.serial s.source s.currentEntry :: o.log } :=
    ⟨_, rfl, hm.extend (E := [.blocked s.serial s.source s.currentEntry]) rfl rfl rfl rfl
      (by simp [Event.isPreemption])⟩
  have hregs : (s.calmed o).regs = s.regs := rfl
  unfold skipBlocked
  simp only [hregs]
  split_ifs
  · exact tracks_goto (tracks_yieldCurrent hskip) .channelSwitch
  · exact tracks_goto hskip .fetch

theorem tracks_stepDecode {s t : HardwarePullerEmu} (h : Tracks s t) (hpc : s.pc = .decode)
    (hfree : ∀ i ∈ s.arrival, s.semaBackup.barriers i = none) :
    Tracks s.stepDecode t.stepDecode := by
  have he : t.currentEntry = s.currentEntry := by
    obtain ⟨o, rfl, -⟩ := h
    rfl
  unfold stepDecode
  rw [he]
  cases hop : s.currentEntry.isSemOp with
  | false =>
    simp only [Bool.false_eq_true, if_false]
    exact tracks_goto h _
  | true =>
    simp only [if_true]
    obtain ⟨hb, htracks⟩ := tracks_processSemOp h hpc hop hfree
    match hs : s.processSemOp, ht : t.processSemOp with
    | (true, s'), (b, t') =>
      rw [hs, ht] at hb htracks
      obtain rfl : b = true := hb
      exact tracks_goto htracks .schedule
    | (false, s'), (b, t') =>
      rw [hs, ht] at hb htracks
      obtain rfl : b = false := hb
      exact tracks_skipBlocked htracks

/-- A fence that is due in one run is due in the other: none is frozen. -/
theorem Mirror.fenceDue {s : HardwarePullerEmu} {o : Calm} (h : Mirror s o) :
    (s.calmed o).fenceDue = s.fenceDue := by
  have hcur := ChannelSemaphoreState.isFenceFrozen_of_not_frozen h.held.cur_thawed s.regs.fence
  have hone := ChannelSemaphoreState.isFenceFrozen_of_not_frozen h.held.one_thawed s.regs.fence
  simp only [HardwarePullerEmu.fenceDue, calmed, hcur, hone]
  rfl

theorem tracks_finishEntry {s t : HardwarePullerEmu} (h : Tracks s t) :
    Tracks s.finishEntry t.finishEntry := by
  obtain ⟨o, rfl, hm⟩ := h
  have hdue := hm.fenceDue
  have hdevice : (s.calmed o).finishDevice = s.finishDevice := by
    simp only [finishDevice, hdue]
    rfl
  have hregs : (s.calmed o).finishRegs = s.finishRegs := by
    simp only [finishRegs, hdue]
    rfl
  have hevents : (s.calmed o).finishEvents = s.finishEvents := by
    simp only [finishEvents, hdue]
    rfl
  rw [finishEntry_eq, finishEntry_eq, hdevice, hregs, hevents]
  refine ⟨_, rfl, hm.extend rfl rfl rfl rfl fun e he => ?_⟩
  obtain ⟨x, y, rfl⟩ | ⟨rfl, -⟩ | rfl | rfl := mem_finishEvents he <;> rfl

/-! ### Saving and resuming MQDs in one run only -/

theorem MqdMirror.preempt {q q' : Mqd} (h : MqdMirror q q') : MqdMirror q.preempt q' := by
  unfold Mqd.preempt
  split_ifs with h0 h2
  · exact h
  · exact h
  · refine ⟨h.calm, fun hpre => absurd hpre (by simp [mqdStatePreempted, mqdStateIdle]),
      fun hidle => absurd (h.idle.mpr hidle) h0⟩

theorem MqdMirror.resume {q q' : Mqd} (h : MqdMirror q q') (hq : q.state = mqdStatePreempted) :
    MqdMirror q.resume q' := by
  have hact : q.resume.state = mqdStateActive := by simp [Mqd.resume, hq]
  refine ⟨h.calm, fun hidle => ?_, fun hidle => ?_⟩
  · rw [hact] at hidle
    exact absurd hidle (by decide)
  · rw [h.idle.mpr hidle] at hq
    exact absurd hq (by decide)

/-- Changing one MQD of the first run keeps the MQDs related. -/
theorem mqdMirror_update {f g : ℕ → Mqd} (h : ∀ p, MqdMirror (f p) (g p)) {p : ℕ} {q : Mqd}
    (hq : MqdMirror q (g p)) (p' : ℕ) : MqdMirror (Function.update f p q p') (g p') := by
  by_cases hp : p' = p
  · subst hp
    rwa [Function.update_self]
  · rw [Function.update_of_ne hp]
    exact h p'

theorem preemptMqd_withMqds {n : ChannelManager} {f : ℕ → Mqd}
    (h : ∀ p, MqdMirror (f p) (n.mqd p)) (ptr : Option ℕ) :
    ∃ f', (n.withMqds f).preemptMqd ptr = n.withMqds f' ∧ ∀ p, MqdMirror (f' p) (n.mqd p) := by
  cases ptr with
  | none => exact ⟨f, rfl, h⟩
  | some p => exact ⟨_, rfl, mqdMirror_update h (h p).preempt⟩

/-- A pre-pass that saves nothing in the run with requests saves nothing without them. -/
theorem idleVictim_of_withMqds {n : ChannelManager} {f : ℕ → Mqd}
    (h : ∀ p, MqdMirror (f p) (n.mqd p)) (hidle : (n.withMqds f).IdleVictim) : n.IdleVictim :=
  fun v hv p hp => (h p).idle.mp (hidle v hv p hp)

theorem preemptedMqd_of_calm {n : ChannelManager} {f : ℕ → Mqd}
    (h : ∀ p, MqdMirror (f p) (n.mqd p)) (c : ℕ) : preemptedMqd n c = none := by
  unfold preemptedMqd
  cases n.getMqdForChannel c with
  | none => rfl
  | some p => exact if_neg (h p).calm

/-! ### CHANNEL_SWITCH and the checkpoint -/

theorem tracks_stepChannelSwitch {s t : HardwarePullerEmu} (h : Tracks s t)
    (hpc : s.pc = .channelSwitch) (hres : ∀ r ∈ s.resumption, r.1 = r.2)
    (hidle : ∀ m ∈ s.selecting, m.IdleVictim) :
    Tracks s.stepChannelSwitch t.stepChannelSwitch := by
  obtain ⟨o, rfl, hm⟩ := h
  obtain ⟨f, hmgr, hmqd⟩ := hm.mgr
  have hvictim : (o.mgr.withMqds f).IdleVictim :=
    hidle _ (by simp only [selecting, hmgr, if_pos hpc]; rfl)
  obtain ⟨hnext, hsame⟩ := nextReadyChannel_withMqds (idleVictim_of_withMqds hmqd hvictim) hvictim
  have hmqd' : ∀ p, MqdMirror (f p) (o.mgr.nextReadyChannel.2.mqd p) := by rwa [hsame]
  have htmgr : (s.calmed o).channelMgr = some o.mgr := rfl
  unfold stepChannelSwitch
  rw [htmgr, hmgr]
  simp only [hnext]
  rcases hn : o.mgr.nextReadyChannel with ⟨_ | c, n'⟩
  · rw [hn] at hmqd'
    exact ⟨⟨n', o.sema, o.log⟩, rfl, ⟨f, rfl, hmqd'⟩, hm.held, hm.log⟩
  · rw [hn] at hmqd' hnext
    simp only [selectChannel, preemptedMqd_of_calm hmqd' c]
    cases hp : preemptedMqd (n'.withMqds f) c with
    | none =>
      refine ⟨⟨n', o.sema, .loaded ⟨s.slotId c, c, (n'.channels c).batch.regs⟩ :: o.log⟩, rfl,
        ⟨f, rfl, hmqd'⟩, hm.held, ?_⟩
      simp [load, withMqds, Event.isPreemption, hm.log]
    | some p =>
      -- the saved context is the batch in the slot, which the other run loads
      have hregs : mqdRegs (f p) (n'.channels c).pendingFenceId = (n'.channels c).batch.regs :=
        hres _ (by rw [resumption_eq hpc hmgr hnext hp]; rfl)
      have hregs' : mqdRegs ((n'.withMqds f).mqd p) ((n'.withMqds f).channels c).pendingFenceId =
          (n'.channels c).batch.regs := hregs
      simp only [hregs']
      refine ⟨⟨n', o.sema, .loaded ⟨s.slotId c, c, (n'.channels c).batch.regs⟩ :: o.log⟩, rfl,
        ⟨_, rfl, mqdMirror_update hmqd' ((hmqd' p).resume (state_of_preemptedMqd hp).2)⟩,
        hm.held.swap, ?_⟩
      simp [load, Event.isPreemption, hm.log]

/-- The checkpoint does what CHANNEL_SWITCH does next without the request. -/
theorem tracks_checkpoint {s t : HardwarePullerEmu} (h : Tracks s t) {m : ChannelManager}
    (hmgr : s.channelMgr = some m) (hsel : (s.checkpointManager m).1 = some s.preempt.target)
    (hsaved : s.semaBackup = .empty)
    (hidle : (m.preemptMqd (m.getMqdForChannel s.currentChannelId)).IdleVictim) :
    Tracks s.preemptCheckpoint (t.goto .channelSwitch).stepChannelSwitch := by
  obtain ⟨o, rfl, hm⟩ := h
  obtain ⟨f, hmgr', hmqd⟩ := hm.mgr
  obtain rfl : m = o.mgr.withMqds f := Option.some.inj (hmgr.symm.trans hmgr')
  obtain ⟨f', hpre, hmqd'⟩ := preemptMqd_withMqds hmqd
    ((o.mgr.withMqds f).getMqdForChannel s.currentChannelId)
  rw [hpre] at hidle
  obtain ⟨hnext, hsame⟩ := nextReadyChannel_withMqds (idleVictim_of_withMqds hmqd' hidle) hidle
  have hmqd'' : ∀ p, MqdMirror (f' p) (o.mgr.nextReadyChannel.2.mqd p) := by rwa [hsame]
  rw [checkpointManager, hpre, hnext] at hsel
  have htmgr : ((s.calmed o).goto .channelSwitch).channelMgr = some o.mgr := rfl
  have hheld := hm.held
  rw [hsaved] at hheld
  unfold stepChannelSwitch preemptCheckpoint
  rw [htmgr, hmgr]
  simp only [checkpointManager, hpre, hnext]
  rcases hn : o.mgr.nextReadyChannel with ⟨_ | c, n'⟩
  · rw [hn] at hsel
    cases hsel
  · rw [hn] at hsel hmqd''
    obtain rfl : c = s.preempt.target := Option.some.inj hsel
    simp only [selectChannel, preemptedMqd_of_calm hmqd'' s.preempt.target]
    refine ⟨⟨n', o.sema, .loaded ⟨s.slotId s.preempt.target, s.preempt.target,
      (n'.channels s.preempt.target).batch.regs⟩ :: o.log⟩, rfl, ⟨f', rfl, hmqd''⟩, hheld.save, ?_⟩
    simp [load, withMqds, Event.isPreemption, hm.log]

/-- COMPLETE in the middle of a batch, or at its end with no request to serve. -/
theorem tracks_stepComplete {s t : HardwarePullerEmu} (h : Tracks s t) (hpc : s.pc = .complete)
    (hat : s.atCheckpoint = false) : Tracks s.stepComplete t.stepComplete := by
  have hfinish := tracks_finishEntry h
  have hyield := tracks_yieldCurrent hfinish
  have hregs := hfinish.regs
  have hcalm := hyield.calm
  unfold stepComplete
  simp only [hregs]
  split_ifs with hend
  · have hidx : s.regs.total ≤ s.regs.index + 1 := by
      rw [finishEntry_eq] at hend
      exact hend
    have hrequest : (s.finishEntry.yieldCurrent.preempt.pending &&
        !s.finishEntry.yieldCurrent.isInJump) = false := by
      rw [atCheckpoint_eq hpc hidx] at hat
      rw [yieldCurrent_eq, finishEntry_eq]
      exact hat
    simp only [endBatch, hrequest, hcalm, Bool.false_and, Bool.false_eq_true, if_false]
    exact tracks_goto hyield .channelSwitch
  · exact tracks_goto hfinish .fetch

/-- The checkpoint against COMPLETE and CHANNEL_SWITCH. -/
theorem tracks_atCheckpoint {s t : HardwarePullerEmu} (h : Tracks s t)
    (hat : s.atCheckpoint = true) (hsel : s.checkpointSelection = some s.preempt.target)
    (hsaved : s.semaBackup = .empty) (hidle : ∀ m ∈ s.selecting, m.IdleVictim)
    (stale : GpuGpfifoEntry) : Tracks s.stepComplete (t.stepComplete.pullerStep stale) := by
  have hfinish := tracks_finishEntry h
  have hyield := tracks_yieldCurrent hfinish
  have hregs := hfinish.regs
  have hcalm := hyield.calm
  obtain ⟨m, hm⟩ : ∃ m, s.channelMgr = some m := by
    obtain ⟨o, -, hmirror⟩ := h
    obtain ⟨f, hmgr, -⟩ := hmirror.mgr
    exact ⟨_, hmgr⟩
  have hparts := hat
  simp only [atCheckpoint, Bool.and_eq_true, decide_eq_true_eq, beq_iff_eq] at hparts
  obtain ⟨⟨⟨hpc, hidx⟩, hpending⟩, hjump⟩ := hparts
  have hend : s.finishEntry.regs.total ≤ s.finishEntry.regs.index := by
    rw [finishEntry_eq]
    exact hidx
  -- what the checkpoint looks at, after the entry is finished and the channel yielded
  have hafter : s.finishEntry.yieldCurrent.channelMgr = some (m.yieldChannel s.currentChannelId) ∧
      s.finishEntry.yieldCurrent.currentChannelId = s.currentChannelId ∧
      s.finishEntry.yieldCurrent.preempt = s.preempt ∧
      s.finishEntry.yieldCurrent.isInJump = s.isInJump ∧
      s.finishEntry.yieldCurrent.semaBackup = s.semaBackup := by
    rw [yieldCurrent_eq, finishEntry_eq]
    refine ⟨?_, rfl, rfl, rfl, rfl⟩
    simp only [yieldedMgr, hm, Option.map_some]
  obtain ⟨hmgr, hcur, hpre, hjmp, hback⟩ := hafter
  have hrequest : (s.finishEntry.yieldCurrent.preempt.pending &&
      !s.finishEntry.yieldCurrent.isInJump) = true := by
    rw [hpre, hjmp, hpending, hjump, Bool.and_self]
  have hmain : s.stepComplete = s.finishEntry.yieldCurrent.preemptCheckpoint := by
    simp only [stepComplete, if_pos hend, endBatch, hrequest, if_true]
  have hother : t.stepComplete = t.finishEntry.yieldCurrent.goto .channelSwitch := by
    rw [← hregs] at hend
    simp only [stepComplete, if_pos hend, endBatch, hcalm, Bool.false_and, Bool.false_eq_true,
      if_false]
  have hpcs : s.pc ≠ .channelSwitch := by
    rw [hpc]
    exact Pc.noConfusion
  have hvictim : (s.savedManager m).IdleVictim := by
    refine hidle _ ?_
    simp only [selecting, hm, if_neg hpcs, hat, if_true]
    rfl
  rw [hmain, hother]
  refine tracks_checkpoint hyield hmgr ?_ (hback.trans hsaved) ?_
  · rw [hpre, ← hsel]
    simp only [checkpointSelection, hm, checkpointManager, hcur]
  · rw [hcur]
    exact hvictim

/-! ### One step of the puller -/

theorem tracks_pullerStep {s t : HardwarePullerEmu} (h : Tracks s t) (stale : GpuGpfifoEntry)
    (hG : switchGuard s (.puller stale)) (hfree : freeBackup s (.puller stale)) :
    Tracks (s.pullerStep stale) (run step t (requestFreeAnswer s (.puller stale))) := by
  obtain ⟨hcheck, hres, harrive, hidle⟩ := hG
  have hpct : t.pc = s.pc := by
    obtain ⟨o, rfl, -⟩ := h
    rfl
  cases hat : s.atCheckpoint with
  | true =>
    have hpc : s.pc = .complete := by
      by_contra hpc
      rw [not_atCheckpoint hpc] at hat
      cases hat
    have htracks := tracks_atCheckpoint h hat (hcheck hat) (hfree hat) hidle stale
    simp only [requestFreeAnswer, hat, if_true, run_cons, run_nil, step]
    rw [hpc] at hpct
    have hs : s.pullerStep stale = s.stepComplete := by simp only [pullerStep, hpc]
    have ht : t.pullerStep stale = t.stepComplete := by simp only [pullerStep, hpct]
    rwa [hs, ht]
  | false =>
    simp only [requestFreeAnswer, hat, Bool.false_eq_true, if_false, run_cons, run_nil, step]
    unfold pullerStep
    rw [hpct]
    cases hpc : s.pc with
    | idle => exact tracks_stepIdle h
    | channelSwitch => exact tracks_stepChannelSwitch h hpc hres hidle
    | scanQueues rest => exact tracks_stepScanQueues h rest
    | exchange => exact tracks_stepExchange h
    | fetch => exact tracks_stepFetch h stale
    | decode => exact tracks_stepDecode h hpc harrive
    | schedule => exact tracks_goto h .dispatch
    | dispatch => exact tracks_stepDispatch h
    | semaphore => exact tracks_stepSemaphore h
    | waitSemaphore => exact tracks_stepWaitSemaphore h
    | complete => exact tracks_stepComplete h hpc hat

/-! ### One step of another party -/

theorem tracks_acceptBatch {s : HardwarePullerEmu} {o : Calm} (h : Mirror s o)
    {m : ChannelManager} (hmgr : s.channelMgr = some m) (c : ℕ) (b : Batch) :
    Tracks (s.acceptBatch m c b) ((s.calmed o).acceptBatch o.mgr c b) := by
  obtain ⟨f, hmgr', hmqd⟩ := h.mgr
  obtain rfl : m = o.mgr.withMqds f := Option.some.inj (hmgr.symm.trans hmgr')
  have hreg : (o.mgr.withMqds f).isRegistered c = o.mgr.isRegistered c := rfl
  unfold acceptBatch
  rw [hreg]
  split_ifs
  · refine ⟨⟨o.mgr.submitBatch c b, o.sema, .submitted s.nextId c b :: o.log⟩, rfl,
      ⟨f, ?_, fun p => ?_⟩, h.held, ?_⟩
    · simp only [submitBatch_withMqds]
    · rw [submitBatch_mqd]
      exact hmqd p
    · simp [Event.isPreemption, h.log]
  · exact ⟨o, rfl, h⟩

theorem tracks_submitBatch {s t : HardwarePullerEmu} (h : Tracks s t) (b : Batch) :
    Tracks (s.submitBatch b) (t.submitBatch b) := by
  obtain ⟨o, rfl, hm⟩ := h
  obtain ⟨f, hmgr, -⟩ := hm.mgr
  obtain ⟨o', ho', hm'⟩ := tracks_acceptBatch hm hmgr s.currentChannelId b
  have htmgr : (s.calmed o).channelMgr = some o.mgr := rfl
  have hcur : (s.calmed o).currentChannelId = s.currentChannelId := rfl
  unfold HardwarePullerEmu.submitBatch
  rw [htmgr, hmgr]
  simp only [hcur, ho']
  exact hm'.tracks (u := { s.acceptBatch _ _ _ with queues := _ }) rfl rfl rfl rfl

theorem tracks_channelSubmit {s t : HardwarePullerEmu} (h : Tracks s t) (c : ℕ) (b : Batch) :
    Tracks (s.channelSubmit c b) (t.channelSubmit c b) := by
  obtain ⟨o, rfl, hm⟩ := h
  obtain ⟨f, hmgr, -⟩ := hm.mgr
  have htmgr : (s.calmed o).channelMgr = some o.mgr := rfl
  unfold channelSubmit
  rw [htmgr, hmgr]
  exact tracks_acceptBatch hm hmgr c b

theorem tracks_configure {s t : HardwarePullerEmu} (h : Tracks s t) (op : ConfigOp)
    (hop : ∀ p q, op = .mqdWrite p q → q.state ≠ mqdStatePreempted) :
    Tracks (s.configure op) (t.configure op) := by
  obtain ⟨o, rfl, hm⟩ := h
  obtain ⟨f, hmgr, hmqd⟩ := hm.mgr
  obtain ⟨f', hconf, hmqd'⟩ : ∃ f', (o.mgr.withMqds f).configure op =
      (o.mgr.configure op).withMqds f' ∧ ∀ p, MqdMirror (f' p) ((o.mgr.configure op).mqd p) := by
    cases op with
    | mqdWrite p q =>
      refine ⟨Function.update f p q, rfl, fun p' => ?_⟩
      have hq : MqdMirror q q := ⟨hop p q rfl, Iff.rfl⟩
      by_cases hp : p' = p
      · subst hp
        simpa [ChannelManager.configure, updateMqd] using hq
      · simpa [ChannelManager.configure, updateMqd, hp] using hmqd p'
    | _ => exact ⟨f, configure_withMqds rfl, fun p => by
        rw [configure_mqd rfl]
        exact hmqd p⟩
  refine ⟨⟨o.mgr.configure op, o.sema, o.log⟩, rfl, ⟨f', ?_, hmqd'⟩, hm.held, hm.log⟩
  simp only [HardwarePullerEmu.configure, hmgr, Option.map_some, hconf]

theorem tracks_enterCallback {s t : HardwarePullerEmu} (h : Tracks s t) (q : UInt32) :
    Tracks (s.enterCallback q) (t.enterCallback q) := by
  obtain ⟨o, rfl, hm⟩ := h
  exact ⟨_, rfl, hm.extend (u := s.enterCallback q) (E := [.rang q]) rfl rfl rfl rfl
    (by simp [Event.isPreemption])⟩

theorem tracks_updateRing {s t : HardwarePullerEmu} (h : Tracks s t) (q : UInt32)
    (f : WrapRing GpuGpfifoEntry → WrapRing GpuGpfifoEntry) (ev : Event)
    (hev : ev.isPreemption = false) :
    Tracks { s.updateRing q f with log := ev :: s.log }
      { t.updateRing q f with log := ev :: t.log } := by
  obtain ⟨o, rfl, hm⟩ := h
  exact ⟨_, rfl, hm.extend (u := { s.updateRing q f with log := ev :: s.log }) (E := [ev])
    rfl rfl rfl rfl (by simp [hev])⟩

theorem tracks_producer {s t : HardwarePullerEmu} (h : Tracks s t) (q : UInt32)
    (e : GpuGpfifoEntry) : Tracks (s.writeEntry q e) (t.writeEntry q e) ∧
      Tracks (s.advanceWriteIdx q) (t.advanceWriteIdx q) ∧
      Tracks (s.ringDoorbell q) (t.ringDoorbell q) ∧
      Tracks (s.writeDoorbell q) (t.writeDoorbell q) ∧ Tracks s.onDoorbell t.onDoorbell := by
  have hqueues : t.queues = s.queues := by
    obtain ⟨o, rfl, -⟩ := h
    rfl
  have hslot : t.nextSlot q = s.nextSlot q := by
    simp only [nextSlot, hqueues]
  have hset : ∀ queues, Tracks { s with queues := queues } { t with queues := queues } := by
    intro queues
    obtain ⟨o, rfl, hm⟩ := h
    exact hm.tracks (u := { s with queues := queues }) rfl rfl rfl rfl
  unfold writeEntry advanceWriteIdx ringDoorbell writeDoorbell onDoorbell
  rw [hqueues, hslot]
  refine ⟨?_, ?_, ?_, ?_, ?_⟩
  · split_ifs
    · exact tracks_updateRing h q (·.store e) (.wrote q) rfl
    · exact h
  · split_ifs
    · exact tracks_updateRing h q (·.advance) (.published q (s.nextSlot q)) rfl
    · exact h
  · split_ifs
    · exact tracks_enterCallback h q
    · exact h
  · match s.queues.doorbell.write q with
    | (true, d) => exact tracks_enterCallback (hset _) q
    | (false, d) => exact h
  · match s.queues.callbacks with
    | 0 => exact h
    | n + 1 => exact hset _

theorem tracks_signalBarrier {s t : HardwarePullerEmu} (h : Tracks s t) {i : UInt64}
    (hfree : ∀ bs, s.semaBackup.barriers i = some bs → bs.triggered = true) :
    Tracks { s with sema := (s.sema.signalBarrier i).2 }
      { t with sema := (t.sema.signalBarrier i).2 } := by
  obtain ⟨o, rfl, hm⟩ := h
  exact ⟨_, rfl, hm.sema (hm.held.signal hfree)⟩

theorem tracks_device {s t : HardwarePullerEmu} (h : Tracks s t) (f : Device → Device) :
    Tracks { s with device := f s.device } { t with device := f t.device } := by
  obtain ⟨o, rfl, hm⟩ := h
  exact hm.tracks (u := { s with device := f s.device }) rfl rfl rfl rfl

/-- **Step lemma.**  Under the conditions every action and its answer keep the relation. -/
theorem tracks_step (s t : HardwarePullerEmu) (a : Action) (h : Tracks s t)
    (hG : switchGuard s a ∧ freeBackup s a) :
    Tracks (step s a) (run step t (requestFreeAnswer s a)) := by
  cases a with
  | puller stale => exact tracks_pullerStep h stale hG.1 hG.2
  | submitBatch b => exact tracks_submitBatch h b
  | channelSubmit c b => exact tracks_channelSubmit h c b
  | configure op =>
    refine tracks_configure h op ?_
    rintro p q rfl
    exact hG.1
  | triggerPreempt target =>
    obtain ⟨o, rfl, hm⟩ := h
    exact hm.tracks (u := { s with preempt := ⟨true, target⟩ }) rfl rfl rfl rfl
  | signalBarrier i => exact tracks_signalBarrier h hG.1
  | writeEntry q e => exact (tracks_producer h q e).1
  | advanceWriteIdx q => exact (tracks_producer h q .zero).2.1
  | ringDoorbell q => exact (tracks_producer h q .zero).2.2.1
  | writeDoorbell q => exact (tracks_producer h q .zero).2.2.2.1
  | onDoorbell => exact (tracks_producer h 0 .zero).2.2.2.2
  | memWrite devAddr size buf =>
    exact tracks_device h fun d => { d with hal := (d.hal.memWrite devAddr size buf).getD d.hal }
  | hostWrite host => exact tracks_device h fun d => { d with host := host }

/-! ### Whole runs -/

/-- There is a channel manager, and no MQD is PREEMPTED to begin with. -/
def Config.freshMqds (cfg : Config) : Prop :=
  ∃ mqd, cfg.mqds = some mqd ∧ ∀ p, (mqd p).state ≠ mqdStatePreempted

theorem tracks_init {cfg : Config} (h : cfg.freshMqds) : Tracks (init cfg) (init cfg) := by
  obtain ⟨mqd, hcfg, hstate⟩ := h
  refine ⟨⟨.create mqd, .empty, []⟩, ?_, ⟨mqd, ?_, fun p => ⟨hstate p, Iff.rfl⟩⟩, Held.init, rfl⟩
  · simp only [calmed, init, hcfg, Option.map_some]
  · simp only [init, hcfg, Option.map_some]
    rfl

/-- **Run lemma.**  Along a run whose steps meet the conditions, the run without requests stays
related. -/
theorem tracks_run {cfg : Config} (h : cfg.freshMqds) {as : List Action}
    (hG : Guarded step (fun s a => switchGuard s a ∧ freeBackup s a) (init cfg) as) :
    Tracks (after cfg as) (after cfg (requestFree (init cfg) as)) :=
  companions_simulate tracks_step (tracks_init h) hG

end HardwarePullerEmu

end UsrLinuxEmu.GpuDriver
