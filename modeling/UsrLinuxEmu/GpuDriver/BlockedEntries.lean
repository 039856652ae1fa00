import UsrLinuxEmu.GpuDriver.EntryFlow

/-!
# What happens to blocked entries

DECODE parks a SEM_WAIT whose value is not reached, and every barrier, and goes on with the next
entry.  The parked entries would be looked at again by `recheckPendingSema`, but the loop never
calls it, so a blocked entry is never dispatched; and the cursor that decides the fence passes over
it.

* `WaitsServed` / `StepRespects` — what a blocked SEM_WAIT and the fence behind a blocked entry are
  owed;
* `blockedGuard` — no blocked SEM_WAIT becomes ready, and a fenced batch blocks at its end only;
* `blocked_respected` — the result along guarded runs;
* `blocked_never_dispatched` — in every run.
-/

namespace UsrLinuxEmu.GpuDriver

open UsrLinuxEmu.Transition ChannelSemaphoreState HardwarePullerEmu

/-! ### The property -/

/-- Entry `n` is a SEM_WAIT that DECODE blocked. -/
def BlockedWait (log : List Event) (n : ℕ) (e : GpuGpfifoEntry) : Prop :=
  e.method = gpuOpSemWait ∧ ∃ src, .blocked n src e ∈ log

/-- A blocked SEM_WAIT until it is dispatched, a blocked barrier entry until its barrier is
released. -/
def StillBlocked (s : HardwarePullerEmu) (n : ℕ) (e : GpuGpfifoEntry) : Prop :=
  if e.method = gpuOpSemWait then (tally n s.log).dispatches = 0
  else s.sema.isBarrierReleased e.semaphoreVa = false

/-- The puller sleeps, no channel is in flight, and the registers are exhausted. -/
def NothingSubmitted (s : HardwarePullerEmu) : Prop :=
  s.pc = .idle ∧ s.regs.total ≤ s.regs.index ∧ ∀ c < maxChannels, s.busy c = false

instance (s : HardwarePullerEmu) : Decidable (NothingSubmitted s) :=
  inferInstanceAs (Decidable (_ ∧ _ ∧ _))

/-- A blocked SEM_WAIT is dispatched at most once; when the puller sleeps with nothing submitted,
each one whose value is reached has been dispatched, and none such is still parked. -/
structure WaitsServed (s : HardwarePullerEmu) : Prop where
  atMostOnce : ∀ n e, BlockedWait s.log n e → (tally n s.log).dispatches ≤ 1
  served : NothingSubmitted s → ∀ n e, BlockedWait s.log n e →
    reached s.device.hal.readU32 e = true → (tally n s.log).dispatches = 1
  notPending : NothingSubmitted s → ∀ e ∈ s.sema.pendingEntries,
    reached s.device.hal.readU32 e = false

/-- A blocked SEM_WAIT is dispatched only with its value reached, and a fence is signaled only when
no entry of its batch is still blocked. -/
structure StepRespects (s : HardwarePullerEmu) (a : Action) : Prop where
  reachedFirst : a.isPuller = true → s.pc = .dispatch → ∀ e, BlockedWait s.log s.serial e →
    reached s.device.hal.readU32 e = true
  fenceLast : ∀ E, (step s a).log = E ++ s.log → ∀ id f, .signaled id f ∈ E →
    ∀ n i addr e, .blocked n (.batch id i addr) e ∈ s.log → ¬ StillBlocked s n e

/-- Every state and every step of the run respects its blocked entries. -/
def BlockedRespected (cfg : Config) (as : List Action) : Prop :=
  Always step WaitsServed (init cfg) as ∧ Guarded step StepRespects (init cfg) as

/-! ### The condition -/

def Event.blockedWait? : Event → Option GpuGpfifoEntry
  | .blocked _ _ e => if e.method = gpuOpSemWait then some e else none
  | _ => none

/-- The event blocks an entry of submission `id`. -/
def Event.blocksOf (id : ℕ) : Event → Bool
  | .blocked _ (.batch j _ _) _ => j == id
  | _ => false

/-- The memory that the action leaves behind. -/
def leftMemory (s : HardwarePullerEmu) : Action → HalUserContext
  | .puller _ =>
    match s.pc with
    | .dispatch => (s.device.tick.execute s.currentEntry).2.2.hal
    | .semaphore => if s.currentEntry.release then s.writeEntrySemaphore.device.hal else s.device.hal
    | .complete => s.releasedHal
    | _ => s.device.hal
  | .memWrite devAddr size buf => (s.device.hal.memWrite devAddr size buf).getD s.device.hal
  | _ => s.device.hal

/-- With this memory, no blocked SEM_WAIT has its value reached. -/
def WaitsUnreached (log : List Event) (hal : HalUserContext) : Prop :=
  ∀ ev ∈ log, ∀ e ∈ ev.blockedWait?, reached hal.readU32 e = false

instance (log : List Event) (hal : HalUserContext) : Decidable (WaitsUnreached log hal) :=
  inferInstanceAs (Decidable (∀ ev ∈ log, ∀ e ∈ ev.blockedWait?, reached hal.readU32 e = false))

/-- No action brings the semaphore of a blocked SEM_WAIT to its value.  Of a batch with a fence
only the last entry blocks, a batch with a blocked entry is not loaded again, and ring entries
complete with no fence pending. -/
def blockedGuard (s : HardwarePullerEmu) : Action → Prop
  | .puller x =>
    WaitsUnreached s.log (leftMemory s (.puller x)) ∧
      (s.pc = .decode → s.blocks = true → s.source.isBatch = true →
        s.regs.fence = 0 ∨ s.regs.total ≤ s.regs.index + 1) ∧
      (∀ c ∈ s.switchSelection, ∀ ev ∈ s.log, ev.blocksOf (s.slotId c) = false) ∧
      (s.pc = .complete → s.source.isBatch = true ∨ s.regs.fence = 0)
  | .memWrite devAddr size buf => WaitsUnreached s.log (leftMemory s (.memWrite devAddr size buf))
  | _ => True

instance decidableBlockedGuard (s : HardwarePullerEmu) : ∀ a, Decidable (blockedGuard s a)
  | .puller _ => inferInstanceAs (Decidable (_ ∧ _ ∧ _ ∧ _))
  | .memWrite _ _ _ => inferInstanceAs (Decidable (WaitsUnreached _ _))
  | .submitBatch _ | .channelSubmit _ _ | .configure _ | .triggerPreempt _ | .signalBarrier _
  | .writeEntry _ _ | .advanceWriteIdx _ | .ringDoorbell _ | .writeDoorbell _ | .onDoorbell
  | .hostWrite _ => .isTrue trivial

/-! ### Every run -/

/-- **No way back.**  In every run, an entry that was blocked is never dispatched. -/
theorem blocked_never_dispatched (cfg : Config) (as : List Action) {n : ℕ} {src : Source}
    {e : GpuGpfifoEntry} (h : .blocked n src e ∈ (after cfg as).log) :
    (tally n (after cfg as).log).dispatches = 0 := by
  rw [(flow_run cfg as).blocked n src e h]
  rfl

/-! ### What the steps do to memory, blocked entries and parked entries -/

theorem Device.simFenceIdSignal_hal (d : Device) (fence : UInt64) :
    (d.simFenceIdSignal fence).hal = d.hal := by
  unfold Device.simFenceIdSignal
  split <;> rfl

/-- COMPLETE changes the memory by its semaphore write only. -/
theorem finishDevice_readU32 (s : HardwarePullerEmu) :
    s.finishDevice.hal.readU32 = s.releasedHal.readU32 := by
  simp only [finishDevice]
  split
  · rw [Device.simFenceIdSignal_hal]
    split <;> rfl
  · split <;> rfl

theorem leftMemory_puller {s s' : HardwarePullerEmu} (h : PullerStep s s') (x : GpuGpfifoEntry) :
    s'.device.hal.readU32 = (leftMemory s (.puller x)).readU32 := by
  cases h with
  | move hmove => cases hmove <;> simp [leftMemory, goto, *]
  | noChannel hpc | select hpc | resume hpc | dequeue hpc | exchange hpc | fetch hpc
  | blockNext hpc | blockLast hpc | wait hpc | waited hpc => simp [leftMemory, load, take, *]
  | dispatch hpc hexec =>
    simp only [leftMemory, hpc, hexec]
  | release hpc hrel =>
    simp only [leftMemory, hpc, hrel, if_true]
  | completeNext hpc | completeLast hpc | checkpointDirect hpc | checkpointNone hpc
  | checkpointLoad hpc =>
    simp only [leftMemory, hpc, finishDevice_readU32]

theorem leftMemory_env (s : HardwarePullerEmu) {a : Action} (ha : a.isPuller = false) :
    (step s a).device.hal = leftMemory s a := by
  cases a with
  | puller x => cases ha
  | submitBatch b =>
    simp only [step, submitBatch, acceptBatch]
    split
    · split <;> rfl
    · rfl
  | channelSubmit c b =>
    simp only [step, channelSubmit, acceptBatch]
    split
    · split <;> rfl
    · rfl
  | configure | triggerPreempt | signalBarrier | memWrite | hostWrite => rfl
  | writeEntry | advanceWriteIdx | ringDoorbell =>
    simp only [step, writeEntry, advanceWriteIdx, ringDoorbell]
    split <;> rfl
  | writeDoorbell =>
    simp only [step, writeDoorbell]
    split <;> rfl
  | onDoorbell =>
    simp only [step, onDoorbell]
    split <;> rfl

/-- A SEM_WAIT that DECODE blocks has not reached its value. -/
theorem unreached_of_blocks {s : HardwarePullerEmu} (h : s.blocks = true)
    (hwait : s.currentEntry.method = gpuOpSemWait) :
    reached s.device.hal.readU32 s.currentEntry = false := by
  simp only [blocks, Bool.and_eq_true, Bool.not_eq_true'] at h
  have hop := h.2
  simp only [processSemOp, hwait, if_true, processSemWait] at hop
  cases hr : reached s.device.hal.readU32 s.currentEntry with
  | false => rfl
  | true => simp [hr] at hop

/-- The only step that blocks an entry is DECODE, and it blocks the current one. -/
theorem HardwarePullerEmu.PullerStep.blocked {s s' : HardwarePullerEmu} (h : PullerStep s s')
    {n : ℕ} {src : Source} {e : GpuGpfifoEntry} (hmem : .blocked n src e ∈ s'.log) :
    .blocked n src e ∈ s.log ∨ s.pc = .decode ∧ s.blocks = true ∧ src = s.source ∧
      e = s.currentEntry := by
  have hyield : .blocked n src e ∉ s.yieldEvents := fun hev => by
    cases mem_yieldEvents hev
  have hfinish : .blocked n src e ∉ s.finishEvents := fun hev => by
    obtain ⟨x, y, h⟩ | ⟨h, -⟩ | h | h := mem_finishEvents hev <;> cases h
  have hdispatch : ∀ l f, .blocked n src e ∉ s.dispatchEvents l f := fun l f hev => by
    obtain ⟨h, -⟩ | ⟨x, h⟩ | ⟨x, y, z, h⟩ | h := mem_dispatchEvents hev <;> cases h
  cases h with
  | blockNext hpc hop hsema | blockLast hpc hop hsema =>
    have hb := blocks_of_processSemOp hop hsema
    simp only [List.mem_append, List.mem_cons, hyield, false_or, Event.blocked.injEq] at hmem
    obtain ⟨-, rfl, rfl⟩ | hold := hmem
    · exact .inr ⟨hpc, hb, rfl, rfl⟩
    · exact .inl hold
  | _ =>
    refine .inl ?_
    simpa [goto, load, take, writeEntrySemaphore, hyield, hfinish, hdispatch] using hmem

/-- The only step that signals a fence is COMPLETE, for the loaded submission. -/
theorem HardwarePullerEmu.PullerStep.signaled {s s' : HardwarePullerEmu} (h : PullerStep s s')
    {E : List Event} (hlog : s'.log = E ++ s.log) {id : ℕ} {f : UInt64}
    (hmem : .signaled id f ∈ E) :
    s.pc = .complete ∧ s.fenceDue = true ∧ id = s.loaded.id := by
  have hyield : .signaled id f ∉ s.yieldEvents := fun hev => by
    cases mem_yieldEvents hev
  have hdispatch : ∀ l b, .signaled id f ∉ s.dispatchEvents l b := fun l b hev => by
    obtain ⟨h, -⟩ | ⟨x, h⟩ | ⟨x, y, z, h⟩ | h := mem_dispatchEvents hev <;> cases h
  have hfinish : .signaled id f ∈ s.finishEvents → s.fenceDue = true ∧ id = s.loaded.id := by
    intro hev
    obtain ⟨x, y, h⟩ | ⟨h, hdue⟩ | h | h := mem_finishEvents hev <;> cases h
    exact ⟨hdue, rfl⟩
  have hnew : ∀ F, s'.log = F ++ s.log → .signaled id f ∈ F := by
    intro F hF
    rwa [List.append_cancel_right (hF.symm.trans hlog)]
  cases h with
  | move | noChannel | exchange | wait | waited => cases hnew [] rfl
  | select | dequeue | fetch | release => simpa using hnew [_] rfl
  | resume => simpa using hnew [_, _] rfl
  | blockNext => simpa using hnew [_] rfl
  | blockLast =>
    have hin := hnew (s.yieldEvents ++ [.blocked s.serial s.source s.currentEntry]) (by simp)
    simp [hyield] at hin
  | dispatch => exact absurd (hnew _ rfl) (hdispatch _ _)
  | completeNext hpc | checkpointDirect hpc => exact ⟨hpc, hfinish (hnew _ rfl)⟩
  | completeLast hpc =>
    have hin := hnew (s.yieldEvents ++ s.finishEvents) (List.append_assoc _ _ _).symm
    exact ⟨hpc, hfinish ((List.mem_append.mp hin).resolve_left hyield)⟩
  | checkpointNone hpc =>
    have hin := hnew (_ :: _ :: s.finishEvents) rfl
    simp only [List.mem_cons, reduceCtorEq, false_or] at hin
    exact ⟨hpc, hfinish hin⟩
  | checkpointLoad hpc =>
    have hin := hnew (_ :: _ :: _ :: s.finishEvents) rfl
    simp only [List.mem_cons, reduceCtorEq, false_or] at hin
    exact ⟨hpc, hfinish hin⟩

theorem HardwarePullerEmu.EnvStep.not_signaled {s s' : HardwarePullerEmu} {a : Action}
    (h : EnvStep s a s') {E : List Event} (hlog : s'.log = E ++ s.log) {id : ℕ} {f : UInt64} :
    .signaled id f ∉ E := by
  intro hmem
  have hnew : ∀ F, s'.log = F ++ s.log → .signaled id f ∈ F := by
    intro F hF
    rwa [List.append_cancel_right (hF.symm.trans hlog)]
  cases h with
  | accept => simpa using hnew [_] rfl
  | direct => simpa using hnew [_, _] rfl
  | configure => cases hnew [] rfl
  | quiet queues hal host preempt hsema hevs =>
    have hprod := hevs _ (hnew _ rfl)
    cases hprod

/-- Another party blocks nothing. -/
theorem HardwarePullerEmu.EnvStep.blocked {s s' : HardwarePullerEmu} {a : Action}
    (h : EnvStep s a s') {n : ℕ} {src : Source} {e : GpuGpfifoEntry}
    (hmem : .blocked n src e ∈ s'.log) :
    .blocked n src e ∈ s.log := by
  cases h with
  | accept | direct => simpa using hmem
  | configure => exact hmem
  | quiet queues hal host preempt hsema hevs =>
    obtain hnew | hold := List.mem_append.mp hmem
    · cases hevs _ hnew
    · exact hold

/-- What DECODE parks is the current entry, when it is a SEM_WAIT. -/
theorem processSemOp_pending {s : HardwarePullerEmu} {sema : ChannelSemaphoreState}
    (hop : s.currentEntry.isSemOp = true)
    (hsema : s.processSemOp = (false, { s with sema := sema })) :
    ∀ e ∈ sema.pendingEntries,
      e ∈ s.sema.pendingEntries ∨ e = s.currentEntry ∧ e.method = gpuOpSemWait := by
  intro e he
  apply semOp_pending s.sema s.device.hal s.currentEntry
  rwa [semOp_of_processSemOp hop hsema]

/-! ### The invariant -/

/-- An entry of submission `id` has been blocked. -/
def Touched (log : List Event) (id : ℕ) : Prop := ∃ ev ∈ log, ev.blocksOf id = true

/-- The numbers of the loaded submission, of the current entry and of the blocked entries have been
given out. -/
structure KnownSubmissions (s : HardwarePullerEmu) : Prop where
  loaded : s.loaded.id < s.nextId
  source : ∀ id i addr, s.source = .batch id i addr → id < s.nextId
  touched : ∀ id, Touched s.log id → id < s.nextId

structure BlockedInv (r : Bool) (s : HardwarePullerEmu) : Prop where
  flow : FlowInv r s
  book : Bookkeeping s
  known : KnownSubmissions s
  unreached : WaitsUnreached s.log s.device.hal
  parked : ∀ e ∈ s.sema.pendingEntries ++ s.semaBackup.pendingEntries,
    ∃ n src, .blocked n src e ∈ s.log ∧ e.method = gpuOpSemWait
  fence : s.regs.fence ≠ 0 → Touched s.log s.loaded.id →
    s.regs.total ≤ s.regs.index ∧ (s.pc.inFlight = true → s.source.isBatch = false)

theorem touched_iff {log : List Event} {id : ℕ} :
    Touched log id ↔ ∃ n i addr e, .blocked n (.batch id i addr) e ∈ log := by
  constructor
  · rintro ⟨ev, hev, hb⟩
    cases ev with
    | blocked n src e =>
      cases src with
      | batch j i addr =>
        obtain rfl : j = id := by simpa [Event.blocksOf] using hb
        exact ⟨n, i, addr, e, hev⟩
      | ring q => cases hb
    | _ => cases hb
  · rintro ⟨n, i, addr, e, h⟩
    exact ⟨_, h, by simp [Event.blocksOf]⟩

/-! ### The step lemmas -/

/-- A step of the puller that leaves no old wait reached leaves none at all. -/
theorem waitsUnreached_pullerStep {s s' : HardwarePullerEmu} {stale : GpuGpfifoEntry}
    (h : PullerStep s s') (hG : WaitsUnreached s.log (leftMemory s (.puller stale))) :
    WaitsUnreached s'.log s'.device.hal := by
  intro ev hev e he
  cases ev with
  | blocked n src e' =>
    simp only [Event.blockedWait?] at he
    split at he
    · rename_i hwait
      obtain rfl := Option.some.inj he
      rw [leftMemory_puller h stale]
      obtain hold | ⟨hpc, hb, -, rfl⟩ := h.blocked hev
      · exact hG _ hold _ (by simp [Event.blockedWait?, hwait])
      · simp only [leftMemory, hpc]
        exact unreached_of_blocks hb hwait
    · cases he
  | _ => cases he

/-- Parked entries were parked before or are blocked now. -/
theorem parked_pullerStep {s s' : HardwarePullerEmu} (h : PullerStep s s') :
    ∀ e ∈ s'.sema.pendingEntries ++ s'.semaBackup.pendingEntries,
      e ∈ s.sema.pendingEntries ++ s.semaBackup.pendingEntries ∨
        ∃ n src, .blocked n src e ∈ s'.log ∧ e.method = gpuOpSemWait := by
  intro e he
  cases h with
  | blockNext hpc hop hsema | blockLast hpc hop hsema =>
    obtain hin | hin := List.mem_append.mp he
    · obtain hold | ⟨rfl, hwait⟩ := processSemOp_pending hop hsema e hin
      · exact .inl (List.mem_append_left _ hold)
      · exact .inr ⟨s.serial, s.source, by simp, hwait⟩
    · exact .inl (List.mem_append_right _ hin)
  | resume | checkpointNone | checkpointLoad =>
    refine .inl ?_
    simp only [ChannelSemaphoreState.restore, rebindPendingFences, ChannelSemaphoreState.empty,
      List.mem_append, List.not_mem_nil, false_or] at he ⊢
    first | exact he.symm | exact .inl he
  | checkpointDirect => exact .inl (List.mem_append_right _ (by simpa [empty] using he))
  | _ => exact .inl he

/-- A submission is touched by the step only if the current entry is one of its own. -/
theorem touched_pullerStep {s s' : HardwarePullerEmu} (h : PullerStep s s') {id : ℕ}
    (ht : Touched s'.log id) : Touched s.log id ∨ s.pc = .decode ∧ s.blocks = true ∧
      ∃ i addr, s.source = .batch id i addr := by
  obtain ⟨n, i, addr, e, hmem⟩ := touched_iff.mp ht
  obtain hold | ⟨hpc, hb, hsrc, -⟩ := h.blocked hmem
  · exact .inl (touched_iff.mpr ⟨n, i, addr, e, hold⟩)
  · exact .inr ⟨hpc, hb, i, addr, hsrc.symm⟩

/-- A load takes the submission of the selected channel's slot. -/
theorem loaded_pullerStep {s s' : HardwarePullerEmu} (h : PullerStep s s') (hbook : Bookkeeping s) :
    s'.loaded.id = s.loaded.id ∨ s'.loaded.id < s.nextId := by
  have hslot : ∀ m', s'.channelMgr = some m' → ∀ c, (m'.channels c).batchInFlight = true →
      s.slotId c < s.nextId := by
    intro m' hm' c hc
    obtain ⟨m, hm, hfrom⟩ := h.slotsFrom m' hm'
    exact hbook.numbered.fresh _ _ _ (hbook.slots m hm c (hfrom c hc).1)
  cases h with
  | select _ _ hnext | resume _ _ hnext | checkpointLoad _ _ _ _ hnext =>
    have hc := ChannelManager.nextReadyChannel_inFlight hnext
    exact .inr (hslot _ rfl _ hc)
  | _ => exact .inl rfl

theorem source_pullerStep {s s' : HardwarePullerEmu} (h : PullerStep s s') {id i : ℕ}
    {addr : UInt64} (hsrc : s'.source = .batch id i addr) :
    s.source = .batch id i addr ∨ id = s.loaded.id := by
  cases h with
  | dequeue => cases hsrc
  | fetch =>
    cases hsrc
    exact .inr rfl
  | _ => exact .inl hsrc

theorem knownSubmissions_step (s : HardwarePullerEmu) (a : Action) (hbook : Bookkeeping s)
    (hinv : KnownSubmissions s) : KnownSubmissions (step s a) := by
  obtain ⟨-, h⟩ | ⟨-, h⟩ := step_cases s a
  · obtain ⟨-, -, hnext⟩ := h.log_subset
    refine ⟨?_, fun id i addr hsrc => ?_, fun id ht => ?_⟩ <;> rw [hnext]
    · obtain hsame | hlt := loaded_pullerStep h hbook
      · rw [hsame]
        exact hinv.loaded
      · exact hlt
    · obtain hsame | rfl := source_pullerStep h hsrc
      · exact hinv.source id i addr hsame
      · exact hinv.loaded
    · obtain hold | ⟨-, -, i, addr, hsrc⟩ := touched_pullerStep h ht
      · exact hinv.touched id hold
      · exact hinv.source id i addr hsrc
  · -- another party blocks nothing, and loads only a submission of its own
    have hblocked : ∀ id, Touched (step s a).log id → id < s.nextId := by
      intro id ht
      obtain ⟨n, i, addr, e, hmem⟩ := touched_iff.mp ht
      exact hinv.touched id (touched_iff.mpr ⟨n, i, addr, e, h.blocked hmem⟩)
    generalize step s a = s' at h hblocked
    cases h with
    | accept =>
      exact ⟨Nat.lt_succ_of_lt hinv.loaded,
        fun id i addr hsrc => Nat.lt_succ_of_lt (hinv.source id i addr hsrc),
        fun id ht => Nat.lt_succ_of_lt (hblocked id ht)⟩
    | direct =>
      exact ⟨Nat.lt_succ_self _,
        fun id i addr hsrc => Nat.lt_succ_of_lt (hinv.source id i addr hsrc),
        fun id ht => Nat.lt_succ_of_lt (hblocked id ht)⟩
    | configure | quiet => exact ⟨hinv.loaded, hinv.source, hblocked⟩

theorem knownSubmissions_init (cfg : Config) : KnownSubmissions (init cfg) where
  loaded := Nat.zero_lt_one
  source := nofun
  touched := fun _ ht => absurd ht.choose_spec.1 List.not_mem_nil

/-- **The fence.**  A batch with a fence that has a blocked entry is at its end, and stays there
until another one is loaded. -/
theorem fence_pullerStep {r : Bool} {s s' : HardwarePullerEmu} {stale : GpuGpfifoEntry}
    (h : PullerStep s s') (hinv : BlockedInv r s) (hG : blockedGuard s (.puller stale))
    (hf : s'.regs.fence ≠ 0) (ht : Touched s'.log s'.loaded.id) :
    s'.regs.total ≤ s'.regs.index ∧ (s'.pc.inFlight = true → s'.source.isBatch = false) := by
  obtain ⟨-, hblock, hload, -⟩ := hG
  have hold : s.pc ≠ .decode → Touched s.log s'.loaded.id := fun hpc =>
    (touched_pullerStep h ht).resolve_right fun hdec => hpc hdec.1
  have hclean : ∀ c, s.switchSelection = some c → ¬ Touched s.log (s.slotId c) := by
    rintro c hc ⟨ev, hev, hb⟩
    rw [hload c hc ev hev] at hb
    cases hb
  cases h with
  | move hmove =>
    rw [goto, hmove.inFlight]
    exact hinv.fence hf ht
  | noChannel | exchange => exact ⟨(hinv.fence hf ht).1, fun hpc => by cases hpc⟩
  | select hpc hm hnext | resume hpc hm hnext =>
    exact absurd (hold (by rw [hpc]; exact Pc.noConfusion))
      (hclean _ (switchSelection_select hpc hm hnext))
  | dequeue hpc =>
    exact ⟨(hinv.fence hf (hold (by rw [hpc]; exact Pc.noConfusion))).1, fun _ => rfl⟩
  | fetch hpc hidx =>
    have hover := (hinv.fence hf (hold (by rw [hpc]; exact Pc.noConfusion))).1
    exact absurd hidx (Nat.not_lt.mpr hover)
  | blockNext hpc hop hsema hidx =>
    have hb := blocks_of_processSemOp hop hsema
    obtain hmem | ⟨-, -, i, addr, hsrc⟩ := touched_pullerStep (.blockNext hpc hop hsema hidx) ht
    · have hover := (hinv.fence hf hmem).1
      omega
    · obtain hzero | hlast := hblock hpc hb (by rw [hsrc]; rfl)
      · exact absurd hzero hf
      · omega
  | blockLast hpc hop hsema hidx => exact ⟨hidx, fun hpc => by cases hpc⟩
  | dispatch hpc hexec =>
    rename_i launches failed d
    cases failed with
    | true => exact absurd rfl hf
    | false =>
      obtain ⟨hover, hsrc⟩ := hinv.fence hf (hold (by rw [hpc]; exact Pc.noConfusion))
      exact ⟨hover, fun _ => hsrc (by rw [hpc]; rfl)⟩
  | release hpc | wait hpc | waited hpc =>
    obtain ⟨hover, hsrc⟩ := hinv.fence hf (hold (by rw [hpc]; exact Pc.noConfusion))
    exact ⟨hover, fun _ => hsrc (by rw [hpc]; rfl)⟩
  | completeNext hpc hidx =>
    have hfence : s.regs.fence ≠ 0 := by
      intro hzero
      simp [finishRegs, hzero] at hf
    have hover := (hinv.fence hfence (hold (by rw [hpc]; exact Pc.noConfusion))).1
    omega
  | completeLast hpc hidx | checkpointDirect hpc hidx | checkpointNone hpc hidx =>
    exact ⟨hidx, fun hpc => by cases hpc⟩
  | checkpointLoad hpc hidx hpre hm hnext =>
    have hat := (atCheckpoint_eq hpc hidx).trans hpre
    exact absurd (hold (by rw [hpc]; exact Pc.noConfusion))
      (hclean _ (switchSelection_checkpoint hat hm hnext))

theorem blockedInv_pullerStep {r : Bool} {s s' : HardwarePullerEmu} {stale : GpuGpfifoEntry}
    (h : PullerStep s s') (hinv : BlockedInv r s) (hbook : Bookkeeping s')
    (hknown : KnownSubmissions s') (hG : blockedGuard s (.puller stale)) : BlockedInv r s' := by
  refine ⟨flowInv_pullerStep h hinv.flow, hbook, hknown, waitsUnreached_pullerStep h hG.1, ?_,
    fence_pullerStep h hinv hG⟩
  intro e he
  obtain hold | hnew := parked_pullerStep h e he
  · obtain ⟨n, src, hmem, hwait⟩ := hinv.parked e hold
    exact ⟨n, src, h.log_subset.1 hmem, hwait⟩
  · exact hnew

/-- Another party touches no submission, and a direct submission loads one that is not touched. -/
theorem blockedInv_envStep {r : Bool} {s s' : HardwarePullerEmu} {a : Action} (h : EnvStep s a s')
    (hinv : BlockedInv r s) (hbook : Bookkeeping s') (hknown : KnownSubmissions s')
    (hun : WaitsUnreached s.log s'.device.hal) : BlockedInv r s' := by
  have htouched : ∀ id, Touched s'.log id → Touched s.log id := by
    intro id ht
    obtain ⟨n, i, addr, e, hmem⟩ := touched_iff.mp ht
    exact touched_iff.mpr ⟨n, i, addr, e, h.blocked hmem⟩
  have hun' : WaitsUnreached s'.log s'.device.hal := by
    intro ev hev e he
    cases ev with
    | blocked n src e' => exact hun _ (h.blocked hev) e he
    | _ => cases he
  have hflow := flowInv_envStep h hinv.flow
  have hsub : s.log ⊆ s'.log := by
    intro x hx
    cases h <;> simp [hx]
  have hparked : ∀ e ∈ s.sema.pendingEntries ++ s.semaBackup.pendingEntries,
      ∃ n src, .blocked n src e ∈ s'.log ∧ e.method = gpuOpSemWait := by
    intro e he
    obtain ⟨n, src, hmem, hwait⟩ := hinv.parked e he
    exact ⟨n, src, hsub hmem, hwait⟩
  cases h with
  | accept =>
    exact ⟨hflow, hbook, hknown, hun', hparked, fun hf ht => hinv.fence hf (htouched _ ht)⟩
  | direct =>
    refine ⟨hflow, hbook, hknown, hun', hparked, fun _ ht => ?_⟩
    exact absurd (hinv.known.touched _ (htouched _ ht)) (Nat.lt_irrefl _)
  | configure => exact ⟨hflow, hbook, hknown, hun', hparked, hinv.fence⟩
  | quiet queues hal host preempt hsema =>
    refine ⟨hflow, hbook, hknown, hun', fun e he => hparked e ?_,
      fun hf ht => hinv.fence hf (htouched _ ht)⟩
    obtain rfl | ⟨i, rfl⟩ := hsema
    · exact he
    · simp only [signalBarrier_pending] at he
      exact he

theorem blockedInv_step {r : Bool} (s : HardwarePullerEmu) (a : Action) (hinv : BlockedInv r s)
    (hG : blockedGuard s a) : BlockedInv r (step s a) := by
  have hbook := bookkeeping_step s a hinv.book
  have hknown := knownSubmissions_step s a hinv.book hinv.known
  obtain ⟨ha, h⟩ | ⟨ha, h⟩ := step_cases s a
  · cases a <;> simp only [Action.isPuller, Bool.false_eq_true] at ha
    exact blockedInv_pullerStep h hinv hbook hknown hG
  · refine blockedInv_envStep h hinv hbook hknown ?_
    rw [leftMemory_env s ha]
    cases a with
    | puller x => cases ha
    | memWrite => exact hG
    | _ => exact hinv.unreached

theorem blockedInv_init (cfg : Config) :
    BlockedInv (init cfg).device.launchRegistered (init cfg) where
  flow := flowInv_init cfg
  book := bookkeeping_init cfg
  known := knownSubmissions_init cfg
  unreached := fun _ hev => absurd hev List.not_mem_nil
  parked := fun _ he => absurd he List.not_mem_nil
  fence := fun hf => absurd rfl hf

/-! ### The result -/

theorem BlockedInv.wait_unreached {r : Bool} {s : HardwarePullerEmu} (hinv : BlockedInv r s)
    {n : ℕ} {e : GpuGpfifoEntry} (h : BlockedWait s.log n e) :
    reached s.device.hal.readU32 e = false := by
  obtain ⟨hwait, src, hmem⟩ := h
  exact hinv.unreached _ hmem e (by simp [Event.blockedWait?, hwait])

theorem BlockedInv.waitsServed {r : Bool} {s : HardwarePullerEmu} (hinv : BlockedInv r s) :
    WaitsServed s := by
  have hzero : ∀ n e, BlockedWait s.log n e → (tally n s.log).dispatches = 0 := by
    rintro n e ⟨-, src, hmem⟩
    rw [hinv.flow.blocked n src e hmem]
    rfl
  refine ⟨fun n e h => ?_, fun _ n e h hreached => ?_, fun _ e he => ?_⟩
  · rw [hzero n e h]
    exact Nat.zero_le 1
  · rw [hinv.wait_unreached h] at hreached
    cases hreached
  · obtain ⟨n, src, hmem, hwait⟩ := hinv.parked e (List.mem_append_left _ he)
    exact hinv.wait_unreached (n := n) ⟨hwait, src, hmem⟩

theorem BlockedInv.stepRespects {r : Bool} (s : HardwarePullerEmu) (a : Action)
    (hinv : BlockedInv r s) (hG : blockedGuard s a) : StepRespects s a := by
  constructor
  · rintro - hpc e ⟨-, src, hmem⟩
    exact absurd hmem (hinv.flow.unfinished (by rw [hpc]; rfl) src e).2
  · intro E hlog id f hmem n i addr e hb
    obtain ⟨ha, h⟩ | ⟨-, h⟩ := step_cases s a
    · cases a <;> simp only [Action.isPuller, Bool.false_eq_true] at ha
      obtain ⟨hpc, hdue, rfl⟩ := h.signaled hlog hmem
      have hfence : s.regs.fence ≠ 0 := by
        simp only [fenceDue, Bool.and_eq_true, bne_iff_ne] at hdue
        exact hdue.1.1
      have hring := (hinv.fence hfence (touched_iff.mpr ⟨n, i, addr, e, hb⟩)).2 (by rw [hpc]; rfl)
      obtain hbatch | hzero := hG.2.2.2 hpc
      · rw [hring] at hbatch
        cases hbatch
      · exact absurd hzero hfence
    · exact absurd hmem (h.not_signaled hlog)

/-- **Blocked entries.**  In every run whose steps meet `blockedGuard`, a blocked SEM_WAIT is
dispatched only with its value reached and at most once, none whose value is reached is left over
when the puller sleeps, and no fence is signaled over a blocked entry. -/
theorem blocked_respected (cfg : Config) (as : List Action)
    (hG : Guarded step blockedGuard (init cfg) as) : BlockedRespected cfg as :=
  ⟨(always_of_inductive blockedInv_step (blockedInv_init cfg) hG).mono step fun _ =>
      BlockedInv.waitsServed,
    guarded_of_inductive blockedInv_step BlockedInv.stepRespects (blockedInv_init cfg) hG⟩

/-- A heap that starts with a valid SEM_WAIT for 7 at `0x100001000`. -/
def waitHeap (a : UInt64) : UInt8 :=
  if a = 0 then 0x15 else if a = 1 then 0x04 else if a = 62 then 0x10 else if a = 65 then 0x01
  else if a = 69 then 7 else 0

/-- A batch of one entry, the SEM_WAIT, on channel 0. -/
def waitRun (count : UInt32) : List Action :=
  [.configure (.register 0 .normal .brown), .submitBatch ⟨0x100000000, count, 0x100000001⟩] ++
    pulls 20

/-- The SEM_WAIT blocks and its value is never reached. -/
theorem blocked_respected_waiting :
    BlockedRespected { Config.managed with heap := waitHeap } (waitRun 1) :=
  blocked_respected _ _ (by decide +kernel)

/-- The SEM_WAIT blocks, its value is reached, and it is left over. -/
theorem blocked_respected_fails :
    ¬ BlockedRespected { Config.managed with heap := waitHeap }
      (waitRun 2 ++ [.memWrite 0x100001000 4 (byteOf32 7)] ++ pulls 20) := by
  rintro ⟨hserved, -⟩
  have hlast : WaitsServed _ := hserved.last
  have hmem : BlockedWait (after { Config.managed with heap := waitHeap }
      (waitRun 2 ++ [.memWrite 0x100001000 4 (byteOf32 7)] ++ pulls 20)).log 1
      (.ofBytes fun k => waitHeap (UInt64.ofNat k)) :=
    ⟨by decide +kernel, .batch 1 0 0x100000000, by decide +kernel⟩
  have hone := hlast.served (by decide +kernel) 1 _ hmem (by decide +kernel)
  revert hone
  decide +kernel

end UsrLinuxEmu.GpuDriver
