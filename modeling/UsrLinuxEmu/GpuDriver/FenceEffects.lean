import UsrLinuxEmu.GpuDriver.BlockedEntries
import UsrLinuxEmu.GpuDriver.LaunchExactness
import UsrLinuxEmu.GpuDriver.PushbufferSubmit

/-!
# What a FENCE entry changes about its batch

The submission ioctl looks for a FENCE entry.  Without one the batch goes to the puller; with one
the handler walks through the array itself, and its switch creates the fence and prints everything
else.  The effects of a batch are the copies of its valid MEMCPY entries and the launch callbacks of
its valid LAUNCH_KERNEL entries.

* `Effect` / `effects` — what a submission has done, read off the puller's history;
* `DeviceAction` / `GpgpuDevice.step` — the ioctl among the actions of the puller and of all others;
* `GpgpuDevice.batchEffects` — the effects of one ioctl's batch in the run that follows it;
* `GpuGpfifoEntry.hasEffect` — the entries that have one, told by the entry alone;
* `fence_transparent_iff` — the batch has the effects of its fenced variant, which has none, exactly
  when the puller fetches no entry with an effect for it.
-/

namespace UsrLinuxEmu.GpuDriver

open UsrLinuxEmu.Transition HardwarePullerEmu

/-! ### Effects -/

inductive Effect where
  | copied (src dst size : UInt64)
  | launched (p : LaunchParams)
  deriving DecidableEq, Repr

/-- The numbered entry, when it was taken for submission `id`. -/
def Event.takenFor? (id : ℕ) : Event → Option (ℕ × GpuGpfifoEntry)
  | .taken n (.batch k _ _) e => if k = id then some (n, e) else none
  | _ => none

/-- The entries that the puller has taken for submission `id`, first one first. -/
def entriesFor (id : ℕ) (log : List Event) : List (ℕ × GpuGpfifoEntry) :=
  (log.filterMap (Event.takenFor? id)).reverse

def Event.isCopyFailure (n : ℕ) : Event → Bool
  | .memcpyFailed m _ => m == n
  | _ => false

def Event.launchOf? (n : ℕ) : Event → Option LaunchParams
  | .launched m p => if m = n then some p else none
  | _ => none

/-- What entry `n` has done: a MEMCPY copies when it is dispatched and the HAL accepts it, a
LAUNCH_KERNEL makes callbacks; an invalid entry and any other method do not count. -/
def entryEffects (log : List Event) (n : ℕ) (e : GpuGpfifoEntry) : List Effect :=
  if e.valid = false then []
  else if e.method = gpuOpMemcpy then
    if log.any (Event.isDispatch n) && !log.any (Event.isCopyFailure n) then
      [.copied e.copySrc e.copyDst e.copySize]
    else []
  else if e.method = gpuOpLaunchKernel then
    (log.filterMap (Event.launchOf? n)).reverse.map .launched
  else []

/-- The effects of submission `id`, in order. -/
def effects (id : ℕ) (log : List Event) : List Effect :=
  (entriesFor id log).flatMap fun p => entryEffects log p.1 p.2

/-- No entry of the submission is in flight: the puller has finished each one that it has taken. -/
def Settled (id : ℕ) (log : List Event) : Prop :=
  ∀ p ∈ entriesFor id log, ∃ src, .completed p.1 src p.2 ∈ log ∨ .blocked p.1 src p.2 ∈ log

/-! ### The ioctl among all other actions -/

inductive DeviceAction where
  /-- `GPU_IOCTL_PUSHBUFFER_SUBMIT_BATCH`. -/
  | submit (args : GpuPushbufferArgs)
  /-- Other calls change the tables of the driver and of the HAL. -/
  | tables (d : GpgpuDevice)
  /-- Any party acts on the puller. -/
  | machine (a : Action)

namespace GpgpuDevice

def step (d : GpgpuDevice) : DeviceAction → GpgpuDevice
  | .submit args => (d.handlePushbufferSubmitBatch (some args)).device
  | .tables d' => { d' with puller := d.puller }
  | .machine a => { d with puller := d.puller.step a }

/-- The number that the puller gives the batch of the ioctl, when it takes one. -/
def submissionId (d : GpgpuDevice) (args : GpuPushbufferArgs) : Option ℕ :=
  if (d.step (.submit args)).puller.nextId = d.puller.nextId then none else some d.puller.nextId

/-- The effects of the ioctl's batch when the actions `as` follow it. -/
def batchEffects (d : GpgpuDevice) (args : GpuPushbufferArgs) (as : List DeviceAction) :
    List Effect :=
  match d.submissionId args with
  | none => []
  | some id => effects id (run step d (.submit args :: as)).puller.log

end GpgpuDevice

/-- `fenced` is the batch `args`, which has no FENCE, with FENCE entries put in. -/
structure FenceAdded (args fenced : GpuPushbufferArgs) : Prop where
  plain : GpgpuDevice.hasFence args = false
  fence : GpgpuDevice.hasFence fenced = true
  rest : (GpgpuDevice.callerEntries fenced).filter (fun e => !(e.valid && e.method == gpuOpFence)) =
    GpgpuDevice.callerEntries args
  streamId : fenced.streamId = args.streamId
  vaSpaceHandle : fenced.vaSpaceHandle = args.vaSpaceHandle
  streamIdCompat : fenced.streamIdCompat = args.streamIdCompat

/-! ### Entries with an effect -/

/-- The checks of the MEMCPY branch and of the HAL call that it makes. -/
def copyAccepted (src dst size : UInt64) : Bool :=
  decide (0 < size ∧ size ≤ halHeapSize) &&
    if halHeapBase ≤ src ∧ src < halHeapBase + halHeapSize then
      dst != 0 && !HalUserContext.outOfRange src size
    else src != 0 && !HalUserContext.outOfRange dst size

def GpuGpfifoEntry.copyAccepted (e : GpuGpfifoEntry) : Bool :=
  GpuDriver.copyAccepted e.copySrc e.copyDst e.copySize

/-- The entry has an effect: it is valid, DECODE does not send it past DISPATCH, and it is a MEMCPY
that is accepted, or a LAUNCH_KERNEL whose translation calls the callback, if there is one. -/
def GpuGpfifoEntry.hasEffect (registered : Bool) (e : GpuGpfifoEntry) : Bool :=
  e.valid && !e.release &&
    if e.method = gpuOpMemcpy then e.copyAccepted
    else e.method == gpuOpLaunchKernel && registered && e.callbackCount != 0

/-- The entry that the action has FETCH hand on for submission `id`. -/
def HardwarePullerEmu.fetchedFor (s : HardwarePullerEmu) (id : ℕ) : Action → Option GpuGpfifoEntry
  | .puller stale => if s.pc = .fetch ∧ s.loaded.id = id then s.fetchEntry stale else none
  | _ => none

/-- FETCH hands on no entry with an effect for submission `id`. -/
def FetchesNoEffect (id : ℕ) (d : GpgpuDevice) : DeviceAction → Prop
  | .machine a => ∀ e ∈ d.puller.fetchedFor id a,
      e.hasEffect d.puller.device.launchRegistered = false
  | _ => True

instance (id : ℕ) (d : GpgpuDevice) (a : DeviceAction) : Decidable (FetchesNoEffect id d a) := by
  cases a with
  | machine a =>
    exact inferInstanceAs (Decidable (∀ e ∈ d.puller.fetchedFor id a,
      e.hasEffect d.puller.device.launchRegistered = false))
  | _ => exact .isTrue trivial

/-! ### Copies that fail -/

theorem HalUserContext.memRead_isSome (ctx : HalUserContext) (devAddr size : UInt64) :
    (ctx.memRead devAddr size).isSome = !outOfRange devAddr size := by
  unfold memRead
  cases outOfRange devAddr size <;> rfl

theorem HalUserContext.memWrite_isSome (ctx : HalUserContext) (devAddr size : UInt64)
    (buf : ℕ → UInt8) : (ctx.memWrite devAddr size buf).isSome = !outOfRange devAddr size := by
  unfold memWrite
  cases outOfRange devAddr size <;> rfl

/-- Whether a copy is carried out depends on its operands only. -/
theorem Device.memcpy_isSome (d : Device) (src dst size : UInt64) :
    (d.memcpy src dst size).isSome = copyAccepted src dst size := by
  unfold Device.memcpy copyAccepted
  by_cases hsize : 0 < size ∧ size ≤ halHeapSize
  · rw [if_pos hsize, decide_eq_true hsize, Bool.true_and]
    by_cases hsrc : halHeapBase ≤ src ∧ src < halHeapBase + halHeapSize
    · rw [if_pos hsrc, if_pos hsrc]
      by_cases hdst : dst = 0
      · rw [if_pos hdst, hdst]
        rfl
      · rw [if_neg hdst, Option.isSome_map, HalUserContext.memRead_isSome, bne_iff_ne.mpr hdst,
          Bool.true_and]
    · rw [if_neg hsrc, if_neg hsrc]
      by_cases hzero : src = 0
      · rw [if_pos hzero, hzero]
        rfl
      · rw [if_neg hzero, Option.isSome_map, HalUserContext.memWrite_isSome, bne_iff_ne.mpr hzero,
          Bool.true_and]
  · rw [if_neg hsize, decide_eq_false hsize]
    rfl

theorem Device.execute_memcpy (d : Device) {e : GpuGpfifoEntry} (h : e.method = gpuOpMemcpy) :
    d.execute e = (d.memcpy e.copySrc e.copyDst e.copySize).elim ([], true, d)
      fun d' => ([], false, d') := by
  rw [Device.execute, if_pos h, GpuGpfifoEntry.copySrc, GpuGpfifoEntry.copyDst,
    GpuGpfifoEntry.copySize]
  cases d.memcpy (e.payload.get 0) (e.payload.get 1) (e.payload.get 2) <;> rfl

/-- DISPATCH reports a failure for a refused copy, and for nothing else. -/
theorem Device.execute_failed (d : Device) (e : GpuGpfifoEntry) :
    (d.execute e).2.1 = (e.method == gpuOpMemcpy && !e.copyAccepted) := by
  by_cases hmem : e.method = gpuOpMemcpy
  · rw [d.execute_memcpy hmem, beq_iff_eq.mpr hmem, Bool.true_and, GpuGpfifoEntry.copyAccepted,
      ← d.memcpy_isSome]
    cases d.memcpy e.copySrc e.copyDst e.copySize <;> rfl
  · rw [Device.execute, if_neg hmem, beq_eq_false_iff_ne.mpr hmem]
    cases d.scheduler with
    | none => rfl
    | some sch =>
      by_cases hlaunch : e.method = gpuOpLaunchKernel
      · simp only [if_pos hlaunch, Bool.false_and]
      · simp only [if_neg hlaunch, Bool.false_and]

/-- An entry that is no accepted MEMCPY leaves device and host memory as they are. -/
theorem Device.execute_memory (d : Device) {e : GpuGpfifoEntry}
    (h : e.method = gpuOpMemcpy → e.copyAccepted = false) :
    (d.execute e).2.2.hal = d.hal ∧ (d.execute e).2.2.host = d.host := by
  by_cases hmem : e.method = gpuOpMemcpy
  · have hsome := d.memcpy_isSome e.copySrc e.copyDst e.copySize
    rw [show copyAccepted _ _ _ = false from h hmem, Option.isSome_eq_false_iff,
      Option.isNone_iff_eq_none] at hsome
    rw [d.execute_memcpy hmem, hsome]
    exact ⟨rfl, rfl⟩
  · rw [Device.execute, if_neg hmem]
    cases d.scheduler with
    | none => exact ⟨rfl, rfl⟩
    | some sch =>
      by_cases hlaunch : e.method = gpuOpLaunchKernel
      · simp only [if_pos hlaunch, and_self]
      · simp only [if_neg hlaunch, and_self]

/-! ### Where the events come from -/

/-- A MEMCPY that DISPATCH reports as failed. -/
def GpuGpfifoEntry.copyRefused (e : GpuGpfifoEntry) : Bool :=
  e.method == gpuOpMemcpy && !e.copyAccepted

namespace HardwarePullerEmu

/-- An entry is taken by the scan or by FETCH, under the next number. -/
theorem PullerStep.taken {s s' : HardwarePullerEmu} (h : PullerStep s s') {n : ℕ} {src : Source}
    {e : GpuGpfifoEntry} (hmem : .taken n src e ∈ s'.log) :
    .taken n src e ∈ s.log ∨ n = s.serial + 1 ∧ e = s'.currentEntry ∧
      ∀ id i addr, src = .batch id i addr → id = s.loaded.id := by
  have hyield : .taken n src e ∉ s.yieldEvents := fun hev => by
    cases mem_yieldEvents hev
  have hfinish : .taken n src e ∉ s.finishEvents := fun hev => by
    obtain ⟨x, y, h⟩ | ⟨h, -⟩ | h | h := mem_finishEvents hev <;> cases h
  have hdispatch : ∀ l f, .taken n src e ∉ s.dispatchEvents l f := fun l f hev => by
    obtain ⟨h, -⟩ | ⟨x, h⟩ | ⟨x, y, z, h⟩ | h := mem_dispatchEvents hev <;> cases h
  cases h with
  | dequeue =>
    rcases List.mem_cons.mp hmem with heq | hold
    · cases heq
      exact .inr ⟨rfl, rfl, by rintro id i addr ⟨⟩⟩
    · exact .inl hold
  | fetch =>
    rcases List.mem_cons.mp hmem with heq | hold
    · cases heq
      exact .inr ⟨rfl, rfl, by rintro id i addr ⟨⟩; rfl⟩
    · exact .inl hold
  | _ =>
    refine .inl ?_
    simpa [goto, load, take, writeEntrySemaphore, hyield, hfinish, hdispatch] using hmem

/-- Only DISPATCH dispatches, and it dispatches the current entry. -/
theorem PullerStep.dispatched {s s' : HardwarePullerEmu} (h : PullerStep s s') {n : ℕ}
    {e : GpuGpfifoEntry} (hmem : .dispatched n e ∈ s'.log) :
    .dispatched n e ∈ s.log ∨ s.pc = .dispatch ∧ n = s.serial ∧ e = s.currentEntry := by
  have hyield : .dispatched n e ∉ s.yieldEvents := fun hev => by
    cases mem_yieldEvents hev
  have hfinish : .dispatched n e ∉ s.finishEvents := fun hev => by
    obtain ⟨x, y, h⟩ | ⟨h, -⟩ | h | h := mem_finishEvents hev <;> cases h
  cases h with
  | dispatch hpc =>
    rcases List.mem_append.mp hmem with hnew | hold
    · obtain ⟨heq, -⟩ | ⟨_, heq⟩ | ⟨_, _, _, heq⟩ | heq := mem_dispatchEvents hnew <;> cases heq
      exact .inr ⟨hpc, rfl, rfl⟩
    · exact .inl hold
  | _ =>
    refine .inl ?_
    simpa [goto, load, take, writeEntrySemaphore, hyield, hfinish] using hmem

/-- Only DISPATCH reports a failed copy, when the current entry is one that is refused. -/
theorem PullerStep.memcpyFailed {s s' : HardwarePullerEmu} (h : PullerStep s s') {n : ℕ}
    {src : Source} (hmem : .memcpyFailed n src ∈ s'.log) :
    .memcpyFailed n src ∈ s.log ∨
      s.pc = .dispatch ∧ n = s.serial ∧ src = s.source ∧ s.currentEntry.copyRefused = true := by
  have hyield : .memcpyFailed n src ∉ s.yieldEvents := fun hev => by
    cases mem_yieldEvents hev
  have hfinish : .memcpyFailed n src ∉ s.finishEvents := fun hev => by
    obtain ⟨x, y, h⟩ | ⟨h, -⟩ | h | h := mem_finishEvents hev <;> cases h
  cases h with
  | dispatch hpc hexec =>
    have hfailed := Device.execute_failed s.device.tick s.currentEntry
    rw [hexec] at hfailed
    rcases List.mem_append.mp hmem with hnew | hold
    · obtain ⟨heq, hf⟩ | ⟨_, heq⟩ | ⟨_, _, _, heq⟩ | heq := mem_dispatchEvents hnew <;> cases heq
      exact .inr ⟨hpc, rfl, rfl, hfailed.symm.trans hf⟩
    · exact .inl hold
  | _ =>
    refine .inl ?_
    simpa [goto, load, take, writeEntrySemaphore, hyield, hfinish] using hmem

/-- What DISPATCH leaves in the history. -/
theorem PullerStep.dispatch_events {s s' : HardwarePullerEmu} (h : PullerStep s s')
    (hpc : s.pc = .dispatch) : .dispatched s.serial s.currentEntry ∈ s'.log ∧
      (s.currentEntry.copyRefused = true → .memcpyFailed s.serial s.source ∈ s'.log) := by
  cases h with
  | dispatch _ hexec =>
    have hfailed := Device.execute_failed s.device.tick s.currentEntry
    simp only [hexec] at hfailed
    refine ⟨by simp [dispatchEvents], fun hrefused => ?_⟩
    simp [dispatchEvents, hfailed.trans hrefused]
  | move hmove => cases hmove <;> simp_all
  | _ => simp_all

/-- An entry in flight stays the current one, and a new one is recorded as taken. -/
theorem PullerStep.current {s s' : HardwarePullerEmu} (h : PullerStep s s')
    (hcur : s.pc.inFlight = true → .taken s.serial s.source s.currentEntry ∈ s.log)
    (hflight : s'.pc.inFlight = true) : .taken s'.serial s'.source s'.currentEntry ∈ s'.log := by
  cases h with
  | move hmove => exact hcur (hmove.inFlight.symm.trans hflight)
  | dequeue | fetch => exact List.mem_cons_self
  | dispatch hpc => exact List.mem_append_right _ (hcur (by rw [hpc]; rfl))
  | release hpc => exact List.mem_cons_of_mem _ (hcur (by rw [hpc]; rfl))
  | wait hpc | waited hpc => exact hcur (by rw [hpc]; rfl)
  | _ => cases hflight

/-- The other parties add no event about an entry. -/
theorem EnvStep.extends {s s' : HardwarePullerEmu} {a : Action} (h : EnvStep s a s') :
    ∃ E, s'.log = E ++ s.log ∧ ∀ ev ∈ E, ev.entry? = none := by
  cases h with
  | accept => exact ⟨[_], rfl, by simp [Event.entry?]⟩
  | direct => exact ⟨[_, _], rfl, by simp [Event.entry?]⟩
  | configure => exact ⟨[], rfl, by simp⟩
  | quiet queues hal host preempt hsema hevs =>
    exact ⟨_, rfl, fun ev hev => Event.entry?_of_producer (hevs ev hev)⟩

theorem EnvStep.entry {s s' : HardwarePullerEmu} {a : Action} (h : EnvStep s a s') {ev : Event}
    {n : ℕ} (hn : ev.entry? = some n) (hmem : ev ∈ s'.log) : ev ∈ s.log := by
  obtain ⟨E, hlog, hevs⟩ := h.extends
  rw [hlog] at hmem
  rcases List.mem_append.mp hmem with hnew | hold
  · rw [hevs ev hnew] at hn
    cases hn
  · exact hold

/-- The other parties leave the entry in flight and the registers' submission numbers in order. -/
theorem EnvStep.keeps {s s' : HardwarePullerEmu} {a : Action} (h : EnvStep s a s') :
    s'.pc = s.pc ∧ s'.serial = s.serial ∧ s'.source = s.source ∧
      s'.currentEntry = s.currentEntry ∧ s.log ⊆ s'.log ∧ s.nextId ≤ s'.nextId ∧
      (s.loaded.id < s.nextId → s'.loaded.id < s'.nextId) := by
  cases h with
  | accept =>
    exact ⟨rfl, rfl, rfl, rfl, List.subset_cons_self _ _, Nat.le_succ _, Nat.lt_succ_of_lt⟩
  | direct =>
    exact ⟨rfl, rfl, rfl, rfl, List.subset_append_right [_, _] _, Nat.le_succ _,
      fun _ => Nat.lt_succ_self _⟩
  | configure => exact ⟨rfl, rfl, rfl, rfl, List.Subset.refl _, Nat.le_refl _, id⟩
  | quiet => exact ⟨rfl, rfl, rfl, rfl, List.subset_append_right _ _, Nat.le_refl _, id⟩

end HardwarePullerEmu

/-! ### The invariant -/

/-- The history names each entry by its number, and tells which copies failed. -/
structure EffectInv (r : Bool) (s : HardwarePullerEmu) : Prop where
  flow : FlowInv r s
  book : Bookkeeping s
  unique : ∀ n src e src' e', .taken n src e ∈ s.log → .taken n src' e' ∈ s.log → e = e'
  current : s.pc.inFlight = true → .taken s.serial s.source s.currentEntry ∈ s.log
  dispatched : ∀ n e, .dispatched n e ∈ s.log → ∃ src, .taken n src e ∈ s.log
  failed : ∀ n, (∃ src, .memcpyFailed n src ∈ s.log) ↔
    ∃ e, .dispatched n e ∈ s.log ∧ e.copyRefused = true
  parked : ∀ n src e, .blocked n src e ∈ s.log → e.isSemOp = true
  loadedOld : s.loaded.id < s.nextId
  takenOld : ∀ n id i addr e, .taken n (.batch id i addr) e ∈ s.log → id < s.nextId

theorem effectInv_pullerStep {r : Bool} {s s' : HardwarePullerEmu} (h : PullerStep s s')
    (hinv : EffectInv r s) (hbook : Bookkeeping s') : EffectInv r s' := by
  obtain ⟨hsub, -, hnext⟩ := h.log_subset
  have hnumber : ∀ src e, .taken (s.serial + 1) src e ∉ s.log := by
    intro src e hold
    have hle := hinv.flow.numbered _ hold _ rfl
    omega
  refine ⟨flowInv_pullerStep h hinv.flow, hbook, ?_, h.current hinv.current, ?_, ?_, ?_, ?_, ?_⟩
  · intro n src e src' e' htaken htaken'
    rcases h.taken htaken with hold | ⟨rfl, rfl, -⟩ <;>
      rcases h.taken htaken' with hold' | ⟨hn, rfl, -⟩
    · exact hinv.unique n src e src' e' hold hold'
    · exact absurd (hn ▸ hold) (hnumber src e)
    · exact absurd hold' (hnumber src' e')
    · rfl
  · intro n e hdisp
    rcases h.dispatched hdisp with hold | ⟨hpc, rfl, rfl⟩
    · obtain ⟨src, htaken⟩ := hinv.dispatched n e hold
      exact ⟨src, hsub htaken⟩
    · exact ⟨s.source, hsub (hinv.current (by rw [hpc]; rfl))⟩
  · intro n
    constructor
    · rintro ⟨src, hfail⟩
      rcases h.memcpyFailed hfail with hold | ⟨hpc, rfl, -, hrefused⟩
      · obtain ⟨e, hdisp, hrefused⟩ := (hinv.failed n).mp ⟨src, hold⟩
        exact ⟨e, hsub hdisp, hrefused⟩
      · exact ⟨s.currentEntry, (h.dispatch_events hpc).1, hrefused⟩
    · rintro ⟨e, hdisp, hrefused⟩
      rcases h.dispatched hdisp with hold | ⟨hpc, rfl, rfl⟩
      · obtain ⟨src, hfail⟩ := (hinv.failed n).mpr ⟨e, hold, hrefused⟩
        exact ⟨src, hsub hfail⟩
      · exact ⟨s.source, (h.dispatch_events hpc).2 hrefused⟩
  · intro n src e hblocked
    rcases h.blocked hblocked with hold | ⟨-, hblocks, -, rfl⟩
    · exact hinv.parked n src e hold
    · simp only [blocks, Bool.and_eq_true] at hblocks
      exact hblocks.1
  · have hloaded := loaded_pullerStep h hinv.book
    have hold := hinv.loadedOld
    omega
  · intro n id i addr e htaken
    rw [hnext]
    rcases h.taken htaken with hold | ⟨-, -, hid⟩
    · exact hinv.takenOld n id i addr e hold
    · rw [hid id i addr rfl]
      exact hinv.loadedOld

theorem effectInv_envStep {r : Bool} {s s' : HardwarePullerEmu} {a : Action} (h : EnvStep s a s')
    (hinv : EffectInv r s) (hbook : Bookkeeping s') : EffectInv r s' := by
  obtain ⟨hpc, hserial, hsource, hentry, hsub, hnext, hloaded⟩ := h.keeps
  refine ⟨flowInv_envStep h hinv.flow, hbook, ?_, ?_, ?_, ?_, ?_, hloaded hinv.loadedOld, ?_⟩
  · intro n src e src' e' htaken htaken'
    exact hinv.unique n src e src' e' (h.entry rfl htaken) (h.entry rfl htaken')
  · intro hflight
    rw [hserial, hsource, hentry]
    rw [hpc] at hflight
    exact hsub (hinv.current hflight)
  · intro n e hdisp
    obtain ⟨src, htaken⟩ := hinv.dispatched n e (h.entry rfl hdisp)
    exact ⟨src, hsub htaken⟩
  · intro n
    constructor
    · rintro ⟨src, hfail⟩
      obtain ⟨e, hdisp, hrefused⟩ := (hinv.failed n).mp ⟨src, h.entry rfl hfail⟩
      exact ⟨e, hsub hdisp, hrefused⟩
    · rintro ⟨e, hdisp, hrefused⟩
      obtain ⟨src, hfail⟩ := (hinv.failed n).mpr ⟨e, h.entry rfl hdisp, hrefused⟩
      exact ⟨src, hsub hfail⟩
  · intro n src e hblocked
    exact hinv.parked n src e (h.entry rfl hblocked)
  · intro n id i addr e htaken
    exact Nat.lt_of_lt_of_le (hinv.takenOld n id i addr e (h.entry rfl htaken)) hnext

theorem effectInv_step {r : Bool} (s : HardwarePullerEmu) (a : Action) (hinv : EffectInv r s) :
    EffectInv r (HardwarePullerEmu.step s a) := by
  have hbook := bookkeeping_step s a hinv.book
  rcases step_cases s a with ⟨-, h⟩ | ⟨-, h⟩
  · exact effectInv_pullerStep h hinv hbook
  · exact effectInv_envStep h hinv hbook

theorem effectInv_init (cfg : Config) :
    EffectInv (init cfg).device.launchRegistered (init cfg) where
  flow := flowInv_init cfg
  book := bookkeeping_init cfg
  unique := by simp [init]
  current := by simp [init, Pc.inFlight]
  dispatched := by simp [init]
  failed := by simp [init]
  parked := by simp [init]
  loadedOld := Nat.zero_lt_one
  takenOld := by simp [init]

/-! ### The device's own steps -/

namespace HardwarePullerEmu

/-- The driver changes the fence table from outside. -/
def setSimFenceTable (s : HardwarePullerEmu) (table : UInt64 → Option Bool) : HardwarePullerEmu :=
  { s with device := { s.device with simFenceTable := table } }

end HardwarePullerEmu

theorem EffectInv.setSimFenceTable {r : Bool} {s : HardwarePullerEmu} (hinv : EffectInv r s)
    (table : UInt64 → Option Bool) : EffectInv r (s.setSimFenceTable table) where
  flow := hinv.flow.quiet (E := []) (by simp) rfl rfl rfl (.inr ⟨rfl, rfl⟩)
  book := ⟨hinv.book.slots, ⟨hinv.book.numbered.fresh, hinv.book.numbered.unique⟩,
    hinv.book.registered⟩
  unique := hinv.unique
  current := hinv.current
  dispatched := hinv.dispatched
  failed := hinv.failed
  parked := hinv.parked
  loadedOld := hinv.loadedOld
  takenOld := hinv.takenOld

namespace GpgpuDevice

theorem syncLoop_puller (r : PushbufferResult) (es : List GpuGpfifoEntry) :
    (syncLoop r es).device.puller = r.device.puller := by
  have hentry : ∀ (r : PushbufferResult) e, (syncEntry r e).device.puller = r.device.puller := by
    intro r e
    unfold syncEntry halFenceCreate
    split
    · cases r.device.nextSemHandle with
      | some h =>
        by_cases hzero : h = 0
        · simp only [if_pos hzero]
        · simp only [if_neg hzero]
      | none =>
        cases hfind : (List.range halMaxFences).find? fun i => !r.device.fenceSignaled i with
        | none => rfl
        | some i => rfl
    · rfl
  induction es generalizing r with
  | nil => rfl
  | cons e es ih =>
    rw [syncLoop]
    split
    · exact hentry r e
    · rw [ih, hentry]

/-- With a FENCE in the batch the handler leaves the puller alone. -/
theorem submit_puller_of_fence (d : GpgpuDevice) {args : GpuPushbufferArgs}
    (hfence : hasFence args = true) : (d.step (.submit args)).puller = d.puller := by
  have hpath : ¬ (d.pullerHandle ≠ 0 ∧ hasFence args = false) := by
    rintro ⟨-, hplain⟩
    rw [hfence] at hplain
    cases hplain
  unfold step handlePushbufferSubmitBatch
  simp only [if_neg hpath]
  split_ifs
  · rfl
  · rfl
  · exact syncLoop_puller _ _

/-- The puller `s'` comes from `s` by a change of the fence table and actions of other parties. -/
def ActedOn (s s' : HardwarePullerEmu) : Prop :=
  ∃ table as, s' = run HardwarePullerEmu.step (s.setSimFenceTable table) as ∧
    ∀ a ∈ as, a.isPuller = false

theorem ActedOn.refl (s : HardwarePullerEmu) : ActedOn s s :=
  ⟨s.device.simFenceTable, [], rfl, by simp⟩

theorem halQueueSubmit_actedOn (d : GpgpuDevice) (q addr : UInt64) (count : UInt32) :
    ActedOn d.puller (d.halQueueSubmit q addr count).device.puller := by
  unfold halQueueSubmit
  cases d.halQueues q with
  | none => exact .refl _
  | some bound =>
    simp only
    split_ifs
    · exact ⟨_, [], rfl, by simp⟩
    · exact ⟨_, [.submitBatch ⟨addr, count, d.simFenceIdAlloc.1⟩], rfl, by simp [Action.isPuller]⟩
    · exact ⟨_, [], rfl, by simp⟩

theorem halDoorbellRing_actedOn {s : HardwarePullerEmu} {d : GpgpuDevice}
    (h : ActedOn s d.puller) (q : UInt32) : ActedOn s (d.halDoorbellRing q).puller := by
  unfold halDoorbellRing
  split_ifs
  · obtain ⟨table, as, heq, hothers⟩ := h
    refine ⟨table, as ++ [.writeDoorbell q], ?_, ?_⟩
    · rw [run_append, ← heq]
      rfl
    · intro a ha
      rcases List.mem_append.mp ha with hold | hnew
      · exact hothers a hold
      · rw [List.mem_singleton.mp hnew]
        rfl
  · exact h

/-- The ioctl acts on the puller by the fence table, a submission and a doorbell. -/
theorem submit_actedOn (d : GpgpuDevice) (args : GpuPushbufferArgs) :
    ActedOn d.puller (d.step (.submit args)).puller := by
  unfold step handlePushbufferSubmitBatch
  simp only
  split_ifs with hcount hspace hpath
  · exact .refl _
  · exact .refl _
  · unfold pullerPath
    simp only
    split_ifs
    · exact .refl _
    · exact halQueueSubmit_actedOn d _ _ _
    · exact halDoorbellRing_actedOn (halQueueSubmit_actedOn d _ _ _) _
  · rw [syncLoop_puller]
    exact .refl _

end GpgpuDevice

theorem GpgpuDevice.ActedOn.effectInv {r : Bool} {s s' : HardwarePullerEmu}
    (h : GpgpuDevice.ActedOn s s') (hinv : EffectInv r s) : EffectInv r s' := by
  obtain ⟨table, as, rfl, -⟩ := h
  exact run_of_invariant effectInv_step as (hinv.setSimFenceTable table)

theorem effectInv_deviceStep {r : Bool} (d : GpgpuDevice) (a : DeviceAction)
    (hinv : EffectInv r d.puller) : EffectInv r (d.step a).puller := by
  cases a with
  | submit args => exact (d.submit_actedOn args).effectInv hinv
  | tables d' => exact hinv
  | machine a => exact effectInv_step d.puller a hinv

/-! ### Which entries are taken for a submission -/

theorem entriesFor_append {id : ℕ} {E : List Event}
    (h : ∀ ev ∈ E, ev.takenFor? id = none) (log : List Event) :
    entriesFor id (E ++ log) = entriesFor id log := by
  rw [entriesFor, List.filterMap_append, List.filterMap_eq_nil_iff.mpr h, List.nil_append]
  rfl

theorem Event.takenFor?_of_entry {id : ℕ} {ev : Event} (h : ev.entry? = none) :
    ev.takenFor? id = none := by
  cases ev <;> simp_all [Event.takenFor?, Event.entry?]

theorem mem_entriesFor {id n : ℕ} {e : GpuGpfifoEntry} {log : List Event} :
    (n, e) ∈ entriesFor id log ↔ ∃ i addr, .taken n (.batch id i addr) e ∈ log := by
  rw [entriesFor, List.mem_reverse, List.mem_filterMap]
  constructor
  · rintro ⟨ev, hev, htaken⟩
    cases ev with
    | taken m src e' =>
      cases src with
      | batch k i addr =>
        rw [Event.takenFor?] at htaken
        split at htaken
        · rename_i hk
          cases htaken
          subst hk
          exact ⟨i, addr, hev⟩
        · cases htaken
      | ring q => cases htaken
    | _ => cases htaken
  · rintro ⟨i, addr, hev⟩
    exact ⟨_, hev, if_pos rfl⟩

/-- A submission that is still to come has no entries. -/
theorem EffectInv.entriesFor_nextId {r : Bool} {s : HardwarePullerEmu} (hinv : EffectInv r s) :
    entriesFor s.nextId s.log = [] := by
  rw [List.eq_nil_iff_forall_not_mem]
  rintro ⟨n, e⟩ hmem
  obtain ⟨i, addr, htaken⟩ := mem_entriesFor.mp hmem
  exact Nat.lt_irrefl _ (hinv.takenOld n _ i addr e htaken)

theorem HardwarePullerEmu.EnvStep.entriesFor {s s' : HardwarePullerEmu} {a : Action}
    (h : EnvStep s a s') (id : ℕ) : entriesFor id s'.log = entriesFor id s.log := by
  obtain ⟨E, hlog, hevs⟩ := h.extends
  rw [hlog]
  exact entriesFor_append (fun ev hev => Event.takenFor?_of_entry (hevs ev hev)) s.log

/-- Away from FETCH the puller takes no entry of a batch. -/
theorem HardwarePullerEmu.PullerStep.entriesFor {s s' : HardwarePullerEmu} (h : PullerStep s s')
    (hpc : s.pc ≠ .fetch) (id : ℕ) : entriesFor id s'.log = entriesFor id s.log := by
  have hyield : ∀ ev ∈ s.yieldEvents, ev.takenFor? id = none := fun ev hev => by
    rw [mem_yieldEvents hev]
    rfl
  have hfinish : ∀ ev ∈ s.finishEvents, ev.takenFor? id = none := fun ev hev => by
    obtain ⟨x, y, rfl⟩ | ⟨rfl, -⟩ | rfl | rfl := mem_finishEvents hev <;> rfl
  have hdispatch : ∀ l f, ∀ ev ∈ s.dispatchEvents l f, ev.takenFor? id = none := fun l f ev hev => by
    obtain ⟨rfl, -⟩ | ⟨x, rfl⟩ | ⟨x, y, z, rfl⟩ | rfl := mem_dispatchEvents hev <;> rfl
  cases h with
  | fetch hfetch => exact absurd hfetch hpc
  | move | noChannel | exchange | wait | waited => rfl
  | select | dequeue | blockNext | release =>
    exact entriesFor_append (E := [_]) (by simp [Event.takenFor?]) _
  | resume => exact entriesFor_append (E := [_, _]) (by simp [Event.takenFor?]) _
  | blockLast =>
    refine (entriesFor_append hyield _).trans ?_
    exact entriesFor_append (E := [_]) (by simp [Event.takenFor?]) _
  | dispatch => exact entriesFor_append (hdispatch _ _) _
  | completeNext | checkpointDirect => exact entriesFor_append hfinish _
  | completeLast => exact (entriesFor_append hyield _).trans (entriesFor_append hfinish _)
  | checkpointNone =>
    refine (entriesFor_append (E := [_, _]) (by simp [Event.takenFor?]) _).trans ?_
    exact entriesFor_append hfinish _
  | checkpointLoad =>
    refine (entriesFor_append (E := [_, _, _]) (by simp [Event.takenFor?]) _).trans ?_
    exact entriesFor_append hfinish _

/-- An action takes the entry that it has FETCH hand on, and no other. -/
theorem HardwarePullerEmu.entriesFor_step (s : HardwarePullerEmu) (a : Action) (id : ℕ) :
    entriesFor id (step s a).log =
      entriesFor id s.log ++ ((s.fetchedFor id a).map fun e => (s.serial + 1, e)).toList := by
  rcases step_cases s a with ⟨ha, h⟩ | ⟨ha, h⟩
  · cases a <;> simp only [Action.isPuller, Bool.false_eq_true] at ha
    rename_i stale
    by_cases hpc : s.pc = .fetch
    · simp only [fetchedFor, hpc, true_and, step, pullerStep, stepFetch]
      cases hfetch : s.fetchEntry stale with
      | none =>
        simp only [ite_self, Option.map_none, Option.toList_none, List.append_nil]
        rfl
      | some e =>
        by_cases hid : s.loaded.id = id
        · simp [take, GpuDriver.entriesFor, Event.takenFor?, hid]
        · simp [take, GpuDriver.entriesFor, Event.takenFor?, hid]
    · rw [h.entriesFor hpc]
      simp [fetchedFor, hpc]
  · rw [h.entriesFor]
    cases a <;> simp_all [Action.isPuller, fetchedFor]

theorem HardwarePullerEmu.entriesFor_run_others {as : List Action}
    (h : ∀ a ∈ as, a.isPuller = false) (s : HardwarePullerEmu) (id : ℕ) :
    entriesFor id (run step s as).log = entriesFor id s.log := by
  induction as generalizing s with
  | nil => rfl
  | cons a as ih =>
    have ha := h a List.mem_cons_self
    rw [run_cons, ih (fun b hb => h b (List.mem_cons_of_mem _ hb)) (step s a)]
    exact (envStep_cases s ha).entriesFor id

/-- A device action takes an entry for the submission only as an action on the puller. -/
theorem noEffect_step {r : Bool} {d : GpgpuDevice} (hinv : EffectInv r d.puller) (a : DeviceAction)
    (id : ℕ) :
    (∀ p ∈ entriesFor id (d.step a).puller.log, p.2.hasEffect r = false) ↔
      (∀ p ∈ entriesFor id d.puller.log, p.2.hasEffect r = false) ∧ FetchesNoEffect id d a := by
  cases a with
  | submit args =>
    obtain ⟨table, as, heq, hothers⟩ := d.submit_actedOn args
    have hsame : entriesFor id (d.step (.submit args)).puller.log = entriesFor id d.puller.log := by
      rw [heq, show entriesFor id d.puller.log =
        entriesFor id (d.puller.setSimFenceTable table).log from rfl]
      exact entriesFor_run_others hothers _ id
    rw [hsame]
    exact (and_iff_left trivial).symm
  | tables d' => exact (and_iff_left trivial).symm
  | machine a =>
    simp only [GpgpuDevice.step, entriesFor_step, List.forall_mem_append, FetchesNoEffect,
      hinv.flow.registered]
    cases d.puller.fetchedFor id a <;> simp

/-- The entries taken for the submission have no effect exactly when each FETCH of it hands on
one without. -/
theorem noEffect_run {r : Bool} (id : ℕ) {d : GpgpuDevice} (as : List DeviceAction)
    (hinv : EffectInv r d.puller) :
    (∀ p ∈ entriesFor id (run GpgpuDevice.step d as).puller.log, p.2.hasEffect r = false) ↔
      (∀ p ∈ entriesFor id d.puller.log, p.2.hasEffect r = false) ∧
        Guarded GpgpuDevice.step (FetchesNoEffect id) d as := by
  induction as generalizing d with
  | nil => exact (and_iff_left trivial).symm
  | cons a as ih =>
    rw [run_cons, ih (effectInv_deviceStep d a hinv), noEffect_step hinv a id, and_assoc]
    rfl

/-! ### What a finished entry has done -/

theorem hasEffect_of_isSemOp {r : Bool} {e : GpuGpfifoEntry} (hop : e.isSemOp = true) :
    e.hasEffect r = false := by
  have hmem : e.method ≠ gpuOpMemcpy := by
    intro heq
    rw [GpuGpfifoEntry.isSemOp, heq] at hop
    revert hop
    decide
  have hlaunch : (e.method == gpuOpLaunchKernel) = false := by
    rw [beq_eq_false_iff_ne]
    intro heq
    rw [(launch_not_semOp heq).1] at hop
    cases hop
  simp [GpuGpfifoEntry.hasEffect, if_neg hmem, hlaunch]

theorem launchOf?_length (n : ℕ) (log : List Event) :
    (log.filterMap (Event.launchOf? n)).length = (tally n log).launches := by
  rw [List.length_filterMap_eq_countP]
  refine List.countP_congr fun ev _ => ?_
  cases ev <;> simp [Event.launchOf?, Event.isLaunch]

/-- Without a dispatch and a launch, nothing has been done. -/
theorem entryEffects_of_tally {log : List Event} {n : ℕ} {e : GpuGpfifoEntry}
    (hd : (tally n log).dispatches = 0) (hl : (tally n log).launches = 0) :
    entryEffects log n e = [] := by
  have hany : log.any (Event.isDispatch n) = false := by
    rw [List.any_eq_false]
    exact fun ev hev => List.countP_eq_zero.mp hd ev hev
  rw [← launchOf?_length, List.length_eq_zero_iff] at hl
  simp [entryEffects, hany, hl]

/-- A dispatched entry has been copied unless its copy is one that is refused. -/
theorem EffectInv.copied_iff {r : Bool} {s : HardwarePullerEmu} (hinv : EffectInv r s) {n : ℕ}
    {src : Source} {e : GpuGpfifoEntry} (htaken : .taken n src e ∈ s.log)
    (hd : (tally n s.log).dispatches ≠ 0) :
    (s.log.any (Event.isDispatch n) && !s.log.any (Event.isCopyFailure n)) = !e.copyRefused := by
  have hentry : ∀ e', .dispatched n e' ∈ s.log → e' = e := by
    intro e' hdisp
    obtain ⟨src', htaken'⟩ := hinv.dispatched n e' hdisp
    exact hinv.unique n src' e' src e htaken' htaken
  have hdisp : .dispatched n e ∈ s.log := by
    obtain ⟨ev, hev, hn⟩ := List.countP_pos_iff.mp (Nat.pos_of_ne_zero hd)
    cases ev with
    | dispatched m e' =>
      obtain rfl : m = n := by simpa [Event.isDispatch] using hn
      exact hentry e' hev ▸ hev
    | _ => cases hn
  have hany : s.log.any (Event.isDispatch n) = true :=
    List.any_eq_true.mpr ⟨_, hdisp, by simp [Event.isDispatch]⟩
  have hfailed : s.log.any (Event.isCopyFailure n) = e.copyRefused := by
    rw [Bool.eq_iff_iff, List.any_eq_true]
    constructor
    · rintro ⟨ev, hev, hn⟩
      cases ev with
      | memcpyFailed m src' =>
        obtain rfl : m = n := by simpa [Event.isCopyFailure] using hn
        obtain ⟨e', hdisp', hrefused⟩ := (hinv.failed m).mp ⟨src', hev⟩
        rwa [hentry e' hdisp'] at hrefused
      | _ => cases hn
    · intro hrefused
      obtain ⟨src', hfail⟩ := (hinv.failed n).mpr ⟨e, hdisp, hrefused⟩
      exact ⟨_, hfail, by simp [Event.isCopyFailure]⟩
  rw [hany, hfailed, Bool.true_and]

/-- An entry that went through DISPATCH has done something exactly when it is one with an effect. -/
theorem EffectInv.entryEffects_of_dispatched {r : Bool} {s : HardwarePullerEmu}
    (hinv : EffectInv r s) {n : ℕ} {src : Source} {e : GpuGpfifoEntry}
    (htaken : .taken n src e ∈ s.log) (htally : tally n s.log = finalTally r e)
    (hvia : viaSemaphore e = false) :
    entryEffects s.log n e = [] ↔ e.hasEffect r = false := by
  have hd : (tally n s.log).dispatches = 1 := by
    rw [htally, finalTally, midTally, hvia]
    rfl
  have hl : (s.log.filterMap (Event.launchOf? n)).length = launchCalls r e := by
    rw [launchOf?_length, htally, finalTally, midTally, hvia]
    exact Nat.zero_add _
  have hcopy := hinv.copied_iff htaken (by rw [hd]; exact Nat.one_ne_zero)
  have hrel : e.isSemOp = false → e.release = false := by
    intro hop
    rwa [viaSemaphore, hop, Bool.not_false, Bool.and_true] at hvia
  cases hvalid : e.valid with
  | false => simp [entryEffects, GpuGpfifoEntry.hasEffect, hvalid]
  | true =>
    by_cases hmem : e.method = gpuOpMemcpy
    · have hop : e.isSemOp = false := by
        rw [GpuGpfifoEntry.isSemOp, hmem]
        decide
      rw [entryEffects, hcopy, GpuGpfifoEntry.copyRefused]
      simp [GpuGpfifoEntry.hasEffect, hvalid, hmem, hrel hop]
    · by_cases hlaunch : e.method = gpuOpLaunchKernel
      · have hop := (launch_not_semOp hlaunch).1
        have hnil : s.log.filterMap (Event.launchOf? n) = [] ↔ launchCalls r e = 0 := by
          rw [← hl, List.length_eq_zero_iff]
        rw [entryEffects, if_neg (by rw [hvalid]; exact Bool.noConfusion), if_neg hmem,
          if_pos hlaunch, List.map_eq_nil_iff, List.reverse_eq_nil_iff, hnil, launchCalls,
          if_neg hmem, GpuGpfifoEntry.hasEffect, if_neg hmem, hvalid, hrel hop, hlaunch]
        cases r <;> simp
      · simp [entryEffects, GpuGpfifoEntry.hasEffect, hmem, hlaunch]

/-- A finished entry has done something exactly when it is one with an effect. -/
theorem EffectInv.entryEffects_eq_nil_iff {r : Bool} {s : HardwarePullerEmu}
    (hinv : EffectInv r s) {n : ℕ} {src src' : Source} {e : GpuGpfifoEntry}
    (htaken : .taken n src e ∈ s.log)
    (hdone : .completed n src' e ∈ s.log ∨ .blocked n src' e ∈ s.log) :
    entryEffects s.log n e = [] ↔ e.hasEffect r = false := by
  rcases hdone with hdone | hblocked
  · have htally := hinv.flow.completed n src' e hdone
    cases hvia : viaSemaphore e with
    | true =>
      have hrel : e.release = true := by
        rw [viaSemaphore, Bool.and_eq_true] at hvia
        exact hvia.1
      have hfinal : (finalTally r e).dispatches = 0 ∧ (finalTally r e).launches = 0 := by
        rw [finalTally, midTally, hvia]
        exact ⟨rfl, rfl⟩
      rw [← htally] at hfinal
      simp [entryEffects_of_tally hfinal.1 hfinal.2, GpuGpfifoEntry.hasEffect, hrel]
    | false => exact hinv.entryEffects_of_dispatched htaken htally hvia
  · have htally := hinv.flow.blocked n src' e hblocked
    have hop := hinv.parked n src' e hblocked
    rw [entryEffects_of_tally (by rw [htally]; rfl) (by rw [htally]; rfl), hasEffect_of_isSemOp hop]
    simp

/-! ### The result -/

theorem GpgpuDevice.batchEffects_of_fence (d : GpgpuDevice) {args : GpuPushbufferArgs}
    (hfence : hasFence args = true) (as : List DeviceAction) : d.batchEffects args as = [] := by
  rw [batchEffects, submissionId, d.submit_puller_of_fence hfence, if_pos rfl]

/-- A settled submission has no effects exactly when its fetches hand on no entry with one. -/
theorem effects_eq_nil_iff {r : Bool} {d : GpgpuDevice} (hinv : EffectInv r d.puller)
    (as : List DeviceAction)
    (hsettled : Settled d.puller.nextId (run GpgpuDevice.step d as).puller.log) :
    effects d.puller.nextId (run GpgpuDevice.step d as).puller.log = [] ↔
      Guarded GpgpuDevice.step (FetchesNoEffect d.puller.nextId) d as := by
  have hrun : EffectInv r (run GpgpuDevice.step d as).puller :=
    run_of_invariant (I := fun d : GpgpuDevice => EffectInv r d.puller) effectInv_deviceStep as hinv
  have heach : ∀ p ∈ entriesFor d.puller.nextId (run GpgpuDevice.step d as).puller.log,
      entryEffects (run GpgpuDevice.step d as).puller.log p.1 p.2 = [] ↔
        p.2.hasEffect r = false := by
    rintro ⟨n, e⟩ hmem
    obtain ⟨i, addr, htaken⟩ := mem_entriesFor.mp hmem
    obtain ⟨src, hdone⟩ := hsettled _ hmem
    exact hrun.entryEffects_eq_nil_iff htaken hdone
  rw [effects, List.flatMap_eq_nil_iff, forall₂_congr heach, noEffect_run _ as hinv,
    hinv.entriesFor_nextId]
  simp

/-- **Fences and effects.**  After any history of the device, a batch without FENCE has, once its
entries are finished, the same effects as with FENCE entries put in exactly when FETCH hands on no
valid MEMCPY that is accepted and no valid LAUNCH_KERNEL that calls back for it. -/
theorem fence_transparent_iff {cfg : Config} {d₀ : GpgpuDevice} (h₀ : d₀.puller = init cfg)
    (history : List DeviceAction) {d : GpgpuDevice} (hd : d = run GpgpuDevice.step d₀ history)
    {args fenced : GpuPushbufferArgs} (hadded : FenceAdded args fenced) (as as' : List DeviceAction)
    (hsettled : ∀ id ∈ d.submissionId args,
      Settled id (run GpgpuDevice.step d (.submit args :: as)).puller.log) :
    d.batchEffects args as = d.batchEffects fenced as' ↔
      ∀ id ∈ d.submissionId args,
        Guarded GpgpuDevice.step (FetchesNoEffect id) d (.submit args :: as) := by
  have hinv : EffectInv (init cfg).device.launchRegistered d.puller := by
    rw [hd]
    refine run_of_invariant (I := fun d : GpgpuDevice => EffectInv _ d.puller)
      effectInv_deviceStep history ?_
    rw [h₀]
    exact effectInv_init cfg
  rw [d.batchEffects_of_fence hadded.fence, GpgpuDevice.batchEffects]
  by_cases hid : (d.step (.submit args)).puller.nextId = d.puller.nextId
  · simp [GpgpuDevice.submissionId, hid]
  · have hsome : d.submissionId args = some d.puller.nextId := if_neg hid
    rw [hsome] at hsettled ⊢
    simp only [Option.mem_def, Option.some.injEq, forall_eq'] at hsettled ⊢
    exact effects_eq_nil_iff hinv _ hsettled

/-! ### A launch with and without a FENCE -/

/-- The device with one queue, its puller with a scheduler whose launch callback is registered. -/
def GpgpuDevice.oneQueueLaunching : GpgpuDevice :=
  { GpgpuDevice.oneQueue with puller := HardwarePullerEmu.init launchConfig }

/-- The launch entry of the batch, and a FENCE behind it. -/
def GpuPushbufferArgs.oneLaunchFenced : GpuPushbufferArgs :=
  { GpuPushbufferArgs.oneLaunch with
    entries := fun i => if i = 0 then nativeEntry gpuOpLaunchKernel else nativeEntry gpuOpFence
    count := 2 }

theorem oneLaunch_fenceAdded : FenceAdded .oneLaunch .oneLaunchFenced where
  plain := by decide
  fence := by decide
  rest := by decide
  streamId := rfl
  vaSpaceHandle := rfl
  streamIdCompat := rfl

/-- The doorbell's callback returns and the puller carries the batch out; FETCH's local entry holds
`stale` when its read is rejected. -/
def carryOut (stale : GpuGpfifoEntry) : List DeviceAction :=
  .machine .onDoorbell :: List.replicate 10 (.machine (.puller stale))

/-- The one entry of the batch has been fetched and completed. -/
theorem oneLaunch_settled (stale : GpuGpfifoEntry) {log : List Event}
    (hentries : entriesFor 1 log = [(1, stale)])
    (hdone : .completed 1 (.batch 1 0 gpfifoBase) stale ∈ log) : Settled 1 log := by
  intro p hp
  rw [hentries, List.mem_singleton] at hp
  rw [hp]
  exact ⟨_, .inl hdone⟩

/-- A zero entry has no effect, so that the fence makes no difference. -/
theorem fence_transparent_zero :
    GpgpuDevice.oneQueueLaunching.batchEffects .oneLaunch (carryOut .zero) =
      GpgpuDevice.oneQueueLaunching.batchEffects .oneLaunchFenced [] := by
  have hone : GpgpuDevice.oneQueueLaunching.submissionId .oneLaunch = some 1 := by decide +kernel
  refine (fence_transparent_iff (d := .oneQueueLaunching) rfl [] rfl oneLaunch_fenceAdded
    (carryOut .zero) [] ?_).mpr (by decide +kernel)
  intro id hid
  rw [hone] at hid
  cases hid
  exact oneLaunch_settled .zero (by decide +kernel) (by decide +kernel)

/-- The puller carries out the launch entry of the batch; with the FENCE nobody does. -/
theorem fence_transparent_fails :
    GpgpuDevice.oneQueueLaunching.pullerHandle ≠ 0 ∧ FenceAdded .oneLaunch .oneLaunchFenced ∧
      (GpgpuDevice.oneQueueLaunching.handlePushbufferSubmitBatch (some .oneLaunch)).ret = 0 ∧
      (GpgpuDevice.oneQueueLaunching.handlePushbufferSubmitBatch (some .oneLaunchFenced)).ret = 0 ∧
      Settled 1 (run GpgpuDevice.step .oneQueueLaunching
        (.submit .oneLaunch :: carryOut (GpuPushbufferArgs.oneLaunch.entries 0))).puller.log ∧
      GpgpuDevice.oneQueueLaunching.batchEffects .oneLaunch
          (carryOut (GpuPushbufferArgs.oneLaunch.entries 0)) ≠
        GpgpuDevice.oneQueueLaunching.batchEffects .oneLaunchFenced
          (carryOut (GpuPushbufferArgs.oneLaunch.entries 0)) := by
  refine ⟨by decide, oneLaunch_fenceAdded, by decide +kernel, by decide +kernel, ?_, ?_⟩
  · exact oneLaunch_settled (nativeEntry gpuOpLaunchKernel) (by decide +kernel) (by decide +kernel)
  · decide +kernel

end UsrLinuxEmu.GpuDriver
