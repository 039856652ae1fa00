import UsrLinuxEmu.GpuDriver.EnvStep
import UsrLinuxEmu.GpuDriver.SchedulerOrder

/-!
# Nested launches (`sim/hardware/hardware_puller_emu.cpp`)

`sim_pdl_launch` hands a child kernel and its completion signal to the scheduler and counts the
child as open; `pdlNestDecrement` is there to count it down, when the child completes.

* `PdlAction` / `pdlStep` — the machine with launches and with other users of the scheduler;
* `noteChildren` — the children that have been launched and have not completed;
* `PdlLaunched` / `PdlRefused` — what an accepted launch and a rejected one do;
* `LaunchStep` / `launchStep_cases` — every way a launch can go;
* `pdl_nesting_iff` — the runs in which the counter is the number of open children and every launch
  is one or the other.
-/

namespace UsrLinuxEmu.GpuDriver

open UsrLinuxEmu.Transition

/-! ### Launches -/

structure PdlArgs where
  kernelAddr : UInt64
  kernargsVa : UInt64
  gridX : UInt32
  blockX : UInt32
  signalHandle : UInt64
  signalValue : UInt64
  deriving DecidableEq

inductive PdlAction where
  | sys (a : Action)
  | simPdlLaunch (args : PdlArgs)
  /-- Another user of the scheduler takes items out, or puts some in. -/
  | useScheduler (use : GlobalScheduler → GlobalScheduler)

namespace HardwarePullerEmu

def pdlLaunch (s : HardwarePullerEmu) (args : PdlArgs) : Int × HardwarePullerEmu :=
  s.simPdlLaunch args.kernelAddr args.kernargsVa args.gridX args.blockX args.signalHandle
    args.signalValue

def pdlStep (s : HardwarePullerEmu) : PdlAction → HardwarePullerEmu
  | .sys a => s.step a
  | .simPdlLaunch args => (s.pdlLaunch args).2
  | .useScheduler use =>
    { s with device := { s.device with scheduler := s.device.scheduler.map use } }

/-- The child kernel's entry. -/
def pdlChild (s : HardwarePullerEmu) (args : PdlArgs) : GpuGpfifoEntry :=
  { s.currentEntry.withOperands args.kernelAddr args.kernargsVa
      (args.gridX.toUInt64 <<< 32 ||| args.blockX.toUInt64) with
    method := gpuOpLaunchKernel
    valid := true }

/-- The children that are open after the action.  Entries carry no number: the COMPLETE of an entry
that is an open child's is that child's. -/
def noteChildren (children : List GpuGpfifoEntry) (s : HardwarePullerEmu) :
    PdlAction → List GpuGpfifoEntry
  | .simPdlLaunch args =>
    if (s.pdlLaunch args).1 = 0 then s.pdlChild args :: children else children
  | .sys (.puller _) => if s.pc = .complete then children.erase s.currentEntry else children
  | _ => children

/-- The machine, with the open children. -/
abbrev childrenStep : List GpuGpfifoEntry × HardwarePullerEmu → PdlAction →
    List GpuGpfifoEntry × HardwarePullerEmu :=
  observed pdlStep noteChildren

end HardwarePullerEmu

open HardwarePullerEmu

/-! ### The property -/

/-- The counter is the number of open children, and in its bounds. -/
def NestCounted (x : List GpuGpfifoEntry × HardwarePullerEmu) : Prop :=
  x.2.pdl.nestCounter = x.1.length ∧ 0 ≤ x.2.pdl.nestCounter ∧ x.2.pdl.nestCounter ≤ maxPdlNest

/-- `sch'` is `sch` with a child and then its signal enqueued, and with nothing else. -/
structure PdlEnqueued (sch sch' : GlobalScheduler) (kernelAddr signalHandle : UInt64)
    (child signal : WorkItem) : Prop where
  kernel : child.entry.method = gpuOpLaunchKernel ∧ child.entry.kernelAddr = kernelAddr
  release : signal.entry.method = gpuOpSemRelease ∧ signal.entry.semaphoreVa = signalHandle
  numbers : child.sequenceId = sch.sequenceCounter ∧ signal.sequenceId = child.sequenceId + 1
  queue : sch'.queue = insertItem signal (insertItem child sch.queue)

/-- What an accepted launch does. -/
def PdlLaunched (s s' : HardwarePullerEmu) (kernelAddr signalHandle : UInt64) : Prop :=
  s'.pdl.nestCounter = s.pdl.nestCounter + 1 ∧
    ∃ sch sch' child signal, s.device.scheduler = some sch ∧ s'.device.scheduler = some sch' ∧
      PdlEnqueued sch sch' kernelAddr signalHandle child signal

/-- What a rejected launch does. -/
def PdlRefused (s s' : HardwarePullerEmu) : Prop :=
  s'.pdl.nestCounter = s.pdl.nestCounter ∧
    s'.device.scheduler.map GlobalScheduler.queue = s.device.scheduler.map GlobalScheduler.queue

/-- The puller is about to take a step with a PDL entry. -/
def HardwarePullerEmu.OnPdlEntry (s : HardwarePullerEmu) : Prop :=
  s.pc.inFlight = true ∧ s.currentEntry.method = gpuOpPdlLaunch

/-- A launch is accepted or rejected by what it returns, and each step of the puller with a PDL
entry accepts a launch or none. -/
def PdlExact (s : HardwarePullerEmu) : PdlAction → Prop
  | .simPdlLaunch args =>
    ((s.pdlLaunch args).1 = 0 →
      PdlLaunched s (s.pdlLaunch args).2 args.kernelAddr args.signalHandle) ∧
    ((s.pdlLaunch args).1 ≠ 0 → PdlRefused s (s.pdlLaunch args).2)
  | .sys (.puller stale) => s.OnPdlEntry →
    PdlLaunched s (s.pullerStep stale) s.currentEntry.kernelAddr s.currentEntry.semaphoreVa ∨
      PdlRefused s (s.pullerStep stale)
  | _ => True

/-- No open child completes, no PDL entry is dispatched to a scheduler, and a launch that is
accepted finds one. -/
def PdlHandled (x : List GpuGpfifoEntry × HardwarePullerEmu) : PdlAction → Prop
  | .simPdlLaunch args => x.2.pdl.nestCounter < maxPdlNest → args.kernelAddr ≠ 0 →
    x.2.device.scheduler.isSome = true
  | .sys (.puller _) =>
    (x.2.pc = .complete → x.2.currentEntry ∉ x.1) ∧
      (x.2.pc = .dispatch → x.2.currentEntry.method = gpuOpPdlLaunch →
        x.2.device.scheduler = none)
  | _ => True

/-! ### What the steps do -/

namespace HardwarePullerEmu

variable {s : HardwarePullerEmu}

/-- No step of the puller touches the counter. -/
theorem PullerStep.pdl {s' : HardwarePullerEmu} (h : PullerStep s s') : s'.pdl = s.pdl := by
  cases h <;> rfl

theorem EnvStep.pdl {a : Action} {s' : HardwarePullerEmu} (h : EnvStep s a s') :
    s'.pdl = s.pdl := by
  cases h <;> rfl

theorem step_pdl (s : HardwarePullerEmu) (a : Action) : (s.step a).pdl = s.pdl := by
  obtain ⟨-, h⟩ | ⟨-, h⟩ := step_cases s a
  · exact h.pdl
  · exact h.pdl

theorem finishDevice_scheduler (s : HardwarePullerEmu) :
    s.finishDevice.scheduler = s.device.scheduler := by
  unfold finishDevice Device.simFenceIdSignal
  split_ifs <;> rfl

/-- The scheduler hears of entries at DISPATCH only. -/
theorem PullerStep.scheduler {s' : HardwarePullerEmu} (h : PullerStep s s')
    (hpc : s.pc ≠ .dispatch) : s'.device.scheduler = s.device.scheduler := by
  cases h with
  | dispatch hdispatch => exact absurd hdispatch hpc
  | completeNext | completeLast | checkpointDirect | checkpointNone | checkpointLoad =>
    exact finishDevice_scheduler s
  | move | noChannel | select | resume | dequeue | exchange | fetch | blockNext | blockLast
  | release | wait | waited => rfl

/-- A PDL entry goes to the scheduler as it is. -/
theorem pullerStep_dispatch_pdl (hpc : s.pc = .dispatch)
    (hop : s.currentEntry.method = gpuOpPdlLaunch) (stale : GpuGpfifoEntry) :
    (s.pullerStep stale).device.scheduler = s.device.scheduler.map fun sch =>
      (sch.enqueue s.currentEntry (GlobalScheduler.selectEngine s.currentEntry)).2 := by
  have hcopy : s.currentEntry.method ≠ gpuOpMemcpy := by
    rw [hop]
    decide
  have hlaunch : s.currentEntry.method ≠ gpuOpLaunchKernel := by
    rw [hop]
    decide
  rw [pullerStep, hpc]
  simp only [stepDispatch, Device.execute, if_neg hcopy, if_neg hlaunch, Device.tick]
  cases s.device.scheduler with
  | none => rfl
  | some sch => rfl

theorem pdlChild_kernelAddr (s : HardwarePullerEmu) (args : PdlArgs) :
    (s.pdlChild args).kernelAddr = args.kernelAddr :=
  s.currentEntry.kernelAddr_withOperands _ _ _

/-- Every way a launch can go. -/
inductive LaunchStep (s : HardwarePullerEmu) (args : PdlArgs) : Int × HardwarePullerEmu → Prop
  | rejected {rc : Int} (hrc : rc ≠ 0)
      (h : maxPdlNest ≤ s.pdl.nestCounter ∨ args.kernelAddr = 0) : LaunchStep s args (rc, s)
  | unscheduled (hroom : s.pdl.nestCounter < maxPdlNest) (haddr : args.kernelAddr ≠ 0)
      (hsch : s.device.scheduler = none) :
      LaunchStep s args
        (0, { s with pdl := { s.pdl with nestCounter := s.pdl.nestCounter + 1 } })
  | enqueued {sch sch' : GlobalScheduler} {child signal : WorkItem} {log : List Event}
      (hroom : s.pdl.nestCounter < maxPdlNest) (haddr : args.kernelAddr ≠ 0)
      (hsch : s.device.scheduler = some sch)
      (hqueued : PdlEnqueued sch sch' args.kernelAddr args.signalHandle child signal) :
      LaunchStep s args (0, { s with
        pdl := { s.pdl with nestCounter := s.pdl.nestCounter + 1 }
        device := { s.device with scheduler := some sch' }
        log := log })

theorem launchStep_cases (s : HardwarePullerEmu) (args : PdlArgs) :
    LaunchStep s args (s.pdlLaunch args) := by
  rw [pdlLaunch, simPdlLaunch]
  by_cases hroom : maxPdlNest ≤ s.pdl.nestCounter
  · rw [if_pos hroom]
    exact .rejected (by decide) (.inl hroom)
  rw [if_neg hroom]
  by_cases haddr : args.kernelAddr = 0
  · rw [if_pos haddr]
    exact .rejected (by decide) (.inr haddr)
  rw [if_neg haddr]
  dsimp only
  cases hsch : s.device.scheduler with
  | none => exact .unscheduled (Int.not_le.mp hroom) haddr hsch
  | some sch =>
    exact .enqueued (Int.not_le.mp hroom) haddr hsch
      ⟨⟨rfl, s.pdlChild_kernelAddr args⟩, ⟨rfl, rfl⟩, ⟨rfl, rfl⟩, rfl⟩

/-! ### Which actions launch exactly -/

theorem pdlLaunch_exact_iff (s : HardwarePullerEmu) (args : PdlArgs) :
    PdlExact s (.simPdlLaunch args) ↔
      (s.pdl.nestCounter < maxPdlNest → args.kernelAddr ≠ 0 →
        s.device.scheduler.isSome = true) := by
  have hstep := launchStep_cases s args
  simp only [PdlExact]
  generalize s.pdlLaunch args = r at hstep ⊢
  cases hstep with
  | rejected hrc h =>
    refine ⟨fun _ hroom haddr => ?_, fun _ => ⟨fun hok => absurd hok hrc, fun _ => ⟨rfl, rfl⟩⟩⟩
    exact absurd h (not_or.mpr ⟨Int.not_le.mpr hroom, haddr⟩)
  | unscheduled hroom haddr hsch =>
    constructor
    · intro h
      obtain ⟨-, sch, -, -, -, hsome, -⟩ := h.1 rfl
      rw [hsch] at hsome
      cases hsome
    · intro h
      have hsome := h hroom haddr
      rw [hsch] at hsome
      cases hsome
  | enqueued hroom haddr hsch hqueued =>
    refine ⟨fun _ _ _ => ?_, fun _ => ⟨fun _ => ?_, fun hne => absurd rfl hne⟩⟩
    · rw [hsch]
      rfl
    · exact ⟨rfl, _, _, _, _, hsch, rfl, hqueued⟩

theorem pdlEntry_exact_iff (s : HardwarePullerEmu) (stale : GpuGpfifoEntry) :
    PdlExact s (.sys (.puller stale)) ↔
      (s.pc = .dispatch → s.currentEntry.method = gpuOpPdlLaunch →
        s.device.scheduler = none) := by
  have hstep := pullerStep_cases s stale
  have hpdl := congrArg PdlState.nestCounter hstep.pdl
  constructor
  · intro h hpc hop
    have hsched := pullerStep_dispatch_pdl hpc hop stale
    have hflight : s.pc.inFlight = true := by
      rw [hpc]
      rfl
    obtain ⟨hcount, -⟩ | ⟨-, hqueue⟩ := h ⟨hflight, hop⟩
    · omega
    · cases hsch : s.device.scheduler with
      | none => rfl
      | some sch =>
        -- The raw entry is one item more.
        rw [hsched, hsch] at hqueue
        have hlen := congrArg (Option.map List.length) hqueue
        simp only [Option.map_some, Option.some.injEq] at hlen
        rw [GlobalScheduler.enqueue, GlobalScheduler.enqueueWithPriority,
          (insertItem_perm _ _).length_eq, List.length_cons] at hlen
        exact absurd hlen (Nat.succ_ne_self _)
  · rintro h ⟨-, hop⟩
    refine .inr ⟨hpdl, ?_⟩
    by_cases hpc : s.pc = .dispatch
    · rw [pullerStep_dispatch_pdl hpc hop, h hpc hop]
      rfl
    · rw [hstep.scheduler hpc]

end HardwarePullerEmu

/-! ### Which runs count right -/

/-- The counter counts the open children, of which there are no more than four. -/
def ChildrenCounted (x : List GpuGpfifoEntry × HardwarePullerEmu) : Prop :=
  x.2.pdl.nestCounter = x.1.length ∧ x.2.pdl.nestCounter ≤ maxPdlNest

section Counting

variable {x : List GpuGpfifoEntry × HardwarePullerEmu}

theorem ChildrenCounted.nestCounted (h : ChildrenCounted x) : NestCounted x :=
  ⟨h.1, h.1 ▸ Int.natCast_nonneg _, h.2⟩

/-- No step of the machine changes the counter, but the completion of a child closes it. -/
theorem childrenStep_sys_iff (h : ChildrenCounted x) (stale : GpuGpfifoEntry) :
    NestCounted (childrenStep x (.sys (.puller stale))) ↔
      (x.2.pc = .complete → x.2.currentEntry ∉ x.1) := by
  obtain ⟨children, s⟩ := x
  obtain ⟨hcount, hle⟩ := h
  simp only at hcount hle
  simp only [NestCounted, observed, noteChildren, pdlStep, step_pdl]
  by_cases hpc : s.pc = .complete
  · rw [if_pos hpc]
    by_cases hmem : s.currentEntry ∈ children
    · have hpos := List.length_pos_of_mem hmem
      rw [List.length_erase_of_mem hmem]
      constructor
      · intro hnext
        omega
      · intro hnot
        exact absurd hmem (hnot hpc)
    · rw [List.erase_of_not_mem hmem]
      exact ⟨fun _ _ => hmem, fun _ => ⟨hcount, by omega, hle⟩⟩
  · rw [if_neg hpc]
    exact ⟨fun _ hcomplete => absurd hcomplete hpc, fun _ => ⟨hcount, by omega, hle⟩⟩

theorem ChildrenCounted.launch (h : ChildrenCounted x) (args : PdlArgs) :
    ChildrenCounted (childrenStep x (.simPdlLaunch args)) := by
  obtain ⟨children, s⟩ := x
  have hstep := launchStep_cases s args
  simp only [childrenStep, observed, noteChildren, pdlStep]
  generalize s.pdlLaunch args = r at hstep ⊢
  cases hstep with
  | rejected hrc =>
    rw [if_neg hrc]
    exact h
  | unscheduled hroom | enqueued hroom =>
    have hcount : s.pdl.nestCounter = children.length := h.1
    rw [if_pos rfl]
    refine ⟨?_, Int.add_one_le_of_lt hroom⟩
    simp only [hcount, List.length_cons, Int.natCast_add, Int.cast_ofNat_Int]

/-- The other parties touch neither the counter nor the children. -/
theorem ChildrenCounted.other (h : ChildrenCounted x) {a : Action}
    (hnote : noteChildren x.1 x.2 (.sys a) = x.1) : ChildrenCounted (childrenStep x (.sys a)) := by
  simp only [ChildrenCounted, observed, hnote, pdlStep, step_pdl]
  exact h

theorem ChildrenCounted.step (h : ChildrenCounted x) (a : PdlAction) (hG : PdlHandled x a) :
    ChildrenCounted (childrenStep x a) := by
  cases a with
  | useScheduler use => exact h
  | simPdlLaunch args => exact h.launch args
  | sys a =>
    cases a with
    | puller stale =>
      have hnext := (childrenStep_sys_iff h stale).mpr hG.1
      exact ⟨hnext.1, hnext.2.2⟩
    | submitBatch | channelSubmit | configure | triggerPreempt | signalBarrier | writeEntry
    | advanceWriteIdx | ringDoorbell | writeDoorbell | onDoorbell | memWrite | hostWrite =>
      exact h.other rfl

/-- What an action must do to count right and launch exactly. -/
theorem pdlHandled_iff (h : ChildrenCounted x) (a : PdlAction) :
    NestCounted (childrenStep x a) ∧ PdlExact x.2 a ↔ PdlHandled x a := by
  cases a with
  | useScheduler use => exact ⟨fun _ => trivial, fun _ => ⟨h.nestCounted, trivial⟩⟩
  | simPdlLaunch args =>
    rw [pdlLaunch_exact_iff]
    exact and_iff_right (h.launch args).nestCounted
  | sys a =>
    cases a with
    | puller stale => exact and_congr (childrenStep_sys_iff h stale) (pdlEntry_exact_iff x.2 stale)
    | submitBatch | channelSubmit | configure | triggerPreempt | signalBarrier | writeEntry
    | advanceWriteIdx | ringDoorbell | writeDoorbell | onDoorbell | memWrite | hostWrite =>
      exact ⟨fun _ => trivial, fun _ => ⟨(h.other rfl).nestCounted, trivial⟩⟩

end Counting

/-- **Nested launches.**  The counter counts the open children, and launches are exact, along the
runs in which no open child completes, no PDL entry is dispatched to a scheduler, and launches that
are accepted find one. -/
theorem pdl_nesting_iff (cfg : Config) (as : List PdlAction) :
    (Always childrenStep NestCounted ([], init cfg) as ∧
        Guarded childrenStep (fun x => PdlExact x.2) ([], init cfg) as) ↔
      Guarded childrenStep PdlHandled ([], init cfg) as := by
  have hinit : ChildrenCounted ([], init cfg) := ⟨rfl, Int.zero_le_ofNat 4⟩
  exact always_guarded_iff (fun _ a h hG => h.step a hG) (fun _ h => h.nestCounted)
    (fun _ a h hG => ((pdlHandled_iff h a).mpr hG).2)
    (fun _ a h hnext hexact => (pdlHandled_iff h a).mp ⟨hnext, hexact⟩) as hinit

/-- A machine with one queue and a scheduler. -/
def Config.launching : Config :=
  { Config.bare with
    activeQueues := [0]
    scheduler := some (.create false fun _ => none) }

/-- The first launch, and its child from the scheduler's queue to the ring. -/
def launchOne : List PdlAction :=
  [.simPdlLaunch ⟨0x1000, 0x2000, 1, 32, 0x3000, 1⟩,
    .useScheduler fun sch => { sch with queue := [] },
    .sys (.writeEntry 0 ((init Config.launching).pdlChild ⟨0x1000, 0x2000, 1, 32, 0x3000, 1⟩)),
    .sys (.advanceWriteIdx 0), .sys (.ringDoorbell 0), .sys .onDoorbell]

/-- When the child has completed, it still counts. -/
theorem pdl_nesting_fails :
    ¬(Always childrenStep NestCounted ([], init Config.launching)
        (launchOne ++ (pulls 7).map PdlAction.sys) ∧
      Guarded childrenStep (fun x => PdlExact x.2) ([], init Config.launching)
        (launchOne ++ (pulls 7).map PdlAction.sys)) := by
  rintro ⟨h, -⟩
  have hlast := h.last.1
  revert hlast
  decide +kernel

end UsrLinuxEmu.GpuDriver
