import UsrLinuxEmu.GpuDriver.EntryFlow

/-!
# Which entries launch kernels

The launch callback sits in the translator, and the scheduler translates every entry it queues,
whatever its method; a LAUNCH_KERNEL entry with the release flag never reaches the translator.

* `LaunchExact` — one callback for each completed LAUNCH_KERNEL entry, none for others, in entry
  order;
* `LaunchClean` — the entries for which the pipeline agrees;
* `launch_exact_iff` — a run is exact exactly when all entries it completes are clean.
-/

namespace UsrLinuxEmu.GpuDriver

open UsrLinuxEmu.Transition HardwarePullerEmu

/-- The number of callbacks an entry is meant to cause. -/
def expectedLaunches (e : GpuGpfifoEntry) : ℕ := if e.method = gpuOpLaunchKernel then 1 else 0

/-- Finished entries have caused the callbacks they are meant to, in entry order (the history is
newest first). -/
def LaunchExact (cfg : Config) (as : List Action) : Prop :=
  (∀ n src e, .completed n src e ∈ (after cfg as).log →
      (tally n (after cfg as).log).launches = expectedLaunches e) ∧
    (∀ n src e, .blocked n src e ∈ (after cfg as).log →
      (tally n (after cfg as).log).launches = 0) ∧
    (launchOrder (after cfg as).log).Pairwise (· ≥ ·)

/-- A LAUNCH_KERNEL entry is clean when it has no release flag and its translation makes one call;
any other entry is when it is copied, skips DISPATCH, or translates to no call. -/
def LaunchClean (e : GpuGpfifoEntry) : Prop :=
  if e.method = gpuOpLaunchKernel then e.release = false ∧ e.callbackCount = 1
  else e.method = gpuOpMemcpy ∨ (e.release = true ∧ e.isSemOp = false) ∨ e.callbackCount = 0

theorem launch_not_semOp {e : GpuGpfifoEntry} (h : e.method = gpuOpLaunchKernel) :
    e.isSemOp = false ∧ e.method ≠ gpuOpMemcpy := by
  refine ⟨?_, ?_⟩
  · simp only [GpuGpfifoEntry.isSemOp, h]
    decide
  · rw [h]
    decide

/-- With a callback registered, a finished entry's tally is right exactly when it is clean. -/
theorem finalTally_launches_iff (e : GpuGpfifoEntry) :
    (finalTally true e).launches = expectedLaunches e ↔ LaunchClean e := by
  have hfinal : (finalTally true e).launches =
      if viaSemaphore e then 0 else if e.method = gpuOpMemcpy then 0 else e.callbackCount := by
    rw [finalTally, midTally, launchCalls]
    cases viaSemaphore e <;> simp only [Bool.false_eq_true, if_false, if_true] <;>
      exact Nat.zero_add _
  rw [hfinal, LaunchClean, expectedLaunches]
  by_cases hlaunch : e.method = gpuOpLaunchKernel
  · obtain ⟨hop, hmem⟩ := launch_not_semOp hlaunch
    cases hrel : e.release <;> simp [viaSemaphore, hop, hmem, hrel, if_pos hlaunch]
  · rw [if_neg hlaunch, if_neg hlaunch]
    by_cases hmem : e.method = gpuOpMemcpy
    · simp [hmem]
    · cases hrel : e.release <;> cases hop : e.isSemOp <;> simp [viaSemaphore, hop, hmem, hrel]

/-- **Launch exactness.**  With a launch callback registered, the callbacks of a run match its
finished entries, in order, if and only if every entry it completes is clean. -/
theorem launch_exact_iff (cfg : Config) (as : List Action)
    (hcb : (init cfg).device.launchRegistered = true) :
    LaunchExact cfg as ↔
      ∀ n src e, .completed n src e ∈ (after cfg as).log → LaunchClean e := by
  have hflow := flow_run cfg as
  rw [hcb] at hflow
  constructor
  · rintro ⟨hexact, -, -⟩ n src e hdone
    have htally := hexact n src e hdone
    rw [hflow.completed n src e hdone] at htally
    exact (finalTally_launches_iff e).mp htally
  · intro hclean
    refine ⟨fun n src e hdone => ?_, fun n src e hblocked => ?_, hflow.ordered⟩
    · rw [hflow.completed n src e hdone]
      exact (finalTally_launches_iff e).mpr (hclean n src e hdone)
    · rw [hflow.blocked n src e hblocked]
      rfl

/-- A machine with one ring and a scheduler whose launch callback is registered. -/
def launchConfig : Config :=
  { Config.bare with activeQueues := [1], scheduler := some (.create true fun _ => none) }

/-- A valid entry in the native format. -/
def nativeEntry (method : BitVec 12) : GpuGpfifoEntry :=
  { GpuGpfifoEntry.zero with valid := true, method := method }

/-- One entry goes through the ring of queue 1. -/
def ringRun (e : GpuGpfifoEntry) : List Action :=
  [.writeEntry 1 e, .advanceWriteIdx 1, .ringDoorbell 1, .onDoorbell] ++ pulls 7

/-- The entry that the event completes. -/
def Event.completed? : Event → Option GpuGpfifoEntry
  | .completed _ _ e => some e
  | _ => none

/-- A native LAUNCH_KERNEL entry is clean, and its run exact. -/
theorem launch_exact_native :
    LaunchExact launchConfig (ringRun (nativeEntry gpuOpLaunchKernel)) := by
  refine (launch_exact_iff _ _ (by decide +kernel)).mpr fun n src e hdone => ?_
  have hall : ∀ ev ∈ (after launchConfig (ringRun (nativeEntry gpuOpLaunchKernel))).log,
      ev.completed? = none ∨ ev.completed? = some (nativeEntry gpuOpLaunchKernel) := by
    decide +kernel
  obtain hnone | hsome := hall _ hdone
  · cases hnone
  · obtain rfl := Option.some.inj hsome
    exact ⟨rfl, by decide +kernel⟩

/-- A MEMSET entry launches a kernel. -/
theorem launch_exact_fails :
    ¬ LaunchExact launchConfig (ringRun (nativeEntry gpuOpMemset)) := by
  rintro ⟨hexact, -, -⟩
  have hdone : Event.completed 1 (.ring 1) (nativeEntry gpuOpMemset) ∈
      (after launchConfig (ringRun (nativeEntry gpuOpMemset))).log := by
    decide +kernel
  have hlaunch := hexact _ _ _ hdone
  revert hlaunch
  decide +kernel

end UsrLinuxEmu.GpuDriver
