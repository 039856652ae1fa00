import UsrLinuxEmu.GpuDriver.EnvStep
import UsrLinuxEmu.Transition.CondVar
import UsrLinuxEmu.Transition.Progress

/-!
# The puller's thread asleep (`runLoop`, `stop`, `onDoorbell`)

The machine of `PullerSystem` polls: its thread may always take a step.  Here the thread sleeps in
`cv_` while the predicate of its wait is false, callers store `doorbell_pending_` first and take the
mutex to wake it later, and `stop` asks it to leave `runLoop`.

* `PullerThread` / `wakeStep` — the polling machine, the condition variable, and the callers that
  have not woken the thread yet;
* `pullerThread_wakes` — the thread sleeps only where polling would change nothing, up to the
  wake-ups still owed, so that it does what the polling machine does;
* `pullerThread_stops` — after `stop` it leaves within a fixed number of its own steps.
-/

namespace UsrLinuxEmu.GpuDriver

open UsrLinuxEmu.Transition

/-- The states in which the thread is at the top of `runLoop`. -/
def Pc.loopTop : Pc → Bool
  | .scanQueues _ | .exchange | .waitSemaphore => false
  | .idle | .channelSwitch | .fetch | .decode | .schedule | .dispatch | .semaphore | .complete =>
    true

namespace HardwarePullerEmu

/-- A doorbell that the predicate of `runLoop`'s wait sees. -/
def Due (s : HardwarePullerEmu) : Bool := s.queues.doorbellPending || s.queues.doorbell.poll 0

/-- The thread is at a wait whose predicate is false, `running_` apart. -/
def Blocks (s : HardwarePullerEmu) : Bool :=
  match s.pc with
  | .idle => !s.Due
  | .waitSemaphore =>
    !(s.waiter.signaled || decide (s.waiter.value ≤ s.device.hal.readU32 s.waiter.va))
  | _ => false

/-- The wake-ups that an action of another party leaves to be made: `onDoorbell` and `submitBatch`
take the mutex only after they have stored `doorbell_pending_`. -/
def owes (s : HardwarePullerEmu) : Action → ℕ
  | .onDoorbell => if s.queues.callbacks = 0 then 0 else 1
  | .submitBatch _ => if s.channelMgr.isSome then 1 else 0
  | _ => 0

end HardwarePullerEmu

open HardwarePullerEmu

/-- `owed` counts the callers between their store and their `notify_one`. -/
structure PullerThread where
  base : HardwarePullerEmu
  running : Bool
  cv : CondVar Unit
  exited : Bool
  owed : ℕ

inductive WakeAction where
  | puller (stale : GpuGpfifoEntry)
  | other (a : Action)
  /-- A caller takes the mutex, wakes the thread and returns. -/
  | notifyOne
  | spurious
  /-- The lock region of `stop`, before it joins the thread. -/
  | stop

namespace PullerThread

/-- After `start`. -/
def init (cfg : Config) : PullerThread := ⟨HardwarePullerEmu.init cfg, true, .empty, false, 0⟩

/-- The thread, when it has the mutex. -/
def proceed (t : PullerThread) (stale : GpuGpfifoEntry) : PullerThread :=
  if t.base.pc.loopTop && !t.running then { t with exited := true }
  else if t.base.Blocks then
    if t.running then { t with cv := t.cv.sleep () }
    -- `waitSemaphore` gives up, and `runLoop` goes back to IDLE
    else { t with base := { t.base with waiter := { t.base.waiter with va := 0 }, pc := .idle } }
  else { t with base := t.base.pullerStep stale }

def puller (t : PullerThread) (stale : GpuGpfifoEntry) : PullerThread :=
  if t.exited || decide (() ∈ t.cv.asleep) then t
  else { t with cv := t.cv.relock () .noTimeout }.proceed stale

def other (t : PullerThread) (a : Action) : PullerThread :=
  if a.isPuller then t
  else { t with base := step t.base a, owed := t.owed + t.base.owes a }

def notifyOne (t : PullerThread) : PullerThread :=
  match t.owed with
  | 0 => t
  | n + 1 => { t with cv := t.cv.wake () .noTimeout, owed := n }

def stop (t : PullerThread) : PullerThread :=
  if t.running then { t with running := false, cv := t.cv.notifyAll } else t

def wakeStep (t : PullerThread) : WakeAction → PullerThread
  | .puller stale => t.puller stale
  | .other a => t.other a
  | .notifyOne => t.notifyOne
  | .spurious => { t with cv := t.cv.wake () .noTimeout }
  | .stop => t.stop

end PullerThread

/-! ### What the polling machine keeps -/

namespace HardwarePullerEmu

/-- The path into SEMAPHORE: only releases get there, so nobody waits on a semaphore's memory. -/
def OnPath (s : HardwarePullerEmu) : Prop :=
  s.pc ≠ .waitSemaphore ∧ (s.pc = .semaphore → s.currentEntry.release = true)

/-- The scan in hand is what is left of the queues. -/
def Scans (s : HardwarePullerEmu) : Prop :=
  ∀ rest, s.pc = .scanQueues rest → rest.length ≤ s.queues.activeQueues.length

theorem PullerStep.onPath {s s' : HardwarePullerEmu} (h : PullerStep s s') (hs : s.OnPath) :
    s'.OnPath := by
  cases h with
  | move hm =>
    cases hm with
    | toSemaphore hpc hop hrel => exact ⟨nofun, fun _ => hrel⟩
    | stillWaiting hpc => exact absurd hpc hs.1
    | _ => exact ⟨nofun, nofun⟩
  | wait hpc hrel w =>
    rw [hs.2 hpc] at hrel
    cases hrel
  | _ => exact ⟨nofun, nofun⟩

theorem EnvStep.samePlace {s s' : HardwarePullerEmu} {a : Action} (h : EnvStep s a s') :
    s'.pc = s.pc ∧ s'.currentEntry = s.currentEntry := by
  cases h <;> exact ⟨rfl, rfl⟩

theorem PullerStep.activeQueues {s s' : HardwarePullerEmu} (h : PullerStep s s') :
    s'.queues.activeQueues = s.queues.activeQueues := by
  cases h <;> rfl

theorem env_activeQueues (s : HardwarePullerEmu) {a : Action} (ha : a.isPuller = false) :
    (step s a).queues.activeQueues = s.queues.activeQueues := by
  cases a with
  | puller stale => exact absurd ha (by simp [Action.isPuller])
  | submitBatch b =>
    simp only [step, submitBatch, acceptBatch]
    split
    · split <;> rfl
    · rfl
  | channelSubmit c b =>
    simp only [step, channelSubmit, acceptBatch]
    split
    · split <;> rfl
    · rfl
  | writeEntry q e => simp only [step, writeEntry]; split <;> rfl
  | advanceWriteIdx q => simp only [step, advanceWriteIdx]; split <;> rfl
  | ringDoorbell q => simp only [step, ringDoorbell]; split <;> rfl
  | writeDoorbell q => simp only [step, writeDoorbell]; split <;> rfl
  | onDoorbell => simp only [step, onDoorbell]; split <;> rfl
  | _ => rfl

theorem PullerStep.scans {s s' : HardwarePullerEmu} (h : PullerStep s s') (hs : s.Scans) :
    s'.Scans := by
  intro rest hrest
  rw [h.activeQueues]
  cases h with
  | move hm =>
    cases hm with
    | noManager hpc hmgr =>
      obtain rfl := Pc.scanQueues.inj hrest
      exact Nat.le_refl _
    | scanEmpty hpc hq =>
      obtain rfl := Pc.scanQueues.inj hrest
      exact Nat.le_of_succ_le (hs _ hpc)
    | _ => exact absurd hrest nofun
  | noChannel hpc hm hnext =>
    obtain rfl := Pc.scanQueues.inj hrest
    exact Nat.le_refl _
  | _ => exact absurd hrest nofun

theorem onPath_step {s : HardwarePullerEmu} (hs : s.OnPath) (a : Action) : (step s a).OnPath := by
  obtain ⟨-, h⟩ | ⟨-, h⟩ := step_cases s a
  · exact h.onPath hs
  · rw [OnPath, h.samePlace.1, h.samePlace.2]
    exact hs

theorem scans_step {s : HardwarePullerEmu} (hs : s.Scans) (a : Action) : (step s a).Scans := by
  obtain ⟨-, h⟩ | ⟨ha, h⟩ := step_cases s a
  · exact h.scans hs
  · rw [Scans, h.samePlace.1, env_activeQueues s ha]
    exact hs

/-! ### Doorbells and the callers behind them -/

/-- A caller that has entered its callback wakes the thread sooner or later. -/
theorem callbacks_le (s : HardwarePullerEmu) {a : Action} (ha : a.isPuller = false) :
    s.queues.callbacks ≤ (step s a).queues.callbacks + s.owes a := by
  cases a with
  | puller stale => exact absurd ha (by simp [Action.isPuller])
  | submitBatch b =>
    simp only [step, submitBatch, acceptBatch]
    split
    · split <;> exact Nat.le_add_right _ _
    · exact Nat.le_add_right _ _
  | channelSubmit c b =>
    simp only [step, channelSubmit, acceptBatch]
    split
    · split <;> exact Nat.le_add_right _ _
    · exact Nat.le_add_right _ _
  | writeEntry q e => simp only [step, writeEntry]; split <;> exact Nat.le_add_right _ _
  | advanceWriteIdx q => simp only [step, advanceWriteIdx]; split <;> exact Nat.le_add_right _ _
  | ringDoorbell q =>
    simp only [step, ringDoorbell]
    split
    · exact Nat.le_succ _
    · exact Nat.le_add_right _ _
  | writeDoorbell q =>
    simp only [step, writeDoorbell]
    split
    · exact Nat.le_succ _
    · exact Nat.le_add_right _ _
  | onDoorbell =>
    simp only [step, onDoorbell, owes]
    split
    · exact Nat.le_add_right _ _
    · rename_i n hn
      rw [if_neg (by omega), hn]
  | _ => exact Nat.le_add_right _ _

/-- Whoever makes a doorbell due is on its way to wake the thread. -/
theorem due_step (s : HardwarePullerEmu) {a : Action} (ha : a.isPuller = false)
    (hdue : (step s a).Due = true) :
    s.Due = true ∨ 0 < (step s a).queues.callbacks + s.owes a := by
  cases a with
  | puller stale => exact absurd ha (by simp [Action.isPuller])
  | submitBatch b =>
    cases hm : s.channelMgr with
    | none =>
      simp only [step, submitBatch, hm] at hdue
      exact .inl hdue
    | some m =>
      refine .inr (Nat.lt_of_lt_of_le Nat.zero_lt_one ?_)
      simp only [owes, hm, Option.isSome_some, if_true]
      exact Nat.le_add_left _ _
  | channelSubmit c b =>
    refine .inl ?_
    simp only [step, channelSubmit, acceptBatch] at hdue
    split at hdue
    · split at hdue <;> exact hdue
    · exact hdue
  | writeEntry q e =>
    simp only [step, writeEntry] at hdue
    split at hdue <;> exact .inl hdue
  | advanceWriteIdx q =>
    simp only [step, advanceWriteIdx] at hdue
    split at hdue <;> exact .inl hdue
  | ringDoorbell q =>
    simp only [step, ringDoorbell] at hdue ⊢
    split
    · exact .inr (Nat.succ_pos _)
    · rename_i hq
      rw [if_neg hq] at hdue
      exact .inl hdue
  | writeDoorbell q =>
    simp only [step, writeDoorbell] at hdue ⊢
    split
    · exact .inr (Nat.succ_pos _)
    · rename_i hq
      rw [hq] at hdue
      exact .inl hdue
  | onDoorbell =>
    by_cases hcb : s.queues.callbacks = 0
    · simp only [step, onDoorbell, hcb] at hdue
      exact .inl hdue
    · refine .inr (Nat.lt_of_lt_of_le Nat.zero_lt_one ?_)
      simp only [owes, if_neg hcb]
      exact Nat.le_add_left _ _
  | _ => exact .inl hdue

end HardwarePullerEmu

/-! ### The sleeping thread -/

namespace PullerThread

structure Inv (t : PullerThread) : Prop where
  path : t.base.OnPath
  scans : t.base.Scans
  left : t.exited = true → t.running = false
  single : t.cv.asleep.length ≤ 1
  sleeps : () ∈ t.cv.asleep → t.base.pc = .idle ∧ t.running = true ∧ t.exited = false
  armed : () ∈ t.cv.asleep → t.base.Due = true → 0 < t.base.queues.callbacks + t.owed

/-- A thread that does not sleep has nobody to wait for. -/
theorem Inv.of_awake {t : PullerThread} (hpath : t.base.OnPath) (hscans : t.base.Scans)
    (hleft : t.exited = true → t.running = false) (hcv : t.cv.asleep = []) : t.Inv where
  path := hpath
  scans := hscans
  left := hleft
  single := by rw [hcv]; exact Nat.zero_le _
  sleeps h := absurd h (by simp [hcv])
  armed h := absurd h (by simp [hcv])

theorem inv_init (cfg : Config) : (init cfg).Inv :=
  .of_awake ⟨nofun, nofun⟩ nofun nofun rfl

/-- The only sleeper is woken. -/
theorem asleep_wake {cv : CondVar Unit} (h : cv.asleep.length ≤ 1) (status : CvStatus) :
    (cv.wake () status).asleep = [] := by
  by_cases hmem : () ∈ cv.asleep
  · rw [CondVar.wake, if_pos hmem]
    apply List.length_eq_zero_iff.mp
    rw [List.length_erase_of_mem hmem]
    omega
  · rw [CondVar.wake, if_neg hmem]
    exact List.eq_nil_iff_forall_not_mem.mpr fun _ => hmem

/-- The thread blocks at IDLE only. -/
theorem blocks_iff {s : HardwarePullerEmu} (h : s.OnPath) :
    s.Blocks = true ↔ s.pc = .idle ∧ s.Due = false := by
  unfold Blocks
  cases hpc : s.pc with
  | idle => simp
  | waitSemaphore => exact absurd hpc h.1
  | _ => simp

theorem Inv.proceed {t : PullerThread} (h : t.Inv) (hex : t.exited = false)
    (hcv : t.cv.asleep = []) (stale : GpuGpfifoEntry) : (t.proceed stale).Inv := by
  unfold PullerThread.proceed
  split_ifs with htop hblocks hrun
  · rw [Bool.and_eq_true] at htop
    have hstop : t.running = false := by simpa using htop.2
    exact .of_awake h.path h.scans (fun _ => hstop) hcv
  · obtain ⟨hpc, hdue⟩ := (blocks_iff h.path).mp hblocks
    refine ⟨h.path, h.scans, h.left, ?_, fun _ => ⟨hpc, hrun, hex⟩, fun _ hdue' => ?_⟩
    · simp [CondVar.sleep, hcv]
    · exact absurd (hdue'.symm.trans hdue) (by simp)
  · -- a thread that blocks at IDLE has left the loop
    obtain ⟨hpc, -⟩ := (blocks_iff h.path).mp hblocks
    exact absurd htop (by simp [hpc, Pc.loopTop, hrun])
  · exact .of_awake (onPath_step h.path (.puller stale)) (scans_step h.scans (.puller stale))
      h.left hcv

theorem Inv.puller {t : PullerThread} (h : t.Inv) (stale : GpuGpfifoEntry) :
    (t.puller stale).Inv := by
  unfold PullerThread.puller
  split_ifs with hstay
  · exact h
  · simp only [Bool.or_eq_true, decide_eq_true_eq, not_or, Bool.not_eq_true] at hstay
    have hcv : t.cv.asleep = [] :=
      List.eq_nil_iff_forall_not_mem.mpr fun _ => hstay.2
    exact (Inv.of_awake h.path h.scans h.left hcv :
      Inv { t with cv := t.cv.relock () .noTimeout }).proceed hstay.1 hcv stale

theorem Inv.other {t : PullerThread} (h : t.Inv) (a : Action) : (t.other a).Inv := by
  unfold PullerThread.other
  split_ifs with ha
  · exact h
  · have ha : a.isPuller = false := by simpa using ha
    refine ⟨onPath_step h.path a, scans_step h.scans a, h.left, h.single, fun hmem => ?_,
      fun hmem hdue => ?_⟩
    · obtain ⟨hpc, hrest⟩ := h.sleeps hmem
      exact ⟨(envStep_cases t.base ha).samePlace.1.trans hpc, hrest⟩
    · show 0 < (step t.base a).queues.callbacks + (t.owed + t.base.owes a)
      have hle := callbacks_le t.base ha
      obtain hold | hnew := due_step t.base ha hdue
      · have hpos := h.armed hmem hold
        omega
      · omega

theorem Inv.wakeStep {t : PullerThread} (h : t.Inv) (a : WakeAction) : (t.wakeStep a).Inv := by
  cases a with
  | puller stale => exact h.puller stale
  | other a => exact h.other a
  | notifyOne =>
    simp only [PullerThread.wakeStep, PullerThread.notifyOne]
    split
    · exact h
    · exact .of_awake h.path h.scans h.left (asleep_wake h.single .noTimeout)
  | spurious => exact .of_awake h.path h.scans h.left (asleep_wake h.single .noTimeout)
  | stop =>
    simp only [PullerThread.wakeStep, PullerThread.stop]
    split
    · exact .of_awake h.path h.scans (fun _ => rfl) rfl
    · exact h

theorem inv_run (cfg : Config) (as : List WakeAction) : (run wakeStep (init cfg) as).Inv :=
  run_of_inductive (I := Inv) (fun _ a ht _ => Inv.wakeStep ht a) (inv_init cfg)
    (guarded_trivial _ _ _)

end PullerThread

/-! ### It does what the polling machine does -/

/-- What the polling machine may do at an action. -/
def WakeAction.polled : WakeAction → List Action
  | .puller stale => [.puller stale]
  | .other a => if a.isPuller then [] else [a]
  | .notifyOne | .spurious | .stop => []

/-- The actions of the other parties. -/
def others (as : List Action) : List Action := as.filter fun a => !a.isPuller

namespace PullerThread

/-- Where the thread acts at all, it acts as the polling machine. -/
theorem base_puller {t : PullerThread} (h : t.Inv) (stale : GpuGpfifoEntry) :
    (t.puller stale).base = t.base ∨ (t.puller stale).base = t.base.pullerStep stale := by
  unfold PullerThread.puller PullerThread.proceed
  split_ifs with hstay htop hblocks hrun
  · exact .inl rfl
  · exact .inl rfl
  · exact .inl rfl
  · obtain ⟨hpc, -⟩ := (blocks_iff h.path).mp hblocks
    have hstop : t.running = false := by simpa using hrun
    exact absurd htop (by simp [hpc, Pc.loopTop, hstop])
  · exact .inr rfl

/-- A running thread that does not act has nothing to do, or is about to be woken. -/
theorem base_puller_running {t : PullerThread} (h : t.Inv) (hrun : t.running = true)
    (stale : GpuGpfifoEntry) :
    (t.puller stale).base = t.base.pullerStep stale ∨
      () ∈ t.cv.asleep ∧ 0 < t.base.queues.callbacks + t.owed := by
  have hidle (hpc : t.base.pc = .idle) (hdue : t.base.Due = false) :
      t.base.pullerStep stale = t.base := by
    have hdue : (t.base.queues.doorbellPending || t.base.queues.doorbell.poll 0) = false := hdue
    simp only [pullerStep, hpc, stepIdle, hdue, Bool.false_eq_true, if_false]
  have hex : t.exited = false := by
    cases hex : t.exited with
    | false => rfl
    | true =>
      have hstop := h.left hex
      rw [hrun] at hstop
      cases hstop
  by_cases hmem : () ∈ t.cv.asleep
  · cases hdue : t.base.Due with
    | true => exact .inr ⟨hmem, h.armed hmem hdue⟩
    | false =>
      refine .inl ?_
      rw [hidle (h.sleeps hmem).1 hdue, PullerThread.puller, if_pos (by simp [hmem])]
  · refine .inl ?_
    rw [PullerThread.puller, if_neg (by simp [hex, hmem]), PullerThread.proceed]
    simp only [hrun, Bool.not_true, Bool.and_false, Bool.false_eq_true, if_false, if_true]
    split_ifs with hblocks
    · obtain ⟨hpc, hdue⟩ := (blocks_iff h.path).mp hblocks
      exact (hidle hpc hdue).symm
    · rfl

theorem base_wakeStep {t : PullerThread} (h : t.Inv) (a : WakeAction) :
    ∃ bs, bs.Sublist a.polled ∧ others bs = others a.polled ∧
      (t.wakeStep a).base = run step t.base bs := by
  cases a with
  | puller stale =>
    obtain hsame | hstep := base_puller h stale
    · exact ⟨[], List.nil_sublist _, rfl, hsame⟩
    · exact ⟨[.puller stale], List.Sublist.refl _, rfl, hstep⟩
  | other a =>
    refine ⟨(WakeAction.other a).polled, List.Sublist.refl _, rfl, ?_⟩
    simp only [PullerThread.wakeStep, PullerThread.other, WakeAction.polled]
    split <;> rfl
  | notifyOne =>
    refine ⟨[], List.nil_sublist _, rfl, ?_⟩
    simp only [PullerThread.wakeStep, PullerThread.notifyOne]
    split <;> rfl
  | spurious => exact ⟨[], List.nil_sublist _, rfl, rfl⟩
  | stop =>
    refine ⟨[], List.nil_sublist _, rfl, ?_⟩
    simp only [PullerThread.wakeStep, PullerThread.stop]
    split <;> rfl

theorem base_run {t : PullerThread} (h : t.Inv) (as : List WakeAction) :
    ∃ bs, bs.Sublist (as.flatMap WakeAction.polled) ∧
      others bs = others (as.flatMap WakeAction.polled) ∧
      (run wakeStep t as).base = run step t.base bs := by
  induction as generalizing t with
  | nil => exact ⟨[], List.Sublist.refl _, rfl, rfl⟩
  | cons a as ih =>
    obtain ⟨bs, hsub, hothers, hbase⟩ := base_wakeStep h a
    obtain ⟨bs', hsub', hothers', hbase'⟩ := ih (Inv.wakeStep h a)
    refine ⟨bs ++ bs', hsub.append hsub', ?_, ?_⟩
    · simp only [others, List.filter_append, List.flatMap_cons] at hothers hothers' ⊢
      rw [hothers, hothers']
    · rw [run_cons, hbase', hbase, run_append]

/-! ### It stops -/

/-- The steps of its own that a thread takes before it is back at the top of `runLoop` and out. -/
def ownSteps : Pc → ℕ
  | .scanQueues rest => rest.length + 3
  | .exchange | .waitSemaphore => 2
  | _ => 1

/-- The steps left to a thread that has been asked to stop. -/
def stepsLeft (t : PullerThread) : ℕ := if t.exited then 0 else ownSteps t.base.pc

theorem ownSteps_pullerStep {s : HardwarePullerEmu} (hpath : s.OnPath)
    (htop : s.pc.loopTop = false) (stale : GpuGpfifoEntry) :
    ownSteps (s.pullerStep stale).pc < ownSteps s.pc := by
  cases hpc : s.pc with
  | scanQueues rest =>
    cases rest with
    | nil => simp [pullerStep, hpc, stepScanQueues, goto, ownSteps]
    | cons q rest =>
      simp only [pullerStep, hpc, stepScanQueues]
      cases (s.queues.queue q).dequeue with
      | none => simp [goto, ownSteps]
      | some r => simp [take, ownSteps]
  | exchange =>
    simp only [pullerStep, hpc, stepExchange]
    split <;> simp [goto, ownSteps]
  | waitSemaphore => exact absurd hpc hpath.1
  | _ => exact absurd htop (by simp [hpc, Pc.loopTop])

theorem stepsLeft_puller {t : PullerThread} (h : t.Inv) (hstop : t.running = false)
    (stale : GpuGpfifoEntry) : (t.puller stale).stepsLeft ≤ t.stepsLeft - 1 := by
  have hawake : () ∉ t.cv.asleep := by
    intro hmem
    have hrun := (h.sleeps hmem).2.1
    rw [hstop] at hrun
    cases hrun
  cases hex : t.exited with
  | true => simp [PullerThread.puller, hex, stepsLeft]
  | false =>
    cases htop : t.base.pc.loopTop with
    | true => simp [PullerThread.puller, PullerThread.proceed, hex, hawake, htop, hstop, stepsLeft]
    | false =>
      have hblocks : t.base.Blocks = false := by
        cases hb : t.base.Blocks with
        | false => rfl
        | true =>
          rw [((blocks_iff h.path).mp hb).1] at htop
          cases htop
      have hlt := ownSteps_pullerStep h.path htop stale
      simp only [PullerThread.puller, PullerThread.proceed, hex, hawake, htop, hblocks, stepsLeft,
        Bool.false_or, decide_false, Bool.false_and, Bool.false_eq_true, if_false]
      omega

theorem stepsLeft_other {t : PullerThread} {a : WakeAction} (ha : ∀ stale, a ≠ .puller stale) :
    (t.wakeStep a).stepsLeft = t.stepsLeft := by
  cases a with
  | puller stale => exact absurd rfl (ha stale)
  | other a =>
    simp only [PullerThread.wakeStep, PullerThread.other]
    split_ifs with hp
    · rfl
    · have hpc := (envStep_cases t.base (a := a) (by simpa using hp)).samePlace.1
      simp only [stepsLeft, hpc]
  | notifyOne =>
    simp only [PullerThread.wakeStep, PullerThread.notifyOne]
    split <;> rfl
  | spurious => rfl
  | stop =>
    simp only [PullerThread.wakeStep, PullerThread.stop]
    split <;> rfl

theorem running_wakeStep {t : PullerThread} (hstop : t.running = false) (a : WakeAction) :
    (t.wakeStep a).running = false := by
  cases a with
  | puller stale =>
    simp only [PullerThread.wakeStep, PullerThread.puller, PullerThread.proceed]
    split_ifs <;> exact hstop
  | other a =>
    simp only [PullerThread.wakeStep, PullerThread.other]
    split <;> exact hstop
  | notifyOne =>
    simp only [PullerThread.wakeStep, PullerThread.notifyOne]
    split <;> exact hstop
  | spurious => exact hstop
  | stop => simp only [PullerThread.wakeStep, PullerThread.stop, hstop, Bool.false_eq_true, if_false]

end PullerThread

/-- The puller's own steps in a run. -/
def pullerSteps (as : List WakeAction) : ℕ :=
  as.countP fun a => match a with
    | .puller _ => true
    | _ => false

theorem PullerThread.stepsLeft_run {t : PullerThread} (h : t.Inv) (hstop : t.running = false)
    (bs : List WakeAction) :
    (run wakeStep t bs).stepsLeft ≤ t.stepsLeft - pullerSteps bs := by
  rw [pullerSteps, ← stepsTaken_eq_countP wakeStep _ t]
  refine measure_run (I := fun t => t.Inv ∧ t.running = false)
    (fun _ a hI _ => ⟨hI.1.wakeStep a, running_wakeStep hI.2 a⟩) (fun t a hI _ => ?_)
    ⟨h, hstop⟩ (guarded_trivial wakeStep t bs)
  by_cases ha : ∃ stale, a = .puller stale
  · obtain ⟨stale, rfl⟩ := ha
    exact stepsLeft_puller hI.1 hI.2 stale
  · rw [stepsLeft_other fun stale heq => ha ⟨stale, heq⟩]
    cases a with
    | puller stale => exact absurd ⟨stale, rfl⟩ ha
    | _ => exact Nat.le_refl _

theorem PullerThread.activeQueues_run (cfg : Config) (as : List WakeAction) :
    (run wakeStep (PullerThread.init cfg) as).base.queues.activeQueues = cfg.activeQueues := by
  obtain ⟨bs, -, -, hbase⟩ := base_run (inv_init cfg) as
  have hstep (s : HardwarePullerEmu) (a : Action) :
      (step s a).queues.activeQueues = s.queues.activeQueues := by
    obtain ⟨-, h⟩ | ⟨ha, -⟩ := step_cases s a
    · exact h.activeQueues
    · exact env_activeQueues s ha
  have hrun : (after cfg bs).queues.activeQueues = cfg.activeQueues :=
    run_of_inductive (I := fun s => s.queues.activeQueues = cfg.activeQueues)
      (fun s a hs _ => (hstep s a).trans hs) rfl (guarded_trivial _ _ _)
  rw [hbase]
  exact hrun

open PullerThread in
/-- **No doorbell is lost.**  The thread sleeps at IDLE only.  The sleeping machine goes through
states of the polling one, with every action of the other parties in its place; and as long as
`stop` has not been called, a step of the thread is the polling machine's step, unless the thread
is asleep and a caller is still to wake it. -/
theorem pullerThread_wakes (cfg : Config) (as : List WakeAction) :
    let t := run wakeStep (PullerThread.init cfg) as
    (() ∈ t.cv.asleep → t.base.pc = .idle) ∧
      (∃ bs, bs.Sublist (as.flatMap WakeAction.polled) ∧
        others bs = others (as.flatMap WakeAction.polled) ∧ t.base = after cfg bs) ∧
      (t.running = true → ∀ stale,
        (t.wakeStep (.puller stale)).base = step t.base (.puller stale) ∨
          () ∈ t.cv.asleep ∧ 0 < t.base.queues.callbacks + t.owed) := by
  have hinv := inv_run cfg as
  exact ⟨fun hmem => (hinv.sleeps hmem).1, base_run (inv_init cfg) as,
    fun hrun stale => base_puller_running hinv hrun stale⟩

open PullerThread in
/-- **`stop` returns.**  Once `running_` is false, the thread that `stop` joins is out of `runLoop`
after three more of its own steps than there are queues, whatever the other parties do. -/
theorem pullerThread_stops (cfg : Config) (as bs : List WakeAction)
    (hstop : (run wakeStep (PullerThread.init cfg) as).running = false)
    (hsteps : cfg.activeQueues.length + 3 ≤ pullerSteps bs) :
    (run wakeStep (run wakeStep (PullerThread.init cfg) as) bs).exited = true := by
  have hinv := inv_run cfg as
  have hqueues := activeQueues_run cfg as
  generalize run wakeStep (PullerThread.init cfg) as = t at *
  have hbound : t.stepsLeft ≤ cfg.activeQueues.length + 3 := by
    rw [stepsLeft]
    split
    · exact Nat.zero_le _
    · cases hpc : t.base.pc with
      | scanQueues rest =>
        have hle := hinv.scans rest hpc
        rw [hqueues] at hle
        exact Nat.add_le_add_right hle 3
      | _ => simp only [ownSteps]; omega
  have hleft : (run wakeStep t bs).stepsLeft = 0 := by
    have hle := stepsLeft_run hinv hstop bs
    omega
  cases hex : (run wakeStep t bs).exited with
  | true => rfl
  | false =>
    rw [stepsLeft, hex] at hleft
    cases hpc : (run wakeStep t bs).base.pc <;> simp [ownSteps, hpc] at hleft

open PullerThread in
/-- A thread that sleeps when it is asked to stop. -/
theorem pullerThread_stops_asleep :
    (run wakeStep (run wakeStep (PullerThread.init .bare) [.puller .zero, .stop])
      (List.replicate 3 (.puller .zero))).exited = true :=
  pullerThread_stops .bare [.puller .zero, .stop] (List.replicate 3 (.puller .zero)) rfl
    (by decide)

end UsrLinuxEmu.GpuDriver
