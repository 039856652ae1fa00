import UsrLinuxEmu.GpuDriver.PullerGuards

/-!
# The way of one entry through the pipeline

Every entry gets a number when the puller takes it.  Counting the events with that number shows
which way the entry went: DECODE sends a release entry through SEMAPHORE and every other one
through DISPATCH, and COMPLETE writes the semaphore of a releasing entry (again).

* `Tally` — how often an entry was dispatched, had its semaphore written and called the launch
  callback;
* `finalTally` — the tally of a completed entry, read off the entry alone;
* `flow_run` — in every reachable state each completed entry has that tally, each blocked entry
  none, and launches are in entry order.
-/

namespace UsrLinuxEmu.GpuDriver

open UsrLinuxEmu.Transition ChannelManager HardwarePullerEmu

/-! ### Counting -/

/-- The number of the entry that the event is about. -/
def Event.entry? : Event → Option ℕ
  | .taken n .. | .blocked n .. | .dispatched n .. | .memcpyFailed n .. | .launched n ..
  | .semWritten n .. | .completed n .. => some n
  | _ => none

structure Tally where
  dispatches : ℕ
  semWrites : ℕ
  launches : ℕ
  deriving DecidableEq, Repr

instance : Add Tally :=
  ⟨fun a b => ⟨a.dispatches + b.dispatches, a.semWrites + b.semWrites, a.launches + b.launches⟩⟩

instance : Zero Tally := ⟨⟨0, 0, 0⟩⟩

theorem Tally.zero_add (t : Tally) : 0 + t = t := by
  change Tally.mk (0 + t.dispatches) (0 + t.semWrites) (0 + t.launches) = t
  simp only [Nat.zero_add]

def Event.isDispatch (n : ℕ) : Event → Bool
  | .dispatched m _ => m == n
  | _ => false

def Event.isSemWrite (n : ℕ) : Event → Bool
  | .semWritten m _ _ => m == n
  | _ => false

def Event.isLaunch (n : ℕ) : Event → Bool
  | .launched m _ => m == n
  | _ => false

/-- The tally of entry `n` in a history. -/
def tally (n : ℕ) (log : List Event) : Tally :=
  ⟨log.countP (Event.isDispatch n), log.countP (Event.isSemWrite n), log.countP (Event.isLaunch n)⟩

theorem tally_append (n : ℕ) (new old : List Event) :
    tally n (new ++ old) = tally n new + tally n old := by
  simp only [tally, List.countP_append]
  rfl

theorem tally_cons (n : ℕ) (e : Event) (l : List Event) :
    tally n (e :: l) = tally n [e] + tally n l :=
  tally_append n [e] l

theorem Event.entry?_of_producer {ev : Event} (h : ev.isProducer = true) : ev.entry? = none := by
  cases ev <;> first | rfl | cases h

theorem Event.entry?_of_counted {n : ℕ} {ev : Event}
    (h : ev.isDispatch n = true ∨ ev.isSemWrite n = true ∨ ev.isLaunch n = true) :
    ev.entry? = some n := by
  cases ev <;> simp_all [Event.isDispatch, Event.isSemWrite, Event.isLaunch, Event.entry?]

/-- Events about other entries do not count. -/
theorem tally_eq_zero {n : ℕ} {log : List Event} (h : ∀ ev ∈ log, ev.entry? ≠ some n) :
    tally n log = 0 := by
  have hd : log.countP (Event.isDispatch n) = 0 :=
    List.countP_eq_zero.mpr fun ev hev ht => h ev hev (Event.entry?_of_counted (.inl ht))
  have hw : log.countP (Event.isSemWrite n) = 0 :=
    List.countP_eq_zero.mpr fun ev hev ht => h ev hev (Event.entry?_of_counted (.inr (.inl ht)))
  have hl : log.countP (Event.isLaunch n) = 0 :=
    List.countP_eq_zero.mpr fun ev hev ht => h ev hev (Event.entry?_of_counted (.inr (.inr ht)))
  rw [tally, hd, hw, hl]
  rfl

/-- Events that are all about entry `k`, or about none, do not count for another. -/
theorem tally_append_of_ne {n k : ℕ} (hne : n ≠ k) {new l : List Event}
    (h : ∀ ev ∈ new, ev.entry? = none ∨ ev.entry? = some k) :
    tally n (new ++ l) = tally n l := by
  have hzero : tally n new = 0 := by
    refine tally_eq_zero fun ev hev heq => ?_
    obtain hnone | hsome := h ev hev
    · rw [hnone] at heq
      cases heq
    · rw [hsome] at heq
      exact hne (Option.some.inj heq).symm
  rw [tally_append, hzero]
  exact Tally.zero_add _

/-! ### What an entry amounts to -/

/-- DECODE sends the entry to SEMAPHORE instead of SCHEDULE. -/
def viaSemaphore (e : GpuGpfifoEntry) : Bool := e.release && !e.isSemOp

/-- The launch callbacks of a dispatched entry; `registered` tells whether the callback is set. -/
def launchCalls (registered : Bool) (e : GpuGpfifoEntry) : ℕ :=
  if e.method = gpuOpMemcpy then 0 else if registered then e.callbackCount else 0

/-- The tally of an entry that has reached COMPLETE. -/
def midTally (registered : Bool) (e : GpuGpfifoEntry) : Tally :=
  if viaSemaphore e then ⟨0, 1, 0⟩ else ⟨1, 0, launchCalls registered e⟩

/-- The tally of an entry that COMPLETE has finished. -/
def finalTally (registered : Bool) (e : GpuGpfifoEntry) : Tally :=
  ⟨0, if releases e then 1 else 0, 0⟩ + midTally registered e

/-- The scheduler is there and has a launch callback. -/
def Device.launchRegistered (d : Device) : Bool :=
  match d.scheduler with
  | none => false
  | some sch => sch.launchRegistered

theorem Device.memcpy_scheduler {d d' : Device} {src dst size : UInt64}
    (h : d.memcpy src dst size = some d') : d'.scheduler = d.scheduler := by
  unfold Device.memcpy at h
  split_ifs at h
  · obtain ⟨buf, -, rfl⟩ := Option.map_eq_some_iff.mp h
    rfl
  · obtain ⟨hal, -, rfl⟩ := Option.map_eq_some_iff.mp h
    rfl

/-- What DISPATCH executes: the number of launches, and the callback stays as it was. -/
theorem Device.execute_spec (d : Device) (e : GpuGpfifoEntry) :
    (d.execute e).1.length = launchCalls d.launchRegistered e ∧
      (d.execute e).2.2.launchRegistered = d.launchRegistered := by
  unfold Device.execute launchCalls
  by_cases hmem : e.method = gpuOpMemcpy
  · simp only [if_pos hmem]
    cases hcopy : d.memcpy (e.payload.get 0) (e.payload.get 1) (e.payload.get 2) with
    | none => exact ⟨rfl, rfl⟩
    | some d' =>
      refine ⟨rfl, ?_⟩
      simp only [Device.launchRegistered, Device.memcpy_scheduler hcopy]
  · simp only [if_neg hmem]
    cases hsch : d.scheduler with
    | none => simp [Device.launchRegistered, hsch]
    | some sch =>
      by_cases hlaunch : e.method = gpuOpLaunchKernel
      · simp only [if_pos hlaunch, Device.launchRegistered, hsch]
        exact ⟨sch.translateLaunch_launches e, sch.translateLaunch_launchRegistered e⟩
      · simp only [if_neg hlaunch, Device.launchRegistered, hsch]
        exact ⟨sch.enqueue_launches e _, sch.enqueue_launchRegistered e _⟩

theorem tally_launched (n : ℕ) (launches : List LaunchParams) :
    tally n (launches.map (.launched n)) = ⟨0, 0, launches.length⟩ := by
  induction launches with
  | nil => rfl
  | cons p launches ih =>
    have hone : tally n [.launched n p] = ⟨0, 0, 1⟩ := by
      simp [tally, Event.isDispatch, Event.isSemWrite, Event.isLaunch]
    rw [List.map_cons, tally_cons, ih, hone, List.length_cons, Nat.add_comm]
    rfl

theorem dispatchEvents_tally (s : HardwarePullerEmu) (launches : List LaunchParams)
    (failed : Bool) :
    tally s.serial (s.dispatchEvents launches failed) = ⟨1, 0, launches.length⟩ := by
  have hfailed : tally s.serial (if failed then [.memcpyFailed s.serial s.source] else []) = 0 := by
    split_ifs <;> rfl
  have htime : tally s.serial (if s.currentEntry.tsQuery = 0 then []
      else [.timestamp s.currentEntry.tsQuery s.regs.index (s.device.simTick + 1)]) = 0 := by
    split_ifs <;> rfl
  have hone : tally s.serial [.dispatched s.serial s.currentEntry] = ⟨1, 0, 0⟩ := by
    simp [tally, Event.isDispatch, Event.isSemWrite, Event.isLaunch]
  rw [dispatchEvents, tally_append, tally_append, tally_append, hfailed, tally_launched, htime,
    hone, Tally.zero_add, List.length_reverse]
  rfl

theorem dispatchEvents_entry (s : HardwarePullerEmu) (launches : List LaunchParams)
    (failed : Bool) : ∀ ev ∈ s.dispatchEvents launches failed,
      ev.entry? = none ∨ ev.entry? = some s.serial := by
  intro ev hev
  obtain ⟨rfl, -⟩ | ⟨p, rfl⟩ | ⟨q, i, t, rfl⟩ | rfl := mem_dispatchEvents hev
  · exact .inr rfl
  · exact .inr rfl
  · exact .inl rfl
  · exact .inr rfl

theorem finishEvents_entry (s : HardwarePullerEmu) : ∀ ev ∈ s.finishEvents,
    ev.entry? = none ∨ ev.entry? = some s.serial := by
  intro ev hev
  obtain ⟨h, v, rfl⟩ | ⟨rfl, -⟩ | rfl | rfl := mem_finishEvents hev
  · exact .inl rfl
  · exact .inl rfl
  · exact .inr rfl
  · exact .inr rfl

theorem finishEvents_tally (s : HardwarePullerEmu) :
    tally s.serial s.finishEvents = ⟨0, if releases s.currentEntry then 1 else 0, 0⟩ := by
  have htimeline : tally s.serial (if s.timelineDue then
      [.timelineSignaled s.currentEntry.tlSemHandle s.currentEntry.tlSignalValue] else []) = 0 := by
    split_ifs <;> rfl
  have hfence : tally s.serial
      (if s.fenceDue then [.signaled s.loaded.id s.regs.fence] else []) = 0 := by
    split_ifs <;> rfl
  have hsem : tally s.serial (if releases s.currentEntry then
      [.semWritten s.serial s.currentEntry.semaphoreVa s.currentEntry.semaphoreValue] else []) =
        ⟨0, if releases s.currentEntry then 1 else 0, 0⟩ := by
    split_ifs
    · simp [tally, Event.isDispatch, Event.isSemWrite, Event.isLaunch]
    · rfl
  rw [finishEvents, tally_append, tally_append, tally_append, htimeline, hfence, hsem,
    Tally.zero_add, Tally.zero_add]
  rfl

/-! ### The invariant -/

/-- The number of the entry that a launch is for. -/
def Event.launch? : Event → Option ℕ
  | .launched n _ => some n
  | _ => none

/-- The entries that the launches were for, newest first. -/
def launchOrder (log : List Event) : List ℕ := log.filterMap Event.launch?

theorem Event.entry?_of_launch? {ev : Event} {n : ℕ} (h : ev.launch? = some n) :
    ev.entry? = some n := by
  cases ev with
  | launched m p => exact h
  | _ => cases h

theorem mem_launchOrder {log : List Event} {n : ℕ} (h : n ∈ launchOrder log) :
    ∃ ev ∈ log, ev.entry? = some n := by
  obtain ⟨ev, hev, hlaunch⟩ := List.mem_filterMap.mp h
  exact ⟨ev, hev, Event.entry?_of_launch? hlaunch⟩

/-- The tally `t` of the entry in flight, state by state. -/
def PcFlow (r : Bool) (e : GpuGpfifoEntry) (t : Tally) : Pc → Prop
  | .decode => t = 0
  | .schedule | .dispatch => t = 0 ∧ viaSemaphore e = false
  | .semaphore => t = 0 ∧ viaSemaphore e = true
  | .waitSemaphore => False
  | .complete => t = midTally r e
  | _ => True

theorem pcFlow_of_not_inFlight {r : Bool} {e : GpuGpfifoEntry} {t : Tally} {pc : Pc}
    (h : pc.inFlight = false) : PcFlow r e t pc := by
  cases pc <;> trivial

structure FlowInv (r : Bool) (s : HardwarePullerEmu) : Prop where
  registered : s.device.launchRegistered = r
  numbered : ∀ ev ∈ s.log, ∀ n, ev.entry? = some n → n ≤ s.serial
  completed : ∀ n src e, .completed n src e ∈ s.log → tally n s.log = finalTally r e
  blocked : ∀ n src e, .blocked n src e ∈ s.log → tally n s.log = 0
  unfinished : s.pc.inFlight = true → ∀ src e,
    .completed s.serial src e ∉ s.log ∧ .blocked s.serial src e ∉ s.log
  current : PcFlow r s.currentEntry (tally s.serial s.log) s.pc
  ordered : (launchOrder s.log).Pairwise (· ≥ ·)

/-- Events about no entry change nothing, as long as the entry in flight stays where it is. -/
theorem FlowInv.quiet {r : Bool} {s s' : HardwarePullerEmu} (hinv : FlowInv r s)
    {E : List Event} (hevs : ∀ ev ∈ E, ev.entry? = none) (hlog : s'.log = E ++ s.log)
    (hserial : s'.serial = s.serial)
    (hreg : s'.device.launchRegistered = s.device.launchRegistered)
    (hpc : s'.pc.inFlight = false ∨ s'.pc = s.pc ∧ s'.currentEntry = s.currentEntry) :
    FlowInv r s' := by
  have htally : ∀ n, tally n s'.log = tally n s.log := by
    intro n
    rw [hlog]
    exact tally_append_of_ne (Nat.succ_ne_self n).symm fun ev hev => .inl (hevs ev hev)
  have hmem : ∀ ev n, ev.entry? = some n → ev ∈ s'.log → ev ∈ s.log := by
    intro ev n hn hev
    rw [hlog] at hev
    obtain hnew | hold := List.mem_append.mp hev
    · rw [hevs ev hnew] at hn
      cases hn
    · exact hold
  have horder : launchOrder s'.log = launchOrder s.log := by
    rw [launchOrder, hlog, List.filterMap_append, List.filterMap_eq_nil_iff.mpr fun ev hev => ?_]
    · rfl
    · refine Option.eq_none_iff_forall_ne_some.mpr fun n hlaunch => ?_
      have hsome := Event.entry?_of_launch? hlaunch
      rw [hevs ev hev] at hsome
      cases hsome
  refine ⟨hreg.trans hinv.registered, ?_, ?_, ?_, ?_, ?_, by rw [horder]; exact hinv.ordered⟩
  · intro ev hev n hn
    rw [hserial]
    exact hinv.numbered ev (hmem ev n hn hev) n hn
  · intro n src e hdone
    rw [htally]
    exact hinv.completed n src e (hmem _ n rfl hdone)
  · intro n src e hblocked
    rw [htally]
    exact hinv.blocked n src e (hmem _ n rfl hblocked)
  · intro hflight src e
    obtain hidle | ⟨hsame, -⟩ := hpc
    · rw [hidle] at hflight
      cases hflight
    · rw [hsame] at hflight
      rw [hserial]
      exact ⟨fun h => (hinv.unfinished hflight src e).1 (hmem _ _ rfl h),
        fun h => (hinv.unfinished hflight src e).2 (hmem _ _ rfl h)⟩
  · obtain hidle | ⟨hsame, hentry⟩ := hpc
    · exact pcFlow_of_not_inFlight hidle
    · rw [hserial, htally, hsame, hentry]
      exact hinv.current

/-- A step of the entry in flight: its events are about it, they account for its tally, and a
finishing event ends the flight. -/
theorem FlowInv.advance {r : Bool} {s s' : HardwarePullerEmu} (hinv : FlowInv r s)
    (hflight : s.pc.inFlight = true) {E : List Event}
    (hevs : ∀ ev ∈ E, ev.entry? = none ∨ ev.entry? = some s.serial)
    (hlog : s'.log = E ++ s.log) (hserial : s'.serial = s.serial)
    (hreg : s'.device.launchRegistered = s.device.launchRegistered) {t : Tally}
    (ht : tally s.serial E + tally s.serial s.log = t)
    (hcompleted : ∀ n src e, .completed n src e ∈ E → t = finalTally r e)
    (hblocked : ∀ n src e, .blocked n src e ∈ E → t = 0)
    (hends : s'.pc.inFlight = true → ∀ n src e, .completed n src e ∉ E ∧ .blocked n src e ∉ E)
    (hpc : PcFlow r s'.currentEntry t s'.pc) : FlowInv r s' := by
  have hself : tally s.serial s'.log = t := by
    rw [hlog, tally_append]
    exact ht
  have hother : ∀ n, n ≠ s.serial → tally n s'.log = tally n s.log := by
    intro n hne
    rw [hlog]
    exact tally_append_of_ne hne hevs
  have hnew : ∀ ev ∈ E, ∀ n, ev.entry? = some n → n = s.serial := by
    intro ev hev n hn
    obtain hnone | hsome := hevs ev hev
    · rw [hnone] at hn
      cases hn
    · rw [hsome] at hn
      exact (Option.some.inj hn).symm
  refine ⟨hreg.trans hinv.registered, ?_, ?_, ?_, ?_, ?_, ?_⟩
  · intro ev hev n hn
    rw [hlog] at hev
    rw [hserial]
    obtain hin | hold := List.mem_append.mp hev
    · exact Nat.le_of_eq (hnew ev hin n hn)
    · exact hinv.numbered ev hold n hn
  · intro n src e hdone
    rw [hlog] at hdone
    obtain hin | hold := List.mem_append.mp hdone
    · obtain rfl := hnew _ hin n rfl
      rw [hself]
      exact hcompleted _ src e hin
    · have hne : n ≠ s.serial := by
        rintro rfl
        exact (hinv.unfinished hflight src e).1 hold
      rw [hother n hne]
      exact hinv.completed n src e hold
  · intro n src e hpark
    rw [hlog] at hpark
    obtain hin | hold := List.mem_append.mp hpark
    · obtain rfl := hnew _ hin n rfl
      rw [hself]
      exact hblocked _ src e hin
    · have hne : n ≠ s.serial := by
        rintro rfl
        exact (hinv.unfinished hflight src e).2 hold
      rw [hother n hne]
      exact hinv.blocked n src e hold
  · intro hflight' src e
    rw [hserial, hlog]
    refine ⟨fun h => ?_, fun h => ?_⟩
    · obtain hin | hold := List.mem_append.mp h
      · exact (hends hflight' _ src e).1 hin
      · exact (hinv.unfinished hflight src e).1 hold
    · obtain hin | hold := List.mem_append.mp h
      · exact (hends hflight' _ src e).2 hin
      · exact (hinv.unfinished hflight src e).2 hold
  · rw [hserial, hself]
    exact hpc
  · rw [launchOrder, hlog, List.filterMap_append, List.pairwise_append]
    have hin : ∀ k ∈ E.filterMap Event.launch?, k = s.serial := by
      intro k hk
      obtain ⟨ev, hev, hn⟩ := mem_launchOrder hk
      exact hnew ev hev k hn
    refine ⟨?_, hinv.ordered, fun k hk l hl => ?_⟩
    · exact List.pairwise_of_forall_mem_list fun k hk l hl =>
        Nat.le_of_eq ((hin l hl).trans (hin k hk).symm)
    · obtain ⟨ev, hev, hn⟩ := mem_launchOrder hl
      rw [hin k hk]
      exact hinv.numbered ev hev l hn

/-- A fresh number is taken for the next entry. -/
theorem FlowInv.take {r : Bool} {s : HardwarePullerEmu} (hinv : FlowInv r s) (src : Source)
    (e : GpuGpfifoEntry) : FlowInv r (s.take src e) := by
  have hfresh : ∀ ev ∈ s.log, ev.entry? ≠ some (s.serial + 1) := by
    intro ev hev heq
    have hle := hinv.numbered ev hev _ heq
    omega
  have htally : ∀ n, tally n (s.take src e).log = tally n s.log := fun n =>
    (tally_append n [.taken (s.serial + 1) src e] s.log).trans (Tally.zero_add _)
  refine ⟨hinv.registered, ?_, ?_, ?_, ?_, ?_, hinv.ordered⟩
  · intro ev hev n hn
    obtain rfl | hold := List.mem_cons.mp hev
    · exact Nat.le_of_eq (Option.some.inj hn).symm
    · exact Nat.le_succ_of_le (hinv.numbered ev hold n hn)
  · intro n src' e' hdone
    rw [htally]
    obtain heq | hold := List.mem_cons.mp hdone
    · cases heq
    · exact hinv.completed n src' e' hold
  · intro n src' e' hpark
    rw [htally]
    obtain heq | hold := List.mem_cons.mp hpark
    · cases heq
    · exact hinv.blocked n src' e' hold
  · intro _ src' e'
    refine ⟨fun h => ?_, fun h => ?_⟩
    · obtain heq | hold := List.mem_cons.mp h
      · cases heq
      · exact hfresh _ hold rfl
    · obtain heq | hold := List.mem_cons.mp h
      · cases heq
      · exact hfresh _ hold rfl
  · exact (htally _).trans (tally_eq_zero hfresh)

/-! ### The step lemmas -/

theorem yieldEvents_entry (s : HardwarePullerEmu) : ∀ ev ∈ s.yieldEvents, ev.entry? = none := by
  intro ev hev
  rw [mem_yieldEvents hev]
  rfl

/-- COMPLETE accounts for its entry. -/
theorem FlowInv.finish {r : Bool} {s s' : HardwarePullerEmu} (hinv : FlowInv r s)
    (hpc : s.pc = .complete) {E : List Event} (hevs : ∀ ev ∈ E, ev.entry? = none)
    (hlog : s'.log = E ++ (s.finishEvents ++ s.log)) (hserial : s'.serial = s.serial)
    (hdev : s'.device = s.finishDevice) (hpc' : s'.pc.inFlight = false) : FlowInv r s' := by
  have hmid : tally s.serial s.log = midTally r s.currentEntry := by
    have hcur := hinv.current
    rw [hpc] at hcur
    exact hcur
  have hreg : s.finishDevice.launchRegistered = s.device.launchRegistered := by
    simp only [finishDevice, Device.simFenceIdSignal, Device.interruptRaise, Device.launchRegistered]
    split_ifs <;> rfl
  have hfinal : tally s.serial (E ++ s.finishEvents) + tally s.serial s.log =
      finalTally r s.currentEntry := by
    have hextra : tally s.serial (E ++ s.finishEvents) = tally s.serial s.finishEvents := by
      refine tally_append_of_ne (Nat.succ_ne_self s.serial).symm fun ev hev => .inl (hevs ev hev)
    rw [hextra, finishEvents_tally, hmid]
    rfl
  refine hinv.advance (by rw [hpc]; rfl) (E := E ++ s.finishEvents) ?_
    (by rw [hlog, List.append_assoc]) hserial (by rw [hdev, hreg]) hfinal ?_ ?_ ?_
    (pcFlow_of_not_inFlight hpc')
  · intro ev hev
    obtain hin | hin := List.mem_append.mp hev
    · exact .inl (hevs ev hin)
    · exact finishEvents_entry s ev hin
  · intro n src e hdone
    obtain hin | hin := List.mem_append.mp hdone
    · cases hevs _ hin
    · obtain ⟨_, _, heq⟩ | ⟨heq, -⟩ | heq | heq := mem_finishEvents hin <;> cases heq
      rfl
  · intro n src e hpark
    obtain hin | hin := List.mem_append.mp hpark
    · cases hevs _ hin
    · obtain ⟨_, _, heq⟩ | ⟨heq, -⟩ | heq | heq := mem_finishEvents hin <;> cases heq
  · intro hflight
    rw [hpc'] at hflight
    cases hflight

theorem flowInv_pullerStep {r : Bool} {s s' : HardwarePullerEmu} (h : PullerStep s s')
    (hinv : FlowInv r s) : FlowInv r s' := by
  have hcur := hinv.current
  cases h with
  | move hmove =>
    rename_i pc
    cases hmove with
    | sleep | wake | noManager | scanEnd | scanEmpty | noDoorbell | fetchEnd =>
      exact hinv.quiet (E := []) (by simp) rfl rfl rfl (.inl rfl)
    | pass hpc hop hreached =>
      rw [hpc] at hcur
      have hvia : viaSemaphore s.currentEntry = false := by
        simp [viaSemaphore, GpuGpfifoEntry.isSemOp, hop]
      exact hinv.advance (by rw [hpc]; rfl) (E := []) (by simp) rfl rfl rfl
        ((Tally.zero_add _).trans hcur) (by simp) (by simp) (by simp) ⟨rfl, hvia⟩
    | toSemaphore hpc hop hrel =>
      rw [hpc] at hcur
      have hvia : viaSemaphore s.currentEntry = true := by simp [viaSemaphore, hop, hrel]
      exact hinv.advance (by rw [hpc]; rfl) (E := []) (by simp) rfl rfl rfl
        ((Tally.zero_add _).trans hcur) (by simp) (by simp) (by simp) ⟨rfl, hvia⟩
    | toSchedule hpc hop hrel =>
      rw [hpc] at hcur
      have hvia : viaSemaphore s.currentEntry = false := by simp [viaSemaphore, hrel]
      exact hinv.advance (by rw [hpc]; rfl) (E := []) (by simp) rfl rfl rfl
        ((Tally.zero_add _).trans hcur) (by simp) (by simp) (by simp) ⟨rfl, hvia⟩
    | schedule hpc =>
      rw [hpc] at hcur
      exact hinv.advance (by rw [hpc]; rfl) (E := []) (by simp) rfl rfl rfl
        ((Tally.zero_add _).trans hcur.1) (by simp) (by simp) (by simp) ⟨rfl, hcur.2⟩
    | stillWaiting hpc =>
      rw [hpc] at hcur
      exact hcur.elim
  | noChannel | exchange => exact hinv.quiet (E := []) (by simp) rfl rfl rfl (.inl rfl)
  | select =>
    exact hinv.quiet (E := [_]) (by simp [Event.entry?]) rfl rfl rfl (.inl rfl)
  | resume =>
    exact hinv.quiet (E := [_, _]) (by simp [Event.entry?]) rfl rfl rfl (.inl rfl)
  | dequeue hpc hq =>
    refine FlowInv.take (s := { s with queues := _ }) ?_ _ _
    exact hinv.quiet (E := []) (by simp) rfl rfl rfl (.inr ⟨rfl, rfl⟩)
  | fetch => exact hinv.take _ _
  | blockNext hpc hop hsema hidx =>
    rw [hpc] at hcur
    exact hinv.advance (by rw [hpc]; rfl) (E := [.blocked s.serial s.source s.currentEntry])
      (by simp [Event.entry?]) rfl rfl rfl ((Tally.zero_add _).trans hcur) (by simp)
      (fun _ _ _ _ => rfl) (fun hf => by cases hf) trivial
  | blockLast hpc hop hsema hidx =>
    rw [hpc] at hcur
    refine hinv.advance (by rw [hpc]; rfl)
      (E := s.yieldEvents ++ [.blocked s.serial s.source s.currentEntry]) ?_
      (by simp) rfl rfl (t := 0) ?_ ?_ (fun _ _ _ _ => rfl) (fun hf => by cases hf) trivial
    · intro ev hev
      obtain hin | hin := List.mem_append.mp hev
      · exact .inl (yieldEvents_entry s ev hin)
      · obtain rfl := List.mem_singleton.mp hin
        exact .inr rfl
    · have hextra := tally_append_of_ne (Nat.succ_ne_self s.serial).symm
        (l := [.blocked s.serial s.source s.currentEntry])
        fun ev hev => .inl (yieldEvents_entry s ev hev)
      rw [hextra, show tally s.serial s.log = 0 from hcur]
      rfl
    · intro n src e hdone
      obtain hin | hin := List.mem_append.mp hdone
      · cases yieldEvents_entry s _ hin
      · simp at hin
  | dispatch hpc hexec =>
    rename_i launches failed d
    rw [hpc] at hcur
    have hspec := Device.execute_spec s.device.tick s.currentEntry
    rw [hexec] at hspec
    have hr : s.device.tick.launchRegistered = r := hinv.registered
    have hnever : ∀ n src e, .completed n src e ∉ s.dispatchEvents launches failed ∧
        .blocked n src e ∉ s.dispatchEvents launches failed := by
      intro n src e
      constructor <;> intro hin <;>
        obtain ⟨heq, -⟩ | ⟨_, heq⟩ | ⟨_, _, _, heq⟩ | heq := mem_dispatchEvents hin <;> cases heq
    refine hinv.advance (by rw [hpc]; rfl) (dispatchEvents_entry s launches failed) rfl rfl
      hspec.2 (t := midTally r s.currentEntry) ?_ (fun n src e hin => ((hnever n src e).1 hin).elim)
      (fun n src e hin => ((hnever n src e).2 hin).elim) (fun _ => hnever) rfl
    rw [dispatchEvents_tally, hcur.1, midTally, hcur.2, ← hr]
    simp only [Bool.false_eq_true, if_false]
    rw [show launches.length = launchCalls s.device.tick.launchRegistered s.currentEntry from hspec.1]
    rfl
  | release hpc hrel w =>
    rw [hpc] at hcur
    refine hinv.advance (by rw [hpc]; rfl)
      (E := [.semWritten s.serial s.currentEntry.semaphoreVa s.currentEntry.semaphoreValue])
      (by simp [Event.entry?]) rfl rfl rfl (t := midTally r s.currentEntry) ?_ (by simp) (by simp)
      (by simp) rfl
    rw [hcur.1, midTally, hcur.2]
    simp [tally, Event.isDispatch, Event.isSemWrite, Event.isLaunch]
    rfl
  | wait hpc hrel w =>
    rw [hpc] at hcur
    have hvia := hcur.2
    simp [viaSemaphore, hrel] at hvia
  | waited hpc w =>
    rw [hpc] at hcur
    exact hcur.elim
  | completeNext hpc hidx => exact hinv.finish hpc (E := []) (by simp) rfl rfl rfl rfl
  | completeLast hpc hidx hpre => exact hinv.finish hpc (yieldEvents_entry s) rfl rfl rfl rfl
  | checkpointDirect hpc => exact hinv.finish hpc (E := []) (by simp) rfl rfl rfl rfl
  | checkpointNone hpc =>
    exact hinv.finish hpc (E := [_, _]) (by simp [Event.entry?]) rfl rfl rfl rfl
  | checkpointLoad hpc =>
    exact hinv.finish hpc (E := [_, _, _]) (by simp [Event.entry?]) rfl rfl rfl rfl

theorem flowInv_envStep {r : Bool} {s s' : HardwarePullerEmu} {a : Action} (h : EnvStep s a s')
    (hinv : FlowInv r s) : FlowInv r s' := by
  cases h with
  | accept => exact hinv.quiet (E := [_]) (by simp [Event.entry?]) rfl rfl rfl (.inr ⟨rfl, rfl⟩)
  | direct =>
    exact hinv.quiet (E := [_, _]) (by simp [Event.entry?]) rfl rfl rfl (.inr ⟨rfl, rfl⟩)
  | configure => exact hinv.quiet (E := []) (by simp) rfl rfl rfl (.inr ⟨rfl, rfl⟩)
  | quiet queues hal host preempt hsema hevs =>
    refine hinv.quiet (fun ev hev => ?_) rfl rfl rfl (.inr ⟨rfl, rfl⟩)
    exact Event.entry?_of_producer (hevs ev hev)

theorem flowInv_step {r : Bool} (s : HardwarePullerEmu) (a : Action) (hinv : FlowInv r s) :
    FlowInv r (step s a) := by
  obtain ⟨-, h⟩ | ⟨-, h⟩ := step_cases s a
  · exact flowInv_pullerStep h hinv
  · exact flowInv_envStep h hinv

theorem flowInv_init (cfg : Config) : FlowInv (init cfg).device.launchRegistered (init cfg) :=
  ⟨rfl, by simp [init], by simp [init], by simp [init], by simp [init], trivial, List.Pairwise.nil⟩

/-- **Flow.**  In every reachable state the history accounts for every entry. -/
theorem flow_run (cfg : Config) (as : List Action) :
    FlowInv (init cfg).device.launchRegistered (after cfg as) :=
  run_of_invariant flowInv_step as (flowInv_init cfg)

end UsrLinuxEmu.GpuDriver
