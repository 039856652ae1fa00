import UsrLinuxEmu.GpuDriver.BatchDelivery

/-!
# Which entries the puller takes for a batch

An accepted batch is over when it is neither in its slot nor in the registers.  The entries that
were taken for it are then exactly its own, each once and in order, as long as no step loses the
batch or skips one of its entries.

* `Take` / `takenEntries` / `retiredEntries` — the entries taken, and those that COMPLETE or a
  blocking DECODE has retired, newest first;
* `takes_run` — in every reachable state the taken entries are the retired ones and the one in
  flight;
* `deliverGuard` — the steps that lose no entry;
* `EntryInv` / `entryInv_step` — each submission runs with the entries before the cursor retired, or
  waits untouched in its slot, or has all its entries retired.
-/

namespace UsrLinuxEmu.GpuDriver

open UsrLinuxEmu.Transition ChannelManager HardwarePullerEmu

/-! ### Entries taken and retired -/

/-- An entry with its number and where it came from. -/
structure Take where
  serial : ℕ
  src : Source
  entry : GpuGpfifoEntry
  deriving DecidableEq, Repr

def Event.taken? : Event → Option Take
  | .taken n src e => some ⟨n, src, e⟩
  | _ => none

/-- An entry leaves the FSM at the end of COMPLETE, or blocked by DECODE. -/
def Event.retired? : Event → Option Take
  | .completed n src e | .blocked n src e => some ⟨n, src, e⟩
  | _ => none

def takenEntries (log : List Event) : List Take := log.filterMap Event.taken?

def retiredEntries (log : List Event) : List Take := log.filterMap Event.retired?

/-- The entry that the FSM holds. -/
def HardwarePullerEmu.held (s : HardwarePullerEmu) : List Take :=
  if s.pc.inFlight then [⟨s.serial, s.source, s.currentEntry⟩] else []

@[simp] theorem takenEntries_append (new old : List Event) :
    takenEntries (new ++ old) = takenEntries new ++ takenEntries old :=
  List.filterMap_append

@[simp] theorem retiredEntries_append (new old : List Event) :
    retiredEntries (new ++ old) = retiredEntries new ++ retiredEntries old :=
  List.filterMap_append

theorem takenEntries_of_idle {E : List Event} (h : ∀ ev ∈ E, ev.taken? = none) :
    takenEntries E = [] :=
  List.filterMap_eq_nil_iff.mpr h

theorem retiredEntries_of_idle {E : List Event} (h : ∀ ev ∈ E, ev.retired? = none) :
    retiredEntries E = [] :=
  List.filterMap_eq_nil_iff.mpr h

theorem takenEntries_yieldEvents (s : HardwarePullerEmu) : takenEntries s.yieldEvents = [] :=
  takenEntries_of_idle fun ev hev => by rw [mem_yieldEvents hev]; rfl

theorem retiredEntries_yieldEvents (s : HardwarePullerEmu) : retiredEntries s.yieldEvents = [] :=
  retiredEntries_of_idle fun ev hev => by rw [mem_yieldEvents hev]; rfl

theorem takenEntries_finishEvents (s : HardwarePullerEmu) : takenEntries s.finishEvents = [] := by
  refine takenEntries_of_idle fun ev hev => ?_
  obtain ⟨x, y, rfl⟩ | ⟨rfl, -⟩ | rfl | rfl := mem_finishEvents hev <;> rfl

theorem retiredEntries_finishEvents (s : HardwarePullerEmu) :
    retiredEntries s.finishEvents = [⟨s.serial, s.source, s.currentEntry⟩] := by
  unfold finishEvents
  simp only [retiredEntries_append]
  split_ifs <;> rfl

theorem takenEntries_dispatchEvents (s : HardwarePullerEmu) (launches : List LaunchParams)
    (failed : Bool) : takenEntries (s.dispatchEvents launches failed) = [] := by
  refine takenEntries_of_idle fun ev hev => ?_
  obtain ⟨rfl, -⟩ | ⟨p, rfl⟩ | ⟨q, i, t, rfl⟩ | rfl := mem_dispatchEvents hev <;> rfl

theorem retiredEntries_dispatchEvents (s : HardwarePullerEmu) (launches : List LaunchParams)
    (failed : Bool) : retiredEntries (s.dispatchEvents launches failed) = [] := by
  refine retiredEntries_of_idle fun ev hev => ?_
  obtain ⟨rfl, -⟩ | ⟨p, rfl⟩ | ⟨q, i, t, rfl⟩ | rfl := mem_dispatchEvents hev <;> rfl

theorem Event.taken?_of_producer {ev : Event} (h : ev.isProducer = true) : ev.taken? = none := by
  cases ev <;> first | rfl | cases h

theorem Event.retired?_of_producer {ev : Event} (h : ev.isProducer = true) :
    ev.retired? = none := by
  cases ev <;> first | rfl | cases h

/-- What is taken is retired or in flight, and only semaphore operations are retired blocked. -/
structure TakeInv (s : HardwarePullerEmu) : Prop where
  accounted : takenEntries s.log = s.held ++ retiredEntries s.log
  blocked : ∀ n src e, .blocked n src e ∈ s.log → e.isSemOp = true

/-- Events that account for what the step does to the entry in flight. -/
theorem TakeInv.extend {s s' : HardwarePullerEmu} (hinv : TakeInv s) {E : List Event}
    (hlog : s'.log = E ++ s.log) (htakes : takenEntries E ++ s.held = s'.held ++ retiredEntries E)
    (hblocked : ∀ n src e, .blocked n src e ∈ E → e.isSemOp = true) : TakeInv s' := by
  refine ⟨?_, fun n src e hmem => ?_⟩
  · rw [hlog, takenEntries_append, retiredEntries_append, hinv.accounted, ← List.append_assoc,
      htakes, List.append_assoc]
  · rw [hlog] at hmem
    obtain hnew | hold := List.mem_append.mp hmem
    · exact hblocked n src e hnew
    · exact hinv.blocked n src e hold

theorem blocked_notMem_of_retires {E : List Event} (h : retiredEntries E = []) {n : ℕ}
    {src : Source} {e : GpuGpfifoEntry} : .blocked n src e ∉ E := fun hmem => by
  have hnone := List.filterMap_eq_nil_iff.mp h _ hmem
  cases hnone

theorem blocked_notMem_finish {s : HardwarePullerEmu} {n : ℕ} {src : Source}
    {e : GpuGpfifoEntry} : .blocked n src e ∉ s.finishEvents := fun hmem => by
  obtain ⟨x, y, h⟩ | ⟨h, -⟩ | h | h := mem_finishEvents hmem <;> cases h

/-- Nothing is taken or retired, and the FSM goes on with what it holds. -/
theorem TakeInv.frame {s s' : HardwarePullerEmu} (hinv : TakeInv s) {E : List Event}
    (hlog : s'.log = E ++ s.log) (htakes : takenEntries E = []) (hretires : retiredEntries E = [])
    (hheld : s'.held = s.held) : TakeInv s' := by
  refine hinv.extend hlog ?_ fun n src e hmem => (blocked_notMem_of_retires hretires hmem).elim
  rw [htakes, hretires, hheld, List.append_nil, List.nil_append]

/-- COMPLETE retires the entry in flight. -/
theorem TakeInv.finish {s s' : HardwarePullerEmu} (hinv : TakeInv s) (hpc : s.pc = .complete)
    {X : List Event} (hlog : s'.log = X ++ (s.finishEvents ++ s.log)) (htakes : takenEntries X = [])
    (hretires : retiredEntries X = []) (hidle : s'.pc.inFlight = false) : TakeInv s' := by
  refine hinv.extend (E := X ++ s.finishEvents) (by rw [hlog, List.append_assoc]) ?_ ?_
  · rw [takenEntries_append, retiredEntries_append, htakes, hretires, takenEntries_finishEvents,
      retiredEntries_finishEvents, held, held, hpc, hidle]
    rfl
  · intro n src e hmem
    obtain hnew | hold := List.mem_append.mp hmem
    · exact (blocked_notMem_of_retires hretires hnew).elim
    · exact (blocked_notMem_finish hold).elim

theorem takeInv_pullerStep {s s' : HardwarePullerEmu} (h : PullerStep s s') (hinv : TakeInv s) :
    TakeInv s' := by
  cases h with
  | move hmove =>
    refine hinv.frame (E := []) rfl rfl rfl ?_
    rw [held, goto, hmove.inFlight]
    rfl
  | noChannel hpc | exchange hpc =>
    exact hinv.frame (E := []) rfl rfl rfl (by rw [held, held, hpc]; rfl)
  | select hpc => exact hinv.frame (E := [_]) rfl rfl rfl (by rw [held, held, hpc]; rfl)
  | resume hpc => exact hinv.frame (E := [_, _]) rfl rfl rfl (by rw [held, held, hpc]; rfl)
  | dequeue hpc | fetch hpc =>
    exact hinv.extend (E := [_]) rfl (by rw [held, held, hpc]; rfl) (by simp)
  | blockNext hpc hop =>
    refine hinv.extend (E := [_]) rfl (by rw [held, held, hpc]; rfl) fun n src e hmem => ?_
    cases List.mem_singleton.mp hmem
    exact hop
  | blockLast hpc hop =>
    refine hinv.extend (E := s.yieldEvents ++ [.blocked s.serial s.source s.currentEntry])
      (by rw [List.append_assoc, List.singleton_append]) ?_ fun n src e hmem => ?_
    · rw [takenEntries_append, retiredEntries_append, takenEntries_yieldEvents,
        retiredEntries_yieldEvents, held, held, hpc]
      rfl
    · obtain hnew | hold := List.mem_append.mp hmem
      · exact (blocked_notMem_of_retires (retiredEntries_yieldEvents s) hnew).elim
      · cases List.mem_singleton.mp hold
        exact hop
  | dispatch hpc =>
    exact hinv.frame rfl (takenEntries_dispatchEvents s _ _) (retiredEntries_dispatchEvents s _ _)
      (by rw [held, held, hpc]; rfl)
  | release hpc => exact hinv.frame (E := [_]) rfl rfl rfl (by rw [held, held, hpc]; rfl)
  | wait hpc | waited hpc => exact hinv.frame (E := []) rfl rfl rfl (by rw [held, held, hpc]; rfl)
  | completeNext hpc | checkpointDirect hpc => exact hinv.finish hpc (X := []) rfl rfl rfl rfl
  | completeLast hpc =>
    exact hinv.finish hpc rfl (takenEntries_yieldEvents s) (retiredEntries_yieldEvents s) rfl
  | checkpointNone hpc => exact hinv.finish hpc (X := [_, _]) rfl rfl rfl rfl
  | checkpointLoad hpc => exact hinv.finish hpc (X := [_, _, _]) rfl rfl rfl rfl

theorem takeInv_envStep {s s' : HardwarePullerEmu} {a : Action} (h : EnvStep s a s')
    (hinv : TakeInv s) : TakeInv s' := by
  cases h with
  | accept => exact hinv.frame (E := [_]) rfl rfl rfl rfl
  | direct => exact hinv.frame (E := [_, _]) rfl rfl rfl rfl
  | configure => exact hinv.frame (E := []) rfl rfl rfl rfl
  | quiet queues hal host preempt hsema hevs =>
    exact hinv.frame rfl (takenEntries_of_idle fun ev hev => Event.taken?_of_producer (hevs ev hev))
      (retiredEntries_of_idle fun ev hev => Event.retired?_of_producer (hevs ev hev)) rfl

theorem takeInv_step (s : HardwarePullerEmu) (a : Action) (hinv : TakeInv s) :
    TakeInv (step s a) := by
  obtain ⟨-, h⟩ | ⟨-, h⟩ := step_cases s a
  · exact takeInv_pullerStep h hinv
  · exact takeInv_envStep h hinv

/-- **Entries in flight.**  In every reachable state each taken entry is retired, once, or it is the
one that the FSM holds. -/
theorem takes_run (cfg : Config) (as : List Action) : TakeInv (after cfg as) :=
  run_of_invariant takeInv_step as ⟨rfl, fun _ _ _ h => absurd h List.not_mem_nil⟩

/-! ### The entries of one submission -/

def Source.isOf (id : ℕ) : Source → Bool
  | .batch j _ _ => j == id
  | .ring _ => false

/-- The entries taken for submission `id`, newest first. -/
def takesOf (id : ℕ) (log : List Event) : List Take :=
  (takenEntries log).filter fun t => t.src.isOf id

def retiresOf (id : ℕ) (log : List Event) : List Take :=
  (retiredEntries log).filter fun t => t.src.isOf id

/-- The submission is neither waiting in its slot nor loaded with entries left, or the puller is
quiescent. -/
def BatchOver (s : HardwarePullerEmu) (id c : ℕ) : Prop :=
  Drained s ∨ ¬ Live s id ∧ ¬ (s.busy c = true ∧ s.slotId c = id)

/-- The first `k` entries of the batch have been retired for submission `id`, each once. -/
def Retired (log : List Event) (id : ℕ) (addr : UInt64) (k : ℕ) : Prop :=
  (retiresOf id log).map Take.src = (batchSources id addr k).reverse

/-! ### The condition -/

/-- Submissions find their slot free, and an entry from a ring is retired only while the slot of the
current channel is.  No GREEN channel is preempted, a PREEMPTED channel resumes with the batch of
its slot, and a checkpoint loads the requested channel. -/
def deliverGuard (s : HardwarePullerEmu) : Action → Prop
  | .puller _ =>
    (s.retires = true → s.source.isBatch = false → slotFree s s.currentChannelId) ∧
      s.switchVictim = none ∧ (∀ r ∈ s.resumption, r.1 = r.2) ∧
      (s.atCheckpoint = true → ∀ c ∈ s.checkpointSelection, c = s.preempt.target)
  | .submitBatch _ => slotFree s s.currentChannelId
  | .channelSubmit c _ => s.busy c = false
  | _ => True

instance decidableDeliverGuard (s : HardwarePullerEmu) : ∀ a, Decidable (deliverGuard s a)
  | .puller _ => inferInstanceAs (Decidable (_ ∧ _ ∧ _ ∧ _))
  | .submitBatch _ => inferInstanceAs (Decidable (slotFree s s.currentChannelId))
  | .channelSubmit _ _ => inferInstanceAs (Decidable (_ = _))
  | .configure _ | .triggerPreempt _ | .signalBarrier _ | .writeEntry _ _ | .advanceWriteIdx _
  | .ringDoorbell _ | .writeDoorbell _ | .onDoorbell | .memWrite _ _ _ | .hostWrite _ =>
    .isTrue trivial

/-! ### The invariant -/

/-- The registers run batch `b`, with the entries before the cursor retired. -/
structure RunsFrom (s : HardwarePullerEmu) (b : Batch) : Prop where
  addr : s.regs.gpfifoAddr = b.gpfifoAddr
  total : s.regs.total = b.entryCount.toNat
  retired : Retired s.log s.loaded.id b.gpfifoAddr s.regs.index

structure EntryInv (s : HardwarePullerEmu) : Prop where
  book : Bookkeeping s
  fresh : ∀ id, s.nextId ≤ id → retiresOf id s.log = []
  running : s.regs.index < s.regs.total →
    ∃ c b, .submitted s.loaded.id c b ∈ s.log ∧ RunsFrom s b
  owner : s.regs.index < s.regs.total → s.channelMgr.isSome = true →
    s.busy s.currentChannelId = true ∧ s.slotId s.currentChannelId = s.loaded.id
  flight : s.pc.inFlight = true → s.source.isBatch = true → s.regs.index < s.regs.total ∧
    s.source = .batch s.loaded.id s.regs.index (entryAddr s.regs.gpfifoAddr s.regs.index)
  driven : s.regs.index < s.regs.total → s.pc = .fetch ∨
    s.pc.inFlight = true ∧ s.source.isBatch = true ∨
    s.channelMgr = none ∧ (rungSinceSubmission s.log = true → s.queues.Ringing)
  waiting : ∀ c, s.busy c = true → ¬ Live s (s.slotId c) → retiresOf (s.slotId c) s.log = []
  done : ∀ id c b, .submitted id c b ∈ s.log → Live s id ∨ s.busy c = true ∧ s.slotId c = id ∨
    Retired s.log id b.gpfifoAddr b.entryCount.toNat

/-! ### Steps that retire no entry of a batch -/

/-- The event is neither a submission nor the retirement of a batch's entry. -/
def Event.keepsEntries (ev : Event) : Bool :=
  !ev.isSubmission && ev.retired?.all fun t => !t.src.isBatch

theorem Event.keepsEntries_of_producer {ev : Event} (h : ev.isProducer = true) :
    ev.keepsEntries = true := by
  cases ev <;> first | rfl | cases h

theorem Event.not_submission_of_keepsEntries {ev : Event} (h : ev.keepsEntries = true) :
    ev.isSubmission = false := by
  simp only [Event.keepsEntries, Bool.and_eq_true, Bool.not_eq_true'] at h
  exact h.1

theorem Source.isBatch_of_isOf {src : Source} {id : ℕ} (h : src.isOf id = true) :
    src.isBatch = true := by
  cases src with
  | batch => rfl
  | ring => cases h

theorem retiresOf_append (id : ℕ) (new old : List Event) :
    retiresOf id (new ++ old) = retiresOf id new ++ retiresOf id old := by
  rw [retiresOf, retiredEntries_append, List.filter_append]
  rfl

theorem retiresOf_append_keeps {E log : List Event} (h : ∀ ev ∈ E, ev.keepsEntries = true)
    (id : ℕ) : retiresOf id (E ++ log) = retiresOf id log := by
  have hnone : retiresOf id E = [] := by
    refine List.filter_eq_nil_iff.mpr fun t ht hof => ?_
    obtain ⟨ev, hev, hret⟩ := List.mem_filterMap.mp ht
    have hkeeps := h ev hev
    simp only [Event.keepsEntries, hret, Option.all_some, Bool.and_eq_true,
      Bool.not_eq_true'] at hkeeps
    rw [Source.isBatch_of_isOf hof] at hkeeps
    cases hkeeps.2
  rw [retiresOf_append, hnone, List.nil_append]

/-- Events that keep the entries leave the retired entries and the submissions as they were. -/
theorem append_keeps {E log log' : List Event} (h : ∀ ev ∈ E, ev.keepsEntries = true)
    (hlog : log' = E ++ log) : (∀ id, retiresOf id log' = retiresOf id log) ∧
      ∀ {id c b}, .submitted id c b ∈ log' ↔ .submitted id c b ∈ log := by
  subst hlog
  exact ⟨retiresOf_append_keeps h,
    submitted_append_idle fun ev hev => Event.not_submission_of_keepsEntries (h ev hev)⟩

theorem retired_congr {log log' : List Event} {id : ℕ}
    (h : retiresOf id log' = retiresOf id log) (addr : UInt64) (k : ℕ) :
    Retired log' id addr k ↔ Retired log id addr k := by
  rw [Retired, Retired, h]

theorem retired_zero {log : List Event} {id : ℕ} (h : retiresOf id log = []) (addr : UInt64) :
    Retired log id addr 0 := by
  rw [Retired, h]
  rfl

/-- The registers stay as they were, or are exhausted before and after. -/
def SameCursor (s s' : HardwarePullerEmu) : Prop :=
  s.regs.index < s.regs.total ∨ s'.regs.index < s'.regs.total →
    s'.regs.gpfifoAddr = s.regs.gpfifoAddr ∧ s'.regs.index = s.regs.index ∧
      s'.regs.total = s.regs.total

theorem SameCursor.lt_iff {s s' : HardwarePullerEmu} (h : SameCursor s s') :
    s'.regs.index < s'.regs.total ↔ s.regs.index < s.regs.total := by
  constructor
  · intro hlt
    obtain ⟨-, hidx, htotal⟩ := h (.inr hlt)
    rwa [hidx, htotal] at hlt
  · intro hlt
    obtain ⟨-, hidx, htotal⟩ := h (.inl hlt)
    rwa [hidx, htotal]

/-- Registers, slots and numbers as they were, and no entry of a batch retired. -/
theorem EntryInv.frame {s s' : HardwarePullerEmu} (hinv : EntryInv s) (hbook : Bookkeeping s')
    {E : List Event} (hevs : ∀ ev ∈ E, ev.keepsEntries = true) (hlog : s'.log = E ++ s.log)
    (hregs : SameCursor s s') (hloaded : s'.loaded = s.loaded) (hslot : s'.slotId = s.slotId)
    (hnext : s'.nextId = s.nextId) (hbusy : ∀ c, s'.busy c = s.busy c)
    (hcur : s.regs.index < s.regs.total → s'.channelMgr.isSome = true →
      s'.currentChannelId = s.currentChannelId ∧ s.channelMgr.isSome = true)
    (hflight : s'.pc.inFlight = true → s'.source.isBatch = true →
      s.regs.index < s.regs.total ∧
        s'.source = .batch s.loaded.id s.regs.index (entryAddr s.regs.gpfifoAddr s.regs.index))
    (hdriven : s.regs.index < s.regs.total → s'.pc = .fetch ∨
      s'.pc.inFlight = true ∧ s'.source.isBatch = true ∨
      s'.channelMgr = none ∧ (rungSinceSubmission s'.log = true → s'.queues.Ringing)) :
    EntryInv s' := by
  obtain ⟨hretires, hsubmitted⟩ := append_keeps hevs hlog
  have hlive : ∀ id, Live s' id ↔ Live s id := by
    intro id
    rw [Live, Live, hloaded, hregs.lt_iff]
  refine ⟨hbook, ?_, ?_, ?_, ?_, ?_, ?_, ?_⟩
  · intro id hid
    rw [hretires]
    exact hinv.fresh id (hnext ▸ hid)
  · intro hlt
    obtain ⟨haddr, hidx, htotal⟩ := hregs (.inr hlt)
    obtain ⟨c, b, hb, hrun⟩ := hinv.running (hregs.lt_iff.mp hlt)
    refine ⟨c, b, ?_, haddr.trans hrun.addr, htotal.trans hrun.total, ?_⟩
    · rw [hloaded]
      exact hsubmitted.mpr hb
    · rw [hloaded, hidx, retired_congr (hretires _)]
      exact hrun.retired
  · intro hlt hsome
    obtain ⟨hchannel, hsome⟩ := hcur (hregs.lt_iff.mp hlt) hsome
    rw [hbusy, hchannel, hslot, hloaded]
    exact hinv.owner (hregs.lt_iff.mp hlt) hsome
  · intro hpc hsrc
    obtain ⟨hlt, heq⟩ := hflight hpc hsrc
    obtain ⟨haddr, hidx, -⟩ := hregs (.inl hlt)
    rw [hregs.lt_iff, hloaded, hidx, haddr]
    exact ⟨hlt, heq⟩
  · exact fun hlt => hdriven (hregs.lt_iff.mp hlt)
  · intro c hc hnot
    rw [hbusy] at hc
    rw [hslot, hlive] at hnot
    rw [hslot, hretires]
    exact hinv.waiting c hc hnot
  · intro id c b hb
    rw [hlive, hbusy, hslot, retired_congr (hretires id)]
    exact hinv.done id c b (hsubmitted.mp hb)

/-! ### The end of an entry -/

/-- The entry in flight is retired and the cursor moves on. -/
structure Retires (s s' : HardwarePullerEmu) (E : List Event) : Prop where
  log : s'.log = E ++ s.log
  entry : retiredEntries E = [⟨s.serial, s.source, s.currentEntry⟩]
  quiet : ∀ ev ∈ E, ev.isSubmission = false
  regs : ∃ fence, s'.regs = { s.regs with index := s.regs.index + 1, fence := fence }
  loaded : s'.loaded = s.loaded
  slotId : s'.slotId = s.slotId
  nextId : s'.nextId = s.nextId
  pc : s'.pc.inFlight = false

section Retire

variable {s s' : HardwarePullerEmu} {E : List Event}

theorem Retires.submitted (h : Retires s s' E) {id c : ℕ} {b : Batch} :
    .submitted id c b ∈ s'.log ↔ .submitted id c b ∈ s.log := by
  rw [h.log]
  exact submitted_append_idle h.quiet

theorem Retires.over_iff (h : Retires s s' E) :
    s'.regs.total ≤ s'.regs.index ↔ s.regs.total ≤ s.regs.index + 1 := by
  obtain ⟨fence, hregs⟩ := h.regs
  rw [hregs]

/-- An entry from a ring counts for no batch. -/
theorem Retires.keeps (h : Retires s s' E) (hring : s.source.isBatch = false) :
    ∀ ev ∈ E, ev.keepsEntries = true := by
  intro ev hev
  simp only [Event.keepsEntries, Bool.and_eq_true, Bool.not_eq_true']
  refine ⟨h.quiet ev hev, ?_⟩
  cases hret : ev.retired? with
  | none => rfl
  | some t =>
    have hmem : t ∈ retiredEntries E := List.mem_filterMap.mpr ⟨ev, hev, hret⟩
    rw [h.entry, List.mem_singleton] at hmem
    subst hmem
    simp [hring]

theorem Retires.retiresOf_of_ne (h : Retires s s' E) {i : ℕ} {addr : UInt64}
    (hsrc : s.source = .batch s.loaded.id i addr) {id : ℕ} (hne : s.loaded.id ≠ id) :
    retiresOf id s'.log = retiresOf id s.log := by
  have hnone : retiresOf id E = [] := by
    simp [retiresOf, h.entry, hsrc, Source.isOf, hne]
  rw [h.log, retiresOf_append, hnone, List.nil_append]

/-- The loaded submission has one more of its entries retired. -/
theorem Retires.retired_self (h : Retires s s' E) {b : Batch} (hrun : RunsFrom s b)
    (hsrc : s.source =
      .batch s.loaded.id s.regs.index (entryAddr s.regs.gpfifoAddr s.regs.index)) :
    Retired s'.log s.loaded.id b.gpfifoAddr (s.regs.index + 1) := by
  have hone : retiresOf s.loaded.id E = [⟨s.serial, s.source, s.currentEntry⟩] := by
    simp [retiresOf, h.entry, hsrc, Source.isOf]
  rw [Retired, h.log, retiresOf_append, hone, List.singleton_append, List.map_cons, hrun.retired,
    batchSources_succ, List.reverse_append, hsrc, hrun.addr]
  rfl

theorem EntryInv.fresh_retired (hinv : EntryInv s) (h : Retires s s' E) {c : ℕ} {b : Batch}
    (hb : .submitted s.loaded.id c b ∈ s.log) {i : ℕ} {addr : UInt64}
    (hsrc : s.source = .batch s.loaded.id i addr) (id : ℕ) (hid : s'.nextId ≤ id) :
    retiresOf id s'.log = [] := by
  rw [h.nextId] at hid
  have hlow := hinv.book.numbered.fresh _ _ _ hb
  rw [h.retiresOf_of_ne hsrc (by omega)]
  exact hinv.fresh id hid

/-- **Inside a batch.**  The running batch is one entry further. -/
theorem EntryInv.retireNext (hinv : EntryInv s) (hbook : Bookkeeping s') (h : Retires s s' E)
    (hpc : s.pc.inFlight = true) (hbatch : s.source.isBatch = true)
    (hidx : s.regs.index + 1 < s.regs.total) (hmgr : s'.channelMgr = s.channelMgr)
    (hcur : s'.currentChannelId = s.currentChannelId) (hfetch : s'.pc = .fetch) :
    EntryInv s' := by
  obtain ⟨hlt, hsrc⟩ := hinv.flight hpc hbatch
  obtain ⟨c₀, b₀, hb₀, hrun⟩ := hinv.running hlt
  obtain ⟨fence, hregs⟩ := h.regs
  have hbusy : ∀ c, s'.busy c = s.busy c := fun c => by rw [busy, busy, hmgr]
  have hlive : ∀ id, Live s' id ↔ Live s id := by
    intro id
    rw [Live, Live, h.loaded, hregs]
    exact and_congr_right fun _ => ⟨fun _ => hlt, fun _ => hidx⟩
  have hother : ∀ id, ¬ Live s id → retiresOf id s'.log = retiresOf id s.log := fun id hnot =>
    h.retiresOf_of_ne hsrc fun heq => hnot ⟨heq, hlt⟩
  refine ⟨hbook, hinv.fresh_retired h hb₀ hsrc, ?_, ?_, ?_, ?_, ?_, ?_⟩
  · intro _
    refine ⟨c₀, b₀, ?_, ?_, ?_, ?_⟩
    · rw [h.loaded]
      exact h.submitted.mpr hb₀
    · rw [hregs]
      exact hrun.addr
    · rw [hregs]
      exact hrun.total
    · rw [h.loaded, hregs]
      exact h.retired_self hrun hsrc
  · intro _ hsome
    rw [hmgr] at hsome
    rw [hbusy, hcur, h.slotId, h.loaded]
    exact hinv.owner hlt hsome
  · intro hf
    rw [h.pc] at hf
    cases hf
  · exact fun _ => .inl hfetch
  · intro c hc hnot
    rw [hbusy] at hc
    rw [h.slotId, hlive] at hnot
    rw [h.slotId, hother _ hnot]
    exact hinv.waiting c hc hnot
  · intro id c b hb
    rw [hlive, hbusy, h.slotId]
    by_cases hl : Live s id
    · exact .inl hl
    · rw [retired_congr (hother id hl)]
      exact hinv.done id c b (h.submitted.mp hb)

/-- **At the end of a batch.**  All its entries are retired and its slot is freed. -/
theorem EntryInv.retireLast (hinv : EntryInv s) (hbook : Bookkeeping s') (h : Retires s s' E)
    (hpc : s.pc.inFlight = true) (hbatch : s.source.isBatch = true)
    (hidx : s.regs.total ≤ s.regs.index + 1)
    (hbusy : ∀ c, s'.busy c = (s.busy c && c != s.currentChannelId)) : EntryInv s' := by
  obtain ⟨hlt, hsrc⟩ := hinv.flight hpc hbatch
  obtain ⟨c₀, b₀, hb₀, hrun⟩ := hinv.running hlt
  have hover : ¬ s'.regs.index < s'.regs.total := Nat.not_lt.mpr (h.over_iff.mpr hidx)
  have hnot : ∀ id, ¬ Live s' id := fun id hl => hover hl.2
  have hfull : s.regs.index + 1 = b₀.entryCount.toNat := by
    rw [← hrun.total]
    omega
  -- no other slot in flight holds the loaded submission
  have hother : ∀ c, s'.busy c = true → s.busy c = true ∧ s.loaded.id ≠ s.slotId c := by
    intro c hc
    rw [hbusy] at hc
    simp only [Bool.and_eq_true, bne_iff_ne, ne_eq] at hc
    refine ⟨hc.1, fun heq => hc.2 ?_⟩
    obtain ⟨m, hm, hflight⟩ := exists_of_busy hc.1
    obtain ⟨hown, hid⟩ := hinv.owner hlt (by rw [hm]; rfl)
    rw [busy_eq hm] at hown
    have hsub := hinv.book.slots m hm _ hown
    have hsub' := hinv.book.slots m hm c hflight
    rw [hid, heq] at hsub
    exact (hinv.book.numbered.unique _ _ _ _ _ hsub hsub').1.symm
  refine ⟨hbook, hinv.fresh_retired h hb₀ hsrc, fun hlt' => absurd hlt' hover,
    fun hlt' => absurd hlt' hover, ?_, fun hlt' => absurd hlt' hover, ?_, ?_⟩
  · intro hf
    rw [h.pc] at hf
    cases hf
  · intro c hc _
    obtain ⟨hc', hne⟩ := hother c hc
    rw [h.slotId, h.retiresOf_of_ne hsrc hne]
    exact hinv.waiting c hc' fun hl => hne hl.1
  · intro id c b hb
    have hb' := h.submitted.mp hb
    by_cases hid : s.loaded.id = id
    · subst hid
      obtain ⟨-, rfl⟩ := hinv.book.numbered.unique _ _ _ _ _ hb' hb₀
      refine .inr (.inr ?_)
      rw [← hfull]
      exact h.retired_self hrun hsrc
    · obtain hl | ⟨hc, hslot⟩ | hd := hinv.done id c b hb'
      · exact absurd hl.1 hid
      · refine .inr (.inl ⟨?_, by rw [h.slotId]; exact hslot⟩)
        obtain ⟨m, hm, -⟩ := exists_of_busy hc
        have hne : c ≠ s.currentChannelId := by
          rintro rfl
          exact hid ((hinv.owner hlt (by rw [hm]; rfl)).2.symm.trans hslot)
        rw [hbusy, hc]
        simpa using hne
      · exact .inr (.inr ((retired_congr (h.retiresOf_of_ne hsrc hid) _ _).mpr hd))

/-- An entry from a ring is in flight beside exhausted registers, or beside a batch that was loaded
without a manager. -/
theorem EntryInv.over_of_ring (hinv : EntryInv s) (hpc : s.pc.inFlight = true)
    (hring : s.source.isBatch = false) (hfree : slotFree s s.currentChannelId) :
    s.regs.total ≤ s.regs.index := by
  by_contra hnot
  have hlt := Nat.lt_of_not_le hnot
  obtain hf | ⟨-, hf⟩ | ⟨hnone, -⟩ := hinv.driven hlt
  · rw [hf] at hpc
    cases hpc
  · rw [hring] at hf
    cases hf
  · rw [slotFree, hnone, Option.isSome_none, if_neg Bool.false_ne_true] at hfree
    exact hnot hfree

/-- **An entry from a ring.**  With the current slot free, no batch is touched. -/
theorem EntryInv.retireRing (hinv : EntryInv s) (hbook : Bookkeeping s') (h : Retires s s' E)
    (hpc : s.pc.inFlight = true) (hring : s.source.isBatch = false)
    (hfree : slotFree s s.currentChannelId)
    (hbusy : ∀ c, s'.busy c = (s.busy c && c != s.currentChannelId)) : EntryInv s' := by
  have hover := hinv.over_of_ring hpc hring hfree
  have hlt : ¬ s.regs.index < s.regs.total := Nat.not_lt.mpr hover
  have hfree' : s.busy s.currentChannelId = false := by
    unfold slotFree at hfree
    cases hm : s.channelMgr with
    | none => rw [busy, hm]
    | some m => rwa [hm, Option.isSome_some, if_pos rfl] at hfree
  refine hinv.frame hbook (h.keeps hring) h.log ?_ h.loaded h.slotId h.nextId (fun c => ?_)
    (fun hlt' => absurd hlt' hlt) ?_ (fun hlt' => absurd hlt' hlt)
  · rintro (hlt' | hlt')
    · exact absurd hlt' hlt
    · exact absurd hlt' (Nat.not_lt.mpr (h.over_iff.mpr (Nat.le_succ_of_le hover)))
  · rw [hbusy]
    by_cases hc : c = s.currentChannelId
    · rw [hc, hfree', Bool.false_and]
    · rw [bne_iff_ne.mpr hc, Bool.and_true]
  · intro hf
    rw [h.pc] at hf
    cases hf

/-- The last entry in flight is retired, of a batch or, with the current slot free, of a ring. -/
theorem EntryInv.retire (hinv : EntryInv s) (hbook : Bookkeeping s') (h : Retires s s' E)
    (hpc : s.pc.inFlight = true) (hidx : s.regs.total ≤ s.regs.index + 1)
    (hring : s.source.isBatch = false → slotFree s s.currentChannelId)
    (hbusy : ∀ c, s'.busy c = (s.busy c && c != s.currentChannelId)) : EntryInv s' := by
  cases hsrc : s.source.isBatch with
  | true => exact hinv.retireLast hbook h hpc hsrc hidx hbusy
  | false => exact hinv.retireRing hbook h hpc hsrc (hring hsrc) hbusy

/-- The entry in flight is not the last one, so it is an entry of the batch. -/
theorem EntryInv.isBatch_of_next (hinv : EntryInv s) (hpc : s.pc.inFlight = true)
    (hidx : s.regs.index + 1 < s.regs.total)
    (hring : s.source.isBatch = false → slotFree s s.currentChannelId) :
    s.source.isBatch = true := by
  cases hsrc : s.source.isBatch with
  | true => rfl
  | false =>
    have hover := hinv.over_of_ring hpc hsrc (hring hsrc)
    omega

end Retire

/-! ### The start of a batch -/

/-- **Load.**  With the registers exhausted, the batch waiting in a slot is loaded from its start. -/
theorem EntryInv.load {s s' : HardwarePullerEmu} (hinv : EntryInv s) (hbook : Bookkeeping s')
    (hover : s.regs.total ≤ s.regs.index) {E : List Event}
    (hevs : ∀ ev ∈ E, ev.keepsEntries = true) (hlog : s'.log = E ++ s.log) {c : ℕ} {b : Batch}
    (hb : .submitted (s.slotId c) c b ∈ s.log) (hc : s.busy c = true)
    (hbusy : ∀ d, s'.busy d = s.busy d) (hregs : s'.regs = b.regs)
    (hid : s'.loaded.id = s.slotId c) (hcur : s'.currentChannelId = c)
    (hslot : s'.slotId = s.slotId) (hnext : s'.nextId = s.nextId) (hpc : s'.pc = .fetch) :
    EntryInv s' := by
  obtain ⟨hretires, hsubmitted⟩ := append_keeps hevs hlog
  have hnot : ∀ id, ¬ Live s id := fun id hl => Nat.not_lt.mpr hover hl.2
  refine ⟨hbook, ?_, ?_, ?_, ?_, fun _ => .inl hpc, ?_, ?_⟩
  · intro id hid
    rw [hretires]
    exact hinv.fresh id (hnext ▸ hid)
  · intro _
    refine ⟨c, b, ?_, ?_, ?_, ?_⟩
    · rw [hid]
      exact hsubmitted.mpr hb
    · rw [hregs]
      rfl
    · rw [hregs]
      rfl
    · rw [hid, hregs, retired_congr (hretires _)]
      exact retired_zero (hinv.waiting c hc (hnot _)) b.gpfifoAddr
  · intro _ _
    rw [hbusy, hcur, hslot, hid]
    exact ⟨hc, rfl⟩
  · intro hf
    rw [hpc] at hf
    cases hf
  · intro d hd _
    rw [hbusy] at hd
    rw [hslot, hretires]
    exact hinv.waiting d hd (hnot _)
  · intro id d e h
    rw [hbusy, hslot, retired_congr (hretires id)]
    exact .inr ((hinv.done id d e (hsubmitted.mp h)).resolve_left (hnot id))

/-! ### Submissions -/

/-- The manager accepts a batch into a free slot. -/
theorem EntryInv.accept {s s' : HardwarePullerEmu} {m : ChannelManager} (hinv : EntryInv s)
    (hm : s.channelMgr = some m) {c : ℕ} {b : Batch} (hreg : m.isRegistered c = true) (flag : Bool)
    (hfree : s.busy c = false) (hbook : Bookkeeping s')
    (heq : s' = { s with
      queues := { s.queues with doorbellPending := flag }
      channelMgr := some (m.submitBatch c b)
      nextId := s.nextId + 1
      slotId := Function.update s.slotId c s.nextId
      log := .submitted s.nextId c b :: s.log }) : EntryInv s' := by
  subst heq
  have hother : ∀ d, d ≠ c → ((m.submitBatch c b).channels d).batchInFlight = s.busy d := by
    intro d hd
    rw [submitBatch_channel_of_ne hd, busy_eq hm]
  have hself : ((m.submitBatch c b).channels c).batchInFlight = true :=
    (submitBatch_channel hreg b).2
  have hsub : s.log ⊆ .submitted s.nextId c b :: s.log := List.subset_cons_self _ _
  refine ⟨hbook, fun id hid => hinv.fresh id (Nat.le_of_succ_le hid), ?_, ?_, hinv.flight, ?_, ?_,
    ?_⟩
  · intro hlt
    obtain ⟨d, e, he, hrun⟩ := hinv.running hlt
    exact ⟨d, e, hsub he, hrun.addr, hrun.total, hrun.retired⟩
  · intro hlt _
    obtain ⟨hown, hid⟩ := hinv.owner hlt (by rw [hm]; rfl)
    have hne : s.currentChannelId ≠ c := by
      rintro rfl
      rw [hfree] at hown
      cases hown
    refine ⟨?_, ?_⟩
    · simp only [busy]
      rw [hother _ hne]
      exact hown
    · simp only [Function.update_of_ne hne]
      exact hid
  · intro hlt
    obtain hf | hf | ⟨hnone, -⟩ := hinv.driven hlt
    · exact .inl hf
    · exact .inr (.inl hf)
    · rw [hm] at hnone
      cases hnone
  · intro d hd hnot
    by_cases hdc : d = c
    · subst hdc
      simp only [Function.update_self]
      exact hinv.fresh _ (Nat.le_refl _)
    · simp only [busy] at hd
      rw [hother d hdc] at hd
      simp only [Function.update_of_ne hdc] at hnot ⊢
      exact hinv.waiting d hd hnot
  · intro id d e h
    obtain heq | hold := List.mem_cons.mp h
    · cases heq
      refine .inr (.inl ⟨hself, ?_⟩)
      simp only [Function.update_self]
    · obtain hl | ⟨hd, hid⟩ | hdone := hinv.done id d e hold
      · exact .inl hl
      · have hne : d ≠ c := by
          rintro rfl
          rw [hfree] at hd
          cases hd
        refine .inr (.inl ⟨?_, ?_⟩)
        · simp only [busy]
          rw [hother d hne]
          exact hd
        · simp only [Function.update_of_ne hne]
          exact hid
      · exact .inr (.inr hdone)

/-- Without a manager the batch replaces exhausted registers. -/
theorem EntryInv.direct {s s' : HardwarePullerEmu} (hinv : EntryInv s) (hm : s.channelMgr = none)
    {b : Batch} (w : SemWaiter) (hover : s.regs.total ≤ s.regs.index) (hbook : Bookkeeping s')
    (heq : s' = { s with
      regs := b.regs
      loaded := ⟨s.nextId, s.currentChannelId, b.regs⟩
      nextId := s.nextId + 1
      waiter := w
      log := .loaded ⟨s.nextId, s.currentChannelId, b.regs⟩ ::
        .submitted s.nextId s.currentChannelId b :: s.log }) : EntryInv s' := by
  subst heq
  have hnot : ∀ id, ¬ Live s id := fun id hl => Nat.not_lt.mpr hover hl.2
  have hidle : ∀ c, s.busy c = false := fun c => by rw [busy, hm]
  have hzero : Retired s.log s.nextId b.gpfifoAddr 0 :=
    retired_zero (hinv.fresh _ (Nat.le_refl _)) b.gpfifoAddr
  refine ⟨hbook, fun id hid => hinv.fresh id (Nat.le_of_succ_le hid), ?_, ?_, ?_, ?_, ?_, ?_⟩
  · intro _
    exact ⟨s.currentChannelId, b, by simp, rfl, rfl, hzero⟩
  · intro _ hsome
    rw [hm] at hsome
    cases hsome
  · intro hf hsrc
    exact absurd (hinv.flight hf hsrc).1 (Nat.not_lt.mpr hover)
  · intro _
    refine .inr (.inr ⟨hm, fun hrung => ?_⟩)
    rw [rungSinceSubmission, since_cons_of_neg rfl, since_cons_of_pos rfl] at hrung
    cases hrung
  · intro c hc
    rw [busy, hm] at hc
    cases hc
  · intro id d e h
    simp only [List.mem_cons, reduceCtorEq, false_or] at h
    obtain heq | hold := h
    · cases heq
      by_cases hcount : 0 < b.entryCount.toNat
      · exact .inl ⟨rfl, hcount⟩
      · refine .inr (.inr ?_)
        rw [Nat.eq_zero_of_not_pos hcount]
        exact hzero
    · obtain hl | ⟨hc, -⟩ | hd := hinv.done id d e hold
      · exact absurd hl (hnot id)
      · rw [hidle] at hc
        cases hc
      · exact .inr (.inr hd)

/-! ### The step lemmas -/

/-- In CHANNEL_SWITCH of a managed puller no batch is half done. -/
theorem EntryInv.over_of_switch {s : HardwarePullerEmu} {m : ChannelManager} (hinv : EntryInv s)
    (hpc : s.pc = .channelSwitch) (hm : s.channelMgr = some m) : s.regs.total ≤ s.regs.index := by
  by_contra hlt
  obtain hf | ⟨hf, -⟩ | ⟨hnone, -⟩ := hinv.driven (Nat.lt_of_not_le hlt)
  · rw [hpc] at hf
    cases hf
  · rw [hpc] at hf
    cases hf
  · rw [hm] at hnone
    cases hnone

theorem SameCursor.of_eq {s s' : HardwarePullerEmu} (h : s'.regs = s.regs) : SameCursor s s' := by
  rintro -
  rw [h]
  exact ⟨rfl, rfl, rfl⟩

theorem dispatchEvents_keep (s : HardwarePullerEmu) (launches : List LaunchParams)
    (failed : Bool) : ∀ ev ∈ s.dispatchEvents launches failed, ev.keepsEntries = true := by
  intro ev hev
  obtain ⟨rfl, -⟩ | ⟨p, rfl⟩ | ⟨q, i, t, rfl⟩ | rfl := mem_dispatchEvents hev <;> rfl

/-- DISPATCH submits nothing and rings no doorbell. -/
theorem rungSinceSubmission_dispatch (s : HardwarePullerEmu) (launches : List LaunchParams)
    (failed : Bool) : rungSinceSubmission (s.dispatchEvents launches failed ++ s.log) =
      rungSinceSubmission s.log := by
  have hquiet : ∀ ev ∈ s.dispatchEvents launches failed,
      ev.isSubmission = false ∧ ev.isRing = false := by
    intro ev hev
    obtain ⟨rfl, -⟩ | ⟨p, rfl⟩ | ⟨q, i, t, rfl⟩ | rfl := mem_dispatchEvents hev <;>
      exact ⟨rfl, rfl⟩
  have hnone : (s.dispatchEvents launches failed).any Event.isRing = false :=
    List.any_eq_false.mpr fun ev hev => by rw [(hquiet ev hev).2]; exact Bool.false_ne_true
  rw [rungSinceSubmission, since_append fun ev hev => (hquiet ev hev).1, List.any_append, hnone,
    Bool.false_or]
  rfl

theorem not_submission_append {X E : List Event} (hX : ∀ ev ∈ X, ev.isSubmission = false)
    (hE : ∀ ev ∈ E, ev.isSubmission = false) : ∀ ev ∈ X ++ E, ev.isSubmission = false :=
  fun ev hev => (List.mem_append.mp hev).elim (hX ev) (hE ev)

theorem yieldEvents_not_submission (s : HardwarePullerEmu) :
    ∀ ev ∈ s.yieldEvents, ev.isSubmission = false := by
  intro ev hev
  rw [mem_yieldEvents hev]
  rfl

/-- The busy slots after the yield at the end of a batch. -/
theorem busy_yieldedMgr {s s' : HardwarePullerEmu} (hbook : Bookkeeping s)
    (hm' : s'.channelMgr = s.yieldedMgr) (c : ℕ) :
    s'.busy c = (s.busy c && c != s.currentChannelId) := by
  cases hm : s.channelMgr with
  | none => simp [busy, hm', yieldedMgr, hm]
  | some m =>
    rw [yieldedMgr, hm, Option.map_some] at hm'
    exact busy_yielded hbook hm hm' rfl c

/-- COMPLETE at the end of a batch, with further events of its own. -/
theorem EntryInv.complete {s s' : HardwarePullerEmu} (hinv : EntryInv s) (hbook : Bookkeeping s')
    (hpc : s.pc = .complete) (hidx : s.regs.total ≤ s.regs.index + 1)
    (hring : s.source.isBatch = false → slotFree s s.currentChannelId) {X : List Event}
    (hlog : s'.log = X ++ (s.finishEvents ++ s.log)) (hX : retiredEntries X = [])
    (hquiet : ∀ ev ∈ X, ev.isSubmission = false) (hregs : s'.regs = s.finishRegs)
    (hloaded : s'.loaded = s.loaded) (hslot : s'.slotId = s.slotId) (hnext : s'.nextId = s.nextId)
    (hidle : s'.pc.inFlight = false)
    (hbusy : ∀ c, s'.busy c = (s.busy c && c != s.currentChannelId)) : EntryInv s' := by
  refine hinv.retire hbook (E := X ++ s.finishEvents) ?_ (by rw [hpc]; rfl) hidx hring hbusy
  refine ⟨by rw [hlog, List.append_assoc], ?_, ?_, ⟨_, hregs⟩, hloaded, hslot, hnext, hidle⟩
  · rw [retiredEntries_append, hX, retiredEntries_finishEvents, List.nil_append]
  · exact not_submission_append hquiet (finishEvents_not_submission s)

theorem entryInv_pullerStep {s s' : HardwarePullerEmu} {stale : GpuGpfifoEntry}
    (h : PullerStep s s') (hinv : EntryInv s) (hbook : Bookkeeping s')
    (hG : deliverGuard s (.puller stale)) : EntryInv s' := by
  obtain ⟨hring, hvictim, hresume, hcheck⟩ := hG
  cases h with
  | move hmove =>
    refine hinv.frame hbook (E := []) (by simp) rfl (.of_eq rfl) rfl rfl rfl (fun _ => rfl)
      (fun _ h => ⟨rfl, h⟩) (fun hpc hsrc => ?_) fun hlt => ?_
    · rw [goto, hmove.inFlight] at hpc
      exact hinv.flight hpc hsrc
    · obtain hpc | ⟨hpc, hsrc⟩ | hwake := hinv.driven hlt
      · cases hmove <;> simp_all
        omega
      · exact .inr (.inl ⟨hmove.inFlight.trans hpc, hsrc⟩)
      · exact .inr (.inr hwake)
  | noChannel hpc hm hnext =>
    have hover := Nat.not_lt.mpr (hinv.over_of_switch hpc hm)
    exact hinv.frame hbook (E := []) (by simp) rfl (.of_eq rfl) rfl rfl rfl
      (busy_of_channels hm rfl (channels_of_select hvictim hpc hm hnext))
      (fun hlt => absurd hlt hover) (by simp [Pc.inFlight]) fun hlt => absurd hlt hover
  | select hpc hm hnext hmqd =>
    rename_i m m' c
    have hchannels := channels_of_select hvictim hpc hm hnext
    have hc : (m.channels c).batchInFlight = true := by
      rw [← hchannels]
      exact nextReadyChannel_inFlight hnext
    refine hinv.load hbook (hinv.over_of_switch hpc hm) (E := [_])
      (List.forall_mem_singleton.mpr rfl) rfl (hinv.book.slots m hm c hc) (by rw [busy_eq hm, hc])
      (busy_of_channels hm rfl hchannels) ?_ rfl rfl rfl rfl rfl
    simp only [hchannels]
    rfl
  | resume hpc hm hnext hmqd hregs =>
    rename_i m m' c p regs
    have hsame := hresume _ (resumption_eq hpc hm hnext hmqd)
    have hchannels := channels_of_select hvictim hpc hm hnext
    have hc : (m.channels c).batchInFlight = true := by
      rw [← hchannels]
      exact nextReadyChannel_inFlight hnext
    refine hinv.load hbook (hinv.over_of_switch hpc hm) (E := [_, _])
      (by simp [Event.keepsEntries, Event.isSubmission, Event.retired?]) rfl
      (hinv.book.slots m hm c hc) (by rw [busy_eq hm, hc]) (busy_of_channels hm rfl hchannels)
      ?_ rfl rfl rfl rfl rfl
    rw [← hchannels]
    exact hregs.trans hsame
  | dequeue hpc hq =>
    refine hinv.frame hbook (E := [_]) (List.forall_mem_singleton.mpr rfl) rfl (.of_eq rfl) rfl rfl
      rfl (fun _ => rfl) (fun _ h => ⟨rfl, h⟩) (fun _ hsrc => by cases hsrc) fun hlt => ?_
    obtain hf | ⟨hf, -⟩ | hwake := hinv.driven hlt
    · rw [hpc] at hf
      cases hf
    · rw [hpc] at hf
      cases hf
    · exact .inr (.inr hwake)
  | exchange =>
    exact hinv.frame hbook (E := []) (by simp) rfl (.of_eq rfl) rfl rfl rfl (fun _ => rfl)
      (fun _ h => ⟨rfl, h⟩) (by simp [Pc.inFlight]) fun _ => .inl rfl
  | fetch hpc hidx he =>
    exact hinv.frame hbook (E := [_]) (List.forall_mem_singleton.mpr rfl) rfl (.of_eq rfl) rfl rfl
      rfl (fun _ => rfl) (fun _ h => ⟨rfl, h⟩) (fun _ _ => ⟨hidx, rfl⟩)
      fun _ => .inr (.inl ⟨rfl, rfl⟩)
  | blockNext hpc hop hsema hidx =>
    have hflight : s.pc.inFlight = true := by rw [hpc]; rfl
    have hfree := hring (retires_of_block hpc (blocks_of_processSemOp hop hsema))
    refine hinv.retireNext hbook (E := [.blocked s.serial s.source s.currentEntry]) ?_ hflight
      (hinv.isBatch_of_next hflight hidx hfree) hidx rfl rfl rfl
    exact ⟨rfl, rfl, List.forall_mem_singleton.mpr rfl, ⟨_, rfl⟩, rfl, rfl, rfl, rfl⟩
  | blockLast hpc hop hsema hidx =>
    have hfree := hring (retires_of_block hpc (blocks_of_processSemOp hop hsema))
    refine hinv.retire hbook (E := s.yieldEvents ++ [.blocked s.serial s.source s.currentEntry])
      ?_ (by rw [hpc]; rfl) hidx hfree (busy_yieldedMgr hinv.book rfl)
    refine ⟨by rw [List.append_assoc, List.singleton_append], ?_, ?_, ⟨_, rfl⟩, rfl, rfl, rfl, rfl⟩
    · rw [retiredEntries_append, retiredEntries_yieldEvents]
      rfl
    · exact not_submission_append (yieldEvents_not_submission s)
        (List.forall_mem_singleton.mpr rfl)
  | dispatch hpc hexec =>
    refine hinv.frame hbook (dispatchEvents_keep s _ _) rfl (fun _ => ⟨rfl, rfl, rfl⟩) rfl rfl rfl
      (fun _ => rfl) (fun _ h => ⟨rfl, h⟩)
      (fun _ hsrc => hinv.flight (by rw [hpc]; rfl) hsrc) fun hlt => ?_
    obtain hf | ⟨-, hsrc⟩ | hwake := hinv.driven hlt
    · rw [hpc] at hf
      cases hf
    · exact .inr (.inl ⟨rfl, hsrc⟩)
    · exact .inr (.inr ⟨hwake.1, fun hrung =>
        hwake.2 ((rungSinceSubmission_dispatch s _ _).symm.trans hrung)⟩)
  | release hpc hrel w =>
    refine hinv.frame hbook (E := [_]) (List.forall_mem_singleton.mpr rfl) rfl (.of_eq rfl) rfl rfl
      rfl (fun _ => rfl) (fun _ h => ⟨rfl, h⟩)
      (fun _ hsrc => hinv.flight (by rw [hpc]; rfl) hsrc) fun hlt => ?_
    obtain hf | ⟨-, hsrc⟩ | hwake := hinv.driven hlt
    · rw [hpc] at hf
      cases hf
    · exact .inr (.inl ⟨rfl, hsrc⟩)
    · exact .inr (.inr hwake)
  | wait hpc | waited hpc =>
    refine hinv.frame hbook (E := []) (by simp) rfl (.of_eq rfl) rfl rfl rfl (fun _ => rfl)
      (fun _ h => ⟨rfl, h⟩) (fun _ hsrc => hinv.flight (by rw [hpc]; rfl) hsrc) fun hlt => ?_
    obtain hf | ⟨-, hsrc⟩ | hwake := hinv.driven hlt
    · rw [hpc] at hf
      cases hf
    · exact .inr (.inl ⟨rfl, hsrc⟩)
    · exact .inr (.inr hwake)
  | completeNext hpc hidx =>
    have hflight : s.pc.inFlight = true := by rw [hpc]; rfl
    refine hinv.retireNext hbook (E := s.finishEvents) ?_ hflight
      (hinv.isBatch_of_next hflight hidx (hring (retires_of_complete hpc))) hidx rfl rfl rfl
    exact ⟨rfl, retiredEntries_finishEvents s, finishEvents_not_submission s, ⟨_, rfl⟩, rfl, rfl,
      rfl, rfl⟩
  | completeLast hpc hidx hpre =>
    exact hinv.complete hbook hpc hidx (hring (retires_of_complete hpc)) rfl
      (retiredEntries_yieldEvents s) (yieldEvents_not_submission s) rfl rfl rfl rfl rfl
      (busy_yieldedMgr hinv.book rfl)
  | checkpointDirect hpc hidx hpre hm =>
    refine hinv.complete hbook hpc hidx (hring (retires_of_complete hpc)) (X := []) rfl rfl
      (by simp) rfl rfl rfl rfl rfl fun c => ?_
    simp [busy, hm]
  | checkpointNone hpc hidx hpre hm hnext =>
    have hat := (atCheckpoint_eq hpc hidx).trans hpre
    exact hinv.complete hbook hpc hidx (hring (retires_of_complete hpc)) (X := [_, _]) rfl rfl
      (by simp [Event.isSubmission]) rfl rfl rfl rfl rfl
      (busy_yielded hinv.book hm rfl (channels_of_checkpoint hvictim hat hm hnext))
  | checkpointLoad hpc hidx hpre hm hnext hregs =>
    rename_i m m' c regs
    have hat := (atCheckpoint_eq hpc hidx).trans hpre
    have htarget := hcheck hat c (checkpointSelection_eq hm hnext)
    have hchannels := channels_of_checkpoint hvictim hat hm hnext
    -- the entry is retired first, then the selected batch is loaded
    have hdone : EntryInv { s with
        regs := s.finishRegs
        channelMgr := some m'
        sema := .empty
        log := .preempted s.currentChannelId s.preempt.target ::
          .yielded s.currentChannelId :: (s.finishEvents ++ s.log)
        pc := .fetch } :=
      hinv.complete (hbook.of_same rfl rfl rfl (by simp)) hpc hidx
        (hring (retires_of_complete hpc)) (X := [_, _]) rfl rfl (by simp [Event.isSubmission]) rfl
        rfl rfl rfl rfl (busy_yielded hinv.book hm rfl hchannels)
    have hover : s.finishRegs.total ≤ s.finishRegs.index := hidx
    have hc := nextReadyChannel_inFlight hnext
    exact hdone.load hbook hover (E := [_]) (List.forall_mem_singleton.mpr rfl) rfl
      (hdone.book.slots _ rfl c hc) hc (fun _ => rfl) hregs rfl htarget.symm rfl rfl rfl

theorem entryInv_envStep {s s' : HardwarePullerEmu} {a : Action} (h : EnvStep s a s')
    (hinv : EntryInv s) (hbook : Bookkeeping s') (hG : deliverGuard s a) : EntryInv s' := by
  cases h with
  | accept hm ha hreg flag =>
    obtain ⟨rfl, rfl⟩ | rfl := ha
    · refine hinv.accept hm hreg flag ?_ hbook rfl
      rwa [deliverGuard, slotFree, hm, Option.isSome_some, if_pos rfl] at hG
    · exact hinv.accept hm hreg flag hG hbook rfl
  | direct hm ha w =>
    subst ha
    refine hinv.direct hm w ?_ hbook rfl
    rwa [deliverGuard, slotFree, hm, Option.isSome_none, if_neg Bool.false_ne_true] at hG
  | configure hm ha =>
    refine hinv.frame hbook (E := []) (by simp) rfl (.of_eq rfl) rfl rfl rfl (fun c => ?_)
      (fun _ _ => ⟨rfl, by rw [hm]; rfl⟩) hinv.flight fun hlt => ?_
    · rw [busy_eq rfl, busy_eq hm, configure_inFlight (hinv.book.registered _ hm)]
    · obtain hf | hf | ⟨hnone, -⟩ := hinv.driven hlt
      · exact .inl hf
      · exact .inr (.inl hf)
      · rw [hm] at hnone
        cases hnone
  | quiet queues hal host preempt hsema hevs hring =>
    have hkeep := fun ev hev => Event.keepsEntries_of_producer (hevs ev hev)
    refine hinv.frame hbook hkeep rfl (.of_eq rfl) rfl rfl rfl (fun _ => rfl) (fun _ h => ⟨rfl, h⟩)
      hinv.flight fun hlt => ?_
    obtain hf | hf | ⟨hnone, hwake⟩ := hinv.driven hlt
    · exact .inl hf
    · exact .inr (.inl hf)
    · refine .inr (.inr ⟨hnone, fun hrung => ?_⟩)
      obtain hringing | ⟨hsilent, hno⟩ := hring
      · exact hringing
      · refine absurd (hwake ?_) hsilent
        simp only [rungSinceSubmission] at hrung ⊢
        rw [since_append fun ev hev => Event.not_submission_of_keepsEntries (hkeep ev hev),
          List.any_append, Bool.or_eq_true] at hrung
        obtain hnew | hold := hrung
        · obtain ⟨ev, hev, hrang⟩ := List.any_eq_true.mp hnew
          rw [hno ev hev] at hrang
          cases hrang
        · exact hold

theorem entryInv_step (s : HardwarePullerEmu) (a : Action) (hinv : EntryInv s)
    (hG : deliverGuard s a) : EntryInv (step s a) := by
  have hbook := bookkeeping_step s a hinv.book
  obtain ⟨ha, h⟩ | ⟨-, h⟩ := step_cases s a
  · cases a <;> simp only [Action.isPuller, Bool.false_eq_true] at ha
    exact entryInv_pullerStep h hinv hbook hG
  · exact entryInv_envStep h hinv hbook hG

theorem entryInv_init (cfg : Config) : EntryInv (init cfg) := by
  have hover : ¬ (init cfg).regs.index < (init cfg).regs.total := Nat.lt_irrefl 0
  exact
    { book := bookkeeping_init cfg
      fresh := fun _ _ => rfl
      running := fun h => absurd h hover
      owner := fun h => absurd h hover
      flight := fun h => absurd h Bool.false_ne_true
      driven := fun h => absurd h hover
      waiting := fun _ _ _ => rfl
      done := fun _ _ _ h => absurd h List.not_mem_nil }

/-! ### What is left of a batch that is over -/

/-- A submission that waits or runs is not over. -/
theorem EntryInv.retired_of_over {s : HardwarePullerEmu} (hinv : EntryInv s) {id c : ℕ} {b : Batch}
    (hb : .submitted id c b ∈ s.log) (hover : BatchOver s id c) :
    Retired s.log id b.gpfifoAddr b.entryCount.toNat := by
  obtain hl | hslot | hdone := hinv.done id c b hb
  · exfalso
    obtain ⟨hpc, hflag, hidle, hdirect⟩ | ⟨hnot, -⟩ := hover
    · obtain hf | ⟨hf, -⟩ | ⟨hnone, hwake⟩ := hinv.driven hl.2
      · rw [hpc] at hf
        cases hf
      · rw [hpc] at hf
        cases hf
      · obtain ⟨hcallbacks, hrung⟩ := hdirect (by rw [hnone]; rfl)
        obtain hset | hrunning := hwake hrung
        · rw [hflag] at hset
          cases hset
        · exact hrunning hcallbacks
    · exact hnot hl
  · exfalso
    obtain ⟨-, -, hidle, -⟩ | ⟨-, hnot⟩ := hover
    · obtain ⟨m, hm, hflight⟩ := exists_of_busy hslot.1
      have hreg := hinv.book.registered m hm _ hflight
      simp only [isRegistered, Bool.and_eq_true, decide_eq_true_eq] at hreg
      rw [hidle _ hreg.1] at hslot
      cases hslot.1
    · exact hnot hslot
  · exact hdone

/-- The FSM holds no entry of a submission that is over. -/
theorem EntryInv.held_of_over {s : HardwarePullerEmu} (hinv : EntryInv s) {id c : ℕ}
    (hover : BatchOver s id c) : s.held.filter (fun t => t.src.isOf id) = [] := by
  rw [held]
  split_ifs with hpc
  · refine List.filter_eq_nil_iff.mpr fun t ht hof => ?_
    obtain rfl := List.mem_singleton.mp ht
    obtain ⟨hlt, hsrc⟩ := hinv.flight hpc (Source.isBatch_of_isOf hof)
    obtain ⟨hidle, -⟩ | ⟨hnot, -⟩ := hover
    · rw [hidle] at hpc
      cases hpc
    · rw [hsrc] at hof
      exact hnot ⟨beq_iff_eq.mp hof, hlt⟩
  · rfl

/-- **Delivery.**  What is taken for a submission that is over is retired: its own entries, each
once and in order. -/
theorem EntryInv.takesOf_of_over {s : HardwarePullerEmu} (hinv : EntryInv s) (htake : TakeInv s)
    {id c : ℕ} {b : Batch} (hb : .submitted id c b ∈ s.log) (hover : BatchOver s id c) :
    takesOf id s.log = retiresOf id s.log ∧
      (takesOf id s.log).map Take.src =
        (batchSources id b.gpfifoAddr b.entryCount.toNat).reverse := by
  have heq : takesOf id s.log = retiresOf id s.log := by
    rw [takesOf, htake.accounted, List.filter_append, hinv.held_of_over hover, List.nil_append]
    rfl
  exact ⟨heq, by rw [heq]; exact hinv.retired_of_over hb hover⟩

end UsrLinuxEmu.GpuDriver
