import UsrLinuxEmu.GpuDriver.PullerGuards
import UsrLinuxEmu.Transition.Simulation

/-!
# Delivery of ring entries

A producer writes an entry, publishes it and rings; `onDoorbell` sets the pending flag; the puller
scans the rings and then exchanges the flag.  The exchange may consume a doorbell that rang after
its ring was scanned, and the FETCH that follows finds no batch and goes back to IDLE.

* `publishedOn` / `dequeuedOn` — what went into and came out of a ring, oldest first;
* `Delivered` — a quiescent puller has emptied every registered ring that was rung after its last
  write;
* `DoorbellHistory` / `noteDoorbells` — the interleaving of doorbells with scans and exchanges:
  which rings were rung after their scan, and of which such a doorbell was the last and was
  consumed;
* `roomGuard` / `sleepGuard` — producers use free slots; FETCH does not fall asleep when a doorbell
  was missed;
* `delivered_iff` — the runs along which the entries are delivered.
-/

namespace UsrLinuxEmu.GpuDriver

open UsrLinuxEmu.Transition UsrLinuxEmu.Ring ChannelManager HardwarePullerEmu

/-! ### The property -/

/-- The event writes to or publishes on ring `q`. -/
def Event.writesRing (q : UInt32) : Event → Bool
  | .wrote q' | .published q' _ => q' == q
  | _ => false

def Event.rings (q : UInt32) : Event → Bool
  | .rang q' => q' == q
  | _ => false

def Event.published? (q : UInt32) : Event → Option GpuGpfifoEntry
  | .published q' e => if q' = q then some e else none
  | _ => none

def Event.dequeued? (q : UInt32) : Event → Option GpuGpfifoEntry
  | .taken _ (.ring q') e => if q' = q then some e else none
  | _ => none

/-- The entries published on ring `q`, oldest first. -/
def publishedOn (q : UInt32) (log : List Event) : List GpuGpfifoEntry :=
  (log.filterMap (Event.published? q)).reverse

/-- The entries the puller took from ring `q`, oldest first. -/
def dequeuedOn (q : UInt32) (log : List Event) : List GpuGpfifoEntry :=
  (log.filterMap (Event.dequeued? q)).reverse

/-- The producers of ring `q` have rung after their last write. -/
def RungAfterWrite (q : UInt32) (log : List Event) : Prop :=
  ∀ ev ∈ since (Event.rings q) log, ev.writesRing q = false

instance (q : UInt32) (log : List Event) : Decidable (RungAfterWrite q log) :=
  inferInstanceAs (Decidable (∀ ev ∈ since (Event.rings q) log, ev.writesRing q = false))

/-- State IDLE, no doorbell pending, no doorbell callback running. -/
def Quiescent (s : HardwarePullerEmu) : Prop :=
  s.pc = .idle ∧ s.queues.doorbellPending = false ∧ s.queues.callbacks = 0

/-- What has been published was dequeued in order, each entry once, or is still in the ring; in a
quiescent state the registered rings that were rung after their last write are empty. -/
def Delivered (s : HardwarePullerEmu) : Prop :=
  ∀ q ∈ s.queues.activeQueues, (s.queues.queue q).attached = true →
    publishedOn q s.log = dequeuedOn q s.log ++ (s.queues.queue q).pending ∧
      (Quiescent s → RungAfterWrite q s.log → (s.queues.queue q).pending = [])

/-! ### The condition -/

/-- An attached ring holds an entry and has been rung after its last write. -/
def Waiting (s : HardwarePullerEmu) (q : UInt32) : Prop :=
  (s.queues.queue q).attached = true ∧ RungAfterWrite q s.log ∧ (s.queues.queue q).pending ≠ []

instance (s : HardwarePullerEmu) (q : UInt32) : Decidable (Waiting s q) :=
  inferInstanceAs (Decidable (_ ∧ _ ∧ _))

/-- How the doorbells fell between the puller's steps. -/
structure DoorbellHistory where
  /-- the scan in progress has found the ring empty -/
  scanned : UInt32 → Bool
  /-- the ring has been rung since that scan -/
  late : UInt32 → Bool
  /-- the exchange has consumed such a doorbell, and none has come later -/
  missed : UInt32 → Bool

def DoorbellHistory.start : DoorbellHistory := ⟨fun _ => false, fun _ => false, fun _ => false⟩

/-- A doorbell of ring `q`: it is late when the ring has been scanned, and it wakes the puller. -/
def DoorbellHistory.ring (g : DoorbellHistory) (q : UInt32) : DoorbellHistory :=
  { g with late := Function.update g.late q (g.scanned q), missed := fun _ => false }

/-- A ring that is written to, or found empty, is not missed. -/
def DoorbellHistory.forget (g : DoorbellHistory) (q : UInt32) : DoorbellHistory :=
  { g with missed := Function.update g.missed q false }

/-- The exchange consumes the flag: the rings that wait and whose doorbell is late are missed,
unless a callback is still on its way. -/
def DoorbellHistory.consume (g : DoorbellHistory) (s : HardwarePullerEmu) : DoorbellHistory :=
  { g with missed := fun q =>
      decide (s.queues.callbacks = 0) && g.late q && decide (Waiting s q) }

/-- What the puller's step does to the doorbells. -/
def DoorbellHistory.pull (g : DoorbellHistory) (s : HardwarePullerEmu) : DoorbellHistory :=
  match s.pc with
  | .channelSwitch => { g with scanned := fun _ => false, late := fun _ => false }
  | .scanQueues (q :: _) =>
    match (s.queues.queue q).dequeue with
    | none => { g.forget q with
        scanned := Function.update g.scanned q true, late := Function.update g.late q false }
    | some (_, queue) => if queue.pending = [] then g.forget q else g
  | .exchange => if s.queues.doorbellPending then g.consume s else g
  | _ => g

def noteDoorbells (g : DoorbellHistory) (s : HardwarePullerEmu) : Action → DoorbellHistory
  | .puller _ => g.pull s
  | .submitBatch _ => if s.channelMgr.isSome then { g with missed := fun _ => false } else g
  | .ringDoorbell q => if q ∈ s.queues.activeQueues then g.ring q else g
  | .writeDoorbell q => if (s.queues.doorbell.write q).1 then g.ring q else g
  | .writeEntry q _ | .advanceWriteIdx q => g.forget q
  | _ => g

/-- Producers write into free slots of rings that are not full. -/
def roomGuard (s : HardwarePullerEmu) : Action → Prop
  | .writeEntry q _ => (s.queues.queue q).ring.SlotFree
  | .advanceWriteIdx q => (s.queues.queue q).ring.NotFull
  | _ => True

instance decidableRoomGuard (s : HardwarePullerEmu) : ∀ a, Decidable (roomGuard s a)
  | .writeEntry q _ => WrapRing.decidableSlotFree (s.queues.queue q).ring
  | .advanceWriteIdx q => WrapRing.decidableNotFull (s.queues.queue q).ring
  | .puller _ | .submitBatch _ | .channelSubmit _ _ | .configure _ | .triggerPreempt _
  | .signalBarrier _ | .ringDoorbell _ | .writeDoorbell _ | .onDoorbell | .memWrite _ _ _
  | .hostWrite _ => .isTrue trivial

/-- FETCH does not go to sleep without a batch when the doorbell of a registered ring was missed. -/
def sleepGuard (x : DoorbellHistory × HardwarePullerEmu) : Action → Prop
  | .puller _ => x.2.pc = .fetch → x.2.regs.total ≤ x.2.regs.index →
      ∀ q ∈ x.2.queues.activeQueues, x.1.missed q = false
  | _ => True

instance decidableSleepGuard (x : DoorbellHistory × HardwarePullerEmu) :
    ∀ a, Decidable (sleepGuard x a)
  | .puller _ => inferInstanceAs (Decidable (_ → _ → _))
  | .submitBatch _ | .channelSubmit _ _ | .configure _ | .triggerPreempt _ | .signalBarrier _
  | .writeEntry _ _ | .advanceWriteIdx _ | .ringDoorbell _ | .writeDoorbell _ | .onDoorbell
  | .memWrite _ _ _ | .hostWrite _ => .isTrue trivial

/-! ### Events and rings -/

/-- An event that is neither a producer's nor a dequeue. -/
def Event.isQuiet : Event → Bool
  | .wrote _ | .published _ _ | .rang _ | .taken _ (.ring _) _ => false
  | _ => true

theorem publishedOn_append {E l : List Event} {q : UInt32}
    (h : ∀ ev ∈ E, ev.published? q = none) : publishedOn q (E ++ l) = publishedOn q l := by
  rw [publishedOn, List.filterMap_append, List.filterMap_eq_nil_iff.mpr h]
  rfl

theorem dequeuedOn_append {E l : List Event} {q : UInt32}
    (h : ∀ ev ∈ E, ev.dequeued? q = none) : dequeuedOn q (E ++ l) = dequeuedOn q l := by
  rw [dequeuedOn, List.filterMap_append, List.filterMap_eq_nil_iff.mpr h]
  rfl

/-- Events that are neither rings nor writes of `q` do not matter to it. -/
theorem rungAfterWrite_append {E l : List Event} {q : UInt32}
    (h : ∀ ev ∈ E, ev.rings q = false ∧ ev.writesRing q = false) :
    RungAfterWrite q (E ++ l) ↔ RungAfterWrite q l := by
  rw [RungAfterWrite, since_append fun ev hev => (h ev hev).1]
  constructor
  · exact fun hall ev hev => hall ev (List.mem_append_right _ hev)
  · intro hall ev hev
    obtain hin | hin := List.mem_append.mp hev
    · exact (h ev hin).2
    · exact hall ev hin

theorem Event.quiet_spec {ev : Event} (h : ev.isQuiet = true) (q : UInt32) :
    ev.published? q = none ∧ ev.dequeued? q = none ∧ ev.rings q = false ∧
      ev.writesRing q = false := by
  cases ev with
  | taken n src e => cases src <;> simp_all [Event.isQuiet, Event.published?, Event.dequeued?,
      Event.rings, Event.writesRing]
  | _ => simp_all [Event.isQuiet, Event.published?, Event.dequeued?, Event.rings,
      Event.writesRing]

theorem finishEvents_quiet (s : HardwarePullerEmu) :
    ∀ ev ∈ s.finishEvents, ev.isQuiet = true := by
  intro ev hev
  obtain ⟨h, v, rfl⟩ | ⟨rfl, -⟩ | rfl | rfl := mem_finishEvents hev <;> rfl

theorem dispatchEvents_quiet (s : HardwarePullerEmu) (launches : List LaunchParams)
    (failed : Bool) : ∀ ev ∈ s.dispatchEvents launches failed, ev.isQuiet = true := by
  intro ev hev
  obtain ⟨rfl, -⟩ | ⟨p, rfl⟩ | ⟨q, i, t, rfl⟩ | rfl := mem_dispatchEvents hev <;> rfl

theorem yieldEvents_quiet (s : HardwarePullerEmu) : ∀ ev ∈ s.yieldEvents, ev.isQuiet = true := by
  intro ev hev
  rw [mem_yieldEvents hev]
  rfl

theorem not_rungAfterWrite_of_write {q : UInt32} {ev : Event} {log : List Event}
    (hrings : ev.rings q = false) (hwrites : ev.writesRing q = true) :
    ¬ RungAfterWrite q (ev :: log) := by
  intro hrung
  have hev := hrung ev (by rw [since_cons_of_neg hrings]; exact List.mem_cons_self)
  rw [hwrites] at hev
  cases hev

/-- The step leaves the rings alone. -/
structure Quiet (s s' : HardwarePullerEmu) : Prop where
  queue : s'.queues.queue = s.queues.queue
  active : s'.queues.activeQueues = s.queues.activeQueues
  log : ∃ E, s'.log = E ++ s.log ∧ ∀ ev ∈ E, ev.isQuiet = true

theorem Quiet.refl (s : HardwarePullerEmu) : Quiet s s := ⟨rfl, rfl, [], rfl, by simp⟩

theorem Quiet.waiting {s s' : HardwarePullerEmu} (h : Quiet s s') (q : UInt32) :
    Waiting s' q ↔ Waiting s q := by
  obtain ⟨hqueue, -, E, hlog, hevs⟩ := h
  have hrung : RungAfterWrite q s'.log ↔ RungAfterWrite q s.log := by
    rw [hlog]
    exact rungAfterWrite_append fun ev hev => (Event.quiet_spec (hevs ev hev) q).2.2
  simp only [Waiting, hqueue, hrung]

/-- What becomes of the rings in a step of the puller: nothing, or a dequeue. -/
theorem HardwarePullerEmu.PullerStep.rings {s s' : HardwarePullerEmu} (h : PullerStep s s') :
    Quiet s s' ∨ ∃ q rest e queue, s.pc = .scanQueues (q :: rest) ∧
      (s.queues.queue q).dequeue = some (e, queue) ∧
      s' = ({ s with queues := { s.queues with
        queue := Function.update s.queues.queue q queue
        currentQueueId := q } }).take (.ring q) e := by
  cases h with
  | dequeue hpc hq => exact .inr ⟨_, _, _, _, hpc, hq, rfl⟩
  | move | noChannel | exchange | wait | waited => exact .inl ⟨rfl, rfl, [], rfl, by simp⟩
  | select | fetch | release | blockNext =>
    exact .inl ⟨rfl, rfl, [_], rfl, by simp [Event.isQuiet]⟩
  | resume => exact .inl ⟨rfl, rfl, [_, _], rfl, by simp [Event.isQuiet]⟩
  | blockLast =>
    refine .inl ⟨rfl, rfl, s.yieldEvents ++ [.blocked s.serial s.source s.currentEntry], by simp,
      fun ev hev => ?_⟩
    obtain hin | hin := List.mem_append.mp hev
    · exact yieldEvents_quiet s ev hin
    · rw [List.mem_singleton.mp hin]
      rfl
  | dispatch => exact .inl ⟨rfl, rfl, _, rfl, dispatchEvents_quiet s _ _⟩
  | completeNext | checkpointDirect => exact .inl ⟨rfl, rfl, _, rfl, finishEvents_quiet s⟩
  | completeLast =>
    refine .inl ⟨rfl, rfl, s.yieldEvents ++ s.finishEvents, (List.append_assoc _ _ _).symm,
      fun ev hev => ?_⟩
    obtain hin | hin := List.mem_append.mp hev
    · exact yieldEvents_quiet s ev hin
    · exact finishEvents_quiet s ev hin
  | checkpointNone =>
    refine .inl ⟨rfl, rfl, .preempted _ _ :: .yielded _ :: s.finishEvents, rfl, fun ev hev => ?_⟩
    obtain rfl | rfl | hin := by simpa only [List.mem_cons] using hev
    · rfl
    · rfl
    · exact finishEvents_quiet s ev hin
  | checkpointLoad =>
    refine .inl ⟨rfl, rfl, .loaded _ :: .preempted _ _ :: .yielded _ :: s.finishEvents, rfl,
      fun ev hev => ?_⟩
    obtain rfl | rfl | rfl | hin := by simpa only [List.mem_cons] using hev
    · rfl
    · rfl
    · rfl
    · exact finishEvents_quiet s ev hin

theorem submitBatch_quiet (s : HardwarePullerEmu) (b : Batch) : Quiet s (s.submitBatch b) := by
  unfold HardwarePullerEmu.submitBatch acceptBatch
  split
  · split
    · exact ⟨rfl, rfl, [_], rfl, by simp [Event.isQuiet]⟩
    · exact ⟨rfl, rfl, [], rfl, by simp⟩
  · exact ⟨rfl, rfl, [_, _], rfl, by simp [Event.isQuiet]⟩

theorem channelSubmit_quiet (s : HardwarePullerEmu) (c : ℕ) (b : Batch) :
    Quiet s (s.channelSubmit c b) := by
  unfold HardwarePullerEmu.channelSubmit acceptBatch
  split
  · split
    · exact ⟨rfl, rfl, [_], rfl, by simp [Event.isQuiet]⟩
    · exact .refl s
  · exact .refl s

/-! ### No entry is lost or taken twice -/

/-- What has been published was dequeued or is still in the ring. -/
def Conserved (s : HardwarePullerEmu) : Prop :=
  ∀ q, (s.queues.queue q).attached = true →
    publishedOn q s.log = dequeuedOn q s.log ++ (s.queues.queue q).pending

theorem Conserved.quiet {s s' : HardwarePullerEmu} (hinv : Conserved s) (h : Quiet s s') :
    Conserved s' := by
  obtain ⟨hqueue, -, E, hlog, hevs⟩ := h
  intro q hatt
  rw [hqueue] at hatt ⊢
  rw [hlog, publishedOn_append fun ev hev => (Event.quiet_spec (hevs ev hev) q).1,
    dequeuedOn_append fun ev hev => (Event.quiet_spec (hevs ev hev) q).2.1]
  exact hinv q hatt

/-- The entry taken from ring `q` is the oldest published one. -/
theorem Conserved.dequeue {s : HardwarePullerEmu} (hinv : Conserved s) {q : UInt32}
    {queue : GpuQueueEmu} {e : GpuGpfifoEntry}
    (hq : (s.queues.queue q).dequeue = some (e, queue)) :
    Conserved (({ s with queues := { s.queues with
      queue := Function.update s.queues.queue q queue
      currentQueueId := q } }).take (.ring q) e) := by
  obtain ⟨hpend, hatt⟩ := GpuQueueEmu.dequeue_some hq
  intro q' hatt'
  by_cases hqq : q' = q
  · subst hqq
    have hold := hinv q' (by simpa [take, hatt] using hatt')
    simp only [take, Function.update_self, publishedOn, dequeuedOn, List.filterMap_cons,
      Event.published?, Event.dequeued?, if_true, List.reverse_cons, List.append_assoc,
      List.singleton_append]
    rw [← hpend]
    exact hold
  · have hold := hinv q' (by simpa [take, hqq] using hatt')
    have hne : ¬ q = q' := fun heq => hqq heq.symm
    simp only [take, Function.update_of_ne hqq, publishedOn, dequeuedOn, List.filterMap_cons,
      Event.published?, Event.dequeued?, if_neg hne]
    exact hold

/-- A write to ring `q` does not concern the other rings. -/
theorem Conserved.write {s : HardwarePullerEmu} (hinv : Conserved s) {q : UInt32}
    {f : WrapRing GpuGpfifoEntry → WrapRing GpuGpfifoEntry} {ev : Event}
    (hdequeued : ∀ q', ev.dequeued? q' = none) (hpublished : ∀ q', q ≠ q' → ev.published? q' = none)
    (hring : ∀ log, publishedOn q log = dequeuedOn q log ++ (s.queues.queue q).pending →
      publishedOn q (ev :: log) = dequeuedOn q log ++ (f (s.queues.queue q).ring).pending) :
    Conserved { s.updateRing q f with log := ev :: s.log } := by
  have hdeq : ∀ q', dequeuedOn q' (ev :: s.log) = dequeuedOn q' s.log := fun q' =>
    dequeuedOn_append (E := [ev]) (by simp [hdequeued])
  intro q' hatt
  by_cases hqq : q = q'
  · subst hqq
    simp only [updateRing, Function.update_self] at hatt ⊢
    rw [hdeq]
    exact hring s.log (hinv q hatt)
  · have hne : q' ≠ q := fun h => hqq h.symm
    simp only [updateRing, Function.update_of_ne hne] at hatt ⊢
    have hpub := publishedOn_append (E := [ev]) (l := s.log) (q := q')
      (by simp [hpublished q' hqq])
    rw [List.singleton_append] at hpub
    rw [hdeq, hpub]
    exact hinv q' hatt

theorem Conserved.rang {s : HardwarePullerEmu} (hinv : Conserved s) (q : UInt32)
    (d : DoorbellEmu) :
    Conserved (({ s with queues := { s.queues with doorbell := d } }).enterCallback q) := by
  intro q' hatt
  have hpub := publishedOn_append (E := [.rang q]) (l := s.log) (q := q') (by
    simp [Event.published?])
  have hdeq := dequeuedOn_append (E := [.rang q]) (l := s.log) (q := q') (by
    simp [Event.dequeued?])
  simp only [enterCallback] at hatt ⊢
  rw [List.singleton_append] at hpub hdeq
  rw [hpub, hdeq]
  exact hinv q' hatt

theorem conserved_step (s : HardwarePullerEmu) (a : Action) (hinv : Conserved s)
    (hG : roomGuard s a) : Conserved (step s a) := by
  cases a with
  | puller stale =>
    obtain hquiet | ⟨q, rest, e, queue, -, hq, heq⟩ := (pullerStep_cases s stale).rings
    · exact hinv.quiet hquiet
    · rw [step, heq]
      exact hinv.dequeue hq
  | submitBatch b => exact hinv.quiet (submitBatch_quiet s b)
  | channelSubmit c b => exact hinv.quiet (channelSubmit_quiet s c b)
  | configure | triggerPreempt | signalBarrier | memWrite | hostWrite => exact hinv
  | writeEntry q e =>
    simp only [step, HardwarePullerEmu.writeEntry]
    split
    · refine hinv.write (fun _ => rfl) (fun _ _ => rfl) fun log hold => ?_
      rw [WrapRing.pending_store hG]
      exact hold
    · exact hinv
  | advanceWriteIdx q =>
    simp only [step, HardwarePullerEmu.advanceWriteIdx]
    split
    · refine hinv.write (fun _ => rfl) (fun q' hne => by simp [Event.published?, hne])
        fun log hold => ?_
      rw [WrapRing.pending_advance hG]
      simp only [publishedOn, List.filterMap_cons, Event.published?, if_true, List.reverse_cons]
      rw [← List.append_assoc]
      exact congrArg (· ++ [_]) hold
    · exact hinv
  | ringDoorbell q =>
    simp only [step, HardwarePullerEmu.ringDoorbell]
    split
    · exact hinv.rang q s.queues.doorbell
    · exact hinv
  | writeDoorbell q =>
    simp only [step, HardwarePullerEmu.writeDoorbell]
    split
    · exact hinv.rang q _
    · exact hinv
  | onDoorbell =>
    simp only [step, HardwarePullerEmu.onDoorbell]
    split <;> exact hinv

/-! ### Waiting rings -/

/-- A doorbell is pending, or a callback is about to make it so. -/
def Awake (s : HardwarePullerEmu) : Prop :=
  s.queues.doorbellPending = true ∨ s.queues.callbacks ≠ 0

/-- What the puller has seen of the rings: past its scan a ring has been scanned and is not missed,
and none is missed while the puller sleeps. -/
def Looked (g : DoorbellHistory) (active : List UInt32) : Pc → Prop
  | .scanQueues rest => ∀ q ∈ active, q ∉ rest → g.scanned q = true ∧ g.missed q = false
  | .exchange => ∀ q ∈ active, g.scanned q = true ∧ g.missed q = false
  | .idle => ∀ q ∈ active, g.missed q = false
  | _ => True

structure WakeInv (x : DoorbellHistory × HardwarePullerEmu) : Prop where
  late : ∀ q, x.1.scanned q = true → Waiting x.2 q → x.1.late q = true
  wake : ∀ q ∈ x.2.queues.activeQueues, Waiting x.2 q → Awake x.2 ∨ x.1.missed q = true
  missed : ∀ q, x.1.missed q = true → Waiting x.2 q ∧ ¬ Awake x.2
  looked : Looked x.1 x.2.queues.activeQueues x.2.pc

/-- Each ring waits as before, with the doorbells as they were, or it waits no longer and is not
missed. -/
theorem WakeInv.frame {g g' : DoorbellHistory} {s s' : HardwarePullerEmu}
    (hinv : WakeInv (g, s)) (hactive : s'.queues.activeQueues = s.queues.activeQueues)
    (hawake : Awake s' ↔ Awake s)
    (hrings : ∀ q, (Waiting s' q ↔ Waiting s q) ∧ g'.missed q = g.missed q ∧
        (g'.scanned q = true → g.scanned q = true ∧ g'.late q = g.late q) ∨
      ¬ Waiting s' q ∧ g'.missed q = false)
    (hlooked : Looked g' s.queues.activeQueues s'.pc) : WakeInv (g', s') := by
  refine ⟨fun q hscanned hwait => ?_, fun q hq hwait => ?_, fun q hmissed => ?_, ?_⟩
  · obtain ⟨hsame, -, hlate⟩ | ⟨hnot, -⟩ := hrings q
    · obtain ⟨hold, heq⟩ := hlate hscanned
      exact heq.trans (hinv.late q hold (hsame.mp hwait))
    · exact absurd hwait hnot
  · obtain ⟨hsame, hmissed, -⟩ | ⟨hnot, -⟩ := hrings q
    · simp only at hq ⊢
      rw [hactive] at hq
      rw [hawake, hmissed]
      exact hinv.wake q hq (hsame.mp hwait)
    · exact absurd hwait hnot
  · obtain ⟨hsame, hold, -⟩ | ⟨-, hfalse⟩ := hrings q
    · simp only at hmissed ⊢
      rw [hold] at hmissed
      obtain ⟨hwait, hasleep⟩ := hinv.missed q hmissed
      exact ⟨hsame.mpr hwait, fun h => hasleep (hawake.mp h)⟩
    · rw [hfalse] at hmissed
      cases hmissed
  · simp only
    rw [hactive]
    exact hlooked

/-- A step that leaves the rings and the doorbells alone. -/
theorem WakeInv.quiet {g : DoorbellHistory} {s s' : HardwarePullerEmu} (hinv : WakeInv (g, s))
    (h : Quiet s s') (hawake : Awake s' ↔ Awake s)
    (hlooked : Looked g s.queues.activeQueues s'.pc) : WakeInv (g, s') :=
  hinv.frame h.active hawake (fun q => .inl ⟨h.waiting q, rfl, fun hs => ⟨hs, rfl⟩⟩) hlooked

/-- A doorbell, or a submission that rings: the puller is awake and no ring is missed. -/
theorem WakeInv.rouse {g g' : DoorbellHistory} {s s' : HardwarePullerEmu}
    (hinv : WakeInv (g, s)) (hactive : s'.queues.activeQueues = s.queues.activeQueues)
    (hpc : s'.pc = s.pc) (hawake : Awake s') (hscanned : g'.scanned = g.scanned)
    (hmissed : ∀ q, g'.missed q = false)
    (hlate : ∀ q, g.scanned q = true → Waiting s' q → g'.late q = true) : WakeInv (g', s') := by
  refine ⟨fun q hs hwait => hlate q (hscanned ▸ hs) hwait, fun _ _ _ => .inl hawake,
    fun q hm => ?_, ?_⟩
  · rw [hmissed] at hm
    cases hm
  · have hold := hinv.looked
    simp only at hold ⊢
    rw [hactive, hpc]
    cases hp : s.pc <;> simp only [hp, Looked] at hold ⊢
    · exact fun q _ => hmissed q
    · exact fun q hq hnot => ⟨hscanned ▸ (hold q hq hnot).1, hmissed q⟩
    · exact fun q hq => ⟨hscanned ▸ (hold q hq).1, hmissed q⟩

/-- A ring that no longer waits is forgotten. -/
theorem looked_forget {g : DoorbellHistory} {active : List UInt32} {pc : Pc} (q : UInt32)
    (h : Looked g active pc) : Looked (g.forget q) active pc := by
  have hforget : ∀ r, g.missed r = false → (g.forget q).missed r = false := by
    intro r hr
    by_cases hrq : r = q
    · simp [DoorbellHistory.forget, hrq]
    · simpa [DoorbellHistory.forget, Function.update_of_ne hrq] using hr
  cases pc <;> simp only [Looked] at h ⊢
  · exact fun r hr => hforget r (h r hr)
  · exact fun r hr hnot => ⟨(h r hr hnot).1, hforget r (h r hr hnot).2⟩
  · exact fun r hr => ⟨(h r hr).1, hforget r (h r hr).2⟩

/-! ### The puller's steps -/

/-- The exchange of a set flag: the rings that wait have been scanned, so their doorbells are late
and they are missed, unless a callback is on its way. -/
theorem WakeInv.exchange {g : DoorbellHistory} {s : HardwarePullerEmu} (hinv : WakeInv (g, s))
    (hpc : s.pc = .exchange) (d : DoorbellEmu) :
    WakeInv (g.pull s, { s with
      queues := { s.queues with doorbellPending := false, doorbell := d }, pc := .fetch }) := by
  have hlooked := hinv.looked
  simp only [hpc, Looked] at hlooked
  cases hflag : s.queues.doorbellPending with
  | false =>
    have hsame : g.pull s = g := by
      simp only [DoorbellHistory.pull, hpc, hflag, Bool.false_eq_true, if_false]
    rw [hsame]
    refine hinv.frame rfl ?_ (fun q => .inl ⟨Iff.rfl, rfl, fun hs => ⟨hs, rfl⟩⟩) trivial
    simp only [Awake, hflag]
  | true =>
    have hnote : g.pull s = g.consume s := by
      simp only [DoorbellHistory.pull, hpc, hflag, if_true]
    rw [hnote]
    refine ⟨hinv.late, fun q hq hwait => ?_, fun q hmissed => ?_, trivial⟩
    · have hold : Waiting s q := hwait
      by_cases hcb : s.queues.callbacks = 0
      · have hlate : g.late q = true := hinv.late q (hlooked q hq).1 hold
        exact .inr (by simp [DoorbellHistory.consume, hcb, hlate, hold])
      · exact .inl (.inr hcb)
    · simp only [DoorbellHistory.consume, Bool.and_eq_true, decide_eq_true_eq] at hmissed
      refine ⟨hmissed.2, ?_⟩
      rintro (hset | hrunning)
      · cases hset
      · exact hrunning hmissed.1.1

/-- The scan of a ring that is found empty. -/
theorem WakeInv.scanEmpty {g : DoorbellHistory} {s : HardwarePullerEmu} {q : UInt32}
    {rest : List UInt32} (hinv : WakeInv (g, s)) (hpc : s.pc = .scanQueues (q :: rest))
    (hq : (s.queues.queue q).dequeue = none) : WakeInv (g.pull s, s.goto (.scanQueues rest)) := by
  have hnote : g.pull s = { g.forget q with
      scanned := Function.update g.scanned q true, late := Function.update g.late q false } := by
    simp only [DoorbellHistory.pull, hpc, hq]
  have hlooked := hinv.looked
  simp only [hpc, Looked] at hlooked
  rw [hnote]
  refine hinv.frame rfl Iff.rfl (fun r => ?_) fun r hr hnot => ?_
  · by_cases hrq : r = q
    · subst hrq
      refine .inr ⟨fun hwait => ?_, by simp [DoorbellHistory.forget]⟩
      exact hwait.2.2 (GpuQueueEmu.pending_of_dequeue_none hwait.1 hq)
    · refine .inl ⟨Iff.rfl, ?_, ?_⟩
      · simp [DoorbellHistory.forget, Function.update_of_ne hrq]
      · simp [Function.update_of_ne hrq]
  · by_cases hrq : r = q
    · simp [DoorbellHistory.forget, hrq]
    · have hold := hlooked r hr (by simp [hrq, hnot])
      simpa [DoorbellHistory.forget, Function.update_of_ne hrq] using hold

/-- A dequeue may empty the ring. -/
theorem WakeInv.dequeue {g : DoorbellHistory} {s : HardwarePullerEmu} {q : UInt32}
    {rest : List UInt32} {e : GpuGpfifoEntry} {queue : GpuQueueEmu} (hinv : WakeInv (g, s))
    (hpc : s.pc = .scanQueues (q :: rest))
    (hq : (s.queues.queue q).dequeue = some (e, queue)) :
    WakeInv (g.pull s, ({ s with queues := { s.queues with
      queue := Function.update s.queues.queue q queue
      currentQueueId := q } }).take (.ring q) e) := by
  obtain ⟨hpend, hatt⟩ := GpuQueueEmu.dequeue_some hq
  have hrung : ∀ r, RungAfterWrite r (.taken (s.serial + 1) (.ring q) e :: s.log) ↔
      RungAfterWrite r s.log := fun r =>
    rungAfterWrite_append (E := [_]) (by simp [Event.rings, Event.writesRing])
  have hother : ∀ r, r ≠ q → (Waiting (({ s with queues := { s.queues with
      queue := Function.update s.queues.queue q queue
      currentQueueId := q } }).take (.ring q) e) r ↔
      Waiting s r) := by
    intro r hrq
    simp only [Waiting, take, Function.update_of_ne hrq, hrung]
  cases hempty : queue.pending with
  | nil =>
    have hnote : g.pull s = g.forget q := by
      simp only [DoorbellHistory.pull, hpc, hq, hempty, if_true]
    rw [hnote]
    refine hinv.frame rfl Iff.rfl (fun r => ?_) trivial
    by_cases hrq : r = q
    · subst hrq
      refine .inr ⟨fun hwait => ?_, by simp [DoorbellHistory.forget]⟩
      exact hwait.2.2 (by simp [take, hempty])
    · exact .inl ⟨hother r hrq, by simp [DoorbellHistory.forget, Function.update_of_ne hrq],
        fun hs => ⟨hs, rfl⟩⟩
  | cons x xs =>
    have hnote : g.pull s = g := by
      simp only [DoorbellHistory.pull, hpc, hq, hempty, reduceCtorEq, if_false]
    rw [hnote]
    refine hinv.frame rfl Iff.rfl (fun r => .inl ⟨?_, rfl, fun hs => ⟨hs, rfl⟩⟩) trivial
    by_cases hrq : r = q
    · subst hrq
      simp only [Waiting, take, Function.update_self, hrung, hatt, hpend, hempty, ne_eq,
        reduceCtorEq, not_false_eq_true]
    · exact hother r hrq

/-- Outside CHANNEL_SWITCH, the scan and the exchange the doorbells stay as they are. -/
theorem pull_still {g : DoorbellHistory} {s : HardwarePullerEmu} (hswitch : s.pc ≠ .channelSwitch)
    (hscan : ∀ rest, s.pc ≠ .scanQueues rest) (hexchange : s.pc ≠ .exchange) : g.pull s = g := by
  unfold DoorbellHistory.pull
  cases hpc : s.pc with
  | channelSwitch => exact absurd hpc hswitch
  | scanQueues rest => exact absurd hpc (hscan rest)
  | exchange => exact absurd hpc hexchange
  | _ => rfl

/-- CHANNEL_SWITCH begins a new scan, or leaves for FETCH. -/
theorem WakeInv.switch {g : DoorbellHistory} {s s' : HardwarePullerEmu} (hinv : WakeInv (g, s))
    (hpc : s.pc = .channelSwitch) (h : Quiet s s') (hawake : Awake s' ↔ Awake s)
    (hpc' : s'.pc = .scanQueues s.queues.activeQueues ∨ s'.pc = .fetch) :
    WakeInv (g.pull s, s') := by
  have hnote : g.pull s = { g with scanned := fun _ => false, late := fun _ => false } := by
    simp only [DoorbellHistory.pull, hpc]
  rw [hnote]
  refine hinv.frame h.active hawake (fun q => .inl ⟨h.waiting q, rfl, by simp⟩) ?_
  obtain hscan | hfetch := hpc'
  · rw [hscan]
    exact fun q hq hnot => absurd hq hnot
  · rw [hfetch]
    trivial

theorem wakeInv_pullerStep {g : DoorbellHistory} {s s' : HardwarePullerEmu}
    {stale : GpuGpfifoEntry} (h : PullerStep s s') (hinv : WakeInv (g, s))
    (hG : sleepGuard (g, s) (.puller stale)) : WakeInv (g.pull s, s') := by
  have hlooked := hinv.looked
  have hquiet := h.rings
  -- a step between two states that are neither part of a scan nor asleep
  have hstill : ∀ pc, s.pc = pc → pc ≠ .channelSwitch → (∀ rest, pc ≠ .scanQueues rest) →
      pc ≠ .exchange → (Awake s' ↔ Awake s) → Looked g s.queues.activeQueues s'.pc →
      WakeInv (g.pull s, s') := by
    rintro pc rfl hswitch hscan hexchange hawake hlook
    rw [pull_still hswitch hscan hexchange]
    obtain hquiet | ⟨q, rest, -, -, hpc, -⟩ := hquiet
    · exact hinv.quiet hquiet hawake hlook
    · exact absurd hpc (hscan _)
  have hmove : ∀ pc, Quiet s (s.goto pc) := fun pc => ⟨rfl, rfl, [], rfl, by simp⟩
  cases h with
  | move hmv =>
    cases hmv with
    | sleep hpc =>
      refine hstill .idle hpc (by simp) (by simp) (by simp) Iff.rfl ?_
      rwa [hpc] at hlooked
    | wake hpc => exact hstill .idle hpc (by simp) (by simp) (by simp) Iff.rfl trivial
    | noManager hpc => exact hinv.switch hpc (hmove _) Iff.rfl (.inl rfl)
    | scanEnd hpc =>
      have hnote : g.pull s = g := by simp only [DoorbellHistory.pull, hpc]
      rw [hnote]
      refine hinv.quiet (hmove _) Iff.rfl fun q hq => ?_
      rw [hpc] at hlooked
      exact hlooked q hq List.not_mem_nil
    | scanEmpty hpc hq => exact hinv.scanEmpty hpc hq
    | noDoorbell hpc hflag =>
      have hnote : g.pull s = g := by
        simp only [DoorbellHistory.pull, hpc, hflag, Bool.false_eq_true, if_false]
      rw [hnote]
      refine hinv.quiet (hmove _) Iff.rfl fun q hq => ?_
      rw [hpc] at hlooked
      exact (hlooked q hq).2
    | fetchEnd hpc hidx =>
      exact hstill .fetch hpc (by simp) (by simp) (by simp) Iff.rfl (hG hpc hidx)
    | pass hpc | toSemaphore hpc | toSchedule hpc | schedule hpc | stillWaiting hpc =>
      exact hstill _ hpc (by simp) (by simp) (by simp) Iff.rfl trivial
  | noChannel hpc =>
    exact hinv.switch hpc (hquiet.resolve_right (by simp [hpc])) Iff.rfl (.inl rfl)
  | select hpc | resume hpc =>
    exact hinv.switch hpc (hquiet.resolve_right (by simp [hpc])) Iff.rfl (.inr rfl)
  | dequeue hpc hq => exact hinv.dequeue hpc hq
  | exchange hpc => exact hinv.exchange hpc _
  | fetch hpc | blockNext hpc | blockLast hpc | dispatch hpc | release hpc | wait hpc | waited hpc
  | completeNext hpc | completeLast hpc | checkpointDirect hpc | checkpointNone hpc
  | checkpointLoad hpc => exact hstill _ hpc (by simp) (by simp) (by simp) Iff.rfl trivial

/-! ### The other parties' steps -/

theorem waiting_rang {s : HardwarePullerEmu} {q r : UInt32} (hrq : r ≠ q) (d : DoorbellEmu) :
    Waiting (({ s with queues := { s.queues with doorbell := d } }).enterCallback q) r ↔
      Waiting s r := by
  have hrung : RungAfterWrite r (.rang q :: s.log) ↔ RungAfterWrite r s.log :=
    rungAfterWrite_append (E := [.rang q]) (by
      simp [Event.rings, Event.writesRing, hrq.symm])
  simp only [Waiting, enterCallback, hrung]

/-- A doorbell of ring `q`. -/
theorem WakeInv.rang {g : DoorbellHistory} {s : HardwarePullerEmu} (hinv : WakeInv (g, s))
    (q : UInt32) (d : DoorbellEmu) : WakeInv (g.ring q,
      ({ s with queues := { s.queues with doorbell := d } }).enterCallback q) := by
  refine hinv.rouse rfl rfl (.inr (Nat.succ_ne_zero _)) rfl (fun _ => rfl) fun r hs hwait => ?_
  by_cases hrq : r = q
  · simpa [DoorbellHistory.ring, hrq] using hrq ▸ hs
  · simpa [DoorbellHistory.ring, Function.update_of_ne hrq] using
      hinv.late r hs ((waiting_rang hrq d).mp hwait)

/-- A write to ring `q` does not concern the other rings, and `q` itself is no longer rung. -/
theorem WakeInv.write {g : DoorbellHistory} {s : HardwarePullerEmu} (hinv : WakeInv (g, s))
    {q : UInt32} {f : WrapRing GpuGpfifoEntry → WrapRing GpuGpfifoEntry} {ev : Event}
    (hrings : ∀ q', ev.rings q' = false) (hwrites : ∀ q', ev.writesRing q' = true ↔ q = q') :
    WakeInv (g.forget q, { s.updateRing q f with log := ev :: s.log }) := by
  refine hinv.frame rfl Iff.rfl (fun r => ?_) (looked_forget q hinv.looked)
  by_cases hrq : r = q
  · subst hrq
    refine .inr ⟨fun hwait => ?_, by simp [DoorbellHistory.forget]⟩
    exact not_rungAfterWrite_of_write (hrings r) ((hwrites r).mpr rfl) hwait.2.1
  · have hnot : ev.writesRing r = false := by
      cases hw : ev.writesRing r with
      | false => rfl
      | true => exact absurd ((hwrites r).mp hw).symm hrq
    have hrung : RungAfterWrite r (ev :: s.log) ↔ RungAfterWrite r s.log :=
      rungAfterWrite_append (E := [ev]) (by simp [hrings, hnot])
    refine .inl ⟨?_, by simp [DoorbellHistory.forget, Function.update_of_ne hrq],
      fun hs => ⟨hs, rfl⟩⟩
    simp only [Waiting, updateRing, Function.update_of_ne hrq, hrung]

/-- Nothing is written to a ring that is not attached, which never waits. -/
theorem WakeInv.unattached {g : DoorbellHistory} {s : HardwarePullerEmu} (hinv : WakeInv (g, s))
    {q : UInt32} (hatt : ¬ (s.queues.queue q).attached = true) : WakeInv (g.forget q, s) := by
  refine hinv.frame rfl Iff.rfl (fun r => ?_) (looked_forget q hinv.looked)
  by_cases hrq : r = q
  · subst hrq
    exact .inr ⟨fun hwait => hatt hwait.1, by simp [DoorbellHistory.forget]⟩
  · exact .inl ⟨Iff.rfl, by simp [DoorbellHistory.forget, Function.update_of_ne hrq],
      fun hs => ⟨hs, rfl⟩⟩

/-- A submission rings when there is a manager. -/
theorem WakeInv.submitBatch {g : DoorbellHistory} {s : HardwarePullerEmu} (hinv : WakeInv (g, s))
    (b : Batch) : WakeInv (noteDoorbells g s (.submitBatch b), s.submitBatch b) := by
  have hquiet := submitBatch_quiet s b
  cases hm : s.channelMgr with
  | none =>
    have hsubmit : s.submitBatch b = s.directSubmit b := by
      simp only [HardwarePullerEmu.submitBatch, hm]
    have hnote : noteDoorbells g s (.submitBatch b) = g := by
      simp only [noteDoorbells, hm, Option.isSome_none, Bool.false_eq_true, if_false]
    rw [hnote, hsubmit]
    exact hinv.quiet (hsubmit ▸ hquiet) Iff.rfl hinv.looked
  | some m =>
    have hnote : noteDoorbells g s (.submitBatch b) = { g with missed := fun _ => false } := by
      simp only [noteDoorbells, hm, Option.isSome_some, if_true]
    rw [hnote]
    refine hinv.rouse hquiet.active ?_ ?_ rfl (fun _ => rfl) fun q hs hwait =>
      hinv.late q hs ((hquiet.waiting q).mp hwait)
    · simp only [HardwarePullerEmu.submitBatch, hm, acceptBatch]
      split <;> rfl
    · refine .inl ?_
      simp only [HardwarePullerEmu.submitBatch, hm]

theorem wakeInv_step (x : DoorbellHistory × HardwarePullerEmu) (a : Action) (hinv : WakeInv x)
    (hG : sleepGuard x a) : WakeInv (observed step noteDoorbells x a) := by
  obtain ⟨g, s⟩ := x
  simp only [observed]
  cases a with
  | puller stale => exact wakeInv_pullerStep (pullerStep_cases s stale) hinv hG
  | submitBatch b => exact hinv.submitBatch b
  | channelSubmit c b =>
    refine hinv.quiet (channelSubmit_quiet s c b) ?_ ?_
    · simp only [step, HardwarePullerEmu.channelSubmit, acceptBatch, Awake]
      split
      · split <;> rfl
      · rfl
    · have hlooked := hinv.looked
      simp only [step, HardwarePullerEmu.channelSubmit, acceptBatch]
      split
      · split <;> exact hlooked
      · exact hlooked
  | configure | triggerPreempt | signalBarrier | memWrite | hostWrite =>
    exact hinv.quiet ⟨rfl, rfl, [], rfl, by simp⟩ Iff.rfl hinv.looked
  | writeEntry q e =>
    simp only [step, HardwarePullerEmu.writeEntry, noteDoorbells]
    split
    · exact hinv.write (fun _ => rfl) (by simp [Event.writesRing])
    · exact hinv.unattached ‹_›
  | advanceWriteIdx q =>
    simp only [step, HardwarePullerEmu.advanceWriteIdx, noteDoorbells]
    split
    · exact hinv.write (fun _ => rfl) (by simp [Event.writesRing])
    · exact hinv.unattached ‹_›
  | ringDoorbell q =>
    simp only [step, HardwarePullerEmu.ringDoorbell, noteDoorbells]
    split
    · exact hinv.rang q s.queues.doorbell
    · exact hinv
  | writeDoorbell q =>
    simp only [step, HardwarePullerEmu.writeDoorbell, noteDoorbells]
    cases hw : s.queues.doorbell.write q with
    | mk ok d =>
      cases ok with
      | true => exact hinv.rang q d
      | false => exact hinv
  | onDoorbell =>
    simp only [step, HardwarePullerEmu.onDoorbell, noteDoorbells]
    cases hcb : s.queues.callbacks with
    | zero => exact hinv
    | succ n =>
      -- a running callback keeps the puller awake, so no ring is missed
      refine hinv.rouse rfl rfl (.inl rfl) rfl (fun q => ?_) fun q hs hwait => hinv.late q hs hwait
      cases hm : g.missed q with
      | false => rfl
      | true => exact absurd (.inr (by rw [hcb]; exact Nat.succ_ne_zero n)) (hinv.missed q hm).2

theorem init_pending (cfg : Config) (q : UInt32) : ((init cfg).queues.queue q).pending = [] :=
  GpuQueueEmu.create_pending (cfg.attached q) (cfg.ringSize q)

theorem wakeInv_init (cfg : Config) : WakeInv (.start, init cfg) where
  late := fun _ hs => absurd hs Bool.false_ne_true
  wake := fun q _ hwait => absurd (init_pending cfg q) hwait.2.2
  missed := fun _ hm => absurd hm Bool.false_ne_true
  looked := fun _ _ => rfl

theorem conserved_init (cfg : Config) : Conserved (init cfg) := by
  intro q _
  rw [init_pending]
  rfl

/-! ### The result -/

theorem delivered_of_inv {g : DoorbellHistory} {s : HardwarePullerEmu} (hinv : WakeInv (g, s))
    (hconserved : Conserved s) : Delivered s := by
  intro q hq hatt
  refine ⟨hconserved q hatt, ?_⟩
  rintro ⟨hpc, hflag, hcb⟩ hrung
  by_contra hpend
  have hlooked := hinv.looked
  simp only [hpc, Looked] at hlooked
  obtain (hset | hrunning) | hmissed := hinv.wake q hq ⟨hatt, hrung, hpend⟩
  · rw [hflag] at hset
    cases hset
  · exact hrunning hcb
  · rw [hlooked q hq] at hmissed
    cases hmissed

/-- A FETCH that falls asleep on a missed ring does not deliver its entries. -/
theorem sleepGuard_of_delivered {x : DoorbellHistory × HardwarePullerEmu} {a : Action}
    (hinv : WakeInv x) (h : Delivered (step x.2 a)) : sleepGuard x a := by
  obtain ⟨g, s⟩ := x
  cases a with
  | puller stale =>
    intro hpc hidx q hq
    simp only at hpc hidx hq h
    have hstep : step s (.puller stale) = s.goto .idle := by
      simp only [step, pullerStep, hpc, stepFetch, fetchEntry, if_pos hidx]
    rw [hstep] at h
    cases hm : g.missed q with
    | false => rfl
    | true =>
      obtain ⟨⟨hatt, hrung, hpend⟩, hasleep⟩ := hinv.missed q hm
      simp only [Awake, not_or, Bool.not_eq_true, ne_eq, not_not] at hasleep
      exact absurd ((h q hq hatt).2 ⟨rfl, hasleep⟩ hrung) hpend
  | _ => trivial

/-- **Ring delivery.**  When producers write into free slots, published entries are dequeued once,
in order, and a quiescent puller has emptied every registered ring rung after its last write,
exactly along the runs in which FETCH never falls asleep on a ring whose last doorbell rang after
its scan and was consumed by the exchange. -/
theorem delivered_iff (cfg : Config) (as : List Action)
    (hroom : Guarded step roomGuard (init cfg) as) :
    Always step Delivered (init cfg) as ↔
      Guarded (observed step noteDoorbells) sleepGuard (.start, init cfg) as := by
  have hexact : (Always (observed step noteDoorbells) (fun x => Delivered x.2)
        (.start, init cfg) as ∧
      Guarded (observed step noteDoorbells) (fun x a => roomGuard x.2 a) (.start, init cfg) as) ↔
      Guarded (observed step noteDoorbells) (fun x a => roomGuard x.2 a ∧ sleepGuard x a)
        (.start, init cfg) as :=
    always_guarded_iff (I := fun x => WakeInv x ∧ Conserved x.2)
      (fun x a hinv hG => ⟨wakeInv_step x a hinv.1 hG.2, conserved_step x.2 a hinv.2 hG.1⟩)
      (fun x hinv => delivered_of_inv hinv.1 hinv.2) (fun x a _ hG => hG.1)
      (fun x a hinv h hR => ⟨hR, sleepGuard_of_delivered hinv.1 h⟩) as
      ⟨wakeInv_init cfg, conserved_init cfg⟩
  have hroom' := (guarded_observed step noteDoorbells roomGuard (.start, init cfg) as).mpr hroom
  rw [← always_observed step noteDoorbells Delivered (.start, init cfg) as]
  constructor
  · intro h
    exact Guarded.mono _ (fun _ _ hG => hG.2) (hexact.mp ⟨h, hroom'⟩)
  · intro h
    exact (hexact.mpr (hroom'.and _ h)).1

/-- Two entries are written, rung and consumed. -/
theorem delivered_two_entries :
    Always step Delivered (init { Config.bare with activeQueues := [1] })
      ([.writeEntry 1 .zero, .advanceWriteIdx 1, .writeEntry 1 .zero, .advanceWriteIdx 1,
        .ringDoorbell 1, .onDoorbell] ++ pulls 20) :=
  (delivered_iff _ _ (by decide +kernel)).mpr (by decide +kernel)

/-- The entry is published and rung after the scan of its ring and before the exchange, and the
puller sleeps on it. -/
theorem delivered_fails :
    ¬ Always step Delivered (init { Config.bare with activeQueues := [1] })
      ([.ringDoorbell 1, .onDoorbell] ++ pulls 4 ++
        [.writeEntry 1 .zero, .advanceWriteIdx 1, .ringDoorbell 1, .onDoorbell] ++ pulls 2) := by
  intro hall
  have hlast : Delivered _ := hall.last
  obtain ⟨-, hempty⟩ := hlast 1 (by decide +kernel) (by decide +kernel)
  have hpend := hempty ⟨by decide +kernel, by decide +kernel, by decide +kernel⟩ (by decide +kernel)
  revert hpend
  decide +kernel

end UsrLinuxEmu.GpuDriver
