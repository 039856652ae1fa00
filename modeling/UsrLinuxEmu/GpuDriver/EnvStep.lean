import UsrLinuxEmu.GpuDriver.PullerStep

/-!
# What the other parties can do to the puller

`EnvStep s a s'` lists the effects of the actions that are not the puller's own step: a submission
accepted by the manager or loaded directly, a change of the channel configuration, and everything
else, which leaves the FSM, the registers and the channels alone.

* `step_cases` — every action is a puller step or one of these;
* `SlotsSubmitted` / `slotsSubmitted_step` — a batch in flight in a channel's slot is the submission
  recorded for that slot;
* `SubmissionsNumbered` / `submissionsNumbered_step` — a number stands for one submission;
* `SlotsRegistered` / `slotsRegistered_step` — only registered channels are in flight;
* `Bookkeeping` — the three together.
-/

namespace UsrLinuxEmu.GpuDriver

open UsrLinuxEmu.Transition ChannelManager

/-- The events of ring producers and doorbells. -/
def Event.isProducer : Event → Bool
  | .wrote _ | .published _ _ | .rang _ => true
  | _ => false

def Event.isRing : Event → Bool
  | .rang _ => true
  | _ => false

/-- A doorbell has been rung and not been consumed. -/
def QueueSide.Ringing (q : QueueSide) : Prop := q.doorbellPending = true ∨ q.callbacks ≠ 0

instance (q : QueueSide) : Decidable q.Ringing := inferInstanceAs (Decidable (_ ∨ _))

namespace HardwarePullerEmu

inductive EnvStep (s : HardwarePullerEmu) (a : Action) : HardwarePullerEmu → Prop
  | accept {m : ChannelManager} {c : ℕ} {b : Batch} (hm : s.channelMgr = some m)
      (ha : a = .submitBatch b ∧ c = s.currentChannelId ∨ a = .channelSubmit c b)
      (hreg : m.isRegistered c = true) (flag : Bool) :
      EnvStep s a { s with
        queues := { s.queues with doorbellPending := flag }
        channelMgr := some (m.submitBatch c b)
        nextId := s.nextId + 1
        slotId := Function.update s.slotId c s.nextId
        log := .submitted s.nextId c b :: s.log }
  | direct {b : Batch} (hm : s.channelMgr = none) (ha : a = .submitBatch b) (w : SemWaiter) :
      EnvStep s a { s with
        regs := b.regs
        loaded := ⟨s.nextId, s.currentChannelId, b.regs⟩
        nextId := s.nextId + 1
        waiter := w
        log := .loaded ⟨s.nextId, s.currentChannelId, b.regs⟩ ::
          .submitted s.nextId s.currentChannelId b :: s.log }
  | configure {m : ChannelManager} {op : ConfigOp} (hm : s.channelMgr = some m)
      (ha : a = .configure op) : EnvStep s a { s with channelMgr := some (m.configure op) }
  | quiet (queues : QueueSide) (hal : HalUserContext) (host : UInt64 → UInt8)
      (preempt : PreemptRequest) {sema : ChannelSemaphoreState}
      (hsema : sema = s.sema ∨ ∃ i, sema = (s.sema.signalBarrier i).2) {E : List Event}
      (hevs : ∀ e ∈ E, e.isProducer = true)
      (hring : queues.Ringing ∨ ¬ s.queues.Ringing ∧ ∀ e ∈ E, e.isRing = false) :
      EnvStep s a { s with
        queues := queues
        device := { s.device with hal := hal, host := host }
        preempt := preempt
        sema := sema
        log := E ++ s.log }

/-- Nothing but the queues and the producers' events. -/
theorem EnvStep.queues (s : HardwarePullerEmu) {a : Action} (queues : QueueSide)
    {E : List Event} (hevs : ∀ e ∈ E, e.isProducer = true)
    (hring : queues.Ringing ∨ ¬ s.queues.Ringing ∧ ∀ e ∈ E, e.isRing = false) :
    EnvStep s a { s with queues := queues, log := E ++ s.log } :=
  .quiet queues s.device.hal s.device.host s.preempt (.inl rfl) hevs hring

/-- Neither queues nor history. -/
theorem EnvStep.still (s : HardwarePullerEmu) {a : Action} (hal : HalUserContext)
    (host : UInt64 → UInt8) (preempt : PreemptRequest) {sema : ChannelSemaphoreState}
    (hsema : sema = s.sema ∨ ∃ i, sema = (s.sema.signalBarrier i).2) :
    EnvStep s a { s with
      device := { s.device with hal := hal, host := host }, preempt := preempt, sema := sema } :=
  .quiet s.queues hal host preempt hsema (E := []) (by simp)
    ((Classical.em s.queues.Ringing).imp_right fun h => ⟨h, by simp⟩)

theorem EnvStep.refl (s : HardwarePullerEmu) {a : Action} : EnvStep s a s :=
  .still s s.device.hal s.device.host s.preempt (.inl rfl)

theorem submitBatch_cases (s : HardwarePullerEmu) (b : Batch) :
    EnvStep s (.submitBatch b) (s.submitBatch b) := by
  unfold submitBatch
  cases hm : s.channelMgr with
  | none => exact .direct hm rfl _
  | some m =>
    simp only [acceptBatch]
    cases hreg : m.isRegistered s.currentChannelId with
    | false => exact EnvStep.queues s _ (E := []) (by simp) (.inl (.inl rfl))
    | true => exact .accept hm (.inl ⟨rfl, rfl⟩) hreg true

theorem channelSubmit_cases (s : HardwarePullerEmu) (c : ℕ) (b : Batch) :
    EnvStep s (.channelSubmit c b) (s.channelSubmit c b) := by
  unfold channelSubmit
  cases hm : s.channelMgr with
  | none => exact .refl s
  | some m =>
    simp only [acceptBatch]
    cases hreg : m.isRegistered c with
    | false => exact .refl s
    | true => exact .accept hm (.inr rfl) hreg s.queues.doorbellPending

/-- **Environment inversion.**  An action of another party has one of the listed effects. -/
theorem envStep_cases (s : HardwarePullerEmu) {a : Action} (ha : a.isPuller = false) :
    EnvStep s a (step s a) := by
  cases a with
  | puller stale => simp [Action.isPuller] at ha
  | submitBatch b => exact submitBatch_cases s b
  | channelSubmit c b => exact channelSubmit_cases s c b
  | configure op =>
    simp only [step, HardwarePullerEmu.configure]
    cases hm : s.channelMgr with
    | none =>
      have hrefl := EnvStep.refl s (a := .configure op)
      cases s
      simp only at hm
      subst hm
      exact hrefl
    | some m => exact .configure hm rfl
  | triggerPreempt target => exact .still s s.device.hal s.device.host ⟨true, target⟩ (.inl rfl)
  | signalBarrier i => exact .still s s.device.hal s.device.host s.preempt (.inr ⟨i, rfl⟩)
  | writeEntry q e =>
    simp only [step, writeEntry]
    split
    · exact .queues s _ (E := [.wrote q]) (by simp [Event.isProducer])
        ((Classical.em s.queues.Ringing).imp_right fun h => ⟨h, by simp [Event.isRing]⟩)
    · exact .refl s
  | advanceWriteIdx q =>
    simp only [step, advanceWriteIdx]
    split
    · exact .queues s _ (E := [.published q _]) (by simp [Event.isProducer])
        ((Classical.em s.queues.Ringing).imp_right fun h => ⟨h, by simp [Event.isRing]⟩)
    · exact .refl s
  | ringDoorbell q =>
    simp only [step, ringDoorbell]
    split
    · exact .queues s _ (E := [.rang q]) (by simp [Event.isProducer])
        (.inl (.inr (Nat.succ_ne_zero _)))
    · exact .refl s
  | writeDoorbell q =>
    simp only [step, writeDoorbell]
    split
    · exact .queues s _ (E := [.rang q]) (by simp [Event.isProducer])
        (.inl (.inr (Nat.succ_ne_zero _)))
    · exact .refl s
  | onDoorbell =>
    simp only [step, onDoorbell]
    split
    · exact .refl s
    · exact .queues s _ (E := []) (by simp) (.inl (.inl rfl))
  | memWrite devAddr size buf => exact .still s _ s.device.host s.preempt (.inl rfl)
  | hostWrite host => exact .still s s.device.hal host s.preempt (.inl rfl)

/-- An action is a step of the puller or of another party. -/
theorem step_cases (s : HardwarePullerEmu) (a : Action) :
    (a.isPuller = true ∧ PullerStep s (step s a)) ∨
      (a.isPuller = false ∧ EnvStep s a (step s a)) := by
  cases ha : a.isPuller with
  | false => exact .inr ⟨rfl, envStep_cases s ha⟩
  | true =>
    cases a <;> simp only [Action.isPuller, Bool.false_eq_true] at ha
    exact .inl ⟨rfl, pullerStep_cases s _⟩

/-! ### Slots and submissions -/

/-- A batch in flight in a slot is the submission that the slot is numbered with. -/
def SlotsSubmitted (s : HardwarePullerEmu) : Prop :=
  ∀ m, s.channelMgr = some m → ∀ c, (m.channels c).batchInFlight = true →
    .submitted (s.slotId c) c (m.channels c).batch ∈ s.log

theorem SlotsSubmitted.of_slotsFrom {s s' : HardwarePullerEmu} (hs : SlotsSubmitted s)
    (hslot : s'.slotId = s.slotId) (hlog : s.log ⊆ s'.log)
    (hmgr : ∀ m', s'.channelMgr = some m' → ∃ m, s.channelMgr = some m ∧ SlotsFrom m m') :
    SlotsSubmitted s' := by
  intro m' hm' c hc
  obtain ⟨m, hm, hfrom⟩ := hmgr m' hm'
  obtain ⟨hc', hbatch⟩ := hfrom c hc
  rw [hslot, hbatch]
  exact hlog (hs m hm c hc')

/-- How a step of the puller changes the manager: by yields, selections and MQD updates, so any
relation that these keep relates the managers before and after. -/
theorem PullerStep.manager {s s' : HardwarePullerEmu} (h : PullerStep s s')
    {R : ChannelManager → ChannelManager → Prop} (hrefl : ∀ m, R m m)
    (htrans : ∀ {m₁ m₂ m₃}, R m₁ m₂ → R m₂ m₃ → R m₁ m₃)
    (hyield : ∀ m c, R m (m.yieldChannel c)) (hselect : ∀ m, R m m.nextReadyChannel.2)
    (hmqd : ∀ m p f, R m (m.updateMqd p f)) :
    ∀ m', s'.channelMgr = some m' → ∃ m, s.channelMgr = some m ∧ R m m' := by
  have hself : ∀ m', s.channelMgr = some m' → ∃ m, s.channelMgr = some m ∧ R m m' :=
    fun m' hm' => ⟨m', hm', hrefl m'⟩
  have hselected : ∀ {m m' : ChannelManager} {r : Option ℕ}, m.nextReadyChannel = (r, m') →
      R m m' := by
    intro m m' r hnext
    have hfrom := hselect m
    rwa [hnext] at hfrom
  have hchecked : ∀ {m m' : ChannelManager} {r : Option ℕ},
      s.checkpointManager (m.yieldChannel s.currentChannelId) = (r, m') → R m m' := by
    intro m m' r hnext
    refine htrans (hyield m s.currentChannelId) (htrans ?_ (hselected hnext))
    cases (m.yieldChannel s.currentChannelId).getMqdForChannel s.currentChannelId with
    | none => exact hrefl _
    | some p => exact hmqd _ p _
  cases h with
  | move | dequeue | exchange | fetch | blockNext | dispatch | release | wait | waited
  | completeNext => exact hself
  | noChannel _ hm hnext | select _ hm hnext _ =>
    rintro m' ⟨⟩
    exact ⟨_, hm, hselected hnext⟩
  | resume _ hm hnext _ _ =>
    rintro m' ⟨⟩
    exact ⟨_, hm, htrans (hselected hnext) (hmqd _ _ _)⟩
  | blockLast | completeLast =>
    intro m' hm'
    obtain ⟨m, hm, rfl⟩ := Option.map_eq_some_iff.mp hm'
    exact ⟨m, hm, hyield m s.currentChannelId⟩
  | checkpointDirect =>
    rintro m' ⟨⟩
  | checkpointNone _ _ _ hm hnext | checkpointLoad _ _ _ hm hnext _ =>
    rintro m' ⟨⟩
    exact ⟨_, hm, hchecked hnext⟩

/-- No batch comes from nowhere. -/
theorem PullerStep.slotsFrom {s s' : HardwarePullerEmu} (h : PullerStep s s') :
    ∀ m', s'.channelMgr = some m' → ∃ m, s.channelMgr = some m ∧ SlotsFrom m m' :=
  h.manager (fun _ => slotsFrom_of_channels_eq rfl) SlotsFrom.trans yieldChannel_slotsFrom
    nextReadyChannel_slotsFrom fun _ _ _ => slotsFrom_of_channels_eq rfl

theorem PullerStep.registered {s s' : HardwarePullerEmu} (h : PullerStep s s') :
    ∀ m', s'.channelMgr = some m' → ∃ m, s.channelMgr = some m ∧ m'.registered = m.registered :=
  h.manager (R := fun m m' => m'.registered = m.registered) (fun _ => rfl)
    (fun h h' => h'.trans h) yieldChannel_registered nextReadyChannel_registered fun _ _ _ => rfl

theorem PullerStep.extends {s s' : HardwarePullerEmu} (h : PullerStep s s') :
    ∃ E, s'.log = E ++ s.log := by
  cases h with
  | move | noChannel | exchange | wait | waited => exact ⟨[], rfl⟩
  | select | dequeue | fetch | blockNext | release => exact ⟨[_], rfl⟩
  | resume => exact ⟨[_, _], rfl⟩
  | blockLast => exact ⟨_ ++ [_], (List.append_cons ..)⟩
  | dispatch | completeNext | checkpointDirect => exact ⟨_, rfl⟩
  | completeLast => exact ⟨_ ++ _, (List.append_assoc ..).symm⟩
  | checkpointNone => exact ⟨_ :: _ :: _, rfl⟩
  | checkpointLoad => exact ⟨_ :: _ :: _ :: _, rfl⟩

/-- A step of the puller only adds to the history, and leaves the numbering of slots alone. -/
theorem PullerStep.log_subset {s s' : HardwarePullerEmu} (h : PullerStep s s') :
    s.log ⊆ s'.log ∧ s'.slotId = s.slotId ∧ s'.nextId = s.nextId := by
  refine ⟨?_, ?_, ?_⟩
  · obtain ⟨E, hE⟩ := h.extends
    rw [hE]
    exact List.subset_append_right E s.log
  · cases h <;> rfl
  · cases h <;> rfl

theorem slotsSubmitted_step (s : HardwarePullerEmu) (a : Action) (hs : SlotsSubmitted s) :
    SlotsSubmitted (step s a) := by
  obtain ⟨-, h⟩ | ⟨-, h⟩ := step_cases s a
  · obtain ⟨hlog, hslot, -⟩ := h.log_subset
    exact hs.of_slotsFrom hslot hlog h.slotsFrom
  · generalize step s a = s' at h
    cases h with
    | accept hm ha hreg flag =>
      rename_i m c b
      rintro m' ⟨⟩ d hd
      by_cases hdc : d = c
      · subst hdc
        simp [submitBatch_channel hreg b]
      · rw [submitBatch_channel_of_ne hdc] at hd ⊢
        simp only [Function.update_of_ne hdc]
        exact List.mem_cons_of_mem _ (hs m hm d hd)
    | direct hm ha w =>
      intro m' hm'
      rw [hm] at hm'
      cases hm'
    | configure hm ha =>
      rename_i m op
      refine hs.of_slotsFrom rfl (List.Subset.refl _) ?_
      rintro m' ⟨⟩
      exact ⟨m, hm, configure_slotsFrom m op⟩
    | quiet =>
      refine hs.of_slotsFrom rfl (List.subset_append_right _ _) fun m' hm' => ?_
      exact ⟨m', hm', slotsFrom_of_channels_eq rfl⟩

theorem slotsSubmitted_init (cfg : Config) : SlotsSubmitted (init cfg) := by
  intro m hm c hc
  obtain ⟨mqd, -, rfl⟩ := Option.map_eq_some_iff.mp hm
  simp [ChannelManager.create, ChannelState.unused] at hc

/-! ### Submissions and their numbers -/

/-- Every number stands for one submission, and the next one is fresh. -/
structure SubmissionsNumbered (s : HardwarePullerEmu) : Prop where
  fresh : ∀ id c b, .submitted id c b ∈ s.log → id < s.nextId
  unique : ∀ id c b c' b', .submitted id c b ∈ s.log → .submitted id c' b' ∈ s.log →
    c = c' ∧ b = b'

/-- The puller submits nothing. -/
theorem PullerStep.submitted {s s' : HardwarePullerEmu} (h : PullerStep s s') {id c : ℕ}
    {b : Batch} (hmem : .submitted id c b ∈ s'.log) : .submitted id c b ∈ s.log := by
  have hyield : .submitted id c b ∉ s.yieldEvents := fun hev => by
    cases mem_yieldEvents hev
  have hfinish : .submitted id c b ∉ s.finishEvents := fun hev => by
    obtain ⟨x, y, h⟩ | ⟨h, -⟩ | h | h := mem_finishEvents hev <;> cases h
  have hdispatch : ∀ l f, .submitted id c b ∉ s.dispatchEvents l f := fun l f hev => by
    obtain ⟨h, -⟩ | ⟨x, h⟩ | ⟨x, y, z, h⟩ | h := mem_dispatchEvents hev <;> cases h
  cases h <;> simpa [goto, load, take, writeEntrySemaphore, hyield, hfinish, hdispatch] using hmem

theorem SubmissionsNumbered.of_same {s s' : HardwarePullerEmu} (hs : SubmissionsNumbered s)
    (hnext : s'.nextId = s.nextId)
    (hmem : ∀ id c b, .submitted id c b ∈ s'.log → .submitted id c b ∈ s.log) :
    SubmissionsNumbered s' where
  fresh := fun id c b h => by
    rw [hnext]
    exact hs.fresh id c b (hmem id c b h)
  unique := fun id c b c' b' h h' => hs.unique id c b c' b' (hmem _ _ _ h) (hmem _ _ _ h')

/-- One more submission under the next number. -/
theorem SubmissionsNumbered.submit {s s' : HardwarePullerEmu} (hs : SubmissionsNumbered s)
    {c : ℕ} {b : Batch} (hnext : s'.nextId = s.nextId + 1)
    (hmem : ∀ id d e, .submitted id d e ∈ s'.log →
      (id = s.nextId ∧ d = c ∧ e = b) ∨ .submitted id d e ∈ s.log) : SubmissionsNumbered s' where
  fresh := fun id d e h => by
    obtain ⟨rfl, -⟩ | hold := hmem id d e h
    · omega
    · have := hs.fresh id d e hold
      omega
  unique := fun id d e d' e' h h' => by
    obtain ⟨hid, rfl, rfl⟩ | hold := hmem id d e h <;>
      obtain ⟨hid', rfl, rfl⟩ | hold' := hmem id d' e' h'
    · exact ⟨rfl, rfl⟩
    · have := hs.fresh _ _ _ hold'
      omega
    · have := hs.fresh _ _ _ hold
      omega
    · exact hs.unique id d e d' e' hold hold'

theorem submissionsNumbered_step (s : HardwarePullerEmu) (a : Action)
    (hs : SubmissionsNumbered s) : SubmissionsNumbered (step s a) := by
  obtain ⟨-, h⟩ | ⟨-, h⟩ := step_cases s a
  · exact hs.of_same h.log_subset.2.2 fun _ _ _ => h.submitted
  · generalize step s a = s' at h
    cases h with
    | accept hm ha hreg flag =>
      rename_i m c b
      refine hs.submit (c := c) (b := b) rfl fun id d e h => ?_
      simpa using h
    | direct hm ha w =>
      rename_i b
      refine hs.submit (c := s.currentChannelId) (b := b) rfl fun id d e h => ?_
      simpa using h
    | configure => exact hs.of_same rfl fun _ _ _ => id
    | quiet queues hal host preempt hsema hevs =>
      refine hs.of_same rfl fun id c b h => ?_
      obtain hnew | hold := List.mem_append.mp h
      · have hprod := hevs _ hnew
        simp [Event.isProducer] at hprod
      · exact hold

/-! ### Registered slots -/

/-- Every channel in flight is registered. -/
def SlotsRegistered (s : HardwarePullerEmu) : Prop :=
  ∀ m, s.channelMgr = some m → InFlightRegistered m

theorem slotsRegistered_step (s : HardwarePullerEmu) (a : Action) (hs : SlotsRegistered s) :
    SlotsRegistered (step s a) := by
  obtain ⟨-, h⟩ | ⟨-, h⟩ := step_cases s a
  · intro m' hm'
    obtain ⟨m, hm, hfrom⟩ := h.slotsFrom m' hm'
    obtain ⟨m₁, hm₁, hreg⟩ := h.registered m' hm'
    obtain rfl : m = m₁ := Option.some.inj (hm.symm.trans hm₁)
    exact (hs m hm).mono hfrom fun c hc => by rw [hreg]; exact hc
  · generalize step s a = s' at h
    cases h with
    | accept hm ha hreg flag =>
      rintro m' ⟨⟩
      exact inFlightRegistered_submitBatch (hs _ hm) hreg _
    | direct hm ha w =>
      intro m' hm'
      rw [hm] at hm'
      cases hm'
    | configure hm ha =>
      rintro m' ⟨⟩
      exact (hs _ hm).mono (configure_slotsFrom _ _) fun c => configure_registered _ _
    | quiet => exact hs

theorem slotsRegistered_init (cfg : Config) : SlotsRegistered (init cfg) := by
  intro m hm c hc
  obtain ⟨mqd, -, rfl⟩ := Option.map_eq_some_iff.mp hm
  simp [ChannelManager.create, ChannelState.unused] at hc

theorem submissionsNumbered_init (cfg : Config) : SubmissionsNumbered (init cfg) where
  fresh := fun _ _ _ h => absurd h List.not_mem_nil
  unique := fun _ _ _ _ _ h => absurd h List.not_mem_nil

/-- What holds of slots and submissions in every reachable state. -/
structure Bookkeeping (s : HardwarePullerEmu) : Prop where
  slots : SlotsSubmitted s
  numbered : SubmissionsNumbered s
  registered : SlotsRegistered s

theorem Bookkeeping.of_same {s s' : HardwarePullerEmu} (hs : Bookkeeping s)
    (hmgr : s'.channelMgr = s.channelMgr) (hslot : s'.slotId = s.slotId)
    (hnext : s'.nextId = s.nextId)
    (hmem : ∀ id c b, .submitted id c b ∈ s'.log ↔ .submitted id c b ∈ s.log) :
    Bookkeeping s' := by
  refine ⟨fun m hm c hc => ?_, hs.numbered.of_same hnext fun id c b => (hmem id c b).mp, ?_⟩
  · rw [hslot, hmem]
    exact hs.slots m (hmgr ▸ hm) c hc
  · exact fun m hm => hs.registered m (hmgr ▸ hm)

theorem bookkeeping_step (s : HardwarePullerEmu) (a : Action) (hs : Bookkeeping s) :
    Bookkeeping (step s a) :=
  ⟨slotsSubmitted_step s a hs.slots, submissionsNumbered_step s a hs.numbered,
    slotsRegistered_step s a hs.registered⟩

theorem bookkeeping_init (cfg : Config) : Bookkeeping (init cfg) :=
  ⟨slotsSubmitted_init cfg, submissionsNumbered_init cfg, slotsRegistered_init cfg⟩

end HardwarePullerEmu

end UsrLinuxEmu.GpuDriver
