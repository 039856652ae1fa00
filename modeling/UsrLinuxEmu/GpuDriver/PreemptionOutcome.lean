import UsrLinuxEmu.GpuDriver.BlockedEntries
import UsrLinuxEmu.GpuDriver.RequestFree
import UsrLinuxEmu.Transition.History

/-!
# What a preemption must not change

The checkpoint moves the semaphore state of the puller into its one backup, from which only the
resumption of a channel takes it back.

* `AwaitsResume` — a resumption of the channel would take the backup;
* `pendingOn` / `barrierFor` — what a channel has pending: entries and barriers in the semaphore
  state of the puller, and those in the backup for a channel that awaits its resumption;
* `SameOutcome` — what the run with requests and the run without must agree on once at rest;
* `parkedGuard` — the steps that move no entry of a channel where the channel cannot reach it;
* `BackupInv` — along guarded runs the backup has entries of a channel that awaits its resumption
  only;
* `sameOutcome_of_tracks` — the runs then agree.
-/

namespace UsrLinuxEmu.GpuDriver

open UsrLinuxEmu.Transition ChannelManager HardwarePullerEmu

/-! ### The property -/

def Event.submits (id c : ℕ) : Event → Bool
  | .submitted i d _ => i == id && d == c
  | _ => false

/-- The entry came from a batch of channel `c`. -/
def Source.ofChannel (log : List Event) (c : ℕ) : Source → Bool
  | .batch id _ _ => log.any (Event.submits id c)
  | .ring _ => false

def Event.executedOn? (log : List Event) (c : ℕ) : Event → Option GpuGpfifoEntry
  | .completed _ src e => if src.ofChannel log c then some e else none
  | _ => none

def Event.parkedOn? (log : List Event) (c : ℕ) : Event → Option GpuGpfifoEntry
  | .blocked _ src e => if src.ofChannel log c then some e else none
  | _ => none

/-- The entries of channel `c` that were executed, newest first. -/
def executedOn (log : List Event) (c : ℕ) : List GpuGpfifoEntry :=
  log.filterMap (Event.executedOn? log c)

/-- The entries that channel `c` has been blocked at, newest first. -/
def parkedOn (log : List Event) (c : ℕ) : List GpuGpfifoEntry :=
  log.filterMap (Event.parkedOn? log c)

/-- The newest checkpoint or resumption is the checkpoint that preempted `c`. -/
def LastSaved (log : List Event) (c : ℕ) : Prop :=
  ∃ target, newest Event.isPreemption log = some (.preempted c target)

/-- Channel `c` was the last one saved, and it has a PREEMPTED MQD to be resumed from. -/
def AwaitsResume (s : HardwarePullerEmu) (c : ℕ) : Prop :=
  LastSaved s.log c ∧ ∃ m ∈ s.channelMgr, (preemptedMqd m c).isSome = true

def Event.preempts (c : ℕ) : Event → Bool
  | .preempted d _ => d == c
  | _ => false

theorem lastSaved_iff (log : List Event) (c : ℕ) :
    LastSaved log c ↔ (newest Event.isPreemption log).any (Event.preempts c) = true := by
  unfold LastSaved
  match newest Event.isPreemption log with
  | none => simp
  | some e => cases e <;> simp [Event.preempts]

instance (log : List Event) (c : ℕ) : Decidable (LastSaved log c) :=
  decidable_of_iff _ (lastSaved_iff log c).symm

instance (s : HardwarePullerEmu) (c : ℕ) : Decidable (AwaitsResume s c) :=
  inferInstanceAs (Decidable (_ ∧ ∃ m ∈ s.channelMgr, _))

/-- The pending SEM_WAIT entries that channel `c` has been blocked at.  Those in the backup count
for the channel that a resumption would give them back to. -/
def pendingOn (s : HardwarePullerEmu) (c : ℕ) : List GpuGpfifoEntry :=
  ((if AwaitsResume s c then s.semaBackup.pendingEntries else []) ++ s.sema.pendingEntries).filter
    fun e => decide (e ∈ parkedOn s.log c)

/-- The state of barrier `i` as channel `c` finds it, or will find it when it is resumed. -/
def barrierFor (s : HardwarePullerEmu) (c : ℕ) (i : UInt64) : Option BarrierState :=
  (s.sema.barriers i).or (if AwaitsResume s c then s.semaBackup.barriers i else none)

structure SameOutcome (s t : HardwarePullerEmu) : Prop where
  executed : ∀ c, executedOn s.log c = executedOn t.log c
  parked : ∀ c, parkedOn s.log c = parkedOn t.log c
  pending : ∀ c, (pendingOn s c).Perm (pendingOn t c)
  barriers : ∀ c, ∀ e ∈ parkedOn s.log c, e.method ≠ gpuOpSemWait →
    barrierFor s c e.semaphoreVa = barrierFor t c e.semaphoreVa
  fences : ∀ id f, .signaled id f ∈ s.log ↔ .signaled id f ∈ t.log

/-- The puller sleeps, no doorbell will wake it, and no channel is in flight. -/
def AtRest (s : HardwarePullerEmu) : Prop :=
  s.pc = .idle ∧ ¬ s.queues.Ringing ∧ s.queues.doorbell.poll 0 = false ∧
    ∀ c < maxChannels, s.busy c = false

instance (s : HardwarePullerEmu) : Decidable (AtRest s) :=
  inferInstanceAs (Decidable (_ ∧ _ ∧ _ ∧ _))

/-! ### The condition -/

/-- The entry is pending here, or its barrier is registered here. -/
def ChannelSemaphoreState.holds (st : ChannelSemaphoreState) (e : GpuGpfifoEntry) : Bool :=
  decide (e ∈ st.pendingEntries) || (e.method != gpuOpSemWait && (st.barriers e.semaphoreVa).isSome)

def submitters (log : List Event) : List ℕ :=
  log.filterMap fun
    | .submitted _ c _ => some c
    | _ => none

/-- Nothing that a channel has been blocked at is held here. -/
def HoldsNone (log : List Event) (st : ChannelSemaphoreState) : Prop :=
  ∀ c ∈ submitters log, ∀ e ∈ parkedOn log c, st.holds e = false

instance (log : List Event) (st : ChannelSemaphoreState) : Decidable (HoldsNone log st) :=
  inferInstanceAs (Decidable (∀ c ∈ submitters log, ∀ e ∈ parkedOn log c, _))

/-- The channel that CHANNEL_SWITCH is about to resume from its PREEMPTED MQD. -/
def HardwarePullerEmu.resumes (s : HardwarePullerEmu) : Option ℕ :=
  match s.selection with
  | none => none
  | some (c, m) => (preemptedMqd m c).map fun _ => c

/-- The checkpoint leaves the current channel with a PREEMPTED MQD. -/
def HardwarePullerEmu.savesCurrent (s : HardwarePullerEmu) : Bool :=
  s.channelMgr.any fun m => (preemptedMqd (s.savedManager m) s.currentChannelId).isSome

/-- A checkpoint saves only what the current channel has been blocked at, and saves that channel in
an MQD; DECODE parks nothing that the backup holds; a resumption finds nothing of another channel in
the semaphore state; and the driver takes no PREEMPTED MQD away while the backup is needed. -/
def parkedGuard (s : HardwarePullerEmu) : Action → Prop
  | .puller _ =>
    (s.atCheckpoint = true → ∀ c ∈ submitters s.log, ∀ e ∈ parkedOn s.log c,
      s.sema.holds e = true → c = s.currentChannelId ∧ s.savesCurrent = true) ∧
    (s.pc = .decode → s.blocks = true → s.semaBackup.holds s.currentEntry = false) ∧
    (s.resumes.isSome = true → HoldsNone s.log s.sema)
  | .configure op => ∀ m ∈ s.channelMgr, ∀ c ∈ submitters s.log, AwaitsResume s c →
      (preemptedMqd (m.configure op) c).isSome = true ∨ HoldsNone s.log s.semaBackup
  | _ => True

instance decidableParkedGuard (s : HardwarePullerEmu) : ∀ a, Decidable (parkedGuard s a)
  | .puller _ => inferInstanceAs (Decidable (_ ∧ _ ∧ _))
  | .configure _ => inferInstanceAs (Decidable (∀ m ∈ s.channelMgr, ∀ c ∈ submitters s.log, _))
  | .submitBatch _ | .channelSubmit .. | .triggerPreempt _ | .signalBarrier _ | .writeEntry ..
  | .advanceWriteIdx _ | .ringDoorbell _ | .writeDoorbell _ | .onDoorbell | .memWrite ..
  | .hostWrite _ => .isTrue trivial

/-! ### The entries a channel has been blocked at -/

theorem ofChannel_batch {log : List Event} {c id i : ℕ} {addr : UInt64} :
    (Source.batch id i addr).ofChannel log c = true ↔ ∃ b, .submitted id c b ∈ log := by
  simp only [Source.ofChannel, List.any_eq_true]
  constructor
  · rintro ⟨ev, hev, hsub⟩
    cases ev <;> simp only [Event.submits, Bool.and_eq_true, beq_iff_eq, Bool.false_eq_true] at hsub
    obtain ⟨rfl, rfl⟩ := hsub
    exact ⟨_, hev⟩
  · rintro ⟨b, hb⟩
    exact ⟨_, hb, by simp [Event.submits]⟩

theorem mem_parkedOn {log : List Event} {c : ℕ} {e : GpuGpfifoEntry} :
    e ∈ parkedOn log c ↔ ∃ n id i addr b, .blocked n (.batch id i addr) e ∈ log ∧
      .submitted id c b ∈ log := by
  simp only [parkedOn, List.mem_filterMap]
  constructor
  · rintro ⟨ev, hev, hpark⟩
    cases ev with
    | blocked n src e' =>
      simp only [Event.parkedOn?] at hpark
      split at hpark
      · rename_i hsrc
        obtain rfl := Option.some.inj hpark
        cases src with
        | batch id i addr =>
          obtain ⟨b, hb⟩ := ofChannel_batch.mp hsrc
          exact ⟨n, id, i, addr, b, hev, hb⟩
        | ring q => cases hsrc
      · cases hpark
    | _ => cases hpark
  · rintro ⟨n, id, i, addr, b, hev, hb⟩
    exact ⟨_, hev, by simp only [Event.parkedOn?, ofChannel_batch.mpr ⟨b, hb⟩, if_true]⟩

theorem submitter_of_parked {log : List Event} {c : ℕ} {e : GpuGpfifoEntry}
    (h : e ∈ parkedOn log c) : c ∈ submitters log := by
  obtain ⟨n, id, i, addr, b, -, hb⟩ := mem_parkedOn.mp h
  exact List.mem_filterMap.mpr ⟨_, hb, rfl⟩

theorem HoldsNone.of_parked {log : List Event} {st : ChannelSemaphoreState} (h : HoldsNone log st)
    {c : ℕ} {e : GpuGpfifoEntry} (he : e ∈ parkedOn log c) : st.holds e = false :=
  h c (submitter_of_parked he) e he

/-- A submission found after a step is found before it or has the next number. -/
theorem submitted_step {s : HardwarePullerEmu} {a : Action} {id c : ℕ} {b : Batch}
    (h : .submitted id c b ∈ (step s a).log) : .submitted id c b ∈ s.log ∨ id = s.nextId := by
  obtain ⟨-, hstep⟩ | ⟨-, hstep⟩ := step_cases s a
  · exact .inl (hstep.submitted h)
  · generalize step s a = s' at hstep h
    cases hstep with
    | accept =>
      obtain heq | hold := List.mem_cons.mp h
      · injection heq with hid
        exact .inr hid
      · exact .inl hold
    | direct =>
      simp only [List.mem_cons, reduceCtorEq, false_or, Event.submitted.injEq] at h
      exact h.elim (fun heq => .inr heq.1) .inl
    | configure => exact .inl h
    | quiet queues hal host preempt hsema hevs =>
      obtain hnew | hold := List.mem_append.mp h
      · cases hevs _ hnew
      · exact .inl hold

/-- A step adds to what a channel has been blocked at only the entry that DECODE blocks. -/
theorem parkedOn_step {s : HardwarePullerEmu} {a : Action} (hknown : KnownSubmissions s) {c : ℕ}
    {e : GpuGpfifoEntry} (he : e ∈ parkedOn (step s a).log c) :
    e ∈ parkedOn s.log c ∨
      a.isPuller = true ∧ s.pc = .decode ∧ s.blocks = true ∧ e = s.currentEntry := by
  obtain ⟨n, id, i, addr, b, hmem, hb⟩ := mem_parkedOn.mp he
  have hold : .blocked n (.batch id i addr) e ∈ s.log → e ∈ parkedOn s.log c := by
    intro hmem
    have hlt := hknown.touched id (touched_iff.mpr ⟨n, i, addr, e, hmem⟩)
    obtain hsub | rfl := submitted_step hb
    · exact mem_parkedOn.mpr ⟨n, id, i, addr, b, hmem, hsub⟩
    · exact absurd hlt (Nat.lt_irrefl _)
  obtain ⟨ha, h⟩ | ⟨-, h⟩ := step_cases s a
  · obtain hmem | ⟨hpc, hblocks, -, heq⟩ := h.blocked hmem
    · exact .inl (hold hmem)
    · exact .inr ⟨ha, hpc, hblocks, heq⟩
  · exact .inl (hold (h.blocked hmem))

/-! ### Who waits for the backup -/

/-- What the backup holds of a channel waits for the resumption of that channel. -/
def BackupInv (s : HardwarePullerEmu) : Prop :=
  ∀ c, ∀ e ∈ parkedOn s.log c, s.semaBackup.holds e = true → AwaitsResume s c

/-- A channel with a PREEMPTED MQD keeps one. -/
def KeepsPreempted (m m' : ChannelManager) : Prop :=
  ∀ c, (preemptedMqd m c).isSome = true → (preemptedMqd m' c).isSome = true

theorem preemptedMqd_congr {m m' : ChannelManager} (hcache : m'.mqdCache = m.mqdCache)
    (hreg : m'.registered = m.registered) (hmqd : m'.mqd = m.mqd) (c : ℕ) :
    preemptedMqd m' c = preemptedMqd m c := by
  have hsame : m'.isRegistered c = m.isRegistered c := by
    simp only [ChannelManager.isRegistered, hreg]
  have hget : m'.getMqdForChannel c = m.getMqdForChannel c := by
    rw [getMqdForChannel, getMqdForChannel, hsame, hcache]
  unfold preemptedMqd
  rw [hget]
  cases m.getMqdForChannel c with
  | none => rfl
  | some p => simp only [hmqd]

theorem keepsPreempted_of_same {m m' : ChannelManager} (hcache : m'.mqdCache = m.mqdCache)
    (hreg : m'.registered = m.registered) (hmqd : m'.mqd = m.mqd) : KeepsPreempted m m' :=
  fun c hc => by rwa [preemptedMqd_congr hcache hreg hmqd]

/-- The manager on which CHANNEL_SWITCH selects, after a selection that saves no MQD. -/
theorem selected_mqds {s : HardwarePullerEmu} {m m' : ChannelManager} {r : Option ℕ}
    (hpc : s.pc = .channelSwitch) (hm : s.channelMgr = some m)
    (hnext : m.nextReadyChannel = (r, m')) (hidle : ∀ n ∈ s.selecting, n.IdleVictim) :
    m'.mqdCache = m.mqdCache ∧ m'.registered = m.registered ∧ m'.mqd = m.mqd := by
  have hvictim : m.IdleVictim := hidle m (by simp only [selecting, hm, if_pos hpc]; rfl)
  have hcache := nextReadyChannel_mqdCache m
  have hreg := nextReadyChannel_registered m
  have hmqd := nextReadyChannel_mqd hvictim
  rw [hnext] at hcache hreg hmqd
  exact ⟨hcache, hreg, hmqd⟩

/-- The manager that the checkpoint leaves behind, after a selection that saves no other MQD. -/
theorem checkpoint_mqds {s : HardwarePullerEmu} {m m' : ChannelManager} {r : Option ℕ}
    (hat : s.atCheckpoint = true) (hm : s.channelMgr = some m)
    (hnext : s.checkpointManager (m.yieldChannel s.currentChannelId) = (r, m'))
    (hidle : ∀ n ∈ s.selecting, n.IdleVictim) : m'.mqdCache = (s.savedManager m).mqdCache ∧
      m'.registered = (s.savedManager m).registered ∧ m'.mqd = (s.savedManager m).mqd := by
  have hpc : s.pc ≠ .channelSwitch := by
    intro hpc
    rw [not_atCheckpoint (by rw [hpc]; exact Pc.noConfusion)] at hat
    cases hat
  have hvictim : (s.savedManager m).IdleVictim :=
    hidle _ (by simp only [selecting, hm, if_neg hpc, hat, if_true]; rfl)
  have hnext' : (s.savedManager m).nextReadyChannel = (r, m') := hnext
  have hcache := nextReadyChannel_mqdCache (s.savedManager m)
  have hreg := nextReadyChannel_registered (s.savedManager m)
  have hmqd := nextReadyChannel_mqd hvictim
  rw [hnext'] at hcache hreg hmqd
  exact ⟨hcache, hreg, hmqd⟩

/-- A step that leaves the backup alone and takes no PREEMPTED MQD away. -/
theorem BackupInv.frame {s s' : HardwarePullerEmu} (hinv : BackupInv s) {E : List Event}
    (hE : ∀ e ∈ E, e.isPreemption = false) (hlog : s'.log = E ++ s.log)
    (hback : s'.semaBackup = s.semaBackup)
    (hparked : ∀ c, ∀ e ∈ parkedOn s'.log c, s.semaBackup.holds e = true → e ∈ parkedOn s.log c)
    (hmgr : ∀ m ∈ s.channelMgr, ∃ m' ∈ s'.channelMgr, KeepsPreempted m m') : BackupInv s' := by
  intro c e he hheld
  rw [hback] at hheld
  obtain ⟨⟨target, hlast⟩, m, hm, hmqd⟩ := hinv c e (hparked c e he hheld) hheld
  obtain ⟨m', hm', hkeeps⟩ := hmgr m hm
  refine ⟨⟨target, ?_⟩, m', hm', hkeeps c hmqd⟩
  rw [hlog, newest_append hE, hlast]

/-- A resumption swaps the two states, and leaves nothing of a channel in the backup. -/
theorem BackupInv.resume {s s' : HardwarePullerEmu} (hnone : HoldsNone s.log s.sema)
    (hback : s'.semaBackup = (s.sema.restore s.semaBackup).2)
    (hparked : ∀ c, ∀ e ∈ parkedOn s'.log c, e ∈ parkedOn s.log c) : BackupInv s' := by
  intro c e he hheld
  rw [hback] at hheld
  have hfree : s.sema.holds e = true := hheld
  rw [hnone.of_parked (hparked c e he)] at hfree
  cases hfree

theorem backupInv_checkpoint {s s' : HardwarePullerEmu} {m m' : ChannelManager}
    (hat : s.atCheckpoint = true) (hm : s.channelMgr = some m) {r : Option ℕ}
    (hnext : s.checkpointManager (m.yieldChannel s.currentChannelId) = (r, m'))
    (hidle : ∀ n ∈ s.selecting, n.IdleVictim) (hm' : s'.channelMgr = some m')
    (hback : s'.semaBackup = s.sema)
    (hlast : LastSaved s'.log s.currentChannelId)
    (hsaves : ∀ c ∈ submitters s.log, ∀ e ∈ parkedOn s.log c,
      s.sema.holds e = true → c = s.currentChannelId ∧ s.savesCurrent = true)
    (hparked : ∀ c, ∀ e ∈ parkedOn s'.log c, e ∈ parkedOn s.log c) : BackupInv s' := by
  intro c e he hheld
  rw [hback] at hheld
  have hold := hparked c e he
  obtain ⟨rfl, hsaved⟩ := hsaves c (submitter_of_parked hold) e hold hheld
  simp only [savesCurrent, hm, Option.any_some] at hsaved
  obtain ⟨hcache, hreg, hmqd⟩ := checkpoint_mqds hat hm hnext hidle
  exact ⟨hlast, m', hm', keepsPreempted_of_same hcache hreg hmqd _ hsaved⟩

theorem backupInv_pullerStep {s s' : HardwarePullerEmu} {stale : GpuGpfifoEntry}
    (h : PullerStep s s') (hinv : BackupInv s) (hswitch : switchGuard s (.puller stale))
    (hG : parkedGuard s (.puller stale))
    (hstep : ∀ c, ∀ e ∈ parkedOn s'.log c, e ∈ parkedOn s.log c ∨
      s.pc = .decode ∧ s.blocks = true ∧ e = s.currentEntry) : BackupInv s' := by
  obtain ⟨hcheck, -, -, hidle⟩ := hswitch
  obtain ⟨hsaves, hdecode, hresume⟩ := hG
  have hparked : ∀ c, ∀ e ∈ parkedOn s'.log c, s.semaBackup.holds e = true →
      e ∈ parkedOn s.log c := by
    intro c e he hheld
    obtain hold | ⟨hpc, hblocks, rfl⟩ := hstep c e he
    · exact hold
    · rw [hdecode hpc hblocks] at hheld
      cases hheld
  have holds : s.pc ≠ .decode → ∀ c, ∀ e ∈ parkedOn s'.log c, e ∈ parkedOn s.log c :=
    fun hpc c e he => (hstep c e he).resolve_right fun hdec => hpc hdec.1
  have hself : ∀ m ∈ s.channelMgr, ∃ m' ∈ s.channelMgr, KeepsPreempted m m' :=
    fun m hm => ⟨m, hm, fun _ => id⟩
  have hyields : ∀ m ∈ s.channelMgr, ∃ m' ∈ s.yieldedMgr, KeepsPreempted m m' := by
    intro m hm
    refine ⟨m.yieldChannel s.currentChannelId, ?_, ?_⟩
    · simp only [yieldedMgr, Option.mem_def.mp hm, Option.map_some]
      rfl
    · exact keepsPreempted_of_same (yieldChannel_mqdCache _ _) (yieldChannel_registered _ _)
        (yieldChannel_mqd _ _)
  have hyieldEvents : ∀ e ∈ s.yieldEvents, e.isPreemption = false := by
    intro e he
    rw [mem_yieldEvents he]
    rfl
  have hfinishEvents : ∀ e ∈ s.finishEvents, e.isPreemption = false := by
    intro e he
    obtain ⟨x, y, rfl⟩ | ⟨rfl, -⟩ | rfl | rfl := mem_finishEvents he <;> rfl
  cases h with
  | move | exchange | wait | waited =>
    exact hinv.frame (E := []) (by simp) rfl rfl hparked hself
  | dequeue | fetch | release | blockNext =>
    exact hinv.frame (E := [_]) (by simp [Event.isPreemption]) rfl rfl hparked hself
  | noChannel hpc hm hnext =>
    obtain ⟨hcache, hreg, hmqd⟩ := selected_mqds hpc hm hnext hidle
    refine hinv.frame (E := []) (by simp) rfl rfl hparked fun n hn => ⟨_, rfl, ?_⟩
    obtain rfl := Option.some.inj (hm.symm.trans hn)
    exact keepsPreempted_of_same hcache hreg hmqd
  | select hpc hm hnext =>
    obtain ⟨hcache, hreg, hmqd⟩ := selected_mqds hpc hm hnext hidle
    refine hinv.frame (E := [_]) (by simp [Event.isPreemption]) rfl rfl hparked
      fun n hn => ⟨_, rfl, ?_⟩
    obtain rfl := Option.some.inj (hm.symm.trans hn)
    exact keepsPreempted_of_same hcache hreg hmqd
  | resume hpc hm hnext hp =>
    refine .resume (hresume ?_) rfl (holds (by rw [hpc]; exact Pc.noConfusion))
    rw [HardwarePullerEmu.resumes, selection_eq hpc hm hnext]
    simp only [hp, Option.map_some, Option.isSome_some]
  | blockLast =>
    refine hinv.frame (E := s.yieldEvents ++ [.blocked s.serial s.source s.currentEntry])
      (fun e he => ?_) (by simp) rfl hparked hyields
    obtain hy | hb := List.mem_append.mp he
    · exact hyieldEvents e hy
    · rw [List.mem_singleton.mp hb]
      rfl
  | dispatch hpc hexec =>
    rename_i launches failed d
    refine hinv.frame (E := s.dispatchEvents launches failed) (fun e he => ?_) rfl rfl hparked
      hself
    obtain ⟨rfl, -⟩ | ⟨p, rfl⟩ | ⟨q, i, x, rfl⟩ | rfl := mem_dispatchEvents he <;> rfl
  | completeNext => exact hinv.frame hfinishEvents rfl rfl hparked hself
  | completeLast =>
    refine hinv.frame (E := s.yieldEvents ++ s.finishEvents) (fun e he => ?_) (by simp) rfl hparked
      hyields
    obtain hy | hf := List.mem_append.mp he
    · exact hyieldEvents e hy
    · exact hfinishEvents e hf
  | checkpointDirect hpc hidx hpre hm =>
    have hsel := hcheck ((atCheckpoint_eq hpc hidx).trans hpre)
    simp [checkpointSelection, hm] at hsel
  | checkpointNone hpc hidx hpre hm hnext =>
    have hsel := hcheck ((atCheckpoint_eq hpc hidx).trans hpre)
    rw [checkpointSelection_eq hm hnext] at hsel
    cases hsel
  | checkpointLoad hpc hidx hpre hm hnext =>
    have hat := (atCheckpoint_eq hpc hidx).trans hpre
    refine backupInv_checkpoint hat hm hnext hidle rfl rfl ⟨s.preempt.target, ?_⟩ (hsaves hat)
      (holds (by rw [hpc]; exact Pc.noConfusion))
    rw [newest_cons_of_neg rfl, newest_cons_of_pos rfl]

/-- Another party leaves the backup alone, and the driver's configuration keeps it reachable. -/
theorem backupInv_envStep {s s' : HardwarePullerEmu} {a : Action} (h : EnvStep s a s')
    (hinv : BackupInv s) (hG : parkedGuard s a)
    (hparked : ∀ c, ∀ e ∈ parkedOn s'.log c, e ∈ parkedOn s.log c) : BackupInv s' := by
  have hself : ∀ m ∈ s.channelMgr, ∃ m' ∈ s.channelMgr, KeepsPreempted m m' :=
    fun m hm => ⟨m, hm, fun _ => id⟩
  cases h with
  | accept hm =>
    refine hinv.frame (E := [_]) (by simp [Event.isPreemption]) rfl rfl
      (fun c e he _ => hparked c e he) fun n hn => ⟨_, rfl, ?_⟩
    obtain rfl := Option.some.inj (hm.symm.trans hn)
    exact keepsPreempted_of_same (submitBatch_mqdCache _ _ _) (submitBatch_registered _ _ _)
      (submitBatch_mqd _ _ _)
  | direct =>
    exact hinv.frame (E := [_, _]) (by simp [Event.isPreemption]) rfl rfl
      (fun c e he _ => hparked c e he) hself
  | configure hm ha =>
    subst ha
    intro c e he hheld
    obtain ⟨hlast, n, hn, hmqd⟩ := hinv c e he hheld
    obtain rfl := Option.some.inj (hm.symm.trans hn)
    obtain hkeeps | hnone := hG _ hm c (submitter_of_parked he) ⟨hlast, _, hn, hmqd⟩
    · exact ⟨hlast, _, rfl, hkeeps⟩
    · rw [hnone.of_parked he] at hheld
      cases hheld
  | quiet queues hal host preempt hsema hevs =>
    refine hinv.frame (fun e he => ?_) rfl rfl (fun c e he _ => hparked c e he) hself
    have hprod := hevs e he
    cases e <;> first | rfl | cases hprod

/-- **Step lemma.**  Under the conditions what is saved waits for the resumption of its channel. -/
theorem backupInv_step (s : HardwarePullerEmu) (a : Action) (hknown : KnownSubmissions s)
    (hinv : BackupInv s) (hswitch : switchGuard s a) (hG : parkedGuard s a) :
    BackupInv (step s a) := by
  obtain ⟨ha, h⟩ | ⟨ha, h⟩ := step_cases s a
  · cases a <;> simp only [Action.isPuller, Bool.false_eq_true] at ha
    exact backupInv_pullerStep h hinv hswitch hG fun c e he =>
      (parkedOn_step hknown he).imp_right And.right
  · refine backupInv_envStep h hinv hG fun c e he => (parkedOn_step hknown he).resolve_right ?_
    rintro ⟨hpull, -⟩
    rw [ha] at hpull
    cases hpull

/-- **Run lemma.**  Along guarded runs the backup is kept for the channel it was saved for. -/
theorem backupInv_run {cfg : Config} {as : List Action}
    (hG : Guarded step (fun s a => switchGuard s a ∧ parkedGuard s a) (init cfg) as) :
    BackupInv (after cfg as) := by
  have hrun : BackupInv (after cfg as) ∧ KnownSubmissions (after cfg as) ∧
      Bookkeeping (after cfg as) :=
    run_of_inductive (I := fun s => BackupInv s ∧ KnownSubmissions s ∧ Bookkeeping s)
      (fun s a hinv hG => ⟨backupInv_step s a hinv.2.1 hinv.1 hG.1 hG.2,
        knownSubmissions_step s a hinv.2.2 hinv.2.1, bookkeeping_step s a hinv.2.2⟩)
      ⟨fun c e he => absurd he List.not_mem_nil, knownSubmissions_init cfg,
        bookkeeping_init cfg⟩ hG
  exact hrun.1

/-! ### Equal outcomes -/

theorem ofChannel_filter (log : List Event) (c : ℕ) (src : Source) :
    src.ofChannel (log.filter fun e => !e.isPreemption) c = src.ofChannel log c := by
  cases src with
  | ring q => rfl
  | batch id index addr =>
    simp only [Source.ofChannel, List.any_filter]
    congr 1
    funext e
    cases e <;> simp [Event.isPreemption, Event.submits]

/-- Neither executed nor parked entries look at the events of saving and resuming. -/
theorem entriesOn_filter (log : List Event) (c : ℕ) :
    executedOn (log.filter fun e => !e.isPreemption) c = executedOn log c ∧
      parkedOn (log.filter fun e => !e.isPreemption) c = parkedOn log c := by
  have hexecuted : Event.executedOn? (log.filter fun e => !e.isPreemption) c =
      Event.executedOn? log c := by
    funext e
    cases e <;> simp only [Event.executedOn?, ofChannel_filter]
  have hparked : Event.parkedOn? (log.filter fun e => !e.isPreemption) c =
      Event.parkedOn? log c := by
    funext e
    cases e <;> simp only [Event.parkedOn?, ofChannel_filter]
  unfold executedOn parkedOn
  rw [hexecuted, hparked, List.filterMap_filter, List.filterMap_filter]
  constructor
  · congr 1
    funext e
    cases e <;> rfl
  · congr 1
    funext e
    cases e <;> rfl

/-- Without requests no channel is ever saved. -/
theorem not_awaitsResume_calmed {s : HardwarePullerEmu} {o : Calm}
    (hlog : o.log = s.log.filter fun e => !e.isPreemption) (c : ℕ) :
    ¬ AwaitsResume (s.calmed o) c := by
  rintro ⟨⟨target, hlast⟩, -⟩
  have hmem := List.mem_of_find?_eq_some hlast
  have hold : (s.calmed o).log = o.log := rfl
  rw [hold, hlog, List.mem_filter] at hmem
  cases hmem.2

/-- For a channel that does not await its resumption, the backup has none of its entries. -/
theorem BackupInv.holds_false {s : HardwarePullerEmu} (hinv : BackupInv s) {c : ℕ}
    (hawaits : ¬ AwaitsResume s c) {e : GpuGpfifoEntry} (he : e ∈ parkedOn s.log c) :
    s.semaBackup.holds e = false := by
  by_contra hheld
  rw [Bool.not_eq_false] at hheld
  exact hawaits (hinv c e he hheld)

theorem pendingOn_of_mirror {s : HardwarePullerEmu} {o : Calm} (hm : Mirror s o)
    (hinv : BackupInv s) (c : ℕ) : (pendingOn s c).Perm (pendingOn (s.calmed o) c) := by
  have hlog : parkedOn (s.calmed o).log c = parkedOn s.log c := by
    rw [← (entriesOn_filter s.log c).2, ← hm.log]
    rfl
  have hone : (s.calmed o).sema = o.sema := rfl
  have hall := (hm.held.pending.filter fun e => decide (e ∈ parkedOn s.log c)).symm
  simp only [pendingOn, hlog, if_neg (not_awaitsResume_calmed hm.log c), hone, List.nil_append]
  by_cases hawaits : AwaitsResume s c
  · simpa only [if_pos hawaits] using hall
  · have hnone : (s.semaBackup.pendingEntries.filter fun e => decide (e ∈ parkedOn s.log c)) =
        [] := by
      refine List.filter_eq_nil_iff.mpr fun e he hpark => ?_
      have hfree := hinv.holds_false hawaits (of_decide_eq_true hpark)
      simp [ChannelSemaphoreState.holds, he] at hfree
    rw [List.filter_append, hnone, List.nil_append] at hall
    simpa only [if_neg hawaits, List.nil_append] using hall

theorem barrierFor_of_mirror {s : HardwarePullerEmu} {o : Calm} (hm : Mirror s o)
    (hinv : BackupInv s) {c : ℕ} {e : GpuGpfifoEntry} (he : e ∈ parkedOn s.log c)
    (hop : e.method ≠ gpuOpSemWait) :
    barrierFor s c e.semaphoreVa = barrierFor (s.calmed o) c e.semaphoreVa := by
  have hone : (s.calmed o).sema = o.sema := rfl
  simp only [barrierFor, if_neg (not_awaitsResume_calmed hm.log c), hone, Option.or_none]
  rw [hm.held.barriers]
  by_cases hawaits : AwaitsResume s c
  · rw [if_pos hawaits]
  · have hfree := hinv.holds_false hawaits he
    have hnone : s.semaBackup.barriers e.semaphoreVa = none := by
      simp only [ChannelSemaphoreState.holds, Bool.or_eq_false_iff] at hfree
      simpa [hop] using hfree.2
    rw [if_neg hawaits, hnone]

/-- Related states have the same outcome. -/
theorem sameOutcome_of_tracks {s t : HardwarePullerEmu} (h : Tracks s t) (hinv : BackupInv s) :
    SameOutcome s t := by
  obtain ⟨o, rfl, hm⟩ := h
  have hlog : (s.calmed o).log = s.log.filter fun e => !e.isPreemption := hm.log
  refine ⟨fun c => ?_, fun c => ?_, pendingOn_of_mirror hm hinv,
    fun c e he hop => barrierFor_of_mirror hm hinv he hop, fun id f => ?_⟩
  · rw [hlog, (entriesOn_filter s.log c).1]
  · rw [hlog, (entriesOn_filter s.log c).2]
  · rw [hlog]
    simp [List.mem_filter, Event.isPreemption]

theorem atRest_of_tracks {s t : HardwarePullerEmu} (h : Tracks s t) (hrest : AtRest s) :
    AtRest t := by
  obtain ⟨o, rfl, hm⟩ := h
  obtain ⟨f, hmgr, -⟩ := hm.mgr
  obtain ⟨hpc, hring, hpoll, hbusy⟩ := hrest
  refine ⟨hpc, hring, hpoll, fun c hc => ?_⟩
  have hidle := hbusy c hc
  rwa [busy_eq hmgr] at hidle

end UsrLinuxEmu.GpuDriver
