import UsrLinuxEmu.GpuDriver.PreemptionOutcome

/-!
# The preemption round trip

A channel is preempted by a checkpoint, which saves its MQD and the semaphore state of the puller,
and resumed by a later CHANNEL_SWITCH, which loads the saved context.

* `noteSaved` / `ResumesOwn` — a ghost state with the context each channel had when it was last
  preempted, and the condition that a resumption gives back that context;
* `FenceThawed` — no fence of a channel is signaled while the channel is preempted;
* `RoundTripGuard` — the conditions on one step;
* `round_trip` — these, and the same outcome as without requests, along guarded runs.
-/

namespace UsrLinuxEmu.GpuDriver

open UsrLinuxEmu.Transition ChannelManager HardwarePullerEmu

/-! ### The property: a channel's own saved state -/

/-- What a channel has to be resumed with: the batch context of its MQD and the semaphore state of
the puller, as they were when it was preempted. -/
structure SavedContext where
  mqd : Mqd
  sema : ChannelSemaphoreState

def contextToSave (s : HardwarePullerEmu) : Option SavedContext :=
  match s.channelMgr with
  | none => none
  | some m => (m.getMqdForChannel s.currentChannelId).map fun p => ⟨m.mqd p, s.sema⟩

/-- The ghost state: a checkpoint notes the context of the channel it preempts. -/
def noteSaved (saved : ℕ → Option SavedContext) (s : HardwarePullerEmu) (a : Action) :
    ℕ → Option SavedContext :=
  if a.isPuller && s.atCheckpoint then
    Function.update saved s.currentChannelId (contextToSave s)
  else saved

/-- The batch context of an MQD as registers. -/
def Mqd.contextRegs (mqd : Mqd) (fence : UInt64) : GpfifoRegs :=
  ⟨mqd.gpfifoAddr, mqd.currentIndex.toNat, mqd.entryCount.toNat, fence⟩

/-- A resumed channel becomes the current one with the context it had when it was preempted. -/
def ResumesOwn (x : (ℕ → Option SavedContext) × HardwarePullerEmu) (a : Action) : Prop :=
  a.isPuller = true → ∀ c ∈ x.2.resumes, ∃ k, x.1 c = some k ∧
    (step x.2 a).currentChannelId = c ∧
    (step x.2 a).regs = k.mqd.contextRegs (step x.2 a).regs.fence ∧ (step x.2 a).sema = k.sema

/-! ### The property: frozen fences -/

/-- Channel `c` is preempted, or its batch is loaded. -/
def Event.turnOf (c : ℕ) : Event → Bool
  | .preempted d _ => d == c
  | .loaded l => l.channel == c
  | _ => false

/-- Channel `c` has not been preempted since it was last loaded. -/
def NotFrozen (log : List Event) (c : ℕ) : Prop :=
  ∀ target, newest (Event.turnOf c) log ≠ some (.preempted c target)

/-- A signaled fence belongs to a channel that is not frozen. -/
def FenceThawed (past : List Event) : Event → Prop
  | .signaled id _ => ∀ c b, .submitted id c b ∈ past → NotFrozen past c
  | _ => True

/-- **The round trip.** -/
structure RoundTrip (cfg : Config) (as : List Action) : Prop where
  sameInputs : (requestFree (init cfg) as).filter (fun a => !a.isPuller) =
    as.filter fun a => !a.isPuller && !a.isRequest
  outcome : AtRest (after cfg as) → AtRest (after cfg (requestFree (init cfg) as)) ∧
    SameOutcome (after cfg as) (after cfg (requestFree (init cfg) as))
  ownState : Guarded (observed step noteSaved) ResumesOwn (fun _ => none, init cfg) as
  frozen : Causal FenceThawed (after cfg as).log

/-! ### The condition -/

/-- The semaphore state in the backup is that of the channel resumed, or there is none. -/
def ownBackup (s : HardwarePullerEmu) : Action → Prop
  | .puller _ => ∀ c ∈ s.resumes, LastSaved s.log c ∨ s.semaBackup = .empty
  | _ => True

/-- A channel is given an MQD that is not PREEMPTED and that no other channel has. -/
def ownMqd (s : HardwarePullerEmu) : Action → Prop
  | .configure (.mqdPointer c (some p)) => ∀ m ∈ s.channelMgr,
      (m.mqd p).state ≠ mqdStatePreempted ∧ ∀ d < maxChannels, m.mqdCache d = some p → d = c
  | _ => True

instance decidableOwnMqd (s : HardwarePullerEmu) : ∀ a, Decidable (ownMqd s a)
  | .configure (.mqdPointer _ (some _)) => inferInstanceAs (Decidable (∀ m ∈ s.channelMgr, _ ∧ _))
  | .configure (.mqdPointer _ none) | .configure (.register ..) | .configure (.contextType ..)
  | .configure (.mqdWrite ..) | .puller _ | .submitBatch _ | .channelSubmit .. | .triggerPreempt _
  | .signalBarrier _ | .writeEntry .. | .advanceWriteIdx _ | .ringDoorbell _ | .writeDoorbell _
  | .onDoorbell | .memWrite .. | .hostWrite _ => inferInstanceAs (Decidable True)

structure RoundTripGuard (s : HardwarePullerEmu) (a : Action) : Prop where
  switch : switchGuard s a
  free : freeBackup s a
  backup : ownBackup s a
  parked : parkedGuard s a
  mqd : ownMqd s a

/-! ### Frozen fences -/

/-- The events that say which channel has its turn, and the signals. -/
def Event.isTurnOrSignal : Event → Bool
  | .preempted .. | .loaded _ | .signaled .. => true
  | _ => false

structure FrozenInv (s : HardwarePullerEmu) : Prop where
  thawed : Causal FenceThawed s.log
  cur : s.sema.frozen = false
  saved : s.semaBackup.frozen = false
  fenced : s.regs.fence ≠ 0 →
    (∃ b, .submitted s.loaded.id s.loaded.channel b ∈ s.log) ∧ NotFrozen s.log s.loaded.channel

theorem fenceThawed_of_not_signal {e : Event} (h : e.isTurnOrSignal = false)
    (past : List Event) : FenceThawed past e := by
  cases e <;> trivial

theorem notFrozen_append {new old : List Event} {c : ℕ}
    (hnew : ∀ e ∈ new, e.turnOf c = false) (h : NotFrozen old c) : NotFrozen (new ++ old) c := by
  intro target
  rw [newest_append hnew]
  exact h target

theorem turnOf_of_not_turn {e : Event} (h : e.isTurnOrSignal = false) (c : ℕ) :
    e.turnOf c = false := by
  cases e <;> first | rfl | cases h

/-- The channel of the newest load is not frozen. -/
theorem notFrozen_loaded (l : LoadedBatch) (past : List Event) :
    NotFrozen (.loaded l :: past) l.channel := by
  intro target
  rw [newest_cons_of_pos (by simp [Event.turnOf])]
  exact fun h => Event.noConfusion (Option.some.inj h)

/-- A step that neither loads, nor preempts, nor signals. -/
theorem FrozenInv.frame {s s' : HardwarePullerEmu} (hinv : FrozenInv s) {E : List Event}
    (hE : ∀ e ∈ E, e.isTurnOrSignal = false) (hlog : s'.log = E ++ s.log)
    (hcur : s'.sema.frozen = false) (hsaved : s'.semaBackup.frozen = false)
    (hfence : s'.regs.fence = s.regs.fence ∨ s'.regs.fence = 0) (hload : s'.loaded = s.loaded) :
    FrozenInv s' := by
  refine ⟨?_, hcur, hsaved, fun hf => ?_⟩
  · rw [hlog]
    exact causal_append_of_forall FenceThawed
      (fun e he => fenceThawed_of_not_signal (hE e he)) hinv.thawed
  · obtain hsame | hzero := hfence
    · rw [hsame] at hf
      obtain ⟨⟨b, hb⟩, hthaw⟩ := hinv.fenced hf
      rw [hlog, hload]
      exact ⟨⟨b, List.mem_append_right _ hb⟩,
        notFrozen_append (fun e he => turnOf_of_not_turn (hE e he) _) hthaw⟩
    · exact absurd hzero hf

/-- COMPLETE signals the fence of a channel that is not frozen. -/
theorem FrozenInv.finish {s : HardwarePullerEmu} (hinv : FrozenInv s)
    (hnum : SubmissionsNumbered s) : Causal FenceThawed (s.finishEvents ++ s.log) ∧
      (s.finishRegs.fence ≠ 0 →
        (∃ b, .submitted s.loaded.id s.loaded.channel b ∈ s.finishEvents ++ s.log) ∧
          NotFrozen (s.finishEvents ++ s.log) s.loaded.channel) := by
  have hturn : ∀ e ∈ s.finishEvents, e.turnOf s.loaded.channel = false := by
    intro e he
    obtain ⟨x, y, rfl⟩ | ⟨rfl, -⟩ | rfl | rfl := mem_finishEvents he <;> rfl
  constructor
  · refine causal_append FenceThawed s.finishEvents s.log (fun after e before heq => ?_) hinv.thawed
    have he : e ∈ s.finishEvents := by simp [heq]
    obtain ⟨x, y, rfl⟩ | ⟨rfl, hdue⟩ | rfl | rfl := mem_finishEvents he
    · trivial
    · intro c b hb
      have hfence : s.regs.fence ≠ 0 := by
        simp only [fenceDue, Bool.and_eq_true, bne_iff_ne, ne_eq] at hdue
        exact hdue.1.1
      obtain ⟨⟨b', hb'⟩, hthaw⟩ := hinv.fenced hfence
      have hold : .submitted s.loaded.id c b ∈ s.log := by
        obtain hnew | hold := List.mem_append.mp hb
        · have hmem : .submitted s.loaded.id c b ∈ s.finishEvents := by simp [heq, hnew]
          obtain ⟨x, y, h⟩ | ⟨h, -⟩ | h | h := mem_finishEvents hmem <;> cases h
        · exact hold
      obtain ⟨rfl, -⟩ := hnum.unique _ _ _ _ _ hold hb'
      exact notFrozen_append (fun e he => hturn e (by simp [heq, he])) hthaw
    · trivial
    · trivial
  · intro hf
    have hfence : s.regs.fence ≠ 0 := by
      intro h0
      simp [finishRegs, h0] at hf
    obtain ⟨⟨b, hb⟩, hthaw⟩ := hinv.fenced hfence
    exact ⟨⟨b, List.mem_append_right _ hb⟩, notFrozen_append hturn hthaw⟩

/-- At the end of a batch no fence is left: it was due. -/
theorem FrozenInv.finishRegs_fence {s : HardwarePullerEmu} (hinv : FrozenInv s)
    (hidx : s.regs.total ≤ s.regs.index + 1) : s.finishRegs.fence = 0 := by
  have hthaw := ChannelSemaphoreState.isFenceFrozen_of_not_frozen hinv.cur s.regs.fence
  by_cases h0 : s.regs.fence = 0
  · simp [finishRegs, h0]
  · simp [finishRegs, fenceDue, h0, hidx, hthaw]

/-- A state right after a load. -/
theorem FrozenInv.load {s : HardwarePullerEmu} {past : List Event}
    (hlog : s.log = .loaded s.loaded :: past) (hthawed : Causal FenceThawed past)
    (hcur : s.sema.frozen = false) (hsaved : s.semaBackup.frozen = false)
    (hb : ∃ b, .submitted s.loaded.id s.loaded.channel b ∈ s.log) : FrozenInv s where
  thawed := by
    rw [hlog]
    exact ⟨trivial, hthawed⟩
  cur := hcur
  saved := hsaved
  fenced := fun _ => ⟨hb, by rw [hlog]; exact notFrozen_loaded _ _⟩

/-- The semaphore operations of DECODE freeze nothing. -/
theorem processSemOp_frozen {s : HardwarePullerEmu} {sema : ChannelSemaphoreState} {b : Bool}
    (hop : s.currentEntry.isSemOp = true) (h : s.processSemOp = (b, { s with sema := sema })) :
    sema.frozen = s.sema.frozen := by
  have hfrozen := semOp_frozen s.sema s.device.hal s.currentEntry
  rwa [semOp_of_processSemOp hop h] at hfrozen

theorem frozenInv_pullerStep {s s' : HardwarePullerEmu} (h : PullerStep s s')
    (hinv : FrozenInv s) (hbook : Bookkeeping s) (hbook' : Bookkeeping s') : FrozenInv s' := by
  have hyields : ∀ e ∈ s.yieldEvents, e.isTurnOrSignal = false := by
    intro e he
    rw [mem_yieldEvents he]
    rfl
  cases h with
  | move | noChannel | exchange | wait | waited =>
    exact hinv.frame (E := []) (by simp) rfl hinv.cur hinv.saved (.inl rfl) rfl
  | dequeue | fetch | release =>
    exact hinv.frame (E := [_]) (by simp [Event.isTurnOrSignal]) rfl hinv.cur hinv.saved
      (.inl rfl) rfl
  | select hpc hm hnext hmqd =>
    exact .load rfl hinv.thawed hinv.cur hinv.saved
      ⟨_, hbook'.slots _ rfl _ (nextReadyChannel_inFlight hnext)⟩
  | resume hpc hm hnext hmqd hregs =>
    rename_i m m' c p regs
    refine .load rfl ⟨trivial, hinv.thawed⟩ rfl hinv.saved ⟨(m'.channels c).batch, ?_⟩
    exact hbook'.slots _ rfl _ (nextReadyChannel_inFlight hnext :
      (m'.channels c).batchInFlight = true)
  | blockNext hpc hop hsema hidx =>
    exact hinv.frame (E := [_]) (by simp [Event.isTurnOrSignal]) rfl
      ((processSemOp_frozen hop hsema).trans hinv.cur) hinv.saved (.inl rfl) rfl
  | blockLast hpc hop hsema hidx =>
    refine hinv.frame (E := s.yieldEvents ++ [.blocked s.serial s.source s.currentEntry])
      (fun e he => ?_) (by simp) ((processSemOp_frozen hop hsema).trans hinv.cur) hinv.saved
      (.inl rfl) rfl
    obtain hy | hb := List.mem_append.mp he
    · exact hyields e hy
    · rw [List.mem_singleton.mp hb]
      rfl
  | dispatch hpc hexec =>
    rename_i launches failed d
    refine hinv.frame (E := s.dispatchEvents launches failed) (fun e he => ?_) rfl hinv.cur
      hinv.saved ?_ rfl
    · obtain ⟨rfl, -⟩ | ⟨p, rfl⟩ | ⟨q, i, x, rfl⟩ | rfl := mem_dispatchEvents he <;> rfl
    · cases failed
      · exact .inl rfl
      · exact .inr rfl
  | completeNext hpc hidx =>
    obtain ⟨hthaw, hfence⟩ := hinv.finish hbook.numbered
    exact ⟨hthaw, hinv.cur, hinv.saved, hfence⟩
  | completeLast hpc hidx hpre =>
    obtain ⟨hthaw, -⟩ := hinv.finish hbook.numbered
    refine ⟨causal_append_of_forall FenceThawed
      (fun e he => fenceThawed_of_not_signal (hyields e he)) hthaw, hinv.cur, hinv.saved, ?_⟩
    exact fun hf => absurd (hinv.finishRegs_fence hidx) hf
  | checkpointDirect hpc hidx hpre hm =>
    exact ⟨(hinv.finish hbook.numbered).1, rfl, hinv.saved,
      fun hf => absurd (hinv.finishRegs_fence hidx) hf⟩
  | checkpointNone hpc hidx hpre hm hnext =>
    exact ⟨⟨trivial, trivial, (hinv.finish hbook.numbered).1⟩, rfl, hinv.cur,
      fun hf => absurd (hinv.finishRegs_fence hidx) hf⟩
  | checkpointLoad hpc hidx hpre hm hnext hregs =>
    exact .load rfl ⟨trivial, trivial, (hinv.finish hbook.numbered).1⟩ rfl hinv.cur
      ⟨_, hbook'.slots _ rfl _ (nextReadyChannel_inFlight hnext)⟩

theorem frozenInv_step (s : HardwarePullerEmu) (a : Action) (hinv : FrozenInv s)
    (hbook : Bookkeeping s) : FrozenInv (step s a) := by
  have hbook' := bookkeeping_step s a hbook
  obtain ⟨-, h⟩ | ⟨-, h⟩ := step_cases s a
  · exact frozenInv_pullerStep h hinv hbook hbook'
  · generalize step s a = s' at h
    cases h with
    | accept hm ha hreg flag =>
      exact hinv.frame (E := [_]) (by simp [Event.isTurnOrSignal]) rfl hinv.cur hinv.saved
        (.inl rfl) rfl
    | direct hm ha w =>
      rename_i b
      refine .load rfl ⟨trivial, hinv.thawed⟩ hinv.cur hinv.saved ⟨b, ?_⟩
      exact List.mem_cons_of_mem _ List.mem_cons_self
    | configure =>
      exact hinv.frame (E := []) (by simp) rfl hinv.cur hinv.saved (.inl rfl) rfl
    | quiet queues hal host preempt hsema hevs =>
      refine hinv.frame (fun e he => ?_) rfl ?_ hinv.saved (.inl rfl) rfl
      · have hprod := hevs e he
        cases e <;> first | rfl | cases hprod
      · obtain rfl | ⟨i, rfl⟩ := hsema
        · exact hinv.cur
        · exact (ChannelSemaphoreState.signalBarrier_frozen _ i).trans hinv.cur

/-- **Frozen fences.**  In every run, whatever is requested, a fence is signaled only while its
channel is not preempted. -/
theorem fenceThawed_run (cfg : Config) (as : List Action) : FrozenInv (after cfg as) := by
  have hrun : FrozenInv (after cfg as) ∧ Bookkeeping (after cfg as) :=
    run_of_invariant (I := fun s => FrozenInv s ∧ Bookkeeping s)
      (fun s a h => ⟨frozenInv_step s a h.1 h.2, bookkeeping_step s a h.2⟩) as
      ⟨⟨trivial, rfl, rfl, fun hf => absurd rfl hf⟩, bookkeeping_init cfg⟩
  exact hrun.1

/-! ### A channel's own saved state -/

/-- The MQD holds the context of `k`, in use and saved. -/
structure SavedAs (q k : Mqd) : Prop where
  addr : q.gpfifoAddr = k.gpfifoAddr ∧ q.savedGpfifoAddr = k.gpfifoAddr
  index : q.currentIndex = k.currentIndex ∧ q.savedIndex = k.currentIndex
  entries : q.entryCount = k.entryCount ∧ q.savedEntries = k.entryCount

/-- `mqd_state_preempt` saves the context, or finds it saved. -/
theorem savedAs_preempt {q : Mqd} (h : q.preempt.state = mqdStatePreempted)
    (hold : q.state = mqdStatePreempted → SavedAs q q) : SavedAs q.preempt q := by
  unfold Mqd.preempt at h ⊢
  split_ifs at h ⊢ with h0 h2
  · exact hold h
  · exact hold h2
  · exact ⟨⟨rfl, rfl⟩, ⟨rfl, rfl⟩, rfl, rfl⟩

theorem SavedAs.self {q k : Mqd} (h : SavedAs q k) : SavedAs q q :=
  ⟨⟨rfl, h.addr.2.trans h.addr.1.symm⟩, ⟨rfl, h.index.2.trans h.index.1.symm⟩,
    rfl, h.entries.2.trans h.entries.1.symm⟩

theorem SavedAs.mqdRegs {q k : Mqd} (h : SavedAs q k) (hq : q.state = mqdStatePreempted)
    (fence : UInt64) : HardwarePullerEmu.mqdRegs q fence = k.contextRegs fence := by
  simp [HardwarePullerEmu.mqdRegs, Mqd.resume, hq, Mqd.contextRegs, h.addr.2, h.index.2,
    h.entries.2]

/-- Every channel has its own MQD.  A PREEMPTED one holds the context noted for its channel, and
the semaphore state noted for the channel is empty or is the one in the backup. -/
structure OwnInv (x : (ℕ → Option SavedContext) × HardwarePullerEmu) : Prop where
  registered : ∀ m, x.2.channelMgr = some m → ∀ c p, m.mqdCache c = some p →
    m.isRegistered c = true
  unique : ∀ m, x.2.channelMgr = some m → ∀ c d p, m.mqdCache c = some p →
    m.mqdCache d = some p → c = d
  saved : ∀ m, x.2.channelMgr = some m → ∀ c p, m.mqdCache c = some p →
    (m.mqd p).state = mqdStatePreempted → ∃ k, x.1 c = some k ∧ SavedAs (m.mqd p) k.mqd ∧
      (k.sema = .empty ∨ LastSaved x.2.log c)
  backup : ∀ c k, LastSaved x.2.log c → x.1 c = some k → k.sema = x.2.semaBackup

theorem isRegistered_mono {m m' : ChannelManager}
    (h : ∀ c, m.registered c = true → m'.registered c = true) {c : ℕ}
    (hc : m.isRegistered c = true) : m'.isRegistered c = true := by
  simp only [ChannelManager.isRegistered, Bool.and_eq_true] at hc ⊢
  exact ⟨hc.1, h c hc.2⟩

/-- A step that leaves the cache, the PREEMPTED MQDs and the backup alone. -/
theorem OwnInv.frame {g : ℕ → Option SavedContext} {s s' : HardwarePullerEmu}
    (hinv : OwnInv (g, s)) {E : List Event} (hE : ∀ e ∈ E, e.isPreemption = false)
    (hlog : s'.log = E ++ s.log) (hback : s'.semaBackup = s.semaBackup)
    (hmgr : ∀ m', s'.channelMgr = some m' → ∃ m, s.channelMgr = some m ∧
      m'.mqdCache = m.mqdCache ∧ (∀ c, m.registered c = true → m'.registered c = true) ∧
      ∀ p, (m'.mqd p).state = mqdStatePreempted → m'.mqd p = m.mqd p) : OwnInv (g, s') := by
  have hlast : ∀ c, LastSaved s'.log c ↔ LastSaved s.log c := fun c => by
    simp only [LastSaved, hlog, newest_append hE]
  refine ⟨fun m' hm' c p hc => ?_, fun m' hm' c d p hc hd => ?_, fun m' hm' c p hc hp => ?_,
    fun c k hc hk => ?_⟩
  · obtain ⟨m, hm, hcache, hreg, -⟩ := hmgr m' hm'
    exact isRegistered_mono hreg (hinv.registered m hm c p (hcache ▸ hc))
  · obtain ⟨m, hm, hcache, -, -⟩ := hmgr m' hm'
    exact hinv.unique m hm c d p (hcache ▸ hc) (hcache ▸ hd)
  · obtain ⟨m, hm, hcache, -, hmqd⟩ := hmgr m' hm'
    have hsame := hmqd p hp
    rw [hsame] at hp ⊢
    obtain ⟨k, hk, hsaved, hsema⟩ := hinv.saved m hm c p (hcache ▸ hc) hp
    exact ⟨k, hk, hsaved, hsema.imp_right (hlast c).mpr⟩
  · rw [hback]
    exact hinv.backup c k ((hlast c).mp hc) hk

/-- A resumption takes the PREEMPTED MQD and the backup. -/
theorem OwnInv.resume {g : ℕ → Option SavedContext} {s s' : HardwarePullerEmu}
    {m m' : ChannelManager} {c p : ℕ} {r : GpfifoRegs} (hinv : OwnInv (g, s))
    (hm : s.channelMgr = some m) (hcache : m'.mqdCache = m.mqdCache)
    (hreg : m'.registered = m.registered) (hmqd : m'.mqd = m.mqd)
    (hp : preemptedMqd m' c = some p) (hguard : LastSaved s.log c ∨ s.semaBackup = .empty)
    (hm' : s'.channelMgr = some (m'.updateMqd p Mqd.resume))
    (hlog : newest Event.isPreemption s'.log = some (.resumed c r)) : OwnInv (g, s') := by
  obtain ⟨hget, hstate⟩ := state_of_preemptedMqd hp
  have hnone : ∀ d, ¬ LastSaved s'.log d := by
    rintro d ⟨target, hd⟩
    rw [hlog] at hd
    cases Option.some.inj hd
  have hcp : m.mqdCache c = some p := by
    unfold getMqdForChannel at hget
    split_ifs at hget
    rwa [hcache] at hget
  refine ⟨fun n hn d q hd => ?_, fun n hn d e q hd he => ?_, fun n hn d q hd hq => ?_,
    fun d k hd _ => absurd hd (hnone d)⟩
  · obtain rfl : n = _ := Option.some.inj (hn.symm.trans hm')
    refine isRegistered_mono (fun d hd => ?_) (hinv.registered m hm d q (hcache ▸ hd))
    rw [← hreg] at hd
    exact hd
  · obtain rfl : n = _ := Option.some.inj (hn.symm.trans hm')
    exact hinv.unique m hm d e q (hcache ▸ hd) (hcache ▸ he)
  · obtain rfl : n = _ := Option.some.inj (hn.symm.trans hm')
    have hdq : m.mqdCache d = some q := hcache ▸ hd
    have hqp : q ≠ p := by
      rintro rfl
      simp only [updateMqd, Function.update_self] at hq
      simp [Mqd.resume, hstate, mqdStateActive, mqdStatePreempted] at hq
    have hdc : d ≠ c := by
      rintro rfl
      exact hqp (Option.some.inj (hdq.symm.trans hcp))
    simp only [updateMqd, Function.update_of_ne hqp, hmqd] at hq ⊢
    obtain ⟨k, hk, hsaved, hsema⟩ := hinv.saved m hm d q hdq hq
    refine ⟨k, hk, hsaved, .inl ?_⟩
    obtain hempty | ⟨target, hlast⟩ := hsema
    · exact hempty
    · -- another channel's state is in the backup, so the guard says it is empty
      obtain ⟨target', hlast'⟩ | hback := hguard
      · rw [hlast] at hlast'
        cases Option.some.inj hlast'
        exact absurd rfl hdc
      · rw [← hback]
        exact hinv.backup d k ⟨target, hlast⟩ hk

/-- What the resumption loads was noted for the channel. -/
theorem OwnInv.own {g : ℕ → Option SavedContext} {s : HardwarePullerEmu}
    {m m' : ChannelManager} {c p : ℕ} (hinv : OwnInv (g, s)) (hm : s.channelMgr = some m)
    (hcache : m'.mqdCache = m.mqdCache) (hmqd : m'.mqd = m.mqd)
    (hp : preemptedMqd m' c = some p) (hguard : LastSaved s.log c ∨ s.semaBackup = .empty)
    (fence : UInt64) :
    ∃ k, g c = some k ∧ mqdRegs (m'.mqd p) fence = k.mqd.contextRegs fence ∧
      k.sema = s.semaBackup := by
  obtain ⟨hget, hstate⟩ := state_of_preemptedMqd hp
  have hcp : m.mqdCache c = some p := by
    unfold getMqdForChannel at hget
    split_ifs at hget
    rwa [hcache] at hget
  rw [hmqd] at hstate ⊢
  obtain ⟨k, hk, hsaved, hsema⟩ := hinv.saved m hm c p hcp hstate
  refine ⟨k, hk, hsaved.mqdRegs hstate fence, ?_⟩
  obtain hlast | hback := hguard
  · exact hinv.backup c k hlast hk
  · obtain hempty | hlast := hsema
    · rw [hempty, hback]
    · exact hinv.backup c k hlast hk

/-- A checkpoint saves the channel it preempts, into a free backup. -/
theorem OwnInv.checkpoint {g : ℕ → Option SavedContext} {s s' : HardwarePullerEmu}
    {m m' : ChannelManager} {t : ℕ} (hinv : OwnInv (g, s)) (hm : s.channelMgr = some m)
    (hfree : s.semaBackup = .empty) (hm' : s'.channelMgr = some m')
    (hcache : m'.mqdCache = m.mqdCache) (hreg : m'.registered = m.registered)
    (hmqd : m'.mqd = (s.savedManager m).mqd) (hback : s'.semaBackup = s.sema)
    (hlog : newest Event.isPreemption s'.log = some (.preempted s.currentChannelId t)) :
    OwnInv (Function.update g s.currentChannelId (contextToSave s), s') := by
  have hlast : ∀ d, LastSaved s'.log d → d = s.currentChannelId := by
    rintro d ⟨t', hd⟩
    rw [hlog] at hd
    cases Option.some.inj hd
    rfl
  have hsaves : s.savedManager m = (m.yieldChannel s.currentChannelId).preemptMqd
      (m.getMqdForChannel s.currentChannelId) := by
    rw [savedManager, yieldChannel_getMqdForChannel]
  refine ⟨fun n hn d q hd => ?_, fun n hn d e q hd he => ?_, fun n hn d q hd hq => ?_,
    fun d k hd hk => ?_⟩
  · obtain rfl : n = m' := Option.some.inj (hn.symm.trans hm')
    exact isRegistered_mono (fun d hd => by rwa [hreg]) (hinv.registered m hm d q (hcache ▸ hd))
  · obtain rfl : n = m' := Option.some.inj (hn.symm.trans hm')
    exact hinv.unique m hm d e q (hcache ▸ hd) (hcache ▸ he)
  · obtain rfl : n = m' := Option.some.inj (hn.symm.trans hm')
    have hdq : m.mqdCache d = some q := hcache ▸ hd
    rw [hmqd, hsaves] at hq ⊢
    have hgetd : m.getMqdForChannel d = some q := by
      rw [getMqdForChannel, if_pos (hinv.registered m hm d q hdq), hdq]
    by_cases hdc : d = s.currentChannelId
    · -- the channel preempted: its MQD is saved now or was saved before
      subst hdc
      rw [hgetd] at hq ⊢
      simp only [preemptMqd, updateMqd, Function.update_self, yieldChannel_mqd] at hq ⊢
      refine ⟨⟨m.mqd q, s.sema⟩, ?_, savedAs_preempt hq fun hold => ?_, .inr ⟨t, hlog⟩⟩
      · simp only [contextToSave, hm, hgetd, Option.map_some]
      · obtain ⟨k, -, hsaved, -⟩ := hinv.saved m hm _ q hdq hold
        exact hsaved.self
    · -- another channel: its MQD is a different one
      have hsame : ((m.yieldChannel s.currentChannelId).preemptMqd
          (m.getMqdForChannel s.currentChannelId)).mqd q = m.mqd q := by
        cases hcur : m.getMqdForChannel s.currentChannelId with
        | none => simp only [preemptMqd, yieldChannel_mqd]
        | some p =>
          have hqp : q ≠ p := by
            rintro rfl
            unfold getMqdForChannel at hcur
            split_ifs at hcur
            exact hdc (hinv.unique m hm d _ q hdq hcur)
          simp only [preemptMqd, updateMqd, Function.update_of_ne hqp, yieldChannel_mqd]
      rw [hsame] at hq ⊢
      obtain ⟨k, hk, hsaved, hsema⟩ := hinv.saved m hm d q hdq hq
      refine ⟨k, ?_, hsaved, .inl ?_⟩
      · simpa only [Function.update_of_ne hdc] using hk
      · obtain hempty | hold := hsema
        · exact hempty
        · rw [hinv.backup d k hold hk, hfree]
  · obtain rfl := hlast d hd
    simp only [Function.update_self, contextToSave, hm, Option.map_eq_some_iff] at hk
    obtain ⟨p, -, rfl⟩ := hk
    exact hback.symm

theorem resumes_eq_some {s : HardwarePullerEmu} {c : ℕ} (h : c ∈ s.resumes) :
    s.pc = .channelSwitch ∧ ∃ m m' p, s.channelMgr = some m ∧
      m.nextReadyChannel = (some c, m') ∧ preemptedMqd m' c = some p := by
  unfold HardwarePullerEmu.resumes selection at h
  cases hpc : s.pc <;> cases hm : s.channelMgr <;> simp only [hpc, hm] at h <;> try cases h
  rename_i m
  match hnext : m.nextReadyChannel with
  | (none, m') => simp [hnext] at h
  | (some d, m') =>
    simp only [hnext, Option.map_some] at h
    obtain ⟨p, hp, rfl⟩ := Option.map_eq_some_iff.mp h
    exact ⟨rfl, m, m', p, rfl, hnext, hp⟩

theorem resumes_of_selected {s : HardwarePullerEmu} {m m' : ChannelManager} {c p : ℕ}
    (hpc : s.pc = .channelSwitch) (hm : s.channelMgr = some m)
    (hnext : m.nextReadyChannel = (some c, m')) (hp : preemptedMqd m' c = some p) :
    c ∈ s.resumes := by
  rw [HardwarePullerEmu.resumes, selection_eq hpc hm hnext]
  simp only [hp, Option.map_some]
  rfl

theorem resumesOwn_step {g : ℕ → Option SavedContext} {s : HardwarePullerEmu} {a : Action}
    (hinv : OwnInv (g, s)) (hthawed : s.semaBackup.frozen = false)
    (hG : RoundTripGuard s a) : ResumesOwn (g, s) a := by
  intro ha c hc
  obtain ⟨hpc, m, m', p, hm, hnext, hp⟩ := resumes_eq_some hc
  simp only at hpc hm
  cases a with
  | puller stale =>
    obtain ⟨-, -, -, hidle⟩ := hG.switch
    obtain ⟨hcache, -, hmqd⟩ := selected_mqds hpc hm hnext hidle
    obtain ⟨k, hk, hregs, hsema⟩ := hinv.own hm hcache hmqd hp (hG.backup c hc)
      (m'.channels c).pendingFenceId
    have hstep : step s (.puller stale) = s.selectChannel m' c := by
      simp only [step, pullerStep, hpc, stepChannelSwitch, hm, hnext]
    refine ⟨k, hk, ?_⟩
    simp only [hstep, selectChannel, hp]
    refine ⟨trivial, hregs, ?_⟩
    rw [hsema]
    exact ChannelSemaphoreState.rebindPendingFences_of_not_frozen hthawed
  | _ => cases ha

theorem ownInv_checkpoint {g : ℕ → Option SavedContext} {s s' : HardwarePullerEmu}
    (h : PullerStep s s') (hinv : OwnInv (g, s)) (hat : s.atCheckpoint = true)
    (hsel : s.checkpointSelection = some s.preempt.target) (hfree : s.semaBackup = .empty)
    (hidle : ∀ m ∈ s.selecting, m.IdleVictim) :
    OwnInv (Function.update g s.currentChannelId (contextToSave s), s') := by
  have hpc : s.pc = .complete := by
    by_contra hpc
    rw [not_atCheckpoint hpc] at hat
    cases hat
  cases h with
  | move hmove => cases hmove <;> simp_all
  | noChannel hpc' | select hpc' | resume hpc' | dequeue hpc' | exchange hpc' | fetch hpc'
  | blockNext hpc' | blockLast hpc' | dispatch hpc' | release hpc' | wait hpc' | waited hpc' =>
    rw [hpc] at hpc'
    cases hpc'
  | completeNext hpc' hidx =>
    simp [atCheckpoint, Nat.not_le.mpr hidx] at hat
  | completeLast hpc' hidx hpre =>
    rw [atCheckpoint_eq hpc hidx, hpre] at hat
    cases hat
  | checkpointDirect hpc' hidx hpre hm =>
    simp [checkpointSelection, hm] at hsel
  | checkpointNone hpc' hidx hpre hm hnext =>
    rw [checkpointSelection_eq hm hnext] at hsel
    cases hsel
  | checkpointLoad hpc' hidx hpre hm hnext hregs =>
    rename_i m m' c regs
    obtain ⟨hcache, hreg, hmqd⟩ := checkpoint_mqds hat hm hnext hidle
    refine hinv.checkpoint (t := s.preempt.target) hm hfree rfl ?_ ?_ hmqd rfl ?_
    · rw [hcache, savedManager, preemptMqd_mqdCache, yieldChannel_mqdCache]
    · rw [hreg, savedManager, preemptMqd_registered, yieldChannel_registered]
    · rw [newest_cons_of_neg rfl, newest_cons_of_pos rfl]

theorem ownInv_pullerStep {g : ℕ → Option SavedContext} {s s' : HardwarePullerEmu}
    (h : PullerStep s s') (hinv : OwnInv (g, s)) (hat : s.atCheckpoint = false)
    (hidle : ∀ m ∈ s.selecting, m.IdleVictim)
    (hown : ∀ c ∈ s.resumes, LastSaved s.log c ∨ s.semaBackup = .empty) : OwnInv (g, s') := by
  have hself : ∀ m', s.channelMgr = some m' → ∃ m, s.channelMgr = some m ∧
      m'.mqdCache = m.mqdCache ∧ (∀ c, m.registered c = true → m'.registered c = true) ∧
      ∀ p, (m'.mqd p).state = mqdStatePreempted → m'.mqd p = m.mqd p :=
    fun m' hm' => ⟨m', hm', rfl, fun _ => id, fun _ _ => rfl⟩
  have hyields : ∀ m', s.yieldedMgr = some m' → ∃ m, s.channelMgr = some m ∧
      m'.mqdCache = m.mqdCache ∧ (∀ c, m.registered c = true → m'.registered c = true) ∧
      ∀ p, (m'.mqd p).state = mqdStatePreempted → m'.mqd p = m.mqd p := by
    intro m' hm'
    obtain ⟨m, hm, rfl⟩ := Option.map_eq_some_iff.mp hm'
    exact ⟨m, hm, yieldChannel_mqdCache _ _, fun c hc => by rwa [yieldChannel_registered],
      fun p _ => by rw [yieldChannel_mqd]⟩
  have hyieldEvents : ∀ e ∈ s.yieldEvents, e.isPreemption = false := by
    intro e he
    rw [mem_yieldEvents he]
    rfl
  have hfinishEvents : ∀ e ∈ s.finishEvents, e.isPreemption = false := by
    intro e he
    obtain ⟨x, y, rfl⟩ | ⟨rfl, -⟩ | rfl | rfl := mem_finishEvents he <;> rfl
  cases h with
  | move | exchange | wait | waited =>
    exact hinv.frame (E := []) (by simp) rfl rfl hself
  | dequeue | fetch | release | blockNext =>
    exact hinv.frame (E := [_]) (by simp [Event.isPreemption]) rfl rfl hself
  | noChannel hpc hm hnext =>
    refine hinv.frame (E := []) (by simp) rfl rfl ?_
    rintro m' ⟨⟩
    obtain ⟨hcache, hreg, hmqd⟩ := selected_mqds hpc hm hnext hidle
    exact ⟨_, hm, hcache, fun c hc => by rwa [hreg], fun p _ => by rw [hmqd]⟩
  | select hpc hm hnext hp =>
    refine hinv.frame (E := [_]) (by simp [Event.isPreemption]) rfl rfl ?_
    rintro m' ⟨⟩
    obtain ⟨hcache, hreg, hmqd⟩ := selected_mqds hpc hm hnext hidle
    exact ⟨_, hm, hcache, fun c hc => by rwa [hreg], fun p _ => by rw [hmqd]⟩
  | resume hpc hm hnext hp hregs =>
    rename_i m m' c p regs
    obtain ⟨hcache, hreg, hmqd⟩ := selected_mqds hpc hm hnext hidle
    exact hinv.resume (r := regs) hm hcache hreg hmqd hp
      (hown c (resumes_of_selected hpc hm hnext hp)) rfl
      (by rw [load, newest_cons_of_neg rfl, newest_cons_of_pos rfl])
  | blockLast =>
    refine hinv.frame (E := s.yieldEvents ++ [.blocked s.serial s.source s.currentEntry])
      (fun e he => ?_) (by simp) rfl hyields
    obtain hy | hb := List.mem_append.mp he
    · exact hyieldEvents e hy
    · rw [List.mem_singleton.mp hb]
      rfl
  | dispatch hpc hexec =>
    rename_i launches failed d
    refine hinv.frame (E := s.dispatchEvents launches failed) (fun e he => ?_) rfl rfl hself
    obtain ⟨rfl, -⟩ | ⟨p, rfl⟩ | ⟨q, i, x, rfl⟩ | rfl := mem_dispatchEvents he <;> rfl
  | completeNext => exact hinv.frame hfinishEvents rfl rfl hself
  | completeLast =>
    refine hinv.frame (E := s.yieldEvents ++ s.finishEvents) (fun e he => ?_) (by simp) rfl hyields
    obtain hy | hf := List.mem_append.mp he
    · exact hyieldEvents e hy
    · exact hfinishEvents e hf
  | checkpointDirect hpc hidx hpre | checkpointNone hpc hidx hpre
  | checkpointLoad hpc hidx hpre =>
    rw [atCheckpoint_eq hpc hidx, hpre] at hat
    cases hat

/-- The driver gives a channel an MQD of its own that is not PREEMPTED, or takes it away. -/
theorem OwnInv.pointer {g : ℕ → Option SavedContext} {s : HardwarePullerEmu}
    {m : ChannelManager} (hinv : OwnInv (g, s)) (hm : s.channelMgr = some m) (c : ℕ)
    (ptr : Option ℕ) (hptr : ∀ p, ptr = some p →
      (m.mqd p).state ≠ mqdStatePreempted ∧ ∀ d < maxChannels, m.mqdCache d = some p → d = c) :
    OwnInv (g, { s with channelMgr := some (m.setMqdForChannel c ptr) }) := by
  have hbound : ∀ d p, m.mqdCache d = some p → d < maxChannels := by
    intro d p hd
    have hreg := hinv.registered m hm d p hd
    simp only [ChannelManager.isRegistered, Bool.and_eq_true, decide_eq_true_eq] at hreg
    exact hreg.1
  unfold setMqdForChannel
  split_ifs with hreg
  · -- a channel other than `c` keeps its pointer
    have hcache : ∀ d q, Function.update m.mqdCache c ptr d = some q →
        d = c ∧ ptr = some q ∨ d ≠ c ∧ m.mqdCache d = some q := by
      intro d q hd
      by_cases hdc : d = c
      · subst hdc
        rw [Function.update_self] at hd
        exact .inl ⟨rfl, hd⟩
      · rw [Function.update_of_ne hdc] at hd
        exact .inr ⟨hdc, hd⟩
    refine ⟨?_, ?_, ?_, hinv.backup⟩
    · rintro n ⟨⟩ d q hd
      obtain ⟨rfl, -⟩ | ⟨-, hold⟩ := hcache d q hd
      · exact hreg
      · exact hinv.registered m hm d q hold
    · rintro n ⟨⟩ d e q hd he
      obtain ⟨rfl, hq⟩ | ⟨hdc, hold⟩ := hcache d q hd <;>
        obtain ⟨rfl, hq'⟩ | ⟨hec, hold'⟩ := hcache e q he
      · rfl
      · exact absurd ((hptr q hq).2 e (hbound e q hold') hold') hec
      · exact absurd ((hptr q hq').2 d (hbound d q hold) hold) hdc
      · exact hinv.unique m hm d e q hold hold'
    · rintro n ⟨⟩ d q hd hq
      obtain ⟨rfl, hnew⟩ | ⟨-, hold⟩ := hcache d q hd
      · exact absurd hq (hptr q hnew).1
      · exact hinv.saved m hm d q hold hq
  · exact ⟨fun n hn => hinv.registered n (hm.trans hn), fun n hn => hinv.unique n (hm.trans hn),
      fun n hn => hinv.saved n (hm.trans hn), hinv.backup⟩

theorem ownInv_configure {g : ℕ → Option SavedContext} {s : HardwarePullerEmu}
    {m : ChannelManager} {op : ConfigOp} (hinv : OwnInv (g, s)) (hm : s.channelMgr = some m)
    (hG : RoundTripGuard s (.configure op)) :
    OwnInv (g, { s with channelMgr := some (m.configure op) }) := by
  have hframe : (m.configure op).mqdCache = m.mqdCache →
      (∀ p, ((m.configure op).mqd p).state = mqdStatePreempted →
        (m.configure op).mqd p = m.mqd p) →
      OwnInv (g, { s with channelMgr := some (m.configure op) }) := by
    intro hcache hmqd
    refine hinv.frame (E := []) (by simp) rfl rfl ?_
    rintro n ⟨⟩
    exact ⟨m, hm, hcache, fun c hc => configure_registered m op hc, hmqd⟩
  cases op with
  | register id priority contextType =>
    refine hframe ?_ fun p _ => by rw [configure_mqd rfl]
    simp only [ChannelManager.configure, registerChannel]
    split_ifs <;> rfl
  | contextType id contextType =>
    refine hframe ?_ fun p _ => by rw [configure_mqd rfl]
    simp only [ChannelManager.configure, setChannelContextType]
    split_ifs <;> rfl
  | mqdPointer id ptr =>
    refine hinv.pointer hm id ptr ?_
    rintro p rfl
    exact hG.mqd m hm
  | mqdWrite p q =>
    refine hframe rfl fun p' hp' => ?_
    by_cases hp : p' = p
    · subst hp
      simp only [ChannelManager.configure, updateMqd, Function.update_self] at hp'
      exact absurd hp' hG.switch
    · simp [ChannelManager.configure, updateMqd, hp]

theorem ownInv_envStep {g : ℕ → Option SavedContext} {s s' : HardwarePullerEmu} {a : Action}
    (h : EnvStep s a s') (hinv : OwnInv (g, s)) (hG : RoundTripGuard s a) : OwnInv (g, s') := by
  have hself : ∀ m', s.channelMgr = some m' → ∃ m, s.channelMgr = some m ∧
      m'.mqdCache = m.mqdCache ∧ (∀ c, m.registered c = true → m'.registered c = true) ∧
      ∀ p, (m'.mqd p).state = mqdStatePreempted → m'.mqd p = m.mqd p :=
    fun m' hm' => ⟨m', hm', rfl, fun _ => id, fun _ _ => rfl⟩
  cases h with
  | accept hm ha hreg flag =>
    refine hinv.frame (E := [_]) (by simp [Event.isPreemption]) rfl rfl ?_
    rintro n ⟨⟩
    exact ⟨_, hm, submitBatch_mqdCache _ _ _, fun c hc => by rwa [submitBatch_registered],
      fun p _ => by rw [submitBatch_mqd]⟩
  | direct hm ha w =>
    exact hinv.frame (E := [_, _]) (by simp [Event.isPreemption]) rfl rfl hself
  | configure hm ha =>
    subst ha
    exact ownInv_configure hinv hm hG
  | quiet queues hal host preempt hsema hevs =>
    refine hinv.frame (fun e he => ?_) rfl rfl hself
    have hprod := hevs e he
    cases e <;> first | rfl | cases hprod

/-- **Step lemma.**  The ghost state keeps up with what is saved. -/
theorem ownInv_step (x : (ℕ → Option SavedContext) × HardwarePullerEmu) (a : Action)
    (hinv : OwnInv x) (hG : RoundTripGuard x.2 a) : OwnInv (observed step noteSaved x a) := by
  obtain ⟨g, s⟩ := x
  simp only [observed, noteSaved]
  obtain ⟨ha, h⟩ | ⟨ha, h⟩ := step_cases s a
  · cases a with
    | puller stale =>
      obtain ⟨hcheck, -, -, hidle⟩ := hG.switch
      cases hat : s.atCheckpoint with
      | true => exact ownInv_checkpoint h hinv hat (hcheck hat) (hG.free hat) hidle
      | false => exact ownInv_pullerStep h hinv hat hidle hG.backup
    | _ => cases ha
  · rw [ha, Bool.false_and, if_neg Bool.false_ne_true]
    exact ownInv_envStep h hinv hG

theorem ownInv_init (cfg : Config) : OwnInv (fun _ => none, init cfg) := by
  have hnone : ∀ m, (init cfg).channelMgr = some m → ∀ c, m.mqdCache c = none := by
    intro m hm c
    obtain ⟨mqd, -, rfl⟩ := Option.map_eq_some_iff.mp hm
    rfl
  refine ⟨fun m hm c p hc => ?_, fun m hm c d p hc => ?_, fun m hm c p hc => ?_, fun c k _ hk => ?_⟩
  · cases (hnone m hm c).symm.trans hc
  · cases (hnone m hm c).symm.trans hc
  · cases (hnone m hm c).symm.trans hc
  · cases hk

/-- **Own saved state.**  Along guarded runs every resumption gives back what was saved for the
channel resumed. -/
theorem resumesOwn_run {cfg : Config} {as : List Action}
    (hG : Guarded step RoundTripGuard (init cfg) as) :
    Guarded (observed step noteSaved) ResumesOwn (fun _ => none, init cfg) as := by
  refine guarded_of_inductive
    (I := fun x => OwnInv x ∧ FrozenInv x.2 ∧ Bookkeeping x.2)
    (G := fun x a => RoundTripGuard x.2 a) (fun x a hinv hG => ?_) (fun x a hinv hG => ?_)
    ⟨ownInv_init cfg, ⟨trivial, rfl, rfl, fun hf => absurd rfl hf⟩, bookkeeping_init cfg⟩
    ((guarded_observed step noteSaved RoundTripGuard (fun _ => none, init cfg) as).mpr hG)
  · exact ⟨ownInv_step x a hinv.1 hG, frozenInv_step x.2 a hinv.2.1 hinv.2.2,
      bookkeeping_step x.2 a hinv.2.2⟩
  · exact resumesOwn_step hinv.1 hinv.2.1.saved hG

/-! ### Runs with one save -/

/-- Before the first checkpoint nothing is saved. -/
def NothingSaved (s : HardwarePullerEmu) : Prop :=
  newest Event.isPreemption s.log = none → s.semaBackup = .empty

theorem nothingSaved_step (s : HardwarePullerEmu) (a : Action) (hinv : NothingSaved s) :
    NothingSaved (step s a) := by
  intro hlog
  have hold : ∀ {E : List Event}, newest Event.isPreemption (E ++ s.log) = none →
      s.semaBackup = .empty := by
    intro E hE
    refine hinv (List.find?_eq_none.mpr fun e he => ?_)
    exact List.find?_eq_none.mp hE e (List.mem_append_right _ he)
  obtain ⟨-, h⟩ | ⟨-, h⟩ := step_cases s a
  · obtain ⟨E, hE⟩ := h.extends
    have hback := hold (hE ▸ hlog)
    generalize step s a = s' at h hlog
    cases h with
    | resume hpc hm hnext hp hregs =>
      rename_i m m' c p regs
      exact absurd rfl (List.find?_eq_none.mp hlog (.resumed c regs)
        (List.mem_cons_of_mem _ List.mem_cons_self))
    | checkpointNone =>
      exact absurd rfl (List.find?_eq_none.mp hlog (.preempted s.currentChannelId s.preempt.target)
        List.mem_cons_self)
    | checkpointLoad =>
      exact absurd rfl (List.find?_eq_none.mp hlog (.preempted s.currentChannelId s.preempt.target)
        (List.mem_cons_of_mem _ List.mem_cons_self))
    | _ => exact hback
  · generalize step s a = s' at h hlog
    cases h with
    | accept => exact hold (E := [_]) hlog
    | direct => exact hold (E := [_, _]) hlog
    | configure => exact hinv hlog
    | quiet => exact hold hlog

/-- The only checkpoint of the run is the first save, and the channel saved is the one resumed. -/
def onceSaved (s : HardwarePullerEmu) : Action → Prop
  | .puller _ => (s.atCheckpoint = true → newest Event.isPreemption s.log = none) ∧
      ∀ c ∈ s.resumes, LastSaved s.log c
  | _ => True

instance decidableOnceSaved (s : HardwarePullerEmu) : ∀ a, Decidable (onceSaved s a)
  | .puller _ => inferInstanceAs (Decidable (_ ∧ _))
  | .submitBatch _ | .channelSubmit .. | .configure _ | .triggerPreempt _ | .signalBarrier _
  | .writeEntry .. | .advanceWriteIdx _ | .ringDoorbell _ | .writeDoorbell _ | .onDoorbell
  | .memWrite .. | .hostWrite _ => .isTrue trivial

/-- With one save the conditions on the backup are met. -/
theorem roundTripGuard_of_onceSaved {cfg : Config} {as : List Action}
    (h : Guarded step (fun s a => (switchGuard s a ∧ ownMqd s a) ∧ parkedGuard s a ∧ onceSaved s a)
      (init cfg) as) : Guarded step RoundTripGuard (init cfg) as := by
  refine guarded_of_inductive (I := NothingSaved) (fun s a hinv _ => nothingSaved_step s a hinv)
    (fun s a hinv hG => ?_) (fun _ => rfl) h
  obtain ⟨⟨hswitch, hmqd⟩, hparked, honce⟩ := hG
  refine ⟨hswitch, ?_, ?_, hparked, hmqd⟩
  · cases a with
    | puller stale => exact fun hat => hinv (honce.1 hat)
    | _ => trivial
  · cases a with
    | puller stale => exact fun c hc => .inl (honce.2 c hc)
    | _ => trivial

/-! ### One channel preempted and resumed -/

/-- Two entries in the context of MQD 0, the first of them a SEM_WAIT. -/
def HardwarePullerEmu.Config.oneWaiting : Config := { Config.oneActive 2 with heap := waitHeap }

/-- Channel 1 is requested while channel 0 runs the batch of its MQD; then `b` is submitted to the
preempted channel 0, which is resumed with it. -/
def preemptRun (b : Batch) : List Action :=
  [.configure (.register 0 .normal .brown), .configure (.register 1 .normal .brown),
    .configure (.mqdPointer 0 (some 0)), .submitBatch ⟨0x100000000, 2, 0x100000001⟩,
    .channelSubmit 1 ⟨0x100001000, 1, 0x100000002⟩, .triggerPreempt 1] ++ pulls 12 ++
    [.channelSubmit 0 b] ++ pulls 30

/-! ### The result -/

/-- **The preemption round trip.**  When no MQD is PREEMPTED to begin with and every step meets the
condition, the run without requests comes to rest with the same outcome, every resumption gives
back the channel's own saved state, and no fence of a preempted channel is signaled. -/
theorem round_trip (cfg : Config) (as : List Action) (hcfg : cfg.freshMqds)
    (hG : Guarded step RoundTripGuard (init cfg) as) : RoundTrip cfg as where
  sameInputs := requestFree_others (init cfg) as
  outcome := fun hrest => by
    have htracks := tracks_run hcfg (Guarded.mono step (fun s a h => ⟨h.switch, h.free⟩) hG)
    have hbackup := backupInv_run (Guarded.mono step (fun s a h => ⟨h.switch, h.parked⟩) hG)
    exact ⟨atRest_of_tracks htracks hrest, sameOutcome_of_tracks htracks hbackup⟩
  ownState := resumesOwn_run hG
  frozen := (fenceThawed_run cfg as).thawed

/-- The preempted channel is blocked at a SEM_WAIT, and is resumed with the batch of its MQD. -/
theorem round_trip_resumed :
    RoundTrip .oneWaiting (preemptRun ⟨0x100000000, 2, 0x100000003⟩) := by
  refine round_trip .oneWaiting _ ⟨_, rfl, fun p => ?_⟩
    (roundTripGuard_of_onceSaved (by decide +kernel))
  split_ifs <;> decide

/-- The preempted channel has a new batch of two entries.  The resumption takes the old context from
the MQD and executes the old entry again, and the new batch is lost. -/
theorem round_trip_fails :
    ¬ RoundTrip .oneWaiting (preemptRun ⟨0x100002000, 2, 0x100000003⟩) := by
  intro htrip
  have hrest : AtRest (after .oneWaiting (preemptRun ⟨0x100002000, 2, 0x100000003⟩)) := by
    decide +kernel
  have hexecuted := (htrip.outcome hrest).2.executed 0
  revert hexecuted
  decide +kernel

end UsrLinuxEmu.GpuDriver
