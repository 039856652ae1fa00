import UsrLinuxEmu.GpuDriver.PullerGuards

/-!
# What becomes of an accepted batch

A batch waits in its channel's slot, is loaded into the registers and runs there to its end; the
slot is freed when the batch is over.  A submission to a slot in flight replaces the batch in it,
as `submitBatch` documents, so a batch is safe only while its slot is left alone.

* `Account` / `account` — what the history says about one submission: the entries executed, oldest
  first, and the fences signaled;
* `BatchDone` — the account of a submission that has been served;
* `batchGuard` — submissions find their slot free, and the puller's steps neither skip an entry nor
  take one from elsewhere;
* `BatchInv` — each submission is running, or waits untouched in its slot, or is done;
* `no_lost_batch` — at quiescence every accepted batch is done.
-/

namespace UsrLinuxEmu.GpuDriver

open UsrLinuxEmu.Transition ChannelManager HardwarePullerEmu

/-! ### The account of a submission -/

/-- What happened to one submission: its executed entries, counted when they pass COMPLETE and not
at their DISPATCH, and its signaled fences. -/
structure Account where
  executed : List Source
  signals : List UInt64
  deriving DecidableEq, Repr

def Event.executed? (id : ℕ) : Event → Option Source
  | .completed _ (.batch j i addr) _ => if j = id then some (.batch j i addr) else none
  | _ => none

def Event.signaled? (id : ℕ) : Event → Option UInt64
  | .signaled j fence => if j = id then some fence else none
  | _ => none

/-- The account of submission `id` in a history, oldest first. -/
def account (id : ℕ) (log : List Event) : Account :=
  ⟨(log.filterMap (Event.executed? id)).reverse, (log.filterMap (Event.signaled? id)).reverse⟩

/-- The first `k` entries of the batch, as submission `id`. -/
def batchSources (id : ℕ) (addr : UInt64) (k : ℕ) : List Source :=
  (List.range k).map fun i => .batch id i (entryAddr addr i)

/-- A MEMCPY of the submission failed. -/
def CopyFailed (log : List Event) (id : ℕ) : Prop :=
  ∃ n i addr, .memcpyFailed n (.batch id i addr) ∈ log

/-- Every entry of the batch has been executed, once and in order, and its fence, if it has one and
no copy failed, has been signaled once. -/
structure BatchDone (log : List Event) (id : ℕ) (b : Batch) : Prop where
  executed : (account id log).executed = batchSources id b.gpfifoAddr b.entryCount.toNat
  signaled : b.fenceId ≠ 0 → ¬ CopyFailed log id → (account id log).signals = [b.fenceId]

/-! ### The property -/

def Event.isSubmission : Event → Bool
  | .submitted .. => true
  | _ => false

/-- A doorbell has been rung after the last submission. -/
def rungSinceSubmission (log : List Event) : Bool := (since Event.isSubmission log).any Event.isRing

/-- The puller sleeps with no doorbell pending and no channel in flight; without a manager, the
last submission has been followed by its doorbell and no callback is running. -/
def Drained (s : HardwarePullerEmu) : Prop :=
  s.pc = .idle ∧ s.queues.doorbellPending = false ∧
    ((∀ c < maxChannels, s.busy c = false) ∧
      (s.channelMgr.isNone = true → s.queues.callbacks = 0 ∧ rungSinceSubmission s.log = true))

instance (s : HardwarePullerEmu) : Decidable (Drained s) :=
  inferInstanceAs (Decidable (_ ∧ _ ∧ _))

/-- The slot that a submission on `c` would fill is free. -/
def slotFree (s : HardwarePullerEmu) (c : ℕ) : Prop :=
  if s.channelMgr.isSome then s.busy c = false else s.regs.total ≤ s.regs.index

instance (s : HardwarePullerEmu) (c : ℕ) : Decidable (slotFree s c) := by
  unfold slotFree
  infer_instance

/-- Submissions are not empty and find their slot free.  No entry blocks or comes from a ring, no
GREEN channel is preempted, a PREEMPTED channel resumes with the batch of its slot, and a
checkpoint loads the requested channel. -/
def batchGuard (s : HardwarePullerEmu) : Action → Prop
  | .puller _ =>
    (s.pc = .decode → s.blocks = false) ∧ s.ringEntry.isNone = true ∧ s.switchVictim = none ∧
      (∀ r ∈ s.resumption, r.1 = r.2) ∧
      (s.atCheckpoint = true → ∀ c ∈ s.checkpointSelection, c = s.preempt.target)
  | .submitBatch b => 0 < b.entryCount.toNat ∧ slotFree s s.currentChannelId
  | .channelSubmit c b => 0 < b.entryCount.toNat ∧ slotFree s c
  | _ => True

instance decidableBatchGuard (s : HardwarePullerEmu) : ∀ a, Decidable (batchGuard s a)
  | .puller _ => inferInstanceAs (Decidable (_ ∧ _ ∧ _ ∧ _ ∧ _))
  | .submitBatch _ | .channelSubmit _ _ => inferInstanceAs (Decidable (_ ∧ _))
  | .configure _ | .triggerPreempt _ | .signalBarrier _ | .writeEntry _ _ | .advanceWriteIdx _
  | .ringDoorbell _ | .writeDoorbell _ | .onDoorbell | .memWrite _ _ _ | .hostWrite _ =>
    .isTrue trivial

/-! ### Accounts and events -/

/-- The submission whose account the event belongs to. -/
def Event.accountOf? : Event → Option ℕ
  | .completed _ (.batch id _ _) _ => some id
  | .signaled id _ => some id
  | _ => none

theorem Event.not_executed {id : ℕ} {ev : Event} (h : ev.accountOf? ≠ some id) :
    ev.executed? id = none ∧ ev.signaled? id = none := by
  cases ev with
  | completed n src e =>
    cases src with
    | batch j i addr =>
      have hne : j ≠ id := fun heq => h (congrArg some heq)
      exact ⟨if_neg hne, rfl⟩
    | ring q => exact ⟨rfl, rfl⟩
  | signaled j f =>
    have hne : j ≠ id := fun heq => h (congrArg some heq)
    exact ⟨rfl, if_neg hne⟩
  | _ => exact ⟨rfl, rfl⟩

/-- Events of other submissions do not change an account. -/
theorem account_append {id : ℕ} {E log : List Event} (h : ∀ ev ∈ E, ev.accountOf? ≠ some id) :
    account id (E ++ log) = account id log := by
  have hexec : E.filterMap (Event.executed? id) = [] :=
    List.filterMap_eq_nil_iff.mpr fun ev hev => (Event.not_executed (h ev hev)).1
  have hsig : E.filterMap (Event.signaled? id) = [] :=
    List.filterMap_eq_nil_iff.mpr fun ev hev => (Event.not_executed (h ev hev)).2
  simp only [account, List.filterMap_append, hexec, hsig, List.nil_append]

theorem batchSources_succ (id : ℕ) (addr : UInt64) (k : ℕ) :
    batchSources id addr (k + 1) = batchSources id addr k ++ [.batch id k (entryAddr addr k)] := by
  simp only [batchSources, List.range_succ, List.map_append, List.map_cons, List.map_nil]

/-- The submission is loaded and has entries left. -/
def Live (s : HardwarePullerEmu) (id : ℕ) : Prop :=
  s.loaded.id = id ∧ s.regs.index < s.regs.total

/-- The registers run batch `b`: the entries before the cursor are executed, nothing is signaled,
and the fence is there unless a copy failed. -/
structure Running (s : HardwarePullerEmu) (b : Batch) : Prop where
  addr : s.regs.gpfifoAddr = b.gpfifoAddr
  total : s.regs.total = b.entryCount.toNat
  fence : s.regs.fence = b.fenceId ∨ CopyFailed s.log s.loaded.id
  account : account s.loaded.id s.log =
    ⟨batchSources s.loaded.id b.gpfifoAddr s.regs.index, []⟩

structure BatchInv (s : HardwarePullerEmu) : Prop where
  book : Bookkeeping s
  nonempty : ∀ id c b, .submitted id c b ∈ s.log → 0 < b.entryCount.toNat
  fresh : ∀ id, s.nextId ≤ id → account id s.log = ⟨[], []⟩
  thawed : s.sema.frozen = false
  running : s.regs.index < s.regs.total →
    ∃ c b, .submitted s.loaded.id c b ∈ s.log ∧ Running s b
  owner : s.regs.index < s.regs.total → s.channelMgr.isSome = true →
    s.busy s.currentChannelId = true ∧ s.slotId s.currentChannelId = s.loaded.id
  flight : s.pc.inFlight = true → s.regs.index < s.regs.total ∧
    s.source = .batch s.loaded.id s.regs.index (entryAddr s.regs.gpfifoAddr s.regs.index)
  driven : s.regs.index < s.regs.total → s.pc = .fetch ∨ s.pc.inFlight = true ∨
    s.channelMgr = none ∧ (rungSinceSubmission s.log = true → s.queues.Ringing)
  waiting : ∀ c, s.busy c = true → ¬ Live s (s.slotId c) →
    account (s.slotId c) s.log = ⟨[], []⟩
  done : ∀ id c b, .submitted id c b ∈ s.log →
    Live s id ∨ s.busy c = true ∧ s.slotId c = id ∨ BatchDone s.log id b

/-! ### Steps that leave the batch alone -/

/-- The event is neither a submission nor part of an account. -/
def Event.isIdle (ev : Event) : Bool := ev.accountOf?.isNone && !ev.isSubmission

theorem Event.isIdle_iff {ev : Event} :
    ev.isIdle = true ↔ ev.accountOf? = none ∧ ev.isSubmission = false := by
  simp [Event.isIdle]

theorem account_append_idle {E log : List Event} (h : ∀ ev ∈ E, ev.isIdle = true) (id : ℕ) :
    account id (E ++ log) = account id log :=
  account_append fun ev hev heq => by
    rw [(Event.isIdle_iff.mp (h ev hev)).1] at heq
    cases heq

theorem submitted_append_idle {E log : List Event} (h : ∀ ev ∈ E, ev.isSubmission = false)
    {id c : ℕ} {b : Batch} : .submitted id c b ∈ E ++ log ↔ .submitted id c b ∈ log := by
  rw [List.mem_append, or_iff_right]
  intro hev
  have := h _ hev
  simp [Event.isSubmission] at this

/-- Idle events leave the accounts and the submissions as they were. -/
theorem append_idle {E log log' : List Event} (h : ∀ ev ∈ E, ev.isIdle = true)
    (hlog : log' = E ++ log) :
    log ⊆ log' ∧ (∀ id, account id log' = account id log) ∧
      ∀ {id c b}, .submitted id c b ∈ log' ↔ .submitted id c b ∈ log := by
  subst hlog
  refine ⟨List.subset_append_right _ _, account_append_idle h, ?_⟩
  exact submitted_append_idle fun ev hev => (Event.isIdle_iff.mp (h ev hev)).2

theorem CopyFailed.mono {log log' : List Event} (hsub : log ⊆ log') {id : ℕ}
    (h : CopyFailed log id) : CopyFailed log' id := by
  obtain ⟨n, i, addr, hmem⟩ := h
  exact ⟨n, i, addr, hsub hmem⟩

/-- A batch that is done stays done as long as its account does not change. -/
theorem BatchDone.mono {log log' : List Event} (hsub : log ⊆ log') {id : ℕ} {b : Batch}
    (haccount : account id log' = account id log) (h : BatchDone log id b) :
    BatchDone log' id b := by
  refine ⟨by rw [haccount]; exact h.executed, fun hf hcopy => ?_⟩
  rw [haccount]
  exact h.signaled hf fun hold => hcopy (hold.mono hsub)

/-- Idle events, with registers, slots and numbers as they were. -/
theorem BatchInv.frame {s s' : HardwarePullerEmu} (hinv : BatchInv s) (hbook : Bookkeeping s')
    {E : List Event} (hevs : ∀ ev ∈ E, ev.isIdle = true) (hlog : s'.log = E ++ s.log)
    (hregs : s'.regs = s.regs ∨
      s'.regs = { s.regs with fence := 0 } ∧ CopyFailed s'.log s.loaded.id)
    (hloaded : s'.loaded = s.loaded) (hslot : s'.slotId = s.slotId) (hnext : s'.nextId = s.nextId)
    (hbusy : ∀ c, s'.busy c = s.busy c)
    (hcur : s.regs.index < s.regs.total → s'.channelMgr.isSome = true →
      s'.currentChannelId = s.currentChannelId ∧ s.channelMgr.isSome = true)
    (hthawed : s'.sema.frozen = false)
    (hflight : s'.pc.inFlight = true → s.regs.index < s.regs.total ∧
      s'.source = .batch s.loaded.id s.regs.index (entryAddr s.regs.gpfifoAddr s.regs.index))
    (hdriven : s.regs.index < s.regs.total → s'.pc = .fetch ∨ s'.pc.inFlight = true ∨
      s'.channelMgr = none ∧ (rungSinceSubmission s'.log = true → s'.queues.Ringing)) :
    BatchInv s' := by
  obtain ⟨hsub, haccount, hsubmitted⟩ := append_idle hevs hlog
  have hsame : s'.regs.gpfifoAddr = s.regs.gpfifoAddr ∧ s'.regs.index = s.regs.index ∧
      s'.regs.total = s.regs.total := by
    obtain heq | ⟨heq, -⟩ := hregs <;> rw [heq] <;> exact ⟨rfl, rfl, rfl⟩
  obtain ⟨haddr, hidx, htotal⟩ := hsame
  have hlive : ∀ id, Live s' id ↔ Live s id := by
    intro id
    rw [Live, Live, hloaded, hidx, htotal]
  refine ⟨hbook, ?_, ?_, hthawed, ?_, ?_, ?_, ?_, ?_, ?_⟩
  · exact fun id c b h => hinv.nonempty id c b (hsubmitted.mp h)
  · intro id hid
    rw [haccount]
    exact hinv.fresh id (hnext ▸ hid)
  · intro hlt
    rw [hidx, htotal] at hlt
    obtain ⟨c, b, hb, hrun⟩ := hinv.running hlt
    refine ⟨c, b, ?_, ?_, ?_, ?_, ?_⟩
    · rw [hloaded]
      exact hsubmitted.mpr hb
    · rw [haddr, hrun.addr]
    · rw [htotal, hrun.total]
    · rw [hloaded]
      obtain heq | ⟨-, hcopy⟩ := hregs
      · rw [heq]
        exact hrun.fence.imp_right fun h => h.mono hsub
      · exact .inr hcopy
    · rw [hloaded, hidx, haccount]
      exact hrun.account
  · intro hlt hsome
    rw [hidx, htotal] at hlt
    obtain ⟨hchannel, hsome⟩ := hcur hlt hsome
    rw [hbusy, hchannel, hslot, hloaded]
    exact hinv.owner hlt hsome
  · rw [hidx, htotal, hloaded, haddr]
    exact hflight
  · rw [hidx, htotal]
    exact hdriven
  · intro c hc hnot
    rw [hbusy] at hc
    rw [hslot, hlive] at hnot
    rw [hslot, haccount]
    exact hinv.waiting c hc hnot
  · intro id c b hb
    rw [hlive, hbusy, hslot]
    exact (hinv.done id c b (hsubmitted.mp hb)).imp_right fun h =>
      h.imp_right fun h => h.mono hsub (haccount id)

/-! ### The end of an entry -/

/-- What COMPLETE leaves of the registers and the account. -/
structure Finished (s s' : HardwarePullerEmu) (X : List Event) : Prop where
  log : s'.log = X ++ (s.finishEvents ++ s.log)
  idle : ∀ ev ∈ X, ev.isIdle = true
  regs : s'.regs = s.finishRegs
  loaded : s'.loaded = s.loaded
  slotId : s'.slotId = s.slotId
  nextId : s'.nextId = s.nextId
  thawed : s'.sema.frozen = false
  pc : s'.pc.inFlight = false

theorem finishEvents_not_submission (s : HardwarePullerEmu) :
    ∀ ev ∈ s.finishEvents, ev.isSubmission = false := by
  intro ev hev
  obtain ⟨x, y, rfl⟩ | ⟨rfl, -⟩ | rfl | rfl := mem_finishEvents hev <;> rfl

section Finish

variable {s s' : HardwarePullerEmu} {X : List Event}

theorem Finished.subset (h : Finished s s' X) : s.log ⊆ s'.log := by
  rw [h.log]
  exact fun x hx => List.mem_append_right _ (List.mem_append_right _ hx)

theorem Finished.submitted (h : Finished s s' X) {id c : ℕ} {b : Batch} :
    .submitted id c b ∈ s'.log ↔ .submitted id c b ∈ s.log := by
  rw [h.log, submitted_append_idle fun ev hev => (Event.isIdle_iff.mp (h.idle ev hev)).2,
    submitted_append_idle (finishEvents_not_submission s)]

/-- The fence of a running batch is due at its last entry, unless it has none or a copy failed. -/
theorem Running.fenceDue {b : Batch} (hrun : Running s b) (hthawed : s.sema.frozen = false)
    (hlast : s.regs.total ≤ s.regs.index + 1) (hfence : b.fenceId ≠ 0)
    (hcopy : ¬ CopyFailed s.log s.loaded.id) :
    (if s.fenceDue then [s.regs.fence] else []) = [b.fenceId] := by
  have heq : s.regs.fence = b.fenceId := hrun.fence.resolve_right hcopy
  have hdue : s.fenceDue = true := by
    simp [HardwarePullerEmu.fenceDue, heq, hfence, hlast,
      ChannelSemaphoreState.isFenceFrozen_of_not_frozen hthawed]
  rw [if_pos hdue, heq]

end Finish

/-! ### The start of a batch -/

/-- **Load.**  With the registers exhausted, the batch waiting in a slot is loaded from its start. -/
theorem BatchInv.load {s s' : HardwarePullerEmu} (hinv : BatchInv s) (hbook : Bookkeeping s')
    (hover : s.regs.total ≤ s.regs.index) {E : List Event}
    (hevs : ∀ ev ∈ E, ev.isIdle = true) (hlog : s'.log = E ++ s.log) {c : ℕ} {b : Batch}
    (hb : .submitted (s.slotId c) c b ∈ s.log) (hc : s.busy c = true)
    (hbusy : ∀ d, s'.busy d = s.busy d) (hregs : s'.regs = b.regs)
    (hid : s'.loaded.id = s.slotId c) (hcur : s'.currentChannelId = c)
    (hslot : s'.slotId = s.slotId) (hnext : s'.nextId = s.nextId)
    (hthawed : s'.sema.frozen = false) (hpc : s'.pc = .fetch) : BatchInv s' := by
  obtain ⟨hsub, haccount, hsubmitted⟩ := append_idle hevs hlog
  have hnot : ∀ id, ¬ Live s id := fun id hl => Nat.not_lt.mpr hover hl.2
  refine ⟨hbook, ?_, ?_, hthawed, ?_, ?_, ?_, ?_, ?_, ?_⟩
  · exact fun id d e h => hinv.nonempty id d e (hsubmitted.mp h)
  · intro id hid
    rw [haccount]
    exact hinv.fresh id (hnext ▸ hid)
  · intro _
    refine ⟨c, b, ?_, ?_, ?_, ?_, ?_⟩
    · rw [hid]
      exact hsub hb
    · rw [hregs]
      rfl
    · rw [hregs]
      rfl
    · rw [hregs]
      exact .inl rfl
    · rw [hid, hregs, haccount]
      exact hinv.waiting c hc (hnot _)
  · intro _ _
    rw [hbusy, hcur, hslot, hid]
    exact ⟨hc, rfl⟩
  · intro hf
    rw [hpc] at hf
    cases hf
  · exact fun _ => .inl hpc
  · intro d hd _
    rw [hbusy] at hd
    rw [hslot, haccount]
    exact hinv.waiting d hd (hnot _)
  · intro id d e h
    rw [hbusy, hslot]
    obtain hl | hw | hd := hinv.done id d e (hsubmitted.mp h)
    · exact absurd hl (hnot id)
    · exact .inr (.inl hw)
    · exact .inr (.inr (hd.mono hsub (haccount id)))

/-! ### Submissions -/

theorem account_submitted {id n c : ℕ} {b : Batch} {log : List Event} :
    account id (.submitted n c b :: log) = account id log :=
  account_append (E := [.submitted n c b]) (by simp [Event.accountOf?])

/-- The manager accepts a batch into a free slot. -/
theorem BatchInv.accept {s : HardwarePullerEmu} {m : ChannelManager} (hinv : BatchInv s)
    (hm : s.channelMgr = some m) {c : ℕ} {b : Batch} (hreg : m.isRegistered c = true) (flag : Bool)
    (hfree : s.busy c = false) (hcount : 0 < b.entryCount.toNat)
    (hbook : Bookkeeping { s with
      queues := { s.queues with doorbellPending := flag }
      channelMgr := some (m.submitBatch c b)
      nextId := s.nextId + 1
      slotId := Function.update s.slotId c s.nextId
      log := .submitted s.nextId c b :: s.log }) :
    BatchInv { s with
      queues := { s.queues with doorbellPending := flag }
      channelMgr := some (m.submitBatch c b)
      nextId := s.nextId + 1
      slotId := Function.update s.slotId c s.nextId
      log := .submitted s.nextId c b :: s.log } := by
  have hother : ∀ d, d ≠ c → ((m.submitBatch c b).channels d).batchInFlight = s.busy d := by
    intro d hd
    rw [submitBatch_channel_of_ne hd, busy_eq hm]
  have hself : ((m.submitBatch c b).channels c).batchInFlight = true :=
    (submitBatch_channel hreg b).2
  have hsub : s.log ⊆ .submitted s.nextId c b :: s.log := List.subset_cons_self _ _
  refine ⟨hbook, ?_, ?_, hinv.thawed, ?_, ?_, hinv.flight, ?_, ?_, ?_⟩
  · intro id d e h
    obtain heq | hold := List.mem_cons.mp h
    · cases heq
      exact hcount
    · exact hinv.nonempty id d e hold
  · intro id hid
    rw [account_submitted]
    exact hinv.fresh id (Nat.le_of_succ_le hid)
  · intro hlt
    obtain ⟨d, e, he, hrun⟩ := hinv.running hlt
    refine ⟨d, e, hsub he, hrun.addr, hrun.total, ?_, ?_⟩
    · exact hrun.fence.imp_right fun h => h.mono hsub
    · rw [account_submitted]
      exact hrun.account
  · intro hlt _
    obtain ⟨hown, hid⟩ := hinv.owner hlt (by rw [hm]; rfl)
    have hne : s.currentChannelId ≠ c := by
      rintro rfl
      rw [hfree] at hown
      cases hown
    refine ⟨?_, ?_⟩
    · simp only [busy]
      rw [hother _ hne]
      exact hown
    · simp only [Function.update_of_ne hne]
      exact hid
  · intro hlt
    obtain hf | hf | ⟨hnone, -⟩ := hinv.driven hlt
    · exact .inl hf
    · exact .inr (.inl hf)
    · rw [hm] at hnone
      cases hnone
  · intro d hd hnot
    by_cases hdc : d = c
    · subst hdc
      simp only [Function.update_self, account_submitted]
      exact hinv.fresh _ (Nat.le_refl _)
    · simp only [busy] at hd
      rw [hother d hdc] at hd
      simp only [Function.update_of_ne hdc, account_submitted] at hnot ⊢
      exact hinv.waiting d hd hnot
  · intro id d e h
    obtain heq | hold := List.mem_cons.mp h
    · cases heq
      refine .inr (.inl ⟨hself, ?_⟩)
      simp only [Function.update_self]
    · obtain hl | ⟨hd, hid⟩ | hdone := hinv.done id d e hold
      · exact .inl hl
      · have hne : d ≠ c := by
          rintro rfl
          rw [hfree] at hd
          cases hd
        refine .inr (.inl ⟨?_, ?_⟩)
        · simp only [busy]
          rw [hother d hne]
          exact hd
        · simp only [Function.update_of_ne hne]
          exact hid
      · exact .inr (.inr (hdone.mono hsub account_submitted))

/-- Without a manager the batch replaces exhausted registers. -/
theorem BatchInv.direct {s : HardwarePullerEmu} (hinv : BatchInv s) (hm : s.channelMgr = none)
    {b : Batch} (w : SemWaiter) (hover : s.regs.total ≤ s.regs.index)
    (hcount : 0 < b.entryCount.toNat)
    (hbook : Bookkeeping { s with
      regs := b.regs
      loaded := ⟨s.nextId, s.currentChannelId, b.regs⟩
      nextId := s.nextId + 1
      waiter := w
      log := .loaded ⟨s.nextId, s.currentChannelId, b.regs⟩ ::
        .submitted s.nextId s.currentChannelId b :: s.log }) :
    BatchInv { s with
      regs := b.regs
      loaded := ⟨s.nextId, s.currentChannelId, b.regs⟩
      nextId := s.nextId + 1
      waiter := w
      log := .loaded ⟨s.nextId, s.currentChannelId, b.regs⟩ ::
        .submitted s.nextId s.currentChannelId b :: s.log } := by
  have haccount : ∀ id, account id (.loaded ⟨s.nextId, s.currentChannelId, b.regs⟩ ::
      .submitted s.nextId s.currentChannelId b :: s.log) = account id s.log := fun id =>
    account_append (E := [.loaded _, .submitted _ _ _]) (by simp [Event.accountOf?])
  have hnot : ∀ id, ¬ Live s id := fun id hl => Nat.not_lt.mpr hover hl.2
  have hidle : ∀ c, s.busy c = false := fun c => by rw [busy, hm]
  refine ⟨hbook, ?_, ?_, hinv.thawed, ?_, ?_, ?_, ?_, ?_, ?_⟩
  · intro id d e h
    simp only [List.mem_cons, reduceCtorEq, false_or] at h
    obtain heq | hold := h
    · cases heq
      exact hcount
    · exact hinv.nonempty id d e hold
  · intro id hid
    rw [haccount]
    exact hinv.fresh id (Nat.le_of_succ_le hid)
  · intro _
    refine ⟨s.currentChannelId, b, by simp, rfl, rfl, .inl rfl, ?_⟩
    rw [haccount]
    exact hinv.fresh _ (Nat.le_refl _)
  · intro _ hsome
    rw [hm] at hsome
    cases hsome
  · intro hf
    exact absurd (hinv.flight hf).1 (Nat.not_lt.mpr hover)
  · intro _
    refine .inr (.inr ⟨hm, fun hrung => ?_⟩)
    rw [rungSinceSubmission, since_cons_of_neg rfl, since_cons_of_pos rfl] at hrung
    cases hrung
  · intro c hc
    rw [busy, hm] at hc
    cases hc
  · intro id d e h
    simp only [List.mem_cons, reduceCtorEq, false_or] at h
    obtain heq | hold := h
    · cases heq
      exact .inl ⟨rfl, hcount⟩
    · obtain hl | ⟨hc, -⟩ | hd := hinv.done id d e hold
      · exact absurd hl (hnot id)
      · rw [hidle] at hc
        cases hc
      · exact .inr (.inr (hd.mono (fun x hx => by simp [hx]) (haccount id)))

/-! ### The step lemmas -/

/-- In CHANNEL_SWITCH of a managed puller no batch is half done. -/
theorem BatchInv.over_of_switch {s : HardwarePullerEmu} {m : ChannelManager} (hinv : BatchInv s)
    (hpc : s.pc = .channelSwitch) (hm : s.channelMgr = some m) : s.regs.total ≤ s.regs.index := by
  by_contra hlt
  obtain hf | hf | ⟨hnone, -⟩ := hinv.driven (Nat.lt_of_not_le hlt)
  · rw [hpc] at hf
    cases hf
  · rw [hpc] at hf
    cases hf
  · rw [hm] at hnone
    cases hnone

/-- A manager that holds the slots of the yielded one has one busy slot less. -/
theorem busy_yielded {s s' : HardwarePullerEmu} {m m' : ChannelManager} (hbook : Bookkeeping s)
    (hm : s.channelMgr = some m) (hm' : s'.channelMgr = some m')
    (hchannels : m'.channels = (m.yieldChannel s.currentChannelId).channels) (c : ℕ) :
    s'.busy c = (s.busy c && c != s.currentChannelId) := by
  rw [busy_eq hm', busy_eq hm, hchannels, yieldChannel_inFlight (hbook.registered m hm)]

theorem busy_of_channels {s s' : HardwarePullerEmu} {m m' : ChannelManager}
    (hm : s.channelMgr = some m) (hm' : s'.channelMgr = some m')
    (hchannels : m'.channels = m.channels) (c : ℕ) : s'.busy c = s.busy c := by
  rw [busy_eq hm', busy_eq hm, hchannels]

end UsrLinuxEmu.GpuDriver
