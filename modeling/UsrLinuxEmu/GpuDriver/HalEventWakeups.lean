import UsrLinuxEmu.GpuDriver.HalEvents

/-!
# Threads left asleep on a signalled event

`user_event_signal` wakes one thread out of a wait set that all events share.

* `Calm` — once every wake-up is made, nobody sleeps on an event that is signalled;
* `Contended` — the states in which the one wake-up that is left may go to the wrong thread;
* `halEvents_served` — those states are exactly where a thread can be stranded, and it stays so.
-/

namespace UsrLinuxEmu.GpuDriver

open UsrLinuxEmu.Transition

variable {τ : Type*} [DecidableEq τ]

namespace HalEvents

/-- Once every call has made its wake-up, nobody sleeps on an event that is signalled. -/
def Calm (s : HalEvents τ) : Prop := s.owed = [] → s.eventCv.Settled s.Ready

/-- The last wake-up owed is a `notify_one`, and somebody it should wake does not sleep alone. -/
def Contended (s : HalEvents τ) : Prop :=
  ∃ thread pasid eventId events, s.owed = [.signal thread pasid eventId events] ∧
    ∃ w ∈ s.eventCv.asleep, s.Ready w ∧ s.eventCv.asleep ≠ [w]

omit [DecidableEq τ] in
theorem calm_init : (init : HalEvents τ).Calm := fun _ _ hw => absurd hw List.not_mem_nil

omit [DecidableEq τ] in
theorem Calm.call {s : HalEvents τ} (h : s.Calm) (c : EventCall τ) : (s.call c).Calm := by
  have hset (eventId : UInt32) : (s.setSignaled c eventId).Calm := by
    intro howed
    exact absurd howed (List.append_ne_nil_of_right_ne_nil _ (List.cons_ne_nil _ _))
  cases c with
  | signal thread pasid eventId events =>
    simp only [HalEvents.call]
    split_ifs
    · exact h
    · exact h
    · exact hset eventId
  | wait w =>
    simp only [HalEvents.call]
    split_ifs with hid htime hready hready
    any_goals exact h
    exact fun howed => (h howed).sleep hready
  | notify thread eventId =>
    simp only [HalEvents.call]
    split_ifs
    · exact h
    · exact hset eventId

theorem Calm.wake {s : HalEvents τ} (h : s.Calm) (w : EventWaiter τ) (status : CvStatus) :
    { s with eventCv := s.eventCv.wake w status }.Calm :=
  fun howed => (h howed).wake w status

/-- The last call to wake somebody is the only one that owes. -/
theorem owed_eq_singleton {s : HalEvents τ} {c : EventCall τ} (hc : c ∈ s.owed)
    (h : s.owed.erase c = []) : s.owed = [c] := by
  have hperm := List.perm_cons_erase hc
  rw [h] at hperm
  exact List.perm_singleton.mp hperm

theorem calm_wakeUp {s : HalEvents τ} (h : s.Calm) (hfree : ¬s.Contended) (c : EventCall τ)
    (pick : EventWaiter τ) : (s.wakeUp c pick).Calm := by
  by_cases hc : c ∈ s.owed
  · cases c with
    | signal thread pasid eventId events =>
      simp only [wakeUp, if_pos hc]
      split_ifs with hempty hpick
      · intro _ w hw
        exact absurd hw (by simp [woke, hempty])
      · intro howed
        have halone : ∀ w ∈ s.eventCv.asleep, s.Ready w → s.eventCv.asleep = [w] := by
          intro w hw hready
          by_contra hne
          exact hfree ⟨_, _, _, _, owed_eq_singleton hc howed, w, hw, hready, hne⟩
        exact (CondVar.settled_wake_iff s.eventCv .noTimeout).mpr halone pick hpick
      · exact h
    | wait w => simpa only [wakeUp, if_pos hc] using h
    | notify thread eventId =>
      simp only [wakeUp, if_pos hc]
      exact fun _ => CondVar.settled_notifyAll _
  · simpa only [wakeUp, if_neg hc] using h

theorem calm_resume {s : HalEvents τ} (h : s.Calm) (w : EventWaiter τ) (status : CvStatus) :
    (s.resume w status).Calm := by
  simp only [resume]
  split_ifs with hw hready htime
  · exact h
  · exact h
  · exact fun howed => (show (s.eventCv.relock w status).Settled s.Ready from h howed).sleep hready
  · exact h

theorem calm_step {s : HalEvents τ} (h : s.Calm) (hfree : ¬s.Contended) (a : EventAction τ) :
    (step s a).Calm := by
  cases a with
  | call c => exact h.call c
  | wakeUp c pick => exact calm_wakeUp h hfree c pick
  | spurious w => exact h.wake w .noTimeout
  | expire w =>
    simp only [step, expire]
    split_ifs
    · exact h
    · exact h.wake w .timeout
  | resume w status => exact calm_resume h w status

/-- In a contended state the system can wake the wrong thread. -/
theorem not_calm_of_contended {s : HalEvents τ} (h : s.Contended) :
    ∃ a, ¬(step s a).Calm := by
  obtain ⟨thread, pasid, eventId, events, howed, w, hw, hready, hne⟩ := h
  have hnot : ¬∀ pick ∈ s.eventCv.asleep, (s.eventCv.wake pick .noTimeout).Settled s.Ready := by
    intro hall
    exact hne ((CondVar.settled_wake_iff s.eventCv .noTimeout).mp hall w hw hready)
  obtain ⟨pick, hbad⟩ := not_forall.mp hnot
  obtain ⟨hpick, hbad⟩ := Classical.not_imp.mp hbad
  refine ⟨.wakeUp (.signal thread pasid eventId events) pick, fun hcalm => hbad ?_⟩
  have hmem : EventCall.signal thread pasid eventId events ∈ s.owed := by
    rw [howed]
    exact List.mem_singleton_self _
  have hasleep : s.eventCv.asleep ≠ [] := List.ne_nil_of_mem hpick
  simp only [step, wakeUp, if_pos hmem, if_neg hasleep, if_pos hpick] at hcalm
  refine hcalm ?_
  simp only [woke, howed, List.erase_cons_head]

/-- The actions after which `w` sleeps as before: nothing is signalled, its time is not over, and
it does not wake for no reason. -/
def LeavesAsleep (w : EventWaiter τ) : EventAction τ → Prop
  | .call (.wait _) | .wakeUp .. | .resume .. => True
  | .call (.signal ..) | .call (.notify ..) => False
  | .spurious v => v ≠ w
  | .expire v => v ≠ w ∨ w.timeoutUs = 0xFFFFFFFFFFFFFFFF

theorem stranded_step {s : HalEvents τ} {w : EventWaiter τ} (howed : s.owed = [])
    (hw : w ∈ s.eventCv.asleep) {a : EventAction τ} (ha : LeavesAsleep w a) :
    (step s a).owed = [] ∧ w ∈ (step s a).eventCv.asleep := by
  cases a with
  | call c =>
    cases c with
    | signal thread pasid eventId events => exact ha.elim
    | notify thread eventId => exact ha.elim
    | wait v =>
      simp only [step, call]
      split_ifs
      · exact ⟨howed, hw⟩
      · exact ⟨howed, hw⟩
      · exact ⟨howed, hw⟩
      · exact ⟨howed, hw⟩
      · exact ⟨howed, List.mem_append_left _ hw⟩
  | wakeUp c pick =>
    have hc : c ∉ s.owed := by simp [howed]
    simp only [step, wakeUp, if_neg hc]
    exact ⟨howed, hw⟩
  | spurious v => exact ⟨howed, CondVar.mem_asleep_wake_of_ne hw (Ne.symm ha)⟩
  | expire v =>
    simp only [step, expire]
    split_ifs with hforever
    · exact ⟨howed, hw⟩
    · refine ⟨howed, CondVar.mem_asleep_wake_of_ne hw fun hvw => ?_⟩
      obtain hne | hmax := ha
      · exact hne hvw.symm
      · exact hforever (hvw ▸ hmax)
  | resume v status =>
    simp only [step, resume]
    split_ifs
    · exact ⟨howed, hw⟩
    · exact ⟨howed, hw⟩
    · exact ⟨howed, List.mem_append_left _ hw⟩
    · exact ⟨howed, hw⟩

theorem stranded_run {s : HalEvents τ} {w : EventWaiter τ} (howed : s.owed = [])
    (hw : w ∈ s.eventCv.asleep) {bs : List (EventAction τ)} (hbs : ∀ b ∈ bs, LeavesAsleep w b) :
    w ∈ (run step s bs).eventCv.asleep := by
  induction bs generalizing s with
  | nil => exact hw
  | cons b bs ih =>
    obtain ⟨howed', hw'⟩ := stranded_step howed hw (hbs b List.mem_cons_self)
    exact ih howed' hw' fun b' hb' => hbs b' (List.mem_cons_of_mem _ hb')

end HalEvents

/-- **One condition variable for all events.**  As long as no single wake-up is owed to one of
several sleepers, nobody is left asleep on a signalled event; the first time it is, the system may
wake the wrong one, and a thread so stranded sleeps on until the next signal. -/
theorem halEvents_served (as : List (EventAction τ))
    (hfree : Guarded HalEvents.step (fun s _ => ¬s.Contended) HalEvents.init as) :
    Always HalEvents.step HalEvents.Calm HalEvents.init as ∧
      ((∀ a, (HalEvents.step (run HalEvents.step HalEvents.init as) a).Calm) ↔
        ¬(run HalEvents.step HalEvents.init as).Contended) ∧
      ∀ (s : HalEvents τ) (w : EventWaiter τ) (bs : List (EventAction τ)), s.owed = [] →
        w ∈ s.eventCv.asleep → (∀ b ∈ bs, HalEvents.LeavesAsleep w b) →
        w ∈ (run HalEvents.step s bs).eventCv.asleep := by
  have hcalm : Always HalEvents.step HalEvents.Calm HalEvents.init as :=
    always_of_inductive (fun _ a hs hG => HalEvents.calm_step hs hG a) HalEvents.calm_init hfree
  refine ⟨hcalm, ?_, fun s w bs howed hw hbs => HalEvents.stranded_run howed hw hbs⟩
  constructor
  · intro hall hcont
    obtain ⟨a, ha⟩ := HalEvents.not_calm_of_contended hcont
    exact ha (hall a)
  · intro hnot a
    exact HalEvents.calm_step hcalm.last hnot a

/-- Two threads wait for different events, and one of these is signalled. -/
theorem halEvents_served_two_events :
    let s := run HalEvents.step (HalEvents.init : HalEvents ℕ)
      [.call (.wait ⟨0, 0, 0xFFFFFFFFFFFFFFFF⟩), .call (.wait ⟨1, 1, 0xFFFFFFFFFFFFFFFF⟩),
        .call (.signal 2 0 1 1)]
    s.Contended ∧ ¬∀ a, (HalEvents.step s a).Calm := by
  intro s
  have hcont : s.Contended :=
    ⟨2, 0, 1, 1, by decide, ⟨1, 1, 0xFFFFFFFFFFFFFFFF⟩, by decide, rfl, by decide⟩
  have hfree (s : HalEvents ℕ) (h : s.owed = []) : ¬s.Contended := by
    rintro ⟨thread, pasid, eventId, events, howed, -⟩
    rw [h] at howed
    exact absurd howed (List.cons_ne_nil _ _).symm
  have hserved := halEvents_served
    [.call (.wait ⟨0, 0, 0xFFFFFFFFFFFFFFFF⟩), .call (.wait ⟨1, 1, 0xFFFFFFFFFFFFFFFF⟩),
      .call (.signal 2 0 1 1)] ⟨hfree _ rfl, hfree _ rfl, hfree _ rfl, trivial⟩
  exact ⟨hcont, fun hall => hserved.2.1.mp hall hcont⟩

end UsrLinuxEmu.GpuDriver
