import UsrLinuxEmu.GpuDriver.EntryDelivery
import UsrLinuxEmu.GpuDriver.EntryFlow

/-!
# Entries with the release flag

The release flag asks for a completion semaphore after the entry's work.  DECODE instead sends a
release entry to SEMAPHORE, past DISPATCH, and COMPLETE writes the semaphore a second time.

* `ReleaseOk` — one dispatch, and for a release entry one semaphore write, after the dispatch;
* `ReleaseSound` — every accepted batch that is over had each of its entries taken once, and its
  work entries handled so;
* `release_sound_iff` — where no batch or entry is lost, that is so exactly when no work entry has
  the flag.
-/

namespace UsrLinuxEmu.GpuDriver

open UsrLinuxEmu.Transition HardwarePullerEmu

/-- A valid entry that is neither a semaphore nor a barrier operation. -/
def GpuGpfifoEntry.isWork (e : GpuGpfifoEntry) : Bool :=
  e.valid && !e.isSemOp && e.method != gpuOpSemRelease

/-- Every semaphore write of entry `n` comes after a dispatch of it. -/
def WrittenAfterDispatch (log : List Event) (n : ℕ) : Prop :=
  Causal (fun past ev => ∀ va v, ev = .semWritten n va v → ∃ e, .dispatched n e ∈ past) log

/-- What the release flag promises for entry `n`. -/
def ReleaseOk (log : List Event) (n : ℕ) (e : GpuGpfifoEntry) : Prop :=
  (tally n log).dispatches = 1 ∧
    (e.release = true → (tally n log).semWrites = 1 ∧ WrittenAfterDispatch log n)

/-- Each entry of the batch was taken once, in order, and its work entries were handled as their
flags promise. -/
structure EntriesHandled (log : List Event) (id : ℕ) (b : Batch) : Prop where
  taken : (takesOf id log).map Take.src =
    (batchSources id b.gpfifoAddr b.entryCount.toNat).reverse
  handled : ∀ t ∈ takesOf id log, t.entry.isWork = true → ReleaseOk log t.serial t.entry

/-- Every accepted batch that is over was handled. -/
def ReleaseSound (s : HardwarePullerEmu) : Prop :=
  ∀ id c b, .submitted id c b ∈ s.log → BatchOver s id c → EntriesHandled s.log id b

/-- No work entry of a batch that is over has the release flag. -/
def FlagsClear (s : HardwarePullerEmu) : Prop :=
  ∀ id c b, .submitted id c b ∈ s.log → BatchOver s id c →
    ∀ t ∈ takesOf id s.log, t.entry.isWork = true → t.entry.release = false

theorem GpuGpfifoEntry.not_semOp_of_isWork {e : GpuGpfifoEntry} (h : e.isWork = true) :
    e.isSemOp = false := by
  simp only [isWork, Bool.and_eq_true, Bool.not_eq_true'] at h
  exact h.1.2

/-- The number of dispatches of a completed entry: none on the way through SEMAPHORE. -/
theorem FlowInv.dispatches {r : Bool} {s : HardwarePullerEmu} (hflow : FlowInv r s) {n : ℕ}
    {src : Source} {e : GpuGpfifoEntry} (h : .completed n src e ∈ s.log) :
    (tally n s.log).dispatches = if viaSemaphore e then 0 else 1 := by
  rw [hflow.completed n src e h, finalTally, midTally]
  cases viaSemaphore e <;> rfl

/-- A work entry that was taken for a batch that is over has been completed. -/
theorem completed_of_retired {s : HardwarePullerEmu} (htake : TakeInv s) {id : ℕ} {t : Take}
    (ht : t ∈ retiresOf id s.log) (hwork : t.entry.isWork = true) :
    .completed t.serial t.src t.entry ∈ s.log := by
  obtain ⟨ev, hev, hret⟩ := List.mem_filterMap.mp (List.mem_of_mem_filter ht)
  cases ev with
  | completed n src e =>
    cases hret
    exact hev
  | blocked n src e =>
    cases hret
    have hop := htake.blocked n src e hev
    rw [GpuGpfifoEntry.not_semOp_of_isWork hwork] at hop
    cases hop
  | _ => cases hret

/-- A completed work entry is handled as its flag promises exactly when the flag is not set. -/
theorem releaseOk_iff {r : Bool} {s : HardwarePullerEmu} (hflow : FlowInv r s) {n : ℕ}
    {src : Source} {e : GpuGpfifoEntry} (hdone : .completed n src e ∈ s.log)
    (hwork : e.isWork = true) : ReleaseOk s.log n e ↔ e.release = false := by
  have hvia : viaSemaphore e = e.release := by
    rw [viaSemaphore, GpuGpfifoEntry.not_semOp_of_isWork hwork, Bool.not_false, Bool.and_true]
  have hcount := hflow.dispatches hdone
  rw [hvia] at hcount
  constructor
  · rintro ⟨hone, -⟩
    rw [hone] at hcount
    cases hrel : e.release with
    | false => rfl
    | true => simp [hrel] at hcount
  · intro hrel
    rw [hrel] at hcount
    refine ⟨hcount, fun hset => ?_⟩
    rw [hrel] at hset
    cases hset

theorem releaseSound_iff {r : Bool} {s : HardwarePullerEmu} (hflow : FlowInv r s)
    (htake : TakeInv s) (hinv : EntryInv s) : ReleaseSound s ↔ FlagsClear s := by
  refine forall₃_congr fun id c b => forall₂_congr fun hb hover => ?_
  obtain ⟨hretired, hsrcs⟩ := hinv.takesOf_of_over htake hb hover
  have hiff : ∀ t ∈ takesOf id s.log, t.entry.isWork = true →
      (ReleaseOk s.log t.serial t.entry ↔ t.entry.release = false) := by
    intro t ht hwork
    rw [hretired] at ht
    exact releaseOk_iff hflow (completed_of_retired htake ht hwork) hwork
  constructor
  · exact fun h t ht hwork => (hiff t ht hwork).mp (h.handled t ht hwork)
  · exact fun h => ⟨hsrcs, fun t ht hwork => (hiff t ht hwork).mpr (h t ht hwork)⟩

/-- **Release entries.**  In a run whose steps meet `deliverGuard`, every entry of every accepted
batch that is over was taken once, and every work entry among them dispatched exactly once, with one
semaphore write after the dispatch when the flag is set, if and only if none of these work entries
has the flag set. -/
theorem release_sound_iff (cfg : Config) (as : List Action)
    (hG : Guarded step deliverGuard (init cfg) as) :
    Always step ReleaseSound (init cfg) as ↔ Always step FlagsClear (init cfg) as := by
  have hentries := always_of_inductive entryInv_step (entryInv_init cfg) hG
  rw [always_iff_initial] at hentries ⊢
  rw [always_iff_initial]
  refine forall₂_congr fun pre hpre => ?_
  exact releaseSound_iff (flow_run cfg pre) (takes_run cfg pre) (hentries pre hpre)

/-! ### Runs -/

instance (s : HardwarePullerEmu) (id : ℕ) : Decidable (Live s id) :=
  inferInstanceAs (Decidable (_ ∧ _))

instance (s : HardwarePullerEmu) (id c : ℕ) : Decidable (BatchOver s id c) :=
  inferInstanceAs (Decidable (_ ∨ _))

/-- The flags of the batch that the event submits, when it is over. -/
def Event.flagsClear (s : HardwarePullerEmu) : Event → Bool
  | .submitted id c _ => !decide (BatchOver s id c) ||
      (takesOf id s.log).all fun t => !t.entry.isWork || !t.entry.release
  | _ => true

instance (s : HardwarePullerEmu) : Decidable (FlagsClear s) :=
  decidable_of_iff (∀ ev ∈ s.log, ev.flagsClear s = true) <| by
    constructor
    · intro h id c b hb hover t ht hwork
      have hclear := h _ hb
      simp only [Event.flagsClear, hover, decide_true, Bool.not_true, Bool.false_or,
        List.all_eq_true] at hclear
      simpa [hwork] using hclear t ht
    · intro h ev hev
      cases ev with
      | submitted id c b =>
        by_cases hover : BatchOver s id c
        · simp only [Event.flagsClear, hover, decide_true, Bool.not_true, Bool.false_or,
            List.all_eq_true]
          intro t ht
          cases hwork : t.entry.isWork with
          | false => rfl
          | true => simp [h id c b hev hover t ht hwork]
        · simp [Event.flagsClear, hover]
      | _ => rfl

/-- Three entries: a MEMSET, a SEM_WAIT for 7 at `0x100001000` where 0 is, and a MEMSET. -/
def workHeap (a : UInt64) : UInt8 :=
  if a = 0 ∨ a = 218 then 0x0D else if a = 1 ∨ a = 219 then 0x04
  else if a = 109 then 0x15 else if a = 110 then 0x04
  else if a = 171 then 0x10 else if a = 174 then 0x01 else if a = 178 then 7 else 0

/-- Both MEMSETs of `workHeap` are dispatched once, around a SEM_WAIT that is skipped. -/
theorem release_sound_three_entries :
    Always step ReleaseSound (init { Config.managed with heap := workHeap })
      ([.configure (.register 0 .normal .brown), .submitBatch ⟨0x100000000, 3, 0x100000001⟩] ++
        pulls 14) :=
  (release_sound_iff _ _ (by decide +kernel)).mpr (by decide +kernel)

/-- A heap that starts with a valid MEMSET entry whose release flag asks for 7 at `0x100001000`. -/
def releaseHeap (a : UInt64) : UInt8 :=
  if a = 0 then 0x0D else if a = 1 then 0x04 else if a = 62 then 0x10 else if a = 65 then 0x01
  else if a = 69 then 7 else if a = 81 then 1 else 0

/-- The entry of `releaseHeap` completes without having been dispatched. -/
theorem release_sound_fails :
    ¬ Always step ReleaseSound (init { Config.managed with heap := releaseHeap })
      ([.configure (.register 0 .normal .brown), .submitBatch ⟨0x100000000, 1, 0x100000001⟩] ++
        pulls 6) := by
  intro hall
  have hlast : ReleaseSound _ := hall.last
  have hhandled := (hlast 1 0 ⟨0x100000000, 1, 0x100000001⟩ (by decide +kernel)
    (by decide +kernel)).handled
    ⟨1, .batch 1 0 0x100000000, .ofBytes fun k => releaseHeap (UInt64.ofNat k)⟩
    (by decide +kernel) (by decide +kernel)
  have hone := hhandled.1
  revert hone
  decide +kernel

end UsrLinuxEmu.GpuDriver
