import Mathlib.Data.List.Nodup
import Mathlib.Data.Set.Insert
import UsrLinuxEmu.GpuDriver.Puller
import UsrLinuxEmu.Transition.Run

/-!
# Where simulator fence ids come from (`sim/fence_id.cpp`, `global_scheduler.cpp`)

`sim_fence_id_alloc` counts up from `SIM_FENCE_ID_BASE`.  `GlobalScheduler::allocFenceId` cuts the
same range into a third for each engine and counts up in each of them.

* `FenceIdSources` — the four counters, `simFenceIdAlloc` and `allocFenceId`;
* `FenceIdRun` — the ids handed out so far, until the allocator reports exhaustion;
* `firstId` / `nextId` — the interval of ids a source has used;
* `fence_ids_unique_iff` — the runs in which no id is handed out twice and none leaves the range:
  those in which no source counts into the interval that another one has used.
-/

namespace UsrLinuxEmu.GpuDriver

open UsrLinuxEmu.Transition Device

/-! ### The allocators -/

/-- `next_sim_fence_id_` and `engine_fence_counters_`. -/
structure FenceIdSources where
  nextSimFenceId : UInt64
  engineFenceCounters : EngineType → UInt64

/-- One call: of `sim_fence_id_alloc`, or of `allocFenceId` for an engine. -/
inductive FenceIdCall where
  | sim
  | engine (engine : EngineType)
  deriving DecidableEq, Repr

instance decidableForallFenceIdCall (p : FenceIdCall → Prop) [DecidablePred p] :
    Decidable (∀ c, p c) :=
  decidable_of_iff (p .sim ∧ p (.engine .compute) ∧ p (.engine .copy) ∧ p (.engine .firmware))
    ⟨fun ⟨hsim, hcompute, hcopy, hfirmware⟩ c => by
      rcases c with _ | (_ | _ | _)
      · exact hsim
      · exact hcompute
      · exact hcopy
      · exact hfirmware,
    fun h => ⟨h _, h _, h _, h _⟩⟩

namespace FenceIdSources

def init : FenceIdSources := ⟨simFenceIdBase, fun _ => 0⟩

/-- `sim_fence_id_alloc`, with the sign of the cast: a negative value is an error code. -/
def simFenceIdAlloc (s : FenceIdSources) : Int × FenceIdSources :=
  (s.nextSimFenceId.toInt64.toInt, { s with nextSimFenceId := s.nextSimFenceId + 1 })

/-- `base` after the `switch` of `allocFenceId`. -/
def engineBase : EngineType → UInt64
  | .compute => simFenceIdBase + 0 * (simFenceIdMax / 3)
  | .copy => simFenceIdBase + 1 * (simFenceIdMax / 3)
  | .firmware => simFenceIdBase + 2 * (simFenceIdMax / 3)

def allocFenceId (s : FenceIdSources) (engine : EngineType) : UInt64 × FenceIdSources :=
  (engineBase engine + s.engineFenceCounters engine,
    { s with engineFenceCounters :=
        Function.update s.engineFenceCounters engine (s.engineFenceCounters engine + 1) })

/-- The first id of a source, and the one it hands out next. -/
def firstId : FenceIdCall → ℕ
  | .sim => simFenceIdBase.toNat
  | .engine e => (engineBase e).toNat

def nextId (s : FenceIdSources) : FenceIdCall → ℕ
  | .sim => s.nextSimFenceId.toNat
  | .engine e => (engineBase e + s.engineFenceCounters e).toNat

end FenceIdSources

/-! ### Runs -/

/-- The sources with the ids handed out before exhaustion was reported, newest first. -/
structure FenceIdRun where
  sources : FenceIdSources
  handedOut : List ℕ
  exhausted : Bool

namespace FenceIdRun

def init : FenceIdRun := ⟨.init, [], false⟩

def handOut (x : FenceIdRun) (id : ℕ) (sources : FenceIdSources) : FenceIdRun :=
  if x.exhausted then { x with sources := sources }
  else { x with sources := sources, handedOut := id :: x.handedOut }

def step (x : FenceIdRun) : FenceIdCall → FenceIdRun
  | .sim =>
    let r := x.sources.simFenceIdAlloc
    if r.1 < 0 then { x with sources := r.2, exhausted := true }
    else x.handOut r.1.toNat r.2
  | .engine e =>
    let r := x.sources.allocFenceId e
    x.handOut r.1.toNat r.2

/-- All ids are distinct and lie in the simulator's range. -/
structure IdsUnique (x : FenceIdRun) : Prop where
  distinct : x.handedOut.Nodup
  inRange : ∀ id ∈ x.handedOut, simFenceIdBase.toNat ≤ id ∧ id ≤ simFenceIdMax.toNat

/-- The id due is in the range, and every other source is unused, starts above the id, or has
stayed below the first id of this one.  A call that reports exhaustion hands out nothing. -/
def fenceIdGuard (x : FenceIdRun) (c : FenceIdCall) : Prop :=
  x.exhausted = true ∨ (c = .sim ∧ simFenceIdMax.toNat < x.sources.nextId c) ∨
    (x.sources.nextId c ≤ simFenceIdMax.toNat ∧ ∀ d, d ≠ c →
      x.sources.nextId d = FenceIdSources.firstId d ∨
        x.sources.nextId c < FenceIdSources.firstId d ∨
        x.sources.nextId d ≤ FenceIdSources.firstId c)

instance (x : FenceIdRun) (c : FenceIdCall) : Decidable (x.fenceIdGuard c) :=
  inferInstanceAs (Decidable (_ ∨ _ ∨ _))

end FenceIdRun

/-! ### The interval a source has used -/

namespace FenceIdSources

theorem base_le_firstId (c : FenceIdCall) : simFenceIdBase.toNat ≤ firstId c := by
  revert c
  decide

/-- The id at position `id` has been handed out by the source `c`. -/
def Used (s : FenceIdSources) (c : FenceIdCall) (id : ℕ) : Prop :=
  firstId c ≤ id ∧ id < s.nextId c

theorem nextId_init (c : FenceIdCall) : init.nextId c = firstId c := by
  cases c with
  | sim => rfl
  | engine e =>
    show (engineBase e + 0).toNat = (engineBase e).toNat
    rw [UInt64.add_zero]

/-- The state after a call. -/
def bump (s : FenceIdSources) : FenceIdCall → FenceIdSources
  | .sim => s.simFenceIdAlloc.2
  | .engine e => (s.allocFenceId e).2

theorem nextId_bump_self {s : FenceIdSources} {c : FenceIdCall}
    (h : s.nextId c ≤ simFenceIdMax.toNat) : (s.bump c).nextId c = s.nextId c + 1 := by
  have hsucc : ∀ x : UInt64, x.toNat ≤ simFenceIdMax.toNat → (x + 1).toNat = x.toNat + 1 := by
    intro x hx
    have hmax : simFenceIdMax.toNat = 2 ^ 63 - 1 := rfl
    rw [UInt64.toNat_add, UInt64.toNat_one]
    omega
  cases c with
  | sim => exact hsucc _ h
  | engine e =>
    show (engineBase e + (s.allocFenceId e).2.engineFenceCounters e).toNat = _
    simp only [allocFenceId, Function.update_self]
    rw [← UInt64.add_assoc]
    exact hsucc _ h

theorem nextId_bump_of_ne {s : FenceIdSources} {c d : FenceIdCall} (h : d ≠ c) :
    (s.bump c).nextId d = s.nextId d := by
  cases c with
  | sim =>
    cases d with
    | sim => exact absurd rfl h
    | engine e => rfl
  | engine e =>
    cases d with
    | sim => rfl
    | engine e' =>
      have hne : e' ≠ e := fun heq => h (heq ▸ rfl)
      show (engineBase e' + (s.allocFenceId e).2.engineFenceCounters e').toNat = _
      simp only [allocFenceId, Function.update_of_ne hne]
      rfl

end FenceIdSources

open FenceIdSources

namespace FenceIdRun

variable {x : FenceIdRun} {c : FenceIdCall}

/-- What a call does: it reports exhaustion, comes after the report, or hands out the id due. -/
theorem step_cases (x : FenceIdRun) (c : FenceIdCall) :
    (c = .sim ∧ simFenceIdMax.toNat < x.sources.nextId c ∧
      x.step c = { x with sources := x.sources.bump c, exhausted := true }) ∨
    ((c = .sim → x.sources.nextId c ≤ simFenceIdMax.toNat) ∧
      x.step c = x.handOut (x.sources.nextId c) (x.sources.bump c)) := by
  cases c with
  | sim =>
    have hsign : x.sources.nextSimFenceId.toInt64.toInt =
        if x.sources.nextSimFenceId.toNat < 2 ^ 63 then (x.sources.nextSimFenceId.toNat : Int)
        else (x.sources.nextSimFenceId.toNat : Int) - 2 ^ 64 := by
      show x.sources.nextSimFenceId.toBitVec.toInt = _
      rw [BitVec.toInt_eq_toNat_cond]
      show (if 2 * x.sources.nextSimFenceId.toNat < 2 ^ 64 then _ else _) = _
      split_ifs <;> first | rfl | omega
    have hlt := x.sources.nextSimFenceId.toNat_lt
    have hmax : simFenceIdMax.toNat = 2 ^ 63 - 1 := rfl
    have hnext : x.sources.nextId .sim = x.sources.nextSimFenceId.toNat := rfl
    rw [step, simFenceIdAlloc, hsign, hnext]
    by_cases hsmall : x.sources.nextSimFenceId.toNat < 2 ^ 63
    · right
      rw [if_pos hsmall, if_neg (by omega), Int.toNat_natCast]
      exact ⟨fun _ => by omega, rfl⟩
    · left
      rw [if_neg hsmall, if_pos (by omega)]
      exact ⟨rfl, by omega, rfl⟩
  | engine e =>
    right
    exact ⟨fun h => (by cases h), rfl⟩

/-! ### The invariant -/

/-- The ids handed out are those of the sources' intervals, which are disjoint. -/
structure Accounted (x : FenceIdRun) : Prop where
  mem_iff : ∀ id, id ∈ x.handedOut ↔ ∃ c, x.sources.Used c id
  disjoint : ∀ c d, c ≠ d → ∀ id, x.sources.Used c id → ¬x.sources.Used d id
  ordered : ∀ c, firstId c ≤ x.sources.nextId c

structure FenceIdInv (x : FenceIdRun) : Prop where
  unique : x.IdsUnique
  accounted : x.exhausted = false → x.Accounted

/-- The id due is new exactly under the condition on the other sources. -/
theorem next_notMem_iff (h : x.Accounted) : x.sources.nextId c ∉ x.handedOut ↔
    ∀ d, d ≠ c → x.sources.nextId d = firstId d ∨ x.sources.nextId c < firstId d ∨
      x.sources.nextId d ≤ firstId c := by
  rw [h.mem_iff]
  constructor
  · intro hnew d hd
    have hout : ¬x.sources.Used d (x.sources.nextId c) := fun hused => hnew ⟨d, hused⟩
    unfold Used at hout
    -- were `d` used past the first id of `c`, the higher of the two first ids would be in both
    have hboth := h.disjoint d c hd (max (firstId d) (firstId c))
    unfold Used at hboth
    have hc := h.ordered c
    have hd' := h.ordered d
    omega
  · rintro hG ⟨d, hused⟩
    unfold Used at hused
    by_cases hd : d = c
    · subst hd
      omega
    · have hc := h.ordered c
      have hcases := hG d hd
      omega

/-- A new id extends the interval of its source. -/
theorem accounted_handOut (h : x.Accounted) (hmax : x.sources.nextId c ≤ simFenceIdMax.toNat)
    (hnew : x.sources.nextId c ∉ x.handedOut) :
    Accounted ⟨x.sources.bump c, x.sources.nextId c :: x.handedOut, false⟩ := by
  have hself := nextId_bump_self hmax
  have hc := h.ordered c
  have hgrow : ∀ d id, (x.sources.bump c).Used d id ↔
      x.sources.Used d id ∨ (d = c ∧ id = x.sources.nextId c) := by
    intro d id
    unfold Used
    by_cases hd : d = c
    · subst hd
      rw [hself]
      simp only [true_and]
      omega
    · rw [nextId_bump_of_ne hd]
      simp only [hd, false_and, or_false]
  refine ⟨fun id => ?_, fun d e hde id hd he => ?_, fun d => ?_⟩
  · show id ∈ x.sources.nextId c :: x.handedOut ↔ ∃ d, (x.sources.bump c).Used d id
    rw [List.mem_cons, h.mem_iff]
    constructor
    · rintro (hid | ⟨d, hd⟩)
      · exact ⟨c, (hgrow c id).mpr (.inr ⟨rfl, hid⟩)⟩
      · exact ⟨d, (hgrow d id).mpr (.inl hd)⟩
    · rintro ⟨d, hd⟩
      rcases (hgrow d id).mp hd with hd | ⟨-, hid⟩
      · exact .inr ⟨d, hd⟩
      · exact .inl hid
  · rcases (hgrow d id).mp hd with hd | ⟨hdc, hid⟩
    · rcases (hgrow e id).mp he with he | ⟨-, rfl⟩
      · exact h.disjoint d e hde id hd he
      · exact hnew ((h.mem_iff _).mpr ⟨d, hd⟩)
    · rcases (hgrow e id).mp he with he | ⟨hec, -⟩
      · subst hid
        exact hnew ((h.mem_iff _).mpr ⟨e, he⟩)
      · exact hde (hdc.trans hec.symm)
  · show firstId d ≤ (x.sources.bump c).nextId d
    by_cases hd : d = c
    · subst hd
      omega
    · rw [nextId_bump_of_ne hd]
      exact h.ordered d

theorem fenceIdInv_init : FenceIdInv init := by
  refine ⟨⟨List.nodup_nil, by simp [init]⟩, fun _ => ⟨fun id => ?_, fun c d _ id hc => ?_,
    fun c => ?_⟩⟩
  · refine ⟨fun h => (by cases h), fun ⟨c, hc⟩ => ?_⟩
    have hnext := nextId_init c
    unfold Used at hc
    have hlt : id < FenceIdSources.init.nextId c := hc.2
    omega
  · have hnext := nextId_init c
    unfold Used at hc
    have hlt : id < FenceIdSources.init.nextId c := hc.2
    omega
  · exact (nextId_init c).ge

/-- A guarded call keeps the invariant. -/
theorem fenceIdInv_step (x : FenceIdRun) (c : FenceIdCall) (h : FenceIdInv x)
    (hG : x.fenceIdGuard c) : FenceIdInv (x.step c) := by
  rcases step_cases x c with ⟨-, -, hstep⟩ | ⟨hsmall, hstep⟩
  · rw [hstep]
    exact ⟨⟨h.unique.distinct, h.unique.inRange⟩, fun habs => by cases habs⟩
  · rw [hstep, handOut]
    split_ifs with hex
    · exact ⟨⟨h.unique.distinct, h.unique.inRange⟩, fun habs => by
        rw [hex] at habs
        cases habs⟩
    have hlive : x.exhausted = false := Bool.not_eq_true _ ▸ hex
    have hacc := h.accounted hlive
    rcases hG with habs | ⟨hsim, hover⟩ | ⟨hmax, hothers⟩
    · exact absurd habs hex
    · exact absurd (hsmall hsim) (Nat.not_le.mpr hover)
    have hnew := (next_notMem_iff hacc).mpr hothers
    refine ⟨⟨List.nodup_cons.mpr ⟨hnew, h.unique.distinct⟩, fun id hid => ?_⟩, fun _ => ?_⟩
    · rcases List.mem_cons.mp hid with rfl | hid
      · exact ⟨(base_le_firstId c).trans (hacc.ordered c), hmax⟩
      · exact h.unique.inRange id hid
    · have hnext := accounted_handOut hacc hmax hnew
      exact ⟨hnext.mem_iff, hnext.disjoint, hnext.ordered⟩

/-- A call that keeps the ids distinct and in the range is guarded. -/
theorem guard_of_unique (x : FenceIdRun) (c : FenceIdCall) (h : FenceIdInv x)
    (hnext : (x.step c).IdsUnique) : x.fenceIdGuard c := by
  by_cases hex : x.exhausted = true
  · exact .inl hex
  have hacc := h.accounted (Bool.not_eq_true _ ▸ hex)
  rcases step_cases x c with ⟨hsim, hover, -⟩ | ⟨-, hstep⟩
  · exact .inr (.inl ⟨hsim, hover⟩)
  · rw [hstep, handOut, if_neg hex] at hnext
    have hnew := (List.nodup_cons.mp hnext.distinct).1
    have hrange := hnext.inRange _ List.mem_cons_self
    exact .inr (.inr ⟨hrange.2, (next_notMem_iff hacc).mp hnew⟩)

/-! ### The law -/

/-- **Uniqueness of simulator fence ids.**  In a run of calls, all ids handed out before exhaustion
is reported are distinct and in the range exactly when each call is guarded. -/
theorem fence_ids_unique_iff (calls : List FenceIdCall) :
    Always step IdsUnique init calls ↔ Guarded step fenceIdGuard init calls :=
  always_iff_guarded fenceIdInv_step (fun _ h => h.unique) guard_of_unique calls fenceIdInv_init

/-- The first simulator id is also the first one of the compute engine. -/
theorem fence_ids_unique_fails :
    ¬Always step IdsUnique init [.sim, .engine .compute] := by
  intro h
  have hdistinct := h.last.distinct
  revert hdistinct
  decide

end FenceIdRun

end UsrLinuxEmu.GpuDriver
