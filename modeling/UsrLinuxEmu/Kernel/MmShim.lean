import Mathlib.Data.List.Basic

/-!
# The VMA tracker (`src/kernel/uvm/mm_shim.cpp`)

A fixed array of address ranges, the used entries first.  A registration looks at the room before it
looks for an entry with the same bounds.

* `UsMmShim` — the entries, with `registerVma`, `unregisterVma` and `findVma`;
* `hasVma_registerVma`, `hasVma_unregisterVma` — the entries after a registration and a removal.
-/

namespace UsrLinuxEmu.Kernel

def usMmShimVmaCapacity : ℕ := 16

def mmEinval : Int := -22
def mmEnospc : Int := -28
def mmEnoent : Int := -2

structure UsMmVma where
  start : UInt64
  stop : UInt64
  flags : UInt64
  deriving DecidableEq

namespace UsMmVma

/-- The entry has these bounds. -/
def isAt (start stop : UInt64) (v : UsMmVma) : Bool := v.start == start && v.stop == stop

def contains (addr : UInt64) (v : UsMmVma) : Bool :=
  decide (v.start ≤ addr) && decide (addr < v.stop)

theorem isAt_iff {start stop : UInt64} {v : UsMmVma} :
    v.isAt start stop = true ↔ v.start = start ∧ v.stop = stop := by
  simp [isAt]

end UsMmVma

/-- The entries below `vma_count`. -/
structure UsMmShim where
  vmas : List UsMmVma

namespace UsMmShim

def init : UsMmShim := ⟨[]⟩

/-- The first entry with these bounds takes the flags. -/
def setFlags (start stop flags : UInt64) : List UsMmVma → List UsMmVma
  | [] => []
  | v :: vs =>
    if v.isAt start stop then { v with flags := flags } :: vs else v :: setFlags start stop flags vs

def registerVma (m : UsMmShim) (start stop flags : UInt64) : Int × UsMmShim :=
  if stop ≤ start then (mmEinval, m)
  else if usMmShimVmaCapacity ≤ m.vmas.length then (mmEnospc, m)
  else if m.vmas.any (UsMmVma.isAt start stop) then (0, ⟨setFlags start stop flags m.vmas⟩)
  else (0, ⟨m.vmas ++ [⟨start, stop, flags⟩]⟩)

def unregisterVma (m : UsMmShim) (start stop : UInt64) : Int × UsMmShim :=
  if m.vmas.any (UsMmVma.isAt start stop) then (0, ⟨m.vmas.eraseP (UsMmVma.isAt start stop)⟩)
  else (mmEnoent, m)

/-- The bounds of the first entry that holds the address. -/
def findVma (m : UsMmShim) (addr : UInt64) : Except Int (UInt64 × UInt64) :=
  match m.vmas.find? (UsMmVma.contains addr) with
  | some v => .ok (v.start, v.stop)
  | none => .error mmEnoent

/-! ### Entries by their bounds -/

def HasVma (m : UsMmShim) (start stop : UInt64) : Prop := ∃ v ∈ m.vmas, v.isAt start stop = true

/-- No two entries have the same bounds, and the flags are 0, as every caller passes them. -/
structure WellFormed (m : UsMmShim) : Prop where
  distinct : m.vmas.Pairwise fun v w => w.isAt v.start v.stop = false
  flags : ∀ v ∈ m.vmas, v.flags = 0

variable {m : UsMmShim}

theorem any_isAt (m : UsMmShim) (start stop : UInt64) :
    m.vmas.any (UsMmVma.isAt start stop) = true ↔ m.HasVma start stop :=
  List.any_eq_true

/-- An address is found exactly when an entry holds it. -/
theorem findVma_isOk (m : UsMmShim) (addr : UInt64) :
    (m.findVma addr).toBool = true ↔
      ∃ start stop, m.HasVma start stop ∧ start ≤ addr ∧ addr < stop := by
  unfold findVma
  constructor
  · intro hok
    cases hfind : m.vmas.find? (UsMmVma.contains addr) with
    | none =>
      rw [hfind] at hok
      cases hok
    | some v =>
      have hcontains := List.find?_some hfind
      rw [UsMmVma.contains, Bool.and_eq_true, decide_eq_true_eq, decide_eq_true_eq] at hcontains
      exact ⟨v.start, v.stop, ⟨v, List.mem_of_find?_eq_some hfind, UsMmVma.isAt_iff.mpr ⟨rfl, rfl⟩⟩,
        hcontains⟩
  · rintro ⟨start, stop, ⟨v, hv, hat⟩, hstart, hstop⟩
    obtain ⟨rfl, rfl⟩ := UsMmVma.isAt_iff.mp hat
    cases hfind : m.vmas.find? (UsMmVma.contains addr) with
    | some w => rfl
    | none =>
      have hnot := List.find?_eq_none.mp hfind v hv
      rw [UsMmVma.contains, decide_eq_true hstart, decide_eq_true hstop] at hnot
      exact absurd rfl hnot

theorem mem_iff (h : m.WellFormed) {v : UsMmVma} :
    v ∈ m.vmas ↔ m.HasVma v.start v.stop ∧ v.flags = 0 := by
  constructor
  · exact fun hv => ⟨⟨v, hv, UsMmVma.isAt_iff.mpr ⟨rfl, rfl⟩⟩, h.flags v hv⟩
  · rintro ⟨⟨w, hw, hat⟩, hflags⟩
    obtain ⟨hstart, hstop⟩ := UsMmVma.isAt_iff.mp hat
    have hwflags := h.flags w hw
    have heq : v = w := by
      cases v
      cases w
      simp_all
    rw [heq]
    exact hw

/-! ### Registration -/

theorem setFlags_zero (start stop : UInt64) {vmas : List UsMmVma} (h : ∀ v ∈ vmas, v.flags = 0) :
    setFlags start stop 0 vmas = vmas := by
  induction vmas with
  | nil => rfl
  | cons v vs ih =>
    have hv : { v with flags := 0 } = v := by
      rw [← h v List.mem_cons_self]
    rw [setFlags, hv, ih fun w hw => h w (List.mem_cons_of_mem v hw), ite_self]

/-- What a registration with flags 0 does. -/
inductive RegisterStep (m : UsMmShim) (start stop : UInt64) : Int × UsMmShim → Prop
  | invalid (h : stop ≤ start) : RegisterStep m start stop (mmEinval, m)
  | full (hlt : start < stop) (h : usMmShimVmaCapacity ≤ m.vmas.length) :
      RegisterStep m start stop (mmEnospc, m)
  | present (hlt : start < stop) (h : m.HasVma start stop) : RegisterStep m start stop (0, m)
  | added (hlt : start < stop) (h : ¬m.HasVma start stop) :
      RegisterStep m start stop (0, ⟨m.vmas ++ [⟨start, stop, 0⟩]⟩)

theorem registerStep (h : m.WellFormed) (start stop : UInt64) :
    RegisterStep m start stop (m.registerVma start stop 0) := by
  unfold registerVma
  split_ifs with hle hfull hany
  · exact .invalid hle
  · exact .full (UInt64.not_le.mp hle) hfull
  · rw [setFlags_zero start stop h.flags]
    exact .present (UInt64.not_le.mp hle) ((any_isAt m start stop).mp hany)
  · exact .added (UInt64.not_le.mp hle) (mt (any_isAt m start stop).mpr hany)

theorem hasVma_append (vmas : List UsMmVma) (start stop start' stop' : UInt64) :
    HasVma ⟨vmas ++ [⟨start, stop, 0⟩]⟩ start' stop' ↔
      HasVma ⟨vmas⟩ start' stop' ∨ (start' = start ∧ stop' = stop) := by
  constructor
  · rintro ⟨v, hv, hat⟩
    rcases List.mem_append.mp hv with hv | hv
    · exact .inl ⟨v, hv, hat⟩
    · rw [List.mem_singleton] at hv
      subst hv
      obtain ⟨hstart, hstop⟩ := UsMmVma.isAt_iff.mp hat
      exact .inr ⟨hstart.symm, hstop.symm⟩
  · rintro (⟨v, hv, hat⟩ | ⟨rfl, rfl⟩)
    · exact ⟨v, List.mem_append_left _ hv, hat⟩
    · exact ⟨_, List.mem_append_right _ (List.mem_singleton_self _),
        UsMmVma.isAt_iff.mpr ⟨rfl, rfl⟩⟩

theorem hasVma_registerVma (h : m.WellFormed) (start stop start' stop' : UInt64) :
    (m.registerVma start stop 0).2.HasVma start' stop' ↔
      m.HasVma start' stop' ∨
        ((m.registerVma start stop 0).1 = 0 ∧ start' = start ∧ stop' = stop) := by
  have hstep := registerStep h start stop
  generalize m.registerVma start stop 0 = r at hstep ⊢
  cases hstep with
  | invalid hle => simp [mmEinval]
  | full hlt hfull => simp [mmEnospc]
  | present hlt hpresent =>
    refine ⟨.inl, ?_⟩
    rintro (hbefore | ⟨-, rfl, rfl⟩)
    · exact hbefore
    · exact hpresent
  | added hlt hnew =>
    rw [hasVma_append]
    exact or_congr Iff.rfl (and_iff_right rfl).symm

theorem registerVma_ok (h : m.WellFormed) {start stop : UInt64} (hlt : start < stop)
    (hroom : (m.registerVma start stop 0).1 ≠ mmEnospc) :
    (m.registerVma start stop 0).1 = 0 := by
  have hstep := registerStep h start stop
  generalize m.registerVma start stop 0 = r at hstep hroom ⊢
  cases hstep with
  | invalid hle => exact absurd hlt (UInt64.not_lt.mpr hle)
  | full hlt hfull => exact absurd rfl hroom
  | present hlt hpresent => rfl
  | added hlt hnew => rfl

theorem WellFormed.registerVma (h : m.WellFormed) (start stop : UInt64) :
    (m.registerVma start stop 0).2.WellFormed := by
  have hstep := registerStep h start stop
  generalize m.registerVma start stop 0 = r at hstep ⊢
  cases hstep with
  | invalid hle => exact h
  | full hlt hfull => exact h
  | present hlt hpresent => exact h
  | added hlt hnew =>
    refine ⟨List.pairwise_append.mpr ⟨h.distinct, List.pairwise_singleton _ _, ?_⟩, ?_⟩
    · intro v hv w hw
      rw [List.mem_singleton] at hw
      subst hw
      refine Bool.eq_false_iff.mpr fun hat => hnew ⟨v, hv, ?_⟩
      obtain ⟨hstart, hstop⟩ := UsMmVma.isAt_iff.mp hat
      exact UsMmVma.isAt_iff.mpr ⟨hstart.symm, hstop.symm⟩
    · intro v hv
      rcases List.mem_append.mp hv with hv | hv
      · exact h.flags v hv
      · rw [List.mem_singleton] at hv
        rw [hv]

/-! ### Removal -/

theorem vmas_unregisterVma (m : UsMmShim) (start stop : UInt64) :
    (m.unregisterVma start stop).2.vmas = m.vmas.eraseP (UsMmVma.isAt start stop) := by
  unfold unregisterVma
  split_ifs with hany
  · rfl
  · refine (List.eraseP_of_forall_not fun v hv hat => hany ?_).symm
    exact (any_isAt m start stop).mpr ⟨v, hv, hat⟩

theorem WellFormed.unregisterVma (h : m.WellFormed) (start stop : UInt64) :
    (m.unregisterVma start stop).2.WellFormed := by
  have hsub : List.Sublist (m.unregisterVma start stop).2.vmas m.vmas := by
    rw [vmas_unregisterVma]
    exact List.eraseP_sublist
  exact ⟨h.distinct.sublist hsub, fun v hv => h.flags v (hsub.subset hv)⟩

theorem mem_eraseP_isAt {vmas : List UsMmVma}
    (h : vmas.Pairwise fun v w => w.isAt v.start v.stop = false) (start stop : UInt64) (v : UsMmVma) :
    v ∈ vmas.eraseP (UsMmVma.isAt start stop) ↔ v ∈ vmas ∧ ¬v.isAt start stop = true := by
  induction vmas with
  | nil => simp
  | cons w ws ih =>
    obtain ⟨hw, hws⟩ := List.pairwise_cons.mp h
    by_cases hat : w.isAt start stop = true
    · obtain ⟨rfl, rfl⟩ := UsMmVma.isAt_iff.mp hat
      rw [List.eraseP_cons_of_pos hat, List.mem_cons]
      constructor
      · intro hv
        exact ⟨.inr hv, Bool.eq_false_iff.mp (hw v hv)⟩
      · rintro ⟨rfl | hv, hnot⟩
        · exact absurd hat hnot
        · exact hv
    · rw [List.eraseP_cons_of_neg hat, List.mem_cons, List.mem_cons, ih hws]
      constructor
      · rintro (rfl | ⟨hv, hnot⟩)
        · exact ⟨.inl rfl, hat⟩
        · exact ⟨.inr hv, hnot⟩
      · rintro ⟨rfl | hv, hnot⟩
        · exact .inl rfl
        · exact .inr ⟨hv, hnot⟩

/-- With distinct bounds, a removal takes the one entry with its bounds. -/
theorem hasVma_unregisterVma (h : m.WellFormed) (start stop start' stop' : UInt64) :
    (m.unregisterVma start stop).2.HasVma start' stop' ↔
      m.HasVma start' stop' ∧ ¬(start' = start ∧ stop' = stop) := by
  unfold HasVma
  simp only [vmas_unregisterVma, mem_eraseP_isAt h.distinct, UsMmVma.isAt_iff]
  constructor
  · rintro ⟨v, ⟨hv, hnot⟩, rfl, rfl⟩
    exact ⟨⟨v, hv, rfl, rfl⟩, hnot⟩
  · rintro ⟨⟨v, hv, rfl, rfl⟩, hnot⟩
    exact ⟨v, ⟨hv, hnot⟩, rfl, rfl⟩

end UsMmShim

end UsrLinuxEmu.Kernel
