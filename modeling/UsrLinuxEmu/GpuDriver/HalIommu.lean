import Mathlib.Algebra.Order.Ring.Nat
import Mathlib.Data.UInt
import Mathlib.Logic.Function.Basic
import Mathlib.Tactic.SplitIfs
import UsrLinuxEmu.Transition.Run

/-!
# The IOMMU mappings of the HAL (`hal/hal_user.cpp`, `drv/kfd/kfd_mmu.c`)

The HAL keeps the size of each mapping under its start address.  A map request is checked against
the start addresses alone, and an unmap request of size zero takes a mapping of any size.

* `HalIommu` — the mappings, with the requests of the HAL and of the KFD;
* `RangesApart` — the live ranges do not wrap around, and share no address;
* `RequestExact` — what a request that fails, and one that unmaps, does to the ranges;
* `iommu_mappings_iff` — the runs along which both hold.
-/

namespace UsrLinuxEmu.GpuDriver

open UsrLinuxEmu.Transition

/-! ### Requests -/

/-- `iommu_mappings`; `halOps`: the KFD has the HAL's operations. -/
structure HalIommu where
  iommuMappings : UInt64 → Option UInt64
  halOps : Bool

def iommuOk : Int := 0
def iommuEnoent : Int := -2
def iommuEexist : Int := -17
def iommuEnodev : Int := -19
def iommuEinval : Int := -22

theorem iommuEnodev_ne : iommuEnodev ≠ 0 := by decide

theorem iommuEinval_ne : iommuEinval ≠ 0 := by decide

namespace HalIommu

/-- No mapping is live. -/
def empty (halOps : Bool) : HalIommu := ⟨fun _ => none, halOps⟩

def userIommuMap (s : HalIommu) (va size : UInt64) (_domainId : UInt32) : Int × HalIommu :=
  if size = 0 then (iommuEinval, s)
  else if (s.iommuMappings va).isSome then (iommuEexist, s)
  else (iommuOk, { s with iommuMappings := Function.update s.iommuMappings va (some size) })

def userIommuUnmap (s : HalIommu) (va size : UInt64) : Int × HalIommu :=
  match s.iommuMappings va with
  | none => (iommuEnoent, s)
  | some mapped =>
    if size ≠ 0 ∧ mapped ≠ size then (iommuEinval, s)
    else (iommuOk, { s with iommuMappings := Function.update s.iommuMappings va none })

/-- `process`: the pointer to the process is not null. -/
def kfdMmuMap (s : HalIommu) (process : Bool) (va size : UInt64) (domainId : UInt32) :
    Int × HalIommu :=
  if process = false then (iommuEinval, s)
  else if size = 0 then (iommuEinval, s)
  else if s.halOps = false then (iommuEnodev, s)
  else s.userIommuMap va size domainId

def kfdMmuUnmap (s : HalIommu) (process : Bool) (va size : UInt64) : Int × HalIommu :=
  if process = false then (iommuEinval, s)
  else if size = 0 then (iommuEinval, s)
  else if s.halOps = false then (iommuEnodev, s)
  else s.userIommuUnmap va size

end HalIommu

inductive IommuRequest where
  | iommuMap (va size : UInt64) (domainId : UInt32)
  | iommuUnmap (va size : UInt64)
  | kfdMmuMap (process : Bool) (va size : UInt64) (domainId : UInt32)
  | kfdMmuUnmap (process : Bool) (va size : UInt64)

namespace IommuRequest

def perform (s : HalIommu) : IommuRequest → Int × HalIommu
  | iommuMap va size domainId => s.userIommuMap va size domainId
  | iommuUnmap va size => s.userIommuUnmap va size
  | kfdMmuMap process va size domainId => s.kfdMmuMap process va size domainId
  | kfdMmuUnmap process va size => s.kfdMmuUnmap process va size

/-- The range that the request is to unmap. -/
def unmaps : IommuRequest → Option (UInt64 × UInt64)
  | iommuUnmap va size | kfdMmuUnmap _ va size => some (va, size)
  | iommuMap _ _ _ | kfdMmuMap _ _ _ _ => none

end IommuRequest

def iommuStep (s : HalIommu) (r : IommuRequest) : HalIommu := (r.perform s).2

/-! ### The property -/

/-- Two ranges, given by their starts and sizes, share no address. -/
def ApartFrom (va size va' size' : UInt64) : Prop :=
  va.toNat + size.toNat ≤ va'.toNat ∨ va'.toNat + size'.toNat ≤ va.toNat

/-- The live ranges. -/
structure RangesApart (s : HalIommu) : Prop where
  inOrder : ∀ va size, s.iommuMappings va = some size → va.toNat + size.toNat ≤ 2 ^ 64
  apart : ∀ va size va' size', va ≠ va' → s.iommuMappings va = some size →
    s.iommuMappings va' = some size' → ApartFrom va size va' size'

/-- Of the live ranges, this one is gone. -/
def Unmaps (s t : HalIommu) (va size : UInt64) : Prop :=
  s.iommuMappings va = some size ∧
    ∀ va' size', t.iommuMappings va' = some size' ↔ va' ≠ va ∧ s.iommuMappings va' = some size'

/-- A request that fails changes nothing; one that unmaps removes its range, and no other. -/
def RequestExact (s : HalIommu) (r : IommuRequest) : Prop :=
  ((r.perform s).1 ≠ 0 → (r.perform s).2 = s) ∧
    ∀ va size, r.unmaps = some (va, size) → (r.perform s).1 = 0 →
      Unmaps s (r.perform s).2 va size

/-! ### The condition -/

/-- The range does not wrap around, and shares no address with a live one. -/
def FreeRange (s : HalIommu) (va size : UInt64) : Prop :=
  va.toNat + size.toNat ≤ 2 ^ 64 ∧
    ∀ va' size', s.iommuMappings va' = some size' → ApartFrom va size va' size'

/-- A range is mapped only where it is free, and size zero unmaps nothing. -/
def requestGuard (s : HalIommu) : IommuRequest → Prop
  | .iommuMap va size _ => size ≠ 0 → s.iommuMappings va = none → FreeRange s va size
  | .iommuUnmap va size => size = 0 → s.iommuMappings va = none
  | .kfdMmuMap process va size _ =>
    process = true → s.halOps = true → size ≠ 0 → s.iommuMappings va = none → FreeRange s va size
  | .kfdMmuUnmap _ _ _ => True

/-! ### One request -/

section Requests

variable {s : HalIommu} {va size : UInt64}

theorem ApartFrom.symm {va' size' : UInt64} (h : ApartFrom va size va' size') :
    ApartFrom va' size' va size := Or.symm h

/-- A range comes to those that are apart. -/
theorem rangesApart_insert_iff (h : RangesApart s) (hnew : s.iommuMappings va = none) :
    RangesApart { s with iommuMappings := Function.update s.iommuMappings va (some size) } ↔
      FreeRange s va size := by
  constructor
  · intro hnext
    refine ⟨hnext.inOrder va size (Function.update_self ..), fun va' size' hlive => ?_⟩
    have hne : va' ≠ va := by
      rintro rfl
      cases hnew.symm.trans hlive
    refine hnext.apart va size va' size' hne.symm (Function.update_self ..) ?_
    show Function.update s.iommuMappings va (some size) va' = some size'
    rw [Function.update_of_ne hne]
    exact hlive
  · intro ⟨horder, hfree⟩
    have hcases : ∀ {va₁ size₁}, Function.update s.iommuMappings va (some size) va₁ = some size₁ →
        va₁ = va ∧ size₁ = size ∨ va₁ ≠ va ∧ s.iommuMappings va₁ = some size₁ := by
      intro va₁ size₁ hlive
      by_cases heq : va₁ = va
      · rw [heq, Function.update_self] at hlive
        exact .inl ⟨heq, (Option.some.inj hlive).symm⟩
      · rw [Function.update_of_ne heq] at hlive
        exact .inr ⟨heq, hlive⟩
    constructor
    · intro va₁ size₁ hlive
      rcases hcases hlive with ⟨rfl, rfl⟩ | ⟨-, hold⟩
      · exact horder
      · exact h.inOrder va₁ size₁ hold
    · intro va₁ size₁ va₂ size₂ hne hlive₁ hlive₂
      rcases hcases hlive₁ with ⟨rfl, rfl⟩ | ⟨-, hold₁⟩
      · rcases hcases hlive₂ with ⟨rfl, -⟩ | ⟨-, hold₂⟩
        · exact absurd rfl hne
        · exact hfree va₂ size₂ hold₂
      · rcases hcases hlive₂ with ⟨rfl, rfl⟩ | ⟨-, hold₂⟩
        · exact (hfree va₁ size₁ hold₁).symm
        · exact h.apart va₁ size₁ va₂ size₂ hne hold₁ hold₂

theorem RangesApart.erase (h : RangesApart s) (va : UInt64) :
    RangesApart { s with iommuMappings := Function.update s.iommuMappings va none } := by
  have hlive : ∀ {va₁ size₁}, Function.update s.iommuMappings va none va₁ = some size₁ →
      s.iommuMappings va₁ = some size₁ := by
    intro va₁ size₁ hnext
    by_cases heq : va₁ = va
    · rw [heq, Function.update_self] at hnext
      cases hnext
    · rw [Function.update_of_ne heq] at hnext
      exact hnext
  constructor
  · intro va₁ size₁ h₁
    exact h.inOrder va₁ size₁ (hlive h₁)
  · intro va₁ size₁ va₂ size₂ hne h₁ h₂
    exact h.apart va₁ size₁ va₂ size₂ hne (hlive h₁) (hlive h₂)

theorem rangesApart_map_iff (h : RangesApart s) (domainId : UInt32) :
    RangesApart (s.userIommuMap va size domainId).2 ↔
      (size ≠ 0 → s.iommuMappings va = none → FreeRange s va size) := by
  rw [HalIommu.userIommuMap]
  by_cases hzero : size = 0
  · rw [if_pos hzero]
    exact iff_of_true h fun hne => absurd hzero hne
  rw [if_neg hzero]
  by_cases hold : (s.iommuMappings va).isSome
  · rw [if_pos hold]
    refine iff_of_true h fun _ hnone => ?_
    rw [hnone] at hold
    cases hold
  · have hnone := Option.not_isSome_iff_eq_none.mp hold
    rw [if_neg hold, rangesApart_insert_iff h hnone]
    exact ⟨fun hfree _ _ => hfree, fun hguard => hguard hzero hnone⟩

theorem rangesApart_unmap (h : RangesApart s) (va size : UInt64) :
    RangesApart (s.userIommuUnmap va size).2 := by
  rw [HalIommu.userIommuUnmap]
  cases s.iommuMappings va with
  | none => exact h
  | some mapped =>
    show RangesApart (if _ then _ else _ : Int × HalIommu).2
    split_ifs
    · exact h
    · exact h.erase va

/-- What a map request that fails leaves. -/
theorem userIommuMap_failed (s : HalIommu) (va size : UInt64) (domainId : UInt32)
    (hfails : (s.userIommuMap va size domainId).1 ≠ 0) :
    (s.userIommuMap va size domainId).2 = s := by
  rw [HalIommu.userIommuMap] at hfails ⊢
  split_ifs at hfails ⊢
  · rfl
  · rfl
  · exact absurd rfl hfails

theorem userIommuUnmap_failed (s : HalIommu) (va size : UInt64)
    (hfails : (s.userIommuUnmap va size).1 ≠ 0) : (s.userIommuUnmap va size).2 = s := by
  rw [HalIommu.userIommuUnmap] at hfails ⊢
  cases hlive : s.iommuMappings va with
  | none => rfl
  | some mapped =>
    rw [hlive] at hfails
    simp only at hfails ⊢
    split_ifs at hfails ⊢
    · rfl
    · exact absurd rfl hfails

/-- A request removes its range, unless it names size zero and finds a mapping. -/
theorem unmaps_iff (hnonempty : s.iommuMappings va ≠ some 0) :
    ((s.userIommuUnmap va size).1 = 0 → Unmaps s (s.userIommuUnmap va size).2 va size) ↔
      (size = 0 → s.iommuMappings va = none) := by
  rw [HalIommu.userIommuUnmap]
  cases hlive : s.iommuMappings va with
  | none =>
    refine iff_of_true (fun hok => ?_) fun _ => rfl
    exact absurd (show iommuEnoent = 0 from hok) (by decide)
  | some mapped =>
    rw [hlive] at hnonempty
    have hmapped : mapped ≠ 0 := fun heq => hnonempty (congrArg some heq)
    by_cases hmismatch : size ≠ 0 ∧ mapped ≠ size
    · simp only [if_pos hmismatch]
      refine iff_of_true (fun hok => ?_) fun hzero => absurd hzero hmismatch.1
      exact absurd hok (by decide)
    · simp only [if_neg hmismatch]
      constructor
      · intro hexact hzero
        have hsize := (hexact rfl).1
        rw [hlive, hzero] at hsize
        exact absurd (Option.some.inj hsize) hmapped
      · intro hzero _
        have hne : size ≠ 0 := fun heq => nomatch hzero heq
        have hsame : mapped = size := by
          by_contra hdiff
          exact hmismatch ⟨hne, hdiff⟩
        refine ⟨hsame ▸ hlive, fun va' size' => ?_⟩
        show Function.update s.iommuMappings va none va' = some size' ↔ _
        by_cases heq : va' = va
        · rw [heq, Function.update_self]
          exact iff_of_false nofun fun hc => hc.1 rfl
        · rw [Function.update_of_ne heq]
          exact (and_iff_right heq).symm

end Requests

/-! ### Runs -/

structure IommuInv (s : HalIommu) : Prop where
  apart : RangesApart s
  nonempty : ∀ va, s.iommuMappings va ≠ some 0

section Steps

variable {s : HalIommu}

/-- A request of the KFD fails, or is that of the HAL. -/
theorem kfdMmuMap_cases (s : HalIommu) (process : Bool) (va size : UInt64) (domainId : UInt32) :
    ((s.kfdMmuMap process va size domainId).1 ≠ 0 ∧
        (s.kfdMmuMap process va size domainId).2 = s ∧
          ¬(process = true ∧ s.halOps = true ∧ size ≠ 0)) ∨
      process = true ∧ s.halOps = true ∧
        s.kfdMmuMap process va size domainId = s.userIommuMap va size domainId := by
  rw [HalIommu.kfdMmuMap]
  split_ifs with hprocess hzero hops
  · refine .inl ⟨iommuEinval_ne, rfl, fun hc => ?_⟩
    exact absurd (hprocess.symm.trans hc.1) Bool.false_ne_true
  · exact .inl ⟨iommuEinval_ne, rfl, fun hc => hc.2.2 hzero⟩
  · refine .inl ⟨iommuEnodev_ne, rfl, fun hc => ?_⟩
    exact absurd (hops.symm.trans hc.2.1) Bool.false_ne_true
  · exact .inr ⟨Bool.eq_true_of_not_eq_false hprocess, Bool.eq_true_of_not_eq_false hops, rfl⟩

theorem kfdMmuUnmap_cases (s : HalIommu) (process : Bool) (va size : UInt64) :
    ((s.kfdMmuUnmap process va size).1 ≠ 0 ∧ (s.kfdMmuUnmap process va size).2 = s) ∨
      size ≠ 0 ∧ s.kfdMmuUnmap process va size = s.userIommuUnmap va size := by
  rw [HalIommu.kfdMmuUnmap]
  split_ifs with hprocess hzero hops
  · exact .inl ⟨iommuEinval_ne, rfl⟩
  · exact .inl ⟨iommuEinval_ne, rfl⟩
  · exact .inl ⟨iommuEnodev_ne, rfl⟩
  · exact .inr ⟨hzero, rfl⟩

theorem nonempty_userIommuMap (h : ∀ va, s.iommuMappings va ≠ some 0) (va size : UInt64)
    (domainId : UInt32) :
    ∀ va', (s.userIommuMap va size domainId).2.iommuMappings va' ≠ some 0 := by
  intro va'
  rw [HalIommu.userIommuMap]
  split_ifs with hzero
  · exact h va'
  · exact h va'
  · show Function.update s.iommuMappings va (some size) va' ≠ some 0
    by_cases heq : va' = va
    · rw [heq, Function.update_self]
      exact fun hsome => hzero (Option.some.inj hsome)
    · rw [Function.update_of_ne heq]
      exact h va'

theorem nonempty_userIommuUnmap (h : ∀ va, s.iommuMappings va ≠ some 0) (va size : UInt64) :
    ∀ va', (s.userIommuUnmap va size).2.iommuMappings va' ≠ some 0 := by
  intro va'
  rw [HalIommu.userIommuUnmap]
  cases s.iommuMappings va with
  | none => exact h va'
  | some mapped =>
    show (if _ then _ else _ : Int × HalIommu).2.iommuMappings va' ≠ some 0
    split_ifs
    · exact h va'
    · show Function.update s.iommuMappings va none va' ≠ some 0
      by_cases heq : va' = va
      · rw [heq, Function.update_self]
        nofun
      · rw [Function.update_of_ne heq]
        exact h va'

theorem IommuInv.map (h : IommuInv s) {va size : UInt64} (domainId : UInt32)
    (hfree : size ≠ 0 → s.iommuMappings va = none → FreeRange s va size) :
    IommuInv (s.userIommuMap va size domainId).2 :=
  ⟨(rangesApart_map_iff h.apart domainId).mpr hfree,
    nonempty_userIommuMap h.nonempty va size domainId⟩

theorem IommuInv.unmap (h : IommuInv s) (va size : UInt64) :
    IommuInv (s.userIommuUnmap va size).2 :=
  ⟨rangesApart_unmap h.apart va size, nonempty_userIommuUnmap h.nonempty va size⟩

theorem iommuInv_empty (halOps : Bool) : IommuInv (.empty halOps) := by
  refine ⟨⟨?_, ?_⟩, nofun⟩
  · nofun
  · nofun

theorem iommuInv_step (s : HalIommu) (r : IommuRequest) (h : IommuInv s)
    (hG : requestGuard s r) : IommuInv (iommuStep s r) := by
  cases r with
  | iommuMap va size domainId => exact h.map domainId hG
  | iommuUnmap va size => exact h.unmap va size
  | kfdMmuMap process va size domainId =>
    show IommuInv (s.kfdMmuMap process va size domainId).2
    rcases kfdMmuMap_cases s process va size domainId with ⟨-, hsame, -⟩ | ⟨hprocess, hops, heq⟩
    · rw [hsame]
      exact h
    · rw [heq]
      exact h.map domainId (hG hprocess hops)
  | kfdMmuUnmap process va size =>
    show IommuInv (s.kfdMmuUnmap process va size).2
    rcases kfdMmuUnmap_cases s process va size with ⟨-, hsame⟩ | ⟨-, heq⟩
    · rw [hsame]
      exact h
    · rw [heq]
      exact h.unmap va size

theorem unmap_exact (h : IommuInv s) {va size : UInt64}
    (hG : size = 0 → s.iommuMappings va = none) : RequestExact s (.iommuUnmap va size) := by
  refine ⟨userIommuUnmap_failed s va size, fun va' size' hunmaps => ?_⟩
  obtain ⟨rfl, rfl⟩ := Prod.mk.inj (Option.some.inj hunmaps)
  exact (unmaps_iff (h.nonempty va)).mpr hG

/-- A request that meets the condition does as it says. -/
theorem requestExact_of_guard (s : HalIommu) (r : IommuRequest) (h : IommuInv s)
    (hG : requestGuard s r) : RequestExact s r := by
  cases r with
  | iommuMap va size domainId => exact ⟨userIommuMap_failed s va size domainId, nofun⟩
  | iommuUnmap va size => exact unmap_exact h hG
  | kfdMmuMap process va size domainId =>
    refine ⟨?_, nofun⟩
    rw [IommuRequest.perform]
    rcases kfdMmuMap_cases s process va size domainId with ⟨-, hsame, -⟩ | ⟨-, -, heq⟩
    · exact fun _ => hsame
    · rw [heq]
      exact userIommuMap_failed s va size domainId
  | kfdMmuUnmap process va size =>
    rw [RequestExact, IommuRequest.perform]
    rcases kfdMmuUnmap_cases s process va size with ⟨hcode, hsame⟩ | ⟨hsize, heq⟩
    · exact ⟨fun _ => hsame, fun _ _ _ hok => absurd hok hcode⟩
    · rw [heq]
      exact unmap_exact h fun hzero => absurd hzero hsize

/-- A request that keeps the ranges apart and does as it says meets the condition. -/
theorem requestGuard_of_exact (s : HalIommu) (r : IommuRequest) (h : IommuInv s)
    (hnext : RangesApart (iommuStep s r)) (hexact : RequestExact s r) : requestGuard s r := by
  cases r with
  | iommuMap va size domainId => exact (rangesApart_map_iff h.apart domainId).mp hnext
  | iommuUnmap va size => exact (unmaps_iff (h.nonempty va)).mp (hexact.2 va size rfl)
  | kfdMmuMap process va size domainId =>
    intro hprocess hops hsize
    replace hnext : RangesApart (s.kfdMmuMap process va size domainId).2 := hnext
    rcases kfdMmuMap_cases s process va size domainId with ⟨-, -, hnot⟩ | ⟨-, -, heq⟩
    · exact absurd ⟨hprocess, hops, hsize⟩ hnot
    · rw [heq] at hnext
      exact (rangesApart_map_iff h.apart domainId).mp hnext hsize
  | kfdMmuUnmap process va size => trivial

end Steps

/-- **IOMMU mappings.**  Along a run the live ranges stay apart, and requests do as they say,
exactly when a range is mapped only where it is free, and no unmap of size zero finds one. -/
theorem iommu_mappings_iff (halOps : Bool) (rs : List IommuRequest) :
    (Always iommuStep RangesApart (.empty halOps) rs ∧
        Guarded iommuStep RequestExact (.empty halOps) rs) ↔
      Guarded iommuStep requestGuard (.empty halOps) rs :=
  always_guarded_iff iommuInv_step (fun _ h => h.apart) requestExact_of_guard
    requestGuard_of_exact rs (iommuInv_empty halOps)

/-- Two mappings share a page. -/
theorem iommu_mappings_fail :
    ¬∀ (halOps : Bool) (rs : List IommuRequest),
      Always iommuStep RangesApart (.empty halOps) rs ∧
        Guarded iommuStep RequestExact (.empty halOps) rs := by
  intro h
  have hlast := (h false [.iommuMap 0x1000 0x2000 0, .iommuMap 0x2000 0x1000 0]).1.last
  have hapart := hlast.apart 0x1000 0x2000 0x2000 0x1000 (by decide) rfl rfl
  exact absurd hapart (by unfold ApartFrom; decide)

end UsrLinuxEmu.GpuDriver
