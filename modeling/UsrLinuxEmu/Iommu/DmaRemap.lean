import Mathlib.Algebra.Order.Ring.Nat
import Mathlib.Data.Nat.Bitwise
import Mathlib.Logic.Function.Basic
import Mathlib.Tactic.SplitIfs
import UsrLinuxEmu.Transition.Run

/-!
# DMA remapping and ATS translation (`plugins/iommu_driver`)

A domain maps pages of 4 KiB; `iova_to_phys` is an unordered map whose keys are the page addresses.
`iommu_iova_to_phys` looks for the address it is given among the keys and answers 0 when it finds none,
and an ATS translation request takes 0 for an unmapped page.

* `PageTable` — what a domain is for: frames for page numbers, and the translation of any address;
* `IommuDomainState` — the map, with `iommuMap`, `iommuUnmap`, `iommuIovaToPhys` and
  `atsHandleTranslationRequest`; the flush hook and the notifiers that an unmap runs do not change it;
* `represents_run` — the map follows the page table;
* `translation_iff` — when the two lookups answer what the page table says.
-/

namespace UsrLinuxEmu.Iommu

open UsrLinuxEmu.Transition

/-! ### Page tables -/

/-- The frame of each mapped page. -/
abbrev PageTable := ℕ → Option ℕ

namespace PageTable

def pageSize : ℕ := 4096

def empty : PageTable := fun _ => none

/-- A page that is mapped already keeps its frame. -/
def map (t : PageTable) (page frame : ℕ) : PageTable :=
  if t page = none then Function.update t page (some frame) else t

def unmap (t : PageTable) (page : ℕ) : PageTable := Function.update t page none

/-- The frame of the address's page, and the offset in it. -/
def translate (t : PageTable) (addr : ℕ) : Option ℕ :=
  (t (addr / pageSize)).map fun frame => frame * pageSize + addr % pageSize

end PageTable

/-! ### The domain -/

def iommuErrOk : Int := 0
def iommuErrEinval : Int := -22
def iommuErrEremoteio : Int := -121
def iommuErrEnokey : Int := -126

def iommuPageSize : UInt64 := (1 : UInt64) <<< 12
def iommuPageMask : UInt64 := iommuPageSize - 1

structure IommuDomainState where
  iovaToPhys : UInt64 → Option UInt64

structure AtsTranslationRequest where
  iova : UInt64
  pasid : UInt8
  deriving DecidableEq, Repr

inductive AtsCompletionStatus where
  | success
  | unmapped
  | invalid
  deriving DecidableEq, Repr

structure AtsTranslationCompletion where
  translatedAddress : UInt64
  completionStatus : AtsCompletionStatus
  deriving DecidableEq, Repr

namespace IommuDomainState

def empty : IommuDomainState := ⟨fun _ => none⟩

/-- The protection bits are not looked at. -/
def iommuMap (s : IommuDomainState) (iova paddr size : UInt64) : Int × IommuDomainState :=
  if size ≠ iommuPageSize then (iommuErrEinval, s)
  else if iova &&& iommuPageMask ≠ 0 then (iommuErrEinval, s)
  else if paddr &&& iommuPageMask ≠ 0 then (iommuErrEinval, s)
  else if s.iovaToPhys iova ≠ none then (iommuErrEremoteio, s)
  else (iommuErrOk, ⟨Function.update s.iovaToPhys iova (some paddr)⟩)

/-- The size unmapped, or an error. -/
def iommuUnmap (s : IommuDomainState) (iova size : UInt64) : Int × IommuDomainState :=
  if size ≠ iommuPageSize then (iommuErrEinval, s)
  else if s.iovaToPhys iova = none then (iommuErrEnokey, s)
  else (size.toNat, ⟨Function.update s.iovaToPhys iova none⟩)

def iommuIovaToPhys (s : IommuDomainState) (iova : UInt64) : UInt64 :=
  (s.iovaToPhys iova).getD 0

def atsHandleTranslationRequest (s : IommuDomainState) (req : AtsTranslationRequest) :
    AtsTranslationCompletion :=
  if req.pasid ≠ 0 then ⟨0, .invalid⟩
  else
    let paddr := s.iommuIovaToPhys req.iova
    if paddr = 0 then ⟨0, .unmapped⟩ else ⟨paddr, .success⟩

end IommuDomainState

/-! ### Runs -/

inductive DomainOp where
  | map (iova paddr size : UInt64)
  | unmap (iova size : UInt64)
  deriving DecidableEq, Repr

def IommuDomainState.step (s : IommuDomainState) : DomainOp → IommuDomainState
  | .map iova paddr size => (s.iommuMap iova paddr size).2
  | .unmap iova size => (s.iommuUnmap iova size).2

/-- An address at the start of a page. -/
def Aligned (addr : UInt64) : Prop := addr.toNat % PageTable.pageSize = 0

instance : DecidablePred Aligned := fun addr =>
  inferInstanceAs (Decidable (addr.toNat % PageTable.pageSize = 0))

/-- The operations on the page table: mapping a page to a page, and unmapping one. -/
def PageTable.step (t : PageTable) : DomainOp → PageTable
  | .map iova paddr size =>
    if size.toNat = pageSize ∧ Aligned iova ∧ Aligned paddr then
      t.map (iova.toNat / pageSize) (paddr.toNat / pageSize)
    else t
  | .unmap iova size =>
    if size.toNat = pageSize ∧ Aligned iova then t.unmap (iova.toNat / pageSize) else t

/-- The answer of `iommu_iova_to_phys`; 0 stands for none. -/
def physResult (r : UInt64) : Option ℕ := if r = 0 then none else some r.toNat

/-- The answer to an ATS translation request. -/
def atsResult (c : AtsTranslationCompletion) : Option ℕ :=
  if c.completionStatus = .success then some c.translatedAddress.toNat else none

/-- Both lookups answer what the page table says. -/
def Translates (s : IommuDomainState) (t : PageTable) (req : AtsTranslationRequest) : Prop :=
  physResult (s.iommuIovaToPhys req.iova) = t.translate req.iova.toNat ∧
    atsResult (s.atsHandleTranslationRequest req) = t.translate req.iova.toNat

/-! ### The map follows the page table -/

open PageTable

theorem and_pageMask (addr : UInt64) : addr &&& iommuPageMask = 0 ↔ Aligned addr := by
  have hmask : iommuPageMask.toNat = 2 ^ 12 - 1 := rfl
  have hsize : pageSize = 2 ^ 12 := rfl
  rw [← UInt64.toNat_inj, UInt64.toNat_and, hmask, Nat.and_two_pow_sub_one_eq_mod, Aligned, hsize]
  rfl

/-- The map has the mapped pages' addresses as its keys. -/
def Represents (s : IommuDomainState) (t : PageTable) : Prop :=
  ∀ iova, (s.iovaToPhys iova).map UInt64.toNat =
    if Aligned iova then (t (iova.toNat / pageSize)).map (· * pageSize) else none

theorem Aligned.page_mul {addr : UInt64} (h : Aligned addr) :
    addr.toNat / pageSize * pageSize = addr.toNat :=
  Nat.div_mul_cancel (Nat.dvd_of_mod_eq_zero h)

/-- Aligned addresses of one page are equal. -/
theorem Aligned.eq_of_page {a b : UInt64} (ha : Aligned a) (hb : Aligned b)
    (h : a.toNat / pageSize = b.toNat / pageSize) : a = b := by
  refine UInt64.toNat_inj.mp ?_
  calc a.toNat = a.toNat / pageSize * pageSize := ha.page_mul.symm
    _ = b.toNat / pageSize * pageSize := by rw [h]
    _ = b.toNat := hb.page_mul

theorem size_eq_iff (size : UInt64) : size = iommuPageSize ↔ size.toNat = pageSize :=
  UInt64.toNat_inj.symm

/-- A page is a key of the map exactly when it is mapped. -/
theorem Represents.isNone {s : IommuDomainState} {t : PageTable} (h : Represents s t)
    {iova : UInt64} (ha : Aligned iova) :
    s.iovaToPhys iova = none ↔ t (iova.toNat / pageSize) = none := by
  have hlookup := h iova
  rw [if_pos ha] at hlookup
  rw [← Option.map_eq_none_iff (f := UInt64.toNat), hlookup, Option.map_eq_none_iff]

/-- A key changed in the map, and its page in the table. -/
theorem Represents.update {s : IommuDomainState} {t : PageTable} (h : Represents s t)
    {iova : UInt64} (ha : Aligned iova) {phys : Option UInt64} {frame : Option ℕ}
    (hphys : phys.map UInt64.toNat = frame.map (· * pageSize)) :
    Represents ⟨Function.update s.iovaToPhys iova phys⟩
      (Function.update t (iova.toNat / pageSize) frame) := by
  intro x
  show (Function.update s.iovaToPhys iova phys x).map UInt64.toNat = _
  by_cases hx : x = iova
  · subst hx
    rw [Function.update_self, if_pos ha, Function.update_self, hphys]
  · rw [Function.update_of_ne hx, h x]
    split_ifs with hax
    · have hpage : x.toNat / pageSize ≠ iova.toNat / pageSize :=
        fun heq => hx (hax.eq_of_page ha heq)
      rw [Function.update_of_ne hpage]
    · rfl

theorem represents_step {s : IommuDomainState} {t : PageTable} (h : Represents s t)
    (op : DomainOp) : Represents (s.step op) (t.step op) := by
  cases op with
  | map iova paddr size =>
    simp only [IommuDomainState.step, IommuDomainState.iommuMap, PageTable.step, ne_eq,
      size_eq_iff, and_pageMask]
    by_cases hsize : size.toNat = pageSize
    swap
    · rw [if_pos hsize, if_neg fun hc => hsize hc.1]
      exact h
    by_cases ha : Aligned iova
    swap
    · rw [if_neg (not_not.mpr hsize), if_pos ha, if_neg fun hc => ha hc.2.1]
      exact h
    by_cases hp : Aligned paddr
    swap
    · rw [if_neg (not_not.mpr hsize), if_neg (not_not.mpr ha), if_pos hp,
        if_neg fun hc => hp hc.2.2]
      exact h
    have hall : size.toNat = pageSize ∧ Aligned iova ∧ Aligned paddr := ⟨hsize, ha, hp⟩
    rw [if_neg (not_not.mpr hsize), if_neg (not_not.mpr ha), if_neg (not_not.mpr hp),
      if_pos hall, PageTable.map]
    by_cases hnone : s.iovaToPhys iova = none
    · rw [if_neg (not_not.mpr hnone), if_pos ((h.isNone ha).mp hnone)]
      refine h.update ha ?_
      rw [Option.map_some, Option.map_some, hp.page_mul]
    · rw [if_pos hnone, if_neg (fun hc => hnone ((h.isNone ha).mpr hc))]
      exact h
  | unmap iova size =>
    simp only [IommuDomainState.step, IommuDomainState.iommuUnmap, PageTable.step, ne_eq,
      size_eq_iff]
    by_cases hsize : size.toNat = pageSize
    swap
    · rw [if_pos hsize, if_neg fun hc => hsize hc.1]
      exact h
    rw [if_neg (not_not.mpr hsize)]
    by_cases ha : Aligned iova
    · have hall : size.toNat = pageSize ∧ Aligned iova := ⟨hsize, ha⟩
      rw [if_pos hall, PageTable.unmap]
      by_cases hnone : s.iovaToPhys iova = none
      · rw [if_pos hnone, ← (h.isNone ha).mp hnone, Function.update_eq_self]
        exact h
      · rw [if_neg hnone]
        exact h.update ha rfl
    · -- an address inside a page is not among the keys
      have hnone : s.iovaToPhys iova = none := by
        have hlookup := h iova
        rw [if_neg ha] at hlookup
        exact Option.map_eq_none_iff.mp hlookup
      rw [if_pos hnone, if_neg fun hc => ha hc.2]
      exact h

/-- **Refinement.**  After the same operations the map represents the page table. -/
theorem represents_run (ops : List DomainOp) :
    Represents (run IommuDomainState.step .empty ops) (run PageTable.step .empty ops) := by
  have hgeneral : ∀ (s : IommuDomainState) (t : PageTable), Represents s t →
      Represents (run IommuDomainState.step s ops) (run PageTable.step t ops) := by
    induction ops with
    | nil => exact fun s t h => h
    | cons op ops ih => exact fun s t h => ih _ _ (represents_step h op)
  refine hgeneral _ _ fun iova => ?_
  split_ifs
  · rfl
  · rfl

/-! ### Translation -/

theorem atsResult_eq {s : IommuDomainState} {req : AtsTranslationRequest} (hpasid : req.pasid = 0) :
    atsResult (s.atsHandleTranslationRequest req) = physResult (s.iommuIovaToPhys req.iova) := by
  simp only [IommuDomainState.atsHandleTranslationRequest, hpasid, ne_eq, not_true_eq_false,
    if_false, physResult]
  split_ifs
  · rfl
  · rfl

/-- The lookup of an address. -/
theorem physResult_eq {s : IommuDomainState} {t : PageTable} (h : Represents s t) (iova : UInt64) :
    physResult (s.iommuIovaToPhys iova) =
      if Aligned iova ∧ t (iova.toNat / pageSize) ≠ some 0 then t.translate iova.toNat
      else none := by
  have hlookup := h iova
  unfold physResult IommuDomainState.iommuIovaToPhys
  by_cases ha : Aligned iova
  · rw [if_pos ha] at hlookup
    have hoffset : iova.toNat % pageSize = 0 := ha
    rw [PageTable.translate, hoffset]
    cases hphys : s.iovaToPhys iova with
    | none =>
      rw [hphys] at hlookup
      have hpage := Option.map_eq_none_iff.mp hlookup.symm
      rw [hpage]
      simp
    | some p =>
      rw [hphys] at hlookup
      obtain ⟨frame, hpage, hframe⟩ := Option.map_eq_some_iff.mp hlookup.symm
      have hpos : 0 < pageSize := by decide
      rw [hpage, Option.getD_some]
      by_cases hzero : frame = 0
      · subst hzero
        have hp : p = 0 := by
          refine UInt64.toNat_inj.mp ?_
          rw [← hframe, Nat.zero_mul]
          rfl
        rw [if_pos hp, if_neg fun hc => hc.2 rfl]
      · have hp : p ≠ 0 := by
          rintro rfl
          exact hzero ((Nat.mul_eq_zero.mp hframe).resolve_right hpos.ne')
        rw [if_neg hp, if_pos ⟨ha, by simpa using hzero⟩, Option.map_some, Nat.add_zero, hframe]
  · rw [if_neg ha] at hlookup
    have hzero : (none : Option UInt64).getD 0 = 0 := rfl
    have hnot : ¬(Aligned iova ∧ t (iova.toNat / pageSize) ≠ some 0) := fun hc => ha hc.1
    rw [Option.map_eq_none_iff.mp hlookup, if_pos hzero, if_neg hnot]

/-- **Translation.**  After any maps and unmaps, both lookups of an address answer what the page table
says exactly when its page is unmapped, or the address is that of the page and the frame is not
frame 0. -/
theorem translation_iff (ops : List DomainOp) (req : AtsTranslationRequest)
    (hpasid : req.pasid = 0) :
    Translates (run IommuDomainState.step .empty ops) (run PageTable.step .empty ops) req ↔
      run PageTable.step .empty ops (req.iova.toNat / pageSize) = none ∨
        (Aligned req.iova ∧
          run PageTable.step .empty ops (req.iova.toNat / pageSize) ≠ some 0) := by
  have hrep := represents_run ops
  unfold Translates
  rw [atsResult_eq hpasid, and_self, physResult_eq hrep]
  split_ifs with hc
  · exact iff_of_true rfl (.inr hc)
  · rw [or_iff_left hc, PageTable.translate, eq_comm, Option.map_eq_none_iff]

/-- A page mapped twice and looked up at its address. -/
theorem translation_page :
    Translates
      (run IommuDomainState.step .empty [.map 0x1000 0x100000 4096, .map 0x1000 0x200000 4096])
      (run PageTable.step .empty [.map 0x1000 0x100000 4096, .map 0x1000 0x200000 4096])
      ⟨0x1000, 0⟩ :=
  (translation_iff _ _ rfl).mpr (by decide)

/-- An address inside a mapped page, and a page mapped to frame 0. -/
theorem translation_fails :
    ¬Translates (run IommuDomainState.step .empty [.map 0x1000 0x100000 4096])
        (run PageTable.step .empty [.map 0x1000 0x100000 4096]) ⟨0x1234, 0⟩ ∧
      ¬Translates (run IommuDomainState.step .empty [.map 0x1000 0 4096])
        (run PageTable.step .empty [.map 0x1000 0 4096]) ⟨0x1000, 0⟩ := by
  unfold Translates
  decide

end UsrLinuxEmu.Iommu
