import Mathlib.Algebra.Order.Ring.Nat
import Mathlib.Data.List.Forall2
import Mathlib.Data.UInt
import Mathlib.Logic.Function.Basic
import Mathlib.Tactic.SplitIfs

/-!
# Faulting a range of addresses (`src/kernel/uvm/hmm_range.cpp`)

`hmm_range_fault` divides the length of the range by the page size to know how many entries to
write, and looks for each page at the start of the range plus a multiple of the page size.

* `PageTables` — the simulated page tables, with the call that fills them;
* `hmmRangeFault` — the entries that the call writes;
* `FaultCovers` — an entry for each page of the range, in order, with its frame;
* `pageCount_eq_iff` — when the division counts the pages;
* `hmm_range_fault_iff` — the tables and ranges for which the entries are right.
-/

namespace UsrLinuxEmu.Kernel

/-! ### Page tables -/

/-- The frames of one address space, by address. -/
abbrev PageTable := UInt64 → Option UInt64

/-- `g_page_tables`; an address space is known by the address of its `mm_struct`. -/
abbrev PageTables := ℕ → Option PageTable

namespace PageTables

def empty : PageTables := fun _ => none

/-- The table is made when it is not there. -/
def simPageTableAdd (ts : PageTables) (mm : Option ℕ) (addr pfn : UInt64) : PageTables :=
  match mm with
  | some mm =>
    Function.update ts mm (some (Function.update ((ts mm).getD fun _ => none) addr (some pfn)))
  | none => ts

/-- The frame that is recorded at an address. -/
def find (ts : PageTables) (mm : Option ℕ) (addr : UInt64) : Option UInt64 :=
  (mm.bind ts).bind fun table => table addr

end PageTables

/-! ### The call -/

def hmmPageSize : UInt64 := 4096

def hmmPfnValid : UInt64 := (1 : UInt64) <<< 63
def hmmPfnWrite : UInt64 := (1 : UInt64) <<< 62
def hmmPfnShift : UInt64 := 12
def hmmPfnMask : UInt64 := 0x000000FFFFFFFFFF

def hmmEinval : Int := -22
def hmmEbusy : Int := -16

structure MmuIntervalNotifier where
  mm : Option ℕ
  eventSeq : UInt64

structure HmmRange where
  notifier : Option MmuIntervalNotifier
  notifierSeq : UInt64
  start : UInt64
  stop : UInt64
  defaultFlags : UInt64

namespace HmmRange

def npages (r : HmmRange) : UInt64 :=
  if (r.stop - r.start) / hmmPageSize = 0 then 1 else (r.stop - r.start) / hmmPageSize

/-- The entry for what has been found. -/
def entry (r : HmmRange) (found : Option UInt64) : UInt64 :=
  match found with
  | some pfn => pfn <<< hmmPfnShift ||| hmmPfnValid ||| hmmPfnWrite
  | none => r.defaultFlags

/-- The address at which the `i`-th page is looked up. -/
def addr (r : HmmRange) (i : ℕ) : UInt64 := r.start + UInt64.ofNat i * hmmPageSize

end HmmRange

/-- The entries that are written to `hmm_pfns`, from the first on. -/
def hmmRangeFault (ts : PageTables) (range : Option HmmRange) : Except Int (List UInt64) :=
  match range with
  | none => .error hmmEinval
  | some r =>
    match r.notifier with
    | none => .error hmmEinval
    | some mni =>
      if r.stop ≤ r.start then .error hmmEinval
      else if r.notifierSeq ≠ mni.eventSeq then .error hmmEbusy
      else .ok ((List.range r.npages.toNat).map fun i => r.entry (ts.find mni.mm (r.addr i)))

/-! ### The property -/

def IsValid (entry : UInt64) : Prop := entry &&& hmmPfnValid ≠ 0

def entryPfn (entry : UInt64) : UInt64 := (entry >>> hmmPfnShift) &&& hmmPfnMask

/-- The entry says that the page is mapped, if it is, and where. -/
def EntryFor (frame : Option UInt64) (entry : UInt64) : Prop :=
  (IsValid entry ↔ frame ≠ none) ∧ ∀ pfn, frame = some pfn → entryPfn entry = pfn

namespace HmmRange

def firstPage (r : HmmRange) : ℕ := r.start.toNat / 4096

/-- The number of pages that the range touches. -/
def pageCount (r : HmmRange) : ℕ := (r.stop.toNat - 1) / 4096 + 1 - r.firstPage

/-- The pages that the range touches, in order. -/
def pages (r : HmmRange) : List ℕ := List.range' r.firstPage r.pageCount

end HmmRange

/-- The frame that is recorded at the address of the page. -/
def PageTables.frame (ts : PageTables) (mm : Option ℕ) (page : ℕ) : Option UInt64 :=
  ts.find mm (UInt64.ofNat (page * 4096))

/-- A fault that succeeds writes the entry of each page that the range touches, in order. -/
def FaultCovers (ts : PageTables) (r : HmmRange) : Prop :=
  ∀ mni, r.notifier = some mni → ∀ pfns, hmmRangeFault ts (some r) = .ok pfns →
    List.Forall₂ (fun page entry => EntryFor (ts.frame mni.mm page) entry) r.pages pfns

/-! ### The condition -/

/-- Both ends are aligned, or the range lies in one page. -/
def WholeOrSingle (r : HmmRange) : Prop :=
  (r.start.toNat % 4096 = 0 ∧ r.stop.toNat % 4096 = 0) ∨
    r.stop.toNat ≤ (r.firstPage + 1) * 4096

/-- What has been found is the frame of the page, which has 40 bits.  For a page that is not found
the default flags are right. -/
def FoundRight (r : HmmRange) (found frame : Option UInt64) : Prop :=
  match found, frame with
  | some pfn, some pfn' => pfn &&& hmmPfnMask = pfn'
  | some _, none => False
  | none, _ => EntryFor frame r.defaultFlags

/-- The division counts the pages, and each is found where its address is. -/
def CoversWhen (ts : PageTables) (r : HmmRange) : Prop :=
  ∀ mni, r.notifier = some mni → r.start < r.stop → r.notifierSeq = mni.eventSeq →
    WholeOrSingle r ∧ ∀ i, i < r.pageCount →
      FoundRight r (ts.find mni.mm (r.addr i)) (ts.frame mni.mm (r.firstPage + i))

/-! ### Entries -/

theorem and_hmmPfnMask (x : UInt64) : (x &&& hmmPfnMask).toNat = x.toNat % 2 ^ 40 := by
  rw [UInt64.toNat_and, show hmmPfnMask.toNat = 2 ^ 40 - 1 from rfl,
    Nat.and_two_pow_sub_one_eq_mod]

theorem isValid_mapped (pfn : UInt64) :
    IsValid (pfn <<< hmmPfnShift ||| hmmPfnValid ||| hmmPfnWrite) := by
  intro h
  have hbit := congrArg (fun x : UInt64 => x.toBitVec.getLsbD 63) h
  simp [hmmPfnShift, hmmPfnValid, hmmPfnWrite] at hbit

/-- The flags lie above the bits of the frame. -/
theorem entryPfn_mapped (pfn : UInt64) :
    entryPfn (pfn <<< hmmPfnShift ||| hmmPfnValid ||| hmmPfnWrite) = pfn &&& hmmPfnMask := by
  have hvalid : (hmmPfnValid >>> hmmPfnShift).toNat % 2 ^ 40 = 0 := by decide
  have hwrite : (hmmPfnWrite >>> hmmPfnShift).toNat % 2 ^ 40 = 0 := by decide
  rw [entryPfn, ← UInt64.toNat_inj, and_hmmPfnMask, and_hmmPfnMask, UInt64.shiftRight_or,
    UInt64.shiftRight_or, UInt64.toNat_or, UInt64.toNat_or, Nat.or_mod_two_pow,
    Nat.or_mod_two_pow, hvalid, hwrite, Nat.or_zero, Nat.or_zero, UInt64.toNat_shiftRight,
    UInt64.toNat_shiftLeft, show hmmPfnShift.toNat % 64 = 12 from rfl, Nat.shiftRight_eq_div_pow,
    Nat.shiftLeft_eq]
  omega

/-- The entry is right exactly when what has been found is. -/
theorem entryFor_iff (r : HmmRange) (found frame : Option UInt64) :
    EntryFor frame (r.entry found) ↔ FoundRight r found frame := by
  cases found with
  | none => exact Iff.rfl
  | some pfn =>
    rw [EntryFor, HmmRange.entry, entryPfn_mapped, iff_true_left (isValid_mapped pfn)]
    cases frame with
    | none => simp [FoundRight]
    | some pfn' => simp [FoundRight]

theorem forall₂_range_map {β : Type*} (R : ℕ → β → Prop) (a n m : ℕ) (f : ℕ → β) :
    List.Forall₂ R (List.range' a n) ((List.range m).map f) ↔
      n = m ∧ ∀ i, i < n → R (a + i) (f i) := by
  rw [List.forall₂_iff_get]
  simp only [List.length_range', List.length_map, List.length_range, List.get_eq_getElem,
    List.getElem_range', List.getElem_map, List.getElem_range, Nat.one_mul]
  refine and_congr_right fun hnm => forall_congr' fun i => ?_
  exact ⟨fun h hi => h hi (hnm ▸ hi), fun h hi _ => h hi⟩

/-! ### Counting -/

theorem npages_toNat (r : HmmRange) (h : r.start < r.stop) :
    r.npages.toNat = max 1 ((r.stop.toNat - r.start.toNat) / 4096) := by
  have hdiv : ((r.stop - r.start) / hmmPageSize).toNat =
      (r.stop.toNat - r.start.toNat) / 4096 := by
    rw [UInt64.toNat_div, UInt64.toNat_sub_of_le _ _ (UInt64.le_of_lt h)]
    rfl
  unfold HmmRange.npages
  split_ifs with hzero
  · rw [hzero] at hdiv
    rw [← hdiv]
    rfl
  · have hpos : ((r.stop - r.start) / hmmPageSize).toNat ≠ 0 := fun heq =>
      hzero (UInt64.toNat_inj.mp heq)
    rw [hdiv] at hpos ⊢
    omega

/-- **The count.**  The division counts the pages of a range whose ends are aligned, or that lies in
one page, and of no other. -/
theorem pageCount_eq_iff (r : HmmRange) (h : r.start < r.stop) :
    r.pageCount = r.npages.toNat ↔ WholeOrSingle r := by
  rw [npages_toNat r h, WholeOrSingle, HmmRange.pageCount, HmmRange.firstPage]
  have hlt := UInt64.lt_iff_toNat_lt.mp h
  omega

/-- Between aligned ends each page is looked up at its address. -/
theorem addr_aligned (r : HmmRange) (h : r.start.toNat % 4096 = 0) (i : ℕ) :
    r.addr i = UInt64.ofNat ((r.firstPage + i) * 4096) := by
  rw [HmmRange.addr, HmmRange.firstPage, ← UInt64.toNat_inj, UInt64.toNat_add, UInt64.toNat_mul,
    UInt64.toNat_ofNat', UInt64.toNat_ofNat', show hmmPageSize.toNat = 4096 from rfl]
  omega

/-! ### The fault -/

theorem hmmRangeFault_ok_iff (ts : PageTables) (r : HmmRange) {mni : MmuIntervalNotifier}
    (hmni : r.notifier = some mni) (pfns : List UInt64) :
    hmmRangeFault ts (some r) = .ok pfns ↔ r.start < r.stop ∧ r.notifierSeq = mni.eventSeq ∧
      pfns = (List.range r.npages.toNat).map fun i => r.entry (ts.find mni.mm (r.addr i)) := by
  unfold hmmRangeFault
  simp only [hmni]
  split_ifs with hrange hseq
  · exact iff_of_false nofun fun hc => absurd hrange (UInt64.not_le.mpr hc.1)
  · exact iff_of_false nofun fun hc => hseq hc.2.1
  · rw [Except.ok.injEq]
    exact ⟨fun heq => ⟨UInt64.not_le.mp hrange, not_not.mp hseq, heq.symm⟩, fun hc => hc.2.2.symm⟩

/-- The entries are those of the pages exactly when the count is right and so is what is found. -/
theorem covers_entries_iff (ts : PageTables) (r : HmmRange) (mm : Option ℕ) :
    List.Forall₂ (fun page entry => EntryFor (ts.frame mm page) entry) r.pages
        ((List.range r.npages.toNat).map fun i => r.entry (ts.find mm (r.addr i))) ↔
      r.pageCount = r.npages.toNat ∧ ∀ i, i < r.pageCount →
        FoundRight r (ts.find mm (r.addr i)) (ts.frame mm (r.firstPage + i)) := by
  rw [HmmRange.pages, forall₂_range_map]
  simp only [entryFor_iff]

theorem coversWhen_faultCovers {ts : PageTables} {r : HmmRange} (h : CoversWhen ts r) :
    FaultCovers ts r := by
  intro mni hmni pfns hok
  obtain ⟨hlt, hseq, rfl⟩ := (hmmRangeFault_ok_iff ts r hmni pfns).mp hok
  obtain ⟨hwhole, hright⟩ := h mni hmni hlt hseq
  exact (covers_entries_iff ts r mni.mm).mpr ⟨(pageCount_eq_iff r hlt).mpr hwhole, hright⟩

/-- **Faults.**  For every table and range, the entries of a fault that succeeds are those of the
pages that the range touches exactly when the ends are aligned or the range lies in one page, and
for each page the frame that is found is right. -/
theorem hmm_range_fault_iff (ts : PageTables) (r : HmmRange) :
    FaultCovers ts r ↔ CoversWhen ts r := by
  refine ⟨fun h mni hmni hlt hseq => ?_, coversWhen_faultCovers⟩
  have hcovers := h mni hmni _ ((hmmRangeFault_ok_iff ts r hmni _).mpr ⟨hlt, hseq, rfl⟩)
  obtain ⟨hcount, hright⟩ := (covers_entries_iff ts r mni.mm).mp hcovers
  exact ⟨(pageCount_eq_iff r hlt).mp hcount, hright⟩

/-- Between aligned ends the fault covers the range, when the frames have 40 bits and the default
flags do not say that a page is mapped. -/
theorem faultCovers_of_aligned (ts : PageTables) (r : HmmRange) (hstart : r.start.toNat % 4096 = 0)
    (hstop : r.stop.toNat % 4096 = 0) (hdefault : ¬IsValid r.defaultFlags)
    (hframes : ∀ mm addr pfn, ts.find mm addr = some pfn → pfn.toNat < 2 ^ 40) :
    FaultCovers ts r := by
  refine coversWhen_faultCovers fun mni _ _ _ => ⟨.inl ⟨hstart, hstop⟩, fun i _ => ?_⟩
  rw [addr_aligned r hstart, PageTables.frame]
  cases hfound : ts.find mni.mm (UInt64.ofNat ((r.firstPage + i) * 4096)) with
  | none => exact ⟨iff_of_false hdefault fun hc => hc rfl, nofun⟩
  | some pfn =>
    show pfn &&& hmmPfnMask = pfn
    rw [← UInt64.toNat_inj, and_hmmPfnMask, Nat.mod_eq_of_lt (hframes _ _ _ hfound)]

/-- The second page of a range that ends in it has no entry. -/
theorem hmm_range_fault_fails :
    ¬∀ (ts : PageTables) (r : HmmRange), FaultCovers ts r := by
  intro h
  have hcovers := h
    ((PageTables.empty.simPageTableAdd (some 1) 0x1000 0xAA).simPageTableAdd (some 1) 0x2000 0xBB)
    ⟨some ⟨some 1, 1⟩, 1, 0x1000, 0x2100, 0⟩ ⟨some 1, 1⟩ rfl _ rfl
  exact absurd hcovers.length_eq (by decide)

end UsrLinuxEmu.Kernel
