import Mathlib.Data.List.FinRange
import UsrLinuxEmu.GpuDriver.HqdWindow
import UsrLinuxEmu.Layout.Pages
import UsrLinuxEmu.Transition.Simulation

/-!
# Mappings of the BARs (`sim/vram_store.cpp`, `sim/bar_sim.cpp`, `compat/io.cpp`)

The mappings of a BAR share one backing, which has the size of the first request; `iounmap` takes it
from the BAR, whoever else has a mapping, and calls `munmap` with size zero.

* `BarStore` — the six BARs and the memory, with the calls and the register accesses;
* `MappingsValid` — every live mapping lies in the backing of its BAR;
* `CallLaw` — the last `iounmap` releases the backing, and a register access stays inside it;
* `bar_mappings_iff` — the runs along which both hold.
-/

namespace UsrLinuxEmu.GpuDriver

open UsrLinuxEmu.Layout UsrLinuxEmu.Transition

/-! ### The calls -/

def barPageSize : ℕ := 4096

/-- `backing`: a null pointer is `none`. -/
structure PciBarSim where
  physBase : UInt64
  size : UInt64
  backing : Option ℕ

/-- `pages`: the pages that are mapped; `memory`: what they hold. -/
structure BarStore where
  bars : Fin 6 → PciBarSim
  pages : PageMap
  memory : Memory
  hqdPool : Memory

/-- `sizeof(g_hqd_pool)`. -/
def hqdPoolSize : ℕ := 32 * mqdSize

namespace BarStore

/-- The first BAR with the property. -/
def firstBar (s : BarStore) (q : PciBarSim → Bool) : Option (Fin 6) :=
  (List.finRange 6).find? fun i => q (s.bars i)

def barAt (s : BarStore) (physAddr : UInt64) : Option (Fin 6) :=
  s.firstBar fun bar => bar.physBase = physAddr

def barBackedBy (s : BarStore) (addr : Option ℕ) : Option (Fin 6) :=
  s.firstBar fun bar => bar.backing = addr

def setBar (s : BarStore) (i : Fin 6) (bar : PciBarSim) : BarStore :=
  { s with bars := Function.update s.bars i bar }

@[simp] theorem setBar_self (s : BarStore) (i : Fin 6) (bar : PciBarSim) :
    (s.setBar i bar).bars i = bar := Function.update_self ..

theorem setBar_of_ne (s : BarStore) {i j : Fin 6} (bar : PciBarSim) (h : j ≠ i) :
    (s.setBar i bar).bars j = s.bars j := Function.update_of_ne h ..

/-- Anonymous memory at `p`, which holds zeroes. -/
def mapAt (s : BarStore) (p : ℕ) (size : UInt64) : BarStore :=
  { s with
    pages := mapPages barPageSize p size.toNat s.pages
    memory := fun a =>
      if p ≤ a ∧ a < p + regionBytes barPageSize size.toNat then 0 else s.memory a }

/-- `EINVAL` for size zero and inside a page. -/
def munmap (s : BarStore) (addr : Option ℕ) (size : UInt64) : BarStore :=
  if size = 0 ∨ ¬barPageSize ∣ addr.getD 0 then s
  else { s with pages := unmapPages barPageSize (addr.getD 0) size.toNat s.pages }

theorem munmap_zero (s : BarStore) (addr : Option ℕ) : s.munmap addr 0 = s := if_pos (.inl rfl)

def barIoremap (s : BarStore) (os : Mmap barPageSize) (physAddr size : UInt64) :
    Option ℕ × BarStore :=
  match s.barAt physAddr with
  | none => (none, s)
  | some i =>
    match (s.bars i).backing with
    | some p => (some p, s)
    | none =>
      match os.run s.pages size.toNat with
      -- the size is set, whether there is memory or not
      | none => (none, s.setBar i { s.bars i with size := size, backing := none })
      | some p =>
        (some p, (s.mapAt p size).setBar i { s.bars i with size := size, backing := some p })

def barIounmap (s : BarStore) (addr : Option ℕ) (size : UInt64) : BarStore :=
  match s.barBackedBy addr with
  | none => s
  | some i => (s.munmap addr size).setBar i { s.bars i with size := 0, backing := none }

def ioremap (s : BarStore) (os : Mmap barPageSize) (physAddr size : UInt64) :
    Option ℕ × BarStore :=
  s.barIoremap os physAddr size

def iounmap (s : BarStore) (addr : Option ℕ) : BarStore := s.barIounmap addr 0

/-- The mapping through which the registers outside the HQD window are reached. -/
def bar0Backing (s : BarStore) (os : Mmap barPageSize) : Option ℕ × BarStore :=
  s.barIoremap os 0 0x8000

/-- The pointer to a register; past the end of the address space it wraps around. -/
def busAddr (p : ℕ) (offset : UInt64) : ℕ := (p + offset.toNat) % 2 ^ 64

def simBar0Writel (s : BarStore) (os : Mmap barPageSize) (offset : UInt64) (value : UInt32) :
    BarStore :=
  if isHqdOffset offset then
    { s with hqdPool := (Bar0.simBar0Writel ⟨s.hqdPool, s.memory⟩ offset value).hqdPool }
  else
    match s.bar0Backing os with
    | (none, s) => s
    | (some p, s) => { s with memory := storeLe s.memory (busAddr p offset) 4 value.toNat }

def simBar0Readl (s : BarStore) (os : Mmap barPageSize) (offset : UInt64) : UInt32 × BarStore :=
  if isHqdOffset offset then (Bar0.simBar0Readl ⟨s.hqdPool, s.memory⟩ offset, s)
  else
    match s.bar0Backing os with
    | (none, s) => (0, s)
    | (some p, s) => (UInt32.ofNat (loadLe s.memory (busAddr p offset) 4), s)

end BarStore

/-- `os` answers the request for memory that the call may make. -/
inductive BarCall where
  | ioremap (os : Mmap barPageSize) (physAddr size : UInt64)
  | iounmap (addr : Option ℕ)
  | writel (os : Mmap barPageSize) (offset : UInt64) (value : UInt32)
  | readl (os : Mmap barPageSize) (offset : UInt64)

def BarStore.call (s : BarStore) : BarCall → BarStore
  | .ioremap os physAddr size => (s.ioremap os physAddr size).2
  | .iounmap addr => s.iounmap addr
  | .writel os offset value => s.simBar0Writel os offset value
  | .readl os offset => (s.simBar0Readl os offset).2

/-! ### The property -/

/-- What `ioremap` has returned: a mapping of `size` bytes at `addr`. -/
structure BarMapping where
  bar : Fin 6
  addr : ℕ
  size : UInt64

/-- The mappings that have not been unmapped. -/
def noteMapping (live : List BarMapping) (s : BarStore) : BarCall → List BarMapping
  | .ioremap os physAddr size =>
    match s.barAt physAddr, (s.ioremap os physAddr size).1 with
    | some i, some p => ⟨i, p, size⟩ :: live
    | _, _ => live
  | .iounmap addr => live.eraseP fun m => some m.addr = addr
  | .writel _ _ _ | .readl _ _ => live

abbrev observedBar : List BarMapping × BarStore → BarCall → List BarMapping × BarStore :=
  observed BarStore.call noteMapping

/-- The bytes lie in the backing of the BAR, which is at `p`, and are mapped. -/
structure InBacking (s : BarStore) (i : Fin 6) (p start length : ℕ) : Prop where
  current : (s.bars i).backing = some p
  room : start + length ≤ regionBytes barPageSize (s.bars i).size.toNat
  mapped : Backed barPageSize s.pages (p + start) length

def MappingsValid (x : List BarMapping × BarStore) : Prop :=
  ∀ m ∈ x.1, InBacking x.2 m.bar m.addr 0 m.size.toNat

/-- A register of the HQD window lies in its `MQD`, the others in the backing. -/
def AccessInside (s : BarStore) (os : Mmap barPageSize) (offset : UInt64) : Prop :=
  if isHqdOffset offset then
    ∀ mqd reg, hqdForOffset offset = some (mqd, reg) →
      mqd + mqdSize ≤ hqdPoolSize ∧ reg.toNat + 4 ≤ mqdSize
  else
    ∀ i p, s.barAt 0 = some i → (s.bar0Backing os).1 = some p →
      InBacking (s.bar0Backing os).2 i p offset.toNat 4

/-- When no mapping is left, the whole backing is released; every register access stays inside. -/
def CallLaw (x : List BarMapping × BarStore) : BarCall → Prop
  | .ioremap _ _ _ => True
  | .iounmap addr =>
    ∀ m ∈ x.1, some m.addr = addr →
      (∀ m' ∈ noteMapping x.1 x.2 (.iounmap addr), some m'.addr ≠ addr) →
        Released barPageSize (x.2.iounmap addr).pages m.addr
          (regionBytes barPageSize (x.2.bars m.bar).size.toNat)
  | .writel os offset _ | .readl os offset => AccessInside x.2 os offset

/-! ### The condition -/

/-- The register lies in the backing that the BAR has, or in the one it would get. -/
def RegisterFits (s : BarStore) (os : Mmap barPageSize) (offset : UInt64) : Prop :=
  ∀ i, s.barAt 0 = some i →
    match (s.bars i).backing with
    | some _ => offset.toNat + 4 ≤ regionBytes barPageSize (s.bars i).size.toNat
    | none => os.run s.pages 0x8000 ≠ none → offset.toNat + 4 ≤ 0x8000

/-- A backing is large enough for the later requests, and none is unmapped that has a mapping. -/
def barGuard (x : List BarMapping × BarStore) : BarCall → Prop
  | .ioremap _ physAddr size =>
    ∀ i p, x.2.barAt physAddr = some i → (x.2.bars i).backing = some p →
      size.toNat ≤ regionBytes barPageSize (x.2.bars i).size.toNat
  | .iounmap addr => ∀ m ∈ x.1, some m.addr ≠ addr
  | .writel os offset _ | .readl os offset =>
    isHqdOffset offset = false → RegisterFits x.2 os offset

/-! ### The backings -/

theorem barPageSize_pos : 0 < barPageSize := by decide

/-- The backings of the BARs are mapped, and no two BARs share one. -/
structure BackingsMapped (s : BarStore) : Prop where
  aligned : ∀ i p, (s.bars i).backing = some p → barPageSize ∣ p
  nonempty : ∀ i p, (s.bars i).backing = some p → 0 < (s.bars i).size.toNat
  mapped : ∀ i p, (s.bars i).backing = some p →
    ∀ page, InRegion barPageSize p (s.bars i).size.toNat page → s.pages page = true
  own : ∀ i j p, (s.bars i).backing = some p → (s.bars j).backing = some p → i = j

/-- What holds along the run. -/
structure BarInv (x : List BarMapping × BarStore) : Prop where
  backings : BackingsMapped x.2
  valid : MappingsValid x

section Backings

variable {s t : BarStore} {i j : Fin 6} {p q start length : ℕ} {addr : Option ℕ}
  {os : Mmap barPageSize} {physAddr size offset : UInt64}

theorem BackingsMapped.congr (h : BackingsMapped s) (hbars : t.bars = s.bars)
    (hpages : t.pages = s.pages) : BackingsMapped t := by
  obtain ⟨haligned, hnonempty, hmapped, hown⟩ := h
  constructor <;> rw [hbars]
  · exact haligned
  · exact hnonempty
  · rw [hpages]
    exact hmapped
  · exact hown

/-- The backing of a BAR has room for the bytes: then they are mapped. -/
theorem BackingsMapped.inBacking_iff (h : BackingsMapped s) (hp : (s.bars i).backing = some p) :
    InBacking s i p start length ↔
      start + length ≤ regionBytes barPageSize (s.bars i).size.toNat := by
  constructor
  · exact InBacking.room
  · intro hroom
    exact ⟨hp, hroom, backed_of_region barPageSize_pos (h.aligned i p hp) (h.mapped i p hp) hroom⟩

/-- A BAR that stays as it is keeps its mappings, when pages are mapped besides. -/
theorem InBacking.frame (h : InBacking s i p start length) (hbar : t.bars i = s.bars i)
    (hpages : ∀ page, s.pages page = true → t.pages page = true) :
    InBacking t i p start length := by
  obtain ⟨hcurrent, hroom, hmapped⟩ := h
  refine ⟨?_, ?_, fun b hle hlt => hpages _ (hmapped b hle hlt)⟩
  · rw [hbar]
    exact hcurrent
  · rw [hbar]
    exact hroom

theorem backing_of_barBackedBy (h : s.barBackedBy addr = some i) : (s.bars i).backing = addr := by
  have hfound := List.find?_some h
  exact of_decide_eq_true hfound

theorem exists_barBackedBy (h : (s.bars i).backing = addr) : ∃ j, s.barBackedBy addr = some j := by
  cases hfind : s.barBackedBy addr with
  | some j => exact ⟨j, rfl⟩
  | none =>
    have hnot := List.find?_eq_none.mp hfind i (List.mem_finRange i)
    exact absurd (decide_eq_true h) hnot

/-! ### `ioremap` -/

/-- What a request makes of the BAR at its address. -/
inductive Remap (s : BarStore) (os : Mmap barPageSize) (i : Fin 6) (size : UInt64) :
    Option ℕ × BarStore → Prop
  | shared {p : ℕ} (hbacking : (s.bars i).backing = some p) : Remap s os i size (some p, s)
  | refused (hbacking : (s.bars i).backing = none) (hos : os.run s.pages size.toNat = none) :
    Remap s os i size (none, s.setBar i { s.bars i with size := size, backing := none })
  | fresh {p : ℕ} (hbacking : (s.bars i).backing = none)
    (hos : os.run s.pages size.toNat = some p) :
    Remap s os i size
      (some p, (s.mapAt p size).setBar i { s.bars i with size := size, backing := some p })

theorem barIoremap_none (h : s.barAt physAddr = none) :
    s.barIoremap os physAddr size = (none, s) := by
  rw [BarStore.barIoremap, h]

theorem barIoremap_remap (h : s.barAt physAddr = some i) :
    Remap s os i size (s.barIoremap os physAddr size) := by
  rw [BarStore.barIoremap, h]
  cases hbacking : (s.bars i).backing with
  | some p =>
    simp only [hbacking]
    exact .shared hbacking
  | none =>
    cases hos : os.run s.pages size.toNat with
    | none =>
      simp only [hbacking]
      exact .refused hbacking hos
    | some p =>
      simp only [hbacking]
      exact .fresh hbacking hos

namespace Remap

variable {r : Option ℕ × BarStore}

theorem backing (h : Remap s os i size r) (hp : r.1 = some p) :
    (r.2.bars i).backing = some p := by
  cases h with
  | shared hbacking => exact hbacking.trans hp
  | refused hbacking hos => cases hp
  | fresh hbacking hos =>
    show (Function.update s.bars i _ i).backing = some p
    rw [Function.update_self]
    exact hp

/-- The mappings that there are stay. -/
theorem inBacking (h : Remap s os i size r) (hin : InBacking s j q start length) :
    InBacking r.2 j q start length := by
  have hother : (s.bars i).backing = none → j ≠ i := by
    rintro hbacking rfl
    rw [hin.current] at hbacking
    cases hbacking
  cases h with
  | shared hbacking => exact hin
  | refused hbacking hos =>
    exact hin.frame (Function.update_of_ne (hother hbacking) ..) fun page hpage => hpage
  | fresh hbacking hos =>
    exact hin.frame (Function.update_of_ne (hother hbacking) ..) fun page hpage =>
      mapPages_of_mapped hpage

/-- A new backing lies where nothing was mapped, so that it is no other BAR's. -/
theorem fresh_ne (h : BackingsMapped s) (hos : os.run s.pages size.toNat = some p) (j : Fin 6) :
    (s.bars j).backing ≠ some p := by
  intro hj
  have hold := h.mapped j p hj _ (inRegion_first barPageSize_pos (h.nonempty j p hj))
  have hnew := os.fresh _ _ p hos _ (inRegion_first barPageSize_pos (os.nonempty _ _ p hos))
  rw [hold] at hnew
  cases hnew

end Remap

/-- A BAR without a backing. -/
theorem BackingsMapped.setNone (h : BackingsMapped s) (i : Fin 6) (bar : PciBarSim)
    (hbar : bar.backing = none) : BackingsMapped (s.setBar i bar) := by
  have hsame : ∀ j p, ((s.setBar i bar).bars j).backing = some p →
      (s.setBar i bar).bars j = s.bars j := by
    intro j p hj
    by_cases hji : j = i
    · rw [hji, BarStore.setBar_self, hbar] at hj
      cases hj
    · exact s.setBar_of_ne bar hji
  constructor
  · intro j p hj
    rw [hsame j p hj] at hj
    exact h.aligned j p hj
  · intro j p hj
    have hsize := hsame j p hj
    rw [hsize] at hj ⊢
    exact h.nonempty j p hj
  · intro j p hj
    have hsize := hsame j p hj
    rw [hsize] at hj ⊢
    exact h.mapped j p hj
  · intro j k p hj hk
    rw [hsame j p hj] at hj
    rw [hsame k p hk] at hk
    exact h.own j k p hj hk

/-- A BAR with a new backing. -/
theorem BackingsMapped.setFresh (h : BackingsMapped s) (hos : os.run s.pages size.toNat = some p)
    (i : Fin 6) (bar : PciBarSim) (hsize : bar.size = size) (hbacking : bar.backing = some p) :
    BackingsMapped ((s.mapAt p size).setBar i bar) := by
  have hother : ∀ j, j ≠ i → ((s.mapAt p size).setBar i bar).bars j = s.bars j := fun j hji =>
    (s.mapAt p size).setBar_of_ne bar hji
  constructor
  · intro j q hj
    by_cases hji : j = i
    · rw [hji, BarStore.setBar_self, hbacking] at hj
      obtain rfl := Option.some.inj hj
      exact os.aligned _ _ _ hos
    · rw [hother j hji] at hj
      exact h.aligned j q hj
  · intro j q hj
    by_cases hji : j = i
    · rw [hji, BarStore.setBar_self, hsize]
      exact os.nonempty _ _ _ hos
    · rw [hother j hji] at hj ⊢
      exact h.nonempty j q hj
  · intro j q hj page hpage
    by_cases hji : j = i
    · rw [hji, BarStore.setBar_self] at hj hpage
      rw [hbacking] at hj
      obtain rfl := Option.some.inj hj
      rw [hsize] at hpage
      exact mapPages_of_inRegion hpage
    · rw [hother j hji] at hj hpage
      exact mapPages_of_mapped (h.mapped j q hj page hpage)
  · -- the new backing is no other BAR's
    have hnew : ∀ j, (((s.mapAt p size).setBar i bar).bars j).backing = some p → j = i := by
      intro j hj
      by_contra hji
      rw [hother j hji] at hj
      exact Remap.fresh_ne h hos j hj
    intro j k q hj hk
    by_cases hji : j = i
    · rw [hji, BarStore.setBar_self, hbacking] at hj
      obtain rfl := Option.some.inj hj
      exact hji.trans (hnew k hk).symm
    by_cases hki : k = i
    · rw [hki, BarStore.setBar_self, hbacking] at hk
      obtain rfl := Option.some.inj hk
      exact (hnew j hj).trans hki.symm
    rw [hother j hji] at hj
    rw [hother k hki] at hk
    exact h.own j k q hj hk

theorem Remap.backingsMapped {r : Option ℕ × BarStore} (h : Remap s os i size r)
    (hs : BackingsMapped s) : BackingsMapped r.2 := by
  cases h with
  | shared hbacking => exact hs
  | refused hbacking hos => exact hs.setNone i _ rfl
  | fresh hbacking hos => exact hs.setFresh hos i _ rfl rfl

/-! ### Register accesses -/

/-- The state after the mapping on demand. -/
def BarStore.reached (s : BarStore) (os : Mmap barPageSize) (offset : UInt64) : BarStore :=
  if isHqdOffset offset then s else (s.bar0Backing os).2

theorem writel_reached (s : BarStore) (os : Mmap barPageSize) (offset : UInt64) (value : UInt32) :
    (s.simBar0Writel os offset value).bars = (s.reached os offset).bars ∧
      (s.simBar0Writel os offset value).pages = (s.reached os offset).pages := by
  unfold BarStore.simBar0Writel BarStore.reached
  split_ifs
  · exact ⟨rfl, rfl⟩
  · obtain ⟨backing, t⟩ := s.bar0Backing os
    cases backing <;> exact ⟨rfl, rfl⟩

theorem readl_reached (s : BarStore) (os : Mmap barPageSize) (offset : UInt64) :
    (s.simBar0Readl os offset).2 = s.reached os offset := by
  unfold BarStore.simBar0Readl BarStore.reached
  split_ifs
  · rfl
  · obtain ⟨backing, t⟩ := s.bar0Backing os
    cases backing <;> rfl

/-- Whatever the request, the mappings and the backings stay. -/
theorem barIoremap_inv (h : BackingsMapped s) (os : Mmap barPageSize) (physAddr size : UInt64) :
    BackingsMapped (s.barIoremap os physAddr size).2 ∧
      ∀ j q start length, InBacking s j q start length →
        InBacking (s.barIoremap os physAddr size).2 j q start length := by
  cases hbar : s.barAt physAddr with
  | none =>
    rw [barIoremap_none hbar]
    exact ⟨h, fun j q start length hin => hin⟩
  | some i =>
    have hremap : Remap s os i size _ := barIoremap_remap hbar
    exact ⟨hremap.backingsMapped h, fun j q start length hin => hremap.inBacking hin⟩

theorem reached_inv (h : BackingsMapped s) (os : Mmap barPageSize) (offset : UInt64) :
    BackingsMapped (s.reached os offset) ∧
      ∀ j q start length, InBacking s j q start length →
        InBacking (s.reached os offset) j q start length := by
  unfold BarStore.reached
  split_ifs
  · exact ⟨h, fun j q start length hin => hin⟩
  · exact barIoremap_inv h os 0 0x8000

theorem hqdForOffset_inside {mqd : ℕ} {reg : UInt32} (h : isHqdOffset offset = true)
    (hmqd : hqdForOffset offset = some (mqd, reg)) :
    mqd + mqdSize ≤ hqdPoolSize ∧ reg.toNat + 4 ≤ mqdSize := by
  rw [hqdForOffset_eq h] at hmqd
  split_ifs at hmqd with hchannel
  rw [Option.some.injEq, Prod.mk.injEq] at hmqd
  obtain ⟨rfl, rfl⟩ := hmqd
  have hreg : hqdRegister offset < 64 := Nat.mod_lt _ (by decide)
  rw [UInt32.toNat_ofNat_of_lt' (Nat.lt_trans hreg (by decide))]
  unfold hqdPoolSize mqdSize
  omega

theorem regionBytes_bar0 : regionBytes barPageSize (0x8000 : UInt64).toNat = 0x8000 := by decide

/-- An access stays inside exactly when the register lies in the backing. -/
theorem accessInside_iff (h : BackingsMapped s) (os : Mmap barPageSize) (offset : UInt64) :
    AccessInside s os offset ↔ (isHqdOffset offset = false → RegisterFits s os offset) := by
  unfold AccessInside
  by_cases hwindow : isHqdOffset offset = true
  · rw [if_pos hwindow, hwindow]
    exact iff_of_true (fun mqd reg hmqd => hqdForOffset_inside hwindow hmqd) nofun
  rw [if_neg hwindow, Bool.not_eq_true] at *
  rw [imp_iff_right hwindow, RegisterFits]
  refine forall_congr' fun i => ?_
  rw [forall_comm]
  refine forall_congr' fun hbar => ?_
  have hremap : Remap s os i 0x8000 (s.bar0Backing os) := barIoremap_remap hbar
  generalize s.bar0Backing os = r at hremap
  cases hremap with
  | @shared p hbacking =>
    rw [hbacking]
    refine Iff.trans ⟨fun hin => hin p rfl, fun hin q hq => ?_⟩ (h.inBacking_iff hbacking)
    obtain rfl := Option.some.inj hq
    exact hin
  | refused hbacking hos =>
    have hrun : os.run s.pages 0x8000 = none := hos
    rw [hbacking]
    exact iff_of_true nofun fun hne => absurd hrun hne
  | @fresh p hbacking hos =>
    have hrun : os.run s.pages 0x8000 = some p := hos
    have hnext := h.setFresh hos i { s.bars i with size := 0x8000, backing := some p } rfl rfl
    have hself := (s.mapAt p 0x8000).setBar_self i
      { s.bars i with size := 0x8000, backing := some p }
    have hiff : InBacking _ i p offset.toNat 4 ↔ _ := hnext.inBacking_iff (by rw [hself])
    rw [hself, regionBytes_bar0] at hiff
    rw [hbacking]
    constructor
    · intro hin _
      exact hiff.mp (hin p rfl)
    · intro hfits q hq
      obtain rfl := Option.some.inj hq
      exact hiff.mpr (hfits (by rw [hrun]; nofun))

end Backings

/-! ### Runs -/

section Steps

variable {live : List BarMapping} {s : BarStore} {addr : Option ℕ}

/-- With size zero `munmap` does nothing: what `iounmap` leaves of the BARs. -/
theorem iounmap_pages (s : BarStore) (addr : Option ℕ) : (s.iounmap addr).pages = s.pages := by
  unfold BarStore.iounmap BarStore.barIounmap
  rw [BarStore.munmap_zero]
  split <;> rfl

/-- The BAR at the address has no backing any more. -/
theorem iounmap_backing (h : BackingsMapped s) {i : Fin 6} {p : ℕ}
    (hp : (s.bars i).backing = some p) : ((s.iounmap (some p)).bars i).backing = none := by
  obtain ⟨j, hj⟩ := exists_barBackedBy hp
  obtain rfl := h.own i j p hp (backing_of_barBackedBy hj)
  rw [BarStore.iounmap, BarStore.barIounmap, hj]
  exact congrArg PciBarSim.backing (BarStore.setBar_self ..)

theorem barInv_iounmap (h : BarInv (live, s)) (hG : barGuard (live, s) (.iounmap addr)) :
    BarInv (observedBar (live, s) (.iounmap addr)) := by
  have hlive : noteMapping live s (.iounmap addr) = live :=
    List.eraseP_of_forall_not fun m hm hd => hG m hm (of_decide_eq_true hd)
  show BarInv (noteMapping live s (.iounmap addr), s.iounmap addr)
  rw [hlive, BarStore.iounmap, BarStore.barIounmap, BarStore.munmap_zero]
  cases hfound : s.barBackedBy addr with
  | none => exact h
  | some i =>
    refine ⟨h.backings.setNone i _ rfl, fun m hm => ?_⟩
    have hin := h.valid m hm
    have hne : m.bar ≠ i := by
      intro heq
      have hback := backing_of_barBackedBy hfound
      rw [← heq, hin.current] at hback
      exact hG m hm hback
    exact hin.frame (s.setBar_of_ne _ hne) fun page hpage => hpage

/-- A new mapping lies in the backing when a backing that is there already is large enough. -/
theorem inBacking_remap_iff {os : Mmap barPageSize} {i : Fin 6} {size : UInt64} {p : ℕ}
    {r : Option ℕ × BarStore} (h : BackingsMapped s) (hremap : Remap s os i size r)
    (hp : r.1 = some p) :
    InBacking r.2 i p 0 size.toNat ↔
      ((s.bars i).backing = some p →
        size.toNat ≤ regionBytes barPageSize (s.bars i).size.toNat) := by
  rw [(hremap.backingsMapped h).inBacking_iff (hremap.backing hp), Nat.zero_add]
  cases hremap with
  | shared hbacking => rw [imp_iff_right (hbacking.trans hp)]
  | refused hbacking hos => cases hp
  | fresh hbacking hos =>
    rw [BarStore.setBar_self, hbacking]
    exact iff_of_true (le_regionBytes barPageSize_pos) nofun

theorem barInv_ioremap {os : Mmap barPageSize} {physAddr size : UInt64} (h : BarInv (live, s))
    (hG : barGuard (live, s) (.ioremap os physAddr size)) :
    BarInv (observedBar (live, s) (.ioremap os physAddr size)) := by
  obtain ⟨hbackings, hkept⟩ := barIoremap_inv h.backings os physAddr size
  refine ⟨hbackings, ?_⟩
  have hold : ∀ m ∈ live, InBacking (s.ioremap os physAddr size).2 m.bar m.addr 0 m.size.toNat :=
    fun m hm => hkept _ _ _ _ (h.valid m hm)
  intro m hm
  change m ∈ noteMapping live s (.ioremap os physAddr size) at hm
  rw [noteMapping] at hm
  split at hm
  · rename_i i p hbar hp
    rcases List.mem_cons.mp hm with rfl | hm
    · exact (inBacking_remap_iff h.backings (barIoremap_remap hbar) hp).mpr (hG i p hbar)
    · exact hold m hm
  · exact hold m hm

theorem barInv_register {os : Mmap barPageSize} {offset : UInt64} {t : BarStore}
    (h : BarInv (live, s)) (hbars : t.bars = (s.reached os offset).bars)
    (hpages : t.pages = (s.reached os offset).pages) : BarInv (live, t) := by
  obtain ⟨hbackings, hkept⟩ := reached_inv h.backings os offset
  refine ⟨hbackings.congr hbars hpages, fun m hm => ?_⟩
  refine (hkept _ _ _ _ (h.valid m hm)).frame (congrFun hbars _) fun page hpage => ?_
  rw [hpages]
  exact hpage

theorem barInv_call (x : List BarMapping × BarStore) (c : BarCall) (h : BarInv x)
    (hG : barGuard x c) : BarInv (observedBar x c) := by
  cases c with
  | ioremap os physAddr size => exact barInv_ioremap h hG
  | iounmap addr => exact barInv_iounmap h hG
  | writel os offset value =>
    obtain ⟨hbars, hpages⟩ := writel_reached x.2 os offset value
    exact barInv_register h hbars hpages
  | readl os offset =>
    have hsame := readl_reached x.2 os offset
    exact barInv_register h (congrArg BarStore.bars hsame) (congrArg BarStore.pages hsame)

theorem callLaw_of_guard (x : List BarMapping × BarStore) (c : BarCall) (h : BarInv x)
    (hG : barGuard x c) : CallLaw x c := by
  cases c with
  | ioremap os physAddr size => trivial
  | iounmap addr =>
    intro m hm haddr
    exact absurd haddr (hG m hm)
  | writel os offset value => exact (accessInside_iff h.backings os offset).mpr hG
  | readl os offset => exact (accessInside_iff h.backings os offset).mpr hG

/-- An `iounmap` of a mapping leaves another one without its backing, or the backing mapped. -/
theorem iounmap_guard_of_law {x : List BarMapping × BarStore} (h : BarInv x)
    (hnext : MappingsValid (observedBar x (.iounmap addr))) (hlaw : CallLaw x (.iounmap addr)) :
    barGuard x (.iounmap addr) := by
  intro m hm haddr
  subst haddr
  have hin := h.valid m hm
  by_cases hlast : ∀ m' ∈ noteMapping x.1 x.2 (.iounmap (some m.addr)), some m'.addr ≠ some m.addr
  · have hreleased := hlaw m hm rfl hlast
    rw [iounmap_pages] at hreleased
    exact not_released barPageSize_pos (h.backings.nonempty _ _ hin.current)
      (h.backings.mapped _ _ hin.current) hreleased
  · push Not at hlast
    obtain ⟨m', hm', haddr⟩ := hlast
    have hold := h.valid m' (List.mem_of_mem_eraseP hm')
    have hcurrent := (hnext m' hm').current
    have hgone := iounmap_backing h.backings hold.current
    rw [haddr] at hgone
    rw [show (observedBar x (.iounmap (some m.addr))).2 = x.2.iounmap (some m.addr) from rfl,
      hgone] at hcurrent
    cases hcurrent

/-- A call that keeps the law meets the condition. -/
theorem barGuard_of_law (x : List BarMapping × BarStore) (c : BarCall) (h : BarInv x)
    (hnext : MappingsValid (observedBar x c)) (hlaw : CallLaw x c) : barGuard x c := by
  cases c with
  | ioremap os physAddr size =>
    intro i p hbar hbacking
    have hremap : Remap x.2 os i size (x.2.barIoremap os physAddr size) := barIoremap_remap hbar
    have hp : (x.2.ioremap os physAddr size).1 = some p := by
      rw [BarStore.ioremap]
      generalize x.2.barIoremap os physAddr size = r at hremap
      cases hremap with
      | shared hsame => exact hsame.symm.trans hbacking
      | refused hnone hos =>
        rw [hbacking] at hnone
        cases hnone
      | fresh hnone hos =>
        rw [hbacking] at hnone
        cases hnone
    have hmem : ⟨i, p, size⟩ ∈ noteMapping x.1 x.2 (.ioremap os physAddr size) := by
      rw [noteMapping, hbar, hp]
      exact List.mem_cons_self
    exact (inBacking_remap_iff h.backings hremap hp).mp (hnext _ hmem) hbacking
  | iounmap addr => exact iounmap_guard_of_law h hnext hlaw
  | writel os offset value => exact (accessInside_iff h.backings os offset).mp hlaw
  | readl os offset => exact (accessInside_iff h.backings os offset).mp hlaw

end Steps

/-- The BARs as the program starts, wherever they are: none has a backing. -/
def barStart (physBase size : Fin 6 → UInt64) (pages : PageMap) (memory hqdPool : Memory) :
    BarStore :=
  ⟨fun i => ⟨physBase i, size i, none⟩, pages, memory, hqdPool⟩

theorem barInv_start (physBase size : Fin 6 → UInt64) (pages : PageMap)
    (memory hqdPool : Memory) : BarInv ([], barStart physBase size pages memory hqdPool) where
  backings := ⟨fun _ _ => nofun, fun _ _ => nofun, fun _ _ => nofun, fun _ _ _ => nofun⟩
  valid := fun _ hm => absurd hm List.not_mem_nil

/-- **BAR mappings.**  Along a run every live mapping lies in the backing of its BAR, the last
`iounmap` releases it, and every register access stays inside, exactly when no request is for more
than the backing that the BAR has already, no mapping is unmapped, and the registers lie in the
backing. -/
theorem bar_mappings_iff (physBase size : Fin 6 → UInt64) (pages : PageMap)
    (memory hqdPool : Memory) (calls : List BarCall) :
    (Always observedBar MappingsValid ([], barStart physBase size pages memory hqdPool) calls ∧
        Guarded observedBar CallLaw ([], barStart physBase size pages memory hqdPool) calls) ↔
      Guarded observedBar barGuard ([], barStart physBase size pages memory hqdPool) calls :=
  always_guarded_iff barInv_call (fun _ h => h.valid) callLaw_of_guard barGuard_of_law calls
    (barInv_start physBase size pages memory hqdPool)

/-- A system in which one page is free. -/
def onePage : Mmap barPageSize where
  run pages n := if n = 0x1000 ∧ pages 16 = false then some 0x10000 else none
  nonempty pages n p hp := by
    split_ifs at hp with h
    omega
  aligned pages n p hp := by
    split_ifs at hp with h
    obtain rfl := Option.some.inj hp
    exact ⟨16, rfl⟩
  fresh pages n p hp page hpage := by
    split_ifs at hp with h
    obtain rfl := Option.some.inj hp
    obtain ⟨rfl, hfree⟩ := h
    obtain ⟨hle, hlt⟩ : 16 ≤ page ∧ page < 17 := hpage
    obtain rfl : page = 16 := by omega
    exact hfree

/-- A mapping of one page, and one of sixteen at the same BAR. -/
theorem bar_mappings_fail :
    ¬∀ (physBase size : Fin 6 → UInt64) (pages : PageMap) (memory hqdPool : Memory)
        (calls : List BarCall),
      Always observedBar MappingsValid ([], barStart physBase size pages memory hqdPool) calls ∧
        Guarded observedBar CallLaw ([], barStart physBase size pages memory hqdPool) calls := by
  intro h
  have hguarded := (always_guarded_iff barInv_call (fun _ h => h.valid) callLaw_of_guard
    barGuard_of_law _ (barInv_start _ _ _ _ _)).mp
      (h (fun _ => 0) (fun _ => 0) (fun _ => false) (fun _ => 0) (fun _ => 0)
        [.ioremap onePage 0 0x1000, .ioremap onePage 0 0x10000])
  have hroom := hguarded.2.1 0 0x10000 rfl rfl
  exact absurd hroom (by decide)

end UsrLinuxEmu.GpuDriver
