import UsrLinuxEmu.Layout.Window
import UsrLinuxEmu.Pci.PcieEmu
import UsrLinuxEmu.SimHardware.HostBridge

/-!
# Assigning the BARs of a bus (`plugins/pci_driver/pci_setup_bus.cpp`)

A device's memory BARs are packed from 0xF0000000 on and its I/O BARs from 0xE000 on, each behind
the ones before; every device starts there again, whatever the sizes and the registers are.

* `assignBars`, `pciBusAssignResources`, `busSetup` — the assignment;
* `barBase` — where a BAR goes: the start and the sizes of its kind before it;
* `SetupSound` — ranges that are apart, aligned and in their registers;
* `Placeable` — one device with memory BARs and one with I/O BARs at most, and bases that fit;
* `bus_setup_sound_iff` — a bus that has been set up is sound exactly when it was placeable.
-/

namespace UsrLinuxEmu.Pci

open UsrLinuxEmu.Json UsrLinuxEmu.Layout UsrLinuxEmu.SimHardware

/-! ### The assignment -/

/-- The BARs behind the two bases; `false` when a call throws. -/
def assignBars (allocates : ℕ → Bool) (emu : PcieEmuImpl) (mmioBase ioBase : UInt64) :
    List TopologyBar → Bool × PcieEmuImpl
  | [] => (true, emu)
  | bar :: bars =>
    if 6 ≤ bar.index ∨ bar.sizeBytes = 0 then assignBars allocates emu mmioBase ioBase bars
    else
      let base := if bar.isMmio then mmioBase else ioBase
      match emu.assignBar allocates bar.index.toNat base bar.sizeBytes bar.isMmio with
      | (false, emu) => (false, emu)
      | (true, emu) =>
        if bar.isMmio then assignBars allocates emu (mmioBase + bar.sizeBytes) ioBase bars
        else assignBars allocates emu mmioBase (ioBase + bar.sizeBytes) bars

/-- The first device with the identifiers and the address. -/
def matchDevice (topo : Topology) (dev : DiscoveredDevice) : Option TopologyDevice :=
  topo.devices.find? fun td =>
    td.vendorId = dev.vendorId ∧ td.deviceId = dev.deviceId ∧ td.bdf = dev.bdf

section Setup

variable {Text : Type} (allocates : ℕ → Bool) (parse : Text → ParseOutcome) (path : String)
  (file : Option Text)

def pciBusAssignResources (emu : PcieEmuImpl) (dev : DiscoveredDevice) :
    CallOutcome × PcieEmuImpl :=
  match topologyLoadJson parse path file Topology.initial with
  | (.threw, _) => (.threw, emu)
  | (.returned rc, topo) =>
    if rc ≠ 0 then (.returned rc, emu)
    else
      match matchDevice topo dev with
      | none => (.returned (-eNOENT), emu)
      | some td =>
        match assignBars allocates emu 0xF0000000 0xE000 td.bars with
        | (true, emu) => (.returned 0, emu)
        | (false, emu) => (.threw, emu)

/-- Each device that is discovered gets an emulator. -/
def busSetup : List (CallOutcome × PcieEmuImpl) :=
  (hostBridgeEnumerate parse path file kMaxDevices).2.1.map fun dev =>
    pciBusAssignResources allocates parse path file createPcieEmu dev

end Setup

/-! ### Where the BARs go -/

def windowStart (isMmio : Bool) : ℕ := if isMmio then 0xF0000000 else 0xE000

def barSize (bar : TopologyBar) : ℕ := bar.sizeBytes.toNat

/-- The start of its window and the sizes of the BARs of its kind before it. -/
def barBase (before : List TopologyBar) (isMmio : Bool) : ℕ :=
  cursor windowStart barSize TopologyBar.isMmio isMmio before

/-- The BARs of a device are where the assignment puts them, and no others are in use. -/
structure LaidOut (emu : PcieEmuImpl) (bars : List TopologyBar) : Prop where
  bar : ∀ k, ∀ hk : k < bars.length, emu.bars bars[k].index.toNat =
    ⟨UInt64.ofNat (barBase (bars.take k) bars[k].isMmio), bars[k].sizeBytes, bars[k].isMmio, true⟩
  register : ∀ k, ∀ hk : k < bars.length,
    emu.readConfigDword (barOffset bars[k].index.toNat) =
      barRegister bars[k].isMmio (UInt64.ofNat (barBase (bars.take k) bars[k].isMmio))
  used : ∀ i, (emu.bars i).enabled = true →
    ∃ k, ∃ hk : k < bars.length, bars[k].index.toNat = i

theorem barSeen_sub {seen : List UInt8} {bar : TopologyBar} {i : UInt8} (h : i ∈ seen) :
    i ∈ barSeen seen bar := by
  unfold barSeen
  split_ifs
  · exact List.mem_cons_of_mem _ (List.mem_cons_of_mem _ h)
  · exact List.mem_cons_of_mem _ h

theorem index_mem_barSeen (seen : List UInt8) (bar : TopologyBar) :
    bar.index ∈ barSeen seen bar := by
  unfold barSeen
  split_ifs
  · exact List.mem_cons_of_mem _ List.mem_cons_self
  · exact List.mem_cons_self

theorem barsOk_of_mem {seen : List UInt8} {bars : List TopologyBar} (h : BarsOk seen bars)
    {bar : TopologyBar} (hbar : bar ∈ bars) :
    bar.index ≤ 5 ∧ bar.index ∉ seen ∧ bar.sizeBytes ≠ 0 := by
  induction bars generalizing seen with
  | nil => cases hbar
  | cons b bars ih =>
    rcases List.mem_cons.mp hbar with rfl | hbar
    · exact ⟨h.1.index, h.1.fresh, h.1.size⟩
    · obtain ⟨hindex, hfresh, hsize⟩ := ih h.2 hbar
      exact ⟨hindex, fun hmem => hfresh (barSeen_sub hmem), hsize⟩

theorem barSize_pos {seen : List UInt8} {bars : List TopologyBar} (h : BarsOk seen bars)
    {bar : TopologyBar} (hbar : bar ∈ bars) : 0 < barSize bar :=
  Nat.pos_of_ne_zero fun hzero => (barsOk_of_mem h hbar).2.2 (UInt64.toNat_inj.mp hzero)

theorem ofNat_barBase_concat (before : List TopologyBar) (bar : TopologyBar) (isMmio : Bool) :
    UInt64.ofNat (barBase (before ++ [bar]) isMmio) =
      if bar.isMmio = isMmio then UInt64.ofNat (barBase before isMmio) + bar.sizeBytes
      else UInt64.ofNat (barBase before isMmio) := by
  unfold barBase
  rw [cursor_concat]
  split_ifs
  · rw [UInt64.ofNat_add, barSize, UInt64.ofNat_toNat]
  · rfl

/-- The assignment of the BARs that are left, behind the ones before. -/
structure Laid (emu emu' : PcieEmuImpl) (before rest : List TopologyBar) : Prop where
  bar : ∀ k, ∀ hk : k < rest.length, emu'.bars rest[k].index.toNat =
    ⟨UInt64.ofNat (barBase (before ++ rest.take k) rest[k].isMmio), rest[k].sizeBytes,
      rest[k].isMmio, true⟩
  register : ∀ k, ∀ hk : k < rest.length,
    emu'.readConfigDword (barOffset rest[k].index.toNat) =
      barRegister rest[k].isMmio (UInt64.ofNat (barBase (before ++ rest.take k) rest[k].isMmio))
  others : ∀ i, (∀ bar ∈ rest, bar.index.toNat ≠ i) → emu'.bars i = emu.bars i ∧
    emu'.readConfigDword (barOffset i) = emu.readConfigDword (barOffset i)

theorem assignBars_cons {allocates : ℕ → Bool} {emu emu' : PcieEmuImpl} {bar : TopologyBar}
    {before bars : List TopologyBar} (hindex : bar.index ≤ 5) (hsize : bar.sizeBytes ≠ 0)
    (h : assignBars allocates emu (UInt64.ofNat (barBase before true))
      (UInt64.ofNat (barBase before false)) (bar :: bars) = (true, emu')) :
    ∃ next, PcieEmuImpl.BarAssigned emu next bar.index.toNat
        (UInt64.ofNat (barBase before bar.isMmio)) bar.sizeBytes bar.isMmio ∧
      assignBars allocates next (UInt64.ofNat (barBase (before ++ [bar]) true))
        (UInt64.ofNat (barBase (before ++ [bar]) false)) bars = (true, emu') := by
  have hsmall : bar.index.toNat < 6 := Nat.lt_succ_of_le (UInt8.le_iff_toNat_le.mp hindex)
  have hskip : ¬(6 ≤ bar.index ∨ bar.sizeBytes = 0) := by
    rintro (hlarge | hzero)
    · exact Nat.not_lt.mpr (UInt8.le_iff_toNat_le.mp hlarge) hsmall
    · exact hsize hzero
  have hbase : (if bar.isMmio then UInt64.ofNat (barBase before true)
      else UInt64.ofNat (barBase before false)) = UInt64.ofNat (barBase before bar.isMmio) := by
    cases bar.isMmio <;> rfl
  rw [assignBars, if_neg hskip] at h
  simp only [hbase] at h
  cases hstep : emu.assignBar allocates bar.index.toNat
    (UInt64.ofNat (barBase before bar.isMmio)) bar.sizeBytes bar.isMmio with
  | mk ok next =>
  rw [hstep] at h
  cases ok with
  | false => cases h
  | true =>
    refine ⟨next, PcieEmuImpl.assignBar_returns hsmall hsize hstep, ?_⟩
    rw [ofNat_barBase_concat, ofNat_barBase_concat]
    cases hmmio : bar.isMmio with
    | true =>
      simp only [hmmio, if_true] at h ⊢
      exact h
    | false =>
      simp only [hmmio, if_false, Bool.false_eq_true] at h ⊢
      exact h

theorem assignBars_laid {allocates : ℕ → Bool} {emu emu' : PcieEmuImpl} {seen : List UInt8}
    {before rest : List TopologyBar} (hok : BarsOk seen rest)
    (h : assignBars allocates emu (UInt64.ofNat (barBase before true))
      (UInt64.ofNat (barBase before false)) rest = (true, emu')) : Laid emu emu' before rest := by
  induction rest generalizing emu before seen with
  | nil =>
    cases h
    exact ⟨fun k hk => absurd hk (Nat.not_lt_zero k), fun k hk => absurd hk (Nat.not_lt_zero k),
      fun i _ => ⟨rfl, rfl⟩⟩
  | cons bar bars ih =>
    obtain ⟨next, hbar, hrest⟩ := assignBars_cons hok.1.index hok.1.size h
    have htail := ih hok.2 hrest
    -- the tail does not come back to the index of the head
    have hapart : ∀ b ∈ bars, b.index.toNat ≠ bar.index.toNat := by
      intro b hb heq
      have hfresh := (barsOk_of_mem hok.2 hb).2.1
      rw [UInt8.toNat_inj.mp heq] at hfresh
      exact hfresh (index_mem_barSeen seen bar)
    obtain ⟨hkeepBar, hkeepReg⟩ := htail.others _ hapart
    refine ⟨?_, ?_, ?_⟩
    · intro k hk
      cases k with
      | zero =>
        rw [List.take_zero, List.append_nil]
        exact hkeepBar.trans hbar.bar
      | succ k =>
        have hat := htail.bar k (Nat.lt_of_succ_lt_succ hk)
        rw [List.append_assoc] at hat
        exact hat
    · intro k hk
      cases k with
      | zero =>
        rw [List.take_zero, List.append_nil]
        exact hkeepReg.trans hbar.register
      | succ k =>
        have hat := htail.register k (Nat.lt_of_succ_lt_succ hk)
        rw [List.append_assoc] at hat
        exact hat
    · intro i hi
      obtain ⟨hfirst, hothers⟩ := List.forall_mem_cons.mp hi
      obtain ⟨hbars, hregs⟩ := htail.others i hothers
      obtain ⟨hbars', hregs'⟩ := hbar.others i hfirst.symm
      exact ⟨hbars.trans hbars', hregs.trans hregs'⟩

theorem laidOut_of_assignBars (allocates : ℕ → Bool) {emu : PcieEmuImpl} {bars : List TopologyBar}
    (hok : BarsOk [] bars)
    (h : assignBars allocates createPcieEmu 0xF0000000 0xE000 bars = (true, emu)) :
    LaidOut emu bars := by
  have hlaid : Laid createPcieEmu emu [] bars := @assignBars_laid allocates _ _ [] [] bars hok h
  refine ⟨hlaid.bar, hlaid.register, fun i hi => ?_⟩
  by_contra hnone
  have hothers := hlaid.others i fun bar hbar heq => by
    obtain ⟨k, hk, rfl⟩ := List.mem_iff_getElem.mp hbar
    exact hnone ⟨k, hk, heq⟩
  rw [hothers.1] at hi
  cases hi

/-! ### Soundness -/

/-- Two ranges without a common address, memory and I/O addresses alike. -/
def Apart (a b : Bar) : Prop :=
  a.base.toNat + a.size.toNat ≤ b.base.toNat ∨ b.base.toNat + b.size.toNat ≤ a.base.toNat

/-- The assigned ranges are apart, their bases are multiples of their sizes, and a register decodes
to the base. -/
structure SetupSound (emus : List PcieEmuImpl) : Prop where
  apart : ∀ m n i j, ∀ hm : m < emus.length, ∀ hn : n < emus.length, (m ≠ n ∨ i ≠ j) →
    (emus[m].bars i).enabled = true → (emus[n].bars j).enabled = true →
      Apart (emus[m].bars i) (emus[n].bars j)
  aligned : ∀ emu ∈ emus, ∀ i, (emu.bars i).enabled = true →
    (emu.bars i).size.toNat ∣ (emu.bars i).base.toNat
  decoded : ∀ emu ∈ emus, ∀ i, (emu.bars i).enabled = true →
    decodeBar (emu.readConfigDword (barOffset i)) = (emu.bars i).base

/-- The base suits the BAR's size and a 32-bit register. -/
structure Fits (before : List TopologyBar) (bar : TopologyBar) : Prop where
  aligned : barSize bar ∣ barBase before bar.isMmio
  unit : barUnit bar.isMmio ∣ barBase before bar.isMmio
  low : barBase before bar.isMmio < 2 ^ 32

def BarsFit (bars : List TopologyBar) : Prop :=
  ∀ k, ∀ hk : k < bars.length, Fits (bars.take k) bars[k]

instance decidableFits (before : List TopologyBar) (bar : TopologyBar) :
    Decidable (Fits before bar) :=
  decidable_of_iff (barSize bar ∣ barBase before bar.isMmio ∧
      barUnit bar.isMmio ∣ barBase before bar.isMmio ∧ barBase before bar.isMmio < 2 ^ 32)
    ⟨fun h => ⟨h.1, h.2.1, h.2.2⟩, fun h => ⟨h.aligned, h.unit, h.low⟩⟩

instance decidableBarsFit (bars : List TopologyBar) : Decidable (BarsFit bars) :=
  Nat.decidableBallLT bars.length _

/-- For the BARs of each device: at most one device has BARs of a kind, and all of them fit. -/
structure Placeable (devices : List (List TopologyBar)) : Prop where
  single : devices.Pairwise fun a b => ∀ x ∈ a, ∀ y ∈ b, x.isMmio ≠ y.isMmio
  fits : ∀ bars ∈ devices, BarsFit bars

theorem barBase_pos (before : List TopologyBar) (isMmio : Bool) : 0 < barBase before isMmio := by
  refine Nat.lt_of_lt_of_le ?_ (start_le_cursor before)
  cases isMmio <;> decide

/-- A size that divides a base is no larger. -/
theorem Fits.size_le {before : List TopologyBar} {bar : TopologyBar} (h : Fits before bar) :
    barSize bar ≤ barBase before bar.isMmio :=
  Nat.le_of_dvd (barBase_pos _ _) h.aligned

theorem toNat_barBase {before : List TopologyBar} {isMmio : Bool}
    (h : barBase before isMmio < 2 ^ 64) :
    (UInt64.ofNat (barBase before isMmio)).toNat = barBase before isMmio :=
  UInt64.toNat_ofNat_of_lt' h

/-- The conditions on a BAR, in the emulator and on its size. -/
theorem fits_iff {emu : PcieEmuImpl} {bars : List TopologyBar} (h : LaidOut emu bars) {k : ℕ}
    (hk : k < bars.length) (hword : barBase (bars.take k) bars[k].isMmio < 2 ^ 64) :
    Fits (bars.take k) bars[k] ↔
      (emu.bars bars[k].index.toNat).size.toNat ∣ (emu.bars bars[k].index.toNat).base.toNat ∧
        decodeBar (emu.readConfigDword (barOffset bars[k].index.toNat)) =
          (emu.bars bars[k].index.toNat).base := by
  rw [h.bar k hk, h.register k hk, decodeBar_barRegister, toNat_barBase hword]
  constructor
  · rintro ⟨haligned, hunit, hlow⟩
    exact ⟨haligned, hunit, hlow⟩
  · rintro ⟨haligned, hunit, hlow⟩
    exact ⟨haligned, hunit, hlow⟩

theorem barBase_take_succ (bars : List TopologyBar) {k : ℕ} (hk : k < bars.length)
    (isMmio : Bool) :
    barBase (bars.take (k + 1)) isMmio =
      if bars[k].isMmio = isMmio then barBase (bars.take k) isMmio + barSize bars[k]
      else barBase (bars.take k) isMmio :=
  cursor_take_succ bars hk

/-- Aligned bases that registers hold never leave 33 bits, so that none has wrapped. -/
theorem barsFit_of_sound {emu : PcieEmuImpl} {bars : List TopologyBar} (h : LaidOut emu bars)
    (haligned : ∀ i, (emu.bars i).enabled = true →
      (emu.bars i).size.toNat ∣ (emu.bars i).base.toNat)
    (hdecoded : ∀ i, (emu.bars i).enabled = true →
      decodeBar (emu.readConfigDword (barOffset i)) = (emu.bars i).base) : BarsFit bars := by
  have hfits (k : ℕ) (hk : k < bars.length)
      (hword : barBase (bars.take k) bars[k].isMmio < 2 ^ 64) : Fits (bars.take k) bars[k] := by
    have henabled : (emu.bars bars[k].index.toNat).enabled = true := by
      rw [h.bar k hk]
    exact (fits_iff h hk hword).mpr ⟨haligned _ henabled, hdecoded _ henabled⟩
  have hbound : ∀ k, k ≤ bars.length → ∀ isMmio, barBase (bars.take k) isMmio < 2 ^ 33 := by
    intro k hk
    induction k with
    | zero =>
      intro isMmio
      rw [List.take_zero]
      cases isMmio <;> decide
    | succ k ih =>
      intro isMmio
      have hprev := ih (Nat.le_of_succ_le hk)
      have hfit := hfits k hk (Nat.lt_trans (hprev _) (by decide))
      have hsize := hfit.size_le
      have hlow := hfit.low
      have hsame := hprev isMmio
      rw [barBase_take_succ bars hk]
      split_ifs with hkind
      · rw [hkind] at hsize hlow
        omega
      · exact hsame
  intro k hk
  exact hfits k hk (Nat.lt_trans (hbound k hk.le _) (by decide))

/-- I/O ranges end before memory ranges start. -/
theorem io_below_mmio {bars : List TopologyBar} (hfit : BarsFit bars) (hcount : bars.length ≤ 6)
    {k : ℕ} (hk : k < bars.length) (hio : bars[k].isMmio = false) :
    barBase (bars.take k) bars[k].isMmio + barSize bars[k] ≤ 0xF0000000 := by
  have hdouble : barBase (bars.take (k + 1)) false ≤ 0xE000 * 2 ^ (k + 1) := by
    refine cursor_le_mul_two_pow (w := false) (fun i hi hw => ?_) hk
    have hsize := (hfit i hi).size_le
    rw [hw] at hsize
    exact hsize
  have hpow : 2 ^ (k + 1) ≤ 2 ^ 6 := Nat.pow_le_pow_right (by decide) (by omega)
  rw [barBase_take_succ bars hk, if_pos hio] at hdouble
  rw [hio]
  omega

/-- What the emulator has for a BAR that fits. -/
theorem toNat_bar {emu : PcieEmuImpl} {bars : List TopologyBar} (h : LaidOut emu bars)
    (hfit : BarsFit bars) {k : ℕ} (hk : k < bars.length) :
    (emu.bars bars[k].index.toNat).base.toNat = barBase (bars.take k) bars[k].isMmio ∧
      (emu.bars bars[k].index.toNat).size.toNat = barSize bars[k] := by
  rw [h.bar k hk]
  exact ⟨toNat_barBase (Nat.lt_trans (hfit k hk).low (by decide)), rfl⟩

theorem apart_of_kinds {emu emu' : PcieEmuImpl} {bars bars' : List TopologyBar}
    (h : LaidOut emu bars) (h' : LaidOut emu' bars') (hfit : BarsFit bars) (hfit' : BarsFit bars')
    (hcount : bars.length ≤ 6) {k l : ℕ} (hk : k < bars.length) (hl : l < bars'.length)
    (hio : bars[k].isMmio = false) (hmmio : bars'[l].isMmio = true) :
    Apart (emu.bars bars[k].index.toNat) (emu'.bars bars'[l].index.toNat) := by
  obtain ⟨hbase, hsize⟩ := toNat_bar h hfit hk
  obtain ⟨hbase', -⟩ := toNat_bar h' hfit' hl
  have hbelow := io_below_mmio hfit hcount hk hio
  have habove : windowStart true ≤ barBase (bars'.take l) true := start_le_cursor _
  left
  rw [hbase, hsize, hbase', hmmio]
  exact hbelow.trans habove

/-- A BAR ends before the later ones of its kind. -/
theorem apart_of_lt {emu : PcieEmuImpl} {bars : List TopologyBar} (h : LaidOut emu bars)
    (hfit : BarsFit bars) {k l : ℕ} (hk : k < bars.length) (hl : l < bars.length) (hkl : k < l)
    (hkind : bars[k].isMmio = bars[l].isMmio) :
    Apart (emu.bars bars[k].index.toNat) (emu.bars bars[l].index.toNat) := by
  obtain ⟨hbase, hsize⟩ := toNat_bar h hfit hk
  obtain ⟨hbase', -⟩ := toNat_bar h hfit hl
  left
  rw [hbase, hsize, hbase', ← hkind]
  exact cursor_end_le bars hkl hk rfl

theorem Apart.symm {a b : Bar} (h : Apart a b) : Apart b a := Or.symm h

theorem apart_of_fit {emu : PcieEmuImpl} {bars : List TopologyBar} (h : LaidOut emu bars)
    (hfit : BarsFit bars) (hcount : bars.length ≤ 6) {k l : ℕ} (hk : k < bars.length)
    (hl : l < bars.length) (hkl : k ≠ l) :
    Apart (emu.bars bars[k].index.toNat) (emu.bars bars[l].index.toNat) := by
  cases hkindK : bars[k].isMmio with
  | true =>
    cases hkindL : bars[l].isMmio with
    | true =>
      have hsame : bars[k].isMmio = bars[l].isMmio := hkindK.trans hkindL.symm
      rcases Nat.lt_or_gt_of_ne hkl with hlt | hgt
      · exact apart_of_lt h hfit hk hl hlt hsame
      · exact (apart_of_lt h hfit hl hk hgt hsame.symm).symm
    | false => exact (apart_of_kinds h h hfit hfit hcount hl hk hkindL hkindK).symm
  | false =>
    cases hkindL : bars[l].isMmio with
    | true => exact apart_of_kinds h h hfit hfit hcount hk hl hkindK hkindL
    | false =>
      have hsame : bars[k].isMmio = bars[l].isMmio := hkindK.trans hkindL.symm
      rcases Nat.lt_or_gt_of_ne hkl with hlt | hgt
      · exact apart_of_lt h hfit hk hl hlt hsame
      · exact (apart_of_lt h hfit hl hk hgt hsame.symm).symm

/-- The first BARs of one kind of two devices go to one address. -/
theorem not_apart_of_kind {emu emu' : PcieEmuImpl} {bars bars' : List TopologyBar}
    (h : LaidOut emu bars) (h' : LaidOut emu' bars') (hok : BarsOk [] bars) (hok' : BarsOk [] bars')
    {isMmio : Bool} (hkind : ∃ bar ∈ bars, bar.isMmio = isMmio)
    (hkind' : ∃ bar ∈ bars', bar.isMmio = isMmio) :
    ∃ i j, (emu.bars i).enabled = true ∧ (emu'.bars j).enabled = true ∧
      ¬Apart (emu.bars i) (emu'.bars j) := by
  obtain ⟨k, hk, hmmio, hstart⟩ := exists_first windowStart barSize hkind
  obtain ⟨l, hl, hmmio', hstart'⟩ := exists_first windowStart barSize hkind'
  have hbar := h.bar k hk
  have hbar' := h'.bar l hl
  have hpos := barSize_pos hok (List.getElem_mem hk)
  have hpos' := barSize_pos hok' (List.getElem_mem hl)
  refine ⟨bars[k].index.toNat, bars'[l].index.toNat, by rw [hbar], by rw [hbar'], ?_⟩
  rw [hbar, hbar', hmmio, hmmio', barBase, barBase, hstart, hstart']
  rintro (hend | hend)
  · exact Nat.not_lt.mpr hend (Nat.lt_add_of_pos_right hpos)
  · exact Nat.not_lt.mpr hend (Nat.lt_add_of_pos_right hpos')

/-- The BARs of a device as the loader leaves them, and the emulator after the assignment. -/
structure DeviceLaidOut (emu : PcieEmuImpl) (bars : List TopologyBar) : Prop where
  ok : BarsOk [] bars
  count : bars.length ≤ 6
  laid : LaidOut emu bars

/-- BARs of two devices are of two kinds. -/
theorem Placeable.kinds {devices : List (List TopologyBar)} (h : Placeable devices) {m n : ℕ}
    (hm : m < devices.length) (hn : n < devices.length) (hne : m ≠ n) {x y : TopologyBar}
    (hx : x ∈ devices[m]) (hy : y ∈ devices[n]) : x.isMmio ≠ y.isMmio := by
  have hpair := List.pairwise_iff_getElem.mp h.single
  rcases Nat.lt_or_gt_of_ne hne with hlt | hgt
  · exact hpair m n hm hn hlt x hx y hy
  · exact (hpair n m hn hm hgt y hy x hx).symm

section Bus

variable {emus : List PcieEmuImpl} {devices : List (List TopologyBar)}
  (hlength : emus.length = devices.length)
  (h : ∀ m, ∀ hm : m < emus.length, ∀ hm' : m < devices.length, DeviceLaidOut emus[m] devices[m])

include hlength h

theorem setup_apart (hplace : Placeable devices) {m n i j : ℕ} (hm : m < emus.length)
    (hn : n < emus.length) (hne : m ≠ n ∨ i ≠ j) (hi : (emus[m].bars i).enabled = true)
    (hj : (emus[n].bars j).enabled = true) : Apart (emus[m].bars i) (emus[n].bars j) := by
  have hm' : m < devices.length := hlength ▸ hm
  have hn' : n < devices.length := hlength ▸ hn
  have hdevM := h m hm hm'
  have hdevN := h n hn hn'
  have hfitM := hplace.fits _ (List.getElem_mem hm')
  have hfitN := hplace.fits _ (List.getElem_mem hn')
  obtain ⟨k, hk, rfl⟩ := hdevM.laid.used i hi
  obtain ⟨l, hl, rfl⟩ := hdevN.laid.used j hj
  by_cases hmn : m = n
  · subst hmn
    have hkl : k ≠ l := by
      rintro rfl
      rcases hne with hne | hne
      · exact hne rfl
      · exact hne rfl
    exact apart_of_fit hdevM.laid hfitM hdevM.count hk hl hkl
  · have hkinds := hplace.kinds hm' hn' hmn (List.getElem_mem hk) (List.getElem_mem hl)
    cases hkind : devices[m][k].isMmio with
    | true =>
      have hio : devices[n][l].isMmio = false := by
        rw [hkind] at hkinds
        exact Bool.eq_false_iff.mpr hkinds.symm
      exact (apart_of_kinds hdevN.laid hdevM.laid hfitN hfitM hdevN.count hl hk hio hkind).symm
    | false =>
      have hmmio : devices[n][l].isMmio = true := by
        rw [hkind] at hkinds
        exact Bool.eq_true_of_not_eq_false hkinds.symm
      exact apart_of_kinds hdevM.laid hdevN.laid hfitM hfitN hdevM.count hk hl hkind hmmio

/-- A BAR in use is aligned and in its register. -/
theorem setup_fits (hplace : Placeable devices) {emu : PcieEmuImpl} (hemu : emu ∈ emus) {i : ℕ}
    (hi : (emu.bars i).enabled = true) :
    (emu.bars i).size.toNat ∣ (emu.bars i).base.toNat ∧
      decodeBar (emu.readConfigDword (barOffset i)) = (emu.bars i).base := by
  obtain ⟨m, hm, rfl⟩ := List.mem_iff_getElem.mp hemu
  have hm' : m < devices.length := hlength ▸ hm
  have hdev := h m hm hm'
  have hfit := hplace.fits _ (List.getElem_mem hm')
  obtain ⟨k, hk, rfl⟩ := hdev.laid.used i hi
  exact (fits_iff hdev.laid hk (Nat.lt_trans (hfit k hk).low (by decide))).mp (hfit k hk)

theorem placeable_of_sound (hsound : SetupSound emus) : Placeable devices := by
  constructor
  · rw [List.pairwise_iff_getElem]
    intro m n hm hn hmn x hx y hy hkind
    have hm' : m < emus.length := hlength ▸ hm
    have hn' : n < emus.length := hlength ▸ hn
    have hdevM := h m hm' hm
    have hdevN := h n hn' hn
    obtain ⟨i, j, hi, hj, hclash⟩ := not_apart_of_kind hdevM.laid hdevN.laid hdevM.ok hdevN.ok
      ⟨x, hx, hkind⟩ ⟨y, hy, rfl⟩
    exact hclash (hsound.apart m n i j hm' hn' (.inl hmn.ne) hi hj)
  · intro bars hbars
    obtain ⟨m, hm, rfl⟩ := List.mem_iff_getElem.mp hbars
    have hm' : m < emus.length := hlength ▸ hm
    have hemu : emus[m] ∈ emus := List.getElem_mem hm'
    exact barsFit_of_sound (h m hm' hm).laid (hsound.aligned _ hemu) (hsound.decoded _ hemu)

theorem setup_sound_iff_placeable : SetupSound emus ↔ Placeable devices := by
  refine ⟨placeable_of_sound hlength h, fun hplace => ⟨?_, ?_, ?_⟩⟩
  · intro m n i j hm hn hne hi hj
    exact setup_apart hlength h hplace hm hn hne hi hj
  · intro emu hemu i hi
    exact (setup_fits hlength h hplace hemu hi).1
  · intro emu hemu i hi
    exact (setup_fits hlength h hplace hemu hi).2

end Bus

/-! ### The bus -/

/-- The BARs that each discovered device gets: those of the first device like it. -/
def assignedBars (topo : Topology) : List (List TopologyBar) :=
  topo.devices.map fun td => ((matchDevice topo (discovered td)).map TopologyDevice.bars).getD []

/-- A device matches itself, if no other. -/
theorem matchDevice_discovered {topo : Topology} {td : TopologyDevice} (h : td ∈ topo.devices) :
    ∃ td', matchDevice topo (discovered td) = some td' ∧ td' ∈ topo.devices := by
  have hsome : (matchDevice topo (discovered td)).isSome := by
    rw [matchDevice, List.find?_isSome]
    exact ⟨td, h, decide_eq_true ⟨rfl, rfl, rfl⟩⟩
  obtain ⟨td', htd'⟩ := Option.isSome_iff_exists.mp hsome
  exact ⟨td', htd', List.mem_of_find?_eq_some htd'⟩

section Loaded

variable {Text : Type} (allocates : ℕ → Bool) {parse : Text → ParseOutcome} {path : String}
  {text : Text} {topo : Topology}
  (hload : topologyLoadJson parse path (some text) Topology.initial = (.returned 0, topo))

include hload

theorem pciBusAssignResources_eq (dev : DiscoveredDevice) {td : TopologyDevice}
    (hmatch : matchDevice topo dev = some td) :
    pciBusAssignResources allocates parse path (some text) createPcieEmu dev =
      (if (assignBars allocates createPcieEmu 0xF0000000 0xE000 td.bars).1 then .returned 0
        else .threw, (assignBars allocates createPcieEmu 0xF0000000 0xE000 td.bars).2) := by
  unfold pciBusAssignResources
  rw [hload]
  simp only [hmatch, ne_eq, not_true_eq_false, if_false]
  cases hrun : assignBars allocates createPcieEmu 0xF0000000 0xE000 td.bars with
  | mk ok emu =>
    cases ok with
    | true => rfl
    | false => rfl

theorem busSetup_eq : busSetup allocates parse path (some text) =
    topo.devices.map fun td =>
      pciBusAssignResources allocates parse path (some text) createPcieEmu (discovered td) := by
  unfold busSetup
  rw [hostBridgeEnumerate_loaded hload]
  exact List.map_map

theorem devices_ok : ∀ td ∈ topo.devices, DeviceOk td := by
  obtain ⟨j, -, htopo⟩ := topologyLoadJson_zero hload
  exact (topologyOfJson_some htopo).1.devices

theorem busSetup_laidOut
    (hdone : ∀ r ∈ busSetup allocates parse path (some text), r.1 = .returned 0) (m : ℕ)
    (hm : m < ((busSetup allocates parse path (some text)).map Prod.snd).length)
    (hm' : m < (assignedBars topo).length) :
    DeviceLaidOut ((busSetup allocates parse path (some text)).map Prod.snd)[m]
      (assignedBars topo)[m] := by
  have hdev : m < topo.devices.length := by
    rw [assignedBars, List.length_map] at hm'
    exact hm'
  obtain ⟨td, hmatch, htd⟩ := matchDevice_discovered (List.getElem_mem hdev)
  have hok := devices_ok hload td htd
  have hbars : (assignedBars topo)[m] = td.bars := by
    simp only [assignedBars, List.getElem_map, hmatch, Option.map_some, Option.getD_some]
  have hcall := pciBusAssignResources_eq allocates hload
    (discovered topo.devices[m]) hmatch
  have hreturned := hdone (pciBusAssignResources allocates parse path (some text) createPcieEmu
    (discovered topo.devices[m])) (by
      rw [busSetup_eq allocates hload]
      exact List.mem_map_of_mem (List.getElem_mem hdev))
  have hemu : ((busSetup allocates parse path (some text)).map Prod.snd)[m] =
      (assignBars allocates createPcieEmu 0xF0000000 0xE000 td.bars).2 := by
    simp only [busSetup_eq allocates hload, List.getElem_map, hcall]
  rw [hbars, hemu]
  refine ⟨hok.bars, hok.barCount, laidOut_of_assignBars allocates hok.bars ?_⟩
  rw [hcall] at hreturned
  cases hrun : assignBars allocates createPcieEmu 0xF0000000 0xE000 td.bars with
  | mk ok emu =>
    rw [hrun] at hreturned
    cases ok with
    | true => rfl
    | false => cases hreturned

theorem busSetup_returns (h : ∀ td ∈ topo.devices,
    (assignBars allocates createPcieEmu 0xF0000000 0xE000 td.bars).1 = true) :
    ∀ r ∈ busSetup allocates parse path (some text), r.1 = .returned 0 := by
  rw [busSetup_eq allocates hload]
  intro r hr
  obtain ⟨td, htd, rfl⟩ := List.mem_map.mp hr
  obtain ⟨td', hmatch, htd'⟩ := matchDevice_discovered htd
  rw [pciBusAssignResources_eq allocates hload _ hmatch, h td' htd']
  rfl

theorem length_busSetup : ((busSetup allocates parse path (some text)).map Prod.snd).length =
    (assignedBars topo).length := by
  rw [busSetup_eq allocates hload, assignedBars, List.length_map, List.length_map, List.length_map]

end Loaded

/-- **BAR assignment.**  A bus that has been set up is sound exactly if it was placeable. -/
theorem bus_setup_sound_iff {Text : Type} (allocates : ℕ → Bool) (parse : Text → ParseOutcome)
    (path : String) (text : Text) (topo : Topology)
    (hload : topologyLoadJson parse path (some text) Topology.initial = (.returned 0, topo))
    (hdone : ∀ r ∈ busSetup allocates parse path (some text), r.1 = .returned 0) :
    SetupSound ((busSetup allocates parse path (some text)).map Prod.snd) ↔
      Placeable (assignedBars topo) :=
  setup_sound_iff_placeable (length_busSetup allocates hload) (busSetup_laidOut allocates hload hdone)

/-! ### A device with three BARs -/

def board (devices : List TopologyDevice) : Topology :=
  ⟨kSchemaVersion, CText.ascii "usr_linux_emu", true, true, false, .kFull, .kGracefulDrain,
    devices⟩

def boardText (devices : List String) : String :=
  "\x7b\"schema_version\": 1, \"platform\": \"usr_linux_emu\", \"pcie\": \x7b
\"root_complex\": \x7b\"enabled\": true\x7d,
\"bypass_mux\": \x7b\"default_mode\": \"Full\",
\"default_drain_policy\": \"GracefulDrain\"\x7d
\x7d, \"devices\": [" ++ String.intercalate ", " devices ++ "]\x7d"

def boardJson (devices : List JsonValue) : JsonValue :=
  .object [("devices", .array devices),
    ("pcie", .object
      [("bypass_mux", .object
          [("default_drain_policy", .string (CText.ascii "GracefulDrain")),
            ("default_mode", .string (CText.ascii "Full"))]),
        ("root_complex", .object [("enabled", .boolean true)])]),
    ("platform", .string (CText.ascii "usr_linux_emu")), ("schema_version", .unsigned 1)]

def adapter : TopologyDevice :=
  ⟨0x0008, 0x10DE, 0x1234, 0x030200, CText.ascii "PcieEndpointMock",
    [⟨0, 0x1000000, false, true, false⟩, ⟨1, 0x1000000, false, true, false⟩,
      ⟨2, 0x100, false, false, false⟩]⟩

def adapterText : String :=
  "\x7b\"bdf\": \"0000:01:00.0\", \"vendor_id\": \"0x10DE\", \"device_id\": \"0x1234\",
\"class_code\": \"0x030200\", \"endpoint_kind\": \"PcieEndpointMock\",
\"bars\": [\x7b\"index\": 0, \"size_bytes\": 16777216\x7d,
\x7b\"index\": 1, \"size_bytes\": 16777216\x7d,
\x7b\"index\": 2, \"size_bytes\": 256, \"is_mmio\": false\x7d]\x7d"

def adapterJson : JsonValue :=
  .object [("bars", .array
      [.object [("index", .unsigned 0), ("size_bytes", .unsigned 0x1000000)],
        .object [("index", .unsigned 1), ("size_bytes", .unsigned 0x1000000)],
        .object [("index", .unsigned 2), ("is_mmio", .boolean false),
          ("size_bytes", .unsigned 0x100)]]),
    ("bdf", .string (CText.ascii "0000:01:00.0")),
    ("class_code", .string (CText.ascii "0x030200")),
    ("device_id", .string (CText.ascii "0x1234")),
    ("endpoint_kind", .string (CText.ascii "PcieEndpointMock")),
    ("vendor_id", .string (CText.ascii "0x10DE"))]

theorem load_adapter : topologyLoadJson
    (parseOnly (boardText [adapterText]) (boardJson [adapterJson]))
    "topology.json" (some (boardText [adapterText])) Topology.initial =
      (.returned 0, board [adapter]) := by
  have htopo : topologyOfJson (boardJson [adapterJson]) = some (board [adapter]) := rfl
  exact topologyLoadJson_of_json rfl (parseOnly_self _ _) htopo _

/-- Two memory BARs side by side, and an I/O BAR. -/
theorem bus_setup_sound_adapter :
    SetupSound ((busSetup (fun n => n ≤ 2 ^ 32)
      (parseOnly (boardText [adapterText]) (boardJson [adapterJson]))
      "topology.json" (some (boardText [adapterText]))).map Prod.snd) := by
  have hreturns : (assignBars (fun n => n ≤ 2 ^ 32) createPcieEmu 0xF0000000 0xE000
      adapter.bars).1 = true := rfl
  have hbars : assignedBars (board [adapter]) = [adapter.bars] := rfl
  have hfit : BarsFit adapter.bars := by decide
  refine (bus_setup_sound_iff _ _ _ _ (board [adapter]) load_adapter
    (busSetup_returns _ load_adapter (List.forall_mem_singleton.mpr hreturns))).mpr ?_
  rw [hbars]
  exact ⟨List.pairwise_singleton _ _, List.forall_mem_singleton.mpr hfit⟩

/-! ### Two devices with a memory BAR of 16 MiB -/

def accelerator (bdf : UInt16) : TopologyDevice :=
  ⟨bdf, 0x10DE, 0x1234, 0x030200, CText.ascii "PcieEndpointMock",
    [⟨0, 0x1000000, false, true, false⟩]⟩

def acceleratorText (bdf : String) : String :=
  "\x7b\"bdf\": \"" ++ bdf ++ "\", \"vendor_id\": \"0x10DE\", \"device_id\": \"0x1234\",
\"class_code\": \"0x030200\", \"endpoint_kind\": \"PcieEndpointMock\",
\"bars\": [\x7b\"index\": 0, \"size_bytes\": 16777216\x7d]\x7d"

def acceleratorJson (bdf : String) : JsonValue :=
  .object [("bars", .array [.object [("index", .unsigned 0), ("size_bytes", .unsigned 0x1000000)]]),
    ("bdf", .string (CText.ascii bdf)), ("class_code", .string (CText.ascii "0x030200")),
    ("device_id", .string (CText.ascii "0x1234")),
    ("endpoint_kind", .string (CText.ascii "PcieEndpointMock")),
    ("vendor_id", .string (CText.ascii "0x10DE"))]

theorem load_two : topologyLoadJson
    (parseOnly (boardText [acceleratorText "0000:01:00.0", acceleratorText "0000:02:00.0"])
      (boardJson [acceleratorJson "0000:01:00.0", acceleratorJson "0000:02:00.0"]))
    "topology.json"
    (some (boardText [acceleratorText "0000:01:00.0", acceleratorText "0000:02:00.0"]))
    Topology.initial = (.returned 0, board [accelerator 0x0008, accelerator 0x0010]) := by
  have htopo : topologyOfJson
      (boardJson [acceleratorJson "0000:01:00.0", acceleratorJson "0000:02:00.0"]) =
        some (board [accelerator 0x0008, accelerator 0x0010]) := rfl
  exact topologyLoadJson_of_json rfl (parseOnly_self _ _) htopo _

theorem assignBars_accelerator (bdf : UInt16) :
    (assignBars (fun n => n ≤ 2 ^ 32) createPcieEmu 0xF0000000 0xE000 (accelerator bdf).bars).1 =
      true :=
  rfl

/-- **Two devices at one address.**  Both devices are set up, and their BARs are the same range. -/
theorem bus_setup_sound_fails :
    (∀ r ∈ busSetup (fun n => n ≤ 2 ^ 32)
      (parseOnly (boardText [acceleratorText "0000:01:00.0", acceleratorText "0000:02:00.0"])
        (boardJson [acceleratorJson "0000:01:00.0", acceleratorJson "0000:02:00.0"]))
      "topology.json"
      (some (boardText [acceleratorText "0000:01:00.0", acceleratorText "0000:02:00.0"])),
      r.1 = .returned 0) ∧
    ¬SetupSound ((busSetup (fun n => n ≤ 2 ^ 32)
      (parseOnly (boardText [acceleratorText "0000:01:00.0", acceleratorText "0000:02:00.0"])
        (boardJson [acceleratorJson "0000:01:00.0", acceleratorJson "0000:02:00.0"]))
      "topology.json"
      (some (boardText [acceleratorText "0000:01:00.0",
        acceleratorText "0000:02:00.0"]))).map Prod.snd) := by
  have hbars : assignedBars (board [accelerator 0x0008, accelerator 0x0010]) =
      [[⟨0, 0x1000000, false, true, false⟩], [⟨0, 0x1000000, false, true, false⟩]] := rfl
  have hdone := busSetup_returns (fun n => n ≤ 2 ^ 32) load_two
    (List.forall_mem_cons.mpr ⟨assignBars_accelerator _,
      List.forall_mem_singleton.mpr (assignBars_accelerator _)⟩)
  refine ⟨hdone, fun hsound => ?_⟩
  have hplace := placeable_of_sound (length_busSetup _ load_two) (busSetup_laidOut _ load_two hdone)
    hsound
  have hpair := hplace.single
  rw [hbars] at hpair
  exact List.rel_of_pairwise_cons hpair List.mem_cons_self _ List.mem_cons_self _
    List.mem_cons_self rfl

end UsrLinuxEmu.Pci
