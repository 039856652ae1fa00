import UsrLinuxEmu.Layout.ByteHistory
import UsrLinuxEmu.Layout.Confinement
import UsrLinuxEmu.Pci.PcieEmu
import UsrLinuxEmu.Transition.Simulation

/-!
# Accesses to the BARs (`plugins/pci_driver/probe.cpp`)

BAR 0 has a vector for MMIO and BAR 1 one for RAM.  An access adds its offset and size in 64-bit
arithmetic and compares with the length of the vector, which an assignment of size zero leaves as it
is.

* `readMmio`, `writeMmio`, `readRam`, `writeRam` — the accesses;
* `BarObserver` — the size that each BAR was last assigned, and what was written to it since;
* `AccessLaw` — an access succeeds exactly inside the BAR, and a read returns what was written;
* `bar_access_iff` — the runs along which that is so.
-/

namespace UsrLinuxEmu.Pci

open UsrLinuxEmu.Layout UsrLinuxEmu.Transition

/-! ### The accesses -/

/-- BAR 0 and BAR 1. -/
inductive BarRegion where
  | mmio
  | ram
  deriving DecidableEq

def BarRegion.index : BarRegion → Int
  | mmio => 0
  | ram => 1

namespace PcieEmuImpl

def backing (emu : PcieEmuImpl) : BarRegion → List UInt8
  | .mmio => emu.bar0Mmio
  | .ram => emu.bar1Ram

def setBacking (emu : PcieEmuImpl) (r : BarRegion) (bytes : List UInt8) : PcieEmuImpl :=
  match r with
  | .mmio => { emu with bar0Mmio := bytes }
  | .ram => { emu with bar1Ram := bytes }

/-- The check of the four accesses. -/
def Accepts (emu : PcieEmuImpl) (r : BarRegion) (barOffset size : UInt64) : Prop :=
  barOffset + size ≤ UInt64.ofNat (emu.backing r).length

instance (emu : PcieEmuImpl) (r : BarRegion) (barOffset size : UInt64) :
    Decidable (emu.Accepts r barOffset size) :=
  inferInstanceAs (Decidable (_ ≤ _))

/-- The bytes that the buffer receives, or `-EINVAL`.  What `memcpy` finds outside the vector is
left out. -/
def readBar (r : BarRegion) (emu : PcieEmuImpl) (barOffset size : UInt64) :
    Except Int (List UInt8) :=
  if emu.Accepts r barOffset size then
    .ok ((List.range size.toNat).map fun i =>
      (emu.backing r).getD (barOffset + UInt64.ofNat i).toNat 0)
  else .error (-22)

/-- What `memcpy` overwrites outside the vector is left out. -/
def writeBar (r : BarRegion) (emu : PcieEmuImpl) (barOffset : UInt64) (buffer : ℕ → UInt8)
    (size : UInt64) : Int × PcieEmuImpl :=
  if emu.Accepts r barOffset size then
    (0, emu.setBacking r ((emu.backing r).mapIdx fun k b =>
      if UInt64.ofNat k - barOffset < size then buffer (UInt64.ofNat k - barOffset).toNat else b))
  else (-22, emu)

def readMmio : PcieEmuImpl → UInt64 → UInt64 → Except Int (List UInt8) := readBar .mmio

def writeMmio : PcieEmuImpl → UInt64 → (ℕ → UInt8) → UInt64 → Int × PcieEmuImpl := writeBar .mmio

def readRam : PcieEmuImpl → UInt64 → UInt64 → Except Int (List UInt8) := readBar .ram

def writeRam : PcieEmuImpl → UInt64 → (ℕ → UInt8) → UInt64 → Int × PcieEmuImpl := writeBar .ram

end PcieEmuImpl

inductive BarOp where
  | assignBar (allocates : ℕ → Bool) (index : Int) (base size : UInt64) (isMmio : Bool)
  | readMmio (barOffset size : UInt64)
  | writeMmio (barOffset : UInt64) (buffer : ℕ → UInt8) (size : UInt64)
  | readRam (barOffset size : UInt64)
  | writeRam (barOffset : UInt64) (buffer : ℕ → UInt8) (size : UInt64)

def PcieEmuImpl.barStep (emu : PcieEmuImpl) : BarOp → PcieEmuImpl
  | .assignBar allocates index base size isMmio =>
    (emu.assignBar allocates index base size isMmio).2
  | .readMmio _ _ | .readRam _ _ => emu
  | .writeMmio barOffset buffer size => (emu.writeMmio barOffset buffer size).2
  | .writeRam barOffset buffer size => (emu.writeRam barOffset buffer size).2

/-! ### The property -/

/-- The size last assigned by a call that returned, and the successful writes since, newest
first. -/
structure BarObserver where
  assigned : BarRegion → ℕ
  written : BarRegion → List ByteWrite

namespace BarObserver

def start : BarObserver := ⟨fun _ => 0, fun _ => []⟩

def noteAssign (g : BarObserver) (index : Int) (size : UInt64) : BarObserver :=
  ⟨fun r => if index = r.index then size.toNat else g.assigned r,
    fun r => if index = r.index then [] else g.written r⟩

def noteWrite (g : BarObserver) (r : BarRegion) (barOffset : UInt64) (buffer : ℕ → UInt8)
    (size : UInt64) (rc : Int) : BarObserver :=
  if rc = 0 then
    { g with
      written := Function.update g.written r
        (⟨barOffset.toNat, size.toNat, buffer⟩ :: g.written r) }
  else g

def note (g : BarObserver) (emu : PcieEmuImpl) : BarOp → BarObserver
  | .assignBar allocates index base size isMmio =>
    if (emu.assignBar allocates index base size isMmio).1 then g.noteAssign index size else g
  | .readMmio _ _ | .readRam _ _ => g
  | .writeMmio barOffset buffer size =>
    g.noteWrite .mmio barOffset buffer size (emu.writeMmio barOffset buffer size).1
  | .writeRam barOffset buffer size =>
    g.noteWrite .ram barOffset buffer size (emu.writeRam barOffset buffer size).1

/-- The range lies in the BAR. -/
def InBar (g : BarObserver) (r : BarRegion) (barOffset size : UInt64) : Prop :=
  Inside 0 (g.assigned r) barOffset.toNat size.toNat

instance (g : BarObserver) (r : BarRegion) (barOffset size : UInt64) :
    Decidable (g.InBar r barOffset size) :=
  inferInstanceAs (Decidable (Inside ..))

/-- The bytes last written, zero where nothing was. -/
def expected (g : BarObserver) (r : BarRegion) (barOffset size : UInt64) : List UInt8 :=
  (List.range size.toNat).map fun i => (lastWritten (g.written r) (barOffset.toNat + i)).getD 0

/-- A read succeeds exactly inside the BAR, and returns what was last written. -/
def ReadLaw (g : BarObserver) (r : BarRegion) (barOffset size : UInt64)
    (result : Except Int (List UInt8)) : Prop :=
  (result.isOk = true ↔ g.InBar r barOffset size) ∧
    ∀ bytes, result = .ok bytes → bytes = g.expected r barOffset size

/-- A write succeeds exactly inside the BAR, and a rejected one changes nothing. -/
def WriteLaw (g : BarObserver) (r : BarRegion) (emu : PcieEmuImpl) (barOffset size : UInt64)
    (result : Int × PcieEmuImpl) : Prop :=
  (result.1 = 0 ↔ g.InBar r barOffset size) ∧ (result.1 ≠ 0 → result.2 = emu)

end BarObserver

abbrev observedBars : BarObserver × PcieEmuImpl → BarOp → BarObserver × PcieEmuImpl :=
  observed PcieEmuImpl.barStep BarObserver.note

abbrev barsStart : BarObserver × PcieEmuImpl := (.start, createPcieEmu)

def AccessLaw (x : BarObserver × PcieEmuImpl) : BarOp → Prop
  | .assignBar _ _ _ _ _ => True
  | .readMmio barOffset size =>
    x.1.ReadLaw .mmio barOffset size (x.2.readMmio barOffset size)
  | .readRam barOffset size => x.1.ReadLaw .ram barOffset size (x.2.readRam barOffset size)
  | .writeMmio barOffset buffer size =>
    x.1.WriteLaw .mmio x.2 barOffset size (x.2.writeMmio barOffset buffer size)
  | .writeRam barOffset buffer size =>
    x.1.WriteLaw .ram x.2 barOffset size (x.2.writeRam barOffset buffer size)

/-- The end of the range does not wrap around to the vector, and a range in the vector is in the
BAR. -/
def RangeSound (x : BarObserver × PcieEmuImpl) (r : BarRegion) (barOffset size : UInt64) : Prop :=
  ¬WrapsInto (2 ^ 64) (x.2.backing r).length barOffset.toNat size.toNat ∧
    (barOffset.toNat + size.toNat ≤ (x.2.backing r).length → x.1.InBar r barOffset size)

def accessGuard (x : BarObserver × PcieEmuImpl) : BarOp → Prop
  | .assignBar _ _ _ _ _ => True
  | .readMmio barOffset size => RangeSound x .mmio barOffset size
  | .readRam barOffset size => RangeSound x .ram barOffset size
  | .writeMmio barOffset _ size => RangeSound x .mmio barOffset size
  | .writeRam barOffset _ size => RangeSound x .ram barOffset size

/-! ### What a call does to the vectors -/

section Calls

variable {emu : PcieEmuImpl} {r : BarRegion}

@[simp] theorem backing_setBacking_self (emu : PcieEmuImpl) (r : BarRegion) (bytes : List UInt8) :
    (emu.setBacking r bytes).backing r = bytes := by
  cases r <;> rfl

theorem backing_setBacking_of_ne (emu : PcieEmuImpl) {r r' : BarRegion} (h : r' ≠ r)
    (bytes : List UInt8) : (emu.setBacking r bytes).backing r' = emu.backing r' := by
  cases r <;> cases r' <;> first | rfl | exact absurd rfl h

theorem backing_writeConfigDword (emu : PcieEmuImpl) (offset : ℕ) (value : UInt32)
    (r : BarRegion) : (emu.writeConfigDword offset value).backing r = emu.backing r := by
  unfold PcieEmuImpl.writeConfigDword
  split_ifs <;> cases r <;> rfl

/-- The device with the BAR's range and register set, before its vector is. -/
def programBar (emu : PcieEmuImpl) (index : Int) (base size : UInt64) (isMmio : Bool) :
    PcieEmuImpl :=
  let bar : Bar := ⟨base, size, isMmio, decide (0 < size)⟩
  { emu with bars := Function.update emu.bars index.toNat bar }.writeConfigDword
    (barOffset index.toNat) (barRegister isMmio base)

theorem backing_programBar (emu : PcieEmuImpl) (index : Int) (base size : UInt64) (isMmio : Bool)
    (r : BarRegion) : (programBar emu index base size isMmio).backing r = emu.backing r := by
  rw [programBar, backing_writeConfigDword]
  cases r <;> rfl

/-- The vector of a BAR that has one, for a size that is not zero. -/
def BarRegion.ofIndex (index : Int) : Option BarRegion :=
  if index = 0 then some .mmio else if index = 1 then some .ram else none

theorem BarRegion.ofIndex_eq_some {index : Int} {r : BarRegion} :
    BarRegion.ofIndex index = some r ↔ index = r.index := by
  unfold ofIndex
  cases r <;> simp only [BarRegion.index] <;> split_ifs <;> simp_all

theorem assignBar_eq (allocates : ℕ → Bool) (emu : PcieEmuImpl) (index : Int)
    (base size : UInt64) (isMmio : Bool) :
    emu.assignBar allocates index base size isMmio =
      if index < 0 ∨ 6 ≤ index then (true, emu)
      else
        match BarRegion.ofIndex index with
        | some r =>
          if 0 < size then
            if allocates size.toNat then
              (true, (programBar emu index base size isMmio).setBacking r
                (List.replicate size.toNat 0))
            else (false, programBar emu index base size isMmio)
          else (true, programBar emu index base size isMmio)
        | none => (true, programBar emu index base size isMmio) := by
  unfold PcieEmuImpl.assignBar BarRegion.ofIndex
  by_cases hout : index < 0 ∨ 6 ≤ index
  · rw [if_pos hout, if_pos hout]
  rw [if_neg hout, if_neg hout]
  by_cases h0 : index = 0
  · simp only [h0, true_and, if_true, Int.zero_ne_one, false_and, if_false]
    rfl
  by_cases h1 : index = 1
  · simp only [h1, one_ne_zero, false_and, true_and, if_true, if_false]
    rfl
  · simp only [h0, h1, false_and, if_false]
    rfl

/-- A call that returns gives the BAR a fresh vector, unless its size is zero; any other leaves the
vectors as they are. -/
theorem backing_assignBar (allocates : ℕ → Bool) (emu : PcieEmuImpl) (index : Int)
    (base size : UInt64) (isMmio : Bool) (r : BarRegion) :
    (emu.assignBar allocates index base size isMmio).2.backing r =
      if (emu.assignBar allocates index base size isMmio).1 = true ∧ index = r.index ∧ 0 < size then
        List.replicate size.toNat 0
      else emu.backing r := by
  have hkeep := backing_programBar emu index base size isMmio r
  rw [assignBar_eq]
  by_cases hout : index < 0 ∨ 6 ≤ index
  · have hne : index ≠ r.index := by
      cases r <;> simp only [BarRegion.index] <;> omega
    rw [if_pos hout, if_neg fun h => hne h.2.1]
  rw [if_neg hout]
  simp only [← BarRegion.ofIndex_eq_some]
  cases hr : BarRegion.ofIndex index with
  | none => simp only [hkeep, reduceCtorEq, false_and, and_false, if_false]
  | some r' =>
    by_cases hsize : 0 < size
    · cases halloc : allocates size.toNat with
      | false => simp [hsize, hkeep]
      | true =>
        by_cases heq : r' = r
        · simp [hsize, heq]
        · simp [hsize, heq, backing_setBacking_of_ne _ (Ne.symm heq), hkeep]
    · simp only [hsize, if_false, and_false, hkeep]

end Calls

/-! ### The invariant -/

/-- A BAR is no larger than its vector, which holds what was written since the assignment. -/
structure BarsInv (x : BarObserver × PcieEmuImpl) : Prop where
  length_lt : ∀ r, (x.2.backing r).length < 2 ^ 64
  assigned_le : ∀ r, x.1.assigned r ≤ (x.2.backing r).length
  reflects : ∀ r, Reflects (fun k => (x.2.backing r).getD k 0) (x.1.assigned r) (x.1.written r)

theorem barsInv_start : BarsInv barsStart where
  length_lt := by
    intro r
    cases r <;> decide
  assigned_le := fun _ => Nat.zero_le _
  reflects := fun _ k hk => absurd hk (Nat.not_lt_zero k)

section Steps

variable {g : BarObserver} {emu : PcieEmuImpl} {r : BarRegion} {barOffset size : UInt64}

theorem accepts_iff (hlen : (emu.backing r).length < 2 ^ 64) :
    emu.Accepts r barOffset size ↔
      barOffset.toNat + size.toNat ≤ (emu.backing r).length ∨
        WrapsInto (2 ^ 64) (emu.backing r).length barOffset.toNat size.toNat := by
  rw [PcieEmuImpl.Accepts, UInt64.le_iff_toNat_le, UInt64.toNat_add, UInt64.toNat_ofNat',
    Nat.mod_eq_of_lt hlen, check_iff barOffset.toNat_lt size.toNat_lt]

/-- The condition says that the check is right. -/
theorem rangeSound_iff (h : BarsInv (g, emu)) :
    RangeSound (g, emu) r barOffset size ↔
      (emu.Accepts r barOffset size ↔ g.InBar r barOffset size) := by
  have hlen := h.length_lt r
  have hle : g.assigned r ≤ (emu.backing r).length := h.assigned_le r
  rw [accepts_iff hlen, RangeSound, BarObserver.InBar]
  simp only [WrapsInto, Inside]
  simp only at hlen
  omega

theorem readLaw_iff (h : BarsInv (g, emu)) :
    g.ReadLaw r barOffset size (emu.readBar r barOffset size) ↔
      RangeSound (g, emu) r barOffset size := by
  rw [rangeSound_iff h, BarObserver.ReadLaw, PcieEmuImpl.readBar]
  by_cases hok : emu.Accepts r barOffset size
  · rw [if_pos hok]
    refine ⟨fun hlaw => iff_of_true hok (hlaw.1.mp rfl), fun hiff => ?_⟩
    have hin := hiff.mp hok
    refine ⟨iff_of_true rfl hin, fun bytes hbytes => ?_⟩
    rw [← Except.ok.inj hbytes]
    refine List.map_congr_left fun i hi => ?_
    have hi' := List.mem_range.mp hi
    have hend : barOffset.toNat + size.toNat ≤ 0 + g.assigned r := hin.2
    have hlen : (emu.backing r).length < 2 ^ 64 := h.length_lt r
    have hle : g.assigned r ≤ (emu.backing r).length := h.assigned_le r
    rw [toNat_add_ofNat (by omega)]
    exact h.reflects r (barOffset.toNat + i) (by show _ < g.assigned r; omega)
  · rw [if_neg hok]
    refine ⟨fun hlaw => iff_of_false hok fun hin => ?_, fun hiff => ?_⟩
    · exact absurd (hlaw.1.mpr hin) nofun
    · exact ⟨iff_of_false nofun (mt hiff.mpr hok), nofun⟩

theorem writeLaw_iff (h : BarsInv (g, emu)) (buffer : ℕ → UInt8) :
    g.WriteLaw r emu barOffset size (emu.writeBar r barOffset buffer size) ↔
      RangeSound (g, emu) r barOffset size := by
  rw [rangeSound_iff h, BarObserver.WriteLaw, PcieEmuImpl.writeBar]
  by_cases hok : emu.Accepts r barOffset size
  · rw [if_pos hok]
    simp only [true_iff, ne_eq, not_true_eq_false, false_implies, and_true, hok]
  · rw [if_neg hok]
    simp [hok]

/-- A byte of the vector after a write that does not wrap around. -/
theorem getD_written {v : List UInt8} (hlen : v.length < 2 ^ 64)
    (hend : barOffset.toNat + size.toNat ≤ v.length) (buffer : ℕ → UInt8) {k : ℕ}
    (hk : k < v.length) :
    (v.mapIdx fun k b =>
        if UInt64.ofNat k - barOffset < size then buffer (UInt64.ofNat k - barOffset).toNat
        else b).getD k 0 =
      if (⟨barOffset.toNat, size.toNat, buffer⟩ : ByteWrite).Covers k then
        (⟨barOffset.toNat, size.toNat, buffer⟩ : ByteWrite).byteAt k
      else v.getD k 0 := by
  have hrange : UInt64.ofNat k - barOffset < size ↔ _ :=
    ofNat_sub_lt_iff (hk.trans hlen) (by omega)
  simp only [List.getD_eq_getElem?_getD, List.getElem?_mapIdx, List.getElem?_eq_getElem hk,
    Option.map_some, Option.getD_some, hrange, ByteWrite.Covers, ByteWrite.byteAt]
  split_ifs with hcover
  · have hplace : k - barOffset.toNat < 2 ^ 64 := by omega
    rw [ofNat_sub hcover.1, UInt64.toNat_ofNat_of_lt' hplace]
  · rfl

/-- A write that the BAR has room for. -/
theorem barsInv_write (h : BarsInv (g, emu)) (buffer : ℕ → UInt8)
    (hG : RangeSound (g, emu) r barOffset size) :
    BarsInv (g.noteWrite r barOffset buffer size (emu.writeBar r barOffset buffer size).1,
      (emu.writeBar r barOffset buffer size).2) := by
  have hiff := (rangeSound_iff h).mp hG
  rw [PcieEmuImpl.writeBar]
  by_cases hok : emu.Accepts r barOffset size
  swap
  · rw [if_neg hok]
    exact h
  have hin := hiff.mp hok
  have hend : barOffset.toNat + size.toNat ≤ 0 + g.assigned r := hin.2
  have hlen : (emu.backing r).length < 2 ^ 64 := h.length_lt r
  have hle : g.assigned r ≤ (emu.backing r).length := h.assigned_le r
  rw [if_pos hok, BarObserver.noteWrite, if_pos rfl]
  refine ⟨fun r' => ?_, fun r' => ?_, fun r' => ?_⟩
  · by_cases hr : r' = r
    · subst hr
      simp only [backing_setBacking_self, List.length_mapIdx]
      exact hlen
    · rw [backing_setBacking_of_ne _ hr]
      exact h.length_lt r'
  · by_cases hr : r' = r
    · subst hr
      simp only [backing_setBacking_self, List.length_mapIdx]
      exact hle
    · rw [backing_setBacking_of_ne _ hr]
      exact h.assigned_le r'
  · by_cases hr : r' = r
    · subst hr
      simp only [backing_setBacking_self, Function.update_self]
      refine (h.reflects r').write ⟨barOffset.toNat, size.toNat, buffer⟩ fun k hk => ?_
      exact getD_written hlen (by omega) buffer (hk.trans_le hle)
    · simp only [backing_setBacking_of_ne _ hr, Function.update_of_ne hr]
      exact h.reflects r'

theorem barsInv_assign (h : BarsInv (g, emu)) (allocates : ℕ → Bool) (index : Int)
    (base size : UInt64) (isMmio : Bool) :
    BarsInv (observedBars (g, emu) (.assignBar allocates index base size isMmio)) := by
  have hback := backing_assignBar allocates emu index base size isMmio
  show BarsInv (if (emu.assignBar allocates index base size isMmio).1 then
    g.noteAssign index size else g, (emu.assignBar allocates index base size isMmio).2)
  cases hret : (emu.assignBar allocates index base size isMmio).1 with
  | false =>
    simp only [hret, Bool.false_eq_true, false_and, if_false] at hback ⊢
    refine ⟨fun r => ?_, fun r => ?_, fun r => ?_⟩
    · rw [hback]
      exact h.length_lt r
    · rw [hback]
      exact h.assigned_le r
    · simp only [hback]
      exact h.reflects r
  | true =>
    simp only [hret, true_and, if_true] at hback ⊢
    simp only [BarObserver.noteAssign]
    refine ⟨fun r => ?_, fun r => ?_, fun r => ?_⟩
    · rw [hback]
      split_ifs
      · rw [List.length_replicate]
        exact size.toNat_lt
      · exact h.length_lt r
    · simp only [hback]
      by_cases hr : index = r.index
      · by_cases hsize : 0 < size
        · rw [if_pos hr, if_pos ⟨hr, hsize⟩, List.length_replicate]
        · have hzero : size.toNat = 0 := by
            rw [UInt64.lt_iff_toNat_lt] at hsize
            exact Nat.eq_zero_of_not_pos hsize
          rw [if_pos hr, hzero]
          exact Nat.zero_le _
      · rw [if_neg hr, if_neg fun hc => hr hc.1]
        exact h.assigned_le r
    · simp only [hback]
      by_cases hr : index = r.index
      · simp only [if_pos hr]
        intro k hk
        have hsize : 0 < size := UInt64.lt_iff_toNat_lt.mpr (Nat.zero_lt_of_lt hk)
        rw [if_pos ⟨hr, hsize⟩]
        simp [lastWritten]
      · rw [if_neg hr, if_neg hr, if_neg fun hc => hr hc.1]
        exact h.reflects r

end Steps

theorem barsInv_step (x : BarObserver × PcieEmuImpl) (op : BarOp) (h : BarsInv x)
    (hG : accessGuard x op) : BarsInv (observedBars x op) := by
  cases op with
  | assignBar allocates index base size isMmio =>
    exact barsInv_assign h allocates index base size isMmio
  | readMmio barOffset size => exact h
  | readRam barOffset size => exact h
  | writeMmio barOffset buffer size => exact barsInv_write h buffer hG
  | writeRam barOffset buffer size => exact barsInv_write h buffer hG

/-- An access obeys the law exactly when it meets the condition. -/
theorem accessLaw_iff (x : BarObserver × PcieEmuImpl) (op : BarOp) (h : BarsInv x) :
    AccessLaw x op ↔ accessGuard x op := by
  cases op with
  | assignBar allocates index base size isMmio => exact Iff.rfl
  | readMmio barOffset size => exact readLaw_iff h
  | readRam barOffset size => exact readLaw_iff h
  | writeMmio barOffset buffer size => exact writeLaw_iff h buffer
  | writeRam barOffset buffer size => exact writeLaw_iff h buffer

/-- **BAR accesses.**  Along a run every access succeeds exactly inside the BAR as last assigned,
and every read returns what was last written, exactly when no end of a range wraps around into the
vector, and no range in the vector is outside the BAR. -/
theorem bar_access_iff (ops : List BarOp) :
    Guarded observedBars AccessLaw barsStart ops ↔
      Guarded observedBars accessGuard barsStart ops :=
  guarded_iff_of_inductive barsInv_step (fun x op h => (accessLaw_iff x op h).mpr)
    (fun x op h => (accessLaw_iff x op h).mp) ops barsInv_start

/-- A read of 32 bytes from 16 below zero is accepted. -/
theorem bar_access_fails :
    ¬Guarded observedBars AccessLaw barsStart
      [.assignBar (fun _ => true) 0 0xF0000000 64 true, .readMmio 0xfffffffffffffff0 32] := by
  rintro ⟨-, hlaw, -⟩
  exact absurd hlaw.1 (by decide)

end UsrLinuxEmu.Pci
