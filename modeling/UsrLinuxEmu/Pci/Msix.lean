import UsrLinuxEmu.Layout.BitArray
import UsrLinuxEmu.Layout.LittleEndian
import UsrLinuxEmu.Pci.BarAccess
import UsrLinuxEmu.Pci.CapabilityChain

/-!
# MSI-X (`plugins/pci_driver/pci_msi.cpp`, `pcie_enable_device.cpp`)

A driver sets vectors up and the simulation injects interrupts: each sets a bit of the pending bit
array and calls the registered handler.  The table size and the bus master bit are in configuration
space as well, where the driver can write.

* `MsixDevice` — the emulator with its vectors, its handler and its power state;
* `MsixDevice.call` — the calls of the driver and of the simulation;
* `VectorUnit` — an interrupt controller as the driver thinks of it;
* `msix_refines` — along every run the device is such a controller.
-/

namespace UsrLinuxEmu.Pci

open UsrLinuxEmu.GpuDriver (or_shiftLeft)
open UsrLinuxEmu.Layout UsrLinuxEmu.Transition

/-! ### The device -/

def pciEnxio : ℤ := -6
def pciCapIdAny : UInt8 := 0xFF
def pciCfgCommand : ℕ := 0x04
def pciCommandBme : UInt16 := (1 : UInt16) <<< 2
def pciCommandMse : UInt16 := (1 : UInt16) <<< 1
def pciCommandIo : UInt16 := (1 : UInt16) <<< 0

def PcieEmuImpl.findCapability (emu : PcieEmuImpl) (capId : UInt8) : ℕ :=
  match emu.capabilities.find? fun cap => decide (capId = pciCapIdAny ∨ cap.capId = capId) with
  | some cap => cap.configOffset
  | none => 0

structure MsixEntry where
  addrLo : UInt32
  addrHi : UInt32
  data : UInt32
  control : UInt32
  deriving DecidableEq, Repr

/-- `delivered` holds the calls of handlers, oldest first.  What a handler does on the device is the
same as if it were done after the injection. -/
structure MsixDevice (η : Type*) where
  emu : PcieEmuImpl
  msixTable : ℕ → MsixEntry
  pba : ℕ → UInt8
  msixEnabled : Bool
  msixNrVectors : UInt16
  msixTableOffset : UInt32
  msixHandler : Option η
  deviceEnabled : Bool
  currentPowerState : UInt8
  delivered : List (η × ℤ)

inductive MsixOp (η : Type*) where
  | setupMsix (nrVectors : UInt16) (tableOffset : UInt32)
  | disableMsix
  | injectMsixInterrupt (vectorId : ℤ)
  | registerMsixHandler (handler : Option η)
  | writeConfigByte (offset : ℕ) (value : UInt8)
  | writeConfigWord (offset : ℕ) (value : UInt16)
  | writeConfigDword (offset : ℕ) (value : UInt32)
  | assignBar (allocates : ℕ → Bool) (index : ℤ) (base size : UInt64) (isMmio : Bool)
  | enableBusMaster
  | disableBusMaster
  | pciEnableDevice

variable {η : Type*}

namespace MsixDevice

def create : MsixDevice η :=
  ⟨createPcieEmu, fun _ => ⟨0, 0, 0, 0⟩, fun _ => 0, false, 0, 0, none, false, 0, []⟩

def setupMsix (d : MsixDevice η) (nrVectors : UInt16) (tableOffset : UInt32) :
    ℤ × MsixDevice η :=
  if nrVectors = 0 ∨ msixMaxVectors < nrVectors then (pciEinval, d)
  else
    (0, { d with
      msixTable := fun _ => ⟨0, 0, 0, 0⟩
      pba := fun _ => 0
      msixNrVectors := nrVectors
      msixTableOffset := tableOffset
      msixEnabled := true
      emu := (d.emu.setupMsix nrVectors).2 })

def disableMsix (d : MsixDevice η) : ℤ × MsixDevice η :=
  if d.msixEnabled = false then (0, d)
  else
    (0, { d with
      msixTable := fun _ => ⟨0, 0, 0, 0⟩
      pba := fun _ => 0
      msixEnabled := false
      msixNrVectors := 0
      msixTableOffset := 0 })

def injectMsixInterrupt (d : MsixDevice η) (vectorId : ℤ) : ℤ × MsixDevice η :=
  if d.msixEnabled = false then (pciEnxio, d)
  else if vectorId < 0 ∨ (d.msixNrVectors.toNat : ℤ) ≤ vectorId then (pciEinval, d)
  else
    let pba := setBit d.pba vectorId.toNat
    match d.msixHandler with
    | some handler => (0, { d with pba := pba, delivered := d.delivered ++ [(handler, vectorId)] })
    | none => (0, { d with pba := pba })

def setCommand (d : MsixDevice η) (cmd : UInt16) : MsixDevice η :=
  { d with emu := d.emu.writeConfigWord pciCfgCommand cmd }

def command (d : MsixDevice η) : UInt16 := d.emu.readConfigWord pciCfgCommand

def enableBusMaster (d : MsixDevice η) : MsixDevice η :=
  { d.setCommand (d.command ||| pciCommandBme) with deviceEnabled := true, currentPowerState := 0 }

def disableBusMaster (d : MsixDevice η) : MsixDevice η :=
  { d.setCommand (d.command &&& ~~~pciCommandBme) with deviceEnabled := false }

def pciEnableDevice (d : MsixDevice η) : ℤ × MsixDevice η :=
  (0, (d.setCommand (d.command ||| pciCommandMse ||| pciCommandIo)).enableBusMaster)

/-- The calls that return nothing are given 0. -/
def call (d : MsixDevice η) : MsixOp η → ℤ × MsixDevice η
  | .setupMsix nrVectors tableOffset => d.setupMsix nrVectors tableOffset
  | .disableMsix => d.disableMsix
  | .injectMsixInterrupt vectorId => d.injectMsixInterrupt vectorId
  | .registerMsixHandler handler => (0, { d with msixHandler := handler })
  | .writeConfigByte offset value => (0, { d with emu := d.emu.writeConfigByte offset value })
  | .writeConfigWord offset value => (0, { d with emu := d.emu.writeConfigWord offset value })
  | .writeConfigDword offset value => (0, { d with emu := d.emu.writeConfigDword offset value })
  | .assignBar allocates index base size isMmio =>
    (0, { d with emu := (d.emu.assignBar allocates index base size isMmio).2 })
  | .enableBusMaster => (0, d.enableBusMaster)
  | .disableBusMaster => (0, d.disableBusMaster)
  | .pciEnableDevice => d.pciEnableDevice

def step (d : MsixDevice η) (op : MsixOp η) : MsixDevice η := (d.call op).2

/-- The message control word of the capability that a driver finds. -/
def messageControl (d : MsixDevice η) : UInt16 :=
  d.emu.readConfigWord (d.emu.findCapability pciCapIdMsix + 2)

/-- The table size that the device advertises. -/
def tableSize (d : MsixDevice η) : ℕ := d.messageControl.toNat % 2 ^ 11 + 1

def busMaster (d : MsixDevice η) : Bool := d.command.toNat.testBit 2

end MsixDevice

/-! ### The controller -/

/-- Vectors are numbered from 0; with none the unit is off.  A vector stays pending until the unit
is set up again or turned off.  `tableSize` outlives that. -/
structure VectorUnit (η : Type*) where
  vectors : ℕ
  pending : Set ℕ
  handler : Option η
  delivered : List (η × ℤ)
  tableSize : ℕ
  busMaster : Bool

namespace VectorUnit

def create : VectorUnit η := ⟨0, ∅, none, [], 16, false⟩

/-- A write to configuration space is none of the unit's business. -/
def call (u : VectorUnit η) : MsixOp η → ℤ × VectorUnit η
  | .setupMsix nrVectors _ =>
    if 0 < nrVectors.toNat ∧ nrVectors.toNat ≤ 2048 then
      (0, { u with vectors := nrVectors.toNat, pending := ∅, tableSize := nrVectors.toNat })
    else (-22, u)
  | .disableMsix => (0, { u with vectors := 0, pending := ∅ })
  | .injectMsixInterrupt vectorId =>
    if u.vectors = 0 then (-6, u)
    else if 0 ≤ vectorId ∧ vectorId < u.vectors then
      (0, { u with
        pending := insert vectorId.toNat u.pending
        delivered := u.delivered ++ (u.handler.map fun handler => (handler, vectorId)).toList })
    else (-22, u)
  | .registerMsixHandler handler => (0, { u with handler := handler })
  | .writeConfigByte .. | .writeConfigWord .. | .writeConfigDword .. | .assignBar .. => (0, u)
  | .enableBusMaster | .pciEnableDevice => (0, { u with busMaster := true })
  | .disableBusMaster => (0, { u with busMaster := false })

def step (u : VectorUnit η) (op : MsixOp η) : VectorUnit η := (u.call op).2

end VectorUnit

/-- What the emulator keeps for itself. -/
structure Controls (u : VectorUnit η) (d : MsixDevice η) : Prop where
  enabled : d.msixEnabled = decide (0 < u.vectors)
  vectors : d.msixNrVectors.toNat = u.vectors
  pending : ∀ v, bitAt d.pba v = true ↔ v ∈ u.pending
  inRange : ∀ v ∈ u.pending, v < u.vectors
  handler : d.msixHandler = u.handler
  delivered : d.delivered = u.delivered
  busMaster : d.deviceEnabled = u.busMaster

/-- What a driver reads in configuration space. -/
structure Registers (u : VectorUnit η) (d : MsixDevice η) : Prop where
  tableSize : d.tableSize = u.tableSize
  busMaster : d.busMaster = u.busMaster

/-- A write to configuration space by the driver leaves the two fields as they are; it may well
change the bytes that they share with others. -/
def KeepsRegisters (d : MsixDevice η) : MsixOp η → Prop
  | .writeConfigByte offset value =>
    (d.step (.writeConfigByte offset value)).tableSize = d.tableSize ∧
      (d.step (.writeConfigByte offset value)).busMaster = d.busMaster
  | .writeConfigWord offset value =>
    (d.step (.writeConfigWord offset value)).tableSize = d.tableSize ∧
      (d.step (.writeConfigWord offset value)).busMaster = d.busMaster
  | .writeConfigDword offset value =>
    (d.step (.writeConfigDword offset value)).tableSize = d.tableSize ∧
      (d.step (.writeConfigDword offset value)).busMaster = d.busMaster
  | _ => True

/-! ### The controls -/

section Controls

variable {u : VectorUnit η} {d : MsixDevice η}

theorem controls_create : Controls (.create : VectorUnit η) .create where
  enabled := rfl
  vectors := rfl
  pending v := by
    show bitAt (fun _ => 0) v = true ↔ v ∈ (∅ : Set ℕ)
    simp
  inRange _ hv := absurd hv (Set.notMem_empty _)
  handler := rfl
  delivered := rfl
  busMaster := rfl

/-- The table and configuration space are not among the controls. -/
theorem Controls.congr (h : Controls u d) {d' : MsixDevice η}
    (henabled : d'.msixEnabled = d.msixEnabled) (hvectors : d'.msixNrVectors = d.msixNrVectors)
    (hpba : d'.pba = d.pba) (hhandler : d'.msixHandler = d.msixHandler)
    (hdelivered : d'.delivered = d.delivered) (hmaster : d'.deviceEnabled = d.deviceEnabled) :
    Controls u d' where
  enabled := henabled.trans h.enabled
  vectors := (congrArg UInt16.toNat hvectors).trans h.vectors
  pending v := by
    rw [hpba]
    exact h.pending v
  inRange := h.inRange
  handler := hhandler.trans h.handler
  delivered := hdelivered.trans h.delivered
  busMaster := hmaster.trans h.busMaster

theorem nrVectors_valid (nrVectors : UInt16) :
    (nrVectors = 0 ∨ msixMaxVectors < nrVectors) ↔
      ¬(0 < nrVectors.toNat ∧ nrVectors.toNat ≤ 2048) := by
  have hlt : msixMaxVectors < nrVectors ↔ 2048 < nrVectors.toNat := UInt16.lt_iff_toNat_lt
  rw [hlt, ← UInt16.toNat_inj]
  show nrVectors.toNat = 0 ∨ _ ↔ _
  omega

theorem Controls.setupMsix (h : Controls u d) (nrVectors : UInt16) (tableOffset : UInt32) :
    (d.setupMsix nrVectors tableOffset).1 = (u.call (.setupMsix nrVectors tableOffset)).1 ∧
      Controls (u.step (.setupMsix nrVectors tableOffset)) (d.setupMsix nrVectors tableOffset).2 := by
  simp only [MsixDevice.setupMsix, VectorUnit.step, VectorUnit.call, nrVectors_valid]
  by_cases hvalid : 0 < nrVectors.toNat ∧ nrVectors.toNat ≤ 2048
  · rw [if_pos hvalid, if_neg (not_not.mpr hvalid)]
    exact ⟨rfl, (decide_eq_true hvalid.1).symm, rfl, fun v => by simp,
      fun _ hv => absurd hv (Set.notMem_empty _), h.handler, h.delivered, h.busMaster⟩
  · rw [if_neg hvalid, if_pos hvalid]
    exact ⟨rfl, h⟩

theorem Controls.disableMsix (h : Controls u d) :
    d.disableMsix.1 = (u.call .disableMsix).1 ∧
      Controls (u.step .disableMsix) d.disableMsix.2 := by
  simp only [MsixDevice.disableMsix, VectorUnit.step, VectorUnit.call]
  by_cases hoff : d.msixEnabled = false
  · -- a unit that is off has nothing pending
    have hzero : u.vectors = 0 := by
      rw [h.enabled, decide_eq_false_iff_not] at hoff
      omega
    rw [if_pos hoff]
    refine ⟨rfl, h.enabled.trans ?_, h.vectors.trans hzero, fun v => ?_,
      fun _ hv => absurd hv (Set.notMem_empty _), h.handler, h.delivered, h.busMaster⟩
    · rw [hzero]
    · have hnone : v ∉ u.pending := fun hv => absurd (h.inRange v hv) (by omega)
      rw [h.pending v]
      simp [hnone]
  · rw [if_neg hoff]
    exact ⟨rfl, rfl, rfl, fun v => by simp, fun _ hv => absurd hv (Set.notMem_empty _),
      h.handler, h.delivered, h.busMaster⟩

theorem Controls.injectMsixInterrupt (h : Controls u d) (vectorId : ℤ) :
    (d.injectMsixInterrupt vectorId).1 = (u.call (.injectMsixInterrupt vectorId)).1 ∧
      Controls (u.step (.injectMsixInterrupt vectorId)) (d.injectMsixInterrupt vectorId).2 := by
  have hoff : d.msixEnabled = false ↔ u.vectors = 0 := by
    rw [h.enabled, decide_eq_false_iff_not]
    omega
  simp only [MsixDevice.injectMsixInterrupt, VectorUnit.step, VectorUnit.call, hoff, h.vectors]
  by_cases hzero : u.vectors = 0
  · rw [if_pos hzero, if_pos hzero]
    exact ⟨rfl, h⟩
  rw [if_neg hzero, if_neg hzero]
  by_cases hrange : 0 ≤ vectorId ∧ vectorId < u.vectors
  · rw [if_pos hrange, if_neg (by omega)]
    have hpending (v : ℕ) : bitAt (setBit d.pba vectorId.toNat) v = true ↔
        v ∈ insert vectorId.toNat u.pending := by
      rw [bitAt_setBit, Bool.or_eq_true, decide_eq_true_iff, h.pending v]
      exact Set.mem_insert_iff.symm
    have hin : ∀ v ∈ insert vectorId.toNat u.pending, v < u.vectors := by
      intro v hv
      rcases Set.mem_insert_iff.mp hv with hv | hv
      · omega
      · exact h.inRange v hv
    cases hhandler : d.msixHandler with
    | none =>
      have hu : u.handler = none := h.handler.symm.trans hhandler
      refine ⟨rfl, h.enabled, h.vectors, hpending, hin, hu.symm, ?_, h.busMaster⟩
      rw [hu]
      exact h.delivered.trans (List.append_nil _).symm
    | some handler =>
      have hu : u.handler = some handler := h.handler.symm.trans hhandler
      refine ⟨rfl, h.enabled, h.vectors, hpending, hin, hu.symm, ?_, h.busMaster⟩
      rw [hu]
      exact congrArg (· ++ [(handler, vectorId)]) h.delivered
  · rw [if_neg hrange, if_pos (by omega)]
    exact ⟨rfl, h⟩

theorem Controls.call (h : Controls u d) (op : MsixOp η) :
    (d.call op).1 = (u.call op).1 ∧ Controls (u.step op) (d.step op) := by
  cases op with
  | setupMsix nrVectors tableOffset => exact h.setupMsix nrVectors tableOffset
  | disableMsix => exact h.disableMsix
  | injectMsixInterrupt vectorId => exact h.injectMsixInterrupt vectorId
  | registerMsixHandler handler =>
    exact ⟨rfl, h.enabled, h.vectors, h.pending, h.inRange, rfl, h.delivered, h.busMaster⟩
  | writeConfigByte offset value => exact ⟨rfl, h.congr rfl rfl rfl rfl rfl rfl⟩
  | writeConfigWord offset value => exact ⟨rfl, h.congr rfl rfl rfl rfl rfl rfl⟩
  | writeConfigDword offset value => exact ⟨rfl, h.congr rfl rfl rfl rfl rfl rfl⟩
  | assignBar allocates index base size isMmio => exact ⟨rfl, h.congr rfl rfl rfl rfl rfl rfl⟩
  | enableBusMaster =>
    exact ⟨rfl, h.enabled, h.vectors, h.pending, h.inRange, h.handler, h.delivered, rfl⟩
  | disableBusMaster =>
    exact ⟨rfl, h.enabled, h.vectors, h.pending, h.inRange, h.handler, h.delivered, rfl⟩
  | pciEnableDevice =>
    exact ⟨rfl, h.enabled, h.vectors, h.pending, h.inRange, h.handler, h.delivered, rfl⟩

end Controls

/-! ### The registers -/

section Words

variable {emu : PcieEmuImpl} {offset : ℕ}

theorem toNat_readConfigWord (h : offset ≤ pciConfigSpaceSize - 2) :
    (emu.readConfigWord offset).toNat = loadLe emu.configSpace offset 2 := by
  have hlow := (emu.configSpace offset).toNat_lt
  have hhigh := (emu.configSpace (offset + 1)).toNat_lt
  have hshift : ((emu.configSpace (offset + 1)).toUInt16 <<< 8).toNat =
      (emu.configSpace (offset + 1)).toNat <<< 8 := by
    rw [UInt16.toNat_shiftLeft, UInt8.toNat_toUInt16]
    apply Nat.mod_eq_of_lt
    rw [Nat.shiftLeft_eq]
    show _ * 2 ^ 8 < 2 ^ 16
    omega
  rw [PcieEmuImpl.readConfigWord, if_neg (Nat.not_lt.mpr h), UInt16.toNat_or, hshift,
    UInt8.toNat_toUInt16, or_shiftLeft hlow]
  simp only [loadLe]
  omega

theorem configSpace_writeConfigWord (h : offset ≤ pciConfigSpaceSize - 2) (value : UInt16) :
    (emu.writeConfigWord offset value).configSpace = storeLe emu.configSpace offset 2 value.toNat := by
  rw [PcieEmuImpl.writeConfigWord, if_neg (Nat.not_lt.mpr h)]
  funext k
  show Function.update (Function.update emu.configSpace offset value.toUInt8) (offset + 1)
    (value >>> 8).toUInt8 k = _
  by_cases hhigh : k = offset + 1
  · rw [hhigh, Function.update_self, storeLe_inside (by omega) (by omega), Nat.add_sub_cancel_left]
    rw [← UInt8.toNat_inj, UInt16.toNat_toUInt8, UInt16.toNat_shiftRight, UInt8.toNat_ofNat']
    show value.toNat >>> 8 % 2 ^ 8 = value.toNat / 2 ^ 8 % 2 ^ 8
    rw [Nat.shiftRight_eq_div_pow]
  · rw [Function.update_of_ne hhigh]
    by_cases hlow : k = offset
    · rw [hlow, Function.update_self, storeLe_inside (le_refl _) (by omega), Nat.sub_self]
      rw [← UInt8.toNat_inj, UInt16.toNat_toUInt8, UInt8.toNat_ofNat', Nat.pow_zero, Nat.div_one]
    · rw [Function.update_of_ne hlow, storeLe_outside (by omega)]

end Words

section Registers

variable {u : VectorUnit η} {d : MsixDevice η}

/-- The capabilities are those of the constructor. -/
def StandardCapabilities (d : MsixDevice η) : Prop :=
  d.emu.capabilities = createPcieEmu.capabilities

theorem findCapability_msix (h : StandardCapabilities d) :
    d.emu.findCapability pciCapIdMsix = kCapOffsetMSIX := by
  rw [PcieEmuImpl.findCapability, h]
  rfl

theorem toNat_messageControl (h : StandardCapabilities d) :
    d.messageControl.toNat = loadLe d.emu.configSpace (kCapOffsetMSIX + 2) 2 := by
  rw [MsixDevice.messageControl, findCapability_msix h]
  exact toNat_readConfigWord (by decide)

theorem toNat_command (d : MsixDevice η) :
    d.command.toNat = loadLe d.emu.configSpace pciCfgCommand 2 :=
  toNat_readConfigWord (by decide)

/-- The registers depend on the bytes of the two words only. -/
theorem Registers.congr (h : Registers u d) (hcaps : StandardCapabilities d) {d' : MsixDevice η}
    (hcaps' : StandardCapabilities d')
    (hword : ∀ k, k = 4 ∨ k = 5 ∨ k = 0x82 ∨ k = 0x83 →
      d'.emu.configSpace k = d.emu.configSpace k) : Registers u d' := by
  have hcontrol : d'.messageControl.toNat = d.messageControl.toNat := by
    rw [toNat_messageControl hcaps, toNat_messageControl hcaps']
    apply loadLe_congr
    intro k hk hk'
    apply hword
    simp only [kCapOffsetMSIX] at hk hk'
    omega
  have hcommand : d'.command.toNat = d.command.toNat := by
    rw [toNat_command, toNat_command]
    apply loadLe_congr
    intro k hk hk'
    apply hword
    simp only [pciCfgCommand] at hk hk'
    omega
  refine ⟨?_, ?_⟩
  · rw [MsixDevice.tableSize, hcontrol]
    exact h.tableSize
  · rw [MsixDevice.busMaster, hcommand]
    exact h.busMaster

/-! A setup changes the size field, and no other bit of its word. -/

theorem high_byte (old : UInt8) (t : UInt16) :
    ((old &&& (0xF8 : UInt8)) ||| ((t >>> 8) &&& 0x07).toUInt8).toNat =
      old.toNat / 8 * 8 + t.toNat / 256 % 8 := by
  have hold := old.toNat_lt
  have hkeep : (old &&& (0xF8 : UInt8)).toNat = (old.toNat / 8) <<< 3 := by
    rw [UInt8.toNat_and, Nat.shiftLeft_eq]
    refine (and_mask old.toNat 5 3).trans ?_
    show old.toNat / 8 % 32 * 8 = _
    omega
  have hnew : ((t >>> 8) &&& 0x07).toUInt8.toNat = t.toNat / 256 % 8 := by
    rw [UInt16.toNat_toUInt8, UInt16.toNat_and, UInt16.toNat_shiftRight]
    show ((t.toNat >>> 8) &&& (2 ^ 3 - 1)) % 2 ^ 8 = _
    rw [Nat.and_two_pow_sub_one_eq_mod, Nat.shiftRight_eq_div_pow]
    omega
  rw [UInt8.toNat_or, hkeep, hnew, ← Nat.shiftLeft_add_eq_or_of_lt (by omega : _ < 2 ^ 3),
    Nat.shiftLeft_eq]

theorem low_byte (t : UInt16) : (t &&& 0xFF).toUInt8.toNat = t.toNat % 256 := by
  rw [UInt16.toNat_toUInt8, UInt16.toNat_and]
  show (t.toNat &&& (2 ^ 8 - 1)) % 2 ^ 8 = _
  rw [Nat.and_two_pow_sub_one_eq_mod]
  omega

/-- The word that a setup writes. -/
theorem word_setupMsix (emu : PcieEmuImpl) {nrVectors : UInt16}
    (h : 0 < nrVectors.toNat ∧ nrVectors.toNat ≤ 2048) :
    loadLe (emu.setupMsix nrVectors).2.configSpace (kCapOffsetMSIX + 2) 2 =
      loadLe emu.configSpace (kCapOffsetMSIX + 2) 2 / 2 ^ 11 * 2 ^ 11 + (nrVectors.toNat - 1) := by
  have hold := (emu.configSpace (kCapOffsetMSIX + 2)).toNat_lt
  have htable : (nrVectors - 1).toNat = nrVectors.toNat - 1 :=
    UInt16.toNat_sub_of_le _ _ (UInt16.le_iff_toNat_le.mpr h.1)
  have hvalid : ¬(nrVectors = 0 ∨ msixMaxVectors < nrVectors) :=
    fun hbad => (nrVectors_valid nrVectors).mp hbad h
  have haddr : kCapOffsetMSIX + 2 + 1 = kCapOffsetMSIX + 3 := rfl
  simp only [PcieEmuImpl.setupMsix, if_neg hvalid, loadLe, haddr]
  rw [Function.update_self, Function.update_of_ne (by decide), Function.update_self, low_byte,
    high_byte, htable, Function.update_of_ne (by decide)]
  omega

/-! ### Every call -/

theorem capabilities_writeConfigWord (emu : PcieEmuImpl) (offset : ℕ) (value : UInt16) :
    (emu.writeConfigWord offset value).capabilities = emu.capabilities := by
  unfold PcieEmuImpl.writeConfigWord
  split_ifs
  · rfl
  · rfl

theorem capabilities_writeConfigDword (emu : PcieEmuImpl) (offset : ℕ) (value : UInt32) :
    (emu.writeConfigDword offset value).capabilities = emu.capabilities := by
  unfold PcieEmuImpl.writeConfigDword
  split_ifs
  · rfl
  · rfl

theorem capabilities_assignBar (allocates : ℕ → Bool) (emu : PcieEmuImpl) (index : ℤ)
    (base size : UInt64) (isMmio : Bool) :
    (emu.assignBar allocates index base size isMmio).2.capabilities = emu.capabilities := by
  simp only [PcieEmuImpl.assignBar]
  split_ifs
  any_goals rfl
  all_goals exact capabilities_writeConfigDword ..

/-- The registers of the BARs are neither of the two words. -/
theorem configSpace_assignBar (allocates : ℕ → Bool) (emu : PcieEmuImpl) (index : ℤ)
    (base size : UInt64) (isMmio : Bool) {k : ℕ} (hk : k < 0x10 ∨ 0x28 ≤ k) :
    (emu.assignBar allocates index base size isMmio).2.configSpace k = emu.configSpace k := by
  have hword (hindex : ¬(index < 0 ∨ 6 ≤ index)) (emu' : PcieEmuImpl) (value : UInt32) :
      (emu'.writeConfigDword (barOffset index.toNat) value).configSpace k = emu'.configSpace k := by
    unfold PcieEmuImpl.writeConfigDword
    split_ifs
    · rfl
    · refine if_neg ?_
      simp only [barOffset, pciCfgBar0]
      omega
  simp only [PcieEmuImpl.assignBar]
  split_ifs with hindex
  · rfl
  all_goals exact hword hindex _ _

theorem standardCapabilities_step (h : StandardCapabilities d) (op : MsixOp η) :
    StandardCapabilities (d.step op) := by
  unfold StandardCapabilities at h ⊢
  rw [← h]
  cases op with
  | setupMsix nrVectors tableOffset =>
    simp only [MsixDevice.step, MsixDevice.call, MsixDevice.setupMsix, PcieEmuImpl.setupMsix]
    split_ifs
    · rfl
    · rfl
  | disableMsix =>
    simp only [MsixDevice.step, MsixDevice.call, MsixDevice.disableMsix]
    split_ifs
    · rfl
    · rfl
  | injectMsixInterrupt vectorId =>
    simp only [MsixDevice.step, MsixDevice.call, MsixDevice.injectMsixInterrupt]
    split_ifs
    · rfl
    · rfl
    · cases d.msixHandler <;> rfl
  | registerMsixHandler handler => rfl
  | writeConfigByte offset value =>
    simp only [MsixDevice.step, MsixDevice.call, PcieEmuImpl.writeConfigByte]
    split_ifs
    · rfl
    · rfl
  | writeConfigWord offset value => exact capabilities_writeConfigWord ..
  | writeConfigDword offset value => exact capabilities_writeConfigDword ..
  | assignBar allocates index base size isMmio => exact capabilities_assignBar ..
  | enableBusMaster => exact capabilities_writeConfigWord ..
  | disableBusMaster => exact capabilities_writeConfigWord ..
  | pciEnableDevice =>
    exact (capabilities_writeConfigWord ..).trans (capabilities_writeConfigWord ..)

theorem command_setCommand (d : MsixDevice η) (cmd : UInt16) : (d.setCommand cmd).command = cmd := by
  have hcmd := cmd.toNat_lt
  rw [← UInt16.toNat_inj, toNat_command, MsixDevice.setCommand,
    configSpace_writeConfigWord (by decide), loadLe_storeLe_self]
  exact Nat.mod_eq_of_lt hcmd

theorem tableSize_setCommand (h : StandardCapabilities d) (cmd : UInt16) :
    (d.setCommand cmd).tableSize = d.tableSize := by
  have hcaps : StandardCapabilities (d.setCommand cmd) :=
    (capabilities_writeConfigWord ..).trans h
  rw [MsixDevice.tableSize, MsixDevice.tableSize, toNat_messageControl h,
    toNat_messageControl hcaps, MsixDevice.setCommand, configSpace_writeConfigWord (by decide),
    loadLe_storeLe_of_disjoint (by decide)]

theorem busMaster_enable (d : MsixDevice η) : d.enableBusMaster.busMaster = true := by
  have hcmd : d.enableBusMaster.command = d.command ||| pciCommandBme := command_setCommand ..
  rw [MsixDevice.busMaster, hcmd, UInt16.toNat_or, Nat.testBit_or]
  exact Bool.or_true _

theorem busMaster_disable (d : MsixDevice η) : d.disableBusMaster.busMaster = false := by
  have hcmd : d.disableBusMaster.command = d.command &&& ~~~pciCommandBme := command_setCommand ..
  rw [MsixDevice.busMaster, hcmd, UInt16.toNat_and, Nat.testBit_and]
  exact Bool.and_false _

theorem emu_setupMsix (d : MsixDevice η) {nrVectors : UInt16}
    (h : 0 < nrVectors.toNat ∧ nrVectors.toNat ≤ 2048) (tableOffset : UInt32) :
    (d.step (.setupMsix nrVectors tableOffset)).emu = (d.emu.setupMsix nrVectors).2 := by
  simp only [MsixDevice.step, MsixDevice.call, MsixDevice.setupMsix, nrVectors_valid,
    not_not.mpr h, if_false]

theorem step_setupMsix_of_invalid (d : MsixDevice η) {nrVectors : UInt16}
    (h : ¬(0 < nrVectors.toNat ∧ nrVectors.toNat ≤ 2048)) (tableOffset : UInt32) :
    d.step (.setupMsix nrVectors tableOffset) = d := by
  simp only [MsixDevice.step, MsixDevice.call, MsixDevice.setupMsix, nrVectors_valid, h,
    not_false_iff, if_true]

theorem messageControl_setupMsix (hcaps : StandardCapabilities d) (nrVectors : UInt16)
    (tableOffset : UInt32) :
    (d.step (.setupMsix nrVectors tableOffset)).messageControl.toNat / 2 ^ 11 =
      d.messageControl.toNat / 2 ^ 11 := by
  by_cases hvalid : 0 < nrVectors.toNat ∧ nrVectors.toNat ≤ 2048
  · rw [toNat_messageControl (standardCapabilities_step hcaps _), emu_setupMsix d hvalid,
      word_setupMsix _ hvalid, toNat_messageControl hcaps]
    omega
  · rw [step_setupMsix_of_invalid d hvalid]

theorem Registers.setupMsix (h : Registers u d) (hcaps : StandardCapabilities d)
    (nrVectors : UInt16) (tableOffset : UInt32) :
    Registers (u.step (.setupMsix nrVectors tableOffset))
      (d.step (.setupMsix nrVectors tableOffset)) := by
  have hcaps' := standardCapabilities_step hcaps (.setupMsix nrVectors tableOffset)
  by_cases hvalid : 0 < nrVectors.toNat ∧ nrVectors.toNat ≤ 2048
  · have hd := emu_setupMsix d hvalid tableOffset
    have hu : u.step (.setupMsix nrVectors tableOffset) =
        { u with
          vectors := nrVectors.toNat, pending := ∅, tableSize := nrVectors.toNat } := by
      simp only [VectorUnit.step, VectorUnit.call, if_pos hvalid]
    rw [hu]
    refine ⟨?_, ?_⟩
    · rw [MsixDevice.tableSize, toNat_messageControl hcaps', hd, word_setupMsix _ hvalid]
      show _ = nrVectors.toNat
      omega
    · have hcommand : (d.step (.setupMsix nrVectors tableOffset)).command.toNat =
          d.command.toNat := by
        rw [toNat_command, toNat_command, hd]
        have hbad : ¬(nrVectors = 0 ∨ msixMaxVectors < nrVectors) :=
          fun hbad => (nrVectors_valid nrVectors).mp hbad hvalid
        apply loadLe_congr
        intro k hk hk'
        simp only [pciCfgCommand] at hk hk'
        simp only [PcieEmuImpl.setupMsix, if_neg hbad]
        rw [Function.update_of_ne (by simp only [kCapOffsetMSIX]; omega),
          Function.update_of_ne (by simp only [kCapOffsetMSIX]; omega)]
      rw [MsixDevice.busMaster, hcommand]
      exact h.busMaster
  · have hu : u.step (.setupMsix nrVectors tableOffset) = u := by
      simp only [VectorUnit.step, VectorUnit.call, if_neg hvalid]
    rw [step_setupMsix_of_invalid d hvalid, hu]
    exact h

theorem Registers.step (h : Registers u d) (hcaps : StandardCapabilities d) (op : MsixOp η)
    (hop : KeepsRegisters d op) : Registers (u.step op) (d.step op) := by
  cases op with
  | setupMsix nrVectors tableOffset => exact h.setupMsix hcaps nrVectors tableOffset
  | disableMsix =>
    have hsame : Registers u (d.step .disableMsix) := by
      refine h.congr hcaps (standardCapabilities_step hcaps .disableMsix) fun k _ => ?_
      simp only [MsixDevice.step, MsixDevice.call, MsixDevice.disableMsix]
      split_ifs
      · rfl
      · rfl
    exact ⟨hsame.tableSize, hsame.busMaster⟩
  | injectMsixInterrupt vectorId =>
    have hsame : Registers u (d.step (.injectMsixInterrupt vectorId)) := by
      refine h.congr hcaps (standardCapabilities_step hcaps _) fun k _ => ?_
      simp only [MsixDevice.step, MsixDevice.call, MsixDevice.injectMsixInterrupt]
      split_ifs
      · rfl
      · rfl
      · cases d.msixHandler <;> rfl
    have hu : (u.step (.injectMsixInterrupt vectorId)).tableSize = u.tableSize ∧
        (u.step (.injectMsixInterrupt vectorId)).busMaster = u.busMaster := by
      simp only [VectorUnit.step, VectorUnit.call]
      split_ifs
      · exact ⟨rfl, rfl⟩
      · exact ⟨rfl, rfl⟩
      · exact ⟨rfl, rfl⟩
    exact ⟨hsame.tableSize.trans hu.1.symm, hsame.busMaster.trans hu.2.symm⟩
  | registerMsixHandler handler => exact ⟨h.tableSize, h.busMaster⟩
  | writeConfigByte offset value =>
    exact ⟨hop.1.trans h.tableSize, hop.2.trans h.busMaster⟩
  | writeConfigWord offset value =>
    exact ⟨hop.1.trans h.tableSize, hop.2.trans h.busMaster⟩
  | writeConfigDword offset value =>
    exact ⟨hop.1.trans h.tableSize, hop.2.trans h.busMaster⟩
  | assignBar allocates index base size isMmio =>
    refine h.congr hcaps (standardCapabilities_step hcaps _) fun k hk => ?_
    apply configSpace_assignBar
    omega
  | enableBusMaster =>
    exact ⟨(tableSize_setCommand hcaps _).trans h.tableSize, busMaster_enable d⟩
  | disableBusMaster =>
    exact ⟨(tableSize_setCommand hcaps _).trans h.tableSize, busMaster_disable d⟩
  | pciEnableDevice =>
    have hcaps' : StandardCapabilities
        (d.setCommand (d.command ||| pciCommandMse ||| pciCommandIo)) :=
      (capabilities_writeConfigWord ..).trans hcaps
    refine ⟨?_, busMaster_enable _⟩
    exact (tableSize_setCommand hcaps' _).trans
      ((tableSize_setCommand hcaps _).trans h.tableSize)

theorem registers_create : Registers (.create : VectorUnit η) .create where
  tableSize := by
    show (createPcieEmu.readConfigWord (kCapOffsetMSIX + 2)).toNat % 2 ^ 11 + 1 = 16
    decide
  busMaster := by
    show (createPcieEmu.readConfigWord pciCfgCommand).toNat.testBit 2 = false
    decide

end Registers

/-! ### Runs -/

/-- Along a run the device stays a unit; the registers say so too while the driver's own writes
leave their fields alone. -/
theorem represents_run {u : VectorUnit η} {d : MsixDevice η} (hcontrols : Controls u d)
    (hcaps : StandardCapabilities d) (ops : List (MsixOp η)) :
    Controls (run VectorUnit.step u ops) (run MsixDevice.step d ops) ∧
      StandardCapabilities (run MsixDevice.step d ops) ∧
      (Registers u d → Guarded MsixDevice.step KeepsRegisters d ops →
        Registers (run VectorUnit.step u ops) (run MsixDevice.step d ops)) := by
  induction ops generalizing u d with
  | nil => exact ⟨hcontrols, hcaps, fun h _ => h⟩
  | cons op ops ih =>
    obtain ⟨hc, hs, hr⟩ := ih (hcontrols.call op).2 (standardCapabilities_step hcaps op)
    exact ⟨hc, hs, fun h hG => hr (h.step hcaps op hG.1) hG.2⟩

/-- **An interrupt controller.**  After any calls of the driver and the simulation, the device
answers every call as the controller does, has pending exactly its pending vectors and has called
the handlers it has.  A driver that leaves the fields alone reads the controller's table size and
bus master bit, and a setup never changes the enable and mask bits of the message control word. -/
theorem msix_refines (ops : List (MsixOp η)) :
    let u := run VectorUnit.step .create ops
    let d := run MsixDevice.step .create ops
    Controls u d ∧ (∀ op, (d.call op).1 = (u.call op).1) ∧
      (Guarded MsixDevice.step KeepsRegisters .create ops → Registers u d) ∧
      ∀ nrVectors tableOffset,
        (d.step (.setupMsix nrVectors tableOffset)).messageControl.toNat / 2 ^ 11 =
          d.messageControl.toNat / 2 ^ 11 := by
  intro u d
  obtain ⟨hcontrols, hcaps, hregisters⟩ :=
    represents_run (controls_create (η := η)) (show StandardCapabilities .create from rfl) ops
  refine ⟨hcontrols, fun op => (hcontrols.call op).1, hregisters registers_create, ?_⟩
  intro nrVectors tableOffset
  exact messageControl_setupMsix hcaps nrVectors tableOffset

end UsrLinuxEmu.Pci
