import UsrLinuxEmu.Graph.PointerWalk
import UsrLinuxEmu.Pci.PcieEmu
import UsrLinuxEmu.Transition.Simulation

/-!
# The capability chain (`plugins/pci_driver/pci_cap.cpp`, `pci_msi.cpp`)

A capability has a fixed offset for its id and a body of its own length.  The body of the PCIe
capability reaches over the MSI-X capability and into the vendor one.

* `setupMsix` — the message control bytes that a setup writes;
* `WalksRecorded`, `BytesIntact` — the chain leads through the recorded capabilities, and their
  bytes are those that were written last for them;
* `walks_recorded_iff` — the runs after which the chain does;
* `capability_bytes_lost` — after no run are all bytes intact.
-/

namespace UsrLinuxEmu.Pci

open UsrLinuxEmu.Graph UsrLinuxEmu.Transition

def msixMaxVectors : UInt16 := 2048
def pciEinval : Int := -22

namespace PcieEmuImpl

/-- The vector table and the pending bits are left out. -/
def setupMsix (emu : PcieEmuImpl) (nrVectors : UInt16) : Int × PcieEmuImpl :=
  if nrVectors = 0 ∨ msixMaxVectors < nrVectors then (pciEinval, emu)
  else
    let tableSizeField := nrVectors - 1
    let low : ℕ → UInt8 := Function.update emu.configSpace (kCapOffsetMSIX + 2)
      (tableSizeField &&& 0xFF).toUInt8
    let high : UInt8 :=
      (low (kCapOffsetMSIX + 3) &&& (0xF8 : UInt8)) ||| ((tableSizeField >>> 8) &&& 0x07).toUInt8
    (0, { emu with configSpace := Function.update low (kCapOffsetMSIX + 3) high })

end PcieEmuImpl

inductive CapabilityOp where
  | addCapability (capId : UInt8)
  | setupMsix (nrVectors : UInt16) (tableOffset : UInt32)

def PcieEmuImpl.capabilityStep (emu : PcieEmuImpl) : CapabilityOp → PcieEmuImpl
  | .addCapability capId => emu.addCapability capId
  | .setupMsix nrVectors _ => (emu.setupMsix nrVectors).2

/-! ### The property -/

/-- What has been written for a capability. -/
structure CapabilityRecord where
  capId : UInt8
  offset : ℕ
  body : List UInt8

/-- The records, in the order of the additions.  A setup writes the first two bytes of the body of
the MSI-X capability. -/
def noteCapability (written : List CapabilityRecord) (emu : PcieEmuImpl) :
    CapabilityOp → List CapabilityRecord
  | .addCapability capId =>
    match PcieEmuImpl.capabilityLayout capId with
    | none => written
    | some (offset, data) => written ++ [⟨capId, offset, data⟩]
  | .setupMsix nrVectors _ =>
    if (emu.setupMsix nrVectors).1 = 0 then
      let space := (emu.setupMsix nrVectors).2.configSpace
      written.map fun c =>
        if c.capId = pciCapIdMsix then
          { c with body := (c.body.set 0 (space (c.offset + 2))).set 1 (space (c.offset + 3)) }
        else c
    else written

abbrev observedCapabilities :
    List CapabilityRecord × PcieEmuImpl → CapabilityOp → List CapabilityRecord × PcieEmuImpl :=
  observed PcieEmuImpl.capabilityStep noteCapability

/-- The constructed device, with what its constructor has written for the capabilities. -/
def capabilitiesStart : List CapabilityRecord × PcieEmuImpl :=
  (createPcieEmu.capabilities.map fun c => ⟨c.capId, c.configOffset, c.data⟩, createPcieEmu)

/-- The pointer in the header of a capability. -/
def nextPointer (space : ℕ → UInt8) (offset : ℕ) : ℕ := (space (offset + 1)).toNat

/-- From the capabilities pointer on, the chain leads through the recorded capabilities, in order,
and ends. -/
def WalksRecorded (emu : PcieEmuImpl) : Prop :=
  PointerWalk (nextPointer emu.configSpace) 0 (emu.configSpace pciCfgCapPtr).toNat
    (emu.capabilities.map PciCapability.configOffset)

/-- The id and the body of each capability are in configuration space. -/
def BytesIntact (x : List CapabilityRecord × PcieEmuImpl) : Prop :=
  ∀ c ∈ x.1, x.2.configSpace c.offset = c.capId ∧
    ∀ i, i < c.body.length → x.2.configSpace (c.offset + 2 + i) = c.body.getD i 0

def ChainLaw (x : List CapabilityRecord × PcieEmuImpl) : Prop := WalksRecorded x.2 ∧ BytesIntact x

/-! ### The recorded offsets -/

section Offsets

variable {emu : PcieEmuImpl}

def PcieEmuImpl.offsets (emu : PcieEmuImpl) : List ℕ :=
  emu.capabilities.map PciCapability.configOffset

/-- The offset of a known id. -/
def layoutOffset (capId : UInt8) : Option ℕ :=
  (PcieEmuImpl.capabilityLayout capId).map Prod.fst

/-- The offset that a call records. -/
def addedOffset : CapabilityOp → Option ℕ
  | .addCapability capId => layoutOffset capId
  | .setupMsix _ _ => none

theorem offsets_addCapability (emu : PcieEmuImpl) (capId : UInt8) :
    (emu.addCapability capId).offsets = emu.offsets ++ (layoutOffset capId).toList := by
  unfold PcieEmuImpl.addCapability layoutOffset
  cases PcieEmuImpl.capabilityLayout capId with
  | none => exact (List.append_nil emu.offsets).symm
  | some layout =>
    obtain ⟨offset, data⟩ := layout
    rcases List.eq_nil_or_concat emu.capabilities with hnil | ⟨caps, prev, hcaps⟩
    · simp [PcieEmuImpl.offsets, hnil]
    · simp [PcieEmuImpl.offsets, hcaps]

theorem offsets_setupMsix (emu : PcieEmuImpl) (nrVectors : UInt16) :
    (emu.setupMsix nrVectors).2.offsets = emu.offsets := by
  unfold PcieEmuImpl.setupMsix
  split_ifs
  · rfl
  · rfl

/-- **Offsets.**  Every known id that is added comes to the end. -/
theorem offsets_run (ops : List CapabilityOp) (emu : PcieEmuImpl) :
    (run PcieEmuImpl.capabilityStep emu ops).offsets =
      emu.offsets ++ ops.filterMap addedOffset := by
  induction ops generalizing emu with
  | nil => exact (List.append_nil _).symm
  | cons op ops ih =>
    rw [run_cons, ih]
    cases op with
    | addCapability capId =>
      show (emu.addCapability capId).offsets ++ _ = _
      rw [offsets_addCapability, List.append_assoc]
      cases hadded : addedOffset (.addCapability capId) with
      | none =>
        rw [List.filterMap_cons_none hadded, show layoutOffset capId = none from hadded]
        rfl
      | some offset =>
        rw [List.filterMap_cons_some hadded, show layoutOffset capId = some offset from hadded]
        rfl
    | setupMsix nrVectors tableOffset =>
      show (emu.setupMsix nrVectors).2.offsets ++ _ = _
      rw [offsets_setupMsix]
      rfl

theorem offsets_create :
    createPcieEmu.offsets =
      [kCapOffsetPM, kCapOffsetMSI, kCapOffsetPCIe, kCapOffsetMSIX, kCapOffsetVendor] := by
  decide +kernel

/-- Whatever is added is there already. -/
theorem addedOffset_mem {op : CapabilityOp} {offset : ℕ} (h : addedOffset op = some offset) :
    offset ∈ createPcieEmu.offsets := by
  cases op with
  | setupMsix nrVectors tableOffset => cases h
  | addCapability capId =>
    rw [offsets_create]
    replace h : layoutOffset capId = some offset := h
    unfold layoutOffset PcieEmuImpl.capabilityLayout at h
    split_ifs at h
    · simp_all
    · simp_all
    · simp_all
    · simp_all
    · simp_all
    · cases h

end Offsets

/-! ### The walk -/

section Walk

variable {emu : PcieEmuImpl}

/-- Outside the message control of the MSI-X capability, the bytes are those of the constructor. -/
def SameOutside (emu : PcieEmuImpl) : Prop :=
  ∀ k, k ≠ kCapOffsetMSIX + 2 → k ≠ kCapOffsetMSIX + 3 →
    emu.configSpace k = createPcieEmu.configSpace k

theorem SameOutside.step (h : SameOutside emu) {op : CapabilityOp} (hop : addedOffset op = none) :
    SameOutside (emu.capabilityStep op) := by
  cases op with
  | addCapability capId =>
    have hlayout : PcieEmuImpl.capabilityLayout capId = none := Option.map_eq_none_iff.mp hop
    rw [PcieEmuImpl.capabilityStep, PcieEmuImpl.addCapability, hlayout]
    exact h
  | setupMsix nrVectors tableOffset =>
    rw [PcieEmuImpl.capabilityStep, PcieEmuImpl.setupMsix]
    split_ifs
    · exact h
    · intro k hlow hhigh
      show Function.update (Function.update emu.configSpace _ _) _ _ k = _
      rw [Function.update_of_ne hhigh, Function.update_of_ne hlow]
      exact h k hlow hhigh

theorem walksRecorded_create : WalksRecorded createPcieEmu := by
  have hstart : (createPcieEmu.configSpace pciCfgCapPtr).toNat = kCapOffsetPM := by decide +kernel
  have hpm : nextPointer createPcieEmu.configSpace kCapOffsetPM = kCapOffsetMSI := by
    decide +kernel
  have hmsi : nextPointer createPcieEmu.configSpace kCapOffsetMSI = kCapOffsetPCIe := by
    decide +kernel
  have hpcie : nextPointer createPcieEmu.configSpace kCapOffsetPCIe = kCapOffsetMSIX := by
    decide +kernel
  have hmsix : nextPointer createPcieEmu.configSpace kCapOffsetMSIX = kCapOffsetVendor := by
    decide +kernel
  have hvendor : nextPointer createPcieEmu.configSpace kCapOffsetVendor = 0 := by decide +kernel
  show PointerWalk _ 0 _ createPcieEmu.offsets
  rw [offsets_create, hstart]
  refine .visit (by decide) ?_
  rw [hpm]
  refine .visit (by decide) ?_
  rw [hmsi]
  refine .visit (by decide) ?_
  rw [hpcie]
  refine .visit (by decide) ?_
  rw [hmsix]
  refine .visit (by decide) ?_
  rw [hvendor]
  exact .stop

/-- The chain of a device that has been given no known id. -/
theorem SameOutside.walks (h : SameOutside emu) (hoffsets : emu.offsets = createPcieEmu.offsets) :
    WalksRecorded emu := by
  have hpointer : emu.configSpace pciCfgCapPtr = createPcieEmu.configSpace pciCfgCapPtr :=
    h pciCfgCapPtr (by decide) (by decide)
  show PointerWalk _ 0 _ emu.offsets
  rw [hoffsets, hpointer]
  refine walksRecorded_create.congr fun offset hoffset => ?_
  replace hoffset : offset ∈ createPcieEmu.offsets := hoffset
  rw [offsets_create] at hoffset
  refine congrArg UInt8.toNat (h (offset + 1) ?_ ?_)
  · revert offset
    decide
  · revert offset
    decide

/-- **The walk.**  The chain leads through the recorded capabilities exactly when no known id is
added after the construction. -/
theorem walks_recorded_iff (ops : List CapabilityOp) :
    WalksRecorded (run PcieEmuImpl.capabilityStep createPcieEmu ops) ↔
      ∀ op ∈ ops, addedOffset op = none := by
  have hoffsets := offsets_run ops createPcieEmu
  constructor
  · intro h op hop
    have hnodup : (run PcieEmuImpl.capabilityStep createPcieEmu ops).offsets.Nodup := h.nodup
    rw [hoffsets] at hnodup
    cases hadded : addedOffset op with
    | none => rfl
    | some offset =>
      have htwice := (List.nodup_append.mp hnodup).2.2 offset (addedOffset_mem hadded) offset
        (List.mem_filterMap.mpr ⟨op, hop, hadded⟩)
      exact absurd rfl htwice
  · intro hnone
    have hsame : ∀ (ops : List CapabilityOp) (emu : PcieEmuImpl), SameOutside emu →
        (∀ op ∈ ops, addedOffset op = none) →
          SameOutside (run PcieEmuImpl.capabilityStep emu ops) := by
      intro ops
      induction ops with
      | nil => exact fun emu h _ => h
      | cons op ops ih =>
        intro emu h hops
        exact ih _ (h.step (hops op List.mem_cons_self)) fun op' hop' =>
          hops op' (List.mem_cons_of_mem op hop')
    refine (hsame ops createPcieEmu (fun _ _ _ => rfl) hnone).walks ?_
    rw [hoffsets, List.filterMap_eq_nil_iff.mpr hnone, List.append_nil]

end Walk

/-! ### The bytes -/

/-- The body of one capability has a zero where the header of another has its id. -/
structure Overlapping (written : List CapabilityRecord) : Prop where
  body : ∃ c ∈ written, c.offset = kCapOffsetPCIe ∧ 0x16 < c.body.length ∧ c.body.getD 0x16 0 = 0
  header : ∃ c ∈ written, c.offset = kCapOffsetMSIX ∧ c.capId = pciCapIdMsix

/-- A setup writes the first two bytes of a body. -/
theorem getD_setup (body : List UInt8) (low high : UInt8) {i : ℕ} (hi : 1 < i) :
    ((body.set 0 low).set 1 high).getD i 0 = body.getD i 0 := by
  rw [List.getD_eq_getElem?_getD, List.getElem?_set_ne (by omega), List.getElem?_set_ne (by omega),
    List.getD_eq_getElem?_getD]

theorem Overlapping.note {written : List CapabilityRecord} (h : Overlapping written)
    (emu : PcieEmuImpl) (op : CapabilityOp) : Overlapping (noteCapability written emu op) := by
  obtain ⟨⟨c, hc, hoffset, hlength, hzero⟩, d, hd, hoffset', hid⟩ := h
  cases op with
  | addCapability capId =>
    rw [noteCapability]
    cases PcieEmuImpl.capabilityLayout capId with
    | none => exact ⟨⟨c, hc, hoffset, hlength, hzero⟩, d, hd, hoffset', hid⟩
    | some layout =>
      exact ⟨⟨c, List.mem_append_left _ hc, hoffset, hlength, hzero⟩, d, List.mem_append_left _ hd,
        hoffset', hid⟩
  | setupMsix nrVectors tableOffset =>
    rw [noteCapability]
    split_ifs
    · constructor
      · refine ⟨_, List.mem_map_of_mem hc, ?_⟩
        split_ifs
        · refine ⟨hoffset, ?_, ?_⟩
          · rw [List.length_set, List.length_set]
            exact hlength
          · rw [getD_setup _ _ _ (by decide)]
            exact hzero
        · exact ⟨hoffset, hlength, hzero⟩
      · refine ⟨_, List.mem_map_of_mem hd, ?_⟩
        rw [if_pos hid]
        exact ⟨hoffset', hid⟩
    · exact ⟨⟨c, hc, hoffset, hlength, hzero⟩, d, hd, hoffset', hid⟩

theorem Overlapping.lost {x : List CapabilityRecord × PcieEmuImpl} (h : Overlapping x.1) :
    ¬BytesIntact x := by
  intro hintact
  obtain ⟨⟨c, hc, hoffset, hlength, hzero⟩, d, hd, hoffset', hid⟩ := h
  have hbody := (hintact c hc).2 0x16 hlength
  have hheader := (hintact d hd).1
  rw [hzero, hoffset] at hbody
  rw [hoffset', hid] at hheader
  replace hbody : x.2.configSpace kCapOffsetMSIX = 0 := hbody
  rw [hheader] at hbody
  exact absurd hbody (by decide)

theorem overlapping_start : Overlapping capabilitiesStart.1 where
  body := by decide +kernel
  header := by decide +kernel

theorem overlapping_run (ops : List CapabilityOp) :
    Overlapping (run observedCapabilities capabilitiesStart ops).1 :=
  run_of_invariant (I := fun x : List CapabilityRecord × PcieEmuImpl => Overlapping x.1)
    (fun x op h => h.note x.2 op) ops overlapping_start

/-- **The chain.**  After no run are the bytes of all recorded capabilities intact. -/
theorem capability_chain_never (ops : List CapabilityOp) :
    ¬ChainLaw (run observedCapabilities capabilitiesStart ops) := fun h =>
  (overlapping_run ops).lost h.2

/-- The constructor itself has overwritten the body of the PCIe capability. -/
theorem capability_chain_fails :
    ¬∀ ops : List CapabilityOp,
      ChainLaw (run observedCapabilities capabilitiesStart ops) := fun h =>
  overlapping_start.lost (h []).2

end UsrLinuxEmu.Pci
