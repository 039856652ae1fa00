import UsrLinuxEmu.Json.Value

/-!
# The PCIe topology and its JSON file (`sim_hardware/src/topology.cpp`)

The loader checks a document part by part and packs each device's address; the writer prints the
parts back.  The text of a document is the JSON library's: `parse` and `dump` stand for it.

* `Topology`, `TopologyDevice`, `TopologyBar` — the data;
* `packBdf`, `parseHexU16`, `parseHexU32` — the strings that the loader reads;
* `loadBar`, `loadDevice`, `topologyOfJson`, `topologyLoadJson` — the loader;
* `barJson`, `deviceJson`, `topologyJson`, `topologyWriteDefaultJson` — the writer.
-/

namespace UsrLinuxEmu.SimHardware

open UsrLinuxEmu.CText UsrLinuxEmu.Json

/-! ### The data -/

inductive BypassMode where
  | kFull
  | kBypass
  | kPartial
  deriving DecidableEq, Repr

inductive DrainPolicy where
  | kGracefulDrain
  | kImmediateAbort
  deriving DecidableEq, Repr

structure TopologyBar where
  index : UInt8
  sizeBytes : UInt64
  prefetchable : Bool
  isMmio : Bool
  is64bit : Bool
  deriving DecidableEq, Repr

/-- `endpointKind` is the C string in the 32-byte array, whose rest is null. -/
structure TopologyDevice where
  bdf : UInt16
  vendorId : UInt16
  deviceId : UInt16
  classCode : UInt32
  endpointKind : ByteString
  bars : List TopologyBar
  deriving DecidableEq, Repr

structure Topology where
  schemaVersion : UInt32
  platformName : ByteString
  enableRootComplex : Bool
  enableLinkLayer : Bool
  enablePhy : Bool
  defaultBypassMode : BypassMode
  defaultDrainPolicy : DrainPolicy
  devices : List TopologyDevice
  deriving DecidableEq, Repr

def kSchemaVersion : UInt32 := 1
def kBdfStrLen : ℕ := 12
def kMaxDevices : ℕ := 16
def kMaxBarsPerDevice : ℕ := 6

/-- `sizeof(endpoint_kind)`. -/
def endpointKindSize : ℕ := 32

def eINVAL : Int := 22
def eNOENT : Int := 2

/-! ### Strings -/

/-- One more hexadecimal digit, or `none` at another byte. -/
def hexStep (v : ℕ) (c : UInt8) : Option ℕ :=
  if 0x30 ≤ c ∧ c ≤ 0x39 then some (v * 16 + (c.toNat - 0x30))
  else if 0x61 ≤ c ∧ c ≤ 0x66 then some (v * 16 + (c.toNat - 0x61 + 10))
  else if 0x41 ≤ c ∧ c ≤ 0x46 then some (v * 16 + (c.toNat - 0x41 + 10))
  else none

/-- The hexadecimal digits of one part of an address. -/
def hexByte (s : ByteString) : Option ℕ := s.foldlM hexStep 0

/-- The last byte of the string is not read. -/
def packBdf (bdf : ByteString) : UInt16 :=
  if bdf.length ≠ kBdfStrLen then 0
  else if bdf[4]? ≠ some 0x3A ∨ bdf[7]? ≠ some 0x3A ∨ bdf[10]? ≠ some 0x2E then 0
  else
    match hexByte (bdf.take 4), hexByte ((bdf.drop 5).take 2), hexByte ((bdf.drop 8).take 2) with
    | some bus, some device, some func =>
      if 0x1F < bus ∨ 0x1F < device ∨ 0x07 < func then 0
      else UInt16.ofNat (bus <<< 8 ||| device <<< 3 ||| func)
    | _, _, _ => 0

def parseBypassMode (s : ByteString) : BypassMode :=
  if s = ascii "Full" then .kFull
  else if s = ascii "Bypass" then .kBypass
  else if s = ascii "Partial" then .kPartial
  else .kFull

def validBypassModeString (s : ByteString) : Bool :=
  s == ascii "Full" || s == ascii "Bypass" || s == ascii "Partial"

def parseDrainPolicy (s : ByteString) : DrainPolicy :=
  if s = ascii "GracefulDrain" then .kGracefulDrain
  else if s = ascii "ImmediateAbort" then .kImmediateAbort
  else .kGracefulDrain

def validDrainPolicyString (s : ByteString) : Bool :=
  s == ascii "GracefulDrain" || s == ascii "ImmediateAbort"

def hasHexPrefix : ByteString → Bool
  | a :: x :: _ => a == 0x30 && (x == 0x78 || x == 0x58)
  | _ => false

/-- The number that a string holds from its start to its first null. -/
def parseHex (s : ByteString) : Option UInt64 :=
  if s.isEmpty then none
  else
    let p := cstr s
    let (v, rest) :=
      if 2 < s.length ∧ hasHexPrefix p = true then strtoul (p.drop 2) 16 else strtoul p 0
    if rest.isEmpty then some v else none

def parseHexU16 (s : ByteString) : Option UInt16 :=
  (parseHex s).bind fun v => if 0xFFFF < v then none else some v.toUInt16

/-- The number is cut to 32 bits. -/
def parseHexU32 (s : ByteString) : Option UInt32 := (parseHex s).map UInt64.toUInt32

/-- `strncpy` into the null array. -/
def copyEndpointKind (s : ByteString) : ByteString := (cstr s).take (endpointKindSize - 1)

/-! ### The loader -/

def kAllowedTopKeys : List String := ["schema_version", "platform", "pcie", "devices"]
def kAllowedPcieKeys : List String := ["root_complex", "link_layer", "phy", "bypass_mux"]
def kAllowedDeviceKeys : List String :=
  ["bdf", "vendor_id", "device_id", "class_code", "endpoint_kind", "bars"]
def kAllowedBarKeys : List String :=
  ["index", "size_bytes", "prefetchable", "is_mmio", "is_64bit"]

/-- A check of the loader, which returns `-EINVAL` where the document is bad. -/
def failIf (bad : Prop) [Decidable bad] : Option Unit := if bad then none else some ()

@[simp] theorem failIf_eq_some {bad : Prop} [Decidable bad] {u : Unit} :
    failIf bad = some u ↔ ¬bad := by
  unfold failIf
  split_ifs with h
  · simp [h]
  · simp [h]

theorem failIf_of_not {bad : Prop} [Decidable bad] (h : ¬bad) : failIf bad = some () := if_neg h

/-- A flag that may be left out, but must be a boolean. -/
def optionalFlag (j : JsonValue) (key : String) (default : Bool) : Option Bool :=
  match j.member key with
  | none => some default
  | some v => v.asBoolean

/-- `get<int>()`: the low 32 bits as a signed number. -/
def getInt (n : UInt64) : Int := n.toUInt32.toInt32.toInt

/-- The BAR, and the indices taken so far; a 64-bit BAR takes the next one too. -/
def loadBar (seen : List UInt8) (bar : JsonValue) : Option (TopologyBar × List UInt8) := do
  let members ← bar.asObject
  failIf (¬JsonValue.keysIn kAllowedBarKeys members)
  let index ← (← bar.member "index").asInteger
  let idx := getInt index
  failIf (idx < 0 ∨ 5 < idx)
  let bidx := UInt8.ofNat idx.toNat
  failIf (bidx ∈ seen)
  let sizeBytes ← (← bar.member "size_bytes").asUnsigned
  failIf (sizeBytes = 0)
  let prefetchable ← optionalFlag bar "prefetchable" false
  let isMmio ← optionalFlag bar "is_mmio" true
  let is64bit ← optionalFlag bar "is_64bit" false
  failIf (is64bit ∧ (idx = 5 ∨ bidx + 1 ∈ bidx :: seen))
  return (⟨bidx, sizeBytes, prefetchable, isMmio, is64bit⟩,
    if is64bit then (bidx + 1) :: bidx :: seen else bidx :: seen)

def loadBars (seen : List UInt8) : List JsonValue → Option (List TopologyBar)
  | [] => some []
  | bar :: bars => do
    let (tb, seen) ← loadBar seen bar
    return tb :: (← loadBars seen bars)

/-- The address as it was written. -/
def loadBdf (seenBdfs : List ByteString) (dev : JsonValue) : Option ByteString := do
  let bdf ← (← dev.member "bdf").asString
  failIf (bdf.length ≠ kBdfStrLen)
  failIf (bdf ∈ seenBdfs)
  failIf (packBdf bdf = 0 ∧ bdf ≠ ascii "0000:00:00.0")
  return bdf

/-- An identifier, which is a number in a string. -/
def loadHex {α : Type} (parse : ByteString → Option α) (dev : JsonValue) (key : String) :
    Option α := do
  parse (← (← dev.member key).asString)

def loadEndpointKind (dev : JsonValue) : Option ByteString := do
  let ek ← (← dev.member "endpoint_kind").asString
  failIf ek.isEmpty
  return ek

def loadDeviceBars (dev : JsonValue) : Option (List TopologyBar) := do
  let bars ← (← dev.member "bars").asArray
  failIf (kMaxBarsPerDevice < bars.length)
  loadBars [] bars

/-- The device, and its address as it was written. -/
def loadDevice (seenBdfs : List ByteString) (dev : JsonValue) :
    Option (TopologyDevice × ByteString) := do
  let members ← dev.asObject
  failIf (¬JsonValue.keysIn kAllowedDeviceKeys members)
  let bdf ← loadBdf seenBdfs dev
  let vendorId ← loadHex parseHexU16 dev "vendor_id"
  let deviceId ← loadHex parseHexU16 dev "device_id"
  let classCode ← loadHex parseHexU32 dev "class_code"
  let ek ← loadEndpointKind dev
  let bars ← loadDeviceBars dev
  return (⟨packBdf bdf, vendorId, deviceId, classCode, copyEndpointKind ek, bars⟩, bdf)

def loadDevices (seenBdfs : List ByteString) : List JsonValue → Option (List TopologyDevice)
  | [] => some []
  | dev :: devs => do
    let (td, bdf) ← loadDevice seenBdfs dev
    return td :: (← loadDevices (bdf :: seenBdfs) devs)

/-- A layer's switch, where the document gives one. -/
def layerEnabled (pcie : JsonValue) (layer : String) (default : Bool) : Bool :=
  (((pcie.member layer).bind fun l => l.member "enabled").bind JsonValue.asBoolean).getD default

def loadPlatform (j : JsonValue) : Option ByteString := do
  let platform ← (← j.member "platform").asString
  failIf platform.isEmpty
  return platform

/-- The keys of the bypass multiplexer. -/
def loadBypassMux (pcie : JsonValue) : Option (BypassMode × DrainPolicy) := do
  let bm ← pcie.member "bypass_mux"
  let mode ← (← bm.member "default_mode").asString
  let policy ← (← bm.member "default_drain_policy").asString
  failIf (¬validBypassModeString mode)
  failIf (¬validDrainPolicyString policy)
  return (parseBypassMode mode, parseDrainPolicy policy)

/-- The part under `pcie`, and whether the root complex is enabled. -/
def loadPcie (j : JsonValue) : Option (JsonValue × Bool) := do
  let pcie ← j.member "pcie"
  let members ← pcie.asObject
  failIf (¬JsonValue.keysIn kAllowedPcieKeys members)
  let enabled ← (← (← pcie.member "root_complex").member "enabled").asBoolean
  return (pcie, enabled)

def loadDeviceList (j : JsonValue) : Option (List TopologyDevice) := do
  let devices ← (← j.member "devices").asArray
  failIf (kMaxDevices < devices.length)
  loadDevices [] devices

/-- What the loader makes of a document; `none` stands for `-EINVAL`. -/
def topologyOfJson (j : JsonValue) : Option Topology := do
  let members ← j.asObject
  failIf (¬JsonValue.keysIn kAllowedTopKeys members)
  let version ← (← j.member "schema_version").asInteger
  failIf (version.toUInt32 ≠ kSchemaVersion)
  let platform ← loadPlatform j
  let (pcie, enabled) ← loadPcie j
  let (mode, policy) ← loadBypassMux pcie
  let devices ← loadDeviceList j
  return ⟨kSchemaVersion, platform, enabled, layerEnabled pcie "link_layer" true,
    layerEnabled pcie "phy" false, mode, policy, devices⟩

/-- What the library makes of a text: a value, the exception that the loader catches, or another. -/
inductive ParseOutcome where
  | value (j : JsonValue)
  | parseError
  | otherError

/-- A call returns a code, or an exception of the library passes through it. -/
inductive CallOutcome where
  | returned (rc : Int)
  | threw
  deriving DecidableEq, Repr

/-- `file` is what the path holds, if it can be opened; `out` is overwritten at the end only. -/
def topologyLoadJson {Text : Type} (parse : Text → ParseOutcome) (path : String)
    (file : Option Text) (out : Topology) : CallOutcome × Topology :=
  if path.isEmpty then (.returned (-eINVAL), out)
  else
    match file with
    | none => (.returned (-eNOENT), out)
    | some text =>
      match parse text with
      | .parseError => (.returned (-eINVAL), out)
      | .otherError => (.threw, out)
      | .value j =>
        match topologyOfJson j with
        | none => (.returned (-eINVAL), out)
        | some result => (.returned 0, result)

/-! ### The writer -/

/-- `"%04x:%02x:%02x.0"`. -/
def bdfToStr (packed : UInt16) : ByteString :=
  let bus := (packed >>> 8) &&& 0x1F
  let device := (packed >>> 3) &&& 0x1F
  let func := packed &&& 0x07
  hexField lowerAlpha 4 bus.toNat ++ 0x3A :: hexField lowerAlpha 2 device.toNat ++
    0x3A :: hexField lowerAlpha 2 func.toNat ++ [0x2E, 0x30]

/-- `"0x%04X"`. -/
def hexU16 (v : UInt16) : ByteString := 0x30 :: 0x78 :: hexField upperAlpha 4 v.toNat

/-- `"0x%08X"`. -/
def hexU32 (v : UInt32) : ByteString := 0x30 :: 0x78 :: hexField upperAlpha 8 v.toNat

def barJson (bar : TopologyBar) : JsonValue :=
  .object [("index", .integer (Int64.ofNat bar.index.toNat)), ("is_64bit", .boolean bar.is64bit),
    ("is_mmio", .boolean bar.isMmio), ("prefetchable", .boolean bar.prefetchable),
    ("size_bytes", .unsigned bar.sizeBytes)]

def deviceJson (dev : TopologyDevice) : JsonValue :=
  .object [("bars", .array (dev.bars.map barJson)), ("bdf", .string (bdfToStr dev.bdf)),
    ("class_code", .string (hexU32 dev.classCode)), ("device_id", .string (hexU16 dev.deviceId)),
    ("endpoint_kind", .string dev.endpointKind), ("vendor_id", .string (hexU16 dev.vendorId))]

def modeString : BypassMode → ByteString
  | .kFull => ascii "Full"
  | .kBypass => ascii "Bypass"
  | .kPartial => ascii "Partial"

def policyString : DrainPolicy → ByteString
  | .kGracefulDrain => ascii "GracefulDrain"
  | .kImmediateAbort => ascii "ImmediateAbort"

def layerJson (type : String) (enabled : Bool) : JsonValue :=
  .object [("enabled", .boolean enabled), ("type", .string (ascii type))]

def topologyJson (src : Topology) : JsonValue :=
  .object [("devices", .array (src.devices.map deviceJson)),
    ("pcie", .object
      [("bypass_mux", .object
          [("default_drain_policy", .string (policyString src.defaultDrainPolicy)),
            ("default_mode", .string (modeString src.defaultBypassMode))]),
        ("link_layer", layerJson "PcieLinkLayer" src.enableLinkLayer),
        ("phy", layerJson "PciePhyDigitalCtrl" src.enablePhy),
        ("root_complex", layerJson "PcieRootComplexMock" src.enableRootComplex)]),
    ("platform", .string src.platformName), ("schema_version", .integer 1)]

/-- The text is written if the file can be opened and the library dumps the value. -/
def topologyWriteDefaultJson {Text : Type} (dump : JsonValue → Option Text) (path : String)
    (opens : Bool) (src : Topology) : CallOutcome × Option Text :=
  if path.isEmpty then (.returned (-eINVAL), none)
  else if !opens then (.returned (-eNOENT), none)
  else
    match dump (topologyJson src) with
    | none => (.threw, none)
    | some text => (.returned 0, some text)

end UsrLinuxEmu.SimHardware
