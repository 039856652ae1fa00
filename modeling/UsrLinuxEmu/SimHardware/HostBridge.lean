import UsrLinuxEmu.SimHardware.TopologyRoundTrip

/-!
# The host bridge (`sim_hardware/src/pcie/host_bridge.cpp`)

Enumeration loads the topology and describes its devices in order, as many as the caller has room
for.

* `DiscoveredDevice` — a device as it is described;
* `hostBridgeEnumerate` — the enumeration, with the code it returns and the number of devices;
* `hostBridgeEnumerate_loaded` — a caller with room gets every device of a file that loads.
-/

namespace UsrLinuxEmu.SimHardware

open UsrLinuxEmu.CText

structure DiscoveredDevice where
  bdf : UInt16
  vendorId : UInt16
  deviceId : UInt16
  classCode : UInt32
  endpointKind : ByteString
  deriving DecidableEq, Repr

/-- `Topology topo{}`. -/
def Topology.initial : Topology := ⟨0, [], true, true, false, .kFull, .kGracefulDrain, []⟩

/-- The array for a kind has the same size on both sides. -/
def discovered (td : TopologyDevice) : DiscoveredDevice :=
  ⟨td.bdf, td.vendorId, td.deviceId, td.classCode, copyEndpointKind td.endpointKind⟩

/-- The outcome, what is written to the caller's array, and the number of devices there are. -/
def hostBridgeEnumerate {Text : Type} (parse : Text → ParseOutcome) (path : String)
    (file : Option Text) (maxDevices : ℕ) : CallOutcome × List DiscoveredDevice × ℕ :=
  match topologyLoadJson parse path file Topology.initial with
  | (.threw, _) => (.threw, [], 0)
  | (.returned rc, topo) =>
    if rc ≠ 0 then (.returned rc, [], 0)
    else (.returned 0, (topo.devices.take maxDevices).map discovered, topo.devices.length)

theorem hostBridgeEnumerate_loaded {Text : Type} {parse : Text → ParseOutcome} {path : String}
    {text : Text} {topo : Topology}
    (h : topologyLoadJson parse path (some text) Topology.initial = (.returned 0, topo)) :
    hostBridgeEnumerate parse path (some text) kMaxDevices =
      (.returned 0, topo.devices.map discovered, topo.devices.length) := by
  obtain ⟨j, -, htopo⟩ := topologyLoadJson_zero h
  have hcount := (topologyOfJson_some htopo).1.deviceCount
  unfold hostBridgeEnumerate
  rw [h]
  show (CallOutcome.returned 0, (topo.devices.take kMaxDevices).map discovered,
    topo.devices.length) = _
  rw [List.take_of_length_le hcount]

end UsrLinuxEmu.SimHardware
