import UsrLinuxEmu.CText.Numeral
import UsrLinuxEmu.Heap.RefHeap
import UsrLinuxEmu.Layout.ByteHistory
import UsrLinuxEmu.SimHardware.BypassDrain

/-!
# The calls of the bridges (`sim_hardware/src/cpptlm/bridge.cpp`)

A bridge on the mock backend keeps the configuration space and the BARs in arrays of its own; one
on the other backend has an emulator of the library, which it makes in `init` and destroys in
`destroy`.  A call holds the mutexes it needs until it is done, so that calls are atomic here.

* `BridgeWorld.call` — the bridges as the code keeps them, with the emulators on a heap;
* `BridgeWorld.NamesLiving` — what the callers must keep;
* `BridgesSpec.call` — devices that are off, or on with what was written since.
-/

namespace UsrLinuxEmu.SimHardware

open UsrLinuxEmu.CText UsrLinuxEmu.Heap UsrLinuxEmu.Layout UsrLinuxEmu.Transition

/-! ### Bridges -/

/-- `create` with a path, or `create_by_id`. -/
inductive EmulatorSource where
  | profile (path : ByteString)
  | deviceId (id : ℕ)
  deriving DecidableEq, Repr

/-- `CpptlmBridge::Impl`; `msixCb` is the callback with its context. -/
structure BridgeImpl (κ : Type*) where
  initialized : Bool
  backend : CpptlmBackendKind
  topologyPath : ByteString
  emu : Option ℕ
  configSpace : ℕ → UInt8
  bars : ℕ → ℕ → UInt8
  msixCb : Option κ

structure BridgeInitParams where
  backend : CpptlmBackendKind
  topologyPath : Option ByteString
  deriving DecidableEq, Repr

/-- The bridges at their addresses, `g_active_bridge`, `bridge_state()` and the library's
emulators.  `fault` says that a method was called on a bridge that is not there. -/
structure BridgeWorld (κ : Type*) where
  next : ℕ
  bridges : AList fun _ : ℕ => BridgeImpl κ
  active : Option ℕ
  resolved : Bool
  loadFailed : Bool
  emulators : RefHeap EmulatorSource
  fault : Bool

/-- What a call returns and what it calls. -/
inductive BridgeResult (κ : Type*) where
  | code (rc : Int)
  /-- Zero, with the bytes that were read. -/
  | data (bytes : List UInt8)
  /-- The library's answer, from the emulator that was made this way. -/
  | library (source : Option EmulatorSource) (rc : Int) (bytes : List UInt8)
  | delivered (cb : Option κ) (vector : UInt32)
  | bridge (bridge : Option ℕ)
  | undefined
  deriving DecidableEq

/-- The calls.  `loads` says whether the library with all its symbols is found now, `creates`
whether it makes an emulator, and `answer` is what its accessor returns. -/
inductive BridgeOp (κ : Type*) where
  | construct
  | destruct (bridge : ℕ)
  | init (bridge : ℕ) (params : BridgeInitParams) (loads creates : Bool)
  | destroy (bridge : ℕ)
  | access (bridge : ℕ) (access : BridgeAccess) (data : List UInt8) (answer : Int × List UInt8)
  | registerMsixCallback (bridge : ℕ) (cb : Option κ)
  | attachEndpoint (bridge : ℕ) (endpoint : Bool)
  | injectMsixForTest (bridge : ℕ) (vector : UInt32)
  | get
  | setActive (bridge : Option ℕ)
  | injectMsixShim (vector : UInt32)
  /-- `host_bridge_bypass_read` and `host_bridge_bypass_write`, in the mode they find. -/
  | hostBridge (mode : BypassMode) (direction : AccessDirection) (args : BarArgs)
      (data : List UInt8) (answer : Int × List UInt8)
  deriving DecidableEq

/-- The bridge that the caller names. -/
def BridgeOp.bridge {κ : Type*} : BridgeOp κ → Option ℕ
  | .destruct b | .init b .. | .destroy b | .access b .. | .registerMsixCallback b _
  | .attachEndpoint b _ | .injectMsixForTest b _ => some b
  | .setActive b => b
  | .construct | .get | .injectMsixShim _ | .hostBridge .. => none

/-- `memcpy` out of an array. -/
def copyOut (m : ℕ → UInt8) (offset len : ℕ) : List UInt8 :=
  (List.range len).map fun i => m (offset + i)

/-- `memcpy` of a buffer into an array. -/
def copyIn (m : ℕ → UInt8) (offset len : ℕ) (data : List UInt8) : ℕ → UInt8 := fun k =>
  if offset ≤ k ∧ k < offset + len then data.getD (k - offset) 0 else m k

variable {κ : Type*}

namespace BridgeImpl

def construct : BridgeImpl κ :=
  ⟨false, .kMock, [], none, fun _ => 0, fun _ _ => 0, none⟩

/-- What `init` stores before it makes the emulator; the path is cut to 255 bytes. -/
def prepared (impl : BridgeImpl κ) (params : BridgeInitParams) : BridgeImpl κ :=
  { impl with
    backend := params.backend
    topologyPath := ((params.topologyPath.map cstr).getD []).take 255
    configSpace := fun _ => 0
    bars := fun _ _ => 0 }

def emulatorSource (impl : BridgeImpl κ) : EmulatorSource :=
  if impl.topologyPath = [] then .deviceId 1 else .profile impl.topologyPath

/-- The emulator that `destroy` gives back. -/
def held (impl : BridgeImpl κ) : Option ℕ :=
  match impl.backend with
  | .kCpptlm => impl.emu
  | .kMock => none

def destroyed (impl : BridgeImpl κ) : BridgeImpl κ :=
  { impl with
    emu := match impl.backend with
      | .kCpptlm => none
      | .kMock => impl.emu
    initialized := false }

end BridgeImpl

namespace BridgeWorld

def initial : BridgeWorld κ := ⟨0, ∅, none, false, false, .empty, false⟩

def setImpl (s : BridgeWorld κ) (b : ℕ) (impl : BridgeImpl κ) : BridgeWorld κ :=
  { s with bridges := s.bridges.insert b impl }

/-- `if (!g_active_bridge) g_active_bridge = this`. -/
def activate (s : BridgeWorld κ) (b : ℕ) : BridgeWorld κ :=
  { s with active := if s.active = none then some b else s.active }

def deactivate (s : BridgeWorld κ) (b : ℕ) : BridgeWorld κ :=
  { s with active := if s.active = some b then none else s.active }

/-- A load that failed is not tried again. -/
def ensureBridgeLoaded (s : BridgeWorld κ) (loads : Bool) : Bool × BridgeWorld κ :=
  if s.resolved then (true, s)
  else if s.loadFailed then (false, s)
  else if loads then (true, { s with resolved := true })
  else (false, { s with loadFailed := true })

def start (s : BridgeWorld κ) (b : ℕ) (impl : BridgeImpl κ) : BridgeWorld κ :=
  (s.setImpl b { impl with initialized := true }).activate b

/-- The end of `init` on the library's backend. -/
def initEmulator (s : BridgeWorld κ) (b : ℕ) (impl : BridgeImpl κ) (creates : Bool) :
    BridgeResult κ × BridgeWorld κ :=
  if !creates then (.code (-eNOSYS), s.setImpl b { impl with emu := none })
  else
    let (emu, emulators) := s.emulators.alloc impl.emulatorSource
    (.code 0, { s with emulators := emulators }.start b { impl with emu := some emu })

def init (s : BridgeWorld κ) (b : ℕ) (impl : BridgeImpl κ) (params : BridgeInitParams)
    (loads creates : Bool) : BridgeResult κ × BridgeWorld κ :=
  if impl.initialized then (.code (-eBUSY), s)
  else if params.backend = .kMock then (.code 0, s.start b (impl.prepared params))
  else
    let (loaded, s') := s.ensureBridgeLoaded loads
    if !loaded then (.code (-eNOSYS), s') else s'.initEmulator b (impl.prepared params) creates

def releaseEmulator (s : BridgeWorld κ) : Option ℕ → BridgeWorld κ
  | none => s
  | some emu => if s.resolved then { s with emulators := s.emulators.release emu } else s

def destroy (s : BridgeWorld κ) (b : ℕ) (impl : BridgeImpl κ) : BridgeWorld κ :=
  ((s.releaseEmulator impl.held).setImpl b impl.destroyed).deactivate b

def useEmulator (s : BridgeWorld κ) (emu : ℕ) : BridgeWorld κ :=
  { s with emulators := s.emulators.access emu }

/-- An accessor of the library. -/
def callLibrary (s : BridgeWorld κ) (impl : BridgeImpl κ) (answer : Int × List UInt8) :
    BridgeResult κ × BridgeWorld κ :=
  match s.resolved, impl.emu with
  | true, some emu => (.library (s.emulators.read emu) answer.1 answer.2, s.useEmulator emu)
  | _, _ => (.code (-eNOSYS), s)

/-- An access after its checks.  The configuration space is the bridge's own on both backends. -/
def perform (s : BridgeWorld κ) (b : ℕ) (impl : BridgeImpl κ) (data : List UInt8)
    (answer : Int × List UInt8) : BridgeAccess → CpptlmBackendKind → BridgeResult κ × BridgeWorld κ
  | .config .read offset _, _ => (.data (copyOut impl.configSpace offset.toNat 4), s)
  | .config .write offset _, _ =>
    (.code 0, s.setImpl b
      { impl with configSpace := copyIn impl.configSpace offset.toNat 4 data })
  | .mmio .., .kCpptlm | .backdoor .., .kCpptlm => s.callLibrary impl answer
  | .mmio .read args, .kMock =>
    (.data (copyOut (impl.bars args.bar.toNat) args.offset.toNat args.len.toNat), s)
  | .mmio .write args, .kMock =>
    (.code 0, s.setImpl b
      { impl with
        bars := Function.update impl.bars args.bar.toNat
          (copyIn (impl.bars args.bar.toNat) args.offset.toNat args.len.toNat data) })
  | .backdoor .., .kMock => (.code (-eNOSYS), s)

/-- The six accessors. -/
def access (s : BridgeWorld κ) (b : ℕ) (impl : BridgeImpl κ) (data : List UInt8)
    (answer : Int × List UInt8) (a : BridgeAccess) : BridgeResult κ × BridgeWorld κ :=
  if !impl.initialized then (.code (-eNODEV), s)
  else if !a.valid then (.code (-eINVAL), s)
  else s.perform b impl data answer a impl.backend

def registerMsixCallback (s : BridgeWorld κ) (b : ℕ) (impl : BridgeImpl κ) (cb : Option κ) :
    BridgeResult κ × BridgeWorld κ :=
  if !impl.initialized then (.code (-eNODEV), s)
  else (.code 0, s.setImpl b { impl with msixCb := cb })

/-- The endpoint that is stored is never read. -/
def attachEndpoint (s : BridgeWorld κ) (impl : BridgeImpl κ) (endpoint : Bool) :
    BridgeResult κ × BridgeWorld κ :=
  if !endpoint then (.code (-eINVAL), s)
  else if !impl.initialized then (.code (-eNODEV), s)
  else (.code 0, s)

def injectMsixForTest (s : BridgeWorld κ) (impl : BridgeImpl κ) (vector : UInt32) :
    BridgeResult κ × BridgeWorld κ :=
  (.delivered (if impl.initialized then impl.msixCb else none) vector, s)

/-- A method of a bridge. -/
def withBridge (s : BridgeWorld κ) (b : ℕ)
    (method : BridgeImpl κ → BridgeResult κ × BridgeWorld κ) : BridgeResult κ × BridgeWorld κ :=
  match s.bridges.lookup b with
  | none => (.undefined, { s with fault := true })
  | some impl => method impl

def call (s : BridgeWorld κ) : BridgeOp κ → BridgeResult κ × BridgeWorld κ
  | .construct =>
    (.bridge (some s.next), { s with next := s.next + 1 }.setImpl s.next .construct)
  | .destruct b => s.withBridge b fun impl =>
    (.code 0, { s.destroy b impl with bridges := (s.destroy b impl).bridges.erase b })
  | .init b params loads creates => s.withBridge b fun impl => s.init b impl params loads creates
  | .destroy b => s.withBridge b fun impl => (.code 0, s.destroy b impl)
  | .access b a data answer => s.withBridge b fun impl => s.access b impl data answer a
  | .registerMsixCallback b cb => s.withBridge b fun impl => s.registerMsixCallback b impl cb
  | .attachEndpoint b endpoint => s.withBridge b fun impl => s.attachEndpoint impl endpoint
  | .injectMsixForTest b vector => s.withBridge b fun impl => s.injectMsixForTest impl vector
  | .get => (.bridge s.active, s)
  | .setActive bridge => (.code 0, { s with active := bridge })
  | .injectMsixShim vector =>
    match s.active with
    | none => (.delivered none vector, s)
    | some b => s.withBridge b fun impl => s.injectMsixForTest impl vector
  | .hostBridge mode direction args data answer =>
    match s.active with
    | none => (.code (-eINVAL), s)
    | some b => s.withBridge b fun impl =>
      s.access b impl data answer (routedAccess mode direction args)

def step (s : BridgeWorld κ) (op : BridgeOp κ) : BridgeWorld κ := (s.call op).2

/-- The caller names bridges that have not been deleted. -/
def NamesLiving (s : BridgeWorld κ) (op : BridgeOp κ) : Prop := ∀ b ∈ op.bridge, b ∈ s.bridges

instance (s : BridgeWorld κ) (op : BridgeOp κ) : Decidable (s.NamesLiving op) :=
  inferInstanceAs (Decidable (∀ b ∈ op.bridge, b ∈ s.bridges))

end BridgeWorld

/-! ### Devices -/

/-- The access lies in a BAR, at a multiple of its size. -/
def BarArgs.InRange (args : BarArgs) : Prop :=
  args.buf = true ∧ args.bar.toNat < 6 ∧ args.len.toNat ∈ [1, 2, 4, 8] ∧
    args.len.toNat ∣ args.offset.toNat ∧ args.offset.toNat + args.len.toNat ≤ 4096

instance (args : BarArgs) : Decidable args.InRange := inferInstanceAs (Decidable (_ ∧ _))

def BridgeAccess.InRange : BridgeAccess → Prop
  | .mmio _ args | .backdoor _ args => args.InRange
  | .config .read offset value => value = true ∧ offset.toNat + 4 ≤ 4096
  | .config .write offset _ => offset.toNat + 4 ≤ 4096

instance (a : BridgeAccess) : Decidable a.InRange :=
  match a with
  | .mmio _ _ | .backdoor _ _ => inferInstanceAs (Decidable (BarArgs.InRange _))
  | .config .read _ _ => inferInstanceAs (Decidable (_ ∧ _))
  | .config .write _ _ => inferInstanceAs (Decidable (_ ≤ _))

/-- A device that is on: its emulator, if it has one, and what was written since it went on. -/
structure DeviceSpec where
  source : Option EmulatorSource
  config : List ByteWrite
  bars : ℕ → List ByteWrite

/-- A device that is on or off, with the callback that was registered last; the callback outlives
the device's going off. -/
structure BridgeSpec (κ : Type*) where
  device : Option DeviceSpec
  callback : Option κ

/-- The devices, the active one, and what the first attempt to load the library came to. -/
structure BridgesSpec (κ : Type*) where
  next : ℕ
  bridges : ℕ → Option (BridgeSpec κ)
  active : Option ℕ
  library : Option Bool

/-- The bytes last written, zero where nothing was. -/
def bytesSince (ws : List ByteWrite) (offset len : ℕ) : List UInt8 :=
  (List.range len).map fun i => (lastWritten ws (offset + i)).getD 0

def bufferWrite (offset len : ℕ) (data : List UInt8) : ByteWrite :=
  ⟨offset, len, fun i => data.getD i 0⟩

namespace DeviceSpec

def writeConfig (d : DeviceSpec) (offset : ℕ) (data : List UInt8) : DeviceSpec :=
  { d with config := bufferWrite offset 4 data :: d.config }

def writeBar (d : DeviceSpec) (args : BarArgs) (data : List UInt8) : DeviceSpec :=
  { d with
    bars := Function.update d.bars args.bar.toNat
      (bufferWrite args.offset.toNat args.len.toNat data :: d.bars args.bar.toNat) }

end DeviceSpec

namespace BridgesSpec

def initial : BridgesSpec κ := ⟨0, fun _ => none, none, none⟩

def set (u : BridgesSpec κ) (b : ℕ) (sp : BridgeSpec κ) : BridgesSpec κ :=
  { u with bridges := Function.update u.bridges b (some sp) }

def activate (u : BridgesSpec κ) (b : ℕ) : BridgesSpec κ :=
  { u with active := if u.active = none then some b else u.active }

def deactivate (u : BridgesSpec κ) (b : ℕ) : BridgesSpec κ :=
  { u with active := if u.active = some b then none else u.active }

/-- The device goes on; without an active one it becomes active. -/
def turnOn (u : BridgesSpec κ) (b : ℕ) (sp : BridgeSpec κ) (source : Option EmulatorSource) :
    BridgesSpec κ :=
  (u.set b { sp with device := some ⟨source, [], fun _ => []⟩ }).activate b

def turnOff (u : BridgesSpec κ) (b : ℕ) (sp : BridgeSpec κ) : BridgesSpec κ :=
  (u.set b { sp with device := none }).deactivate b

/-- The emulator that a device asks for. -/
def requested (params : BridgeInitParams) : EmulatorSource :=
  match (params.topologyPath.map fun path => (cstr path).take 255).getD [] with
  | [] => .deviceId 1
  | path => .profile path

def init (u : BridgesSpec κ) (b : ℕ) (sp : BridgeSpec κ) (params : BridgeInitParams)
    (loads creates : Bool) : BridgeResult κ × BridgesSpec κ :=
  if sp.device.isSome then (.code (-eBUSY), u)
  else if params.backend = .kMock then (.code 0, u.turnOn b sp none)
  else
    let loaded := u.library.getD loads
    let u' := { u with library := some loaded }
    if loaded && creates then (.code 0, u'.turnOn b sp (some (requested params)))
    else (.code (-eNOSYS), u')

/-- An access in range. -/
def perform (u : BridgesSpec κ) (b : ℕ) (sp : BridgeSpec κ) (d : DeviceSpec) (data : List UInt8)
    (answer : Int × List UInt8) :
    BridgeAccess → Option EmulatorSource → BridgeResult κ × BridgesSpec κ
  | .config .read offset _, _ => (.data (bytesSince d.config offset.toNat 4), u)
  | .config .write offset _, _ =>
    (.code 0, u.set b { sp with device := some (d.writeConfig offset.toNat data) })
  | .mmio .., some source | .backdoor .., some source =>
    (.library (some source) answer.1 answer.2, u)
  | .mmio .read args, none =>
    (.data (bytesSince (d.bars args.bar.toNat) args.offset.toNat args.len.toNat), u)
  | .mmio .write args, none =>
    (.code 0, u.set b { sp with device := some (d.writeBar args data) })
  | .backdoor .., none => (.code (-eNOSYS), u)

def access (u : BridgesSpec κ) (b : ℕ) (sp : BridgeSpec κ) (data : List UInt8)
    (answer : Int × List UInt8) (a : BridgeAccess) : BridgeResult κ × BridgesSpec κ :=
  match sp.device with
  | none => (.code (-eNODEV), u)
  | some d => if ¬a.InRange then (.code (-eINVAL), u) else u.perform b sp d data answer a d.source

def registerMsixCallback (u : BridgesSpec κ) (b : ℕ) (sp : BridgeSpec κ) (cb : Option κ) :
    BridgeResult κ × BridgesSpec κ :=
  if sp.device.isNone then (.code (-eNODEV), u) else (.code 0, u.set b { sp with callback := cb })

def attachEndpoint (u : BridgesSpec κ) (sp : BridgeSpec κ) (endpoint : Bool) :
    BridgeResult κ × BridgesSpec κ :=
  (.code (if !endpoint then -eINVAL else if sp.device.isNone then -eNODEV else 0), u)

def inject (u : BridgesSpec κ) (sp : BridgeSpec κ) (vector : UInt32) :
    BridgeResult κ × BridgesSpec κ :=
  (.delivered (if sp.device.isSome then sp.callback else none) vector, u)

def withBridge (u : BridgesSpec κ) (b : ℕ)
    (method : BridgeSpec κ → BridgeResult κ × BridgesSpec κ) : BridgeResult κ × BridgesSpec κ :=
  match u.bridges b with
  | none => (.undefined, u)
  | some sp => method sp

def call (u : BridgesSpec κ) : BridgeOp κ → BridgeResult κ × BridgesSpec κ
  | .construct =>
    (.bridge (some u.next), { u with next := u.next + 1 }.set u.next ⟨none, none⟩)
  | .destruct b => u.withBridge b fun _ =>
    (.code 0, { u.deactivate b with bridges := Function.update u.bridges b none })
  | .init b params loads creates => u.withBridge b fun sp => u.init b sp params loads creates
  | .destroy b => u.withBridge b fun sp => (.code 0, u.turnOff b sp)
  | .access b a data answer => u.withBridge b fun sp => u.access b sp data answer a
  | .registerMsixCallback b cb => u.withBridge b fun sp => u.registerMsixCallback b sp cb
  | .attachEndpoint b endpoint => u.withBridge b fun sp => u.attachEndpoint sp endpoint
  | .injectMsixForTest b vector => u.withBridge b fun sp => u.inject sp vector
  | .get => (.bridge u.active, u)
  | .setActive bridge => (.code 0, { u with active := bridge })
  | .injectMsixShim vector =>
    match u.active with
    | none => (.delivered none vector, u)
    | some b => u.withBridge b fun sp => u.inject sp vector
  | .hostBridge mode direction args data answer =>
    match u.active with
    | none => (.code (-eINVAL), u)
    | some b => u.withBridge b fun sp =>
      u.access b sp data answer (routedAccess mode direction args)

def step (u : BridgesSpec κ) (op : BridgeOp κ) : BridgesSpec κ := (u.call op).2

end BridgesSpec

end UsrLinuxEmu.SimHardware
