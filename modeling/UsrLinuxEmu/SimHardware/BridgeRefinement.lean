import Mathlib.Tactic.SplitIfs
import UsrLinuxEmu.SimHardware.BridgeCalls
import UsrLinuxEmu.Transition.Run

/-!
# Bridges are devices (`sim_hardware/src/cpptlm/bridge.cpp`)

* `BridgeAccess.valid_iff` — the checks of an access, in 64-bit arithmetic, and its range;
* `Refines` — the bridges are devices that are on or off, and every emulator belongs to one bridge
  that is on;
* `Refines.replace` — one bridge and the emulators change, the other bridges stay devices;
* `bridges_refine` — every call that names no deleted bridge returns what the devices return, and
  no emulator is used after its destruction, destroyed twice or lost.
-/

namespace UsrLinuxEmu.SimHardware

open UsrLinuxEmu.CText UsrLinuxEmu.Heap UsrLinuxEmu.Layout UsrLinuxEmu.Transition

variable {κ : Type*}

/-! ### Accesses -/

theorem validMmio_iff (bar : UInt8) (offset len : UInt64) :
    validMmio bar offset len = true ↔ bar.toNat < 6 ∧ len.toNat ∈ [1, 2, 4, 8] ∧
      len.toNat ∣ offset.toNat ∧ offset.toNat + len.toNat ≤ 4096 := by
  have hlen := len.toNat_lt
  have hsub : ¬4096 < offset.toNat → (4096 - offset).toNat = 4096 - offset.toNat := fun h =>
    UInt64.toNat_sub_of_le 4096 offset (UInt64.le_iff_toNat_le.mpr (Nat.not_lt.mp h))
  have hadd := UInt64.toNat_add offset len
  simp only [validMmio, ge_iff_le, gt_iff_lt, UInt8.le_iff_toNat_le, UInt64.lt_iff_toNat_lt,
    ← UInt64.toNat_inj, ne_eq, List.mem_cons, List.not_mem_nil, or_false, Nat.dvd_iff_mod_eq_zero,
    UInt64.toNat_mod, UInt64.toNat_ofNat, UInt8.toNat_ofNat]
  generalize offset.toNat % len.toNat = r
  split_ifs <;> simp only [false_iff, true_iff] <;> omega

theorem BridgeAccess.valid_iff (a : BridgeAccess) : a.valid = true ↔ a.InRange := by
  have hbar (args : BarArgs) :
      (args.buf && validMmio args.bar args.offset args.len) = true ↔ args.InRange := by
    rw [Bool.and_eq_true, validMmio_iff]
    rfl
  have hconfig (offset : UInt16) : (!decide (offset > 4092)) = true ↔ offset.toNat + 4 ≤ 4096 := by
    rw [Bool.not_eq_true', decide_eq_false_iff_not, gt_iff_lt, UInt16.lt_iff_toNat_lt]
    show ¬4092 < offset.toNat ↔ _
    omega
  cases a with
  | mmio direction args => exact hbar args
  | backdoor direction args => exact hbar args
  | config direction offset value =>
    cases direction with
    | read =>
      show (value && !decide (offset > 4092)) = true ↔ value = true ∧ offset.toNat + 4 ≤ 4096
      rw [Bool.and_eq_true, hconfig]
    | write => exact hconfig offset

theorem not_valid_iff (a : BridgeAccess) : (!a.valid) = true ↔ ¬a.InRange := by
  rw [Bool.not_eq_true', ← Bool.not_eq_true, BridgeAccess.valid_iff]

/-- A copy out of the array returns what was last written. -/
theorem copyOut_eq {m : ℕ → UInt8} {ws : List ByteWrite} (h : Reflects m 4096 ws)
    {offset len : ℕ} (hle : offset + len ≤ 4096) :
    copyOut m offset len = bytesSince ws offset len := by
  refine List.map_congr_left fun i hi => ?_
  have hlt := List.mem_range.mp hi
  exact h (offset + i) (by omega)

theorem reflects_copyIn {m : ℕ → UInt8} {ws : List ByteWrite} (h : Reflects m 4096 ws)
    (offset len : ℕ) (data : List UInt8) :
    Reflects (copyIn m offset len data) 4096 (bufferWrite offset len data :: ws) :=
  h.write _ fun _ _ => rfl

/-! ### Bridges and devices -/

/-- The emulator of a bridge, as its owner's share. -/
def ownEmulator (impl : BridgeImpl κ) : Multiset ℕ := impl.emu.toList

/-- The emulators that the bridges have. -/
def BridgeWorld.owned (s : BridgeWorld κ) : Multiset ℕ := tableOwners ownEmulator s.bridges

/-- The bridge is a device that is on. -/
structure IsOn (heap : RefHeap EmulatorSource) (d : DeviceSpec) (impl : BridgeImpl κ) : Prop where
  initialized : impl.initialized = true
  backend : impl.backend = if d.source.isSome then .kCpptlm else .kMock
  emu : impl.emu.isSome = d.source.isSome
  source : impl.emu.bind heap.read = d.source
  config : Reflects impl.configSpace 4096 d.config
  bars : ∀ bar, Reflects (impl.bars bar) 4096 (d.bars bar)

/-- The bridge is a device that is off. -/
structure IsOff (impl : BridgeImpl κ) : Prop where
  initialized : impl.initialized = false
  emu : impl.emu = none

def IsDevice (heap : RefHeap EmulatorSource) (device : Option DeviceSpec) (impl : BridgeImpl κ) :
    Prop :=
  match device with
  | none => IsOff impl
  | some d => IsOn heap d impl

structure IsBridge (heap : RefHeap EmulatorSource) (sp : BridgeSpec κ) (impl : BridgeImpl κ) :
    Prop where
  callback : impl.msixCb = sp.callback
  device : IsDevice heap sp.device impl

/-- The bridges are the devices, every emulator belongs to one of them, and no method was called on
a bridge that is not there. -/
structure Refines (u : BridgesSpec κ) (s : BridgeWorld κ) : Prop where
  next : u.next = s.next
  fresh : ∀ b, s.next ≤ b → b ∉ s.bridges
  bridges : ∀ b, Option.Rel (IsBridge s.emulators) (u.bridges b) (s.bridges.lookup b)
  active : u.active = s.active
  living : ∀ b ∈ s.active, b ∈ s.bridges
  library : u.library = if s.resolved then some true else if s.loadFailed then some false else none
  resolved : s.owned ≠ 0 → s.resolved = true
  accounts : s.emulators.Accounts s.owned
  single : s.owned.Nodup
  noFault : s.fault = false

/-- Both answer the same and stay related. -/
def Agree (x : BridgeResult κ × BridgesSpec κ) (y : BridgeResult κ × BridgeWorld κ) : Prop :=
  y.1 = x.1 ∧ Refines x.2 y.2

theorem refines_initial : Refines (.initial : BridgesSpec κ) .initial where
  next := rfl
  fresh := fun _ _ => AList.notMem_empty _
  bridges := fun _ => .none
  active := rfl
  living := nofun
  library := rfl
  resolved := fun h => absurd rfl h
  accounts := RefHeap.Accounts.empty
  single := Multiset.nodup_zero
  noFault := rfl

section Devices

variable {heap heap' : RefHeap EmulatorSource} {sp : BridgeSpec κ} {impl : BridgeImpl κ}

/-- What happens to other emulators does not matter to a bridge. -/
theorem IsBridge.congr (h : IsBridge heap sp impl)
    (hread : ∀ emu ∈ ownEmulator impl, heap'.read emu = heap.read emu) :
    IsBridge heap' sp impl where
  callback := h.callback
  device := by
    have hdevice := h.device
    cases hd : sp.device with
    | none =>
      rw [hd] at hdevice
      exact hdevice
    | some d =>
      rw [hd] at hdevice
      refine ⟨hdevice.initialized, hdevice.backend, hdevice.emu, ?_, hdevice.config, hdevice.bars⟩
      rw [← hdevice.source]
      cases hemu : impl.emu with
      | none => rfl
      | some emu =>
        have hown : emu ∈ ownEmulator impl := by
          rw [ownEmulator, hemu]
          exact Multiset.mem_singleton_self emu
        exact hread emu hown

/-- `destroy` gives back the emulator of the bridge. -/
theorem IsDevice.held_eq {device : Option DeviceSpec} (h : IsDevice heap device impl) :
    impl.held = impl.emu := by
  cases device with
  | none =>
    rw [BridgeImpl.held, h.emu]
    cases impl.backend <;> rfl
  | some d =>
    rw [BridgeImpl.held, h.backend]
    have hemu := h.emu
    cases hs : d.source with
    | none =>
      rw [hs, Option.isSome_none, Option.isSome_eq_false_iff, Option.isNone_iff_eq_none] at hemu
      exact hemu.symm
    | some source => rfl

theorem IsDevice.destroyed_emu {device : Option DeviceSpec} (h : IsDevice heap device impl) :
    impl.destroyed.emu = none := by
  have hheld := h.held_eq
  cases hb : impl.backend with
  | kCpptlm => simp only [BridgeImpl.destroyed, hb]
  | kMock =>
    simp only [BridgeImpl.held, hb] at hheld
    simp only [BridgeImpl.destroyed, hb, ← hheld]

end Devices

/-! ### One bridge changes -/

namespace Refines

variable {u : BridgesSpec κ} {s : BridgeWorld κ} {b : ℕ} {sp : BridgeSpec κ} {impl : BridgeImpl κ}

/-- The emulators of the other bridges. -/
def others (s : BridgeWorld κ) (b : ℕ) : Multiset ℕ := tableOwners ownEmulator (s.bridges.erase b)

theorem owned_of_lookup (hb : s.bridges.lookup b = some impl) :
    s.owned = ownEmulator impl + others s b :=
  tableOwners_of_lookup ownEmulator s.bridges hb

/-- **Frame rule.**  A bridge gets new contents and the emulators change; the emulators of the other
bridges are as they were. -/
theorem replace (h : Refines u s) (hb : b < s.next) {emulators : RefHeap EmulatorSource}
    (hother : ∀ emu ∈ others s b, emulators.read emu = s.emulators.read emu)
    (hbridge : IsBridge emulators sp impl)
    (haccounts : emulators.Accounts (ownEmulator impl + others s b))
    (hsingle : (ownEmulator impl + others s b).Nodup)
    (hresolved : impl.emu.isSome = true → s.resolved = true) :
    Refines (u.set b sp) ({ s with emulators := emulators }.setImpl b impl) where
  next := h.next
  fresh := by
    intro c hc hmem
    rcases (AList.mem_insert _).mp hmem with rfl | hmem
    · exact absurd hb (Nat.not_lt.mpr hc)
    · exact h.fresh c hc hmem
  bridges := by
    intro c
    show Option.Rel _ (Function.update u.bridges b (some sp) c) ((s.bridges.insert b impl).lookup c)
    by_cases hc : c = b
    · subst hc
      rw [Function.update_self, AList.lookup_insert]
      exact .some hbridge
    · rw [Function.update_of_ne hc, AList.lookup_insert_ne hc]
      have hrel := h.bridges c
      generalize u.bridges c = device at hrel ⊢
      cases hlookup : s.bridges.lookup c with
      | none =>
        rw [hlookup] at hrel
        cases hrel
        exact .none
      | some other =>
        rw [hlookup] at hrel
        cases hrel with
        | some hsame =>
          refine .some (hsame.congr fun emu hemu => hother emu ?_)
          exact (mem_tableOwners ownEmulator _).mpr
            ⟨c, other, by rw [AList.lookup_erase_ne hc, hlookup], hemu⟩
  active := h.active
  living := fun c hc => (AList.mem_insert _).mpr (.inr (h.living c hc))
  library := h.library
  resolved := by
    intro howned
    cases hemu : impl.emu with
    | some emu => exact hresolved (by rw [hemu]; rfl)
    | none =>
      apply h.resolved
      intro hzero
      apply howned
      show tableOwners ownEmulator (s.bridges.insert b impl) = 0
      rw [tableOwners_insert, ownEmulator, hemu, Option.toList_none, Multiset.coe_nil, zero_add]
      rw [← Multiset.le_zero, ← hzero]
      cases hlookup : s.bridges.lookup b with
      | none =>
        rw [tableOwners_erase_of_notMem _ _ (AList.lookup_eq_none.mp hlookup)]
        exact le_refl s.owned
      | some old =>
        rw [owned_of_lookup hlookup]
        exact Multiset.le_add_left _ _
  accounts := by
    show emulators.Accounts (tableOwners ownEmulator (s.bridges.insert b impl))
    rw [tableOwners_insert]
    exact haccounts
  single := by
    show (tableOwners ownEmulator (s.bridges.insert b impl)).Nodup
    rw [tableOwners_insert]
    exact hsingle
  noFault := h.noFault

theorem lt_next (h : Refines u s) (hb : b ∈ s.bridges) : b < s.next := by
  by_contra hge
  exact h.fresh b (Nat.not_lt.mp hge) hb

/-- The rule where the emulators stay as they are. -/
theorem store (h : Refines u s) {old : BridgeImpl κ} (hb : s.bridges.lookup b = some old)
    (hemu : impl.emu = old.emu) (hbridge : IsBridge s.emulators sp impl) :
    Refines (u.set b sp) (s.setImpl b impl) := by
  have hown : ownEmulator impl + others s b = s.owned := by
    rw [owned_of_lookup hb, ownEmulator, hemu, ownEmulator]
  have hlt : b < s.next := h.lt_next (AList.lookup_isSome.mp (by rw [hb]; rfl))
  refine h.replace hlt (fun _ _ => rfl) hbridge (hown ▸ h.accounts) (hown ▸ h.single) ?_
  intro hsome
  apply h.resolved
  rw [← hown, ownEmulator]
  obtain ⟨emu, hemu'⟩ := Option.isSome_iff_exists.mp hsome
  rw [hemu', Option.toList_some, Multiset.coe_singleton, Multiset.singleton_add]
  exact Multiset.cons_ne_zero

/-- Another bridge becomes the active one. -/
theorem setActive (h : Refines u s) {active : Option ℕ} (hactive : ∀ b ∈ active, b ∈ s.bridges) :
    Refines { u with active := active } { s with active := active } :=
  { h with active := rfl, living := hactive }

theorem activate (h : Refines u s) (hb : b ∈ s.bridges) :
    Refines (u.activate b) (s.activate b) := by
  rw [BridgesSpec.activate, BridgeWorld.activate, h.active]
  refine h.setActive fun c hc => ?_
  split_ifs at hc
  · obtain rfl := Option.some.inj hc
    exact hb
  · exact h.living c hc

theorem deactivate (h : Refines u s) (b : ℕ) : Refines (u.deactivate b) (s.deactivate b) := by
  rw [BridgesSpec.deactivate, BridgeWorld.deactivate, h.active]
  refine h.setActive fun c hc => ?_
  split_ifs at hc
  · nomatch hc
  · exact h.living c hc

/-- A bridge without an emulator that is not active is deleted. -/
theorem remove (h : Refines u s) (hb : s.bridges.lookup b = some impl) (hemu : impl.emu = none)
    (hactive : s.active ≠ some b) :
    Refines { u with bridges := Function.update u.bridges b none }
      { s with bridges := s.bridges.erase b } := by
  have howned : tableOwners ownEmulator (s.bridges.erase b) = s.owned := by
    rw [owned_of_lookup hb, ownEmulator, hemu, Option.toList_none, Multiset.coe_nil, zero_add]
    rfl
  refine
    { h with
      fresh := fun c hc hmem => h.fresh c hc (AList.mem_erase.mp hmem).2
      bridges := ?_
      living := ?_
      resolved := fun hne => h.resolved (by rw [← howned]; exact hne)
      accounts := by
        rw [BridgeWorld.owned, howned]
        exact h.accounts
      single := by
        rw [BridgeWorld.owned, howned]
        exact h.single }
  · intro c
    show Option.Rel _ (Function.update u.bridges b none c) ((s.bridges.erase b).lookup c)
    by_cases hc : c = b
    · subst hc
      rw [Function.update_self, AList.lookup_erase]
      exact .none
    · rw [Function.update_of_ne hc, AList.lookup_erase_ne hc]
      exact h.bridges c
  · intro c hc
    exact AList.mem_erase.mpr ⟨fun heq => hactive (heq ▸ hc), h.living c hc⟩

end Refines

/-! ### Calls -/

section Calls

variable {u : BridgesSpec κ} {s : BridgeWorld κ} {b : ℕ} {sp : BridgeSpec κ} {impl : BridgeImpl κ}

/-- A method of a bridge that is there, on its device. -/
theorem agree_withBridge (h : Refines u s) (hb : b ∈ s.bridges)
    {method : BridgeSpec κ → BridgeResult κ × BridgesSpec κ}
    {method' : BridgeImpl κ → BridgeResult κ × BridgeWorld κ}
    (hmethod : ∀ sp impl, u.bridges b = some sp → s.bridges.lookup b = some impl →
      IsBridge s.emulators sp impl → Agree (method sp) (method' impl)) :
    Agree (u.withBridge b method) (s.withBridge b method') := by
  obtain ⟨impl, himpl⟩ := Option.isSome_iff_exists.mp (AList.lookup_isSome.mpr hb)
  have hrel := h.bridges b
  simp only [BridgesSpec.withBridge, BridgeWorld.withBridge]
  cases hsp : u.bridges b with
  | none =>
    rw [hsp, himpl] at hrel
    nomatch hrel
  | some sp =>
    rw [hsp, himpl] at hrel
    rw [himpl]
    cases hrel with
    | some hbridge => exact hmethod sp impl hsp himpl hbridge

theorem agree_construct (h : Refines u s) : Agree (u.call .construct) (s.call .construct) := by
  have hnext : Refines { u with next := u.next + 1 } { s with next := s.next + 1 } :=
    { h with
      next := congrArg (· + 1) h.next
      fresh := fun b hb => h.fresh b (Nat.le_of_succ_le hb) }
  have hothers : ownEmulator (.construct : BridgeImpl κ) +
      Refines.others { s with next := s.next + 1 } s.next = s.owned := by
    rw [Refines.others, tableOwners_erase_of_notMem _ _ (h.fresh s.next (Nat.le_refl _))]
    exact zero_add _
  refine ⟨congrArg (fun n => BridgeResult.bridge (some n)) h.next.symm, ?_⟩
  show Refines ({ u with next := u.next + 1 }.set u.next ⟨none, none⟩) _
  rw [h.next] at hnext ⊢
  exact hnext.replace (Nat.lt_succ_self _) (fun _ _ => rfl) ⟨rfl, rfl, rfl⟩
    (hothers ▸ h.accounts) (hothers ▸ h.single) nofun

/-- The library is loaded once; what the first attempt comes to stays. -/
theorem ensureBridgeLoaded_spec (h : Refines u s) (loads : Bool) :
    (s.ensureBridgeLoaded loads).1 = u.library.getD loads ∧
      Refines { u with library := some (u.library.getD loads) } (s.ensureBridgeLoaded loads).2 ∧
      (s.ensureBridgeLoaded loads).2.bridges = s.bridges ∧
      (s.ensureBridgeLoaded loads).2.emulators = s.emulators ∧
      ((s.ensureBridgeLoaded loads).1 = true → (s.ensureBridgeLoaded loads).2.resolved = true) := by
  have hlibrary := h.library
  rw [BridgeWorld.ensureBridgeLoaded]
  cases hres : s.resolved with
  | true =>
    rw [hres, if_pos rfl] at hlibrary
    rw [if_pos rfl, hlibrary]
    refine ⟨rfl, { h with library := ?_ }, rfl, rfl, fun _ => hres⟩
    rw [hres, if_pos rfl]
    rfl
  | false =>
    have hnone : s.owned ≠ 0 → false = true := fun hne => hres ▸ h.resolved hne
    rw [hres, if_neg Bool.false_ne_true] at hlibrary
    rw [if_neg Bool.false_ne_true]
    cases hfailed : s.loadFailed with
    | true =>
      rw [hfailed, if_pos rfl] at hlibrary
      rw [if_pos rfl, hlibrary]
      refine ⟨rfl, { h with library := ?_ }, rfl, rfl, nofun⟩
      rw [hres, hfailed]
      rfl
    | false =>
      rw [hfailed, if_neg Bool.false_ne_true] at hlibrary
      rw [if_neg Bool.false_ne_true, hlibrary]
      cases loads with
      | true =>
        exact ⟨rfl, { h with library := rfl, resolved := fun _ => rfl }, rfl, rfl, fun _ => rfl⟩
      | false =>
        rw [if_neg Bool.false_ne_true]
        exact ⟨rfl, { h with library := rfl, resolved := hnone }, rfl, rfl, nofun⟩

theorem emulatorSource_prepared (impl : BridgeImpl κ) (params : BridgeInitParams) :
    (impl.prepared params).emulatorSource = BridgesSpec.requested params := by
  have hpath : (impl.prepared params).topologyPath =
      (params.topologyPath.map fun path => (cstr path).take 255).getD [] := by
    show ((params.topologyPath.map cstr).getD []).take 255 = _
    cases params.topologyPath with
    | none => rfl
    | some path => rfl
  rw [BridgeImpl.emulatorSource, BridgesSpec.requested, hpath]
  cases (params.topologyPath.map fun path => (cstr path).take 255).getD [] with
  | nil => rfl
  | cons c path => rfl

/-- A bridge that was off starts as a device that has just gone on. -/
theorem isBridge_started (hcallback : impl.msixCb = sp.callback) (params : BridgeInitParams)
    {heap : RefHeap EmulatorSource} {emu : Option ℕ} {source : Option EmulatorSource}
    (hbackend : params.backend = if source.isSome then .kCpptlm else .kMock)
    (hemu : emu.isSome = source.isSome) (hsource : emu.bind heap.read = source) :
    IsBridge heap { sp with device := some ⟨source, [], fun _ => []⟩ }
      { impl.prepared params with emu := emu, initialized := true } where
  callback := hcallback
  device := ⟨rfl, hbackend, hemu, hsource, fun _ _ => rfl, fun _ _ _ => rfl⟩

theorem mem_setImpl (s : BridgeWorld κ) (b : ℕ) (impl : BridgeImpl κ) :
    b ∈ (s.setImpl b impl).bridges :=
  (AList.mem_insert _).mpr (.inl rfl)

/-- The library's backend, once the library is there. -/
theorem agree_initEmulator (h : Refines u s) (hres : s.resolved = true)
    (hsp : u.bridges b = some sp) (himpl : s.bridges.lookup b = some impl)
    (hbridge : IsBridge s.emulators sp impl) (hoff : IsOff impl) (hd : sp.device = none)
    {params : BridgeInitParams} (hbackend : params.backend = .kCpptlm) (creates : Bool) :
    Agree
      (if creates then
        (.code 0, u.turnOn b sp (some (BridgesSpec.requested params)))
      else (.code (-eNOSYS), u))
      (s.initEmulator b (impl.prepared params) creates) := by
  have hothers : ownEmulator impl + Refines.others s b = s.owned :=
    (Refines.owned_of_lookup himpl).symm
  rw [ownEmulator, hoff.emu, Option.toList_none, Multiset.coe_nil, zero_add] at hothers
  cases creates with
  | false =>
    refine ⟨rfl, ?_⟩
    have hsame : u.set b sp = u := by
      rw [BridgesSpec.set, ← hsp, Function.update_eq_self]
    have hstore : Refines (u.set b sp)
        (s.setImpl b { impl.prepared params with emu := none }) :=
      h.store himpl hoff.emu.symm ⟨hbridge.callback, by rw [hd]; exact ⟨hoff.initialized, rfl⟩⟩
    rw [hsame] at hstore
    exact hstore
  | true =>
    refine ⟨rfl, Refines.activate ?_ (mem_setImpl ..)⟩
    have hmem : b ∈ s.bridges := AList.lookup_isSome.mp (by rw [himpl]; rfl)
    have hnew : s.emulators.next ∉ s.owned := h.accounts.not_mem_next
    refine h.replace (h.lt_next hmem) ?_ ?_ ?_ ?_ fun _ => hres
    · intro emu hemu
      show (s.emulators.alloc _).2.read emu = _
      rw [RefHeap.read_alloc, if_neg]
      rintro rfl
      exact hnew (hothers ▸ hemu)
    · refine isBridge_started hbridge.callback params hbackend rfl ?_
      show (s.emulators.alloc _).2.read s.emulators.next = _
      rw [RefHeap.read_alloc, if_pos rfl, emulatorSource_prepared]
    · show RefHeap.Accounts _ ({s.emulators.next} + Refines.others s b)
      rw [hothers]
      exact h.accounts.alloc _
    · show (({s.emulators.next} : Multiset ℕ) + Refines.others s b).Nodup
      rw [hothers, Multiset.singleton_add, Multiset.nodup_cons]
      exact ⟨hnew, h.single⟩

theorem agree_init (h : Refines u s) (hsp : u.bridges b = some sp)
    (himpl : s.bridges.lookup b = some impl) (hbridge : IsBridge s.emulators sp impl)
    (params : BridgeInitParams) (loads creates : Bool) :
    Agree (u.init b sp params loads creates) (s.init b impl params loads creates) := by
  have hdevice := hbridge.device
  rw [BridgesSpec.init, BridgeWorld.init]
  cases hd : sp.device with
  | some d =>
    rw [hd] at hdevice
    rw [hdevice.initialized, Option.isSome_some, if_pos rfl, if_pos rfl]
    exact ⟨rfl, h⟩
  | none =>
    rw [hd] at hdevice
    rw [hdevice.initialized, Option.isSome_none, if_neg Bool.false_ne_true,
      if_neg Bool.false_ne_true]
    cases hbackend : params.backend with
    | kMock =>
      rw [if_pos rfl, if_pos rfl]
      have hon : IsBridge s.emulators { sp with device := some ⟨none, [], fun _ => []⟩ }
          { impl.prepared params with emu := impl.emu, initialized := true } :=
        isBridge_started hbridge.callback params hbackend (by rw [hdevice.emu]; rfl)
          (by rw [hdevice.emu]; rfl)
      have hstore : Refines (u.set b { sp with device := some ⟨none, [], fun _ => []⟩ })
          (s.setImpl b { impl.prepared params with emu := impl.emu, initialized := true }) :=
        h.store himpl rfl hon
      exact ⟨rfl, hstore.activate (mem_setImpl ..)⟩
    | kCpptlm =>
      have hne : CpptlmBackendKind.kCpptlm ≠ .kMock := nofun
      obtain ⟨hloaded, href, hbridges, hemulators, hresolved⟩ := ensureBridgeLoaded_spec h loads
      rw [if_neg hne, if_neg hne]
      simp only [hloaded] at hresolved ⊢
      cases hlib : u.library.getD loads with
      | false =>
        rw [hlib] at href
        exact ⟨rfl, href⟩
      | true =>
        rw [hlib] at href hresolved
        exact agree_initEmulator href (hresolved rfl) hsp (hbridges ▸ himpl) (hemulators ▸ hbridge)
          hdevice hd hbackend creates

theorem refines_destroyed (h : Refines u s) (himpl : s.bridges.lookup b = some impl)
    (hbridge : IsBridge s.emulators sp impl) :
    Refines (u.set b { sp with device := none })
      ((s.releaseEmulator impl.held).setImpl b impl.destroyed) := by
  have hnone : impl.destroyed.emu = none := hbridge.device.destroyed_emu
  have hoff (heap : RefHeap EmulatorSource) :
      IsBridge heap { sp with device := none } impl.destroyed :=
    ⟨hbridge.callback, ⟨rfl, hnone⟩⟩
  have howned := Refines.owned_of_lookup himpl
  rw [hbridge.device.held_eq]
  cases hemu : impl.emu with
  | none => exact h.store himpl (hnone.trans hemu.symm) (hoff _)
  | some emu =>
    rw [ownEmulator, hemu, Option.toList_some, Multiset.coe_singleton, Multiset.singleton_add]
      at howned
    have hres : s.resolved = true := h.resolved (by rw [howned]; exact Multiset.cons_ne_zero)
    have hown : ownEmulator impl.destroyed + Refines.others s b = Refines.others s b := by
      rw [ownEmulator, hnone, Option.toList_none, Multiset.coe_nil, zero_add]
    have hsingle := h.single
    have haccounts := h.accounts
    rw [howned] at hsingle haccounts
    obtain ⟨hnot, hrest⟩ := Multiset.nodup_cons.mp hsingle
    have hlt : b < s.next := h.lt_next (AList.lookup_isSome.mp (by rw [himpl]; rfl))
    rw [BridgeWorld.releaseEmulator, if_pos hres]
    refine h.replace hlt ?_ (hoff _) (hown.symm ▸ haccounts.release) (hown.symm ▸ hrest) ?_
    · intro other hother
      exact RefHeap.read_release_of_ne _ fun heq => hnot (heq ▸ hother)
    · rw [hnone]
      exact nofun

theorem agree_destroy (h : Refines u s) (himpl : s.bridges.lookup b = some impl)
    (hbridge : IsBridge s.emulators sp impl) :
    Agree (.code 0, u.turnOff b sp) (.code 0, s.destroy b impl) :=
  ⟨rfl, (refines_destroyed h himpl hbridge).deactivate b⟩

theorem agree_destruct (h : Refines u s) (himpl : s.bridges.lookup b = some impl)
    (hbridge : IsBridge s.emulators sp impl) :
    Agree (.code 0, { u.deactivate b with bridges := Function.update u.bridges b none })
      (.code 0, { s.destroy b impl with bridges := (s.destroy b impl).bridges.erase b }) := by
  have hdestroyed := (agree_destroy h himpl hbridge).2
  have hlookup : (s.destroy b impl).bridges.lookup b = some impl.destroyed := AList.lookup_insert _
  have hactive : (s.destroy b impl).active ≠ some b := by
    show (if _ = some b then none else _) ≠ some b
    split_ifs with heq
    · exact nofun
    · exact heq
  have hremoved := hdestroyed.remove hlookup hbridge.device.destroyed_emu hactive
  have hupdate :
      Function.update (u.turnOff b sp).bridges b none = Function.update u.bridges b none :=
    Function.update_idem ..
  refine ⟨rfl, ?_⟩
  rw [hupdate] at hremoved
  exact hremoved

/-- An accessor of the library, on an emulator that is there. -/
theorem agree_callLibrary (h : Refines u s) (himpl : s.bridges.lookup b = some impl)
    {d : DeviceSpec} (hon : IsOn s.emulators d impl) {source : EmulatorSource}
    (hsource : d.source = some source) (answer : Int × List UInt8) :
    Agree (.library (some source) answer.1 answer.2, u) (s.callLibrary impl answer) := by
  have hemu := hon.emu
  have hread := hon.source
  rw [hsource] at hemu hread
  obtain ⟨emu, hemu⟩ := Option.isSome_iff_exists.mp hemu
  rw [hemu, Option.bind_some] at hread
  have hmem : emu ∈ s.owned := by
    rw [Refines.owned_of_lookup himpl, ownEmulator, hemu]
    exact Multiset.mem_add.mpr (.inl (Multiset.mem_singleton_self emu))
  have hres : s.resolved = true := h.resolved fun hzero => by
    rw [hzero] at hmem
    exact Multiset.notMem_zero emu hmem
  have huse : s.useEmulator emu = s := by
    rw [BridgeWorld.useEmulator, h.accounts.access hmem]
  simp only [BridgeWorld.callLibrary, hres, hemu, hread, huse]
  exact ⟨rfl, h⟩

theorem IsOn.writeConfig {heap : RefHeap EmulatorSource} {d : DeviceSpec}
    (hon : IsOn heap d impl) (offset : ℕ) (data : List UInt8) :
    IsOn heap (d.writeConfig offset data)
      { impl with configSpace := copyIn impl.configSpace offset 4 data } :=
  { hon with config := reflects_copyIn hon.config offset 4 data }

theorem IsOn.writeBar {heap : RefHeap EmulatorSource} {d : DeviceSpec} (hon : IsOn heap d impl)
    (args : BarArgs) (data : List UInt8) :
    IsOn heap (d.writeBar args data)
      { impl with
        bars := Function.update impl.bars args.bar.toNat
          (copyIn (impl.bars args.bar.toNat) args.offset.toNat args.len.toNat data) } := by
  refine { hon with bars := fun bar => ?_ }
  show Reflects (Function.update impl.bars _ _ bar) 4096 (Function.update d.bars _ _ bar)
  by_cases hbar : bar = args.bar.toNat
  · subst hbar
    rw [Function.update_self, Function.update_self]
    exact reflects_copyIn (hon.bars _) _ _ data
  · rw [Function.update_of_ne hbar, Function.update_of_ne hbar]
    exact hon.bars bar

/-- An access in range, on a device that is on. -/
theorem agree_perform (h : Refines u s) (himpl : s.bridges.lookup b = some impl)
    (hcallback : impl.msixCb = sp.callback) {d : DeviceSpec} (hon : IsOn s.emulators d impl)
    (data : List UInt8) (answer : Int × List UInt8) {a : BridgeAccess} (hrange : a.InRange) :
    Agree (u.perform b sp d data answer a d.source)
      (s.perform b impl data answer a impl.backend) := by
  have hlibrary {source : EmulatorSource} (hs : d.source = some source) :=
    agree_callLibrary h himpl hon hs answer
  have hbackend := hon.backend
  cases a with
  | config direction offset value =>
    cases direction with
    | read =>
      refine ⟨?_, h⟩
      exact congrArg _ (copyOut_eq hon.config hrange.2)
    | write => exact ⟨rfl, h.store himpl rfl ⟨hcallback, hon.writeConfig offset.toNat data⟩⟩
  | mmio direction args =>
    cases hs : d.source with
    | some source =>
      rw [hs, Option.isSome_some, if_pos rfl] at hbackend
      rw [hbackend]
      exact hlibrary hs
    | none =>
      rw [hs, Option.isSome_none, if_neg Bool.false_ne_true] at hbackend
      rw [hbackend]
      cases direction with
      | read =>
        refine ⟨?_, h⟩
        exact congrArg _ (copyOut_eq (hon.bars _) hrange.2.2.2.2)
      | write => exact ⟨rfl, h.store himpl rfl ⟨hcallback, hon.writeBar args data⟩⟩
  | backdoor direction args =>
    cases hs : d.source with
    | some source =>
      rw [hs, Option.isSome_some, if_pos rfl] at hbackend
      rw [hbackend]
      exact hlibrary hs
    | none =>
      rw [hs, Option.isSome_none, if_neg Bool.false_ne_true] at hbackend
      rw [hbackend]
      exact ⟨rfl, h⟩

theorem agree_access (h : Refines u s) (himpl : s.bridges.lookup b = some impl)
    (hbridge : IsBridge s.emulators sp impl) (data : List UInt8) (answer : Int × List UInt8)
    (a : BridgeAccess) : Agree (u.access b sp data answer a) (s.access b impl data answer a) := by
  have hdevice := hbridge.device
  cases hd : sp.device with
  | none =>
    rw [hd] at hdevice
    simp only [BridgesSpec.access, BridgeWorld.access, hd, hdevice.initialized]
    exact ⟨rfl, h⟩
  | some d =>
    rw [hd] at hdevice
    simp only [BridgesSpec.access, BridgeWorld.access, hd, hdevice.initialized, Bool.not_true,
      Bool.false_eq_true, if_false, not_valid_iff]
    by_cases hrange : a.InRange
    · rw [if_neg (not_not.mpr hrange), if_neg (not_not.mpr hrange)]
      exact agree_perform h himpl hbridge.callback hdevice data answer hrange
    · rw [if_pos hrange, if_pos hrange]
      exact ⟨rfl, h⟩

theorem agree_registerMsixCallback (h : Refines u s) (himpl : s.bridges.lookup b = some impl)
    (hbridge : IsBridge s.emulators sp impl) (cb : Option κ) :
    Agree (u.registerMsixCallback b sp cb) (s.registerMsixCallback b impl cb) := by
  have hdevice := hbridge.device
  rw [BridgesSpec.registerMsixCallback, BridgeWorld.registerMsixCallback]
  cases hd : sp.device with
  | none =>
    rw [hd] at hdevice
    rw [hdevice.initialized]
    exact ⟨rfl, h⟩
  | some d =>
    rw [hd] at hdevice
    rw [hdevice.initialized]
    exact ⟨rfl, h.store himpl rfl ⟨rfl, rfl, hdevice.backend, hdevice.emu, hdevice.source,
      hdevice.config, hdevice.bars⟩⟩

theorem agree_attachEndpoint (h : Refines u s) (hbridge : IsBridge s.emulators sp impl)
    (endpoint : Bool) : Agree (u.attachEndpoint sp endpoint) (s.attachEndpoint impl endpoint) := by
  have hdevice := hbridge.device
  rw [BridgesSpec.attachEndpoint, BridgeWorld.attachEndpoint]
  cases hd : sp.device with
  | none =>
    rw [hd] at hdevice
    rw [hdevice.initialized]
    cases endpoint <;> exact ⟨rfl, h⟩
  | some d =>
    rw [hd] at hdevice
    rw [hdevice.initialized]
    cases endpoint <;> exact ⟨rfl, h⟩

theorem agree_inject (h : Refines u s) (hbridge : IsBridge s.emulators sp impl)
    (vector : UInt32) : Agree (u.inject sp vector) (s.injectMsixForTest impl vector) := by
  have hdevice := hbridge.device
  rw [BridgesSpec.inject, BridgeWorld.injectMsixForTest, hbridge.callback]
  cases hd : sp.device with
  | none =>
    rw [hd] at hdevice
    rw [hdevice.initialized]
    exact ⟨rfl, h⟩
  | some d =>
    rw [hd] at hdevice
    rw [hdevice.initialized]
    exact ⟨rfl, h⟩

/-- Every call, on the bridges and on the devices. -/
theorem agree_call (h : Refines u s) (op : BridgeOp κ) (hnames : s.NamesLiving op) :
    Agree (u.call op) (s.call op) := by
  cases op with
  | construct => exact agree_construct h
  | destruct b =>
    exact agree_withBridge h (hnames b rfl) fun sp impl _ himpl hbridge =>
      agree_destruct h himpl hbridge
  | init b params loads creates =>
    exact agree_withBridge h (hnames b rfl) fun sp impl hsp himpl hbridge =>
      agree_init h hsp himpl hbridge params loads creates
  | destroy b =>
    exact agree_withBridge h (hnames b rfl) fun sp impl _ himpl hbridge =>
      agree_destroy h himpl hbridge
  | access b a data answer =>
    exact agree_withBridge h (hnames b rfl) fun sp impl _ himpl hbridge =>
      agree_access h himpl hbridge data answer a
  | registerMsixCallback b cb =>
    exact agree_withBridge h (hnames b rfl) fun sp impl _ himpl hbridge =>
      agree_registerMsixCallback h himpl hbridge cb
  | attachEndpoint b endpoint =>
    exact agree_withBridge h (hnames b rfl) fun sp impl _ _ hbridge =>
      agree_attachEndpoint h hbridge endpoint
  | injectMsixForTest b vector =>
    exact agree_withBridge h (hnames b rfl) fun sp impl _ _ hbridge =>
      agree_inject h hbridge vector
  | get => exact ⟨congrArg _ h.active.symm, h⟩
  | setActive bridge => exact ⟨rfl, h.setActive hnames⟩
  | injectMsixShim vector =>
    rw [BridgesSpec.call, BridgeWorld.call, h.active]
    cases hactive : s.active with
    | none => exact ⟨rfl, h⟩
    | some b =>
      exact agree_withBridge h (h.living b hactive) fun sp impl _ _ hbridge =>
        agree_inject h hbridge vector
  | hostBridge mode direction args data answer =>
    rw [BridgesSpec.call, BridgeWorld.call, h.active]
    cases hactive : s.active with
    | none => exact ⟨rfl, h⟩
    | some b =>
      exact agree_withBridge h (h.living b hactive) fun sp impl _ himpl hbridge =>
        agree_access h himpl hbridge data answer _

end Calls

/-! ### Runs -/

theorem refines_run {u : BridgesSpec κ} {s : BridgeWorld κ} (h : Refines u s)
    {ops : List (BridgeOp κ)} (hG : Guarded BridgeWorld.step BridgeWorld.NamesLiving s ops) :
    Refines (run BridgesSpec.step u ops) (run BridgeWorld.step s ops) := by
  induction ops generalizing u s with
  | nil => exact h
  | cons op ops ih => exact ih (agree_call h op hG.1).2 hG.2

/-- **Bridges.**  After any calls that name no deleted bridge, every further one returns what the
devices return; no emulator was used after its destruction or destroyed twice, and those that exist
belong to one bridge each. -/
theorem bridges_refine (ops : List (BridgeOp κ))
    (hG : Guarded BridgeWorld.step BridgeWorld.NamesLiving (.initial : BridgeWorld κ) ops) :
    let u := run BridgesSpec.step .initial ops
    let s := run BridgeWorld.step .initial ops
    Refines u s ∧ ∀ op, s.NamesLiving op → (s.call op).1 = (u.call op).1 := by
  intro u s
  have h : Refines u s := refines_run refines_initial hG
  exact ⟨h, fun op hnames => (agree_call h op hnames).1⟩

/-- The first of two bridges goes off and on again, and is written to. -/
def rebootedBridge : List (BridgeOp ℕ) :=
  [.construct, .construct, .init 0 ⟨.kMock, none⟩ false false, .registerMsixCallback 0 (some 7),
    .init 1 ⟨.kCpptlm, some [47, 112]⟩ true true, .destroy 0, .setActive (some 1),
    .init 0 ⟨.kMock, none⟩ false false, .access 0 (.config .write 60 true) [1, 2, 3, 4] (0, [])]

theorem bridges_refine_rebooted :
    let u := run BridgesSpec.step .initial rebootedBridge
    let s := run BridgeWorld.step .initial rebootedBridge
    Refines u s ∧ ∀ op, s.NamesLiving op → (s.call op).1 = (u.call op).1 :=
  bridges_refine rebootedBridge (by decide)

end UsrLinuxEmu.SimHardware
