import UsrLinuxEmu.SimHardware.Topology
import Mathlib.Data.List.Nodup
import Mathlib.Tactic.IntervalCases

/-!
# Writing and loading a topology (`sim_hardware/src/topology.cpp`)

What the loader has accepted is printed and loaded again.  The parts that are numbers and flags come
back; addresses that differ only in how they were written do not, nor do kinds that were cut short.

* `BarsOk`, `DeviceOk`, `TopologyOk` — what the loader leaves;
* `loadBars_json`, `loadDevice_json`, `loadDevices_json` — what it makes of what is printed;
* `Printable` — packed addresses that differ, kinds that are not empty and well formed;
* `topology_round_trip_iff` — a loaded topology comes back exactly when it is printable.
-/

namespace UsrLinuxEmu.SimHardware

open UsrLinuxEmu.CText UsrLinuxEmu.Json

/-! ### Base address registers -/

/-- The indices taken after a BAR. -/
def barSeen (seen : List UInt8) (bar : TopologyBar) : List UInt8 :=
  if bar.is64bit then (bar.index + 1) :: bar.index :: seen else bar.index :: seen

structure BarOk (seen : List UInt8) (bar : TopologyBar) : Prop where
  index : bar.index ≤ 5
  fresh : bar.index ∉ seen
  size : bar.sizeBytes ≠ 0
  wide : ¬(bar.is64bit = true ∧ (bar.index = 5 ∨ bar.index + 1 ∈ bar.index :: seen))

def BarsOk : List UInt8 → List TopologyBar → Prop
  | _, [] => True
  | seen, bar :: bars => BarOk seen bar ∧ BarsOk (barSeen seen bar) bars

theorem index_cases {i : UInt8} (h : i ≤ 5) :
    i = 0 ∨ i = 1 ∨ i = 2 ∨ i = 3 ∨ i = 4 ∨ i = 5 := by
  have hnat : i.toNat ≤ 5 := UInt8.le_iff_toNat_le.mp h
  simp only [← UInt8.toNat_inj]
  simp only [show (0 : UInt8).toNat = 0 from rfl, show (1 : UInt8).toNat = 1 from rfl,
    show (2 : UInt8).toNat = 2 from rfl, show (3 : UInt8).toNat = 3 from rfl,
    show (4 : UInt8).toNat = 4 from rfl, show (5 : UInt8).toNat = 5 from rfl]
  omega

/-- An index between 0 and 5 fits in a byte. -/
theorem ofNat_index {i : Int} (h : ¬(i < 0 ∨ 5 < i)) :
    UInt8.ofNat i.toNat ≤ 5 ∧ (i = 5 ↔ UInt8.ofNat i.toNat = 5) := by
  obtain ⟨n, rfl⟩ : ∃ n : ℕ, i = n := ⟨i.toNat, by omega⟩
  have hn : n < 6 := by omega
  have hsmall : (UInt8.ofNat n).toNat = n :=
    UInt8.toNat_ofNat_of_lt' (Nat.lt_trans hn (by decide))
  rw [Int.toNat_natCast, UInt8.le_iff_toNat_le, ← UInt8.toNat_inj, hsmall,
    show (5 : UInt8).toNat = 5 from rfl]
  omega

theorem loadBar_some {seen seen' : List UInt8} {j : JsonValue} {bar : TopologyBar}
    (h : loadBar seen j = some (bar, seen')) : BarOk seen bar ∧ seen' = barSeen seen bar := by
  unfold loadBar at h
  simp only [Option.bind_eq_bind, Option.bind_eq_some_iff, failIf_eq_some] at h
  obtain ⟨-, -, -, -, -, -, index, -, -, hidx, -, hfresh, -, -, size, -, -, hsize, prefetchable, -,
    isMmio, -, is64bit, -, -, hwide, hbar⟩ := h
  obtain ⟨hle, hfive⟩ := ofNat_index hidx
  cases hbar
  rw [hfive] at hwide
  exact ⟨⟨hle, hfresh, hsize, hwide⟩, rfl⟩

theorem getInt_index {i : UInt8} (h : i ≤ 5) :
    getInt (Int64.ofNat i.toNat).toUInt64 = i.toNat := by
  rcases index_cases h with rfl | rfl | rfl | rfl | rfl | rfl <;> rfl

theorem barJson_reparsed {bar : TopologyBar} (h : bar.index ≤ 5) :
    (barJson bar).reparsed = .object
      [("index", .unsigned (Int64.ofNat bar.index.toNat).toUInt64),
        ("is_64bit", .boolean bar.is64bit), ("is_mmio", .boolean bar.isMmio),
        ("prefetchable", .boolean bar.prefetchable), ("size_bytes", .unsigned bar.sizeBytes)] := by
  have hpos : 0 ≤ Int64.ofNat bar.index.toNat := by
    rcases index_cases h with heq | heq | heq | heq | heq | heq <;> rw [heq] <;> decide
  simp only [barJson, JsonValue.reparsed, JsonValue.reparsedMembers, if_pos hpos]

/-- A BAR that has been accepted is accepted again. -/
theorem loadBar_json {seen : List UInt8} {bar : TopologyBar} (h : BarOk seen bar) :
    loadBar seen (barJson bar).reparsed = some (bar, barSeen seen bar) := by
  have hidx := getInt_index h.index
  have hback : UInt8.ofNat (getInt (Int64.ofNat bar.index.toNat).toUInt64).toNat = bar.index := by
    rw [hidx, Int.toNat_natCast, UInt8.ofNat_toNat]
  have hrange : ¬(getInt (Int64.ofNat bar.index.toNat).toUInt64 < 0 ∨
      5 < getInt (Int64.ofNat bar.index.toNat).toUInt64) := by
    have hle := UInt8.le_iff_toNat_le.mp h.index
    rw [show (5 : UInt8).toNat = 5 from rfl] at hle
    omega
  have hfive : getInt (Int64.ofNat bar.index.toNat).toUInt64 = 5 ↔ bar.index = 5 := by
    rw [(ofNat_index hrange).2, hback]
  rw [barJson_reparsed h.index]
  unfold loadBar
  simp only [Option.bind_eq_bind, Option.bind_eq_some_iff]
  refine ⟨_, rfl, (), failIf_of_not fun h => h rfl, _, rfl, _, rfl, (), failIf_of_not hrange, (),
    failIf_of_not ?_, _, rfl, _, rfl, (), failIf_of_not h.size, _, rfl, _, rfl, _, rfl, (),
    failIf_of_not ?_, ?_⟩
  · rw [hback]
    exact h.fresh
  · rw [hback, hfive]
    exact h.wide
  · rw [hback]
    rfl

theorem loadBars_some {seen : List UInt8} {js : List JsonValue} {bars : List TopologyBar}
    (h : loadBars seen js = some bars) : BarsOk seen bars ∧ bars.length = js.length := by
  induction js generalizing seen bars with
  | nil =>
    cases h
    exact ⟨trivial, rfl⟩
  | cons j js ih =>
    simp only [loadBars, Option.bind_eq_bind, Option.bind_eq_some_iff] at h
    obtain ⟨⟨bar, seen'⟩, hbar, bars', hbars, heq⟩ := h
    cases heq
    obtain ⟨hok, rfl⟩ := loadBar_some hbar
    obtain ⟨hrest, hlength⟩ := ih hbars
    exact ⟨⟨hok, hrest⟩, congrArg Nat.succ hlength⟩

theorem loadBars_json {seen : List UInt8} {bars : List TopologyBar} (h : BarsOk seen bars) :
    loadBars seen (bars.map fun bar => (barJson bar).reparsed) = some bars := by
  induction bars generalizing seen with
  | nil => rfl
  | cons bar bars ih =>
    rw [List.map_cons, loadBars, loadBar_json h.1]
    simp only [Option.bind_eq_bind, Option.bind_some, ih h.2]
    rfl

/-! ### Addresses -/

theorem hexStep_hexDigit {d : ℕ} (hd : d < 16) (v : ℕ) :
    hexStep v (hexDigit lowerAlpha d) = some (v * 16 + d) := by
  interval_cases d <;> rfl

theorem foldlM_hexField (width n v : ℕ) :
    (hexField lowerAlpha width n).foldlM hexStep v = some (v * 16 ^ width + n % 16 ^ width) := by
  induction width generalizing v with
  | zero => simp [hexField, Nat.mod_one]
  | succ width ih =>
    have hd : n / 16 ^ width % 16 < 16 := Nat.mod_lt _ (by decide)
    have hsplit : n % 16 ^ (width + 1) = n % 16 ^ width + 16 ^ width * (n / 16 ^ width % 16) := by
      rw [pow_succ, Nat.mod_mul]
    rw [hexField, List.foldlM_cons, hexStep_hexDigit hd]
    simp only [Option.bind_eq_bind, Option.bind_some, ih]
    rw [hsplit, pow_succ]
    congr 1
    ring

theorem hexByte_hexField {width n : ℕ} (h : n < 16 ^ width) :
    hexByte (hexField lowerAlpha width n) = some n := by
  rw [hexByte, foldlM_hexField, Nat.zero_mul, Nat.zero_add, Nat.mod_eq_of_lt h]

theorem bdf_lt {bus device func : ℕ} (hbus : bus ≤ 0x1F) (hdevice : device ≤ 0x1F)
    (hfunc : func ≤ 0x07) : bus <<< 8 ||| device <<< 3 ||| func < 2 ^ 13 := by
  apply Nat.or_lt_two_pow
  · apply Nat.or_lt_two_pow
    · rw [Nat.shiftLeft_eq]
      omega
    · rw [Nat.shiftLeft_eq]
      omega
  · omega

/-- Packed addresses have 13 bits. -/
theorem packBdf_lt (s : ByteString) : (packBdf s).toNat < 2 ^ 13 := by
  unfold packBdf
  split_ifs
  · decide
  · decide
  · split
    · split_ifs with hrange
      · decide
      · simp only [not_or, Nat.not_lt] at hrange
        exact Nat.lt_of_le_of_lt (Nat.mod_le _ _) (bdf_lt hrange.1 hrange.2.1 hrange.2.2)
    · decide

/-- The bus, the device and the function in a packed address. -/
theorem bdf_fields (n : ℕ) :
    n >>> 8 &&& 0x1F = n / 2 ^ 8 % 2 ^ 5 ∧ n >>> 3 &&& 0x1F = n / 2 ^ 3 % 2 ^ 5 ∧
      n &&& 0x07 = n % 2 ^ 3 := by
  refine ⟨?_, ?_, Nat.and_two_pow_sub_one_eq_mod _ 3⟩
  · rw [Nat.shiftRight_eq_div_pow]
    exact Nat.and_two_pow_sub_one_eq_mod _ 5
  · rw [Nat.shiftRight_eq_div_pow]
    exact Nat.and_two_pow_sub_one_eq_mod _ 5

theorem bdf_split {n : ℕ} (h : n < 2 ^ 13) :
    (n >>> 8 &&& 0x1F) <<< 8 ||| (n >>> 3 &&& 0x1F) <<< 3 ||| (n &&& 0x07) = n := by
  obtain ⟨hbus, hdevice, hfunc⟩ := bdf_fields n
  have hlow : (n / 2 ^ 3 % 2 ^ 5) <<< 3 + n % 2 ^ 3 < 2 ^ 8 := by
    rw [Nat.shiftLeft_eq]
    omega
  have hfuncLt : n % 2 ^ 3 < 2 ^ 3 := Nat.mod_lt _ (by decide)
  rw [hbus, hdevice, hfunc, Nat.or_assoc, ← Nat.shiftLeft_add_eq_or_of_lt hfuncLt,
    ← Nat.shiftLeft_add_eq_or_of_lt hlow, Nat.shiftLeft_eq, Nat.shiftLeft_eq]
  omega

/-- An address that has been packed is packed again from its string. -/
theorem packBdf_bdfToStr {p : UInt16} (h : p.toNat < 2 ^ 13) : packBdf (bdfToStr p) = p := by
  have hbus : ((p >>> 8) &&& 0x1F).toNat = p.toNat >>> 8 &&& 0x1F := rfl
  have hdevice : ((p >>> 3) &&& 0x1F).toNat = p.toNat >>> 3 &&& 0x1F := rfl
  have hfunc : (p &&& 0x07).toNat = p.toNat &&& 0x07 := rfl
  have hle5 (n : ℕ) : n &&& 0x1F ≤ 0x1F := Nat.and_le_right
  have hle3 (n : ℕ) : n &&& 0x07 ≤ 0x07 := Nat.and_le_right
  have hreadBus : hexByte ((bdfToStr p).take 4) = some (p.toNat >>> 8 &&& 0x1F) := by
    have hlt : p.toNat >>> 8 &&& 0x1F < 16 ^ 4 := Nat.lt_of_le_of_lt (hle5 _) (by decide)
    exact hexByte_hexField hlt
  have hreadDevice : hexByte (((bdfToStr p).drop 5).take 2) = some (p.toNat >>> 3 &&& 0x1F) := by
    have hlt : p.toNat >>> 3 &&& 0x1F < 16 ^ 2 := Nat.lt_of_le_of_lt (hle5 _) (by decide)
    exact hexByte_hexField hlt
  have hreadFunc : hexByte (((bdfToStr p).drop 8).take 2) = some (p.toNat &&& 0x07) := by
    have hlt : p.toNat &&& 0x07 < 16 ^ 2 := Nat.lt_of_le_of_lt (hle3 _) (by decide)
    exact hexByte_hexField hlt
  have hcolons : ¬((bdfToStr p)[4]? ≠ some 0x3A ∨ (bdfToStr p)[7]? ≠ some 0x3A ∨
      (bdfToStr p)[10]? ≠ some 0x2E) := by
    rintro (hc | hc | hc)
    · exact hc rfl
    · exact hc rfl
    · exact hc rfl
  have hrange : ¬(0x1F < p.toNat >>> 8 &&& 0x1F ∨ 0x1F < p.toNat >>> 3 &&& 0x1F ∨
      0x07 < p.toNat &&& 0x07) := by
    rintro (hc | hc | hc)
    · exact Nat.not_lt.mpr (hle5 _) hc
    · exact Nat.not_lt.mpr (hle5 _) hc
    · exact Nat.not_lt.mpr (hle3 _) hc
  rw [packBdf, if_neg (fun hlength => hlength rfl), if_neg hcolons, hreadBus, hreadDevice,
    hreadFunc]
  simp only [if_neg hrange, bdf_split h]
  exact UInt16.ofNat_toNat

theorem bdfToStr_inj {p q : UInt16} (hp : p.toNat < 2 ^ 13) (hq : q.toNat < 2 ^ 13)
    (h : bdfToStr p = bdfToStr q) : p = q := by
  rw [← packBdf_bdfToStr hp, h, packBdf_bdfToStr hq]

/-! ### Identifiers -/

theorem parseHex_hexField {width n : ℕ} (hpos : 0 < width) (hfits : n < 16 ^ width)
    (hword : n < 2 ^ 64) :
    parseHex (0x30 :: 0x78 :: hexField upperAlpha width n) = some (UInt64.ofNat n) := by
  have hcstr : cstr (0x30 :: 0x78 :: hexField upperAlpha width n) =
      0x30 :: 0x78 :: hexField upperAlpha width n := by
    apply cstr_eq_self
    intro b hb
    rcases List.mem_cons.mp hb with rfl | hb
    · decide
    rcases List.mem_cons.mp hb with rfl | hb
    · decide
    · exact (hexField_ascii (.inr rfl) hb).2
  have hlength : 2 < (0x30 :: 0x78 :: hexField upperAlpha width n).length := by
    rw [List.length_cons, List.length_cons, length_hexField]
    omega
  have hprefix : hasHexPrefix (0x30 :: 0x78 :: hexField upperAlpha width n) = true := rfl
  rw [parseHex, if_neg (by exact Bool.false_ne_true), hcstr]
  simp only [if_pos (And.intro hlength hprefix), List.drop_succ_cons, List.drop_zero,
    strtoul_hexField (.inr rfl) hpos hfits hword]
  rfl

theorem parseHexU16_hexU16 (v : UInt16) : parseHexU16 (hexU16 v) = some v := by
  have hlt := v.toNat_lt
  have hnat : (UInt64.ofNat v.toNat).toNat = v.toNat :=
    UInt64.toNat_ofNat_of_lt' (Nat.lt_trans hlt (by decide))
  have hfits : ¬(0xFFFF < UInt64.ofNat v.toNat) := by
    rw [UInt64.lt_iff_toNat_lt, hnat]
    exact Nat.not_lt.mpr (Nat.le_of_lt_succ hlt)
  rw [parseHexU16, hexU16, parseHex_hexField (by decide) (by omega) (by omega), Option.bind_some,
    if_neg hfits]
  congr 1
  rw [← UInt16.toNat_inj, UInt64.toNat_toUInt16, hnat]
  exact Nat.mod_eq_of_lt hlt

theorem parseHexU32_hexU32 (v : UInt32) : parseHexU32 (hexU32 v) = some v := by
  have hlt := v.toNat_lt
  have hnat : (UInt64.ofNat v.toNat).toNat = v.toNat :=
    UInt64.toNat_ofNat_of_lt' (Nat.lt_trans hlt (by decide))
  rw [parseHexU32, hexU32, parseHex_hexField (by decide) (by omega) (by omega), Option.map_some]
  congr 1
  rw [← UInt32.toNat_inj, UInt64.toNat_toUInt32, hnat]
  exact Nat.mod_eq_of_lt hlt

/-! ### Devices -/

structure DeviceOk (td : TopologyDevice) : Prop where
  bdf : td.bdf.toNat < 2 ^ 13
  kindLength : td.endpointKind.length < endpointKindSize
  kindNoNull : ∀ b ∈ td.endpointKind, b ≠ 0
  barCount : td.bars.length ≤ kMaxBarsPerDevice
  bars : BarsOk [] td.bars

theorem copyEndpointKind_length (s : ByteString) :
    (copyEndpointKind s).length < endpointKindSize :=
  Nat.lt_succ_of_le (List.length_take_le _ _)

theorem copyEndpointKind_ne_zero {s : ByteString} {b : UInt8} (h : b ∈ copyEndpointKind s) :
    b ≠ 0 :=
  ne_zero_of_mem_cstr (List.mem_of_mem_take h)

theorem copyEndpointKind_self {s : ByteString} (hlength : s.length < endpointKindSize)
    (hnull : ∀ b ∈ s, b ≠ 0) : copyEndpointKind s = s := by
  rw [copyEndpointKind, cstr_eq_self hnull]
  exact List.take_of_length_le (Nat.le_of_lt_succ hlength)

theorem loadDeviceBars_some {dev : JsonValue} {bars : List TopologyBar}
    (h : loadDeviceBars dev = some bars) :
    bars.length ≤ kMaxBarsPerDevice ∧ BarsOk [] bars := by
  unfold loadDeviceBars at h
  simp only [Option.bind_eq_bind, Option.bind_eq_some_iff, failIf_eq_some] at h
  obtain ⟨-, -, elems, -, -, hcount, hbars⟩ := h
  obtain ⟨hok, hlength⟩ := loadBars_some hbars
  rw [Nat.not_lt, ← hlength] at hcount
  exact ⟨hcount, hok⟩

theorem loadDevice_some {seen : List ByteString} {j : JsonValue} {td : TopologyDevice}
    {s : ByteString} (h : loadDevice seen j = some (td, s)) : DeviceOk td := by
  unfold loadDevice at h
  simp only [Option.bind_eq_bind, Option.bind_eq_some_iff, failIf_eq_some] at h
  obtain ⟨-, -, -, -, bdf, -, vendorId, -, deviceId, -, classCode, -, ek, -, bars, hbars, heq⟩ := h
  cases heq
  obtain ⟨hcount, hok⟩ := loadDeviceBars_some hbars
  exact ⟨packBdf_lt s, copyEndpointKind_length ek, fun b => copyEndpointKind_ne_zero, hcount, hok⟩

theorem deviceJson_reparsed (td : TopologyDevice) :
    (deviceJson td).reparsed = .object
      [("bars", .array (td.bars.map fun bar => (barJson bar).reparsed)),
        ("bdf", .string (bdfToStr td.bdf)), ("class_code", .string (hexU32 td.classCode)),
        ("device_id", .string (hexU16 td.deviceId)), ("endpoint_kind", .string td.endpointKind),
        ("vendor_id", .string (hexU16 td.vendorId))] := by
  simp only [deviceJson, JsonValue.reparsed, JsonValue.reparsedMembers,
    JsonValue.reparsedElems_eq_map, List.map_map]
  rfl

theorem loadBdf_json {seen : List ByteString} {td : TopologyDevice} (h : DeviceOk td)
    (hnew : bdfToStr td.bdf ∉ seen) :
    loadBdf seen (deviceJson td).reparsed = some (bdfToStr td.bdf) := by
  have hzero : ¬(packBdf (bdfToStr td.bdf) = 0 ∧ bdfToStr td.bdf ≠ ascii "0000:00:00.0") := by
    rintro ⟨hz, hne⟩
    rw [packBdf_bdfToStr h.bdf] at hz
    rw [hz] at hne
    exact hne rfl
  rw [deviceJson_reparsed]
  unfold loadBdf
  simp only [Option.bind_eq_bind, Option.bind_eq_some_iff]
  exact ⟨_, rfl, _, rfl, (), failIf_of_not fun hlength => hlength rfl, (), failIf_of_not hnew, (),
    failIf_of_not hzero, rfl⟩

theorem loadBdf_json_some {seen : List ByteString} {td : TopologyDevice} {s : ByteString}
    (h : loadBdf seen (deviceJson td).reparsed = some s) :
    s = bdfToStr td.bdf ∧ bdfToStr td.bdf ∉ seen := by
  rw [deviceJson_reparsed] at h
  unfold loadBdf at h
  simp only [Option.bind_eq_bind, Option.bind_eq_some_iff, failIf_eq_some] at h
  obtain ⟨v, hv, bdf, hbdf, -, -, -, hnew, -, -, heq⟩ := h
  cases hv
  cases hbdf
  cases heq
  exact ⟨rfl, hnew⟩

theorem loadEndpointKind_json {td : TopologyDevice} (h : td.endpointKind ≠ []) :
    loadEndpointKind (deviceJson td).reparsed = some td.endpointKind := by
  rw [deviceJson_reparsed]
  unfold loadEndpointKind
  simp only [Option.bind_eq_bind, Option.bind_eq_some_iff]
  refine ⟨_, rfl, _, rfl, (), failIf_of_not ?_, rfl⟩
  rw [List.isEmpty_iff]
  exact h

theorem loadEndpointKind_json_some {td : TopologyDevice} {ek : ByteString}
    (h : loadEndpointKind (deviceJson td).reparsed = some ek) : td.endpointKind ≠ [] := by
  rw [deviceJson_reparsed] at h
  unfold loadEndpointKind at h
  simp only [Option.bind_eq_bind, Option.bind_eq_some_iff, failIf_eq_some] at h
  obtain ⟨v, hv, ek', hek, -, hempty, -⟩ := h
  cases hv
  cases hek
  rwa [List.isEmpty_iff] at hempty

theorem loadDeviceBars_json {td : TopologyDevice} (h : DeviceOk td) :
    loadDeviceBars (deviceJson td).reparsed = some td.bars := by
  have hcount : ¬kMaxBarsPerDevice < (td.bars.map fun bar => (barJson bar).reparsed).length := by
    rw [List.length_map]
    exact Nat.not_lt.mpr h.barCount
  rw [deviceJson_reparsed]
  unfold loadDeviceBars
  simp only [Option.bind_eq_bind, Option.bind_eq_some_iff]
  exact ⟨_, rfl, _, rfl, (), failIf_of_not hcount, loadBars_json h.bars⟩

theorem loadHex_of_member {α : Type} {parse : ByteString → Option α} {dev : JsonValue}
    {key : String} {s : ByteString} (h : dev.member key = some (.string s)) :
    loadHex parse dev key = parse s := by
  rw [loadHex, h]
  rfl

theorem loadHex_json (td : TopologyDevice) :
    loadHex parseHexU16 (deviceJson td).reparsed "vendor_id" = some td.vendorId ∧
      loadHex parseHexU16 (deviceJson td).reparsed "device_id" = some td.deviceId ∧
        loadHex parseHexU32 (deviceJson td).reparsed "class_code" = some td.classCode := by
  have hvendor : (deviceJson td).reparsed.member "vendor_id" =
      some (.string (hexU16 td.vendorId)) := by
    rw [deviceJson_reparsed]
    rfl
  have hdevice : (deviceJson td).reparsed.member "device_id" =
      some (.string (hexU16 td.deviceId)) := by
    rw [deviceJson_reparsed]
    rfl
  have hclass : (deviceJson td).reparsed.member "class_code" =
      some (.string (hexU32 td.classCode)) := by
    rw [deviceJson_reparsed]
    rfl
  rw [loadHex_of_member hvendor, loadHex_of_member hdevice, loadHex_of_member hclass]
  exact ⟨parseHexU16_hexU16 td.vendorId, parseHexU16_hexU16 td.deviceId,
    parseHexU32_hexU32 td.classCode⟩

/-- A device is accepted again exactly if its address is new and its kind is not empty. -/
theorem loadDevice_json {seen : List ByteString} {td : TopologyDevice} (h : DeviceOk td)
    (hnew : bdfToStr td.bdf ∉ seen) (hkind : td.endpointKind ≠ []) :
    loadDevice seen (deviceJson td).reparsed = some (td, bdfToStr td.bdf) := by
  obtain ⟨hvendor, hdevice, hclass⟩ := loadHex_json td
  unfold loadDevice
  simp only [loadBdf_json h hnew, hvendor, hdevice, hclass, loadEndpointKind_json hkind,
    loadDeviceBars_json h, Option.bind_eq_bind, Option.bind_some, packBdf_bdfToStr h.bdf,
    copyEndpointKind_self h.kindLength h.kindNoNull]
  rw [deviceJson_reparsed]
  rfl

theorem loadDevice_json_some {seen : List ByteString} {td td' : TopologyDevice} {s : ByteString}
    (h : loadDevice seen (deviceJson td).reparsed = some (td', s)) :
    s = bdfToStr td.bdf ∧ bdfToStr td.bdf ∉ seen ∧ td.endpointKind ≠ [] := by
  unfold loadDevice at h
  simp only [Option.bind_eq_bind, Option.bind_eq_some_iff, failIf_eq_some] at h
  obtain ⟨-, -, -, -, bdf, hbdf, vendorId, -, deviceId, -, classCode, -, ek, hek, bars, -, heq⟩ := h
  cases heq
  obtain ⟨heq, hnew⟩ := loadBdf_json_some hbdf
  exact ⟨heq, hnew, loadEndpointKind_json_some hek⟩

theorem loadDevices_some {seen : List ByteString} {js : List JsonValue}
    {devices : List TopologyDevice} (h : loadDevices seen js = some devices) :
    (∀ td ∈ devices, DeviceOk td) ∧ devices.length = js.length := by
  induction js generalizing seen devices with
  | nil =>
    cases h
    exact ⟨fun td htd => absurd htd List.not_mem_nil, rfl⟩
  | cons j js ih =>
    simp only [loadDevices, Option.bind_eq_bind, Option.bind_eq_some_iff] at h
    obtain ⟨⟨td, s⟩, htd, devices', hrest, heq⟩ := h
    cases heq
    obtain ⟨hall, hlength⟩ := ih hrest
    exact ⟨List.forall_mem_cons.mpr ⟨loadDevice_some htd, hall⟩, congrArg Nat.succ hlength⟩

/-- The addresses that are printed for the devices. -/
def bdfStrings (devices : List TopologyDevice) : List ByteString :=
  devices.map fun td => bdfToStr td.bdf

theorem loadDevices_json {seen : List ByteString} {devices : List TopologyDevice}
    (h : ∀ td ∈ devices, DeviceOk td) (hnodup : (bdfStrings devices).Nodup)
    (hnew : ∀ s ∈ bdfStrings devices, s ∉ seen) (hkind : ∀ td ∈ devices, td.endpointKind ≠ []) :
    loadDevices seen (devices.map fun td => (deviceJson td).reparsed) = some devices := by
  induction devices generalizing seen with
  | nil => rfl
  | cons td devices ih =>
    obtain ⟨htd, hrest⟩ := List.forall_mem_cons.mp h
    obtain ⟨hfirst, hkinds⟩ := List.forall_mem_cons.mp hkind
    obtain ⟨hfresh, hnodup⟩ := List.nodup_cons.mp hnodup
    obtain ⟨hnewFirst, hnewRest⟩ := List.forall_mem_cons.mp hnew
    have hnewTail : ∀ s ∈ bdfStrings devices, s ∉ bdfToStr td.bdf :: seen := by
      intro s hs hmem
      rcases List.mem_cons.mp hmem with rfl | hmem
      · exact hfresh hs
      · exact hnewRest s hs hmem
    have htail := ih hrest hnodup hnewTail hkinds
    rw [List.map_cons, loadDevices, loadDevice_json htd hnewFirst hfirst]
    simp only [Option.bind_eq_bind, Option.bind_some, htail]
    rfl

theorem loadDevices_json_some {seen : List ByteString} {devices devices' : List TopologyDevice}
    (h : loadDevices seen (devices.map fun td => (deviceJson td).reparsed) = some devices') :
    (bdfStrings devices).Nodup ∧ (∀ s ∈ bdfStrings devices, s ∉ seen) ∧
      ∀ td ∈ devices, td.endpointKind ≠ [] := by
  induction devices generalizing seen devices' with
  | nil => exact ⟨List.nodup_nil, fun s hs => absurd hs List.not_mem_nil,
      fun td htd => absurd htd List.not_mem_nil⟩
  | cons td devices ih =>
    rw [List.map_cons] at h
    simp only [loadDevices, Option.bind_eq_bind, Option.bind_eq_some_iff] at h
    obtain ⟨⟨td', s⟩, htd, devices', hrest, -⟩ := h
    obtain ⟨rfl, hnew, hkind⟩ := loadDevice_json_some htd
    obtain ⟨hnodup, hnewRest, hkinds⟩ := ih hrest
    refine ⟨List.nodup_cons.mpr ⟨fun hmem => hnewRest _ hmem List.mem_cons_self, hnodup⟩,
      List.forall_mem_cons.mpr ⟨hnew, fun s hs hmem => hnewRest s hs (List.mem_cons_of_mem _ hmem)⟩,
      List.forall_mem_cons.mpr ⟨hkind, hkinds⟩⟩

/-- Addresses that differ stay apart under a function that tells addresses of devices apart. -/
theorem nodup_map_bdf {β : Type} {f : UInt16 → β} {devices : List TopologyDevice}
    (h : ∀ td ∈ devices, DeviceOk td)
    (hf : ∀ p q : UInt16, p.toNat < 2 ^ 13 → q.toNat < 2 ^ 13 → f p = f q → p = q) :
    (devices.map fun td => f td.bdf).Nodup ↔ (devices.map TopologyDevice.bdf).Nodup := by
  have hmap : (devices.map fun td => f td.bdf) = (devices.map TopologyDevice.bdf).map f := by
    rw [List.map_map]
    rfl
  rw [hmap]
  refine ⟨List.Nodup.of_map _, fun hnodup => hnodup.map_on fun p hp q hq heq => ?_⟩
  obtain ⟨tdp, htdp, rfl⟩ := List.mem_map.mp hp
  obtain ⟨tdq, htdq, rfl⟩ := List.mem_map.mp hq
  exact hf _ _ (h tdp htdp).bdf (h tdq htdq).bdf heq

/-- Addresses that differ are printed differently. -/
theorem nodup_bdfStrings {devices : List TopologyDevice} (h : ∀ td ∈ devices, DeviceOk td) :
    (bdfStrings devices).Nodup ↔ (devices.map TopologyDevice.bdf).Nodup :=
  nodup_map_bdf h fun _ _ => bdfToStr_inj

/-! ### The document -/

structure TopologyOk (topo : Topology) : Prop where
  version : topo.schemaVersion = kSchemaVersion
  platform : topo.platformName ≠ []
  deviceCount : topo.devices.length ≤ kMaxDevices
  devices : ∀ td ∈ topo.devices, DeviceOk td

theorem loadPlatform_some {j : JsonValue} {platform : ByteString}
    (h : loadPlatform j = some platform) : platform ≠ [] ∧ platform ∈ j.strings := by
  unfold loadPlatform at h
  simp only [Option.bind_eq_bind, Option.bind_eq_some_iff, failIf_eq_some] at h
  obtain ⟨v, hv, platform', hplatform, -, hempty, heq⟩ := h
  cases heq
  rw [List.isEmpty_iff] at hempty
  cases v with
  | string s =>
    cases hplatform
    exact ⟨hempty, JsonValue.strings_of_member hv List.mem_cons_self⟩
  | _ => cases hplatform

theorem loadDeviceList_some {j : JsonValue} {devices : List TopologyDevice}
    (h : loadDeviceList j = some devices) :
    devices.length ≤ kMaxDevices ∧ ∀ td ∈ devices, DeviceOk td := by
  unfold loadDeviceList at h
  simp only [Option.bind_eq_bind, Option.bind_eq_some_iff, failIf_eq_some] at h
  obtain ⟨-, -, elems, -, -, hcount, hdevices⟩ := h
  obtain ⟨hok, hlength⟩ := loadDevices_some hdevices
  rw [Nat.not_lt, ← hlength] at hcount
  exact ⟨hcount, hok⟩

theorem topologyOfJson_some {j : JsonValue} {topo : Topology} (h : topologyOfJson j = some topo) :
    TopologyOk topo ∧ topo.platformName ∈ j.strings := by
  unfold topologyOfJson at h
  simp only [Option.bind_eq_bind, Option.bind_eq_some_iff, failIf_eq_some] at h
  obtain ⟨-, -, -, -, -, -, version, -, -, -, platform, hplatform, pcie, -, mux, -, devices,
    hdevices, heq⟩ := h
  cases heq
  obtain ⟨hempty, hmem⟩ := loadPlatform_some hplatform
  obtain ⟨hcount, hok⟩ := loadDeviceList_some hdevices
  exact ⟨⟨rfl, hempty, hcount, hok⟩, hmem⟩

/-- The part under `pcie` of a printed document. -/
def pcieJson (topo : Topology) : JsonValue :=
  .object
    [("bypass_mux", .object
        [("default_drain_policy", .string (policyString topo.defaultDrainPolicy)),
          ("default_mode", .string (modeString topo.defaultBypassMode))]),
      ("link_layer", layerJson "PcieLinkLayer" topo.enableLinkLayer),
      ("phy", layerJson "PciePhyDigitalCtrl" topo.enablePhy),
      ("root_complex", layerJson "PcieRootComplexMock" topo.enableRootComplex)]

/-- The parts of a printed document as they come back. -/
theorem topologyJson_reparsed (topo : Topology) :
    (topologyJson topo).reparsed = .object
      [("devices", .array (topo.devices.map fun td => (deviceJson td).reparsed)),
        ("pcie", pcieJson topo), ("platform", .string topo.platformName),
        ("schema_version", .unsigned 1)] := by
  simp only [topologyJson, layerJson, JsonValue.reparsed, JsonValue.reparsedMembers,
    JsonValue.reparsedElems_eq_map, List.map_map]
  rfl

theorem loadPlatform_json {topo : Topology} (h : topo.platformName ≠ []) :
    loadPlatform (topologyJson topo).reparsed = some topo.platformName := by
  rw [topologyJson_reparsed]
  unfold loadPlatform
  simp only [Option.bind_eq_bind, Option.bind_eq_some_iff]
  refine ⟨_, rfl, _, rfl, (), failIf_of_not ?_, rfl⟩
  rw [List.isEmpty_iff]
  exact h

theorem loadDeviceList_json (topo : Topology) (h : topo.devices.length ≤ kMaxDevices) :
    loadDeviceList (topologyJson topo).reparsed =
      loadDevices [] (topo.devices.map fun td => (deviceJson td).reparsed) := by
  have hcount : ¬kMaxDevices <
      (topo.devices.map fun td => (deviceJson td).reparsed).length := by
    rw [List.length_map]
    exact Nat.not_lt.mpr h
  have hsteps : loadDeviceList (topologyJson topo).reparsed =
      (failIf (kMaxDevices < (topo.devices.map fun td => (deviceJson td).reparsed).length)).bind
        fun _ => loadDevices [] (topo.devices.map fun td => (deviceJson td).reparsed) := by
    rw [topologyJson_reparsed]
    rfl
  rw [hsteps, failIf_of_not hcount, Option.bind_some]

theorem loadPcie_json (topo : Topology) :
    loadPcie (topologyJson topo).reparsed = some (pcieJson topo, topo.enableRootComplex) := by
  rw [topologyJson_reparsed]
  rfl

theorem loadBypassMux_json (topo : Topology) :
    loadBypassMux (pcieJson topo) = some (topo.defaultBypassMode, topo.defaultDrainPolicy) := by
  unfold pcieJson
  cases topo.defaultBypassMode <;> cases topo.defaultDrainPolicy <;> rfl

/-- What the loader makes of a printed document depends on its devices only. -/
theorem topologyOfJson_json {topo : Topology} (h : TopologyOk topo) :
    topologyOfJson (topologyJson topo).reparsed =
      (loadDevices [] (topo.devices.map fun td => (deviceJson td).reparsed)).map
        fun devices => { topo with devices := devices } := by
  have hmembers : ∃ members, (topologyJson topo).reparsed.asObject = some members ∧
      JsonValue.keysIn kAllowedTopKeys members = true := by
    rw [topologyJson_reparsed]
    exact ⟨_, rfl, rfl⟩
  have hversion : ((topologyJson topo).reparsed.member "schema_version").bind
      JsonValue.asInteger = some 1 := by
    rw [topologyJson_reparsed]
    rfl
  obtain ⟨members, hmembers, hkeys⟩ := hmembers
  obtain ⟨v, hv, hone⟩ := Option.bind_eq_some_iff.mp hversion
  unfold topologyOfJson
  simp only [Option.bind_eq_bind, hmembers, hv, hone, loadPlatform_json h.platform,
    loadPcie_json, loadBypassMux_json, loadDeviceList_json topo h.deviceCount, Option.bind_some,
    failIf_of_not (not_not.mpr hkeys)]
  have hone : failIf (UInt64.toUInt32 1 ≠ kSchemaVersion) = some () := rfl
  rw [hone, Option.bind_some, Option.map_eq_bind, h.version]
  rfl

/-! ### Strings that text can hold -/

theorem utf8_bdfToStr (p : UInt16) : utf8 (bdfToStr p) = true := by
  apply utf8_of_ascii
  intro b hb
  simp only [bdfToStr, List.mem_append, List.mem_cons, List.not_mem_nil, or_false] at hb
  rcases hb with (((hb | rfl | hb) | rfl | hb) | rfl | rfl)
  · exact (hexField_ascii (.inl rfl) hb).1
  · decide
  · exact (hexField_ascii (.inl rfl) hb).1
  · decide
  · exact (hexField_ascii (.inl rfl) hb).1
  · decide
  · decide

/-- `0x` and the digits of a number. -/
theorem utf8_hex (width n : ℕ) : utf8 (0x30 :: 0x78 :: hexField upperAlpha width n) = true := by
  apply utf8_of_ascii
  intro b hb
  rcases List.mem_cons.mp hb with rfl | hb
  · decide
  rcases List.mem_cons.mp hb with rfl | hb
  · decide
  · exact (hexField_ascii (.inr rfl) hb).1

theorem deviceJson_utf8 (td : TopologyDevice) :
    (deviceJson td).Utf8 ↔ utf8 td.endpointKind = true := by
  have hbars : JsonValue.stringsOfElems (td.bars.map barJson) = [] := by
    rw [List.eq_nil_iff_forall_not_mem]
    intro s hs
    obtain ⟨j, hj, hs⟩ := JsonValue.mem_stringsOfElems.mp hs
    obtain ⟨bar, -, rfl⟩ := List.mem_map.mp hj
    cases hs
  simp only [JsonValue.Utf8, deviceJson, JsonValue.strings, JsonValue.stringsOfMembers, hbars,
    List.nil_append, List.append_nil, List.cons_append, List.forall_mem_cons, utf8_bdfToStr,
    hexU16, hexU32, utf8_hex, true_and, List.not_mem_nil, false_implies, implies_true, and_true]

theorem utf8_modeString (mode : BypassMode) : utf8 (modeString mode) = true := by
  cases mode <;> decide

theorem utf8_policyString (policy : DrainPolicy) : utf8 (policyString policy) = true := by
  cases policy <;> decide

theorem topologyJson_utf8 (topo : Topology) :
    (topologyJson topo).Utf8 ↔
      utf8 topo.platformName = true ∧ ∀ td ∈ topo.devices, utf8 td.endpointKind = true := by
  have hdevices : (∀ s ∈ JsonValue.stringsOfElems (topo.devices.map deviceJson), utf8 s = true) ↔
      ∀ td ∈ topo.devices, utf8 td.endpointKind = true := by
    simp only [← deviceJson_utf8]
    constructor
    · intro h td htd s hs
      exact h s (JsonValue.mem_stringsOfElems.mpr ⟨_, List.mem_map_of_mem htd, hs⟩)
    · intro h s hs
      obtain ⟨j, hj, hs⟩ := JsonValue.mem_stringsOfElems.mp hs
      obtain ⟨td, htd, rfl⟩ := List.mem_map.mp hj
      exact h td htd s hs
  have hlayers : utf8 (ascii "PcieLinkLayer") = true ∧
      utf8 (ascii "PciePhyDigitalCtrl") = true ∧
        utf8 (ascii "PcieRootComplexMock") = true := by
    decide
  simp only [JsonValue.Utf8, topologyJson, layerJson, JsonValue.strings, JsonValue.stringsOfMembers,
    List.nil_append, List.append_nil, List.cons_append, List.forall_mem_append,
    List.forall_mem_cons, hdevices, utf8_modeString, utf8_policyString, hlayers, true_and,
    List.not_mem_nil, false_implies, implies_true, and_true]
  exact and_comm

/-! ### The law -/

/-- The loader produces the topology from some document. -/
def Loaded {Text : Type} (parse : Text → ParseOutcome) (topo : Topology) : Prop :=
  ∃ path text out, topologyLoadJson parse path (some text) out = (.returned 0, topo)

/-- What is written to a file that can be opened loads as the same topology. -/
def RoundTrips {Text : Type} (parse : Text → ParseOutcome) (dump : JsonValue → Option Text)
    (topo : Topology) : Prop :=
  ∀ path, path.isEmpty = false → ∃ text,
    topologyWriteDefaultJson dump path true topo = (.returned 0, some text) ∧
      ∀ out, topologyLoadJson parse path (some text) out = (.returned 0, topo)

/-- The packed addresses differ, and each kind that is stored is not empty and well formed. -/
structure Printable (topo : Topology) : Prop where
  addresses : (topo.devices.map TopologyDevice.bdf).Nodup
  kinds : ∀ td ∈ topo.devices, td.endpointKind ≠ []
  text : ∀ td ∈ topo.devices, utf8 td.endpointKind = true

/-- A load that succeeds has read a document. -/
theorem topologyLoadJson_zero {Text : Type} {parse : Text → ParseOutcome} {path : String}
    {text : Text} {out topo : Topology}
    (h : topologyLoadJson parse path (some text) out = (.returned 0, topo)) :
    ∃ j, parse text = .value j ∧ topologyOfJson j = some topo := by
  unfold topologyLoadJson at h
  split_ifs at h with hempty
  · cases h
  cases hparse : parse text with
  | parseError =>
    simp only [hparse] at h
    cases h
  | otherError =>
    simp only [hparse] at h
    cases h
  | value j =>
    refine ⟨j, rfl, ?_⟩
    simp only [hparse] at h
    cases htopo : topologyOfJson j with
    | none =>
      simp only [htopo] at h
      cases h
    | some result =>
      simp only [htopo] at h
      cases h
      rfl

theorem topologyLoadJson_of_json {Text : Type} {parse : Text → ParseOutcome} {path : String}
    {text : Text} {j : JsonValue} {topo : Topology} (hpath : path.isEmpty = false)
    (hparse : parse text = .value j) (htopo : topologyOfJson j = some topo) (out : Topology) :
    topologyLoadJson parse path (some text) out = (.returned 0, topo) := by
  simp only [topologyLoadJson, hpath, hparse, htopo, Bool.false_eq_true, if_false]

theorem Loaded.ok {Text : Type} {parse : Text → ParseOutcome} {topo : Topology}
    (h : Loaded parse topo) (hutf8 : ∀ text j, parse text = .value j → j.Utf8) :
    TopologyOk topo ∧ utf8 topo.platformName = true := by
  obtain ⟨path, text, out, hload⟩ := h
  obtain ⟨j, hparse, htopo⟩ := topologyLoadJson_zero hload
  obtain ⟨hok, hmem⟩ := topologyOfJson_some htopo
  exact ⟨hok, hutf8 text j hparse _ hmem⟩

theorem dump_of_write {Text : Type} {dump : JsonValue → Option Text} {path : String}
    {text : Text} {topo : Topology}
    (h : topologyWriteDefaultJson dump path true topo = (.returned 0, some text)) :
    dump (topologyJson topo) = some text := by
  unfold topologyWriteDefaultJson at h
  split_ifs at h with hempty hopens
  · cases h
  · cases h
  · cases hdump : dump (topologyJson topo) with
    | none =>
      simp only [hdump] at h
      cases h
    | some text' =>
      simp only [hdump] at h
      cases h
      rfl

theorem topologyOfJson_json_iff {topo : Topology} (h : TopologyOk topo) :
    topologyOfJson (topologyJson topo).reparsed = some topo ↔
      (topo.devices.map TopologyDevice.bdf).Nodup ∧ ∀ td ∈ topo.devices, td.endpointKind ≠ [] := by
  rw [topologyOfJson_json h, ← nodup_bdfStrings h.devices]
  constructor
  · intro hload
    obtain ⟨devices, hdevices, -⟩ := Option.map_eq_some_iff.mp hload
    obtain ⟨hnodup, -, hkinds⟩ := loadDevices_json_some hdevices
    exact ⟨hnodup, hkinds⟩
  · rintro ⟨hnodup, hkinds⟩
    rw [loadDevices_json h.devices hnodup (fun s _ => List.not_mem_nil) hkinds]
    rfl

/-- **Topology round trip.**  A loaded topology that is written loads as itself exactly if it is
printable. -/
theorem topology_round_trip_iff {Text : Type} (parse : Text → ParseOutcome)
    (dump : JsonValue → Option Text) (topo : Topology) (hloaded : Loaded parse topo)
    (hutf8 : ∀ text j, parse text = .value j → j.Utf8)
    (hdump : (dump (topologyJson topo)).isSome ↔ (topologyJson topo).Utf8)
    (hparse : ∀ text, dump (topologyJson topo) = some text →
      parse text = .value (topologyJson topo).reparsed) :
    RoundTrips parse dump topo ↔ Printable topo := by
  obtain ⟨hok, hplatform⟩ := hloaded.ok hutf8
  have htext : (topologyJson topo).Utf8 ↔ ∀ td ∈ topo.devices, utf8 td.endpointKind = true := by
    rw [topologyJson_utf8, and_iff_right hplatform]
  constructor
  · intro h
    obtain ⟨text, hwrite, hload⟩ := h "topology.json" rfl
    have hsome : dump (topologyJson topo) = some text := dump_of_write hwrite
    obtain ⟨j, hvalue, hback⟩ := topologyLoadJson_zero (hload topo)
    rw [hparse text hsome] at hvalue
    cases hvalue
    obtain ⟨haddresses, hkinds⟩ := (topologyOfJson_json_iff hok).mp hback
    refine ⟨haddresses, hkinds, htext.mp (hdump.mp ?_)⟩
    rw [hsome]
    rfl
  · rintro ⟨haddresses, hkinds, hchars⟩ path hpath
    obtain ⟨text, hsome⟩ := Option.isSome_iff_exists.mp (hdump.mpr (htext.mpr hchars))
    have hback := (topologyOfJson_json_iff hok).mpr ⟨haddresses, hkinds⟩
    refine ⟨text, ?_, topologyLoadJson_of_json hpath (hparse text hsome) hback⟩
    simp only [topologyWriteDefaultJson, hpath, hsome, Bool.not_true, Bool.false_eq_true, if_false]

/-! ### Documents with two devices -/

/-- A device and its document. -/
def gpu : TopologyDevice :=
  ⟨0x0008, 0x10DE, 0x1234, 0x00030000, ascii "gpu", []⟩

def gpuText (bdf : String) : String :=
  "    \x7b
      \"bars\": [],
      \"bdf\": \"" ++ bdf ++ "\",
      \"class_code\": \"0x00030000\",
      \"device_id\": \"0x1234\",
      \"endpoint_kind\": \"gpu\",
      \"vendor_id\": \"0x10DE\"
    \x7d"

def gpuJson (bdf : String) : JsonValue :=
  .object [("bars", .array []), ("bdf", .string (ascii bdf)),
    ("class_code", .string (ascii "0x00030000")), ("device_id", .string (ascii "0x1234")),
    ("endpoint_kind", .string (ascii "gpu")), ("vendor_id", .string (ascii "0x10DE"))]

def platform (devices : List TopologyDevice) : Topology :=
  ⟨kSchemaVersion, ascii "usr_linux_emu", true, true, false, .kFull, .kGracefulDrain, devices⟩

def platformText (devices : List String) : String :=
  "\x7b
  \"devices\": [
" ++ String.intercalate ",\n" devices ++ "
  ],
  \"pcie\": \x7b
    \"bypass_mux\": \x7b
      \"default_drain_policy\": \"GracefulDrain\",
      \"default_mode\": \"Full\"
    \x7d,
    \"link_layer\": \x7b
      \"enabled\": true,
      \"type\": \"PcieLinkLayer\"
    \x7d,
    \"phy\": \x7b
      \"enabled\": false,
      \"type\": \"PciePhyDigitalCtrl\"
    \x7d,
    \"root_complex\": \x7b
      \"enabled\": true,
      \"type\": \"PcieRootComplexMock\"
    \x7d
  \x7d,
  \"platform\": \"usr_linux_emu\",
  \"schema_version\": 1
\x7d"

def platformJson (devices : List JsonValue) : JsonValue :=
  .object [("devices", .array devices), ("pcie", pcieJson (platform [])),
    ("platform", .string (ascii "usr_linux_emu")), ("schema_version", .unsigned 1)]

/-- The library on one document. -/
def parseOnly (document : String) (j : JsonValue) (text : String) : ParseOutcome :=
  if text = document then .value j else .parseError

theorem parseOnly_self (document : String) (j : JsonValue) :
    parseOnly document j document = .value j := by
  rw [parseOnly, if_pos rfl]

theorem parseOnly_utf8 {document : String} {j : JsonValue} (hj : j.Utf8) (text : String)
    (j' : JsonValue) (h : parseOnly document j text = .value j') : j'.Utf8 := by
  unfold parseOnly at h
  split_ifs at h
  cases h
  exact hj

theorem platform_ok {devices : List TopologyDevice} (hcount : devices.length ≤ kMaxDevices)
    (h : ∀ td ∈ devices, td = gpu) : TopologyOk (platform devices) := by
  refine ⟨rfl, List.cons_ne_nil _ _, hcount, fun td htd => ?_⟩
  rw [h td htd]
  exact ⟨by decide, by decide, by decide, by decide, trivial⟩

/-- A device with a register BAR and a wide memory BAR, and its document. -/
def accel (bdf : UInt16) : TopologyDevice :=
  ⟨bdf, 0x10DE, 0x1234, 0x00030000, ascii "gpu",
    [⟨0, 0x1000000, false, true, false⟩, ⟨2, 0x10000000, true, true, true⟩]⟩

def accelText (bdf : String) : String :=
  "    \x7b
      \"bars\": [
        \x7b
          \"index\": 0,
          \"is_64bit\": false,
          \"is_mmio\": true,
          \"prefetchable\": false,
          \"size_bytes\": 16777216
        \x7d,
        \x7b
          \"index\": 2,
          \"is_64bit\": true,
          \"is_mmio\": true,
          \"prefetchable\": true,
          \"size_bytes\": 268435456
        \x7d
      ],
      \"bdf\": \"" ++ bdf ++ "\",
      \"class_code\": \"0x00030000\",
      \"device_id\": \"0x1234\",
      \"endpoint_kind\": \"gpu\",
      \"vendor_id\": \"0x10DE\"
    \x7d"

def accelJson (bdf : String) : JsonValue :=
  .object [("bars", .array
      [.object [("index", .unsigned 0), ("is_64bit", .boolean false), ("is_mmio", .boolean true),
          ("prefetchable", .boolean false), ("size_bytes", .unsigned 0x1000000)],
        .object [("index", .unsigned 2), ("is_64bit", .boolean true), ("is_mmio", .boolean true),
          ("prefetchable", .boolean true), ("size_bytes", .unsigned 0x10000000)]]),
    ("bdf", .string (ascii bdf)), ("class_code", .string (ascii "0x00030000")),
    ("device_id", .string (ascii "0x1234")), ("endpoint_kind", .string (ascii "gpu")),
    ("vendor_id", .string (ascii "0x10DE"))]

theorem topology_round_trip_two :
    RoundTrips (parseOnly (platformText [accelText "0000:01:00.0", accelText "0000:02:00.0"])
        (platformJson [accelJson "0000:01:00.0", accelJson "0000:02:00.0"]))
      (fun _ => some (platformText [accelText "0000:01:00.0", accelText "0000:02:00.0"]))
      (platform [accel 0x0008, accel 0x0010]) := by
  have hback : (topologyJson (platform [accel 0x0008, accel 0x0010])).reparsed =
      platformJson [accelJson "0000:01:00.0", accelJson "0000:02:00.0"] := rfl
  have hload : topologyOfJson (platformJson [accelJson "0000:01:00.0", accelJson "0000:02:00.0"]) =
      some (platform [accel 0x0008, accel 0x0010]) := rfl
  have hutf8 : (platformJson [accelJson "0000:01:00.0", accelJson "0000:02:00.0"]).Utf8 := by
    unfold JsonValue.Utf8
    decide +kernel
  have hprinted : (topologyJson (platform [accel 0x0008, accel 0x0010])).Utf8 := by
    unfold JsonValue.Utf8
    decide +kernel
  refine (topology_round_trip_iff _ _ (platform [accel 0x0008, accel 0x0010])
    ⟨"topology.json", _, platform [], topologyLoadJson_of_json rfl (parseOnly_self _ _) hload _⟩
    (parseOnly_utf8 hutf8) (iff_of_true rfl hprinted) ?_).mpr ⟨?_, ?_, ?_⟩
  · intro text htext
    cases htext
    rw [hback, parseOnly_self]
  · decide
  · decide
  · decide
/-- The library on the two functions' document and on the one that is written for them. -/
def functionsParse (text : String) : ParseOutcome :=
  if text = platformText [gpuText "0000:01:00.0", gpuText "0000:01:00.0"] then
    .value (platformJson [gpuJson "0000:01:00.0", gpuJson "0000:01:00.0"])
  else
    parseOnly (platformText [gpuText "0000:01:00.0", gpuText "0000:01:00.1"])
      (platformJson [gpuJson "0000:01:00.0", gpuJson "0000:01:00.1"]) text

/-- **Functions that are not told apart.**  Two functions of one device load, and what is written
for them does not: the last byte of an address is not packed, and the addresses coincide. -/
theorem topology_round_trip_fails :
    Loaded functionsParse (platform [gpu, gpu]) ∧
      ¬RoundTrips functionsParse
        (fun _ => some (platformText [gpuText "0000:01:00.0", gpuText "0000:01:00.0"]))
        (platform [gpu, gpu]) := by
  constructor
  · have hload : topologyOfJson (platformJson [gpuJson "0000:01:00.0", gpuJson "0000:01:00.1"]) =
        some (platform [gpu, gpu]) := by
      rfl
    have hne : platformText [gpuText "0000:01:00.0", gpuText "0000:01:00.1"] ≠
        platformText [gpuText "0000:01:00.0", gpuText "0000:01:00.0"] := by
      decide +kernel
    have hparse : functionsParse (platformText [gpuText "0000:01:00.0", gpuText "0000:01:00.1"]) =
        .value (platformJson [gpuJson "0000:01:00.0", gpuJson "0000:01:00.1"]) := by
      rw [functionsParse, if_neg hne, parseOnly_self]
    exact ⟨"topology.json", _, platform [], topologyLoadJson_of_json rfl hparse hload _⟩
  · intro h
    obtain ⟨text, hwrite, hload⟩ := h "topology.json" rfl
    obtain ⟨j, hparse, htopo⟩ := topologyLoadJson_zero (hload (platform []))
    cases dump_of_write hwrite
    rw [functionsParse, if_pos rfl] at hparse
    cases hparse
    have hback : platformJson [gpuJson "0000:01:00.0", gpuJson "0000:01:00.0"] =
        (topologyJson (platform [gpu, gpu])).reparsed := rfl
    rw [hback, topologyOfJson_json_iff (platform_ok (by decide) (by decide))] at htopo
    exact absurd htopo.1 (by decide)

end UsrLinuxEmu.SimHardware
