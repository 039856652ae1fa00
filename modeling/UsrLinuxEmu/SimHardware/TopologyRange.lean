import UsrLinuxEmu.SimHardware.TopologyRoundTrip
import Mathlib.Data.List.Forall2

/-!
# Documents that the topology loader accepts (`sim_hardware/src/topology.cpp`)

A document that is accepted is checked after its numbers have been cut to the types that hold them,
and its addresses are told apart as strings.

* `written`, `spelledAt`, `elemsAt` — what a document says;
* `InRange` — the topology has the numbers that the document says, in different places;
* `PlainDocument` — the document's numbers fit, and its addresses differ in what is read of them;
* `topology_load_iff` — an accepted document is in range exactly when it is plain.
-/

namespace UsrLinuxEmu.SimHardware

open UsrLinuxEmu.CText UsrLinuxEmu.Json

/-! ### What a document says -/

/-- The number that an integer of the document is written as. -/
def written : JsonValue → Option ℤ
  | .integer n => some n.toInt
  | .unsigned n => some n.toNat
  | _ => none

def textAt (j : JsonValue) (key : String) : Option ByteString :=
  (j.member key).bind JsonValue.asString

def writtenAt (j : JsonValue) (key : String) : Option ℤ := (j.member key).bind written

/-- The number that a string of the document spells. -/
def spelledAt (j : JsonValue) (key : String) : Option ℤ := (textAt j key).bind numeral

def elemsAt (j : JsonValue) (key : String) : List JsonValue :=
  ((j.member key).bind JsonValue.asArray).getD []

/-! ### Numbers -/

/-- The number that a conversion finds has the low 64 bits of the one that is written. -/
theorem written_of_asInteger {v : JsonValue} {bits : UInt64} (h : v.asInteger = some bits) :
    ∃ i, written v = some i ∧ (bits.toNat : ℤ) = i % 2 ^ 64 := by
  cases v with
  | integer n =>
    cases h
    refine ⟨n.toInt, rfl, ?_⟩
    have hmod : n.toInt = Int.bmod n.toUInt64.toNat (2 ^ 64) := BitVec.toInt_eq_toNat_bmod _
    have hlt := n.toUInt64.toNat_lt
    rw [hmod, Int.bmod_def]
    omega
  | unsigned n =>
    cases h
    refine ⟨_, rfl, ?_⟩
    have hlt := bits.toNat_lt
    omega
  | _ => cases h

/-- The version is cut to 32 bits. -/
theorem version_iff {v : JsonValue} {bits : UInt64} (h : v.asInteger = some bits)
    (hone : bits.toUInt32 = kSchemaVersion) :
    written v = some 1 ↔ ∃ i, written v = some i ∧ 0 ≤ i ∧ i < 2 ^ 32 := by
  obtain ⟨i, hi, hbits⟩ := written_of_asInteger h
  have hlow : bits.toNat % 2 ^ 32 = 1 := by
    rw [← UInt64.toNat_toUInt32, hone]
    rfl
  simp only [hi, Option.some.injEq, exists_eq_left']
  omega

/-- An index is cut to the 32 bits of an `int`. -/
theorem index_iff {v : JsonValue} {bits : UInt64} (h : v.asInteger = some bits)
    (hidx : ¬(getInt bits < 0 ∨ 5 < getInt bits)) :
    written v = some ((UInt8.ofNat (getInt bits).toNat).toNat : ℤ) ↔
      ∃ i, written v = some i ∧ -2 ^ 31 ≤ i ∧ i < 2 ^ 31 := by
  obtain ⟨i, hi, hbits⟩ := written_of_asInteger h
  have hint : getInt bits = Int.bmod (bits.toNat % 2 ^ 32 : ℕ) (2 ^ 32) := by
    rw [← UInt64.toNat_toUInt32]
    exact BitVec.toInt_eq_toNat_bmod _
  have hback : ((UInt8.ofNat (getInt bits).toNat).toNat : ℤ) = getInt bits := by
    have hlt : (getInt bits).toNat < 2 ^ 8 := by omega
    rw [UInt8.toNat_ofNat_of_lt' hlt]
    omega
  rw [Int.bmod_def] at hint
  simp only [hi, Option.some.injEq, exists_eq_left', hback]
  omega

theorem parseHex_of_numeral {s : ByteString} {n : ℕ} (h : numeral s = some (n : ℤ))
    (hword : n < 2 ^ 64) : parseHex s = some (UInt64.ofNat n) := by
  have hne : s.isEmpty = false := by
    cases s with
    | nil => cases h
    | cons b rest => rfl
  rw [parseHex, if_neg (by rw [hne]; exact Bool.false_ne_true), cstr_of_numeral h]
  by_cases hprefix : 2 < s.length ∧ hasHexPrefix s = true
  · obtain ⟨b, x, c, digits, rfl⟩ : ∃ b x c digits, s = b :: x :: c :: digits := by
      rcases s with _ | ⟨b, _ | ⟨x, _ | ⟨c, digits⟩⟩⟩
      · simp at hprefix
      · simp at hprefix
      · simp at hprefix
      · exact ⟨b, x, c, digits, rfl⟩
    have hparts : b = 0x30 ∧ (x = 0x78 ∨ x = 0x58) := by
      simpa [hasHexPrefix] using hprefix.2
    obtain ⟨rfl, hx⟩ := hparts
    simp only [if_pos hprefix, List.drop_succ_cons, List.drop_zero,
      strtoul_of_hex_numeral hx h hword]
    rfl
  · simp only [if_neg hprefix, strtoul_of_numeral h hword]
    rfl

theorem parseHexU16_iff {s : ByteString} {v : UInt16} (h : parseHexU16 s = some v) :
    numeral s = some (v.toNat : ℤ) ↔ ∃ n : ℕ, numeral s = some (n : ℤ) ∧ n < 2 ^ 16 := by
  constructor
  · exact fun hv => ⟨v.toNat, hv, v.toNat_lt⟩
  · rintro ⟨n, hn, hlt⟩
    rw [parseHexU16, parseHex_of_numeral hn (by omega), Option.bind_some] at h
    split_ifs at h
    cases h
    rw [hn, UInt64.toNat_toUInt16, UInt64.toNat_ofNat_of_lt' (Nat.lt_trans hlt (by decide)),
      Nat.mod_eq_of_lt hlt]

theorem parseHexU32_iff {s : ByteString} {v : UInt32} (h : parseHexU32 s = some v) :
    numeral s = some (v.toNat : ℤ) ↔ ∃ n : ℕ, numeral s = some (n : ℤ) ∧ n < 2 ^ 32 := by
  constructor
  · exact fun hv => ⟨v.toNat, hv, v.toNat_lt⟩
  · rintro ⟨n, hn, hlt⟩
    rw [parseHexU32, parseHex_of_numeral hn (by omega), Option.map_some] at h
    cases h
    rw [hn, UInt64.toNat_toUInt32, UInt64.toNat_ofNat_of_lt' (Nat.lt_trans hlt (by decide)),
      Nat.mod_eq_of_lt hlt]

/-! ### Addresses -/

/-- A hexadecimal letter in lower case. -/
def lowerHex (c : UInt8) : UInt8 := if 0x41 ≤ c ∧ c ≤ 0x46 then c + 0x20 else c

/-- What the loader reads of an address, in lower case. -/
def bdfKey (s : ByteString) : ByteString := (s.take 11).map lowerHex

theorem hexStep_zero_add (v : ℕ) (c : UInt8) :
    hexStep v c = (hexStep 0 c).map fun d => v * 16 + d := by
  unfold hexStep
  split_ifs
  · simp only [Nat.zero_mul, Nat.zero_add, Option.map_some]
  · simp only [Nat.zero_mul, Nat.zero_add, Option.map_some]
  · simp only [Nat.zero_mul, Nat.zero_add, Option.map_some]
  · rfl

/-- A digit that is read is the one that is printed, but for its case. -/
theorem hexStep_some {v v' : ℕ} {c : UInt8} (h : hexStep v c = some v') :
    ∃ d < 16, v' = v * 16 + d ∧ lowerHex c = hexDigit lowerAlpha d := by
  have hdigits := forall_byte (p := fun c => ∀ d ∈ hexStep 0 c,
    d < 16 ∧ lowerHex c = hexDigit lowerAlpha d) (by decide +kernel)
  rw [hexStep_zero_add] at h
  obtain ⟨d, hd, rfl⟩ := Option.map_eq_some_iff.mp h
  obtain ⟨hlt, hlower⟩ := hdigits c d hd
  exact ⟨d, hlt, rfl, hlower⟩

theorem foldlM_hexStep_some {s : ByteString} {v n : ℕ} (h : s.foldlM hexStep v = some n) :
    s.map lowerHex = hexField lowerAlpha s.length n ∧ n / 16 ^ s.length = v := by
  induction s generalizing v with
  | nil =>
    cases h
    exact ⟨rfl, Nat.div_one _⟩
  | cons c s ih =>
    rw [List.foldlM_cons] at h
    obtain ⟨v', hstep, hrest⟩ := Option.bind_eq_some_iff.mp h
    obtain ⟨d, hlt, rfl, hlower⟩ := hexStep_some hstep
    obtain ⟨hfield, hquot⟩ := ih hrest
    rw [List.map_cons, List.length_cons, hexField, hquot, hfield, hlower]
    have hdigit : (v * 16 + d) % 16 = d := by omega
    refine ⟨by rw [hdigit], ?_⟩
    rw [pow_succ, ← Nat.div_div_eq_div_mul, hquot]
    omega

/-- What is read as a number is the number's field, but for the case of its letters. -/
theorem map_lowerHex_of_hexByte {s : ByteString} {n : ℕ} (h : hexByte s = some n) :
    s.map lowerHex = hexField lowerAlpha s.length n :=
  (foldlM_hexStep_some h).1

/-- The bus, the device and the function that an address names. -/
def Names (s : ByteString) (bus device func : ℕ) : Prop :=
  hexByte (s.take 4) = some bus ∧ hexByte ((s.drop 5).take 2) = some device ∧
    hexByte ((s.drop 8).take 2) = some func

theorem bdf_or_eq_add {bus device func : ℕ} (hdevice : device ≤ 0x1F) (hfunc : func ≤ 0x07) :
    bus <<< 8 ||| device <<< 3 ||| func = bus * 2 ^ 8 + device * 2 ^ 3 + func := by
  have hlow : device <<< 3 + func < 2 ^ 8 := by
    rw [Nat.shiftLeft_eq]
    omega
  have hfuncLt : func < 2 ^ 3 := Nat.lt_succ_of_le hfunc
  rw [Nat.or_assoc, ← Nat.shiftLeft_add_eq_or_of_lt hfuncLt,
    ← Nat.shiftLeft_add_eq_or_of_lt hlow, Nat.shiftLeft_eq, Nat.shiftLeft_eq, Nat.add_assoc]

/-- What the loader checks of an address. -/
def BdfOk (s : ByteString) : Prop :=
  s.length = kBdfStrLen ∧ (packBdf s = 0 → s = ascii "0000:00:00.0")

/-- The parts of an address that has been packed. -/
structure Packed (s : ByteString) (bus device func : ℕ) : Prop where
  names : Names s bus device func
  marks : s[4]? = some 0x3A ∧ s[7]? = some 0x3A ∧ s[10]? = some 0x2E
  busRange : bus ≤ 0x1F
  deviceRange : device ≤ 0x1F
  funcRange : func ≤ 0x07
  value : (packBdf s).toNat = bus * 2 ^ 8 + device * 2 ^ 3 + func

/-- An address that the loader accepts has been packed. -/
theorem packed_of_bdfOk {s : ByteString} (h : BdfOk s) :
    ∃ bus device func, Packed s bus device func := by
  obtain ⟨hlength, hzero⟩ := h
  by_cases hdefault : s = ascii "0000:00:00.0"
  · rw [hdefault]
    exact ⟨0, 0, 0, ⟨rfl, rfl, rfl⟩, ⟨rfl, rfl, rfl⟩, by decide, by decide, by decide, rfl⟩
  have hne : packBdf s ≠ 0 := fun hz => hdefault (hzero hz)
  have hvalue : packBdf s = packBdf s := rfl
  nth_rewrite 2 [packBdf] at hvalue
  rw [if_neg (not_not.mpr hlength)] at hvalue
  split_ifs at hvalue with hmarks
  · exact absurd hvalue hne
  split at hvalue
  · rename_i bus device func hbus hdevice hfunc
    split_ifs at hvalue with hrange
    · exact absurd hvalue hne
    simp only [not_or, not_not, Nat.not_lt] at hmarks hrange
    obtain ⟨hbusRange, hdeviceRange, hfuncRange⟩ := hrange
    refine ⟨bus, device, func, ⟨hbus, hdevice, hfunc⟩, hmarks, hbusRange, hdeviceRange, hfuncRange,
      ?_⟩
    have hlt := bdf_lt hbusRange hdeviceRange hfuncRange
    rw [hvalue, UInt16.toNat_ofNat_of_lt' (Nat.lt_trans hlt (by decide)),
      bdf_or_eq_add hdeviceRange hfuncRange]
  · exact absurd hvalue hne

/-- What is read of an address and its packed form determine each other. -/
theorem bdfKey_eq {s : ByteString} (h : BdfOk s) : bdfKey s = (bdfToStr (packBdf s)).take 11 := by
  obtain ⟨bus, device, func, hp⟩ := packed_of_bdfOk h
  obtain ⟨hbus, hdevice, hfunc⟩ := hp.names
  have hparts : ((packBdf s >>> 8) &&& 0x1F).toNat = bus ∧
      ((packBdf s >>> 3) &&& 0x1F).toNat = device ∧ (packBdf s &&& 0x07).toNat = func := by
    obtain ⟨hb, hd, hf⟩ := bdf_fields (packBdf s).toNat
    have hvalue := hp.value
    have hdeviceRange := hp.deviceRange
    have hbusRange := hp.busRange
    have hfuncRange := hp.funcRange
    refine ⟨hb.trans ?_, hd.trans ?_, hf.trans ?_⟩
    · omega
    · omega
    · omega
  match s, h.1 with
  | [a0, a1, a2, a3, a4, a5, a6, a7, a8, a9, a10, a11], _ =>
    obtain ⟨h4, h7, h10⟩ := hp.marks
    cases h4
    cases h7
    cases h10
    have hbusField : [a0, a1, a2, a3].map lowerHex = hexField lowerAlpha 4 bus :=
      map_lowerHex_of_hexByte hbus
    have hdeviceField : [a5, a6].map lowerHex = hexField lowerAlpha 2 device :=
      map_lowerHex_of_hexByte hdevice
    have hfuncField : [a8, a9].map lowerHex = hexField lowerAlpha 2 func :=
      map_lowerHex_of_hexByte hfunc
    rw [bdfToStr, hparts.1, hparts.2.1, hparts.2.2, ← hbusField, ← hdeviceField, ← hfuncField]
    rfl

theorem bdfToStr_take_inj {p q : UInt16} (hp : p.toNat < 2 ^ 13) (hq : q.toNat < 2 ^ 13)
    (h : (bdfToStr p).take 11 = (bdfToStr q).take 11) : p = q := by
  have hlast (r : UInt16) : bdfToStr r = (bdfToStr r).take 11 ++ [0x30] := rfl
  apply bdfToStr_inj hp hq
  rw [hlast p, hlast q, h]

/-! ### Base address registers -/

/-- The BARs take different slots, none of which is taken already. -/
structure BarsApart (seen : List UInt8) (bars : List TopologyBar) : Prop where
  inside : ∀ b ∈ bars, b.index ≤ 5 ∧ (b.is64bit = true → b.index ≠ 5)
  indices : (bars.map TopologyBar.index).Nodup
  slots : ∀ b ∈ bars, b.is64bit = true → ∀ b' ∈ bars, b'.index ≠ b.index + 1
  fresh : ∀ b ∈ bars, b.index ∉ seen
  wide : ∀ b ∈ bars, b.is64bit = true → b.index + 1 ∉ seen

theorem barsApart_of_barsOk {seen : List UInt8} {bars : List TopologyBar} (h : BarsOk seen bars) :
    BarsApart seen bars := by
  induction bars generalizing seen with
  | nil => exact ⟨by simp, List.nodup_nil, by simp, by simp, by simp⟩
  | cons bar bars ih =>
    obtain ⟨hbar, hrest⟩ := h
    have ihr := ih hrest
    have hkeeps : ∀ i ∉ barSeen seen bar, i ∉ bar.index :: seen := by
      intro i hi hmem
      apply hi
      unfold barSeen
      split_ifs
      · exact List.mem_cons_of_mem _ hmem
      · exact hmem
    have hafter : bar.is64bit = true → ∀ b ∈ bars, b.index ≠ bar.index + 1 := by
      intro hwide b hb heq
      apply ihr.fresh b hb
      rw [barSeen, if_pos hwide, heq]
      exact List.mem_cons_self
    have hslot : bar.is64bit = true → bar.index + 1 ∉ bar.index :: seen :=
      fun hwide hmem => hbar.wide ⟨hwide, .inr hmem⟩
    refine ⟨?_, ?_, ?_, ?_, ?_⟩
    · refine List.forall_mem_cons.mpr ⟨⟨hbar.index, fun hwide hfive => ?_⟩, ihr.inside⟩
      exact hbar.wide ⟨hwide, .inl hfive⟩
    · rw [List.map_cons, List.nodup_cons]
      refine ⟨fun hmem => ?_, ihr.indices⟩
      obtain ⟨b, hb, heq⟩ := List.mem_map.mp hmem
      exact hkeeps _ (ihr.fresh b hb) (heq ▸ List.mem_cons_self)
    · intro b hb hwide b' hb' heq
      rcases List.mem_cons.mp hb with rfl | hin
      · rcases List.mem_cons.mp hb' with rfl | hin'
        · exact hslot hwide (heq ▸ List.mem_cons_self)
        · exact hafter hwide b' hin' heq
      · rcases List.mem_cons.mp hb' with rfl | hin'
        · exact hkeeps _ (ihr.wide b hin hwide) (heq ▸ List.mem_cons_self)
        · exact ihr.slots b hin hwide b' hin' heq
    · refine List.forall_mem_cons.mpr ⟨hbar.fresh, fun b hb hmem => ?_⟩
      exact hkeeps _ (ihr.fresh b hb) (List.mem_cons_of_mem _ hmem)
    · refine List.forall_mem_cons.mpr ⟨fun hwide hmem => ?_, fun b hb hwide hmem => ?_⟩
      · exact hslot hwide (List.mem_cons_of_mem _ hmem)
      · exact hkeeps _ (ihr.wide b hb hwide) (List.mem_cons_of_mem _ hmem)

/-! ### The law -/

/-- The device has the address and the numbers of its document, and its BARs have slots of their
own. -/
structure DeviceInRange (dev : JsonValue) (td : TopologyDevice) : Prop where
  bdf : ∃ s bus device func, textAt dev "bdf" = some s ∧ Names s bus device func ∧
    bus ≤ 0x1F ∧ device ≤ 0x1F ∧ func ≤ 0x07 ∧
      td.bdf.toNat = bus * 2 ^ 8 + device * 2 ^ 3 + func
  vendorId : spelledAt dev "vendor_id" = some (td.vendorId.toNat : ℤ)
  deviceId : spelledAt dev "device_id" = some (td.deviceId.toNat : ℤ)
  classCode : spelledAt dev "class_code" = some (td.classCode.toNat : ℤ)
  indices : List.Forall₂ (fun bar tb => writtenAt bar "index" = some (tb.index.toNat : ℤ))
    (elemsAt dev "bars") td.bars
  distinct : (td.bars.map TopologyBar.index).Nodup
  slots : ∀ b ∈ td.bars, b.is64bit = true → b.index.toNat < 5 ∧
    ∀ b' ∈ td.bars, b'.index.toNat ≠ b.index.toNat + 1

structure InRange (j : JsonValue) (topo : Topology) : Prop where
  version : writtenAt j "schema_version" = some 1
  devices : List.Forall₂ DeviceInRange (elemsAt j "devices") topo.devices
  distinct : (topo.devices.map TopologyDevice.bdf).Nodup

/-- The strings are numerals that fit in the fields, and the indices fit in an `int`. -/
structure PlainDevice (dev : JsonValue) : Prop where
  vendorId : ∃ n : ℕ, spelledAt dev "vendor_id" = some (n : ℤ) ∧ n < 2 ^ 16
  deviceId : ∃ n : ℕ, spelledAt dev "device_id" = some (n : ℤ) ∧ n < 2 ^ 16
  classCode : ∃ n : ℕ, spelledAt dev "class_code" = some (n : ℤ) ∧ n < 2 ^ 32
  indices : ∀ bar ∈ elemsAt dev "bars", ∃ i, writtenAt bar "index" = some i ∧
    -2 ^ 31 ≤ i ∧ i < 2 ^ 31

/-- The version fits in 32 bits, and no two addresses agree but for case and their last byte. -/
structure PlainDocument (j : JsonValue) : Prop where
  version : ∃ i, writtenAt j "schema_version" = some i ∧ 0 ≤ i ∧ i < 2 ^ 32
  devices : ∀ dev ∈ elemsAt j "devices", PlainDevice dev
  addresses : ((elemsAt j "devices").map fun dev => (textAt dev "bdf").map bdfKey).Nodup

/-! ### Accepted documents -/

theorem forall₂_iff_forall {α β : Type} {R : α → β → Prop} {p : α → Prop} {xs : List α}
    {ys : List β} (h : List.Forall₂ (fun x y => R x y ↔ p x) xs ys) :
    List.Forall₂ R xs ys ↔ ∀ x ∈ xs, p x := by
  induction h with
  | nil => exact iff_of_true .nil fun x hx => absurd hx List.not_mem_nil
  | cons hhead _ ih => rw [List.forall₂_cons, List.forall_mem_cons, hhead, ih]

theorem loadBar_index_iff {seen seen' : List UInt8} {bar : JsonValue} {tb : TopologyBar}
    (h : loadBar seen bar = some (tb, seen')) :
    writtenAt bar "index" = some (tb.index.toNat : ℤ) ↔
      ∃ i, writtenAt bar "index" = some i ∧ -2 ^ 31 ≤ i ∧ i < 2 ^ 31 := by
  unfold loadBar at h
  simp only [Option.bind_eq_bind, Option.bind_eq_some_iff, failIf_eq_some] at h
  obtain ⟨-, -, -, -, v, hv, index, hindex, -, hidx, -, -, -, -, size, -, -, -, prefetchable, -,
    isMmio, -, is64bit, -, -, -, hbar⟩ := h
  cases hbar
  rw [writtenAt, hv, Option.bind_some]
  exact index_iff hindex hidx

theorem loadBars_index {seen : List UInt8} {js : List JsonValue} {bars : List TopologyBar}
    (h : loadBars seen js = some bars) :
    List.Forall₂ (fun bar tb => writtenAt bar "index" = some (tb.index.toNat : ℤ) ↔
      ∃ i, writtenAt bar "index" = some i ∧ -2 ^ 31 ≤ i ∧ i < 2 ^ 31) js bars := by
  induction js generalizing seen bars with
  | nil =>
    cases h
    exact .nil
  | cons j js ih =>
    simp only [loadBars, Option.bind_eq_bind, Option.bind_eq_some_iff] at h
    obtain ⟨⟨bar, seen'⟩, hbar, bars', hbars, heq⟩ := h
    cases heq
    exact .cons (loadBar_index_iff hbar) (ih hbars)

/-- The bars that are loaded are those of the document. -/
theorem loadDeviceBars_elems {dev : JsonValue} {bars : List TopologyBar}
    (h : loadDeviceBars dev = some bars) : loadBars [] (elemsAt dev "bars") = some bars := by
  unfold loadDeviceBars at h
  simp only [Option.bind_eq_bind, Option.bind_eq_some_iff, failIf_eq_some] at h
  obtain ⟨v, hv, elems, helems, -, -, hbars⟩ := h
  rw [elemsAt, hv, Option.bind_some, helems]
  exact hbars

theorem loadDeviceList_elems {j : JsonValue} {devices : List TopologyDevice}
    (h : loadDeviceList j = some devices) :
    loadDevices [] (elemsAt j "devices") = some devices := by
  unfold loadDeviceList at h
  simp only [Option.bind_eq_bind, Option.bind_eq_some_iff, failIf_eq_some] at h
  obtain ⟨v, hv, elems, helems, -, -, hdevices⟩ := h
  rw [elemsAt, hv, Option.bind_some, helems]
  exact hdevices

theorem loadHex_some {α : Type} {parse : ByteString → Option α} {dev : JsonValue} {key : String}
    {v : α} (h : loadHex parse dev key = some v) :
    ∃ s, spelledAt dev key = numeral s ∧ parse s = some v := by
  unfold loadHex at h
  simp only [Option.bind_eq_bind, Option.bind_eq_some_iff] at h
  obtain ⟨m, hm, s, hs, hparse⟩ := h
  refine ⟨s, ?_, hparse⟩
  rw [spelledAt, textAt, hm, Option.bind_some, hs, Option.bind_some]

theorem loadHex_u16_iff {dev : JsonValue} {key : String} {v : UInt16}
    (h : loadHex parseHexU16 dev key = some v) :
    spelledAt dev key = some (v.toNat : ℤ) ↔
      ∃ n : ℕ, spelledAt dev key = some (n : ℤ) ∧ n < 2 ^ 16 := by
  obtain ⟨s, hs, hparse⟩ := loadHex_some h
  rw [hs]
  exact parseHexU16_iff hparse

theorem loadHex_u32_iff {dev : JsonValue} {key : String} {v : UInt32}
    (h : loadHex parseHexU32 dev key = some v) :
    spelledAt dev key = some (v.toNat : ℤ) ↔
      ∃ n : ℕ, spelledAt dev key = some (n : ℤ) ∧ n < 2 ^ 32 := by
  obtain ⟨s, hs, hparse⟩ := loadHex_some h
  rw [hs]
  exact parseHexU32_iff hparse

theorem loadBdf_some {seen : List ByteString} {dev : JsonValue} {s : ByteString}
    (h : loadBdf seen dev = some s) : textAt dev "bdf" = some s ∧ BdfOk s := by
  unfold loadBdf at h
  simp only [Option.bind_eq_bind, Option.bind_eq_some_iff, failIf_eq_some] at h
  obtain ⟨v, hv, bdf, hbdf, -, hlength, -, -, -, hzero, heq⟩ := h
  cases heq
  rw [textAt, hv, Option.bind_some, hbdf]
  exact ⟨rfl, not_not.mp hlength, fun hz => not_not.mp fun hne => hzero ⟨hz, hne⟩⟩

/-- In numbers, the slot after a 64-bit BAR exists and no BAR starts there. -/
theorem BarsApart.slots_toNat {seen : List UInt8} {bars : List TopologyBar}
    (h : BarsApart seen bars) : ∀ b ∈ bars, b.is64bit = true → b.index.toNat < 5 ∧
      ∀ b' ∈ bars, b'.index.toNat ≠ b.index.toNat + 1 := by
  intro b hb hwide
  obtain ⟨hle, hne⟩ := h.inside b hb
  have hlt : b.index.toNat < 5 := by
    have hnat : b.index.toNat ≤ 5 := UInt8.le_iff_toNat_le.mp hle
    have hfive : b.index.toNat ≠ 5 := fun heq => hne hwide (UInt8.toNat_inj.mp heq)
    omega
  refine ⟨hlt, fun b' hb' heq => h.slots b hb hwide b' hb' ?_⟩
  have hone : (1 : UInt8).toNat = 1 := rfl
  rw [← UInt8.toNat_inj, UInt8.toNat_add, hone, heq, Nat.mod_eq_of_lt]
  omega

theorem loadDevice_iff {seen : List ByteString} {dev : JsonValue} {td : TopologyDevice}
    {s : ByteString} (h : loadDevice seen dev = some (td, s)) :
    DeviceInRange dev td ↔ PlainDevice dev := by
  have hok := loadDevice_some h
  unfold loadDevice at h
  simp only [Option.bind_eq_bind, Option.bind_eq_some_iff, failIf_eq_some] at h
  obtain ⟨-, -, -, -, bdf, hbdf, vendorId, hvendor, deviceId, hdevice, classCode, hclass, ek, -,
    bars, hbars, heq⟩ := h
  cases heq
  obtain ⟨htext, hbdfOk⟩ := loadBdf_some hbdf
  obtain ⟨bus, device, func, hp⟩ := packed_of_bdfOk hbdfOk
  have hindices := forall₂_iff_forall (loadBars_index (loadDeviceBars_elems hbars))
  have hapart := barsApart_of_barsOk hok.bars
  constructor
  · intro hin
    exact ⟨(loadHex_u16_iff hvendor).mp hin.vendorId, (loadHex_u16_iff hdevice).mp hin.deviceId,
      (loadHex_u32_iff hclass).mp hin.classCode, hindices.mp hin.indices⟩
  · intro hplain
    exact ⟨⟨s, bus, device, func, htext, hp.names, hp.busRange, hp.deviceRange, hp.funcRange,
        hp.value⟩,
      (loadHex_u16_iff hvendor).mpr hplain.vendorId, (loadHex_u16_iff hdevice).mpr hplain.deviceId,
      (loadHex_u32_iff hclass).mpr hplain.classCode, hindices.mpr hplain.indices,
      hapart.indices, hapart.slots_toNat⟩

theorem loadDevice_bdf {seen : List ByteString} {dev : JsonValue} {td : TopologyDevice}
    {s : ByteString} (h : loadDevice seen dev = some (td, s)) :
    (textAt dev "bdf").map bdfKey = some ((bdfToStr td.bdf).take 11) := by
  unfold loadDevice at h
  simp only [Option.bind_eq_bind, Option.bind_eq_some_iff, failIf_eq_some] at h
  obtain ⟨-, -, -, -, bdf, hbdf, vendorId, -, deviceId, -, classCode, -, ek, -, bars, -, heq⟩ := h
  cases heq
  obtain ⟨htext, hbdfOk⟩ := loadBdf_some hbdf
  rw [htext, Option.map_some, bdfKey_eq hbdfOk]

theorem loadDevices_each {seen : List ByteString} {js : List JsonValue}
    {devices : List TopologyDevice} (h : loadDevices seen js = some devices) :
    List.Forall₂ (fun dev td => DeviceInRange dev td ↔ PlainDevice dev) js devices ∧
      (js.map fun dev => (textAt dev "bdf").map bdfKey) =
        devices.map fun td => some ((bdfToStr td.bdf).take 11) := by
  induction js generalizing seen devices with
  | nil =>
    cases h
    exact ⟨.nil, rfl⟩
  | cons j js ih =>
    simp only [loadDevices, Option.bind_eq_bind, Option.bind_eq_some_iff] at h
    obtain ⟨⟨td, s⟩, htd, devices', hrest, heq⟩ := h
    cases heq
    obtain ⟨heach, hmap⟩ := ih hrest
    exact ⟨.cons (loadDevice_iff htd) heach, by
      rw [List.map_cons, List.map_cons, loadDevice_bdf htd, hmap]⟩

/-- The packed addresses differ exactly if what is read of them differs. -/
theorem nodup_keys_iff {devices : List TopologyDevice} (h : ∀ td ∈ devices, DeviceOk td) :
    (devices.map fun td => some ((bdfToStr td.bdf).take 11)).Nodup ↔
      (devices.map TopologyDevice.bdf).Nodup := by
  apply nodup_map_bdf (f := fun p => some ((bdfToStr p).take 11)) h
  intro p q hp hq heq
  exact bdfToStr_take_inj hp hq (Option.some.inj heq)

/-- A document that is accepted is in range exactly if it is plain. -/
theorem inRange_iff {j : JsonValue} {topo : Topology} (h : topologyOfJson j = some topo) :
    InRange j topo ↔ PlainDocument j := by
  obtain ⟨hok, -⟩ := topologyOfJson_some h
  unfold topologyOfJson at h
  simp only [Option.bind_eq_bind, Option.bind_eq_some_iff, failIf_eq_some] at h
  obtain ⟨-, -, -, -, v, hv, bits, hbits, -, hone, platform, -, pcie, -, mux, -, devices, hdevices,
    heq⟩ := h
  cases heq
  have hversion := version_iff hbits (not_not.mp hone)
  obtain ⟨heach, hkeys⟩ := loadDevices_each (loadDeviceList_elems hdevices)
  have hall := forall₂_iff_forall heach
  have hdistinct := nodup_keys_iff hok.devices
  rw [← hkeys] at hdistinct
  have hwritten : writtenAt j "schema_version" = written v := by
    rw [writtenAt, hv, Option.bind_some]
  constructor
  · rintro ⟨hone, hin, hnodup⟩
    rw [hwritten] at hone
    exact ⟨hwritten ▸ hversion.mp hone, hall.mp hin, hdistinct.mpr hnodup⟩
  · rintro ⟨hfits, hplain, hnodup⟩
    rw [hwritten] at hfits
    exact ⟨hwritten ▸ hversion.mpr hfits, hall.mpr hplain, hdistinct.mp hnodup⟩

/-! ### Loads -/

/-- A load that does not succeed leaves the topology as it was. -/
theorem topologyLoadJson_unchanged {Text : Type} {parse : Text → ParseOutcome} {path : String}
    {file : Option Text} {out left : Topology} {rc : CallOutcome}
    (h : topologyLoadJson parse path file out = (rc, left)) (hrc : rc ≠ .returned 0) :
    left = out := by
  unfold topologyLoadJson at h
  split_ifs at h
  · cases h
    rfl
  split at h
  · cases h
    rfl
  split at h
  · cases h
    rfl
  · cases h
    rfl
  split at h
  · cases h
    rfl
  · cases h
    exact absurd rfl hrc

/-- **In-range documents.**  A load that fails leaves the topology as it was; one that succeeds has
the numbers and the addresses of its document exactly if that is plain. -/
theorem topology_load_iff {Text : Type} (parse : Text → ParseOutcome) (path : String)
    (file : Option Text) (out : Topology) :
    (∀ rc left, topologyLoadJson parse path file out = (rc, left) → rc ≠ .returned 0 →
        left = out) ∧
      ∀ topo, topologyLoadJson parse path file out = (.returned 0, topo) →
        ∃ text j, file = some text ∧ parse text = .value j ∧
          (InRange j topo ↔ PlainDocument j) := by
  refine ⟨fun rc left => topologyLoadJson_unchanged, fun topo hload => ?_⟩
  cases file with
  | none =>
    unfold topologyLoadJson at hload
    split_ifs at hload
    · cases hload
    · cases hload
  | some text =>
    obtain ⟨j, hparse, htopo⟩ := topologyLoadJson_zero hload
    exact ⟨text, j, rfl, hparse, inRange_iff htopo⟩

/-! ### A version that is cut -/

def versionText : String :=
  "\x7b
  \"devices\": [],
  \"pcie\": \x7b
    \"bypass_mux\": \x7b
      \"default_drain_policy\": \"GracefulDrain\",
      \"default_mode\": \"Full\"
    \x7d,
    \"root_complex\": \x7b
      \"enabled\": true
    \x7d
  \x7d,
  \"platform\": \"usr_linux_emu\",
  \"schema_version\": 4294967297
\x7d"

def versionJson : JsonValue :=
  .object [("devices", .array []),
    ("pcie", .object
      [("bypass_mux", .object
          [("default_drain_policy", .string (ascii "GracefulDrain")),
            ("default_mode", .string (ascii "Full"))]),
        ("root_complex", .object [("enabled", .boolean true)])]),
    ("platform", .string (ascii "usr_linux_emu")), ("schema_version", .unsigned 4294967297)]

/-- **A version out of range.**  A document of version `2 ^ 32 + 1` is loaded as version 1. -/
theorem topology_load_fails :
    topologyLoadJson (parseOnly versionText versionJson) "topology.json" (some versionText)
        (platform [gpu]) = (.returned 0, platform []) ∧
      writtenAt versionJson "schema_version" = some (2 ^ 32 + 1) ∧
        ¬InRange versionJson (platform []) := by
  have hload : topologyOfJson versionJson = some (platform []) := rfl
  have hversion : writtenAt versionJson "schema_version" = some (2 ^ 32 + 1) := rfl
  refine ⟨topologyLoadJson_of_json rfl (parseOnly_self _ _) hload _, hversion, fun h => ?_⟩
  have hone := h.version
  rw [hversion] at hone
  exact absurd hone (by decide)

end UsrLinuxEmu.SimHardware
