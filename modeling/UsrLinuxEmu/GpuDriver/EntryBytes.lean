import UsrLinuxEmu.GpuDriver.GpuTypes
import UsrLinuxEmu.Layout.LittleEndian
import Mathlib.Data.Nat.Bitwise
import Mathlib.Tactic.IntervalCases

/-!
# The bytes of a GPFIFO entry (`shared/gpu_types.h`)

The entry is a packed struct, so a `memcpy` of it copies its words in the order of the fields.

* `le32_of_holdsAt`, `le64_of_holdsAt` — a little-endian word is read back from its bytes;
* `GpuGpfifoEntry.toBytes` — the struct in memory;
* `GpuGpfifoEntry.ofBytes_toBytes` — the entry is read back from its bytes.
-/

namespace UsrLinuxEmu.GpuDriver

open UsrLinuxEmu.Layout

/-! ### Words -/

theorem or_shiftLeft {a b k : ℕ} (h : a < 2 ^ k) : a ||| b <<< k = a + b * 2 ^ k := by
  rw [Nat.or_comm, ← Nat.shiftLeft_add_eq_or_of_lt h, Nat.shiftLeft_eq, Nat.add_comm]

theorem toNat_le32 (b : ℕ → UInt8) (off : ℕ) :
    (le32 b off).toNat = (b off).toNat + (b (off + 1)).toNat * 2 ^ 8 +
      (b (off + 2)).toNat * 2 ^ 16 + (b (off + 3)).toNat * 2 ^ 24 := by
  have h0 := (b off).toNat_lt
  have h1 := (b (off + 1)).toNat_lt
  have h2 := (b (off + 2)).toNat_lt
  have h3 := (b (off + 3)).toNat_lt
  have e1 : ((b (off + 1)).toUInt32 <<< 8).toNat = (b (off + 1)).toNat <<< 8 := by
    rw [UInt32.toNat_shiftLeft, UInt8.toNat_toUInt32]
    exact Nat.mod_eq_of_lt (by rw [Nat.shiftLeft_eq]; show _ * 2 ^ 8 < 2 ^ 32; omega)
  have e2 : ((b (off + 2)).toUInt32 <<< 16).toNat = (b (off + 2)).toNat <<< 16 := by
    rw [UInt32.toNat_shiftLeft, UInt8.toNat_toUInt32]
    exact Nat.mod_eq_of_lt (by rw [Nat.shiftLeft_eq]; show _ * 2 ^ 16 < 2 ^ 32; omega)
  have e3 : ((b (off + 3)).toUInt32 <<< 24).toNat = (b (off + 3)).toNat <<< 24 := by
    rw [UInt32.toNat_shiftLeft, UInt8.toNat_toUInt32]
    exact Nat.mod_eq_of_lt (by rw [Nat.shiftLeft_eq]; show _ * 2 ^ 24 < 2 ^ 32; omega)
  unfold le32
  rw [UInt32.toNat_or, UInt32.toNat_or, UInt32.toNat_or, UInt8.toNat_toUInt32, e1, e2, e3,
    or_shiftLeft h0, or_shiftLeft (k := 16) (by omega), or_shiftLeft (k := 24) (by omega)]

theorem toNat_byteOf32 (v : UInt32) {k : ℕ} (hk : k < 4) :
    (byteOf32 v k).toNat = v.toNat / 2 ^ (8 * k) % 2 ^ 8 := by
  have hsmall : (UInt32.ofNat (8 * k)).toNat % 32 = 8 * k := by
    rw [UInt32.toNat_ofNat']
    omega
  rw [byteOf32, UInt32.toNat_toUInt8, UInt32.toNat_shiftRight, hsmall,
    Nat.shiftRight_eq_div_pow]

theorem le32_of_bytes {b : ℕ → UInt8} {off : ℕ} {v : UInt32}
    (h : ∀ k < 4, b (off + k) = byteOf32 v k) : le32 b off = v := by
  have hv := v.toNat_lt
  have h0 := toNat_byteOf32 v (k := 0) (by decide)
  have h1 := toNat_byteOf32 v (k := 1) (by decide)
  have h2 := toNat_byteOf32 v (k := 2) (by decide)
  have h3 := toNat_byteOf32 v (k := 3) (by decide)
  rw [← UInt32.toNat_inj, toNat_le32, h 1 (by decide), h 2 (by decide), h 3 (by decide)]
  rw [show b off = byteOf32 v 0 from h 0 (by decide), h0, h1, h2, h3]
  omega

/-- The upper half of a 64-bit word. -/
def highWord (v : UInt64) : UInt32 := (v >>> 32).toUInt32

theorem le64_of_words {b : ℕ → UInt8} {off : ℕ} {v : UInt64} (hlow : le32 b off = v.toUInt32)
    (hhigh : le32 b (off + 4) = highWord v) : le64 b off = v := by
  have hv := v.toNat_lt
  have hshift : (v >>> 32).toNat = v.toNat / 2 ^ 32 := by
    rw [UInt64.toNat_shiftRight, Nat.shiftRight_eq_div_pow]
    rfl
  have hword : ((highWord v).toUInt64 <<< 32).toNat = (v.toNat / 2 ^ 32) <<< 32 := by
    rw [UInt64.toNat_shiftLeft, UInt32.toNat_toUInt64, highWord, UInt64.toNat_toUInt32, hshift]
    rw [Nat.mod_eq_of_lt (show v.toNat / 2 ^ 32 < 2 ^ 32 by omega)]
    exact Nat.mod_eq_of_lt (by rw [Nat.shiftLeft_eq]; show _ * 2 ^ 32 < 2 ^ 64; omega)
  rw [le64, hlow, hhigh, ← UInt64.toNat_inj, UInt64.toNat_or, hword, UInt32.toNat_toUInt64,
    UInt64.toNat_toUInt32, or_shiftLeft (Nat.mod_lt _ (by decide))]
  omega

/-! ### The bytes of a word -/

def bytesOf32 (v : UInt32) : List UInt8 := [byteOf32 v 0, byteOf32 v 1, byteOf32 v 2, byteOf32 v 3]

def bytesOf64 (v : UInt64) : List UInt8 := bytesOf32 v.toUInt32 ++ bytesOf32 (highWord v)

@[simp] theorem length_bytesOf32 (v : UInt32) : (bytesOf32 v).length = 4 := rfl

@[simp] theorem length_bytesOf64 (v : UInt64) : (bytesOf64 v).length = 8 := rfl

theorem le32_of_holdsAt {b : ℕ → UInt8} {off : ℕ} {v : UInt32} (h : HoldsAt b off (bytesOf32 v)) :
    le32 b off = v := by
  apply le32_of_bytes
  intro k hk
  interval_cases k
  · exact h 0 _ rfl
  · exact h 1 _ rfl
  · exact h 2 _ rfl
  · exact h 3 _ rfl

theorem le64_of_holdsAt {b : ℕ → UInt8} {off : ℕ} {v : UInt64} (h : HoldsAt b off (bytesOf64 v)) :
    le64 b off = v := by
  obtain ⟨hlow, hhigh⟩ := holdsAt_append.mp h
  exact le64_of_words (le32_of_holdsAt hlow) (le32_of_holdsAt hhigh)

theorem length_wordBytes (vs : List UInt64) : (vs.flatMap bytesOf64).length = 8 * vs.length := by
  induction vs with
  | nil => rfl
  | cons v vs ih =>
    rw [List.flatMap_cons, List.length_append, length_bytesOf64, ih, List.length_cons]
    omega

/-- Words one after the other are read back, each at its place. -/
theorem le64_of_wordBytes {b : ℕ → UInt8} {off : ℕ} {vs : List UInt64}
    (h : HoldsAt b off (vs.flatMap bytesOf64)) {i : ℕ} {v : UInt64} (hv : vs[i]? = some v) :
    le64 b (off + 8 * i) = v := by
  induction vs generalizing off i with
  | nil => nomatch hv
  | cons w vs ih =>
    rw [List.flatMap_cons] at h
    obtain ⟨hfirst, hrest⟩ := holdsAt_append.mp h
    cases i with
    | zero =>
      rw [List.getElem?_cons_zero, Option.some.injEq] at hv
      rw [← hv]
      exact le64_of_holdsAt hfirst
    | succ i =>
      rw [List.getElem?_cons_succ] at hv
      have hnext := ih hrest hv
      rw [length_bytesOf64] at hnext
      rw [← hnext]
      congr 1
      omega

/-! ### The struct -/

namespace GpuGpfifoEntry

/-- The first word, with its bit fields. -/
def header (e : GpuGpfifoEntry) : UInt32 :=
  ⟨0#15 ++ e.subchannel ++ e.method ++ BitVec.ofBool e.priv ++ BitVec.ofBool e.valid⟩

/-- The word of `release`. -/
def trailer (e : GpuGpfifoEntry) : UInt32 := ⟨0#31 ++ BitVec.ofBool e.release⟩

def payloadBytes (e : GpuGpfifoEntry) : List UInt8 := e.payload.toList.flatMap bytesOf64

def toBytes (e : GpuGpfifoEntry) : List UInt8 :=
  bytesOf32 e.header ++ [e.format] ++ e.payloadBytes ++ bytesOf64 e.semaphoreVa ++
    bytesOf32 e.semaphoreValue ++ bytesOf64 e.tsQuery ++ bytesOf32 e.trailer ++
    bytesOf64 e.tlSemHandle ++ bytesOf64 e.tlSignalValue ++ bytesOf64 e.tlWaitValue

@[simp] theorem length_payloadBytes (e : GpuGpfifoEntry) : e.payloadBytes.length = 56 := by
  rw [payloadBytes, length_wordBytes, Vector.length_toList]

theorem length_toBytes (e : GpuGpfifoEntry) : e.toBytes.length = sizeofGpfifoEntry := by
  simp only [toBytes, List.length_append, length_payloadBytes]
  rfl

/-- The bit fields of the first word. -/
theorem getLsbD_header (e : GpuGpfifoEntry) (i : ℕ) : e.header.toBitVec.getLsbD i =
    if i < 1 then e.valid
    else if i < 2 then e.priv
    else if i < 14 then e.method.getLsbD (i - 2)
    else e.subchannel.getLsbD (i - 14) := by
  show (0#15 ++ e.subchannel ++ e.method ++ BitVec.ofBool e.priv ++
    BitVec.ofBool e.valid).getLsbD i = _
  simp only [BitVec.getLsbD_append, BitVec.getLsbD_zero, Nat.sub_sub, BitVec.getLsbD_ofBool]
  by_cases hvalid : i < 1
  · obtain rfl : i = 0 := by omega
    rfl
  by_cases hpriv : i < 2
  · obtain rfl : i = 1 := by omega
    rfl
  rw [if_neg hvalid, if_neg hvalid, if_neg hpriv, if_neg (by omega)]
  by_cases hmethod : i < 14
  · rw [if_pos hmethod, if_pos (by omega)]
  rw [if_neg hmethod, if_neg (by omega)]
  split_ifs with hsub
  · rfl
  · exact (BitVec.getLsbD_of_ge _ _ (by omega)).symm

theorem header_fields (e : GpuGpfifoEntry) :
    e.header.toBitVec.getLsbD 0 = e.valid ∧ e.header.toBitVec.getLsbD 1 = e.priv ∧
      e.header.toBitVec.extractLsb' 2 12 = e.method ∧
      e.header.toBitVec.extractLsb' 14 3 = e.subchannel := by
  refine ⟨getLsbD_header e 0, getLsbD_header e 1, ?_, ?_⟩
  · apply BitVec.eq_of_getLsbD_eq
    intro i hi
    rw [BitVec.getLsbD_extractLsb', getLsbD_header, if_neg (by omega), if_neg (by omega),
      if_pos (by omega), Nat.add_sub_cancel_left]
    simp [hi]
  · apply BitVec.eq_of_getLsbD_eq
    intro i hi
    rw [BitVec.getLsbD_extractLsb', getLsbD_header, if_neg (by omega), if_neg (by omega),
      if_neg (by omega), Nat.add_sub_cancel_left]
    simp [hi]

theorem payload_of_holdsAt {b : ℕ → UInt8} {off : ℕ} {e : GpuGpfifoEntry}
    (h : HoldsAt b off e.payloadBytes) :
    (Vector.ofFn fun i : Fin 7 => le64 b (off + 8 * i.val)) = e.payload := by
  apply Vector.ext
  intro i hi
  rw [Vector.getElem_ofFn]
  apply le64_of_wordBytes h
  rw [List.getElem?_eq_getElem (by rw [Vector.length_toList]; exact hi), Vector.getElem_toList]

/-- Where the bytes of an entry are, the entry is read. -/
theorem ofBytes_of_holdsAt {b : ℕ → UInt8} {e : GpuGpfifoEntry} (h : HoldsAt b 0 e.toBytes) :
    ofBytes b = e := by
  simp only [toBytes, holdsAt_append, List.length_append, length_bytesOf64, length_bytesOf32,
    length_payloadBytes, List.length_singleton] at h
  obtain ⟨⟨⟨⟨⟨⟨⟨⟨⟨hheader, hformat⟩, hpayload⟩, hva⟩, hvalue⟩, hts⟩, htrailer⟩, hhandle⟩,
    hsignal⟩, hwait⟩ := h
  obtain ⟨hvalid, hpriv, hmethod, hsubchannel⟩ := e.header_fields
  have hrelease : e.trailer.toBitVec.getLsbD 0 = e.release := by
    show (0#31 ++ BitVec.ofBool e.release).getLsbD 0 = _
    rw [BitVec.getLsbD_append, if_pos (by decide), BitVec.getLsbD_ofBool]
    rfl
  unfold ofBytes
  rw [le32_of_holdsAt hheader, hvalid, hpriv, hmethod, hsubchannel]
  rw [show b 4 = e.format from hformat 0 _ rfl, payload_of_holdsAt hpayload,
    le64_of_holdsAt hva, le32_of_holdsAt hvalue, le64_of_holdsAt hts, le32_of_holdsAt htrailer,
    hrelease, le64_of_holdsAt hhandle, le64_of_holdsAt hsignal, le64_of_holdsAt hwait]

theorem ofBytes_toBytes (e : GpuGpfifoEntry) : ofBytes (fun k => e.toBytes.getD k 0) = e :=
  ofBytes_of_holdsAt (holdsAt_getD e.toBytes)

end GpuGpfifoEntry

end UsrLinuxEmu.GpuDriver
