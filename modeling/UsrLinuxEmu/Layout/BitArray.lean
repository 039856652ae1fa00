import Mathlib.Data.Nat.Bitwise
import Mathlib.Logic.Function.Basic

/-!
# Bits in an array of bytes

Bit `n` of an array of bytes is bit `n % 8` of byte `n / 8`.

* `bitAt`, `setBit` — a bit, and the array with a bit set;
* `bitAt_setBit` — setting a bit sets that bit and no other.
-/

namespace UsrLinuxEmu.Layout

def bitAt (bytes : ℕ → UInt8) (n : ℕ) : Bool := (bytes (n / 8)).toNat.testBit (n % 8)

/-- `bytes[n / 8] |= 1u << (n % 8)`. -/
def setBit (bytes : ℕ → UInt8) (n : ℕ) : ℕ → UInt8 :=
  Function.update bytes (n / 8)
    (bytes (n / 8) ||| ((1 : UInt32) <<< UInt32.ofNat (n % 8)).toUInt8)

@[simp] theorem bitAt_zero (n : ℕ) : bitAt (fun _ => 0) n = false := Nat.zero_testBit _

theorem toNat_bit {k : ℕ} (hk : k < 8) :
    ((1 : UInt32) <<< UInt32.ofNat k).toUInt8.toNat = 2 ^ k := by
  have hpow : 2 ^ k < 2 ^ 8 := Nat.pow_lt_pow_right (by decide) hk
  have hshift : (UInt32.ofNat k).toNat % 32 = k := by
    rw [UInt32.toNat_ofNat']
    omega
  rw [UInt32.toNat_toUInt8, UInt32.toNat_shiftLeft, hshift, Nat.shiftLeft_eq]
  show 1 * 2 ^ k % 2 ^ 32 % 2 ^ 8 = 2 ^ k
  omega

/-- **Setting a bit** sets it, and leaves the others as they are. -/
theorem bitAt_setBit (bytes : ℕ → UInt8) (n m : ℕ) :
    bitAt (setBit bytes n) m = (decide (m = n) || bitAt bytes m) := by
  unfold bitAt setBit
  by_cases hbyte : m / 8 = n / 8
  · rw [hbyte, Function.update_self, UInt8.toNat_or, Nat.testBit_or,
      toNat_bit (Nat.mod_lt n (by decide)), Nat.testBit_two_pow, Bool.or_comm]
    have hbit : n % 8 = m % 8 ↔ m = n := by omega
    simp only [hbit]
  · have hne : m ≠ n := fun h => hbyte (by rw [h])
    rw [Function.update_of_ne hbyte, decide_eq_false hne, Bool.false_or]

end UsrLinuxEmu.Layout
