import Mathlib.Algebra.Order.Ring.Nat
import Mathlib.Tactic.SplitIfs

/-!
# The bytes that a history of writes leaves

A write puts bytes at consecutive places.  Writes may overlap in any way; what counts for a place is
the newest one that covers it.

* `ByteWrite` / `lastWritten` — a write, and what a history of writes says about a place;
* `Reflects` — a memory holds what was last written, and zero where nothing was;
* `Reflects.write` — a memory that takes the bytes of a write reflects the longer history;
* `sub_lt_iff` — a range of 64-bit addresses that does not wrap around, as a distance.
-/

namespace UsrLinuxEmu.Layout

/-! ### Histories -/

structure ByteWrite where
  off : ℕ
  size : ℕ
  bytes : ℕ → UInt8

namespace ByteWrite

def Covers (w : ByteWrite) (k : ℕ) : Prop := w.off ≤ k ∧ k < w.off + w.size

instance (w : ByteWrite) (k : ℕ) : Decidable (w.Covers k) := inferInstanceAs (Decidable (_ ∧ _))

/-- The byte that the write puts at the place. -/
def byteAt (w : ByteWrite) (k : ℕ) : UInt8 := w.bytes (k - w.off)

end ByteWrite

/-- The byte that the newest write at the place has put there; the newest write comes first. -/
def lastWritten : List ByteWrite → ℕ → Option UInt8
  | [], _ => none
  | w :: ws, k => if w.Covers k then some (w.byteAt k) else lastWritten ws k

/-- The memory below `limit` holds what was last written, and zero where nothing was. -/
def Reflects (m : ℕ → UInt8) (limit : ℕ) (ws : List ByteWrite) : Prop :=
  ∀ k, k < limit → m k = (lastWritten ws k).getD 0

variable {m m' : ℕ → UInt8} {limit : ℕ} {ws : List ByteWrite}

/-- **Writes.**  The bytes of the write are in their places, the others are as they were. -/
theorem Reflects.write (h : Reflects m limit ws) (w : ByteWrite)
    (hm : ∀ k, k < limit → m' k = if w.Covers k then w.byteAt k else m k) :
    Reflects m' limit (w :: ws) := by
  intro k hk
  rw [hm k hk, lastWritten]
  split_ifs
  · rfl
  · exact h k hk

/-! ### Ranges of 64-bit addresses -/

section Addresses

variable {a off size : UInt64}

/-- An address lies in a range that does not wrap around when its distance from the start is less
than the size. -/
theorem sub_lt_iff (h : off.toNat + size.toNat ≤ 2 ^ 64) :
    a - off < size ↔ off.toNat ≤ a.toNat ∧ a.toNat < off.toNat + size.toNat := by
  have ha := a.toNat_lt
  have hoff := off.toNat_lt
  rw [UInt64.lt_iff_toNat_lt, UInt64.toNat_sub]
  rcases Nat.lt_or_ge a.toNat off.toNat with hlt | hge
  · rw [Nat.mod_eq_of_lt (by omega)]
    omega
  · rw [Nat.mod_eq_sub_mod (by omega), Nat.mod_eq_of_lt (by omega)]
    omega

theorem ofNat_sub_lt_iff {k : ℕ} (hk : k < 2 ^ 64) (h : off.toNat + size.toNat ≤ 2 ^ 64) :
    UInt64.ofNat k - off < size ↔ off.toNat ≤ k ∧ k < off.toNat + size.toNat := by
  rw [sub_lt_iff h, UInt64.toNat_ofNat_of_lt' hk]

theorem ofNat_sub {k : ℕ} (hle : off.toNat ≤ k) :
    UInt64.ofNat k - off = UInt64.ofNat (k - off.toNat) := by
  rw [UInt64.ofNat_sub hle, UInt64.ofNat_toNat]

/-- The address of byte `i` of a range that ends below `2 ^ 64`. -/
theorem toNat_add_ofNat {i : ℕ} (h : off.toNat + i < 2 ^ 64) :
    (off + UInt64.ofNat i).toNat = off.toNat + i := by
  have hi : i < 2 ^ 64 := by omega
  rw [UInt64.toNat_add, UInt64.toNat_ofNat_of_lt' hi, Nat.mod_eq_of_lt h]

end Addresses

end UsrLinuxEmu.Layout
