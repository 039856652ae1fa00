import Mathlib.Data.Nat.Notation
import Mathlib.Order.Basic

/-!
# Range checks in wrapping arithmetic

A check `off + size ≤ limit` that adds modulo `M` accepts the ranges below the limit, and those
whose end wraps around to a value below it.

* `Inside` — a range lies in a window, without wrap-around;
* `WrapsInto` / `check_iff`, `check_exact_iff` — what the check accepts, and when it is right;
* `offset_inside_iff` — the offset of an address, computed modulo `M`, tells whether a range of
  addresses lies in a window.
-/

namespace UsrLinuxEmu.Layout

/-- `[addr, addr + size)` lies in the window of `limit` places from `base` on. -/
def Inside (base limit addr size : ℕ) : Prop := base ≤ addr ∧ addr + size ≤ base + limit

instance (base limit addr size : ℕ) : Decidable (Inside base limit addr size) :=
  inferInstanceAs (Decidable (_ ∧ _))

/-- The end of the range is at least `M`, and at most `limit` above it. -/
def WrapsInto (M limit off size : ℕ) : Prop := M ≤ off + size ∧ off + size ≤ M + limit

instance (M limit off size : ℕ) : Decidable (WrapsInto M limit off size) :=
  inferInstanceAs (Decidable (_ ∧ _))

variable {M limit off size : ℕ}

/-- **The check.**  It accepts the ranges below the limit, and those that wrap into it. -/
theorem check_iff (hoff : off < M) (hsize : size < M) :
    (off + size) % M ≤ limit ↔ off + size ≤ limit ∨ WrapsInto M limit off size := by
  unfold WrapsInto
  rcases Nat.lt_or_ge (off + size) M with hlt | hge
  · rw [Nat.mod_eq_of_lt hlt]
    omega
  · rw [Nat.mod_eq_sub_mod hge, Nat.mod_eq_of_lt (by omega)]
    omega

theorem check_exact_iff (hoff : off < M) (hsize : size < M) (hlimit : limit < M) :
    ((off + size) % M ≤ limit ↔ off + size ≤ limit) ↔ ¬WrapsInto M limit off size := by
  rw [check_iff hoff hsize]
  constructor
  · intro h hwraps
    have hsmall := h.mp (.inr hwraps)
    have hlarge := hwraps.1
    omega
  · intro h
    exact or_iff_left h

/-- From an offset up to the limit, a range that wraps around ends below the limit again. -/
theorem wrapsInto_iff_of_le (hoff : off ≤ limit) (hsize : size < M) :
    WrapsInto M limit off size ↔ M ≤ off + size := by
  unfold WrapsInto
  omega

/-- An address below the base has an offset beyond every window that ends below `M`. -/
theorem offset_inside_iff {base addr : ℕ} (hend : base + limit < M) (haddr : addr < M) :
    (M - base + addr) % M + size ≤ limit ↔ Inside base limit addr size := by
  unfold Inside
  rcases Nat.lt_or_ge addr base with hlt | hge
  · rw [Nat.mod_eq_of_lt (by omega)]
    omega
  · rw [Nat.mod_eq_sub_mod (by omega), Nat.mod_eq_of_lt (by omega)]
    omega

end UsrLinuxEmu.Layout
