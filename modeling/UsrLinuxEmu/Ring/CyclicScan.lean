import Mathlib.Data.Nat.Notation
import Mathlib.Order.Basic
import Mathlib.Tactic.SplitIfs

/-!
# Going round the slots of a table

The slots are numbered from 1 to `n`.  A cursor moves on by one slot at a time, and from the last
slot to the first.

* `slotFrom` — the slot that is reached from a start after some moves;
* `slotFrom_succ`, `slotFrom_eq_start_iff` — one move, and when the cursor is back;
* `exists_slotFrom`, `slotFrom_eq_last_iff` — one round passes every slot; the way to the last one;
* `FirstFree` — the first slot on the way that is not taken.
-/

namespace UsrLinuxEmu.Ring

/-- The slot after this one. -/
def nextSlot (n c : ℕ) : ℕ := if c = n then 1 else c + 1

/-- The slot that `k` moves from the start lead to. -/
def slotFrom (n start k : ℕ) : ℕ := (start - 1 + k) % n + 1

variable {n start k : ℕ}

theorem slotFrom_zero (hstart : 0 < start) (hle : start ≤ n) : slotFrom n start 0 = start := by
  rw [slotFrom, Nat.mod_eq_of_lt (by omega)]
  omega

theorem slotFrom_pos : 0 < slotFrom n start k := Nat.succ_pos _

theorem slotFrom_le (hn : 0 < n) : slotFrom n start k ≤ n := Nat.mod_lt _ hn

/-- One move. -/
theorem slotFrom_succ (hn : 0 < n) :
    nextSlot n (slotFrom n start k) = slotFrom n start (k + 1) := by
  unfold nextSlot slotFrom
  have hlt : (start - 1 + k) % n < n := Nat.mod_lt _ hn
  have hnext : (start - 1 + (k + 1)) % n = ((start - 1 + k) % n + 1) % n := by
    rw [Nat.mod_add_mod, Nat.add_assoc]
  rw [hnext]
  split_ifs with hlast
  · rw [hlast, Nat.mod_self]
  · have hroom : (start - 1 + k) % n + 1 < n := by omega
    rw [Nat.mod_eq_of_lt hroom]

/-- The cursor is back at the start after a whole round, and not before. -/
theorem slotFrom_eq_start_iff (hstart : 0 < start) (hle : start ≤ n) (hk : 0 < k) (hkn : k ≤ n) :
    slotFrom n start k = start ↔ k = n := by
  unfold slotFrom
  rcases Nat.lt_or_ge (start - 1 + k) n with hlt | hge
  · rw [Nat.mod_eq_of_lt hlt]
    omega
  · rw [Nat.mod_eq_sub_mod hge]
    rcases Nat.lt_or_ge (start - 1 + k - n) n with hlt' | hge'
    · rw [Nat.mod_eq_of_lt hlt']
      omega
    · omega

/-- A round passes every slot. -/
theorem exists_slotFrom (hstart : 0 < start) (hle : start ≤ n) {c : ℕ} (hc : 0 < c)
    (hcn : c ≤ n) : ∃ k, k < n ∧ slotFrom n start k = c := by
  rcases Nat.lt_or_ge c start with hlt | hge
  · refine ⟨n + c - start, by omega, ?_⟩
    rw [slotFrom, show start - 1 + (n + c - start) = c - 1 + n by omega, Nat.add_mod_right,
      Nat.mod_eq_of_lt (by omega)]
    omega
  · refine ⟨c - start, by omega, ?_⟩
    rw [slotFrom, show start - 1 + (c - start) = c - 1 by omega, Nat.mod_eq_of_lt (by omega)]
    omega

/-- The way to the last slot goes through the slots behind the start. -/
theorem slotFrom_eq_last_iff (hstart : 0 < start) (hle : start ≤ n) (hk : k < n) :
    slotFrom n start k = n ↔ k = n - start := by
  unfold slotFrom
  rcases Nat.lt_or_ge (start - 1 + k) n with hlt | hge
  · rw [Nat.mod_eq_of_lt hlt]
    omega
  · rw [Nat.mod_eq_sub_mod hge, Nat.mod_eq_of_lt (by omega)]
    omega

theorem slotFrom_of_le (hstart : 0 < start) (hk : start + k ≤ n) :
    slotFrom n start k = start + k := by
  rw [slotFrom, Nat.mod_eq_of_lt (by omega)]
  omega

/-- The slot after `k` moves is the first that is not taken. -/
structure FirstFree (n start : ℕ) (taken : ℕ → Prop) (k : ℕ) : Prop where
  lt : k < n
  free : ¬taken (slotFrom n start k)
  before : ∀ i, i < k → taken (slotFrom n start i)

/-- There is at most one such slot. -/
theorem FirstFree.unique {taken : ℕ → Prop} {j : ℕ} (hk : FirstFree n start taken k)
    (hj : FirstFree n start taken j) : k = j := by
  rcases Nat.lt_trichotomy k j with hlt | heq | hgt
  · exact absurd (hj.before k hlt) hk.free
  · exact heq
  · exact absurd (hk.before j hgt) hj.free

end UsrLinuxEmu.Ring
