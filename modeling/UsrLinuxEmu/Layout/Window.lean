import Mathlib.Algebra.BigOperators.Group.List.Basic
import Mathlib.Algebra.Order.Ring.Nat
import Mathlib.Data.Nat.Notation

/-!
# Blocks laid end to end

Blocks of some size are placed one after another, each in its window and behind the blocks of that
window that came before.

* `cursor` — where the next block of a window goes;
* `cursor_end_le` — a block ends before the later ones of its window;
* `exists_first` — the first block of a window goes to its start;
* `cursor_le_mul_two_pow` — blocks that are no larger than their address at most double it.
-/

namespace UsrLinuxEmu.Layout

variable {β κ : Type*} [DecidableEq κ]

/-- The start of the window and the blocks of the window before. -/
def cursor (start : κ → ℕ) (size : β → ℕ) (window : β → κ) (w : κ) (before : List β) : ℕ :=
  start w + ((before.filter fun b => window b = w).map size).sum

variable {start : κ → ℕ} {size : β → ℕ} {window : β → κ} {w : κ}

theorem cursor_concat (before : List β) (b : β) :
    cursor start size window w (before ++ [b]) =
      if window b = w then cursor start size window w before + size b
      else cursor start size window w before := by
  unfold cursor
  rw [List.filter_append, List.map_append, List.sum_append]
  split_ifs with h
  · rw [List.filter_cons_of_pos (by exact decide_eq_true h), List.filter_nil, List.map_singleton,
      List.sum_singleton, Nat.add_assoc]
  · rw [List.filter_cons_of_neg (by exact fun hd => h (of_decide_eq_true hd)), List.filter_nil,
      List.map_nil, List.sum_nil, Nat.add_zero]

theorem cursor_le_append (before after : List β) :
    cursor start size window w before ≤ cursor start size window w (before ++ after) := by
  unfold cursor
  rw [List.filter_append, List.map_append, List.sum_append]
  omega

theorem start_le_cursor (before : List β) : start w ≤ cursor start size window w before :=
  Nat.le_add_right _ _

theorem cursor_take_succ (bs : List β) {i : ℕ} (hi : i < bs.length) :
    cursor start size window w (bs.take (i + 1)) =
      if window bs[i] = w then cursor start size window w (bs.take i) + size bs[i]
      else cursor start size window w (bs.take i) := by
  rw [← List.take_concat_get' bs i hi, cursor_concat]

/-- A block ends before the next cursor of its window. -/
theorem cursor_end_le (bs : List β) {i j : ℕ} (hij : i < j) (hi : i < bs.length)
    (hw : window bs[i] = w) :
    cursor start size window w (bs.take i) + size bs[i] ≤
      cursor start size window w (bs.take j) := by
  have hnext : cursor start size window w (bs.take (i + 1)) =
      cursor start size window w (bs.take i) + size bs[i] := by
    rw [cursor_take_succ bs hi, if_pos hw]
  obtain ⟨after, hafter⟩ := List.take_prefix_take_left (l := bs) hij
  rw [← hnext, ← hafter]
  exact cursor_le_append _ _

theorem exists_first (start : κ → ℕ) (size : β → ℕ) {bs : List β} (h : ∃ b ∈ bs, window b = w) :
    ∃ i, ∃ hi : i < bs.length, window bs[i] = w ∧
      cursor start size window w (bs.take i) = start w := by
  obtain ⟨b, hb, hw⟩ := h
  have hi : bs.findIdx (fun b => window b = w) < bs.length :=
    List.findIdx_lt_length_of_exists ⟨b, hb, decide_eq_true hw⟩
  refine ⟨_, hi, of_decide_eq_true (List.findIdx_getElem (w := hi)), ?_⟩
  have hnone :
      (bs.take (bs.findIdx fun b => window b = w)).filter (fun b => window b = w) = [] := by
    rw [List.filter_eq_nil_iff]
    intro c hc
    obtain ⟨j, hj, rfl⟩ := List.mem_take_iff_getElem.mp hc
    exact Bool.eq_false_iff.mp
      (List.not_of_lt_findIdx (Nat.lt_of_lt_of_le hj (Nat.min_le_left _ _)))
  rw [cursor, hnone, List.map_nil, List.sum_nil, Nat.add_zero]

theorem cursor_le_mul_two_pow {bs : List β} (h : ∀ i, ∀ hi : i < bs.length, window bs[i] = w →
    size bs[i] ≤ cursor start size window w (bs.take i)) {i : ℕ} (hi : i ≤ bs.length) :
    cursor start size window w (bs.take i) ≤ start w * 2 ^ i := by
  induction i with
  | zero => simp [cursor]
  | succ i ih =>
    have hprev := ih (Nat.le_of_succ_le hi)
    rw [cursor_take_succ bs hi, pow_succ, ← Nat.mul_assoc]
    split_ifs with hw
    · have hsize := h i hi hw
      omega
    · omega

end UsrLinuxEmu.Layout
