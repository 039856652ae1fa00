import Mathlib.Tactic.Linarith
import UsrLinuxEmu.GpuCore.BuddyBlocks

/-!
# The order that serves a request

* `le_roundUpPow2` — rounding up covers the request, for requests of up to `2 ^ 63` bytes;
* `roundUpPow2_of_lt` / `orderForSize_of_lt` — larger requests get a single page;
* `orderLoop_spec` / `le_orderForSize` — the blocks of the order cover the rounded request, unless
  the order is the highest;
* `gpuBuddyInit_of_le` — the order of the initial block.
-/

namespace UsrLinuxEmu.GpuCore

/-! ### Rounding up -/

theorem or_shift_bounds {x : UInt64} (k : UInt64) (h : x.toNat < 2 ^ 63) :
    x.toNat ≤ (x ||| x >>> k).toNat ∧ (x ||| x >>> k).toNat < 2 ^ 63 := by
  rw [UInt64.toNat_or, UInt64.toNat_shiftRight]
  have hshift : x.toNat >>> (k.toNat % 64) < 2 ^ 63 := by
    rw [Nat.shiftRight_eq_div_pow]
    exact Nat.lt_of_le_of_lt (Nat.div_le_self _ _) h
  exact ⟨Nat.left_le_or, Nat.or_lt_two_pow h hshift⟩

theorem le_roundUpPow2 {size : UInt64} (hsize : size ≠ 0) (h : size.toNat ≤ 2 ^ 63) :
    size.toNat ≤ (roundUpPow2 size).toNat := by
  have hpos : 1 ≤ size.toNat := by
    rcases Nat.eq_zero_or_pos size.toNat with hzero | hpos
    · exact absurd (UInt64.toNat_inj.mp hzero) hsize
    · exact hpos
  have hpred : (size - 1).toNat = size.toNat - 1 :=
    UInt64.toNat_sub_of_le _ _ (UInt64.le_iff_toNat_le.mpr hpos)
  rw [roundUpPow2, if_neg hsize]
  dsimp only
  have hlt : (size - 1).toNat < 2 ^ 63 := by omega
  have hle : size.toNat - 1 ≤ (size - 1).toNat := hpred.ge
  generalize size - 1 = x at hlt hle ⊢
  obtain ⟨h₁, hlt₁⟩ := or_shift_bounds 1 hlt
  generalize x ||| x >>> 1 = x₁ at h₁ hlt₁ ⊢
  obtain ⟨h₂, hlt₂⟩ := or_shift_bounds 2 hlt₁
  generalize x₁ ||| x₁ >>> 2 = x₂ at h₂ hlt₂ ⊢
  obtain ⟨h₃, hlt₃⟩ := or_shift_bounds 4 hlt₂
  generalize x₂ ||| x₂ >>> 4 = x₃ at h₃ hlt₃ ⊢
  obtain ⟨h₄, hlt₄⟩ := or_shift_bounds 8 hlt₃
  generalize x₃ ||| x₃ >>> 8 = x₄ at h₄ hlt₄ ⊢
  obtain ⟨h₅, hlt₅⟩ := or_shift_bounds 16 hlt₄
  generalize x₄ ||| x₄ >>> 16 = x₅ at h₅ hlt₅ ⊢
  obtain ⟨h₆, hlt₆⟩ := or_shift_bounds 32 hlt₅
  rw [UInt64.toNat_add, show (1 : UInt64).toNat = 1 from rfl, Nat.mod_eq_of_lt (by omega)]
  omega

/-- A number that starts with `j` ones starts with twice as many once a copy of it, shifted by `j`
places, has been added to it. -/
theorem or_shift_ones {n j i : ℕ} (hlt : n < 2 ^ (j + (j + i)))
    (h : 2 ^ (j + (j + i)) - 2 ^ (j + i) ≤ n) : 2 ^ (j + (j + i)) - 2 ^ i ≤ n ||| n / 2 ^ j := by
  have hm : 2 ^ (j + (j + i)) = 2 ^ j * 2 ^ (j + i) := pow_add 2 j (j + i)
  have hi : 2 ^ (j + i) = 2 ^ j * 2 ^ i := pow_add 2 j i
  have hshift : n / 2 ^ j < 2 ^ (j + i) := Nat.div_lt_of_lt_mul (hm ▸ hlt)
  have hones : 2 ^ (j + i) - 2 ^ i ≤ n / 2 ^ j := by
    rw [Nat.le_div_iff_mul_le (Nat.two_pow_pos j), Nat.mul_comm, Nat.mul_sub, ← hm, ← hi]
    exact h
  have hhigh : 2 ^ j - 1 ≤ n / 2 ^ (j + i) := by
    rw [Nat.le_div_iff_mul_le (Nat.two_pow_pos (j + i)), Nat.sub_mul, Nat.one_mul, ← hm]
    exact h
  have hsplit : n ||| n / 2 ^ j =
      2 ^ (j + i) * (n / 2 ^ (j + i)) + (n % 2 ^ (j + i) ||| n / 2 ^ j) := by
    have hlow : n % 2 ^ (j + i) < 2 ^ (j + i) := Nat.mod_lt _ (Nat.two_pow_pos _)
    rw [Nat.two_pow_add_eq_or_of_lt (Nat.or_lt_two_pow hlow hshift), ← Nat.or_assoc,
      ← Nat.two_pow_add_eq_or_of_lt hlow, Nat.div_add_mod]
  have hor : n / 2 ^ j ≤ n % 2 ^ (j + i) ||| n / 2 ^ j := Nat.right_le_or
  have hmul := Nat.mul_le_mul_left (2 ^ (j + i)) hhigh
  rw [Nat.mul_sub, Nat.mul_one, Nat.mul_comm, ← hm] at hmul
  have hle : 2 ^ (j + i) ≤ 2 ^ (j + (j + i)) := Nat.pow_le_pow_right Nat.two_pos (by omega)
  omega

theorem or_shift_top {x : UInt64} (k : UInt64) {i : ℕ} (hk : k.toNat + (k.toNat + i) = 64)
    (h : 2 ^ 64 - 2 ^ (k.toNat + i) ≤ x.toNat) : 2 ^ 64 - 2 ^ i ≤ (x ||| x >>> k).toNat := by
  have hlt := x.toNat_lt
  rw [UInt64.toNat_or, UInt64.toNat_shiftRight, Nat.mod_eq_of_lt (by omega),
    Nat.shiftRight_eq_div_pow]
  rw [← hk] at hlt h ⊢
  exact or_shift_ones hlt h

/-- Above `2 ^ 63`, rounding up wraps around. -/
theorem roundUpPow2_of_lt {size : UInt64} (h : 2 ^ 63 < size.toNat) : roundUpPow2 size = 0 := by
  have hne : size ≠ 0 := by
    rintro rfl
    exact absurd h (by decide)
  have hpred : (size - 1).toNat = size.toNat - 1 :=
    UInt64.toNat_sub_of_le _ _ (UInt64.le_iff_toNat_le.mpr (Nat.one_le_of_lt h))
  have h₀ : 2 ^ 64 - 2 ^ 63 ≤ (size - 1).toNat := by omega
  rw [roundUpPow2, if_neg hne]
  dsimp only
  generalize size - 1 = x at h₀ ⊢
  have h₁ := or_shift_top 1 (i := 62) rfl h₀
  generalize x ||| x >>> 1 = x₁ at h₁ ⊢
  have h₂ := or_shift_top 2 (i := 60) rfl h₁
  generalize x₁ ||| x₁ >>> 2 = x₂ at h₂ ⊢
  have h₃ := or_shift_top 4 (i := 56) rfl h₂
  generalize x₂ ||| x₂ >>> 4 = x₃ at h₃ ⊢
  have h₄ := or_shift_top 8 (i := 48) rfl h₃
  generalize x₃ ||| x₃ >>> 8 = x₄ at h₄ ⊢
  have h₅ := or_shift_top 16 (i := 32) rfl h₄
  generalize x₄ ||| x₄ >>> 16 = x₅ at h₅ ⊢
  have h₆ := or_shift_top 32 (i := 0) rfl h₅
  have hlt := (x₅ ||| x₅ >>> 32).toNat_lt
  rw [← UInt64.toNat_inj, UInt64.toNat_add, show (1 : UInt64).toNat = 1 from rfl,
    show (0 : UInt64).toNat = 0 from rfl]
  omega

theorem le_alignedSize {size : UInt64} (hsize : size ≠ 0) (h : size.toNat ≤ 2 ^ 63) :
    size.toNat ≤ (alignedSize size).toNat := by
  have hround := le_roundUpPow2 hsize h
  rw [alignedSize]
  split_ifs with hlt
  · exact hround.trans (UInt64.le_iff_toNat_le.mp (UInt64.le_of_lt hlt))
  · exact hround

/-! ### Orders -/

theorem double_toNat {block : UInt64} {n : ℕ} (h : block.toNat * 2 ^ (n + 1) < 2 ^ 64) :
    (block * 2).toNat = block.toNat * 2 := by
  have hpow := Nat.two_pow_pos n
  have htwo : (2 : UInt64).toNat = 2 := rfl
  rw [UInt64.toNat_mul, htwo]
  refine Nat.mod_eq_of_lt (Nat.lt_of_le_of_lt (Nat.mul_le_mul_left _ ?_) h)
  rw [Nat.pow_succ]
  omega

/-- The loop leaves at an order whose blocks cover the size, or at the last one. -/
theorem orderLoop_spec (size : UInt64) (n : ℕ) (block : UInt64) (order : ℕ)
    (hblock : block.toNat * 2 ^ n < 2 ^ 64) (hlt : orderLoop size n block order < order + n) :
    size.toNat * 2 ^ order ≤ block.toNat * 2 ^ orderLoop size n block order := by
  induction n generalizing block order with
  | zero => exact absurd hlt (Nat.lt_irrefl _)
  | succ n ih =>
    rw [orderLoop] at hlt ⊢
    by_cases hsmall : block < size
    · have hdouble := double_toNat hblock
      rw [if_pos hsmall] at hlt ⊢
      have hnext := ih (block * 2) (order + 1)
        (by rw [hdouble, Nat.mul_assoc, ← Nat.pow_succ']; exact hblock) (by omega)
      rw [hdouble, Nat.pow_succ] at hnext
      linarith
    · rw [if_neg hsmall]
      exact Nat.mul_le_mul_right _ (UInt64.le_iff_toNat_le.mp (UInt64.not_lt.mp hsmall))

theorem le_orderForSize {size : UInt64} (h : orderForSize size < gpuBuddyMaxOrder) :
    size.toNat ≤ 2 ^ orderForSize size * 4096 := by
  have hspec := orderLoop_spec size gpuBuddyMaxOrder gpuBuddyMinBlockSize 0 (by decide)
    (by rw [Nat.zero_add]; exact h)
  rw [Nat.pow_zero, Nat.mul_one] at hspec
  exact hspec.trans_eq (Nat.mul_comm _ _)

/-- The order of a request covers it, or is the highest there is. -/
theorem le_order_of_request {size : UInt64} (hsize : size ≠ 0) (h : size.toNat ≤ 2 ^ 63)
    (horder : orderForSize (alignedSize size) < gpuBuddyMaxOrder) :
    size.toNat ≤ 2 ^ orderForSize (alignedSize size) * 4096 :=
  (le_alignedSize hsize h).trans (le_orderForSize horder)

/-- Such a request is taken for a page. -/
theorem orderForSize_of_lt {size : UInt64} (h : 2 ^ 63 < size.toNat) :
    orderForSize (alignedSize size) = 0 := by
  have haligned : alignedSize size = gpuBuddyMinBlockSize := by
    rw [alignedSize, roundUpPow2_of_lt h]
    decide
  rw [haligned]
  decide

/-! ### The initial block -/

theorem maxOrderLoop_le (size : UInt64) (n i k : ℕ) (hi : i ≤ k) (hk : k < i + n)
    (hcovers : ¬blockSize k < size) :
    ∃ order ≤ k, GpuBuddy.maxOrderLoop size n i = some order := by
  induction n generalizing i with
  | zero => omega
  | succ n ih =>
    rw [GpuBuddy.maxOrderLoop]
    by_cases hsmall : blockSize i < size
    · have hne : i ≠ k := by
        rintro rfl
        exact hcovers hsmall
      rw [if_pos hsmall]
      exact ih (i + 1) (by omega) (by omega)
    · exact ⟨i, hi, if_neg hsmall⟩

/-- A pool that fits into a block of order `k` gets an initial block of no higher order. -/
theorem gpuBuddyInit_of_le (base : UInt64) {size : UInt64} {k : ℕ} (hk : k < 64)
    (hcovers : ¬blockSize k < size) :
    ∃ N ≤ min k gpuBuddyMaxOrder,
      GpuBuddy.gpuBuddyInit base size = some (GpuBuddy.fresh base N) := by
  obtain ⟨order, hle, hloop⟩ := maxOrderLoop_le size 64 0 k (Nat.zero_le k) (by omega) hcovers
  refine ⟨min order gpuBuddyMaxOrder, min_le_min_right _ hle, ?_⟩
  rw [GpuBuddy.gpuBuddyInit, hloop]
  rfl

end UsrLinuxEmu.GpuCore
