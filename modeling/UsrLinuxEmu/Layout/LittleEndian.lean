import Mathlib.Data.Nat.Notation
import Mathlib.Tactic.Ring
import Mathlib.Tactic.SplitIfs

/-!
# Little-endian words in a byte memory

A memory gives every address a byte; a word of `n` bytes lies at `n` consecutive addresses, its
least byte first.

* `loadLe`, `storeLe` — reading and writing a word;
* `storeLe_outside` — a store changes the word's bytes only;
* `loadLe_storeLe_self`, `loadLe_storeLe_of_disjoint` — what a load sees of a store;
* `storeLe_eq_self_iff` — a store changes nothing exactly when the word was there before;
* `HoldsAt` — a list of bytes lies at an address.
-/

namespace UsrLinuxEmu.Layout

abbrev Memory := ℕ → UInt8

/-- The word of `n` bytes at `a`. -/
def loadLe (m : Memory) (a : ℕ) : ℕ → ℕ
  | 0 => 0
  | n + 1 => (m a).toNat + 256 * loadLe m (a + 1) n

/-- The low `n` bytes of `v` go to the addresses from `a` on. -/
def storeLe (m : Memory) (a n v : ℕ) : Memory := fun x =>
  if a ≤ x ∧ x < a + n then UInt8.ofNat (v / 256 ^ (x - a)) else m x

theorem storeLe_outside {m : Memory} {a n v x : ℕ} (h : x < a ∨ a + n ≤ x) :
    storeLe m a n v x = m x := by
  rw [storeLe, if_neg (by omega)]

theorem storeLe_inside {m : Memory} {a n v x : ℕ} (h : a ≤ x) (h' : x < a + n) :
    storeLe m a n v x = UInt8.ofNat (v / 256 ^ (x - a)) := by
  rw [storeLe, if_pos ⟨h, h'⟩]

/-- A load depends on the word's bytes only. -/
theorem loadLe_congr {m m' : Memory} {a n : ℕ} (h : ∀ x, a ≤ x → x < a + n → m x = m' x) :
    loadLe m a n = loadLe m' a n := by
  induction n generalizing a with
  | zero => rfl
  | succ n ih =>
    have htail : loadLe m (a + 1) n = loadLe m' (a + 1) n := by
      apply ih
      intro x hx hx'
      exact h x (by omega) (by omega)
    rw [loadLe, loadLe, htail, h a (by omega) (by omega)]

theorem loadLe_lt (m : Memory) (a n : ℕ) : loadLe m a n < 256 ^ n := by
  induction n generalizing a with
  | zero => exact Nat.one_pos
  | succ n ih =>
    have hbyte := (m a).toNat_lt
    have htail := ih (a + 1)
    rw [loadLe, Nat.pow_succ]
    omega

theorem loadLe_storeLe_of_disjoint {m : Memory} {a n v b k : ℕ} (h : b + k ≤ a ∨ a + n ≤ b) :
    loadLe (storeLe m a n v) b k = loadLe m b k := by
  apply loadLe_congr
  intro x hx hx'
  apply storeLe_outside
  omega

/-- The word that was stored, cut to its width. -/
theorem loadLe_storeLe_self (m : Memory) (a n v : ℕ) :
    loadLe (storeLe m a n v) a n = v % 256 ^ n := by
  induction n generalizing a v with
  | zero => rw [loadLe, Nat.pow_zero, Nat.mod_one]
  | succ n ih =>
    have hhead : storeLe m a (n + 1) v a = UInt8.ofNat v := by
      rw [storeLe_inside (Nat.le_refl a) (by omega), Nat.sub_self, Nat.pow_zero, Nat.div_one]
    have htail : loadLe (storeLe m a (n + 1) v) (a + 1) n =
        loadLe (storeLe m (a + 1) n (v / 256)) (a + 1) n := by
      apply loadLe_congr
      intro x hx hx'
      have hpos : x - a = x - (a + 1) + 1 := by omega
      rw [storeLe_inside (by omega) (by omega), storeLe_inside hx hx', Nat.div_div_eq_div_mul,
        ← Nat.pow_succ', hpos]
    have hbyte : (2 : ℕ) ^ 8 = 256 := rfl
    rw [loadLe, hhead, htail, ih, UInt8.toNat_ofNat', hbyte, Nat.pow_succ', Nat.mod_mul (x := v)]

/-- Each byte of a word, read off the word. -/
theorem ofNat_loadLe_div (m : Memory) (a n i : ℕ) (h : i < n) :
    UInt8.ofNat (loadLe m a n / 256 ^ i) = m (a + i) := by
  induction n generalizing a i with
  | zero => exact absurd h (Nat.not_lt_zero i)
  | succ n ih =>
    have hbyte := (m a).toNat_lt
    cases i with
    | zero =>
      apply UInt8.toNat_inj.mp
      rw [Nat.pow_zero, Nat.div_one, UInt8.toNat_ofNat', loadLe]
      show _ = (m a).toNat
      omega
    | succ i =>
      have hshift : loadLe m a (n + 1) / 256 ^ (i + 1) = loadLe m (a + 1) n / 256 ^ i := by
        rw [Nat.pow_succ', ← Nat.div_div_eq_div_mul, loadLe,
          show ((m a).toNat + 256 * loadLe m (a + 1) n) / 256 = loadLe m (a + 1) n by omega]
      rw [hshift, ih (a + 1) i (by omega), Nat.add_assoc, Nat.add_comm 1 i]

theorem storeLe_eq_self_iff {m : Memory} {a n v : ℕ} (hv : v < 256 ^ n) :
    storeLe m a n v = m ↔ v = loadLe m a n := by
  constructor
  · intro h
    have hself := loadLe_storeLe_self m a n v
    rw [h, Nat.mod_eq_of_lt hv] at hself
    exact hself.symm
  · rintro rfl
    funext x
    by_cases hx : a ≤ x ∧ x < a + n
    · rw [storeLe_inside hx.1 hx.2, ofNat_loadLe_div m a n (x - a) (by omega),
        Nat.add_sub_cancel' hx.1]
    · exact storeLe_outside (by omega)

/-! ### Lists of bytes -/

/-- The bytes lie at the addresses from `a` on. -/
def HoldsAt (m : Memory) (a : ℕ) (bytes : List UInt8) : Prop :=
  ∀ k x, bytes[k]? = some x → m (a + k) = x

theorem holdsAt_append {m : Memory} {a : ℕ} {front back : List UInt8} :
    HoldsAt m a (front ++ back) ↔
      HoldsAt m a front ∧ HoldsAt m (a + front.length) back := by
  constructor
  · intro h
    constructor
    · intro k x hx
      apply h k x
      rw [List.getElem?_append_left (List.getElem?_eq_some_iff.mp hx).1]
      exact hx
    · intro k x hx
      rw [Nat.add_assoc]
      apply h (front.length + k) x
      rw [List.getElem?_append_right (Nat.le_add_right _ _), Nat.add_sub_cancel_left]
      exact hx
  · rintro ⟨hfront, hback⟩ k x hx
    by_cases hk : k < front.length
    · rw [List.getElem?_append_left hk] at hx
      exact hfront k x hx
    · rw [List.getElem?_append_right (Nat.not_lt.mp hk)] at hx
      have hat := hback (k - front.length) x hx
      rwa [Nat.add_assoc, Nat.add_sub_cancel' (Nat.not_lt.mp hk)] at hat

/-- A vector holds its own bytes. -/
theorem holdsAt_getD (bytes : List UInt8) : HoldsAt (fun k => bytes.getD k 0) 0 bytes := by
  intro k x hx
  show bytes.getD (0 + k) 0 = x
  rw [Nat.zero_add, List.getD_eq_getElem?_getD, hx]
  rfl

/-- Records of one size that lie one after the other are found at the multiples of the size. -/
theorem take_drop_flatMap {α β : Type*} {f : α → List β} {n : ℕ} (hf : ∀ a, (f a).length = n)
    {l : List α} {i : ℕ} {a : α} (h : l[i]? = some a) :
    ((l.flatMap f).drop (i * n)).take n = f a := by
  induction l generalizing i with
  | nil => cases h
  | cons x l ih =>
    rw [List.flatMap_cons]
    cases i with
    | zero =>
      obtain rfl := Option.some.inj h
      rw [Nat.zero_mul, List.drop_zero]
      exact List.take_left' (hf x)
    | succ i =>
      have hskip : (i + 1) * n = (f x).length + i * n := by
        rw [hf, Nat.succ_mul, Nat.add_comm]
      rw [hskip, List.drop_length_add_append]
      exact ih h

end UsrLinuxEmu.Layout
