import Mathlib.Algebra.Order.Ring.Nat

/-!
# Mapped pages

An address space is mapped in whole pages of `w` bytes: `n` bytes from a page's start take as many
pages as they touch.

* `regionBytes` — the bytes that a mapping of `n` bytes really gets;
* `mapPages`, `unmapPages` — the pages of a mapping come and go;
* `Mmap` — an answer of the system to a request for a mapping: the pages were not mapped before;
* `Backed` — every byte of a range is mapped.
-/

namespace UsrLinuxEmu.Layout

/-- The pages that are mapped, by their numbers. -/
abbrev PageMap := ℕ → Bool

variable {w p n : ℕ} {m : PageMap}

def pagesFor (w n : ℕ) : ℕ := (n + (w - 1)) / w

def regionBytes (w n : ℕ) : ℕ := w * pagesFor w n

theorem le_regionBytes (hw : 0 < w) : n ≤ regionBytes w n := by
  have hdiv := Nat.div_add_mod (n + (w - 1)) w
  have hmod := Nat.mod_lt (n + (w - 1)) hw
  unfold regionBytes pagesFor
  omega

theorem pagesFor_pos (hw : 0 < w) (hn : 0 < n) : 0 < pagesFor w n :=
  Nat.div_pos (by omega) hw

/-- The page is one of the mapping at `p` of `n` bytes. -/
def InRegion (w p n page : ℕ) : Prop := p / w ≤ page ∧ page < p / w + pagesFor w n

instance (w p n page : ℕ) : Decidable (InRegion w p n page) :=
  inferInstanceAs (Decidable (_ ∧ _))

/-- A byte of the mapping lies on one of its pages. -/
theorem inRegion_of_byte {a : ℕ} (hw : 0 < w) (hp : w ∣ p) (hle : p ≤ a)
    (hlt : a < p + regionBytes w n) : InRegion w p n (a / w) := by
  obtain ⟨q, rfl⟩ := hp
  have hq : w * q / w = q := Nat.mul_div_cancel_left q hw
  rw [regionBytes, ← Nat.mul_add, Nat.mul_comm w (q + pagesFor w n)] at hlt
  refine ⟨Nat.div_le_div_right hle, ?_⟩
  rw [hq]
  exact (Nat.div_lt_iff_lt_mul hw).mpr hlt

/-- A mapping of at least one byte has a first page. -/
theorem inRegion_first (hw : 0 < w) (hn : 0 < n) : InRegion w p n (p / w) :=
  ⟨le_rfl, Nat.lt_add_of_pos_right (pagesFor_pos hw hn)⟩

def mapPages (w p n : ℕ) (m : PageMap) : PageMap := fun page =>
  if InRegion w p n page then true else m page

def unmapPages (w p n : ℕ) (m : PageMap) : PageMap := fun page =>
  if InRegion w p n page then false else m page

theorem mapPages_of_inRegion {page : ℕ} (h : InRegion w p n page) :
    mapPages w p n m page = true := if_pos h

/-- What was mapped stays mapped. -/
theorem mapPages_of_mapped {page : ℕ} (h : m page = true) : mapPages w p n m page = true := by
  unfold mapPages
  split_ifs
  · rfl
  · exact h

/-- An answer of the system to `mmap`, as a function of the pages that are mapped. -/
structure Mmap (w : ℕ) where
  run : PageMap → ℕ → Option ℕ
  nonempty : ∀ m n p, run m n = some p → 0 < n
  aligned : ∀ m n p, run m n = some p → w ∣ p
  fresh : ∀ m n p, run m n = some p → ∀ page, InRegion w p n page → m page = false

/-- Every byte of the range is mapped. -/
def Backed (w : ℕ) (m : PageMap) (a n : ℕ) : Prop := ∀ b, a ≤ b → b < a + n → m (b / w) = true

/-- No byte of the range is mapped. -/
def Released (w : ℕ) (m : PageMap) (a n : ℕ) : Prop := ∀ b, a ≤ b → b < a + n → m (b / w) = false

theorem backed_of_region (hw : 0 < w) (hp : w ∣ p) (h : ∀ page, InRegion w p n page → m page = true)
    {start length : ℕ} (hroom : start + length ≤ regionBytes w n) :
    Backed w m (p + start) length := by
  intro b hle hlt
  exact h _ (inRegion_of_byte hw hp (by omega) (by omega))

/-- Mapped pages are not released. -/
theorem not_released (hw : 0 < w) (hn : 0 < n) (h : ∀ page, InRegion w p n page → m page = true) :
    ¬Released w m p (regionBytes w n) := by
  intro hreleased
  have hpos : n ≤ regionBytes w n := le_regionBytes hw
  have hfirst := hreleased p le_rfl (by omega)
  rw [h _ (inRegion_first hw hn)] at hfirst
  cases hfirst

end UsrLinuxEmu.Layout
