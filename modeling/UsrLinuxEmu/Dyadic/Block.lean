import Mathlib.Data.List.Perm.Basic
import Mathlib.Data.List.Nodup
import Mathlib.Algebra.BigOperators.Group.List.Basic
import Mathlib.Algebra.Order.BigOperators.Group.List
import Mathlib.Tactic.Ring

/-!
# Dyadic blocks

The blocks of order `k` are the intervals of length `2 ^ k` that start at a multiple of it.  A block
of order `k + 1` has two halves of order `k`, which are each other's buddy.

* `Block`, with `left`, `right`, `parent` and `buddy`;
* `Packed N L` — the blocks of `L` are pairwise apart and lie in `[0, 2 ^ N)`;
* `Packed.split` / `Packed.merge` — a block can be replaced by its halves and back;
* `Packed.eq_root` — blocks that fill `[0, 2 ^ N)` with no two buddies among them are the whole.
-/

namespace UsrLinuxEmu.Dyadic

/-- The interval `[index * 2 ^ order, (index + 1) * 2 ^ order)`. -/
structure Block where
  order : ℕ
  index : ℕ
  deriving DecidableEq

namespace Block

def size (b : Block) : ℕ := 2 ^ b.order

def start (b : Block) : ℕ := b.index * 2 ^ b.order

def stop (b : Block) : ℕ := (b.index + 1) * 2 ^ b.order

/-- All of `[0, 2 ^ N)`. -/
def root (N : ℕ) : Block := ⟨N, 0⟩

def left (b : Block) : Block := ⟨b.order - 1, 2 * b.index⟩

def right (b : Block) : Block := ⟨b.order - 1, 2 * b.index + 1⟩

def parent (b : Block) : Block := ⟨b.order + 1, b.index / 2⟩

def buddy (b : Block) : Block :=
  ⟨b.order, if b.index % 2 = 0 then b.index + 1 else b.index - 1⟩

def Apart (b c : Block) : Prop := b.stop ≤ c.start ∨ c.stop ≤ b.start

theorem Apart.symm {b c : Block} (h : b.Apart c) : c.Apart b := Or.symm h

theorem stop_eq (b : Block) : b.stop = b.start + b.size := by
  unfold stop start size
  ring

theorem size_pos (b : Block) : 0 < b.size := Nat.two_pow_pos b.order

theorem not_apart_self (b : Block) : ¬ b.Apart b := by
  have hpos := b.size_pos
  have hstop := b.stop_eq
  rintro (h | h) <;> omega

theorem order_le_of_stop_le {b : Block} {N : ℕ} (h : b.stop ≤ 2 ^ N) : b.order ≤ N := by
  have hsize : 2 ^ b.order ≤ 2 ^ N := by
    have hle : b.size ≤ b.stop := by
      rw [stop_eq]
      exact Nat.le_add_left _ _
    exact hle.trans h
  exact (Nat.pow_le_pow_iff_right (by decide)).mp hsize

/-! ### Halves and buddies -/

section Halves

variable {b : Block}

theorem size_half (h : 0 < b.order) : b.size = 2 * 2 ^ (b.order - 1) := by
  have horder : b.order = b.order - 1 + 1 := by omega
  rw [size, horder, Nat.pow_succ, Nat.add_sub_cancel]
  ring

theorem left_start (h : 0 < b.order) : b.left.start = b.start := by
  have hsize := size_half h
  unfold size at hsize
  simp only [left, start, hsize]
  ring

theorem left_stop (h : 0 < b.order) : b.left.stop = b.start + 2 ^ (b.order - 1) := by
  rw [stop_eq, left_start h]
  rfl

theorem right_start (h : 0 < b.order) : b.right.start = b.start + 2 ^ (b.order - 1) := by
  have hsize := size_half h
  unfold size at hsize
  simp only [right, start, hsize]
  ring

theorem right_stop (h : 0 < b.order) : b.right.stop = b.stop := by
  rw [stop_eq, stop_eq, right_start h, size_half h]
  simp only [right, size]
  ring

theorem parent_left (h : b.index % 2 = 0) : b.parent.left = b := by
  have hindex : 2 * (b.index / 2) = b.index := by omega
  simp only [parent, left, Nat.add_sub_cancel, hindex]

theorem parent_right (h : b.index % 2 ≠ 0) : b.parent.right = b := by
  have hindex : 2 * (b.index / 2) + 1 = b.index := by omega
  simp only [parent, right, Nat.add_sub_cancel, hindex]

theorem buddy_index_even (h : b.index % 2 = 0) : b.buddy = ⟨b.order, b.index + 1⟩ := by
  simp [buddy, h]

theorem buddy_index_odd (h : b.index % 2 ≠ 0) : b.buddy = ⟨b.order, b.index - 1⟩ := by
  simp [buddy, h]

/-- A block and its buddy are the halves of the parent. -/
theorem halves_of_parent (b : Block) :
    (b.parent.left = b ∧ b.parent.right = b.buddy) ∨
      (b.parent.left = b.buddy ∧ b.parent.right = b) := by
  by_cases h : b.index % 2 = 0
  · refine .inl ⟨parent_left h, ?_⟩
    have hodd : (b.index + 1) % 2 ≠ 0 := by omega
    have hhalf : (b.index + 1) / 2 = b.index / 2 := by omega
    rw [buddy_index_even h, ← parent_right (b := ⟨b.order, b.index + 1⟩) hodd]
    simp only [parent, hhalf]
  · refine .inr ⟨?_, parent_right h⟩
    have heven : (b.index - 1) % 2 = 0 := by omega
    have hhalf : (b.index - 1) / 2 = b.index / 2 := by omega
    rw [buddy_index_odd h, ← parent_left (b := ⟨b.order, b.index - 1⟩) heven]
    simp only [parent, hhalf]

theorem parent_start (b : Block) : b.parent.start = min b.start b.buddy.start := by
  have hpow := Nat.two_pow_pos b.order
  by_cases h : b.index % 2 = 0
  · have hindex : b.index / 2 * 2 = b.index := by omega
    have hle : b.index * 2 ^ b.order ≤ (b.index + 1) * 2 ^ b.order :=
      Nat.mul_le_mul_right _ (Nat.le_succ _)
    rw [buddy_index_even h]
    simp only [parent, start, Nat.pow_succ, Nat.min_eq_left hle]
    calc b.index / 2 * (2 ^ b.order * 2) = b.index / 2 * 2 * 2 ^ b.order := by ring
      _ = b.index * 2 ^ b.order := by rw [hindex]
  · have hindex : b.index / 2 * 2 = b.index - 1 := by omega
    have hle : (b.index - 1) * 2 ^ b.order ≤ b.index * 2 ^ b.order :=
      Nat.mul_le_mul_right _ (Nat.sub_le _ _)
    rw [buddy_index_odd h]
    simp only [parent, start, Nat.pow_succ, Nat.min_eq_right hle]
    calc b.index / 2 * (2 ^ b.order * 2) = b.index / 2 * 2 * 2 ^ b.order := by ring
      _ = (b.index - 1) * 2 ^ b.order := by rw [hindex]

/-- The buddy of a block smaller than the whole lies in the whole. -/
theorem buddy_stop_le {N : ℕ} (hinside : b.stop ≤ 2 ^ N) (h : b.order < N) :
    b.buddy.stop ≤ 2 ^ N := by
  have hpow : 2 ^ N = 2 * 2 ^ (N - b.order - 1) * 2 ^ b.order := by
    rw [← Nat.pow_succ', ← Nat.pow_add]
    congr 1
    omega
  have hindex : b.index + 1 ≤ 2 * 2 ^ (N - b.order - 1) := by
    refine Nat.le_of_mul_le_mul_right ?_ (Nat.two_pow_pos b.order)
    rwa [← hpow]
  have hbuddy : b.buddy.index + 1 ≤ 2 * 2 ^ (N - b.order - 1) := by
    simp only [buddy]
    split_ifs <;> omega
  rw [hpow]
  exact Nat.mul_le_mul_right _ hbuddy

/-- What is apart from a block is what is apart from both halves. -/
theorem apart_halves {c : Block} (h : 0 < b.order) :
    (b.left.Apart c ∧ b.right.Apart c) ↔ b.Apart c := by
  have hpos := c.size_pos
  have hstop := c.stop_eq
  have hb := b.stop_eq
  have hhalf := size_half h
  have hpow := Nat.two_pow_pos (b.order - 1)
  unfold Apart
  rw [left_start h, left_stop h, right_start h, right_stop h]
  omega

theorem left_apart_right (h : 0 < b.order) : b.left.Apart b.right := by
  refine .inl ?_
  rw [left_stop h, right_start h]

end Halves

end Block

/-! ### Families of blocks -/

open Block

def volume (L : List Block) : ℕ := (L.map size).sum

@[simp] theorem volume_nil : volume [] = 0 := rfl

@[simp] theorem volume_cons (b : Block) (L : List Block) : volume (b :: L) = b.size + volume L := by
  simp [volume]

theorem volume_perm {L L' : List Block} (h : L.Perm L') : volume L = volume L' :=
  (h.map size).sum_eq

structure Packed (N : ℕ) (L : List Block) : Prop where
  inside : ∀ b ∈ L, b.stop ≤ 2 ^ N
  apart : L.Pairwise Apart

namespace Packed

variable {N : ℕ} {L L' : List Block} {b : Block}

theorem perm (h : Packed N L) (hperm : L.Perm L') : Packed N L' where
  inside := fun b hb => h.inside b (hperm.mem_iff.mpr hb)
  apart := (hperm.pairwise_iff fun hab => hab.symm).mp h.apart

theorem sublist (h : Packed N L) (hsub : L'.Sublist L) : Packed N L' where
  inside := fun b hb => h.inside b (hsub.subset hb)
  apart := h.apart.sublist hsub

theorem tail (h : Packed N (b :: L)) : Packed N L := h.sublist (List.sublist_cons_self b L)

theorem nodup (h : Packed N L) : L.Nodup := by
  refine h.apart.imp ?_
  rintro b c hapart rfl
  exact b.not_apart_self hapart

theorem singleton_root (N : ℕ) : Packed N [root N] := by
  refine ⟨fun b hb => ?_, List.pairwise_singleton _ _⟩
  rw [List.mem_singleton.mp hb]
  simp [root, stop]

theorem split (h : Packed N (b :: L)) (hb : 0 < b.order) :
    Packed N (b.left :: b.right :: L) where
  inside := by
    have hinside := h.inside b List.mem_cons_self
    intro c hc
    rcases List.mem_cons.mp hc with rfl | hc
    · have hsize := b.stop_eq
      rw [size_half hb] at hsize
      rw [left_stop hb]
      omega
    · rcases List.mem_cons.mp hc with rfl | hc
      · rw [right_stop hb]
        exact hinside
      · exact h.inside c (List.mem_cons_of_mem b hc)
  apart := by
    obtain ⟨hapart, hrest⟩ := List.pairwise_cons.mp h.apart
    refine List.pairwise_cons.mpr ⟨fun c hc => ?_, List.pairwise_cons.mpr ⟨fun c hc => ?_, hrest⟩⟩
    · rcases List.mem_cons.mp hc with rfl | hc
      · exact left_apart_right hb
      · exact ((apart_halves hb).mpr (hapart c hc)).1
    · exact ((apart_halves hb).mpr (hapart c hc)).2

/-- The converse of `split`. -/
theorem join (h : Packed N (b.left :: b.right :: L)) (hb : 0 < b.order) : Packed N (b :: L) where
  inside := by
    intro c hc
    rcases List.mem_cons.mp hc with rfl | hc
    · rw [← right_stop hb]
      exact h.inside _ (List.mem_cons_of_mem _ List.mem_cons_self)
    · exact h.inside c (List.mem_cons_of_mem _ (List.mem_cons_of_mem _ hc))
  apart := by
    obtain ⟨hleft, hrest⟩ := List.pairwise_cons.mp h.apart
    obtain ⟨hright, hrest⟩ := List.pairwise_cons.mp hrest
    refine List.pairwise_cons.mpr ⟨fun c hc => ?_, hrest⟩
    exact (apart_halves hb).mp ⟨hleft c (List.mem_cons_of_mem _ hc), hright c hc⟩

theorem merge (h : Packed N (b :: b.buddy :: L)) : Packed N (b.parent :: L) := by
  have hpos : 0 < b.parent.order := Nat.succ_pos _
  rcases b.halves_of_parent with ⟨hleft, hright⟩ | ⟨hleft, hright⟩
  · refine join ?_ hpos
    rwa [hleft, hright]
  · refine join ?_ hpos
    rw [hleft, hright]
    exact h.perm (List.Perm.swap _ _ _)

end Packed

/-! ### Packed families by halves -/

namespace Block

/-- The block in the upper half of `[0, 2 ^ (N + 1))` that corresponds to `b`. -/
def shift (N : ℕ) (b : Block) : Block := ⟨b.order, b.index + 2 ^ (N - b.order)⟩

def unshift (N : ℕ) (b : Block) : Block := ⟨b.order, b.index - 2 ^ (N - b.order)⟩

variable {N : ℕ} {b : Block}

theorem pow_sub_mul (h : b.order ≤ N) : 2 ^ (N - b.order) * 2 ^ b.order = 2 ^ N := by
  rw [← Nat.pow_add, Nat.sub_add_cancel h]

theorem shift_start (h : b.order ≤ N) : (b.shift N).start = b.start + 2 ^ N := by
  simp only [shift, start, Nat.add_mul, pow_sub_mul h]

theorem shift_stop (h : b.order ≤ N) : (b.shift N).stop = b.stop + 2 ^ N := by
  rw [stop_eq, stop_eq, shift_start h]
  simp only [shift, size]
  ring

theorem shift_unshift (h : b.order ≤ N) (hstart : 2 ^ N ≤ b.start) :
    (b.unshift N).shift N = b := by
  have hindex : 2 ^ (N - b.order) ≤ b.index := by
    refine Nat.le_of_mul_le_mul_right ?_ (Nat.two_pow_pos b.order)
    rwa [pow_sub_mul h]
  simp only [unshift, shift, Nat.sub_add_cancel hindex]

theorem shift_buddy (h : b.order < N) : b.buddy.shift N = (b.shift N).buddy := by
  have heven : 2 ^ (N - b.order) % 2 = 0 := by
    have hexp : N - b.order = N - b.order - 1 + 1 := by omega
    rw [hexp, Nat.pow_succ, Nat.mul_mod_left]
  have hpos := Nat.two_pow_pos (N - b.order)
  by_cases hb : b.index % 2 = 0
  · have hsum : (b.index + 2 ^ (N - b.order)) % 2 = 0 := by omega
    simp only [buddy, shift, hb, hsum, if_true]
    congr 1
    omega
  · have hsum : (b.index + 2 ^ (N - b.order)) % 2 ≠ 0 := by omega
    simp only [buddy, shift, hb, hsum, if_false]
    congr 1
    omega

/-- A block smaller than the whole lies in one half. -/
theorem half_of_order_le (h : b.order ≤ N) : b.stop ≤ 2 ^ N ∨ 2 ^ N ≤ b.start := by
  unfold stop start
  rw [← pow_sub_mul h]
  rcases Nat.lt_or_ge b.index (2 ^ (N - b.order)) with hlt | hge
  · exact .inl (Nat.mul_le_mul_right _ hlt)
  · exact .inr (Nat.mul_le_mul_right _ hge)

theorem eq_root_of_order (hinside : b.stop ≤ 2 ^ N) (horder : b.order = N) : b = root N := by
  have hone : b.index + 1 ≤ 1 := by
    refine Nat.le_of_mul_le_mul_right ?_ (Nat.two_pow_pos b.order)
    rw [Nat.one_mul, horder]
    rwa [stop, horder] at hinside
  have hindex : b.index = 0 := by omega
  rw [root, ← horder, ← hindex]

end Block

namespace Packed

variable {N : ℕ} {L : List Block}

/-- Beside the whole there is room for nothing else. -/
theorem eq_singleton_of_root_mem (h : Packed N L) (hroot : root N ∈ L) : L = [root N] := by
  obtain ⟨L₁, L₂, rfl⟩ := List.append_of_mem hroot
  have hperm : (L₁ ++ root N :: L₂).Perm (root N :: (L₁ ++ L₂)) := List.perm_middle
  have hpacked := h.perm hperm
  have hnone : L₁ ++ L₂ = [] := by
    refine List.eq_nil_iff_forall_not_mem.mpr fun c hc => ?_
    have hinside := hpacked.inside c (List.mem_cons_of_mem _ hc)
    have hpos := c.size_pos
    have hstop := c.stop_eq
    rcases (List.pairwise_cons.mp hpacked.apart).1 c hc with hle | hle
    · simp only [root, stop, Nat.zero_add, Nat.one_mul] at hle
      omega
    · simp only [root, start, Nat.zero_mul] at hle
      omega
  obtain ⟨rfl, rfl⟩ := List.append_eq_nil_iff.mp hnone
  rfl

/-- The upper half, moved down. -/
theorem of_shift (h : Packed (N + 1) (L.map (shift N))) (horder : ∀ b ∈ L, b.order ≤ N) :
    Packed N L where
  inside := by
    intro b hb
    have hinside := h.inside _ (List.mem_map_of_mem hb)
    rw [shift_stop (horder b hb), Nat.pow_succ] at hinside
    omega
  apart := by
    refine (List.pairwise_map.mp h.apart).imp_of_mem fun {b c} hb hc hapart => ?_
    unfold Apart at hapart ⊢
    rw [shift_start (horder b hb), shift_start (horder c hc), shift_stop (horder b hb),
      shift_stop (horder c hc)] at hapart
    omega

theorem volume_shift (N : ℕ) (L : List Block) : volume (L.map (shift N)) = volume L := by
  rw [volume, List.map_map]
  rfl

/-- Without the whole among them the blocks fall into the two halves. -/
theorem halves (h : Packed (N + 1) L) (hroot : root (N + 1) ∉ L) :
    ∃ L₁ L₂, Packed N L₁ ∧ Packed N L₂ ∧ L.Perm (L₁ ++ L₂.map (shift N)) ∧
      ∀ b ∈ L₂, b.order ≤ N := by
  have horder : ∀ b ∈ L, b.order ≤ N := by
    intro b hb
    have hle := order_le_of_stop_le (h.inside b hb)
    rcases Nat.lt_or_eq_of_le hle with hlt | heq
    · exact Nat.le_of_lt_succ hlt
    · exact absurd (eq_root_of_order (h.inside b hb) heq ▸ hb) hroot
  let low : Block → Bool := fun b => decide (b.stop ≤ 2 ^ N)
  have hhigh : ∀ b ∈ L.filter (fun b => !low b), b.order ≤ N ∧ 2 ^ N ≤ b.start := by
    intro b hb
    obtain ⟨hmem, hlow⟩ := List.mem_filter.mp hb
    have hnot : ¬ b.stop ≤ 2 ^ N := by simpa [low] using hlow
    exact ⟨horder b hmem, (half_of_order_le (horder b hmem)).resolve_left hnot⟩
  have hback : ((L.filter fun b => !low b).map (unshift N)).map (shift N) =
      L.filter fun b => !low b := by
    rw [List.map_map]
    refine (List.map_congr_left fun b hb => ?_).trans (List.map_id _)
    exact shift_unshift (hhigh b hb).1 (hhigh b hb).2
  refine ⟨L.filter low, (L.filter fun b => !low b).map (unshift N), ?_, ?_, ?_, ?_⟩
  · refine ⟨fun b hb => ?_, h.apart.sublist List.filter_sublist⟩
    simpa [low] using (List.mem_filter.mp hb).2
  · have hhalf := (h.sublist (List.filter_sublist (p := fun b => !low b)))
    rw [← hback] at hhalf
    exact of_shift hhalf fun b hb => by
      obtain ⟨c, hc, rfl⟩ := List.mem_map.mp hb
      exact (hhigh c hc).1
  · rw [hback]
    exact (List.filter_append_perm low L).symm
  · intro b hb
    obtain ⟨c, hc, rfl⟩ := List.mem_map.mp hb
    exact (hhigh c hc).1

theorem volume_append (L₁ L₂ : List Block) : volume (L₁ ++ L₂) = volume L₁ + volume L₂ := by
  simp [volume]

theorem volume_le (h : Packed N L) : volume L ≤ 2 ^ N := by
  induction N generalizing L with
  | zero =>
    rcases L with _ | ⟨b, L⟩
    · simp
    · have horder : b.order = 0 :=
        Nat.le_zero.mp (order_le_of_stop_le (h.inside b List.mem_cons_self))
      have hroot := eq_root_of_order (h.inside b List.mem_cons_self) horder
      rw [h.eq_singleton_of_root_mem (hroot ▸ List.mem_cons_self)]
      exact Nat.le_refl 1
  | succ N ih =>
    by_cases hroot : root (N + 1) ∈ L
    · rw [h.eq_singleton_of_root_mem hroot]
      exact Nat.le_refl _
    · obtain ⟨L₁, L₂, h₁, h₂, hperm, -⟩ := h.halves hroot
      rw [volume_perm hperm, volume_append, volume_shift, Nat.pow_succ]
      have hle₁ := ih h₁
      have hle₂ := ih h₂
      omega

/-- **Coalescing.**  Blocks that fill `[0, 2 ^ N)`, no two of them buddies, are the whole. -/
theorem eq_root (h : Packed N L) (hvolume : volume L = 2 ^ N)
    (hcoalesced : ∀ b ∈ L, b.order < N → b.buddy ∉ L) : L = [root N] := by
  induction N generalizing L with
  | zero =>
    rcases L with _ | ⟨b, L⟩
    · exact absurd hvolume (by simp)
    · have horder : b.order = 0 :=
        Nat.le_zero.mp (order_le_of_stop_le (h.inside b List.mem_cons_self))
      have hroot := eq_root_of_order (h.inside b List.mem_cons_self) horder
      exact h.eq_singleton_of_root_mem (hroot ▸ List.mem_cons_self)
  | succ N ih =>
    by_cases hroot : root (N + 1) ∈ L
    · exact h.eq_singleton_of_root_mem hroot
    obtain ⟨L₁, L₂, h₁, h₂, hperm, horder⟩ := h.halves hroot
    have hle₁ := h₁.volume_le
    have hle₂ := h₂.volume_le
    rw [volume_perm hperm, volume_append, volume_shift, Nat.pow_succ] at hvolume
    -- each half is full, and so a single block
    have hlow : L₁ = [root N] := by
      refine ih h₁ (by omega) fun b hb hlt hbuddy => ?_
      exact hcoalesced b (hperm.mem_iff.mpr (List.mem_append_left _ hb)) (Nat.lt_succ_of_lt hlt)
        (hperm.mem_iff.mpr (List.mem_append_left _ hbuddy))
    have hhigh : L₂ = [root N] := by
      refine ih h₂ (by omega) fun b hb hlt hbuddy => ?_
      refine hcoalesced (b.shift N)
        (hperm.mem_iff.mpr (List.mem_append_right _ (List.mem_map_of_mem hb)))
        (Nat.lt_succ_of_lt hlt) (hperm.mem_iff.mpr (List.mem_append_right _ ?_))
      rw [← shift_buddy hlt]
      exact List.mem_map_of_mem hbuddy
    have hmem : ∀ b, b ∈ [root N, (root N).shift N] → b ∈ L := by
      intro b hb
      rw [hperm.mem_iff, hlow, hhigh]
      exact hb
    refine absurd (hmem _ (List.mem_cons_of_mem _ List.mem_cons_self)) ?_
    have hbuddy : (root N).shift N = (root N).buddy := by simp [root, shift, buddy]
    rw [hbuddy]
    exact hcoalesced (root N) (hmem _ List.mem_cons_self) (Nat.lt_succ_self N)

end Packed

end UsrLinuxEmu.Dyadic
