import Mathlib.Data.List.Basic
import Mathlib.Logic.Function.Basic
import Mathlib.Tactic.SplitIfs

/-!
# Ring buffers with free-running 32-bit indices

The producer and the consumer each advance an index that wraps at `2^32`; a slot is found by
reducing the index modulo the ring size, which need not be a power of two.

* `WrapRing.pending` — the entries published and not yet consumed, oldest first;
* `pending_popFront` — the consumer takes the head of that list;
* `pending_advance` — publishing appends the entry in the next slot;
* `pending_store` — storing into that slot disturbs nothing when the slot is free;
* `slotFree_iff` — the slot is free unless the entries reach across the wrap of the index and the
  ring size does not divide `2^32`.
-/

namespace UsrLinuxEmu.Ring

structure WrapRing (α : Type*) where
  size : UInt32
  size_pos : 0 < size
  writeIdx : UInt32
  readIdx : UInt32
  slot : UInt32 → α

namespace WrapRing

variable {α : Type*}

/-! ### Operations -/

/-- The number of published entries, by wrap-around subtraction. -/
def pendingCount (r : WrapRing α) : UInt32 := r.writeIdx - r.readIdx

/-- The consumer's step: the oldest entry and the ring without it. -/
def popFront (r : WrapRing α) : Option (α × WrapRing α) :=
  if r.readIdx = r.writeIdx then none
  else some (r.slot (r.readIdx % r.size), { r with readIdx := r.readIdx + 1 })

/-- The producer writes its entry into the slot of the write index. -/
def store (r : WrapRing α) (e : α) : WrapRing α :=
  { r with slot := Function.update r.slot (r.writeIdx % r.size) e }

/-- The producer publishes that slot. -/
def advance (r : WrapRing α) : WrapRing α := { r with writeIdx := r.writeIdx + 1 }

/-! ### The abstract queue -/

/-- The `k`-th published entry. -/
def nth (r : WrapRing α) (k : ℕ) : α := r.slot ((r.readIdx + UInt32.ofNat k) % r.size)

def pending (r : WrapRing α) : List α := (List.range r.pendingCount.toNat).map r.nth

/-- The slot of the write index holds no published entry. -/
def SlotFree (r : WrapRing α) : Prop :=
  ∀ k < r.pendingCount.toNat, (r.readIdx + UInt32.ofNat k) % r.size ≠ r.writeIdx % r.size

instance decidableSlotFree (r : WrapRing α) : Decidable r.SlotFree :=
  inferInstanceAs (Decidable (∀ k < r.pendingCount.toNat,
    (r.readIdx + UInt32.ofNat k) % r.size ≠ r.writeIdx % r.size))

/-- One more entry fits without the count wrapping to zero. -/
def NotFull (r : WrapRing α) : Prop := r.pendingCount.toNat + 1 < UInt32.size

instance decidableNotFull (r : WrapRing α) : Decidable r.NotFull :=
  inferInstanceAs (Decidable (r.pendingCount.toNat + 1 < UInt32.size))

/-- The published entries reach across the wrap of the write index, and the slot it has come to is
still taken: `2^32` is not a multiple of the ring size, so the slots start over out of step. -/
def Overruns (r : WrapRing α) : Prop :=
  r.writeIdx < r.readIdx ∧ r.writeIdx.toNat < UInt32.size % r.size.toNat ∧
    UInt32.size % r.size.toNat ≤ r.pendingCount.toNat

instance decidableOverruns (r : WrapRing α) : Decidable r.Overruns :=
  inferInstanceAs (Decidable (_ ∧ _ ∧ _))

theorem pending_eq_nil_iff (r : WrapRing α) : r.pending = [] ↔ r.readIdx = r.writeIdx := by
  rw [pending, List.map_eq_nil_iff, List.range_eq_nil, pendingCount]
  constructor
  · intro h
    have hzero : r.writeIdx - r.readIdx = 0 := UInt32.toNat_inj.mp h
    grind
  · intro h
    rw [h, UInt32.sub_self]
    rfl

theorem popFront_eq_none_iff (r : WrapRing α) : r.popFront = none ↔ r.pending = [] := by
  rw [pending_eq_nil_iff, popFront]
  split_ifs with h <;> simp [h]

/-- Storing into a free slot leaves the published entries alone. -/
theorem pending_store {r : WrapRing α} (h : r.SlotFree) (e : α) :
    (r.store e).pending = r.pending := by
  refine List.map_congr_left fun k hk => ?_
  exact Function.update_of_ne (h k (List.mem_range.mp hk)) e r.slot

theorem store_slot (r : WrapRing α) (e : α) :
    (r.store e).slot (r.writeIdx % r.size) = e := by
  simp [store]

/-- Publishing appends what the next slot holds. -/
theorem pending_advance {r : WrapRing α} (h : r.NotFull) :
    r.advance.pending = r.pending ++ [r.slot (r.writeIdx % r.size)] := by
  have hcount : r.advance.pendingCount.toNat = r.pendingCount.toNat + 1 := by
    have hsub : r.advance.pendingCount = r.pendingCount + 1 := by
      simp only [advance, pendingCount]
      grind
    rw [hsub, UInt32.toNat_add]
    exact Nat.mod_eq_of_lt h
  have hlast : r.readIdx + UInt32.ofNat r.pendingCount.toNat = r.writeIdx := by
    rw [UInt32.ofNat_toNat, pendingCount]
    grind
  rw [pending, hcount, List.range_succ, List.map_append, List.map_singleton]
  congr 2
  change r.slot ((r.readIdx + UInt32.ofNat r.pendingCount.toNat) % r.size) = _
  rw [hlast]

/-- The consumer takes the oldest published entry. -/
theorem pending_popFront {r r' : WrapRing α} {e : α} (h : r.popFront = some (e, r')) :
    r.pending = e :: r'.pending := by
  rw [popFront] at h
  split_ifs at h with hne
  obtain ⟨rfl, rfl⟩ := Prod.mk.inj (Option.some.inj h)
  have hcount : r.pendingCount.toNat = (r.writeIdx - (r.readIdx + 1)).toNat + 1 := by
    have hne' : r.writeIdx.toNat ≠ r.readIdx.toNat := fun heq => hne (UInt32.toNat_inj.mp heq).symm
    have hw := r.writeIdx.toNat_lt
    have hr := r.readIdx.toNat_lt
    rw [pendingCount, UInt32.toNat_sub, UInt32.toNat_sub, UInt32.toNat_add]
    simp only [UInt32.toNat_one]
    omega
  rw [pending, hcount, List.range_succ_eq_map, List.map_cons, List.map_map]
  refine congrArg₂ List.cons ?_ (List.map_congr_left fun k _ => ?_)
  · rw [nth, show UInt32.ofNat 0 = 0 from rfl, UInt32.add_zero]
  · have hidx : r.readIdx + UInt32.ofNat (k + 1) = r.readIdx + 1 + UInt32.ofNat k := by
      rw [UInt32.ofNat_add, UInt32.add_assoc, UInt32.add_comm (UInt32.ofNat k)]
      rfl
    rw [Function.comp_apply, nth, nth, hidx]

/-! ### Free slots -/

/-- With `R`, `W` the two indices, `c` entries between them and `n` slots: the slot of an index from
`R` on is the slot of `W` exactly when the ring overruns. -/
theorem slot_taken_iff {M R W c n : ℕ} (hc : c < n) (hn : n < M) (hR : R < M)
    (hW : W = (R + c) % M) :
    (∃ k < c, (R + k) % M % n = W % n) ↔ W < R ∧ W < M % n ∧ M % n ≤ c := by
  have hM := Nat.div_add_mod M n
  have hd := Nat.mod_lt M (Nat.lt_of_le_of_lt (Nat.zero_le c) hc)
  by_cases hwrap : R + c < M
  · -- no index wraps, and no two of fewer than `n` consecutive ones have the same slot
    rw [Nat.mod_eq_of_lt hwrap] at hW
    constructor
    · rintro ⟨k, hk, heq⟩
      have hidx : R + k < M := by omega
      rw [Nat.mod_eq_of_lt hidx, hW] at heq
      have hzero : (R + c - (R + k)) % n = 0 := Nat.sub_mod_eq_zero_of_mod_eq heq.symm
      rw [Nat.mod_eq_of_lt (by omega)] at hzero
      omega
    · rintro ⟨hlt, -⟩
      omega
  · have hWM : W + M = R + c := by
      rw [hW, Nat.mod_eq_sub_mod (by omega), Nat.mod_eq_of_lt (by omega)]
      omega
    have hWn : W % n = W := Nat.mod_eq_of_lt (by omega)
    rw [hWn]
    constructor
    · rintro ⟨k, hk, heq⟩
      by_cases hk' : R + k < M
      · rw [Nat.mod_eq_of_lt hk'] at heq
        have hq := Nat.div_add_mod (R + k) n
        rw [heq] at hq
        -- the index lies in the last, incomplete round of slots
        have hround : (R + k) / n = M / n := by
          apply Nat.le_antisymm
          · exact Nat.div_le_div_right (Nat.le_of_lt hk')
          · by_contra hlt
            have hmul : n * ((R + k) / n + 1) ≤ n * (M / n) := Nat.mul_le_mul_left n (by omega)
            rw [Nat.mul_add, Nat.mul_one] at hmul
            omega
        rw [hround] at hq
        omega
      · have hidx : (R + k) % M = R + k - M := by
          rw [Nat.mod_eq_sub_mod (by omega)]
          exact Nat.mod_eq_of_lt (by omega)
        have hslot : R + k - M < n := by omega
        rw [hidx, Nat.mod_eq_of_lt hslot] at heq
        omega
    · rintro ⟨-, hlt, hle⟩
      refine ⟨c - M % n, by omega, ?_⟩
      have hidx : R + (c - M % n) = W + n * (M / n) := by omega
      have hlt' : W + n * (M / n) < M := by omega
      rw [hidx, Nat.mod_eq_of_lt hlt', Nat.add_mul_mod_self_left, hWn]

/-- **Slots at the wrap.**  While the ring is not full the next slot is free unless the ring
overruns. -/
theorem slotFree_iff {r : WrapRing α} (h : r.pendingCount < r.size) :
    r.SlotFree ↔ ¬ r.Overruns := by
  have hR := r.readIdx.toNat_lt
  have hn := r.size.toNat_lt
  have hc : r.pendingCount.toNat < r.size.toNat := UInt32.lt_iff_toNat_lt.mp h
  have hW : r.writeIdx.toNat = (r.readIdx.toNat + r.pendingCount.toNat) % UInt32.size := by
    have hsum : r.writeIdx = r.readIdx + r.pendingCount := by
      rw [pendingCount]
      grind
    rw [hsum, UInt32.toNat_add]
  have hslot : ∀ k < r.pendingCount.toNat,
      (r.readIdx + UInt32.ofNat k) % r.size = r.writeIdx % r.size ↔
        (r.readIdx.toNat + k) % UInt32.size % r.size.toNat = r.writeIdx.toNat % r.size.toNat := by
    intro k hk
    have hsmall : k < UInt32.size := by
      show k < 2 ^ 32
      omega
    rw [← UInt32.toNat_inj, UInt32.toNat_mod, UInt32.toNat_mod, UInt32.toNat_add,
      UInt32.toNat_ofNat_of_lt' hsmall]
  have htaken := slot_taken_iff hc hn hR hW
  rw [Overruns, UInt32.lt_iff_toNat_lt, ← htaken]
  constructor
  · rintro hfree ⟨k, hk, heq⟩
    exact hfree k hk ((hslot k hk).mpr heq)
  · intro hnot k hk heq
    exact hnot ⟨k, hk, (hslot k hk).mp heq⟩

theorem notFull_of_lt_size {r : WrapRing α} (h : r.pendingCount < r.size) : r.NotFull := by
  have hn := r.size.toNat_lt
  have hc := UInt32.lt_iff_toNat_lt.mp h
  show r.pendingCount.toNat + 1 < 2 ^ 32
  omega

/-- Storing leaves the published entries alone when the slot is free, or holds the entry. -/
theorem pending_store_iff (r : WrapRing α) (e : α) :
    (r.store e).pending = r.pending ↔ r.SlotFree ∨ r.slot (r.writeIdx % r.size) = e := by
  constructor
  · intro h
    by_contra hnot
    obtain ⟨hfree, hne⟩ := not_or.mp hnot
    rw [SlotFree] at hfree
    push Not at hfree
    obtain ⟨k, hk, heq⟩ := hfree
    have hnth : (r.store e).nth k = r.nth k :=
      List.map_inj_left.mp h k (List.mem_range.mpr hk)
    have hnew : (r.store e).nth k = e := by
      change Function.update r.slot (r.writeIdx % r.size) e
        ((r.readIdx + UInt32.ofNat k) % r.size) = e
      rw [heq, Function.update_self]
    rw [hnew, nth, heq] at hnth
    exact hne hnth.symm
  · rintro (hfree | rfl)
    · exact pending_store hfree e
    · rw [store, Function.update_eq_self]

end WrapRing

end UsrLinuxEmu.Ring
