import Mathlib.Data.List.ReduceOption
import Mathlib.Data.Multiset.Basic

/-!
# Tables of slots

A table is a list of slots that are free or hold an entry.

* `firstFree` — the first free slot;
* `reduceOption_set_free`, `reduceOption_set_taken`, `reduceOption_append_slot` — what the entries
  are after a free slot is filled, a taken one is freed, and a slot is added.
-/

namespace UsrLinuxEmu.Heap

variable {α : Type*}

/-! ### The first free slot -/

def firstFree (t : List (Option α)) : Option ℕ := t.findIdx? Option.isNone

theorem getElem?_firstFree {t : List (Option α)} {i : ℕ} (h : firstFree t = some i) :
    t[i]? = some none := by
  obtain ⟨hlt, hnone, _⟩ := List.findIdx?_eq_some_iff_getElem.mp h
  rw [List.getElem?_eq_getElem hlt, Option.isNone_iff_eq_none.mp hnone]

/-! ### The entries -/

theorem reduceOption_set_free {t : List (Option α)} {i : ℕ} (h : t[i]? = some none) (a : α) :
    (t.set i (some a)).reduceOption.Perm (a :: t.reduceOption) := by
  induction t generalizing i with
  | nil => nomatch h
  | cons x t ih =>
    cases i with
    | zero =>
      rw [List.getElem?_cons_zero, Option.some.injEq] at h
      subst h
      rfl
    | succ i =>
      rw [List.getElem?_cons_succ] at h
      rw [List.set_cons_succ]
      cases x with
      | none => exact ih h
      | some b =>
        rw [List.reduceOption_cons_of_some, List.reduceOption_cons_of_some]
        exact ((ih h).cons b).trans (List.Perm.swap a b _)

theorem reduceOption_set_taken {t : List (Option α)} {i : ℕ} {a : α} (h : t[i]? = some (some a)) :
    t.reduceOption.Perm (a :: (t.set i none).reduceOption) := by
  induction t generalizing i with
  | nil => nomatch h
  | cons x t ih =>
    cases i with
    | zero =>
      rw [List.getElem?_cons_zero, Option.some.injEq] at h
      subst h
      rfl
    | succ i =>
      rw [List.getElem?_cons_succ] at h
      rw [List.set_cons_succ]
      cases x with
      | none => exact ih h
      | some b =>
        rw [List.reduceOption_cons_of_some, List.reduceOption_cons_of_some]
        exact ((ih h).cons b).trans (List.Perm.swap a b _)

theorem reduceOption_append_slot (t : List (Option α)) (a : α) :
    (t ++ [some a]).reduceOption.Perm (a :: t.reduceOption) := by
  rw [List.reduceOption_append]
  exact List.perm_append_singleton a _

end UsrLinuxEmu.Heap
