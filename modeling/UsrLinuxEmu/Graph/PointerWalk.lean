import Mathlib.Data.List.Nodup

/-!
# Walks along next pointers

Each place names the next one, and a mark ends the walk.

* `PointerWalk` — the places that a walk visits until it comes to the mark;
* `PointerWalk.unique`, `PointerWalk.nodup` — there is one such list, and it has no place twice;
* `PointerWalk.congr` — pointers that agree on the places of a walk lead the same way.
-/

namespace UsrLinuxEmu.Graph

variable {α : Type*} {next next' : α → α} {mark a b : α} {path path' : List α}

inductive PointerWalk (next : α → α) (mark : α) : α → List α → Prop
  | stop : PointerWalk next mark mark []
  | visit {a : α} {path : List α} (hne : a ≠ mark) (hrest : PointerWalk next mark (next a) path) :
      PointerWalk next mark a (a :: path)

namespace PointerWalk

theorem unique (h : PointerWalk next mark a path) (h' : PointerWalk next mark a path') :
    path = path' := by
  induction h generalizing path' with
  | stop =>
    cases h' with
    | stop => rfl
    | visit hne _ => exact absurd rfl hne
  | visit hne _ ih =>
    cases h' with
    | stop => exact absurd rfl hne
    | visit _ hrest => rw [ih hrest]

/-- From a place of the walk on, the rest of the walk. -/
theorem from_mem (h : PointerWalk next mark a path) (hb : b ∈ path) :
    ∃ rest, PointerWalk next mark b rest ∧ rest.length ≤ path.length := by
  induction h with
  | stop => cases hb
  | @visit a path hne hrest ih =>
    rcases List.mem_cons.mp hb with rfl | hmem
    · exact ⟨b :: path, .visit hne hrest, Nat.le_refl _⟩
    · obtain ⟨rest, hwalk, hle⟩ := ih hmem
      exact ⟨rest, hwalk, Nat.le_succ_of_le hle⟩

/-- A walk that ends visits no place twice. -/
theorem nodup (h : PointerWalk next mark a path) : path.Nodup := by
  induction h with
  | stop => exact List.nodup_nil
  | @visit a path hne hrest ih =>
    refine List.nodup_cons.mpr ⟨fun hmem => ?_, ih⟩
    obtain ⟨rest, hwalk, hle⟩ := hrest.from_mem hmem
    have hlong : rest = a :: path := hwalk.unique (.visit hne hrest)
    rw [hlong, List.length_cons] at hle
    omega

theorem congr (h : PointerWalk next mark a path) (hsame : ∀ b ∈ path, next' b = next b) :
    PointerWalk next' mark a path := by
  induction h with
  | stop => exact .stop
  | @visit a path hne hrest ih =>
    have hrest' := ih fun b hb => hsame b (List.mem_cons_of_mem a hb)
    rw [← hsame a List.mem_cons_self] at hrest'
    exact .visit hne hrest'

end PointerWalk

end UsrLinuxEmu.Graph
