import UsrLinuxEmu.Transition.Run

/-!
# Parts of a machine

A part of the state that some actions change on their own, and that the others leave alone, runs as
a machine by itself.

* `LocalView` — the actions that belong to the part, and what they do to it;
* `LocalView.run` / `LocalView.run_filter` — the part sees only its own actions.
-/

namespace UsrLinuxEmu.Transition

variable {σ α β : Type*}

/-- The actions that are `mine` take the part `view` through `part`, the others keep it. -/
structure LocalView (step : σ → α → σ) (mine : α → Bool) (view : σ → β) (part : β → α → β) :
    Prop where
  own : ∀ s a, mine a = true → view (step s a) = part (view s) a
  other : ∀ s a, mine a = false → view (step s a) = view s

variable {step : σ → α → σ} {mine : α → Bool} {view : σ → β} {part : β → α → β}

/-- **Parts run by themselves.** -/
theorem LocalView.run (h : LocalView step mine view part) (s : σ) (as : List α) :
    view (Transition.run step s as) = Transition.run part (view s) (as.filter mine) := by
  induction as generalizing s with
  | nil => rfl
  | cons a as ih =>
    rw [run_cons, ih]
    cases hmine : mine a with
    | true => rw [List.filter_cons_of_pos hmine, run_cons, h.own s a hmine]
    | false => rw [List.filter_cons_of_neg (by simp [hmine]), h.other s a hmine]

/-- Leaving out the actions of others changes nothing for the part. -/
theorem LocalView.run_filter (h : LocalView step mine view part) (s : σ) (as : List α) :
    view (Transition.run step s as) = view (Transition.run step s (as.filter mine)) := by
  rw [h.run, h.run, List.filter_filter]
  simp only [Bool.and_self]

end UsrLinuxEmu.Transition
