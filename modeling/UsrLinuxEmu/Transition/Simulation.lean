import UsrLinuxEmu.Transition.Run

/-!
# Comparing two runs, and runs with ghost state

* `companions` — the actions of a second machine along a run of the first: each action of the
  first is answered by a list of actions, which depends on the state it is taken in;
* `companions_simulate` — a relation between the states that every guarded action and its answer
  keep holds at the end of both runs;
* `companions_filter` — what the answers have in common with the actions, the runs have in common;
* `observed` — the machine together with a ghost state that watches it.
-/

namespace UsrLinuxEmu.Transition

variable {σ τ α β γ : Type*} (step : σ → α → σ)

/-! ### Companion runs -/

/-- The answers to the actions of the run from `s`, in order. -/
def companions (answer : σ → α → List β) : σ → List α → List β
  | _, [] => []
  | s, a :: as => answer s a ++ companions answer (step s a) as

theorem companions_filter {answer : σ → α → List α} {p q : α → Bool}
    (h : ∀ s a, (answer s a).filter p = [a].filter q) (s : σ) (as : List α) :
    (companions step answer s as).filter p = as.filter q := by
  induction as generalizing s with
  | nil => rfl
  | cons a as ih =>
    rw [companions, List.filter_append, h, ih, ← List.filter_append, List.singleton_append]

variable {step} {step' : τ → β → τ} {answer : σ → α → List β} {R : σ → τ → Prop}
  {G : σ → α → Prop}

/-- **Simulation rule.**  A relation kept by every guarded action and its answer relates the ends
of a guarded run and its companion. -/
theorem companions_simulate
    (hstep : ∀ s t a, R s t → G s a → R (step s a) (run step' t (answer s a))) {s : σ} {t : τ}
    {as : List α} (hR : R s t) (hG : Guarded step G s as) :
    R (run step s as) (run step' t (companions step answer s as)) := by
  induction as generalizing s t with
  | nil => exact hR
  | cons a as ih =>
    rw [companions, run_append, run_cons]
    exact ih (hstep s t a hR hG.1) hG.2

/-! ### Ghost state -/

variable (step) (note : γ → σ → α → γ)

/-- The machine with a ghost state, which sees the state before the action and the action. -/
def observed (x : γ × σ) (a : α) : γ × σ := (note x.1 x.2 a, step x.2 a)

/-- A condition that does not look at the ghost state is not affected by it. -/
theorem guarded_observed (G : σ → α → Prop) (x : γ × σ) (as : List α) :
    Guarded (observed step note) (fun y a => G y.2 a) x as ↔ Guarded step G x.2 as := by
  induction as generalizing x with
  | nil => rfl
  | cons a as ih => exact and_congr_right' (ih (observed step note x a))

/-- Nor is a property of the states. -/
theorem always_observed (P : σ → Prop) (x : γ × σ) (as : List α) :
    Always (observed step note) (fun y => P y.2) x as ↔ Always step P x.2 as := by
  induction as generalizing x with
  | nil => rfl
  | cons a as ih => exact and_congr_right' (ih (observed step note x a))

end UsrLinuxEmu.Transition
