import UsrLinuxEmu.Transition.Run

/-!
# Progress along a run

A party makes progress when a measure goes down with each of its steps that counts, and nobody else
makes it go up.

* `stepsTaken` — how many steps of a run count, each judged in the state it is taken in;
* `measure_run` — after a run the measure has gone down by that many, or to zero.
-/

namespace UsrLinuxEmu.Transition

variable {σ α : Type*} (step : σ → α → σ)

def stepsTaken (counts : σ → α → Bool) : σ → List α → ℕ
  | _, [] => 0
  | s, a :: as => (if counts s a then 1 else 0) + stepsTaken counts (step s a) as

/-- Whether a step counts may depend on the action alone. -/
theorem stepsTaken_eq_countP (p : α → Bool) (s : σ) (as : List α) :
    stepsTaken step (fun _ a => p a) s as = as.countP p := by
  induction as generalizing s with
  | nil => rfl
  | cons a as ih =>
    rw [stepsTaken, ih, List.countP_cons]
    exact Nat.add_comm _ _

variable {step} {counts : σ → α → Bool} {I : σ → Prop} {G : σ → α → Prop} {m : σ → ℕ}

/-- **Progress rule.** -/
theorem measure_run (hI : ∀ s a, I s → G s a → I (step s a))
    (hstep : ∀ s a, I s → G s a → m (step s a) ≤ m s - if counts s a then 1 else 0)
    {s : σ} {as : List α} (hs : I s) (hG : Guarded step G s as) :
    m (run step s as) ≤ m s - stepsTaken step counts s as := by
  induction as generalizing s with
  | nil => exact Nat.le_refl _
  | cons a as ih =>
    have hhead := hstep s a hs hG.1
    have htail := ih (hI s a hs hG.1) hG.2
    rw [run_cons, stepsTaken]
    omega

end UsrLinuxEmu.Transition
