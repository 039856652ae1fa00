import UsrLinuxEmu.Transition.Run

/-!
# Runs that differ in what is erased

`erase` takes a part of the state away.  A function that leaves the same up to `erase`, whatever
that part was, is blind to it, and a machine whose steps are blind runs the same with any of it.

* `Blind` — the result does not depend on what is erased, but for that part itself;
* `Blind.comp`, `Blind.ite` — the functions built from blind ones;
* `Blind.run` — two runs from states that differ in it only.
-/

namespace UsrLinuxEmu.Transition

variable {σ α : Type*} {erase : σ → σ} {f g : σ → σ}

def Blind (erase f : σ → σ) : Prop := ∀ s, erase (f (erase s)) = erase (f s)

theorem Blind.congr (h : Blind erase f) {s t : σ} (hst : erase s = erase t) :
    erase (f s) = erase (f t) := by
  rw [← h s, hst, h t]

theorem Blind.comp (hg : Blind erase g) (hf : Blind erase f) : Blind erase fun s => g (f s) :=
  fun s => hg.congr (hf s)

/-- Both branches and the condition are blind. -/
theorem Blind.ite {c : σ → Prop} [DecidablePred c] (hc : ∀ s, c (erase s) ↔ c s)
    (hf : Blind erase f) (hg : Blind erase g) :
    Blind erase fun s => if c s then f s else g s := by
  intro s
  by_cases h : c s
  · simp only [if_pos h, if_pos ((hc s).mpr h)]
    exact hf s
  · simp only [if_neg h, if_neg fun h' => h ((hc s).mp h')]
    exact hg s

/-- **Blind machines.**  States that differ in what is erased lead to states that do. -/
theorem Blind.run {step : σ → α → σ} (h : ∀ a, Blind erase fun s => step s a) {s t : σ}
    (hst : erase s = erase t) (as : List α) :
    erase (Transition.run step s as) = erase (Transition.run step t as) := by
  induction as generalizing s t with
  | nil => exact hst
  | cons a as ih => exact ih ((h a).congr hst)

end UsrLinuxEmu.Transition
