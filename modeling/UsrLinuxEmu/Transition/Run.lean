import Mathlib.Data.List.Basic

/-!
# Runs of a deterministic labelled machine

A machine is a total step function `step : σ → α → σ`: the action says which party moves and
carries what that party brings along.  Interleavings of several parties are lists of actions.

* `run` / `run_append` — the state a list of actions leads to;
* `Guarded G` — every step of the run satisfies a condition on the state before it and the
  action taken;
* `Always P` / `always_iff_initial` — `P` holds in every state of the run;
* `always_of_inductive`, `run_of_inductive` — the induction principle: an invariant that every
  guarded step keeps holds along every guarded run;
* `always_guarded_iff`, `always_iff_guarded`, `guarded_iff_of_inductive` — the runs along which a
  property holds are the guarded ones.
-/

namespace UsrLinuxEmu.Transition

variable {σ α : Type*} (step : σ → α → σ)

/-! ### Runs -/

/-- The state reached from `s` by the actions `as`, first action first. -/
def run (s : σ) (as : List α) : σ := as.foldl step s

@[simp] theorem run_nil (s : σ) : run step s [] = s := rfl

@[simp] theorem run_cons (s : σ) (a : α) (as : List α) :
    run step s (a :: as) = run step (step s a) as := rfl

theorem run_append (s : σ) (as bs : List α) :
    run step s (as ++ bs) = run step (run step s as) bs := by
  rw [run, List.foldl_append]
  rfl

/-! ### Conditions on the steps of a run -/

/-- Every step of the run meets `G`, a condition on the state before the step. -/
def Guarded (G : σ → α → Prop) : σ → List α → Prop
  | _, [] => True
  | s, a :: as => G s a ∧ Guarded G (step s a) as

instance decidableGuarded (G : σ → α → Prop) [∀ s a, Decidable (G s a)] :
    ∀ (s : σ) (as : List α), Decidable (Guarded step G s as)
  | _, [] => inferInstanceAs (Decidable True)
  | s, a :: as =>
    have := decidableGuarded G (step s a) as
    inferInstanceAs (Decidable (G s a ∧ Guarded step G (step s a) as))

theorem guarded_append (G : σ → α → Prop) (s : σ) (as bs : List α) :
    Guarded step G s (as ++ bs) ↔ Guarded step G s as ∧ Guarded step G (run step s as) bs := by
  induction as generalizing s with
  | nil => simp [Guarded]
  | cons a as ih => simp only [List.cons_append, Guarded, ih, run_cons, and_assoc]

theorem Guarded.mono {G G' : σ → α → Prop} (hGG : ∀ s a, G s a → G' s a) {s : σ} {as : List α}
    (h : Guarded step G s as) : Guarded step G' s as := by
  induction as generalizing s with
  | nil => trivial
  | cons a as ih => exact ⟨hGG _ _ h.1, ih h.2⟩

theorem Guarded.and {G G' : σ → α → Prop} {s : σ} {as : List α} (h : Guarded step G s as)
    (h' : Guarded step G' s as) : Guarded step (fun s a => G s a ∧ G' s a) s as := by
  induction as generalizing s with
  | nil => trivial
  | cons a as ih => exact ⟨⟨h.1, h'.1⟩, ih h.2 h'.2⟩

/-- The run meets a condition exactly when each of its steps does. -/
theorem guarded_iff_split (G : σ → α → Prop) (s : σ) (as : List α) :
    Guarded step G s as ↔ ∀ pre a post, as = pre ++ a :: post → G (run step s pre) a := by
  induction as generalizing s with
  | nil => simp [Guarded]
  | cons b as ih =>
    constructor
    · rintro ⟨hb, hrest⟩ pre a post heq
      cases pre with
      | nil =>
        rw [List.nil_append, List.cons.injEq] at heq
        obtain ⟨rfl, -⟩ := heq
        exact hb
      | cons c pre =>
        rw [List.cons_append, List.cons.injEq] at heq
        obtain ⟨rfl, heq⟩ := heq
        exact (ih _).mp hrest pre a post heq
    · intro h
      refine ⟨h [] b as rfl, (ih _).mpr fun pre a post heq => ?_⟩
      exact h (b :: pre) a post (by rw [heq, List.cons_append])

/-! ### Properties of every state of a run -/

/-- `P` holds in the first state of the run and after each of its steps. -/
def Always (P : σ → Prop) : σ → List α → Prop
  | s, [] => P s
  | s, a :: as => P s ∧ Always P (step s a) as

instance decidableAlways (P : σ → Prop) [DecidablePred P] :
    ∀ (s : σ) (as : List α), Decidable (Always step P s as)
  | s, [] => inferInstanceAs (Decidable (P s))
  | s, a :: as =>
    have := decidableAlways P (step s a) as
    inferInstanceAs (Decidable (P s ∧ Always step P (step s a) as))

theorem always_iff_initial (P : σ → Prop) (s : σ) (as : List α) :
    Always step P s as ↔ ∀ pre, pre <+: as → P (run step s pre) := by
  induction as generalizing s with
  | nil => simp [Always]
  | cons a as ih =>
    constructor
    · rintro ⟨hs, hrest⟩ pre hpre
      cases pre with
      | nil => exact hs
      | cons b pre =>
        obtain ⟨rfl, htail⟩ := List.cons_prefix_cons.mp hpre
        exact (ih _).mp hrest pre htail
    · intro h
      refine ⟨h [] (List.nil_prefix), (ih _).mpr fun pre hpre => ?_⟩
      exact h (a :: pre) (List.cons_prefix_cons.mpr ⟨rfl, hpre⟩)

theorem Always.mono {P Q : σ → Prop} (hPQ : ∀ s, P s → Q s) {s : σ} {as : List α}
    (h : Always step P s as) : Always step Q s as := by
  induction as generalizing s with
  | nil => exact hPQ _ h
  | cons a as ih => exact ⟨hPQ _ h.1, ih h.2⟩

theorem Always.last {P : σ → Prop} {s : σ} {as : List α} (h : Always step P s as) :
    P (run step s as) :=
  (always_iff_initial step P s as).mp h as List.prefix_rfl

/-! ### Induction along a guarded run -/

variable {step} {I : σ → Prop} {G : σ → α → Prop}

/-- **Invariant rule.**  An invariant kept by every guarded step holds along a guarded run. -/
theorem always_of_inductive (hstep : ∀ s a, I s → G s a → I (step s a)) {s : σ}
    {as : List α} (hs : I s) (hG : Guarded step G s as) : Always step I s as := by
  induction as generalizing s with
  | nil => exact hs
  | cons a as ih => exact ⟨hs, ih (hstep s a hs hG.1) hG.2⟩

theorem run_of_inductive (hstep : ∀ s a, I s → G s a → I (step s a)) {s : σ}
    {as : List α} (hs : I s) (hG : Guarded step G s as) : I (run step s as) :=
  (always_of_inductive hstep hs hG).last

theorem guarded_trivial (step : σ → α → σ) (s : σ) (as : List α) :
    Guarded step (fun _ _ => True) s as := by
  induction as generalizing s with
  | nil => trivial
  | cons a as ih => exact ⟨trivial, ih (step s a)⟩

/-- What the invariant and the condition give for one step, they give for every step of the run. -/
theorem guarded_of_inductive {R : σ → α → Prop} (hstep : ∀ s a, I s → G s a → I (step s a))
    (hR : ∀ s a, I s → G s a → R s a) {s : σ} {as : List α} (hs : I s)
    (hG : Guarded step G s as) : Guarded step R s as := by
  induction as generalizing s with
  | nil => trivial
  | cons a as ih => exact ⟨hR s a hs hG.1, ih (hstep s a hs hG.1) hG.2⟩

/-- **Exact conditions.**  A property of the states and one of the steps that follow from the
invariant, and that a step keeps only when it meets the condition, hold exactly along the guarded
runs. -/
theorem always_guarded_iff {P : σ → Prop} {R : σ → α → Prop}
    (hstep : ∀ s a, I s → G s a → I (step s a)) (hP : ∀ s, I s → P s)
    (hR : ∀ s a, I s → G s a → R s a) (hG : ∀ s a, I s → P (step s a) → R s a → G s a) {s : σ}
    (as : List α) (hs : I s) :
    (Always step P s as ∧ Guarded step R s as) ↔ Guarded step G s as := by
  constructor
  · rintro ⟨h, hguarded⟩
    induction as generalizing s with
    | nil => trivial
    | cons a as ih =>
      have hnext : P (step s a) := by
        cases as with
        | nil => exact h.2
        | cons b as => exact h.2.1
      have hguard := hG s a hs hnext hguarded.1
      exact ⟨hguard, ih (hstep s a hs hguard) h.2 hguarded.2⟩
  · intro h
    exact ⟨(always_of_inductive hstep hs h).mono step hP, guarded_of_inductive hstep hR hs h⟩

/-- The rule for a property of the states alone. -/
theorem always_iff_guarded {P : σ → Prop} (hstep : ∀ s a, I s → G s a → I (step s a))
    (hP : ∀ s, I s → P s) (hG : ∀ s a, I s → P (step s a) → G s a) {s : σ} (as : List α)
    (hs : I s) : Always step P s as ↔ Guarded step G s as := by
  have hboth := always_guarded_iff (R := fun _ _ => True) hstep hP (fun _ _ _ _ => trivial)
    (fun s a hI hnext _ => hG s a hI hnext) as hs
  rw [← hboth]
  exact ⟨fun h => ⟨h, guarded_trivial step s as⟩, fun h => h.1⟩

/-- The rule for a property of the steps alone. -/
theorem guarded_iff_of_inductive {R : σ → α → Prop} (hstep : ∀ s a, I s → G s a → I (step s a))
    (hR : ∀ s a, I s → G s a → R s a) (hG : ∀ s a, I s → R s a → G s a) {s : σ} (as : List α)
    (hs : I s) : Guarded step R s as ↔ Guarded step G s as := by
  constructor
  · intro h
    induction as generalizing s with
    | nil => trivial
    | cons a as ih =>
      have hguard := hG s a hs h.1
      exact ⟨hguard, ih (hstep s a hs hguard) h.2⟩
  · exact guarded_of_inductive hstep hR hs

/-- The rule without a condition on the steps. -/
theorem run_of_invariant (hstep : ∀ s a, I s → I (step s a)) {s : σ} (as : List α)
    (hs : I s) : I (run step s as) := by
  induction as generalizing s with
  | nil => exact hs
  | cons a as ih => exact ih (hstep s a hs)

end UsrLinuxEmu.Transition
