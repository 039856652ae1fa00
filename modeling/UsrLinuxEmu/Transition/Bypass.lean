import Mathlib.Data.List.Infix
import UsrLinuxEmu.Transition.Run

/-!
# Outputs of a run, and bounded bypass

A step of a machine may put something out: the client it serves, say.  A counter that every bad
output raises, that nothing else lowers before a good one, and that never passes a bound, limits how
many bad outputs come in a row.

* `outputs` — what a run puts out, in order;
* `prefix_length_le` — a stretch of bad outputs fits under the bound;
* `window_has_good` — a longer window of outputs holds a good one.
-/

namespace UsrLinuxEmu.Transition

variable {σ α β : Type*} (step : σ → α → σ) (out : σ → α → Option β)

/-- What the steps of the run put out, in order. -/
def outputs : σ → List α → List β
  | _, [] => []
  | s, a :: as => (out s a).toList ++ outputs (step s a) as

theorem outputs_cons_none {s : σ} {a : α} (h : out s a = none) (as : List α) :
    outputs step out s (a :: as) = outputs step out (step s a) as := by
  rw [outputs, h]
  rfl

theorem outputs_cons_some {s : σ} {a : α} {b : β} (h : out s a = some b) (as : List α) :
    outputs step out s (a :: as) = b :: outputs step out (step s a) as := by
  rw [outputs, h]
  rfl

/-- A property of every state of the run holds before each step and after it. -/
theorem Always.guarded {P : σ → Prop} {s : σ} {as : List α} (h : Always step P s as) :
    Guarded step (fun s a => P s ∧ P (step s a)) s as := by
  induction as generalizing s with
  | nil => trivial
  | cons a as ih =>
    have hnext : P (step s a) := by
      cases as with
      | nil => exact h.2
      | cons b as => exact h.2.1
    exact ⟨⟨h.1, hnext⟩, ih h.2⟩

section Bypass

variable {step out} {I : σ → Prop} {G : σ → α → Prop} {good : β → Prop} {f : σ → ℕ} {N : ℕ}
  (hstep : ∀ s a, I s → G s a → I (step s a))
  (hnone : ∀ s a, I s → G s a → out s a = none → f s ≤ f (step s a))
  (hbad : ∀ s a b, I s → G s a → out s a = some b → ¬good b →
    f s < f (step s a) ∧ f (step s a) ≤ N)

include hstep hnone hbad

/-- Bad outputs from the start of the run fit between the counter and the bound. -/
theorem prefix_length_le {s : σ} {as : List α} (hs : I s) (hG : Guarded step G s as)
    {window : List β} (hstart : window <+: outputs step out s as) (hall : ∀ b ∈ window, ¬good b) :
    window = [] ∨ f s + window.length ≤ N := by
  induction as generalizing s window with
  | nil => exact .inl (List.prefix_nil.mp hstart)
  | cons a as ih =>
    have hI := hstep s a hs hG.1
    cases hout : out s a with
    | none =>
      rw [outputs_cons_none step out hout] at hstart
      have hle := hnone s a hs hG.1 hout
      rcases ih hI hG.2 hstart hall with hnil | hlen
      · exact .inl hnil
      · exact .inr (by omega)
    | some b =>
      rw [outputs_cons_some step out hout] at hstart
      cases window with
      | nil => exact .inl rfl
      | cons c window =>
        obtain ⟨rfl, htail⟩ := List.cons_prefix_cons.mp hstart
        have hcount := hbad s a c hs hG.1 hout (hall c List.mem_cons_self)
        right
        rw [List.length_cons]
        rcases ih hI hG.2 htail fun b hb => hall b (List.mem_cons_of_mem _ hb) with rfl | hlen
        · rw [List.length_nil]
          omega
        · omega

/-- **Bounded bypass.**  Among more than `N` consecutive outputs there is a good one. -/
theorem window_has_good {s : σ} {as : List α} (hs : I s) (hG : Guarded step G s as)
    {window : List β} (hwindow : window <:+: outputs step out s as) (hlong : N < window.length) :
    ∃ b ∈ window, good b := by
  induction as generalizing s with
  | nil =>
    rw [List.infix_nil.mp hwindow] at hlong
    exact absurd hlong (Nat.not_lt_zero N)
  | cons a as ih =>
    have hI := hstep s a hs hG.1
    cases hout : out s a with
    | none =>
      rw [outputs_cons_none step out hout] at hwindow
      exact ih hI hG.2 hwindow
    | some b =>
      rw [outputs_cons_some step out hout, List.infix_cons_iff] at hwindow
      rcases hwindow with hstart | htail
      · by_contra hno
        push Not at hno
        rw [← outputs_cons_some step out hout] at hstart
        rcases prefix_length_le hstep hnone hbad hs hG hstart hno with rfl | hlen
        · exact absurd hlong (Nat.not_lt_zero N)
        · omega
      · exact ih hI hG.2 htail

end Bypass

end UsrLinuxEmu.Transition
