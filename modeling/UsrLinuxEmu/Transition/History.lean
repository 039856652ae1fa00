import Mathlib.Data.List.Basic

/-!
# Histories: properties of event lists, newest event first

A history variable collects what a machine did as a list of events with the newest event at the
head, so that "before" is the tail.

* `Causal P` — each event is justified by the events before it;
* `since p` — the events after the newest one that satisfies `p`;
* `newest p` — that event.
-/

namespace UsrLinuxEmu.Transition

variable {ε : Type*}

/-! ### Events justified by their past -/

/-- Every event of the history stands in relation `P` to the history before it. -/
def Causal (P : List ε → ε → Prop) : List ε → Prop
  | [] => True
  | e :: before => P before e ∧ Causal P before

instance decidableCausal (P : List ε → ε → Prop) [∀ l e, Decidable (P l e)] :
    ∀ l : List ε, Decidable (Causal P l)
  | [] => inferInstanceAs (Decidable True)
  | e :: before =>
    have := decidableCausal P before
    inferInstanceAs (Decidable (P before e ∧ Causal P before))

@[simp] theorem causal_nil (P : List ε → ε → Prop) : Causal P [] := trivial

@[simp] theorem causal_cons (P : List ε → ε → Prop) (e : ε) (l : List ε) :
    Causal P (e :: l) ↔ P l e ∧ Causal P l := Iff.rfl

theorem causal_append (P : List ε → ε → Prop) (new old : List ε)
    (hnew : ∀ after e before, new = after ++ e :: before → P (before ++ old) e)
    (hold : Causal P old) : Causal P (new ++ old) := by
  induction new with
  | nil => exact hold
  | cons e new ih =>
    refine ⟨hnew [] e new rfl, ih fun after x before heq => ?_⟩
    exact hnew (e :: after) x before (by rw [heq, List.cons_append])

/-- Events that any past justifies. -/
theorem causal_append_of_forall (P : List ε → ε → Prop) {new old : List ε}
    (hnew : ∀ e ∈ new, ∀ before, P before e) (hold : Causal P old) : Causal P (new ++ old) :=
  causal_append P new old (fun _ e before heq => hnew e (by simp [heq]) (before ++ old)) hold

/-! ### The stretch since the newest event of a kind -/

/-- The newest event that satisfies `p`. -/
def newest (p : ε → Bool) (l : List ε) : Option ε := l.find? p

/-- The events after the newest one that satisfies `p`; all of them when there is none. -/
def since (p : ε → Bool) (l : List ε) : List ε := l.takeWhile fun e => !p e

@[simp] theorem since_cons_of_neg {p : ε → Bool} {e : ε} {l : List ε} (h : p e = false) :
    since p (e :: l) = e :: since p l := by simp [since, h]

@[simp] theorem since_cons_of_pos {p : ε → Bool} {e : ε} {l : List ε} (h : p e = true) :
    since p (e :: l) = [] := by simp [since, h]

@[simp] theorem newest_cons_of_neg {p : ε → Bool} {e : ε} {l : List ε} (h : p e = false) :
    newest p (e :: l) = newest p l := by simp [newest, h]

@[simp] theorem newest_cons_of_pos {p : ε → Bool} {e : ε} {l : List ε} (h : p e = true) :
    newest p (e :: l) = some e := by simp [newest, h]

/-- New events that do not satisfy `p` extend the stretch. -/
theorem since_append {p : ε → Bool} {new old : List ε} (h : ∀ e ∈ new, p e = false) :
    since p (new ++ old) = new ++ since p old := by
  induction new with
  | nil => rfl
  | cons e new ih =>
    have htail := ih fun x hx => h x (List.mem_cons_of_mem _ hx)
    rw [List.cons_append, since_cons_of_neg (h e List.mem_cons_self), htail, List.cons_append]

theorem newest_append {p : ε → Bool} {new old : List ε} (h : ∀ e ∈ new, p e = false) :
    newest p (new ++ old) = newest p old := by
  induction new with
  | nil => rfl
  | cons e new ih =>
    rw [List.cons_append, newest_cons_of_neg (h e List.mem_cons_self)]
    exact ih fun x hx => h x (List.mem_cons_of_mem _ hx)

end UsrLinuxEmu.Transition
