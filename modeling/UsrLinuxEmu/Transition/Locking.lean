import Mathlib.Data.Set.Basic

/-!
# Deadlocks

Threads hold locks and wait for locks; `holds` and `wants` are read off one state of a machine.

* `Deadlock` — a set of threads, each waiting for a lock that another of them holds;
* `not_deadlock_of_rank` — no set is deadlocked when the locks can be ranked, in that state, such
  that every thread waits for a lock above all it holds.
-/

namespace UsrLinuxEmu.Transition

variable {Thread Lock : Type*} {holds : Thread → Lock → Prop} {wants : Thread → Option Lock}

/-- Each thread of the set waits for a lock that another thread of the set holds. -/
def Deadlock (holds : Thread → Lock → Prop) (wants : Thread → Option Lock) (S : Set Thread) :
    Prop :=
  S.Nonempty ∧ ∀ t ∈ S, ∃ l, wants t = some l ∧ ∃ u ∈ S, u ≠ t ∧ holds u l

/-- In a deadlocked set some thread waits for a lock of any given rank or more. -/
theorem Deadlock.climb {S : Set Thread} (h : Deadlock holds wants S) {rank : Lock → ℕ}
    (hrank : ∀ t l m, holds t l → wants t = some m → rank l < rank m) (n : ℕ) :
    ∃ t ∈ S, ∃ l, wants t = some l ∧ n ≤ rank l := by
  induction n with
  | zero =>
    obtain ⟨t, ht⟩ := h.1
    obtain ⟨l, hl, -⟩ := h.2 t ht
    exact ⟨t, ht, l, hl, Nat.zero_le _⟩
  | succ n ih =>
    obtain ⟨t, ht, l, hl, hn⟩ := ih
    -- the thread that holds this lock waits for a higher one
    obtain ⟨l', hl', u, hu, -, hholds⟩ := h.2 t ht
    rw [hl] at hl'
    obtain rfl := Option.some.inj hl'
    obtain ⟨m, hm, -⟩ := h.2 u hu
    have hlt := hrank u l m hholds hm
    exact ⟨u, hu, m, hm, by omega⟩

/-- **Lock ranking.**  Where every thread waits for a lock above all it holds, nothing is
deadlocked. -/
theorem not_deadlock_of_rank (rank : Lock → ℕ) (bound : ℕ) (hbound : ∀ l, rank l ≤ bound)
    (hrank : ∀ t l m, holds t l → wants t = some m → rank l < rank m) (S : Set Thread) :
    ¬Deadlock holds wants S := by
  intro h
  obtain ⟨t, -, l, -, hl⟩ := h.climb hrank (bound + 1)
  have hle := hbound l
  omega

/-- Two threads that wait for each other are deadlocked. -/
theorem deadlock_pair {t u : Thread} {l m : Lock} (hne : t ≠ u) (ht : wants t = some l)
    (htl : holds u l) (hu : wants u = some m) (hum : holds t m) :
    Deadlock holds wants {t, u} := by
  refine ⟨⟨t, .inl rfl⟩, fun x hx => ?_⟩
  rcases hx with rfl | rfl
  · exact ⟨l, ht, u, .inr rfl, hne.symm, htl⟩
  · exact ⟨m, hu, t, .inl rfl, hne, hum⟩

end UsrLinuxEmu.Transition
