import Mathlib.Data.List.Perm.Basic
import UsrLinuxEmu.GpuDriver.SemaphoreState
import UsrLinuxEmu.Transition.Simulation

/-!
# Barriers and what they release (`sim/scheduler/channel_state.cpp`)

A barrier keeps the entries registered on it.  The signal that triggers it copies them into the one
list `barrier_released_`, from which the caller takes them.

* `BarrierKind` — a barrier's mode, with a positive stream count for a BARRIER_AND;
* `BarrierOp` — the calls, and the caller's reading of the released entries;
* `ReleaseLaw` — the entries read or there to be read are those of the barriers that are due, each
  registration once;
* `releasesApart` — no registration finds its barrier triggered, and no barrier triggers over
  entries that have not been read;
* `barrier_release_iff` — the law holds along a run exactly when that does.
-/

namespace UsrLinuxEmu.GpuDriver

open UsrLinuxEmu.Transition ChannelSemaphoreState

/-! ### Calls -/

/-- How a barrier id is used. -/
inductive BarrierKind where
  | and (streamCount : ℕ) (pos : 0 < streamCount)
  | or

/-- The number of signals that the barrier waits for. -/
def BarrierKind.need : BarrierKind → ℕ
  | .and streamCount _ => streamCount
  | .or => 1

def BarrierKind.isAnd : BarrierKind → Bool
  | .and _ _ => true
  | .or => false

theorem BarrierKind.need_pos (k : BarrierKind) : 0 < k.need := by
  cases k with
  | and streamCount pos => exact pos
  | or => exact Nat.one_pos

inductive BarrierOp where
  | register (barrierId : UInt64) (entry : GpuGpfifoEntry)
  | signal (barrierId : UInt64)
  /-- The caller reads `barrier_released()`. -/
  | collect

/-- `register_barrier_and` or `register_barrier_or`, by the barrier's mode. -/
def registerBarrier (st : ChannelSemaphoreState) (barrierId : UInt64) (entry : GpuGpfifoEntry) :
    BarrierKind → ChannelSemaphoreState
  | .and streamCount _ => st.registerBarrierAnd barrierId streamCount entry
  | .or => st.registerBarrierOr barrierId entry

/-- The signal would trigger this barrier. -/
def BarrierState.ends (bs : BarrierState) : Bool :=
  !bs.triggered && (!bs.modeAnd || bs.arrive.remainingStreams == 0)

/-! ### The caller -/

/-- The registrations, the signals of each barrier since its first one, the entries read so far,
and whether a release has come since the last reading. -/
structure BarrierObserver where
  registered : List (UInt64 × GpuGpfifoEntry)
  signals : UInt64 → ℕ
  handed : List GpuGpfifoEntry
  unread : Bool

namespace BarrierObserver

def empty : BarrierObserver := ⟨[], fun _ => 0, [], false⟩

/-- The entries registered on a barrier, in order. -/
def entriesOf (g : BarrierObserver) (barrierId : UInt64) : List GpuGpfifoEntry :=
  (g.registered.filter fun r => r.1 == barrierId).map Prod.snd

/-- The released entries that the caller has not read. -/
def available (g : BarrierObserver) (st : ChannelSemaphoreState) : List GpuGpfifoEntry :=
  if g.unread then st.barrierReleased else []

/-- What the caller has read or can read. -/
def offered (g : BarrierObserver) (st : ChannelSemaphoreState) : List GpuGpfifoEntry :=
  g.handed ++ g.available st

def note (g : BarrierObserver) (st : ChannelSemaphoreState) : BarrierOp → BarrierObserver
  | .register barrierId entry => { g with registered := g.registered ++ [(barrierId, entry)] }
  | .signal barrierId => { g with
      signals := if g.entriesOf barrierId = [] then g.signals
        else Function.update g.signals barrierId (g.signals barrierId + 1)
      unread := g.unread || (st.signalBarrier barrierId).1 }
  | .collect => { g with handed := g.handed ++ g.available st, unread := false }

end BarrierObserver

section Barriers

variable (kind : UInt64 → BarrierKind)

def barrierStep (st : ChannelSemaphoreState) : BarrierOp → ChannelSemaphoreState
  | .register barrierId entry => registerBarrier st barrierId entry (kind barrierId)
  | .signal barrierId => (st.signalBarrier barrierId).2
  | .collect => st

abbrev observedBarrier := observed (barrierStep kind) BarrierObserver.note

/-- Enough signals have come since the first registration. -/
def BarrierObserver.due (g : BarrierObserver) (barrierId : UInt64) : Bool :=
  decide ((kind barrierId).need ≤ g.signals barrierId)

/-- The entries registered on the barriers that are due. -/
def BarrierObserver.dueEntries (g : BarrierObserver) : List GpuGpfifoEntry :=
  (g.registered.filter fun r => g.due kind r.1).map Prod.snd

/-- What has been read or can be read is what is due, each registration once. -/
def ReleaseLaw (x : BarrierObserver × ChannelSemaphoreState) : Prop :=
  (x.1.offered x.2).Perm (x.1.dueEntries kind)

/-- A registration finds its barrier waiting, and a barrier triggers when nothing is unread. -/
def releasesApart (x : BarrierObserver × ChannelSemaphoreState) : BarrierOp → Prop
  | .register barrierId _ => x.2.isBarrierReleased barrierId = false
  | .signal barrierId => ∀ bs ∈ x.2.barriers barrierId, bs.ends = true → x.1.available x.2 = []
  | .collect => True

instance decidableReleasesApart (x : BarrierObserver × ChannelSemaphoreState) :
    ∀ op, Decidable (releasesApart x op)
  | .register _ _ => inferInstanceAs (Decidable (_ = false))
  | .signal barrierId =>
    inferInstanceAs (Decidable (∀ bs ∈ x.2.barriers barrierId, _ → _ = []))
  | .collect => .isTrue trivial

end Barriers

/-! ### The calls on one barrier -/

section Calls

variable {st : ChannelSemaphoreState} {i : UInt64} {bs : BarrierState}

/-- A signal on a barrier that it does not trigger. -/
theorem signalBarrier_waits (hbs : st.barriers i = some bs) (hends : bs.ends = false) :
    (st.signalBarrier i).1 = false ∧
      (st.signalBarrier i).2.barrierReleased = st.barrierReleased ∧
      (st.signalBarrier i).2.barriers = Function.update st.barriers i
        (some (if bs.triggered then bs else bs.arrive)) := by
  have hsame : Function.update st.barriers i (some bs) = st.barriers := by
    rw [← hbs, Function.update_eq_self]
  rw [signalBarrier, hbs]
  cases ht : bs.triggered with
  | true => simp [ht, hsame]
  | false =>
    simp only [BarrierState.ends, ht, Bool.not_false, Bool.true_and, Bool.or_eq_false_iff,
      Bool.not_eq_false', beq_eq_false_iff_ne] at hends
    simp only [ht, Bool.false_eq_true, if_false, hends.1, if_true, if_neg hends.2]
    refine ⟨trivial, rfl, ?_⟩
    funext k
    simp [putBarrier, Function.update_apply]

/-- A signal that triggers the barrier. -/
theorem signalBarrier_ends (hbs : st.barriers i = some bs) (hends : bs.ends = true) :
    (st.signalBarrier i).1 = true ∧
      (st.signalBarrier i).2.barrierReleased = bs.waitingEntries ∧
      ∃ bs' : BarrierState, bs'.triggered = true ∧ bs'.modeAnd = bs.modeAnd ∧
        bs'.waitingEntries = bs.waitingEntries ∧
        (st.signalBarrier i).2.barriers = Function.update st.barriers i (some bs') := by
  have hkept : bs.arrive.waitingEntries = bs.waitingEntries ∧ bs.arrive.modeAnd = bs.modeAnd := by
    unfold BarrierState.arrive
    split <;> exact ⟨rfl, rfl⟩
  have hput : ∀ bs' : BarrierState, (fun k => if k = i then some bs' else st.barriers k) =
      Function.update st.barriers i (some bs') := by
    intro bs'
    funext k
    rw [Function.update_apply]
  rw [signalBarrier, hbs]
  simp only [BarrierState.ends, Bool.and_eq_true, Bool.not_eq_true', Bool.or_eq_true,
    beq_iff_eq] at hends
  obtain ⟨ht, hmode⟩ := hends
  cases hand : bs.modeAnd with
  | true =>
    have hzero := hmode.resolve_left (by simp [hand])
    simp only [ht, hand, Bool.false_eq_true, if_false, if_true, hzero]
    exact ⟨trivial, hkept.1, { bs.arrive with remainingStreams := 0, triggered := true }, rfl,
      hkept.2.trans hand, hkept.1, hput _⟩
  | false =>
    simp only [ht, hand, Bool.false_eq_true, if_false]
    exact ⟨trivial, trivial, { bs with modeAnd := false, triggered := true }, rfl, rfl, rfl,
      hput _⟩

/-- The barrier that the first registration makes. -/
def BarrierKind.first (k : BarrierKind) (entry : GpuGpfifoEntry) : BarrierState :=
  ⟨if k.isAnd then k.need else 0, k.isAnd, false, [entry]⟩

@[simp] theorem registerBarrier_released (st : ChannelSemaphoreState) (i : UInt64)
    (entry : GpuGpfifoEntry) (k : BarrierKind) :
    (registerBarrier st i entry k).barrierReleased = st.barrierReleased := by
  cases k <;> rfl

theorem registerBarrier_first (hnone : st.barriers i = none) (entry : GpuGpfifoEntry)
    (k : BarrierKind) : (registerBarrier st i entry k).barriers =
      Function.update st.barriers i (some (k.first entry)) := by
  funext j
  rw [Function.update_apply]
  cases k with
  | and streamCount pos =>
    simp [registerBarrier, registerBarrierAnd, putBarrier, hnone, BarrierState.fresh,
      BarrierKind.first, BarrierKind.isAnd, BarrierKind.need]
  | or =>
    simp [registerBarrier, registerBarrierOr, putBarrier, hnone, BarrierState.fresh,
      BarrierKind.first, BarrierKind.isAnd]

/-- A later registration only joins the waiting entries. -/
theorem registerBarrier_joins (hbs : st.barriers i = some bs) (entry : GpuGpfifoEntry)
    {k : BarrierKind} (hcount : k.isAnd = true → bs.remainingStreams ≠ 0 ∨ bs.triggered = true)
    (hwaiting : bs.waitingEntries ≠ []) : (registerBarrier st i entry k).barriers =
      Function.update st.barriers i
        (some { bs with waitingEntries := bs.waitingEntries ++ [entry] }) := by
  funext j
  rw [Function.update_apply]
  cases k with
  | and streamCount pos =>
    have hnot : ¬(bs.remainingStreams = 0 ∧ bs.triggered = false) := by
      rintro ⟨hzero, hlive⟩
      rcases hcount rfl with hne | ht
      · exact hne hzero
      · rw [hlive] at ht
        cases ht
    simp only [registerBarrier, registerBarrierAnd, putBarrier, hbs, Option.getD_some, if_neg hnot]
  | or =>
    have hnot : ¬(bs.waitingEntries = [] ∧ bs.triggered = false) := fun h => hwaiting h.1
    simp only [registerBarrier, registerBarrierOr, putBarrier, hbs, Option.getD_some, if_neg hnot]

end Calls

/-! ### The invariant -/

section Invariant

variable {kind : UInt64 → BarrierKind}

/-- A barrier has triggered when it is due; until then it counts the signals that are missing. -/
structure BarrierOk (kind : UInt64 → BarrierKind) (g : BarrierObserver) (i : UInt64)
    (bs : BarrierState) : Prop where
  mode : bs.modeAnd = (kind i).isAnd
  entries : bs.waitingEntries = g.entriesOf i
  registered : g.entriesOf i ≠ []
  triggered : bs.triggered = g.due kind i
  remaining : bs.triggered = false → (kind i).isAnd = true →
    bs.remainingStreams = (kind i).need - (g.signals i : Int)

structure BarrierInv (kind : UInt64 → BarrierKind)
    (x : BarrierObserver × ChannelSemaphoreState) : Prop where
  absent : ∀ i, x.2.barriers i = none → x.1.entriesOf i = [] ∧ x.1.signals i = 0
  known : ∀ i bs, x.2.barriers i = some bs → BarrierOk kind x.1 i bs
  law : ReleaseLaw kind x

theorem barrierInv_init : BarrierInv kind (.empty, .empty) where
  absent := fun _ _ => ⟨rfl, rfl⟩
  known := fun _ _ h => by cases h
  law := .nil

variable {g : BarrierObserver} {st : ChannelSemaphoreState} {i : UInt64} {bs : BarrierState}

/-- A barrier that a signal ends lacks that signal only. -/
theorem BarrierOk.ends_iff (h : BarrierOk kind g i bs) :
    bs.ends = true ↔ g.due kind i = false ∧ (kind i).need ≤ g.signals i + 1 := by
  rw [BarrierState.ends, h.triggered, h.mode, Bool.and_eq_true, Bool.not_eq_true',
    Bool.or_eq_true, Bool.not_eq_true', beq_iff_eq]
  refine and_congr_right fun hdue => ?_
  have hlive := h.triggered.trans hdue
  rw [BarrierObserver.due, decide_eq_false_iff_not, Nat.not_le] at hdue
  cases hand : (kind i).isAnd with
  | true =>
    have hrem := h.remaining hlive hand
    have hpos : bs.remainingStreams > 0 := by omega
    rw [BarrierState.arrive, if_pos hpos]
    simp only [Bool.true_eq_false, false_or]
    omega
  | false =>
    have hone : (kind i).need = 1 := by
      cases hk : kind i with
      | and streamCount pos =>
        rw [hk] at hand
        cases hand
      | or => rfl
    exact iff_of_true (.inl rfl) (by omega)

theorem isBarrierReleased_eq (h : BarrierInv kind (g, st)) (i : UInt64) :
    st.isBarrierReleased i = g.due kind i := by
  rw [isBarrierReleased]
  cases hbs : st.barriers i with
  | none =>
    have hzero : g.signals i = 0 := (h.absent i hbs).2
    have hpos := (kind i).need_pos
    exact (decide_eq_false (by omega)).symm
  | some bs => exact (h.known i bs hbs).triggered

/-- The entries of the barriers that are due, when one more barrier comes to them. -/
theorem dueEntries_of_ends {g g' : BarrierObserver} (hreg : g'.registered = g.registered)
    (hbefore : g.due kind i = false) (hafter : g'.due kind i = true)
    (hothers : ∀ j, j ≠ i → g'.due kind j = g.due kind j) :
    (g.dueEntries kind ++ g.entriesOf i).Perm (g'.dueEntries kind) := by
  simp only [BarrierObserver.dueEntries, BarrierObserver.entriesOf, hreg, ← List.map_append]
  refine List.Perm.map _ ?_
  induction g.registered with
  | nil => exact .nil
  | cons r rs ih =>
    by_cases hr : r.1 = i
    · simp only [List.filter_cons, hr, hbefore, hafter, beq_self_eq_true, if_true,
        Bool.false_eq_true, if_false]
      exact List.perm_middle.trans (ih.cons r)
    · have hne : (r.1 == i) = false := beq_eq_false_iff_ne.mpr hr
      simp only [List.filter_cons, hne, hothers _ hr, Bool.false_eq_true, if_false]
      cases g.due kind r.1 with
      | true => exact ih.cons r
      | false => exact ih

theorem entriesOf_register (g : BarrierObserver) (st : ChannelSemaphoreState) (i j : UInt64)
    (entry : GpuGpfifoEntry) : (g.note st (.register i entry)).entriesOf j =
      if j = i then g.entriesOf j ++ [entry] else g.entriesOf j := by
  simp only [BarrierObserver.note, BarrierObserver.entriesOf, List.filter_append, List.map_append]
  by_cases hj : j = i
  · simp [hj]
  · have hne : (i == j) = false := beq_eq_false_iff_ne.mpr (Ne.symm hj)
    simp [hj, hne]

/-- A registration on a barrier that is not due. -/
theorem dueEntries_register (g : BarrierObserver) (st : ChannelSemaphoreState)
    (entry : GpuGpfifoEntry) : (g.note st (.register i entry)).dueEntries kind =
      g.dueEntries kind ++ if g.due kind i then [entry] else [] := by
  show List.map Prod.snd (List.filter (fun r => g.due kind r.1) (g.registered ++ [(i, entry)])) = _
  rw [List.filter_append, List.map_append]
  cases hdue : g.due kind i <;> simp [hdue, BarrierObserver.dueEntries]

theorem offered_register (g : BarrierObserver) (st : ChannelSemaphoreState) (i : UInt64)
    (entry : GpuGpfifoEntry) (k : BarrierKind) :
    (g.note st (.register i entry)).offered (registerBarrier st i entry k) = g.offered st := by
  simp only [BarrierObserver.offered, BarrierObserver.available, BarrierObserver.note,
    registerBarrier_released]

/-- The barrier's entries take the place of what has not been read. -/
theorem offered_ends (g : BarrierObserver) (hbs : st.barriers i = some bs)
    (hends : bs.ends = true) :
    (g.note st (.signal i)).offered (st.signalBarrier i).2 = g.handed ++ bs.waitingEntries := by
  obtain ⟨hret, hreleased, -⟩ := signalBarrier_ends hbs hends
  simp only [BarrierObserver.offered, BarrierObserver.available, BarrierObserver.note, hret,
    Bool.or_true, if_true, hreleased]

theorem offered_waits (g : BarrierObserver) (hbs : st.barriers i = some bs)
    (hends : bs.ends = false) :
    (g.note st (.signal i)).offered (st.signalBarrier i).2 = g.offered st := by
  obtain ⟨hret, hreleased, -⟩ := signalBarrier_waits hbs hends
  simp only [BarrierObserver.offered, BarrierObserver.available, BarrierObserver.note, hret,
    Bool.or_false, hreleased]

theorem offered_collect (g : BarrierObserver) (st : ChannelSemaphoreState) :
    (g.note st .collect).offered st = g.offered st := by
  simp only [BarrierObserver.offered, BarrierObserver.available, BarrierObserver.note,
    Bool.false_eq_true, if_false, List.append_nil]

/-- The signals of a barrier that something is registered on are counted. -/
theorem signals_signal (hreg : g.entriesOf i ≠ []) : (g.note st (.signal i)).signals =
    Function.update g.signals i (g.signals i + 1) := if_neg hreg

theorem signals_signal_self (hreg : g.entriesOf i ≠ []) :
    (g.note st (.signal i)).signals i = g.signals i + 1 := by
  rw [signals_signal hreg, Function.update_self]

theorem due_signal_self (hreg : g.entriesOf i ≠ []) :
    (g.note st (.signal i)).due kind i = decide ((kind i).need ≤ g.signals i + 1) := by
  rw [BarrierObserver.due, signals_signal_self hreg]

/-- A signal leaves the other barriers alone. -/
theorem signal_others (hreg : g.entriesOf i ≠ []) : ∀ j, j ≠ i →
    (g.note st (.signal i)).entriesOf j = g.entriesOf j ∧
      (g.note st (.signal i)).signals j = g.signals j := by
  intro j hj
  exact ⟨rfl, by rw [signals_signal hreg, Function.update_of_ne hj]⟩

theorem due_signal_of_ne (hreg : g.entriesOf i ≠ []) : ∀ j, j ≠ i →
    (g.note st (.signal i)).due kind j = g.due kind j := by
  intro j hj
  rw [BarrierObserver.due, BarrierObserver.due, (signal_others hreg j hj).2]

/-- One barrier changes. -/
theorem BarrierInv.update {g' : BarrierObserver} {st' : ChannelSemaphoreState}
    {new : BarrierState} (h : BarrierInv kind (g, st))
    (hbarriers : st'.barriers = Function.update st.barriers i (some new))
    (hnew : BarrierOk kind g' i new)
    (hothers : ∀ j, j ≠ i → g'.entriesOf j = g.entriesOf j ∧ g'.signals j = g.signals j)
    (hlaw : ReleaseLaw kind (g', st')) : BarrierInv kind (g', st') := by
  refine ⟨fun j hj => ?_, fun j bs hj => ?_, hlaw⟩
  · have hne : j ≠ i := by
      rintro rfl
      rw [hbarriers, Function.update_self] at hj
      cases hj
    rw [hbarriers, Function.update_of_ne hne] at hj
    rw [(hothers j hne).1, (hothers j hne).2]
    exact h.absent j hj
  · by_cases hne : j = i
    · rw [hbarriers, hne, Function.update_self] at hj
      rw [hne, ← Option.some.inj hj]
      exact hnew
    · rw [hbarriers, Function.update_of_ne hne] at hj
      obtain ⟨hentries, hsignals⟩ := hothers j hne
      obtain ⟨hmode, hwaiting, hreg, htrig, hrem⟩ := h.known j bs hj
      refine ⟨hmode, hwaiting.trans hentries.symm, hentries.symm ▸ hreg, ?_, ?_⟩
      · rw [htrig, BarrierObserver.due, BarrierObserver.due, hsignals]
      · rwa [hsignals]

/-! ### Steps -/

theorem barrierInv_register {entry : GpuGpfifoEntry} (h : BarrierInv kind (g, st))
    (hG : releasesApart (g, st) (.register i entry)) :
    BarrierInv kind (observedBarrier kind (g, st) (.register i entry)) := by
  have hdue : g.due kind i = false := (isBarrierReleased_eq h i).symm.trans hG
  have hentries := entriesOf_register g st i
  have hlaw : ReleaseLaw kind (observedBarrier kind (g, st) (.register i entry)) := by
    show ((g.note st _).offered (registerBarrier st i entry (kind i))).Perm
      ((g.note st (.register i entry)).dueEntries kind)
    rw [offered_register, dueEntries_register, hdue, if_neg (by decide), List.append_nil]
    exact h.law
  have hothers : ∀ j, j ≠ i →
      (g.note st (.register i entry)).entriesOf j = g.entriesOf j ∧
        (g.note st (.register i entry)).signals j = g.signals j := by
    intro j hj
    exact ⟨by rw [hentries, if_neg hj], rfl⟩
  have hself : (g.note st (.register i entry)).entriesOf i = g.entriesOf i ++ [entry] := by
    rw [hentries, if_pos rfl]
  have hsome : (g.note st (.register i entry)).entriesOf i ≠ [] := by
    rw [hself]
    exact List.append_ne_nil_of_right_ne_nil _ (List.cons_ne_nil _ _)
  cases hbs : st.barriers i with
  | none =>
    obtain ⟨hnil, hzero⟩ := h.absent i hbs
    refine h.update (registerBarrier_first hbs entry (kind i))
      ⟨rfl, ?_, hsome, hdue.symm, fun _ hand => ?_⟩ hothers hlaw
    · rw [hself, show g.entriesOf i = [] from hnil]
      rfl
    · have hsignals : (g.note st (.register i entry)).signals i = 0 := hzero
      simp [BarrierKind.first, hand, hsignals]
  | some bs =>
    obtain ⟨hmode, hwaiting, hreg, htrig, hrem⟩ := h.known i bs hbs
    have hlive : bs.triggered = false := htrig.trans hdue
    have hneed : g.signals i < (kind i).need := Nat.not_le.mp (of_decide_eq_false hdue)
    have hcount : (kind i).isAnd = true → bs.remainingStreams ≠ 0 ∨ bs.triggered = true := by
      intro hand
      have hleft : bs.remainingStreams = (kind i).need - (g.signals i : Int) := hrem hlive hand
      omega
    refine h.update (registerBarrier_joins hbs entry hcount (by rwa [hwaiting]))
      ⟨hmode, ?_, hsome, htrig, hrem⟩ hothers hlaw
    rw [hself, ← show bs.waitingEntries = g.entriesOf i from hwaiting]

/-- A signal on a barrier that nothing is registered on. -/
theorem signalBarrier_absent (hbs : st.barriers i = none) : st.signalBarrier i = (false, st) := by
  rw [signalBarrier, hbs]

/-- The signal that completes a barrier releases its entries, which have been due from here on. -/
theorem barrierInv_signal_ends (h : BarrierInv kind (g, st)) (hbs : st.barriers i = some bs)
    (hends : bs.ends = true) (hempty : g.available st = []) :
    BarrierInv kind (observedBarrier kind (g, st) (.signal i)) := by
  have hok := h.known i bs hbs
  have hreg : g.entriesOf i ≠ [] := hok.registered
  obtain ⟨hwas, hlast⟩ := hok.ends_iff.mp hends
  obtain ⟨-, -, bs', htrig, hmode, hwaiting, hbarriers⟩ := signalBarrier_ends hbs hends
  have hafter : (g.note st (.signal i)).due kind i = true := by
    rw [due_signal_self hreg]
    exact decide_eq_true hlast
  have hlaw : ReleaseLaw kind (observedBarrier kind (g, st) (.signal i)) := by
    have hold : (g.offered st).Perm (g.dueEntries kind) := h.law
    rw [BarrierObserver.offered, hempty, List.append_nil] at hold
    show ((g.note st _).offered (st.signalBarrier i).2).Perm _
    rw [offered_ends g hbs hends, hok.entries]
    exact (hold.append_right _).trans
      (dueEntries_of_ends rfl hwas hafter (due_signal_of_ne hreg))
  refine h.update hbarriers ⟨hmode.trans hok.mode, hwaiting.trans hok.entries, hreg,
    htrig.trans hafter.symm, fun hlive => ?_⟩ (signal_others hreg) hlaw
  rw [htrig] at hlive
  cases hlive

/-- Any other signal is counted, and releases nothing. -/
theorem barrierInv_signal_waits (h : BarrierInv kind (g, st)) (hbs : st.barriers i = some bs)
    (hends : bs.ends = false) :
    BarrierInv kind (observedBarrier kind (g, st) (.signal i)) := by
  have hok := h.known i bs hbs
  have hreg : g.entriesOf i ≠ [] := hok.registered
  obtain ⟨-, -, hbarriers⟩ := signalBarrier_waits hbs hends
  have hsame : (g.note st (.signal i)).due kind i = g.due kind i := by
    cases hwas : g.due kind i with
    | true =>
      have hle : (kind i).need ≤ g.signals i := of_decide_eq_true hwas
      rw [due_signal_self hreg]
      exact decide_eq_true (Nat.le_succ_of_le hle)
    | false =>
      rw [due_signal_self hreg]
      refine decide_eq_false fun hlast => ?_
      rw [hok.ends_iff.mpr ⟨hwas, hlast⟩] at hends
      cases hends
  have hall : ∀ j, (g.note st (.signal i)).due kind j = g.due kind j := by
    intro j
    by_cases hj : j = i
    · rw [hj, hsame]
    · exact due_signal_of_ne hreg j hj
  have hlaw : ReleaseLaw kind (observedBarrier kind (g, st) (.signal i)) := by
    show ((g.note st _).offered (st.signalBarrier i).2).Perm
      (List.map Prod.snd (List.filter (fun r => (g.note st (.signal i)).due kind r.1) _))
    rw [offered_waits g hbs hends]
    simp only [hall]
    exact h.law
  refine h.update hbarriers ?_ (signal_others hreg) hlaw
  cases htrig : bs.triggered with
  | true =>
    refine ⟨hok.mode, hok.entries, hreg, ?_, fun hlive => ?_⟩
    · rw [if_pos rfl, hsame, hok.triggered]
    · rw [if_pos rfl, htrig] at hlive
      cases hlive
  | false =>
    have hand : (kind i).isAnd = true := by
      rw [← hok.mode]
      by_contra hor
      simp [BarrierState.ends, htrig, hor] at hends
    have hrem : bs.remainingStreams = (kind i).need - (g.signals i : Int) :=
      hok.remaining htrig hand
    have hneed : g.signals i < (kind i).need :=
      Nat.not_le.mp (of_decide_eq_false (hok.triggered.symm.trans htrig))
    rw [if_neg (by decide), BarrierState.arrive, if_pos (by omega)]
    refine ⟨hok.mode, hok.entries, hreg, ?_, fun _ _ => ?_⟩
    · rw [hsame, ← hok.triggered]
    · rw [signals_signal_self hreg]
      simp only
      omega

theorem barrierInv_signal (h : BarrierInv kind (g, st)) (hG : releasesApart (g, st) (.signal i)) :
    BarrierInv kind (observedBarrier kind (g, st) (.signal i)) := by
  cases hbs : st.barriers i with
  | none =>
    have hsame : observedBarrier kind (g, st) (.signal i) = (g, st) := by
      have hnil : g.entriesOf i = [] := (h.absent i hbs).1
      simp only [observedBarrier, observed, BarrierObserver.note, barrierStep,
        signalBarrier_absent hbs, hnil, if_true, Bool.or_false]
    rw [hsame]
    exact h
  | some bs =>
    cases hends : bs.ends with
    | true => exact barrierInv_signal_ends h hbs hends (hG bs hbs hends)
    | false => exact barrierInv_signal_waits h hbs hends

theorem barrierInv_step (x : BarrierObserver × ChannelSemaphoreState) (op : BarrierOp)
    (h : BarrierInv kind x) (hG : releasesApart x op) :
    BarrierInv kind (observedBarrier kind x op) := by
  obtain ⟨g, st⟩ := x
  cases op with
  | register i entry => exact barrierInv_register h hG
  | signal i => exact barrierInv_signal h hG
  | collect =>
    refine ⟨h.absent, fun i bs hbs => ?_, ?_⟩
    · obtain ⟨hmode, hentries, hreg, htrig, hrem⟩ := h.known i bs hbs
      exact ⟨hmode, hentries, hreg, htrig, hrem⟩
    · show ((g.note st .collect).offered st).Perm _
      rw [offered_collect]
      exact h.law

/-! ### The result -/

/-- An entry that joins a triggered barrier is not released, and one that is overwritten is gone. -/
theorem releasesApart_of_law (x : BarrierObserver × ChannelSemaphoreState) (op : BarrierOp)
    (h : BarrierInv kind x) (hnext : ReleaseLaw kind (observedBarrier kind x op)) :
    releasesApart x op := by
  obtain ⟨g, st⟩ := x
  have hlen : (g.offered st).length = (g.dueEntries kind).length := List.Perm.length_eq h.law
  cases op with
  | register i entry =>
    by_contra hreleased
    have hdue : g.due kind i = true := by
      rw [← isBarrierReleased_eq h i]
      simpa [releasesApart] using hreleased
    replace hnext : ((g.note st (.register i entry)).offered
      (registerBarrier st i entry (kind i))).Perm _ := hnext
    rw [offered_register] at hnext
    have hmore := hnext.length_eq
    simp only [observedBarrier, observed] at hmore
    rw [dueEntries_register, hdue, if_pos rfl, List.length_append, List.length_singleton] at hmore
    omega
  | signal i =>
    intro bs hbs hends
    have hok := h.known i bs hbs
    obtain ⟨hwas, hlast⟩ := hok.ends_iff.mp hends
    have hsignals : (g.note st (.signal i)).signals =
        Function.update g.signals i (g.signals i + 1) := signals_signal hok.registered
    have hdues : (g.dueEntries kind ++ g.entriesOf i).Perm
        ((g.note st (.signal i)).dueEntries kind) := by
      refine dueEntries_of_ends rfl hwas ?_ fun j hj => ?_
      · rw [BarrierObserver.due, hsignals, Function.update_self]
        exact decide_eq_true hlast
      · rw [BarrierObserver.due, BarrierObserver.due, hsignals, Function.update_of_ne hj]
    replace hnext : ((g.note st (.signal i)).offered (st.signalBarrier i).2).Perm _ := hnext
    rw [offered_ends g hbs hends, hok.entries] at hnext
    have hmore := (hnext.trans hdues.symm).length_eq
    simp only [BarrierObserver.offered, List.length_append] at hlen hmore
    exact List.length_eq_zero_iff.mp (show (g.available st).length = 0 by omega)
  | collect => trivial

end Invariant

/-- **Barrier release.**  Along a run, what has been released is in every state what is due, each
registration once, exactly when registrations find their barrier waiting and no barrier triggers
over entries that have not been read. -/
theorem barrier_release_iff (kind : UInt64 → BarrierKind) (ops : List BarrierOp) :
    Always (observedBarrier kind) (ReleaseLaw kind) (.empty, .empty) ops ↔
      Guarded (observedBarrier kind) releasesApart (.empty, .empty) ops :=
  always_iff_guarded barrierInv_step (fun _ h => h.law) releasesApart_of_law ops barrierInv_init

/-- The second registration comes after the only signal, and its entry is never handed out. -/
theorem barrier_release_fails :
    ¬Always (observedBarrier fun _ => .or) (ReleaseLaw fun _ => .or) (.empty, .empty)
      [.register 1 .zero, .signal 1, .collect, .register 1 .zero] := by
  intro h
  have hlaw := Always.last _ h
  exact absurd (List.Perm.length_eq hlaw) (by decide +kernel)

end UsrLinuxEmu.GpuDriver
