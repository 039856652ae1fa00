import UsrLinuxEmu.GpuDriver.ChannelProtocol
import UsrLinuxEmu.Transition.Simulation

/-!
# Turns within one priority level (`sim/hardware/channel_manager.cpp`)

A level's queue holds ids, not batches, and the scan leaves the id it returns at the front.  When the
channel yields and submits again, the id left over stands for the new batch, in front of channels
that have waited longer.

* `noteBypasses` — how often each waiting channel has been passed over by each other one;
* `ahead` — the ids that stand before a channel in its queue;
* `resubmitsBehind` — a channel that has passed a waiting one does not submit again while a left-over
  id of it stands before that one;
* `fairly_bypassed` — then no channel passes a waiting one of its level twice.
-/

namespace UsrLinuxEmu.GpuDriver

open UsrLinuxEmu.Transition ChannelManager

namespace ProtocolRun

/-! ### Passing over -/

/-- The channel is in flight and not the one that the puller works on. -/
def waiting (r : ProtocolRun) (d : ℕ) : Bool :=
  (r.mgr.channels d).batchInFlight && decide (r.owed ≠ some d)

/-- `n d c`: how often `c` has been selected before `d`, on the same level, since `d` waits. -/
abbrev Bypasses := ℕ → ℕ → ℕ

/-- The operation selects `c` while `d`, of equal priority, waits. -/
def passes (r : ProtocolRun) (op : ManagerOp) (c d : ℕ) : Bool :=
  decide (op = .nextReadyChannel) && decide ((r.step op).owed = some c) &&
    decide ((r.mgr.channels c).priority = (r.mgr.channels d).priority)

def noteBypasses (n : Bypasses) (r : ProtocolRun) (op : ManagerOp) : Bypasses := fun d c =>
  if (r.step op).waiting d then n d c + (if r.passes op c d then 1 else 0) else 0

/-- No channel has passed a waiting one twice. -/
def FairlyBypassed (x : Bypasses × ProtocolRun) : Prop := ∀ d c, x.1 d c ≤ 1

/-- The ids before the first `d`. -/
def ahead (q : List ℕ) (d : ℕ) : List ℕ := q.takeWhile fun c => decide (c ≠ d)

/-- A submission that sets the flag of `c` finds no id of `c` before a channel that `c` has passed. -/
def resubmitsBehind (x : Bypasses × ProtocolRun) : ManagerOp → Prop
  | .submitBatch c _ => (x.2.mgr.channels c).batchInFlight = true ∨
      ∀ d < maxChannels, x.2.waiting d = true → x.1 d c = 1 →
        c ∉ ahead (x.2.mgr.priQueues (x.2.mgr.channels d).priority) d
  | .configure _ | .yieldChannel _ | .nextReadyChannel => True

instance decidableResubmitsBehind (x : Bypasses × ProtocolRun) :
    ∀ op, Decidable (resubmitsBehind x op)
  | .submitBatch .. => inferInstanceAs (Decidable (_ ∨ ∀ d < maxChannels, _))
  | .configure _ | .yieldChannel _ | .nextReadyChannel => inferInstanceAs (Decidable True)

/-- The puller's protocol, and the condition on submissions. -/
def turnGuard (x : Bypasses × ProtocolRun) (op : ManagerOp) : Prop :=
  x.2.yieldsFirst op ∧ resubmitsBehind x op

instance (x : Bypasses × ProtocolRun) (op : ManagerOp) : Decidable (turnGuard x op) :=
  inferInstanceAs (Decidable (_ ∧ _))

abbrev turnStep := observed step noteBypasses

/-! ### The ids before a waiting channel -/

theorem ahead_append {q : List ℕ} {d : ℕ} (hd : d ∈ q) (l : List ℕ) :
    ahead (q ++ l) d = ahead q d := by
  induction q with
  | nil => cases hd
  | cons x q ih =>
    by_cases hx : x = d
    · simp [ahead, hx]
    · have htail := ih ((List.mem_cons.mp hd).resolve_left (Ne.symm hx))
      unfold ahead at htail ⊢
      rw [List.cons_append, List.takeWhile_cons_of_pos (by simpa using hx),
        List.takeWhile_cons_of_pos (by simpa using hx), htail]

theorem ahead_cons_of_ne {c d : ℕ} (hne : c ≠ d) (q : List ℕ) :
    ahead (c :: q) d = c :: ahead q d :=
  List.takeWhile_cons_of_pos (by simpa using hne)

/-- A channel in flight is not dropped, and what is dropped stood before it. -/
theorem ahead_dropStale {m : ChannelManager} {d : ℕ}
    (hd : (m.channels d).batchInFlight = true) (q : List ℕ) :
    ahead (m.dropStale q) d ⊆ ahead q d := by
  induction q with
  | nil => exact List.Subset.refl _
  | cons x q ih =>
    rw [dropStale, List.dropWhile_cons]
    split_ifs with hstale
    · have hne : x ≠ d := by
        rintro rfl
        simp [hd] at hstale
      rw [ahead_cons_of_ne hne]
      exact List.subset_cons_of_subset x ih
    · exact List.Subset.refl _

/-- The ids before a channel in flight, after a selection of another channel. -/
theorem ahead_picks {m : ChannelManager} {r : Option ℕ × ChannelManager} (hp : Picks m r) {d : ℕ}
    (hd : (m.channels d).batchInFlight = true) (hne : r.1 ≠ some d) (pri : ChannelPrio) :
    ahead (r.2.priQueues pri) d ⊆ ahead (m.priQueues pri) d := by
  have hdrop := ahead_dropStale hd (m.priQueues pri)
  rcases hp.queues pri with hq | hq | ⟨c, hc, hq⟩
  · rw [hq]
    exact List.Subset.refl _
  · rw [hq]
    exact hdrop
  · have hcd : c ≠ d := by
      rintro rfl
      exact hne hc
    rw [hq, ahead_cons_of_ne hcd] at hdrop
    exact List.Subset.trans (List.subset_cons_self _ _) hdrop

/-! ### The invariant -/

/-- A channel that has passed a waiting one and waits again stands behind it. -/
structure TurnInv (x : Bypasses × ProtocolRun) : Prop where
  ready : x.2.ReadyInv
  idle : ∀ d c, x.2.waiting d = false → x.1 d c = 0
  once : ∀ d c, x.1 d c ≤ 1
  behind : ∀ d c, x.2.waiting d = true → x.1 d c = 1 → x.2.waiting c = true →
    c ∉ ahead (x.2.mgr.priQueues (x.2.mgr.channels d).priority) d

theorem waiting_iff {r : ProtocolRun} {d : ℕ} : r.waiting d = true ↔
    (r.mgr.channels d).batchInFlight = true ∧ r.owed ≠ some d := by
  rw [waiting, Bool.and_eq_true, decide_eq_true_eq]

/-- A waiting channel is in its queue. -/
theorem ReadyInv.mem_queue {r : ProtocolRun} (h : r.ReadyInv) {d : ℕ}
    (hd : r.waiting d = true) : d ∈ r.mgr.priQueues (r.mgr.channels d).priority := by
  obtain ⟨hflight, howed⟩ := waiting_iff.mp hd
  exact h.queued d hflight howed

theorem turnInv_init (mqd : ℕ → Mqd) : TurnInv (fun _ _ => 0, init mqd) :=
  ⟨readyInv_init mqd, fun _ _ _ => rfl, fun _ _ => Nat.zero_le 1, fun _ _ hd => by cases hd⟩

/-- A channel that begins to wait at an operation other than a selection has just submitted. -/
theorem waiting_of_step {r : ProtocolRun} (h : r.ReadyInv) {op : ManagerOp}
    (hop : op ≠ .nextReadyChannel) {c : ℕ} (hc : (r.step op).waiting c = true) :
    r.waiting c = true ∨
      ((r.mgr.channels c).batchInFlight = false ∧ ∃ b, op = .submitBatch c b) := by
  obtain ⟨hflight, howed⟩ := waiting_iff.mp hc
  cases hold : (r.mgr.channels c).batchInFlight with
  | false =>
    right
    refine ⟨rfl, ?_⟩
    by_contra hno
    push Not at hno
    have hclear : ((r.step op).mgr.channels c).batchInFlight = false := opStep_cleared hold hno
    rw [hclear] at hflight
    cases hflight
  | true =>
    left
    refine waiting_iff.mpr ⟨hold, fun heq => ?_⟩
    -- the owed channel begins to wait only when it yields, and then it is not in flight
    cases op with
    | configure op => exact howed heq
    | submitBatch id b => exact howed heq
    | yieldChannel id =>
      have hkeep : (r.step (.yieldChannel id)).owed = if r.owed = some id then none else r.owed := rfl
      have hflags : ((r.mgr.channels c).batchInFlight && c != id) = true :=
        (yieldChannel_inFlight h.inFlight id c).symm.trans hflight
      rw [Bool.and_eq_true, bne_iff_ne] at hflags
      have hne : ¬some c = some id := fun habs => hflags.2 (Option.some.inj habs)
      rw [hkeep, heq, if_neg hne] at howed
      exact howed rfl
    | nextReadyChannel => exact hop rfl

theorem noteBypasses_of_ne {n : Bypasses} {r : ProtocolRun} {op : ManagerOp}
    (hop : op ≠ .nextReadyChannel) (d c : ℕ) :
    noteBypasses n r op d c = if (r.step op).waiting d then n d c else 0 := by
  have hpass : r.passes op c d = false := by simp [passes, hop]
  rw [noteBypasses, hpass]
  rfl

theorem turnInv_op {x : Bypasses × ProtocolRun} (h : TurnInv x) {op : ManagerOp}
    (hop : op ≠ .nextReadyChannel) (hG : resubmitsBehind x op)
    (hready : (x.2.step op).ReadyInv) : TurnInv (turnStep x op) := by
  obtain ⟨n, r⟩ := x
  obtain ⟨pushed, hpush⟩ := opStep_pushes r.mgr hop
  refine ⟨hready, fun d c hd => ?_, fun d c => ?_, fun d c hd hone hc => ?_⟩
  · show noteBypasses n r op d c = 0
    have hd' : (r.step op).waiting d = false := hd
    rw [noteBypasses_of_ne hop, hd']
    rfl
  · show noteBypasses n r op d c ≤ 1
    rw [noteBypasses_of_ne hop]
    split_ifs
    · exact h.once d c
    · exact Nat.zero_le 1
  · have hd' : (r.step op).waiting d = true := hd
    have hn : n d c = 1 := by
      have hnote : noteBypasses n r op d c = 1 := hone
      rwa [noteBypasses_of_ne hop, hd'] at hnote
    -- `d` was waiting before, since its count is not zero
    have hwait : r.waiting d = true := by
      cases hold : r.waiting d with
      | true => rfl
      | false =>
        have hzero : n d c = 0 := h.idle d c hold
        omega
    have hmem := h.ready.mem_queue hwait
    have hregd := h.ready.inFlight d (waiting_iff.mp hwait).1
    show c ∉ ahead ((opStep r.mgr op).priQueues ((opStep r.mgr op).channels d).priority) d
    rw [hpush.priority d (registered_of_isRegistered hregd), hpush.queues, ahead_append hmem]
    rcases waiting_of_step h.ready hop hc with hcold | ⟨hclear, b, rfl⟩
    · exact h.behind d c hwait hn hcold
    · rcases hG with habs | hbehind
      · have hset : (r.mgr.channels c).batchInFlight = true := habs
        rw [hclear] at hset
        cases hset
      · rw [isRegistered, Bool.and_eq_true, decide_eq_true_eq] at hregd
        exact hbehind d hregd.1 hwait hn

section Selection

variable {n : Bypasses} {m : ChannelManager} {c d : ℕ}

/-- Who waits after a selection has waited before it, and is not the one selected. -/
theorem waiting_of_select (hd : (step ⟨m, none⟩ .nextReadyChannel).waiting d = true) :
    waiting ⟨m, none⟩ d = true ∧ (m.nextReadyChannel.2.channels d).batchInFlight = true ∧
      m.nextReadyChannel.1 ≠ some d := by
  obtain ⟨hflight, hne⟩ := waiting_iff.mp hd
  have hold := (nextReadyChannel_slotsFrom m d hflight).1
  exact ⟨waiting_iff.mpr ⟨hold, (Option.some_ne_none d).symm⟩, hflight, hne⟩

theorem ReadyInv.scans (h : ReadyInv ⟨m, none⟩) (hd : waiting ⟨m, none⟩ d = true) :
    Picks m.preemptGreen m.nextReadyChannel := by
  have hreg := h.inFlight d (waiting_iff.mp hd).1
  exact nextReadyChannel_picks m (h.active d (registered_of_isRegistered hreg))

/-- The ids before `d` that the scan can come upon stood before it already. -/
theorem ReadyInv.ahead_preemptGreen (h : ReadyInv ⟨m, none⟩)
    (hd : waiting ⟨m, none⟩ d = true) :
    (m.nextReadyChannel.2.channels d).priority = (m.channels d).priority ∧
      ahead (m.preemptGreen.priQueues (m.channels d).priority) d =
        ahead (m.priQueues (m.channels d).priority) d := by
  obtain ⟨pushed, hpush⟩ := preemptGreen_pushes m
  have hreg := registered_of_isRegistered (h.inFlight d (waiting_iff.mp hd).1)
  refine ⟨?_, ?_⟩
  · rw [(h.scans hd).channels, hpush.priority d hreg]
  · rw [hpush.queues]
    exact ahead_append (h.mem_queue hd) _

/-- The channel that a selection takes before `d` of its level stood before it. -/
theorem ReadyInv.mem_ahead (h : ReadyInv ⟨m, none⟩)
    (hd : (step ⟨m, none⟩ .nextReadyChannel).waiting d = true)
    (hsel : m.nextReadyChannel.1 = some c)
    (hpri : (m.channels c).priority = (m.channels d).priority) :
    waiting ⟨m, none⟩ c = true ∧ c ∈ ahead (m.priQueues (m.channels d).priority) d := by
  obtain ⟨hwait, hflight, hne⟩ := waiting_of_select hd
  have hp := h.scans hwait
  obtain ⟨pushed, hpush⟩ := preemptGreen_pushes m
  obtain ⟨pri, rest, hfront, -⟩ := hp.front c hsel
  obtain ⟨hcflight, hcmem⟩ := dropStale_cons hfront
  have hcwait : waiting ⟨m, none⟩ c = true :=
    waiting_iff.mpr ⟨(preemptGreen_slotsFrom m c hcflight).1, (Option.some_ne_none c).symm⟩
  have hcreg := registered_of_isRegistered (h.inFlight c (waiting_iff.mp hcwait).1)
  have hrank : (m.preemptGreen.channels c).priority = pri :=
    ((h.pushes hpush).ranked pri c hcmem).2
  rw [hpush.priority c hcreg, hpri] at hrank
  have hcd : c ≠ d := by
    rintro rfl
    exact hne hsel
  have hdflight : (m.preemptGreen.channels d).batchInFlight = true := by rwa [← hp.channels]
  refine ⟨hcwait, ?_⟩
  rw [← (h.ahead_preemptGreen hwait).2]
  refine ahead_dropStale hdflight _ ?_
  rw [hrank, hfront, ahead_cons_of_ne hcd]
  exact List.mem_cons_self

/-- A channel passes a waiting one only for the first time. -/
theorem TurnInv.first_pass (h : TurnInv (n, ⟨m, none⟩))
    (hd : (step ⟨m, none⟩ .nextReadyChannel).waiting d = true)
    (hpass : passes ⟨m, none⟩ .nextReadyChannel c d = true) :
    m.nextReadyChannel.1 = some c ∧ n d c = 0 := by
  simp only [passes, Bool.and_eq_true, decide_eq_true_eq] at hpass
  obtain ⟨⟨-, hsel⟩, hpri⟩ := hpass
  have hsel' : m.nextReadyChannel.1 = some c := hsel
  have hwait := (waiting_of_select hd).1
  obtain ⟨hcwait, hmem⟩ := h.ready.mem_ahead hd hsel' hpri
  refine ⟨hsel', ?_⟩
  by_contra hn
  have hn' : n d c = 1 := by
    have hle : n d c ≤ 1 := h.once d c
    omega
  exact h.behind d c hwait hn' hcwait hmem

end Selection

theorem turnInv_select {x : Bypasses × ProtocolRun} (h : TurnInv x)
    (hG : x.2.yieldsFirst .nextReadyChannel) : TurnInv (turnStep x .nextReadyChannel) := by
  obtain ⟨n, m, owed⟩ := x
  have howed : owed = none := hG rfl
  subst howed
  have hready := readyInv_step ⟨m, none⟩ .nextReadyChannel h.ready hG
  refine ⟨hready, fun d c hd => ?_, fun d c => ?_, fun d c hd hone hc => ?_⟩
  · have hd' : (ProtocolRun.step ⟨m, none⟩ .nextReadyChannel).waiting d = false := hd
    show noteBypasses n ⟨m, none⟩ .nextReadyChannel d c = 0
    rw [noteBypasses, hd']
    rfl
  · show noteBypasses n ⟨m, none⟩ .nextReadyChannel d c ≤ 1
    unfold noteBypasses
    split_ifs with hd hp
    · rw [(h.first_pass hd hp).2]
    · exact h.once d c
    · exact Nat.zero_le 1
  · have hd' : (ProtocolRun.step ⟨m, none⟩ .nextReadyChannel).waiting d = true := hd
    obtain ⟨hwait, hflight, hne⟩ := waiting_of_select hd'
    obtain ⟨hcwait, -, hcsel⟩ := waiting_of_select hc
    have hn : n d c = 1 := by
      have hnote : noteBypasses n ⟨m, none⟩ .nextReadyChannel d c = 1 := hone
      unfold noteBypasses at hnote
      rw [if_pos hd'] at hnote
      split_ifs at hnote with hp
      · exact absurd (h.first_pass hd' hp).1 hcsel
      · exact hnote
    have hp := h.ready.scans hwait
    obtain ⟨hpri, hahead⟩ := h.ready.ahead_preemptGreen hwait
    have hdflight : (m.preemptGreen.channels d).batchInFlight = true := by rwa [← hp.channels]
    show c ∉ ahead (m.nextReadyChannel.2.priQueues
      (m.nextReadyChannel.2.channels d).priority) d
    intro hmem
    rw [hpri] at hmem
    have hold := ahead_picks hp hdflight hne _ hmem
    rw [hahead] at hold
    exact h.behind d c hwait hn hcwait hold

theorem turnInv_step (x : Bypasses × ProtocolRun) (op : ManagerOp) (h : TurnInv x)
    (hG : turnGuard x op) : TurnInv (turnStep x op) := by
  have hready := readyInv_step x.2 op h.ready hG.1
  cases op with
  | configure op => exact turnInv_op h (by simp) hG.2 hready
  | submitBatch id b => exact turnInv_op h (by simp) hG.2 hready
  | yieldChannel id => exact turnInv_op h (by simp) hG.2 hready
  | nextReadyChannel => exact turnInv_select h hG.1

/-! ### The law -/

/-- **Turns.**  Under the puller's protocol, when no channel is submitted again while an id left over
stands before a channel it has passed, no waiting channel is passed twice by another of its level. -/
theorem fairly_bypassed (mqd : ℕ → Mqd) (ops : List ManagerOp)
    (h : Guarded turnStep turnGuard (fun _ _ => 0, init mqd) ops) :
    Always turnStep FairlyBypassed (fun _ _ => 0, init mqd) ops :=
  (always_of_inductive turnInv_step (turnInv_init mqd) h).mono turnStep fun _ hinv => hinv.once

/-- Two NORMAL channels take turns when each submits before the other is done. -/
theorem fairly_bypassed_turns : Always turnStep FairlyBypassed
    (fun _ _ => 0, init fun _ => ⟨0, 0, 0, 0, 0, 0, mqdStateIdle⟩)
    [.configure (.register 0 .normal .brown), .configure (.register 1 .normal .brown),
      .submitBatch 0 ⟨0x100000000, 1, 1⟩, .submitBatch 1 ⟨0x100001000, 1, 2⟩, .nextReadyChannel,
      .yieldChannel 0, .nextReadyChannel, .submitBatch 0 ⟨0x100000000, 1, 3⟩, .yieldChannel 1,
      .nextReadyChannel] :=
  fairly_bypassed _ _ (by decide +kernel)

/-- Channel 0 submits again after each batch and channel 1 waits. -/
theorem fairly_bypassed_fails : ¬Always turnStep FairlyBypassed
    (fun _ _ => 0, init fun _ => ⟨0, 0, 0, 0, 0, 0, mqdStateIdle⟩)
    [.configure (.register 0 .normal .brown), .configure (.register 1 .normal .brown),
      .submitBatch 0 ⟨0x100000000, 1, 1⟩, .submitBatch 1 ⟨0x100001000, 1, 2⟩, .nextReadyChannel,
      .yieldChannel 0, .submitBatch 0 ⟨0x100000000, 1, 3⟩, .nextReadyChannel] := by
  intro h
  have hlast := h.last turnStep 1 0
  revert hlast
  decide +kernel

end ProtocolRun

end UsrLinuxEmu.GpuDriver
