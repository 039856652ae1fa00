import UsrLinuxEmu.GpuDriver.ChannelManager
import UsrLinuxEmu.Transition.Run

/-!
# GREEN preemption and the victim's batch

When a BROWN channel waits and a GREEN one was selected last, `nextReadyChannel` clears the GREEN
channel's in-flight flag and queues the channel again.  The scan drops queued channels whose flag is
clear, so the victim's batch is gone.

* `ManagerOp` / `opStep` — the operations on a channel manager, in any order;
* `KeepsVictims` — every victim can still be selected with its batch;
* `keeps_victims_iff` — which holds of a run exactly when it has no victim.
-/

namespace UsrLinuxEmu.GpuDriver

open UsrLinuxEmu.Transition ChannelManager

/-! ### Runs of a manager -/

inductive ManagerOp where
  | configure (op : ConfigOp)
  | submitBatch (id : ℕ) (b : Batch)
  | yieldChannel (id : ℕ)
  | nextReadyChannel
  deriving DecidableEq, Repr

def opStep (m : ChannelManager) : ManagerOp → ChannelManager
  | .configure op => m.configure op
  | .submitBatch id b => m.submitBatch id b
  | .yieldChannel id => m.yieldChannel id
  | .nextReadyChannel => m.nextReadyChannel.2

/-- Without a new submission, some later call of `nextReadyChannel` selects `v` with batch `b`. -/
def StillSelectable (m : ChannelManager) (v : ℕ) (b : Batch) : Prop :=
  ∃ ops : List ManagerOp, (∀ b', .submitBatch v b' ∉ ops) ∧
    (run opStep m ops).nextReadyChannel.1 = some v ∧
    ((run opStep m ops).nextReadyChannel.2.channels v).batch = b

/-- Every channel that the operation chooses as a victim is still selectable with its batch. -/
def KeepsVictim (m : ChannelManager) (op : ManagerOp) : Prop :=
  op = .nextReadyChannel → ∀ v, m.victim = some v →
    StillSelectable (opStep m op) v (m.channels v).batch

/-- The operation chooses no victim. -/
def NoVictim (m : ChannelManager) (op : ManagerOp) : Prop :=
  op = .nextReadyChannel → m.victim = none

def KeepsVictims (m : ChannelManager) (ops : List ManagerOp) : Prop :=
  Guarded opStep KeepsVictim m ops

/-! ### A cleared slot stays cleared -/

/-- A victim was in flight, and its flag is clear after the call. -/
theorem victim_cleared {m : ChannelManager} {v : ℕ} (h : m.victim = some v) :
    (m.channels v).batchInFlight = true ∧
      (m.nextReadyChannel.2.channels v).batchInFlight = false := by
  unfold victim at h
  split_ifs at h with hactive
  have hv : (m.channels v).batchInFlight = true := by
    unfold greenVictim at h
    split_ifs at h with hcond
    obtain rfl := Option.some.inj h
    simp only [Bool.and_eq_true] at hcond
    exact hcond.1.2
  refine ⟨hv, ?_⟩
  rw [(nextReadyChannel_selects m hactive).same.channels, preemptGreen, h]
  simp [pushReady, setChannel]

/-- Only a submission to the channel sets its flag. -/
theorem opStep_cleared {m : ChannelManager} {v : ℕ} (h : (m.channels v).batchInFlight = false)
    {op : ManagerOp} (hop : ∀ b, op ≠ .submitBatch v b) :
    ((opStep m op).channels v).batchInFlight = false := by
  have hfrom : ∀ m', SlotsFrom m m' → (m'.channels v).batchInFlight = false := by
    intro m' hslots
    cases hf : (m'.channels v).batchInFlight with
    | false => rfl
    | true =>
      rw [(hslots v hf).1] at h
      cases h
  cases op with
  | configure op => exact hfrom _ (configure_slotsFrom m op)
  | submitBatch id b =>
    have hne : v ≠ id := by
      rintro rfl
      exact hop b rfl
    simp only [opStep, submitBatch_channel_of_ne hne]
    exact h
  | yieldChannel id => exact hfrom _ (yieldChannel_slotsFrom m id)
  | nextReadyChannel => exact hfrom _ (nextReadyChannel_slotsFrom m)

theorem run_cleared {m : ChannelManager} {v : ℕ} (h : (m.channels v).batchInFlight = false)
    {ops : List ManagerOp} (hops : ∀ b, .submitBatch v b ∉ ops) :
    ((run opStep m ops).channels v).batchInFlight = false := by
  induction ops generalizing m with
  | nil => exact h
  | cons op ops ih =>
    refine ih (opStep_cleared h fun b heq => ?_) fun b hmem => hops b (List.mem_cons_of_mem _ hmem)
    exact hops b (heq ▸ List.mem_cons_self)

/-- **No way back.**  A channel whose flag is clear is not selected before a submission to it. -/
theorem not_stillSelectable {m : ChannelManager} {v : ℕ}
    (h : (m.channels v).batchInFlight = false) (b : Batch) : ¬ StillSelectable m v b := by
  rintro ⟨ops, hops, hnext, -⟩
  have hclear : ((opStep (run opStep m ops) .nextReadyChannel).channels v).batchInFlight = false :=
    opStep_cleared (run_cleared h hops) (by simp)
  have hselect : (run opStep m ops).nextReadyChannel =
      (some v, (run opStep m ops).nextReadyChannel.2) := Prod.ext hnext rfl
  rw [opStep, nextReadyChannel_inFlight hselect] at hclear
  cases hclear

/-- A victim is lost at once. -/
theorem not_keepsVictim {m : ChannelManager} {v : ℕ} (h : m.victim = some v) :
    ¬ KeepsVictim m .nextReadyChannel := fun hkeep =>
  not_stillSelectable (victim_cleared h).2 _ (hkeep rfl v h)

/-! ### The result -/

/-- **GREEN preemption.**  The victims of a run keep their batches if and only if no call of
`nextReadyChannel` in the run chooses a victim. -/
theorem keeps_victims_iff (m : ChannelManager) (ops : List ManagerOp) :
    KeepsVictims m ops ↔ Guarded opStep NoVictim m ops := by
  constructor
  · refine Guarded.mono opStep fun m op hkeep hop => ?_
    subst hop
    cases hv : m.victim with
    | none => rfl
    | some v => exact absurd hkeep (not_keepsVictim hv)
  · refine Guarded.mono opStep fun m op hno hop v hv => ?_
    rw [hno hop] at hv
    cases hv

/-- GREEN channel 0 runs a batch, BROWN channel 1 submits one, and the next selection drops the
batch of channel 0. -/
theorem keeps_victims_fails :
    ¬ KeepsVictims (.create fun _ => ⟨0, 0, 0, 0, 0, 0, mqdStateIdle⟩)
      [.configure (.register 0 .normal .green), .configure (.register 1 .normal .brown),
        .submitBatch 0 ⟨0x100000000, 1, 0x100000001⟩, .nextReadyChannel,
        .submitBatch 1 ⟨0x100001000, 1, 0x100000002⟩, .nextReadyChannel] := by
  rintro ⟨-, -, -, -, -, hkeep, -⟩
  exact not_keepsVictim (v := 0) (by decide +kernel) hkeep

end UsrLinuxEmu.GpuDriver
