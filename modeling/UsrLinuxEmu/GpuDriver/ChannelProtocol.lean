import Mathlib.Data.List.DropRight
import UsrLinuxEmu.GpuDriver.GreenPreemption
import UsrLinuxEmu.Transition.Bypass

/-!
# The puller's use of the channel selector (`sim/hardware/channel_manager.cpp`)

The puller yields the channel it was given before it asks for the next one; submissions and
configuration come in between.  Under this protocol the ready queues hold every channel in flight
but the one the puller works on.

* `ProtocolRun` — the manager and the channel owed; `yieldsFirst`, the protocol;
* `Picks` — what a selection does to the queues and the starvation counter;
* `ReadyInv` — the invariant: each channel in flight is queued on its own level;
* `low_starvation_bound` — among eleven consecutive selections one returns a LOW channel, while some
  LOW channel is in flight.
-/

namespace UsrLinuxEmu.GpuDriver

open UsrLinuxEmu.Transition ChannelManager

/-! ### Runs -/

/-- A manager, and the channel that was returned last and has not been yielded since. -/
structure ProtocolRun where
  mgr : ChannelManager
  owed : Option ℕ

namespace ProtocolRun

def init (mqd : ℕ → Mqd) : ProtocolRun := ⟨.create mqd, none⟩

def step (r : ProtocolRun) (op : ManagerOp) : ProtocolRun where
  mgr := opStep r.mgr op
  owed := match op with
    | .nextReadyChannel => r.mgr.nextReadyChannel.1
    | .yieldChannel id => if r.owed = some id then none else r.owed
    | .configure _ | .submitBatch .. => r.owed

/-- The puller selects only after it has yielded. -/
def yieldsFirst (r : ProtocolRun) (op : ManagerOp) : Prop :=
  op = .nextReadyChannel → r.owed = none

instance (r : ProtocolRun) (op : ManagerOp) : Decidable (r.yieldsFirst op) :=
  inferInstanceAs (Decidable (_ → _))

/-- The priority of the channel that a selection returns; `none` for a null pointer. -/
def selected (r : ProtocolRun) : ManagerOp → Option (Option ChannelPrio)
  | .nextReadyChannel =>
    some (r.mgr.nextReadyChannel.1.map fun id => (r.mgr.channels id).priority)
  | .configure _ | .submitBatch .. | .yieldChannel _ => none

end ProtocolRun

/-! ### One selection -/

namespace ChannelManager

variable {m m' : ChannelManager}

/-- A queued channel in flight is not stale. -/
theorem mem_dropStale {q : List ℕ} {c : ℕ} (hc : c ∈ q)
    (hflight : (m.channels c).batchInFlight = true) : c ∈ m.dropStale q := by
  induction q with
  | nil => cases hc
  | cons x q ih =>
    rw [dropStale, List.dropWhile_cons]
    split_ifs with hstale
    · refine ih ((List.mem_cons.mp hc).resolve_left ?_)
      rintro rfl
      simp [hflight] at hstale
    · exact hc

theorem dropStale_idempotent (m : ChannelManager) (q : List ℕ) :
    m.dropStale (m.dropStale q) = m.dropStale q :=
  List.dropWhile_idempotent ..

/-- Some queues have lost their stale front; the slots are the same. -/
structure Trims (m m' : ChannelManager) : Prop where
  channels : m'.channels = m.channels
  active : m'.activeCount = m.activeCount
  queues : ∀ pri, m'.priQueues pri = m.priQueues pri ∨
    m'.priQueues pri = m.dropStale (m.priQueues pri)

theorem Trims.dropStale (h : Trims m m') (pri : ChannelPrio) :
    m'.dropStale (m'.priQueues pri) = m.dropStale (m.priQueues pri) := by
  have hsame : ∀ q, m'.dropStale q = m.dropStale q := by
    intro q
    rw [ChannelManager.dropStale, h.channels]
    rfl
  rw [hsame]
  rcases h.queues pri with hq | hq
  · rw [hq]
  · rw [hq, dropStale_idempotent]

theorem Trims.trans {m₁ m₂ m₃ : ChannelManager} (h : Trims m₁ m₂) (h' : Trims m₂ m₃) :
    Trims m₁ m₃ where
  channels := h'.channels.trans h.channels
  active := h'.active.trans h.active
  queues := by
    intro pri
    rcases h'.queues pri with hq | hq
    · rw [hq]
      exact h.queues pri
    · rw [hq, h.dropStale]
      exact .inr rfl

/-- Writing a trimmed queue back. -/
theorem update_dropStale (m : ChannelManager) (pri pri' : ChannelPrio) :
    Function.update m.priQueues pri (m.dropStale (m.priQueues pri)) pri' = m.priQueues pri' ∨
      Function.update m.priQueues pri (m.dropStale (m.priQueues pri)) pri' =
        m.dropStale (m.priQueues pri') := by
  by_cases heq : pri' = pri
  · subst heq
    exact .inr (Function.update_self ..)
  · exact .inl (Function.update_of_ne heq ..)

theorem scanLevel_trims (m : ChannelManager) (pri : ChannelPrio) :
    Trims m (m.scanLevel pri).2 := by
  have hupdate := update_dropStale m pri
  unfold scanLevel
  cases hq : m.dropStale (m.priQueues pri) with
  | nil =>
    rw [hq] at hupdate
    exact ⟨rfl, rfl, hupdate⟩
  | cons c rest =>
    rw [hq] at hupdate
    exact ⟨rfl, rfl, hupdate⟩

/-- What a level yields, and the counter after it. -/
theorem scanLevel_cases (m : ChannelManager) (pri : ChannelPrio) :
    ((m.scanLevel pri).1 = none ∧ m.dropStale (m.priQueues pri) = [] ∧
      (m.scanLevel pri).2.starvationCounter = m.starvationCounter) ∨
    ∃ c rest, (m.scanLevel pri).1 = some c ∧ m.dropStale (m.priQueues pri) = c :: rest ∧
      (pri ≠ .low → (m.scanLevel pri).2.starvationCounter = m.starvationCounter + 1) := by
  unfold scanLevel
  cases hq : m.dropStale (m.priQueues pri) with
  | nil => exact .inl ⟨rfl, rfl, rfl⟩
  | cons c rest => exact .inr ⟨c, rest, rfl, rfl, fun hlow => if_neg hlow⟩

/-- What a scan of all levels yields: nothing when all queues are stale, otherwise the front of one
of them. -/
structure Scans (m : ChannelManager) (r : Option ℕ × ChannelManager) : Prop extends
    Trims m r.2 where
  idle : r.1 = none → ∀ pri, m.dropStale (m.priQueues pri) = []
  front : ∀ c, r.1 = some c → ∃ pri rest, m.dropStale (m.priQueues pri) = c :: rest ∧
    (pri ≠ .low → r.2.starvationCounter = m.starvationCounter + 1)

theorem scanLevels_scans (m : ChannelManager) : Scans m m.scanLevels := by
  have hhigh := scanLevel_trims m .high
  have hhigh' := scanLevel_cases m .high
  unfold scanLevels
  rcases hh : m.scanLevel .high with ⟨_ | c, m₁⟩
  · rw [hh] at hhigh hhigh'
    obtain ⟨-, hstale₁, hcount₁⟩ | ⟨c, rest, habs, -⟩ := hhigh'
    swap
    · cases habs
    have hnormal := hhigh.trans (scanLevel_trims m₁ .normal)
    have hnormal' := scanLevel_cases m₁ .normal
    rw [hhigh.dropStale] at hnormal'
    simp only
    rcases hn : m₁.scanLevel .normal with ⟨_ | c, m₂⟩
    · rw [hn] at hnormal hnormal'
      obtain ⟨-, hstale₂, -⟩ | ⟨c, rest, habs, -⟩ := hnormal'
      swap
      · cases habs
      have hlow := hnormal.trans (scanLevel_trims m₂ .low)
      have hlow' := scanLevel_cases m₂ .low
      rw [hnormal.dropStale] at hlow'
      refine ⟨hlow, fun hnone pri => ?_, fun c hc => ?_⟩
      · obtain ⟨-, hstale₃, -⟩ | ⟨c, rest, habs, -⟩ := hlow'
        · cases pri with
          | high => exact hstale₁
          | normal => exact hstale₂
          | low => exact hstale₃
        · rw [hnone] at habs
          cases habs
      · obtain ⟨habs, -⟩ | ⟨c', rest, hc', hfront, -⟩ := hlow'
        · rw [hc] at habs
          cases habs
        · rw [hc] at hc'
          obtain rfl := Option.some.inj hc'
          exact ⟨.low, rest, hfront, fun habs => absurd rfl habs⟩
    · rw [hn] at hnormal hnormal'
      obtain ⟨habs, -⟩ | ⟨c', rest, hc', hfront, hcount⟩ := hnormal'
      · cases habs
      obtain rfl := Option.some.inj hc'
      refine ⟨hnormal, fun habs => (by cases habs), fun c' hc' => ?_⟩
      obtain rfl := Option.some.inj hc'
      exact ⟨.normal, rest, hfront, fun hlow => (hcount hlow).trans (by rw [hcount₁])⟩
  · rw [hh] at hhigh hhigh'
    obtain ⟨habs, -⟩ | ⟨c', rest, hc', hfront, hcount⟩ := hhigh'
    · cases habs
    obtain rfl := Option.some.inj hc'
    refine ⟨hhigh, fun habs => (by cases habs), fun c' hc' => ?_⟩
    obtain rfl := Option.some.inj hc'
    exact ⟨.high, rest, hfront, hcount⟩

/-- What `nextReadyChannel` does after the pre-pass.  The starvation branch pops the channel it
returns; it is passed over only when no LOW channel is in flight. -/
structure Picks (m : ChannelManager) (r : Option ℕ × ChannelManager) : Prop where
  channels : r.2.channels = m.channels
  active : r.2.activeCount = m.activeCount
  queues : ∀ pri, r.2.priQueues pri = m.priQueues pri ∨
    r.2.priQueues pri = m.dropStale (m.priQueues pri) ∨
    ∃ c, r.1 = some c ∧ m.dropStale (m.priQueues pri) = c :: r.2.priQueues pri
  idle : r.1 = none → ∀ pri, m.dropStale (m.priQueues pri) = []
  front : ∀ c, r.1 = some c → ∃ pri rest, m.dropStale (m.priQueues pri) = c :: rest ∧
    (pri = .low ∨ m.dropStale (m.priQueues .low) = [] ∨
      (m.starvationCounter < kStarvationThreshold ∧
        r.2.starvationCounter = m.starvationCounter + 1))

theorem nextReadyChannel_picks (m : ChannelManager) (hactive : m.activeCount ≠ 0) :
    Picks m.preemptGreen m.nextReadyChannel := by
  rw [nextReadyChannel, if_neg hactive]
  generalize m.preemptGreen = p
  simp only
  split_ifs with hstarving
  · rw [forceLow]
    cases hlow : p.dropStale (p.priQueues .low) with
    | nil =>
      simp only
      have htrims : Trims p { p.setQueue .low [] with starvationCounter := 0 } := by
        have hupdate := update_dropStale p .low
        rw [hlow] at hupdate
        exact ⟨rfl, rfl, hupdate⟩
      have hscans := scanLevels_scans { p.setQueue .low [] with starvationCounter := 0 }
      have hboth := htrims.trans hscans.toTrims
      refine ⟨hboth.channels, hboth.active, fun pri => (hboth.queues pri).imp_right .inl,
        fun hnone pri => ?_, fun c hc => ?_⟩
      · rw [← htrims.dropStale]
        exact hscans.idle hnone pri
      · obtain ⟨pri, rest, hfront, -⟩ := hscans.front c hc
        rw [htrims.dropStale] at hfront
        exact ⟨pri, rest, hfront, .inr (.inl hlow)⟩
    | cons c rest =>
      simp only
      refine ⟨rfl, rfl, fun pri => ?_, fun habs => (by cases habs), fun c' hc' => ?_⟩
      · by_cases hpri : pri = .low
        · subst hpri
          right
          right
          have hpop : (p.setQueue .low rest).priQueues .low = rest := by
            simp only [setQueue, Function.update_self]
          refine ⟨c, rfl, ?_⟩
          rw [hlow]
          exact congrArg (c :: ·) hpop.symm
        · exact .inl (Function.update_of_ne hpri ..)
      · obtain rfl := Option.some.inj hc'
        exact ⟨.low, rest, hlow, .inl rfl⟩
  · have hscans := scanLevels_scans p
    refine ⟨hscans.channels, hscans.active, fun pri => (hscans.queues pri).imp_right .inl,
      hscans.idle, fun c hc => ?_⟩
    obtain ⟨pri, rest, hfront, hcount⟩ := hscans.front c hc
    by_cases hpri : pri = .low
    · exact ⟨pri, rest, hfront, .inl hpri⟩
    · exact ⟨pri, rest, hfront, .inr (.inr ⟨Nat.not_le.mp hstarving, hcount hpri⟩)⟩

/-! ### What the other operations do to the queues -/

theorem pushReady_priQueues (m : ChannelManager) (pri pri' : ChannelPrio) (id : ℕ) :
    (m.pushReady pri id).priQueues pri' =
      if pri' = pri then m.priQueues pri' ++ [id] else m.priQueues pri' := by
  unfold pushReady
  by_cases heq : pri' = pri
  · subst heq
    simp only [Function.update_self, if_true]
  · simp only [Function.update_of_ne heq, if_neg heq]

theorem setChannel_channels (m : ChannelManager) (id c : ℕ) (ch : ChannelState) :
    (m.setChannel id ch).channels c = if c = id then ch else m.channels c := by
  unfold setChannel
  by_cases heq : c = id
  · subst heq
    simp only [Function.update_self, if_true]
  · simp only [Function.update_of_ne heq, if_neg heq]

/-- An operation other than a scan, as far as the queues are concerned: it pushes at most one channel
on the queue of its level, sets the flag of no other channel, and leaves priorities alone. -/
structure Pushes (m m' : ChannelManager) (pushed : Option ℕ) : Prop where
  registered : ∀ c, m.registered c = true → m'.registered c = true
  active : (∀ c, m.registered c = true → m.activeCount ≠ 0) →
    ∀ c, m'.registered c = true → m'.activeCount ≠ 0
  priority : ∀ c, m.registered c = true → (m'.channels c).priority = (m.channels c).priority
  queues : ∀ pri, m'.priQueues pri = m.priQueues pri ++
    pushed.toList.filter fun c => (m'.channels c).priority = pri
  target : ∀ c, pushed = some c → m'.isRegistered c = true
  flags : ∀ c, (m'.channels c).batchInFlight = true →
    (m.channels c).batchInFlight = true ∨ pushed = some c

/-- Nothing pushed, no flag set. -/
theorem pushes_none (hregistered : m'.registered = m.registered)
    (hactive : m'.activeCount = m.activeCount) (hqueues : m'.priQueues = m.priQueues)
    (hpriority : ∀ c, (m'.channels c).priority = (m.channels c).priority)
    (hflags : ∀ c, (m'.channels c).batchInFlight = true → (m.channels c).batchInFlight = true) :
    Pushes m m' none where
  registered := by
    intro c hc
    rwa [hregistered]
  active := by
    intro h c hc
    rw [hregistered] at hc
    rw [hactive]
    exact h c hc
  priority := fun c _ => hpriority c
  queues := by
    intro pri
    rw [hqueues]
    exact (List.append_nil _).symm
  target := fun c hc => by cases hc
  flags := fun c hc => .inl (hflags c hc)

/-- Slots and queues left alone. -/
theorem pushes_same (hregistered : m'.registered = m.registered)
    (hactive : m'.activeCount = m.activeCount) (hqueues : m'.priQueues = m.priQueues)
    (hchannels : m'.channels = m.channels) : Pushes m m' none := by
  refine pushes_none hregistered hactive hqueues (fun c => ?_) fun c hc => ?_
  · rw [hchannels]
  · rwa [← hchannels]

/-- One slot written, at its level, with the flag cleared or as it was. -/
theorem setChannel_pushes {id : ℕ} {ch : ChannelState}
    (hpriority : ch.priority = (m.channels id).priority)
    (hflag : ch.batchInFlight = true → (m.channels id).batchInFlight = true) :
    Pushes m (m.setChannel id ch) none := by
  refine pushes_none rfl rfl rfl (fun c => ?_) fun c hc => ?_
  · rw [setChannel_channels]
    split_ifs with heq
    · rw [heq, hpriority]
    · rfl
  · rw [setChannel_channels] at hc
    split_ifs at hc with heq
    · rw [heq]
      exact hflag hc
    · exact hc

/-- One slot written and its channel pushed; the counts are those of a registered channel. -/
theorem pushes_some {id : ℕ} {ch : ChannelState} (hm : m'.isRegistered id = true)
    (hchannels : m'.channels = (m.setChannel id ch).channels)
    (hqueues : m'.priQueues = (m.pushReady ch.priority id).priQueues)
    (hpriority : m.registered id = true → ch.priority = (m.channels id).priority)
    (hregistered : ∀ c, m.registered c = true → m'.registered c = true)
    (hactive : (∀ c, m.registered c = true → m.activeCount ≠ 0) →
      ∀ c, m'.registered c = true → m'.activeCount ≠ 0) : Pushes m m' (some id) where
  registered := hregistered
  active := hactive
  priority := by
    intro c hc
    rw [hchannels, setChannel_channels]
    split_ifs with heq
    · subst heq
      exact hpriority hc
    · rfl
  queues := by
    intro pri
    have hid : (m'.channels id).priority = ch.priority := by
      rw [hchannels, setChannel_channels, if_pos rfl]
    rw [hqueues, pushReady_priQueues, Option.toList_some, List.filter_singleton, hid]
    by_cases heq : ch.priority = pri
    · rw [if_pos heq.symm, decide_eq_true heq]
      rfl
    · rw [if_neg (Ne.symm heq), decide_eq_false heq]
      exact (List.append_nil _).symm
  target := by
    intro c hc
    rwa [← Option.some.inj hc]
  flags := by
    intro c hc
    rw [hchannels, setChannel_channels] at hc
    split_ifs at hc with heq
    · exact .inr (congrArg some heq.symm)
    · exact .inl hc

theorem submitBatch_pushes (m : ChannelManager) (id : ℕ) (b : Batch) :
    ∃ pushed, Pushes m (m.submitBatch id b) pushed := by
  cases hreg : m.isRegistered id with
  | false =>
    rw [submitBatch_of_unregistered hreg]
    exact ⟨none, pushes_same rfl rfl rfl rfl⟩
  | true =>
    simp only [submitBatch, hreg, if_true]
    split_ifs with hflight
    · exact ⟨none, setChannel_pushes rfl fun h => h⟩
    · exact ⟨some id, pushes_some hreg rfl rfl (fun _ => rfl) (fun _ h => h) fun h => h⟩

theorem configure_pushes (m : ChannelManager) (op : ConfigOp) :
    ∃ pushed, Pushes m (m.configure op) pushed := by
  cases op with
  | register id priority contextType =>
    simp only [configure, registerChannel]
    split_ifs with hlarge hreg
    · exact ⟨none, pushes_same rfl rfl rfl rfl⟩
    · exact ⟨none, pushes_same rfl rfl rfl rfl⟩
    · refine ⟨some id, pushes_some ?_ rfl rfl (fun habs => absurd habs hreg) (fun c hc => ?_)
        fun _ _ _ => Nat.succ_ne_zero _⟩
      · simp only [isRegistered, Function.update_self, Bool.and_true,
          decide_eq_true_eq]
        omega
      · show Function.update m.registered id true c = true
        by_cases heq : c = id
        · subst heq
          exact Function.update_self ..
        · rwa [Function.update_of_ne heq]
  | contextType id contextType =>
    simp only [configure, setChannelContextType]
    split_ifs
    · exact ⟨none, setChannel_pushes rfl fun h => h⟩
    · exact ⟨none, pushes_same rfl rfl rfl rfl⟩
  | mqdPointer id ptr =>
    simp only [configure, setMqdForChannel]
    split_ifs
    · exact ⟨none, pushes_same rfl rfl rfl rfl⟩
    · exact ⟨none, pushes_same rfl rfl rfl rfl⟩
  | mqdWrite ptr mqd => exact ⟨none, pushes_same rfl rfl rfl rfl⟩

theorem yieldChannel_pushes (m : ChannelManager) (id : ℕ) : Pushes m (m.yieldChannel id) none := by
  unfold yieldChannel
  split_ifs
  · exact setChannel_pushes rfl fun h => (by cases h)
  · exact pushes_same rfl rfl rfl rfl

theorem preemptGreen_pushes (m : ChannelManager) :
    ∃ pushed, Pushes m m.preemptGreen pushed := by
  cases hv : m.greenVictim with
  | none =>
    rw [preemptGreen_of_no_victim hv]
    exact ⟨none, pushes_same rfl rfl rfl rfl⟩
  | some v =>
    have hreg : m.isRegistered v = true := by
      unfold greenVictim at hv
      split_ifs at hv with hcond
      obtain rfl := Option.some.inj hv
      simp only [Bool.and_eq_true] at hcond
      exact hcond.1.1.1
    refine ⟨some v, ?_⟩
    simp only [preemptGreen, hv]
    cases m.mqdCache v with
    | none => exact pushes_some hreg rfl rfl (fun _ => rfl) (fun _ h => h) fun h => h
    | some ptr => exact pushes_some hreg rfl rfl (fun _ => rfl) (fun _ h => h) fun h => h

theorem opStep_pushes (m : ChannelManager) {op : ManagerOp} (hop : op ≠ .nextReadyChannel) :
    ∃ pushed, Pushes m (opStep m op) pushed := by
  cases op with
  | configure op => exact configure_pushes m op
  | submitBatch id b => exact submitBatch_pushes m id b
  | yieldChannel id => exact ⟨none, yieldChannel_pushes m id⟩
  | nextReadyChannel => exact absurd rfl hop

end ChannelManager

/-! ### The invariant -/

namespace ProtocolRun

/-- Queued ids are registered and on their own level, and every channel in flight is queued but the
one that is owed. -/
structure ReadyInv (r : ProtocolRun) : Prop where
  inFlight : InFlightRegistered r.mgr
  active : ∀ c, r.mgr.registered c = true → r.mgr.activeCount ≠ 0
  ranked : ∀ pri, ∀ c ∈ r.mgr.priQueues pri,
    r.mgr.registered c = true ∧ (r.mgr.channels c).priority = pri
  queued : ∀ c, (r.mgr.channels c).batchInFlight = true → r.owed ≠ some c →
    c ∈ r.mgr.priQueues (r.mgr.channels c).priority

variable {m m' : ChannelManager} {owed : Option ℕ}

theorem registered_of_isRegistered {c : ℕ} (h : m.isRegistered c = true) :
    m.registered c = true := by
  rw [isRegistered, Bool.and_eq_true] at h
  exact h.2

theorem ReadyInv.pushes {pushed : Option ℕ} (h : ReadyInv ⟨m, owed⟩) (hp : Pushes m m' pushed) :
    ReadyInv ⟨m', owed⟩ where
  inFlight := by
    intro c hc
    rcases hp.flags c hc with hold | hnew
    · have hreg := h.inFlight c hold
      rw [isRegistered, Bool.and_eq_true] at hreg ⊢
      exact ⟨hreg.1, hp.registered c hreg.2⟩
    · exact hp.target c hnew
  active := hp.active h.active
  ranked := by
    intro pri c hc
    show m'.registered c = true ∧ (m'.channels c).priority = pri
    have hc' : c ∈ m'.priQueues pri := hc
    rw [hp.queues, List.mem_append] at hc'
    rcases hc' with hold | hnew
    · obtain ⟨hreg, hpri⟩ := h.ranked pri c hold
      exact ⟨hp.registered c hreg, (hp.priority c hreg).trans hpri⟩
    · rw [List.mem_filter, Option.mem_toList] at hnew
      exact ⟨registered_of_isRegistered (hp.target c hnew.1), of_decide_eq_true hnew.2⟩
  queued := by
    intro c hc howed
    show c ∈ m'.priQueues (m'.channels c).priority
    rw [hp.queues, List.mem_append, List.mem_filter, Option.mem_toList]
    rcases hp.flags c hc with hold | hnew
    · have hreg := registered_of_isRegistered (h.inFlight c hold)
      rw [hp.priority c hreg]
      exact .inl (h.queued c hold howed)
    · exact .inr ⟨hnew, decide_eq_true rfl⟩

/-- A selection takes at most the channel it returns out of the queues. -/
theorem ReadyInv.picks {r : Option ℕ × ChannelManager} (h : ReadyInv ⟨m, none⟩) (hp : Picks m r)
    (hreg : r.2.registered = m.registered) : ReadyInv ⟨r.2, r.1⟩ where
  inFlight := by
    intro c hc
    have hc' : (m.channels c).batchInFlight = true := by rwa [← hp.channels]
    have hold := h.inFlight c hc'
    rw [isRegistered, hreg]
    exact hold
  active := by
    intro c hc
    have hc' : m.registered c = true := by rwa [← hreg]
    show r.2.activeCount ≠ 0
    rw [hp.active]
    exact h.active c hc'
  ranked := by
    intro pri c hc
    show r.2.registered c = true ∧ (r.2.channels c).priority = pri
    rw [hreg, hp.channels]
    refine h.ranked pri c ?_
    have hc' : c ∈ r.2.priQueues pri := hc
    rcases hp.queues pri with hq | hq | ⟨c', -, hq⟩
    · rwa [hq] at hc'
    · rw [hq] at hc'
      exact dropStale_subset m _ hc'
    · refine dropStale_subset m _ ?_
      rw [hq]
      exact List.mem_cons_of_mem _ hc'
  queued := by
    intro c hc howed
    show c ∈ r.2.priQueues (r.2.channels c).priority
    have hc' : (m.channels c).batchInFlight = true := by rwa [← hp.channels]
    have hmem := h.queued c hc' (by simp)
    rw [hp.channels]
    rcases hp.queues (m.channels c).priority with hq | hq | ⟨c', hsel, hq⟩
    · rwa [hq]
    · rw [hq]
      exact mem_dropStale hmem hc'
    · have hlive := mem_dropStale hmem hc'
      rw [hq] at hlive
      refine (List.mem_cons.mp hlive).resolve_left ?_
      rintro rfl
      exact howed hsel

theorem readyInv_init (mqd : ℕ → Mqd) : ReadyInv (init mqd) where
  inFlight := fun c hc => by cases hc
  active := fun c hc => by cases hc
  ranked := fun pri c hc => by cases hc
  queued := fun c hc => by cases hc

theorem readyInv_step (r : ProtocolRun) (op : ManagerOp) (h : r.ReadyInv)
    (hG : r.yieldsFirst op) : (r.step op).ReadyInv := by
  obtain ⟨m, owed⟩ := r
  cases op with
  | configure op =>
    obtain ⟨pushed, hp⟩ := configure_pushes m op
    exact h.pushes hp
  | submitBatch id b =>
    obtain ⟨pushed, hp⟩ := submitBatch_pushes m id b
    exact h.pushes hp
  | yieldChannel id =>
    have hnext := h.pushes (yieldChannel_pushes m id)
    refine ⟨hnext.inFlight, hnext.active, hnext.ranked, fun c hc howed => ?_⟩
    have hflags : (m.channels c).batchInFlight && c != id :=
      (yieldChannel_inFlight h.inFlight id c).symm.trans hc
    refine hnext.queued c hc fun heq => howed ?_
    -- the owed channel is still in flight, so it is not the one that yields
    have heq' : owed = some c := heq
    have hne : ¬some c = some id := by
      rw [Bool.and_eq_true, bne_iff_ne] at hflags
      exact fun habs => hflags.2 (Option.some.inj habs)
    show (if owed = some id then none else owed) = some c
    rw [heq', if_neg hne]
  | nextReadyChannel =>
    have howed : owed = none := hG rfl
    subst howed
    by_cases hactive : m.activeCount = 0
    · have hstep : (⟨m, none⟩ : ProtocolRun).step .nextReadyChannel = ⟨m, none⟩ := by
        simp only [step, opStep, nextReadyChannel_of_inactive hactive]
      rwa [hstep]
    · obtain ⟨pushed, hp⟩ := preemptGreen_pushes m
      have hregistered : m.nextReadyChannel.2.registered = m.preemptGreen.registered := by
        rw [nextReadyChannel_registered, preemptGreen_registered]
      exact (h.pushes hp).picks (nextReadyChannel_picks m hactive) hregistered

/-! ### The bound -/

/-- Some LOW channel has a batch in flight. -/
def LowInFlight (r : ProtocolRun) : Prop :=
  ∃ c < maxChannels, (r.mgr.channels c).batchInFlight = true ∧
    (r.mgr.channels c).priority = .low

instance : DecidablePred LowInFlight := fun _ =>
  inferInstanceAs (Decidable (∃ c < maxChannels, _))

theorem opStep_counter (m : ChannelManager) {op : ManagerOp} (hop : op ≠ .nextReadyChannel) :
    (opStep m op).starvationCounter = m.starvationCounter := by
  cases op with
  | configure op =>
    cases op with
    | register id priority contextType =>
      simp only [opStep, configure, registerChannel]
      split_ifs <;> rfl
    | contextType id contextType =>
      simp only [opStep, configure, setChannelContextType]
      split_ifs <;> rfl
    | mqdPointer id ptr =>
      simp only [opStep, configure, setMqdForChannel]
      split_ifs <;> rfl
    | mqdWrite ptr mqd => rfl
  | submitBatch id b =>
    simp only [opStep, submitBatch]
    split_ifs <;> rfl
  | yieldChannel id =>
    simp only [opStep, yieldChannel]
    split_ifs <;> rfl
  | nextReadyChannel => exact absurd rfl hop

theorem preemptGreen_counter (m : ChannelManager) :
    m.preemptGreen.starvationCounter = m.starvationCounter := by
  unfold preemptGreen
  cases m.greenVictim with
  | none => rfl
  | some v =>
    simp only
    cases m.mqdCache v with
    | none => rfl
    | some ptr => rfl

/-- A selection with a LOW channel in flight, before and after, returns a LOW channel or raises the
counter below the threshold. -/
theorem select_low_or_counts {m : ChannelManager} (h : ReadyInv ⟨m, none⟩)
    (hlow : LowInFlight ⟨m.nextReadyChannel.2, m.nextReadyChannel.1⟩) :
    ∃ c, m.nextReadyChannel.1 = some c ∧ ((m.channels c).priority = .low ∨
      (m.starvationCounter < kStarvationThreshold ∧
        m.nextReadyChannel.2.starvationCounter = m.starvationCounter + 1)) := by
  obtain ⟨low, -, hflight, hpri⟩ := hlow
  -- the LOW channel was in flight before the call, and so it is queued after the pre-pass
  have hold := (nextReadyChannel_slotsFrom m low hflight).1
  have hactive := h.active low (registered_of_isRegistered (h.inFlight low hold))
  have hp := nextReadyChannel_picks m hactive
  obtain ⟨pushed, hpush⟩ := preemptGreen_pushes m
  have hready := h.pushes hpush
  have hflight' : (m.preemptGreen.channels low).batchInFlight = true := by rwa [← hp.channels]
  have hpri' : (m.preemptGreen.channels low).priority = .low := by rwa [← hp.channels]
  have hmem := hready.queued low hflight' (by simp)
  have hlive := mem_dropStale hmem hflight'
  have hpri'' : ((⟨m.preemptGreen, none⟩ : ProtocolRun).mgr.channels low).priority = .low := hpri'
  rw [hpri''] at hlive
  cases hsel : m.nextReadyChannel.1 with
  | none =>
    have hidle := hp.idle hsel .low
    rw [hidle] at hlive
    cases hlive
  | some c =>
    obtain ⟨pri, rest, hfront, hcases⟩ := hp.front c hsel
    refine ⟨c, rfl, ?_⟩
    rcases hcases with rfl | hstale | hcount
    · left
      have hqueued : c ∈ m.preemptGreen.priQueues .low := by
        refine dropStale_subset m.preemptGreen _ ?_
        rw [hfront]
        exact List.mem_cons_self
      have hrank := (hready.ranked .low c hqueued).2
      have hflightc := (dropStale_cons hfront).1
      have hregc := registered_of_isRegistered
        (h.inFlight c (preemptGreen_slotsFrom m c hflightc).1)
      rw [← hpush.priority c hregc]
      exact hrank
    · rw [hstale] at hlive
      cases hlive
    · right
      rwa [preemptGreen_counter] at hcount

/-- **LOW starvation bound.**  Under the puller's protocol, while some LOW channel is in flight,
eleven consecutive selections return a LOW channel. -/
theorem low_starvation_bound (mqd : ℕ → Mqd) (before ops : List ManagerOp)
    (hproto : Guarded step yieldsFirst (init mqd) (before ++ ops))
    (hlow : Always step LowInFlight (run step (init mqd) before) ops)
    (window : List (Option ChannelPrio))
    (hwindow : window <:+: outputs step selected (run step (init mqd) before) ops)
    (hlength : window.length = kStarvationThreshold + 1) : some .low ∈ window := by
  obtain ⟨hbefore, hops⟩ := (guarded_append step _ _ before ops).mp hproto
  have hstart := run_of_inductive readyInv_step (readyInv_init mqd) hbefore
  have hgood : ∃ r ∈ window, r = some .low := by
    refine window_has_good (I := ReadyInv) (N := kStarvationThreshold)
      (f := fun r => r.mgr.starvationCounter)
      (fun r op hI hG => readyInv_step r op hI hG.1) (fun r op hI hG hout => ?_)
      (fun r op b hI hG hout hother => ?_) hstart (hops.and step (hlow.guarded step)) hwindow
      (by omega)
    · have hop : op ≠ .nextReadyChannel := by
        rintro rfl
        cases hout
      exact (opStep_counter r.mgr hop).ge
    · cases op with
      | configure op => cases hout
      | submitBatch id b => cases hout
      | yieldChannel id => cases hout
      | nextReadyChannel =>
        obtain ⟨m, owed⟩ := r
        have howed : owed = none := hG.1 rfl
        subst howed
        obtain ⟨c, hsel, hcases⟩ := select_low_or_counts hI hG.2.2
        obtain rfl := Option.some.inj hout
        rcases hcases with hpri | ⟨hlt, hcount⟩
        · exfalso
          refine hother ?_
          show Option.map _ m.nextReadyChannel.1 = some ChannelPrio.low
          rw [hsel]
          exact congrArg some hpri
        · show m.starvationCounter < m.nextReadyChannel.2.starvationCounter ∧
            m.nextReadyChannel.2.starvationCounter ≤ kStarvationThreshold
          omega
  obtain ⟨r, hr, rfl⟩ := hgood
  exact hr

/-- A LOW channel against a HIGH one that submits after every batch. -/
theorem low_starvation_bound_high : some ChannelPrio.low ∈
    outputs step selected
      (run step (init fun _ => ⟨0, 0, 0, 0, 0, 0, mqdStateIdle⟩)
        [.configure (.register 0 .high .brown), .configure (.register 1 .low .brown),
          .submitBatch 1 ⟨0x100000000, 1, 1⟩])
      ((List.replicate 10 [.submitBatch 0 ⟨0x100001000, 1, 2⟩, .nextReadyChannel,
        .yieldChannel 0]).flatten ++ [.submitBatch 0 ⟨0x100001000, 1, 2⟩, .nextReadyChannel]) :=
  low_starvation_bound _ _ _ (by decide +kernel) (by decide +kernel) _ (List.infix_refl _)
    (by decide +kernel)

end ProtocolRun

end UsrLinuxEmu.GpuDriver
