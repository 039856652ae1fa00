import Mathlib.Logic.Function.Basic
import UsrLinuxEmu.GpuDriver.GpuTypes
import UsrLinuxEmu.GpuDriver.Mqd

/-!
# Multi-level priority channel selection (`sim/hardware/channel_manager.cpp`)

Each channel has one batch slot.  `submitBatch` fills the slot and queues the channel on its
priority level, `nextReadyChannel` picks a channel whose slot is in flight, and `yieldChannel`
clears the flag.  Every method holds the manager's mutex for its whole body, so each is one atomic
operation here.

* `ChannelManager` — the slots, the ready queues, the selector's bookkeeping and the MQDs that the
  cache points to;
* `preemptGreen` — the pre-pass of `nextReadyChannel`; `victim` names the channel it takes;
* `nextReadyChannel_selects` — after the pre-pass, selecting keeps the slots, and the selected
  channel is queued and in flight;
* `nextReadyChannel_of_no_victim` — without a victim the slots and MQDs are untouched.
-/

namespace UsrLinuxEmu.GpuDriver

inductive ChannelPrio where
  | high
  | normal
  | low
  deriving DecidableEq, Repr

/-- A submission as `submitBatch` receives it. -/
structure Batch where
  gpfifoAddr : UInt64
  entryCount : UInt32
  fenceId : UInt64
  deriving DecidableEq, Repr

/-- `ChannelState`, less the queue pointer that nothing reads; `currentIndex` is only ever set to
zero and the puller keeps its own cursor. -/
structure ChannelState where
  gpfifoAddr : UInt64
  currentIndex : UInt32
  totalEntries : UInt32
  batchInFlight : Bool
  pendingFenceId : UInt64
  priority : ChannelPrio
  contextType : ContextType
  deriving DecidableEq, Repr

/-- The batch in the slot. -/
def ChannelState.batch (ch : ChannelState) : Batch :=
  ⟨ch.gpfifoAddr, ch.totalEntries, ch.pendingFenceId⟩

def ChannelState.unused : ChannelState := ⟨0, 0, 0, false, 0, .normal, .brown⟩

def maxChannels : ℕ := 32
def kStarvationThreshold : ℕ := 10

structure ChannelManager where
  channels : ℕ → ChannelState
  registered : ℕ → Bool
  activeCount : ℕ
  priQueues : ChannelPrio → List ℕ
  lastChannel : ℕ
  starvationCounter : ℕ
  /-- `mqd_cache_`: pointers into the MQD memory `mqd`, which the driver shares. -/
  mqdCache : ℕ → Option ℕ
  mqd : ℕ → Mqd

namespace ChannelManager

def create (mqd : ℕ → Mqd) : ChannelManager where
  channels := fun _ => ChannelState.unused
  registered := fun _ => false
  activeCount := 0
  priQueues := fun _ => []
  lastChannel := maxChannels - 1
  starvationCounter := 0
  mqdCache := fun _ => none
  mqd := mqd

/-! ### Registration and submission -/

/-- `id < MAX_CHANNELS && registered_[id]`. -/
def isRegistered (m : ChannelManager) (id : ℕ) : Bool := decide (id < maxChannels) && m.registered id

/-- `pri_queues_[pri].push(id)`. -/
def pushReady (m : ChannelManager) (pri : ChannelPrio) (id : ℕ) : ChannelManager :=
  { m with priQueues := Function.update m.priQueues pri (m.priQueues pri ++ [id]) }

def setChannel (m : ChannelManager) (id : ℕ) (ch : ChannelState) : ChannelManager :=
  { m with channels := Function.update m.channels id ch }

/-- `false` stands for `-ENOSPC`. -/
def registerChannel (m : ChannelManager) (id : ℕ) (priority : ChannelPrio)
    (contextType : ContextType) : Bool × ChannelManager :=
  if maxChannels ≤ id then (false, m)
  else if m.registered id then (false, m)
  else
    (true, { (m.setChannel id { m.channels id with
        batchInFlight := false, currentIndex := 0, totalEntries := 0, pendingFenceId := 0
        priority := priority, contextType := contextType }).pushReady priority id with
      registered := Function.update m.registered id true
      activeCount := m.activeCount + 1 })

def setChannelContextType (m : ChannelManager) (id : ℕ) (contextType : ContextType) :
    ChannelManager :=
  if m.isRegistered id then m.setChannel id { m.channels id with contextType := contextType }
  else m

def submitBatch (m : ChannelManager) (id : ℕ) (b : Batch) : ChannelManager :=
  if m.isRegistered id then
    let ch := { m.channels id with
      gpfifoAddr := b.gpfifoAddr, totalEntries := b.entryCount, currentIndex := 0
      pendingFenceId := b.fenceId }
    if ch.batchInFlight then m.setChannel id ch
    else (m.setChannel id { ch with batchInFlight := true }).pushReady ch.priority id
  else m

def yieldChannel (m : ChannelManager) (id : ℕ) : ChannelManager :=
  if m.isRegistered id then m.setChannel id { m.channels id with batchInFlight := false } else m

/-! ### The MQD cache -/

def getMqdForChannel (m : ChannelManager) (id : ℕ) : Option ℕ :=
  if m.isRegistered id then m.mqdCache id else none

def setMqdForChannel (m : ChannelManager) (id : ℕ) (ptr : Option ℕ) : ChannelManager :=
  if m.isRegistered id then { m with mqdCache := Function.update m.mqdCache id ptr } else m

def updateMqd (m : ChannelManager) (ptr : ℕ) (f : Mqd → Mqd) : ChannelManager :=
  { m with mqd := Function.update m.mqd ptr (f (m.mqd ptr)) }

/-- `if (mqd) mqd_state_preempt(mqd)` for a possibly null pointer. -/
def preemptMqd (m : ChannelManager) (ptr : Option ℕ) : ChannelManager :=
  match ptr with
  | none => m
  | some p => m.updateMqd p Mqd.preempt

/-- What the driver does to the channel table besides submitting. -/
inductive ConfigOp where
  | register (id : ℕ) (priority : ChannelPrio) (contextType : ContextType)
  | contextType (id : ℕ) (contextType : ContextType)
  | mqdPointer (id : ℕ) (ptr : Option ℕ)
  | mqdWrite (ptr : ℕ) (mqd : Mqd)
  deriving DecidableEq, Repr

def configure (m : ChannelManager) : ConfigOp → ChannelManager
  | .register id priority contextType => (m.registerChannel id priority contextType).2
  | .contextType id contextType => m.setChannelContextType id contextType
  | .mqdPointer id ptr => m.setMqdForChannel id ptr
  | .mqdWrite ptr mqd => m.updateMqd ptr fun _ => mqd

/-! ### Selection -/

/-- A BROWN channel other than `lastChannel` waits in the HIGH or NORMAL queue. -/
def brownPending (m : ChannelManager) : Bool :=
  (m.priQueues .high ++ m.priQueues .normal).any fun c =>
    c != m.lastChannel && (m.channels c).batchInFlight && (m.channels c).contextType == .brown

/-- The channel that the pre-pass takes the GPU from, if any. -/
def greenVictim (m : ChannelManager) : Option ℕ :=
  if m.isRegistered m.lastChannel && (m.channels m.lastChannel).contextType == .green &&
      (m.channels m.lastChannel).batchInFlight && m.brownPending then some m.lastChannel
  else none

/-- The channel that a call of `nextReadyChannel` takes the GPU from. -/
def victim (m : ChannelManager) : Option ℕ :=
  if m.activeCount = 0 then none else m.greenVictim

/-- The pre-pass: BROWN pending while a GREEN channel is the last one selected. -/
def preemptGreen (m : ChannelManager) : ChannelManager :=
  match m.greenVictim with
  | none => m
  | some v =>
    let m := m.preemptMqd (m.mqdCache v)
    (m.setChannel v { m.channels v with batchInFlight := false }).pushReady
      (m.channels v).priority v

/-- Drops the queue's leading ids whose channel is not in flight. -/
def dropStale (m : ChannelManager) (q : List ℕ) : List ℕ :=
  q.dropWhile fun id => !(m.channels id).batchInFlight

def setQueue (m : ChannelManager) (pri : ChannelPrio) (q : List ℕ) : ChannelManager :=
  { m with priQueues := Function.update m.priQueues pri q }

/-- One level of the scan; the selected id stays at the front of its queue. -/
def scanLevel (m : ChannelManager) (pri : ChannelPrio) : Option ℕ × ChannelManager :=
  match m.dropStale (m.priQueues pri) with
  | [] => (none, m.setQueue pri [])
  | id :: rest =>
    (some id, { m.setQueue pri (id :: rest) with
      lastChannel := id
      starvationCounter := if pri = .low then 0 else m.starvationCounter + 1 })

/-- HIGH → NORMAL → LOW. -/
def scanLevels (m : ChannelManager) : Option ℕ × ChannelManager :=
  match m.scanLevel .high with
  | (some id, m) => (some id, m)
  | (none, m) =>
    match m.scanLevel .normal with
    | (some id, m) => (some id, m)
    | (none, m) => m.scanLevel .low

/-- The starvation branch: here the selected LOW id is popped. -/
def forceLow (m : ChannelManager) : Option ℕ × ChannelManager :=
  match m.dropStale (m.priQueues .low) with
  | [] => (none, { m.setQueue .low [] with starvationCounter := 0 })
  | id :: rest =>
    (some id, { m.setQueue .low rest with lastChannel := id, starvationCounter := 0 })

def nextReadyChannel (m : ChannelManager) : Option ℕ × ChannelManager :=
  if m.activeCount = 0 then (none, m)
  else
    let m := m.preemptGreen
    if kStarvationThreshold ≤ m.starvationCounter then
      match m.forceLow with
      | (some id, m) => (some id, m)
      | (none, m) => m.scanLevels
    else m.scanLevels

/-! ### What selection keeps -/

/-- Slots, registration and MQDs are the same; only queues and counters may differ. -/
structure SameSlots (m m' : ChannelManager) : Prop where
  channels : m'.channels = m.channels
  registered : m'.registered = m.registered
  mqdCache : m'.mqdCache = m.mqdCache
  mqd : m'.mqd = m.mqd

theorem SameSlots.refl (m : ChannelManager) : SameSlots m m := ⟨rfl, rfl, rfl, rfl⟩

theorem SameSlots.trans {m₁ m₂ m₃ : ChannelManager} (h : SameSlots m₁ m₂)
    (h' : SameSlots m₂ m₃) : SameSlots m₁ m₃ :=
  ⟨h'.channels.trans h.channels, h'.registered.trans h.registered, h'.mqdCache.trans h.mqdCache,
    h'.mqd.trans h.mqd⟩

/-- The head of what `dropStale` leaves is in flight and was queued. -/
theorem dropStale_cons {m : ChannelManager} {q : List ℕ} {id : ℕ} {rest : List ℕ}
    (h : m.dropStale q = id :: rest) : (m.channels id).batchInFlight = true ∧ id ∈ q := by
  constructor
  · have hhead := List.head?_dropWhile_not (fun id => !(m.channels id).batchInFlight) q
    rw [dropStale] at h
    rw [h] at hhead
    simpa using hhead
  · have hsub := List.dropWhile_subset (l := q) fun id => !(m.channels id).batchInFlight
    exact hsub (by rw [dropStale] at h; rw [h]; exact List.mem_cons_self)

/-- What a selection routine guarantees: it keeps the slots, only shortens queues, and what it
selects is in flight and was queued. -/
structure Selects (m : ChannelManager) (r : Option ℕ × ChannelManager) : Prop where
  same : SameSlots m r.2
  queues : ∀ pri, r.2.priQueues pri ⊆ m.priQueues pri
  inFlight : ∀ id, r.1 = some id → (m.channels id).batchInFlight = true
  queued : ∀ id, r.1 = some id → ∃ pri, id ∈ m.priQueues pri

theorem Selects.trans {m m' : ChannelManager} {r : Option ℕ × ChannelManager}
    (h : Selects m (none, m')) (h' : Selects m' r) : Selects m r where
  same := h.same.trans h'.same
  queues := fun pri => List.Subset.trans (h'.queues pri) (h.queues pri)
  inFlight := fun id hid => by
    have hch := h'.inFlight id hid
    rwa [h.same.channels] at hch
  queued := fun id hid => by
    obtain ⟨pri, hmem⟩ := h'.queued id hid
    exact ⟨pri, h.queues pri hmem⟩

theorem update_subset {m : ChannelManager} {pri : ChannelPrio} {q : List ℕ}
    (h : q ⊆ m.priQueues pri) (pri' : ChannelPrio) :
    Function.update m.priQueues pri q pri' ⊆ m.priQueues pri' := by
  by_cases heq : pri' = pri
  · subst heq
    rwa [Function.update_self]
  · rw [Function.update_of_ne heq]
    exact List.Subset.refl _

theorem dropStale_subset (m : ChannelManager) (q : List ℕ) : m.dropStale q ⊆ q :=
  List.dropWhile_subset _

theorem scanLevel_selects (m : ChannelManager) (pri : ChannelPrio) :
    Selects m (m.scanLevel pri) := by
  have hsub := dropStale_subset m (m.priQueues pri)
  unfold scanLevel
  cases hq : m.dropStale (m.priQueues pri) with
  | nil =>
    exact ⟨⟨rfl, rfl, rfl, rfl⟩, update_subset (List.nil_subset _), by simp, by simp⟩
  | cons c rest =>
    rw [hq] at hsub
    refine ⟨⟨rfl, rfl, rfl, rfl⟩, update_subset hsub, fun id hid => ?_, fun id hid => ?_⟩
    · obtain rfl : c = id := by simpa using hid
      exact (dropStale_cons hq).1
    · obtain rfl : c = id := by simpa using hid
      exact ⟨pri, (dropStale_cons hq).2⟩

theorem forceLow_selects (m : ChannelManager) : Selects m m.forceLow := by
  have hsub := dropStale_subset m (m.priQueues .low)
  unfold forceLow
  cases hq : m.dropStale (m.priQueues .low) with
  | nil =>
    exact ⟨⟨rfl, rfl, rfl, rfl⟩, update_subset (List.nil_subset _), by simp, by simp⟩
  | cons c rest =>
    rw [hq] at hsub
    refine ⟨⟨rfl, rfl, rfl, rfl⟩, update_subset (List.Subset.trans (List.subset_cons_self _ _) hsub),
      fun id hid => ?_, fun id hid => ?_⟩
    · obtain rfl : c = id := by simpa using hid
      exact (dropStale_cons hq).1
    · obtain rfl : c = id := by simpa using hid
      exact ⟨.low, (dropStale_cons hq).2⟩

theorem scanLevels_selects (m : ChannelManager) : Selects m m.scanLevels := by
  unfold scanLevels
  have hhigh := scanLevel_selects m .high
  match hh : m.scanLevel .high with
  | (some id, m₁) => rwa [hh] at hhigh
  | (none, m₁) =>
    rw [hh] at hhigh
    have hnormal := scanLevel_selects m₁ .normal
    match hn : m₁.scanLevel .normal with
    | (some id, m₂) =>
      rw [hn] at hnormal
      simpa only [hn] using hhigh.trans hnormal
    | (none, m₂) =>
      rw [hn] at hnormal
      simpa only [hn] using hhigh.trans (hnormal.trans (scanLevel_selects m₂ .low))

/-- **Selection.**  After the pre-pass, `nextReadyChannel` keeps the slots and selects a queued
channel that is in flight. -/
theorem nextReadyChannel_selects (m : ChannelManager) (hactive : m.activeCount ≠ 0) :
    Selects m.preemptGreen m.nextReadyChannel := by
  unfold nextReadyChannel
  rw [if_neg hactive]
  simp only
  split_ifs
  · have hforce := forceLow_selects m.preemptGreen
    match hf : m.preemptGreen.forceLow with
    | (some id, m₁) => rwa [hf] at hforce
    | (none, m₁) =>
      rw [hf] at hforce
      exact hforce.trans (scanLevels_selects m₁)
  · exact scanLevels_selects _

theorem nextReadyChannel_of_inactive {m : ChannelManager} (h : m.activeCount = 0) :
    m.nextReadyChannel = (none, m) := by
  rw [nextReadyChannel, if_pos h]

theorem preemptGreen_of_no_victim {m : ChannelManager} (h : m.greenVictim = none) :
    m.preemptGreen = m := by
  rw [preemptGreen, h]

/-- Without a victim a selection does not touch the slots. -/
theorem nextReadyChannel_of_no_victim {m : ChannelManager} (h : m.victim = none) :
    Selects m m.nextReadyChannel := by
  by_cases hactive : m.activeCount = 0
  · rw [nextReadyChannel_of_inactive hactive]
    exact ⟨SameSlots.refl m, fun _ => List.Subset.refl _, by simp, by simp⟩
  · have hsel := nextReadyChannel_selects m hactive
    rw [victim, if_neg hactive] at h
    rwa [preemptGreen_of_no_victim h] at hsel

theorem nextReadyChannel_channels {m m' : ChannelManager} {r : Option ℕ} (h : m.victim = none)
    (hnext : m.nextReadyChannel = (r, m')) : m'.channels = m.channels := by
  have hsame := (nextReadyChannel_of_no_victim h).same.channels
  rwa [hnext] at hsame

/-! ### The slots under the other operations -/

theorem submitBatch_of_unregistered {m : ChannelManager} {id : ℕ} (h : m.isRegistered id = false)
    (b : Batch) : m.submitBatch id b = m := by
  simp [submitBatch, h]

/-- An accepted submission fills the slot and marks it in flight. -/
theorem submitBatch_channel {m : ChannelManager} {id : ℕ} (h : m.isRegistered id = true)
    (b : Batch) : ((m.submitBatch id b).channels id).batch = b ∧
      ((m.submitBatch id b).channels id).batchInFlight = true := by
  cases hf : (m.channels id).batchInFlight <;>
    simp [submitBatch, h, hf, setChannel, pushReady, ChannelState.batch]

theorem submitBatch_channel_of_ne {m : ChannelManager} {id c : ℕ} (hne : c ≠ id) (b : Batch) :
    (m.submitBatch id b).channels c = m.channels c := by
  unfold submitBatch
  cases m.isRegistered id
  · rfl
  · cases hf : (m.channels id).batchInFlight <;>
      simp [hf, setChannel, pushReady, hne]

@[simp] theorem submitBatch_registered (m : ChannelManager) (id : ℕ) (b : Batch) :
    (m.submitBatch id b).registered = m.registered := by
  unfold submitBatch
  cases m.isRegistered id
  · rfl
  · cases hf : (m.channels id).batchInFlight <;> simp [hf, setChannel, pushReady]

theorem yieldChannel_channel_of_ne {m : ChannelManager} {id c : ℕ} (hne : c ≠ id) :
    (m.yieldChannel id).channels c = m.channels c := by
  unfold yieldChannel
  cases m.isRegistered id <;> simp [setChannel, hne]

theorem yieldChannel_batchInFlight {m : ChannelManager} {id : ℕ} (h : m.isRegistered id = true) :
    ((m.yieldChannel id).channels id).batchInFlight = false := by
  simp [yieldChannel, h, setChannel]

/-! ### No batch comes from nowhere -/

/-- Every batch in flight afterwards was in flight before, in the same slot. -/
def SlotsFrom (m m' : ChannelManager) : Prop :=
  ∀ c, (m'.channels c).batchInFlight = true →
    (m.channels c).batchInFlight = true ∧ (m'.channels c).batch = (m.channels c).batch

theorem SlotsFrom.trans {m₁ m₂ m₃ : ChannelManager} (h : SlotsFrom m₁ m₂)
    (h' : SlotsFrom m₂ m₃) : SlotsFrom m₁ m₃ := fun c hc =>
  ⟨(h c (h' c hc).1).1, (h' c hc).2.trans (h c (h' c hc).1).2⟩

theorem slotsFrom_of_channels_eq {m m' : ChannelManager} (h : m'.channels = m.channels) :
    SlotsFrom m m' := fun c hc => by
  rw [h] at hc ⊢
  exact ⟨hc, rfl⟩

/-- Rewriting one slot is harmless when the new slot is idle or holds the old batch. -/
theorem slotsFrom_setChannel {m : ChannelManager} {id : ℕ} {ch : ChannelState}
    (h : ch.batchInFlight = true →
      (m.channels id).batchInFlight = true ∧ ch.batch = (m.channels id).batch) :
    SlotsFrom m (m.setChannel id ch) := by
  intro c hc
  by_cases hcid : c = id
  · subst hcid
    simp only [setChannel, Function.update_self] at hc ⊢
    exact h hc
  · simp only [setChannel, Function.update_of_ne hcid] at hc ⊢
    exact ⟨hc, trivial⟩

theorem yieldChannel_slotsFrom (m : ChannelManager) (id : ℕ) :
    SlotsFrom m (m.yieldChannel id) := by
  unfold yieldChannel
  split
  · exact slotsFrom_setChannel (by simp)
  · exact slotsFrom_of_channels_eq rfl

@[simp] theorem preemptMqd_channels (m : ChannelManager) (ptr : Option ℕ) :
    (m.preemptMqd ptr).channels = m.channels := by
  cases ptr <;> rfl

theorem preemptGreen_slotsFrom (m : ChannelManager) : SlotsFrom m m.preemptGreen := by
  unfold preemptGreen
  cases m.greenVictim with
  | none => exact slotsFrom_of_channels_eq rfl
  | some v =>
    refine SlotsFrom.trans (slotsFrom_of_channels_eq (preemptMqd_channels m (m.mqdCache v))) ?_
    exact slotsFrom_setChannel (by simp)

theorem nextReadyChannel_slotsFrom (m : ChannelManager) :
    SlotsFrom m m.nextReadyChannel.2 := by
  by_cases hactive : m.activeCount = 0
  · rw [nextReadyChannel_of_inactive hactive]
    exact slotsFrom_of_channels_eq rfl
  · have hsame := (nextReadyChannel_selects m hactive).same
    exact (preemptGreen_slotsFrom m).trans (slotsFrom_of_channels_eq hsame.channels)

/-- What `nextReadyChannel` returns is in flight in the manager it leaves. -/
theorem nextReadyChannel_inFlight {m m' : ChannelManager} {c : ℕ}
    (h : m.nextReadyChannel = (some c, m')) : (m'.channels c).batchInFlight = true := by
  by_cases hactive : m.activeCount = 0
  · rw [nextReadyChannel_of_inactive hactive] at h
    simp at h
  · have hsel := nextReadyChannel_selects m hactive
    rw [h] at hsel
    rw [hsel.same.channels]
    exact hsel.inFlight c rfl

theorem configure_slotsFrom (m : ChannelManager) (op : ConfigOp) :
    SlotsFrom m (m.configure op) := by
  cases op with
  | register id priority contextType =>
    simp only [configure, registerChannel]
    split_ifs
    · exact slotsFrom_of_channels_eq rfl
    · exact slotsFrom_of_channels_eq rfl
    · exact slotsFrom_setChannel (by simp)
  | contextType id contextType =>
    simp only [configure, setChannelContextType]
    split_ifs
    · exact slotsFrom_setChannel fun h => ⟨h, rfl⟩
    · exact slotsFrom_of_channels_eq rfl
  | mqdPointer id ptr =>
    simp only [configure, setMqdForChannel]
    split_ifs <;> exact slotsFrom_of_channels_eq rfl
  | mqdWrite ptr mqd => exact slotsFrom_of_channels_eq rfl

/-! ### Only registered channels are in flight -/

def InFlightRegistered (m : ChannelManager) : Prop :=
  ∀ c, (m.channels c).batchInFlight = true → m.isRegistered c = true

/-- No batch comes from nowhere and no registration is undone. -/
theorem InFlightRegistered.mono {m m' : ChannelManager} (h : InFlightRegistered m)
    (hfrom : SlotsFrom m m') (hreg : ∀ c, m.registered c = true → m'.registered c = true) :
    InFlightRegistered m' := by
  intro c hc
  have hold := h c (hfrom c hc).1
  simp only [isRegistered, Bool.and_eq_true] at hold ⊢
  exact ⟨hold.1, hreg c hold.2⟩

theorem inFlightRegistered_submitBatch {m : ChannelManager} (h : InFlightRegistered m) {id : ℕ}
    (hreg : m.isRegistered id = true) (b : Batch) : InFlightRegistered (m.submitBatch id b) := by
  intro c hc
  have hsame : (m.submitBatch id b).isRegistered c = m.isRegistered c := by
    simp only [isRegistered, submitBatch_registered]
  rw [hsame]
  by_cases hcid : c = id
  · subst hcid
    exact hreg
  · rw [submitBatch_channel_of_ne hcid] at hc
    exact h c hc

/-- A yield clears one flag and no other. -/
theorem yieldChannel_inFlight {m : ChannelManager} (h : InFlightRegistered m) (id c : ℕ) :
    ((m.yieldChannel id).channels c).batchInFlight =
      ((m.channels c).batchInFlight && c != id) := by
  by_cases hc : c = id
  · subst hc
    rw [bne_self_eq_false, Bool.and_false]
    cases hreg : m.isRegistered c with
    | true => exact yieldChannel_batchInFlight hreg
    | false =>
      cases hf : ((m.yieldChannel c).channels c).batchInFlight with
      | false => rfl
      | true =>
        rw [h c (yieldChannel_slotsFrom m c c hf).1] at hreg
        cases hreg
  · have hne : (c != id) = true := by simpa using hc
    rw [yieldChannel_channel_of_ne hc, hne, Bool.and_true]

/-- The driver's configuration does not touch the flags. -/
theorem configure_inFlight {m : ChannelManager} (h : InFlightRegistered m) (op : ConfigOp)
    (c : ℕ) : ((m.configure op).channels c).batchInFlight = (m.channels c).batchInFlight := by
  cases op with
  | register id priority contextType =>
    simp only [configure, registerChannel]
    split_ifs with hlarge hreg
    · rfl
    · rfl
    · by_cases hc : c = id
      · subst hc
        simp only [pushReady, setChannel, Function.update_self]
        cases hf : (m.channels c).batchInFlight with
        | false => rfl
        | true =>
          have hreg' := h c hf
          simp [isRegistered, hreg] at hreg'
      · simp only [pushReady, setChannel, Function.update_of_ne hc]
  | contextType id contextType =>
    simp only [configure, setChannelContextType]
    split_ifs
    · by_cases hc : c = id
      · subst hc
        simp only [setChannel, Function.update_self]
      · simp only [setChannel, Function.update_of_ne hc]
    · rfl
  | mqdPointer id ptr =>
    simp only [configure, setMqdForChannel]
    split_ifs <;> rfl
  | mqdWrite ptr mqd => rfl

@[simp] theorem preemptMqd_registered (m : ChannelManager) (ptr : Option ℕ) :
    (m.preemptMqd ptr).registered = m.registered := by
  cases ptr <;> rfl

@[simp] theorem preemptGreen_registered (m : ChannelManager) :
    m.preemptGreen.registered = m.registered := by
  unfold preemptGreen
  cases m.greenVictim with
  | none => rfl
  | some v => exact preemptMqd_registered m (m.mqdCache v)

@[simp] theorem nextReadyChannel_registered (m : ChannelManager) :
    m.nextReadyChannel.2.registered = m.registered := by
  by_cases hactive : m.activeCount = 0
  · rw [nextReadyChannel_of_inactive hactive]
  · rw [(nextReadyChannel_selects m hactive).same.registered, preemptGreen_registered]

theorem configure_registered (m : ChannelManager) (op : ConfigOp) {c : ℕ}
    (h : m.registered c = true) : (m.configure op).registered c = true := by
  cases op with
  | register id priority contextType =>
    simp only [configure, registerChannel]
    split_ifs
    · exact h
    · exact h
    · by_cases hc : c = id
      · subst hc
        simp
      · simp [hc, h]
  | contextType id contextType =>
    simp only [configure, setChannelContextType]
    split_ifs <;> exact h
  | mqdPointer id ptr =>
    simp only [configure, setMqdForChannel]
    split_ifs <;> exact h
  | mqdWrite ptr mqd => exact h

@[simp] theorem yieldChannel_registered (m : ChannelManager) (id : ℕ) :
    (m.yieldChannel id).registered = m.registered := by
  unfold yieldChannel
  cases m.isRegistered id <;> rfl

/-! ### Only the driver changes the cache -/

@[simp] theorem yieldChannel_mqdCache (m : ChannelManager) (id : ℕ) :
    (m.yieldChannel id).mqdCache = m.mqdCache := by
  unfold yieldChannel
  cases m.isRegistered id <;> rfl

@[simp] theorem yieldChannel_getMqdForChannel (m : ChannelManager) (id c : ℕ) :
    (m.yieldChannel id).getMqdForChannel c = m.getMqdForChannel c := by
  unfold yieldChannel
  cases m.isRegistered id <;> rfl

@[simp] theorem submitBatch_mqdCache (m : ChannelManager) (id : ℕ) (b : Batch) :
    (m.submitBatch id b).mqdCache = m.mqdCache := by
  unfold submitBatch
  cases m.isRegistered id
  · rfl
  · cases hf : (m.channels id).batchInFlight <;> simp [hf, setChannel, pushReady]

@[simp] theorem preemptMqd_mqdCache (m : ChannelManager) (ptr : Option ℕ) :
    (m.preemptMqd ptr).mqdCache = m.mqdCache := by
  cases ptr <;> rfl

@[simp] theorem nextReadyChannel_mqdCache (m : ChannelManager) :
    m.nextReadyChannel.2.mqdCache = m.mqdCache := by
  by_cases hactive : m.activeCount = 0
  · rw [nextReadyChannel_of_inactive hactive]
  · rw [(nextReadyChannel_selects m hactive).same.mqdCache]
    unfold preemptGreen
    cases m.greenVictim with
    | none => rfl
    | some v => exact preemptMqd_mqdCache m (m.mqdCache v)

end ChannelManager

end UsrLinuxEmu.GpuDriver
