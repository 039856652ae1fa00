import UsrLinuxEmu.GpuDriver.GpuQueue
import UsrLinuxEmu.Transition.Run
import UsrLinuxEmu.Transition.Simulation

/-!
# The shared ring of a user queue (`drv/gpgpu_device.cpp`, `sim/gpu_queue_emu.cpp`)

CREATE_QUEUE takes a ring size, MAP_QUEUE_RING allocates the backing store on its first call and
attaches it to the queue on every call, which sets both indices to zero.  A producer in user space
writes entries and the puller dequeues them.

* `UserQueue` — a queue as the driver and the HAL keep it, from `createQueue` on;
* `mapQueueRing` / `produce` / `dequeue` — the steps;
* `RingFifo` — the entries published are those dequeued, in order, followed by those still pending,
  a dequeue hands out the oldest one not yet dequeued, and both counts agree with that;
* `ring_fifo_iff` — the runs in which that holds: no mapping of a ring that holds entries, and no
  store into a slot that the wrap of the index has left taken.
-/

namespace UsrLinuxEmu.GpuDriver

open UsrLinuxEmu.Ring UsrLinuxEmu.Transition

/-! ### The queue -/

/-- `sizeof(gpu_ring_header)`. -/
def sizeofRingHeader : ℕ := 56

/-- The backing store of a ring with `ringSize` entries. -/
def ringMemSize (ringSize : UInt32) : ℕ := sizeofRingHeader + ringSize.toNat * sizeofGpfifoEntry

/-- What freshly allocated memory holds, read as a ring header and its entries. -/
structure RingMemory where
  writeIdx : UInt32
  readIdx : UInt32
  slot : UInt32 → GpuGpfifoEntry

namespace GpuQueueEmu

/-- `attachSharedMemory` of memory that `q.ring` describes. -/
def attachSharedMemory (q : GpuQueueEmu) (size : ℕ) : Int × GpuQueueEmu :=
  if size < ringMemSize q.ring.size then (-eINVAL, q)
  else (0, ⟨true, { q.ring with writeIdx := 0, readIdx := 0 }⟩)

/-- `pendingCount`: zero without a ring header. -/
def pendingCount (q : GpuQueueEmu) : UInt32 := if q.attached then q.ring.pendingCount else 0

/-- A dequeue advances the read index of an attached ring and changes nothing else. -/
theorem dequeue_advances {q q' : GpuQueueEmu} {e : GpuGpfifoEntry} (h : q.dequeue = some (e, q')) :
    q.attached = true ∧ q' = { q with ring := { q.ring with readIdx := q.ring.readIdx + 1 } } := by
  unfold dequeue at h
  split_ifs at h with hatt
  unfold WrapRing.popFront at h
  split_ifs at h
  obtain ⟨-, rfl⟩ := Prod.mk.inj (Option.some.inj h)
  exact ⟨hatt, rfl⟩

end GpuQueueEmu

/-- A queue: `ringSize` and whether `shared_mem` is allocated from `queue_infos_`, and the
`GpuQueueEmu`.  The ring of the latter stands for the memory as soon as there is one. -/
structure UserQueue where
  ringSize : UInt32
  mapped : Bool
  queue : GpuQueueEmu

namespace UserQueue

/-- CREATE_QUEUE keeps the lower half of a nonzero `ring_buffer_size`. -/
def createQueue (ringBufferSize : UInt64) : UserQueue :=
  let ringSize := if 0 < ringBufferSize then ringBufferSize.toUInt32 else gpuMaxRingEntries
  ⟨ringSize, false, .create false ringSize⟩

/-- The memory that MAP_QUEUE_RING attaches: the one there is, or what `posix_memalign` gives. -/
def backing (q : UserQueue) (alloc : Option RingMemory) : Option (WrapRing GpuGpfifoEntry) :=
  if q.mapped then some q.queue.ring
  else alloc.map fun mem =>
    { q.queue.ring with writeIdx := mem.writeIdx, readIdx := mem.readIdx, slot := mem.slot }

def mapQueueRing (q : UserQueue) (alloc : Option RingMemory) : Int × UserQueue :=
  match q.backing alloc with
  | none => (-eNOMEM, q)
  | some ring =>
    let r : Int × GpuQueueEmu :=
      { q.queue with ring := ring }.attachSharedMemory (ringMemSize q.ringSize)
    let q' := { q with mapped := true, queue := r.2 }
    if r.1 = 0 then (0, q') else (-eNOMEM, q')

/-- QUERY_QUEUE reads the two indices from the memory, attached or not. -/
def queryPending (q : UserQueue) : UInt32 := if q.mapped then q.queue.ring.pendingCount else 0

/-- A producer stores and publishes its entry while the ring is not full. -/
def produce (q : UserQueue) (e : GpuGpfifoEntry) : UserQueue :=
  if q.queue.attached ∧ q.queue.ring.pendingCount < q.queue.ring.size then
    { q with queue := { q.queue with ring := (q.queue.ring.store e).advance } }
  else q

def dequeue (q : UserQueue) : Option (GpuGpfifoEntry × UserQueue) :=
  q.queue.dequeue.map fun r => (r.1, { q with queue := r.2 })

end UserQueue

/-! ### Runs and their history -/

inductive RingOp where
  | mapQueueRing (alloc : Option RingMemory)
  | produce (e : GpuGpfifoEntry)
  | dequeue

namespace UserQueue

def step (q : UserQueue) : RingOp → UserQueue
  | .mapQueueRing alloc => (q.mapQueueRing alloc).2
  | .produce e => q.produce e
  | .dequeue => (q.dequeue.map Prod.snd).getD q

end UserQueue

/-- The entries published and the entries dequeued, oldest first. -/
structure RingHistory where
  published : List GpuGpfifoEntry
  dequeued : List GpuGpfifoEntry

namespace RingHistory

def empty : RingHistory := ⟨[], []⟩

def note (g : RingHistory) (q : UserQueue) : RingOp → RingHistory
  | .mapQueueRing _ => g
  | .produce e =>
    if q.queue.attached ∧ q.queue.ring.pendingCount < q.queue.ring.size then
      { g with published := g.published ++ [e] }
    else g
  | .dequeue =>
    match q.dequeue with
    | none => g
    | some (e, _) => { g with dequeued := g.dequeued ++ [e] }

end RingHistory

/-! ### The property -/

/-- The entries that a series of dequeues would hand out. -/
def UserQueue.pending (q : UserQueue) : List GpuGpfifoEntry :=
  if q.queue.attached then q.queue.pending else []

structure RingFifo (x : RingHistory × UserQueue) : Prop where
  order : x.1.published = x.1.dequeued ++ x.2.pending
  next : x.2.dequeue.map Prod.fst = x.1.published[x.1.dequeued.length]?
  count : x.2.queue.pendingCount.toNat + x.1.dequeued.length = x.1.published.length
  query : x.2.queryPending = x.2.queue.pendingCount

/-- A mapping finds no entries in the ring, or, for a size whose lower half is zero, which is never
attached, equal indices in the memory; a producer's slot is not one that the wrap of the index has
left taken, or holds the same entry. -/
def keepsFifo (q : UserQueue) : RingOp → Prop
  | .mapQueueRing alloc => q.queue.attached = true ∨ q.ringSize = 0 →
      ∀ ring ∈ q.backing alloc, ring.readIdx = ring.writeIdx
  | .produce e => q.queue.attached = true → q.queue.ring.pendingCount < q.queue.ring.size →
      q.queue.ring.Overruns → q.queue.ring.slot (q.queue.ring.writeIdx % q.queue.ring.size) = e
  | .dequeue => True

instance decidableKeepsFifo (q : UserQueue) : ∀ op, Decidable (keepsFifo q op)
  | .mapQueueRing alloc => inferInstanceAs (Decidable (_ → ∀ ring ∈ q.backing alloc, _))
  | .produce _ => inferInstanceAs (Decidable (_ → _ → _ → _))
  | .dequeue => inferInstanceAs (Decidable True)

/-! ### The steps -/

namespace UserQueue

/-- The state of a queue with the given size, from its creation on. -/
structure WellFormed (q : UserQueue) : Prop where
  size : q.queue.ring.size = GpuQueueEmu.effectiveSize q.ringSize
  mapped : q.queue.attached = true → q.mapped = true ∧ q.ringSize ≠ 0

/-- The backing store is too small exactly for a ring size of zero. -/
theorem ringMemSize_lt_iff (ringSize : UInt32) :
    ringMemSize ringSize < ringMemSize (GpuQueueEmu.effectiveSize ringSize) ↔ ringSize = 0 := by
  unfold ringMemSize GpuQueueEmu.effectiveSize
  by_cases hpos : 0 < ringSize
  · have hne : ringSize ≠ 0 := by
      rintro rfl
      exact absurd hpos (by decide)
    rw [if_pos hpos]
    simp [hne]
  · have hzero : ringSize = 0 := by
      have hle := UInt32.not_lt.mp hpos
      rw [UInt32.le_iff_toNat_le] at hle
      exact UInt32.toNat_inj.mp (Nat.le_zero.mp hle)
    subst hzero
    decide

/-- A mapping does nothing without memory; it attaches the memory, empty, unless the ring size is
zero. -/
theorem mapQueueRing_cases {q : UserQueue} (hq : q.WellFormed) (alloc : Option RingMemory) :
    (q.backing alloc = none ∧ q.mapQueueRing alloc = (-eNOMEM, q)) ∨
      ∃ ring, q.backing alloc = some ring ∧ ring.size = q.queue.ring.size ∧
        ((q.ringSize = 0 ∧ q.mapQueueRing alloc =
          (-eNOMEM, { q with mapped := true, queue := { q.queue with ring := ring } })) ∨
        (q.ringSize ≠ 0 ∧ q.mapQueueRing alloc =
          (0, { q with
            mapped := true
            queue := ⟨true, { ring with writeIdx := 0, readIdx := 0 }⟩ }))) := by
  cases hb : q.backing alloc with
  | none => exact .inl ⟨rfl, by simp only [mapQueueRing, hb]⟩
  | some ring =>
    right
    have hsize : ring.size = q.queue.ring.size := by
      unfold backing at hb
      split_ifs at hb
      · rw [← Option.some.inj hb]
      · obtain ⟨mem, -, rfl⟩ := Option.map_eq_some_iff.mp hb
        rfl
    refine ⟨ring, rfl, hsize, ?_⟩
    have hlt := ringMemSize_lt_iff q.ringSize
    rw [← hq.size, ← hsize] at hlt
    by_cases hzero : q.ringSize = 0
    · refine .inl ⟨hzero, ?_⟩
      simp only [mapQueueRing, hb, GpuQueueEmu.attachSharedMemory, if_pos (hlt.mpr hzero)]
      rfl
    · refine .inr ⟨hzero, ?_⟩
      simp only [mapQueueRing, hb, GpuQueueEmu.attachSharedMemory,
        if_neg fun h => hzero (hlt.mp h), if_true]

theorem wellFormed_step {q : UserQueue} (hq : q.WellFormed) (op : RingOp) :
    (q.step op).WellFormed := by
  cases op with
  | mapQueueRing alloc =>
    rw [step]
    obtain ⟨-, h⟩ | ⟨ring, -, hsize, ⟨-, h⟩ | ⟨hne, h⟩⟩ := mapQueueRing_cases hq alloc
    · rw [h]
      exact hq
    · rw [h]
      exact ⟨hsize.trans hq.size, fun hatt => ⟨rfl, (hq.mapped hatt).2⟩⟩
    · rw [h]
      exact ⟨hsize.trans hq.size, fun _ => ⟨rfl, hne⟩⟩
  | produce e =>
    rw [step, produce]
    split_ifs
    · exact ⟨hq.size, hq.mapped⟩
    · exact hq
  | dequeue =>
    rw [step]
    cases hd : q.dequeue with
    | none => exact hq
    | some r =>
      obtain ⟨⟨e, queue⟩, hqueue, rfl⟩ := Option.map_eq_some_iff.mp hd
      obtain ⟨-, rfl⟩ := GpuQueueEmu.dequeue_advances hqueue
      exact ⟨hq.size, hq.mapped⟩

theorem wellFormed_createQueue (ringBufferSize : UInt64) : (createQueue ringBufferSize).WellFormed :=
  ⟨rfl, fun h => by cases h⟩

end UserQueue

/-! ### The invariant -/

abbrev ringStep := observed UserQueue.step RingHistory.note

structure RingInv (x : RingHistory × UserQueue) : Prop extends RingFifo x where
  wellFormed : x.2.WellFormed

theorem pending_length (q : UserQueue) : q.pending.length = q.queue.pendingCount.toNat := by
  unfold UserQueue.pending GpuQueueEmu.pendingCount
  split_ifs
  · simp [GpuQueueEmu.pending, WrapRing.pending]
  · rfl

/-- A dequeue hands out the oldest pending entry, and nothing only when there is none. -/
theorem dequeue_eq_head (q : UserQueue) : q.dequeue.map Prod.fst = q.pending.head? := by
  unfold UserQueue.dequeue UserQueue.pending
  cases hd : q.queue.dequeue with
  | none =>
    split_ifs with hatt
    · rw [GpuQueueEmu.pending_of_dequeue_none hatt hd]
      rfl
    · rfl
  | some r =>
    obtain ⟨hpending, -⟩ := GpuQueueEmu.dequeue_some hd
    rw [if_pos (GpuQueueEmu.dequeue_advances hd).1, hpending]
    rfl

/-- The order of the entries settles the next one and the count. -/
theorem RingInv.of_order {g : RingHistory} {q : UserQueue} (hq : q.WellFormed)
    (order : g.published = g.dequeued ++ q.pending)
    (query : q.queryPending = q.queue.pendingCount) : RingInv (g, q) := by
  refine ⟨⟨order, ?_, ?_, query⟩, hq⟩
  · rw [dequeue_eq_head, order, List.getElem?_append_right (Nat.le_refl _), Nat.sub_self,
      List.head?_eq_getElem?]
  · rw [order, List.length_append, pending_length]
    exact Nat.add_comm ..

theorem ringInv_mapQueueRing {g : RingHistory} {q : UserQueue} (hinv : RingInv (g, q))
    {alloc : Option RingMemory} (hG : keepsFifo q (.mapQueueRing alloc)) :
    RingInv (ringStep (g, q) (.mapQueueRing alloc)) := by
  refine RingInv.of_order (UserQueue.wellFormed_step hinv.wellFormed _) ?_ ?_
  · -- an attached ring was empty, so that nothing is lost
    show g.published = g.dequeued ++ (q.mapQueueRing alloc).2.pending
    have hpending : (q.mapQueueRing alloc).2.pending = q.pending := by
      obtain ⟨-, h⟩ | ⟨ring, hb, -, ⟨hzero, h⟩ | ⟨-, h⟩⟩ :=
        UserQueue.mapQueueRing_cases hinv.wellFormed alloc
      · rw [h]
      · rw [h]
        have hnot : q.queue.attached = false := by
          rw [← Bool.not_eq_true]
          exact fun hatt => (hinv.wellFormed.mapped hatt).2 hzero
        simp only [UserQueue.pending, hnot, Bool.false_eq_true, if_false]
      · rw [h]
        have hempty : UserQueue.pending { q with
            mapped := true
            queue := ⟨true, { ring with writeIdx := 0, readIdx := 0 }⟩ } = [] := by
          simp only [UserQueue.pending, if_true]
          exact (WrapRing.pending_eq_nil_iff _).mpr rfl
        rw [hempty]
        cases hatt : q.queue.attached with
        | false => simp only [UserQueue.pending, hatt, Bool.false_eq_true, if_false]
        | true =>
          have hring : ring = q.queue.ring := by
            rw [UserQueue.backing, if_pos (hinv.wellFormed.mapped hatt).1] at hb
            exact (Option.some.inj hb).symm
          have heq := hG (.inl hatt) ring hb
          rw [hring] at heq
          simp only [UserQueue.pending, hatt, if_true]
          exact ((WrapRing.pending_eq_nil_iff _).mpr heq).symm
    rw [hpending]
    exact hinv.order
  · show (q.mapQueueRing alloc).2.queryPending = (q.mapQueueRing alloc).2.queue.pendingCount
    obtain ⟨-, h⟩ | ⟨ring, hb, -, ⟨hzero, h⟩ | ⟨-, h⟩⟩ :=
      UserQueue.mapQueueRing_cases hinv.wellFormed alloc
    · rw [h]
      exact hinv.query
    · rw [h]
      have heq := hG (.inr hzero) ring hb
      simp only [UserQueue.queryPending, GpuQueueEmu.pendingCount, if_true, WrapRing.pendingCount]
      rw [heq, UInt32.sub_self]
      split_ifs <;> rfl
    · rw [h]
      rfl

theorem ringInv_produce {g : RingHistory} {q : UserQueue} (hinv : RingInv (g, q))
    {e : GpuGpfifoEntry} (hG : keepsFifo q (.produce e)) :
    RingInv (ringStep (g, q) (.produce e)) := by
  by_cases hroom : q.queue.attached = true ∧ q.queue.ring.pendingCount < q.queue.ring.size
  · obtain ⟨hatt, hlt⟩ := hroom
    have hmapped : q.mapped = true := (hinv.wellFormed.mapped hatt).1
    have hkept : (q.queue.ring.store e).pending = q.queue.ring.pending := by
      rw [WrapRing.pending_store_iff, WrapRing.slotFree_iff hlt]
      by_cases hover : q.queue.ring.Overruns
      · exact .inr (hG hatt hlt hover)
      · exact .inl hover
    have hfull : (q.queue.ring.store e).NotFull := WrapRing.notFull_of_lt_size hlt
    have hadvance := WrapRing.pending_advance hfull
    rw [hkept] at hadvance
    have hstep : ringStep (g, q) (.produce e) = ({ g with published := g.published ++ [e] },
        { q with queue := { q.queue with ring := (q.queue.ring.store e).advance } }) := by
      simp only [ringStep, observed, RingHistory.note, UserQueue.step, UserQueue.produce,
        if_pos (And.intro hatt hlt)]
    rw [hstep]
    refine RingInv.of_order ⟨hinv.wellFormed.size, hinv.wellFormed.mapped⟩ ?_ ?_
    · have horder := hinv.order
      have hslot : (q.queue.ring.store e).slot (q.queue.ring.writeIdx % q.queue.ring.size) = e :=
        WrapRing.store_slot ..
      simp only [UserQueue.pending, GpuQueueEmu.pending, hatt, if_true] at horder ⊢
      rw [hadvance, horder, List.append_assoc]
      exact congrArg (fun x => g.dequeued ++ (q.queue.ring.pending ++ [x])) hslot.symm
    · simp only [UserQueue.queryPending, GpuQueueEmu.pendingCount, hatt, hmapped, if_true]
  · have hsame : ringStep (g, q) (.produce e) = (g, q) := by
      simp only [ringStep, observed, RingHistory.note, UserQueue.step, UserQueue.produce,
        if_neg hroom]
    rw [hsame]
    exact hinv

theorem ringInv_dequeue {g : RingHistory} {q : UserQueue} (hinv : RingInv (g, q)) :
    RingInv (ringStep (g, q) .dequeue) := by
  cases hd : q.dequeue with
  | none =>
    have hsame : ringStep (g, q) .dequeue = (g, q) := by
      simp only [ringStep, observed, RingHistory.note, UserQueue.step, hd, Option.map_none,
        Option.getD_none]
    rw [hsame]
    exact hinv
  | some r =>
    obtain ⟨⟨e, queue⟩, hqueue, rfl⟩ := Option.map_eq_some_iff.mp hd
    obtain ⟨hpending, hatt⟩ := GpuQueueEmu.dequeue_some hqueue
    have hstep : ringStep (g, q) .dequeue =
        ({ g with dequeued := g.dequeued ++ [e] }, { q with queue := queue }) := by
      simp only [ringStep, observed, RingHistory.note, UserQueue.step, hd, Option.map_some,
        Option.getD_some]
    have hattached := (GpuQueueEmu.dequeue_advances hqueue).1
    have hmapped : q.mapped = true := (hinv.wellFormed.mapped hattached).1
    have hwf := UserQueue.wellFormed_step hinv.wellFormed .dequeue
    rw [show q.step .dequeue = { q with queue := queue } from congrArg Prod.snd hstep] at hwf
    rw [hstep]
    refine RingInv.of_order hwf ?_ ?_
    · have horder := hinv.order
      simp only [UserQueue.pending, hattached, if_true, hpending] at horder
      simp only [UserQueue.pending, hatt, hattached, if_true, horder]
      rw [List.append_assoc]
      rfl
    · simp only [UserQueue.queryPending, GpuQueueEmu.pendingCount, hatt, hattached, hmapped, if_true]

theorem ringInv_step (x : RingHistory × UserQueue) (op : RingOp) (hinv : RingInv x)
    (hG : keepsFifo x.2 op) : RingInv (ringStep x op) := by
  cases op with
  | mapQueueRing alloc => exact ringInv_mapQueueRing hinv hG
  | produce e => exact ringInv_produce hinv hG
  | dequeue => exact ringInv_dequeue hinv

theorem ringInv_createQueue (ringBufferSize : UInt64) :
    RingInv (.empty, UserQueue.createQueue ringBufferSize) :=
  RingInv.of_order (UserQueue.wellFormed_createQueue ringBufferSize) rfl rfl

/-! ### The result -/

/-- A step that does not meet the condition loses or replaces an entry, or miscounts. -/
theorem keepsFifo_of_ringFifo (x : RingHistory × UserQueue) (op : RingOp) (hinv : RingInv x)
    (h : RingFifo (ringStep x op)) : keepsFifo x.2 op := by
  obtain ⟨g, q⟩ := x
  cases op with
  | mapQueueRing alloc =>
    intro hcase ring hb
    obtain ⟨hnone, -⟩ | ⟨ring', hb', -, ⟨hzero, hmap⟩ | ⟨hne, hmap⟩⟩ :=
      UserQueue.mapQueueRing_cases hinv.wellFormed alloc
    · rw [hnone] at hb
      cases hb
    · obtain rfl : ring' = ring := Option.some.inj (hb'.symm.trans hb)
      have hquery := h.query
      have hnot : q.queue.attached = false := by
        rw [← Bool.not_eq_true]
        exact fun hatt => (hinv.wellFormed.mapped hatt).2 hzero
      simp only [ringStep, observed, UserQueue.step, hmap, UserQueue.queryPending,
        GpuQueueEmu.pendingCount, hnot, if_true, Bool.false_eq_true, if_false,
        WrapRing.pendingCount] at hquery
      grind
    · obtain rfl : ring' = ring := Option.some.inj (hb'.symm.trans hb)
      have hatt : q.queue.attached = true := hcase.resolve_right hne
      have hring : ring' = q.queue.ring := by
        rw [UserQueue.backing, if_pos (hinv.wellFormed.mapped hatt).1] at hb
        exact (Option.some.inj hb).symm
      have hbefore := hinv.order
      have hafter := h.order
      have hempty : WrapRing.pending { ring' with writeIdx := 0, readIdx := 0 } = [] :=
        (WrapRing.pending_eq_nil_iff _).mpr rfl
      simp only [ringStep, observed, RingHistory.note, UserQueue.step, hmap, UserQueue.pending,
        GpuQueueEmu.pending, if_true, hempty, List.append_nil] at hafter
      simp only [UserQueue.pending, GpuQueueEmu.pending, hatt, if_true, ← hring] at hbefore
      rw [hafter, List.self_eq_append_right] at hbefore
      exact (WrapRing.pending_eq_nil_iff _).mp hbefore
  | produce e =>
    intro (hatt : q.queue.attached = true) hlt hover
    have hadvance := WrapRing.pending_advance (r := q.queue.ring.store e)
      (WrapRing.notFull_of_lt_size hlt)
    have hbefore := hinv.order
    have hafter := h.order
    simp only [ringStep, observed, RingHistory.note, UserQueue.step, UserQueue.produce,
      if_pos (And.intro hatt hlt), UserQueue.pending, GpuQueueEmu.pending, hadvance] at hafter
    simp only [UserQueue.pending, GpuQueueEmu.pending, hatt, if_true] at hbefore hafter
    rw [hbefore, List.append_assoc, List.append_cancel_left_eq] at hafter
    have hkept := (List.append_inj' hafter rfl).1
    refine ((WrapRing.pending_store_iff _ e).mp hkept.symm).resolve_left fun hfree => ?_
    exact (WrapRing.slotFree_iff hlt).mp hfree hover
  | dequeue => trivial

/-- **The shared ring.**  The ring delivers the published entries in order, counts them, and loses
none, in every state of a run exactly when every step of the run keeps them. -/
theorem ring_fifo_iff (ringBufferSize : UInt64) (ops : List RingOp) :
    Always ringStep RingFifo (.empty, UserQueue.createQueue ringBufferSize) ops ↔
      Guarded UserQueue.step keepsFifo (UserQueue.createQueue ringBufferSize) ops := by
  rw [← guarded_observed UserQueue.step RingHistory.note keepsFifo
    (.empty, UserQueue.createQueue ringBufferSize)]
  exact always_iff_guarded ringInv_step (fun _ hinv => hinv.toRingFifo) keepsFifo_of_ringFifo ops
    (ringInv_createQueue ringBufferSize)

/-- The second mapping of the ring sets both indices to zero and discards the entry. -/
theorem ring_fifo_fails : ¬ Always ringStep RingFifo (.empty, UserQueue.createQueue 4)
    [.mapQueueRing (some ⟨0, 0, fun _ => .zero⟩), .produce .zero, .mapQueueRing none] := by
  intro h
  have horder := h.last.order
  revert horder
  decide +kernel

end UsrLinuxEmu.GpuDriver
