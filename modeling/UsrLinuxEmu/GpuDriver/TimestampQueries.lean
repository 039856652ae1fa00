import Mathlib.Tactic.SplitIfs
import UsrLinuxEmu.Heap.Borrow
import UsrLinuxEmu.Heap.SlotTable
import UsrLinuxEmu.Transition.Run

/-!
# Timestamp queries (`sim/hardware/timestamp_query.cpp`)

A query is behind a handle, the index of its slot plus one, and a destroyed query's slot is used
again.  The mutex of the table covers a look-up, but not the accesses to the query that follow, so
that a destroy of another thread may come in between.

* `QueryTable.step` — threads that create, record, resolve and destroy, one access at a time;
* `FreesUnused` — a query is deleted while no other thread has it in hand;
* `timestampQueries_safe_iff` — exactly then no thread is ever left with a deleted query, and then
  all calls return what they return if queries are never deleted.
-/

namespace UsrLinuxEmu.GpuDriver

open UsrLinuxEmu.Heap UsrLinuxEmu.Transition

/-! ### The code -/

structure TimestampQueryEntry where
  recorded : Bool
  entryIndex : UInt64
  tick : UInt64
  deriving DecidableEq, Repr

/-- Where a thread is.  `linking` is a create before `alloc_slot`, `deleting` a destroy after
`free_slot`; the others are the stores of a record and the loads of a resolve. -/
inductive QueryPc where
  | linking (entry : ℕ)
  | storeRecorded (entry : ℕ) (entryIndex tick : UInt64)
  | storeEntryIndex (entry : ℕ) (entryIndex tick : UInt64)
  | storeTick (entry : ℕ) (tick : UInt64)
  | loadRecorded (entry : ℕ)
  | loadTick (entry : ℕ)
  | deleting (entry : ℕ)
  deriving DecidableEq

namespace QueryPc

/-- The query that the thread alone can reach. -/
def owns : QueryPc → Option ℕ
  | .linking entry | .deleting entry => some entry
  | _ => none

/-- The query that the thread has looked up. -/
def uses : QueryPc → Option ℕ
  | .storeRecorded entry _ _ | .storeEntryIndex entry _ _ | .storeTick entry _
  | .loadRecorded entry | .loadTick entry => some entry
  | .linking _ | .deleting _ => none

end QueryPc

inductive QueryReturn where
  /-- Of a create; zero is the null pointer. -/
  | handle (handle : ℕ)
  | void
  | code (rc : Int)
  deriving DecidableEq, Repr

/-- The slots, the queries, the threads that are in a call, and what the calls have returned, the
last first. -/
structure QueryTable where
  slots : List (Option ℕ)
  heap : RefHeap TimestampQueryEntry
  pcs : AList fun _ : ℕ => QueryPc
  returns : List (ℕ × QueryReturn)

/-- A thread starts a call, or goes on.  `allocates` says whether `new` succeeds. -/
inductive QueryOp where
  | create (thread : ℕ) (allocates : Bool)
  | record (thread handle : ℕ) (entryIndex tick : UInt64)
  | resolve (thread handle : ℕ)
  | destroy (thread handle : ℕ)
  | advance (thread : ℕ)
  deriving DecidableEq

/-- `static_cast<int>`. -/
def tickToInt (tick : UInt64) : Int := (tick.toNat : Int).bmod (2 ^ 32)

namespace QueryTable

def initial : QueryTable := ⟨[], .empty, ∅, []⟩

/-- The slot of a handle, if there is one. -/
def slotOf (s : QueryTable) (handle : ℕ) : Option ℕ :=
  if handle = 0 ∨ s.slots.length < handle then none else some (handle - 1)

def lookupSlot (s : QueryTable) (handle : ℕ) : Option ℕ :=
  (s.slotOf handle).bind fun i => s.slots[i]?.join

def goto (s : QueryTable) (t : ℕ) (pc : QueryPc) : QueryTable :=
  { s with pcs := setPc s.pcs t (some pc) }

def ret (s : QueryTable) (t : ℕ) (r : QueryReturn) : QueryTable :=
  { s with pcs := setPc s.pcs t none, returns := (t, r) :: s.returns }

/-- `alloc_slot`. -/
def allocSlot (s : QueryTable) (t entry : ℕ) : QueryTable :=
  match firstFree s.slots with
  | some i => { s with slots := s.slots.set i (some entry) }.ret t (.handle (i + 1))
  | none => { s with slots := s.slots ++ [some entry] }.ret t (.handle (s.slots.length + 1))

/-- `free_slot`; a handle without a query leaves the slots as they are. -/
def freeSlot (s : QueryTable) (t handle : ℕ) : QueryTable :=
  match s.lookupSlot handle with
  | none => s.ret t .void
  | some entry => { s with slots := s.slots.set (handle - 1) none }.goto t (.deleting entry)

def store (s : QueryTable) (entry : ℕ) (f : TimestampQueryEntry → TimestampQueryEntry) :
    QueryTable :=
  { s with heap := s.heap.write entry f }

/-- A load; what it finds in a deleted query does not matter. -/
def load (s : QueryTable) (entry : ℕ) : TimestampQueryEntry × QueryTable :=
  ((s.heap.read entry).getD ⟨false, 0, 0⟩, { s with heap := s.heap.access entry })

/-- What a thread does next.  `frees` is `false` where queries are never deleted. -/
def advanceAt (frees : Bool) (s : QueryTable) (t : ℕ) : QueryPc → QueryTable
  | .linking entry => s.allocSlot t entry
  | .storeRecorded entry entryIndex tick =>
    (s.store entry fun e => { e with recorded := true }).goto t
      (.storeEntryIndex entry entryIndex tick)
  | .storeEntryIndex entry entryIndex tick =>
    (s.store entry fun e => { e with entryIndex := entryIndex }).goto t (.storeTick entry tick)
  | .storeTick entry tick => (s.store entry fun e => { e with tick := tick }).ret t .void
  | .loadRecorded entry =>
    let (e, s') := s.load entry
    if !e.recorded then s'.ret t (.code (-11)) else s'.goto t (.loadTick entry)
  | .loadTick entry =>
    let (e, s') := s.load entry
    s'.ret t (.code (tickToInt e.tick))
  | .deleting entry =>
    (if frees then { s with heap := s.heap.release entry } else s).ret t .void

/-- What a thread that is in no call does when it calls. -/
def startAt (s : QueryTable) : QueryOp → QueryTable
  | .create t allocates =>
    if allocates then
      { s with heap := (s.heap.alloc ⟨false, 0, 0⟩).2 }.goto t (.linking s.heap.next)
    else s.ret t (.handle 0)
  | .record t handle entryIndex tick =>
    match s.lookupSlot handle with
    | none => s.ret t .void
    | some entry => s.goto t (.storeRecorded entry entryIndex tick)
  | .resolve t handle =>
    match s.lookupSlot handle with
    | none => s.ret t (.code (-22))
    | some entry => s.goto t (.loadRecorded entry)
  | .destroy t handle => s.freeSlot t handle
  | .advance _ => s

end QueryTable

def QueryOp.thread : QueryOp → ℕ
  | .create t _ | .record t .. | .resolve t _ | .destroy t _ | .advance t => t

namespace QueryTable

/-- A thread in a call goes on only. -/
def resume (frees : Bool) (s : QueryTable) (pc : QueryPc) : QueryOp → QueryTable
  | .advance t => s.advanceAt frees t pc
  | _ => s

def step (frees : Bool) (s : QueryTable) (op : QueryOp) : QueryTable :=
  match s.pcs.lookup op.thread with
  | none => s.startAt op
  | some pc => s.resume frees pc op

/-! ### The property -/

/-- Nothing has touched a deleted query, and what a thread looked up is there. -/
def Safe (s : QueryTable) : Prop := BorrowsLive QueryPc.uses s.heap s.pcs

/-- A query is deleted while no other thread has looked it up. -/
def FreesUnused (s : QueryTable) : QueryOp → Prop
  | .advance t => ∀ entry, s.pcs.lookup t = some (.deleting entry) →
      Unused QueryPc.uses s.pcs t entry
  | _ => True

/-- The queries belong to the slots, or to the thread that makes or deletes them. -/
def Owned (s : QueryTable) : Prop :=
  Holdings QueryPc.owns QueryPc.uses s.heap (s.slots.reduceOption : Multiset ℕ) s.pcs

theorem owned_initial : Owned initial := Holdings.empty

/-! ### Steps -/

section Steps

variable {s : QueryTable} {t handle entry : ℕ}

theorem slot_of_lookup (h : s.lookupSlot handle = some entry) :
    s.slots[handle - 1]? = some (some entry) := by
  rw [lookupSlot, slotOf] at h
  split_ifs at h
  · nomatch h
  · exact Option.join_eq_some_iff.mp h

theorem Owned.isSome_of_lookup (h : s.Owned) (hlookup : s.lookupSlot handle = some entry) :
    (s.heap.block entry).isSome = true := by
  refine (h.accounts.block_isSome_iff entry).mpr (Multiset.mem_add.mpr (.inl ?_))
  exact Multiset.mem_coe.mpr
    (List.reduceOption_mem_iff.mpr (List.mem_of_getElem? (slot_of_lookup hlookup)))

/-- A call that returns at once. -/
theorem Owned.ret (h : s.Owned) (hpc : s.pcs.lookup t = none) (r : QueryReturn) :
    (s.ret t r).Owned :=
  h.keep hpc none rfl nofun

/-- A record or a resolve has looked its query up. -/
theorem Owned.goto (h : s.Owned) (hpc : s.pcs.lookup t = none)
    (hlookup : s.lookupSlot handle = some entry) {pc : QueryPc} (hown : pc.owns = none)
    (huse : pc.uses = some entry) : (s.goto t pc).Owned := by
  refine h.keep hpc (some pc) ?_ ?_
  · rw [share, Option.bind_some, hown]
    rfl
  · intro p hp
    rw [Option.bind_some, huse] at hp
    obtain rfl := Option.some.inj hp
    exact h.isSome_of_lookup hlookup

theorem Owned.startAt (h : s.Owned) (op : QueryOp) (hpc : s.pcs.lookup op.thread = none) :
    (s.startAt op).Owned := by
  cases op with
  | create t allocates =>
    cases allocates with
    | false => exact h.ret hpc _
    | true => exact h.alloc hpc (some (.linking s.heap.next)) rfl _ rfl rfl
  | record t handle entryIndex tick =>
    simp only [QueryTable.startAt]
    cases hlookup : s.lookupSlot handle with
    | none => exact h.ret hpc _
    | some entry => exact h.goto hpc hlookup rfl rfl
  | resolve t handle =>
    simp only [QueryTable.startAt]
    cases hlookup : s.lookupSlot handle with
    | none => exact h.ret hpc _
    | some entry => exact h.goto hpc hlookup rfl rfl
  | destroy t handle =>
    simp only [QueryTable.startAt, freeSlot]
    cases hlookup : s.lookupSlot handle with
    | none => exact h.ret hpc _
    | some entry =>
      have hperm := reduceOption_set_taken (slot_of_lookup hlookup)
      have htable : (s.slots.reduceOption : Multiset ℕ) =
          entry ::ₘ ((s.slots.set (handle - 1) none).reduceOption : Multiset ℕ) :=
        Multiset.coe_eq_coe.mpr hperm
      have hheld : Holdings QueryPc.owns QueryPc.uses s.heap
          (entry ::ₘ ((s.slots.set (handle - 1) none).reduceOption : Multiset ℕ)) s.pcs :=
        htable ▸ h
      exact hheld.take hpc (some (.deleting entry)) rfl rfl rfl
  | advance t => exact h

theorem Owned.allocSlot (h : s.Owned) (hpc : s.pcs.lookup t = some (.linking entry)) :
    (s.allocSlot t entry).Owned := by
  rw [QueryTable.allocSlot]
  split
  · rename_i i hfree
    have htable : ((s.slots.set i (some entry)).reduceOption : Multiset ℕ) =
        entry ::ₘ (s.slots.reduceOption : Multiset ℕ) :=
      Multiset.coe_eq_coe.mpr (reduceOption_set_free (getElem?_firstFree hfree) entry)
    have hafter := h.enter hpc none rfl rfl rfl
    rw [← htable] at hafter
    exact hafter
  · have htable : ((s.slots ++ [some entry]).reduceOption : Multiset ℕ) =
        entry ::ₘ (s.slots.reduceOption : Multiset ℕ) :=
      Multiset.coe_eq_coe.mpr (reduceOption_append_slot s.slots entry)
    have hafter := h.enter hpc none rfl rfl rfl
    rw [← htable] at hafter
    exact hafter

theorem access_eq (h : s.Owned) {pc : QueryPc} (hpc : s.pcs.lookup t = some pc)
    (huse : pc.uses = some entry) : s.heap.access entry = s.heap := by
  have hlive := h.live t pc hpc entry huse
  exact h.accounts.access ((h.accounts.block_isSome_iff entry).mp hlive)

theorem Owned.advanceAt (h : s.Owned) {pc : QueryPc} (hpc : s.pcs.lookup t = some pc)
    (hG : s.FreesUnused (.advance t)) : (s.advanceAt true t pc).Owned := by
  cases pc with
  | linking entry => exact h.allocSlot hpc
  | storeRecorded entry entryIndex tick =>
    exact h.write hpc (some (.storeEntryIndex entry entryIndex tick)) rfl rfl
      (fun q hq => (Option.some.inj hq).symm) _
  | storeEntryIndex entry entryIndex tick =>
    exact h.write hpc (some (.storeTick entry tick)) rfl rfl
      (fun q hq => (Option.some.inj hq).symm) _
  | storeTick entry tick => exact h.write hpc none rfl rfl nofun _
  | loadRecorded entry =>
    simp only [QueryTable.advanceAt, load, access_eq h hpc rfl]
    split_ifs
    · exact h.keep hpc none rfl nofun
    · exact h.keep hpc (some (.loadTick entry)) rfl fun p hp => h.live t _ hpc p hp
  | loadTick entry =>
    simp only [QueryTable.advanceAt, load, access_eq h hpc rfl]
    exact h.keep hpc none rfl nofun
  | deleting entry => exact h.release hpc none rfl rfl rfl (hG entry hpc)

theorem Owned.step (h : s.Owned) (op : QueryOp) (hG : s.FreesUnused op) :
    (s.step true op).Owned := by
  rw [QueryTable.step]
  cases hpc : s.pcs.lookup op.thread with
  | none => exact h.startAt op hpc
  | some pc =>
    cases op with
    | advance t => exact h.advanceAt hpc hG
    | create t allocates => exact h
    | record t handle entryIndex tick => exact h
    | resolve t handle => exact h
    | destroy t handle => exact h

/-- A step that leaves every thread with queries that are there meets the condition. -/
theorem freesUnused_of_safe (h : s.Owned) (op : QueryOp) (hsafe : (s.step true op).Safe) :
    s.FreesUnused op := by
  cases op with
  | advance t =>
    intro entry hpc
    have hstep : s.step true (.advance t) =
        { s with heap := s.heap.release entry }.ret t .void := by
      simp only [QueryTable.step, QueryOp.thread, hpc]
      rfl
    rw [hstep] at hsafe
    exact h.unused_of_release hpc none rfl hsafe
  | create t allocates => trivial
  | record t handle entryIndex tick => trivial
  | resolve t handle => trivial
  | destroy t handle => trivial

end Steps

/-! ### Queries that are never deleted -/

/-- The same slots, threads and returns, on a heap where every query that is there is there too. -/
structure Undeleted (s' s : QueryTable) : Prop where
  slots : s'.slots = s.slots
  pcs : s'.pcs = s.pcs
  returns : s'.returns = s.returns
  heap : Outlives s'.heap s.heap

section Undeleted

variable {s s' : QueryTable} {t entry : ℕ}

theorem Undeleted.goto (h : Undeleted s' s) (t : ℕ) (pc : QueryPc) :
    Undeleted (s'.goto t pc) (s.goto t pc) :=
  { h with pcs := congrArg (setPc · t (some pc)) h.pcs }

theorem Undeleted.ret (h : Undeleted s' s) (t : ℕ) (r : QueryReturn) :
    Undeleted (s'.ret t r) (s.ret t r) :=
  { h with
    pcs := congrArg (setPc · t none) h.pcs
    returns := congrArg ((t, r) :: ·) h.returns }

theorem Undeleted.setSlots (h : Undeleted s' s) (slots : List (Option ℕ)) :
    Undeleted { s' with slots := slots } { s with slots := slots } :=
  { h with slots := rfl }

theorem Undeleted.lookupSlot (h : Undeleted s' s) (handle : ℕ) :
    s'.lookupSlot handle = s.lookupSlot handle := by
  rw [QueryTable.lookupSlot, QueryTable.lookupSlot, slotOf, slotOf, h.slots]

theorem Undeleted.startAt (h : Undeleted s' s) (op : QueryOp) :
    Undeleted (s'.startAt op) (s.startAt op) := by
  cases op with
  | create t allocates =>
    cases allocates with
    | false => exact h.ret t _
    | true =>
      have hafter : Undeleted { s' with heap := (s'.heap.alloc ⟨false, 0, 0⟩).2 }
          { s with heap := (s.heap.alloc ⟨false, 0, 0⟩).2 } := { h with heap := h.heap.alloc _ }
      show Undeleted ({ s' with heap := (s'.heap.alloc ⟨false, 0, 0⟩).2 }.goto t
        (.linking s'.heap.next)) _
      rw [h.heap.next]
      exact hafter.goto t (.linking s.heap.next)
  | record t handle entryIndex tick =>
    simp only [QueryTable.startAt, h.lookupSlot]
    cases s.lookupSlot handle with
    | none => exact h.ret t _
    | some entry => exact h.goto t _
  | resolve t handle =>
    simp only [QueryTable.startAt, h.lookupSlot]
    cases s.lookupSlot handle with
    | none => exact h.ret t _
    | some entry => exact h.goto t _
  | destroy t handle =>
    simp only [QueryTable.startAt, freeSlot, h.lookupSlot, h.slots]
    cases s.lookupSlot handle with
    | none => exact h.ret t _
    | some entry => exact (h.setSlots _).goto t _
  | advance t => exact h

theorem Undeleted.allocSlot (h : Undeleted s' s) (t entry : ℕ) :
    Undeleted (s'.allocSlot t entry) (s.allocSlot t entry) := by
  simp only [QueryTable.allocSlot, h.slots]
  cases firstFree s.slots with
  | none => exact (h.setSlots _).ret t _
  | some i => exact (h.setSlots _).ret t _

/-- What the threads do next.  They read the same contents, since what they use is there. -/
theorem Undeleted.advanceAt (h : Undeleted s' s) {pc : QueryPc}
    (hlive : ∀ entry ∈ pc.uses, (s.heap.block entry).isSome = true) (t : ℕ) :
    Undeleted (s'.advanceAt false t pc) (s.advanceAt true t pc) := by
  have hstore {entry : ℕ} (he : (s.heap.block entry).isSome = true)
      (f : TimestampQueryEntry → TimestampQueryEntry) :
      Undeleted (s'.store entry f) (s.store entry f) := { h with heap := h.heap.write he f }
  have hload (entry : ℕ) : Undeleted (s'.load entry).2 (s.load entry).2 :=
    { h with heap := h.heap.access entry }
  have hread {entry : ℕ} (he : (s.heap.block entry).isSome = true) :
      (s'.load entry).1 = (s.load entry).1 := by
    rw [load, load, h.heap.read entry he]
  cases pc with
  | linking entry => exact h.allocSlot t entry
  | storeRecorded entry entryIndex tick => exact (hstore (hlive entry rfl) _).goto t _
  | storeEntryIndex entry entryIndex tick => exact (hstore (hlive entry rfl) _).goto t _
  | storeTick entry tick => exact (hstore (hlive entry rfl) _).ret t _
  | loadRecorded entry =>
    simp only [QueryTable.advanceAt, hread (hlive entry rfl)]
    split_ifs
    · exact (hload entry).ret t _
    · exact (hload entry).goto t _
  | loadTick entry =>
    simp only [QueryTable.advanceAt, hread (hlive entry rfl)]
    exact (hload entry).ret t _
  | deleting entry =>
    have hafter : Undeleted s' { s with heap := s.heap.release entry } :=
      { h with heap := h.heap.release }
    exact hafter.ret t .void

theorem Undeleted.step (h : Undeleted s' s) (hsafe : s.Safe) (op : QueryOp) :
    Undeleted (s'.step false op) (s.step true op) := by
  rw [QueryTable.step, QueryTable.step, h.pcs]
  cases hpc : s.pcs.lookup op.thread with
  | none => exact h.startAt op
  | some pc =>
    cases op with
    | advance t => exact h.advanceAt (hsafe.live t pc hpc) t
    | create t allocates => exact h
    | record t handle entryIndex tick => exact h
    | resolve t handle => exact h
    | destroy t handle => exact h

end Undeleted

/-! ### Runs -/

theorem undeleted_run {s s' : QueryTable} (hs : s.Owned) (h : Undeleted s' s) {ops : List QueryOp}
    (hG : Guarded (step true) FreesUnused s ops) :
    Undeleted (run (step false) s' ops) (run (step true) s ops) := by
  induction ops generalizing s s' with
  | nil => exact h
  | cons op ops ih => exact ih (hs.step op hG.1) (h.step hs.borrowsLive op) hG.2

end QueryTable

open QueryTable

/-- **Timestamp queries.**  No thread is ever left with a deleted query in hand exactly when no
destroy deletes a query that another thread has looked up and not let go; then every call returns
what it returns if queries are never deleted. -/
theorem timestampQueries_safe_iff (ops : List QueryOp) :
    (Always (step true) Safe initial ops ↔ Guarded (step true) FreesUnused initial ops) ∧
      (Guarded (step true) FreesUnused initial ops →
        (run (step true) initial ops).returns = (run (step false) initial ops).returns) := by
  constructor
  · exact always_iff_guarded (fun s op hs hG => hs.step op hG) (fun s hs => hs.borrowsLive)
      (fun s op hs hsafe => freesUnused_of_safe hs op hsafe) ops owned_initial
  · intro hG
    have hinitial : Undeleted initial initial := ⟨rfl, rfl, rfl, Outlives.refl _⟩
    exact (undeleted_run owned_initial hinitial hG).returns.symm

/-- A destroyed handle may name the query of another thread. -/
example :
    ((run (step true) initial
      [.create 0 true, .advance 0, .destroy 0 1, .advance 0, .create 1 true, .advance 1,
        .destroy 0 1]).pcs.lookup 0) = some (.deleting 1) := by decide

end UsrLinuxEmu.GpuDriver
