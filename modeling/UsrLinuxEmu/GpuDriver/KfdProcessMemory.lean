import Mathlib.Data.List.Find
import UsrLinuxEmu.GpuDriver.KfdProcess
import UsrLinuxEmu.Kernel.ListHead
import UsrLinuxEmu.Transition.Simulation

/-!
# The memory of the process table (`drv/kfd/kfd_process.c`)

The process list as it lies in memory: a static head, and an entry, a process and a VMA tracker for
each creation.  A use of a block that is not allocated has no result, and neither has a loop that
does not end.

* `KfdProcessMemory` — the blocks, with `kfdProcessInit` … `kfdProcessFindByPid`;
* `MemoryHolds` — what is allocated, and what is in it;
* `TableRefines` — the memory represents a process table;
* `kfdProcessMemory_refines` — along every run it does, with the replies of the table; blocks stay
  behind where the list's head is reset, and nowhere else.
-/

namespace UsrLinuxEmu.GpuDriver

open UsrLinuxEmu.Graph UsrLinuxEmu.Kernel UsrLinuxEmu.Transition

/-! ### Blocks -/

/-- The fields of a `kfd_process` that the file sets. -/
structure KfdProcessFields where
  pid : Int
  pasid : ℕ
  mmShim : Option ℕ
  deriving DecidableEq, Repr

/-- What `malloc` answers in `kfd_process_create`. -/
structure KfdProcessBlocks where
  entry : Option ℕ
  process : Option ℕ
  shim : Option ℕ
  deriving DecidableEq, Repr

/-- The static variables and the blocks of each kind.  `entries` counts the allocated entries: a
walk over more nodes than these does not end. -/
structure KfdProcessMemory where
  links : LinkMemory ℕ
  entryProcess : ℕ → Option ℕ
  process : ℕ → Option KfdProcessFields
  shim : ℕ → Bool
  entries : ℕ
  processesCount : Int
  initialized : Bool
  pasid : PasidState

def processesHead : ℕ := 0

/-- The error number and what `*out` gets. -/
abbrev KfdReply := Int × Option ℕ

namespace KfdProcessMemory

/-- `LIST_HEAD(processes_head)`. -/
def boot : KfdProcessMemory where
  links := Function.update (fun _ => none) processesHead (some ⟨processesHead, processesHead⟩)
  entryProcess := fun _ => none
  process := fun _ => none
  shim := fun _ => false
  entries := 0
  processesCount := 0
  initialized := false
  pasid := .boot

/-- A block of `malloc` is none that is in use. -/
def freshEntry (s : KfdProcessMemory) (entry : Option ℕ) : Option ℕ :=
  entry.filter fun a => (s.links a).isNone && (s.entryProcess a).isNone

def freshProcess (s : KfdProcessMemory) (process : Option ℕ) : Option ℕ :=
  process.filter fun a => (s.process a).isNone

def freshShim (s : KfdProcessMemory) (shim : Option ℕ) : Option ℕ :=
  shim.filter fun a => !s.shim a

/-- What a new entry has in it is overwritten before it is read. -/
def mallocEntry (s : KfdProcessMemory) (e : ℕ) : KfdProcessMemory :=
  { s with
    links := Function.update s.links e (some ⟨0, 0⟩)
    entryProcess := Function.update s.entryProcess e (some 0)
    entries := s.entries + 1 }

def freeEntry (s : KfdProcessMemory) (e : ℕ) : Option KfdProcessMemory :=
  if (s.entryProcess e).isSome then
    some { s with
      links := Function.update s.links e none
      entryProcess := Function.update s.entryProcess e none
      entries := s.entries - 1 }
  else none

def setProcess (s : KfdProcessMemory) (p : ℕ) (fields : KfdProcessFields) : KfdProcessMemory :=
  { s with process := Function.update s.process p (some fields) }

def freeProcess (s : KfdProcessMemory) (p : ℕ) : Option KfdProcessMemory :=
  if (s.process p).isSome then some { s with process := Function.update s.process p none } else none

def mallocShim (s : KfdProcessMemory) (shim : ℕ) : KfdProcessMemory :=
  { s with shim := Function.update s.shim shim true }

/-- `free` of the null pointer does nothing. -/
def freeShim (s : KfdProcessMemory) : Option ℕ → Option KfdProcessMemory
  | none => some s
  | some shim =>
    if s.shim shim then some { s with shim := Function.update s.shim shim false } else none

/-! ### The functions -/

def kfdProcessInit (s : KfdProcessMemory) : Option KfdProcessMemory :=
  if !s.initialized then do
    let links ← initListHead s.links processesHead
    return { s with links := links, processesCount := 0, initialized := true }
  else some s

/-- The end of `kfd_process_destroy`, and of the body of the loop of `kfd_process_exit`. -/
def releaseProcess (s : KfdProcessMemory) (entry p : ℕ) : Option KfdProcessMemory := do
  let links ← listDel s.links entry
  let s := { s with links := links, processesCount := s.processesCount - 1 }
  let fields ← s.process p
  let s := { s with pasid := (s.pasid.kfdFreePasid fields.pasid).2 }
  let s ← s.freeShim fields.mmShim
  let s ← s.freeProcess p
  s.freeEntry entry

/-- The loop of `kfd_process_exit`, which pops the list's head. -/
def destroyAll : ℕ → KfdProcessMemory → Option KfdProcessMemory
  | 0, _ => none
  | fuel + 1, s => do
    if ← listEmpty s.links processesHead then return s
    let entry ← s.links.next processesHead
    let p ← s.entryProcess entry
    let s ← s.releaseProcess entry p
    destroyAll fuel s

def kfdProcessExit (s : KfdProcessMemory) : Option KfdProcessMemory :=
  if !s.initialized then some s
  else do
    let s ← destroyAll (s.entries + 1) s
    return { s with initialized := false }

/-- The loops over the list. -/
def findEntry (s : KfdProcessMemory) (test : ℕ → Option Bool) : Option (Option ℕ) := do
  listFind s.links processesHead test (s.entries + 1) (← s.links.next processesHead)

/-- `iter->process->pid == pid`. -/
def hasPid (s : KfdProcessMemory) (pid : Int) (iter : ℕ) : Option Bool := do
  let fields ← s.process (← s.entryProcess iter)
  return decide (fields.pid = pid)

/-- `iter->process == p`. -/
def isEntryOf (s : KfdProcessMemory) (p iter : ℕ) : Option Bool := do
  return decide ((← s.entryProcess iter) = p)

/-- From the allocated entry and process on. -/
def setUpProcess (s : KfdProcessMemory) (entry p : ℕ) (pid : Int) (shim : Option ℕ) :
    Option (KfdReply × KfdProcessMemory) :=
  match s.pasid.kfdAllocatePasid with
  | (.error err, pasid) => do
    let s ← { s with pasid := pasid }.freeProcess p
    let s ← s.freeEntry entry
    return ((err, none), s)
  | (.ok idx, pasid) =>
    let s := { s with pasid := pasid }.setProcess p ⟨pid, idx, none⟩
    match s.freshShim shim with
    | none => do
      let s ← { s with pasid := (s.pasid.kfdFreePasid idx).2 }.freeProcess p
      let s ← s.freeEntry entry
      return ((kfdEnomem, none), s)
    | some shim => do
      let s := (s.mallocShim shim).setProcess p ⟨pid, idx, some shim⟩
      let links ← initListHead s.links entry
      let links ← listAdd links entry processesHead
      return ((0, some p), { s with
        links := links
        entryProcess := Function.update s.entryProcess entry (some p)
        processesCount := s.processesCount + 1 })

def kfdProcessCreate (s : KfdProcessMemory) (pid : Int) (mem : KfdProcessBlocks) :
    Option (KfdReply × KfdProcessMemory) := do
  match ← s.findEntry (s.hasPid pid) with
  | some _ => return ((kfdEbusy, none), s)
  | none =>
    match s.freshEntry mem.entry with
    | none => return ((kfdEnomem, none), s)
    | some entry =>
      let s := s.mallocEntry entry
      match s.freshProcess mem.process with
      | none => do
        let s ← s.freeEntry entry
        return ((kfdEnomem, none), s)
      | some p => (s.setProcess p ⟨pid, 0, none⟩).setUpProcess entry p pid mem.shim

/-- `none` is the null pointer. -/
def kfdProcessDestroy (s : KfdProcessMemory) (p : Option ℕ) :
    Option (KfdReply × KfdProcessMemory) :=
  match p with
  | none => some ((kfdEinval, none), s)
  | some p => do
    match ← s.findEntry (s.isEntryOf p) with
    | none => return ((kfdEnoent, none), s)
    | some entry => return ((0, none), ← s.releaseProcess entry p)

def kfdProcessFindByPid (s : KfdProcessMemory) (pid : Int) : Option KfdReply := do
  match ← s.findEntry (s.hasPid pid) with
  | some iter => return (0, some (← s.entryProcess iter))
  | none => return (kfdEnoent, none)

end KfdProcessMemory

/-! ### Calls -/

inductive KfdMemoryCall where
  | processInit
  | processExit
  | create (pid : Int) (mem : KfdProcessBlocks)
  | destroy (p : Option ℕ)
  | findByPid (pid : Int)
  | pasidInit
  | pasidExit
  deriving DecidableEq, Repr

namespace KfdProcessMemory

def call (s : KfdProcessMemory) : KfdMemoryCall → Option (KfdReply × KfdProcessMemory)
  | .processInit => return ((0, none), ← s.kfdProcessInit)
  | .processExit => return ((0, none), ← s.kfdProcessExit)
  | .create pid mem => s.kfdProcessCreate pid mem
  | .destroy p => s.kfdProcessDestroy p
  | .findByPid pid => return (← s.kfdProcessFindByPid pid, s)
  | .pasidInit => some ((0, none), { s with pasid := s.pasid.kfdPasidInit })
  | .pasidExit => some ((0, none), { s with pasid := s.pasid.kfdPasidExit })

/-- The call as the table sees it. -/
def tableCall (s : KfdProcessMemory) : KfdMemoryCall → KfdCall
  | .processInit => .processInit
  | .processExit => .processExit
  | .create pid mem => .create pid ⟨(s.freshEntry mem.entry).isSome, s.freshProcess mem.process,
      (s.freshShim mem.shim).isSome⟩
  | .destroy p => .destroy p
  | .findByPid pid => .findByPid pid
  | .pasidInit => .pasidInit
  | .pasidExit => .pasidExit

end KfdProcessMemory

/-- The replies so far and the memory. -/
def kfdMemoryStep (x : Option (List KfdReply × KfdProcessMemory)) (c : KfdMemoryCall) :
    Option (List KfdReply × KfdProcessMemory) := do
  let (replies, s) ← x
  let (reply, s) ← s.call c
  return (replies ++ [reply], s)

def kfdTableCalls (x : Option (List KfdReply × KfdProcessMemory)) (c : KfdMemoryCall) :
    List KfdCall :=
  match x with
  | none => []
  | some (_, s) => [s.tableCall c]

def replyOf : Except Int ℕ → KfdReply
  | .ok addr => (0, some addr)
  | .error err => (err, none)

def KfdTable.reply (s : KfdTable) : KfdCall → KfdReply
  | .create pid mem => replyOf (s.kfdProcessCreate pid mem).1
  | .destroy p => ((s.kfdProcessDestroy p).1, none)
  | .findByPid pid => replyOf (s.kfdProcessFindByPid pid)
  | _ => (0, none)

/-- The replies so far, and the processes that were listed as the head was reset. -/
structure KfdTableHistory where
  replies : List KfdReply
  lost : List KfdProcess

def KfdTableHistory.note (h : KfdTableHistory) (s : KfdTable) (c : KfdCall) : KfdTableHistory where
  replies := h.replies ++ [s.reply c]
  lost :=
    match c with
    | .processInit => if !s.initialized then s.processes ++ h.lost else h.lost
    | _ => h.lost

abbrev watchedTable : KfdTableHistory × KfdTable → KfdCall → KfdTableHistory × KfdTable :=
  observed KfdTable.step KfdTableHistory.note

/-! ### What the memory holds -/

/-- What a creation has allocated. -/
structure KfdBlocks where
  entry : ℕ
  process : KfdProcess
  shim : ℕ

def KfdBlocks.addr (b : KfdBlocks) : ℕ := b.process.addr

/-- These blocks are allocated, each once and with its contents, and no others. -/
structure MemoryHolds (s : KfdProcessMemory) (blocks : List KfdBlocks) : Prop where
  entries : (blocks.map KfdBlocks.entry).Nodup
  addrs : (blocks.map KfdBlocks.addr).Nodup
  shims : (blocks.map KfdBlocks.shim).Nodup
  head : processesHead ∉ blocks.map KfdBlocks.entry
  contents : ∀ b ∈ blocks, s.entryProcess b.entry = some b.addr ∧
    s.process b.addr = some ⟨b.process.pid, b.process.pasid, some b.shim⟩ ∧ s.shim b.shim = true
  entryOnly : ∀ a, (s.entryProcess a).isSome = true → a ∈ blocks.map KfdBlocks.entry
  linksOnly : ∀ a, (s.links a).isSome = true ↔
    a = processesHead ∨ a ∈ blocks.map KfdBlocks.entry
  processOnly : ∀ a, (s.process a).isSome = true → a ∈ blocks.map KfdBlocks.addr
  shimOnly : ∀ a, s.shim a = true → a ∈ blocks.map KfdBlocks.shim
  counted : s.entries = blocks.length

namespace MemoryHolds

variable {s s' : KfdProcessMemory} {b : KfdBlocks} {blocks blocks' : List KfdBlocks}

theorem boot : MemoryHolds .boot [] where
  entries := List.nodup_nil
  addrs := List.nodup_nil
  shims := List.nodup_nil
  head := List.not_mem_nil
  contents := fun _ hb => absurd hb List.not_mem_nil
  entryOnly := fun _ ha => nomatch ha
  linksOnly := by
    intro a
    by_cases ha : a = processesHead
    · refine iff_of_true ?_ (.inl ha)
      rw [ha]
      rfl
    · refine iff_of_false (fun hsome => ?_) (not_or.mpr ⟨ha, List.not_mem_nil⟩)
      rw [KfdProcessMemory.boot] at hsome
      simp only [Function.update_of_ne ha] at hsome
      cases hsome
  processOnly := fun _ ha => nomatch ha
  shimOnly := fun _ ha => nomatch ha
  counted := rfl

theorem perm (hperm : blocks.Perm blocks') (h : MemoryHolds s blocks) : MemoryHolds s blocks' where
  entries := (hperm.map _).nodup_iff.mp h.entries
  addrs := (hperm.map _).nodup_iff.mp h.addrs
  shims := (hperm.map _).nodup_iff.mp h.shims
  head := fun hmem => h.head ((hperm.map _).mem_iff.mpr hmem)
  contents := fun b hb => h.contents b (hperm.mem_iff.mpr hb)
  entryOnly := fun a ha => (hperm.map _).mem_iff.mp (h.entryOnly a ha)
  linksOnly := fun a => (h.linksOnly a).trans (or_congr_right (hperm.map _).mem_iff)
  processOnly := fun a ha => (hperm.map _).mem_iff.mp (h.processOnly a ha)
  shimOnly := fun a ha => (hperm.map _).mem_iff.mp (h.shimOnly a ha)
  counted := h.counted.trans hperm.length_eq

/-- The pointers and the variables do not matter. -/
theorem congr (h : MemoryHolds s blocks) (hlinks : ∀ a, (s'.links a).isSome = (s.links a).isSome)
    (hentry : s'.entryProcess = s.entryProcess) (hprocess : s'.process = s.process)
    (hshim : s'.shim = s.shim) (hentries : s'.entries = s.entries) : MemoryHolds s' blocks where
  entries := h.entries
  addrs := h.addrs
  shims := h.shims
  head := h.head
  contents := by
    rw [hentry, hprocess, hshim]
    exact h.contents
  entryOnly := by
    rw [hentry]
    exact h.entryOnly
  linksOnly := fun a => by
    rw [hlinks]
    exact h.linksOnly a
  processOnly := by
    rw [hprocess]
    exact h.processOnly
  shimOnly := by
    rw [hshim]
    exact h.shimOnly
  counted := hentries.trans h.counted

/-- The blocks of a creation are freed. -/
theorem free (h : MemoryHolds s (b :: blocks)) :
    ∃ s', ((s.freeShim (some b.shim)).bind fun s => (s.freeProcess b.addr).bind fun s =>
        s.freeEntry b.entry) = some s' ∧ MemoryHolds s' blocks ∧
      s'.links = Function.update s.links b.entry none ∧ s'.processesCount = s.processesCount ∧
      s'.initialized = s.initialized ∧ s'.pasid = s.pasid := by
  obtain ⟨hentry, hprocess, hshim⟩ := h.contents b List.mem_cons_self
  have hentrySome : (s.entryProcess b.entry).isSome = true := by
    rw [hentry]
    rfl
  have hprocessSome : (s.process b.addr).isSome = true := by
    rw [hprocess]
    rfl
  obtain ⟨hbentry, hentries⟩ := List.nodup_cons.mp h.entries
  obtain ⟨hbaddr, haddrs⟩ := List.nodup_cons.mp h.addrs
  obtain ⟨hbshim, hshims⟩ := List.nodup_cons.mp h.shims
  refine ⟨{ s with
    links := Function.update s.links b.entry none
    entryProcess := Function.update s.entryProcess b.entry none
    process := Function.update s.process b.addr none
    shim := Function.update s.shim b.shim false
    entries := s.entries - 1 }, ?_, ?_, rfl, rfl, rfl, rfl⟩
  · rw [KfdProcessMemory.freeShim, if_pos hshim, Option.bind_some, KfdProcessMemory.freeProcess,
      if_pos hprocessSome, Option.bind_some, KfdProcessMemory.freeEntry,
      if_pos hentrySome]
  · refine ⟨hentries, haddrs, hshims, fun hmem => h.head (List.mem_cons_of_mem _ hmem), ?_, ?_, ?_,
      ?_, ?_, ?_⟩
    · intro c hc
      have hne : c.entry ≠ b.entry := fun he => hbentry (he ▸ List.mem_map_of_mem hc)
      have hneAddr : c.addr ≠ b.addr := fun he => hbaddr (he ▸ List.mem_map_of_mem hc)
      have hneShim : c.shim ≠ b.shim := fun he => hbshim (he ▸ List.mem_map_of_mem hc)
      show Function.update s.entryProcess b.entry none c.entry = _ ∧
        Function.update s.process b.addr none c.addr = _ ∧
        Function.update s.shim b.shim false c.shim = true
      rw [Function.update_of_ne hne, Function.update_of_ne hneAddr, Function.update_of_ne hneShim]
      exact h.contents c (List.mem_cons_of_mem b hc)
    · intro a ha
      have hne : a ≠ b.entry := by
        intro he
        rw [he] at ha
        simp only [Function.update_self] at ha
        cases ha
      simp only [Function.update_of_ne hne] at ha
      exact (List.mem_cons.mp (h.entryOnly a ha)).resolve_left hne
    · intro a
      by_cases ha : a = b.entry
      · rw [ha]
        refine iff_of_false ?_ (not_or.mpr ⟨fun he => ?_, hbentry⟩)
        · simp only [Function.update_self]
          exact Bool.false_ne_true
        · exact h.head (he ▸ List.mem_cons_self)
      · simp only [Function.update_of_ne ha]
        refine (h.linksOnly a).trans (or_congr_right ?_)
        exact List.mem_cons.trans (or_iff_right ha)
    · intro a ha
      have hne : a ≠ b.addr := by
        intro he
        rw [he] at ha
        simp only [Function.update_self] at ha
        cases ha
      simp only [Function.update_of_ne hne] at ha
      exact (List.mem_cons.mp (h.processOnly a ha)).resolve_left hne
    · intro a ha
      have hne : a ≠ b.shim := by
        intro he
        rw [he] at ha
        simp only [Function.update_self] at ha
        cases ha
      simp only [Function.update_of_ne hne] at ha
      exact (List.mem_cons.mp (h.shimOnly a ha)).resolve_left hne
    · have hcounted := h.counted
      rw [List.length_cons] at hcounted
      show s.entries - 1 = blocks.length
      omega

/-- The blocks of a creation are allocated and written. -/
theorem alloc (h : MemoryHolds s blocks) (hlinks : (s.links b.entry).isSome = false)
    (hprocess : (s.process b.addr).isSome = false) (hshim : s.shim b.shim = false)
    (hlinks' : ∀ a, (s'.links a).isSome = true ↔ a = b.entry ∨ (s.links a).isSome = true)
    (hentry' : s'.entryProcess = Function.update s.entryProcess b.entry (some b.addr))
    (hprocess' : s'.process = Function.update s.process b.addr
      (some ⟨b.process.pid, b.process.pasid, some b.shim⟩))
    (hshim' : s'.shim = Function.update s.shim b.shim true)
    (hentries' : s'.entries = s.entries + 1) : MemoryHolds s' (b :: blocks) := by
  have hnotLinks := (h.linksOnly b.entry).not.mp (ne_true_of_eq_false hlinks)
  obtain ⟨hhead, hentryNew⟩ := not_or.mp hnotLinks
  have haddrNew : b.addr ∉ blocks.map KfdBlocks.addr := by
    intro hmem
    obtain ⟨c, hc, heq⟩ := List.mem_map.mp hmem
    have hsome := (h.contents c hc).2.1
    rw [heq] at hsome
    rw [hsome] at hprocess
    cases hprocess
  have hshimNew : b.shim ∉ blocks.map KfdBlocks.shim := by
    intro hmem
    obtain ⟨c, hc, heq⟩ := List.mem_map.mp hmem
    have hsome := (h.contents c hc).2.2
    rw [heq, hshim] at hsome
    cases hsome
  refine ⟨List.nodup_cons.mpr ⟨hentryNew, h.entries⟩, List.nodup_cons.mpr ⟨haddrNew, h.addrs⟩,
    List.nodup_cons.mpr ⟨hshimNew, h.shims⟩, ?_, ?_, ?_, ?_, ?_, ?_, ?_⟩
  · intro hmem
    rcases List.mem_cons.mp hmem with heq | hmem
    · exact hhead heq.symm
    · exact h.head hmem
  · intro c hc
    rw [hentry', hprocess', hshim']
    rcases List.mem_cons.mp hc with rfl | hc
    · rw [Function.update_self, Function.update_self, Function.update_self]
      exact ⟨rfl, rfl, rfl⟩
    · have hne : c.entry ≠ b.entry := fun he => hentryNew (he ▸ List.mem_map_of_mem hc)
      have hneAddr : c.addr ≠ b.addr := fun he => haddrNew (he ▸ List.mem_map_of_mem hc)
      have hneShim : c.shim ≠ b.shim := fun he => hshimNew (he ▸ List.mem_map_of_mem hc)
      rw [Function.update_of_ne hne, Function.update_of_ne hneAddr, Function.update_of_ne hneShim]
      exact h.contents c hc
  · intro a ha
    by_cases hne : a = b.entry
    · exact List.mem_cons.mpr (.inl hne)
    · rw [hentry', Function.update_of_ne hne] at ha
      exact List.mem_cons_of_mem _ (h.entryOnly a ha)
  · intro a
    rw [hlinks', h.linksOnly, List.map_cons, List.mem_cons]
    exact or_left_comm
  · intro a ha
    by_cases hne : a = b.addr
    · exact List.mem_cons.mpr (.inl hne)
    · rw [hprocess', Function.update_of_ne hne] at ha
      exact List.mem_cons_of_mem _ (h.processOnly a ha)
  · intro a ha
    by_cases hne : a = b.shim
    · exact List.mem_cons.mpr (.inl hne)
    · rw [hshim', Function.update_of_ne hne] at ha
      exact List.mem_cons_of_mem _ (h.shimOnly a ha)
  · rw [hentries', h.counted, List.length_cons]

end MemoryHolds

/-! ### The memory represents a table -/

/-- The ring of the list's head has the entries of the listed processes in it, and `lost` are the
blocks that no list leads to. -/
structure TableRefines (listed lost : List KfdBlocks) (s : KfdProcessMemory) (t : KfdTable) :
    Prop where
  holds : MemoryHolds s (listed ++ lost)
  ring : Ring s.links.next s.links.prev processesHead (listed.map KfdBlocks.entry)
  processes : t.processes = listed.map KfdBlocks.process
  count : t.processesCount = s.processesCount
  initialized : t.initialized = s.initialized
  pasid : t.pasid = s.pasid

namespace TableRefines

variable {s : KfdProcessMemory} {t : KfdTable} {b : KfdBlocks} {listed lost pre post : List KfdBlocks}

theorem boot : TableRefines [] [] .boot .boot where
  holds := MemoryHolds.boot
  ring := Ring.single rfl rfl
  processes := rfl
  count := rfl
  initialized := rfl
  pasid := rfl

theorem addr_unique (h : TableRefines (pre ++ b :: post) lost s t) {c : KfdBlocks}
    (hc : c ∈ pre) : c.addr ≠ b.addr := by
  have hnodup := h.holds.addrs
  rw [List.append_assoc, List.map_append, List.cons_append, List.map_cons] at hnodup
  intro heq
  obtain ⟨_, _, hdisj⟩ := List.nodup_append'.mp hnodup
  exact hdisj (List.mem_map_of_mem hc) (heq ▸ List.mem_cons_self)

/-- A listed process is released. -/
theorem release (h : TableRefines (pre ++ b :: post) lost s t) :
    ∃ s', s.releaseProcess b.entry b.addr = some s' ∧
      TableRefines (pre ++ post) lost s' { t with
        processes := (pre ++ post).map KfdBlocks.process
        processesCount := t.processesCount - 1
        pasid := (t.pasid.kfdFreePasid b.process.pasid).2 } ∧ s'.entries < s.entries := by
  have hring := h.ring
  rw [List.map_append, List.map_cons] at hring
  obtain ⟨m, hm, hringDel, hsome, _⟩ := ring_listDel hring
  obtain ⟨_, hprocess, _⟩ :=
    h.holds.contents b (List.mem_append_left lost (List.mem_append_right pre List.mem_cons_self))
  have hperm : (pre ++ b :: post ++ lost).Perm (b :: (pre ++ post ++ lost)) :=
    List.perm_middle.append_right lost
  have hholds : MemoryHolds { s with
      links := m
      processesCount := s.processesCount - 1
      pasid := (s.pasid.kfdFreePasid b.process.pasid).2 } (b :: (pre ++ post ++ lost)) :=
    (h.holds.perm hperm).congr hsome rfl rfl rfl rfl
  obtain ⟨s', hs', hholds', hlinks, hcount, hinit, hpasid⟩ := hholds.free
  refine ⟨s', ?_, ⟨hholds', ?_, rfl, ?_, ?_, ?_⟩, ?_⟩
  · simp only [KfdProcessMemory.releaseProcess, hm, hprocess, Option.bind_eq_bind,
      Option.bind_some]
    exact hs'
  · rw [hlinks, List.map_append]
    have hother : ∀ y ∈ processesHead :: (pre.map KfdBlocks.entry ++ post.map KfdBlocks.entry),
        y ≠ b.entry := by
      intro y hy heq
      have hnodup : (processesHead :: (pre.map KfdBlocks.entry ++
          b.entry :: post.map KfdBlocks.entry)).Nodup := hring.nodup
      have hperm : (processesHead :: pre.map KfdBlocks.entry ++
          b.entry :: post.map KfdBlocks.entry).Perm (b.entry ::
            (processesHead :: pre.map KfdBlocks.entry ++ post.map KfdBlocks.entry)) :=
        List.perm_middle
      have hmiddle := hperm.nodup_iff.mp hnodup
      exact (List.nodup_cons.mp hmiddle).1 (heq ▸ hy)
    refine hringDel.congr (fun y hy => ?_) fun y hy => ?_
    · exact congrArg (Option.map Links.next) (Function.update_of_ne (hother y hy) _ _)
    · exact congrArg (Option.map Links.prev) (Function.update_of_ne (hother y hy) _ _)
  · rw [hcount, h.count]
  · exact h.initialized.trans hinit.symm
  · rw [hpasid, h.pasid]
  · rw [hholds'.counted, h.holds.counted, hperm.length_eq]
    exact Nat.lt_succ_self _

/-- The loops find the first listed process that passes. -/
theorem findEntry_eq (h : TableRefines listed lost s t) {test : ℕ → Option Bool}
    {passes : KfdBlocks → Bool} (htest : ∀ b ∈ listed, test b.entry = some (passes b)) :
    s.findEntry test = some ((listed.find? passes).map KfdBlocks.entry) := by
  have hfuel : (listed.map KfdBlocks.entry).length < s.entries + 1 := by
    rw [List.length_map, h.holds.counted, List.length_append]
    omega
  have hseq : ∀ e ∈ listed.map KfdBlocks.entry, test e = some ((test e).getD false) := by
    intro e he
    obtain ⟨b, hb, rfl⟩ := List.mem_map.mp he
    rw [htest b hb]
    rfl
  have hfind := listFind_ring h.ring hseq hfuel
  refine hfind.trans (congrArg some ?_)
  rw [List.find?_map]
  refine congrArg (Option.map KfdBlocks.entry) (List.find?_congr fun b hb => ?_)
  show (test b.entry).getD false = passes b
  rw [htest b hb]
  rfl

theorem hasPid_eq (h : TableRefines listed lost s t) (pid : Int) :
    ∀ b ∈ listed, s.hasPid pid b.entry = some (decide (b.process.pid = pid)) := by
  intro b hb
  obtain ⟨hentry, hprocess, _⟩ := h.holds.contents b (List.mem_append_left lost hb)
  simp only [KfdProcessMemory.hasPid, hentry, hprocess, Option.bind_eq_bind, Option.bind_some]
  rfl

theorem isEntryOf_eq (h : TableRefines listed lost s t) (p : ℕ) :
    ∀ b ∈ listed, s.isEntryOf p b.entry = some (decide (b.process.addr = p)) := by
  intro b hb
  obtain ⟨hentry, _, _⟩ := h.holds.contents b (List.mem_append_left lost hb)
  simp only [KfdProcessMemory.isEntryOf, hentry, Option.bind_eq_bind, Option.bind_some]
  rfl

end TableRefines

/-! ### One call -/

namespace KfdProcessMemory

variable {s : KfdProcessMemory}

theorem freeEntry_mallocEntry {e : ℕ} (hlinks : (s.links e).isNone = true)
    (hentry : (s.entryProcess e).isNone = true) : (s.mallocEntry e).freeEntry e = some s := by
  have hsome : ((s.mallocEntry e).entryProcess e).isSome = true := by
    show (Function.update s.entryProcess e (some 0) e).isSome = true
    rw [Function.update_self]
    rfl
  rw [freeEntry, if_pos hsome, mallocEntry]
  simp only [Function.update_idem]
  rw [← Option.isNone_iff_eq_none.mp hlinks, ← Option.isNone_iff_eq_none.mp hentry,
    Function.update_eq_self, Function.update_eq_self]
  rfl

theorem freeProcess_setProcess {p : ℕ} (hp : (s.process p).isNone = true)
    (fields : KfdProcessFields) : (s.setProcess p fields).freeProcess p = some s := by
  have hsome : ((s.setProcess p fields).process p).isSome = true := by
    show (Function.update s.process p (some fields) p).isSome = true
    rw [Function.update_self]
    rfl
  rw [freeProcess, if_pos hsome, setProcess]
  simp only [Function.update_idem]
  rw [← Option.isNone_iff_eq_none.mp hp, Function.update_eq_self]

theorem setProcess_setProcess (p : ℕ) (f g : KfdProcessFields) :
    (s.setProcess p f).setProcess p g = s.setProcess p g := by
  rw [setProcess, setProcess, setProcess]
  simp only [Function.update_idem]

end KfdProcessMemory

namespace TableRefines

variable {s : KfdProcessMemory} {t : KfdTable} {listed lost : List KfdBlocks}

/-- The list is reset: what it led to is lost. -/
theorem init (h : TableRefines listed lost s t) :
    ∃ s', s.kfdProcessInit = some s' ∧
      TableRefines (if !t.initialized then [] else listed)
        (if !t.initialized then listed ++ lost else lost) s' t.kfdProcessInit := by
  rw [KfdProcessMemory.kfdProcessInit, KfdTable.kfdProcessInit, h.initialized]
  by_cases hinit : (!s.initialized) = true
  · rw [if_pos hinit, if_pos hinit, if_pos hinit, if_pos hinit]
    have hhead : (s.links processesHead).isSome = true := (h.holds.linksOnly _).mpr (.inl rfl)
    obtain ⟨m, hm, hring, hsome, _⟩ := ring_initListHead hhead
    refine ⟨{ s with links := m, processesCount := 0, initialized := true }, ?_,
      h.holds.congr hsome rfl rfl rfl rfl, hring, rfl, rfl, rfl, h.pasid⟩
    simp only [hm, Option.bind_eq_bind, Option.bind_some]
    rfl
  · rw [if_neg hinit, if_neg hinit, if_neg hinit, if_neg hinit]
    exact ⟨s, rfl, h⟩

theorem destroyAll (h : TableRefines listed lost s t) {fuel : ℕ} (hfuel : listed.length < fuel) :
    ∃ s', KfdProcessMemory.destroyAll fuel s = some s' ∧
      TableRefines [] lost s' (KfdTable.destroyAll t.processes t) := by
  induction listed generalizing s t fuel with
  | nil =>
    obtain ⟨fuel, rfl⟩ : ∃ n, fuel = n + 1 := ⟨fuel - 1, by omega⟩
    refine ⟨s, ?_, ?_⟩
    · rw [KfdProcessMemory.destroyAll, listEmpty_ring h.ring]
      rfl
    · rw [h.processes]
      exact h
  | cons b rest ih =>
    rw [List.length_cons] at hfuel
    obtain ⟨fuel, rfl⟩ : ∃ n, fuel = n + 1 := ⟨fuel - 1, by omega⟩
    have hfirst : TableRefines ([] ++ b :: rest) lost s t := h
    obtain ⟨s', hs', hrefines, _⟩ := hfirst.release
    obtain ⟨s'', hs'', hdone⟩ := ih hrefines (Nat.lt_of_succ_lt_succ hfuel)
    have hnext : s.links.next processesHead = some b.entry := h.ring.linked.1.1
    have hentry := (h.holds.contents b List.mem_cons_self).1
    refine ⟨s'', ?_, ?_⟩
    · rw [KfdProcessMemory.destroyAll, listEmpty_ring h.ring]
      simp only [hnext, hentry, hs', Option.bind_eq_bind, Option.bind_some]
      exact hs''
    · rw [h.processes]
      exact hdone

theorem exit (h : TableRefines listed lost s t) :
    ∃ s', s.kfdProcessExit = some s' ∧
      TableRefines (if !t.initialized then listed else []) lost s' t.kfdProcessExit := by
  rw [KfdProcessMemory.kfdProcessExit, KfdTable.kfdProcessExit, h.initialized]
  by_cases hinit : (!s.initialized) = true
  · rw [if_pos hinit, if_pos hinit, if_pos hinit]
    exact ⟨s, rfl, h⟩
  · rw [if_neg hinit, if_neg hinit, if_neg hinit]
    have hfuel : listed.length < s.entries + 1 := by
      rw [h.holds.counted, List.length_append]
      omega
    obtain ⟨s', hs', hdone⟩ := h.destroyAll hfuel
    refine ⟨{ s' with initialized := false }, ?_,
      hdone.holds.congr (fun _ => rfl) rfl rfl rfl rfl, hdone.ring, hdone.processes, hdone.count,
      rfl, hdone.pasid⟩
    simp only [hs', Option.bind_eq_bind, Option.bind_some]
    rfl

theorem destroy (h : TableRefines listed lost s t) (p : Option ℕ) :
    ∃ s', s.kfdProcessDestroy p = some (((t.kfdProcessDestroy p).1, none), s') ∧
      ∃ listed', TableRefines listed' lost s' (t.kfdProcessDestroy p).2 := by
  cases p with
  | none => exact ⟨s, rfl, listed, h⟩
  | some p =>
    have hfind := h.findEntry_eq (h.isEntryOf_eq p)
    have hfindTable : t.processes.find? (fun q => q.addr = p) =
        (listed.find? fun b => decide (b.process.addr = p)).map KfdBlocks.process := by
      rw [h.processes, List.find?_map]
      rfl
    rw [KfdProcessMemory.kfdProcessDestroy, KfdTable.kfdProcessDestroy]
    rw [hfind, hfindTable]
    cases hb : listed.find? fun b => decide (b.process.addr = p) with
    | none => exact ⟨s, rfl, listed, h⟩
    | some b =>
      obtain ⟨hp, pre, post, rfl, _⟩ := List.find?_eq_some_iff_append.mp hb
      have hp : b.addr = p := of_decide_eq_true hp
      obtain ⟨s', hs', hdone, _⟩ := h.release
      rw [hp] at hs'
      refine ⟨s', ?_, pre ++ post, ?_⟩
      · simp only [Option.map_some, hs', Option.bind_eq_bind, Option.bind_some]
        rfl
      · have herase : t.processes.erase b.process = (pre ++ post).map KfdBlocks.process := by
          rw [h.processes, List.map_append, List.map_cons, List.erase_append_right,
            List.erase_cons_head, List.map_append]
          intro hmem
          obtain ⟨c, hc, heq⟩ := List.mem_map.mp hmem
          exact h.addr_unique hc (congrArg KfdProcess.addr heq)
        show TableRefines (pre ++ post) lost s' { t with
          processes := t.processes.erase b.process
          processesCount := t.processesCount - 1
          pasid := (t.pasid.kfdFreePasid b.process.pasid).2 }
        rw [herase]
        exact hdone

theorem findByPid (h : TableRefines listed lost s t) (pid : Int) :
    s.kfdProcessFindByPid pid = some (t.reply (.findByPid pid)) := by
  have hfind := h.findEntry_eq (h.hasPid_eq pid)
  have hfindTable : t.processes.find? (fun q => q.pid = pid) =
      (listed.find? fun b => decide (b.process.pid = pid)).map KfdBlocks.process := by
    rw [h.processes, List.find?_map]
    rfl
  rw [KfdProcessMemory.kfdProcessFindByPid, KfdTable.reply, KfdTable.kfdProcessFindByPid, hfind,
    hfindTable]
  cases hb : listed.find? fun b => decide (b.process.pid = pid) with
  | none => rfl
  | some b =>
    have hmem := List.mem_append_left lost (List.mem_of_find?_eq_some hb)
    have hentry := (h.holds.contents b hmem).1
    simp only [Option.map_some, hentry, Option.bind_eq_bind, Option.bind_some]
    rfl

end TableRefines

namespace TableRefines

variable {s : KfdProcessMemory} {t : KfdTable} {listed lost : List KfdBlocks}

theorem withPasid (h : TableRefines listed lost s t) (pasid : PasidState) :
    TableRefines listed lost { s with pasid := pasid } { t with pasid := pasid } where
  holds := h.holds.congr (fun _ => rfl) rfl rfl rfl rfl
  ring := h.ring
  processes := h.processes
  count := h.count
  initialized := h.initialized
  pasid := rfl

/-- The blocks of a creation are written and linked in. -/
theorem wire (h : TableRefines listed lost s t) {b : KfdBlocks}
    (hlinks : (s.links b.entry).isNone = true) (hprocess : (s.process b.addr).isNone = true)
    (hshim : s.shim b.shim = false) (pasid : PasidState) :
    ∃ m m', initListHead (s.mallocEntry b.entry).links b.entry = some m ∧
      listAdd m b.entry processesHead = some m' ∧
      TableRefines (b :: listed) lost { ((s.mallocEntry b.entry).mallocShim b.shim).setProcess b.addr
          ⟨b.process.pid, b.process.pasid, some b.shim⟩ with
        links := m'
        entryProcess := Function.update (s.mallocEntry b.entry).entryProcess b.entry (some b.addr)
        processesCount := s.processesCount + 1
        pasid := pasid }
        { t with
          processes := b.process :: t.processes
          processesCount := t.processesCount + 1
          pasid := pasid } := by
  have hlinksFalse : (s.links b.entry).isSome = false := by
    rw [Option.isNone_iff_eq_none.mp hlinks]
    rfl
  have hprocessFalse : (s.process b.addr).isSome = false := by
    rw [Option.isNone_iff_eq_none.mp hprocess]
    rfl
  obtain ⟨hhead, hnew⟩ := not_or.mp ((h.holds.linksOnly b.entry).not.mp
    (ne_true_of_eq_false hlinksFalse))
  have hnewRing : b.entry ∉ processesHead :: listed.map KfdBlocks.entry := by
    intro hmem
    rcases List.mem_cons.mp hmem with heq | hmem
    · exact hhead heq
    · refine hnew ?_
      rw [List.map_append]
      exact List.mem_append_left _ hmem
  have hmalloc : ∀ c, ((s.mallocEntry b.entry).links c).isSome = true ↔
      c = b.entry ∨ (s.links c).isSome = true := by
    intro c
    show (Function.update s.links b.entry (some ⟨0, 0⟩) c).isSome = true ↔ _
    by_cases hc : c = b.entry
    · rw [hc, Function.update_self]
      exact iff_of_true rfl (.inl rfl)
    · rw [Function.update_of_ne hc, or_iff_right hc]
  obtain ⟨m, hm, _, hsome, hother⟩ := ring_initListHead ((hmalloc b.entry).mpr (.inl rfl))
  have hkeep : ∀ y ∈ processesHead :: listed.map KfdBlocks.entry,
      m.next y = s.links.next y ∧ m.prev y = s.links.prev y := by
    intro y hy
    have hne : y ≠ b.entry := fun heq => hnewRing (heq ▸ hy)
    have hold : (s.mallocEntry b.entry).links y = s.links y := Function.update_of_ne hne _ _
    rw [(hother y hne).1, (hother y hne).2]
    exact ⟨congrArg (Option.map Links.next) hold, congrArg (Option.map Links.prev) hold⟩
  have hring : Ring m.next m.prev processesHead (listed.map KfdBlocks.entry) :=
    h.ring.congr (fun y hy => (hkeep y hy).1) fun y hy => (hkeep y hy).2
  have hentrySome : (m b.entry).isSome = true := by
    rw [hsome]
    exact (hmalloc b.entry).mpr (.inl rfl)
  obtain ⟨m', hm', hring', hsome', _⟩ := ring_listAdd hring hnewRing hentrySome
  refine ⟨m, m', hm, hm', ⟨?_, hring', ?_, ?_, h.initialized, rfl⟩⟩
  · refine h.holds.alloc hlinksFalse hprocessFalse hshim (fun a => ?_) ?_ rfl rfl rfl
    · show (m' a).isSome = true ↔ _
      rw [hsome', hsome]
      exact hmalloc a
    · exact Function.update_idem ..
  · rw [h.processes, List.map_cons]
  · rw [h.count]

/-- A block that is not in use is none of a listed process. -/
theorem fresh_eq (h : TableRefines listed lost s t) {p : ℕ} (hp : (s.process p).isNone = true) :
    t.fresh (some p) = some p := by
  rw [KfdTable.fresh, Option.filter_some, if_pos]
  refine List.all_eq_true.mpr fun q hq => decide_eq_true fun heq => ?_
  rw [h.processes] at hq
  obtain ⟨b, hb, rfl⟩ := List.mem_map.mp hq
  obtain ⟨_, hprocess, _⟩ := h.holds.contents b (List.mem_append_left lost hb)
  rw [show b.addr = p from heq, Option.isNone_iff_eq_none.mp hp] at hprocess
  cases hprocess

/-- The table's side of a creation that has its entry and its process. -/
def tableSetUp (t : KfdTable) (p : ℕ) (pid : Int) (shim : Bool) : Except Int ℕ × KfdTable :=
  match t.pasid.kfdAllocatePasid with
  | (.error err, pasid) => (.error err, { t with pasid := pasid })
  | (.ok idx, pasid) =>
    if !shim then (.error kfdEnomem, { t with pasid := (pasid.kfdFreePasid idx).2 })
    else (.ok p, { t with
      processes := ⟨p, pid, idx⟩ :: t.processes
      processesCount := t.processesCount + 1
      pasid := pasid })

theorem setUp (h : TableRefines listed lost s t) {entry p : ℕ}
    (hlinks : (s.links entry).isNone = true) (hentry : (s.entryProcess entry).isNone = true)
    (hp : (s.process p).isNone = true) (pid : Int) (shim : Option ℕ) :
    ∃ s', ((s.mallocEntry entry).setProcess p ⟨pid, 0, none⟩).setUpProcess entry p pid shim =
        some (replyOf (tableSetUp t p pid (s.freshShim shim).isSome).1, s') ∧
      ∃ listed', TableRefines listed' lost s'
        (tableSetUp t p pid (s.freshShim shim).isSome).2 := by
  rw [KfdProcessMemory.setUpProcess, tableSetUp]
  rw [show ((s.mallocEntry entry).setProcess p ⟨pid, 0, none⟩).pasid = t.pasid from h.pasid.symm]
  rcases t.pasid.kfdAllocatePasid with ⟨result, pasid⟩
  -- Both blocks go back on the two error paths, and only the PASID allocator has changed.
  have hback : ∀ (pasid : PasidState) (fields : KfdProcessFields) (reply : KfdReply),
      (do
        let s ← ((({ s with pasid := pasid } : KfdProcessMemory).mallocEntry entry).setProcess p
          fields).freeProcess p
        let s ← s.freeEntry entry
        return (reply, s) : Option (KfdReply × KfdProcessMemory)) =
        some (reply, { s with pasid := pasid }) := by
    intro pasid fields reply
    have hprocess : ((({ s with pasid := pasid } : KfdProcessMemory).mallocEntry entry).process
        p).isNone = true := hp
    have hfreeEntry := KfdProcessMemory.freeEntry_mallocEntry
      (s := { s with pasid := pasid }) hlinks hentry
    simp only [KfdProcessMemory.freeProcess_setProcess hprocess, hfreeEntry, Option.bind_eq_bind,
      Option.bind_some]
    rfl
  cases result with
  | error err =>
    exact ⟨{ s with pasid := pasid }, hback pasid _ _, listed, h.withPasid pasid⟩
  | ok idx =>
    have htwice : ({ ((s.mallocEntry entry).setProcess p ⟨pid, 0, none⟩) with pasid := pasid } :
        KfdProcessMemory).setProcess p ⟨pid, idx, none⟩ =
        (({ s with pasid := pasid } : KfdProcessMemory).mallocEntry entry).setProcess p
          ⟨pid, idx, none⟩ :=
      KfdProcessMemory.setProcess_setProcess (s := { s.mallocEntry entry with pasid := pasid }) p
        _ _
    dsimp only
    rw [htwice, show ((({ s with pasid := pasid } : KfdProcessMemory).mallocEntry entry).setProcess
      p ⟨pid, idx, none⟩).freshShim shim = s.freshShim shim from rfl]
    cases hshim : s.freshShim shim with
    | none =>
      exact ⟨{ s with pasid := (pasid.kfdFreePasid idx).2 },
        hback (pasid.kfdFreePasid idx).2 ⟨pid, idx, none⟩ (kfdEnomem, none), listed,
        h.withPasid _⟩
    | some a =>
      obtain ⟨_, ha⟩ := Option.filter_eq_some_iff.mp hshim
      obtain ⟨m, m', hm, hm', hdone⟩ := TableRefines.wire h (b := ⟨entry, ⟨p, pid, idx⟩, a⟩)
        hlinks hp ((Bool.not_eq_true' _).mp ha) pasid
      refine ⟨_, ?_, _, hdone⟩
      have hlast : ((((({ s with pasid := pasid } : KfdProcessMemory).mallocEntry entry).setProcess
          p ⟨pid, idx, none⟩).mallocShim a).setProcess p ⟨pid, idx, some a⟩).process =
          (((s.mallocEntry entry).mallocShim a).setProcess p ⟨pid, idx, some a⟩).process :=
        Function.update_idem ..
      show (initListHead (s.mallocEntry entry).links entry).bind _ = _
      rw [hm, Option.bind_some]
      show (listAdd m entry processesHead).bind _ = _
      rw [hm', Option.bind_some]
      dsimp only
      rw [hlast]
      rfl

theorem create (h : TableRefines listed lost s t) (pid : Int) (mem : KfdProcessBlocks) :
    ∃ s', s.kfdProcessCreate pid mem = some (t.reply (s.tableCall (.create pid mem)), s') ∧
      ∃ listed', TableRefines listed' lost s' (t.step (s.tableCall (.create pid mem))) := by
  have hfind := h.findEntry_eq (h.hasPid_eq pid)
  have hany : t.processes.any (fun q => q.pid = pid) =
      (listed.find? fun b => decide (b.process.pid = pid)).isSome := by
    rw [h.processes, List.any_map, List.isSome_find?]
    rfl
  rw [KfdProcessMemory.tableCall, KfdTable.step, KfdTable.reply, KfdTable.kfdProcessCreate, hany,
    KfdProcessMemory.kfdProcessCreate, hfind]
  cases hb : listed.find? fun b => decide (b.process.pid = pid) with
  | some b => exact ⟨s, rfl, listed, h⟩
  | none =>
    cases hentry : s.freshEntry mem.entry with
    | none => exact ⟨s, rfl, listed, h⟩
    | some entry =>
      obtain ⟨_, hfreshEntry⟩ := Option.filter_eq_some_iff.mp hentry
      obtain ⟨hlinks, hentryProcess⟩ := Bool.and_eq_true_iff.mp hfreshEntry
      have hfreeEntry := KfdProcessMemory.freeEntry_mallocEntry hlinks hentryProcess
      cases hprocess : s.freshProcess mem.process with
      | none =>
        have hprocess' : (s.mallocEntry entry).freshProcess mem.process = none := hprocess
        refine ⟨s, ?_, listed, h⟩
        simp only [Option.map_none, hprocess', hfreeEntry, Option.bind_eq_bind, Option.bind_some]
        rfl
      | some p =>
        have hprocess' : (s.mallocEntry entry).freshProcess mem.process = some p := hprocess
        obtain ⟨_, hp⟩ := Option.filter_eq_some_iff.mp hprocess
        obtain ⟨s', hs', listed', hdone⟩ := h.setUp hlinks hentryProcess hp pid mem.shim
        simp only [Option.isSome_some, h.fresh_eq hp]
        refine ⟨s', ?_, listed', hdone⟩
        simp only [Option.map_none, hprocess', Option.bind_eq_bind, Option.bind_some]
        exact hs'

end TableRefines

/-! ### Runs -/

/-- The memory is there, has given the replies of the table and represents it; its other blocks are
those of the lost processes. -/
def KfdRefines : Option (List KfdReply × KfdProcessMemory) → KfdTableHistory × KfdTable → Prop
  | none, _ => False
  | some (replies, s), (h, t) => replies = h.replies ∧
    ∃ listed lost, h.lost = lost.map KfdBlocks.process ∧ TableRefines listed lost s t

theorem kfdRefines_step (x : Option (List KfdReply × KfdProcessMemory))
    (y : KfdTableHistory × KfdTable) (c : KfdMemoryCall) (hxy : KfdRefines x y) :
    KfdRefines (kfdMemoryStep x c) (run watchedTable y (kfdTableCalls x c)) := by
  obtain ⟨history, t⟩ := y
  cases x with
  | none => exact hxy.elim
  | some x =>
    obtain ⟨replies, s⟩ := x
    obtain ⟨hreplies, listed, lost, hlost, h⟩ := hxy
    -- What a call has to show: its reply, and how the listed and the lost processes go on.
    have hcall : ∀ (s' : KfdProcessMemory) (listed' lost' : List KfdBlocks),
        s.call c = some (t.reply (s.tableCall c), s') →
        (history.note t (s.tableCall c)).lost = lost'.map KfdBlocks.process →
        TableRefines listed' lost' s' (t.step (s.tableCall c)) →
        KfdRefines (kfdMemoryStep (some (replies, s)) c)
          (run watchedTable (history, t) (kfdTableCalls (some (replies, s)) c)) := by
      intro s' listed' lost' hs' hlost' h'
      have hstep : kfdMemoryStep (some (replies, s)) c =
          some (replies ++ [t.reply (s.tableCall c)], s') := by
        simp only [kfdMemoryStep, hs', Option.bind_eq_bind, Option.bind_some]
        rfl
      rw [hstep]
      exact ⟨congrArg (· ++ _) hreplies, listed', lost', hlost', h'⟩
    cases c with
    | processInit =>
      obtain ⟨s', hs', h'⟩ := h.init
      refine hcall s' _ _ ?_ ?_ h'
      · simp only [KfdProcessMemory.call, hs', Option.bind_eq_bind, Option.bind_some]
        rfl
      · show (if (!t.initialized) = true then t.processes ++ history.lost else history.lost) = _
        rw [h.processes, hlost]
        split_ifs
        · exact List.map_append.symm
        · rfl
    | processExit =>
      obtain ⟨s', hs', h'⟩ := h.exit
      refine hcall s' _ _ ?_ hlost h'
      simp only [KfdProcessMemory.call, hs', Option.bind_eq_bind, Option.bind_some]
      rfl
    | create pid mem =>
      obtain ⟨s', hs', listed', h'⟩ := h.create pid mem
      exact hcall s' _ _ hs' hlost h'
    | destroy p =>
      obtain ⟨s', hs', listed', h'⟩ := h.destroy p
      exact hcall s' _ _ hs' hlost h'
    | findByPid pid =>
      refine hcall s _ _ ?_ hlost h
      simp only [KfdProcessMemory.call, h.findByPid pid, Option.bind_eq_bind, Option.bind_some]
      rfl
    | pasidInit =>
      have h' := h.withPasid s.pasid.kfdPasidInit
      refine hcall { s with pasid := s.pasid.kfdPasidInit } listed lost rfl hlost ?_
      show TableRefines listed lost _ { t with pasid := t.pasid.kfdPasidInit }
      rw [h.pasid]
      exact h'
    | pasidExit =>
      have h' := h.withPasid s.pasid.kfdPasidExit
      refine hcall { s with pasid := s.pasid.kfdPasidExit } listed lost rfl hlost ?_
      show TableRefines listed lost _ { t with pasid := t.pasid.kfdPasidExit }
      rw [h.pasid]
      exact h'

/-- Along every run the lists and blocks in memory represent the table: every loop ends, no block
is used that is not allocated, the replies are those of the table, and the blocks that no list
leads to are those of the processes that were listed when the list's head was reset. -/
theorem kfdProcessMemory_refines (calls : List KfdMemoryCall) :
    KfdRefines (run kfdMemoryStep (some ([], .boot)) calls)
      (run watchedTable (⟨[], []⟩, .boot)
        (companions kfdMemoryStep kfdTableCalls (some ([], .boot)) calls)) :=
  companions_simulate (G := fun _ _ => True) (fun x y c hxy _ => kfdRefines_step x y c hxy)
    ⟨rfl, [], [], rfl, TableRefines.boot⟩ (guarded_trivial ..)

end UsrLinuxEmu.GpuDriver
