import Mathlib.Data.List.Nodup
import Mathlib.Logic.Function.Basic
import UsrLinuxEmu.Transition.Run

/-!
# KFD processes and their PASIDs (`drv/kfd/kfd_process.c`, `drv/kfd/kfd_pasid.c`)

The process list, its counter and its flag are kept by one file, the PASID bitmap with its hint and
its two flags by another; either can be initialised and torn down at any time.

* `PasidState` — the bitmap allocator, and `PasidState.Allocated`, what its bits mean;
* `KfdTable` — the process list over it, with `kfdProcessInit` … `kfdProcessFindByPid`;
* `KfdTableLaw`, `CreateLaw` — the coupling of the two, and what a failed creation leaves;
* `kfd_table_iff` — the runs that keep to it: no reset of the list's head and no teardown of the
  allocator while processes are listed.
-/

namespace UsrLinuxEmu.GpuDriver

open UsrLinuxEmu.Transition

def kfdEnoent : Int := -2
def kfdEnomem : Int := -12
def kfdEbusy : Int := -16
def kfdEinval : Int := -22
def kfdEnospc : Int := -28

/-! ### The PASID allocator -/

def maxPasid : ℕ := 0xFFFF

/-- `BITMAP_BITS`. -/
def pasidBits : ℕ := maxPasid + 1

/-- The static variables of `kfd_pasid.c`. -/
structure PasidState where
  bitmap : ℕ → Bool
  initialized : Bool
  exited : Bool
  count : Int
  nextFreeHint : ℕ

namespace PasidState

/-- The variables as the program starts. -/
def boot : PasidState := ⟨fun _ => false, false, false, 0, 1⟩

def lazyInit (s : PasidState) : PasidState :=
  if s.exited then s
  else if !s.initialized then
    { s with
      bitmap := Function.update (fun _ => false) 0 true
      count := 0
      nextFreeHint := 1
      initialized := true }
  else s

def kfdPasidInit (s : PasidState) : PasidState := lazyInit { s with exited := false }

/-- The bitmap keeps its bits. -/
def kfdPasidExit (s : PasidState) : PasidState :=
  { s with initialized := false, exited := true, count := 0, nextFreeHint := 1 }

/-- The loop of `kfd_allocate_pasid`: `probes` more positions from `hint` on. -/
def scanPasid (bitmap : ℕ → Bool) : ℕ → ℕ → Option ℕ
  | 0, _ => none
  | probes + 1, hint =>
    let idx := if hint > maxPasid then 1 else hint
    let idx := if idx = 0 then 1 else idx
    if !bitmap idx then some idx
    else scanPasid bitmap probes (if hint + 1 > maxPasid then 1 else hint + 1)

def kfdAllocatePasid (s : PasidState) : Except Int ℕ × PasidState :=
  let s := s.lazyInit
  if s.exited then (.error kfdEnospc, s)
  else match scanPasid s.bitmap pasidBits s.nextFreeHint with
    | some idx => (.ok idx, { s with
        bitmap := Function.update s.bitmap idx true
        count := s.count + 1
        nextFreeHint := if idx + 1 > maxPasid then 1 else idx + 1 })
    | none => (.error kfdEnospc, s)

def kfdFreePasid (s : PasidState) (pasid : ℕ) : Int × PasidState :=
  if pasid = 0 ∨ pasid > maxPasid then (kfdEinval, s)
  else if s.initialized = false ∨ s.bitmap pasid = false then (kfdEinval, s)
  else (0, { s with
    bitmap := Function.update s.bitmap pasid false
    count := s.count - 1
    nextFreeHint := if pasid < s.nextFreeHint then pasid else s.nextFreeHint })

/-- The allocator is initialised and the bit is set, as `kfd_free_pasid` tests it. -/
def Allocated (s : PasidState) (pasid : ℕ) : Prop :=
  s.initialized = true ∧ s.bitmap pasid = true ∧ 1 ≤ pasid ∧ pasid ≤ maxPasid

theorem not_allocated_boot (pasid : ℕ) : ¬boot.Allocated pasid := fun h => by cases h.1

theorem not_allocated_exit (s : PasidState) (pasid : ℕ) : ¬s.kfdPasidExit.Allocated pasid :=
  fun h => by cases h.1

theorem allocated_lazyInit (s : PasidState) (pasid : ℕ) :
    s.lazyInit.Allocated pasid ↔ s.Allocated pasid := by
  unfold lazyInit
  by_cases hexited : s.exited = true
  · rw [if_pos hexited]
  · rw [if_neg hexited]
    cases hinit : s.initialized with
    | true => rfl
    | false =>
      refine iff_of_false (fun h => ?_) (fun h => ?_)
      · obtain ⟨-, hbit, hpos, -⟩ := h
        have hupdate : Function.update (fun _ => false) 0 true pasid = true := hbit
        rw [Function.update_of_ne (by omega)] at hupdate
        cases hupdate
      · rw [h.1] at hinit
        cases hinit

theorem allocated_kfdPasidInit (s : PasidState) (pasid : ℕ) :
    s.kfdPasidInit.Allocated pasid ↔ s.Allocated pasid :=
  allocated_lazyInit { s with exited := false } pasid

/-- The scan returns a clear bit of the range. -/
theorem scanPasid_spec {bitmap : ℕ → Bool} {probes hint idx : ℕ}
    (h : scanPasid bitmap probes hint = some idx) :
    bitmap idx = false ∧ 1 ≤ idx ∧ idx ≤ maxPasid := by
  induction probes generalizing hint with
  | zero => cases h
  | succ probes ih =>
    rw [scanPasid] at h
    by_cases hclear : (!bitmap (if (if hint > maxPasid then 1 else hint) = 0 then 1
        else if hint > maxPasid then 1 else hint)) = true
    · simp only [if_pos hclear, Option.some.injEq] at h
      rw [h] at hclear
      refine ⟨by simpa using hclear, ?_⟩
      rw [← h]
      unfold maxPasid
      split_ifs <;> omega
    · simp only [if_neg hclear] at h
      exact ih h

theorem kfdAllocatePasid_spec (s : PasidState) :
    (∃ err, s.kfdAllocatePasid.1 = .error err ∧
      ∀ q, s.kfdAllocatePasid.2.Allocated q ↔ s.Allocated q) ∨
      ∃ idx, s.kfdAllocatePasid.1 = .ok idx ∧ ¬s.Allocated idx ∧ 1 ≤ idx ∧ idx ≤ maxPasid ∧
        ∀ q, s.kfdAllocatePasid.2.Allocated q ↔ q = idx ∨ s.Allocated q := by
  unfold kfdAllocatePasid
  by_cases hexited : s.lazyInit.exited = true
  · left
    rw [if_pos hexited]
    exact ⟨kfdEnospc, rfl, allocated_lazyInit s⟩
  · rw [if_neg hexited]
    cases hscan : scanPasid s.lazyInit.bitmap pasidBits s.lazyInit.nextFreeHint with
    | none => exact .inl ⟨kfdEnospc, rfl, allocated_lazyInit s⟩
    | some idx =>
      right
      obtain ⟨hclear, hpos, hle⟩ := scanPasid_spec hscan
      have hinit : s.lazyInit.initialized = true := by
        revert hexited
        unfold lazyInit
        cases hi : s.initialized <;> cases he : s.exited <;> simp [hi, he]
      refine ⟨idx, rfl, fun hidx => ?_, hpos, hle, fun q => ?_⟩
      · rw [← allocated_lazyInit] at hidx
        rw [hidx.2.1] at hclear
        cases hclear
      · rw [← allocated_lazyInit s q]
        by_cases hq : q = idx
        · refine iff_of_true ⟨hinit, ?_, hq ▸ hpos, hq ▸ hle⟩ (.inl hq)
          rw [hq]
          exact Function.update_self ..
        · rw [or_iff_right hq]
          simp only [Allocated, Function.update_of_ne hq]

theorem allocated_kfdFreePasid (s : PasidState) (pasid q : ℕ) :
    (s.kfdFreePasid pasid).2.Allocated q ↔ s.Allocated q ∧ q ≠ pasid := by
  unfold kfdFreePasid
  by_cases hrange : pasid = 0 ∨ pasid > maxPasid
  · rw [if_pos hrange, iff_self_and]
    rintro ⟨-, -, hpos, hle⟩ rfl
    omega
  · rw [if_neg hrange]
    by_cases hfree : s.initialized = false ∨ s.bitmap pasid = false
    · rw [if_pos hfree, iff_self_and]
      rintro ⟨hinit, hbit, -⟩ rfl
      rcases hfree with h | h
      · rw [hinit] at h
        cases h
      · rw [hbit] at h
        cases h
    · rw [if_neg hfree]
      by_cases hq : q = pasid
      · refine iff_of_false (fun h => ?_) (fun h => h.2 hq)
        have hbit := h.2.1
        rw [hq] at hbit
        simp only [Function.update_self] at hbit
        cases hbit
      · simp only [Allocated, Function.update_of_ne hq, and_iff_left hq]

end PasidState

/-! ### The process table -/

/-- The fields of `kfd_process` that the table reads, with its address. -/
structure KfdProcess where
  addr : ℕ
  pid : Int
  pasid : ℕ
  deriving DecidableEq, Repr

/-- The static variables of `kfd_process.c` over those of `kfd_pasid.c`. -/
structure KfdTable where
  processes : List KfdProcess
  processesCount : Int
  initialized : Bool
  pasid : PasidState

/-- What `malloc` answers in `kfd_process_create`. -/
structure CreateMem where
  entry : Bool
  process : Option ℕ
  shim : Bool
  deriving DecidableEq, Repr

namespace KfdTable

def boot : KfdTable := ⟨[], 0, false, .boot⟩

def kfdProcessInit (s : KfdTable) : KfdTable :=
  if !s.initialized then { s with processes := [], processesCount := 0, initialized := true } else s

/-- The loop of `kfd_process_exit`, which pops the list's head. -/
def destroyAll : List KfdProcess → KfdTable → KfdTable
  | [], s => s
  | p :: rest, s => destroyAll rest { s with
      processes := rest
      processesCount := s.processesCount - 1
      pasid := (s.pasid.kfdFreePasid p.pasid).2 }

def kfdProcessExit (s : KfdTable) : KfdTable :=
  if !s.initialized then s else { destroyAll s.processes s with initialized := false }

/-- A block of `malloc` is none that is in use. -/
def fresh (s : KfdTable) (addr : Option ℕ) : Option ℕ :=
  addr.filter fun a => s.processes.all fun p => p.addr ≠ a

/-- With a non-null `out`, which gets the address. -/
def kfdProcessCreate (s : KfdTable) (pid : Int) (mem : CreateMem) : Except Int ℕ × KfdTable :=
  if s.processes.any (fun p => p.pid = pid) then (.error kfdEbusy, s)
  else if !mem.entry then (.error kfdEnomem, s)
  else match s.fresh mem.process with
    | none => (.error kfdEnomem, s)
    | some addr =>
      match s.pasid.kfdAllocatePasid with
      | (.error err, pasid) => (.error err, { s with pasid := pasid })
      | (.ok idx, pasid) =>
        if !mem.shim then (.error kfdEnomem, { s with pasid := (pasid.kfdFreePasid idx).2 })
        else (.ok addr, { s with
          processes := ⟨addr, pid, idx⟩ :: s.processes
          processesCount := s.processesCount + 1
          pasid := pasid })

/-- `none` is the null pointer. -/
def kfdProcessDestroy (s : KfdTable) (p : Option ℕ) : Int × KfdTable :=
  match p with
  | none => (kfdEinval, s)
  | some addr =>
    match s.processes.find? fun p => p.addr = addr with
    | none => (kfdEnoent, s)
    | some p => (0, { s with
        processes := s.processes.erase p
        processesCount := s.processesCount - 1
        pasid := (s.pasid.kfdFreePasid p.pasid).2 })

def kfdProcessFindByPid (s : KfdTable) (pid : Int) : Except Int ℕ :=
  match s.processes.find? fun p => p.pid = pid with
  | some p => .ok p.addr
  | none => .error kfdEnoent

def kfdProcessCount (s : KfdTable) : Int := s.processesCount

end KfdTable

inductive KfdCall where
  | processInit
  | processExit
  | create (pid : Int) (mem : CreateMem)
  | destroy (p : Option ℕ)
  | findByPid (pid : Int)
  | pasidInit
  | pasidExit
  deriving DecidableEq, Repr

def KfdTable.step (s : KfdTable) : KfdCall → KfdTable
  | .processInit => s.kfdProcessInit
  | .processExit => s.kfdProcessExit
  | .create pid mem => (s.kfdProcessCreate pid mem).2
  | .destroy p => (s.kfdProcessDestroy p).2
  | .findByPid _ => s
  | .pasidInit => { s with pasid := s.pasid.kfdPasidInit }
  | .pasidExit => { s with pasid := s.pasid.kfdPasidExit }

/-! ### The law -/

structure KfdTableLaw (s : KfdTable) : Prop where
  pids : (s.processes.map KfdProcess.pid).Nodup
  pasids : (s.processes.map KfdProcess.pasid).Nodup
  range : ∀ p ∈ s.processes, 1 ≤ p.pasid ∧ p.pasid ≤ maxPasid
  allocated : ∀ q, s.pasid.Allocated q ↔ q ∈ s.processes.map KfdProcess.pasid
  count : s.kfdProcessCount = s.processes.length
  find : ∀ pid, (s.kfdProcessFindByPid pid).isOk = true ↔ pid ∈ s.processes.map KfdProcess.pid

/-- A failed creation leaves the list, the counter and the allocated PASIDs. -/
def CreateLaw (s : KfdTable) : KfdCall → Prop
  | .create pid mem => (s.kfdProcessCreate pid mem).1.isOk = false →
      (s.kfdProcessCreate pid mem).2.processes = s.processes ∧
        (s.kfdProcessCreate pid mem).2.kfdProcessCount = s.kfdProcessCount ∧
        ∀ q, (s.kfdProcessCreate pid mem).2.pasid.Allocated q ↔ s.pasid.Allocated q
  | _ => True

/-- The list is not reset and the allocator not torn down while processes are listed. -/
def resetsEmptyTable (s : KfdTable) : KfdCall → Prop
  | .processInit => s.initialized = false → s.processes = []
  | .pasidExit => s.processes = []
  | _ => True

/-! ### One step -/

namespace KfdTable

theorem find_isOk_iff (s : KfdTable) (pid : Int) :
    (s.kfdProcessFindByPid pid).isOk = true ↔ pid ∈ s.processes.map KfdProcess.pid := by
  unfold kfdProcessFindByPid
  cases hfind : s.processes.find? fun p => p.pid = pid with
  | none =>
    refine iff_of_false (by simp [Except.isOk, Except.toBool]) fun hmem => ?_
    obtain ⟨p, hp, hpid⟩ := List.mem_map.mp hmem
    have hnot := List.find?_eq_none.mp hfind p hp
    exact hnot (decide_eq_true hpid)
  | some p =>
    have hpid := List.find?_some hfind
    rw [decide_eq_true_eq] at hpid
    exact iff_of_true rfl (List.mem_map.mpr ⟨p, List.mem_of_find?_eq_some hfind, hpid⟩)

theorem law_boot : KfdTableLaw boot where
  pids := List.nodup_nil
  pasids := List.nodup_nil
  range := by simp [boot]
  allocated := fun q => iff_of_false (PasidState.not_allocated_boot q) (by simp [boot])
  count := rfl
  find := find_isOk_iff boot

/-- A process that leaves the list frees its PASID. -/
theorem law_remove {s : KfdTable} (h : KfdTableLaw s) {p : KfdProcess} (hp : p ∈ s.processes)
    (b : Bool) : KfdTableLaw { s with
      processes := s.processes.erase p
      processesCount := s.processesCount - 1
      initialized := b
      pasid := (s.pasid.kfdFreePasid p.pasid).2 } := by
  have hsub : (s.processes.erase p).Sublist s.processes := List.erase_sublist
  have hperm := (List.perm_cons_erase hp).map KfdProcess.pasid
  have hnodup := hperm.nodup_iff.mp h.pasids
  rw [List.map_cons, List.nodup_cons] at hnodup
  refine ⟨h.pids.sublist (hsub.map _), hnodup.2, fun x hx => h.range x (hsub.subset hx),
    fun q => ?_, ?_, find_isOk_iff _⟩
  · rw [PasidState.allocated_kfdFreePasid, h.allocated, hperm.mem_iff, List.map_cons,
      List.mem_cons]
    constructor
    · rintro ⟨heq | hmem, hne⟩
      · exact absurd heq hne
      · exact hmem
    · intro hmem
      refine ⟨.inr hmem, ?_⟩
      rintro rfl
      exact hnodup.1 hmem
  · have hcount : s.processesCount = s.processes.length := h.count
    have hlen := List.length_erase_of_mem hp
    have hpos := List.length_pos_of_mem hp
    show s.processesCount - 1 = ((s.processes.erase p).length : Int)
    omega

/-- The allocator may change as long as the same PASIDs are allocated. -/
theorem law_congr {s : KfdTable} (h : KfdTableLaw s) {pasid : PasidState}
    (hsame : ∀ q, pasid.Allocated q ↔ s.pasid.Allocated q) :
    KfdTableLaw { s with pasid := pasid } where
  pids := h.pids
  pasids := h.pasids
  range := h.range
  allocated := fun q => (hsame q).trans (h.allocated q)
  count := h.count
  find := find_isOk_iff _

theorem law_destroyAll (ps : List KfdProcess) (s : KfdTable) (hps : s.processes = ps)
    (h : KfdTableLaw s) : KfdTableLaw { destroyAll ps s with initialized := false } := by
  induction ps generalizing s with
  | nil => exact ⟨h.pids, h.pasids, h.range, h.allocated, h.count, find_isOk_iff _⟩
  | cons p rest ih =>
    refine ih _ rfl ?_
    have hmem : p ∈ s.processes := hps ▸ List.mem_cons_self
    have hremove := law_remove h hmem s.initialized
    rwa [hps, List.erase_cons_head] at hremove

/-- A creation adds a process with a PASID that was free, or changes nothing that counts. -/
theorem create_cases (s : KfdTable) (pid : Int) (mem : CreateMem) :
    (∃ pasid, (s.kfdProcessCreate pid mem).1.isOk = false ∧
      (s.kfdProcessCreate pid mem).2 = { s with pasid := pasid } ∧
      ∀ q, pasid.Allocated q ↔ s.pasid.Allocated q) ∨
    ∃ addr idx pasid, (s.kfdProcessCreate pid mem).1 = .ok addr ∧
      (s.kfdProcessCreate pid mem).2 = { s with
        processes := ⟨addr, pid, idx⟩ :: s.processes
        processesCount := s.processesCount + 1
        pasid := pasid } ∧
      (∀ p ∈ s.processes, p.pid ≠ pid) ∧ ¬s.pasid.Allocated idx ∧ 1 ≤ idx ∧ idx ≤ maxPasid ∧
      ∀ q, pasid.Allocated q ↔ q = idx ∨ s.pasid.Allocated q := by
  unfold kfdProcessCreate
  by_cases hbusy : s.processes.any (fun p => p.pid = pid) = true
  · rw [if_pos hbusy]
    exact .inl ⟨s.pasid, rfl, rfl, fun _ => Iff.rfl⟩
  rw [if_neg hbusy]
  by_cases hentry : (!mem.entry) = true
  · rw [if_pos hentry]
    exact .inl ⟨s.pasid, rfl, rfl, fun _ => Iff.rfl⟩
  rw [if_neg hentry]
  cases hfresh : s.fresh mem.process with
  | none => exact .inl ⟨s.pasid, rfl, rfl, fun _ => Iff.rfl⟩
  | some addr =>
    rcases hpasid : s.pasid.kfdAllocatePasid with ⟨result, pasid⟩
    have hspec := s.pasid.kfdAllocatePasid_spec
    rw [hpasid] at hspec
    rcases hspec with ⟨err, rfl, hsame⟩ | ⟨idx, rfl, hfree, hpos, hle, halloc⟩
    · exact .inl ⟨pasid, rfl, rfl, hsame⟩
    · by_cases hshim : (!mem.shim) = true
      · refine .inl ⟨(pasid.kfdFreePasid idx).2, ?_, ?_, fun q => ?_⟩
        · simp only [if_pos hshim]
          rfl
        · simp only [if_pos hshim]
        · rw [PasidState.allocated_kfdFreePasid, halloc]
          constructor
          · rintro ⟨heq | hq, hne⟩
            · exact absurd heq hne
            · exact hq
          · intro hq
            refine ⟨.inr hq, ?_⟩
            rintro rfl
            exact hfree hq
      · refine .inr ⟨addr, idx, pasid, ?_, ?_, fun p hp hpid => ?_, hfree, hpos, hle, halloc⟩
        · simp only [if_neg hshim]
        · simp only [if_neg hshim]
        · apply hbusy
          exact List.any_eq_true.mpr ⟨p, hp, decide_eq_true hpid⟩

theorem law_create {s : KfdTable} (h : KfdTableLaw s) (pid : Int) (mem : CreateMem) :
    KfdTableLaw (s.kfdProcessCreate pid mem).2 := by
  rcases create_cases s pid mem with ⟨pasid, -, hstate, hsame⟩ |
    ⟨addr, idx, pasid, -, hstate, hpid, hfree, hpos, hle, halloc⟩
  · rw [hstate]
    exact law_congr h hsame
  · rw [hstate]
    rw [h.allocated] at hfree
    refine ⟨?_, ?_, fun p hp => ?_, fun q => ?_, ?_, find_isOk_iff _⟩
    · rw [List.map_cons, List.nodup_cons]
      refine ⟨fun hmem => ?_, h.pids⟩
      obtain ⟨p, hp, heq⟩ := List.mem_map.mp hmem
      exact hpid p hp heq
    · rw [List.map_cons, List.nodup_cons]
      exact ⟨hfree, h.pasids⟩
    · rcases List.mem_cons.mp hp with rfl | hp
      · exact ⟨hpos, hle⟩
      · exact h.range p hp
    · rw [halloc, h.allocated, List.map_cons, List.mem_cons]
    · have hcount : s.processesCount = s.processes.length := h.count
      show s.processesCount + 1 = ((s.processes.length + 1 : ℕ) : Int)
      omega

theorem law_step (s : KfdTable) (call : KfdCall) (h : KfdTableLaw s)
    (hG : resetsEmptyTable s call) : KfdTableLaw (s.step call) := by
  cases call with
  | processInit =>
    simp only [step, kfdProcessInit]
    split_ifs with hinit
    · have hnil : s.processes = [] := hG (by simpa using hinit)
      have hcount : s.processesCount = s.processes.length := h.count
      rw [hnil] at hcount
      have hsame : ({ s with processes := [], processesCount := 0, initialized := true } :
          KfdTable) = { s with initialized := true } := by
        rw [hnil, show s.processesCount = 0 from hcount]
      rw [hsame]
      exact ⟨h.pids, h.pasids, h.range, h.allocated, h.count, find_isOk_iff _⟩
    · exact h
  | processExit =>
    simp only [step, kfdProcessExit]
    split_ifs
    · exact h
    · exact law_destroyAll s.processes s rfl h
  | create pid mem => exact law_create h pid mem
  | destroy p =>
    cases p with
    | none => exact h
    | some addr =>
      simp only [step, kfdProcessDestroy]
      cases hfind : s.processes.find? fun p => p.addr = addr with
      | none => exact h
      | some p => exact law_remove h (List.mem_of_find?_eq_some hfind) s.initialized
  | findByPid pid => exact h
  | pasidInit => exact law_congr h s.pasid.allocated_kfdPasidInit
  | pasidExit =>
    have hnil : s.processes = [] := hG
    refine law_congr h fun q => iff_of_false (s.pasid.not_allocated_exit q) ?_
    rw [h.allocated, hnil]
    exact List.not_mem_nil

theorem createLaw (s : KfdTable) (call : KfdCall) : CreateLaw s call := by
  cases call with
  | create pid mem =>
    intro hfail
    rcases create_cases s pid mem with ⟨pasid, -, hstate, hsame⟩ | ⟨addr, _, _, hok, -⟩
    · rw [hstate]
      exact ⟨rfl, rfl, hsame⟩
    · rw [hok] at hfail
      cases hfail
  | processInit | processExit | destroy p | findByPid pid | pasidInit | pasidExit => trivial

/-- A reset or a teardown with processes listed breaks the coupling. -/
theorem resetsEmptyTable_of_law (s : KfdTable) (call : KfdCall) (h : KfdTableLaw s)
    (hnext : KfdTableLaw (s.step call)) : resetsEmptyTable s call := by
  have hempty : (∀ p ∈ s.processes, ¬(s.step call).pasid.Allocated p.pasid) →
      (s.step call).processes = s.processes → s.processes = [] := by
    intro hnot hsame
    apply List.eq_nil_iff_forall_not_mem.mpr
    intro p hp
    apply hnot p hp
    rw [hnext.allocated, hsame]
    exact List.mem_map_of_mem hp
  cases call with
  | processInit =>
    intro hinit
    apply List.eq_nil_iff_forall_not_mem.mpr
    intro p hp
    have halloc : s.pasid.Allocated p.pasid := (h.allocated _).mpr (List.mem_map_of_mem hp)
    have hstep : s.step .processInit =
        { s with processes := [], processesCount := 0, initialized := true } := by
      rw [step, kfdProcessInit, if_pos (by rw [hinit]; rfl)]
    rw [hstep] at hnext
    have hmem := (hnext.allocated p.pasid).mp halloc
    exact absurd hmem List.not_mem_nil
  | pasidExit =>
    exact hempty (fun p _ => s.pasid.not_allocated_exit p.pasid) rfl
  | processExit | create pid mem | destroy p | findByPid pid | pasidInit => trivial

/-- **Process table.**  The table law holds in every state of a run, and failed creations leave
what it speaks of, exactly when neither the list's head is reset nor the allocator torn down while
processes are listed. -/
theorem kfd_table_iff (calls : List KfdCall) :
    (Always step KfdTableLaw boot calls ∧ Guarded step CreateLaw boot calls) ↔
      Guarded step resetsEmptyTable boot calls :=
  always_guarded_iff law_step (fun _ h => h) (fun s call _ _ => createLaw s call)
    (fun s call h hnext _ => resetsEmptyTable_of_law s call h hnext) calls law_boot

/-- Two processes get PASID 1: the allocator forgets the first one's. -/
theorem kfd_table_fails :
    ¬(Always step KfdTableLaw boot [.processInit, .pasidInit, .create 100 ⟨true, some 1, true⟩,
        .pasidExit, .pasidInit, .create 200 ⟨true, some 2, true⟩] ∧
      Guarded step CreateLaw boot [.processInit, .pasidInit, .create 100 ⟨true, some 1, true⟩,
        .pasidExit, .pasidInit, .create 200 ⟨true, some 2, true⟩]) := by
  rintro ⟨hlaw, -⟩
  have hnodup := (Always.last _ hlaw).pasids
  revert hnodup
  decide +kernel

end KfdTable

end UsrLinuxEmu.GpuDriver
