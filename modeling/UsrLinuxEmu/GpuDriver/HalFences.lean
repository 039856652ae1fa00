import UsrLinuxEmu.GpuDriver.PushbufferSubmit
import UsrLinuxEmu.GpuDriver.SemaphoreManager

/-!
# HAL fences (`hal/hal_user.cpp`)

`hal_fence_create` and `hal_fence_read` have two backings: a table of `HAL_MAX_FENCES` flags, used
when the context has no semaphore manager, and the manager's timeline semaphores.  The sync path of
the submission ioctl creates a fence for each FENCE entry that it comes to.

* `fenceCreate` / `fenceRead` — the two calls;
* `FenceSystem` — the context with the batches whose entries the sync path is carrying out;
* `FencesSound` — a batch's fences read as signaled exactly when the batch is complete, unsignaled
  fences are distinct, and none is refused while fewer than `HAL_MAX_FENCES` are outstanding;
* `SameAnswers` — both backings answer every call of a history alike;
* `hal_fences_iff` — the histories for which all of this holds.
-/

namespace UsrLinuxEmu.GpuDriver

open UsrLinuxEmu.Transition

/-! ### The two calls -/

/-- The part of `hal_user_context` that the fences live in. -/
structure HalFenceContext where
  semMgr : Option SemaphoreManager
  fenceSignaled : ℕ → Bool

namespace HalFenceContext

/-- The context of `hal_user_init`, without a semaphore manager. -/
def legacy : HalFenceContext := ⟨none, fun _ => false⟩

def withManager : HalFenceContext := ⟨some .init, fun _ => false⟩

/-- The first slot of the table that is not taken. -/
def freeSlot (c : HalFenceContext) : Option ℕ :=
  (List.range halMaxFences).find? fun i => !c.fenceSignaled i

/-- `user_fence_create`: the return value, `*out_fence_id` and the context. -/
def fenceCreate (c : HalFenceContext) : Int × UInt64 × HalFenceContext :=
  match c.semMgr with
  | some m =>
    let r := m.create 0
    let c' := { c with semMgr := some r.mgr }
    if r.handle = 0 then (-eNOMEM, 0, c') else (0, r.handle, c')
  | none =>
    match c.freeSlot with
    | some i =>
      (0, UInt64.ofNat i, { c with fenceSignaled := Function.update c.fenceSignaled i true })
    | none => (-eNOMEM, 0, c)

/-- `user_fence_read`: the return value and `*out_val`. -/
def fenceRead (c : HalFenceContext) (fenceId : UInt64) : Int × UInt64 :=
  match c.semMgr with
  | some m =>
    let val := m.query fenceId
    if val = UInt64.ofNat (UInt64.size - 1) then (-eINVAL, 0) else (0, if 0 < val then 1 else 0)
  | none =>
    if halMaxFences ≤ fenceId.toNat then (-eINVAL, 0)
    else (0, if c.fenceSignaled fenceId.toNat then 1 else 0)

/-- The fence reads as signaled. -/
def signaled (c : HalFenceContext) (fenceId : UInt64) : Bool := c.fenceRead fenceId == (0, 1)

end HalFenceContext

/-! ### Submissions on the sync path -/

/-- A batch in the loop of the sync path: the entries still to be carried out, the fences created
for it, and whether the ioctl has returned with an error. -/
structure SyncBatch where
  remaining : List GpuGpfifoEntry
  fences : List UInt64
  failed : Bool
  deriving DecidableEq

/-- What holds of all batches, when it holds of the one that is put in the place of another. -/
theorem forall_mem_set {p : SyncBatch → Prop} {batches : List SyncBatch} {i : ℕ} {b : SyncBatch}
    (h : ∀ b ∈ batches, p b) (hb : p b) : ∀ b' ∈ batches.set i b, p b' := by
  intro b' hb'
  rcases List.mem_or_eq_of_mem_set hb' with hmem | rfl
  · exact h b' hmem
  · exact hb

/-- All entries have been carried out. -/
def SyncBatch.completed (b : SyncBatch) : Bool := b.remaining.isEmpty && !b.failed

def GpuGpfifoEntry.isFence (e : GpuGpfifoEntry) : Bool := e.valid && e.method == gpuOpFence

inductive FenceOp where
  | create
  | submit (entries : List GpuGpfifoEntry)
  | entry (batch : ℕ)
  | read (fenceId : UInt64)

/-- `created` are the fences handed out, `refused` the number of outstanding fences at each refusal,
`answers` the return value and the output of each call. -/
structure FenceSystem where
  ctx : HalFenceContext
  batches : List SyncBatch
  created : List UInt64
  refused : List ℕ
  answers : List (Int × UInt64)

namespace FenceSystem

def init (ctx : HalFenceContext) : FenceSystem := ⟨ctx, [], [], [], []⟩

/-- The fences that do not read as signaled. -/
def outstanding (s : FenceSystem) : List UInt64 := s.created.filter fun f => !s.ctx.signaled f

/-- A call of `hal_fence_create`, with its answer noted. -/
def create (s : FenceSystem) : FenceSystem :=
  let r := s.ctx.fenceCreate
  if r.1 = 0 then
    { s with ctx := r.2.2, created := r.2.1 :: s.created, answers := (r.1, r.2.1) :: s.answers }
  else
    { s with
      ctx := r.2.2
      refused := s.outstanding.length :: s.refused
      answers := (r.1, r.2.1) :: s.answers }

/-- The next entry of a batch: a valid FENCE creates a fence, or makes the ioctl return; every other
entry is only printed. -/
def stepEntry (s : FenceSystem) (i : ℕ) : FenceSystem :=
  match s.batches[i]? with
  | none => s
  | some b =>
    match b.failed, b.remaining with
    | false, e :: rest =>
      if e.isFence then
        let r := s.ctx.fenceCreate
        let b' : SyncBatch :=
          if r.1 = 0 then ⟨rest, r.2.1 :: b.fences, false⟩ else ⟨e :: rest, b.fences, true⟩
        { s.create with batches := s.batches.set i b' }
      else { s with batches := s.batches.set i ⟨rest, b.fences, false⟩ }
    | _, _ => s

def step (s : FenceSystem) : FenceOp → FenceSystem
  | .create => s.create
  | .submit entries => { s with batches := s.batches ++ [⟨entries, [], false⟩] }
  | .entry i => s.stepEntry i
  | .read fenceId => { s with answers := s.ctx.fenceRead fenceId :: s.answers }

end FenceSystem

/-! ### The property -/

structure FencesSound (s : FenceSystem) : Prop where
  exact : ∀ b ∈ s.batches, ∀ f ∈ b.fences, s.ctx.signaled f = b.completed
  distinct : s.outstanding.Nodup
  granted : ∀ n ∈ s.refused, halMaxFences ≤ n

/-- The same history on both backings. -/
def bothStep (x : FenceSystem × FenceSystem) (op : FenceOp) : FenceSystem × FenceSystem :=
  (x.1.step op, x.2.step op)

def SameAnswers (x : FenceSystem × FenceSystem) : Prop := x.1.answers = x.2.answers

/-- The fences of a history are sound with either backing, and both give the same answers. -/
structure HalFencesSound (ops : List FenceOp) : Prop where
  legacy : Always FenceSystem.step FencesSound (.init .legacy) ops
  manager : Always FenceSystem.step FencesSound (.init .withManager) ops
  same : Always bothStep SameAnswers (.init .legacy, .init .withManager) ops

/-! ### The conditions -/

namespace FenceSystem

/-- The entry that the loop of batch `i` comes to next, with those after it. -/
def next (s : FenceSystem) (i : ℕ) : List GpuGpfifoEntry :=
  match s.batches[i]? with
  | none => []
  | some b => if b.failed then [] else b.remaining

/-- The operation calls `hal_fence_create`. -/
def creates (s : FenceSystem) : FenceOp → Bool
  | .create => true
  | .entry i => ((s.next i).head?.map GpuGpfifoEntry.isFence).getD false
  | _ => false

/-- The table has a free slot, and a FENCE entry is the last one of its batch. -/
def legacyGuard (s : FenceSystem) (op : FenceOp) : Prop :=
  (s.creates op = true → s.ctx.freeSlot.isSome = true) ∧
    match op with
    | .entry i => s.creates op = true → (s.next i).tail = []
    | _ => True

/-- The handle is new, and a batch does not come to its end with a fence of its own: its last entry
is a FENCE entry only when the handle counter has wrapped to zero, and is refused. -/
def managerGuard (s : FenceSystem) (op : FenceOp) : Prop :=
  (s.creates op = true → ∀ m ∈ s.ctx.semMgr, (m.semaphores m.nextHandle).isNone = true) ∧
    match op with
    | .entry i => (s.next i).length = 1 →
        if s.creates op then ∀ m ∈ s.ctx.semMgr, m.nextHandle = 0
        else ∀ b ∈ s.batches[i]?, b.fences = []
    | _ => True

end FenceSystem

/-- No fence is created and no id of the table's range is read. -/
def sameGuard (x : FenceSystem × FenceSystem) (op : FenceOp) : Prop :=
  x.1.creates op = false ∧
    match op with
    | .read fenceId => halMaxFences ≤ fenceId.toNat
    | _ => True

/-! ### The steps of a batch -/

namespace FenceSystem

/-- What the loop of a batch does with its next entry. -/
inductive EntryStep (s : FenceSystem) (i : ℕ) : FenceSystem → Prop
  | idle (h : s.next i = []) : EntryStep s i s
  | printed {b : SyncBatch} {e : GpuGpfifoEntry} {rest : List GpuGpfifoEntry}
      (hb : s.batches[i]? = some b) (hlive : b.failed = false) (hrem : b.remaining = e :: rest)
      (hfence : e.isFence = false) :
      EntryStep s i { s with batches := s.batches.set i ⟨rest, b.fences, false⟩ }
  | granted {b : SyncBatch} {e : GpuGpfifoEntry} {rest : List GpuGpfifoEntry}
      (hb : s.batches[i]? = some b) (hlive : b.failed = false) (hrem : b.remaining = e :: rest)
      (hfence : e.isFence = true) (hret : s.ctx.fenceCreate.1 = 0) :
      EntryStep s i { s.create with
        batches := s.batches.set i ⟨rest, s.ctx.fenceCreate.2.1 :: b.fences, false⟩ }
  | refused {b : SyncBatch} {e : GpuGpfifoEntry} {rest : List GpuGpfifoEntry}
      (hb : s.batches[i]? = some b) (hlive : b.failed = false) (hrem : b.remaining = e :: rest)
      (hfence : e.isFence = true) (hret : s.ctx.fenceCreate.1 ≠ 0) :
      EntryStep s i { s.create with batches := s.batches.set i ⟨e :: rest, b.fences, true⟩ }

theorem next_eq {s : FenceSystem} {i : ℕ} {b : SyncBatch} (hb : s.batches[i]? = some b)
    (hlive : b.failed = false) : s.next i = b.remaining := by
  simp [next, hb, hlive]

theorem entryStep (s : FenceSystem) (i : ℕ) : EntryStep s i (s.stepEntry i) := by
  unfold stepEntry
  rcases hb : s.batches[i]? with _ | ⟨_ | ⟨e, rest⟩, fences, _ | _⟩
  · exact .idle (by simp [next, hb])
  · exact .idle (by simp [next, hb])
  · exact .idle (by simp [next, hb])
  · by_cases hfence : e.isFence = true
    · by_cases hret : s.ctx.fenceCreate.1 = 0
      · simp only [if_pos hfence, if_pos hret]
        exact .granted hb rfl rfl hfence hret
      · simp only [if_pos hfence, if_neg hret]
        exact .refused hb rfl rfl hfence hret
    · simp only [if_neg hfence]
      exact .printed hb rfl rfl (Bool.not_eq_true _ ▸ hfence)
  · exact .idle (by simp [next, hb])

/-- The step as a state of its own, for a case split. -/
theorem exists_entryStep (s : FenceSystem) (i : ℕ) :
    ∃ s', s.stepEntry i = s' ∧ EntryStep s i s' :=
  ⟨_, rfl, s.entryStep i⟩

theorem creates_entry {s : FenceSystem} {i : ℕ} {b : SyncBatch} {e : GpuGpfifoEntry}
    {rest : List GpuGpfifoEntry} (hb : s.batches[i]? = some b) (hlive : b.failed = false)
    (hrem : b.remaining = e :: rest) : s.creates (.entry i) = e.isFence := by
  simp [creates, next_eq hb hlive, hrem]

end FenceSystem

/-! ### The legacy table -/

section Legacy

theorem signaled_legacy {c : HalFenceContext} (h : c.semMgr = none) (f : UInt64) :
    c.signaled f = (decide (f.toNat < halMaxFences) && c.fenceSignaled f.toNat) := by
  unfold HalFenceContext.signaled HalFenceContext.fenceRead
  rw [h]
  by_cases hlt : halMaxFences ≤ f.toNat
  · simp only [if_pos hlt, Nat.not_lt.mpr hlt, decide_false, Bool.false_and]
    rfl
  · simp only [if_neg hlt, Nat.lt_of_not_le hlt, decide_true, Bool.true_and]
    cases c.fenceSignaled f.toNat <;> rfl

theorem freeSlot_lt {c : HalFenceContext} {i : ℕ} (h : c.freeSlot = some i) : i < halMaxFences :=
  List.mem_range.mp (List.mem_of_find?_eq_some h)

theorem fenceCreate_legacy {c : HalFenceContext} (hmgr : c.semMgr = none) {i : ℕ}
    (h : c.freeSlot = some i) : c.fenceCreate =
      (0, UInt64.ofNat i, { c with fenceSignaled := Function.update c.fenceSignaled i true }) := by
  simp only [HalFenceContext.fenceCreate, hmgr, h]

theorem fenceCreate_full {c : HalFenceContext} (hmgr : c.semMgr = none)
    (h : c.freeSlot = none) : c.fenceCreate = (-eNOMEM, 0, c) := by
  simp only [HalFenceContext.fenceCreate, hmgr, h]

structure LegacyInv (s : FenceSystem) : Prop where
  noManager : s.ctx.semMgr = none
  taken : ∀ f ∈ s.created, s.ctx.signaled f = true
  own : ∀ b ∈ s.batches, ∀ f ∈ b.fences, f ∈ s.created
  done : ∀ b ∈ s.batches, b.fences ≠ [] → b.completed = true
  granted : s.refused = []

theorem LegacyInv.outstanding {s : FenceSystem} (h : LegacyInv s) : s.outstanding = [] := by
  refine List.filter_eq_nil_iff.mpr fun f hf => ?_
  simp [h.taken f hf]

theorem LegacyInv.sound {s : FenceSystem} (h : LegacyInv s) : FencesSound s where
  exact := by
    intro b hb f hf
    rw [h.taken f (h.own b hb f hf), h.done b hb (List.ne_nil_of_mem hf)]
  distinct := by
    rw [h.outstanding]
    exact List.nodup_nil
  granted := by simp [h.granted]

/-- A granted fence takes a slot, and from then on reads as signaled. -/
theorem LegacyInv.create {s : FenceSystem} (h : LegacyInv s) {i : ℕ}
    (hfree : s.ctx.freeSlot = some i) : LegacyInv s.create ∧ s.create.batches = s.batches ∧
      s.create.created = UInt64.ofNat i :: s.created := by
  have hlt := freeSlot_lt hfree
  have hsmall : i < UInt64.size := Nat.lt_trans hlt (by decide)
  have hcreate : s.create = { s with
      ctx := { s.ctx with fenceSignaled := Function.update s.ctx.fenceSignaled i true }
      created := UInt64.ofNat i :: s.created
      answers := (0, UInt64.ofNat i) :: s.answers } := by
    simp only [FenceSystem.create, fenceCreate_legacy h.noManager hfree, if_true]
  rw [hcreate]
  refine ⟨⟨h.noManager, fun f hf => ?_, fun b hb f hf => ?_, h.done, h.granted⟩, rfl, rfl⟩
  · refine (signaled_legacy (c := { s.ctx with
      fenceSignaled := Function.update s.ctx.fenceSignaled i true }) h.noManager f).trans ?_
    rcases List.mem_cons.mp hf with rfl | hf
    · rw [UInt64.toNat_ofNat_of_lt' hsmall]
      simp [hlt]
    · have hold := h.taken f hf
      rw [signaled_legacy h.noManager, Bool.and_eq_true] at hold
      simp only [Function.update_apply, hold.1, hold.2, ite_self, Bool.and_self]
  · exact List.mem_cons_of_mem _ (h.own b hb f hf)

/-- A change of one batch. -/
theorem LegacyInv.setBatch {s : FenceSystem} (h : LegacyInv s) (i : ℕ) {b : SyncBatch}
    (hown : ∀ f ∈ b.fences, f ∈ s.created) (hover : b.fences ≠ [] → b.completed = true) :
    LegacyInv { s with batches := s.batches.set i b } where
  noManager := h.noManager
  taken := h.taken
  own := forall_mem_set h.own hown
  done := forall_mem_set h.done hover
  granted := h.granted

theorem legacyInv_step (s : FenceSystem) (op : FenceOp) (h : LegacyInv s)
    (hG : s.legacyGuard op) : LegacyInv (s.step op) := by
  obtain ⟨hslot, hlast⟩ := hG
  cases op with
  | create =>
    obtain ⟨i, hfree⟩ := Option.isSome_iff_exists.mp (hslot rfl)
    exact (h.create hfree).1
  | submit entries =>
    refine ⟨h.noManager, h.taken, List.forall_mem_append.mpr ⟨h.own, ?_⟩,
      List.forall_mem_append.mpr ⟨h.done, ?_⟩, h.granted⟩
    · simp
    · simp
  | read fenceId => exact ⟨h.noManager, h.taken, h.own, h.done, h.granted⟩
  | entry i =>
    rw [FenceSystem.step]
    obtain ⟨s', hnext, hstep⟩ := s.exists_entryStep i
    rw [hnext]
    cases hstep with
    | idle => exact h
    | printed hb hlive hrem hfence =>
      rename_i b e rest
      have hmem := List.mem_of_getElem? hb
      refine h.setBatch i (fun f hf => h.own b hmem f hf) fun hne => ?_
      have hover := h.done b hmem hne
      simp [SyncBatch.completed, hrem] at hover
    | granted hb hlive hrem hfence hret =>
      rename_i b e rest
      have hmem := List.mem_of_getElem? hb
      have hcreates := (FenceSystem.creates_entry hb hlive hrem).trans hfence
      obtain ⟨j, hfree⟩ := Option.isSome_iff_exists.mp (hslot hcreates)
      obtain ⟨hinv, hbatches, hcreated⟩ := h.create hfree
      have hempty : rest = [] := by
        have htail := hlast hcreates
        rwa [FenceSystem.next_eq hb hlive, hrem] at htail
      rw [← hbatches, fenceCreate_legacy h.noManager hfree, hempty]
      refine hinv.setBatch i (fun f hf => ?_) fun _ => rfl
      rw [hcreated]
      rcases List.mem_cons.mp hf with rfl | hf
      · exact List.mem_cons_self
      · exact List.mem_cons_of_mem _ (h.own b hmem f hf)
    | refused hb hlive hrem hfence hret =>
      have hcreates := (FenceSystem.creates_entry hb hlive hrem).trans hfence
      obtain ⟨j, hfree⟩ := Option.isSome_iff_exists.mp (hslot hcreates)
      rw [fenceCreate_legacy h.noManager hfree] at hret
      exact absurd rfl hret

/-- A refusal finds nothing outstanding, and a fence created before the last entry reads as signaled
too early. -/
theorem legacyGuard_of_sound (s : FenceSystem) (op : FenceOp) (h : LegacyInv s)
    (hsound : FencesSound (s.step op)) : s.legacyGuard op := by
  have hgranted : ∀ s', FencesSound s' → s'.refused = s.create.refused →
      s.ctx.freeSlot.isSome = true := by
    intro s' hs' hrefused
    by_contra hnone
    rw [Bool.not_eq_true, Option.isSome_eq_false_iff, Option.isNone_iff_eq_none] at hnone
    have hcreate : s.create.refused = [0] := by
      simp only [FenceSystem.create, fenceCreate_full h.noManager hnone, h.outstanding, h.granted]
      rfl
    have hle := hs'.granted 0 (by rw [hrefused, hcreate]; exact List.mem_singleton_self 0)
    exact absurd hle (by decide)
  cases op with
  | create => exact ⟨fun _ => hgranted _ hsound rfl, trivial⟩
  | submit entries => exact ⟨nofun, trivial⟩
  | read fenceId => exact ⟨nofun, trivial⟩
  | entry i =>
    rw [FenceSystem.step] at hsound
    obtain ⟨s', hnext, hstep⟩ := s.exists_entryStep i
    rw [hnext] at hsound
    cases hstep with
    | idle hidle =>
      have hcreates : s.creates (.entry i) = false := by simp [FenceSystem.creates, hidle]
      exact ⟨fun hc => by simp [hcreates] at hc, fun hc => by simp [hcreates] at hc⟩
    | printed hb hlive hrem hfence =>
      have hcreates := (FenceSystem.creates_entry hb hlive hrem).trans hfence
      exact ⟨fun hc => by simp [hcreates] at hc, fun hc => by simp [hcreates] at hc⟩
    | refused hb hlive hrem hfence hret =>
      have hsome := hgranted _ hsound rfl
      obtain ⟨j, hfree⟩ := Option.isSome_iff_exists.mp hsome
      rw [fenceCreate_legacy h.noManager hfree] at hret
      exact absurd rfl hret
    | granted hb hlive hrem hfence hret =>
      rename_i b e rest
      have hsome := hgranted _ hsound rfl
      refine ⟨fun _ => hsome, fun _ => ?_⟩
      obtain ⟨j, hfree⟩ := Option.isSome_iff_exists.mp hsome
      obtain ⟨hinv, -, hcreated⟩ := h.create hfree
      have hlt : i < s.batches.length := (List.getElem?_eq_some_iff.mp hb).1
      have hexact := hsound.exact ⟨rest, s.ctx.fenceCreate.2.1 :: b.fences, false⟩
        (List.mem_set hlt _) (UInt64.ofNat j)
        (by rw [fenceCreate_legacy h.noManager hfree]; exact List.mem_cons_self)
      have htaken := hinv.taken (UInt64.ofNat j) (by rw [hcreated]; exact List.mem_cons_self)
      have hcompleted : SyncBatch.completed ⟨rest, s.ctx.fenceCreate.2.1 :: b.fences, false⟩ = true :=
        hexact.symm.trans htaken
      rw [FenceSystem.next_eq hb hlive, hrem]
      simpa [SyncBatch.completed] using hcompleted

theorem legacyInv_init : LegacyInv (.init .legacy) :=
  ⟨rfl, nofun, nofun, nofun, rfl⟩

theorem legacy_fences_iff (ops : List FenceOp) :
    Always FenceSystem.step FencesSound (.init .legacy) ops ↔
      Guarded FenceSystem.step FenceSystem.legacyGuard (.init .legacy) ops :=
  always_iff_guarded legacyInv_step (fun _ => LegacyInv.sound) legacyGuard_of_sound ops
    legacyInv_init

end Legacy

/-! ### The semaphore manager -/

section Manager

/-- A semaphore that a fence was created for, and that nobody signals or destroys. -/
def AllFresh (m : SemaphoreManager) : Prop :=
  ∀ h sem, m.semaphores h = some sem → sem.destroyed = false ∧ sem.value = 0

/-- `gpu_fence_read` answers 0 or `-EINVAL`. -/
theorem signaled_manager {c : HalFenceContext} {m : SemaphoreManager} (hmgr : c.semMgr = some m)
    (hfresh : AllFresh m) (f : UInt64) : c.signaled f = false := by
  unfold HalFenceContext.signaled HalFenceContext.fenceRead SemaphoreManager.query
  rw [hmgr]
  rcases hsem : m.semaphores f with _ | sem
  · simp only [hsem]
    rfl
  · obtain ⟨hlive, hvalue⟩ := hfresh f sem hsem
    simp only [hsem, hlive, hvalue]
    rfl

theorem allFresh_create {m : SemaphoreManager} (h : AllFresh m) : AllFresh (m.create 0).mgr := by
  intro k sem hsem
  by_cases hk : k = m.nextHandle
  · subst hk
    simp only [SemaphoreManager.create, SemaphoreManager.put, Function.update_self,
      Option.some.injEq] at hsem
    rw [← hsem]
    rcases hold : m.semaphores m.nextHandle with _ | old
    · exact ⟨rfl, rfl⟩
    · exact ⟨(h _ old hold).1, rfl⟩
  · simp only [SemaphoreManager.create, SemaphoreManager.put, Function.update_of_ne hk] at hsem
    exact h k sem hsem

theorem isSome_create (m : SemaphoreManager) (k : UInt64) :
    ((m.create 0).mgr.semaphores k).isSome = (decide (k = m.nextHandle) ||
      (m.semaphores k).isSome) := by
  by_cases hk : k = m.nextHandle
  · simp [SemaphoreManager.create, SemaphoreManager.put, hk]
  · simp [SemaphoreManager.create, SemaphoreManager.put, hk]

theorem fenceCreate_manager {c : HalFenceContext} {m : SemaphoreManager}
    (hmgr : c.semMgr = some m) (h : m.nextHandle ≠ 0) :
    c.fenceCreate = (0, m.nextHandle, { c with semMgr := some (m.create 0).mgr }) := by
  have hhandle : (m.create 0).handle ≠ 0 := h
  simp only [HalFenceContext.fenceCreate, hmgr, if_neg hhandle]
  rfl

theorem fenceCreate_wrapped {c : HalFenceContext} {m : SemaphoreManager}
    (hmgr : c.semMgr = some m) (h : m.nextHandle = 0) :
    c.fenceCreate = (-eNOMEM, 0, { c with semMgr := some (m.create 0).mgr }) := by
  have hhandle : (m.create 0).handle = 0 := h
  simp only [HalFenceContext.fenceCreate, hmgr, if_pos hhandle]

/-- The counter numbers the fences from 1, or has wrapped past zero back to the first of them. -/
def Counting (m : SemaphoreManager) (created : List UInt64) : Prop :=
  (m.nextHandle = UInt64.ofNat (created.length + 1) ∧
      ∀ h, (m.semaphores h).isSome = true → h ∈ created) ∨
    (m.nextHandle = 1 ∧ 1 ∈ created)

structure ManagerInv (s : FenceSystem) (m : SemaphoreManager) : Prop where
  manager : s.ctx.semMgr = some m
  fresh : AllFresh m
  known : ∀ f ∈ s.created, (m.semaphores f).isSome = true
  distinct : s.created.Nodup
  nonzero : 0 ∉ s.created
  first : s.created ≠ [] → 1 ∈ s.created
  own : ∀ b ∈ s.batches, ∀ f ∈ b.fences, f ∈ s.created
  unfinished : ∀ b ∈ s.batches, b.fences ≠ [] → b.completed = false
  granted : ∀ n ∈ s.refused, halMaxFences ≤ n
  counter : Counting m s.created

variable {s : FenceSystem} {m : SemaphoreManager}

theorem ManagerInv.outstanding (h : ManagerInv s m) : s.outstanding = s.created := by
  refine List.filter_eq_self.mpr fun f _ => ?_
  rw [signaled_manager h.manager h.fresh]
  rfl

theorem ManagerInv.sound (h : ManagerInv s m) : FencesSound s where
  exact := by
    intro b hb f hf
    rw [signaled_manager h.manager h.fresh, h.unfinished b hb (List.ne_nil_of_mem hf)]
  distinct := by
    rw [h.outstanding]
    exact h.distinct
  granted := h.granted

/-- A handle that is not taken yet. -/
theorem ManagerInv.createNew (h : ManagerInv s m) (hne : m.nextHandle ≠ 0)
    (hnew : (m.semaphores m.nextHandle).isNone = true) :
    ManagerInv s.create (m.create 0).mgr ∧ s.create.batches = s.batches ∧
      s.create.created = m.nextHandle :: s.created := by
  have hfree : m.nextHandle ∉ s.created := by
    intro hmem
    have hsome := h.known _ hmem
    rw [Option.isNone_iff_eq_none.mp hnew] at hsome
    exact absurd hsome (by decide)
  have hcreate : s.create = { s with
      ctx := { s.ctx with semMgr := some (m.create 0).mgr }
      created := m.nextHandle :: s.created
      answers := (0, m.nextHandle) :: s.answers } := by
    simp only [FenceSystem.create, fenceCreate_manager h.manager hne, if_true]
  have hcounting := h.counter.resolve_right fun hwrap => hfree (hwrap.1 ▸ hwrap.2)
  rw [hcreate]
  refine ⟨⟨rfl, allFresh_create h.fresh, fun f hf => ?_, List.nodup_cons.mpr ⟨hfree, h.distinct⟩,
    fun hmem => ?_, fun _ => ?_, fun b hb f hf => ?_, h.unfinished, h.granted, .inl ⟨?_, ?_⟩⟩,
    rfl, rfl⟩
  · rw [isSome_create, Bool.or_eq_true, decide_eq_true_eq]
    exact (List.mem_cons.mp hf).imp_right (h.known f)
  · exact (List.mem_cons.mp hmem).elim (fun heq => hne heq.symm) h.nonzero
  · by_cases hnil : s.created = []
    · rw [hcounting.1, hnil]
      exact List.mem_cons_self
    · exact List.mem_cons_of_mem _ (h.first hnil)
  · exact List.mem_cons_of_mem _ (h.own b hb f hf)
  · change m.nextHandle + 1 = UInt64.ofNat (s.created.length + 1 + 1)
    rw [hcounting.1, UInt64.ofNat_add (s.created.length + 1)]
    rfl
  · intro k hk
    rw [isSome_create, Bool.or_eq_true, decide_eq_true_eq] at hk
    exact List.mem_cons.mpr (hk.imp_right (hcounting.2 k))

/-- The counter has wrapped to zero: the call is refused, with every other handle outstanding. -/
theorem ManagerInv.createWrapped (h : ManagerInv s m) (hzero : m.nextHandle = 0) :
    ManagerInv s.create (m.create 0).mgr ∧ s.create.batches = s.batches := by
  have hcounting := h.counter.resolve_right fun hwrap =>
    absurd (hwrap.1.symm.trans hzero) (by decide)
  have hmany : halMaxFences ≤ s.created.length := by
    have hmod := congrArg UInt64.toNat (hcounting.1.symm.trans hzero)
    rw [UInt64.toNat_ofNat'] at hmod
    by_contra hlt
    rw [halMaxFences] at hlt
    rw [Nat.mod_eq_of_lt (by omega)] at hmod
    exact absurd hmod (by simp)
  have hnonempty : s.created ≠ [] := by
    intro hnil
    rw [hnil] at hmany
    exact absurd hmany (by decide)
  have hcreate : s.create = { s with
      ctx := { s.ctx with semMgr := some (m.create 0).mgr }
      refused := s.created.length :: s.refused
      answers := (-eNOMEM, 0) :: s.answers } := by
    simp only [FenceSystem.create, fenceCreate_wrapped h.manager hzero, h.outstanding]
    rfl
  rw [hcreate]
  refine ⟨⟨rfl, allFresh_create h.fresh, fun f hf => ?_, h.distinct, h.nonzero, h.first, h.own,
    h.unfinished, fun n hn => ?_, .inr ⟨?_, h.first hnonempty⟩⟩, rfl⟩
  · rw [isSome_create, h.known f hf, Bool.or_true]
  · rcases List.mem_cons.mp hn with rfl | hn
    · exact hmany
    · exact h.granted n hn
  · change m.nextHandle + 1 = 1
    rw [hzero]
    rfl

/-- A handle that is taken is handed out a second time. -/
theorem ManagerInv.createTaken (h : ManagerInv s m)
    (htaken : (m.semaphores m.nextHandle).isSome = true) :
    m.nextHandle ≠ 0 ∧ ¬ s.create.outstanding.Nodup := by
  have hmem : m.nextHandle ∈ s.created := by
    rcases h.counter with hcount | hwrap
    · exact hcount.2 _ htaken
    · rw [hwrap.1]
      exact hwrap.2
  have hne : m.nextHandle ≠ 0 := fun hzero => h.nonzero (hzero ▸ hmem)
  have houtstanding : s.create.outstanding = m.nextHandle :: s.created := by
    simp only [FenceSystem.create, fenceCreate_manager h.manager hne, if_true]
    refine List.filter_eq_self.mpr fun f _ => ?_
    rw [signaled_manager rfl (allFresh_create h.fresh)]
    rfl
  refine ⟨hne, ?_⟩
  rw [houtstanding, List.nodup_cons]
  exact fun hnodup => hnodup.1 hmem

theorem ManagerInv.setBatch (h : ManagerInv s m) (i : ℕ) {b : SyncBatch}
    (hown : ∀ f ∈ b.fences, f ∈ s.created) (hopen : b.fences ≠ [] → b.completed = false) :
    ManagerInv { s with batches := s.batches.set i b } m where
  manager := h.manager
  fresh := h.fresh
  known := h.known
  distinct := h.distinct
  nonzero := h.nonzero
  first := h.first
  own := forall_mem_set h.own hown
  unfinished := forall_mem_set h.unfinished hopen
  granted := h.granted
  counter := h.counter

/-- What a call of `hal_fence_create` does under the first half of the guard. -/
theorem ManagerInv.create (h : ManagerInv s m)
    (hnew : (m.semaphores m.nextHandle).isNone = true) :
    ManagerInv s.create (m.create 0).mgr ∧ s.create.batches = s.batches := by
  by_cases hzero : m.nextHandle = 0
  · exact h.createWrapped hzero
  · obtain ⟨hinv, hbatches, -⟩ := h.createNew hzero hnew
    exact ⟨hinv, hbatches⟩

theorem managerInv_step (s : FenceSystem) (op : FenceOp) (h : ∃ m, ManagerInv s m)
    (hG : s.managerGuard op) : ∃ m, ManagerInv (s.step op) m := by
  obtain ⟨m, h⟩ := h
  obtain ⟨hnew, hlast⟩ := hG
  cases op with
  | create => exact ⟨_, (h.create (hnew rfl m h.manager)).1⟩
  | submit entries =>
    refine ⟨m, h.manager, h.fresh, h.known, h.distinct, h.nonzero, h.first,
      List.forall_mem_append.mpr ⟨h.own, ?_⟩, List.forall_mem_append.mpr ⟨h.unfinished, ?_⟩,
      h.granted, h.counter⟩
    · simp
    · simp
  | read fenceId =>
    exact ⟨m, h.manager, h.fresh, h.known, h.distinct, h.nonzero, h.first, h.own, h.unfinished,
      h.granted, h.counter⟩
  | entry i =>
    rw [FenceSystem.step]
    obtain ⟨s', hnext, hstep⟩ := s.exists_entryStep i
    rw [hnext]
    cases hstep with
    | idle => exact ⟨m, h⟩
    | printed hb hlive hrem hfence =>
      rename_i b e rest
      have hmem := List.mem_of_getElem? hb
      have hcreates := (FenceSystem.creates_entry hb hlive hrem).trans hfence
      refine ⟨m, h.setBatch i (h.own b hmem) fun hne => ?_⟩
      -- the batch goes on, since it has a fence
      have hrest : rest ≠ [] := by
        rintro rfl
        have hnone := hlast (by rw [FenceSystem.next_eq hb hlive, hrem]; rfl)
        rw [hcreates] at hnone
        exact hne (hnone b hb)
      simp [SyncBatch.completed, hrest]
    | granted hb hlive hrem hfence hret =>
      rename_i b e rest
      have hmem := List.mem_of_getElem? hb
      have hcreates := (FenceSystem.creates_entry hb hlive hrem).trans hfence
      have hne : m.nextHandle ≠ 0 := by
        intro hzero
        rw [fenceCreate_wrapped h.manager hzero] at hret
        have hrefused : -eNOMEM = 0 := hret
        exact absurd hrefused (by decide)
      have hrest : rest ≠ [] := by
        rintro rfl
        have hzero := hlast (by rw [FenceSystem.next_eq hb hlive, hrem]; rfl)
        rw [hcreates] at hzero
        exact hne (hzero m h.manager)
      obtain ⟨hinv, hbatches, hcreated⟩ := h.createNew hne (hnew hcreates m h.manager)
      refine ⟨(m.create 0).mgr, ?_⟩
      rw [← hbatches, fenceCreate_manager h.manager hne]
      refine hinv.setBatch i (fun f hf => ?_) fun _ => by simp [SyncBatch.completed, hrest]
      rw [hcreated]
      rcases List.mem_cons.mp hf with rfl | hf
      · exact List.mem_cons_self
      · exact List.mem_cons_of_mem _ (h.own b hmem f hf)
    | refused hb hlive hrem hfence hret =>
      rename_i b e rest
      have hmem := List.mem_of_getElem? hb
      have hcreates := (FenceSystem.creates_entry hb hlive hrem).trans hfence
      have hzero : m.nextHandle = 0 := by
        by_contra hne
        rw [fenceCreate_manager h.manager hne] at hret
        exact hret rfl
      have hcreated : s.create.created = s.created := by
        simp only [FenceSystem.create, fenceCreate_wrapped h.manager hzero]
        rfl
      obtain ⟨hinv, hbatches⟩ := h.createWrapped hzero
      refine ⟨(m.create 0).mgr, ?_⟩
      rw [← hbatches]
      refine hinv.setBatch i (fun f hf => ?_) fun _ => rfl
      rw [hcreated]
      exact h.own b hmem f hf

/-- A handle that is given out twice is outstanding twice, and a batch that ends with a fence has
one that nobody signals. -/
theorem managerGuard_of_sound (s : FenceSystem) (op : FenceOp) (h : ∃ m, ManagerInv s m)
    (hsound : FencesSound (s.step op)) : s.managerGuard op := by
  obtain ⟨m, h⟩ := h
  have hnew : ∀ s', FencesSound s' → s'.outstanding = s.create.outstanding →
      ∀ m' ∈ s.ctx.semMgr, (m'.semaphores m'.nextHandle).isNone = true := by
    intro s' hs' houtstanding m' hm'
    obtain rfl : m = m' := Option.some.inj (h.manager.symm.trans hm')
    by_contra htaken
    rw [Bool.not_eq_true, Option.isNone_eq_false_iff] at htaken
    exact (h.createTaken htaken).2 (houtstanding ▸ hs'.distinct)
  cases op with
  | create => exact ⟨fun _ => hnew _ hsound rfl, trivial⟩
  | submit entries => exact ⟨nofun, trivial⟩
  | read fenceId => exact ⟨nofun, trivial⟩
  | entry i =>
    rw [FenceSystem.step] at hsound
    obtain ⟨s', hnext, hstep⟩ := s.exists_entryStep i
    rw [hnext] at hsound
    cases hstep with
    | idle hidle =>
      have hcreates : s.creates (.entry i) = false := by simp [FenceSystem.creates, hidle]
      exact ⟨fun hc => by simp [hcreates] at hc, fun hc => by simp [hidle] at hc⟩
    | printed hb hlive hrem hfence =>
      rename_i b e rest
      have hcreates := (FenceSystem.creates_entry hb hlive hrem).trans hfence
      refine ⟨fun hc => by simp [hcreates] at hc, fun hlast => ?_⟩
      rw [FenceSystem.next_eq hb hlive, hrem] at hlast
      obtain rfl : rest = [] := by simpa using hlast
      rw [hcreates]
      rintro b' hb'
      obtain rfl : b = b' := Option.some.inj (hb.symm.trans hb')
      -- a fence of the finished batch would have to read as signaled
      refine List.eq_nil_iff_forall_not_mem.mpr fun f hf => ?_
      have hlt : i < s.batches.length := (List.getElem?_eq_some_iff.mp hb).1
      have hexact := hsound.exact ⟨[], b.fences, false⟩ (List.mem_set hlt _) f hf
      exact Bool.false_ne_true ((signaled_manager h.manager h.fresh f).symm.trans hexact)
    | granted hb hlive hrem hfence hret =>
      rename_i b e rest
      have hcreates := (FenceSystem.creates_entry hb hlive hrem).trans hfence
      refine ⟨fun _ => hnew _ hsound rfl, fun hlast => ?_⟩
      rw [FenceSystem.next_eq hb hlive, hrem] at hlast
      obtain rfl : rest = [] := by simpa using hlast
      rw [hcreates]
      intro m' hm'
      obtain rfl : m = m' := Option.some.inj (h.manager.symm.trans hm')
      by_contra hne
      have hlt : i < s.batches.length := (List.getElem?_eq_some_iff.mp hb).1
      have hexact := hsound.exact ⟨[], s.ctx.fenceCreate.2.1 :: b.fences, false⟩
        (List.mem_set hlt _) s.ctx.fenceCreate.2.1 List.mem_cons_self
      obtain ⟨hinv, -⟩ := h.createNew hne (hnew _ hsound rfl m h.manager)
      have hunsignaled := signaled_manager hinv.manager hinv.fresh s.ctx.fenceCreate.2.1
      exact Bool.false_ne_true (hunsignaled.symm.trans hexact)
    | refused hb hlive hrem hfence hret =>
      rename_i b e rest
      refine ⟨fun _ => hnew _ hsound rfl, fun _ => ?_⟩
      have hcreates := (FenceSystem.creates_entry hb hlive hrem).trans hfence
      rw [hcreates]
      intro m' hm'
      obtain rfl : m = m' := Option.some.inj (h.manager.symm.trans hm')
      by_contra hne
      rw [fenceCreate_manager h.manager hne] at hret
      exact hret rfl

theorem managerInv_init : ManagerInv (.init .withManager) .init where
  manager := rfl
  fresh := nofun
  known := nofun
  distinct := List.nodup_nil
  nonzero := List.not_mem_nil
  first := fun hne => absurd rfl hne
  own := nofun
  unfinished := nofun
  granted := nofun
  counter := .inl ⟨rfl, nofun⟩

theorem manager_fences_iff (ops : List FenceOp) :
    Always FenceSystem.step FencesSound (.init .withManager) ops ↔
      Guarded FenceSystem.step FenceSystem.managerGuard (.init .withManager) ops :=
  always_iff_guarded managerInv_step (fun _ ⟨_, h⟩ => h.sound) managerGuard_of_sound ops
    ⟨_, managerInv_init⟩

end Manager

/-! ### Both backings -/

section Both

/-- Nothing has been created with either backing. -/
structure Untouched (x : FenceSystem × FenceSystem) : Prop where
  legacy : x.1.ctx = .legacy
  manager : x.2.ctx = .withManager
  batches : x.1.batches = x.2.batches
  answers : x.1.answers = x.2.answers

variable {x : FenceSystem × FenceSystem}

theorem create_answers (s : FenceSystem) :
    s.create.answers = (s.ctx.fenceCreate.1, s.ctx.fenceCreate.2.1) :: s.answers := by
  unfold FenceSystem.create
  by_cases hret : s.ctx.fenceCreate.1 = 0
  · simp only [if_pos hret]
  · simp only [if_neg hret]

/-- The first fence is 0 in the table and 1 in the manager. -/
theorem Untouched.create_ne (h : Untouched x) :
    x.1.create.answers ≠ x.2.create.answers := by
  rw [create_answers, create_answers, h.legacy, h.manager]
  intro heq
  have hfirst : (0, 0) = ((0, 1) : Int × UInt64) := (List.cons.inj heq).1
  exact absurd hfirst (by decide)

theorem Untouched.next (h : Untouched x) (i : ℕ) : x.1.next i = x.2.next i := by
  simp only [FenceSystem.next, h.batches]

/-- An entry that creates no fence changes its batch only. -/
theorem stepEntry_of_not_creates {s : FenceSystem} {i : ℕ} (h : s.creates (.entry i) = false) :
    (s.stepEntry i).ctx = s.ctx ∧ (s.stepEntry i).answers = s.answers := by
  obtain ⟨s', hnext, hstep⟩ := s.exists_entryStep i
  rw [hnext]
  cases hstep with
  | idle => exact ⟨rfl, rfl⟩
  | printed => exact ⟨rfl, rfl⟩
  | granted hb hlive hrem hfence =>
    rw [FenceSystem.creates_entry hb hlive hrem, hfence] at h
    exact absurd h (by decide)
  | refused hb hlive hrem hfence =>
    rw [FenceSystem.creates_entry hb hlive hrem, hfence] at h
    exact absurd h (by decide)

theorem stepEntry_of_creates {s : FenceSystem} {i : ℕ} (h : s.creates (.entry i) = true) :
    (s.stepEntry i).answers = s.create.answers := by
  obtain ⟨s', hnext, hstep⟩ := s.exists_entryStep i
  rw [hnext]
  cases hstep with
  | idle hidle => simp [FenceSystem.creates, hidle] at h
  | printed hb hlive hrem hfence =>
    rw [FenceSystem.creates_entry hb hlive hrem, hfence] at h
    exact absurd h (by decide)
  | granted => rfl
  | refused => rfl

theorem Untouched.stepEntry_batches (h : Untouched x) {i : ℕ}
    (hcreates : x.1.creates (.entry i) = false) :
    (x.1.stepEntry i).batches = (x.2.stepEntry i).batches := by
  unfold FenceSystem.stepEntry
  rw [← h.batches]
  rcases hb : x.1.batches[i]? with _ | ⟨_ | ⟨e, rest⟩, fences, _ | _⟩
  · exact h.batches
  · exact h.batches
  · exact h.batches
  · have hfence : e.isFence = false := by
      rwa [FenceSystem.creates_entry hb rfl rfl] at hcreates
    simp only [hfence]
    rfl
  · exact h.batches

/-- The table answers an id of its range, which the manager does not know. -/
theorem Untouched.read_iff (h : Untouched x) (fenceId : UInt64) :
    x.1.ctx.fenceRead fenceId = x.2.ctx.fenceRead fenceId ↔ halMaxFences ≤ fenceId.toNat := by
  rw [h.legacy, h.manager]
  have hmanager : HalFenceContext.withManager.fenceRead fenceId = (-eINVAL, 0) := rfl
  rw [hmanager]
  by_cases hle : halMaxFences ≤ fenceId.toNat
  · simp only [HalFenceContext.fenceRead, HalFenceContext.legacy, if_pos hle]
    exact iff_of_true trivial hle
  · have hlegacy : HalFenceContext.legacy.fenceRead fenceId = (0, 0) := by
      simp only [HalFenceContext.fenceRead, HalFenceContext.legacy, if_neg hle]
      rfl
    rw [hlegacy]
    exact iff_of_false (by decide) hle

theorem untouched_step (x : FenceSystem × FenceSystem) (op : FenceOp) (h : Untouched x)
    (hG : sameGuard x op) : Untouched (bothStep x op) := by
  obtain ⟨hcreates, hread⟩ := hG
  cases op with
  | create => exact absurd hcreates (by simp [FenceSystem.creates])
  | submit entries =>
    refine ⟨h.legacy, h.manager, ?_, h.answers⟩
    exact congrArg (fun bs => bs ++ [(⟨entries, [], false⟩ : SyncBatch)]) h.batches
  | read fenceId =>
    refine ⟨h.legacy, h.manager, h.batches, ?_⟩
    exact congrArg₂ List.cons ((h.read_iff fenceId).mpr hread) h.answers
  | entry i =>
    have hcreates' : x.2.creates (.entry i) = false := by
      rwa [FenceSystem.creates, ← h.next i]
    have hsame : (x.1.stepEntry i).batches = (x.2.stepEntry i).batches :=
      h.stepEntry_batches hcreates
    obtain ⟨hctx₁, hanswers₁⟩ := stepEntry_of_not_creates hcreates
    obtain ⟨hctx₂, hanswers₂⟩ := stepEntry_of_not_creates hcreates'
    exact ⟨hctx₁.trans h.legacy, hctx₂.trans h.manager, hsame,
      hanswers₁.trans (h.answers.trans hanswers₂.symm)⟩

theorem sameGuard_of_same (x : FenceSystem × FenceSystem) (op : FenceOp) (h : Untouched x)
    (hsame : SameAnswers (bothStep x op)) : sameGuard x op := by
  cases op with
  | create => exact absurd hsame h.create_ne
  | submit entries => exact ⟨rfl, trivial⟩
  | read fenceId => exact ⟨rfl, (h.read_iff fenceId).mp (List.cons.inj hsame).1⟩
  | entry i =>
    refine ⟨Bool.eq_false_iff.mpr fun hcreates => ?_, trivial⟩
    have hcreates' : x.2.creates (.entry i) = true := by
      rwa [FenceSystem.creates, ← h.next i]
    refine h.create_ne ?_
    rw [← stepEntry_of_creates hcreates, ← stepEntry_of_creates hcreates']
    exact hsame

theorem untouched_init : Untouched (.init .legacy, .init .withManager) := ⟨rfl, rfl, rfl, rfl⟩

theorem same_answers_iff (ops : List FenceOp) :
    Always bothStep SameAnswers (.init .legacy, .init .withManager) ops ↔
      Guarded bothStep sameGuard (.init .legacy, .init .withManager) ops :=
  always_iff_guarded untouched_step (fun _ h => h.answers) sameGuard_of_same ops untouched_init

end Both

/-! ### The fences of every history -/

theorem hal_fences_iff (ops : List FenceOp) :
    HalFencesSound ops ↔
      Guarded FenceSystem.step FenceSystem.legacyGuard (.init .legacy) ops ∧
        Guarded FenceSystem.step FenceSystem.managerGuard (.init .withManager) ops ∧
          Guarded bothStep sameGuard (.init .legacy, .init .withManager) ops := by
  rw [← legacy_fences_iff, ← manager_fences_iff, ← same_answers_iff]
  exact ⟨fun h => ⟨h.legacy, h.manager, h.same⟩, fun h => ⟨h.1, h.2.1, h.2.2⟩⟩

/-- A batch of one FENCE entry is complete, and with the manager its fence is not signaled. -/
theorem hal_fences_fails :
    ¬ HalFencesSound [.submit [{ GpuGpfifoEntry.zero with valid := true, method := gpuOpFence }],
      .entry 0] := by
  intro h
  have hexact := (h.manager.last).exact ⟨[], [1], false⟩ List.mem_cons_self 1 List.mem_cons_self
  exact absurd hexact (by decide)

end UsrLinuxEmu.GpuDriver
