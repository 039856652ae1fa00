import Mathlib.Algebra.Order.Ring.Nat
import Mathlib.Data.Multiset.Bind
import Mathlib.Data.Multiset.Count
import Mathlib.Logic.Function.Basic
import UsrLinuxEmu.GpuDriver.GpuTypes
import UsrLinuxEmu.Transition.Run

/-!
# The buffers of a KFD queue (`drv/kfd/kfd_queue.c`)

A queue holds references to the buffer objects that its properties point to, and counts itself in
the mappings of these objects.

* `kfdQueueBufferGet`, `kfdQueueAcquireBuffers`, `kfdQueueUnrefBoVas`, `kfdQueueReleaseBuffers`,
  … — the functions, with the calls that they make to the DRM driver;
* `RefsAre` — whose the references taken by these calls and the counts are;
* `acquire_refs` — what an attempt to acquire leaves, on every path;
* `queueBuffers_accounted_iff` — along a run, the references and the counts are those of the
  queues, exactly when every reservation for a clean-up succeeds.
-/

namespace UsrLinuxEmu.GpuDriver

open UsrLinuxEmu.Transition

/-! ### The interface of the DRM driver -/

/-- A mapped range of GPU pages. -/
structure AmdgpuBoVaMapping where
  start : UInt64
  last : UInt64
  boVa : ℕ

/-- What is asked of the DRM driver, whose code is elsewhere: the mappings of the VM and their
objects, which stay as they are, the pointer that `amdgpu_bo_ref` returns, and what
`amdgpu_bo_unref` leaves in a pointer.  A reference is had through the pointer that it is asked for
with, and the mapping of an object in a VM is unique. -/
structure AmdgpuDriver where
  lookupMapping : UInt64 → Option AmdgpuBoVaMapping
  boOf : ℕ → ℕ
  vmBoFind : ℕ → Option ℕ
  boRef : ℕ → ℕ
  boUnref : Option ℕ → Option ℕ
  ref_same : ∀ bo, boRef bo = bo
  find_mapped : ∀ a m, lookupMapping a = some m → vmBoFind (boOf m.boVa) = some m.boVa

/-- A call of the driver, with the result of a reservation. -/
inductive AmdgpuCall where
  | boRef (bo : ℕ)
  | boUnref (bo : Option ℕ)
  | boReserve (result : ℤ)
  | boUnreserve
  deriving DecidableEq

/-- The calls that have been made, the last first, and the counts of the mappings. -/
structure KfdRefs where
  calls : List AmdgpuCall
  queueRefcount : ℕ → Int32

namespace KfdRefs

def none : KfdRefs := ⟨[], fun _ => 0⟩

def called (r : KfdRefs) (c : AmdgpuCall) : KfdRefs := { r with calls := c :: r.calls }

def addQueueRefcount (r : KfdRefs) (va : ℕ) (n : Int32) : KfdRefs :=
  { r with queueRefcount := Function.update r.queueRefcount va (r.queueRefcount va + n) }

end KfdRefs

/-! ### Queue properties and topology -/

inductive KfdQueueType where
  | compute
  | sdma
  deriving DecidableEq, Repr

/-- The buffer object pointers of the properties, in the order in which they are released. -/
inductive BoSlot where
  | wptr
  | rptr
  | ring
  | eopBuf
  | cwsr
  deriving DecidableEq, Repr

def BoSlot.all : List BoSlot := [.wptr, .rptr, .ring, .eopBuf, .cwsr]

/-- The fields that the functions below read or write. -/
structure QueueProperties where
  type : KfdQueueType
  queueAddress : UInt64
  queueSize : UInt64
  readPtr : UInt64
  writePtr : UInt64
  eopRingBufferAddress : UInt64
  eopRingBufferSize : UInt32
  ctxSaveRestoreAreaAddress : UInt64
  ctxSaveRestoreAreaSize : UInt32
  ctlStackSize : UInt32
  bo : BoSlot → Option ℕ

def QueueProperties.setBo (p : QueueProperties) (slot : BoSlot) (bo : Option ℕ) :
    QueueProperties :=
  { p with bo := Function.update p.bo slot bo }

@[simp] theorem QueueProperties.type_setBo (p : QueueProperties) (slot : BoSlot)
    (bo : Option ℕ) : (p.setBo slot bo).type = p.type := rfl

theorem QueueProperties.setBo_of_ne (p : QueueProperties) {slot other : BoSlot}
    (hne : other ≠ slot) (bo : Option ℕ) : (p.setBo slot bo).bo other = p.bo other :=
  Function.update_of_ne hne _ _

structure KfdNodeProperties where
  ctlStackSize : UInt32
  cwsrSize : UInt32
  debugMemorySize : UInt32
  eopBufferSize : UInt32

/-- `kfd_static_topo`, the only device. -/
def kfdStaticTopo : KfdNodeProperties := ⟨4096, 8192, 0, 0⟩

def kfdTopologyDeviceById (gpuId : UInt32) : Option KfdNodeProperties :=
  if gpuId = 0 then some kfdStaticTopo else none

def queuePageSize : UInt64 := 4096

/-- `NUM_XCC` is one. -/
def KfdNodeProperties.totalCwsrSize (node : KfdNodeProperties) : UInt32 :=
  (node.cwsrSize + node.debugMemorySize + 4096 - 1) &&& ~~~(4096 - 1)

/-! ### The functions -/

section Functions

variable (topo : UInt32 → Option KfdNodeProperties) (drv : AmdgpuDriver)

/-- The code, and the buffer object for `*pbo`. -/
def kfdQueueBufferGet (addr expectedSize : UInt64) (r : KfdRefs) : ℤ × Option ℕ × KfdRefs :=
  let userAddr := addr >>> 12
  let size := expectedSize >>> 12
  match drv.lookupMapping userAddr with
  | none => (-eINVAL, none, r)
  | some mapping =>
    if userAddr ≠ mapping.start ∨ (size ≠ 0 ∧ userAddr + size - 1 ≠ mapping.last) then
      (-eINVAL, none, r)
    else
      let bo := drv.boOf mapping.boVa
      (0, some (drv.boRef bo), (r.called (.boRef bo)).addQueueRefcount mapping.boVa 1)

/-- A buffer for one of the pointers. -/
def bufferGetInto (slot : BoSlot) (addr expectedSize : UInt64) (p : QueueProperties)
    (r : KfdRefs) : ℤ × QueueProperties × KfdRefs :=
  match kfdQueueBufferGet drv addr expectedSize r with
  | (err, bo, r) => (err, p.setBo slot bo, r)

/-- Shared virtual memory is configured out. -/
def kfdQueueBufferSvmGet : ℤ := -eINVAL

def kfdQueueUnrefBoVa (r : KfdRefs) (bo : Option ℕ) : KfdRefs :=
  match bo with
  | none => r
  | some bo =>
    match drv.vmBoFind bo with
    | none => r
    | some va => if r.queueRefcount va ≠ 0 then r.addQueueRefcount va (-1) else r

def kfdQueueUnrefBoVasLocked (p : QueueProperties) (r : KfdRefs) : KfdRefs :=
  BoSlot.all.foldl (fun r slot => kfdQueueUnrefBoVa drv r (p.bo slot)) r

def kfdQueueUnrefBoVas (reserve : ℤ) (p : QueueProperties) (r : KfdRefs) : ℤ × KfdRefs :=
  let r := r.called (.boReserve reserve)
  if reserve ≠ 0 then (reserve, r)
  else (0, (kfdQueueUnrefBoVasLocked drv p r).called .boUnreserve)

/-- `amdgpu_bo_unref` of a pointer of the properties. -/
def unrefSlot (out : QueueProperties × KfdRefs) (slot : BoSlot) : QueueProperties × KfdRefs :=
  (out.1.setBo slot (drv.boUnref (out.1.bo slot)), out.2.called (.boUnref (out.1.bo slot)))

def kfdQueueReleaseBuffers (dev : UInt32) (p : QueueProperties) (r : KfdRefs) :
    ℤ × QueueProperties × KfdRefs :=
  let out := BoSlot.all.foldl (unrefSlot drv) (p, r)
  match topo dev with
  | none => (-eINVAL, out)
  | some _ => (0, out)

/-- The label `out_err_unreserve`. -/
def outErrUnreserve (dev : UInt32) (err : ℤ) (p : QueueProperties) (r : KfdRefs) :
    ℤ × QueueProperties × KfdRefs :=
  let r := (kfdQueueUnrefBoVasLocked drv p r).called .boUnreserve
  (err, (kfdQueueReleaseBuffers topo drv dev p r).2)

/-- The label `out_err_release`, which has to reserve again. -/
def outErrRelease (dev : UInt32) (err reserveAgain : ℤ) (p : QueueProperties) (r : KfdRefs) :
    ℤ × QueueProperties × KfdRefs :=
  let r := (kfdQueueUnrefBoVas drv reserveAgain p r).2
  (err, (kfdQueueReleaseBuffers topo drv dev p r).2)

/-- A buffer, or the label `out_err_unreserve`; `next` is what follows. -/
def bufferGetOr (dev : UInt32) (slot : BoSlot) (addr expectedSize : UInt64) (p : QueueProperties)
    (r : KfdRefs) (next : QueueProperties → KfdRefs → ℤ × QueueProperties × KfdRefs) :
    ℤ × QueueProperties × KfdRefs :=
  match bufferGetInto drv slot addr expectedSize p r with
  | (err, p, r) => if err ≠ 0 then outErrUnreserve topo drv dev err p r else next p r

/-- The save area of a compute queue, after all other buffers. -/
def acquireCwsr (dev : UInt32) (node : KfdNodeProperties) (reserveAgain : ℤ)
    (p : QueueProperties) (r : KfdRefs) : ℤ × QueueProperties × KfdRefs :=
  if p.ctlStackSize ≠ node.ctlStackSize then outErrUnreserve topo drv dev (-eINVAL) p r
  else if p.ctxSaveRestoreAreaSize ≠ node.cwsrSize then
    outErrUnreserve topo drv dev (-eINVAL) p r
  else
    match bufferGetInto drv .cwsr p.ctxSaveRestoreAreaAddress node.totalCwsrSize.toUInt64 p r with
    | (err, p, r) =>
      let r := r.called .boUnreserve
      if err = 0 then (0, p, r)
      else
        let err := kfdQueueBufferSvmGet
        if err ≠ 0 then outErrRelease topo drv dev err reserveAgain p r
        else (0, p, r)

/-- What only a compute queue needs. -/
def acquireCompute (dev : UInt32) (node : KfdNodeProperties) (reserveAgain : ℤ)
    (p : QueueProperties) (r : KfdRefs) : ℤ × QueueProperties × KfdRefs :=
  if p.eopRingBufferAddress ≠ 0 then
    if p.eopRingBufferSize ≠ node.eopBufferSize then outErrUnreserve topo drv dev (-eINVAL) p r
    else
      bufferGetOr topo drv dev .eopBuf p.eopRingBufferAddress p.eopRingBufferSize.toUInt64 p r
        (acquireCwsr topo drv dev node reserveAgain)
  else acquireCwsr topo drv dev node reserveAgain p r

/-- `reserve` and `reserveAgain` are what the reservations come to, in the order of the calls. -/
def kfdQueueAcquireBuffers (dev : UInt32) (reserve reserveAgain : ℤ) (p : QueueProperties)
    (r : KfdRefs) : ℤ × QueueProperties × KfdRefs :=
  match topo dev with
  | none => (-eINVAL, p, r)
  | some node =>
    let r := r.called (.boReserve reserve)
    if reserve ≠ 0 then (reserve, p, r)
    else
      bufferGetOr topo drv dev .wptr p.writePtr queuePageSize p r fun p r =>
        bufferGetOr topo drv dev .rptr p.readPtr queuePageSize p r fun p r =>
          bufferGetOr topo drv dev .ring p.queueAddress p.queueSize p r fun p r =>
            if p.type ≠ .compute then (0, p, r.called .boUnreserve)
            else acquireCompute topo drv dev node reserveAgain p r

end Functions

/-! ### Whose references they are -/

/-- The references to an object that the calls have taken and not given back. -/
def boRefs (bo : ℕ) : List AmdgpuCall → ℤ
  | [] => 0
  | .boRef bo' :: calls => boRefs bo calls + if bo' = bo then 1 else 0
  | .boUnref bo' :: calls => boRefs bo calls - if bo' = some bo then 1 else 0
  | .boReserve _ :: calls => boRefs bo calls
  | .boUnreserve :: calls => boRefs bo calls

/-- Whether the root is reserved; there is no answer where the calls have reserved it twice, or let
go of it without having it. -/
def rootReserved : List AmdgpuCall → Option Bool
  | [] => some false
  | .boReserve result :: calls =>
    (rootReserved calls).bind fun held => if held then none else some (result == 0)
  | .boUnreserve :: calls =>
    (rootReserved calls).bind fun held => if held then some false else none
  | .boRef _ :: calls => rootReserved calls
  | .boUnref _ :: calls => rootReserved calls

/-- The references are those of `bos` and the counts those of `vas`. -/
structure RefsAre (r : KfdRefs) (bos vas : Multiset ℕ) : Prop where
  refs : ∀ bo, boRefs bo r.calls = bos.count bo
  counts : ∀ va, r.queueRefcount va = Int32.ofNat (vas.count va)

theorem refsAre_none : RefsAre .none 0 0 := ⟨fun _ => rfl, fun _ => rfl⟩

theorem ofNat_count_inj {vas vas' : Multiset ℕ} (hvas : vas.card < 2 ^ 31)
    (hvas' : vas'.card < 2 ^ 31) {va : ℕ}
    (h : Int32.ofNat (vas.count va) = Int32.ofNat (vas'.count va)) :
    vas.count va = vas'.count va := by
  have hlt := lt_of_le_of_lt (Multiset.count_le_card va vas) hvas
  have hlt' := lt_of_le_of_lt (Multiset.count_le_card va vas') hvas'
  have hint := congrArg Int32.toInt h
  rw [Int32.toInt_ofNat_of_lt hlt, Int32.toInt_ofNat_of_lt hlt'] at hint
  exact Int.ofNat.inj hint

/-- What there is determines whose it is, as long as no count overflows. -/
theorem RefsAre.unique_vas {r : KfdRefs} {bos vas bos' vas' : Multiset ℕ} (h : RefsAre r bos vas)
    (h' : RefsAre r bos' vas') (hvas : vas.card < 2 ^ 31) (hvas' : vas'.card < 2 ^ 31) :
    vas = vas' :=
  Multiset.ext.mpr fun va => ofNat_count_inj hvas hvas' ((h.counts va).symm.trans (h'.counts va))

namespace RefsAre

variable {r : KfdRefs} {bos vas : Multiset ℕ}

theorem reserve (h : RefsAre r bos vas) (result : ℤ) :
    RefsAre (r.called (.boReserve result)) bos vas :=
  ⟨h.refs, h.counts⟩

theorem unreserve (h : RefsAre r bos vas) : RefsAre (r.called .boUnreserve) bos vas :=
  ⟨h.refs, h.counts⟩

theorem get (h : RefsAre r bos vas) (bo va : ℕ) :
    RefsAre ((r.called (.boRef bo)).addQueueRefcount va 1) (bo ::ₘ bos) (va ::ₘ vas) where
  refs := by
    intro b
    show boRefs b r.calls + (if bo = b then 1 else 0) = _
    by_cases hb : bo = b
    · subst hb
      rw [if_pos rfl, Multiset.count_cons_self, h.refs]
      omega
    · rw [if_neg hb, Multiset.count_cons_of_ne (Ne.symm hb), h.refs]
      omega
  counts := by
    intro v
    show Function.update r.queueRefcount va (r.queueRefcount va + 1) v = _
    by_cases hv : v = va
    · subst hv
      rw [Function.update_self, Multiset.count_cons_self, h.counts, Int32.ofNat_add]
      rfl
    · rw [Function.update_of_ne hv, Multiset.count_cons_of_ne hv, h.counts]

theorem unref {bo : ℕ} (h : RefsAre r (bo ::ₘ bos) vas) :
    RefsAre (r.called (.boUnref (some bo))) bos vas where
  refs := by
    intro b
    show boRefs b r.calls - (if some bo = some b then 1 else 0) = _
    by_cases hb : bo = b
    · subst hb
      rw [if_pos rfl, h.refs, Multiset.count_cons_self]
      omega
    · rw [if_neg fun hsome => hb (Option.some.inj hsome), h.refs,
        Multiset.count_cons_of_ne (Ne.symm hb)]
      omega
  counts := h.counts

theorem unref_null (h : RefsAre r bos vas) : RefsAre (r.called (.boUnref none)) bos vas where
  refs := by
    intro b
    show boRefs b r.calls - (if none = some b then 1 else 0) = _
    rw [if_neg nofun, h.refs]
    omega
  counts := h.counts

theorem uncount {va : ℕ} (h : RefsAre r bos (va ::ₘ vas)) (hroom : (va ::ₘ vas).card < 2 ^ 31) :
    RefsAre (if r.queueRefcount va ≠ 0 then r.addQueueRefcount va (-1) else r) bos vas := by
  have hcount : r.queueRefcount va = Int32.ofNat (vas.count va + 1) := by
    rw [h.counts, Multiset.count_cons_self]
  have hpos : r.queueRefcount va ≠ 0 := by
    intro hzero
    have hlt := lt_of_le_of_lt (Multiset.count_le_card va (va ::ₘ vas)) hroom
    rw [Multiset.count_cons_self] at hlt
    have hint := congrArg Int32.toInt (hcount.symm.trans hzero)
    rw [Int32.toInt_ofNat_of_lt hlt, Int32.toInt_zero] at hint
    omega
  rw [if_pos hpos]
  refine ⟨h.refs, fun v => ?_⟩
  show Function.update r.queueRefcount va (r.queueRefcount va + -1) v = _
  by_cases hv : v = va
  · subst hv
    rw [Function.update_self, hcount, Int32.ofNat_add, Int32.add_assoc]
    exact Int32.add_zero _
  · rw [Function.update_of_ne hv, h.counts, Multiset.count_cons_of_ne hv]

end RefsAre

/-! ### What a queue holds -/

namespace QueueProperties

variable (drv : AmdgpuDriver) (p : QueueProperties)

/-- The buffer objects that the pointers of these slots lead to. -/
def bosOf (slots : List BoSlot) : List ℕ := slots.filterMap p.bo

/-- The buffer objects that the properties point to. -/
def heldBos : List ℕ := p.bosOf BoSlot.all

/-- The mappings of these objects. -/
def heldVas : List ℕ := p.heldBos.filterMap drv.vmBoFind

end QueueProperties

/-- A mapping starts at the address and, where a size is asked for, has it. -/
def AmdgpuDriver.bufferThere (drv : AmdgpuDriver) (addr expectedSize : UInt64) : Bool :=
  match drv.lookupMapping (addr >>> 12) with
  | none => false
  | some mapping =>
    ¬(addr >>> 12 ≠ mapping.start ∨ (expectedSize >>> 12 ≠ 0 ∧
      addr >>> 12 + expectedSize >>> 12 - 1 ≠ mapping.last))

/-- Beside what the queue holds, the references are those of `bos` and `vas`, and the root is
reserved if `held`. -/
structure Owns (drv : AmdgpuDriver) (bos vas : Multiset ℕ) (held : Bool) (p : QueueProperties)
    (r : KfdRefs) : Prop where
  refs : RefsAre r ((p.heldBos : Multiset ℕ) + bos) ((p.heldVas drv : Multiset ℕ) + vas)
  root : rootReserved r.calls = some held

section Held

variable {drv : AmdgpuDriver} {p : QueueProperties} {r : KfdRefs} {bos vas : Multiset ℕ}
  {held : Bool}

theorem Owns.reserve (h : Owns drv bos vas false p r) (result : ℤ) :
    Owns drv bos vas (result == 0) p (r.called (.boReserve result)) where
  refs := h.refs.reserve result
  root := by
    show (rootReserved r.calls).bind _ = _
    rw [h.root]
    rfl

theorem Owns.unreserve (h : Owns drv bos vas true p r) :
    Owns drv bos vas false p (r.called .boUnreserve) where
  refs := h.refs.unreserve
  root := by
    show (rootReserved r.calls).bind _ = _
    rw [h.root]
    rfl

/-- A queue has five pointers, and at most as many counts. -/
theorem length_heldVas_le : (p.heldVas drv).length ≤ 5 :=
  (List.length_filterMap_le _ _).trans (List.length_filterMap_le _ _)

/-- A further queue leaves every count below the largest `int`. -/
def HasRoom (vas : Multiset ℕ) : Prop := vas.card + 5 < 2 ^ 31

theorem unrefLocked_refs (slots : List BoSlot)
    (h : RefsAre r bos (((p.bosOf slots).filterMap drv.vmBoFind : List ℕ) + vas))
    (hroom : vas.card + slots.length < 2 ^ 31) :
    RefsAre (slots.foldl (fun r slot => kfdQueueUnrefBoVa drv r (p.bo slot)) r) bos vas := by
  induction slots generalizing r with
  | nil => simpa [QueueProperties.bosOf] using h
  | cons slot slots ih =>
    rw [List.length_cons] at hroom
    rw [List.foldl_cons]
    refine ih ?_ (by omega)
    rw [QueueProperties.bosOf, List.filterMap_cons] at h
    cases hbo : p.bo slot with
    | none =>
      rw [hbo] at h
      exact h
    | some bo =>
      rw [hbo] at h
      dsimp only at h
      rw [List.filterMap_cons] at h
      rw [kfdQueueUnrefBoVa]
      cases hva : drv.vmBoFind bo with
      | none =>
        rw [hva] at h
        exact h
      | some va =>
        rw [hva] at h
        dsimp only at h ⊢
        rw [← Multiset.cons_coe, Multiset.cons_add] at h
        refine h.uncount ?_
        have hlen := (List.length_filterMap_le drv.vmBoFind (slots.filterMap p.bo)).trans
          (List.length_filterMap_le p.bo slots)
        rw [Multiset.card_cons, Multiset.card_add, Multiset.coe_card]
        omega

theorem calls_unrefBoVa (bo : Option ℕ) : (kfdQueueUnrefBoVa drv r bo).calls = r.calls := by
  unfold kfdQueueUnrefBoVa
  repeat' split
  all_goals rfl

theorem calls_unrefLocked (slots : List BoSlot) :
    (slots.foldl (fun r slot => kfdQueueUnrefBoVa drv r (p.bo slot)) r).calls = r.calls := by
  induction slots generalizing r with
  | nil => rfl
  | cons slot slots ih => rw [List.foldl_cons, ih, calls_unrefBoVa]

/-- The counts of the queue are given back. -/
theorem Owns.unrefLocked (h : Owns drv bos vas held p r) (hroom : HasRoom vas) :
    RefsAre (kfdQueueUnrefBoVasLocked drv p r) ((p.heldBos : Multiset ℕ) + bos) vas ∧
      rootReserved (kfdQueueUnrefBoVasLocked drv p r).calls = some held := by
  rw [kfdQueueUnrefBoVasLocked, calls_unrefLocked]
  exact ⟨unrefLocked_refs BoSlot.all h.refs hroom, h.root⟩

theorem bosOf_setBo {slot : BoSlot} {slots : List BoSlot} (hslot : slot ∉ slots)
    (bo : Option ℕ) : (p.setBo slot bo).bosOf slots = p.bosOf slots := by
  refine List.filterMap_congr fun other hother => ?_
  have hne : other ≠ slot := fun heq => hslot (heq ▸ hother)
  exact p.setBo_of_ne hne bo

/-- The references of the pointers of these slots are given back, each once. -/
theorem releaseBos_refs (slots : List BoSlot) (hnodup : slots.Nodup)
    (h : RefsAre r ((p.bosOf slots : List ℕ) + bos) vas) :
    RefsAre (slots.foldl (unrefSlot drv) (p, r)).2 bos vas := by
  induction slots generalizing p r with
  | nil => simpa [QueueProperties.bosOf] using h
  | cons slot slots ih =>
    rw [List.nodup_cons] at hnodup
    rw [List.foldl_cons]
    refine ih hnodup.2 ?_
    rw [bosOf_setBo hnodup.1]
    rw [QueueProperties.bosOf, List.filterMap_cons] at h
    cases hbo : p.bo slot with
    | none =>
      rw [hbo] at h
      exact h.unref_null
    | some bo =>
      rw [hbo] at h
      dsimp only at h
      rw [← Multiset.cons_coe, Multiset.cons_add] at h
      exact h.unref

theorem rootReserved_releaseBos (slots : List BoSlot) :
    rootReserved (slots.foldl (unrefSlot drv) (p, r)).2.calls = rootReserved r.calls := by
  induction slots generalizing p r with
  | nil => rfl
  | cons slot slots ih =>
    rw [List.foldl_cons]
    exact ih

theorem filterMap_update_perm {f : BoSlot → Option ℕ} {slot : BoSlot} (hnull : f slot = none)
    (bo : ℕ) {slots : List BoSlot} (hmem : slot ∈ slots) (hnodup : slots.Nodup) :
    (slots.filterMap (Function.update f slot (some bo))).Perm (bo :: slots.filterMap f) := by
  induction slots with
  | nil => exact absurd hmem List.not_mem_nil
  | cons head slots ih =>
    rw [List.nodup_cons] at hnodup
    rw [List.filterMap_cons, List.filterMap_cons]
    by_cases hhead : head = slot
    · subst hhead
      have htail : slots.filterMap (Function.update f head (some bo)) = slots.filterMap f := by
        refine List.filterMap_congr fun other hother => ?_
        have hne : other ≠ head := fun heq => hnodup.1 (heq ▸ hother)
        rw [Function.update_of_ne hne]
      rw [Function.update_self, hnull, htail]
    · rw [Function.update_of_ne hhead]
      have hrest := ih ((List.mem_cons.mp hmem).resolve_left (Ne.symm hhead)) hnodup.2
      cases f head with
      | none => exact hrest
      | some b => exact (hrest.cons b).trans (List.Perm.swap bo b _)

/-- Filling a null pointer adds one object. -/
theorem heldBos_setBo {slot : BoSlot} (hnull : p.bo slot = none) (bo : ℕ) :
    ((p.setBo slot (some bo)).heldBos : Multiset ℕ) = bo ::ₘ (p.heldBos : Multiset ℕ) := by
  rw [Multiset.cons_coe, Multiset.coe_eq_coe]
  exact filterMap_update_perm hnull bo (by cases slot <;> decide) (by decide)

theorem heldVas_setBo {slot : BoSlot} (hnull : p.bo slot = none) {bo va : ℕ}
    (hva : drv.vmBoFind bo = some va) :
    ((p.setBo slot (some bo)).heldVas drv : Multiset ℕ) = va ::ₘ (p.heldVas drv : Multiset ℕ) := by
  have hperm := Multiset.coe_eq_coe.mp (heldBos_setBo hnull bo)
  rw [Multiset.cons_coe, Multiset.coe_eq_coe]
  refine (hperm.filterMap drv.vmBoFind).trans ?_
  rw [List.filterMap_cons, hva]
  rfl

theorem setBo_none {slot : BoSlot} (hnull : p.bo slot = none) : p.setBo slot none = p := by
  rw [QueueProperties.setBo, ← hnull, Function.update_eq_self]

/-- A buffer that is mapped is had and held. -/
theorem bufferGetInto_there {slot : BoSlot} (hnull : p.bo slot = none)
    (h : Owns drv bos vas held p r) {addr expectedSize : UInt64}
    (hthere : drv.bufferThere addr expectedSize = true) :
    ∃ bo va r', drv.vmBoFind bo = some va ∧
      bufferGetInto drv slot addr expectedSize p r = (0, p.setBo slot (some bo), r') ∧
      Owns drv bos vas held (p.setBo slot (some bo)) r' := by
  rw [AmdgpuDriver.bufferThere] at hthere
  rw [bufferGetInto, kfdQueueBufferGet]
  cases hlookup : drv.lookupMapping (addr >>> 12) with
  | none =>
    rw [hlookup] at hthere
    nomatch hthere
  | some mapping =>
    rw [hlookup] at hthere
    have hsize := of_decide_eq_true hthere
    have hfind := drv.find_mapped _ _ hlookup
    refine ⟨drv.boOf mapping.boVa, mapping.boVa,
      (r.called (.boRef (drv.boOf mapping.boVa))).addQueueRefcount mapping.boVa 1, hfind, ?_, ?_,
      ?_⟩
    · simp only [if_neg hsize, drv.ref_same]
    · rw [heldBos_setBo hnull, heldVas_setBo hnull hfind, Multiset.cons_add, Multiset.cons_add]
      exact h.refs.get _ _
    · exact h.root

/-- Otherwise nothing happens. -/
theorem bufferGetInto_missing {slot : BoSlot} (hnull : p.bo slot = none)
    {addr expectedSize : UInt64} (hthere : drv.bufferThere addr expectedSize = false) :
    bufferGetInto drv slot addr expectedSize p r = (-eINVAL, p, r) := by
  rw [AmdgpuDriver.bufferThere] at hthere
  rw [bufferGetInto, kfdQueueBufferGet]
  cases hlookup : drv.lookupMapping (addr >>> 12) with
  | none => simp only [setBo_none hnull]
  | some mapping =>
    rw [hlookup] at hthere
    have hsize := not_not.mp (of_decide_eq_false hthere)
    simp only [if_pos hsize, setBo_none hnull]

end Held

/-! ### What an attempt to acquire leaves -/

section Acquire

variable (topo : UInt32 → Option KfdNodeProperties) (drv : AmdgpuDriver) (dev : UInt32)

/-- The save area is the one buffer that is missing. -/
def cwsrMissing (node : KfdNodeProperties) (p : QueueProperties) : Bool :=
  p.ctlStackSize = node.ctlStackSize && p.ctxSaveRestoreAreaSize = node.cwsrSize &&
    !drv.bufferThere p.ctxSaveRestoreAreaAddress node.totalCwsrSize.toUInt64

def computeMissesCwsr (node : KfdNodeProperties) (p : QueueProperties) : Bool :=
  (p.eopRingBufferAddress = 0 || (p.eopRingBufferSize = node.eopBufferSize &&
    drv.bufferThere p.eopRingBufferAddress p.eopRingBufferSize.toUInt64)) && cwsrMissing drv node p

/-- The attempt has to reserve the root a second time, to clean up. -/
def reservesAgain (reserve : ℤ) (p : QueueProperties) : Bool :=
  match topo dev with
  | none => false
  | some node =>
    reserve = 0 && drv.bufferThere p.writePtr queuePageSize &&
      drv.bufferThere p.readPtr queuePageSize && drv.bufferThere p.queueAddress p.queueSize &&
      p.type = .compute && computeMissesCwsr drv node p

/-- The queue has its buffers, or else all is as it was but for counts that a second reservation
which failed has left behind; the root is free. -/
def AcquireOutcome (bos vas : Multiset ℕ) (again : Bool) (reserveAgain : ℤ)
    (out : ℤ × QueueProperties × KfdRefs) : Prop :=
  (out.1 = 0 ∧ again = false ∧ Owns drv bos vas false out.2.1 out.2.2) ∨
    (out.1 ≠ 0 ∧ rootReserved out.2.2.calls = some false ∧
      ∃ stale, RefsAre out.2.2 bos (stale + vas) ∧ stale.card ≤ 5 ∧
        (stale = 0 ↔ (again = true → reserveAgain = 0)))

variable {topo drv dev} {node : KfdNodeProperties} {p : QueueProperties} {r : KfdRefs}
  {bos vas : Multiset ℕ} {held : Bool} {reserveAgain : ℤ}

@[simp] theorem cwsrMissing_setBo (slot : BoSlot) (bo : Option ℕ) :
    cwsrMissing drv node (p.setBo slot bo) = cwsrMissing drv node p := by
  rfl

@[simp] theorem computeMissesCwsr_setBo (slot : BoSlot) (bo : Option ℕ) :
    computeMissesCwsr drv node (p.setBo slot bo) = computeMissesCwsr drv node p := by
  rfl

theorem eINVAL_ne : (-eINVAL : ℤ) ≠ 0 := by decide

variable (topo dev) in
theorem releaseBuffers_refs (h : RefsAre r ((p.heldBos : Multiset ℕ) + bos) vas) :
    RefsAre (kfdQueueReleaseBuffers topo drv dev p r).2.2 bos vas := by
  rw [kfdQueueReleaseBuffers]
  cases topo dev <;> exact releaseBos_refs BoSlot.all (by decide) h

theorem rootReserved_releaseBuffers :
    rootReserved (kfdQueueReleaseBuffers topo drv dev p r).2.2.calls = rootReserved r.calls := by
  rw [kfdQueueReleaseBuffers]
  cases topo dev <;> exact rootReserved_releaseBos BoSlot.all

/-- The labels leave nothing of the queue, whichever error leads there. -/
theorem outErrUnreserve_outcome (h : Owns drv bos vas true p r) (hroom : HasRoom vas) {err : ℤ}
    (herr : err ≠ 0) :
    AcquireOutcome drv bos vas false reserveAgain (outErrUnreserve topo drv dev err p r) := by
  obtain ⟨hrefs, hroot⟩ := h.unrefLocked hroom
  refine .inr ⟨herr, ?_, 0, ?_, Nat.zero_le _, iff_of_true rfl fun hagain => nomatch hagain⟩
  · refine rootReserved_releaseBuffers.trans ?_
    show (rootReserved _).bind _ = _
    rw [hroot]
    rfl
  · rw [zero_add]
    exact releaseBuffers_refs topo dev hrefs.unreserve

/-- Counts are given back if the root can be reserved for it. -/
theorem unrefBoVas_refs (h : Owns drv bos vas false p r) (hroom : HasRoom vas) (reserve : ℤ) :
    rootReserved (kfdQueueUnrefBoVas drv reserve p r).2.calls = some false ∧
      RefsAre (kfdQueueUnrefBoVas drv reserve p r).2 ((p.heldBos : Multiset ℕ) + bos)
        ((if reserve = 0 then 0 else (p.heldVas drv : Multiset ℕ)) + vas) := by
  have htried := h.reserve reserve
  rw [kfdQueueUnrefBoVas]
  by_cases hreserve : reserve = 0
  · subst hreserve
    obtain ⟨hrefs, hroot⟩ := htried.unrefLocked hroom
    rw [if_pos rfl, zero_add]
    refine ⟨?_, hrefs.unreserve⟩
    show (rootReserved _).bind _ = _
    rw [hroot]
    rfl
  · rw [beq_eq_false_iff_ne.mpr hreserve] at htried
    rw [if_neg hreserve, if_pos hreserve]
    exact ⟨htried.root, htried.refs⟩

theorem outErrRelease_outcome (h : Owns drv bos vas false p r) (hroom : HasRoom vas)
    (hvas : (p.heldVas drv : Multiset ℕ) ≠ 0) {err : ℤ} (herr : err ≠ 0) :
    AcquireOutcome drv bos vas true reserveAgain
      (outErrRelease topo drv dev err reserveAgain p r) := by
  obtain ⟨hroot, hrefs⟩ := unrefBoVas_refs h hroom reserveAgain
  refine .inr ⟨herr, rootReserved_releaseBuffers.trans hroot, _, releaseBuffers_refs topo dev hrefs,
    ?_, ?_⟩
  · split
    · exact Nat.zero_le _
    · exact length_heldVas_le
  · by_cases hreserve : reserveAgain = 0
    · exact iff_of_true (if_pos hreserve) fun _ => hreserve
    · rw [if_neg hreserve]
      exact iff_of_false hvas fun hall => hreserve (hall rfl)

theorem acquireCwsr_outcome (h : Owns drv bos vas true p r) (hroom : HasRoom vas)
    (hnull : p.bo .cwsr = none) (hvas : (p.heldVas drv : Multiset ℕ) ≠ 0) :
    AcquireOutcome drv bos vas (cwsrMissing drv node p) reserveAgain
      (acquireCwsr topo drv dev node reserveAgain p r) := by
  rw [acquireCwsr]
  by_cases hctl : p.ctlStackSize = node.ctlStackSize
  · rw [if_neg (not_not.mpr hctl)]
    by_cases hsize : p.ctxSaveRestoreAreaSize = node.cwsrSize
    · rw [if_neg (not_not.mpr hsize)]
      cases hthere :
          drv.bufferThere p.ctxSaveRestoreAreaAddress node.totalCwsrSize.toUInt64 with
      | true =>
        obtain ⟨bo, va, r', hva, hget, howns⟩ := bufferGetInto_there hnull h hthere
        have hagain : cwsrMissing drv node p = false := by simp [cwsrMissing, hthere]
        rw [hget, hagain]
        exact .inl ⟨rfl, rfl, howns.unreserve⟩
      | false =>
        have hagain : cwsrMissing drv node p = true := by simp [cwsrMissing, hthere, hctl, hsize]
        rw [bufferGetInto_missing hnull hthere, hagain]
        simp only [if_neg eINVAL_ne]
        exact outErrRelease_outcome h.unreserve hroom hvas eINVAL_ne
    · have hagain : cwsrMissing drv node p = false := by simp [cwsrMissing, hsize]
      rw [if_pos hsize, hagain]
      exact outErrUnreserve_outcome h hroom eINVAL_ne
  · have hagain : cwsrMissing drv node p = false := by simp [cwsrMissing, hctl]
    rw [if_pos hctl, hagain]
    exact outErrUnreserve_outcome h hroom eINVAL_ne

/-- A buffer in the midst of an attempt: what follows is tried with it, or all is undone. -/
theorem bufferGetOr_outcome {slot : BoSlot} (hnull : p.bo slot = none)
    (h : Owns drv bos vas true p r) (hroom : HasRoom vas) (addr expectedSize : UInt64)
    {again : Bool}
    {next : QueueProperties → KfdRefs → ℤ × QueueProperties × KfdRefs}
    (hnext : ∀ bo va r', drv.vmBoFind bo = some va →
      Owns drv bos vas true (p.setBo slot (some bo)) r' →
      AcquireOutcome drv bos vas again reserveAgain (next (p.setBo slot (some bo)) r')) :
    AcquireOutcome drv bos vas (drv.bufferThere addr expectedSize && again) reserveAgain
      (bufferGetOr topo drv dev slot addr expectedSize p r next) := by
  rw [bufferGetOr]
  cases hthere : drv.bufferThere addr expectedSize with
  | true =>
    obtain ⟨bo, va, r', hva, hget, howns⟩ := bufferGetInto_there hnull h hthere
    rw [hget]
    exact hnext bo va r' hva howns
  | false =>
    rw [bufferGetInto_missing hnull hthere]
    exact outErrUnreserve_outcome h hroom eINVAL_ne

theorem acquireCompute_outcome (h : Owns drv bos vas true p r) (hroom : HasRoom vas)
    (hnullEop : p.bo .eopBuf = none) (hnull : p.bo .cwsr = none)
    (hvas : (p.heldVas drv : Multiset ℕ) ≠ 0) :
    AcquireOutcome drv bos vas (computeMissesCwsr drv node p) reserveAgain
      (acquireCompute topo drv dev node reserveAgain p r) := by
  by_cases haddr : p.eopRingBufferAddress = 0
  · have hrun : acquireCompute topo drv dev node reserveAgain p r =
        acquireCwsr topo drv dev node reserveAgain p r := by
      simp only [acquireCompute, haddr, ne_eq, not_true_eq_false, if_false]
    have hagain : computeMissesCwsr drv node p = cwsrMissing drv node p := by
      rw [computeMissesCwsr, decide_eq_true haddr, Bool.true_or, Bool.true_and]
    rw [hrun, hagain]
    exact acquireCwsr_outcome h hroom hnull hvas
  · by_cases hsize : p.eopRingBufferSize = node.eopBufferSize
    · have hrun : acquireCompute topo drv dev node reserveAgain p r =
          bufferGetOr topo drv dev .eopBuf p.eopRingBufferAddress p.eopRingBufferSize.toUInt64 p r
            (acquireCwsr topo drv dev node reserveAgain) := by
        simp only [acquireCompute, haddr, hsize, ne_eq, not_true_eq_false, not_false_eq_true,
          if_false, if_true]
      have hagain : computeMissesCwsr drv node p =
          (drv.bufferThere p.eopRingBufferAddress p.eopRingBufferSize.toUInt64 &&
            cwsrMissing drv node p) := by
        rw [computeMissesCwsr, decide_eq_false haddr, decide_eq_true hsize, Bool.false_or,
          Bool.true_and]
      rw [hrun, hagain]
      refine bufferGetOr_outcome hnullEop h hroom _ _ fun bo va r' hva howns => ?_
      rw [← cwsrMissing_setBo .eopBuf (some bo)]
      refine acquireCwsr_outcome howns hroom ?_ ?_
      · exact (p.setBo_of_ne (by decide) _).trans hnull
      · rw [heldVas_setBo hnullEop hva]
        exact Multiset.cons_ne_zero
    · have hrun : acquireCompute topo drv dev node reserveAgain p r =
          outErrUnreserve topo drv dev (-eINVAL) p r := by
        simp only [acquireCompute, haddr, hsize, ne_eq, not_false_eq_true, if_true]
      have hagain : computeMissesCwsr drv node p = false := by
        rw [computeMissesCwsr, decide_eq_false haddr, decide_eq_false hsize, Bool.false_or,
          Bool.false_and, Bool.false_and]
      rw [hrun, hagain]
      exact outErrUnreserve_outcome h hroom eINVAL_ne

/-- **A queue has all its buffers or none.**  On every path of an attempt with null pointers the
root is free again, a code other than zero leaves all references as they were, and all counts too,
unless the second reservation was needed and failed. -/
theorem acquire_refs (hnull : ∀ slot, p.bo slot = none) (h : RefsAre r bos vas)
    (hfree : rootReserved r.calls = some false) (hroom : HasRoom vas) (reserve : ℤ) :
    AcquireOutcome drv bos vas (reservesAgain topo drv dev reserve p) reserveAgain
      (kfdQueueAcquireBuffers topo drv dev reserve reserveAgain p r) := by
  have hempty : p.heldBos = [] := by
    rw [QueueProperties.heldBos, QueueProperties.bosOf, List.filterMap_eq_nil_iff]
    exact fun slot _ => hnull slot
  have howns : Owns drv bos vas false p r := by
    refine ⟨?_, hfree⟩
    rw [QueueProperties.heldVas, hempty]
    simpa using h
  have htried := howns.reserve reserve
  rw [kfdQueueAcquireBuffers, reservesAgain]
  cases topo dev with
  | none =>
    refine .inr ⟨eINVAL_ne, hfree, 0, by rwa [zero_add], Nat.zero_le _, ?_⟩
    exact iff_of_true rfl fun hagain => nomatch hagain
  | some node =>
    by_cases hreserve : reserve = 0
    · subst hreserve
      simp only [ne_eq, not_true_eq_false, if_false, decide_true, Bool.true_and, Bool.and_assoc]
      refine bufferGetOr_outcome (hnull .wptr) htried hroom _ _ fun bo va r' hva h1 => ?_
      have hnull1 : ∀ slot, slot ≠ .wptr → (p.setBo .wptr (some bo)).bo slot = none :=
        fun slot hslot => (p.setBo_of_ne hslot _).trans (hnull slot)
      refine bufferGetOr_outcome (hnull1 .rptr (by decide)) h1 hroom _ _
        fun bo2 va2 r2 hva2 h2 => ?_
      have hnull2 : ∀ slot, slot ≠ .wptr → slot ≠ .rptr →
          ((p.setBo .wptr (some bo)).setBo .rptr (some bo2)).bo slot = none :=
        fun slot hw hr => (QueueProperties.setBo_of_ne _ hr _).trans (hnull1 slot hw)
      refine bufferGetOr_outcome (hnull2 .ring (by decide) (by decide)) h2 hroom _ _
        fun bo3 va3 r3 hva3 h3 => ?_
      have hnull3 : ∀ slot, slot ≠ .wptr → slot ≠ .rptr → slot ≠ .ring →
          (((p.setBo .wptr (some bo)).setBo .rptr (some bo2)).setBo .ring (some bo3)).bo slot =
            none :=
        fun slot hw hr hg => (QueueProperties.setBo_of_ne _ hg _).trans (hnull2 slot hw hr)
      by_cases htype : p.type = .compute
      · rw [decide_eq_true htype, Bool.true_and, ← computeMissesCwsr_setBo .wptr (some bo),
          ← computeMissesCwsr_setBo .rptr (some bo2), ← computeMissesCwsr_setBo .ring (some bo3)]
        simp only [QueueProperties.type_setBo, htype, not_true_eq_false, if_false]
        refine acquireCompute_outcome h3 hroom (hnull3 .eopBuf (by decide) (by decide) (by decide))
          (hnull3 .cwsr (by decide) (by decide) (by decide)) ?_
        rw [heldVas_setBo (hnull2 .ring (by decide) (by decide)) hva3]
        exact Multiset.cons_ne_zero
      · simp only [QueueProperties.type_setBo, htype, not_false_eq_true, if_true, decide_false,
          Bool.false_and]
        exact .inl ⟨rfl, rfl, h3.unreserve⟩
    · rw [beq_eq_false_iff_ne.mpr hreserve] at htried
      simp only [ne_eq, hreserve, not_false_eq_true, if_true, decide_false, Bool.false_and]
      refine .inr ⟨hreserve, htried.root, 0, ?_, Nat.zero_le _, ?_⟩
      · rw [zero_add]
        exact h.reserve reserve
      · exact iff_of_true rfl fun hagain => nomatch hagain

end Acquire

/-! ### Runs of many queues -/

/-- The queues that have their buffers, and the references of the process. -/
structure KfdQueues where
  queues : List QueueProperties
  refs : KfdRefs

inductive KfdQueueCall where
  /-- A new queue with these properties tries to get its buffers. -/
  | acquire (dev : UInt32) (reserve reserveAgain : ℤ) (p : QueueProperties)
  /-- A queue gives its buffers back: first its counts, then its references. -/
  | release (dev : UInt32) (reserve : ℤ) (i : ℕ)

section Runs

variable (topo : UInt32 → Option KfdNodeProperties) (drv : AmdgpuDriver)

/-- A new queue has null pointers. -/
def QueueProperties.fresh (p : QueueProperties) : QueueProperties := { p with bo := fun _ => none }

def kfdQueueStep (s : KfdQueues) : KfdQueueCall → KfdQueues
  | .acquire dev reserve reserveAgain p =>
    match kfdQueueAcquireBuffers topo drv dev reserve reserveAgain p.fresh s.refs with
    | (err, p, refs) => if err = 0 then ⟨p :: s.queues, refs⟩ else ⟨s.queues, refs⟩
  | .release dev reserve i =>
    match s.queues[i]? with
    | none => s
    | some p =>
      let refs := (kfdQueueUnrefBoVas drv reserve p s.refs).2
      ⟨s.queues.eraseIdx i, (kfdQueueReleaseBuffers topo drv dev p refs).2.2⟩

/-- What all queues hold. -/
def KfdQueues.bos (s : KfdQueues) : List ℕ := s.queues.flatMap QueueProperties.heldBos

def KfdQueues.vas (s : KfdQueues) : List ℕ := s.queues.flatMap (QueueProperties.heldVas drv)

/-- The references and the counts are those of the queues, and the root is free, neither reserved
twice nor let go of twice. -/
def QueuesAccounted (s : KfdQueues) : Prop :=
  RefsAre s.refs (s.bos : List ℕ) (s.vas drv : List ℕ) ∧ rootReserved s.refs.calls = some false

/-- The reservations for a clean-up succeed. -/
def CleanUpReserves (s : KfdQueues) : KfdQueueCall → Prop
  | .acquire dev reserve reserveAgain p =>
    reservesAgain topo drv dev reserve p.fresh = true → reserveAgain = 0
  | .release _ reserve i => ∀ p, s.queues[i]? = some p → p.heldVas drv ≠ [] → reserve = 0

variable {topo drv} {s : KfdQueues}

theorem flatMap_eraseIdx_perm {f : QueueProperties → List ℕ} {l : List QueueProperties} {i : ℕ}
    {p : QueueProperties} (hi : l[i]? = some p) :
    (l.flatMap f).Perm (f p ++ (l.eraseIdx i).flatMap f) := by
  induction l generalizing i with
  | nil => nomatch hi
  | cons q l ih =>
    cases i with
    | zero =>
      rw [List.getElem?_cons_zero, Option.some.injEq] at hi
      rw [hi]
      rfl
    | succ i =>
      rw [List.getElem?_cons_succ] at hi
      rw [List.eraseIdx_cons_succ, List.flatMap_cons, List.flatMap_cons]
      refine ((ih hi).append_left (f q)).trans ?_
      rw [← List.append_assoc, ← List.append_assoc]
      exact List.perm_append_comm.append_right _

variable (drv) in
theorem length_vas_le (s : KfdQueues) : (s.vas drv).length ≤ 5 * s.queues.length := by
  obtain ⟨queues, refs⟩ := s
  show (queues.flatMap (QueueProperties.heldVas drv)).length ≤ 5 * queues.length
  induction queues with
  | nil => exact Nat.le_refl _
  | cons p queues ih =>
    have hp : (p.heldVas drv).length ≤ 5 := length_heldVas_le
    rw [List.flatMap_cons, List.length_append, List.length_cons]
    omega

/-- There is room for the counts of one more queue, and for those that another leaves behind. -/
def KfdQueues.Fits (s : KfdQueues) : Prop := 5 * (s.queues.length + 2) < 2 ^ 31

theorem KfdQueues.Fits.hasRoom (hfits : s.Fits) : HasRoom (s.vas drv : List ℕ) := by
  have hlen := length_vas_le drv s
  have hroom : 5 * (s.queues.length + 2) < 2 ^ 31 := hfits
  show (s.vas drv).length + 5 < 2 ^ 31
  omega

/-- What a call leaves: the queues' own references, and perhaps counts that are nobody's. -/
structure Leaves (drv : AmdgpuDriver) (s : KfdQueues) (stale : Multiset ℕ) : Prop where
  refs : RefsAre s.refs (s.bos : List ℕ) (stale + (s.vas drv : List ℕ))
  root : rootReserved s.refs.calls = some false
  few : stale.card ≤ 5

variable (topo) in
theorem kfdQueueStep_refs (h : QueuesAccounted drv s) (hfits : s.Fits) (c : KfdQueueCall) :
    ∃ stale : Multiset ℕ, Leaves drv (kfdQueueStep topo drv s c) stale ∧
      (stale = 0 ↔ CleanUpReserves topo drv s c) := by
  cases c with
  | acquire dev reserve reserveAgain p =>
    have hout : AcquireOutcome drv (s.bos : List ℕ) (s.vas drv : List ℕ)
        (reservesAgain topo drv dev reserve p.fresh) reserveAgain
        (kfdQueueAcquireBuffers topo drv dev reserve reserveAgain p.fresh s.refs) :=
      acquire_refs (fun _ => rfl) h.1 h.2 hfits.hasRoom reserve
    rw [kfdQueueStep]
    generalize kfdQueueAcquireBuffers topo drv dev reserve reserveAgain p.fresh s.refs = out at *
    obtain ⟨err, p', refs⟩ := out
    obtain ⟨rfl, hagain, howns⟩ | ⟨herr, hroot, stale, hrefs, hfew, hstale⟩ := hout
    · refine ⟨0, ⟨?_, howns.root, Nat.zero_le _⟩, iff_of_true rfl fun hneeds => ?_⟩
      · rw [zero_add]
        exact howns.refs
      · rw [hagain] at hneeds
        nomatch hneeds
    · simp only [if_neg herr]
      exact ⟨stale, ⟨hrefs, hroot, hfew⟩, hstale⟩
  | release dev reserve i =>
    rw [kfdQueueStep]
    cases hi : s.queues[i]? with
    | none =>
      refine ⟨0, ⟨by rw [zero_add]; exact h.1, h.2, Nat.zero_le _⟩,
        iff_of_true rfl fun p hp => ?_⟩
      rw [hi] at hp
      nomatch hp
    | some p =>
      have hbos := Multiset.coe_eq_coe.mpr (flatMap_eraseIdx_perm (f := QueueProperties.heldBos) hi)
      have hvas := Multiset.coe_eq_coe.mpr
        (flatMap_eraseIdx_perm (f := QueueProperties.heldVas drv) hi)
      have howns : Owns drv ((s.queues.eraseIdx i).flatMap QueueProperties.heldBos : List ℕ)
          ((s.queues.eraseIdx i).flatMap (QueueProperties.heldVas drv) : List ℕ) false p
          s.refs := by
        refine ⟨?_, h.2⟩
        rw [Multiset.coe_add, Multiset.coe_add, ← hbos, ← hvas]
        exact h.1
      have hroom :
          HasRoom ((s.queues.eraseIdx i).flatMap (QueueProperties.heldVas drv) : List ℕ) := by
        have hall : (s.vas drv).length + 5 < 2 ^ 31 := hfits.hasRoom
        have hlen := (flatMap_eraseIdx_perm (f := QueueProperties.heldVas drv) hi).length_eq
        rw [List.length_append] at hlen
        show ((s.queues.eraseIdx i).flatMap _).length + 5 < 2 ^ 31
        rw [KfdQueues.vas] at hall
        omega
      obtain ⟨hroot, hrefs⟩ := unrefBoVas_refs howns hroom reserve
      refine ⟨_, ⟨releaseBuffers_refs topo dev hrefs, rootReserved_releaseBuffers.trans hroot, ?_⟩,
        ?_⟩
      · split
        · exact Nat.zero_le _
        · exact length_heldVas_le
      · by_cases hreserve : reserve = 0
        · exact iff_of_true (if_pos hreserve) fun _ _ _ => hreserve
        · rw [if_neg hreserve, Multiset.coe_eq_zero]
          constructor
          · intro hnil q hq hne
            rw [hi, Option.some.injEq] at hq
            exact absurd (hq ▸ hnil) hne
          · intro hall
            by_contra hne
            exact hreserve (hall p hi hne)

variable (topo drv) in
/-- A call brings at most one queue. -/
theorem length_queues_step (s : KfdQueues) (c : KfdQueueCall) :
    (kfdQueueStep topo drv s c).queues.length ≤ s.queues.length + 1 := by
  cases c with
  | acquire dev reserve reserveAgain p =>
    simp only [kfdQueueStep]
    split
    · exact Nat.le_refl _
    · exact Nat.le_succ _
  | release dev reserve i =>
    simp only [kfdQueueStep]
    split
    · exact Nat.le_succ _
    · exact (List.length_eraseIdx_le s.queues i).trans (Nat.le_succ _)

variable (topo drv) in
theorem guarded_fits {calls : List KfdQueueCall}
    (hcalls : 5 * (s.queues.length + calls.length + 1) < 2 ^ 31) :
    Guarded (kfdQueueStep topo drv) (fun s _ => s.Fits) s calls := by
  induction calls generalizing s with
  | nil => trivial
  | cons c calls ih =>
    have hnext := length_queues_step topo drv s c
    rw [List.length_cons] at hcalls
    refine ⟨?_, ih (by omega)⟩
    show 5 * (s.queues.length + 2) < 2 ^ 31
    omega

theorem queuesAccounted_step (h : QueuesAccounted drv s) (hfits : s.Fits) {c : KfdQueueCall}
    (hc : CleanUpReserves topo drv s c) : QueuesAccounted drv (kfdQueueStep topo drv s c) := by
  obtain ⟨stale, hleaves, hstale⟩ := kfdQueueStep_refs topo h hfits c
  have hrefs := hleaves.refs
  rw [hstale.mpr hc, zero_add] at hrefs
  exact ⟨hrefs, hleaves.root⟩

theorem cleanUpReserves_of_accounted (h : QueuesAccounted drv s) (hfits : s.Fits)
    {c : KfdQueueCall} (hnext : QueuesAccounted drv (kfdQueueStep topo drv s c)) :
    CleanUpReserves topo drv s c := by
  obtain ⟨stale, hleaves, hstale⟩ := kfdQueueStep_refs topo h hfits c
  refine hstale.mp ?_
  have hlen := (length_vas_le drv (kfdQueueStep topo drv s c)).trans
    (Nat.mul_le_mul_left 5 (length_queues_step topo drv s c))
  have hroom : 5 * (s.queues.length + 2) < 2 ^ 31 := hfits
  have hfew := hleaves.few
  refine add_eq_right.mp (hleaves.refs.unique_vas hnext.1 ?_ ?_)
  · rw [Multiset.card_add, Multiset.coe_card]
    omega
  · rw [Multiset.coe_card]
    omega

/-- **Queue buffers are accounted for.**  Along every run of queues that get their buffers and give
them back, with any layout of the mappings and any failures, the references that the driver has been
asked for and the counts are at every point those of the queues that have their buffers, and the
root is never reserved twice nor left reserved, exactly when no reservation for a clean-up fails.
The run is not so long that a count could exceed the largest `int`. -/
theorem queueBuffers_accounted_iff (topo : UInt32 → Option KfdNodeProperties) (drv : AmdgpuDriver)
    (calls : List KfdQueueCall) (hcalls : 5 * (calls.length + 1) < 2 ^ 31) :
    Always (kfdQueueStep topo drv) (QueuesAccounted drv) ⟨[], .none⟩ calls ↔
      Guarded (kfdQueueStep topo drv) (CleanUpReserves topo drv) ⟨[], .none⟩ calls := by
  have hfits : Guarded (kfdQueueStep topo drv) (fun s _ => s.Fits) ⟨[], .none⟩ calls :=
    guarded_fits topo drv (by rw [List.length_nil, Nat.zero_add]; exact hcalls)
  have hiff := always_guarded_iff (I := QueuesAccounted drv) (R := fun s _ => s.Fits)
    (G := fun s c => CleanUpReserves topo drv s c ∧ s.Fits)
    (fun s c h hguard => queuesAccounted_step h hguard.2 hguard.1) (fun _ => id)
    (fun _ _ _ hguard => hguard.2)
    (fun s c h hnext hroom => ⟨cleanUpReserves_of_accounted h hroom hnext, hroom⟩) calls
    (show QueuesAccounted drv ⟨[], .none⟩ from ⟨refsAre_none, rfl⟩)
  constructor
  · intro h
    exact (hiff.mp ⟨h, hfits⟩).mono _ fun _ _ hguard => hguard.1
  · intro h
    exact (hiff.mpr (h.and _ hfits)).1

end Runs

/-- A driver with two objects, mapped on the first page and on the two after it. -/
def threePagesDriver : AmdgpuDriver where
  lookupMapping addr :=
    if addr = 1 then some ⟨1, 1, 0⟩ else if addr = 2 then some ⟨2, 3, 1⟩ else none
  boOf va := va
  vmBoFind bo := some bo
  boRef bo := bo
  boUnref _ := none
  ref_same _ := rfl
  find_mapped _ _ _ := rfl

/-- A compute queue with its save area at an address. -/
def computeQueue (ctxSaveRestoreAreaAddress : UInt64) : QueueProperties where
  type := .compute
  queueAddress := 4096
  queueSize := 4096
  readPtr := 4096
  writePtr := 4096
  eopRingBufferAddress := 0
  eopRingBufferSize := 0
  ctxSaveRestoreAreaAddress := ctxSaveRestoreAreaAddress
  ctxSaveRestoreAreaSize := 8192
  ctlStackSize := 4096
  bo _ := none

/-- One queue gets its buffers, another is refused for its save area, and the first gives its
buffers back; a queue that is refused when the root cannot be reserved again leaves its counts. -/
theorem queueBuffers_accounted_compute :
    Always (kfdQueueStep kfdTopologyDeviceById threePagesDriver) (QueuesAccounted threePagesDriver)
        ⟨[], .none⟩ [.acquire 0 0 0 (computeQueue 0x2000), .acquire 0 0 0 (computeQueue 0x10000),
          .release 0 0 0] ∧
      ¬Always (kfdQueueStep kfdTopologyDeviceById threePagesDriver)
        (QueuesAccounted threePagesDriver) ⟨[], .none⟩
        [.acquire 0 0 (-4) (computeQueue 0x10000)] := by
  rw [queueBuffers_accounted_iff _ _ _ (by decide), queueBuffers_accounted_iff _ _ _ (by decide)]
  refine ⟨⟨fun _ => rfl, fun _ => rfl, fun _ _ _ => rfl, trivial⟩, fun h => ?_⟩
  exact absurd (h.1 (by decide)) (by decide)

end UsrLinuxEmu.GpuDriver
