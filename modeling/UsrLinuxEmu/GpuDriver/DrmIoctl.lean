import UsrLinuxEmu.GpuDriver.BoTable
import UsrLinuxEmu.GpuDriver.HalFences

/-!
# Two ioctl tables (`drv/gpgpu_device.cpp`, `drv/gpu_drm_driver.cpp`)

The buffer-object, submission and fence ioctls have a handler in `GpgpuDevice` and another in the DRM
table.  Both work on the fields of the same class and reach the hardware through `gpu_hal_ops`.

* `GpuHalOps` — the function pointers that the handlers call, over any state behind them;
* `DrvDevice` — the fields that the handlers read and write;
* `handleAllocBo`, … / `gpuIoctlAllocBo`, … — the handlers of the two tables; where they differ only in
  a value, both are one definition applied to it;
* `Corresponds` — equal handle tables, up to the host pointers, and an equal state behind the HAL;
* `ioctl_tables_agree_iff` — the request sequences that both tables answer alike.
-/

namespace UsrLinuxEmu.GpuDriver

open UsrLinuxEmu.Transition

/-! ### The HAL -/

/-- What the handlers call of `gpu_hal_ops`: the return value, what the output then holds (it starts
as zero) and the state behind `ctx`.  Queries leave the state alone. -/
structure GpuHalOps (σ : Type*) where
  memAlloc : σ → UInt64 → Int × UInt64 × σ
  memFree : σ → UInt64 → σ
  heapPtr : σ → UInt64 → UInt64
  fenceCreate : σ → Int × UInt64 × σ
  fenceRead : σ → UInt64 → Int × UInt64
  fenceIdCheck : σ → UInt64 → Int × Bool
  queueSubmit : σ → UInt64 → UInt64 → UInt32 → Int × UInt64 × σ
  doorbellRing : σ → UInt32 → σ

/-! ### Requests and replies -/

structure GpuAllocBoArgs where
  size : UInt64
  domain : UInt32
  flags : UInt32
  handle : UInt32
  gpuVa : UInt64

structure GpuMapBoArgs where
  handle : UInt32
  flags : UInt32
  gpuVa : UInt64

structure GpuWaitFenceArgs where
  fenceId : UInt64
  timeoutMs : UInt32
  status : UInt32

/-- A request with its argument pointer, `none` when it is null.  A wait also carries what the other
parties do to the state behind the HAL before each of its polls, and `halStep` is what they do between
two requests. -/
inductive Request (σ : Type*) where
  | allocBo (args : Option GpuAllocBoArgs)
  | freeBo (handle : Option UInt32)
  | mapBo (args : Option GpuMapBoArgs)
  | pushbufferSubmitBatch (args : Option GpuPushbufferArgs)
  | waitFence (args : Option GpuWaitFenceArgs) (meanwhile : List (σ → σ))
  | halStep (change : σ → σ)

/-- The output fields of the arguments after the call. -/
inductive Output where
  | nothing
  | allocBo (handle : UInt32) (gpuVa : UInt64)
  | mapBo (gpuVa : UInt64)
  | pushbuffer (fenceId : UInt64)
  | waitFence (status : UInt32)
  deriving DecidableEq

/-- `noReturn` is a null pointer that was dereferenced, or a wait that still polls. -/
inductive Reply where
  | noReturn
  | returned (ret : Int) (out : Output)
  deriving DecidableEq

/-! ### The device -/

/-- The entry without its host pointer, which the DRM table does not store. -/
def BoInfo.shared (info : BoInfo) : BoInfo := { info with hostPtr := 0 }

structure DrvDevice (σ : Type*) where
  allocatedBits : UInt32 → Bool
  boMap : UInt32 → Option BoInfo
  vaSpaces : UInt64 → Option (List UInt64)
  queues : UInt64 → Option UInt64
  puller : UInt64
  hal : σ

namespace DrvDevice

variable {σ : Type*} (ops : GpuHalOps σ) (d : DrvDevice σ)

def handleValid (handle : UInt32) : Bool :=
  handle != 0 && decide (handle.toNat ≤ maxBoHandles) && d.allocatedBits handle

/-- The first handle whose bit is clear. -/
def freeHandle : Option UInt32 := BoTable.handles.find? fun i => !d.allocatedBits i

/-! ### ALLOC_BO -/

/-- The handler of either table, with the host pointer that it stores. -/
def allocBoWith (hostPtr : σ → UInt64 → UInt64) : Option GpuAllocBoArgs → Reply × DrvDevice σ
  | none => (.returned (-eFAULT) .nothing, d)
  | some args =>
    if args.domain = 0 then (.returned (-eINVAL) (.allocBo args.handle args.gpuVa), d)
    else
      match ops.memAlloc d.hal args.size with
      | (ret, gpuVa, hal) =>
        if ret ≠ 0 ∨ gpuVa = 0 then
          (.returned (-eNOMEM) (.allocBo args.handle args.gpuVa), { d with hal := hal })
        else
          match d.freeHandle with
          | none =>
            (.returned (-eNOMEM) (.allocBo args.handle args.gpuVa),
              { d with hal := ops.memFree hal gpuVa })
          | some handle =>
            let info : BoInfo := ⟨gpuVa, args.size, args.domain, args.flags, hostPtr hal gpuVa⟩
            (.returned 0 (.allocBo handle gpuVa),
              { d with
                hal := hal
                allocatedBits := Function.update d.allocatedBits handle true
                boMap := Function.update d.boMap handle (some info) })

def handleAllocBo : Option GpuAllocBoArgs → Reply × DrvDevice σ := d.allocBoWith ops ops.heapPtr

def gpuIoctlAllocBo : Option GpuAllocBoArgs → Reply × DrvDevice σ := d.allocBoWith ops fun _ _ => 0

/-! ### FREE_BO -/

def freeBo (handle : UInt32) : Reply × DrvDevice σ :=
  if handle = 0 then (.returned (-eINVAL) .nothing, d)
  else if !d.handleValid handle then (.returned (-eINVAL) .nothing, d)
  else
    let d :=
      match d.boMap handle with
      | some info =>
        { d with
          hal := ops.memFree d.hal info.gpuVa
          boMap := Function.update d.boMap handle none }
      | none => d
    (.returned 0 .nothing, { d with allocatedBits := Function.update d.allocatedBits handle false })

def handleFreeBo : Option UInt32 → Reply × DrvDevice σ
  | none => (.returned (-eFAULT) .nothing, d)
  | some handle => d.freeBo ops handle

/-- The pointer is not checked. -/
def gpuIoctlFreeBo : Option UInt32 → Reply × DrvDevice σ
  | none => (.noReturn, d)
  | some handle => d.freeBo ops handle

/-! ### MAP_BO -/

/-- The handler of either table, with the address that it reports. -/
def mapBoWith (address : BoInfo → UInt64) : Option GpuMapBoArgs → Reply
  | none => .returned (-eFAULT) .nothing
  | some args =>
    if !d.handleValid args.handle then .returned (-eINVAL) (.mapBo args.gpuVa)
    else
      match d.boMap args.handle with
      | none => .returned (-eINVAL) (.mapBo args.gpuVa)
      | some info => .returned 0 (.mapBo (address info))

def handleMapBo : Option GpuMapBoArgs → Reply := d.mapBoWith BoInfo.hostPtr

def gpuIoctlMapBo : Option GpuMapBoArgs → Reply := d.mapBoWith BoInfo.gpuVa

/-! ### PUSHBUFFER_SUBMIT_BATCH -/

/-- The loop over the entries that both handlers have: a valid FENCE entry creates a fence, every
other one is only printed. -/
def fenceLoop (hal : σ) (fenceId : UInt64) : List GpuGpfifoEntry → Int × UInt64 × σ
  | [] => (0, fenceId, hal)
  | e :: rest =>
    if e.isFence then
      match ops.fenceCreate hal with
      | (ret, id, hal) => if ret ≠ 0 then (-eNOMEM, fenceId, hal) else fenceLoop hal id rest
    else fenceLoop hal fenceId rest

def syncPath (args : GpuPushbufferArgs) : Reply × DrvDevice σ :=
  match fenceLoop ops d.hal args.fenceId (GpgpuDevice.callerEntries args) with
  | (ret, fenceId, hal) => (.returned ret (.pushbuffer fenceId), { d with hal := hal })

/-- `va_space_handle` is zero, or the VA space exists and `stream_id` is attached to it. -/
def vaSpaceValid (args : GpuPushbufferArgs) : Bool :=
  args.vaSpaceHandle == 0 ||
    match d.vaSpaces args.vaSpaceHandle with
    | none => false
    | some attached => attached.contains args.streamId

/-- The queue of the submission; `0` stands for an unknown one. -/
def queueOf (args : GpuPushbufferArgs) : UInt64 :=
  (d.queues (GpgpuDevice.effectiveStreamId args)).getD 0

/-- `hal_queue_submit` with the fixed address of the driver. -/
def submit (args : GpuPushbufferArgs) : Int × UInt64 × σ :=
  ops.queueSubmit d.hal (d.queueOf args) gpfifoBase args.count

/-- The state behind the HAL after the doorbell of a submission. -/
def rung (args : GpuPushbufferArgs) : σ :=
  ops.doorbellRing (d.submit ops args).2.2 (GpgpuDevice.effectiveStreamId args).toUInt32

def pullerPath (args : GpuPushbufferArgs) : Reply × DrvDevice σ :=
  if d.queueOf args = 0 then (.returned (-eNOENT) (.pushbuffer args.fenceId), d)
  else if (d.submit ops args).1 ≠ 0 then
    (.returned (d.submit ops args).1 (.pushbuffer args.fenceId),
      { d with hal := (d.submit ops args).2.2 })
  else (.returned 0 (.pushbuffer (d.submit ops args).2.1), { d with hal := d.rung ops args })

def handlePushbufferSubmitBatch : Option GpuPushbufferArgs → Reply × DrvDevice σ
  | none => (.returned (-eFAULT) .nothing, d)
  | some args =>
    if args.count = 0 ∨ 16 < args.count then
      (.returned (-eINVAL) (.pushbuffer args.fenceId), d)
    else if !d.vaSpaceValid args then (.returned (-eINVAL) (.pushbuffer args.fenceId), d)
    else if d.puller ≠ 0 ∧ GpgpuDevice.hasFence args = false then d.pullerPath ops args
    else d.syncPath ops args

/-- Neither the VA space nor the puller is looked at. -/
def gpuIoctlPushbuffer : Option GpuPushbufferArgs → Reply × DrvDevice σ
  | none => (.returned (-eFAULT) .nothing, d)
  | some args =>
    if args.count = 0 ∨ 16 < args.count then
      (.returned (-eINVAL) (.pushbuffer args.fenceId), d)
    else d.syncPath ops args

/-! ### WAIT_FENCE -/

/-- The polls go on while this holds. -/
def pollsOn (timeoutMs : UInt32) (elapsedMs : UInt64) : Bool :=
  decide (elapsedMs < timeoutMs.toUInt64) || timeoutMs == 0

/-- The polling loop: the status, or nothing when it still polls after all that is observed. -/
def pollFence (signaled : σ → Bool) (timeoutMs : UInt32) :
    UInt64 → σ → List (σ → σ) → Option UInt32
  | elapsedMs, _, [] => if pollsOn timeoutMs elapsedMs then none else some 0
  | elapsedMs, hal, change :: rest =>
    if pollsOn timeoutMs elapsedMs then
      if signaled (change hal) then some 1
      else pollFence signaled timeoutMs (elapsedMs + 1) (change hal) rest
    else some 0

def waitReply : Option UInt32 → Reply
  | none => .noReturn
  | some status => .returned 0 (.waitFence status)

/-- The handler of either table, with the query that its polls make. -/
def waitFenceWith (signaled : UInt64 → σ → Bool) (args : Option GpuWaitFenceArgs)
    (meanwhile : List (σ → σ)) : Reply × DrvDevice σ :=
  let after := { d with hal := meanwhile.foldl (fun hal change => change hal) d.hal }
  match args with
  | none => (.returned (-eFAULT) .nothing, after)
  | some args => (waitReply (pollFence (signaled args.fenceId) args.timeoutMs 0 d.hal meanwhile), after)

/-- `hal_fence_read` finds the fence signaled. -/
def readsSignaled (fenceId : UInt64) (hal : σ) : Bool :=
  (ops.fenceRead hal fenceId).1 == 0 && (ops.fenceRead hal fenceId).2 != 0

/-- `hal_fence_id_check` finds the fence signaled. -/
def checksSignaled (fenceId : UInt64) (hal : σ) : Bool :=
  (ops.fenceIdCheck hal fenceId).1 == 0 && (ops.fenceIdCheck hal fenceId).2

/-- The ids below `SIM_FENCE_ID_BASE` are the driver's own. -/
def handleWaitFence : Option GpuWaitFenceArgs → List (σ → σ) → Reply × DrvDevice σ :=
  d.waitFenceWith fun fenceId hal =>
    if fenceId < Device.simFenceIdBase then readsSignaled ops fenceId hal
    else checksSignaled ops fenceId hal

def gpuIoctlWaitFence : Option GpuWaitFenceArgs → List (σ → σ) → Reply × DrvDevice σ :=
  d.waitFenceWith (checksSignaled ops)

/-! ### The tables -/

/-- `GpgpuDevice::ioctl`. -/
def ioctl : Request σ → Reply × DrvDevice σ
  | .allocBo args => d.handleAllocBo ops args
  | .freeBo handle => d.handleFreeBo ops handle
  | .mapBo args => (d.handleMapBo args, d)
  | .pushbufferSubmitBatch args => d.handlePushbufferSubmitBatch ops args
  | .waitFence args meanwhile => d.handleWaitFence ops args meanwhile
  | .halStep change => (.returned 0 .nothing, { d with hal := change d.hal })

/-- The table `gpu_ioctls`. -/
def drmIoctl : Request σ → Reply × DrvDevice σ
  | .allocBo args => d.gpuIoctlAllocBo ops args
  | .freeBo handle => d.gpuIoctlFreeBo ops handle
  | .mapBo args => (d.gpuIoctlMapBo args, d)
  | .pushbufferSubmitBatch args => d.gpuIoctlPushbuffer ops args
  | .waitFence args meanwhile => d.gpuIoctlWaitFence ops args meanwhile
  | .halStep change => (.returned 0 .nothing, { d with hal := change d.hal })

/-! ### The property -/

/-- Equal devices, up to the host pointers in the handle tables. -/
structure Corresponds (x y : DrvDevice σ) : Prop where
  allocatedBits : y.allocatedBits = x.allocatedBits
  boMap : ∀ h, (y.boMap h).map BoInfo.shared = (x.boMap h).map BoInfo.shared
  vaSpaces : y.vaSpaces = x.vaSpaces
  queues : y.queues = x.queues
  puller : y.puller = x.puller
  hal : y.hal = x.hal

/-- The same request through both tables. -/
def bothTables (x : DrvDevice σ × DrvDevice σ) (r : Request σ) : DrvDevice σ × DrvDevice σ :=
  ((x.1.ioctl ops r).2, (x.2.drmIoctl ops r).2)

def SameReply (x : DrvDevice σ × DrvDevice σ) (r : Request σ) : Prop :=
  (x.1.ioctl ops r).1 = (x.2.drmIoctl ops r).1

/-- Every request of the sequence has the same reply from both tables, and they keep corresponding
states. -/
def TablesAgree (requests : List (Request σ)) : Prop :=
  Always (bothTables ops) (fun x => Corresponds x.1 x.2) (d, d) requests ∧
    Guarded (bothTables ops) (SameReply ops) (d, d) requests

/-! ### The condition -/

/-- The states that the polls of a wait see when none of them finds the fence signaled. -/
def polled (timeoutMs : UInt32) : UInt64 → σ → List (σ → σ) → List σ
  | _, _, [] => []
  | elapsedMs, hal, change :: rest =>
    if pollsOn timeoutMs elapsedMs then
      change hal :: polled timeoutMs (elapsedMs + 1) (change hal) rest
    else []

/-- The submission succeeds, reports the fence that the argument already holds, and leaves the state
behind the HAL as it was. -/
def SilentSubmit (args : GpuPushbufferArgs) : Prop :=
  d.queueOf args ≠ 0 ∧ (d.submit ops args).1 = 0 ∧ (d.submit ops args).2.1 = args.fenceId ∧
    d.rung ops args = d.hal

/-- What a request must not meet: a null FREE_BO, a buffer object mapped elsewhere in the host, a
rejected VA space, a submission to the puller, and a fence that only one of the queries finds
signaled. -/
def Alike : Request σ → Prop
  | .allocBo _ => True
  | .freeBo handle => handle ≠ none
  | .mapBo args => ∀ a ∈ args, d.handleValid a.handle = true →
      ∀ info ∈ d.boMap a.handle, info.hostPtr = info.gpuVa
  | .pushbufferSubmitBatch args => ∀ a ∈ args, a.count = 0 ∨ 16 < a.count ∨
      d.vaSpaceValid a = true ∧
        (d.puller = 0 ∨ GpgpuDevice.hasFence a = true ∨ d.SilentSubmit ops a)
  | .waitFence args meanwhile => ∀ a ∈ args, a.fenceId < Device.simFenceIdBase →
      ((∃ hal ∈ polled a.timeoutMs 0 d.hal meanwhile, readsSignaled ops a.fenceId hal = true) ↔
        ∃ hal ∈ polled a.timeoutMs 0 d.hal meanwhile, checksSignaled ops a.fenceId hal = true)
  | .halStep _ => True

/-! ### The handlers against each other -/

theorem Corresponds.refl : Corresponds d d := ⟨rfl, fun _ => rfl, rfl, rfl, rfl, rfl⟩

variable {ops d}

/-- A corresponding device is the same one with other host pointers. -/
theorem Corresponds.exists_boMap {x y : DrvDevice σ} (h : Corresponds x y) :
    ∃ m, y = { x with boMap := m } ∧
      ∀ i, (m i).map BoInfo.shared = (x.boMap i).map BoInfo.shared := by
  obtain ⟨bits, m, vaSpaces, queues, puller, hal⟩ := y
  obtain ⟨rfl, hm, rfl, rfl, rfl, rfl⟩ := h
  exact ⟨m, rfl, hm⟩

/-- The same entry on both sides, up to the host pointer. -/
theorem shared_update {m m' : UInt32 → Option BoInfo} {a b : Option BoInfo}
    (h : ∀ i, (m' i).map BoInfo.shared = (m i).map BoInfo.shared)
    (hab : b.map BoInfo.shared = a.map BoInfo.shared) (i j : UInt32) :
    (Function.update m' i b j).map BoInfo.shared = (Function.update m i a j).map BoInfo.shared := by
  by_cases hj : j = i
  · rw [hj, Function.update_self, Function.update_self, hab]
  · rw [Function.update_of_ne hj, Function.update_of_ne hj, h]

section Handlers

variable {m : UInt32 → Option BoInfo}
  (hm : ∀ i, (m i).map BoInfo.shared = (d.boMap i).map BoInfo.shared)

include hm

/-- The same handles have an entry, with the same address. -/
theorem shared_none {handle : UInt32} (h : d.boMap handle = none) : m handle = none := by
  have hentry := hm handle
  rw [h] at hentry
  exact Option.map_eq_none_iff.mp hentry

theorem shared_some {handle : UInt32} {info : BoInfo} (h : d.boMap handle = some info) :
    ∃ info', m handle = some info' ∧ info'.gpuVa = info.gpuVa := by
  have hentry := hm handle
  rw [h] at hentry
  obtain ⟨info', hinfo', hshared⟩ := Option.map_eq_some_iff.mp hentry
  have hva : info'.shared.gpuVa = info.shared.gpuVa := by rw [hshared]
  exact ⟨info', hinfo', hva⟩

theorem corresponds_of_shared : Corresponds d { d with boMap := m } :=
  ⟨rfl, hm, rfl, rfl, rfl, rfl⟩

theorem allocBo_alike (args : Option GpuAllocBoArgs) (hostPtr hostPtr' : σ → UInt64 → UInt64) :
    (d.allocBoWith ops hostPtr args).1 =
        (({ d with boMap := m } : DrvDevice σ).allocBoWith ops hostPtr' args).1 ∧
      Corresponds (d.allocBoWith ops hostPtr args).2
        (({ d with boMap := m } : DrvDevice σ).allocBoWith ops hostPtr' args).2 := by
  cases args with
  | none => exact ⟨rfl, corresponds_of_shared hm⟩
  | some args =>
    simp only [allocBoWith]
    by_cases hdomain : args.domain = 0
    · rw [if_pos hdomain, if_pos hdomain]
      exact ⟨rfl, corresponds_of_shared hm⟩
    rw [if_neg hdomain, if_neg hdomain]
    by_cases hfail : (ops.memAlloc d.hal args.size).1 ≠ 0 ∨ (ops.memAlloc d.hal args.size).2.1 = 0
    · rw [if_pos hfail, if_pos hfail]
      exact ⟨rfl, rfl, hm, rfl, rfl, rfl, rfl⟩
    rw [if_neg hfail, if_neg hfail]
    have hsame : ({ d with boMap := m } : DrvDevice σ).freeHandle = d.freeHandle := rfl
    rw [hsame]
    cases hfree : d.freeHandle with
    | none => exact ⟨rfl, rfl, hm, rfl, rfl, rfl, rfl⟩
    | some handle =>
      refine ⟨rfl, rfl, fun i => ?_, rfl, rfl, rfl, rfl⟩
      refine shared_update hm ?_ handle i
      rfl

theorem freeBo_alike (handle : UInt32) :
    (d.freeBo ops handle).1 = (({ d with boMap := m } : DrvDevice σ).freeBo ops handle).1 ∧
      Corresponds (d.freeBo ops handle).2
        (({ d with boMap := m } : DrvDevice σ).freeBo ops handle).2 := by
  simp only [freeBo]
  by_cases hzero : handle = 0
  · rw [if_pos hzero, if_pos hzero]
    exact ⟨rfl, corresponds_of_shared hm⟩
  rw [if_neg hzero, if_neg hzero]
  have hsame : ({ d with boMap := m } : DrvDevice σ).handleValid handle = d.handleValid handle := rfl
  rw [hsame]
  by_cases hvalid : (!d.handleValid handle) = true
  · rw [if_pos hvalid, if_pos hvalid]
    exact ⟨rfl, corresponds_of_shared hm⟩
  rw [if_neg hvalid, if_neg hvalid]
  cases hinfo : d.boMap handle with
  | none =>
    rw [shared_none hm hinfo]
    exact ⟨rfl, rfl, hm, rfl, rfl, rfl, rfl⟩
  | some info =>
    obtain ⟨info', hinfo', hva⟩ := shared_some hm hinfo
    rw [hinfo']
    refine ⟨rfl, rfl, shared_update hm rfl handle, rfl, rfl, rfl, ?_⟩
    show ops.memFree d.hal info'.gpuVa = ops.memFree d.hal info.gpuVa
    rw [hva]

/-- MAP_BO reports the host pointer from one table, and the GPU address from the other. -/
theorem mapBo_alike_iff (args : Option GpuMapBoArgs) :
    d.handleMapBo args = ({ d with boMap := m } : DrvDevice σ).gpuIoctlMapBo args ↔
      Alike ops d (.mapBo args) := by
  cases args with
  | none => exact iff_of_true rfl fun a ha => absurd ha (Option.not_mem_none a)
  | some args =>
    have hsame : ({ d with boMap := m } : DrvDevice σ).handleValid args.handle =
      d.handleValid args.handle := rfl
    simp only [handleMapBo, gpuIoctlMapBo, mapBoWith, Alike, Option.mem_def, Option.some.injEq,
      forall_eq', hsame]
    cases hvalid : d.handleValid args.handle with
    | false => exact iff_of_true rfl fun h => Bool.noConfusion h
    | true =>
      cases hinfo : d.boMap args.handle with
      | none =>
        rw [shared_none hm hinfo]
        simp
      | some info =>
        obtain ⟨info', hinfo', hva⟩ := shared_some hm hinfo
        rw [hinfo']
        simp [hva]

end Handlers

/-- The sync path ends with success or with a fence that could not be created. -/
theorem fenceLoop_ret (hal : σ) (fenceId : UInt64) (entries : List GpuGpfifoEntry) :
    (fenceLoop ops hal fenceId entries).1 = 0 ∨
      (fenceLoop ops hal fenceId entries).1 = -eNOMEM := by
  induction entries generalizing hal fenceId with
  | nil => exact .inl rfl
  | cons e rest ih =>
    rw [fenceLoop]
    by_cases hfence : e.isFence
    · rw [if_pos hfence]
      obtain ⟨ret, id, hal'⟩ := ops.fenceCreate hal
      show (if ret ≠ 0 then (-eNOMEM, fenceId, hal') else fenceLoop ops hal' id rest).1 = 0 ∨
        (if ret ≠ 0 then (-eNOMEM, fenceId, hal') else fenceLoop ops hal' id rest).1 = -eNOMEM
      by_cases hret : ret = 0
      · rw [if_neg (not_not.mpr hret)]
        exact ih hal' id
      · rw [if_pos hret]
        exact .inr rfl
    · rw [if_neg hfence]
      exact ih hal fenceId

/-- Without a FENCE entry the sync path does nothing. -/
theorem fenceLoop_no_fence (hal : σ) (fenceId : UInt64) {entries : List GpuGpfifoEntry}
    (h : ∀ e ∈ entries, e.isFence = false) : fenceLoop ops hal fenceId entries = (0, fenceId, hal) := by
  induction entries with
  | nil => rfl
  | cons e rest ih =>
    rw [fenceLoop, h e List.mem_cons_self, if_neg Bool.false_ne_true]
    exact ih fun e' he' => h e' (List.mem_cons_of_mem _ he')

theorem isFence_eq_false {args : GpuPushbufferArgs} (h : GpgpuDevice.hasFence args = false) :
    ∀ e ∈ GpgpuDevice.callerEntries args, e.isFence = false := by
  intro e he
  obtain ⟨i, hi, rfl⟩ := List.mem_map.mp he
  by_contra hfence
  rw [GpgpuDevice.hasFence, ← Bool.not_eq_true, List.any_eq_true] at h
  exact h ⟨i, hi, Bool.not_eq_false _ ▸ hfence⟩

theorem syncPath_no_fence {args : GpuPushbufferArgs} (h : GpgpuDevice.hasFence args = false) :
    d.syncPath ops args = (.returned 0 (.pushbuffer args.fenceId), d) := by
  rw [syncPath, fenceLoop_no_fence d.hal args.fenceId (isFence_eq_false h)]

theorem syncPath_alike {x y : DrvDevice σ} (h : Corresponds x y) (args : GpuPushbufferArgs) :
    (x.syncPath ops args).1 = (y.syncPath ops args).1 ∧
      Corresponds (x.syncPath ops args).2 (y.syncPath ops args).2 := by
  rw [syncPath, syncPath, h.hal]
  exact ⟨rfl, h.allocatedBits, h.boMap, h.vaSpaces, h.queues, h.puller, rfl⟩

/-- A submission to the puller and the DRM handler, which does nothing with the same batch. -/
theorem pullerPath_alike_iff {x y : DrvDevice σ} (h : Corresponds x y) (args : GpuPushbufferArgs)
    (hfence : GpgpuDevice.hasFence args = false) :
    ((x.pullerPath ops args).1 = (y.syncPath ops args).1 ∧
      Corresponds (x.pullerPath ops args).2 (y.syncPath ops args).2) ↔ x.SilentSubmit ops args := by
  rw [syncPath_no_fence hfence, pullerPath]
  by_cases hqueue : x.queueOf args = 0
  · rw [if_pos hqueue]
    refine iff_of_false (fun halike => ?_) fun hsilent => hsilent.1 hqueue
    exact absurd halike.1 (by simp [eNOENT])
  rw [if_neg hqueue]
  by_cases hret : (x.submit ops args).1 = 0
  · rw [if_neg (not_not.mpr hret)]
    constructor
    · intro ⟨hreply, hcorr⟩
      have hout : (x.submit ops args).2.1 = args.fenceId := by simpa using hreply
      exact ⟨hqueue, hret, hout, hcorr.hal.symm.trans h.hal⟩
    · intro ⟨_, _, hout, hrung⟩
      rw [hout, hrung]
      exact ⟨rfl, h⟩
  · rw [if_pos hret]
    refine iff_of_false (fun halike => ?_) fun hsilent => hret hsilent.2.1
    exact hret (by simpa using halike.1)

theorem pushbuffer_alike_iff {x y : DrvDevice σ} (h : Corresponds x y)
    (args : Option GpuPushbufferArgs) :
    ((x.handlePushbufferSubmitBatch ops args).1 = (y.gpuIoctlPushbuffer ops args).1 ∧
      Corresponds (x.handlePushbufferSubmitBatch ops args).2 (y.gpuIoctlPushbuffer ops args).2) ↔
    Alike ops x (.pushbufferSubmitBatch args) := by
  cases args with
  | none => exact iff_of_true ⟨rfl, h⟩ fun a ha => absurd ha (Option.not_mem_none a)
  | some args =>
    simp only [handlePushbufferSubmitBatch, gpuIoctlPushbuffer, Alike, Option.mem_def,
      Option.some.injEq, forall_eq']
    by_cases hcount : args.count = 0 ∨ 16 < args.count
    · rw [if_pos hcount, if_pos hcount]
      exact iff_of_true ⟨rfl, h⟩ (by tauto)
    rw [if_neg hcount, if_neg hcount]
    have hcount' : ¬args.count = 0 ∧ ¬16 < args.count := not_or.mp hcount
    rw [or_iff_right hcount'.1, or_iff_right hcount'.2]
    cases hvalid : x.vaSpaceValid args with
    | false =>
      -- the DRM handler never reports an invalid argument here
      rw [Bool.not_false, if_pos rfl]
      refine iff_of_false (fun halike => ?_) fun hva => Bool.noConfusion hva.1
      have hreply := halike.1
      rw [syncPath] at hreply
      have hret := @fenceLoop_ret _ ops y.hal args.fenceId (GpgpuDevice.callerEntries args)
      rw [← (Reply.returned.inj hreply).1] at hret
      exact absurd hret (by decide)
    | true =>
      rw [Bool.not_true, if_neg Bool.false_ne_true]
      by_cases hpath : x.puller ≠ 0 ∧ GpgpuDevice.hasFence args = false
      · rw [if_pos hpath, pullerPath_alike_iff h args hpath.2]
        simp [hpath.1, hpath.2]
      · rw [if_neg hpath]
        refine iff_of_true (syncPath_alike h args) ⟨rfl, ?_⟩
        rw [not_and_or, not_not, Bool.not_eq_false] at hpath
        tauto

/-! ### Waits -/

/-- A wait ends with status one when a poll finds the fence signaled, and otherwise like a wait for a
fence that never is. -/
theorem pollFence_eq (signaled : σ → Bool) (timeoutMs : UInt32) (elapsedMs : UInt64) (hal : σ)
    (meanwhile : List (σ → σ)) : pollFence signaled timeoutMs elapsedMs hal meanwhile =
      if (polled timeoutMs elapsedMs hal meanwhile).any signaled then some 1
      else pollFence (fun _ => false) timeoutMs elapsedMs hal meanwhile := by
  induction meanwhile generalizing elapsedMs hal with
  | nil => rfl
  | cons change rest ih =>
    rw [pollFence, polled, pollFence]
    by_cases hon : pollsOn timeoutMs elapsedMs
    · rw [if_pos hon, if_pos hon, if_pos hon, List.any_cons, if_neg Bool.false_ne_true]
      by_cases hsig : signaled (change hal)
      · rw [if_pos hsig, hsig, Bool.true_or, if_pos rfl]
      · rw [if_neg hsig, Bool.eq_false_of_not_eq_true hsig, Bool.false_or]
        exact ih (elapsedMs + 1) (change hal)
    · rw [if_neg hon, if_neg hon, if_neg hon]
      rfl

theorem pollFence_never (timeoutMs : UInt32) (elapsedMs : UInt64) (hal : σ)
    (meanwhile : List (σ → σ)) :
    pollFence (fun _ => false) timeoutMs elapsedMs hal meanwhile ≠ some 1 := by
  induction meanwhile generalizing elapsedMs hal with
  | nil =>
    rw [pollFence]
    split_ifs
    · exact (Option.some_ne_none 1).symm
    · decide
  | cons change rest ih =>
    rw [pollFence]
    by_cases hon : pollsOn timeoutMs elapsedMs
    · rw [if_pos hon, if_neg Bool.false_ne_true]
      exact ih (elapsedMs + 1) (change hal)
    · rw [if_neg hon]
      decide

theorem pollFence_eq_iff (f g : σ → Bool) (timeoutMs : UInt32) (hal : σ)
    (meanwhile : List (σ → σ)) :
    pollFence f timeoutMs 0 hal meanwhile = pollFence g timeoutMs 0 hal meanwhile ↔
      ((∃ s ∈ polled timeoutMs 0 hal meanwhile, f s = true) ↔
        ∃ s ∈ polled timeoutMs 0 hal meanwhile, g s = true) := by
  have hnever := pollFence_never timeoutMs 0 hal meanwhile
  rw [pollFence_eq f, pollFence_eq g, ← List.any_eq_true, ← List.any_eq_true]
  cases (polled timeoutMs 0 hal meanwhile).any f with
  | false =>
    cases (polled timeoutMs 0 hal meanwhile).any g with
    | false => exact iff_of_true rfl Iff.rfl
    | true => exact iff_of_false hnever (by decide)
  | true =>
    cases (polled timeoutMs 0 hal meanwhile).any g with
    | false => exact iff_of_false hnever.symm (by decide)
    | true => exact iff_of_true rfl Iff.rfl

theorem waitReply_inj {a b : Option UInt32} : waitReply a = waitReply b ↔ a = b := by
  cases a <;> cases b <;> simp [waitReply]

theorem waitFence_alike_iff {x y : DrvDevice σ} (h : Corresponds x y)
    (args : Option GpuWaitFenceArgs) (meanwhile : List (σ → σ)) :
    ((x.handleWaitFence ops args meanwhile).1 = (y.gpuIoctlWaitFence ops args meanwhile).1 ∧
      Corresponds (x.handleWaitFence ops args meanwhile).2
        (y.gpuIoctlWaitFence ops args meanwhile).2) ↔ Alike ops x (.waitFence args meanwhile) := by
  have hcorr : Corresponds { x with hal := meanwhile.foldl (fun hal change => change hal) x.hal }
      { y with hal := meanwhile.foldl (fun hal change => change hal) y.hal } :=
    ⟨h.allocatedBits, h.boMap, h.vaSpaces, h.queues, h.puller, by rw [h.hal]⟩
  cases args with
  | none => exact iff_of_true ⟨rfl, hcorr⟩ fun a ha => absurd ha (Option.not_mem_none a)
  | some args =>
    rw [handleWaitFence, gpuIoctlWaitFence, waitFenceWith, waitFenceWith, and_iff_left hcorr,
      waitReply_inj, h.hal, pollFence_eq_iff]
    simp only [Alike, Option.mem_def, Option.some.injEq, forall_eq']
    by_cases hid : args.fenceId < Device.simFenceIdBase
    · simp only [hid, if_true, true_imp_iff]
    · simp only [hid, if_false, false_imp_iff]

/-! ### The whole table -/

theorem ioctl_alike_iff {x y : DrvDevice σ} (h : Corresponds x y) (r : Request σ) :
    ((x.ioctl ops r).1 = (y.drmIoctl ops r).1 ∧
      Corresponds (x.ioctl ops r).2 (y.drmIoctl ops r).2) ↔ Alike ops x r := by
  obtain ⟨m, rfl, hm⟩ := id h.exists_boMap
  cases r with
  | allocBo args => exact iff_of_true (allocBo_alike hm args _ _) trivial
  | freeBo handle =>
    cases handle with
    | none =>
      refine iff_of_false (fun halike => ?_) fun hne => hne rfl
      cases halike.1
    | some handle => exact iff_of_true (freeBo_alike hm handle) (Option.some_ne_none handle)
  | mapBo args =>
    rw [← mapBo_alike_iff hm args]
    exact and_iff_left h
  | pushbufferSubmitBatch args => exact pushbuffer_alike_iff h args
  | waitFence args meanwhile => exact waitFence_alike_iff h args meanwhile
  | halStep change => exact iff_of_true ⟨rfl, rfl, hm, rfl, rfl, rfl, rfl⟩ trivial

/-- **The two tables, exactly.**  From the same device, a sequence of requests has the same replies
and corresponding handle tables from both tables if and only if none of its requests meets a
difference of the handlers. -/
theorem ioctl_tables_agree_iff (ops : GpuHalOps σ) (d : DrvDevice σ) (requests : List (Request σ)) :
    TablesAgree ops d requests ↔
      Guarded (bothTables ops) (fun x r => Alike ops x.1 r) (d, d) requests :=
  always_guarded_iff (I := fun x : DrvDevice σ × DrvDevice σ => Corresponds x.1 x.2)
    (fun _ r h halike => ((ioctl_alike_iff h r).mpr halike).2) (fun _ h => h)
    (fun _ r h halike => ((ioctl_alike_iff h r).mpr halike).1)
    (fun _ r h hnext hreply => (ioctl_alike_iff h r).mp ⟨hreply, hnext⟩) requests (Corresponds.refl d)

end DrvDevice

end UsrLinuxEmu.GpuDriver
