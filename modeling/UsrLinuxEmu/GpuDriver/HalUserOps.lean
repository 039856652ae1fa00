import UsrLinuxEmu.GpuDriver.DrmIoctl

/-!
# The ioctl tables over the user-space HAL (`hal/hal_user.cpp`)

`hal_user_init` sets the function pointers to the buddy heap, the two fence tables and the hardware
queues.  Over this HAL a submission to the puller is never silent, and an id of the driver's own range
is never signaled in the sim fence table.

* `HalUserState` / `halUser` — the context and its function pointers;
* `toBoTable` — `ioctl` over this HAL does what the buffer-object model does;
* `toGpgpuDevice` — and what the submission model does, for a batch without FENCE entries;
* `alike_pushbuffer_user_iff` / `alike_waitFence_user_iff` — what the two tables must not meet.
-/

namespace UsrLinuxEmu.GpuDriver

open UsrLinuxEmu.GpuCore UsrLinuxEmu.Transition

/-! ### The context -/

/-- `hal_user_context`, with the sim fence counter and the puller that the queues are bound to, which
holds the sim fence table; a hardware queue is bound or not. -/
structure HalUserState where
  heapPtr : UInt64
  buddy : Option GpuBuddy
  fences : HalFenceContext
  queues : UInt64 → Option Bool
  nextSimFenceId : UInt64
  doorbellRingCb : Bool
  puller : HardwarePullerEmu

namespace HalUserState

/-- The drivers only look whether the return value is zero. -/
def memAlloc (h : HalUserState) (size : UInt64) : Int × UInt64 × HalUserState :=
  match (h.buddy.getD halBuddyInit).gpuBuddyAlloc size with
  | (some addr, b) => (0, addr, { h with buddy := some b })
  | (none, b) => (-eNOMEM, 0, { h with buddy := some b })

def memFree (h : HalUserState) (devAddr : UInt64) : HalUserState :=
  match h.buddy with
  | none => h
  | some b => { h with buddy := some (b.gpuBuddyFree devAddr).2 }

def fenceCreate (h : HalUserState) : Int × UInt64 × HalUserState :=
  (h.fences.fenceCreate.1, h.fences.fenceCreate.2.1, { h with fences := h.fences.fenceCreate.2.2 })

/-- `sim_fence_id_check`: an id that was never allocated is not signaled. -/
def fenceIdCheck (h : HalUserState) (fenceId : UInt64) : Int × Bool :=
  if fenceId < Device.simFenceIdBase ∨ Device.simFenceIdMax < fenceId then (-eINVAL, false)
  else (0, (h.puller.device.simFenceTable fenceId).getD false)

/-- `sim_fence_id_alloc`. -/
def simFenceIdAlloc (h : HalUserState) : HalUserState :=
  let id := h.nextSimFenceId
  { h with
    nextSimFenceId := id + 1
    puller := { h.puller with device := { h.puller.device with
      simFenceTable := fun f => if f = id then some false else h.puller.device.simFenceTable f } } }

def queueSubmit (h : HalUserState) (q gpfifoAddr : UInt64) (count : UInt32) :
    Int × UInt64 × HalUserState :=
  match h.queues q with
  | none => (-eINVAL, 0, h)
  | some bound =>
    let fence := h.nextSimFenceId
    let h := h.simFenceIdAlloc
    if Device.simFenceIdMax < fence then (-eNOMEM, 0, h)
    else if bound then
      (0, fence, { h with puller := h.puller.submitBatch ⟨gpfifoAddr, count, fence⟩ })
    else (-eNODEV, 0, h)

def doorbellRing (h : HalUserState) (queueId : UInt32) : HalUserState :=
  if h.doorbellRingCb then { h with puller := h.puller.writeDoorbell queueId } else h

end HalUserState

/-- `hal_user_init`. -/
def halUser : GpuHalOps HalUserState where
  memAlloc := HalUserState.memAlloc
  memFree := HalUserState.memFree
  heapPtr := fun h gpuVa => h.heapPtr + (gpuVa - halHeapBase)
  fenceCreate := HalUserState.fenceCreate
  fenceRead := fun h fenceId => h.fences.fenceRead fenceId
  fenceIdCheck := HalUserState.fenceIdCheck
  queueSubmit := HalUserState.queueSubmit
  doorbellRing := HalUserState.doorbellRing

def Reply.succeeded : Reply → Bool
  | .noReturn => false
  | .returned ret _ => ret == 0

namespace DrvDevice

/-! ### The buffer-object model -/

def toBoTable (d : DrvDevice HalUserState) : BoTable :=
  ⟨d.allocatedBits, d.boMap, d.hal.buddy, d.hal.heapPtr⟩

/-- The buffer-object operation of a request. -/
def boOp : Request HalUserState → Option BoOp
  | .allocBo (some args) => some (.allocBo args.size args.domain args.flags)
  | .freeBo (some handle) => some (.freeBo handle)
  | .mapBo (some args) => some (.mapBo args.handle)
  | _ => none

/-- Whether the request succeeded, and the handle table and heap that it left. -/
def outcome (r : Reply × DrvDevice HalUserState) : Bool × BoTable :=
  (r.1.succeeded, r.2.toBoTable)

theorem memAlloc_some {h : HalUserState} {size addr : UInt64} {b : GpuBuddy}
    (hres : (h.buddy.getD halBuddyInit).gpuBuddyAlloc size = (some addr, b)) :
    halUser.memAlloc h size = (0, addr, { h with buddy := some b }) := by
  show h.memAlloc size = _
  rw [HalUserState.memAlloc, hres]

theorem memAlloc_none {h : HalUserState} {size : UInt64} {b : GpuBuddy}
    (hres : (h.buddy.getD halBuddyInit).gpuBuddyAlloc size = (none, b)) :
    halUser.memAlloc h size = (-eNOMEM, 0, { h with buddy := some b }) := by
  show h.memAlloc size = _
  rw [HalUserState.memAlloc, hres]

theorem allocBo_toBoTable (d : DrvDevice HalUserState) (args : GpuAllocBoArgs) :
    outcome (d.handleAllocBo halUser (some args)) =
      d.toBoTable.call (.allocBo args.size args.domain args.flags) := by
  have hheap : d.toBoTable.heap = d.hal.buddy.getD halBuddyInit := rfl
  rw [handleAllocBo, allocBoWith, BoTable.call, BoTable.handleAllocBo]
  by_cases hdomain : args.domain = 0
  · rw [if_pos hdomain, if_pos hdomain]
    rfl
  rw [if_neg hdomain, if_neg hdomain, BoTable.memAlloc_eq, hheap]
  cases hres : (d.hal.buddy.getD halBuddyInit).gpuBuddyAlloc args.size with
  | mk addr b =>
    cases addr with
    | none =>
      rw [memAlloc_none hres]
      rfl
    | some addr =>
      rw [memAlloc_some hres]
      by_cases haddr : addr = 0
      · simp only [haddr, or_true, if_true]
        rfl
      · have hfree : d.freeHandle = BoTable.handles.find? fun i => !d.allocatedBits i := rfl
        have hbits : (d.toBoTable.setBuddy b).allocateHandle =
            d.freeHandle.map fun i => (i, (d.toBoTable.setBuddy b).setBit i true) := rfl
        simp only [haddr, ne_eq, not_true_eq_false, or_false, if_false, hbits]
        cases d.freeHandle with
        | none => rfl
        | some handle => rfl

theorem freeBo_toBoTable (d : DrvDevice HalUserState) (handle : UInt32) :
    outcome (d.handleFreeBo halUser (some handle)) = d.toBoTable.call (.freeBo handle) := by
  have hvalid : d.toBoTable.handleValid handle = d.handleValid handle := rfl
  have hentry : d.toBoTable.boMap handle = d.boMap handle := rfl
  rw [handleFreeBo, freeBo, BoTable.call, BoTable.handleFreeBo, hvalid, hentry]
  by_cases hzero : handle = 0
  · rw [if_pos hzero, if_pos hzero]
    rfl
  rw [if_neg hzero, if_neg hzero]
  cases hbit : d.handleValid handle with
  | false => rfl
  | true =>
    -- the frees before it leave the bits alone, so that the bit is still set when it is cleared
    have hclear : ∀ t : BoTable, t.allocatedBits = d.allocatedBits →
        t.freeHandle handle = t.setBit handle false := by
      intro t hbits
      rw [BoTable.freeHandle, BoTable.handleValid, hbits]
      exact if_pos hbit
    cases hinfo : d.boMap handle with
    | none =>
      show outcome _ = _
      rw [hclear d.toBoTable rfl]
      rfl
    | some info =>
      have hmem : d.toBoTable.memFree info.gpuVa =
          { d with hal := d.hal.memFree info.gpuVa }.toBoTable := by
        rw [BoTable.memFree, HalUserState.memFree]
        have hbuddy : d.toBoTable.buddy = d.hal.buddy := rfl
        rw [hbuddy]
        cases hheap : d.hal.buddy with
        | none => rfl
        | some b => rfl
      simp only [hmem]
      rw [hclear _ rfl]
      rfl

theorem mapBo_toBoTable (d : DrvDevice HalUserState) (args : GpuMapBoArgs) :
    outcome (d.handleMapBo (some args), d) = d.toBoTable.call (.mapBo args.handle) := by
  have hvalid : d.toBoTable.handleValid args.handle = d.handleValid args.handle := rfl
  have hentry : d.toBoTable.boMap args.handle = d.boMap args.handle := rfl
  rw [handleMapBo, mapBoWith, BoTable.call, BoTable.handleMapBo, hvalid, hentry]
  cases d.handleValid args.handle with
  | false => rfl
  | true =>
    cases d.boMap args.handle with
    | none => rfl
    | some info => rfl

/-- Over this HAL the table does what the buffer-object model does. -/
theorem ioctl_toBoTable (d : DrvDevice HalUserState) (r : Request HalUserState) :
    ∀ op ∈ boOp r, outcome (d.ioctl halUser r) = d.toBoTable.call op := by
  intro op hop
  cases r with
  | allocBo args =>
    cases args with
    | none => cases hop
    | some args =>
      obtain rfl := Option.some.inj hop
      exact allocBo_toBoTable d args
  | freeBo handle =>
    cases handle with
    | none => cases hop
    | some handle =>
      obtain rfl := Option.some.inj hop
      exact freeBo_toBoTable d handle
  | mapBo args =>
    cases args with
    | none => cases hop
    | some args =>
      obtain rfl := Option.some.inj hop
      exact mapBo_toBoTable d args
  | pushbufferSubmitBatch args => cases hop
  | waitFence args meanwhile => cases hop
  | halStep change => cases hop

/-! ### The submission model -/

def toGpgpuDevice (d : DrvDevice HalUserState) : GpgpuDevice where
  vaSpaces := d.vaSpaces
  queues := d.queues
  pullerHandle := d.puller
  halQueues := d.hal.queues
  nextSimFenceId := d.hal.nextSimFenceId
  nextSemHandle := d.hal.fences.semMgr.map SemaphoreManager.nextHandle
  fenceSignaled := d.hal.fences.fenceSignaled
  doorbellRingCb := d.hal.doorbellRingCb
  puller := d.hal.puller

theorem vaSpaceValid_toGpgpuDevice (d : DrvDevice HalUserState) (args : GpuPushbufferArgs) :
    d.toGpgpuDevice.vaSpaceValid args = d.vaSpaceValid args := by
  have hspaces : d.toGpgpuDevice.vaSpaces = d.vaSpaces := rfl
  rw [GpgpuDevice.vaSpaceValid, GpgpuDevice.vaSpaceExists, vaSpaceValid, hspaces]
  cases d.vaSpaces args.vaSpaceHandle with
  | none => rfl
  | some attached => rfl

theorem syncLoop_no_fence (r : PushbufferResult) {entries : List GpuGpfifoEntry} (hret : r.ret = 0)
    (h : ∀ e ∈ entries, e.isFence = false) : GpgpuDevice.syncLoop r entries = r := by
  induction entries with
  | nil => rfl
  | cons e rest ih =>
    have hentry : GpgpuDevice.syncEntry r e = r := by
      rw [GpgpuDevice.syncEntry]
      exact if_neg (by rw [← GpuGpfifoEntry.isFence, h e List.mem_cons_self]; exact Bool.false_ne_true)
    rw [GpgpuDevice.syncLoop, hentry, if_neg (not_not.mpr hret)]
    exact ih fun e' he' => h e' (List.mem_cons_of_mem _ he')

theorem queueSubmit_toGpgpuDevice (d : DrvDevice HalUserState) (q gpfifoAddr : UInt64)
    (count : UInt32) :
    (d.toGpgpuDevice.halQueueSubmit q gpfifoAddr count).ret =
        (d.hal.queueSubmit q gpfifoAddr count).1 ∧
      (d.toGpgpuDevice.halQueueSubmit q gpfifoAddr count).fenceId =
        (d.hal.queueSubmit q gpfifoAddr count).2.1 ∧
      (d.toGpgpuDevice.halQueueSubmit q gpfifoAddr count).device =
        toGpgpuDevice { d with hal := (d.hal.queueSubmit q gpfifoAddr count).2.2 } := by
  have hqueues : d.toGpgpuDevice.halQueues q = d.hal.queues q := rfl
  rw [GpgpuDevice.halQueueSubmit, HalUserState.queueSubmit, hqueues]
  cases d.hal.queues q with
  | none => exact ⟨rfl, rfl, rfl⟩
  | some bound =>
    have hfence : d.toGpgpuDevice.simFenceIdAlloc.1 = d.hal.nextSimFenceId := rfl
    simp only [hfence]
    by_cases hmax : Device.simFenceIdMax < d.hal.nextSimFenceId
    · have hmax' : 0x7FFFFFFFFFFFFFFF < d.hal.nextSimFenceId := hmax
      rw [if_pos hmax, if_pos hmax']
      exact ⟨rfl, rfl, rfl⟩
    · have hmax' : ¬0x7FFFFFFFFFFFFFFF < d.hal.nextSimFenceId := hmax
      rw [if_neg hmax, if_neg hmax']
      cases bound with
      | false => exact ⟨rfl, rfl, rfl⟩
      | true => exact ⟨rfl, rfl, rfl⟩

theorem doorbellRing_toGpgpuDevice (d : DrvDevice HalUserState) (queueId : UInt32) :
    d.toGpgpuDevice.halDoorbellRing queueId =
      toGpgpuDevice { d with hal := d.hal.doorbellRing queueId } := by
  have hcb : d.toGpgpuDevice.doorbellRingCb = d.hal.doorbellRingCb := rfl
  rw [GpgpuDevice.halDoorbellRing, HalUserState.doorbellRing, hcb]
  cases d.hal.doorbellRingCb with
  | false => rfl
  | true => rfl

theorem pullerPath_toGpgpuDevice (d : DrvDevice HalUserState) (args : GpuPushbufferArgs) :
    (d.pullerPath halUser args).1 =
        .returned (d.toGpgpuDevice.pullerPath args).ret
          (.pushbuffer (d.toGpgpuDevice.pullerPath args).fenceId) ∧
      (d.pullerPath halUser args).2.toGpgpuDevice = (d.toGpgpuDevice.pullerPath args).device := by
  have hqueue : d.toGpgpuDevice.getQueue (GpgpuDevice.effectiveStreamId args) = d.queueOf args := rfl
  have hsubmit : d.submit halUser args =
    d.hal.queueSubmit (d.queueOf args) gpfifoBase args.count := rfl
  obtain ⟨hret, hfence, hdevice⟩ :=
    queueSubmit_toGpgpuDevice d (d.queueOf args) gpfifoBase args.count
  rw [pullerPath, GpgpuDevice.pullerPath]
  simp only [hqueue, hret]
  rw [← hsubmit] at hret hfence hdevice ⊢
  by_cases hzero : d.queueOf args = 0
  · rw [if_pos hzero, if_pos hzero]
    exact ⟨rfl, rfl⟩
  rw [if_neg hzero, if_neg hzero]
  by_cases hfail : (d.submit halUser args).1 = 0
  · rw [if_neg (not_not.mpr hfail), if_neg (not_not.mpr hfail)]
    refine ⟨?_, ?_⟩
    · show Reply.returned 0 _ = Reply.returned (d.submit halUser args).1 (.pushbuffer
        (d.toGpgpuDevice.halQueueSubmit (d.queueOf args) gpfifoBase args.count).fenceId)
      rw [hfail, hfence]
    · show _ = GpgpuDevice.halDoorbellRing (GpgpuDevice.halQueueSubmit _ _ _ _).device _
      rw [hdevice, doorbellRing_toGpgpuDevice]
      rfl
  · rw [if_pos hfail, if_pos hfail]
    exact ⟨rfl, hdevice.symm⟩

/-- Over this HAL the table does what the submission model does with a batch without FENCE entries. -/
theorem pushbuffer_toGpgpuDevice (d : DrvDevice HalUserState) (args : GpuPushbufferArgs)
    (hfence : GpgpuDevice.hasFence args = false) :
    (d.handlePushbufferSubmitBatch halUser (some args)).1 =
        .returned (d.toGpgpuDevice.handlePushbufferSubmitBatch (some args)).ret
          (.pushbuffer (d.toGpgpuDevice.handlePushbufferSubmitBatch (some args)).fenceId) ∧
      (d.handlePushbufferSubmitBatch halUser (some args)).2.toGpgpuDevice =
        (d.toGpgpuDevice.handlePushbufferSubmitBatch (some args)).device := by
  have hpuller : d.toGpgpuDevice.pullerHandle = d.puller := rfl
  rw [handlePushbufferSubmitBatch, GpgpuDevice.handlePushbufferSubmitBatch,
    vaSpaceValid_toGpgpuDevice, hpuller]
  by_cases hcount : args.count = 0 ∨ 16 < args.count
  · rw [if_pos hcount, if_pos hcount]
    exact ⟨rfl, rfl⟩
  rw [if_neg hcount, if_neg hcount]
  by_cases hvalid : (!d.vaSpaceValid args) = true
  · rw [if_pos hvalid, if_pos hvalid]
    exact ⟨rfl, rfl⟩
  rw [if_neg hvalid, if_neg hvalid]
  by_cases hpath : d.puller ≠ 0 ∧ GpgpuDevice.hasFence args = false
  · rw [if_pos hpath, if_pos hpath]
    exact pullerPath_toGpgpuDevice d args
  · rw [if_neg hpath, if_neg hpath, syncPath_no_fence hfence,
      syncLoop_no_fence _ rfl (isFence_eq_false hfence)]
    exact ⟨rfl, rfl⟩

/-! ### What this HAL cannot do -/

theorem nextSimFenceId_doorbellRing (h : HalUserState) (queueId : UInt32) :
    (h.doorbellRing queueId).nextSimFenceId = h.nextSimFenceId := by
  rw [HalUserState.doorbellRing]
  split_ifs
  · rfl
  · rfl

/-- A submission that succeeds takes a fence id. -/
theorem nextSimFenceId_queueSubmit {h : HalUserState} {q gpfifoAddr : UInt64} {count : UInt32}
    (hret : (h.queueSubmit q gpfifoAddr count).1 = 0) :
    (h.queueSubmit q gpfifoAddr count).2.2.nextSimFenceId = h.nextSimFenceId + 1 := by
  rw [HalUserState.queueSubmit] at hret ⊢
  cases hq : h.queues q with
  | none =>
    rw [hq] at hret
    exact absurd hret (show ¬-eINVAL = 0 by decide)
  | some bound =>
    simp only
    split_ifs
    · rfl
    · rfl
    · rfl

theorem not_silentSubmit (d : DrvDevice HalUserState) (args : GpuPushbufferArgs) :
    ¬d.SilentSubmit halUser args := by
  intro ⟨_, hret, _, hrung⟩
  have hnext := congrArg HalUserState.nextSimFenceId hrung
  have hrings : (d.rung halUser args).nextSimFenceId =
    (d.submit halUser args).2.2.nextSimFenceId := nextSimFenceId_doorbellRing _ _
  have hsubmits : (d.submit halUser args).2.2.nextSimFenceId = d.hal.nextSimFenceId + 1 :=
    nextSimFenceId_queueSubmit hret
  rw [hrings, hsubmits] at hnext
  exact absurd hnext (by simp)

/-- The sim fence table answers for no id of the driver's range. -/
theorem checksSignaled_eq_false {fenceId : UInt64} (h : fenceId < Device.simFenceIdBase)
    (hal : HalUserState) : checksSignaled halUser fenceId hal = false := by
  have hcheck : halUser.fenceIdCheck hal fenceId = (-eINVAL, false) := if_pos (.inl h)
  rw [checksSignaled, hcheck, Bool.and_false]

/-- Over this HAL no submission may reach the puller. -/
theorem alike_pushbuffer_user_iff (d : DrvDevice HalUserState) (args : Option GpuPushbufferArgs) :
    Alike halUser d (.pushbufferSubmitBatch args) ↔ ∀ a ∈ args, a.count = 0 ∨ 16 < a.count ∨
      d.vaSpaceValid a = true ∧ (d.puller = 0 ∨ GpgpuDevice.hasFence a = true) := by
  refine forall₂_congr fun a _ => ?_
  rw [or_iff_left (d.not_silentSubmit a)]

/-- Over this HAL no poll may find a fence of the driver's range signaled. -/
theorem alike_waitFence_user_iff (d : DrvDevice HalUserState) (args : Option GpuWaitFenceArgs)
    (meanwhile : List (HalUserState → HalUserState)) :
    Alike halUser d (.waitFence args meanwhile) ↔
      ∀ a ∈ args, a.fenceId < Device.simFenceIdBase →
        ∀ hal ∈ polled a.timeoutMs 0 d.hal meanwhile, ¬readsSignaled halUser a.fenceId hal = true := by
  refine forall₂_congr fun a _ => forall_congr' fun hid => ?_
  have hnone : ¬∃ hal ∈ polled a.timeoutMs 0 d.hal meanwhile,
      checksSignaled halUser a.fenceId hal = true := by
    intro ⟨hal, _, hcheck⟩
    rw [checksSignaled_eq_false hid] at hcheck
    cases hcheck
  rw [iff_false_right hnone]
  push Not
  rfl

/-! ### A difference -/

/-- A device without buffer objects, queues or VA spaces, and the host address of its heap. -/
def freshUser (heapPtr : UInt64) : DrvDevice HalUserState where
  allocatedBits := fun _ => false
  boMap := fun _ => none
  vaSpaces := fun _ => none
  queues := fun _ => none
  puller := 0
  hal := ⟨heapPtr, none, .legacy, fun _ => none, Device.simFenceIdBase, true, HardwarePullerEmu.init .bare⟩

/-- A page is allocated and mapped: one table reports where it lies in the host, the other its GPU
address. -/
theorem ioctl_tables_agree_fails :
    ¬TablesAgree halUser (freshUser 0x7f0000000000)
      [.allocBo (some ⟨4096, 1, 0, 0, 0⟩), .mapBo (some ⟨1, 0, 0⟩)] := by
  intro hagree
  have hsame := hagree.2.2.1
  have hreply : ((bothTables halUser (freshUser 0x7f0000000000, freshUser 0x7f0000000000)
      (.allocBo (some ⟨4096, 1, 0, 0, 0⟩))).1.ioctl halUser (.mapBo (some ⟨1, 0, 0⟩))).1 =
        .returned 0 (.mapBo 0x7f000ffff000) := by
    decide +kernel
  have hreply' : ((bothTables halUser (freshUser 0x7f0000000000, freshUser 0x7f0000000000)
      (.allocBo (some ⟨4096, 1, 0, 0, 0⟩))).2.drmIoctl halUser (.mapBo (some ⟨1, 0, 0⟩))).1 =
        .returned 0 (.mapBo 0x10ffff000) := by
    decide +kernel
  rw [SameReply, hreply, hreply'] at hsame
  exact absurd hsame (by decide)

end DrvDevice

end UsrLinuxEmu.GpuDriver
