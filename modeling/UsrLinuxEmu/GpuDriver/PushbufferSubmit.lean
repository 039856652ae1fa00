import Mathlib.Tactic.SplitIfs
import UsrLinuxEmu.GpuDriver.PullerSystem

/-!
# The submission ioctl (`drv/gpgpu_device.cpp`)

`GPU_IOCTL_PUSHBUFFER_SUBMIT_BATCH` passes an array of entries.  On the puller path the driver hands
the puller a fixed GPFIFO address and the count; the array itself is only looked at for FENCE
entries and never copied to device memory.

* `handlePushbufferSubmitBatch` — the ioctl with its checks, its puller path and its sync path;
* `fetchedEntries` — what the puller fetches for the submitted batch;
* `PushbufferRefines` — the fetched entries are the caller's, and no rejected read is executed;
* `gpfifoBase_outOfRange` — the fixed address lies outside the heap, so that every read is rejected;
* `pushbuffer_never_refines` — no successful ioctl refines the array.
-/

namespace UsrLinuxEmu.GpuDriver

/-! ### The device -/

/-- `gpu_pushbuffer_args` with the array that `entries_addr` points to; `fenceId` is the output. -/
structure GpuPushbufferArgs where
  streamId : UInt64
  entries : ℕ → GpuGpfifoEntry
  count : UInt32
  fenceId : UInt64
  vaSpaceHandle : UInt64
  streamIdCompat : UInt32

def gpfifoBase : UInt64 := 0x10000000
def halMaxFences : ℕ := 128

/-- What the handler reads of the device and of the HAL behind it: the VA spaces with their attached
queues, the queue table, the puller's handle, the HAL's queues with whether a puller is bound, the
fence tables, whether the doorbell callback is set, and the puller. -/
structure GpgpuDevice where
  vaSpaces : UInt64 → Option (List UInt64)
  queues : UInt64 → Option UInt64
  pullerHandle : UInt64
  halQueues : UInt64 → Option Bool
  nextSimFenceId : UInt64
  /-- The next handle of the HAL's `SemaphoreManager`, when there is one. -/
  nextSemHandle : Option UInt64
  fenceSignaled : ℕ → Bool
  doorbellRingCb : Bool
  puller : HardwarePullerEmu

/-- The outcome of the ioctl: its return value, `args->fence_id` afterwards, the device, and the
batch handed to `HardwarePullerEmu::submitBatch`, if any. -/
structure PushbufferResult where
  ret : Int
  fenceId : UInt64
  device : GpgpuDevice
  submitted : Option Batch

namespace GpgpuDevice

/-! ### The checks -/

def vaSpaceExists (d : GpgpuDevice) (handle : UInt64) : Bool := (d.vaSpaces handle).isSome

/-- `va_space_handle` is zero, or the VA space exists and `stream_id` is attached to it. -/
def vaSpaceValid (d : GpgpuDevice) (args : GpuPushbufferArgs) : Bool :=
  args.vaSpaceHandle == 0 ||
    d.vaSpaceExists args.vaSpaceHandle &&
      ((d.vaSpaces args.vaSpaceHandle).getD []).contains args.streamId

def effectiveStreamId (args : GpuPushbufferArgs) : UInt64 :=
  if args.streamId = 0 ∧ args.streamIdCompat ≠ 0 then args.streamIdCompat.toUInt64
  else args.streamId

def hasFence (args : GpuPushbufferArgs) : Bool :=
  (List.range args.count.toNat).any fun i =>
    (args.entries i).valid && (args.entries i).method == gpuOpFence

/-- `0` stands for an unknown queue. -/
def getQueue (d : GpgpuDevice) (streamId : UInt64) : UInt64 := (d.queues streamId).getD 0

/-! ### The puller path -/

/-- `sim_fence_id_alloc`. -/
def simFenceIdAlloc (d : GpgpuDevice) : UInt64 × GpgpuDevice :=
  let id := d.nextSimFenceId
  (id, { d with
    nextSimFenceId := id + 1
    puller := { d.puller with device := { d.puller.device with
      simFenceTable := fun f => if f = id then some false else d.puller.device.simFenceTable f } } })

/-- `hal_queue_submit`: a negative fence is refused, and so is a queue without a puller. -/
def halQueueSubmit (d : GpgpuDevice) (q : UInt64) (gpfifoAddr : UInt64) (count : UInt32) :
    PushbufferResult :=
  match d.halQueues q with
  | none => ⟨-eINVAL, 0, d, none⟩
  | some bound =>
    let fence := d.simFenceIdAlloc.1
    let d := d.simFenceIdAlloc.2
    if 0x7FFFFFFFFFFFFFFF < fence then ⟨-eNOMEM, 0, d, none⟩
    else if bound then
      let b : Batch := ⟨gpfifoAddr, count, fence⟩
      ⟨0, fence, { d with puller := d.puller.submitBatch b }, some b⟩
    else ⟨-eNODEV, 0, d, none⟩

/-- `hal_doorbell_ring` with the callback that writes the doorbell. -/
def halDoorbellRing (d : GpgpuDevice) (queueId : UInt32) : GpgpuDevice :=
  if d.doorbellRingCb then { d with puller := d.puller.writeDoorbell queueId } else d

def pullerPath (d : GpgpuDevice) (args : GpuPushbufferArgs) : PushbufferResult :=
  let q := d.getQueue (effectiveStreamId args)
  if q = 0 then ⟨-eNOENT, args.fenceId, d, none⟩
  else
    let r := d.halQueueSubmit q gpfifoBase args.count
    if r.ret ≠ 0 then { r with fenceId := args.fenceId }
    else { r with device := r.device.halDoorbellRing (effectiveStreamId args).toUInt32 }

/-! ### The sync path -/

/-- `hal_fence_create`: from the semaphore manager, or a free place in the fixed table. -/
def halFenceCreate (d : GpgpuDevice) : Option (UInt64 × GpgpuDevice) :=
  match d.nextSemHandle with
  | some h =>
    if h = 0 then none else some (h, { d with nextSemHandle := some (h + 1) })
  | none =>
    ((List.range halMaxFences).find? fun i => !d.fenceSignaled i).map fun i =>
      (UInt64.ofNat i, { d with fenceSignaled := fun k => if k = i then true else d.fenceSignaled k })

/-- One entry of the sync path: FENCE creates a fence, everything else is only printed. -/
def syncEntry (r : PushbufferResult) (e : GpuGpfifoEntry) : PushbufferResult :=
  if e.valid && e.method == gpuOpFence then
    match r.device.halFenceCreate with
    | some (f, d) => { r with fenceId := f, device := d }
    | none => { r with ret := -eNOMEM }
  else r

/-- The loop of the sync path returns at the first fence that cannot be created. -/
def syncLoop (r : PushbufferResult) : List GpuGpfifoEntry → PushbufferResult
  | [] => r
  | e :: rest => if (syncEntry r e).ret ≠ 0 then syncEntry r e else syncLoop (syncEntry r e) rest

/-- The caller's array. -/
def callerEntries (args : GpuPushbufferArgs) : List GpuGpfifoEntry :=
  (List.range args.count.toNat).map args.entries

/-! ### The ioctl -/

/-- `GpgpuDevice::handlePushbufferSubmitBatch`; `none` stands for a null argument pointer. -/
def handlePushbufferSubmitBatch (d : GpgpuDevice) : Option GpuPushbufferArgs → PushbufferResult
  | none => ⟨-eFAULT, 0, d, none⟩
  | some args =>
    if args.count = 0 ∨ 16 < args.count then ⟨-eINVAL, args.fenceId, d, none⟩
    else if !d.vaSpaceValid args then ⟨-eINVAL, args.fenceId, d, none⟩
    else if d.pullerHandle ≠ 0 ∧ hasFence args = false then d.pullerPath args
    else syncLoop ⟨0, args.fenceId, d, none⟩ (callerEntries args)

end GpgpuDevice

/-! ### The property -/

/-- The registers of the batch with the cursor on entry `i`. -/
def Batch.regsAt (b : Batch) (i : ℕ) : GpfifoRegs := { b.regs with index := i }

/-- The entries that the puller fetches for the batch, one FETCH for each position of the cursor;
`stale i` is what the local entry holds before the `i`-th read. -/
def fetchedEntries (s : HardwarePullerEmu) (b : Batch) (stale : ℕ → GpuGpfifoEntry) :
    List GpuGpfifoEntry :=
  (List.range b.entryCount.toNat).filterMap fun i =>
    { s with regs := b.regsAt i }.fetchEntry (stale i)

/-- The entries fetched for the submission of the ioctl; none are when nothing was submitted. -/
def PushbufferResult.fetched (r : PushbufferResult) (stale : ℕ → GpuGpfifoEntry) :
    List GpuGpfifoEntry :=
  match r.submitted with
  | none => []
  | some b => fetchedEntries r.device.puller b stale

/-- The puller fetches the caller's array, in order, whatever its local entry held before. -/
def FetchesCallers (args : GpuPushbufferArgs) (r : PushbufferResult) : Prop :=
  ∀ stale, r.fetched stale = GpgpuDevice.callerEntries args

/-- A rejected read hands the puller no entry of the batch. -/
def NoStaleEntry (s : HardwarePullerEmu) (b : Batch) : Prop :=
  ∀ i stale, s.device.hal.memRead (entryAddr b.gpfifoAddr i) (UInt64.ofNat sizeofGpfifoEntry) =
    none → { s with regs := b.regsAt i }.fetchEntry stale = none

structure PushbufferRefines (args : GpuPushbufferArgs) (r : PushbufferResult) : Prop where
  inOrder : FetchesCallers args r
  noStale : ∀ b ∈ r.submitted, NoStaleEntry r.device.puller b

/-! ### Every read is rejected -/

/-- The driver's fixed address lies below the heap, and stays there for every entry. -/
theorem gpfifoBase_outOfRange : ∀ i < 16, HalUserContext.outOfRange (entryAddr gpfifoBase i)
    (UInt64.ofNat sizeofGpfifoEntry) = true := by
  decide +kernel

/-- A rejected read hands FETCH whatever its local entry held. -/
theorem fetchEntry_of_rejected {s : HardwarePullerEmu} (hlt : s.regs.index < s.regs.total)
    (hread : s.device.hal.memRead (entryAddr s.regs.gpfifoAddr s.regs.index)
      (UInt64.ofNat sizeofGpfifoEntry) = none) (stale : GpuGpfifoEntry) :
    s.fetchEntry stale = some stale := by
  rw [HardwarePullerEmu.fetchEntry, if_neg (Nat.not_le_of_lt hlt), hread]

/-- The batches that the ioctl submits. -/
structure FromIoctl (args : GpuPushbufferArgs) (b : Batch) : Prop where
  addr : b.gpfifoAddr = gpfifoBase
  count : b.entryCount = args.count
  small : args.count.toNat ≤ 16

section Submitted

variable {args : GpuPushbufferArgs} {b : Batch}

theorem FromIoctl.memRead (h : FromIoctl args b) (ctx : HalUserContext) {i : ℕ}
    (hi : i < args.count.toNat) :
    ctx.memRead (entryAddr b.gpfifoAddr i) (UInt64.ofNat sizeofGpfifoEntry) = none := by
  have hsmall : i < 16 := Nat.lt_of_lt_of_le hi h.small
  have hrange := gpfifoBase_outOfRange i hsmall
  rw [h.addr]
  exact HalUserContext.memRead_eq_none hrange

/-- Whatever the memory holds, every entry fetched for the batch is stale. -/
theorem FromIoctl.fetchEntry (h : FromIoctl args b) (s : HardwarePullerEmu) {i : ℕ}
    (hi : i < args.count.toNat) (stale : GpuGpfifoEntry) :
    { s with regs := b.regsAt i }.fetchEntry stale = some stale := by
  have hread := h.memRead s.device.hal hi
  have hlt : i < b.entryCount.toNat := by rwa [h.count]
  exact fetchEntry_of_rejected (s := { s with regs := b.regsAt i }) hlt hread stale

theorem FromIoctl.fetchedEntries (h : FromIoctl args b) (s : HardwarePullerEmu)
    (stale : ℕ → GpuGpfifoEntry) :
    fetchedEntries s b stale = (List.range args.count.toNat).map stale := by
  rw [GpuDriver.fetchedEntries, h.count, ← List.filterMap_eq_map]
  refine List.filterMap_congr fun i hi => ?_
  exact h.fetchEntry s (List.mem_range.mp hi) (stale i)

/-- Every entry that the puller takes for the batch comes from a rejected read. -/
theorem FromIoctl.not_noStaleEntry (h : FromIoctl args b) (hpos : 0 < args.count.toNat)
    (s : HardwarePullerEmu) : ¬ NoStaleEntry s b := by
  intro hno
  have hnone := hno 0 .zero (h.memRead _ hpos)
  rw [h.fetchEntry s hpos] at hnone
  cases hnone

end Submitted

/-! ### What a successful ioctl submits -/

theorem syncLoop_submitted (r : PushbufferResult) (es : List GpuGpfifoEntry) :
    (GpgpuDevice.syncLoop r es).submitted = r.submitted := by
  have hentry : ∀ (r : PushbufferResult) e, (GpgpuDevice.syncEntry r e).submitted = r.submitted := by
    intro r e
    unfold GpgpuDevice.syncEntry
    split
    · split <;> rfl
    · rfl
  induction es generalizing r with
  | nil => rfl
  | cons e es ih =>
    rw [GpgpuDevice.syncLoop]
    split
    · exact hentry r e
    · rw [ih, hentry]

theorem halQueueSubmit_submitted {d : GpgpuDevice} {q addr : UInt64} {count : UInt32} {b : Batch}
    (h : b ∈ (d.halQueueSubmit q addr count).submitted) :
    b.gpfifoAddr = addr ∧ b.entryCount = count := by
  unfold GpgpuDevice.halQueueSubmit at h
  split at h
  · cases h
  · simp only at h
    split_ifs at h
    · cases h
    · cases h
      exact ⟨rfl, rfl⟩
    · cases h

theorem pullerPath_submitted {d : GpgpuDevice} {args : GpuPushbufferArgs} {b : Batch}
    (h : b ∈ (d.pullerPath args).submitted) :
    b.gpfifoAddr = gpfifoBase ∧ b.entryCount = args.count := by
  unfold GpgpuDevice.pullerPath at h
  simp only at h
  split_ifs at h
  · cases h
  · exact halQueueSubmit_submitted h
  · exact halQueueSubmit_submitted h

/-- A successful ioctl has between one and sixteen entries, and what it submits is the fixed
address with their number. -/
theorem submitted_of_success {d : GpgpuDevice} {args : GpuPushbufferArgs}
    (hret : (d.handlePushbufferSubmitBatch (some args)).ret = 0) :
    0 < args.count.toNat ∧
      ∀ b ∈ (d.handlePushbufferSubmitBatch (some args)).submitted, FromIoctl args b := by
  unfold GpgpuDevice.handlePushbufferSubmitBatch at hret ⊢
  simp only at hret ⊢
  by_cases hcount : args.count = 0 ∨ 16 < args.count
  · rw [if_pos hcount] at hret
    cases hret
  · rw [if_neg hcount] at hret ⊢
    rw [not_or, UInt32.not_lt, UInt32.le_iff_toNat_le] at hcount
    have hpos : 0 < args.count.toNat := Nat.pos_of_ne_zero fun h =>
      hcount.1 (UInt32.toNat_inj.mp h)
    refine ⟨hpos, fun b hb => ?_⟩
    split_ifs at hb
    · cases hb
    · obtain ⟨haddr, hnumber⟩ := pullerPath_submitted hb
      exact ⟨haddr, hnumber, hcount.2⟩
    · rw [syncLoop_submitted] at hb
      cases hb

/-! ### The result -/

/-- Some content of the local entry differs from a given entry. -/
def GpuGpfifoEntry.flipValid (e : GpuGpfifoEntry) : GpuGpfifoEntry := { e with valid := !e.valid }

theorem GpuGpfifoEntry.flipValid_ne (e : GpuGpfifoEntry) : e.flipValid ≠ e := by
  intro h
  have hvalid : (!e.valid) = e.valid := congrArg GpuGpfifoEntry.valid h
  cases hv : e.valid <;> rw [hv] at hvalid <;> cases hvalid

/-- **Submission.**  No successful ioctl has the puller fetch the caller's array: on the sync path
nothing is fetched, and on the puller path every entry is what a rejected read left behind. -/
theorem pushbuffer_never_refines (d : GpgpuDevice) (args : GpuPushbufferArgs)
    (hret : (d.handlePushbufferSubmitBatch (some args)).ret = 0) :
    ¬ FetchesCallers args (d.handlePushbufferSubmitBatch (some args)) ∧
      ∀ b ∈ (d.handlePushbufferSubmitBatch (some args)).submitted,
        ¬ NoStaleEntry (d.handlePushbufferSubmitBatch (some args)).device.puller b := by
  obtain ⟨hpos, hfrom⟩ := submitted_of_success hret
  generalize d.handlePushbufferSubmitBatch (some args) = r at hfrom
  refine ⟨fun horder => ?_, fun b hb => (hfrom b hb).not_noStaleEntry hpos r.device.puller⟩
  have hfetched := horder fun i => (args.entries i).flipValid
  have hfirst : (0 : ℕ) ∈ List.range args.count.toNat := List.mem_range.mpr hpos
  cases hsub : r.submitted with
  | none =>
    rw [PushbufferResult.fetched, hsub, GpgpuDevice.callerEntries, eq_comm, List.map_eq_nil_iff]
      at hfetched
    rw [hfetched] at hfirst
    cases hfirst
  | some b =>
    rw [PushbufferResult.fetched, hsub] at hfetched
    simp only [(hfrom b hsub).fetchedEntries, GpgpuDevice.callerEntries] at hfetched
    exact GpuGpfifoEntry.flipValid_ne _ (List.map_inj_left.mp hfetched 0 hfirst)

/-- A device with one queue, bound to a puller without channel manager. -/
def GpgpuDevice.oneQueue : GpgpuDevice where
  vaSpaces := fun _ => none
  queues := fun q => if q = 1 then some 1 else none
  pullerHandle := 1
  halQueues := fun q => if q = 1 then some true else none
  nextSimFenceId := Device.simFenceIdBase
  nextSemHandle := none
  fenceSignaled := fun _ => false
  doorbellRingCb := true
  puller := HardwarePullerEmu.init .bare

/-- One launch entry on queue 1. -/
def GpuPushbufferArgs.oneLaunch : GpuPushbufferArgs where
  streamId := 1
  entries := fun _ => { GpuGpfifoEntry.zero with valid := true, method := gpuOpLaunchKernel }
  count := 1
  fenceId := 0
  vaSpaceHandle := 0
  streamIdCompat := 0

theorem pushbuffer_never_refines_one_launch :
    ¬ FetchesCallers .oneLaunch
        (GpgpuDevice.oneQueue.handlePushbufferSubmitBatch (some .oneLaunch)) ∧
      ∀ b ∈ (GpgpuDevice.oneQueue.handlePushbufferSubmitBatch (some .oneLaunch)).submitted,
        ¬ NoStaleEntry
          (GpgpuDevice.oneQueue.handlePushbufferSubmitBatch (some .oneLaunch)).device.puller b :=
  pushbuffer_never_refines _ _ (by decide +kernel)

/-- The launch is submitted and a zero entry is fetched in its place. -/
theorem pushbuffer_refines_fails :
    (GpgpuDevice.oneQueue.handlePushbufferSubmitBatch (some .oneLaunch)).ret = 0 ∧
      ¬ PushbufferRefines .oneLaunch
        (GpgpuDevice.oneQueue.handlePushbufferSubmitBatch (some .oneLaunch)) := by
  refine ⟨by decide +kernel, fun h => ?_⟩
  have hfetched := h.inOrder fun _ => .zero
  revert hfetched
  decide +kernel

end UsrLinuxEmu.GpuDriver
