import Mathlib.Algebra.Order.Ring.Nat
import UsrLinuxEmu.GpuDriver.BlockedEntries
import UsrLinuxEmu.GpuDriver.FenceEffects
import UsrLinuxEmu.Layout.Confinement

/-!
# Accesses to the HAL heap (`hal/hal_user.cpp`, `sim/hardware/hardware_puller_emu.cpp`)

`mem_read` and `mem_write` take the base off the device address and check the end of the range, in
64-bit arithmetic.  The puller makes such calls for MEMCPY, for semaphores and when it fetches.

* `HalCall` / `Device.call` — a call with its host side, and what it does;
* `HardwarePullerEmu.halCall` / `pullerStep_memory` — the call of the puller's next step, through
  which alone the step changes memory;
* `Confined` — the call succeeds exactly for the ranges in the heap, and does nothing otherwise;
* `HalCall.Sound` / `heap_confinement_iff` — when that is so.
-/

namespace UsrLinuxEmu.GpuDriver

open UsrLinuxEmu.Layout HalUserContext HardwarePullerEmu

/-! ### Calls -/

/-- `mem_read` or `mem_write`, between the heap and host memory or a variable of the puller. -/
inductive HalCall where
  | read (devAddr host size : UInt64)
  | write (devAddr host size : UInt64)
  | readLocal (devAddr size : UInt64)
  | writeLocal (devAddr size : UInt64) (bytes : ℕ → UInt8)

namespace HalCall

def devAddr : HalCall → UInt64
  | .read devAddr _ _ | .write devAddr _ _ | .readLocal devAddr _ | .writeLocal devAddr _ _ =>
    devAddr

def size : HalCall → UInt64
  | .read _ _ size | .write _ _ size | .readLocal _ size | .writeLocal _ size _ => size

/-- `host_buf == nullptr`. -/
def hostNull : HalCall → Bool
  | .read _ host _ | .write _ host _ => host == 0
  | .readLocal _ _ | .writeLocal _ _ _ => false

/-- The range lies in the heap. -/
def InHeap (c : HalCall) : Prop :=
  Inside halHeapBase.toNat halHeapSize.toNat c.devAddr.toNat c.size.toNat

instance (c : HalCall) : Decidable c.InHeap := inferInstanceAs (Decidable (Inside ..))

/-- The end of the range, counted from the base, does not wrap around into the heap; and a null
host pointer comes with a range outside only. -/
def Sound (c : HalCall) : Prop :=
  if c.hostNull then ¬c.InHeap
  else ¬WrapsInto (2 ^ 64) halHeapSize.toNat (heapOff c.devAddr).toNat c.size.toNat

end HalCall

namespace Device

/-- The device after an accepted call, `none` for `-EINVAL`. -/
def call (d : Device) : HalCall → Option Device
  | .read devAddr host size =>
    if host = 0 then none
    else (d.hal.memRead devAddr size).map fun buf => { d with
      host := fun a => if a - host < size then buf (a - host).toNat else d.host a }
  | .write devAddr host size =>
    if host = 0 then none
    else (d.hal.memWrite devAddr size fun k => d.host (host + UInt64.ofNat k)).map fun hal =>
      { d with hal := hal }
  | .readLocal devAddr size => (d.hal.memRead devAddr size).map fun _ => d
  | .writeLocal devAddr size bytes => (d.hal.memWrite devAddr size bytes).map fun hal =>
      { d with hal := hal }

/-- The heap and the host's memory. -/
def memory (d : Device) : (UInt64 → UInt8) × (UInt64 → UInt8) := (d.hal.heap, d.host)

/-- The device with what the call did, if it was accepted. -/
def afterCall (d : Device) (c : HalCall) : Device := (d.call c).getD d

end Device

/-- The call that MEMCPY makes, when the size passes its own check: it reads from the heap when the
source looks like a device address. -/
def GpuGpfifoEntry.copyCall (e : GpuGpfifoEntry) : Option HalCall :=
  if 0 < e.copySize ∧ e.copySize ≤ halHeapSize then
    if halHeapBase ≤ e.copySrc ∧ e.copySrc < halHeapBase + halHeapSize then
      some (.read e.copySrc e.copyDst e.copySize)
    else some (.write e.copyDst e.copySrc e.copySize)
  else none

/-- The entry's semaphore value, written to its address. -/
def GpuGpfifoEntry.releaseCall (e : GpuGpfifoEntry) : HalCall :=
  .writeLocal e.semaphoreVa 4 (byteOf32 e.semaphoreValue)

/-- The call that the puller's next step makes. -/
def HardwarePullerEmu.halCall (s : HardwarePullerEmu) : Option HalCall :=
  match s.pc with
  | .fetch =>
    if s.regs.total ≤ s.regs.index then none
    else some (.readLocal (entryAddr s.regs.gpfifoAddr s.regs.index)
      (UInt64.ofNat sizeofGpfifoEntry))
  | .decode =>
    if s.currentEntry.method = gpuOpSemWait then some (.readLocal s.currentEntry.semaphoreVa 4)
    else none
  | .dispatch => if s.currentEntry.method = gpuOpMemcpy then s.currentEntry.copyCall else none
  | .semaphore => if s.currentEntry.release then some s.currentEntry.releaseCall else none
  | .waitSemaphore => if s.waiter.signaled then none else some (.readLocal s.waiter.va 4)
  | .complete => if releases s.currentEntry then some s.currentEntry.releaseCall else none
  | .idle | .channelSwitch | .scanQueues _ | .exchange | .schedule => none

/-! ### The property -/

/-- The call succeeds exactly when its range lies in the heap, and when it fails, `memory` is what
it was. -/
structure Confined (d : Device) (c : HalCall) (memory : (UInt64 → UInt8) × (UInt64 → UInt8)) :
    Prop where
  accepted : (d.call c).isSome = true ↔ c.InHeap
  rejected : d.call c = none → memory = d.memory

/-! ### Ranges -/

theorem HalCall.inHeap_iff (c : HalCall) :
    c.InHeap ↔ (heapOff c.devAddr).toNat + c.size.toNat ≤ halHeapSize.toNat := by
  have hend : halHeapBase.toNat + halHeapSize.toNat < 2 ^ 64 := by decide
  rw [InHeap, ← offset_inside_iff hend c.devAddr.toNat_lt, heapOff, UInt64.toNat_sub]

/-- What the code accepts. -/
theorem Device.call_isSome (d : Device) (c : HalCall) :
    (d.call c).isSome = (!c.hostNull && !outOfRange c.devAddr c.size) := by
  cases c with
  | read devAddr host size =>
    by_cases hhost : host = 0
    · simp only [call, HalCall.hostNull, if_pos hhost, beq_iff_eq.mpr hhost, Option.isSome_none,
        Bool.not_true, Bool.false_and]
    · simp only [call, HalCall.hostNull, if_neg hhost, beq_eq_false_iff_ne.mpr hhost,
        Option.isSome_map, memRead_isSome, HalCall.devAddr, HalCall.size, Bool.not_false,
        Bool.true_and]
  | write devAddr host size =>
    by_cases hhost : host = 0
    · simp only [call, HalCall.hostNull, if_pos hhost, beq_iff_eq.mpr hhost, Option.isSome_none,
        Bool.not_true, Bool.false_and]
    · simp only [call, HalCall.hostNull, if_neg hhost, beq_eq_false_iff_ne.mpr hhost,
        Option.isSome_map, memWrite_isSome, HalCall.devAddr, HalCall.size, Bool.not_false,
        Bool.true_and]
  | readLocal devAddr size =>
    rw [call, Option.isSome_map, memRead_isSome]
    rfl
  | writeLocal devAddr size bytes =>
    rw [call, Option.isSome_map, memWrite_isSome]
    rfl

theorem outOfRange_eq_false_iff (devAddr size : UInt64) :
    outOfRange devAddr size = false ↔
      ((heapOff devAddr).toNat + size.toNat) % 2 ^ 64 ≤ halHeapSize.toNat := by
  rw [outOfRange, decide_eq_false_iff_not, gt_iff_lt, UInt64.not_lt, UInt64.le_iff_toNat_le,
    UInt64.toNat_add]

/-- **One call.**  What is accepted is what lies in the heap exactly for the sound calls. -/
theorem HalCall.sound_iff (d : Device) (c : HalCall) :
    ((d.call c).isSome = true ↔ c.InHeap) ↔ c.Sound := by
  rw [d.call_isSome, Sound]
  cases c.hostNull with
  | true => simp
  | false =>
    have hlimit : halHeapSize.toNat < 2 ^ 64 := halHeapSize.toNat_lt
    rw [Bool.not_false, Bool.true_and, Bool.not_eq_true', outOfRange_eq_false_iff, c.inHeap_iff,
      if_neg (by simp), check_exact_iff (heapOff c.devAddr).toNat_lt c.size.toNat_lt hlimit]

/-! ### The puller's calls -/

section Puller

variable {s : HardwarePullerEmu}

theorem Device.afterCall_readLocal (d : Device) (devAddr size : UInt64) :
    d.afterCall (.readLocal devAddr size) = d := by
  rw [afterCall, call]
  cases d.hal.memRead devAddr size with
  | none => rfl
  | some buf => rfl

theorem Device.afterCall_release (d : Device) (e : GpuGpfifoEntry) :
    d.afterCall e.releaseCall = d.writeSemaphore e.semaphoreVa e.semaphoreValue := by
  rw [afterCall, GpuGpfifoEntry.releaseCall, call, writeSemaphore, HalUserContext.writeU32]
  cases d.hal.memWrite e.semaphoreVa 4 (byteOf32 e.semaphoreValue) with
  | none => rfl
  | some hal => rfl

/-- MEMCPY is the call that it makes. -/
theorem Device.memcpy_eq_call (d : Device) (e : GpuGpfifoEntry) :
    d.memcpy e.copySrc e.copyDst e.copySize = e.copyCall.bind d.call := by
  rw [memcpy, GpuGpfifoEntry.copyCall]
  by_cases hsize : 0 < e.copySize ∧ e.copySize ≤ halHeapSize
  · rw [if_pos hsize, if_pos hsize]
    by_cases hsrc : halHeapBase ≤ e.copySrc ∧ e.copySrc < halHeapBase + halHeapSize
    · rw [if_pos hsrc, if_pos hsrc]
      rfl
    · rw [if_neg hsrc, if_neg hsrc]
      rfl
  · rw [if_neg hsize, if_neg hsize]
    rfl

theorem Device.call_tick (d : Device) (c : HalCall) : d.tick.call c = (d.call c).map tick := by
  cases c with
  | read devAddr host size =>
    by_cases hhost : host = 0
    · simp only [call, if_pos hhost, Option.map_none]
    · simp only [call, if_neg hhost, Option.map_map]
      rfl
  | write devAddr host size =>
    by_cases hhost : host = 0
    · simp only [call, if_pos hhost, Option.map_none]
    · simp only [call, if_neg hhost, Option.map_map]
      rfl
  | readLocal devAddr size =>
    simp only [call, Option.map_map]
    rfl
  | writeLocal devAddr size bytes =>
    simp only [call, Option.map_map]
    rfl

/-- DISPATCH changes memory by the call of a MEMCPY only. -/
theorem Device.dispatch_memory (d : Device) (e : GpuGpfifoEntry) :
    (d.tick.execute e).2.2.memory =
      ((if e.method = gpuOpMemcpy then e.copyCall else none).elim d d.afterCall).memory := by
  by_cases hmem : e.method = gpuOpMemcpy
  · rw [if_pos hmem, d.tick.execute_memcpy hmem, Device.memcpy_eq_call]
    cases e.copyCall with
    | none => rfl
    | some c =>
      rw [Option.bind_some, Option.elim_some, afterCall, d.call_tick]
      cases d.call c with
      | none => rfl
      | some d' => rfl
  · have hsame := d.tick.execute_memory fun h => absurd h hmem
    rw [if_neg hmem, Option.elim_none, memory, hsame.1, hsame.2]
    rfl

theorem finishDevice_memory (s : HardwarePullerEmu) :
    s.finishDevice.memory =
      (if releases s.currentEntry then s.device.afterCall s.currentEntry.releaseCall
        else s.device).memory := by
  have hfence : ∀ d : Device, (d.simFenceIdSignal s.regs.fence).memory = d.memory := by
    intro d
    unfold Device.simFenceIdSignal
    split_ifs
    · rfl
    · rfl
  have hreleased : ({ s.device with hal := s.releasedHal } : Device) =
      if releases s.currentEntry then s.device.afterCall s.currentEntry.releaseCall
      else s.device := by
    rw [HardwarePullerEmu.releasedHal, Device.afterCall_release]
    split_ifs
    · rfl
    · rfl
  rw [HardwarePullerEmu.finishDevice, ← hreleased]
  dsimp only
  split_ifs
  · exact hfence _
  · exact hfence _
  · rfl
  · rfl

/-- What a call leaves of memory, when there is one. -/
def HardwarePullerEmu.calledMemory (s : HardwarePullerEmu) :
    (UInt64 → UInt8) × (UInt64 → UInt8) :=
  (s.halCall.elim s.device s.device.afterCall).memory

/-- **Memory.**  A step of the puller does to the heap and to host memory what its call does. -/
theorem pullerStep_memory (s : HardwarePullerEmu) (stale : GpuGpfifoEntry) :
    (s.pullerStep stale).device.memory = s.calledMemory := by
  have hstep := pullerStep_cases s stale
  generalize s.pullerStep stale = s' at hstep ⊢
  rw [calledMemory, halCall]
  cases hstep with
  | move hmove =>
    cases hmove with
    | fetchEnd hpc hidx =>
      simp only [hpc, if_pos hidx, Option.elim_none]
      rfl
    | pass hpc hop =>
      simp only [hpc, if_pos hop, Option.elim_some, Device.afterCall_readLocal]
      rfl
    | toSemaphore hpc =>
      simp only [hpc]
      split_ifs
      · rw [Option.elim_some, Device.afterCall_readLocal]
        rfl
      · rfl
    | toSchedule hpc =>
      simp only [hpc]
      split_ifs
      · rw [Option.elim_some, Device.afterCall_readLocal]
        rfl
      · rfl
    | stillWaiting hpc =>
      simp only [hpc]
      split_ifs
      · rfl
      · rw [Option.elim_some, Device.afterCall_readLocal]
        rfl
    | sleep hpc | wake hpc | noManager hpc | scanEnd hpc | scanEmpty hpc | noDoorbell hpc
    | schedule hpc =>
      simp only [hpc, Option.elim_none]
      rfl
  | noChannel hpc | exchange hpc => simp only [hpc, Option.elim_none]
  | select hpc | resume hpc | dequeue hpc =>
    simp only [hpc, Option.elim_none]
    rfl
  | fetch hpc hidx =>
    simp only [hpc, if_neg (Nat.not_le.mpr hidx), Option.elim_some, Device.afterCall_readLocal]
    rfl
  | blockNext hpc | blockLast hpc =>
    simp only [hpc]
    split_ifs
    · rw [Option.elim_some, Device.afterCall_readLocal]
    · rfl
  | dispatch hpc hexec =>
    simp only [hpc, ← s.device.dispatch_memory, hexec]
  | release hpc hrel =>
    simp only [hpc, if_pos hrel, Option.elim_some, Device.afterCall_release]
    rfl
  | wait hpc hrel =>
    simp only [hpc, hrel, Bool.false_eq_true, if_false, Option.elim_none]
  | waited hpc =>
    simp only [hpc]
    split_ifs
    · rfl
    · rw [Option.elim_some, Device.afterCall_readLocal]
  | completeNext hpc | completeLast hpc | checkpointDirect hpc | checkpointNone hpc
  | checkpointLoad hpc =>
    simp only [hpc, finishDevice_memory]
    split_ifs
    · rfl
    · rfl

/-- A rejected call of the puller leaves memory as it is. -/
theorem pullerStep_rejected (s : HardwarePullerEmu) (stale : GpuGpfifoEntry) {c : HalCall}
    (hc : c ∈ s.halCall) (hrejected : s.device.call c = none) :
    (s.pullerStep stale).device.memory = s.device.memory := by
  rw [pullerStep_memory, calledMemory, Option.mem_def.mp hc, Option.elim_some, Device.afterCall,
    hrejected, Option.getD_none]

end Puller

/-! ### The result -/

/-- **The heap.**  A call, made directly or by the puller, is confined to the heap exactly when its
end does not wrap around into it and its host pointer is not null for nothing. -/
theorem heap_confinement_iff (d : Device) (s : HardwarePullerEmu) (stale : GpuGpfifoEntry) :
    (∀ c : HalCall, Confined d c (d.afterCall c).memory ↔ c.Sound) ∧
      ((∀ c ∈ s.halCall, Confined s.device c (s.pullerStep stale).device.memory) ↔
        ∀ c ∈ s.halCall, c.Sound) := by
  constructor
  · intro c
    rw [← c.sound_iff d]
    refine ⟨fun h => h.accepted, fun h => ⟨h, fun hrejected => ?_⟩⟩
    rw [Device.afterCall, hrejected, Option.getD_none]
  · refine forall₂_congr fun c hc => ?_
    rw [← c.sound_iff s.device]
    exact ⟨fun h => h.accepted, fun h => ⟨h, pullerStep_rejected s stale hc⟩⟩

/-- 32 bytes to 16 below the heap are written, the first half of them in front of it. -/
theorem heap_confinement_fails :
    ¬∀ (d : Device) (c : HalCall), Confined d c (d.afterCall c).memory := by
  intro h
  have hconfined := h ⟨⟨fun _ => 0, 0⟩, fun _ => 0, none, 0, fun _ => none, false⟩
    (.write (halHeapBase - 16) 0x1000 32)
  have hinside := hconfined.accepted.mp (by decide)
  revert hinside
  decide

end UsrLinuxEmu.GpuDriver
