import UsrLinuxEmu.GpuDriver.BatchDelivery
import UsrLinuxEmu.GpuDriver.FenceErasure
import UsrLinuxEmu.GpuDriver.HeapConfinement

/-!
# MEMCPY at DISPATCH (`sim/hardware/hardware_puller_emu.cpp`)

DISPATCH tells the direction of a copy from the source address alone, and takes the other operand
for a host pointer or a device address accordingly.  When the HAL refuses the call, the fence of the
registers is dropped.

* `Side` — where a range lies, with `Side.bytes` and `Side.store`;
* `CopiesExactly` / `copies_iff` — the bytes at the destination become those at the source and
  nothing else changes, exactly for the copies whose sides are guessed right;
* `reloadGuard` / `not_signaled_of_failed` — a batch with a refused copy is not signaled, as long
  as no load gives it its fence back;
* `others_unaffected` — all other effects are those of a copy that did nothing;
* `memcpy_dispatch` — the three together.
-/

namespace UsrLinuxEmu.GpuDriver

open UsrLinuxEmu.Transition UsrLinuxEmu.Layout ChannelManager HalUserContext HardwarePullerEmu

/-! ### Sides -/

/-- The heap and the host's memory. -/
abbrev Memories := (UInt64 → UInt8) × (UInt64 → UInt8)

/-- A range of device memory, or a host buffer. -/
inductive Side where
  | device
  | host
  deriving DecidableEq, Repr

namespace Side

def other : Side → Side
  | device => host
  | host => device

/-- A range in the HAL heap, or a host buffer, which does not wrap around. -/
def Holds : Side → UInt64 → UInt64 → Prop
  | device, addr, size => Inside halHeapBase.toNat halHeapSize.toNat addr.toNat size.toNat
  | host, addr, size => addr.toNat + size.toNat ≤ 2 ^ 64 ∧ (size ≠ 0 → addr ≠ 0)

instance decidableHolds (addr size : UInt64) : ∀ S : Side, Decidable (S.Holds addr size)
  | device => inferInstanceAs (Decidable (Inside ..))
  | host => inferInstanceAs (Decidable (_ ∧ _))

/-- The memory of the side, the heap by the offset from its first byte. -/
def memory (S : Side) (m : Memories) : UInt64 → UInt8 :=
  match S with
  | device => m.1
  | host => m.2

def place : Side → UInt64 → UInt64
  | device, addr => heapOff addr
  | host, addr => addr

/-- Byte `k` from `addr` on. -/
def bytes (S : Side) (m : Memories) (addr k : UInt64) : UInt8 := S.memory m (S.place addr + k)

/-- The memory with the `size` bytes at `addr` replaced by `buf`. -/
def store (S : Side) (m : Memories) (addr size : UInt64) (buf : UInt64 → UInt8) : Memories :=
  let written := fun a => if a - S.place addr < size then buf (a - S.place addr) else S.memory m a
  match S with
  | device => (written, m.2)
  | host => (m.1, written)

@[simp] theorem memory_store_self (S : Side) (m : Memories) (addr size : UInt64)
    (buf : UInt64 → UInt8) (a : UInt64) :
    S.memory (S.store m addr size buf) a =
      if a - S.place addr < size then buf (a - S.place addr) else S.memory m a := by
  cases S with
  | device => rfl
  | host => rfl

@[simp] theorem memory_store_other (S : Side) (m : Memories) (addr size : UInt64)
    (buf : UInt64 → UInt8) :
    S.other.memory (S.store m addr size buf) = S.other.memory m := by
  cases S with
  | device => rfl
  | host => rfl

theorem memory_ext {m m' : Memories} (S : Side) (h : ∀ a, S.memory m a = S.memory m' a)
    (h' : S.other.memory m = S.other.memory m') : m = m' := by
  cases S with
  | device => exact Prod.ext (funext h) h'
  | host => exact Prod.ext h' (funext h)

theorem eq_or_eq_other (S T : Side) : S = T ∨ S = T.other := by
  cases S <;> cases T <;> simp [other]

theorem place_inj {S : Side} {addr addr' : UInt64} (h : S.place addr = S.place addr') :
    addr = addr' := by
  cases S with
  | device => exact (UInt64.sub_left_inj _).mp h
  | host => exact h

theorem store_zero (S : Side) (m : Memories) (addr : UInt64) (buf : UInt64 → UInt8) :
    S.store m addr 0 buf = m := by
  refine memory_ext S (fun a => ?_) (memory_store_other S m addr 0 buf)
  rw [memory_store_self, if_neg UInt64.not_lt_zero]

/-- The first byte of what is stored. -/
theorem memory_store_place (S : Side) (m : Memories) {addr size : UInt64} (hsize : size ≠ 0)
    (buf : UInt64 → UInt8) :
    S.memory (S.store m addr size buf) (S.place addr) = buf 0 := by
  rw [memory_store_self, UInt64.sub_self, if_pos (UInt64.pos_iff_ne_zero.mpr hsize)]

/-- Bytes stored where they are. -/
theorem store_bytes (S : Side) (m : Memories) (addr size : UInt64) :
    S.store m addr size (S.bytes m addr) = m := by
  refine memory_ext S (fun a => ?_) (memory_store_other S m addr size _)
  rw [memory_store_self, bytes, UInt64.add_comm, UInt64.sub_add_cancel]
  split_ifs
  · rfl
  · rfl

end Side

/-! ### The property of a copy -/

/-- Whatever memory holds, the `size` bytes at the destination become those at the source, and
nothing else changes. -/
def CopiesExactly (e : GpuGpfifoEntry) (S D : Side) : Prop :=
  ∀ (s : HardwarePullerEmu) (stale : GpuGpfifoEntry), s.pc = .dispatch → s.currentEntry = e →
    (s.pullerStep stale).device.memory =
      D.store s.device.memory e.copyDst e.copySize (S.bytes s.device.memory e.copySrc)

/-- The side that the code takes the source for. -/
def GpuGpfifoEntry.guessedSide (e : GpuGpfifoEntry) : Side :=
  if halHeapBase ≤ e.copySrc ∧ e.copySrc < halHeapBase + halHeapSize then .device else .host

/-- The guess is right for both operands; or there is nothing to copy, because the size is zero, or
because the two are one range and the call is refused. -/
def GpuGpfifoEntry.SidesGuessed (e : GpuGpfifoEntry) (S D : Side) : Prop :=
  S = e.guessedSide ∧ D = e.guessedSide.other ∨ e.copySize = 0 ∨
    S = D ∧ e.copySrc = e.copyDst ∧ e.copyAccepted = false

instance (e : GpuGpfifoEntry) (S D : Side) : Decidable (e.SidesGuessed S D) :=
  inferInstanceAs (Decidable (_ ∨ _ ∨ _))

/-! ### What the copy does -/

/-- `mem_read` stores the bytes of the heap in the host's memory. -/
theorem Device.call_read {d d' : Device} {devAddr host size : UInt64}
    (h : d.call (.read devAddr host size) = some d') :
    d'.memory = Side.host.store d.memory host size (Side.device.bytes d.memory devAddr) := by
  rw [call] at h
  split_ifs at h
  rw [memRead, Option.map_eq_some_iff] at h
  obtain ⟨buf, hbuf, rfl⟩ := h
  split_ifs at hbuf
  obtain rfl := Option.some.inj hbuf
  simp only [UInt64.ofNat_toNat]
  rfl

/-- `mem_write` stores the bytes of the host's memory in the heap. -/
theorem Device.call_write {d d' : Device} {devAddr host size : UInt64}
    (h : d.call (.write devAddr host size) = some d') :
    d'.memory = Side.device.store d.memory devAddr size (Side.host.bytes d.memory host) := by
  rw [call] at h
  split_ifs at h
  rw [memWrite, Option.map_eq_some_iff] at h
  obtain ⟨hal, hhal, rfl⟩ := h
  split_ifs at hhal
  obtain rfl := Option.some.inj hhal
  simp only [UInt64.ofNat_toNat]
  rfl

/-- An accepted MEMCPY copies from the guessed side to the other one. -/
theorem Device.memcpy_memory {d d' : Device} {e : GpuGpfifoEntry}
    (h : d.memcpy e.copySrc e.copyDst e.copySize = some d') :
    d'.memory = e.guessedSide.other.store d.memory e.copyDst e.copySize
      (e.guessedSide.bytes d.memory e.copySrc) := by
  rw [d.memcpy_eq_call, GpuGpfifoEntry.copyCall] at h
  unfold GpuGpfifoEntry.guessedSide
  by_cases hsize : 0 < e.copySize ∧ e.copySize ≤ halHeapSize
  · rw [if_pos hsize] at h
    by_cases hsrc : halHeapBase ≤ e.copySrc ∧ e.copySrc < halHeapBase + halHeapSize
    · rw [if_pos hsrc] at h ⊢
      exact Device.call_read h
    · rw [if_neg hsrc] at h ⊢
      exact Device.call_write h
  · rw [if_neg hsize] at h
    cases h

/-- **DISPATCH.**  Memory afterwards is that of the copy, if it is accepted. -/
theorem dispatched_memory {s : HardwarePullerEmu} (hpc : s.pc = .dispatch)
    (hmem : s.currentEntry.method = gpuOpMemcpy) (stale : GpuGpfifoEntry) :
    (s.pullerStep stale).device.memory =
      if s.currentEntry.copyAccepted then
        s.currentEntry.guessedSide.other.store s.device.memory s.currentEntry.copyDst
          s.currentEntry.copySize
          (s.currentEntry.guessedSide.bytes s.device.memory s.currentEntry.copySrc)
      else s.device.memory := by
  have hsome := s.device.tick.memcpy_isSome s.currentEntry.copySrc s.currentEntry.copyDst
    s.currentEntry.copySize
  have hstep : (s.pullerStep stale).device.memory =
      (s.device.tick.execute s.currentEntry).2.2.memory := by
    rw [pullerStep, hpc]
    rfl
  rw [hstep, s.device.tick.execute_memcpy hmem, GpuGpfifoEntry.copyAccepted, ← hsome]
  cases hcopy : s.device.tick.memcpy s.currentEntry.copySrc s.currentEntry.copyDst
      s.currentEntry.copySize with
  | none => rfl
  | some d =>
    have hcopied := Device.memcpy_memory hcopy
    exact hcopied

/-! ### When the guess is right -/

section Copies

variable {e : GpuGpfifoEntry} {S D : Side}

/-- A range in the heap passes the check, and is no larger than the heap. -/
theorem Side.holds_device {addr size : UInt64} (h : Side.device.Holds addr size) :
    size ≤ halHeapSize ∧ outOfRange addr size = false := by
  have hin := (HalCall.inHeap_iff (.readLocal addr size)).mp h
  constructor
  · exact UInt64.le_iff_toNat_le.mpr (Nat.le_trans (Nat.le_add_left _ _) hin)
  · rw [outOfRange_eq_false_iff]
    exact Nat.le_trans (Nat.mod_le _ _) hin

/-- A copy whose sides are guessed right is accepted. -/
theorem copyAccepted_of_guessed (hS : S.Holds e.copySrc e.copySize)
    (hD : D.Holds e.copyDst e.copySize) (hsize : e.copySize ≠ 0) (hsrc : S = e.guessedSide)
    (hdst : D = e.guessedSide.other) : e.copyAccepted = true := by
  have hpos : 0 < e.copySize := UInt64.pos_iff_ne_zero.mpr hsize
  subst hsrc hdst
  unfold GpuGpfifoEntry.copyAccepted copyAccepted
  unfold GpuGpfifoEntry.guessedSide at hS hD
  split_ifs at hS hD ⊢
  · obtain ⟨hle, hrange⟩ := Side.holds_device hS
    simp [hpos, hle, hrange, hD.2 hsize]
  · obtain ⟨hle, hrange⟩ := Side.holds_device hD
    simp [hpos, hle, hrange, hS.2 hsize]

/-- A memory that tells the sides apart. -/
def taggedMemory : Memories := (fun _ => 0, fun _ => 1)

theorem side_eq_of_tagged {S T : Side} {a b : UInt64}
    (h : S.memory taggedMemory a = T.memory taggedMemory b) : S = T := by
  cases S <;> cases T <;> first | rfl | cases h

/-- A memory that tells one place apart. -/
def spottedMemory (a : UInt64) : Memories :=
  (fun b => if b = a then 1 else 0, fun b => if b = a then 1 else 0)

theorem memory_spotted (S : Side) (a b : UInt64) :
    S.memory (spottedMemory a) b = if b = a then 1 else 0 := by
  cases S with
  | device => rfl
  | host => rfl

/-- The puller about to dispatch the entry, with any memory. -/
def dispatching (e : GpuGpfifoEntry) (m : Memories) : HardwarePullerEmu :=
  { init { Config.bare with heap := m.1, host := m.2 } with pc := .dispatch, currentEntry := e }

/-- A copy that is right on memories that tell sides and places apart is guessed right. -/
theorem sidesGuessed_of_copies (hmem : e.method = gpuOpMemcpy) (h : CopiesExactly e S D) :
    e.SidesGuessed S D := by
  have hcopy : ∀ m, (if e.copyAccepted then e.guessedSide.other.store m e.copyDst e.copySize
      (e.guessedSide.bytes m e.copySrc) else m) =
      D.store m e.copyDst e.copySize (S.bytes m e.copySrc) := by
    intro m
    have hstep := dispatched_memory (s := dispatching e m) rfl hmem .zero
    exact hstep.symm.trans (h (dispatching e m) .zero rfl rfl)
  by_cases hsize : e.copySize = 0
  · exact .inr (.inl hsize)
  have htagged := hcopy taggedMemory
  cases haccepted : e.copyAccepted with
  | true =>
    left
    rw [haccepted, if_pos rfl] at htagged
    rcases D.eq_or_eq_other e.guessedSide with hD | hD
    · have hother := congrArg (fun m => e.guessedSide.other.memory m
        (e.guessedSide.other.place e.copyDst)) htagged
      simp only [Side.memory_store_place _ _ hsize, hD, Side.memory_store_other] at hother
      have hsame := side_eq_of_tagged hother
      cases hguess : e.guessedSide <;> rw [hguess] at hsame <;> cases hsame
    · have hdst := congrArg (fun m => D.memory m (D.place e.copyDst)) htagged
      simp only [← hD, Side.memory_store_place _ _ hsize] at hdst
      exact ⟨(side_eq_of_tagged hdst).symm, hD⟩
  | false =>
    have hspotted := hcopy (spottedMemory (S.place e.copySrc))
    rw [haccepted, if_neg Bool.false_ne_true] at htagged hspotted
    have hside := congrArg (fun m => D.memory m (D.place e.copyDst)) htagged
    simp only [Side.memory_store_place _ _ hsize] at hside
    obtain rfl := side_eq_of_tagged hside
    have hplace := congrArg (fun m => D.memory m (D.place e.copyDst)) hspotted
    simp only [Side.memory_store_place _ _ hsize, Side.bytes, memory_spotted, UInt64.add_zero,
      if_true] at hplace
    refine .inr (.inr ⟨rfl, Side.place_inj (S := D) ?_, haccepted⟩)
    by_contra hne
    rw [if_neg fun heq => hne heq.symm] at hplace
    cases hplace

theorem copies_of_sidesGuessed (hmem : e.method = gpuOpMemcpy) (hS : S.Holds e.copySrc e.copySize)
    (hD : D.Holds e.copyDst e.copySize) (h : e.SidesGuessed S D) : CopiesExactly e S D := by
  intro s stale hpc rfl
  rw [dispatched_memory hpc hmem]
  by_cases hsize : s.currentEntry.copySize = 0
  · rw [hsize, Side.store_zero, Side.store_zero, ite_self]
  rcases h with ⟨hsrc, hdst⟩ | hzero | ⟨rfl, hsame, hrefused⟩
  · rw [copyAccepted_of_guessed hS hD hsize hsrc hdst, if_pos rfl, hsrc, hdst]
  · exact absurd hzero hsize
  · rw [hrefused, if_neg Bool.false_ne_true, hsame, Side.store_bytes]

/-- **Copies.**  DISPATCH copies exactly what it should when it guesses the sides right. -/
theorem copies_iff (hmem : e.method = gpuOpMemcpy) (hS : S.Holds e.copySrc e.copySize)
    (hD : D.Holds e.copyDst e.copySize) : CopiesExactly e S D ↔ e.SidesGuessed S D :=
  ⟨sidesGuessed_of_copies hmem, copies_of_sidesGuessed hmem hS hD⟩

end Copies

/-! ### Batches with a refused copy -/

/-- The fence of the submission has been signaled. -/
def FenceSignaled (log : List Event) (id : ℕ) : Prop := ∃ f, .signaled id f ∈ log

def Event.failsCopyOf (id : ℕ) : Event → Bool
  | .memcpyFailed _ (.batch k _ _) => k == id
  | _ => false

def Event.signalsFor (id : ℕ) : Event → Bool
  | .signaled k _ => k == id
  | _ => false

theorem copyFailed_iff {log : List Event} {id : ℕ} :
    CopyFailed log id ↔ ∃ ev ∈ log, ev.failsCopyOf id = true := by
  constructor
  · rintro ⟨n, i, addr, hmem⟩
    exact ⟨_, hmem, beq_self_eq_true id⟩
  · rintro ⟨ev, hmem, hid⟩
    cases ev with
    | memcpyFailed n src =>
      cases src with
      | batch k i addr =>
        obtain rfl : k = id := beq_iff_eq.mp hid
        exact ⟨n, i, addr, hmem⟩
      | ring q => cases hid
    | _ => cases hid

theorem fenceSignaled_iff {log : List Event} {id : ℕ} :
    FenceSignaled log id ↔ ∃ ev ∈ log, ev.signalsFor id = true := by
  constructor
  · rintro ⟨f, hmem⟩
    exact ⟨_, hmem, beq_self_eq_true id⟩
  · rintro ⟨ev, hmem, hid⟩
    cases ev with
    | signaled k f =>
      obtain rfl : k = id := beq_iff_eq.mp hid
      exact ⟨f, hmem⟩
    | _ => cases hid

instance (log : List Event) (id : ℕ) : Decidable (CopyFailed log id) :=
  decidable_of_iff _ copyFailed_iff.symm

instance (log : List Event) (id : ℕ) : Decidable (FenceSignaled log id) :=
  decidable_of_iff _ fenceSignaled_iff.symm

/-- The fence that a load of the channel's slot puts into the registers. -/
def HardwarePullerEmu.slotFence (s : HardwarePullerEmu) (c : ℕ) : UInt64 :=
  match s.channelMgr with
  | some m => (m.channels c).pendingFenceId
  | none => 0

/-- A load gives no fence back to a batch with a refused copy, and takes no batch whose fence has
been signaled, or is signaled by the same step. -/
def reloadGuard (s : HardwarePullerEmu) : Action → Prop
  | .puller _ => ∀ c ∈ s.switchSelection,
    (s.slotFence c ≠ 0 → ¬CopyFailed s.log (s.slotId c)) ∧
      ¬FenceSignaled s.log (s.slotId c) ∧
      (s.atCheckpoint = true → s.fenceDue = true → s.slotId c ≠ s.loaded.id)
  | _ => True

instance decidableReloadGuard (s : HardwarePullerEmu) : ∀ a, Decidable (reloadGuard s a)
  | .puller _ => inferInstanceAs (Decidable (∀ c ∈ s.switchSelection, _ ∧ _ ∧ _))
  | .submitBatch _ | .channelSubmit _ _ | .configure _ | .triggerPreempt _ | .signalBarrier _
  | .writeEntry _ _ | .advanceWriteIdx _ | .ringDoorbell _ | .writeDoorbell _ | .onDoorbell
  | .memWrite _ _ _ | .hostWrite _ => .isTrue trivial

/-! ### What a step does to registers and history -/

section Steps

variable {s s' : HardwarePullerEmu}

/-- The registers are kept, but for the cursor and a fence that is dropped, or loaded. -/
inductive RegsStep (s s' : HardwarePullerEmu) : Prop
  | kept (hid : s'.loaded.id = s.loaded.id)
      (hfence : s'.regs.fence = 0 ∨ s'.regs.fence = s.regs.fence ∧
        (s.pc = .dispatch → s.currentEntry.copyRefused = false))
      (htotal : s'.regs.total = s.regs.total) (hidx : s.regs.index ≤ s'.regs.index)
      (hnext : s.pc = .complete → s'.regs.index = s.regs.index + 1)
  | loaded {c : ℕ} (hc : s.switchSelection = some c) (hid : s'.loaded.id = s.slotId c)
      (hfence : s'.regs.fence = s.slotFence c)

theorem slotFence_of_slotsFrom {m m' : ChannelManager} {c : ℕ} (hm : s.channelMgr = some m)
    (hfrom : SlotsFrom m m') (hc : (m'.channels c).batchInFlight = true) :
    (m'.channels c).pendingFenceId = s.slotFence c := by
  rw [HardwarePullerEmu.slotFence, hm]
  exact congrArg Batch.fenceId (hfrom c hc).2

theorem regsStep_of_finish (hid : s'.loaded.id = s.loaded.id) (hpc : s.pc = .complete)
    (hregs : s'.regs = s.finishRegs) : RegsStep s s' := by
  refine .kept hid ?_ (by rw [hregs]; rfl) (by rw [hregs]; exact Nat.le_succ _)
    fun _ => by rw [hregs]; rfl
  rw [hregs, finishRegs]
  split_ifs
  · exact .inl rfl
  · exact .inr ⟨rfl, fun h => absurd (hpc.symm.trans h) Pc.noConfusion⟩

theorem regs_pullerStep (h : PullerStep s s') : RegsStep s s' := by
  have hslots := h.slotsFrom
  have hsame : s'.loaded.id = s.loaded.id → s'.regs = s.regs → s.pc ≠ .dispatch →
      s.pc ≠ .complete → RegsStep s s' := by
    intro hid hregs hdispatch hcomplete
    exact .kept hid (.inr ⟨by rw [hregs], fun hpc => absurd hpc hdispatch⟩) (by rw [hregs])
      (Nat.le_of_eq (by rw [hregs])) fun hpc => absurd hpc hcomplete
  cases h with
  | move hmove =>
    have hpc : s.pc ≠ .dispatch ∧ s.pc ≠ .complete := by
      cases hmove <;> simp [*]
    exact hsame rfl rfl hpc.1 hpc.2
  | noChannel hpc | dequeue hpc | exchange hpc | fetch hpc | release hpc | wait hpc | waited hpc =>
    exact hsame rfl rfl (fun h => absurd (hpc.symm.trans h) Pc.noConfusion)
      fun h => absurd (hpc.symm.trans h) Pc.noConfusion
  | select hpc hm hnext =>
    obtain ⟨m₀, hm₀, hfrom⟩ := hslots _ rfl
    exact .loaded (switchSelection_select hpc hm hnext) rfl
      (slotFence_of_slotsFrom hm₀ hfrom (nextReadyChannel_inFlight hnext))
  | resume hpc hm hnext hmqd hregs =>
    obtain ⟨m₀, hm₀, hfrom⟩ := hslots _ rfl
    subst hregs
    exact .loaded (switchSelection_select hpc hm hnext) rfl
      (slotFence_of_slotsFrom hm₀ hfrom (nextReadyChannel_inFlight hnext))
  | blockNext hpc | blockLast hpc =>
    exact .kept rfl (.inr ⟨rfl, fun h => absurd (hpc.symm.trans h) Pc.noConfusion⟩) rfl
      (Nat.le_succ _) fun h => absurd (hpc.symm.trans h) Pc.noConfusion
  | dispatch hpc hexec =>
    have hfailed := s.device.tick.execute_failed s.currentEntry
    rw [hexec] at hfailed
    refine .kept rfl ?_ rfl (Nat.le_refl _) fun h => absurd (hpc.symm.trans h) Pc.noConfusion
    rename_i launches failed d
    cases failed with
    | true => exact .inl rfl
    | false => exact .inr ⟨rfl, fun _ => hfailed.symm⟩
  | completeNext hpc | completeLast hpc | checkpointDirect hpc | checkpointNone hpc =>
    exact regsStep_of_finish rfl hpc rfl
  | checkpointLoad hpc hidx hpre hm hnext hregs =>
    obtain ⟨m₀, hm₀, hfrom⟩ := hslots _ rfl
    have hat := (atCheckpoint_eq hpc hidx).trans hpre
    subst hregs
    exact .loaded (switchSelection_checkpoint hat hm hnext) rfl
      (slotFence_of_slotsFrom hm₀ hfrom (nextReadyChannel_inFlight hnext))

theorem failed_pullerStep (h : PullerStep s s') {id : ℕ} (hf : CopyFailed s'.log id) :
    CopyFailed s.log id ∨ s.pc = .dispatch ∧ s.currentEntry.copyRefused = true ∧
      ∃ i addr, s.source = .batch id i addr := by
  obtain ⟨n, i, addr, hmem⟩ := hf
  rcases h.memcpyFailed hmem with hold | ⟨hpc, -, hsrc, hrefused⟩
  · exact .inl ⟨n, i, addr, hold⟩
  · exact .inr ⟨hpc, hrefused, i, addr, hsrc.symm⟩

theorem signaled_pullerStep (h : PullerStep s s') {id : ℕ} (hs : FenceSignaled s'.log id) :
    FenceSignaled s.log id ∨ s.pc = .complete ∧ s.fenceDue = true ∧ id = s.loaded.id := by
  obtain ⟨f, hmem⟩ := hs
  obtain ⟨E, hlog⟩ := h.extends
  rw [hlog] at hmem
  rcases List.mem_append.mp hmem with hnew | hold
  · exact .inr (h.signaled hlog hnew)
  · exact .inl ⟨f, hold⟩

/-- The entry in flight after the step was in flight before, or is taken by the step. -/
theorem flight_pullerStep (h : PullerStep s s') (hflight : s'.pc.inFlight = true) {id i : ℕ}
    {addr : UInt64} (hsrc : s'.source = .batch id i addr) :
    s.pc ≠ .complete ∧ (s.pc.inFlight = true ∧ s.source = .batch id i addr ∨
      s.regs.index < s.regs.total ∧ id = s.loaded.id) := by
  cases h with
  | move hmove =>
    have hpc : s.pc ≠ .complete := by
      cases hmove <;> simp [*]
    rw [goto, hmove.inFlight] at hflight
    exact ⟨hpc, .inl ⟨hflight, hsrc⟩⟩
  | dequeue => cases hsrc
  | fetch hpc hidx =>
    cases hsrc
    exact ⟨by rw [hpc]; exact Pc.noConfusion, .inr ⟨hidx, rfl⟩⟩
  | dispatch hpc | release hpc | wait hpc | waited hpc =>
    exact ⟨by rw [hpc]; exact Pc.noConfusion, .inl ⟨by rw [hpc]; rfl, hsrc⟩⟩
  | _ => cases hflight

end Steps

/-! ### The invariant -/

structure RefusalInv (s : HardwarePullerEmu) : Prop where
  book : Bookkeeping s
  apart : ∀ id, CopyFailed s.log id → ¬FenceSignaled s.log id
  fence : s.regs.fence ≠ 0 → ¬CopyFailed s.log s.loaded.id
  ahead : s.regs.index < s.regs.total → ¬FenceSignaled s.log s.loaded.id
  flight : s.pc.inFlight = true → ∀ id i addr, s.source = .batch id i addr →
    ¬FenceSignaled s.log id
  loadedOld : s.loaded.id < s.nextId
  sourceOld : ∀ id i addr, s.source = .batch id i addr → id < s.nextId
  failedOld : ∀ id, CopyFailed s.log id → id < s.nextId
  signaledOld : ∀ id, FenceSignaled s.log id → id < s.nextId

theorem fence_of_due {s : HardwarePullerEmu} (hdue : s.fenceDue = true) :
    s.regs.fence ≠ 0 ∧ s.regs.total ≤ s.regs.index + 1 := by
  simp only [fenceDue, Bool.and_eq_true, bne_iff_ne, decide_eq_true_eq] at hdue
  exact hdue.1

theorem switchSelection_pc {s : HardwarePullerEmu} {c : ℕ} (hc : s.switchSelection = some c) :
    s.pc = .channelSwitch ∨ s.atCheckpoint = true := by
  cases hat : s.atCheckpoint with
  | true => exact .inr rfl
  | false =>
    left
    rw [switchSelection, hat, if_neg Bool.false_ne_true, selection] at hc
    by_contra hpc
    split at hc
    · contradiction
    · cases hc

theorem pc_ne_dispatch_of_switchSelection {s : HardwarePullerEmu} {c : ℕ}
    (hc : s.switchSelection = some c) : s.pc ≠ .dispatch := by
  intro hpc
  rcases switchSelection_pc hc with hpc' | hat
  · rw [hpc] at hpc'
    cases hpc'
  · rw [atCheckpoint, hpc] at hat
    cases hat

section PullerStep

variable {s s' : HardwarePullerEmu} {stale : GpuGpfifoEntry}

/-- The loaded batch has no fence once a copy of its is refused. -/
theorem RefusalInv.fence_pullerStep (hinv : RefusalInv s) (h : PullerStep s s')
    (hG : reloadGuard s (.puller stale)) :
    s'.regs.fence ≠ 0 → ¬CopyFailed s'.log s'.loaded.id := by
  intro hfence hf
  cases regs_pullerStep h with
  | kept hid hkept =>
    obtain ⟨hsame, hrefused⟩ := hkept.resolve_left hfence
    rw [hid] at hf
    rcases failed_pullerStep h hf with hfold | ⟨hpc, hcopy, -⟩
    · exact hinv.fence (hsame ▸ hfence) hfold
    · rw [hrefused hpc] at hcopy
      cases hcopy
  | loaded hc hid hslot =>
    rw [hid] at hf
    rcases failed_pullerStep h hf with hfold | ⟨hpc, -⟩
    · exact (hG _ hc).1 (hslot ▸ hfence) hfold
    · exact pc_ne_dispatch_of_switchSelection hc hpc

/-- The loaded batch is not signaled before its last entry. -/
theorem RefusalInv.ahead_pullerStep (hinv : RefusalInv s) (h : PullerStep s s')
    (hG : reloadGuard s (.puller stale)) :
    s'.regs.index < s'.regs.total → ¬FenceSignaled s'.log s'.loaded.id := by
  intro hlt hs
  cases regs_pullerStep h with
  | kept hid hkept htotal hidx hcount =>
    rw [hid] at hs
    rcases signaled_pullerStep h hs with hsold | ⟨hpc, hdue, -⟩
    · exact hinv.ahead (by omega) hsold
    · have hlast := (fence_of_due hdue).2
      have hcounted := hcount hpc
      omega
  | loaded hc hid hslot =>
    rw [hid] at hs
    obtain ⟨-, hunsignaled, hother⟩ := hG _ hc
    rcases signaled_pullerStep h hs with hsold | ⟨hpc, hdue, hsame⟩
    · exact hunsignaled hsold
    · refine hother ?_ hdue hsame
      rcases switchSelection_pc hc with hpc' | hat
      · rw [hpc] at hpc'
        cases hpc'
      · exact hat

theorem refusalInv_pullerStep (h : PullerStep s s') (hinv : RefusalInv s)
    (hbook : Bookkeeping s') (hG : reloadGuard s (.puller stale)) : RefusalInv s' := by
  obtain ⟨-, -, hnext⟩ := h.log_subset
  refine ⟨hbook, ?_, hinv.fence_pullerStep h hG, hinv.ahead_pullerStep h hG, ?_, ?_, ?_, ?_, ?_⟩
  · intro id hf hs
    rcases failed_pullerStep h hf with hfold | ⟨hpc, -, i, addr, hsrc⟩
    · rcases signaled_pullerStep h hs with hsold | ⟨-, hdue, rfl⟩
      · exact hinv.apart id hfold hsold
      · exact hinv.fence (fence_of_due hdue).1 hfold
    · rcases signaled_pullerStep h hs with hsold | ⟨hpc', -, -⟩
      · exact hinv.flight (by rw [hpc]; rfl) id i addr hsrc hsold
      · rw [hpc] at hpc'
        cases hpc'
  · intro hflight id i addr hsrc hs
    obtain ⟨hpc, hfrom⟩ := flight_pullerStep h hflight hsrc
    have hsold := (signaled_pullerStep h hs).resolve_right fun hnew => hpc hnew.1
    rcases hfrom with ⟨hflying, hsame⟩ | ⟨hlt, rfl⟩
    · exact hinv.flight hflying id i addr hsame hsold
    · exact hinv.ahead hlt hsold
  · rw [hnext]
    rcases loaded_pullerStep h hinv.book with hsame | hlt
    · rw [hsame]
      exact hinv.loadedOld
    · exact hlt
  · intro id i addr hsrc
    rw [hnext]
    rcases source_pullerStep h hsrc with hsame | rfl
    · exact hinv.sourceOld id i addr hsame
    · exact hinv.loadedOld
  · intro id hf
    rw [hnext]
    rcases failed_pullerStep h hf with hold | ⟨-, -, i, addr, hsrc⟩
    · exact hinv.failedOld id hold
    · exact hinv.sourceOld id i addr hsrc
  · intro id hs
    rw [hnext]
    rcases signaled_pullerStep h hs with hold | ⟨-, -, rfl⟩
    · exact hinv.signaledOld id hold
    · exact hinv.loadedOld

end PullerStep

/-- Another party dispatches and signals nothing, and what it loads is a new submission. -/
theorem refusalInv_envStep {s s' : HardwarePullerEmu} {a : Action} (h : EnvStep s a s')
    (hinv : RefusalInv s) (hbook : Bookkeeping s') : RefusalInv s' := by
  have hfailed : ∀ {id}, CopyFailed s'.log id → CopyFailed s.log id := by
    rintro id ⟨n, i, addr, hmem⟩
    exact ⟨n, i, addr, h.entry rfl hmem⟩
  have hsignaled : ∀ {id}, FenceSignaled s'.log id → FenceSignaled s.log id := by
    rintro id ⟨f, hmem⟩
    obtain ⟨E, hlog, -⟩ := h.extends
    rw [hlog] at hmem
    exact ⟨f, (List.mem_append.mp hmem).resolve_left (h.not_signaled hlog)⟩
  have hregs : s'.loaded = s.loaded ∧ s'.regs = s.regs ∨ s'.loaded.id = s.nextId := by
    cases h with
    | accept | configure | quiet => exact .inl ⟨rfl, rfl⟩
    | direct => exact .inr rfl
  obtain ⟨hpc, -, hsrc, -, -, hnext, hloaded⟩ := h.keeps
  refine ⟨hbook, fun id hf hs => hinv.apart id (hfailed hf) (hsignaled hs), ?_, ?_, ?_,
    hloaded hinv.loadedOld, ?_, ?_, ?_⟩
  · intro hfence hf
    rcases hregs with ⟨hl, hr⟩ | hnew
    · rw [hl] at hf
      rw [hr] at hfence
      exact hinv.fence hfence (hfailed hf)
    · rw [hnew] at hf
      exact absurd (hinv.failedOld _ (hfailed hf)) (Nat.lt_irrefl _)
  · intro hlt hs
    rcases hregs with ⟨hl, hr⟩ | hnew
    · rw [hl] at hs
      rw [hr] at hlt
      exact hinv.ahead hlt (hsignaled hs)
    · rw [hnew] at hs
      exact absurd (hinv.signaledOld _ (hsignaled hs)) (Nat.lt_irrefl _)
  · intro hflight id i addr hbatch hs
    rw [hpc] at hflight
    rw [hsrc] at hbatch
    exact hinv.flight hflight id i addr hbatch (hsignaled hs)
  · intro id i addr hbatch
    rw [hsrc] at hbatch
    exact Nat.lt_of_lt_of_le (hinv.sourceOld id i addr hbatch) hnext
  · exact fun id hf => Nat.lt_of_lt_of_le (hinv.failedOld id (hfailed hf)) hnext
  · exact fun id hs => Nat.lt_of_lt_of_le (hinv.signaledOld id (hsignaled hs)) hnext

theorem refusalInv_step (s : HardwarePullerEmu) (a : Action) (hinv : RefusalInv s)
    (hG : reloadGuard s a) : RefusalInv (step s a) := by
  have hbook := bookkeeping_step s a hinv.book
  obtain ⟨ha, h⟩ | ⟨-, h⟩ := step_cases s a
  · cases a <;> simp only [Action.isPuller, Bool.false_eq_true] at ha
    exact refusalInv_pullerStep h hinv hbook hG
  · exact refusalInv_envStep h hinv hbook

theorem refusalInv_init (cfg : Config) : RefusalInv (init cfg) where
  book := bookkeeping_init cfg
  apart := fun _ ⟨_, _, _, h⟩ => absurd h List.not_mem_nil
  fence := fun h => absurd rfl h
  ahead := fun h => absurd h (Nat.lt_irrefl _)
  flight := nofun
  loadedOld := Nat.zero_lt_one
  sourceOld := nofun
  failedOld := fun _ ⟨_, _, _, h⟩ => absurd h List.not_mem_nil
  signaledOld := fun _ ⟨_, h⟩ => absurd h List.not_mem_nil

/-- **Fences.**  Along guarded runs no batch with a refused copy has its fence signaled, before or
after the refusal. -/
theorem not_signaled_of_failed (cfg : Config) (as : List Action)
    (hG : Guarded step reloadGuard (init cfg) as) (id : ℕ)
    (hf : CopyFailed (after cfg as).log id) : ¬FenceSignaled (after cfg as).log id :=
  (run_of_inductive refusalInv_step (refusalInv_init cfg) hG).apart id hf

/-! ### The other entries -/

/-- The state behind a DISPATCH that did nothing for its entry and kept the fence. -/
def HardwarePullerEmu.passedOver (s : HardwarePullerEmu) : HardwarePullerEmu :=
  { s with
    device := s.device.tick
    pc := .complete
    log := s.dispatchEvents [] false ++ s.log }

theorem refused_step {s : HardwarePullerEmu} (hpc : s.pc = .dispatch)
    (hrefused : s.currentEntry.copyRefused = true) (stale : GpuGpfifoEntry) :
    s.pullerStep stale = { s.passedOver with
      regs := { s.regs with fence := 0 }
      log := .memcpyFailed s.serial s.source :: s.passedOver.log } := by
  simp only [GpuGpfifoEntry.copyRefused, Bool.and_eq_true, beq_iff_eq, Bool.not_eq_true',
    GpuGpfifoEntry.copyAccepted] at hrefused
  have hnone : s.device.tick.memcpy s.currentEntry.copySrc s.currentEntry.copyDst
      s.currentEntry.copySize = none := by
    rw [← Option.isNone_iff_eq_none, ← Option.isSome_eq_false_iff, Device.memcpy_isSome]
    exact hrefused.2
  have hexec : s.device.tick.execute s.currentEntry = ([], true, s.device.tick) := by
    rw [s.device.tick.execute_memcpy hrefused.1, hnone]
    rfl
  rw [pullerStep, hpc]
  simp only [stepDispatch, hexec]
  rfl

/-- **The others.**  After a refused copy everything goes on as if DISPATCH had done nothing for
the entry, but for the fence. -/
theorem others_unaffected {s : HardwarePullerEmu} (hpc : s.pc = .dispatch)
    (hrefused : s.currentEntry.copyRefused = true) (stale : GpuGpfifoEntry) (as : List Action) :
    (run step (s.pullerStep stale) as).eraseFence = (run step s.passedOver as).eraseFence := by
  refine eraseFence_run ?_ as
  rw [refused_step hpc hrefused]
  simp [eraseFence, passedOver, Event.clearsFence]

/-! ### The result -/

/-- **MEMCPY.**  Dispatching a MEMCPY copies exactly what it should when the code guesses the sides
right.  A batch with a refused copy is not signaled, unless it is loaded again with its fence.  A
refused copy changes no memory, counts for its batch, and leaves everything else to go on. -/
theorem memcpy_dispatch (e : GpuGpfifoEntry) (S D : Side) (cfg : Config) (as : List Action)
    (s : HardwarePullerEmu) (stale : GpuGpfifoEntry) :
    (e.method = gpuOpMemcpy → S.Holds e.copySrc e.copySize → D.Holds e.copyDst e.copySize →
      (CopiesExactly e S D ↔ e.SidesGuessed S D)) ∧
    (Guarded step reloadGuard (init cfg) as →
      ∀ id, CopyFailed (after cfg as).log id → ¬FenceSignaled (after cfg as).log id) ∧
    (s.pc = .dispatch → s.currentEntry.copyRefused = true →
      (s.pullerStep stale).device.memory = s.device.memory ∧
        (∀ id i addr, s.source = .batch id i addr → CopyFailed (s.pullerStep stale).log id) ∧
        ∀ next, (run step (s.pullerStep stale) next).eraseFence =
          (run step s.passedOver next).eraseFence) := by
  refine ⟨copies_iff, not_signaled_of_failed cfg as, fun hpc hrefused => ?_⟩
  refine ⟨?_, fun id i addr hsrc => ?_, others_unaffected hpc hrefused stale⟩
  · rw [refused_step hpc hrefused]
    rfl
  · rw [refused_step hpc hrefused]
    exact ⟨s.serial, i, addr, hsrc ▸ List.mem_cons_self⟩

/-- A MEMCPY entry. -/
def copyEntry (src dst size : UInt64) : GpuGpfifoEntry :=
  { GpuGpfifoEntry.zero.withOperands src dst size with
    valid := true
    method := gpuOpMemcpy }

/-- A heap with a MEMCPY of no bytes at `0x100001000`, which is refused. -/
def refusedHeap (a : UInt64) : UInt8 :=
  if a = 0x1000 then 0x09 else if a = 0x1001 then 0x04 else 0

/-- A copy from the host to the device is right; a batch with a refused copy is not signaled; and a
refused copy is followed by what would follow without it. -/
theorem memcpy_dispatch_run :
    CopiesExactly (copyEntry 0x1000 0x100000000 16) .host .device ∧
      ¬FenceSignaled (after { Config.managed with heap := refusedHeap }
        ([.configure (.register 0 .normal .brown), .submitBatch ⟨0x100001000, 1, 0x100000001⟩] ++
          pulls 8)).log 1 ∧
      (run step ((dispatching (copyEntry 0x1000 0x100000000 0) taggedMemory).pullerStep .zero)
          (pulls 2)).eraseFence =
        (run step (dispatching (copyEntry 0x1000 0x100000000 0) taggedMemory).passedOver
          (pulls 2)).eraseFence := by
  obtain ⟨hcopies, hfences, hothers⟩ := memcpy_dispatch (copyEntry 0x1000 0x100000000 16) .host
    .device { Config.managed with heap := refusedHeap }
    ([.configure (.register 0 .normal .brown), .submitBatch ⟨0x100001000, 1, 0x100000001⟩] ++
      pulls 8) (dispatching (copyEntry 0x1000 0x100000000 0) taggedMemory) .zero
  refine ⟨?_, ?_, ?_⟩
  · exact (hcopies rfl (by decide) (by decide)).mpr (by decide)
  · exact hfences (by decide +kernel) 1 (by decide +kernel)
  · exact (hothers rfl (by decide)).2.2 (pulls 2)

/-- Channel 2 is requested at the checkpoint and channel 1 loaded; its batch is one copy, which is
refused.  The yield names channel 2, so that channel 1 is loaded again, with its fence, and its
entry is cleared by then. -/
def reloadedRun : List Action :=
  [.configure (.register 0 .normal .brown), .configure (.register 1 .normal .brown),
    .submitBatch ⟨0x100000000, 1, 0x100000001⟩, .channelSubmit 1 ⟨0x100001000, 1, 0x100000002⟩,
    .triggerPreempt 2] ++ pulls 13 ++ .memWrite 0x100001000 2 (fun _ => 0) :: pulls 6

/-- A copy from the device to the device goes to the host's memory; and a batch with a refused copy
is signaled. -/
theorem memcpy_dispatch_fails :
    (¬∀ (e : GpuGpfifoEntry) (S D : Side), e.method = gpuOpMemcpy →
      S.Holds e.copySrc e.copySize → D.Holds e.copyDst e.copySize → CopiesExactly e S D) ∧
    ¬∀ (cfg : Config) (as : List Action) (id : ℕ), CopyFailed (after cfg as).log id →
      ¬FenceSignaled (after cfg as).log id := by
  constructor
  · intro h
    have hcopies := h (copyEntry 0x100000000 0x100001000 16) .device .device rfl (by decide)
      (by decide)
    have hguessed := sidesGuessed_of_copies rfl hcopies
    revert hguessed
    decide
  · intro h
    refine h { Config.managed with heap := refusedHeap } reloadedRun 2 ?_ ?_
    · decide +kernel
    · decide +kernel

end UsrLinuxEmu.GpuDriver
