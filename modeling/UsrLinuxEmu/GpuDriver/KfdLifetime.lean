import UsrLinuxEmu.GpuDriver.KfdVma

/-!
# Buffer objects and their KFD mappings (`drv/gpgpu_device.cpp`, `drv/kfd_sim_bridge.cpp`)

The handle manager hands out the lowest free handle; the bridge keeps its mappings by handle and is
not told when one is freed.

* `BoKfd` — the device and the bridge behind it;
* `MappingsOwned` — a mapped handle is valid, and mapped since it was last handed out;
* `mappings_owned_iff` — that holds along a run exactly when no buffer object is freed while its
  handle is mapped.
-/

namespace UsrLinuxEmu.GpuDriver

open UsrLinuxEmu.Kernel UsrLinuxEmu.Transition

/-! ### The device and the bridge -/

structure BoKfd where
  dev : BoTable
  kfd : KfdSimState

inductive BoKfdRequest where
  | allocBo (size : UInt64) (domain flags : UInt32)
  | freeBo (handle : UInt32)
  | mapMemory (args : Option GpuMapMemoryArgs)
  | unmapMemory (args : Option GpuUnmapMemoryArgs)

namespace BoKfd

/-- A new device, a bridge just reset. -/
def start (heapPtr : UInt64) (mmShim : Option UsMmShim) : BoKfd :=
  ⟨BoTable.init heapPtr, KfdSimState.initial.kfdSimReset.kfdSimSetMmShim mmShim⟩

variable (path : KfdPath)

def step (s : BoKfd) : BoKfdRequest → BoKfd
  | .allocBo size domain flags => { s with dev := (s.dev.handleAllocBo size domain flags).2 }
  | .freeBo handle => { s with dev := (s.dev.handleFreeBo handle).2 }
  | .mapMemory args => { s with kfd := (mapMemory s.dev path s.kfd args).2 }
  | .unmapMemory args => { s with kfd := (unmapMemory s.dev path s.kfd args).2 }

/-- Which handles a map request has succeeded for since they were last handed out. -/
def noteOwn (own : UInt32 → Bool) (s : BoKfd) : BoKfdRequest → UInt32 → Bool
  | .allocBo size domain flags =>
    match (s.dev.handleAllocBo size domain flags).1 with
    | .ok (handle, _) => Function.update own handle false
    | .error _ => own
  | .mapMemory (some args) =>
    if (mapMemory s.dev path s.kfd (some args)).1.toBool then Function.update own args.handle true
    else own
  | _ => own

/-- The device and the bridge, with the handles mapped since they were handed out. -/
abbrev ownStep : (UInt32 → Bool) × BoKfd → BoKfdRequest → (UInt32 → Bool) × BoKfd :=
  observed (step path) (noteOwn path)

abbrev ownStart (heapPtr : UInt64) (mmShim : Option UsMmShim) : (UInt32 → Bool) × BoKfd :=
  (fun _ => false, start heapPtr mmShim)

end BoKfd

/-- A mapped handle is valid, and its own map request has succeeded. -/
structure MappingsOwned (x : (UInt32 → Bool) × BoKfd) : Prop where
  valid : ∀ handle ∈ x.2.kfd.handleToGpuVa, x.2.dev.handleValid handle = true
  own : ∀ handle ∈ x.2.kfd.handleToGpuVa, x.1 handle = true

/-- A buffer object is freed only when its handle is not mapped. -/
def FreedUnmapped (x : (UInt32 → Bool) × BoKfd) : BoKfdRequest → Prop
  | .freeBo handle => x.2.dev.handleValid handle = true → handle ∉ x.2.kfd.handleToGpuVa
  | _ => True

/-! ### The invariant -/

structure LifetimeInv (x : (UInt32 → Bool) × BoKfd) : Prop extends MappingsOwned x where
  ready : KfdReady x.2.kfd

namespace LifetimeInv

variable {path : KfdPath} {own : UInt32 → Bool} {s : BoKfd}

theorem start (heapPtr : UInt64) (mmShim : Option UsMmShim) :
    LifetimeInv (BoKfd.ownStart heapPtr mmShim) where
  valid := fun _ h => by cases h
  own := fun _ h => by cases h
  ready := { KfdReady.reset KfdSimState.initial with }

theorem step_alloc (hI : LifetimeInv (own, s)) (size : UInt64) (domain flags : UInt32) :
    LifetimeInv (BoKfd.ownStep path (own, s) (.allocBo size domain flags)) := by
  have hbits := s.dev.handleAllocBo_bits size domain flags
  simp only [BoKfd.ownStep, observed, BoKfd.step, BoKfd.noteOwn]
  generalize s.dev.handleAllocBo size domain flags = r at hbits
  cases hbits with
  | refused hbits =>
    exact {
      valid := fun handle h => (BoTable.handleValid_of_bits hbits handle).trans (hI.valid handle h)
      own := hI.own
      ready := hI.ready }
  | @served new gpuVa s' hmem hfree hbits =>
    -- a handle that is free is not valid, so it has no mapping
    have hne : ∀ handle ∈ s.kfd.handleToGpuVa, handle ≠ new := by
      rintro handle h rfl
      have hbit := (BoTable.handleValid_iff.mp (hI.valid handle h)).2
      rw [show s.dev.allocatedBits handle = false from hfree] at hbit
      cases hbit
    exact {
      valid := by
        intro handle h
        obtain ⟨hmem', hbit⟩ := BoTable.handleValid_iff.mp (hI.valid handle h)
        refine BoTable.handleValid_iff.mpr ⟨hmem', ?_⟩
        show s'.allocatedBits handle = true
        rw [hbits, Function.update_of_ne (hne handle h)]
        exact hbit
      own := by
        intro handle h
        show Function.update own new false handle = true
        rw [Function.update_of_ne (hne handle h)]
        exact hI.own handle h
      ready := hI.ready }

theorem step_free (hI : LifetimeInv (own, s)) (handle : UInt32)
    (hG : FreedUnmapped (own, s) (.freeBo handle)) :
    LifetimeInv (BoKfd.ownStep path (own, s) (.freeBo handle)) where
  valid := by
    intro mapped h
    obtain ⟨hmem, hbit⟩ := BoTable.handleValid_iff.mp (hI.valid mapped h)
    refine BoTable.handleValid_iff.mpr ⟨hmem, ?_⟩
    show (s.dev.handleFreeBo handle).2.allocatedBits mapped = true
    rw [BoTable.handleFreeBo_bits]
    split_ifs with hvalid
    · have hne : mapped ≠ handle := by
        rintro rfl
        exact hG hvalid h
      rw [Function.update_of_ne hne]
      exact hbit
    · exact hbit
  own := hI.own
  ready := hI.ready

theorem step_map (hI : LifetimeInv (own, s)) (args : Option GpuMapMemoryArgs) :
    LifetimeInv (BoKfd.ownStep path (own, s) (.mapMemory args)) := by
  have hcall := mapCall path s.dev hI.ready args
  generalize hok : (mapMemory s.dev path s.kfd args).1.toBool = ok at hcall
  generalize hnext : (mapMemory s.dev path s.kfd args).2 = next at hcall
  cases hcall with
  | rejected =>
    have hstep : BoKfd.ownStep path (own, s) (.mapMemory args) = (own, s) := by
      refine Prod.ext ?_ ?_
      · cases args with
        | none => rfl
        | some a => exact if_neg (by rw [hok]; exact Bool.false_ne_true)
      · show ({ s with kfd := (mapMemory s.dev path s.kfd args).2 } : BoKfd) = s
        rw [hnext]
    rw [hstep]
    exact hI
  | accepted a hargs hvalid =>
    have hstep : BoKfd.ownStep path (own, s) (.mapMemory (some a)) =
        (Function.update own a.handle true, { s with kfd := vmaMapped path s.kfd a }) := by
      refine Prod.ext (if_pos hok) ?_
      show ({ s with kfd := (mapMemory s.dev path s.kfd (some a)).2 } : BoKfd) = _
      rw [hnext]
    have hmem (handle : UInt32) (h : handle ∈ (vmaMapped path s.kfd a).handleToGpuVa)
        (hne : handle ≠ a.handle) : handle ∈ s.kfd.handleToGpuVa := by
      rw [← AList.lookup_isSome, lookup_vmaMapped, if_neg hne, AList.lookup_isSome] at h
      exact h
    rw [hstep]
    exact {
      valid := by
        intro handle h
        by_cases hne : handle = a.handle
        · rw [hne]
          exact hvalid
        · exact hI.valid handle (hmem handle h hne)
      own := by
        intro handle h
        show Function.update own a.handle true handle = true
        by_cases hne : handle = a.handle
        · rw [hne, Function.update_self]
        · rw [Function.update_of_ne hne]
          exact hI.own handle (hmem handle h hne)
      ready := ready_vmaMapped hI.ready a }

theorem step_unmap (hI : LifetimeInv (own, s)) (args : Option GpuUnmapMemoryArgs) :
    LifetimeInv (BoKfd.ownStep path (own, s) (.unmapMemory args)) := by
  have hcall := unmapCall path s.dev s.kfd args
  generalize (unmapMemory s.dev path s.kfd args).1.toBool = ok at hcall
  generalize hnext : (unmapMemory s.dev path s.kfd args).2 = next at hcall
  have hstep : BoKfd.ownStep path (own, s) (.unmapMemory args) = (own, { s with kfd := next }) := by
    rw [← hnext]
    rfl
  rw [hstep]
  cases hcall with
  | rejected => exact hI
  | accepted a =>
    have hmem (handle : UInt32)
        (h : handle ∈ (vmaUnmapped path s.dev s.kfd a.handle).handleToGpuVa) :
        handle ∈ s.kfd.handleToGpuVa := by
      rw [← AList.lookup_isSome, lookup_vmaUnmapped] at h
      split_ifs at h with hsame
      · cases h
      · exact AList.lookup_isSome.mp h
    exact {
      valid := fun handle h => hI.valid handle (hmem handle h)
      own := fun handle h => hI.own handle (hmem handle h)
      ready := ready_vmaUnmapped hI.ready a.handle }

theorem step {x : (UInt32 → Bool) × BoKfd} (hI : LifetimeInv x) (r : BoKfdRequest)
    (hG : FreedUnmapped x r) : LifetimeInv (BoKfd.ownStep path x r) := by
  cases r with
  | allocBo size domain flags => exact step_alloc hI size domain flags
  | freeBo handle => exact step_free hI handle hG
  | mapMemory args => exact step_map hI args
  | unmapMemory args => exact step_unmap hI args

/-- Freed while it is mapped, a handle is mapped and not valid. -/
theorem freedUnmapped {x : (UInt32 → Bool) × BoKfd} (r : BoKfdRequest)
    (hafter : MappingsOwned (BoKfd.ownStep path x r)) : FreedUnmapped x r := by
  cases r with
  | freeBo handle =>
    intro hvalid hmapped
    have hstill := (BoTable.handleValid_iff.mp (hafter.valid handle hmapped)).2
    have hbit : (x.2.dev.handleFreeBo handle).2.allocatedBits handle = false := by
      rw [BoTable.handleFreeBo_bits, if_pos hvalid, Function.update_self]
    rw [show (BoKfd.ownStep path x (.freeBo handle)).2.dev.allocatedBits handle = false from hbit]
      at hstill
    cases hstill
  | allocBo size domain flags => trivial
  | mapMemory args => trivial
  | unmapMemory args => trivial

end LifetimeInv

/-- **Mappings belong to live buffer objects exactly along the runs that free no mapped handle.** -/
theorem mappings_owned_iff (path : KfdPath) (heapPtr : UInt64) (mmShim : Option UsMmShim)
    (requests : List BoKfdRequest) :
    Always (BoKfd.ownStep path) MappingsOwned (BoKfd.ownStart heapPtr mmShim) requests ↔
      Guarded (BoKfd.ownStep path) FreedUnmapped (BoKfd.ownStart heapPtr mmShim) requests :=
  always_iff_guarded (fun _ r hI hG => hI.step r hG) (fun _ hI => hI.toMappingsOwned)
    (fun _ r _ hafter => LifetimeInv.freedUnmapped r hafter) requests
    (LifetimeInv.start heapPtr mmShim)

/-- A buffer object is mapped and freed, and its handle goes to the next one. -/
def mapFreeAlloc : List BoKfdRequest :=
  [.allocBo 4096 1 0, .mapMemory (some ⟨1, 1, 4096⟩), .freeBo 1, .allocBo 4096 1 0]

/-- The mapping outlives its buffer object, and the next one has it from the start. -/
theorem mappings_owned_fails :
    ¬MappingsOwned (run (BoKfd.ownStep .gpgpu) (BoKfd.ownStart 0 none) (mapFreeAlloc.take 3)) ∧
      ¬MappingsOwned (run (BoKfd.ownStep .gpgpu) (BoKfd.ownStart 0 none) mapFreeAlloc) := by
  constructor
  · intro h
    have hvalid := h.valid 1 (by decide +kernel)
    revert hvalid
    decide +kernel
  · intro h
    have hown := h.own 1 (by decide +kernel)
    revert hown
    decide +kernel

end UsrLinuxEmu.GpuDriver
