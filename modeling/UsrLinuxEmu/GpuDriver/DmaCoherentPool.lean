import Mathlib.Algebra.Order.Ring.Nat
import Mathlib.Logic.Function.Basic
import Mathlib.Tactic.SplitIfs
import UsrLinuxEmu.Layout.Confinement
import UsrLinuxEmu.Transition.Simulation

/-!
# The coherent DMA pool (`sim/dma_coherent_pool.cpp`)

An allocation takes the bytes at the cursor, which is never moved back by a `free`.  The end of the
pool is checked in 64-bit arithmetic, and the records are kept by address.

* `DmaCoherentPool` — the pool, with `init`, `allocate` and `free`;
* `DmaObserver` — the allocations that have been made, and the live ones among them;
* `DmaLaw` — they lie in the window, apart from each other, and the live ones are recorded;
* `dma_pool_iff` — the runs along which that holds.
-/

namespace UsrLinuxEmu.GpuDriver

open UsrLinuxEmu.Layout UsrLinuxEmu.Transition

/-! ### The pool -/

/-- `DMA_COHERENT_BASE`. -/
def dmaCoherentBase : UInt64 := 0x100000000

/-- `DMA_COHERENT_SIZE`. -/
def dmaCoherentSize : UInt64 := 0x10000000

/-- `cpuPool` is zero for `nullptr`. -/
structure DmaCoherentPool where
  cpuPool : UInt64
  nextDmaAddr : UInt64
  allocations : UInt64 → Option UInt64
  initialized : Bool

namespace DmaCoherentPool

def create : DmaCoherentPool := ⟨0, dmaCoherentBase, fun _ => none, false⟩

/-- `mapping` is where the system puts the pool, `none` for `MAP_FAILED`. -/
def init (p : DmaCoherentPool) (mapping : Option UInt64) : Bool × DmaCoherentPool :=
  if p.initialized then (true, p)
  else
    match mapping with
    | none => (false, { p with cpuPool := 0 })
    | some addr => (true, { p with cpuPool := addr, initialized := true })

/-- The bus address and the pointer, `none` for `nullptr`. -/
def allocate (p : DmaCoherentPool) (size : UInt64) : Option (UInt64 × UInt64) × DmaCoherentPool :=
  if !p.initialized then (none, p)
  else if dmaCoherentBase + dmaCoherentSize < p.nextDmaAddr + size then (none, p)
  else
    (some (p.nextDmaAddr, p.cpuPool + (p.nextDmaAddr - dmaCoherentBase)),
      { p with
        allocations := Function.update p.allocations p.nextDmaAddr (some size)
        nextDmaAddr := p.nextDmaAddr + size })

def free (p : DmaCoherentPool) (dmaAddr : UInt64) : DmaCoherentPool :=
  { p with allocations := Function.update p.allocations dmaAddr none }

end DmaCoherentPool

inductive DmaOp where
  | init (mapping : Option UInt64)
  | allocate (size : UInt64)
  | free (dmaAddr : UInt64)
  deriving DecidableEq

def DmaCoherentPool.step (p : DmaCoherentPool) : DmaOp → DmaCoherentPool
  | .init mapping => (p.init mapping).2
  | .allocate size => (p.allocate size).2
  | .free dmaAddr => p.free dmaAddr

/-! ### The allocations -/

/-- A successful allocation: what was returned, and what was asked for. -/
structure DmaAllocation where
  dmaAddr : UInt64
  cpuAddr : UInt64
  size : UInt64
  deriving DecidableEq

namespace DmaAllocation

def stop (a : DmaAllocation) : ℕ := a.dmaAddr.toNat + a.size.toNat

/-- The byte at the bus address belongs to the allocation. -/
def Has (a : DmaAllocation) (x : ℕ) : Prop := a.dmaAddr.toNat ≤ x ∧ x < a.stop

end DmaAllocation

/-- Newest first. -/
structure DmaObserver where
  made : List DmaAllocation
  live : List DmaAllocation

namespace DmaObserver

def start : DmaObserver := ⟨[], []⟩

/-- A `free` ends one of the live allocations at the address. -/
def note (g : DmaObserver) (p : DmaCoherentPool) : DmaOp → DmaObserver
  | .init _ => g
  | .allocate size =>
    match (p.allocate size).1 with
    | none => g
    | some (dmaAddr, cpuAddr) =>
      ⟨⟨dmaAddr, cpuAddr, size⟩ :: g.made, ⟨dmaAddr, cpuAddr, size⟩ :: g.live⟩
  | .free dmaAddr => { g with live := g.live.eraseP fun a => a.dmaAddr == dmaAddr }

end DmaObserver

abbrev observedDma : DmaObserver × DmaCoherentPool → DmaOp → DmaObserver × DmaCoherentPool :=
  observed DmaCoherentPool.step DmaObserver.note

abbrev dmaStart : DmaObserver × DmaCoherentPool := (.start, .create)

/-- Every allocation lies in the window, no two of them share a byte, the pointer is at the same
offset in the pool, and the live ones are recorded with their sizes. -/
structure DmaLaw (x : DmaObserver × DmaCoherentPool) : Prop where
  inside : ∀ a ∈ x.1.made,
    Inside dmaCoherentBase.toNat dmaCoherentSize.toNat a.dmaAddr.toNat a.size.toNat
  apart : x.1.made.Pairwise fun a b => ∀ k, a.Has k → ¬b.Has k
  pointer : ∀ a ∈ x.1.made, a.cpuAddr = x.2.cpuPool + (a.dmaAddr - dmaCoherentBase)
  recorded : ∀ a ∈ x.1.live, x.2.allocations a.dmaAddr = some a.size

/-- The sum of cursor and size passes the check. -/
def DmaCoherentPool.Accepts (p : DmaCoherentPool) (size : UInt64) : Prop :=
  p.initialized = true ∧ p.nextDmaAddr + size ≤ dmaCoherentBase + dmaCoherentSize

instance (p : DmaCoherentPool) (size : UInt64) : Decidable (p.Accepts size) :=
  inferInstanceAs (Decidable (_ ∧ _))

/-- A request that passes the check does not wrap around, and finds no live allocation of another
size at the cursor; and no two live allocations lie at an address that is freed. -/
def dmaGuard (x : DmaObserver × DmaCoherentPool) : DmaOp → Prop
  | .init _ => True
  | .allocate size => x.2.Accepts size →
      x.2.nextDmaAddr.toNat + size.toNat < 2 ^ 64 ∧
        ∀ a ∈ x.1.live, a.dmaAddr = x.2.nextDmaAddr → a.size = size
  | .free dmaAddr => x.1.live.countP (fun a => a.dmaAddr == dmaAddr) ≤ 1

/-! ### Every call -/

section Calls

variable {p : DmaCoherentPool} {size : UInt64}

theorem DmaCoherentPool.allocate_of_accepts (h : p.Accepts size) :
    p.allocate size =
      (some (p.nextDmaAddr, p.cpuPool + (p.nextDmaAddr - dmaCoherentBase)),
        { p with
          allocations := Function.update p.allocations p.nextDmaAddr (some size)
          nextDmaAddr := p.nextDmaAddr + size }) := by
  obtain ⟨hinit, hend⟩ := h
  simp only [allocate, hinit, Bool.not_true, Bool.false_eq_true, if_false,
    if_neg (UInt64.not_lt.mpr hend)]

theorem DmaCoherentPool.allocate_of_not_accepts (h : ¬p.Accepts size) :
    p.allocate size = (none, p) := by
  unfold allocate
  split_ifs with hinit hend
  · rfl
  · rfl
  · exact absurd ⟨by simpa using hinit, UInt64.not_lt.mp hend⟩ h

end Calls

/-! ### The invariant -/

/-- Besides, the allocations end before the cursor, which is in the window, and the live ones are
allocations. -/
structure DmaInv (x : DmaObserver × DmaCoherentPool) : Prop where
  law : DmaLaw x
  cursor : x.2.nextDmaAddr.toNat ≤ dmaCoherentBase.toNat + dmaCoherentSize.toNat
  base : dmaCoherentBase.toNat ≤ x.2.nextDmaAddr.toNat
  before : ∀ a ∈ x.1.made, a.stop ≤ x.2.nextDmaAddr.toNat
  unused : x.2.initialized = false → x.1.made = []

theorem dmaInv_start : DmaInv dmaStart where
  law := ⟨nofun, .nil, nofun, nofun⟩
  cursor := by decide
  base := by decide
  before := nofun
  unused := fun _ => rfl

/-- The end of the window, which is a 64-bit address. -/
theorem dmaCoherentEnd :
    (dmaCoherentBase + dmaCoherentSize).toNat =
      dmaCoherentBase.toNat + dmaCoherentSize.toNat := by
  decide

section Steps

variable {g : DmaObserver} {p : DmaCoherentPool}

theorem observedDma_allocate {size : UInt64} (h : p.Accepts size) :
    observedDma (g, p) (.allocate size) =
      (⟨⟨p.nextDmaAddr, p.cpuPool + (p.nextDmaAddr - dmaCoherentBase), size⟩ :: g.made,
        ⟨p.nextDmaAddr, p.cpuPool + (p.nextDmaAddr - dmaCoherentBase), size⟩ :: g.live⟩,
        { p with
          allocations := Function.update p.allocations p.nextDmaAddr (some size)
          nextDmaAddr := p.nextDmaAddr + size }) := by
  simp only [observedDma, observed, DmaObserver.note, DmaCoherentPool.step,
    DmaCoherentPool.allocate_of_accepts h]

theorem observedDma_refused {size : UInt64} (h : ¬p.Accepts size) :
    observedDma (g, p) (.allocate size) = (g, p) := by
  simp only [observedDma, observed, DmaObserver.note, DmaCoherentPool.step,
    DmaCoherentPool.allocate_of_not_accepts h]

theorem dmaInv_init (h : DmaInv (g, p)) (mapping : Option UInt64) :
    DmaInv (observedDma (g, p) (.init mapping)) := by
  show DmaInv (g, (p.init mapping).2)
  unfold DmaCoherentPool.init
  by_cases hinit : p.initialized = true
  · rw [if_pos hinit]
    exact h
  · have hempty : g.made = [] := h.unused (by simpa using hinit)
    have hpointer : ∀ pool, ∀ a ∈ g.made, a.cpuAddr = pool + (a.dmaAddr - dmaCoherentBase) := by
      intro pool a ha
      rw [hempty] at ha
      cases ha
    rw [if_neg hinit]
    cases mapping with
    | none =>
      exact ⟨⟨h.law.inside, h.law.apart, hpointer 0, h.law.recorded⟩, h.cursor, h.base, h.before,
        h.unused⟩
    | some addr =>
      exact ⟨⟨h.law.inside, h.law.apart, hpointer addr, h.law.recorded⟩, h.cursor, h.base,
        h.before, fun _ => hempty⟩

theorem dmaInv_allocate (h : DmaInv (g, p)) {size : UInt64}
    (hG : dmaGuard (g, p) (.allocate size)) :
    DmaInv (observedDma (g, p) (.allocate size)) := by
  by_cases hok : p.Accepts size
  swap
  · rw [observedDma_refused hok]
    exact h
  obtain ⟨hwrap, hsame⟩ := hG hok
  have hnext : (p.nextDmaAddr + size).toNat = p.nextDmaAddr.toNat + size.toNat :=
    (UInt64.toNat_add ..).trans (Nat.mod_eq_of_lt hwrap)
  have hend : p.nextDmaAddr.toNat + size.toNat ≤
      dmaCoherentBase.toNat + dmaCoherentSize.toNat := by
    rw [← hnext, ← dmaCoherentEnd]
    exact UInt64.le_iff_toNat_le.mp hok.2
  rw [observedDma_allocate hok]
  refine ⟨⟨?_, ?_, ?_, ?_⟩, ?_, ?_, ?_, ?_⟩
  · intro a ha
    obtain rfl | ha := List.mem_cons.mp ha
    · exact ⟨h.base, hend⟩
    · exact h.law.inside a ha
  · refine List.pairwise_cons.mpr ⟨fun a ha k hnew hold => ?_, h.law.apart⟩
    have hbefore : a.stop ≤ p.nextDmaAddr.toNat := h.before a ha
    exact absurd hnew.1 (Nat.not_le.mpr (hold.2.trans_le hbefore))
  · intro a ha
    obtain rfl | ha := List.mem_cons.mp ha
    · rfl
    · exact h.law.pointer a ha
  · intro a ha
    obtain rfl | ha := List.mem_cons.mp ha
    · exact Function.update_self ..
    · by_cases heq : a.dmaAddr = p.nextDmaAddr
      · simp only [heq, Function.update_self, hsame a ha heq]
      · simp only [Function.update_of_ne heq]
        exact h.law.recorded a ha
  · exact hnext.trans_le hend
  · exact h.base.trans (hnext ▸ Nat.le_add_right _ _)
  · intro a ha
    show a.stop ≤ (p.nextDmaAddr + size).toNat
    rw [hnext]
    obtain rfl | ha := List.mem_cons.mp ha
    · exact Nat.le_refl _
    · exact (h.before a ha).trans (Nat.le_add_right _ _)
  · intro hunset
    exact absurd hok.1 (by simpa using hunset)

/-- After a `free`, another live allocation at the address is one of two. -/
theorem exists_mem_eraseP_iff (dmaAddr : UInt64) (live : List DmaAllocation) :
    (∃ a ∈ live.eraseP fun a => a.dmaAddr == dmaAddr, a.dmaAddr = dmaAddr) ↔
      1 < live.countP fun a => a.dmaAddr == dmaAddr := by
  induction live with
  | nil => simp
  | cons a live ih =>
    by_cases ha : a.dmaAddr = dmaAddr
    · have hpos := List.countP_pos_iff (p := fun a : DmaAllocation => a.dmaAddr == dmaAddr)
        (l := live)
      simp only [beq_iff_eq] at hpos
      simp only [List.eraseP_cons, List.countP_cons, ha, beq_self_eq_true, if_true, cond_true,
        Nat.lt_add_left_iff_pos, ← hpos]
    · simp only [List.eraseP_cons, List.countP_cons, beq_false_of_ne ha, cond_false,
        Bool.false_eq_true, if_false, Nat.add_zero, List.exists_mem_cons_iff, ha, false_or, ih]

theorem dmaInv_free (h : DmaInv (g, p)) {dmaAddr : UInt64}
    (hG : dmaGuard (g, p) (.free dmaAddr)) : DmaInv (observedDma (g, p) (.free dmaAddr)) := by
  refine ⟨⟨h.law.inside, h.law.apart, h.law.pointer, ?_⟩, h.cursor, h.base, h.before, h.unused⟩
  intro a ha
  have hne : a.dmaAddr ≠ dmaAddr := fun heq =>
    absurd ((exists_mem_eraseP_iff dmaAddr g.live).mp ⟨a, ha, heq⟩) (Nat.not_lt.mpr hG)
  show Function.update p.allocations dmaAddr none a.dmaAddr = some a.size
  rw [Function.update_of_ne hne]
  exact h.law.recorded a (List.mem_of_mem_eraseP ha)

end Steps

theorem dmaInv_step (x : DmaObserver × DmaCoherentPool) (op : DmaOp) (h : DmaInv x)
    (hG : dmaGuard x op) : DmaInv (observedDma x op) := by
  cases op with
  | init mapping => exact dmaInv_init h mapping
  | allocate size => exact dmaInv_allocate h hG
  | free dmaAddr => exact dmaInv_free h hG

/-- A step that keeps the law meets the condition. -/
theorem dmaGuard_of_law (x : DmaObserver × DmaCoherentPool) (op : DmaOp) (h : DmaInv x)
    (hnext : DmaLaw (observedDma x op)) : dmaGuard x op := by
  obtain ⟨g, p⟩ := x
  cases op with
  | init mapping => trivial
  | allocate size =>
    intro hok
    rw [observedDma_allocate hok] at hnext
    constructor
    · have hinside := (hnext.inside _ List.mem_cons_self).2
      have hlimit := (dmaCoherentBase + dmaCoherentSize).toNat_lt
      rw [dmaCoherentEnd] at hlimit
      exact hinside.trans_lt hlimit
    · intro a ha heq
      have hrec := hnext.recorded a (List.mem_cons_of_mem _ ha)
      simp only [heq, Function.update_self, Option.some.injEq] at hrec
      exact hrec.symm
  | free dmaAddr =>
    refine Nat.not_lt.mp fun htwo => ?_
    obtain ⟨a, ha, heq⟩ := (exists_mem_eraseP_iff dmaAddr g.live).mpr htwo
    have hrec : Function.update p.allocations dmaAddr none a.dmaAddr = some a.size :=
      hnext.recorded a ha
    rw [heq, Function.update_self] at hrec
    cases hrec

/-- **The pool.**  Along a run the allocations lie in the window, apart, and the live ones are
recorded, exactly when no accepted request wraps around, none is recorded over a live allocation of
another size, and no address of two live allocations is freed. -/
theorem dma_pool_iff (ops : List DmaOp) :
    Always observedDma DmaLaw dmaStart ops ↔ Guarded observedDma dmaGuard dmaStart ops :=
  always_iff_guarded dmaInv_step (fun _ h => h.law) dmaGuard_of_law ops dmaInv_start

/-- A request for almost all of the space moves the cursor back to the base. -/
theorem dma_pool_fails :
    ¬Always observedDma DmaLaw dmaStart
      [.init (some 0x7f0000000000), .allocate 0x1000, .allocate 0xfffffffffffff000] := by
  intro h
  have hinside := h.last.inside ⟨0x100001000, 0x7f0000001000, 0xfffffffffffff000⟩ (by decide)
  exact absurd hinside.2 (by decide)

end UsrLinuxEmu.GpuDriver
