import Mathlib.Algebra.Order.Ring.Nat
import UsrLinuxEmu.GpuDriver.EntryBytes
import UsrLinuxEmu.GpuDriver.Puller
import UsrLinuxEmu.Transition.Run

/-!
# Executable graphs (`sim/graph.cpp`)

A graph collects kernel and memcpy nodes.  Instantiation compiles them into GPFIFO entries and puts
the entries into a heap of the graph module's own, whose addresses start at `SIM_HEAP_BASE`; a launch
hands the address to the puller, which reads through the HAL.

* `SimGraph` — the graph and exec tables and that heap;
* `graphToGpfifo` — one entry for each node;
* `readEntries` — entries read through the HAL's `mem_read`;
* `ExecsReadable` — what a launch hands out reads as the compiled entries;
* `execs_readable_iff` — the runs in which that holds: those that instantiate graphs without nodes,
  or graphs whose entries HAL memory holds already at the address.
-/

namespace UsrLinuxEmu.GpuDriver

open UsrLinuxEmu.Transition

/-! ### Nodes and their entries -/

structure KernelNodeMetadata where
  kernelIndex : UInt32
  gridX : UInt32
  gridY : UInt32
  gridZ : UInt32
  blockX : UInt32
  blockY : UInt32
  blockZ : UInt32
  kernargsBoHandle : UInt64
  deriving DecidableEq, Repr

structure MemcpyNodeMetadata where
  srcVa : UInt64
  dstVa : UInt64
  size : UInt64
  isH2d : Int32
  deriving DecidableEq, Repr

inductive NodeMetadata where
  | kernel (node : KernelNodeMetadata)
  | memcpy (node : MemcpyNodeMetadata)
  deriving DecidableEq, Repr

/-- Three dimensions in one word, the second and third shifted. -/
def packDims (shiftY shiftZ : UInt64) (x y z : UInt32) : UInt64 :=
  x.toUInt64 ||| y.toUInt64 <<< shiftY ||| z.toUInt64 <<< shiftZ

def packGridDim (x y z : UInt32) : UInt64 := packDims 16 24 x y z

def packBlockDim (x y z : UInt32) : UInt64 := packDims 8 16 x y z

def resolveKernargsVa (boHandle : UInt64) : UInt64 :=
  if boHandle = 0 then 0 else 0x30000000 + boHandle * 0x1000

def resolveKernelVa (kernelIndex : UInt32) : UInt64 :=
  0x40000000 + kernelIndex.toUInt64 * 0x1000

/-- The body of the loop in `graph_to_gpfifo`. -/
def NodeMetadata.entry : NodeMetadata → GpuGpfifoEntry
  | .kernel node =>
    { GpuGpfifoEntry.zero with
      valid := true
      method := gpuOpLaunchKernel
      payload := #v[resolveKernelVa node.kernelIndex, packGridDim node.gridX node.gridY node.gridZ,
        packBlockDim node.blockX node.blockY node.blockZ, resolveKernargsVa node.kernargsBoHandle,
        0, 0, 0] }
  | .memcpy node =>
    { GpuGpfifoEntry.zero with
      valid := true
      method := gpuOpMemcpy
      payload := #v[node.srcVa, node.dstVa, node.size, node.isH2d.toInt64.toUInt64, 0, 0, 0] }

def graphToGpfifo (nodes : List NodeMetadata) : List GpuGpfifoEntry := nodes.map NodeMetadata.entry

/-- The addresses recorded with an executable. -/
def kernelAddrs (nodes : List NodeMetadata) : List UInt64 :=
  nodes.filterMap fun
    | .kernel node => some (resolveKernelVa node.kernelIndex)
    | .memcpy _ => none

/-- Every kernel node has a buffer for its arguments. -/
def validateKernargs (nodes : List NodeMetadata) : Bool :=
  nodes.all fun
    | .kernel node => node.kernargsBoHandle != 0
    | .memcpy _ => true

/-! ### The tables -/

structure ExecEntry where
  sourceGraph : UInt64
  kernelAddrs : List UInt64
  precompiledEntries : List GpuGpfifoEntry
  gpfifoGpuAddr : UInt64
  entryCount : UInt32

structure SimGraph where
  graphTable : UInt64 → Option (List NodeMetadata)
  execTable : UInt64 → Option ExecEntry
  nextGraphHandle : UInt64
  nextExecHandle : UInt64
  simHeap : List UInt8

def simHeapBase : UInt64 := 0x20000000

namespace SimGraph

def init : SimGraph := ⟨fun _ => none, fun _ => none, 1, 1, []⟩

/-- `sim_heap_.size()`. -/
def simHeapSize (s : SimGraph) : ℕ := s.simHeap.length

def simGraphCreate (s : SimGraph) : UInt64 × SimGraph :=
  (s.nextGraphHandle, { s with
    graphTable := Function.update s.graphTable s.nextGraphHandle (some [])
    nextGraphHandle := s.nextGraphHandle + 1 })

/-- The graph goes, and with it the executables made from it. -/
def simGraphDestroy (s : SimGraph) (graphHandle : UInt64) : Int × SimGraph :=
  if s.graphTable graphHandle = none then (-eINVAL, s)
  else (0, { s with
    graphTable := Function.update s.graphTable graphHandle none
    execTable := fun eh => (s.execTable eh).filter fun exec => exec.sourceGraph != graphHandle })

/-- `sim_graph_add_kernel_node` and `sim_graph_add_memcpy_node`. -/
def addNode (s : SimGraph) (graphHandle : UInt64) (node : NodeMetadata) : Int × SimGraph :=
  match s.graphTable graphHandle with
  | none => (-eINVAL, s)
  | some nodes =>
    (0, { s with graphTable := Function.update s.graphTable graphHandle (some (nodes ++ [node])) })

def simGraphAddKernelNode (s : SimGraph) (graphHandle : UInt64) (node : KernelNodeMetadata) :
    Int × SimGraph := s.addNode graphHandle (.kernel node)

def simGraphAddMemcpyNode (s : SimGraph) (graphHandle : UInt64) (node : MemcpyNodeMetadata) :
    Int × SimGraph := s.addNode graphHandle (.memcpy node)

/-- `sim_gpfifo_alloc`: the place in the heap and the address of the bytes appended, which are
zero. -/
def simGpfifoAlloc (s : SimGraph) (size : ℕ) : ℕ × UInt64 × SimGraph :=
  (s.simHeapSize, simHeapBase + UInt64.ofNat s.simHeapSize,
    { s with simHeap := s.simHeap ++ List.replicate size 0 })

/-- `std::memcpy` to a place in the heap. -/
def copyToHeap (s : SimGraph) (place : ℕ) (bytes : List UInt8) : SimGraph :=
  { s with simHeap := s.simHeap.take place ++ bytes ++ s.simHeap.drop (place + bytes.length) }

/-- The executable of the nodes, and the heap with its entries. -/
def compile (s : SimGraph) (graphHandle : UInt64) (nodes : List NodeMetadata) :
    ExecEntry × SimGraph :=
  let entries := graphToGpfifo nodes
  let count := UInt32.ofNat entries.length
  let exec : ExecEntry := ⟨graphHandle, kernelAddrs nodes, entries, 0, count⟩
  if 0 < count then
    let r := s.simGpfifoAlloc (entries.length * sizeofGpfifoEntry)
    ({ exec with gpfifoGpuAddr := r.2.1 },
      r.2.2.copyToHeap r.1 (exec.precompiledEntries.flatMap GpuGpfifoEntry.toBytes))
  else (exec, s)

/-- The handle is `none` when the call is refused. -/
def simGraphInstantiate (s : SimGraph) (graphHandle : UInt64) : Int × Option UInt64 × SimGraph :=
  match s.graphTable graphHandle with
  | none => (-eINVAL, none, s)
  | some nodes =>
    if validateKernargs nodes then
      let r := s.compile graphHandle nodes
      (0, some s.nextExecHandle, { r.2 with
        execTable := Function.update s.execTable s.nextExecHandle (some r.1)
        nextExecHandle := s.nextExecHandle + 1 })
    else (-eINVAL, none, s)

/-- The address and the number of entries to submit. -/
def simGraphLaunch (s : SimGraph) (execHandle : UInt64) : Int × Option (UInt64 × UInt32) :=
  match s.execTable execHandle with
  | none => (-eINVAL, none)
  | some exec => (0, some (exec.gpfifoGpuAddr, exec.entryCount))

def simGraphDestroyExec (s : SimGraph) (execHandle : UInt64) : Int × SimGraph :=
  if s.execTable execHandle = none then (-eINVAL, s)
  else (0, { s with execTable := Function.update s.execTable execHandle none })

end SimGraph

/-- A call that changes the tables. -/
inductive GraphCall where
  | create
  | destroy (graphHandle : UInt64)
  | addKernelNode (graphHandle : UInt64) (node : KernelNodeMetadata)
  | addMemcpyNode (graphHandle : UInt64) (node : MemcpyNodeMetadata)
  | instantiate (graphHandle : UInt64)
  | destroyExec (execHandle : UInt64)
  deriving DecidableEq, Repr

namespace SimGraph

def step (s : SimGraph) : GraphCall → SimGraph
  | .create => s.simGraphCreate.2
  | .destroy graphHandle => (s.simGraphDestroy graphHandle).2
  | .addKernelNode graphHandle node => (s.simGraphAddKernelNode graphHandle node).2
  | .addMemcpyNode graphHandle node => (s.simGraphAddMemcpyNode graphHandle node).2
  | .instantiate graphHandle => (s.simGraphInstantiate graphHandle).2.2
  | .destroyExec execHandle => (s.simGraphDestroyExec execHandle).2

end SimGraph

/-! ### Reading through the HAL -/

/-- The puller's read of entry `i` of a buffer; `none` for a failed `mem_read`. -/
def readEntry (hal : HalUserContext) (addr : UInt64) (i : ℕ) : Option GpuGpfifoEntry :=
  (hal.memRead (entryAddr addr i) (UInt64.ofNat sizeofGpfifoEntry)).map .ofBytes

/-- Reading `count` entries at `addr` succeeds and yields `entries`. -/
def ReadsAs (hal : HalUserContext) (addr : UInt64) (count : ℕ) (entries : List GpuGpfifoEntry) :
    Prop :=
  entries.length = count ∧ ∀ i e, entries[i]? = some e → readEntry hal addr i = some e

/-- What a launch hands out reads as the entries of the executable. -/
def ExecsReadable (hal : HalUserContext) (s : SimGraph) : Prop :=
  ∀ eh exec, s.execTable eh = some exec → ∀ addr count,
    s.simGraphLaunch eh = (0, some (addr, count)) →
      ReadsAs hal addr count.toNat exec.precompiledEntries

/-- Entry `i` of the buffer passes the range check of `mem_read`. -/
def InHalWindow (addr : UInt64) (i : ℕ) : Prop :=
  HalUserContext.outOfRange (entryAddr addr i) (UInt64.ofNat sizeofGpfifoEntry) = false

/-- The bytes of HAL memory at the place of entry `i` are those of the entry. -/
def HalHolds (hal : HalUserContext) (addr : UInt64) (i : ℕ) (e : GpuGpfifoEntry) : Prop :=
  GpuGpfifoEntry.ofBytes (fun k => hal.heap
    (HalUserContext.heapOff (entryAddr addr i) + UInt64.ofNat k)) = e

/-- The instantiation is refused, or the graph has no nodes, or it has fewer than `2 ^ 32` and HAL
memory holds their entries already, where the heap of the graph module goes on. -/
def execGuard (hal : HalUserContext) (s : SimGraph) : GraphCall → Prop
  | .instantiate graphHandle => ∀ nodes, s.graphTable graphHandle = some nodes →
      validateKernargs nodes = true → nodes = [] ∨ (nodes.length < 2 ^ 32 ∧
        ∀ i node, nodes[i]? = some node →
          InHalWindow (simHeapBase + UInt64.ofNat s.simHeapSize) i ∧
            HalHolds hal (simHeapBase + UInt64.ofNat s.simHeapSize) i node.entry)
  | .create | .destroy _ | .addKernelNode .. | .addMemcpyNode .. | .destroyExec _ => True

/-! ### When a buffer is readable -/

theorem readEntry_eq_some {hal : HalUserContext} {addr : UInt64} {i : ℕ} {e : GpuGpfifoEntry} :
    readEntry hal addr i = some e ↔ InHalWindow addr i ∧ HalHolds hal addr i e := by
  unfold readEntry InHalWindow HalHolds HalUserContext.memRead
  cases HalUserContext.outOfRange (entryAddr addr i) (UInt64.ofNat sizeofGpfifoEntry) with
  | true => simp
  | false => simp

/-- **Two address spaces.**  An entry of the graph heap is outside the HAL's window as long as it
ends below the first byte of device memory. -/
theorem not_inHalWindow {offset i : ℕ}
    (h : simHeapBase.toNat + offset + (i + 1) * sizeofGpfifoEntry < halHeapBase.toNat) :
    ¬InHalWindow (simHeapBase + UInt64.ofNat offset) i := by
  have hbase : simHeapBase.toNat = 0x20000000 := rfl
  have hhal : halHeapBase.toNat = 0x100000000 := rfl
  have hsize : sizeofGpfifoEntry = 109 := rfl
  rw [hbase, hhal, hsize] at h
  unfold InHalWindow HalUserContext.outOfRange HalUserContext.heapOff entryAddr
  simp only [decide_eq_false_iff_not, not_not, gt_iff_lt]
  rw [UInt64.lt_iff_toNat_lt, UInt64.toNat_add, UInt64.toNat_sub, UInt64.toNat_add,
    UInt64.toNat_add, hbase, hhal, hsize]
  have hlimit : halHeapSize.toNat = 0x10000000 := rfl
  rw [hlimit, UInt64.toNat_ofNat', UInt64.toNat_ofNat', UInt64.toNat_ofNat']
  omega

namespace SimGraph

/-- The executable of a graph reads as its entries exactly under the condition on the graph. -/
theorem compile_readable (hal : HalUserContext) (s : SimGraph) (graphHandle : UInt64)
    (nodes : List NodeMetadata) :
    ReadsAs hal (s.compile graphHandle nodes).1.gpfifoGpuAddr
        (s.compile graphHandle nodes).1.entryCount.toNat
        (s.compile graphHandle nodes).1.precompiledEntries ↔
      nodes = [] ∨ (nodes.length < 2 ^ 32 ∧ ∀ i node, nodes[i]? = some node →
        InHalWindow (simHeapBase + UInt64.ofNat s.simHeapSize) i ∧
          HalHolds hal (simHeapBase + UInt64.ofNat s.simHeapSize) i node.entry) := by
  have hlength : (graphToGpfifo nodes).length = nodes.length := List.length_map ..
  have hcount : (UInt32.ofNat nodes.length).toNat = nodes.length % 2 ^ 32 := UInt32.toNat_ofNat'
  by_cases hempty : nodes = []
  · subst hempty
    refine iff_of_true ⟨rfl, fun i e he => ?_⟩ (.inl rfl)
    have hnone : (graphToGpfifo [])[i]? = none := rfl
    have he' : (graphToGpfifo [])[i]? = some e := he
    rw [hnone] at he'
    cases he'
  have hpos : 0 < nodes.length := List.length_pos_of_ne_nil hempty
  rw [or_iff_right hempty]
  by_cases hsmall : nodes.length < 2 ^ 32
  · have hnonzero : 0 < UInt32.ofNat (graphToGpfifo nodes).length := by
      rw [UInt32.lt_iff_toNat_lt, hlength, hcount, Nat.mod_eq_of_lt hsmall]
      exact hpos
    have hcompile : (s.compile graphHandle nodes).1 = ⟨graphHandle, kernelAddrs nodes,
        graphToGpfifo nodes, simHeapBase + UInt64.ofNat s.simHeapSize,
        UInt32.ofNat (graphToGpfifo nodes).length⟩ := by
      simp only [compile, if_pos hnonzero, simGpfifoAlloc]
    rw [hcompile, ReadsAs]
    simp only [hlength, hcount, Nat.mod_eq_of_lt hsmall, hsmall, true_and]
    constructor
    · intro h i node hnode
      refine readEntry_eq_some.mp (h i node.entry ?_)
      rw [graphToGpfifo, List.getElem?_map, hnode]
      rfl
    · intro h i e he
      rw [graphToGpfifo, List.getElem?_map] at he
      obtain ⟨node, hnode, rfl⟩ := Option.map_eq_some_iff.mp he
      exact readEntry_eq_some.mpr (h i node hnode)
  · -- the truncated count is not the number of entries
    refine iff_of_false (fun h => ?_) fun h => hsmall h.1
    have hcounts := h.1
    have hentries : (s.compile graphHandle nodes).1.precompiledEntries = graphToGpfifo nodes := by
      unfold compile
      simp only
      split_ifs <;> rfl
    have htrunc : (s.compile graphHandle nodes).1.entryCount =
        UInt32.ofNat (graphToGpfifo nodes).length := by
      unfold compile
      simp only
      split_ifs <;> rfl
    rw [hentries, htrunc, hlength, hcount] at hcounts
    omega

theorem simGraphLaunch_eq {s : SimGraph} {eh : UInt64} {exec : ExecEntry}
    (h : s.execTable eh = some exec) :
    s.simGraphLaunch eh = (0, some (exec.gpfifoGpuAddr, exec.entryCount)) := by
  rw [simGraphLaunch, h]

/-- Readability of the table, without the launches. -/
theorem execsReadable_iff {hal : HalUserContext} {s : SimGraph} : ExecsReadable hal s ↔
    ∀ eh exec, s.execTable eh = some exec →
      ReadsAs hal exec.gpfifoGpuAddr exec.entryCount.toNat exec.precompiledEntries := by
  constructor
  · intro h eh exec hexec
    exact h eh exec hexec _ _ (simGraphLaunch_eq hexec)
  · intro h eh exec hexec addr count hlaunch
    rw [simGraphLaunch_eq hexec, Prod.mk.injEq, Option.some.injEq, Prod.mk.injEq] at hlaunch
    obtain ⟨-, rfl, rfl⟩ := hlaunch
    exact h eh exec hexec

/-- What a call does to the executables: some may go, and an instantiation may add one. -/
theorem step_execs (s : SimGraph) (call : GraphCall) :
    (∀ eh exec, (s.step call).execTable eh = some exec → s.execTable eh = some exec) ∨
      ∃ graphHandle nodes, call = .instantiate graphHandle ∧
        s.graphTable graphHandle = some nodes ∧ validateKernargs nodes = true ∧
        (s.step call).execTable = Function.update s.execTable s.nextExecHandle
          (some (s.compile graphHandle nodes).1) := by
  have hadd : ∀ graphHandle node eh exec,
      (s.addNode graphHandle node).2.execTable eh = some exec → s.execTable eh = some exec := by
    intro graphHandle node eh exec h
    unfold addNode at h
    cases hg : s.graphTable graphHandle with
    | none => rwa [hg] at h
    | some nodes => rwa [hg] at h
  cases call with
  | create => exact .inl fun _ _ h => h
  | destroy graphHandle =>
    left
    intro eh exec h
    simp only [step, simGraphDestroy] at h
    split_ifs at h
    · exact h
    · exact (Option.filter_eq_some_iff.mp h).1
  | addKernelNode graphHandle node => exact .inl (hadd graphHandle (.kernel node))
  | addMemcpyNode graphHandle node => exact .inl (hadd graphHandle (.memcpy node))
  | instantiate graphHandle =>
    cases hg : s.graphTable graphHandle with
    | none =>
      left
      intro eh exec h
      simpa only [step, simGraphInstantiate, hg] using h
    | some nodes =>
      by_cases hvalid : validateKernargs nodes = true
      · refine .inr ⟨graphHandle, nodes, rfl, hg, hvalid, ?_⟩
        simp only [step, simGraphInstantiate, hg, if_pos hvalid]
      · left
        intro eh exec h
        simpa only [step, simGraphInstantiate, hg, if_neg hvalid] using h
  | destroyExec execHandle =>
    left
    intro eh exec h
    simp only [step, simGraphDestroyExec] at h
    split_ifs at h
    · exact h
    · by_cases heq : eh = execHandle
      · subst heq
        simp at h
      · simpa [heq] using h

theorem execsReadable_step {hal : HalUserContext} (s : SimGraph) (call : GraphCall)
    (h : ExecsReadable hal s) (hG : execGuard hal s call) : ExecsReadable hal (s.step call) := by
  rw [execsReadable_iff] at h ⊢
  intro eh exec hexec
  rcases step_execs s call with hsub | ⟨graphHandle, nodes, rfl, hg, hvalid, htable⟩
  · exact h eh exec (hsub eh exec hexec)
  · rw [htable] at hexec
    by_cases heq : eh = s.nextExecHandle
    · subst heq
      rw [Function.update_self] at hexec
      obtain rfl := Option.some.inj hexec
      exact (compile_readable hal s graphHandle nodes).mpr (hG nodes hg hvalid)
    · rw [Function.update_of_ne heq] at hexec
      exact h eh exec hexec

theorem execGuard_of_readable {hal : HalUserContext} (s : SimGraph) (call : GraphCall)
    (hnext : ExecsReadable hal (s.step call)) : execGuard hal s call := by
  cases call with
  | instantiate graphHandle =>
    intro nodes hg hvalid
    have htable : (s.step (.instantiate graphHandle)).execTable s.nextExecHandle =
        some (s.compile graphHandle nodes).1 := by
      simp only [step, simGraphInstantiate, hg, if_pos hvalid, Function.update_self]
    exact (compile_readable hal s graphHandle nodes).mp
      (execsReadable_iff.mp hnext _ _ htable)
  | create => trivial
  | destroy graphHandle => trivial
  | addKernelNode graphHandle node => trivial
  | addMemcpyNode graphHandle node => trivial
  | destroyExec execHandle => trivial

/-- **Executables.**  In every state of a run, what launches hand out reads as the compiled entries
exactly when each instantiation of the run meets the condition. -/
theorem execs_readable_iff (hal : HalUserContext) (calls : List GraphCall) :
    Always step (ExecsReadable hal) init calls ↔ Guarded step (execGuard hal) init calls := by
  refine always_iff_guarded (fun s call h hG => execsReadable_step s call h hG) (fun _ h => h)
    (fun s call _ hnext => execGuard_of_readable s call hnext) calls ?_
  intro eh exec hexec
  cases hexec

/-- One memcpy node: its entry is at `0x20000000`, which the HAL refuses. -/
theorem execs_readable_fails : ¬Always step (ExecsReadable ⟨fun _ => 0, 0⟩) init
    [.create, .addMemcpyNode 1 ⟨0x100000000, 0x100001000, 64, 0⟩, .instantiate 1] := by
  intro h
  have hread := (execsReadable_iff.mp h.last 1 _ rfl).2 0 _ rfl
  exact not_inHalWindow (by decide) (readEntry_eq_some.mp hread).1

end SimGraph

end UsrLinuxEmu.GpuDriver
