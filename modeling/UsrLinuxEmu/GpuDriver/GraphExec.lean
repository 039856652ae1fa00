import UsrLinuxEmu.GpuDriver.Graph
import UsrLinuxEmu.Transition.Simulation

/-!
# How long an executable lives (`sim/graph.cpp`)

An executable is compiled from the nodes of its graph and put into the simulated heap, which only
grows; the graph may change afterwards, but its destruction takes the executables with it.

* `ExecSnapshot` — the nodes of an instantiation, and what the executable's launch gave then;
* `gpfifoAt` — the entry that an address and an index name in `sim_heap_`;
* `ExecsKept` — an executable that is not destroyed launches as when it was made;
* `execs_kept` — that holds until the executable or its graph is destroyed.
-/

namespace UsrLinuxEmu.GpuDriver

open UsrLinuxEmu.Layout UsrLinuxEmu.Transition

/-! ### What has been handed out -/

/-- The graph and the nodes an executable was made from, and its launch at that time. -/
structure ExecSnapshot where
  sourceGraph : UInt64
  launch : Int × Option (UInt64 × UInt32)
  nodes : List NodeMetadata

/-- What was handed out under each handle and has not been destroyed. -/
abbrev ExecHistory := UInt64 → List ExecSnapshot

namespace ExecHistory

def init : ExecHistory := fun _ => []

/-- An instantiation that gives a handle is recorded under it. -/
def noteInstantiate (history : ExecHistory) (s : SimGraph) (graphHandle : UInt64) : ExecHistory :=
  match s.graphTable graphHandle, s.simGraphInstantiate graphHandle with
  | some nodes, (_, some execHandle, s') =>
    Function.update history execHandle
      (⟨graphHandle, s'.simGraphLaunch execHandle, nodes⟩ :: history execHandle)
  | _, _ => history

/-- The executables of the graph are no longer expected to launch. -/
def dropGraph (history : ExecHistory) (graphHandle : UInt64) : ExecHistory := fun execHandle =>
  (history execHandle).filter fun snapshot => snapshot.sourceGraph != graphHandle

end ExecHistory

/-- Whether the destruction of its graph ends an executable. -/
inductive ExecLifetime where
  | ownHandle
  | withGraph
  deriving DecidableEq, Repr

namespace SimGraph

variable (lifetime : ExecLifetime)

def noteExecs (history : ExecHistory) (s : SimGraph) : GraphCall → ExecHistory
  | .instantiate graphHandle => history.noteInstantiate s graphHandle
  | .destroyExec execHandle => Function.update history execHandle []
  | .destroy graphHandle =>
    if lifetime = .withGraph ∧ (s.simGraphDestroy graphHandle).1 = 0 then
      history.dropGraph graphHandle
    else history
  | _ => history

/-- The tables, with what has been handed out. -/
abbrev execStep : ExecHistory × SimGraph → GraphCall → ExecHistory × SimGraph :=
  observed step (noteExecs lifetime)

abbrev execInit : ExecHistory × SimGraph := (.init, init)

end SimGraph

/-! ### The property -/

/-- Entry `i` of the buffer at an address of the heap, as its bytes give it. -/
def gpfifoAt (heap : List UInt8) (addr : UInt64) (i : ℕ) : Option GpuGpfifoEntry :=
  let bytes := (heap.drop ((addr - simHeapBase).toNat + i * sizeofGpfifoEntry)).take
    sizeofGpfifoEntry
  if bytes.length = sizeofGpfifoEntry then some (.ofBytes fun k => bytes.getD k 0) else none

/-- A launch gives what it gave first, and the nodes' number, and the heap has their entries
there. -/
def LaunchesAs (s : SimGraph) (execHandle : UInt64) (snapshot : ExecSnapshot) : Prop :=
  ∃ addr count, snapshot.launch = (0, some (addr, count)) ∧
    s.simGraphLaunch execHandle = snapshot.launch ∧ count.toNat = snapshot.nodes.length ∧
      ∀ i node, snapshot.nodes[i]? = some node → gpfifoAt s.simHeap addr i = some node.entry

def ExecsKept (x : ExecHistory × SimGraph) : Prop :=
  ∀ execHandle, ∀ snapshot ∈ x.1 execHandle, LaunchesAs x.2 execHandle snapshot

/-- The entries can be counted, the next executable gets a handle that is not in use, and the heap
has addresses left. -/
def ExecFits (x : ExecHistory × SimGraph) : GraphCall → Prop
  | .instantiate graphHandle => ∀ nodes, x.2.graphTable graphHandle = some nodes →
      validateKernargs nodes = true →
        nodes.length < 2 ^ 32 ∧ x.2.execTable x.2.nextExecHandle = none ∧
          x.2.simHeapSize < 2 ^ 64
  | _ => True

/-! ### What an instantiation leaves in the heap -/

namespace SimGraph

variable {s : SimGraph}

/-- The entries are appended to the heap, if there are any. -/
theorem compile_simHeap (s : SimGraph) (graphHandle : UInt64) (nodes : List NodeMetadata) :
    (s.compile graphHandle nodes).2.simHeap =
      if 0 < UInt32.ofNat nodes.length then
        s.simHeap ++ (graphToGpfifo nodes).flatMap GpuGpfifoEntry.toBytes
      else s.simHeap := by
  have hlength : (graphToGpfifo nodes).length = nodes.length := List.length_map ..
  have hbytes : ((graphToGpfifo nodes).flatMap GpuGpfifoEntry.toBytes).length =
      nodes.length * sizeofGpfifoEntry := by
    rw [List.length_flatMap, ← hlength]
    simp only [GpuGpfifoEntry.length_toBytes, List.map_const', List.sum_replicate_nat]
  unfold compile
  simp only [hlength]
  split_ifs
  · simp only [simGpfifoAlloc, copyToHeap, simHeapSize]
    rw [hbytes, List.take_left' rfl, List.drop_eq_nil_of_le, List.append_nil]
    rw [List.length_append, List.length_replicate]
  · rfl

/-- The parts of a compiled executable that a launch reads. -/
theorem compile_parts (s : SimGraph) (graphHandle : UInt64) (nodes : List NodeMetadata) :
    (s.compile graphHandle nodes).1.entryCount = UInt32.ofNat nodes.length ∧
      (s.compile graphHandle nodes).1.sourceGraph = graphHandle ∧
      (0 < UInt32.ofNat nodes.length →
        (s.compile graphHandle nodes).1.gpfifoGpuAddr =
          simHeapBase + UInt64.ofNat s.simHeapSize) := by
  have hlength : (graphToGpfifo nodes).length = nodes.length := List.length_map ..
  unfold compile
  simp only [hlength]
  by_cases hpos : 0 < UInt32.ofNat nodes.length
  · rw [if_pos hpos]
    exact ⟨rfl, rfl, fun _ => rfl⟩
  · rw [if_neg hpos]
    exact ⟨rfl, rfl, fun h => absurd h hpos⟩

/-- The tables after an accepted instantiation. -/
def instantiated (s : SimGraph) (graphHandle : UInt64) (nodes : List NodeMetadata) : SimGraph :=
  { (s.compile graphHandle nodes).2 with
    execTable := Function.update s.execTable s.nextExecHandle
      (some (s.compile graphHandle nodes).1)
    nextExecHandle := s.nextExecHandle + 1 }

theorem instantiated_execTable (s : SimGraph) (graphHandle : UInt64) (nodes : List NodeMetadata) :
    (s.instantiated graphHandle nodes).execTable = Function.update s.execTable s.nextExecHandle
      (some (s.compile graphHandle nodes).1) := rfl

theorem instantiated_simHeap (s : SimGraph) (graphHandle : UInt64) (nodes : List NodeMetadata) :
    (s.instantiated graphHandle nodes).simHeap = (s.compile graphHandle nodes).2.simHeap := rfl

theorem simGraphInstantiate_eq {graphHandle : UInt64} {nodes : List NodeMetadata}
    (hgraph : s.graphTable graphHandle = some nodes) (hvalid : validateKernargs nodes = true) :
    s.simGraphInstantiate graphHandle =
      (0, some s.nextExecHandle, s.instantiated graphHandle nodes) := by
  simp only [simGraphInstantiate, hgraph, if_pos hvalid]
  rfl

/-- The launch that follows an instantiation. -/
theorem launch_instantiated (s : SimGraph) (graphHandle : UInt64) (nodes : List NodeMetadata) :
    (s.instantiated graphHandle nodes).simGraphLaunch s.nextExecHandle =
      (0, some ((s.compile graphHandle nodes).1.gpfifoGpuAddr,
        (s.compile graphHandle nodes).1.entryCount)) := by
  rw [simGraphLaunch, instantiated_execTable, Function.update_self]

end SimGraph

/-- Entries that are in the heap stay where they are. -/
theorem gpfifoAt_append {heap : List UInt8} {addr : UInt64} {i : ℕ} {e : GpuGpfifoEntry}
    (h : gpfifoAt heap addr i = some e) (more : List UInt8) :
    gpfifoAt (heap ++ more) addr i = some e := by
  have hpos : 0 < sizeofGpfifoEntry := by decide
  unfold gpfifoAt at h ⊢
  simp only at h ⊢
  split_ifs at h with hfull
  have hroom := hfull
  rw [List.length_take, List.length_drop] at hroom
  rw [List.drop_append_of_le_length (by omega), List.take_append_of_le_length, if_pos hfull]
  · exact h
  · rw [List.length_drop]
    omega

/-- The entries just copied are found at the address of the block. -/
theorem gpfifoAt_new {heap : List UInt8} {nodes : List NodeMetadata} {i : ℕ}
    {node : NodeMetadata} (hsize : heap.length < 2 ^ 64) (hnode : nodes[i]? = some node) :
    gpfifoAt (heap ++ (graphToGpfifo nodes).flatMap GpuGpfifoEntry.toBytes)
      (simHeapBase + UInt64.ofNat heap.length) i = some node.entry := by
  have hback : simHeapBase + UInt64.ofNat heap.length - simHeapBase =
      UInt64.ofNat heap.length := by
    rw [UInt64.add_comm]
    exact UInt64.add_sub_cancel _ _
  have hentry : (graphToGpfifo nodes)[i]? = some node.entry := by
    rw [graphToGpfifo, List.getElem?_map, hnode]
    rfl
  have hbytes := take_drop_flatMap GpuGpfifoEntry.length_toBytes hentry
  unfold gpfifoAt
  simp only [hback]
  rw [UInt64.toNat_ofNat', Nat.mod_eq_of_lt hsize, List.drop_length_add_append, hbytes,
    if_pos node.entry.length_toBytes, GpuGpfifoEntry.ofBytes_toBytes]

/-! ### The invariant -/

structure ExecInv (x : ExecHistory × SimGraph) : Prop where
  kept : ExecsKept x
  source : ∀ execHandle, ∀ snapshot ∈ x.1 execHandle, ∀ exec,
    x.2.execTable execHandle = some exec → exec.sourceGraph = snapshot.sourceGraph

/-- A launch reads the entry of its handle only, and the heap only grows. -/
theorem LaunchesAs.of_same {s s' : SimGraph} {execHandle : UInt64} {snapshot : ExecSnapshot}
    (h : LaunchesAs s execHandle snapshot)
    (hexec : s'.execTable execHandle = s.execTable execHandle) {more : List UInt8}
    (hheap : s'.simHeap = s.simHeap ++ more) : LaunchesAs s' execHandle snapshot := by
  obtain ⟨addr, count, hfirst, hlaunch, hcount, hnames⟩ := h
  refine ⟨addr, count, hfirst, ?_, hcount, ?_⟩
  · rw [← hlaunch]
    simp only [SimGraph.simGraphLaunch, hexec]
  · intro i node hnode
    rw [hheap]
    exact gpfifoAt_append (hnames i node hnode) more

/-- What launches is in the table. -/
theorem LaunchesAs.exists_exec {s : SimGraph} {execHandle : UInt64} {snapshot : ExecSnapshot}
    (h : LaunchesAs s execHandle snapshot) : ∃ exec, s.execTable execHandle = some exec := by
  obtain ⟨addr, count, hfirst, hlaunch, -⟩ := h
  unfold SimGraph.simGraphLaunch at hlaunch
  cases hexec : s.execTable execHandle with
  | none =>
    rw [hexec, hfirst] at hlaunch
    cases congrArg Prod.snd hlaunch
  | some exec => exact ⟨exec, rfl⟩

namespace ExecInv

variable {x : ExecHistory × SimGraph} {history : ExecHistory} {s : SimGraph}

theorem init : ExecInv SimGraph.execInit where
  kept := fun _ _ h => by cases h
  source := fun _ _ h => by cases h

/-- Some of the executables are no longer expected to launch; the others are still in the table. -/
theorem of_sub {s' : SimGraph} {history' : ExecHistory} (h : ExecInv (history, s))
    (hheap : s'.simHeap = s.simHeap)
    (hsub : ∀ execHandle, ∀ snapshot ∈ history' execHandle,
      snapshot ∈ history execHandle ∧ s'.execTable execHandle = s.execTable execHandle) :
    ExecInv (history', s') where
  kept := by
    intro execHandle snapshot hsnapshot
    obtain ⟨hbefore, hexec⟩ := hsub execHandle snapshot hsnapshot
    have hsame : s'.simHeap = s.simHeap ++ [] := by rw [hheap, List.append_nil]
    exact (h.kept execHandle snapshot hbefore).of_same hexec hsame
  source := by
    intro execHandle snapshot hsnapshot exec hafter
    obtain ⟨hbefore, hexec⟩ := hsub execHandle snapshot hsnapshot
    refine h.source execHandle snapshot hbefore exec ?_
    rw [← hexec]
    exact hafter

/-- A call that changes neither the executables nor the heap. -/
theorem of_same {s' : SimGraph} (h : ExecInv (history, s)) (hexecs : s'.execTable = s.execTable)
    (hheap : s'.simHeap = s.simHeap) : ExecInv (history, s') :=
  h.of_sub hheap fun execHandle _ hsnapshot => ⟨hsnapshot, congrFun hexecs execHandle⟩

theorem addNode (h : ExecInv (history, s)) (graphHandle : UInt64) (node : NodeMetadata) :
    ExecInv (history, (s.addNode graphHandle node).2) := by
  unfold SimGraph.addNode
  cases s.graphTable graphHandle with
  | none => exact h
  | some nodes => exact h.of_same rfl rfl

/-- The executables of other graphs stay. -/
theorem destroy (h : ExecInv (history, s)) (graphHandle : UInt64) :
    ExecInv (SimGraph.execStep .withGraph (history, s) (.destroy graphHandle)) := by
  simp only [SimGraph.execStep, observed, SimGraph.noteExecs, SimGraph.step,
    SimGraph.simGraphDestroy, true_and]
  by_cases hnone : s.graphTable graphHandle = none
  · rw [if_pos hnone, if_neg (show ¬(-eINVAL : Int) = 0 by decide)]
    exact h
  · rw [if_neg hnone, if_pos rfl]
    refine h.of_sub rfl fun execHandle snapshot hsnapshot => ?_
    obtain ⟨hbefore, hother⟩ := List.mem_filter.mp hsnapshot
    refine ⟨hbefore, ?_⟩
    obtain ⟨exec, hexec⟩ := (h.kept execHandle snapshot hbefore).exists_exec
    have hsource := h.source execHandle snapshot hbefore exec hexec
    replace hexec : s.execTable execHandle = some exec := hexec
    show (s.execTable execHandle).filter _ = _
    rw [hexec, Option.filter_some, hsource, if_pos hother]

theorem destroyExec (h : ExecInv (history, s)) (execHandle : UInt64) :
    ExecInv (SimGraph.execStep .withGraph (history, s) (.destroyExec execHandle)) := by
  have hheap : (s.simGraphDestroyExec execHandle).2.simHeap = s.simHeap := by
    unfold SimGraph.simGraphDestroyExec
    split_ifs
    · rfl
    · rfl
  refine h.of_sub hheap fun other snapshot hsnapshot => ?_
  replace hsnapshot : snapshot ∈ Function.update history execHandle [] other := hsnapshot
  by_cases heq : other = execHandle
  · rw [heq, Function.update_self] at hsnapshot
    cases hsnapshot
  · rw [Function.update_of_ne heq] at hsnapshot
    refine ⟨hsnapshot, ?_⟩
    show (s.simGraphDestroyExec execHandle).2.execTable other = s.execTable other
    unfold SimGraph.simGraphDestroyExec
    split_ifs
    · rfl
    · exact Function.update_of_ne heq _ _

/-- The new executable launches as the nodes say, and those before it as they did. -/
theorem instantiate (h : ExecInv (history, s)) {graphHandle : UInt64} {nodes : List NodeMetadata}
    (hlength : nodes.length < 2 ^ 32) (hfree : s.execTable s.nextExecHandle = none)
    (hroom : s.simHeapSize < 2 ^ 64) :
    ExecInv (Function.update history s.nextExecHandle
      (⟨graphHandle, (s.instantiated graphHandle nodes).simGraphLaunch s.nextExecHandle, nodes⟩ ::
        history s.nextExecHandle), s.instantiated graphHandle nodes) := by
  obtain ⟨hcount, hsource, haddr⟩ := s.compile_parts graphHandle nodes
  have hheap := s.compile_simHeap graphHandle nodes
  have hnat : (UInt32.ofNat nodes.length).toNat = nodes.length := by
    rw [UInt32.toNat_ofNat', Nat.mod_eq_of_lt hlength]
  -- nothing has been handed out under the handle that comes next
  have hnew : history s.nextExecHandle = [] := by
    refine List.eq_nil_iff_forall_not_mem.mpr fun snapshot hsnapshot => ?_
    obtain ⟨exec, hexec⟩ := (h.kept _ snapshot hsnapshot).exists_exec
    cases hfree.symm.trans hexec
  have hgrown : ∃ more, (s.instantiated graphHandle nodes).simHeap = s.simHeap ++ more := by
    rw [SimGraph.instantiated_simHeap, hheap]
    split_ifs
    · exact ⟨_, rfl⟩
    · exact ⟨[], (List.append_nil _).symm⟩
  obtain ⟨more, hmore⟩ := hgrown
  rw [hnew]
  refine ⟨fun execHandle snapshot hsnapshot => ?_,
    fun execHandle snapshot hsnapshot exec hexec => ?_⟩
  · by_cases heq : execHandle = s.nextExecHandle
    · subst heq
      simp only [Function.update_self, List.mem_singleton] at hsnapshot
      rw [hsnapshot]
      refine ⟨(s.compile graphHandle nodes).1.gpfifoGpuAddr,
        (s.compile graphHandle nodes).1.entryCount, s.launch_instantiated graphHandle nodes, rfl,
        ?_, fun i node hnode => ?_⟩
      · rw [hcount]
        exact hnat
      · have hpos : 0 < UInt32.ofNat nodes.length := by
          rw [UInt32.lt_iff_toNat_lt, hnat]
          have hlt := (List.getElem?_eq_some_iff.mp hnode).1
          exact Nat.lt_of_le_of_lt (Nat.zero_le i) hlt
        rw [if_pos hpos] at hheap
        show gpfifoAt (s.compile graphHandle nodes).2.simHeap _ i = _
        rw [hheap, haddr hpos]
        exact gpfifoAt_new hroom hnode
    · simp only [Function.update_of_ne heq] at hsnapshot
      have hexec : (s.instantiated graphHandle nodes).execTable execHandle =
          s.execTable execHandle := by
        rw [SimGraph.instantiated_execTable, Function.update_of_ne heq]
      exact (h.kept execHandle snapshot hsnapshot).of_same hexec hmore
  · simp only [SimGraph.instantiated_execTable] at hexec
    by_cases heq : execHandle = s.nextExecHandle
    · subst heq
      simp only [Function.update_self, List.mem_singleton] at hsnapshot
      rw [Function.update_self, Option.some.injEq] at hexec
      rw [hsnapshot, ← hexec, hsource]
    · simp only [Function.update_of_ne heq] at hsnapshot hexec
      exact h.source execHandle snapshot hsnapshot exec hexec

theorem step (h : ExecInv x) (call : GraphCall) (hG : ExecFits x call) :
    ExecInv (SimGraph.execStep .withGraph x call) := by
  obtain ⟨history, s⟩ := x
  cases call with
  | create => exact h.of_same rfl rfl
  | destroy graphHandle => exact h.destroy graphHandle
  | addKernelNode graphHandle node => exact h.addNode graphHandle (.kernel node)
  | addMemcpyNode graphHandle node => exact h.addNode graphHandle (.memcpy node)
  | destroyExec execHandle => exact h.destroyExec execHandle
  | instantiate graphHandle =>
    simp only [SimGraph.execStep, observed, SimGraph.noteExecs, SimGraph.step,
      ExecHistory.noteInstantiate]
    cases hgraph : s.graphTable graphHandle with
    | none =>
      simp only [SimGraph.simGraphInstantiate, hgraph]
      exact h
    | some nodes =>
      by_cases hvalid : validateKernargs nodes = true
      · obtain ⟨hlength, hfree, hroom⟩ := hG nodes hgraph hvalid
        simp only [SimGraph.simGraphInstantiate_eq hgraph hvalid]
        exact h.instantiate hlength hfree hroom
      · simp only [SimGraph.simGraphInstantiate, hgraph, if_neg hvalid]
        exact h

end ExecInv

/-- **Executables keep launching as they were made until they or their graph are destroyed.** -/
theorem execs_kept (calls : List GraphCall)
    (hfits : Guarded (SimGraph.execStep .withGraph) ExecFits SimGraph.execInit calls) :
    Always (SimGraph.execStep .withGraph) ExecsKept SimGraph.execInit calls :=
  (always_of_inductive (I := ExecInv) (fun _ call h hG => h.step call hG) ExecInv.init
    hfits).mono _ fun _ h => h.kept

/-- A graph with one memcpy node, and its executable. -/
def oneExec : List GraphCall :=
  [.create, .addMemcpyNode 1 ⟨0x100000000, 0x100001000, 64, 0⟩, .instantiate 1]

/-- The executable is kept when its graph grows and is instantiated again. -/
theorem execs_kept_grown : Always (SimGraph.execStep .withGraph) ExecsKept SimGraph.execInit
    (oneExec ++ [.addMemcpyNode 1 ⟨0x100001000, 0x100000000, 64, 1⟩, .instantiate 1]) := by
  refine execs_kept _ ⟨trivial, trivial, ?_, trivial, ?_, trivial⟩
  · intro nodes hnodes _
    obtain rfl := Option.some.inj hnodes
    exact ⟨by decide, rfl, by decide⟩
  · intro nodes hnodes _
    obtain rfl := Option.some.inj hnodes
    exact ⟨by decide, rfl, by decide +kernel⟩

/-- A graph is destroyed and its executable with it. -/
theorem execs_kept_fails : ¬Always (SimGraph.execStep .ownHandle) ExecsKept SimGraph.execInit
    (oneExec ++ [.destroy 1]) := by
  intro h
  obtain ⟨exec, hexec⟩ :=
    ((Always.last _ h) 1 ⟨1, (0, some (simHeapBase, 1)),
      [.memcpy ⟨0x100000000, 0x100001000, 64, 0⟩]⟩ List.mem_cons_self).exists_exec
  cases hexec

end UsrLinuxEmu.GpuDriver
