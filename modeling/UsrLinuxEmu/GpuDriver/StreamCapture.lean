import UsrLinuxEmu.GpuDriver.Graph
import UsrLinuxEmu.Transition.Simulation

/-!
# Stream capture (`sim/stream_capture.cpp`)

A capture of a stream begins and ends, and its end hands out a graph handle from a counter of this
module's own; the graph table belongs to the graph module and is filled by `sim_graph_create` alone.

* `StreamCapture` — the state of each stream and the counter;
* `CaptureSystem` — both modules, behind the device's requests;
* `CapturedOwn` — a captured handle is known to the graph module and is no other live graph's;
* `captured_own_iff` — that holds along a run exactly when no capture ends successfully.
-/

namespace UsrLinuxEmu.GpuDriver

open UsrLinuxEmu.Transition

/-! ### The streams -/

inductive SimStreamCaptureStatus where
  | none
  | active
  | invalid
  deriving DecidableEq, Repr

/-- `SIM_CAPTURE_MODE_GLOBAL`; the other modes are reserved. -/
def simCaptureModeGlobal : UInt32 := 0

/-- A stream without an entry is read as one that captures nothing. -/
structure StreamCapture where
  table : UInt32 → SimStreamCaptureStatus
  nextGraphHandle : UInt64

namespace StreamCapture

def init : StreamCapture := ⟨fun _ => .none, 1⟩

def setState (s : StreamCapture) (streamId : UInt32) (state : SimStreamCaptureStatus) :
    StreamCapture :=
  { s with table := Function.update s.table streamId state }

/-- A second begin spoils the capture. -/
def simStreamCaptureBegin (s : StreamCapture) (streamId mode : UInt32) : Int × StreamCapture :=
  if mode ≠ simCaptureModeGlobal then (-eINVAL, s)
  else
    match s.table streamId with
    | .none => (0, s.setState streamId .active)
    | .active => (-eINVAL, s.setState streamId .invalid)
    | .invalid => (-eINVAL, s)

def simStreamCaptureEnd (s : StreamCapture) (streamId : UInt32) :
    Except Int UInt64 × StreamCapture :=
  if s.table streamId ≠ .active then (.error (-eINVAL), s)
  else
    (.ok s.nextGraphHandle,
      { s.setState streamId .none with nextGraphHandle := s.nextGraphHandle + 1 })

def simStreamCaptureStatus (s : StreamCapture) (streamId : UInt32) : SimStreamCaptureStatus :=
  s.table streamId

end StreamCapture

/-! ### Both modules -/

structure CaptureSystem where
  capture : StreamCapture
  graphs : SimGraph

inductive CaptureRequest where
  | captureBegin (streamId mode : UInt32)
  | captureEnd (streamId : UInt32)
  | graph (call : GraphCall)
  deriving DecidableEq, Repr

/-- The handles of the graphs that are live, by the call that handed them out. -/
structure LiveGraphs where
  captured : List UInt64
  created : List UInt64

namespace LiveGraphs

/-- Neither list has the handle any more. -/
def drop (live : LiveGraphs) (graphHandle : UInt64) : LiveGraphs :=
  ⟨live.captured.filter (· != graphHandle), live.created.filter (· != graphHandle)⟩

end LiveGraphs

namespace CaptureSystem

def init : CaptureSystem := ⟨.init, .init⟩

def step (s : CaptureSystem) : CaptureRequest → CaptureSystem
  | .captureBegin streamId mode =>
    { s with capture := (s.capture.simStreamCaptureBegin streamId mode).2 }
  | .captureEnd streamId => { s with capture := (s.capture.simStreamCaptureEnd streamId).2 }
  | .graph call => { s with graphs := s.graphs.step call }

def noteLive (live : LiveGraphs) (s : CaptureSystem) : CaptureRequest → LiveGraphs
  | .captureBegin _ _ => live
  | .captureEnd streamId =>
    match (s.capture.simStreamCaptureEnd streamId).1 with
    | .ok graphHandle => { live with captured := graphHandle :: live.captured }
    | .error _ => live
  | .graph .create => { live with created := s.graphs.simGraphCreate.1 :: live.created }
  | .graph (.destroy graphHandle) =>
    if (s.graphs.simGraphDestroy graphHandle).1 = 0 then live.drop graphHandle else live
  | .graph _ => live

/-- Both modules, with the live graphs. -/
abbrev liveStep : LiveGraphs × CaptureSystem → CaptureRequest → LiveGraphs × CaptureSystem :=
  observed step noteLive

abbrev liveInit : LiveGraphs × CaptureSystem := (⟨[], []⟩, init)

end CaptureSystem

/-! ### The property -/

/-- The graph module takes the handle for one of its graphs. -/
structure Accepts (g : SimGraph) (graphHandle : UInt64) : Prop where
  addNode : ∀ node, (g.addNode graphHandle node).1 = 0
  destroy : (g.simGraphDestroy graphHandle).1 = 0
  instantiate : ∀ nodes, g.graphTable graphHandle = some nodes → validateKernargs nodes = true →
    (g.simGraphInstantiate graphHandle).1 = 0

/-- Every captured graph that is live is known, and shares its handle with no other live graph. -/
structure CapturedOwn (x : LiveGraphs × CaptureSystem) : Prop where
  known : ∀ graphHandle ∈ x.1.captured, Accepts x.2.graphs graphHandle
  distinct : x.1.captured.Nodup
  apart : ∀ graphHandle ∈ x.1.captured, graphHandle ∉ x.1.created

/-- The capture of the stream cannot end now. -/
def CaptureEndRefused (x : LiveGraphs × CaptureSystem) : CaptureRequest → Prop
  | .captureEnd streamId => x.2.capture.simStreamCaptureStatus streamId ≠ .active
  | _ => True

/-! ### Which graphs are known -/

namespace SimGraph

variable {g : SimGraph} {graphHandle : UInt64}

/-- The module accepts the handles of its table and no others. -/
theorem accepts_iff : Accepts g graphHandle ↔ g.graphTable graphHandle ≠ none := by
  constructor
  · intro h hnone
    have hdestroy := h.destroy
    rw [simGraphDestroy, if_pos hnone] at hdestroy
    exact absurd hdestroy (show (-eINVAL : Int) ≠ 0 by decide)
  · intro h
    obtain ⟨nodes, hnodes⟩ := Option.ne_none_iff_exists'.mp h
    exact {
      addNode := fun node => by rw [SimGraph.addNode, hnodes]
      destroy := by rw [simGraphDestroy, if_neg h]
      instantiate := by
        intro nodes' hnodes' hvalid
        rw [simGraphInstantiate, hnodes']
        simp only [if_pos hvalid] }

/-- What a call does to the graphs that are known: a new one, one less, or none. -/
theorem known_step (g : SimGraph) (call : GraphCall) (h : UInt64)
    (hknown : (g.step call).graphTable h ≠ none) :
    g.graphTable h ≠ none ∨ (call = .create ∧ h = g.nextGraphHandle) := by
  have hadd : ∀ graphHandle node, (g.addNode graphHandle node).2.graphTable h ≠ none →
      g.graphTable h ≠ none := by
    intro graphHandle node hafter
    unfold SimGraph.addNode at hafter
    cases hg : g.graphTable graphHandle with
    | none =>
      rw [hg] at hafter
      exact hafter
    | some nodes =>
      by_cases heq : h = graphHandle
      · rw [heq, hg]
        exact Option.some_ne_none nodes
      · rw [hg] at hafter
        simpa only [Function.update_of_ne heq] using hafter
  cases call with
  | create =>
    by_cases heq : h = g.nextGraphHandle
    · exact .inr ⟨rfl, heq⟩
    · left
      simpa only [step, simGraphCreate, Function.update_of_ne heq] using hknown
  | destroy graphHandle =>
    left
    simp only [step, simGraphDestroy] at hknown
    split_ifs at hknown with hnone
    · exact hknown
    · by_cases heq : h = graphHandle
      · rw [heq]
        exact hnone
      · simpa only [Function.update_of_ne heq] using hknown
  | addKernelNode graphHandle node => exact .inl (hadd graphHandle _ hknown)
  | addMemcpyNode graphHandle node => exact .inl (hadd graphHandle _ hknown)
  | instantiate graphHandle =>
    left
    have htable : (g.step (.instantiate graphHandle)).graphTable = g.graphTable := by
      simp only [step, simGraphInstantiate]
      split
      · rfl
      · split_ifs
        · unfold compile
          simp only
          split_ifs <;> rfl
        · rfl
    rw [htable] at hknown
    exact hknown
  | destroyExec execHandle =>
    left
    simp only [step, simGraphDestroyExec] at hknown
    split_ifs at hknown <;> exact hknown

/-- A graph that has been destroyed is not known. -/
theorem destroyed (g : SimGraph) (graphHandle : UInt64) :
    (g.step (.destroy graphHandle)).graphTable graphHandle = none := by
  simp only [step, simGraphDestroy]
  split_ifs with hnone
  · exact hnone
  · exact Function.update_self _ _ _

end SimGraph

/-! ### The invariant -/

/-- No captured graph is live, and the created ones are those of the table. -/
structure NoneCaptured (x : LiveGraphs × CaptureSystem) : Prop where
  captured : x.1.captured = []
  created : ∀ graphHandle, x.2.graphs.graphTable graphHandle ≠ none → graphHandle ∈ x.1.created

namespace NoneCaptured

variable {x : LiveGraphs × CaptureSystem}

theorem init : NoneCaptured CaptureSystem.liveInit where
  captured := rfl
  created := fun _ h => absurd rfl h

theorem own (h : NoneCaptured x) : CapturedOwn x where
  known := by simp only [h.captured, List.not_mem_nil, false_implies, implies_true]
  distinct := h.captured ▸ List.nodup_nil
  apart := by simp only [h.captured, List.not_mem_nil, false_implies, implies_true]

theorem step (h : NoneCaptured x) (r : CaptureRequest) (hG : CaptureEndRefused x r) :
    NoneCaptured (CaptureSystem.liveStep x r) := by
  obtain ⟨live, s⟩ := x
  cases r with
  | captureBegin streamId mode => exact ⟨h.captured, h.created⟩
  | captureEnd streamId =>
    have hend : s.capture.simStreamCaptureEnd streamId = (.error (-eINVAL), s.capture) :=
      if_pos hG
    simp only [CaptureSystem.liveStep, observed, CaptureSystem.noteLive, CaptureSystem.step, hend]
    exact h
  | graph call =>
    have hknown := s.graphs.known_step call
    have hcreated (hne : call ≠ .create) (graphHandle : UInt64)
        (hafter : (s.graphs.step call).graphTable graphHandle ≠ none) :
        graphHandle ∈ live.created := by
      rcases hknown graphHandle hafter with hbefore | ⟨hcreate, -⟩
      · exact h.created graphHandle hbefore
      · exact absurd hcreate hne
    cases call with
    | create =>
      refine ⟨h.captured, fun graphHandle hafter => ?_⟩
      show graphHandle ∈ s.graphs.nextGraphHandle :: live.created
      rcases hknown graphHandle hafter with hbefore | ⟨-, rfl⟩
      · exact List.mem_cons_of_mem _ (h.created graphHandle hbefore)
      · exact List.mem_cons_self
    | destroy gone =>
      replace hcreated := hcreated GraphCall.noConfusion
      simp only [CaptureSystem.liveStep, observed, CaptureSystem.noteLive]
      split_ifs
      · refine ⟨?_, fun graphHandle hafter => ?_⟩
        · show live.captured.filter _ = []
          rw [show live.captured = [] from h.captured, List.filter_nil]
        · have hne : graphHandle ≠ gone := by
            rintro rfl
            exact hafter (s.graphs.destroyed graphHandle)
          exact List.mem_filter.mpr ⟨hcreated graphHandle hafter, bne_iff_ne.mpr hne⟩
      · exact ⟨h.captured, hcreated⟩
    | addKernelNode graphHandle node => exact ⟨h.captured, hcreated GraphCall.noConfusion⟩
    | addMemcpyNode graphHandle node => exact ⟨h.captured, hcreated GraphCall.noConfusion⟩
    | instantiate graphHandle => exact ⟨h.captured, hcreated GraphCall.noConfusion⟩
    | destroyExec execHandle => exact ⟨h.captured, hcreated GraphCall.noConfusion⟩

/-- A captured handle is unknown to the graph module, or it is that of a created graph. -/
theorem endRefused (h : NoneCaptured x) (r : CaptureRequest)
    (hafter : CapturedOwn (CaptureSystem.liveStep x r)) : CaptureEndRefused x r := by
  obtain ⟨live, s⟩ := x
  cases r with
  | captureEnd streamId =>
    intro hactive
    replace hactive : s.capture.table streamId = .active := hactive
    have hend : (s.capture.simStreamCaptureEnd streamId).1 = .ok s.capture.nextGraphHandle := by
      rw [StreamCapture.simStreamCaptureEnd, if_neg (not_not.mpr hactive)]
    have hlive : (CaptureSystem.liveStep (live, s) (.captureEnd streamId)).1 =
        ⟨s.capture.nextGraphHandle :: live.captured, live.created⟩ := by
      show CaptureSystem.noteLive live s (.captureEnd streamId) = _
      simp only [CaptureSystem.noteLive, hend]
    have hmem : s.capture.nextGraphHandle ∈
        (CaptureSystem.liveStep (live, s) (.captureEnd streamId)).1.captured := by
      rw [hlive]
      exact List.mem_cons_self
    have hapart := hafter.apart _ hmem
    rw [hlive] at hapart
    exact hapart (h.created _ (SimGraph.accepts_iff.mp (hafter.known _ hmem)))
  | captureBegin streamId mode => trivial
  | graph call => trivial

end NoneCaptured

/-- **Captured graphs are graphs of their own exactly along the runs that capture none.** -/
theorem captured_own_iff (requests : List CaptureRequest) :
    Always CaptureSystem.liveStep CapturedOwn CaptureSystem.liveInit requests ↔
      Guarded CaptureSystem.liveStep CaptureEndRefused CaptureSystem.liveInit requests :=
  always_iff_guarded (I := NoneCaptured) (fun _ r h hG => h.step r hG) (fun _ h => h.own)
    (fun _ r h hafter => h.endRefused r hafter) requests NoneCaptured.init

/-- The first captured handle is unknown, or after a `sim_graph_create` that graph's. -/
theorem captured_own_fails :
    ¬CapturedOwn (run CaptureSystem.liveStep CaptureSystem.liveInit
        [.captureBegin 7 0, .captureEnd 7]) ∧
      ¬CapturedOwn (run CaptureSystem.liveStep CaptureSystem.liveInit
        [.graph .create, .captureBegin 7 0, .captureEnd 7]) := by
  constructor
  · intro h
    exact SimGraph.accepts_iff.mp (h.known 1 List.mem_cons_self) rfl
  · intro h
    exact h.apart 1 List.mem_cons_self List.mem_cons_self

end UsrLinuxEmu.GpuDriver
