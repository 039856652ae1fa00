import Mathlib.Data.List.AList
import UsrLinuxEmu.Kernel.LoadOrder
import UsrLinuxEmu.Transition.Run
import UsrLinuxEmu.Transition.Simulation

/-!
# Loading and unloading plugins (`src/kernel/module_loader.cpp`)

`load_plugin` looks up the dependencies and raises their counts; a count that a decrease brings to zero
or below runs the plugin's `exit` and removes it.  The first load leaves a plugin with count zero, and
nothing gives back the counts that a dependent has raised.

* `Module` / `PluginFile` — what `dlopen` and `dlsym` make of a file, each time it is opened;
* `ModuleLoader` — the loaded plugins, and the log of the `init` and `exit` calls;
* `loadPlugin`, `loadPlugins`, `unloadPlugin`, `unloadPlugins` — the calls of the source;
* `Step` / `Call.steps` — a call as the single loads and decreases it makes;
* `counted_run` — the count of a loaded plugin is the references taken on it less those released;
* `depends_running_iff` — the runs along which every loaded plugin finds its dependencies.
-/

namespace UsrLinuxEmu.Kernel

open UsrLinuxEmu.Graph UsrLinuxEmu.Transition

/-! ### Plugins -/

structure Module where
  name : String
  loadPriority : UInt32 := 0
  depends : List String := []
  /-- What the call of `init` returns; a null pointer is not called. -/
  init : Option Int32 := none
  deriving DecidableEq

inductive PluginFile where
  | notOpened
  | noSymbol
  | plugin (mod : Module)

structure PluginInfo where
  path : String
  mod : Module
  refCount : Int32

/-- A plugin's `init`, if it has one, has succeeded; its `exit`, if it has one, has run. -/
inductive Event where
  | init (name : String)
  | exit (name : String)

/-- The plugin's last event is its `init`. -/
def running (log : List Event) (name : String) : Bool :=
  log.foldl (fun on event =>
    match event with
    | .init n => on || n == name
    | .exit n => on && n != name) false

/-- `loaded_plugins_`, with what has run so far. -/
structure ModuleLoader where
  loadedPlugins : AList fun _ : String => PluginInfo
  log : List Event

namespace ModuleLoader

def create : ModuleLoader := ⟨∅, []⟩

def find (s : ModuleLoader) (name : String) : Option PluginInfo := s.loadedPlugins.lookup name

/-- Writes the entry of the plugin. -/
def store (s : ModuleLoader) (name : String) (info : PluginInfo) : ModuleLoader :=
  { s with loadedPlugins := s.loadedPlugins.insert name info }

def increaseRef (s : ModuleLoader) (name : String) : ModuleLoader :=
  match s.find name with
  | some info => s.store name { info with refCount := info.refCount + 1 }
  | none => s

def decreaseRef (s : ModuleLoader) (name : String) : ModuleLoader :=
  match s.find name with
  | some info =>
    if info.refCount - 1 ≤ 0 then
      { loadedPlugins := s.loadedPlugins.erase name, log := s.log ++ [.exit name] }
    else s.store name { info with refCount := info.refCount - 1 }
  | none => s

/-- Counts that were raised before a missing dependency stay raised. -/
def resolveDependencies (s : ModuleLoader) : List String → ℤ × ModuleLoader
  | [] => (0, s)
  | dep :: deps =>
    match s.find dep with
    | none => (-1, s)
    | some _ => (s.increaseRef dep).resolveDependencies deps

def loadPlugin (s : ModuleLoader) (path : String) (file : PluginFile) : ℤ × ModuleLoader :=
  match file with
  | .notOpened => (-1, s)
  | .noSymbol => (-1, s)
  | .plugin mod =>
    match s.find mod.name with
    | some _ => (0, s.increaseRef mod.name)
    | none =>
      match s.resolveDependencies mod.depends with
      | (rc, s) =>
        if rc ≠ 0 then (-1, s)
        else if mod.init.getD 0 ≠ 0 then (-1, s)
        else
          (0, { s.store mod.name ⟨path, mod, 0⟩ with log := s.log ++ [.init mod.name] })

def unloadPlugin (s : ModuleLoader) (name : String) : ℤ × ModuleLoader :=
  match s.find name with
  | none => (-1, s)
  | some _ => (0, s.decreaseRef name)

end ModuleLoader

/-- A directory entry, with what opening it for a peek gives. -/
structure DirEntry where
  path : String
  filename : String
  file : PluginFile

def isPluginFile (e : DirEntry) : Bool :=
  e.filename.endsWith ".so" && e.filename.startsWith "plugin_"

def scanCandidates (entries : List DirEntry) : List Candidate :=
  entries.filterMap fun e =>
    match e.file with
    | .plugin mod =>
      if isPluginFile e then
        some { path := e.path, name := mod.name, loadPriority := mod.loadPriority,
               depends := mod.depends }
      else none
    | _ => none

/-- An order in which an unordered map may list its keys. -/
def Enumeration : Type := {f : List String → List String // ∀ keys, (f keys).Perm keys}

namespace ModuleLoader

variable (heap : ∀ cs, StdHeap (loadsAfter cs))

/-- The plugins of a directory, each opened again for the load; no directory is an error. -/
def loadPlugins (s : ModuleLoader) (dir : Option (List DirEntry)) (files : ℕ → PluginFile) :
    ℤ × ModuleLoader :=
  match dir with
  | none => (-1, s)
  | some entries =>
    let candidates := scanCandidates entries
    match topoSort candidates (heap candidates) with
    | some (.ok loadOrder) =>
      (0, loadOrder.foldl
        (fun s i => (s.loadPlugin (candidateAt candidates i).path (files i)).2) s)
    | some (.error rc) => (rc, s)
    | none => (-1, s) -- never taken, by `topoSort_ne_none`

def unloadPlugins (s : ModuleLoader) (listed : Enumeration) : ModuleLoader :=
  (listed.1 s.loadedPlugins.keys).foldl decreaseRef s

end ModuleLoader

/-! ### Calls and their steps -/

inductive Call where
  | loadPlugin (path : String) (file : PluginFile)
  | loadPlugins (dir : Option (List DirEntry)) (files : ℕ → PluginFile)
  | unloadPlugin (name : String)
  | unloadPlugins (listed : Enumeration)

inductive Step where
  | load (path : String) (file : PluginFile)
  | decrease (name : String)

def Step.perform (s : ModuleLoader) : Step → ModuleLoader
  | .load path file => (s.loadPlugin path file).2
  | .decrease name => s.decreaseRef name

section Calls

variable (heap : ∀ cs, StdHeap (loadsAfter cs))

def Call.perform (s : ModuleLoader) : Call → ModuleLoader
  | .loadPlugin path file => (s.loadPlugin path file).2
  | .loadPlugins dir files => (s.loadPlugins heap dir files).2
  | .unloadPlugin name => (s.unloadPlugin name).2
  | .unloadPlugins listed => s.unloadPlugins listed

/-- The loads and decreases of a call that finds the loader in the state. -/
def Call.steps (s : ModuleLoader) : Call → List Step
  | .loadPlugin path file => [.load path file]
  | .loadPlugins none _ => []
  | .loadPlugins (some entries) files =>
    match topoSort (scanCandidates entries) (heap (scanCandidates entries)) with
    | some (.ok loadOrder) =>
      loadOrder.map fun i => .load (candidateAt (scanCandidates entries) i).path (files i)
    | _ => []
  | .unloadPlugin name => if (s.find name).isSome then [.decrease name] else []
  | .unloadPlugins listed => (listed.1 s.loadedPlugins.keys).map .decrease

/-- The steps of a sequence of calls. -/
def stepsOf (s : ModuleLoader) : List Call → List Step
  | [] => []
  | call :: calls => call.steps heap s ++ stepsOf (call.perform heap s) calls

theorem run_steps (s : ModuleLoader) (call : Call) :
    run Step.perform s (call.steps heap s) = call.perform heap s := by
  cases call with
  | loadPlugin path file => rfl
  | loadPlugins dir files =>
    cases dir with
    | none => rfl
    | some entries =>
      simp only [Call.steps, Call.perform, ModuleLoader.loadPlugins]
      cases hsort : topoSort (scanCandidates entries) (heap (scanCandidates entries)) with
      | none => rfl
      | some result =>
        cases result with
        | error rc => rfl
        | ok loadOrder => exact List.foldl_map
  | unloadPlugin name =>
    simp only [Call.steps, Call.perform, ModuleLoader.unloadPlugin]
    cases s.find name with
    | none => rfl
    | some info => rfl
  | unloadPlugins listed => exact List.foldl_map

/-- The steps lead where the calls lead. -/
theorem run_stepsOf (s : ModuleLoader) (calls : List Call) :
    run Step.perform s (stepsOf heap s calls) = run (Call.perform heap) s calls := by
  induction calls generalizing s with
  | nil => rfl
  | cons call calls ih => rw [stepsOf, run_append, run_steps, ih, run_cons]

end Calls

/-! ### What a step does -/

namespace ModuleLoader

/-- The module of a loaded plugin. -/
def modOf (s : ModuleLoader) (name : String) : Option Module := (s.find name).map PluginInfo.mod

theorem find_store (s : ModuleLoader) (name : String) (info : PluginInfo) :
    (s.store name info).find = Function.update s.find name (some info) := by
  funext m
  by_cases hm : m = name
  · rw [hm, Function.update_self]
    exact AList.lookup_insert s.loadedPlugins
  · rw [Function.update_of_ne hm]
    exact AList.lookup_insert_ne hm

theorem modOf_store (s : ModuleLoader) (name : String) (info : PluginInfo) :
    (s.store name info).modOf = Function.update s.modOf name (some info.mod) := by
  funext m
  rw [modOf, find_store]
  by_cases hm : m = name
  · rw [hm, Function.update_self, Function.update_self]
    rfl
  · rw [Function.update_of_ne hm, Function.update_of_ne hm]
    rfl

/-- A plugin whose entry is written again with the same module. -/
theorem modOf_store_same {s : ModuleLoader} {name : String} {info : PluginInfo}
    (h : s.find name = some info) (r : Int32) :
    (s.store name { info with refCount := r }).modOf = s.modOf := by
  rw [modOf_store]
  refine Function.update_eq_self_iff.mpr ?_
  rw [modOf, h]
  rfl

theorem modOf_erase (s : ModuleLoader) (name : String) (log : List Event) :
    modOf ⟨s.loadedPlugins.erase name, log⟩ = Function.update s.modOf name none := by
  funext m
  rw [modOf, find]
  by_cases hm : m = name
  · rw [hm, Function.update_self, AList.lookup_erase]
    rfl
  · rw [Function.update_of_ne hm, AList.lookup_erase_ne hm]
    rfl

theorem increaseRef_same (s : ModuleLoader) (name : String) :
    (s.increaseRef name).modOf = s.modOf ∧ (s.increaseRef name).log = s.log := by
  rw [increaseRef]
  cases hfind : s.find name with
  | none => exact ⟨rfl, rfl⟩
  | some info => exact ⟨modOf_store_same hfind _, rfl⟩

/-- The look-up changes counts only, and succeeds when every dependency is loaded. -/
theorem resolveDependencies_spec (deps : List String) (s : ModuleLoader) :
    (s.resolveDependencies deps).2.modOf = s.modOf ∧ (s.resolveDependencies deps).2.log = s.log ∧
      ((s.resolveDependencies deps).1 = 0 → ∀ d ∈ deps, (s.modOf d).isSome) := by
  induction deps generalizing s with
  | nil => exact ⟨rfl, rfl, fun _ d hd => absurd hd List.not_mem_nil⟩
  | cons dep deps ih =>
    rw [resolveDependencies]
    cases hfind : s.find dep with
    | none => exact ⟨rfl, rfl, fun h => absurd h (show ¬(-1 : ℤ) = 0 by decide)⟩
    | some info =>
      obtain ⟨hmod, hlog⟩ := s.increaseRef_same dep
      obtain ⟨hmods, hlogs, hall⟩ := ih (s.increaseRef dep)
      refine ⟨hmods.trans hmod, hlogs.trans hlog, fun hrc d hd => ?_⟩
      rcases List.mem_cons.mp hd with rfl | hd
      · rw [modOf, hfind]
        rfl
      · rw [← hmod]
        exact hall hrc d hd

/-- The decrease of this plugin runs its `exit`. -/
def Drops (s : ModuleLoader) (name : String) : Prop :=
  ∃ info, s.find name = some info ∧ info.refCount - 1 ≤ 0

/-- The loaded plugins and the log stay as they are. -/
def Same (s t : ModuleLoader) : Prop := t.modOf = s.modOf ∧ t.log = s.log

/-- The plugin comes to the loaded ones; all its dependencies are among them. -/
def Enters (mod : Module) (s t : ModuleLoader) : Prop :=
  (∀ d ∈ mod.depends, (s.modOf d).isSome) ∧
    t.modOf = Function.update s.modOf mod.name (some mod) ∧ t.log = s.log ++ [.init mod.name]

def Leaves (name : String) (s t : ModuleLoader) : Prop :=
  t.modOf = Function.update s.modOf name none ∧ t.log = s.log ++ [.exit name]

theorem loadPlugin_cases (s : ModuleLoader) (path : String) (file : PluginFile) :
    Same s (s.loadPlugin path file).2 ∨ ∃ mod, Enters mod s (s.loadPlugin path file).2 := by
  cases file with
  | notOpened => exact .inl ⟨rfl, rfl⟩
  | noSymbol => exact .inl ⟨rfl, rfl⟩
  | plugin mod =>
    rw [loadPlugin]
    cases hfind : s.find mod.name with
    | some info => exact .inl (s.increaseRef_same mod.name)
    | none =>
      obtain ⟨hmod, hlog, hall⟩ := resolveDependencies_spec mod.depends s
      cases hres : s.resolveDependencies mod.depends with
      | mk rc s₁ =>
        rw [hres] at hmod hlog hall
        by_cases hrc : rc = 0
        · by_cases hinit : mod.init.getD 0 = 0
          · right
            refine ⟨mod, hall hrc, ?_, ?_⟩
            · simp only [hrc, hinit, ne_eq, not_true_eq_false, if_false]
              rw [← hmod]
              exact s₁.modOf_store mod.name ⟨path, mod, 0⟩
            · simp only [hrc, hinit, ne_eq, not_true_eq_false, if_false]
              rw [← hlog]
          · left
            simp only [hrc, hinit, ne_eq, not_true_eq_false, not_false_eq_true, if_false, if_true]
            exact ⟨hmod, hlog⟩
        · left
          simp only [hrc, ne_eq, not_false_eq_true, if_true]
          exact ⟨hmod, hlog⟩

theorem decreaseRef_cases (s : ModuleLoader) (name : String) :
    (¬s.Drops name ∧ Same s (s.decreaseRef name)) ∨
      (s.Drops name ∧ Leaves name s (s.decreaseRef name)) := by
  rw [decreaseRef]
  cases hfind : s.find name with
  | none =>
    left
    refine ⟨fun ⟨info, hinfo, _⟩ => ?_, rfl, rfl⟩
    rw [hfind] at hinfo
    cases hinfo
  | some info =>
    by_cases hzero : info.refCount - 1 ≤ 0
    · right
      simp only [if_pos hzero]
      exact ⟨⟨info, hfind, hzero⟩, s.modOf_erase name _, rfl⟩
    · left
      simp only [if_neg hzero]
      refine ⟨fun ⟨info', hinfo', hzero'⟩ => ?_, modOf_store_same hfind _, rfl⟩
      obtain rfl := Option.some.inj (hfind.symm.trans hinfo')
      exact hzero hzero'

/-- The entry after a decrease, if it stays. -/
def lowered (info : PluginInfo) : Option PluginInfo :=
  if info.refCount - 1 ≤ 0 then none else some { info with refCount := info.refCount - 1 }

theorem find_decreaseRef (s : ModuleLoader) (name : String) :
    (s.decreaseRef name).find = Function.update s.find name ((s.find name).bind lowered) := by
  rw [decreaseRef]
  cases hfind : s.find name with
  | none =>
    show s.find = Function.update s.find name none
    rw [← hfind, Function.update_eq_self]
  | some info =>
    show ModuleLoader.find (if _ then _ else _) = Function.update s.find name (lowered info)
    rw [lowered]
    split_ifs
    · funext m
      by_cases hm : m = name
      · rw [hm, Function.update_self]
        exact AList.lookup_erase ..
      · rw [Function.update_of_ne hm]
        exact AList.lookup_erase_ne hm
    · exact s.find_store name _

/-- A count after some references have been taken. -/
theorem find_increaseRef (s : ModuleLoader) (dep name : String) :
    (s.increaseRef dep).find name =
      (s.find name).map fun info =>
        { info with refCount := info.refCount + Int32.ofInt ([dep].count name) } := by
  have hzero : ∀ r : Int32, r + Int32.ofInt ((0 : ℕ) : ℤ) = r := fun r => Int32.add_zero r
  rw [increaseRef]
  cases hdep : s.find dep with
  | none =>
    by_cases hname : name = dep
    · rw [hname, hdep]
      rfl
    · rw [List.count_singleton, beq_false_of_ne (Ne.symm hname), if_neg Bool.false_ne_true]
      simp only [hzero, Option.map_id']
  | some info =>
    simp only [find_store]
    by_cases hname : name = dep
    · rw [hname, Function.update_self, hdep, List.count_singleton_self]
      rfl
    · rw [Function.update_of_ne hname, List.count_singleton, beq_false_of_ne (Ne.symm hname),
        if_neg Bool.false_ne_true]
      simp only [hzero, Option.map_id']

theorem find_resolveDependencies (deps : List String) (s : ModuleLoader) (name : String) :
    (s.resolveDependencies deps).2.find name =
      (s.find name).map fun info =>
        { info with refCount := info.refCount +
            Int32.ofInt ((deps.takeWhile fun d => (s.find d).isSome).count name) } := by
  have hzero : ∀ r : Int32, r + Int32.ofInt ((0 : ℕ) : ℤ) = r := fun r => Int32.add_zero r
  induction deps generalizing s with
  | nil =>
    simp only [resolveDependencies, List.takeWhile_nil, List.count_nil, hzero, Option.map_id']
  | cons dep deps ih =>
    rw [resolveDependencies, List.takeWhile_cons]
    cases hdep : s.find dep with
    | none => simp only [Option.isSome_none, Bool.false_eq_true, if_false, List.count_nil, hzero,
        Option.map_id']
    | some info =>
      have hloaded : (fun d => ((s.increaseRef dep).find d).isSome) =
          fun d => (s.find d).isSome := by
        funext d
        rw [find_increaseRef, Option.isSome_map]
      simp only [Option.isSome_some, if_true]
      rw [ih, hloaded, find_increaseRef, Option.map_map]
      refine congrArg (fun f => Option.map f (s.find name)) ?_
      funext info'
      have hcount : (((dep :: deps.takeWhile fun d => (s.find d).isSome).count name : ℕ) : ℤ) =
          (([dep].count name : ℕ) : ℤ) +
            ((deps.takeWhile fun d => (s.find d).isSome).count name : ℕ) := by
        rw [← Int.natCast_add, ← List.count_append]
        rfl
      rw [Function.comp_apply, hcount, Int32.ofInt_add, Int32.add_assoc]

end ModuleLoader

open ModuleLoader

/-! ### What the counts count -/

/-- The references that a step takes: a load that finds the plugin takes one on it, another one on
each dependency before the first that is missing. -/
def Step.takes (s : ModuleLoader) : Step → List String
  | .load _ (.plugin mod) =>
    if (s.find mod.name).isSome then [mod.name]
    else mod.depends.takeWhile fun d => (s.find d).isSome
  | .load _ .notOpened | .load _ .noSymbol | .decrease _ => []

def Step.releases : Step → List String
  | .load .. => []
  | .decrease name => [name]

/-- On every plugin, the references taken less those released since it was loaded. -/
abbrev ReferenceHistory := String → ℤ

def noteReferences (g : ReferenceHistory) (s : ModuleLoader) (step : Step) : ReferenceHistory :=
  fun name =>
    if (s.find name).isSome then g name + (step.takes s).count name - step.releases.count name
    else 0

/-- The count of every loaded plugin is its references, in 32 bits. -/
def Counted (x : ReferenceHistory × ModuleLoader) : Prop :=
  ∀ name info, x.2.find name = some info → info.refCount = Int32.ofInt (x.1 name)

/-- A step that takes references and releases none. -/
theorem counted_taken {g : ReferenceHistory} {s t : ModuleLoader} {step : Step}
    (h : Counted (g, s)) (hreleases : step.releases = []) {name : String} {info : PluginInfo}
    (hfind : t.find name = (s.find name).map fun old =>
      { old with refCount := old.refCount + Int32.ofInt ((step.takes s).count name) })
    (hinfo : t.find name = some info) :
    info.refCount = Int32.ofInt (noteReferences g s step name) := by
  rw [hfind] at hinfo
  obtain ⟨old, hold, rfl⟩ := Option.map_eq_some_iff.mp hinfo
  rw [noteReferences, hold, Option.isSome_some, if_pos rfl, hreleases, List.count_nil,
    Int.natCast_zero, Int.sub_zero, Int32.ofInt_add]
  rw [h name old hold]

theorem counted_load {g : ReferenceHistory} {s : ModuleLoader} (path : String)
    (file : PluginFile) (h : Counted (g, s)) :
    Counted (noteReferences g s (.load path file), (s.loadPlugin path file).2) := by
  have hnothing : ∀ name, s.find name = (s.find name).map fun old =>
      { old with refCount := old.refCount + Int32.ofInt (([] : List String).count name) } := by
    intro name
    cases s.find name with
    | none => rfl
    | some old =>
      exact congrArg (fun r => some { old with refCount := r }) (Int32.add_zero _).symm
  intro name info hinfo
  cases file with
  | notOpened => exact counted_taken h rfl (hnothing name) hinfo
  | noSymbol => exact counted_taken h rfl (hnothing name) hinfo
  | plugin mod =>
    cases hmod : s.find mod.name with
    | some old =>
      have hload : (s.loadPlugin path (.plugin mod)).2 = s.increaseRef mod.name := by
        simp only [loadPlugin, hmod]
      refine counted_taken h rfl ?_ hinfo
      rw [hload, find_increaseRef, Step.takes, hmod, Option.isSome_some, if_pos rfl]
    | none =>
      have hresolve := find_resolveDependencies mod.depends s name
      by_cases hloads : (s.resolveDependencies mod.depends).1 = 0 ∧ mod.init.getD 0 = 0
      · have hload : (s.loadPlugin path (.plugin mod)).2.find =
            Function.update (s.resolveDependencies mod.depends).2.find mod.name
              (some ⟨path, mod, 0⟩) := by
          simp only [loadPlugin, hmod, hloads.1, hloads.2, ne_eq, not_true_eq_false, if_false]
          exact find_store _ _ _
        by_cases hname : name = mod.name
        · -- the new plugin has no references
          rw [hload, hname, Function.update_self] at hinfo
          show info.refCount = Int32.ofInt (noteReferences g s (.load path (.plugin mod)) name)
          rw [← Option.some.inj hinfo, noteReferences, hname, hmod]
          rfl
        · refine counted_taken h rfl ?_ hinfo
          rw [hload, Function.update_of_ne hname, hresolve, Step.takes, hmod, Option.isSome_none,
            if_neg Bool.false_ne_true]
      · have hload : (s.loadPlugin path (.plugin mod)).2 =
            (s.resolveDependencies mod.depends).2 := by
          simp only [loadPlugin, hmod]
          split_ifs with hrc hinit
          · rfl
          · rfl
          · exact absurd ⟨not_not.mp hrc, not_not.mp hinit⟩ hloads
        refine counted_taken h rfl ?_ hinfo
        rw [hload, hresolve, Step.takes, hmod, Option.isSome_none, if_neg Bool.false_ne_true]

theorem counted_decrease {g : ReferenceHistory} {s : ModuleLoader} (n : String)
    (h : Counted (g, s)) : Counted (noteReferences g s (.decrease n), s.decreaseRef n) := by
  intro name info hinfo
  replace hinfo : (s.decreaseRef n).find name = some info := hinfo
  rw [find_decreaseRef] at hinfo
  show info.refCount = Int32.ofInt (noteReferences g s (.decrease n) name)
  by_cases hname : name = n
  · subst hname
    rw [Function.update_self, Option.bind_eq_some_iff] at hinfo
    obtain ⟨old, hold, hlowered⟩ := hinfo
    rw [lowered] at hlowered
    split_ifs at hlowered
    rw [← Option.some.inj hlowered, noteReferences, hold, Option.isSome_some, if_pos rfl,
      Step.releases, List.count_singleton_self, Int32.ofInt_sub]
    show old.refCount - 1 = Int32.ofInt (g name + 0) - 1
    rw [Int.add_zero, h name old hold]
  · rw [Function.update_of_ne hname] at hinfo
    rw [noteReferences, hinfo, Option.isSome_some, if_pos rfl, Step.releases,
      List.count_singleton, beq_false_of_ne (Ne.symm hname), if_neg Bool.false_ne_true]
    show info.refCount = Int32.ofInt (g name + 0 - 0)
    rw [Int.add_zero, Int.sub_zero, h name info hinfo]

/-- **Reference counts.**  In every state of a run the count of a loaded plugin is what later loads
of it and loads of its dependents have taken, less the decreases, since it was loaded. -/
theorem counted_run (steps : List Step) :
    Always (observed Step.perform noteReferences) Counted (fun _ => 0, create) steps := by
  apply always_of_inductive (G := fun _ _ => True)
  · intro x step h _
    cases step with
    | load path file => exact counted_load path file h
    | decrease n => exact counted_decrease n h
  · intro name info hinfo
    cases hinfo
  · exact guarded_trivial _ _ _

theorem running_init (log : List Event) (n name : String) :
    running (log ++ [.init n]) name = (running log name || n == name) := by
  rw [running, List.foldl_append]
  rfl

theorem running_exit (log : List Event) (n name : String) :
    running (log ++ [.exit n]) name = (running log name && n != name) := by
  rw [running, List.foldl_append]
  rfl

/-! ### The dependencies of loaded plugins -/

/-- Every dependency of a loaded plugin is running. -/
def DependsRunning (s : ModuleLoader) : Prop :=
  ∀ name mod, s.modOf name = some mod → ∀ d ∈ mod.depends, running s.log d

/-- A decrease that runs a plugin's `exit` finds no other loaded plugin that lists it. -/
def UnloadsUnused (s : ModuleLoader) : Step → Prop
  | .load _ _ => True
  | .decrease name => s.Drops name → ∀ other mod, other ≠ name → s.modOf other = some mod →
      name ∉ mod.depends

/-- The plugins that are running are the loaded ones. -/
def RunningLoaded (s : ModuleLoader) : Prop :=
  ∀ name, running s.log name = (s.modOf name).isSome

theorem runningLoaded_step (s : ModuleLoader) (step : Step) (h : RunningLoaded s) :
    RunningLoaded (step.perform s) := by
  have hsame : ∀ {t}, Same s t → RunningLoaded t := by
    intro t hst name
    rw [hst.1, hst.2]
    exact h name
  cases step with
  | load path file =>
    rcases s.loadPlugin_cases path file with hst | ⟨mod, _, hmod, hlog⟩
    · exact hsame hst
    · intro name
      show running (s.loadPlugin path file).2.log name =
        ((s.loadPlugin path file).2.modOf name).isSome
      rw [hlog, hmod, running_init, h]
      by_cases hname : name = mod.name
      · rw [hname, Function.update_self, beq_self_eq_true, Bool.or_true]
        rfl
      · rw [Function.update_of_ne hname, beq_false_of_ne (Ne.symm hname), Bool.or_false]
  | decrease name =>
    rcases s.decreaseRef_cases name with ⟨_, hst⟩ | ⟨_, hmod, hlog⟩
    · exact hsame hst
    · intro m
      show running (s.decreaseRef name).log m = ((s.decreaseRef name).modOf m).isSome
      rw [hlog, hmod, running_exit, h]
      by_cases hm : m = name
      · rw [hm, Function.update_self, bne_self_eq_false, Bool.and_false]
        rfl
      · rw [Function.update_of_ne hm, bne_iff_ne.mpr (Ne.symm hm), Bool.and_true]

structure LoaderInv (s : ModuleLoader) : Prop where
  runningLoaded : RunningLoaded s
  dependsRunning : DependsRunning s

/-- A step keeps the dependencies when what it unloads is unused. -/
theorem loaderInv_step (s : ModuleLoader) (step : Step) (h : LoaderInv s)
    (hunused : UnloadsUnused s step) : LoaderInv (step.perform s) := by
  refine ⟨runningLoaded_step s step h.runningLoaded, ?_⟩
  have hsame : ∀ {t}, Same s t → DependsRunning t := by
    intro t hst name mod hname
    rw [hst.1] at hname
    rw [hst.2]
    exact h.dependsRunning name mod hname
  cases step with
  | load path file =>
    rcases s.loadPlugin_cases path file with hst | ⟨mod, hdeps, hmod, hlog⟩
    · exact hsame hst
    · intro name other hname d hd
      show running (s.loadPlugin path file).2.log d = true
      rw [hlog, running_init, Bool.or_eq_true]
      left
      replace hname : (s.loadPlugin path file).2.modOf name = some other := hname
      rw [hmod] at hname
      by_cases heq : name = mod.name
      · rw [heq, Function.update_self] at hname
        obtain rfl := Option.some.inj hname
        rw [h.runningLoaded]
        exact hdeps d hd
      · rw [Function.update_of_ne heq] at hname
        exact h.dependsRunning name other hname d hd
  | decrease name =>
    rcases s.decreaseRef_cases name with ⟨_, hst⟩ | ⟨hdrops, hmod, hlog⟩
    · exact hsame hst
    · intro m other hm d hd
      show running (s.decreaseRef name).log d = true
      rw [hlog, running_exit, Bool.and_eq_true, bne_iff_ne]
      replace hm : (s.decreaseRef name).modOf m = some other := hm
      rw [hmod] at hm
      by_cases heq : m = name
      · rw [heq, Function.update_self] at hm
        cases hm
      · rw [Function.update_of_ne heq] at hm
        refine ⟨h.dependsRunning m other hm d hd, ?_⟩
        rintro rfl
        exact hunused hdrops m other heq hm hd

/-- A plugin that another loaded one lists cannot be dropped without breaking the dependency. -/
theorem unloadsUnused_of_depends {s : ModuleLoader} {step : Step}
    (hnext : DependsRunning (step.perform s)) : UnloadsUnused s step := by
  cases step with
  | load path file => trivial
  | decrease name =>
    intro hdrops other mod hother hmod hmem
    rcases s.decreaseRef_cases name with ⟨hnot, _⟩ | ⟨_, hmods, hlog⟩
    · exact hnot hdrops
    · have hstill : (s.decreaseRef name).modOf other = some mod := by
        rw [hmods, Function.update_of_ne hother]
        exact hmod
      have hrun : running (s.decreaseRef name).log name = true := hnext other mod hstill name hmem
      rw [hlog, running_exit, bne_self_eq_false, Bool.and_false] at hrun
      cases hrun

theorem loaderInv_create : LoaderInv create := by
  refine ⟨fun name => rfl, fun name mod hname => ?_⟩
  cases hname

/-- **Plugin dependencies, exactly.**  All through a sequence of calls, every dependency of a loaded
plugin is running if and only if no decrease runs the `exit` of a plugin that another one lists. -/
theorem depends_running_iff (heap : ∀ cs, StdHeap (loadsAfter cs)) (calls : List Call) :
    Always Step.perform DependsRunning create (stepsOf heap create calls) ↔
      Guarded Step.perform UnloadsUnused create (stepsOf heap create calls) :=
  always_iff_guarded loaderInv_step (fun _ h => h.dependsRunning)
    (fun _ _ _ hnext => unloadsUnused_of_depends hnext) _ loaderInv_create

def pluginA : Module := { name := "a" }
def pluginB : Module := { name := "b", depends := ["a"] }

/-- Unloading the first plugin takes it from under the second, which is still loaded. -/
theorem depends_running_fails :
    ¬Always Step.perform DependsRunning create
      (stepsOf (fun cs => StdHeap.sorted (loadKey cs)) create
        [.loadPlugin "plugin_a.so" (.plugin pluginA), .loadPlugin "plugin_b.so" (.plugin pluginB),
          .unloadPlugin "a"]) := by
  intro h
  have hlast := Always.last Step.perform h "b" pluginB (by decide +kernel) "a" List.mem_cons_self
  exact absurd hlast (by decide +kernel)

end UsrLinuxEmu.Kernel
