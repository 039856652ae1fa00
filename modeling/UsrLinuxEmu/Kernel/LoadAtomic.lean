import Mathlib.Algebra.Order.Ring.Nat
import Mathlib.Data.List.TakeWhile
import UsrLinuxEmu.Kernel.ModuleLoader

/-!
# Failed loads (`src/kernel/module_loader.cpp`)

`load_plugin` raises the counts of the dependencies one by one before it knows that the load will
succeed, and no error path lowers them again.

* `raised` — the dependencies that a load counts: those before the first one that is missing;
* `resolveDependencies_refCount` — each count grows by the number of times its plugin is raised;
* `loadPlugin_failed` — the loads that fail, and what each leaves behind;
* `load_atomic_iff` — a failed load changes nothing exactly when it has raised nothing.
-/

namespace UsrLinuxEmu.Kernel

namespace ModuleLoader

/-! ### Counts -/

/-- `plugin_ref_count`; `none` for a plugin that is not loaded. -/
def refCountOf (s : ModuleLoader) (name : String) : Option Int32 :=
  (s.find name).map PluginInfo.refCount

/-- The dependencies up to the first that is not loaded. -/
def raised (s : ModuleLoader) (deps : List String) : List String :=
  deps.takeWhile fun dep => (s.find dep).isSome

/-- The same plugins are loaded, with the same counts. -/
structure SameCounts (s t : ModuleLoader) : Prop where
  loaded : ∀ name, (t.find name).isSome = (s.find name).isSome
  counts : ∀ name, t.refCountOf name = s.refCountOf name

/-- A load that returns an error leaves the loaded plugins and their counts. -/
def LoadAtomic (s : ModuleLoader) (path : String) (file : PluginFile) : Prop :=
  (s.loadPlugin path file).1 ≠ 0 → SameCounts s (s.loadPlugin path file).2

/-- The plugin is new, and a dependency is missing or its `init` fails. -/
def FailsLate (s : ModuleLoader) (mod : Module) : Prop :=
  s.find mod.name = none ∧ ((∃ dep ∈ mod.depends, s.find dep = none) ∨ mod.init.getD 0 ≠ 0)

/-- A load that fails so has raised no count, or has raised it all the way round. -/
def RaisesNothing (s : ModuleLoader) : PluginFile → Prop
  | .plugin mod => s.FailsLate mod → ∀ name, 2 ^ 32 ∣ (s.raised mod.depends).count name
  | .notOpened | .noSymbol => True

/-! ### What the look-up does to the counts -/

theorem increaseRef_refCount (s : ModuleLoader) (dep name : String) :
    (s.increaseRef dep).refCountOf name =
      (s.refCountOf name).map (· + if dep = name then 1 else 0) := by
  rw [increaseRef]
  cases hfind : s.find dep with
  | none =>
    by_cases heq : dep = name
    · rw [refCountOf, ← heq, hfind]
      rfl
    · simp [heq]
  | some info =>
    simp only [refCountOf, find_store]
    by_cases heq : dep = name
    · rw [← heq, Function.update_self, hfind, if_pos rfl]
      rfl
    · rw [Function.update_of_ne (Ne.symm heq), if_neg heq, Option.map_map]
      exact Option.map_congr fun info _ => (Int32.add_zero _).symm

theorem find_isSome (s : ModuleLoader) (name : String) :
    (s.find name).isSome = (s.modOf name).isSome := by
  rw [modOf, Option.isSome_map]

theorem increaseRef_raised (s : ModuleLoader) (dep : String) (deps : List String) :
    (s.increaseRef dep).raised deps = s.raised deps := by
  simp only [raised, find_isSome, (s.increaseRef_same dep).1]

theorem resolveDependencies_refCount (deps : List String) (s : ModuleLoader) (name : String) :
    (s.resolveDependencies deps).2.refCountOf name =
      (s.refCountOf name).map (· + Int32.ofNat ((s.raised deps).count name)) := by
  induction deps generalizing s with
  | nil => simp [resolveDependencies, raised]
  | cons dep deps ih =>
    rw [resolveDependencies]
    cases hfind : s.find dep with
    | none => simp [raised, hfind]
    | some info =>
      have hraised : s.raised (dep :: deps) = dep :: s.raised deps := by simp [raised, hfind]
      simp only [ih, increaseRef_raised, increaseRef_refCount, hraised, List.count_cons,
        Option.map_map]
      congr 1
      funext count
      simp only [Function.comp_apply, beq_iff_eq]
      split_ifs
      · rw [Int32.ofNat_add, Int32.add_assoc, Int32.add_comm 1]
        rfl
      · simp

/-- The look-up fails exactly when a dependency is missing. -/
theorem resolveDependencies_eq_zero (deps : List String) (s : ModuleLoader) :
    (s.resolveDependencies deps).1 = 0 ↔ ¬∃ dep ∈ deps, s.find dep = none := by
  induction deps generalizing s with
  | nil => simp [resolveDependencies]
  | cons dep deps ih =>
    rw [resolveDependencies]
    cases hfind : s.find dep with
    | none => simp [hfind]
    | some info =>
      have hsame : ∀ d, (s.increaseRef dep).find d = none ↔ s.find d = none := by
        intro d
        rw [← Option.isNone_iff_eq_none, ← Option.isNone_iff_eq_none, ← Option.not_isSome,
          ← Option.not_isSome, find_isSome, find_isSome, (s.increaseRef_same dep).1]
      simp only [ih, hsame, List.exists_mem_cons_iff, hfind, reduceCtorEq, false_or]

/-! ### Loads that fail -/

/-- A load fails at once, or late with the counts of its look-up. -/
theorem loadPlugin_failed (s : ModuleLoader) (path : String) (file : PluginFile) :
    ((s.loadPlugin path file).1 ≠ 0 ↔
      file = .notOpened ∨ file = .noSymbol ∨ ∃ mod, file = .plugin mod ∧ s.FailsLate mod) := by
  cases file with
  | notOpened => simp [loadPlugin]
  | noSymbol => simp [loadPlugin]
  | plugin mod =>
    simp only [loadPlugin, FailsLate, reduceCtorEq, false_or, PluginFile.plugin.injEq,
      exists_eq_left']
    cases hfind : s.find mod.name with
    | some info => simp
    | none =>
      have hzero := resolveDependencies_eq_zero mod.depends s
      cases hres : s.resolveDependencies mod.depends with
      | mk rc t =>
        rw [hres] at hzero
        simp only at hzero ⊢
        by_cases hrc : rc = 0
        · have hdeps := hzero.mp hrc
          by_cases hinit : mod.init.getD 0 = 0
          · simp [hrc, hinit, hdeps]
          · simp [hrc, hinit]
        · have hdeps := not_not.mp (mt hzero.mpr hrc)
          simp [hrc, hdeps]

theorem loadPlugin_late {s : ModuleLoader} {mod : Module} (h : s.FailsLate mod) (path : String) :
    (s.loadPlugin path (.plugin mod)).2 = (s.resolveDependencies mod.depends).2 := by
  obtain ⟨hnew, hfails⟩ := h
  have hzero := resolveDependencies_eq_zero mod.depends s
  rw [loadPlugin, hnew]
  cases hres : s.resolveDependencies mod.depends with
  | mk rc t =>
    rw [hres] at hzero
    simp only at hzero ⊢
    by_cases hrc : rc = 0
    · have hinit := hfails.resolve_left (hzero.mp hrc)
      simp [hrc, hinit]
    · simp [hrc]

theorem int32_ofNat_eq_zero (n : ℕ) : Int32.ofNat n = 0 ↔ 2 ^ 32 ∣ n := by
  rw [← Int32.toBitVec_inj, Nat.dvd_iff_mod_eq_zero]
  show BitVec.ofNat 32 n = 0#32 ↔ _
  rw [← BitVec.toNat_inj, BitVec.toNat_ofNat]
  rfl

/-- The look-up leaves the counts that it raises by a multiple of the word size. -/
theorem resolveDependencies_sameCounts (s : ModuleLoader) (deps : List String) :
    SameCounts s (s.resolveDependencies deps).2 ↔
      ∀ name, 2 ^ 32 ∣ (s.raised deps).count name := by
  constructor
  · intro hsame name
    cases hcount : s.refCountOf name with
    | none =>
      -- a plugin that is not loaded is not raised
      have hnone : s.find name = none := Option.map_eq_none_iff.mp hcount
      have hnot : name ∉ s.raised deps := by
        intro hmem
        have hsome := List.mem_takeWhile_imp hmem
        simp only [hnone, Option.isSome_none, Bool.false_eq_true] at hsome
      rw [List.count_eq_zero.mpr hnot]
      exact Nat.dvd_zero _
    | some count =>
      have hkept := hsame.counts name
      rw [resolveDependencies_refCount, hcount, Option.map_some, Option.some.injEq] at hkept
      exact (int32_ofNat_eq_zero _).mp (Int32.add_eq_left.mp hkept)
  · intro hdvd
    refine ⟨fun name => ?_, fun name => ?_⟩
    · rw [find_isSome, find_isSome, (resolveDependencies_spec deps s).1]
    · rw [resolveDependencies_refCount, (int32_ofNat_eq_zero _).mpr (hdvd name)]
      simp

/-- **Failed loads.**  A load that returns an error leaves the loaded plugins and their counts
exactly when it raises no count on its way. -/
theorem load_atomic_iff (s : ModuleLoader) (path : String) (file : PluginFile) :
    LoadAtomic s path file ↔ s.RaisesNothing file := by
  cases file with
  | notOpened => exact iff_of_true (fun _ => ⟨fun _ => rfl, fun _ => rfl⟩) trivial
  | noSymbol => exact iff_of_true (fun _ => ⟨fun _ => rfl, fun _ => rfl⟩) trivial
  | plugin mod =>
    have hfailed := s.loadPlugin_failed path (.plugin mod)
    simp only [reduceCtorEq, false_or, PluginFile.plugin.injEq, exists_eq_left'] at hfailed
    rw [LoadAtomic, hfailed, RaisesNothing]
    refine forall_congr' fun hlate => ?_
    rw [loadPlugin_late hlate, resolveDependencies_sameCounts]

/-- It lists a loaded plugin before a missing one. -/
def pluginC : Module := { name := "c", depends := ["a", "missing"] }

/-- The failed load has counted the first dependency. -/
theorem load_atomic_fails :
    ¬LoadAtomic (create.loadPlugin "plugin_a.so" (.plugin pluginA)).2 "plugin_c.so"
      (.plugin pluginC) := by
  intro h
  have hsame := h (by decide +kernel)
  have hcount := hsame.counts "a"
  exact absurd hcount (by decide +kernel)

end ModuleLoader

end UsrLinuxEmu.Kernel
