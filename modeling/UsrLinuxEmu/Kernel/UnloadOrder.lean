import UsrLinuxEmu.Kernel.ModuleLoader

/-!
# Unloading all plugins (`src/kernel/module_loader.cpp`)

`unload_plugins` takes one count from each plugin, in the order in which the hash map lists them.
A plugin's count is what repeated loads and the loads of its dependents have made it, so one turn
need not bring it to zero, and a plugin may go before those that depend on it.

* `foldl_decreaseRef` — what one turn over a list of plugins does to the counts and the log;
* `UnloadsAll` — no plugin stays, and each `exit` comes after those of the dependents;
* `unload_plugins_once` — which plugins go, and which stay with what count;
* `unloadsAll_iff` — the loaders for which all go in order, however the map lists them.
-/

namespace UsrLinuxEmu.Kernel

open UsrLinuxEmu.Graph UsrLinuxEmu.Transition

namespace ModuleLoader

variable {s : ModuleLoader} {name : String}

/-! ### One turn -/

instance (s : ModuleLoader) (name : String) : Decidable (s.Drops name) :=
  match h : s.find name with
  | none => .isFalse fun ⟨_, hinfo, _⟩ => nomatch h.symm.trans hinfo
  | some info =>
    decidable_of_iff (info.refCount - 1 ≤ 0)
      ⟨fun hzero => ⟨info, h, hzero⟩,
        fun ⟨_, hinfo, hzero⟩ => Option.some.inj (h.symm.trans hinfo) ▸ hzero⟩

theorem log_decreaseRef (s : ModuleLoader) (name : String) :
    (s.decreaseRef name).log = s.log ++ if s.Drops name then [.exit name] else [] := by
  rcases s.decreaseRef_cases name with ⟨hnot, hsame⟩ | ⟨hdrops, hleaves⟩
  · rw [if_neg hnot, List.append_nil]
    exact hsame.2
  · rw [if_pos hdrops]
    exact hleaves.2

/-- The decrease of one plugin does not decide about another. -/
theorem drops_decreaseRef_of_ne {other : String} (h : other ≠ name) :
    (s.decreaseRef name).Drops other ↔ s.Drops other := by
  rw [Drops, Drops, find_decreaseRef, Function.update_of_ne h]

/-- **One turn.**  Each listed plugin is lowered once; those that it drops exit in the order of the
list. -/
theorem foldl_decreaseRef (names : List String) (hnodup : names.Nodup) (s : ModuleLoader) :
    (∀ name, (names.foldl decreaseRef s).find name =
        if name ∈ names then (s.find name).bind lowered else s.find name) ∧
      (names.foldl decreaseRef s).log =
        s.log ++ (names.filter fun name => s.Drops name).map .exit := by
  induction names generalizing s with
  | nil => exact ⟨fun _ => rfl, (List.append_nil s.log).symm⟩
  | cons n names ih =>
    obtain ⟨hn, hrest⟩ := List.nodup_cons.mp hnodup
    obtain ⟨hfind, hlog⟩ := ih hrest (s.decreaseRef n)
    refine ⟨fun name => ?_, ?_⟩
    · rw [List.foldl_cons, hfind, find_decreaseRef]
      by_cases hname : name = n
      · subst hname
        rw [if_neg hn, if_pos List.mem_cons_self, Function.update_self]
      · rw [Function.update_of_ne hname]
        exact if_congr (by rw [List.mem_cons, or_iff_right hname]) rfl rfl
    · have hsame : (names.filter fun name => (s.decreaseRef n).Drops name) =
          names.filter fun name => s.Drops name := by
        refine List.filter_congr fun m hm => decide_eq_decide.mpr (drops_decreaseRef_of_ne ?_)
        rintro rfl
        exact hn hm
      rw [List.foldl_cons, hlog, hsame, log_decreaseRef, List.append_assoc, List.filter_cons]
      by_cases hdrops : s.Drops n
      · rw [if_pos hdrops, if_pos (decide_eq_true hdrops)]
        rfl
      · rw [if_neg hdrops, if_neg (by simpa using hdrops)]
        rfl

/-! ### All plugins -/

/-- Whether one loaded plugin lists another. -/
def Lists (s : ModuleLoader) (name dependent : String) : Prop :=
  ∃ mod, s.modOf dependent = some mod ∧ name ∈ mod.depends

/-- However the map lists the plugins, none stays; every one of them exits once, after those that
depend on it. -/
def UnloadsAll (s : ModuleLoader) : Prop :=
  ∀ listed : Enumeration,
    (∀ name, (s.unloadPlugins listed).find name = none) ∧
      ∃ exits : List String, (s.unloadPlugins listed).log = s.log ++ exits.map .exit ∧
        exits.Perm s.loadedPlugins.keys ∧ NeedsFirst s.Lists exits

theorem nodup_listed (s : ModuleLoader) (listed : Enumeration) :
    (listed.1 s.loadedPlugins.keys).Nodup :=
  (listed.2 _).nodup_iff.mpr s.loadedPlugins.keys_nodup

theorem mem_listed_iff (s : ModuleLoader) (listed : Enumeration) (name : String) :
    name ∈ listed.1 s.loadedPlugins.keys ↔ s.find name ≠ none := by
  rw [(listed.2 _).mem_iff, ← AList.mem_keys, ← AList.lookup_isSome, Option.isSome_iff_ne_none]
  rfl

theorem find_unloadPlugins (s : ModuleLoader) (listed : Enumeration) (name : String) :
    (s.unloadPlugins listed).find name = (s.find name).bind lowered := by
  rw [unloadPlugins, (foldl_decreaseRef _ (s.nodup_listed listed) s).1]
  split_ifs with hmem
  · rfl
  · rw [not_not.mp (mt (s.mem_listed_iff listed name).mpr hmem)]
    rfl

/-- **Unloading.**  Every loaded plugin loses one count.  Those counted at most once go, and exit
once each; the others stay, and do not exit. -/
theorem unload_plugins_once (s : ModuleLoader) (listed : Enumeration) :
    (∀ name info, (s.unloadPlugins listed).find name = some info ↔
        ∃ old, s.find name = some old ∧ 0 < old.refCount - 1 ∧
          info = { old with refCount := old.refCount - 1 }) ∧
      ∃ exits : List String, (s.unloadPlugins listed).log = s.log ++ exits.map .exit ∧
        exits.Nodup ∧ ∀ name, name ∈ exits ↔ s.Drops name := by
  refine ⟨fun name info => ?_, (listed.1 s.loadedPlugins.keys).filter fun name => s.Drops name,
    (foldl_decreaseRef _ (s.nodup_listed listed) s).2, (s.nodup_listed listed).filter _,
    fun name => ?_⟩
  · rw [find_unloadPlugins, Option.bind_eq_some_iff]
    refine exists_congr fun old => and_congr_right fun _ => ?_
    rw [lowered]
    by_cases hzero : old.refCount - 1 ≤ 0
    · rw [if_pos hzero]
      exact iff_of_false (Option.some_ne_none info).symm
        fun hstays => absurd hzero (Int32.not_le.mpr hstays.1)
    · rw [if_neg hzero, Option.some.injEq]
      exact ⟨fun heq => ⟨Int32.not_le.mp hzero, heq.symm⟩, fun hstays => hstays.2.symm⟩
  · rw [List.mem_filter, mem_listed_iff, decide_eq_true_iff]
    refine and_iff_right_of_imp ?_
    intro hdrops hnone
    obtain ⟨info, hinfo, -⟩ := hdrops
    exact Option.some_ne_none info (hinfo.symm.trans hnone)

/-! ### When all go, in order -/

/-- Every plugin is counted at most once, and no loaded plugin depends on another. -/
def UnrelatedOnce (s : ModuleLoader) : Prop :=
  (∀ name, s.find name ≠ none → s.Drops name) ∧
    ∀ name, s.find name ≠ none → ∀ dependent, ¬s.Lists name dependent

/-- An order that starts with the name, if it is there. -/
def startingWith (name : String) : Enumeration :=
  ⟨fun keys => if name ∈ keys then name :: keys.erase name else keys, fun keys => by
    dsimp only
    split_ifs with hmem
    · exact (List.perm_cons_erase hmem).symm
    · exact List.Perm.refl keys⟩

theorem log_unloadPlugins_of_drops (h : ∀ name, s.find name ≠ none → s.Drops name)
    (listed : Enumeration) :
    (s.unloadPlugins listed).log = s.log ++ (listed.1 s.loadedPlugins.keys).map .exit := by
  have hall : ((listed.1 s.loadedPlugins.keys).filter fun name => s.Drops name) =
      listed.1 s.loadedPlugins.keys := by
    refine List.filter_eq_self.mpr fun name hname => decide_eq_true ?_
    exact h name ((s.mem_listed_iff listed name).mp hname)
  rw [unloadPlugins, (foldl_decreaseRef _ (s.nodup_listed listed) s).2, hall]

theorem find_unloadPlugins_eq_none (listed : Enumeration) :
    (∀ name, (s.unloadPlugins listed).find name = none) ↔
      ∀ name, s.find name ≠ none → s.Drops name := by
  refine forall_congr' fun name => ?_
  rw [find_unloadPlugins, Drops]
  cases s.find name with
  | none => simp
  | some info => simp [lowered]

/-- The map may list any plugin first. -/
theorem unrelatedOnce_of_unloadsAll (h : s.UnloadsAll) : s.UnrelatedOnce := by
  have hdrops := (find_unloadPlugins_eq_none (startingWith "")).mp (h (startingWith "")).1
  refine ⟨hdrops, fun name hname dependent hlists => ?_⟩
  obtain ⟨-, exits, hlog, -, hfirst⟩ := h (startingWith name)
  rw [log_unloadPlugins_of_drops hdrops, List.append_cancel_left_eq] at hlog
  have hexits := List.map_injective_iff.mpr (fun _ _ h => Event.exit.inj h) hlog
  have hmem : name ∈ s.loadedPlugins.keys :=
    ((startingWith name).2 _).mem_iff.mp ((s.mem_listed_iff _ name).mpr hname)
  have hstart : (startingWith name).1 s.loadedPlugins.keys =
    name :: s.loadedPlugins.keys.erase name := if_pos hmem
  rw [hstart] at hexits
  exact absurd (hfirst [] name _ hexits.symm dependent hlists) List.not_mem_nil

/-- **Completeness and order.**  All plugins go in order, for every order of the map, exactly when
each is counted at most once and none depends on another. -/
theorem unloadsAll_iff (s : ModuleLoader) : s.UnloadsAll ↔ s.UnrelatedOnce := by
  constructor
  · exact unrelatedOnce_of_unloadsAll
  · intro ⟨hdrops, hunrelated⟩ listed
    refine ⟨(find_unloadPlugins_eq_none listed).mpr hdrops, _,
      log_unloadPlugins_of_drops hdrops listed, listed.2 _, ?_⟩
    intro before name after heq dependent hlists
    have hmem : name ∈ listed.1 s.loadedPlugins.keys := by
      rw [heq]
      exact List.mem_append_right before List.mem_cons_self
    exact absurd hlists (hunrelated name ((s.mem_listed_iff listed name).mp hmem) dependent)

end ModuleLoader

/-! ### Loaders that only load -/

/-- A call that loads. -/
inductive LoadCall where
  | loadPlugin (path : String) (file : PluginFile)
  | loadPlugins (dir : Option (List DirEntry)) (files : ℕ → PluginFile)

def LoadCall.call : LoadCall → Call
  | .loadPlugin path file => .loadPlugin path file
  | .loadPlugins dir files => .loadPlugins dir files

def loadA : LoadCall := .loadPlugin "plugin_a.so" (.plugin pluginA)
def loadB : LoadCall := .loadPlugin "plugin_b.so" (.plugin pluginB)

/-- What the loads of a sequence leave, when the heap keeps its list sorted. -/
def loaded (calls : List LoadCall) : ModuleLoader :=
  run (Call.perform fun cs => StdHeap.sorted (loadKey cs)) ModuleLoader.create
    (calls.map LoadCall.call)

/-- A plugin that is loaded three times stays, with count one; and one that another depends on may
exit first. -/
theorem unload_plugins_fails :
    ¬(loaded [loadA, loadA, loadA]).UnloadsAll ∧ ¬(loaded [loadA, loadB]).UnloadsAll := by
  refine ⟨fun h => ?_, fun h => ?_⟩
  · have hgone := (h ⟨id, List.Perm.refl⟩).1 "a"
    exact absurd (congrArg Option.isSome hgone) (by decide +kernel)
  · have hmod : (loaded [loadA, loadB]).modOf "b" = some pluginB := by decide +kernel
    have hfind : (loaded [loadA, loadB]).find "a" ≠ none :=
      Option.isSome_iff_ne_none.mp (by decide +kernel)
    have hunrelated := ModuleLoader.unrelatedOnce_of_unloadsAll h
    exact hunrelated.2 "a" hfind "b" ⟨pluginB, hmod, List.mem_cons_self⟩

end UsrLinuxEmu.Kernel
