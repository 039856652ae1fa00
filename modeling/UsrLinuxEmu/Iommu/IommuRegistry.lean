import Mathlib.Data.List.Nodup
import UsrLinuxEmu.Iommu.DmaRemap
import UsrLinuxEmu.Transition.Simulation

/-!
# The IOMMU registry (`plugins/iommu_driver`, `plugins/pci_driver/pci_iommu_integration.cpp`)

Groups and domains are allocated one by one and listed in the emulator's global state.  A device
that joins a group is noted in four places: the group's list of members, the vector of its private state,
its counter, and the map from devices to groups.

* `IommuRegistry.step` — the calls, with the shutdown and its loops;
* `RegistryLaw` — the four places agree, nothing is used that is not live, and a shutdown leaves
  nothing;
* `properCall` — the pointers are live and the allocator's are fresh;
* `sparesRegistry` — no member leaves a group, the registration of a device does not run out of
  memory at its domain, no group's default domain is freed from outside, and a shutdown finds at
  most one group and one other domain;
* `registry_consistent` — then the law holds in every state of the run.
-/

namespace UsrLinuxEmu.Iommu

open UsrLinuxEmu.Transition

def iommuErrEnomem : Int := -12
def iommuErrEbusy : Int := -16
def iommuErrEnodev : Int := -19
def iommuErrEnosys : Int := -38

/-! ### Groups and domains -/

structure IommuGroupMember where
  addr : ℕ
  dev : ℕ
  deriving DecidableEq, Repr

/-- `members` is the linked list from its head, `stateMembers` the vector of `group->priv`, which
holds pointers to members. -/
structure IommuGroup where
  ndevices : Int
  members : List IommuGroupMember
  defaultDomain : Option ℕ
  stateMembers : List ℕ
  deriving DecidableEq, Repr

/-- The global state, and the live objects at their addresses.  `undefined`: an object has been used
or freed that is not live, or a loop has read past the end of a vector. -/
structure IommuRegistry where
  initialized : Bool
  domains : List ℕ
  groups : List ℕ
  deviceToGroup : ℕ → Option ℕ
  liveGroup : ℕ → Option IommuGroup
  liveDomain : ℕ → Bool
  undefined : Bool

/-- What the allocations of a registration return; `none` is the null pointer. -/
structure RegisterMem where
  group : Option ℕ
  member : Option ℕ
  domain : Option ℕ
  deriving DecidableEq, Repr

/-- The calls.  `mem` is what the allocation returns; a pointer argument is `none` when it is
null. -/
inductive RegistryOp where
  | init
  | shutdown
  | groupAlloc (mem : Option ℕ)
  | groupFree (group : Option ℕ)
  | addDevice (group dev : Option ℕ) (mem : Option ℕ)
  | removeDevice (group dev : Option ℕ)
  | domainAlloc (mem : Option ℕ)
  | domainFree (domain : Option ℕ)
  | registerPciDevice (dev : Option ℕ) (mem : RegisterMem)
  | unregisterPciDevice (dev : Option ℕ)
  deriving DecidableEq, Repr

namespace IommuRegistry

def boot : IommuRegistry :=
  ⟨false, [], [], fun _ => none, fun _ => none, fun _ => false, false⟩

def setUndefined (s : IommuRegistry) : IommuRegistry := { s with undefined := true }

def iommuEmuInit (s : IommuRegistry) : IommuRegistry := { s with initialized := true }

def iommuGroupAlloc (s : IommuRegistry) : Option ℕ → IommuRegistry
  | none => s
  | some a => { s with
      groups := s.groups ++ [a]
      liveGroup := Function.update s.liveGroup a (some ⟨0, [], none, []⟩) }

def iommuDomainAlloc (s : IommuRegistry) : Option ℕ → IommuRegistry
  | none => s
  | some d => { s with
      domains := s.domains ++ [d]
      liveDomain := Function.update s.liveDomain d true }

def iommuDomainFree (s : IommuRegistry) : Option ℕ → IommuRegistry
  | none => s
  | some d =>
    if !s.liveDomain d then s.setUndefined
    else { s with
      domains := s.domains.erase d
      liveDomain := Function.update s.liveDomain d false }

/-- The group's members are not freed. -/
def iommuGroupFree (s : IommuRegistry) : Option ℕ → IommuRegistry
  | none => s
  | some a =>
    match s.liveGroup a with
    | none => s.setUndefined
    | some group =>
      let s' := s.iommuDomainFree group.defaultDomain
      { s' with
        groups := s'.groups.erase a
        liveGroup := Function.update s'.liveGroup a none }

def iommuGroupAddDevice (s : IommuRegistry) (group dev : Option ℕ) (mem : Option ℕ) :
    Int × IommuRegistry :=
  match group, dev with
  | some a, some dev =>
    if (s.deviceToGroup dev).isSome then (iommuErrEbusy, s)
    else
      match mem with
      | none => (iommuErrEnomem, s)
      | some member =>
        match s.liveGroup a with
        | none => (iommuErrOk, s.setUndefined)
        | some g => (iommuErrOk, { s with
            liveGroup := Function.update s.liveGroup a (some { g with
              members := ⟨member, dev⟩ :: g.members
              ndevices := g.ndevices + 1
              stateMembers := g.stateMembers ++ [member] })
            deviceToGroup := Function.update s.deviceToGroup dev (some a) })
  | _, _ => (iommuErrEinval, s)

/-- The first member with the device leaves the list; the vector is not touched. -/
def iommuGroupRemoveDevice (s : IommuRegistry) (group dev : Option ℕ) : Int × IommuRegistry :=
  match group, dev with
  | some a, some dev =>
    match s.liveGroup a with
    | none => (iommuErrOk, s.setUndefined)
    | some g =>
      if g.members.any fun m => decide (m.dev = dev) then
        (iommuErrOk, { s with
          liveGroup := Function.update s.liveGroup a (some { g with
            members := g.members.eraseP fun m => decide (m.dev = dev)
            ndevices := g.ndevices - 1 })
          deviceToGroup := Function.update s.deviceToGroup dev none })
      else (iommuErrEnodev, s)
  | _, _ => (iommuErrEinval, s)

def iommuGroupSetDefaultDomain (s : IommuRegistry) (a d : ℕ) : IommuRegistry :=
  match s.liveGroup a with
  | none => s.setUndefined
  | some g =>
    { s with liveGroup := Function.update s.liveGroup a (some { g with defaultDomain := some d }) }

def iommuRegisterPciDevice (s : IommuRegistry) (dev : Option ℕ) (mem : RegisterMem) :
    Option ℕ × IommuRegistry :=
  match dev with
  | none => (none, s)
  | some dev =>
    if !s.initialized then (none, s)
    else
      match s.deviceToGroup dev with
      | some group => (some group, s)
      | none =>
        match mem.group with
        | none => (none, s)
        | some a =>
          let r := (s.iommuGroupAlloc (some a)).iommuGroupAddDevice (some a) (some dev) mem.member
          if r.1 ≠ iommuErrOk then (none, r.2.iommuGroupFree (some a))
          else
            match mem.domain with
            | none => (none, r.2.iommuGroupFree (some a))
            | some d => (some a, (r.2.iommuDomainAlloc (some d)).iommuGroupSetDefaultDomain a d)

def iommuUnregisterPciDevice (s : IommuRegistry) (dev : Option ℕ) : Int × IommuRegistry :=
  match dev with
  | none => (iommuErrEinval, s)
  | some dev =>
    if !s.initialized then (iommuErrEnosys, s)
    else
      match s.deviceToGroup dev with
      | none => (iommuErrEnodev, s)
      | some group => s.iommuGroupRemoveDevice (some group) (some dev)

/-- `while (group->members)`: at most as many removals as there are members. -/
def removeMembers (a : ℕ) : ℕ → IommuRegistry → IommuRegistry
  | 0, s => s
  | n + 1, s =>
    match (s.liveGroup a).bind fun g => g.members.head? with
    | none => s
    | some m => removeMembers a n (s.iommuGroupRemoveDevice (some a) (some m.dev)).2

/-- The body of the first loop of the shutdown. -/
def shutdownGroup (s : IommuRegistry) (a : ℕ) : IommuRegistry :=
  match s.liveGroup a with
  | none => s.setUndefined
  | some g => (removeMembers a g.members.length s).iommuGroupFree (some a)

/-- A loop over a vector whose end was read at the start, from position `i` on. -/
def loop (vector : IommuRegistry → List ℕ) (body : IommuRegistry → ℕ → IommuRegistry) :
    ℕ → ℕ → IommuRegistry → IommuRegistry
  | 0, _, s => s
  | n + 1, i, s =>
    match (vector s)[i]? with
    | none => s.setUndefined
    | some a => loop vector body n (i + 1) (body s a)

def iommuEmuShutdown (s : IommuRegistry) : IommuRegistry :=
  if !s.initialized then s
  else
    let s := { loop groups shutdownGroup s.groups.length 0 s with groups := [] }
    let s := { loop domains (fun s d => s.iommuDomainFree (some d)) s.domains.length 0 s with
      domains := [] }
    { s with deviceToGroup := fun _ => none, initialized := false }

def step (s : IommuRegistry) : RegistryOp → IommuRegistry
  | .init => s.iommuEmuInit
  | .shutdown => s.iommuEmuShutdown
  | .groupAlloc mem => s.iommuGroupAlloc mem
  | .groupFree group => s.iommuGroupFree group
  | .addDevice group dev mem => (s.iommuGroupAddDevice group dev mem).2
  | .removeDevice group dev => (s.iommuGroupRemoveDevice group dev).2
  | .domainAlloc mem => s.iommuDomainAlloc mem
  | .domainFree domain => s.iommuDomainFree domain
  | .registerPciDevice dev mem => (s.iommuRegisterPciDevice dev mem).2
  | .unregisterPciDevice dev => (s.iommuUnregisterPciDevice dev).2

/-! ### The property -/

/-- The group's list, its vector, its counter and the map hold the same members. -/
structure MembersAgree (s : IommuRegistry) (a : ℕ) (g : IommuGroup) : Prop where
  vector : g.stateMembers.Perm (g.members.map IommuGroupMember.addr)
  count : g.ndevices = g.members.length
  mapped : ∀ dev, s.deviceToGroup dev = some a ↔ ∃ m ∈ g.members, m.dev = dev

/-- Agreement looks at the group and the map alone. -/
theorem MembersAgree.of_map {s s' : IommuRegistry} {a : ℕ} {g : IommuGroup}
    (h : MembersAgree s a g) (hmap : s'.deviceToGroup = s.deviceToGroup) :
    MembersAgree s' a g := by
  refine ⟨h.vector, h.count, fun dev => ?_⟩
  rw [hmap]
  exact h.mapped dev

/-- Nothing is listed and nothing is live. -/
structure Empty (s : IommuRegistry) : Prop where
  groups : s.groups = []
  domains : s.domains = []
  deviceToGroup : ∀ dev, s.deviceToGroup dev = none
  liveGroup : ∀ a, s.liveGroup a = none
  liveDomain : ∀ d, s.liveDomain d = false

end IommuRegistry

open IommuRegistry

/-- The ghost state holds what the shutdowns left.  An object that is freed twice, or used after it
was freed, makes the state undefined; so a shutdown that leaves nothing live has freed every live
object once. -/
structure RegistryLaw (x : List IommuRegistry × IommuRegistry) : Prop where
  defined : x.2.undefined = false
  agree : ∀ a g, x.2.liveGroup a = some g → x.2.MembersAgree a g
  mapLive : ∀ dev a, x.2.deviceToGroup dev = some a → (x.2.liveGroup a).isSome = true
  shutdowns : ∀ s ∈ x.1, s.Empty

namespace IommuRegistry

/-- What a shutdown leaves is noted. -/
def noteShutdown (left : List IommuRegistry) (s : IommuRegistry) : RegistryOp → List IommuRegistry
  | .shutdown => s.iommuEmuShutdown :: left
  | _ => left

/-- The objects passed are live, a group that is freed has no members, and the allocator returns no
live object. -/
def properCall (s : IommuRegistry) : RegistryOp → Prop
  | .groupAlloc mem => ∀ a ∈ mem, s.liveGroup a = none
  | .groupFree group => ∀ a ∈ group, (s.liveGroup a).map IommuGroup.members = some []
  | .addDevice group _ _ => ∀ a ∈ group, (s.liveGroup a).isSome = true
  | .removeDevice group _ => ∀ a ∈ group, (s.liveGroup a).isSome = true
  | .domainAlloc mem => ∀ d ∈ mem, s.liveDomain d = false
  | .domainFree domain => ∀ d ∈ domain, s.liveDomain d = true
  | .registerPciDevice _ mem => (∀ a ∈ mem.group, s.liveGroup a = none) ∧
      ∀ d ∈ mem.domain, s.liveDomain d = false
  | .init | .shutdown | .unregisterPciDevice _ => True

/-- The default domains of the listed groups. -/
def defaultDomains (s : IommuRegistry) : List ℕ :=
  s.groups.filterMap fun a => (s.liveGroup a).bind IommuGroup.defaultDomain

/-- No member leaves a group; a registration that gets a member gets a domain; a domain that is
freed is no group's default domain; a shutdown finds at most one group and one other domain, or, when the
emulator is not initialised, nothing. -/
def sparesRegistry (s : IommuRegistry) : RegistryOp → Prop
  | .removeDevice group dev => ∀ a ∈ group, ∀ d ∈ dev, s.deviceToGroup d ≠ some a
  | .unregisterPciDevice dev => s.initialized = true → ∀ d ∈ dev, s.deviceToGroup d = none
  | .registerPciDevice dev mem => s.initialized = true → (∀ d ∈ dev, s.deviceToGroup d = none) →
      mem.group.isSome = true → mem.member.isSome = true → mem.domain.isSome = true
  | .domainFree domain => ∀ d ∈ domain, d ∉ s.defaultDomains
  | .shutdown =>
    if s.initialized then
      s.groups.length ≤ 1 ∧ (s.domains.filter fun d => decide (d ∉ s.defaultDomains)).length ≤ 1
    else s.groups = [] ∧ s.domains = []
  | .init | .groupAlloc _ | .groupFree _ | .addDevice .. | .domainAlloc _ => True

instance decidableProperCall (s : IommuRegistry) : ∀ op, Decidable (s.properCall op)
  | .groupAlloc mem => inferInstanceAs (Decidable (∀ a ∈ mem, s.liveGroup a = none))
  | .groupFree group =>
    inferInstanceAs (Decidable (∀ a ∈ group, (s.liveGroup a).map IommuGroup.members = some []))
  | .addDevice group _ _ | .removeDevice group _ =>
    inferInstanceAs (Decidable (∀ a ∈ group, (s.liveGroup a).isSome = true))
  | .domainAlloc mem => inferInstanceAs (Decidable (∀ d ∈ mem, s.liveDomain d = false))
  | .domainFree domain => inferInstanceAs (Decidable (∀ d ∈ domain, s.liveDomain d = true))
  | .registerPciDevice _ mem =>
    inferInstanceAs (Decidable ((∀ a ∈ mem.group, s.liveGroup a = none) ∧
      ∀ d ∈ mem.domain, s.liveDomain d = false))
  | .init | .shutdown | .unregisterPciDevice _ => inferInstanceAs (Decidable True)

instance decidableSparesRegistry (s : IommuRegistry) : ∀ op, Decidable (s.sparesRegistry op)
  | .removeDevice group dev =>
    inferInstanceAs (Decidable (∀ a ∈ group, ∀ d ∈ dev, s.deviceToGroup d ≠ some a))
  | .unregisterPciDevice dev =>
    inferInstanceAs (Decidable (_ → ∀ d ∈ dev, s.deviceToGroup d = none))
  | .registerPciDevice dev _ =>
    inferInstanceAs (Decidable (_ → (∀ d ∈ dev, s.deviceToGroup d = none) → _ → _ → _))
  | .domainFree domain => inferInstanceAs (Decidable (∀ d ∈ domain, d ∉ s.defaultDomains))
  | .shutdown => inferInstanceAs (Decidable (if s.initialized = true then _ ∧ _ else _ ∧ _))
  | .init | .groupAlloc _ | .groupFree _ | .addDevice .. | .domainAlloc _ =>
    inferInstanceAs (Decidable True)

/-! ### What is listed -/

/-- The vectors list the live objects, each once, and the default domains are live and different. -/
structure Listed (s : IommuRegistry) : Prop where
  defined : s.undefined = false
  groupsNodup : s.groups.Nodup
  groupsLive : ∀ a, a ∈ s.groups ↔ (s.liveGroup a).isSome = true
  domainsNodup : s.domains.Nodup
  domainsLive : ∀ d, d ∈ s.domains ↔ s.liveDomain d = true
  defaultLive : ∀ a g d, s.liveGroup a = some g → g.defaultDomain = some d →
    s.liveDomain d = true
  defaultOwn : ∀ a b g h d, s.liveGroup a = some g → s.liveGroup b = some h →
    g.defaultDomain = some d → h.defaultDomain = some d → a = b

structure RegistryInv (s : IommuRegistry) : Prop extends Listed s where
  agree : ∀ a g, s.liveGroup a = some g → s.MembersAgree a g
  mapLive : ∀ dev a, s.deviceToGroup dev = some a → (s.liveGroup a).isSome = true

theorem listed_boot : Listed boot where
  defined := rfl
  groupsNodup := List.nodup_nil
  groupsLive := fun _ => by simp [boot]
  domainsNodup := List.nodup_nil
  domainsLive := fun _ => by simp [boot]
  defaultLive := fun _ _ _ h => by cases h
  defaultOwn := fun _ _ _ _ _ h => by cases h

theorem registryInv_boot : RegistryInv boot where
  toListed := listed_boot
  agree := fun _ _ h => by cases h
  mapLive := fun _ _ h => by cases h

/-- A live group other than `a`, or the new one at `a`. -/
theorem update_eq_some {f : ℕ → Option IommuGroup} {a b : ℕ} {v : Option IommuGroup}
    {g : IommuGroup} : Function.update f a v b = some g ↔
      (b = a ∧ v = some g) ∨ (b ≠ a ∧ f b = some g) := by
  by_cases hb : b = a
  · subst hb
    simp
  · simp [hb]

theorem mem_defaultDomains {s : IommuRegistry} (h : Listed s) {d : ℕ} :
    d ∈ s.defaultDomains ↔ ∃ a g, s.liveGroup a = some g ∧ g.defaultDomain = some d := by
  rw [defaultDomains, List.mem_filterMap]
  constructor
  · rintro ⟨a, -, hd⟩
    obtain ⟨g, hg, hdefault⟩ := Option.bind_eq_some_iff.mp hd
    exact ⟨a, g, hg, hdefault⟩
  · rintro ⟨a, g, hg, hdefault⟩
    refine ⟨a, (h.groupsLive a).mpr (by rw [hg]; rfl), ?_⟩
    rw [hg]
    exact hdefault

/-- The list after an object has been added at a fresh address. -/
theorem nodup_concat_fresh {l : List ℕ} (h : l.Nodup) {a : ℕ} (ha : a ∉ l) : (l ++ [a]).Nodup :=
  List.nodup_append.mpr ⟨h, List.nodup_singleton a,
    fun _ hx _ hy hxy => ha (List.mem_singleton.mp hy ▸ hxy ▸ hx)⟩

/-! ### Domains -/

theorem registryInv_domainAlloc {s : IommuRegistry} (h : RegistryInv s) {d : ℕ}
    (hfresh : s.liveDomain d = false) : RegistryInv (s.iommuDomainAlloc (some d)) := by
  have hnot : d ∉ s.domains := by
    rw [h.domainsLive, hfresh]
    exact Bool.false_ne_true
  refine ⟨⟨h.defined, h.groupsNodup, h.groupsLive, nodup_concat_fresh h.domainsNodup hnot, ?_, ?_,
    h.defaultOwn⟩, fun a g hg => (h.agree a g hg).of_map rfl, h.mapLive⟩
  · intro x
    show x ∈ s.domains ++ [d] ↔ Function.update s.liveDomain d true x = true
    by_cases hx : x = d
    · subst hx
      simp
    · simp [hx, h.domainsLive]
  · intro a g x hg hx
    show Function.update s.liveDomain d true x = true
    by_cases hxd : x = d
    · subst hxd
      exact Function.update_self ..
    · rw [Function.update_of_ne hxd]
      exact h.defaultLive a g x hg hx

theorem domainFree_live {s : IommuRegistry} {d : ℕ} (hlive : s.liveDomain d = true) :
    s.iommuDomainFree (some d) = { s with
      domains := s.domains.erase d
      liveDomain := Function.update s.liveDomain d false } := by
  rw [iommuDomainFree, if_neg (by simp [hlive])]

/-- The list of live domains without one. -/
theorem Listed.domains_erase {s : IommuRegistry} (h : Listed s) (d x : ℕ) :
    x ∈ s.domains.erase d ↔ Function.update s.liveDomain d false x = true := by
  rw [h.domainsNodup.mem_erase_iff, h.domainsLive]
  by_cases hx : x = d
  · subst hx
    simp
  · simp [hx]

theorem listed_domainFree {s : IommuRegistry} (h : Listed s) {d : ℕ}
    (hlive : s.liveDomain d = true) (hdefault : d ∉ s.defaultDomains) :
    Listed (s.iommuDomainFree (some d)) := by
  rw [domainFree_live hlive]
  refine ⟨h.defined, h.groupsNodup, h.groupsLive, h.domainsNodup.erase d, h.domains_erase d, ?_,
    h.defaultOwn⟩
  intro a g x hg hx
  have hne : x ≠ d := by
    rintro rfl
    exact hdefault ((mem_defaultDomains h).mpr ⟨a, g, hg, hx⟩)
  show Function.update s.liveDomain d false x = true
  rw [Function.update_of_ne hne]
  exact h.defaultLive a g x hg hx

/-! ### Groups -/

theorem registryInv_groupAlloc {s : IommuRegistry} (h : RegistryInv s) {a : ℕ}
    (hfresh : s.liveGroup a = none) : RegistryInv (s.iommuGroupAlloc (some a)) := by
  have hnot : a ∉ s.groups := by
    rw [h.groupsLive, hfresh]
    exact Bool.false_ne_true
  have hold : ∀ b g, (s.iommuGroupAlloc (some a)).liveGroup b = some g →
      (b = a ∧ g = ⟨0, [], none, []⟩) ∨ s.liveGroup b = some g := by
    intro b g hg
    rcases update_eq_some.mp hg with ⟨hb, hnew⟩ | ⟨-, hb⟩
    · exact .inl ⟨hb, (Option.some.inj hnew).symm⟩
    · exact .inr hb
  refine ⟨⟨h.defined, nodup_concat_fresh h.groupsNodup hnot, ?_, h.domainsNodup, h.domainsLive,
    ?_, ?_⟩, ?_, ?_⟩
  · intro b
    show b ∈ s.groups ++ [a] ↔ (Function.update s.liveGroup a _ b).isSome = true
    by_cases hb : b = a
    · subst hb
      simp
    · simp [hb, h.groupsLive]
  · intro b g d hg hd
    rcases hold b g hg with ⟨-, rfl⟩ | hb
    · cases hd
    · exact h.defaultLive b g d hb hd
  · intro b c g g' d hg hg' hd hd'
    rcases hold b g hg with ⟨-, rfl⟩ | hb
    · cases hd
    · rcases hold c g' hg' with ⟨-, rfl⟩ | hc
      · cases hd'
      · exact h.defaultOwn b c g g' d hb hc hd hd'
  · intro b g hg
    rcases hold b g hg with ⟨rfl, rfl⟩ | hb
    · refine ⟨.nil, rfl, fun dev => ⟨fun hdev => ?_, fun hdev => ?_⟩⟩
      · -- nothing is mapped to a group that was not live
        have hlive := h.mapLive dev b hdev
        rw [hfresh] at hlive
        cases hlive
      · obtain ⟨m, hm, -⟩ := hdev
        cases hm
    · exact (h.agree b g hb).of_map rfl
  · intro dev b hdev
    have hlive := h.mapLive dev b hdev
    show (Function.update s.liveGroup a _ b).isSome = true
    by_cases hb : b = a
    · subst hb
      rw [Function.update_self]
      rfl
    · rw [Function.update_of_ne hb]
      exact hlive

/-- A live group gets other members; its default domain stays. -/
theorem Listed.setGroup {s : IommuRegistry} (h : Listed s) {a : ℕ} {g g' : IommuGroup}
    (hg : s.liveGroup a = some g) (hdefault : g'.defaultDomain = g.defaultDomain)
    (deviceToGroup : ℕ → Option ℕ) :
    Listed { s with
      liveGroup := Function.update s.liveGroup a (some g'), deviceToGroup := deviceToGroup } := by
  have hold : ∀ b x, Function.update s.liveGroup a (some g') b = some x →
      ∃ y, s.liveGroup b = some y ∧ x.defaultDomain = y.defaultDomain := by
    intro b x hx
    rcases update_eq_some.mp hx with ⟨rfl, hnew⟩ | ⟨-, hb⟩
    · obtain rfl := Option.some.inj hnew
      exact ⟨g, hg, hdefault⟩
    · exact ⟨x, hb, rfl⟩
  refine ⟨h.defined, h.groupsNodup, ?_, h.domainsNodup, h.domainsLive, ?_, ?_⟩
  · intro b
    rw [h.groupsLive]
    by_cases hb : b = a
    · subst hb
      simp [hg]
    · simp [hb]
  · intro b x d hx hd
    obtain ⟨y, hy, heq⟩ := hold b x hx
    exact h.defaultLive b y d hy (heq ▸ hd)
  · intro b c x x' d hx hx' hd hd'
    obtain ⟨y, hy, heq⟩ := hold b x hx
    obtain ⟨y', hy', heq'⟩ := hold c x' hx'
    exact h.defaultOwn b c y y' d hy hy' (heq ▸ hd) (heq' ▸ hd')

theorem registryInv_addDevice {s : IommuRegistry} (h : RegistryInv s) {a dev : ℕ}
    {g : IommuGroup} (hg : s.liveGroup a = some g) (hfree : s.deviceToGroup dev = none)
    (member : ℕ) : RegistryInv { s with
      liveGroup := Function.update s.liveGroup a (some { g with
        members := ⟨member, dev⟩ :: g.members
        ndevices := g.ndevices + 1
        stateMembers := g.stateMembers ++ [member] })
      deviceToGroup := Function.update s.deviceToGroup dev (some a) } := by
  refine ⟨h.toListed.setGroup hg (by rfl) _, ?_, ?_⟩
  · intro b x hx
    rcases update_eq_some.mp hx with ⟨rfl, hnew⟩ | ⟨hne, hb⟩
    · obtain rfl := Option.some.inj hnew
      obtain ⟨hvector, hcount, hmapped⟩ := h.agree b g hg
      refine ⟨?_, ?_, ?_⟩
      · exact (List.perm_append_singleton ..).trans (hvector.cons _)
      · simp [hcount]
      · intro x
        show Function.update s.deviceToGroup dev (some b) x = some b ↔ _
        by_cases hx : x = dev
        · subst hx
          simp
        · simp [hx, hmapped, Ne.symm hx]
    · obtain ⟨hvector, hcount, hmapped⟩ := h.agree b x hb
      refine ⟨hvector, hcount, fun y => ?_⟩
      rw [← hmapped y]
      show Function.update s.deviceToGroup dev (some a) y = some b ↔ _
      by_cases hy : y = dev
      · subst hy
        simp [hfree, Ne.symm hne]
      · simp [hy]
  · intro x b hx
    have hsome : b = a ∨ (s.liveGroup b).isSome = true := by
      by_cases hxd : x = dev
      · subst hxd
        exact .inl (by simpa using hx.symm)
      · exact .inr (h.mapLive x b (by simpa [hxd] using hx))
    show (Function.update s.liveGroup a _ b).isSome = true
    by_cases hb : b = a
    · subst hb
      simp
    · rw [Function.update_of_ne hb]
      exact hsome.resolve_left hb

/-- What freeing a live group leaves: its default domain goes with it. -/
theorem groupFree_live {s : IommuRegistry} (h : Listed s) {a : ℕ} {g : IommuGroup}
    (hg : s.liveGroup a = some g) : s.iommuGroupFree (some a) = { s with
      groups := s.groups.erase a
      liveGroup := Function.update s.liveGroup a none
      domains := match g.defaultDomain with
        | none => s.domains
        | some d => s.domains.erase d
      liveDomain := match g.defaultDomain with
        | none => s.liveDomain
        | some d => Function.update s.liveDomain d false } := by
  simp only [iommuGroupFree, hg]
  cases hd : g.defaultDomain with
  | none => rfl
  | some d => rw [domainFree_live (h.defaultLive a g d hg hd)]

theorem listed_groupFree {s : IommuRegistry} (h : Listed s) {a : ℕ} {g : IommuGroup}
    (hg : s.liveGroup a = some g) : Listed (s.iommuGroupFree (some a)) := by
  have hold : ∀ b x, Function.update s.liveGroup a none b = some x →
      b ≠ a ∧ s.liveGroup b = some x := by
    intro b x hx
    rcases update_eq_some.mp hx with ⟨-, hnone⟩ | hb
    · cases hnone
    · exact hb
  have hgroups : ∀ b, b ∈ s.groups.erase a ↔
      (Function.update s.liveGroup a none b).isSome = true := by
    intro b
    rw [h.groupsNodup.mem_erase_iff, h.groupsLive]
    by_cases hb : b = a
    · subst hb
      simp
    · simp [hb]
  rw [groupFree_live h hg]
  cases hd : g.defaultDomain with
  | none =>
    refine ⟨h.defined, h.groupsNodup.erase a, hgroups, h.domainsNodup, h.domainsLive, ?_, ?_⟩
    · intro b x d hx
      exact h.defaultLive b x d (hold b x hx).2
    · intro b c x x' d hx hx'
      exact h.defaultOwn b c x x' d (hold b x hx).2 (hold c x' hx').2
  | some d =>
    refine ⟨h.defined, h.groupsNodup.erase a, hgroups, h.domainsNodup.erase d, h.domains_erase d,
      ?_, ?_⟩
    · intro b x e hx he
      obtain ⟨hne, hb⟩ := hold b x hx
      -- the freed domain is the default of no other group
      have hother : e ≠ d := by
        rintro rfl
        exact hne (h.defaultOwn b a x g e hb hg he hd)
      show Function.update s.liveDomain d false e = true
      rw [Function.update_of_ne hother]
      exact h.defaultLive b x e hb he
    · intro b c x x' e hx hx'
      exact h.defaultOwn b c x x' e (hold b x hx).2 (hold c x' hx').2

theorem registryInv_groupFree {s : IommuRegistry} (h : RegistryInv s) {a : ℕ} {g : IommuGroup}
    (hg : s.liveGroup a = some g) (hempty : g.members = []) :
    RegistryInv (s.iommuGroupFree (some a)) := by
  refine ⟨listed_groupFree h.toListed hg, ?_, ?_⟩
  · intro b x hx
    rw [groupFree_live h.toListed hg] at hx ⊢
    rcases update_eq_some.mp hx with ⟨-, hnone⟩ | ⟨-, hb⟩
    · cases hnone
    · exact (h.agree b x hb).of_map rfl
  · intro dev b hdev
    rw [groupFree_live h.toListed hg] at hdev ⊢
    have hne : b ≠ a := by
      rintro rfl
      obtain ⟨m, hm, -⟩ := ((h.agree b g hg).mapped dev).mp hdev
      rw [hempty] at hm
      cases hm
    show (Function.update s.liveGroup a none b).isSome = true
    rw [Function.update_of_ne hne]
    exact h.mapLive dev b hdev

/-- A group without a default domain gets a new one. -/
theorem registryInv_setDefaultDomain {s : IommuRegistry} (h : RegistryInv s) {a d : ℕ}
    {g : IommuGroup} (hg : s.liveGroup a = some g) (hlive : s.liveDomain d = true)
    (hnew : ∀ b x, s.liveGroup b = some x → x.defaultDomain ≠ some d) :
    RegistryInv (s.iommuGroupSetDefaultDomain a d) := by
  have hset : s.iommuGroupSetDefaultDomain a d = { s with
      liveGroup := Function.update s.liveGroup a (some { g with defaultDomain := some d }) } := by
    simp only [iommuGroupSetDefaultDomain, hg]
  rw [hset]
  have hlive' : ∀ b, (Function.update s.liveGroup a (some { g with defaultDomain := some d })
      b).isSome = (s.liveGroup b).isSome := by
    intro b
    by_cases hb : b = a
    · subst hb
      simp [hg]
    · simp [hb]
  refine ⟨⟨h.defined, h.groupsNodup, fun b => ?_, h.domainsNodup, h.domainsLive, ?_, ?_⟩, ?_, ?_⟩
  · rw [hlive', h.groupsLive]
  · intro b x e hx he
    rcases update_eq_some.mp hx with ⟨-, hself⟩ | ⟨-, hb⟩
    · obtain rfl := Option.some.inj hself
      obtain rfl := Option.some.inj he
      exact hlive
    · exact h.defaultLive b x e hb he
  · intro b c x y e hx hy he he'
    rcases update_eq_some.mp hx with ⟨rfl, hself⟩ | ⟨-, hb⟩
    · obtain rfl := Option.some.inj hself
      obtain rfl := Option.some.inj he
      rcases update_eq_some.mp hy with ⟨rfl, -⟩ | ⟨-, hc⟩
      · rfl
      · exact absurd he' (hnew c y hc)
    · rcases update_eq_some.mp hy with ⟨rfl, hself⟩ | ⟨-, hc⟩
      · obtain rfl := Option.some.inj hself
        obtain rfl := Option.some.inj he'
        exact absurd he (hnew b x hb)
      · exact h.defaultOwn b c x y e hb hc he he'
  · intro b x hx
    rcases update_eq_some.mp hx with ⟨rfl, hself⟩ | ⟨-, hb⟩
    · obtain rfl := Option.some.inj hself
      exact ⟨(h.agree b g hg).vector, (h.agree b g hg).count, (h.agree b g hg).mapped⟩
    · exact (h.agree b x hb).of_map rfl
  · intro dev b hdev
    rw [hlive']
    exact h.mapLive dev b hdev

/-! ### Registration -/

theorem registryInv_register {s : IommuRegistry} (h : RegistryInv s) (dev : Option ℕ)
    (mem : RegisterMem) (hproper : s.properCall (.registerPciDevice dev mem))
    (hspares : s.sparesRegistry (.registerPciDevice dev mem)) :
    RegistryInv (s.iommuRegisterPciDevice dev mem).2 := by
  cases dev with
  | none => exact h
  | some dev =>
    simp only [iommuRegisterPciDevice]
    by_cases hinit : s.initialized = true
    swap
    · rw [if_pos (by simpa using hinit)]
      exact h
    rw [if_neg (by simpa using hinit)]
    cases hmap : s.deviceToGroup dev with
    | some group => exact h
    | none =>
      cases hgroup : mem.group with
      | none => exact h
      | some a =>
        have hfresh := hproper.1 a hgroup
        have halloc := registryInv_groupAlloc h hfresh
        have hg : (s.iommuGroupAlloc (some a)).liveGroup a = some ⟨0, [], none, []⟩ :=
          Function.update_self ..
        have hfree : (s.iommuGroupAlloc (some a)).deviceToGroup dev = none := hmap
        simp only
        cases hmember : mem.member with
        | none =>
          -- the new group is freed again
          simp only [iommuGroupAddDevice, hfree, Option.isSome_none, Bool.false_eq_true, if_false]
          rw [if_pos (by decide)]
          exact registryInv_groupFree halloc hg rfl
        | some member =>
          simp only [iommuGroupAddDevice, hfree, Option.isSome_none, Bool.false_eq_true, if_false,
            hg, ne_eq, not_true_eq_false]
          have hadd := registryInv_addDevice halloc hg hfree member
          have hdomain := hspares hinit (fun d hd => Option.some.inj hd ▸ hmap)
            (by rw [hgroup]; rfl) (by rw [hmember]; rfl)
          obtain ⟨d, hd⟩ := Option.isSome_iff_exists.mp hdomain
          rw [hd]
          have hdfresh : s.liveDomain d = false := hproper.2 d hd
          refine registryInv_setDefaultDomain (registryInv_domainAlloc hadd hdfresh)
            (Function.update_self ..) (Function.update_self ..) ?_
          intro b x hx hdefault
          have hlive := hadd.defaultLive b x d hx hdefault
          rw [show s.liveDomain d = true from hlive] at hdfresh
          cases hdfresh

/-! ### Shutdown -/

/-- Removing members changes the group's members and the map alone. -/
theorem removeMembers_spec {a : ℕ} (n : ℕ) {s : IommuRegistry} (h : Listed s) {g : IommuGroup}
    (hg : s.liveGroup a = some g) (hn : g.members.length ≤ n) :
    ∃ g' map, removeMembers a n s = { s with
      liveGroup := Function.update s.liveGroup a (some g'), deviceToGroup := map } ∧
        g'.defaultDomain = g.defaultDomain ∧ g'.members = [] := by
  induction n generalizing s g with
  | zero =>
    refine ⟨g, s.deviceToGroup, ?_, rfl, List.length_eq_zero_iff.mp (Nat.le_zero.mp hn)⟩
    rw [removeMembers, ← hg, Function.update_eq_self]
  | succ n ih =>
    rw [removeMembers, hg]
    cases hmembers : g.members with
    | nil =>
      simp only [Option.bind_some, hmembers, List.head?_nil]
      refine ⟨g, s.deviceToGroup, ?_, rfl, hmembers⟩
      rw [← hg, Function.update_eq_self]
    | cons m rest =>
      simp only [Option.bind_some, hmembers, List.head?_cons]
      have hremove : (s.iommuGroupRemoveDevice (some a) (some m.dev)).2 = { s with
          liveGroup := Function.update s.liveGroup a (some { g with
            members := rest
            ndevices := g.ndevices - 1 })
          deviceToGroup := Function.update s.deviceToGroup m.dev none } := by
        simp [iommuGroupRemoveDevice, hg, hmembers]
      rw [hremove]
      rw [hmembers, List.length_cons] at hn
      have hset := h.setGroup hg
        (show IommuGroup.defaultDomain { g with members := rest, ndevices := g.ndevices - 1 } =
          g.defaultDomain from rfl) (Function.update s.deviceToGroup m.dev none)
      obtain ⟨g', map, heq, hdefault, hempty⟩ :=
        ih hset (Function.update_self ..) (Nat.le_of_succ_le_succ hn)
      refine ⟨g', map, ?_, hdefault, hempty⟩
      rw [heq]
      simp

/-- The first loop of a shutdown that finds at most one group. -/
theorem shutdown_groups {s : IommuRegistry} (h : Listed s) (hle : s.groups.length ≤ 1) :
    ∃ s', loop groups shutdownGroup s.groups.length 0 s = s' ∧ Listed s' ∧ s'.groups = [] ∧
      s'.domains = s.domains.filter fun d => decide (d ∉ s.defaultDomains) := by
  refine ⟨_, rfl, ?_⟩
  cases hgroups : s.groups with
  | nil =>
    refine ⟨h, hgroups, ?_⟩
    simp [loop, defaultDomains, hgroups]
  | cons a rest =>
    have hrest : rest = [] := by
      rw [hgroups, List.length_cons] at hle
      exact List.length_eq_zero_iff.mp (by omega)
    subst hrest
    obtain ⟨g, hg⟩ := Option.isSome_iff_exists.mp
      ((h.groupsLive a).mp (by rw [hgroups]; exact List.mem_singleton_self a))
    obtain ⟨g', map, hremoved, hdefault, -⟩ := removeMembers_spec g.members.length h hg (le_refl _)
    have hloop : loop groups shutdownGroup [a].length 0 s =
        (removeMembers a g.members.length s).iommuGroupFree (some a) := by
      simp [loop, hgroups, shutdownGroup, hg]
    have hlisted := h.setGroup hg hdefault map
    have hg' : (Function.update s.liveGroup a (some g') : ℕ → Option IommuGroup) a = some g' :=
      Function.update_self ..
    rw [hloop, hremoved]
    refine ⟨listed_groupFree hlisted hg', ?_, ?_⟩
    · rw [groupFree_live hlisted hg']
      simp [hgroups]
    · rw [groupFree_live hlisted hg', hdefault]
      cases hd : g.defaultDomain with
      | none => simp [defaultDomains, hgroups, hg, hd]
      | some d =>
        simp only [defaultDomains, hgroups, List.filterMap_cons, hg, Option.bind_some, hd,
          List.filterMap_nil, List.mem_singleton]
        rw [h.domainsNodup.erase_eq_filter]
        exact List.filter_congr fun x _ => by simp [bne, beq_eq_decide]

/-- The second loop, with at most one domain. -/
theorem shutdown_domains {s : IommuRegistry} (h : Listed s) (hgroups : s.groups = [])
    (hle : s.domains.length ≤ 1) :
    ∃ s', loop domains (fun s d => s.iommuDomainFree (some d)) s.domains.length 0 s = s' ∧
      Listed s' ∧ s'.groups = [] ∧ s'.domains = [] := by
  refine ⟨_, rfl, ?_⟩
  cases hdomains : s.domains with
  | nil => exact ⟨h, hgroups, hdomains⟩
  | cons d rest =>
    have hrest : rest = [] := by
      rw [hdomains, List.length_cons] at hle
      exact List.length_eq_zero_iff.mp (by omega)
    subst hrest
    have hlive := (h.domainsLive d).mp (by rw [hdomains]; exact List.mem_singleton_self d)
    have hloop : loop domains (fun s d => s.iommuDomainFree (some d)) [d].length 0 s =
        s.iommuDomainFree (some d) := by
      simp [loop, hdomains]
    have hdefault : d ∉ s.defaultDomains := by simp [defaultDomains, hgroups]
    rw [hloop]
    refine ⟨listed_domainFree h hlive hdefault, ?_, ?_⟩
    · rw [domainFree_live hlive]
      exact hgroups
    · rw [domainFree_live hlive]
      simp [hdomains]

/-- Where nothing is listed, nothing is live. -/
theorem Listed.empty {s : IommuRegistry} (h : Listed s) (hgroups : s.groups = [])
    (hdomains : s.domains = []) (hmap : ∀ dev, s.deviceToGroup dev = none) : Empty s where
  groups := hgroups
  domains := hdomains
  deviceToGroup := hmap
  liveGroup := by
    intro a
    have hiff := h.groupsLive a
    rw [hgroups] at hiff
    simpa using hiff
  liveDomain := by
    intro d
    have hiff := h.domainsLive d
    rw [hdomains] at hiff
    simpa using hiff

/-- A shutdown leaves nothing, when it finds no more than its loops can free. -/
theorem shutdown_empty {s : IommuRegistry} (h : RegistryInv s) (hG : s.sparesRegistry .shutdown) :
    Empty s.iommuEmuShutdown ∧ Listed s.iommuEmuShutdown := by
  unfold sparesRegistry at hG
  rw [iommuEmuShutdown]
  by_cases hinit : s.initialized = true
  swap
  · rw [if_neg hinit] at hG
    rw [if_pos (by simpa using hinit)]
    refine ⟨h.toListed.empty hG.1 hG.2 fun dev => ?_, h.toListed⟩
    cases hdev : s.deviceToGroup dev with
    | none => rfl
    | some a =>
      have hlisted := (h.groupsLive a).mpr (h.mapLive dev a hdev)
      rw [hG.1] at hlisted
      cases hlisted
  rw [if_pos hinit] at hG
  rw [if_neg (by simpa using hinit)]
  obtain ⟨s₁, hs₁, hlisted₁, hgroups₁, hdomains₁⟩ := shutdown_groups h.toListed hG.1
  have hsame : { s₁ with groups := [] } = s₁ := by rw [← hgroups₁]
  obtain ⟨s₂, hs₂, hlisted₂, hgroups₂, hdomains₂⟩ := shutdown_domains hlisted₁ hgroups₁
    (by rw [hdomains₁]; exact hG.2)
  simp only [hs₁, hsame, hs₂]
  obtain ⟨initialized, domains, groups, deviceToGroup, liveGroup, liveDomain, undefined⟩ := s₂
  obtain rfl : domains = [] := hdomains₂
  have hlisted : Listed ⟨false, [], groups, fun _ => none, liveGroup, liveDomain, undefined⟩ :=
    ⟨hlisted₂.defined, hlisted₂.groupsNodup, hlisted₂.groupsLive, hlisted₂.domainsNodup,
      hlisted₂.domainsLive, hlisted₂.defaultLive, hlisted₂.defaultOwn⟩
  exact ⟨hlisted.empty hgroups₂ rfl fun _ => rfl, hlisted⟩

/-- Where nothing is live, the places agree. -/
theorem Listed.inv_of_empty {s : IommuRegistry} (h : Listed s) (hempty : Empty s) :
    RegistryInv s := by
  refine ⟨h, fun a g hg => ?_, fun dev a hdev => ?_⟩
  · rw [hempty.liveGroup a] at hg
    cases hg
  · rw [hempty.deviceToGroup dev] at hdev
    cases hdev

/-! ### The result -/

theorem registryInv_addDeviceCall {s : IommuRegistry} (h : RegistryInv s)
    (group dev mem : Option ℕ) (hproper : s.properCall (.addDevice group dev mem)) :
    RegistryInv (s.step (.addDevice group dev mem)) := by
  cases group with
  | none => exact h
  | some a =>
    obtain ⟨g, hg⟩ := Option.isSome_iff_exists.mp (hproper a rfl)
    cases dev with
    | none => exact h
    | some dev =>
      simp only [step, iommuGroupAddDevice]
      split_ifs with hbusy
      · exact h
      · cases mem with
        | none => exact h
        | some member =>
          simp only [hg]
          exact registryInv_addDevice h hg (by simpa using hbusy) member

/-- No member leaves the group. -/
theorem registryInv_removeDevice {s : IommuRegistry} (h : RegistryInv s) (group dev : Option ℕ)
    (hproper : s.properCall (.removeDevice group dev))
    (hspares : s.sparesRegistry (.removeDevice group dev)) :
    RegistryInv (s.step (.removeDevice group dev)) := by
  cases group with
  | none => exact h
  | some a =>
    obtain ⟨g, hg⟩ := Option.isSome_iff_exists.mp (hproper a rfl)
    cases dev with
    | none => exact h
    | some dev =>
      have hnot : ¬(g.members.any fun m => decide (m.dev = dev)) = true := by
        intro hany
        obtain ⟨m, hm, hdev⟩ := List.any_eq_true.mp hany
        exact hspares a rfl dev rfl
          (((h.agree a g hg).mapped dev).mpr ⟨m, hm, of_decide_eq_true hdev⟩)
      simp only [step, iommuGroupRemoveDevice, hg, if_neg hnot]
      exact h

theorem registryInv_domainFree {s : IommuRegistry} (h : RegistryInv s) {d : ℕ}
    (hlive : s.liveDomain d = true) (hdefault : d ∉ s.defaultDomains) :
    RegistryInv (s.iommuDomainFree (some d)) := by
  refine ⟨listed_domainFree h.toListed hlive hdefault, ?_, ?_⟩
  · rw [domainFree_live hlive]
    intro a g hg
    exact (h.agree a g hg).of_map rfl
  · rw [domainFree_live hlive]
    exact h.mapLive

theorem registryInv_step {s : IommuRegistry} (h : RegistryInv s) (op : RegistryOp)
    (hproper : s.properCall op) (hspares : s.sparesRegistry op) : RegistryInv (s.step op) := by
  cases op with
  | init =>
    exact ⟨⟨h.defined, h.groupsNodup, h.groupsLive, h.domainsNodup, h.domainsLive, h.defaultLive,
      h.defaultOwn⟩, fun a g hg => (h.agree a g hg).of_map rfl, h.mapLive⟩
  | shutdown =>
    obtain ⟨hempty, hlisted⟩ := shutdown_empty h hspares
    exact hlisted.inv_of_empty hempty
  | groupAlloc mem =>
    cases mem with
    | none => exact h
    | some a => exact registryInv_groupAlloc h (hproper a rfl)
  | groupFree group =>
    cases group with
    | none => exact h
    | some a =>
      obtain ⟨g, hg, hempty⟩ := Option.map_eq_some_iff.mp (hproper a rfl)
      exact registryInv_groupFree h hg hempty
  | addDevice group dev mem => exact registryInv_addDeviceCall h group dev mem hproper
  | removeDevice group dev => exact registryInv_removeDevice h group dev hproper hspares
  | domainAlloc mem =>
    cases mem with
    | none => exact h
    | some d => exact registryInv_domainAlloc h (hproper d rfl)
  | domainFree domain =>
    cases domain with
    | none => exact h
    | some d => exact registryInv_domainFree h (hproper d rfl) (hspares d rfl)
  | registerPciDevice dev mem => exact registryInv_register h dev mem hproper hspares
  | unregisterPciDevice dev =>
    cases dev with
    | none => exact h
    | some dev =>
      simp only [step, iommuUnregisterPciDevice]
      by_cases hinit : s.initialized = true
      · rw [if_neg (by simpa using hinit), hspares hinit dev rfl]
        exact h
      · rw [if_pos (by simpa using hinit)]
        exact h

end IommuRegistry

abbrev recordedRegistry := observed IommuRegistry.step IommuRegistry.noteShutdown

theorem registryLaw_step (x : List IommuRegistry × IommuRegistry) (op : RegistryOp)
    (h : RegistryInv x.2 ∧ ∀ s ∈ x.1, s.Empty)
    (hG : x.2.properCall op ∧ x.2.sparesRegistry op) :
    RegistryInv (recordedRegistry x op).2 ∧ ∀ s ∈ (recordedRegistry x op).1, s.Empty := by
  refine ⟨registryInv_step h.1 op hG.1 hG.2, ?_⟩
  cases op with
  | shutdown =>
    intro s hs
    rcases List.mem_cons.mp hs with rfl | hs
    · exact (shutdown_empty h.1 hG.2).1
    · exact h.2 s hs
  | init | groupAlloc _ | groupFree _ | addDevice _ _ _ | removeDevice _ _ | domainAlloc _
  | domainFree _ | registerPciDevice _ _ | unregisterPciDevice _ => exact h.2

/-- **The registry.**  In a run of proper calls that spares the registry, the four places of every
member agree in every state, and every shutdown frees every group and domain once. -/
theorem registry_consistent (ops : List RegistryOp)
    (hproper : Guarded IommuRegistry.step IommuRegistry.properCall .boot ops)
    (hspares : Guarded IommuRegistry.step IommuRegistry.sparesRegistry .boot ops) :
    Always recordedRegistry RegistryLaw ([], .boot) ops := by
  have hG := hproper.and _ hspares
  rw [← guarded_observed IommuRegistry.step IommuRegistry.noteShutdown _ ([], .boot)] at hG
  have hinv := always_of_inductive
    (I := fun x : List IommuRegistry × IommuRegistry => RegistryInv x.2 ∧ ∀ s ∈ x.1, s.Empty)
    registryLaw_step ⟨registryInv_boot, fun _ h => by cases h⟩ hG
  exact Always.mono recordedRegistry
    (fun _ h => ⟨h.1.defined, h.1.agree, h.1.mapLive, h.2⟩) hinv

/-- A device is registered, a domain allocated, and everything shut down and started again. -/
theorem registry_consistent_run : Always recordedRegistry RegistryLaw ([], .boot)
    [.init, .registerPciDevice (some 7) ⟨some 1, some 2, some 3⟩, .domainAlloc (some 4),
      .shutdown, .init, .groupAlloc (some 1)] :=
  registry_consistent _ (by decide +kernel) (by decide +kernel)

/-- A device that is registered and unregistered stays in the vector of its group. -/
theorem registry_consistent_fails : ¬Always recordedRegistry RegistryLaw ([], .boot)
    [.init, .registerPciDevice (some 7) ⟨some 1, some 2, some 3⟩,
      .unregisterPciDevice (some 7)] := by
  intro h
  have hagree := (Always.last _ h).agree 1 ⟨0, [], some 3, [2]⟩ (by decide +kernel)
  have hlength := hagree.vector.length_eq
  cases hlength

end UsrLinuxEmu.Iommu
