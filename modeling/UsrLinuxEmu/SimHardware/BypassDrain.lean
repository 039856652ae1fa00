import Mathlib.Data.List.Count
import UsrLinuxEmu.SimHardware.Topology
import UsrLinuxEmu.Transition.Run
import UsrLinuxEmu.Transition.Simulation

/-!
# Switching the bypass mode (`sim_hardware/src/pcie/bypass.cpp`)

An access reads the mode in the host bridge and opens a TLP only later, in the bridge, and there
only on the mock backend.  A switch that drains waits for the count of open TLPs and then stores the
mode; one that aborts stores zero in the count.

* `BypassState.step` — threads that access bridges and threads that switch, one atomic step at a
  time;
* `DrainLaw` — the count is the number of open TLPs, and an access that read the mode before the
  store of a drained switch has no effect after the switch has returned;
* `DrainHistory`, `noteDrain` — the accesses that a drain does not wait for: at its zero check they
  have read the mode and are not counted, or they read the mode after the check and before the
  store;
* `drains` — an abort finds no open TLP, and no such access is left when a drained switch returns;
* `bypass_drain_iff` — the law holds along a run exactly when that does.
-/

namespace UsrLinuxEmu.SimHardware

open UsrLinuxEmu.Transition

/-! ### Accesses -/

inductive CpptlmBackendKind where
  | kMock
  | kCpptlm
  deriving DecidableEq, Repr

inductive AccessDirection where
  | read
  | write
  deriving DecidableEq, Repr

/-- The arguments of an access to a BAR; `buf` tells whether the pointer is not null. -/
structure BarArgs where
  bar : UInt8
  offset : UInt64
  buf : Bool
  len : UInt64
  deriving DecidableEq, Repr

/-- The accessors of `CpptlmBridge`; `value` tells whether the pointer of `config_read` is not
null. -/
inductive BridgeAccess where
  | mmio (direction : AccessDirection) (args : BarArgs)
  | backdoor (direction : AccessDirection) (args : BarArgs)
  | config (direction : AccessDirection) (offset : UInt16) (value : Bool)
  deriving DecidableEq, Repr

def validMmio (bar : UInt8) (offset len : UInt64) : Bool :=
  if bar ≥ 6 then false
  else if len = 0 then false
  else if len > 4096 then false
  else if offset > 4096 then false
  else if len > 4096 - offset then false
  else if len ≠ 1 ∧ len ≠ 2 ∧ len ≠ 4 ∧ len ≠ 8 then false
  else if offset % len ≠ 0 then false
  else if offset + len < offset then false
  else true

def BridgeAccess.valid : BridgeAccess → Bool
  | .mmio _ args | .backdoor _ args => args.buf && validMmio args.bar args.offset args.len
  | .config .read offset value => value && !decide (offset > 4092)
  | .config .write offset _ => !decide (offset > 4092)

/-- The bridges while the accesses run.  `emulator` says that the library is resolved and that the
bridge has an emulator; `library` is what the library's accessors return. -/
structure Bridges where
  active : Option ℕ
  initialized : ℕ → Bool
  backend : ℕ → CpptlmBackendKind
  emulator : ℕ → Bool
  library : BridgeAccess → Int

def eNODEV : Int := 19
def eNOSYS : Int := 38
def eACCES : Int := 13
def eBUSY : Int := 16

/-- What an access does once it holds the bridge's mutex. -/
inductive AccessPath where
  | fails (rc : Int)
  /-- The library's accessor, without a TLP. -/
  | library (rc : Int)
  /-- The copy, within a TLP. -/
  | tlp
  deriving DecidableEq, Repr

def Bridges.path (br : Bridges) (bridge : ℕ) (access : BridgeAccess) : AccessPath :=
  if !br.initialized bridge then .fails (-eNODEV)
  else if !access.valid then .fails (-eINVAL)
  else
    match access, br.backend bridge with
    | .config .., _ => .tlp
    | .mmio .., .kMock => .tlp
    | .backdoor .., .kMock => .fails (-eNOSYS)
    | .mmio .., .kCpptlm | .backdoor .., .kCpptlm =>
      if !br.emulator bridge then .fails (-eNOSYS) else .library (br.library access)

def AccessPath.takesEffect : AccessPath → Bool
  | .fails _ => false
  | .library _ | .tlp => true

/-- The switch in `host_bridge_bypass_write` and `host_bridge_bypass_read`. -/
def routedAccess (mode : BypassMode) (direction : AccessDirection) (args : BarArgs) :
    BridgeAccess :=
  match mode with
  | .kFull | .kPartial => .mmio direction args
  | .kBypass => .backdoor direction args

/-! ### Threads -/

inductive BypassCall where
  /-- `host_bridge_bypass_read` and `host_bridge_bypass_write`. -/
  | hostBridge (direction : AccessDirection) (args : BarArgs)
  /-- An accessor called on a bridge, which reads no mode. -/
  | bridge (bridge : ℕ) (access : BridgeAccess)
  | applyMode (mode : BypassMode) (policy : DrainPolicy)
  deriving DecidableEq, Repr

/-- Where a thread is.  `routed` is the epoch in which the access read the mode, if it did. -/
inductive BypassPc where
  | idle
  | returned (rc : Int)
  | readMode (bridge : ℕ) (direction : AccessDirection) (args : BarArgs)
  | lockImpl (bridge : ℕ) (access : BridgeAccess) (routed : Option ℕ)
  | inImpl (bridge : ℕ) (access : BridgeAccess) (routed : Option ℕ)
  | inTlp (bridge : ℕ) (access : BridgeAccess) (routed : Option ℕ)
  | exitTlp (bridge : ℕ)
  | leaveImpl (bridge : ℕ) (rc : Int)
  /-- The abort, before the store of zero and before the store of the mode. -/
  | abortCount (mode : BypassMode)
  | abortMode (mode : BypassMode)
  /-- The drain: its loop, the store of the mode, and the return from the switch that made the
  epoch. -/
  | drain (mode : BypassMode) (timeoutMs : Int)
  | storeMode (mode : BypassMode)
  | applied (epoch : ℕ)
  deriving DecidableEq, Repr

namespace BypassPc

/-- The thread is between `bypass_enter_tlp` and `bypass_exit_tlp`. -/
def openTlp : BypassPc → Bool
  | .inTlp .. | .exitTlp _ => true
  | _ => false

/-- The epoch in which an access that is still to have its effect read the mode. -/
def underWay (br : Bridges) : BypassPc → Option ℕ
  | .lockImpl bridge access routed | .inImpl bridge access routed =>
    if (br.path bridge access).takesEffect then routed else none
  | .inTlp _ _ routed => routed
  | _ => none

theorem underWay_inImpl {br : Bridges} {bridge : ℕ} {access : BridgeAccess} (routed : Option ℕ)
    (h : (br.path bridge access).takesEffect = true) :
    underWay br (.inImpl bridge access routed) = routed :=
  if_pos h

theorem underWay_unrouted (br : Bridges) (bridge : ℕ) (access : BridgeAccess) :
    underWay br (.lockImpl bridge access none) = none := by
  rw [underWay, ite_self]

theorem mem_routed {br : Bridges} {bridge : ℕ} {access : BridgeAccess} {routed : Option ℕ}
    {r : ℕ} (hr : r ∈ underWay br (.lockImpl bridge access routed)) : r ∈ routed := by
  rw [underWay] at hr
  split_ifs at hr
  · exact hr
  · cases hr

end BypassPc

/-- An access had its effect: the epoch in which it read the mode, if it did, and the epoch of the
last drained switch that had returned. -/
structure AccessEffect where
  bridge : ℕ
  access : BridgeAccess
  routed : Option ℕ
  drained : ℕ
  deriving DecidableEq, Repr

/-- `epoch` counts the stores of `g_mode`; `drained` and `effects` are what the law looks at. -/
structure BypassState where
  mode : BypassMode
  inFlightTlps : UInt64
  drainTimeoutMs : Int
  testScope : Bool
  implOwner : ℕ → Option ℕ
  threads : List BypassPc
  epoch : ℕ
  drained : ℕ
  effects : List AccessEffect

inductive BypassOp where
  | setDrainTimeout (ms : Int)
  | setTestScope (inTestScope : Bool)
  | call (thread : ℕ) (call : BypassCall)
  /-- `late`: the deadline of the drain has passed. -/
  | advance (thread : ℕ) (late : Bool)
  deriving DecidableEq, Repr

namespace BypassState

/-- Some threads, before their first call. -/
def initial (threads : ℕ) : BypassState :=
  ⟨.kFull, 0, 0, false, fun _ => none, List.replicate threads .idle, 0, 0, []⟩

def goto (s : BypassState) (t : ℕ) (pc : BypassPc) : BypassState :=
  { s with threads := s.threads.set t pc }

/-- The start of a call. -/
def start (br : Bridges) (s : BypassState) : BypassCall → BypassPc
  | .hostBridge direction args =>
    match br.active with
    | none => .returned (-eINVAL)
    | some bridge => .readMode bridge direction args
  | .bridge bridge access => .lockImpl bridge access none
  | .applyMode mode .kImmediateAbort =>
    if !s.testScope then .returned (-eACCES) else .abortCount mode
  | .applyMode mode .kGracefulDrain => .drain mode s.drainTimeoutMs

/-- The effect of an access. -/
def record (s : BypassState) (bridge : ℕ) (access : BridgeAccess) (routed : Option ℕ) :
    BypassState :=
  { s with effects := ⟨bridge, access, routed, s.drained⟩ :: s.effects }

/-- What a thread that is there does next. -/
def advanceAt (br : Bridges) (s : BypassState) (t : ℕ) (late : Bool) : BypassPc → BypassState
  | .idle | .returned _ => s
  | .readMode bridge direction args =>
    s.goto t (.lockImpl bridge (routedAccess s.mode direction args) (some s.epoch))
  | .lockImpl bridge access routed =>
    if s.implOwner bridge = none then
      { s with implOwner := Function.update s.implOwner bridge (some t) }.goto t
        (.inImpl bridge access routed)
    else s
  | .inImpl bridge access routed =>
    match br.path bridge access with
    | .fails rc => s.goto t (.leaveImpl bridge rc)
    | .library rc => (s.record bridge access routed).goto t (.leaveImpl bridge rc)
    | .tlp => { s with inFlightTlps := s.inFlightTlps + 1 }.goto t (.inTlp bridge access routed)
  | .inTlp bridge access routed => (s.record bridge access routed).goto t (.exitTlp bridge)
  | .exitTlp bridge =>
    { s with inFlightTlps := s.inFlightTlps - 1 }.goto t (.leaveImpl bridge 0)
  | .leaveImpl bridge rc =>
    { s with implOwner := Function.update s.implOwner bridge none }.goto t (.returned rc)
  | .abortCount mode => { s with inFlightTlps := 0 }.goto t (.abortMode mode)
  | .abortMode mode => { s with mode := mode, epoch := s.epoch + 1 }.goto t (.returned 0)
  | .drain mode timeoutMs =>
    if s.inFlightTlps = 0 then s.goto t (.storeMode mode)
    else if timeoutMs ≠ 0 ∧ late then s.goto t (.returned (-eBUSY))
    else s
  | .storeMode mode => { s with mode := mode, epoch := s.epoch + 1 }.goto t (.applied (s.epoch + 1))
  | .applied epoch => { s with drained := max s.drained epoch }.goto t (.returned 0)

def step (br : Bridges) (s : BypassState) : BypassOp → BypassState
  | .setDrainTimeout ms => { s with drainTimeoutMs := ms }
  | .setTestScope inTestScope => { s with testScope := inTestScope }
  | .call t call =>
    match s.threads[t]? with
    | some .idle | some (.returned _) => s.goto t (s.start br call)
    | _ => s
  | .advance t late =>
    match s.threads[t]? with
    | some pc => s.advanceAt br t late pc
    | none => s

/-! ### The property -/

/-- The TLPs that were entered and not yet exited. -/
def openTlps (s : BypassState) : ℕ := s.threads.countP BypassPc.openTlp

/-- The count is right; no access had an effect, and none is still to have one, that read the mode
before the store of a drained switch that had returned. -/
structure DrainLaw (br : Bridges) (s : BypassState) : Prop where
  count : s.inFlightTlps.toNat = s.openTlps
  effects : ∀ e ∈ s.effects, ∀ r ∈ e.routed, e.drained ≤ r
  underWay : ∀ pc ∈ s.threads, ∀ r ∈ pc.underWay br, s.drained ≤ r

/-! ### The condition -/

/-- The access has read the mode, and no TLP of it is counted. -/
def uncounted (br : Bridges) (pc : BypassPc) : Bool := (pc.underWay br).isSome && !pc.openTlp

/-- The switch is between its zero check and its store. -/
def isChecked : BypassPc → Bool
  | .storeMode _ => true
  | _ => false

/-- For each switching thread, the threads whose accesses its drain has not waited for. -/
abbrev DrainHistory := ℕ → List ℕ

namespace DrainHistory

/-- The zero check of thread `t` does not see the accesses that are not counted. -/
def check (g : DrainHistory) (br : Bridges) (s : BypassState) (t : ℕ) : DrainHistory :=
  Function.update g t
    ((List.range s.threads.length).filter fun a => s.threads[a]?.any (uncounted br))

/-- Thread `t` reads the mode: no switch between its check and its store waits for it. -/
def routed (g : DrainHistory) (s : BypassState) (t : ℕ) : DrainHistory := fun d =>
  if s.threads[d]?.any isChecked then t :: g d else g d

/-- The access of thread `t` has its effect. -/
def done (g : DrainHistory) (t : ℕ) : DrainHistory := fun d => (g d).filter fun a => a ≠ t

end DrainHistory

def noteAdvance (br : Bridges) (g : DrainHistory) (s : BypassState) (t : ℕ) :
    BypassPc → DrainHistory
  | .drain .. => if s.inFlightTlps = 0 then g.check br s t else g
  | .readMode bridge direction args =>
    if (br.path bridge (routedAccess s.mode direction args)).takesEffect then g.routed s t else g
  | .inTlp .. => g.done t
  | .inImpl bridge access _ =>
    match br.path bridge access with
    | .library _ => g.done t
    | .fails _ | .tlp => g
  | _ => g

def noteDrain (br : Bridges) (g : DrainHistory) (s : BypassState) : BypassOp → DrainHistory
  | .advance t _ =>
    match s.threads[t]? with
    | some pc => noteAdvance br g s t pc
    | none => g
  | _ => g

/-- The condition on the step of thread `t`, which is there. -/
def drainsAt (br : Bridges) (g : DrainHistory) (s : BypassState) (t : ℕ) : BypassPc → Prop
  | .inImpl bridge access _ => br.path bridge access = .tlp → s.inFlightTlps ≠ 0xFFFFFFFFFFFFFFFF
  | .abortCount _ => s.inFlightTlps = 0
  | .applied _ => g t = []
  | _ => True

/-- An abort finds the count at zero, a drained switch returns when every access that it has not
waited for has had its effect, and the count has room for the next TLP. -/
def drains (br : Bridges) (x : DrainHistory × BypassState) : BypassOp → Prop
  | .advance t _ => ∀ pc ∈ x.2.threads[t]?, x.2.drainsAt br x.1 t pc
  | _ => True

/-! ### What the law needs of a step -/

/-- The step of a thread that is there keeps the law. -/
def settlesAt (br : Bridges) (s : BypassState) : BypassPc → Prop
  | .inImpl bridge access _ => br.path bridge access = .tlp → s.inFlightTlps ≠ 0xFFFFFFFFFFFFFFFF
  | .abortCount _ => s.inFlightTlps = 0
  | .applied epoch => ∀ pc ∈ s.threads, ∀ r ∈ pc.underWay br, epoch ≤ r
  | _ => True

def settles (br : Bridges) (s : BypassState) : BypassOp → Prop
  | .advance t _ => ∀ pc ∈ s.threads[t]?, s.settlesAt br pc
  | _ => True

structure DrainInv (br : Bridges) (s : BypassState) : Prop extends DrainLaw br s where
  drained : s.drained ≤ s.epoch
  applied : ∀ epoch, .applied epoch ∈ s.threads → epoch ≤ s.epoch
  routed : ∀ pc ∈ s.threads, ∀ r ∈ pc.underWay br, r ≤ s.epoch

theorem drainInv_initial (br : Bridges) (threads : ℕ) : DrainInv br (initial threads) where
  count := by
    rw [openTlps, initial, List.countP_replicate]
    rfl
  effects := fun _ h => by cases h
  underWay := by
    intro pc hpc r hr
    rw [(List.mem_replicate.mp hpc).2] at hr
    cases hr
  drained := le_refl _
  applied := fun epoch h => by cases (List.mem_replicate.mp h).2
  routed := by
    intro pc hpc r hr
    rw [(List.mem_replicate.mp hpc).2] at hr
    cases hr

/-- The open TLPs after a thread has moved. -/
theorem countP_openTlp_set {threads : List BypassPc} {t : ℕ} {old : BypassPc}
    (hget : threads[t]? = some old) (pc : BypassPc) :
    (threads.set t pc).countP BypassPc.openTlp + old.openTlp.toNat =
      threads.countP BypassPc.openTlp + pc.openTlp.toNat := by
  obtain ⟨hlt, hold⟩ := List.getElem?_eq_some_iff.mp hget
  have hset := List.countP_set (p := BypassPc.openTlp) (a := pc) hlt
  rw [hold] at hset
  have hpos : old.openTlp = true → 0 < threads.countP BypassPc.openTlp := by
    intro hopen
    exact List.countP_pos_iff.mpr ⟨old, List.mem_of_getElem? hget, hopen⟩
  cases hold : old.openTlp with
  | false => cases hpc : pc.openTlp <;> simp [hold, hpc] at hset ⊢ <;> omega
  | true =>
    have hsome := hpos hold
    cases hpc : pc.openTlp <;> simp [hold, hpc] at hset ⊢ <;> omega

/-- A thread moves, and the rest of the state with it. -/
theorem DrainInv.move {br : Bridges} {s s' : BypassState} (h : DrainInv br s)
    {t : ℕ} {old pc : BypassPc} (hget : s.threads[t]? = some old)
    (hthreads : s'.threads = s.threads.set t pc)
    (hcount : s'.inFlightTlps.toNat + old.openTlp.toNat =
      s.inFlightTlps.toNat + pc.openTlp.toNat)
    (heffects : ∀ e ∈ s'.effects, e ∈ s.effects ∨ ∀ r ∈ e.routed, e.drained ≤ r)
    (hothers : ∀ pc ∈ s.threads, ∀ r ∈ pc.underWay br, s'.drained ≤ r)
    (hself : ∀ r ∈ pc.underWay br, s'.drained ≤ r ∧ r ≤ s'.epoch) (hepoch : s.epoch ≤ s'.epoch)
    (hdrained : s'.drained ≤ s'.epoch) (happlied : ∀ epoch, pc = .applied epoch →
      epoch ≤ s'.epoch) : DrainInv br s' where
  count := by
    have hset := countP_openTlp_set hget pc
    have hbefore := h.count
    rw [openTlps] at hbefore ⊢
    rw [hthreads]
    omega
  effects := by
    intro e he
    rcases heffects e he with hold | hnew
    · exact h.effects e hold
    · exact hnew
  underWay := by
    intro x hx
    rw [hthreads] at hx
    rcases List.mem_or_eq_of_mem_set hx with hold | rfl
    · exact hothers x hold
    · exact fun r hr => (hself r hr).1
  drained := hdrained
  applied := by
    intro epoch hx
    rw [hthreads] at hx
    rcases List.mem_or_eq_of_mem_set hx with hold | hnew
    · exact (h.applied epoch hold).trans hepoch
    · exact happlied epoch hnew.symm
  routed := by
    intro x hx r hr
    rw [hthreads] at hx
    rcases List.mem_or_eq_of_mem_set hx with hold | rfl
    · exact (h.routed x hold r hr).trans hepoch
    · exact (hself r hr).2

/-- A thread moves without touching the count, the mode or the effects. -/
theorem DrainInv.goto {br : Bridges} {s : BypassState} (h : DrainInv br s) {t : ℕ}
    {old pc : BypassPc} (hget : s.threads[t]? = some old) (implOwner : ℕ → Option ℕ)
    (hopen : pc.openTlp = old.openTlp)
    (hself : ∀ r ∈ pc.underWay br, s.drained ≤ r ∧ r ≤ s.epoch)
    (happlied : ∀ epoch, pc = .applied epoch → epoch ≤ s.epoch) :
    DrainInv br ({ s with implOwner := implOwner }.goto t pc) :=
  h.move hget rfl (by rw [hopen]; rfl) (fun _ he => .inl he) h.underWay hself (le_refl _)
    h.drained happlied

/-- An access has its effect. -/
theorem DrainInv.record {br : Bridges} {s : BypassState} (h : DrainInv br s)
    {t bridge : ℕ} {access : BridgeAccess} {routed : Option ℕ} {old pc : BypassPc}
    (hget : s.threads[t]? = some old) (hrouted : old.underWay br = routed)
    (hopen : pc.openTlp = old.openTlp) (hpc : pc.underWay br = none)
    (happlied : ∀ epoch, pc ≠ .applied epoch) :
    DrainInv br ((s.record bridge access routed).goto t pc) := by
  refine h.move hget rfl (by rw [hopen]; rfl) ?_ h.underWay ?_ (le_refl _) h.drained
    fun epoch hp => absurd hp (happlied epoch)
  · intro e he
    rcases List.mem_cons.mp he with rfl | hold
    · right
      intro r hr
      exact h.underWay old (List.mem_of_getElem? hget) r (hrouted ▸ hr)
    · exact .inl hold
  · rw [hpc]
    intro r hr
    cases hr

theorem drainInv_inImpl {br : Bridges} {s : BypassState} (h : DrainInv br s) {t bridge : ℕ}
    {access : BridgeAccess} {routed : Option ℕ} (late : Bool)
    (hget : s.threads[t]? = some (.inImpl bridge access routed))
    (hG : s.settlesAt br (.inImpl bridge access routed)) :
    DrainInv br (s.advanceAt br t late (.inImpl bridge access routed)) := by
  rw [advanceAt]
  cases hpath : br.path bridge access with
  | fails rc =>
    exact h.goto hget s.implOwner rfl (fun r hr => by cases hr) fun _ hp => by cases hp
  | library rc =>
    have hrouted := BypassPc.underWay_inImpl routed (by rw [hpath]; rfl)
    exact h.record hget hrouted rfl rfl fun _ hp => by cases hp
  | tlp =>
    have hroom : s.inFlightTlps ≠ 0xFFFFFFFFFFFFFFFF := hG hpath
    have hrouted := BypassPc.underWay_inImpl routed (by rw [hpath]; rfl)
    refine h.move hget rfl ?_ (fun _ he => .inl he) h.underWay ?_ (le_refl _) h.drained
      fun _ hp => by cases hp
    · show (s.inFlightTlps + 1).toNat + 0 = s.inFlightTlps.toNat + 1
      have hne : s.inFlightTlps.toNat ≠ 0xFFFFFFFFFFFFFFFF :=
        fun heq => hroom (UInt64.toNat_inj.mp heq)
      have hlt := s.inFlightTlps.toNat_lt
      rw [UInt64.toNat_add, show UInt64.toNat 1 = 1 from rfl]
      omega
    · intro r hr
      have hmem := List.mem_of_getElem? hget
      have hr' := hrouted.symm ▸ (hr : r ∈ routed)
      exact ⟨h.underWay _ hmem r hr', h.routed _ hmem r hr'⟩

theorem drainInv_advance {br : Bridges} {s : BypassState} (h : DrainInv br s) {t : ℕ} (late : Bool)
    {pc : BypassPc} (hget : s.threads[t]? = some pc) (hG : s.settlesAt br pc) :
    DrainInv br (s.advanceAt br t late pc) := by
  have hmem : pc ∈ s.threads := List.mem_of_getElem? hget
  cases pc with
  | idle => exact h
  | returned rc => exact h
  | readMode bridge direction args =>
    refine h.goto hget s.implOwner rfl ?_ fun _ hp => by cases hp
    intro r hr
    rw [← Option.some.inj (BypassPc.mem_routed hr)]
    exact ⟨h.drained, le_refl _⟩
  | lockImpl bridge access routed =>
    rw [advanceAt]
    split_ifs
    · refine h.goto hget _ rfl (fun r hr => ?_) fun _ hp => by cases hp
      exact ⟨h.underWay (.lockImpl bridge access routed) hmem r hr,
        h.routed (.lockImpl bridge access routed) hmem r hr⟩
    · exact h
  | inImpl bridge access routed => exact drainInv_inImpl h late hget hG
  | inTlp bridge access routed => exact h.record hget rfl rfl rfl fun _ hp => by cases hp
  | exitTlp bridge =>
    refine h.move hget rfl ?_ (fun _ he => .inl he) h.underWay (fun r hr => by cases hr)
      (le_refl _) h.drained fun _ hp => by cases hp
    -- the thread's own TLP is counted
    have hpos : 0 < s.openTlps := List.countP_pos_iff.mpr ⟨_, hmem, rfl⟩
    rw [← h.count] at hpos
    show (s.inFlightTlps - 1).toNat + 1 = s.inFlightTlps.toNat + 0
    have hone : (1 : UInt64) ≤ s.inFlightTlps := by
      rw [UInt64.le_iff_toNat_le]
      exact hpos
    rw [UInt64.toNat_sub_of_le _ _ hone, show UInt64.toNat 1 = 1 from rfl]
    omega
  | leaveImpl bridge rc =>
    exact h.goto hget _ rfl (fun r hr => by cases hr) fun _ hp => by cases hp
  | abortCount mode =>
    have hzero : s.inFlightTlps = 0 := hG
    refine h.move hget rfl ?_ (fun _ he => .inl he) h.underWay (fun r hr => by cases hr)
      (le_refl _) h.drained fun _ hp => by cases hp
    rw [hzero]
    rfl
  | abortMode mode =>
    exact h.move hget rfl rfl (fun _ he => .inl he) h.underWay (fun r hr => by cases hr)
      (Nat.le_succ _) (Nat.le_succ_of_le h.drained) fun _ hp => by cases hp
  | drain mode timeoutMs =>
    rw [advanceAt]
    split_ifs
    · exact h.goto hget s.implOwner rfl (fun r hr => by cases hr) fun _ hp => by cases hp
    · exact h.goto hget s.implOwner rfl (fun r hr => by cases hr) fun _ hp => by cases hp
    · exact h
  | storeMode mode =>
    refine h.move hget rfl rfl (fun _ he => .inl he) h.underWay (fun r hr => by cases hr)
      (Nat.le_succ _) (Nat.le_succ_of_le h.drained) fun epoch hp => ?_
    cases hp
    exact le_refl _
  | applied epoch =>
    have hepoch := h.applied epoch hmem
    refine h.move hget rfl rfl (fun _ he => .inl he) ?_ (fun r hr => by cases hr) (le_refl _)
      (max_le h.drained hepoch) fun _ hp => by cases hp
    intro pc hpc r hr
    exact max_le (h.underWay pc hpc r hr) (hG pc hpc r hr)

/-- A call starts before every access and every store. -/
theorem start_parts (br : Bridges) (s : BypassState) (call : BypassCall) :
    (s.start br call).openTlp = false ∧ (s.start br call).underWay br = none ∧
      (∀ mode, s.start br call ≠ .storeMode mode) ∧
      ∀ epoch, s.start br call ≠ .applied epoch := by
  unfold start
  split
  · split
    · exact ⟨rfl, rfl, by simp, by simp⟩
    · exact ⟨rfl, rfl, by simp, by simp⟩
  · exact ⟨rfl, BypassPc.underWay_unrouted br _ _, by simp, by simp⟩
  · split
    · exact ⟨rfl, rfl, by simp, by simp⟩
    · exact ⟨rfl, rfl, by simp, by simp⟩
  · exact ⟨rfl, rfl, by simp, by simp⟩

theorem drainInv_step (br : Bridges) (s : BypassState) (op : BypassOp) (h : DrainInv br s)
    (hG : s.settles br op) : DrainInv br (s.step br op) := by
  cases op with
  | setDrainTimeout ms =>
    exact ⟨⟨h.count, h.effects, h.underWay⟩, h.drained, h.applied, h.routed⟩
  | setTestScope inTestScope =>
    exact ⟨⟨h.count, h.effects, h.underWay⟩, h.drained, h.applied, h.routed⟩
  | call t call =>
    have hstart : ∀ old, s.threads[t]? = some old → old.openTlp = false →
        DrainInv br (s.goto t (s.start br call)) := by
      intro old hget hold
      obtain ⟨hopen, hway, -, hnotStored⟩ := start_parts br s call
      refine h.goto hget s.implOwner (by rw [hopen, hold]) ?_ fun epoch hp =>
        absurd hp (hnotStored epoch)
      rw [hway]
      intro r hr
      cases hr
    rw [step]
    split
    case h_1 hget => exact hstart _ hget rfl
    case h_2 rc hget => exact hstart _ hget rfl
    case h_3 => exact h
  | advance t late =>
    rw [step]
    cases hget : s.threads[t]? with
    | none => exact h
    | some pc => exact drainInv_advance h late hget (hG pc hget)

/-- A step that does not settle breaks the law. -/
theorem settles_of_law (br : Bridges) (s : BypassState) (op : BypassOp) (h : DrainInv br s)
    (hnext : DrainLaw br (s.step br op)) : s.settles br op := by
  cases op with
  | setDrainTimeout ms => trivial
  | setTestScope inTestScope => trivial
  | call t call => trivial
  | advance t late =>
    intro pc hget
    have hafter : DrainLaw br (s.advanceAt br t late pc) := by
      have hsome : s.threads[t]? = some pc := hget
      rw [step, hsome] at hnext
      exact hnext
    have hcount := fun pc' => countP_openTlp_set hget pc'
    have hbefore := h.count
    rw [openTlps] at hbefore
    cases pc with
    | inImpl bridge access routed =>
      intro hpath hfull
      have hnow := hafter.count
      rw [advanceAt, hpath] at hnow
      have hset := hcount (.inTlp bridge access routed)
      simp only [goto, openTlps, hfull] at hnow
      rw [hfull] at hbefore
      simp only [BypassPc.openTlp, Bool.toNat_true, Bool.toNat_false] at hset
      have hwrap : ((0xFFFFFFFFFFFFFFFF : UInt64) + 1).toNat = 0 := rfl
      rw [hwrap] at hnow
      omega
    | abortCount mode =>
      have hnow := hafter.count
      have hset := hcount (.abortMode mode)
      simp only [advanceAt, goto, openTlps] at hnow
      simp only [BypassPc.openTlp, Bool.toNat_false] at hset
      show s.inFlightTlps = 0
      rw [← UInt64.toNat_inj]
      rw [show UInt64.toNat 0 = 0 from rfl] at hnow ⊢
      omega
    | applied epoch =>
      intro x hx r hr
      -- the access is another thread's, and still there
      have hstill : x ∈ s.threads.set t (.returned 0) := by
        obtain ⟨i, hi⟩ := List.mem_iff_getElem?.mp hx
        refine List.mem_iff_getElem?.mpr ⟨i, ?_⟩
        have hne : t ≠ i := by
          rintro rfl
          rw [show s.threads[t]? = some (.applied epoch) from hget] at hi
          rw [← Option.some.inj hi] at hr
          cases hr
        rw [List.getElem?_set_ne hne]
        exact hi
      exact (le_max_right _ _).trans (hafter.underWay x hstill r hr)
    | idle | returned _ | readMode _ _ _ | lockImpl _ _ _ | inTlp _ _ _ | exitTlp _
    | leaveImpl _ _ | abortMode _ | drain _ _ | storeMode _ => trivial

/-! ### What the history says -/

/-- Thread `a` is at an access that has read a mode and is still to have its effect. -/
def Pending (br : Bridges) (s : BypassState) (a : ℕ) : Prop :=
  ∃ pc ∈ s.threads[a]?, ∃ r, r ∈ pc.underWay br

/-- It has read the mode before the epoch. -/
def Earlier (br : Bridges) (s : BypassState) (epoch a : ℕ) : Prop :=
  ∃ pc ∈ s.threads[a]?, ∃ r ∈ pc.underWay br, r < epoch

theorem pending_iff {br : Bridges} {s : BypassState} {t : ℕ} {pc : BypassPc}
    (hget : s.threads[t]? = some pc) : s.Pending br t ↔ ∃ r, r ∈ pc.underWay br := by
  rw [Pending, hget]
  simp

theorem earlier_iff {br : Bridges} {s : BypassState} {t epoch : ℕ} {pc : BypassPc}
    (hget : s.threads[t]? = some pc) :
    s.Earlier br epoch t ↔ ∃ r ∈ pc.underWay br, r < epoch := by
  rw [Earlier, hget]
  simp

/-- The history keeps, for a switch that has checked, the accesses that are still to have their
effect, and for one that has stored, those of them that read the mode before. -/
structure Tracked (br : Bridges) (g : DrainHistory) (s : BypassState) : Prop where
  checked : ∀ d mode, s.threads[d]? = some (.storeMode mode) → ∀ a, a ∈ g d ↔ s.Pending br a
  stored : ∀ d epoch, s.threads[d]? = some (.applied epoch) → ∀ a, a ∈ g d ↔ s.Earlier br epoch a

theorem tracked_initial (br : Bridges) (threads : ℕ) :
    Tracked br (fun _ => []) (initial threads) := by
  constructor
  · intro d mode hd
    cases (List.mem_replicate.mp (List.mem_of_getElem? hd)).2
  · intro d epoch hd
    cases (List.mem_replicate.mp (List.mem_of_getElem? hd)).2

/-- A thread moves, and the history with it. -/
theorem Tracked.move {br : Bridges} {g g' : DrainHistory} {s s' : BypassState}
    (h : Tracked br g s) {t : ℕ} {old pc : BypassPc} (hget : s.threads[t]? = some old)
    (hthreads : s'.threads = s.threads.set t pc)
    (hothers : ∀ d, d ≠ t → ∀ a, a ≠ t → (a ∈ g' d ↔ a ∈ g d))
    (hchecked : ∀ d mode, s.threads[d]? = some (.storeMode mode) →
      (t ∈ g' d ↔ ∃ r, r ∈ pc.underWay br))
    (hstored : ∀ d epoch, s.threads[d]? = some (.applied epoch) →
      (t ∈ g' d ↔ ∃ r ∈ pc.underWay br, r < epoch))
    (hnewChecked : ∀ mode, pc = .storeMode mode →
      old.underWay br = none ∧ ∀ a, a ∈ g' t ↔ s.Pending br a)
    (hnewStored : ∀ epoch, pc = .applied epoch →
      old.underWay br = none ∧ ∀ a, a ∈ g' t ↔ s.Earlier br epoch a) :
    Tracked br g' s' := by
  obtain ⟨hlt, -⟩ := List.getElem?_eq_some_iff.mp hget
  have hself : s'.threads[t]? = some pc := by
    rw [hthreads]
    exact List.getElem?_set_self hlt
  have hother : ∀ a, a ≠ t → s'.threads[a]? = s.threads[a]? := by
    intro a ha
    rw [hthreads]
    exact List.getElem?_set_ne (Ne.symm ha)
  have hpending : ∀ a, s'.Pending br a ↔
      if a = t then ∃ r, r ∈ pc.underWay br else s.Pending br a := by
    intro a
    unfold Pending
    split_ifs with ha
    · rw [ha, hself]
      simp
    · rw [hother a ha]
  have hearlier : ∀ epoch a, s'.Earlier br epoch a ↔
      if a = t then ∃ r ∈ pc.underWay br, r < epoch else s.Earlier br epoch a := by
    intro epoch a
    unfold Earlier
    split_ifs with ha
    · rw [ha, hself]
      simp
    · rw [hother a ha]
  constructor
  · intro d mode hd a
    by_cases hdt : d = t
    · subst hdt
      rw [hself] at hd
      obtain rfl := Option.some.inj hd
      obtain ⟨hnone, hnew⟩ := hnewChecked mode rfl
      rw [hnew a, hpending]
      split_ifs with ha
      · rw [ha, pending_iff hget, hnone]
        rfl
      · rfl
    · rw [hother d hdt] at hd
      rw [hpending]
      split_ifs with ha
      · rw [ha]
        exact hchecked d mode hd
      · rw [hothers d hdt a ha]
        exact h.checked d mode hd a
  · intro d epoch hd a
    by_cases hdt : d = t
    · subst hdt
      rw [hself] at hd
      obtain rfl := Option.some.inj hd
      obtain ⟨hnone, hnew⟩ := hnewStored epoch rfl
      rw [hnew a, hearlier]
      split_ifs with ha
      · rw [ha, earlier_iff hget, hnone]
        rfl
      · rfl
    · rw [hother d hdt] at hd
      rw [hearlier]
      split_ifs with ha
      · rw [ha]
        exact hstored d epoch hd
      · rw [hothers d hdt a ha]
        exact h.stored d epoch hd a

/-- A thread moves and its access, if any, is where it was. -/
theorem Tracked.goto {br : Bridges} {g : DrainHistory} {s s' : BypassState}
    (h : Tracked br g s) {t : ℕ} {old pc : BypassPc} (hget : s.threads[t]? = some old)
    (hthreads : s'.threads = s.threads.set t pc) (hsame : pc.underWay br = old.underWay br)
    (hnotChecked : ∀ mode, pc ≠ .storeMode mode) (hnotStored : ∀ epoch, pc ≠ .applied epoch) :
    Tracked br g s' := by
  refine h.move hget hthreads (fun _ _ _ _ => Iff.rfl) ?_ ?_
    (fun mode hp => absurd hp (hnotChecked mode)) fun epoch hp => absurd hp (hnotStored epoch)
  · intro d mode hd
    rw [h.checked d mode hd, pending_iff hget, hsame]
  · intro d epoch hd
    rw [h.stored d epoch hd, earlier_iff hget, hsame]

/-- An access has its effect. -/
theorem Tracked.done {br : Bridges} {g : DrainHistory} {s s' : BypassState}
    (h : Tracked br g s) {t : ℕ} {old pc : BypassPc} (hget : s.threads[t]? = some old)
    (hthreads : s'.threads = s.threads.set t pc) (hnone : pc.underWay br = none)
    (hnotChecked : ∀ mode, pc ≠ .storeMode mode) (hnotStored : ∀ epoch, pc ≠ .applied epoch) :
    Tracked br (g.done t) s' := by
  have hgone : ∀ d, t ∉ g.done t d := by
    intro d hmem
    exact absurd rfl (of_decide_eq_true (List.mem_filter.mp hmem).2)
  refine h.move hget hthreads (fun d _ a ha => ?_) ?_ ?_
    (fun mode hp => absurd hp (hnotChecked mode)) fun epoch hp => absurd hp (hnotStored epoch)
  · rw [DrainHistory.done, List.mem_filter, decide_eq_true_eq]
    exact and_iff_left ha
  · intro d mode _
    rw [hnone]
    exact iff_of_false (hgone d) fun ⟨r, hr⟩ => by cases hr
  · intro d epoch _
    rw [hnone]
    exact iff_of_false (hgone d) fun ⟨r, hr, _⟩ => by cases hr

theorem mem_check {br : Bridges} {g : DrainHistory} {s : BypassState} {t a : ℕ} :
    a ∈ g.check br s t t ↔ ∃ pc ∈ s.threads[a]?, uncounted br pc = true := by
  rw [DrainHistory.check, Function.update_self, List.mem_filter, List.mem_range]
  constructor
  · rintro ⟨-, hany⟩
    cases hget : s.threads[a]? with
    | none =>
      rw [hget] at hany
      cases hany
    | some pc =>
      rw [hget] at hany
      exact ⟨pc, rfl, hany⟩
  · rintro ⟨pc, hget, huncounted⟩
    refine ⟨(List.getElem?_eq_some_iff.mp hget).1, ?_⟩
    rw [Option.mem_def.mp hget]
    exact huncounted

/-- At the zero check no TLP is open, so every access still to have its effect is uncounted. -/
theorem Tracked.check {br : Bridges} {g : DrainHistory} {s : BypassState}
    (h : Tracked br g s) (hinv : DrainInv br s) {t : ℕ} {mode : BypassMode} {timeoutMs : Int}
    (hget : s.threads[t]? = some (.drain mode timeoutMs)) (hzero : s.inFlightTlps = 0) :
    Tracked br (g.check br s t) (s.goto t (.storeMode mode)) := by
  have hclosed : ∀ pc ∈ s.threads, pc.openTlp = false := by
    have hcount := hinv.count
    rw [hzero, openTlps, eq_comm] at hcount
    have hall := List.countP_eq_zero.mp hcount
    intro pc hpc
    exact Bool.eq_false_iff.mpr (hall pc hpc)
  have hseen : ∀ a, a ∈ g.check br s t t ↔ s.Pending br a := by
    intro a
    rw [mem_check, Pending]
    refine exists_congr fun pc => and_congr_right fun hpc => ?_
    rw [uncounted, hclosed pc (List.mem_of_getElem? hpc), Bool.not_false, Bool.and_true]
    exact Option.isSome_iff_exists
  have hother : ∀ d pc, s.threads[d]? = some pc → pc ≠ .drain mode timeoutMs →
      g.check br s t d = g d := by
    intro d pc hd hne
    refine Function.update_of_ne ?_ _ _
    rintro rfl
    exact hne (Option.some.inj (hd.symm.trans hget))
  refine h.move hget rfl (fun d hd a _ => ?_) (fun d mode' hd => ?_) (fun d epoch hd => ?_)
    (fun _ _ => ⟨rfl, hseen⟩) fun epoch hp => by cases hp
  · rw [DrainHistory.check, Function.update_of_ne hd]
  · rw [hother d _ hd (by simp), h.checked d mode' hd, pending_iff hget]
    rfl
  · rw [hother d _ hd (by simp), h.stored d epoch hd, earlier_iff hget]
    rfl

/-- A switch stores the mode: every access that has read one has read an earlier one. -/
theorem Tracked.store {br : Bridges} {g : DrainHistory} {s : BypassState}
    (h : Tracked br g s) (hinv : DrainInv br s) {t : ℕ} {mode : BypassMode}
    (hget : s.threads[t]? = some (.storeMode mode)) (late : Bool) :
    Tracked br g (s.advanceAt br t late (.storeMode mode)) := by
  refine h.move hget rfl (fun _ _ _ _ => Iff.rfl) (fun d mode' hd => ?_) (fun d epoch hd => ?_)
    (fun _ hp => by cases hp) fun epoch hp => ⟨rfl, fun a => ?_⟩
  · rw [h.checked d mode' hd, pending_iff hget]
    rfl
  · rw [h.stored d epoch hd, earlier_iff hget]
    rfl
  · obtain rfl := BypassPc.applied.inj hp
    rw [h.checked t mode hget a, Pending, Earlier]
    refine exists_congr fun pc => and_congr_right fun hpc => exists_congr fun r => ?_
    refine (and_iff_left_of_imp fun hr => ?_).symm
    exact Nat.lt_succ_of_le (hinv.routed pc (List.mem_of_getElem? hpc) r hr)

/-- A mode is read: the switches that have checked and not stored miss the access. -/
theorem Tracked.routed {br : Bridges} {g : DrainHistory} {s : BypassState}
    (h : Tracked br g s) (hinv : DrainInv br s) {t bridge : ℕ} {access : BridgeAccess}
    {direction : AccessDirection} {args : BarArgs}
    (hget : s.threads[t]? = some (.readMode bridge direction args))
    (heffect : (br.path bridge access).takesEffect = true) :
    Tracked br (g.routed s t) (s.goto t (.lockImpl bridge access (some s.epoch))) := by
  have hway : BypassPc.underWay br (.lockImpl bridge access (some s.epoch)) = some s.epoch :=
    if_pos heffect
  refine h.move hget rfl (fun d _ a ha => ?_) (fun d mode hd => ?_) (fun d epoch hd => ?_)
    (fun _ hp => by cases hp) fun _ hp => by cases hp
  · rw [DrainHistory.routed]
    split_ifs
    · rw [List.mem_cons, or_iff_right ha]
    · rfl
  · rw [DrainHistory.routed, hd, hway]
    exact iff_of_true List.mem_cons_self ⟨s.epoch, rfl⟩
  · -- the switch has stored before
    have hle := hinv.applied epoch (List.mem_of_getElem? hd)
    rw [DrainHistory.routed, hd, hway]
    refine iff_of_false (fun hmem => ?_) ?_
    · have hbefore := (h.stored d epoch hd t).mp hmem
      rw [earlier_iff hget] at hbefore
      obtain ⟨r, hr, -⟩ := hbefore
      cases hr
    · rintro ⟨r, hr, hlt⟩
      rw [← Option.some.inj hr] at hlt
      exact absurd hle (Nat.not_le.mpr hlt)

theorem tracked_advance {br : Bridges} {g : DrainHistory} {s : BypassState}
    (h : Tracked br g s) (hinv : DrainInv br s) {t : ℕ} (late : Bool) {pc : BypassPc}
    (hget : s.threads[t]? = some pc) :
    Tracked br (noteAdvance br g s t pc) (s.advanceAt br t late pc) := by
  cases pc with
  | idle => exact h
  | returned rc => exact h
  | readMode bridge direction args =>
    simp only [noteAdvance, advanceAt]
    split_ifs with heffect
    · exact h.routed hinv hget heffect
    · exact h.goto hget rfl (if_neg heffect) (fun _ hp => by cases hp) fun _ hp => by cases hp
  | lockImpl bridge access routed =>
    simp only [noteAdvance, advanceAt]
    split_ifs
    · exact h.goto hget rfl rfl (fun _ hp => by cases hp) fun _ hp => by cases hp
    · exact h
  | inImpl bridge access routed =>
    simp only [noteAdvance, advanceAt]
    cases hpath : br.path bridge access with
    | fails rc =>
      refine h.goto hget rfl ?_ (fun _ hp => by cases hp) fun _ hp => by cases hp
      rw [BypassPc.underWay, hpath]
      rfl
    | library rc =>
      exact h.done hget rfl rfl (fun _ hp => by cases hp) fun _ hp => by cases hp
    | tlp =>
      refine h.goto hget rfl ?_ (fun _ hp => by cases hp) fun _ hp => by cases hp
      rw [BypassPc.underWay_inImpl routed (by rw [hpath]; rfl)]
      rfl
  | inTlp bridge access routed =>
    exact h.done hget rfl rfl (fun _ hp => by cases hp) fun _ hp => by cases hp
  | exitTlp bridge =>
    exact h.goto hget rfl rfl (fun _ hp => by cases hp) fun _ hp => by cases hp
  | leaveImpl bridge rc =>
    exact h.goto hget rfl rfl (fun _ hp => by cases hp) fun _ hp => by cases hp
  | abortCount mode =>
    exact h.goto hget rfl rfl (fun _ hp => by cases hp) fun _ hp => by cases hp
  | abortMode mode =>
    exact h.goto hget rfl rfl (fun _ hp => by cases hp) fun _ hp => by cases hp
  | drain mode timeoutMs =>
    simp only [noteAdvance, advanceAt]
    split_ifs with hzero hlate
    · exact h.check hinv hget hzero
    · exact h.goto hget rfl rfl (fun _ hp => by cases hp) fun _ hp => by cases hp
    · exact h
  | storeMode mode => exact h.store hinv hget late
  | applied epoch =>
    exact h.goto hget rfl rfl (fun _ hp => by cases hp) fun _ hp => by cases hp

theorem tracked_step (br : Bridges) (x : DrainHistory × BypassState) (op : BypassOp)
    (h : Tracked br x.1 x.2) (hinv : DrainInv br x.2) :
    Tracked br (noteDrain br x.1 x.2 op) (x.2.step br op) := by
  obtain ⟨g, s⟩ := x
  cases op with
  | setDrainTimeout ms => exact ⟨h.checked, h.stored⟩
  | setTestScope inTestScope => exact ⟨h.checked, h.stored⟩
  | call t call =>
    obtain ⟨-, hway, hnotChecked, hnotStored⟩ := start_parts br s call
    have hstart : ∀ old, s.threads[t]? = some old → old.underWay br = none →
        Tracked br g (s.goto t (s.start br call)) := by
      intro old hget hold
      exact h.goto hget rfl (by rw [hway, hold]) hnotChecked hnotStored
    show Tracked br g (s.step br (.call t call))
    rw [step]
    split
    case h_1 hget => exact hstart _ hget rfl
    case h_2 rc hget => exact hstart _ hget rfl
    case h_3 => exact h
  | advance t late =>
    show Tracked br (match s.threads[t]? with
      | some pc => noteAdvance br g s t pc
      | none => g) (s.step br (.advance t late))
    rw [step]
    cases hget : s.threads[t]? with
    | none => exact h
    | some pc => exact tracked_advance h hinv late hget

/-- The accesses that a switch has not waited for are those the law forbids at its return. -/
theorem settles_iff {br : Bridges} {g : DrainHistory} {s : BypassState} (h : Tracked br g s)
    (op : BypassOp) : s.settles br op ↔ drains br (g, s) op := by
  cases op with
  | advance t late =>
    refine forall₂_congr fun pc hget => ?_
    cases pc with
    | applied epoch =>
      show (∀ x ∈ s.threads, ∀ r ∈ x.underWay br, epoch ≤ r) ↔ g t = []
      rw [List.eq_nil_iff_forall_not_mem]
      constructor
      · intro hlate a ha
        obtain ⟨x, hx, r, hr, hlt⟩ := (h.stored t epoch hget a).mp ha
        exact absurd (hlate x (List.mem_of_getElem? hx) r hr) (Nat.not_le.mpr hlt)
      · intro hnone x hx r hr
        obtain ⟨a, ha⟩ := List.mem_iff_getElem?.mp hx
        by_contra hlt
        exact hnone a ((h.stored t epoch hget a).mpr ⟨x, ha, r, hr, Nat.not_le.mp hlt⟩)
    | idle | returned _ | readMode _ _ _ | lockImpl _ _ _ | inImpl _ _ _ | inTlp _ _ _ | exitTlp _
    | leaveImpl _ _ | abortCount _ | abortMode _ | drain _ _ | storeMode _ => rfl
  | setDrainTimeout ms => rfl
  | setTestScope inTestScope => rfl
  | call t call => rfl

/-! ### The result -/

/-- **Draining.**  The law holds in every state of a run exactly when every abort of the run finds
the count at zero, every drained switch returns after the accesses that its drain has not waited
for, and the count has room. -/
theorem bypass_drain_iff (br : Bridges) (threads : ℕ) (ops : List BypassOp) :
    Always (step br) (DrainLaw br) (initial threads) ops ↔
      Guarded (observed (step br) (noteDrain br)) (drains br)
        (fun _ => [], initial threads) ops := by
  rw [← always_observed (step br) (noteDrain br) (DrainLaw br) (fun _ => [], initial threads)]
  refine always_iff_guarded
    (I := fun x : DrainHistory × BypassState => DrainInv br x.2 ∧ Tracked br x.1 x.2)
    (fun x op hI hG => ?_) (fun _ hI => hI.1.toDrainLaw) (fun x op hI hnext => ?_) ops
    ⟨drainInv_initial br threads, tracked_initial br threads⟩
  · have hsettles := (settles_iff hI.2 op).mpr hG
    exact ⟨drainInv_step br x.2 op hI.1 hsettles, tracked_step br x op hI.2 hI.1⟩
  · exact (settles_iff hI.2 op).mp (settles_of_law br x.2 op hI.1 hnext)

/-- One active bridge on the mock backend. -/
def mockBridge : Bridges := ⟨some 0, fun _ => true, fun _ => .kMock, fun _ => false, fun _ => 0⟩

/-- A write reads the full mode; the switch to bypass finds no TLP and returns; the write has its
effect through the MMIO path. -/
theorem bypass_drain_fails : ¬Always (step mockBridge) (DrainLaw mockBridge) (initial 2)
    [.call 0 (.hostBridge .write ⟨0, 0, true, 4⟩), .advance 0 false,
      .call 1 (.applyMode .kBypass .kGracefulDrain), .advance 1 false, .advance 1 false,
      .advance 1 false, .advance 0 false, .advance 0 false, .advance 0 false] := by
  intro h
  have hlast := (Always.last _ h).effects
    ⟨0, .mmio .write ⟨0, 0, true, 4⟩, some 0, 1⟩ (by decide +kernel) 0 rfl
  exact absurd hlast (by decide)

end BypassState

end UsrLinuxEmu.SimHardware
