import Mathlib.Tactic.SplitIfs
import UsrLinuxEmu.GpuDriver.Mqd
import UsrLinuxEmu.Layout.LittleEndian
import UsrLinuxEmu.Transition.Run

/-!
# The HQD register window of BAR 0 (`sim/bar_sim.cpp`, `sim/hardware/mqd_state.cpp`)

Three layouts lie over each other: windows of 64 bytes a channel, packed `MQD`s of 128 bytes, and
the register offsets.  A register write other than the control register's goes to the byte of the
`MQD` that the register offset names.

* `mqdStateActivate` … `mqdStateResume` — the transitions on the bytes of an `MQD`, and
  `mqdView`, its fields;
* `simBar0Writel`, `simBar0Readl` — the accesses;
* `MqdTransition`, `hqdCommands` — the state table, and the commands of a control value;
* `HqdWriteLaw` — isolation of the channels, the state table, the read-only status register;
* `hqd_window_iff` — the runs that keep to it: those whose writes to a status register store
  what the `MQD` has at that offset already.
-/

namespace UsrLinuxEmu.GpuDriver

open UsrLinuxEmu.Layout UsrLinuxEmu.Transition

/-! ### The state machine on packed MQDs -/

/-- `sizeof(MQD)`. -/
def mqdSize : ℕ := 128

/-! Offsets of the fields in the packed `MQD`. -/

def mqdGpfifoAddr : ℕ := 32
def mqdEntryCount : ℕ := 40
def mqdCurrentIndex : ℕ := 44
def mqdSavedGpfifoAddr : ℕ := 56
def mqdSavedIndex : ℕ := 64
def mqdSavedEntries : ℕ := 68
def mqdStateField : ℕ := 116

/-- The `state` field of the `MQD` at address `mqd`. -/
def mqdState (m : Memory) (mqd : ℕ) : UInt32 := UInt32.ofNat (loadLe m (mqd + mqdStateField) 4)

def setMqdState (m : Memory) (mqd : ℕ) (state : UInt32) : Memory :=
  storeLe m (mqd + mqdStateField) 4 state.toNat

def mqdEinval : Int := -22

def mqdStateActivate (m : Memory) (mqd : ℕ) : Int × Memory :=
  if mqdState m mqd ≠ mqdStateIdle then (mqdEinval, m)
  else (0, setMqdState m mqd mqdStateActive)

def mqdStateDeactivate (m : Memory) (mqd : ℕ) : Int × Memory :=
  if mqdState m mqd = mqdStateIdle then (mqdEinval, m)
  else (0, setMqdState m mqd mqdStateIdle)

/-- `mqd->dst = mqd->src` for fields of `n` bytes. -/
def copyField (m : Memory) (mqd dst src n : ℕ) : Memory :=
  storeLe m (mqd + dst) n (loadLe m (mqd + src) n)

def saveContext (m : Memory) (mqd : ℕ) : Memory :=
  let m := copyField m mqd mqdSavedGpfifoAddr mqdGpfifoAddr 8
  let m := copyField m mqd mqdSavedIndex mqdCurrentIndex 4
  copyField m mqd mqdSavedEntries mqdEntryCount 4

def restoreContext (m : Memory) (mqd : ℕ) : Memory :=
  let m := copyField m mqd mqdGpfifoAddr mqdSavedGpfifoAddr 8
  let m := copyField m mqd mqdCurrentIndex mqdSavedIndex 4
  copyField m mqd mqdEntryCount mqdSavedEntries 4

def mqdStatePreempt (m : Memory) (mqd : ℕ) : Int × Memory :=
  if mqdState m mqd = mqdStateIdle then (mqdEinval, m)
  else if mqdState m mqd = mqdStatePreempted then (0, m)
  else (0, setMqdState (saveContext m mqd) mqd mqdStatePreempted)

def mqdStateResume (m : Memory) (mqd : ℕ) : Int × Memory :=
  if mqdState m mqd ≠ mqdStatePreempted then (mqdEinval, m)
  else (0, setMqdState (restoreContext m mqd) mqd mqdStateActive)

/-! ### The accesses -/

/-- `g_hqd_pool` and the memory that backs the rest of BAR 0. -/
structure Bar0 where
  hqdPool : Memory
  backing : Memory

def bar0HqdBase : UInt64 := 0x4000
def bar0HqdStride : UInt64 := 64
def bar0HqdWindowSize : UInt64 := 0x4000
def bar0HqdMaxChannels : UInt32 := 32

def isHqdOffset (offset : UInt64) : Bool :=
  decide (bar0HqdBase ≤ offset ∧ offset < bar0HqdBase + bar0HqdWindowSize)

/-- The address of the `MQD` in the pool, and the register. -/
def hqdForOffset (offset : UInt64) : Option (ℕ × UInt32) :=
  let rel := offset - bar0HqdBase
  let channel := (rel / bar0HqdStride).toUInt32
  let reg := (rel % bar0HqdStride).toUInt32
  if bar0HqdMaxChannels ≤ channel then none else some (mqdSize * channel.toNat, reg)

/-- A write of the control register.  Both low bits set means two transitions. -/
def hqdControl (m : Memory) (mqd : ℕ) (value : UInt32) : Memory :=
  let m := if value &&& 1 ≠ 0 then (mqdStateActivate m mqd).2 else m
  let m := if value &&& 2 ≠ 0 then (mqdStatePreempt m mqd).2 else m
  if value &&& 3 = 0 then (mqdStateDeactivate m mqd).2 else m

namespace Bar0

/-- The pool as the program starts. -/
def reset (backing : Memory) : Bar0 := ⟨fun _ => 0, backing⟩

def simBar0Writel (s : Bar0) (offset : UInt64) (value : UInt32) : Bar0 :=
  if isHqdOffset offset then
    match hqdForOffset offset with
    | none => s
    | some (mqd, reg) =>
      if reg = 0 then { s with hqdPool := hqdControl s.hqdPool mqd value }
      -- the status register, at 4, is written like the others
      else { s with hqdPool := storeLe s.hqdPool (mqd + reg.toNat) 4 value.toNat }
  else { s with backing := storeLe s.backing offset.toNat 4 value.toNat }

def simBar0Readl (s : Bar0) (offset : UInt64) : UInt32 :=
  if isHqdOffset offset then
    match hqdForOffset offset with
    | none => 0
    | some (mqd, reg) =>
      if reg = 4 then mqdState s.hqdPool mqd
      else UInt32.ofNat (loadLe s.hqdPool (mqd + reg.toNat) 4)
  else UInt32.ofNat (loadLe s.backing offset.toNat 4)

end Bar0

inductive Bar0Op where
  | writel (offset : UInt64) (value : UInt32)
  | readl (offset : UInt64)
  deriving DecidableEq, Repr

def Bar0.step (s : Bar0) : Bar0Op → Bar0
  | .writel offset value => s.simBar0Writel offset value
  | .readl _ => s

/-! ### The law -/

inductive MqdCommand where
  | activate
  | deactivate
  | preempt
  | resume
  deriving DecidableEq, Repr

/-- The transition table of `mqd_state.cpp`. -/
inductive MqdTransition : MqdCommand → UInt32 → UInt32 → Prop where
  | activate : MqdTransition .activate mqdStateIdle mqdStateActive
  | deactivate : MqdTransition .deactivate mqdStateActive mqdStateIdle
  | preempt : MqdTransition .preempt mqdStateActive mqdStatePreempted
  | resume : MqdTransition .resume mqdStatePreempted mqdStateActive
  | abandon : MqdTransition .deactivate mqdStatePreempted mqdStateIdle

/-- The command's transition is taken if the table has one there; otherwise the state stays. -/
def MqdCommand.Leads (command : MqdCommand) (st st' : UInt32) : Prop :=
  MqdTransition command st st' ∨ ((∀ x, ¬MqdTransition command st x) ∧ st' = st)

/-- The commands are obeyed one after the other. -/
def Follows : List MqdCommand → UInt32 → UInt32 → Prop
  | [], st, st' => st' = st
  | command :: commands, st, st' => ∃ mid, command.Leads st mid ∧ Follows commands mid st'

/-- The commands that a value of the control register stands for. -/
def hqdCommands (value : UInt32) : List MqdCommand :=
  (if value &&& 1 ≠ 0 then [.activate] else []) ++
    (if value &&& 2 ≠ 0 then [.preempt] else []) ++
    (if value &&& 3 = 0 then [.deactivate] else [])

/-- The channel that an offset of the window is addressed to. -/
def hqdChannel (offset : UInt64) : ℕ := (offset.toNat - 0x4000) / 64

/-- `HQD_REG_OFFSET(c) + HQD_CTL_OFFSET`. -/
def hqdCtlOffset (c : ℕ) : ℕ := 0x4000 + 64 * c

/-- `HQD_REG_OFFSET(c) + HQD_STATUS_OFFSET`. -/
def hqdStatusOffset (c : ℕ) : ℕ := hqdCtlOffset c + 4

namespace Bar0

/-- The state of the channel's `MQD`. -/
def channelState (s : Bar0) (c : ℕ) : UInt32 := mqdState s.hqdPool (mqdSize * c)

/-- The channel's `MQD` is the same in both states, byte by byte. -/
def SameMqd (s s' : Bar0) (c : ℕ) : Prop :=
  ∀ i < mqdSize, s'.hqdPool (mqdSize * c + i) = s.hqdPool (mqdSize * c + i)

/-- What a write may do to BAR 0. -/
structure HqdWriteLaw (s : Bar0) (offset : UInt64) (value : UInt32) : Prop where
  isolated : ∀ c, c ≠ hqdChannel offset → s.SameMqd (s.simBar0Writel offset value) c
  backing : (s.simBar0Writel offset value).backing = s.backing
  pastPool : 32 ≤ hqdChannel offset → s.simBar0Writel offset value = s
  control : ∀ c, (s.simBar0Writel offset value).channelState c ≠ s.channelState c →
    offset.toNat = hqdCtlOffset c
  table : ∀ c < 32, offset.toNat = hqdCtlOffset c → Follows (hqdCommands value)
    (s.channelState c) ((s.simBar0Writel offset value).channelState c)
  readOnly : ∀ c, offset.toNat = hqdStatusOffset c →
    (s.simBar0Writel offset value).hqdPool = s.hqdPool

/-- Writes to the window keep the law. -/
def HqdLaw (s : Bar0) : Bar0Op → Prop
  | .writel offset value => isHqdOffset offset = true → s.HqdWriteLaw offset value
  | .readl _ => True

/-- The status register of every channel of the pool reads the state. -/
def StatusReadsState (s : Bar0) : Prop :=
  ∀ c < 32, s.simBar0Readl (UInt64.ofNat (hqdStatusOffset c)) = s.channelState c

/-- A write to the status register of a channel of the pool stores the word that the `MQD` has at
that offset, the upper half of `ring_base_va`. -/
def statusWriteRepeats (s : Bar0) : Bar0Op → Prop
  | .writel offset value => ∀ c < 32, offset.toNat = hqdStatusOffset c →
      value.toNat = loadLe s.hqdPool (mqdSize * c + 4) 4
  | .readl _ => True

end Bar0

/-! ### The transitions on the bytes -/

@[simp] theorem mqdState_setMqdState (m : Memory) (mqd : ℕ) (state : UInt32) :
    mqdState (setMqdState m mqd state) mqd = state := by
  have hlt : state.toNat < 256 ^ 4 := state.toNat_lt
  rw [mqdState, setMqdState, loadLe_storeLe_self, Nat.mod_eq_of_lt hlt, UInt32.ofNat_toNat]

theorem mqdState_storeLe {m : Memory} {mqd a n v : ℕ}
    (h : a + n ≤ mqd + mqdStateField ∨ mqd + mqdStateField + 4 ≤ a) :
    mqdState (storeLe m a n v) mqd = mqdState m mqd := by
  rw [mqdState, loadLe_storeLe_of_disjoint h.symm, mqdState]

/-- A state of the table. -/
def MqdStateValid (state : UInt32) : Prop :=
  state = mqdStateIdle ∨ state = mqdStateActive ∨ state = mqdStatePreempted

theorem MqdTransition.valid {command : MqdCommand} {st st' : UInt32}
    (h : MqdTransition command st st') : MqdStateValid st' := by
  cases h <;> simp [MqdStateValid]

theorem Follows.valid {commands : List MqdCommand} {st st' : UInt32}
    (h : Follows commands st st') (hv : MqdStateValid st) : MqdStateValid st' := by
  induction commands generalizing st with
  | nil =>
    obtain rfl := h
    exact hv
  | cons command commands ih =>
    obtain ⟨mid, hleads, hrest⟩ := h
    apply ih hrest
    rcases hleads with htaken | ⟨-, rfl⟩
    · exact htaken.valid
    · exact hv

theorem Follows.append {commands commands' : List MqdCommand} {st mid st' : UInt32}
    (h : Follows commands st mid) (h' : Follows commands' mid st') :
    Follows (commands ++ commands') st st' := by
  induction commands generalizing st with
  | nil =>
    obtain rfl := h
    exact h'
  | cons command commands ih =>
    obtain ⟨next, hleads, hrest⟩ := h
    exact ⟨next, hleads, ih hrest⟩

/-- A command alone. -/
theorem MqdCommand.Leads.follows {command : MqdCommand} {st st' : UInt32}
    (h : command.Leads st st') : Follows [command] st st' := ⟨st', h, rfl⟩

theorem activate_leads (m : Memory) (mqd : ℕ) :
    MqdCommand.activate.Leads (mqdState m mqd) (mqdState (mqdStateActivate m mqd).2 mqd) := by
  unfold mqdStateActivate
  split_ifs with h
  · refine .inr ⟨fun x hx => ?_, rfl⟩
    generalize mqdState m mqd = st at h hx
    cases hx
    exact h rfl
  · rw [mqdState_setMqdState, not_not.mp h]
    exact .inl .activate

theorem deactivate_leads {m : Memory} {mqd : ℕ} (hv : MqdStateValid (mqdState m mqd)) :
    MqdCommand.deactivate.Leads (mqdState m mqd)
      (mqdState (mqdStateDeactivate m mqd).2 mqd) := by
  unfold mqdStateDeactivate
  split_ifs with h
  · refine .inr ⟨fun x hx => ?_, rfl⟩
    rw [h] at hx
    cases hx
  · rw [mqdState_setMqdState]
    rcases hv with hidle | hactive | hpreempted
    · exact absurd hidle h
    · rw [hactive]
      exact .inl .deactivate
    · rw [hpreempted]
      exact .inl .abandon

theorem preempt_leads {m : Memory} {mqd : ℕ} (hv : MqdStateValid (mqdState m mqd)) :
    MqdCommand.preempt.Leads (mqdState m mqd) (mqdState (mqdStatePreempt m mqd).2 mqd) := by
  unfold mqdStatePreempt
  split_ifs with hidle hpreempted
  · refine .inr ⟨fun x hx => ?_, rfl⟩
    rw [hidle] at hx
    cases hx
  · refine .inr ⟨fun x hx => ?_, rfl⟩
    rw [hpreempted] at hx
    cases hx
  · rw [mqdState_setMqdState]
    rcases hv with h | hactive | h
    · exact absurd h hidle
    · rw [hactive]
      exact .inl .preempt
    · exact absurd h hpreempted

/-- A control write obeys its commands. -/
theorem hqdControl_follows {m : Memory} {mqd : ℕ} {value : UInt32}
    (hv : MqdStateValid (mqdState m mqd)) :
    Follows (hqdCommands value) (mqdState m mqd) (mqdState (hqdControl m mqd value) mqd) := by
  have hfirst : Follows (if value &&& 1 ≠ 0 then [.activate] else []) (mqdState m mqd)
      (mqdState (if value &&& 1 ≠ 0 then (mqdStateActivate m mqd).2 else m) mqd) := by
    split_ifs
    · exact (activate_leads m mqd).follows
    · rfl
  have hv₁ := hfirst.valid hv
  unfold hqdControl hqdCommands
  generalize (if value &&& 1 ≠ 0 then (mqdStateActivate m mqd).2 else m) = m₁ at hfirst hv₁ ⊢
  have hsecond : Follows (if value &&& 2 ≠ 0 then [.preempt] else []) (mqdState m₁ mqd)
      (mqdState (if value &&& 2 ≠ 0 then (mqdStatePreempt m₁ mqd).2 else m₁) mqd) := by
    split_ifs
    · exact (preempt_leads hv₁).follows
    · rfl
  have hv₂ := hsecond.valid hv₁
  simp only
  generalize (if value &&& 2 ≠ 0 then (mqdStatePreempt m₁ mqd).2 else m₁) = m₂ at hsecond hv₂ ⊢
  apply (hfirst.append hsecond).append
  split_ifs
  · exact (deactivate_leads hv₂).follows
  · rfl

/-! ### The fields of an MQD -/

/-- The fields that the state machine of `Mqd` works on. -/
def mqdView (m : Memory) (mqd : ℕ) : Mqd where
  gpfifoAddr := UInt64.ofNat (loadLe m (mqd + mqdGpfifoAddr) 8)
  entryCount := UInt32.ofNat (loadLe m (mqd + mqdEntryCount) 4)
  currentIndex := UInt32.ofNat (loadLe m (mqd + mqdCurrentIndex) 4)
  savedGpfifoAddr := UInt64.ofNat (loadLe m (mqd + mqdSavedGpfifoAddr) 8)
  savedIndex := UInt32.ofNat (loadLe m (mqd + mqdSavedIndex) 4)
  savedEntries := UInt32.ofNat (loadLe m (mqd + mqdSavedEntries) 4)
  state := mqdState m mqd

theorem loadLe_copyField {m : Memory} {mqd dst src n a k : ℕ}
    (h : a + k ≤ dst ∨ dst + n ≤ a) :
    loadLe (copyField m mqd dst src n) (mqd + a) k = loadLe m (mqd + a) k :=
  loadLe_storeLe_of_disjoint (by omega)

theorem loadLe_copyField_self (m : Memory) (mqd dst src n : ℕ) :
    loadLe (copyField m mqd dst src n) (mqd + dst) n = loadLe m (mqd + src) n := by
  rw [copyField, loadLe_storeLe_self, Nat.mod_eq_of_lt (loadLe_lt m _ n)]

theorem loadLe_setMqdState {m : Memory} {mqd a k : ℕ} {state : UInt32}
    (h : a + k ≤ mqdStateField) :
    loadLe (setMqdState m mqd state) (mqd + a) k = loadLe m (mqd + a) k :=
  loadLe_storeLe_of_disjoint (by omega)

/-- On the fields, `mqdStatePreempt` is the preemption of `Mqd`. -/
theorem mqdView_preempt (m : Memory) (mqd : ℕ) :
    mqdView (mqdStatePreempt m mqd).2 mqd = (mqdView m mqd).preempt := by
  unfold mqdStatePreempt Mqd.preempt
  have hstate : (mqdView m mqd).state = mqdState m mqd := rfl
  rw [hstate]
  split_ifs
  · rfl
  · rfl
  · rw [mqdView, mqdState_setMqdState]
    simp only [saveContext, mqdView, mqdGpfifoAddr, mqdEntryCount, mqdCurrentIndex,
      mqdSavedGpfifoAddr, mqdSavedIndex, mqdSavedEntries]
    simp (disch := decide) only [loadLe_setMqdState, loadLe_copyField, loadLe_copyField_self]

/-- On the fields, `mqdStateResume` is the resumption of `Mqd`. -/
theorem mqdView_resume (m : Memory) (mqd : ℕ) :
    mqdView (mqdStateResume m mqd).2 mqd = (mqdView m mqd).resume := by
  unfold mqdStateResume Mqd.resume
  have hstate : (mqdView m mqd).state = mqdState m mqd := rfl
  rw [hstate]
  split_ifs
  · rfl
  · rw [mqdView, mqdState_setMqdState]
    simp only [restoreContext, mqdView, mqdGpfifoAddr, mqdEntryCount, mqdCurrentIndex,
      mqdSavedGpfifoAddr, mqdSavedIndex, mqdSavedEntries]
    simp (disch := decide) only [loadLe_setMqdState, loadLe_copyField, loadLe_copyField_self]

/-! ### Which bytes change -/

/-- Only bytes of the `MQD` at `mqd` differ. -/
def OnlyMqd (m m' : Memory) (mqd : ℕ) : Prop :=
  ∀ x, x < mqd ∨ mqd + mqdSize ≤ x → m' x = m x

theorem OnlyMqd.rfl' (m : Memory) (mqd : ℕ) : OnlyMqd m m mqd := fun _ _ => rfl

theorem OnlyMqd.trans {m m' m'' : Memory} {mqd : ℕ} (h : OnlyMqd m m' mqd)
    (h' : OnlyMqd m' m'' mqd) : OnlyMqd m m'' mqd :=
  fun x hx => (h' x hx).trans (h x hx)

/-- A store into the `MQD`. -/
theorem onlyMqd_storeLe {m : Memory} {mqd off n v : ℕ} (h : off + n ≤ mqdSize) :
    OnlyMqd m (storeLe m (mqd + off) n v) mqd := by
  intro x hx
  apply storeLe_outside
  omega

theorem onlyMqd_saveContext (m : Memory) (mqd : ℕ) : OnlyMqd m (saveContext m mqd) mqd := by
  unfold saveContext copyField
  have haddr : mqdSavedGpfifoAddr + 8 ≤ mqdSize := by decide
  have hindex : mqdSavedIndex + 4 ≤ mqdSize := by decide
  have hentries : mqdSavedEntries + 4 ≤ mqdSize := by decide
  exact ((onlyMqd_storeLe haddr).trans (onlyMqd_storeLe hindex)).trans (onlyMqd_storeLe hentries)

theorem onlyMqd_setMqdState (m : Memory) (mqd : ℕ) (state : UInt32) :
    OnlyMqd m (setMqdState m mqd state) mqd :=
  onlyMqd_storeLe (by decide)

theorem onlyMqd_hqdControl (m : Memory) (mqd : ℕ) (value : UInt32) :
    OnlyMqd m (hqdControl m mqd value) mqd := by
  have hactivate : ∀ m, OnlyMqd m (mqdStateActivate m mqd).2 mqd := by
    intro m
    unfold mqdStateActivate
    split_ifs
    · exact .rfl' m mqd
    · exact onlyMqd_setMqdState m mqd _
  have hpreempt : ∀ m, OnlyMqd m (mqdStatePreempt m mqd).2 mqd := by
    intro m
    unfold mqdStatePreempt
    split_ifs
    · exact .rfl' m mqd
    · exact .rfl' m mqd
    · exact (onlyMqd_saveContext m mqd).trans (onlyMqd_setMqdState _ mqd _)
  have hdeactivate : ∀ m, OnlyMqd m (mqdStateDeactivate m mqd).2 mqd := by
    intro m
    unfold mqdStateDeactivate
    split_ifs
    · exact .rfl' m mqd
    · exact onlyMqd_setMqdState m mqd _
  have hwhen : ∀ (b : Prop) [Decidable b] (f : Memory → Memory),
      (∀ m, OnlyMqd m (f m) mqd) → ∀ m, OnlyMqd m (if b then f m else m) mqd := by
    intro b _ f hf m
    split_ifs
    · exact hf m
    · exact .rfl' m mqd
  exact ((hwhen _ (fun m => (mqdStateActivate m mqd).2) hactivate m).trans
    (hwhen _ (fun m => (mqdStatePreempt m mqd).2) hpreempt _)).trans
      (hwhen _ (fun m => (mqdStateDeactivate m mqd).2) hdeactivate _)

theorem OnlyMqd.state {m m' : Memory} {c c' : ℕ} (h : OnlyMqd m m' (mqdSize * c))
    (hne : c' ≠ c) : mqdState m' (mqdSize * c') = mqdState m (mqdSize * c') := by
  have hload : loadLe m' (mqdSize * c' + mqdStateField) 4 =
      loadLe m (mqdSize * c' + mqdStateField) 4 := by
    apply loadLe_congr
    intro x hx hx'
    apply h
    simp only [mqdSize, mqdStateField] at hx hx' ⊢
    omega
  rw [mqdState, hload, mqdState]

/-! ### The window -/

/-- The register of the channel that an offset of the window names. -/
def hqdRegister (offset : UInt64) : ℕ := (offset.toNat - 0x4000) % 64

theorem isHqdOffset_iff (offset : UInt64) :
    isHqdOffset offset = true ↔ 0x4000 ≤ offset.toNat ∧ offset.toNat < 0x8000 := by
  rw [isHqdOffset, decide_eq_true_eq, UInt64.le_iff_toNat_le, UInt64.lt_iff_toNat_lt]
  rfl

theorem hqdForOffset_eq {offset : UInt64} (h : isHqdOffset offset = true) :
    hqdForOffset offset = if 32 ≤ hqdChannel offset then none
      else some (mqdSize * hqdChannel offset, UInt32.ofNat (hqdRegister offset)) := by
  rw [isHqdOffset_iff] at h
  have hrel : (offset - bar0HqdBase).toNat = offset.toNat - 0x4000 := by
    have hbase : bar0HqdBase ≤ offset := UInt64.le_iff_toNat_le.mpr h.1
    rw [UInt64.toNat_sub_of_le _ _ hbase]
    rfl
  have hchannel : ((offset - bar0HqdBase) / bar0HqdStride).toUInt32.toNat = hqdChannel offset := by
    rw [UInt64.toNat_toUInt32, UInt64.toNat_div, hrel, hqdChannel]
    show (offset.toNat - 0x4000) / 64 % 2 ^ 32 = _
    omega
  have hreg : ((offset - bar0HqdBase) % bar0HqdStride).toUInt32 =
      UInt32.ofNat (hqdRegister offset) := by
    apply UInt32.toNat_inj.mp
    rw [UInt64.toNat_toUInt32, UInt64.toNat_mod, hrel, UInt32.toNat_ofNat', hqdRegister]
    rfl
  have hmax : bar0HqdMaxChannels ≤ ((offset - bar0HqdBase) / bar0HqdStride).toUInt32 ↔
      32 ≤ hqdChannel offset := by
    rw [UInt32.le_iff_toNat_le, hchannel]
    rfl
  simp only [hqdForOffset, hmax, hchannel, hreg]

namespace Bar0

/-- What a write to the window does to the pool, by channel and register. -/
theorem writel_pool {offset : UInt64} (h : isHqdOffset offset = true) (s : Bar0)
    (value : UInt32) : (s.simBar0Writel offset value).hqdPool =
      if 32 ≤ hqdChannel offset then s.hqdPool
      else if hqdRegister offset = 0 then hqdControl s.hqdPool (mqdSize * hqdChannel offset) value
      else storeLe s.hqdPool (mqdSize * hqdChannel offset + hqdRegister offset) 4 value.toNat := by
  have hreg : (UInt32.ofNat (hqdRegister offset)).toNat = hqdRegister offset := by
    rw [UInt32.toNat_ofNat', hqdRegister]
    omega
  have hzero : UInt32.ofNat (hqdRegister offset) = 0 ↔ hqdRegister offset = 0 := by
    rw [← UInt32.toNat_inj, hreg]
    rfl
  rw [simBar0Writel, if_pos h, hqdForOffset_eq h]
  split_ifs with hpast hcontrol
  · rfl
  · simp only [hzero, if_pos hcontrol]
  · simp only [hzero, if_neg hcontrol, hreg]

theorem writel_backing {offset : UInt64} (h : isHqdOffset offset = true) (s : Bar0)
    (value : UInt32) : (s.simBar0Writel offset value).backing = s.backing := by
  rw [simBar0Writel, if_pos h]
  split
  · rfl
  · split_ifs
    · rfl
    · rfl

/-- A write to the window changes the bytes of its channel's `MQD` only. -/
theorem writel_onlyMqd {offset : UInt64} (h : isHqdOffset offset = true) (s : Bar0)
    (value : UInt32) : OnlyMqd s.hqdPool (s.simBar0Writel offset value).hqdPool
      (mqdSize * hqdChannel offset) := by
  rw [writel_pool h]
  split_ifs
  · exact .rfl' _ _
  · exact onlyMqd_hqdControl _ _ _
  · apply onlyMqd_storeLe
    simp only [hqdRegister, mqdSize]
    omega

/-- No register but the control register reaches the state. -/
theorem writel_state {offset : UInt64} (h : isHqdOffset offset = true) (s : Bar0)
    (value : UInt32) (hreg : hqdRegister offset ≠ 0) (c : ℕ) :
    (s.simBar0Writel offset value).channelState c = s.channelState c := by
  by_cases hc : c = hqdChannel offset
  · rw [channelState, writel_pool h, channelState, hc]
    split_ifs
    · rfl
    · apply mqdState_storeLe
      simp only [hqdRegister, mqdStateField]
      omega
  · exact (writel_onlyMqd h s value).state hc

/-! ### The result -/

/-- Every channel is in a state of the table. -/
def StatesValid (s : Bar0) : Prop := ∀ c, MqdStateValid (s.channelState c)

theorem statusReads (s : Bar0) : s.StatusReadsState := by
  intro c hc
  have htoNat : (UInt64.ofNat (hqdStatusOffset c)).toNat = 0x4004 + 64 * c := by
    rw [UInt64.toNat_ofNat', hqdStatusOffset, hqdCtlOffset]
    omega
  have hwindow : isHqdOffset (UInt64.ofNat (hqdStatusOffset c)) = true := by
    rw [isHqdOffset_iff, htoNat]
    omega
  have hchannel : hqdChannel (UInt64.ofNat (hqdStatusOffset c)) = c := by
    rw [hqdChannel, htoNat]
    omega
  have hreg : hqdRegister (UInt64.ofNat (hqdStatusOffset c)) = 4 := by
    rw [hqdRegister, htoNat]
    omega
  rw [simBar0Readl, if_pos hwindow, hqdForOffset_eq hwindow, hchannel, hreg, if_neg (by omega)]
  rfl

/-- A write to a control register obeys the commands of its value. -/
theorem writel_follows {offset : UInt64} (h : isHqdOffset offset = true) {s : Bar0}
    (hv : s.StatesValid) (value : UInt32) (hpool : hqdChannel offset < 32)
    (hreg : hqdRegister offset = 0) :
    Follows (hqdCommands value) (s.channelState (hqdChannel offset))
      ((s.simBar0Writel offset value).channelState (hqdChannel offset)) := by
  rw [channelState, channelState, writel_pool h, if_neg (Nat.not_le.mpr hpool), if_pos hreg]
  exact hqdControl_follows (hv _)

theorem statesValid_step (s : Bar0) (op : Bar0Op) (hv : s.StatesValid) :
    (s.step op).StatesValid := by
  cases op with
  | readl offset => exact hv
  | writel offset value =>
    by_cases h : isHqdOffset offset = true
    · intro c
      by_cases hcontrol : c = hqdChannel offset ∧ c < 32 ∧ hqdRegister offset = 0
      · obtain ⟨rfl, hpool, hreg⟩ := hcontrol
        exact (writel_follows h hv value hpool hreg).valid (hv _)
      · have hsame : (s.simBar0Writel offset value).channelState c = s.channelState c := by
          by_cases hreg : hqdRegister offset = 0
          · by_cases hc : c = hqdChannel offset
            · have hpast : 32 ≤ hqdChannel offset := by
                rw [← hc]
                exact Nat.not_lt.mp fun hlt => hcontrol ⟨hc, hlt, hreg⟩
              rw [channelState, writel_pool h, if_pos hpast, channelState]
            · exact (writel_onlyMqd h s value).state hc
          · exact writel_state h s value hreg c
        show MqdStateValid ((s.simBar0Writel offset value).channelState c)
        rw [hsame]
        exact hv c
    · rw [step, simBar0Writel, if_neg h]
      exact hv

/-- The law holds of a write exactly when a status register keeps what is stored there. -/
theorem hqdLaw_iff {s : Bar0} (hv : s.StatesValid) (op : Bar0Op) :
    s.HqdLaw op ↔ s.statusWriteRepeats op := by
  cases op with
  | readl offset => exact Iff.rfl
  | writel offset value =>
    have hstatus : ∀ c < 32, offset.toNat = hqdStatusOffset c →
        isHqdOffset offset = true ∧ (s.simBar0Writel offset value).hqdPool =
          storeLe s.hqdPool (mqdSize * c + 4) 4 value.toNat := by
      intro c hc hoffset
      rw [hqdStatusOffset, hqdCtlOffset] at hoffset
      have hwindow : isHqdOffset offset = true := by
        rw [isHqdOffset_iff]
        omega
      have hchannel : hqdChannel offset = c := by
        rw [hqdChannel]
        omega
      have hreg : hqdRegister offset = 4 := by
        rw [hqdRegister]
        omega
      refine ⟨hwindow, ?_⟩
      rw [writel_pool hwindow, hchannel, hreg, if_neg (by omega), if_neg (by omega)]
    constructor
    · intro hlaw c hc hoffset
      obtain ⟨hwindow, hpool⟩ := hstatus c hc hoffset
      have hsame := (hlaw hwindow).readOnly c hoffset
      rw [hpool] at hsame
      exact (storeLe_eq_self_iff value.toNat_lt).mp hsame
    · intro hrepeats hwindow
      refine ⟨fun c hc i hi => ?_, writel_backing hwindow s value, fun hpast => ?_,
        fun c hne => ?_, fun c hc hoffset => ?_, fun c hoffset => ?_⟩
      · apply writel_onlyMqd hwindow s value
        simp only [mqdSize] at hi ⊢
        omega
      · rw [simBar0Writel, if_pos hwindow, hqdForOffset_eq hwindow, if_pos hpast]
      · by_contra hctl
        have hwindow' := (isHqdOffset_iff offset).mp hwindow
        by_cases hreg : hqdRegister offset = 0
        · apply hne
          apply (writel_onlyMqd hwindow s value).state
          intro hc
          apply hctl
          rw [hc, hqdCtlOffset, hqdChannel]
          rw [hqdRegister] at hreg
          omega
        · exact hne (writel_state hwindow s value hreg c)
      · rw [hqdCtlOffset] at hoffset
        have hchannel : hqdChannel offset = c := by
          rw [hqdChannel]
          omega
        have hreg : hqdRegister offset = 0 := by
          rw [hqdRegister]
          omega
        have hfollows := writel_follows hwindow hv value (hchannel ▸ hc) hreg
        rwa [hchannel] at hfollows
      · by_cases hc : c < 32
        · rw [(hstatus c hc hoffset).2]
          exact (storeLe_eq_self_iff value.toNat_lt).mpr (hrepeats c hc hoffset)
        · rw [hqdStatusOffset, hqdCtlOffset] at hoffset
          rw [writel_pool hwindow, if_pos]
          rw [hqdChannel]
          omega

theorem statesValid_reset (backing : Memory) : (reset backing).StatesValid := by
  intro c
  left
  rfl

/-- **HQD window.**  The status registers read the states in every state of a run and its writes
keep the law exactly when each write to a status register repeats what is stored there. -/
theorem hqd_window_iff (backing : Memory) (ops : List Bar0Op) :
    (Always step StatusReadsState (reset backing) ops ∧ Guarded step HqdLaw (reset backing) ops) ↔
      Guarded step statusWriteRepeats (reset backing) ops :=
  always_guarded_iff (fun s op hv _ => statesValid_step s op hv) (fun s _ => statusReads s)
    (fun _ op hv hG => (hqdLaw_iff hv op).mpr hG) (fun _ op hv _ hR => (hqdLaw_iff hv op).mp hR)
    ops (statesValid_reset backing)

/-- A write of 1 to the status register of channel 0 reaches `ring_base_va`. -/
theorem hqd_window_fails :
    ¬(Always step StatusReadsState (reset fun _ => 0) [.writel 0x4004 1] ∧
      Guarded step HqdLaw (reset fun _ => 0) [.writel 0x4004 1]) := by
  rintro ⟨-, hlaw, -⟩
  have hsame := (hlaw (by decide)).readOnly 0 (by decide)
  have hbyte := congrFun hsame 4
  revert hbyte
  decide

end Bar0

end UsrLinuxEmu.GpuDriver
