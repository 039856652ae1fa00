import Mathlib.Tactic.SplitIfs
import UsrLinuxEmu.Heap.Borrow
import UsrLinuxEmu.SimHardware.BypassDrain
import UsrLinuxEmu.Transition.Run

/-!
# Handles of emulators (`sim_hardware/src/cpptlm/backdoor_endpoint.cpp`)

A handle stands for an emulator of the library.  The mutex covers a look-up of the handle, but not
the library call that follows, and a release destroys the emulator without the mutex.  Handles are
counted up in 64 bits; a counter that has wrapped gives out handles that are in use, and the
emulators that they stood for are lost.

* `EndpointState.step` — threads that acquire, release, ask and access, one look-up or library call
  at a time;
* `FreesUnused` — an emulator is destroyed while no other thread has it in hand;
* `HandleStep` — what a step does to the handles; `Handed` — how they are given out;
* `backdoorEndpoint_safe_iff` — exactly then no thread is ever left with a destroyed emulator; then
  all calls return what they return if emulators are never destroyed, and none is lost before the
  counter wraps.
-/

namespace UsrLinuxEmu.SimHardware

open UsrLinuxEmu.Heap UsrLinuxEmu.Transition

/-! ### The code -/

def eOPNOTSUPP : Int := 95

inductive DgpuSpace where
  | kConfig
  | kBarMmio
  | kBarVram
  | kAxiDirect
  deriving DecidableEq, Repr

/-- The arguments of `ule_dgpu_read` and `ule_dgpu_write`; `buf` tells whether the pointer is not
null. -/
structure DgpuAccess where
  direction : AccessDirection
  space : DgpuSpace
  offset : UInt64
  buf : Bool
  len : UInt64
  deriving DecidableEq, Repr

/-- The code of an access that does not get to the library although its handle is good. -/
def DgpuAccess.refused (a : DgpuAccess) : Option Int :=
  match a.space with
  | .kConfig =>
    if a.offset > 4096 ∨ a.len > 4096 ∨ (a.len ≠ 1 ∧ a.len ≠ 2 ∧ a.len ≠ 4) then some (-eINVAL)
    else none
  | .kBarMmio | .kBarVram => none
  | .kAxiDirect => some (-eOPNOTSUPP)

structure LiveEmulator where
  emu : ℕ
  devId : UInt32
  deriving DecidableEq

/-- Where a thread is: in `ule_dgpu_acquire` before the emulator gets its handle, in
`ule_dgpu_get_adapter_info` between the two look-ups, in an access before the library call, or in
`ule_dgpu_release` before the emulator is destroyed. -/
inductive EndpointPc where
  | linking (live : LiveEmulator)
  | lookupDevId (handle : UInt64) (answer : Int)
  | calling (emu : ℕ) (answer : Int)
  | deleting (emu : ℕ)
  deriving DecidableEq

namespace EndpointPc

/-- The emulator that the thread alone can reach. -/
def owns : EndpointPc → Option ℕ
  | .linking live => some live.emu
  | .deleting emu => some emu
  | .lookupDevId .. | .calling .. => none

/-- The emulator that the thread has looked up. -/
def uses : EndpointPc → Option ℕ
  | .calling emu _ => some emu
  | .linking _ | .lookupDevId .. | .deleting _ => none

end EndpointPc

inductive EndpointReturn where
  | acquired (handle : UInt64)
  | code (rc : Int)
  /-- The library's answer, about a device. -/
  | library (devId : Option UInt32) (rc : Int)
  deriving DecidableEq, Repr

/-- The handle that a call has given out. -/
def EndpointReturn.handle : EndpointReturn → Option UInt64
  | .acquired handle => some handle
  | .code _ | .library .. => none

/-- `global()`, with the library's emulators and their device ids, the threads that are in a call,
and what the calls have returned, the last first. -/
structure EndpointState where
  symsResolved : Bool
  loadFailed : Bool
  liveEmulators : AList fun _ : UInt64 => LiveEmulator
  nextHandleId : UInt64
  heap : RefHeap UInt32
  pcs : AList fun _ : ℕ => EndpointPc
  returns : List (ℕ × EndpointReturn)

/-- A thread starts a call, or goes on.  `out` tells whether the pointer is not null, `loads`
whether the library is found now, `creates` whether it makes an emulator, and `answer` is what its
function returns. -/
inductive EndpointOp where
  | acquire (thread : ℕ) (out : Bool) (devId : UInt32) (loads creates : Bool)
  | release (thread : ℕ) (handle : UInt64)
  | getAdapterInfo (thread : ℕ) (handle : UInt64) (out : Bool) (answer : Int)
  | access (thread : ℕ) (handle : UInt64) (access : DgpuAccess) (answer : Int)
  | advance (thread : ℕ)
  deriving DecidableEq

def EndpointOp.thread : EndpointOp → ℕ
  | .acquire t .. | .release t _ | .getAdapterInfo t .. | .access t .. | .advance t => t

namespace EndpointState

def initial : EndpointState := ⟨false, false, ∅, 1, .empty, ∅, []⟩

def goto (s : EndpointState) (t : ℕ) (pc : EndpointPc) : EndpointState :=
  { s with pcs := setPc s.pcs t (some pc) }

def ret (s : EndpointState) (t : ℕ) (r : EndpointReturn) : EndpointState :=
  { s with pcs := setPc s.pcs t none, returns := (t, r) :: s.returns }

/-- A load that failed is not tried again. -/
def ensureLoaded (s : EndpointState) (loads : Bool) : EndpointState :=
  if s.symsResolved ∨ s.loadFailed then s
  else { s with symsResolved := loads, loadFailed := !loads }

def create (s : EndpointState) (t : ℕ) (devId : UInt32) : EndpointState :=
  { s with heap := (s.heap.alloc devId).2 }.goto t (.linking ⟨s.heap.next, devId⟩)

def acquire (s : EndpointState) (t : ℕ) (out : Bool) (devId : UInt32) (loads creates : Bool) :
    EndpointState :=
  if !out then s.ret t (.code (-eINVAL))
  else if !(s.ensureLoaded loads).symsResolved then
    (s.ensureLoaded loads).ret t (.code (-eNOSYS))
  else if devId = 0 then (s.ensureLoaded loads).ret t (.code (-eINVAL))
  else if !creates then (s.ensureLoaded loads).ret t (.code (-eNOSYS))
  else (s.ensureLoaded loads).create t devId

/-- The end of an acquire; a handle that is in use loses its emulator. -/
def link (s : EndpointState) (t : ℕ) (live : LiveEmulator) : EndpointState :=
  { s with
    liveEmulators := s.liveEmulators.insert s.nextHandleId live
    nextHandleId := s.nextHandleId + 1 }.ret t (.acquired s.nextHandleId)

/-- What the calls on a handle check before they look it up. -/
def checked (s : EndpointState) (t : ℕ) (handle : UInt64) (valid : Bool)
    (found : LiveEmulator → EndpointState) (missing : EndpointReturn) : EndpointState :=
  if !valid then s.ret t (.code (-eINVAL))
  else if handle = 0 then s.ret t (.code (-eINVAL))
  else if !s.symsResolved then s.ret t (.code (-eNOSYS))
  else
    match s.liveEmulators.lookup handle with
    | none => s.ret t missing
    | some live => found live

/-- A handle that is not there is released without an error. -/
def release (s : EndpointState) (t : ℕ) (handle : UInt64) : EndpointState :=
  s.checked t handle true
    (fun live =>
      { s with liveEmulators := s.liveEmulators.erase handle }.goto t (.deleting live.emu))
    (.code 0)

def getAdapterInfo (s : EndpointState) (t : ℕ) (handle : UInt64) (out : Bool) (answer : Int) :
    EndpointState :=
  s.checked t handle out (fun _ => s.goto t (.lookupDevId handle answer)) (.code (-eINVAL))

def access (s : EndpointState) (t : ℕ) (handle : UInt64) (a : DgpuAccess) (answer : Int) :
    EndpointState :=
  s.checked t handle (a.buf && a.len != 0)
    (fun live =>
      match a.refused with
      | some rc => s.ret t (.code rc)
      | none => s.goto t (.calling live.emu answer))
    (.code (-eINVAL))

/-- `get_device_info` gets the id of the device, not the emulator. -/
def deviceInfo (s : EndpointState) (t : ℕ) (handle : UInt64) (answer : Int) : EndpointState :=
  match s.liveEmulators.lookup handle with
  | none => s.ret t (.code (-eINVAL))
  | some live =>
    if live.devId = 0 then s.ret t (.code (-eINVAL))
    else s.ret t (.library (some live.devId) answer)

/-- What a thread does next.  `destroys` is `false` where emulators are never destroyed. -/
def advanceAt (destroys : Bool) (s : EndpointState) (t : ℕ) : EndpointPc → EndpointState
  | .linking live => s.link t live
  | .lookupDevId handle answer => s.deviceInfo t handle answer
  | .calling emu answer =>
    { s with heap := s.heap.access emu }.ret t (.library (s.heap.read emu) answer)
  | .deleting emu =>
    (if destroys then { s with heap := s.heap.release emu } else s).ret t (.code 0)

/-- What a thread that is in no call does when it calls. -/
def startAt (s : EndpointState) : EndpointOp → EndpointState
  | .acquire t out devId loads creates => s.acquire t out devId loads creates
  | .release t handle => s.release t handle
  | .getAdapterInfo t handle out answer => s.getAdapterInfo t handle out answer
  | .access t handle a answer => s.access t handle a answer
  | .advance _ => s

/-- A thread in a call goes on only. -/
def resume (destroys : Bool) (s : EndpointState) (pc : EndpointPc) : EndpointOp → EndpointState
  | .advance t => s.advanceAt destroys t pc
  | _ => s

def step (destroys : Bool) (s : EndpointState) (op : EndpointOp) : EndpointState :=
  match s.pcs.lookup op.thread with
  | none => s.startAt op
  | some pc => s.resume destroys pc op

/-! ### The property -/

/-- No library call has got a destroyed emulator, and what a thread looked up is there. -/
def Safe (s : EndpointState) : Prop := BorrowsLive EndpointPc.uses s.heap s.pcs

/-- An emulator is destroyed while no other thread has looked it up. -/
def FreesUnused (s : EndpointState) : EndpointOp → Prop
  | .advance t => ∀ emu, s.pcs.lookup t = some (.deleting emu) →
      Unused EndpointPc.uses s.pcs t emu
  | _ => True

/-- The emulators that have handles. -/
def linked (live : AList fun _ : UInt64 => LiveEmulator) : Multiset ℕ :=
  tableOwners (fun e : LiveEmulator => {e.emu}) live

/-- The emulators belong to their handles, to the thread that makes or destroys them, or are
lost. -/
def Owned (s : EndpointState) (lost : Multiset ℕ) : Prop :=
  Holdings EndpointPc.owns EndpointPc.uses s.heap (linked s.liveEmulators + lost) s.pcs

theorem owned_initial : Owned initial 0 := Holdings.empty

/-! ### How handles are given out -/

/-- The handles that have been given out, the last first. -/
def given (s : EndpointState) : List UInt64 := s.returns.filterMap fun r => r.2.handle

/-- What a step does to the handles: it gives out the next one, or none. -/
inductive HandleStep (s s' : EndpointState) : Prop where
  | keep (hnext : s'.nextHandleId = s.nextHandleId) (hgiven : s'.given = s.given)
      (hlive : ∀ handle ∈ s'.liveEmulators, handle ∈ s.liveEmulators)
  | link (hnext : s'.nextHandleId = s.nextHandleId + 1)
      (hgiven : s'.given = s.nextHandleId :: s.given)
      (hlive : ∀ handle ∈ s'.liveEmulators,
        handle = s.nextHandleId ∨ handle ∈ s.liveEmulators)

section Handles

variable {s : EndpointState} {handle : UInt64}

theorem given_ret (s : EndpointState) (t : ℕ) (r : EndpointReturn) :
    (s.ret t r).given = r.handle.toList ++ s.given := by
  show ((t, r) :: s.returns).filterMap _ = _
  rw [List.filterMap_cons]
  cases r <;> rfl

/-- A return without a handle. -/
theorem handleStep_ret (s : EndpointState) (t : ℕ) {r : EndpointReturn} (hr : r.handle = none) :
    HandleStep s (s.ret t r) := by
  refine .keep rfl ?_ fun _ hmem => hmem
  rw [given_ret, hr]
  rfl

theorem handleStep_checked (s : EndpointState) (t : ℕ) (handle : UInt64) (valid : Bool)
    {found : LiveEmulator → EndpointState} {missing : EndpointReturn}
    (hmissing : missing.handle = none) (hfound : ∀ live, HandleStep s (found live)) :
    HandleStep s (s.checked t handle valid found missing) := by
  rw [EndpointState.checked]
  split_ifs
  · exact handleStep_ret s t rfl
  · exact handleStep_ret s t rfl
  · exact handleStep_ret s t rfl
  · cases s.liveEmulators.lookup handle with
    | none => exact handleStep_ret s t hmissing
    | some live => exact hfound live

theorem handleStep_startAt (s : EndpointState) (op : EndpointOp) : HandleStep s (s.startAt op) := by
  have hsame : HandleStep s s := .keep rfl rfl fun _ hmem => hmem
  cases op with
  | acquire t out devId loads creates =>
    -- what a load changes are not the handles
    have hloaded : (s.ensureLoaded loads).nextHandleId = s.nextHandleId ∧
        (s.ensureLoaded loads).given = s.given ∧
        (s.ensureLoaded loads).liveEmulators = s.liveEmulators := by
      rw [ensureLoaded]
      split_ifs <;> exact ⟨rfl, rfl, rfl⟩
    have hret (rc : Int) : HandleStep s ((s.ensureLoaded loads).ret t (.code rc)) := by
      refine .keep hloaded.1 ?_ fun other hmem => ?_
      · rw [given_ret, hloaded.2.1]
        rfl
      · rw [← hloaded.2.2]
        exact hmem
    show HandleStep s (s.acquire t out devId loads creates)
    rw [EndpointState.acquire]
    split_ifs
    · exact handleStep_ret s t rfl
    · exact hret _
    · exact hret _
    · exact hret _
    · refine .keep hloaded.1 hloaded.2.1 fun other hmem => ?_
      rw [← hloaded.2.2]
      exact hmem
  | release t handle =>
    refine handleStep_checked s t handle true rfl fun live => .keep rfl rfl fun other hmem => ?_
    exact (AList.mem_erase.mp hmem).2
  | getAdapterInfo t handle out answer =>
    exact handleStep_checked s t handle out rfl fun live => .keep rfl rfl fun _ hmem => hmem
  | access t handle a answer =>
    refine handleStep_checked s t handle _ rfl fun live => ?_
    cases a.refused with
    | some rc => exact handleStep_ret s t rfl
    | none => exact .keep rfl rfl fun _ hmem => hmem
  | advance t => exact hsame

theorem handleStep_advanceAt (destroys : Bool) (s : EndpointState) (t : ℕ) (pc : EndpointPc) :
    HandleStep s (s.advanceAt destroys t pc) := by
  cases pc with
  | linking live =>
    refine .link rfl ?_ fun handle hmem => (AList.mem_insert _).mp hmem
    exact given_ret _ t _
  | lookupDevId handle answer =>
    simp only [EndpointState.advanceAt, deviceInfo]
    cases s.liveEmulators.lookup handle with
    | none => exact handleStep_ret s t rfl
    | some live =>
      show HandleStep s (if live.devId = 0 then _ else _)
      split_ifs
      · exact handleStep_ret s t rfl
      · exact handleStep_ret s t rfl
  | calling emu answer =>
    exact .keep rfl (given_ret _ t _) fun _ hmem => hmem
  | deleting emu => cases destroys <;> exact .keep rfl (given_ret _ t _) fun _ hmem => hmem

theorem handleStep_step (destroys : Bool) (s : EndpointState) (op : EndpointOp) :
    HandleStep s (s.step destroys op) := by
  have hsame : HandleStep s s := .keep rfl rfl fun _ hmem => hmem
  rw [EndpointState.step]
  cases s.pcs.lookup op.thread with
  | none => exact handleStep_startAt s op
  | some pc =>
    cases op with
    | advance t => exact handleStep_advanceAt destroys s t pc
    | acquire t out devId loads creates => exact hsame
    | release t handle => exact hsame
    | getAdapterInfo t handle out answer => exact hsame
    | access t handle a answer => exact hsame

/-- The `k`-th handle is `k`, in 64 bits, and only handles that were given out are in use. -/
structure Handed (s : EndpointState) : Prop where
  next : s.nextHandleId = UInt64.ofNat (s.given.length + 1)
  numbered : ∀ handle ∈ s.given, ∃ k < s.given.length, handle = UInt64.ofNat (k + 1)
  live : ∀ handle ∈ s.liveEmulators, handle ∈ s.given

theorem handed_initial : Handed initial := ⟨rfl, nofun, nofun⟩

/-- Before the counter wraps, the next handle is a new one. -/
theorem Handed.notMem (h : s.Handed) (hroom : s.given.length + 1 < UInt64.size) :
    s.nextHandleId ∉ s.given := by
  intro hmem
  obtain ⟨k, hk, heq⟩ := h.numbered _ hmem
  rw [h.next] at heq
  have hnat := congrArg UInt64.toNat heq
  rw [UInt64.toNat_ofNat_of_lt' hroom,
    UInt64.toNat_ofNat_of_lt' (Nat.lt_trans (Nat.succ_lt_succ hk) hroom)] at hnat
  omega

theorem Handed.step (h : s.Handed) {s' : EndpointState} (hstep : HandleStep s s') :
    s'.Handed := by
  cases hstep with
  | keep hnext hgiven hlive =>
    refine ⟨?_, ?_, fun handle hmem => ?_⟩
    · rw [hnext, hgiven, h.next]
    · rw [hgiven]
      exact h.numbered
    · rw [hgiven]
      exact h.live handle (hlive handle hmem)
  | link hnext hgiven hlive =>
    refine ⟨?_, fun handle hmem => ?_, fun handle hmem => ?_⟩
    · rw [hnext, hgiven, List.length_cons, h.next]
      exact (UInt64.ofNat_add (s.given.length + 1) 1).symm
    · rw [hgiven] at hmem ⊢
      rw [List.length_cons]
      rcases List.mem_cons.mp hmem with rfl | hmem
      · exact ⟨s.given.length, Nat.lt_succ_self _, h.next⟩
      · obtain ⟨k, hk, heq⟩ := h.numbered handle hmem
        exact ⟨k, Nat.lt_succ_of_lt hk, heq⟩
    · rw [hgiven]
      rcases hlive handle hmem with rfl | hmem
      · exact List.mem_cons_self
      · exact List.mem_cons_of_mem _ (h.live handle hmem)

theorem HandleStep.length_given {s' : EndpointState} (hstep : HandleStep s s') :
    s.given.length ≤ s'.given.length := by
  cases hstep with
  | keep hnext hgiven hlive => rw [hgiven]
  | link hnext hgiven hlive =>
    rw [hgiven]
    exact Nat.le_succ _

theorem length_given_run (s : EndpointState) (ops : List EndpointOp) :
    s.given.length ≤ (run (step true) s ops).given.length := by
  induction ops generalizing s with
  | nil => exact Nat.le_refl _
  | cons op ops ih => exact (handleStep_step true s op).length_given.trans (ih _)

/-- The handle was given out, and has been released. -/
def Gone (handle : UInt64) (s : EndpointState) : Prop :=
  handle ∈ s.given ∧ handle ∉ s.liveEmulators

/-- Before the counter wraps, a handle that is gone stays gone. -/
theorem Gone.step (h : Gone handle s) {s' : EndpointState} (hs : s.Handed)
    (hstep : HandleStep s s') (hroom : s'.given.length < UInt64.size) : Gone handle s' := by
  cases hstep with
  | keep hnext hgiven hlive =>
    refine ⟨?_, fun hmem => h.2 (hlive handle hmem)⟩
    rw [hgiven]
    exact h.1
  | link hnext hgiven hlive =>
    rw [hgiven] at hroom
    refine ⟨?_, fun hmem => ?_⟩
    · rw [hgiven]
      exact List.mem_cons_of_mem _ h.1
    · rcases hlive handle hmem with rfl | hmem
      · exact hs.notMem hroom h.1
      · exact h.2 hmem

theorem Gone.run (h : Gone handle s) (hs : s.Handed) (ops : List EndpointOp)
    (hroom : (run (EndpointState.step true) s ops).given.length < UInt64.size) :
    Gone handle (run (EndpointState.step true) s ops) := by
  induction ops generalizing s with
  | nil => exact h
  | cons op ops ih =>
    have hstep := handleStep_step true s op
    have hnext := Nat.lt_of_le_of_lt (length_given_run _ ops) hroom
    exact ih (h.step hs hstep hnext) (hs.step hstep) hroom

end Handles

/-! ### Steps -/

section Steps

variable {s : EndpointState} {t emu : ℕ} {handle : UInt64} {lost : Multiset ℕ}

theorem Owned.ret (h : s.Owned lost) (hpc : s.pcs.lookup t = none) (r : EndpointReturn) :
    (s.ret t r).Owned lost :=
  Holdings.keep h hpc none rfl nofun

theorem Owned.checked (h : s.Owned lost) (hpc : s.pcs.lookup t = none) (valid : Bool)
    {found : LiveEmulator → EndpointState} {missing : EndpointReturn}
    (hfound : ∀ live, s.liveEmulators.lookup handle = some live → (found live).Owned lost) :
    (s.checked t handle valid found missing).Owned lost := by
  rw [EndpointState.checked]
  split_ifs
  · exact h.ret hpc _
  · exact h.ret hpc _
  · exact h.ret hpc _
  · cases hlookup : s.liveEmulators.lookup handle with
    | none => exact h.ret hpc _
    | some live => exact hfound live hlookup

theorem linked_of_lookup {live : LiveEmulator}
    (hlookup : s.liveEmulators.lookup handle = some live) :
    linked s.liveEmulators = live.emu ::ₘ linked (s.liveEmulators.erase handle) :=
  tableOwners_of_lookup _ _ hlookup

theorem Owned.acquire (h : s.Owned lost) (hpc : s.pcs.lookup t = none) (out : Bool)
    (devId : UInt32) (loads creates : Bool) : (s.acquire t out devId loads creates).Owned lost := by
  have hloaded : (s.ensureLoaded loads).Owned lost := by
    rw [ensureLoaded]
    split_ifs
    · exact h
    · exact h
  have hpcs : (s.ensureLoaded loads).pcs.lookup t = none := by
    rw [ensureLoaded]
    split_ifs <;> exact hpc
  rw [EndpointState.acquire]
  split_ifs
  · exact h.ret hpc _
  · exact hloaded.ret hpcs _
  · exact hloaded.ret hpcs _
  · exact hloaded.ret hpcs _
  · exact Holdings.alloc hloaded hpcs (some (.linking ⟨_, devId⟩)) rfl devId rfl rfl

theorem Owned.release (h : s.Owned lost) (hpc : s.pcs.lookup t = none) (handle : UInt64) :
    (s.release t handle).Owned lost := by
  refine h.checked hpc true fun live hlookup => ?_
  rw [Owned, linked_of_lookup hlookup, Multiset.cons_add] at h
  exact h.take hpc (some (.deleting live.emu)) rfl rfl rfl

theorem Owned.access (h : s.Owned lost) (hpc : s.pcs.lookup t = none) (handle : UInt64)
    (a : DgpuAccess) (answer : Int) : (s.access t handle a answer).Owned lost := by
  refine h.checked hpc _ fun live hlookup => ?_
  cases a.refused with
  | some rc => exact h.ret hpc _
  | none =>
    refine Holdings.keep h hpc (some (.calling live.emu answer)) rfl ?_
    intro p hp
    obtain rfl := Option.some.inj hp
    refine (Holdings.accounts h |>.block_isSome_iff live.emu).mpr ?_
    rw [linked_of_lookup hlookup, Multiset.cons_add, Multiset.cons_add]
    exact Multiset.mem_cons_self _ _

theorem Owned.startAt (h : s.Owned lost) (op : EndpointOp)
    (hpc : s.pcs.lookup op.thread = none) : (s.startAt op).Owned lost := by
  cases op with
  | acquire t out devId loads creates => exact h.acquire hpc out devId loads creates
  | release t handle => exact h.release hpc handle
  | getAdapterInfo t handle out answer =>
    exact h.checked hpc out fun live _ =>
      Holdings.keep h hpc (some (.lookupDevId handle answer)) rfl nofun
  | access t handle a answer => exact h.access hpc handle a answer
  | advance t => exact h

/-- The emulator of the next handle, if it is in use. -/
def overwritten (s : EndpointState) : Multiset ℕ :=
  ((s.liveEmulators.lookup s.nextHandleId).map LiveEmulator.emu).toList

/-- The emulators that a step takes the handles away from. -/
def loses (s : EndpointState) : EndpointOp → Multiset ℕ
  | .advance t =>
    match s.pcs.lookup t with
    | some (.linking _) => s.overwritten
    | _ => 0
  | _ => 0

theorem linked_eq_overwritten (s : EndpointState) :
    linked s.liveEmulators = s.overwritten + linked (s.liveEmulators.erase s.nextHandleId) := by
  rw [overwritten]
  cases hlookup : s.liveEmulators.lookup s.nextHandleId with
  | none =>
    rw [linked, linked, tableOwners_erase_of_notMem _ _ (AList.lookup_eq_none.mp hlookup)]
    exact (zero_add _).symm
  | some live =>
    rw [linked_of_lookup hlookup, ← Multiset.singleton_add]
    rfl

theorem Owned.link (h : s.Owned lost) {live : LiveEmulator}
    (hpc : s.pcs.lookup t = some (.linking live)) :
    (s.link t live).Owned (s.overwritten + lost) := by
  have hafter := Holdings.enter h hpc none rfl rfl rfl
  have hlinked : live.emu ::ₘ (linked s.liveEmulators + lost) =
      linked (s.liveEmulators.insert s.nextHandleId live) + (s.overwritten + lost) := by
    rw [linked_eq_overwritten, linked, linked, tableOwners_insert, Multiset.singleton_add,
      Multiset.cons_add, ← add_assoc, add_comm s.overwritten]
  rw [hlinked] at hafter
  exact hafter

theorem Owned.advance (h : s.Owned lost) {pc : EndpointPc} (hpc : s.pcs.lookup t = some pc)
    (hG : s.FreesUnused (.advance t)) :
    (s.advanceAt true t pc).Owned (s.loses (.advance t) + lost) := by
  rw [loses, hpc]
  cases pc with
  | linking live => exact h.link hpc
  | lookupDevId handle answer =>
    rw [zero_add]
    have hret (r : EndpointReturn) : (s.ret t r).Owned lost := Holdings.keep h hpc none rfl nofun
    simp only [EndpointState.advanceAt, deviceInfo]
    cases s.liveEmulators.lookup handle with
    | none => exact hret _
    | some live =>
      show (if live.devId = 0 then _ else _ : EndpointState).Owned lost
      split_ifs
      · exact hret _
      · exact hret _
  | calling emu answer =>
    rw [zero_add]
    have hlive := Holdings.live h t _ hpc emu rfl
    have haccounts := Holdings.accounts h
    have haccess := haccounts.access ((haccounts.block_isSome_iff emu).mp hlive)
    simp only [EndpointState.advanceAt, haccess]
    exact Holdings.keep h hpc none rfl nofun
  | deleting emu =>
    rw [zero_add]
    exact Holdings.release h hpc none rfl rfl rfl (hG emu hpc)

theorem Owned.step (h : s.Owned lost) (op : EndpointOp) (hG : s.FreesUnused op) :
    (s.step true op).Owned (s.loses op + lost) := by
  have hstays (hop : s.loses op = 0) : s.Owned (s.loses op + lost) := by
    rw [hop, zero_add]
    exact h
  rw [EndpointState.step]
  cases hpc : s.pcs.lookup op.thread with
  | none =>
    have hop : s.loses op = 0 := by
      cases op with
      | advance t =>
        rw [loses]
        rw [EndpointOp.thread] at hpc
        rw [hpc]
      | _ => rfl
    rw [hop, zero_add]
    exact h.startAt op hpc
  | some pc =>
    cases op with
    | advance t => exact h.advance hpc hG
    | acquire t out devId loads creates => exact hstays rfl
    | release t handle => exact hstays rfl
    | getAdapterInfo t handle out answer => exact hstays rfl
    | access t handle a answer => exact hstays rfl

/-- Before the counter wraps, no emulator is lost. -/
theorem loses_eq_zero (h : s.Handed) (op : EndpointOp)
    (hroom : (s.step true op).given.length < UInt64.size) : s.loses op = 0 := by
  cases op with
  | advance t =>
    rw [loses]
    split
    · rename_i live hpc
      have hgiven : (s.step true (.advance t)).given = s.nextHandleId :: s.given := by
        simp only [EndpointState.step, EndpointOp.thread, hpc]
        exact given_ret _ t _
      rw [hgiven, List.length_cons] at hroom
      have hfree : s.nextHandleId ∉ s.liveEmulators :=
        fun hmem => h.notMem hroom (h.live _ hmem)
      rw [overwritten, AList.lookup_eq_none.mpr hfree]
      rfl
    · rfl
  | acquire t out devId loads creates => rfl
  | release t handle => rfl
  | getAdapterInfo t handle out answer => rfl
  | access t handle a answer => rfl

/-- A step that leaves every thread with emulators that are there meets the condition. -/
theorem freesUnused_of_safe (h : s.Owned lost) (op : EndpointOp)
    (hsafe : (s.step true op).Safe) : s.FreesUnused op := by
  cases op with
  | advance t =>
    intro emu hpc
    have hstep : s.step true (.advance t) =
        { s with heap := s.heap.release emu }.ret t (.code 0) := by
      simp only [EndpointState.step, EndpointOp.thread, hpc]
      rfl
    rw [hstep] at hsafe
    exact Holdings.unused_of_release h hpc none rfl hsafe
  | acquire t out devId loads creates => trivial
  | release t handle => trivial
  | getAdapterInfo t handle out answer => trivial
  | access t handle a answer => trivial

end Steps

/-! ### Emulators that are never destroyed -/

/-- The same state, on a heap where every emulator that is there is there too. -/
def Undestroyed (s' s : EndpointState) : Prop :=
  ∃ heap, Outlives heap s.heap ∧ s' = { s with heap := heap }

section Undestroyed

variable {s s' : EndpointState} {t : ℕ} {handle : UInt64}

theorem Undestroyed.goto (h : Undestroyed s' s) (t : ℕ) (pc : EndpointPc) :
    Undestroyed (s'.goto t pc) (s.goto t pc) := by
  obtain ⟨heap, hout, rfl⟩ := h
  exact ⟨heap, hout, rfl⟩

theorem Undestroyed.ret (h : Undestroyed s' s) (t : ℕ) (r : EndpointReturn) :
    Undestroyed (s'.ret t r) (s.ret t r) := by
  obtain ⟨heap, hout, rfl⟩ := h
  exact ⟨heap, hout, rfl⟩

theorem Undestroyed.checked (h : Undestroyed s' s) (valid : Bool)
    {found found' : LiveEmulator → EndpointState} {missing : EndpointReturn}
    (hfound : ∀ live, Undestroyed (found' live) (found live)) :
    Undestroyed (s'.checked t handle valid found' missing)
      (s.checked t handle valid found missing) := by
  have hret := h.ret t
  obtain ⟨heap, hout, rfl⟩ := h
  simp only [EndpointState.checked]
  split_ifs
  · exact hret _
  · exact hret _
  · exact hret _
  · cases s.liveEmulators.lookup handle with
    | none => exact hret _
    | some live => exact hfound live

theorem Undestroyed.acquire (h : Undestroyed s' s) (t : ℕ) (out : Bool) (devId : UInt32)
    (loads creates : Bool) :
    Undestroyed (s'.acquire t out devId loads creates) (s.acquire t out devId loads creates) := by
  have hloaded : Undestroyed (s'.ensureLoaded loads) (s.ensureLoaded loads) := by
    obtain ⟨heap, hout, rfl⟩ := h
    simp only [ensureLoaded]
    split_ifs
    · exact ⟨heap, hout, rfl⟩
    · exact ⟨heap, hout, rfl⟩
  have hsyms : (s'.ensureLoaded loads).symsResolved = (s.ensureLoaded loads).symsResolved := by
    obtain ⟨heap, hout, heq⟩ := hloaded
    rw [heq]
  rw [EndpointState.acquire, EndpointState.acquire, hsyms]
  split_ifs
  · exact h.ret t _
  · exact hloaded.ret t _
  · exact hloaded.ret t _
  · exact hloaded.ret t _
  · obtain ⟨heap, hout, heq⟩ := hloaded
    refine ⟨(heap.alloc devId).2, hout.alloc devId, ?_⟩
    rw [heq, create, create]
    show EndpointState.goto _ t (.linking ⟨heap.next, devId⟩) = _
    rw [hout.next]
    rfl

theorem Undestroyed.startAt (h : Undestroyed s' s) (op : EndpointOp) :
    Undestroyed (s'.startAt op) (s.startAt op) := by
  cases op with
  | acquire t out devId loads creates => exact h.acquire t out devId loads creates
  | release t handle =>
    refine h.checked true fun live => Undestroyed.goto ?_ t _
    obtain ⟨heap, hout, rfl⟩ := h
    exact ⟨heap, hout, rfl⟩
  | getAdapterInfo t handle out answer => exact h.checked out fun live => h.goto t _
  | access t handle a answer =>
    refine h.checked _ fun live => ?_
    cases a.refused with
    | some rc => exact h.ret t _
    | none => exact h.goto t _
  | advance t => exact h

/-- What the threads do next.  The library calls get the same emulators, since they are there. -/
theorem Undestroyed.advanceAt (h : Undestroyed s' s) {pc : EndpointPc}
    (hlive : ∀ emu ∈ pc.uses, (s.heap.block emu).isSome = true) (t : ℕ) :
    Undestroyed (s'.advanceAt false t pc) (s.advanceAt true t pc) := by
  obtain ⟨heap, hout, rfl⟩ := h
  cases pc with
  | linking live => exact ⟨heap, hout, rfl⟩
  | lookupDevId handle answer =>
    simp only [EndpointState.advanceAt, deviceInfo]
    cases s.liveEmulators.lookup handle with
    | none => exact ⟨heap, hout, rfl⟩
    | some live =>
      show Undestroyed (if live.devId = 0 then _ else _) (if live.devId = 0 then _ else _)
      split_ifs
      · exact ⟨heap, hout, rfl⟩
      · exact ⟨heap, hout, rfl⟩
  | calling emu answer =>
    refine ⟨heap.access emu, hout.access emu, ?_⟩
    have hread : heap.read emu = s.heap.read emu := hout.read emu (hlive emu rfl)
    simp only [EndpointState.advanceAt, hread]
    rfl
  | deleting emu => exact ⟨heap, hout.release, rfl⟩

theorem Undestroyed.step (h : Undestroyed s' s) (hsafe : s.Safe) (op : EndpointOp) :
    Undestroyed (s'.step false op) (s.step true op) := by
  have hpcs : s'.pcs = s.pcs := by
    obtain ⟨heap, hout, rfl⟩ := h
    rfl
  rw [EndpointState.step, EndpointState.step, hpcs]
  cases hpc : s.pcs.lookup op.thread with
  | none => exact h.startAt op
  | some pc =>
    cases op with
    | advance t => exact h.advanceAt (hsafe.live t pc hpc) t
    | acquire t out devId loads creates => exact h
    | release t handle => exact h
    | getAdapterInfo t handle out answer => exact h
    | access t handle a answer => exact h

end Undestroyed

/-! ### Runs -/

/-- All emulators have an owner or are lost, and none is lost before the counter wraps. -/
structure EndpointInv (s : EndpointState) : Prop where
  handed : s.Handed
  owned : ∃ lost, s.Owned lost ∧ (s.given.length < UInt64.size → lost = 0)

theorem endpointInv_initial : EndpointInv initial :=
  ⟨handed_initial, 0, owned_initial, fun _ => rfl⟩

theorem EndpointInv.safe {s : EndpointState} (h : s.EndpointInv) : s.Safe := by
  obtain ⟨lost, howned, -⟩ := h.owned
  exact Holdings.borrowsLive howned

theorem endpointInv_step {s : EndpointState} (h : s.EndpointInv) (op : EndpointOp)
    (hG : s.FreesUnused op) : (s.step true op).EndpointInv := by
  have hstep := handleStep_step true s op
  obtain ⟨lost, howned, hlost⟩ := h.owned
  refine ⟨h.handed.step hstep, s.loses op + lost, howned.step op hG, fun hroom => ?_⟩
  rw [loses_eq_zero h.handed op hroom, hlost (Nat.lt_of_le_of_lt hstep.length_given hroom),
    zero_add]

theorem endpointInv_run {ops : List EndpointOp}
    (hG : Guarded (step true) FreesUnused initial ops) :
    (run (step true) initial ops).EndpointInv :=
  run_of_inductive (I := EndpointInv) (fun _ op hs hG => endpointInv_step hs op hG)
    endpointInv_initial hG

theorem undestroyed_run {s s' : EndpointState} (hs : s.EndpointInv) (h : Undestroyed s' s)
    {ops : List EndpointOp} (hG : Guarded (step true) FreesUnused s ops) :
    Undestroyed (run (step false) s' ops) (run (step true) s ops) := by
  induction ops generalizing s s' with
  | nil => exact h
  | cons op ops ih => exact ih (endpointInv_step hs op hG.1) (h.step hs.safe op) hG.2

/-- When no thread is in a call and no handle has been used twice, the emulators are those that have
handles. -/
theorem EndpointInv.quiet {s : EndpointState} (h : s.EndpointInv)
    (hroom : s.given.length < UInt64.size) (hquiet : s.pcs = ∅) (emu : ℕ) :
    (s.heap.block emu).isSome = true ↔
      ∃ handle live, s.liveEmulators.lookup handle = some live ∧ live.emu = emu := by
  obtain ⟨lost, howned, hlost⟩ := h.owned
  obtain rfl := hlost hroom
  rw [(Holdings.accounts howned).block_isSome_iff, hquiet]
  show emu ∈ linked s.liveEmulators + 0 + 0 ↔ _
  rw [add_zero, add_zero, linked, mem_tableOwners]
  refine exists_congr fun handle => exists_congr fun live => and_congr_right' ?_
  rw [Multiset.mem_singleton, eq_comm]

end EndpointState

open EndpointState

/-- **Handles of emulators.**  No thread is ever left with a destroyed emulator in hand exactly when
no release destroys an emulator that another thread has looked up and not let go; then every call
returns what it returns if emulators are never destroyed.  As long as fewer than `2 ^ 64` handles
have been given out, the emulators that exist while no call is under way are those that have
handles, and a handle that is gone stays gone. -/
theorem backdoorEndpoint_safe_iff (ops : List EndpointOp) :
    (Always (step true) Safe initial ops ↔ Guarded (step true) FreesUnused initial ops) ∧
      (Guarded (step true) FreesUnused initial ops →
        let s := run (step true) initial ops
        s.returns = (run (step false) initial ops).returns ∧
          (s.given.length < UInt64.size → s.pcs = ∅ → ∀ emu, (s.heap.block emu).isSome = true ↔
            ∃ handle live, s.liveEmulators.lookup handle = some live ∧ live.emu = emu)) ∧
      ∀ handle, Gone handle (run (step true) initial ops) →
        ∀ later, (run (step true) initial (ops ++ later)).given.length < UInt64.size →
          Gone handle (run (step true) initial (ops ++ later)) := by
  refine ⟨?_, fun hG => ⟨?_, fun hroom hquiet => (endpointInv_run hG).quiet hroom hquiet⟩, ?_⟩
  · refine always_iff_guarded (fun s op hs hG => endpointInv_step hs op hG) (fun s hs => hs.safe)
      (fun s op hs hsafe => ?_) ops endpointInv_initial
    obtain ⟨lost, howned, -⟩ := hs.owned
    exact freesUnused_of_safe howned op hsafe
  · have hrun : Undestroyed (run (step false) initial ops) (run (step true) initial ops) :=
      undestroyed_run endpointInv_initial ⟨.empty, Outlives.refl _, rfl⟩ hG
    obtain ⟨heap, hout, heq⟩ := hrun
    exact (congrArg EndpointState.returns heq).symm
  · intro handle hgone later hroom
    rw [run_append] at hroom ⊢
    have hhanded : (run (step true) initial ops).Handed :=
      run_of_invariant (fun s op h => h.step (handleStep_step true s op)) ops handed_initial
    exact hgone.run hhanded later hroom

end UsrLinuxEmu.SimHardware
