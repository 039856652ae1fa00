import UsrLinuxEmu.GpuDriver.Puller
import UsrLinuxEmu.Transition.Simulation

/-!
# The jump stack for indirect buffers (`sim/hardware/hardware_puller_emu.cpp`)

A jump saves the fetch registers in the frame at the current depth and points them at the target;
completing it takes the frame back if the jump was to continue.  The frames are a stack, the
continue flag is a single variable.

* `processIbJump`, `completeIbJump` — the operations, and `IbOp.progress` for what fetching does
  to the registers in between;
* `OpenJump` — what a call history knows of a jump that is not completed;
* `IbLaw` — a failed jump changes nothing, a completed one restores the registers;
* `ib_jump_iff` — the runs that keep to it: those in which a jump within which another was
  completed finds the registers as it saved them.
-/

namespace UsrLinuxEmu.GpuDriver

open UsrLinuxEmu.Transition

/-! ### The operations -/

def ibEfault : Int := -14
def ibE2big : Int := -7
def ibEinval : Int := -22

/-- The fetch registers and the jump state of the puller; a frame holds saved registers. -/
structure IbPuller where
  fetch : GpfifoRegs
  jumpStack : Fin maxIbNest → GpfifoRegs
  jumpDepth : Fin (maxIbNest + 1)
  isInJump : Bool
  jumpTargetAddr : UInt64
  jumpTargetSize : UInt64
  jumpContinue : Bool

namespace IbPuller

/-- The puller outside any jump; the frames are not initialised. -/
def idle (fetch : GpfifoRegs) (jumpStack : Fin maxIbNest → GpfifoRegs) : IbPuller where
  fetch := fetch
  jumpStack := jumpStack
  jumpDepth := 0
  isInJump := false
  jumpTargetAddr := 0
  jumpTargetSize := 0
  jumpContinue := false

/-- `probeRet` is what `mem_read` of the HAL returns for the first bytes of the target. -/
def processIbJump (s : IbPuller) (probeRet : Int) (entry : GpuGpfifoEntry) : Int × IbPuller :=
  let targetGpuVa := entry.payload.getD 0 0
  let continueFlag := entry.payload.getD 1 0
  let targetSize := entry.payload.getD 2 0
  if probeRet ≠ 0 then (ibEfault, s)
  else if h : s.jumpDepth.val < maxIbNest then
    (0, { s with
      jumpStack := Function.update s.jumpStack ⟨s.jumpDepth, h⟩ s.fetch
      jumpDepth := ⟨s.jumpDepth + 1, Nat.succ_lt_succ h⟩
      isInJump := true
      jumpTargetAddr := targetGpuVa
      jumpTargetSize := targetSize
      jumpContinue := continueFlag != 0
      fetch := { s.fetch with gpfifoAddr := targetGpuVa, index := 0, total := targetSize.toNat } })
  else (ibE2big, s)

def completeIbJump (s : IbPuller) : Int × IbPuller :=
  if hin : s.isInJump = false ∨ s.jumpDepth = 0 then (ibEinval, s)
  else
    let top : Fin maxIbNest := s.jumpDepth.pred fun h => hin (.inr h)
    let fetch := if s.jumpContinue then s.jumpStack top else s.fetch
    if top.val = 0 then
      (0, { s with
        jumpDepth := top.castSucc, fetch := fetch, isInJump := false, jumpTargetAddr := 0
        jumpTargetSize := 0, jumpContinue := false })
    else
      (0, { s with
        jumpDepth := top.castSucc, fetch := fetch, jumpTargetAddr := fetch.gpfifoAddr
        jumpTargetSize := UInt64.ofNat fetch.total, jumpContinue := false })

end IbPuller

/-- A call, or any change that fetching makes to the registers. -/
inductive IbOp where
  | jump (probeRet : Int) (entry : GpuGpfifoEntry)
  | complete
  | progress (regs : GpfifoRegs)
  deriving DecidableEq, Repr

def IbPuller.step (s : IbPuller) : IbOp → IbPuller
  | .jump probeRet entry => (s.processIbJump probeRet entry).2
  | .complete => s.completeIbJump.2
  | .progress regs => { s with fetch := regs }

/-! ### The law -/

/-- A jump that was taken and is not completed: the registers then, its flag, and whether a jump
within it was completed. -/
structure OpenJump where
  regs : GpfifoRegs
  continues : Bool
  nestedDone : Bool
  deriving DecidableEq, Repr

/-- The open jumps after a call, the newest first. -/
def noteJumps (opened : List OpenJump) (s : IbPuller) : IbOp → List OpenJump
  | .jump probeRet entry =>
    if (s.processIbJump probeRet entry).1 = 0 then
      ⟨s.fetch, entry.payload.getD 1 0 != 0, false⟩ :: opened
    else opened
  | .complete =>
    if s.completeIbJump.1 = 0 then
      match opened with
      | _ :: outer :: rest => { outer with nestedDone := true } :: rest
      | _ => []
    else opened
  | .progress _ => opened

abbrev ibStep := observed IbPuller.step noteJumps

/-- What a call does. -/
def IbLaw (x : List OpenJump × IbPuller) : IbOp → Prop
  | .jump probeRet entry =>
    (x.2.processIbJump probeRet entry).1 ≠ 0 → (x.2.processIbJump probeRet entry).2 = x.2
  | .complete => ∀ j ∈ x.1.head?, j.continues = true →
    x.2.completeIbJump.1 = 0 ∧ x.2.completeIbJump.2.fetch = j.regs
  | .progress _ => True

/-- `isInJump` holds exactly while the depth is positive, and the depth counts the open jumps. -/
def DepthLaw (x : List OpenJump × IbPuller) : Prop :=
  (x.2.isInJump = true ↔ 0 < x.2.jumpDepth.val) ∧ x.2.jumpDepth.val = x.1.length

/-- A jump that is completed after one within it finds the registers as it saved them. -/
def nestedJumpsRestored (x : List OpenJump × IbPuller) : IbOp → Prop
  | .complete => ∀ j ∈ x.1.head?, j.continues = true → j.nestedDone = true → x.2.fetch = j.regs
  | .jump .. | .progress _ => True

/-! ### What the calls do -/

theorem processIbJump_cases (s : IbPuller) (probeRet : Int) (entry : GpuGpfifoEntry) :
    ((s.processIbJump probeRet entry).1 ≠ 0 ∧ (s.processIbJump probeRet entry).2 = s) ∨
      ∃ h : s.jumpDepth.val < maxIbNest, (s.processIbJump probeRet entry).1 = 0 ∧
        (s.processIbJump probeRet entry).2.jumpStack =
          Function.update s.jumpStack ⟨s.jumpDepth, h⟩ s.fetch ∧
        (s.processIbJump probeRet entry).2.jumpDepth.val = s.jumpDepth.val + 1 ∧
        (s.processIbJump probeRet entry).2.isInJump = true ∧
        (s.processIbJump probeRet entry).2.jumpContinue = (entry.payload.getD 1 0 != 0) := by
  unfold IbPuller.processIbJump
  by_cases hprobe : probeRet ≠ 0
  · left
    rw [if_pos hprobe]
    exact ⟨(by decide : ibEfault ≠ 0), rfl⟩
  · rw [if_neg hprobe]
    by_cases hdepth : s.jumpDepth.val < maxIbNest
    · right
      refine ⟨hdepth, ?_⟩
      rw [dif_pos hdepth]
      exact ⟨rfl, rfl, rfl, rfl, rfl⟩
    · left
      rw [dif_neg hdepth]
      exact ⟨(by decide : ibE2big ≠ 0), rfl⟩

theorem completeIbJump_none {s : IbPuller} (h : s.jumpDepth.val = 0) :
    s.completeIbJump = (ibEinval, s) := by
  rw [IbPuller.completeIbJump, dif_pos (.inr (Fin.ext h))]

theorem completeIbJump_some {s : IbPuller} (hin : s.isInJump = true) {d : Fin maxIbNest}
    (hd : s.jumpDepth.val = d.val + 1) :
    s.completeIbJump.1 = 0 ∧ s.completeIbJump.2.jumpStack = s.jumpStack ∧
      s.completeIbJump.2.jumpDepth.val = d.val ∧
      (s.completeIbJump.2.isInJump = true ↔ 0 < d.val) ∧
      s.completeIbJump.2.jumpContinue = false ∧
      s.completeIbJump.2.fetch = if s.jumpContinue then s.jumpStack d else s.fetch := by
  have hne : s.jumpDepth ≠ 0 := by
    intro h
    rw [h] at hd
    exact absurd hd (Nat.succ_ne_zero d.val).symm
  have hcond : ¬(s.isInJump = false ∨ s.jumpDepth = 0) := by
    rintro (h | h)
    · rw [hin] at h
      cases h
    · exact hne h
  have htop : s.jumpDepth.pred hne = d := by
    apply Fin.ext
    rw [Fin.val_pred, hd, Nat.add_sub_cancel]
  rw [IbPuller.completeIbJump, dif_neg hcond]
  simp only [htop]
  by_cases hzero : d.val = 0
  · rw [if_pos hzero]
    refine ⟨rfl, rfl, rfl, ?_, rfl, rfl⟩
    constructor
    · intro h
      cases h
    · intro h
      omega
  · rw [if_neg hzero]
    refine ⟨rfl, rfl, rfl, ?_, rfl, rfl⟩
    exact ⟨fun _ => Nat.pos_of_ne_zero hzero, fun _ => hin⟩

/-! ### The stack of frames -/

/-- The frames hold the registers of the open jumps, and the flag is that of the newest one unless
a jump within it was completed. -/
structure IbInv (x : List OpenJump × IbPuller) : Prop where
  depth : DepthLaw x
  frames : ∀ d : Fin maxIbNest, d.val < x.1.length →
    ∃ j, x.1[x.1.length - 1 - d.val]? = some j ∧ x.2.jumpStack d = j.regs
  flag : x.2.jumpContinue = (x.1.head?.elim false fun j => j.continues && !j.nestedDone)

theorem ibInv_idle (fetch : GpfifoRegs) (jumpStack : Fin maxIbNest → GpfifoRegs) :
    IbInv ([], .idle fetch jumpStack) where
  depth := ⟨by simp [IbPuller.idle], rfl⟩
  frames := by simp
  flag := rfl

/-- The newest open jump lies in the top frame. -/
theorem IbInv.top {j : OpenJump} {opened : List OpenJump} {s : IbPuller}
    (h : IbInv (j :: opened, s)) :
    ∃ d : Fin maxIbNest, s.jumpDepth.val = d.val + 1 ∧ s.jumpStack d = j.regs ∧
      s.isInJump = true := by
  have hdepth := h.depth.2
  rw [List.length_cons] at hdepth
  have hle := s.jumpDepth.isLt
  have hd : opened.length < maxIbNest := by omega
  obtain ⟨j', hget, hframe⟩ := h.frames ⟨opened.length, hd⟩ (Nat.lt_succ_self _)
  refine ⟨⟨opened.length, hd⟩, hdepth, ?_, h.depth.1.mpr (by omega)⟩
  rw [hframe]
  simp only [List.length_cons, Nat.add_sub_cancel, Nat.sub_self, List.getElem?_cons_zero,
    Option.some.injEq] at hget
  rw [hget]

/-- A jump that is taken saves the registers in the frame that comes next. -/
theorem ibInv_jump {opened : List OpenJump} {s : IbPuller} (h : IbInv (opened, s)) (probeRet : Int)
    (entry : GpuGpfifoEntry) : IbInv (ibStep (opened, s) (.jump probeRet entry)) := by
  rcases processIbJump_cases s probeRet entry with ⟨hret, hsame⟩ |
    ⟨hlt, hret, hstack, hdepth, hin, hflag⟩
  · have hstep : ibStep (opened, s) (.jump probeRet entry) = (opened, s) := by
      simp only [ibStep, observed, noteJumps, if_neg hret, IbPuller.step, hsame]
    rw [hstep]
    exact h
  have hlen : s.jumpDepth.val = opened.length := h.depth.2
  have hnote : noteJumps opened s (.jump probeRet entry) =
      ⟨s.fetch, entry.payload.getD 1 0 != 0, false⟩ :: opened := by
    simp only [noteJumps, if_pos hret]
  refine ⟨⟨?_, ?_⟩, fun d hd => ?_, ?_⟩
  · simp only [ibStep, observed, IbPuller.step, hin, hdepth]
    exact ⟨fun _ => Nat.succ_pos _, fun _ => trivial⟩
  · simp only [ibStep, observed, IbPuller.step, hdepth, hnote, List.length_cons, hlen]
  · simp only [ibStep, observed, IbPuller.step, hnote, hstack, List.length_cons,
      Nat.add_sub_cancel] at hd ⊢
    by_cases htop : d.val = opened.length
    · refine ⟨_, by rw [htop, Nat.sub_self, List.getElem?_cons_zero], ?_⟩
      have hd' : d = ⟨s.jumpDepth, hlt⟩ := Fin.ext (htop.trans hlen.symm)
      rw [hd', Function.update_self]
    · obtain ⟨j, hget, hframe⟩ := h.frames d (show d.val < opened.length by omega)
      refine ⟨j, ?_, ?_⟩
      · have hpos : opened.length - d.val = opened.length - 1 - d.val + 1 := by omega
        rw [hpos, List.getElem?_cons_succ]
        exact hget
      · rw [Function.update_of_ne, hframe]
        intro heq
        exact htop ((congrArg Fin.val heq).trans hlen)
  · simp only [ibStep, observed, IbPuller.step, hflag, hnote, List.head?_cons, Option.elim_some,
      Bool.not_false, Bool.and_true]

/-- The frames below the top hold the registers of the outer jumps, also with the next one
marked. -/
theorem frames_mark {stack : Fin maxIbNest → GpfifoRegs} {j outer : OpenJump}
    {rest : List OpenJump}
    (h : ∀ d : Fin maxIbNest, d.val < (j :: outer :: rest).length →
      ∃ j', (j :: outer :: rest)[(j :: outer :: rest).length - 1 - d.val]? = some j' ∧
        stack d = j'.regs)
    (e : Fin maxIbNest) (he : e.val < rest.length + 1) :
    ∃ j', ({ outer with nestedDone := true } :: rest)[rest.length - e.val]? = some j' ∧
      stack e = j'.regs := by
  obtain ⟨j', hget, hframe⟩ := h e (by simp only [List.length_cons]; omega)
  have hpos : (j :: outer :: rest).length - 1 - e.val = rest.length - e.val + 1 := by
    simp only [List.length_cons]
    omega
  rw [hpos, List.getElem?_cons_succ] at hget
  -- marking leaves the registers alone
  cases hi : rest.length - e.val with
  | zero =>
    rw [hi, List.getElem?_cons_zero] at hget
    obtain rfl := Option.some.inj hget
    exact ⟨{ outer with nestedDone := true }, List.getElem?_cons_zero, hframe⟩
  | succ i =>
    rw [hi, List.getElem?_cons_succ] at hget
    refine ⟨j', ?_, hframe⟩
    rw [List.getElem?_cons_succ]
    exact hget

theorem ibInv_complete {opened : List OpenJump} {s : IbPuller} (h : IbInv (opened, s)) :
    IbInv (ibStep (opened, s) .complete) := by
  cases opened with
  | nil =>
    have hzero : s.jumpDepth.val = 0 := h.depth.2
    have hstep : ibStep ([], s) .complete = ([], s) := by
      simp only [ibStep, observed, noteJumps, IbPuller.step, completeIbJump_none hzero]
      rfl
    rw [hstep]
    exact h
  | cons j opened =>
    obtain ⟨d, hd, -, hin⟩ := h.top
    obtain ⟨hret, hstack, hdepth, hinJump, hflag, -⟩ := completeIbJump_some hin hd
    have hlen : d.val = opened.length := by
      have hall : s.jumpDepth.val = opened.length + 1 := h.depth.2
      omega
    cases opened with
    | nil =>
      refine ⟨⟨?_, ?_⟩, ?_, ?_⟩
      · simp only [ibStep, observed, IbPuller.step, hinJump, hdepth]
      · simp only [ibStep, observed, noteJumps, if_pos hret, IbPuller.step, hdepth, hlen]
      · simp [ibStep, observed, noteJumps, if_pos hret]
      · simp only [ibStep, observed, noteJumps, if_pos hret, IbPuller.step, hflag,
          List.head?_nil, Option.elim_none]
    | cons outer rest =>
      rw [List.length_cons] at hlen
      refine ⟨⟨?_, ?_⟩, fun e he => ?_, ?_⟩
      · simp only [ibStep, observed, IbPuller.step, hinJump, hdepth]
      · simp only [ibStep, observed, noteJumps, if_pos hret, IbPuller.step, hdepth, hlen,
          List.length_cons]
      · simp only [ibStep, observed, noteJumps, if_pos hret, IbPuller.step, hstack,
          List.length_cons, Nat.add_sub_cancel] at he ⊢
        exact frames_mark h.frames e he
      · simp only [ibStep, observed, noteJumps, if_pos hret, IbPuller.step, hflag,
          List.head?_cons, Option.elim_some, Bool.not_true, Bool.and_false]

theorem ibInv_step (x : List OpenJump × IbPuller) (op : IbOp) (h : IbInv x) :
    IbInv (ibStep x op) := by
  cases op with
  | progress regs => exact ⟨h.depth, h.frames, h.flag⟩
  | jump probeRet entry => exact ibInv_jump h probeRet entry
  | complete => exact ibInv_complete h

/-! ### The result -/

theorem ibLaw_iff {x : List OpenJump × IbPuller} (h : IbInv x) (op : IbOp) :
    IbLaw x op ↔ nestedJumpsRestored x op := by
  obtain ⟨opened, s⟩ := x
  cases op with
  | progress regs => exact Iff.rfl
  | jump probeRet entry =>
    refine iff_of_true (fun hret => ?_) trivial
    rcases processIbJump_cases s probeRet entry with ⟨-, hsame⟩ | ⟨-, hzero, -⟩
    · exact hsame
    · exact absurd hzero hret
  | complete =>
    cases opened with
    | nil => simp [IbLaw, nestedJumpsRestored]
    | cons j opened =>
      obtain ⟨d, hd, hframe, hin⟩ := h.top
      obtain ⟨hret, -, -, -, -, hfetch⟩ := completeIbJump_some hin hd
      have hflag : s.jumpContinue = (j.continues && !j.nestedDone) := h.flag
      simp only [IbLaw, nestedJumpsRestored, List.head?_cons, Option.mem_some_iff, forall_eq',
        hret, true_and, hfetch, hflag, hframe]
      refine imp_congr_right fun hcontinues => ?_
      rw [hcontinues, Bool.true_and]
      cases j.nestedDone with
      | false => simp
      | true => simp

/-- **Jump stack.**  The depth law holds in every state of a run and its calls keep to `IbLaw`
exactly when every jump that is completed after one within it finds the registers as it saved
them. -/
theorem ib_jump_iff (fetch : GpfifoRegs) (jumpStack : Fin maxIbNest → GpfifoRegs)
    (ops : List IbOp) :
    (Always ibStep DepthLaw ([], .idle fetch jumpStack) ops ∧
        Guarded ibStep IbLaw ([], .idle fetch jumpStack) ops) ↔
      Guarded ibStep nestedJumpsRestored ([], .idle fetch jumpStack) ops :=
  always_guarded_iff (fun x op h _ => ibInv_step x op h) (fun _ h => h.depth)
    (fun _ op h hG => (ibLaw_iff h op).mpr hG) (fun _ op h _ hR => (ibLaw_iff h op).mp hR)
    ops (ibInv_idle fetch jumpStack)

/-- The entry of a jump that continues. -/
def ibJumpEntry (target size : UInt64) : GpuGpfifoEntry :=
  { GpuGpfifoEntry.zero with payload := #v[target, 1, size, 0, 0, 0, 0] }

/-- Two nested jumps: completing the outer one leaves the registers in its indirect buffer. -/
theorem ib_jump_fails :
    ¬(Always ibStep DepthLaw ([], .idle ⟨0x1000, 1, 2, 7⟩ fun _ => ⟨0, 0, 0, 0⟩)
        [.jump 0 (ibJumpEntry 0x2000 3), .jump 0 (ibJumpEntry 0x3000 1), .complete, .complete] ∧
      Guarded ibStep IbLaw ([], .idle ⟨0x1000, 1, 2, 7⟩ fun _ => ⟨0, 0, 0, 0⟩)
        [.jump 0 (ibJumpEntry 0x2000 3), .jump 0 (ibJumpEntry 0x3000 1), .complete,
          .complete]) := by
  rintro ⟨-, -, -, -, hlast, -⟩
  have hrestored := (hlast ⟨⟨0x1000, 1, 2, 7⟩, true, true⟩ (by decide) rfl).2
  revert hrestored
  decide

end UsrLinuxEmu.GpuDriver
