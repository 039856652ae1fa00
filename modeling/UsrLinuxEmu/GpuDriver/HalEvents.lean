import Mathlib.Tactic.SplitIfs
import UsrLinuxEmu.Transition.CondVar
import UsrLinuxEmu.Transition.Run

/-!
# Event signal, wait and notify (`hal/hal_user.cpp`)

Any number of threads call `user_event_signal`, `user_event_wait` and `user_event_notify`.  All 256
events share one mutex and one condition variable; a signal wakes one thread and a notify wakes all,
each after it has given the mutex back.

* `HalEvents` — the flags, the condition variable, and the calls whose wake-up is still to be made;
* `HalEvents.step` — one lock region, or one wake-up;
* `halEvents_sound` — no call is lost or answered twice, and what the answers of a wait mean.
-/

namespace UsrLinuxEmu.GpuDriver

open UsrLinuxEmu.Transition

/-- A call of `user_event_wait`. -/
structure EventWaiter (τ : Type*) where
  thread : τ
  eventId : UInt32
  timeoutUs : UInt64
  deriving DecidableEq

inductive EventCall (τ : Type*) where
  | signal (thread : τ) (pasid eventId : UInt32) (events : UInt64)
  | wait (w : EventWaiter τ)
  | notify (thread : τ) (eventId : UInt32)
  deriving DecidableEq

/-- `owed` holds the calls that have set their flag and given the mutex back, and have not woken
anybody yet; `returned` the calls that are over, with what they returned. -/
structure HalEvents (τ : Type*) where
  eventSignaled : UInt32 → Bool
  eventCv : CondVar (EventWaiter τ)
  owed : List (EventCall τ)
  returned : List (EventCall τ × ℤ)

/-- `wakeUp` is `notify_one` or `notify_all`; the system chooses whom `notify_one` wakes.  A thread
may also wake for no reason, or because its time is over. -/
inductive EventAction (τ : Type*) where
  | call (c : EventCall τ)
  | wakeUp (c : EventCall τ) (pick : EventWaiter τ)
  | spurious (w : EventWaiter τ)
  | expire (w : EventWaiter τ)
  | resume (w : EventWaiter τ) (status : CvStatus)
  deriving DecidableEq

variable {τ : Type*} [DecidableEq τ]

namespace HalEvents

/-- `hal_user_init`. -/
def init : HalEvents τ := ⟨fun _ => false, .empty, [], []⟩

def ret (s : HalEvents τ) (c : EventCall τ) (rc : ℤ) : HalEvents τ :=
  { s with returned := s.returned ++ [(c, rc)] }

/-- The lock region of `user_event_signal` and `user_event_notify`. -/
def setSignaled (s : HalEvents τ) (c : EventCall τ) (eventId : UInt32) : HalEvents τ :=
  { s with
    eventSignaled := fun id => if id = eventId then true else s.eventSignaled id
    owed := s.owed ++ [c] }

/-- A call, up to where it first gives the mutex back. -/
def call (s : HalEvents τ) (c : EventCall τ) : HalEvents τ :=
  match c with
  | .signal _ _ eventId events =>
    if eventId ≥ 256 then s.ret c (-22)
    else if events = 0 then s.ret c (-22)
    else s.setSignaled c eventId
  | .wait w =>
    if w.eventId ≥ 256 then s.ret c (-22)
    else if w.timeoutUs = 0 then
      if s.eventSignaled w.eventId then s.ret c 0 else s.ret c (-110)
    else
      -- `cv.wait` and `cv.wait_for` look at the predicate before they sleep
      if s.eventSignaled w.eventId then s.ret c 0
      else { s with eventCv := s.eventCv.sleep w }
  | .notify _ eventId =>
    if eventId ≥ 256 then s.ret c (-22)
    else s.setSignaled c eventId

/-- The wake-up is made, and the call returns 0. -/
def woke (s : HalEvents τ) (c : EventCall τ) (cv : CondVar (EventWaiter τ)) : HalEvents τ :=
  { s with eventCv := cv, owed := s.owed.erase c, returned := s.returned ++ [(c, 0)] }

def wakeUp (s : HalEvents τ) (c : EventCall τ) (pick : EventWaiter τ) : HalEvents τ :=
  if c ∈ s.owed then
    match c with
    | .signal .. =>
      if s.eventCv.asleep = [] then s.woke c s.eventCv
      else if pick ∈ s.eventCv.asleep then s.woke c (s.eventCv.wake pick .noTimeout)
      else s
    | .notify .. => s.woke c s.eventCv.notifyAll
    | .wait _ => s
  else s

/-- A wait with `UINT64_MAX` has no time limit. -/
def expire (s : HalEvents τ) (w : EventWaiter τ) : HalEvents τ :=
  if w.timeoutUs = 0xFFFFFFFFFFFFFFFF then s
  else { s with eventCv := s.eventCv.wake w .timeout }

/-- A woken thread has the mutex again: it looks at the predicate, and returns what it finds if its
time is over. -/
def resume (s : HalEvents τ) (w : EventWaiter τ) (status : CvStatus) : HalEvents τ :=
  if (w, status) ∈ s.eventCv.woken then
    let s' := { s with eventCv := s.eventCv.relock w status }
    if s.eventSignaled w.eventId then s'.ret (.wait w) 0
    else if status = .timeout then s'.ret (.wait w) (-110)
    else { s' with eventCv := s'.eventCv.sleep w }
  else s

def step (s : HalEvents τ) : EventAction τ → HalEvents τ
  | .call c => s.call c
  | .wakeUp c pick => s.wakeUp c pick
  | .spurious w => { s with eventCv := s.eventCv.wake w .noTimeout }
  | .expire w => s.expire w
  | .resume w status => s.resume w status

/-- The condition a sleeper waits for. -/
def Ready (s : HalEvents τ) (w : EventWaiter τ) : Prop := s.eventSignaled w.eventId = true

/-! ### Every call is somewhere -/

/-- The calls that owe a wake-up, that wait, and that are over. -/
def ledger (s : HalEvents τ) : Multiset (EventCall τ) :=
  (s.owed : Multiset (EventCall τ)) + s.eventCv.waiters.map EventCall.wait +
    (s.returned.map Prod.fst : List (EventCall τ))

omit [DecidableEq τ] in
theorem ledger_ret (s : HalEvents τ) (c : EventCall τ) (rc : ℤ) :
    (s.ret c rc).ledger = s.ledger + {c} := by
  simp only [ledger, ret, List.map_append, List.map_cons, List.map_nil, ← Multiset.coe_add,
    Multiset.coe_singleton, add_assoc]

omit [DecidableEq τ] in
theorem ledger_setSignaled (s : HalEvents τ) (c : EventCall τ) (eventId : UInt32) :
    (s.setSignaled c eventId).ledger = s.ledger + {c} := by
  simp only [ledger, setSignaled, ← Multiset.coe_add, Multiset.coe_singleton]
  abel

omit [DecidableEq τ] in
theorem ledger_sleep (s : HalEvents τ) (w : EventWaiter τ) :
    { s with eventCv := s.eventCv.sleep w }.ledger = s.ledger + {.wait w} := by
  simp only [ledger, CondVar.waiters_sleep, Multiset.map_add, Multiset.map_singleton]
  abel

theorem ledger_woke {s : HalEvents τ} {c : EventCall τ} (hc : c ∈ s.owed)
    {cv : CondVar (EventWaiter τ)} (hcv : cv.waiters = s.eventCv.waiters) :
    (s.woke c cv).ledger = s.ledger := by
  have hperm : (s.owed : Multiset (EventCall τ)) = {c} + ↑(s.owed.erase c) :=
    Multiset.coe_eq_coe.mpr (List.perm_cons_erase hc)
  simp only [ledger, woke, hcv, List.map_append, List.map_cons, List.map_nil,
    ← Multiset.coe_add, Multiset.coe_singleton]
  rw [hperm]
  abel

omit [DecidableEq τ] in
theorem ledger_call (s : HalEvents τ) (c : EventCall τ) :
    (s.call c).ledger = s.ledger + {c} := by
  cases c with
  | signal thread pasid eventId events =>
    simp only [call]
    split_ifs
    · exact ledger_ret ..
    · exact ledger_ret ..
    · exact ledger_setSignaled ..
  | wait w =>
    simp only [call]
    split_ifs
    any_goals exact ledger_ret ..
    exact ledger_sleep s w
  | notify thread eventId =>
    simp only [call]
    split_ifs
    · exact ledger_ret ..
    · exact ledger_setSignaled ..

theorem ledger_wakeUp (s : HalEvents τ) (c : EventCall τ) (pick : EventWaiter τ) :
    (s.wakeUp c pick).ledger = s.ledger := by
  by_cases hc : c ∈ s.owed
  · cases c with
    | signal thread pasid eventId events =>
      simp only [wakeUp, if_pos hc]
      split_ifs
      · exact ledger_woke hc rfl
      · exact ledger_woke hc (CondVar.waiters_wake ..)
      · rfl
    | wait w => simp only [wakeUp, if_pos hc]
    | notify thread eventId =>
      simp only [wakeUp, if_pos hc]
      exact ledger_woke hc (CondVar.waiters_notifyAll _)
  · simp only [wakeUp, if_neg hc]

theorem ledger_resume (s : HalEvents τ) (w : EventWaiter τ) (status : CvStatus) :
    (s.resume w status).ledger = s.ledger := by
  by_cases hw : (w, status) ∈ s.eventCv.woken
  · have hout : { s with eventCv := s.eventCv.relock w status }.ledger + {.wait w} = s.ledger := by
      simp only [ledger, ← CondVar.waiters_relock hw, Multiset.map_add, Multiset.map_singleton]
      abel
    simp only [resume, if_pos hw]
    split_ifs
    · rw [ledger_ret, hout]
    · rw [ledger_ret, hout]
    · rw [← hout]
      exact ledger_sleep { s with eventCv := s.eventCv.relock w status } w
  · rw [resume, if_neg hw]

end HalEvents

/-- The call that an action makes. -/
def EventAction.made : EventAction τ → List (EventCall τ)
  | .call c => [c]
  | .wakeUp .. | .spurious _ | .expire _ | .resume .. => []

namespace HalEvents

theorem ledger_step (s : HalEvents τ) (a : EventAction τ) :
    (step s a).ledger = s.ledger + a.made := by
  cases a with
  | call c => exact ledger_call s c
  | wakeUp c pick => exact (ledger_wakeUp s c pick).trans (add_zero _).symm
  | spurious w =>
    simp only [step, ledger, CondVar.waiters_wake, EventAction.made, Multiset.coe_nil, add_zero]
  | expire w =>
    simp only [step, expire, EventAction.made, Multiset.coe_nil, add_zero]
    split_ifs
    · rfl
    · simp only [ledger, CondVar.waiters_wake]
  | resume w status => exact (ledger_resume s w status).trans (add_zero _).symm

/-! ### What the answers mean -/

/-- What a call may have returned, in a state after it. -/
def Answer (s : HalEvents τ) : EventCall τ → ℤ → Prop
  | .signal _ _ eventId events, rc =>
    (rc = -22 ∧ (256 ≤ eventId ∨ events = 0)) ∨
      (rc = 0 ∧ eventId < 256 ∧ events ≠ 0 ∧ s.eventSignaled eventId = true)
  | .wait w, rc =>
    (rc = -22 ∧ 256 ≤ w.eventId) ∨
      (rc = 0 ∧ w.eventId < 256 ∧ s.eventSignaled w.eventId = true) ∨
      (rc = -110 ∧ w.eventId < 256 ∧ w.timeoutUs ≠ 0xFFFFFFFFFFFFFFFF)
  | .notify _ eventId, rc =>
    (rc = -22 ∧ 256 ≤ eventId) ∨
      (rc = 0 ∧ eventId < 256 ∧ s.eventSignaled eventId = true)

/-- What holds of the calls that are not over, and of what the others returned. -/
structure Sound (s : HalEvents τ) : Prop where
  owed : ∀ c ∈ s.owed, (∀ w, c ≠ .wait w) ∧ s.Answer c 0
  inside : ∀ w ∈ s.eventCv.waiters, w.eventId < 256 ∧ w.timeoutUs ≠ 0
  timedOut : ∀ w, (w, .timeout) ∈ s.eventCv.woken → w.timeoutUs ≠ 0xFFFFFFFFFFFFFFFF
  answered : ∀ c rc, (c, rc) ∈ s.returned → s.Answer c rc

omit [DecidableEq τ] in
theorem Answer.mono {s s' : HalEvents τ}
    (h : ∀ id, s.eventSignaled id = true → s'.eventSignaled id = true) {c : EventCall τ} {rc : ℤ}
    (hc : s.Answer c rc) : s'.Answer c rc := by
  cases c with
  | signal thread pasid eventId events =>
    obtain hc | ⟨hrc, hlt, hev, hset⟩ := hc
    · exact .inl hc
    · exact .inr ⟨hrc, hlt, hev, h _ hset⟩
  | wait w =>
    obtain hc | ⟨hrc, hlt, hset⟩ | hc := hc
    · exact .inl hc
    · exact .inr (.inl ⟨hrc, hlt, h _ hset⟩)
    · exact .inr (.inr hc)
  | notify thread eventId =>
    obtain hc | ⟨hrc, hlt, hset⟩ := hc
    · exact .inl hc
    · exact .inr ⟨hrc, hlt, h _ hset⟩

omit [DecidableEq τ] in
theorem sound_init : (init : HalEvents τ).Sound where
  owed _ hc := absurd hc List.not_mem_nil
  inside _ hw := absurd hw (Multiset.notMem_zero _)
  timedOut _ hw := absurd hw List.not_mem_nil
  answered _ _ hc := absurd hc List.not_mem_nil

omit [DecidableEq τ] in
theorem Sound.ret {s : HalEvents τ} (h : s.Sound) {c : EventCall τ} {rc : ℤ}
    (hc : s.Answer c rc) : (s.ret c rc).Sound where
  owed := h.owed
  inside := h.inside
  timedOut := h.timedOut
  answered c' rc' hc' := by
    rcases List.mem_append.mp hc' with hc' | hc'
    · exact h.answered c' rc' hc'
    · obtain ⟨rfl, rfl⟩ := Prod.mk.inj (List.mem_singleton.mp hc')
      exact hc

omit [DecidableEq τ] in
theorem signaled_setSignaled (s : HalEvents τ) (c : EventCall τ) (eventId : UInt32) :
    (s.setSignaled c eventId).eventSignaled eventId = true :=
  if_pos rfl

omit [DecidableEq τ] in
theorem signaled_mono_setSignaled (s : HalEvents τ) (c : EventCall τ) (eventId : UInt32) (id : UInt32)
    (h : s.eventSignaled id = true) : (s.setSignaled c eventId).eventSignaled id = true := by
  simp only [setSignaled, h, ite_self]

omit [DecidableEq τ] in
theorem Sound.setSignaled {s : HalEvents τ} (h : s.Sound) {c : EventCall τ} {eventId : UInt32}
    (hw : ∀ w, c ≠ .wait w) (hc : (s.setSignaled c eventId).Answer c 0) :
    (s.setSignaled c eventId).Sound where
  owed c' hc' := by
    rcases List.mem_append.mp hc' with hc' | hc'
    · exact ⟨(h.owed c' hc').1, (h.owed c' hc').2.mono (signaled_mono_setSignaled s c eventId)⟩
    · rw [List.mem_singleton.mp hc']
      exact ⟨hw, hc⟩
  inside := h.inside
  timedOut := h.timedOut
  answered c' rc' hc' := (h.answered c' rc' hc').mono (signaled_mono_setSignaled s c eventId)

omit [DecidableEq τ] in
theorem Sound.setCv {s : HalEvents τ} (h : s.Sound) {cv : CondVar (EventWaiter τ)}
    (hin : ∀ w ∈ cv.waiters, w.eventId < 256 ∧ w.timeoutUs ≠ 0)
    (hout : ∀ w, (w, .timeout) ∈ cv.woken → w.timeoutUs ≠ 0xFFFFFFFFFFFFFFFF) :
    { s with eventCv := cv }.Sound where
  owed := h.owed
  inside := hin
  timedOut := hout
  answered := h.answered

theorem Sound.wake {s : HalEvents τ} (h : s.Sound) {w : EventWaiter τ} {status : CvStatus}
    (hw : status = .timeout → w.timeoutUs ≠ 0xFFFFFFFFFFFFFFFF) :
    { s with eventCv := s.eventCv.wake w status }.Sound := by
  refine h.setCv (fun v hv => h.inside v ?_) fun v hv => ?_
  · rwa [CondVar.waiters_wake] at hv
  · by_cases hmem : w ∈ s.eventCv.asleep
    · rw [CondVar.wake, if_pos hmem] at hv
      rcases List.mem_append.mp hv with hv | hv
      · exact h.timedOut v hv
      · obtain ⟨rfl, hst⟩ := Prod.mk.inj (List.mem_singleton.mp hv)
        exact hw hst.symm
    · rw [CondVar.wake, if_neg hmem] at hv
      exact h.timedOut v hv

omit [DecidableEq τ] in
theorem Sound.notifyAll {s : HalEvents τ} (h : s.Sound) :
    { s with eventCv := s.eventCv.notifyAll }.Sound := by
  refine h.setCv (fun v hv => h.inside v ?_) fun v hv => ?_
  · rwa [CondVar.waiters_notifyAll] at hv
  · rcases List.mem_append.mp hv with hv | hv
    · exact h.timedOut v hv
    · obtain ⟨u, -, hu⟩ := List.mem_map.mp hv
      exact absurd (Prod.mk.inj hu).2 (by simp)

omit [DecidableEq τ] in
theorem Sound.sleep {s : HalEvents τ} (h : s.Sound) {w : EventWaiter τ}
    (hw : w.eventId < 256 ∧ w.timeoutUs ≠ 0) :
    { s with eventCv := s.eventCv.sleep w }.Sound := by
  refine h.setCv (fun v hv => ?_) h.timedOut
  rw [CondVar.waiters_sleep] at hv
  rcases Multiset.mem_add.mp hv with hv | hv
  · exact h.inside v hv
  · rw [Multiset.mem_singleton.mp hv]
    exact hw

theorem Sound.relock {s : HalEvents τ} (h : s.Sound) {w : EventWaiter τ} {status : CvStatus}
    (hw : (w, status) ∈ s.eventCv.woken) :
    { s with eventCv := s.eventCv.relock w status }.Sound := by
  refine h.setCv (fun v hv => h.inside v ?_) fun v hv => h.timedOut v (List.mem_of_mem_erase hv)
  rw [← CondVar.waiters_relock hw]
  exact Multiset.mem_add.mpr (.inl hv)

theorem Sound.woke {s : HalEvents τ} {c : EventCall τ} (hc : c ∈ s.owed)
    {cv : CondVar (EventWaiter τ)} (h : { s with eventCv := cv }.Sound) :
    (s.woke c cv).Sound := by
  have hret : ({ s with eventCv := cv }.ret c 0).Sound := h.ret (h.owed c hc).2
  exact ⟨fun c' hc' => h.owed c' (List.mem_of_mem_erase hc'), h.inside, h.timedOut, hret.answered⟩

/-! Every action keeps it. -/

omit [DecidableEq τ] in
theorem Sound.call {s : HalEvents τ} (h : s.Sound) (c : EventCall τ) : (s.call c).Sound := by
  cases c with
  | signal thread pasid eventId events =>
    simp only [HalEvents.call]
    split_ifs with hid hev
    · exact h.ret (.inl ⟨rfl, .inl hid⟩)
    · exact h.ret (.inl ⟨rfl, .inr hev⟩)
    · refine h.setSignaled (fun w hw => nomatch hw) (.inr ⟨rfl, ?_, hev, ?_⟩)
      · exact UInt32.not_le.mp hid
      · exact signaled_setSignaled ..
  | wait w =>
    simp only [HalEvents.call]
    split_ifs with hid htime hset hset
    · exact h.ret (.inl ⟨rfl, hid⟩)
    · exact h.ret (.inr (.inl ⟨rfl, UInt32.not_le.mp hid, hset⟩))
    · refine h.ret (.inr (.inr ⟨rfl, UInt32.not_le.mp hid, ?_⟩))
      rw [htime]
      decide
    · exact h.ret (.inr (.inl ⟨rfl, UInt32.not_le.mp hid, hset⟩))
    · exact h.sleep ⟨UInt32.not_le.mp hid, htime⟩
  | notify thread eventId =>
    simp only [HalEvents.call]
    split_ifs with hid
    · exact h.ret (.inl ⟨rfl, hid⟩)
    · refine h.setSignaled (fun w hw => nomatch hw) (.inr ⟨rfl, UInt32.not_le.mp hid, ?_⟩)
      exact signaled_setSignaled ..

theorem Sound.wakeUp {s : HalEvents τ} (h : s.Sound) (c : EventCall τ) (pick : EventWaiter τ) :
    (s.wakeUp c pick).Sound := by
  by_cases hc : c ∈ s.owed
  · cases c with
    | signal thread pasid eventId events =>
      simp only [HalEvents.wakeUp, if_pos hc]
      split_ifs
      · exact Sound.woke hc h
      · exact Sound.woke hc (h.wake (by simp))
      · exact h
    | wait w => simpa only [HalEvents.wakeUp, if_pos hc] using h
    | notify thread eventId =>
      simp only [HalEvents.wakeUp, if_pos hc]
      exact Sound.woke hc h.notifyAll
  · simpa only [HalEvents.wakeUp, if_neg hc] using h

theorem Sound.resume {s : HalEvents τ} (h : s.Sound) (w : EventWaiter τ) (status : CvStatus) :
    (s.resume w status).Sound := by
  by_cases hw : (w, status) ∈ s.eventCv.woken
  · have hin := h.inside w (Multiset.mem_add.mpr (.inr (List.mem_map.mpr ⟨_, hw, rfl⟩)))
    have hre := h.relock hw
    simp only [HalEvents.resume, if_pos hw]
    split_ifs with hset htime
    · exact hre.ret (.inr (.inl ⟨rfl, hin.1, hset⟩))
    · rw [htime] at hw
      exact hre.ret (.inr (.inr ⟨rfl, hin.1, h.timedOut w hw⟩))
    · exact hre.sleep hin
  · rwa [HalEvents.resume, if_neg hw]

theorem Sound.step {s : HalEvents τ} (h : s.Sound) (a : EventAction τ) :
    (HalEvents.step s a).Sound := by
  cases a with
  | call c => exact h.call c
  | wakeUp c pick => exact h.wakeUp c pick
  | spurious w => exact h.wake (by simp)
  | expire w =>
    simp only [HalEvents.step, HalEvents.expire]
    split_ifs with htime
    · exact h
    · exact h.wake fun _ => htime
  | resume w status => exact h.resume w status

/-! ### A signalled event times nobody out -/

/-- What a part of a run adds to the answers, with no time-out of an event in `flags`. -/
def AnswersFrom (flags : UInt32 → Bool) (before after : List (EventCall τ × ℤ)) : Prop :=
  ∃ new, after = before ++ new ∧
    ∀ w : EventWaiter τ, flags w.eventId = true → (EventCall.wait w, (-110 : ℤ)) ∉ new

omit [DecidableEq τ] in
theorem AnswersFrom.refl (flags : UInt32 → Bool) (l : List (EventCall τ × ℤ)) :
    AnswersFrom flags l l :=
  ⟨[], (List.append_nil l).symm, fun _ _ => List.not_mem_nil⟩

omit [DecidableEq τ] in
theorem AnswersFrom.one {flags : UInt32 → Bool} {l : List (EventCall τ × ℤ)} {c : EventCall τ}
    {rc : ℤ} (h : ∀ w, flags w.eventId = true → c = .wait w → rc ≠ -110) :
    AnswersFrom flags l (l ++ [(c, rc)]) := by
  refine ⟨[(c, rc)], rfl, fun w hw hmem => ?_⟩
  obtain ⟨hc, hrc⟩ := Prod.mk.inj (List.mem_singleton.mp hmem)
  exact h w hw hc.symm hrc.symm

omit [DecidableEq τ] in
theorem AnswersFrom.trans {flags flags' : UInt32 → Bool} {l m n : List (EventCall τ × ℤ)}
    (h : AnswersFrom flags l m) (h' : AnswersFrom flags' m n)
    (hflags : ∀ id, flags id = true → flags' id = true) : AnswersFrom flags l n := by
  obtain ⟨new, rfl, hnew⟩ := h
  obtain ⟨new', rfl, hnew'⟩ := h'
  refine ⟨new ++ new', List.append_assoc .., fun w hw hmem => ?_⟩
  rcases List.mem_append.mp hmem with hmem | hmem
  · exact hnew w hw hmem
  · exact hnew' w (hflags _ hw) hmem

omit [DecidableEq τ] in
theorem answersFrom_call (s : HalEvents τ) (c : EventCall τ) :
    AnswersFrom s.eventSignaled s.returned (s.call c).returned := by
  cases c with
  | signal thread pasid eventId events =>
    simp only [call]
    split_ifs
    · exact .one (by simp)
    · exact .one (by simp)
    · exact .refl ..
  | wait w =>
    simp only [call]
    split_ifs with hid htime hset hset
    · exact .one (by simp)
    · exact .one (by simp)
    · refine .one fun v hv hc => ?_
      obtain rfl := EventCall.wait.inj hc
      exact absurd hv hset
    · exact .one (by simp)
    · exact .refl ..
  | notify thread eventId =>
    simp only [call]
    split_ifs
    · exact .one (by simp)
    · exact .refl ..

theorem answersFrom_wakeUp (s : HalEvents τ) (c : EventCall τ) (pick : EventWaiter τ) :
    AnswersFrom s.eventSignaled s.returned (s.wakeUp c pick).returned := by
  by_cases hc : c ∈ s.owed
  · cases c with
    | signal thread pasid eventId events =>
      simp only [wakeUp, if_pos hc]
      split_ifs
      · exact .one (by simp)
      · exact .one (by simp)
      · exact .refl ..
    | wait w => simpa only [wakeUp, if_pos hc] using .refl ..
    | notify thread eventId => simpa only [wakeUp, if_pos hc] using .one (by simp)
  · simpa only [wakeUp, if_neg hc] using .refl ..

theorem answersFrom_resume (s : HalEvents τ) (w : EventWaiter τ) (status : CvStatus) :
    AnswersFrom s.eventSignaled s.returned (s.resume w status).returned := by
  simp only [resume]
  split_ifs with hw hset htime
  · exact .one (by simp)
  · refine .one fun v hv hc => ?_
    obtain rfl := EventCall.wait.inj hc
    exact absurd hv hset
  · exact .refl ..
  · exact .refl ..

theorem answersFrom_step (s : HalEvents τ) (a : EventAction τ) :
    AnswersFrom s.eventSignaled s.returned (step s a).returned := by
  cases a with
  | call c => exact answersFrom_call s c
  | wakeUp c pick => exact answersFrom_wakeUp s c pick
  | spurious w => exact .refl ..
  | expire w =>
    simp only [step, expire]
    split_ifs
    · exact .refl ..
    · exact .refl ..
  | resume w status => exact answersFrom_resume s w status

omit [DecidableEq τ] in
theorem signaled_call (s : HalEvents τ) (c : EventCall τ) (id : UInt32)
    (h : s.eventSignaled id = true) : (s.call c).eventSignaled id = true := by
  cases c with
  | signal thread pasid eventId events =>
    simp only [call]
    split_ifs
    · exact h
    · exact h
    · exact signaled_mono_setSignaled s _ eventId id h
  | wait w =>
    simp only [call]
    split_ifs <;> exact h
  | notify thread eventId =>
    simp only [call]
    split_ifs
    · exact h
    · exact signaled_mono_setSignaled s _ eventId id h

/-- Only a call changes the flags. -/
theorem eventSignaled_step (s : HalEvents τ) (a : EventAction τ) (ha : ∀ c, a ≠ .call c) :
    (step s a).eventSignaled = s.eventSignaled := by
  cases a with
  | call c => exact absurd rfl (ha c)
  | wakeUp c pick =>
    cases c with
    | signal thread pasid eventId events => simp only [step, wakeUp]; split_ifs <;> rfl
    | wait w => simp only [step, wakeUp]; split_ifs <;> rfl
    | notify thread eventId => simp only [step, wakeUp]; split_ifs <;> rfl
  | spurious w => rfl
  | expire w => simp only [step, expire]; split_ifs <;> rfl
  | resume w status => simp only [step, resume]; split_ifs <;> rfl

theorem signaled_step (s : HalEvents τ) (a : EventAction τ) (id : UInt32)
    (h : s.eventSignaled id = true) : (step s a).eventSignaled id = true := by
  by_cases ha : ∃ c, a = .call c
  · obtain ⟨c, rfl⟩ := ha
    exact signaled_call s c id h
  · rw [eventSignaled_step s a fun c hc => ha ⟨c, hc⟩]
    exact h

theorem answersFrom_run (s : HalEvents τ) (as : List (EventAction τ)) :
    AnswersFrom s.eventSignaled s.returned (run step s as).returned := by
  induction as generalizing s with
  | nil => exact .refl ..
  | cons a as ih => exact (answersFrom_step s a).trans (ih _) (signaled_step s a)

/-! ### Runs -/

theorem ledger_run (s : HalEvents τ) (as : List (EventAction τ)) :
    (run step s as).ledger = s.ledger + ↑(as.flatMap EventAction.made) := by
  induction as generalizing s with
  | nil => simp
  | cons a as ih =>
    rw [run_cons, ih, ledger_step, List.flatMap_cons, ← Multiset.coe_add, add_assoc]

theorem sound_run {s : HalEvents τ} (h : s.Sound) (as : List (EventAction τ)) :
    (run step s as).Sound :=
  run_of_inductive (I := Sound) (fun _ a hs _ => Sound.step hs a) h (guarded_trivial step s as)

end HalEvents

/-- **Every call is answered once.**  In any interleaving, each call made is waiting, owes its
wake-up, or is over, in one place only.  A wait that returned 0 found its event signalled; it timed
out only if it had a time limit, and never once its event had been signalled. -/
theorem halEvents_sound (as bs : List (EventAction τ)) :
    let s := run HalEvents.step HalEvents.init as
    let s' := run HalEvents.step s bs
    s.ledger = ↑(as.flatMap EventAction.made) ∧ s.Sound ∧
      HalEvents.AnswersFrom s.eventSignaled s.returned s'.returned := by
  refine ⟨?_, HalEvents.sound_run HalEvents.sound_init as, HalEvents.answersFrom_run _ bs⟩
  rw [HalEvents.ledger_run]
  exact zero_add _

end UsrLinuxEmu.GpuDriver
