import UsrLinuxEmu.GpuDriver.PullerGuards

/-!
# Whose batch is in the registers

With a channel manager the registers are loaded by CHANNEL_SWITCH and by the preemption
checkpoint.  The checkpoint records the requested channel as the current one and loads whatever
channel the selector returns, or nothing.

* `RegsOfCurrent` — the registers are those last loaded, advanced by the entries retired since,
  and the channel they were loaded for is the current one;
* `YieldJustified` / `LoadOwn` — a yield names the channel whose batch is over, and a load takes
  the channel's own submission, from the start or from where its last checkpoint left it;
* `identityGuard` — at a checkpoint the selector agrees with the request, a PREEMPTED MQD holds
  what its channel is to be resumed with, and rings are not mixed in;
* `channel_identity` — the result along guarded runs.
-/

namespace UsrLinuxEmu.GpuDriver

open UsrLinuxEmu.Transition ChannelManager HardwarePullerEmu

/-! ### The property -/

def Event.isLoad : Event → Bool
  | .loaded _ => true
  | _ => false

/-- A batch entry is counted as done: completed, or skipped as blocked. -/
def Event.isBatchRetire : Event → Bool
  | .completed _ src _ | .blocked _ src _ => src.isBatch
  | _ => false

/-- The pending fence is dropped: signaled, or given up after a failed copy. -/
def Event.clearsFence : Event → Bool
  | .signaled .. | .memcpyFailed .. => true
  | _ => false

/-- The number of batch entries retired since the registers were loaded. -/
def retiredSince (log : List Event) : ℕ := (since Event.isLoad log).countP Event.isBatchRetire

/-- The registers are those of the current channel: loaded for it, and advanced from there. -/
structure RegsOfCurrent (s : HardwarePullerEmu) : Prop where
  channel : s.loaded.channel = s.currentChannelId
  addr : s.regs.gpfifoAddr = s.loaded.regs.gpfifoAddr
  total : s.regs.total = s.loaded.regs.total
  index : s.regs.index = s.loaded.regs.index + retiredSince s.log
  fence : s.regs.fence = s.loaded.regs.fence ∨
    s.regs.fence = 0 ∧ ∃ ev ∈ since Event.isLoad s.log, ev.clearsFence = true

/-- A yield names the channel of the last load, all of whose entries are retired. -/
def YieldJustified (past : List Event) : Event → Prop
  | .yielded c => ∃ l, newest Event.isLoad past = some (.loaded l) ∧ l.channel = c ∧
      l.regs.total ≤ l.regs.index + retiredSince past
  | _ => True

/-- A place in a batch: its address, the cursor and the number of its entries. -/
def GpfifoRegs.context (regs : GpfifoRegs) : UInt64 × ℕ × ℕ :=
  (regs.gpfifoAddr, regs.index, regs.total)

/-- Where the registers stand: at what was loaded last, advanced by the entries retired since. -/
def cursorOf (log : List Event) : Option (UInt64 × ℕ × ℕ) :=
  match newest Event.isLoad log with
  | some (.loaded l) => some (l.regs.gpfifoAddr, l.regs.index + retiredSince log, l.regs.total)
  | _ => none

/-- Where the registers stood when channel `c` was last preempted. -/
def lastCheckpoint (c : ℕ) : List Event → Option (UInt64 × ℕ × ℕ)
  | [] => none
  | .preempted d _ :: past => if d = c then cursorOf past else lastCheckpoint c past
  | _ :: past => lastCheckpoint c past

/-- What is loaded for a channel is its own submission: from the start, or with the place at which
the channel was last preempted. -/
def LoadOwn (past : List Event) : Event → Prop
  | .loaded l => ∃ b, .submitted l.id l.channel b ∈ past ∧
      (l.regs = b.regs ∨
        l.regs.fence = b.fenceId ∧ lastCheckpoint l.channel past = some l.regs.context)
  | _ => True

structure ChannelIdentity (s : HardwarePullerEmu) : Prop where
  regs : RegsOfCurrent s
  yields : Causal YieldJustified s.log
  loads : Causal LoadOwn s.log

/-! ### The condition -/

/-- Only batch entries advance the cursor; a checkpoint loads the requested channel or, when nothing
is ready, keeps the channel it has; and a PREEMPTED MQD from which a channel is resumed holds the
batch of the channel's slot or the place at which the channel was last preempted. -/
def identityGuard (s : HardwarePullerEmu) : Action → Prop
  | .puller _ =>
    (s.retires = true → s.source.isBatch = true) ∧
      (s.atCheckpoint = true → s.checkpointSelection = some s.preempt.target ∨
        s.checkpointSelection = none ∧ s.preempt.target = s.currentChannelId) ∧
      ∀ r ∈ s.resumption, r.1 = r.2 ∨
        ∃ c ∈ s.switchSelection, lastCheckpoint c s.log = some r.1.context
  | _ => True

instance decidableIdentityGuard (s : HardwarePullerEmu) : ∀ a, Decidable (identityGuard s a)
  | .puller _ => inferInstanceAs (Decidable (_ ∧ _ ∧ _))
  | .submitBatch _ | .channelSubmit _ _ | .configure _ | .triggerPreempt _ | .signalBarrier _
  | .writeEntry _ _ | .advanceWriteIdx _ | .ringDoorbell _ | .writeDoorbell _ | .onDoorbell
  | .memWrite _ _ _ | .hostWrite _ => .isTrue trivial

/-! ### The invariant -/

structure IdentityInv (s : HardwarePullerEmu) : Prop extends ChannelIdentity s where
  mgr : s.channelMgr.isSome = true
  slots : SlotsSubmitted s
  lastLoad : newest Event.isLoad s.log = some (.loaded s.loaded) ∨ s.regs.total = 0
  flight : s.pc.inFlight = true → s.source.isBatch = true → s.regs.index < s.regs.total

/-- Events that neither load, retire, yield nor touch the fence. -/
def Event.isPlain : Event → Bool
  | .loaded _ | .completed .. | .blocked .. | .yielded _ => false
  | _ => true

theorem Event.isPlain_of_producer {ev : Event} (h : ev.isProducer = true) :
    ev.isPlain = true := by
  cases ev <;> first | rfl | cases h

theorem Event.not_load_of_plain {ev : Event} (h : ev.isPlain = true) : ev.isLoad = false := by
  cases ev with
  | loaded l => cases h
  | _ => rfl

theorem Event.not_yield_of_plain {ev : Event} (h : ev.isPlain = true) (c : ℕ) :
    ev ≠ .yielded c := by
  rintro rfl
  cases h

theorem Event.not_batchRetire_of_plain {ev : Event} (h : ev.isPlain = true) :
    ¬ev.isBatchRetire = true := by
  cases ev with
  | completed n src e => cases h
  | blocked n src e => cases h
  | _ => exact Bool.false_ne_true

theorem loadOwn_of_not_load {ev : Event} (h : ev.isLoad = false) (past : List Event) :
    LoadOwn past ev := by
  cases ev with
  | loaded l => cases h
  | _ => trivial

theorem yieldJustified_of_not_yield {ev : Event} (h : ∀ c, ev ≠ .yielded c)
    (past : List Event) : YieldJustified past ev := by
  cases ev with
  | yielded c => exact absurd rfl (h c)
  | _ => trivial

theorem causal_append_of_plain {new l : List Event} (hnew : ∀ ev ∈ new, ev.isPlain = true) :
    (Causal YieldJustified l → Causal YieldJustified (new ++ l)) ∧
      (Causal LoadOwn l → Causal LoadOwn (new ++ l)) :=
  ⟨causal_append_of_forall _ fun ev hev =>
      yieldJustified_of_not_yield (Event.not_yield_of_plain (hnew ev hev)),
    causal_append_of_forall _ fun ev hev =>
      loadOwn_of_not_load (Event.not_load_of_plain (hnew ev hev))⟩

theorem retiredSince_append {new old : List Event} (hnew : ∀ ev ∈ new, ev.isLoad = false) :
    retiredSince (new ++ old) = new.countP Event.isBatchRetire + retiredSince old := by
  rw [retiredSince, since_append hnew, List.countP_append]
  rfl

/-- Plain events change nothing but possibly the fence. -/
theorem IdentityInv.plain {s s' : HardwarePullerEmu} (hinv : IdentityInv s)
    (hmgr : s'.channelMgr.isSome = true) (hslots : SlotsSubmitted s') {E : List Event}
    (hevs : ∀ ev ∈ E, ev.isPlain = true) (hlog : s'.log = E ++ s.log)
    (hregs : s'.regs = s.regs ∨
      s'.regs = { s.regs with fence := 0 } ∧ ∃ ev ∈ E, ev.clearsFence = true)
    (hloaded : s'.loaded = s.loaded) (hchannel : s'.currentChannelId = s.currentChannelId)
    (hflight : s'.pc.inFlight = true → s'.source.isBatch = true →
      s.pc.inFlight = true ∧ s.source.isBatch = true ∨ s.regs.index < s.regs.total) :
    IdentityInv s' := by
  have hload : ∀ ev ∈ E, ev.isLoad = false := fun ev hev =>
    Event.not_load_of_plain (hevs ev hev)
  have hretire : E.countP Event.isBatchRetire = 0 := by
    rw [List.countP_eq_zero]
    exact fun ev hev => Event.not_batchRetire_of_plain (hevs ev hev)
  have hsince : since Event.isLoad s'.log = E ++ since Event.isLoad s.log := by
    rw [hlog, since_append hload]
  have hcount : retiredSince s'.log = retiredSince s.log := by
    rw [hlog, retiredSince_append hload, hretire, Nat.zero_add]
  have hsame : s'.regs.gpfifoAddr = s.regs.gpfifoAddr ∧ s'.regs.index = s.regs.index ∧
      s'.regs.total = s.regs.total := by
    obtain heq | ⟨heq, -⟩ := hregs <;> rw [heq] <;> exact ⟨rfl, rfl, rfl⟩
  obtain ⟨haddr, hidx, htotal⟩ := hsame
  obtain ⟨hyield, hown⟩ := causal_append_of_plain (l := s.log) hevs
  refine { regs := ⟨?_, ?_, ?_, ?_, ?_⟩, yields := ?_, loads := ?_, mgr := hmgr, slots := hslots,
           lastLoad := ?_, flight := ?_ }
  · rw [hloaded, hchannel, hinv.regs.channel]
  · rw [haddr, hloaded, hinv.regs.addr]
  · rw [htotal, hloaded, hinv.regs.total]
  · rw [hidx, hloaded, hcount, hinv.regs.index]
  · rw [hsince, hloaded]
    obtain heq | ⟨heq, ev, hev, hclear⟩ := hregs
    · rw [heq]
      obtain hfence | ⟨hzero, ev, hev, hclear⟩ := hinv.regs.fence
      · exact .inl hfence
      · exact .inr ⟨hzero, ev, List.mem_append_right _ hev, hclear⟩
    · rw [heq]
      exact .inr ⟨rfl, ev, List.mem_append_left _ hev, hclear⟩
  · rw [hlog]
    exact hyield hinv.yields
  · rw [hlog]
    exact hown hinv.loads
  · rw [hlog, newest_append hload, hloaded, htotal]
    exact hinv.lastLoad
  · intro hpc hsrc
    rw [hidx, htotal]
    obtain ⟨hpc', hsrc'⟩ | hlt := hflight hpc hsrc
    · exact hinv.flight hpc' hsrc'
    · exact hlt

/-- After a load the registers are the current channel's, whatever came before. -/
theorem IdentityInv.load {s : HardwarePullerEmu} {l : LoadedBatch} {past : List Event}
    (hlog : s.log = .loaded l :: past) (hregs : s.regs = l.regs) (hloaded : s.loaded = l)
    (hchannel : l.channel = s.currentChannelId) (hyields : Causal YieldJustified past)
    (hloads : Causal LoadOwn past) (hown : LoadOwn past (.loaded l))
    (hmgr : s.channelMgr.isSome = true) (hslots : SlotsSubmitted s)
    (hpc : s.pc.inFlight = false) : IdentityInv s := by
  have hsince : since Event.isLoad s.log = [] := by
    rw [hlog]
    exact since_cons_of_pos rfl
  refine { regs := ⟨?_, ?_, ?_, ?_, .inl ?_⟩, yields := ?_, loads := ?_, mgr := hmgr,
           slots := hslots, lastLoad := .inl ?_, flight := ?_ }
  · rw [hloaded, hchannel]
  · rw [hregs, hloaded]
  · rw [hregs, hloaded]
  · rw [hregs, hloaded, retiredSince, hsince]
    rfl
  · rw [hregs, hloaded]
  · rw [hlog]
    exact ⟨trivial, hyields⟩
  · rw [hlog]
    exact ⟨hown, hloads⟩
  · rw [hlog, hloaded]
    exact newest_cons_of_pos rfl
  · intro hf
    rw [hpc] at hf
    cases hf

/-- What a retired entry leaves behind: one batch retirement, and no load or yield. -/
structure RetireEvents (E : List Event) : Prop where
  one : E.countP Event.isBatchRetire = 1
  noLoad : ∀ ev ∈ E, ev.isLoad = false
  noYield : ∀ ev ∈ E, ∀ c, ev ≠ .yielded c

theorem RetireEvents.causal {E past : List Event} (h : RetireEvents E) :
    (Causal YieldJustified past → Causal YieldJustified (E ++ past)) ∧
      (Causal LoadOwn past → Causal LoadOwn (E ++ past)) :=
  ⟨causal_append_of_forall _ fun ev hev => yieldJustified_of_not_yield (h.noYield ev hev),
    causal_append_of_forall _ fun ev hev => loadOwn_of_not_load (h.noLoad ev hev)⟩

/-- **Retirement.**  An entry of the loaded batch is retired; when it is the last one the current
channel may be yielded, and it is the channel of the batch. -/
theorem IdentityInv.retire {s s' : HardwarePullerEmu} (hinv : IdentityInv s)
    (hlive : s.regs.index < s.regs.total) {E X : List Event} (hevs : RetireEvents E)
    (hextra : ∀ ev ∈ X, ev.isPlain = true ∨ ev = .yielded s.currentChannelId)
    (hend : X = [] ∨ s.regs.total ≤ s.regs.index + 1)
    (hlog : s'.log = X ++ (E ++ s.log)) (haddr : s'.regs.gpfifoAddr = s.regs.gpfifoAddr)
    (htotal : s'.regs.total = s.regs.total) (hidx : s'.regs.index = s.regs.index + 1)
    (hfence : s'.regs.fence = s.regs.fence ∨
      s'.regs.fence = 0 ∧ ∃ ev ∈ E, ev.clearsFence = true)
    (hloaded : s'.loaded = s.loaded) (hchannel : s'.currentChannelId = s.currentChannelId)
    (hmgr : s'.channelMgr.isSome = true) (hslots : SlotsSubmitted s')
    (hpc : s'.pc.inFlight = false) : IdentityInv s' := by
  have hnoLoad : ∀ ev ∈ X, ev.isLoad = false := by
    intro ev hev
    obtain hplain | rfl := hextra ev hev
    · exact Event.not_load_of_plain hplain
    · rfl
  have hnewest : newest Event.isLoad s.log = some (.loaded s.loaded) := by
    obtain h | h := hinv.lastLoad
    · exact h
    · omega
  have hcount : retiredSince (E ++ s.log) = retiredSince s.log + 1 := by
    rw [retiredSince_append hevs.noLoad, hevs.one, Nat.add_comm]
  have hnoRetire : X.countP Event.isBatchRetire = 0 := by
    rw [List.countP_eq_zero]
    intro ev hev htrue
    obtain hplain | rfl := hextra ev hev
    · exact Event.not_batchRetire_of_plain hplain htrue
    · cases htrue
  have hcount' : retiredSince s'.log = retiredSince s.log + 1 := by
    rw [hlog, retiredSince_append hnoLoad, hnoRetire, Nat.zero_add, hcount]
  have hold := hinv.regs
  refine { regs := ⟨?_, ?_, ?_, ?_, ?_⟩, yields := ?_, loads := ?_, mgr := hmgr, slots := hslots,
           lastLoad := .inl ?_, flight := ?_ }
  · rw [hloaded, hchannel, hold.channel]
  · rw [haddr, hloaded, hold.addr]
  · rw [htotal, hloaded, hold.total]
  · rw [hidx, hloaded, hcount', hold.index]
    omega
  · have hsince : since Event.isLoad s'.log = X ++ (E ++ since Event.isLoad s.log) := by
      rw [hlog, since_append hnoLoad, since_append hevs.noLoad]
    rw [hsince, hloaded]
    obtain hsame | ⟨hzero, ev, hev, hclear⟩ := hfence
    · rw [hsame]
      obtain hkeep | ⟨hzero, ev, hev, hclear⟩ := hold.fence
      · exact .inl hkeep
      · exact .inr ⟨hzero, ev, List.mem_append_right _ (List.mem_append_right _ hev), hclear⟩
    · exact .inr ⟨hzero, ev, List.mem_append_right _ (List.mem_append_left _ hev), hclear⟩
  · rw [hlog]
    refine causal_append _ X _ (fun after ev before heq => ?_) (hevs.causal.1 hinv.yields)
    have hbefore : ∀ x ∈ before, x.isLoad = false := fun x hx => hnoLoad x (by simp [heq, hx])
    obtain hplain | rfl := hextra ev (by simp [heq])
    · exact yieldJustified_of_not_yield (Event.not_yield_of_plain hplain) _
    · refine ⟨s.loaded, ?_, hold.channel, ?_⟩
      · rw [newest_append hbefore, newest_append hevs.noLoad, hnewest]
      · obtain hnil | hlast := hend
        · simp [hnil] at heq
        · have hmore : retiredSince (before ++ (E ++ s.log)) ≥ retiredSince s.log + 1 := by
            rw [retiredSince_append hbefore, hcount]
            omega
          have htot := hold.total
          have hix := hold.index
          omega
  · rw [hlog]
    exact causal_append_of_forall _ (fun ev hev => loadOwn_of_not_load (hnoLoad ev hev))
      (hevs.causal.2 hinv.loads)
  · rw [hlog, newest_append hnoLoad, newest_append hevs.noLoad, hloaded]
    exact hnewest
  · intro hf
    rw [hpc] at hf
    cases hf

/-- COMPLETE retires a batch entry. -/
theorem finishEvents_retire {s : HardwarePullerEmu} (hsrc : s.source.isBatch = true) :
    RetireEvents s.finishEvents := by
  refine ⟨?_, fun ev hev => ?_, fun ev hev c => ?_⟩
  · unfold finishEvents
    cases s.timelineDue <;> cases s.fenceDue <;> cases releases s.currentEntry <;>
      simp [Event.isBatchRetire, hsrc]
  · obtain ⟨h, v, rfl⟩ | ⟨rfl, -⟩ | rfl | rfl := mem_finishEvents hev <;> rfl
  · obtain ⟨h, v, rfl⟩ | ⟨rfl, -⟩ | rfl | rfl := mem_finishEvents hev <;> exact nofun

/-- COMPLETE's fence is the old one, or has been signaled. -/
theorem finishRegs_fence (s : HardwarePullerEmu) : s.finishRegs.fence = s.regs.fence ∨
    s.finishRegs.fence = 0 ∧ ∃ ev ∈ s.finishEvents, ev.clearsFence = true := by
  unfold finishRegs finishEvents
  cases s.fenceDue with
  | false => exact .inl rfl
  | true => exact .inr ⟨rfl, .signaled s.loaded.id s.regs.fence, by simp, rfl⟩

/-- DECODE retires a blocked batch entry. -/
theorem blocked_retire {s : HardwarePullerEmu} (hsrc : s.source.isBatch = true) :
    RetireEvents [.blocked s.serial s.source s.currentEntry] := by
  refine ⟨?_, ?_, ?_⟩ <;> simp [Event.isBatchRetire, Event.isLoad, hsrc]

theorem yieldEvents_own (s : HardwarePullerEmu) : ∀ ev ∈ s.yieldEvents,
    ev.isPlain = true ∨ ev = .yielded s.currentChannelId :=
  fun _ hev => .inr (mem_yieldEvents hev)

theorem yieldedMgr_isSome (s : HardwarePullerEmu) :
    s.yieldedMgr.isSome = s.channelMgr.isSome := by
  rw [yieldedMgr, Option.isSome_map]

/-! ### The step lemmas -/

theorem dispatchEvents_plain (s : HardwarePullerEmu) (launches : List LaunchParams)
    (failed : Bool) : ∀ ev ∈ s.dispatchEvents launches failed, ev.isPlain = true := by
  intro ev hev
  obtain ⟨rfl, -⟩ | ⟨p, rfl⟩ | ⟨q, i, t, rfl⟩ | rfl := mem_dispatchEvents hev <;> rfl

theorem identityInv_pullerStep {s s' : HardwarePullerEmu} {stale : GpuGpfifoEntry}
    (h : PullerStep s s') (hinv : IdentityInv s) (hslots : SlotsSubmitted s')
    (hG : identityGuard s (.puller stale)) : IdentityInv s' := by
  obtain ⟨hretire, hcheck, hresume⟩ := hG
  cases h with
  | move hmove =>
    refine hinv.plain hinv.mgr hslots (E := []) (by simp) rfl (.inl rfl) rfl rfl fun hpc hsrc => ?_
    rw [goto, hmove.inFlight] at hpc
    exact .inl ⟨hpc, hsrc⟩
  | noChannel =>
    exact hinv.plain rfl hslots (E := []) (by simp) rfl (.inl rfl) rfl rfl (by simp [Pc.inFlight])
  | select hpc hm hnext hmqd =>
    rename_i m m' c
    have hb := hslots m' rfl c (nextReadyChannel_inFlight hnext)
    have hsub := (List.mem_cons.mp hb).resolve_left (by simp)
    exact IdentityInv.load rfl rfl rfl rfl hinv.yields hinv.loads ⟨_, hsub, .inl rfl⟩ rfl hslots rfl
  | resume hpc hm hnext hmqd hregs =>
    rename_i m m' c p regs
    have hb := hslots _ rfl c (nextReadyChannel_inFlight hnext :
      (m'.channels c).batchInFlight = true)
    have hsub := (List.mem_cons.mp hb).resolve_left (by simp)
    refine IdentityInv.load rfl rfl rfl rfl ⟨trivial, hinv.yields⟩ ⟨trivial, hinv.loads⟩
      ⟨_, hsub, ?_⟩ rfl hslots rfl
    obtain hslot | ⟨d, hd, hplace⟩ := hresume _ (resumption_eq hpc hm hnext hmqd)
    · exact .inl (hregs.trans hslot)
    · rw [switchSelection_select hpc hm hnext] at hd
      obtain rfl := Option.some.inj hd
      subst hregs
      exact .inr ⟨rfl, hplace⟩
  | dequeue hpc hq =>
    refine hinv.plain hinv.mgr hslots (E := [_]) (by simp [Event.isPlain]) rfl (.inl rfl) rfl rfl ?_
    intro _ hsrc
    cases hsrc
  | exchange =>
    exact hinv.plain hinv.mgr hslots (E := []) (by simp) rfl (.inl rfl) rfl rfl
      (by simp [Pc.inFlight])
  | fetch hpc hidx he =>
    exact hinv.plain hinv.mgr hslots (E := [_]) (by simp [Event.isPlain]) rfl (.inl rfl) rfl rfl
      fun _ _ => .inr hidx
  | blockNext hpc hop hsema hidx =>
    have hsrc := hretire (retires_of_block hpc (blocks_of_processSemOp hop hsema))
    exact hinv.retire (hinv.flight (by rw [hpc]; rfl) hsrc) (blocked_retire hsrc) (X := [])
      (by simp) (.inl rfl) rfl rfl rfl rfl (.inl rfl) rfl rfl hinv.mgr hslots rfl
  | blockLast hpc hop hsema hidx =>
    have hsrc := hretire (retires_of_block hpc (blocks_of_processSemOp hop hsema))
    exact hinv.retire (hinv.flight (by rw [hpc]; rfl) hsrc) (blocked_retire hsrc)
      (yieldEvents_own s) (.inr hidx) rfl rfl rfl rfl (.inl rfl) rfl rfl
      ((yieldedMgr_isSome s).trans hinv.mgr) hslots rfl
  | dispatch hpc hexec =>
    rename_i launches failed d
    refine hinv.plain hinv.mgr hslots (dispatchEvents_plain s launches failed) rfl ?_ rfl rfl ?_
    · cases failed with
      | false => exact .inl rfl
      | true => exact .inr ⟨rfl, .memcpyFailed s.serial s.source, by simp [dispatchEvents], rfl⟩
    · exact fun _ hsrc => .inl ⟨by rw [hpc]; rfl, hsrc⟩
  | release hpc hrel w =>
    exact hinv.plain hinv.mgr hslots (E := [_]) (by simp [Event.isPlain]) rfl (.inl rfl) rfl rfl
      fun _ hsrc => .inl ⟨by rw [hpc]; rfl, hsrc⟩
  | wait hpc | waited hpc =>
    exact hinv.plain hinv.mgr hslots (E := []) (by simp) rfl (.inl rfl) rfl rfl
      fun _ hsrc => .inl ⟨by rw [hpc]; rfl, hsrc⟩
  | completeNext hpc hidx =>
    have hsrc := hretire (retires_of_complete hpc)
    exact hinv.retire (hinv.flight (by rw [hpc]; rfl) hsrc) (finishEvents_retire hsrc) (X := [])
      (by simp) (.inl rfl) rfl rfl rfl rfl (finishRegs_fence s) rfl rfl hinv.mgr hslots rfl
  | completeLast hpc hidx hpre =>
    have hsrc := hretire (retires_of_complete hpc)
    exact hinv.retire (hinv.flight (by rw [hpc]; rfl) hsrc) (finishEvents_retire hsrc)
      (yieldEvents_own s) (.inr hidx) rfl rfl rfl rfl (finishRegs_fence s) rfl rfl
      ((yieldedMgr_isSome s).trans hinv.mgr) hslots rfl
  | checkpointDirect hpc hidx hpre hm =>
    have hmgr := hinv.mgr
    rw [hm] at hmgr
    cases hmgr
  | checkpointNone hpc hidx hpre hm hnext =>
    have hsrc := hretire (retires_of_complete hpc)
    have htarget : s.preempt.target = s.currentChannelId := by
      obtain hsome | ⟨-, heq⟩ := hcheck ((atCheckpoint_eq hpc hidx).trans hpre)
      · rw [checkpointSelection_eq hm hnext] at hsome
        cases hsome
      · exact heq
    exact hinv.retire (hinv.flight (by rw [hpc]; rfl) hsrc) (finishEvents_retire hsrc)
      (X := [.preempted _ _, .yielded _]) (by simp [Event.isPlain]) (.inr hidx) rfl rfl rfl rfl
      (finishRegs_fence s) rfl htarget rfl hslots rfl
  | checkpointLoad hpc hidx hpre hm hnext hregs =>
    rename_i m m' c regs
    have hsrc := hretire (retires_of_complete hpc)
    have htarget : c = s.preempt.target := by
      obtain hsome | ⟨hnone, -⟩ := hcheck ((atCheckpoint_eq hpc hidx).trans hpre)
      · rw [checkpointSelection_eq hm hnext] at hsome
        exact Option.some.inj hsome
      · rw [checkpointSelection_eq hm hnext] at hnone
        cases hnone
    have hpast : IdentityInv { s with
        log := .preempted s.currentChannelId s.preempt.target :: .yielded s.currentChannelId ::
          (s.finishEvents ++ s.log)
        regs := s.finishRegs
        pc := .fetch } := by
      refine hinv.retire (hinv.flight (by rw [hpc]; rfl) hsrc) (finishEvents_retire hsrc)
        (X := [.preempted _ _, .yielded _]) (by simp [Event.isPlain]) (.inr hidx) rfl rfl rfl
        rfl (finishRegs_fence s) rfl rfl hinv.mgr ?_ rfl
      refine hinv.slots.of_slotsFrom rfl (fun x hx => ?_) fun m hm =>
        ⟨m, hm, slotsFrom_of_channels_eq rfl⟩
      simp [hx]
    have hb := hslots _ rfl c (nextReadyChannel_inFlight hnext)
    have hsub := (List.mem_cons.mp hb).resolve_left (by simp)
    exact IdentityInv.load rfl rfl rfl htarget hpast.yields hpast.loads ⟨_, hsub, .inl hregs⟩ rfl
      hslots rfl

theorem identityInv_envStep {s s' : HardwarePullerEmu} {a : Action} (h : EnvStep s a s')
    (hinv : IdentityInv s) (hslots : SlotsSubmitted s') : IdentityInv s' := by
  cases h with
  | accept =>
    exact hinv.plain rfl hslots (E := [_]) (by simp [Event.isPlain]) rfl (.inl rfl) rfl rfl
      fun hpc hsrc => .inl ⟨hpc, hsrc⟩
  | direct hm =>
    have hmgr := hinv.mgr
    rw [hm] at hmgr
    cases hmgr
  | configure =>
    exact hinv.plain rfl hslots (E := []) (by simp) rfl (.inl rfl) rfl rfl
      fun hpc hsrc => .inl ⟨hpc, hsrc⟩
  | quiet queues hal host preempt hsema hevs =>
    exact hinv.plain hinv.mgr hslots (fun ev hev => Event.isPlain_of_producer (hevs ev hev)) rfl
      (.inl rfl) rfl rfl fun hpc hsrc => .inl ⟨hpc, hsrc⟩

theorem identityInv_step (s : HardwarePullerEmu) (a : Action) (hinv : IdentityInv s)
    (hG : identityGuard s a) : IdentityInv (step s a) := by
  have hslots := slotsSubmitted_step s a hinv.slots
  obtain ⟨ha, h⟩ | ⟨-, h⟩ := step_cases s a
  · cases a <;> simp only [Action.isPuller, Bool.false_eq_true] at ha
    exact identityInv_pullerStep h hinv hslots hG
  · exact identityInv_envStep h hinv hslots

theorem identityInv_init {cfg : Config} (hmgr : cfg.mqds.isSome = true) :
    IdentityInv (init cfg) where
  regs := ⟨rfl, rfl, rfl, rfl, .inl rfl⟩
  yields := trivial
  loads := trivial
  mgr := by simpa [init] using hmgr
  slots := slotsSubmitted_init cfg
  lastLoad := .inr rfl
  flight := by
    intro hf
    cases hf

/-! ### The result -/

/-- **Channel identity.**  In every run of a puller with a channel manager whose steps meet
`identityGuard`, the registers are those of the current channel, what is loaded is the channel's
own, and each yield names the channel whose batch is over. -/
theorem channel_identity (cfg : Config) (hmgr : cfg.mqds.isSome = true) (as : List Action)
    (hG : Guarded step identityGuard (init cfg) as) :
    Always step ChannelIdentity (init cfg) as :=
  (always_of_inductive identityInv_step (identityInv_init hmgr) hG).mono step fun _ hinv =>
    hinv.toChannelIdentity

/-- Channel 1 is requested and is the one that is ready at the checkpoint; channel 0 is resumed with
the batch that its MQD was given. -/
theorem channel_identity_switch :
    Always step ChannelIdentity (init (.oneActive 1))
      ([.configure (.register 0 .normal .brown), .configure (.register 1 .normal .brown),
        .configure (.mqdPointer 0 (some 0)), .submitBatch ⟨0x100000000, 1, 0x100000001⟩,
        .channelSubmit 1 ⟨0x100001000, 1, 0x100000002⟩, .triggerPreempt 1] ++ pulls 8 ++
        [.channelSubmit 0 ⟨0x100000000, 1, 0x100000003⟩] ++ pulls 20) :=
  channel_identity (.oneActive 1) rfl _ (by decide +kernel)

/-- Channel 2 is requested while channel 1 is the one that is ready: channel 1's batch is loaded
under the number of channel 2. -/
theorem channel_identity_fails :
    ¬ Always step ChannelIdentity (init .managed)
      ([.configure (.register 0 .normal .brown), .configure (.register 1 .normal .brown),
        .submitBatch ⟨0x100000000, 1, 0x100000001⟩, .channelSubmit 1 ⟨0x100001000, 1, 0x100000002⟩,
        .triggerPreempt 2] ++ pulls 7) := by
  intro hall
  have hchannel := hall.last.regs.channel
  revert hchannel
  decide +kernel

end UsrLinuxEmu.GpuDriver
