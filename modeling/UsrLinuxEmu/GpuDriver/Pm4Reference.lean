import UsrLinuxEmu.GpuDriver.GlobalScheduler
import UsrLinuxEmu.Transition.Local
import UsrLinuxEmu.Transition.Simulation

/-!
# PM4 packets against a reference

`GpfifoToLaunchParamsTranslator::parsePm4Packet` turns a packet into method writes, one callback a
data word.  The reference keeps the registers and the next address of each subchannel by
themselves.

* `Pm4Packet` — a packet that one entry can carry, `Pm4Packet.ofEntry` — the packet of an entry;
* `Pm4Packet.writes` / `Pm4Subchannel.apply` — the reference;
* `Pm4Packet.sent` / `translate_pm4` — what the parser makes of a packet;
* `Pm4Law` — what is sent is what the reference writes, a refused packet does nothing, and a
  subchannel sees its own packets only;
* `followsReference` / `pm4_reference_iff` — when that is so.
-/

namespace UsrLinuxEmu.GpuDriver

open UsrLinuxEmu.Transition GpfifoToLaunchParamsTranslator

/-! ### Packets and writes -/

abbrev Pm4Entry := { entry : GpuGpfifoEntry // entry.format = formatPm4 }

/-- One method write: the word goes to a register of the subchannel. -/
structure Pm4Write where
  subchannel : UInt32
  methodAddr : UInt32
  data : UInt32
  deriving DecidableEq, Repr

/-- The write of a `"pm4_method"` callback. -/
def LaunchParams.pm4Write (call : LaunchParams) : Pm4Write := ⟨call.gridX, call.gridY, call.gridZ⟩

structure Pm4Packet where
  inc : Bool
  subchannel : UInt32
  methodAddr : UInt32
  words : List UInt32
  subchannel_lt : subchannel < kMaxSubchannels
  words_le : words.length ≤ 6

/-- `payload[0]`, which holds the packet's header. -/
def GpuGpfifoEntry.headerWord (entry : GpuGpfifoEntry) : UInt64 := entry.payload.toList.getD 0 0

/-- The words behind the header: the callback takes the low half of each. -/
def GpuGpfifoEntry.dataWords (entry : GpuGpfifoEntry) (count : ℕ) : List UInt32 :=
  ((entry.payload.toList.drop 1).take count).map UInt64.toUInt32

theorem GpuGpfifoEntry.dataWords_length (entry : GpuGpfifoEntry) {count : ℕ} (h : count ≤ 6) :
    (entry.dataWords count).length = count := by
  rw [dataWords, List.length_map, List.length_take, List.length_drop, Vector.length_toList]
  omega

theorem GpuGpfifoEntry.dataWords_length_le (entry : GpuGpfifoEntry) (count : ℕ) :
    (entry.dataWords count).length ≤ 6 := by
  rw [dataWords, List.length_map, List.length_take, List.length_drop, Vector.length_toList]
  omega

/-- The packet of a valid entry, if its header is one the parser takes. -/
def Pm4Packet.ofEntry (entry : GpuGpfifoEntry) : Option Pm4Packet :=
  if h : pm4Subchannel entry.headerWord.toUInt32 < kMaxSubchannels then
    if entry.valid ∧ entry.headerWord ≠ 0 ∧ pm4DataCount entry.headerWord.toUInt32 ≤ 6 then
      some
        { inc := pm4Inc entry.headerWord.toUInt32
          subchannel := pm4Subchannel entry.headerWord.toUInt32
          methodAddr := pm4MethodAddr entry.headerWord.toUInt32
          words := entry.dataWords (pm4DataCount entry.headerWord.toUInt32).toNat
          subchannel_lt := h
          words_le := entry.dataWords_length_le _ }
    else none
  else none

/-- The packet's words written to the given addresses. -/
def Pm4Packet.writesAt (p : Pm4Packet) (addrs : List UInt32) : List Pm4Write :=
  addrs.zipWith (Pm4Write.mk p.subchannel) p.words

/-- As many addresses as the packet has words, from `start` on. -/
def Pm4Packet.consecutive (p : Pm4Packet) (start : UInt32) : List UInt32 :=
  (List.range p.words.length).map fun i => start + UInt32.ofNat i

/-! ### The reference -/

/-- One subchannel: where its last INC packet stopped, unless a non-incrementing packet came after
it, and its registers. -/
structure Pm4Subchannel where
  nextAddr : Option UInt32
  registers : UInt32 → Option UInt32

namespace Pm4Packet

/-- An INC packet goes on where the last one stopped. -/
def start (p : Pm4Packet) (nextAddr : Option UInt32) : UInt32 := nextAddr.getD p.methodAddr

def addresses (p : Pm4Packet) (nextAddr : Option UInt32) : List UInt32 :=
  if p.inc then p.consecutive (p.start nextAddr)
  else List.replicate p.words.length p.methodAddr

def writes (p : Pm4Packet) (nextAddr : Option UInt32) : List Pm4Write :=
  p.writesAt (p.addresses nextAddr)

def stop (p : Pm4Packet) (nextAddr : Option UInt32) : Option UInt32 :=
  if p.inc then some (p.start nextAddr + UInt32.ofNat p.words.length) else none

end Pm4Packet

/-- The registers after a list of writes to them. -/
def writeRegisters (registers : UInt32 → Option UInt32) (ws : List Pm4Write) :
    UInt32 → Option UInt32 :=
  ws.foldl (fun r w => Function.update r w.methodAddr (some w.data)) registers

def Pm4Subchannel.apply (c : Pm4Subchannel) (p : Pm4Packet) : Pm4Subchannel where
  nextAddr := p.stop c.nextAddr
  registers := writeRegisters c.registers (p.writes c.nextAddr)

/-! ### What the parser sends -/

namespace Pm4Packet

/-- Zero in `pm4_next_addr_` stands for no continuation. -/
def parserStart (p : Pm4Packet) (currentAddr : UInt32) : UInt32 :=
  if p.inc ∧ currentAddr ≠ 0 then currentAddr else p.methodAddr

def sent (p : Pm4Packet) (currentAddr : UInt32) : List Pm4Write :=
  p.writesAt (p.consecutive (p.parserStart currentAddr))

def parserStop (p : Pm4Packet) (currentAddr : UInt32) : UInt32 :=
  if p.inc then p.parserStart currentAddr + UInt32.ofNat p.words.length else 0

end Pm4Packet

/-! ### Runs -/

/-- A translator whose launch callback is set. -/
abbrev ListeningTranslator := { tr : GpfifoToLaunchParamsTranslator // tr.launchCb = true }

def pm4Step (tr : ListeningTranslator) (e : Pm4Entry) : ListeningTranslator :=
  ⟨(tr.1.translate e.1).translator, by rw [translate_launchCb]; exact tr.2⟩

/-- The translator as constructed, once its callback is set. -/
def freshListening (signalHook : Bool) (kernelNames : UInt32 → Option String) :
    ListeningTranslator :=
  ⟨{ launchCb := true, signalHook, kernelNames, pm4NextAddr := fun _ => 0 }, rfl⟩

/-- The writes that the callback received, and the reference with what it wrote. -/
structure Pm4Observer where
  emitted : List Pm4Write
  expected : List Pm4Write
  reference : UInt32 → Pm4Subchannel

namespace Pm4Observer

def empty : Pm4Observer := ⟨[], [], fun _ => ⟨none, fun _ => none⟩⟩

def note (g : Pm4Observer) (tr : ListeningTranslator) (e : Pm4Entry) : Pm4Observer :=
  let g' := { g with
    emitted := g.emitted ++ (tr.1.translate e.1).launches.map LaunchParams.pm4Write }
  match Pm4Packet.ofEntry e.1 with
  | none => g'
  | some p => { g' with
      expected := g.expected ++ p.writes (g.reference p.subchannel).nextAddr
      reference := Function.update g.reference p.subchannel ((g.reference p.subchannel).apply p) }

end Pm4Observer

abbrev observedPm4 := observed pm4Step Pm4Observer.note

/-- What was sent is what the reference wrote, and leaves the reference's registers. -/
def MatchesReference (x : Pm4Observer × ListeningTranslator) : Prop :=
  x.1.emitted = x.1.expected ∧
    ∀ s, (x.1.reference s).registers =
      writeRegisters (fun _ => none) (x.1.emitted.filter fun w => w.subchannel == s)

/-- A refused packet makes no call and leaves the translator as it is. -/
def refusedKeeps (x : Pm4Observer × ListeningTranslator) (e : Pm4Entry) : Prop :=
  (x.2.1.translate e.1).ok = false →
    (x.2.1.translate e.1).launches = [] ∧ (x.2.1.translate e.1).signals = [] ∧
      (x.2.1.translate e.1).translator = x.2.1

/-- The entry's header names the subchannel. -/
def Pm4Entry.isOn (s : UInt32) (e : Pm4Entry) : Bool :=
  pm4Subchannel e.1.headerWord.toUInt32 == s

/-- What a subchannel has of the translator: the writes sent to it and its next address. -/
def subchannelView (s : UInt32) (x : Pm4Observer × ListeningTranslator) :
    List Pm4Write × UInt32 :=
  (x.1.emitted.filter fun w => w.subchannel == s, x.2.1.pm4NextAddr s)

def Pm4Law (x : Pm4Observer × ListeningTranslator) (es : List Pm4Entry) : Prop :=
  Always observedPm4 MatchesReference x es ∧ Guarded observedPm4 refusedKeeps x es ∧
    ∀ s, subchannelView s (run observedPm4 x es) =
      subchannelView s (run observedPm4 x (es.filter (Pm4Entry.isOn s)))

/-- A non-incrementing packet has one word at most.  An INC packet with words, on a subchannel where
the last one stopped at `a`, finds `a` in `pm4_next_addr_`, or zero there and `a` in its header. -/
def Pm4Packet.inStep (p : Pm4Packet) (currentAddr : UInt32) (nextAddr : Option UInt32) : Prop :=
  if p.inc then
    p.words ≠ [] → ∀ a ∈ nextAddr, a = if currentAddr = 0 then p.methodAddr else currentAddr
  else p.words.length ≤ 1

def followsReference (x : Pm4Observer × ListeningTranslator) (e : Pm4Entry) : Prop :=
  ∀ p ∈ Pm4Packet.ofEntry e.1,
    p.inStep (x.2.1.pm4NextAddr p.subchannel) (x.1.reference p.subchannel).nextAddr

/-! ### The parser's packets -/

section Parser

variable {tr : GpfifoToLaunchParamsTranslator} {entry : GpuGpfifoEntry} {p : Pm4Packet}

/-- What `ofEntry` requires, and the fields it takes. -/
theorem ofEntry_eq_some (hp : Pm4Packet.ofEntry entry = some p) :
    entry.valid = true ∧ entry.headerWord ≠ 0 ∧ pm4DataCount entry.headerWord.toUInt32 ≤ 6 ∧
      p.inc = pm4Inc entry.headerWord.toUInt32 ∧
      p.subchannel = pm4Subchannel entry.headerWord.toUInt32 ∧
      p.methodAddr = pm4MethodAddr entry.headerWord.toUInt32 ∧
      p.words = entry.dataWords (pm4DataCount entry.headerWord.toUInt32).toNat := by
  unfold Pm4Packet.ofEntry at hp
  split_ifs at hp with hs hrest
  obtain ⟨hvalid, hzero, hcount⟩ := hrest
  rw [← Option.some.inj hp]
  exact ⟨hvalid, hzero, hcount, rfl, rfl, rfl, rfl⟩

theorem translate_eq_parse (hformat : entry.format = formatPm4) (hvalid : entry.valid = true) :
    tr.translate entry = tr.parsePm4Packet entry := by
  have hnative : entry.format ≠ formatUsrNative := by rw [hformat]; decide
  have haql : entry.format ≠ formatAql := by rw [hformat]; decide
  simp only [GpfifoToLaunchParamsTranslator.translate, hvalid, Bool.not_true, Bool.false_eq_true,
    if_false, if_neg hnative, if_neg haql, if_pos hformat]

/-- An entry without a packet is refused. -/
theorem translate_of_none (hformat : entry.format = formatPm4)
    (hp : Pm4Packet.ofEntry entry = none) : tr.translate entry = ⟨false, [], [], tr⟩ := by
  by_cases hvalid : entry.valid = true
  · rw [translate_eq_parse hformat hvalid, parsePm4Packet,
      GpuGpfifoEntry.payload_head, ← GpuGpfifoEntry.headerWord]
    by_cases hzero : entry.headerWord = 0
    · rw [if_pos hzero]
    by_cases hs : kMaxSubchannels ≤ pm4Subchannel entry.headerWord.toUInt32
    · simp only [if_neg hzero, if_pos hs]
    by_cases hcount : pm4DataCount entry.headerWord.toUInt32 > 6
    · simp only [if_neg hzero, if_neg hs, if_pos hcount]
    · rw [Pm4Packet.ofEntry, dif_pos (UInt32.not_le.mp hs),
        if_pos ⟨hvalid, hzero, UInt32.not_lt.mp hcount⟩] at hp
      exact absurd hp (Option.some_ne_none _)
  · simp only [GpfifoToLaunchParamsTranslator.translate, hvalid, Bool.not_false, if_true]

/-- The words of the callbacks are the packet's. -/
theorem map_pm4Call (entry : GpuGpfifoEntry) (subchannel addr : UInt32) {count : ℕ}
    (hcount : count ≤ 6) :
    ((List.range count).map (pm4Call entry subchannel addr)).map LaunchParams.pm4Write =
      ((List.range count).map fun i => addr + UInt32.ofNat i).zipWith (Pm4Write.mk subchannel)
        (entry.dataWords count) := by
  apply List.ext_getElem
  · simp only [List.length_map, List.length_range, List.length_zipWith,
      entry.dataWords_length hcount, Nat.min_self]
  · intro i hi _
    simp only [List.length_map, List.length_range] at hi
    have hword : 1 + i < entry.payload.toList.length := by
      rw [Vector.length_toList]
      omega
    have hdata : entry.payload.toList.getD (1 + i) 0 = entry.payload.toList[1 + i] :=
      (List.getElem_eq_getD 0).symm
    simp only [List.getElem_map, List.getElem_range, List.getElem_zipWith, pm4Call,
      LaunchParams.pm4Write, GpuGpfifoEntry.dataWords, List.getElem_take, List.getElem_drop, hdata]

/-- **The parser.**  An entry with a packet is taken, and what is sent and kept depends on the
packet and the subchannel's next address only. -/
theorem translate_of_some (hformat : entry.format = formatPm4)
    (hp : Pm4Packet.ofEntry entry = some p) :
    (tr.translate entry).ok = true ∧
      (tr.translate entry).launches.map LaunchParams.pm4Write =
        (if tr.launchCb then p.sent (tr.pm4NextAddr p.subchannel) else []) ∧
      (tr.translate entry).translator.pm4NextAddr =
        Function.update tr.pm4NextAddr p.subchannel
          (p.parserStop (tr.pm4NextAddr p.subchannel)) := by
  obtain ⟨hvalid, hzero, hcount, hinc, hsub, haddr, hwords⟩ := ofEntry_eq_some hp
  have hlt : ¬ kMaxSubchannels ≤ pm4Subchannel entry.headerWord.toUInt32 :=
    UInt32.not_le.mpr (hsub ▸ p.subchannel_lt)
  have hlength : p.words.length = (pm4DataCount entry.headerWord.toUInt32).toNat := by
    rw [hwords, entry.dataWords_length (UInt32.le_iff_toNat_le.mp hcount)]
  rw [translate_eq_parse hformat hvalid, parsePm4Packet,
      GpuGpfifoEntry.payload_head, ← GpuGpfifoEntry.headerWord]
  simp only [if_neg hzero, if_neg hlt, if_neg (UInt32.not_lt.mpr hcount)]
  refine ⟨trivial, ?_, ?_⟩
  · by_cases hcb : tr.launchCb = true
    · rw [calls, if_pos hcb, if_pos hcb, map_pm4Call _ _ _ (UInt32.le_iff_toNat_le.mp hcount),
        Pm4Packet.sent, Pm4Packet.writesAt, Pm4Packet.consecutive, Pm4Packet.parserStart, hlength,
        hwords, hsub, hinc, haddr]
    · rw [calls, if_neg hcb, if_neg hcb, List.map_nil]
  · rw [Pm4Packet.parserStop, Pm4Packet.parserStart, hlength, hsub, hinc, haddr,
      UInt32.ofNat_toNat]

end Parser

/-! ### Writes and their addresses -/

section Writes

variable {p : Pm4Packet}

theorem Pm4Packet.consecutive_length (p : Pm4Packet) (start : UInt32) :
    (p.consecutive start).length = p.words.length := by
  rw [consecutive, List.length_map, List.length_range]

theorem Pm4Packet.addresses_length (p : Pm4Packet) (nextAddr : Option UInt32) :
    (p.addresses nextAddr).length = p.words.length := by
  rw [addresses]
  split_ifs
  · exact p.consecutive_length _
  · exact List.length_replicate

theorem Pm4Packet.writesAt_subchannel (p : Pm4Packet) (addrs : List UInt32) :
    ∀ w ∈ p.writesAt addrs, w.subchannel = p.subchannel := by
  intro w hw
  obtain ⟨i, hi, rfl⟩ := List.getElem_of_mem hw
  simp only [writesAt, List.getElem_zipWith]

/-- The writes tell the addresses. -/
theorem Pm4Packet.writesAt_addrs (p : Pm4Packet) {addrs : List UInt32}
    (h : addrs.length = p.words.length) :
    (p.writesAt addrs).map Pm4Write.methodAddr = addrs := by
  apply List.ext_getElem
  · rw [List.length_map, writesAt, List.length_zipWith, h, Nat.min_self]
  · intro i _ _
    simp only [writesAt, List.getElem_map, List.getElem_zipWith]

theorem Pm4Packet.writesAt_inj (p : Pm4Packet) {addrs addrs' : List UInt32}
    (h : addrs.length = p.words.length) (h' : addrs'.length = p.words.length) :
    p.writesAt addrs = p.writesAt addrs' ↔ addrs = addrs' := by
  constructor
  · intro heq
    rw [← p.writesAt_addrs h, heq, p.writesAt_addrs h']
  · rintro rfl
    rfl

/-- Runs of addresses of the same length differ when their starts do, unless they are empty. -/
theorem Pm4Packet.consecutive_inj (p : Pm4Packet) (a b : UInt32) :
    p.consecutive a = p.consecutive b ↔ (p.words ≠ [] → a = b) := by
  constructor
  · intro heq hne
    have hpos : 0 < p.words.length := List.length_pos_iff.mpr hne
    have hfirst : (p.consecutive a)[0]? = (p.consecutive b)[0]? := by rw [heq]
    simpa [consecutive, hpos] using hfirst
  · intro h
    by_cases hnil : p.words = []
    · simp only [consecutive, hnil, List.length_nil, List.range_zero, List.map_nil]
    · rw [h hnil]

/-- A run of addresses is constant only when it has one address at most. -/
theorem Pm4Packet.consecutive_eq_replicate (p : Pm4Packet) (a : UInt32) :
    p.consecutive a = List.replicate p.words.length a ↔ p.words.length ≤ 1 := by
  constructor
  · intro heq
    by_contra hlen
    have hsecond : (p.consecutive a)[1]? = (List.replicate p.words.length a)[1]? := by rw [heq]
    simp [consecutive, Nat.not_le.mp hlen] at hsecond
  · intro hlen
    rcases Nat.le_one_iff_eq_zero_or_eq_one.mp hlen with h | h
    · rw [consecutive, h]
      rfl
    · rw [consecutive, h]
      simp

end Writes

/-! ### One packet -/

section Step

variable {p : Pm4Packet}

/-- The parser's start is the reference's, where the reference has no stop to go on from. -/
theorem Pm4Packet.parserStart_eq_iff (hinc : p.inc = true) {currentAddr : UInt32}
    {nextAddr : Option UInt32} (hfresh : nextAddr = none → currentAddr = 0) :
    p.parserStart currentAddr = p.start nextAddr ↔
      ∀ a ∈ nextAddr, a = if currentAddr = 0 then p.methodAddr else currentAddr := by
  have hstart : p.parserStart currentAddr =
      if currentAddr = 0 then p.methodAddr else currentAddr := by
    by_cases hzero : currentAddr = 0
    · rw [parserStart, if_neg (by simp [hzero]), if_pos hzero]
    · rw [parserStart, if_pos ⟨hinc, hzero⟩, if_neg hzero]
  cases nextAddr with
  | none => simp [hfresh rfl, parserStart, start]
  | some a =>
    rw [hstart, start, Option.getD_some]
    simp only [Option.mem_some_iff, forall_eq', eq_comm]

/-- **One packet.**  The parser sends what the reference writes exactly when they are in step. -/
theorem Pm4Packet.sent_eq_writes_iff {currentAddr : UInt32} {nextAddr : Option UInt32}
    (hfresh : nextAddr = none → currentAddr = 0) :
    p.sent currentAddr = p.writes nextAddr ↔ p.inStep currentAddr nextAddr := by
  rw [sent, writes, p.writesAt_inj (p.consecutive_length _) (p.addresses_length _), addresses,
    inStep]
  by_cases hinc : p.inc = true
  · rw [if_pos hinc, if_pos hinc, p.consecutive_inj, p.parserStart_eq_iff hinc hfresh]
  · have hstart : p.parserStart currentAddr = p.methodAddr := by
      rw [parserStart, if_neg fun h => hinc h.1]
    rw [if_neg hinc, if_neg hinc, hstart, p.consecutive_eq_replicate]

theorem Pm4Packet.filter_writesAt_own (p : Pm4Packet) (addrs : List UInt32) :
    (p.writesAt addrs).filter (fun w => w.subchannel == p.subchannel) = p.writesAt addrs :=
  List.filter_eq_self.mpr fun w hw => beq_iff_eq.mpr (p.writesAt_subchannel addrs w hw)

theorem Pm4Packet.filter_writesAt_other {s : UInt32} (hs : s ≠ p.subchannel)
    (addrs : List UInt32) : (p.writesAt addrs).filter (fun w => w.subchannel == s) = [] :=
  List.filter_eq_nil_iff.mpr fun w hw h =>
    hs ((beq_iff_eq.mp h).symm.trans (p.writesAt_subchannel addrs w hw))

theorem writeRegisters_append (r : UInt32 → Option UInt32) (ws ws' : List Pm4Write) :
    writeRegisters r (ws ++ ws') = writeRegisters (writeRegisters r ws) ws' :=
  List.foldl_append

variable {x : Pm4Observer × ListeningTranslator} {e : Pm4Entry}

theorem observedPm4_of_none (hp : Pm4Packet.ofEntry e.1 = none) : observedPm4 x e = x := by
  have htr : x.2.1.translate e.1 = _ := translate_of_none e.2 hp
  ext1
  · simp only [observed, Pm4Observer.note, hp, htr, List.map_nil, List.append_nil]
  · simp only [observed, pm4Step, htr]

/-- What a taken entry does to the calls and the reference. -/
theorem observedPm4_of_some (hp : Pm4Packet.ofEntry e.1 = some p) :
    (observedPm4 x e).1.emitted = x.1.emitted ++ p.sent (x.2.1.pm4NextAddr p.subchannel) ∧
      (observedPm4 x e).1.expected =
        x.1.expected ++ p.writes (x.1.reference p.subchannel).nextAddr ∧
      (observedPm4 x e).1.reference = Function.update x.1.reference p.subchannel
        ((x.1.reference p.subchannel).apply p) ∧
      (observedPm4 x e).2.1.pm4NextAddr = Function.update x.2.1.pm4NextAddr p.subchannel
        (p.parserStop (x.2.1.pm4NextAddr p.subchannel)) := by
  have htr : (x.2.1.translate e.1).ok = true ∧ _ := translate_of_some e.2 hp
  obtain ⟨-, hlaunches, hnext⟩ := htr
  rw [if_pos x.2.2] at hlaunches
  refine ⟨?_, ?_, ?_, hnext⟩
  · simp only [observed, Pm4Observer.note, hp, hlaunches]
  · simp only [observed, Pm4Observer.note, hp]
  · simp only [observed, Pm4Observer.note, hp]

theorem refusedKeeps_holds (x : Pm4Observer × ListeningTranslator) (e : Pm4Entry) :
    refusedKeeps x e := by
  intro hrefused
  cases hp : Pm4Packet.ofEntry e.1 with
  | none =>
    rw [translate_of_none e.2 hp]
    exact ⟨rfl, rfl, rfl⟩
  | some p =>
    rw [(translate_of_some e.2 hp).1] at hrefused
    cases hrefused

end Step

/-! ### Subchannels by themselves -/

/-- What a packet of the subchannel does there. -/
def subchannelStep (v : List Pm4Write × UInt32) (e : Pm4Entry) : List Pm4Write × UInt32 :=
  match Pm4Packet.ofEntry e.1 with
  | none => v
  | some p => (v.1 ++ p.sent v.2, p.parserStop v.2)

/-- **Subchannels apart.**  A subchannel's writes and next address come from its own packets. -/
theorem subchannel_local (s : UInt32) :
    LocalView observedPm4 (Pm4Entry.isOn s) (subchannelView s) subchannelStep := by
  constructor
  · intro x e hmine
    cases hp : Pm4Packet.ofEntry e.1 with
    | none => rw [observedPm4_of_none hp, subchannelStep, hp]
    | some p =>
      obtain ⟨-, -, -, -, hsub, -, -⟩ := ofEntry_eq_some hp
      obtain rfl : p.subchannel = s := hsub.trans (beq_iff_eq.mp hmine)
      obtain ⟨hemitted, -, -, hnext⟩ := observedPm4_of_some (x := x) hp
      rw [subchannelView, hemitted, hnext, Function.update_self, List.filter_append,
        Pm4Packet.sent, p.filter_writesAt_own, subchannelStep, hp]
      rfl
  · intro x e hother
    cases hp : Pm4Packet.ofEntry e.1 with
    | none => rw [observedPm4_of_none hp]
    | some p =>
      obtain ⟨-, -, -, -, hsub, -, -⟩ := ofEntry_eq_some hp
      have hs : s ≠ p.subchannel := by
        rintro rfl
        rw [Pm4Entry.isOn, ← hsub, beq_self_eq_true] at hother
        cases hother
      obtain ⟨hemitted, -, -, hnext⟩ := observedPm4_of_some (x := x) hp
      rw [subchannelView, hemitted, hnext, Function.update_of_ne hs, List.filter_append,
        Pm4Packet.sent, Pm4Packet.filter_writesAt_other hs, List.append_nil, subchannelView]

/-! ### Runs -/

/-- The writes agree so far, and where the reference has no stop `pm4_next_addr_` is zero. -/
structure Pm4Inv (x : Pm4Observer × ListeningTranslator) : Prop where
  agree : MatchesReference x
  fresh : ∀ s, (x.1.reference s).nextAddr = none → x.2.1.pm4NextAddr s = 0

section Run

variable {x : Pm4Observer × ListeningTranslator} {e : Pm4Entry}

theorem Pm4Inv.initial (signalHook : Bool) (kernelNames : UInt32 → Option String) :
    Pm4Inv (Pm4Observer.empty, freshListening signalHook kernelNames) :=
  ⟨⟨rfl, fun _ => rfl⟩, fun _ _ => rfl⟩

theorem Pm4Inv.fresh_step (hx : Pm4Inv x) (s : UInt32) :
    ((observedPm4 x e).1.reference s).nextAddr = none →
      (observedPm4 x e).2.1.pm4NextAddr s = 0 := by
  intro hnone
  cases hp : Pm4Packet.ofEntry e.1 with
  | none =>
    rw [observedPm4_of_none hp] at hnone ⊢
    exact hx.fresh s hnone
  | some p =>
    obtain ⟨-, -, hreference, hnext⟩ := observedPm4_of_some (x := x) hp
    rw [hreference] at hnone
    rw [hnext]
    by_cases hs : s = p.subchannel
    · rw [hs, Function.update_self] at hnone ⊢
      rw [Pm4Subchannel.apply, Pm4Packet.stop] at hnone
      rw [Pm4Packet.parserStop]
      split_ifs at hnone ⊢
      rfl
    · rw [Function.update_of_ne hs] at hnone ⊢
      exact hx.fresh s hnone

/-- The registers follow the writes, once these agree. -/
theorem MatchesReference.step (hx : MatchesReference x)
    (hsent : ∀ p ∈ Pm4Packet.ofEntry e.1, p.sent (x.2.1.pm4NextAddr p.subchannel) =
      p.writes (x.1.reference p.subchannel).nextAddr) : MatchesReference (observedPm4 x e) := by
  cases hp : Pm4Packet.ofEntry e.1 with
  | none => rwa [observedPm4_of_none hp]
  | some p =>
    have hwrites := hsent p (Option.mem_def.mpr hp)
    obtain ⟨hemitted, hexpected, hreference, -⟩ := observedPm4_of_some (x := x) hp
    rw [MatchesReference, hemitted, hexpected, hreference, hwrites, hx.1]
    refine ⟨rfl, fun s => ?_⟩
    by_cases hs : s = p.subchannel
    · rw [hs, Function.update_self, List.filter_append, writeRegisters_append, ← hx.1, ← hx.2,
        Pm4Packet.writes, p.filter_writesAt_own, Pm4Subchannel.apply, Pm4Packet.writes]
    · rw [Function.update_of_ne hs, List.filter_append, Pm4Packet.writes,
        Pm4Packet.filter_writesAt_other hs, List.append_nil, ← hx.1]
      exact hx.2 s

theorem Pm4Inv.step (hx : Pm4Inv x) (he : followsReference x e) : Pm4Inv (observedPm4 x e) :=
  ⟨hx.agree.step fun p hp => (Pm4Packet.sent_eq_writes_iff (hx.fresh _)).mpr (he p hp),
    hx.fresh_step⟩

/-- A step that keeps the writes equal is in step with the reference. -/
theorem Pm4Inv.follows (hx : Pm4Inv x) (hnext : MatchesReference (observedPm4 x e)) :
    followsReference x e := by
  intro p hp
  rw [← Pm4Packet.sent_eq_writes_iff (hx.fresh _)]
  obtain ⟨hemitted, hexpected, -, -⟩ := observedPm4_of_some (x := x) (Option.mem_def.mp hp)
  have hwrites := hnext.1
  rw [hemitted, hexpected, hx.agree.1] at hwrites
  exact List.append_cancel_left hwrites

/-- **PM4 against its reference.**  From a fresh translator the law holds along a sequence of
packets exactly when each of them is in step with the reference. -/
theorem pm4_reference_iff (signalHook : Bool) (kernelNames : UInt32 → Option String)
    (es : List Pm4Entry) :
    Pm4Law (Pm4Observer.empty, freshListening signalHook kernelNames) es ↔
      Guarded observedPm4 followsReference
        (Pm4Observer.empty, freshListening signalHook kernelNames) es := by
  have hinit := Pm4Inv.initial signalHook kernelNames
  have hexact : (Always observedPm4 MatchesReference _ es ∧ Guarded observedPm4 refusedKeeps _ es) ↔
      Guarded observedPm4 followsReference _ es :=
    always_guarded_iff (fun _ _ hx he => hx.step he) (fun _ hx => hx.agree)
      (fun x e _ _ => refusedKeeps_holds x e) (fun _ _ hx hnext _ => hx.follows hnext) es hinit
  constructor
  · rintro ⟨hagree, hrefused, -⟩
    exact hexact.mp ⟨hagree, hrefused⟩
  · intro hguard
    obtain ⟨hagree, hrefused⟩ := hexact.mpr hguard
    exact ⟨hagree, hrefused, fun s => (subchannel_local s).run_filter _ es⟩

/-- A non-incrementing packet with the words 5 and 6 for address `0x1000`. -/
def twoWordPacket : Pm4Entry :=
  ⟨{ GpuGpfifoEntry.zero with
      valid := true, format := formatPm4, payload := #v[0x202000, 5, 6, 0, 0, 0, 0] }, rfl⟩

/-- The second word goes to `0x1001`. -/
theorem pm4_reference_fails :
    ¬ Pm4Law (Pm4Observer.empty, freshListening false fun _ => none) [twoWordPacket] := by
  rintro ⟨hagree, -, -⟩
  have hwrites := hagree.2.1
  revert hwrites
  decide

end Run

end UsrLinuxEmu.GpuDriver
