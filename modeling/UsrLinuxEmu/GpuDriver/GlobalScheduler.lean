import Mathlib.Logic.Function.Basic
import Mathlib.Tactic.SplitIfs
import UsrLinuxEmu.GpuDriver.GpuTypes

/-!
# The launch translator and the global scheduler's enqueue side

`GpfifoToLaunchParamsTranslator` (`sim/scheduler/translator/gpfifo_translator.cpp`) turns an entry
into kernel-launch callbacks, and `GlobalScheduler::enqueue_with_priority`
(`sim/scheduler/global_scheduler.cpp`) runs it on every entry it queues.

* `translate` — the callbacks an entry causes, with the translator's new state;
* `callbackCount` / `translate_launches` — how many there are, read off the entry alone;
* `GlobalScheduler.enqueueWithPriority` — translation, then insertion into the ordered multiset.
-/

namespace UsrLinuxEmu.GpuDriver

/-! ### The translator -/

/-- The arguments of one call of the launch callback. -/
structure LaunchParams where
  kernelName : String
  gridX : UInt32
  gridY : UInt32
  gridZ : UInt32
  blockX : UInt32
  blockY : UInt32
  blockZ : UInt32
  sharedMem : UInt32
  deriving DecidableEq, Repr

def kMaxSubchannels : UInt32 := 8

/-- `launchCb` and `signalHook` tell whether the callback is set. -/
structure GpfifoToLaunchParamsTranslator where
  launchCb : Bool
  signalHook : Bool
  kernelNames : UInt32 → Option String
  pm4NextAddr : UInt32 → UInt32

/-- The outcome of `translate`: the return value, the calls it made, the state it left. -/
structure TranslateResult where
  ok : Bool
  launches : List LaunchParams
  signals : List (UInt64 × UInt64)
  translator : GpfifoToLaunchParamsTranslator

namespace GpfifoToLaunchParamsTranslator

def unpackDimX (packed : UInt64) : UInt32 := (packed &&& 0xFFFF).toUInt32
def unpackDimY (packed : UInt64) : UInt32 := ((packed >>> 16) &&& 0xFF).toUInt32
def unpackDimZ (packed : UInt64) : UInt32 := ((packed >>> 24) &&& 0xFF).toUInt32

def kernelName (tr : GpfifoToLaunchParamsTranslator) (idx : UInt32) : String :=
  (tr.kernelNames idx).getD "unknown"

/-- The calls that reach the callback: none when it is not set. -/
def calls (tr : GpfifoToLaunchParamsTranslator) (ps : List LaunchParams) : List LaunchParams :=
  if tr.launchCb then ps else []

/-- The call that both the native and the AQL path make. -/
def kernelCall (tr : GpfifoToLaunchParamsTranslator) (entry : GpuGpfifoEntry)
    (sharedMem : UInt32) : LaunchParams where
  kernelName := tr.kernelName entry.payload[0].toUInt32
  gridX := unpackDimX entry.payload[1]
  gridY := unpackDimY entry.payload[1]
  gridZ := unpackDimZ entry.payload[1]
  blockX := unpackDimX entry.payload[2]
  blockY := unpackDimY entry.payload[2]
  blockZ := unpackDimZ entry.payload[2]
  sharedMem := sharedMem

def translateUsrNative (tr : GpfifoToLaunchParamsTranslator) (entry : GpuGpfifoEntry) :
    TranslateResult :=
  ⟨true, tr.calls [tr.kernelCall entry 0], [], tr⟩

def parseAqlPacket (tr : GpfifoToLaunchParamsTranslator) (entry : GpuGpfifoEntry) :
    TranslateResult :=
  let signals : List (UInt64 × UInt64) :=
    if entry.payload[4] ≠ 0 ∧ tr.signalHook then [(entry.payload[4], 1)] else []
  ⟨true, tr.calls [tr.kernelCall entry entry.payload[3].toUInt32], signals, tr⟩

/-! The fields of a PM4 header word. -/

def pm4Inc (header : UInt32) : Bool := header &&& 1 != 0
def pm4MethodAddr (header : UInt32) : UInt32 := (header >>> 1) &&& 0x7FFF
def pm4Subchannel (header : UInt32) : UInt32 := (header >>> 16) &&& 0xF
def pm4DataCount (header : UInt32) : UInt32 := (header >>> 20) &&& 0xF

/-- The `i`-th data word's callback; `data` is narrowed to the callback's `uint32_t`. -/
def pm4Call (entry : GpuGpfifoEntry) (subchannel methodAddr : UInt32) (i : ℕ) : LaunchParams where
  kernelName := "pm4_method"
  gridX := subchannel
  gridY := methodAddr + UInt32.ofNat i
  gridZ := (entry.payload.toList.getD (1 + i) 0).toUInt32
  blockX := 0
  blockY := 0
  blockZ := 0
  sharedMem := 0

def parsePm4Packet (tr : GpfifoToLaunchParamsTranslator) (entry : GpuGpfifoEntry) :
    TranslateResult :=
  if entry.payload[0] = 0 then ⟨false, [], [], tr⟩
  else
    let header := entry.payload[0].toUInt32
    let subchannel := pm4Subchannel header
    let dataCount := pm4DataCount header
    if kMaxSubchannels ≤ subchannel then ⟨false, [], [], tr⟩
    else if dataCount > 6 then ⟨false, [], [], tr⟩
    else
      let inc := pm4Inc header
      let currentAddr := tr.pm4NextAddr subchannel
      let methodAddr := if inc ∧ currentAddr ≠ 0 then currentAddr else pm4MethodAddr header
      let nextAddr := if inc then methodAddr + dataCount else 0
      ⟨true, tr.calls ((List.range dataCount.toNat).map (pm4Call entry subchannel methodAddr)), [],
        { tr with pm4NextAddr := Function.update tr.pm4NextAddr subchannel nextAddr }⟩

def translate (tr : GpfifoToLaunchParamsTranslator) (entry : GpuGpfifoEntry) : TranslateResult :=
  if !entry.valid then ⟨false, [], [], tr⟩
  else if entry.format = formatUsrNative then tr.translateUsrNative entry
  else if entry.format = formatAql then tr.parseAqlPacket entry
  else if entry.format = formatPm4 then tr.parsePm4Packet entry
  else ⟨false, [], [], tr⟩

end GpfifoToLaunchParamsTranslator

open GpfifoToLaunchParamsTranslator in
/-- The number of data words a PM4 packet sends, zero for a packet the parser refuses. -/
def GpuGpfifoEntry.pm4Words (entry : GpuGpfifoEntry) : ℕ :=
  if entry.payload[0] = 0 then 0
  else if kMaxSubchannels ≤ pm4Subchannel entry.payload[0].toUInt32 then 0
  else if pm4DataCount entry.payload[0].toUInt32 > 6 then 0
  else (pm4DataCount entry.payload[0].toUInt32).toNat

/-- How often translating the entry calls a registered launch callback: the method plays no
part. -/
def GpuGpfifoEntry.callbackCount (entry : GpuGpfifoEntry) : ℕ :=
  if !entry.valid then 0
  else if entry.format = formatUsrNative then 1
  else if entry.format = formatAql then 1
  else if entry.format = formatPm4 then entry.pm4Words
  else 0

theorem GpuGpfifoEntry.payload_head (entry : GpuGpfifoEntry) :
    entry.payload[0] = entry.payload.toList.getD 0 0 := by
  simp

namespace GpfifoToLaunchParamsTranslator

theorem calls_length (tr : GpfifoToLaunchParamsTranslator) (ps : List LaunchParams) :
    (tr.calls ps).length = if tr.launchCb then ps.length else 0 := by
  unfold calls
  split_ifs <;> rfl

theorem parsePm4Packet_launches (tr : GpfifoToLaunchParamsTranslator) (entry : GpuGpfifoEntry) :
    (tr.parsePm4Packet entry).launches.length = if tr.launchCb then entry.pm4Words else 0 := by
  unfold parsePm4Packet GpuGpfifoEntry.pm4Words
  by_cases h0 : entry.payload[0] = 0
  · simp only [if_pos h0, List.length_nil, ite_self]
  by_cases hs : kMaxSubchannels ≤ pm4Subchannel entry.payload[0].toUInt32
  · simp only [if_neg h0, if_pos hs, List.length_nil, ite_self]
  by_cases hd : pm4DataCount entry.payload[0].toUInt32 > 6
  · simp only [if_neg h0, if_neg hs, if_pos hd, List.length_nil, ite_self]
  · simp only [if_neg h0, if_neg hs, if_neg hd, calls_length, List.length_map, List.length_range]

/-- **Translation.**  The calls an entry causes are counted by `callbackCount` when the callback is
set, and there are none when it is not. -/
theorem translate_launches (tr : GpfifoToLaunchParamsTranslator) (entry : GpuGpfifoEntry) :
    (tr.translate entry).launches.length = if tr.launchCb then entry.callbackCount else 0 := by
  unfold translate GpuGpfifoEntry.callbackCount
  split_ifs with hvalid hnative haql hpm4
  · rfl
  · rfl
  · rw [translateUsrNative, calls_length, if_pos ‹_›, List.length_singleton]
  · rw [translateUsrNative, calls_length, if_neg ‹_›]
  · rw [parseAqlPacket, calls_length, if_pos ‹_›, List.length_singleton]
  · rw [parseAqlPacket, calls_length, if_neg ‹_›]
  · rw [parsePm4Packet_launches, if_pos ‹_›]
  · rw [parsePm4Packet_launches, if_neg ‹_›]
  · rfl
  · rfl

theorem parsePm4Packet_launchCb (tr : GpfifoToLaunchParamsTranslator) (entry : GpuGpfifoEntry) :
    (tr.parsePm4Packet entry).translator.launchCb = tr.launchCb := by
  unfold parsePm4Packet
  by_cases h0 : entry.payload[0] = 0
  · rw [if_pos h0]
  by_cases hs : kMaxSubchannels ≤ pm4Subchannel entry.payload[0].toUInt32
  · simp only [if_neg h0, if_pos hs]
  by_cases hd : pm4DataCount entry.payload[0].toUInt32 > 6
  · simp only [if_neg h0, if_neg hs, if_pos hd]
  · simp only [if_neg h0, if_neg hs, if_neg hd]

@[simp] theorem translate_launchCb (tr : GpfifoToLaunchParamsTranslator) (entry : GpuGpfifoEntry) :
    (tr.translate entry).translator.launchCb = tr.launchCb := by
  unfold translate
  split_ifs
  · rfl
  · rfl
  · rfl
  · exact parsePm4Packet_launchCb tr entry
  · rfl

end GpfifoToLaunchParamsTranslator

/-! ### The scheduler -/

inductive EngineType where
  | compute
  | copy
  | firmware
  deriving DecidableEq, Repr

structure WorkItem where
  entry : GpuGpfifoEntry
  engine : EngineType
  priority : Int
  originalPriority : Int
  channelId : Int
  sequenceId : UInt64
  deriving DecidableEq, Repr

/-- `CompareByPriority`: higher priority first, then the older item. -/
def WorkItem.before (a b : WorkItem) : Bool :=
  if a.priority ≠ b.priority then decide (b.priority < a.priority)
  else decide (a.sequenceId < b.sequenceId)

/-- `multiset::insert`: behind every item that does not come after the new one. -/
def insertItem (item : WorkItem) : List WorkItem → List WorkItem
  | [] => [item]
  | x :: xs => if item.before x then item :: x :: xs else x :: insertItem item xs

structure GlobalScheduler where
  translator : GpfifoToLaunchParamsTranslator
  queue : List WorkItem
  sequenceCounter : UInt64
  inheritedPriorities : Int → Option Int

namespace GlobalScheduler

/-- A scheduler with the launch callback and kernel names given and nothing queued. -/
def create (launchCb : Bool) (kernelNames : UInt32 → Option String) : GlobalScheduler where
  translator := ⟨launchCb, false, kernelNames, fun _ => 0⟩
  queue := []
  sequenceCounter := 0
  inheritedPriorities := fun _ => none

def selectEngine (entry : GpuGpfifoEntry) : EngineType :=
  if entry.method = gpuOpLaunchKernel ∨ entry.method = gpuOpLaunchCpuTask then .compute
  else if entry.method = gpuOpMemcpy ∨ entry.method = gpuOpMemset ∨ entry.method = gpuOpFence then
    .copy
  else .compute

/-- The callbacks of the translation, and the scheduler with the item queued. -/
def enqueueWithPriority (sch : GlobalScheduler) (entry : GpuGpfifoEntry) (engine : EngineType)
    (priority channelId : Int) : List LaunchParams × GlobalScheduler :=
  let r := sch.translator.translate entry
  let effective := match sch.inheritedPriorities channelId with
    | some p => if priority < p then p else priority
    | none => priority
  (r.launches, { sch with
    translator := r.translator
    queue := insertItem ⟨entry, engine, effective, priority, channelId, sch.sequenceCounter⟩
      sch.queue
    sequenceCounter := sch.sequenceCounter + 1 })

def enqueue (sch : GlobalScheduler) (entry : GpuGpfifoEntry) (engine : EngineType) :
    List LaunchParams × GlobalScheduler :=
  sch.enqueueWithPriority entry engine gpuChanPriNormal (-1)

def translateLaunch (sch : GlobalScheduler) (entry : GpuGpfifoEntry) :
    List LaunchParams × GlobalScheduler :=
  let r := sch.translator.translate entry
  (r.launches, { sch with translator := r.translator })

/-- A launch callback is registered. -/
def launchRegistered (sch : GlobalScheduler) : Bool := sch.translator.launchCb

theorem enqueue_launches (sch : GlobalScheduler) (entry : GpuGpfifoEntry) (engine : EngineType) :
    (sch.enqueue entry engine).1.length =
      if sch.launchRegistered then entry.callbackCount else 0 :=
  GpfifoToLaunchParamsTranslator.translate_launches sch.translator entry

theorem translateLaunch_launches (sch : GlobalScheduler) (entry : GpuGpfifoEntry) :
    (sch.translateLaunch entry).1.length =
      if sch.launchRegistered then entry.callbackCount else 0 :=
  GpfifoToLaunchParamsTranslator.translate_launches sch.translator entry

@[simp] theorem enqueue_launchRegistered (sch : GlobalScheduler) (entry : GpuGpfifoEntry)
    (engine : EngineType) : (sch.enqueue entry engine).2.launchRegistered = sch.launchRegistered :=
  GpfifoToLaunchParamsTranslator.translate_launchCb sch.translator entry

@[simp] theorem translateLaunch_launchRegistered (sch : GlobalScheduler)
    (entry : GpuGpfifoEntry) :
    (sch.translateLaunch entry).2.launchRegistered = sch.launchRegistered :=
  GpfifoToLaunchParamsTranslator.translate_launchCb sch.translator entry

end GlobalScheduler

end UsrLinuxEmu.GpuDriver
