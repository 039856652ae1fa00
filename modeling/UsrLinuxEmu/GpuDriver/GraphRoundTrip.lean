import UsrLinuxEmu.GpuDriver.Graph

/-!
# Kernel nodes through the launch translator (`sim/graph.cpp`, `gpfifo_translator.cpp`)

The graph module packs a node's dimensions into two payload words, and the translator unpacks both
words the same way.  Grid dimensions are packed for it, block dimensions are not; and the kernel index
is packed as an address, while the translator looks for an index.

* `testBit_packDims` / `testBit_unpackDim` — the bits of a packed word and of its fields;
* `grid_fields_iff` / `block_fields_iff` — the dimensions that come back;
* `kernel_node_round_trip_iff` — when the launch callback gets the node as it was created.
-/

namespace UsrLinuxEmu.GpuDriver

open GpfifoToLaunchParamsTranslator

/-! ### Bits of packed words -/

theorem testBit_of_lt {x w i : ℕ} (hx : x < 2 ^ w) (hi : w ≤ i) : x.testBit i = false :=
  Nat.testBit_lt_two_pow (hx.trans_le (Nat.pow_le_pow_right (by omega) hi))

/-- A bit of the packed word comes from one of the three dimensions. -/
theorem testBit_packDims {shiftY shiftZ : UInt64} (hY : shiftY.toNat ≤ 32)
    (hZ : shiftZ.toNat ≤ 32) (x y z : UInt32) (i : ℕ) (hi : i < 64) :
    (packDims shiftY shiftZ x y z).toNat.testBit i =
      (x.toNat.testBit i || (decide (shiftY.toNat ≤ i) && y.toNat.testBit (i - shiftY.toNat)) ||
        (decide (shiftZ.toNat ≤ i) && z.toNat.testBit (i - shiftZ.toNat))) := by
  have hshift : ∀ (v : UInt32) (s : UInt64), s.toNat ≤ 32 →
      (v.toUInt64 <<< s).toNat.testBit i =
        (decide (s.toNat ≤ i) && v.toNat.testBit (i - s.toNat)) := by
    intro v s hs
    have hmod : s.toNat % 64 = s.toNat := Nat.mod_eq_of_lt (by omega)
    rw [UInt64.toNat_shiftLeft, UInt32.toNat_toUInt64, hmod, Nat.testBit_mod_two_pow,
      Nat.testBit_shiftLeft, decide_eq_true hi, Bool.true_and]
  rw [packDims, UInt64.toNat_or, UInt64.toNat_or, Nat.testBit_or, Nat.testBit_or,
    hshift y shiftY hY, hshift z shiftZ hZ, UInt32.toNat_toUInt64]

/-- A masked field of a word. -/
theorem testBit_field (p mask : UInt64) {w : ℕ} (hw : w ≤ 32) (hmask : mask.toNat = 2 ^ w - 1)
    (i : ℕ) : (p &&& mask).toUInt32.toNat.testBit i =
      (decide (i < w) && p.toNat.testBit i) := by
  rw [UInt64.toNat_toUInt32, UInt64.toNat_and, hmask, Nat.testBit_mod_two_pow, Nat.testBit_and,
    Nat.testBit_two_pow_sub_one]
  by_cases hi : i < w
  · have hi' : i < 32 := by omega
    rw [decide_eq_true hi, decide_eq_true hi', Bool.true_and, Bool.true_and, Bool.and_true]
  · rw [decide_eq_false hi, Bool.and_false, Bool.and_false, Bool.false_and]

theorem testBit_unpackDimX (packed : UInt64) (i : ℕ) :
    (unpackDimX packed).toNat.testBit i = (decide (i < 16) && packed.toNat.testBit i) :=
  testBit_field packed 0xFFFF (by omega) rfl i

theorem testBit_unpackDimY (packed : UInt64) (i : ℕ) :
    (unpackDimY packed).toNat.testBit i = (decide (i < 8) && packed.toNat.testBit (16 + i)) := by
  have hfield := testBit_field (packed >>> 16) 0xFF (w := 8) (by omega) rfl i
  rwa [UInt64.toNat_shiftRight, Nat.testBit_shiftRight] at hfield

theorem testBit_unpackDimZ (packed : UInt64) (i : ℕ) :
    (unpackDimZ packed).toNat.testBit i = (decide (i < 8) && packed.toNat.testBit (24 + i)) := by
  have hfield := testBit_field (packed >>> 24) 0xFF (w := 8) (by omega) rfl i
  rwa [UInt64.toNat_shiftRight, Nat.testBit_shiftRight] at hfield

/-- A field has no bits from its width on. -/
theorem lt_of_testBit {x w : ℕ} {f : ℕ → Bool}
    (h : ∀ i, x.testBit i = (decide (i < w) && f i)) : x < 2 ^ w := by
  refine Nat.lt_pow_two_of_testBit x fun i hi => ?_
  rw [h, decide_eq_false (by omega), Bool.false_and]

theorem unpackDimX_lt (packed : UInt64) : (unpackDimX packed).toNat < 2 ^ 16 :=
  lt_of_testBit (testBit_unpackDimX packed)

theorem unpackDimY_lt (packed : UInt64) : (unpackDimY packed).toNat < 2 ^ 8 :=
  lt_of_testBit (testBit_unpackDimY packed)

theorem unpackDimZ_lt (packed : UInt64) : (unpackDimZ packed).toNat < 2 ^ 8 :=
  lt_of_testBit (testBit_unpackDimZ packed)

/-- A dimension that fits its field comes back when the bits of the field are its own. -/
theorem eq_of_testBit {x v : UInt32} {w : ℕ} {f : ℕ → Bool}
    (hx : ∀ i, x.toNat.testBit i = (decide (i < w) && f i)) (hv : v.toNat < 2 ^ w)
    (hf : ∀ i, i < w → f i = v.toNat.testBit i) : x = v := by
  refine UInt32.toNat_inj.mp (Nat.eq_of_testBit_eq fun i => ?_)
  rw [hx]
  by_cases hi : i < w
  · rw [decide_eq_true hi, Bool.true_and, hf i hi]
  · rw [decide_eq_false hi, Bool.false_and, testBit_of_lt hv (by omega)]

/-! ### What comes back -/

theorem grid_fields_iff (x y z : UInt32) :
    (unpackDimX (packGridDim x y z) = x ∧ unpackDimY (packGridDim x y z) = y ∧
      unpackDimZ (packGridDim x y z) = z) ↔
    x.toNat < 2 ^ 16 ∧ y.toNat < 2 ^ 8 ∧ z.toNat < 2 ^ 8 := by
  have hbits := @testBit_packDims 16 24 (by decide) (by decide) x y z
  have h16 : (16 : UInt64).toNat = 16 := rfl
  have h24 : (24 : UInt64).toNat = 24 := rfl
  rw [h16, h24] at hbits
  constructor
  · intro ⟨hX, hY, hZ⟩
    have hx := unpackDimX_lt (packGridDim x y z)
    have hy := unpackDimY_lt (packGridDim x y z)
    have hz := unpackDimZ_lt (packGridDim x y z)
    rw [hX] at hx
    rw [hY] at hy
    rw [hZ] at hz
    exact ⟨hx, hy, hz⟩
  · intro ⟨hx, hy, hz⟩
    refine ⟨eq_of_testBit (testBit_unpackDimX _) hx fun i hi => ?_,
      eq_of_testBit (testBit_unpackDimY _) hy fun i hi => ?_,
      eq_of_testBit (testBit_unpackDimZ _) hz fun i hi => ?_⟩
    · have hnotY : ¬16 ≤ i := by omega
      have hnotZ : ¬24 ≤ i := by omega
      rw [packGridDim, hbits i (by omega), decide_eq_false hnotY, decide_eq_false hnotZ]
      simp only [Bool.false_and, Bool.or_false]
    · have hnotZ : ¬24 ≤ 16 + i := by omega
      rw [packGridDim, hbits (16 + i) (by omega), testBit_of_lt hx (by omega),
        decide_eq_true (by omega), decide_eq_false hnotZ, Nat.add_sub_cancel_left]
      simp only [Bool.false_or, Bool.true_and, Bool.false_and, Bool.or_false]
    · rw [packGridDim, hbits (24 + i) (by omega), testBit_of_lt hx (by omega),
        testBit_of_lt (x := y.toNat) hy (by omega), decide_eq_true (p := 24 ≤ 24 + i) (by omega),
        Nat.add_sub_cancel_left]
      simp only [Bool.and_false, Bool.false_or, Bool.true_and]

/-- The second and third block dimensions overlap the first one's field, and only zeros survive. -/
theorem block_fields_iff (x y z : UInt32) :
    (unpackDimX (packBlockDim x y z) = x ∧ unpackDimY (packBlockDim x y z) = y ∧
      unpackDimZ (packBlockDim x y z) = z) ↔ x.toNat < 2 ^ 16 ∧ y = 0 ∧ z = 0 := by
  have hbits := @testBit_packDims 8 16 (by decide) (by decide) x y z
  have h8 : (8 : UInt64).toNat = 8 := rfl
  have h16 : (16 : UInt64).toNat = 16 := rfl
  rw [h8, h16] at hbits
  constructor
  · intro ⟨hX, hY, hZ⟩
    have hx := unpackDimX_lt (packBlockDim x y z)
    have hy := unpackDimY_lt (packBlockDim x y z)
    have hz := unpackDimZ_lt (packBlockDim x y z)
    rw [hX] at hx
    rw [hY] at hy
    rw [hZ] at hz
    -- the field read for `z` holds nothing but bits above the dimensions
    have hzero : z = 0 := by
      rw [← hZ]
      refine eq_of_testBit (testBit_unpackDimZ _) (by decide) fun i hi => ?_
      rw [packBlockDim, hbits (24 + i) (by omega), testBit_of_lt hx (by omega),
        testBit_of_lt (x := y.toNat) hy (by omega), testBit_of_lt (x := z.toNat) hz (by omega)]
      simp
    refine ⟨hx, ?_, hzero⟩
    rw [← hY]
    refine eq_of_testBit (testBit_unpackDimY _) (by decide) fun i hi => ?_
    rw [packBlockDim, hbits (16 + i) (by omega), testBit_of_lt hx (by omega),
      testBit_of_lt (x := y.toNat) hy (by omega), hzero]
    simp
  · intro ⟨hx, hy, hz⟩
    subst hy
    subst hz
    refine ⟨eq_of_testBit (testBit_unpackDimX _) hx fun i hi => ?_,
      eq_of_testBit (testBit_unpackDimY _) (by decide) fun i hi => ?_,
      eq_of_testBit (testBit_unpackDimZ _) (by decide) fun i hi => ?_⟩
    · rw [packBlockDim, hbits i (by omega)]
      simp
    · rw [packBlockDim, hbits (16 + i) (by omega), testBit_of_lt hx (by omega)]
      simp
    · rw [packBlockDim, hbits (24 + i) (by omega), testBit_of_lt hx (by omega)]
      simp

/-! ### The round trip -/

/-- Translating the entry makes one call, for the kernel registered under the node's index and with
the node's dimensions. -/
def LaunchesNode (tr : GpfifoToLaunchParamsTranslator) (entry : GpuGpfifoEntry)
    (node : KernelNodeMetadata) : Prop :=
  ∃ call, (tr.translate entry).launches = [call] ∧
    tr.kernelNames node.kernelIndex = some call.kernelName ∧
    (call.gridX = node.gridX ∧ call.gridY = node.gridY ∧ call.gridZ = node.gridZ) ∧
    (call.blockX = node.blockX ∧ call.blockY = node.blockY ∧ call.blockZ = node.blockZ)

theorem translate_kernelEntry {tr : GpfifoToLaunchParamsTranslator} (hcb : tr.launchCb = true)
    (node : KernelNodeMetadata) : (tr.translate (NodeMetadata.kernel node).entry).launches =
      [tr.kernelCall (NodeMetadata.kernel node).entry 0] := by
  show tr.calls _ = _
  rw [calls, if_pos hcb]

/-- **Kernel nodes.**  The entry of node `i` of a graph launches the node exactly when the address
made from its index, cut to 32 bits, is an index of the kernel registered, the grid dimensions fit
their fields, and the block has one dimension. -/
theorem kernel_node_round_trip_iff (tr : GpfifoToLaunchParamsTranslator) (nodes : List NodeMetadata)
    (i : ℕ) (node : KernelNodeMetadata) (hcb : tr.launchCb = true)
    (hnode : nodes[i]? = some (.kernel node)) :
    (∃ entry, (graphToGpfifo nodes)[i]? = some entry ∧ LaunchesNode tr entry node) ↔
      tr.kernelNames node.kernelIndex =
          some (tr.kernelName (resolveKernelVa node.kernelIndex).toUInt32) ∧
        (node.gridX.toNat < 2 ^ 16 ∧ node.gridY.toNat < 2 ^ 8 ∧ node.gridZ.toNat < 2 ^ 8) ∧
        (node.blockX.toNat < 2 ^ 16 ∧ node.blockY = 0 ∧ node.blockZ = 0) := by
  have hentry : (graphToGpfifo nodes)[i]? = some (NodeMetadata.kernel node).entry := by
    rw [graphToGpfifo, List.getElem?_map, hnode]
    rfl
  rw [← grid_fields_iff, ← block_fields_iff]
  constructor
  · intro h
    obtain ⟨entry, hsome, call, hcall, hfields⟩ := h
    rw [hentry] at hsome
    obtain rfl := Option.some.inj hsome
    rw [translate_kernelEntry hcb] at hcall
    obtain rfl := List.singleton_inj.mp hcall
    exact hfields
  · intro hfields
    exact ⟨_, hentry, _, translate_kernelEntry hcb node, hfields⟩

/-- The index `0x40000000` is the one that its own address is cut to. -/
theorem kernel_node_round_trip_fixed :
    ∃ entry, (graphToGpfifo [.kernel ⟨0x40000000, 4, 1, 1, 256, 0, 0, 1⟩])[0]? = some entry ∧
      LaunchesNode ⟨true, false, fun idx => if idx = 0x40000000 then some "saxpy" else none,
        fun _ => 0⟩ entry ⟨0x40000000, 4, 1, 1, 256, 0, 0, 1⟩ :=
  (kernel_node_round_trip_iff _ _ 0 _ rfl rfl).mpr (by decide)

/-- Kernel 0 with blocks of 256 threads is looked up at `0x40000000`, and its block dimensions come
back as 256, 1 and 0. -/
theorem kernel_node_round_trip_fails :
    ¬∃ entry, (graphToGpfifo [.kernel ⟨0, 4, 1, 1, 256, 1, 1, 1⟩])[0]? = some entry ∧
      LaunchesNode ⟨true, false, fun idx => if idx = 0 then some "saxpy" else none,
        fun _ => 0⟩ entry ⟨0, 4, 1, 1, 256, 1, 1, 1⟩ := by
  intro h
  obtain ⟨entry, hentry, call, hcall, hname, -⟩ := h
  obtain rfl := Option.some.inj hentry
  obtain rfl := List.singleton_inj.mp hcall
  exact absurd hname (by decide)

end UsrLinuxEmu.GpuDriver
