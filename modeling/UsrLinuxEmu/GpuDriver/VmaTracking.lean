import UsrLinuxEmu.GpuDriver.KfdVma

/-!
# When the VMAs are those of the mappings

A mapping of one page leaves one entry on either path, which its unmap removes.  Of a longer one
pages stay behind, of a shorter one too much is found.

* `VmaInv` — the entries are the pages of the mapped handles;
* `MapKeeps` — what the property says after a map request, and that it then was of one page;
* `vma_tracking` — the runs along which mappings are found and can be undone.
-/

namespace UsrLinuxEmu.GpuDriver

open UsrLinuxEmu.Kernel UsrLinuxEmu.Transition

/-! ### Registering the pages -/

namespace KfdSimState

variable {m : UsMmShim} {gpuVa : UInt64}

theorem registerFirst_zero (m : UsMmShim) (gpuVa : UInt64) : registerFirst m gpuVa 0 = m := rfl

theorem registerFirst_succ (m : UsMmShim) (gpuVa : UInt64) (n : ℕ) :
    registerFirst m gpuVa (n + 1) = (registerPage (registerFirst m gpuVa n) gpuVa n).2 := by
  unfold registerFirst
  rw [List.range_succ, List.foldl_append]
  rfl

def pageStart (gpuVa : UInt64) (p : ℕ) : UInt64 := gpuVa + UInt64.ofNat p * kfdPageSize

def pageStop (gpuVa : UInt64) (p : ℕ) : UInt64 := gpuVa + (UInt64.ofNat p + 1) * kfdPageSize

theorem wellFormed_registerFirst (h : m.WellFormed) (gpuVa : UInt64) (n : ℕ) :
    (registerFirst m gpuVa n).WellFormed := by
  induction n with
  | zero => exact h
  | succ n ih =>
    rw [registerFirst_succ]
    exact ih.registerVma _ _

/-- The entries after the loop: those from before, and pages that were not refused. -/
theorem hasVma_registerFirst (h : m.WellFormed) (gpuVa : UInt64) (n : ℕ) (start stop : UInt64) :
    (registerFirst m gpuVa n).HasVma start stop ↔
      m.HasVma start stop ∨ ∃ p < n, (registerPage (registerFirst m gpuVa p) gpuVa p).1 = 0 ∧
        start = pageStart gpuVa p ∧ stop = pageStop gpuVa p := by
  induction n with
  | zero => simp [registerFirst_zero]
  | succ n ih =>
    have hpage := UsMmShim.hasVma_registerVma (wellFormed_registerFirst h gpuVa n)
      (pageStart gpuVa n) (pageStop gpuVa n) start stop
    rw [registerFirst_succ, registerPage]
    refine hpage.trans ?_
    rw [ih]
    constructor
    · rintro ((hbefore | ⟨p, hp, hrest⟩) | hnew)
      · exact .inl hbefore
      · exact .inr ⟨p, Nat.lt_succ_of_lt hp, hrest⟩
      · exact .inr ⟨n, Nat.lt_succ_self n, hnew⟩
    · rintro (hbefore | ⟨p, hp, hrest⟩)
      · exact .inl (.inl hbefore)
      · rcases Nat.lt_succ_iff_lt_or_eq.mp hp with hlt | rfl
        · exact .inl (.inr ⟨p, hlt, hrest⟩)
        · exact .inr hrest

theorem page_toNat (gpuVa : UInt64) (p : ℕ) (h : gpuVa.toNat + (p + 1) * 4096 < 2 ^ 64) :
    (pageStart gpuVa p).toNat = gpuVa.toNat + p * 4096 ∧
      (pageStop gpuVa p).toNat = gpuVa.toNat + (p + 1) * 4096 := by
  have hp : p < 2 ^ 64 := by omega
  have hofNat : (UInt64.ofNat p).toNat = p := UInt64.toNat_ofNat_of_lt hp
  have hpage : kfdPageSize.toNat = 4096 := rfl
  have hone : (1 : UInt64).toNat = 1 := rfl
  constructor
  · simp only [pageStart, UInt64.toNat_add, UInt64.toNat_mul, hofNat, hpage]
    omega
  · simp only [pageStop, UInt64.toNat_add, UInt64.toNat_mul, hofNat, hpage, hone]
    omega

/-- A page that the loop reaches and finds room for is registered. -/
theorem hasVma_page (h : m.WellFormed) {n p : ℕ} (hp : p < n)
    (hspace : gpuVa.toNat + (p + 1) * 4096 < 2 ^ 64)
    (hroom : (registerPage (registerFirst m gpuVa p) gpuVa p).1 ≠ mmEnospc) :
    (registerFirst m gpuVa n).HasVma (pageStart gpuVa p) (pageStop gpuVa p) := by
  obtain ⟨hstart, hstop⟩ := page_toNat _ _ hspace
  have hlt : pageStart gpuVa p < pageStop gpuVa p := UInt64.lt_iff_toNat_lt.mpr (by omega)
  rw [hasVma_registerFirst h]
  have hpage := UsMmShim.registerVma_ok (wellFormed_registerFirst h gpuVa p) hlt hroom
  exact .inr ⟨p, hp, hpage, rfl, rfl⟩

theorem pagesOf_page : (pagesOf kfdPageSize).toNat = 1 := by decide

theorem pagesOf_toNat (size : UInt64) :
    (pagesOf size).toNat = max 1 ((size.toNat + 4095) % 2 ^ 64 / 4096) := by
  have hquot : ((size + kfdPageSize - 1) / kfdPageSize).toNat =
      (size.toNat + 4095) % 2 ^ 64 / 4096 := by
    have hpage : kfdPageSize.toNat = 4096 := rfl
    have hone : (1 : UInt64).toNat = 1 := rfl
    rw [UInt64.toNat_div, UInt64.toNat_sub, UInt64.toNat_add, hpage, hone]
    omega
  unfold pagesOf
  simp only
  split_ifs with hzero
  · rw [← hquot, hzero]
    rfl
  · have hpos : ((size + kfdPageSize - 1) / kfdPageSize).toNat ≠ 0 :=
      fun h => hzero (UInt64.toNat_inj.mp h)
    rw [← hquot]
    omega

end KfdSimState

/-! ### The invariant -/

/-- Every mapping is one page that does not wrap, every page has its entry, and there are no other
entries. -/
structure VmaInv (x : SizedKfd) : Prop where
  ready : KfdReady x.2
  distinct : ∀ handle handle' va, x.2.handleToGpuVa.lookup handle = some va →
    x.2.handleToGpuVa.lookup handle' = some va → handle = handle'
  page : ∀ handle va, x.2.handleToGpuVa.lookup handle = some va →
    x.1 handle = kfdPageSize ∧ va.toNat % 4096 = 0 ∧ va.toNat + 4096 < 2 ^ 64
  bound : x.2.mmShim.isSome = true
  wellFormed : ∀ m, x.2.mmShim = some m → m.WellFormed
  entries : ∀ m, x.2.mmShim = some m → ∀ start stop, m.HasVma start stop ↔
    ∃ handle, x.2.handleToGpuVa.lookup handle = some start ∧ stop = start + kfdPageSize

namespace VmaInv

variable {path : KfdPath} {dev : BoTable} {sizes : UInt32 → UInt64} {s : KfdSimState}

theorem start : VmaInv sizedStart where
  ready := { KfdReady.reset KfdSimState.initial with }
  distinct := fun _ _ _ h => by cases h
  page := fun _ _ h => by cases h
  bound := rfl
  wellFormed := fun m hm => by
    cases hm
    exact ⟨List.Pairwise.nil, fun v hv => by cases hv⟩
  entries := fun m hm a b => by
    cases hm
    constructor
    · rintro ⟨v, hv, -⟩
      cases hv
    · rintro ⟨handle, hmapped, -⟩
      cases hmapped

theorem pageStop_toNat {va : UInt64} (h : va.toNat + 4096 < 2 ^ 64) :
    (va + kfdPageSize).toNat = va.toNat + 4096 := by
  rw [UInt64.toNat_add, show kfdPageSize.toNat = 4096 from rfl]
  omega

theorem tracks (h : VmaInv (sizes, s)) : VmaTracks (sizes, s) := by
  intro m hm addr
  rw [UsMmShim.findVma_isOk]
  constructor
  · rintro ⟨a, b, hentry, hstart, hstop⟩
    obtain ⟨handle, hmapped, rfl⟩ := (h.entries m hm a b).mp hentry
    obtain ⟨hsize, -, hspace⟩ := h.page handle a hmapped
    refine ⟨handle, a, hmapped, UInt64.le_iff_toNat_le.mp hstart, ?_⟩
    rw [UInt64.lt_iff_toNat_lt, pageStop_toNat hspace] at hstop
    rw [hsize]
    exact hstop
  · rintro ⟨handle, va, hmapped, hstart, hstop⟩
    obtain ⟨hsize, -, hspace⟩ := h.page handle va hmapped
    refine ⟨va, va + kfdPageSize, (h.entries m hm _ _).mpr ⟨handle, hmapped, rfl⟩,
      UInt64.le_iff_toNat_le.mpr hstart, ?_⟩
    rw [UInt64.lt_iff_toNat_lt, pageStop_toNat hspace]
    rw [hsize] at hstop
    exact hstop

/-- Registering one page, and the same range again on the DRM path. -/
theorem hasVma_shimMapped {m : UsMmShim} (hm : m.WellFormed) {gpuVa : UInt64}
    (hspace : gpuVa.toNat + 4096 < 2 ^ 64)
    (hroom : (KfdSimState.registerPage m gpuVa 0).1 ≠ mmEnospc) (start stop : UInt64) :
    (shimMapped path m gpuVa kfdPageSize).HasVma start stop ↔
      m.HasVma start stop ∨ (start = gpuVa ∧ stop = gpuVa + kfdPageSize) := by
  have hzero : KfdSimState.pageStart gpuVa 0 = gpuVa := by
    simp [KfdSimState.pageStart]
  have hone : KfdSimState.pageStop gpuVa 0 = gpuVa + kfdPageSize := by
    simp [KfdSimState.pageStop]
  have hlt : gpuVa < gpuVa + kfdPageSize := by
    rw [UInt64.lt_iff_toNat_lt, pageStop_toNat hspace]
    omega
  have hpages : KfdSimState.registerPages m gpuVa kfdPageSize =
      (m.registerVma gpuVa (gpuVa + kfdPageSize) 0).2 := by
    rw [KfdSimState.registerPages, KfdSimState.pagesOf_page, KfdSimState.registerFirst_succ,
      KfdSimState.registerFirst_zero, ← hone]
    nth_rewrite 2 [← hzero]
    rfl
  have hcode : (m.registerVma gpuVa (gpuVa + kfdPageSize) 0).1 = 0 := by
    refine UsMmShim.registerVma_ok hm hlt ?_
    rw [← hone]
    nth_rewrite 1 [← hzero]
    exact hroom
  have hbridge (a b : UInt64) : (KfdSimState.registerPages m gpuVa kfdPageSize).HasVma a b ↔
      m.HasVma a b ∨ (a = gpuVa ∧ b = gpuVa + kfdPageSize) := by
    rw [hpages, UsMmShim.hasVma_registerVma hm, hcode]
    simp
  cases path with
  | gpgpu => exact hbridge start stop
  | drm =>
    have hwf : (KfdSimState.registerPages m gpuVa kfdPageSize).WellFormed := by
      rw [hpages]
      exact hm.registerVma _ _
    unfold shimMapped
    rw [UsMmShim.hasVma_registerVma hwf, hbridge]
    constructor
    · rintro (hbefore | ⟨-, hnew⟩)
      · exact hbefore
      · exact .inr hnew
    · exact .inl

theorem wellFormed_shimMapped {m : UsMmShim} (hm : m.WellFormed) (gpuVa size : UInt64) :
    (shimMapped path m gpuVa size).WellFormed := by
  have hpages : (KfdSimState.registerPages m gpuVa size).WellFormed :=
    KfdSimState.wellFormed_registerFirst hm gpuVa _
  cases path with
  | gpgpu => exact hpages
  | drm => exact hpages.registerVma _ _

theorem mapped (path : KfdPath) (h : VmaInv (sizes, s)) {a : GpuMapMemoryArgs}
    (hsize : a.size = kfdPageSize)
    (hhandle : s.handleToGpuVa.lookup a.handle = none)
    (hfresh : ∀ other, s.handleToGpuVa.lookup other ≠ some s.nextGpuVa)
    (hspace : s.nextGpuVa.toNat + 4096 < 2 ^ 64)
    (hroom : ∀ m, s.mmShim = some m → (KfdSimState.registerPage m s.nextGpuVa 0).1 ≠ mmEnospc) :
    VmaInv (Function.update sizes a.handle a.size, vmaMapped path s a) := by
  have hlookup := lookup_vmaMapped path s a
  exact {
    ready := ready_vmaMapped h.ready a
    distinct := by
      intro handle handle' va hm hm'
      rw [hlookup] at hm hm'
      split_ifs at hm hm' with hh hh' hh'
      · rw [hh, hh']
      · rw [← hm] at hm'
        exact absurd hm' (hfresh handle')
      · rw [← hm'] at hm
        exact absurd hm (hfresh handle)
      · exact h.distinct handle handle' va hm hm'
    page := by
      intro handle va hm
      rw [hlookup] at hm
      show Function.update sizes a.handle a.size handle = _ ∧ _
      split_ifs at hm with hh
      · obtain rfl := Option.some.inj hm
        rw [hh, Function.update_self]
        exact ⟨hsize, h.ready.aligned, hspace⟩
      · rw [Function.update_of_ne hh]
        exact h.page handle va hm
    bound := by
      show (s.mmShim.map _).isSome = true
      rw [Option.isSome_map]
      exact h.bound
    wellFormed := by
      intro m hm
      obtain ⟨before, hbefore, rfl⟩ := Option.map_eq_some_iff.mp hm
      exact wellFormed_shimMapped (h.wellFormed before hbefore) _ _
    entries := by
      intro m hm start stop
      obtain ⟨before, hbefore, rfl⟩ := Option.map_eq_some_iff.mp hm
      simp only [hlookup]
      rw [hsize, hasVma_shimMapped (h.wellFormed before hbefore) hspace (hroom before hbefore),
        h.entries before hbefore]
      constructor
      · rintro (⟨handle, hmapped, rfl⟩ | ⟨rfl, rfl⟩)
        · refine ⟨handle, ?_, rfl⟩
          rw [if_neg]
          · exact hmapped
          · rintro rfl
            rw [show s.handleToGpuVa.lookup a.handle = some start from hmapped] at hhandle
            cases hhandle
        · exact ⟨a.handle, if_pos rfl, rfl⟩
      · rintro ⟨handle, hmapped, rfl⟩
        split_ifs at hmapped with hh
        · exact .inr ⟨(Option.some.inj hmapped).symm, by rw [Option.some.inj hmapped]⟩
        · exact .inl ⟨handle, hmapped, rfl⟩ }

theorem wellFormed_shimUnmapped {m : UsMmShim} (hm : m.WellFormed) (h : UInt32)
    (gpuVa : Option UInt64) : (shimUnmapped path dev m h gpuVa).WellFormed := by
  have hbridge : (shimUnmapped .gpgpu dev m h gpuVa).WellFormed := by
    cases gpuVa with
    | none => exact hm
    | some gpuVa => exact hm.unregisterVma _ _
  cases path with
  | gpgpu => exact hbridge
  | drm =>
    show (unregisterBo dev (shimUnmapped .gpgpu dev m h gpuVa) h).WellFormed
    unfold unregisterBo
    cases dev.boMap h with
    | none => exact hbridge
    | some info => exact hbridge.unregisterVma _ _

/-- The entries after an unmap request are the pages of the other handles. -/
theorem hasVma_shimUnmapped (hI : VmaInv (sizes, s)) {m : UsMmShim} (hm : s.mmShim = some m)
    {h : UInt32} (hapart : BoApart path dev s h) (start stop : UInt64) :
    (shimUnmapped path dev m h (s.handleToGpuVa.lookup h)).HasVma start stop ↔
      ∃ handle, handle ≠ h ∧ s.handleToGpuVa.lookup handle = some start ∧
        stop = start + kfdPageSize := by
  have hwf := hI.wellFormed m hm
  have hentries : m.HasVma start stop ↔
      ∃ handle, s.handleToGpuVa.lookup handle = some start ∧ stop = start + kfdPageSize :=
    hI.entries m hm start stop
  have hbridge : (shimUnmapped .gpgpu dev m h (s.handleToGpuVa.lookup h)).HasVma start stop ↔
      ∃ handle, handle ≠ h ∧ s.handleToGpuVa.lookup handle = some start ∧
        stop = start + kfdPageSize := by
    cases hva : s.handleToGpuVa.lookup h with
    | none =>
      refine hentries.trans (exists_congr fun handle => ?_)
      constructor
      · rintro ⟨hmapped, hstop⟩
        refine ⟨?_, hmapped, hstop⟩
        rintro rfl
        rw [hva] at hmapped
        cases hmapped
      · exact fun hmapped => hmapped.2
    | some gpuVa =>
      have hremove : (shimUnmapped .gpgpu dev m h (some gpuVa)).HasVma start stop ↔
          m.HasVma start stop ∧ ¬(start = gpuVa ∧ stop = gpuVa + kfdPageSize) :=
        UsMmShim.hasVma_unregisterVma hwf gpuVa (gpuVa + kfdPageSize) start stop
      rw [hremove, hentries]
      constructor
      · rintro ⟨⟨handle, hmapped, rfl⟩, hother⟩
        refine ⟨handle, ?_, hmapped, rfl⟩
        rintro rfl
        rw [hva] at hmapped
        obtain rfl := Option.some.inj hmapped
        exact hother ⟨rfl, rfl⟩
      · rintro ⟨handle, hne, hmapped, rfl⟩
        refine ⟨⟨handle, hmapped, rfl⟩, ?_⟩
        rintro ⟨rfl, -⟩
        exact hne (hI.distinct handle h start hmapped hva)
  cases path with
  | gpgpu => exact hbridge
  | drm =>
    show (unregisterBo dev (shimUnmapped .gpgpu dev m h (s.handleToGpuVa.lookup h)) h).HasVma
      start stop ↔ _
    unfold unregisterBo
    cases hbo : dev.boMap h with
    | none => exact hbridge
    | some info =>
      have hwf' : (shimUnmapped .gpgpu dev m h (s.handleToGpuVa.lookup h)).WellFormed :=
        wellFormed_shimUnmapped hwf h _
      have hremove := UsMmShim.hasVma_unregisterVma hwf' info.gpuVa (info.gpuVa + info.size)
        start stop
      refine hremove.trans ?_
      rw [hbridge]
      constructor
      · exact fun hboth => hboth.1
      · rintro ⟨handle, hne, hmapped, rfl⟩
        refine ⟨⟨handle, hne, hmapped, rfl⟩, ?_⟩
        rintro ⟨rfl, hstop⟩
        have hsize : info.size = kfdPageSize := (UInt64.add_left_inj info.gpuVa).mp (by
          rw [UInt64.add_comm, ← hstop, UInt64.add_comm])
        exact hne (hapart rfl info hbo hsize handle hmapped)

theorem unmapped (hI : VmaInv (sizes, s)) {h : UInt32} (hapart : BoApart path dev s h) :
    VmaInv (sizes, vmaUnmapped path dev s h) := by
  have hlookup := lookup_vmaUnmapped path dev s h
  exact {
    ready := ready_vmaUnmapped hI.ready h
    distinct := by
      intro handle handle' va hm hm'
      rw [hlookup] at hm hm'
      split_ifs at hm hm'
      exact hI.distinct handle handle' va hm hm'
    page := by
      intro handle va hm
      rw [hlookup] at hm
      split_ifs at hm
      exact hI.page handle va hm
    bound := by
      show (s.mmShim.map _).isSome = true
      rw [Option.isSome_map]
      exact hI.bound
    wellFormed := by
      intro m hm
      obtain ⟨before, hbefore, rfl⟩ := Option.map_eq_some_iff.mp hm
      exact wellFormed_shimUnmapped (hI.wellFormed before hbefore) _ _
    entries := by
      intro m hm start stop
      obtain ⟨before, hbefore, rfl⟩ := Option.map_eq_some_iff.mp hm
      rw [hasVma_shimUnmapped hI hbefore hapart]
      simp only [hlookup]
      refine exists_congr fun handle => ?_
      by_cases hh : handle = h
      · simp [hh]
      · simp [hh] }

/-- The entries are determined by the mappings. -/
theorem vmaSet_eq {sizes' : UInt32 → UInt64} {s' : KfdSimState} (hI : VmaInv (sizes, s))
    (hI' : VmaInv (sizes', s'))
    (hsame : ∀ handle, s.handleToGpuVa.lookup handle = s'.handleToGpuVa.lookup handle) :
    vmaSet s = vmaSet s' := by
  obtain ⟨m, hm⟩ := Option.isSome_iff_exists.mp hI.bound
  obtain ⟨m', hm'⟩ := Option.isSome_iff_exists.mp hI'.bound
  have hmem (v : UsMmVma) : v ∈ m.vmas ↔ v ∈ m'.vmas := by
    rw [UsMmShim.mem_iff (hI.wellFormed m hm), UsMmShim.mem_iff (hI'.wellFormed m' hm'),
      hI.entries m hm, hI'.entries m' hm']
    simp only [hsame]
  ext v
  constructor
  · rintro ⟨w, hw, hv⟩
    obtain rfl := Option.some.inj (hm.symm.trans hw)
    exact ⟨m', hm', (hmem v).mp hv⟩
  · rintro ⟨w, hw, hv⟩
    obtain rfl := Option.some.inj (hm'.symm.trans hw)
    exact ⟨m, hm, (hmem v).mpr hv⟩

/-- What a map request that meets the condition needs, and the one that follows from it. -/
theorem step_map (hI : VmaInv (sizes, s)) (args : Option GpuMapMemoryArgs)
    (hG : VmaGuard path dev (sizes, s) (.map args))
    (hroom : VmaRoom path dev (sizes, s) (.map args)) :
    VmaInv (sizedStep path dev (sizes, s) (.map args)) ∧
      VmaUndoes path dev (sizes, s) (.map args) := by
  have hcall := mapCall path dev hI.ready args
  generalize hok : (mapMemory dev path s args).1.toBool = ok at hcall
  generalize hnext : (mapMemory dev path s args).2 = next at hcall
  cases hcall with
  | rejected =>
    constructor
    · have hstep : sizedStep path dev (sizes, s) (.map args) = (sizes, s) := by
        refine Prod.ext ?_ hnext
        cases args with
        | none => rfl
        | some a => exact if_neg (by rw [hok]; exact Bool.false_ne_true)
      rw [hstep]
      exact hI
    · cases args with
      | none => trivial
      | some a =>
        intro htrue
        rw [show (mapMemory dev path s (some a)).1.toBool = true from htrue] at hok
        cases hok
  | accepted a hargs hvalid =>
    obtain ⟨hsize, hhandle, hfresh, hspace, hapart⟩ := hG hok
    have hpage (m : UsMmShim) (hm : s.mmShim = some m) :
        (KfdSimState.registerPage m s.nextGpuVa 0).1 ≠ mmEnospc := by
      refine (hroom hok m hm).1 0 ?_
      rw [hsize, KfdSimState.pagesOf_page]
      exact Nat.one_pos
    have hmapped := hI.mapped path hsize hhandle hfresh hspace hpage
    constructor
    · have hstep : sizedStep path dev (sizes, s) (.map (some a)) =
          (Function.update sizes a.handle a.size, vmaMapped path s a) :=
        Prod.ext (if_pos hok) hnext
      rw [hstep]
      exact hmapped
    · intro _
      have hlookup := lookup_vmaMapped path s a
      have hafter : BoApart path dev (vmaMapped path s a) a.handle := by
        intro hpath info hinfo hinfoSize other hother
        rw [hlookup] at hother
        split_ifs at hother with hh
        · exact hh
        · exact hapart hpath info hinfo hinfoSize other hother
      have hpm : (vmaMapped path s a).pm.isSome = true := by
        show (s.pm.map _).isSome = true
        rw [Option.isSome_map]
        exact hargs.2.2.2
      show vmaSet (unmapMemory dev path (mapMemory dev path s (some a)).2 _).2 = vmaSet s
      rw [hnext, unmap_accepted (a := ⟨a.handle, a.nDevices⟩) hvalid hargs.2.1 hargs.2.2.1 hpm]
      refine vmaSet_eq (hmapped.unmapped hafter) hI fun handle => ?_
      rw [lookup_vmaUnmapped, hlookup]
      split_ifs with hh
      · rw [hh]
        exact hhandle.symm
      · rfl

theorem step_unmap (hI : VmaInv (sizes, s)) (args : Option GpuUnmapMemoryArgs)
    (hG : VmaGuard path dev (sizes, s) (.unmap args)) :
    VmaInv (sizedStep path dev (sizes, s) (.unmap args)) := by
  have hcall := unmapCall path dev s args
  generalize hok : (unmapMemory dev path s args).1.toBool = ok at hcall
  generalize hnext : (unmapMemory dev path s args).2 = next at hcall
  have hstep : sizedStep path dev (sizes, s) (.unmap args) = (sizes, next) := by
    refine Prod.ext ?_ hnext
    cases args <;> rfl
  rw [hstep]
  cases hcall with
  | rejected => exact hI
  | accepted a => exact hI.unmapped (hG hok)

theorem step {x : SizedKfd} (hI : VmaInv x) (r : VmaRequest) (hG : VmaGuard path dev x r)
    (hroom : VmaRoom path dev x r) :
    VmaInv (sizedStep path dev x r) ∧ VmaUndoes path dev x r := by
  cases r with
  | map args => exact step_map hI args hG hroom
  | unmap args => exact ⟨step_unmap hI args hG, trivial⟩

end VmaInv

/-! ### The condition is needed while the addresses go up -/

/-- The addresses have not come round: those of the mappings lie below the next one. -/
structure VmaBelow (s : KfdSimState) : Prop where
  base : 0x100000 ≤ s.nextGpuVa.toNat
  below : ∀ handle va, s.handleToGpuVa.lookup handle = some va → va.toNat < s.nextGpuVa.toNat

section Needed

open KfdSimState

variable {path : KfdPath} {dev : BoTable} {sizes : UInt32 → UInt64} {s : KfdSimState}
  {m : UsMmShim} {g size : UInt64}

/-- The entries after a map request come from before, from its pages, or from its range. -/
theorem hasVma_shimMapped_cases (hm : m.WellFormed) {start stop : UInt64}
    (h : (shimMapped path m g size).HasVma start stop) :
    m.HasVma start stop ∨
      (∃ p < (pagesOf size).toNat, start = pageStart g p ∧ stop = pageStop g p) ∨
      (start = g ∧ stop = g + size) := by
  have hpages (h : (registerPages m g size).HasVma start stop) :
      m.HasVma start stop ∨
        ∃ p < (pagesOf size).toNat, start = pageStart g p ∧ stop = pageStop g p := by
    rcases (hasVma_registerFirst hm g _ start stop).mp h with hbefore | ⟨p, hp, -, hpage⟩
    · exact .inl hbefore
    · exact .inr ⟨p, hp, hpage⟩
  cases path with
  | gpgpu => exact (hpages h).imp id .inl
  | drm =>
    have hwf : (registerPages m g size).WellFormed := wellFormed_registerFirst hm g _
    rcases (UsMmShim.hasVma_registerVma hwf g (g + size) start stop).mp h with hbefore | ⟨-, hnew⟩
    · exact (hpages hbefore).imp id .inl
    · exact .inr (.inr hnew)

theorem hasVma_shimMapped_of_pages (hm : m.WellFormed) {start stop : UInt64}
    (h : (registerPages m g size).HasVma start stop) :
    (shimMapped path m g size).HasVma start stop := by
  cases path with
  | gpgpu => exact h
  | drm =>
    have hwf : (registerPages m g size).WellFormed := wellFormed_registerFirst hm g _
    exact (UsMmShim.hasVma_registerVma hwf g (g + size) start stop).mpr (.inl h)

/-- An entry that is neither the first page nor the buffer object's range survives the unmap. -/
theorem hasVma_shimUnmapped_of_ne (path : KfdPath) (dev : BoTable) (hm : m.WellFormed)
    {handle : UInt32} {start stop : UInt64}
    (h : m.HasVma start stop) (hpage : ¬(start = g ∧ stop = g + kfdPageSize))
    (hbo : path = .drm → ∀ info, dev.boMap handle = some info →
      ¬(start = info.gpuVa ∧ stop = info.gpuVa + info.size)) :
    (shimUnmapped path dev m handle (some g)).HasVma start stop := by
  have hbridge : (m.unregisterVma g (g + kfdPageSize)).2.HasVma start stop :=
    (UsMmShim.hasVma_unregisterVma hm g _ start stop).mpr ⟨h, hpage⟩
  cases path with
  | gpgpu => exact hbridge
  | drm =>
    show (unregisterBo dev (m.unregisterVma g (g + kfdPageSize)).2 handle).HasVma start stop
    unfold unregisterBo
    cases hinfo : dev.boMap handle with
    | none => exact hbridge
    | some info =>
      exact (UsMmShim.hasVma_unregisterVma (hm.unregisterVma g _) _ _ start stop).mpr
        ⟨hbridge, hbo rfl info hinfo⟩

theorem hasVma_shimMapped_page (hm : m.WellFormed)
    (hroom : ∀ p < (pagesOf size).toNat,
      (registerPage (registerFirst m g p) g p).1 ≠ mmEnospc) {p : ℕ}
    (hp : p < (pagesOf size).toNat) (hend : g.toNat + (p + 1) * 4096 < 2 ^ 64) :
    (shimMapped path m g size).HasVma (pageStart g p) (pageStop g p) :=
  hasVma_shimMapped_of_pages hm (hasVma_page hm hp hend (hroom p hp))

/-- What the property says after a map request, for a bridge whose addresses go up. -/
structure MapKeeps (path : KfdPath) (dev : BoTable) (sizes : UInt32 → UInt64) (s : KfdSimState)
    (a : GpuMapMemoryArgs) (m : UsMmShim) : Prop where
  tracked : s.mmShim = some m
  room : ∀ p < (pagesOf a.size).toNat,
    (registerPage (registerFirst m s.nextGpuVa p) s.nextGpuVa p).1 ≠ mmEnospc
  roomDrm : path = .drm → ((registerPages m s.nextGpuVa a.size).registerVma s.nextGpuVa
    (s.nextGpuVa + a.size) 0).1 ≠ mmEnospc
  tracks : VmaTracks (Function.update sizes a.handle a.size, vmaMapped path s a)
  undoes : ∀ start stop, (shimUnmapped path dev (shimMapped path m s.nextGpuVa a.size) a.handle
    (some s.nextGpuVa)).HasVma start stop ↔ m.HasVma start stop

namespace MapKeeps

variable {a : GpuMapMemoryArgs}

/-- The mappings after the request. -/
theorem inMapping_iff (addr : UInt64) :
    InMapping (Function.update sizes a.handle a.size, vmaMapped path s a) addr ↔
      (s.nextGpuVa.toNat ≤ addr.toNat ∧ addr.toNat < s.nextGpuVa.toNat + a.size.toNat) ∨
        ∃ handle va, handle ≠ a.handle ∧ s.handleToGpuVa.lookup handle = some va ∧
          va.toNat ≤ addr.toNat ∧ addr.toNat < va.toNat + (sizes handle).toNat := by
  have hlookup (handle : UInt32) : (vmaMapped path s a).handleToGpuVa.lookup handle =
      if handle = a.handle then some s.nextGpuVa else s.handleToGpuVa.lookup handle :=
    lookup_insert_eq s.handleToGpuVa handle s.nextGpuVa
  unfold InMapping
  simp only [hlookup]
  constructor
  · rintro ⟨handle, va, hmapped, hstart, hstop⟩
    split_ifs at hmapped with hh
    · obtain rfl := Option.some.inj hmapped
      rw [hh, Function.update_self] at hstop
      exact .inl ⟨hstart, hstop⟩
    · rw [Function.update_of_ne hh] at hstop
      exact .inr ⟨handle, va, hh, hmapped, hstart, hstop⟩
  · rintro (⟨hstart, hstop⟩ | ⟨handle, va, hh, hmapped, hstart, hstop⟩)
    · refine ⟨a.handle, s.nextGpuVa, if_pos rfl, hstart, ?_⟩
      rw [Function.update_self]
      exact hstop
    · refine ⟨handle, va, (if_neg hh).trans hmapped, hstart, ?_⟩
      rw [Function.update_of_ne hh]
      exact hstop

theorem found_iff (h : MapKeeps path dev sizes s a m) (addr : UInt64) :
    (∃ start stop, (shimMapped path m s.nextGpuVa a.size).HasVma start stop ∧ start ≤ addr ∧
        addr < stop) ↔
      InMapping (Function.update sizes a.handle a.size, vmaMapped path s a) addr := by
  have hshim : (vmaMapped path s a).mmShim = some (shimMapped path m s.nextGpuVa a.size) := by
    show s.mmShim.map _ = _
    rw [h.tracked]
    rfl
  rw [← UsMmShim.findVma_isOk]
  exact h.tracks _ hshim addr

/-- A mapping of the handle from before would be found, and lie in no mapping. -/
theorem unmapped (h : MapKeeps path dev sizes s a m) (hI : VmaInv (sizes, s)) (hbelow : VmaBelow s) :
    s.handleToGpuVa.lookup a.handle = none := by
  by_contra hmapped
  obtain ⟨va, hva⟩ := Option.ne_none_iff_exists'.mp hmapped
  have hwf := hI.wellFormed m h.tracked
  have hentry : m.HasVma va (va + kfdPageSize) :=
    (hI.entries m h.tracked _ _).mpr ⟨a.handle, hva, rfl⟩
  obtain ⟨-, haligned, hspace⟩ := hI.page a.handle va hva
  have hlt : va < va + kfdPageSize := by
    rw [UInt64.lt_iff_toNat_lt, VmaInv.pageStop_toNat hspace]
    omega
  have hafter : (shimMapped path m s.nextGpuVa a.size).HasVma va (va + kfdPageSize) :=
    hasVma_shimMapped_of_pages hwf ((hasVma_registerFirst hwf _ _ _ _).mpr (.inl hentry))
  have hin := (h.found_iff va).mp ⟨va, _, hafter, UInt64.le_refl va, hlt⟩
  rcases (inMapping_iff va).mp hin with ⟨hstart, -⟩ | ⟨handle, va', hne, hva', hstart, hstop⟩
  · exact absurd (hbelow.below a.handle va hva) (Nat.not_lt.mpr hstart)
  · obtain ⟨hsize, haligned', -⟩ := hI.page handle va' hva'
    replace hsize : sizes handle = kfdPageSize := hsize
    rw [hsize, show kfdPageSize.toNat = 4096 from rfl] at hstop
    have heq : va' = va := UInt64.toNat_inj.mp (by omega)
    rw [heq] at hva'
    exact hne (hI.distinct handle a.handle va hva' hva)

/-- No entry that survives the unmap starts at the new address or above. -/
theorem survivor_below (h : MapKeeps path dev sizes s a m) (hI : VmaInv (sizes, s))
    (hbelow : VmaBelow s) {start stop : UInt64}
    (hentry : (shimMapped path m s.nextGpuVa a.size).HasVma start stop)
    (hpage : ¬(start = s.nextGpuVa ∧ stop = s.nextGpuVa + kfdPageSize))
    (hbo : path = .drm → ∀ info, dev.boMap a.handle = some info →
      ¬(start = info.gpuVa ∧ stop = info.gpuVa + info.size)) :
    start.toNat < s.nextGpuVa.toNat := by
  have hwf : (shimMapped path m s.nextGpuVa a.size).WellFormed :=
    VmaInv.wellFormed_shimMapped (hI.wellFormed m h.tracked) _ _
  have hsurvives := hasVma_shimUnmapped_of_ne path dev hwf hentry hpage hbo
  obtain ⟨handle, hva, -⟩ :=
    (hI.entries m h.tracked start stop).mp ((h.undoes start stop).mp hsurvives)
  exact hbelow.below handle start hva

/-- The other mappings end at the new address, or below. -/
theorem in_new (hI : VmaInv (sizes, s)) (hbelow : VmaBelow s) {addr : UInt64}
    (hge : s.nextGpuVa.toNat ≤ addr.toNat)
    (hin : InMapping (Function.update sizes a.handle a.size, vmaMapped path s a) addr) :
    addr.toNat < s.nextGpuVa.toNat + a.size.toNat := by
  rcases (inMapping_iff addr).mp hin with ⟨-, hstop⟩ | ⟨handle, va, -, hva, -, hstop⟩
  · exact hstop
  · obtain ⟨hsize, haligned, -⟩ := hI.page handle va hva
    replace hsize : sizes handle = kfdPageSize := hsize
    rw [hsize, show kfdPageSize.toNat = 4096 from rfl] at hstop
    have hlt := hbelow.below handle va hva
    have hnext := hI.ready.aligned
    replace hnext : s.nextGpuVa.toNat % 4096 = 0 := hnext
    omega

theorem page_zero (h : MapKeeps path dev sizes s a m) (hI : VmaInv (sizes, s))
    (hspace : s.nextGpuVa.toNat + 16384 < 2 ^ 63) {p : ℕ} (hp : p < (pagesOf a.size).toNat)
    (hthree : p < 3) : (shimMapped path m s.nextGpuVa a.size).HasVma
      (pageStart s.nextGpuVa p) (pageStop s.nextGpuVa p) :=
  hasVma_shimMapped_page (hI.wellFormed m h.tracked) h.room hp (by omega)

/-- A part of a page: the rest of the page is found. -/
theorem size_ge (h : MapKeeps path dev sizes s a m) (hI : VmaInv (sizes, s)) (hbelow : VmaBelow s)
    (hspace : s.nextGpuVa.toNat + 16384 < 2 ^ 63) : 4096 ≤ a.size.toNat := by
  by_contra hsmall
  have hpages := pagesOf_toNat a.size
  have hentry := h.page_zero hI hspace (p := 0) (by omega) (by decide)
  obtain ⟨hstart, hstop⟩ := page_toNat s.nextGpuVa 0 (by omega)
  have haddr : (s.nextGpuVa + a.size).toNat = s.nextGpuVa.toNat + a.size.toNat := by
    rw [UInt64.toNat_add]
    omega
  have hin := (h.found_iff (s.nextGpuVa + a.size)).mp
    ⟨_, _, hentry, UInt64.le_iff_toNat_le.mpr (by omega), UInt64.lt_iff_toNat_lt.mpr (by omega)⟩
  have hlt := in_new hI hbelow (by omega) hin
  omega

/-- A size whose pages are counted to one though it is larger: its second page is not found. -/
theorem size_lt (h : MapKeeps path dev sizes s a m) (hI : VmaInv (sizes, s)) (hbelow : VmaBelow s)
    (hspace : s.nextGpuVa.toNat + 16384 < 2 ^ 63) : a.size.toNat + 4095 < 2 ^ 64 := by
  by_contra hlarge
  have hsmall : a.size.toNat < 2 ^ 64 := a.size.toNat_lt
  have hpages := pagesOf_toNat a.size
  have haddr : (s.nextGpuVa + kfdPageSize).toNat = s.nextGpuVa.toNat + 4096 :=
    VmaInv.pageStop_toNat (by omega)
  have hin : InMapping (Function.update sizes a.handle a.size, vmaMapped path s a)
      (s.nextGpuVa + kfdPageSize) := (inMapping_iff _).mpr (.inl ⟨by omega, by omega⟩)
  obtain ⟨start, stop, hentry, hstart, hstop⟩ := (h.found_iff _).mpr hin
  rw [UInt64.le_iff_toNat_le] at hstart
  rw [UInt64.lt_iff_toNat_lt] at hstop
  rcases hasVma_shimMapped_cases (hI.wellFormed m h.tracked) hentry with
    hbefore | ⟨p, hp, hpstart, hpstop⟩ | ⟨hnew, hstop'⟩
  · obtain ⟨handle, hva, hend⟩ := (hI.entries m h.tracked start stop).mp hbefore
    obtain ⟨-, haligned, hfits⟩ := hI.page handle start hva
    have hlt := hbelow.below handle start hva
    replace hlt : start.toNat < s.nextGpuVa.toNat := hlt
    rw [hend, VmaInv.pageStop_toNat hfits] at hstop
    omega
  · have hzero : p = 0 := by omega
    obtain ⟨-, hpage⟩ := page_toNat s.nextGpuVa 0 (by omega)
    rw [hpstop, hzero, hpage] at hstop
    omega
  · have hend : (s.nextGpuVa + a.size).toNat = (s.nextGpuVa.toNat + a.size.toNat) % 2 ^ 64 :=
      UInt64.toNat_add _ _
    have hbase := hbelow.base
    rw [hstop', hend] at hstop
    omega

/-- A page after the first survives the unmap, unless it is the buffer object's range. -/
theorem page_taken (h : MapKeeps path dev sizes s a m) (hI : VmaInv (sizes, s))
    (hbelow : VmaBelow s) (hspace : s.nextGpuVa.toNat + 16384 < 2 ^ 63) {p : ℕ}
    (hp : p < (pagesOf a.size).toNat) (hone : 1 ≤ p) (hthree : p < 3) :
    ¬(path = .drm → ∀ info, dev.boMap a.handle = some info →
      ¬(pageStart s.nextGpuVa p = info.gpuVa ∧
        pageStop s.nextGpuVa p = info.gpuVa + info.size)) := by
  intro hbo
  obtain ⟨hstart, -⟩ := page_toNat s.nextGpuVa p (by omega)
  have hfirst : ¬(pageStart s.nextGpuVa p = s.nextGpuVa ∧
      pageStop s.nextGpuVa p = s.nextGpuVa + kfdPageSize) := by
    rintro ⟨heq, -⟩
    rw [heq] at hstart
    omega
  have hlt := h.survivor_below hI hbelow (h.page_zero hI hspace hp hthree) hfirst hbo
  omega

/-- Of several pages, one survives the unmap. -/
theorem size_le (h : MapKeeps path dev sizes s a m) (hI : VmaInv (sizes, s)) (hbelow : VmaBelow s)
    (hspace : s.nextGpuVa.toNat + 16384 < 2 ^ 63) : a.size.toNat ≤ 4096 := by
  by_contra hlarge
  have hfits := h.size_lt hI hbelow hspace
  have hpages := pagesOf_toNat a.size
  obtain ⟨hstart, hstop⟩ := page_toNat s.nextGpuVa 1 (by omega)
  have hbo := h.page_taken hI hbelow hspace (p := 1) (by omega) (by decide) (by decide)
  -- the buffer object's range is the second page: the whole range, or the third page, survives
  push Not at hbo
  obtain ⟨hdrm, info, hinfo, hinfoStart, hinfoStop⟩ := hbo
  have hother {start stop : UInt64} (hne : start ≠ pageStart s.nextGpuVa 1) :
      path = .drm → ∀ info, dev.boMap a.handle = some info →
        ¬(start = info.gpuVa ∧ stop = info.gpuVa + info.size) := by
    rintro - info' hinfo' ⟨heq, -⟩
    obtain rfl := Option.some.inj (hinfo.symm.trans hinfo')
    exact hne (heq.trans hinfoStart.symm)
  by_cases hwrap : s.nextGpuVa.toNat + a.size.toNat < 2 ^ 64
  · have hend : (s.nextGpuVa + a.size).toNat = s.nextGpuVa.toNat + a.size.toNat := by
      rw [UInt64.toNat_add]
      omega
    have hwf : (registerPages m s.nextGpuVa a.size).WellFormed :=
      wellFormed_registerFirst (hI.wellFormed m h.tracked) _ _
    have hlt : s.nextGpuVa < s.nextGpuVa + a.size := UInt64.lt_iff_toNat_lt.mpr (by omega)
    have hwhole : (shimMapped path m s.nextGpuVa a.size).HasVma s.nextGpuVa
        (s.nextGpuVa + a.size) := by
      subst hdrm
      exact (UsMmShim.hasVma_registerVma hwf _ _ _ _).mpr
        (.inr ⟨UsMmShim.registerVma_ok hwf hlt (h.roomDrm rfl), rfl, rfl⟩)
    have hpage : ¬(s.nextGpuVa = s.nextGpuVa ∧
        s.nextGpuVa + a.size = s.nextGpuVa + kfdPageSize) := by
      rintro ⟨-, heq⟩
      have hpageEnd : (s.nextGpuVa + kfdPageSize).toNat = s.nextGpuVa.toNat + 4096 :=
        VmaInv.pageStop_toNat (by omega)
      rw [← heq, hend] at hpageEnd
      omega
    have hne : s.nextGpuVa ≠ pageStart s.nextGpuVa 1 := by
      intro heq
      rw [← heq] at hstart
      omega
    exact absurd (h.survivor_below hI hbelow hwhole hpage (hother hne)) (Nat.lt_irrefl _)
  · obtain ⟨hstart', -⟩ := page_toNat s.nextGpuVa 2 (by omega)
    have hne : pageStart s.nextGpuVa 2 ≠ pageStart s.nextGpuVa 1 := by
      intro heq
      rw [heq] at hstart'
      omega
    exact h.page_taken hI hbelow hspace (p := 2) (by omega) (by decide) (by decide) (hother hne)

theorem size_eq (h : MapKeeps path dev sizes s a m) (hI : VmaInv (sizes, s)) (hbelow : VmaBelow s)
    (hspace : s.nextGpuVa.toNat + 16384 < 2 ^ 63) : a.size = kfdPageSize :=
  UInt64.toNat_inj.mp
    (Nat.le_antisymm (h.size_le hI hbelow hspace) (h.size_ge hI hbelow hspace))

/-- The unmap of the new mapping would take the entry of another. -/
theorem boApart (h : MapKeeps path dev sizes s a m) (hI : VmaInv (sizes, s)) :
    BoApart path dev s a.handle := by
  intro hdrm info hinfo hsize other hother
  subst hdrm
  by_contra hne
  have hwf : (shimMapped .drm m s.nextGpuVa a.size).WellFormed :=
    VmaInv.wellFormed_shimMapped (hI.wellFormed m h.tracked) _ _
  have hentry : m.HasVma info.gpuVa (info.gpuVa + kfdPageSize) :=
    (hI.entries m h.tracked _ _).mpr ⟨other, hother, rfl⟩
  have hafter := (h.undoes _ _).mpr hentry
  have hremoved : (shimUnmapped .drm dev (shimMapped .drm m s.nextGpuVa a.size) a.handle
      (some s.nextGpuVa)) = (((shimMapped .drm m s.nextGpuVa a.size).unregisterVma s.nextGpuVa
        (s.nextGpuVa + kfdPageSize)).2.unregisterVma info.gpuVa (info.gpuVa + info.size)).2 := by
    show unregisterBo dev _ a.handle = _
    rw [unregisterBo, hinfo]
  rw [hremoved, UsMmShim.hasVma_unregisterVma (hwf.unregisterVma _ _), hsize] at hafter
  exact hafter.2 ⟨rfl, rfl⟩

end MapKeeps

/-- Undoing the request restores the entries. -/
theorem hasVma_of_vmaSet {a : GpuMapMemoryArgs} (hm : s.mmShim = some m)
    (hsame : vmaSet (vmaUnmapped path dev (vmaMapped path s a) a.handle) = vmaSet s)
    (start stop : UInt64) :
    (shimUnmapped path dev (shimMapped path m s.nextGpuVa a.size) a.handle
      (some s.nextGpuVa)).HasVma start stop ↔ m.HasVma start stop := by
  have hva : (vmaMapped path s a).handleToGpuVa.lookup a.handle = some s.nextGpuVa :=
    AList.lookup_insert s.handleToGpuVa
  have hunmap : (vmaUnmapped path dev (vmaMapped path s a) a.handle).mmShim =
      some (shimUnmapped path dev (shimMapped path m s.nextGpuVa a.size) a.handle
        (some s.nextGpuVa)) := by
    show ((s.mmShim.map _).map _) = _
    rw [hm, hva]
    rfl
  refine exists_congr fun v => and_congr_left fun _ => ?_
  have hv : v ∈ vmaSet (vmaUnmapped path dev (vmaMapped path s a) a.handle) ↔ v ∈ vmaSet s := by
    rw [hsame]
  have hleft : v ∈ vmaSet (vmaUnmapped path dev (vmaMapped path s a) a.handle) ↔
      v ∈ (shimUnmapped path dev (shimMapped path m s.nextGpuVa a.size) a.handle
        (some s.nextGpuVa)).vmas := by
    simp only [vmaSet, Set.mem_ofPred_eq, hunmap, Option.some.injEq, exists_eq_left']
  have hright : v ∈ vmaSet s ↔ v ∈ m.vmas := by
    simp only [vmaSet, Set.mem_ofPred_eq, hm, Option.some.injEq, exists_eq_left']
  rw [← hleft, hv, hright]

/-- A map request after which the property holds met the condition. -/
theorem guard_map (hI : VmaInv (sizes, s)) (hbelow : VmaBelow s)
    (hspace : s.nextGpuVa.toNat + 16384 < 2 ^ 63) (args : Option GpuMapMemoryArgs)
    (hroom : VmaRoom path dev (sizes, s) (.map args))
    (htracks : VmaTracks (sizedStep path dev (sizes, s) (.map args)))
    (hundoes : VmaUndoes path dev (sizes, s) (.map args)) :
    VmaGuard path dev (sizes, s) (.map args) := by
  have hcall := mapCall path dev hI.ready args
  cases args with
  | none => trivial
  | some a =>
    intro hok
    replace hok : (mapMemory dev path s (some a)).1.toBool = true := hok
    generalize hnext : (mapMemory dev path s (some a)).2 = next at hcall
    rw [hok] at hcall
    cases hcall with
    | accepted a hargs hvalid =>
      obtain ⟨m, hm⟩ := Option.isSome_iff_exists.mp hI.bound
      replace hm : s.mmShim = some m := hm
      have hstep : sizedStep path dev (sizes, s) (.map (some a)) =
          (Function.update sizes a.handle a.size, vmaMapped path s a) :=
        Prod.ext (if_pos hok) hnext
      have hpm : (vmaMapped path s a).pm.isSome = true := by
        show (s.pm.map _).isSome = true
        rw [Option.isSome_map]
        exact hargs.2.2.2
      have hsame := hundoes hok
      replace hsame : vmaSet (unmapMemory dev path (mapMemory dev path s (some a)).2
          (some ⟨a.handle, a.nDevices⟩)).2 = vmaSet s := hsame
      rw [hnext, unmap_accepted (a := ⟨a.handle, a.nDevices⟩) hvalid hargs.2.1 hargs.2.2.1 hpm]
        at hsame
      rw [hstep] at htracks
      have hkeeps : MapKeeps path dev sizes s a m :=
        ⟨hm, (hroom hok m hm).1, (hroom hok m hm).2, htracks, hasVma_of_vmaSet hm hsame⟩
      refine ⟨hkeeps.size_eq hI hbelow hspace, hkeeps.unmapped hI hbelow, ?_, ?_,
        hkeeps.boApart hI⟩
      · intro other hother
        exact absurd (hbelow.below other _ hother) (Nat.lt_irrefl _)
      · show s.nextGpuVa.toNat + 4096 < 2 ^ 64
        omega

/-- An unmap request after which every mapping is found took no other mapping's entry. -/
theorem guard_unmap (hI : VmaInv (sizes, s)) (args : Option GpuUnmapMemoryArgs)
    (htracks : VmaTracks (sizedStep path dev (sizes, s) (.unmap args))) :
    VmaGuard path dev (sizes, s) (.unmap args) := by
  have hcall := unmapCall path dev s args
  cases args with
  | none => trivial
  | some a =>
    intro hok hdrm info hinfo hsize other hother
    subst hdrm
    replace hok : (unmapMemory dev .drm s (some a)).1.toBool = true := hok
    replace hother : s.handleToGpuVa.lookup other = some info.gpuVa := hother
    generalize hnext : (unmapMemory dev .drm s (some a)).2 = next at hcall
    rw [hok] at hcall
    cases hcall with
    | accepted a =>
      by_contra hne
      obtain ⟨m, hm⟩ := Option.isSome_iff_exists.mp hI.bound
      replace hm : s.mmShim = some m := hm
      obtain ⟨hpage, haligned, hfits⟩ := hI.page other info.gpuVa hother
      replace hpage : sizes other = kfdPageSize := hpage
      have hwf : (shimUnmapped .gpgpu dev m a.handle
          (s.handleToGpuVa.lookup a.handle)).WellFormed :=
        VmaInv.wellFormed_shimUnmapped (hI.wellFormed m hm) _ _
      have hshim : (sizedStep .drm dev (sizes, s) (.unmap (some a))).2.mmShim =
          some ((shimUnmapped .gpgpu dev m a.handle (s.handleToGpuVa.lookup a.handle)).unregisterVma
            info.gpuVa (info.gpuVa + info.size)).2 := by
        show (unmapMemory dev .drm s (some a)).2.mmShim = _
        rw [hnext]
        show s.mmShim.map _ = _
        rw [hm]
        show some (unregisterBo dev (shimUnmapped .gpgpu dev m a.handle _) a.handle) = _
        rw [unregisterBo, hinfo]
      have hin : InMapping (sizedStep .drm dev (sizes, s) (.unmap (some a))) info.gpuVa := by
        refine ⟨other, info.gpuVa, ?_, le_rfl, ?_⟩
        · show (unmapMemory dev .drm s (some a)).2.handleToGpuVa.lookup other = _
          rw [hnext, lookup_vmaUnmapped, if_neg hne]
          exact hother
        · show _ < _ + (sizes other).toNat
          rw [hpage]
          exact Nat.lt_add_of_pos_right (by decide)
      obtain ⟨start, stop, hentry, hstart, hstop⟩ :=
        (UsMmShim.findVma_isOk _ _).mp ((htracks _ hshim info.gpuVa).mpr hin)
      rw [UsMmShim.hasVma_unregisterVma hwf] at hentry
      obtain ⟨hbefore, hnot⟩ := hentry
      have hapart : BoApart .gpgpu dev s a.handle := fun hpath => by cases hpath
      obtain ⟨handle, -, hva, rfl⟩ :=
        (VmaInv.hasVma_shimUnmapped hI hm hapart start stop).mp hbefore
      obtain ⟨-, haligned', hfits'⟩ := hI.page handle start hva
      rw [UInt64.le_iff_toNat_le] at hstart
      rw [UInt64.lt_iff_toNat_lt, VmaInv.pageStop_toNat hfits'] at hstop
      have heq : start = info.gpuVa := UInt64.toNat_inj.mp (by omega)
      rw [heq, hsize] at hnot
      exact hnot ⟨rfl, rfl⟩

/-- The addresses go up by one page at most with each request. -/
theorem below_step (path : KfdPath) (dev : BoTable) (hI : VmaInv (sizes, s)) (hbelow : VmaBelow s)
    (hspace : s.nextGpuVa.toNat + 4096 < 2 ^ 64) (r : VmaRequest) :
    VmaBelow (vmaStep path dev s r) ∧
      (vmaStep path dev s r).nextGpuVa.toNat ≤ s.nextGpuVa.toNat + 4096 := by
  cases r with
  | map args =>
    have hcall := mapCall path dev hI.ready args
    show VmaBelow (mapMemory dev path s args).2 ∧ _ ≤ _
    rw [vmaStep]
    generalize (mapMemory dev path s args).1.toBool = ok at hcall
    generalize (mapMemory dev path s args).2 = next at hcall ⊢
    cases hcall with
    | rejected => exact ⟨hbelow, Nat.le_add_right _ _⟩
    | accepted a hargs hvalid =>
      have hnext : (vmaMapped path s a).nextGpuVa.toNat = s.nextGpuVa.toNat + 4096 :=
        VmaInv.pageStop_toNat hspace
      refine ⟨⟨?_, fun handle va hva => ?_⟩, hnext.le⟩
      · have hbase := hbelow.base
        show 0x100000 ≤ (vmaMapped path s a).nextGpuVa.toNat
        omega
      replace hva : (s.handleToGpuVa.insert a.handle s.nextGpuVa).lookup handle = some va := hva
      rw [lookup_insert_eq] at hva
      rw [hnext]
      split_ifs at hva with hh
      · obtain rfl := Option.some.inj hva
        omega
      · have hlt := hbelow.below handle va hva
        omega
  | unmap args =>
    have hcall := unmapCall path dev s args
    show VmaBelow (unmapMemory dev path s args).2 ∧ _ ≤ _
    rw [vmaStep]
    generalize (unmapMemory dev path s args).1.toBool = ok at hcall
    generalize (unmapMemory dev path s args).2 = next at hcall ⊢
    cases hcall with
    | rejected => exact ⟨hbelow, Nat.le_add_right _ _⟩
    | accepted a =>
      have hnext : (vmaUnmapped path dev s a.handle).nextGpuVa = s.nextGpuVa := by
        show (tablesUnmapped s a.handle).nextGpuVa = _
        unfold tablesUnmapped
        cases s.handleToGpuVa.lookup a.handle <;> rfl
      refine ⟨⟨?_, fun handle va hva => ?_⟩, by rw [hnext]; exact Nat.le_add_right _ _⟩
      · rw [hnext]
        exact hbelow.base
      rw [lookup_vmaUnmapped] at hva
      rw [hnext]
      split_ifs at hva
      exact hbelow.below handle va hva

/-- A run that keeps the property, and has addresses left for its requests, meets the condition. -/
theorem guarded_of_keeps {x : SizedKfd} (requests : List VmaRequest) (hI : VmaInv x)
    (hbelow : VmaBelow x.2) (hspace : x.2.nextGpuVa.toNat + 4096 * requests.length + 16384 < 2 ^ 63)
    (hroom : Guarded (sizedStep path dev) (VmaRoom path dev) x requests)
    (htracks : Always (sizedStep path dev) VmaTracks x requests)
    (hundoes : Guarded (sizedStep path dev) (VmaUndoes path dev) x requests) :
    Guarded (sizedStep path dev) (VmaGuard path dev) x requests := by
  induction requests generalizing x with
  | nil => trivial
  | cons r requests ih =>
    rw [List.length_cons] at hspace
    have hnext : VmaTracks (sizedStep path dev x r) := by
      cases requests with
      | nil => exact htracks.2
      | cons _ _ => exact htracks.2.1
    have hG : VmaGuard path dev x r := by
      cases r with
      | map args => exact guard_map hI hbelow (by omega) args hroom.1 hnext hundoes.1
      | unmap args => exact guard_unmap hI args hnext
    obtain ⟨hbelow', hle⟩ := below_step path dev hI hbelow (by omega) r
    replace hle : (sizedStep path dev x r).2.nextGpuVa.toNat ≤ x.2.nextGpuVa.toNat + 4096 := hle
    exact ⟨hG, ih (hI.step r hG hroom.1).1 hbelow' (by omega) hroom.2 htracks.2 hundoes.2⟩

end Needed

/-- **VMA tracking.**  Along the runs in which no registration is refused for lack of room: when
every request meets the condition, the entries are those of the mappings, and a new mapping can be
undone; and while the addresses have not come round, only then. -/
theorem vma_tracking (path : KfdPath) (dev : BoTable) (requests : List VmaRequest)
    (hroom : Guarded (sizedStep path dev) (VmaRoom path dev) sizedStart requests) :
    (Guarded (sizedStep path dev) (VmaGuard path dev) sizedStart requests →
        Always (sizedStep path dev) VmaTracks sizedStart requests ∧
          Guarded (sizedStep path dev) (VmaUndoes path dev) sizedStart requests) ∧
      (requests.length ≤ 2 ^ 50 →
        Always (sizedStep path dev) VmaTracks sizedStart requests ∧
          Guarded (sizedStep path dev) (VmaUndoes path dev) sizedStart requests →
        Guarded (sizedStep path dev) (VmaGuard path dev) sizedStart requests) := by
  constructor
  · intro hG
    have hboth := hG.and _ hroom
    have hstep (x : SizedKfd) (r : VmaRequest) (hI : VmaInv x)
        (h : VmaGuard path dev x r ∧ VmaRoom path dev x r) :
        VmaInv (sizedStep path dev x r) ∧ VmaUndoes path dev x r := hI.step r h.1 h.2
    exact ⟨(always_of_inductive (fun x r hI h => (hstep x r hI h).1) VmaInv.start hboth).mono _
        fun x hI => (show VmaInv (x.1, x.2) from hI).tracks,
      guarded_of_inductive (fun x r hI h => (hstep x r hI h).1)
        (fun x r hI h => (hstep x r hI h).2) VmaInv.start hboth⟩
  · rintro hlength ⟨htracks, hundoes⟩
    have hbelow : VmaBelow sizedStart.2 := ⟨le_rfl, fun _ _ h => by cases h⟩
    have hnext : sizedStart.2.nextGpuVa.toNat = 0x100000 := rfl
    exact guarded_of_keeps requests VmaInv.start hbelow (by omega) hroom htracks hundoes

/-- A device with two buffer objects of one page, which have the handles 1 and 2. -/
def twoBos : BoTable :=
  { BoTable.init 0 with
    allocatedBits := fun handle => handle == 1 || handle == 2
    boMap := fun handle =>
      if handle = 1 then some ⟨0x100000000, 4096, 1, 0, 0⟩
      else if handle = 2 then some ⟨0x100001000, 4096, 1, 0, 4096⟩ else none }

/-- On either path both pages are mapped and the first is unmapped. -/
theorem vma_tracking_two :
    let requests : List VmaRequest :=
      [.map (some ⟨1, 1, 4096⟩), .map (some ⟨2, 1, 4096⟩), .unmap (some ⟨1, 1⟩)]
    (Always (sizedStep .gpgpu twoBos) VmaTracks sizedStart requests ∧
        Guarded (sizedStep .gpgpu twoBos) (VmaUndoes .gpgpu twoBos) sizedStart requests) ∧
      Always (sizedStep .drm twoBos) VmaTracks sizedStart requests ∧
        Guarded (sizedStep .drm twoBos) (VmaUndoes .drm twoBos) sizedStart requests :=
  ⟨(vma_tracking .gpgpu twoBos _ (by decide +kernel)).1 (by decide +kernel),
    (vma_tracking .drm twoBos _ (by decide +kernel)).1 (by decide +kernel)⟩

/-- A device whose handle 1 is a buffer object of one page. -/
def oneBo : BoTable :=
  { BoTable.init 0 with
    allocatedBits := fun handle => handle == 1
    boMap := fun handle => if handle = 1 then some ⟨0x100000000, 4096, 1, 0, 0⟩ else none }

def mapUnmap (size : UInt64) : List VmaRequest :=
  [.map (some ⟨1, 1, size⟩), .unmap (some ⟨1, 1⟩)]

theorem mapUnmap_two_pages (path : KfdPath) :
    Guarded (sizedStep path oneBo) (VmaRoom path oneBo) sizedStart (mapUnmap 8192) ∧
      ¬Always (sizedStep path oneBo) VmaTracks sizedStart (mapUnmap 8192) := by
  constructor
  · cases path <;> decide +kernel
  · intro h
    have hlast := Always.last _ h
    cases path with
    | gpgpu =>
      obtain ⟨handle, va, hmapped, -⟩ := (hlast _ rfl 0x101000).mp (by decide +kernel)
      cases hmapped
    | drm =>
      obtain ⟨handle, va, hmapped, -⟩ := (hlast _ rfl 0x101000).mp (by decide +kernel)
      cases hmapped

/-- Two pages are mapped and unmapped, with room: on either path the second is still found. -/
theorem vma_tracking_fails :
    (Guarded (sizedStep .gpgpu oneBo) (VmaRoom .gpgpu oneBo) sizedStart (mapUnmap 8192) ∧
        ¬Always (sizedStep .gpgpu oneBo) VmaTracks sizedStart (mapUnmap 8192)) ∧
      Guarded (sizedStep .drm oneBo) (VmaRoom .drm oneBo) sizedStart (mapUnmap 8192) ∧
        ¬Always (sizedStep .drm oneBo) VmaTracks sizedStart (mapUnmap 8192) :=
  ⟨mapUnmap_two_pages .gpgpu, mapUnmap_two_pages .drm⟩

end UsrLinuxEmu.GpuDriver
