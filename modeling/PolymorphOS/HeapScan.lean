import PolymorphOS.MictGlobalAllocator

/-! What the scan of `alloc` finds: the first aligned run of free blocks, if the
heatmap reaches far enough to tell. -/
namespace PolymorphOS
namespace MictGlobalAllocator

/-- Blocks `[s, s + n)` are unmarked. -/
def Free (a : MictGlobalAllocator) (s n : ℕ) : Prop := ∀ j, s ≤ j → j < s + n → a.hot j = false

/-- A run of `n` free blocks that starts at a multiple of `al` and ends at `limit` or before. -/
structure Fits (a : MictGlobalAllocator) (n al limit s : ℕ) : Prop where
  aligned : al ∣ s
  inside : s + n ≤ limit
  free : a.Free s n

theorem Fits.mono {a : MictGlobalAllocator} {n al limit limit' s : ℕ} (h : a.Fits n al limit s)
    (hl : limit ≤ limit') : a.Fits n al limit' s := ⟨h.aligned,h.inside.trans hl,h.free⟩

/-- The state of the scan before block `i`: a run of `c` free blocks from the aligned block
`st` on, and no fitting run from any earlier block. -/
structure ScanInv (a : MictGlobalAllocator) (n al i c st : ℕ) : Prop where
  short : c < n
  run : 0 < c → st + c = i ∧ al ∣ st ∧ a.Free st c
  none_before : ∀ s, al ∣ s → s < (if c = 0 then i else st) →
    ∃ j, s ≤ j ∧ j < s + n ∧ j < i ∧ a.hot j = true

/-- The three ways the scan of `total` blocks ends. -/
def ScanResult (a : MictGlobalAllocator) (n al total : ℕ) : Except Panic (Option ℕ) → Prop
  | .ok (some s) => a.Fits n al (min total maxHeapBlocks) s ∧
      ∀ s', al ∣ s' → s' < s → ¬a.Free s' n
  | .ok none => (∀ s, ¬a.Fits n al total s) ∧
      (maxHeapBlocks < total → (∃ j, a.hot j = true) ∧
        ∀ i, maxHeapBlocks ≤ i → i < total → ¬al ∣ i)
  | .error p => p = .indexOutOfBounds ∧ maxHeapBlocks < total ∧
      (∀ s, ¬a.Fits n al maxHeapBlocks s) ∧
      ((∃ i, maxHeapBlocks ≤ i ∧ i < total ∧ al ∣ i) ∨
        ∃ s, s < maxHeapBlocks ∧ al ∣ s ∧ a.Free s (maxHeapBlocks - s))

theorem ScanInv.start (a : MictGlobalAllocator) {n al : ℕ} (hn : 0 < n) : a.ScanInv n al 0 0 0 where
  short := hn
  run h := absurd h (by omega)
  none_before s _ hs := absurd hs (by simp)

/-- An unaligned block never starts a run. -/
theorem ScanInv.skip {a : MictGlobalAllocator} {n al i st : ℕ} (h : a.ScanInv n al i 0 st)
    (hi : ¬al ∣ i) : a.ScanInv n al (i+1) 0 st where
  short := h.short
  run hc := absurd hc (by omega)
  none_before s hs hlt := by
    have hne : s ≠ i := fun he => hi (he ▸ hs)
    rw [if_pos rfl] at hlt
    obtain ⟨j,hj⟩ := h.none_before s hs (by rw [if_pos rfl]; omega)
    exact ⟨j,hj.1,hj.2.1,by omega,hj.2.2.2⟩

/-- A marked block ends the run: every start from `st` to `i` has it in its window. -/
theorem ScanInv.reset {a : MictGlobalAllocator} {n al i c st : ℕ} (h : a.ScanInv n al i c st)
    (hot : a.hot i = true) : a.ScanInv n al (i+1) 0 st where
  short := lt_of_le_of_lt (Nat.zero_le c) h.short
  run hc := absurd hc (by omega)
  none_before s hs hlt := by
    rw [if_pos rfl] at hlt
    by_cases hb : s < if c = 0 then i else st
    · obtain ⟨j,hj⟩ := h.none_before s hs hb
      exact ⟨j,hj.1,hj.2.1,by omega,hj.2.2.2⟩
    · have hshort := h.short
      refine ⟨i,by omega,?_,by omega,hot⟩
      by_cases hc : c = 0
      · rw [if_pos hc] at hb
        omega
      · have hrun := (h.run (by omega)).1
        rw [if_neg hc] at hb
        omega

/-- A free block extends the run, or starts one. -/
theorem ScanInv.extend {a : MictGlobalAllocator} {n al i c st : ℕ} (h : a.ScanInv n al i c st)
    (hal : c = 0 → al ∣ i) (cold : a.hot i = false) :
    (if c = 0 then i else st) + (c+1) = i+1 ∧ al ∣ (if c = 0 then i else st) ∧
      a.Free (if c = 0 then i else st) (c+1) := by
  by_cases hc : c = 0
  · subst hc
    refine ⟨by simp,by simpa using hal rfl,fun j h1 h2 => ?_⟩
    have hj : j = i := by simp at h1 h2; omega
    rw [hj,cold]
  · obtain ⟨hi,hd,hfree⟩ := h.run (by omega)
    simp only [if_neg hc]
    refine ⟨by omega,hd,fun j h1 h2 => ?_⟩
    by_cases hj : j = i
    · rw [hj,cold]
    · exact hfree j h1 (by omega)

theorem ScanInv.next {a : MictGlobalAllocator} {n al i c st : ℕ} (h : a.ScanInv n al i c st)
    (hal : c = 0 → al ∣ i) (cold : a.hot i = false) (hn : c + 1 ≠ n) :
    a.ScanInv n al (i+1) (c+1) (if c = 0 then i else st) where
  short := by
    have := h.short
    omega
  run _ := h.extend hal cold
  none_before s hs hlt := by
    rw [if_neg (by omega)] at hlt
    obtain ⟨j,hj⟩ := h.none_before s hs hlt
    exact ⟨j,hj.1,hj.2.1,by omega,hj.2.2.2⟩

/-- Before block `i`, no fitting run ends at `i` or earlier. -/
theorem ScanInv.not_fits {a : MictGlobalAllocator} {n al i c st : ℕ} (h : a.ScanInv n al i c st)
    (s : ℕ) : ¬a.Fits n al i s := by
  intro hf
  have hin := hf.inside
  have hshort := h.short
  by_cases hb : s < if c = 0 then i else st
  · obtain ⟨j,h1,h2,_,hot⟩ := h.none_before s hf.aligned hb
    rw [hf.free j h1 h2] at hot
    cases hot
  · by_cases hc : c = 0
    · rw [if_pos hc] at hb
      omega
    · have hrun := (h.run (by omega)).1
      rw [if_neg hc] at hb
      omega

/-- The scan from any of its states; `left` counts the blocks still to visit. -/
theorem scan_result (a : MictGlobalAllocator) {n al total : ℕ} (left i c st : ℕ)
    (hi : i + left = total) (h : a.ScanInv n al i c st)
    (hpast : maxHeapBlocks < i → c = 0 ∧ ∀ k, maxHeapBlocks ≤ k → k < i → ¬al ∣ k) :
    a.ScanResult n al total (a.scan n al left i c st) := by
  induction left generalizing i c st with
  | zero =>
    obtain rfl : i = total := by omega
    refine ⟨h.not_fits,fun ht => ?_⟩
    obtain ⟨hc,hk⟩ := hpast ht
    refine ⟨?_,hk⟩
    obtain ⟨j,hj⟩ := h.none_before 0 (dvd_zero al) (by rw [if_pos hc]; omega)
    exact ⟨j,hj.2.2.2⟩
  | succ left ih =>
    rw [scan]
    by_cases hskip : c = 0 ∧ i % al ≠ 0
    · obtain ⟨rfl,hal⟩ := hskip
      have hnd : ¬al ∣ i := fun hd => hal (Nat.mod_eq_zero_of_dvd hd)
      rw [if_pos ⟨rfl,hal⟩]
      refine ih (i+1) 0 st (by omega) (h.skip hnd) fun hp => ⟨rfl,fun k hk hlt => ?_⟩
      by_cases hki : k = i
      · rwa [hki]
      · exact (hpast (by omega)).2 k hk (by omega)
    · rw [if_neg hskip]
      have hal : c = 0 → al ∣ i := fun hc => by
        by_contra hd
        exact hskip ⟨hc,fun hm => hd (Nat.dvd_of_mod_eq_zero hm)⟩
      by_cases hcap : maxHeapBlocks ≤ i
      · rw [isHot_error a hcap]
        refine ⟨rfl,by omega,fun s hf => h.not_fits s (hf.mono hcap),?_⟩
        by_cases hc : c = 0
        · exact Or.inl ⟨i,hcap,by omega,hal hc⟩
        · have hie : i = maxHeapBlocks := by
            by_contra hne
            exact hc (hpast (by omega)).1
          obtain ⟨hrun,hd,hfree⟩ := h.run (by omega)
          refine Or.inr ⟨st,by omega,hd,?_⟩
          rwa [show maxHeapBlocks - st = c by omega]
      · rw [isHot_ok a (by omega)]
        cases hhot : a.hot i with
        | true => exact ih (i+1) 0 st (by omega) (h.reset hhot) (by omega)
        | false =>
          simp only
          by_cases hfull : c + 1 = n
          · obtain ⟨hlen,hd,hfree⟩ := h.extend hal hhot
            rw [if_pos hfull,← hfull]
            refine ⟨⟨hd,by rw [hlen]; omega,hfree⟩,fun s hs hlt hf => ?_⟩
            obtain ⟨j,h1,h2,_,hot⟩ := h.none_before s hs hlt
            rw [hf j h1 (by omega)] at hot
            cases hot
          · rw [if_neg hfull]
            exact ih (i+1) (c+1) _ (by omega) (h.next hal hhot hfull) (by omega)

theorem blocksFor_pos {layout : Layout} (h : 1 ≤ layout.size) : 0 < blocksFor layout := by
  simp only [blocksFor,blockSize]
  omega

/-- What a call of `alloc` does, by the way its scan ends. -/
theorem alloc_cases (a : MictGlobalAllocator) {layout : Layout} (h : 1 ≤ layout.size) :
    let n := blocksFor layout
    let al := alignBlocks layout
    let total := a.heapSize / blockSize
    (∃ s a', a.alloc layout = .ok (a.heapStart + s * blockSize,a') ∧
      a.ScanResult n al total (.ok (some s)) ∧ Marked a a' s n true) ∨
    (a.alloc layout = .ok (0,a) ∧ a.ScanResult n al total (.ok none)) ∨
    (a.alloc layout = .error .indexOutOfBounds ∧
      a.ScanResult n al total (.error .indexOutOfBounds)) := by
  intro n al total
  have hn : 0 < n := blocksFor_pos h
  have hs : a.ScanResult n al total (a.scan n al total 0 0 0) :=
    a.scan_result total 0 0 0 (Nat.zero_add total) (ScanInv.start a hn) (by omega)
  simp only [alloc]
  cases hscan : a.scan n al total 0 0 0 with
  | error p =>
    rw [hscan] at hs
    obtain rfl : p = .indexOutOfBounds := hs.1
    exact Or.inr (Or.inr ⟨rfl,hs⟩)
  | ok found =>
    rw [hscan] at hs
    cases found with
    | none => exact Or.inr (Or.inl ⟨rfl,hs⟩)
    | some s =>
      have hin : s + n ≤ min total maxHeapBlocks := hs.1.inside
      obtain ⟨a',ha,hm⟩ := a.setBits_marked s n true (by omega)
      refine Or.inl ⟨s,a',?_,hs,hm⟩
      change (a.setBits s n true >>= fun a' => pure (a.heapStart + s * blockSize,a')) = _
      rw [ha]
      rfl

/-- The step of the scan is the alignment in blocks, and at least one block. -/
theorem alignBlocks_eq_max (layout : Layout) : alignBlocks layout = max 1 (layout.align / blockSize) := by
  rw [alignBlocks]
  split_ifs with h
  · have hpos : 1 ≤ layout.align / blockSize := (Nat.le_div_iff_mul_le (by norm_num [blockSize])).mpr
      (by omega)
    omega
  · have hle : layout.align / blockSize ≤ 1 := by
      calc layout.align / blockSize ≤ blockSize / blockSize := Nat.div_le_div_right (by omega)
        _ = 1 := rfl
    omega

/-- First fit: with the whole heap under the heatmap, `alloc` takes the lowest aligned run of free
blocks, marks that run and nothing else, and answers null only when there is none. -/
theorem alloc_firstFit (a : MictGlobalAllocator) (hcap : a.heapSize / blockSize ≤ maxHeapBlocks)
    {layout : Layout} (hsize : 1 ≤ layout.size) :
    let n := (layout.size + 63) / 64
    let al := max 1 (layout.align / 64)
    let fitting := {s | a.Fits n al (a.heapSize / 64) s}
    (fitting.Nonempty → ∃ s a', IsLeast fitting s ∧
      a.alloc layout = .ok (a.heapStart + 64 * s,a') ∧ Marked a a' s n true) ∧
    (¬fitting.Nonempty → a.alloc layout = .ok (0,a)) := by
  intro n al fitting
  have hal : alignBlocks layout = al := alignBlocks_eq_max layout
  rcases a.alloc_cases hsize with ⟨s,a',he,⟨hfit,hleast⟩,hm⟩ | ⟨he,hnone,_⟩ | ⟨_,_,hlt,_⟩
  · have hmem : s ∈ fitting := by
      have hfit' := hfit.mono (min_le_left _ _)
      rwa [hal] at hfit'
    have hlow : s ∈ lowerBounds fitting := by
      intro s' hs'
      by_contra hlt
      exact hleast s' (hal ▸ hs'.aligned) (by omega) hs'.free
    refine ⟨fun _ => ⟨s,a',⟨hmem,hlow⟩,?_,hm⟩,fun hno => absurd ⟨s,hmem⟩ hno⟩
    rw [he,blockSize,mul_comm]
  · refine ⟨fun ⟨s,hs⟩ => ?_,fun _ => he⟩
    rw [hal] at hnone
    exact absurd hs (hnone s)
  · omega

/-- A word. -/
def wordLayout : Layout := ⟨8,8,⟨3,rfl⟩,by decide⟩

/-- A word from an empty heap of one block. -/
theorem alloc_firstFit_word :
    ∃ a', (new.init 4096 64).alloc wordLayout = .ok (4096,a') ∧
      Marked (new.init 4096 64) a' 0 1 true := by
  have hfits : (new.init 4096 64).Fits ((wordLayout.size + 63) / 64) (max 1 (wordLayout.align / 64))
      ((new.init 4096 64).heapSize / 64) 0 := ⟨dvd_zero _,by decide,fun j _ _ => hot_new j⟩
  have hsize : 1 ≤ wordLayout.size := by decide
  obtain ⟨s,a',hleast,ha,hm⟩ := (alloc_firstFit (new.init 4096 64) (by decide) hsize).1 ⟨0,hfits⟩
  obtain rfl : s = 0 := Nat.le_zero.mp (hleast.2 hfits)
  exact ⟨a',ha,hm⟩

end MictGlobalAllocator
end PolymorphOS
