import PolymorphOS.HeapRuns

/-! The heap that `init_heap` installs. Its 64 MiB are 1048576 blocks, of which the
heatmap covers the first 500000, and the scan of `alloc` is bounded by the former. -/
namespace PolymorphOS
namespace KernelHeap

open MictGlobalAllocator HeapRuns

/-- `HEAP_START` and `HEAP_SIZE`. -/
def region : HeapRegion where
  start := 0x444444440000
  size := 64 * 1024 * 1024
  start_pos := by norm_num
  end_lt := by norm_num

def totalBlocks : ℕ := region.size / blockSize

theorem totalBlocks_eq : totalBlocks = 2^20 := by norm_num [totalBlocks,region,blockSize]

/-- `alloc` returns: a fitting run of free blocks, or null when there is none. -/
def AllocReturns (h : Heap) (layout : Layout) : Prop :=
  match h.allocator.alloc layout with
  | .error _ => False
  | .ok (ptr,_) =>
    if ptr = 0 then ∀ s, ¬h.allocator.Fits (blocksFor layout) (alignBlocks layout) totalBlocks s
    else ∃ s, ptr = region.start + s * blockSize ∧
      h.allocator.Fits (blocksFor layout) (alignBlocks layout) totalBlocks s

/-- An alignment of `2^k` bytes is one of `2^(k-6)` blocks, or of one block. -/
theorem alignBlocks_eq_pow {layout : Layout} {k : ℕ} (hk : layout.align = 2^k) :
    alignBlocks layout = 2^(k-6) := by
  rw [alignBlocks,hk,blockSize]
  rcases Nat.lt_or_ge 6 k with h | h
  · have hsplit : 2^k = 2^(k-6) * 64 := by
      rw [show (64 : ℕ) = 2^6 by norm_num,← pow_add,Nat.sub_add_cancel h.le]
    have hlt : 64 < 2^k := by
      calc 64 < 2^7 := by norm_num
        _ ≤ 2^k := Nat.pow_le_pow_right (by norm_num) h
    rw [if_pos hlt,hsplit,Nat.mul_div_cancel _ (by norm_num)]
  · have hle : 2^k ≤ 64 := by
      calc 2^k ≤ 2^6 := Nat.pow_le_pow_right (by norm_num) h
        _ = 64 := by norm_num
    rw [if_neg (by omega),Nat.sub_eq_zero_of_le h,pow_zero]

/-- A multiple of every smaller alignment lies between the end of the heatmap and the end of
the heap; of an alignment of 64 MiB or more, only block 0 is. -/
theorem alignBlocks_cases (layout : Layout) :
    (layout.align < 2^26 ∧
      ∃ i, maxHeapBlocks ≤ i ∧ i < totalBlocks ∧ alignBlocks layout ∣ i) ∨
    (2^26 ≤ layout.align ∧ ∀ i, i < totalBlocks → alignBlocks layout ∣ i → i = 0) := by
  obtain ⟨k,hk⟩ := layout.align_pow
  rw [totalBlocks_eq,alignBlocks_eq_pow hk]
  rcases Nat.lt_or_ge k 26 with h | h
  · refine Or.inl ⟨hk ▸ Nat.pow_lt_pow_right (by norm_num) h,2^19,by norm_num [maxHeapBlocks],
      by norm_num,Nat.pow_dvd_pow 2 (by omega)⟩
  · refine Or.inr ⟨hk ▸ Nat.pow_le_pow_right (by norm_num) h,fun i hi hd => ?_⟩
    apply Nat.eq_zero_of_dvd_of_lt hd
    calc i < 2^20 := hi
      _ ≤ 2^(k-6) := Nat.pow_le_pow_right (by norm_num) (by omega)

theorem live_ne_nil_iff {h : Heap} (hi : Invariant region h) :
    h.live ≠ [] ↔ ∃ i, h.allocator.hot i = true := by
  simp only [hi.hot_iff]
  constructor
  · intro hne
    obtain ⟨l,hl⟩ := List.exists_mem_of_ne_nil _ hne
    have hpos := blocksFor_pos (hi.placed l hl).size_pos
    exact ⟨l.firstBlock region.start,l,hl,le_refl _,by omega⟩
  · rintro ⟨_,l,hl,_⟩ hnil
    rw [hnil] at hl
    cases hl

theorem allocReturns_iff {h : Heap} (hi : Invariant region h) {layout : Layout}
    (hsize : 1 ≤ layout.size) :
    AllocReturns h layout ↔
      (∃ s, h.allocator.Fits (blocksFor layout) (alignBlocks layout) maxHeapBlocks s) ∨
      (2^26 ≤ layout.align ∧ h.live ≠ []) := by
  have htotal : h.allocator.heapSize / blockSize = totalBlocks := by rw [hi.heapSize_eq]; rfl
  have hcap : maxHeapBlocks < totalBlocks := by rw [totalBlocks_eq]; norm_num [maxHeapBlocks]
  rw [live_ne_nil_iff hi,AllocReturns]
  have hcases := h.allocator.alloc_cases hsize
  simp only [htotal,hi.heapStart_eq] at hcases
  rcases hcases with ⟨s,a,he,hs,_⟩ | ⟨he,hnone,hpast⟩ | ⟨he,_,_,hnone,hend⟩
  · have hfit := hs.1
    rw [min_eq_right hcap.le] at hfit
    have hptr : region.start + s * blockSize ≠ 0 := by
      have := region.start_pos
      omega
    simp only [he,if_neg hptr]
    exact iff_of_true ⟨s,rfl,hfit.mono hcap.le⟩ (Or.inl ⟨s,hfit⟩)
  · simp only [he,if_true]
    refine iff_of_true hnone (Or.inr ?_)
    obtain ⟨hhot,hno⟩ := hpast hcap
    rcases alignBlocks_cases layout with ⟨_,i,h1,h2,hd⟩ | ⟨hbig,_⟩
    · exact absurd hd (hno i h1 h2)
    · exact ⟨hbig,hhot⟩
  · simp only [he,false_iff,not_or,not_and,not_exists]
    refine ⟨hnone,fun hbig j hj => ?_⟩
    have hzero : ∀ i, i < totalBlocks → alignBlocks layout ∣ i → i = 0 := by
      rcases alignBlocks_cases layout with ⟨hsmall,_⟩ | ⟨_,hz⟩
      · omega
      · exact hz
    rcases hend with ⟨i,h1,h2,hd⟩ | ⟨s,hlt,hd,hfree⟩
    · have := hzero i h2 hd
      simp only [maxHeapBlocks] at h1
      omega
    · obtain rfl := hzero s (by omega) hd
      have hcold := hfree j (by omega) (by have := lt_of_hot hj; omega)
      rw [hj] at hcold
      cases hcold

/-- In every reachable state `dealloc` returns, and `alloc` does exactly when the run it would
take ends inside the heatmap, or the alignment allows block 0 only and something is live. -/
theorem alloc_returns_exactly {h : Heap} (hr : (system region).Reachable h) :
    (∀ l ∈ h.live, ∃ a, h.allocator.dealloc l.ptr l.layout = .ok a) ∧
    ∀ layout : Layout, 1 ≤ layout.size → (AllocReturns h layout ↔
      (∃ s, h.allocator.Fits (blocksFor layout) (alignBlocks layout) maxHeapBlocks s) ∨
      (2^26 ≤ layout.align ∧ h.live ≠ [])) := by
  have hi := reachable_invariant hr
  refine ⟨fun l hl => ?_,fun layout hsize => allocReturns_iff hi hsize⟩
  obtain ⟨a,ha,_⟩ := dealloc_marked hi hl
  exact ⟨a,ha⟩

/-- One byte at boot. -/
theorem alloc_returns_exactly_boot :
    AllocReturns (start region) ⟨1,1,⟨0,rfl⟩,by decide⟩ :=
  ((alloc_returns_exactly (start_reachable region)).2 ⟨1,1,⟨0,rfl⟩,by decide⟩ (by norm_num)).mpr
    (Or.inl ⟨0,dvd_zero _,by norm_num [blocksFor,blockSize,maxHeapBlocks],fun j _ _ => hot_new j⟩)

/-- A request for one block more than the heatmap covers, right after boot: the scan walks
off the heatmap, although half of the heap could hold it. -/
theorem alloc_past_heatmap {layout : Layout} (hsize : 1 ≤ layout.size)
    (hn : blocksFor layout = maxHeapBlocks + 1) :
    (start region).allocator.alloc layout = .error .indexOutOfBounds := by
  rcases (start region).allocator.alloc_cases hsize with ⟨s,_,_,hs,_⟩ | ⟨_,hnone,_⟩ | ⟨he,_⟩
  · have hin := hs.1.inside
    rw [hn] at hin
    omega
  · refine absurd ⟨dvd_zero _,?_,fun j _ _ => hot_new j⟩ (hnone 0)
    rw [hn]
    norm_num [maxHeapBlocks,blockSize,start,region,MictGlobalAllocator.init]
  · exact he

theorem not_all_return {layout : Layout} (hsize : 1 ≤ layout.size)
    (hn : blocksFor layout = maxHeapBlocks + 1) :
    ¬∀ h : Heap, (system region).Reachable h → ∀ layout : Layout, 1 ≤ layout.size →
      AllocReturns h layout := by
  intro hall
  have hret := hall (start region) (start_reachable region) layout hsize
  simp only [AllocReturns,alloc_past_heatmap hsize hn] at hret

/-- 32000064 bytes. -/
def largeLayout : Layout := ⟨32000064,1,⟨0,rfl⟩,by decide⟩

theorem largeLayout_size : 1 ≤ largeLayout.size := by norm_num [largeLayout]

theorem largeLayout_blocks : blocksFor largeLayout = maxHeapBlocks + 1 := by
  norm_num [blocksFor,largeLayout,blockSize,maxHeapBlocks]

/-- A freshly booted kernel panics on a 32 MB request. -/
theorem alloc_panics :
    (start region).allocator.alloc largeLayout = .error .indexOutOfBounds ∧
    ¬∀ h : Heap, (system region).Reachable h → ∀ layout : Layout, 1 ≤ layout.size →
      AllocReturns h layout :=
  ⟨alloc_past_heatmap largeLayout_size largeLayout_blocks,
    not_all_return largeLayout_size largeLayout_blocks⟩

/-- `alloc` answers with null, panics, or hands out an address of the alignment asked for. -/
def AllocAligned (h : Heap) (layout : Layout) : Prop :=
  ∀ ptr a, h.allocator.alloc layout = .ok (ptr,a) → ptr ≠ 0 → layout.align ∣ ptr

/-- `HEAP_START` is an odd multiple of 256 KiB. -/
theorem align_dvd_start (layout : Layout) : layout.align ∣ region.start ↔ layout.align ≤ 2^18 := by
  obtain ⟨k,hk⟩ := layout.align_pow
  have hstart : region.start = 2^18 * 286331153 := by norm_num [region]
  rw [hk,hstart,Nat.pow_le_pow_iff_right (by norm_num)]
  constructor
  · intro hd
    by_contra hlt
    have h19 : 2^19 ∣ 2^18 * 286331153 := (Nat.pow_dvd_pow 2 (by omega)).trans hd
    norm_num at h19
  · exact fun hle => (Nat.pow_dvd_pow 2 hle).mul_right _

/-- A block index the scan accepts is aligned as an offset from the start of the heap. -/
theorem align_dvd_offset {layout : Layout} {s : ℕ} (h : alignBlocks layout ∣ s) :
    layout.align ∣ s * blockSize := by
  obtain ⟨k,hk⟩ := layout.align_pow
  rw [alignBlocks_eq_pow hk] at h
  calc layout.align = 2^k := hk
    _ ∣ 2^(k-6+6) := Nat.pow_dvd_pow 2 (by omega)
    _ = 2^(k-6) * blockSize := by rw [pow_add]; rfl
    _ ∣ s * blockSize := mul_dvd_mul_right h blockSize

/-- In every reachable state the address `alloc` hands out has the alignment asked for exactly
when that is at most 256 KiB or no run of free blocks fits: the scan aligns the offset and never
looks at the address. -/
theorem alloc_aligned_exactly {h : Heap} (hr : (system region).Reachable h) {layout : Layout}
    (hsize : 1 ≤ layout.size) :
    AllocAligned h layout ↔ layout.align ≤ 2^18 ∨
      ∀ s, ¬h.allocator.Fits (blocksFor layout) (alignBlocks layout) maxHeapBlocks s := by
  have hi := reachable_invariant hr
  have htotal : h.allocator.heapSize / blockSize = totalBlocks := by rw [hi.heapSize_eq]; rfl
  have hcap : maxHeapBlocks < totalBlocks := by rw [totalBlocks_eq]; norm_num [maxHeapBlocks]
  have hcases := h.allocator.alloc_cases hsize
  simp only [htotal,hi.heapStart_eq] at hcases
  rcases hcases with ⟨s,a,he,hs,_⟩ | ⟨he,hnone,_⟩ | ⟨he,_,_,hnone,_⟩
  · have hfit := hs.1
    rw [min_eq_right hcap.le] at hfit
    have hptr : region.start + s * blockSize ≠ 0 := by
      have := region.start_pos
      omega
    have hdvd : layout.align ∣ region.start + s * blockSize ↔ layout.align ∣ region.start :=
      (Nat.dvd_add_left (align_dvd_offset hfit.aligned))
    rw [← align_dvd_start,← hdvd]
    constructor
    · exact fun hal => Or.inl (hal _ _ he hptr)
    · rintro (hd | hno) ptr a' ha _
      · rw [he] at ha
        cases ha
        exact hd
      · exact absurd hfit (hno s)
  · refine iff_of_true (fun ptr a ha hne => ?_) (Or.inr fun s hf => hnone s (hf.mono hcap.le))
    rw [he] at ha
    cases ha
    exact absurd rfl hne
  · refine iff_of_true (fun ptr a ha _ => ?_) (Or.inr hnone)
    rw [he] at ha
    cases ha

/-- A page at boot. -/
theorem alloc_aligned_page : AllocAligned (start region) ⟨4096,4096,⟨12,rfl⟩,by decide⟩ :=
  (alloc_aligned_exactly (start_reachable region) (by norm_num)).mpr (Or.inl (by norm_num))

theorem alloc_boot_misaligned {layout : Layout} (hsize : 1 ≤ layout.size)
    (hn : blocksFor layout ≤ maxHeapBlocks) (hal : 2^18 < layout.align) :
    ∃ a, (start region).allocator.alloc layout = .ok (region.start,a) ∧
      ¬layout.align ∣ region.start := by
  have hfit : (start region).allocator.Fits (blocksFor layout) (alignBlocks layout)
      maxHeapBlocks 0 := ⟨dvd_zero _,by omega,fun j _ _ => hot_new j⟩
  have hmis : ¬layout.align ∣ region.start := by rw [align_dvd_start]; omega
  rcases (start region).allocator.alloc_cases hsize with
    ⟨s,a,he,hs,_⟩ | ⟨_,hnone,_⟩ | ⟨_,_,_,hnone,_⟩
  · have hs0 : s = 0 := by
      by_contra hne
      exact hs.2 0 (dvd_zero _) (by omega) hfit.free
    rw [hs0,zero_mul] at he
    exact ⟨a,he,hmis⟩
  · refine absurd (hfit.mono ?_) (hnone 0)
    norm_num [maxHeapBlocks,blockSize,start,region,MictGlobalAllocator.init]
  · exact absurd hfit (hnone 0)

/-- One byte aligned to 512 KiB. -/
def wideLayout : Layout := ⟨1,2^19,⟨19,rfl⟩,by decide⟩

/-- The first address of the heap goes to a client that asked for 512 KiB alignment. -/
theorem wideLayout_misaligned :
    (∃ a, (start region).allocator.alloc wideLayout = .ok (region.start,a)) ∧
    ¬∀ h : Heap, (system region).Reachable h → ∀ layout : Layout, 1 ≤ layout.size →
      AllocAligned h layout := by
  have hsize : 1 ≤ wideLayout.size := by norm_num [wideLayout]
  obtain ⟨a,ha,hmis⟩ := alloc_boot_misaligned hsize
    (by norm_num [blocksFor,wideLayout,blockSize,maxHeapBlocks]) (by norm_num [wideLayout])
  refine ⟨⟨a,ha⟩,fun hall => hmis ?_⟩
  exact hall _ (start_reachable region) wideLayout hsize _ _ ha region.start_pos.ne'

end KernelHeap
end PolymorphOS
