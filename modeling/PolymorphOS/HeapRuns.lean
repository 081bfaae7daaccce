import PolymorphOS.HeapScan
import PolymorphOS.Runs

/-! The heap under its clients: every sequence of `alloc` and `dealloc` calls that
keeps the contract of `GlobalAlloc`, and what the heatmap records along it. -/
namespace PolymorphOS
namespace HeapRuns

open MictGlobalAllocator

deriving instance DecidableEq for Layout

/-- A live allocation: the pointer `alloc` returned and the layout it was asked for. -/
structure Allocation where
  ptr : ℕ
  layout : Layout
  deriving DecidableEq

def Allocation.firstBlock (heapStart : ℕ) (l : Allocation) : ℕ := (l.ptr - heapStart) / blockSize

/-- Block `i` of the heap lies in the allocation. -/
def Allocation.Covers (heapStart : ℕ) (l : Allocation) (i : ℕ) : Prop :=
  l.firstBlock heapStart ≤ i ∧ i < l.firstBlock heapStart + blocksFor l.layout

instance (heapStart : ℕ) (l : Allocation) (i : ℕ) : Decidable (l.Covers heapStart i) :=
  inferInstanceAs (Decidable (_ ∧ _))

/-- The allocator and the allocations its clients still hold. -/
structure Heap where
  allocator : MictGlobalAllocator
  live : List Allocation

inductive Call
  | alloc (layout : Layout)
  | dealloc (l : Allocation)

/-- The heap `init_heap` leaves: an empty heatmap over the mapped region. -/
def start (r : HeapRegion) : Heap := ⟨MictGlobalAllocator.new.init r.start r.size,[]⟩

/-- Clients ask for at least one byte and free only what they hold; a call that panics
has no successor. -/
def system (r : HeapRegion) : Runs.System Heap Call where
  init h := h = start r
  step h call h' := match call with
    | .alloc layout => 1 ≤ layout.size ∧ ∃ ptr a, h.allocator.alloc layout = .ok (ptr,a) ∧
        h' = ⟨a,if ptr = 0 then h.live else ⟨ptr,layout⟩::h.live⟩
    | .dealloc l => l ∈ h.live ∧ ∃ a, h.allocator.dealloc l.ptr l.layout = .ok a ∧
        h' = ⟨a,h.live.erase l⟩

theorem start_reachable (r : HeapRegion) : (system r).Reachable (start r) := .init rfl

/-- Where an allocation lies in the region. -/
structure Placed (r : HeapRegion) (l : Allocation) : Prop where
  size_pos : 1 ≤ l.layout.size
  ptr_eq : l.ptr = r.start + l.firstBlock r.start * blockSize
  inside : l.firstBlock r.start + blocksFor l.layout ≤ min (r.size / blockSize) maxHeapBlocks

def Apart (r : HeapRegion) (l m : Allocation) : Prop :=
  ∀ i, l.Covers r.start i → ¬m.Covers r.start i

/-- The heatmap marks exactly the blocks of the live allocations, which do not overlap. -/
structure Invariant (r : HeapRegion) (h : Heap) : Prop where
  heapStart_eq : h.allocator.heapStart = r.start
  heapSize_eq : h.allocator.heapSize = r.size
  placed : ∀ l ∈ h.live, Placed r l
  apart : h.live.Pairwise (Apart r)
  hot_iff : ∀ i, h.allocator.hot i = true ↔ ∃ l ∈ h.live, l.Covers r.start i

theorem Apart.symm {r : HeapRegion} {l m : Allocation} (h : Apart r l m) : Apart r m l :=
  fun i hm hl => h i hl hm

theorem start_invariant (r : HeapRegion) : Invariant r (start r) where
  heapStart_eq := rfl
  heapSize_eq := rfl
  placed l hl := by cases hl
  apart := List.Pairwise.nil
  hot_iff i := by simp [start]

/-- The allocation that `alloc` hands out for the run of blocks from `s` on. -/
theorem firstBlock_alloc (r : HeapRegion) (s : ℕ) (layout : Layout) :
    Allocation.firstBlock r.start ⟨r.start + s * blockSize,layout⟩ = s := by
  simp only [Allocation.firstBlock,blockSize]
  omega

theorem alloc_invariant {r : HeapRegion} {h : Heap} (hi : Invariant r h) {layout : Layout}
    (hsize : 1 ≤ layout.size) {ptr : ℕ} {a : MictGlobalAllocator}
    (ha : h.allocator.alloc layout = .ok (ptr,a)) :
    Invariant r ⟨a,if ptr = 0 then h.live else ⟨ptr,layout⟩::h.live⟩ := by
  rcases h.allocator.alloc_cases hsize with ⟨s,a',he,hs,hm⟩ | ⟨he,_⟩ | ⟨he,_⟩
  · rw [he] at ha
    cases ha
    rw [hi.heapStart_eq,if_neg (by have := r.start_pos; omega)]
    have hf := firstBlock_alloc r s layout
    have hcov : ∀ i, Allocation.Covers r.start ⟨r.start + s * blockSize,layout⟩ i ↔
        s ≤ i ∧ i < s + blocksFor layout := fun i => by rw [Allocation.Covers,hf]
    have hfree := hs.1.free
    have hinside := hs.1.inside
    rw [hi.heapSize_eq] at hinside
    refine ⟨hm.heapStart_eq.trans hi.heapStart_eq,hm.heapSize_eq.trans hi.heapSize_eq,?_,?_,?_⟩
    · intro l hl
      rcases List.mem_cons.mp hl with rfl | hl
      · exact ⟨hsize,by rw [hf],by rw [hf]; exact hinside⟩
      · exact hi.placed l hl
    · refine List.pairwise_cons.mpr ⟨fun l hl i hnew hold => ?_,hi.apart⟩
      have hcold := hfree i ((hcov i).mp hnew).1 ((hcov i).mp hnew).2
      rw [(hi.hot_iff i).mpr ⟨l,hl,hold⟩] at hcold
      cases hcold
    · intro i
      simp only [hm.hot_eq,List.mem_cons,exists_eq_or_imp,hcov]
      split_ifs with hin
      · simp [hin]
      · rw [hi.hot_iff]
        simp [hin]
  · rw [he] at ha
    cases ha
    exact hi
  · rw [he] at ha
    cases ha

/-- Freeing a live allocation clears its own blocks and no others. -/
theorem dealloc_marked {r : HeapRegion} {h : Heap} (hi : Invariant r h) {l : Allocation}
    (hl : l ∈ h.live) :
    ∃ a, h.allocator.dealloc l.ptr l.layout = .ok a ∧
      Marked h.allocator a (l.firstBlock r.start) (blocksFor l.layout) false := by
  have hp := hi.placed l hl
  have hin := hp.inside
  have hpos := blocksFor_pos hp.size_pos
  obtain ⟨a,ha,hm⟩ := h.allocator.setBits_marked (l.firstBlock r.start) (blocksFor l.layout) false
    (by omega)
  refine ⟨a,?_,hm⟩
  have hptr := hp.ptr_eq
  have hbound : l.firstBlock r.start * blockSize < r.size := by
    simp only [blockSize] at hin ⊢
    omega
  rw [dealloc,if_neg (by rw [hi.heapStart_eq,hi.heapSize_eq]; omega),hi.heapStart_eq]
  exact ha

theorem dealloc_invariant {r : HeapRegion} {h : Heap} (hi : Invariant r h) {l : Allocation}
    (hl : l ∈ h.live) {a : MictGlobalAllocator} (ha : h.allocator.dealloc l.ptr l.layout = .ok a) :
    Invariant r ⟨a,h.live.erase l⟩ := by
  obtain ⟨a',ha',hm⟩ := dealloc_marked hi hl
  rw [ha] at ha'
  cases ha'
  have hperm := List.perm_cons_erase hl
  have hpair := (hperm.pairwise_iff Apart.symm).mp hi.apart
  have hl' := (List.pairwise_cons.mp hpair).1
  refine ⟨hm.heapStart_eq.trans hi.heapStart_eq,hm.heapSize_eq.trans hi.heapSize_eq,?_,?_,?_⟩
  · exact fun m hm => hi.placed m (List.mem_of_mem_erase hm)
  · exact (List.pairwise_cons.mp hpair).2
  · intro i
    have hold : h.allocator.hot i = true ↔
        l.Covers r.start i ∨ ∃ m ∈ h.live.erase l, m.Covers r.start i := by
      rw [hi.hot_iff]
      simp only [hperm.mem_iff,List.mem_cons,exists_eq_or_imp]
    rw [hm.hot_eq]
    split_ifs with hin
    · simp only [false_iff,not_exists,not_and]
      exact fun m hm hc => hl' m hm i hin hc
    · have hout : ¬l.Covers r.start i := hin
      rw [hold]
      simp [hout]

theorem reachable_invariant {r : HeapRegion} {h : Heap} (hr : (system r).Reachable h) :
    Invariant r h := by
  refine hr.invariant (fun s hs => hs ▸ start_invariant r) ?_
  intro h call h' hi hstep
  cases call with
  | alloc layout =>
    obtain ⟨hsize,ptr,a,ha,rfl⟩ := hstep
    exact alloc_invariant hi hsize ha
  | dealloc l =>
    obtain ⟨hl,a,ha,rfl⟩ := hstep
    exact dealloc_invariant hi hl ha

/-- How many live allocations hold block `i`. -/
def owners (r : HeapRegion) (h : Heap) (i : ℕ) : ℕ :=
  h.live.countP fun l => decide (l.Covers r.start i)

theorem countP_le_one {A : Type*} {p : A → Bool} {xs : List A}
    (h : xs.Pairwise fun x y => p x = true → p y = false) : xs.countP p ≤ 1 := by
  induction xs with
  | nil => simp
  | cons x xs ih =>
    obtain ⟨hx,hxs⟩ := List.pairwise_cons.mp h
    by_cases hp : p x = true
    · have hz : xs.countP p = 0 := by
        rw [List.countP_eq_zero]
        intro y hy
        simp [hx y hy hp]
      simp [hp,hz]
    · simpa [hp] using ih hxs

theorem owners_eq {r : HeapRegion} {h : Heap} (hi : Invariant r h) (i : ℕ) :
    owners r h i = if h.allocator.hot i then 1 else 0 := by
  have hle : owners r h i ≤ 1 := by
    apply countP_le_one
    exact hi.apart.imp fun hlm => by simpa using hlm i
  have hpos : 0 < owners r h i ↔ h.allocator.hot i = true := by
    rw [hi.hot_iff,owners,List.countP_pos_iff]
    simp
  split_ifs with hh
  · have := hpos.mpr hh
    omega
  · have := mt hpos.mp hh
    omega

/-- What holds of a heap whose heatmap covers its region. -/
structure Tracked (r : HeapRegion) (h : Heap) : Prop where
  hot_iff : ∀ i, i < maxHeapBlocks → (h.allocator.isHot i = .ok true ↔ owners r h i = 1)
  apart : h.live.Pairwise (Apart r)
  inside : ∀ l ∈ h.live, r.start ≤ l.ptr ∧
    l.ptr + blocksFor l.layout * blockSize ≤ r.start + r.size
  alloc_returns : ∀ layout : Layout, 1 ≤ layout.size → ∃ h', (system r).step h (.alloc layout) h'
  dealloc_returns : ∀ l ∈ h.live, ∃ h', (system r).step h (.dealloc l) h'
  dealloc_keeps : ∀ l h', (system r).step h (.dealloc l) h' →
    ∀ m ∈ h'.live, ∀ i, m.Covers r.start i → h'.allocator.isHot i = .ok true
  empty : h.live = [] → h.allocator.heatmap = MictGlobalAllocator.new.heatmap

theorem isHot_iff_owners {r : HeapRegion} {h : Heap} (hi : Invariant r h) {i : ℕ}
    (hlt : i < maxHeapBlocks) : h.allocator.isHot i = .ok true ↔ owners r h i = 1 := by
  rw [isHot_ok _ hlt,owners_eq hi]
  cases h.allocator.hot i <;> simp

theorem Placed.bounds {r : HeapRegion} {l : Allocation} (h : Placed r l) :
    r.start ≤ l.ptr ∧ l.ptr + blocksFor l.layout * blockSize ≤ r.start + r.size := by
  have hp := h.ptr_eq
  have hin := h.inside
  simp only [blockSize] at hp hin ⊢
  omega

end HeapRuns
end PolymorphOS
