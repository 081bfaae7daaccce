import PolymorphOS.RustCore
import PolymorphOS.Bitmap

/-! The kernel's global allocator: a heatmap with one bit for each 64-byte block.
Every call runs under the allocator's lock with interrupts off, so a call is one
step of its clients. -/
namespace PolymorphOS

def blockSize : ℕ := 64
def maxHeapBlocks : ℕ := 500000

/-- `Layout`, with the two conditions its constructors check. -/
structure Layout where
  size : ℕ
  align : ℕ
  align_pow : ∃ k, align = 2^k
  size_le : size + align ≤ 2^63

/-- The bounds a heap is given: mapped addresses, so they miss the null address and
do not wrap. -/
structure HeapRegion where
  start : ℕ
  size : ℕ
  start_pos : 0 < start
  end_lt : start + size < 2^64

structure MictGlobalAllocator where
  heapStart : ℕ
  heapSize : ℕ
  heatmap : Vector UInt8 (maxHeapBlocks / 8)

namespace MictGlobalAllocator

def new : MictGlobalAllocator where
  heapStart := 0
  heapSize := 0
  heatmap := Vector.replicate _ 0

def init (a : MictGlobalAllocator) (heapStart heapSize : ℕ) : MictGlobalAllocator :=
  { a with heapStart := heapStart, heapSize := heapSize }

def setBit (a : MictGlobalAllocator) (bitIdx : ℕ) (hot : Bool) : Except Panic MictGlobalAllocator :=
  let byteIdx := bitIdx / 8
  let bitMask := Bitmap.mask bitIdx
  if h : byteIdx < maxHeapBlocks / 8 then
    .ok { a with
      heatmap := a.heatmap.set byteIdx
        (if hot then a.heatmap[byteIdx] ||| bitMask else a.heatmap[byteIdx] &&& ~~~bitMask) }
  else .error .indexOutOfBounds

def isHot (a : MictGlobalAllocator) (bitIdx : ℕ) : Except Panic Bool :=
  let byteIdx := bitIdx / 8
  let bitMask := Bitmap.mask bitIdx
  if h : byteIdx < maxHeapBlocks / 8 then .ok (a.heatmap[byteIdx] &&& bitMask != 0)
  else .error .indexOutOfBounds

/-- The loop of `alloc` from block `i` on, with the number of blocks left to visit
as the first argument. -/
def scan (a : MictGlobalAllocator) (blocksNeeded alignBlocks : ℕ) :
    ℕ → ℕ → ℕ → ℕ → Except Panic (Option ℕ)
  | 0, _, _, _ => .ok none
  | left+1, i, currentConsecutive, startBitIdx =>
    if currentConsecutive = 0 ∧ i % alignBlocks ≠ 0 then
      a.scan blocksNeeded alignBlocks left (i+1) currentConsecutive startBitIdx
    else
      match a.isHot i with
      | .error p => .error p
      | .ok true => a.scan blocksNeeded alignBlocks left (i+1) 0 startBitIdx
      | .ok false =>
        let start := if currentConsecutive = 0 then i else startBitIdx
        if currentConsecutive + 1 = blocksNeeded then .ok (some start)
        else a.scan blocksNeeded alignBlocks left (i+1) (currentConsecutive + 1) start

/-- The loops that mark and clear `count` blocks from `startBitIdx` on. -/
def setBits (a : MictGlobalAllocator) (startBitIdx count : ℕ) (hot : Bool) :
    Except Panic MictGlobalAllocator :=
  (List.range count).foldlM (fun a j => a.setBit (startBitIdx + j) hot) a

def blocksFor (layout : Layout) : ℕ := (layout.size + blockSize - 1) / blockSize

def alignBlocks (layout : Layout) : ℕ :=
  if layout.align > blockSize then layout.align / blockSize else 1

/-- `GlobalAlloc::alloc`: the pointer, null when no run of blocks fits, and the heatmap after. -/
def alloc (a : MictGlobalAllocator) (layout : Layout) : Except Panic (ℕ × MictGlobalAllocator) := do
  let blocksNeeded := blocksFor layout
  let totalBlocks := a.heapSize / blockSize
  match ← a.scan blocksNeeded (alignBlocks layout) totalBlocks 0 0 0 with
  | none => return (0,a)
  | some startBitIdx =>
    let a' ← a.setBits startBitIdx blocksNeeded true
    return (a.heapStart + startBitIdx * blockSize,a')

/-- `GlobalAlloc::dealloc`. -/
def dealloc (a : MictGlobalAllocator) (ptr : ℕ) (layout : Layout) :
    Except Panic MictGlobalAllocator :=
  if ptr < a.heapStart ∨ ptr ≥ a.heapStart + a.heapSize then
    .error (.explicit "MictGlobalAllocator: Dissonance! Dealloc outside of heap bounds.")
  else
    let offset := ptr - a.heapStart
    a.setBits (offset / blockSize) (blocksFor layout) false

/-- Block `i` is marked; no block past the end of the heatmap is. -/
def hot (a : MictGlobalAllocator) (i : ℕ) : Bool := Bitmap.bit a.heatmap i

theorem lt_of_hot {a : MictGlobalAllocator} {i : ℕ} (h : a.hot i = true) : i < maxHeapBlocks := by
  unfold hot Bitmap.bit at h
  split at h
  · rename_i hi
    simp only [maxHeapBlocks] at hi ⊢
    omega
  · cases h

theorem isHot_ok (a : MictGlobalAllocator) {i : ℕ} (h : i < maxHeapBlocks) :
    a.isHot i = .ok (a.hot i) := by
  have hi : i / 8 < maxHeapBlocks / 8 := by
    simp only [maxHeapBlocks] at h ⊢
    omega
  rw [isHot,dif_pos hi,Bitmap.bit_test,hot]

theorem isHot_error (a : MictGlobalAllocator) {i : ℕ} (h : maxHeapBlocks ≤ i) :
    a.isHot i = .error .indexOutOfBounds := by
  have hi : ¬i / 8 < maxHeapBlocks / 8 := by
    simp only [maxHeapBlocks] at h ⊢
    omega
  rw [isHot,dif_neg hi]

@[simp] theorem hot_init (a : MictGlobalAllocator) (heapStart heapSize i : ℕ) :
    (a.init heapStart heapSize).hot i = a.hot i := rfl

@[simp] theorem hot_new (i : ℕ) : new.hot i = false := Bitmap.bit_zero i

/-- One heatmap differs from another in the value of the blocks `[start, start + count)`. -/
structure Marked (a a' : MictGlobalAllocator) (start count : ℕ) (b : Bool) : Prop where
  heapStart_eq : a'.heapStart = a.heapStart
  heapSize_eq : a'.heapSize = a.heapSize
  hot_eq : ∀ i, a'.hot i = if start ≤ i ∧ i < start + count then b else a.hot i

theorem setBit_marked (a : MictGlobalAllocator) {i : ℕ} (h : i < maxHeapBlocks) (b : Bool) :
    ∃ a', a.setBit i b = .ok a' ∧ Marked a a' i 1 b := by
  have hi : i / 8 < maxHeapBlocks / 8 := by
    simp only [maxHeapBlocks] at h ⊢
    omega
  rw [setBit,dif_pos hi]
  refine ⟨_,rfl,rfl,rfl,fun j => ?_⟩
  have hj : (i ≤ j ∧ j < i + 1) ↔ j = i := by omega
  simp only [hot,hj]
  cases b
  · by_cases he : j = i <;> simp [Bitmap.bit_erase,he]
  · by_cases he : j = i <;> simp [Bitmap.bit_insert,he]

theorem setBits_marked (a : MictGlobalAllocator) (start count : ℕ) (b : Bool)
    (h : start + count ≤ maxHeapBlocks) :
    ∃ a', a.setBits start count b = .ok a' ∧ Marked a a' start count b := by
  induction count with
  | zero =>
    refine ⟨a,rfl,rfl,rfl,fun i => ?_⟩
    rw [if_neg (by omega)]
  | succ count ih =>
    obtain ⟨m,hm,hmark⟩ := ih (by omega)
    obtain ⟨a',ha,hmark'⟩ := setBit_marked m (i := start + count) (by omega) b
    refine ⟨a',?_,?_,?_,fun i => ?_⟩
    · rw [setBits] at hm ⊢
      rw [List.range_succ,List.foldlM_append,hm]
      change (m.setBit (start + count) b >>= pure) = .ok a'
      rw [ha]
      rfl
    · rw [hmark'.heapStart_eq,hmark.heapStart_eq]
    · rw [hmark'.heapSize_eq,hmark.heapSize_eq]
    · rw [hmark'.hot_eq,hmark.hot_eq]
      split_ifs <;> first | rfl | omega

/-- A heatmap without marked blocks is the one the allocator starts with. -/
theorem heatmap_eq_new {a : MictGlobalAllocator} (h : ∀ i, a.hot i = false) :
    a.heatmap = new.heatmap := Bitmap.eq_zero_of_bit h

end MictGlobalAllocator
end PolymorphOS
