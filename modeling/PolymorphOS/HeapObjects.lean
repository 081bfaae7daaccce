import PolymorphOS.ByteMemory
import PolymorphOS.HeapRuns
import PolymorphOS.ObjectStore
import PolymorphOS.Returns

/-! The heap with the memory it manages: every run of the clients' calls is one of a store of
objects that do not know of each other. -/
namespace PolymorphOS

/-- `Layout::from_size_align_unchecked` of a new size and the old alignment. -/
def Layout.resized (layout : Layout) (newSize : ℕ) (h : newSize + layout.align ≤ 2^63) : Layout :=
  ⟨newSize,layout.align,layout.align_pow,h⟩

/-- The heap, and the bytes at every address. -/
structure HeapMemory where
  heap : HeapRuns.Heap
  memory : ℕ → UInt8

namespace HeapMemory

open HeapRuns ObjectStore MictGlobalAllocator

/-- What clients do with the heap: the methods of `GlobalAlloc`, and accesses to what they hold. -/
inductive ClientCall
  | alloc (layout : Layout)
  | allocZeroed (layout : Layout)
  | dealloc (l : Allocation)
  | realloc (l : Allocation) (newSize : ℕ) (h : newSize + l.layout.align ≤ 2^63)
  | write (l : Allocation) (i : ℕ) (byte : UInt8)
  | read (l : Allocation) (i : ℕ)

/-- `GlobalAlloc::alloc`; the client keeps the pointer unless it is null. -/
protected def alloc (m : HeapMemory) (layout : Layout) : Except Panic (ℕ × HeapMemory) := do
  let (ptr,allocator) ← m.heap.allocator.alloc layout
  let live := if ptr = 0 then m.heap.live else ⟨ptr,layout⟩::m.heap.live
  return (ptr,{m with heap := ⟨allocator,live⟩})

/-- `GlobalAlloc::alloc_zeroed`, which the allocator does not override. -/
def allocZeroed (m : HeapMemory) (layout : Layout) : Except Panic (ℕ × HeapMemory) := do
  let (ptr,m) ← m.alloc layout
  if ptr = 0 then return (ptr,m)
  else return (ptr,{m with memory := splice m.memory ptr layout.size fun _ => 0})

/-- `GlobalAlloc::dealloc`. -/
protected def dealloc (m : HeapMemory) (l : Allocation) : Except Panic HeapMemory := do
  let allocator ← m.heap.allocator.dealloc l.ptr l.layout
  return {m with heap := ⟨allocator,m.heap.live.erase l⟩}

/-- `GlobalAlloc::realloc`, which the allocator does not override either. -/
def realloc (m : HeapMemory) (l : Allocation) (newSize : ℕ)
    (h : newSize + l.layout.align ≤ 2^63) : Except Panic (ℕ × HeapMemory) := do
  let (newPtr,m) ← m.alloc (l.layout.resized newSize h)
  if newPtr = 0 then return (newPtr,m)
  else
    let copied := splice m.memory newPtr (min l.layout.size newSize) fun i => m.memory (l.ptr + i)
    let m ← ({m with memory := copied} : HeapMemory).dealloc l
    return (newPtr,m)

def write (m : HeapMemory) (l : Allocation) (i : ℕ) (byte : UInt8) : HeapMemory :=
  {m with memory := Function.update m.memory (l.ptr + i) byte}

def read (m : HeapMemory) (l : Allocation) (i : ℕ) : UInt8 := m.memory (l.ptr + i)

/-- What the client is told, unless the pointer is null. -/
def answer (ptr : ℕ) (event : Event) : Event := if ptr = 0 then .refused else event

def exec (m : HeapMemory) : ClientCall → Except Panic (HeapMemory × Event)
  | .alloc layout => do
    let (ptr,m) ← m.alloc layout
    return (m,answer ptr (.create ptr layout.size))
  | .allocZeroed layout => do
    let (ptr,m) ← m.allocZeroed layout
    return (m,answer ptr (.createZeroed ptr layout.size))
  | .dealloc l => return (← m.dealloc l,.remove l.ptr)
  | .realloc l newSize h => do
    let (ptr,m) ← m.realloc l newSize h
    return (m,answer ptr (.resize l.ptr ptr newSize))
  | .write l i byte => return (m.write l i byte,.store l.ptr i byte)
  | .read l i => return (m,.load l.ptr i (m.read l i))

/-- The contract of `GlobalAlloc`, and of pointers: clients use what they hold. -/
def Allowed (m : HeapMemory) : ClientCall → Prop
  | .alloc layout => 1 ≤ layout.size
  | .allocZeroed layout => 1 ≤ layout.size
  | .dealloc l => l ∈ m.heap.live
  | .realloc l newSize _ => l ∈ m.heap.live ∧ 1 ≤ newSize
  | .write l i _ => l ∈ m.heap.live ∧ i < l.layout.size
  | .read l i => l ∈ m.heap.live ∧ i < l.layout.size

/-- Clients of the heap that `init_heap` leaves, whatever its memory holds. -/
def system (r : HeapRegion) : Runs.System HeapMemory Event where
  init m := m.heap = start r
  step m event m' := ∃ call, m.Allowed call ∧ m.exec call = .ok (m',event)

/-- The live allocations hold what the store knows. -/
def Holds (m : HeapMemory) (s : ObjectStore) : Prop :=
  Represents s (· ∈ m.heap.live) Allocation.ptr (fun l => l.layout.size) m.memory

/-! ### Addresses -/

section

variable {r : HeapRegion} {h : Heap} {l k : Allocation} {i j : ℕ}

/-- Each byte of an allocation is in a block of it. -/
theorem covers_byte (hl : Placed r l) (hi : i < l.layout.size) :
    l.Covers r.start ((l.ptr + i - r.start) / blockSize) := by
  have hptr := hl.ptr_eq
  have hend : l.layout.size ≤ blocksFor l.layout * blockSize := by
    simp only [blocksFor,blockSize]
    omega
  simp only [Allocation.Covers,blockSize] at hptr hend ⊢
  omega

theorem bytes_apart (hl : Placed r l) (hk : Placed r k) (hapart : Apart r l k)
    (hi : i < l.layout.size) (hj : j < k.layout.size) : l.ptr + i ≠ k.ptr + j := by
  intro heq
  exact hapart _ (covers_byte hl hi) (heq ▸ covers_byte hk hj)

instance : Std.Symm (Apart r) := ⟨fun _ _ => Apart.symm⟩

theorem live_bytes_apart (hinv : Invariant r h) (hl : l ∈ h.live) (hk : k ∈ h.live) (hne : l ≠ k)
    (hi : i < l.layout.size) (hj : j < k.layout.size) : l.ptr + i ≠ k.ptr + j :=
  bytes_apart (hinv.placed l hl) (hinv.placed k hk)
    (hinv.apart.forall hl hk hne) hi hj

theorem live_nodup (hinv : Invariant r h) : h.live.Nodup := by
  refine hinv.apart.imp_of_mem fun {l k} hl hk hapart heq => ?_
  have hpos : 0 < l.layout.size := (hinv.placed l hl).size_pos
  subst heq
  exact bytes_apart (hinv.placed l hl) (hinv.placed l hl) hapart hpos hpos rfl

end

/-! ### One call -/

section

variable {r : HeapRegion} {m m' : HeapMemory} {s : ObjectStore} {layout : Layout} {ptr : ℕ}
  {l : Allocation}

theorem alloc_spec (hinv : Invariant r m.heap) (hsize : 1 ≤ layout.size)
    (h : m.alloc layout = .ok (ptr,m')) : Invariant r m'.heap ∧ m'.memory = m.memory ∧
      m'.heap.live = if ptr = 0 then m.heap.live else ⟨ptr,layout⟩::m.heap.live := by
  obtain ⟨⟨ptr',a⟩,halloc,hrest⟩ := bind_inv h
  cases hrest
  exact ⟨alloc_invariant hinv hsize halloc,rfl,rfl⟩

/-- What is written behind a new pointer is in no older allocation. -/
theorem splice_keeps (hinv : Invariant r m'.heap)
    (hlive : m'.heap.live = ⟨ptr,layout⟩::m.heap.live) {len : ℕ} (hlen : len ≤ layout.size)
    (bytes src : ℕ → UInt8) (hl : l ∈ m.heap.live) {i : ℕ} (hi : i < l.layout.size) :
    splice bytes ptr len src (l.ptr + i) = bytes (l.ptr + i) := by
  have hnew : (⟨ptr,layout⟩ : Allocation) ∈ m'.heap.live := hlive ▸ List.mem_cons_self
  have hold : l ∈ m'.heap.live := hlive ▸ List.mem_cons_of_mem _ hl
  have hapart : Apart r ⟨ptr,layout⟩ l :=
    (List.pairwise_cons.mp (hlive ▸ hinv.apart)).1 l hl
  apply splice_of_not_mem
  by_contra hmem
  have heq : ptr + (l.ptr + i - ptr) = l.ptr + i := by omega
  exact bytes_apart (hinv.placed _ hnew) (hinv.placed _ hold) hapart
    (show l.ptr + i - ptr < layout.size by omega) hi heq

/-- A new allocation is a new object. -/
theorem insert_holds (m m' : HeapMemory) (bytes : ℕ → Option UInt8) (hinv : Invariant r m'.heap)
    (hlive : m'.heap.live = ⟨ptr,layout⟩::m.heap.live) (hs : Holds m s)
    (hkeep : ∀ l ∈ m.heap.live, ∀ i < l.layout.size,
      m'.memory (l.ptr + i) = m.memory (l.ptr + i))
    (hbytes : ∀ i < layout.size, ∀ byte, bytes i = some byte → m'.memory (ptr + i) = byte) :
    ∃ s', s.insert ptr ⟨layout.size,bytes⟩ = some s' ∧
      (∀ l ∈ m.heap.live, s' l.ptr = s l.ptr) ∧ Holds m' s' := by
  have hnew : (⟨ptr,layout⟩ : Allocation) ∈ m'.heap.live := hlive ▸ List.mem_cons_self
  have hfresh (l : Allocation) (hl : l ∈ m.heap.live) : l.ptr ≠ ptr := by
    have hold : l ∈ m'.heap.live := hlive ▸ List.mem_cons_of_mem _ hl
    have hapart := (List.pairwise_cons.mp (hlive ▸ hinv.apart)).1 l hl
    exact (bytes_apart (hinv.placed _ hnew) (hinv.placed _ hold) hapart
      (hinv.placed _ hnew).size_pos (hinv.placed _ hold).size_pos).symm
  obtain ⟨s',hs',hsame,hrep⟩ := (Represents.keep hs hkeep).insert ⟨ptr,layout⟩
    ⟨layout.size,bytes⟩ hfresh rfl hbytes
  refine ⟨s',hs',hsame,?_⟩
  rw [Holds,hlive]
  simpa only [List.mem_cons] using hrep

theorem dealloc_holds (hinv : Invariant r m.heap) (hs : Holds m s) (hl : l ∈ m.heap.live)
    (h : m.dealloc l = .ok m') :
    Invariant r m'.heap ∧ Holds m' (Function.update s l.ptr none) := by
  obtain ⟨a,hdealloc,hrest⟩ := bind_inv h
  cases hrest
  refine ⟨dealloc_invariant hinv hl hdealloc,?_⟩
  have hmem (k : Allocation) : k ∈ m.heap.live.erase l ↔ k ∈ m.heap.live ∧ k ≠ l :=
    (live_nodup hinv).mem_erase_iff.trans and_comm
  simpa only [Holds,hmem] using Represents.remove hs hl

theorem dealloc_returns (hinv : Invariant r m.heap) (hl : l ∈ m.heap.live) :
    ∃ m', m.dealloc l = .ok m' := by
  obtain ⟨a,ha,_⟩ := dealloc_marked hinv hl
  rw [HeapMemory.dealloc,ha]
  exact ⟨_,rfl⟩

/-- A null pointer changes nothing. -/
theorem refused_holds (hs : Holds m s) (hptr : ptr = 0) (hlive : m'.heap.live = m.heap.live)
    (hmemory : m'.memory = m.memory) (event : Event) :
    ∃ s', s.step (answer ptr event) = some s' ∧ Holds m' s' := by
  refine ⟨s,by rw [answer,if_pos hptr]; rfl,?_⟩
  rw [Holds,hlive,hmemory]
  exact hs

theorem alloc_holds (hinv : Invariant r m.heap) (hs : Holds m s) (hsize : 1 ≤ layout.size)
    (h : m.alloc layout = .ok (ptr,m')) : Invariant r m'.heap ∧
      ∃ s', s.step (answer ptr (.create ptr layout.size)) = some s' ∧ Holds m' s' := by
  obtain ⟨hinv',hmemory,hlive⟩ := alloc_spec hinv hsize h
  refine ⟨hinv',?_⟩
  by_cases hptr : ptr = 0
  · rw [if_pos hptr] at hlive
    exact refused_holds hs hptr hlive hmemory _
  · rw [if_neg hptr] at hlive
    obtain ⟨s',hs',_,hholds⟩ := insert_holds m m' (fun _ => none) hinv' hlive hs
      (fun _ _ _ _ => by rw [hmemory]) fun _ _ _ hb => nomatch hb
    exact ⟨s',by rw [answer,if_neg hptr]; exact hs',hholds⟩

theorem allocZeroed_holds (hinv : Invariant r m.heap) (hs : Holds m s) (hsize : 1 ≤ layout.size)
    (h : m.allocZeroed layout = .ok (ptr,m')) : Invariant r m'.heap ∧
      ∃ s', s.step (answer ptr (.createZeroed ptr layout.size)) = some s' ∧ Holds m' s' := by
  obtain ⟨⟨ptr₁,m₁⟩,halloc,hrest⟩ := bind_inv h
  obtain ⟨hinv₁,hmemory,hlive⟩ := alloc_spec hinv hsize halloc
  dsimp only at hrest
  by_cases hptr : ptr₁ = 0
  · rw [if_pos hptr] at hrest hlive
    cases hrest
    exact ⟨hinv₁,refused_holds hs hptr hlive hmemory _⟩
  · rw [if_neg hptr] at hrest hlive
    cases hrest
    have hkeep (l : Allocation) (hl : l ∈ m.heap.live) (i : ℕ) (hi : i < l.layout.size) :
        splice m₁.memory ptr layout.size (fun _ => 0) (l.ptr + i) = m.memory (l.ptr + i) :=
      (splice_keeps hinv₁ hlive le_rfl _ _ hl hi).trans (congrFun hmemory (l.ptr + i))
    have hzero (i : ℕ) (hi : i < layout.size) (byte : UInt8) (hb : some 0 = some byte) :
        splice m₁.memory ptr layout.size (fun _ => 0) (ptr + i) = byte :=
      (splice_apply hi _).trans (Option.some.inj hb)
    obtain ⟨s',hs',_,hholds⟩ := insert_holds m
      {m₁ with memory := splice m₁.memory ptr layout.size fun _ => 0} (fun _ => some 0) hinv₁ hlive
      hs hkeep hzero
    exact ⟨hinv₁,s',by rw [answer,if_neg hptr]; exact hs',hholds⟩

/-- The new object begins with the bytes of the old one. -/
theorem realloc_holds (hinv : Invariant r m.heap) (hs : Holds m s) (hl : l ∈ m.heap.live)
    {newSize : ℕ} {hnew : newSize + l.layout.align ≤ 2^63} (hsize : 1 ≤ newSize)
    (h : m.realloc l newSize hnew = .ok (ptr,m')) : Invariant r m'.heap ∧
      ∃ s', s.step (answer ptr (.resize l.ptr ptr newSize)) = some s' ∧ Holds m' s' := by
  obtain ⟨⟨ptr₁,m₁⟩,halloc,hrest⟩ := bind_inv h
  obtain ⟨hinv₁,hmemory,hlive⟩ := alloc_spec hinv hsize halloc
  dsimp only at hrest
  by_cases hptr : ptr₁ = 0
  · rw [if_pos hptr] at hrest hlive
    cases hrest
    exact ⟨hinv₁,refused_holds hs hptr hlive hmemory _⟩
  · rw [if_neg hptr] at hrest hlive
    obtain ⟨o,ho,hosize,hobytes⟩ := hs.object l hl
    let copied : HeapMemory := {m₁ with
      memory := splice m₁.memory ptr₁ (min l.layout.size newSize) fun i => m₁.memory (l.ptr + i)}
    have hl₁ : l ∈ copied.heap.live := hlive ▸ List.mem_cons_of_mem _ hl
    have hkeep (k : Allocation) (hk : k ∈ m.heap.live) (i : ℕ) (hi : i < k.layout.size) :
        copied.memory (k.ptr + i) = m.memory (k.ptr + i) :=
      (splice_keeps hinv₁ hlive (Nat.min_le_right l.layout.size newSize) m₁.memory
        (fun i => m₁.memory (l.ptr + i)) hk hi).trans (congrFun hmemory (k.ptr + i))
    have hcopy (i : ℕ) (hi : i < newSize) (byte : UInt8)
        (hb : (if i < o.size then o.bytes i else none) = some byte) :
        copied.memory (ptr₁ + i) = byte := by
      by_cases hio : i < o.size
      · rw [if_pos hio] at hb
        have hmin : i < min l.layout.size newSize := lt_min (hosize ▸ hio) hi
        exact (splice_apply hmin fun i => m₁.memory (l.ptr + i)).trans
          (hmemory ▸ hobytes i hio byte hb)
      · rw [if_neg hio] at hb
        cases hb
    obtain ⟨s₁,hs₁,hsame,hholds⟩ := insert_holds m copied _ hinv₁ hlive hs hkeep hcopy
    obtain ⟨m₂,hdealloc⟩ := dealloc_returns (m := copied) hinv₁ hl₁
    obtain ⟨hinv₂,hholds₂⟩ := dealloc_holds (m := copied) hinv₁ hholds hl₁ hdealloc
    change (copied.dealloc l >>= fun m => pure (ptr₁,m)) = .ok (ptr,m') at hrest
    rw [hdealloc] at hrest
    cases hrest
    refine ⟨hinv₂,_,?_,hholds₂⟩
    rw [answer,if_neg hptr]
    show ((s l.ptr).bind fun o => (s.insert ptr ⟨newSize,fun i =>
      if i < o.size then o.bytes i else none⟩).bind fun s =>
        some (Function.update s l.ptr none)) = _
    rw [ho,Option.bind_some]
    exact (congrArg (Option.bind · _) hs₁).trans rfl

theorem write_holds (hinv : Invariant r m.heap) (hs : Holds m s) (hl : l ∈ m.heap.live) {i : ℕ}
    (hi : i < l.layout.size) (byte : UInt8) :
    ∃ s', s.step (.store l.ptr i byte) = some s' ∧ Holds (m.write l i byte) s' := by
  obtain ⟨o,ho,hosize,_⟩ := hs.object l hl
  refine ⟨_,?_,Represents.know hs hl ho i byte (Function.update_self _ _ _)
    (fun j _ hne => Function.update_of_ne (by omega) _ _) fun k hk hne j hj => ?_⟩
  · show ((s l.ptr).bind fun o => if i < o.size then some (s.know l.ptr o i byte) else none) = _
    rw [ho,Option.bind_some,if_pos (hosize ▸ hi)]
  · exact Function.update_of_ne (live_bytes_apart hinv hk hl hne hj hi) _ _

theorem read_holds (hs : Holds m s) (hl : l ∈ m.heap.live) {i : ℕ} (hi : i < l.layout.size) :
    ∃ s', s.step (.load l.ptr i (m.read l i)) = some s' ∧ Holds m s' := by
  obtain ⟨o,ho,hosize,hbytes⟩ := hs.object l hl
  have hi' : i < o.size := hosize ▸ hi
  have hagree : (o.bytes i).all (· = m.read l i) = true := by
    cases hb : o.bytes i with
    | none => rfl
    | some byte => exact decide_eq_true (hbytes i hi' byte hb).symm
  refine ⟨_,?_,Represents.know hs hl ho i (m.read l i) rfl (fun _ _ _ => rfl)
    fun _ _ _ _ _ => rfl⟩
  show ((s l.ptr).bind fun o => if i < o.size ∧ (o.bytes i).all (· = m.read l i) then
    some (s.know l.ptr o i (m.read l i)) else none) = _
  rw [ho,Option.bind_some,if_pos ⟨hi',hagree⟩]

/-- Whatever a client does, the store does it with its objects. -/
theorem step_holds (hinv : Invariant r m.heap) (hs : Holds m s) {event : Event}
    (hstep : (system r).step m event m') :
    ∃ s', s.step event = some s' ∧ Invariant r m'.heap ∧ Holds m' s' := by
  obtain ⟨call,hok,hexec⟩ := hstep
  cases call with
  | alloc layout =>
    obtain ⟨⟨ptr,m₁⟩,hcall,hrest⟩ := bind_inv hexec
    cases hrest
    obtain ⟨hinv',s',hs',hholds⟩ := alloc_holds hinv hs hok hcall
    exact ⟨s',hs',hinv',hholds⟩
  | allocZeroed layout =>
    obtain ⟨⟨ptr,m₁⟩,hcall,hrest⟩ := bind_inv hexec
    cases hrest
    obtain ⟨hinv',s',hs',hholds⟩ := allocZeroed_holds hinv hs hok hcall
    exact ⟨s',hs',hinv',hholds⟩
  | dealloc l =>
    obtain ⟨m₁,hcall,hrest⟩ := bind_inv hexec
    cases hrest
    obtain ⟨hinv',hholds⟩ := dealloc_holds hinv hs hok hcall
    obtain ⟨o,ho,_⟩ := hs.object l hok
    exact ⟨_,congrArg (Option.map _) ho,hinv',hholds⟩
  | realloc l newSize hnew =>
    obtain ⟨⟨ptr,m₁⟩,hcall,hrest⟩ := bind_inv hexec
    cases hrest
    obtain ⟨hinv',s',hs',hholds⟩ := realloc_holds hinv hs hok.1 hok.2 hcall
    exact ⟨s',hs',hinv',hholds⟩
  | write l i byte =>
    cases hexec
    obtain ⟨s',hs',hholds⟩ := write_holds hinv hs hok.1 hok.2 byte
    exact ⟨s',hs',hinv,hholds⟩
  | read l i =>
    cases hexec
    obtain ⟨s',hs',hholds⟩ := read_holds hs hok.1 hok.2
    exact ⟨s',hs',hinv,hholds⟩

/-! ### Calls return -/

theorem alloc_returns (hinv : Invariant r m.heap) (hcap : r.size / blockSize ≤ maxHeapBlocks)
    (hsize : 1 ≤ layout.size) : Returns (m.alloc layout) fun result =>
      Invariant r result.2.heap ∧ ∀ l ∈ m.heap.live, l ∈ result.2.heap.live := by
  have hreturns : ∃ result, m.heap.allocator.alloc layout = .ok result := by
    rcases m.heap.allocator.alloc_cases hsize with ⟨_,_,halloc,_⟩ | ⟨halloc,_⟩ | ⟨_,hpanic⟩
    · exact ⟨_,halloc⟩
    · exact ⟨_,halloc⟩
    · have hpast := hpanic.2.1
      rw [hinv.heapSize_eq] at hpast
      omega
  obtain ⟨result,hresult⟩ := hreturns
  have halloc : m.alloc layout = _ := congrArg (· >>= _) hresult
  obtain ⟨hinv',_,hlive⟩ := alloc_spec hinv hsize halloc
  refine ⟨_,halloc,hinv',fun l hl => ?_⟩
  rw [hlive]
  split
  · exact hl
  · exact List.mem_cons_of_mem _ hl

theorem exec_returns (hinv : Invariant r m.heap) (hcap : r.size / blockSize ≤ maxHeapBlocks)
    {call : ClientCall} (hok : m.Allowed call) : Returns (m.exec call) fun _ => True := by
  cases call with
  | alloc layout => exact (alloc_returns hinv hcap hok).bind fun _ _ => .pure trivial
  | allocZeroed layout =>
    have hzeroed : Returns (m.allocZeroed layout) fun _ => True :=
      (alloc_returns hinv hcap hok).bind fun _ _ =>
        .ite (fun _ => .pure trivial) fun _ => .pure trivial
    exact hzeroed.bind fun _ _ => .pure trivial
  | dealloc l =>
    obtain ⟨m₁,hdealloc⟩ := dealloc_returns hinv hok
    exact Returns.bind (Q := fun _ => True) ⟨m₁,hdealloc,trivial⟩ fun _ _ => .pure trivial
  | realloc l newSize hnew =>
    have hsize : 1 ≤ (l.layout.resized newSize hnew).size := hok.2
    have hrealloc : Returns (m.realloc l newSize hnew) fun _ => True := by
      refine (alloc_returns hinv hcap hsize).bind fun result h =>
        .ite (fun _ => .pure trivial) fun _ => ?_
      let copied : HeapMemory := {result.2 with
        memory := splice result.2.memory result.1 (min l.layout.size newSize)
          fun i => result.2.memory (l.ptr + i)}
      obtain ⟨m₂,hdealloc⟩ := dealloc_returns (m := copied) h.1 (h.2 l hok.1)
      exact Returns.bind (Q := fun _ => True) ⟨m₂,hdealloc,trivial⟩ fun _ _ => .pure trivial
    exact hrealloc.bind fun _ _ => .pure trivial
  | write l i byte => exact .pure trivial
  | read l i => exact .pure trivial

end

/-- Every run of the clients' calls, on a heap of any size and with any garbage in it, is one of
the store: what a client reads is what was last written to that object, and survives `realloc`.
With a heatmap for the whole heap, no call that keeps the contract panics. -/
theorem heap_objects (r : HeapRegion) {m m' : HeapMemory} {events : List Event}
    (hinit : (system r).init m) (htrace : (system r).Trace m events m') :
    (∃ s, events.foldlM step .empty = some s ∧ Holds m' s) ∧
      (r.size / blockSize ≤ maxHeapBlocks →
        ∀ call, m'.Allowed call → ∃ event m'', (system r).step m' event m'') := by
  have hstart : Invariant r m.heap ∧ Holds m .empty := by
    rw [Holds,hinit]
    refine ⟨start_invariant r,?_⟩
    simpa only [start,List.not_mem_nil] using Represents.empty
  obtain ⟨s,hs,hinv,hholds⟩ := htrace.accepted
    (R := fun m s => Invariant r m.heap ∧ Holds m s)
    (fun m s event m' h hstep => step_holds h.1 h.2 hstep) hstart
  refine ⟨⟨s,hs,hholds⟩,fun hcap call hok => ?_⟩
  obtain ⟨⟨m'',event⟩,hexec,_⟩ := exec_returns hinv hcap hok
  exact ⟨event,m'',call,hok,hexec⟩

/-- A word is asked for on a page-sized heap. -/
theorem heap_objects_page :
    let r : HeapRegion := ⟨0x1000,0x1000,by decide,by decide⟩
    ∃ event m', (system r).Trace ⟨start r,fun _ => 0xFF⟩ [event] m' ∧
      ∃ s, [event].foldlM step .empty = some s ∧ Holds m' s := by
  intro r
  let m : HeapMemory := ⟨start r,fun _ => 0xFF⟩
  have hinit : (system r).init m := rfl
  obtain ⟨_,hreturns⟩ := heap_objects r hinit .nil
  obtain ⟨event,m',hstep⟩ := hreturns (by norm_num [r,blockSize,maxHeapBlocks])
    (.alloc ⟨8,8,⟨3,rfl⟩,by decide⟩) (show 1 ≤ 8 by decide)
  exact ⟨event,m',.cons hstep .nil,(heap_objects r hinit (.cons hstep .nil)).1⟩

end HeapMemory
end PolymorphOS
