import PolymorphOS.FrameAllocator

/-! `allocate_dma_frames`: a buffer handed to a device by its first frame alone. -/
namespace PolymorphOS

/-- A virtual address; bits 48 to 63 repeat bit 47. -/
abbrev VirtAddr := {addr : UInt64 // addr.toNat < 2^47 ∨ 2^64 - 2^47 ≤ addr.toNat}

/-- An address whose bit 47 is the highest one set is sign-extended. -/
def VirtAddr.new (addr : UInt64) : Except Panic VirtAddr :=
  if h : addr.toNat < 2^47 ∨ 2^64 - 2^47 ≤ addr.toNat then .ok ⟨addr,h⟩
  else if h : addr.toNat < 2^48 then
    .ok ⟨addr + UInt64.ofNat (2^64 - 2^48),by
      rw [UInt64.toNat_add,UInt64.toNat_ofNat_of_lt' (by decide)]
      omega⟩
  else .error (.explicit "address passed to VirtAddr::new must not contain any data in bits 48 to 64")

/-- `impl Add<u64> for VirtAddr`. -/
def VirtAddr.add (build : Profile) (virt : VirtAddr) (offset : UInt64) : Except Panic VirtAddr := do
  VirtAddr.new (← addU64 build virt.1 offset)

/-- The crate's trait for `Size4KiB`. -/
class FrameAllocator (F : Type) where
  allocateFrame : Profile → F → Except Panic (Option PhysFrame × F)

instance : FrameAllocator BootInfoFrameAllocator := ⟨BootInfoFrameAllocator.allocateFrame⟩

/-- Virtual memory, a byte an address. -/
abbrev Memory := UInt64 → UInt8

/-- `ptr::write_bytes(dst, 0, count)`. -/
def Memory.zero (memory : Memory) (dst count : UInt64) : Memory :=
  fun addr => if addr - dst < count then 0 else memory addr

section
variable {F : Type} [FrameAllocator F]

/-- `for _ in 1..pages`, with `k` rounds left; false once a frame is missing. -/
def reserveFrames (build : Profile) : ℕ → F → Except Panic (Bool × F)
  | 0,a => pure (true,a)
  | k + 1,a => do
    let (frame,a) ← FrameAllocator.allocateFrame build a
    if frame.isNone then pure (false,a) else reserveFrames build k a

def allocateDmaFrames (build : Profile) (frameAllocator : F) (memory : Memory)
    (physMemOffset : VirtAddr) (pages : UInt64) :
    Except Panic (Option (PhysAddr × VirtAddr) × F × Memory) := do
  let (first,a) ← FrameAllocator.allocateFrame build frameAllocator
  match first with
  | none => pure (none,a,memory)
  | some firstFrame =>
    let physAddr := firstFrame.startAddress
    let virtAddr ← physMemOffset.add build (UInt64.ofNat physAddr.1)
    let (reserved,a) ← reserveFrames build (pages.toNat - 1) a
    if reserved then
      let count ← mulU64 build pages 4096
      pure (some (physAddr,virtAddr),a,memory.zero virtAddr.1 count)
    else pure (none,a,memory)

end

/-- The positions at which the usable regions begin. -/
def regionStarts : List MemoryRegion → List ℕ
  | [] => []
  | r :: rs => if r.kind = .usable then
      0 :: (regionStarts rs).map (r.frameAddresses.length + ·)
    else regionStarts rs

/-- The position visited before `pos`; a release build's counter wraps around. -/
def positionBefore (pos : ℕ) : ℕ := (pos + (2^64 - 1)) % 2^64

/-- At `pos` a usable region begins that does not continue the frame before it. -/
def GapAt (regions : List MemoryRegion) (pos : ℕ) : Prop :=
  pos ∈ regionStarts regions ∧
    frameAt regions pos ≠ (frameAt regions (positionBefore pos)).map (· + 4096)

instance (regions : List MemoryRegion) (pos : ℕ) : Decidable (GapAt regions pos) :=
  inferInstanceAs (Decidable (_ ∧ _))

theorem frameAddresses_cons (r : MemoryRegion) (rs : List MemoryRegion) :
    frameAddresses (r :: rs) =
      (if r.kind = .usable then r.frameAddresses else []) ++ frameAddresses rs := by
  unfold frameAddresses
  by_cases h : r.kind = .usable <;> simp [h]

theorem zero_mem_regionStarts {regions : List MemoryRegion} {pos addr : ℕ}
    (h : (frameAddresses regions)[pos]? = some addr) : 0 ∈ regionStarts regions := by
  induction regions generalizing pos with
  | nil => cases h
  | cons r rs ih =>
    rw [regionStarts]
    split
    · exact List.mem_cons_self
    · rename_i hk
      rw [frameAddresses_cons,if_neg hk,List.nil_append] at h
      exact ih h

/-- Inside a region the frames follow one another. -/
theorem frameAddresses_succ {regions : List MemoryRegion} {pos addr : ℕ}
    (hpos : pos + 1 ∉ regionStarts regions) (h : (frameAddresses regions)[pos + 1]? = some addr) :
    ∃ before, (frameAddresses regions)[pos]? = some before ∧ addr = before + 4096 := by
  induction regions generalizing pos with
  | nil => cases h
  | cons r rs ih =>
    rw [frameAddresses_cons] at h ⊢
    rw [regionStarts] at hpos
    split at hpos
    · rename_i hk
      rw [if_pos hk] at h ⊢
      rw [List.mem_cons,List.mem_map] at hpos
      rcases Nat.lt_trichotomy (pos + 1) r.frameAddresses.length with hlt | heq | hgt
      · rw [List.getElem?_append_left hlt] at h
        rw [List.getElem?_append_left (by omega)]
        have hlen : r.frameAddresses.length = (r.stop.toNat - r.start.toNat + 4095) / 4096 :=
          List.length_range'
        unfold MemoryRegion.frameAddresses at h ⊢
        rw [List.getElem?_range' (by omega),Option.some_inj] at h
        exact ⟨_,List.getElem?_range' (by omega),by omega⟩
      · rw [List.getElem?_append_right heq.ge,heq,Nat.sub_self] at h
        exact absurd (Or.inr ⟨0,zero_mem_regionStarts h,by omega⟩) hpos
      · rw [List.getElem?_append_right hgt.le] at h
        rw [List.getElem?_append_right (by omega)]
        have hsub : pos + 1 - r.frameAddresses.length = pos - r.frameAddresses.length + 1 := by omega
        rw [hsub] at h
        refine ih (fun hmem => hpos (Or.inr ⟨_,hmem,?_⟩)) h
        omega
    · rename_i hk
      rw [if_neg hk,List.nil_append] at h ⊢
      exact ih hpos h

/-- A frame that is not at a gap follows the one visited before it. -/
theorem not_gapAt_iff {regions : List MemoryRegion} {pos start : ℕ} (hlt : pos < 2^64)
    (h : frameAt regions pos = some start) :
    ¬GapAt regions pos ↔ (frameAt regions (positionBefore pos)).map (· + 4096) = some start := by
  unfold GapAt
  rw [not_and,not_not,h]
  constructor
  · intro hgap
    by_cases hmem : pos ∈ regionStarts regions
    · exact (hgap hmem).symm
    · obtain ⟨addr,haddr,rfl⟩ := Option.map_eq_some_iff.mp h
      obtain ⟨p,rfl⟩ := Nat.exists_eq_succ_of_ne_zero fun h0 : pos = 0 =>
        hmem (h0 ▸ zero_mem_regionStarts haddr)
      obtain ⟨before,hbefore,rfl⟩ := frameAddresses_succ hmem haddr
      have hp : positionBefore (p + 1) = p := by
        unfold positionBefore
        omega
      rw [hp,frameAt,hbefore,Option.map_some,Option.map_some,alignDown_add]
  · intro heq _
    exact heq.symm

theorem positionBefore_add {next i : ℕ} (h : 1 ≤ i) :
    positionBefore ((next + i) % 2^64) = (next + (i - 1)) % 2^64 := by
  unfold positionBefore
  omega

section
variable {build : Profile} {a a' : BootInfoFrameAllocator}

theorem reserveFrames_ok {k : ℕ} (h : reserveFrames build k a = .ok (true,a')) :
    ∃ frames : List PhysFrame, a.allocateFrames build k = .ok (frames.map some,a') := by
  induction k generalizing a with
  | zero =>
    cases Except.ok.inj h
    exact ⟨[],rfl⟩
  | succ k ih =>
    obtain ⟨⟨frame,a₁⟩,hf,h⟩ := bind_inv h
    have hframe : a.allocateFrame build = .ok (frame,a₁) := hf
    cases frame with
    | none => cases Except.ok.inj h
    | some f =>
      obtain ⟨frames,hframes⟩ := ih h
      refine ⟨f :: frames,?_⟩
      simp only [BootInfoFrameAllocator.allocateFrames,hframe,bind,Except.bind,hframes,List.map_cons]
      rfl

/-- A call that returns a buffer took its pages one by one, the first of them being the
one it names, and zeroed as many bytes from there on. -/
theorem allocateDmaFrames_ok {memory memory' : Memory} {offset virt : VirtAddr} {pages : UInt64}
    {phys : PhysAddr} (hpages : 1 ≤ pages.toNat)
    (h : allocateDmaFrames build a memory offset pages = .ok (some (phys,virt),a',memory')) :
    ∃ first rest, a.allocateFrames build pages.toNat = .ok ((first :: rest).map some,a') ∧
      first.startAddress = phys ∧
      ∃ count, mulU64 build pages 4096 = .ok count ∧ memory' = memory.zero virt.1 count := by
  obtain ⟨⟨frame,a₁⟩,hf,h⟩ := bind_inv h
  have hframe : a.allocateFrame build = .ok (frame,a₁) := hf
  cases frame with
  | none => cases Except.ok.inj h
  | some f =>
    obtain ⟨v,_,h⟩ := bind_inv h
    obtain ⟨⟨reserved,a₂⟩,hr,h⟩ := bind_inv h
    cases reserved with
    | false => cases Except.ok.inj h
    | true =>
      obtain ⟨count,hc,h⟩ := bind_inv h
      cases Except.ok.inj h
      obtain ⟨rest,hrest⟩ := reserveFrames_ok hr
      obtain ⟨n,hn⟩ := Nat.exists_eq_add_of_le' hpages
      refine ⟨f,rest,?_,rfl,count,hc,rfl⟩
      rw [hn,Nat.add_sub_cancel] at hrest
      simp only [hn,BootInfoFrameAllocator.allocateFrames,hframe,bind,Except.bind,hrest,List.map_cons]
      rfl

theorem mulU64_le {pages size count : UInt64} (h : mulU64 build pages size = .ok count) :
    count.toNat ≤ pages.toNat * size.toNat := by
  unfold mulU64 at h
  split at h
  · cases Except.ok.inj h
    rw [UInt64.toNat_mul]
    exact Nat.mod_le _ _
  · cases h

/-- The frames one call took are the pages from `phys` on, and every byte it zeroed, `d`
bytes from `virt` and so `d` bytes from `phys`, lies in one of them. -/
structure ReservedBuffer (frames : List PhysFrame) (phys : PhysAddr) (virt : VirtAddr)
    (pages : ℕ) (memory memory' : Memory) : Prop where
  contiguous : frames.map (fun f => f.startAddress.1) = List.range' phys.1 pages 4096
  owned : ∀ addr, memory' addr ≠ memory addr → ∃ f ∈ frames,
    f.startAddress.1 ≤ phys.1 + (addr - virt.1).toNat ∧
      phys.1 + (addr - virt.1).toNat < f.startAddress.1 + 4096

/-- Contiguous frames hold every byte of as many pages. -/
theorem exists_frame_of_contiguous {frames : List PhysFrame} {phys pages d : ℕ}
    (h : frames.map (fun f => f.startAddress.1) = List.range' phys pages 4096)
    (hd : d < pages * 4096) :
    ∃ f ∈ frames, f.startAddress.1 ≤ phys + d ∧ phys + d < f.startAddress.1 + 4096 := by
  have hmem : phys + 4096 * (d / 4096) ∈ frames.map fun f => f.startAddress.1 := by
    rw [h]
    exact List.mem_range'.mpr ⟨d / 4096,by omega,rfl⟩
  obtain ⟨f,hf,heq⟩ := List.mem_map.mp hmem
  exact ⟨f,hf,by omega,by omega⟩

/-- A list is an arithmetic progression when each element after the first is the one
before it plus the step. -/
theorem eq_range'_iff (x step : ℕ) (xs : List ℕ) :
    x :: xs = List.range' x (xs.length + 1) step ↔
      ∀ i, 1 ≤ i → i < xs.length + 1 → (x :: xs)[i - 1]?.map (· + step) = (x :: xs)[i]? := by
  constructor
  · intro h i hi hlt
    rw [h,List.getElem?_range' (by omega),List.getElem?_range' hlt,Option.map_some,Option.some_inj]
    obtain ⟨j,rfl⟩ := Nat.exists_eq_add_of_le' hi
    rw [Nat.add_sub_cancel,Nat.mul_add,Nat.mul_one,Nat.add_assoc]
  · intro h
    induction xs generalizing x with
    | nil => rfl
    | cons y ys ih =>
      have hy := h 1 le_rfl (by simp)
      simp only [Nat.sub_self,List.getElem?_cons_zero,List.getElem?_cons_succ,Option.map_some,
        Option.some_inj] at hy
      subst hy
      rw [List.length_cons,List.range'_succ,← ih]
      intro i hi hlt
      obtain ⟨j,rfl⟩ := Nat.exists_eq_add_of_le' hi
      exact h (j + 1 + 1) (by omega) (by simp at hlt ⊢; omega)

end

/-- Two one-frame regions with a hole between them. -/
def holedMap : BootInfoFrameAllocator :=
  BootInfoFrameAllocator.init [⟨0x1000,0x2000,.usable⟩,⟨0x5000,0x6000,.usable⟩]

/-- The allocator once both frames were handed out. -/
def holedMapTaken : BootInfoFrameAllocator := {holedMap with next := 2}

def lowFrame : PhysFrame := .containingAddress ⟨0x1000,by decide⟩

def highFrame : PhysFrame := .containingAddress ⟨0x5000,by decide⟩

/-- With `phys_mem_offset` zero a virtual address is the physical one. -/
def lowVirt : VirtAddr := ⟨0x1000,by decide⟩

def filledMemory : Memory := fun _ => 1

theorem holedMap_allocateDmaFrames :
    allocateDmaFrames .dev holedMap filledMemory ⟨0,by decide⟩ 2 =
      .ok (some (lowFrame.startAddress,lowVirt),holedMapTaken,filledMemory.zero 0x1000 0x2000) := rfl

theorem holedMap_allocateFrames :
    holedMap.allocateFrames .dev 2 = .ok ([lowFrame,highFrame].map some,holedMapTaken) := rfl

end PolymorphOS
