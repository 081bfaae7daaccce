import PolymorphOS.Returns
import PolymorphOS.RustCore

/-! `memory.rs`: physical frames handed out by position in the enumeration of the
bootloader's usable regions. -/
namespace PolymorphOS

/-- A physical address; `PhysAddr` holds 52 bits. -/
abbrev PhysAddr := {addr : ℕ // addr < 2^52}

def PhysAddr.new (addr : ℕ) : Except Panic PhysAddr :=
  if h : addr < 2^52 then .ok ⟨addr,h⟩
  else .error (.explicit "physical addresses must not have any bits in the range 52 to 64 set")

/-- A 4 KiB frame. -/
structure PhysFrame where
  startAddress : PhysAddr
  aligned : 4096 ∣ startAddress.1
  deriving DecidableEq

/-- `align_down(addr, 4096)`. -/
def alignDown (addr : ℕ) : ℕ := addr - addr % 4096

theorem dvd_alignDown (addr : ℕ) : 4096 ∣ alignDown addr := Nat.dvd_sub_mod addr

theorem alignDown_of_dvd {addr : ℕ} (h : 4096 ∣ addr) : alignDown addr = addr := by
  rw [alignDown,Nat.mod_eq_zero_of_dvd h,Nat.sub_zero]

theorem alignDown_add (addr : ℕ) : alignDown (addr + 4096) = alignDown addr + 4096 := by
  unfold alignDown
  have := Nat.mod_le addr 4096
  omega

def PhysFrame.containingAddress (addr : PhysAddr) : PhysFrame where
  startAddress := ⟨alignDown addr.1,(Nat.sub_le _ _).trans_lt addr.2⟩
  aligned := dvd_alignDown addr.1

inductive MemoryRegionKind
  | usable | bootloader
  | unknownUefi (code : UInt32)
  | unknownBios (code : UInt32)
  deriving DecidableEq

/-- The bytes from `start` up to, not including, `stop`. -/
structure MemoryRegion where
  start : UInt64
  stop : UInt64
  kind : MemoryRegionKind
  deriving DecidableEq

/-- `(start..end).step_by(4096)`. -/
def MemoryRegion.frameAddresses (r : MemoryRegion) : List ℕ :=
  List.range' r.start.toNat ((r.stop.toNat - r.start.toNat + 4095) / 4096) 4096

def frameAddresses (regions : List MemoryRegion) : List ℕ :=
  (regions.filter (·.kind = .usable)).flatMap MemoryRegion.frameAddresses

/-- `Iterator::nth` over items that are computed on the way, each of which may panic. -/
def nth {A : Type*} : List (Except Panic A) → ℕ → Except Panic (Option A)
  | [],_ => .ok none
  | x :: _,0 => x.map some
  | x :: xs,n + 1 => do
    let _ ← x
    nth xs n

theorem getElem?_of_nth {A : Type*} {xs : List (Except Panic A)} {n : ℕ} {o : Option A}
    (h : nth xs n = .ok o) : xs[n]? = o.map .ok := by
  induction xs generalizing n with
  | nil =>
    cases Except.ok.inj h
    rfl
  | cons x xs ih =>
    cases x with
    | error => cases n <;> cases h
    | ok a =>
      cases n with
      | zero =>
        cases Except.ok.inj h
        rfl
      | succ n =>
        rw [List.getElem?_cons_succ]
        exact ih h

theorem nth_ok {A : Type*} {xs : List (Except Panic A)} (h : ∀ x ∈ xs, ∃ a, x = .ok a) (n : ℕ) :
    ∃ o, nth xs n = .ok o := by
  induction xs generalizing n with
  | nil => exact ⟨none,rfl⟩
  | cons x xs ih =>
    obtain ⟨a,rfl⟩ := h x List.mem_cons_self
    cases n with
    | zero => exact ⟨some a,rfl⟩
    | succ n => exact ih (fun y hy => h y (List.mem_cons_of_mem _ hy)) n

/-- `next` is a `usize`. -/
structure BootInfoFrameAllocator where
  memoryRegions : List MemoryRegion
  next : UInt64

namespace BootInfoFrameAllocator

def init (memoryRegions : List MemoryRegion) : BootInfoFrameAllocator := ⟨memoryRegions,0⟩

def usableFrames (a : BootInfoFrameAllocator) : List (Except Panic PhysFrame) :=
  (frameAddresses a.memoryRegions).map fun addr =>
    (PhysAddr.new addr).map PhysFrame.containingAddress

def allocateFrame (build : Profile) (a : BootInfoFrameAllocator) :
    Except Panic (Option PhysFrame × BootInfoFrameAllocator) := do
  let frame ← nth a.usableFrames a.next.toNat
  let next ← addU64 build a.next 1
  pure (frame,{a with next})

/-- What `k` calls made one after another return. -/
def allocateFrames (build : Profile) : ℕ → BootInfoFrameAllocator →
    Except Panic (List (Option PhysFrame) × BootInfoFrameAllocator)
  | 0,a => pure ([],a)
  | k + 1,a => do
    let (frame,a) ← a.allocateFrame build
    let (frames,a) ← allocateFrames build k a
    pure (frame :: frames,a)

end BootInfoFrameAllocator

/-- Where the frame at a position of the enumeration starts. -/
def frameAt (regions : List MemoryRegion) (pos : ℕ) : Option ℕ :=
  (frameAddresses regions)[pos]?.map alignDown

/-- Where an allocated frame starts. -/
def frameStart (frame : Option PhysFrame) : Option ℕ := frame.map fun f => f.startAddress.1

@[simp] theorem frameStart_some (f : PhysFrame) : frameStart (some f) = some f.startAddress.1 := rfl
@[simp] theorem frameStart_none : frameStart none = none := rfl

namespace BootInfoFrameAllocator

variable {build : Profile} {a a' : BootInfoFrameAllocator}

theorem next_ok {next next' : UInt64} (h : addU64 build next 1 = .ok next') :
    next'.toNat = (next.toNat + 1) % 2^64 ∧ (build = .dev → next.toNat + 1 < 2^64) := by
  unfold addU64 at h
  split at h
  · rename_i hok
    cases Except.ok.inj h
    refine ⟨by simp [UInt64.toNat_add],fun hb => ?_⟩
    simpa [hb] using hok
  · cases h

theorem frameStart_of_nth {frame : Option PhysFrame} {pos : ℕ}
    (h : nth a.usableFrames pos = .ok frame) : frameStart frame = frameAt a.memoryRegions pos := by
  have hget := getElem?_of_nth h
  rw [usableFrames,List.getElem?_map] at hget
  rw [frameAt]
  cases hx : (frameAddresses a.memoryRegions)[pos]? with
  | none =>
    rw [hx] at hget
    cases frame with
    | none => rfl
    | some f => cases hget
  | some addr =>
    rw [hx] at hget
    cases frame with
    | none => cases hget
    | some f =>
      rw [Option.map_some,Option.map_some,Option.some_inj,PhysAddr.new] at hget
      split at hget
      · cases Except.ok.inj hget
        rfl
      · cases hget

/-- What a call that returns has done. -/
theorem allocateFrame_ok {frame : Option PhysFrame} (h : a.allocateFrame build = .ok (frame,a')) :
    frameStart frame = frameAt a.memoryRegions a.next.toNat ∧
      a'.memoryRegions = a.memoryRegions ∧ a'.next.toNat = (a.next.toNat + 1) % 2^64 ∧
      (build = .dev → a.next.toNat + 1 < 2^64) := by
  obtain ⟨_,hn,h⟩ := bind_inv h
  obtain ⟨next,hb,h⟩ := bind_inv h
  cases Except.ok.inj h
  exact ⟨frameStart_of_nth hn,rfl,next_ok hb⟩

theorem allocateFrame_total (hmap : ∀ addr ∈ frameAddresses a.memoryRegions, addr < 2^52)
    (hnext : build = .dev → a.next.toNat + 1 < 2^64) :
    ∃ frame a', a.allocateFrame build = .ok (frame,a') := by
  obtain ⟨o,ho⟩ : ∃ o, nth a.usableFrames a.next.toNat = .ok o := by
    apply nth_ok
    intro x hx
    obtain ⟨addr,haddr,rfl⟩ := List.mem_map.mp hx
    refine ⟨.containingAddress ⟨addr,hmap addr haddr⟩,?_⟩
    rw [PhysAddr.new,dif_pos (hmap addr haddr)]
    rfl
  have hb : addU64 build a.next 1 = .ok (a.next + 1) := by
    apply if_pos
    cases build with
    | dev => exact Or.inl (hnext rfl)
    | release => exact Or.inr rfl
  refine ⟨o,{a with next := a.next + 1},?_⟩
  rw [allocateFrame,ho,hb]
  rfl

theorem allocateFrames_succ_ok {k : ℕ} {frames : List (Option PhysFrame)}
    (h : a.allocateFrames build (k + 1) = .ok (frames,a')) :
    ∃ frame a₁ rest, a.allocateFrame build = .ok (frame,a₁) ∧
      a₁.allocateFrames build k = .ok (rest,a') ∧ frames = frame :: rest := by
  obtain ⟨⟨frame,a₁⟩,hf,h⟩ := bind_inv h
  obtain ⟨⟨rest,a₂⟩,hr,h⟩ := bind_inv h
  cases Except.ok.inj h
  exact ⟨frame,a₁,rest,hf,hr,rfl⟩

/-- The `i`-th of `k` calls returns the frame `i` positions on, the counter being 64 bits wide. -/
theorem allocateFrames_ok {k : ℕ} {frames : List (Option PhysFrame)}
    (h : a.allocateFrames build k = .ok (frames,a')) :
    frames.map frameStart =
        (List.range k).map (fun i => frameAt a.memoryRegions ((a.next.toNat + i) % 2^64)) ∧
      a'.memoryRegions = a.memoryRegions ∧ a'.next.toNat = (a.next.toNat + k) % 2^64 ∧
      (build = .dev → a.next.toNat + k < 2^64) := by
  induction k generalizing a frames with
  | zero =>
    cases Except.ok.inj h
    have := a'.next.toNat_lt
    exact ⟨rfl,rfl,by omega,fun _ => this⟩
  | succ k ih =>
    obtain ⟨frame,a₁,rest,hf,hr,rfl⟩ := allocateFrames_succ_ok h
    obtain ⟨hstart,hmap,hnext,hdev⟩ := allocateFrame_ok hf
    obtain ⟨ihs,ihm,ihn,ihd⟩ := ih hr
    have hlt := a.next.toNat_lt
    refine ⟨?_,ihm.trans hmap,by omega,fun hb => ?_⟩
    · rw [List.map_cons,ihs,List.range_succ_eq_map,List.map_cons,List.map_map,hstart,hmap]
      congr 1
      · rw [Nat.add_zero,Nat.mod_eq_of_lt hlt]
      · apply List.map_congr_left
        intro i _
        simp only [Function.comp_apply]
        congr 1
        omega
    · have := hdev hb
      have := ihd hb
      omega

theorem allocateFrames_total (k : ℕ) (hmap : ∀ addr ∈ frameAddresses a.memoryRegions, addr < 2^52)
    (hnext : build = .dev → a.next.toNat + k < 2^64) :
    ∃ frames a', a.allocateFrames build k = .ok (frames,a') := by
  induction k generalizing a with
  | zero => exact ⟨[],a,rfl⟩
  | succ k ih =>
    obtain ⟨frame,a₁,hf⟩ := allocateFrame_total hmap fun hb => by
      have := hnext hb
      omega
    obtain ⟨-,hm,hn,hd⟩ := allocateFrame_ok hf
    obtain ⟨frames,a',hr⟩ := ih (a := a₁) (hm ▸ hmap) fun hb => by
      have := hnext hb
      have := hd hb
      omega
    refine ⟨frame :: frames,a',?_⟩
    simp only [allocateFrames,hf,bind,Except.bind,hr,pure,Except.pure]

end BootInfoFrameAllocator
end PolymorphOS
