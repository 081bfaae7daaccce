import PolymorphOS.FrameAllocator
import Mathlib

/-! Calls of `allocate_frame` on a well-formed memory map hand out the usable frames
one after another, each once. -/
namespace PolymorphOS

open BootInfoFrameAllocator

/-- What the bootloader promises of its usable regions. -/
structure WellMapped (regions : List MemoryRegion) : Prop where
  aligned : ∀ r ∈ regions, r.kind = .usable → 4096 ∣ r.start.toNat ∧ 4096 ∣ r.stop.toNat
  bounded : ∀ r ∈ regions, r.kind = .usable → r.stop.toNat ≤ 2^52
  disjoint : (regions.filter (·.kind = .usable)).Pairwise fun r s =>
    Disjoint (Set.Ico r.start.toNat r.stop.toNat) (Set.Ico s.start.toNat s.stop.toNat)

/-- Where the frames that fit in a region start, in order. -/
def MemoryRegion.frames (r : MemoryRegion) : List ℕ :=
  List.range' r.start.toNat ((r.stop.toNat - r.start.toNat) / 4096) 4096

/-- The frames of the usable regions, one region after the other. -/
def usableFrameStarts (regions : List MemoryRegion) : List ℕ :=
  (regions.filter (·.kind = .usable)).flatMap MemoryRegion.frames

theorem MemoryRegion.mem_frames {r : MemoryRegion} {addr : ℕ} (h : addr ∈ r.frames) :
    r.start.toNat ≤ addr ∧ addr + 4096 ≤ r.stop.toNat ∧ 4096 ∣ addr - r.start.toNat := by
  obtain ⟨i,hi,rfl⟩ := List.mem_range'.mp h
  have := Nat.div_mul_le_self (r.stop.toNat - r.start.toNat) 4096
  refine ⟨Nat.le_add_right _ _,by omega,⟨i,by omega⟩⟩

theorem mem_usableFrameStarts {regions : List MemoryRegion} {addr : ℕ}
    (h : addr ∈ usableFrameStarts regions) :
    ∃ r ∈ regions, r.kind = .usable ∧ addr ∈ r.frames := by
  obtain ⟨r,hr,haddr⟩ := List.mem_flatMap.mp h
  obtain ⟨hmem,hkind⟩ := List.mem_filter.mp hr
  exact ⟨r,hmem,of_decide_eq_true hkind,haddr⟩

namespace WellMapped

variable {regions : List MemoryRegion}

/-- With aligned bounds a region is divided without remainder. -/
theorem frameAddresses_eq (h : WellMapped regions) :
    frameAddresses regions = usableFrameStarts regions := by
  apply List.flatMap_congr
  intro r hr
  obtain ⟨hmem,hkind⟩ := List.mem_filter.mp hr
  obtain ⟨hstart,hstop⟩ := h.aligned r hmem (of_decide_eq_true hkind)
  unfold MemoryRegion.frameAddresses MemoryRegion.frames
  congr 1
  omega

theorem aligned_of_mem (h : WellMapped regions) {addr : ℕ} (ha : addr ∈ usableFrameStarts regions) :
    4096 ∣ addr := by
  obtain ⟨r,hr,hkind,hmem⟩ := mem_usableFrameStarts ha
  obtain ⟨hle,-,hdvd⟩ := r.mem_frames hmem
  have hstart := (h.aligned r hr hkind).1
  omega

theorem lt_of_mem (h : WellMapped regions) {addr : ℕ} (ha : addr ∈ usableFrameStarts regions) :
    addr < 2^52 := by
  obtain ⟨r,hr,hkind,hmem⟩ := mem_usableFrameStarts ha
  have hstop := (r.mem_frames hmem).2.1
  have := h.bounded r hr hkind
  omega

theorem nodup (h : WellMapped regions) : (usableFrameStarts regions).Nodup := by
  apply List.nodup_flatMap.mpr
  constructor
  · intro r _
    exact List.nodup_range' 4096 (by decide)
  · apply h.disjoint.imp
    intro r s hrs addr hr hs
    obtain ⟨hr₁,hr₂,-⟩ := r.mem_frames hr
    obtain ⟨hs₁,hs₂,-⟩ := s.mem_frames hs
    exact Set.disjoint_left.mp hrs ⟨hr₁,by omega⟩ ⟨hs₁,by omega⟩

theorem frameAt_eq (h : WellMapped regions) (pos : ℕ) :
    frameAt regions pos = (usableFrameStarts regions)[pos]? := by
  rw [frameAt,h.frameAddresses_eq]
  cases hx : (usableFrameStarts regions)[pos]? with
  | none => rfl
  | some addr =>
    rw [Option.map_some,alignDown_of_dvd (h.aligned_of_mem (List.mem_of_getElem? hx))]

end WellMapped

/-- What `frames`, the results of successive calls, owe the memory map. -/
structure FreshFrames (regions : List MemoryRegion) (frames : List (Option PhysFrame)) : Prop where
  inOrder : frames.reduceOption.map (fun f => f.startAddress.1) =
    (usableFrameStarts regions).take frames.length
  nodup : frames.reduceOption.Nodup
  inside : ∀ f ∈ frames.reduceOption, ∃ r ∈ regions, r.kind = .usable ∧
    r.start.toNat ≤ f.startAddress.1 ∧ f.startAddress.1 + 4096 ≤ r.stop.toNat
  exhausted : ∀ i j, i < j → j < frames.length → frames[i]? = some none → frames[j]? = some none

/-- Reading a list position by position takes its front. -/
theorem reduceOption_map_getElem? {A : Type*} (xs : List A) (k : ℕ) :
    ((List.range k).map (xs[·]?)).reduceOption = xs.take k := by
  induction k with
  | zero => rfl
  | succ k ih =>
    rw [List.range_succ,List.map_append,List.reduceOption_append,ih,List.map_singleton,
      List.reduceOption_singleton,← List.take_add_one]

theorem frameStart_eq_none {o : Option PhysFrame} (h : frameStart o = none) : o = none := by
  cases o with
  | none => rfl
  | some f => cases h

/-- Results that read the enumeration position by position are fresh frames. -/
theorem FreshFrames.of_map {regions : List MemoryRegion} (h : WellMapped regions)
    {frames : List (Option PhysFrame)} (hlen : (frames.map frameStart) =
      (List.range frames.length).map ((usableFrameStarts regions)[·]?)) :
    FreshFrames regions frames := by
  have htake : frames.reduceOption.map (fun f => f.startAddress.1) =
      (usableFrameStarts regions).take frames.length := by
    rw [← reduceOption_map_getElem?,← hlen]
    exact List.reduceOption_map.symm
  have hget : ∀ i, i < frames.length →
      frames[i]?.map frameStart = some (usableFrameStarts regions)[i]? := by
    intro i hi
    rw [← List.getElem?_map,hlen,List.getElem?_map,List.getElem?_range hi]
    rfl
  refine ⟨htake,?_,?_,?_⟩
  · apply List.Nodup.of_map fun f : PhysFrame => f.startAddress.1
    rw [htake]
    exact h.nodup.sublist (List.take_sublist _ _)
  · intro f hf
    have hmem : f.startAddress.1 ∈ usableFrameStarts regions := by
      apply List.mem_of_mem_take
      rw [← htake]
      exact List.mem_map.mpr ⟨f,hf,rfl⟩
    obtain ⟨r,hr,hkind,hin⟩ := mem_usableFrameStarts hmem
    obtain ⟨hstart,hstop,-⟩ := r.mem_frames hin
    exact ⟨r,hr,hkind,hstart,hstop⟩
  · intro i j hij hj hi
    have hnone : (usableFrameStarts regions)[i]? = none := by
      have := hget i (hij.trans hj)
      rw [hi] at this
      exact (Option.some.inj this).symm
    have hnone' : (usableFrameStarts regions)[j]? = none := by
      rw [List.getElem?_eq_none_iff] at hnone ⊢
      omega
    have hj' := hget j hj
    rw [hnone',List.getElem?_eq_getElem hj,Option.map_some,Option.some_inj] at hj'
    rw [List.getElem?_eq_getElem hj,frameStart_eq_none hj']

/-- Up to the point where a release build's counter wraps around, every call returns a
fresh frame; a debug build panics at that point. -/
theorem allocateFrames_fresh (build : Profile) {regions : List MemoryRegion}
    (h : WellMapped regions) (k : ℕ) (hk : build = .release → k ≤ 2^64) :
    match (BootInfoFrameAllocator.init regions).allocateFrames build k with
    | .ok (frames,_) => frames.length = k ∧ FreshFrames regions frames
    | .error _ => build = .dev ∧ 2^64 ≤ k := by
  cases hrun : (BootInfoFrameAllocator.init regions).allocateFrames build k with
  | error =>
    by_contra hn
    have hdev : build = .dev → (BootInfoFrameAllocator.init regions).next.toNat + k < 2^64 := by
      intro hb
      rw [not_and,not_le] at hn
      simpa [BootInfoFrameAllocator.init] using hn hb
    have hmap : ∀ addr ∈ frameAddresses regions, addr < 2^52 := by
      intro addr ha
      exact h.lt_of_mem (h.frameAddresses_eq ▸ ha)
    obtain ⟨frames,a',hok⟩ := allocateFrames_total k hmap hdev
    rw [hrun] at hok
    cases hok
  | ok r =>
    obtain ⟨hframes,-,-,hdev⟩ := allocateFrames_ok hrun
    have hk64 : k ≤ 2^64 := by
      cases build with
      | dev =>
        have := hdev rfl
        omega
      | release => exact hk rfl
    have hlen : r.1.length = k := by
      simpa using congrArg List.length hframes
    refine ⟨hlen,.of_map h ?_⟩
    rw [hframes,hlen]
    apply List.map_congr_left
    intro i hi
    have hik := List.mem_range.mp hi
    rw [← h.frameAt_eq,show (BootInfoFrameAllocator.init regions).next.toNat = 0 from rfl,
      Nat.zero_add,Nat.mod_eq_of_lt (hik.trans_le hk64)]
    rfl

/-- One usable frame, then memory of another kind. -/
def oneFrameMap : List MemoryRegion := [⟨0,4096,.usable⟩,⟨4096,8192,.bootloader⟩]

theorem oneFrameMap_wellMapped : WellMapped oneFrameMap where
  aligned := by
    intro r hr hkind
    simp only [oneFrameMap,List.mem_cons,List.not_mem_nil,or_false] at hr
    rcases hr with rfl | rfl
    · exact ⟨by decide,by decide⟩
    · cases hkind
  bounded := by
    intro r hr hkind
    simp only [oneFrameMap,List.mem_cons,List.not_mem_nil,or_false] at hr
    rcases hr with rfl | rfl
    · decide
    · cases hkind
  disjoint := List.pairwise_singleton _ _

/-- Three calls in a debug build: the one usable frame, then nothing. -/
theorem allocateFrames_fresh_oneFrameMap :
    match (BootInfoFrameAllocator.init oneFrameMap).allocateFrames .dev 3 with
    | .ok (frames,_) => frames.length = 3 ∧ FreshFrames oneFrameMap frames
    | .error _ => Profile.dev = .dev ∧ 2^64 ≤ 3 :=
  allocateFrames_fresh .dev oneFrameMap_wellMapped 3 (fun h => Profile.noConfusion h)

/-- A release build hands out the first frame again once the counter has wrapped around. -/
theorem allocateFrames_wraps :
    ¬∀ (build : Profile) (regions : List MemoryRegion), WellMapped regions →
      ∀ k frames a', (BootInfoFrameAllocator.init regions).allocateFrames build k = .ok (frames,a') →
        FreshFrames regions frames := by
  intro h
  have htotal : ∃ frames a', (BootInfoFrameAllocator.init oneFrameMap).allocateFrames .release
      (2^64 + 1) = .ok (frames,a') := by
    apply allocateFrames_total
    · intro addr ha
      exact oneFrameMap_wellMapped.lt_of_mem (oneFrameMap_wellMapped.frameAddresses_eq ▸ ha)
    · exact fun hb => Profile.noConfusion hb
  obtain ⟨frames,a',hrun⟩ := htotal
  have hfresh := h _ _ oneFrameMap_wellMapped _ _ _ hrun
  obtain ⟨hframes,-⟩ := allocateFrames_ok hrun
  have hlen : frames.length = 2^64 + 1 := by
    simpa only [List.length_map,List.length_range] using congrArg List.length hframes
  have hget : ∀ i, i < 2^64 + 1 →
      frames[i]?.map frameStart = some (frameAt oneFrameMap (i % 2^64)) := by
    intro i hi
    rw [← List.getElem?_map,hframes,List.getElem?_map,List.getElem?_range hi,Option.map_some,
      show (BootInfoFrameAllocator.init oneFrameMap).next.toNat = 0 from rfl,Nat.zero_add]
    rfl
  have hsecond : frames[1]? = some none := by
    have hone := hget 1 (by norm_num)
    have hlt : 1 < frames.length := by omega
    have htwo : frameAt oneFrameMap (1 % 2^64) = none := by decide
    rw [List.getElem?_eq_getElem hlt,Option.map_some,Option.some_inj,htwo] at hone
    rw [List.getElem?_eq_getElem hlt,frameStart_eq_none hone]
  have hlast := hfresh.exhausted 1 (2^64) (by norm_num) (by omega) hsecond
  have hwrap := hget (2^64) (by norm_num)
  have hzero : frameAt oneFrameMap 0 = some 0 := by decide
  rw [hlast,Nat.mod_self,hzero,Option.map_some,frameStart_none] at hwrap
  cases hwrap

end PolymorphOS
