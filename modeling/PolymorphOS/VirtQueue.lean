import PolymorphOS.LinkedList
import PolymorphOS.RustCore

/-! `virtqueue.rs`, and what the GPU driver does to a queue: descriptors come off the free list,
are filled in, published, and threaded back. -/
namespace PolymorphOS

/-- `VIRTQ_DESC_F_NEXT`. -/
def virtqDescFNext : UInt16 := 1

/-- `VIRTQ_DESC_F_WRITE`. -/
def virtqDescFWrite : UInt16 := 2

structure VirtqDesc where
  addr : UInt64
  len : UInt32
  flags : UInt16
  next : UInt16

structure VirtqAvail where
  idx : UInt16
  ring : Fin 64 → UInt16

structure VirtQueue where
  descriptors : Fin 64 → VirtqDesc
  available : VirtqAvail
  freeHead : UInt16
  numFree : UInt16
  lastUsedIdx : UInt16

namespace VirtQueue

/-- The last descriptor's `next` stays zero. -/
def new : VirtQueue where
  descriptors i := ⟨0,0,0,if i.1 < 63 then UInt16.ofNat (i.1 + 1) else 0⟩
  available := ⟨0,fun _ => 0⟩
  freeHead := 0
  numFree := 64
  lastUsedIdx := 0

/-- The descriptor of an index. -/
def deref (i : UInt16) : Option (Fin 64) :=
  if h : i.toNat < 64 then some ⟨i.toNat,h⟩ else none

/-- `descriptors[i]` is checked. -/
def index (i : UInt16) : Except Panic (Fin 64) :=
  match deref i with
  | some i => .ok i
  | none => .error .indexOutOfBounds

def link (vq : VirtQueue) (i : Fin 64) : UInt16 := (vq.descriptors i).next

/-- Following `next` from `free_head`. -/
def walk (vq : VirtQueue) (n : ℕ) : Option (List (Fin 64)) :=
  LinkedList.walk deref vq.link n vq.freeHead

/-- `n` descriptors leave the free list, which goes on at `next` of the last of them. -/
def unlink (build : Profile) (vq : VirtQueue) (last : Fin 64) (n : UInt16) :
    Except Panic VirtQueue := do
  let numFree ← subU16 build vq.numFree n
  .ok {vq with freeHead := vq.link last,numFree}

/-- A descriptor's `addr`, `len` and `flags`. -/
def load (vq : VirtQueue) (i : Fin 64) (addr : UInt64) (len : UInt32) (flags : UInt16) : VirtQueue :=
  {vq with descriptors := Function.update vq.descriptors i ⟨addr,len,flags,vq.link i⟩}

def setNext (vq : VirtQueue) (i : Fin 64) (next : UInt16) : VirtQueue :=
  {vq with descriptors := Function.update vq.descriptors i {vq.descriptors i with next}}

/-- The slot of the available ring that the `n`-th head goes to. -/
def slot (n : ℕ) : Fin 64 := ⟨n % 64,Nat.mod_lt n (by decide)⟩

def setSlot (vq : VirtQueue) (n : ℕ) (head : Fin 64) : VirtQueue :=
  let ring := Function.update vq.available.ring (slot n) (UInt16.ofNat head.1)
  {vq with available := {vq.available with ring}}

/-- `available.idx.fetch_add(n)` wraps. -/
def bump (vq : VirtQueue) (n : UInt16) : VirtQueue :=
  {vq with available := {vq.available with idx := vq.available.idx + n}}

/-- The next slot of the available ring gets a head, and the device may see it. -/
def publish (vq : VirtQueue) (head : Fin 64) : VirtQueue :=
  (vq.setSlot vq.available.idx.toNat head).bump 1

/-- A chain from `head` to `last` goes back in front of the free list. -/
def relink (vq : VirtQueue) (head last : Fin 64) : VirtQueue :=
  {vq.setNext last vq.freeHead with freeHead := UInt16.ofNat head.1}

def addFree (build : Profile) (vq : VirtQueue) (n : UInt16) : Except Panic VirtQueue := do
  let numFree ← addU16 build vq.numFree n
  .ok {vq with numFree}

/-- The free list is threaded through these descriptors, each once, and counts them. -/
structure Free (vq : VirtQueue) (l : List (Fin 64)) : Prop where
  segment : ∃ t, LinkedList.Segment deref vq.link vq.freeHead l t
  nodup : l.Nodup
  numFree : vq.numFree.toNat = l.length

/-- A published chain: the command, which the device reads, then the reply, which it writes. -/
structure Chain (vq : VirtQueue) (head reply : Fin 64) : Prop where
  distinct : head ≠ reply
  command : (vq.descriptors head).flags = virtqDescFNext
  next : deref (vq.link head) = some reply
  reply : (vq.descriptors reply).flags = virtqDescFWrite

/-- The heads published so far: the available ring holds the latest 64 of them, the `k`-th in
slot `k mod 64`, and `idx` counts them all. -/
structure Logged (vq : VirtQueue) (published : List (Fin 64)) : Prop where
  idx : vq.available.idx = UInt16.ofNat published.length
  ring : ∀ k (hk : k < published.length), published.length ≤ k + 64 →
    vq.available.ring (slot k) = UInt16.ofNat (published.get ⟨k,hk⟩).1

/-- The indices that wrap at 2^16 find the same slots, 64 being a divisor of it. -/
theorem slot_ofNat (n : ℕ) : slot (UInt16.ofNat n).toNat = slot n := by
  apply Fin.ext
  show (UInt16.ofNat n).toNat % 64 = n % 64
  rw [UInt16.toNat_ofNat']
  omega

theorem deref_ofNat (i : Fin 64) : deref (UInt16.ofNat i.1) = some i := by
  have hi : (UInt16.ofNat i.1).toNat = i.1 := UInt16.toNat_ofNat_of_lt (i.2.trans (by decide))
  have hlt : (UInt16.ofNat i.1).toNat < 64 := hi.trans_lt i.2
  rw [deref,dif_pos hlt]
  exact congrArg some (Fin.ext hi)

theorem eq_ofNat_of_deref {i : UInt16} {j : Fin 64} (h : deref i = some j) :
    i = UInt16.ofNat j.1 := by
  unfold deref at h
  split at h
  · cases Option.some.inj h
    exact UInt16.ofNat_toNat.symm
  · cases h

theorem index_of_deref {i : UInt16} {j : Fin 64} (h : deref i = some j) : index i = .ok j := by
  rw [index,h]

section Projections

variable (vq : VirtQueue) (i j k : Fin 64) (addr : UInt64) (len : UInt32) (flags next n : UInt16)

@[simp] theorem load_descriptors : (vq.load i addr len flags).descriptors =
    Function.update vq.descriptors i ⟨addr,len,flags,vq.link i⟩ := rfl
@[simp] theorem relink_numFree : (vq.relink i j).numFree = vq.numFree := rfl

@[simp] theorem load_link : (vq.load i addr len flags).link = vq.link := by
  funext j
  show (Function.update vq.descriptors i ⟨addr,len,flags,vq.link i⟩ j).next = vq.link j
  by_cases h : j = i
  · rw [h,Function.update_self]
  · rw [Function.update_of_ne h,link]

/-- Nothing but `next` of the one descriptor changes. -/
theorem setNext_apply : (vq.setNext i next).descriptors j =
    {vq.descriptors j with next := Function.update vq.link i next j} := by
  show Function.update vq.descriptors i {vq.descriptors i with next} j = _
  by_cases h : j = i
  · rw [h,Function.update_self,Function.update_self]
  · rw [Function.update_of_ne h,Function.update_of_ne h,link]

@[simp] theorem setNext_link : (vq.setNext i next).link = Function.update vq.link i next := by
  funext j
  rw [link,setNext_apply]

theorem relink_apply : (vq.relink i j).descriptors k =
    {vq.descriptors k with next := Function.update vq.link j vq.freeHead k} :=
  setNext_apply vq j k vq.freeHead

/-- The waiting calls write `next` of the head although it already leads to the reply. -/
theorem setNext_self {vq : VirtQueue} {i j : Fin 64} (h : deref (vq.link i) = some j) :
    vq.setNext i (UInt16.ofNat j.1) = vq := by
  rw [setNext,← eq_ofNat_of_deref h]
  exact congrArg (fun d => {vq with descriptors := d}) (Function.update_eq_self i vq.descriptors)

end Projections

namespace Free

variable {vq vq' : VirtQueue} {l : List (Fin 64)} {a b : Fin 64}

theorem new : Free VirtQueue.new (List.finRange 64) where
  segment := LinkedList.exists_segment (n := 64) (by decide)
  nodup := List.nodup_finRange 64
  numFree := (List.length_finRange (n := 64)).symm

theorem walk_eq (h : vq.Free l) : vq.walk l.length = some l :=
  h.segment.elim fun _ hs => hs.walk_eq

theorem exists_four (h : 4 ≤ l.length) : ∃ a b c e r, l = a :: b :: c :: e :: r := by
  match l,h with
  | a :: b :: c :: e :: r,_ => exact ⟨a,b,c,e,r,rfl⟩

theorem head (h : vq.Free (a :: l)) : deref vq.freeHead = some a :=
  h.segment.elim fun _ hs => (LinkedList.Segment.cons_iff.mp hs).1

theorem next (h : vq.Free (a :: b :: l)) : deref (vq.link a) = some b :=
  h.segment.elim fun _ hs =>
    (LinkedList.Segment.cons_iff.mp (LinkedList.Segment.cons_iff.mp hs).2).1

/-- The links that lead to the first four descriptors. -/
theorem links {c e : Fin 64} (h : vq.Free (a :: b :: c :: e :: l)) :
    deref (vq.link a) = some b ∧ deref (vq.link b) = some c ∧ deref (vq.link c) = some e := by
  obtain ⟨t,ht⟩ := h.segment
  have hb := (LinkedList.Segment.cons_iff.mp ht).2
  have hc := (LinkedList.Segment.cons_iff.mp hb).2
  have he := (LinkedList.Segment.cons_iff.mp hc).2
  exact ⟨(LinkedList.Segment.cons_iff.mp hb).1,(LinkedList.Segment.cons_iff.mp hc).1,
    (LinkedList.Segment.cons_iff.mp he).1⟩

/-- The list does not depend on anything but the links. -/
theorem congr (h : vq.Free l) (hlink : vq'.link = vq.link) (hhead : vq'.freeHead = vq.freeHead)
    (hnum : vq'.numFree = vq.numFree) : vq'.Free l where
  segment := by rw [hlink,hhead]; exact h.segment
  nodup := h.nodup
  numFree := hnum ▸ h.numFree

theorem load {i : Fin 64} {addr : UInt64} {len : UInt32} {flags : UInt16} (h : vq.Free l) :
    (vq.load i addr len flags).Free l := h.congr (load_link ..) rfl rfl

/-- Descriptors leave at the front. -/
theorem unlink (build : Profile) {n : UInt16} {taken : List (Fin 64)}
    (h : vq.Free (taken ++ a :: l)) (hn : n.toNat = taken.length + 1) :
    ∃ vq', vq.unlink build a n = .ok vq' ∧ vq'.Free l ∧ vq'.descriptors = vq.descriptors ∧
      vq'.available = vq.available := by
  have hlen : (taken ++ a :: l).length = n.toNat + l.length := by
    rw [List.length_append,List.length_cons,hn]
    omega
  have hle : n ≤ vq.numFree := by
    rw [UInt16.le_iff_toNat_le,h.numFree,hlen]
    exact Nat.le_add_right _ _
  refine ⟨{vq with freeHead := vq.link a,numFree := vq.numFree - n},?_,⟨?_,?_,?_⟩,rfl,rfl⟩
  · simp only [VirtQueue.unlink,subU16_ok build hle,bind,Except.bind]
  · obtain ⟨t,ht⟩ := h.segment
    obtain ⟨u,_,hu⟩ := ht.split
    exact ⟨t,(LinkedList.Segment.cons_iff.mp hu).2⟩
  · exact (List.nodup_cons.mp (List.nodup_append.mp h.nodup).2.1).2
  · show (vq.numFree - n).toNat = l.length
    rw [UInt16.toNat_sub_of_le _ _ hle,h.numFree,hlen,Nat.add_sub_cancel_left]

/-- A chain comes back in front, before it is counted. -/
theorem relink (h : ∃ t, LinkedList.Segment deref vq.link vq.freeHead l t) (hab : deref (vq.link a) = some b)
    (hnd : (a :: b :: l).Nodup) :
    ∃ t, LinkedList.Segment deref (vq.relink a b).link (vq.relink a b).freeHead (a :: b :: l) t := by
  obtain ⟨t,ht⟩ := h
  have hlink : (vq.relink a b).link = Function.update vq.link b vq.freeHead :=
    setNext_link vq b vq.freeHead
  have hne : a ≠ b := fun he => (List.nodup_cons.mp hnd).1 (he ▸ List.mem_cons_self)
  rw [hlink]
  exact ⟨t,ht.push (deref_ofNat a) hab hne (List.nodup_cons.mp (List.nodup_cons.mp hnd).2).1⟩

/-- What came back is counted. -/
theorem addFree (build : Profile) {n : UInt16}
    (hs : ∃ t, LinkedList.Segment deref vq.link vq.freeHead l t) (hnd : l.Nodup)
    (hnum : vq.numFree.toNat + n.toNat = l.length) :
    ∃ vq', vq.addFree build n = .ok vq' ∧ vq'.Free l ∧ vq'.descriptors = vq.descriptors ∧
      vq'.available = vq.available := by
  have hle : l.length ≤ 64 := hnd.length_le_card.trans_eq (Fintype.card_fin 64)
  have hlt : vq.numFree.toNat + n.toNat < 2^16 := by omega
  refine ⟨{vq with numFree := vq.numFree + n},?_,⟨hs,hnd,?_⟩,rfl,rfl⟩
  · simp only [VirtQueue.addFree,addU16_ok build hlt,bind,Except.bind]
  · show (vq.numFree + n).toNat = l.length
    rw [UInt16.toNat_add,Nat.mod_eq_of_lt hlt,hnum]

end Free

namespace Chain

variable {vq : VirtQueue} {head reply i : Fin 64}

/-- Only the command's flags and link and the reply's flags matter. -/
theorem congr {vq' : VirtQueue} (h : vq.Chain head reply) (hlink : vq'.link head = vq.link head)
    (hflags : ∀ j, (vq'.descriptors j).flags = (vq.descriptors j).flags) :
    vq'.Chain head reply where
  distinct := h.distinct
  command := (hflags head).trans h.command
  next := hlink ▸ h.next
  reply := (hflags reply).trans h.reply

theorem of_descriptors {vq' : VirtQueue} (h : vq.Chain head reply)
    (hdesc : vq'.descriptors = vq.descriptors) : vq'.Chain head reply := by
  apply h.congr
  · rw [link,link,hdesc]
  · intro j
    rw [hdesc]

theorem load {addr replyAddr : UInt64} {len replyLen : UInt32} (hne : head ≠ reply)
    (hnext : deref (vq.link head) = some reply) :
    ((vq.load head addr len virtqDescFNext).load reply replyAddr replyLen virtqDescFWrite).Chain
      head reply where
  distinct := hne
  command := by
    rw [load_descriptors,Function.update_of_ne hne,load_descriptors,Function.update_self]
  next := by
    rw [load_link,load_link]
    exact hnext
  reply := by rw [load_descriptors,Function.update_self]

/-- Filling in another descriptor leaves the chain. -/
theorem load_of_ne {addr : UInt64} {len : UInt32} {flags : UInt16} (h : vq.Chain head reply)
    (hhead : head ≠ i) (hreply : reply ≠ i) : (vq.load i addr len flags).Chain head reply where
  distinct := h.distinct
  command := by
    rw [load_descriptors,Function.update_of_ne hhead]
    exact h.command
  next := by
    rw [load_link]
    exact h.next
  reply := by
    rw [load_descriptors,Function.update_of_ne hreply]
    exact h.reply

/-- Giving back a chain that ends in another descriptor changes nothing either: `next` of a
reply is no part of a chain. -/
theorem relink {a b : Fin 64} (h : vq.Chain head reply) (hne : head ≠ b) :
    (vq.relink a b).Chain head reply := by
  apply h.congr
  · show (vq.setNext b vq.freeHead).link head = vq.link head
    rw [setNext_link,Function.update_of_ne hne]
  · intro j
    rw [relink_apply]

end Chain

namespace Logged

variable {vq vq' : VirtQueue} {published : List (Fin 64)}

theorem new : Logged VirtQueue.new [] where
  idx := rfl
  ring _ hk := absurd hk (Nat.not_lt_zero _)

theorem congr (h : vq.Logged published) (heq : vq'.available = vq.available) :
    vq'.Logged published where
  idx := heq ▸ h.idx
  ring := heq ▸ h.ring

theorem slot_idx (h : vq.Logged published) (n : ℕ) :
    slot (vq.available.idx.toNat + n) = slot (published.length + n) := by
  apply Fin.ext
  show (vq.available.idx.toNat + n) % 64 = (published.length + n) % 64
  rw [h.idx,UInt16.toNat_ofNat']
  omega

/-- Publishing overwrites the slot of the head that is 64 heads old, and no other. -/
theorem publish (h : vq.Logged published) (head : Fin 64) :
    (vq.publish head).Logged (published ++ [head]) where
  idx := by
    show vq.available.idx + 1 = _
    rw [h.idx,List.length_append,List.length_singleton,UInt16.ofNat_add]
    rfl
  ring k hk hlast := by
    rw [List.length_append,List.length_singleton] at hk hlast
    show Function.update vq.available.ring (slot vq.available.idx.toNat) _ (slot k) = _
    have hslot := h.slot_idx 0
    rw [Nat.add_zero,Nat.add_zero] at hslot
    rw [hslot,List.get_eq_getElem]
    by_cases hlt : k < published.length
    · have hne : slot k ≠ slot published.length := by
        intro he
        have hmod : k % 64 = published.length % 64 := congrArg Fin.val he
        omega
      rw [Function.update_of_ne hne,List.getElem_append_left hlt]
      exact h.ring k hlt (by omega)
    · obtain rfl : k = published.length := by omega
      rw [Function.update_self,List.getElem_append_right le_rfl]
      simp only [Nat.sub_self,List.getElem_cons_zero]

/-- The two slots of one flush are those of two heads published one after the other, also where
`idx` wraps. -/
theorem publish_pair (h : vq.Logged published) (a b : Fin 64) :
    ((vq.setSlot vq.available.idx.toNat a).setSlot (vq.available.idx.toNat + 1) b).bump 2 =
      (vq.publish a).publish b := by
  have hslot := (h.publish a).slot_idx 0
  rw [List.length_append,List.length_singleton,Nat.add_zero,Nat.add_zero,← h.slot_idx 1] at hslot
  have hidx : vq.available.idx + 2 = vq.available.idx + 1 + 1 := (UInt16.add_assoc _ 1 1).symm
  unfold VirtQueue.publish VirtQueue.setSlot VirtQueue.bump at hslot ⊢
  simp only [hidx] at hslot ⊢
  rw [hslot]

end Logged
end VirtQueue
end PolymorphOS
