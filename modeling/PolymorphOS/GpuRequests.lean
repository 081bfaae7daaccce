import PolymorphOS.VirtioGpuRuns
import PolymorphOS.Returns

/-! The GPU calls that wait for a reply, what one of them does to the free list, and what many
do whose replies are errors. -/
namespace PolymorphOS

/-- The calls that spin until the device has replied. -/
inductive WaitingCall
  | getDisplayInfo
  | create2dCanvas (resourceId width height : UInt32)
  | attachBacking (resourceId : UInt32) (backBufferPhys : UInt64) (bufferLength : UInt32)
  | setScanout (scanoutId resourceId width height : UInt32)

/-- What a waiting call returns; only `get_display_info` has a value, the size of the monitor. -/
abbrev CallResult := Except String (Option (UInt32 × UInt32))

namespace WaitingCall

def command : WaitingCall → GpuCommand
  | .getDisplayInfo => VirtioGpuDriver.displayInfoCommand
  | .create2dCanvas resourceId width height =>
    VirtioGpuDriver.create2dCommand resourceId width height
  | .attachBacking resourceId backBufferPhys bufferLength =>
    VirtioGpuDriver.attachBackingCommand resourceId backBufferPhys bufferLength
  | .setScanout scanoutId resourceId width height =>
    VirtioGpuDriver.setScanoutCommand scanoutId resourceId width height

/-- The size of the reply envelope. -/
def replyLen : WaitingCall → UInt32
  | .getDisplayInfo => 408
  | _ => 24

/-- The whole call, with what it reads as its reply. -/
def exec (build : Profile) (d : VirtioGpuDriver) (reply : Reply) :
    WaitingCall → Except Panic (CallResult × VirtioGpuDriver)
  | .getDisplayInfo => (d.getDisplayInfo build reply).map (Prod.map (Except.map some) id)
  | .create2dCanvas resourceId width height =>
    (d.create2dCanvas build resourceId width height reply).map
      (Prod.map (Except.map fun _ => none) id)
  | .attachBacking resourceId backBufferPhys bufferLength =>
    (d.attachBacking build resourceId backBufferPhys bufferLength reply).map
      (Prod.map (Except.map fun _ => none) id)
  | .setScanout scanoutId resourceId width height =>
    (d.setScanout build scanoutId resourceId width height reply).map
      (Prod.map (Except.map fun _ => none) id)

/-- The type of a reply that reports success. -/
def success : WaitingCall → CommandTy
  | .getDisplayInfo => .respOkDisplayInfo
  | _ => .respOkNodata

def value (reply : Reply) : WaitingCall → Option (UInt32 × UInt32)
  | .getDisplayInfo => some (reply.rect.width,reply.rect.height)
  | _ => none

def failure : WaitingCall → String
  | .getDisplayInfo => "Failed to get display info"
  | .create2dCanvas _ _ _ => "GPU failed to create 2D canvas."
  | .attachBacking _ _ _ => "GPU failed to attach backing memory."
  | .setScanout _ _ _ _ => "GPU failed to set scanout."

/-- The reply decides. -/
def result (c : WaitingCall) (reply : Reply) : CallResult :=
  if reply.ty = c.success.code then .ok (c.value reply) else .error c.failure

/-- The calls that give their descriptors back: `get_display_info` always, the others only if
the device accepted the command. -/
def Accepted (reply : Reply) : WaitingCall → Prop
  | .getDisplayInfo => True
  | c => reply.ty = c.success.code

instance (reply : Reply) (c : WaitingCall) : Decidable (c.Accepted reply) :=
  match c with
  | .getDisplayInfo => .isTrue trivial
  | .create2dCanvas _ _ _ => inferInstanceAs (Decidable (_ = _))
  | .attachBacking _ _ _ => inferInstanceAs (Decidable (_ = _))
  | .setScanout _ _ _ _ => inferInstanceAs (Decidable (_ = _))

/-- The call from the end of its spin loop on. -/
def finish (build : Profile) (c : WaitingCall) (d : VirtioGpuDriver) (headIdx nextIdx : Fin 64)
    (reply : Reply) : Except Panic VirtioGpuDriver :=
  if c.Accepted reply then (d.wake reply.usedIdx).reclaim build headIdx nextIdx
  else .ok (d.wake reply.usedIdx)

/-- The three calls that `request` is the body of. -/
theorem request_eq {build : Profile} {c : WaitingCall} {d : VirtioGpuDriver} {reply : Reply}
    (hlen : c.replyLen = 24) (haccepted : c.Accepted reply ↔ reply.ty = CommandTy.respOkNodata.code)
    (hresult : c.result reply =
      if reply.ty = CommandTy.respOkNodata.code then .ok none else .error c.failure) :
    (d.request build c.command c.failure reply).map (Prod.map (Except.map fun _ => none) id) = (do
      let (headIdx,nextIdx,d) ← d.submit build c.command c.replyLen
      let d ← c.finish build d headIdx nextIdx reply
      .ok (c.result reply,d)) := by
  rw [VirtioGpuDriver.request,hlen]
  cases d.submit build c.command 24 with
  | error e => rfl
  | ok r =>
    simp only [bind,Except.bind,finish,haccepted,hresult]
    by_cases hty : reply.ty = CommandTy.respOkNodata.code
    · simp only [if_pos hty]
      cases (r.2.2.wake reply.usedIdx).reclaim build r.1 r.2.1 <;> rfl
    · simp only [if_neg hty]
      rfl

/-- A waiting call is its submission, and then what its reply makes of it. -/
theorem exec_eq (build : Profile) (c : WaitingCall) (d : VirtioGpuDriver) (reply : Reply) :
    c.exec build d reply = (do
      let (headIdx,nextIdx,d) ← d.submit build c.command c.replyLen
      let d ← c.finish build d headIdx nextIdx reply
      .ok (c.result reply,d)) := by
  cases c with
  | getDisplayInfo =>
    rw [exec,VirtioGpuDriver.getDisplayInfo,command,replyLen]
    cases d.submit build VirtioGpuDriver.displayInfoCommand 408 with
    | error e => rfl
    | ok r =>
      have hfinish : finish build .getDisplayInfo r.2.2 r.1 r.2.1 reply =
        (r.2.2.wake reply.usedIdx).reclaim build r.1 r.2.1 := rfl
      simp only [bind,Except.bind,hfinish]
      cases (r.2.2.wake reply.usedIdx).reclaim build r.1 r.2.1 with
      | error e => rfl
      | ok d' =>
        have hresult : result .getDisplayInfo reply =
          if reply.ty = CommandTy.respOkDisplayInfo.code
            then .ok (some (reply.rect.width,reply.rect.height))
            else .error "Failed to get display info" := rfl
        rw [hresult]
        by_cases hty : reply.ty = CommandTy.respOkDisplayInfo.code
        · rw [if_pos hty,if_pos hty]
          rfl
        · rw [if_neg hty,if_neg hty]
          rfl
  | create2dCanvas resourceId width height =>
    exact request_eq (c := .create2dCanvas resourceId width height) rfl Iff.rfl rfl
  | attachBacking resourceId backBufferPhys bufferLength =>
    exact request_eq (c := .attachBacking resourceId backBufferPhys bufferLength) rfl Iff.rfl rfl
  | setScanout scanoutId resourceId width height =>
    exact request_eq (c := .setScanout scanoutId resourceId width height) rfl Iff.rfl rfl

theorem exec_inv {build : Profile} {c : WaitingCall} {d d' : VirtioGpuDriver} {reply : Reply}
    {r : CallResult} (h : c.exec build d reply = .ok (r,d')) : ∃ a b d₁,
      d.submit build c.command c.replyLen = .ok (a,b,d₁) ∧
      c.finish build d₁ a b reply = .ok d' ∧ r = c.result reply := by
  rw [exec_eq] at h
  obtain ⟨⟨a,b,d₁⟩,hsubmit,h⟩ := bind_inv h
  obtain ⟨d₂,hfinish,h⟩ := bind_inv h
  cases h
  exact ⟨a,b,d₁,hsubmit,hfinish,rfl⟩

end WaitingCall

namespace VirtQueue

theorem deref_of_index {i : UInt16} {j : Fin 64} (h : index i = .ok j) : deref i = some j := by
  unfold index at h
  cases hd : deref i with
  | none =>
    rw [hd] at h
    cases h
  | some k =>
    rw [hd] at h
    cases h
    rfl

/-- The descriptors that the free list still counts. -/
def OnFreeList (vq : VirtQueue) (i : Fin 64) : Prop :=
  ∃ l, vq.walk vq.numFree.toNat = some l ∧ i ∈ l

end VirtQueue

namespace VirtioGpuDriver

open VirtQueue

variable {build : Profile} {d d₁ d₂ : VirtioGpuDriver} {command : GpuCommand} {replyLen : UInt32}
  {a b : Fin 64} {n : UInt16}

/-- The driver once the doorbell rang for a command in two descriptors. -/
def sent (d : VirtioGpuDriver) (command : GpuCommand) (replyLen : UInt32) (numFree : UInt16)
    (a b : Fin 64) : VirtioGpuDriver :=
  let queue := {d.queue with freeHead := d.queue.link b,numFree}
  let queue := queue.load a (d.address 0) (UInt32.ofNat command.size) virtqDescFNext
  let queue := queue.load b (d.address 512) replyLen virtqDescFWrite
  {d with mailbox := d.mailbox.write 0 command,queue := queue.publish a}

section Projections

variable (d command replyLen n a b)

@[simp] theorem sent_numFree : (d.sent command replyLen n a b).queue.numFree = n := rfl
@[simp] theorem sent_freeHead :
    (d.sent command replyLen n a b).queue.freeHead = d.queue.link b := rfl
@[simp] theorem sent_mailboxPhys :
    (d.sent command replyLen n a b).mailboxPhys = d.mailboxPhys := rfl
@[simp] theorem sent_lastUsedIdx :
    (d.sent command replyLen n a b).queue.lastUsedIdx = d.queue.lastUsedIdx := rfl
@[simp] theorem sent_idx :
    (d.sent command replyLen n a b).queue.available.idx = d.queue.available.idx + 1 := rfl

@[simp] theorem sent_link : (d.sent command replyLen n a b).queue.link = d.queue.link :=
  (load_link ..).trans (load_link ..)

theorem sent_reply : (d.sent command replyLen n a b).queue.descriptors b =
    ⟨d.address 512,replyLen,virtqDescFWrite,d.queue.link b⟩ := by
  show Function.update _ b _ b = _
  rw [Function.update_self,load_link]
  rfl

theorem sent_slot : (d.sent command replyLen n a b).queue.available.ring
    (slot d.queue.available.idx.toNat) = UInt16.ofNat a.1 := Function.update_self ..

end Projections

theorem submit_eq (ha : deref d.queue.freeHead = some a) (hb : deref (d.queue.link a) = some b)
    (hn : subU16 build d.queue.numFree 2 = .ok n) :
    d.submit build command replyLen = .ok (a,b,d.sent command replyLen n a b) := by
  let q : VirtQueue := {d.queue with freeHead := d.queue.link b,numFree := n}
  let q₁ := q.load a (d.address 0) (UInt32.ofNat command.size) virtqDescFNext
  have hset : q₁.setNext a (UInt16.ofNat b.1) = q₁ := by
    apply setNext_self
    rw [load_link]
    exact hb
  have hsubmit : d.submit build command replyLen = .ok (a,b,{d with
      mailbox := d.mailbox.write 0 command
      queue := ((q₁.setNext a (UInt16.ofNat b.1)).load b (d.address 512) replyLen
        virtqDescFWrite).publish a}) := by
    simp only [submit,index_of_deref ha,index_of_deref hb,unlink,hn,bind,Except.bind]
    rfl
  rw [hsubmit,hset]
  rfl

/-- A submission takes the first two descriptors of the free list. -/
theorem submit_inv (h : d.submit build command replyLen = .ok (a,b,d₁)) :
    deref d.queue.freeHead = some a ∧ deref (d.queue.link a) = some b ∧
    ∃ n, subU16 build d.queue.numFree 2 = .ok n ∧ d₁ = d.sent command replyLen n a b := by
  have hsubmit := h
  obtain ⟨a',ha,h⟩ := bind_inv h
  obtain ⟨b',hb,h⟩ := bind_inv h
  obtain ⟨queue,hqueue,_⟩ := bind_inv h
  obtain ⟨n,hn,_⟩ := bind_inv hqueue
  rw [submit_eq (deref_of_index ha) (deref_of_index hb) hn] at hsubmit
  cases hsubmit
  exact ⟨deref_of_index ha,deref_of_index hb,n,hn,rfl⟩

theorem reclaim_eq (d : VirtioGpuDriver) (a b : Fin 64) : d.reclaim build a b =
    (addU16 build d.queue.numFree 2).map fun numFree =>
      {d with queue := {d.queue.relink a b with numFree}} := by
  rw [reclaim,addFree,relink_numFree]
  cases addU16 build d.queue.numFree 2 <;> rfl

/-- A driver that does not panic on the subtraction has the two descriptors. -/
theorem submit_overflow (ha : deref d.queue.freeHead = some a)
    (hb : deref (d.queue.link a) = some b) {e : Panic}
    (hn : subU16 build d.queue.numFree 2 = .error e) :
    d.submit build command replyLen = .error e := by
  simp only [submit,index_of_deref ha,index_of_deref hb,unlink,hn,bind,Except.bind]

end VirtioGpuDriver

namespace VirtQueue

variable {vq vq' : VirtQueue}

theorem onFreeList_congr (hlink : vq'.link = vq.link) (hhead : vq'.freeHead = vq.freeHead)
    (hnum : vq'.numFree = vq.numFree) (i : Fin 64) : vq'.OnFreeList i ↔ vq.OnFreeList i := by
  rw [OnFreeList,OnFreeList,walk,walk,hlink,hhead,hnum]

/-- In a new queue every descriptor leads to the next, and the last one to the first. -/
theorem new_link (n : ℕ) : VirtQueue.new.link (slot n) = UInt16.ofNat (slot (n + 1)).1 := by
  show (if n % 64 < 63 then UInt16.ofNat (n % 64 + 1) else 0) = UInt16.ofNat ((n + 1) % 64)
  split
  · rename_i h
    have hmod : (n + 1) % 64 = n % 64 + 1 := by omega
    rw [hmod]
  · rename_i h
    have hmod : (n + 1) % 64 = 0 := by omega
    rw [hmod]
    rfl

end VirtQueue

/-- The count and the contents of the free list are the same. -/
structure Restored (d d' : VirtioGpuDriver) : Prop where
  numFree : d'.queue.numFree = d.queue.numFree
  free : ∀ i, d'.queue.OnFreeList i ↔ d.queue.OnFreeList i

/-- An accepted command leaves the links, the head and the count as they were. -/
theorem WaitingCall.exec_accepted {build : Profile} {c : WaitingCall} {d d' : VirtioGpuDriver}
    {reply : Reply} {r : CallResult} (h : c.exec build d reply = .ok (r,d'))
    (hacc : c.Accepted reply) : d'.queue.link = d.queue.link ∧
      d'.queue.freeHead = d.queue.freeHead ∧ d'.queue.numFree = d.queue.numFree := by
  obtain ⟨a,b,d₁,hsubmit,hfinish,_⟩ := c.exec_inv h
  obtain ⟨ha,_,n,hn,rfl⟩ := VirtioGpuDriver.submit_inv hsubmit
  obtain ⟨rfl,_⟩ := subU16_inv hn
  rw [finish,if_pos hacc,VirtioGpuDriver.reclaim_eq] at hfinish
  obtain ⟨m,hm,rfl⟩ := map_inv hfinish
  refine ⟨?_,(VirtQueue.eq_ofNat_of_deref ha).symm,?_⟩
  · -- the reply's descriptor still leads to the rest of the list
    refine (VirtQueue.setNext_link _ b _).trans ?_
    show Function.update (d.sent c.command c.replyLen _ a b).queue.link b (d.queue.link b) = _
    rw [VirtioGpuDriver.sent_link]
    exact Function.update_eq_self b _
  · show m = d.queue.numFree
    rw [addU16_inv hm]
    exact UInt16.sub_add_cancel _ _

/-- A rejected one is short of two descriptors. -/
theorem WaitingCall.exec_rejected {build : Profile} {c : WaitingCall} {d d₁ d' : VirtioGpuDriver}
    {reply : Reply} {r : CallResult} {a b : Fin 64} (h : c.exec build d reply = .ok (r,d'))
    (hacc : ¬c.Accepted reply)
    (hsubmit : d.submit build c.command c.replyLen = .ok (a,b,d₁)) :
    d'.queue.link = d.queue.link ∧ d'.queue.freeHead = d.queue.link b ∧
      d'.queue.numFree = d.queue.numFree - 2 := by
  obtain ⟨a',b',d₂,hsubmit',hfinish,_⟩ := c.exec_inv h
  cases hsubmit'.symm.trans hsubmit
  obtain ⟨_,_,n,hn,rfl⟩ := VirtioGpuDriver.submit_inv hsubmit
  rw [finish,if_neg hacc] at hfinish
  cases hfinish
  exact ⟨VirtioGpuDriver.sent_link ..,rfl,(subU16_inv hn).1⟩

/-- A waiting call that returns has put the free list back exactly if its command was
accepted. -/
theorem WaitingCall.restored_iff {build : Profile} {c : WaitingCall} {d d' : VirtioGpuDriver}
    {reply : Reply} {r : CallResult} (h : c.exec build d reply = .ok (r,d')) :
    Restored d d' ↔ c.Accepted reply := by
  by_cases hacc : c.Accepted reply
  · obtain ⟨hlink,hhead,hnum⟩ := c.exec_accepted h hacc
    exact iff_of_true ⟨hnum,VirtQueue.onFreeList_congr hlink hhead hnum⟩ hacc
  · obtain ⟨a,b,d₁,hsubmit,_⟩ := c.exec_inv h
    obtain ⟨_,_,hnum⟩ := c.exec_rejected h hacc hsubmit
    refine iff_of_false (fun hrest => ?_) hacc
    have hnat := congrArg UInt16.toNat (hnum.symm.trans hrest.numFree)
    have hlt := d.queue.numFree.toNat_lt
    have htwo : (2 : UInt16).toNat = 2 := rfl
    rw [UInt16.toNat_sub,htwo] at hnat
    omega

/-- The driver between two waiting calls, with the descriptors it took for rejected commands
and never gave back. -/
structure RequestRun where
  driver : VirtioGpuDriver
  held : List (Fin 64)

/-- Waiting calls on a new queue, whatever the device replies. -/
def requestSystem (build : Profile) : Runs.System RequestRun (WaitingCall × Reply) where
  init s := s.driver.queue = .new ∧ s.held = []
  step s call t := ∃ a b d r,
    s.driver.submit build call.1.command call.1.replyLen = .ok (a,b,d) ∧
    call.1.exec build s.driver call.2 = .ok (r,t.driver) ∧
    t.held = if call.1.Accepted call.2 then s.held else s.held ++ [a,b]

namespace RequestRun

open VirtQueue

variable {build : Profile} {s t : RequestRun} {k : ℕ}

/-- The invariant after `k` rejections: the links are those of a new queue, the list begins
two descriptors further on for each, and what it begins behind is held. -/
structure Inv (s : RequestRun) (k : ℕ) : Prop where
  link : s.driver.queue.link = VirtQueue.new.link
  freeHead : s.driver.queue.freeHead = UInt16.ofNat (slot (2*k)).1
  numFree : s.driver.queue.numFree + UInt16.ofNat (2*k) = 64
  held : s.held = (List.range (2*k)).map slot

theorem Inv.head (h : Inv s k) : deref s.driver.queue.freeHead = some (slot (2*k)) := by
  rw [h.freeHead,deref_ofNat]

theorem Inv.next (h : Inv s k) :
    deref (s.driver.queue.link (slot (2*k))) = some (slot (2*k + 1)) := by
  rw [h.link,new_link,deref_ofNat]

theorem Inv.toNat_numFree (h : Inv s k) (hk : k ≤ 32) :
    s.driver.queue.numFree.toNat = 64 - 2*k := by
  have hnat := congrArg UInt16.toNat h.numFree
  have hlt := s.driver.queue.numFree.toNat_lt
  have h64 : (64 : UInt16).toNat = 64 := rfl
  rw [UInt16.toNat_add,UInt16.toNat_ofNat',h64] at hnat
  omega

theorem Inv.submit (h : Inv s k) {call : WaitingCall} {a b : Fin 64} {d : VirtioGpuDriver}
    (hsubmit : s.driver.submit build call.command call.replyLen = .ok (a,b,d)) :
    a = slot (2*k) ∧ b = slot (2*k + 1) := by
  obtain ⟨ha,hb,_⟩ := VirtioGpuDriver.submit_inv hsubmit
  cases Option.some.inj (ha.symm.trans h.head)
  exact ⟨rfl,Option.some.inj (hb.symm.trans h.next)⟩

theorem Inv.step {call : WaitingCall × Reply} (h : Inv s k)
    (hstep : (requestSystem build).step s call t) :
    Inv t (if call.1.Accepted call.2 then k else k + 1) := by
  obtain ⟨a,b,d,r,hsubmit,hexec,hheld⟩ := hstep
  by_cases hacc : call.1.Accepted call.2
  · obtain ⟨hlink,hhead,hnum⟩ := WaitingCall.exec_accepted hexec hacc
    rw [if_pos hacc] at hheld ⊢
    exact ⟨hlink.trans h.link,hhead.trans h.freeHead,hnum ▸ h.numFree,hheld.trans h.held⟩
  · obtain ⟨hlink,hhead,hnum⟩ := WaitingCall.exec_rejected hexec hacc hsubmit
    obtain ⟨rfl,rfl⟩ := h.submit hsubmit
    rw [if_neg hacc] at hheld ⊢
    have htwo : 2*(k + 1) = 2*k + 1 + 1 := by omega
    refine ⟨hlink.trans h.link,?_,?_,?_⟩
    · rw [hhead,h.link,new_link,htwo]
    · rw [hnum,Nat.mul_add,UInt16.ofNat_add,← h.numFree]
      show s.driver.queue.numFree - 2 + (UInt16.ofNat (2*k) + 2) = _
      rw [UInt16.add_comm _ 2,← UInt16.add_assoc,UInt16.sub_add_cancel]
    · rw [hheld,h.held,htwo,List.range_succ,List.range_succ,List.map_append,List.map_append,
        List.append_assoc]
      rfl

theorem Inv.reachable (h : (requestSystem build).Reachable s) : ∃ k, Inv s k := by
  apply h.invariant
  · rintro s ⟨hqueue,hheld⟩
    refine ⟨0,?_,?_,?_,hheld⟩ <;> rw [hqueue] <;> rfl
  · rintro s a t ⟨k,hk⟩ hstep
    exact ⟨_,hk.step hstep⟩

/-- The next command takes what nobody holds as long as less than all descriptors are held. -/
theorem Inv.fresh_iff (h : Inv s k) : slot (2*k) ∉ s.held ∧ slot (2*k + 1) ∉ s.held ↔ k < 32 := by
  rw [h.held]
  constructor
  · rintro ⟨hhead,_⟩
    by_contra hge
    refine hhead (List.mem_map.mpr ⟨2*k - 64,List.mem_range.mpr (by omega),Fin.ext ?_⟩)
    show (2*k - 64) % 64 = 2*k % 64
    omega
  · intro hk
    constructor
    all_goals
      rintro hmem
      obtain ⟨i,hi,heq⟩ := List.mem_map.mp hmem
      have hlt := List.mem_range.mp hi
      have hmod := congrArg Fin.val heq
      simp only [slot] at hmod
      omega

end RequestRun

/-- There are two descriptors left to count, and those that the next command gets are not
held. -/
def RequestRun.Sound (build : Profile) (s : RequestRun) : Prop :=
  2 ≤ s.driver.queue.numFree ∧ ∀ (c : WaitingCall) (a b : Fin 64) (d : VirtioGpuDriver),
    s.driver.submit build c.command c.replyLen = .ok (a,b,d) → a ∉ s.held ∧ b ∉ s.held

theorem RequestRun.Inv.sound_iff {build : Profile} {s : RequestRun} {k : ℕ} (h : s.Inv k) :
    s.Sound build ↔ k < 32 := by
  rw [← h.fresh_iff]
  constructor
  · rintro ⟨hnum,hfresh⟩
    exact hfresh .getDisplayInfo _ _ _
      (VirtioGpuDriver.submit_eq h.head h.next (subU16_ok build hnum))
  · intro hfresh
    refine ⟨?_,fun c a b d hsubmit => ?_⟩
    · have hk := h.fresh_iff.mp hfresh
      have htwo : (2 : UInt16).toNat = 2 := rfl
      rw [UInt16.le_iff_toNat_le,h.toNat_numFree hk.le,htwo]
      omega
    · obtain ⟨rfl,rfl⟩ := h.submit hsubmit
      exact hfresh

/-- The runs in which the device accepts every command. -/
def acceptedSystem (build : Profile) : Runs.System RequestRun (WaitingCall × Reply) :=
  (requestSystem build).guard fun _ call => call.1.Accepted call.2

theorem RequestRun.Inv.accepted {build : Profile} {s : RequestRun}
    (h : (acceptedSystem build).Reachable s) : s.Inv 0 := by
  apply h.invariant
  · rintro s ⟨hqueue,hheld⟩
    refine ⟨?_,?_,?_,hheld⟩ <;> rw [hqueue] <;> rfl
  · rintro s call t hs ⟨hacc,hstep⟩
    have ht := hs.step hstep
    rwa [if_pos hacc] at ht

/-- A waiting call restores the free list exactly if its command was accepted. In the runs where
all are, every descriptor is free between the calls; and once 32 were not, the count runs out
and descriptors are handed out again. -/
theorem requestSystem_restored {build : Profile} {s : RequestRun}
    (h : (requestSystem build).Reachable s) :
    (∀ (c : WaitingCall) (reply : Reply) (r : CallResult) (d : VirtioGpuDriver),
      c.exec build s.driver reply = .ok (r,d) → (Restored s.driver d ↔ c.Accepted reply)) ∧
    ((acceptedSystem build).Reachable s →
      s.driver.queue.numFree = 64 ∧ ∀ i, s.driver.queue.OnFreeList i) ∧
    (s.Sound build ↔ s.held.length < 64) := by
  obtain ⟨k,hk⟩ := RequestRun.Inv.reachable h
  refine ⟨fun c reply r d hexec => c.restored_iff hexec,fun haccepted => ?_,?_⟩
  · have hinv := RequestRun.Inv.accepted haccepted
    have hnum : s.driver.queue.numFree = 64 := (UInt16.add_zero _).symm.trans hinv.numFree
    refine ⟨hnum,fun i => ?_⟩
    rw [VirtQueue.onFreeList_congr hinv.link hinv.freeHead hnum]
    exact ⟨List.finRange 64,VirtQueue.Free.new.walk_eq,List.mem_finRange i⟩
  · rw [hk.sound_iff,hk.held,List.length_map,List.length_range]
    omega

namespace RequestRun

/-- Before the first call. -/
def start : RequestRun := ⟨GpuRun.start.driver,[]⟩

theorem start_reachable {build : Profile} : (requestSystem build).Reachable start :=
  .init ⟨rfl,rfl⟩

/-- The first `set_scanout`, whatever the reply. -/
theorem start_restored :
    let call : WaitingCall := .setScanout 0 1 800 600
    start.Sound .dev ∧ (start.driver.queue.numFree = 64 ∧ ∀ i, start.driver.queue.OnFreeList i) ∧
    ∀ ty r d, call.exec .dev start.driver ⟨1,ty,⟨0,0,0,0⟩⟩ = .ok (r,d) →
      (Restored start.driver d ↔ call.Accepted ⟨1,ty,⟨0,0,0,0⟩⟩) :=
  have hstart : (requestSystem .dev).Reachable start := start_reachable
  have hall := requestSystem_restored hstart
  ⟨hall.2.2.mpr (by decide),hall.2.1 (.init ⟨rfl,rfl⟩),fun _ _ _ => hall.1 _ _ _ _⟩

/-- `VIRTIO_GPU_RESP_ERR_UNSPEC`. -/
def refusal : Reply := ⟨1,0x1200,⟨0,0,0,0⟩⟩

/-- Up to 32 commands in a row can be rejected. -/
theorem exists_rejected (build : Profile) {k : ℕ} (hk : k ≤ 32) :
    ∃ s, (requestSystem build).Reachable s ∧ Inv s k := by
  induction k with
  | zero => exact ⟨start,start_reachable,rfl,rfl,rfl,rfl⟩
  | succ k ih =>
    obtain ⟨s,hs,hinv⟩ := ih (Nat.le_of_succ_le hk)
    have hsound : s.Sound build := hinv.sound_iff.mpr hk
    have hnum : 2 ≤ s.driver.queue.numFree := hsound.1
    let call : WaitingCall := .setScanout 0 1 800 600
    have hsubmit : s.driver.submit build call.command call.replyLen = _ :=
      VirtioGpuDriver.submit_eq hinv.head hinv.next (subU16_ok build hnum)
    have hacc : ¬call.Accepted refusal := by decide
    let d := s.driver.sent call.command call.replyLen (s.driver.queue.numFree - 2) (VirtQueue.slot (2*k))
      (VirtQueue.slot (2*k + 1))
    let t : RequestRun := ⟨d.wake refusal.usedIdx,
      s.held ++ [VirtQueue.slot (2*k),VirtQueue.slot (2*k + 1)]⟩
    have hexec : call.exec build s.driver refusal = .ok (call.result refusal,t.driver) := by
      rw [call.exec_eq,hsubmit]
      simp only [bind,Except.bind,WaitingCall.finish,if_neg hacc]
      rfl
    have hstep : (requestSystem build).step s (call,refusal) t :=
      ⟨_,_,_,_,hsubmit,hexec,(if_neg hacc).symm⟩
    have ht := hinv.step hstep
    rw [if_neg hacc] at ht
    exact ⟨t,hs.step hstep,ht⟩

/-- A rejected `set_scanout` on a new queue keeps its two descriptors, and after 32 of them the
next one panics. -/
theorem setScanout_leaks :
    let call : WaitingCall := .setScanout 0 1 800 600
    (∃ d, call.exec .dev start.driver refusal = .ok (.error "GPU failed to set scanout.",d) ∧
      ¬Restored start.driver d) ∧
    ∃ s, (requestSystem .dev).Reachable s ∧ call.exec .dev s.driver refusal = .error .overflow := by
  constructor
  · refine ⟨_,rfl,fun h => ?_⟩
    exact absurd h.numFree (by decide)
  · obtain ⟨s,hs,hinv⟩ := exists_rejected .dev (k := 32) le_rfl
    have hnum : subU16 .dev s.driver.queue.numFree 2 = .error .overflow := by
      have hzero : s.driver.queue.numFree = 0 := UInt16.toNat_inj.mp (hinv.toNat_numFree le_rfl)
      rw [hzero]
      rfl
    refine ⟨s,hs,?_⟩
    rw [WaitingCall.exec_eq,VirtioGpuDriver.submit_overflow hinv.head hinv.next hnum]
    rfl

end RequestRun
end PolymorphOS
