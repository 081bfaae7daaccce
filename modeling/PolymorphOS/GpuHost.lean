import PolymorphOS.FlushSteps
import PolymorphOS.GpuRequests
import PolymorphOS.SwapBuffers

/-! The device's side of the 2D commands, and the calls by which `init_virtio_device` sets up the
screen. -/
namespace PolymorphOS

namespace GpuRect

/-- The rectangle has the pixel that a byte belongs to, in rows of so many pixels. -/
def Has (r : GpuRect) (width i : ℕ) : Prop :=
  (r.x.toNat ≤ i / 4 % width ∧ i / 4 % width < r.x.toNat + r.width.toNat) ∧
    r.y.toNat ≤ i / 4 / width ∧ i / 4 / width < r.y.toNat + r.height.toNat

instance (r : GpuRect) (width i : ℕ) : Decidable (r.Has width i) :=
  inferInstanceAs (Decidable (_ ∧ _))

def Within (r : GpuRect) (width height : ℕ) : Prop :=
  r.x.toNat + r.width.toNat ≤ width ∧ r.y.toNat + r.height.toNat ≤ height

instance (r : GpuRect) (width height : ℕ) : Decidable (r.Within width height) :=
  inferInstanceAs (Decidable (_ ∧ _))

/-- Its first byte. -/
def start (r : GpuRect) (width : ℕ) : ℕ := (r.y.toNat * width + r.x.toNat) * 4

/-- Where the byte of its own rows is in the longer ones. -/
def byteAt (r : GpuRect) (width j : ℕ) : ℕ :=
  ((r.y.toNat + j / 4 / r.width.toNat) * width + (r.x.toNat + j / 4 % r.width.toNat)) * 4 + j % 4

end GpuRect

/-- A 2D resource: its size, the memory behind it, and what the device has of its pixels. -/
structure HostResource where
  width : ℕ
  height : ℕ
  backing : Option MemEntry
  pixels : ℕ → UInt8

/-- A device with one display: its resources, the part of one that the display shows, and what is
to be seen there. -/
structure GpuHost where
  resources : UInt32 → Option HostResource
  scanout : Option (UInt32 × GpuRect)
  shown : ℕ → UInt8

/-- What the device is copying, with the bytes that are left. -/
inductive HostTask
  | idle
  | transfer (cmd : TransferToHost2d) (left : Finset ℕ)
  | flush (cmd : ResourceFlush) (left : Finset ℕ)

namespace GpuHost

/-- The answer to a command that cannot be executed. -/
def respErr : UInt32 := 0x1200

def setResource (h : GpuHost) (id : UInt32) (r : HostResource) : GpuHost :=
  {h with resources := Function.update h.resources id (some r)}

/-- Where in the memory behind the resource a byte of it comes from. -/
def sourceOf (cmd : TransferToHost2d) (r : HostResource) (i : ℕ) : ℕ :=
  cmd.offset.toNat + (i - cmd.rect.start r.width)

/-- The bytes of the rectangle that there is memory for. -/
def transferBytes (cmd : TransferToHost2d) (r : HostResource) (entry : MemEntry) : Finset ℕ :=
  (Finset.range (4 * r.width * r.height)).filter fun i =>
    cmd.rect.Has r.width i ∧ sourceOf cmd r i < entry.length.toNat

/-- The bytes on the display that show the rectangle. -/
def flushBytes (h : GpuHost) (cmd : ResourceFlush) (r : HostResource) : Finset ℕ :=
  match h.scanout with
  | some (id,rect) => if id = cmd.resourceId then
      (Finset.range (4 * rect.width.toNat * rect.height.toNat)).filter fun j =>
        cmd.rect.Has r.width (rect.byteAt r.width j)
    else ∅
  | none => ∅

/-- The answer, the device after the command, and what it begins to copy. -/
def exec (h : GpuHost) : GpuCommand → UInt32 × GpuHost × HostTask
  | .getDisplayInfo _ => (CommandTy.respOkDisplayInfo.code,h,.idle)
  | .resourceCreate2d cmd =>
    if cmd.resourceId = 0 ∨ (h.resources cmd.resourceId).isSome then (respErr,h,.idle)
    else (CommandTy.respOkNodata.code,
      h.setResource cmd.resourceId ⟨cmd.width.toNat,cmd.height.toNat,none,fun _ => 0⟩,.idle)
  | .attachBacking cmd entry =>
    match h.resources cmd.resourceId with
    | none => (respErr,h,.idle)
    | some r =>
      if r.backing.isSome ∨ cmd.numEntries ≠ 1 then (respErr,h,.idle)
      else (CommandTy.respOkNodata.code,
        h.setResource cmd.resourceId {r with backing := some entry},.idle)
  | .setScanout cmd =>
    match h.resources cmd.resourceId with
    | none => (respErr,h,.idle)
    | some r =>
      if cmd.scanoutId = 0 ∧ cmd.rect.Within r.width r.height then
        (CommandTy.respOkNodata.code,{h with scanout := some (cmd.resourceId,cmd.rect)},.idle)
      else (respErr,h,.idle)
  | .transferToHost2d cmd =>
    match h.resources cmd.resourceId with
    | none => (respErr,h,.idle)
    | some r =>
      match r.backing with
      | none => (respErr,h,.idle)
      | some entry =>
        if cmd.rect.Within r.width r.height then
          (CommandTy.respOkNodata.code,h,.transfer cmd (transferBytes cmd r entry))
        else (respErr,h,.idle)
  | .resourceFlush cmd =>
    match h.resources cmd.resourceId with
    | none => (respErr,h,.idle)
    | some r =>
      if cmd.rect.Within r.width r.height then
        (CommandTy.respOkNodata.code,h,.flush cmd (h.flushBytes cmd r))
      else (respErr,h,.idle)

/-- One byte comes from the guest's memory. -/
def transferByte (memory : ℕ → UInt8) (h : GpuHost) (cmd : TransferToHost2d) (i : ℕ) : GpuHost :=
  match h.resources cmd.resourceId with
  | none => h
  | some r =>
    match r.backing with
    | none => h
    | some entry =>
      let byte := memory (entry.address.toNat + sourceOf cmd r i)
      h.setResource cmd.resourceId {r with pixels := Function.update r.pixels i byte}

/-- One byte goes to the display. -/
def flushByte (h : GpuHost) (cmd : ResourceFlush) (i : ℕ) : GpuHost :=
  match h.scanout,h.resources cmd.resourceId with
  | some (_,rect),some r =>
    {h with shown := Function.update h.shown i (r.pixels (rect.byteAt r.width i))}
  | _,_ => h

end GpuHost

namespace HostTask

def left : HostTask → Finset ℕ
  | .idle => ∅
  | .transfer _ left => left
  | .flush _ left => left

end HostTask

/-! ### Setting up the screen -/

namespace VirtioGpuDriver

open VirtQueue

/-- The device executes the command of a waiting call, and the call reads its answer. -/
def callHost (build : Profile) (d : VirtioGpuDriver) (host : GpuHost) (call : WaitingCall) :
    Except Panic (CallResult × VirtioGpuDriver × GpuHost) := do
  let (_,_,sent) ← d.submit build call.command call.replyLen
  let (answer,host) := match sent.fetch d.queue.available.idx.toNat with
    | some cmd => ((host.exec cmd).1,(host.exec cmd).2.1)
    | none => (GpuHost.respErr,host)
  let (result,d) ← call.exec build d ⟨d.queue.lastUsedIdx + 1,answer,⟨0,0,0,0⟩⟩
  .ok (result,d,host)

/-- Steps 3 and 4 of the end of `init_virtio_device`; an error is only logged. -/
def setUpScreen (build : Profile) (d : VirtioGpuDriver) (host : GpuHost) (backBuffer : PhysAddr) :
    Except Panic (VirtioGpuDriver × GpuHost) := do
  let (_,d,host) ← d.callHost build host (.create2dCanvas 1 1920 1080)
  let (_,d,host) ← d.callHost build host
    (.attachBacking 1 (UInt64.ofNat backBuffer.1) (UInt32.ofNat bytesNeeded))
  let (_,d,host) ← d.callHost build host (.setScanout 0 1 1920 1080)
  .ok (d,host)

section

variable {build : Profile} {d d₁ : VirtioGpuDriver} {l p : List (Fin 64)} {a b : Fin 64}

/-- The device finds the command that was sent last. -/
theorem submit_fetch {command : GpuCommand} {replyLen : UInt32} (hne : a ≠ b)
    (h : d.submit build command replyLen = .ok (a,b,d₁)) :
    d₁.fetch d.queue.available.idx.toNat = some command := by
  obtain ⟨_,_,n,_,rfl⟩ := submit_inv h
  have hlt := d.mailboxPhys.2
  have hsize : (UInt32.ofNat command.size).toNat = command.size :=
    UInt32.toNat_ofNat_of_lt' (by cases command <;> simp [GpuCommand.size,UInt32.size])
  have hdesc : (d.sent command replyLen n a b).queue.descriptors a =
      ⟨d.address 0,UInt32.ofNat command.size,virtqDescFNext,d.queue.link a⟩ := by
    show Function.update _ b _ a = _
    rw [Function.update_of_ne hne,load_descriptors,Function.update_self]
    rfl
  have haddr : (d.address 0).toNat = d.mailboxPhys.1 := by
    rw [address,UInt64.toNat_ofNat']
    exact Nat.mod_eq_of_lt (by omega)
  rw [fetch,sent_slot,deref_ofNat]
  show (d.sent command replyLen n a b).commandAt _ _ = _
  rw [hdesc,commandAt,haddr,sent_mailboxPhys,if_pos le_rfl,Nat.sub_self]
  show (Mailbox.write d.mailbox 0 command 0).filter _ = _
  rw [Mailbox.write_self,Option.filter_some]
  exact if_pos (decide_eq_true hsize.symm)

/-- A call whose command succeeds gives its descriptors back. -/
theorem callHost_ok (build : Profile) {host host' : GpuHost} (call : WaitingCall)
    (hfree : d.queue.Free (a :: b :: l)) (hlog : d.queue.Logged p)
    (hok : host.exec call.command = (call.success.code,host',.idle)) : ∃ result d',
      d.callHost build host call = .ok (result,d',host') ∧
      d'.queue.Free (a :: b :: l) ∧ d'.queue.Logged (p ++ [a]) := by
  obtain ⟨d₁,hsubmit,hfree₁,hchain,hlog₁⟩ := submit_spec build call.command call.replyLen hfree hlog
  let reply : Reply := ⟨d.queue.lastUsedIdx + 1,call.success.code,⟨0,0,0,0⟩⟩
  have hwake : (d₁.wake reply.usedIdx).queue.Free l := hfree₁.congr rfl rfl rfl
  obtain ⟨d₂,hd₂,hfree₂,_,hlog₂⟩ := reclaim_spec build hwake (hchain.congr rfl fun _ => rfl)
    hfree.nodup (hlog₁.congr rfl)
  have hexec : call.exec build d reply = .ok (call.result reply,d₂) := by
    have hacc : call.Accepted reply := by cases call <;> trivial
    rw [WaitingCall.exec_eq,hsubmit]
    simp only [bind,Except.bind,WaitingCall.finish,if_pos hacc,hd₂]
  refine ⟨call.result reply,d₂,?_,hfree₂,hlog₂⟩
  simp only [callHost,hsubmit,bind,Except.bind,submit_fetch hchain.distinct hsubmit,hok]
  rw [hexec]

end
end VirtioGpuDriver

namespace GpuHost

/-- The memory entry of the backing store. -/
def storeEntry (backBuffer : PhysAddr) : MemEntry :=
  ⟨UInt64.ofNat backBuffer.1,UInt32.ofNat bytesNeeded,0⟩

/-- Resource 1 is the whole screen, with this memory behind it, and the display shows it. -/
structure Ready (entry : MemEntry) (h : GpuHost) : Prop where
  resource : ∃ pixels, h.resources 1 = some ⟨1920,1080,some entry,pixels⟩
  scanout : h.scanout = some (1,⟨0,0,1920,1080⟩)

theorem setResource_self (h : GpuHost) (id : UInt32) (r : HostResource) :
    (h.setResource id r).resources id = some r := Function.update_self ..

/-- On a device that has no resource 1 yet. -/
theorem setUpScreen_ready (build : Profile) {d : VirtioGpuDriver} {l p : List (Fin 64)}
    {host : GpuHost} (backBuffer : PhysAddr) (hfree : d.queue.Free l) (hlen : 4 ≤ l.length)
    (hlog : d.queue.Logged p) (hnone : host.resources 1 = none) : ∃ d' host' p',
      d.setUpScreen build host backBuffer = .ok (d',host') ∧ d'.queue.Free l ∧
      d'.queue.Logged p' ∧ host'.Ready (storeEntry backBuffer) := by
  obtain ⟨a,b,c,e,l,rfl⟩ := VirtQueue.Free.exists_four hlen
  let created := host.setResource 1 ⟨1920,1080,none,fun _ => 0⟩
  let attached := created.setResource 1 ⟨1920,1080,some (storeEntry backBuffer),fun _ => 0⟩
  let scanned : GpuHost := {attached with scanout := some (1,⟨0,0,1920,1080⟩)}
  have hcreated : created.resources 1 = some _ := setResource_self ..
  have hattached : attached.resources 1 = some _ := setResource_self ..
  have hcreate : host.exec (WaitingCall.create2dCanvas 1 1920 1080).command =
      (CommandTy.respOkNodata.code,created,.idle) := by
    show (if (1 : UInt32) = 0 ∨ (host.resources 1).isSome = true then _ else _) = _
    rw [hnone,if_neg (by decide)]
    rfl
  have hattach : created.exec (WaitingCall.attachBacking 1 (UInt64.ofNat backBuffer.1)
      (UInt32.ofNat bytesNeeded)).command = (CommandTy.respOkNodata.code,attached,.idle) := by
    simp only [exec,WaitingCall.command,VirtioGpuDriver.attachBackingCommand,hcreated]
    rfl
  have hscanout : attached.exec (WaitingCall.setScanout 0 1 1920 1080).command =
      (CommandTy.respOkNodata.code,scanned,.idle) := by
    simp only [exec,WaitingCall.command,VirtioGpuDriver.setScanoutCommand,hattached]
    rfl
  obtain ⟨_,d₁,hd₁,hfree₁,hlog₁⟩ := VirtioGpuDriver.callHost_ok build _ hfree hlog hcreate
  obtain ⟨_,d₂,hd₂,hfree₂,hlog₂⟩ := VirtioGpuDriver.callHost_ok build _ hfree₁ hlog₁ hattach
  obtain ⟨_,d₃,hd₃,hfree₃,hlog₃⟩ := VirtioGpuDriver.callHost_ok build _ hfree₂ hlog₂ hscanout
  refine ⟨d₃,scanned,_,?_,hfree₃,hlog₃,⟨_,hattached⟩,rfl⟩
  simp only [VirtioGpuDriver.setUpScreen,bind,Except.bind,hd₁,hd₂,hd₃]

/-- The two commands of a frame of the whole screen. -/
def screenArgs : FlushArgs := ⟨1,1920,1080⟩
def screenTransfer : TransferToHost2d :=
  ⟨.withTy .transferToHost2d,⟨0,0,1920,1080⟩,0,1,0⟩
def screenFlush : ResourceFlush := ⟨.withTy .resourceFlush,⟨0,0,1920,1080⟩,1,0⟩

/-- What the device has of a byte of the screen. -/
def pixel (h : GpuHost) (i : ℕ) : UInt8 :=
  match h.resources 1 with
  | some r => r.pixels i
  | none => 0

section

variable {h : GpuHost} {backBuffer : PhysAddr} {i : ℕ}

/-- The whole screen has every byte, in its place. -/
theorem screen_has (hi : i < bytesNeeded) :
    (⟨0,0,1920,1080⟩ : GpuRect).Has 1920 i ∧ (⟨0,0,1920,1080⟩ : GpuRect).byteAt 1920 i = i := by
  have hlt : i < 8294400 := hi
  show ((0 ≤ i / 4 % 1920 ∧ i / 4 % 1920 < 0 + 1920) ∧ 0 ≤ i / 4 / 1920 ∧ i / 4 / 1920 < 0 + 1080) ∧
    ((0 + i / 4 / 1920) * 1920 + (0 + i / 4 % 1920)) * 4 + i % 4 = i
  omega

theorem screen_size : 4 * 1920 * 1080 = bytesNeeded := by norm_num [bytesNeeded]

theorem storeEntry_length (backBuffer : PhysAddr) :
    (storeEntry backBuffer).length.toNat = bytesNeeded :=
  UInt32.toNat_ofNat_of_lt' (by norm_num [bytesNeeded,UInt32.size])

theorem screen_sourceOf (pixels : ℕ → UInt8) (entry : Option MemEntry) (i : ℕ) :
    sourceOf screenTransfer ⟨1920,1080,entry,pixels⟩ i = i := by
  show 0 + (i - (0 * 1920 + 0) * 4) = i
  omega

theorem Ready.exec_transfer (hready : h.Ready (storeEntry backBuffer)) :
    h.exec screenArgs.transferCommand =
      (CommandTy.respOkNodata.code,h,.transfer screenTransfer (Finset.range bytesNeeded)) := by
  obtain ⟨⟨pixels,hresource⟩,_⟩ := hready
  have hbytes : transferBytes screenTransfer ⟨1920,1080,some (storeEntry backBuffer),pixels⟩
      (storeEntry backBuffer) = Finset.range bytesNeeded := by
    simp only [transferBytes,screen_size,storeEntry_length]
    refine Finset.filter_true_of_mem fun i hi => ?_
    have hi' : i < bytesNeeded := Finset.mem_range.mp hi
    exact ⟨(screen_has hi').1,(screen_sourceOf ..).trans_lt hi'⟩
  have hexec : h.exec screenArgs.transferCommand = (CommandTy.respOkNodata.code,h,
      .transfer screenTransfer (transferBytes screenTransfer
        ⟨1920,1080,some (storeEntry backBuffer),pixels⟩ (storeEntry backBuffer))) := by
    simp only [exec,screenArgs,FlushArgs.transferCommand,hresource]
    rfl
  rw [hexec,hbytes]

theorem Ready.exec_flush (hready : h.Ready (storeEntry backBuffer)) :
    h.exec screenArgs.flushCommand =
      (CommandTy.respOkNodata.code,h,.flush screenFlush (Finset.range bytesNeeded)) := by
  obtain ⟨⟨pixels,hresource⟩,hscanout⟩ := hready
  have hbytes : h.flushBytes screenFlush ⟨1920,1080,some (storeEntry backBuffer),pixels⟩ =
      Finset.range bytesNeeded := by
    simp only [flushBytes,hscanout,show screenFlush.resourceId = 1 from rfl,if_true,
      show (1920 : UInt32).toNat = 1920 from rfl,show (1080 : UInt32).toNat = 1080 from rfl,
      screen_size]
    refine Finset.filter_true_of_mem fun j hj => ?_
    obtain ⟨hhas,hbyte⟩ := screen_has (Finset.mem_range.mp hj)
    rw [hbyte]
    exact hhas
  have hexec : h.exec screenArgs.flushCommand = (CommandTy.respOkNodata.code,h,
      .flush screenFlush (h.flushBytes screenFlush
        ⟨1920,1080,some (storeEntry backBuffer),pixels⟩)) := by
    simp only [exec,screenArgs,FlushArgs.flushCommand,hresource]
    rfl
  rw [hexec,hbytes]

/-- A byte comes from its place in the backing store. -/
theorem Ready.transferByte (hready : h.Ready (storeEntry backBuffer)) (memory : ℕ → UInt8) (i : ℕ) :
    (h.transferByte memory screenTransfer i).Ready (storeEntry backBuffer) ∧
    (h.transferByte memory screenTransfer i).pixel =
      Function.update h.pixel i (memory (backBuffer.1 + i)) ∧
    (h.transferByte memory screenTransfer i).shown = h.shown := by
  obtain ⟨⟨pixels,hresource⟩,hscanout⟩ := hready
  have haddr : (storeEntry backBuffer).address.toNat = backBuffer.1 := by
    have hlt := backBuffer.2
    exact UInt64.toNat_ofNat_of_lt' (hlt.trans (by norm_num [UInt64.size]))
  have hmove : h.transferByte memory screenTransfer i = h.setResource 1
      ⟨1920,1080,some (storeEntry backBuffer),
        Function.update pixels i (memory (backBuffer.1 + i))⟩ := by
    simp only [GpuHost.transferByte,show screenTransfer.resourceId = 1 from rfl,hresource,
      screen_sourceOf,haddr]
  have hold : h.pixel = pixels := by
    funext j
    rw [pixel,hresource]
  rw [hmove,hold]
  refine ⟨⟨⟨_,setResource_self ..⟩,hscanout⟩,?_,rfl⟩
  funext j
  rw [pixel,setResource_self]

/-- A byte goes to its place on the display. -/
theorem Ready.flushByte (hready : h.Ready (storeEntry backBuffer)) (hi : i < bytesNeeded) :
    h.flushByte screenFlush i = {h with shown := Function.update h.shown i (h.pixel i)} := by
  obtain ⟨⟨pixels,hresource⟩,hscanout⟩ := hready
  simp only [GpuHost.flushByte,show screenFlush.resourceId = 1 from rfl,hscanout,hresource,pixel,
    (screen_has hi).2]

end
end GpuHost
end PolymorphOS
