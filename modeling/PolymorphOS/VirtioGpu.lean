import PolymorphOS.FrameAllocator
import PolymorphOS.VirtQueue

/-! `virtio_gpu.rs`: the commands the GPU driver drafts in its mailbox page, and its calls on the
control queue. -/
namespace PolymorphOS

inductive CommandTy
  | undefined | getDisplayInfo | resourceCreate2d | resourceUnref | setScanout | resourceFlush
  | transferToHost2d | resourceAttachBacking | resourceDetachBacking
  | respOkNodata | respOkDisplayInfo
  deriving DecidableEq

def CommandTy.code : CommandTy → UInt32
  | .undefined => 0
  | .getDisplayInfo => 0x0100
  | .resourceCreate2d => 0x0101
  | .resourceUnref => 0x0102
  | .setScanout => 0x0103
  | .resourceFlush => 0x0104
  | .transferToHost2d => 0x0105
  | .resourceAttachBacking => 0x0106
  | .resourceDetachBacking => 0x0107
  | .respOkNodata => 0x1100
  | .respOkDisplayInfo => 0x1101

structure ControlHeader where
  ty : CommandTy
  flags : UInt32
  fenceId : UInt64
  ctxId : UInt32
  ringIndex : UInt8
  deriving DecidableEq

def ControlHeader.withTy (ty : CommandTy) : ControlHeader := ⟨ty,0,0,0,0⟩

structure GpuRect where
  x : UInt32
  y : UInt32
  width : UInt32
  height : UInt32
  deriving DecidableEq

inductive ResourceFormat
  | bgrx | xrgb
  deriving DecidableEq

structure ResourceCreate2d where
  header : ControlHeader
  resourceId : UInt32
  format : ResourceFormat
  width : UInt32
  height : UInt32
  deriving DecidableEq

structure AttachBacking where
  header : ControlHeader
  resourceId : UInt32
  numEntries : UInt32
  deriving DecidableEq

structure MemEntry where
  address : UInt64
  length : UInt32
  padding : UInt32
  deriving DecidableEq

structure SetScanout where
  header : ControlHeader
  rect : GpuRect
  scanoutId : UInt32
  resourceId : UInt32
  deriving DecidableEq

structure TransferToHost2d where
  header : ControlHeader
  rect : GpuRect
  offset : UInt64
  resourceId : UInt32
  padding : UInt32
  deriving DecidableEq

structure ResourceFlush where
  header : ControlHeader
  rect : GpuRect
  resourceId : UInt32
  padding : UInt32
  deriving DecidableEq

/-- A command as it lies in the mailbox. -/
inductive GpuCommand
  | getDisplayInfo (header : ControlHeader)
  | resourceCreate2d (cmd : ResourceCreate2d)
  | attachBacking (cmd : AttachBacking) (entry : MemEntry)
  | setScanout (cmd : SetScanout)
  | transferToHost2d (cmd : TransferToHost2d)
  | resourceFlush (cmd : ResourceFlush)
  deriving DecidableEq

/-- `size_of`, in bytes. -/
def GpuCommand.size : GpuCommand → ℕ
  | .getDisplayInfo _ => 24
  | .resourceCreate2d _ => 40
  | .attachBacking _ _ => 48
  | .setScanout _ => 48
  | .transferToHost2d _ => 56
  | .resourceFlush _ => 48

/-- The mailbox page: which command starts at an offset. -/
abbrev Mailbox := ℕ → Option GpuCommand

namespace Mailbox

/-- A command overwrites whatever it overlaps. -/
def write (m : Mailbox) (offset : ℕ) (cmd : GpuCommand) : Mailbox :=
  fun o => if o = offset then some cmd else
    (m o).filter fun old => o + old.size ≤ offset ∨ offset + cmd.size ≤ o

theorem write_self (m : Mailbox) (offset : ℕ) (cmd : GpuCommand) :
    m.write offset cmd offset = some cmd := if_pos rfl

theorem write_of_disjoint {m : Mailbox} {offset o : ℕ} {cmd old : GpuCommand} (hold : m o = some old)
    (h : o + old.size ≤ offset ∨ offset + cmd.size ≤ o) (hne : o ≠ offset) :
    m.write offset cmd o = some old := by
  rw [write,if_neg hne,hold,Option.filter_some,if_pos (decide_eq_true h)]

end Mailbox

/-- What a waiting call reads once its spin loop has ended: `used.idx`, the type in the reply's
header, and the rectangle of display 0. -/
structure Reply where
  usedIdx : UInt16
  ty : UInt32
  rect : GpuRect

/-- The driver once `setup_control_queue` has succeeded. -/
structure VirtioGpuDriver where
  mailboxPhys : PhysAddr
  mailbox : Mailbox
  queue : VirtQueue

namespace VirtioGpuDriver

/-- The physical address `offset` bytes into the mailbox; a `PhysAddr` leaves room for it. -/
def address (d : VirtioGpuDriver) (offset : ℕ) : UInt64 := UInt64.ofNat (d.mailboxPhys.1 + offset)

/-- What the calls that wait do up to the doorbell: the command goes to the front of the mailbox,
and two descriptors off the free list point to it and to the reply. -/
def submit (build : Profile) (d : VirtioGpuDriver) (command : GpuCommand) (replyLen : UInt32) :
    Except Panic (Fin 64 × Fin 64 × VirtioGpuDriver) := do
  let headIdx ← VirtQueue.index d.queue.freeHead
  let nextIdx ← VirtQueue.index (d.queue.link headIdx)
  let queue ← d.queue.unlink build nextIdx 2
  let queue := queue.load headIdx (d.address 0) (UInt32.ofNat command.size) virtqDescFNext
  let queue := queue.setNext headIdx (UInt16.ofNat nextIdx.1)
  let queue := queue.load nextIdx (d.address 512) replyLen virtqDescFWrite
  .ok (headIdx,nextIdx,{d with mailbox := d.mailbox.write 0 command,queue := queue.publish headIdx})

/-- The call has seen `used.idx` move. -/
def wake (d : VirtioGpuDriver) (usedIdx : UInt16) : VirtioGpuDriver :=
  {d with queue := {d.queue with lastUsedIdx := usedIdx}}

/-- The two descriptors of a waiting call go back. -/
def reclaim (build : Profile) (d : VirtioGpuDriver) (headIdx nextIdx : Fin 64) :
    Except Panic VirtioGpuDriver := do
  let queue ← (d.queue.relink headIdx nextIdx).addFree build 2
  .ok {d with queue}

def displayInfoCommand : GpuCommand := .getDisplayInfo (.withTy .getDisplayInfo)

def getDisplayInfo (build : Profile) (d : VirtioGpuDriver) (reply : Reply) :
    Except Panic (Except String (UInt32 × UInt32) × VirtioGpuDriver) := do
  let (headIdx,nextIdx,d) ← d.submit build displayInfoCommand 408
  let d := d.wake reply.usedIdx
  let result := if reply.ty = CommandTy.respOkDisplayInfo.code
    then .ok (reply.rect.width,reply.rect.height) else .error "Failed to get display info"
  let d ← d.reclaim build headIdx nextIdx
  .ok (result,d)

/-- The other calls that wait: the descriptors go back only if the reply is `RespOkNodata`. -/
def request (build : Profile) (d : VirtioGpuDriver) (command : GpuCommand) (failure : String)
    (reply : Reply) : Except Panic (Except String Unit × VirtioGpuDriver) := do
  let (headIdx,nextIdx,d) ← d.submit build command 24
  let d := d.wake reply.usedIdx
  if reply.ty = CommandTy.respOkNodata.code then
    let d ← d.reclaim build headIdx nextIdx
    .ok (.ok (),d)
  else .ok (.error failure,d)

def create2dCommand (resourceId width height : UInt32) : GpuCommand :=
  .resourceCreate2d ⟨.withTy .resourceCreate2d,resourceId,.bgrx,width,height⟩

def create2dCanvas (build : Profile) (d : VirtioGpuDriver) (resourceId width height : UInt32)
    (reply : Reply) : Except Panic (Except String Unit × VirtioGpuDriver) :=
  d.request build (create2dCommand resourceId width height) "GPU failed to create 2D canvas." reply

def attachBackingCommand (resourceId : UInt32) (backBufferPhys : UInt64) (bufferLength : UInt32) :
    GpuCommand :=
  .attachBacking ⟨.withTy .resourceAttachBacking,resourceId,1⟩ ⟨backBufferPhys,bufferLength,0⟩

def attachBacking (build : Profile) (d : VirtioGpuDriver) (resourceId : UInt32)
    (backBufferPhys : UInt64) (bufferLength : UInt32) (reply : Reply) :
    Except Panic (Except String Unit × VirtioGpuDriver) :=
  d.request build (attachBackingCommand resourceId backBufferPhys bufferLength)
    "GPU failed to attach backing memory." reply

def setScanoutCommand (scanoutId resourceId width height : UInt32) : GpuCommand :=
  .setScanout ⟨.withTy .setScanout,⟨0,0,width,height⟩,scanoutId,resourceId⟩

def setScanout (build : Profile) (d : VirtioGpuDriver) (scanoutId resourceId width height : UInt32)
    (reply : Reply) : Except Panic (Except String Unit × VirtioGpuDriver) :=
  d.request build (setScanoutCommand scanoutId resourceId width height) "GPU failed to set scanout."
    reply

end VirtioGpuDriver

/-- The arguments of `flush_to_screen`. -/
structure FlushArgs where
  resourceId : UInt32
  width : UInt32
  height : UInt32
  deriving DecidableEq

def FlushArgs.transferCommand (a : FlushArgs) : GpuCommand :=
  .transferToHost2d
    ⟨.withTy .transferToHost2d,⟨0,0,a.width,a.height⟩,0,a.resourceId,0⟩

def FlushArgs.flushCommand (a : FlushArgs) : GpuCommand :=
  .resourceFlush ⟨.withTy .resourceFlush,⟨0,0,a.width,a.height⟩,a.resourceId,0⟩

/-- The four descriptors of one `flush_to_screen`. -/
structure FlushDescriptors where
  headIdx : Fin 64
  idx2 : Fin 64
  idx3 : Fin 64
  tailIdx : Fin 64

namespace VirtioGpuDriver

/-- Command 1 goes to the front of the mailbox. -/
def draftTransfer (d : VirtioGpuDriver) (a : FlushArgs) : VirtioGpuDriver :=
  {d with mailbox := d.mailbox.write 0 a.transferCommand}

/-- `cmd2_offset`. -/
def cmd2Offset : ℕ := 56

/-- Command 2 goes right behind it. -/
def draftFlush (d : VirtioGpuDriver) (a : FlushArgs) : VirtioGpuDriver :=
  {d with mailbox := d.mailbox.write cmd2Offset a.flushCommand}

/-- Four linked descriptors off the free list. -/
def grab (build : Profile) (d : VirtioGpuDriver) :
    Except Panic (FlushDescriptors × VirtioGpuDriver) := do
  let headIdx ← VirtQueue.index d.queue.freeHead
  let idx2 ← VirtQueue.index (d.queue.link headIdx)
  let idx3 ← VirtQueue.index (d.queue.link idx2)
  let tailIdx ← VirtQueue.index (d.queue.link idx3)
  let queue ← d.queue.unlink build tailIdx 4
  .ok (⟨headIdx,idx2,idx3,tailIdx⟩,{d with queue})

/-- Descriptors 1 and 2: the transfer and its response. -/
def loadTransfer (d : VirtioGpuDriver) (f : FlushDescriptors) : VirtioGpuDriver :=
  let queue := d.queue.load f.headIdx (d.address 0) 56 virtqDescFNext
  {d with queue := queue.load f.idx2 (d.address 512) 24 virtqDescFWrite}

/-- Descriptors 3 and 4: the flush and its response. -/
def loadFlush (d : VirtioGpuDriver) (f : FlushDescriptors) : VirtioGpuDriver :=
  let queue := d.queue.load f.idx3 (d.address cmd2Offset) 48 virtqDescFNext
  {d with queue := queue.load f.tailIdx (d.address 528) 24 virtqDescFWrite}

/-- Both heads go to the available ring. -/
def publishPair (d : VirtioGpuDriver) (f : FlushDescriptors) : VirtioGpuDriver :=
  let availIdx := d.queue.available.idx.toNat
  {d with queue := ((d.queue.setSlot availIdx f.headIdx).setSlot (availIdx + 1) f.idx3).bump 2}

/-- The four descriptors go back at once, the second pair in front of the first. -/
def reclaimPair (build : Profile) (d : VirtioGpuDriver) (f : FlushDescriptors) :
    Except Panic VirtioGpuDriver := do
  let queue := (d.queue.relink f.headIdx f.idx2).relink f.idx3 f.tailIdx
  let queue ← queue.addFree build 4
  .ok {d with queue}

/-- What `flush_to_screen` does up to the doorbell. -/
def submitPair (build : Profile) (d : VirtioGpuDriver) (a : FlushArgs) :
    Except Panic (FlushDescriptors × VirtioGpuDriver) := do
  let (f,d) ← ((d.draftTransfer a).draftFlush a).grab build
  .ok (f,((d.loadTransfer f).loadFlush f).publishPair f)

def flushToScreen (build : Profile) (d : VirtioGpuDriver) (a : FlushArgs) :
    Except Panic VirtioGpuDriver :=
  if d.queue.numFree < 4 then .ok d
  else do
    let (f,d) ← d.submitPair build a
    d.reclaimPair build f

end VirtioGpuDriver
end PolymorphOS
