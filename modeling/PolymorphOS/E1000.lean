import PolymorphOS.ByteMemory
import PolymorphOS.FrameAllocator

/-! `e1000.rs`: the two descriptor rings that the network driver shares with its card. -/
namespace PolymorphOS

/-- An index into a ring; `NUM_TX_DESCRIPTORS` and `NUM_RX_DESCRIPTORS` are 32. -/
abbrev Bucket := Fin 32

/-- The bucket of the `n`-th use of a ring. -/
def bucket (n : ℕ) : Bucket := Fin.ofNat 32 n

theorem bucket_succ (n : ℕ) : bucket n + 1 = bucket (n + 1) := by
  apply Fin.ext
  simp only [bucket,Fin.val_add,Fin.val_ofNat,Fin.val_one]
  omega

theorem bucket_eq_iff {m n : ℕ} : bucket m = bucket n ↔ m % 32 = n % 32 := Fin.ext_iff

theorem bucket_ne {m n : ℕ} (hlt : m < n) (hle : n < m + 32) : bucket m ≠ bucket n := by
  rw [Ne,bucket_eq_iff]
  omega

structure TransmitDescriptor where
  bufferAddr : UInt64
  length : UInt16
  command : UInt8
  status : UInt8

/-- `TD_CMD_EOP`, `TD_CMD_IFCS` and `TD_CMD_RS`. -/
def tdCmdEop : UInt8 := (1 : UInt8) <<< 0
def tdCmdIfcs : UInt8 := (1 : UInt8) <<< 1
def tdCmdRs : UInt8 := (1 : UInt8) <<< 3

structure ReceiveDescriptor where
  bufferAddr : UInt64
  length : UInt16
  status : UInt8

/-- `RD_DD`. -/
def rdDd : UInt8 := (1 : UInt8) <<< 0

/-- The driver, the memory its buffers lie in, and the head and tail registers of the card. The
virtual pointers stand for the physical addresses that they map. -/
structure E1000Driver where
  txRing : Bucket → TransmitDescriptor
  txBufferPhys : PhysAddr
  txIndex : Bucket
  rxRing : Bucket → ReceiveDescriptor
  rxBuffers : Bucket → PhysAddr
  rxIndex : Bucket
  memory : ℕ → UInt8
  tdh : Bucket
  tdt : Bucket
  rdh : Bucket
  rdt : Bucket

namespace E1000Driver

def initTxRing (d : E1000Driver) : E1000Driver := {d with tdh := 0,tdt := 0}

/-- Every bucket gets a frame of its own, and the card gets all of them but one. -/
def initRxRing (d : E1000Driver) (frames : Bucket → PhysFrame) : E1000Driver :=
  {d with
    rdh := 0
    rdt := 31
    rxBuffers := fun i => (frames i).startAddress
    rxRing := fun i =>
      {d.rxRing i with bufferAddr := UInt64.ofNat (frames i).startAddress.1,status := 0}}

/-- One byte of the payload reaches the staging buffer. -/
def copyByte (d : E1000Driver) (payload : List UInt8) (i : ℕ) : E1000Driver :=
  {d with memory := Function.update d.memory (d.txBufferPhys.1 + i) (payload.getD i 0)}

def stage (d : E1000Driver) (payload : List UInt8) : E1000Driver :=
  {d with memory := splice d.memory d.txBufferPhys.1 payload.length fun i => payload.getD i 0}

/-- The next descriptor points to the staging buffer. -/
def fillDescriptor (d : E1000Driver) (payload : List UInt8) : E1000Driver :=
  let desc : TransmitDescriptor := {
    bufferAddr := UInt64.ofNat d.txBufferPhys.1
    length := UInt16.ofNat payload.length
    command := tdCmdEop ||| tdCmdIfcs ||| tdCmdRs
    status := 0}
  {d with txRing := Function.update d.txRing d.txIndex desc}

/-- The index moves on, and `TDT` with it. -/
def ringTail (d : E1000Driver) : E1000Driver := {d with txIndex := d.txIndex + 1,tdt := d.txIndex + 1}

def transmitPacketSecure (d : E1000Driver) (payload : List UInt8) : E1000Driver :=
  if payload.length > 1518 then d
  else ((d.stage payload).fillDescriptor payload).ringTail

/-- What `packet_len` bytes of a bucket's buffer are. -/
def packetData (d : E1000Driver) (i : Bucket) (packetLen : ℕ) : List UInt8 :=
  (List.range packetLen).map fun j => d.memory ((d.rxBuffers i).1 + j)

def setStatus (d : E1000Driver) (i : Bucket) (status : UInt8) : E1000Driver :=
  {d with rxRing := Function.update d.rxRing i {d.rxRing i with status}}

def clearStatus (d : E1000Driver) : E1000Driver := d.setStatus d.rxIndex 0

/-- The index moves on, and `RDT` to where it was. -/
def releaseBucket (d : E1000Driver) : E1000Driver := {d with rxIndex := d.rxIndex + 1,rdt := d.rxIndex}

def pollReceive (d : E1000Driver) : Option (List UInt8) × E1000Driver :=
  let desc := d.rxRing d.rxIndex
  if desc.status &&& rdDd ≠ 0 then
    (some (d.packetData d.rxIndex desc.length.toNat),d.clearStatus.releaseBucket)
  else (none,d)

/-- The card moves on to its next bucket. -/
def advanceTdh (d : E1000Driver) : E1000Driver := {d with tdh := d.tdh + 1}

def advanceRdh (d : E1000Driver) : E1000Driver := {d with rdh := d.rdh + 1}

/-- What the card sends for a descriptor: so many bytes from where it points. -/
def frameAt (d : E1000Driver) (i : Bucket) : List UInt8 :=
  (List.range (d.txRing i).length.toNat).map fun j => d.memory ((d.txRing i).bufferAddr.toNat + j)

/-- The card stores a frame in a bucket, and says how long it is. -/
def storeFrame (d : E1000Driver) (i : Bucket) (frame : List UInt8) : E1000Driver :=
  {d with
    memory := splice d.memory (d.rxRing i).bufferAddr.toNat frame.length fun j => frame.getD j 0
    rxRing := Function.update d.rxRing i {d.rxRing i with length := UInt16.ofNat frame.length}}

section Projections

variable (d : E1000Driver) (i j : Bucket) (status : UInt8) (frame : List UInt8)

@[simp] theorem setStatus_bufferAddr :
    ((d.setStatus i status).rxRing j).bufferAddr = (d.rxRing j).bufferAddr := by
  by_cases h : j = i <;> simp [setStatus,h]

@[simp] theorem setStatus_length :
    ((d.setStatus i status).rxRing j).length = (d.rxRing j).length := by
  by_cases h : j = i <;> simp [setStatus,h]

theorem setStatus_status : ((d.setStatus i status).rxRing j).status =
    if j = i then status else (d.rxRing j).status := by
  by_cases h : j = i <;> simp [setStatus,h]

@[simp] theorem storeFrame_bufferAddr :
    ((d.storeFrame i frame).rxRing j).bufferAddr = (d.rxRing j).bufferAddr := by
  by_cases h : j = i <;> simp [storeFrame,h]

@[simp] theorem storeFrame_status :
    ((d.storeFrame i frame).rxRing j).status = (d.rxRing j).status := by
  by_cases h : j = i <;> simp [storeFrame,h]

theorem storeFrame_length : ((d.storeFrame i frame).rxRing j).length =
    if j = i then UInt16.ofNat frame.length else (d.rxRing j).length := by
  by_cases h : j = i <;> simp [storeFrame,h]

theorem storeFrame_memory : (d.storeFrame i frame).memory =
    splice d.memory (d.rxRing i).bufferAddr.toNat frame.length fun j => frame.getD j 0 := rfl

end Projections
end E1000Driver
end PolymorphOS
