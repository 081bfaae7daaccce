import PolymorphOS.ByteMemory
import PolymorphOS.FlushSteps
import PolymorphOS.GpuRequests

/-! Flushes and waiting calls on one queue, one effect at a time, against a device that completes
the chains in the order they were published and takes its time. -/
namespace PolymorphOS

namespace Reply

/-- What a waiting call reads in the envelope at an address. -/
def read (usedIdx : UInt16) (memory : ℕ → UInt8) (addr : ℕ) : Reply where
  usedIdx
  ty := word memory addr
  rect := ⟨word memory (addr + 24),word memory (addr + 28),word memory (addr + 32),
    word memory (addr + 36)⟩

/-- The reply that these bytes are. -/
def ofBytes (bytes : List UInt8) : Reply := read 0 (fun i => bytes.getD i 0) 0

/-- A device's reply is at least a header, and one that reports displays has them all. -/
def Whole (bytes : List UInt8) : Prop :=
  24 ≤ bytes.length ∧
    ((ofBytes bytes).ty = CommandTy.respOkDisplayInfo.code → 408 ≤ bytes.length)

end Reply

/-- The descriptor that the reply to the `n`-th head goes to. -/
def VirtQueue.envelope (vq : VirtQueue) (n : ℕ) : Option VirtqDesc := do
  let head ← deref (vq.available.ring (slot n))
  let reply ← deref (vq.link head)
  some (vq.descriptors reply)

/-- A waiting call in the queue; its chain is the `chain`-th published. -/
structure Waiting where
  call : WaitingCall
  headIdx : Fin 64
  nextIdx : Fin 64
  chain : ℕ

/-- Where a waiting call stands: the envelope is cleared, the command is in the queue, the spin
loop has ended, `used.idx` is noted. -/
inductive WaitPc
  | idle
  | cleared (call : WaitingCall)
  | spinning (w : Waiting)
  | woken (w : Waiting)
  | noted (w : Waiting) (usedIdx : UInt16)

/-- A waiting call that has returned, with the replies of the chains completed by then. -/
structure Returned where
  call : WaitingCall
  chain : ℕ
  replies : List (List UInt8)
  result : CallResult

/-- Its own chain was completed, and its own reply decided. -/
def Returned.Proper (r : Returned) : Prop :=
  ∃ bytes, r.replies[r.chain]? = some bytes ∧ r.result = r.call.result (.ofBytes bytes)

/-- The driver with its calls, the memory it shares with the device, how many chains there are,
and the replies to the completed ones. A reply is in memory before `used.idx` moves. -/
structure WaitState where
  host : FlushCalls
  pc : WaitPc
  memory : ℕ → UInt8
  usedIdx : UInt16
  published : ℕ
  written : Option (List UInt8)
  replies : List (List UInt8)
  returned : List Returned

namespace WaitState

/-- Where the waiting calls place their envelope. -/
def respPhys (s : WaitState) : ℕ := s.host.driver.mailboxPhys.1 + 512

def clear (s : WaitState) (call : WaitingCall) : WaitState :=
  {s with
    pc := .cleared call
    memory := splice s.memory s.respPhys call.replyLen.toNat fun _ => 0}

def submit (s : WaitState) (call : WaitingCall) (headIdx nextIdx : Fin 64)
    (driver : VirtioGpuDriver) : WaitState :=
  {s with
    host := {s.host with driver}
    pc := .spinning ⟨call,headIdx,nextIdx,s.published⟩
    published := s.published + 1}

def reply (s : WaitState) (usedIdx : UInt16) : Reply := .read usedIdx s.memory s.respPhys

def finish (s : WaitState) (w : Waiting) (usedIdx : UInt16) (driver : VirtioGpuDriver) :
    WaitState :=
  {s with
    host := {s.host with driver}
    pc := .idle
    returned := s.returned ++ [⟨w.call,w.chain,s.replies,w.call.result (s.reply usedIdx)⟩]}

/-- The device writes its reply to the next chain, as far as the descriptor leaves room. -/
def write (s : WaitState) (bytes : List UInt8) : WaitState :=
  {s with
    memory := match s.host.driver.queue.envelope s.replies.length with
      | some desc =>
        splice s.memory desc.addr.toNat (min bytes.length desc.len.toNat) fun i => bytes.getD i 0
      | none => s.memory
    written := some bytes}

def advance (s : WaitState) (bytes : List UInt8) : WaitState :=
  {s with
    usedIdx := s.usedIdx + 1
    written := none
    replies := s.replies ++ [bytes]}

/-- When a command is published: all chains before it are completed, and `last_used_idx` is up
to date. -/
def Settled (s : WaitState) : Prop :=
  s.replies.length = s.published ∧ s.host.driver.queue.lastUsedIdx = s.usedIdx

end WaitState

inductive WaitAction
  | flush (args : FlushArgs)
  | clear (call : WaitingCall)
  | submit
  | wake
  | note
  | finish
  | write (bytes : List UInt8)
  | advance

inductive WaitStep (build : Profile) : WaitState → WaitAction → WaitState → Prop
  | flush {s : WaitState} {args : FlushArgs} {host : FlushCalls} : s.pc = .idle →
      s.host.step build args = .ok host →
      WaitStep build s (.flush args)
        {s with host,published := s.published + 2*(host.published - s.host.published)}
  | clear {s : WaitState} {call : WaitingCall} : s.pc = .idle → s.host.pc = .idle →
      WaitStep build s (.clear call) (s.clear call)
  | submit {s : WaitState} {call : WaitingCall} {a b : Fin 64} {driver : VirtioGpuDriver} :
      s.pc = .cleared call →
      s.host.driver.submit build call.command call.replyLen = .ok (a,b,driver) →
      WaitStep build s .submit (s.submit call a b driver)
  | wake {s : WaitState} {w : Waiting} : s.pc = .spinning w →
      s.host.driver.queue.lastUsedIdx ≠ s.usedIdx →
      WaitStep build s .wake {s with pc := .woken w}
  | note {s : WaitState} {w : Waiting} : s.pc = .woken w →
      WaitStep build s .note {s with pc := .noted w s.usedIdx}
  | finish {s : WaitState} {w : Waiting} {usedIdx : UInt16} {driver : VirtioGpuDriver} :
      s.pc = .noted w usedIdx →
      w.call.finish build s.host.driver w.headIdx w.nextIdx (s.reply usedIdx) = .ok driver →
      WaitStep build s .finish (s.finish w usedIdx driver)
  | write {s : WaitState} {bytes : List UInt8} : s.written = none →
      s.replies.length < s.published → Reply.Whole bytes →
      WaitStep build s (.write bytes) (s.write bytes)
  | advance {s : WaitState} {bytes : List UInt8} : s.written = some bytes →
      WaitStep build s .advance (s.advance bytes)

/-- Before the first call on a new queue. -/
def WaitState.start (d : VirtioGpuDriver) (memory : ℕ → UInt8) : WaitState :=
  ⟨⟨d,.idle,[],fun _ => 0,fun _ => 0,0⟩,.idle,memory,0,0,none,[],[]⟩

/-- Any sequence of calls on a new queue, and any schedule of the device. -/
def waitSystem (build : Profile) : Runs.System WaitState WaitAction where
  init s := ∃ d memory, d.queue = .new ∧ s = .start d memory
  step := WaitStep build

/-- The runs in which every command is published when the queue is settled. -/
def settledSystem (build : Profile) : Runs.System WaitState WaitAction :=
  (waitSystem build).guard fun s a => a = .submit → s.Settled

/-- The runs in which no further command is submitted. -/
def singleSystem (build : Profile) : Runs.System WaitState WaitAction :=
  (waitSystem build).guard fun _ a => a ≠ .submit

end PolymorphOS
