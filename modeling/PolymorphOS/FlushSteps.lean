import PolymorphOS.VirtioGpuRuns

/-! `flush_to_screen`, one effect on the shared memory at a time, interleaved with a device that
processes the available ring in order and takes its time. -/
namespace PolymorphOS

/-- The two commands of a flush. -/
inductive FlushKind
  | transfer | flush
  deriving DecidableEq

namespace FlushKind

def other : FlushKind → FlushKind
  | .transfer => .flush
  | .flush => .transfer

/-- The kind of the `m`-th head published. -/
def nth (m : ℕ) : FlushKind := if m % 2 = 0 then .transfer else .flush

def command : FlushKind → FlushArgs → GpuCommand
  | .transfer => FlushArgs.transferCommand
  | .flush => FlushArgs.flushCommand

/-- Where in the mailbox the command is drafted. -/
def offset : FlushKind → ℕ
  | .transfer => 0
  | .flush => VirtioGpuDriver.cmd2Offset

def len : FlushKind → UInt32
  | .transfer => 56
  | .flush => 48

end FlushKind

namespace VirtioGpuDriver

/-- The command that starts at a physical address, provided the length fits. -/
def commandAt (d : VirtioGpuDriver) (addr : UInt64) (len : UInt32) : Option GpuCommand :=
  if d.mailboxPhys.1 ≤ addr.toNat then
    (d.mailbox (addr.toNat - d.mailboxPhys.1)).filter fun c => c.size = len.toNat
  else none

/-- What the device executes for the `n`-th slot of the available ring: the command to which the
head's descriptor points by then. -/
def fetch (d : VirtioGpuDriver) (n : ℕ) : Option GpuCommand :=
  match VirtQueue.deref (d.queue.available.ring (VirtQueue.slot n)) with
  | some head => d.commandAt (d.queue.descriptors head).addr (d.queue.descriptors head).len
  | none => none

end VirtioGpuDriver

/-- Where a call of `flush_to_screen` stands. -/
inductive FlushPc
  | idle
  | transferDrafted (args : FlushArgs)
  | drafted
  | transferLoaded (f : FlushDescriptors)
  | loaded (f : FlushDescriptors)
  | published (f : FlushDescriptors)

/-- The driver and its calls: the arguments of those begun, how many have drafted each command
and filled in each command's chain, and how many have published theirs. -/
structure FlushCalls where
  driver : VirtioGpuDriver
  pc : FlushPc
  calls : List FlushArgs
  drafts : FlushKind → ℕ
  loads : FlushKind → ℕ
  published : ℕ

namespace FlushCalls

def drafted (s : FlushCalls) (kind : FlushKind) : FlushKind → ℕ :=
  Function.update s.drafts kind (s.drafts kind + 1)

def loaded (s : FlushCalls) (kind : FlushKind) : FlushKind → ℕ :=
  Function.update s.loads kind (s.loads kind + 1)

/-- The next effect of the call in progress, or of a call with these arguments. -/
def step (build : Profile) (s : FlushCalls) (args : FlushArgs) : Except Panic FlushCalls :=
  match s.pc with
  | .idle =>
    if s.driver.queue.numFree < 4 then .ok s
    else .ok {s with
      driver := s.driver.draftTransfer args
      pc := .transferDrafted args
      calls := s.calls ++ [args]
      drafts := s.drafted .transfer}
  | .transferDrafted args =>
    .ok {s with driver := s.driver.draftFlush args,pc := .drafted,drafts := s.drafted .flush}
  | .drafted => do
    let (f,driver) ← s.driver.grab build
    .ok {s with
      driver := driver.loadTransfer f
      pc := .transferLoaded f
      loads := s.loaded .transfer}
  | .transferLoaded f =>
    .ok {s with driver := s.driver.loadFlush f,pc := .loaded f,loads := s.loaded .flush}
  | .loaded f =>
    .ok {s with driver := s.driver.publishPair f,pc := .published f,published := s.published + 1}
  | .published f => do
    let driver ← s.driver.reclaimPair build f
    .ok {s with driver,pc := .idle}

/-- The effects of a call that is not dropped add up to `flush_to_screen`. -/
theorem foldlM_step (build : Profile) {s : FlushCalls} (args : FlushArgs)
    (hpc : s.pc = .idle) (hnum : ¬s.driver.queue.numFree < 4) :
    ((List.replicate 6 args).foldlM (FlushCalls.step build) s).map FlushCalls.driver =
      s.driver.flushToScreen build args := by
  rw [VirtioGpuDriver.flushToScreen,if_neg hnum,VirtioGpuDriver.submitPair]
  simp only [List.replicate,List.foldlM_cons,List.foldlM_nil,FlushCalls.step,hpc,if_neg hnum,bind,
    Except.bind]
  cases ((s.driver.draftTransfer args).draftFlush args).grab build with
  | error e => rfl
  | ok r =>
    dsimp only
    cases (((r.2.loadTransfer r.1).loadFlush r.1).publishPair r.1).reclaimPair build r.1 with
    | error e => rfl
    | ok d => rfl

/-- The commands published so far. -/
def commands (s : FlushCalls) : List GpuCommand :=
  (s.calls.take s.published).flatMap fun args => [args.transferCommand,args.flushCommand]

/-- Which command the descriptor of the `m`-th head stands for by now. Each call fills the two
command descriptors the other way round than the call before it, its own transfer first. -/
def target (s : FlushCalls) (m : ℕ) : FlushKind :=
  if s.loads .transfer = s.loads .flush then
    if Even (s.loads .flush - 1 - m / 2) then .nth m else (FlushKind.nth m).other
  else .transfer

/-- An even number of calls have filled in the descriptor of the `m`-th head since its own call,
and the latest draft of its command has the arguments of its own call. -/
def Intact (s : FlushCalls) (m : ℕ) : Prop :=
  s.target m = .nth m ∧ s.calls[s.drafts (.nth m) - 1]? = s.calls[m / 2]?

instance (s : FlushCalls) (m : ℕ) : Decidable (s.Intact m) := inferInstanceAs (Decidable (_ ∧ _))

end FlushCalls

/-- The device has its own index into the available ring. Of each entry it processed, `executed`
has the command and `intact` whether the entry was intact at that time. -/
structure FlushState where
  host : FlushCalls
  seen : UInt16
  executed : List (Option GpuCommand)
  intact : List Bool

inductive FlushAction
  | call (args : FlushArgs)
  | process

/-- The device processes the next entry. -/
def FlushState.process (s : FlushState) : FlushState where
  host := s.host
  seen := s.seen + 1
  executed := s.executed ++ [s.host.driver.fetch s.seen.toNat]
  intact := s.intact ++ [decide (s.host.Intact s.executed.length)]

/-- At most 64 heads are outstanding. -/
inductive FlushStep (build : Profile) : FlushState → FlushAction → FlushState → Prop
  | call {s : FlushState} {args : FlushArgs} {host : FlushCalls} :
      s.host.step build args = .ok host →
      (host.driver.queue.available.idx - s.seen).toNat ≤ 64 →
      FlushStep build s (.call args) {s with host}
  | process {s : FlushState} : s.seen ≠ s.host.driver.queue.available.idx →
      FlushStep build s .process s.process

/-- Before the first call, when the device has processed every entry there is. -/
def FlushState.start (d : VirtioGpuDriver) : FlushState :=
  ⟨⟨d,.idle,[],fun _ => 0,fun _ => 0,0⟩,d.queue.available.idx,[],[]⟩

/-- Any sequence of flushes on a queue with free descriptors, and any schedule of the device. -/
def flushSystem (build : Profile) : Runs.System FlushState FlushAction where
  init s := ∃ d l p, d.queue.Free l ∧ 4 ≤ l.length ∧ d.queue.Logged p ∧ s = .start d
  step := FlushStep build

end PolymorphOS
