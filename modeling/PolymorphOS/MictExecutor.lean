import PolymorphOS.ByteStream

/-! `task/executor.rs`: the executor, its tasks and the input interrupts as one system whose
steps interleave in every way the interrupt flag allows. -/
namespace PolymorphOS

/-- What a task awaits over and over: the next byte of a stream of its own, or `yield_now()`. -/
inductive TaskKind
  | stream (d : InputDevice)
  | yieldNow
  deriving DecidableEq

/-- Where a task's future stands between two polls. -/
inductive TaskFuture
  | start
  | next
  | yieldNow (yielded : Bool)
  deriving DecidableEq

structure MictExecutor where
  processRegistry : TaskId → Option TaskFuture
  readyQueue : List TaskId

namespace MictExecutor

def new : MictExecutor := ⟨fun _ => none,[]⟩

/-- `ready_queue.push(id).expect(message)`; `ArrayQueue::new(100)`. -/
def push (e : MictExecutor) (id : TaskId) (message : String) : Except Panic MictExecutor :=
  if e.readyQueue.length < 100 then .ok {e with readyQueue := e.readyQueue ++ [id]}
  else .error (.explicit message)

def spawn (e : MictExecutor) (id : TaskId) : Except Panic MictExecutor :=
  if (e.processRegistry id).isSome then
    .error (.explicit "[DISSONANCE] Process with same ID already exists in registry")
  else {e with processRegistry := Function.update e.processRegistry id (some .start)}.push id
    "[DISSONANCE] Scheduler Ready Queue full"

/-- `TaskWaker::wake_task`; an id that is queued already is queued once more. -/
def wakeTask (e : MictExecutor) (id : TaskId) : Except Panic MictExecutor :=
  e.push id "ready_queue full"

/-- `WAKER.wake()`, with what the waker's cell held. -/
def wake (e : MictExecutor) : Option TaskId → Except Panic MictExecutor
  | none => .ok e
  | some id => e.wakeTask id

/-- The registered future of `id` moves on. -/
def suspend (e : MictExecutor) (id : TaskId) (future : TaskFuture) : MictExecutor :=
  {e with processRegistry := Function.update e.processRegistry id (some future)}

def remove (e : MictExecutor) (id : TaskId) : MictExecutor :=
  {e with processRegistry := Function.update e.processRegistry id none}

end MictExecutor

/-- What the processor runs next, interrupt handlers aside. -/
inductive ExecPc
  | spawning
  | pop
  | popped (id : TaskId)
  /-- The task's own code, started or past its last `.await`. -/
  | running (id : TaskId)
  | polling (id : TaskId) (pc : PollPc)
  | yielding (id : TaskId)
  /-- The poll is about to return `Pending`. -/
  | pending (id : TaskId)
  | idle
  | disabled
  | halted
  deriving DecidableEq

/-- The task whose poll is under way, from the pop of its id on. -/
def ExecPc.task : ExecPc → Option TaskId
  | .popped id => some id
  | .running id => some id
  | .polling id _ => some id
  | .yielding id => some id
  | .pending id => some id
  | _ => none

structure Machine where
  executor : MictExecutor
  streams : TaskId → ByteStream
  pc : ExecPc

namespace Machine

def boot : Machine := ⟨.new,fun _ => .new,.spawning⟩

/-- Where polling a registered future leads. -/
def enter (id : TaskId) : TaskFuture → ExecPc
  | .start => .running id
  | .next => .polling id .check
  | .yieldNow _ => .yielding id

/-- The task's code reaches its next `.await`. -/
def await (m : Machine) (id : TaskId) : TaskKind → Machine
  | .stream _ => {m with executor := m.executor.suspend id .next,pc := .polling id .check}
  | .yieldNow => {m with executor := m.executor.suspend id (.yieldNow false),pc := .yielding id}

/-- `YieldNow::poll`. -/
def pollYield (m : Machine) (id : TaskId) (yielded : Bool) : Except Panic Machine :=
  if yielded then .ok {m with pc := .running id}
  else do
    let executor ← (m.executor.suspend id (.yieldNow true)).wakeTask id
    pure {m with executor,pc := .pending id}

/-- Where a step of `poll_next` leads. -/
def resume (id : TaskId) : PollResult → ExecPc
  | .running pc => .polling id pc
  | .ready _ => .running id
  | .pending => .pending id

/-- The handler's effect; its return ends a `hlt`. -/
def receive (m : Machine) (id : TaskId) (stream : ByteStream) (woken : Option TaskId) :
    Except Panic Machine := do
  let executor ← m.executor.wake woken
  pure ⟨executor,Function.update m.streams id stream,if m.pc = .halted then .pop else m.pc⟩

end Machine

/-- The tasks there are to spawn and what each of them awaits. -/
structure TaskSet where
  ids : Finset TaskId
  kind : TaskId → TaskKind

inductive MachineAction
  | spawn (id : TaskId)
  | interrupt (id : TaskId) (byte : UInt8)
  | timer
  | step
  | finish

/-- What one action does, or the panic it ends in. Interrupts fall between any two steps
outside `sleep_if_idle`'s section without interrupts. -/
inductive Exec (c : TaskSet) : Machine → MachineAction → Except Panic Machine → Prop
  | spawn {m : Machine} {id : TaskId} : m.pc = .spawning → id ∈ c.ids →
      m.executor.processRegistry id = none →
      Exec c m (.spawn id) ((m.executor.spawn id).map fun executor => {m with executor})
  | run {m : Machine} : m.pc = .spawning → Exec c m .step (.ok {m with pc := .pop})
  | interrupt {m : Machine} {id : TaskId} {byte : UInt8} {d : InputDevice} {stream : ByteStream}
      {woken : Option TaskId} : m.pc ≠ .disabled → c.kind id = .stream d →
      d.addByte (m.streams id) byte = .ok (stream,woken) →
      Exec c m (.interrupt id byte) (m.receive id stream woken)
  | timer {m : Machine} : m.pc = .halted → Exec c m .timer (.ok {m with pc := .pop})
  | pop {m : Machine} {id : TaskId} {rest : List TaskId} : m.pc = .pop →
      m.executor.readyQueue = id :: rest →
      Exec c m .step (.ok {m with executor := {m.executor with readyQueue := rest},pc := .popped id})
  | drained {m : Machine} : m.pc = .pop → m.executor.readyQueue = [] →
      Exec c m .step (.ok {m with pc := .idle})
  | terminated {m : Machine} {id : TaskId} : m.pc = .popped id →
      m.executor.processRegistry id = none → Exec c m .step (.ok {m with pc := .pop})
  | poll {m : Machine} {id : TaskId} {future : TaskFuture} : m.pc = .popped id →
      m.executor.processRegistry id = some future →
      Exec c m .step (.ok {m with pc := Machine.enter id future})
  | await {m : Machine} {id : TaskId} : m.pc = .running id →
      Exec c m .step (.ok (m.await id (c.kind id)))
  | finish {m : Machine} {id : TaskId} : m.pc = .running id →
      Exec c m .finish (.ok {m with executor := m.executor.remove id,pc := .pop})
  | pollNext {m : Machine} {id : TaskId} {pc : PollPc} {d : InputDevice} {stream : ByteStream}
      {r : PollResult} : m.pc = .polling id pc → c.kind id = .stream d →
      d.pollNext id (m.streams id) pc = .ok (stream,r) →
      Exec c m .step
        (.ok {m with streams := Function.update m.streams id stream,pc := Machine.resume id r})
  | yieldNow {m : Machine} {id : TaskId} {yielded : Bool} : m.pc = .yielding id →
      m.executor.processRegistry id = some (.yieldNow yielded) →
      Exec c m .step (m.pollYield id yielded)
  | pending {m : Machine} {id : TaskId} : m.pc = .pending id → Exec c m .step (.ok {m with pc := .pop})
  | disable {m : Machine} : m.pc = .idle → Exec c m .step (.ok {m with pc := .disabled})
  | halt {m : Machine} : m.pc = .disabled → m.executor.readyQueue = [] →
      Exec c m .step (.ok {m with pc := .halted})
  | enable {m : Machine} : m.pc = .disabled → m.executor.readyQueue ≠ [] →
      Exec c m .step (.ok {m with pc := .pop})

/-- The kernel with the serial task alone. -/
def serialTask : TaskSet := ⟨{0},fun _ => .stream .serial⟩

/-- The machine from boot on, as long as nothing panics. -/
def machineSystem (c : TaskSet) : Runs.System Machine MachineAction where
  init m := m = .boot
  step m a m' := Exec c m a (.ok m')

end PolymorphOS
