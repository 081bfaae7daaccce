import PolymorphOS.WakeUps
import PolymorphOS.DesktopRuns

/-! The kernel's four tasks on the executor. `physics_tick_task` awaits `yield_now()` whether a
window moves or not, so the queue that the executor drains always holds it again. -/
namespace PolymorphOS

/-- `Transitioning`, or not yet at its depth. -/
def SemanticWindow.animating (win : SemanticWindow) : Bool :=
  win.baseZ ≠ win.targetZ || match win.state with
    | .transitioning _ => true
    | .stable _ => false

/-- One round of `physics_tick_task` up to its `yield_now().await`, the same in both branches. -/
def physicsTick (gpu : GpuDriver) (d : Desktop) : Except Panic Desktop :=
  if d.engine.windows.any SemanticWindow.animating then do return (← d.renderDesktop gpu).1
  else return d

/-- The executor with its tasks, and the desktop. -/
structure KernelState where
  machine : Machine
  desktop : Desktop

/-- `genesis_init_task`, `print_keypresses`, `desktop_compositor_task` and `physics_tick_task`. -/
def kernelTasks : TaskSet where
  ids := {0,1,2,3}
  kind id :=
    if id = 0 then .stream .serial
    else if id = 1 then .stream .keyboard
    else if id = 2 then .stream .mouse
    else .yieldNow

/-- `physics_tick_task` -/
def physicsTask : TaskId := 3

/-- All four tasks are loops without an end, and `run` is called once they are spawned. -/
def KernelAllows (m : Machine) (a : MachineAction) : Prop :=
  a ≠ .finish ∧
    (m.pc = .spawning → a = .step → ∀ id ∈ kernelTasks.ids, (m.executor.processRegistry id).isSome)

/-- A step of the executor. The physics task's own code ticks the desktop, the code of the others
does to it what its input says. -/
inductive KernelStep (gpu : GpuDriver) : KernelState → MachineAction → KernelState → Prop
  | tick {k : KernelState} {m' : Machine} {d' : Desktop} : k.machine.pc = .running physicsTask →
      Exec kernelTasks k.machine .step (.ok m') → physicsTick gpu k.desktop = .ok d' →
      KernelStep gpu k .step ⟨m',d'⟩
  | input {k : KernelState} {m' : Machine} {d' : Desktop} {id : TaskId} : k.machine.pc = .running id →
      id ≠ physicsTask → Exec kernelTasks k.machine .step (.ok m') →
      KernelStep gpu k .step ⟨m',d'⟩
  | other {k : KernelState} {m' : Machine} {a : MachineAction} : (∀ id, k.machine.pc = .running id →
      a ≠ .step) → KernelAllows k.machine a → Exec kernelTasks k.machine a (.ok m') →
      KernelStep gpu k a ⟨m',k.desktop⟩

/-- From `kernel_main`'s first `spawn` on. -/
def kernelSystem (gpu : GpuDriver) (screen : Screen) : Runs.System KernelState MachineAction where
  init k := k = ⟨.boot,(DesktopRun.start screen).desktop⟩
  step := KernelStep gpu

/-- No interrupt: neither input nor the timer. -/
def Quiet (_ : KernelState) : MachineAction → Prop
  | .interrupt _ _ => False
  | .timer => False
  | _ => True

/-- No window moves, and no input waits. -/
structure KernelState.Idle (k : KernelState) : Prop where
  still : ∀ win ∈ k.desktop.engine.windows, win.animating = false
  empty : ∀ id, (k.machine.streams id).ring.head = (k.machine.streams id).ring.tail

/-- Without another interrupt, the loop of `run_ready_tasks` may come to its end. -/
def KernelState.Drains (gpu : GpuDriver) (screen : Screen) (k : KernelState) : Prop :=
  ∃ k', ((kernelSystem gpu screen).guard Quiet).Run k k' ∧
    k'.machine.pc = .pop ∧ k'.machine.executor.readyQueue = []

/-- Without another interrupt, the processor may come to its `hlt`. -/
def KernelState.Halts (gpu : GpuDriver) (screen : Screen) (k : KernelState) : Prop :=
  ∃ k', ((kernelSystem gpu screen).guard Quiet).Run k k' ∧ k'.machine.pc = .halted

/-- The task `p` has been taken from the queue, and has not yet pushed itself back. -/
def Taken (p : TaskId) (pc : ExecPc) : Prop := pc = .popped p ∨ pc = .running p ∨ pc = .yielding p

/-- Past the end of `run_ready_tasks`. -/
def Sleeping (pc : ExecPc) : Prop := pc = .idle ∨ pc = .disabled ∨ pc = .halted

/-- The invariant: a task that only ever yields is in the queue, or on its way back, and so the
loop of `run_ready_tasks` goes on. -/
structure Restless (p : TaskId) (m : Machine) : Prop where
  awake : ¬Sleeping m.pc
  spawned : m.pc ≠ .spawning → (m.executor.processRegistry p).isSome
  future : m.executor.processRegistry p ≠ some .next
  queued : (m.executor.processRegistry p).isSome → p ∈ m.executor.readyQueue ∨ Taken p m.pc

namespace Restless

variable {m m' : Machine} {a : MachineAction} {p : TaskId}

theorem boot (p : TaskId) : Restless p .boot where
  awake := by simp [Sleeping,Machine.boot]
  spawned h := absurd rfl h
  future := nofun
  queued := nofun

theorem mem (h : Restless p m) (hpc : m.pc ≠ .spawning) (htaken : ¬Taken p m.pc) :
    p ∈ m.executor.readyQueue :=
  (h.queued (h.spawned hpc)).resolve_right htaken

/-- A step between two polls, or in the poll of another task. -/
theorem keep (h : Restless p m) (hpc : m.pc ≠ .spawning) (htaken : ¬Taken p m.pc)
    (hawake : ¬Sleeping m'.pc) (hq : p ∈ m.executor.readyQueue → p ∈ m'.executor.readyQueue)
    (hreg : m'.executor.processRegistry p = m.executor.processRegistry p) : Restless p m' where
  awake := hawake
  spawned _ := by
    rw [hreg]
    exact h.spawned hpc
  future := by
    rw [hreg]
    exact h.future
  queued _ := .inl (hq (h.mem hpc htaken))

/-- A step of the task's own poll. -/
theorem poll {future : TaskFuture} (hreg : m'.executor.processRegistry p = some future)
    (hfuture : future ≠ .next) (hawake : ¬Sleeping m'.pc)
    (hq : p ∈ m'.executor.readyQueue ∨ Taken p m'.pc) : Restless p m' where
  awake := hawake
  spawned _ := by
    rw [hreg]
    rfl
  future := by
    rw [hreg]
    exact fun he => hfuture (Option.some.inj he)
  queued _ := hq

theorem spawn (h : Restless p m) (hpc : m.pc = .spawning) (id : TaskId) :
    Restless p {m with executor := ⟨Function.update m.executor.processRegistry id (some .start),
      m.executor.readyQueue ++ [id]⟩} := by
  by_cases hid : p = id
  · subst hid
    exact poll (Function.update_self ..) nofun h.awake (.inl (by simp))
  · have hreg := Function.update_of_ne hid (some .start) m.executor.processRegistry
    refine ⟨h.awake,fun hne => absurd hpc hne,fun he => h.future (hreg.symm.trans he),
      fun hsome => .inl (List.mem_append_left _ ?_)⟩
    exact (h.queued (hreg ▸ hsome)).resolve_right (by simp [Taken,hpc])

theorem pop {id : TaskId} {rest : List TaskId} (h : Restless p m) (hpc : m.pc = .pop)
    (hq : m.executor.readyQueue = id :: rest) :
    Restless p {m with executor := {m.executor with readyQueue := rest},pc := .popped id} := by
  have hmem := h.mem (by simp [hpc]) (by simp [Taken,hpc])
  refine ⟨by simp [Sleeping],fun _ => h.spawned (by simp [hpc]),h.future,fun _ => ?_⟩
  rw [hq] at hmem
  rcases List.mem_cons.mp hmem with rfl | hrest
  · exact .inr (.inl rfl)
  · exact .inl hrest

theorem enter {id : TaskId} {future : TaskFuture} (h : Restless p m) (hpc : m.pc = .popped id)
    (hreg : m.executor.processRegistry id = some future) :
    Restless p {m with pc := Machine.enter id future} := by
  have hawake : ¬Sleeping (Machine.enter id future) := by
    cases future <;> simp [Sleeping,Machine.enter]
  by_cases hid : id = p
  · subst hid
    have hfuture : future ≠ .next := fun he => h.future (he ▸ hreg)
    refine poll hreg hfuture hawake (.inr ?_)
    cases future with
    | start => exact .inr (.inl rfl)
    | next => exact absurd rfl hfuture
    | yieldNow yielded => exact .inr (.inr rfl)
  · exact h.keep (by simp [hpc]) (by simp [Taken,hpc,hid]) hawake (fun hmem => hmem) rfl

theorem await {id : TaskId} (hkind : kernelTasks.kind p = .yieldNow) (h : Restless p m)
    (hpc : m.pc = .running id) : Restless p (m.await id (kernelTasks.kind id)) := by
  by_cases hid : id = p
  · subst hid
    rw [hkind]
    exact poll (Function.update_self ..) (by simp) (by simp [Sleeping,Machine.await])
      (.inr (.inr (.inr rfl)))
  · have htaken : ¬Taken p m.pc := by simp [Taken,hpc,hid]
    have hreg (future : TaskFuture) :=
      Function.update_of_ne (Ne.symm hid) (some future) m.executor.processRegistry
    cases kernelTasks.kind id with
    | stream d =>
      exact h.keep (by simp [hpc]) htaken (by simp [Sleeping,Machine.await]) (fun hmem => hmem) (hreg _)
    | yieldNow =>
      exact h.keep (by simp [hpc]) htaken (by simp [Sleeping,Machine.await]) (fun hmem => hmem) (hreg _)

theorem pollYield {id : TaskId} {yielded : Bool} (h : Restless p m) (hpc : m.pc = .yielding id)
    (hreg : m.executor.processRegistry id = some (.yieldNow yielded))
    (hok : m.pollYield id yielded = .ok m') : Restless p m' := by
  by_cases hid : id = p
  · subst hid
    rcases Machine.pollYield_ok hok with rfl | rfl
    · exact poll hreg (by simp) (by simp [Sleeping]) (.inr (.inr (.inl rfl)))
    · exact poll (Function.update_self ..) (by simp) (by simp [Sleeping]) (.inl (by simp))
  · have htaken : ¬Taken p m.pc := by simp [Taken,hpc,hid]
    rcases Machine.pollYield_ok hok with rfl | rfl
    · exact h.keep (by simp [hpc]) htaken (by simp [Sleeping]) (fun hmem => hmem) rfl
    · exact h.keep (by simp [hpc]) htaken (by simp [Sleeping]) (fun hmem => List.mem_append_left _ hmem)
        (Function.update_of_ne (Ne.symm hid) ..)

theorem step (hkind : kernelTasks.kind p = .yieldNow) (hp : p ∈ kernelTasks.ids)
    (h : Restless p m) (ha : KernelAllows m a) (hstep : Exec kernelTasks m a (.ok m')) :
    Restless p m' := by
  generalize hres : Except.ok m' = res at hstep
  cases hstep with
  | @spawn id hpc _ hreg =>
    rw [Machine.spawn_ok hres.symm]
    exact h.spawn hpc id
  | run hpc =>
    cases hres
    have hsome := ha.2 hpc rfl p hp
    exact ⟨by simp [Sleeping],fun _ => hsome,h.future,
      fun _ => .inl ((h.queued hsome).resolve_right (by simp [Taken,hpc]))⟩
  | @interrupt id byte d stream woken hpc hkind hadd =>
    have hne : m.pc ≠ .halted := fun hp => h.awake (.inr (.inr hp))
    rw [Machine.receive_ok hres.symm,if_neg hne]
    exact ⟨h.awake,h.spawned,h.future,fun hsome =>
      (h.queued hsome).imp_left (List.mem_append_left _)⟩
  | timer hpc => exact absurd (.inr (.inr hpc)) h.awake
  | pop hpc hq =>
    cases hres
    exact h.pop hpc hq
  | drained hpc hq =>
    have hmem := h.mem (by simp [hpc]) (by simp [Taken,hpc])
    rw [hq] at hmem
    cases hmem
  | @terminated id hpc hreg =>
    cases hres
    have hsome := h.spawned (by simp [hpc])
    have hne : id ≠ p := by
      rintro rfl
      rw [hreg] at hsome
      cases hsome
    exact h.keep (by simp [hpc]) (by simp [Taken,hpc,hne]) (by simp [Sleeping]) (fun hmem => hmem) rfl
  | poll hpc hreg =>
    cases hres
    exact h.enter hpc hreg
  | await hpc =>
    cases hres
    exact h.await hkind hpc
  | finish hpc => exact absurd rfl ha.1
  | @pollNext id pc d stream r hpc hkind hpoll =>
    cases hres
    have hawake : ¬Sleeping (Machine.resume id r) := by cases r <;> simp [Sleeping,Machine.resume]
    exact h.keep (by simp [hpc]) (by simp [Taken,hpc]) hawake (fun hmem => hmem) rfl
  | yieldNow hpc hreg => exact h.pollYield hpc hreg hres.symm
  | @pending id hpc =>
    cases hres
    exact h.keep (by simp [hpc]) (by simp [Taken,hpc]) (by simp [Sleeping]) (fun hmem => hmem) rfl
  | disable hpc => exact absurd (.inl hpc) h.awake
  | halt hpc => exact absurd (.inr (.inl hpc)) h.awake
  | enable hpc => exact absurd (.inr (.inl hpc)) h.awake

end Restless

variable {gpu : GpuDriver} {screen : Screen}

theorem KernelStep.restless {k k' : KernelState} {a : MachineAction} (h : Restless physicsTask k.machine)
    (hstep : KernelStep gpu k a k') : Restless physicsTask k'.machine := by
  have hallows {id : TaskId} (hpc : k.machine.pc = .running id) : KernelAllows k.machine .step :=
    ⟨nofun,fun hspawn => by rw [hpc] at hspawn; cases hspawn⟩
  cases hstep with
  | tick hpc hexec => exact h.step rfl (by decide) (hallows hpc) hexec
  | input hpc _ hexec => exact h.step rfl (by decide) (hallows hpc) hexec
  | other _ hallowed hexec => exact h.step rfl (by decide) hallowed hexec

theorem restless_of_reachable {k : KernelState} (h : (kernelSystem gpu screen).Reachable k) :
    Restless physicsTask k.machine := by
  refine h.invariant (I := fun k => Restless physicsTask k.machine) ?_ fun _ _ _ => KernelStep.restless
  rintro _ rfl
  exact .boot _

/-- Where the executor has been restless, it stays so. -/
theorem Restless.not_drains {k : KernelState} (h : Restless physicsTask k.machine) :
    ¬k.Drains gpu screen ∧ ¬k.Halts gpu screen := by
  have hrun {k' : KernelState} (hrun : ((kernelSystem gpu screen).guard Quiet).Run k k') :
      Restless physicsTask k'.machine :=
    hrun.of_guard.preserves (I := fun k => Restless physicsTask k.machine)
      (fun _ _ _ => KernelStep.restless) h
  constructor
  · rintro ⟨k',hk',hpc,hq⟩
    have hmem := (hrun hk').mem (by simp [hpc]) (by simp [Taken,hpc])
    rw [hq] at hmem
    cases hmem
  · rintro ⟨k',hk',hpc⟩
    exact (hrun hk').awake (.inr (.inr hpc))

/-- Idle or not, the kernel never comes to the end of `run_ready_tasks`, nor to its `hlt`. -/
theorem kernel_never_sleeps {k : KernelState} (h : (kernelSystem gpu screen).Reachable k) :
    ¬k.Drains gpu screen ∧ ¬k.Halts gpu screen :=
  (restless_of_reachable h).not_drains

section Boot

/-- Tasks that have been spawned, in this order. -/
def spawnedMachine (ids : List TaskId) (pc : ExecPc) : Machine where
  executor := {
    processRegistry := ids.foldl (fun registry id => Function.update registry id (some .start))
      fun _ => none
    readyQueue := ids}
  streams := fun _ => .new
  pc := pc

def bootedKernel (screen : Screen) (ids : List TaskId) (pc : ExecPc) : KernelState :=
  ⟨spawnedMachine ids pc,(DesktopRun.start screen).desktop⟩

theorem spawn_step {ids : List TaskId} (id : TaskId) (hid : id ∈ kernelTasks.ids)
    (hnew : (spawnedMachine ids .spawning).executor.processRegistry id = none)
    (hlen : ids.length < 100) :
    KernelStep gpu (bootedKernel screen ids .spawning) (.spawn id)
      (bootedKernel screen (ids ++ [id]) .spawning) := by
  refine .other (fun _ _ => nofun) ⟨nofun,fun _ => nofun⟩ ?_
  have hexec := Exec.spawn (c := kernelTasks) (m := spawnedMachine ids .spawning) rfl hid hnew
  have hspawn : (spawnedMachine ids .spawning).executor.spawn id =
      .ok (spawnedMachine (ids ++ [id]) .spawning).executor := by
    rw [MictExecutor.spawn,hnew,MictExecutor.push]
    have hroom : (spawnedMachine ids .spawning).executor.readyQueue.length < 100 := hlen
    simp only [Option.isSome_none,Bool.false_eq_true,if_false]
    rw [if_pos hroom]
    simp only [spawnedMachine,List.foldl_append,List.foldl_cons,List.foldl_nil]
  rw [hspawn] at hexec
  exact hexec

/-- The kernel as `run` finds it: nothing moves, nothing waits. -/
theorem booted_reachable (gpu : GpuDriver) (screen : Screen) :
    (kernelSystem gpu screen).Reachable (bootedKernel screen [0,1,2,3] .pop) := by
  have h0 : (kernelSystem gpu screen).Reachable (bootedKernel screen [] .spawning) := .init rfl
  have h1 := h0.step (spawn_step 0 (by decide) rfl (by decide))
  have h2 := h1.step (spawn_step 1 (by decide) rfl (by decide))
  have h3 := h2.step (spawn_step 2 (by decide) rfl (by decide))
  have h4 := h3.step (spawn_step 3 (by decide) rfl (by decide))
  have hall : ∀ id ∈ kernelTasks.ids,
      ((spawnedMachine [0,1,2,3] .spawning).executor.processRegistry id).isSome := by decide
  exact h4.step (a := .step) (.other (fun _ hpc => nomatch hpc) ⟨nofun,fun _ _ => hall⟩ (.run rfl))

theorem booted_idle (screen : Screen) : (bootedKernel screen [0,1,2,3] .pop).Idle where
  still _ hwin := absurd hwin List.not_mem_nil
  empty _ := rfl

end Boot

/-- Nothing has happened yet, and the four tasks are on their way. -/
theorem booted_never_sleeps : ∃ k, (kernelSystem hdGpu hdScreen).Reachable k ∧ k.Idle ∧
    k.machine.pc = .pop ∧ ¬k.Drains hdGpu hdScreen ∧ ¬k.Halts hdGpu hdScreen :=
  ⟨_,booted_reachable hdGpu hdScreen,booted_idle hdScreen,rfl,
    (restless_of_reachable (booted_reachable hdGpu hdScreen)).not_drains⟩

theorem bootedKernel_never_sleeps :
    ¬(bootedKernel hdScreen [0,1,2,3] .pop).Drains hdGpu hdScreen ∧
      ¬(bootedKernel hdScreen [0,1,2,3] .pop).Halts hdGpu hdScreen :=
  kernel_never_sleeps (booted_reachable hdGpu hdScreen)

end PolymorphOS
