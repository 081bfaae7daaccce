import PolymorphOS.WakeUps

/-! The ready queue has a slot for every task but not for every wake-up: an interrupt that
falls between a registration and the second check queues a task that is being polled. -/
namespace PolymorphOS

/-- The tasks whose id is not queued. -/
def TaskSet.unqueued (c : TaskSet) (queue : List TaskId) : ℕ := (c.ids.filter (· ∉ queue)).card

/-- The action finds the queue full when it wakes a task. -/
def Overflows (c : TaskSet) (m : Machine) (a : MachineAction) : Prop :=
  Exec c m a (.error (.explicit "ready_queue full"))

/-- An interrupt that queues a task a second time leaves a slot for each task not queued. -/
def Unhurried (c : TaskSet) (m : Machine) : MachineAction → Prop
  | .interrupt id byte => ∀ d stream w, c.kind id = .stream d →
      d.addByte (m.streams id) byte = .ok (stream,some w) → w ∈ m.executor.readyQueue →
      m.executor.readyQueue.length + c.unqueued m.executor.readyQueue < 100
  | _ => True

namespace TaskSet

variable {c : TaskSet} {queue : List TaskId} {id : TaskId}

theorem unqueued_push (hid : id ∈ c.ids) (hq : id ∉ queue) :
    c.unqueued (queue ++ [id]) + 1 = c.unqueued queue := by
  unfold unqueued
  have hmem : id ∈ c.ids.filter (· ∉ queue) := Finset.mem_filter.mpr ⟨hid,hq⟩
  have heq : c.ids.filter (· ∉ queue ++ [id]) = (c.ids.filter (· ∉ queue)).erase id := by
    ext j
    simp only [Finset.mem_filter,Finset.mem_erase,List.mem_append,List.mem_singleton]
    tauto
  rw [heq,Finset.card_erase_add_one hmem]

theorem unqueued_push_le (c : TaskSet) (queue : List TaskId) (id : TaskId) :
    c.unqueued (queue ++ [id]) ≤ c.unqueued queue := by
  apply Finset.card_le_card
  intro j hj
  simp only [Finset.mem_filter,List.mem_append] at hj ⊢
  tauto

theorem unqueued_pop_le (c : TaskSet) (rest : List TaskId) (id : TaskId) :
    c.unqueued rest ≤ c.unqueued (id :: rest) + 1 := by
  unfold unqueued
  have hsub : c.ids.filter (· ∉ rest) ⊆ insert id (c.ids.filter (· ∉ id :: rest)) := by
    intro j hj
    simp only [Finset.mem_filter,Finset.mem_insert,List.mem_cons] at hj ⊢
    tauto
  exact (Finset.card_le_card hsub).trans (Finset.card_insert_le _ _)

end TaskSet

namespace Machine

variable {c : TaskSet} {m m' : Machine} {id : TaskId}

/-- A slot is free for every task not queued. -/
def Room (c : TaskSet) (queue : List TaskId) : Prop := queue.length + c.unqueued queue ≤ 100

theorem Room.push {queue : List TaskId} (h : Room c queue) (hid : id ∈ c.ids)
    (hdup : id ∈ queue → queue.length + c.unqueued queue < 100) :
    queue.length < 100 ∧ Room c (queue ++ [id]) := by
  unfold Room at h ⊢
  rw [List.length_append,List.length_singleton]
  by_cases hq : id ∈ queue
  · have := hdup hq
    have := c.unqueued_push_le queue id
    exact ⟨by omega,by omega⟩
  · have := TaskSet.unqueued_push hid hq
    exact ⟨by omega,by omega⟩

theorem Room.pop {rest : List TaskId} (h : Room c (id :: rest)) : Room c rest := by
  unfold Room at h ⊢
  have := c.unqueued_pop_le rest id
  rw [List.length_cons] at h
  omega

/-- The copies of `id` to be polled: those queued, and the poll that has not returned. -/
def due (m : Machine) (id : TaskId) : ℕ :=
  m.executor.readyQueue.count id + if m.pc.task = some id ∧ m.pc ≠ .pending id then 1 else 0

/-- The invariant of the queue: only tasks of the set are about, only those that await a
stream leave a waker, and a task that awaits `yield_now()` is never due twice. -/
structure QueueInv (c : TaskSet) (m : Machine) : Prop where
  room : Room c m.executor.readyQueue
  queued : ∀ id ∈ m.executor.readyQueue, id ∈ c.ids
  polled : ∀ id, m.pc.task = some id → id ∈ c.ids
  waker : ∀ id w, (m.streams id).waker = some w → w ∈ c.ids ∧ ∃ d, c.kind w = .stream d
  spawned : m.pc = .spawning →
    (∀ id ∈ m.executor.readyQueue, (m.executor.processRegistry id).isSome) ∧
      ∀ id, (m.streams id).waker = none
  yielded : ∀ id b, m.executor.processRegistry id = some (.yieldNow b) → c.kind id = .yieldNow
  once : ∀ id, c.kind id = .yieldNow → m.due id ≤ 1

theorem QueueInv.boot (hc : c.ids.card < 100) : QueueInv c .boot where
  room := by
    have := Finset.card_filter_le c.ids (· ∉ ([] : List TaskId))
    show 0 + (c.ids.filter (· ∉ ([] : List TaskId))).card ≤ 100
    omega
  queued _ h := nomatch h
  polled _ h := nomatch h
  waker _ _ h := nomatch h
  spawned _ := ⟨nofun,fun _ => rfl⟩
  yielded _ _ h := nomatch h
  once _ _ := Nat.zero_le 1

/-- The poll under way ends or goes on. -/
def Continues (pc pc' : ExecPc) : Prop :=
  pc' = pc ∨ pc'.task = none ∨ pc'.task = pc.task ∧ ∀ id, pc ≠ .pending id

theorem Continues.task {pc pc' : ExecPc} (h : Continues pc pc') (hp : pc'.task = some id) :
    pc.task = some id := by
  rcases h with rfl | h | ⟨h,-⟩
  · exact hp
  · rw [h] at hp
    cases hp
  · exact h ▸ hp

theorem Continues.halted (pc : ExecPc) : Continues pc (if pc = .halted then .pop else pc) := by
  split
  · exact Or.inr (Or.inl rfl)
  · exact Or.inl rfl

theorem due_le (hq : m'.executor.readyQueue = m.executor.readyQueue)
    (hpc : Continues m.pc m'.pc) (id : TaskId) : m'.due id ≤ m.due id := by
  unfold due
  rw [hq]
  split
  · rename_i hp
    have hpending : m.pc ≠ .pending id := by
      rcases hpc with hpc | hpc | ⟨-,hpc⟩
      · exact hpc ▸ hp.2
      · rw [hpc] at hp
        cases hp.1
      · exact hpc id
    rw [if_pos ⟨hpc.task hp.1,hpending⟩]
  · omega

/-- The invariant over a step that neither queues nor unqueues a task. -/
theorem QueueInv.quiet (h : QueueInv c m)
    (hq : m'.executor.readyQueue = m.executor.readyQueue)
    (hwaker : ∀ id w, (m'.streams id).waker = some w → w ∈ c.ids ∧ ∃ d, c.kind w = .stream d)
    (hreg : ∀ id b, m'.executor.processRegistry id = some (.yieldNow b) → c.kind id = .yieldNow)
    (hpc : Continues m.pc m'.pc)
    (hspawning : m'.pc = .spawning → m.pc = .spawning ∧
      m'.executor.processRegistry = m.executor.processRegistry ∧
      ∀ id, (m'.streams id).waker = none) : QueueInv c m' where
  room := hq ▸ h.room
  queued id hid := h.queued id (hq ▸ hid)
  polled id hp := h.polled id (hpc.task hp)
  waker := hwaker
  spawned hp := by
    obtain ⟨hp',hreg',hnone⟩ := hspawning hp
    rw [hreg',hq]
    exact ⟨(h.spawned hp').1,hnone⟩
  yielded := hreg
  once id hk := (due_le hq hpc id).trans (h.once id hk)

/-- A step that changes nothing but where the processor is. -/
theorem QueueInv.goto (h : QueueInv c m) {pc : ExecPc} (hpc : Continues m.pc pc)
    (hspawning : pc ≠ .spawning) : QueueInv c {m with pc} :=
  h.quiet rfl h.waker h.yielded hpc fun hp => absurd hp hspawning

theorem QueueInv.spawn (h : QueueInv c m) (hpc : m.pc = .spawning) (hid : id ∈ c.ids)
    (hreg : m.executor.processRegistry id = none) :
    QueueInv c {m with executor := ⟨Function.update m.executor.processRegistry id (some .start),
      m.executor.readyQueue ++ [id]⟩} := by
  have hnew : id ∉ m.executor.readyQueue := by
    intro hmem
    have := (h.spawned hpc).1 id hmem
    rw [hreg] at this
    cases this
  refine ⟨(h.room.push hid fun hmem => absurd hmem hnew).2,fun j hj => ?_,h.polled,h.waker,
    fun _ => ⟨fun j hj => ?_,(h.spawned hpc).2⟩,fun j b hj => ?_,fun j hk => ?_⟩
  · rcases List.mem_append.mp hj with hj | hj
    · exact h.queued j hj
    · exact List.mem_singleton.mp hj ▸ hid
  · by_cases he : j = id
    · simp [he]
    · simp only [Function.update_of_ne he]
      refine (h.spawned hpc).1 j ((List.mem_append.mp hj).resolve_right fun hs => ?_)
      exact he (List.mem_singleton.mp hs)
  · by_cases he : j = id
    · simp [he] at hj
    · simp only [Function.update_of_ne he] at hj
      exact h.yielded j b hj
  · have hle := h.once j hk
    unfold due at hle ⊢
    simp only [hpc,ExecPc.task,List.count_append,List.count_singleton] at hle ⊢
    by_cases he : j = id
    · simp [he,List.count_eq_zero_of_not_mem hnew]
    · simpa [Ne.symm he] using hle

theorem QueueInv.pop (h : QueueInv c m) {rest : List TaskId} (hpc : m.pc = .pop)
    (hq : m.executor.readyQueue = id :: rest) :
    QueueInv c {m with executor := {m.executor with readyQueue := rest},pc := .popped id} where
  room := (hq ▸ h.room).pop
  queued j hj := h.queued j (hq ▸ List.mem_cons_of_mem _ hj)
  polled j hp := by
    cases hp
    exact h.queued id (hq ▸ List.mem_cons_self)
  waker := h.waker
  spawned := nofun
  yielded := h.yielded
  once j hk := by
    have hle := h.once j hk
    unfold due at hle ⊢
    simp only [hpc,hq,ExecPc.task,List.count_cons] at hle ⊢
    by_cases he : id = j
    · simpa [he] using hle
    · simpa [he] using hle

/-- The wakers left after a handler took one, or a poll left the task's own. -/
theorem QueueInv.waker_update (h : QueueInv c m) {stream : ByteStream}
    (hs : ∀ w, stream.waker = some w → w ∈ c.ids ∧ ∃ d, c.kind w = .stream d) (j w : TaskId)
    (hw : (Function.update m.streams id stream j).waker = some w) :
    w ∈ c.ids ∧ ∃ d, c.kind w = .stream d := by
  by_cases hj : j = id
  · subst hj
    exact hs w (by simpa using hw)
  · exact h.waker j w (by simpa [hj] using hw)

theorem spawning_of_if {pc : ExecPc} (h : (if pc = .halted then .pop else pc) = .spawning) :
    pc = .spawning := by
  split at h
  · cases h
  · exact h

/-- A handler that wakes no task. -/
theorem QueueInv.silent (h : QueueInv c m) {stream : ByteStream}
    (hs : ∀ w, stream.waker = some w → (m.streams id).waker = some w) :
    QueueInv c ⟨m.executor,Function.update m.streams id stream,
      if m.pc = .halted then .pop else m.pc⟩ := by
  refine h.quiet rfl (h.waker_update fun w hw => h.waker id w (hs w hw)) h.yielded (.halted _) ?_
  intro hp
  have hp' := spawning_of_if hp
  refine ⟨hp',rfl,fun j => ?_⟩
  have hnone := (h.spawned hp').2
  by_cases hj : j = id
  · subst hj
    simp only [Function.update_self]
    cases hw : stream.waker with
    | none => rfl
    | some w =>
      have := hs w hw
      rw [hnone] at this
      cases this
  · simp only [Function.update_of_ne hj]
    exact hnone j

/-- A handler that wakes a task. -/
theorem QueueInv.wake (h : QueueInv c m) {stream : ByteStream} {w : TaskId}
    (hw : (m.streams id).waker = some w) (hnone : stream.waker = none)
    (hdup : w ∈ m.executor.readyQueue →
      m.executor.readyQueue.length + c.unqueued m.executor.readyQueue < 100) :
    QueueInv c ⟨{m.executor with readyQueue := m.executor.readyQueue ++ [w]},
      Function.update m.streams id stream,if m.pc = .halted then .pop else m.pc⟩ := by
  obtain ⟨hmem,d,hk⟩ := h.waker id w hw
  have hkeep : ∀ w, stream.waker = some w → w ∈ c.ids ∧ ∃ d, c.kind w = .stream d := by
    intro w hw
    rw [hnone] at hw
    cases hw
  refine ⟨(h.room.push hmem hdup).2,fun j hj => ?_,fun j hp => h.polled j ((Continues.halted _).task hp),
    h.waker_update hkeep,fun hp => ?_,h.yielded,fun j hj => ?_⟩
  · rcases List.mem_append.mp hj with hj | hj
    · exact h.queued j hj
    · exact List.mem_singleton.mp hj ▸ hmem
  · have := (h.spawned (spawning_of_if hp)).2 id
    rw [hw] at this
    cases this
  · have hne : w ≠ j := by
      rintro rfl
      rw [hk] at hj
      cases hj
    have hsame : ∀ v, (m.streams id).waker = some v → (m.streams id).waker = some v :=
      fun _ hv => hv
    have hsilent := (h.silent hsame).once j hj
    unfold due at hsilent ⊢
    simpa [List.count_append,List.count_singleton,hne] using hsilent

theorem QueueInv.interrupt (h : QueueInv c m) {d : InputDevice} {byte : UInt8} {stream : ByteStream}
    {woken : Option TaskId} (hk : c.kind id = .stream d)
    (hadd : d.addByte (m.streams id) byte = .ok (stream,woken))
    (hok : Unhurried c m (.interrupt id byte)) (hm : m.receive id stream woken = .ok m') :
    QueueInv c m' := by
  rw [receive_ok hm]
  have hadd' := hadd
  rw [d.addByte_eq,ByteStream.addByte] at hadd'
  split at hadd'
  · cases Except.ok.inj hadd'
    rw [Option.toList_none,List.append_nil]
    exact h.silent fun _ hw => hw
  · split at hadd'
    · obtain ⟨rfl,rfl⟩ := Prod.mk.inj (Except.ok.inj hadd')
      cases hw : (m.streams id).waker with
      | none =>
        rw [Option.toList_none,List.append_nil]
        exact h.silent fun _ hw => by cases hw
      | some w =>
        rw [hw] at hadd
        exact h.wake hw rfl (hok d _ w hk hadd)
    · cases hadd'

/-- `YieldNow` queues its task while it is polled, when no other copy is due. -/
theorem QueueInv.yield (h : QueueInv c m) (hpc : m.pc = .yielding id) (hk : c.kind id = .yieldNow) :
    id ∉ m.executor.readyQueue := by
  intro hmem
  have hle := h.once id hk
  have hpos := List.count_pos_iff.mpr hmem
  unfold due at hle
  rw [hpc,if_pos ⟨rfl,nofun⟩] at hle
  omega

theorem QueueInv.pushYield (h : QueueInv c m) (hpc : m.pc = .yielding id)
    (hk : c.kind id = .yieldNow) :
    QueueInv c {m with executor := ⟨Function.update m.executor.processRegistry id
      (some (.yieldNow true)),m.executor.readyQueue ++ [id]⟩,pc := .pending id} := by
  have hid := h.polled id (by rw [hpc]; rfl)
  have hnew := h.yield hpc hk
  refine ⟨(h.room.push hid fun hmem => absurd hmem hnew).2,fun j hj => ?_,fun j hp => ?_,h.waker,
    nofun,fun j b hj => ?_,fun j hj => ?_⟩
  · rcases List.mem_append.mp hj with hj | hj
    · exact h.queued j hj
    · exact List.mem_singleton.mp hj ▸ hid
  · cases hp
    exact hid
  · by_cases he : j = id
    · exact he ▸ hk
    · simp only [Function.update_of_ne he] at hj
      exact h.yielded j b hj
  · have hle := h.once j hj
    unfold due at hle ⊢
    by_cases he : id = j
    · subst he
      simp [List.count_append,ExecPc.task,List.count_eq_zero_of_not_mem hnew]
    · simpa [hpc,List.count_append,List.count_singleton,ExecPc.task,he] using hle

theorem QueueInv.await (h : QueueInv c m) (hpc : m.pc = .running id) :
    QueueInv c (m.await id (c.kind id)) := by
  have hreg : ∀ future, (∀ b, future = .yieldNow b → c.kind id = .yieldNow) → ∀ j b,
      Function.update m.executor.processRegistry id (some future) j = some (.yieldNow b) →
        c.kind j = .yieldNow := by
    intro future hf j b hj
    by_cases he : j = id
    · subst he
      rw [Function.update_self] at hj
      exact hf b (Option.some.inj hj)
    · rw [Function.update_of_ne he] at hj
      exact h.yielded j b hj
  have hgoes : ∀ pc : ExecPc, pc.task = some id → Continues m.pc pc := fun pc hp =>
    Or.inr (Or.inr ⟨by rw [hp,hpc]; rfl,fun j hj => by rw [hpc] at hj; cases hj⟩)
  cases hk : c.kind id with
  | stream => exact h.quiet rfl h.waker (hreg .next nofun) (hgoes _ rfl) nofun
  | yieldNow => exact h.quiet rfl h.waker (hreg (.yieldNow false) fun _ _ => hk) (hgoes _ rfl) nofun

theorem QueueInv.finish (h : QueueInv c m) (id : TaskId) :
    QueueInv c {m with executor := m.executor.remove id,pc := .pop} := by
  refine h.quiet rfl h.waker (fun j b hj => ?_) (Or.inr (Or.inl rfl)) nofun
  by_cases he : j = id
  · simp [MictExecutor.remove,he] at hj
  · exact h.yielded j b (by simpa [MictExecutor.remove,he] using hj)

theorem QueueInv.pollNext (h : QueueInv c m) {pc : PollPc} {d : InputDevice} {stream : ByteStream}
    {r : PollResult} (hpc : m.pc = .polling id pc) (hk : c.kind id = .stream d)
    (hrun : (m.streams id).pollNext d.bufSize id pc = .ok (stream,r)) :
    QueueInv c {m with streams := Function.update m.streams id stream,pc := resume id r} := by
  have htask : (resume id r).task = some id := by cases r <;> rfl
  refine h.quiet rfl (h.waker_update fun w hw => ?_) h.yielded ?_ (by cases r <;> nofun)
  · rcases stream_waker hrun hw with rfl | hw'
    · exact ⟨h.polled w (by rw [hpc]; rfl),d,hk⟩
    · exact h.waker id w hw'
  · exact Or.inr (Or.inr ⟨by rw [htask,hpc]; rfl,fun j hj => by rw [hpc] at hj; cases hj⟩)

theorem QueueInv.step (hinv : QueueInv c m) {a : MachineAction} (hok : Unhurried c m a)
    (hstep : Exec c m a (.ok m')) : QueueInv c m' := by
  generalize hr : Except.ok m' = r at hstep
  cases hstep with
  | spawn hpc hid hreg =>
    rw [spawn_ok hr.symm]
    exact hinv.spawn hpc hid hreg
  | run hpc =>
    cases Except.ok.inj hr
    exact hinv.goto (Or.inr (Or.inl rfl)) nofun
  | interrupt _ hk hadd => exact hinv.interrupt hk hadd hok hr.symm
  | timer hpc =>
    cases Except.ok.inj hr
    exact hinv.goto (Or.inr (Or.inl rfl)) nofun
  | pop hpc hq =>
    cases Except.ok.inj hr
    exact hinv.pop hpc hq
  | drained hpc _ =>
    cases Except.ok.inj hr
    exact hinv.goto (Or.inr (Or.inl rfl)) nofun
  | terminated hpc _ =>
    cases Except.ok.inj hr
    exact hinv.goto (Or.inr (Or.inl rfl)) nofun
  | @poll id future hpc _ =>
    cases Except.ok.inj hr
    have htask : (enter id future).task = some id := by cases future <;> rfl
    refine hinv.goto (Or.inr (Or.inr ⟨by rw [htask,hpc]; rfl,fun j hj => ?_⟩))
      (by cases future <;> nofun)
    rw [hpc] at hj
    cases hj
  | await hpc =>
    cases Except.ok.inj hr
    exact hinv.await hpc
  | finish hpc =>
    cases Except.ok.inj hr
    exact hinv.finish _
  | @pollNext _ _ d _ _ hpc hk hrun =>
    cases Except.ok.inj hr
    rw [d.pollNext_eq] at hrun
    exact hinv.pollNext hpc hk hrun
  | @yieldNow id yielded hpc hreg =>
    rcases pollYield_ok hr.symm with rfl | rfl
    · refine hinv.goto (Or.inr (Or.inr ⟨by rw [hpc]; rfl,fun j hj => ?_⟩)) nofun
      rw [hpc] at hj
      cases hj
    · exact hinv.pushYield hpc (hinv.yielded id yielded hreg)
  | pending _ =>
    cases Except.ok.inj hr
    exact hinv.goto (Or.inr (Or.inl rfl)) nofun
  | disable _ =>
    cases Except.ok.inj hr
    exact hinv.goto (Or.inr (Or.inl rfl)) nofun
  | halt _ _ =>
    cases Except.ok.inj hr
    exact hinv.goto (Or.inr (Or.inl rfl)) nofun
  | enable _ _ =>
    cases Except.ok.inj hr
    exact hinv.goto (Or.inr (Or.inl rfl)) nofun

theorem push_full {e : MictExecutor} {message : String} {cause : Panic}
    (h : e.push id message = .error cause) : ¬e.readyQueue.length < 100 ∧ cause = .explicit message := by
  unfold MictExecutor.push at h
  split at h
  · cases h
  · rename_i hfull
    exact ⟨hfull,(Except.error.inj h).symm⟩

theorem QueueInv.no_overflow (hinv : QueueInv c m) {a : MachineAction} (hok : Unhurried c m a) :
    ¬Overflows c m a := by
  intro hstep
  unfold Overflows at hstep
  generalize hr : Except.error (Panic.explicit "ready_queue full") = r at hstep
  cases hstep with
  | @spawn id _ _ _ =>
    cases he : m.executor.spawn id with
    | ok => rw [he] at hr; cases hr
    | error cause =>
      rw [he] at hr
      cases Except.error.inj hr
      unfold MictExecutor.spawn at he
      split at he
      · exact absurd (Panic.explicit.inj (Except.error.inj he)) (by decide)
      · exact absurd (Panic.explicit.inj (push_full he).2) (by decide)
  | @interrupt id byte d stream woken _ hk hadd =>
    cases woken with
    | none => cases hr
    | some w =>
      cases he : m.executor.wake (some w) with
      | ok => rw [receive,he] at hr; cases hr
      | error =>
        have hw := d.waker_of_woken hadd
        exact (push_full he).1 (hinv.room.push (hinv.waker id w hw).1 (hok d stream w hk hadd)).1
  | @yieldNow id yielded hpc hreg =>
    cases yielded with
    | true => cases hr
    | false =>
      cases he : (m.executor.suspend id (.yieldNow true)).wakeTask id with
      | ok => rw [pollYield,he] at hr; cases hr
      | error =>
        have hnew := hinv.yield hpc (hinv.yielded id false hreg)
        have hid := hinv.polled id (by rw [hpc]; rfl)
        exact (push_full he).1 (hinv.room.push hid fun hmem => absurd hmem hnew).1
  | _ => cases hr

/-- Without streams there is no waker for an interrupt to wake. -/
theorem QueueInv.unhurried (hinv : QueueInv c m) (hc : ∀ id ∈ c.ids, c.kind id = .yieldNow)
    (a : MachineAction) : Unhurried c m a := by
  cases a with
  | interrupt id byte =>
    intro d stream w _ hadd _
    obtain ⟨hmem,d',hk⟩ := hinv.waker id w (d.waker_of_woken hadd)
    rw [hc w hmem] at hk
    cases hk
  | _ => trivial

variable {d : InputDevice} {k : ℕ} {s : ByteStream}

theorem At.interrupt {pc : PollPc} {w : TaskId} (byte : UInt8)
    (h : At id (.polling id pc) ⟨s.ring,some w⟩ k m) (hk : c.kind id = .stream d)
    (hb : s.ring.InBounds d.bufSize) (hfull : ¬s.ring.Full d.bufSize) :
    Exec c m (.interrupt id byte) (m.receive id ⟨s.ring.push d.bufSize byte,none⟩ (some w)) := by
  refine .interrupt (by rw [h.pc]; nofun) hk ?_
  rw [d.addByte_eq,h.stream]
  exact ByteStream.addByte_push hb hfull

/-- A byte comes in before the second check, which finds it: the task runs on, its id queued
once more. -/
theorem At.hit (h : At id (.polling id .recheck) ⟨s.ring,some id⟩ k m) (hk : c.kind id = .stream d)
    (hb : s.ring.InBounds d.bufSize) (hempty : s.ring.head = s.ring.tail) (hlt : k < 100)
    (hm : (machineSystem c).Reachable m) :
    ∃ m' r, (machineSystem c).Reachable m' ∧ At id (.running id) ⟨r,none⟩ (k + 1) m' ∧
      r.InBounds d.bufSize ∧ r.head = r.tail := by
  have hfull : ¬s.ring.Full d.bufSize := by
    have := d.bufSize_pos
    rw [hb.full_iff,hb.empty_iff.mpr hempty]
    omega
  let ring := s.ring.push d.bufSize 0
  have hring : ring.InBounds d.bufSize := hb.push 0
  have hne : ring.head ≠ ring.tail := hb.push_nonempty hfull 0
  let m₀ : Machine := ⟨{m.executor with readyQueue := m.executor.readyQueue ++ [id]},
    Function.update m.streams id ⟨ring,none⟩,.polling id .recheck⟩
  have hreceive : m.receive id ⟨ring,none⟩ (some id) = .ok m₀ := by
    rw [receive,MictExecutor.wake,MictExecutor.wakeTask,MictExecutor.push,h.queue,if_pos hlt,h.pc]
    rfl
  have hin := h.interrupt 0 hk hb hfull
  rw [hreceive] at hin
  have h₀ : At id (.polling id .recheck) ⟨ring,none⟩ (k + 1) m₀ :=
    ⟨rfl,Function.update_self _ _ _,by simp [m₀,h.queue]⟩
  obtain ⟨m₁,hm₁,h₁⟩ := h₀.pollNext hk rfl (.step hm hin)
  obtain ⟨m₂,hm₂,h₂⟩ := h₁.pollNext hk rfl hm₁
  rw [if_pos hne] at h₂
  obtain ⟨m₃,hm₃,h₃⟩ := h₂.pollNext hk rfl hm₂
  obtain ⟨m₄,hm₄,h₄⟩ := h₃.pollNext hk (if_pos hring.tail) hm₃
  obtain ⟨m₅,hm₅,h₅⟩ := h₄.pollNext hk rfl hm₄
  refine ⟨m₅,_,hm₅,h₅,hring.pop,?_⟩
  rw [← hring.pop.empty_iff,← Nat.add_right_cancel_iff (n := 1),hring.occupied_pop hne,
    hb.occupied_push hfull,hb.empty_iff.mpr hempty]

theorem exists_copies (hid : id ∈ c.ids) (hk : c.kind id = .stream d) (hle : k ≤ 100) :
    ∃ m r, (machineSystem c).Reachable m ∧ At id (.running id) ⟨r,none⟩ k m ∧
      r.InBounds d.bufSize ∧ r.head = r.tail := by
  induction k with
  | zero =>
    obtain ⟨m,hm,h⟩ := exists_started hid
    exact ⟨m,_,hm,h,⟨Nat.zero_lt_of_lt d.bufSize_pos,Nat.zero_lt_of_lt d.bufSize_pos⟩,rfl⟩
  | succ k ih =>
    obtain ⟨m,r,hm,h,hb,hempty⟩ := ih (by omega)
    obtain ⟨m₁,hm₁,h₁⟩ := h.register hk hempty hm
    exact h₁.hit hk hb hempty (by omega) hm₁

/-- One poll that keeps finding data fills the queue with copies of its own id. -/
theorem exists_overflow (hid : id ∈ c.ids) (hk : c.kind id = .stream d) (byte : UInt8) :
    ∃ m, (machineSystem c).Reachable m ∧ Overflows c m (.interrupt id byte) := by
  obtain ⟨m,r,hm,h,hb,hempty⟩ := exists_copies hid hk le_rfl
  obtain ⟨m₁,hm₁,h₁⟩ := h.register hk hempty hm
  have hfull : ¬r.Full d.bufSize := by
    have := d.bufSize_pos
    rw [hb.full_iff,hb.empty_iff.mpr hempty]
    omega
  refine ⟨m₁,hm₁,?_⟩
  have hin := h₁.interrupt byte hk hb hfull
  rwa [receive,MictExecutor.wake,MictExecutor.wakeTask,MictExecutor.push,h₁.queue,
    if_neg (lt_irrefl 100)] at hin

end Machine

/-- With fewer than a hundred tasks, no wake-up finds the queue full in a run whose interrupts
queue a task twice only while slots are left for all that are not queued; and none does in
any run exactly when no task awaits a stream. -/
theorem readyQueue_overflow_iff {c : TaskSet} (hc : c.ids.card < 100) :
    (∀ m a, ((machineSystem c).guard (Unhurried c)).Reachable m → Unhurried c m a →
      ¬Overflows c m a) ∧
    ((∀ m a, (machineSystem c).Reachable m → ¬Overflows c m a) ↔
      ∀ id ∈ c.ids, c.kind id = .yieldNow) := by
  refine ⟨fun m a hm hok => ?_,fun h id hid => ?_,fun h m a hm => ?_⟩
  · have hinv : Machine.QueueInv c m := hm.invariant (fun _ hi => hi ▸ .boot hc)
      fun _ _ _ hinv hstep => hinv.step hstep.1 hstep.2
    exact hinv.no_overflow hok
  · cases hk : c.kind id with
    | yieldNow => rfl
    | stream d =>
      obtain ⟨m,hm,hover⟩ := Machine.exists_overflow hid hk 0
      exact absurd hover (h m _ hm)
  · have hinv : Machine.QueueInv c m := hm.invariant (fun _ hi => hi ▸ .boot hc)
      fun _ _ _ hinv hstep => hinv.step (hinv.unhurried h _) hstep
    exact hinv.no_overflow (hinv.unhurried h a)

theorem serialTask_overflow :
    ¬∀ (c : TaskSet), c.ids.card < 100 →
      ∀ m a, (machineSystem c).Reachable m → ¬Overflows c m a := by
  intro h
  obtain ⟨m,hm,hover⟩ := Machine.exists_overflow (c := serialTask) (d := .serial)
    (Finset.mem_singleton_self 0) rfl 0
  exact h serialTask (by decide) m _ hm hover

theorem serialTask_overflow_iff :
    (∀ m a, ((machineSystem serialTask).guard (Unhurried serialTask)).Reachable m →
      Unhurried serialTask m a → ¬Overflows serialTask m a) ∧
    ((∀ m a, (machineSystem serialTask).Reachable m → ¬Overflows serialTask m a) ↔
      ∀ id ∈ serialTask.ids, serialTask.kind id = .yieldNow) :=
  readyQueue_overflow_iff (by decide)

end PolymorphOS
