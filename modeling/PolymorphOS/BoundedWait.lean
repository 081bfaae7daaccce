import PolymorphOS.WakeUps

/-! A byte that has come in waits for a bounded number of polls, whatever the interrupts queue in the
meantime: the ready queue is first in, first out, and a poll of a stream's task takes a byte before it
returns. -/
namespace PolymorphOS
namespace Machine

/-- `run_ready_tasks` takes an id from the queue. -/
def pops : Machine × MachineAction → Bool
  | (m,.step) => m.pc = .pop ∧ m.executor.readyQueue ≠ []
  | _ => false

/-- The stream of `id` gives its oldest byte to its task. -/
def Reads (id : TaskId) : Machine × MachineAction → Prop
  | (m,.step) => ∃ byte, m.pc = .polling id (.advance byte)
  | _ => False

/-- The code of the task `id` comes to its end. -/
def Ends (id : TaskId) : Machine × MachineAction → Prop
  | (m,.finish) => m.pc = .running id
  | _ => False

variable {c : TaskSet} {m m' : Machine} {id : TaskId} {n : ℕ}

/-- The queue is within its capacity, and a task that awaits a stream stands at its `next().await`. -/
structure StreamInv (c : TaskSet) (m : Machine) : Prop where
  length_le : m.executor.readyQueue.length ≤ 100
  future : ∀ id d future, c.kind id = .stream d → m.executor.processRegistry id = some future →
    future = .start ∨ future = .next

theorem push_length {e e' : MictExecutor} {message : String} (h : e.push id message = .ok e') :
    e'.readyQueue.length ≤ 100 := by
  unfold MictExecutor.push at h
  split at h
  · rename_i hlt
    cases Except.ok.inj h
    rw [List.length_append]
    exact hlt
  · cases h

/-- A step that lengthens the queue at most to its capacity, and moves no stream's task to where it
awaits something else. -/
theorem StreamInv.update (h : StreamInv c m)
    (hq : m'.executor.readyQueue.length ≤ m.executor.readyQueue.length ∨
      m'.executor.readyQueue.length ≤ 100)
    (hr : ∀ id d future, c.kind id = .stream d → m'.executor.processRegistry id = some future →
      m.executor.processRegistry id = some future ∨ future = .start ∨ future = .next) :
    StreamInv c m' where
  length_le := hq.elim (fun hq => hq.trans h.length_le) fun hq => hq
  future id d future hk hfuture :=
    (hr id d future hk hfuture).elim (h.future id d future hk) fun hf => hf

/-- A step that touches neither the queue nor the registry. -/
theorem StreamInv.goto (h : StreamInv c m) (he : m'.executor = m.executor) : StreamInv c m' :=
  h.update (Or.inl (by rw [he])) fun _ _ _ _ hf => Or.inl (he ▸ hf)

/-- Only the future of `id` is new. -/
theorem update_eq_some {registry : TaskId → Option TaskFuture} {new : Option TaskFuture} {j : TaskId}
    {future : TaskFuture} (h : Function.update registry id new j = some future) :
    j ≠ id ∧ registry j = some future ∨ j = id ∧ new = some future := by
  by_cases hj : j = id
  · rw [hj,Function.update_self] at h
    exact Or.inr ⟨hj,h⟩
  · rw [Function.update_of_ne hj] at h
    exact Or.inl ⟨hj,h⟩

theorem StreamInv.step {a : MachineAction} (h : StreamInv c m) (hstep : Exec c m a (.ok m')) :
    StreamInv c m' := by
  generalize hr : Except.ok m' = r at hstep
  cases hstep with
  | spawn _ _ _ =>
    obtain ⟨e,he,hm⟩ := map_inv hr.symm
    refine h.update (Or.inr ?_) fun j d future _ hf => ?_
    · rw [hm]
      unfold MictExecutor.spawn at he
      split at he
      · cases he
      · exact push_length he
    · rw [spawn_ok hr.symm] at hf
      rcases update_eq_some hf with ⟨_,hold⟩ | ⟨_,hnew⟩
      · exact Or.inl hold
      · exact Or.inr (Or.inl (Option.some.inj hnew).symm)
  | @interrupt _ _ _ _ woken _ _ _ =>
    obtain ⟨e,he,hm⟩ := bind_inv hr.symm
    cases Except.ok.inj hm
    cases woken with
    | none =>
      cases Except.ok.inj he
      exact h.goto rfl
    | some w =>
      refine h.update (Or.inr (push_length he)) fun _ _ _ _ hf => Or.inl ?_
      rwa [push_ok he] at hf
  | pop _ hq =>
    cases Except.ok.inj hr
    exact h.update (Or.inl (by rw [hq]; exact Nat.le_succ _)) fun _ _ _ _ hf => Or.inl hf
  | @await id _ =>
    cases Except.ok.inj hr
    cases hk : c.kind id with
    | stream d =>
      refine h.update (Or.inl le_rfl) fun j _ future _ hf => ?_
      rcases update_eq_some hf with ⟨_,hold⟩ | ⟨_,hnew⟩
      · exact Or.inl hold
      · exact Or.inr (Or.inr (Option.some.inj hnew).symm)
    | yieldNow =>
      refine h.update (Or.inl le_rfl) fun j d _ hstream hf => ?_
      rcases update_eq_some hf with ⟨_,hold⟩ | ⟨rfl,_⟩
      · exact Or.inl hold
      · rw [hk] at hstream
        cases hstream
  | finish _ =>
    cases Except.ok.inj hr
    refine h.update (Or.inl le_rfl) fun j _ _ _ hf => ?_
    rcases update_eq_some hf with ⟨_,hold⟩ | ⟨_,hnew⟩
    · exact Or.inl hold
    · cases hnew
  | @yieldNow _ yielded _ hreg =>
    cases yielded with
    | true =>
      cases Except.ok.inj hr
      exact h.goto rfl
    | false =>
      obtain ⟨e,he,hm⟩ := bind_inv hr.symm
      cases Except.ok.inj hm
      refine h.update (Or.inr (push_length he)) fun j d _ hstream hf => ?_
      rw [push_ok he] at hf
      rcases update_eq_some hf with ⟨_,hold⟩ | ⟨rfl,_⟩
      · exact Or.inl hold
      · rcases h.future j d _ hstream hreg with hf | hf <;> cases hf
  | _ =>
    cases Except.ok.inj hr
    exact h.goto rfl

theorem StreamInv.reachable (h : (machineSystem c).Reachable m) : StreamInv c m :=
  h.invariant (fun _ hm => hm ▸ ⟨Nat.zero_le _,fun _ _ _ _ hf => nomatch hf⟩)
    fun _ _ _ hinv hstep => hinv.step hstep

/-- The poll of `id` that is under way goes on to take a byte. -/
def Reading (id : TaskId) (m : Machine) : Prop :=
  m.pc = .popped id ∨ m.pc = .running id ∨ m.pc = .polling id .check ∨
    (∃ head, m.pc = .polling id (.compare head) ∧ head ≠ (m.streams id).ring.tail) ∨
    m.pc = .polling id .read ∨ ∃ byte, m.pc = .polling id (.advance byte)

/-- A byte waits for `id`, which is among the first `n` of the queue or about to take it. -/
structure Waits (id : TaskId) (n : ℕ) (m : Machine) : Prop where
  unread : (m.streams id).ring.head ≠ (m.streams id).ring.tail
  future : m.executor.processRegistry id = some .start ∨ m.executor.processRegistry id = some .next
  place : m.pc.task ≠ some id ∧ id ∈ m.executor.readyQueue.take n ∨ Reading id m

/-- A step outside the poll of `id`, or an interrupt during it. -/
theorem Waits.keep (h : Waits id n m) (htail : (m'.streams id).ring.tail = (m.streams id).ring.tail)
    (hunread : (m'.streams id).ring.head ≠ (m'.streams id).ring.tail)
    (hr : m'.executor.processRegistry id = m.executor.processRegistry id)
    (hq : m.executor.readyQueue <+: m'.executor.readyQueue)
    (hpc : m'.pc = m.pc ∨ m.pc.task ≠ some id ∧ m'.pc.task ≠ some id) : Waits id n m' where
  unread := hunread
  future := hr.symm ▸ h.future
  place := by
    have hmem : id ∈ m.executor.readyQueue.take n → id ∈ m'.executor.readyQueue.take n := by
      obtain ⟨more,hmore⟩ := hq
      rw [← hmore,List.take_append]
      exact List.mem_append_left _
    rcases h.place with ⟨htask,hplace⟩ | hreading
    · refine Or.inl ⟨?_,hmem hplace⟩
      rcases hpc with hpc | ⟨_,hpc⟩
      · rwa [hpc]
      · exact hpc
    · have htask : m.pc.task = some id := by
        rcases hreading with hp | hp | hp | ⟨_,hp,_⟩ | hp | ⟨_,hp⟩ <;> rw [hp] <;> rfl
      rcases hpc with hpc | ⟨hpc,_⟩
      · refine Or.inr ?_
        unfold Reading
        rw [hpc,htail]
        exact hreading
      · exact absurd htask hpc

/-- A step that leaves the executor and the streams as they are. -/
theorem Waits.goto (h : Waits id n m) {pc : ExecPc} (hpc : m.pc.task ≠ some id)
    (hpc' : pc.task ≠ some id) : Waits id n {m with pc} :=
  h.keep rfl h.unread rfl (List.prefix_refl _) (Or.inr ⟨hpc,hpc'⟩)

theorem Waits.interrupt (h : Waits id n m) {j : TaskId} {d : InputDevice} {byte : UInt8}
    {stream : ByteStream} {woken : Option TaskId}
    (hadd : d.addByte (m.streams j) byte = .ok (stream,woken))
    (hm : m.receive j stream woken = .ok m') : Waits id n m' := by
  rw [receive_ok hm]
  rw [d.addByte_eq,ByteStream.addByte] at hadd
  have hring : stream.ring.tail = (m.streams j).ring.tail ∧
      ((m.streams j).ring.head ≠ (m.streams j).ring.tail → stream.ring.head ≠ stream.ring.tail) := by
    split at hadd
    · cases Except.ok.inj hadd
      exact ⟨rfl,fun hne => hne⟩
    · rename_i hfull
      split at hadd
      · cases Except.ok.inj hadd
        exact ⟨rfl,fun _ => hfull⟩
      · cases hadd
  have hpc : (if m.pc = .halted then .pop else m.pc) = m.pc ∨
      m.pc.task ≠ some id ∧ (if m.pc = .halted then .pop else m.pc : ExecPc).task ≠ some id := by
    split
    · rename_i hp
      exact Or.inr ⟨by simp [hp,ExecPc.task],by simp [ExecPc.task]⟩
    · exact Or.inl rfl
  have hstream : (Function.update m.streams j stream id).ring.tail = (m.streams id).ring.tail ∧
      (Function.update m.streams j stream id).ring.head ≠
        (Function.update m.streams j stream id).ring.tail := by
    by_cases hj : id = j
    · subst hj
      rw [Function.update_self]
      exact ⟨hring.1,hring.2 h.unread⟩
    · rw [Function.update_of_ne hj]
      exact ⟨rfl,h.unread⟩
  exact h.keep hstream.1 hstream.2 rfl (List.prefix_append _ _) hpc

/-- Another task's step changes only what belongs to it. -/
theorem Waits.other (h : Waits id n m) {j : TaskId} (hj : j ≠ id) (hpc : m.pc.task = some j)
    (hpc' : m'.pc.task = some j ∨ m'.pc.task = none) (hs : m'.streams id = m.streams id)
    (hr : m'.executor.processRegistry id = m.executor.processRegistry id)
    (hq : m.executor.readyQueue <+: m'.executor.readyQueue) : Waits id n m' := by
  refine h.keep (by rw [hs]) (by rw [hs]; exact h.unread) hr hq (Or.inr ⟨?_,?_⟩)
  · rw [hpc]
    exact fun heq => hj (Option.some.inj heq)
  · rcases hpc' with hpc' | hpc' <;> rw [hpc']
    · exact fun heq => hj (Option.some.inj heq)
    · exact nofun

/-- An id that comes off the queue is another one, or the poll begins. -/
theorem Waits.pop (h : Waits id n m) {j : TaskId} {rest : List TaskId} (hpc : m.pc = .pop)
    (hq : m.executor.readyQueue = j :: rest) : ∃ k, n = k + 1 ∧
      Waits id k {m with executor := {m.executor with readyQueue := rest},pc := .popped j} := by
  rcases h.place with ⟨_,hplace⟩ | hreading
  · rw [hq] at hplace
    obtain ⟨k,rfl⟩ : ∃ k, n = k + 1 := Nat.exists_eq_succ_of_ne_zero fun hn => by
      rw [hn] at hplace
      exact absurd hplace List.not_mem_nil
    refine ⟨k,rfl,h.unread,h.future,?_⟩
    by_cases hj : j = id
    · exact Or.inr (Or.inl (by rw [hj]))
    · refine Or.inl ⟨fun heq => hj (Option.some.inj heq),?_⟩
      rcases List.mem_cons.mp hplace with heq | hmem
      · exact absurd heq.symm hj
      · exact hmem
  · rcases hreading with hp | hp | hp | ⟨_,hp,_⟩ | hp | ⟨_,hp⟩ <;>
      exact absurd (hpc.symm.trans hp) nofun

theorem Waits.reading (h : Waits id n m) (hpc : m.pc.task = some id) : Reading id m :=
  h.place.resolve_left fun hplace => hplace.1 hpc

/-- A step of the poll of `id`, with what it leaves of the stream. -/
theorem Waits.poll (h : Waits id n m) {executor : MictExecutor} {stream : ByteStream} {pc : ExecPc}
    (hring : stream.ring = (m.streams id).ring)
    (hr : executor.processRegistry id = some .start ∨ executor.processRegistry id = some .next)
    (hreading : Reading id ⟨executor,Function.update m.streams id stream,pc⟩) :
    Waits id n ⟨executor,Function.update m.streams id stream,pc⟩ where
  unread := by
    show (Function.update m.streams id _ id).ring.head ≠ (Function.update m.streams id _ id).ring.tail
    rw [Function.update_self,hring]
    exact h.unread
  future := hr
  place := Or.inr hreading

/-- A poll of `id` finds the byte that waits. -/
theorem Waits.pollNext (h : Waits id n m) {pc : PollPc} {d : InputDevice} {stream : ByteStream}
    {r : PollResult} (hpc : m.pc = .polling id pc) (hgoal : ∀ byte, pc ≠ .advance byte)
    (hrun : (m.streams id).pollNext d.bufSize id pc = .ok (stream,r)) :
    Waits id n {m with streams := Function.update m.streams id stream,pc := resume id r} := by
  have hreading := h.reading (by rw [hpc]; rfl)
  have hplace : pc = .check ∨ (∃ head, pc = .compare head ∧ head ≠ (m.streams id).ring.tail) ∨
      pc = .read := by
    rcases hreading with hp | hp | hp | ⟨head,hp,hne⟩ | hp | ⟨byte,hp⟩ <;>
      have heq := hpc.symm.trans hp
    · cases heq
    · cases heq
    · exact Or.inl (ExecPc.polling.inj heq).2
    · exact Or.inr (Or.inl ⟨head,(ExecPc.polling.inj heq).2,hne⟩)
    · exact Or.inr (Or.inr (ExecPc.polling.inj heq).2)
    · exact absurd (ExecPc.polling.inj heq).2 (hgoal byte)
  rcases hplace with rfl | ⟨head,rfl,hne⟩ | rfl
  · cases Except.ok.inj hrun
    refine h.poll rfl h.future (Or.inr (Or.inr (Or.inr (Or.inl ⟨_,rfl,?_⟩))))
    show (m.streams id).ring.head ≠ (Function.update m.streams id (m.streams id) id).ring.tail
    rw [Function.update_self]
    exact h.unread
  · cases Except.ok.inj hrun
    refine h.poll rfl h.future (Or.inr (Or.inr (Or.inr (Or.inr (Or.inl ?_)))))
    rw [if_pos hne]
    rfl
  · obtain ⟨rfl,rfl⟩ := ByteStream.pollNext_read hrun
    exact h.poll rfl h.future (Or.inr (Or.inr (Or.inr (Or.inr (Or.inr ⟨_,rfl⟩)))))

/-- Where polling the task's future leads. -/
theorem Waits.enter (h : Waits id n m) {future : TaskFuture}
    (hfuture : m.executor.processRegistry id = some future) :
    Waits id n {m with pc := enter id future} where
  unread := h.unread
  future := h.future
  place := by
    rcases h.future with hf | hf <;> rw [hf] at hfuture <;> cases Option.some.inj hfuture
    · exact Or.inr (Or.inr (Or.inl rfl))
    · exact Or.inr (Or.inr (Or.inr (Or.inl rfl)))

theorem Waits.await (h : Waits id n m) {d : InputDevice} : Waits id n (m.await id (.stream d)) where
  unread := h.unread
  future := Or.inr (Function.update_self _ _ _)
  place := Or.inr (Or.inr (Or.inr (Or.inl rfl)))

theorem Waits.step (h : Waits id n m) {a : MachineAction} {d : InputDevice}
    (hk : c.kind id = .stream d) (hstep : Exec c m a (.ok m'))
    (hgoal : ¬(Reads id (m,a) ∨ Ends id (m,a))) :
    if pops (m,a) then ∃ k, n = k + 1 ∧ Waits id k m' else Waits id n m' := by
  obtain ⟨hreads,hends⟩ := not_or.mp hgoal
  generalize hr : Except.ok m' = r at hstep
  cases hstep with
  | @spawn j hpc _ hnone =>
    rw [if_neg (by simp [pops]),spawn_ok hr.symm]
    have hj : id ≠ j := by
      rintro rfl
      rcases h.future with hf | hf <;> rw [hnone] at hf <;> cases hf
    exact h.keep rfl h.unread (Function.update_of_ne hj _ _) (List.prefix_append _ _) (Or.inl rfl)
  | run hpc =>
    cases Except.ok.inj hr
    rw [if_neg (by simp [pops,hpc])]
    exact h.goto (by rw [hpc]; exact nofun) nofun
  | interrupt _ _ hadd =>
    rw [if_neg (by simp [pops])]
    exact h.interrupt hadd hr.symm
  | timer hpc =>
    cases Except.ok.inj hr
    rw [if_neg (by simp [pops])]
    exact h.goto (by rw [hpc]; exact nofun) nofun
  | pop hpc hq =>
    cases Except.ok.inj hr
    rw [if_pos (by simp [pops,hpc,hq])]
    exact h.pop hpc hq
  | drained hpc hq =>
    cases Except.ok.inj hr
    rw [if_neg (by simp [pops,hq])]
    exact h.goto (by rw [hpc]; exact nofun) nofun
  | @terminated j hpc hnone =>
    cases Except.ok.inj hr
    rw [if_neg (by simp [pops,hpc])]
    have hj : j ≠ id := by
      rintro rfl
      rcases h.future with hf | hf <;> rw [hnone] at hf <;> cases hf
    exact h.other hj (by rw [hpc]; rfl) (Or.inr rfl) rfl rfl (List.prefix_refl _)
  | @poll j future hpc hfuture =>
    cases Except.ok.inj hr
    rw [if_neg (by simp [pops,hpc])]
    by_cases hj : j = id
    · subst hj
      exact h.enter hfuture
    · refine h.other hj (by rw [hpc]; rfl) (Or.inl ?_) rfl rfl (List.prefix_refl _)
      cases future <;> rfl
  | @await j hpc =>
    cases Except.ok.inj hr
    rw [if_neg (by simp [pops,hpc])]
    by_cases hj : j = id
    · subst hj
      rw [hk]
      exact h.await
    · have hreg (future : TaskFuture) : (m.executor.suspend j future).processRegistry id =
          m.executor.processRegistry id := Function.update_of_ne (Ne.symm hj) _ _
      cases c.kind j <;>
        exact h.other hj (by rw [hpc]; rfl) (Or.inl rfl) rfl (hreg _) (List.prefix_refl _)
  | @finish j hpc =>
    cases Except.ok.inj hr
    rw [if_neg (by simp [pops])]
    have hj : j ≠ id := by
      rintro rfl
      exact hends hpc
    exact h.other hj (by rw [hpc]; rfl) (Or.inr rfl) rfl
      (Function.update_of_ne (Ne.symm hj) _ _) (List.prefix_refl _)
  | @pollNext j pc d' _ r hpc _ hrun =>
    cases Except.ok.inj hr
    rw [if_neg (by simp [pops,hpc])]
    rw [d'.pollNext_eq] at hrun
    by_cases hj : j = id
    · subst hj
      exact h.pollNext hpc (fun byte hp => hreads ⟨byte,hp ▸ hpc⟩) hrun
    · refine h.other hj (by rw [hpc]; rfl) (Or.inl ?_) (Function.update_of_ne (Ne.symm hj) _ _) rfl
        (List.prefix_refl _)
      cases r <;> rfl
  | @yieldNow j yielded hpc _ =>
    rw [if_neg (by simp [pops,hpc])]
    have hj : j ≠ id := by
      rintro rfl
      rcases h.reading (by rw [hpc]; rfl) with hp | hp | hp | ⟨_,hp,_⟩ | hp | ⟨_,hp⟩ <;>
        exact absurd (hpc.symm.trans hp) nofun
    rcases pollYield_ok hr.symm with rfl | rfl
    · exact h.other hj (by rw [hpc]; rfl) (Or.inl rfl) rfl rfl (List.prefix_refl _)
    · exact h.other hj (by rw [hpc]; rfl) (Or.inl rfl) rfl (Function.update_of_ne (Ne.symm hj) _ _)
        (List.prefix_append _ _)
  | @pending j hpc =>
    cases Except.ok.inj hr
    rw [if_neg (by simp [pops,hpc])]
    have hj : j ≠ id := by
      rintro rfl
      rcases h.reading (by rw [hpc]; rfl) with hp | hp | hp | ⟨_,hp,_⟩ | hp | ⟨_,hp⟩ <;>
        exact absurd (hpc.symm.trans hp) nofun
    exact h.other hj (by rw [hpc]; rfl) (Or.inr rfl) rfl rfl (List.prefix_refl _)
  | disable hpc =>
    cases Except.ok.inj hr
    rw [if_neg (by simp [pops,hpc])]
    exact h.goto (by rw [hpc]; exact nofun) nofun
  | halt hpc _ =>
    cases Except.ok.inj hr
    rw [if_neg (by simp [pops,hpc])]
    exact h.goto (by rw [hpc]; exact nofun) nofun
  | enable hpc _ =>
    cases Except.ok.inj hr
    rw [if_neg (by simp [pops,hpc])]
    exact h.goto (by rw [hpc]; exact nofun) nofun

end Machine

open Machine

/-- A byte that waits outside its task's poll is read, or the task has ended, before the executor has
polled more than the tasks then queued ahead of it, at most 99: later wake-ups do not overtake. -/
theorem byte_read_within {c : TaskSet} {m : Machine} {id : TaskId} {d : InputDevice}
    (hm : (machineSystem c).Reachable m) (hk : c.kind id = .stream d)
    (hr : (m.executor.processRegistry id).isSome) (hpc : m.pc.task ≠ some id)
    (hbyte : (m.streams id).ring.head ≠ (m.streams id).ring.tail) :
    ∃ ahead < 100, m.executor.readyQueue[ahead]? = some id ∧
      ∀ l m', (machineSystem c).Path m l m' → ahead + 1 < l.countP pops →
        ∃ x ∈ l, Reads id x ∨ Ends id x := by
  have hinv := StreamInv.reachable hm
  have hmem : id ∈ m.executor.readyQueue :=
    ((WakeInv.reachable hm).awake hk hr (Or.inl hpc)).resolve_right fun hempty => hbyte hempty.1
  obtain ⟨ahead,hahead⟩ := List.mem_iff_getElem?.mp hmem
  have hlt : ahead < m.executor.readyQueue.length := (List.getElem?_eq_some_iff.mp hahead).1
  refine ⟨ahead,hlt.trans_le hinv.length_le,hahead,fun l m' hpath hpops => ?_⟩
  obtain ⟨future,hfuture⟩ := Option.isSome_iff_exists.mp hr
  have hwaits : Waits id (ahead + 1) m := by
    refine ⟨hbyte,?_,Or.inl ⟨hpc,?_⟩⟩
    · rcases hinv.future id d future hk hfuture with rfl | rfl
      · exact Or.inl hfuture
      · exact Or.inr hfuture
    · refine List.mem_of_getElem? (i := ahead) ?_
      rw [List.getElem?_take_of_lt (Nat.lt_succ_self ahead)]
      exact hahead
  exact hpath.meets (fun _ _ _ _ h hstep hgoal => h.step hk hstep hgoal) hwaits hpops

/-- The serial task is spawned, and its first byte is there before it is polled. -/
def earlyByte : Machine :=
  ⟨⟨Function.update (fun _ => none) 0 (some .start),[0]⟩,
    Function.update (fun _ => .new) 0 ⟨ByteStream.new.ring.push SerialStream.bufSize 7,none⟩,.spawning⟩

/-- The serial task has been spawned. -/
def spawnedTask : Machine :=
  ⟨⟨Function.update (fun _ => none) 0 (some .start),[0]⟩,fun _ => .new,.spawning⟩

theorem earlyByte_reachable : (machineSystem serialTask).Reachable earlyByte := by
  have hspawn : Exec serialTask .boot (.spawn 0) (.ok spawnedTask) :=
    Exec.spawn rfl (Finset.mem_singleton_self 0) rfl
  have hadd : InputDevice.addByte .serial (spawnedTask.streams 0) 7 =
      .ok (⟨ByteStream.new.ring.push SerialStream.bufSize 7,none⟩,none) := rfl
  have hpc : spawnedTask.pc ≠ .disabled := by decide
  have hbyte : Exec serialTask spawnedTask (.interrupt 0 7) (.ok earlyByte) :=
    Exec.interrupt hpc rfl hadd
  exact .step (.step (.init rfl) hspawn) hbyte

theorem byte_read_within_early : ∃ ahead < 100, earlyByte.executor.readyQueue[ahead]? = some 0 ∧
    ∀ l m', (machineSystem serialTask).Path earlyByte l m' → ahead + 1 < l.countP pops →
      ∃ x ∈ l, Reads 0 x ∨ Ends 0 x :=
  byte_read_within earlyByte_reachable rfl rfl (by decide) (by decide)

end PolymorphOS
