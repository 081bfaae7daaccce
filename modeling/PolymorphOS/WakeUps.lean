import PolymorphOS.MictExecutor
import PolymorphOS.Returns

/-! No byte waits for a task that nobody will poll: a task that awaits its stream is in the
ready queue, or its buffer is empty and the stream holds its waker. -/
namespace PolymorphOS
namespace Machine

variable {c : TaskSet} {m m' : Machine} {id : TaskId}

theorem push_ok {e e' : MictExecutor} {message : String} (h : e.push id message = .ok e') :
    e' = {e with readyQueue := e.readyQueue ++ [id]} := by
  unfold MictExecutor.push at h
  split at h
  · exact (Except.ok.inj h).symm
  · cases h

theorem receive_ok {stream : ByteStream} {woken : Option TaskId}
    (h : m.receive id stream woken = .ok m') :
    m' = ⟨{m.executor with readyQueue := m.executor.readyQueue ++ woken.toList},
      Function.update m.streams id stream,if m.pc = .halted then .pop else m.pc⟩ := by
  obtain ⟨e,he,h⟩ := bind_inv h
  cases Except.ok.inj h
  cases woken with
  | none =>
    cases Except.ok.inj he
    rw [Option.toList_none,List.append_nil]
  | some w => rw [push_ok he,Option.toList_some]

theorem spawn_ok (h : (m.executor.spawn id).map (fun executor => {m with executor}) = .ok m') :
    m' = {m with executor := ⟨Function.update m.executor.processRegistry id (some .start),
      m.executor.readyQueue ++ [id]⟩} := by
  obtain ⟨e,he,rfl⟩ := map_inv h
  unfold MictExecutor.spawn at he
  split at he
  · cases he
  · rw [push_ok he]

theorem pollYield_ok {yielded : Bool} (h : m.pollYield id yielded = .ok m') :
    m' = {m with pc := .running id} ∨
      m' = {m with executor := ⟨Function.update m.executor.processRegistry id
        (some (.yieldNow true)),m.executor.readyQueue ++ [id]⟩,pc := .pending id} := by
  cases yielded with
  | true => exact Or.inl (Except.ok.inj h).symm
  | false =>
    obtain ⟨e,he,h⟩ := bind_inv h
    cases Except.ok.inj h
    rw [push_ok he]
    exact Or.inr rfl

/-- The task's next poll is assured, or it has nothing to read and a byte will wake it. -/
def Awake (m : Machine) (id : TaskId) : Prop :=
  id ∈ m.executor.readyQueue ∨
    (m.streams id).ring.head = (m.streams id).ring.tail ∧ (m.streams id).waker = some id

/-- `Awake`, and on the way there what a poll holds once it has registered its waker. -/
structure Token (m : Machine) (id : TaskId) : Prop where
  parked : m.pc.task ≠ some id ∨ m.pc = .pending id → m.Awake id
  registered : m.pc = .polling id .recheck →
    id ∈ m.executor.readyQueue ∨ (m.streams id).waker = some id
  rechecked : ∀ head, m.pc = .polling id (.recompare head) →
    id ∈ m.executor.readyQueue ∨ (m.streams id).waker = some id ∧ (m.streams id).ring.head = head

theorem Awake.mono (h : m.Awake id) (hs : m'.streams id = m.streams id)
    (hq : id ∈ m.executor.readyQueue → id ∈ m'.executor.readyQueue) : m'.Awake id := by
  unfold Awake
  rw [hs]
  exact h.imp_left hq

theorem Token.of_mem (h : id ∈ m.executor.readyQueue) : m.Token id where
  parked _ := Or.inl h
  registered _ := Or.inl h
  rechecked _ _ := Or.inl h

theorem Token.of_awake (h : m.Awake id) (hpc : m.pc.task ≠ some id ∨ m.pc = .pending id) :
    m.Token id where
  parked _ := h
  registered hp := by rcases hpc with hpc | hpc <;> simp [hp,ExecPc.task] at hpc
  rechecked _ hp := by rcases hpc with hpc | hpc <;> simp [hp,ExecPc.task] at hpc

/-- A poll that has not registered its waker, or has found a byte since, owes nothing yet. -/
theorem Token.of_running (h : m.pc = .popped id ∨ m.pc = .running id ∨ m.pc = .yielding id) :
    m.Token id := by
  rcases h with h | h | h <;>
    exact ⟨by simp [h,ExecPc.task],by simp [h],by simp [h]⟩

theorem Token.of_polling {pc : PollPc} (h : m.pc = .polling id pc) (hrecheck : pc ≠ .recheck)
    (hrecompare : ∀ head, pc ≠ .recompare head) : m.Token id := by
  refine ⟨by simp [h,ExecPc.task],fun hp => ?_,fun head hp => ?_⟩
  · rw [h] at hp
    exact absurd (ExecPc.polling.inj hp).2 hrecheck
  · rw [h] at hp
    exact absurd (ExecPc.polling.inj hp).2 (hrecompare head)

/-- What the other steps do to a task's token: the queue may grow. -/
theorem Token.mono (h : m.Token id) (hs : m'.streams id = m.streams id)
    (hq : id ∈ m.executor.readyQueue → id ∈ m'.executor.readyQueue)
    (hpc : m'.pc = m.pc ∨ m.pc.task = none ∧ m'.pc.task = none) : m'.Token id := by
  rcases hpc with hpc | ⟨hpc,hpc'⟩
  · refine ⟨fun hp => (h.parked (hpc ▸ hp)).mono hs hq,fun hp => ?_,fun head hp => ?_⟩
    · rw [hs]
      exact (h.registered (hpc ▸ hp)).imp_left hq
    · rw [hs]
      exact (h.rechecked head (hpc ▸ hp)).imp_left hq
  · exact .of_awake ((h.parked (Or.inl (by simp [hpc]))).mono hs hq) (Or.inl (by simp [hpc']))

/-- Without a waker a token is the task's place in the queue. -/
theorem Token.spent (h : m.Token id) (hw : (m.streams id).waker = none)
    (hq : m'.executor.readyQueue = m.executor.readyQueue)
    (hpc : m'.pc = m.pc ∨ m.pc.task = none ∧ m'.pc.task = none) : m'.Token id := by
  have hmem : ∀ {p : Prop}, id ∈ m.executor.readyQueue ∨ p ∧ (m.streams id).waker = some id →
      id ∈ m'.executor.readyQueue := by
    rintro p (hmem | ⟨-,hw'⟩)
    · rwa [hq]
    · rw [hw] at hw'
      cases hw'
  rcases hpc with hpc | ⟨hpc,hpc'⟩
  · refine ⟨fun hp => Or.inl (hmem (h.parked (hpc ▸ hp))),
      fun hp => Or.inl (hmem ((h.registered (hpc ▸ hp)).imp_right fun hw => ⟨trivial,hw⟩)),
      fun head hp => Or.inl (hmem ((h.rechecked head (hpc ▸ hp)).imp_right And.symm))⟩
  · exact .of_mem (hmem (h.parked (Or.inl (by simp [hpc]))))

/-- The invariant: a stream's waker is its own task's, every registered task of a stream
has its token, and the processor halts only over an empty queue. -/
structure WakeInv (c : TaskSet) (m : Machine) : Prop where
  own : ∀ id w, (m.streams id).waker = some w → w = id
  token : ∀ id d, c.kind id = .stream d → (m.executor.processRegistry id).isSome → m.Token id
  halted : m.pc = .halted → m.executor.readyQueue = []

theorem WakeInv.boot (c : TaskSet) : WakeInv c .boot where
  own _ _ h := nomatch h
  token _ _ _ h := nomatch h
  halted _ := rfl

/-- What a step outside a task's own poll has to leave alone. -/
theorem WakeInv.awake (h : WakeInv c m) {d : InputDevice} (hk : c.kind id = .stream d)
    (hr : (m.executor.processRegistry id).isSome)
    (hpc : m.pc.task ≠ some id ∨ m.pc = .pending id) : m.Awake id :=
  (h.token id d hk hr).parked hpc

/-- A step between two polls, or one that ends a poll, keeps the queue and the streams. -/
theorem WakeInv.goto (h : WakeInv c m) {pc : ExecPc} (hpc : m.pc.task = none ∨ ∃ j, m.pc = .pending j)
    (hpc' : pc.task = none) (hhalt : pc = .halted → m.executor.readyQueue = []) :
    WakeInv c {m with pc} where
  own := h.own
  token id d hk hr := by
    refine .of_awake (m := {m with pc}) ((h.awake hk hr ?_).mono rfl fun hq => hq)
      (Or.inl fun he => ?_)
    · rcases hpc with hpc | ⟨j,hpc⟩
      · exact Or.inl (by simp [hpc])
      · by_cases hj : j = id
        · exact Or.inr (hj ▸ hpc)
        · exact Or.inl (by simp [hpc,ExecPc.task,hj])
    · rw [hpc'] at he
      cases he
  halted := hhalt

/-- The same for a step of the task `j`'s poll, whose own token is shown apart. -/
theorem WakeInv.polled (h : WakeInv c m) {j : TaskId} (hpc : m.pc.task = some j)
    (hpc' : m'.pc.task = some j ∨ m'.pc.task = none) (hhalt : m'.pc ≠ .halted)
    (hown : ∀ id w, (m'.streams id).waker = some w → w = id)
    (hframe : ∀ id, id ≠ j → m'.streams id = m.streams id ∧
      m'.executor.processRegistry id = m.executor.processRegistry id ∧
      (id ∈ m.executor.readyQueue → id ∈ m'.executor.readyQueue))
    (hj : ∀ d, c.kind j = .stream d → (m'.executor.processRegistry j).isSome → m'.Token j) :
    WakeInv c m' where
  own := hown
  token id d hk hr := by
    by_cases hid : id = j
    · subst hid
      exact hj d hk hr
    · obtain ⟨hs,hreg,hq⟩ := hframe id hid
      rw [hreg] at hr
      refine .of_awake ((h.awake hk hr (Or.inl ?_)).mono hs hq) (Or.inl ?_)
      · rw [hpc]
        exact fun he => hid (Option.some.inj he).symm
      · rcases hpc' with hpc' | hpc' <;> rw [hpc']
        · exact fun he => hid (Option.some.inj he).symm
        · exact nofun
  halted hp := absurd hp hhalt

theorem WakeInv.spawn (h : WakeInv c m) (hpc : m.pc = .spawning) (id : TaskId) :
    WakeInv c {m with executor := ⟨Function.update m.executor.processRegistry id (some .start),
      m.executor.readyQueue ++ [id]⟩} where
  own := h.own
  token j d hk hr := by
    by_cases hj : j = id
    · exact .of_mem (by simp [hj])
    · have hr' : (m.executor.processRegistry j).isSome := by
        simpa only [Function.update_of_ne hj] using hr
      exact (h.token j d hk hr').mono rfl (fun hq => List.mem_append_left _ hq) (Or.inl rfl)
  halted hp := by
    rw [show m.pc = .halted from hp] at hpc
    cases hpc

/-- An accepted byte spends the waker, and the task is queued for it. -/
theorem WakeInv.accept (h : WakeInv c m) (bufSize : ℕ) (byte : UInt8) :
    WakeInv c ⟨{m.executor with
        readyQueue := m.executor.readyQueue ++ (m.streams id).waker.toList},
      Function.update m.streams id ⟨(m.streams id).ring.push bufSize byte,none⟩,
      if m.pc = .halted then .pop else m.pc⟩ where
  own j w hw := by
    by_cases hj : j = id
    · subst hj
      simp only [Function.update_self] at hw
      cases hw
    · exact h.own j w (by simpa only [Function.update_of_ne hj] using hw)
  token j d hk hr := by
    have htoken := h.token j d hk hr
    have hpc : (if m.pc = .halted then .pop else m.pc) = m.pc ∨
        m.pc.task = none ∧ (if m.pc = .halted then .pop else m.pc).task = none := by
      split
      · rename_i hp
        exact Or.inr ⟨by rw [hp]; rfl,rfl⟩
      · exact Or.inl rfl
    by_cases hj : j = id
    · subst hj
      cases hw : (m.streams j).waker with
      | some w =>
        rw [h.own j w hw]
        exact .of_mem (List.mem_append_right _ List.mem_cons_self)
      | none =>
        rw [Option.toList_none,List.append_nil]
        exact htoken.spent hw rfl hpc
    · exact htoken.mono (Function.update_of_ne hj _ _) (fun hq => List.mem_append_left _ hq) hpc
  halted hp := by
    split at hp
    · cases hp
    · rename_i hne
      exact absurd hp hne

/-- A dropped byte, which at most ends a `hlt`. -/
theorem WakeInv.drop (h : WakeInv c m) (id : TaskId) :
    WakeInv c ⟨m.executor,Function.update m.streams id (m.streams id),
      if m.pc = .halted then .pop else m.pc⟩ := by
  rw [Function.update_eq_self]
  split
  · rename_i hp
    exact h.goto (Or.inl (by rw [hp]; rfl)) rfl nofun
  · exact h

theorem WakeInv.interrupt (h : WakeInv c m) {d : InputDevice} {byte : UInt8} {stream : ByteStream}
    {woken : Option TaskId} (hadd : d.addByte (m.streams id) byte = .ok (stream,woken))
    (hm : m.receive id stream woken = .ok m') : WakeInv c m' := by
  rw [receive_ok hm]
  rw [d.addByte_eq,ByteStream.addByte] at hadd
  split at hadd
  · cases Except.ok.inj hadd
    rw [Option.toList_none,List.append_nil]
    exact h.drop id
  · split at hadd
    · cases Except.ok.inj hadd
      exact h.accept d.bufSize byte
    · cases hadd

/-- A poll leaves its own waker or the one that was there. -/
theorem stream_waker {n : ℕ} {pc : PollPc} {stream stream' : ByteStream} {r : PollResult} {w : TaskId}
    (hrun : stream.pollNext n id pc = .ok (stream',r)) (hw : stream'.waker = some w) :
    w = id ∨ stream.waker = some w := by
  cases pc with
  | register =>
    cases Except.ok.inj hrun
    exact Or.inl (Option.some.inj hw).symm
  | take =>
    cases Except.ok.inj hrun
    cases hw
  | read =>
    obtain ⟨rfl,-⟩ := ByteStream.pollNext_read hrun
    exact Or.inr hw
  | _ =>
    cases Except.ok.inj hrun
    exact Or.inr hw

/-- One step of the poll of the stream task `id`. -/
theorem WakeInv.pollNext (h : WakeInv c m) {pc : PollPc} {d : InputDevice} {stream : ByteStream}
    {r : PollResult} (hpc : m.pc = .polling id pc) (hk : c.kind id = .stream d)
    (hrun : (m.streams id).pollNext d.bufSize id pc = .ok (stream,r)) :
    WakeInv c {m with streams := Function.update m.streams id stream,pc := resume id r} := by
  have hwaker : ∀ w, stream.waker = some w → w = id := fun w hw =>
    (stream_waker hrun hw).elim (fun he => he) (h.own id w)
  have htask : (resume id r).task = some id := by cases r <;> rfl
  refine h.polled (by rw [hpc]; rfl) (Or.inl htask) (by cases r <;> nofun) ?_ ?_ ?_
  · intro j w hw
    by_cases hj : j = id
    · subst hj
      exact hwaker w (by simpa using hw)
    · exact h.own j w (by simpa [hj] using hw)
  · intro j hj
    exact ⟨Function.update_of_ne hj _ _,rfl,fun hq => hq⟩
  · intro _ _ hr
    have htoken := h.token id d hk hr
    cases pc with
    | check =>
      cases Except.ok.inj hrun
      exact .of_polling rfl nofun nofun
    | compare head =>
      cases Except.ok.inj hrun
      split
      · exact .of_polling rfl nofun nofun
      · exact .of_polling rfl nofun nofun
    | register =>
      cases Except.ok.inj hrun
      exact ⟨by simp [resume,ExecPc.task],fun _ => Or.inr (by simp),by simp [resume]⟩
    | recheck =>
      cases Except.ok.inj hrun
      refine ⟨by simp [resume,ExecPc.task],by simp [resume],fun head hp => ?_⟩
      cases (ExecPc.polling.inj hp).2
      exact (htoken.registered hpc).imp_right fun hw => by simp [hw]
    | recompare head =>
      cases Except.ok.inj hrun
      split
      · exact .of_polling rfl nofun nofun
      · rename_i heq
        refine .of_awake ((htoken.rechecked head hpc).imp_right fun hw => ?_) (Or.inr rfl)
        simpa [hw.1,hw.2] using heq
    | take =>
      cases Except.ok.inj hrun
      exact .of_polling rfl nofun nofun
    | read =>
      obtain ⟨rfl,rfl⟩ := ByteStream.pollNext_read hrun
      exact .of_polling rfl nofun nofun
    | advance byte =>
      cases Except.ok.inj hrun
      exact .of_running (Or.inr (Or.inl rfl))

/-- The poll of `id` moves to a place where it owes nothing; the queue and the registry may
change for `id` alone. -/
theorem WakeInv.advance (h : WakeInv c m) {executor : MictExecutor} {pc : ExecPc}
    (hpc : m.pc.task = some id) (hpc' : pc = .running id ∨ pc = .yielding id)
    (hframe : ∀ j, j ≠ id → executor.processRegistry j = m.executor.processRegistry j ∧
      (j ∈ m.executor.readyQueue → j ∈ executor.readyQueue)) :
    WakeInv c {m with executor,pc} := by
  refine h.polled hpc (Or.inl ?_) ?_ h.own (fun j hj => ⟨rfl,hframe j hj⟩) fun _ _ _ => ?_
  · rcases hpc' with rfl | rfl <;> rfl
  · rcases hpc' with rfl | rfl <;> nofun
  · exact .of_running (Or.inr hpc')

/-- The same where the poll enters `poll_next`. -/
theorem WakeInv.enterPoll (h : WakeInv c m) {executor : MictExecutor}
    (hpc : m.pc.task = some id)
    (hframe : ∀ j, j ≠ id → executor.processRegistry j = m.executor.processRegistry j ∧
      (j ∈ m.executor.readyQueue → j ∈ executor.readyQueue)) :
    WakeInv c {m with executor,pc := .polling id .check} :=
  h.polled hpc (Or.inl rfl) nofun h.own (fun j hj => ⟨rfl,hframe j hj⟩) fun _ _ _ =>
    .of_polling rfl nofun nofun

/-- The poll of a task that is not, or no longer, registered ends. -/
theorem WakeInv.gone (h : WakeInv c m) {executor : MictExecutor}
    (hpc : m.pc.task = some id) (hreg : executor.processRegistry id = none)
    (hframe : ∀ j, j ≠ id → executor.processRegistry j = m.executor.processRegistry j ∧
      (j ∈ m.executor.readyQueue → j ∈ executor.readyQueue)) :
    WakeInv c {m with executor,pc := .pop} := by
  refine h.polled hpc (Or.inr rfl) nofun h.own (fun j hj => ⟨rfl,hframe j hj⟩) fun _ _ hr => ?_
  rw [show ({m with executor,pc := .pop} : Machine).executor.processRegistry id = none from hreg] at hr
  cases hr

theorem WakeInv.pop (h : WakeInv c m) {rest : List TaskId} (hpc : m.pc = .pop)
    (hq : m.executor.readyQueue = id :: rest) :
    WakeInv c {m with executor := {m.executor with readyQueue := rest},pc := .popped id} where
  own := h.own
  token j d hk hr := by
    by_cases hj : j = id
    · exact .of_running (Or.inl (by rw [hj]))
    · refine .of_awake ((h.awake hk hr (Or.inl (by simp [hpc,ExecPc.task]))).mono rfl ?_) (Or.inl ?_)
      · rw [hq]
        exact fun hmem => (List.mem_cons.mp hmem).resolve_left hj
      · exact fun he => hj (Option.some.inj he).symm
  halted := nofun

theorem WakeInv.step (h : WakeInv c m) {a : MachineAction} (hstep : Exec c m a (.ok m')) :
    WakeInv c m' := by
  generalize hr : Except.ok m' = r at hstep
  cases hstep with
  | spawn hpc _ _ =>
    rw [spawn_ok hr.symm]
    exact h.spawn hpc _
  | run hpc =>
    cases Except.ok.inj hr
    exact h.goto (Or.inl (by rw [hpc]; rfl)) rfl nofun
  | interrupt _ _ hadd => exact h.interrupt hadd hr.symm
  | timer hpc =>
    cases Except.ok.inj hr
    exact h.goto (Or.inl (by rw [hpc]; rfl)) rfl nofun
  | pop hpc hq =>
    cases Except.ok.inj hr
    exact h.pop hpc hq
  | drained hpc _ =>
    cases Except.ok.inj hr
    exact h.goto (Or.inl (by rw [hpc]; rfl)) rfl nofun
  | terminated hpc hreg =>
    cases Except.ok.inj hr
    exact h.gone (by rw [hpc]; rfl) hreg fun _ _ => ⟨rfl,fun hq => hq⟩
  | @poll id future hpc hreg =>
    cases Except.ok.inj hr
    have htask : m.pc.task = some id := by rw [hpc]; rfl
    cases future with
    | start => exact h.advance htask (Or.inl rfl) fun _ _ => ⟨rfl,fun hq => hq⟩
    | next => exact h.enterPoll htask fun _ _ => ⟨rfl,fun hq => hq⟩
    | yieldNow => exact h.advance htask (Or.inr rfl) fun _ _ => ⟨rfl,fun hq => hq⟩
  | @await id hpc =>
    cases Except.ok.inj hr
    have htask : m.pc.task = some id := by rw [hpc]; rfl
    cases c.kind id with
    | stream => exact h.enterPoll htask fun _ hj => ⟨Function.update_of_ne hj _ _,fun hq => hq⟩
    | yieldNow =>
      exact h.advance htask (Or.inr rfl) fun _ hj => ⟨Function.update_of_ne hj _ _,fun hq => hq⟩
  | finish hpc =>
    cases Except.ok.inj hr
    exact h.gone (by rw [hpc]; rfl) (Function.update_self _ _ _)
      fun _ hj => ⟨Function.update_of_ne hj _ _,fun hq => hq⟩
  | @pollNext _ _ d _ _ hpc hk hrun =>
    cases Except.ok.inj hr
    rw [d.pollNext_eq] at hrun
    exact h.pollNext hpc hk hrun
  | @yieldNow id _ hpc _ =>
    have htask : m.pc.task = some id := by rw [hpc]; rfl
    rcases pollYield_ok hr.symm with rfl | rfl
    · exact h.advance htask (Or.inl rfl) fun _ _ => ⟨rfl,fun hq => hq⟩
    · refine h.polled htask (Or.inl rfl) nofun h.own (fun _ hj => ?_) fun _ _ _ => ?_
      · exact ⟨rfl,Function.update_of_ne hj _ _,fun hq => List.mem_append_left _ hq⟩
      · exact .of_mem (List.mem_append_right _ List.mem_cons_self)
  | pending hpc =>
    cases Except.ok.inj hr
    exact h.goto (Or.inr ⟨_,hpc⟩) rfl nofun
  | disable hpc =>
    cases Except.ok.inj hr
    exact h.goto (Or.inl (by rw [hpc]; rfl)) rfl nofun
  | halt hpc hq =>
    cases Except.ok.inj hr
    exact h.goto (Or.inl (by rw [hpc]; rfl)) rfl fun _ => hq
  | enable hpc _ =>
    cases Except.ok.inj hr
    exact h.goto (Or.inl (by rw [hpc]; rfl)) rfl nofun

theorem WakeInv.reachable (h : (machineSystem c).Reachable m) : WakeInv c m :=
  h.invariant (fun _ hm => hm ▸ .boot c) fun _ _ _ hinv hstep => hinv.step hstep

end Machine

/-- No wake-up is lost: outside its own poll a stream's unfinished task is in the ready queue,
or it has read every byte and the stream holds its waker. So `sleep_if_idle` halts over empty
buffers only. -/
structure NoLostWakeup (c : TaskSet) (m : Machine) : Prop where
  awake : ∀ id d, c.kind id = .stream d → (m.executor.processRegistry id).isSome →
    m.pc.task ≠ some id → id ∈ m.executor.readyQueue ∨
      (m.streams id).ring.head = (m.streams id).ring.tail ∧ (m.streams id).waker = some id
  halted : m.pc = .halted → m.executor.readyQueue = []
  idle : m.pc = .halted ∨ m.pc = .disabled ∧ m.executor.readyQueue = [] →
    ∀ id d, c.kind id = .stream d → (m.executor.processRegistry id).isSome →
      (m.streams id).ring.head = (m.streams id).ring.tail

theorem no_lost_wakeup {c : TaskSet} {m : Machine} (h : (machineSystem c).Reachable m) :
    NoLostWakeup c m := by
  have hinv := Machine.WakeInv.reachable h
  refine ⟨fun id d hk hr hpc => hinv.awake hk hr (Or.inl hpc),hinv.halted,fun hp id d hk hr => ?_⟩
  have hq : m.executor.readyQueue = [] := hp.elim hinv.halted And.right
  have hpc : m.pc.task ≠ some id := by
    rcases hp with hp | ⟨hp,-⟩ <;> simp [hp,ExecPc.task]
  rcases hinv.awake hk hr (Or.inl hpc) with hmem | ⟨hempty,-⟩
  · rw [hq] at hmem
    cases hmem
  · exact hempty

namespace Machine

variable {c : TaskSet} {m : Machine} {id : TaskId}

/-- The task `id` stands at `pc` over the stream `s`, with `k` ids queued. -/
structure At (id : TaskId) (pc : ExecPc) (s : ByteStream) (k : ℕ) (m : Machine) : Prop where
  pc : m.pc = pc
  stream : m.streams id = s
  queue : m.executor.readyQueue.length = k

variable {d : InputDevice} {k : ℕ} {s t : ByteStream}

theorem At.pollNext {pc : PollPc} {r : PollResult} (h : At id (.polling id pc) s k m)
    (hk : c.kind id = .stream d) (hrun : s.pollNext d.bufSize id pc = .ok (t,r))
    (hm : (machineSystem c).Reachable m) :
    ∃ m', (machineSystem c).Reachable m' ∧ At id (resume id r) t k m' := by
  refine ⟨_,.step (a := .step) hm (Exec.pollNext h.pc hk ?_),rfl,Function.update_self _ _ _,h.queue⟩
  rw [d.pollNext_eq,h.stream]
  exact hrun

theorem At.await (h : At id (.running id) s k m) (hk : c.kind id = .stream d)
    (hm : (machineSystem c).Reachable m) :
    ∃ m', (machineSystem c).Reachable m' ∧ At id (.polling id .check) s k m' := by
  refine ⟨_,.step (a := .step) hm (.await h.pc),?_⟩
  rw [hk]
  exact ⟨rfl,h.stream,h.queue⟩

/-- The task gets started. -/
theorem exists_started (hid : id ∈ c.ids) :
    ∃ m, (machineSystem c).Reachable m ∧ At id (.running id) .new 0 m := by
  let registry : TaskId → Option TaskFuture := Function.update (fun _ => none) id (some .start)
  have hspawn : (machineSystem c).Reachable ⟨⟨registry,[id]⟩,fun _ => .new,.spawning⟩ :=
    .step (a := .spawn id) (.init rfl) (.spawn rfl hid rfl)
  have hrun : (machineSystem c).Reachable ⟨⟨registry,[id]⟩,fun _ => .new,.pop⟩ :=
    .step (a := .step) hspawn (.run rfl)
  let popped : Machine := ⟨⟨registry,[]⟩,fun _ => .new,.popped id⟩
  have hpop : (machineSystem c).Reachable popped := .step (a := .step) hrun (.pop rfl rfl)
  have hpoll : Exec c popped .step (.ok {popped with pc := enter id .start}) :=
    .poll rfl (by simp [popped,registry])
  exact ⟨_,.step hpop hpoll,rfl,rfl,rfl⟩

/-- A poll over an empty buffer registers its waker. -/
theorem At.register (h : At id (.running id) s k m) (hk : c.kind id = .stream d)
    (hempty : s.ring.head = s.ring.tail) (hm : (machineSystem c).Reachable m) :
    ∃ m', (machineSystem c).Reachable m' ∧
      At id (.polling id .recheck) ⟨s.ring,some id⟩ k m' := by
  obtain ⟨m₁,hm₁,h₁⟩ := h.await hk hm
  obtain ⟨m₂,hm₂,h₂⟩ := h₁.pollNext hk rfl hm₁
  obtain ⟨m₃,hm₃,h₃⟩ := h₂.pollNext hk rfl hm₂
  rw [if_neg (not_not.mpr hempty)] at h₃
  exact h₃.pollNext hk rfl hm₃

/-- The poll finds nothing, and with nothing else to do the processor halts. -/
theorem At.halt (h : At id (.polling id .recheck) s 0 m) (hk : c.kind id = .stream d)
    (hempty : s.ring.head = s.ring.tail) (hm : (machineSystem c).Reachable m) :
    ∃ m', (machineSystem c).Reachable m' ∧ At id .halted s 0 m' := by
  obtain ⟨m₁,hm₁,h₁⟩ := h.pollNext hk rfl hm
  obtain ⟨m₂,hm₂,h₂⟩ := h₁.pollNext hk rfl hm₁
  rw [if_neg (not_not.mpr hempty)] at h₂
  have hq : m₂.executor.readyQueue = [] := List.eq_nil_of_length_eq_zero h₂.queue
  have hpop : (machineSystem c).Reachable {m₂ with pc := .pop} :=
    .step (a := .step) hm₂ (.pending h₂.pc)
  have hidle : (machineSystem c).Reachable {m₂ with pc := .idle} :=
    .step (a := .step) hpop (.drained rfl hq)
  have hdisabled : (machineSystem c).Reachable {m₂ with pc := .disabled} :=
    .step (a := .step) hidle (.disable rfl)
  exact ⟨{m₂ with pc := .halted},.step (a := .step) hdisabled (.halt rfl hq),rfl,h₂.stream,h₂.queue⟩

end Machine

/-- The serial task alone, started, waiting for its first byte, and the processor halted. -/
theorem serialTask_halts : ∃ m, (machineSystem serialTask).Reachable m ∧ m.pc = .halted ∧
    (m.streams 0).waker = some 0 ∧ NoLostWakeup serialTask m := by
  obtain ⟨m,hm,h⟩ := Machine.exists_started (c := serialTask) (Finset.mem_singleton_self 0)
  obtain ⟨m₁,hm₁,h₁⟩ := h.register rfl rfl hm
  obtain ⟨m₂,hm₂,h₂⟩ := h₁.halt rfl rfl hm₁
  exact ⟨m₂,hm₂,h₂.pc,by rw [h₂.stream],no_lost_wakeup hm₂⟩

end PolymorphOS
