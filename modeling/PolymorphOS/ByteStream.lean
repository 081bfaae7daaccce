import PolymorphOS.RingBuffer
import PolymorphOS.RustCore
import PolymorphOS.Runs

/-! `keyboard.rs`, `serial_stream.rs` and `mouse_stream.rs`: a ring buffer that an interrupt
handler fills and `poll_next` drains, and what passes through it under every interleaving. -/
namespace PolymorphOS

/-- `TaskId`; a task's waker is known by the task's id. -/
abbrev TaskId := ℕ

/-- The statics of one stream module: `BUFFER`, `HEAD`, `TAIL` and `WAKER`. -/
structure ByteStream where
  ring : RingBuffer UInt8
  waker : Option TaskId

/-- What runs next in a `poll_next`; both checks load `HEAD` before they compare it to `TAIL`. -/
inductive PollPc
  | check
  | compare (head : ℕ)
  | register
  | recheck
  | recompare (head : ℕ)
  | take
  | read
  | advance (byte : UInt8)
  deriving DecidableEq

inductive PollResult
  | running (pc : PollPc)
  | ready (byte : UInt8)
  | pending
  deriving DecidableEq

namespace ByteStream

def new : ByteStream := ⟨⟨fun _ => 0,0,0⟩,none⟩

/-- The handler, with the waker it wakes; a byte that finds the buffer full is dropped. -/
def addByte (bufSize : ℕ) (s : ByteStream) (byte : UInt8) :
    Except Panic (ByteStream × Option TaskId) :=
  if s.ring.Full bufSize then .ok (s,none)
  else if s.ring.head < bufSize then .ok (⟨s.ring.push bufSize byte,none⟩,s.waker)
  else .error .indexOutOfBounds

/-- One step of the task `id`'s `poll_next`. -/
def pollNext (bufSize : ℕ) (id : TaskId) (s : ByteStream) :
    PollPc → Except Panic (ByteStream × PollResult)
  | .check => .ok (s,.running (.compare s.ring.head))
  | .compare head => .ok (s,.running (if head ≠ s.ring.tail then .read else .register))
  | .register => .ok ({s with waker := some id},.running .recheck)
  | .recheck => .ok (s,.running (.recompare s.ring.head))
  | .recompare head => .ok (s,if head ≠ s.ring.tail then .running .take else .pending)
  | .take => .ok ({s with waker := none},.running .read)
  | .read => if s.ring.tail < bufSize then .ok (s,.running (.advance (s.ring.slots s.ring.tail)))
    else .error .indexOutOfBounds
  | .advance byte => .ok ({s with ring := s.ring.pop bufSize},.ready byte)

end ByteStream

namespace Keyboard

def bufSize : ℕ := 256

/-- A dropped scancode leaves a warning on the serial port. -/
def addScancode : ByteStream → UInt8 → Except Panic (ByteStream × Option TaskId) :=
  ByteStream.addByte bufSize

def pollNext : TaskId → ByteStream → PollPc → Except Panic (ByteStream × PollResult) :=
  ByteStream.pollNext bufSize

end Keyboard

namespace SerialStream

def bufSize : ℕ := 65536

def addByte : ByteStream → UInt8 → Except Panic (ByteStream × Option TaskId) :=
  ByteStream.addByte bufSize

def pollNext : TaskId → ByteStream → PollPc → Except Panic (ByteStream × PollResult) :=
  ByteStream.pollNext bufSize

end SerialStream

namespace MouseStream

def bufSize : ℕ := 65536

def addByte : ByteStream → UInt8 → Except Panic (ByteStream × Option TaskId) :=
  ByteStream.addByte bufSize

def pollNext : TaskId → ByteStream → PollPc → Except Panic (ByteStream × PollResult) :=
  ByteStream.pollNext bufSize

end MouseStream

inductive InputDevice
  | keyboard | serial | mouse
  deriving DecidableEq

namespace InputDevice

def bufSize : InputDevice → ℕ
  | .keyboard => Keyboard.bufSize
  | .serial => SerialStream.bufSize
  | .mouse => MouseStream.bufSize

def addByte : InputDevice → ByteStream → UInt8 → Except Panic (ByteStream × Option TaskId)
  | .keyboard => Keyboard.addScancode
  | .serial => SerialStream.addByte
  | .mouse => MouseStream.addByte

def pollNext : InputDevice → TaskId → ByteStream → PollPc → Except Panic (ByteStream × PollResult)
  | .keyboard => Keyboard.pollNext
  | .serial => SerialStream.pollNext
  | .mouse => MouseStream.pollNext

theorem addByte_eq (d : InputDevice) : d.addByte = ByteStream.addByte d.bufSize := by
  cases d <;> rfl

theorem pollNext_eq (d : InputDevice) : d.pollNext = ByteStream.pollNext d.bufSize := by
  cases d <;> rfl

theorem bufSize_pos (d : InputDevice) : 1 < d.bufSize := by
  cases d <;> decide

end InputDevice

/-- A stream, the `poll_next` running on it, and the bytes taken in and given out so far. -/
structure StreamState where
  stream : ByteStream
  polling : Option (TaskId × PollPc)
  accepted : List UInt8
  returned : List UInt8

inductive StreamAction
  | interrupt (byte : UInt8)
  | poll (id : TaskId)
  | run

/-- A `poll_next` goes on or returns to its caller. -/
def StreamState.resume (s : StreamState) (id : TaskId) (stream : ByteStream) :
    PollResult → StreamState
  | .running pc => {s with stream,polling := some (id,pc)}
  | .ready byte => {s with stream,polling := none,returned := s.returned ++ [byte]}
  | .pending => {s with stream,polling := none}

/-- Interrupts fall between any two steps; a handler is not interrupted itself. -/
inductive StreamStep (d : InputDevice) : StreamState → StreamAction → StreamState → Prop
  | accept {s : StreamState} {byte : UInt8} {stream : ByteStream} {woken : Option TaskId} :
      d.addByte s.stream byte = .ok (stream,woken) → ¬s.stream.ring.Full d.bufSize →
      StreamStep d s (.interrupt byte) {s with stream,accepted := s.accepted ++ [byte]}
  | drop {s : StreamState} {byte : UInt8} {stream : ByteStream} {woken : Option TaskId} :
      d.addByte s.stream byte = .ok (stream,woken) → s.stream.ring.Full d.bufSize →
      StreamStep d s (.interrupt byte) {s with stream}
  | poll {s : StreamState} {id : TaskId} : s.polling = none →
      StreamStep d s (.poll id) {s with polling := some (id,.check)}
  | run {s : StreamState} {id : TaskId} {pc : PollPc} {stream : ByteStream} {r : PollResult} :
      s.polling = some (id,pc) → d.pollNext id s.stream pc = .ok (stream,r) →
      StreamStep d s .run (s.resume id stream r)

/-- The stream of a device from boot on. -/
def streamSystem (d : InputDevice) : Runs.System StreamState StreamAction where
  init s := s = ⟨.new,none,[],[]⟩
  step := StreamStep d

namespace ByteStream

variable {n : ℕ} {s t : ByteStream}

theorem addByte_full {byte : UInt8} (h : s.ring.Full n) : s.addByte n byte = .ok (s,none) :=
  if_pos h

theorem addByte_push {byte : UInt8} (hb : s.ring.InBounds n) (h : ¬s.ring.Full n) :
    s.addByte n byte = .ok (⟨s.ring.push n byte,none⟩,s.waker) := by
  rw [addByte,if_neg h,if_pos hb.head]

theorem pollNext_read {id : TaskId} {r : PollResult}
    (h : s.pollNext n id .read = .ok (t,r)) :
    t = s ∧ r = .running (.advance (s.ring.slots s.ring.tail)) := by
  unfold pollNext at h
  by_cases ht : s.ring.tail < n
  · rw [if_pos ht] at h
    cases Except.ok.inj h
    exact ⟨rfl,rfl⟩
  · rw [if_neg ht] at h
    cases h

/-- What a `poll_next` has learnt when it stands at `pc`: past a check that succeeded the
buffer is not empty, and the byte it read is the oldest one. -/
def Knows (s : ByteStream) : PollPc → Prop
  | .compare head => head ≠ s.ring.tail → s.ring.head ≠ s.ring.tail
  | .recompare head => head ≠ s.ring.tail → s.ring.head ≠ s.ring.tail
  | .take => s.ring.head ≠ s.ring.tail
  | .read => s.ring.head ≠ s.ring.tail
  | .advance byte => s.ring.head ≠ s.ring.tail ∧ byte = s.ring.slots s.ring.tail
  | _ => True

/-- An interrupt does not take back what a `poll_next` knows. -/
theorem Knows.push {pc : PollPc} (h : s.Knows pc) (hb : s.ring.InBounds n) (hfull : ¬s.ring.Full n)
    (byte : UInt8) : Knows ⟨s.ring.push n byte,none⟩ pc := by
  have hne := hb.push_nonempty hfull byte
  cases pc with
  | check => trivial
  | compare => exact fun _ => hne
  | register => trivial
  | recheck => trivial
  | recompare => exact fun _ => hne
  | take => exact hne
  | read => exact hne
  | advance b => exact ⟨hne,h.2.trans (RingBuffer.InBounds.push_slot_tail h.1 byte).symm⟩

end ByteStream

/-- A handler wakes the waker it found. -/
theorem InputDevice.waker_of_woken (d : InputDevice) {s t : ByteStream} {byte : UInt8} {w : TaskId}
    (h : d.addByte s byte = .ok (t,some w)) : s.waker = some w := by
  rw [d.addByte_eq,ByteStream.addByte] at h
  split at h
  · cases Except.ok.inj h
  · split at h
    · exact (Prod.mk.inj (Except.ok.inj h)).2
    · cases h

/-- The invariant: the bytes given out, then those in the buffer, are the bytes taken in. -/
structure StreamState.Inv (n : ℕ) (s : StreamState) : Prop where
  bounds : s.stream.ring.InBounds n
  accepted : s.accepted = s.returned ++ s.stream.ring.contents n
  knows : ∀ id pc, s.polling = some (id,pc) → s.stream.Knows pc

namespace StreamState

variable {d : InputDevice} {s t : StreamState}

theorem Inv.init (d : InputDevice) : Inv d.bufSize ⟨.new,none,[],[]⟩ where
  bounds := ⟨Nat.zero_lt_of_lt d.bufSize_pos,Nat.zero_lt_of_lt d.bufSize_pos⟩
  accepted := by
    rw [List.nil_append,RingBuffer.contents,RingBuffer.occupied,ByteStream.new,Nat.zero_add,
      Nat.sub_zero,Nat.mod_self]
    rfl
  knows _ _ h := nomatch h

theorem Inv.push (h : Inv d.bufSize s) (hfull : ¬s.stream.ring.Full d.bufSize) (byte : UInt8) :
    Inv d.bufSize {s with
      stream := ⟨s.stream.ring.push d.bufSize byte,none⟩,accepted := s.accepted ++ [byte]} where
  bounds := h.bounds.push byte
  accepted := by rw [h.accepted,h.bounds.contents_push hfull,List.append_assoc]
  knows id pc hpc := (h.knows id pc hpc).push h.bounds hfull byte

theorem Inv.idle (h : Inv d.bufSize s) {waker : Option TaskId} {polling : Option (TaskId × PollPc)}
    (hpc : ∀ id pc, polling = some (id,pc) → s.stream.Knows pc) :
    Inv d.bufSize {s with stream := {s.stream with waker},polling} where
  bounds := h.bounds
  accepted := h.accepted
  knows id pc hp := by cases pc <;> exact hpc id _ hp

/-- The invariant over a step that leaves the buffer alone and goes on at `pc`. -/
theorem Inv.running (h : Inv d.bufSize s) (id : TaskId) {waker : Option TaskId} {pc : PollPc}
    (hpc : s.stream.Knows pc) :
    Inv d.bufSize (s.resume id {s.stream with waker} (.running pc)) :=
  h.idle fun _ _ hp => (Prod.mk.inj (Option.some.inj hp)).2 ▸ hpc

theorem Inv.run (h : Inv d.bufSize s) {id : TaskId} {pc : PollPc} {stream : ByteStream}
    {r : PollResult} (hpc : s.polling = some (id,pc))
    (hrun : s.stream.pollNext d.bufSize id pc = .ok (stream,r)) :
    Inv d.bufSize (s.resume id stream r) := by
  have hknows := h.knows id pc hpc
  cases pc with
  | check =>
    cases Except.ok.inj hrun
    exact h.running id fun hne => hne
  | compare head =>
    cases Except.ok.inj hrun
    split
    · rename_i hne
      exact h.running id (hknows hne)
    · exact h.running id trivial
  | register =>
    cases Except.ok.inj hrun
    exact h.running id trivial
  | recheck =>
    cases Except.ok.inj hrun
    exact h.running id fun hne => hne
  | recompare head =>
    cases Except.ok.inj hrun
    split
    · rename_i hne
      exact h.running id (hknows hne)
    · exact h.idle fun _ _ hp => nomatch hp
  | take =>
    cases Except.ok.inj hrun
    exact h.running id hknows
  | read =>
    obtain ⟨rfl,rfl⟩ := ByteStream.pollNext_read hrun
    exact h.running id ⟨hknows,rfl⟩
  | advance byte =>
    obtain ⟨hne,rfl⟩ := hknows
    cases Except.ok.inj hrun
    refine ⟨h.bounds.pop,?_,fun _ _ hp => nomatch hp⟩
    show s.accepted = (s.returned ++ [_]) ++ (s.stream.ring.pop d.bufSize).contents d.bufSize
    rw [h.accepted,h.bounds.contents_pop hne]
    exact List.append_cons _ _ _

theorem Inv.step {a : StreamAction} (h : Inv d.bufSize s) (hstep : StreamStep d s a t) :
    Inv d.bufSize t := by
  cases hstep with
  | accept hadd hfull =>
    rw [d.addByte_eq,ByteStream.addByte_push h.bounds hfull] at hadd
    cases Except.ok.inj hadd
    exact h.push hfull _
  | drop hadd hfull =>
    rw [d.addByte_eq,ByteStream.addByte_full hfull] at hadd
    cases Except.ok.inj hadd
    exact h
  | poll =>
    exact h.idle fun _ _ hp => (Prod.mk.inj (Option.some.inj hp)).2 ▸ trivial
  | run hpc hrun =>
    rw [d.pollNext_eq] at hrun
    exact h.run hpc hrun

theorem Inv.reachable (h : (streamSystem d).Reachable s) : Inv d.bufSize s :=
  h.invariant (fun _ hs => hs ▸ .init d) fun _ _ _ => Inv.step

end StreamState

/-- What passes through a stream: no index leaves the buffer and nothing panics, bytes come
out in the order they came in, none missing, and one is dropped only when all slots but one
are taken. -/
structure LosslessFifo (d : InputDevice) (s : StreamState) : Prop where
  head_lt : s.stream.ring.head < d.bufSize
  tail_lt : s.stream.ring.tail < d.bufSize
  handler : ∀ byte, ∃ r, d.addByte s.stream byte = .ok r
  poll : ∀ id pc, s.polling = some (id,pc) → ∃ r, d.pollNext id s.stream pc = .ok r
  returned : s.returned <+: s.accepted
  unread : s.accepted.drop s.returned.length =
    (List.range ((s.stream.ring.head + d.bufSize - s.stream.ring.tail) % d.bufSize)).map
      fun i => s.stream.ring.slots ((s.stream.ring.tail + i) % d.bufSize)
  dropped : ∀ byte t, StreamStep d s (.interrupt byte) t → t.accepted = s.accepted ++ [byte] ∨
    t = s ∧ (s.stream.ring.head + d.bufSize - s.stream.ring.tail) % d.bufSize = d.bufSize - 1

theorem streamSystem_lossless {d : InputDevice} {s : StreamState}
    (h : (streamSystem d).Reachable s) : LosslessFifo d s := by
  have hinv := StreamState.Inv.reachable h
  refine ⟨hinv.bounds.head,hinv.bounds.tail,?_,?_,⟨_,hinv.accepted.symm⟩,?_,?_⟩
  · intro byte
    rw [d.addByte_eq]
    by_cases hfull : s.stream.ring.Full d.bufSize
    · exact ⟨_,ByteStream.addByte_full hfull⟩
    · exact ⟨_,ByteStream.addByte_push hinv.bounds hfull⟩
  · intro id pc _
    rw [d.pollNext_eq]
    cases pc with
    | read => exact ⟨_,if_pos hinv.bounds.tail⟩
    | _ => exact ⟨_,rfl⟩
  · rw [hinv.accepted,List.drop_left]
    rfl
  · intro byte t hstep
    cases hstep with
    | accept => exact Or.inl rfl
    | drop hadd hfull =>
      rw [d.addByte_eq,ByteStream.addByte_full hfull] at hadd
      cases Except.ok.inj hadd
      exact Or.inr ⟨rfl,hinv.bounds.full_iff.mp hfull⟩

/-- The serial stream once its first byte has come in. -/
def StreamState.oneByte : StreamState := ⟨⟨ByteStream.new.ring.push SerialStream.bufSize 7,none⟩,none,[7],[]⟩

theorem StreamState.oneByte_reachable : (streamSystem .serial).Reachable oneByte :=
  .step (a := .interrupt 7) (.init rfl) (.accept rfl (by decide))

theorem firstByte_lossless : LosslessFifo .serial .oneByte :=
  streamSystem_lossless StreamState.oneByte_reachable

end PolymorphOS
