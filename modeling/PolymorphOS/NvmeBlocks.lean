import PolymorphOS.NvmeBringUp
import PolymorphOS.NvmeNamespace

/-! `write_block` and `read_block` from power-on: the driver fills `IO_BUF`, submits and polls, while
the device fetches, moves single bytes between `IO_BUF` and the namespace, and completes. The calls
return what they would if each was served at once. -/
namespace PolymorphOS

/-- A call of `write_block` or `read_block`. -/
inductive BlockRequest
  | write (lba : UInt64) (data : List UInt8)
  | read (lba : UInt64)

/-- The error status of a call, or the bytes copied to `dest_buffer`. -/
abbrev BlockResult := Except UInt16 (List UInt8)

namespace BlockRequest

/-- What is copied to `IO_BUF` after it was zeroed. -/
def sent : BlockRequest → List UInt8
  | .write _ data => data
  | .read _ => []

def cmd (buf : UInt64) : BlockRequest → NvmeCmd
  | .write lba _ => DmaState.ioCmd 0x01 buf lba
  | .read lba => DmaState.ioCmd 0x02 buf lba

def lba : BlockRequest → UInt64
  | .write lba _ => lba
  | .read lba => lba

/-- What the call returns once `submit_io_cmd` has. -/
def result (buf : UInt64) (memory : ℕ → UInt8) (outcome : Except UInt16 Unit) :
    BlockRequest → BlockResult
  | .write _ _ => outcome.map fun _ => []
  | .read _ => outcome.map fun _ => (List.range 4096).map fun i => memory (buf.toNat + i)

end BlockRequest

namespace DmaState

/-- A call that is served at once. -/
def serve (size : ℕ) (attempt : Attempt) (buf : UInt64) (s : DmaState) :
    BlockRequest → BlockResult × DmaState
  | .write lba data =>
    let r := s.writeBlock size attempt buf lba data
    (r.1.map fun _ => [],r.2)
  | .read lba => s.readBlock size attempt buf lba

/-- The device puts a byte where the `i`-th one of the command's transfer goes. -/
def put (size : ℕ) (cmd : NvmeCmd) (i : ℕ) (v : UInt8) (s : DmaState) : DmaState :=
  if cmd.opcode = 0x01 then {s with storage := Function.update s.storage (cmd.slba * size + i) v}
  else if cmd.opcode = 0x02 then
    {s with memory := Function.update s.memory (cmd.dptr.1.toNat + i) v}
  else s

/-- Both ends of the command's transfer hold the same bytes. -/
def Transferred (size : ℕ) (cmd : NvmeCmd) (s : DmaState) : Prop :=
  ∀ i < cmd.blockCount * size, s.storage (cmd.slba * size + i) = s.memory (cmd.dptr.1.toNat + i)

/-- What the device answers for with a completion. If `atomic`, a command that fails leaves the
namespace as it was. -/
def Completed (size : ℕ) (atomic : Bool) (before : ℕ → UInt8) (cmd : NvmeCmd) (comp : NvmeComp)
    (s : DmaState) : Prop :=
  if comp.status >>> 1 = 0 then s.Transferred size cmd else atomic = true → s.storage = before

end DmaState

/-- A block call in progress, and what the namespace held when it began. -/
structure PendingCall where
  request : BlockRequest
  storage : ℕ → UInt8

/-- The driver's queues, the bytes that the device reaches, the block call in progress, and the ones
that have returned. -/
structure DriveState where
  queues : NvmeState BringUpStage
  dma : DmaState
  pending : Option PendingCall
  finished : List (BlockRequest × BlockResult)

inductive DriveAction
  | begin (r : BlockRequest)
  | queue (a : NvmeAction)
  | put (i : ℕ) (v : UInt8)
  | elsewhere

namespace DriveState

/-- The I/O queue of the one controller. -/
def io (s : DriveState) : Port := s.queues.port (0,.io)

/-- The command that the device has fetched and not completed. -/
def executing (s : DriveState) : Option NvmeCmd := s.io.fetched[s.io.posted.length]?

/-- The steps of the queues that this machine takes: I/O commands are those of the block calls. -/
def Lets (size : ℕ) (buf : UInt64) (atomic : Bool) (s : DriveState) : NvmeAction → Prop
  | .call _ .io cmd => ∃ call, s.pending = some call ∧ cmd = call.request.cmd buf
  | .post _ .io comp => ∀ call cmd, s.pending = some call → s.executing = some cmd →
    s.dma.Completed size atomic call.storage cmd comp
  | _ => True

/-- The block call returns when its call of `submit_io_cmd` does. -/
def after (buf : UInt64) (s : DriveState) (queues : NvmeState BringUpStage) : DriveState :=
  match s.pending,(queues.port (0,.io)).returned[s.io.returned.length]? with
  | some call,some outcome =>
    {s with
      queues
      pending := none
      finished := s.finished ++ [(call.request,call.request.result buf s.dma.memory outcome)]}
  | _,_ => {s with queues}

end DriveState

/-- One controller is brought up, and then serves block calls one after another. -/
inductive DriveStep (size : ℕ) (buf : UInt64) (addrs : DmaAddrs) (atomic : Bool) :
    DriveState → DriveAction → DriveState → Prop
  | reject {s : DriveState} {lba : UInt64} {data : List UInt8} : s.queues.stage = .io →
      s.pending = none → 4096 < data.length →
      DriveStep size buf addrs atomic s (.begin (.write lba data))
        {s with finished := s.finished ++ [(.write lba data,.error 0xFFFF)]}
  | fill {s : DriveState} {r : BlockRequest} : s.queues.stage = .io → s.pending = none →
      r.sent.length ≤ 4096 →
      DriveStep size buf addrs atomic s (.begin r)
        {s with dma := s.dma.fill buf r.sent,pending := some ⟨r,s.dma.storage⟩}
  | queue {s : DriveState} {a : NvmeAction} {queues : NvmeState BringUpStage} :
      NvmeStep (bringUp 1 addrs) s.queues a queues → s.Lets size buf atomic a →
      DriveStep size buf addrs atomic s (.queue a) (s.after buf queues)
  /-- Any byte of the transfer, in any order and any number of times, right or wrong. -/
  | put {s : DriveState} {cmd : NvmeCmd} {i : ℕ} {v : UInt8} : s.executing = some cmd →
      i < cmd.blockCount * size →
      DriveStep size buf addrs atomic s (.put i v) {s with dma := s.dma.put size cmd i v}
  /-- The rest of the machine does not touch `IO_BUF`. -/
  | elsewhere {s : DriveState} {memory : ℕ → UInt8} :
      (∀ i < 4096, memory (buf.toNat + i) = s.dma.memory (buf.toNat + i)) →
      DriveStep size buf addrs atomic s .elsewhere {s with dma := {s.dma with memory}}

def driveSystem (size : ℕ) (buf : UInt64) (addrs : DmaAddrs) (atomic : Bool)
    (storage : ℕ → UInt8) : Runs.System DriveState DriveAction where
  init s := s.queues = .boot (bringUp 1 addrs) ∧ s.dma.storage = storage ∧ s.pending = none ∧
    s.finished = []
  step := DriveStep size buf addrs atomic

/-- What the calls come to one at a time: for each a status of the device's choice, and, if it is an
error, what that leaves where the command should have written. -/
def blockSystem (size : ℕ) (buf : UInt64) (atomic : Bool) :
    Runs.System (ℕ → UInt8) (BlockRequest × BlockResult) where
  init _ := True
  step storage x storage' := ∃ attempt memory dma,
    DmaState.serve size attempt buf ⟨storage,memory⟩ x.1 = (x.2,dma) ∧ dma.storage = storage' ∧
      (atomic = true → attempt.status >>> 1 ≠ 0 → storage' = storage)

/-! ### The transfer -/

namespace DmaState

variable {size : ℕ} {buf lba : UInt64} {s : DmaState} {i : ℕ} {v : UInt8}

theorem put_write : s.put size (ioCmd 0x01 buf lba) i v =
    {s with storage := Function.update s.storage (lba.toNat * size + i) v} := by
  rw [put,slba_ioCmd]
  exact if_pos rfl

theorem put_read : s.put size (ioCmd 0x02 buf lba) i v =
    {s with memory := Function.update s.memory (buf.toNat + i) v} := by
  have hne : ¬(ioCmd 0x02 buf lba).opcode = 0x01 := show ¬(0x02 : UInt8) = 0x01 by decide
  rw [put,if_neg hne]
  exact if_pos rfl

theorem transferred_iff (opcode : UInt8) : s.Transferred size (ioCmd opcode buf lba) ↔
    ∀ i < size, s.storage (lba.toNat * size + i) = s.memory (buf.toNat + i) := by
  rw [Transferred,slba_ioCmd,blockCount_ioCmd,Nat.one_mul]
  rfl

theorem writeBlock_eq_splice {attempt : Attempt} {data : List UInt8} (hd : data.length ≤ 4096) :
    (s.writeBlock size attempt buf lba data).2.storage = splice s.storage (lba.toNat * size) size
      (attempt.transfer fun i => (s.fill buf data).memory (buf.toNat + i)) := by
  rw [writeBlock,if_neg (not_lt.mpr hd),submitIoCmd,execute_write]
  rfl

end DmaState

namespace BlockRequest

open DmaState

variable {size : ℕ} {buf : UInt64} {r : BlockRequest} {before : ℕ → UInt8} {s : DmaState}

theorem blockCount_cmd (size : ℕ) (buf : UInt64) (r : BlockRequest) :
    (r.cmd buf).blockCount * size = size := by
  cases r <;> exact Nat.one_mul size

theorem transferred_iff : s.Transferred size (r.cmd buf) ↔
    ∀ i < size, s.storage (r.lba.toNat * size + i) = s.memory (buf.toNat + i) := by
  cases r <;> exact DmaState.transferred_iff _

/-- How far a request may have come. A write has changed nothing but its own logical block, and has
its data in `IO_BUF`; a read has changed nothing of the namespace, and nothing of `IO_BUF` behind its
logical block. -/
def Moving (size : ℕ) (buf : UInt64) (before : ℕ → UInt8) (s : DmaState) : BlockRequest → Prop
  | .write lba data =>
    (∀ a, a < lba.toNat * size ∨ lba.toNat * size + size ≤ a → s.storage a = before a) ∧
      ∀ i < 4096, s.memory (buf.toNat + i) = data.getD i 0
  | .read _ => s.storage = before ∧ ∀ i, size ≤ i → i < 4096 → s.memory (buf.toNat + i) = 0

theorem Moving.fill (size : ℕ) (buf : UInt64) (r : BlockRequest) (s : DmaState) :
    r.Moving size buf s.storage (s.fill buf r.sent) := by
  cases r with
  | write lba data => exact ⟨fun _ _ => rfl,fun i hi => fill_apply buf data s hi⟩
  | read lba => exact ⟨rfl,fun i _ hi => fill_apply buf [] s hi⟩

theorem Moving.put (h : r.Moving size buf before s) {i : ℕ} (v : UInt8)
    (hi : i < (r.cmd buf).blockCount * size) :
    r.Moving size buf before (s.put size (r.cmd buf) i v) := by
  rw [blockCount_cmd] at hi
  cases r with
  | write lba data =>
    rw [cmd,put_write]
    refine ⟨fun a ha => ?_,h.2⟩
    exact (Function.update_of_ne (by omega) _ _).trans (h.1 a ha)
  | read lba =>
    rw [cmd,put_read]
    refine ⟨h.1,fun j hj hlt => ?_⟩
    exact (Function.update_of_ne (by omega) _ _).trans (h.2 j hj hlt)

theorem Moving.elsewhere (h : r.Moving size buf before s) {memory : ℕ → UInt8}
    (hmemory : ∀ i < 4096, memory (buf.toNat + i) = s.memory (buf.toNat + i)) :
    r.Moving size buf before {s with memory} := by
  cases r with
  | write lba data => exact ⟨h.1,fun i hi => (hmemory i hi).trans (h.2 i hi)⟩
  | read lba => exact ⟨h.1,fun i hi hlt => (hmemory i hlt).trans (h.2 i hi hlt)⟩

/-- What the bytes were moved one by one for is what a write served at once leaves. -/
theorem Moving.write_storage {lba : UInt64} {data : List UInt8} (hsize : size ≤ 4096)
    (h : (write lba data).Moving size buf before s) (hd : data.length ≤ 4096) (status : UInt16)
    (hdone : status >>> 1 = 0 → s.Transferred size (ioCmd 0x01 buf lba)) :
    (writeBlock size ⟨status,fun i => s.storage (lba.toNat * size + i)⟩ buf lba data
      ⟨before,s.memory⟩).2.storage = s.storage := by
  obtain ⟨hstorage,hmemory⟩ := h
  rw [writeBlock_eq_splice hd]
  funext a
  by_cases ha : a < lba.toNat * size ∨ lba.toNat * size + size ≤ a
  · rw [splice_of_not_mem ha,hstorage a ha]
  · obtain ⟨i,rfl⟩ := Nat.exists_eq_add_of_le (not_lt.mp fun hlt => ha (Or.inl hlt))
    have hi : i < size := by omega
    rw [splice_apply hi,Attempt.transfer]
    by_cases hok : status >>> 1 = 0
    · have hmoved := (DmaState.transferred_iff 0x01).mp (hdone hok) i hi
      rw [if_pos hok,fill_apply buf data _ (hi.trans_le hsize),hmoved,hmemory i (hi.trans_le hsize)]
    · rw [if_neg hok]

/-- The bytes that a read finds in `IO_BUF` are the content of its LBA. -/
theorem Moving.read_content {lba : UInt64} (h : (read lba).Moving size buf before s)
    (hdone : s.Transferred size (ioCmd 0x02 buf lba)) (memory : ℕ → UInt8) :
    ((List.range 4096).map fun i => s.memory (buf.toNat + i)) =
      content size ⟨before,memory⟩ lba := by
  obtain ⟨rfl,hrest⟩ := h
  refine List.map_congr_left fun i hi => ?_
  by_cases hlt : i < size
  · rw [if_pos hlt]
    exact ((DmaState.transferred_iff 0x02).mp hdone i hlt).symm
  · rw [if_neg hlt]
    exact hrest i (not_lt.mp hlt) (List.mem_range.mp hi)

/-- A call that returns did what it would have done at once. -/
theorem Moving.serves (hsize : size ≤ 4096) (h : r.Moving size buf before s)
    (hfits : r.sent.length ≤ 4096) (comp : NvmeComp)
    (hdone : comp.status >>> 1 = 0 → s.Transferred size (r.cmd buf)) :
    ∃ attempt dma, attempt.status = comp.status ∧ dma.storage = s.storage ∧
      serve size attempt buf ⟨before,s.memory⟩ r = (r.result buf s.memory comp.outcome,dma) := by
  let attempt (lba : UInt64) : Attempt := ⟨comp.status,fun i => s.storage (lba.toNat * size + i)⟩
  cases r with
  | write lba data =>
    have hstorage := h.write_storage hsize hfits comp.status hdone
    refine ⟨attempt lba,_,rfl,hstorage,Prod.ext ?_ rfl⟩
    exact congrArg (Except.map fun _ => []) (writeBlock_result hfits)
  | read lba =>
    refine ⟨attempt lba,_,rfl,?_,Prod.ext ?_ rfl⟩
    · exact (readBlock_storage size _ buf lba _).trans h.1.symm
    · refine (readBlock_result size _ buf lba _).trans ?_
      show (if comp.status >>> 1 = 0 then _ else _) = _
      rw [result,NvmeComp.outcome]
      by_cases hok : comp.status >>> 1 = 0
      · rw [if_pos hok,if_pos hok,← h.read_content (hdone hok)]
        rfl
      · rw [if_neg hok,if_neg hok]
        rfl

end BlockRequest

/-! ### The queues -/

namespace PortInv

variable {sq : ℕ → NvmeCmd} {cq : ℕ → NvmeComp} {pc : Option SubmitPc} {p : Port}

/-- The device works on the command of the call in progress only. -/
theorem executes (h : PortInv sq cq pc p) {cmd : NvmeCmd}
    (hcmd : p.fetched[p.posted.length]? = some cmd) :
    pc = some .polling ∧ p.posted.length = p.returned.length ∧
      p.submitted[p.returned.length]? = some cmd := by
  have hlt := (List.getElem?_eq_some_iff.mp hcmd).1
  have hsubmitted := h.submitted
  have hle := h.fetched.length_le
  have hge := h.posted_ge
  have hpc : pc = some .polling := by
    by_contra hne
    have := h.fetched_le hne
    omega
  subst hpc
  rw [if_neg nofun] at hsubmitted
  have hposted : p.posted.length = p.returned.length := by omega
  have hget : p.submitted[p.posted.length]? = some cmd := by
    rw [List.prefix_iff_getElem?.mp h.fetched _ hlt,← hcmd,List.getElem?_eq_getElem hlt]
  exact ⟨rfl,hposted,hposted ▸ hget⟩

end PortInv

namespace NvmeState

variable {P : Type} (s : NvmeState P) (c : ℕ) (q : QueueId) (x : ℕ × QueueId)

/-- The doorbell and the fetch submit, return and complete nothing. -/
theorem ring_port : ((s.ring c q).port x).submitted = (s.port x).submitted ∧
    ((s.ring c q).port x).returned = (s.port x).returned ∧
    ((s.ring c q).port x).posted = (s.port x).posted := by
  by_cases hx : x = (c,q)
  · simp [ring,hx]
  · simp [ring,hx]

theorem fetch_port : ((s.fetch c q).port x).submitted = (s.port x).submitted ∧
    ((s.fetch c q).port x).returned = (s.port x).returned ∧
    ((s.fetch c q).port x).posted = (s.port x).posted := by
  by_cases hx : x = (c,q)
  · simp [fetch,hx]
  · simp [fetch,hx]

end NvmeState

namespace DriveState

variable {size : ℕ} {buf : UInt64} {addrs : DmaAddrs} {atomic : Bool} {s : DriveState}
  {storage : ℕ → UInt8} {queues : NvmeState BringUpStage}

/-- The invariant of a block call in progress. -/
structure Underway (size : ℕ) (buf : UInt64) (atomic : Bool) (s : DriveState) (call : PendingCall) :
    Prop where
  stage : s.queues.stage = .io
  fits : call.request.sent.length ≤ 4096
  submitted : s.queues.pcOf .io ≠ none →
    s.io.submitted[s.io.returned.length]? = some (call.request.cmd buf)
  moving : call.request.Moving size buf call.storage s.dma
  completed : ∀ comp, s.io.posted[s.io.returned.length]? = some comp →
    s.dma.Completed size atomic call.storage (call.request.cmd buf) comp

/-- The invariant of the drive, `storage` being what the calls that have returned left in the
namespace. -/
structure Inv (size : ℕ) (buf : UInt64) (addrs : DmaAddrs) (atomic : Bool) (s : DriveState)
    (storage : ℕ → UInt8) : Prop where
  up : BringUpInv 1 addrs s.queues
  idle : s.pending = none → s.queues.pcOf .io = none ∧ s.dma.storage = storage
  underway : ∀ call, s.pending = some call → s.Underway size buf atomic call ∧ call.storage = storage

/-- As long as no I/O call returns, only the queues change. -/
theorem after_eq (h : (queues.port (0,.io)).returned = s.io.returned) :
    s.after buf queues = {s with queues} := by
  rw [after,h,List.getElem?_eq_none le_rfl]
  cases s.pending <;> rfl

/-- When the I/O call returns, the block call does. -/
theorem after_consume {call : PendingCall} (hpending : s.pending = some call) :
    s.after buf (s.queues.consume (bringUp 1 addrs) 0 .io) =
      {s with
        queues := s.queues.consume (bringUp 1 addrs) 0 .io
        pending := none
        finished := s.finished ++ [(call.request,call.request.result buf s.dma.memory
          (s.queues.cq .io s.io.counters.head).outcome)]} := by
  have hreturned : ((s.queues.consume (bringUp 1 addrs) 0 .io).port (0,.io)).returned =
      s.io.returned ++ [(s.queues.cq .io s.io.counters.head).outcome] := by
    simp only [NvmeState.consume,Function.update_self]
    rfl
  rw [after,hreturned,hpending,List.getElem?_concat_length]

namespace Inv

theorem port (h : s.Inv size buf addrs atomic storage) :
    PortInv (s.queues.sq .io) (s.queues.cq .io) (s.queues.pcOf .io) s.io := h.up.single.port .io

/-- While no I/O command is on its way, no completion is. -/
theorem not_posted (h : s.Inv size buf addrs atomic storage) (hpc : s.queues.pcOf .io = none) :
    s.io.posted[s.io.returned.length]? = none := by
  have hport := h.port
  rw [hpc] at hport
  exact List.getElem?_eq_none hport.settled.2.2.le

/-- A step of the queues that submits, completes and returns no I/O command. -/
theorem quiet (h : s.Inv size buf addrs atomic storage) (hup : BringUpInv 1 addrs queues)
    (hstage : s.queues.stage = .io → queues.stage = .io)
    (hpc : queues.pcOf .io = none ↔ s.queues.pcOf .io = none)
    (hio : (queues.port (0,.io)).submitted = s.io.submitted ∧
      (queues.port (0,.io)).returned = s.io.returned ∧ (queues.port (0,.io)).posted = s.io.posted) :
    (s.after buf queues).Inv size buf addrs atomic storage := by
  obtain ⟨hsubmitted,hreturned,hposted⟩ := hio
  rw [after_eq hreturned]
  refine ⟨hup,fun hp => ⟨hpc.mpr (h.idle hp).1,(h.idle hp).2⟩,fun call hcall => ?_⟩
  obtain ⟨hunder,heq⟩ := h.underway call hcall
  refine ⟨⟨hstage hunder.stage,hunder.fits,fun hne => ?_,hunder.moving,fun comp hcomp => ?_⟩,heq⟩
  · show (queues.port (0,.io)).submitted[(queues.port (0,.io)).returned.length]? = _
    rw [hsubmitted,hreturned]
    exact hunder.submitted (mt hpc.mpr hne)
  · refine hunder.completed comp ?_
    rw [← hposted,← hreturned]
    exact hcomp

/-- A step of another queue. -/
theorem other (h : s.Inv size buf addrs atomic storage) (hup : BringUpInv 1 addrs queues)
    (hstage : s.queues.stage = .io → queues.stage = .io) (hpc : s.queues.pcOf .io = none)
    (hpc' : queues.pcOf .io = none) (hport : queues.port (0,.io) = s.io) :
    (s.after buf queues).Inv size buf addrs atomic storage := by
  refine h.quiet hup hstage (by rw [hpc,hpc']) ?_
  rw [hport]
  exact ⟨rfl,rfl,rfl⟩

theorem ring (h : s.Inv size buf addrs atomic storage) {c : ℕ} {q : QueueId}
    (hc : s.queues.call = some (c,q,.stored)) (hup : BringUpInv 1 addrs (s.queues.ring c q)) :
    (s.after buf (s.queues.ring c q)).Inv size buf addrs atomic storage := by
  have hpc : (s.queues.ring c q).pcOf .io = none ↔ s.queues.pcOf .io = none := by
    cases q <;> simp [NvmeState.pcOf,NvmeState.ring,hc]
  exact h.quiet hup id hpc (s.queues.ring_port c q (0,.io))

theorem fetch (h : s.Inv size buf addrs atomic storage) {c : ℕ} {q : QueueId}
    (hup : BringUpInv 1 addrs (s.queues.fetch c q)) :
    (s.after buf (s.queues.fetch c q)).Inv size buf addrs atomic storage :=
  h.quiet hup id Iff.rfl (s.queues.fetch_port c q (0,.io))

theorem submit (h : s.Inv size buf addrs atomic storage) {call : PendingCall}
    (hpending : s.pending = some call) (hnone : s.queues.call = none)
    (hup : BringUpInv 1 addrs (s.queues.store 0 .io (call.request.cmd buf))) :
    (s.after buf (s.queues.store 0 .io (call.request.cmd buf))).Inv size buf addrs atomic storage := by
  have hpc : s.queues.pcOf .io = none := SingleInv.pcOf_none hnone
  have hport := h.port
  rw [hpc] at hport
  obtain ⟨hsubmitted,_⟩ := hport.settled
  obtain ⟨hunder,heq⟩ := h.underway call hpending
  rw [after_eq ((returned_eq s.queues (0,.io) 0 .io).1 _)]
  refine ⟨hup,fun hp => absurd (hpending.symm.trans hp) (Option.some_ne_none _),
    fun call' hcall' => ?_⟩
  cases Option.some.inj (hpending.symm.trans hcall')
  refine ⟨⟨hunder.stage,hunder.fits,fun _ => ?_,hunder.moving,fun comp hcomp => ?_⟩,heq⟩
  · simp only [io,NvmeState.store,Function.update_self]
    exact hsubmitted ▸ List.getElem?_concat_length
  · simp only [io,NvmeState.store,Function.update_self] at hcomp
    exact absurd (hcomp.symm.trans (h.not_posted hpc)) (Option.some_ne_none _)

theorem post (h : s.Inv size buf addrs atomic storage) {comp : NvmeComp}
    (hlt : s.io.posted.length < s.io.fetched.length)
    (hlets : ∀ call cmd, s.pending = some call → s.executing = some cmd →
      s.dma.Completed size atomic call.storage cmd comp)
    (hup : BringUpInv 1 addrs (s.queues.post 0 .io comp)) :
    (s.after buf (s.queues.post 0 .io comp)).Inv size buf addrs atomic storage := by
  have hexecuting : s.executing = some _ := List.getElem?_eq_getElem hlt
  obtain ⟨hpc,hposted,hcmd⟩ := h.port.executes hexecuting
  have hne : s.queues.pcOf .io ≠ none := fun hnone => absurd (hpc.symm.trans hnone) (Option.some_ne_none _)
  rw [after_eq ((returned_eq s.queues (0,.io) 0 .io).2.2.2 comp)]
  refine ⟨hup,fun hp => absurd (h.idle hp).1 hne,fun call hcall => ?_⟩
  obtain ⟨hunder,heq⟩ := h.underway call hcall
  have hself : (s.queues.post 0 .io comp).port (0,.io) =
      {s.io with posted := s.io.posted ++ [comp]} := by
    show Function.update s.queues.port (0,.io) _ (0,.io) = _
    rw [Function.update_self]
    rfl
  refine ⟨⟨hunder.stage,hunder.fits,fun _ => ?_,hunder.moving,fun comp' hcomp => ?_⟩,heq⟩
  · rw [io,hself]
    exact hunder.submitted hne
  · rw [io,hself,← hposted,List.getElem?_concat_length] at hcomp
    cases hcomp
    have heqcmd := Option.some.inj (hcmd.symm.trans (hunder.submitted hne))
    exact heqcmd ▸ hlets call _ hcall hexecuting

/-- The entry at the head is the completion of the block call, which returns what it would have
returned at once. -/
theorem found (hsize : size ≤ 4096) (h : s.Inv size buf addrs atomic storage)
    (hcall : s.queues.call = some (0,.io,.polling))
    (hfound : (s.queues.cq .io s.io.counters.head).status &&& 1 = s.io.counters.phase)
    (hup : BringUpInv 1 addrs (s.queues.consume (bringUp 1 addrs) 0 .io)) :
    ∃ x storage', (s.after buf (s.queues.consume (bringUp 1 addrs) 0 .io)).finished =
        s.finished ++ [x] ∧ (blockSystem size buf atomic).step storage x storage' ∧
      (s.after buf (s.queues.consume (bringUp 1 addrs) 0 .io)).Inv size buf addrs atomic storage' := by
  have hpc : s.queues.pcOf .io = some .polling := SingleInv.pcOf_call hcall
  have hport := h.port
  rw [hpc] at hport
  cases hpending : s.pending with
  | none => exact absurd (hpc.symm.trans (h.idle hpending).1) (Option.some_ne_none _)
  | some call =>
    obtain ⟨hunder,rfl⟩ := h.underway call hpending
    have hposted := hport.found hfound
    have hcomp := hport.latest (by omega)
    rw [← hport.head] at hcomp
    have hcompleted := hunder.completed _ hcomp
    set comp := s.queues.cq .io s.io.counters.head with hdef
    have hdone (hok : comp.status >>> 1 = 0) : s.dma.Transferred size (call.request.cmd buf) :=
      (if_pos hok).mp hcompleted
    obtain ⟨attempt,dma,hstatus,hstorage,hserve⟩ := hunder.moving.serves hsize hunder.fits comp hdone
    rw [after_consume hpending]
    refine ⟨_,s.dma.storage,rfl,⟨attempt,s.dma.memory,dma,hserve,hstorage,fun hatomic hfail => ?_⟩,
      hup,fun _ => ⟨SingleInv.pcOf_none rfl,rfl⟩,fun call' hcall' => ?_⟩
    · exact (if_neg (hstatus ▸ hfail)).mp hcompleted hatomic
    · exact absurd hcall'.symm (Option.some_ne_none _)

/-- A step of the queues returns no block call, or one that did what it would have done at once. -/
theorem queue (hsize : size ≤ 4096) (h : s.Inv size buf addrs atomic storage) {a : NvmeAction}
    (hstep : NvmeStep (bringUp 1 addrs) s.queues a queues) (hlets : s.Lets size buf atomic a) :
    (s.after buf queues).Inv size buf addrs atomic storage ∧
        (s.after buf queues).finished = s.finished ∨
      ∃ x storage', (s.after buf queues).finished = s.finished ++ [x] ∧
        (blockSystem size buf atomic).step storage x storage' ∧
        (s.after buf queues).Inv size buf addrs atomic storage' := by
  have hup := h.up.step le_rfl hstep
  have hsame (heq : (queues.port (0,.io)).returned = s.io.returned) :
      (s.after buf queues).finished = s.finished := by rw [after_eq heq]
  have hadmin (c : ℕ) : ((0,.io) : ℕ × QueueId) ≠ (c,.admin) := fun he =>
    absurd (Prod.mk.inj he).2 (by decide)
  cases hstep with
  | @call c q cmd hnone hnext _ =>
    cases q with
    | admin =>
      have hpc : s.queues.pcOf .io = none := SingleInv.pcOf_none hnone
      have hpc' : (s.queues.store c .admin cmd).pcOf .io = none :=
        SingleInv.pcOf_other rfl (by decide)
      have hport : (s.queues.store c .admin cmd).port (0,.io) = s.io :=
        Function.update_of_ne (hadmin c) _ _
      exact Or.inl ⟨h.other hup id hpc hpc' hport,hsame (congrArg Port.returned hport)⟩
    | io =>
      obtain ⟨call,hpending,rfl⟩ := hlets
      obtain ⟨rfl,_⟩ := BringUpStage.next_first le_rfl h.up.first hnext
      exact Or.inl ⟨h.submit hpending hnone hup,hsame ((returned_eq s.queues _ 0 .io).1 _)⟩
  | @ring c q hc => exact Or.inl ⟨h.ring hc hup,hsame (s.queues.ring_port c q _).2.1⟩
  | @found c q hc _ hfound =>
    obtain rfl := h.up.single.only _ _ _ hc
    cases q with
    | admin =>
      obtain ⟨cmd,hnext⟩ := h.up.allowed _ _ _ hc
      have hpc : s.queues.pcOf .io = none := SingleInv.pcOf_other hc (by decide)
      have hstage : s.queues.stage ≠ .io := by
        intro hstage
        rw [hstage] at hnext
        exact absurd hnext.2 (by decide)
      have hport : (s.queues.consume (bringUp 1 addrs) 0 .admin).port (0,.io) = s.io := by
        simp only [NvmeState.consume,Function.update_of_ne (hadmin 0)]
        rfl
      exact Or.inl ⟨h.other hup (fun hio => absurd hio hstage) hpc (SingleInv.pcOf_none rfl) hport,
        hsame (congrArg Port.returned hport)⟩
    | io => exact Or.inr (h.found hsize hc hfound hup)
  | spin => exact Or.inl ⟨h.quiet hup id Iff.rfl ⟨rfl,rfl,rfl⟩,hsame rfl⟩
  | @fetch c q _ => exact Or.inl ⟨h.fetch hup,hsame (s.queues.fetch_port c q _).2.1⟩
  | @post c q comp hlt _ =>
    obtain rfl : c = 0 := by
      by_contra hc
      exact (h.up.single.idle hc).2 hlt
    cases q with
    | admin =>
      have hport : (s.queues.post 0 .admin comp).port (0,.io) = s.io := by
        simp only [NvmeState.post,Function.update_of_ne (hadmin 0)]
        rfl
      refine Or.inl ⟨h.quiet hup id Iff.rfl ?_,hsame (congrArg Port.returned hport)⟩
      exact ⟨congrArg Port.submitted hport,congrArg Port.returned hport,congrArg Port.posted hport⟩
    | io =>
      exact Or.inl ⟨h.post hlt hlets hup,hsame ((returned_eq s.queues _ 0 .io).2.2.2 comp)⟩

/-- A call begins, or is refused. -/
theorem fill (h : s.Inv size buf addrs atomic storage) {r : BlockRequest}
    (hstage : s.queues.stage = .io) (hpending : s.pending = none) (hfits : r.sent.length ≤ 4096) :
    Inv size buf addrs atomic
      {s with dma := s.dma.fill buf r.sent,pending := some ⟨r,s.dma.storage⟩} storage := by
  obtain ⟨hpc,rfl⟩ := h.idle hpending
  refine ⟨h.up,fun hp => absurd hp (Option.some_ne_none _),fun call hcall => ?_⟩
  cases Option.some.inj hcall
  refine ⟨⟨hstage,hfits,fun hne => absurd hpc hne,.fill size buf r s.dma,fun comp hcomp => ?_⟩,rfl⟩
  exact absurd (hcomp.symm.trans (h.not_posted hpc)) (Option.some_ne_none _)

theorem put (h : s.Inv size buf addrs atomic storage) {cmd : NvmeCmd} {i : ℕ} (v : UInt8)
    (hcmd : s.executing = some cmd) (hi : i < cmd.blockCount * size) :
    Inv size buf addrs atomic {s with dma := s.dma.put size cmd i v} storage := by
  obtain ⟨hpc,hposted,hsubmitted⟩ := h.port.executes hcmd
  have hne : s.queues.pcOf .io ≠ none := fun hnone =>
    absurd (hpc.symm.trans hnone) (Option.some_ne_none _)
  refine ⟨h.up,fun hp => absurd (h.idle hp).1 hne,fun call hcall => ?_⟩
  obtain ⟨hunder,heq⟩ := h.underway call hcall
  obtain rfl := Option.some.inj (hsubmitted.symm.trans (hunder.submitted hne))
  refine ⟨⟨hunder.stage,hunder.fits,hunder.submitted,hunder.moving.put v hi,fun comp hcomp => ?_⟩,heq⟩
  exact absurd (hcomp.symm.trans (List.getElem?_eq_none hposted.le)) (Option.some_ne_none _)

theorem elsewhere (h : s.Inv size buf addrs atomic storage) (hsize : size ≤ 4096)
    {memory : ℕ → UInt8} (hmemory : ∀ i < 4096, memory (buf.toNat + i) = s.dma.memory (buf.toNat + i)) :
    Inv size buf addrs atomic {s with dma := {s.dma with memory}} storage := by
  refine ⟨h.up,h.idle,fun call hcall => ?_⟩
  obtain ⟨hunder,heq⟩ := h.underway call hcall
  refine ⟨⟨hunder.stage,hunder.fits,hunder.submitted,hunder.moving.elsewhere hmemory,
    fun comp hcomp => ?_⟩,heq⟩
  have hcompleted := hunder.completed comp hcomp
  unfold DmaState.Completed at hcompleted ⊢
  rw [BlockRequest.transferred_iff] at hcompleted ⊢
  split
  · rename_i hok
    rw [if_pos hok] at hcompleted
    exact fun i hi => (hcompleted i hi).trans (hmemory i (hi.trans_le hsize)).symm
  · rename_i hfail
    rwa [if_neg hfail] at hcompleted

theorem boot (h : (driveSystem size buf addrs atomic storage).init s) :
    s.Inv size buf addrs atomic storage := by
  obtain ⟨hqueues,hstorage,hpending,_⟩ := h
  refine ⟨hqueues ▸ .boot 1 addrs,fun _ => ⟨hqueues ▸ rfl,hstorage⟩,fun call hcall => ?_⟩
  exact absurd (hcall.symm.trans hpending) (Option.some_ne_none _)

/-- What one step adds to the calls that have returned. -/
theorem step (hsize : size ≤ 4096) (h : s.Inv size buf addrs atomic storage) {a : DriveAction}
    {s' : DriveState} (hstep : DriveStep size buf addrs atomic s a s') :
    s'.finished = s.finished ∧ s'.Inv size buf addrs atomic storage ∨
      ∃ x storage', s'.finished = s.finished ++ [x] ∧
        (blockSystem size buf atomic).step storage x storage' ∧
        s'.Inv size buf addrs atomic storage' := by
  cases hstep with
  | @reject lba data _ hpending hlong =>
    obtain ⟨_,rfl⟩ := h.idle hpending
    refine Or.inr ⟨_,s.dma.storage,rfl,⟨⟨0,fun _ => 0⟩,s.dma.memory,s.dma,?_,rfl,fun _ _ => rfl⟩,
      h.up,h.idle,fun call hcall => ?_⟩
    · simp only [DmaState.serve,DmaState.writeBlock,if_pos hlong]
      rfl
    · exact absurd (hcall.symm.trans hpending) (Option.some_ne_none _)
  | fill hstage hpending hfits => exact Or.inl ⟨rfl,h.fill hstage hpending hfits⟩
  | queue hqueue hlets =>
    obtain ⟨hinv,hsame⟩ | hmore := h.queue hsize hqueue hlets
    · exact Or.inl ⟨hsame,hinv⟩
    · exact Or.inr hmore
  | put hcmd hi => exact Or.inl ⟨rfl,h.put _ hcmd hi⟩
  | elsewhere hmemory => exact Or.inl ⟨rfl,h.elsewhere hsize hmemory⟩

end Inv

/-- The calls that have returned are a trace of calls served at once. -/
theorem finished_trace (hsize : size ≤ 4096)
    (h : (driveSystem size buf addrs atomic storage).Reachable s) :
    ∃ storage', (blockSystem size buf atomic).Trace storage s.finished storage' ∧
      s.Inv size buf addrs atomic storage' :=
  h.records (fun _ hinit => ⟨And.right (And.right (And.right hinit)),.boot hinit⟩)
    fun _ _ _ _ hinv hstep => hinv.step hsize hstep

/-! ### No call is stuck -/

variable {call : PendingCall}

/-- The call can return. -/
def Returns (size : ℕ) (buf : UInt64) (addrs : DmaAddrs) (atomic : Bool) (storage : ℕ → UInt8)
    (s : DriveState) (call : PendingCall) : Prop :=
  ∃ t result, (driveSystem size buf addrs atomic storage).Run s t ∧ t.pending = none ∧
    t.finished = s.finished ++ [(call.request,result)]

theorem Returns.head {s' : DriveState}
    (hrun : (driveSystem size buf addrs atomic storage).Run s s') (hfinished : s'.finished = s.finished)
    (h : s'.Returns size buf addrs atomic storage call) :
    s.Returns size buf addrs atomic storage call := by
  obtain ⟨t,result,hrun',hpending,hlog⟩ := h
  exact ⟨t,result,hrun.trans hrun',hpending,hfinished ▸ hlog⟩

/-- A step of the queues that returns no I/O call. -/
theorem Returns.queue {a : NvmeAction} (hstep : NvmeStep (bringUp 1 addrs) s.queues a queues)
    (hlets : s.Lets size buf atomic a) (hreturned : (queues.port (0,.io)).returned = s.io.returned)
    (h : ({s with queues} : DriveState).Returns size buf addrs atomic storage call) :
    s.Returns size buf addrs atomic storage call := by
  have hone : DriveStep size buf addrs atomic s (.queue a) (s.after buf queues) := .queue hstep hlets
  rw [after_eq hreturned] at hone
  exact .head (.single ⟨_,hone⟩) rfl h

/-- The device can move the bytes one after another. -/
theorem exists_transferred (size : ℕ) (buf : UInt64) (addrs : DmaAddrs) (atomic : Bool)
    (storage : ℕ → UInt8) {r : BlockRequest} (hcmd : s.executing = some (r.cmd buf)) (n : ℕ)
    (hn : n ≤ size) :
    ∃ dma, (driveSystem size buf addrs atomic storage).Run s {s with dma} ∧
      ∀ i < n, dma.storage (r.lba.toNat * size + i) = dma.memory (buf.toNat + i) := by
  induction n with
  | zero => exact ⟨s.dma,.refl,fun i hi => absurd hi (Nat.not_lt_zero i)⟩
  | succ n ih =>
    obtain ⟨dma,hrun,hmoved⟩ := ih (by omega)
    have hcmd' : ({s with dma} : DriveState).executing = some (r.cmd buf) := hcmd
    have hlt : n < (r.cmd buf).blockCount * size := by
      rw [BlockRequest.blockCount_cmd]
      exact hn
    cases r with
    | write lba data =>
      refine ⟨_,hrun.tail ⟨_,.put (v := dma.memory (buf.toNat + n)) hcmd' hlt⟩,fun i hi => ?_⟩
      rw [BlockRequest.cmd,DmaState.put_write]
      by_cases hlast : i = n
      · rw [hlast]
        exact Function.update_self _ _ _
      · refine (Function.update_of_ne ?_ _ _).trans (hmoved i (by omega))
        exact fun he => hlast (Nat.add_left_cancel he)
    | read lba =>
      refine ⟨_,hrun.tail ⟨_,.put (v := dma.storage (lba.toNat * size + n)) hcmd' hlt⟩,fun i hi => ?_⟩
      rw [BlockRequest.cmd,DmaState.put_read]
      by_cases hlast : i = n
      · rw [hlast]
        exact (Function.update_self (buf.toNat + n) _ dma.memory).symm
      · refine (hmoved i (by omega)).trans (Function.update_of_ne ?_ _ _).symm
        exact fun he => hlast (Nat.add_left_cancel he)

namespace Inv

theorem returns_posted (h : s.Inv size buf addrs atomic storage) (storage₀ : ℕ → UInt8)
    (hpending : s.pending = some call) (hc : s.queues.call = some (0,.io,.polling))
    (hposted : s.io.posted.length = s.io.returned.length + 1) :
    s.Returns size buf addrs atomic storage₀ call := by
  have hpoll : NvmeStep (bringUp 1 addrs) s.queues .poll (s.queues.consume (bringUp 1 addrs) 0 .io) :=
    h.up.single.returns hc hposted
  have hstep : DriveStep size buf addrs atomic s (.queue .poll)
      (s.after buf (s.queues.consume (bringUp 1 addrs) 0 .io)) := .queue hpoll trivial
  rw [after_consume hpending] at hstep
  exact ⟨_,_,.single ⟨_,hstep⟩,rfl,rfl⟩

theorem returns_transferred (h : s.Inv size buf addrs atomic storage) (storage₀ : ℕ → UInt8)
    (hpending : s.pending = some call) (hc : s.queues.call = some (0,.io,.polling))
    (hlt : s.io.posted.length < s.io.fetched.length)
    (hmoved : s.dma.Transferred size (call.request.cmd buf)) :
    s.Returns size buf addrs atomic storage₀ call := by
  have hexecuting : s.executing = some _ := List.getElem?_eq_getElem hlt
  obtain ⟨hpc,hposted,hcmd⟩ := h.port.executes hexecuting
  have hsubmitted := (h.underway call hpending).1.submitted (by rw [hpc]; exact Option.some_ne_none _)
  let comp := NvmeComp.success (PhaseRing.lap queueSize s.io.posted.length)
  have hok : comp.status >>> 1 = 0 := by
    show (NvmeComp.success _).status >>> 1 = 0
    cases PhaseRing.lap queueSize s.io.posted.length <;> decide
  have hpost : NvmeStep (bringUp 1 addrs) s.queues (.post 0 .io comp) (s.queues.post 0 .io comp) :=
    .post hlt (NvmeComp.success_phaseBit _)
  have hlets : s.Lets size buf atomic (.post 0 .io comp) := by
    intro call' cmd hcall' hcmd'
    cases Option.some.inj (hpending.symm.trans hcall')
    have heq : call.request.cmd buf = cmd := by
      rw [hexecuting] at hcmd'
      exact Option.some.inj (hsubmitted.symm.trans (hcmd.trans hcmd'))
    rw [DmaState.Completed,if_pos hok,← heq]
    exact hmoved
  have hreturned := (returned_eq s.queues (0,.io) 0 .io).2.2.2 comp
  have hinv := h.post hlt hlets (h.up.step le_rfl hpost)
  rw [after_eq hreturned] at hinv
  refine .queue hpost hlets hreturned (hinv.returns_posted storage₀ hpending hc ?_)
  simp only [io,NvmeState.post,Function.update_self,List.length_append,List.length_singleton]
  exact congrArg (· + 1) hposted

theorem run (hsize : size ≤ 4096) (h : s.Inv size buf addrs atomic storage) {storage₀ : ℕ → UInt8}
    {s' : DriveState} (hrun : (driveSystem size buf addrs atomic storage₀).Run s s') :
    ∃ storage', s'.Inv size buf addrs atomic storage' := by
  refine hrun.preserves (I := fun s => ∃ storage, s.Inv size buf addrs atomic storage)
    (fun s a t hinv hstep => ?_) ⟨storage,h⟩
  obtain ⟨storage',hinv⟩ := hinv
  obtain ⟨_,hinv'⟩ | ⟨_,storage'',_,_,hinv'⟩ := hinv.step hsize hstep
  · exact ⟨storage',hinv'⟩
  · exact ⟨storage'',hinv'⟩

theorem returns_fetched (hsize : size ≤ 4096) (h : s.Inv size buf addrs atomic storage) (storage₀ : ℕ → UInt8)
    (hpending : s.pending = some call) (hc : s.queues.call = some (0,.io,.polling))
    (hlt : s.io.posted.length < s.io.fetched.length) :
    s.Returns size buf addrs atomic storage₀ call := by
  have hexecuting : s.executing = some _ := List.getElem?_eq_getElem hlt
  obtain ⟨hpc,_,hcmd⟩ := h.port.executes hexecuting
  have hsubmitted := (h.underway call hpending).1.submitted (by rw [hpc]; exact Option.some_ne_none _)
  rw [← Option.some.inj (hsubmitted.symm.trans hcmd)] at hexecuting
  obtain ⟨dma,hrun,hmoved⟩ :=
    exists_transferred size buf addrs atomic storage₀ hexecuting size le_rfl
  obtain ⟨storage',hinv⟩ := h.run hsize hrun
  exact .head hrun rfl
    (hinv.returns_transferred storage₀ hpending hc hlt (BlockRequest.transferred_iff.mpr hmoved))

theorem returns_polling (hsize : size ≤ 4096) (h : s.Inv size buf addrs atomic storage)
    (storage₀ : ℕ → UInt8) (hpending : s.pending = some call)
    (hc : s.queues.call = some (0,.io,.polling)) : s.Returns size buf addrs atomic storage₀ call := by
  have hport := h.port
  rw [SingleInv.pcOf_call hc] at hport
  have hsubmitted := hport.submitted
  have hfetched := hport.fetched.length_le
  have hge := hport.posted_ge
  have hle := hport.posted_le
  rw [if_neg nofun] at hsubmitted
  by_cases hnew : s.io.fetched.length = s.io.returned.length
  · have hfetch : NvmeStep (bringUp 1 addrs) s.queues (.fetch 0 .io) (s.queues.fetch 0 .io) :=
      .fetch (hport.fetchable hnew)
    have hreturned := (s.queues.fetch_port 0 .io (0,.io)).2.1
    have hinv := h.fetch (h.up.step le_rfl hfetch)
    rw [after_eq hreturned] at hinv
    refine .queue hfetch trivial hreturned (hinv.returns_fetched hsize storage₀ hpending hc ?_)
    simp only [io,NvmeState.fetch,Function.update_self,List.length_append,List.length_singleton]
    exact Nat.lt_succ_of_le hle
  · by_cases hposted : s.io.posted.length = s.io.returned.length + 1
    · exact h.returns_posted storage₀ hpending hc hposted
    · exact h.returns_fetched hsize storage₀ hpending hc (by omega)

theorem returns_stored (hsize : size ≤ 4096) (h : s.Inv size buf addrs atomic storage)
    (storage₀ : ℕ → UInt8) (hpending : s.pending = some call)
    (hc : s.queues.call = some (0,.io,.stored)) : s.Returns size buf addrs atomic storage₀ call := by
  have hring : NvmeStep (bringUp 1 addrs) s.queues .ring (s.queues.ring 0 .io) := .ring hc
  have hreturned := (s.queues.ring_port 0 .io (0,.io)).2.1
  have hinv := h.ring hc (h.up.step le_rfl hring)
  rw [after_eq hreturned] at hinv
  exact .queue hring trivial hreturned (hinv.returns_polling hsize storage₀ hpending rfl)

theorem returns_filled (hsize : size ≤ 4096) (h : s.Inv size buf addrs atomic storage)
    (storage₀ : ℕ → UInt8) (hpending : s.pending = some call) (hc : s.queues.call = none) :
    s.Returns size buf addrs atomic storage₀ call := by
  have hnext : (bringUp 1 addrs).next s.queues.stage 0 .io (call.request.cmd buf) := by
    rw [(h.underway call hpending).1.stage]
    exact ⟨rfl,rfl⟩
  have hport := h.port
  rw [SingleInv.pcOf_none hc] at hport
  have hcall : NvmeStep (bringUp 1 addrs) s.queues (.call 0 .io (call.request.cmd buf))
      (s.queues.store 0 .io (call.request.cmd buf)) := .call hc hnext hport.tail_lt
  have hreturned := (returned_eq s.queues (0,.io) 0 .io).1 (call.request.cmd buf)
  have hinv := h.submit hpending hc (h.up.step le_rfl hcall)
  rw [after_eq hreturned] at hinv
  exact .queue hcall ⟨call,hpending,rfl⟩ hreturned (hinv.returns_stored hsize storage₀ hpending rfl)

/-- Wherever a block call stands, it can return. -/
theorem returns (hsize : size ≤ 4096) (h : s.Inv size buf addrs atomic storage)
    (storage₀ : ℕ → UInt8) (hpending : s.pending = some call) :
    s.Returns size buf addrs atomic storage₀ call := by
  cases hc : s.queues.call with
  | none => exact h.returns_filled hsize storage₀ hpending hc
  | some at₀ =>
    obtain ⟨c,q,pc⟩ := at₀
    obtain rfl := h.up.single.only c q pc hc
    obtain ⟨cmd,hnext⟩ := h.up.allowed 0 q pc hc
    rw [(h.underway call hpending).1.stage] at hnext
    obtain ⟨_,rfl⟩ := hnext
    cases pc with
    | stored => exact h.returns_stored hsize storage₀ hpending hc
    | polling => exact h.returns_polling hsize storage₀ hpending hc

end Inv

/-! ### The controller can be brought up -/

/-- While no block call is in progress, the queues may take any step that submits no I/O command. -/
theorem reachable_queue {a : NvmeAction}
    (h : (driveSystem size buf addrs atomic storage).Reachable s) (hpending : s.pending = none)
    (hstep : NvmeStep (bringUp 1 addrs) s.queues a queues) (ha : ∀ c cmd, a ≠ .call c .io cmd) :
    (driveSystem size buf addrs atomic storage).Reachable {s with queues} := by
  have hlets : s.Lets size buf atomic a := by
    cases a with
    | call c q cmd =>
      cases q with
      | admin => trivial
      | io => exact absurd rfl (ha c cmd)
    | post c q comp =>
      cases q with
      | admin => trivial
      | io =>
        intro call _ hcall
        exact absurd (hcall.symm.trans hpending) (Option.some_ne_none _)
    | _ => trivial
  have hafter : s.after buf queues = {s with queues} := by
    rw [after,hpending]
  have hone : DriveStep size buf addrs atomic s (.queue a) (s.after buf queues) := .queue hstep hlets
  exact .step h (hafter ▸ hone)

/-- The driver once it makes no more calls. -/
def muted (addrs : DmaAddrs) : DriverProgram BringUpStage where
  start := (bringUp 1 addrs).start
  next _ _ _ _ := False
  after := (bringUp 1 addrs).after

theorem step_of_muted {a : NvmeAction} {queues' : NvmeState BringUpStage}
    (h : NvmeStep (muted addrs) queues a queues') :
    NvmeStep (bringUp 1 addrs) queues a queues' ∧ ∀ c q cmd, a ≠ .call c q cmd := by
  cases h with
  | call _ hnext => exact absurd hnext id
  | ring hc => exact ⟨.ring hc,by simp⟩
  | found hc hlt hfound => exact ⟨.found hc hlt hfound,by simp⟩
  | spin hc hlt hne => exact ⟨.spin hc hlt hne,by simp⟩
  | fetch hf => exact ⟨.fetch hf,by simp⟩
  | post hlt hcomp => exact ⟨.post hlt hcomp,by simp⟩

theorem reachable_muted {queues' : NvmeState BringUpStage}
    (h : (driveSystem size buf addrs atomic storage).Reachable {s with queues})
    (hpending : s.pending = none) (hrun : (nvmeSystem (muted addrs)).Run queues queues') :
    (driveSystem size buf addrs atomic storage).Reachable {s with queues := queues'} := by
  induction hrun with
  | refl => exact h
  | @tail queues _ _ hstep ih =>
    obtain ⟨a,ha⟩ := hstep
    obtain ⟨hstep,hquiet⟩ := step_of_muted ha
    exact reachable_queue (s := {s with queues}) ih hpending hstep fun c cmd => hquiet c .io cmd

/-- A call that the bring-up makes can return successfully. -/
theorem reachable_admin (hsize : size ≤ 4096)
    (h : (driveSystem size buf addrs atomic storage).Reachable s) (hpending : s.pending = none)
    (hc : s.queues.call = none) {cmd : NvmeCmd} {stage : BringUpStage} (hstage : s.queues.stage = stage)
    (hnext : stage.Next 1 addrs 0 .admin cmd) :
    ∃ queues, (driveSystem size buf addrs atomic storage).Reachable {s with queues} ∧
      queues.call = none ∧ queues.stage = stage.after 1 (.ok ()) := by
  subst hstage
  obtain ⟨_,_,hinv⟩ := finished_trace hsize h
  have hport := hinv.up.single.port .admin
  rw [SingleInv.pcOf_none hc] at hport
  have hcall : NvmeStep (bringUp 1 addrs) s.queues (.call 0 .admin cmd) (s.queues.store 0 .admin cmd) :=
    .call hc hnext hport.tail_lt
  have hstored := reachable_queue h hpending hcall (by simp)
  have hsingle := (hinv.up.step le_rfl hcall).single
  obtain ⟨queues,hrun,_,hnone,_,hstage⟩ := hsingle.completes (p := muted addrs) rfl
  refine ⟨queues,?_,hnone,hstage ?_⟩
  · exact reachable_muted hstored hpending hrun
  · simp only [NvmeState.store,Function.update_self]
    exact hport.settled.2.2

/-- The controller can be brought up without a failure. -/
theorem exists_up (size : ℕ) (buf : UInt64) (addrs : DmaAddrs) (atomic : Bool) (dma : DmaState)
    (hsize : size ≤ 4096) : ∃ queues,
      (driveSystem size buf addrs atomic dma.storage).Reachable ⟨queues,dma,none,[]⟩ ∧
      queues.call = none ∧ queues.stage = .io := by
  let s : DriveState := ⟨.boot (bringUp 1 addrs),dma,none,[]⟩
  have hboot : (driveSystem size buf addrs atomic dma.storage).Reachable s := .init ⟨rfl,rfl,rfl,rfl⟩
  obtain ⟨q₁,h₁,hc₁,hstage₁⟩ := reachable_admin hsize hboot rfl rfl rfl ⟨rfl,rfl,rfl⟩
  obtain ⟨q₂,h₂,hc₂,hstage₂⟩ := reachable_admin hsize h₁ rfl hc₁ hstage₁ ⟨rfl,rfl,rfl⟩
  obtain ⟨q₃,h₃,hc₃,hstage₃⟩ := reachable_admin hsize h₂ rfl hc₂ hstage₂ ⟨rfl,rfl,rfl⟩
  exact ⟨q₃,h₃,hc₃,hstage₃⟩

end DriveState

open DriveState in
/-- From power-on, in every interleaving of the driver with a conformant device: the block calls that
have returned are a trace of calls served at once, which leaves what the namespace holds whenever
no call is in progress; and a call in progress can always return. -/
theorem block_calls_served {size : ℕ} (hsize : size ≤ 4096) {buf : UInt64} {addrs : DmaAddrs}
    {atomic : Bool} {storage : ℕ → UInt8} {s : DriveState}
    (h : (driveSystem size buf addrs atomic storage).Reachable s) :
    (∃ storage', (blockSystem size buf atomic).Trace storage s.finished storage' ∧
      (s.pending = none → s.dma.storage = storage')) ∧
    ∀ call, s.pending = some call → s.Returns size buf addrs atomic storage call := by
  obtain ⟨storage',htrace,hinv⟩ := finished_trace hsize h
  exact ⟨⟨storage',htrace,fun hpending => (hinv.idle hpending).2⟩,
    fun call hpending => hinv.returns hsize storage hpending⟩

open DriveState in
/-- A first write, on logical blocks of 512 bytes. -/
theorem block_calls_served_first : ∃ s result storage',
    (driveSystem 512 0x1000 ⟨0x2000,0x3000,0x4000⟩ false fun _ => 0).Reachable s ∧
    s.finished = [(.write 5 [1,2,3],result)] ∧
    (blockSystem 512 0x1000 false).Trace (fun _ => 0) s.finished storage' ∧
    s.dma.storage = storage' := by
  let dma : DmaState := ⟨fun _ => 0,fun _ => 0⟩
  have hsize : 512 ≤ 4096 := by decide
  obtain ⟨queues,hup,_,hstage⟩ := exists_up 512 0x1000 ⟨0x2000,0x3000,0x4000⟩ false dma hsize
  have hfits : (BlockRequest.write 5 [1,2,3]).sent.length ≤ 4096 := by decide
  have hbegin := hup.step (.fill hstage rfl hfits)
  obtain ⟨s,result,hrun,hpending,hfinished⟩ := (block_calls_served hsize hbegin).2 _ rfl
  have hs := hbegin.run hrun
  obtain ⟨⟨storage',htrace,hstorage⟩,_⟩ := block_calls_served hsize hs
  exact ⟨s,result,storage',hs,hfinished,htrace,hstorage hpending⟩

end PolymorphOS
