import PolymorphOS.PhaseRing
import PolymorphOS.RustCore
import PolymorphOS.Runs

/-! The NVMe driver's queues: `submit_admin_cmd` and `submit_io_cmd` over statics that every
controller shares, interleaved with controllers that fetch, execute and complete. -/
namespace PolymorphOS

/-- A submission queue entry. -/
structure NvmeCmd where
  opcode : UInt8
  flags : UInt8
  cid : UInt16
  nsid : UInt32
  rsvd : UInt64
  mptr : UInt64
  dptr : UInt64 × UInt64
  cdw10 : UInt32
  cdw11 : UInt32
  cdw12 : UInt32
  cdw13 : UInt32
  cdw14 : UInt32
  cdw15 : UInt32
  deriving DecidableEq

def NvmeCmd.empty : NvmeCmd := ⟨0,0,0,0,0,0,(0,0),0,0,0,0,0,0⟩

/-- A completion queue entry. -/
structure NvmeComp where
  commandSpecific : UInt32
  rsvd : UInt32
  sqHead : UInt16
  sqId : UInt16
  cid : UInt16
  status : UInt16
  deriving DecidableEq

namespace NvmeComp

def empty : NvmeComp := ⟨0,0,0,0,0,0⟩

/-- What the submitting call returns for the entry. -/
def outcome (c : NvmeComp) : Except UInt16 Unit :=
  if c.status >>> 1 = 0 then .ok () else .error c.status

def phaseBit (c : NvmeComp) : Bool := c.status &&& 1 = 1

theorem phaseBit_eq_iff (c : NvmeComp) (b : Bool) :
    c.status &&& 1 = (if b then 1 else 0) ↔ c.phaseBit = b := by
  have h : (c.status &&& 1).toNat = c.status.toNat % 2 := by
    rw [UInt16.toNat_and]
    exact Nat.and_one_is_mod _
  have hcases : c.status &&& 1 = 0 ∨ c.status &&& 1 = 1 := by
    rcases Nat.mod_two_eq_zero_or_one c.status.toNat with h' | h'
    · exact Or.inl (UInt16.toNat_inj.mp (h.trans h'))
    · exact Or.inr (UInt16.toNat_inj.mp (h.trans h'))
  unfold phaseBit
  rcases hcases with hc | hc <;> cases b <;> simp [hc]

/-- A successful completion. -/
def success (phase : Bool) : NvmeComp := {empty with status := if phase then 1 else 0}

theorem success_phaseBit (phase : Bool) : (success phase).phaseBit = phase := by
  cases phase <;> decide

theorem success_outcome (phase : Bool) : (success phase).outcome = .ok () := by
  cases phase <;> rfl

end NvmeComp

/-- `ADMIN_QUEUE_SIZE` and `IO_QUEUE_SIZE`. -/
def queueSize : ℕ := 64

inductive QueueId
  | admin | io
  deriving DecidableEq

/-- The driver's counters of one queue pair. The admin queue has no phase of its own: it
expects phase 1 throughout. -/
structure QueueCounters where
  tail : ℕ
  head : ℕ
  phase : UInt16
  deriving DecidableEq

namespace QueueCounters

def new : QueueCounters := ⟨0,0,1⟩

/-- `tail += 1`; only the I/O queue's tail wraps around. -/
def submit : QueueId → QueueCounters → QueueCounters
  | .admin,q => {q with tail := q.tail + 1}
  | .io,q => {q with tail := if q.tail + 1 = queueSize then 0 else q.tail + 1}

/-- `head += 1`; the I/O queue's phase flips when its head wraps around. -/
def consume : QueueId → QueueCounters → QueueCounters
  | .admin,q => {q with head := q.head + 1}
  | .io,q => if q.head + 1 = queueSize then {q with head := 0,phase := ~~~q.phase &&& 1}
    else {q with head := q.head + 1}

end QueueCounters

/-- One queue pair of one controller: the driver's counters, the doorbells, and what has
passed through it. The controller is known by its history: it fetches and posts at the
slots that follow the ones it fetched and posted so far. -/
structure Port where
  counters : QueueCounters
  sqDoorbell : ℕ
  cqDoorbell : ℕ
  submitted : List NvmeCmd
  fetched : List NvmeCmd
  posted : List NvmeComp
  returned : List (Except UInt16 Unit)

def Port.new : Port := ⟨.new,0,0,[],[],[],[]⟩

/-- Where a call of `submit_admin_cmd` or `submit_io_cmd` stands. -/
inductive SubmitPc
  | stored | polling
  deriving DecidableEq

/-- What the driver does with its controllers: which commands it may issue at a stage, and how
it goes on with a call's result. -/
structure DriverProgram (P : Type) where
  start : P
  next : P → ℕ → QueueId → NvmeCmd → Prop
  after : P → Except UInt16 Unit → P

/-- The statics, the controllers by number, and the call in progress. -/
structure NvmeState (P : Type) where
  stage : P
  sq : QueueId → ℕ → NvmeCmd
  cq : QueueId → ℕ → NvmeComp
  port : ℕ × QueueId → Port
  call : Option (ℕ × QueueId × SubmitPc)

inductive NvmeAction
  | call (c : ℕ) (q : QueueId) (cmd : NvmeCmd)
  | ring
  | poll
  | fetch (c : ℕ) (q : QueueId)
  | post (c : ℕ) (q : QueueId) (comp : NvmeComp)

namespace NvmeState

variable {P : Type}

def boot (p : DriverProgram P) : NvmeState P :=
  ⟨p.start,fun _ _ => .empty,fun _ _ => .empty,fun _ => .new,none⟩

/-- `SQ[tail] = cmd; tail += 1`. -/
def store (s : NvmeState P) (c : ℕ) (q : QueueId) (cmd : NvmeCmd) : NvmeState P :=
  let port := s.port (c,q)
  {s with
    sq := Function.update s.sq q (Function.update (s.sq q) port.counters.tail cmd)
    port := Function.update s.port (c,q)
      {port with counters := port.counters.submit q,submitted := port.submitted ++ [cmd]}
    call := some (c,q,.stored)}

/-- `sq_doorbell(qid, tail)`. -/
def ring (s : NvmeState P) (c : ℕ) (q : QueueId) : NvmeState P :=
  let port := s.port (c,q)
  {s with
    port := Function.update s.port (c,q) {port with sqDoorbell := port.counters.tail}
    call := some (c,q,.polling)}

/-- The entry at the head is taken, and the call returns. -/
def consume (p : DriverProgram P) (s : NvmeState P) (c : ℕ) (q : QueueId) : NvmeState P :=
  let port := s.port (c,q)
  let outcome := (s.cq q port.counters.head).outcome
  let counters := port.counters.consume q
  {s with
    stage := p.after s.stage outcome
    port := Function.update s.port (c,q)
      {port with counters,cqDoorbell := counters.head,returned := port.returned ++ [outcome]}
    call := none}

def fetch (s : NvmeState P) (c : ℕ) (q : QueueId) : NvmeState P :=
  let port := s.port (c,q)
  let cmd := s.sq q (port.fetched.length % queueSize)
  {s with port := Function.update s.port (c,q) {port with fetched := port.fetched ++ [cmd]}}

def post (s : NvmeState P) (c : ℕ) (q : QueueId) (comp : NvmeComp) : NvmeState P :=
  let port := s.port (c,q)
  {s with
    cq := Function.update s.cq q (Function.update (s.cq q) (port.posted.length % queueSize) comp)
    port := Function.update s.port (c,q) {port with posted := port.posted ++ [comp]}}

end NvmeState

/-- The steps of the driver and of conformant controllers. An index that is out of range
panics, so the driver takes no step with it. -/
inductive NvmeStep {P : Type} (p : DriverProgram P) :
    NvmeState P → NvmeAction → NvmeState P → Prop
  | call {s : NvmeState P} {c : ℕ} {q : QueueId} {cmd : NvmeCmd} : s.call = none →
      p.next s.stage c q cmd → (s.port (c,q)).counters.tail < queueSize →
      NvmeStep p s (.call c q cmd) (s.store c q cmd)
  | ring {s : NvmeState P} {c : ℕ} {q : QueueId} : s.call = some (c,q,.stored) →
      NvmeStep p s .ring (s.ring c q)
  | found {s : NvmeState P} {c : ℕ} {q : QueueId} : s.call = some (c,q,.polling) →
      (s.port (c,q)).counters.head < queueSize →
      (s.cq q (s.port (c,q)).counters.head).status &&& 1 = (s.port (c,q)).counters.phase →
      NvmeStep p s .poll (s.consume p c q)
  | spin {s : NvmeState P} {c : ℕ} {q : QueueId} : s.call = some (c,q,.polling) →
      (s.port (c,q)).counters.head < queueSize →
      (s.cq q (s.port (c,q)).counters.head).status &&& 1 ≠ (s.port (c,q)).counters.phase →
      NvmeStep p s .poll s
  /-- Up to the tail doorbell. -/
  | fetch {s : NvmeState P} {c : ℕ} {q : QueueId} :
      (s.port (c,q)).fetched.length % queueSize ≠ (s.port (c,q)).sqDoorbell →
      NvmeStep p s (.fetch c q) (s.fetch c q)
  /-- In order, with any status, the phase bit following the laps of the queue. -/
  | post {s : NvmeState P} {c : ℕ} {q : QueueId} {comp : NvmeComp} :
      (s.port (c,q)).posted.length < (s.port (c,q)).fetched.length →
      comp.phaseBit = PhaseRing.lap queueSize (s.port (c,q)).posted.length →
      NvmeStep p s (.post c q comp) (s.post c q comp)

def nvmeSystem {P : Type} (p : DriverProgram P) : Runs.System (NvmeState P) NvmeAction where
  init s := s = .boot p
  step := NvmeStep p

/-- What the `k`-th of a port's calls returned is the outcome of the `k`-th completion the
controller posted there, for the very command submitted by that call. -/
def Port.Answered (p : Port) : Prop :=
  ∀ (k : ℕ) (r : Except UInt16 Unit), p.returned[k]? = some r →
    p.fetched[k]? = p.submitted[k]? ∧ ∃ comp, p.posted[k]? = some comp ∧ r = comp.outcome

/-- The invariant of a port whose queue no other controller uses, `pc` being where its call in
progress stands. -/
structure PortInv (sq : ℕ → NvmeCmd) (cq : ℕ → NvmeComp) (pc : Option SubmitPc) (p : Port) :
    Prop where
  submitted : p.submitted.length = p.returned.length + if pc = none then 0 else 1
  fetched : p.fetched <+: p.submitted
  fetched_le : pc ≠ some .polling → p.fetched.length ≤ p.returned.length
  posted_le : p.posted.length ≤ p.fetched.length
  posted_ge : p.returned.length ≤ p.posted.length
  returned : p.returned = (p.posted.take p.returned.length).map NvmeComp.outcome
  slot : pc ≠ none → p.submitted[p.returned.length]? = some (sq (p.returned.length % queueSize))
  tail : p.counters.tail = p.submitted.length % queueSize
  head : p.counters.head = p.returned.length % queueSize
  phase : p.counters.phase = if PhaseRing.lap queueSize p.returned.length then 1 else 0
  doorbell : p.sqDoorbell =
    (p.returned.length + if pc = some .polling then 1 else 0) % queueSize
  latest : p.returned.length < p.posted.length →
    p.posted[p.returned.length]? = some (cq (p.returned.length % queueSize))
  written : PhaseRing.Written NvmeComp.phaseBit queueSize p.posted.length cq

/-- The admin queue's counters do not wrap around, so its calls have to stay few. -/
def Port.Fits (p : Port) (q : QueueId) : Prop := q = .admin → p.submitted.length < queueSize

theorem queueSize_pos : 0 < queueSize := by decide

namespace QueueCounters

variable {q : QueueId} {counters : QueueCounters} {k : ℕ}

theorem submit_tail (h : counters.tail = k % queueSize) (hk : q = .admin → k + 1 < queueSize) :
    (counters.submit q).tail = (k + 1) % queueSize := by
  cases q with
  | admin =>
    rw [Nat.mod_eq_of_lt (hk rfl),submit,h,Nat.mod_eq_of_lt ((Nat.lt_succ_self k).trans (hk rfl))]
  | io =>
    rw [← PhaseRing.next_mod queueSize_pos,← h]
    rfl

@[simp] theorem submit_head : (counters.submit q).head = counters.head := by cases q <;> rfl
@[simp] theorem submit_phase : (counters.submit q).phase = counters.phase := by cases q <;> rfl

theorem consume_io (counters : QueueCounters) :
    (counters.consume .io).head = PhaseRing.next queueSize counters.head ∧
    (counters.consume .io).phase =
      if PhaseRing.next queueSize counters.head = 0 then ~~~counters.phase &&& 1
      else counters.phase := by
  unfold consume PhaseRing.next
  by_cases h : counters.head + 1 = queueSize
  · simp [h]
  · simp [h]

@[simp] theorem consume_tail : (counters.consume q).tail = counters.tail := by
  cases q with
  | admin => rfl
  | io =>
    simp only [consume]
    split_ifs <;> rfl

/-- Taking the `k`-th entry leaves the counters where the next one is expected. -/
theorem consume_expects (hhead : counters.head = k % queueSize)
    (hphase : counters.phase = if PhaseRing.lap queueSize k then 1 else 0)
    (hk : q = .admin → k + 1 < queueSize) :
    (counters.consume q).head = (k + 1) % queueSize ∧
      (counters.consume q).phase = if PhaseRing.lap queueSize (k + 1) then 1 else 0 := by
  cases q with
  | admin =>
    have hlt := (Nat.lt_succ_self k).trans (hk rfl)
    rw [Nat.mod_eq_of_lt (hk rfl),PhaseRing.lap_of_lt (hk rfl),consume,hhead,hphase,
      Nat.mod_eq_of_lt hlt,PhaseRing.lap_of_lt hlt]
    exact ⟨rfl,rfl⟩
  | io =>
    obtain ⟨hh,hp⟩ := counters.consume_io
    rw [hh,hp,PhaseRing.lap_succ queueSize_pos,← PhaseRing.next_mod queueSize_pos,hhead,hphase]
    refine ⟨rfl,?_⟩
    cases PhaseRing.lap queueSize k <;> split_ifs <;> first | rfl | contradiction

end QueueCounters

namespace PortInv

variable {q : QueueId} {sq : ℕ → NvmeCmd} {cq : ℕ → NvmeComp} {pc : Option SubmitPc} {p : Port}

theorem new (h : ∀ i, cq i = .empty) : PortInv sq cq none .new where
  submitted := rfl
  fetched := List.prefix_rfl
  fetched_le _ := le_rfl
  posted_le := le_rfl
  posted_ge := le_rfl
  returned := rfl
  slot hn := absurd rfl hn
  tail := rfl
  head := rfl
  phase := rfl
  doorbell := rfl
  latest hlt := absurd hlt (lt_irrefl 0)
  written := .zero queueSize_pos fun i _ => by rw [h i]; rfl

theorem answered (h : PortInv sq cq pc p) : p.Answered := by
  intro k r hk
  rw [h.returned,List.getElem?_map,Option.map_eq_some_iff] at hk
  obtain ⟨comp,hcomp,rfl⟩ := hk
  rw [List.getElem?_take] at hcomp
  split at hcomp
  · have hlt := (List.getElem?_eq_some_iff.mp hcomp).1.trans_le h.posted_le
    refine ⟨?_,comp,hcomp,rfl⟩
    rw [List.prefix_iff_getElem?.mp h.fetched k hlt]
    exact List.getElem?_eq_getElem hlt
  · cases hcomp

/-- No call is in progress: the controller has done all it was told. -/
theorem settled (h : PortInv sq cq none p) :
    p.submitted.length = p.returned.length ∧ p.fetched = p.submitted ∧
      p.posted.length = p.returned.length := by
  have hsub := h.submitted
  have hle := h.fetched_le nofun
  have hge := h.posted_ge
  have hle' := h.posted_le
  rw [if_pos rfl,Nat.add_zero] at hsub
  exact ⟨hsub,h.fetched.eq_of_length (by omega),by omega⟩

theorem call (h : PortInv sq cq none p) (hq : q = .admin → p.submitted.length + 1 < queueSize)
    (cmd : NvmeCmd) :
    PortInv (Function.update sq p.counters.tail cmd) cq (some .stored)
      {p with counters := p.counters.submit q,submitted := p.submitted ++ [cmd]} := by
  obtain ⟨hsub,hfetched,hposted⟩ := h.settled
  refine ⟨by simp [hsub],hfetched ▸ List.prefix_append _ _,fun _ => ?_,h.posted_le,h.posted_ge,
    h.returned,fun _ => ?_,?_,?_,?_,h.doorbell,h.latest,h.written⟩
  · rw [hfetched,hsub]
  · rw [← hsub,List.getElem?_concat_length,h.tail,Function.update_self]
  · rw [List.length_append,List.length_singleton]
    exact QueueCounters.submit_tail h.tail hq
  · rw [QueueCounters.submit_head]
    exact h.head
  · rw [QueueCounters.submit_phase]
    exact h.phase

theorem ring (h : PortInv sq cq (some .stored) p) :
    PortInv sq cq (some .polling) {p with sqDoorbell := p.counters.tail} := by
  refine ⟨h.submitted,h.fetched,fun hn => absurd rfl hn,h.posted_le,h.posted_ge,h.returned,
    fun _ => h.slot nofun,h.tail,h.head,h.phase,?_,h.latest,h.written⟩
  show p.counters.tail = _
  rw [h.tail,h.submitted]
  rfl

/-- The new entry is the one the controller has posted for this very call. -/
theorem found (h : PortInv sq cq (some .polling) p)
    (hfound : (cq p.counters.head).status &&& 1 = p.counters.phase) :
    p.posted.length = p.returned.length + 1 := by
  have hsub := h.submitted
  have hfetched := h.fetched.length_le
  have hle := h.posted_le
  have hge := h.posted_ge
  rw [if_neg nofun] at hsub
  by_contra hne
  have hk : p.posted.length = p.returned.length := by omega
  rw [h.phase,NvmeComp.phaseBit_eq_iff,h.head,← hk,h.written.stale queueSize_pos] at hfound
  exact Bool.not_ne_self _ hfound

theorem consume (h : PortInv sq cq (some .polling) p) (hq : p.Fits q)
    (hfound : (cq p.counters.head).status &&& 1 = p.counters.phase) :
    PortInv sq cq none {p with
      counters := p.counters.consume q
      cqDoorbell := (p.counters.consume q).head
      returned := p.returned ++ [(cq p.counters.head).outcome]} := by
  have hposted := h.found hfound
  have hsub := h.submitted
  have hle := h.posted_le
  have hfetched := h.fetched.length_le
  rw [if_neg nofun] at hsub
  obtain ⟨hhead,hphase⟩ := QueueCounters.consume_expects (q := q) h.head h.phase fun hadmin => by
    have := hq hadmin
    omega
  have hlen : (p.returned ++ [(cq p.counters.head).outcome]).length = p.returned.length + 1 := by
    rw [List.length_append,List.length_singleton]
  refine ⟨?_,h.fetched,fun _ => ?_,hle,?_,?_,fun hn => absurd rfl hn,?_,?_,?_,?_,?_,h.written⟩
  · rw [hlen,hsub]
    rfl
  · show p.fetched.length ≤ (p.returned ++ [(cq p.counters.head).outcome]).length
    omega
  · rw [hlen,hposted]
  · rw [hlen,List.take_add_one,h.latest (by omega),List.map_append,← h.returned,← h.head]
    rfl
  · rw [QueueCounters.consume_tail]
    exact h.tail
  · rw [hlen]
    exact hhead
  · rw [hlen]
    exact hphase
  · rw [hlen]
    exact h.doorbell
  · rw [hlen,hposted]
    exact fun hlt => absurd hlt (lt_irrefl _)

theorem fetch (h : PortInv sq cq pc p)
    (hfetch : p.fetched.length % queueSize ≠ p.sqDoorbell) :
    p.fetched.length = p.returned.length ∧ pc = some .polling ∧ PortInv sq cq pc
      {p with fetched := p.fetched ++ [sq (p.fetched.length % queueSize)]} := by
  have hsub := h.submitted
  have hle := h.posted_le
  have hge := h.posted_ge
  have hprefix := h.fetched.length_le
  have hpolling : pc = some .polling := by
    by_contra hne
    have := h.fetched_le hne
    rw [h.doorbell,if_neg hne,Nat.add_zero,show p.fetched.length = p.returned.length by omega] at hfetch
    exact hfetch rfl
  subst hpolling
  rw [if_neg nofun] at hsub
  have hk : p.fetched.length = p.returned.length := by
    by_contra hne
    rw [h.doorbell,if_pos rfl,show p.fetched.length = p.returned.length + 1 by omega] at hfetch
    exact hfetch rfl
  refine ⟨hk,rfl,h.submitted,?_,fun hn => absurd rfl hn,hle.trans (by simp),hge,h.returned,h.slot,
    h.tail,h.head,h.phase,h.doorbell,h.latest,h.written⟩
  have hslot := h.slot nofun
  rw [← hk] at hslot
  obtain ⟨hlt,hget⟩ := List.getElem?_eq_some_iff.mp hslot
  rw [← hget,List.prefix_iff_eq_take,List.length_append,List.length_singleton,
    ← List.take_concat_get' _ _ hlt,← List.prefix_iff_eq_take.mp h.fetched]

theorem post (h : PortInv sq cq pc p) {comp : NvmeComp} (hlt : p.posted.length < p.fetched.length)
    (hcomp : comp.phaseBit = PhaseRing.lap queueSize p.posted.length) :
    PortInv sq (Function.update cq (p.posted.length % queueSize) comp) pc
      {p with posted := p.posted ++ [comp]} := by
  have hsub := h.submitted
  have hge := h.posted_ge
  have hprefix := h.fetched.length_le
  have hk : p.posted.length = p.returned.length := by
    split at hsub <;> omega
  refine ⟨h.submitted,h.fetched,h.fetched_le,by simpa using hlt,by simp [hk],?_,h.slot,h.tail,h.head,
    h.phase,h.doorbell,fun _ => ?_,?_⟩
  · rw [List.take_append_of_le_length hge]
    exact h.returned
  · rw [hk,Function.update_self,← hk,List.getElem?_concat_length]
  · rw [List.length_append,List.length_singleton]
    exact h.written.write queueSize_pos hcomp

/-- Once the completion is posted, the next look at the head finds it. -/
theorem ready (h : PortInv sq cq (some .polling) p)
    (hposted : p.posted.length = p.returned.length + 1) :
    (cq p.counters.head).status &&& 1 = p.counters.phase := by
  rw [h.phase,NvmeComp.phaseBit_eq_iff,h.head]
  exact PhaseRing.Written.fresh queueSize_pos (hposted ▸ h.written)

/-- The doorbell shows the controller a command it has not fetched. -/
theorem fetchable (h : PortInv sq cq (some .polling) p)
    (hk : p.fetched.length = p.returned.length) : p.fetched.length % queueSize ≠ p.sqDoorbell := by
  rw [h.doorbell,hk,if_pos rfl]
  unfold queueSize
  omega

theorem tail_lt (h : PortInv sq cq pc p) : p.counters.tail < queueSize := by
  rw [h.tail]
  exact Nat.mod_lt _ queueSize_pos

theorem head_lt (h : PortInv sq cq pc p) : p.counters.head < queueSize := by
  rw [h.head]
  exact Nat.mod_lt _ queueSize_pos

end PortInv

/-- Where the call in progress stands if it is one on the queue `q`. -/
def NvmeState.pcOf {P : Type} (s : NvmeState P) (q : QueueId) : Option SubmitPc :=
  s.call.bind fun call => if call.2.1 = q then some call.2.2 else none

/-- The invariant of a driver that has used no controller but the first. -/
structure SingleInv {P : Type} (s : NvmeState P) : Prop where
  only : ∀ c q pc, s.call = some (c,q,pc) → c = 0
  port : ∀ q, PortInv (s.sq q) (s.cq q) (s.pcOf q) (s.port (0,q))
  fits : (s.port (0,.admin)).Fits .admin
  others : ∀ c q, c ≠ 0 → s.port (c,q) = .new

namespace SingleInv

variable {P : Type} {p : DriverProgram P} {s t : NvmeState P}

theorem boot (p : DriverProgram P) : SingleInv (.boot p) where
  only _ _ _ h := nomatch h
  port _ := .new fun _ => rfl
  fits _ := queueSize_pos
  others _ _ _ := rfl

theorem fits_all (h : SingleInv s) (q : QueueId) : (s.port (0,q)).Fits q := by
  rintro rfl
  exact h.fits rfl

theorem pcOf_call {c : ℕ} {q : QueueId} {pc : SubmitPc} (hc : s.call = some (c,q,pc)) :
    s.pcOf q = some pc := by
  simp [NvmeState.pcOf,hc]

theorem pcOf_other {c : ℕ} {q r : QueueId} {pc : SubmitPc} (hc : s.call = some (c,q,pc))
    (hr : r ≠ q) : s.pcOf r = none := by
  simp [NvmeState.pcOf,hc,hr.symm]

theorem pcOf_none {q : QueueId} (hc : s.call = none) : s.pcOf q = none := by
  simp [NvmeState.pcOf,hc]

/-- A step on the queue `q` of the first controller leaves the other queue alone. -/
theorem update (h : SingleInv s) {q : QueueId}
    (honly : ∀ c r pc, t.call = some (c,r,pc) → c = 0)
    (hsq : ∀ r, r ≠ q → t.sq r = s.sq r) (hcq : ∀ r, r ≠ q → t.cq r = s.cq r)
    (hpc : ∀ r, r ≠ q → t.pcOf r = s.pcOf r) (hport : ∀ x, x ≠ (0,q) → t.port x = s.port x)
    (hinv : PortInv (t.sq q) (t.cq q) (t.pcOf q) (t.port (0,q)))
    (hfits : (t.port (0,q)).Fits q) : SingleInv t where
  only := honly
  port r := by
    by_cases hr : r = q
    · exact hr ▸ hinv
    · have hx : ((0,r) : ℕ × QueueId) ≠ (0,q) := fun he => hr (Prod.mk.inj he).2
      rw [hsq r hr,hcq r hr,hpc r hr,hport _ hx]
      exact h.port r
  fits := by
    by_cases hr : .admin = q
    · subst hr
      exact hfits
    · rw [hport _ fun he => hr (Prod.mk.inj he).2]
      exact h.fits
  others c r hc := by
    rw [hport _ fun he => hc (Prod.mk.inj he).1]
    exact h.others c r hc

theorem call (h : SingleInv s) {q : QueueId} (cmd : NvmeCmd) (hc : s.call = none)
    (hq : q = .admin → (s.port (0,q)).submitted.length + 1 < queueSize) :
    SingleInv (s.store 0 q cmd) := by
  have hinv := h.port q
  rw [pcOf_none hc] at hinv
  refine h.update (q := q) (fun c r pc he => ?_) (fun r hr => Function.update_of_ne hr _ _)
    (fun _ _ => rfl) (fun r hr => ?_) (fun x hx => Function.update_of_ne hx _ _) ?_ fun hadmin => ?_
  · cases he
    rfl
  · rw [pcOf_none hc]
    exact pcOf_other (s := s.store 0 q cmd) rfl hr
  · rw [pcOf_call (s := s.store 0 q cmd) rfl]
    simpa [NvmeState.store] using hinv.call hq cmd
  · simpa [NvmeState.store] using hq hadmin

theorem ring (h : SingleInv s) {q : QueueId} (hc : s.call = some (0,q,.stored)) :
    SingleInv (s.ring 0 q) := by
  have hinv := h.port q
  rw [pcOf_call hc] at hinv
  refine h.update (q := q) (fun c r pc he => ?_) (fun _ _ => rfl) (fun _ _ => rfl) (fun r hr => ?_)
    (fun x hx => Function.update_of_ne hx _ _) ?_ ?_
  · cases he
    rfl
  · rw [pcOf_other hc hr]
    exact pcOf_other (s := s.ring 0 q) rfl hr
  · rw [pcOf_call (s := s.ring 0 q) rfl]
    simpa [NvmeState.ring] using hinv.ring
  · simpa [NvmeState.ring,Port.Fits] using h.fits_all q

theorem consume (h : SingleInv s) {q : QueueId} (hc : s.call = some (0,q,.polling))
    (hfound : (s.cq q (s.port (0,q)).counters.head).status &&& 1 = (s.port (0,q)).counters.phase) :
    SingleInv (s.consume p 0 q) := by
  have hinv := h.port q
  rw [pcOf_call hc] at hinv
  refine h.update (q := q) (fun c r pc he => nomatch he) (fun _ _ => rfl) (fun _ _ => rfl)
    (fun r hr => ?_) (fun x hx => Function.update_of_ne hx _ _) ?_ ?_
  · rw [pcOf_other hc hr]
    exact pcOf_none (s := s.consume p 0 q) rfl
  · rw [pcOf_none (s := s.consume p 0 q) rfl]
    simpa [NvmeState.consume] using hinv.consume (h.fits_all q) hfound
  · simpa [NvmeState.consume,Port.Fits] using h.fits_all q

/-- A controller that was never used has nothing to fetch and nothing to post. -/
theorem idle (h : SingleInv s) {c : ℕ} {q : QueueId} (hc : c ≠ 0) :
    ¬((s.port (c,q)).fetched.length % queueSize ≠ (s.port (c,q)).sqDoorbell) ∧
      ¬(s.port (c,q)).posted.length < (s.port (c,q)).fetched.length := by
  rw [h.others c q hc]
  exact ⟨fun hne => hne rfl,lt_irrefl 0⟩

theorem fetch (h : SingleInv s) {q : QueueId}
    (hf : (s.port (0,q)).fetched.length % queueSize ≠ (s.port (0,q)).sqDoorbell) :
    SingleInv (s.fetch 0 q) := by
  refine h.update (q := q) h.only (fun _ _ => rfl) (fun _ _ => rfl) (fun _ _ => rfl)
    (fun x hx => Function.update_of_ne hx _ _) ?_ ?_
  · simpa [NvmeState.fetch,NvmeState.pcOf] using ((h.port q).fetch hf).2.2
  · simpa [NvmeState.fetch,Port.Fits] using h.fits_all q

theorem post (h : SingleInv s) {q : QueueId} {comp : NvmeComp}
    (hlt : (s.port (0,q)).posted.length < (s.port (0,q)).fetched.length)
    (hcomp : comp.phaseBit = PhaseRing.lap queueSize (s.port (0,q)).posted.length) :
    SingleInv (s.post 0 q comp) := by
  refine h.update (q := q) h.only (fun _ _ => rfl) (fun r hr => Function.update_of_ne hr _ _)
    (fun _ _ => rfl) (fun x hx => Function.update_of_ne hx _ _) ?_ ?_
  · simpa [NvmeState.post,NvmeState.pcOf] using (h.port q).post hlt hcomp
  · simpa [NvmeState.post,Port.Fits] using h.fits_all q

/-- What one step keeps, as long as the driver turns to no second controller and does not
fill the admin queue. -/
theorem step (h : SingleInv s) {a : NvmeAction} (hstep : NvmeStep p s a t)
    (hnext : ∀ c q cmd, s.call = none → p.next s.stage c q cmd → c = 0 ∧
      (q = .admin → (s.port (0,q)).submitted.length + 1 < queueSize)) : SingleInv t := by
  cases hstep with
  | call hc hcmd _ =>
    obtain ⟨rfl,hq⟩ := hnext _ _ _ hc hcmd
    exact h.call _ hc hq
  | ring hc =>
    cases h.only _ _ _ hc
    exact h.ring hc
  | found hc _ hfound =>
    cases h.only _ _ _ hc
    exact h.consume hc hfound
  | spin => exact h
  | @fetch c q hf =>
    by_cases hc : c = 0
    · subst hc
      exact h.fetch hf
    · exact absurd hf (h.idle hc).1
  | @post c q comp hlt hcomp =>
    by_cases hc : c = 0
    · subst hc
      exact h.post hlt hcomp
    · exact absurd hlt (h.idle hc).2

/-- The completion is there: the call returns its outcome. -/
theorem returns (h : SingleInv s) {q : QueueId} (hc : s.call = some (0,q,.polling))
    (hposted : (s.port (0,q)).posted.length = (s.port (0,q)).returned.length + 1) :
    NvmeStep p s .poll (s.consume p 0 q) := by
  have hinv := h.port q
  rw [pcOf_call hc] at hinv
  exact .found hc hinv.head_lt (hinv.ready hposted)

/-- What a call in progress on the queue `q` can come to: it returns, successfully if it had
not been completed before. -/
def Completes (p : DriverProgram P) (s : NvmeState P) (q : QueueId) : Prop :=
  ∃ t, (nvmeSystem p).Run s t ∧ SingleInv t ∧ t.call = none ∧
    (t.port (0,q)).submitted = (s.port (0,q)).submitted ∧
    ((s.port (0,q)).posted.length = (s.port (0,q)).returned.length → t.stage = p.after s.stage (.ok ()))

theorem completes_posted (h : SingleInv s) {q : QueueId} (hc : s.call = some (0,q,.polling))
    (hposted : (s.port (0,q)).posted.length = (s.port (0,q)).returned.length + 1) :
    ∃ t, (nvmeSystem p).Run s t ∧ SingleInv t ∧ t.call = none ∧
      (t.port (0,q)).submitted = (s.port (0,q)).submitted ∧
      t.stage = p.after s.stage (s.cq q (s.port (0,q)).counters.head).outcome := by
  have hinv := h.port q
  rw [pcOf_call hc] at hinv
  refine ⟨s.consume p 0 q,.single ⟨.poll,h.returns hc hposted⟩,h.consume hc (hinv.ready hposted),
    rfl,?_,rfl⟩
  simp [NvmeState.consume]

theorem completes_fetched (h : SingleInv s) {q : QueueId} (hc : s.call = some (0,q,.polling))
    (hfetched : (s.port (0,q)).fetched.length = (s.port (0,q)).returned.length + 1) :
    Completes p s q := by
  have hinv := h.port q
  have hge := hinv.posted_ge
  have hle := hinv.posted_le
  by_cases hposted : (s.port (0,q)).posted.length = (s.port (0,q)).returned.length + 1
  · obtain ⟨t,hrun,ht,hcall,hsub,-⟩ := h.completes_posted (p := p) hc hposted
    exact ⟨t,hrun,ht,hcall,hsub,fun he => absurd he (by omega)⟩
  · let comp := NvmeComp.success (PhaseRing.lap queueSize (s.port (0,q)).posted.length)
    have hlt : (s.port (0,q)).posted.length < (s.port (0,q)).fetched.length := by omega
    have hcomp := NvmeComp.success_phaseBit (PhaseRing.lap queueSize (s.port (0,q)).posted.length)
    obtain ⟨t,hrun,ht,hcall,hsub,hstage⟩ := (h.post hlt hcomp).completes_posted (p := p) hc (by
      simp only [NvmeState.post,Function.update_self,List.length_append,List.length_singleton]
      omega)
    refine ⟨t,.head ⟨_,.post hlt hcomp⟩ hrun,ht,hcall,?_,fun he => ?_⟩
    · simpa [NvmeState.post] using hsub
    · rw [hstage]
      simp only [NvmeState.post,Function.update_self,hinv.head,he,NvmeComp.success_outcome]

/-- A call that has rung the doorbell can return. -/
theorem completes_polling (h : SingleInv s) {q : QueueId} (hc : s.call = some (0,q,.polling)) :
    Completes p s q := by
  have hinv := h.port q
  rw [pcOf_call hc] at hinv
  by_cases hfetched : (s.port (0,q)).fetched.length = (s.port (0,q)).returned.length
  · have hf := hinv.fetchable hfetched
    obtain ⟨t,hrun,ht,hcall,hsub,hstage⟩ := (h.fetch hf).completes_fetched (p := p) hc (by
      simp [NvmeState.fetch,hfetched])
    refine ⟨t,.head ⟨_,.fetch hf⟩ hrun,ht,hcall,?_,fun he => hstage ?_⟩
    · simpa [NvmeState.fetch] using hsub
    · simpa [NvmeState.fetch] using he
  · have hsub := hinv.submitted
    have hlen := hinv.fetched.length_le
    have hge := hinv.posted_ge
    have hle := hinv.posted_le
    rw [if_neg nofun] at hsub
    exact h.completes_fetched hc (by omega)

/-- A call in progress can return: the protocol is never stuck. -/
theorem completes (h : SingleInv s) {q : QueueId} {pc : SubmitPc} (hc : s.call = some (0,q,pc)) :
    Completes p s q := by
  cases pc with
  | polling => exact h.completes_polling hc
  | stored =>
    obtain ⟨t,hrun,ht,hcall,hsub,hstage⟩ := (h.ring hc).completes_polling (p := p) rfl
    refine ⟨t,.head ⟨.ring,.ring hc⟩ hrun,ht,hcall,?_,fun he => hstage ?_⟩
    · simpa [NvmeState.ring] using hsub
    · simpa [NvmeState.ring] using he

end SingleInv

/-- A driver that calls `submit_io_cmd` on its one controller, with any commands. -/
def ioProgram : DriverProgram Unit where
  start := ()
  next _ c q _ := c = 0 ∧ q = .io
  after _ _ := ()

/-- What holds of the I/O queue after any number of calls: each got the status of its own
completion, the controller fetched the commands in order and once each, no index leaves the
queue, between two calls the counters follow the number of calls, and no call is stuck. -/
structure IoProtocol (s : NvmeState Unit) : Prop where
  answered : (s.port (0,.io)).Answered
  fetched : (s.port (0,.io)).fetched <+: (s.port (0,.io)).submitted
  tail_lt : (s.port (0,.io)).counters.tail < queueSize
  head_lt : (s.port (0,.io)).counters.head < queueSize
  between : s.call = none →
    (s.port (0,.io)).returned.length = (s.port (0,.io)).submitted.length ∧
    (s.port (0,.io)).fetched = (s.port (0,.io)).submitted ∧
    (s.port (0,.io)).counters =
      ⟨(s.port (0,.io)).returned.length % 64,(s.port (0,.io)).returned.length % 64,
        UInt16.ofNat (1 - (s.port (0,.io)).returned.length / 64 % 2)⟩
  completes : s.call ≠ none → ∃ t, (nvmeSystem ioProgram).Run s t ∧ t.call = none ∧
    (t.port (0,.io)).submitted = (s.port (0,.io)).submitted

theorem lap_phase (k : ℕ) :
    (if PhaseRing.lap queueSize k then 1 else 0 : UInt16) = UInt16.ofNat (1 - k / 64 % 2) := by
  unfold PhaseRing.lap queueSize
  rcases Nat.mod_two_eq_zero_or_one (k / 64) with h | h <;> simp [h]

/-- The program calls on its I/O queue alone. -/
theorem ioProgram_step {s t : NvmeState Unit} {a : NvmeAction}
    (h : ∀ c q pc, s.call = some (c,q,pc) → q = .io) (hstep : NvmeStep ioProgram s a t) :
    ∀ c q pc, t.call = some (c,q,pc) → q = .io := by
  intro c q pc hc
  cases hstep with
  | call _ hcmd _ =>
    cases hc
    exact hcmd.2
  | ring hc' =>
    cases hc
    exact h _ _ _ hc'
  | found => cases hc
  | _ => exact h c q pc hc

theorem ioProgram_protocol {s : NvmeState Unit} (h : (nvmeSystem ioProgram).Reachable s) :
    IoProtocol s := by
  obtain ⟨hinv,hio⟩ : SingleInv s ∧ ∀ c q pc, s.call = some (c,q,pc) → q = .io := by
    refine h.invariant (I := fun s => SingleInv s ∧ ∀ c q pc, s.call = some (c,q,pc) → q = .io)
      (fun s hs => hs ▸ ⟨.boot _,nofun⟩) fun s a t hs hstep => ?_
    refine ⟨hs.1.step (p := ioProgram) hstep fun c q _ _ hcmd => ?_,ioProgram_step hs.2 hstep⟩
    obtain ⟨rfl,rfl⟩ := hcmd
    exact ⟨rfl,nofun⟩
  have hport := hinv.port .io
  refine ⟨hport.answered,hport.fetched,hport.tail_lt,hport.head_lt,fun hc => ?_,fun hc => ?_⟩
  · rw [SingleInv.pcOf_none hc] at hport
    obtain ⟨hsub,hfetched,-⟩ := hport.settled
    refine ⟨hsub.symm,hfetched,?_⟩
    rw [← lap_phase,← hport.phase]
    have htail := hport.tail
    have hhead := hport.head
    rw [hsub] at htail
    exact congrArg₂ (QueueCounters.mk · · _) htail hhead
  · obtain ⟨⟨c,q,pc⟩,hcall⟩ := Option.ne_none_iff_exists'.mp hc
    obtain rfl := hio c q pc hcall
    obtain rfl := hinv.only c .io pc hcall
    obtain ⟨t,hrun,-,hnone,hsub,-⟩ := hinv.completes (p := ioProgram) hcall
    exact ⟨t,hrun,hnone,hsub⟩

/-- The first command, on its way to the controller. -/
theorem ioProgram_first : ∃ s, (nvmeSystem ioProgram).Reachable s ∧ s.call ≠ none ∧ IoProtocol s := by
  have hcall : NvmeStep ioProgram (.boot ioProgram) (.call 0 .io .empty)
      ((NvmeState.boot ioProgram).store 0 .io .empty) := .call rfl ⟨rfl,rfl⟩ queueSize_pos
  exact ⟨_,.step (.init rfl) hcall,nofun,ioProgram_protocol (.step (.init rfl) hcall)⟩

end PolymorphOS
