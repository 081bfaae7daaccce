import PolymorphOS.NvmeQueues

/-! The PCI scan brings up one NVMe controller after another over the same static queues,
each with fresh counters; then the last one serves the file system. -/
namespace PolymorphOS

/-- The physical addresses the driver hands out. -/
structure DmaAddrs where
  identifyBuf : UInt64
  ioCq : UInt64
  ioSq : UInt64

/-- Queue size less one in the upper half, queue number 1 in the lower. -/
def ioQueueDword : UInt32 := (UInt32.ofNat queueSize - 1) <<< 16 ||| 1

/-- The command of `identify_controller`. -/
def identifyCmd (addrs : DmaAddrs) : NvmeCmd :=
  {NvmeCmd.empty with opcode := 0x06,cdw10 := 1,dptr := (addrs.identifyBuf,0)}

/-- `cmd_cq` of `setup_io_queues`. -/
def createCqCmd (addrs : DmaAddrs) : NvmeCmd :=
  {NvmeCmd.empty with opcode := 0x05,dptr := (addrs.ioCq,0),cdw10 := ioQueueDword,cdw11 := 1}

/-- `cmd_sq` of `setup_io_queues`. -/
def createSqCmd (addrs : DmaAddrs) : NvmeCmd :=
  {NvmeCmd.empty with
    opcode := 0x01,dptr := (addrs.ioSq,0),cdw10 := ioQueueDword,cdw11 := (1 : UInt32) <<< 16 ||| 1}

/-- Where `check_device` stands with the controller `c`; `io` is after the scan. -/
inductive BringUpStage
  | identify (c : ℕ)
  | createCq (c : ℕ)
  | createSq (c : ℕ)
  | io
  | panicked
  deriving DecidableEq

namespace BringUpStage

/-- The call to be made: `identify_controller`, the two of `setup_io_queues`, and after the
scan any I/O command through `NVME_DRIVE`, the controller stored there last. -/
def Next (n : ℕ) (addrs : DmaAddrs) : BringUpStage → ℕ → QueueId → NvmeCmd → Prop
  | .identify c,c',q,cmd => c' = c ∧ q = .admin ∧ cmd = identifyCmd addrs
  | .createCq c,c',q,cmd => c' = c ∧ q = .admin ∧ cmd = createCqCmd addrs
  | .createSq c,c',q,cmd => c' = c ∧ q = .admin ∧ cmd = createSqCmd addrs
  | .io,c',q,_ => c' + 1 = n ∧ q = .io
  | .panicked,_,_,_ => False

/-- A failed `identify` is reported and passed over; the other two are expected to succeed. -/
def after (n : ℕ) : BringUpStage → Except UInt16 Unit → BringUpStage
  | .identify c,_ => .createCq c
  | .createCq c,.ok _ => .createSq c
  | .createCq _,.error _ => .panicked
  | .createSq c,.ok _ => if c + 1 < n then .identify (c + 1) else .io
  | .createSq _,.error _ => .panicked
  | .io,_ => .io
  | .panicked,_ => .panicked

end BringUpStage

/-- The scan finds `n` controllers. -/
def bringUp (n : ℕ) (addrs : DmaAddrs) : DriverProgram BringUpStage where
  start := if 0 < n then .identify 0 else .io
  next := BringUpStage.Next n addrs
  after := BringUpStage.after n

section
variable {P : Type} {p : DriverProgram P} {s t : NvmeState P}

/-- A call in progress is one the program makes at its stage. -/
def CallAllowed (p : DriverProgram P) (s : NvmeState P) : Prop :=
  ∀ c q pc, s.call = some (c,q,pc) → ∃ cmd, p.next s.stage c q cmd

theorem CallAllowed.step {a : NvmeAction} (h : CallAllowed p s) (hstep : NvmeStep p s a t) :
    CallAllowed p t := by
  intro c q pc hc
  cases hstep with
  | call _ hcmd _ =>
    cases hc
    exact ⟨_,hcmd⟩
  | ring hc' =>
    cases hc
    exact h _ _ _ hc'
  | found => cases hc
  | _ => exact h c q pc hc

/-- A call on the first controller can be made and return successfully. -/
theorem SingleInv.callOk (h : SingleInv s) (hs : (nvmeSystem p).Reachable s) (q : QueueId)
    (cmd : NvmeCmd) (hc : s.call = none) (hcmd : p.next s.stage 0 q cmd)
    (hq : q = .admin → (s.port (0,q)).submitted.length + 1 < queueSize) :
    ∃ t, (nvmeSystem p).Reachable t ∧ SingleInv t ∧ t.call = none ∧
      t.stage = p.after s.stage (.ok ()) ∧
      (t.port (0,q)).submitted.length = (s.port (0,q)).submitted.length + 1 := by
  have hport := h.port q
  rw [SingleInv.pcOf_none hc] at hport
  have hstep : NvmeStep p s (.call 0 q cmd) (s.store 0 q cmd) := .call hc hcmd hport.tail_lt
  obtain ⟨-,-,hposted⟩ := hport.settled
  obtain ⟨t,hrun,ht,hcall,hsub,hstage⟩ :=
    (h.call cmd hc hq).completes (p := p) (s := s.store 0 q cmd) (q := q) rfl
  refine ⟨t,(Runs.System.Reachable.step hs hstep).run hrun,ht,hcall,hstage ?_,?_⟩
  · simpa [NvmeState.store] using hposted
  · simp [hsub,NvmeState.store]

end

section
variable {n : ℕ} {addrs : DmaAddrs} {s t : NvmeState BringUpStage}

/-- The admin calls that have returned when the first controller's bring-up stands at a stage. -/
def BringUpStage.done : BringUpStage → ℕ
  | .identify _ => 0
  | .createCq _ => 1
  | .createSq _ => 2
  | .io => 3
  | .panicked => 3

/-- The stage belongs to the first controller. -/
def BringUpStage.First : BringUpStage → Prop
  | .identify c => c = 0
  | .createCq c => c = 0
  | .createSq c => c = 0
  | _ => True

/-- With one controller at most, the invariant of the bring-up and of all that follows. -/
structure BringUpInv (n : ℕ) (addrs : DmaAddrs) (s : NvmeState BringUpStage) : Prop where
  single : SingleInv s
  allowed : CallAllowed (bringUp n addrs) s
  first : s.stage.First
  done : (s.port (0,.admin)).returned.length ≤ s.stage.done

theorem BringUpInv.boot (n : ℕ) (addrs : DmaAddrs) : BringUpInv n addrs (.boot (bringUp n addrs)) where
  single := .boot _
  allowed _ _ _ h := nomatch h
  first := by
    show (if 0 < n then BringUpStage.identify 0 else .io).First
    split
    · rfl
    · trivial
  done := Nat.zero_le _

theorem BringUpStage.next_first {stage : BringUpStage} (hn : n ≤ 1) (hf : stage.First) {c : ℕ}
    {q : QueueId} {cmd : NvmeCmd} (h : stage.Next n addrs c q cmd) :
    c = 0 ∧ (q = .admin → stage.done < 3) := by
  cases stage with
  | identify => exact ⟨h.1.trans hf,fun _ => by simp [BringUpStage.done]⟩
  | createCq => exact ⟨h.1.trans hf,fun _ => by simp [BringUpStage.done]⟩
  | createSq => exact ⟨h.1.trans hf,fun _ => by simp [BringUpStage.done]⟩
  | io => exact ⟨by have := h.1; omega,fun hq => by rw [h.2] at hq; cases hq⟩
  | panicked => cases h

theorem BringUpStage.after_first {stage : BringUpStage} (hn : n ≤ 1) (hf : stage.First)
    (r : Except UInt16 Unit) : (stage.after n r).First := by
  cases stage with
  | identify => exact hf
  | createCq =>
    cases r with
    | error => trivial
    | ok => exact hf
  | createSq c =>
    cases r with
    | error => trivial
    | ok =>
      rw [BringUpStage.after,if_neg (by omega)]
      trivial
  | io => trivial
  | panicked => trivial

/-- A call that returns moves the count on. -/
theorem BringUpStage.done_after {stage : BringUpStage} (hn : n ≤ 1) {c : ℕ} {cmd : NvmeCmd}
    (h : stage.Next n addrs c .admin cmd) (r : Except UInt16 Unit) :
    stage.done + 1 ≤ (stage.after n r).done := by
  cases stage with
  | identify => exact le_rfl
  | createCq =>
    cases r with
    | error => simp [BringUpStage.done,BringUpStage.after]
    | ok => exact le_rfl
  | createSq c =>
    cases r with
    | error => exact le_rfl
    | ok =>
      rw [BringUpStage.after,if_neg (by omega)]
      exact le_rfl
  | io => cases h.2
  | panicked => cases h

theorem BringUpStage.done_after_io {stage : BringUpStage} {c : ℕ} {cmd : NvmeCmd}
    (h : stage.Next n addrs c .io cmd) (r : Except UInt16 Unit) : stage.after n r = stage := by
  cases stage with
  | identify => cases h.2.1
  | createCq => cases h.2.1
  | createSq => cases h.2.1
  | io => rfl
  | panicked => cases h

/-- Only a return adds to what a port's calls returned. -/
theorem returned_eq (s : NvmeState BringUpStage) (x : ℕ × QueueId) (c : ℕ) (q : QueueId) :
    (∀ cmd, ((s.store c q cmd).port x).returned = (s.port x).returned) ∧
      ((s.ring c q).port x).returned = (s.port x).returned ∧
      ((s.fetch c q).port x).returned = (s.port x).returned ∧
      ∀ comp, ((s.post c q comp).port x).returned = (s.port x).returned := by
  unfold NvmeState.store NvmeState.ring NvmeState.fetch NvmeState.post
  by_cases hx : x = (c,q)
  · subst hx
    simp
  · simp [hx]

theorem BringUpInv.done_step (hn : n ≤ 1) (h : BringUpInv n addrs s) {a : NvmeAction}
    (hstep : NvmeStep (bringUp n addrs) s a t) :
    (t.port (0,.admin)).returned.length ≤ t.stage.done := by
  have hdone := h.done
  cases hstep with
  | call =>
    rw [(returned_eq s _ _ _).1]
    exact hdone
  | ring =>
    rw [(returned_eq s _ _ _).2.1]
    exact hdone
  | @found c q hc _ hfound =>
    obtain ⟨cmd,hcmd⟩ := h.allowed _ _ _ hc
    obtain rfl := h.single.only _ _ _ hc
    cases q with
    | admin =>
      have hmore := BringUpStage.done_after hn hcmd
        (s.cq .admin (s.port (0,.admin)).counters.head).outcome
      simp only [NvmeState.consume,Function.update_self,List.length_append,List.length_singleton]
      exact (Nat.succ_le_succ hdone).trans hmore
    | io =>
      have hsame := BringUpStage.done_after_io hcmd
        (s.cq .io (s.port (0,.io)).counters.head).outcome
      show _ ≤ (s.stage.after n _).done
      rw [hsame]
      simpa [NvmeState.consume] using hdone
  | spin => exact hdone
  | fetch =>
    rw [(returned_eq s _ _ _).2.2.1]
    exact hdone
  | post =>
    rw [(returned_eq s _ _ _).2.2.2]
    exact hdone

theorem BringUpInv.step (hn : n ≤ 1) (h : BringUpInv n addrs s) {a : NvmeAction}
    (hstep : NvmeStep (bringUp n addrs) s a t) : BringUpInv n addrs t := by
  have hnext : ∀ c q cmd, s.call = none → (bringUp n addrs).next s.stage c q cmd → c = 0 ∧
      (q = .admin → (s.port (0,q)).submitted.length + 1 < queueSize) := by
    intro c q cmd hc hcmd
    obtain ⟨rfl,hlt⟩ := BringUpStage.next_first hn h.first hcmd
    refine ⟨rfl,?_⟩
    rintro rfl
    have hport := h.single.port .admin
    rw [SingleInv.pcOf_none hc] at hport
    have hdone := h.done
    have hlt := hlt rfl
    rw [hport.settled.1]
    unfold queueSize
    omega
  refine ⟨h.single.step hstep hnext,h.allowed.step hstep,?_,?_⟩
  · cases hstep with
    | found => exact BringUpStage.after_first hn h.first _
    | _ => exact h.first
  · exact h.done_step hn hstep

theorem BringUpInv.answered (h : BringUpInv n addrs s) (c : ℕ) (q : QueueId) :
    (s.port (c,q)).Answered := by
  by_cases hc : c = 0
  · subst hc
    exact (h.single.port q).answered
  · rw [h.single.others c q hc]
    intro k r hk
    cases hk

/-- The first of two controllers can be brought up without a failure. -/
theorem exists_firstUp (hn : 1 < n) (addrs : DmaAddrs) :
    ∃ s, (nvmeSystem (bringUp n addrs)).Reachable s ∧ SingleInv s ∧ s.call = none ∧
      s.stage = .identify 1 ∧ (s.port (0,.admin)).submitted.length = 3 := by
  have hstart : (NvmeState.boot (bringUp n addrs)).stage = .identify 0 :=
    if_pos (Nat.zero_lt_of_lt hn)
  obtain ⟨s₁,hs₁,h₁,hc₁,hstage₁,hlen₁⟩ := (SingleInv.boot (bringUp n addrs)).callOk (.init rfl)
    .admin (identifyCmd addrs) rfl (by rw [hstart]; exact ⟨rfl,rfl,rfl⟩)
    (fun _ => show 0 + 1 < queueSize by decide)
  have hlen₁' : (s₁.port (0,.admin)).submitted.length = 1 := hlen₁
  rw [hstart] at hstage₁
  obtain ⟨s₂,hs₂,h₂,hc₂,hstage₂,hlen₂⟩ := h₁.callOk hs₁ .admin (createCqCmd addrs) hc₁
    (by rw [hstage₁]; exact ⟨rfl,rfl,rfl⟩) (fun _ => by rw [hlen₁']; decide)
  rw [hstage₁] at hstage₂
  rw [hlen₁'] at hlen₂
  obtain ⟨s₃,hs₃,h₃,hc₃,hstage₃,hlen₃⟩ := h₂.callOk hs₂ .admin (createSqCmd addrs) hc₂
    (by rw [hstage₂]; exact ⟨rfl,rfl,rfl⟩) (fun _ => by rw [hlen₂]; decide)
  rw [hstage₂] at hstage₃
  rw [hlen₂] at hlen₃
  exact ⟨s₃,hs₃,h₃,hc₃,hstage₃.trans (if_pos hn),hlen₃⟩

/-- The second controller's `identify` finds the entry the first controller left behind. -/
theorem exists_stale (hn : 1 < n) (addrs : DmaAddrs) :
    ∃ s, (nvmeSystem (bringUp n addrs)).Reachable s ∧ ¬(s.port (1,.admin)).Answered := by
  obtain ⟨s,hs,h,hc,hstage,hlen⟩ := exists_firstUp hn addrs
  have hnew := h.others 1 .admin one_ne_zero
  have hport := h.port .admin
  rw [SingleInv.pcOf_none hc] at hport
  obtain ⟨hsub,-,hposted⟩ := hport.settled
  have hold : (s.cq .admin 0).status &&& 1 = 1 := by
    have hwritten := hport.written 0 queueSize_pos
    rw [show (s.port (0,.admin)).posted.length = 3 by omega] at hwritten
    exact (NvmeComp.phaseBit_eq_iff _ true).mpr (hwritten.trans (by decide))
  let s₁ := s.store 1 .admin (identifyCmd addrs)
  have h₁ : (nvmeSystem (bringUp n addrs)).Reachable s₁ := by
    refine .step (a := .call 1 .admin (identifyCmd addrs)) hs (.call hc ?_ ?_)
    · rw [hstage]
      exact ⟨rfl,rfl,rfl⟩
    · rw [hnew]
      exact queueSize_pos
  let s₂ := s₁.ring 1 .admin
  have h₂ : (nvmeSystem (bringUp n addrs)).Reachable s₂ := .step (a := .ring) h₁ (.ring rfl)
  have hcounters : (s₂.port (1,.admin)).counters = ⟨1,0,1⟩ := by
    simp [s₂,s₁,NvmeState.ring,NvmeState.store,hnew,Port.new,QueueCounters.new,QueueCounters.submit]
  have hreturned : (s₂.port (1,.admin)).returned = [] ∧ (s₂.port (1,.admin)).posted = [] := by
    simp [s₂,s₁,NvmeState.ring,NvmeState.store,hnew,Port.new]
  have h₃ : (nvmeSystem (bringUp n addrs)).Reachable (s₂.consume (bringUp n addrs) 1 .admin) := by
    refine .step (a := .poll) h₂ (.found rfl ?_ ?_)
    · rw [hcounters]
      exact queueSize_pos
    · rw [hcounters]
      exact hold
  refine ⟨_,h₃,fun hanswered => ?_⟩
  obtain ⟨-,comp,hcomp,-⟩ := hanswered 0 (s₂.cq .admin (s₂.port (1,.admin)).counters.head).outcome (by
    simp [NvmeState.consume,hreturned.1])
  simp [NvmeState.consume,hreturned.2] at hcomp

end

/-- Every call returns with its own completion, whatever the delays and statuses, exactly when
the scan brings up one controller at most. -/
theorem bringUp_answered_iff (n : ℕ) (addrs : DmaAddrs) :
    (∀ s, (nvmeSystem (bringUp n addrs)).Reachable s → ∀ c q, (s.port (c,q)).Answered) ↔ n ≤ 1 := by
  constructor
  · intro h
    by_contra hn
    obtain ⟨s,hs,hnot⟩ := exists_stale (not_le.mp hn) addrs
    exact hnot (h s hs 1 .admin)
  · intro hn s hs
    have hinv : BringUpInv n addrs s := hs.invariant (fun _ hi => hi ▸ .boot n addrs)
      fun _ _ _ hi hstep => hi.step hn hstep
    exact hinv.answered

/-- Two controllers. -/
theorem bringUp_two_stale :
    ¬∀ (n : ℕ) (addrs : DmaAddrs) (s : NvmeState BringUpStage),
      (nvmeSystem (bringUp n addrs)).Reachable s → ∀ c q, (s.port (c,q)).Answered := by
  intro h
  let addrs : DmaAddrs := ⟨0x1000,0x2000,0x3000⟩
  obtain ⟨s,hs,hnot⟩ := exists_stale (by decide : 1 < 2) addrs
  exact hnot (h 2 addrs s hs 1 .admin)

end PolymorphOS
