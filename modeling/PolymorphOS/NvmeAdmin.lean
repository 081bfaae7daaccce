import PolymorphOS.NvmeBringUp

/-! The admin queue on its own. Its counters only count: they fit the ring until it has been
gone through once, and no call after that does. -/
namespace PolymorphOS

/-- `n` successive calls of `submit_admin_cmd` on one controller, with any commands; the stage
is the number of calls that have returned. -/
def adminCalls (n : ℕ) : DriverProgram ℕ where
  start := 0
  next k c q _ := k < n ∧ c = 0 ∧ q = .admin
  after k _ := k + 1

/-- A call that starts or looks for its completion indexes inside the queues, the doorbells
show slots of the queues, each call returned the status of its own completion, and no call is
stuck. -/
structure AdminProtocol (n : ℕ) (s : NvmeState ℕ) : Prop where
  tail_lt : s.call = none → s.stage < n → (s.port (0,.admin)).counters.tail < queueSize
  head_lt : s.call ≠ none → (s.port (0,.admin)).counters.head < queueSize
  sqDoorbell_lt : (s.port (0,.admin)).sqDoorbell < queueSize
  cqDoorbell_lt : (s.port (0,.admin)).cqDoorbell < queueSize
  answered : (s.port (0,.admin)).Answered
  completes : s.call ≠ none → ∃ t, (nvmeSystem (adminCalls n)).Run s t ∧ t.call = none ∧
    (t.port (0,.admin)).submitted = (s.port (0,.admin)).submitted

/-- The calls are on the admin queue, the stage counts those that have returned, and the
completion doorbell shows the head. -/
structure AdminInv (n : ℕ) (s : NvmeState ℕ) : Prop where
  single : SingleInv s
  admin : ∀ c q pc, s.call = some (c,q,pc) → q = .admin
  stage : s.stage = (s.port (0,.admin)).returned.length
  started : s.call ≠ none → s.stage < n
  doorbell : (s.port (0,.admin)).cqDoorbell = (s.port (0,.admin)).counters.head

section
variable {P : Type} (s : NvmeState P) (c : ℕ) (q : QueueId) (x : ℕ × QueueId)

/-- What the controller does leaves the driver's side of a port alone. -/
theorem NvmeState.fetch_driver : ((s.fetch c q).port x).returned = (s.port x).returned ∧
    ((s.fetch c q).port x).cqDoorbell = (s.port x).cqDoorbell ∧
    ((s.fetch c q).port x).counters = (s.port x).counters := by
  by_cases hx : x = (c,q)
  · subst hx
    simp [fetch]
  · simp [fetch,hx]

theorem NvmeState.post_driver (comp : NvmeComp) :
    ((s.post c q comp).port x).returned = (s.port x).returned ∧
    ((s.post c q comp).port x).cqDoorbell = (s.port x).cqDoorbell ∧
    ((s.post c q comp).port x).counters = (s.port x).counters := by
  by_cases hx : x = (c,q)
  · subst hx
    simp [post]
  · simp [post,hx]

end

namespace AdminInv

variable {n : ℕ} {s t : NvmeState ℕ}

theorem boot (n : ℕ) : AdminInv n (.boot (adminCalls n)) where
  single := .boot _
  admin _ _ _ h := nomatch h
  stage := rfl
  started h := absurd rfl h
  doorbell := rfl

/-- Between two calls of fewer than a lap there is room for one more. -/
theorem room (h : AdminInv n s) (hn : n < queueSize) (hc : s.call = none) (hlt : s.stage < n) :
    (s.port (0,.admin)).submitted.length + 1 < queueSize := by
  have hport := h.single.port .admin
  rw [SingleInv.pcOf_none hc] at hport
  rw [hport.settled.1,← h.stage]
  omega

theorem step (h : AdminInv n s) (hn : n < queueSize) {a : NvmeAction}
    (hstep : NvmeStep (adminCalls n) s a t) : AdminInv n t := by
  have hsingle : SingleInv t := by
    refine h.single.step hstep fun c q cmd hc hcmd => ?_
    obtain ⟨hlt,rfl,rfl⟩ := hcmd
    exact ⟨rfl,fun _ => h.room hn hc hlt⟩
  cases hstep with
  | call hc hcmd _ =>
    obtain ⟨hlt,rfl,rfl⟩ := hcmd
    refine ⟨hsingle,fun c q pc he => ?_,?_,fun _ => hlt,?_⟩
    · cases he
      rfl
    · simpa [NvmeState.store] using h.stage
    · simpa [NvmeState.store] using h.doorbell
  | @ring c q hc =>
    obtain rfl := h.admin _ _ _ hc
    obtain rfl := h.single.only _ _ _ hc
    refine ⟨hsingle,fun c q pc he => ?_,?_,fun _ => h.started (by simp [hc]),?_⟩
    · cases he
      rfl
    · simpa [NvmeState.ring] using h.stage
    · simpa [NvmeState.ring] using h.doorbell
  | @found c q hc _ _ =>
    obtain rfl := h.admin _ _ _ hc
    obtain rfl := h.single.only _ _ _ hc
    refine ⟨hsingle,by simp [NvmeState.consume],?_,fun hne => absurd rfl hne,?_⟩
    · simp [NvmeState.consume,adminCalls,h.stage]
    · simp [NvmeState.consume]
  | spin => exact h
  | @fetch c q _ =>
    obtain ⟨hreturned,hbell,hcounters⟩ := s.fetch_driver c q (0,.admin)
    exact ⟨hsingle,h.admin,h.stage.trans (by rw [hreturned]),h.started,
      by rw [hbell,hcounters,h.doorbell]⟩
  | @post c q comp _ _ =>
    obtain ⟨hreturned,hbell,hcounters⟩ := s.post_driver c q (0,.admin) comp
    exact ⟨hsingle,h.admin,h.stage.trans (by rw [hreturned]),h.started,
      by rw [hbell,hcounters,h.doorbell]⟩

theorem protocol (h : AdminInv n s) : AdminProtocol n s where
  tail_lt _ _ := (h.single.port .admin).tail_lt
  head_lt _ := (h.single.port .admin).head_lt
  sqDoorbell_lt := by
    rw [(h.single.port .admin).doorbell]
    exact Nat.mod_lt _ queueSize_pos
  cqDoorbell_lt := by
    rw [h.doorbell]
    exact (h.single.port .admin).head_lt
  answered := (h.single.port .admin).answered
  completes hc := by
    obtain ⟨⟨c,q,pc⟩,hcall⟩ := Option.ne_none_iff_exists'.mp hc
    obtain rfl := h.admin c q pc hcall
    obtain rfl := h.single.only c .admin pc hcall
    obtain ⟨t,hrun,-,hnone,hsub,-⟩ := h.single.completes (p := adminCalls n) hcall
    exact ⟨t,hrun,hnone,hsub⟩

end AdminInv

/-- As many calls as a lap has room for can return one after another. -/
theorem exists_adminCalls (cmd : NvmeCmd) {n k : ℕ} (hk : k ≤ n) (hlap : k < queueSize) :
    ∃ s, (nvmeSystem (adminCalls n)).Reachable s ∧ SingleInv s ∧ s.call = none ∧ s.stage = k ∧
      (s.port (0,.admin)).submitted.length = k := by
  induction k with
  | zero => exact ⟨_,.init rfl,.boot _,rfl,rfl,rfl⟩
  | succ k ih =>
    obtain ⟨s,hs,h,hc,hstage,hlen⟩ := ih (by omega) (by omega)
    obtain ⟨t,ht,h',hc',hstage',hlen'⟩ := h.callOk hs .admin cmd hc
      ⟨by rw [hstage]; omega,rfl,rfl⟩ (fun _ => by rw [hlen]; exact hlap)
    exact ⟨t,ht,h',hc',by rw [hstage',hstage]; rfl,by rw [hlen',hlen]⟩

/-- The call that fills the last slot tells the controller of a slot that does not exist. -/
theorem exists_doorbell_past (cmd : NvmeCmd) {n : ℕ} (hn : queueSize ≤ n) :
    ∃ s, (nvmeSystem (adminCalls n)).Reachable s ∧ (s.port (0,.admin)).sqDoorbell = queueSize := by
  obtain ⟨s,hs,h,hc,hstage,hlen⟩ := exists_adminCalls cmd (n := n) (k := queueSize - 1)
    (by unfold queueSize at *; omega) (by decide)
  have htail : (s.port (0,.admin)).counters.tail = queueSize - 1 := by
    rw [(h.port .admin).tail,hlen]
    rfl
  have hcall : NvmeStep (adminCalls n) s (.call 0 .admin cmd) (s.store 0 .admin cmd) := by
    refine .call hc ⟨?_,rfl,rfl⟩ (by rw [htail]; decide)
    rw [hstage]
    unfold queueSize at *
    omega
  refine ⟨_,.step (a := .ring) (.step hs hcall) (.ring rfl),?_⟩
  simp [NvmeState.ring,NvmeState.store,QueueCounters.submit,htail,queueSize]

/-- The admin protocol keeps its promises in every run of up to 63 calls, and in no longer one. -/
theorem adminCalls_protocol_iff (n : ℕ) :
    (∀ s, (nvmeSystem (adminCalls n)).Reachable s → AdminProtocol n s) ↔ n < queueSize := by
  constructor
  · intro h
    by_contra hn
    obtain ⟨s,hs,hdoorbell⟩ := exists_doorbell_past .empty (not_lt.mp hn)
    have hlt := (h s hs).sqDoorbell_lt
    omega
  · intro hn s hs
    have hinv : AdminInv n s := hs.invariant (fun _ hi => hi ▸ .boot n)
      fun _ _ _ hi hstep => hi.step hn hstep
    exact hinv.protocol

/-- The 64th `identify_controller`. -/
theorem adminCalls_past_ring :
    (∃ s, (nvmeSystem (adminCalls 64)).Reachable s ∧ (s.port (0,.admin)).sqDoorbell = 64) ∧
    ¬∀ n s, (nvmeSystem (adminCalls n)).Reachable s → AdminProtocol n s := by
  obtain ⟨s,hs,hdoorbell⟩ := exists_doorbell_past
    (identifyCmd ⟨0x1000,0x2000,0x3000⟩) (n := 64) le_rfl
  refine ⟨⟨s,hs,hdoorbell⟩,fun h => ?_⟩
  have hlt := (h 64 s hs).sqDoorbell_lt
  omega

end PolymorphOS
