import PolymorphOS.GpuWaits

/-! A waiting call's outcome is its own reply's, provided the queue was settled when its command
was published. -/
namespace PolymorphOS

theorem WaitingCall.result_congr (c : WaitingCall) {reply reply' : Reply}
    (hty : reply.ty = reply'.ty)
    (hvalue : reply'.ty = c.success.code → c.value reply = c.value reply') :
    c.result reply = c.result reply' := by
  unfold result
  rw [hty]
  split
  · rename_i hok
    rw [hvalue hok]
  · rfl

/-- A reply that was written whole decides as it is. -/
theorem WaitingCall.result_splice (c : WaitingCall) {bytes : List UInt8} (h : Reply.Whole bytes)
    (memory : ℕ → UInt8) (addr : ℕ) (usedIdx : UInt16) :
    c.result (.read usedIdx (splice memory addr (min bytes.length c.replyLen.toNat)
      fun i => bytes.getD i 0) addr) = c.result (.ofBytes bytes) := by
  obtain ⟨hheader,hdisplays⟩ := h
  have hword : ∀ k, k + 4 ≤ min bytes.length c.replyLen.toNat →
      word (splice memory addr (min bytes.length c.replyLen.toNat) fun i => bytes.getD i 0)
        (addr + k) = word (fun i => bytes.getD i 0) (0 + k) := by
    intro k hk
    apply word_congr
    intro i hi
    rw [Nat.add_assoc,Nat.add_assoc,Nat.zero_add]
    exact splice_apply (by omega) _
  have hlen : 24 ≤ c.replyLen.toNat := by
    cases c with
    | getDisplayInfo => decide
    | create2dCanvas => exact le_rfl
    | attachBacking => exact le_rfl
    | setScanout => exact le_rfl
  apply c.result_congr
  · exact hword 0 (by omega)
  · intro hok
    cases c with
    | getDisplayInfo =>
      have hlen : min bytes.length (replyLen .getDisplayInfo).toNat = 408 :=
        min_eq_right (hdisplays hok)
      have hsize : ∀ k, k + 4 ≤ 408 → _ := fun k hk => hword k (hk.trans_eq hlen.symm)
      exact congrArg some (Prod.ext (hsize 32 (by decide)) (hsize 36 (by decide)))
    | create2dCanvas => rfl
    | attachBacking => rfl
    | setScanout => rfl

/-- The noted `used.idx` does not decide anything. -/
theorem WaitingCall.result_read (c : WaitingCall) (memory : ℕ → UInt8) (addr : ℕ)
    (u v : UInt16) : c.result (.read u memory addr) = c.result (.read v memory addr) := by
  cases c <;> rfl

namespace VirtioGpuDriver

variable {build : Profile} {d d' : VirtioGpuDriver}

theorem grab_inv {f : FlushDescriptors} (h : d.grab build = .ok (f,d')) :
    d'.queue.available = d.queue.available := by
  obtain ⟨_,_,h⟩ := bind_inv h
  obtain ⟨_,_,h⟩ := bind_inv h
  obtain ⟨_,_,h⟩ := bind_inv h
  obtain ⟨_,_,h⟩ := bind_inv h
  obtain ⟨queue,hqueue,h⟩ := bind_inv h
  obtain ⟨_,_,hunlink⟩ := bind_inv hqueue
  cases hunlink
  cases h
  rfl

theorem reclaim_inv {a b : Fin 64} (h : d.reclaim build a b = .ok d') :
    d'.queue.available = d.queue.available := by
  rw [reclaim_eq] at h
  obtain ⟨_,_,rfl⟩ := map_inv h
  rfl

theorem address_toNat (d : VirtioGpuDriver) {offset : ℕ} (h : offset < 4096) :
    (d.address offset).toNat = d.mailboxPhys.1 + offset := by
  have hphys := d.mailboxPhys.2
  rw [address,UInt64.toNat_ofNat']
  omega

theorem sent_address (d : VirtioGpuDriver) (command : GpuCommand) (replyLen : UInt32)
    (a b : Fin 64) (n : UInt16) (offset : ℕ) :
    (d.sent command replyLen n a b).address offset = d.address offset := rfl

theorem reclaimPair_inv {f : FlushDescriptors} (h : d.reclaimPair build f = .ok d') :
    d'.queue.available = d.queue.available := by
  obtain ⟨queue,hqueue,h⟩ := bind_inv h
  obtain ⟨_,_,hadd⟩ := bind_inv hqueue
  cases hadd
  cases h
  rfl

end VirtioGpuDriver

/-- A flush publishes two chains at a time. -/
theorem FlushCalls.step_idx {build : Profile} {s t : FlushCalls} {args : FlushArgs}
    (h : s.step build args = .ok t) :
    t.driver.queue.available.idx = s.driver.queue.available.idx +
      UInt16.ofNat (2*(t.published - s.published)) := by
  have hsame : ∀ {t : FlushCalls}, t.published = s.published →
      t.driver.queue.available = s.driver.queue.available →
      t.driver.queue.available.idx = s.driver.queue.available.idx +
        UInt16.ofNat (2*(t.published - s.published)) := by
    intro t hpublished havailable
    rw [hpublished,Nat.sub_self,havailable]
    exact (UInt16.add_zero _).symm
  unfold FlushCalls.step at h
  cases hpc : s.pc with
  | idle =>
    simp only [hpc] at h
    split at h
    all_goals
      cases h
      exact hsame rfl rfl
  | transferDrafted args =>
    simp only [hpc] at h
    cases h
    exact hsame rfl rfl
  | drafted =>
    simp only [hpc] at h
    obtain ⟨⟨f,d⟩,hgrab,h⟩ := bind_inv h
    cases h
    have havailable := VirtioGpuDriver.grab_inv hgrab
    exact hsame rfl havailable
  | transferLoaded f =>
    simp only [hpc] at h
    cases h
    exact hsame rfl rfl
  | loaded f =>
    simp only [hpc] at h
    cases h
    show s.driver.queue.available.idx + 2 = _
    rw [Nat.add_sub_cancel_left]
    rfl
  | published f =>
    simp only [hpc] at h
    obtain ⟨d,hd,h⟩ := bind_inv h
    cases h
    exact hsame rfl (VirtioGpuDriver.reclaimPair_inv hd)

namespace WaitingCall

variable {build : Profile} {c : WaitingCall} {d d' : VirtioGpuDriver} {a b : Fin 64}
  {reply : Reply}

theorem finish_inv (h : c.finish build d a b reply = .ok d') :
    d'.queue.available = d.queue.available := by
  unfold finish at h
  split at h
  · have havailable := VirtioGpuDriver.reclaim_inv h
    exact havailable
  · cases h
    rfl

/-- The count of free descriptors has room for what the call took. -/
theorem finish_ok (c : WaitingCall) {command : GpuCommand} {replyLen : UInt32}
    (h : d.submit build command replyLen = .ok (a,b,d')) (reply : Reply) :
    ∃ d₂, c.finish build d' a b reply = .ok d₂ := by
  obtain ⟨_,_,n,hn,rfl⟩ := VirtioGpuDriver.submit_inv h
  unfold finish
  split
  · have hadd : ∃ m, addU16 build n 2 = .ok m := by
      obtain ⟨rfl,hle | hbuild⟩ := subU16_inv hn
      · have hlt := d.queue.numFree.toNat_lt
        have htwo : (2 : UInt16).toNat = 2 := rfl
        have hle' := UInt16.le_iff_toNat_le.mp hle
        refine ⟨_,addU16_ok build ?_⟩
        rw [UInt16.toNat_sub_of_le _ _ hle,htwo]
        omega
      · exact ⟨_,if_pos (Or.inr hbuild)⟩
    obtain ⟨m,hm⟩ := hadd
    rw [VirtioGpuDriver.reclaim_eq]
    show ∃ d₂, (addU16 build n 2).map _ = .ok d₂
    rw [hm]
    exact ⟨_,rfl⟩
  · exact ⟨_,rfl⟩

end WaitingCall

/-- The chain of a waiting call is the latest, and its reply goes to the envelope. -/
structure Waiting.Queued (w : Waiting) (published : ℕ) (d : VirtioGpuDriver) : Prop where
  chain : w.chain + 1 = published
  slot : d.queue.available.ring (VirtQueue.slot w.chain) = UInt16.ofNat w.headIdx.1
  next : VirtQueue.deref (d.queue.link w.headIdx) = some w.nextIdx
  addr : (d.queue.descriptors w.nextIdx).addr = d.address 512
  len : (d.queue.descriptors w.nextIdx).len = w.call.replyLen

theorem Waiting.Queued.envelope {w : Waiting} {n : ℕ} {d : VirtioGpuDriver} (h : w.Queued n d) :
    d.queue.envelope w.chain = some (d.queue.descriptors w.nextIdx) := by
  rw [VirtQueue.envelope,h.slot,VirtQueue.deref_ofNat]
  show (VirtQueue.deref (d.queue.link w.headIdx)).bind _ = _
  rw [h.next]
  rfl

/-- The call that has a command in the queue. -/
def WaitPc.waiting : WaitPc → Option Waiting
  | .spinning w => some w
  | .woken w => some w
  | .noted w _ => some w
  | _ => none

namespace WaitState

variable {build : Profile} {s t : WaitState} {n : ℕ}

/-- The invariant of every run. -/
structure Inv (s : WaitState) : Prop where
  idx : s.host.driver.queue.available.idx = UInt16.ofNat s.published
  completed : s.replies.length + s.written.toList.length ≤ s.published
  queued : ∀ w, s.pc.waiting = some w → w.Queued s.published s.host.driver

theorem Inv.submit {call : WaitingCall} {a b : Fin 64} {driver : VirtioGpuDriver} (h : Inv s)
    (hsubmit : s.host.driver.submit build call.command call.replyLen = .ok (a,b,driver)) :
    Inv (s.submit call a b driver) := by
  obtain ⟨_,hb,n,_,rfl⟩ := VirtioGpuDriver.submit_inv hsubmit
  refine ⟨?_,Nat.le_succ_of_le h.completed,?_⟩
  · show s.host.driver.queue.available.idx + 1 = UInt16.ofNat (s.published + 1)
    rw [h.idx,UInt16.ofNat_add]
    rfl
  · rintro w ⟨⟩
    have hslot := s.host.driver.sent_slot call.command call.replyLen a b n
    have hreply := s.host.driver.sent_reply call.command call.replyLen a b n
    rw [h.idx,VirtQueue.slot_ofNat] at hslot
    refine ⟨rfl,hslot,?_,?_,congrArg VirtqDesc.len hreply⟩
    · show VirtQueue.deref ((s.host.driver.sent call.command call.replyLen n a b).queue.link a) = _
      rw [VirtioGpuDriver.sent_link]
      exact hb
    · exact (congrArg VirtqDesc.addr hreply).trans (VirtioGpuDriver.sent_address ..).symm

theorem Inv.step {a : WaitAction} (h : Inv s) (hstep : WaitStep build s a t) : Inv t := by
  cases hstep with
  | @flush args host hpc hhost =>
    refine ⟨?_,h.completed.trans (Nat.le_add_right _ _),?_⟩
    · show host.driver.queue.available.idx = UInt16.ofNat (s.published + _)
      rw [FlushCalls.step_idx hhost,h.idx,UInt16.ofNat_add]
    · intro w hw
      rw [hpc] at hw
      cases hw
  | clear hpc hhost =>
    refine ⟨h.idx,h.completed,?_⟩
    rintro w ⟨⟩
  | submit hpc hsubmit => exact h.submit hsubmit
  | wake hpc hne =>
    refine ⟨h.idx,h.completed,fun w hw => h.queued w ?_⟩
    rw [hpc]
    exact hw
  | note hpc =>
    refine ⟨h.idx,h.completed,fun w hw => h.queued w ?_⟩
    rw [hpc]
    exact hw
  | @finish w usedIdx driver hpc hfinish =>
    refine ⟨?_,h.completed,?_⟩
    · show driver.queue.available.idx = _
      rw [WaitingCall.finish_inv hfinish]
      exact h.idx
    · rintro w ⟨⟩
  | write hwritten hlt hwhole => exact ⟨h.idx,hlt,h.queued⟩
  | @advance bytes hwritten =>
    refine ⟨h.idx,?_,h.queued⟩
    have hle := h.completed
    rw [hwritten] at hle
    show (s.replies ++ [bytes]).length + 0 ≤ s.published
    rw [List.length_append]
    exact hle

theorem Inv.reachable (h : (waitSystem build).Reachable s) : Inv s := by
  apply h.invariant
  · rintro _ ⟨d,memory,hqueue,rfl⟩
    refine ⟨?_,le_rfl,?_⟩
    · show d.queue.available.idx = 0
      rw [hqueue]
      rfl
    · rintro w ⟨⟩
  · exact fun s a t hs hstep => hs.step hstep

/-- The envelope holds a reply with the same outcome as these bytes. -/
def Received (s : WaitState) (w : Waiting) (bytes : List UInt8) : Prop :=
  w.call.result (s.reply 0) = w.call.result (.ofBytes bytes)

def Answered (s : WaitState) (w : Waiting) : Prop :=
  ∃ bytes, s.replies[w.chain]? = some bytes ∧ s.Received w bytes

/-- A call that was published on a settled queue has its reply, or it spins and cannot stop. -/
def Awaits (s : WaitState) : Prop :=
  ∀ w, s.pc.waiting = some w → s.Answered w ∨ (s.pc = .spinning w ∧ s.replies.length = w.chain ∧
    s.host.driver.queue.lastUsedIdx = s.usedIdx ∧ ∀ bytes ∈ s.written, s.Received w bytes)

/-- The invariant of the runs with settled queues, from the `n`-th return on. -/
structure Good (n : ℕ) (s : WaitState) : Prop where
  inv : s.Inv
  awaits : s.Awaits
  proper : ∀ r ∈ s.returned.drop n, r.Proper

/-- Nothing is left to complete once the latest chain is. -/
theorem Inv.replies_le {w : Waiting} (h : Inv s) (hw : s.pc.waiting = some w)
    (hanswered : s.Answered w) : s.published ≤ s.replies.length := by
  obtain ⟨bytes,hbytes,_⟩ := hanswered
  obtain ⟨hlt,_⟩ := List.getElem?_eq_some_iff.mp hbytes
  rw [← (h.queued w hw).chain]
  exact hlt

theorem Good.write {bytes : List UInt8} (h : Good n s) (hlt : s.replies.length < s.published)
    (hwhole : Reply.Whole bytes) : Awaits (s.write bytes) := by
  intro w hw
  obtain ⟨hpc,hlen,hidx,_⟩ := (h.awaits w hw).resolve_left fun hanswered =>
    absurd (h.inv.replies_le hw hanswered) (not_le.mpr hlt)
  refine .inr ⟨hpc,hlen,hidx,?_⟩
  rintro _ ⟨⟩
  have hqueued := h.inv.queued w hw
  have haddr : (s.host.driver.queue.descriptors w.nextIdx).addr.toNat = s.respPhys := by
    rw [hqueued.addr,VirtioGpuDriver.address_toNat _ (by decide)]
    rfl
  have hmemory : (s.write bytes).memory = splice s.memory s.respPhys
      (min bytes.length w.call.replyLen.toNat) fun i => bytes.getD i 0 := by
    simp only [WaitState.write,hlen,hqueued.envelope,haddr,hqueued.len]
  show w.call.result (.read 0 (s.write bytes).memory s.respPhys) = _
  rw [hmemory]
  exact w.call.result_splice hwhole s.memory s.respPhys 0

theorem Good.advance {bytes : List UInt8} (h : Good n s) (hwritten : s.written = some bytes) :
    Awaits (s.advance bytes) := by
  intro w hw
  have hcompleted := h.inv.completed
  rw [hwritten] at hcompleted
  obtain ⟨_,hlen,_,hreceived⟩ := (h.awaits w hw).resolve_left fun hanswered =>
    absurd (h.inv.replies_le hw hanswered) (not_le.mpr hcompleted)
  refine .inl ⟨bytes,?_,hreceived bytes hwritten⟩
  show (s.replies ++ [bytes])[w.chain]? = some bytes
  rw [← hlen]
  exact List.getElem?_concat_length

/-- A call that has left its spin loop has its reply. -/
theorem Good.answered {w : Waiting} (h : Good n s) (hw : s.pc.waiting = some w)
    (hpc : s.pc = .spinning w → s.host.driver.queue.lastUsedIdx ≠ s.usedIdx) : s.Answered w :=
  (h.awaits w hw).resolve_right fun ⟨hspin,_,hidx,_⟩ => hpc hspin hidx

theorem Good.step {a : WaitAction} (h : Good n s) (hstep : (settledSystem build).step s a t) :
    Good n t := by
  obtain ⟨hsettled,hstep⟩ := hstep
  have hinv := h.inv.step hstep
  cases hstep with
  | flush hpc hhost =>
    refine ⟨hinv,?_,h.proper⟩
    intro w hw
    rw [hpc] at hw
    cases hw
  | clear hpc hhost =>
    refine ⟨hinv,?_,h.proper⟩
    rintro w ⟨⟩
  | @submit call a b driver hpc hsubmit =>
    refine ⟨hinv,?_,h.proper⟩
    rintro w ⟨⟩
    obtain ⟨hlen,hidx⟩ := hsettled rfl
    obtain ⟨_,_,_,_,rfl⟩ := VirtioGpuDriver.submit_inv hsubmit
    refine .inr ⟨rfl,hlen,hidx,?_⟩
    intro bytes hbytes
    have hcompleted := h.inv.completed
    rw [show s.written = some bytes from hbytes,hlen] at hcompleted
    exact absurd hcompleted (Nat.not_succ_le_self _)
  | @wake w hpc hne =>
    refine ⟨hinv,?_,h.proper⟩
    rintro _ ⟨⟩
    exact .inl (h.answered (w := w) (by rw [hpc]; rfl) fun _ => hne)
  | @note w hpc =>
    refine ⟨hinv,?_,h.proper⟩
    rintro _ ⟨⟩
    refine .inl (h.answered (w := w) (by rw [hpc]; rfl) fun hspin => ?_)
    rw [hpc] at hspin
    cases hspin
  | @finish w usedIdx driver hpc hfinish =>
    refine ⟨hinv,?_,?_⟩
    · rintro w ⟨⟩
    · have hanswered : s.Answered w := h.answered (by rw [hpc]; rfl) fun hspin => by
        rw [hpc] at hspin
        cases hspin
      obtain ⟨bytes,hbytes,hreceived⟩ := hanswered
      intro r hr
      rw [WaitState.finish,List.drop_append] at hr
      rcases List.mem_append.mp hr with hold | hnew
      · exact h.proper r hold
      · cases List.mem_singleton.mp (List.mem_of_mem_drop hnew)
        exact ⟨bytes,hbytes,(w.call.result_read _ _ _ _).trans hreceived⟩
  | write hwritten hlt hwhole => exact ⟨hinv,h.write hlt hwhole,h.proper⟩
  | advance hwritten => exact ⟨hinv,h.advance hwritten,h.proper⟩

theorem Good.reachable (h : (settledSystem build).Reachable s) : Good 0 s := by
  apply h.invariant
  · rintro s hstart
    have hreach : (waitSystem build).Reachable s := .init hstart
    refine ⟨Inv.reachable hreach,?_,?_⟩
    all_goals obtain ⟨d,memory,_,rfl⟩ := hstart
    · rintro w ⟨⟩
    · rintro r ⟨⟩
  · exact fun s a t hs hstep => hs.step hstep

/-- A settled call returns properly, whatever the device does meanwhile. -/
theorem proper_of_settled {u : WaitState} {r : Returned} (hs : (waitSystem build).Reachable s)
    (hstep : WaitStep build s .submit t) (hsettled : s.Settled)
    (hrun : (singleSystem build).Run t u) (hu : u.returned = t.returned ++ [r]) : r.Proper := by
  have hgood : Good t.returned.length s := by
    cases hstep with
    | @submit call a b driver hpc hsubmit =>
      refine ⟨Inv.reachable hs,?_,?_⟩
      · intro w hw
        rw [hpc] at hw
        cases hw
      · intro r hr
        have hnil : s.returned.drop s.returned.length = [] := List.drop_length
        rw [show (s.submit call a b driver).returned = s.returned from rfl,hnil] at hr
        cases hr
  have ht := hgood.step ⟨fun _ => hsettled,hstep⟩
  have hkeeps : ∀ s a u, Good t.returned.length s → (singleSystem build).step s a u →
      Good t.returned.length u := fun s a u hs ⟨hne,hstep⟩ =>
    hs.step ⟨fun he => absurd he hne,hstep⟩
  have hgood' := hrun.preserves hkeeps ht
  apply hgood'.proper
  rw [hu,List.drop_left]
  exact List.mem_singleton_self r

/-- A call whose spin loop can end returns with what is in the envelope. -/
theorem exists_return (build : Profile) {w : Waiting} (hpc : t.pc = .spinning w)
    (hidx : t.host.driver.queue.lastUsedIdx ≠ t.usedIdx)
    (hfinish : ∀ reply, ∃ d, w.call.finish build t.host.driver w.headIdx w.nextIdx reply = .ok d) :
    ∃ u result, (singleSystem build).Run t u ∧
      u.returned = t.returned ++ [⟨w.call,w.chain,t.replies,result⟩] := by
  obtain ⟨d,hd⟩ := hfinish (t.reply t.usedIdx)
  let t₁ : WaitState := {t with pc := .woken w}
  let t₂ : WaitState := {t with pc := .noted w t.usedIdx}
  have hwake : (singleSystem build).step t .wake t₁ :=
    ⟨fun h => (nomatch h),.wake hpc hidx⟩
  have hnote : (singleSystem build).step t₁ .note t₂ := ⟨fun h => (nomatch h),.note rfl⟩
  have hdone : (singleSystem build).step t₂ .finish (t₂.finish w t.usedIdx d) :=
    ⟨fun h => (nomatch h),.finish rfl hd⟩
  exact ⟨_,_,((Relation.ReflTransGen.single ⟨_,hwake⟩).tail ⟨_,hnote⟩).tail ⟨_,hdone⟩,rfl⟩

theorem whole_zeros : Reply.Whole (List.replicate 24 0) := ⟨le_rfl,fun h => absurd h (by decide)⟩

/-- The device can complete the next chain before anything else happens. -/
theorem exists_completed (build : Profile) (h : t.replies.length < t.published) :
    ∃ u, (singleSystem build).Run t u ∧
    u.pc = t.pc ∧ u.host = t.host ∧ u.usedIdx = t.usedIdx + 1 ∧ u.returned = t.returned ∧
    u.replies.length = t.replies.length + 1 := by
  have hadvance : ∀ {v : WaitState} {bytes : List UInt8}, v.written = some bytes →
      (singleSystem build).step v .advance (v.advance bytes) := fun hv =>
    ⟨fun h => (nomatch h),.advance hv⟩
  cases hwritten : t.written with
  | none =>
    have hwrite : (singleSystem build).step t (.write (List.replicate 24 0))
        (t.write (List.replicate 24 0)) := ⟨fun h => (nomatch h),.write hwritten h whole_zeros⟩
    have hrun : (singleSystem build).Run t (t.write (List.replicate 24 0)) := .single ⟨_,hwrite⟩
    exact ⟨_,hrun.tail ⟨_,hadvance rfl⟩,rfl,rfl,rfl,rfl,List.length_append⟩
  | some bytes =>
    exact ⟨_,.single ⟨_,hadvance hwritten⟩,rfl,rfl,rfl,rfl,List.length_append⟩

/-- An unsettled call can return before its own chain is completed. -/
theorem exists_improper (hs : (waitSystem build).Reachable s)
    (hstep : WaitStep build s .submit t) (hsettled : ¬s.Settled) :
    ∃ u r, (singleSystem build).Run t u ∧ u.returned = t.returned ++ [r] ∧ ¬r.Proper := by
  cases hstep with
  | @submit call a b driver hpc hsubmit =>
    have hcompleted := (Inv.reachable hs).completed
    have hfinish : ∀ reply, ∃ d, call.finish build driver a b reply = .ok d :=
      call.finish_ok hsubmit
    have hlast : driver.queue.lastUsedIdx = s.host.driver.queue.lastUsedIdx := by
      obtain ⟨_,_,_,_,rfl⟩ := VirtioGpuDriver.submit_inv hsubmit
      exact VirtioGpuDriver.sent_lastUsedIdx ..
    have himproper : ∀ (replies : List (List UInt8)) (result : CallResult),
        replies.length ≤ s.published →
          ¬Returned.Proper ⟨call,s.published,replies,result⟩ := by
      rintro replies result hle ⟨bytes,hbytes,_⟩
      rw [List.getElem?_eq_none hle] at hbytes
      cases hbytes
    by_cases hidx : s.host.driver.queue.lastUsedIdx = s.usedIdx
    · -- the completion of an earlier chain ends the spin loop
      have hlt : s.replies.length < s.published := by
        have hne : s.replies.length ≠ s.published := fun he => hsettled ⟨he,hidx⟩
        omega
      obtain ⟨v,hv,hvpc,hvhost,hvidx,hvreturned,hvlen⟩ := exists_completed build
        (t := s.submit call a b driver) (Nat.lt_succ_of_lt hlt)
      have hne : v.host.driver.queue.lastUsedIdx ≠ v.usedIdx := by
        rw [hvhost,hvidx]
        intro he
        have hzero : s.usedIdx + 1 = s.usedIdx + 0 :=
          he.symm.trans (hlast.trans (hidx.trans (UInt16.add_zero _).symm))
        exact absurd ((UInt16.add_right_inj s.usedIdx).mp hzero) (by decide)
      obtain ⟨u,result,hu,hureturned⟩ := exists_return build hvpc hne
        (by rw [hvhost]; exact hfinish)
      refine ⟨u,_,hv.trans hu,?_,himproper v.replies result (hvlen.trans_le hlt)⟩
      rw [hureturned,hvreturned]
    · obtain ⟨u,result,hu,hureturned⟩ := exists_return build
        (t := s.submit call a b driver) rfl (fun he => hidx (hlast.symm.trans he)) hfinish
      have hle : s.replies.length ≤ s.published := by omega
      exact ⟨u,_,hu,hureturned,himproper s.replies result hle⟩

end WaitState

/-- In the runs in which every command is published on a settled queue, each waiting call returns
after its own completion with the outcome of its own reply; and where a command is published on
a queue that is not settled, some schedule makes its call return otherwise. -/
theorem waitSystem_proper (build : Profile) :
    (∀ s, (settledSystem build).Reachable s → ∀ r ∈ s.returned, r.Proper) ∧
    ∀ s t, (waitSystem build).Reachable s → (waitSystem build).step s .submit t →
      (s.Settled ↔ ∀ u r, (singleSystem build).Run t u → u.returned = t.returned ++ [r] →
        r.Proper) := by
  refine ⟨fun s hs => (WaitState.Good.reachable hs).proper,fun s t hs hstep => ⟨?_,?_⟩⟩
  · intro hsettled u r hrun hu
    exact WaitState.proper_of_settled hs hstep hsettled hrun hu
  · intro hall
    by_contra hsettled
    obtain ⟨u,r,hrun,hu,hr⟩ := WaitState.exists_improper hs hstep hsettled
    exact hr (hall u r hrun hu)

namespace WaitState

/-- A new queue, and memory full of zeros. -/
def new : WaitState := .start GpuRun.start.driver fun _ => 0

def scanout : WaitingCall := .setScanout 0 1 800 600

/-- The first `set_scanout` on a new queue. -/
theorem new_scanout_proper : ∃ s t, (waitSystem .dev).Reachable s ∧
    (waitSystem .dev).step s .submit t ∧
    ∀ u r, (singleSystem .dev).Run t u → u.returned = t.returned ++ [r] → r.Proper := by
  have hnew : (waitSystem .dev).Reachable new := .init ⟨_,_,rfl,rfl⟩
  have hclear : (waitSystem .dev).step new (.clear scanout) (new.clear scanout) := .clear rfl rfl
  have hsubmit : (waitSystem .dev).step (new.clear scanout) .submit _ := .submit rfl rfl
  exact ⟨_,_,hnew.step hclear,hsubmit,
    ((waitSystem_proper .dev).2 _ _ (hnew.step hclear) hsubmit).mp ⟨rfl,rfl⟩⟩

theorem exists_flushed {build : Profile} {s : WaitState} (hs : (waitSystem build).Reachable s)
    (hpc : s.pc = .idle) {calls : List FlushArgs} {host : FlushCalls}
    (h : calls.foldlM (FlushCalls.step build) s.host = .ok host) :
    ∃ n, (waitSystem build).Reachable {s with host,published := n} := by
  induction calls generalizing s with
  | nil =>
    cases h
    exact ⟨s.published,hs⟩
  | cons args calls ih =>
    rw [List.foldlM_cons] at h
    obtain ⟨mid,hmid,h⟩ := bind_inv h
    have hs' : (waitSystem build).Reachable _ := hs.step (.flush hpc hmid)
    obtain ⟨n,hn⟩ := ih hs' hpc h
    exact ⟨n,hn⟩

/-- One flush, which the device has not completed, and a `set_scanout`. -/
theorem scanout_afterFlush_improper : ¬∀ s, (waitSystem .dev).Reachable s →
    ∀ r ∈ s.returned, r.Proper := by
  intro hall
  have hnew : (waitSystem .dev).Reachable new := .init ⟨_,_,rfl,rfl⟩
  obtain ⟨host,hflush,hpc,hidx,a,b,driver,hsubmit⟩ : ∃ host,
      (List.replicate 6 ⟨1,800,600⟩).foldlM (FlushCalls.step .dev) new.host = .ok host ∧
      host.pc = .idle ∧ host.driver.queue.available.idx = 2 ∧
      ∃ a b d, host.driver.submit .dev scanout.command scanout.replyLen = .ok (a,b,d) :=
    ⟨_,rfl,rfl,rfl,_,_,_,rfl⟩
  obtain ⟨n,hs⟩ := exists_flushed hnew rfl hflush
  let s : WaitState := {new with host,published := n}
  have hcleared : (waitSystem .dev).Reachable (s.clear scanout) := hs.step (.clear rfl hpc)
  have hstep : (waitSystem .dev).step (s.clear scanout) .submit _ := .submit rfl hsubmit
  have hsettled : ¬(s.clear scanout).Settled := by
    rintro ⟨hlen,_⟩
    have hzero : n = 0 := hlen.symm
    have hn : host.driver.queue.available.idx = UInt16.ofNat n := (Inv.reachable hs).idx
    rw [hidx,hzero] at hn
    exact absurd hn (by decide)
  obtain ⟨u,r,hrun,hu,hr⟩ := exists_improper hcleared hstep hsettled
  have hu' : (waitSystem .dev).Reachable u := (hcleared.step hstep).run hrun.of_guard
  exact hr (hall u hu' r (hu ▸ List.mem_concat_self))

end WaitState
end PolymorphOS
