import PolymorphOS.Runs
import PolymorphOS.VirtioGpu

/-! Any sequence of GPU calls: the free list keeps all descriptors, and the available ring holds
well-formed chains in the order they were published. -/
namespace PolymorphOS
namespace VirtioGpuDriver

open VirtQueue

variable {d : VirtioGpuDriver} {l p : List (Fin 64)} {a b c e : Fin 64}

theorem submit_spec (build : Profile) (command : GpuCommand) (replyLen : UInt32)
    (h : d.queue.Free (a :: b :: l)) (hlog : d.queue.Logged p) :
    ∃ d', d.submit build command replyLen = .ok (a,b,d') ∧ d'.queue.Free l ∧
      d'.queue.Chain a b ∧ d'.queue.Logged (p ++ [a]) := by
  have htaken : d.queue.Free ([a] ++ b :: l) := h
  obtain ⟨q,hq,hfree,hdesc,havail⟩ := htaken.unlink build (n := 2) rfl
  have hnext : deref (q.link a) = some b := by
    rw [link,hdesc]
    exact h.next
  have hne : a ≠ b := fun he => (List.nodup_cons.mp h.nodup).1 (he ▸ List.mem_cons_self)
  have hset : deref ((q.load a (d.address 0) (UInt32.ofNat command.size) virtqDescFNext).link a) =
      some b := by
    rw [load_link]
    exact hnext
  let q₁ := q.load a (d.address 0) (UInt32.ofNat command.size) virtqDescFNext
  let q₂ := q₁.load b (d.address 512) replyLen virtqDescFWrite
  have heq : d.submit build command replyLen =
      .ok (a,b,{d with mailbox := d.mailbox.write 0 command,queue := q₂.publish a}) := by
    simp only [submit,index_of_deref h.head,index_of_deref h.next,hq,bind,Except.bind,
      setNext_self hset]
    rfl
  refine ⟨_,heq,?_,?_,?_⟩
  · exact hfree.load.load.congr rfl rfl rfl
  · exact (Chain.load hne hnext).congr rfl fun _ => rfl
  · have hlog' : q₂.Logged p := hlog.congr havail
    exact hlog'.publish a

/-- A waiting call gives its pair back in front. -/
theorem reclaim_spec (build : Profile) (h : d.queue.Free l) (hchain : d.queue.Chain a b)
    (hnd : (a :: b :: l).Nodup) (hlog : d.queue.Logged p) :
    ∃ d', d.reclaim build a b = .ok d' ∧ d'.queue.Free (a :: b :: l) ∧ d'.queue.Chain a b ∧
      d'.queue.Logged p := by
  have hseg := Free.relink h.segment hchain.next hnd
  obtain ⟨q,hq,hfree,hdesc,havail⟩ := Free.addFree build (n := 2) hseg hnd
    (by rw [relink_numFree,h.numFree]; rfl)
  refine ⟨{d with queue := q},?_,hfree,?_,hlog.congr havail⟩
  · simp only [reclaim,hq,bind,Except.bind]
  · exact (hchain.relink hchain.distinct).of_descriptors hdesc

theorem grab_spec (build : Profile) (h : d.queue.Free (a :: b :: c :: e :: l)) :
    ∃ q, d.grab build = .ok (⟨a,b,c,e⟩,{d with queue := q}) ∧ q.Free l ∧
      q.descriptors = d.queue.descriptors ∧ q.available = d.queue.available := by
  have htaken : d.queue.Free ([a,b,c] ++ e :: l) := h
  obtain ⟨q,hq,hfree,hdesc,havail⟩ := htaken.unlink build (n := 4) rfl
  obtain ⟨hb,hc,he⟩ := h.links
  refine ⟨q,?_,hfree,hdesc,havail⟩
  simp only [grab,index_of_deref h.head,index_of_deref hb,index_of_deref hc,index_of_deref he,hq,
    bind,Except.bind]

theorem submitPair_spec (build : Profile) (args : FlushArgs)
    (h : d.queue.Free (a :: b :: c :: e :: l)) (hlog : d.queue.Logged p) :
    ∃ d', d.submitPair build args = .ok (⟨a,b,c,e⟩,d') ∧ d'.queue.Free l ∧
      d'.queue.Chain a b ∧ d'.queue.Chain c e ∧ d'.queue.Logged (p ++ [a,c]) := by
  have hdraft : ((d.draftTransfer args).draftFlush args).queue.Free (a :: b :: c :: e :: l) := h
  obtain ⟨q,hq,hfree,hdesc,havail⟩ := grab_spec build hdraft
  have hlink : q.link = d.queue.link := by
    funext i
    rw [link,link,hdesc]
    rfl
  obtain ⟨hb,_,he⟩ := h.links
  have hnd := h.nodup
  simp only [List.nodup_cons,List.mem_cons,not_or] at hnd
  obtain ⟨⟨hab,hac,hae,_⟩,⟨hbc',hbe,_⟩,⟨hce',_⟩,_⟩ := hnd
  let q₁ := q.load a (d.address 0) 56 virtqDescFNext
  let q₂ := q₁.load b (d.address 512) 24 virtqDescFWrite
  let q₃ := q₂.load c (d.address cmd2Offset) 48 virtqDescFNext
  let q₄ := q₃.load e (d.address 528) 24 virtqDescFWrite
  have hab₂ : q₂.Chain a b := by
    apply Chain.load hab
    rw [hlink]
    exact hb
  have hab₄ : q₄.Chain a b := (hab₂.load_of_ne hac hbc').load_of_ne hae hbe
  have hce₄ : q₄.Chain c e := by
    apply Chain.load hce'
    rw [load_link,load_link,hlink]
    exact he
  have hlog₄ : q₄.Logged p := hlog.congr havail
  let d₁ : VirtioGpuDriver := {(d.draftTransfer args).draftFlush args with queue := q}
  let d₂ := ((d₁.loadTransfer ⟨a,b,c,e⟩).loadFlush ⟨a,b,c,e⟩).publishPair ⟨a,b,c,e⟩
  have hd₂ : d.submitPair build args = .ok (⟨a,b,c,e⟩,d₂) := by
    rw [submitPair,hq]
    rfl
  have hqueue : d₂.queue = (q₄.publish a).publish c := hlog₄.publish_pair a c
  refine ⟨d₂,hd₂,?_⟩
  rw [hqueue]
  refine ⟨hfree.load.load.load.load.congr rfl rfl rfl,hab₄.congr rfl fun _ => rfl,
    hce₄.congr rfl fun _ => rfl,?_⟩
  have hlog' := (hlog₄.publish a).publish c
  rw [List.append_assoc] at hlog'
  exact hlog'

/-- The first pair comes back on the remaining list, and the second in front of it. -/
theorem reclaimPair_spec (build : Profile) (h : d.queue.Free l) (hab : d.queue.Chain a b)
    (hce : d.queue.Chain c e) (hnd : (c :: e :: a :: b :: l).Nodup) :
    ∃ q, d.reclaimPair build ⟨a,b,c,e⟩ = .ok {d with queue := q} ∧
      q.Free (c :: e :: a :: b :: l) ∧ q.available = d.queue.available ∧
      q.descriptors = ((d.queue.relink a b).relink c e).descriptors := by
  have hnd' := (List.nodup_cons.mp (List.nodup_cons.mp hnd).2).2
  have hcb : c ≠ b := by
    rintro rfl
    exact (List.nodup_cons.mp hnd).1 (by simp)
  have hce' := hce.relink (a := a) hcb
  have hseg := Free.relink (Free.relink h.segment hab.next hnd') hce'.next hnd
  obtain ⟨q,hq,hfree,hdesc,havail⟩ := Free.addFree build (n := 4) hseg hnd
    (by rw [relink_numFree,relink_numFree,h.numFree]; rfl)
  refine ⟨q,?_,hfree,havail,hdesc⟩
  simp only [reclaimPair,hq,bind,Except.bind]

end VirtioGpuDriver

/-- One call of the driver, with what a waiting one will read as its reply. -/
inductive GpuCall
  | flushToScreen (args : FlushArgs)
  | getDisplayInfo (reply : Reply)
  | create2dCanvas (resourceId width height : UInt32) (reply : Reply)
  | attachBacking (resourceId : UInt32) (backBufferPhys : UInt64) (bufferLength : UInt32)
    (reply : Reply)
  | setScanout (scanoutId resourceId width height : UInt32) (reply : Reply)

namespace GpuCall

/-- The calls that give their descriptors back: any `get_display_info`, and the others when the
device replies `RespOkNodata`. -/
def Answered : GpuCall → Prop
  | .create2dCanvas _ _ _ reply => reply.ty = CommandTy.respOkNodata.code
  | .attachBacking _ _ _ reply => reply.ty = CommandTy.respOkNodata.code
  | .setScanout _ _ _ _ reply => reply.ty = CommandTy.respOkNodata.code
  | _ => True

/-- The call up to the doorbell, with the heads it has put in the available ring. -/
def submit (build : Profile) (d : VirtioGpuDriver) :
    GpuCall → Except Panic (List (Fin 64) × VirtioGpuDriver)
  | .flushToScreen args =>
    if d.queue.numFree < 4 then .ok ([],d)
    else do
      let (f,d) ← d.submitPair build args
      .ok ([f.headIdx,f.idx3],d)
  | .getDisplayInfo _ => do
    let (headIdx,_,d) ← d.submit build VirtioGpuDriver.displayInfoCommand 408
    .ok ([headIdx],d)
  | .create2dCanvas resourceId width height _ => do
    let command := VirtioGpuDriver.create2dCommand resourceId width height
    let (headIdx,_,d) ← d.submit build command 24
    .ok ([headIdx],d)
  | .attachBacking resourceId backBufferPhys bufferLength _ => do
    let command := VirtioGpuDriver.attachBackingCommand resourceId backBufferPhys bufferLength
    let (headIdx,_,d) ← d.submit build command 24
    .ok ([headIdx],d)
  | .setScanout scanoutId resourceId width height _ => do
    let command := VirtioGpuDriver.setScanoutCommand scanoutId resourceId width height
    let (headIdx,_,d) ← d.submit build command 24
    .ok ([headIdx],d)

/-- The whole call. -/
def run (build : Profile) (d : VirtioGpuDriver) : GpuCall → Except Panic VirtioGpuDriver
  | .flushToScreen args => d.flushToScreen build args
  | .getDisplayInfo reply => (d.getDisplayInfo build reply).map Prod.snd
  | .create2dCanvas resourceId width height reply =>
    (d.create2dCanvas build resourceId width height reply).map Prod.snd
  | .attachBacking resourceId backBufferPhys bufferLength reply =>
    (d.attachBacking build resourceId backBufferPhys bufferLength reply).map Prod.snd
  | .setScanout scanoutId resourceId width height reply =>
    (d.setScanout build scanoutId resourceId width height reply).map Prod.snd

/-- What one call does from a queue whose free list is whole: it publishes disjoint chains, in
order, and they stand when the doorbell rings and when the call returns. -/
structure Served (build : Profile) (call : GpuCall) (d : VirtioGpuDriver) (p : List (Fin 64))
    (chains : List (Fin 64 × Fin 64)) (d₁ d₂ : VirtioGpuDriver) : Prop where
  submit : call.submit build d = .ok (chains.map Prod.fst,d₁)
  run : call.run build d = .ok d₂
  disjoint : (chains.flatMap fun c => [c.1,c.2]).Nodup
  rung : ∀ c ∈ chains, d₁.queue.Chain c.1 c.2
  returned : ∀ c ∈ chains, d₂.queue.Chain c.1 c.2
  ring : d₁.queue.Logged (p ++ chains.map Prod.fst)
  logged : d₂.queue.Logged (p ++ chains.map Prod.fst)
  free : ∃ l, l.length = 64 ∧ d₂.queue.Free l

variable {d : VirtioGpuDriver} {l p : List (Fin 64)}

theorem served_flushToScreen (build : Profile) (args : FlushArgs) (h : d.queue.Free l)
    (hlen : l.length = 64) (hlog : d.queue.Logged p) :
    ∃ chains d₁ d₂, Served build (.flushToScreen args) d p chains d₁ d₂ := by
  have hnum : ¬d.queue.numFree < 4 := by
    rw [UInt16.lt_iff_toNat_lt,h.numFree,hlen]
    decide
  obtain ⟨a,b,c,e,l,rfl⟩ := VirtQueue.Free.exists_four (l := l) (by omega)
  obtain ⟨d₁,hd₁,hfree,hab,hce,hlog₁⟩ := VirtioGpuDriver.submitPair_spec build args h hlog
  have hswap : ([c,e] ++ [a,b]).Perm ([a,b] ++ [c,e]) := List.perm_append_comm
  have hperm : (c :: e :: a :: b :: l).Perm (a :: b :: c :: e :: l) := hswap.append_right l
  have hnd := hperm.nodup_iff.mpr h.nodup
  obtain ⟨q,hq,hfree₂,havail,hdesc⟩ :=
    VirtioGpuDriver.reclaimPair_spec build hfree hab hce hnd
  have hne := h.nodup
  simp only [List.nodup_cons,List.mem_cons,not_or] at hne
  obtain ⟨⟨_,_,hae,_⟩,⟨hbc,_⟩,_⟩ := hne
  have hab₂ : q.Chain a b := ((hab.relink hab.distinct).relink hae).of_descriptors hdesc
  have hce₂ : q.Chain c e :=
    ((hce.relink (Ne.symm hbc)).relink hce.distinct).of_descriptors hdesc
  refine ⟨[(a,b),(c,e)],d₁,{d₁ with queue := q},?_,?_,?_,?_,?_,hlog₁,hlog₁.congr havail,_,
    hperm.length_eq.trans hlen,hfree₂⟩
  · simp only [submit,if_neg hnum,hd₁,bind,Except.bind,List.map_cons,List.map_nil]
  · simp only [run,VirtioGpuDriver.flushToScreen,if_neg hnum,hd₁,bind,Except.bind,hq]
  · exact (List.nodup_append.mp (show ([a,b,c,e] ++ l).Nodup from h.nodup)).1
  · intro x hx
    rcases List.mem_pair.mp hx with rfl | rfl
    · exact hab
    · exact hce
  · intro x hx
    rcases List.mem_pair.mp hx with rfl | rfl
    · exact hab₂
    · exact hce₂

/-- A waiting call that gives its pair back. -/
theorem served_waiting {build : Profile} {call : GpuCall} (command : GpuCommand)
    (replyLen : UInt32) (usedIdx : UInt16) (h : d.queue.Free l) (hlen : l.length = 64)
    (hlog : d.queue.Logged p)
    (hsubmit : ∀ a b d₁, d.submit build command replyLen = .ok (a,b,d₁) →
      call.submit build d = .ok ([a],d₁))
    (hrun : ∀ a b d₁ d₂, d.submit build command replyLen = .ok (a,b,d₁) →
      (d₁.wake usedIdx).reclaim build a b = .ok d₂ → call.run build d = .ok d₂) :
    ∃ chains d₁ d₂, Served build call d p chains d₁ d₂ := by
  obtain ⟨a,b,l,rfl⟩ : ∃ a b r, l = a :: b :: r := by
    match l,hlen with
    | a :: b :: r,_ => exact ⟨a,b,r,rfl⟩
  obtain ⟨d₁,hd₁,hfree,hab,hlog₁⟩ := VirtioGpuDriver.submit_spec build command replyLen h hlog
  have hwake : (d₁.wake usedIdx).queue.Free l := hfree.congr rfl rfl rfl
  obtain ⟨d₂,hd₂,hfree₂,hab₂,hlog₂⟩ := VirtioGpuDriver.reclaim_spec build hwake
    (hab.congr rfl fun _ => rfl) h.nodup (hlog₁.congr rfl)
  refine ⟨[(a,b)],d₁,d₂,hsubmit a b d₁ hd₁,hrun a b d₁ d₂ hd₁ hd₂,?_,?_,?_,hlog₁,hlog₂,_,hlen,hfree₂⟩
  · exact (List.nodup_append.mp (show ([a,b] ++ l).Nodup from h.nodup)).1
  · intro x hx
    cases List.mem_singleton.mp hx
    exact hab
  · intro x hx
    cases List.mem_singleton.mp hx
    exact hab₂

/-- `RespOkNodata` makes the other waiting calls give their pair back too. -/
theorem served_request {build : Profile} {call : GpuCall} (command : GpuCommand)
    (failure : String) {reply : Reply} (hreply : reply.ty = CommandTy.respOkNodata.code)
    (h : d.queue.Free l) (hlen : l.length = 64) (hlog : d.queue.Logged p)
    (hsubmit : ∀ a b d₁, d.submit build command 24 = .ok (a,b,d₁) →
      call.submit build d = .ok ([a],d₁))
    (hrun : call.run build d = (d.request build command failure reply).map Prod.snd) :
    ∃ chains d₁ d₂, Served build call d p chains d₁ d₂ := by
  apply served_waiting command 24 reply.usedIdx h hlen hlog hsubmit
  intro a b d₁ d₂ hd₁ hd₂
  rw [hrun]
  simp only [VirtioGpuDriver.request,hd₁,bind,Except.bind,if_pos hreply,hd₂,Except.map]

theorem exists_served (build : Profile) {call : GpuCall} (ha : call.Answered)
    (h : d.queue.Free l) (hlen : l.length = 64) (hlog : d.queue.Logged p) :
    ∃ chains d₁ d₂, Served build call d p chains d₁ d₂ := by
  cases call with
  | flushToScreen args => exact served_flushToScreen build args h hlen hlog
  | getDisplayInfo reply =>
    apply served_waiting VirtioGpuDriver.displayInfoCommand 408 reply.usedIdx h hlen hlog
    · intro a b d₁ hd₁
      simp only [submit,hd₁,bind,Except.bind]
    · intro a b d₁ d₂ hd₁ hd₂
      simp only [run,VirtioGpuDriver.getDisplayInfo,hd₁,bind,Except.bind,hd₂,Except.map]
  | create2dCanvas resourceId width height reply =>
    apply served_request _ _ ha h hlen hlog _ rfl
    intro a b d₁ hd₁
    simp only [submit,hd₁,bind,Except.bind]
  | attachBacking resourceId backBufferPhys bufferLength reply =>
    apply served_request _ _ ha h hlen hlog _ rfl
    intro a b d₁ hd₁
    simp only [submit,hd₁,bind,Except.bind]
  | setScanout scanoutId resourceId width height reply =>
    apply served_request _ _ ha h hlen hlog _ rfl
    intro a b d₁ hd₁
    simp only [submit,hd₁,bind,Except.bind]

end GpuCall

/-- The driver between two calls, with all heads published so far. -/
structure GpuRun where
  driver : VirtioGpuDriver
  published : List (Fin 64)

/-- Any sequence of answered calls on a new queue. -/
def gpuSystem (build : Profile) : Runs.System GpuRun GpuCall where
  init s := s.driver.queue = .new ∧ s.published = []
  step s call t := call.Answered ∧ ∃ heads d, call.submit build s.driver = .ok (heads,d) ∧
    call.run build s.driver = .ok t.driver ∧ t.published = s.published ++ heads

namespace GpuRun

variable {build : Profile} {s t : GpuRun}

/-- The invariant: all descriptors are free, and the ring holds what was published. -/
structure Inv (s : GpuRun) : Prop where
  free : ∃ l, l.length = 64 ∧ s.driver.queue.Free l
  logged : s.driver.queue.Logged s.published

theorem Inv.step {call : GpuCall} (h : Inv s) (hstep : (gpuSystem build).step s call t) : Inv t := by
  obtain ⟨ha,heads,d,hsubmit,hrun,hpublished⟩ := hstep
  obtain ⟨l,hlen,hfree⟩ := h.free
  obtain ⟨chains,d₁,d₂,hserved⟩ := GpuCall.exists_served build ha hfree hlen h.logged
  have hheads : heads = chains.map Prod.fst :=
    (Prod.mk.inj (Except.ok.inj (hsubmit.symm.trans hserved.submit))).1
  have hdriver : t.driver = d₂ := Except.ok.inj (hrun.symm.trans hserved.run)
  constructor
  · rw [hdriver]
    exact hserved.free
  · rw [hdriver,hpublished,hheads]
    exact hserved.logged

theorem Inv.reachable (h : (gpuSystem build).Reachable s) : Inv s := by
  apply h.invariant
  · intro s hs
    constructor
    · exact ⟨_,List.length_finRange,hs.1 ▸ .new⟩
    · rw [hs.1,hs.2]
      exact .new
  · exact fun _ _ _ => Inv.step

end GpuRun

/-- What holds of the queue between any two calls, and of what the next call publishes. -/
structure QueueIntact (build : Profile) (s : GpuRun) : Prop where
  numFree : s.driver.queue.numFree = 64
  walk : ∃ l, s.driver.queue.walk 64 = some l ∧ l.Perm (List.finRange 64)
  ring : s.driver.queue.Logged s.published
  calls : ∀ call : GpuCall, call.Answered →
    ∃ chains d₁ d₂, call.Served build s.driver s.published chains d₁ d₂

theorem gpuSystem_intact {build : Profile} {s : GpuRun} (h : (gpuSystem build).Reachable s) :
    QueueIntact build s := by
  have hinv := GpuRun.Inv.reachable h
  obtain ⟨l,hlen,hfree⟩ := hinv.free
  refine ⟨?_,⟨l,?_,?_⟩,hinv.logged,?_⟩
  · rw [← UInt16.toNat_inj,hfree.numFree,hlen]
    rfl
  · have hwalk := hfree.walk_eq
    rw [hlen] at hwalk
    exact hwalk
  · have hsub := List.subperm_of_subset hfree.nodup fun i _ => List.mem_finRange i
    apply hsub.perm_of_length_le
    rw [hlen,List.length_finRange]
  · exact fun call ha => GpuCall.exists_served build ha hfree hlen hinv.logged

/-- A driver whose queue is new. -/
def GpuRun.start : GpuRun := ⟨⟨⟨0x200000,by decide⟩,fun _ => none,.new⟩,[]⟩

/-- One `flush_to_screen` later. -/
def GpuRun.oneFlush : GpuRun where
  driver := ((start.driver.flushToScreen .dev ⟨1,800,600⟩).toOption).getD start.driver
  published := [0,2]

theorem GpuRun.oneFlush_reachable : (gpuSystem .dev).Reachable oneFlush := by
  have hstart : (gpuSystem .dev).Reachable start := .init ⟨rfl,rfl⟩
  exact hstart.step (a := .flushToScreen ⟨1,800,600⟩) ⟨trivial,[0,2],_,rfl,rfl,rfl⟩

theorem oneFlush_intact : QueueIntact .dev .oneFlush := gpuSystem_intact GpuRun.oneFlush_reachable

end PolymorphOS
