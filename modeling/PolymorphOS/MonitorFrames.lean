import PolymorphOS.HostScreen

/-! Runs of the screen: what the display shows when the device has kept up, and that a frame can
reach it. -/
namespace PolymorphOS
namespace ScreenState

open StagedCopy

variable {build : Profile} {physMemOffset : UInt64} {backBuffer : PhysAddr} {s : ScreenState}

/-- What is painted, and what the latest frame showed of it. -/
structure Pictured (m : Monitor) (s : ScreenState) : Prop where
  valid : s.display.gpu.Valid
  canvas : s.display.gpu.Shows m.canvas
  latest : ∀ before frame, s.ledger.frames = before ++ [frame] →
    ∀ x y, s.display.gpu.OnScreen x y →
      GpuDriver.pixelAt frame (s.display.gpu.index x y) = m.shown x y

theorem Pictured.step {m : Monitor} (hs : s.Pictured m) (h : s.Inv physMemOffset backBuffer)
    {a : ScreenAction} {t : ScreenState} (hstep : ScreenStep build physMemOffset s a t)
    (hrange : ∀ call, a = .draw call → call.InRange) :
    t.Pictured (a.display?.toList.foldl Monitor.act m) := by
  cases hstep with
  | draw hpc hdraw =>
    obtain ⟨gpu,hgpu,hdisplay⟩ := bind_inv hdraw
    cases hdisplay
    obtain ⟨hshape,hvalid,hshows⟩ :=
      (GpuDriver.draw_shows hs.valid hs.canvas (hrange _ rfl)).of_ok hgpu
    refine ⟨hvalid,hshows,fun before frame hframes x y hxy => ?_⟩
    rw [hshape.onScreen] at hxy
    rw [hshape.index]
    exact hs.latest before frame hframes x y hxy
  | swap hpc hbacking =>
    refine ⟨hs.valid,hs.canvas,fun before frame hframes x y hxy => ?_⟩
    obtain ⟨_,hframe⟩ := List.append_inj' hframes rfl
    cases hframe
    rw [Display.copied,if_pos hbacking]
    exact (hs.canvas x y hxy).1
  | process _ hstep =>
    cases hstep with
    | process hseen =>
      obtain ⟨kind,hbegin,_⟩ := h.begin_eq hseen
      rw [hbegin]
      exact ⟨hs.valid,hs.canvas,hs.latest⟩
  | _ => exact ⟨hs.valid,hs.canvas,hs.latest⟩

theorem trace_pictured {m : Monitor} {booted : ScreenState} {actions : List ScreenAction}
    (h : booted.Inv physMemOffset backBuffer) (hm : booted.Pictured m)
    (hrange : ∀ call, .draw call ∈ actions → call.InRange)
    (htrace : (screenSystem build physMemOffset).Trace booted actions s) :
    s.Inv physMemOffset backBuffer ∧
      s.Pictured ((actions.filterMap ScreenAction.display?).foldl Monitor.act m) := by
  induction htrace generalizing m with
  | nil => exact ⟨h,hm⟩
  | @cons s t _ a actions hstep _ ih =>
    have hnext := hm.step h hstep fun call ha => hrange call (ha ▸ List.mem_cons_self)
    have hrest := ih (h.step hstep) hnext fun call hcall => hrange call (List.mem_cons_of_mem _ hcall)
    rw [List.filterMap_cons]
    cases hdisplay : a.display? with
    | none =>
      rw [hdisplay] at hrest
      exact hrest
    | some action =>
      rw [hdisplay] at hrest
      exact hrest

theorem Pictured.start (hinit : (screenSystem build physMemOffset).init s) {c : Canvas}
    (hc : s.display.gpu.Shows c) (shown : ℤ → ℤ → Rgb) : s.Pictured ⟨c,shown⟩ := by
  obtain ⟨_,_,_,_,_,_,_,_,_,_,_,hdisplay,hnebula,_,_,_,_,_,hledger⟩ := hinit
  have hsize : bytesNeeded = 8294400 := rfl
  refine ⟨⟨?_,?_,?_,?_,?_,?_⟩,hc,fun before frame hframes => ?_⟩
  · rw [hdisplay.width]
    decide
  · rw [hdisplay.height]
    decide
  · rw [hdisplay.bytesPerPixel]
    decide
  · rw [hdisplay.width,hdisplay.height,hdisplay.bytesPerPixel,hdisplay.length]
    exact hsize.ge
  · rw [hnebula,hdisplay.length]
  · rw [hdisplay.length]
    omega
  · rw [hledger] at hframes
    exact absurd hframes.symm (List.append_ne_nil_of_right_ne_nil _ (List.cons_ne_nil _ _))

/-- The desktop is drawing, and the device has nothing more to do and came to everything in time. -/
structure CaughtUp (s : ScreenState) : Prop where
  drawing : s.pc = .drawing
  idle : s.task = .idle
  seen : s.gpu.seen = s.gpu.host.driver.queue.available.idx
  prompt : s.Prompt

/-- What the display shows of a pixel. -/
def monitorPixel (s : ScreenState) (x y : ℤ) : Rgb :=
  let i := s.display.gpu.index x y
  ⟨s.host.shown (i + 2),s.host.shown (i + 1),s.host.shown i⟩

/-- All entries there are have been executed. -/
theorem Inv.executed_eq (h : s.Inv physMemOffset backBuffer)
    (hseen : s.gpu.seen = s.gpu.host.driver.queue.available.idx) :
    s.gpu.executed.length = 2 * s.gpu.host.published := by
  obtain ⟨f₀,rest,p,n,hqueue⟩ := h.queue
  have hle := hqueue.executed_le
  have houtstanding := hqueue.outstanding
  have hsame := congrArg UInt16.toNat ((hqueue.seen.symm.trans hseen).trans hqueue.idx)
  rw [UInt16.toNat_ofNat',UInt16.toNat_ofNat'] at hsame
  omega

/-- If all entries have been executed, no entry is left. -/
theorem Inv.seen_eq (h : s.Inv physMemOffset backBuffer)
    (hall : s.gpu.executed.length = 2 * s.gpu.host.published) :
    s.gpu.seen = s.gpu.host.driver.queue.available.idx := by
  obtain ⟨f₀,rest,p,n,hqueue⟩ := h.queue
  rw [hqueue.seen,hqueue.idx,hall]

theorem Inv.published_eq (h : s.Inv physMemOffset backBuffer) (hpc : s.pc = .drawing) :
    s.gpu.host.published = s.count := by
  obtain ⟨f₀,rest,p,n,hqueue⟩ := h.queue
  have hreached := h.reached
  rw [hpc] at hreached
  obtain ⟨hidle,hcount,_⟩ := hreached
  have hpublished := hqueue.host.counts.published
  have hcalls := hqueue.host.counts.calls
  rw [hidle] at hpublished hcalls
  rw [hpublished,← hcount,hcalls]
  rfl

/-- Then the display shows the latest frame. -/
theorem Inv.caughtUp_shown (h : s.Inv physMemOffset backBuffer) (hs : s.CaughtUp)
    (i : Fin bytesNeeded) : s.shown.frame i = s.count := by
  have hexecuted := h.executed_eq hs.seen
  rw [h.published_eq hs.drawing] at hexecuted
  obtain ⟨_,hshown⟩ := h.progress hs.prompt
  rw [hs.idle,hexecuted,Nat.mul_div_cancel_left s.count (by decide)] at hshown
  refine le_antisymm ?_ (hshown.le i)
  exact (h.stages.resource_ahead i).trans ((h.stages.store_ahead i).trans (h.stages.store_le i))

theorem Inv.caughtUp_pixel (h : s.Inv physMemOffset backBuffer) (hs : s.CaughtUp) {m : Monitor}
    (hm : s.Pictured m) (hframes : s.ledger.frames ≠ []) {x y : ℤ}
    (hxy : s.display.gpu.OnScreen x y) : s.monitorPixel x y = m.shown x y := by
  obtain ⟨before,frame,hlast⟩ : ∃ before frame, s.ledger.frames = before ++ [frame] :=
    ⟨_,_,(List.dropLast_append_getLast hframes).symm⟩
  have hfits := GpuDriver.index_fits hm.valid hxy
  rw [h.display.length] at hfits
  have hbytes : s.display.gpu.bytesPerPixel.toNat = 4 := by
    rw [h.display.bytesPerPixel]
    rfl
  have hbyte (i : ℕ) (hi : i < bytesNeeded) : s.host.shown i = frame.getD i 0 := by
    have hcount := h.caughtUp_shown hs ⟨i,hi⟩
    have hpos : 0 < s.shown.frame ⟨i,hi⟩ := by
      rw [hcount]
      exact List.length_pos_iff.mpr hframes
    refine (h.stages.shown ⟨i,hi⟩ hpos).trans ?_
    rw [hcount]
    show (s.ledger.frames.getD (s.ledger.frames.length - 1) []).getD i 0 = _
    rw [hlast,List.length_append,List.length_singleton,Nat.add_sub_cancel,
      List.getD_append_right _ _ _ _ le_rfl,Nat.sub_self]
    rfl
  rw [← hm.latest before frame hlast x y hxy]
  exact Rgb.ext (hbyte _ (by omega)) (hbyte _ (by omega)) (hbyte _ (by omega))

end ScreenState

/-! ### A frame can reach the display -/

namespace FlushCalls

variable {build : Profile} {f₀ : FlushDescriptors} {rest p : List (Fin 64)} {n m : ℕ}
  {s t : FlushCalls} {args : FlushArgs}

/-- The effects of a call come one after the other. -/
theorem step_phase (h : s.step build args = .ok t) (hnum : s.pc = .idle → ¬s.driver.queue.numFree < 4) :
    t.pc.phase = if s.pc.phase = 5 then 0 else s.pc.phase + 1 := by
  unfold step at h
  cases hpc : s.pc with
  | idle =>
    simp only [hpc,if_neg (hnum hpc)] at h
    cases h
    rfl
  | drafted =>
    simp only [hpc] at h
    obtain ⟨_,_,h⟩ := bind_inv h
    cases h
    rfl
  | published f =>
    simp only [hpc] at h
    obtain ⟨_,_,h⟩ := bind_inv h
    cases h
    rfl
  | _ =>
    simp only [hpc] at h
    cases h
    rfl

/-- The entries of the latest call are intact once it has returned. -/
theorem Inv.intact (h : s.Inv f₀ rest p n) (hpc : s.pc = .idle)
    (hm : m / 2 + 1 = s.calls.length) : s.Intact m := by
  have hcalls := h.counts.calls
  have htransferDrafts := h.counts.transferDrafts
  have hflushDrafts := h.counts.flushDrafts
  have htransferLoads := h.counts.transferLoads
  have hflushLoads := h.counts.flushLoads
  rw [hpc] at hcalls htransferDrafts hflushDrafts htransferLoads hflushLoads
  change s.calls.length = n at hcalls
  change s.drafts .transfer = n at htransferDrafts
  change s.drafts .flush = n at hflushDrafts
  change s.loads .transfer = n at htransferLoads
  change s.loads .flush = n at hflushLoads
  have hlast : n - 1 - m / 2 = 0 := by omega
  have hdrafts : s.drafts (.nth m) - 1 = m / 2 := by
    cases FlushKind.nth m with
    | transfer => omega
    | flush => omega
  refine ⟨?_,by rw [hdrafts]⟩
  rw [target,htransferLoads,hflushLoads,if_pos rfl,hlast,if_pos Even.zero]

end FlushCalls

namespace ScreenState

variable {build : Profile} {physMemOffset : UInt64} {backBuffer : PhysAddr} {s : ScreenState}

/-- The memory once these bytes have been copied. -/
def memoryAfter (d : Display) (left : Finset ℕ) : Memory := fun addr =>
  if (addr - d.backing).toNat ∈ left then d.copied.getD (addr - d.backing).toNat 0
  else d.memory addr

theorem memoryAfter_insert (d : Display) {i : ℕ} (left : Finset ℕ) (hi : i < 2^63) :
    memoryAfter {d with memory := Function.update d.memory (d.address i) (d.copied.getD i 0)} left =
      memoryAfter d (insert i left) := by
  funext addr
  show (if (addr - d.backing).toNat ∈ left then d.copied.getD (addr - d.backing).toNat 0
    else Function.update d.memory (d.address i) (d.copied.getD i 0) addr) = _
  rw [memoryAfter]
  by_cases hmem : (addr - d.backing).toNat ∈ left
  · rw [if_pos hmem,if_pos (Finset.mem_insert_of_mem hmem)]
  rw [if_neg hmem]
  by_cases haddr : addr = d.address i
  · subst haddr
    rw [Function.update_self,d.address_sub hi,if_pos (Finset.mem_insert_self i left)]
  · have hne : (addr - d.backing).toNat ≠ i := by
      rintro rfl
      apply haddr
      rw [Display.address,UInt64.ofNat_toNat,UInt64.add_comm,UInt64.sub_add_cancel]
    rw [Function.update_of_ne haddr,
      if_neg fun hmem' => (Finset.mem_insert.mp hmem').elim hne hmem]

/-- All bytes are what `swap_buffers` copies. -/
theorem memoryAfter_range (d : Display) :
    memoryAfter d (Finset.range d.copied.length) = d.swapBuffers.memory := by
  funext addr
  show _ = d.copied.getD (addr - d.backing).toNat (d.memory addr)
  rw [memoryAfter]
  by_cases hi : (addr - d.backing).toNat < d.copied.length
  · rw [if_pos (Finset.mem_range.mpr hi),List.getD_eq_getElem _ _ hi,List.getD_eq_getElem _ _ hi]
  · rw [if_neg fun hmem => hi (Finset.mem_range.mp hmem),
      List.getD_eq_default _ _ (Nat.le_of_not_lt hi)]

/-- The bytes that are left, in some order. -/
theorem run_copies (build : Profile) (physMemOffset : UInt64) {left : Finset ℕ}
    (hpc : s.pc = .copying left) (hlt : ∀ i ∈ left, i < 2^63) : ∃ store,
    (screenSystem build physMemOffset).Run s {s with
      display := {s.display with memory := memoryAfter s.display left}
      pc := .copying ∅
      ledger := {s.ledger with store}} := by
  induction left using Finset.induction_on generalizing s with
  | empty =>
    refine ⟨s.ledger.store,?_⟩
    rw [← hpc]
    exact .refl
  | insert i left hi ih =>
    have hstep : ScreenStep build physMemOffset s (.copy i) (s.copyByte (insert i left) i) :=
      .copy hpc (Finset.mem_insert_self i left)
    obtain ⟨store,hrun⟩ := ih (s := s.copyByte (insert i left) i)
      (congrArg ScreenPc.copying (Finset.erase_insert hi))
      fun j hj => hlt j (Finset.mem_insert_of_mem hj)
    refine ⟨store,.head ⟨_,hstep⟩ ?_⟩
    rw [← memoryAfter_insert s.display left (hlt i (Finset.mem_insert_self i left))]
    exact hrun

theorem run_transfers (build : Profile) (physMemOffset : UInt64) {cmd : TransferToHost2d}
    {left : Finset ℕ} (htask : s.task = .transfer cmd left) :
    ∃ host resource, (screenSystem build physMemOffset).Run s {s with
      host := host
      task := .transfer cmd ∅
      ledger := {s.ledger with resource}} := by
  induction left using Finset.induction_on generalizing s with
  | empty =>
    refine ⟨s.host,s.ledger.resource,?_⟩
    rw [← htask]
    exact .refl
  | insert i left hi ih =>
    have hstep : ScreenStep build physMemOffset s (.move i)
        (s.transferByte physMemOffset cmd (insert i left) i) :=
      .transfer htask (Finset.mem_insert_self i left)
    obtain ⟨host,resource,hrun⟩ := ih (s := s.transferByte physMemOffset cmd (insert i left) i)
      (congrArg (HostTask.transfer cmd) (Finset.erase_insert hi))
    exact ⟨host,resource,.head ⟨_,hstep⟩ hrun⟩

theorem run_flushes (build : Profile) (physMemOffset : UInt64) {cmd : ResourceFlush}
    {left : Finset ℕ} (htask : s.task = .flush cmd left) :
    ∃ host shown, (screenSystem build physMemOffset).Run s {s with
      host := host
      task := .flush cmd ∅
      ledger := {s.ledger with shown}} := by
  induction left using Finset.induction_on generalizing s with
  | empty =>
    refine ⟨s.host,s.ledger.shown,?_⟩
    rw [← htask]
    exact .refl
  | insert i left hi ih =>
    have hstep : ScreenStep build physMemOffset s (.move i) (s.flushByte cmd (insert i left) i) :=
      .scan htask (Finset.mem_insert_self i left)
    obtain ⟨host,shown,hrun⟩ := ih (s := s.flushByte cmd (insert i left) i)
      (congrArg (HostTask.flush cmd) (Finset.erase_insert hi))
    exact ⟨host,shown,.head ⟨_,hstep⟩ hrun⟩

/-- The device processes one entry to its end. -/
theorem Inv.run_process (build : Profile) (h : s.Inv physMemOffset backBuffer) (hidle : s.task = .idle)
    (hseen : s.gpu.seen ≠ s.gpu.host.driver.queue.available.idx) : ∃ t,
      (screenSystem build physMemOffset).Run s t ∧ t.gpu = s.gpu.process ∧ t.task = .idle ∧
      t.pc = s.pc ∧ t.display = s.display ∧ t.ledger.frames = s.ledger.frames := by
  have hstep : ScreenStep build physMemOffset s .process s.begin := .process hidle (.process hseen)
  obtain ⟨kind,hbegin,_⟩ := h.begin_eq hseen
  rw [hbegin] at hstep
  cases kind with
  | transfer =>
    obtain ⟨_,_,hrun⟩ := run_transfers build physMemOffset
      (s := {s with gpu := s.gpu.process,task := taskOf .transfer,answers := _}) rfl
    exact ⟨_,.head ⟨_,hstep⟩ (hrun.tail ⟨_,.done HostTask.noConfusion rfl⟩),rfl,rfl,rfl,rfl,rfl⟩
  | flush =>
    obtain ⟨_,_,hrun⟩ := run_flushes build physMemOffset
      (s := {s with gpu := s.gpu.process,task := taskOf .flush,answers := _}) rfl
    exact ⟨_,.head ⟨_,hstep⟩ (hrun.tail ⟨_,.done HostTask.noConfusion rfl⟩),rfl,rfl,rfl,rfl,rfl⟩

theorem Inv.published_le_count (h : s.Inv physMemOffset backBuffer) :
    s.gpu.host.published ≤ s.count := by
  have hzero : 0 < bytesNeeded := by norm_num [bytesNeeded]
  exact (h.published_le ⟨0,hzero⟩).trans (h.stages.store_le _)

/-- The next effect of `flush_to_screen`, on a device that has nearly kept up. -/
theorem Inv.exists_flush (build : Profile) (h : s.Inv physMemOffset backBuffer)
    (hroom : 2 * s.count ≤ s.gpu.executed.length + 62) : ∃ host,
      FlushStep build s.gpu (.call s.flushArgs) {s.gpu with host} ∧
      host.pc.phase = if s.gpu.host.pc.phase = 5 then 0 else s.gpu.host.pc.phase + 1 := by
  obtain ⟨f₀,rest,p,n,hqueue⟩ := h.queue
  obtain ⟨host,k,hhost,hinv,_,hle,hpublished⟩ := hqueue.host.step build s.flushArgs
  have hcount := h.published_le_count
  have hexecuted := hqueue.executed_le
  have hidx : host.driver.queue.available.idx = UInt16.ofNat (p.length + s.gpu.executed.length) +
      UInt16.ofNat (2 * host.published - s.gpu.executed.length) := by
    rw [hinv.logged.idx,List.length_append,List.length_map,List.length_range,← UInt16.ofNat_add]
    congr 1
    omega
  refine ⟨host,.call hhost ?_,FlushCalls.step_phase hhost fun he => hqueue.host.numFree he⟩
  rw [hidx,hqueue.seen,UInt16.add_comm,UInt16.add_sub_cancel,UInt16.toNat_ofNat']
  exact (Nat.mod_le _ _).trans (by omega)

theorem phase_eq_zero {pc : FlushPc} : pc.phase = 0 ↔ pc = .idle := by
  cases pc <;> simp [FlushPc.phase]

/-- All effects that are left. -/
theorem Inv.run_flush (build : Profile) {k : ℕ} (h : s.Inv physMemOffset backBuffer)
    (hpc : s.pc = .flushing) (hphase : s.gpu.host.pc.phase + k = 5)
    (hroom : 2 * s.count ≤ s.gpu.executed.length + 62) : ∃ host,
      (screenSystem build physMemOffset).Run s {s with gpu := {s.gpu with host},pc := .drawing} := by
  induction k generalizing s with
  | zero =>
    obtain ⟨host,hstep,hhost⟩ := h.exists_flush build hroom
    have hlast : s.gpu.host.pc.phase = 5 := hphase
    rw [if_pos hlast,phase_eq_zero] at hhost
    have hnext : ScreenStep build physMemOffset s .flush _ := .flush hpc hstep
    simp only [ScreenState.afterFlush,hhost] at hnext
    exact ⟨host,.single ⟨_,hnext⟩⟩
  | succ k ih =>
    obtain ⟨host,hstep,hhost⟩ := h.exists_flush build hroom
    rw [if_neg (by omega)] at hhost
    have hnext : ScreenStep build physMemOffset s .flush _ := .flush hpc hstep
    have hinv := h.afterFlush hpc hstep
    have hafter : s.afterFlush {s.gpu with host} =
        {s with gpu := {s.gpu with host},pc := .flushing} := by
      have hne : host.pc ≠ .idle := fun he => by
        rw [phase_eq_zero.mpr he] at hhost
        omega
      simp only [ScreenState.afterFlush]
    rw [hafter] at hnext hinv
    obtain ⟨host',hrun⟩ := ih hinv rfl (by show host.pc.phase + k = 5; omega) hroom
    exact ⟨host',.head ⟨_,hnext⟩ hrun⟩

theorem Inv.run (h : s.Inv physMemOffset backBuffer) {t : ScreenState}
    (hrun : (screenSystem build physMemOffset).Run s t) : t.Inv physMemOffset backBuffer :=
  hrun.preserves (I := Inv physMemOffset backBuffer) (fun _ _ _ hs hstep => hs.step hstep) h

/-- The frame comes into the backing store, and its commands into the available ring. -/
theorem Inv.run_swap (build : Profile) (h : s.Inv physMemOffset backBuffer) (hs : s.CaughtUp) :
    ∃ t, (screenSystem build physMemOffset).Run s t ∧ t.pc = .drawing ∧ t.task = .idle ∧
      t.gpu.executed = s.gpu.executed ∧ t.gpu.intact = s.gpu.intact ∧
      t.display = s.display.swapBuffers ∧
      t.ledger.frames = s.ledger.frames ++ [s.display.gpu.backBuffer] := by
  have hexecuted := h.executed_eq hs.seen
  rw [h.published_eq hs.drawing] at hexecuted
  have hsize : bytesNeeded < 2^63 := by norm_num [bytesNeeded]
  have hswap : ScreenStep build physMemOffset s .swap s.beginSwap := .swap hs.drawing h.display.backing
  obtain ⟨store,hcopies⟩ := run_copies build physMemOffset (s := s.beginSwap) rfl
    fun i hi => (Finset.mem_range.mp hi).trans (copied_length h ▸ hsize)
  rw [show s.beginSwap.display = s.display from rfl,memoryAfter_range] at hcopies
  have hcopied := Relation.ReflTransGen.tail (.head ⟨_,hswap⟩ hcopies) ⟨.copied,.copied rfl⟩
  have hinv := h.run hcopied
  have hidle : s.gpu.host.pc = .idle := by
    have hreached := h.reached
    rw [hs.drawing] at hreached
    exact hreached.1
  have hcount : s.beginSwap.count = s.count + 1 := List.length_append
  obtain ⟨host,hflush⟩ := hinv.run_flush build (k := 5) rfl
    (by show s.gpu.host.pc.phase + 5 = 5; rw [hidle]; rfl)
    (by show 2 * s.beginSwap.count ≤ s.gpu.executed.length + 62; omega)
  refine ⟨_,hcopied.trans hflush,rfl,hs.idle,rfl,rfl,rfl,?_⟩
  show s.ledger.frames ++ [s.display.copied] = _
  rw [Display.copied,if_pos h.display.backing]

/-- A device that has caught up can show the next frame too. -/
theorem Inv.exists_caughtUp (build : Profile) (h : s.Inv physMemOffset backBuffer)
    (hs : s.CaughtUp) : ∃ t, (screenSystem build physMemOffset).Run s t ∧ t.CaughtUp ∧
      t.display = s.display.swapBuffers ∧
      t.ledger.frames = s.ledger.frames ++ [s.display.gpu.backBuffer] := by
  obtain ⟨t,hrun,hpc,hidle,hexecuted,hintact,hdisplay,hframes⟩ := h.run_swap build hs
  have ht := h.run hrun
  have hcount : t.count = s.count + 1 := by
    rw [count,hframes,List.length_append,List.length_singleton,count]
  have hbefore := h.executed_eq hs.seen
  rw [h.published_eq hs.drawing,← hexecuted] at hbefore
  have hpublished := ht.published_eq hpc
  have hcalls := ht.reached
  rw [hpc] at hcalls
  obtain ⟨hreturned,hcalls,_⟩ := hcalls
  obtain ⟨f₀,rest,p,n,hqueue⟩ := ht.queue
  -- its transfer, then its flush
  have hseen : t.gpu.seen ≠ t.gpu.host.driver.queue.available.idx := by
    intro he
    have hall := ht.executed_eq he
    omega
  obtain ⟨u,hrun₁,hgpu₁,hidle₁,hpc₁,hdisplay₁,hframes₁⟩ := ht.run_process build hidle hseen
  have hu := ht.run hrun₁
  have hlength₁ : u.gpu.executed.length = t.gpu.executed.length + 1 := by
    rw [hgpu₁]
    exact List.length_append
  have hhost₁ : u.gpu.host = t.gpu.host := by rw [hgpu₁]; rfl
  have hseen₁ : u.gpu.seen ≠ u.gpu.host.driver.queue.available.idx := by
    intro he
    have hall := hu.executed_eq he
    rw [hhost₁] at hall
    omega
  obtain ⟨v,hrun₂,hgpu₂,hidle₂,hpc₂,hdisplay₂,hframes₂⟩ := hu.run_process build hidle₁ hseen₁
  have hv := hu.run hrun₂
  have hlength₂ : v.gpu.executed.length = u.gpu.executed.length + 1 := by
    rw [hgpu₂]
    exact List.length_append
  have hhost₂ : v.gpu.host = t.gpu.host := by
    rw [hgpu₂]
    exact hhost₁
  refine ⟨v,(hrun.trans hrun₁).trans hrun₂,⟨(hpc₂.trans hpc₁).trans hpc,hidle₂,hv.seen_eq ?_,?_⟩,
    (hdisplay₂.trans hdisplay₁).trans hdisplay,?_⟩
  · rw [hhost₂]
    omega
  · have hintact₁ : t.gpu.host.Intact t.gpu.executed.length :=
      hqueue.host.intact hreturned (by omega)
    have hintact₂ : u.gpu.host.Intact u.gpu.executed.length := by
      rw [hhost₁]
      exact hqueue.host.intact hreturned (by omega)
    show ∀ intact ∈ v.gpu.intact, intact = true
    rw [hgpu₂,FlushState.process,List.forall_mem_append,hgpu₁,FlushState.process,
      List.forall_mem_append,hintact]
    refine ⟨⟨hs.prompt,fun intact hmem => ?_⟩,fun intact hmem => ?_⟩
    · exact (List.mem_singleton.mp hmem).trans (decide_eq_true hintact₁)
    · refine (List.mem_singleton.mp hmem).trans (decide_eq_true ?_)
      rw [hgpu₁] at hintact₂
      exact hintact₂
  · exact (hframes₂.trans hframes₁).trans hframes

end ScreenState

end PolymorphOS
