import PolymorphOS.FlushOrder
import PolymorphOS.Frames
import PolymorphOS.GpuHost
import PolymorphOS.StagedCopy

/-! `swap_buffers` down to the monitor: the copy to the backing store byte by byte, the flush effect
by effect, and a device that transfers and shows the bytes in its own time. -/
namespace PolymorphOS

open StagedCopy

/-- Where the desktop is: it draws, or it is in `swap_buffers`. -/
inductive ScreenPc
  | drawing
  | copying (left : Finset ℕ)
  | flushing

/-- The back buffers swapped so far, and which of them each byte is from: in the backing store, on
the device, and on the display. -/
structure FrameLedger where
  frames : List (List UInt8)
  store : ℕ → ℕ
  resource : ℕ → ℕ
  shown : ℕ → ℕ

def FrameLedger.empty : FrameLedger := ⟨[],fun _ => 0,fun _ => 0,fun _ => 0⟩

/-- A byte of the `n`-th frame, counted from one. -/
def FrameLedger.byte (ledger : FrameLedger) (n i : ℕ) : UInt8 :=
  (ledger.frames.getD (n - 1) []).getD i 0

/-- The display, the driver and the device. -/
structure ScreenState where
  display : Display
  pc : ScreenPc
  gpu : FlushState
  host : GpuHost
  task : HostTask
  answers : List UInt32
  ledger : FrameLedger

inductive ScreenAction
  | draw (call : DrawCall)
  | swap
  | copy (i : ℕ)
  | copied
  | flush
  | process
  | move (i : ℕ)
  | done

/-- What the action is to the desktop. -/
def ScreenAction.display? : ScreenAction → Option DisplayAction
  | .draw call => some (.draw call)
  | .swap => some .swapBuffers
  | _ => none

namespace ScreenState

/-- `copy_nonoverlapping` has these bytes to copy. -/
def beginSwap (s : ScreenState) : ScreenState :=
  {s with
    pc := .copying (Finset.range s.display.copied.length)
    ledger := {s.ledger with frames := s.ledger.frames ++ [s.display.copied]}}

def copyByte (s : ScreenState) (left : Finset ℕ) (i : ℕ) : ScreenState :=
  let byte := s.display.copied.getD i 0
  {s with
    display := {s.display with
      memory := Function.update s.display.memory (s.display.address i) byte}
    pc := .copying (left.erase i)
    ledger := {s.ledger with store := Function.update s.ledger.store i s.ledger.frames.length}}

/-- The arguments that `swap_buffers` gives `flush_to_screen`. -/
def flushArgs (s : ScreenState) : FlushArgs :=
  ⟨1,s.display.gpu.width.toUInt32,s.display.gpu.height.toUInt32⟩

/-- One more effect of `flush_to_screen`. -/
def afterFlush (s : ScreenState) (gpu : FlushState) : ScreenState :=
  {s with
    gpu := gpu
    pc := match gpu.host.pc with
      | .idle => .drawing
      | _ => .flushing}

/-- The device goes to work on the next entry of the available ring. -/
def begin (s : ScreenState) : ScreenState :=
  match s.gpu.host.driver.fetch s.gpu.seen.toNat with
  | some cmd =>
    let (answer,host,task) := s.host.exec cmd
    {s with gpu := s.gpu.process,host,task,answers := s.answers ++ [answer]}
  | none => {s with gpu := s.gpu.process,answers := s.answers ++ [GpuHost.respErr]}

/-- The byte at a physical address, all memory being mapped at an offset. -/
def readPhys (physMemOffset : UInt64) (s : ScreenState) (addr : ℕ) : UInt8 :=
  s.display.memory (physMemOffset + UInt64.ofNat addr)

def transferByte (physMemOffset : UInt64) (s : ScreenState) (cmd : TransferToHost2d)
    (left : Finset ℕ) (i : ℕ) : ScreenState :=
  {s with
    host := s.host.transferByte (s.readPhys physMemOffset) cmd i
    task := .transfer cmd (left.erase i)
    ledger := {s.ledger with
      resource := Function.update s.ledger.resource i (s.ledger.store i)}}

def flushByte (s : ScreenState) (cmd : ResourceFlush) (left : Finset ℕ) (i : ℕ) : ScreenState :=
  {s with
    host := s.host.flushByte cmd i
    task := .flush cmd (left.erase i)
    ledger := {s.ledger with shown := Function.update s.ledger.shown i (s.ledger.resource i)}}

end ScreenState

/-- The desktop takes a step, or the device does. -/
inductive ScreenStep (build : Profile) (physMemOffset : UInt64) :
    ScreenState → ScreenAction → ScreenState → Prop
  | draw {s : ScreenState} {call : DrawCall} {display : Display} : s.pc = .drawing →
      s.display.draw build call = .ok display →
      ScreenStep build physMemOffset s (.draw call) {s with display}
  | swap {s : ScreenState} : s.pc = .drawing → s.display.backing ≠ 0 →
      ScreenStep build physMemOffset s .swap s.beginSwap
  | copy {s : ScreenState} {left : Finset ℕ} {i : ℕ} : s.pc = .copying left → i ∈ left →
      ScreenStep build physMemOffset s (.copy i) (s.copyByte left i)
  | copied {s : ScreenState} : s.pc = .copying ∅ →
      ScreenStep build physMemOffset s .copied {s with pc := .flushing}
  | flush {s : ScreenState} {gpu : FlushState} : s.pc = .flushing →
      FlushStep build s.gpu (.call s.flushArgs) gpu →
      ScreenStep build physMemOffset s .flush (s.afterFlush gpu)
  | process {s : ScreenState} : s.task = .idle →
      FlushStep build s.gpu .process s.gpu.process →
      ScreenStep build physMemOffset s .process s.begin
  | transfer {s : ScreenState} {cmd : TransferToHost2d} {left : Finset ℕ} {i : ℕ} :
      s.task = .transfer cmd left → i ∈ left →
      ScreenStep build physMemOffset s (.move i) (s.transferByte physMemOffset cmd left i)
  | scan {s : ScreenState} {cmd : ResourceFlush} {left : Finset ℕ} {i : ℕ} :
      s.task = .flush cmd left → i ∈ left →
      ScreenStep build physMemOffset s (.move i) (s.flushByte cmd left i)
  | done {s : ScreenState} : s.task ≠ .idle → s.task.left = ∅ →
      ScreenStep build physMemOffset s .done {s with task := .idle}

/-- A back buffer that is the whole screen, four bytes to a pixel, and a backing store for it. -/
structure Display.FullScreen (d : Display) : Prop where
  backing : d.backing ≠ 0
  room : d.backing.toNat + d.gpu.backBuffer.length ≤ 2^64
  width : d.gpu.width = 1920
  height : d.gpu.height = 1080
  bytesPerPixel : d.gpu.bytesPerPixel = 4
  length : d.gpu.backBuffer.length = bytesNeeded

/-- After `init_virtio_device`, on a device that had no resource 1. -/
def screenSystem (build : Profile) (physMemOffset : UInt64) :
    Runs.System ScreenState ScreenAction where
  init s := ∃ (d d' : VirtioGpuDriver) (l p : List (Fin 64)) (host : GpuHost) (backBuffer : PhysAddr),
    d.queue.Free l ∧ 4 ≤ l.length ∧ d.queue.Logged p ∧ host.resources 1 = none ∧
    d.setUpScreen build host backBuffer = .ok (d',s.host) ∧ s.display.FullScreen ∧
    s.display.gpu.nebulaBuffer.length = bytesNeeded ∧
    s.display.backing = physMemOffset + UInt64.ofNat backBuffer.1 ∧ s.pc = .drawing ∧
    s.gpu = .start d' ∧ s.task = .idle ∧ s.answers = [] ∧ s.ledger = .empty
  step := ScreenStep build physMemOffset

namespace ScreenState

/-- The backing store, what the device has of it, and what the display shows. -/
def store (s : ScreenState) : Stage (Fin bytesNeeded) UInt8 :=
  ⟨fun i => s.display.memory (s.display.address i),fun i => s.ledger.store i⟩

def resource (s : ScreenState) : Stage (Fin bytesNeeded) UInt8 :=
  ⟨fun i => s.host.pixel i,fun i => s.ledger.resource i⟩

def shown (s : ScreenState) : Stage (Fin bytesNeeded) UInt8 :=
  ⟨fun i => s.host.shown i,fun i => s.ledger.shown i⟩

/-- The frames, on the bytes of the screen. -/
def frames (s : ScreenState) (n : ℕ) (i : Fin bytesNeeded) : UInt8 := s.ledger.byte n i

/-- How many frames were swapped. -/
def count (s : ScreenState) : ℕ := s.ledger.frames.length

/-- Every byte is from a frame, and no stage is ahead of the one before it. -/
structure Stages (s : ScreenState) : Prop where
  store : s.store.Holds s.frames
  resource : s.resource.Holds s.frames
  shown : s.shown.Holds s.frames
  store_le : ∀ i, s.store.frame i ≤ s.count
  store_ahead : s.store.Ahead s.resource
  resource_ahead : s.resource.Ahead s.shown

/-- How far the latest frame has come in `swap_buffers`. -/
def Reached (s : ScreenState) : ScreenPc → Prop
  | .drawing => s.gpu.host.pc = .idle ∧ s.gpu.host.calls.length = s.count ∧
    s.store.Since s.count ∅
  | .copying left => s.gpu.host.pc = .idle ∧ s.gpu.host.calls.length + 1 = s.count ∧
    s.store.Since (s.count - 1) ∅ ∧ s.store.Since s.count {i | i.1 ∈ left} ∧
    left ⊆ Finset.range bytesNeeded ∧ ∃ before, s.ledger.frames = before ++ [s.display.copied]
  | .flushing => s.store.Since s.count ∅ ∧ s.gpu.host.calls.length ≤ s.count ∧
    (s.gpu.host.pc = .idle → s.gpu.host.calls.length + 1 = s.count) ∧
    (s.gpu.host.pc ≠ .idle → s.gpu.host.calls.length = s.count)

end ScreenState

namespace HostTask

/-- What the device copies is the whole screen. -/
def Full : HostTask → Prop
  | .idle => True
  | .transfer cmd left => cmd = GpuHost.screenTransfer ∧ left ⊆ Finset.range bytesNeeded
  | .flush cmd left => cmd = GpuHost.screenFlush ∧ left ⊆ Finset.range bytesNeeded

/-- The bytes that are still to be transferred, or shown. -/
def transferLeft : HostTask → Set (Fin bytesNeeded)
  | .transfer _ left => {i | i.1 ∈ left}
  | _ => ∅

def flushLeft : HostTask → Set (Fin bytesNeeded)
  | .flush _ left => {i | i.1 ∈ left}
  | _ => ∅

end HostTask

namespace ScreenState

/-- The device came to every entry while it still was what was published. -/
def Prompt (s : ScreenState) : Prop := ∀ intact ∈ s.gpu.intact, intact = true

/-- The device has the frames whose transfers it began, but for what is left of the latest one; and
likewise the display. -/
structure Progress (s : ScreenState) : Prop where
  resource : s.resource.Since ((s.gpu.executed.length + 1) / 2) s.task.transferLeft
  shown : s.shown.Since (s.gpu.executed.length / 2) s.task.flushLeft

structure Inv (physMemOffset : UInt64) (backBuffer : PhysAddr) (s : ScreenState) : Prop where
  display : s.display.FullScreen
  backing : s.display.backing = physMemOffset + UInt64.ofNat backBuffer.1
  ready : s.host.Ready (GpuHost.storeEntry backBuffer)
  task : s.task.Full
  queue : ∃ f₀ rest p n, s.gpu.Inv f₀ rest p n
  args : ∀ args ∈ s.gpu.host.calls, args = GpuHost.screenArgs
  answers : ∀ answer ∈ s.answers, answer = CommandTy.respOkNodata.code
  stages : s.Stages
  reached : s.Reached s.pc
  progress : s.Prompt → s.Progress

variable {build : Profile} {physMemOffset : UInt64} {backBuffer : PhysAddr} {s : ScreenState}
  {left : Finset ℕ} {i : ℕ}

/-- Nothing is published before its frame is in the backing store. -/
theorem Inv.published_le (h : s.Inv physMemOffset backBuffer) (i : Fin bytesNeeded) :
    s.gpu.host.published ≤ s.store.frame i := by
  obtain ⟨f₀,rest,p,n,hqueue⟩ := h.queue
  have hpublished := hqueue.host.counts.published
  have hcalls := hqueue.host.counts.calls
  have hle : s.gpu.host.published ≤ s.gpu.host.calls.length := by
    split_ifs at hpublished hcalls <;> omega
  have hreached := h.reached
  cases hpc : s.pc with
  | drawing =>
    rw [hpc] at hreached
    obtain ⟨_,hcount,hsince⟩ := hreached
    exact hle.trans (hcount.le.trans (hsince.le i))
  | copying left =>
    rw [hpc] at hreached
    obtain ⟨_,hcount,hsince,_⟩ := hreached
    have hat := hsince.le i
    omega
  | flushing =>
    rw [hpc] at hreached
    obtain ⟨hsince,hcount,_⟩ := hreached
    exact hle.trans (hcount.trans (hsince.le i))

/-! ### The desktop -/

theorem address_inj {d : Display} {i j : ℕ} (hi : i < bytesNeeded) (hj : j < bytesNeeded)
    (h : d.address i = d.address j) : i = j := by
  have hlt : bytesNeeded < 2^63 := by norm_num [bytesNeeded]
  rw [← d.address_sub (hi.trans hlt),h,d.address_sub (hj.trans hlt)]

/-- On the bytes of the screen. -/
theorem restrict_update {V : Type} (f : ℕ → V) (hi : i < bytesNeeded) (v : V) :
    (fun j : Fin bytesNeeded => Function.update f i v j) =
      Function.update (fun j : Fin bytesNeeded => f j) ⟨i,hi⟩ v := by
  funext j
  by_cases hj : j = ⟨i,hi⟩
  · subst hj
    rw [Function.update_self,Function.update_self]
  · rw [Function.update_of_ne hj,Function.update_of_ne fun he => hj (Fin.ext he)]

/-- The back buffer, while it is copied. -/
def latest (s : ScreenState) : Stage (Fin bytesNeeded) UInt8 :=
  .ofFrame (fun i => s.display.copied.getD i 0) s.count

/-- A byte of the latest frame comes into the backing store. -/
theorem copyByte_store (s : ScreenState) (left : Finset ℕ) (hi : i < bytesNeeded) :
    (s.copyByte left i).store = s.latest.copy s.store ⟨i,hi⟩ := by
  have hcells (j : Fin bytesNeeded) : Function.update s.display.memory (s.display.address i)
      (s.display.copied.getD i 0) (s.display.address j) =
        Function.update s.store.cells ⟨i,hi⟩ (s.display.copied.getD i 0) j := by
    by_cases hj : j = ⟨i,hi⟩
    · subst hj
      rw [Function.update_self,Function.update_self]
    · have hne : s.display.address j ≠ s.display.address i :=
        fun h => hj (Fin.ext (address_inj j.2 hi h))
      rw [Function.update_of_ne hne,Function.update_of_ne hj]
      rfl
  exact congrArg₂ Stage.mk (funext hcells) (restrict_update s.ledger.store hi s.count)

theorem Inv.copyByte (h : s.Inv physMemOffset backBuffer) (hpc : s.pc = .copying left)
    (hi : i ∈ left) : (s.copyByte left i).Inv physMemOffset backBuffer := by
  have hreached := h.reached
  rw [hpc] at hreached
  obtain ⟨hidle,hcalls,hbefore,hsince,hrange,before,hframes⟩ := hreached
  have hlt : i < bytesNeeded := Finset.mem_range.mp (hrange hi)
  have hstore := copyByte_store s left hlt
  have hlatest : s.latest.Holds s.frames := by
    refine Stage.holds_ofFrame (funext fun j => ?_)
    show _ = (s.ledger.frames.getD (s.ledger.frames.length - 1) []).getD j 0
    rw [hframes,List.length_append,List.length_singleton,Nat.add_sub_cancel,
      List.getD_append_right _ _ _ _ le_rfl,Nat.sub_self]
    rfl
  have hahead : s.latest.Ahead s.store := h.stages.store_le
  have hnewer : (s.copyByte left i).store.Ahead s.store := by
    rw [hstore]
    exact hahead.copy_ahead
  refine ⟨⟨h.display.backing,h.display.room,h.display.width,h.display.height,
    h.display.bytesPerPixel,h.display.length⟩,h.backing,h.ready,h.task,h.queue,
    h.args,h.answers,⟨?_,h.stages.resource,h.stages.shown,?_,?_,h.stages.resource_ahead⟩,?_,
    fun hprompt => ⟨(h.progress hprompt).resource,(h.progress hprompt).shown⟩⟩
  · rw [hstore]
    exact hlatest.copy h.stages.store
  · rw [hstore]
    exact hahead.copy
  · exact hnewer.trans h.stages.store_ahead
  · refine ⟨hidle,hcalls,hbefore.mono hnewer le_rfl,?_,(Finset.erase_subset i left).trans hrange,
      before,hframes⟩
    rw [hstore]
    refine Stage.Since.copy hsince le_rfl fun j hj hne => ?_
    exact Finset.mem_erase.mpr ⟨fun he => hne (Fin.ext he),hj⟩

/-- A call changes nothing but the buffers that are drawn in. -/
theorem Inv.draw (h : s.Inv physMemOffset backBuffer) (hpc : s.pc = .drawing) {call : DrawCall}
    {display : Display} (hdraw : s.display.draw build call = .ok display) :
    ({s with display} : ScreenState).Inv physMemOffset backBuffer := by
  obtain ⟨gpu,hgpu,hdisplay⟩ := bind_inv hdraw
  cases hdisplay
  have hshape := s.display.gpu.draw_shape build call gpu hgpu
  have hreached := h.reached
  rw [hpc] at hreached
  refine ⟨⟨h.display.backing,?_,hshape.width.trans h.display.width,
    hshape.height.trans h.display.height,hshape.bytesPerPixel.trans h.display.bytesPerPixel,
    hshape.length.trans h.display.length⟩,h.backing,h.ready,h.task,h.queue,h.args,h.answers,
    ⟨h.stages.store,h.stages.resource,h.stages.shown,h.stages.store_le,h.stages.store_ahead,
    h.stages.resource_ahead⟩,?_,fun hprompt => ⟨(h.progress hprompt).resource,
    (h.progress hprompt).shown⟩⟩
  · exact hshape.length ▸ h.display.room
  · show Reached _ s.pc
    rw [hpc]
    exact hreached

theorem copied_length (h : s.Inv physMemOffset backBuffer) :
    s.display.copied.length = bytesNeeded := by
  rw [Display.copied,if_pos h.display.backing,h.display.length]

/-- The frames that there are stay as they are. -/
theorem frames_beginSwap (s : ScreenState) {n : ℕ} (hpos : 0 < n) (hn : n ≤ s.count) :
    s.beginSwap.frames n = s.frames n := by
  funext i
  show ((s.ledger.frames ++ [s.display.copied]).getD (n - 1) []).getD i 0 = _
  have hlt : n - 1 < s.ledger.frames.length := by
    have hcount : n ≤ s.ledger.frames.length := hn
    omega
  rw [List.getD_append _ _ _ _ hlt]
  rfl

theorem Inv.beginSwap (h : s.Inv physMemOffset backBuffer) (hpc : s.pc = .drawing) :
    s.beginSwap.Inv physMemOffset backBuffer := by
  have hreached := h.reached
  rw [hpc] at hreached
  obtain ⟨hidle,hcalls,hsince⟩ := hreached
  have hcount : s.beginSwap.count = s.count + 1 := List.length_append
  have hstore (i : Fin bytesNeeded) : s.store.frame i ≤ s.count := h.stages.store_le i
  have hresource (i : Fin bytesNeeded) : s.resource.frame i ≤ s.count :=
    (h.stages.store_ahead i).trans (hstore i)
  have hshown (i : Fin bytesNeeded) : s.shown.frame i ≤ s.count :=
    (h.stages.resource_ahead i).trans (hresource i)
  refine ⟨h.display,h.backing,h.ready,h.task,h.queue,h.args,h.answers,⟨?_,?_,?_,?_,
    h.stages.store_ahead,h.stages.resource_ahead⟩,⟨hidle,?_,?_,?_,?_,_,rfl⟩,
    fun hprompt => ⟨(h.progress hprompt).resource,(h.progress hprompt).shown⟩⟩
  · exact h.stages.store.congr fun i hi => congrFun (frames_beginSwap s hi (hstore i)) i
  · exact h.stages.resource.congr fun i hi => congrFun (frames_beginSwap s hi (hresource i)) i
  · exact h.stages.shown.congr fun i hi => congrFun (frames_beginSwap s hi (hshown i)) i
  · exact fun i => hcount ▸ (hstore i).trans (Nat.le_succ _)
  · rw [hcount]
    exact congrArg Nat.succ hcalls
  · rw [hcount]
    exact hsince
  · intro i hi
    exact absurd (Finset.mem_range.mpr (i.2.trans_eq (copied_length h).symm)) hi
  · rw [copied_length h]

theorem Inv.copied (h : s.Inv physMemOffset backBuffer) (hpc : s.pc = .copying ∅) :
    ({s with pc := .flushing} : ScreenState).Inv physMemOffset backBuffer := by
  have hreached := h.reached
  rw [hpc] at hreached
  obtain ⟨hidle,hcalls,_,hsince,_⟩ := hreached
  have hnone : {i : Fin bytesNeeded | i.1 ∈ (∅ : Finset ℕ)} = ∅ :=
    Set.eq_empty_of_forall_notMem fun i => Finset.notMem_empty i.1
  rw [hnone] at hsince
  exact ⟨h.display,h.backing,h.ready,h.task,h.queue,h.args,h.answers,
    ⟨h.stages.store,h.stages.resource,h.stages.shown,h.stages.store_le,h.stages.store_ahead,
      h.stages.resource_ahead⟩,
    ⟨hsince,Nat.le_of_succ_le hcalls.le,fun _ => hcalls,fun hne => absurd hidle hne⟩,
    fun hprompt => ⟨(h.progress hprompt).resource,(h.progress hprompt).shown⟩⟩

end ScreenState

namespace FlushCalls

/-- A call begins if four descriptors are free; the later effects belong to it. -/
theorem step_calls {build : Profile} {s t : FlushCalls} {args : FlushArgs}
    (h : s.step build args = .ok t) :
    (s.pc = .idle → ¬s.driver.queue.numFree < 4 → t.calls = s.calls ++ [args] ∧ t.pc ≠ .idle) ∧
      (s.pc ≠ .idle → t.calls = s.calls) := by
  unfold step at h
  cases hpc : s.pc with
  | idle =>
    refine ⟨fun _ hnum => ?_,fun hne => absurd rfl hne⟩
    simp only [hpc,if_neg hnum] at h
    cases h
    exact ⟨rfl,FlushPc.noConfusion⟩
  | drafted =>
    simp only [hpc] at h
    obtain ⟨_,_,h⟩ := bind_inv h
    cases h
    exact ⟨fun he => FlushPc.noConfusion he,fun _ => rfl⟩
  | published f =>
    simp only [hpc] at h
    obtain ⟨_,_,h⟩ := bind_inv h
    cases h
    exact ⟨fun he => FlushPc.noConfusion he,fun _ => rfl⟩
  | _ =>
    simp only [hpc] at h
    cases h
    exact ⟨fun he => FlushPc.noConfusion he,fun _ => rfl⟩

/-- Between two calls there are descriptors for the next. -/
theorem Inv.numFree {f₀ : FlushDescriptors} {rest p : List (Fin 64)} {n : ℕ} {s : FlushCalls}
    (h : s.Inv f₀ rest p n) (hpc : s.pc = .idle) : ¬s.driver.queue.numFree < 4 := by
  have hfree := h.queue
  rw [hpc] at hfree
  rw [UInt16.lt_iff_toNat_lt,hfree.numFree,List.length_append]
  show ¬4 + rest.length < 4
  omega

end FlushCalls

namespace ScreenState

variable {build : Profile} {physMemOffset : UInt64} {backBuffer : PhysAddr} {s : ScreenState}
  {i : ℕ}

theorem Inv.flushArgs (h : s.Inv physMemOffset backBuffer) : s.flushArgs = GpuHost.screenArgs := by
  rw [ScreenState.flushArgs,h.display.width,h.display.height]
  rfl

theorem Inv.afterFlush (h : s.Inv physMemOffset backBuffer) (hpc : s.pc = .flushing)
    {gpu : FlushState} (hstep : FlushStep build s.gpu (.call s.flushArgs) gpu) :
    (s.afterFlush gpu).Inv physMemOffset backBuffer := by
  have hreached := h.reached
  rw [hpc] at hreached
  obtain ⟨hsince,_,hidle,hbusy⟩ := hreached
  obtain ⟨f₀,rest,p,n,hqueue⟩ := h.queue
  have hnext : ∃ f₀ rest p n, gpu.Inv f₀ rest p n := by
    obtain ⟨k,hk⟩ := hqueue.step hstep
    exact ⟨f₀,rest,p,k,hk⟩
  rw [h.flushArgs] at hstep
  cases hstep with
  | @call _ host hhost _ =>
    obtain ⟨hbegin,hgo⟩ := FlushCalls.step_calls hhost
    have hcalls : host.calls.length = s.count := by
      by_cases hpc' : s.gpu.host.pc = .idle
      · rw [(hbegin hpc' (hqueue.host.numFree hpc')).1,List.length_append,List.length_singleton]
        exact hidle hpc'
      · rw [hgo hpc']
        exact hbusy hpc'
    have hargs : ∀ args ∈ host.calls, args = GpuHost.screenArgs := by
      by_cases hpc' : s.gpu.host.pc = .idle
      · rw [(hbegin hpc' (hqueue.host.numFree hpc')).1,List.forall_mem_append]
        exact ⟨h.args,fun args hmem => List.mem_singleton.mp hmem⟩
      · rw [hgo hpc']
        exact h.args
    refine ⟨h.display,h.backing,h.ready,h.task,hnext,hargs,h.answers,⟨h.stages.store,
      h.stages.resource,h.stages.shown,h.stages.store_le,h.stages.store_ahead,
      h.stages.resource_ahead⟩,?_,fun hprompt => ⟨(h.progress hprompt).resource,
      (h.progress hprompt).shown⟩⟩
    show Reached _ (match host.pc with | .idle => ScreenPc.drawing | _ => ScreenPc.flushing)
    split
    · rename_i hpc'
      exact ⟨hpc',hcalls,hsince⟩
    · rename_i hpc'
      exact ⟨hsince,hcalls.le,fun he => absurd he hpc',fun _ => hcalls⟩

/-! ### The device -/

/-- The task that a command of the whole screen begins. -/
def taskOf : FlushKind → HostTask
  | .transfer => .transfer GpuHost.screenTransfer (Finset.range bytesNeeded)
  | .flush => .flush GpuHost.screenFlush (Finset.range bytesNeeded)

/-- What the device finds is a transfer or a flush of the whole screen, and the one that was
published if the entry is intact. -/
theorem Inv.begin_eq (h : s.Inv physMemOffset backBuffer)
    (hseen : s.gpu.seen ≠ s.gpu.host.driver.queue.available.idx) : ∃ kind,
      s.begin = {s with
        gpu := s.gpu.process
        task := taskOf kind
        answers := s.answers ++ [CommandTy.respOkNodata.code]} ∧
      (s.gpu.host.Intact s.gpu.executed.length → kind = .nth s.gpu.executed.length) := by
  obtain ⟨f₀,rest,p,n,hqueue⟩ := h.queue
  have hlt : s.gpu.executed.length < 2 * s.gpu.host.published := by
    refine lt_of_le_of_ne hqueue.executed_le fun he => hseen ?_
    rw [hqueue.seen,hqueue.idx,he]
  obtain ⟨args,hargs,hfetch⟩ := hqueue.host.fetch hlt hqueue.outstanding
  cases h.args args (List.mem_of_getElem? hargs)
  have hslot : s.gpu.host.driver.fetch s.gpu.seen.toNat =
      s.gpu.host.driver.fetch (p.length + s.gpu.executed.length) := by
    unfold VirtioGpuDriver.fetch
    rw [hqueue.seen,VirtQueue.slot_ofNat]
  refine ⟨s.gpu.host.target s.gpu.executed.length,?_,fun hintact => hintact.1⟩
  rw [begin,hslot,hfetch]
  cases s.gpu.host.target s.gpu.executed.length with
  | transfer =>
    simp only [FlushKind.command,h.ready.exec_transfer]
    rfl
  | flush =>
    simp only [FlushKind.command,h.ready.exec_flush]
    rfl

theorem taskOf_full (kind : FlushKind) : (taskOf kind).Full := by
  cases kind <;> exact ⟨rfl,subset_rfl⟩

/-- A task that has just begun has all bytes left. -/
theorem mem_range (i : Fin bytesNeeded) : i.1 ∈ Finset.range bytesNeeded := Finset.mem_range.mpr i.2

theorem Inv.begin (h : s.Inv physMemOffset backBuffer) (hidle : s.task = .idle)
    (hseen : s.gpu.seen ≠ s.gpu.host.driver.queue.available.idx) :
    s.begin.Inv physMemOffset backBuffer := by
  obtain ⟨kind,hbegin,hkind⟩ := h.begin_eq hseen
  obtain ⟨f₀,rest,p,n,hqueue⟩ := h.queue
  rw [hbegin]
  refine ⟨h.display,h.backing,h.ready,taskOf_full kind,⟨f₀,rest,p,n,hqueue.process hseen⟩,h.args,
    List.forall_mem_append.mpr ⟨h.answers,fun answer hmem => List.mem_singleton.mp hmem⟩,
    ⟨h.stages.store,h.stages.resource,h.stages.shown,h.stages.store_le,h.stages.store_ahead,
      h.stages.resource_ahead⟩,h.reached,fun hprompt => ?_⟩
  obtain ⟨hbefore,hlast⟩ := List.forall_mem_append.mp hprompt
  obtain ⟨hresource,hshown⟩ := h.progress hbefore
  rw [hidle] at hresource hshown
  have hlength : s.gpu.process.executed.length = s.gpu.executed.length + 1 := List.length_append
  cases hkind (decide_eq_true_iff.mp (hlast _ (List.mem_singleton_self _)))
  rcases Nat.even_or_odd' s.gpu.executed.length with ⟨k,hk | hk⟩
  · -- a transfer
    have htask : taskOf (.nth s.gpu.executed.length) = taskOf .transfer := by
      rw [hk,FlushKind.nth_even]
    refine ⟨fun i hi => absurd ?_ hi,?_⟩
    · show i ∈ (taskOf _).transferLeft
      rw [htask]
      exact mem_range i
    · show s.shown.Since (s.gpu.process.executed.length / 2) (taskOf _).flushLeft
      rw [htask,hlength,show (s.gpu.executed.length + 1) / 2 = s.gpu.executed.length / 2 by omega]
      exact hshown
  · -- a flush
    have htask : taskOf (.nth s.gpu.executed.length) = taskOf .flush := by
      rw [hk,FlushKind.nth_odd]
    refine ⟨?_,fun i hi => absurd ?_ hi⟩
    · show s.resource.Since ((s.gpu.process.executed.length + 1) / 2) (taskOf _).transferLeft
      rw [htask,hlength,
        show (s.gpu.executed.length + 1 + 1) / 2 = (s.gpu.executed.length + 1) / 2 by omega]
      exact hresource
    · show i ∈ (taskOf _).flushLeft
      rw [htask]
      exact mem_range i

/-- What the device reads for a byte of the screen is in the backing store. -/
theorem Inv.readPhys (h : s.Inv physMemOffset backBuffer) (i : ℕ) :
    s.readPhys physMemOffset (backBuffer.1 + i) = s.display.memory (s.display.address i) := by
  rw [ScreenState.readPhys,Display.address,h.backing,UInt64.ofNat_add,UInt64.add_assoc]

theorem Inv.transferByte (h : s.Inv physMemOffset backBuffer) {cmd : TransferToHost2d}
    {left : Finset ℕ} (htask : s.task = .transfer cmd left) (hi : i ∈ left) :
    (s.transferByte physMemOffset cmd left i).Inv physMemOffset backBuffer ∧
      (s.transferByte physMemOffset cmd left i).shown = s.shown := by
  have hfull := h.task
  rw [htask] at hfull
  obtain ⟨rfl,hrange⟩ := hfull
  have hlt : i < bytesNeeded := Finset.mem_range.mp (hrange hi)
  obtain ⟨hready,hpixel,hhost⟩ := h.ready.transferByte (s.readPhys physMemOffset) i
  rw [h.readPhys] at hpixel
  have hresource : (s.transferByte physMemOffset GpuHost.screenTransfer left i).resource =
      s.store.copy s.resource ⟨i,hlt⟩ := by
    refine congrArg₂ Stage.mk ?_ (restrict_update s.ledger.resource hlt _)
    show (fun j : Fin bytesNeeded =>
      (s.host.transferByte (s.readPhys physMemOffset) GpuHost.screenTransfer i).pixel j) = _
    rw [hpixel]
    exact restrict_update s.host.pixel hlt _
  have hshown : (s.transferByte physMemOffset GpuHost.screenTransfer left i).shown = s.shown :=
    congrArg (fun shown => Stage.mk (fun j : Fin bytesNeeded => shown j) s.shown.frame) hhost
  have hnewer : (s.store.copy s.resource ⟨i,hlt⟩).Ahead s.resource :=
    h.stages.store_ahead.copy_ahead
  refine ⟨⟨h.display,h.backing,hready,⟨rfl,(Finset.erase_subset i left).trans hrange⟩,h.queue,h.args,
    h.answers,⟨h.stages.store,?_,?_,h.stages.store_le,?_,?_⟩,h.reached,fun hprompt => ?_⟩,hshown⟩
  · rw [hresource]
    exact h.stages.store.copy h.stages.resource
  · rw [hshown]
    exact h.stages.shown
  · rw [hresource]
    exact h.stages.store_ahead.copy
  · rw [hresource,hshown]
    exact hnewer.trans h.stages.resource_ahead
  · -- what is transferred has been published, so its frame is in the store
    obtain ⟨f₀,rest,p,n,hqueue⟩ := h.queue
    have hpublished := h.published_le ⟨i,hlt⟩
    have hexecuted := hqueue.executed_le
    obtain ⟨hdone,hseen⟩ := h.progress hprompt
    rw [htask] at hdone hseen
    refine ⟨?_,hshown.symm ▸ hseen⟩
    have hstored : (s.gpu.executed.length + 1) / 2 ≤ s.store.frame ⟨i,hlt⟩ := by omega
    rw [hresource]
    refine Stage.Since.copy hdone hstored fun j hj hne => ?_
    exact Finset.mem_erase.mpr ⟨fun he => hne (Fin.ext he),hj⟩

theorem Inv.flushByte (h : s.Inv physMemOffset backBuffer) {cmd : ResourceFlush}
    {left : Finset ℕ} (htask : s.task = .flush cmd left) (hi : i ∈ left) :
    (s.flushByte cmd left i).Inv physMemOffset backBuffer ∧
      (s.flushByte cmd left i).shown.Ahead s.shown := by
  have hfull := h.task
  rw [htask] at hfull
  obtain ⟨rfl,hrange⟩ := hfull
  have hlt : i < bytesNeeded := Finset.mem_range.mp (hrange hi)
  have hhost := h.ready.flushByte hlt
  have hresource : (s.flushByte GpuHost.screenFlush left i).resource = s.resource := by
    show Stage.mk (fun j : Fin bytesNeeded => GpuHost.pixel (s.host.flushByte _ i) j) _ = _
    rw [hhost]
    rfl
  have hshown : (s.flushByte GpuHost.screenFlush left i).shown =
      s.resource.copy s.shown ⟨i,hlt⟩ := by
    refine congrArg₂ Stage.mk ?_ (restrict_update s.ledger.shown hlt _)
    show (fun j : Fin bytesNeeded => GpuHost.shown (s.host.flushByte _ i) j) = _
    rw [hhost]
    exact restrict_update s.host.shown hlt _
  have hready : (s.host.flushByte GpuHost.screenFlush i).Ready (GpuHost.storeEntry backBuffer) := by
    rw [hhost]
    exact ⟨h.ready.resource,h.ready.scanout⟩
  refine ⟨⟨h.display,h.backing,hready,⟨rfl,(Finset.erase_subset i left).trans hrange⟩,h.queue,h.args,
    h.answers,⟨h.stages.store,?_,?_,h.stages.store_le,?_,?_⟩,h.reached,fun hprompt => ?_⟩,?_⟩
  · rw [hresource]
    exact h.stages.resource
  · rw [hshown]
    exact h.stages.resource.copy h.stages.shown
  · rw [hresource]
    exact h.stages.store_ahead
  · rw [hresource,hshown]
    exact h.stages.resource_ahead.copy
  · -- what is shown has been transferred
    obtain ⟨hdone,hseen⟩ := h.progress hprompt
    rw [htask] at hdone hseen
    refine ⟨hresource.symm ▸ hdone,?_⟩
    have hbefore : (s.gpu.executed.length + 1) / 2 ≤ s.resource.frame ⟨i,hlt⟩ := hdone.le _
    have htransferred : s.gpu.executed.length / 2 ≤ s.resource.frame ⟨i,hlt⟩ := by omega
    rw [hshown]
    refine Stage.Since.copy hseen htransferred fun j hj hne => ?_
    exact Finset.mem_erase.mpr ⟨fun he => hne (Fin.ext he),hj⟩
  · rw [hshown]
    exact h.stages.resource_ahead.copy_ahead

theorem Inv.done (h : s.Inv physMemOffset backBuffer) (hleft : s.task.left = ∅) :
    ({s with task := .idle} : ScreenState).Inv physMemOffset backBuffer := by
  refine ⟨h.display,h.backing,h.ready,trivial,h.queue,h.args,h.answers,⟨h.stages.store,
    h.stages.resource,h.stages.shown,h.stages.store_le,h.stages.store_ahead,
    h.stages.resource_ahead⟩,h.reached,fun hprompt => ?_⟩
  obtain ⟨hresource,hshown⟩ := h.progress hprompt
  have hnone : s.task.transferLeft = ∅ ∧ s.task.flushLeft = ∅ := by
    cases htask : s.task with
    | idle => exact ⟨rfl,rfl⟩
    | transfer cmd left =>
      rw [htask] at hleft
      cases hleft
      exact ⟨Set.eq_empty_of_forall_notMem fun i => Finset.notMem_empty i.1,rfl⟩
    | flush cmd left =>
      rw [htask] at hleft
      cases hleft
      exact ⟨rfl,Set.eq_empty_of_forall_notMem fun i => Finset.notMem_empty i.1⟩
  rw [hnone.1] at hresource
  rw [hnone.2] at hshown
  exact ⟨hresource,hshown⟩

/-! ### Runs -/

/-- No byte on the display is replaced by one of an older frame. -/
theorem Inv.step_shown (h : s.Inv physMemOffset backBuffer) {a : ScreenAction} {t : ScreenState}
    (hstep : ScreenStep build physMemOffset s a t) : t.shown.Ahead s.shown := by
  cases hstep with
  | process _ hstep =>
    cases hstep with
    | process hseen =>
      obtain ⟨kind,hbegin,_⟩ := h.begin_eq hseen
      rw [hbegin]
      exact .refl _
  | transfer htask hi => exact (h.transferByte htask hi).2 ▸ .refl _
  | scan htask hi => exact (h.flushByte htask hi).2
  | _ => exact .refl _

theorem Inv.step (h : s.Inv physMemOffset backBuffer) {a : ScreenAction} {t : ScreenState}
    (hstep : ScreenStep build physMemOffset s a t) : t.Inv physMemOffset backBuffer := by
  cases hstep with
  | draw hpc hdraw => exact h.draw hpc hdraw
  | swap hpc _ => exact h.beginSwap hpc
  | copy hpc hi => exact h.copyByte hpc hi
  | copied hpc => exact h.copied hpc
  | flush hpc hstep => exact h.afterFlush hpc hstep
  | process hidle hstep =>
    cases hstep with
    | process hseen => exact h.begin hidle hseen
  | transfer htask hi => exact (h.transferByte htask hi).1
  | scan htask hi => exact (h.flushByte htask hi).1
  | done _ hleft => exact h.done hleft

theorem Inv.start (hinit : (screenSystem build physMemOffset).init s) :
    ∃ backBuffer, s.Inv physMemOffset backBuffer := by
  obtain ⟨display,pc,gpu,host,task,answers,ledger⟩ := s
  obtain ⟨d,d',l,p,host₀,backBuffer,hfree,hlen,hlog,hnone,hsetUp,hdisplay,_,hbacking,rfl,rfl,rfl,
    rfl,rfl⟩ := hinit
  obtain ⟨d₁,host₁,p₁,hsetUp₁,hfree₁,hlog₁,hready⟩ :=
    GpuHost.setUpScreen_ready build backBuffer hfree hlen hlog hnone
  cases hsetUp.symm.trans hsetUp₁
  obtain ⟨f₀,rest,hqueue⟩ := FlushState.Inv.start hfree₁ hlen hlog₁
  have hnothing {cells : Fin bytesNeeded → UInt8} {frames : ℕ → Fin bytesNeeded → UInt8} :
      (Stage.mk cells fun _ => 0).Holds frames := fun i hi => absurd hi (Nat.lt_irrefl 0)
  have hhalf : (0 + 1) / 2 ≤ 0 := by decide
  exact ⟨backBuffer,hdisplay,hbacking,hready,trivial,⟨f₀,rest,p₁,0,hqueue⟩,List.forall_mem_nil _,
    List.forall_mem_nil _,⟨hnothing,hnothing,hnothing,fun _ => le_rfl,.refl _,fun _ => le_rfl⟩,
    ⟨rfl,rfl,fun _ _ => le_rfl⟩,fun _ => ⟨fun _ _ => hhalf,fun _ _ => Nat.div_le_self 0 2⟩⟩

end ScreenState
end PolymorphOS
