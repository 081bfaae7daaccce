import PolymorphOS.DmaFrames
import PolymorphOS.GpuRequests
import PolymorphOS.VirtioPci

/-! The handshake that brings the GPU up, and the size of its control queue: the device indexes the
rings modulo what it holds in `queue_size`, the driver modulo 64. -/
namespace PolymorphOS
namespace VirtioPci

def virtioStatusAcknowledge : UInt8 := 1
def virtioStatusDriver : UInt8 := 2
def virtioStatusDriverOk : UInt8 := 4
def virtioStatusFeaturesOk : UInt8 := 8

/-- What the device answers: the status it shows after a write to `device_status`, and the size and
the doorbell of its control queue. -/
structure VirtioDevice where
  status : UInt8 → UInt8
  queueSize : UInt16
  notifyOff : UInt16

/-- The common configuration structure, with the registers of the control queue. -/
structure CommonConfig where
  deviceStatus : UInt8
  queueSelect : UInt16
  queueSize : UInt16
  queueEnable : UInt16
  queueNotifyOff : UInt16
  queueDesc : UInt64
  queueDriver : UInt64
  queueDevice : UInt64

/-- A write of zero resets the device, which then offers its own queue size. -/
def CommonConfig.writeStatus (dev : VirtioDevice) (cfg : CommonConfig) (status : UInt8) :
    CommonConfig :=
  if status = 0 then ⟨dev.status 0,0,dev.queueSize,0,dev.notifyOff,0,0,0⟩
  else {cfg with deviceStatus := dev.status status}

def attempt {A : Type} (x : Except Panic A) : Except Fault A := x.mapError .panic

def orErr {A : Type} (found : Option A) (message : String) : Except Fault A :=
  match found with
  | some a => .ok a
  | none => .error (.err message)

/-- Steps 1 to 5. -/
def negotiate (dev : VirtioDevice) (cfg : CommonConfig) : Except Fault (UInt8 × CommonConfig) :=
  let cfg := cfg.writeStatus dev 0
  let status := cfg.deviceStatus ||| virtioStatusAcknowledge
  let cfg := cfg.writeStatus dev status
  let status := status ||| virtioStatusDriver
  let cfg := cfg.writeStatus dev status
  let status := status ||| virtioStatusFeaturesOk
  let cfg := cfg.writeStatus dev status
  if cfg.deviceStatus &&& virtioStatusFeaturesOk = 0 then
    .error (.err "Device refused our features!")
  else .ok (status,cfg)

section
variable {F : Type} [FrameAllocator F]

/-- The loop of `map_mmio`. The mapper may take frames for its page tables. -/
def mapFrames (mapTo : F → ℕ → Except Panic (Bool × F)) : List ℕ → F → Except Panic (Bool × F)
  | [], a => pure (true,a)
  | frame :: frames, a => do
    let _ ← VirtAddr.new (UInt64.ofNat frame)
    let (mapped,a) ← mapTo a frame
    if mapped then mapFrames mapTo frames a else pure (false,a)

/-- The virtual address is the physical one. -/
def mapMmio (build : Profile) (mapTo : F → ℕ → Except Panic (Bool × F))
    (physicalAddress sizeInBytes : UInt64) (frameAllocator : F) :
    Except Panic (Option VirtAddr × F) := do
  let startFrame := PhysFrame.containingAddress (← PhysAddr.new physicalAddress.toNat)
  let last ← subU64 build (← addU64 build physicalAddress sizeInBytes) 1
  let endFrame := PhysFrame.containingAddress (← PhysAddr.new last.toNat)
  let start := startFrame.startAddress.1
  let count := (endFrame.startAddress.1 - start) / 4096 + 1
  let (mapped,a) ← mapFrames mapTo (List.range' start count 4096) frameAllocator
  if mapped then return (some (← VirtAddr.new physicalAddress),a) else return (none,a)

/-- The addresses of the descriptors, of the available and of the used ring, by the layout of
`VirtQueue`, and the driver. -/
def setupControlQueue (build : Profile) (frameAllocator : F) (memory : Memory)
    (physMemOffset : VirtAddr) : Except Fault ((UInt64 × UInt64 × UInt64) × VirtioGpuDriver) := do
  let (queue,a,memory) ← attempt (allocateDmaFrames build frameAllocator memory physMemOffset 3)
  let (physAddr,_) ← orErr queue "Failed to allocate DMA memory for Control Queue."
  let (mailbox,_,_) ← attempt (allocateDmaFrames build a memory physMemOffset 1)
  let (mailboxPhys,_) ← orErr mailbox "Failed to allocate DMA Mailbox."
  let base := UInt64.ofNat physAddr.1
  return ((base,base + 1024,base + 1160),⟨mailboxPhys,fun _ => none,.new⟩)

variable (build : Profile) (mapTo : F → ℕ → Except Panic (Bool × F)) (memory : Memory)
  (physMemOffset : VirtAddr) (dev : VirtioDevice)

/-- Steps 6 and 7: the driver, the registers, and the address of the doorbell. Of the sizes that
the device may hold in `queue_size` only zero is refused. -/
def wireControlQueue (caps : VirtioCapabilities) (status : UInt8) (cfg : CommonConfig)
    (frameAllocator : F) : Except Fault (VirtioGpuDriver × CommonConfig × UInt64) := do
  let cfg : CommonConfig := {cfg with queueSelect := 0}
  if cfg.queueSize = 0 then .error (.err "GPU reports Control Queue size is 0.")
  else do
    let (notify,a) ← attempt (mapMmio build mapTo caps.notifyCfgPhys 4096 frameAllocator)
    let notifyCfgVirt ← orErr notify "Failed to map Notify_Cfg MMIO space."
    let ((desc,avail,used),driver) ← setupControlQueue build a memory physMemOffset
    let cfg : CommonConfig := {cfg with queueDesc := desc,queueDriver := avail,queueDevice := used}
    let offset ← attempt
      (mulU64 build cfg.queueNotifyOff.toUInt64 caps.notifyOffMultiplier.toUInt64)
    let doorbell ← attempt (addU64 build notifyCfgVirt.1 offset)
    let cfg : CommonConfig := {cfg with queueEnable := 1}
    return (driver,cfg.writeStatus dev (status ||| virtioStatusDriverOk),doorbell)

/-- `init_virtio_device` until the device is live. -/
def initVirtioDevice (answers : PciFunction) (bus slot func : UInt8) (frameAllocator : F)
    (cfg : CommonConfig) : Except Fault (VirtioGpuDriver × CommonConfig × UInt64) := do
  let (found,_) ← attempt (findCapabilities answers bus slot func build ⟨[],[]⟩)
  let caps ← orErr found "Failed to find required VirtIO Capabilities."
  let (common,a) ← attempt (mapMmio build mapTo caps.commonCfgPhys 4096 frameAllocator)
  let _ ← orErr common "Failed to map Common Configuration MMIO space."
  let (status,cfg) ← negotiate dev cfg
  wireControlQueue build mapTo memory physMemOffset dev caps status cfg a

end

/-! ### What the handshake leaves -/

variable {dev : VirtioDevice} {cfg : CommonConfig} {status : UInt8}

theorem or_ne_zero (status flag : UInt8) (h : flag ≠ 0) : status ||| flag ≠ 0 :=
  fun hor => h (UInt8.or_eq_zero_iff.mp hor).2

/-- A write that does not reset the device leaves the queue. -/
theorem writeStatus_of_ne (h : status ≠ 0) :
    cfg.writeStatus dev status = {cfg with deviceStatus := dev.status status} := if_neg h

theorem negotiate_inv {out : UInt8 × CommonConfig} (h : negotiate dev cfg = .ok out) :
    out.2.queueSize = dev.queueSize := by
  have hack (status : UInt8) := or_ne_zero status virtioStatusAcknowledge (by decide)
  have hdriver (status : UInt8) := or_ne_zero status virtioStatusDriver (by decide)
  have hfeatures (status : UInt8) := or_ne_zero status virtioStatusFeaturesOk (by decide)
  simp only [negotiate,writeStatus_of_ne (hack _),writeStatus_of_ne (hdriver _),
    writeStatus_of_ne (hfeatures _)] at h
  split at h
  · cases h
  · cases h
    rfl

section
variable {F : Type} [FrameAllocator F] {build : Profile}
  {mapTo : F → ℕ → Except Panic (Bool × F)} {memory : Memory} {physMemOffset : VirtAddr}
  {answers : PciFunction} {bus slot func : UInt8} {frameAllocator : F}
  {driver : VirtioGpuDriver} {cfg' : CommonConfig} {doorbell : UInt64}

theorem setupControlQueue_inv {out : (UInt64 × UInt64 × UInt64) × VirtioGpuDriver}
    (h : setupControlQueue build frameAllocator memory physMemOffset = .ok out) :
    out.2.queue = .new := by
  obtain ⟨_,_,h⟩ := bind_inv h
  obtain ⟨_,_,h⟩ := bind_inv h
  obtain ⟨_,_,h⟩ := bind_inv h
  obtain ⟨_,_,h⟩ := bind_inv h
  cases h
  rfl

theorem wireControlQueue_inv {caps : VirtioCapabilities}
    {out : VirtioGpuDriver × CommonConfig × UInt64}
    (h : wireControlQueue build mapTo memory physMemOffset dev caps status cfg frameAllocator =
      .ok out) :
    out.1.queue = .new ∧ out.2.1.queueSize = cfg.queueSize ∧ cfg.queueSize ≠ 0 ∧
      out.2.1.queueEnable = 1 := by
  have hlive := or_ne_zero status virtioStatusDriverOk (by decide)
  by_cases hzero : cfg.queueSize = 0
  · simp only [wireControlQueue,hzero,if_true,reduceCtorEq] at h
  · simp only [wireControlQueue,hzero,if_false,writeStatus_of_ne hlive] at h
    obtain ⟨_,_,h⟩ := bind_inv h
    obtain ⟨_,_,h⟩ := bind_inv h
    obtain ⟨queue,hqueue,h⟩ := bind_inv h
    obtain ⟨_,_,h⟩ := bind_inv h
    obtain ⟨_,_,h⟩ := bind_inv h
    cases h
    exact ⟨setupControlQueue_inv hqueue,rfl,hzero,rfl⟩

/-- The driver starts on a new queue, and the device keeps the size that it offered. -/
theorem initVirtioDevice_inv
    (h : initVirtioDevice build mapTo memory physMemOffset dev answers bus slot func frameAllocator
      cfg = .ok (driver,cfg',doorbell)) :
    driver.queue = .new ∧ cfg'.queueSize = dev.queueSize ∧ dev.queueSize ≠ 0 ∧
      cfg'.queueEnable = 1 := by
  obtain ⟨_,_,h⟩ := bind_inv h
  obtain ⟨caps,_,h⟩ := bind_inv h
  obtain ⟨_,_,h⟩ := bind_inv h
  obtain ⟨_,_,h⟩ := bind_inv h
  obtain ⟨negotiated,hnegotiate,h⟩ := bind_inv h
  obtain ⟨hqueue,hsize,hne,henable⟩ := wireControlQueue_inv h
  rw [negotiate_inv hnegotiate] at hsize hne
  exact ⟨hqueue,hsize,hne,henable⟩

end
end VirtioPci

/-! ### The slots of the available ring -/

open VirtioPci

/-- The slots that the heads of one call go to: `avail_idx % 64`, and for the second one of a flush
`(avail_idx + 1) % 64`. -/
def VirtqAvail.slots (avail : VirtqAvail) (heads : List (Fin 64)) : List (Fin 64) :=
  (List.range heads.length).map fun i => VirtQueue.slot (avail.idx.toNat + i)

/-- The available ring with the heads in their slots. -/
def VirtqAvail.fill (avail : VirtqAvail) (heads : List (Fin 64)) : VirtqAvail where
  idx := avail.idx + UInt16.ofNat heads.length
  ring := ((avail.slots heads).zip heads).foldl
    (fun ring entry => Function.update ring entry.1 (UInt16.ofNat entry.2.1)) avail.ring

namespace GpuCall

variable {build : Profile} {d d₁ d₂ : VirtioGpuDriver} {call : GpuCall} {heads : List (Fin 64)}

/-- A waiting call puts one head into the ring. -/
theorem submit_fills_waiting {command : GpuCommand} {replyLen : UInt32}
    (h : (do
      let (headIdx,_,d) ← d.submit build command replyLen
      .ok ([headIdx],d)) = Except.ok (heads,d₁)) :
    d₁.queue.available = d.queue.available.fill heads := by
  obtain ⟨⟨a,b,d'⟩,hsubmit,hpure⟩ := bind_inv h
  cases hpure
  obtain ⟨_,_,n,_,rfl⟩ := VirtioGpuDriver.submit_inv hsubmit
  rfl

theorem submitPair_fills {args : FlushArgs} {f : FlushDescriptors}
    (h : d.submitPair build args = .ok (f,d₁)) :
    d₁.queue.available = d.queue.available.fill [f.headIdx,f.idx3] := by
  obtain ⟨⟨f',d'⟩,hgrab,hpure⟩ := bind_inv h
  cases hpure
  obtain ⟨_,_,hgrab⟩ := bind_inv hgrab
  obtain ⟨_,_,hgrab⟩ := bind_inv hgrab
  obtain ⟨_,_,hgrab⟩ := bind_inv hgrab
  obtain ⟨_,_,hgrab⟩ := bind_inv hgrab
  obtain ⟨queue,hqueue,hgrab⟩ := bind_inv hgrab
  obtain ⟨_,_,hunlink⟩ := bind_inv hqueue
  cases hunlink
  cases hgrab
  rfl

/-- A call puts its heads into the slots from `idx` on. -/
theorem submit_fills (h : call.submit build d = .ok (heads,d₁)) :
    d₁.queue.available = d.queue.available.fill heads := by
  cases call with
  | flushToScreen args =>
    simp only [submit] at h
    split at h
    · cases h
      show d.queue.available = ⟨d.queue.available.idx + 0,d.queue.available.ring⟩
      rw [UInt16.add_zero]
    · obtain ⟨⟨f,d'⟩,hpair,hpure⟩ := bind_inv h
      cases hpure
      exact submitPair_fills hpair
  | getDisplayInfo reply => exact submit_fills_waiting h
  | create2dCanvas resourceId width height reply => exact submit_fills_waiting h
  | attachBacking resourceId backBufferPhys bufferLength reply => exact submit_fills_waiting h
  | setScanout scanoutId resourceId width height reply => exact submit_fills_waiting h

theorem reclaim_available {a b : Fin 64} (h : d.reclaim build a b = .ok d₁) :
    d₁.queue.available = d.queue.available := by
  rw [VirtioGpuDriver.reclaim_eq] at h
  obtain ⟨_,_,rfl⟩ := map_inv h
  rfl

theorem request_available {command : GpuCommand} {failure : String} {reply : Reply}
    (hsubmit : (do
      let (headIdx,_,d) ← d.submit build command 24
      .ok ([headIdx],d)) = Except.ok (heads,d₁))
    (h : (d.request build command failure reply).map Prod.snd = .ok d₂) :
    d₂.queue.available = d₁.queue.available := by
  obtain ⟨⟨a,b,d'⟩,hsent,hpure⟩ := bind_inv hsubmit
  cases hpure
  obtain ⟨out,hrun,rfl⟩ := map_inv h
  rw [VirtioGpuDriver.request,hsent] at hrun
  replace hrun : (if reply.ty = CommandTy.respOkNodata.code then do
      let d ← (d₁.wake reply.usedIdx).reclaim build a b
      .ok (.ok (),d)
    else .ok (.error failure,d₁.wake reply.usedIdx)) = Except.ok out := hrun
  split at hrun
  · obtain ⟨_,hreclaim,hpure⟩ := bind_inv hrun
    cases hpure
    have hkept := reclaim_available hreclaim
    exact hkept
  · cases hrun
    rfl

/-- From the doorbell on, a call leaves the available ring alone. -/
theorem run_available (hsubmit : call.submit build d = .ok (heads,d₁))
    (h : call.run build d = .ok d₂) : d₂.queue.available = d₁.queue.available := by
  cases call with
  | flushToScreen args =>
    simp only [submit,run,VirtioGpuDriver.flushToScreen] at hsubmit h
    split at h
    · rename_i hfull
      rw [if_pos hfull] at hsubmit
      cases hsubmit
      cases h
      rfl
    · rename_i hfull
      rw [if_neg hfull] at hsubmit
      obtain ⟨⟨f,d'⟩,hpair,hpure⟩ := bind_inv hsubmit
      cases hpure
      obtain ⟨_,hpair',h⟩ := bind_inv h
      cases hpair.symm.trans hpair'
      obtain ⟨queue,hqueue,hpure⟩ := bind_inv h
      obtain ⟨_,_,hadd⟩ := bind_inv hqueue
      cases hadd
      cases hpure
      rfl
  | getDisplayInfo reply =>
    obtain ⟨⟨a,b,d'⟩,hsent,hpure⟩ := bind_inv hsubmit
    cases hpure
    obtain ⟨⟨result,d''⟩,hrun,rfl⟩ := map_inv h
    obtain ⟨_,hsent',hrun⟩ := bind_inv hrun
    cases hsent.symm.trans hsent'
    obtain ⟨_,hreclaim,hpure⟩ := bind_inv hrun
    cases hpure
    have hkept := reclaim_available hreclaim
    exact hkept
  | create2dCanvas resourceId width height reply => exact request_available hsubmit h
  | attachBacking resourceId backBufferPhys bufferLength reply => exact request_available hsubmit h
  | setScanout scanoutId resourceId width height reply => exact request_available hsubmit h

end GpuCall

/-- The driver and its device: the device's index into the available ring, and the slots that the
driver has filled and the device has consumed. -/
structure RingState where
  driver : VirtioGpuDriver
  lastAvailIdx : UInt16
  filled : List ℕ
  consumed : List ℕ

/-- A call of the driver, or a head that the device takes. -/
inductive RingAction
  | call (call : GpuCall)
  | consume

inductive RingStep (build : Profile) (cfg : CommonConfig) :
    RingState → RingAction → RingState → Prop
  | call {s : RingState} {call : GpuCall} {heads : List (Fin 64)} {d d' : VirtioGpuDriver} :
      call.submit build s.driver = .ok (heads,d) → call.run build s.driver = .ok d' →
      RingStep build cfg s (.call call) {s with
        driver := d'
        filled := s.filled ++ (s.driver.queue.available.slots heads).map Fin.val}
  | consume {s : RingState} : s.lastAvailIdx ≠ s.driver.queue.available.idx →
      RingStep build cfg s .consume {s with
        lastAvailIdx := s.lastAvailIdx + 1
        consumed := s.consumed ++ [s.lastAvailIdx.toNat % cfg.queueSize.toNat]}

/-- Calls on the queue that the handshake has set up, and a device that takes heads out of the
available ring modulo its queue size. -/
def ringSystem (build : Profile) (driver : VirtioGpuDriver) (cfg : CommonConfig) :
    Runs.System RingState RingAction where
  init s := s = ⟨driver,0,[],[]⟩
  step := RingStep build cfg

namespace RingState

variable {build : Profile} {driver : VirtioGpuDriver} {cfg : CommonConfig} {s t : RingState}

/-- The `k`-th head is in slot `k mod 64`, and the device looks for it in slot `k mod 2^16` modulo
its queue size. -/
structure Inv (cfg : CommonConfig) (s : RingState) : Prop where
  filled : s.filled = (List.range s.filled.length).map (· % 64)
  idx : s.driver.queue.available.idx = UInt16.ofNat s.filled.length
  consumed : s.consumed =
    (List.range s.consumed.length).map fun k => k % 2^16 % cfg.queueSize.toNat
  last : s.lastAvailIdx = UInt16.ofNat s.consumed.length
  le : s.consumed.length ≤ s.filled.length

theorem Inv.step {a : RingAction} (h : s.Inv cfg) (hstep : RingStep build cfg s a t) :
    t.Inv cfg := by
  cases hstep with
  | @call call heads d d' hsubmit hrun =>
    have havail : d'.queue.available = s.driver.queue.available.fill heads :=
      (GpuCall.run_available hsubmit hrun).trans (GpuCall.submit_fills hsubmit)
    have hslots : (s.driver.queue.available.slots heads).map Fin.val =
        (List.range heads.length).map fun i => (s.filled.length + i) % 64 := by
      rw [VirtqAvail.slots,List.map_map]
      refine List.map_congr_left fun i _ => ?_
      show (s.driver.queue.available.idx.toNat + i) % 64 = _
      rw [h.idx,UInt16.toNat_ofNat']
      omega
    have hlen : (s.filled ++ (s.driver.queue.available.slots heads).map Fin.val).length =
        s.filled.length + heads.length := by
      rw [List.length_append,hslots,List.length_map,List.length_range]
    refine ⟨?_,?_,h.consumed,h.last,h.le.trans ?_⟩
    · show s.filled ++ _ = _
      rw [hlen,List.range_add,List.map_append,List.map_map,← h.filled,hslots]
      rfl
    · show d'.queue.available.idx = UInt16.ofNat _
      rw [hlen,havail,UInt16.ofNat_add,← h.idx]
      rfl
    · show s.filled.length ≤ (s.filled ++ _).length
      rw [hlen]
      exact Nat.le_add_right _ _
  | consume hne =>
    have hlen : (s.consumed ++ [s.lastAvailIdx.toNat % cfg.queueSize.toNat]).length =
        s.consumed.length + 1 := List.length_append
    refine ⟨h.filled,h.idx,?_,?_,?_⟩
    · show s.consumed ++ _ = _
      rw [hlen,List.range_succ,List.map_append,← h.consumed,h.last,UInt16.toNat_ofNat']
      rfl
    · show s.lastAvailIdx + 1 = UInt16.ofNat _
      rw [hlen,UInt16.ofNat_add,← h.last]
      rfl
    · show (s.consumed ++ _).length ≤ s.filled.length
      rw [hlen]
      refine lt_of_le_of_ne h.le fun heq => hne ?_
      rw [h.last,h.idx,heq]

theorem Inv.reachable (hnew : driver.queue = .new)
    (h : (ringSystem build driver cfg).Reachable s) : s.Inv cfg := by
  refine h.invariant ?_ fun s a t => Inv.step
  rintro _ rfl
  exact ⟨rfl,congrArg (fun q => q.available.idx) hnew,rfl,rfl,le_rfl⟩

/-- The two ways to index the ring agree for one size only, or as long as neither of them has
wrapped. -/
theorem slots_eq_iff {q n : ℕ} (hq : 0 < q) (hlt : q < 2^16) :
    (∀ k < n, k % 2^16 % q = k % 64) ↔ q = 64 ∨ n ≤ min q 64 := by
  constructor
  · intro h
    by_contra hnot
    obtain ⟨hne,hn⟩ := not_or.mp hnot
    rcases lt_or_gt_of_ne hne with hsmall | hlarge
    · have hwrap := h q (by omega)
      rw [Nat.mod_eq_of_lt hlt,Nat.mod_self,Nat.mod_eq_of_lt hsmall] at hwrap
      omega
    · have hwrap := h 64 (by omega)
      rw [Nat.mod_eq_of_lt (by omega : 64 < 2^16),Nat.mod_eq_of_lt hlarge] at hwrap
      omega
  · rintro (rfl | hn) k hk
    · omega
    · rw [Nat.mod_eq_of_lt (by omega : k < 2^16),Nat.mod_eq_of_lt (by omega : k < q),
        Nat.mod_eq_of_lt (by omega : k < 64)]

/-- The device has found every head in the slot that the driver put it in. -/
theorem Inv.agree_iff (h : s.Inv cfg) (hne : cfg.queueSize ≠ 0) :
    s.consumed <+: s.filled ↔
      cfg.queueSize = 64 ∨ s.consumed.length ≤ min cfg.queueSize.toNat 64 := by
  have hpos : 0 < cfg.queueSize.toNat :=
    Nat.pos_of_ne_zero fun hzero => hne (UInt16.toNat_inj.mp hzero)
  have htake : s.filled.take s.consumed.length = (List.range s.consumed.length).map (· % 64) := by
    rw [h.filled,← List.map_take,List.take_range,min_eq_left h.le]
  have h64 : cfg.queueSize = 64 ↔ cfg.queueSize.toNat = 64 := UInt16.toNat_inj.symm
  rw [List.prefix_iff_eq_take,htake,h64,← slots_eq_iff hpos cfg.queueSize.toNat_lt]
  nth_rewrite 1 [h.consumed]
  rw [List.map_inj_left]
  simp only [List.mem_range]

/-- Flushes fill any number of slots while the device takes its time. -/
theorem exists_filled (build : Profile) (cfg : CommonConfig) (hnew : driver.queue = .new) (n : ℕ) :
    ∃ s, (ringSystem build driver cfg).Reachable s ∧ s.filled.length = 2*n ∧ s.consumed = [] ∧
      (∃ l, l.length = 64 ∧ s.driver.queue.Free l) ∧ ∃ p, s.driver.queue.Logged p := by
  induction n with
  | zero =>
    refine ⟨_,.init rfl,rfl,rfl,⟨_,List.length_finRange,?_⟩,[],?_⟩
    · exact hnew ▸ .new
    · exact hnew ▸ .new
  | succ n ih =>
    obtain ⟨s,hs,hlen,hconsumed,⟨l,hl,hfree⟩,p,hlog⟩ := ih
    obtain ⟨chains,d₁,d₂,hserved⟩ := GpuCall.served_flushToScreen build ⟨1,800,600⟩ hfree hl hlog
    have hpair : (chains.map Prod.fst).length = 2 := by
      have hsubmit := hserved.submit
      have hnum : ¬s.driver.queue.numFree < 4 := by
        rw [UInt16.lt_iff_toNat_lt,hfree.numFree,hl]
        decide
      rw [GpuCall.submit,if_neg hnum] at hsubmit
      obtain ⟨out,_,hpure⟩ := bind_inv hsubmit
      have hheads := (Prod.mk.inj (Except.ok.inj hpure)).1
      rw [← hheads]
      rfl
    refine ⟨_,hs.step (.call hserved.submit hserved.run),?_,hconsumed,hserved.free,_,hserved.logged⟩
    show (s.filled ++ _).length = _
    rw [List.length_append,hlen,List.length_map,VirtqAvail.slots,List.length_map,List.length_range,
      hpair]
    ring

/-- The device may take as many heads as there are, up to the `2^16`-th. -/
theorem exists_consumed (hnew : driver.queue = .new)
    (hs : (ringSystem build driver cfg).Reachable s) (hempty : s.consumed = []) {n : ℕ}
    (hn : n ≤ s.filled.length) (hlt : s.filled.length < 2^16) :
    ∃ t, (ringSystem build driver cfg).Reachable t ∧ t.filled.length = s.filled.length ∧
      t.consumed.length = n := by
  induction n with
  | zero => exact ⟨s,hs,rfl,by rw [hempty,List.length_nil]⟩
  | succ n ih =>
    obtain ⟨t,ht,hfilled,hlen⟩ := ih (by omega)
    have hinv := Inv.reachable hnew ht
    have hne : t.lastAvailIdx ≠ t.driver.queue.available.idx := by
      rw [hinv.last,hinv.idx,hlen,hfilled,Ne,← UInt16.toNat_inj,UInt16.toNat_ofNat',
        UInt16.toNat_ofNat']
      omega
    refine ⟨_,ht.step (.consume hne),hfilled,?_⟩
    show (t.consumed ++ _).length = _
    rw [List.length_append,hlen,List.length_singleton]

end RingState

section
variable {F : Type} [FrameAllocator F]

/-- After a handshake that succeeds, the device finds the heads in the slots that the driver puts
them in as long as it holds a queue size of 64, or the indices have not passed the smaller of the
two sizes; in every run, exactly if it holds a queue size of 64. -/
theorem slots_agree_iff (build : Profile) (mapTo : F → ℕ → Except Panic (Bool × F))
    (memory : Memory) (physMemOffset : VirtAddr) (dev : VirtioDevice) (answers : PciFunction)
    (bus slot func : UInt8) (frameAllocator : F) (cfg cfg' : CommonConfig)
    (driver : VirtioGpuDriver) (doorbell : UInt64)
    (h : initVirtioDevice build mapTo memory physMemOffset dev answers bus slot func frameAllocator
      cfg = .ok (driver,cfg',doorbell)) :
    (∀ s, (ringSystem build driver cfg').Reachable s →
      (s.consumed <+: s.filled ↔
        dev.queueSize = 64 ∨ s.consumed.length ≤ min dev.queueSize.toNat 64)) ∧
    ((∀ s, (ringSystem build driver cfg').Reachable s → s.consumed <+: s.filled) ↔
      dev.queueSize = 64) := by
  obtain ⟨hnew,hsize,hne,_⟩ := initVirtioDevice_inv h
  have hstate : ∀ s, (ringSystem build driver cfg').Reachable s → (s.consumed <+: s.filled ↔
      dev.queueSize = 64 ∨ s.consumed.length ≤ min dev.queueSize.toNat 64) := by
    intro s hs
    have hagree := (RingState.Inv.reachable hnew hs).agree_iff (hsize ▸ hne)
    rwa [hsize] at hagree
  refine ⟨hstate,fun hall => ?_,fun h64 s hs => (hstate s hs).mpr (.inl h64)⟩
  obtain ⟨s,hs,hfilled,hempty,_⟩ := RingState.exists_filled build cfg' hnew 33
  obtain ⟨t,ht,_,hconsumed⟩ :=
    RingState.exists_consumed hnew hs hempty (n := 65) (by omega) (by omega)
  refine ((hstate t ht).mp (hall t ht)).resolve_right ?_
  rw [hconsumed]
  omega

end
/-- A capability list with the two regions that the handshake needs. -/
def gpuFunction : PciFunction := fun n =>
  [0x40,0x01145009,0,0,0xFE000000,0x02140009,0,0x3000,0xFE000000,4].getD n 0

/-- A device that accepts everything, with a control queue of that size. -/
def gpuDevice (queueSize : UInt16) : VirtioDevice := ⟨id,queueSize,0⟩

/-- Sixteen free frames. -/
def gpuFrames : BootInfoFrameAllocator := .init [⟨0x10000,0x20000,.usable⟩]

def gpuHandshake (dev : VirtioDevice) : Except Fault (VirtioGpuDriver × CommonConfig × UInt64) :=
  initVirtioDevice .dev (fun frames _ => .ok (true,frames)) (fun _ => 0) ⟨0,by decide⟩
    dev gpuFunction 0 3 0 gpuFrames ⟨0,0,0,0,0,0,0,0⟩

/-- A queue of 64 entries: the slots agree in every run. -/
theorem slots_agree_64 : ∃ driver cfg doorbell,
    gpuHandshake (gpuDevice 64) = .ok (driver,cfg,doorbell) ∧
    ∀ s, (ringSystem .dev driver cfg).Reachable s → s.consumed <+: s.filled := by
  obtain ⟨⟨driver,cfg,doorbell⟩,h⟩ : ∃ out, gpuHandshake (gpuDevice 64) = .ok out := ⟨_,rfl⟩
  exact ⟨driver,cfg,doorbell,h,(slots_agree_iff .dev _ _ _ _ _ _ _ _ _ _ _ _ _ h).2.mpr rfl⟩

/-- A queue of 256 entries: the 65th head is in slot 0, and the device looks for it in slot 64,
behind the ring. -/
theorem slots_differ_256 : ¬∀ (dev : VirtioDevice) (driver : VirtioGpuDriver) (cfg : CommonConfig)
    (doorbell : UInt64), gpuHandshake dev = .ok (driver,cfg,doorbell) →
    ∀ s, (ringSystem .dev driver cfg).Reachable s → s.consumed <+: s.filled := by
  intro hall
  obtain ⟨⟨driver,cfg,doorbell⟩,h⟩ : ∃ out, gpuHandshake (gpuDevice 256) = .ok out := ⟨_,rfl⟩
  obtain ⟨hnew,hsize,hne,_⟩ := initVirtioDevice_inv h
  obtain ⟨s,hs,hfilled,hempty,_⟩ := RingState.exists_filled .dev cfg hnew 33
  obtain ⟨t,ht,_,hconsumed⟩ :=
    RingState.exists_consumed hnew hs hempty (n := 65) (by omega) (by omega)
  have hprefix := hall (gpuDevice 256) driver cfg doorbell h t ht
  rw [(RingState.Inv.reachable hnew ht).agree_iff (hsize ▸ hne),hsize,hconsumed] at hprefix
  exact absurd hprefix (by decide)

end PolymorphOS
