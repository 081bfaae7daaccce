import PolymorphOS.RegisterPrograms
import PolymorphOS.VirtioQueueSize

/-! The register accesses of `init_virtio_device`, interleaved with a device that may refuse the
features and may fail at any time. -/
namespace PolymorphOS

/-- The registers of the common configuration structure that the driver uses. -/
inductive VirtioReg
  | deviceStatus | queueSelect | queueSize | queueEnable | queueNotifyOff | queueDesc | queueDriver
  | queueDevice
  deriving DecidableEq

abbrev VirtioProgram := RegProgram VirtioReg UInt64

/-- The descriptor table, the available and the used ring. -/
structure RingAddrs where
  desc : UInt64
  avail : UInt64
  used : UInt64

namespace VirtioPci

open RegProgram

/-- Steps 1 to 5: the status, or nothing if the device refuses. -/
def negotiateFeatures : VirtioProgram (Option UInt8) := do
  writeReg .deviceStatus 0
  let status := (← readReg .deviceStatus).toUInt8 ||| virtioStatusAcknowledge
  writeReg .deviceStatus status.toUInt64
  let status := status ||| virtioStatusDriver
  writeReg .deviceStatus status.toUInt64
  let status := status ||| virtioStatusFeaturesOk
  writeReg .deviceStatus status.toUInt64
  let checkStatus := (← readReg .deviceStatus).toUInt8
  if checkStatus &&& virtioStatusFeaturesOk = 0 then return none else return some status

/-- The rest of steps 6 and 7, once the memory is there: the doorbell. -/
def startQueue (status : UInt8) (rings : RingAddrs) (notifyCfgVirt : UInt64) (multiplier : UInt32) :
    VirtioProgram UInt64 := do
  writeReg .queueDesc rings.desc
  writeReg .queueDriver rings.avail
  writeReg .queueDevice rings.used
  let qNotifyOff ← readReg .queueNotifyOff
  writeReg .queueEnable 1
  writeReg .deviceStatus (status ||| virtioStatusDriverOk).toUInt64
  return notifyCfgVirt + qNotifyOff * multiplier.toUInt64

/-- `notify` is where `map_mmio` put the notification structure, `rings` what `setup_control_queue`
returned. -/
def handshake (notify : Option UInt64) (rings : Except String RingAddrs) (multiplier : UInt32) :
    VirtioProgram (Except String UInt64) := do
  match ← negotiateFeatures with
  | none => return .error "Device refused our features!"
  | some status =>
    writeReg .queueSelect 0
    let qSize ← readReg .queueSize
    if qSize = 0 then return .error "GPU reports Control Queue size is 0."
    else
      match notify,rings with
      | none,_ => return .error "Failed to map Notify_Cfg MMIO space."
      | some _,.error e => return .error e
      | some notifyCfgVirt,.ok rings =>
        let doorbell ← startQueue status rings notifyCfgVirt multiplier
        return .ok doorbell

end VirtioPci

/-! ### On a device that only answers -/

namespace VirtioPci

def CommonConfig.read (cfg : CommonConfig) : VirtioReg → UInt64
  | .deviceStatus => cfg.deviceStatus.toUInt64
  | .queueSelect => cfg.queueSelect.toUInt64
  | .queueSize => cfg.queueSize.toUInt64
  | .queueEnable => cfg.queueEnable.toUInt64
  | .queueNotifyOff => cfg.queueNotifyOff.toUInt64
  | .queueDesc => cfg.queueDesc
  | .queueDriver => cfg.queueDriver
  | .queueDevice => cfg.queueDevice

def CommonConfig.write (dev : VirtioDevice) (cfg : CommonConfig) (r : VirtioReg) (v : UInt64) :
    CommonConfig :=
  match r with
  | .deviceStatus => cfg.writeStatus dev v.toUInt8
  | .queueSelect => {cfg with queueSelect := v.toUInt16}
  | .queueSize => {cfg with queueSize := v.toUInt16}
  | .queueEnable => {cfg with queueEnable := v.toUInt16}
  | .queueNotifyOff => cfg
  | .queueDesc => {cfg with queueDesc := v}
  | .queueDriver => {cfg with queueDriver := v}
  | .queueDevice => {cfg with queueDevice := v}

/-- The device of `init_virtio_device`, run on its own. -/
def CommonConfig.device (dev : VirtioDevice) : Device CommonConfig VirtioReg UInt64 :=
  ⟨read,write dev,fun _ _ => False⟩

theorem negotiate_exec {dev : VirtioDevice} {cfg cfg' : CommonConfig} {status : UInt8}
    (h : negotiate dev cfg = .ok (status,cfg')) :
    negotiateFeatures.exec (CommonConfig.device dev) cfg = some (some status,cfg') := by
  simp only [negotiate] at h
  split at h
  · cases h
  rename_i hbit
  cases h
  change RegProgram.exec _ (if _ then _ else _) _ = _
  have hzero : UInt64.toUInt8 0 = 0 := rfl
  simp only [CommonConfig.device,CommonConfig.read,CommonConfig.write,UInt8.toUInt8_toUInt64,hzero,
    if_neg hbit]
  rfl

section
variable {F : Type} [FrameAllocator F] {build : Profile}
  {mapTo : F → ℕ → Except Panic (Bool × F)} {memory : Memory} {physMemOffset : VirtAddr}
  {dev : VirtioDevice} {answers : PciFunction} {bus slot func : UInt8} {frameAllocator : F}
  {driver : VirtioGpuDriver} {cfg cfg' : CommonConfig} {doorbell : UInt64} {status : UInt8}

theorem attempt_inv {A : Type} {x : Except Panic A} {a : A} (h : attempt x = .ok a) : x = .ok a := by
  cases x with
  | error e => cases h
  | ok b =>
    cases h
    rfl

theorem wireControlQueue_exec {caps : VirtioCapabilities}
    (h : wireControlQueue build mapTo memory physMemOffset dev caps status cfg frameAllocator =
      .ok (driver,cfg',doorbell)) :
    cfg.queueSize ≠ 0 ∧ ∃ rings notifyCfgVirt,
      (startQueue status rings notifyCfgVirt caps.notifyOffMultiplier).exec (CommonConfig.device dev)
        {cfg with queueSelect := 0} = some (doorbell,cfg') := by
  by_cases hzero : cfg.queueSize = 0
  · simp only [wireControlQueue,hzero,if_true,reduceCtorEq] at h
  refine ⟨hzero,?_⟩
  simp only [wireControlQueue,hzero,if_false] at h
  obtain ⟨_,_,h⟩ := bind_inv h
  obtain ⟨notifyCfgVirt,_,h⟩ := bind_inv h
  obtain ⟨⟨⟨desc,avail,used⟩,_⟩,_,h⟩ := bind_inv h
  obtain ⟨offset,hoffset,h⟩ := bind_inv h
  obtain ⟨doorbell',hdoorbell,h⟩ := bind_inv h
  cases h
  refine ⟨⟨desc,avail,used⟩,notifyCfgVirt.1,?_⟩
  change some (notifyCfgVirt.1 + cfg.queueNotifyOff.toUInt64 * caps.notifyOffMultiplier.toUInt64,
    CommonConfig.writeStatus dev _ (status ||| virtioStatusDriverOk).toUInt64.toUInt8) = _
  rw [UInt8.toUInt8_toUInt64,(addU64_iff.mp (attempt_inv hdoorbell)).2,
    (mulU64_iff.mp (attempt_inv hoffset)).2]
  rfl

/-- `init_virtio_device` makes the accesses of the handshake. -/
theorem initVirtioDevice_exec
    (h : initVirtioDevice build mapTo memory physMemOffset dev answers bus slot func frameAllocator
      cfg = .ok (driver,cfg',doorbell)) :
    ∃ notifyCfgVirt rings multiplier,
      (handshake (some notifyCfgVirt) (.ok rings) multiplier).exec (CommonConfig.device dev) cfg =
        some (.ok doorbell,cfg') := by
  obtain ⟨_,_,h⟩ := bind_inv h
  obtain ⟨caps,_,h⟩ := bind_inv h
  obtain ⟨_,_,h⟩ := bind_inv h
  obtain ⟨_,_,h⟩ := bind_inv h
  obtain ⟨⟨status,negotiated⟩,hnegotiate,h⟩ := bind_inv h
  obtain ⟨hsize,rings,notifyCfgVirt,hexec⟩ := wireControlQueue_exec h
  refine ⟨notifyCfgVirt,rings,caps.notifyOffMultiplier,?_⟩
  have hne : ¬negotiated.queueSize.toUInt64 = 0 :=
    fun hzero => hsize (UInt16.toUInt64_inj.mp hzero)
  rw [handshake,RegProgram.exec_bind,negotiate_exec hnegotiate]
  change RegProgram.exec _ (if negotiated.queueSize.toUInt64 = 0 then _ else _)
    {negotiated with queueSelect := 0} = _
  rw [if_neg hne]
  change RegProgram.exec _ (startQueue status rings notifyCfgVirt caps.notifyOffMultiplier >>= _) _ = _
  rw [RegProgram.exec_bind,hexec]
  rfl

end

end VirtioPci

/-- What a queue's registers hold. -/
structure QueueRegs where
  size : UInt16
  notifyOff : UInt16
  enable : UInt64
  rings : RingAddrs

/-- A device: the status bits of the driver that it has kept, whether it needs a reset, whether it
would take the features, its queues, and what it offers for each of them. -/
structure VirtioState where
  kept : UInt8
  needsReset : Bool
  accepts : Bool
  select : UInt16
  queue : UInt16 → QueueRegs
  offered : UInt16 → UInt16 × UInt16

namespace VirtioState

def deviceNeedsReset : UInt8 := 64

/-- A queue after a reset. -/
def blank (offer : UInt16 × UInt16) : QueueRegs := ⟨offer.1,offer.2,0,⟨0,0,0⟩⟩

def status (d : VirtioState) : UInt8 := if d.needsReset then d.kept ||| deviceNeedsReset else d.kept

def read (d : VirtioState) : VirtioReg → UInt64
  | .deviceStatus => d.status.toUInt64
  | .queueSelect => d.select.toUInt64
  | .queueSize => (d.queue d.select).size.toUInt64
  | .queueEnable => (d.queue d.select).enable
  | .queueNotifyOff => (d.queue d.select).notifyOff.toUInt64
  | .queueDesc => (d.queue d.select).rings.desc
  | .queueDriver => (d.queue d.select).rings.avail
  | .queueDevice => (d.queue d.select).rings.used

/-- The bits of a status that a device keeps: not its own, and the features only if it takes them. -/
def keptBits (kept : UInt8) (accepts : Bool) (status : UInt8) : UInt8 :=
  let status := status &&& ~~~deviceNeedsReset
  if kept &&& VirtioPci.virtioStatusFeaturesOk = 0 ∧ accepts = false then
    status &&& ~~~VirtioPci.virtioStatusFeaturesOk
  else status

/-- A write of zero is a reset. -/
def writeStatus (d : VirtioState) (status : UInt8) : VirtioState :=
  if status = 0 then
    {d with kept := 0,needsReset := false,select := 0,queue := fun i => blank (d.offered i)}
  else {d with kept := keptBits d.kept d.accepts status}

def setQueue (d : VirtioState) (f : QueueRegs → QueueRegs) : VirtioState :=
  {d with queue := Function.update d.queue d.select (f (d.queue d.select))}

def write (d : VirtioState) (r : VirtioReg) (v : UInt64) : VirtioState :=
  match r with
  | .deviceStatus => d.writeStatus v.toUInt8
  | .queueSelect => {d with select := v.toUInt16}
  | .queueSize => d.setQueue fun q => {q with size := v.toUInt16}
  | .queueEnable => d.setQueue fun q => {q with enable := v}
  | .queueNotifyOff => d
  | .queueDesc => d.setQueue fun q => {q with rings.desc := v}
  | .queueDriver => d.setQueue fun q => {q with rings.avail := v}
  | .queueDevice => d.setQueue fun q => {q with rings.used := v}

/-- What a conformant device does on its own: it may fail, and it may change its mind about the
features as long as it has not taken them. -/
inductive Own : VirtioState → VirtioState → Prop
  | fails {d : VirtioState} : Own d {d with needsReset := true}
  | decides {d : VirtioState} {accepts : Bool} : d.kept &&& VirtioPci.virtioStatusFeaturesOk = 0 →
      Own d {d with accepts}

def device : Device VirtioState VirtioReg UInt64 := ⟨read,write,Own⟩

/-- The device has taken the features, and is not live. -/
def Configurable (d : VirtioState) : Prop :=
  d.kept &&& VirtioPci.virtioStatusFeaturesOk ≠ 0 ∧ d.kept &&& VirtioPci.virtioStatusDriverOk = 0

/-- What the specification asks of the driver: it takes no status bit back but by a reset, sets up
queues only between the features and `DRIVER_OK`, a queue before it is enabled, and is ready only
with its queue enabled. -/
def HostMay (rings : Except String RingAddrs) (d : VirtioState) : VirtioReg → UInt64 → Prop
  | .deviceStatus,v => v.toUInt8 = 0 ∨ d.kept &&& ~~~v.toUInt8 = 0 ∧
    (v.toUInt8 &&& VirtioPci.virtioStatusDriverOk ≠ 0 → d.Configurable ∧ (d.queue 0).enable = 1)
  | .queueSelect,_ => d.Configurable
  | .queueEnable,v => d.Configurable ∧ (d.queue d.select).enable = 0 ∧ v = 1 ∧
    rings = .ok (d.queue d.select).rings
  | .queueSize,_ => False
  | .queueNotifyOff,_ => False
  | _,_ => d.Configurable ∧ (d.queue d.select).enable = 0

/-- What the device offers for its control queue: the size, and where the doorbell is. -/
def Offers (offer : UInt16 × UInt16) (d : VirtioState) : Prop := d.offered 0 = offer

/-- The device has kept these bits, and its control queue is selected and set up so far. -/
structure Stage (offer : UInt16 × UInt16) (kept : UInt8) (rings : RingAddrs) (enable : UInt64)
    (d : VirtioState) : Prop where
  offers : d.Offers offer
  kept : d.kept = kept
  select : d.select = 0
  queue : d.queue 0 = ⟨offer.1,offer.2,enable,rings⟩

/-- What the handshake promises with its result: the device is live with the driver's rings and the
doorbell is the one that it offers, or it is not live and its control queue is off. -/
def Outcome (offer : UInt16 × UInt16) (notify : Option UInt64) (rings : Except String RingAddrs)
    (multiplier : UInt32) : Except String UInt64 → VirtioState → Prop
  | .ok doorbell,d => ∃ addrs notifyCfgVirt, rings = .ok addrs ∧ notify = some notifyCfgVirt ∧
    Stage offer 15 addrs 1 d ∧ offer.1 ≠ 0 ∧
    doorbell = notifyCfgVirt + offer.2.toUInt64 * multiplier.toUInt64
  | .error _,d => d.kept &&& VirtioPci.virtioStatusDriverOk = 0 ∧ (d.queue 0).enable = 0

/-! ### The proof outline -/

section

variable {d : VirtioState} {offer : UInt16 × UInt16} {kept : UInt8} {rings : RingAddrs}
  {enable : UInt64} {given : Except String RingAddrs}

theorem stable_offers : device.Stable (Offers offer) := by
  intro d d' hd hown
  cases hown <;> exact hd

theorem stable_stage : device.Stable (Stage offer kept rings enable) := by
  intro d d' hd hown
  cases hown <;> exact ⟨hd.offers,hd.kept,hd.select,hd.queue⟩

theorem reset_stage (h : d.Offers offer) :
    Stage offer 0 ⟨0,0,0⟩ 0 (device.write d .deviceStatus 0) := by
  refine ⟨h,rfl,rfl,?_⟩
  show blank (d.offered 0) = _
  rw [h,blank]

theorem Stage.read_status (h : Stage offer kept rings enable d) :
    (device.read d .deviceStatus).toUInt8 = kept ∨
      (device.read d .deviceStatus).toUInt8 = kept ||| deviceNeedsReset := by
  show d.status.toUInt64.toUInt8 = _ ∨ d.status.toUInt64.toUInt8 = _
  rw [UInt8.toUInt8_toUInt64,status,h.kept]
  cases d.needsReset
  · exact Or.inl rfl
  · exact Or.inr rfl

theorem Stage.read_size (h : Stage offer kept rings enable d) :
    device.read d .queueSize = offer.1.toUInt64 := by
  show (d.queue d.select).size.toUInt64 = _
  rw [h.select,h.queue]

theorem Stage.read_notifyOff (h : Stage offer kept rings enable d) :
    device.read d .queueNotifyOff = offer.2.toUInt64 := by
  show (d.queue d.select).notifyOff.toUInt64 = _
  rw [h.select,h.queue]

/-- A further status bit of the driver. -/
theorem Stage.write_status (h : Stage offer kept rings enable d) {status : UInt8}
    (hne : status ≠ 0) : Stage offer (keptBits kept d.accepts status) rings enable
      (device.write d .deviceStatus status.toUInt64) := by
  have hwrite : device.write d .deviceStatus status.toUInt64 =
      {d with kept := keptBits d.kept d.accepts status} := by
    show d.writeStatus status.toUInt64.toUInt8 = _
    rw [UInt8.toUInt8_toUInt64,writeStatus,if_neg hne]
  rw [hwrite,h.kept]
  exact ⟨h.offers,rfl,h.select,h.queue⟩

theorem Stage.may_write_status (h : Stage offer kept rings enable d) {status : UInt8}
    (hkept : kept &&& ~~~status = 0) (hlive : status &&& VirtioPci.virtioStatusDriverOk = 0) :
    HostMay given d .deviceStatus status.toUInt64 := by
  refine Or.inr ?_
  rw [UInt8.toUInt8_toUInt64,h.kept]
  exact ⟨hkept,fun hne => absurd hlive hne⟩

theorem Stage.write_select (h : Stage offer kept rings enable d) :
    Stage offer kept rings enable (device.write d .queueSelect 0) :=
  ⟨h.offers,h.kept,rfl,h.queue⟩

/-- A register of the control queue. -/
theorem Stage.setQueue (h : Stage offer kept rings enable d) {f : QueueRegs → QueueRegs}
    {rings' : RingAddrs} {enable' : UInt64}
    (hf : ∀ size notifyOff, f ⟨size,notifyOff,enable,rings⟩ = ⟨size,notifyOff,enable',rings'⟩) :
    Stage offer kept rings' enable' (d.setQueue f) := by
  refine ⟨h.offers,h.kept,h.select,?_⟩
  show Function.update d.queue d.select (f (d.queue d.select)) 0 = _
  rw [h.select,Function.update_self,h.queue,hf]

theorem Stage.write_desc (h : Stage offer kept rings enable d) (v : UInt64) :
    Stage offer kept {rings with desc := v} enable (device.write d .queueDesc v) :=
  h.setQueue (f := fun q => {q with rings.desc := v}) fun _ _ => rfl

theorem Stage.write_driver (h : Stage offer kept rings enable d) (v : UInt64) :
    Stage offer kept {rings with avail := v} enable (device.write d .queueDriver v) :=
  h.setQueue (f := fun q => {q with rings.avail := v}) fun _ _ => rfl

theorem Stage.write_device (h : Stage offer kept rings enable d) (v : UInt64) :
    Stage offer kept {rings with used := v} enable (device.write d .queueDevice v) :=
  h.setQueue (f := fun q => {q with rings.used := v}) fun _ _ => rfl

theorem Stage.write_enable (h : Stage offer kept rings enable d) (v : UInt64) :
    Stage offer kept rings v (device.write d .queueEnable v) :=
  h.setQueue (f := fun q => {q with enable := v}) fun _ _ => rfl

/-- While the features are taken and the device is not live. -/
theorem Stage.configurable (h : Stage offer 11 rings enable d) : d.Configurable := by
  rw [Configurable,h.kept]
  decide

theorem Stage.enable_eq (h : Stage offer kept rings enable d) :
    (d.queue d.select).enable = enable := by
  rw [h.select,h.queue]

/-- Not live yet, and the control queue is off. -/
theorem Stage.outcome_error (h : Stage offer kept rings 0 d)
    (hkept : kept &&& VirtioPci.virtioStatusDriverOk = 0) (notify : Option UInt64)
    (multiplier : UInt32) (e : String) : Outcome offer notify given multiplier (.error e) d := by
  rw [Outcome,h.kept,h.queue]
  exact ⟨hkept,rfl⟩

end

/-- What the first steps of the handshake leave, whatever the device held. -/
theorem negotiateFeatures_proves (offer : UInt16 × UInt16) (given : Except String RingAddrs) :
    RegProgram.Proves device (HostMay given)
      (fun status d => match status with
        | none => Stage offer 3 ⟨0,0,0⟩ 0 d
        | some status => (status = 11 ∨ status = 75) ∧ Stage offer 11 ⟨0,0,0⟩ 0 d)
      (Offers offer) VirtioPci.negotiateFeatures := by
  refine .write (Stage offer 0 ⟨0,0,0⟩ 0) stable_offers (fun d hd => ⟨Or.inl rfl,reset_stage hd⟩) ?_
  refine .read (fun v d => (v.toUInt8 = 0 ∨ v.toUInt8 = 64) ∧ Stage offer 0 ⟨0,0,0⟩ 0 d) stable_stage
    (fun d hd => ⟨hd.read_status,hd⟩) fun v => ?_
  refine .ofPure stable_stage fun hv => ?_
  let status := v.toUInt8
  have hacknowledge : status ||| 1 ≠ 0 ∧ (0 : UInt8) &&& ~~~(status ||| 1) = 0 ∧
      (status ||| 1) &&& VirtioPci.virtioStatusDriverOk = 0 ∧
      ∀ accepts, keptBits 0 accepts (status ||| 1) = 1 := by
    rcases hv with hv | hv <;> simp only [status,hv] <;> decide
  have hdriver : status ||| 1 ||| 2 ≠ 0 ∧ (1 : UInt8) &&& ~~~(status ||| 1 ||| 2) = 0 ∧
      (status ||| 1 ||| 2) &&& VirtioPci.virtioStatusDriverOk = 0 ∧
      ∀ accepts, keptBits 1 accepts (status ||| 1 ||| 2) = 3 := by
    rcases hv with hv | hv <;> simp only [status,hv] <;> decide
  have hfeatures : status ||| 1 ||| 2 ||| 8 ≠ 0 ∧ (3 : UInt8) &&& ~~~(status ||| 1 ||| 2 ||| 8) = 0 ∧
      (status ||| 1 ||| 2 ||| 8) &&& VirtioPci.virtioStatusDriverOk = 0 ∧
      ∀ accepts, keptBits 3 accepts (status ||| 1 ||| 2 ||| 8) = if accepts then 11 else 3 := by
    rcases hv with hv | hv <;> simp only [status,hv] <;> decide
  have hstatus : status ||| 1 ||| 2 ||| 8 = 11 ∨ status ||| 1 ||| 2 ||| 8 = 75 := by
    rcases hv with hv | hv <;> simp only [status,hv] <;> decide
  refine .write (Stage offer 1 ⟨0,0,0⟩ 0) stable_stage (fun d hd => ?_) ?_
  · obtain ⟨hne,hkept,hlive,hbits⟩ := hacknowledge
    exact ⟨hd.may_write_status hkept hlive,hbits d.accepts ▸ hd.write_status hne⟩
  refine .write (Stage offer 3 ⟨0,0,0⟩ 0) stable_stage (fun d hd => ?_) ?_
  · obtain ⟨hne,hkept,hlive,hbits⟩ := hdriver
    exact ⟨hd.may_write_status hkept hlive,hbits d.accepts ▸ hd.write_status hne⟩
  -- The device takes the features, or it does not.
  have hstable : device.Stable fun d => Stage offer 3 ⟨0,0,0⟩ 0 d ∨ Stage offer 11 ⟨0,0,0⟩ 0 d :=
    fun d d' hd hown => hd.imp (stable_stage d d' · hown) (stable_stage d d' · hown)
  refine .write (fun d => Stage offer 3 ⟨0,0,0⟩ 0 d ∨ Stage offer 11 ⟨0,0,0⟩ 0 d) stable_stage
    (fun d hd => ?_) ?_
  · obtain ⟨hne,hkept,hlive,hbits⟩ := hfeatures
    have hstage := hd.write_status hne
    rw [hbits d.accepts] at hstage
    refine ⟨hd.may_write_status hkept hlive,?_⟩
    cases haccepts : d.accepts with
    | false =>
      rw [haccepts] at hstage
      exact Or.inl hstage
    | true =>
      rw [haccepts] at hstage
      exact Or.inr hstage
  refine .read (fun v d => if v.toUInt8 &&& 8 = 0 then Stage offer 3 ⟨0,0,0⟩ 0 d
    else Stage offer 11 ⟨0,0,0⟩ 0 d) hstable (fun d hd => ?_) fun v => ?_
  · rcases hd with hd | hd
    · rcases hd.read_status with hv | hv <;> rw [hv] <;> exact hd
    · rcases hd.read_status with hv | hv <;> rw [hv] <;> exact hd
  · show RegProgram.Proves device (HostMay given) _ _ (if v.toUInt8 &&& 8 = 0 then .ret none
      else .ret (some (status ||| 1 ||| 2 ||| 8)))
    by_cases hbit : v.toUInt8 &&& 8 = 0
    · simp only [if_pos hbit]
      exact .ret stable_stage fun d hd => hd
    · simp only [if_neg hbit]
      exact .ret stable_stage fun d hd => ⟨hstatus,hd⟩

/-- From the taken features on, the queue is set up and the device goes live. -/
theorem startQueue_proves (offer : UInt16 × UInt16) {status : UInt8}
    (hstatus : status = 11 ∨ status = 75) (addrs : RingAddrs) (notifyCfgVirt : UInt64)
    (multiplier : UInt32) :
    RegProgram.Proves device (HostMay (.ok addrs))
      (fun doorbell d => doorbell = notifyCfgVirt + offer.2.toUInt64 * multiplier.toUInt64 ∧
        Stage offer 15 addrs 1 d)
      (Stage offer 11 ⟨0,0,0⟩ 0) (VirtioPci.startQueue status addrs notifyCfgVirt multiplier) := by
  refine .write (Stage offer 11 ⟨addrs.desc,0,0⟩ 0) stable_stage
    (fun d hd => ⟨⟨hd.configurable,hd.enable_eq⟩,hd.write_desc _⟩) ?_
  refine .write (Stage offer 11 ⟨addrs.desc,addrs.avail,0⟩ 0) stable_stage
    (fun d hd => ⟨⟨hd.configurable,hd.enable_eq⟩,hd.write_driver _⟩) ?_
  refine .write (Stage offer 11 addrs 0) stable_stage
    (fun d hd => ⟨⟨hd.configurable,hd.enable_eq⟩,hd.write_device _⟩) ?_
  refine .read (fun v d => v = offer.2.toUInt64 ∧ Stage offer 11 addrs 0 d) stable_stage
    (fun d hd => ⟨hd.read_notifyOff,hd⟩) fun v => ?_
  refine .ofPure stable_stage fun hv => ?_
  refine .write (Stage offer 11 addrs 1) stable_stage (fun d hd => ?_) ?_
  · have hrings : (d.queue d.select).rings = addrs := by rw [hd.select,hd.queue]
    exact ⟨⟨hd.configurable,hd.enable_eq,rfl,congrArg _ hrings.symm⟩,hd.write_enable 1⟩
  have hlive : status ||| 4 ≠ 0 ∧ (11 : UInt8) &&& ~~~(status ||| 4) = 0 ∧
      ∀ accepts, keptBits 11 accepts (status ||| 4) = 15 := by
    rcases hstatus with rfl | rfl <;> decide
  refine .write (Stage offer 15 addrs 1) stable_stage (fun d hd => ?_) ?_
  · obtain ⟨hne,hkept,hbits⟩ := hlive
    refine ⟨Or.inr ?_,hbits d.accepts ▸ hd.write_status hne⟩
    have henable : (d.queue 0).enable = 1 := by rw [hd.queue]
    rw [UInt8.toUInt8_toUInt64,hd.kept]
    exact ⟨hkept,fun _ => ⟨hd.configurable,henable⟩⟩
  · exact .ret stable_stage fun d hd => ⟨hv ▸ rfl,hd⟩

/-- The whole handshake. -/
theorem handshake_proves (offer : UInt16 × UInt16) (notify : Option UInt64)
    (rings : Except String RingAddrs) (multiplier : UInt32) :
    RegProgram.Proves device (HostMay rings) (Outcome offer notify rings multiplier) (Offers offer)
      (VirtioPci.handshake notify rings multiplier) := by
  refine (negotiateFeatures_proves offer rings).bind fun negotiated => ?_
  cases negotiated with
  | none => exact .ret stable_stage fun d hd => hd.outcome_error (by decide) notify multiplier _
  | some status =>
    refine .ofPure stable_stage fun hstatus => ?_
    refine .write (Stage offer 11 ⟨0,0,0⟩ 0) stable_stage
      (fun d hd => ⟨hd.configurable,hd.write_select⟩) ?_
    refine .read (fun v d => v = offer.1.toUInt64 ∧ Stage offer 11 ⟨0,0,0⟩ 0 d) stable_stage
      (fun d hd => ⟨hd.read_size,hd⟩) fun v => ?_
    refine .ofPure stable_stage fun hv => ?_
    change RegProgram.Proves _ _ _ _ (if v = 0 then _ else _)
    split
    · exact .ret stable_stage fun d hd => hd.outcome_error (by decide) notify multiplier _
    rename_i hne
    have hsize : offer.1 ≠ 0 := fun hzero => hne (hv.trans (congrArg UInt16.toUInt64 hzero))
    cases notify with
    | none => exact .ret stable_stage fun d hd => hd.outcome_error (by decide) none multiplier _
    | some notifyCfgVirt =>
      cases rings with
      | error e => exact .ret stable_stage fun d hd => hd.outcome_error (by decide) _ multiplier _
      | ok addrs =>
        refine (startQueue_proves offer hstatus addrs notifyCfgVirt multiplier).bind fun doorbell => ?_
        refine .ofPure stable_stage fun hdoorbell => ?_
        exact .ret stable_stage fun d hd => ⟨addrs,notifyCfgVirt,rfl,rfl,hd,hsize,hdoorbell⟩

end VirtioState

open VirtioState in
/-- In every interleaving with a conformant device, whatever was in its registers: the driver takes no
status bit back but by the reset, sets the queue up only between the features and `DRIVER_OK`, and
before it enables it; when the call returns, the device is live with the driver's rings, or it is
not live and its queue is off; and the call can always return. -/
theorem virtioHandshake_protocol (offer : UInt16 × UInt16) (notify : Option UInt64)
    (rings : Except String RingAddrs) (multiplier : UInt32)
    {s : VirtioProgram (Except String UInt64) × VirtioState}
    (hs : (RegProgram.system device (Offers offer)
      (VirtioPci.handshake notify rings multiplier)).Reachable s) :
    RegProgram.WritesOk (HostMay rings) s ∧
      (∀ result d, s = (.ret result,d) → Outcome offer notify rings multiplier result d) ∧
      ∃ result d, (RegProgram.system device (Offers offer)
        (VirtioPci.handshake notify rings multiplier)).Run s (.ret result,d) :=
  (handshake_proves offer notify rings multiplier).correct hs

open VirtioState in
/-- A device that the firmware left live. -/
theorem virtioHandshake_protocol_live :
    let rings : RingAddrs := ⟨0x10000,0x10400,0x10488⟩
    let d : VirtioState := ⟨15,true,true,0,fun _ => ⟨256,0,1,⟨1,2,3⟩⟩,fun _ => (64,2)⟩
    let program := VirtioPci.handshake (some 0x5000) (.ok rings) 4
    ∃ result d', (RegProgram.system device (Offers (64,2)) program).Run (program,d) (.ret result,d') ∧
      Outcome (64,2) (some 0x5000) (.ok rings) 4 result d' := by
  intro rings d program
  have hinit : (RegProgram.system device (Offers (64,2)) program).Reachable (program,d) :=
    .init ⟨rfl,rfl⟩
  obtain ⟨_,_,result,d',hrun⟩ := virtioHandshake_protocol (64,2) (some 0x5000) (.ok rings) 4 hinit
  exact ⟨result,d',hrun,
    (virtioHandshake_protocol (64,2) (some 0x5000) (.ok rings) 4 (hinit.run hrun)).2.1 result d' rfl⟩

end PolymorphOS
