import PolymorphOS.NvmeQueues
import PolymorphOS.RegisterPrograms

/-! `disable` and `configure_and_enable`: however the firmware left the controller, its admin queues
are set up while it is off, and it is on when the calls return. -/
namespace PolymorphOS

/-- The registers that the two calls use. -/
inductive NvmeReg
  | cc | csts | aqa | asqLow | asqHigh | acqLow | acqHigh
  deriving DecidableEq

abbrev NvmeProgram := RegProgram NvmeReg UInt32

namespace NvmeReset

open RegProgram

def disable : NvmeProgram Unit := do
  let cc ← readReg .cc
  writeReg .cc (cc &&& ~~~1)
  spinUntil .csts fun csts => csts &&& 1 = 0

/-- Two queue sizes, each less one. -/
def aqaVal : UInt32 := (UInt32.ofNat queueSize - 1) <<< 16 ||| (UInt32.ofNat queueSize - 1)

/-- `IOSQES` is 6, `IOCQES` is 4, and the controller is enabled. -/
def enabledCc (cc : UInt32) : UInt32 :=
  (cc &&& (0xFF00000F : UInt32)) ||| ((4 : UInt32) <<< 20 ||| (6 : UInt32) <<< 16 ||| 1)

/-- `sqPhys` and `cqPhys` are what the mapper translates the two queues to. -/
def configureAndEnable (sqPhys cqPhys : UInt64) : NvmeProgram Unit := do
  writeReg .aqa aqaVal
  writeReg .asqLow (sqPhys &&& 0xFFFFFFFF).toUInt32
  writeReg .asqHigh (sqPhys >>> 32).toUInt32
  writeReg .acqLow (cqPhys &&& 0xFFFFFFFF).toUInt32
  writeReg .acqHigh (cqPhys >>> 32).toUInt32
  let cc ← readReg .cc
  writeReg .cc (enabledCc cc)
  spinUntil .csts fun csts => csts &&& 1 = 1

/-- What `check_device` calls before the first admin command. -/
def reset (sqPhys cqPhys : UInt64) : NvmeProgram Unit := do
  disable
  configureAndEnable sqPhys cqPhys

end NvmeReset

/-- What a controller knows of its admin queues. -/
structure AdminQueues where
  aqa : UInt32
  asq : UInt64
  acq : UInt64
  deriving DecidableEq

/-- A controller: its registers, and the admin queues it works with while it is on. -/
structure NvmeDevice where
  regs : NvmeReg → UInt32
  queues : Option AdminQueues

namespace NvmeDevice

/-- `CC.EN` and `CSTS.RDY`. -/
def bit0 (v : UInt32) : Bool := v &&& 1 = 1

def enabled (d : NvmeDevice) : Bool := bit0 (d.regs .cc)
def ready (d : NvmeDevice) : Bool := bit0 (d.regs .csts)

def address (low high : UInt32) : UInt64 := high.toUInt64 <<< 32 ||| low.toUInt64

/-- The queues as they stand in the registers. -/
def configured (d : NvmeDevice) : AdminQueues where
  aqa := d.regs .aqa
  asq := address (d.regs .asqLow) (d.regs .asqHigh)
  acq := address (d.regs .acqLow) (d.regs .acqHigh)

def withStatus (d : NvmeDevice) (csts : UInt32) : NvmeDevice :=
  {d with regs := Function.update d.regs .csts csts}

/-- What a conformant controller does on its own. Only `RDY` follows `EN`; the other bits of the
status may change at any time. -/
inductive Own : NvmeDevice → NvmeDevice → Prop
  | status {d : NvmeDevice} {csts : UInt32} : bit0 csts = d.ready → Own d (d.withStatus csts)
  | online {d : NvmeDevice} {csts : UInt32} : d.enabled = true → d.ready = false →
      bit0 csts = true → Own d {d.withStatus csts with queues := some d.configured}
  | offline {d : NvmeDevice} {csts : UInt32} : d.enabled = false → d.ready = true →
      bit0 csts = false → Own d {d.withStatus csts with queues := none}

def device : Device NvmeDevice NvmeReg UInt32 where
  read d r := d.regs r
  write d r v := {d with regs := Function.update d.regs r v}
  own := Own

/-- What the specification asks of the host: the admin queues are written while the controller is
off, it is enabled only when it is off, and its status is read only. -/
def HostMay (d : NvmeDevice) : NvmeReg → UInt32 → Prop
  | .cc,v => bit0 v = true → d.enabled = false ∧ d.ready = false
  | .csts,_ => False
  | _,_ => d.enabled = false ∧ d.ready = false

/-- The controller is on, works with the queues of the driver, and takes entries of their sizes. -/
structure Online (sqPhys cqPhys : UInt64) (d : NvmeDevice) : Prop where
  enabled : d.enabled = true
  ready : d.ready = true
  queues : d.queues = some ⟨NvmeReset.aqaVal,sqPhys,cqPhys⟩
  sizes : d.regs .cc &&& 0x00FFFFF0 = 0x00460000

/-! ### The bits -/

theorem toNat_address (low high : UInt32) :
    (address low high).toNat = high.toNat * 2^32 + low.toNat := by
  have hhigh := high.toNat_lt
  have hshift : high.toNat <<< 32 < 2^64 := by
    rw [Nat.shiftLeft_eq]
    omega
  have hsum := Nat.shiftLeft_add_eq_or_of_lt low.toNat_lt high.toNat
  rw [address,UInt64.toNat_or,UInt64.toNat_shiftLeft,UInt32.toNat_toUInt64,UInt32.toNat_toUInt64,
    show UInt64.toNat 32 % 64 = 32 from rfl,Nat.mod_eq_of_lt hshift,← hsum,Nat.shiftLeft_eq]

theorem address_split (p : UInt64) :
    address (p &&& 0xFFFFFFFF).toUInt32 (p >>> 32).toUInt32 = p := by
  have hlow : (p &&& 0xFFFFFFFF).toNat = p.toNat % 2^32 := by
    rw [UInt64.toNat_and]
    exact Nat.and_two_pow_sub_one_eq_mod _ 32
  have hhigh : (p >>> 32).toNat = p.toNat / 2^32 := by
    rw [UInt64.toNat_shiftRight]
    exact Nat.shiftRight_eq_div_pow _ 32
  have hlt := p.toNat_lt
  apply UInt64.toNat_inj.mp
  rw [toNat_address,UInt64.toNat_toUInt32,UInt64.toNat_toUInt32,hlow,hhigh]
  omega

theorem bit0_iff (v : UInt32) : bit0 v = true ↔ v.toNat % 2 = 1 := by
  rw [bit0,decide_eq_true_eq,← UInt32.toNat_inj,UInt32.toNat_and]
  exact iff_of_eq (congrArg (· = 1) (Nat.and_one_is_mod _))

theorem bit0_eq_false_iff (v : UInt32) : bit0 v = false ↔ v &&& 1 = 0 := by
  rw [Bool.eq_false_iff,Ne,bit0_iff,← UInt32.toNat_inj,UInt32.toNat_and,Nat.mod_two_not_eq_one]
  exact iff_of_eq (congrArg (· = 0) (Nat.and_one_is_mod _).symm)

theorem bit0_disable (cc : UInt32) : bit0 (cc &&& ~~~1) = false := by
  rw [Bool.eq_false_iff,Ne,bit0_iff,UInt32.toNat_and,Nat.and_mod_two_eq_one]
  exact fun h => absurd h.2 (by decide)

theorem bit0_enabledCc (cc : UInt32) : bit0 (NvmeReset.enabledCc cc) = true := by
  rw [bit0_iff,NvmeReset.enabledCc,UInt32.toNat_or,Nat.or_mod_two_eq_one]
  exact .inr (by decide)

theorem sizes_enabledCc (cc : UInt32) : NvmeReset.enabledCc cc &&& 0x00FFFFF0 = 0x00460000 := by
  have hkept : (0xFF00000F : UInt32) &&& 0x00FFFFF0 = 0 := by decide
  have hset : ((4 : UInt32) <<< 20 ||| (6 : UInt32) <<< 16 ||| 1) &&& 0x00FFFFF0 = 0x00460000 := by
    decide
  apply UInt32.toNat_inj.mp
  rw [NvmeReset.enabledCc,UInt32.toNat_and,UInt32.toNat_or,Nat.and_or_distrib_right,
    ← UInt32.toNat_and,← UInt32.toNat_and,hset,UInt32.and_assoc,hkept,UInt32.and_zero]
  rfl

/-! ### The proof outline -/

/-- The controller is off. -/
def Off (d : NvmeDevice) : Prop := d.enabled = false ∧ d.ready = false

/-- The controller is off, and these registers are written. -/
def Written (writes : List (NvmeReg × UInt32)) (d : NvmeDevice) : Prop :=
  d.Off ∧ ∀ w ∈ writes, d.regs w.1 = w.2

/-- The controller is enabled, and comes up with the queues of the driver. -/
structure Starting (sqPhys cqPhys : UInt64) (d : NvmeDevice) : Prop where
  enabled : d.enabled = true
  sizes : d.regs .cc &&& 0x00FFFFF0 = 0x00460000
  configured : d.configured = ⟨NvmeReset.aqaVal,sqPhys,cqPhys⟩
  queues : d.ready = true → d.queues = some ⟨NvmeReset.aqaVal,sqPhys,cqPhys⟩

section

variable {d d' : NvmeDevice} {csts : UInt32}

@[simp] theorem withStatus_enabled : (d.withStatus csts).enabled = d.enabled := rfl
@[simp] theorem withStatus_ready : (d.withStatus csts).ready = bit0 csts := rfl
@[simp] theorem withStatus_configured : (d.withStatus csts).configured = d.configured := rfl

/-- On its own the controller writes no register but its status. -/
theorem Own.regs (h : Own d d') {r : NvmeReg} (hr : r ≠ .csts) : d'.regs r = d.regs r := by
  cases h <;> exact Function.update_of_ne hr _ _

theorem Own.enabled (h : Own d d') : d'.enabled = d.enabled := by
  rw [NvmeDevice.enabled,NvmeDevice.enabled,h.regs (by decide)]

/-- A controller that is disabled does not come up. -/
theorem Own.off (h : Own d d') (hoff : d.Off) : d'.Off := by
  refine ⟨h.enabled.trans hoff.1,?_⟩
  cases h with
  | status hready => exact hready.trans hoff.2
  | online henabled => exact absurd (hoff.1.symm.trans henabled) (by decide)
  | offline _ _ hready => exact hready

theorem stable_disabled : device.Stable fun d => d.enabled = false :=
  fun _ _ hd hown => hown.enabled.trans hd

theorem stable_written {writes : List (NvmeReg × UInt32)} (h : ∀ w ∈ writes, w.1 ≠ .csts) :
    device.Stable (Written writes) :=
  fun _ _ hd hown => ⟨hown.off hd.1,fun w hw => (hown.regs (h w hw)).trans (hd.2 w hw)⟩

theorem stable_starting (sqPhys cqPhys : UInt64) : device.Stable (Starting sqPhys cqPhys) := by
  intro d d' hd hown
  have henabled := hown.enabled.trans hd.enabled
  have hconfigured : d'.configured = d.configured := by
    cases hown <;> rfl
  refine ⟨henabled,(congrArg (· &&& 0x00FFFFF0) (hown.regs (by decide))).trans hd.sizes,
    hconfigured.trans hd.configured,fun hready => ?_⟩
  cases hown with
  | status hsame => exact hd.queues (hsame.symm.trans hready)
  | online => exact congrArg some hd.configured
  | offline hoff => exact absurd (hoff.symm.trans hd.enabled) (by decide)

theorem stable_online (sqPhys cqPhys : UInt64) : device.Stable (Online sqPhys cqPhys) := by
  intro d d' hd hown
  have hsizes := (congrArg (· &&& 0x00FFFFF0) (hown.regs (by decide))).trans hd.sizes
  have henabled := hown.enabled.trans hd.enabled
  cases hown with
  | status hsame => exact ⟨henabled,hsame.trans hd.ready,hd.queues,hsizes⟩
  | online _ hready => exact absurd (hready.symm.trans hd.ready) (by decide)
  | offline hoff => exact absurd (hoff.symm.trans hd.enabled) (by decide)

end

theorem device_write_self (d : NvmeDevice) (r : NvmeReg) (v : UInt32) :
    (device.write d r v).regs r = v := by
  change Function.update d.regs r v r = v
  rw [Function.update_self]

theorem device_write_of_ne (d : NvmeDevice) {r r' : NvmeReg} (v : UInt32) (h : r' ≠ r) :
    (device.write d r v).regs r' = d.regs r' := by
  change Function.update d.regs r v r' = d.regs r'
  rw [Function.update_of_ne h]

/-- A register other than those of the controller's state is written while it is off. -/
theorem written_write {writes : List (NvmeReg × UInt32)} {d : NvmeDevice} {r : NvmeReg} {v : UInt32}
    (hd : Written writes d) (hcc : r ≠ .cc) (hcsts : r ≠ .csts) (hnew : ∀ w ∈ writes, w.1 ≠ r) :
    HostMay d r v ∧ Written (writes ++ [(r,v)]) (device.write d r v) := by
  obtain ⟨⟨henabled,hready⟩,hwrites⟩ := hd
  refine ⟨?_,⟨?_,?_⟩,fun w hw => ?_⟩
  · cases r with
    | cc => exact absurd rfl hcc
    | csts => exact absurd rfl hcsts
    | _ => exact ⟨henabled,hready⟩
  · exact (congrArg bit0 (device_write_of_ne d v hcc.symm)).trans henabled
  · exact (congrArg bit0 (device_write_of_ne d v hcsts.symm)).trans hready
  · rw [List.mem_append,List.mem_singleton] at hw
    rcases hw with hw | rfl
    · exact (device_write_of_ne d v (hnew w hw)).trans (hwrites w hw)
    · exact device_write_self d r v

/-- Whatever state the controller is in, `disable` returns with the controller off. -/
theorem disable_proves : RegProgram.Proves device HostMay (fun _ d => d.Off) (fun _ => True)
    NvmeReset.disable := by
  refine .read (fun _ _ => True) (fun _ _ _ _ => trivial) (fun _ _ => trivial) fun cc => ?_
  refine .write (fun d => d.enabled = false) (fun _ _ _ _ => trivial) (fun d _ => ⟨?_,?_⟩) ?_
  · intro hset
    exact absurd ((bit0_disable cc).symm.trans hset) (by decide)
  · exact (congrArg bit0 (device_write_self d .cc _)).trans (bit0_disable cc)
  · refine .spin Off stable_disabled (fun d hd hc => ⟨hd,?_⟩) (fun d hd => ?_)
      (.ret (fun _ _ hd hown => hown.off hd) fun _ hd => hd)
    · exact (bit0_eq_false_iff _).mpr (of_decide_eq_true hc)
    · cases hready : d.ready with
      | false => exact ⟨d,.refl,decide_eq_true ((bit0_eq_false_iff _).mp hready)⟩
      | true =>
        have hoff : bit0 0 = false := rfl
        exact ⟨_,.single (.offline hd hready hoff),decide_eq_true ((bit0_eq_false_iff 0).mp hoff)⟩

/-- From a controller that is off, `configure_and_enable` returns with it on. -/
theorem configureAndEnable_proves (sqPhys cqPhys : UInt64) :
    RegProgram.Proves device HostMay (fun _ => Online sqPhys cqPhys) Off
      (NvmeReset.configureAndEnable sqPhys cqPhys) := by
  let writes : List (NvmeReg × UInt32) := [(.aqa,NvmeReset.aqaVal),
    (.asqLow,(sqPhys &&& 0xFFFFFFFF).toUInt32),(.asqHigh,(sqPhys >>> 32).toUInt32),
    (.acqLow,(cqPhys &&& 0xFFFFFFFF).toUInt32),(.acqHigh,(cqPhys >>> 32).toUInt32)]
  refine .write (Written (writes.take 1)) (fun _ _ hd hown => hown.off hd)
    (fun d hd => written_write ⟨hd,List.forall_mem_nil _⟩ (by decide) (by decide) (by simp)) ?_
  refine .write (Written (writes.take 2)) (stable_written (by simp [writes]))
    (fun d hd => written_write hd (by decide) (by decide) (by simp [writes])) ?_
  refine .write (Written (writes.take 3)) (stable_written (by simp [writes]))
    (fun d hd => written_write hd (by decide) (by decide) (by simp [writes])) ?_
  refine .write (Written (writes.take 4)) (stable_written (by simp [writes]))
    (fun d hd => written_write hd (by decide) (by decide) (by simp [writes])) ?_
  refine .write (Written writes) (stable_written (by simp [writes]))
    (fun d hd => written_write hd (by decide) (by decide) (by simp [writes])) ?_
  refine .read (fun _ => Written writes) (stable_written (by simp [writes])) (fun _ hd => hd)
    fun cc => ?_
  refine .write (Starting sqPhys cqPhys) (stable_written (by simp [writes])) (fun d hd => ⟨?_,?_⟩) ?_
  · exact fun _ => hd.1
  · have hreg (r : NvmeReg) (hr : r ≠ .cc) :
        (device.write d .cc (NvmeReset.enabledCc cc)).regs r = d.regs r :=
      device_write_of_ne d _ hr
    have hcc : (device.write d .cc (NvmeReset.enabledCc cc)).regs .cc = NvmeReset.enabledCc cc :=
      device_write_self d .cc _
    refine ⟨?_,?_,?_,fun hready => ?_⟩
    · rw [enabled,hcc,bit0_enabledCc]
    · rw [hcc,sizes_enabledCc]
    · have hwrites := hd.2
      simp only [writes,List.forall_mem_cons] at hwrites
      obtain ⟨haqa,hasqLow,hasqHigh,hacqLow,hacqHigh,_⟩ := hwrites
      rw [configured,hreg _ (by decide),hreg _ (by decide),hreg _ (by decide),hreg _ (by decide),
        hreg _ (by decide),haqa,hasqLow,hasqHigh,hacqLow,hacqHigh,address_split,address_split]
    · have hoff : (device.write d .cc (NvmeReset.enabledCc cc)).ready = d.ready :=
        congrArg bit0 (hreg _ (by decide))
      exact absurd (hd.1.2.symm.trans (hoff.symm.trans hready)) (by decide)
  · refine .spin (Online sqPhys cqPhys) (stable_starting sqPhys cqPhys) (fun d hd hc => ?_)
      (fun d hd => ?_) (.ret (stable_online sqPhys cqPhys) fun _ hd => hd)
    · have hready : d.ready = true := hc
      exact ⟨hd.enabled,hready,hd.queues hready,hd.sizes⟩
    · cases hready : d.ready with
      | true => exact ⟨d,.refl,hready⟩
      | false =>
        have hon : bit0 1 = true := rfl
        exact ⟨_,.single (.online hd.enabled hready hon),hon⟩

end NvmeDevice

open NvmeDevice in
/-- In every interleaving with a conformant controller, whatever the firmware left in its registers:
the admin queues are written while it is off and it is enabled only then; when the calls return, it
is on and works with the queues of the driver; and it can always get there. -/
theorem nvmeReset_protocol (sqPhys cqPhys : UInt64) {s : NvmeProgram Unit × NvmeDevice}
    (hs : (RegProgram.system device (fun _ => True) (NvmeReset.reset sqPhys cqPhys)).Reachable s) :
    RegProgram.WritesOk HostMay s ∧ (∀ d, s = (.ret (),d) → Online sqPhys cqPhys d) ∧
      ∃ d, (RegProgram.system device (fun _ => True) (NvmeReset.reset sqPhys cqPhys)).Run s
        (.ret (),d) := by
  have hproof : RegProgram.Proves device HostMay (fun _ => Online sqPhys cqPhys) (fun _ => True)
      (NvmeReset.reset sqPhys cqPhys) :=
    disable_proves.bind fun _ => configureAndEnable_proves sqPhys cqPhys
  obtain ⟨hok,hret,⟨_,d,hrun⟩⟩ := hproof.correct hs
  exact ⟨hok,fun d => hret () d,d,hrun⟩

open NvmeDevice in
/-- The firmware left the controller on. -/
theorem nvmeReset_protocol_running :
    let d : NvmeDevice :=
      ⟨fun r => if r = .csts then 1 else 0x00460001,some ⟨0x00FF00FF,0x1000,0x2000⟩⟩
    ∃ d', (RegProgram.system device (fun _ => True) (NvmeReset.reset 0x3000 0x5000)).Run
      (NvmeReset.reset 0x3000 0x5000,d) (.ret (),d') ∧ Online 0x3000 0x5000 d' := by
  intro d
  have hinit : (RegProgram.system device (fun _ => True) (NvmeReset.reset 0x3000 0x5000)).Reachable
      (NvmeReset.reset 0x3000 0x5000,d) := .init ⟨rfl,trivial⟩
  obtain ⟨_,_,d',hrun⟩ := nvmeReset_protocol 0x3000 0x5000 hinit
  exact ⟨d',hrun,(nvmeReset_protocol 0x3000 0x5000 (hinit.run hrun)).2.1 d' rfl⟩

end PolymorphOS
