import PolymorphOS.RustCore
import PolymorphOS.Returns

/-! The walk over a PCI function's capability list. Whatever the walk computes comes from the
device, through `u8` sums that the list's pointers and BAR indices enter. -/
namespace PolymorphOS

namespace VirtioPci

def pciCapIdVndr : UInt8 := 0x09
def virtioPciCapCommonCfg : UInt8 := 1
def virtioPciCapNotifyCfg : UInt8 := 2
def virtioPciCapIsrCfg : UInt8 := 3

/-- The addresses written to `CONFIG_ADDRESS`, and the registers that BAR values were read from. -/
structure ConfigReads where
  addresses : List UInt32
  barRegisters : List UInt8

abbrev ConfigAccess := StateT ConfigReads (Except Panic)

/-- A function of the bus is what it answers to the first configuration read, the second and so
on: each answer may depend on all that was read before. -/
abbrev PciFunction := ℕ → UInt32

variable (answers : PciFunction) (bus slot func : UInt8)

def pciReadWord (offset : UInt8) : ConfigAccess UInt32 := fun reads =>
  let address := (0x80000000 : UInt32) ||| (bus.toUInt32 <<< 16) ||| (slot.toUInt32 <<< 11) |||
    (func.toUInt32 <<< 8) ||| (offset.toUInt32 &&& 0xFC)
  .ok (answers reads.addresses.length,{ reads with addresses := reads.addresses ++ [address] })

/-- The answer is taken for a BAR. -/
def pciReadBar (build : Profile) (base barIdx : UInt8) : ConfigAccess UInt32 := do
  let register ← addU8 build base (← mulU8 build barIdx 4)
  fun reads => pciReadWord answers bus slot func register
    { reads with barRegisters := reads.barRegisters ++ [register] }

/-- The physical addresses of the configuration regions. -/
@[ext]
structure VirtioCapabilities where
  commonCfgPhys : UInt64
  notifyCfgPhys : UInt64
  isrCfgPhys : UInt64
  notifyOffMultiplier : UInt32
  deriving DecidableEq

/-- The address in the BAR, of one or of two registers. -/
def readPhysBase (build : Profile) (barIdx : UInt8) : ConfigAccess UInt64 := do
  let barVal ← pciReadBar answers bus slot func build 0x10 barIdx
  let physBase := (barVal &&& 0xFFFFFFF0).toUInt64
  if barVal &&& 0x06 = 0x04 then
    let barValHigh ← pciReadBar answers bus slot func build 0x14 barIdx
    pure (physBase ||| (barValHigh.toUInt64 <<< 32))
  else pure physBase

/-- What the walk keeps of a capability, by its type. -/
def recordRegion (build : Profile) (currentCap cfgType : UInt8) (finalPhysAddr : UInt64)
    (caps : VirtioCapabilities) : ConfigAccess VirtioCapabilities :=
  if cfgType = virtioPciCapCommonCfg then pure { caps with commonCfgPhys := finalPhysAddr }
  else if cfgType = virtioPciCapNotifyCfg then do
    let multiplier ← pciReadWord answers bus slot func (← addU8 build currentCap 12)
    pure { caps with notifyCfgPhys := finalPhysAddr, notifyOffMultiplier := multiplier }
  else if cfgType = virtioPciCapIsrCfg then pure { caps with isrCfgPhys := finalPhysAddr }
  else pure caps

/-- The body of the loop: one capability, read at `currentCap`. -/
def visitCapability (build : Profile) (currentCap : UInt8) (caps : VirtioCapabilities) :
    ConfigAccess (UInt8 × VirtioCapabilities) := do
  let word0 ← pciReadWord answers bus slot func currentCap
  let capId := (word0 &&& 0xFF).toUInt8
  let nextCap := ((word0 >>> 8) &&& 0xFF).toUInt8
  if capId = pciCapIdVndr then
    let cfgType := ((word0 >>> 24) &&& 0xFF).toUInt8
    let word1 ← pciReadWord answers bus slot func (← addU8 build currentCap 4)
    let barIdx := (word1 &&& 0xFF).toUInt8
    let offset ← pciReadWord answers bus slot func (← addU8 build currentCap 8)
    let physBase ← readPhysBase answers bus slot func build barIdx
    let finalPhysAddr ← addU64 build physBase offset.toUInt64
    let caps ← recordRegion answers bus slot func build currentCap cfgType finalPhysAddr caps
    pure (nextCap,caps)
  else pure (nextCap,caps)

/-- At most `n` rounds of the loop. -/
def walkCapabilities (build : Profile) :
    ℕ → UInt8 → VirtioCapabilities → ConfigAccess VirtioCapabilities
  | 0, _, caps => pure caps
  | n+1, currentCap, caps =>
    if currentCap = 0 then pure caps
    else do
      let (nextCap,caps) ← visitCapability answers bus slot func build currentCap caps
      walkCapabilities build n nextCap caps

def findCapabilities (build : Profile) : ConfigAccess (Option VirtioCapabilities) := do
  let capPtr := ((← pciReadWord answers bus slot func 0x34) &&& 0xFF).toUInt8
  if capPtr = 0 then pure none
  else
    let caps ← walkCapabilities answers bus slot func build 48 capPtr ⟨0,0,0,0⟩
    if caps.commonCfgPhys ≠ 0 ∧ caps.notifyCfgPhys ≠ 0 then pure (some caps) else pure none

/-- A capability as the device presents it: where it stands, and the answers that the walk reads
for it. -/
structure Capability where
  pointer : UInt8
  header : UInt32
  location : UInt32
  offset : UInt32
  bar : UInt32
  barHigh : UInt32

namespace Capability

variable (cap : Capability)

def next : UInt8 := ((cap.header >>> 8) &&& 0xFF).toUInt8
def Vendor : Prop := (cap.header &&& 0xFF).toUInt8 = pciCapIdVndr
def cfgType : UInt8 := ((cap.header >>> 24) &&& 0xFF).toUInt8
def barIdx : UInt8 := (cap.location &&& 0xFF).toUInt8
def Wide : Prop := cap.bar &&& 0x06 = 0x04

instance : Decidable cap.Vendor := inferInstanceAs (Decidable (_ = _))
instance : Decidable cap.Wide := inferInstanceAs (Decidable (_ = _))

def physBase : UInt64 :=
  let physLow := (cap.bar &&& 0xFFFFFFF0).toUInt64
  if cap.Wide then physLow ||| (cap.barHigh.toUInt64 <<< 32) else physLow

/-- How many reads the walk does for the capability. -/
def readCount : ℕ :=
  if cap.Vendor then
    4 + (if cap.Wide then 1 else 0) + if cap.cfgType = virtioPciCapNotifyCfg then 1 else 0
  else 1

/-- A vendor capability lies wholly below offset 256, names one of the six BARs, and one of the
first five if the BAR takes up two registers, and its region starts below `2^64`. -/
def Fits : Prop := cap.Vendor →
  cap.pointer ≤ 247 ∧ (cap.cfgType = virtioPciCapNotifyCfg → cap.pointer ≤ 243) ∧
  cap.barIdx ≤ 5 ∧ (cap.Wide → cap.barIdx ≤ 4) ∧
  cap.physBase.toNat + cap.offset.toNat < 2^64

end Capability

/-- The capability at `pointer`, where the walk's first `n` reads are done. -/
def capabilityAt (n : ℕ) (pointer : UInt8) : Capability :=
  ⟨pointer,answers n,answers (n+1),answers (n+2),answers (n+3),answers (n+4)⟩

/-- The capabilities that up to `rounds` rounds of the walk come to. -/
def listFrom : ℕ → ℕ → UInt8 → List Capability
  | 0, _, _ => []
  | rounds+1, n, pointer =>
    if pointer = 0 then []
    else
      let cap := capabilityAt answers n pointer
      cap :: listFrom rounds (n + cap.readCount) cap.next

/-- The capability list as the device presents it to `find_capabilities`. -/
def presented : List Capability := listFrom answers 48 1 (answers 0 &&& 0xFF).toUInt8

variable {answers bus slot func} {reads : ConfigReads}

/-- The walk has done `n` reads, and has read BAR values from these registers. -/
def ConfigReads.At (reads : ConfigReads) (n : ℕ) (registers : List UInt8) : Prop :=
  reads.addresses.length = n ∧ reads.barRegisters = registers

namespace ConfigAccess

variable {α β : Type} {Q : α × ConfigReads → Prop} {P : β × ConfigReads → Prop} {c d : Prop}
  {n : ℕ} {registers : List UInt8}

theorem pure {b : β} (h : P (b,reads)) :
    ReturnsIff ((Pure.pure b : ConfigAccess β) reads) True P := ReturnsIff.pure h

theorem bind {x : ConfigAccess α} {f : α → ConfigAccess β} (hx : ReturnsIff (x reads) c Q)
    (hf : ∀ a reads, Q (a,reads) → ReturnsIff (f a reads) d P) :
    ReturnsIff ((x >>= f) reads) (c ∧ d) P := ReturnsIff.bind hx fun out => hf out.1 out.2

/-- The first part always returns. -/
theorem bind_true {x : ConfigAccess α} {f : α → ConfigAccess β}
    (hx : ReturnsIff (x reads) True Q)
    (hf : ∀ a reads, Q (a,reads) → ReturnsIff (f a reads) d P) :
    ReturnsIff ((x >>= f) reads) d P := (bind hx hf).congr (Iff.of_eq (true_and d))

/-- The second part always returns. -/
theorem true_bind {x : ConfigAccess α} {f : α → ConfigAccess β} (hx : ReturnsIff (x reads) c Q)
    (hf : ∀ a reads, Q (a,reads) → ReturnsIff (f a reads) True P) :
    ReturnsIff ((x >>= f) reads) c P := (bind hx hf).congr (Iff.of_eq (and_true c))

theorem ite {b : Prop} [Decidable b] {x y : ConfigAccess β} (hx : b → ReturnsIff (x reads) c P)
    (hy : ¬b → ReturnsIff (y reads) d P) :
    ReturnsIff ((if b then x else y) reads) ((b → c) ∧ (¬b → d)) P := by
  rw [ite_apply]
  exact ReturnsIff.ite hx hy

theorem lift {x : Except Panic α} {a : α} (hx : ReturnsIff x c fun b => b = a) :
    ReturnsIff ((x : ConfigAccess α) reads) c fun out => out.1 = a ∧ out.2 = reads := by
  refine (hx.bind (d := True) fun b hb => ReturnsIff.pure ⟨hb,rfl⟩).congr ?_
  exact Iff.of_eq (and_true c)

end ConfigAccess

namespace Capability

variable (cap : Capability)

/-- The registers that the walk takes the capability's BAR from. -/
def barRegisters : List UInt8 :=
  if cap.Vendor then
    (0x10 + cap.barIdx * 4) :: if cap.Wide then [0x14 + cap.barIdx * 4] else []
  else []

/-- The registers computed from the BAR index are below `2^8`. -/
def BarEvaluates : Prop :=
  (cap.barIdx.toNat * 4 < 2^8 ∧ 0x10 + cap.barIdx.toNat * 4 < 2^8) ∧
    (cap.Wide → cap.barIdx.toNat * 4 < 2^8 ∧ 0x14 + cap.barIdx.toNat * 4 < 2^8)

/-- The sums that the walk evaluates for the capability are below `2^8` and `2^64`. -/
def Evaluates : Prop := cap.Vendor →
  cap.pointer.toNat + 4 < 2^8 ∧ cap.pointer.toNat + 8 < 2^8 ∧ cap.BarEvaluates ∧
  cap.physBase.toNat + cap.offset.toNat < 2^64 ∧
  (cap.cfgType = virtioPciCapNotifyCfg → cap.pointer.toNat + 12 < 2^8)

end Capability

/-- A debug build's checked operation. -/
theorem checked_dev {α : Type} {c : Prop} [Decidable c] {a : α} :
    ReturnsIff (if c ∨ Profile.dev = .release then .ok a else .error Panic.overflow) c
      fun b => b = a :=
  (ReturnsIff.guard (Q := fun b => b = a) rfl).congr (or_iff_left (by decide))

theorem addU8_dev (a b : UInt8) :
    ReturnsIff (addU8 .dev a b) (a.toNat + b.toNat < 2^8) fun c => c = a + b := checked_dev

theorem mulU8_dev (a b : UInt8) :
    ReturnsIff (mulU8 .dev a b) (a.toNat * b.toNat < 2^8) fun c => c = a * b := checked_dev

theorem addU64_dev (a b : UInt64) :
    ReturnsIff (addU64 .dev a b) (a.toNat + b.toNat < 2^64) fun c => c = a + b := checked_dev

section

variable {n : ℕ} {registers : List UInt8}

theorem pciReadWord_returnsIff (offset : UInt8) (h : reads.At n registers) :
    ReturnsIff (pciReadWord answers bus slot func offset reads) True
      fun out => out.1 = answers n ∧ out.2.At (n+1) registers := by
  refine ReturnsIff.pure ⟨by rw [h.1],?_,h.2⟩
  rw [List.length_append,h.1,List.length_singleton]

theorem pciReadBar_returnsIff (base barIdx : UInt8) (h : reads.At n registers) :
    ReturnsIff (pciReadBar answers bus slot func .dev base barIdx reads)
      (barIdx.toNat * 4 < 2^8 ∧ base.toNat + barIdx.toNat * 4 < 2^8)
      fun out => out.1 = answers n ∧ out.2.At (n+1) (registers ++ [base + barIdx * 4]) := by
  have hsum : barIdx.toNat * 4 < 2^8 →
      (base.toNat + (barIdx * 4).toNat < 2^8 ↔ base.toNat + barIdx.toNat * 4 < 2^8) := by
    intro hmul
    rw [UInt8.toNat_mul,UInt8.toNat_ofNat,Nat.mod_eq_of_lt hmul]
  refine (ConfigAccess.bind (ConfigAccess.lift (mulU8_dev barIdx 4)) ?_).congr
    (and_congr_right hsum)
  rintro _ _ ⟨rfl,rfl⟩
  refine ConfigAccess.true_bind (ConfigAccess.lift (addU8_dev base _)) ?_
  rintro _ _ ⟨rfl,rfl⟩
  exact pciReadWord_returnsIff _ ⟨h.1,by rw [h.2]⟩

/-- The BAR's upper half is read, and its register computed, only where the lower half says so. -/
theorem readPhysBase_returnsIff (pointer : UInt8) (h : reads.At (n+3) registers) :
    let cap := capabilityAt answers n pointer
    ReturnsIff (readPhysBase answers bus slot func .dev cap.barIdx reads)
      cap.BarEvaluates fun out => out.1 = cap.physBase ∧
        out.2.At (n + 4 + if cap.Wide then 1 else 0) (registers ++ (0x10 + cap.barIdx * 4) ::
          if cap.Wide then [0x14 + cap.barIdx * 4] else []) := by
  intro cap
  refine ConfigAccess.bind (pciReadBar_returnsIff 0x10 cap.barIdx h) ?_
  rintro _ reads ⟨rfl,h⟩
  refine (ConfigAccess.ite (b := cap.Wide) (d := True) (fun hwide => ?_) fun hwide => ?_).congr
    (and_iff_left fun _ => trivial)
  · refine ConfigAccess.true_bind (pciReadBar_returnsIff 0x14 cap.barIdx h) ?_
    rintro _ reads ⟨rfl,h⟩
    rw [if_pos hwide,if_pos hwide]
    refine ReturnsIff.pure ⟨(if_pos hwide).symm,h.1,?_⟩
    rw [h.2,List.append_assoc,List.singleton_append]
  · rw [if_neg hwide,if_neg hwide]
    exact ReturnsIff.pure ⟨(if_neg hwide).symm,h⟩

theorem recordRegion_returnsIff (pointer cfgType : UInt8) (addr : UInt64)
    (caps : VirtioCapabilities) (h : reads.At n registers) :
    ReturnsIff (recordRegion answers bus slot func .dev pointer cfgType addr caps reads)
      (cfgType = virtioPciCapNotifyCfg → pointer.toNat + 12 < 2^8)
      fun out => out.2.At (n + if cfgType = virtioPciCapNotifyCfg then 1 else 0) registers := by
  by_cases hnotify : cfgType = virtioPciCapNotifyCfg
  · rw [recordRegion,if_neg (hnotify ▸ by decide),if_pos hnotify,if_pos hnotify]
    refine (ConfigAccess.true_bind (ConfigAccess.lift (addU8_dev pointer 12)) ?_).congr
      (imp_iff_right hnotify).symm
    rintro _ _ ⟨rfl,rfl⟩
    refine ConfigAccess.true_bind (pciReadWord_returnsIff _ h) ?_
    rintro _ reads ⟨rfl,h⟩
    exact ConfigAccess.pure h
  · rw [recordRegion,if_neg hnotify,if_neg hnotify]
    refine (ConfigAccess.ite (fun _ => ConfigAccess.pure h) fun _ => ConfigAccess.ite
      (fun _ => ConfigAccess.pure h) fun _ => ConfigAccess.pure h).congr ?_
    simp [hnotify]

/-- One round returns exactly if the sums it evaluates are in range, and goes on at the next
capability. -/
theorem visitCapability_returnsIff (pointer : UInt8) (caps : VirtioCapabilities)
    (h : reads.At n registers) :
    let cap := capabilityAt answers n pointer
    ReturnsIff (visitCapability answers bus slot func .dev pointer caps reads) cap.Evaluates
      fun out => out.1.1 = cap.next ∧
        out.2.At (n + cap.readCount) (registers ++ cap.barRegisters) := by
  intro cap
  refine ConfigAccess.bind_true (pciReadWord_returnsIff pointer h) ?_
  rintro _ reads ⟨rfl,h⟩
  refine (ConfigAccess.ite (b := cap.Vendor) (d := True) (fun hvendor => ?_)
    fun hvendor => ?_).congr (and_iff_left fun _ => trivial)
  · refine ConfigAccess.bind (ConfigAccess.lift (addU8_dev pointer 4)) ?_
    rintro _ _ ⟨rfl,rfl⟩
    refine ConfigAccess.bind_true (pciReadWord_returnsIff _ h) ?_
    rintro _ reads ⟨rfl,h⟩
    refine ConfigAccess.bind (ConfigAccess.lift (addU8_dev pointer 8)) ?_
    rintro _ _ ⟨rfl,rfl⟩
    refine ConfigAccess.bind_true (pciReadWord_returnsIff _ h) ?_
    rintro _ reads ⟨rfl,h⟩
    refine ConfigAccess.bind (readPhysBase_returnsIff pointer h) ?_
    rintro _ reads ⟨rfl,h⟩
    refine ConfigAccess.bind (ConfigAccess.lift (addU64_dev _ _)) ?_
    rintro _ _ ⟨rfl,rfl⟩
    refine ConfigAccess.true_bind (recordRegion_returnsIff pointer cap.cfgType _ caps h) ?_
    intro caps reads h
    refine ConfigAccess.pure ⟨rfl,?_⟩
    rw [Capability.readCount,Capability.barRegisters,if_pos hvendor,if_pos hvendor]
    rw [← Nat.add_assoc,← Nat.add_assoc]
    exact h
  · refine ConfigAccess.pure ⟨rfl,?_⟩
    rw [Capability.readCount,Capability.barRegisters,if_neg hvendor,if_neg hvendor]
    rw [List.append_nil]
    exact h

/-- The walk returns exactly if the sums of every capability it comes to are in range. -/
theorem walkCapabilities_returnsIff (rounds : ℕ) (pointer : UInt8) (caps : VirtioCapabilities)
    (h : reads.At n registers) :
    ReturnsIff (walkCapabilities answers bus slot func .dev rounds pointer caps reads)
      (∀ cap ∈ listFrom answers rounds n pointer, cap.Evaluates)
      fun out => out.2.barRegisters = registers ++
        (listFrom answers rounds n pointer).flatMap Capability.barRegisters := by
  induction rounds generalizing n registers pointer caps reads with
  | zero =>
    refine (ConfigAccess.pure ?_).congr (by simp [listFrom])
    rw [h.2,listFrom,List.flatMap_nil,List.append_nil]
  | succ rounds ih =>
    by_cases hpointer : pointer = 0
    · rw [walkCapabilities,listFrom,if_pos hpointer,if_pos hpointer]
      refine (ConfigAccess.pure ?_).congr (by simp)
      rw [h.2,List.flatMap_nil,List.append_nil]
    · rw [walkCapabilities,listFrom,if_neg hpointer,if_neg hpointer,List.forall_mem_cons]
      refine ConfigAccess.bind (visitCapability_returnsIff pointer caps h) ?_
      rintro ⟨next,caps⟩ reads ⟨rfl,h⟩
      refine (ih _ caps h).mono fun out hout => ?_
      rw [hout,List.flatMap_cons,List.append_assoc]

end

/-- The registers of the six BARs. -/
def IsBar (register : UInt8) : Prop := 0x10 ≤ register ∧ register ≤ 0x27

instance (register : UInt8) : Decidable (IsBar register) := inferInstanceAs (Decidable (_ ∧ _))

/-- No sum overflows, so that a debug build returns, and BAR values are read from BARs only. -/
def Safe (answers : PciFunction) (bus slot func : UInt8) : Prop :=
  Returns (findCapabilities answers bus slot func .dev ⟨[],[]⟩)
    fun out => ∀ register ∈ out.2.barRegisters, IsBar register

theorem isBar_iff {base barIdx : UInt8} (h : base.toNat + barIdx.toNat * 4 < 2^8)
    (hbase : 0x10 ≤ base) : IsBar (base + barIdx * 4) ↔ base.toNat + barIdx.toNat * 4 ≤ 0x27 := by
  have hsum : (base + barIdx * 4).toNat = base.toNat + barIdx.toNat * 4 := by
    rw [UInt8.toNat_add,UInt8.toNat_mul,UInt8.toNat_ofNat,Nat.add_mod_mod]
    exact Nat.mod_eq_of_lt h
  simp only [IsBar,UInt8.le_iff_toNat_le,hsum,UInt8.reduceToNat] at hbase ⊢
  omega

namespace Capability

variable {cap : Capability}

theorem barRegisters_isBar_iff (hvendor : cap.Vendor) :
    cap.barIdx ≤ 5 ∧ (cap.Wide → cap.barIdx ≤ 4) ↔
      cap.BarEvaluates ∧ ∀ register ∈ cap.barRegisters, IsBar register := by
  have hlow : 0x10 + cap.barIdx.toNat * 4 < 2^8 →
      (IsBar (0x10 + cap.barIdx * 4) ↔ 0x10 + cap.barIdx.toNat * 4 ≤ 0x27) :=
    fun h => isBar_iff h (by decide)
  have hhigh : 0x14 + cap.barIdx.toNat * 4 < 2^8 →
      (IsBar (0x14 + cap.barIdx * 4) ↔ 0x14 + cap.barIdx.toNat * 4 ≤ 0x27) :=
    fun h => isBar_iff h (by decide)
  by_cases hwide : cap.Wide <;>
    simp only [BarEvaluates,barRegisters,hvendor,hwide,if_true,if_false,true_imp_iff,
      false_imp_iff,and_true,List.forall_mem_cons,UInt8.le_iff_toNat_le,UInt8.reduceToNat] <;>
    constructor <;> grind

theorem fits_iff :
    cap.Fits ↔ cap.Evaluates ∧ ∀ register ∈ cap.barRegisters, IsBar register := by
  by_cases hvendor : cap.Vendor
  · have hbar := barRegisters_isBar_iff hvendor
    simp only [Fits,Evaluates,hvendor,true_imp_iff]
    simp only [UInt8.le_iff_toNat_le,UInt8.reduceToNat] at hbar ⊢
    constructor
    · rintro ⟨hptr,hnotify,hidx,hwide,hsum⟩
      obtain ⟨hevaluates,hregisters⟩ := hbar.mp ⟨hidx,hwide⟩
      refine ⟨⟨by omega,by omega,hevaluates,hsum,fun h => ?_⟩,hregisters⟩
      have hptr12 := hnotify h
      omega
    · rintro ⟨⟨_,hptr,hevaluates,hsum,hnotify⟩,hregisters⟩
      obtain ⟨hidx,hwide⟩ := hbar.mpr ⟨hevaluates,hregisters⟩
      refine ⟨by omega,fun h => ?_,hidx,hwide,hsum⟩
      have hptr12 := hnotify h
      omega
  · simp [Fits,Evaluates,barRegisters,hvendor]

end Capability

/-- The walk begins at the pointer that the first read finds. -/
theorem findCapabilities_returnsIff :
    ReturnsIff (findCapabilities answers bus slot func .dev ⟨[],[]⟩)
      (∀ cap ∈ presented answers, cap.Evaluates)
      fun out => out.2.barRegisters = (presented answers).flatMap Capability.barRegisters := by
  have hstart : ConfigReads.At ⟨[],[]⟩ 0 [] := ⟨rfl,rfl⟩
  refine ConfigAccess.bind_true (pciReadWord_returnsIff 0x34 hstart) ?_
  rintro _ reads ⟨rfl,h⟩
  by_cases hptr : (answers 0 &&& 0xFF).toUInt8 = 0
  · rw [presented,hptr]
    refine (ConfigAccess.pure ?_).congr (by simp [listFrom])
    rw [h.2]
    rfl
  · simp only [hptr,if_false]
    refine ConfigAccess.true_bind (walkCapabilities_returnsIff 48 _ _ h) ?_
    intro caps reads h
    refine (ConfigAccess.ite (fun _ => ConfigAccess.pure h) fun _ => ConfigAccess.pure h).congr ?_
    simp

/-- The walk is safe exactly if every capability that the device presents to it fits. -/
theorem findCapabilities_safe_iff (answers : PciFunction) (bus slot func : UInt8) :
    Safe answers bus slot func ↔ ∀ cap ∈ presented answers, cap.Fits := by
  rw [Safe,findCapabilities_returnsIff.returns_iff (d := ∀ cap ∈ presented answers,
    ∀ register ∈ cap.barRegisters, IsBar register)]
  · simp only [Capability.fits_iff,forall_and]
  · intro out hout
    rw [hout,List.forall_mem_flatMap]

/-- A function whose one capability, for the common configuration, starts at `0xFC`. -/
def lastCapability : PciFunction
  | 0 => 0xFC
  | 1 => 0x01000009
  | _ => 0

/-- The second word of that capability would lie at offset 256. -/
theorem lastCapability_unsafe : ¬∀ answers bus slot func, Safe answers bus slot func := by
  intro h
  have hoverflow : findCapabilities lastCapability 0 3 0 .dev ⟨[],[]⟩ = .error .overflow := rfl
  obtain ⟨out,hout,_⟩ := h lastCapability 0 3 0
  rw [hoverflow] at hout
  cases hout

end VirtioPci
end PolymorphOS
