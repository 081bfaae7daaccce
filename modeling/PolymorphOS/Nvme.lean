import PolymorphOS.RustCore

/-! The block interface of the NVMe driver, over a device that completes each I/O
command with a status of its own choice, and the kernel calls made through it. -/
namespace PolymorphOS

/-- One logical block. -/
abbrev Block := {bytes : List UInt8 // bytes.length = 4096}

namespace Block

def zero : Block := ⟨List.replicate 4096 0,List.length_replicate⟩

/-- `IO_BUF` after it was zeroed and the data copied to its front. -/
def ofData (data : List UInt8) : Block :=
  ⟨(data ++ List.replicate (4096 - data.length) 0).take 4096,by simp; omega⟩

theorem ofData_bytes {data : List UInt8} (h : data.length ≤ 4096) :
    (ofData data).1 = data ++ List.replicate (4096 - data.length) 0 :=
  List.take_of_length_le (by simp; omega)

theorem zero_eq : zero = ofData [] := by
  apply Subtype.ext
  rw [ofData_bytes (Nat.zero_le _),List.nil_append,List.length_nil,Nat.sub_zero]
  rfl

theorem ofData_self (b : Block) : ofData b.1 = b := by
  apply Subtype.ext
  rw [ofData_bytes b.2.le,b.2,Nat.sub_self,List.replicate_zero,List.append_nil]

end Block

inductive IoCmd
  | read (lba : UInt64)
  | write (lba : UInt64) (block : Block)

/-- The drive: its blocks, the status its `n`-th I/O command completes with, and the
commands issued so far. -/
structure NvmeController where
  blocks : UInt64 → Block
  status : ℕ → UInt16
  log : List IoCmd

namespace NvmeController

/-- The `n`-th command succeeds; bit 0 of the status is the phase tag. -/
def Succeeds (d : NvmeController) (n : ℕ) : Prop := d.status n >>> 1 = 0

instance (d : NvmeController) (n : ℕ) : Decidable (d.Succeeds n) :=
  inferInstanceAs (Decidable (_ = _))

/-- A command that fails leaves the addressed block as it was. -/
def submitIoCmd (d : NvmeController) (cmd : IoCmd) : Except UInt16 Unit × NvmeController :=
  let log := d.log ++ [cmd]
  if d.Succeeds d.log.length then
    match cmd with
    | .read _ => (.ok (),{d with log})
    | .write lba block => (.ok (),{d with log,blocks := Function.update d.blocks lba block})
  else (.error (d.status d.log.length),{d with log})

def writeBlock (d : NvmeController) (lba : UInt64) (data : List UInt8) :
    Except UInt16 Unit × NvmeController :=
  if 4096 < data.length then (.error 0xFFFF,d)
  else d.submitIoCmd (.write lba (.ofData data))

def readBlock (d : NvmeController) (lba : UInt64) : Except UInt16 Block × NvmeController :=
  match d.submitIoCmd (.read lba) with
  | (.ok (),d') => (.ok (d.blocks lba),d')
  | (.error status,d') => (.error status,d')

/-- The drive once the command was issued and did not change it. -/
def issued (d : NvmeController) (cmd : IoCmd) : NvmeController := {d with log := d.log ++ [cmd]}

/-- The drive once the write was issued and succeeded. -/
def written (d : NvmeController) (lba : UInt64) (block : Block) : NvmeController :=
  {d with log := d.log ++ [.write lba block],blocks := Function.update d.blocks lba block}

@[simp] theorem issued_blocks (d : NvmeController) (cmd : IoCmd) : (d.issued cmd).blocks = d.blocks := rfl
@[simp] theorem issued_status (d : NvmeController) (cmd : IoCmd) : (d.issued cmd).status = d.status := rfl
@[simp] theorem issued_log (d : NvmeController) (cmd : IoCmd) : (d.issued cmd).log = d.log ++ [cmd] := rfl
@[simp] theorem written_blocks (d : NvmeController) (lba : UInt64) (b : Block) :
    (d.written lba b).blocks = Function.update d.blocks lba b := rfl
@[simp] theorem written_status (d : NvmeController) (lba : UInt64) (b : Block) :
    (d.written lba b).status = d.status := rfl
@[simp] theorem written_log (d : NvmeController) (lba : UInt64) (b : Block) :
    (d.written lba b).log = d.log ++ [.write lba b] := rfl

theorem readBlock_eq (d : NvmeController) (lba : UInt64) :
    d.readBlock lba = (if d.Succeeds d.log.length then .ok (d.blocks lba)
      else .error (d.status d.log.length),d.issued (.read lba)) := by
  unfold readBlock submitIoCmd
  by_cases h : d.Succeeds d.log.length
  · simp only [h,if_true,issued]
  · simp only [h,if_false,issued]

theorem writeBlock_ok {d : NvmeController} {data : List UInt8} (lba : UInt64)
    (hd : data.length ≤ 4096) (h : d.Succeeds d.log.length) :
    d.writeBlock lba data = (.ok (),d.written lba (.ofData data)) := by
  simp only [writeBlock,submitIoCmd,if_neg (not_lt.mpr hd),if_pos h,written]

theorem writeBlock_error {d : NvmeController} {data : List UInt8} (lba : UInt64)
    (hd : data.length ≤ 4096) (h : ¬d.Succeeds d.log.length) :
    d.writeBlock lba data = (.error (d.status d.log.length),d.issued (.write lba (.ofData data))) := by
  simp only [writeBlock,submitIoCmd,if_neg (not_lt.mpr hd),if_neg h,issued]

theorem succeeds_issued {d : NvmeController} {cmd : IoCmd} {j : ℕ} :
    (d.issued cmd).Succeeds ((d.issued cmd).log.length + j) ↔ d.Succeeds (d.log.length + (j + 1)) := by
  simp only [Succeeds,issued_status,issued_log,List.length_append,List.length_singleton]
  rw [Nat.add_right_comm,Nat.add_assoc]

/-- Every command succeeds. -/
def Healthy (d : NvmeController) : Prop := ∀ n, d.Succeeds n

theorem Healthy.of_status {d d' : NvmeController} (hd : d.Healthy) (h : d'.status = d.status) :
    d'.Healthy := by
  intro n
  rw [Succeeds,h]
  exact hd n

theorem Healthy.issued {d : NvmeController} (h : d.Healthy) (cmd : IoCmd) :
    (d.issued cmd).Healthy := h

theorem Healthy.written {d : NvmeController} (h : d.Healthy) (lba : UInt64) (block : Block) :
    (d.written lba block).Healthy := h

/-- What the commands of one call may have done: they were logged, wrote to no block
outside `W`, and left the others alone. -/
structure Frame (W : UInt64 → Prop) (d d' : NvmeController) : Prop where
  status : d'.status = d.status
  log : ∃ cmds, d'.log = d.log ++ cmds ∧ ∀ lba b, IoCmd.write lba b ∈ cmds → W lba
  blocks : ∀ lba, ¬W lba → d'.blocks lba = d.blocks lba

namespace Frame

variable {W : UInt64 → Prop} {d d' d'' : NvmeController}

theorem refl (d : NvmeController) : Frame W d d where
  status := rfl
  log := ⟨[],by simp⟩
  blocks _ _ := rfl

theorem trans (h : Frame W d d') (h' : Frame W d' d'') : Frame W d d'' where
  status := h'.status.trans h.status
  log := by
    obtain ⟨cs,hcs,hw⟩ := h.log
    obtain ⟨cs',hcs',hw'⟩ := h'.log
    refine ⟨cs ++ cs',by rw [hcs',hcs,List.append_assoc],fun lba b hb => ?_⟩
    exact (List.mem_append.mp hb).elim (hw lba b) (hw' lba b)
  blocks lba hl := (h'.blocks lba hl).trans (h.blocks lba hl)

theorem mono {W' : UInt64 → Prop} (h : Frame W d d') (hW : ∀ lba, W lba → W' lba) : Frame W' d d' where
  status := h.status
  log := by
    obtain ⟨cs,hcs,hw⟩ := h.log
    exact ⟨cs,hcs,fun lba b hb => hW lba (hw lba b hb)⟩
  blocks lba hl := h.blocks lba fun hw => hl (hW lba hw)

theorem read (d : NvmeController) (lba : UInt64) : Frame W d (d.issued (.read lba)) where
  status := rfl
  log := ⟨[.read lba],rfl,by simp⟩
  blocks _ _ := rfl

theorem failed (d : NvmeController) {lba : UInt64} (b : Block) (hw : W lba) :
    Frame W d (d.issued (.write lba b)) where
  status := rfl
  log := ⟨[.write lba b],rfl,by simp [hw]⟩
  blocks _ _ := rfl

theorem write (d : NvmeController) {lba : UInt64} (b : Block) (hw : W lba) :
    Frame W d (d.written lba b) where
  status := rfl
  log := ⟨[.write lba b],rfl,by simp [hw]⟩
  blocks l hl := Function.update_of_ne (fun he : l = lba => hl (he.symm ▸ hw)) _ _

end Frame
end NvmeController

/-- A kernel call over `NVME_DRIVE`, which is `None` until a drive was found. -/
abbrev Kernel := EStateM Fault (Option NvmeController)

namespace Kernel

variable {A B : Type}

/-- `NVME_DRIVE.lock().as_mut().ok_or("NVMe offline")?`. -/
def nvmeLock : Kernel Unit
  | none => .error (.err "NVMe offline") none
  | some nvme => .ok () (some nvme)

/-- A command on the locked drive, `.map_err(|_| message)?`. -/
def nvme (message : String) (cmd : NvmeController → Except UInt16 A × NvmeController) : Kernel A
  | none => .error (.err "NVMe offline") none
  | some nvme => match cmd nvme with
    | (.ok a,nvme) => .ok a (some nvme)
    | (.error _,nvme) => .error (.err message) (some nvme)

def yield (r : Except Fault A) : Kernel A := fun s =>
  match r with
  | .ok a => .ok a s
  | .error e => .error e s

def ofPanic (r : Except Panic A) : Kernel A := yield (r.mapError .panic)

def ofErr (r : Except String A) : Kernel A := yield (r.mapError .err)

theorem bind_ok {x : Kernel A} {f : A → Kernel B} {s t : Option NvmeController} {a : A}
    (h : x s = .ok a t) : (x >>= f) s = f a t := by
  simp only [bind,EStateM.bind,h]

theorem bind_error {x : Kernel A} {f : A → Kernel B} {s t : Option NvmeController} {e : Fault}
    (h : x s = .error e t) : (x >>= f) s = .error e t := by
  simp only [bind,EStateM.bind,h]

theorem ofPanic_ok (a : A) (s : Option NvmeController) : ofPanic (.ok a) s = .ok a s := rfl

theorem ofPanic_error (cause : Panic) (s : Option NvmeController) :
    (ofPanic (.error cause) : Kernel A) s = .error (.panic cause) s := rfl

theorem ofErr_ok (a : A) (s : Option NvmeController) : ofErr (.ok a) s = .ok a s := rfl

theorem ofErr_error (message : String) (s : Option NvmeController) :
    (ofErr (.error message) : Kernel A) s = .error (.err message) s := rfl

theorem nvmeLock_some (d : NvmeController) : nvmeLock (some d) = .ok () (some d) := rfl

theorem nvme_read_ok {d : NvmeController} (message : String) (lba : UInt64)
    (h : d.Succeeds d.log.length) : nvme message (·.readBlock lba) (some d) =
      .ok (d.blocks lba) (some (d.issued (.read lba))) := by
  simp only [nvme,d.readBlock_eq,if_pos h]

theorem nvme_read_error {d : NvmeController} (message : String) (lba : UInt64)
    (h : ¬d.Succeeds d.log.length) : nvme message (·.readBlock lba) (some d) =
      .error (.err message) (some (d.issued (.read lba))) := by
  simp only [nvme,d.readBlock_eq,if_neg h]

theorem nvme_write_ok {d : NvmeController} (message : String) (lba : UInt64) {data : List UInt8}
    (hd : data.length ≤ 4096) (h : d.Succeeds d.log.length) :
    nvme message (·.writeBlock lba data) (some d) = .ok () (some (d.written lba (.ofData data))) := by
  simp only [nvme,NvmeController.writeBlock_ok lba hd h]

theorem nvme_write_error {d : NvmeController} (message : String) (lba : UInt64) {data : List UInt8}
    (hd : data.length ≤ 4096) (h : ¬d.Succeeds d.log.length) :
    nvme message (·.writeBlock lba data) (some d) =
      .error (.err message) (some (d.issued (.write lba (.ofData data)))) := by
  simp only [nvme,NvmeController.writeBlock_error lba hd h]

theorem bind_ok_iff {x : Kernel A} {f : A → Kernel B} {s t : Option NvmeController} {b : B} :
    (x >>= f) s = .ok b t ↔ ∃ a s', x s = .ok a s' ∧ f a s' = .ok b t := by
  constructor
  · intro h
    cases hx : x s with
    | error e s' =>
      rw [bind_error hx] at h
      cases h
    | ok a s' =>
      rw [bind_ok hx] at h
      exact ⟨a,s',rfl,h⟩
  · rintro ⟨a,s',hx,h⟩
    rw [bind_ok hx,h]

theorem ofPanic_iff {r : Except Panic A} {a : A} {s t : Option NvmeController} :
    ofPanic r s = .ok a t ↔ r = .ok a ∧ t = s := by
  cases r with
  | error cause => exact iff_of_false (fun h => nomatch h) fun h => nomatch h.1
  | ok a =>
    constructor
    · rintro ⟨⟩
      exact ⟨rfl,rfl⟩
    · rintro ⟨⟨⟩,rfl⟩
      rfl

theorem ofErr_iff {r : Except String A} {a : A} {s t : Option NvmeController} :
    ofErr r s = .ok a t ↔ r = .ok a ∧ t = s := by
  cases r with
  | error message => exact iff_of_false (fun h => nomatch h) fun h => nomatch h.1
  | ok a =>
    constructor
    · rintro ⟨⟩
      exact ⟨rfl,rfl⟩
    · rintro ⟨⟨⟩,rfl⟩
      rfl

theorem nvme_read_iff {message : String} {lba : UInt64} {d : NvmeController} {b : Block}
    {t : Option NvmeController} : nvme message (·.readBlock lba) (some d) = .ok b t ↔
      d.Succeeds d.log.length ∧ b = d.blocks lba ∧ t = some (d.issued (.read lba)) := by
  by_cases hs : d.Succeeds d.log.length
  · rw [nvme_read_ok message lba hs]
    constructor
    · rintro ⟨⟩
      exact ⟨hs,rfl,rfl⟩
    · rintro ⟨_,rfl,rfl⟩
      rfl
  · rw [nvme_read_error message lba hs]
    exact iff_of_false (fun h => nomatch h) fun h => hs h.1

theorem nvme_write_iff {message : String} {lba : UInt64} {data : List UInt8} {d : NvmeController}
    {t : Option NvmeController} (hd : data.length ≤ 4096) :
    nvme message (·.writeBlock lba data) (some d) = .ok () t ↔
      d.Succeeds d.log.length ∧ t = some (d.written lba (.ofData data)) := by
  by_cases hs : d.Succeeds d.log.length
  · rw [nvme_write_ok message lba hd hs]
    constructor
    · rintro ⟨⟩
      exact ⟨hs,rfl⟩
    · rintro ⟨_,rfl⟩
      rfl
  · rw [nvme_write_error message lba hd hs]
    exact iff_of_false (fun h => nomatch h) fun h => hs h.1

end Kernel
end PolymorphOS
