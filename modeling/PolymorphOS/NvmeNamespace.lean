import Mathlib.Data.List.GetD
import PolymorphOS.ByteMemory
import PolymorphOS.Nvme
import PolymorphOS.NvmeQueues

/-! The block calls of the driver down to command fields and DMA, over a namespace formatted
with logical blocks of any size. -/
namespace PolymorphOS

/-- The namespace's bytes and the host's physical memory, which the device reaches by DMA. -/
structure DmaState where
  storage : ℕ → UInt8
  memory : ℕ → UInt8

/-- How the device completes one command: the status, and what a command that fails leaves in
the range it should have written. -/
structure Attempt where
  status : UInt16
  junk : ℕ → UInt8

/-- What reaches the destination of a transfer from `src`. -/
def Attempt.transfer (attempt : Attempt) (src : ℕ → UInt8) : ℕ → UInt8 :=
  if attempt.status >>> 1 = 0 then src else attempt.junk

namespace NvmeCmd

/-- The starting LBA of a Read or Write. -/
def slba (cmd : NvmeCmd) : ℕ := cmd.cdw10.toNat + cmd.cdw11.toNat * 2^32

/-- The number of logical blocks of a Read or Write; the field is zero-based. -/
def blockCount (cmd : NvmeCmd) : ℕ := cmd.cdw12.toNat % 2^16 + 1

end NvmeCmd

namespace DmaState

/-- A conformant namespace with logical blocks of `size` bytes executes a Write or a Read. -/
def execute (size : ℕ) (attempt : Attempt) (cmd : NvmeCmd) (s : DmaState) : DmaState :=
  let base := cmd.slba * size
  let len := cmd.blockCount * size
  let buf := cmd.dptr.1.toNat
  if cmd.opcode = 0x01 then
    {s with storage := splice s.storage base len (attempt.transfer fun i => s.memory (buf + i))}
  else if cmd.opcode = 0x02 then
    {s with memory := splice s.memory buf len (attempt.transfer fun i => s.storage (base + i))}
  else s

/-- `submit_io_cmd`, which returns the outcome of the command's own completion. -/
def submitIoCmd (size : ℕ) (attempt : Attempt) (cmd : NvmeCmd) (s : DmaState) :
    Except UInt16 Unit × DmaState :=
  ({NvmeComp.empty with status := attempt.status}.outcome,s.execute size attempt cmd)

/-- `IO_BUF`, zeroed, with the data copied to its front. -/
def fill (buf : UInt64) (data : List UInt8) (s : DmaState) : DmaState :=
  {s with memory := splice s.memory buf.toNat 4096 fun i => data.getD i 0}

/-- The command of `write_block` or `read_block`. -/
def ioCmd (opcode : UInt8) (buf lba : UInt64) : NvmeCmd :=
  {NvmeCmd.empty with
    opcode
    nsid := 1
    dptr := (buf,0)
    cdw10 := (lba &&& 0xFFFFFFFF).toUInt32
    cdw11 := (lba >>> 32).toUInt32
    cdw12 := 0}

/-- `write_block`, with `io_buf_phys` the address of `IO_BUF`. -/
def writeBlock (size : ℕ) (attempt : Attempt) (buf lba : UInt64) (data : List UInt8)
    (s : DmaState) : Except UInt16 Unit × DmaState :=
  if 4096 < data.length then (.error 0xFFFF,s)
  else (s.fill buf data).submitIoCmd size attempt (ioCmd 0x01 buf lba)

/-- `read_block`, with the bytes copied to `dest_buffer`. -/
def readBlock (size : ℕ) (attempt : Attempt) (buf lba : UInt64) (s : DmaState) :
    Except UInt16 (List UInt8) × DmaState :=
  match (s.fill buf []).submitIoCmd size attempt (ioCmd 0x02 buf lba) with
  | (.ok (),s) => (.ok ((List.range 4096).map fun i => s.memory (buf.toNat + i)),s)
  | (.error status,s) => (.error status,s)

/-- What a successful read of an LBA returns: one logical block, and the zeros of `IO_BUF`
behind it. -/
def content (size : ℕ) (s : DmaState) (lba : UInt64) : List UInt8 :=
  (List.range 4096).map fun i => if i < size then s.storage (lba.toNat * size + i) else 0

theorem slba_ioCmd (opcode : UInt8) (buf lba : UInt64) : (ioCmd opcode buf lba).slba = lba.toNat := by
  have hlow : (lba &&& 0xFFFFFFFF).toNat = lba.toNat % 2^32 := by
    rw [UInt64.toNat_and]
    exact Nat.and_two_pow_sub_one_eq_mod _ 32
  have hhigh : (lba >>> 32).toNat = lba.toNat / 2^32 := by
    rw [UInt64.toNat_shiftRight]
    exact Nat.shiftRight_eq_div_pow _ 32
  have hlt := lba.toNat_lt
  show (lba &&& 0xFFFFFFFF).toUInt32.toNat + (lba >>> 32).toUInt32.toNat * 2^32 = lba.toNat
  rw [UInt64.toNat_toUInt32,UInt64.toNat_toUInt32,hlow,hhigh]
  omega

theorem blockCount_ioCmd (opcode : UInt8) (buf lba : UInt64) :
    (ioCmd opcode buf lba).blockCount = 1 := rfl

variable {size : ℕ} {attempt : Attempt} {buf lba : UInt64} {data : List UInt8} {s : DmaState}

theorem fill_apply (buf : UInt64) (data : List UInt8) (s : DmaState) {i : ℕ} (hi : i < 4096) :
    (s.fill buf data).memory (buf.toNat + i) = data.getD i 0 := by
  exact splice_apply hi fun i => data.getD i 0

/-- The status that the driver reads from the completion decides. -/
theorem submitIoCmd_result (size : ℕ) (attempt : Attempt) (cmd : NvmeCmd) (s : DmaState) :
    (s.submitIoCmd size attempt cmd).1 =
      if attempt.status >>> 1 = 0 then .ok () else .error attempt.status := rfl

theorem execute_write (size : ℕ) (attempt : Attempt) (buf lba : UInt64) (s : DmaState) :
    s.execute size attempt (ioCmd 0x01 buf lba) =
      let sent := attempt.transfer fun i => s.memory (buf.toNat + i)
      {s with storage := splice s.storage (lba.toNat * size) size sent} := by
  simp only [execute,slba_ioCmd,blockCount_ioCmd,Nat.one_mul]
  exact if_pos rfl

theorem execute_read (size : ℕ) (attempt : Attempt) (buf lba : UInt64) (s : DmaState) :
    s.execute size attempt (ioCmd 0x02 buf lba) =
      let sent := attempt.transfer fun i => s.storage (lba.toNat * size + i)
      {s with memory := splice s.memory buf.toNat size sent} := by
  have hne : ¬(ioCmd 0x02 buf lba).opcode = 0x01 := show ¬(0x02 : UInt8) = 0x01 by decide
  simp only [execute,slba_ioCmd,blockCount_ioCmd,Nat.one_mul]
  exact (if_neg hne).trans (if_pos rfl)

/-- A successful write puts one logical block of the padded data at its LBA. -/
theorem writeBlock_storage (hd : data.length ≤ 4096) (hok : attempt.status >>> 1 = 0)
    (hsize : size ≤ 4096) {i : ℕ} (hi : i < size) :
    (s.writeBlock size attempt buf lba data).2.storage (lba.toNat * size + i) =
      data.getD i 0 := by
  rw [writeBlock,if_neg (not_lt.mpr hd),submitIoCmd,execute_write]
  show splice s.storage (lba.toNat * size) size _ (lba.toNat * size + i) = _
  calc splice s.storage (lba.toNat * size) size _ (lba.toNat * size + i)
      = attempt.transfer (fun i => (s.fill buf data).memory (buf.toNat + i)) i := splice_apply hi _
    _ = (s.fill buf data).memory (buf.toNat + i) := by rw [Attempt.transfer,if_pos hok]
    _ = data.getD i 0 := fill_apply buf data s (hi.trans_le hsize)

/-- No write touches another LBA, whatever becomes of it. -/
theorem writeBlock_frame {other : UInt64} (hne : other ≠ lba) {i : ℕ} (hi : i < size) :
    (s.writeBlock size attempt buf lba data).2.storage (other.toNat * size + i) =
      s.storage (other.toNat * size + i) := by
  unfold writeBlock
  split
  · rfl
  · rw [submitIoCmd,execute_write]
    apply splice_of_not_mem
    have hne' : other.toNat ≠ lba.toNat := fun he => hne (UInt64.toNat_inj.mp he)
    rcases Nat.lt_or_gt_of_ne hne' with hlt | hgt
    · left
      nlinarith
    · right
      nlinarith

/-- A failed command reports its status. -/
theorem writeBlock_result (hd : data.length ≤ 4096) :
    (s.writeBlock size attempt buf lba data).1 =
      if attempt.status >>> 1 = 0 then .ok () else .error attempt.status := by
  rw [writeBlock,if_neg (not_lt.mpr hd),submitIoCmd_result]

theorem content_congr {t : DmaState}
    (h : ∀ i < size, t.storage (lba.toNat * size + i) = s.storage (lba.toNat * size + i)) :
    t.content size lba = s.content size lba := by
  unfold content
  apply List.map_congr_left
  intro i _
  by_cases hi : i < size
  · rw [if_pos hi,if_pos hi,h i hi]
  · rw [if_neg hi,if_neg hi]

/-- A read that succeeds leaves in `IO_BUF` the content of the LBA. -/
theorem readBlock_memory (hok : attempt.status >>> 1 = 0) {i : ℕ} (hi : i < 4096) :
    ((s.fill buf []).execute size attempt (ioCmd 0x02 buf lba)).memory (buf.toNat + i) =
      if i < size then s.storage (lba.toNat * size + i) else 0 := by
  rw [execute_read]
  show splice (s.fill buf []).memory buf.toNat size _ (buf.toNat + i) = _
  by_cases hlt : i < size
  · rw [splice_apply hlt,if_pos hlt,Attempt.transfer,if_pos hok]
    rfl
  · rw [splice_of_not_mem (by omega),if_neg hlt]
    exact fill_apply buf [] s hi

theorem readBlock_result (size : ℕ) (attempt : Attempt) (buf lba : UInt64) (s : DmaState) :
    (s.readBlock size attempt buf lba).1 =
      if attempt.status >>> 1 = 0 then .ok (s.content size lba) else .error attempt.status := by
  have hresult := submitIoCmd_result size attempt (ioCmd 0x02 buf lba) (s.fill buf [])
  have hmemory : ((s.fill buf []).submitIoCmd size attempt (ioCmd 0x02 buf lba)).2 =
    (s.fill buf []).execute size attempt (ioCmd 0x02 buf lba) := rfl
  unfold readBlock
  split
  · rename_i t heq
    rw [heq] at hresult hmemory
    have hok : attempt.status >>> 1 = 0 := by
      by_contra hne
      rw [if_neg hne] at hresult
      cases hresult
    rw [if_pos hok]
    apply congrArg Except.ok
    unfold content
    apply List.map_congr_left
    intro i hi
    show t.memory (buf.toNat + i) = _
    rw [show t = _ from hmemory]
    exact readBlock_memory hok (List.mem_range.mp hi)
  · rename_i status t heq
    rw [heq] at hresult
    show Except.error status = _
    by_cases hok : attempt.status >>> 1 = 0
    · rw [if_pos hok] at hresult
      cases hresult
    · rw [if_neg hok] at hresult
      rw [if_neg hok,Except.error.inj hresult]

theorem readBlock_storage (size : ℕ) (attempt : Attempt) (buf lba : UInt64) (s : DmaState) :
    (s.readBlock size attempt buf lba).2.storage = s.storage := by
  have hexec : ((s.fill buf []).execute size attempt (ioCmd 0x02 buf lba)).storage = s.storage := by
    rw [execute_read]
    rfl
  unfold readBlock submitIoCmd
  split
  · rename_i heq
    rw [← (Prod.mk.inj heq).2]
    exact hexec
  · rename_i heq
    rw [← (Prod.mk.inj heq).2]
    exact hexec

/-- The zero-padded data, byte by byte. -/
theorem ofData_eq_map (data : List UInt8) :
    (Block.ofData data).1 = (List.range 4096).map fun i => data.getD i 0 := by
  unfold Block.ofData
  apply List.ext_getElem
  · rw [List.length_take,List.length_append,List.length_replicate,List.length_map,
      List.length_range]
    omega
  · intro i _ hi
    rw [List.getElem_map,List.getElem_range,List.getElem_take,List.getElem_append]
    split
    · rename_i hlt
      rw [List.getD_eq_getElem _ _ hlt]
    · rename_i hge
      rw [List.getElem_replicate,List.getD_eq_default _ _ (not_lt.mp hge)]

/-- An LBA that holds the first logical block of the data reads back as the whole of it
exactly when nothing but zeros was cut off. -/
theorem content_eq_ofData_iff (hd : data.length ≤ 4096)
    (h : ∀ i < size, s.storage (lba.toNat * size + i) = data.getD i 0) :
    s.content size lba = (Block.ofData data).1 ↔ ∀ b ∈ data.drop size, b = 0 := by
  rw [ofData_eq_map,content,List.map_inj_left]
  constructor
  · intro heq b hb
    obtain ⟨j,hj,rfl⟩ := List.mem_iff_getElem.mp hb
    rw [List.length_drop] at hj
    have hj' : size + j < data.length := by omega
    have hbyte := heq (size + j) (List.mem_range.mpr (by omega))
    rw [if_neg (by omega),List.getD_eq_getElem _ _ hj'] at hbyte
    rw [List.getElem_drop,← hbyte]
  · intro hzero i _
    by_cases hi : i < size
    · rw [if_pos hi,h i hi]
    · rw [if_neg hi]
      by_cases hlt : i < data.length
      · rw [List.getD_eq_getElem _ _ hlt]
        refine (hzero _ (List.mem_iff_getElem.mpr ⟨i - size,?_,?_⟩)).symm
        · rw [List.length_drop]
          omega
        · rw [List.getElem_drop]
          congr 1
          omega
      · rw [List.getD_eq_default _ _ (not_lt.mp hlt)]

theorem content_writeBlock (hd : data.length ≤ 4096) (hok : attempt.status >>> 1 = 0)
    (hsize : size ≤ 4096) (hfits : data.length ≤ size) :
    (s.writeBlock size attempt buf lba data).2.content size lba = (Block.ofData data).1 := by
  apply (content_eq_ofData_iff hd fun i hi => writeBlock_storage hd hok hsize hi).mpr
  rw [List.drop_eq_nil_of_le hfits]
  exact fun _ hb => nomatch hb

theorem content_writeBlock_of_ne {other : UInt64} (hne : other ≠ lba) :
    (s.writeBlock size attempt buf lba data).2.content size other = s.content size other :=
  content_congr fun _ hi => writeBlock_frame hne hi

/-- The drive of the block interface that the namespace implements when its logical blocks
are as large as the driver's. -/
def blocks (s : DmaState) : UInt64 → Block :=
  fun lba => ⟨s.content 4096 lba,by rw [content,List.length_map,List.length_range]⟩

theorem blocks_val (s : DmaState) (lba : UInt64) : (s.blocks lba).1 = s.content 4096 lba := by
  rw [blocks]

/-- A write that succeeds does to the blocks what the block interface says. -/
theorem writeBlock_blocks {d : NvmeController} (hblocks : d.blocks = s.blocks)
    (hstatus : attempt.status = d.status d.log.length) (hok : d.Succeeds d.log.length)
    (hd : data.length ≤ 4096) :
    (s.writeBlock 4096 attempt buf lba data).1 = (d.writeBlock lba data).1 ∧
      (s.writeBlock 4096 attempt buf lba data).2.blocks = (d.writeBlock lba data).2.blocks := by
  have hok' : attempt.status >>> 1 = 0 := by rw [hstatus]; exact hok
  rw [NvmeController.writeBlock_ok lba hd hok,writeBlock_result hd,if_pos hok']
  refine ⟨rfl,?_⟩
  rw [NvmeController.written_blocks,hblocks]
  funext other
  apply Subtype.ext
  by_cases he : other = lba
  · rw [he,Function.update_self,blocks_val,content_writeBlock hd hok' le_rfl hd]
  · rw [Function.update_of_ne he,blocks_val,blocks_val,content_writeBlock_of_ne he]

/-- So does a read, whatever its status. -/
theorem readBlock_blocks {d : NvmeController} (hblocks : d.blocks = s.blocks)
    (hstatus : attempt.status = d.status d.log.length) :
    (s.readBlock 4096 attempt buf lba).1 = (d.readBlock lba).1.map Subtype.val := by
  rw [readBlock_result,NvmeController.readBlock_eq,hblocks,hstatus]
  by_cases hok : d.Succeeds d.log.length
  · rw [if_pos hok,if_pos (show d.status d.log.length >>> 1 = 0 from hok),Except.map,blocks]
  · rw [if_neg hok,if_neg (show ¬d.status d.log.length >>> 1 = 0 from hok),Except.map]

end DmaState

/-- A block call, with how the device will complete its command. -/
inductive BlockCall
  | write (lba : UInt64) (data : List UInt8) (attempt : Attempt)
  | read (lba : UInt64) (attempt : Attempt)

/-- A run of block calls: the machine's bytes, and for each LBA the data of the latest
`write_block`, if that one succeeded. -/
structure NamespaceState where
  dma : DmaState
  latest : UInt64 → Option (List UInt8)

namespace NamespaceState

/-- One call; `write_block` rejects data that does not fit before it does anything. -/
def call (size : ℕ) (buf : UInt64) (s : NamespaceState) : BlockCall → NamespaceState
  | .write lba data attempt =>
    let r := s.dma.writeBlock size attempt buf lba data
    let accepted := if r.1.isOk then some data else none
    ⟨r.2,if 4096 < data.length then s.latest else Function.update s.latest lba accepted⟩
  | .read lba attempt => ⟨(s.dma.readBlock size attempt buf lba).2,s.latest⟩

end NamespaceState

/-- Any sequence of block calls on any namespace with logical blocks of `size` bytes. -/
def namespaceSystem (size : ℕ) (buf : UInt64) : Runs.System NamespaceState BlockCall where
  init s := s.latest = fun _ => none
  step s c t := t = s.call size buf c

namespace NamespaceState

variable {size : ℕ} {buf : UInt64} {s : NamespaceState}

/-- The invariant: an LBA holds the first logical block of the latest data written to it. -/
def Inv (size : ℕ) (s : NamespaceState) : Prop :=
  ∀ lba data, s.latest lba = some data → data.length ≤ 4096 ∧
    ∀ i < size, s.dma.storage (lba.toNat * size + i) = data.getD i 0

theorem Inv.write (hsize : size ≤ 4096) (h : Inv size s) (lba : UInt64) (data : List UInt8)
    (attempt : Attempt) : Inv size (s.call size buf (.write lba data attempt)) := by
  intro other data' hlatest
  by_cases hd : data.length ≤ 4096
  · have hlatest' : Function.update s.latest lba _ other = some data' :=
      (congrFun (if_neg (not_lt.mpr hd)) other).symm.trans hlatest
    by_cases he : other = lba
    · subst he
      rw [Function.update_self,DmaState.writeBlock_result hd] at hlatest'
      by_cases hok : attempt.status >>> 1 = 0
      · rw [if_pos hok] at hlatest'
        cases Option.some.inj hlatest'
        exact ⟨hd,fun i hi => DmaState.writeBlock_storage hd hok hsize hi⟩
      · rw [if_neg hok] at hlatest'
        cases hlatest'
    · rw [Function.update_of_ne he] at hlatest'
      refine ⟨(h other data' hlatest').1,fun i hi => ?_⟩
      show (s.dma.writeBlock size attempt buf lba data).2.storage _ = _
      rw [DmaState.writeBlock_frame he hi]
      exact (h other data' hlatest').2 i hi
  · have hsame : s.call size buf (.write lba data attempt) = s := by
      simp only [call,DmaState.writeBlock,if_pos (not_le.mp hd)]
    rw [hsame] at hlatest ⊢
    exact h other data' hlatest

theorem Inv.read (h : Inv size s) (lba : UInt64) (attempt : Attempt) :
    Inv size (s.call size buf (.read lba attempt)) := by
  intro other data hlatest
  have hstorage := DmaState.readBlock_storage size attempt buf lba s.dma
  show data.length ≤ 4096 ∧
    ∀ i < size, (s.dma.readBlock size attempt buf lba).2.storage _ = _
  rw [hstorage]
  exact h other data hlatest

theorem Inv.reachable (hsize : size ≤ 4096) (h : (namespaceSystem size buf).Reachable s) :
    Inv size s := by
  refine h.invariant (fun s hs lba data hlatest => ?_) fun s c t hs hstep => ?_
  · rw [hs] at hlatest
    cases hlatest
  · cases hstep
    cases c with
    | write lba data attempt => exact hs.write hsize lba data attempt
    | read lba attempt => exact hs.read lba attempt

/-- Every successful `read_block(lba)` returns the data, zero-padded. -/
def ReadsBack (size : ℕ) (buf : UInt64) (s : NamespaceState) (lba : UInt64) (data : List UInt8) :
    Prop :=
  ∀ attempt bytes, (s.dma.readBlock size attempt buf lba).1 = .ok bytes →
    bytes = (Block.ofData data).1

theorem readsBack_iff {lba : UInt64} {data : List UInt8} :
    ReadsBack size buf s lba data ↔ s.dma.content size lba = (Block.ofData data).1 := by
  constructor
  · intro h
    exact h ⟨0,fun _ => 0⟩ _ (DmaState.readBlock_result size ⟨0,fun _ => 0⟩ buf lba s.dma)
  · intro h attempt bytes hread
    rw [DmaState.readBlock_result] at hread
    by_cases hok : attempt.status >>> 1 = 0
    · rw [if_pos hok] at hread
      rw [← Except.ok.inj hread,h]
    · rw [if_neg hok] at hread
      cases hread

end NamespaceState

/-- In every reachable state the latest data of an LBA reads back exactly when the bytes that
do not fit into one logical block are zeros, and no write changes what another LBA reads. -/
theorem readBlock_latest_iff {k : ℕ} (hk : 9 ≤ k ∧ k ≤ 12) {buf : UInt64} {s : NamespaceState}
    (h : (namespaceSystem (2^k) buf).Reachable s) :
    (∀ lba data, s.latest lba = some data →
      (s.ReadsBack (2^k) buf lba data ↔ ∀ b ∈ data.drop (2^k), b = 0)) ∧
    ∀ lba other data attempt again, other ≠ lba →
      ((s.dma.writeBlock (2^k) attempt buf other data).2.readBlock (2^k) again buf lba).1 =
        (s.dma.readBlock (2^k) again buf lba).1 := by
  have hsize : 2^k ≤ 4096 := Nat.pow_le_pow_right (by decide) hk.2
  constructor
  · intro lba data hlatest
    obtain ⟨hd,hstorage⟩ := NamespaceState.Inv.reachable hsize h lba data hlatest
    rw [NamespaceState.readsBack_iff]
    exact DmaState.content_eq_ofData_iff hd hstorage
  · intro lba other data attempt again hne
    rw [DmaState.readBlock_result,DmaState.readBlock_result]
    rw [DmaState.content_writeBlock_of_ne hne.symm]

/-- A zeroed machine before any call. -/
def NamespaceState.blank : NamespaceState := ⟨⟨fun _ => 0,fun _ => 0⟩,fun _ => none⟩

/-- One successful write to LBA 5 of a namespace with logical blocks of 512 bytes. -/
def NamespaceState.oneWrite (data : List UInt8) : NamespaceState :=
  blank.call (2^9) 0x1000 (.write 5 data ⟨0,fun _ => 0⟩)

theorem NamespaceState.oneWrite_reachable (data : List UInt8) :
    (namespaceSystem (2^9) 0x1000).Reachable (oneWrite data) := by
  have hinit : (namespaceSystem (2^9) 0x1000).Reachable blank := .init rfl
  exact .step hinit rfl

theorem NamespaceState.oneWrite_latest {data : List UInt8} (hd : data.length ≤ 4096) :
    (oneWrite data).latest 5 = some data := by
  have hresult : (blank.dma.writeBlock (2^9) ⟨0,fun _ => 0⟩ 0x1000 5 data).1 = .ok () :=
    (DmaState.writeBlock_result hd).trans (if_pos rfl)
  simp only [oneWrite,call,if_neg (not_lt.mpr hd),hresult,Function.update_self]
  rfl

/-- Data that fits into one logical block reads back. -/
theorem shortWrite_readsBack : (NamespaceState.oneWrite [1,2,3]).ReadsBack (2^9) 0x1000 5 [1,2,3] :=
  ((readBlock_latest_iff (by decide) (NamespaceState.oneWrite_reachable _)).1 5 _
    (NamespaceState.oneWrite_latest (by decide))).mpr fun _ hb => nomatch hb

/-- Of 513 bytes the last one is lost on a namespace with QEMU's default format. -/
theorem longWrite_truncated : ¬∀ k, 9 ≤ k ∧ k ≤ 12 → ∀ buf s,
    (namespaceSystem (2^k) buf).Reachable s →
    ∀ lba data, s.latest lba = some data → s.ReadsBack (2^k) buf lba data := by
  intro h
  have hlen : (List.replicate 513 (1 : UInt8)).length ≤ 4096 := by
    rw [List.length_replicate]
    decide
  have hreach := NamespaceState.oneWrite_reachable (List.replicate 513 1)
  have hlatest := NamespaceState.oneWrite_latest hlen
  have hback := h 9 (by decide) 0x1000 _ hreach 5 _ hlatest
  have hstorage := NamespaceState.Inv.reachable (by decide) hreach 5 _ hlatest
  have hzero := (DmaState.content_eq_ofData_iff hlen hstorage.2).mp
    (NamespaceState.readsBack_iff.mp hback)
  have hone := hzero 1 (by
    rw [List.drop_replicate]
    exact List.mem_replicate.mpr ⟨by decide,rfl⟩)
  exact absurd hone (by decide)

end PolymorphOS
