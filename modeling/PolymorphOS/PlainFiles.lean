import PolymorphOS.MfsContents

/-! Files without a header: what saving them leaves on the drive, and why the gate refuses every
block of theirs. -/
namespace PolymorphOS

namespace Mfs

open Kernel NvmeController

/-- A policy of zeros is refused: it is empty, or its first instruction is illegal. -/
theorem executeMictCheck_zeros (n : ℕ) (ctx : MdoContext) :
    MdoVm.executeMictCheck (List.replicate n 0) ctx ≠ .ok () := by
  rw [MdoVm.executeMictCheck]
  cases n with
  | zero =>
    rw [MdoVm.run,dif_neg (by rw [List.length_replicate]; omega)]
    exact fun h => by cases h
  | succ n =>
    have hlen : 0 < (List.replicate (n + 1) (0 : UInt8)).length := by
      rw [List.length_replicate]
      omega
    have hstep : MdoVm.step (List.replicate (n + 1) 0) ctx MdoVm.MictStack.new 0 hlen =
        .halt (.error 0xFC) := rfl
    rw [MdoVm.run_halt hstep]
    exact fun h => by cases h

/-- A block of text is no MDO: its bytecode is too long, or the zeros behind the text. -/
theorem denied_ofData {bytes : List UInt8} (hlen : bytes.length ≤ 4096) (hzero : 0 ∉ bytes)
    (ctx : MdoContext) : Denied (.ofData bytes) ctx := by
  have hblock := Block.ofData_bytes hlen
  rcases Nat.lt_or_ge bytes.length 80 with hshort | hlong
  · -- everything from byte 128 on is padding
    have hdrop : (Block.ofData bytes).1.drop 128 = List.replicate 3968 0 := by
      rw [hblock,List.drop_append,List.drop_eq_nil_of_le (by omega),List.nil_append,
        List.drop_replicate]
      congr 1
      omega
    refine .inr (.inr ?_)
    rw [bytecodeOf,bytesAt,hdrop,List.take_replicate]
    exact executeMictCheck_zeros _ ctx
  · -- the top byte of the length is part of the text
    have htake : bytesAt (.ofData bytes) 76 80 = (bytes.drop 76).take 4 := by
      rw [bytesAt,hblock,List.drop_append_of_le_length (by omega),
        List.take_append_of_le_length (by rw [List.length_drop]; omega)]
    obtain ⟨a,b,c,e,heq⟩ : ∃ a b c e, (bytes.drop 76).take 4 = [a,b,c,e] :=
      List.length_eq_four.mp (by rw [List.length_take,List.length_drop]; omega)
    have hlast : e ∈ (bytes.drop 76).take 4 := by
      rw [heq]
      simp
    have hmem : e ∈ bytes := List.mem_of_mem_drop (List.mem_of_mem_take hlast)
    have hpos : 0 < e.toNat := by
      refine Nat.pos_of_ne_zero fun hz => hzero ?_
      rwa [← (UInt8.toNat_inj.mp hz : e = 0)]
    refine .inr (.inl ?_)
    rw [bytecodeLen,htake,heq]
    simp only [fromLeBytes,List.foldr_cons,List.foldr_nil]
    omega

theorem denied_mftBlock (entries : List FileEntry) (ctx : MdoContext) :
    Denied (mftBlock entries) ctx := by
  have hmagic : Utf8.encode magicText = [77,70,83,95,86,49] := by decide
  obtain ⟨rest,hrest⟩ : ∃ rest, (mftBlock entries).1 = 77::70::rest := by
    rw [mftBlock,Block.ofData_bytes (List.length_take_le _ _),tableText,Utf8.encode_append,hmagic]
    exact ⟨_,rfl⟩
  refine .inl ?_
  rw [bytesAt,hrest]
  exact fun h => by cases h

/-- The drive with the blocks `i`, …, `i + n - 1` of a file written to it. -/
def filled (d : NvmeController) (start : UInt64) (data : Slice) (i n : ℕ) : NvmeController where
  blocks lba :=
    let j := (lba - start).toNat
    if i ≤ j ∧ j < i + n then .ofData (chunk data j) else d.blocks lba
  status := d.status
  log := d.log ++ (List.range' i n).map fun j => .write (start + .ofNat j) (.ofData (chunk data j))

/-- The drive once a file was saved. -/
def saved (d : NvmeController) (filename : List Char) (start : UInt64) (data : Slice) :
    NvmeController :=
  (filled (d.issued (.read 0)) start data 0 (blocksNeeded data).toNat).written 0
    (mftBlock (listed d ++ [⟨filename,start,blocksNeeded data⟩]))

variable {build : Profile} {d : NvmeController} {start : UInt64} {data : Slice} {i n : ℕ}

theorem toNat_sub_iff {lba : UInt64} (h : i < 2^64) :
    (lba - start).toNat = i ↔ lba = start + .ofNat i := by
  rw [← toNat_ofNat h,UInt64.toNat_inj,UInt64.sub_eq_iff_eq_add,UInt64.add_comm,toNat_ofNat h]

theorem filled_succ (h : i + (n + 1) ≤ 2^64) :
    filled (d.written (start + .ofNat i) (.ofData (chunk data i))) start data (i + 1) n =
      filled d start data i (n + 1) := by
  have hblocks : (filled (d.written (start + .ofNat i) (.ofData (chunk data i))) start data (i + 1)
      n).blocks = (filled d start data i (n + 1)).blocks := by
    funext lba
    have hat : (lba - start).toNat = i ↔ lba = start + .ofNat i := toNat_sub_iff (by omega)
    simp only [filled,written_blocks]
    by_cases hi : lba = start + .ofNat i
    · have hj := hat.mpr hi
      rw [if_neg (by omega),if_pos (by omega),hi,Function.update_self,← hi,hj]
    · have hj := mt hat.mp hi
      rw [Function.update_of_ne hi]
      exact if_congr (by omega) rfl rfl
  have hlog : (filled (d.written (start + .ofNat i) (.ofData (chunk data i))) start data (i + 1)
      n).log = (filled d start data i (n + 1)).log := by
    simp only [filled,written_log]
    rw [List.append_assoc,List.range'_succ,List.map_cons]
    rfl
  simp only [filled] at hblocks hlog ⊢
  rw [hblocks,hlog]
  rfl

theorem filled_zero : filled d start data i 0 = d := by
  have hblocks : (filled d start data i 0).blocks = d.blocks := by
    funext lba
    exact if_neg (by omega)
  have hlog : (filled d start data i 0).log = d.log := List.append_nil _
  simp only [filled] at hblocks hlog ⊢
  rw [hblocks,hlog]

theorem writeBlocks_filled (h : i + n ≤ 2^64) {s : Option NvmeController}
    (hrun : writeBlocks build start data i n (some d) = .ok () s) :
    s = some (filled d start data i n) := by
  induction n generalizing i d with
  | zero =>
    cases hrun
    rw [filled_zero]
  | succ n ih =>
    obtain ⟨lba,_,hlba,hrun⟩ := bind_ok_iff.mp hrun
    obtain ⟨hadd,rfl⟩ := ofPanic_iff.mp hlba
    obtain ⟨_,rfl⟩ := addU64_iff.mp hadd
    obtain ⟨_,_,hwrite,hrun⟩ := bind_ok_iff.mp hrun
    obtain ⟨_,rfl⟩ := (nvme_write_iff (length_chunk data i)).mp hwrite
    rw [ih (by omega) hrun,filled_succ h]

/-- What a save that reports success did. -/
theorem saveFile_saved {filename : List Char} {s s' : Option NvmeController}
    (h : saveFile build filename data s = .ok () s') : ∃ d start, s = some d ∧
      nextLba build (listed d) = .ok start ∧ s' = some (saved d filename start data) := by
  cases s with
  | none => cases h
  | some d =>
    obtain ⟨entries,_,hread,h⟩ := bind_ok_iff.mp h
    obtain ⟨_,rfl,rfl⟩ := readMft_iff.mp hread
    split at h
    · cases h
    obtain ⟨start,_,hstart,h⟩ := bind_ok_iff.mp h
    obtain ⟨hnext,rfl⟩ := ofPanic_iff.mp hstart
    rw [bind_ok (nvmeLock_some _)] at h
    obtain ⟨_,_,hwrite,h⟩ := bind_ok_iff.mp h
    have hcount := blocksNeeded_lt data
    rw [writeBlocks_filled (by omega) hwrite] at h
    exact ⟨d,start,rfl,hnext,(writeMft_iff.mp h).2⟩

variable {filename : List Char} {lba : UInt64}

theorem saved_blocks_zero : (saved d filename start data).blocks 0 =
    mftBlock (listed d ++ [⟨filename,start,blocksNeeded data⟩]) := by
  rw [saved,written_blocks,Function.update_self]

theorem saved_blocks_chunk (hlba : lba ≠ 0) (h : (lba - start).toNat < (blocksNeeded data).toNat) :
    (saved d filename start data).blocks lba = .ofData (chunk data (lba - start).toNat) := by
  rw [saved,written_blocks,Function.update_of_ne hlba]
  exact if_pos ⟨Nat.zero_le _,by omega⟩

theorem saved_blocks_other (hlba : lba ≠ 0) (h : (blocksNeeded data).toNat ≤ (lba - start).toNat) :
    (saved d filename start data).blocks lba = d.blocks lba := by
  rw [saved,written_blocks,Function.update_of_ne hlba]
  exact if_neg (by omega)

/-- No block that saving text has written gets past the gate. -/
theorem unwritten_of_gate (hzero : 0 ∉ data.bytes) {ctx : MdoContext} {offset : ℕ}
    (hgate : gate ((saved d filename start data).blocks lba) ctx = .ok offset) :
    lba ≠ 0 ∧ (blocksNeeded data).toNat ≤ (lba - start).toNat := by
  have hgranted : ¬Denied ((saved d filename start data).blocks lba) ctx := fun hdenied =>
    denied_iff.mp hdenied _ hgate
  have hlba : lba ≠ 0 := by
    rintro rfl
    rw [saved_blocks_zero] at hgranted
    exact hgranted (denied_mftBlock _ ctx)
  refine ⟨hlba,le_of_not_gt fun hlt => ?_⟩
  rw [saved_blocks_chunk hlba hlt] at hgranted
  exact hgranted (denied_ofData (length_chunk data _)
    (fun h => hzero (List.mem_of_mem_drop (List.mem_of_mem_take h))) ctx)

end Mfs
end PolymorphOS
