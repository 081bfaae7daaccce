import PolymorphOS.MfsRuns

/-! Reading the table back after it was written. -/
namespace PolymorphOS
namespace Mfs

open Kernel NvmeController

/-- `read_mft` after `write_mft` undoes it exactly when no name holds a delimiter. -/
theorem write_read {entries read : List FileEntry} (hfit : tableSize entries ≤ 4096)
    {s s₁ s₂ : Option NvmeController} (hw : writeMft entries s = .ok () s₁)
    (hr : readMft s₁ = .ok read s₂) : read = entries ↔ AllClean entries := by
  obtain ⟨d,rfl⟩ := writeMft_result hw
  obtain ⟨_,heq,rfl⟩ := readMft_result hr
  cases heq
  have hblock : (d.written 0 (mftBlock entries)).blocks 0 = mftBlock entries := by simp
  rw [listed,hblock]
  exact parseMft_mftBlock hfit

theorem write_read_two_files : ∃ s₁ s₂,
    writeMft [⟨['a'],1,2⟩,⟨['b'],3,0⟩] (some blankDrive) = .ok () s₁ ∧
    readMft s₁ = .ok [⟨['a'],1,2⟩,⟨['b'],3,0⟩] s₂ := by
  have hw := writeMft_ok [⟨['a'],1,2⟩,⟨['b'],3,0⟩] (blankDrive_healthy _)
  have hr := readMft_ok
    (blankDrive_healthy.written 0 (mftBlock [⟨['a'],1,2⟩,⟨['b'],3,0⟩]) _)
  have hread := (write_read (by decide) hw hr).mpr (by unfold AllClean; decide)
  rw [hread] at hr
  exact ⟨_,_,hw,hr⟩

/-- A file saved as `a:7:9` is listed as a file `a` of nine blocks. -/
theorem colon_forges_entry : ∃ s₁ s₂,
    (Call.save "a:7:9".toList ⟨[42],by decide⟩).newTable (listed blankDrive) =
      some [⟨"a:7:9".toList,1,1⟩] ∧
    tableSize [⟨"a:7:9".toList,1,1⟩] ≤ 4096 ∧
    writeMft [⟨"a:7:9".toList,1,1⟩] (some blankDrive) = .ok () s₁ ∧
    readMft s₁ = .ok [⟨['a'],7,9⟩] s₂ ∧
    ([⟨['a'],7,9⟩] : List FileEntry) ≠ [⟨"a:7:9".toList,1,1⟩] := by
  have hw := writeMft_ok [⟨"a:7:9".toList,1,1⟩] (blankDrive_healthy _)
  have hr := readMft_ok (blankDrive_healthy.written 0 (mftBlock [⟨"a:7:9".toList,1,1⟩]) _)
  have hfit : tableSize [⟨"a:7:9".toList,1,1⟩] ≤ 4096 := by decide
  have htext : mftText (mftBlock [⟨"a:7:9".toList,1,1⟩]) = tableText [⟨"a:7:9".toList,1,1⟩] :=
    mftText_mftBlock (by decide) hfit
  have hblock : (blankDrive.written 0 (mftBlock [⟨"a:7:9".toList,1,1⟩])).blocks 0 =
    mftBlock [⟨"a:7:9".toList,1,1⟩] := by simp
  have hlisted : listed (blankDrive.written 0 (mftBlock [⟨"a:7:9".toList,1,1⟩])) = [⟨['a'],7,9⟩] := by
    rw [listed,hblock]
    simp only [parseMft,htext]
    decide
  rw [hlisted] at hr
  refine ⟨_,_,?_,hfit,hw,hr,by decide⟩
  rw [listed_blankDrive]
  decide

end Mfs
end PolymorphOS
