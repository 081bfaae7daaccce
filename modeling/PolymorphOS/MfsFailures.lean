import PolymorphOS.MfsRuns

/-! Calls that fail half-way: whatever they wrote, it was not a block of the table or of a
listed file. -/
namespace PolymorphOS
namespace Mfs

open Kernel NvmeController

/-- A call that one of its commands or the gate stops returns an error. -/
theorem Call.exec_of_stopped {build : Profile} {c : Call} {d : NvmeController}
    (hg : c.Guarded build (listed d)) (hs : c.Stopped d) :
    ∃ message s, c.exec build (some d) = .error (.err message) s := by
  have hout := exec_outcome hg
  generalize hr : c.exec build (some d) = r at hout
  cases hout with
  | done _ _ _ _ _ hreached => exact absurd hs hreached
  | rejected message d' => exact ⟨message,_,rfl⟩
  | overflow _ hreached => exact absurd hs hreached

/-- The table and the blocks of the listed files are the same on both drives. -/
structure SameFiles (d d' : NvmeController) : Prop where
  table : d'.blocks 0 = d.blocks 0
  files : ∀ e ∈ listed d, ∀ lba : UInt64, e.extent.Covers lba.toNat → d'.blocks lba = d.blocks lba

/-- After any history, and whichever of its commands fail, a call that returns an error has
not changed the files. -/
theorem failure_keeps_files {build : Profile} {d : NvmeController}
    (h : (fittingHistory build).Reachable d) (status : ℕ → UInt16) {c : Call}
    (hg : c.Guarded build (listed d)) {message : String} {s : Option NvmeController}
    (herr : c.exec build (some {d with status}) = .error (.err message) s) :
    ∃ d', s = some d' ∧ SameFiles d d' := by
  obtain ⟨t,_,hr⟩ := history_refines h
  have hout := Call.exec_outcome (d := {d with status}) hg
  rw [herr] at hout
  cases hout with
  | rejected _ d' _ _ hblocks =>
    refine ⟨d',rfl,hblocks 0 (not_span_zero hr.lists.one_le_next c),fun e he lba hcov => ?_⟩
    exact hblocks lba (hr.lists.not_span he hcov c)

/-- The table write of a second save fails, after its data was written. -/
theorem failure_keeps_first_file : ∃ d' d'' message,
    saveFile .dev ['a'] ⟨[42],by decide⟩ (some blankDrive) = .ok () (some d') ∧
    saveFile .dev ['b'] ⟨[43],by decide⟩
        (some {d' with status := fun n => if n < d'.log.length + 2 then 0 else 2}) =
      .error (.err message) (some d'') ∧ SameFiles d' d'' := by
  obtain ⟨d',hrun,hreach,_,hlisted⟩ :=
    save_first .dev ['a'] ⟨[42],by decide⟩ (by decide) ⟨by decide,by decide⟩ (by decide)
  let failing : ℕ → UInt16 := fun n => if n < d'.log.length + 2 then 0 else 2
  have hlast : ¬({d' with status := failing} : NvmeController).Succeeds (d'.log.length + 2) := by
    have h2 : failing (d'.log.length + 2) = 2 := if_neg (lt_irrefl _)
    show ¬failing (d'.log.length + 2) >>> 1 = 0
    rw [h2]
    decide
  have hstopped : (Call.save ['b'] ⟨[43],by decide⟩).Stopped {d' with status := failing} := by
    refine .inr (.inr (.inr ⟨?_,hlast⟩))
    show (Call.save ['b'] _).InRange (listed d')
    rw [hlisted]
    exact ⟨by decide,by decide⟩
  have hguarded : (Call.save ['b'] ⟨[43],by decide⟩).Guarded .dev (listed d') := .inl rfl
  obtain ⟨message,s,herr⟩ := Call.exec_of_stopped (d := {d' with status := failing}) hguarded hstopped
  obtain ⟨d'',rfl,hsame⟩ := failure_keeps_files hreach failing hguarded herr
  exact ⟨d',d'',message,hrun,herr,hsame⟩

end Mfs
end PolymorphOS
