import PolymorphOS.MfsRuns

/-! The table along a history: distinct names, extents in order, and calls that change
one entry and write where no listed file lies. -/
namespace PolymorphOS
namespace Mfs

open Kernel NvmeController

/-- The call wrote block 0 last, and before that only blocks of `W`. -/
def TableLast (W : UInt64 → Prop) (d d' : NvmeController) : Prop :=
  ∃ cmds block, d'.log = d.log ++ cmds ++ [.write 0 block] ∧
    ∀ lba b, IoCmd.write lba b ∈ cmds → W lba

theorem tableLast_of_frame {W : UInt64 → Prop} {d d' : NvmeController} (h : Frame W d d')
    (block : Block) : TableLast W d (d'.written 0 block) := by
  obtain ⟨cmds,hlog,hw⟩ := h.log
  exact ⟨cmds,block,by rw [written_log,hlog],hw⟩

/-- The blocks no listed file and no table occupies. -/
def Unlisted (entries : List FileEntry) (lba : UInt64) : Prop :=
  lba ≠ 0 ∧ ∀ e ∈ entries, ¬e.extent.Covers lba.toNat

theorem unlisted_of_span {entries : List FileEntry} {t : ExtentTable (List Char) 1}
    (h : Lists entries t) {c : Call} {lba : UInt64} (hs : c.Span entries lba) :
    Unlisted entries lba :=
  ⟨fun h0 => not_span_zero h.one_le_next c (h0 ▸ hs),fun _ he hcov => h.not_span he hcov c hs⟩

/-- How a successful call changed the table and what it wrote. -/
def Effect (d d' : NvmeController) : Call → Prop
  | .save filename data =>
    listed d' = listed d ++ [⟨filename,.ofNat (nextOf (listed d)),blocksNeeded data⟩] ∧
    TableLast (Unlisted (listed d)) d d'
  | .delete filename _ => filename ∈ names (listed d) ∧
    listed d' = (listed d).filter (fun e => e.name ≠ filename) ∧ TableLast (fun _ => False) d d'
  | .rename oldName newName _ => oldName ∈ names (listed d) ∧ newName ∉ names (listed d) ∧
    listed d' = (listed d).map (relabel oldName newName) ∧ TableLast (fun _ => False) d d'

theorem exec_effect {build : Profile} {d : NvmeController} {t : ExtentTable (List Char) 1}
    (h : Lists (listed d) t) {c : Call} (hc : c.Admissible build d) (hfit : c.Fits d)
    {s : Option NvmeController} (hs : c.exec build (some d) = .ok () s) :
    ∃ d', s = some d' ∧ Effect d d' c := by
  have hout := Call.exec_outcome hc.guarded
  rw [hs] at hout
  cases hout with
  | done d' entries htable hin hframe hreached hstored =>
    have hlisted : listed (d'.written 0 (mftBlock entries)) = entries :=
      (hc.written hfit htable (by simp)).1
    have hlast := tableLast_of_frame hframe (mftBlock entries)
    have hnew := newTable_some h.nodup htable
    refine ⟨_,rfl,?_⟩
    cases c with
    | save filename data =>
      refine ⟨hlisted.trans hnew.2,?_⟩
      exact tableLast_of_frame (hframe.mono fun lba hl => unlisted_of_span h hl) _
    | delete filename ctx => exact ⟨hnew.1,hlisted.trans hnew.2,hlast⟩
    | rename oldName newName ctx => exact ⟨hnew.2.1,hnew.1,hlisted.trans hnew.2.2,hlast⟩

/-- Extents in increasing order, from LBA 1 on, under distinct names. -/
structure Ordered (entries : List FileEntry) : Prop where
  names_nodup : (names entries).Nodup
  one_le : ∀ e ∈ entries, 1 ≤ e.startLba.toNat
  ordered : entries.Pairwise fun a b => a.startLba.toNat + a.blockCount.toNat ≤ b.startLba.toNat

theorem Lists.toOrdered {entries : List FileEntry} {t : ExtentTable (List Char) 1}
    (h : Lists entries t) : Ordered entries where
  names_nodup := h.nodup
  one_le _ he := h.one_le_start he
  ordered := by
    have ho := t.ordered
    rw [h,List.pairwise_map] at ho
    exact ho

/-- In every state of a history the table is in order, and every call that succeeds there
has its effect and no other. -/
theorem history_table {build : Profile} {d : NvmeController}
    (h : (fittingHistory build).Reachable d) :
    (∀ entries s, readMft (some d) = .ok entries s → Ordered entries) ∧
    ∀ c s, c.Admissible build d → c.Fits d → c.exec build (some d) = .ok () s →
      ∃ d', s = some d' ∧ Effect d d' c := by
  obtain ⟨t,_,hr⟩ := history_refines h
  refine ⟨fun entries s hread => ?_,fun c s hc hfit hs => exec_effect hr.lists hc hfit hs⟩
  obtain ⟨_,heq,rfl⟩ := readMft_result hread
  cases heq
  exact hr.lists.toOrdered

theorem history_table_first_file : ∃ d', ∃ s,
    saveFile .dev ['a'] ⟨[42],by decide⟩ (some blankDrive) = .ok () (some d') ∧
    Effect blankDrive d' (.save ['a'] ⟨[42],by decide⟩) ∧
    readMft (some d') = .ok [⟨['a'],1,1⟩] s ∧ Ordered [⟨['a'],1,1⟩] := by
  obtain ⟨d',hrun,hreach,hd',hlisted⟩ :=
    save_first .dev ['a'] ⟨[42],by decide⟩ (by decide) ⟨by decide,by decide⟩ (by decide)
  obtain ⟨_,heq,heffect⟩ := (history_table (blankDrive_reachable .dev)).2
    (.save ['a'] ⟨[42],by decide⟩) _ ⟨fun name hn => by cases hn; decide,.inl rfl⟩
    (fun entries he => by rw [listed_blankDrive] at he; cases he; decide) hrun
  cases heq
  have hread := readMft_ok (hd' d'.log.length)
  rw [hlisted] at hread
  exact ⟨d',_,hrun,heffect,hread,(history_table hreach).1 _ _ hread⟩

end Mfs
end PolymorphOS
