import PolymorphOS.MfsRuns

/-! The table at its capacity: `write_mft` cuts a text that does not fit in block 0 and
reports success. -/
namespace PolymorphOS
namespace Mfs

open Kernel NvmeController

/-- A table that was cut is still a table of extents. -/
theorem Lists.truncated {entries : List FileEntry} {t : ExtentTable (List Char) 1}
    (h : Lists entries t) (hclean : AllClean entries) :
    ∃ t', Lists (parseMft (mftBlock entries)) t' := by
  rcases Nat.lt_or_ge 4097 (tableSize entries) with hlong | hfit
  swap
  · exact ⟨t,by rw [parseMft_mftBlock_of_clean hclean hfit]; exact h⟩
  rcases parseMft_truncated hclean hlong with hnil | ⟨k,hk,tail,hparse,htail⟩
  · exact ⟨.empty,by rw [hnil]; rfl⟩
  have hlen : k < t.extents.length := by rwa [h,List.length_map]
  have htake : (t.take k).extents = (entries.take k).map FileEntry.extent := by
    rw [List.map_take,← h]
    rfl
  cases tail with
  | none =>
    refine ⟨t.take k,?_⟩
    rw [hparse,Option.toList_none,List.append_nil]
    exact htake
  | some e =>
    obtain ⟨hname,hstart,_⟩ := htail e rfl
    refine ⟨t.cut k hlen e.blockCount.toNat,?_⟩
    have hext : t.extents = entries.map FileEntry.extent := h
    have hnext : t.extents[k] = entries[k].extent := by simp only [hext,List.getElem_map]
    rw [hparse,Lists,List.map_append,← htake]
    simp only [ExtentTable.cut,ExtentTable.take,hnext,Option.toList_some,List.map_cons,
      List.map_nil,FileEntry.extent,hname,hstart]

/-- Whatever was cut along a history, the table on the drive is one of extents. -/
theorem history_lists {build : Profile} {d : NvmeController}
    (h : (cleanHistory build).Reachable d) : ∃ t, Lists (listed d) t := by
  refine h.invariant (I := fun d => ∃ t, Lists (listed d) t) ?_ ?_
  · intro d hd
    exact ⟨.empty,by rw [listed_of_zeroed (congrFun hd 0)]; rfl⟩
  · rintro d c d' ⟨t,hl⟩ ⟨hc,hstep⟩
    rcases (history_step hl.one_le_next hc hstep).table with hsame | ⟨entries,htable,hin,hblock⟩
    · exact ⟨t,by rw [listed_congr hsame]; exact hl⟩
    · obtain ⟨t',_,hl'⟩ := hl.step htable hin
      rw [listed,hblock]
      exact hl'.truncated (hc.table_clean htable)

/-- The last entry of a table that was cut is gone, or has another count. -/
theorem last_not_listed {entries : List FileEntry} (hclean : AllClean entries)
    (hn : (names entries).Nodup) (hlong : 4097 < tableSize entries) {last : FileEntry}
    (hlast : entries.getLast? = some last) : last ∉ parseMft (mftBlock entries) := by
  intro hmem
  rcases parseMft_truncated hclean hlong with hnil | ⟨k,hk,tail,hparse,htail⟩
  · rw [hnil] at hmem
    cases hmem
  have hindex : ∀ i, ∀ hi : i < entries.length, entries[i].name = last.name →
      i + 1 = entries.length ∧ entries[i] = last := by
    intro i hi hname
    have hpos : entries.length - 1 < entries.length := by omega
    have hget : entries[entries.length - 1] = last := by
      rw [List.getLast?_eq_getElem?,List.getElem?_eq_getElem hpos] at hlast
      exact Option.some.inj hlast
    have hi' : i < (names entries).length := by rwa [names,List.length_map]
    have hpos' : entries.length - 1 < (names entries).length := by rwa [names,List.length_map]
    have hsame : (names entries)[i] = (names entries)[entries.length - 1] := by
      simp only [names,List.getElem_map,hget,hname]
    have heq : i = entries.length - 1 := hn.getElem_inj_iff.mp hsame
    exact ⟨by omega,by simp only [heq,hget]⟩
  rw [hparse] at hmem
  rcases List.mem_append.mp hmem with hmem | hmem
  · obtain ⟨i,hi,hget⟩ := List.mem_take_iff_getElem.mp hmem
    have := (hindex i (by omega) (by rw [hget])).1
    omega
  · obtain ⟨hname,_,hcount⟩ := htail last (Option.mem_toList.mp hmem)
    obtain ⟨hk',heq⟩ := hindex k hk hname.symm
    exact hcount hk' (by rw [heq])

/-- Every earlier entry is still there, under its new name if it was renamed, and a saved
file is listed. -/
def Kept (entries read : List FileEntry) : Call → Prop
  | .save filename data => (∀ e ∈ entries, e ∈ read) ∧
      (⟨filename,.ofNat (nextOf entries),blocksNeeded data⟩ : FileEntry) ∈ read
  | .delete filename _ => ∀ e ∈ entries, e.name ≠ filename → e ∈ read
  | .rename oldName newName _ => ∀ e ∈ entries, relabel oldName newName e ∈ read

/-- The call fails and leaves block 0 alone, or succeeds and loses no entry. -/
def NoLoss (build : Profile) (d : NvmeController) (c : Call) : Prop :=
  (∃ message d', c.exec build (some d) = .error (.err message) (some d') ∧
    d'.blocks 0 = d.blocks 0) ∨
  ∃ d', c.exec build (some d) = .ok () (some d') ∧ Kept (listed d) (listed d') c

theorem kept_newTable {entries entries' : List FileEntry} {c : Call} (hn : (names entries).Nodup)
    (h : c.newTable entries = some entries') : Kept entries entries' c := by
  have hs := newTable_some hn h
  cases c with
  | save filename data =>
    obtain ⟨_,rfl⟩ := hs
    exact ⟨fun e he => List.mem_append_left _ he,by simp⟩
  | delete filename ctx =>
    obtain ⟨_,rfl⟩ := hs
    exact fun e he hne => List.mem_filter.mpr ⟨he,by simpa using hne⟩
  | rename oldName newName ctx =>
    obtain ⟨_,_,rfl⟩ := hs
    exact fun e he => List.mem_map_of_mem he

/-- A call that enters a name keeps the last entry of the table it writes. -/
theorem last_of_kept {entries entries' read : List FileEntry} {c : Call}
    (hn : (names entries).Nodup) (h : c.newTable entries = some entries')
    (hnew : c.newName.isSome) (hk : Kept entries read c) :
    ∃ last, entries'.getLast? = some last ∧ last ∈ read := by
  have hs := newTable_some hn h
  cases c with
  | save filename data =>
    obtain ⟨_,rfl⟩ := hs
    exact ⟨_,List.getLast?_concat,hk.2⟩
  | delete filename ctx => cases hnew
  | rename oldName newName ctx =>
    obtain ⟨_,hmem,rfl⟩ := hs
    obtain ⟨e,he,_⟩ := List.mem_map.mp hmem
    have hne : entries ≠ [] := List.ne_nil_of_mem he
    rw [List.getLast?_map,List.getLast?_eq_some_getLast hne]
    exact ⟨_,rfl,hk _ (List.getLast_mem hne)⟩

/-- In every state of a history, whatever was lost before: a save or a rename is loss-free
exactly when it is stopped before it writes the table, or the new text has at most one
byte too many. -/
theorem noLoss_iff {build : Profile} {d : NvmeController} (h : (cleanHistory build).Reachable d)
    {c : Call} (hc : c.Admissible build d) (hnew : c.newName.isSome) :
    NoLoss build d c ↔ c.Stopped d ∨ c.InRange (listed d) ∧
      ∀ entries ∈ c.newTable (listed d), tableSize entries ≤ 4097 := by
  obtain ⟨t,hl⟩ := history_lists h
  have hout := Call.exec_outcome hc.guarded
  unfold NoLoss
  generalize c.exec build (some d) = r at hout
  cases hout with
  | rejected message d' hstopped hstatus hblocks =>
    exact iff_of_true (.inl ⟨message,d',rfl,hblocks 0 (not_span_zero hl.one_le_next c)⟩) (.inl hstopped)
  | overflow d' hreached hout =>
    refine iff_of_false ?_ (by rintro (h | h); exacts [hreached h,hout h.1])
    rintro (⟨_,_,he,_⟩ | ⟨_,he,_⟩) <;> cases he
  | done d' entries htable hin hframe hreached hstored =>
    have hclean := hc.table_clean htable
    have hlisted : listed (d'.written 0 (mftBlock entries)) = parseMft (mftBlock entries) := by
      simp [listed]
    constructor
    · rintro (⟨_,_,he,_⟩ | ⟨_,he,hkept⟩)
      · cases he
      · cases he
        refine .inr ⟨hin,fun entries' he => ?_⟩
        rw [htable] at he
        cases he
        by_contra hlong
        obtain ⟨t',_,hl'⟩ := hl.step htable hin
        obtain ⟨last,hlast,hmem⟩ := last_of_kept hl.nodup htable hnew hkept
        rw [hlisted] at hmem
        exact last_not_listed hclean hl'.nodup (by omega) hlast hmem
    · rintro (hs | ⟨_,hfit⟩)
      · exact absurd hs hreached
      · refine .inr ⟨_,rfl,?_⟩
        rw [hlisted,parseMft_mftBlock_of_clean hclean (hfit entries htable)]
        exact kept_newTable hl.nodup htable

theorem noLoss_first_file : NoLoss .dev blankDrive (.save ['a'] ⟨[42],by decide⟩) := by
  refine (noLoss_iff (blankDrive_clean .dev) ⟨fun name hn => by cases hn; decide,.inl rfl⟩ rfl).mpr (.inr ?_)
  rw [listed_blankDrive]
  refine ⟨⟨by decide,by decide⟩,fun entries he => ?_⟩
  cases he
  decide

/-- On an empty drive a save under a name that fills the block succeeds and is not listed. -/
theorem long_name_not_listed (build : Profile) {filename : List Char} (hclean : Clean filename)
    (hlong : 4096 ≤ filename.length) {data : Slice} (hin : (Call.save filename data).InRange []) :
    ∃ d', saveFile build filename data (some blankDrive) = .ok () (some d') ∧
      (⟨filename,1,blocksNeeded data⟩ : FileEntry) ∉ listed d' := by
  rw [← listed_blankDrive] at hin
  obtain ⟨d',hrun,_,hblock⟩ := save_succeeds build blankDrive_healthy
    (by rw [listed_blankDrive]; exact List.not_mem_nil) hin
  have hfirst : UInt64.ofNat (nextOf []) = 1 := rfl
  rw [listed_blankDrive,List.nil_append,hfirst] at hblock
  refine ⟨d',hrun,?_⟩
  rw [listed,hblock]
  have hsize : filename.length + 7 ≤ tableSize [⟨filename,1,blocksNeeded data⟩] := by
    refine le_trans ?_ (Utf8.encode_length_ge _)
    have hmagic : magicText.length = 6 := rfl
    simp only [tableText,formatEntry,List.flatMap_cons,List.flatMap_nil,List.length_append,
      List.length_cons,hmagic]
    omega
  exact last_not_listed (by simpa [AllClean] using hclean) (by simp [names]) (by omega) rfl

/-- A file under a name of 4096 characters: `save_file` reports success, and the table
does not list it. -/
theorem long_name_lost :
    (cleanHistory .dev).Reachable blankDrive ∧ Clean (List.replicate 4096 'a') ∧
    ∃ d', saveFile .dev (List.replicate 4096 'a') ⟨[42],by decide⟩ (some blankDrive) =
      .ok () (some d') ∧ (⟨List.replicate 4096 'a',1,1⟩ : FileEntry) ∉ listed d' := by
  have hclean : Clean (List.replicate 4096 'a') := by
    constructor <;> rw [List.mem_replicate] <;> decide
  exact ⟨blankDrive_clean .dev,hclean,
    long_name_not_listed .dev hclean List.length_replicate.ge ⟨by decide,by decide⟩⟩

end Mfs
end PolymorphOS
