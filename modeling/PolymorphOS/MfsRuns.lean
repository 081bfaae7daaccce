import PolymorphOS.ExtentTable
import PolymorphOS.MfsCalls

/-! Histories of the file system: calls that save, delete and rename files, in any order
and on a drive that may fail, starting from zeroed blocks. Along those whose table keeps
to its block, the drive refines a table of extents. -/
namespace PolymorphOS
def FileEntry.extent (e : FileEntry) : Extent (List Char) :=
  ⟨e.name,e.startLba.toNat,e.blockCount.toNat⟩

namespace Mfs

open Kernel NvmeController

/-- Calls one after another; one that panics ends the history. -/
def history (build : Profile) : Runs.System NvmeController Call where
  init d := d.blocks = fun _ => .zero
  step d c d' := c.exec build (some d) = .ok () (some d') ∨
    ∃ message, c.exec build (some d) = .error (.err message) (some d')

namespace Call

/-- Clean names, and LBAs that no release build would wrap around. -/
structure Admissible (build : Profile) (d : NvmeController) (c : Call) : Prop where
  clean : ∀ name ∈ c.newName, Clean name
  guarded : c.Guarded build (listed d)

/-- The table the call would write fits in its block. -/
def Fits (d : NvmeController) (c : Call) : Prop :=
  ∀ entries ∈ c.newTable (listed d), tableSize entries ≤ 4096

end Call

def cleanHistory (build : Profile) : Runs.System NvmeController Call :=
  (history build).guard fun d c => c.Admissible build d

def fittingHistory (build : Profile) : Runs.System NvmeController Call :=
  (history build).guard fun d c => c.Admissible build d ∧ c.Fits d

/-- Where the keys are distinct, the first one does not come again. -/
theorem ne_head_of_nodup {A B : Type*} {f : A → B} {a : A} {l : List A}
    (h : ((a::l).map f).Nodup) : ∀ b ∈ l, f b ≠ f a := by
  rw [List.map_cons,List.nodup_cons] at h
  exact fun b hb he => h.1 (he ▸ List.mem_map_of_mem hb)

theorem eraseIdx_eq_filter {A B : Type*} [DecidableEq B] {f : A → B} {l : List A}
    (h : (l.map f).Nodup) (i : Fin l.length) :
    l.eraseIdx i = l.filter fun a => f a ≠ f (l.get i) := by
  induction l with
  | nil => exact i.elim0
  | cons a l ih =>
    have hne := ne_head_of_nodup h
    rw [List.map_cons,List.nodup_cons] at h
    refine i.cases ?_ fun i => ?_
    · change l = (a::l).filter fun b => f b ≠ f a
      rw [List.filter_cons_of_neg (by simp)]
      exact (List.filter_eq_self.mpr fun b hb => by simpa using hne b hb).symm
    · have hhead : f a ≠ f (l.get i) := (hne _ (List.getElem_mem i.2)).symm
      change a::l.eraseIdx i = (a::l).filter fun b => f b ≠ f (l.get i)
      rw [List.filter_cons_of_pos (by simpa using hhead),ih h.2 i]

theorem set_eq_map {A B : Type*} [DecidableEq B] {f : A → B} {l : List A} (g : A → A)
    (h : (l.map f).Nodup) (i : Fin l.length) :
    l.set i (g (l.get i)) = l.map fun a => if f a = f (l.get i) then g a else a := by
  induction l with
  | nil => exact i.elim0
  | cons a l ih =>
    have hne := ne_head_of_nodup h
    rw [List.map_cons,List.nodup_cons] at h
    refine i.cases ?_ fun i => ?_
    · have hmap : l.map (fun b => if f b = f a then g b else b) = l := by
        rw [List.map_congr_left fun b hb => if_neg (hne b hb),List.map_id']
      change g a::l = (if f a = f a then g a else a)::l.map fun b => if f b = f a then g b else b
      rw [if_pos rfl,hmap]
    · have hhead : f a ≠ f (l.get i) := (hne _ (List.getElem_mem i.2)).symm
      change a::l.set i (g (l.get i)) =
        (if f a = f (l.get i) then g a else a)::l.map fun b => if f b = f (l.get i) then g b else b
      rw [if_neg hhead,ih h.2 i]

def names (entries : List FileEntry) : List (List Char) := entries.map FileEntry.name

theorem any_name_iff {entries : List FileEntry} {name : List Char} :
    entries.any (·.name == name) = true ↔ name ∈ names entries := by
  simp [names,List.any_eq_true]

def relabel (oldName newName : List Char) (e : FileEntry) : FileEntry :=
  if e.name = oldName then {e with name := newName} else e

/-- With no name twice, position no longer matters. -/
theorem newTable_some {entries entries' : List FileEntry} {c : Call} (hn : (names entries).Nodup)
    (h : c.newTable entries = some entries') : match c with
      | .save filename data => filename ∉ names entries ∧
          entries' = entries ++ [⟨filename,.ofNat (nextOf entries),blocksNeeded data⟩]
      | .delete filename _ => filename ∈ names entries ∧
          entries' = entries.filter fun e => e.name ≠ filename
      | .rename oldName newName _ => newName ∉ names entries ∧ oldName ∈ names entries ∧
          entries' = entries.map (relabel oldName newName) := by
  have hpos : ∀ {name : List Char} {pos : Fin entries.length},
      entries.findFinIdx? (·.name == name) = some pos → (entries.get pos).name = name := fun hp => by
    simpa using (List.findFinIdx?_eq_some_iff.mp hp).1
  cases c with
  | save filename data =>
    simp only [Call.newTable,any_name_iff] at h
    split_ifs at h with hmem
    exact ⟨hmem,(Option.some.inj h).symm⟩
  | delete filename ctx =>
    obtain ⟨pos,hp,rfl⟩ := Option.map_eq_some_iff.mp h
    have hname := hpos hp
    refine ⟨hname ▸ List.mem_map_of_mem (List.getElem_mem _),?_⟩
    rw [eraseIdx_eq_filter hn pos,hname]
  | rename oldName newName ctx =>
    simp only [Call.newTable,any_name_iff] at h
    split_ifs at h with hmem
    obtain ⟨pos,hp,rfl⟩ := Option.map_eq_some_iff.mp h
    have hname := hpos hp
    refine ⟨hmem,hname ▸ List.mem_map_of_mem (List.getElem_mem _),?_⟩
    have hset := set_eq_map (fun e : FileEntry => {e with name := newName}) hn pos
    rw [hname] at hset
    exact hset

/-- The call as the table of extents sees it. -/
def Call.op : Call → ExtentTable.Op (List Char)
  | .save filename data => .append filename (blocksNeeded data).toNat
  | .delete filename _ => .erase filename
  | .rename oldName newName _ => .rename oldName newName

/-- The entries list the extents of the table. -/
def Lists (entries : List FileEntry) (t : ExtentTable (List Char) 1) : Prop :=
  t.extents = entries.map FileEntry.extent

namespace Lists

variable {entries : List FileEntry} {t : ExtentTable (List Char) 1}

theorem names_eq (h : Lists entries t) : t.names = names entries := by
  rw [ExtentTable.names,h,List.map_map]
  rfl

theorem nodup (h : Lists entries t) : (names entries).Nodup := by
  rw [← h.names_eq]
  exact t.names_nodup

theorem next_eq (h : Lists entries t) : t.next = nextOf entries := by
  rw [ExtentTable.next,h,List.getLast?_map,nextOf]
  cases entries.getLast? <;> rfl

theorem one_le_next (h : Lists entries t) : 1 ≤ nextOf entries := by
  rw [← h.next_eq]
  exact t.base_le_next

theorem mem (h : Lists entries t) {e : FileEntry} (he : e ∈ entries) : e.extent ∈ t.extents := by
  rw [h]
  exact List.mem_map_of_mem he

theorem one_le_start (h : Lists entries t) {e : FileEntry} (he : e ∈ entries) :
    1 ≤ e.startLba.toNat := t.base_le _ (h.mem he)

theorem stop_le_next (h : Lists entries t) {e : FileEntry} (he : e ∈ entries) :
    e.extent.stop ≤ nextOf entries := by
  rw [← h.next_eq]
  exact t.stop_le_next (h.mem he)

/-- No call writes data into a listed file. -/
theorem not_span (h : Lists entries t) {e : FileEntry} (he : e ∈ entries) {lba : UInt64}
    (hcov : e.extent.Covers lba.toNat) (c : Call) : ¬c.Span entries lba := by
  intro hs
  have hstop := h.stop_le_next he
  cases c with
  | save filename data =>
    have hlo : nextOf entries ≤ lba.toNat := hs.1
    have hhi : lba.toNat < e.extent.stop := hcov.2
    omega
  | delete filename ctx => exact hs
  | rename oldName newName ctx => exact hs

/-- A call that changes the listed table takes a step of the table of extents. -/
theorem step (h : Lists entries t) {c : Call} {entries' : List FileEntry}
    (hc : c.newTable entries = some entries') (hin : c.InRange entries) :
    ∃ t', (ExtentTable.system _ 1).step t c.op t' ∧ Lists entries' t' := by
  have hs := newTable_some h.nodup hc
  cases c with
  | save filename data =>
    obtain ⟨hfresh,rfl⟩ := hs
    rw [← h.names_eq] at hfresh
    refine ⟨t.append filename _ hfresh,⟨hfresh,rfl⟩,?_⟩
    have hnext : (UInt64.ofNat (nextOf entries)).toNat = nextOf entries :=
      UInt64.toNat_ofNat_of_lt' hin.1
    rw [Lists,List.map_append,← h]
    simp only [ExtentTable.append,h.next_eq,List.map_cons,List.map_nil,FileEntry.extent,hnext]
  | delete filename ctx =>
    obtain ⟨hmem,rfl⟩ := hs
    rw [← h.names_eq] at hmem
    refine ⟨t.erase filename,⟨hmem,rfl⟩,?_⟩
    rw [Lists,ExtentTable.erase]
    simp only
    rw [h,List.filter_map]
    rfl
  | rename oldName newName ctx =>
    obtain ⟨hfresh,hmem,rfl⟩ := hs
    rw [← h.names_eq] at hfresh hmem
    refine ⟨t.rename oldName newName hfresh,⟨hmem,hfresh,rfl⟩,?_⟩
    rw [Lists,ExtentTable.rename]
    simp only
    rw [h,List.map_map,List.map_map]
    refine List.map_congr_left fun e _ => ?_
    by_cases he : e.name = oldName <;> simp [ExtentTable.relabel,relabel,FileEntry.extent,he]

end Lists

theorem mftText_zero : mftText .zero = [] := by
  rw [Block.zero_eq,← Utf8.encode_nil,mftText_ofData List.not_mem_nil (Nat.zero_le _)]

theorem parseMft_zero : parseMft .zero = [] := by
  simp only [parseMft,mftText_zero]
  rfl

theorem newTable_clean {entries entries' : List FileEntry} {c : Call} (h : AllClean entries)
    (hc : ∀ name ∈ c.newName, Clean name) (ht : c.newTable entries = some entries') :
    AllClean entries' := by
  cases c with
  | save filename data =>
    simp only [Call.newTable] at ht
    split_ifs at ht
    cases ht
    intro e he
    rcases List.mem_append.mp he with he | he
    · exact h e he
    · rw [List.mem_singleton.mp he]
      exact hc _ rfl
  | delete filename ctx =>
    obtain ⟨pos,_,rfl⟩ := Option.map_eq_some_iff.mp ht
    exact fun e he => h e (List.mem_of_mem_eraseIdx he)
  | rename oldName newName ctx =>
    simp only [Call.newTable] at ht
    split_ifs at ht
    obtain ⟨pos,_,rfl⟩ := Option.map_eq_some_iff.mp ht
    intro e he
    rcases List.mem_or_eq_of_mem_set he with he | rfl
    · exact h e he
    · exact hc _ rfl

theorem Call.Admissible.table_clean {build : Profile} {d : NvmeController} {c : Call}
    (hc : c.Admissible build d) {entries : List FileEntry}
    (ht : c.newTable (listed d) = some entries) : AllClean entries :=
  newTable_clean (listed_clean d) hc.clean ht

theorem listed_of_zeroed {d : NvmeController} (h : d.blocks 0 = .zero) : listed d = [] := by
  rw [listed,h,parseMft_zero]

theorem not_span_zero {entries : List FileEntry} (h : 1 ≤ nextOf entries) (c : Call) :
    ¬c.Span entries 0 := by
  cases c with
  | save filename data => exact fun hw => absurd (h.trans hw.1) (by decide)
  | delete filename ctx => exact id
  | rename oldName newName ctx => exact id

/-- A call of a history leaves the table alone or writes the new one, and touches no other
block outside its span. -/
structure Stepped (d : NvmeController) (c : Call) (d' : NvmeController) : Prop where
  status : d'.status = d.status
  blocks : ∀ lba, lba ≠ 0 → ¬c.Span (listed d) lba → d'.blocks lba = d.blocks lba
  table : d'.blocks 0 = d.blocks 0 ∨ ∃ entries, c.newTable (listed d) = some entries ∧
    c.InRange (listed d) ∧ d'.blocks 0 = mftBlock entries

theorem Stepped.healthy {d d' : NvmeController} {c : Call} (h : Stepped d c d') (hd : d.Healthy) :
    d'.Healthy := hd.of_status h.status

theorem history_step {build : Profile} {d d' : NvmeController} {c : Call}
    (hnext : 1 ≤ nextOf (listed d)) (hc : c.Admissible build d) (h : (history build).step d c d') :
    Stepped d c d' := by
  have hout := Call.exec_outcome hc.guarded
  rcases h with h | ⟨message,h⟩
  · rw [h] at hout
    cases hout with
    | done d₁ entries htable hin hframe hreached hstored =>
      refine ⟨hframe.status,fun lba h0 hs => ?_,.inr ⟨entries,htable,hin,by simp⟩⟩
      rw [written_blocks,Function.update_of_ne h0]
      exact hframe.blocks lba hs
  · rw [h] at hout
    cases hout with
    | rejected _ _ hstopped hstatus hblocks =>
      exact ⟨hstatus,fun lba _ hs => hblocks lba hs,.inl (hblocks 0 (not_span_zero hnext c))⟩

/-- Block 0 is zeroed, or holds all of the table. -/
def Intact (d : NvmeController) : Prop :=
  d.blocks 0 = .zero ∨ d.blocks 0 = mftBlock (listed d) ∧ tableSize (listed d) ≤ 4096

theorem intact_written {entries : List FileEntry} {d : NvmeController} (hclean : AllClean entries)
    (hfit : tableSize entries ≤ 4096) (h : d.blocks 0 = mftBlock entries) :
    listed d = entries ∧ Intact d := by
  have hl : listed d = entries := by rw [listed,h,(parseMft_mftBlock hfit).mpr hclean]
  exact ⟨hl,.inr ⟨hl.symm ▸ h,hl.symm ▸ hfit⟩⟩

theorem Call.Admissible.written {build : Profile} {d d' : NvmeController} {c : Call}
    (hc : c.Admissible build d) (hfit : c.Fits d) {entries : List FileEntry}
    (ht : c.newTable (listed d) = some entries) (h : d'.blocks 0 = mftBlock entries) :
    listed d' = entries ∧ Intact d' :=
  intact_written (hc.table_clean ht) (hfit entries ht) h

/-- The drive holds the table of extents, each of them on LBAs and of a size that a file
can have. -/
structure Represents (d : NvmeController) (t : ExtentTable (List Char) 1) : Prop where
  lists : Lists (listed d) t
  intact : Intact d
  stop_le : ∀ e ∈ listed d, e.extent.stop ≤ 2^64
  count_lt : ∀ e ∈ listed d, e.blockCount.toNat < 2^52

theorem newTable_bounds {entries entries' : List FileEntry} {c : Call} (hn : (names entries).Nodup)
    (h : c.newTable entries = some entries') (hin : c.InRange entries)
    (hold : ∀ e ∈ entries, e.extent.stop ≤ 2^64 ∧ e.blockCount.toNat < 2^52) :
    ∀ e ∈ entries', e.extent.stop ≤ 2^64 ∧ e.blockCount.toNat < 2^52 := by
  have hs := newTable_some hn h
  intro e he
  cases c with
  | save filename data =>
    obtain ⟨_,rfl⟩ := hs
    rcases List.mem_append.mp he with he | he
    · exact hold e he
    · rw [List.mem_singleton.mp he]
      refine ⟨?_,blocksNeeded_lt data⟩
      have hnext : (UInt64.ofNat (nextOf entries)).toNat = nextOf entries :=
        UInt64.toNat_ofNat_of_lt' hin.1
      simp only [Extent.stop,FileEntry.extent,hnext]
      exact hin.2
  | delete filename ctx =>
    obtain ⟨_,rfl⟩ := hs
    exact hold e (List.mem_of_mem_filter he)
  | rename oldName newName ctx =>
    obtain ⟨_,_,rfl⟩ := hs
    obtain ⟨f,hf,rfl⟩ := List.mem_map.mp he
    have hb := hold f hf
    unfold relabel
    split <;> exact hb

theorem represents_step {build : Profile} {d d' : NvmeController} {c : Call}
    {t : ExtentTable (List Char) 1} (h : Represents d t) (hstep : (fittingHistory build).step d c d') :
    ∃ t', Represents d' t' ∧ (t' = t ∨ ∃ op, (ExtentTable.system _ 1).step t op t') := by
  obtain ⟨⟨hc,hfit⟩,hstep⟩ := hstep
  rcases (history_step h.lists.one_le_next hc hstep).table with hsame | ⟨entries,htable,hin,hblock⟩
  · have hlisted := listed_congr hsame
    refine ⟨t,⟨hlisted.symm ▸ h.lists,?_,hlisted.symm ▸ h.stop_le,hlisted.symm ▸ h.count_lt⟩,.inl rfl⟩
    rw [Intact,hsame,hlisted]
    exact h.intact
  · obtain ⟨hlisted,hi⟩ := hc.written hfit htable hblock
    have hbounds := newTable_bounds h.lists.nodup htable hin fun e he => ⟨h.stop_le e he,h.count_lt e he⟩
    obtain ⟨t',ht',hl⟩ := h.lists.step htable hin
    rw [← hlisted] at hl hbounds
    exact ⟨t',⟨hl,hi,fun e he => (hbounds e he).1,fun e he => (hbounds e he).2⟩,.inr ⟨c.op,ht'⟩⟩

/-- Every history whose table keeps to its block is a run of the table of extents. -/
theorem history_refines {build : Profile} {d : NvmeController}
    (h : (fittingHistory build).Reachable d) :
    ∃ t, (ExtentTable.system _ 1).Reachable t ∧ Represents d t := by
  refine h.simulates ?_ fun d c d' t hr hstep => represents_step hr hstep
  intro d hd
  have hzero : d.blocks 0 = .zero := congrFun hd 0
  have hlisted := listed_of_zeroed hzero
  refine ⟨.empty,rfl,hlisted.symm ▸ rfl,.inl hzero,?_,?_⟩ <;>
  · rw [hlisted]
    exact fun e he => by cases he

/-- On a drive without failures a save under a fresh name succeeds. -/
theorem save_succeeds (build : Profile) {filename : List Char} {data : Slice} {d : NvmeController}
    (hd : d.Healthy) (hfresh : filename ∉ names (listed d))
    (hin : (Call.save filename data).InRange (listed d)) :
    ∃ d', saveFile build filename data (some d) = .ok () (some d') ∧ d'.Healthy ∧
      d'.blocks 0 = mftBlock (listed d ++ [⟨filename,.ofNat (nextOf (listed d)),blocksNeeded data⟩]) := by
  have hout : Call.Outcome (.save filename data) d (saveFile build filename data (some d)) :=
    Call.save_outcome filename data d (.inr fun _ => hin)
  have htable : (Call.save filename data).newTable (listed d) = some (listed d ++
      [⟨filename,.ofNat (nextOf (listed d)),blocksNeeded data⟩]) :=
    if_neg fun ha => hfresh (any_name_iff.mp ha)
  have hgo : ¬(Call.save filename data).Stopped d := by
    rintro (h | h | ⟨_,_,_,h⟩ | h)
    · exact h (hd _)
    · rw [htable] at h
      cases h
    · exact h (hd _)
    · exact h.2 (hd _)
  generalize hr : saveFile build filename data (some d) = r at hout
  cases hout with
  | done d' entries htable' _ hframe =>
    rw [htable] at htable'
    cases htable'
    exact ⟨_,rfl,(hd.of_status hframe.status).written _ _,by simp⟩
  | rejected _ _ hstopped => exact absurd hstopped hgo
  | overflow _ _ hout => exact absurd hin hout

/-- One more file in a history. -/
theorem save_step {build : Profile} {d : NvmeController} (h : (fittingHistory build).Reachable d)
    (hd : d.Healthy) (filename : List Char) (data : Slice) (hclean : Clean filename)
    (hfresh : filename ∉ names (listed d)) (hin : (Call.save filename data).InRange (listed d))
    (hfit : tableSize (listed d ++ [⟨filename,.ofNat (nextOf (listed d)),blocksNeeded data⟩]) ≤ 4096) :
    ∃ d', saveFile build filename data (some d) = .ok () (some d') ∧
      (fittingHistory build).Reachable d' ∧ d'.Healthy ∧
      listed d' = listed d ++ [⟨filename,.ofNat (nextOf (listed d)),blocksNeeded data⟩] := by
  obtain ⟨d',hrun,hd',hblock⟩ := save_succeeds build hd hfresh hin
  have htable : (Call.save filename data).newTable (listed d) = some (listed d ++
      [⟨filename,.ofNat (nextOf (listed d)),blocksNeeded data⟩]) :=
    if_neg fun ha => hfresh (any_name_iff.mp ha)
  have hc : (Call.save filename data).Admissible build d :=
    ⟨fun name hn => by cases hn; exact hclean,.inr fun _ => hin⟩
  have hfits : (Call.save filename data).Fits d := fun entries he => by
    rw [htable] at he
    cases he
    exact hfit
  exact ⟨d',hrun,.step h ⟨⟨hc,hfits⟩,.inl hrun⟩,hd',(hc.written hfits htable hblock).1⟩

/-- A drive as it is bought: every block zeroed, and every command succeeds. -/
def blankDrive : NvmeController := ⟨fun _ => .zero,fun _ => 0,[]⟩

theorem blankDrive_healthy : blankDrive.Healthy := fun _ =>
  show (0 : UInt16) >>> 1 = 0 by decide

theorem blankDrive_reachable (build : Profile) : (fittingHistory build).Reachable blankDrive :=
  .init rfl

theorem blankDrive_clean (build : Profile) : (cleanHistory build).Reachable blankDrive := .init rfl

theorem listed_blankDrive : listed blankDrive = [] := listed_of_zeroed rfl

/-- The first file of a drive. -/
theorem save_first (build : Profile) (filename : List Char) (data : Slice) (hclean : Clean filename)
    (hin : (Call.save filename data).InRange [])
    (hfit : tableSize [⟨filename,1,blocksNeeded data⟩] ≤ 4096) :
    ∃ d', saveFile build filename data (some blankDrive) = .ok () (some d') ∧
      (fittingHistory build).Reachable d' ∧ d'.Healthy ∧
      listed d' = [⟨filename,1,blocksNeeded data⟩] := by
  have h := save_step (blankDrive_reachable build) blankDrive_healthy filename data hclean
  rw [listed_blankDrive,List.nil_append] at h
  exact h List.not_mem_nil hin hfit

end Mfs
end PolymorphOS
