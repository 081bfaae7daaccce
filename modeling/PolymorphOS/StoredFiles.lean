import PolymorphOS.FileStore
import PolymorphOS.MfsContents

/-! The file system as its callers see it: a store of files that know whom they let in. Tables, LBAs
and blocks do not show in any answer. -/
namespace PolymorphOS
namespace Mfs

open Kernel NvmeController FileStore

abbrev FileRequest := Request (List Char) Slice MdoContext

/-- One call into the file system, with the bytes that it returns if it reads. -/
def execRequest (build : Profile) : FileRequest → Kernel (Option (List UInt8))
  | .save filename data => do
    saveFile build filename data
    return none
  | .read filename context => do
    let data ← readFile build filename context
    return some data
  | .delete filename context => do
    deleteFile filename context
    return none
  | .rename oldName newName context => do
    renameFile oldName newName context
    return none

/-- The texts of the errors. -/
def message : Refusal String → String
  | .taken => "File already exists"
  | .notFound => "File not found"
  | .targetExists => "Target filename already exists."
  | .denied e => e

/-- What the gate at the start of a file lets through of it. -/
def openContents (contents : List UInt8) (context : MdoContext) : Except String (List UInt8) :=
  (gate (.ofData (contents.take 4096)) context).map contents.drop

/-- The answer of the store to a request, as the file system words it. -/
def answer (files : List (File (List Char) (List UInt8))) (r : FileRequest) :
    Except String (Option (List UInt8)) :=
  (respond sameName openContents files (r.map padded)).1.mapError message

/-- The store after a request. -/
def filesAfter (files : List (File (List Char) (List UInt8))) (r : FileRequest) :
    List (File (List Char) (List UInt8)) :=
  (respond sameName openContents files (r.map padded)).2

/-! ### What is on the drive -/

/-- All blocks of a file. -/
def fileBytes (d : NvmeController) (entry : FileEntry) : List UInt8 :=
  (List.range entry.blockCount.toNat).flatMap fun j => (d.blocks (entry.startLba + .ofNat j)).1

def fileOf (d : NvmeController) (entry : FileEntry) : File (List Char) (List UInt8) :=
  ⟨entry.name,fileBytes d entry⟩

/-- The files on the drive, as a store. -/
def store (d : NvmeController) : List (File (List Char) (List UInt8)) := (listed d).map (fileOf d)

variable {build : Profile} {d d' : NvmeController} {t : ExtentTable (List Char) 1}
  {entry : FileEntry} {context : MdoContext} {name : List Char}

theorem store_names (d : NvmeController) : FileStore.names (store d) = names (listed d) := by
  rw [store,FileStore.names,List.map_map]
  rfl

theorem find?_store (p : List Char → Bool) :
    (store d).find? (fun f => p f.name) = ((listed d).find? fun e => p e.name).map (fileOf d) :=
  List.find?_map

theorem range_pos {n : ℕ} (h : 1 ≤ n) : List.range n = 0 :: List.range' 1 (n - 1) := by
  rw [List.range_eq_range',← Nat.sub_add_cancel h,List.range'_succ,Nat.add_sub_cancel]

/-- A file with a block of its own begins with the block that its gate reads. -/
theorem fileBytes_eq (h : 1 ≤ entry.blockCount.toNat) : fileBytes d entry =
    (d.blocks entry.startLba).1 ++ (List.range' 1 (entry.blockCount.toNat - 1)).flatMap fun j =>
      (d.blocks (entry.startLba + .ofNat j)).1 := by
  have hzero : entry.startLba + .ofNat 0 = entry.startLba := UInt64.add_zero _
  rw [fileBytes,range_pos h,List.flatMap_cons,hzero]

theorem gate_le {b : Block} {offset : ℕ} (h : gate b context = .ok offset) : offset ≤ 4096 := by
  have hopen : ¬Denied b context := fun hdenied => denied_iff.mp hdenied offset h
  have hlen : ¬3968 < bytecodeLen b := fun hlt => hopen (Or.inr (Or.inl hlt))
  rw [gate_ok hopen] at h
  cases h
  omega

/-- What is behind the gate of a file is what a read of its entry returns. -/
theorem openContents_fileBytes (d : NvmeController) (context : MdoContext)
    (h : 1 ≤ entry.blockCount.toNat) :
    openContents (fileBytes d entry) context =
      (gate (d.blocks entry.startLba) context).map (payload d entry) := by
  have hfirst : Block.ofData ((fileBytes d entry).take 4096) = d.blocks entry.startLba := by
    rw [fileBytes_eq h,List.take_left' (d.blocks entry.startLba).2,Block.ofData_self]
  rw [openContents,hfirst]
  cases hg : gate (d.blocks entry.startLba) context with
  | error e => rfl
  | ok offset =>
    have hle := gate_le hg
    have hdrop : (fileBytes d entry).drop offset = payload d entry offset := by
      rw [fileBytes_eq h,payload,List.drop_append_of_le_length]
      rw [(d.blocks entry.startLba).2]
      exact hle
    exact congrArg Except.ok hdrop

/-- A file is what its own blocks are. -/
theorem fileBytes_congr (hr : Represents d t) (he : entry ∈ listed d)
    (h : ∀ lba : UInt64, entry.extent.Covers lba.toNat → d'.blocks lba = d.blocks lba) :
    fileBytes d' entry = fileBytes d entry := by
  refine List.flatMap_congr fun j hj => ?_
  have hlt := List.mem_range.mp hj
  have hstop := hr.stop_le entry he
  simp only [Extent.stop,FileEntry.extent] at hstop
  rw [h _ ?_]
  rw [toNat_lba (by omega)]
  simp only [Extent.Covers,Extent.stop,FileEntry.extent]
  omega

/-! ### Calls that only read -/

/-- The call leaves every block as it is, whatever comes of it. -/
def ReadOnly {A : Type} (x : Kernel A) : Prop := ∀ d : NvmeController, ∃ d', d'.blocks = d.blocks ∧
  d'.status = d.status ∧ ((∃ a, x (some d) = .ok a (some d')) ∨ ∃ e, x (some d) = .error e (some d'))

namespace ReadOnly

variable {A B : Type}

theorem pure (a : A) : ReadOnly (Pure.pure a) := fun d => ⟨d,rfl,rfl,Or.inl ⟨a,rfl⟩⟩

theorem throw (e : Fault) : ReadOnly (throw e : Kernel A) := fun d => ⟨d,rfl,rfl,Or.inr ⟨e,rfl⟩⟩

theorem bind {x : Kernel A} {f : A → Kernel B} (hx : ReadOnly x) (hf : ∀ a, ReadOnly (f a)) :
    ReadOnly (x >>= f) := by
  intro d
  obtain ⟨d₁,hb₁,hs₁,⟨a,ha⟩ | ⟨e,he⟩⟩ := hx d
  · obtain ⟨d₂,hb₂,hs₂,hrun⟩ := hf a d₁
    have hbind : (x >>= f) (some d) = f a (some d₁) := bind_ok ha
    exact ⟨d₂,hb₂.trans hb₁,hs₂.trans hs₁,hbind.symm ▸ hrun⟩
  · exact ⟨d₁,hb₁,hs₁,Or.inr ⟨e,bind_error he⟩⟩

theorem ofPanic (r : Except Panic A) : ReadOnly (Kernel.ofPanic r) := by
  intro d
  cases r with
  | ok a => exact ⟨d,rfl,rfl,Or.inl ⟨a,rfl⟩⟩
  | error cause => exact ⟨d,rfl,rfl,Or.inr ⟨.panic cause,rfl⟩⟩

theorem ofErr (r : Except String A) : ReadOnly (Kernel.ofErr r) := by
  intro d
  cases r with
  | ok a => exact ⟨d,rfl,rfl,Or.inl ⟨a,rfl⟩⟩
  | error e => exact ⟨d,rfl,rfl,Or.inr ⟨.err e,rfl⟩⟩

theorem read (message : String) (lba : UInt64) : ReadOnly (nvme message (·.readBlock lba)) := by
  intro d
  by_cases hs : d.Succeeds d.log.length
  · exact ⟨d.issued (.read lba),rfl,rfl,Or.inl ⟨_,nvme_read_ok message lba hs⟩⟩
  · exact ⟨d.issued (.read lba),rfl,rfl,Or.inr ⟨_,nvme_read_error message lba hs⟩⟩

theorem findFile (name : List Char) : ReadOnly (findFile name) := by
  intro d
  by_cases hs : d.Succeeds d.log.length
  · exact ⟨d.issued (.read 0),rfl,rfl,Or.inl ⟨_,findFile_ok name hs⟩⟩
  · refine ⟨d.issued (.read 0),rfl,rfl,Or.inl ⟨none,?_⟩⟩
    rw [Mfs.findFile,d.readBlock_eq,if_neg hs]

theorem readBlocks (build : Profile) (start : UInt64) (i n : ℕ) :
    ReadOnly (readBlocks build start i n) := by
  induction n generalizing i with
  | zero => exact pure []
  | succ n ih =>
    exact (ofPanic _).bind fun lba => (read _ lba).bind fun buffer => (ih _).bind fun rest => pure _

theorem readFile (build : Profile) (filename : List Char) (context : MdoContext) :
    ReadOnly (readFile build filename context) := by
  refine (findFile filename).bind fun found => ?_
  cases found with
  | none => exact throw _
  | some entry =>
    have hverify : ReadOnly (verifyMdoAccess entry.startLba context) :=
      (read _ _).bind fun firstBlock => ofErr _
    exact hverify.bind fun offset => (ofPanic _).bind fun capacity => (read _ _).bind fun buffer =>
      (readBlocks _ _ _ _).bind fun rest => pure _

end ReadOnly

/-! ### The requests -/

/-- A drive whose commands succeed, with a whole table of files, none of them empty. -/
structure Filed (d : NvmeController) : Prop where
  healthy : d.Healthy
  table : ∃ t, Represents d t
  nonempty : ∀ e ∈ listed d, 1 ≤ e.blockCount.toNat

theorem store_congr (h : d'.blocks = d.blocks) : store d' = store d := by
  have hlisted : listed d' = listed d := listed_congr (congrFun h 0)
  have hfile : fileOf d' = fileOf d := by
    funext entry
    rw [fileOf,fileOf,fileBytes,fileBytes,h]
  rw [store,store,hlisted,hfile]

theorem Filed.congr (h : Filed d) (hblocks : d'.blocks = d.blocks) (hstatus : d'.status = d.status) :
    Filed d' := by
  have hlisted : listed d' = listed d := listed_congr (congrFun hblocks 0)
  obtain ⟨t,hr⟩ := h.table
  refine ⟨h.healthy.of_status hstatus,⟨t,hlisted ▸ hr.lists,?_,hlisted ▸ hr.stop_le,
    hlisted ▸ hr.count_lt⟩,hlisted ▸ h.nonempty⟩
  rw [Intact,hblocks,hlisted]
  exact hr.intact

/-- What a request comes to: the answer of the store, and a drive that holds the store after it. -/
def Answers (build : Profile) (d : NvmeController) (r : FileRequest) : Prop :=
  ∃ d', execRequest build r (some d) = ofErr (answer (store d) r) (some d') ∧ Filed d' ∧
    store d' = filesAfter (store d) r

/-- A request that is refused, and leaves the drive as it is. -/
theorem Answers.refused (h : Filed d) {r : FileRequest} {e : String}
    (hrun : ∃ d', execRequest build r (some d) = .error (.err e) (some d') ∧ d'.blocks = d.blocks ∧
      d'.status = d.status)
    (hanswer : answer (store d) r = .error e) (hafter : filesAfter (store d) r = store d) :
    Answers build d r := by
  obtain ⟨d',hexec,hblocks,hstatus⟩ := hrun
  refine ⟨d',?_,h.congr hblocks hstatus,(store_congr hblocks).trans hafter.symm⟩
  rw [hexec,hanswer]
  rfl

theorem answers_read (h : Filed d) (filename : List Char) (context : MdoContext) :
    Answers build d (.read filename context) := by
  obtain ⟨t,hr⟩ := h.table
  have hlookup := lookup_listed hr.intact filename
  have hfind : (store d).find? (fun f => sameName f.name filename) =
      (lookup (d.blocks 0) filename).map (fileOf d) := by
    rw [hlookup]
    exact find?_store fun name => sameName name filename
  cases hfound : lookup (d.blocks 0) filename with
  | none =>
    rw [hfound] at hfind
    have hread : readFile build filename context (some d) =
        .error (.err "File not found") (some (d.issued (.read 0))) := by
      rw [readFile,bind_ok (findFile_ok filename (h.healthy _)),hfound]
      rfl
    refine .refused h ⟨_,bind_error hread,rfl,rfl⟩ ?_ ?_
    · simp only [answer,Request.map,respond,hfind,Option.map_none]
      rfl
    · simp only [filesAfter,Request.map,respond,hfind,Option.map_none]
  | some entry =>
    have hmem : entry ∈ listed d := List.mem_of_find?_eq_some (hlookup.symm.trans hfound)
    have hopen := openContents_fileBytes d context (h.nonempty entry hmem)
    rw [hfound] at hfind
    have hafter : filesAfter (store d) (.read filename context) = store d := by
      simp only [filesAfter,Request.map,respond,hfind,Option.map_some]
    have hanswer : answer (store d) (.read filename context) =
        (gate (d.blocks entry.startLba) context).map fun offset => some (payload d entry offset) := by
      simp only [answer,Request.map,respond,hfind,Option.map_some,fileOf,hopen]
      cases gate (d.blocks entry.startLba) context <;> rfl
    cases hgate : gate (d.blocks entry.startLba) context with
    | error e =>
      rw [hgate] at hanswer
      exact .refused h ⟨_,bind_error (readFile_denied build h.healthy hfound hgate),rfl,rfl⟩ hanswer
        hafter
    | ok offset =>
      obtain ⟨s,hread⟩ := readFile_granted build h.healthy hfound hgate (hr.stop_le entry hmem)
        (hr.count_lt entry hmem)
      obtain ⟨d',hblocks,hstatus,⟨_,hrun⟩ | ⟨_,hrun⟩⟩ :=
        ReadOnly.readFile build filename context d <;> rw [hread] at hrun <;> cases hrun
      refine ⟨d',?_,h.congr hblocks hstatus,(store_congr hblocks).trans hafter.symm⟩
      rw [hanswer,hgate,execRequest,bind_ok hread]
      rfl

/-! ### The calls that write the table -/

/-- A name without delimiters, a table that fits its block, and LBAs below 2^64. -/
structure Permitted (d : NvmeController) (c : Call) : Prop where
  clean : ∀ name ∈ c.newName, Clean name
  fits : c.Fits d
  inRange : c.newTable (listed d) ≠ none → c.InRange (listed d)

/-- A call that nothing stops writes its table, and its file if it saves one. -/
theorem call_done (build : Profile) (h : Filed d) {c : Call} (hc : Permitted d c) {entries : List FileEntry}
    (htable : c.newTable (listed d) = some entries) (hgo : ¬c.Stopped d) :
    ∃ d', c.exec build (some d) = .ok () (some d') ∧ listed d' = entries ∧ d'.Healthy ∧
      (∃ t, Represents d' t) ∧
      (∀ lba, lba ≠ 0 → ¬c.Span (listed d) lba → d'.blocks lba = d.blocks lba) ∧
      ∀ filename data, c = .save filename data → ∀ j < (blocksNeeded data).toNat,
        ∀ lba : UInt64, lba.toNat = nextOf (listed d) + j → d'.blocks lba = .ofData (chunk data j) := by
  obtain ⟨t,hr⟩ := h.table
  have hadmissible : c.Admissible build d := ⟨hc.clean,Or.inr hc.inRange⟩
  have hout := Call.exec_outcome hadmissible.guarded
  generalize hrun : c.exec build (some d) = r at hout
  cases hout with
  | done d₁ entries' htable' hin hframe _ hstored =>
    rw [htable] at htable'
    cases htable'
    have hblock : (d₁.written 0 (mftBlock entries)).blocks 0 = mftBlock entries := by simp
    have hstep : (fittingHistory build).step d c (d₁.written 0 (mftBlock entries)) :=
      ⟨⟨hadmissible,hc.fits⟩,Or.inl hrun⟩
    have hstepped := history_step hr.lists.one_le_next hadmissible hstep.2
    obtain ⟨t',hr',_⟩ := represents_step hr hstep
    refine ⟨_,rfl,(hadmissible.written hc.fits htable hblock).1,hstepped.healthy h.healthy,⟨t',hr'⟩,
      hstepped.blocks,fun filename data hsave j hj lba hlba => ?_⟩
    have hone := hr.lists.one_le_next
    rw [written_blocks,Function.update_of_ne (ne_zero_of_pos (by omega))]
    exact hstored filename data hsave j hj lba hlba
  | rejected _ _ hstopped => exact absurd hstopped hgo
  | overflow _ _ hout => exact absurd (hc.inRange (by rw [htable]; exact Option.some_ne_none _)) hout

/-- Files stay what they are through calls that write none of their blocks. -/
theorem fileOf_congr (hr : Represents d t) {c : Call} (he : entry ∈ listed d)
    (hblocks : ∀ lba, lba ≠ 0 → ¬c.Span (listed d) lba → d'.blocks lba = d.blocks lba) :
    fileBytes d' entry = fileBytes d entry := by
  refine fileBytes_congr hr he fun lba hcov => hblocks lba ?_ (hr.lists.not_span he hcov c)
  exact ne_zero_of_pos ((hr.lists.one_le_start he).trans hcov.1)

theorem answers_save (h : Filed d) {filename : List Char} {data : Slice} (hdata : data.bytes ≠ [])
    (hc : Permitted d (.save filename data)) : Answers build d (.save filename data) := by
  obtain ⟨t,hr⟩ := h.table
  by_cases hmem : filename ∈ names (listed d)
  · have hname : filename ∈ FileStore.names (store d) := (store_names d).symm ▸ hmem
    have hsave : saveFile build filename data (some d) =
        .error (.err "File already exists") (some (d.issued (.read 0))) := by
      rw [saveFile,bind_ok (readMft_ok (h.healthy _)),if_pos (any_name_iff.mpr hmem)]
      rfl
    refine .refused h ⟨_,bind_error hsave,rfl,rfl⟩ ?_ ?_
    · simp only [answer,Request.map,respond,if_pos hname]
      rfl
    · simp only [filesAfter,Request.map,respond,if_pos hname]
  · have hname : filename ∉ FileStore.names (store d) := (store_names d).symm ▸ hmem
    let entry : FileEntry := ⟨filename,.ofNat (nextOf (listed d)),blocksNeeded data⟩
    have htable : (Call.save filename data).newTable (listed d) = some (listed d ++ [entry]) :=
      if_neg fun ha => hmem (any_name_iff.mp ha)
    have hgo : ¬(Call.save filename data).Stopped d := by
      rintro (hs | hs | ⟨_,_,_,hs⟩ | hs)
      · exact hs (h.healthy _)
      · rw [htable] at hs
        cases hs
      · exact hs (h.healthy _)
      · exact hs.2 (h.healthy _)
    obtain ⟨hnext,hend⟩ := hc.inRange (by rw [htable]; exact Option.some_ne_none _)
    obtain ⟨d',hrun,hlisted,hhealthy,ht,hblocks,hstored⟩ := call_done build h hc htable hgo
    have hstart : entry.startLba.toNat = nextOf (listed d) := toNat_ofNat hnext
    have hnew : fileBytes d' entry = padded data := by
      rw [← flatMap_chunk]
      refine List.flatMap_congr fun j hj => ?_
      have hlt : j < (blocksNeeded data).toNat := List.mem_range.mp hj
      rw [hstored filename data rfl j hlt _ ?_]
      rw [toNat_lba (by omega),hstart]
    have hold : (listed d).map (fileOf d') = store d :=
      List.map_congr_left fun e he => by rw [fileOf,fileOf,fileOf_congr hr he hblocks]
    have hneeded : 1 ≤ (blocksNeeded data).toNat := by
      have hlength := List.length_pos_of_ne_nil hdata
      rw [toNat_blocksNeeded]
      omega
    refine ⟨d',?_,⟨hhealthy,ht,fun e he => ?_⟩,?_⟩
    · simp only [answer,Request.map,respond,if_neg hname]
      exact bind_ok hrun
    · rw [hlisted] at he
      rcases List.mem_append.mp he with he | he
      · exact h.nonempty e he
      · rw [List.mem_singleton.mp he]
        exact hneeded
    · simp only [filesAfter,Request.map,respond,if_neg hname]
      rw [store,hlisted,List.map_append,hold,List.map_singleton,fileOf,hnew]

theorem find?_exact (d : NvmeController) (filename : List Char) : (store d).find? (fun f => f.name = filename) =
    (resolveExact (listed d) filename).map (fileOf d) := by
  have hname : (fun e : FileEntry => decide (e.name = filename)) = (·.name == filename) := by
    funext e
    exact Bool.eq_iff_iff.mpr (by simp)
  rw [resolveExact_eq,← hname]
  exact find?_store fun name => name = filename

theorem resolveExact_some {entries : List FileEntry} {filename : List Char}
    (h : resolveExact entries filename = some entry) : entry ∈ entries ∧ entry.name = filename := by
  rw [resolveExact_eq] at h
  exact ⟨List.mem_of_find?_eq_some h,by
    simpa using List.find?_some (p := fun e : FileEntry => e.name == filename) h⟩

/-- What a file that was found says to a request that would change the files. -/
theorem gated_fileOf (d : NvmeController) (context : MdoContext)
    (h : 1 ≤ entry.blockCount.toNat) (files changed : List (File (List Char) (List UInt8))) :
    gated openContents (fileOf d entry) context files changed =
      match gate (d.blocks entry.startLba) context with
      | .error e => (.error (.denied e),files)
      | .ok _ => (.ok none,changed) := by
  rw [gated,fileOf,openContents_fileBytes d context h]
  cases gate (d.blocks entry.startLba) context <;> rfl

/-- A granted call goes on to write its table. -/
theorem not_gated (hd : d.Healthy) {offset : ℕ}
    (hgate : gate (d.blocks entry.startLba) context = .ok offset) :
    ¬Call.Gated d entry context := by
  rintro (hs | hs | hs)
  · exact hs (hd _)
  · exact hs offset hgate
  · exact hs (hd _)

theorem answers_delete (h : Filed d) {filename : List Char}
    (hc : Permitted d (.delete filename context)) : Answers build d (.delete filename context) := by
  obtain ⟨t,hr⟩ := h.table
  have hfind := find?_exact d filename
  cases hfound : resolveExact (listed d) filename with
  | none =>
    rw [hfound,Option.map_none] at hfind
    have hdelete : deleteFile filename context (some d) =
        .error (.err "File not found") (some (d.issued (.read 0))) := by
      rw [deleteFile,bind_ok (readMft_ok (h.healthy _)),Option.map_eq_none_iff.mp hfound]
      rfl
    refine .refused h ⟨_,bind_error hdelete,rfl,rfl⟩ ?_ ?_
    · simp only [answer,Request.map,respond,hfind]
      rfl
    · simp only [filesAfter,Request.map,respond,hfind]
  | some entry =>
    rw [hfound,Option.map_some] at hfind
    obtain ⟨hmem,hname⟩ := resolveExact_some hfound
    have hgated := gated_fileOf d context (h.nonempty entry hmem) (store d)
      ((store d).filter fun f => f.name ≠ filename)
    cases hgate : gate (d.blocks entry.startLba) context with
    | error e =>
      rw [hgate] at hgated
      refine .refused h ⟨_,bind_error (deleteFile_denied h.healthy hfound hgate),rfl,rfl⟩ ?_ ?_
      · simp only [answer,Request.map,respond,hfind,hgated]
        rfl
      · simp only [filesAfter,Request.map,respond,hfind,hgated]
    | ok offset =>
      rw [hgate] at hgated
      obtain ⟨pos,hpos,_⟩ := Option.map_eq_some_iff.mp hfound
      have htable : (Call.delete filename context).newTable (listed d) =
          some ((listed d).eraseIdx pos) := by rw [Call.newTable,hpos,Option.map_some]
      have hgo : ¬(Call.delete filename context).Stopped d := by
        rintro (hs | hs | ⟨entry',hentry',hs⟩)
        · exact hs (h.healthy _)
        · rw [htable] at hs
          cases hs
        · rw [← resolveExact_eq,hfound] at hentry'
          cases hentry'
          exact not_gated h.healthy hgate hs
      obtain ⟨d',hrun,hlisted,hhealthy,ht,hblocks,_⟩ := call_done build h hc htable hgo
      obtain ⟨_,hentries⟩ := newTable_some hr.lists.nodup htable
      rw [hentries] at hlisted
      refine ⟨d',?_,⟨hhealthy,ht,fun e he => ?_⟩,?_⟩
      · simp only [answer,Request.map,respond,hfind,hgated]
        exact bind_ok hrun
      · rw [hlisted] at he
        exact h.nonempty e (List.mem_of_mem_filter he)
      · simp only [filesAfter,Request.map,respond,hfind,hgated]
        rw [store,hlisted,store,List.filter_map]
        exact List.map_congr_left fun e he =>
          by rw [fileOf,fileOf,fileOf_congr hr (List.mem_of_mem_filter he) hblocks]

theorem fileOf_relabel {oldName newName : List Char} (h : fileBytes d' entry = fileBytes d entry) :
    fileOf d' (relabel oldName newName entry) =
      FileStore.rename oldName newName (fileOf d entry) := by
  by_cases hname : entry.name = oldName
  · have hentry : relabel oldName newName entry = {entry with name := newName} := if_pos hname
    have hfile : FileStore.rename oldName newName (fileOf d entry) =
        {fileOf d entry with name := newName} := if_pos hname
    rw [hentry,hfile,fileOf,fileOf,← h]
    rfl
  · have hentry : relabel oldName newName entry = entry := if_neg hname
    have hfile : FileStore.rename oldName newName (fileOf d entry) = fileOf d entry := if_neg hname
    rw [hentry,hfile,fileOf,fileOf,h]

theorem answers_rename (h : Filed d) {oldName newName : List Char}
    (hc : Permitted d (.rename oldName newName context)) :
    Answers build d (.rename oldName newName context) := by
  obtain ⟨t,hr⟩ := h.table
  by_cases hnew : newName ∈ names (listed d)
  · have hname : newName ∈ FileStore.names (store d) := (store_names d).symm ▸ hnew
    have hrename : renameFile oldName newName context (some d) =
        .error (.err "Target filename already exists.") (some (d.issued (.read 0))) := by
      rw [renameFile,bind_ok (readMft_ok (h.healthy _)),if_pos (any_name_iff.mpr hnew)]
      rfl
    refine .refused h ⟨_,bind_error hrename,rfl,rfl⟩ ?_ ?_
    · simp only [answer,Request.map,respond,if_pos hname]
      rfl
    · simp only [filesAfter,Request.map,respond,if_pos hname]
  have hname : newName ∉ FileStore.names (store d) := (store_names d).symm ▸ hnew
  have hfind := find?_exact d oldName
  cases hfound : resolveExact (listed d) oldName with
  | none =>
    rw [hfound,Option.map_none] at hfind
    have hrename : renameFile oldName newName context (some d) =
        .error (.err "File not found") (some (d.issued (.read 0))) := by
      rw [renameFile,bind_ok (readMft_ok (h.healthy _)),if_neg fun ha => hnew (any_name_iff.mp ha),
        Option.map_eq_none_iff.mp hfound]
      rfl
    refine .refused h ⟨_,bind_error hrename,rfl,rfl⟩ ?_ ?_
    · simp only [answer,Request.map,respond,if_neg hname,hfind]
      rfl
    · simp only [filesAfter,Request.map,respond,if_neg hname,hfind]
  | some entry =>
    rw [hfound,Option.map_some] at hfind
    obtain ⟨hmem,_⟩ := resolveExact_some hfound
    have hgated := gated_fileOf d context (h.nonempty entry hmem) (store d)
      ((store d).map (FileStore.rename oldName newName))
    cases hgate : gate (d.blocks entry.startLba) context with
    | error e =>
      rw [hgate] at hgated
      have hrename := renameFile_denied h.healthy newName hfound hgate
      rw [if_neg hnew] at hrename
      refine .refused h ⟨_,bind_error hrename,rfl,rfl⟩ ?_ ?_
      · simp only [answer,Request.map,respond,if_neg hname,hfind,hgated]
        rfl
      · simp only [filesAfter,Request.map,respond,if_neg hname,hfind,hgated]
    | ok offset =>
      rw [hgate] at hgated
      obtain ⟨pos,hpos,_⟩ := Option.map_eq_some_iff.mp hfound
      have htable : (Call.rename oldName newName context).newTable (listed d) =
          some ((listed d).set pos {(listed d).get pos with name := newName}) := by
        rw [Call.newTable,if_neg fun ha => hnew (any_name_iff.mp ha),hpos,Option.map_some]
      have hgo : ¬(Call.rename oldName newName context).Stopped d := by
        rintro (hs | hs | ⟨entry',hentry',hs⟩)
        · exact hs (h.healthy _)
        · rw [htable] at hs
          cases hs
        · rw [← resolveExact_eq,hfound] at hentry'
          cases hentry'
          exact not_gated h.healthy hgate hs
      obtain ⟨d',hrun,hlisted,hhealthy,ht,hblocks,_⟩ := call_done build h hc htable hgo
      obtain ⟨_,_,hentries⟩ := newTable_some hr.lists.nodup htable
      rw [hentries] at hlisted
      refine ⟨d',?_,⟨hhealthy,ht,fun e he => ?_⟩,?_⟩
      · simp only [answer,Request.map,respond,if_neg hname,hfind,hgated]
        exact bind_ok hrun
      · rw [hlisted] at he
        obtain ⟨f,hf,rfl⟩ := List.mem_map.mp he
        have hcount := h.nonempty f hf
        unfold relabel
        split <;> exact hcount
      · simp only [filesAfter,Request.map,respond,if_neg hname,hfind,hgated]
        rw [store,hlisted,store,List.map_map,List.map_map]
        exact List.map_congr_left fun e he => fileOf_relabel (fileOf_congr hr he hblocks)

/-! ### Runs -/

/-- The requests that the file system is meant for: no empty file, and otherwise a permitted call. -/
def Admits (d : NvmeController) : FileRequest → Prop
  | .save filename data => data.bytes ≠ [] ∧ Permitted d (.save filename data)
  | .read _ _ => True
  | .delete filename context => Permitted d (.delete filename context)
  | .rename oldName newName context => Permitted d (.rename oldName newName context)

theorem answers (build : Profile) (h : Filed d) {r : FileRequest} (hr : Admits d r) :
    Answers build d r := by
  cases r with
  | save filename data => exact answers_save h hr.1 hr.2
  | read filename context => exact answers_read h filename context
  | delete filename context => exact answers_delete h hr
  | rename oldName newName context => exact answers_rename h hr

/-- The file system on a drive that starts zeroed and does not fail: requests, each with its answer. -/
def fileSystem (build : Profile) :
    Runs.System NvmeController (FileRequest × Except String (Option (List UInt8))) where
  init d := d.Healthy ∧ d.blocks = fun _ => .zero
  step d x d' := Admits d x.1 ∧ execRequest build x.1 (some d) = ofErr x.2 (some d')

/-- The store takes the request and gives this answer. -/
def accepts (files : List (File (List Char) (List UInt8)))
    (x : FileRequest × Except String (Option (List UInt8))) :
    Option (List (File (List Char) (List UInt8))) :=
  if answer files x.1 = x.2 then some (filesAfter files x.1) else none

theorem ofErr_inj {A : Type} {a b : Except String A} {s s' : Option NvmeController}
    (h : ofErr a s = ofErr b s') : a = b ∧ s = s' := by
  cases a <;> cases b <;> cases h <;> exact ⟨rfl,rfl⟩

theorem Filed.zeroed (hd : d.Healthy) (h : d.blocks = fun _ => .zero) : Filed d ∧ store d = [] := by
  have hlisted : listed d = [] := listed_of_zeroed (congrFun h 0)
  have hreach : (fittingHistory .dev).Reachable d := .init h
  obtain ⟨t,_,hr⟩ := history_refines hreach
  refine ⟨⟨hd,⟨t,hr⟩,fun e he => ?_⟩,by rw [store,hlisted,List.map_nil]⟩
  rw [hlisted] at he
  exact absurd he List.not_mem_nil

end Mfs
end PolymorphOS
