import PolymorphOS.MdoHeader

/-! The contents of files: what `save_file` stored, `read_file` returns, until the file
itself is touched. -/
namespace PolymorphOS
namespace Mfs

open Kernel NvmeController

/-- Data that is cut into blocks, padded, and put together again. -/
theorem flatMap_chunks (k : ℕ) (bytes : List UInt8) (h : bytes.length ≤ 4096*k) :
    (List.range k).flatMap (fun j => (Block.ofData ((bytes.drop (4096*j)).take 4096)).1) =
      bytes ++ List.replicate (4096*k - bytes.length) 0 := by
  induction k generalizing bytes with
  | zero =>
    have hnil : bytes = [] := List.eq_nil_of_length_eq_zero (by omega)
    simp [hnil]
  | succ k ih =>
    have hrest := ih (bytes.drop 4096) (by rw [List.length_drop]; omega)
    have hshift : ∀ j, (bytes.drop (4096*(j+1))).take 4096 = ((bytes.drop 4096).drop (4096*j)).take 4096 := by
      intro j
      rw [List.drop_drop,Nat.mul_succ,Nat.add_comm]
    rw [List.range_succ_eq_map,List.flatMap_cons,List.flatMap_map]
    simp only [Nat.succ_eq_add_one,hshift,hrest,Nat.mul_zero,List.drop_zero]
    rw [Block.ofData_bytes (List.length_take_le _ _),List.length_take]
    rcases Nat.le_total bytes.length 4096 with hle | hge
    · have hsum : 4096 - bytes.length + (4096*k - 0) = 4096*(k+1) - bytes.length := by omega
      rw [List.take_of_length_le hle,List.drop_eq_nil_of_le hle,min_eq_right hle,List.nil_append,
        List.length_nil,List.append_assoc,List.replicate_append_replicate,hsum]
    · have hsum : 4096*k - (bytes.length - 4096) = 4096*(k+1) - bytes.length := by omega
      rw [min_eq_left hge,Nat.sub_self,List.replicate_zero,List.append_nil,← List.append_assoc,
        List.take_append_drop,List.length_drop,hsum]

/-- The data as a file holds it: zero-padded to whole blocks. -/
def padded (data : Slice) : List UInt8 :=
  data.bytes ++ List.replicate (4096*(blocksNeeded data).toNat - data.bytes.length) 0

theorem flatMap_chunk (data : Slice) :
    (List.range (blocksNeeded data).toNat).flatMap (fun j => (Block.ofData (chunk data j)).1) =
      padded data :=
  flatMap_chunks _ _ (by rw [toNat_blocksNeeded]; omega)

theorem readBlocks_iff {build : Profile} {d : NvmeController} {start : UInt64} {i n : ℕ}
    (h : i + n ≤ 2^64) {bytes : List UInt8} :
    (∃ s, readBlocks build start i n (some d) = .ok bytes s) ↔
      (∀ j, i ≤ j → j < i + n → start.toNat + j < 2^64 ∨ build = .release) ∧
      (∀ j < n, d.Succeeds (d.log.length + j)) ∧
      bytes = (List.range' i n).flatMap fun j => (d.blocks (start + .ofNat j)).1 := by
  induction n generalizing i d bytes with
  | zero =>
    constructor
    · rintro ⟨_,⟨⟩⟩
      exact ⟨fun j _ _ => by omega,fun j hj => absurd hj (Nat.not_lt_zero j),rfl⟩
    · rintro ⟨_,_,rfl⟩
      exact ⟨_,rfl⟩
  | succ n ih =>
    have hi : (UInt64.ofNat i).toNat = i := toNat_ofNat (by omega)
    rw [List.range'_succ,List.flatMap_cons]
    constructor
    · rintro ⟨s,hrun⟩
      obtain ⟨lba,_,hlba,hrun⟩ := bind_ok_iff.mp hrun
      obtain ⟨hadd,rfl⟩ := ofPanic_iff.mp hlba
      obtain ⟨hin,rfl⟩ := addU64_iff.mp hadd
      obtain ⟨b,_,hread,hrun⟩ := bind_ok_iff.mp hrun
      obtain ⟨hs,rfl,rfl⟩ := nvme_read_iff.mp hread
      obtain ⟨rest,_,hrest,hrun⟩ := bind_ok_iff.mp hrun
      cases hrun
      obtain ⟨hlbas,hanswered,rfl⟩ := (ih (by omega)).mp ⟨_,hrest⟩
      refine ⟨fun j hlo hhi => ?_,fun j hj => ?_,rfl⟩
      · rcases Nat.eq_or_lt_of_le hlo with rfl | hlt
        · rwa [hi] at hin
        · exact hlbas j hlt (by omega)
      · cases j with
        | zero => exact hs
        | succ j => exact succeeds_issued.mp (hanswered j (by omega))
    · rintro ⟨hlbas,hanswered,rfl⟩
      have hadd : addU64 build start (.ofNat i) = .ok (start + .ofNat i) :=
        addU64_iff.mpr ⟨by rw [hi]; exact hlbas i le_rfl (by omega),rfl⟩
      have hrun : ∃ s, readBlocks build start (i + 1) n (some (d.issued (.read (start + .ofNat i)))) =
          .ok _ s := (ih (by omega)).mpr ⟨fun j hlo hhi => hlbas j (by omega) (by omega),
            fun j hj => succeeds_issued.mpr (hanswered (j + 1) (by omega)),rfl⟩
      obtain ⟨s,hrest⟩ := hrun
      refine ⟨s,?_⟩
      rw [readBlocks,hadd,bind_ok (ofPanic_ok _ _),
        bind_ok (nvme_read_ok _ _ (hanswered 0 (by omega))),bind_ok hrest]
      rfl

/-- The bytes of a file behind its header and bytecode. -/
def payload (d : NvmeController) (entry : FileEntry) (offset : ℕ) : List UInt8 :=
  (d.blocks entry.startLba).1.drop offset ++
  (List.range' 1 (entry.blockCount.toNat - 1)).flatMap fun j =>
    (d.blocks (entry.startLba + .ofNat j)).1

/-- The commands of reading the entry are answered, and its sums are in range. -/
structure Legible (build : Profile) (d : NvmeController) (entry : FileEntry) : Prop where
  capacity : entry.blockCount.toNat * 4096 < 2^64 ∨ build = .release
  lbas : ∀ j, 1 ≤ j → j < entry.blockCount.toNat →
    entry.startLba.toNat + j < 2^64 ∨ build = .release
  answered : ∀ j < 3 + (entry.blockCount.toNat - 1), d.Succeeds (d.log.length + j)

/-- The three commands before the loop of `read_file`, and those of the loop. -/
theorem answered_iff {d : NvmeController} (lba : UInt64) {n : ℕ} :
    (∀ j < 3 + n, d.Succeeds (d.log.length + j)) ↔
      d.Succeeds d.log.length ∧
      (d.issued (.read 0)).Succeeds (d.issued (.read 0)).log.length ∧
      ((d.issued (.read 0)).issued (.read lba)).Succeeds
        ((d.issued (.read 0)).issued (.read lba)).log.length ∧
      ∀ j < n, (((d.issued (.read 0)).issued (.read lba)).issued (.read lba)).Succeeds
        ((((d.issued (.read 0)).issued (.read lba)).issued (.read lba)).log.length + j) := by
  have hshift (j : ℕ) : (((d.issued (.read 0)).issued (.read lba)).issued (.read lba)).Succeeds
      ((((d.issued (.read 0)).issued (.read lba)).issued (.read lba)).log.length + j) ↔
        d.Succeeds (d.log.length + (3 + j)) := by
    rw [succeeds_issued,succeeds_issued,succeeds_issued,Nat.add_comm 3 j]
  constructor
  · intro h
    exact ⟨h 0 (by omega),succeeds_issued.mpr (h 1 (by omega)),
      succeeds_issued.mpr (succeeds_issued.mpr (h 2 (by omega))),
      fun j hj => (hshift j).mpr (h (3 + j) (by omega))⟩
  · rintro ⟨hs₀,hs₁,hs₂,hloop⟩ j hj
    rcases j with _ | _ | _ | j
    · exact hs₀
    · exact succeeds_issued.mp hs₁
    · exact succeeds_issued.mp (succeeds_issued.mp hs₂)
    · have hthree : j + 1 + 1 + 1 = 3 + j := by omega
      rw [hthree]
      exact (hshift j).mp (hloop j (by omega))

/-- What a read returns, and when it returns at all. -/
theorem readFile_iff {build : Profile} {d : NvmeController} {filename : List Char} {ctx : MdoContext}
    {bytes : List UInt8} :
    (∃ s, readFile build filename ctx (some d) = .ok bytes s) ↔ ∃ entry offset,
      lookup (d.blocks 0) filename = some entry ∧ gate (d.blocks entry.startLba) ctx = .ok offset ∧
      Legible build d entry ∧ bytes = payload d entry offset := by
  have h4096 : (4096 : UInt64).toNat = 4096 := rfl
  constructor
  · rintro ⟨s,hrun⟩
    obtain ⟨found,_,hfind,hfound⟩ := bind_ok_iff.mp hrun
    cases found with
    | none => cases hfound
    | some entry =>
      obtain ⟨hs₀,hlook,rfl⟩ := findFile_some_iff.mp hfind
      obtain ⟨offset,_,hverify,hopen⟩ := bind_ok_iff.mp hfound
      obtain ⟨hs₁,hgate,rfl⟩ := verifyMdoAccess_iff.mp hverify
      obtain ⟨_,_,hcapacity,hfits⟩ := bind_ok_iff.mp hopen
      obtain ⟨hmul,rfl⟩ := ofPanic_iff.mp hcapacity
      obtain ⟨_,_,hread,hfirst⟩ := bind_ok_iff.mp hfits
      obtain ⟨hs₂,rfl,rfl⟩ := nvme_read_iff.mp hread
      obtain ⟨rest,_,hrest,hreturn⟩ := bind_ok_iff.mp hfirst
      cases hreturn
      have hcount := entry.blockCount.toNat_lt
      obtain ⟨hlbas,hloop,rfl⟩ := (readBlocks_iff (by omega)).mp ⟨_,hrest⟩
      refine ⟨entry,offset,hlook,hgate,⟨?_,?_,?_⟩,rfl⟩
      · have hcap := (mulU64_iff.mp hmul).1
        rwa [h4096] at hcap
      · exact fun j hlo hhi => hlbas j hlo (by omega)
      · exact (answered_iff entry.startLba).mpr ⟨hs₀,hs₁,hs₂,hloop⟩
  · rintro ⟨entry,offset,hlook,hgate,hlegible,rfl⟩
    have hcount := entry.blockCount.toNat_lt
    obtain ⟨hs₀,hs₁,hs₂,hloop⟩ := (answered_iff entry.startLba).mp hlegible.answered
    have hmul : mulU64 build entry.blockCount 4096 = .ok (entry.blockCount * 4096) :=
      mulU64_iff.mpr ⟨hlegible.capacity,rfl⟩
    have hrun : ∃ s, readBlocks build entry.startLba 1 (entry.blockCount.toNat - 1)
        (some (((d.issued (.read 0)).issued (.read entry.startLba)).issued (.read entry.startLba))) =
        .ok _ s := (readBlocks_iff (by omega)).mpr
          ⟨fun j hlo hhi => hlegible.lbas j hlo (by omega),hloop,rfl⟩
    obtain ⟨s,hrest⟩ := hrun
    refine ⟨s,?_⟩
    rw [readFile,bind_ok (findFile_some_iff.mpr ⟨hs₀,hlook,rfl⟩)]
    change (verifyMdoAccess _ ctx >>= fun _ => _) _ = _
    rw [bind_ok (verifyMdoAccess_iff.mpr ⟨hs₁,hgate,rfl⟩),hmul,bind_ok (ofPanic_ok _ _),
      bind_ok (nvme_read_ok _ _ hs₂),bind_ok hrest]
    rfl

theorem readFile_granted (build : Profile) {d : NvmeController} (hd : d.Healthy) {name : List Char}
    {entry : FileEntry} {ctx : MdoContext} {offset : ℕ}
    (he : lookup (d.blocks 0) name = some entry)
    (hg : gate (d.blocks entry.startLba) ctx = .ok offset)
    (hstop : entry.extent.stop ≤ 2^64) (hcount : entry.blockCount.toNat < 2^52) :
    ∃ s, readFile build name ctx (some d) = .ok (payload d entry offset) s := by
  simp only [Extent.stop,FileEntry.extent] at hstop
  refine readFile_iff.mpr ⟨entry,offset,he,hg,⟨.inl (by omega),?_,fun j _ => hd _⟩,rfl⟩
  exact fun j _ hj => .inl (by omega)

/-- The first block of the file that the data makes. -/
def firstBlock (data : Slice) : Block := .ofData (chunk data 0)

/-- The names a call mentions. -/
def Call.filenames : Call → List (List Char)
  | .save filename _ => [filename]
  | .delete filename _ => [filename]
  | .rename oldName newName _ => [oldName,newName]

/-- The call is about other files, also up to case and surrounding blanks. -/
def Call.Other (name : List Char) (c : Call) : Prop :=
  ∀ filename ∈ c.filenames, sameName filename name = false

/-- Histories that leave a file in peace. -/
def othersHistory (build : Profile) (name : List Char) : Runs.System NvmeController Call :=
  (fittingHistory build).guard fun _ c => c.Other name

/-- The entry is the only one `find_file` can mean by the name, and its blocks hold the data. -/
structure Stored (name : List Char) (data : Slice) (entry : FileEntry) (d : NvmeController) : Prop where
  listed : entry ∈ listed d
  name_eq : entry.name = name
  count_eq : entry.blockCount = blocksNeeded data
  alone : ∀ e ∈ Mfs.listed d, sameName e.name name = true → e = entry
  blocks : ∀ j < (blocksNeeded data).toNat, ∀ lba : UInt64,
    lba.toNat = entry.startLba.toNat + j → d.blocks lba = .ofData (chunk data j)

theorem stored_of_save {build : Profile} {d : NvmeController} {t : ExtentTable (List Char) 1}
    (h : Represents d t) {name : List Char} {data : Slice}
    (hc : (Call.save name data).Admissible build d) (hfit : (Call.save name data).Fits d)
    (halone : ∀ e ∈ listed d, sameName e.name name = false) {d' : NvmeController}
    (hsave : saveFile build name data (some d) = .ok () (some d')) :
    ∃ entry, Stored name data entry d' := by
  have hout := Call.exec_outcome hc.guarded
  rw [Call.exec,hsave] at hout
  cases hout with
  | done d₁ entries htable hin hframe hreached hstored =>
    have hlisted : listed (d₁.written 0 (mftBlock entries)) = entries :=
      (hc.written hfit htable (by simp)).1
    obtain ⟨_,hentries⟩ := newTable_some h.lists.nodup htable
    have hnext : (UInt64.ofNat (nextOf (listed d))).toNat = nextOf (listed d) :=
      UInt64.toNat_ofNat_of_lt' hin.1
    have hone := h.lists.one_le_next
    rw [hentries] at hlisted
    refine ⟨⟨name,.ofNat (nextOf (listed d)),blocksNeeded data⟩,?_,rfl,rfl,?_,?_⟩
    · rw [hentries,hlisted]
      exact List.mem_append_right _ (List.mem_singleton_self _)
    · intro e he hsame
      rw [hentries,hlisted] at he
      rcases List.mem_append.mp he with he | he
      · rw [halone e he] at hsame
        cases hsame
      · exact List.mem_singleton.mp he
    · intro j hj lba hl
      simp only [hnext] at hl
      have hne : lba ≠ 0 := ne_zero_of_pos (by omega)
      rw [written_blocks,Function.update_of_ne hne]
      exact hstored name data rfl j hj lba hl

/-- A call about other files keeps the entry, and keeps it the only one of its name. -/
theorem Call.Other.keeps {name : List Char} {c : Call} (hother : c.Other name)
    {entries entries' : List FileEntry} (hn : (names entries).Nodup)
    (h : c.newTable entries = some entries') {entry : FileEntry} (hmem : entry ∈ entries)
    (hname : entry.name = name)
    (halone : ∀ e ∈ entries, sameName e.name name = true → e = entry) :
    entry ∈ entries' ∧ ∀ e ∈ entries', sameName e.name name = true → e = entry := by
  have hnew := newTable_some hn h
  have hne : ∀ filename ∈ c.filenames, entry.name ≠ filename := fun filename hf heq => by
    have := hother filename hf
    rw [← heq,hname,sameName_refl] at this
    cases this
  cases c with
  | save filename bytes =>
    obtain ⟨_,rfl⟩ := hnew
    refine ⟨List.mem_append_left _ hmem,fun e he hsame => ?_⟩
    rcases List.mem_append.mp he with he | he
    · exact halone e he hsame
    · rw [List.mem_singleton.mp he,hother filename (List.mem_singleton_self _)] at hsame
      cases hsame
  | delete filename ctx =>
    obtain ⟨_,rfl⟩ := hnew
    refine ⟨List.mem_filter.mpr ⟨hmem,?_⟩,fun e he => halone e (List.mem_of_mem_filter he)⟩
    simpa using hne filename (List.mem_singleton_self _)
  | rename oldName newName ctx =>
    obtain ⟨_,_,rfl⟩ := hnew
    have hfix : relabel oldName newName entry = entry :=
      if_neg (hne oldName (by simp [Call.filenames]))
    refine ⟨List.mem_map.mpr ⟨entry,hmem,hfix⟩,fun e he hsame => ?_⟩
    obtain ⟨f,hf,rfl⟩ := List.mem_map.mp he
    unfold relabel at hsame ⊢
    split at hsame
    · rw [hother newName (by simp [Call.filenames])] at hsame
      cases hsame
    · rename_i hold
      rw [if_neg hold]
      exact halone f hf hsame

/-- Calls about other files leave the entry, its uniqueness and its blocks. -/
theorem stored_step {build : Profile} {d d' : NvmeController} {t : ExtentTable (List Char) 1}
    (h : Represents d t) {name : List Char} {data : Slice} {entry : FileEntry}
    (hs : Stored name data entry d) {c : Call} (hstep : (othersHistory build name).step d c d') :
    Stored name data entry d' := by
  obtain ⟨hother,⟨hc,hfit⟩,hstep⟩ := hstep
  have hstepped := history_step h.lists.one_le_next hc hstep
  have hone := h.lists.one_le_start hs.listed
  have hblocks : ∀ j < (blocksNeeded data).toNat, ∀ lba : UInt64,
      lba.toNat = entry.startLba.toNat + j → d'.blocks lba = .ofData (chunk data j) := by
    intro j hj lba hl
    have hne : lba ≠ 0 := ne_zero_of_pos (by omega)
    have hcov : entry.extent.Covers lba.toNat := by
      simp only [Extent.Covers,Extent.stop,FileEntry.extent,hs.count_eq]
      omega
    rw [hstepped.blocks lba hne (h.lists.not_span hs.listed hcov c),hs.blocks j hj lba hl]
  rcases hstepped.table with hsame | ⟨entries,htable,hin,hblock⟩
  · have hlisted := listed_congr hsame
    exact ⟨hlisted ▸ hs.listed,hs.name_eq,hs.count_eq,hlisted ▸ hs.alone,hblocks⟩
  · have hlisted := (hc.written hfit htable hblock).1
    have hkept := hother.keeps h.lists.nodup htable hs.listed hs.name_eq hs.alone
    rw [← hlisted] at hkept
    exact ⟨hkept.1,hs.name_eq,hs.count_eq,hkept.2,hblocks⟩

theorem lookup_stored {name : List Char} {data : Slice} {entry : FileEntry} {d : NvmeController}
    (hi : Intact d) (h : Stored name data entry d) : lookup (d.blocks 0) name = some entry := by
  rw [lookup_listed hi]
  have hsame : sameName entry.name name = true := by rw [h.name_eq,sameName_refl]
  have hsome : ((Mfs.listed d).find? fun e => sameName e.name name).isSome :=
    List.find?_isSome.mpr ⟨entry,h.listed,hsame⟩
  obtain ⟨e,he⟩ := Option.isSome_iff_exists.mp hsome
  have heq := h.alone e (List.mem_of_find?_eq_some he)
    (List.find?_some (p := fun e : FileEntry => sameName e.name name) he)
  rw [he,heq]

theorem bytesAt_firstBlock_magic {data : Slice} (h : mdoMagic <+: data.bytes) :
    bytesAt (firstBlock data) 0 4 = mdoMagic := by
  have hpre : mdoMagic <+: (firstBlock data).1 := by
    rw [firstBlock,Block.ofData_bytes (length_chunk data 0)]
    refine List.prefix_append_of_prefix ?_
    rw [chunk,Nat.mul_zero,List.drop_zero,List.prefix_take_iff]
    exact ⟨h,by decide⟩
  rw [bytesAt,List.drop_zero]
  exact (List.prefix_iff_eq_take.mp hpre).symm

/-- The gate of a saved MDO file asks its policy. -/
theorem gate_firstBlock {data : Slice} (hmagic : mdoMagic <+: data.bytes)
    (hlen : bytecodeLen (firstBlock data) ≤ 3968) {ctx : MdoContext}
    (hpolicy : MdoVm.executeMictCheck (bytecodeOf (firstBlock data)) ctx = .ok ()) :
    gate (firstBlock data) ctx = .ok (128 + bytecodeLen (firstBlock data)) := by
  refine gate_ok fun hdenied => ?_
  rcases hdenied with hm | hl | hp
  · exact hm (bytesAt_firstBlock_magic hmagic)
  · omega
  · exact hp hpolicy

theorem blocksNeeded_pos {data : Slice} (h : mdoMagic <+: data.bytes) :
    1 ≤ (blocksNeeded data).toNat := by
  have hlen : 4 ≤ data.bytes.length := h.length_le
  rw [toNat_blocksNeeded]
  omega

/-- Putting the blocks of a stored file together again. -/
theorem payload_stored {name : List Char} {data : Slice} {entry : FileEntry} {d : NvmeController}
    (h : Stored name data entry d) (hpos : 1 ≤ (blocksNeeded data).toNat)
    (hstop : entry.extent.stop ≤ 2^64) {offset : ℕ} (ho : offset ≤ 4096) :
    payload d entry offset = (padded data).drop offset := by
  have hfirst : d.blocks entry.startLba = .ofData (chunk data 0) := h.blocks 0 hpos _ rfl
  have hrest : (List.range' 1 (entry.blockCount.toNat - 1)).flatMap
      (fun j => (d.blocks (entry.startLba + .ofNat j)).1) =
      (List.range' 1 ((blocksNeeded data).toNat - 1)).flatMap fun j => (Block.ofData (chunk data j)).1 := by
    rw [h.count_eq]
    refine List.flatMap_congr fun j hj => ?_
    obtain ⟨hlo,hhi⟩ := List.mem_range'_1.mp hj
    simp only [Extent.stop,FileEntry.extent,h.count_eq] at hstop
    rw [h.blocks j (by omega) _ (toNat_lba (by omega))]
  have hrange : List.range (blocksNeeded data).toNat =
      0::List.range' 1 ((blocksNeeded data).toNat - 1) := by
    rw [List.range_eq_range',← Nat.sub_add_cancel hpos,List.range'_succ,Nat.add_sub_cancel]
  rw [payload,hfirst,hrest,← flatMap_chunk,hrange,List.flatMap_cons,
    List.drop_append_of_le_length (by rw [(Block.ofData (chunk data 0)).2]; exact ho)]

/-- `vault.mdo` as the kernel saves it at boot. -/
def vaultData : Slice := ⟨forgeDummyMdoPayload,by rw [length_forgeDummyMdoPayload]; norm_num⟩

theorem firstBlock_vaultData : firstBlock vaultData = vaultDrive.blocks 1 := by
  have hchunk : chunk vaultData 0 = forgeDummyMdoPayload :=
    List.take_of_length_le length_forgeDummyMdoPayload.le
  rw [firstBlock,hchunk]
  rfl

theorem blocksNeeded_vaultData : blocksNeeded vaultData = 1 := by
  apply UInt64.toNat_inj.mp
  rw [toNat_blocksNeeded,vaultData,length_forgeDummyMdoPayload]
  rfl

theorem padded_vaultData : padded vaultData = forgeDummyMdoPayload := by
  rw [padded,blocksNeeded_vaultData,vaultData,length_forgeDummyMdoPayload]
  exact List.append_nil _

end Mfs
end PolymorphOS
