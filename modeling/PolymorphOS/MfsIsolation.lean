import PolymorphOS.MfsContents

/-! Isolation of files from each other: two runs of a call on drives that agree on some
blocks, and the blocks on which its outcome depends. -/
namespace PolymorphOS
namespace Mfs

open Kernel NvmeController

/-- Two drives in the same state as far as the blocks of `R` go. -/
structure Alike (R : UInt64 → Prop) (d₁ d₂ : NvmeController) : Prop where
  status : d₁.status = d₂.status
  log : d₁.log = d₂.log
  blocks : ∀ lba, R lba → d₁.blocks lba = d₂.blocks lba

/-- Two runs returned the same and left the drives alike. -/
inductive SameOutcome (R : UInt64 → Prop) {A : Type} :
    EStateM.Result Fault (Option NvmeController) A →
    EStateM.Result Fault (Option NvmeController) A → Prop
  | ok (a : A) {d₁ d₂ : NvmeController} (alike : Alike R d₁ d₂) :
      SameOutcome R (.ok a (some d₁)) (.ok a (some d₂))
  | error (e : Fault) {d₁ d₂ : NvmeController} (alike : Alike R d₁ d₂) :
      SameOutcome R (.error e (some d₁)) (.error e (some d₂))

section

variable {R : UInt64 → Prop} {A B : Type} {d₁ d₂ : NvmeController}

theorem Alike.succeeds (h : Alike R d₁ d₂) :
    d₁.Succeeds d₁.log.length ↔ d₂.Succeeds d₂.log.length := by
  rw [Succeeds,Succeeds,h.status,h.log]

theorem Alike.issued (h : Alike R d₁ d₂) (cmd : IoCmd) : Alike R (d₁.issued cmd) (d₂.issued cmd) :=
  ⟨h.status,by rw [issued_log,issued_log,h.log],h.blocks⟩

theorem Alike.written (h : Alike R d₁ d₂) (lba : UInt64) (block : Block) :
    Alike R (d₁.written lba block) (d₂.written lba block) := by
  refine ⟨h.status,by rw [written_log,written_log,h.log],fun l hl => ?_⟩
  rw [written_blocks,written_blocks]
  by_cases he : l = lba
  · rw [he,Function.update_self,Function.update_self]
  · rw [Function.update_of_ne he,Function.update_of_ne he]
    exact h.blocks l hl

theorem SameOutcome.bind {x : Kernel A} {f : A → Kernel B}
    (h : SameOutcome R (x (some d₁)) (x (some d₂)))
    (hf : ∀ a d₁' d₂', x (some d₁) = .ok a (some d₁') → Alike R d₁' d₂' →
      SameOutcome R (f a (some d₁')) (f a (some d₂'))) :
    SameOutcome R ((x >>= f) (some d₁)) ((x >>= f) (some d₂)) := by
  generalize h₁ : x (some d₁) = r₁ at h
  generalize h₂ : x (some d₂) = r₂ at h
  cases h with
  | ok a alike =>
    rw [bind_ok h₁,bind_ok h₂]
    exact hf a _ _ h₁ alike
  | error e alike =>
    rw [bind_error h₁,bind_error h₂]
    exact .error e alike

theorem same_yield (h : Alike R d₁ d₂) (r : Except Fault A) :
    SameOutcome R (yield r (some d₁)) (yield r (some d₂)) := by
  cases r with
  | ok a => exact .ok a h
  | error e => exact .error e h

theorem same_read (h : Alike R d₁ d₂) (message : String) {lba : UInt64} (hR : R lba) :
    SameOutcome R (nvme message (·.readBlock lba) (some d₁)) (nvme message (·.readBlock lba) (some d₂)) := by
  by_cases hs : d₁.Succeeds d₁.log.length
  · rw [nvme_read_ok _ _ hs,nvme_read_ok _ _ (h.succeeds.mp hs),h.blocks lba hR]
    exact .ok _ (h.issued _)
  · rw [nvme_read_error _ _ hs,nvme_read_error _ _ fun hs' => hs (h.succeeds.mpr hs')]
    exact .error _ (h.issued _)

theorem same_writeMft (h : Alike R d₁ d₂) (entries : List FileEntry) :
    SameOutcome R (writeMft entries (some d₁)) (writeMft entries (some d₂)) := by
  by_cases hs : d₁.Succeeds d₁.log.length
  · rw [writeMft_ok _ hs,writeMft_ok _ (h.succeeds.mp hs)]
    exact .ok () (h.written _ _)
  · rw [writeMft_error _ hs,writeMft_error _ fun hs' => hs (h.succeeds.mpr hs')]
    exact .error _ (h.issued _)

theorem same_readMft (h : Alike R d₁ d₂) (h0 : R 0) :
    SameOutcome R (readMft (some d₁)) (readMft (some d₂)) :=
  (same_read h _ h0).bind fun a _ _ _ h' => .ok (parseMft a) h'

theorem same_verify (h : Alike R d₁ d₂) {lba : UInt64} (hR : R lba) (ctx : MdoContext) :
    SameOutcome R (verifyMdoAccess lba ctx (some d₁)) (verifyMdoAccess lba ctx (some d₂)) :=
  (same_read h _ hR).bind fun _ _ _ _ h' => same_yield h' _

theorem same_findFile (h : Alike R d₁ d₂) (h0 : R 0) (name : List Char) :
    SameOutcome R (findFile name (some d₁)) (findFile name (some d₂)) := by
  by_cases hs : d₁.Succeeds d₁.log.length
  · rw [findFile_ok _ hs,findFile_ok _ (h.succeeds.mp hs),h.blocks 0 h0]
    exact .ok _ (h.issued _)
  · rw [findFile,findFile,d₁.readBlock_eq,d₂.readBlock_eq,if_neg hs,
      if_neg fun hs' => hs (h.succeeds.mpr hs')]
    exact .ok none (h.issued _)

theorem same_readBlocks (h : Alike R d₁ d₂) (build : Profile) (start : UInt64) (i n : ℕ)
    (hrange : start.toNat + i + n ≤ 2^64)
    (hR : ∀ lba : UInt64, start.toNat ≤ lba.toNat → lba.toNat < start.toNat + i + n → R lba) :
    SameOutcome R (readBlocks build start i n (some d₁)) (readBlocks build start i n (some d₂)) := by
  induction n generalizing i d₁ d₂ with
  | zero => exact .ok [] h
  | succ n ih =>
    have hlba : (start + UInt64.ofNat i).toNat = start.toNat + i := toNat_lba (by omega)
    refine SameOutcome.bind (same_yield h _) fun lba d₁' d₂' hadd h' => ?_
    rw [lba_ok build (by omega)] at hadd
    cases hadd
    refine (same_read h' _ (hR _ (by omega) (by omega))).bind fun buffer _ _ _ h'' => ?_
    refine (ih h'' (i+1) (by omega) fun lba h₁ h₂ => hR lba h₁ (by omega)).bind
      fun rest _ _ _ h''' => ?_
    exact .ok _ h'''

end

/-- Block 0 and the blocks of the file. -/
def Own (f : FileEntry) (lba : UInt64) : Prop := lba = 0 ∨ f.extent.Covers lba.toNat

/-- Reading, deleting and renaming the file goes the same way on any two drives with this
table and these blocks of the file. -/
def Isolated (build : Profile) (d : NvmeController) (f : FileEntry) : Prop :=
  ∀ d₁ d₂ : NvmeController, (∀ lba, Own f lba → d₁.blocks lba = d.blocks lba) →
    (∀ lba, Own f lba → d₂.blocks lba = d.blocks lba) → d₁.status = d₂.status → d₁.log = d₂.log →
    ∀ ctx newName,
      SameOutcome (Own f) (readFile build f.name ctx (some d₁)) (readFile build f.name ctx (some d₂)) ∧
      SameOutcome (Own f) (deleteFile f.name ctx (some d₁)) (deleteFile f.name ctx (some d₂)) ∧
      SameOutcome (Own f) (renameFile f.name newName ctx (some d₁))
        (renameFile f.name newName ctx (some d₂))

theorem own_start {f : FileEntry} (h : 1 ≤ f.blockCount.toNat) : Own f f.startLba := by
  right
  simp only [Extent.Covers,Extent.stop,FileEntry.extent]
  omega

/-- With distinct names an exact match is the file itself. -/
theorem position_eq {entries : List FileEntry} (hn : (names entries).Nodup) {f : FileEntry}
    (hf : f ∈ entries) {pos : Fin entries.length}
    (hpos : entries.findFinIdx? (·.name == f.name) = some pos) : entries.get pos = f := by
  have hname : (entries.get pos).name = f.name := by
    simpa using (List.findFinIdx?_eq_some_iff.mp hpos).1
  exact List.inj_on_of_nodup_map hn (List.getElem_mem _) hf hname

section

variable {build : Profile} {d d₁ d₂ : NvmeController} {t : ExtentTable (List Char) 1} {f : FileEntry}

theorem same_gated_write (h : Alike (Own f) d₁ d₂) (hcount : 1 ≤ f.blockCount.toNat)
    {listing : List FileEntry} (hn : (names listing).Nodup) (hf : f ∈ listing)
    {pos : Fin listing.length} (hpos : listing.findFinIdx? (·.name == f.name) = some pos)
    (ctx : MdoContext) (entries : List FileEntry) :
    SameOutcome (Own f)
      ((verifyMdoAccess (listing.get pos).startLba ctx >>= fun _ => writeMft entries) (some d₁))
      ((verifyMdoAccess (listing.get pos).startLba ctx >>= fun _ => writeMft entries) (some d₂)) := by
  rw [position_eq hn hf hpos]
  exact (same_verify h (own_start hcount) ctx).bind fun _ _ _ _ h' => same_writeMft h' entries

theorem same_deleteFile (hn : (names (listed d₁)).Nodup) (hf : f ∈ listed d₁)
    (h : Alike (Own f) d₁ d₂) (hcount : 1 ≤ f.blockCount.toNat) (ctx : MdoContext) :
    SameOutcome (Own f) (deleteFile f.name ctx (some d₁)) (deleteFile f.name ctx (some d₂)) := by
  refine (same_readMft h (.inl rfl)).bind fun entries d₁' d₂' hread h' => ?_
  obtain ⟨_,heq,rfl⟩ := readMft_result hread
  cases heq
  cases hpos : (listed d₁).findFinIdx? (·.name == f.name) with
  | none => exact .error _ h'
  | some pos => exact same_gated_write h' hcount hn hf hpos ctx _

theorem same_renameFile (hn : (names (listed d₁)).Nodup) (hf : f ∈ listed d₁)
    (h : Alike (Own f) d₁ d₂) (hcount : 1 ≤ f.blockCount.toNat) (newName : List Char)
    (ctx : MdoContext) :
    SameOutcome (Own f) (renameFile f.name newName ctx (some d₁))
      (renameFile f.name newName ctx (some d₂)) := by
  refine (same_readMft h (.inl rfl)).bind fun entries d₁' d₂' hread h' => ?_
  obtain ⟨_,heq,rfl⟩ := readMft_result hread
  cases heq
  by_cases hnew : (listed d₁).any (·.name == newName)
  · simp only [hnew,if_true]
    exact .error _ h'
  simp only [hnew,Bool.false_eq_true,if_false]
  cases hpos : (listed d₁).findFinIdx? (·.name == f.name) with
  | none => exact .error _ h'
  | some pos => exact same_gated_write h' hcount hn hf hpos ctx _

theorem same_readFile {e : FileEntry} (hlookup : lookup (d₁.blocks 0) f.name = some e)
    (h : Alike (Own f) d₁ d₂) (hcount : 1 ≤ f.blockCount.toNat) (hstart : e.startLba = f.startLba)
    (hstop : e.extent.stop ≤ f.extent.stop) (hle : f.extent.stop ≤ 2^64) (ctx : MdoContext) :
    SameOutcome (Own f) (readFile build f.name ctx (some d₁)) (readFile build f.name ctx (some d₂)) := by
  refine (same_findFile h (.inl rfl) _).bind fun found d₁' d₂' hfind h' => ?_
  cases found with
  | none => exact .error _ h'
  | some e' =>
    obtain ⟨_,hfound,_⟩ := findFile_some_iff.mp hfind
    have heq : e' = e := Option.some.inj (hfound.symm.trans hlookup)
    subst heq
    have hown : Own f e'.startLba := hstart ▸ own_start hcount
    simp only [Extent.stop,FileEntry.extent] at hstop hle
    have hsame : e'.startLba.toNat = f.startLba.toNat := by rw [hstart]
    refine (same_verify h' hown ctx).bind fun offset _ _ _ h₁ => ?_
    refine (same_yield h₁ _).bind fun _ _ _ _ h₂ => ?_
    refine (same_read h₂ _ hown).bind fun buffer _ _ _ h₃ => ?_
    refine (same_readBlocks h₃ build _ 1 _ (by omega) fun lba hlo hhi => ?_).bind
      fun rest _ _ _ h₄ => .ok _ h₄
    right
    simp only [Extent.Covers,Extent.stop,FileEntry.extent]
    omega

/-- A file with a block of its own, the first that its name finds, is isolated. -/
theorem isolated_of_first (h : Represents d t) (hf : f ∈ listed d) (hcount : 1 ≤ f.blockCount.toNat)
    (hfirst : ∀ e, (listed d).find? (fun e => sameName e.name f.name) = some e →
      e.startLba = f.startLba) : Isolated build d f := by
  intro d₁ d₂ h₁ h₂ hstatus hlog ctx newName
  have halike : Alike (Own f) d₁ d₂ := ⟨hstatus,hlog,fun lba hl => (h₁ lba hl).trans (h₂ lba hl).symm⟩
  have hzero : d₁.blocks 0 = d.blocks 0 := h₁ 0 (.inl rfl)
  have hlisted := listed_congr hzero
  have hn : (names (listed d₁)).Nodup := hlisted ▸ h.lists.nodup
  have hf₁ : f ∈ listed d₁ := hlisted ▸ hf
  refine ⟨?_,same_deleteFile hn hf₁ halike hcount ctx,same_renameFile hn hf₁ halike hcount newName ctx⟩
  have hsome : ((listed d).find? fun e => sameName e.name f.name).isSome :=
    List.find?_isSome.mpr ⟨f,hf,sameName_refl _⟩
  obtain ⟨e,he⟩ := Option.isSome_iff_exists.mp hsome
  have hstart := hfirst e he
  have hstop : e.extent.stop ≤ f.extent.stop := by
    by_cases heq : e.extent = f.extent
    · rw [heq]
    · have happ := t.apart (h.lists.mem (List.mem_of_find?_eq_some he)) (h.lists.mem hf) heq
      simp only [Extent.Apart,Extent.stop,FileEntry.extent,hstart] at *
      omega
  rw [← lookup_listed h.intact,← hzero] at he
  exact same_readFile he halike hcount hstart hstop (h.stop_le f hf) ctx

/-- A first block that any request may pass: `HALT_OK` is its whole script. -/
def openBlock : Block :=
  .ofData (mdoMagic ++ List.replicate 72 0 ++ [1,0,0,0] ++ List.replicate 48 0 ++ [MdoVm.opHaltOk])

theorem gate_openBlock (ctx : MdoContext) : ∃ offset, gate openBlock ctx = .ok offset := by
  have hcode : bytecodeOf openBlock = [MdoVm.opHaltOk] := by decide
  refine ⟨_,gate_ok fun hdenied => ?_⟩
  rcases hdenied with hm | hl | hp
  · exact hm (by decide)
  · exact absurd hl (by decide)
  · refine hp ?_
    rw [hcode,MdoVm.executeMictCheck_eq]
    simp [MdoVm.policy,MdoVm.fetch,MdoVm.opHaltOk,MdoVm.opPushVar,MdoVm.opPushConstHash,MdoVm.opEq,
      MdoVm.opNeq,MdoVm.opAssertOrDissonance,MdoVm.verdict_nil]

theorem gate_zero (ctx : MdoContext) : ∃ message, gate .zero ctx = .error message :=
  gate_error (.inl (by decide))

/-- The drive with one block replaced, and no failures. -/
def withBlock (d : NvmeController) (lba : UInt64) (block : Block) : NvmeController :=
  ⟨Function.update d.blocks lba block,fun _ => 0,[]⟩

theorem withBlock_healthy (d : NvmeController) (lba : UInt64) (block : Block) :
    (withBlock d lba block).Healthy := fun _ => show (0 : UInt16) >>> 1 = 0 by decide

theorem withBlock_self (d : NvmeController) (lba : UInt64) (block : Block) :
    (withBlock d lba block).blocks lba = block := Function.update_self _ _ _

theorem withBlock_own {lba : UInt64} (hl : ¬Own f lba) (block : Block) :
    ∀ l, Own f l → (withBlock d lba block).blocks l = d.blocks l :=
  fun l ho => Function.update_of_ne (fun he : l = lba => hl (he ▸ ho)) _ _

/-- A successful run and a failed one are not the same outcome. -/
theorem not_same_of_error {R : UInt64 → Prop} {A : Type} {x : Kernel A} {a : A} {fault : Fault}
    {s₁ s₂ : Option NvmeController} (h₁ : x (some d₁) = .ok a s₁) (h₂ : x (some d₂) = .error fault s₂) :
    ¬SameOutcome R (x (some d₁)) (x (some d₂)) := by
  rw [h₁,h₂]
  intro h
  cases h

theorem resolveExact_of_mem (hn : (names (listed d)).Nodup) (hf : f ∈ listed d) :
    resolveExact (listed d) f.name = some f := by
  have hsome : ((listed d).find? (·.name == f.name)).isSome :=
    List.find?_isSome.mpr ⟨f,hf,by simp⟩
  obtain ⟨e,he⟩ := Option.isSome_iff_exists.mp hsome
  have hname : e.name = f.name := by
    simpa using List.find?_some (p := fun e : FileEntry => e.name == f.name) he
  rw [resolveExact_eq,he,List.inj_on_of_nodup_map hn (List.mem_of_find?_eq_some he) hf hname]

theorem deleteFile_granted (hd : d.Healthy) {name : List Char} {entry : FileEntry} {ctx : MdoContext}
    {offset : ℕ} (he : resolveExact (listed d) name = some entry)
    (hg : gate (d.blocks entry.startLba) ctx = .ok offset) :
    ∃ s, deleteFile name ctx (some d) = .ok () s := by
  obtain ⟨pos,hpos,hentry⟩ := Option.map_eq_some_iff.mp he
  have htable : (Call.delete name ctx).newTable (listed d) ≠ none := by
    rw [Call.newTable,hpos]
    exact Option.some_ne_none _
  rw [resolveExact_eq] at he
  have hout := Call.delete_outcome name ctx d
  generalize deleteFile name ctx (some d) = r at hout
  cases hout with
  | done => exact ⟨_,rfl⟩
  | rejected _ _ hstopped =>
    rcases hstopped with h | h | ⟨entry',he',h | h | h⟩
    · exact absurd (hd _) h
    · exact absurd h htable
    · exact absurd (hd _) h
    · rw [he] at he'
      cases he'
      exact absurd hg (h offset)
    · exact absurd (hd _) h
  | overflow _ _ hout => exact absurd trivial hout

/-- A file without a block: its gate reads a block that belongs to others. -/
theorem not_isolated_of_empty (h : Represents d t) (hf : f ∈ listed d)
    (hcount : f.blockCount.toNat = 0) : ¬Isolated build d f := by
  have hown : ¬Own f f.startLba := by
    rintro (h0 | hcov)
    · have hone := h.lists.one_le_start hf
      rw [h0] at hone
      exact absurd hone (by decide)
    · simp only [Extent.Covers,Extent.stop,FileEntry.extent,hcount] at hcov
      omega
  have hexact : ∀ block, resolveExact (listed (withBlock d f.startLba block)) f.name = some f := by
    intro block
    rw [listed_congr (withBlock_own hown block 0 (.inl rfl))]
    exact resolveExact_of_mem h.lists.nodup hf
  intro hi
  obtain ⟨offset,hopen⟩ := gate_openBlock ⟨MdoVm.zeroHash,MdoVm.zeroHash,MdoVm.zeroHash,0⟩
  obtain ⟨message,hshut⟩ := gate_zero ⟨MdoVm.zeroHash,MdoVm.zeroHash,MdoVm.zeroHash,0⟩
  rw [← withBlock_self d f.startLba openBlock] at hopen
  rw [← withBlock_self d f.startLba .zero] at hshut
  obtain ⟨s,h₁⟩ := deleteFile_granted (withBlock_healthy d _ _) (hexact openBlock) hopen
  have h₂ := deleteFile_denied (withBlock_healthy d _ _) (hexact .zero) hshut
  exact not_same_of_error h₁ h₂
    (hi _ _ (withBlock_own hown openBlock) (withBlock_own hown .zero) rfl rfl _ f.name).2.1

/-- A file behind another of the same name: reading it reads the other. -/
theorem not_isolated_of_shadowed (h : Represents d t) (hf : f ∈ listed d) {e : FileEntry}
    (he : (listed d).find? (fun e => sameName e.name f.name) = some e)
    (hstart : e.startLba ≠ f.startLba) : ¬Isolated build d f := by
  have hmem := List.mem_of_find?_eq_some he
  have hown : ¬Own f e.startLba := by
    rintro (h0 | hcov)
    · have hone := h.lists.one_le_start hmem
      rw [h0] at hone
      exact absurd hone (by decide)
    · have hne : e.extent ≠ f.extent := fun heq =>
        hstart (UInt64.toNat_inj.mp (congrArg Extent.start heq))
      have happ := t.apart (h.lists.mem hmem) (h.lists.mem hf) hne
      have hnat : e.startLba.toNat ≠ f.startLba.toNat := fun heq => hstart (UInt64.toNat_inj.mp heq)
      simp only [Extent.Covers,Extent.Apart,Extent.stop,FileEntry.extent] at *
      omega
  have hlookup : ∀ block, lookup ((withBlock d e.startLba block).blocks 0) f.name = some e :=
    fun block => by rw [withBlock_own hown block 0 (.inl rfl),lookup_listed h.intact,he]
  intro hi
  obtain ⟨offset,hopen⟩ := gate_openBlock ⟨MdoVm.zeroHash,MdoVm.zeroHash,MdoVm.zeroHash,0⟩
  obtain ⟨message,hshut⟩ := gate_zero ⟨MdoVm.zeroHash,MdoVm.zeroHash,MdoVm.zeroHash,0⟩
  rw [← withBlock_self d e.startLba openBlock] at hopen
  rw [← withBlock_self d e.startLba .zero] at hshut
  obtain ⟨s,h₁⟩ := readFile_granted build (withBlock_healthy d _ _) (hlookup openBlock) hopen
    (h.stop_le e hmem) (h.count_lt e hmem)
  have h₂ := readFile_denied build (withBlock_healthy d _ _) (hlookup .zero) hshut
  exact not_same_of_error h₁ h₂
    (hi _ _ (withBlock_own hown openBlock) (withBlock_own hown .zero) rfl rfl _ f.name).1

end

/-- In every state of a history, a listed file is isolated exactly when it has a block and
is the file its name finds. -/
theorem isolated_iff {build : Profile} {d : NvmeController} (h : (fittingHistory build).Reachable d)
    {f : FileEntry} (hf : f ∈ listed d) : Isolated build d f ↔ 1 ≤ f.blockCount.toNat ∧
      ∀ e, (listed d).find? (fun e => sameName e.name f.name) = some e → e.startLba = f.startLba := by
  obtain ⟨t,_,hr⟩ := history_refines h
  refine ⟨fun hi => ⟨?_,fun e he => ?_⟩,fun hi => isolated_of_first hr hf hi.1 hi.2⟩
  · by_contra hzero
    exact not_isolated_of_empty hr hf (by omega) hi
  · by_contra hstart
    exact not_isolated_of_shadowed hr hf he hstart hi

theorem isolated_first_file : ∃ d',
    saveFile .dev ['a'] ⟨[42],by decide⟩ (some blankDrive) = .ok () (some d') ∧
    Isolated .dev d' ⟨['a'],1,1⟩ := by
  obtain ⟨d',hrun,hreach,_,hlisted⟩ :=
    save_first .dev ['a'] ⟨[42],by decide⟩ (by decide) ⟨by decide,by decide⟩ (by decide)
  refine ⟨d',hrun,(isolated_iff hreach (by rw [hlisted]; exact List.mem_singleton_self _)).mpr ?_⟩
  rw [hlisted]
  refine ⟨by decide,fun e he => ?_⟩
  rw [List.mem_singleton.mp (List.mem_of_find?_eq_some he)]

/-- An empty file has no block; whether it can be deleted depends on what lies at LBA 1. -/
theorem empty_file_not_isolated : ∃ d',
    saveFile .dev ['a'] ⟨[],by decide⟩ (some blankDrive) = .ok () (some d') ∧
    (fittingHistory .dev).Reachable d' ∧ listed d' = [⟨['a'],1,0⟩] ∧
    ¬Isolated .dev d' ⟨['a'],1,0⟩ := by
  obtain ⟨d',hrun,hreach,_,hlisted⟩ :=
    save_first .dev ['a'] ⟨[],by decide⟩ (by decide) ⟨by decide,by decide⟩ (by decide)
  obtain ⟨_,_,hr⟩ := history_refines hreach
  exact ⟨d',hrun,hreach,hlisted,
    not_isolated_of_empty hr (by rw [hlisted]; exact List.mem_singleton_self _) rfl⟩

end Mfs
end PolymorphOS
