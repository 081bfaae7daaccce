import PolymorphOS.MftCodec

/-! What each call that changes the file system can do to the drive, whatever statuses
its commands complete with. -/
namespace PolymorphOS
namespace Mfs

open Kernel NvmeController

/-- The LBAs from `lo` up to `hi`. -/
def Within (lo hi : ℕ) (lba : UInt64) : Prop := lo ≤ lba.toNat ∧ lba.toNat < hi

/-- The table on the drive. -/
def listed (d : NvmeController) : List FileEntry := parseMft (d.blocks 0)

theorem listed_congr {d d' : NvmeController} (h : d'.blocks 0 = d.blocks 0) :
    listed d' = listed d := by
  rw [listed,h,listed]

theorem listed_clean (d : NvmeController) : AllClean (listed d) := parseMft_clean _

theorem readMft_ok {d : NvmeController} (h : d.Succeeds d.log.length) :
    readMft (some d) = .ok (listed d) (some (d.issued (.read 0))) := by
  rw [readMft,bind_ok (nvme_read_ok _ _ h)]
  rfl

theorem readMft_error {d : NvmeController} (h : ¬d.Succeeds d.log.length) :
    readMft (some d) = .error (.err "MFT Read Failed") (some (d.issued (.read 0))) :=
  bind_error (nvme_read_error _ _ h)

theorem readMft_iff {d : NvmeController} {entries : List FileEntry} {t : Option NvmeController} :
    readMft (some d) = .ok entries t ↔
      d.Succeeds d.log.length ∧ entries = listed d ∧ t = some (d.issued (.read 0)) := by
  by_cases hs : d.Succeeds d.log.length
  · rw [readMft_ok hs]
    constructor
    · rintro ⟨⟩
      exact ⟨hs,rfl,rfl⟩
    · rintro ⟨_,rfl,rfl⟩
      rfl
  · rw [readMft_error hs]
    exact iff_of_false (fun h => nomatch h) fun h => hs h.1

theorem readMft_result {s s' : Option NvmeController} {entries : List FileEntry}
    (h : readMft s = .ok entries s') : ∃ d, s = some d ∧ entries = listed d := by
  cases s with
  | none => cases h
  | some d => exact ⟨d,rfl,(readMft_iff.mp h).2.1⟩

theorem writeMft_ok {d : NvmeController} (entries : List FileEntry) (h : d.Succeeds d.log.length) :
    writeMft entries (some d) = .ok () (some (d.written 0 (mftBlock entries))) := by
  rw [writeMft,nvme_write_ok _ _ (mftBlock entries).2.le h,Block.ofData_self]

theorem writeMft_error {d : NvmeController} (entries : List FileEntry)
    (h : ¬d.Succeeds d.log.length) : writeMft entries (some d) =
      .error (.err "MFT Write Failed") (some (d.issued (.write 0 (mftBlock entries)))) := by
  rw [writeMft,nvme_write_error _ _ (mftBlock entries).2.le h,Block.ofData_self]

theorem writeMft_iff {d : NvmeController} {entries : List FileEntry} {t : Option NvmeController} :
    writeMft entries (some d) = .ok () t ↔
      d.Succeeds d.log.length ∧ t = some (d.written 0 (mftBlock entries)) := by
  rw [writeMft,nvme_write_iff (mftBlock entries).2.le,Block.ofData_self]

theorem writeMft_result {s s' : Option NvmeController} {entries : List FileEntry}
    (h : writeMft entries s = .ok () s') :
    ∃ d : NvmeController, s' = some (d.written 0 (mftBlock entries)) := by
  cases s with
  | none => cases h
  | some d => exact ⟨d,(writeMft_iff.mp h).2⟩

theorem verifyMdoAccess_read {d : NvmeController} (lba : UInt64) (ctx : MdoContext)
    (h : d.Succeeds d.log.length) : verifyMdoAccess lba ctx (some d) =
      ofErr (gate (d.blocks lba) ctx) (some (d.issued (.read lba))) :=
  bind_ok (nvme_read_ok _ _ h)

theorem verifyMdoAccess_error {d : NvmeController} (lba : UInt64) (ctx : MdoContext)
    (h : ¬d.Succeeds d.log.length) : verifyMdoAccess lba ctx (some d) =
      .error (.err "Hardware read failed") (some (d.issued (.read lba))) :=
  bind_error (nvme_read_error _ _ h)

theorem verifyMdoAccess_iff {d : NvmeController} {lba : UInt64} {ctx : MdoContext} {offset : ℕ}
    {t : Option NvmeController} : verifyMdoAccess lba ctx (some d) = .ok offset t ↔
      d.Succeeds d.log.length ∧ gate (d.blocks lba) ctx = .ok offset ∧
        t = some (d.issued (.read lba)) := by
  by_cases hs : d.Succeeds d.log.length
  · rw [verifyMdoAccess_read lba ctx hs,ofErr_iff]
    exact (and_iff_right hs).symm
  · rw [verifyMdoAccess_error lba ctx hs]
    exact iff_of_false (fun h => nomatch h) fun h => hs h.1

theorem length_chunk (data : Slice) (i : ℕ) : (chunk data i).length ≤ 4096 := by
  simp [chunk]

theorem toNat_blocksNeeded (data : Slice) :
    (blocksNeeded data).toNat = (data.bytes.length + 4095)/4096 := by
  have h := data.length_lt
  have hn : (UInt64.ofNat data.bytes.length).toNat = data.bytes.length :=
    UInt64.toNat_ofNat_of_lt' (show _ < 2^64 by omega)
  have hk : (4095 : UInt64).toNat = 4095 ∧ (4096 : UInt64).toNat = 4096 := ⟨rfl,rfl⟩
  rw [blocksNeeded,UInt64.toNat_div,UInt64.toNat_add,hn,hk.1,hk.2]
  omega

theorem blocksNeeded_lt (data : Slice) : (blocksNeeded data).toNat < 2^52 := by
  have h := data.length_lt
  rw [toNat_blocksNeeded]
  omega

/-- Where the next file goes, as a number. -/
def nextOf (entries : List FileEntry) : ℕ :=
  match entries.getLast? with
  | none => 1
  | some lastEntry => lastEntry.startLba.toNat + lastEntry.blockCount.toNat

theorem addU64_dev {a b : UInt64} (h : 2^64 ≤ a.toNat + b.toNat) :
    addU64 .dev a b = .error .overflow := by
  rw [addU64,if_neg]
  simp only [reduceCtorEq,or_false]
  omega

theorem toNat_add {a b : UInt64} (h : a.toNat + b.toNat < 2^64) : (a + b).toNat = a.toNat + b.toNat := by
  rw [UInt64.toNat_add,Nat.mod_eq_of_lt h]

theorem toNat_ofNat {i : ℕ} (h : i < 2^64) : (UInt64.ofNat i).toNat = i :=
  UInt64.toNat_ofNat_of_lt' h

theorem ne_zero_of_pos {lba : UInt64} (h : 0 < lba.toNat) : lba ≠ 0 := by
  rintro rfl
  exact absurd h (lt_irrefl 0)

/-- The `i`-th LBA of a file. -/
theorem toNat_lba {start : UInt64} {i : ℕ} (h : start.toNat + i < 2^64) :
    (start + .ofNat i).toNat = start.toNat + i := by
  have hi : (UInt64.ofNat i).toNat = i := toNat_ofNat (by omega)
  rw [toNat_add (by rw [hi]; exact h),hi]

theorem lba_ok (build : Profile) {start : UInt64} {i : ℕ} (h : start.toNat + i < 2^64) :
    addU64 build start (.ofNat i) = .ok (start + .ofNat i) := by
  have hi : (UInt64.ofNat i).toNat = i := toNat_ofNat (by omega)
  exact addU64_ok build (by rw [hi]; exact h)

theorem nextLba_ok (build : Profile) {entries : List FileEntry} (h : nextOf entries < 2^64) :
    ∃ start : UInt64, nextLba build entries = .ok start ∧ start.toNat = nextOf entries := by
  unfold nextLba nextOf at *
  cases hl : entries.getLast? with
  | none => exact ⟨1,rfl,rfl⟩
  | some lastEntry =>
    simp only [hl] at h
    exact ⟨_,addU64_ok build h,toNat_add h⟩

theorem nextLba_overflow {entries : List FileEntry} (h : 2^64 ≤ nextOf entries) :
    nextLba .dev entries = .error .overflow := by
  unfold nextLba nextOf at *
  cases hl : entries.getLast? with
  | none =>
    simp only [hl] at h
    norm_num at h
  | some lastEntry =>
    simp only [hl] at h
    exact addU64_dev h

/-- What the loop of data writes from block `i` on did. -/
inductive WriteOutcome (start : UInt64) (data : Slice) (i n : ℕ) (d : NvmeController) :
    EStateM.Result Fault (Option NvmeController) Unit → Prop
  | done (d' : NvmeController)
      (succeeded : ∀ j < n, d.Succeeds (d.log.length + j))
      (inRange : start.toNat + i + n ≤ 2^64 ∨ n = 0)
      (frame : Frame (Within (start.toNat + i) (start.toNat + i + n)) d d')
      (issued : d'.log.length = d.log.length + n)
      (blocks : ∀ j < n, ∀ lba : UInt64, lba.toNat = start.toNat + i + j →
        d'.blocks lba = .ofData (chunk data (i + j))) :
      WriteOutcome start data i n d (.ok () (some d'))
  | failed (d' : NvmeController) (j : ℕ) (lt : j < n) (inRange : start.toNat + i + j < 2^64)
      (failure : ¬d.Succeeds (d.log.length + j))
      (frame : Frame (Within (start.toNat + i) (start.toNat + i + n)) d d') :
      WriteOutcome start data i n d (.error (.err "Data block write failed") (some d'))
  | overflow (d' : NvmeController) (outside : 2^64 < start.toNat + i + n)
      (succeeded : ∀ j, start.toNat + i + j < 2^64 → d.Succeeds (d.log.length + j)) :
      WriteOutcome start data i n d (.error (.panic .overflow) (some d'))

/-- One write succeeded, and the loop went on from block `i + 1`. -/
theorem WriteOutcome.cons {start : UInt64} {data : Slice} {i n : ℕ} {d : NvmeController}
    {r : EStateM.Result Fault (Option NvmeController) Unit} (hlt : start.toNat + i < 2^64)
    (hs : d.Succeeds d.log.length)
    (h : WriteOutcome start data (i+1) n
      (d.written (start + .ofNat i) (.ofData (chunk data i))) r) :
    WriteOutcome start data i (n+1) d r := by
  have hsum : (start + UInt64.ofNat i).toNat = start.toNat + i := toNat_lba hlt
  have hW : Within (start.toNat + i) (start.toNat + i + (n+1)) (start + .ofNat i) := by
    rw [Within,hsum]
    omega
  have hmono : ∀ lba, Within (start.toNat + (i+1)) (start.toNat + (i+1) + n) lba →
      Within (start.toNat + i) (start.toNat + i + (n+1)) lba := by
    intro lba hl
    simp only [Within] at *
    omega
  -- the commands of the rest are numbered one further
  have hlog : ∀ j, (d.written (start + .ofNat i) (.ofData (chunk data i))).Succeeds
      ((d.written (start + .ofNat i) (.ofData (chunk data i))).log.length + j) ↔
      d.Succeeds (d.log.length + (j+1)) := by
    intro j
    simp only [Succeeds,written_status,written_log,List.length_append,List.length_singleton]
    rw [Nat.add_right_comm,Nat.add_assoc]
  cases h with
  | done d' hsucc hrange hframe hissued hblocks =>
    refine .done d' ?_ (.inl (by omega)) ((Frame.write d _ hW).trans (hframe.mono hmono)) ?_ ?_
    · intro j hj
      cases j with
      | zero => exact hs
      | succ j => exact (hlog j).mp (hsucc j (by omega))
    · simp only [hissued,written_log,List.length_append,List.length_singleton]
      omega
    · intro j hj lba hl
      cases j with
      | zero =>
        have he : lba = start + .ofNat i := UInt64.toNat_inj.mp (by rw [hl,hsum]; rfl)
        rw [hframe.blocks lba (by simp only [Within]; omega),he,written_blocks,Function.update_self]
        rfl
      | succ j =>
        rw [hblocks j (by omega) lba (by omega)]
        congr 2
        omega
  | failed d' j hj hrange hfail hframe =>
    exact .failed d' (j+1) (by omega) (by omega) (fun h => hfail ((hlog j).mpr h))
      ((Frame.write d _ hW).trans (hframe.mono hmono))
  | overflow d' hout hsucc =>
    refine .overflow d' (by omega) fun j hj => ?_
    cases j with
    | zero => exact hs
    | succ j => exact (hlog j).mp (hsucc j (by omega))

theorem writeBlocks_outcome {build : Profile} {start : UInt64} (data : Slice) (i n : ℕ)
    (d : NvmeController) (hn : i + n < 2^64)
    (hb : build = .dev ∨ start.toNat + i + n ≤ 2^64) :
    WriteOutcome start data i n d (writeBlocks build start data i n (some d)) := by
  induction n generalizing i d with
  | zero => exact .done d (by simp) (.inr rfl) (.refl d) rfl (by simp)
  | succ n ih =>
    rcases Nat.lt_or_ge (start.toNat + i) (2^64) with hlt | hge
    swap
    · obtain rfl : build = .dev := hb.resolve_right (by omega)
      have hadd : addU64 .dev start (.ofNat i) = .error .overflow :=
        addU64_dev (by rw [toNat_ofNat (by omega)]; exact hge)
      have hrun : writeBlocks .dev start data i (n+1) (some d) =
          .error (.panic .overflow) (some d) := by
        rw [writeBlocks,hadd]
        rfl
      rw [hrun]
      exact .overflow d (by omega) fun j hj => by omega
    rw [writeBlocks,lba_ok build hlt,bind_ok (ofPanic_ok _ _)]
    by_cases hs : d.Succeeds d.log.length
    · rw [bind_ok (nvme_write_ok _ _ (length_chunk data i) hs)]
      exact .cons hlt hs (ih (i+1) _ (by omega) (hb.imp_right (by omega)))
    · have hW : Within (start.toNat + i) (start.toNat + i + (n+1)) (start + .ofNat i) := by
        rw [Within,toNat_lba hlt]
        omega
      rw [bind_error (nvme_write_error _ _ (length_chunk data i) hs)]
      exact .failed _ 0 (Nat.succ_pos n) hlt hs (.failed d _ hW)

/-- The calls that change the file system. -/
inductive Call
  | save (filename : List Char) (data : Slice)
  | delete (filename : List Char) (context : MdoContext)
  | rename (oldName newName : List Char) (context : MdoContext)

namespace Call

def exec (build : Profile) : Call → Kernel Unit
  | save filename data => saveFile build filename data
  | delete filename context => deleteFile filename context
  | rename oldName newName context => renameFile oldName newName context

/-- The name a call would enter into the table. -/
def newName : Call → Option (List Char)
  | save filename _ => some filename
  | delete _ _ => none
  | rename _ newName _ => some newName

/-- The table a call would write, unless its names rule it out. -/
def newTable (entries : List FileEntry) : Call → Option (List FileEntry)
  | save filename data =>
    if entries.any (·.name == filename) then none
    else some (entries ++ [⟨filename,.ofNat (nextOf entries),blocksNeeded data⟩])
  | delete filename _ =>
    (entries.findFinIdx? (·.name == filename)).map fun pos : Fin entries.length =>
      entries.eraseIdx pos
  | rename oldName newName _ =>
    if entries.any (·.name == newName) then none
    else (entries.findFinIdx? (·.name == oldName)).map fun pos : Fin entries.length =>
      entries.set pos {entries.get pos with name := newName}

/-- The blocks outside the table that a call may write. -/
def Span (entries : List FileEntry) : Call → UInt64 → Prop
  | save _ data => Within (nextOf entries) (nextOf entries + (blocksNeeded data).toNat)
  | _ => fun _ => False

/-- The call's LBAs stay below `2^64`. -/
def InRange (entries : List FileEntry) : Call → Prop
  | save _ data => nextOf entries < 2^64 ∧ nextOf entries + (blocksNeeded data).toNat ≤ 2^64
  | _ => True

/-- The gate in front of an entry, or one of the commands before it, stops the call. -/
def Gated (d : NvmeController) (entry : FileEntry) (context : MdoContext) : Prop :=
  ¬d.Succeeds (d.log.length + 1) ∨ (∀ offset, gate (d.blocks entry.startLba) context ≠ .ok offset) ∨
  ¬d.Succeeds (d.log.length + 2)

/-- The call ends with an error: a name rules it out, the gate denies it, or one of its
commands fails. -/
def Stopped (d : NvmeController) (c : Call) : Prop :=
  ¬d.Succeeds d.log.length ∨ c.newTable (listed d) = none ∨
  match c with
  | save _ data =>
    (∃ j < (blocksNeeded data).toNat, nextOf (listed d) + j < 2^64 ∧
      ¬d.Succeeds (d.log.length + 1 + j)) ∨
    c.InRange (listed d) ∧ ¬d.Succeeds (d.log.length + 1 + (blocksNeeded data).toNat)
  | delete filename context => ∃ entry, (listed d).find? (·.name == filename) = some entry ∧
      Gated d entry context
  | rename oldName _ context => ∃ entry, (listed d).find? (·.name == oldName) = some entry ∧
      Gated d entry context

/-- What a call did: it wrote the new table, or it left the table alone. -/
inductive Outcome (c : Call) (d : NvmeController) :
    EStateM.Result Fault (Option NvmeController) Unit → Prop
  | done (d' : NvmeController) (entries : List FileEntry)
      (table : c.newTable (listed d) = some entries) (inRange : c.InRange (listed d))
      (frame : Frame (c.Span (listed d)) d d') (reached : ¬c.Stopped d)
      (stored : ∀ filename data, c = save filename data → ∀ j < (blocksNeeded data).toNat,
        ∀ lba : UInt64, lba.toNat = nextOf (listed d) + j → d'.blocks lba = .ofData (chunk data j)) :
      Outcome c d (.ok () (some (d'.written 0 (mftBlock entries))))
  | rejected (message : String) (d' : NvmeController) (stopped : c.Stopped d)
      (status : d'.status = d.status)
      (blocks : ∀ lba, ¬c.Span (listed d) lba → d'.blocks lba = d.blocks lba) :
      Outcome c d (.error (.err message) (some d'))
  | overflow (d' : NvmeController) (reached : ¬c.Stopped d) (outside : ¬c.InRange (listed d)) :
      Outcome c d (.error (.panic .overflow) (some d'))

/-- What stops a save under a new name, once the table was read. -/
theorem save_stopped_iff {filename : List Char} {data : Slice} {d : NvmeController}
    (hs : d.Succeeds d.log.length)
    (hnew : (save filename data).newTable (listed d) ≠ none) : (save filename data).Stopped d ↔
      (∃ j < (blocksNeeded data).toNat, nextOf (listed d) + j < 2^64 ∧
        ¬d.Succeeds (d.log.length + 1 + j)) ∨
      (save filename data).InRange (listed d) ∧
        ¬d.Succeeds (d.log.length + 1 + (blocksNeeded data).toNat) := by
  simp only [Stopped,hs,hnew,not_true_eq_false,false_or]

/-- The end of a save: the data, then the new table. -/
theorem saved_outcome {build : Profile} {filename : List Char} {data : Slice} {d : NvmeController}
    {start : UInt64} (hs : d.Succeeds d.log.length) (hnat : start.toNat = nextOf (listed d))
    (htable : (save filename data).newTable (listed d) =
      some (listed d ++ [⟨filename,.ofNat (nextOf (listed d)),blocksNeeded data⟩]))
    (hb : build = .dev ∨ (save filename data).InRange (listed d)) :
    Outcome (save filename data) d ((writeBlocks build start data 0 (blocksNeeded data).toNat >>=
      fun _ => writeMft (listed d ++ [⟨filename,start,blocksNeeded data⟩]))
        (some (d.issued (.read 0)))) := by
  have hstopped := save_stopped_iff hs (htable ▸ Option.some_ne_none _)
  have hlen : (d.issued (.read 0)).log.length = d.log.length + 1 := by simp
  have hlt : 0 + (blocksNeeded data).toNat < 2^64 := by
    have := blocksNeeded_lt data
    omega
  have hb' : build = .dev ∨ start.toNat + 0 + (blocksNeeded data).toNat ≤ 2^64 :=
    hb.imp_right fun h => by rw [hnat]; exact h.2
  have hout := writeBlocks_outcome data 0 (blocksNeeded data).toNat (d.issued (.read 0)) hlt hb'
  generalize hr : writeBlocks build start data 0 (blocksNeeded data).toNat
    (some (d.issued (.read 0))) = r at hout
  cases hout with
  | failed d' j hj hrange hfail hframe =>
    rw [bind_error hr]
    rw [hnat] at hframe
    rw [hlen] at hfail
    exact .rejected _ _ (hstopped.mpr (.inl ⟨j,hj,by omega,hfail⟩)) hframe.status hframe.blocks
  | overflow d' hover hsucc =>
    rw [bind_error hr]
    have hout : ¬(save filename data).InRange (listed d) := by
      simp only [InRange]
      omega
    refine .overflow _ (fun h => ?_) hout
    rcases hstopped.mp h with ⟨j,_,hj,h⟩ | h
    · rw [← hlen] at h
      exact h (hsucc j (by omega))
    · exact hout h.1
  | done d' hsucc hrange hframe hissued hblocks =>
    rw [bind_ok hr]
    have hin : (save filename data).InRange (listed d) := by
      have := start.toNat_lt
      simp only [InRange]
      omega
    have hframe' : Frame ((save filename data).Span (listed d)) d d' := by
      rw [hnat] at hframe
      exact (Frame.read d 0).trans hframe
    have hlog : d'.log.length = d.log.length + 1 + (blocksNeeded data).toNat := by rw [hissued,hlen]
    by_cases hw : d'.Succeeds d'.log.length
    · have he : start = .ofNat (nextOf (listed d)) := by rw [← hnat,UInt64.ofNat_toNat]
      rw [writeMft_ok _ hw,he]
      refine .done d' _ htable hin hframe' (fun h => ?_) ?_
      · rcases hstopped.mp h with ⟨j,hj,_,h⟩ | h
        · rw [← hlen] at h
          exact h (hsucc j hj)
        · rw [← hlog] at h
          rw [Succeeds,hframe'.status] at hw
          exact h.2 hw
      · rintro _ _ ⟨rfl,rfl⟩ j hj lba hl
        rw [hblocks j hj lba (by omega),Nat.zero_add]
    · rw [writeMft_error _ hw]
      rw [Succeeds,hframe'.status,hlog] at hw
      exact .rejected _ _ (hstopped.mpr (.inr ⟨hin,hw⟩)) hframe'.status hframe'.blocks

theorem save_outcome {build : Profile} (filename : List Char) (data : Slice) (d : NvmeController)
    (hb : build = .dev ∨ ((save filename data).newTable (listed d) ≠ none →
      (save filename data).InRange (listed d))) :
    Outcome (save filename data) d (saveFile build filename data (some d)) := by
  by_cases hs : d.Succeeds d.log.length
  swap
  · rw [saveFile,bind_error (readMft_error hs)]
    exact .rejected _ _ (.inl hs) rfl fun _ _ => rfl
  rw [saveFile,bind_ok (readMft_ok hs)]
  by_cases hdup : (listed d).any (·.name == filename)
  · have hnone : (save filename data).newTable (listed d) = none := if_pos hdup
    simp only [hdup,if_true]
    exact .rejected _ _ (.inr (.inl hnone)) rfl fun _ _ => rfl
  have htable : (save filename data).newTable (listed d) =
      some (listed d ++ [⟨filename,.ofNat (nextOf (listed d)),blocksNeeded data⟩]) := if_neg hdup
  have hnew : (save filename data).newTable (listed d) ≠ none := htable ▸ Option.some_ne_none _
  replace hb := hb.imp_right fun h => h hnew
  simp only [hdup,Bool.false_eq_true,if_false]
  rcases Nat.lt_or_ge (nextOf (listed d)) (2^64) with hlt | hge
  · obtain ⟨start,hstart,hnat⟩ := nextLba_ok build hlt
    rw [hstart,bind_ok (ofPanic_ok _ _),bind_ok (nvmeLock_some _)]
    exact saved_outcome hs hnat htable hb
  · obtain rfl : build = .dev := hb.resolve_right fun h => absurd h.1 (not_lt.mpr hge)
    have hout : ¬(save filename data).InRange (listed d) := fun h => absurd h.1 (not_lt.mpr hge)
    rw [nextLba_overflow hge,bind_error (ofPanic_error _ _)]
    refine .overflow _ (fun h => ?_) hout
    rcases (save_stopped_iff hs hnew).mp h with ⟨j,_,hj,_⟩ | h
    · omega
    · exact hout h.1

theorem position_cases {A : Type*} (p : A → Bool) (l : List A) :
    (l.findFinIdx? p = none ∧ l.find? p = none) ∨
    ∃ pos : Fin l.length, l.findFinIdx? p = some pos ∧ l.find? p = some (l.get pos) := by
  cases h : l.findFinIdx? p with
  | none =>
    refine .inl ⟨rfl,?_⟩
    rw [List.findFinIdx?_eq_none_iff] at h
    rw [List.find?_eq_none]
    exact h
  | some pos =>
    refine .inr ⟨pos,rfl,?_⟩
    obtain ⟨hpos,hbefore⟩ := List.findFinIdx?_eq_some_iff.mp h
    rw [List.find?_eq_some_iff_getElem]
    refine ⟨hpos,pos,pos.2,rfl,fun j hj => ?_⟩
    simpa using hbefore ⟨j,hj.trans pos.2⟩ hj

/-- A denial and a failed command leave every block as it was. -/
theorem gated_write (d : NvmeController) (entry : FileEntry) (context : MdoContext)
    (entries : List FileEntry) :
    let run := (verifyMdoAccess entry.startLba context >>= fun _ => writeMft entries)
      (some (d.issued (.read 0)))
    (Gated d entry context ∧ ∃ message d', run = .error (.err message) (some d') ∧
      d'.status = d.status ∧ d'.blocks = d.blocks) ∨
    (¬Gated d entry context ∧ ∃ d', run = .ok () (some (d'.written 0 (mftBlock entries))) ∧
      Frame (fun _ => False) d d') := by
  intro run
  have hlen : (d.issued (.read 0)).log.length = d.log.length + 1 := by simp
  by_cases h₁ : (d.issued (.read 0)).Succeeds (d.issued (.read 0)).log.length
  swap
  · have hrun : run = _ := bind_error (verifyMdoAccess_error entry.startLba context h₁)
    rw [hlen] at h₁
    exact .inl ⟨.inl h₁,_,_,hrun,rfl,rfl⟩
  have hread := verifyMdoAccess_read entry.startLba context h₁
  rw [issued_blocks] at hread
  cases hg : gate (d.blocks entry.startLba) context with
  | error message =>
    rw [hg,ofErr_error] at hread
    refine .inl ⟨.inr (.inl fun offset h => ?_),_,_,bind_error hread,rfl,rfl⟩
    rw [hg] at h
    cases h
  | ok offset =>
    rw [hg,ofErr_ok] at hread
    have hrun : run = writeMft entries (some ((d.issued (.read 0)).issued (.read entry.startLba))) :=
      bind_ok hread
    have hlen₂ : ((d.issued (.read 0)).issued (.read entry.startLba)).log.length =
      d.log.length + 2 := by simp
    by_cases h₂ : ((d.issued (.read 0)).issued (.read entry.startLba)).Succeeds
        ((d.issued (.read 0)).issued (.read entry.startLba)).log.length
    · rw [writeMft_ok _ h₂] at hrun
      refine .inr ⟨?_,_,hrun,(Frame.read _ _).trans (Frame.read _ _)⟩
      rintro (h | h | h)
      · rw [hlen] at h₁
        exact h h₁
      · exact h offset hg
      · rw [hlen₂] at h₂
        exact h h₂
    · rw [writeMft_error _ h₂] at hrun
      rw [hlen₂] at h₂
      exact .inl ⟨.inr (.inr h₂),_,_,hrun,rfl,rfl⟩

/-- The end of a delete and of a rename: past the gate, the new table. -/
theorem gated_outcome {c : Call} {d : NvmeController} {entry : FileEntry} {context : MdoContext}
    {entries : List FileEntry} (hsave : ∀ filename data, c ≠ save filename data)
    (htable : c.newTable (listed d) = some entries) (hstopped : c.Stopped d ↔ Gated d entry context) :
    Outcome c d ((verifyMdoAccess entry.startLba context >>= fun _ => writeMft entries)
      (some (d.issued (.read 0)))) := by
  have hin : c.InRange (listed d) := by
    cases c with
    | save filename data => exact absurd rfl (hsave filename data)
    | delete filename context => trivial
    | rename oldName newName context => trivial
  rcases gated_write d entry context entries with
    ⟨hg,message,d',hrun,hstatus,hblocks⟩ | ⟨hg,d',hrun,hframe⟩
  · rw [hrun]
    exact .rejected _ _ (hstopped.mpr hg) hstatus fun _ _ => by rw [hblocks]
  · rw [hrun]
    exact .done d' _ htable hin (hframe.mono fun _ => False.elim) (fun h => hg (hstopped.mp h))
      fun filename data h => absurd h (hsave filename data)

theorem delete_outcome (filename : List Char) (context : MdoContext) (d : NvmeController) :
    Outcome (delete filename context) d (deleteFile filename context (some d)) := by
  by_cases hs : d.Succeeds d.log.length
  swap
  · rw [deleteFile,bind_error (readMft_error hs)]
    exact .rejected _ _ (.inl hs) rfl fun _ _ => rfl
  rw [deleteFile,bind_ok (readMft_ok hs)]
  rcases position_cases (·.name == filename) (listed d) with ⟨hpos,_⟩ | ⟨pos,hpos,hfind⟩
  · have hnone : (delete filename context).newTable (listed d) = none := by
      rw [newTable,hpos,Option.map_none]
    rw [hpos]
    exact .rejected _ _ (.inr (.inl hnone)) rfl fun _ _ => rfl
  have htable : (delete filename context).newTable (listed d) = some ((listed d).eraseIdx pos) := by
    rw [newTable,hpos,Option.map_some]
  have hstopped : (delete filename context).Stopped d ↔ Gated d ((listed d).get pos) context := by
    simp [Stopped,hs,htable,hfind]
  rw [hpos]
  exact gated_outcome (fun _ _ h => by cases h) htable hstopped

theorem rename_outcome (oldName newName : List Char) (context : MdoContext) (d : NvmeController) :
    Outcome (rename oldName newName context) d (renameFile oldName newName context (some d)) := by
  by_cases hs : d.Succeeds d.log.length
  swap
  · rw [renameFile,bind_error (readMft_error hs)]
    exact .rejected _ _ (.inl hs) rfl fun _ _ => rfl
  rw [renameFile,bind_ok (readMft_ok hs)]
  by_cases hdup : (listed d).any (·.name == newName)
  · have hnone : (rename oldName newName context).newTable (listed d) = none := if_pos hdup
    simp only [hdup,if_true]
    exact .rejected _ _ (.inr (.inl hnone)) rfl fun _ _ => rfl
  simp only [hdup,Bool.false_eq_true,if_false]
  rcases position_cases (·.name == oldName) (listed d) with ⟨hpos,_⟩ | ⟨pos,hpos,hfind⟩
  · have hnone : (rename oldName newName context).newTable (listed d) = none := by
      rw [newTable,if_neg hdup,hpos,Option.map_none]
    rw [hpos]
    exact .rejected _ _ (.inr (.inl hnone)) rfl fun _ _ => rfl
  have htable : (rename oldName newName context).newTable (listed d) =
      some ((listed d).set pos {(listed d).get pos with name := newName}) := by
    rw [newTable,if_neg hdup,hpos,Option.map_some]
  have hstopped : (rename oldName newName context).Stopped d ↔
      Gated d ((listed d).get pos) context := by
    simp [Stopped,hs,htable,hfind]
  rw [hpos]
  exact gated_outcome (fun _ _ h => by cases h) htable hstopped

/-- A debug build stops at an overflow; a release build must be kept from it. -/
def Guarded (build : Profile) (entries : List FileEntry) (c : Call) : Prop :=
  build = .dev ∨ (c.newTable entries ≠ none → c.InRange entries)

theorem exec_outcome {build : Profile} {c : Call} {d : NvmeController}
    (h : c.Guarded build (listed d)) : Outcome c d (c.exec build (some d)) := by
  cases c with
  | save filename data => exact save_outcome filename data d h
  | delete filename context => exact delete_outcome filename context d
  | rename oldName newName context => exact rename_outcome oldName newName context d

end Call
end Mfs
end PolymorphOS
