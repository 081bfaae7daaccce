import PolymorphOS.MfsGate

/-! The sums and products behind the LBAs of a file. They are made of numbers read from the
table, and nothing checks them: a debug build panics where one leaves `u64`, a release build
goes on with what is left of it. -/
namespace PolymorphOS
namespace Mfs

open Kernel NvmeController

section Overflow

variable {A B : Type}

/-- The call ends in the panic of an arithmetic overflow. -/
def Overflows (x : Kernel A) (s : Option NvmeController) : Prop :=
  ∃ t, x s = .error (.panic .overflow) t

theorem overflows_bind {x : Kernel A} {f : A → Kernel B} {s : Option NvmeController} :
    Overflows (x >>= f) s ↔ Overflows x s ∨ ∃ a t, x s = .ok a t ∧ Overflows (f a) t := by
  unfold Overflows
  cases hx : x s with
  | error e t => simp [bind_error hx]
  | ok a t => simp [bind_ok hx]

theorem overflows_bind_ok {x : Kernel A} {f : A → Kernel B} {s t : Option NvmeController} {a : A}
    (h : x s = .ok a t) : Overflows (x >>= f) s ↔ Overflows (f a) t := by
  rw [Overflows,bind_ok h,Overflows]

theorem overflows_bind_error {x : Kernel A} {f : A → Kernel B} {s t : Option NvmeController}
    {message : String} (h : x s = .error (.err message) t) : ¬Overflows (x >>= f) s := by
  rintro ⟨t,ht⟩
  rw [bind_error h] at ht
  cases ht

theorem overflows_bind_pure {x : Kernel A} {f : A → B} {s : Option NvmeController} :
    Overflows (x >>= fun a => pure (f a)) s ↔ Overflows x s := by
  rw [overflows_bind]
  refine or_iff_left ?_
  rintro ⟨a,t,_,_,h⟩
  cases h

theorem overflows_ofPanic {r : Except Panic A} {s : Option NvmeController} :
    Overflows (ofPanic r) s ↔ r = .error .overflow := by
  cases r with
  | ok a => exact iff_of_false (fun ⟨_,h⟩ => nomatch h) (fun h => nomatch h)
  | error e =>
    constructor
    · rintro ⟨t,h⟩
      cases h
      rfl
    · rintro ⟨⟩
      exact ⟨s,rfl⟩

/-- The two builds do the same, unless the one that checks its arithmetic stops at it. -/
def Agrees (x y : Kernel A) : Prop := ∀ s, Overflows x s ∨ y s = x s

theorem Agrees.refl (x : Kernel A) : Agrees x x := fun _ => .inr rfl

theorem Agrees.bind {x y : Kernel A} {f g : A → Kernel B} (hx : Agrees x y)
    (hf : ∀ a, Agrees (f a) (g a)) : Agrees (x >>= f) (y >>= g) := by
  intro s
  rcases hx s with h | h
  · exact .inl (overflows_bind.mpr (.inl h))
  · cases hs : x s with
    | error e t =>
      rw [hs] at h
      exact .inr ((bind_error h).trans (bind_error hs).symm)
    | ok a t =>
      rw [hs] at h
      rw [bind_ok h,bind_ok hs]
      exact (hf a t).imp_left fun hover => overflows_bind.mpr (.inr ⟨a,t,hs,hover⟩)

theorem Agrees.addU64 (a b : UInt64) :
    Agrees (ofPanic (addU64 .dev a b)) (ofPanic (addU64 .release a b)) := by
  intro s
  by_cases h : a.toNat + b.toNat < 2^64
  · rw [addU64_ok .dev h,addU64_ok .release h]
    exact .inr rfl
  · exact .inl (overflows_ofPanic.mpr (addU64_dev (not_lt.mp h)))

theorem mulU64_dev {a b : UInt64} : PolymorphOS.mulU64 .dev a b = .error .overflow ↔
    2^64 ≤ a.toNat * b.toNat := by
  by_cases h : a.toNat * b.toNat < 2^64
  · rw [PolymorphOS.mulU64,if_pos (.inl h)]
    exact iff_of_false (by simp) (not_le.mpr h)
  · rw [PolymorphOS.mulU64,if_neg (by simpa using h)]
    exact iff_of_true rfl (not_lt.mp h)

theorem Agrees.mulU64 (a b : UInt64) :
    Agrees (ofPanic (mulU64 .dev a b)) (ofPanic (mulU64 .release a b)) := by
  intro s
  by_cases h : a.toNat * b.toNat < 2^64
  · have hok : ∀ build, PolymorphOS.mulU64 build a b = .ok (a * b) := fun build => if_pos (.inl h)
    rw [hok,hok]
    exact .inr rfl
  · exact .inl (overflows_ofPanic.mpr (mulU64_dev.mpr (not_lt.mp h)))

end Overflow

theorem writeBlocks_agrees (start : UInt64) (data : Slice) (i n : ℕ) :
    Agrees (writeBlocks .dev start data i n) (writeBlocks .release start data i n) := by
  induction n generalizing i with
  | zero => exact .refl _
  | succ n ih => exact (Agrees.addU64 _ _).bind fun lba => (Agrees.refl _).bind fun _ => ih (i+1)

theorem nextLba_agrees (entries : List FileEntry) :
    Agrees (ofPanic (nextLba .dev entries)) (ofPanic (nextLba .release entries)) := by
  unfold nextLba
  cases entries.getLast? with
  | none => exact .refl _
  | some lastEntry => exact .addU64 _ _

theorem saveFile_agrees (filename : List Char) (data : Slice) :
    Agrees (saveFile .dev filename data) (saveFile .release filename data) := by
  refine (Agrees.refl _).bind fun entries => ?_
  by_cases hdup : entries.any (·.name == filename)
  · rw [if_pos hdup,if_pos hdup]
    exact .refl _
  · rw [if_neg hdup,if_neg hdup]
    exact (nextLba_agrees entries).bind fun start => (Agrees.refl _).bind fun _ =>
      (writeBlocks_agrees start data 0 _).bind fun _ => .refl _

theorem readBlocks_agrees (start : UInt64) (i n : ℕ) :
    Agrees (readBlocks .dev start i n) (readBlocks .release start i n) := by
  induction n generalizing i with
  | zero => exact .refl _
  | succ n ih => exact (Agrees.addU64 _ _).bind fun lba => (Agrees.refl _).bind fun _ =>
      (ih (i+1)).bind fun _ => .refl _

theorem readFile_agrees (filename : List Char) (context : MdoContext) :
    Agrees (readFile .dev filename context) (readFile .release filename context) := by
  refine (Agrees.refl _).bind fun found => ?_
  cases found with
  | none => exact .refl _
  | some entry =>
    exact (Agrees.refl _).bind fun _ => (Agrees.mulU64 _ _).bind fun _ => (Agrees.refl _).bind
      fun _ => (readBlocks_agrees _ 1 _).bind fun _ => .refl _

/-- A debug build overflows in the loop of a read when it gets to a block past the last LBA. -/
theorem readBlocks_overflows_iff {start : UInt64} {i n : ℕ} (hn : i + n < 2^64) {d : NvmeController} :
    Overflows (readBlocks .dev start i n) (some d) ↔ n ≠ 0 ∧ 2^64 < start.toNat + i + n ∧
      ∀ j, start.toNat + i + j < 2^64 → d.Succeeds (d.log.length + j) := by
  induction n generalizing i d with
  | zero => exact iff_of_false (fun ⟨_,h⟩ => nomatch h) fun h => h.1 rfl
  | succ n ih =>
    have hi : (UInt64.ofNat i).toNat = i := toNat_ofNat (by omega)
    rw [readBlocks]
    by_cases hlt : start.toNat + i < 2^64
    swap
    · have hover : Overflows (ofPanic (addU64 .dev start (.ofNat i))) (some d) :=
        overflows_ofPanic.mpr (addU64_dev (by rw [hi]; omega))
      exact iff_of_true (overflows_bind.mpr (.inl hover)) ⟨by omega,by omega,fun j hj => by omega⟩
    rw [lba_ok .dev hlt,overflows_bind_ok (ofPanic_ok _ _)]
    by_cases hs : d.Succeeds d.log.length
    swap
    · exact iff_of_false (overflows_bind_error (nvme_read_error _ _ hs)) fun h =>
        hs (h.2.2 0 (by omega))
    rw [overflows_bind_ok (nvme_read_ok _ _ hs),overflows_bind_pure,ih (by omega)]
    constructor
    · rintro ⟨_,hpast,hsucc⟩
      refine ⟨by omega,by omega,fun j hj => ?_⟩
      cases j with
      | zero => exact hs
      | succ j => exact succeeds_issued.mp (hsucc j (by omega))
    · rintro ⟨_,hpast,hsucc⟩
      exact ⟨by omega,by omega,fun j hj => succeeds_issued.mpr (hsucc (j + 1) (by omega))⟩

/-- The drive after a call, however it ended. -/
def stateOf {A : Type} : EStateM.Result Fault (Option NvmeController) A → Option NvmeController
  | .ok _ s => s
  | .error _ s => s

/-- The commands of the loop of data writes, from block `i` on. -/
structure DataWrites (build : Profile) (start : UInt64) (data : Slice) (i n : ℕ)
    (cmds : List IoCmd) : Prop where
  length_le : cmds.length ≤ n
  command : ∀ j c, cmds[j]? = some c →
    c = .write (start + .ofNat (i + j)) (.ofData (chunk data (i + j))) ∧
    (start.toNat + i + j < 2^64 ∨ build = .release)
  nonempty : n ≠ 0 → start.toNat + i < 2^64 ∨ build = .release → cmds ≠ []

/-- One more write in front. -/
theorem DataWrites.cons {build : Profile} {start : UInt64} {data : Slice} {i n : ℕ}
    {cmds : List IoCmd} (hin : start.toNat + i < 2^64 ∨ build = .release)
    (h : DataWrites build start data (i+1) n cmds) : DataWrites build start data i (n+1)
      (.write (start + .ofNat i) (.ofData (chunk data i))::cmds) where
  length_le := Nat.succ_le_succ h.length_le
  command j c hc := by
    cases j with
    | zero =>
      cases hc
      exact ⟨rfl,hin⟩
    | succ j =>
      have hshift : i + (j + 1) = i + 1 + j := by omega
      obtain ⟨heq,hrange⟩ := h.command j c hc
      exact ⟨by rw [hshift,heq],hrange.imp_left (by omega)⟩
  nonempty _ _ := List.cons_ne_nil _ _

theorem DataWrites.nil {build : Profile} {start : UInt64} {data : Slice} {i n : ℕ}
    (h : n ≠ 0 → ¬(start.toNat + i < 2^64 ∨ build = .release)) :
    DataWrites build start data i n [] where
  length_le := Nat.zero_le n
  command j c hc := by cases hc
  nonempty hn hin := absurd hin (h hn)

/-- The write that stopped the loop. -/
theorem DataWrites.single {build : Profile} {start : UInt64} {data : Slice} {i n : ℕ}
    (hin : start.toNat + i < 2^64 ∨ build = .release) : DataWrites build start data i (n+1)
      [.write (start + .ofNat i) (.ofData (chunk data i))] where
  length_le := Nat.succ_le_succ (Nat.zero_le n)
  command j c hc := by
    cases j with
    | zero =>
      cases hc
      exact ⟨rfl,hin⟩
    | succ j => cases hc
  nonempty _ _ := List.cons_ne_nil _ _

theorem writeBlocks_log (build : Profile) (start : UInt64) (data : Slice) (i n : ℕ)
    (d : NvmeController) (hn : i + n < 2^64) :
    ∃ cmds d', stateOf (writeBlocks build start data i n (some d)) = some d' ∧
      d'.log = d.log ++ cmds ∧ DataWrites build start data i n cmds ∧
      ∀ t, writeBlocks build start data i n (some d) = .ok () t → cmds.length = n := by
  induction n generalizing i d with
  | zero => exact ⟨[],d,rfl,by simp,.nil fun h => absurd rfl h,fun _ _ => rfl⟩
  | succ n ih =>
    have hi : (UInt64.ofNat i).toNat = i := toNat_ofNat (by omega)
    by_cases hin : start.toNat + i < 2^64 ∨ build = .release
    swap
    · have hadd : addU64 build start (.ofNat i) = .error .overflow :=
        if_neg (by rw [hi]; exact hin)
      have hrun : writeBlocks build start data i (n+1) (some d) =
          .error (.panic .overflow) (some d) := by
        rw [writeBlocks,hadd]
        rfl
      rw [hrun]
      exact ⟨[],d,rfl,by simp,.nil fun _ => hin,by simp⟩
    have hadd : addU64 build start (.ofNat i) = .ok (start + .ofNat i) :=
      addU64_iff.mpr ⟨by rw [hi]; exact hin,rfl⟩
    rw [writeBlocks,hadd,bind_ok (ofPanic_ok _ _)]
    by_cases hs : d.Succeeds d.log.length
    · rw [bind_ok (nvme_write_ok _ _ (length_chunk data i) hs)]
      obtain ⟨cmds,d',hd',hlog,hwrites,hlen⟩ := ih (i+1)
        (d.written (start + .ofNat i) (.ofData (chunk data i))) (by omega)
      refine ⟨_,d',hd',?_,hwrites.cons hin,fun t ht => ?_⟩
      · rw [hlog,written_log,List.append_assoc,List.singleton_append]
      · rw [List.length_cons,hlen t ht]
    · rw [bind_error (nvme_write_error _ _ (length_chunk data i) hs)]
      exact ⟨_,_,rfl,rfl,.single hin,by simp⟩

/-- A save that gets past the table: the data, and the new table after all of it. -/
theorem saveFile_log {build : Profile} {filename : List Char} (data : Slice) {d : NvmeController}
    {start : UInt64} (hs : d.Succeeds d.log.length) (hnew : filename ∉ names (listed d))
    (hstart : nextLba build (listed d) = .ok start) :
    ∃ cmds tail d', stateOf (saveFile build filename data (some d)) = some d' ∧
      d'.log = d.log ++ .read 0::(cmds ++ tail) ∧
      DataWrites build start data 0 (blocksNeeded data).toNat cmds ∧
      (tail = [] ∨ cmds.length = (blocksNeeded data).toNat) := by
  have hlt := blocksNeeded_lt data
  obtain ⟨cmds,d',hd',hlog,hwrites,hlen⟩ := writeBlocks_log build start data 0
    (blocksNeeded data).toNat (d.issued (.read 0)) (by omega)
  rw [saveFile,bind_ok (readMft_ok hs),if_neg fun ha => hnew (any_name_iff.mp ha),hstart,
    bind_ok (ofPanic_ok _ _),bind_ok (nvmeLock_some _)]
  cases hrun : writeBlocks build start data 0 (blocksNeeded data).toNat (some (d.issued (.read 0))) with
  | error e t =>
    rw [hrun] at hd'
    obtain rfl : t = some d' := hd'
    rw [bind_error hrun]
    exact ⟨cmds,[],d',rfl,by rw [hlog]; simp,hwrites,.inl rfl⟩
  | ok u t =>
    rw [hrun] at hd'
    obtain rfl : t = some d' := hd'
    rw [bind_ok hrun]
    have htail : ∃ c d'', stateOf (writeMft (listed d ++ [⟨filename,start,blocksNeeded data⟩])
        (some d')) = some d'' ∧ d''.log = d'.log ++ [c] := by
      by_cases hw : d'.Succeeds d'.log.length
      · rw [writeMft_ok _ hw]
        exact ⟨_,_,rfl,rfl⟩
      · rw [writeMft_error _ hw]
        exact ⟨_,_,rfl,rfl⟩
    obtain ⟨c,d'',hd'',hlog'⟩ := htail
    exact ⟨cmds,[c],d'',hd'',by rw [hlog',hlog]; simp,hwrites,.inr (hlen _ hrun)⟩

/-- The calls on files. -/
inductive Operation
  | change (c : Call)
  | read (filename : List Char) (context : MdoContext)

def Operation.exec (build : Profile) : Operation → Kernel Unit
  | change c => c.exec build
  | read filename context => do let _ ← readFile build filename context

/-- None of the data commands of a save, which follow its read of the table, writes block 0. -/
def OffTable (build : Profile) (d : NvmeController) : Operation → Prop
  | .change (.save filename data) => ∀ d', stateOf (saveFile build filename data (some d)) = some d' →
    ∀ j < (blocksNeeded data).toNat, ∀ lba b,
      d'.log[d.log.length + 1 + j]? = some (.write lba b) → lba ≠ 0
  | _ => True

/-- The checks of a debug build find no overflow, so that a release build does the same sums,
and a save keeps its data off the table. -/
structure LbasExact (d : NvmeController) (op : Operation) : Prop where
  in_range : ¬Overflows (op.exec .dev) (some d)
  unwrapped : op.exec .release (some d) = op.exec .dev (some d)
  off_table : ∀ build, OffTable build d op

/-- What keeps the sums in range: the call does not come to them, or the last entry of the
table, the one a save goes after, respectively the entry a read resolves to, lies low enough. -/
def LbasInRange (d : NvmeController) : Operation → Prop
  | .change (.save filename data) => d.Succeeds d.log.length → filename ∉ names (listed d) →
    (0 < nextOf (listed d) ∨ (blocksNeeded data).toNat = 0) ∧
    (nextOf (listed d) < 2^64 ∧ nextOf (listed d) + (blocksNeeded data).toNat ≤ 2^64 ∨
      ∃ j < (blocksNeeded data).toNat, nextOf (listed d) + j < 2^64 ∧
        ¬d.Succeeds (d.log.length + 1 + j))
  | .read filename context => ∀ entry offset, d.Succeeds d.log.length →
    lookup (d.blocks 0) filename = some entry → d.Succeeds (d.log.length + 1) →
    gate (d.blocks entry.startLba) context = .ok offset →
    entry.blockCount.toNat * 4096 < 2^64 ∧
    (entry.startLba.toNat + entry.blockCount.toNat ≤ 2^64 ∨
      ∃ i, entry.startLba.toNat + i < 2^64 ∧ ¬d.Succeeds (d.log.length + 2 + i))
  | _ => True

theorem Call.overflows_iff (c : Call) (d : NvmeController) :
    Overflows (c.exec .dev) (some d) ↔ ¬c.Stopped d ∧ ¬c.InRange (listed d) := by
  have hout : Outcome c d (c.exec .dev (some d)) := exec_outcome (.inl rfl)
  unfold Overflows
  generalize c.exec .dev (some d) = r at hout
  cases hout with
  | done d' entries table inRange => exact iff_of_false (fun ⟨_,h⟩ => nomatch h) fun h => h.2 inRange
  | rejected message d' stopped => exact iff_of_false (fun ⟨_,h⟩ => nomatch h) fun h => h.1 stopped
  | overflow d' reached outside => exact iff_of_true ⟨_,rfl⟩ ⟨reached,outside⟩

theorem save_overflows_iff {filename : List Char} {data : Slice} {d : NvmeController} :
    Overflows (saveFile .dev filename data) (some d) ↔
      d.Succeeds d.log.length ∧ filename ∉ names (listed d) ∧
      ¬(Call.save filename data).InRange (listed d) ∧
      ∀ j < (blocksNeeded data).toNat, nextOf (listed d) + j < 2^64 →
        d.Succeeds (d.log.length + 1 + j) := by
  have hiff := (Call.save filename data).overflows_iff d
  rw [Call.exec] at hiff
  rw [hiff]
  by_cases hs : d.Succeeds d.log.length
  swap
  · exact iff_of_false (fun h => h.1 (.inl hs)) fun h => hs h.1
  by_cases hdup : filename ∈ names (listed d)
  · have hnone : (Call.save filename data).newTable (listed d) = none :=
      if_pos (any_name_iff.mpr hdup)
    exact iff_of_false (fun h => h.1 (.inr (.inl hnone))) fun h => h.2.1 hdup
  have hnew : (Call.save filename data).newTable (listed d) ≠ none := by
    rw [Call.newTable,if_neg fun ha => hdup (any_name_iff.mp ha)]
    exact Option.some_ne_none _
  rw [Call.save_stopped_iff hs hnew]
  constructor
  · rintro ⟨hstopped,hout⟩
    refine ⟨hs,hdup,hout,fun j hj hlt => ?_⟩
    by_contra hfail
    exact hstopped (.inl ⟨j,hj,hlt,hfail⟩)
  · rintro ⟨_,_,hout,hsucc⟩
    refine ⟨?_,hout⟩
    rintro (⟨j,hj,hlt,hfail⟩ | ⟨hin,_⟩)
    · exact hfail (hsucc j hj hlt)
    · exact hout hin

/-- Behind the gate: the capacity, the first block, and the rest. -/
theorem contents_overflows_iff {entry : FileEntry} {offset : ℕ} {d : NvmeController} :
    Overflows (do
      let _ ← ofPanic (mulU64 .dev entry.blockCount 4096)
      let buffer ← nvme "Hardware read failed" (·.readBlock entry.startLba)
      let rest ← readBlocks .dev entry.startLba 1 (entry.blockCount.toNat - 1)
      return buffer.1.drop offset ++ rest) (some d) ↔
    2^64 ≤ entry.blockCount.toNat * 4096 ∨
      2^64 < entry.startLba.toNat + entry.blockCount.toNat ∧
      ∀ i, entry.startLba.toNat + i < 2^64 → d.Succeeds (d.log.length + i) := by
  have h4096 : (4096 : UInt64).toNat = 4096 := rfl
  have hstart := entry.startLba.toNat_lt
  by_cases hmul : 2^64 ≤ entry.blockCount.toNat * 4096
  · have hover : Overflows (ofPanic (mulU64 .dev entry.blockCount 4096)) (some d) :=
      overflows_ofPanic.mpr (mulU64_dev.mpr (by rw [h4096]; exact hmul))
    exact iff_of_true (overflows_bind.mpr (.inl hover)) (.inl hmul)
  have hcap : mulU64 .dev entry.blockCount 4096 = .ok (entry.blockCount * 4096) :=
    mulU64_iff.mpr ⟨.inl (by rw [h4096]; omega),rfl⟩
  rw [hcap,overflows_bind_ok (ofPanic_ok _ _),or_iff_right hmul]
  by_cases hs : d.Succeeds d.log.length
  swap
  · exact iff_of_false (overflows_bind_error (nvme_read_error _ _ hs)) fun h => hs (h.2 0 (by omega))
  rw [overflows_bind_ok (nvme_read_ok _ _ hs),overflows_bind_pure,
    readBlocks_overflows_iff (by omega)]
  constructor
  · rintro ⟨_,hpast,hsucc⟩
    refine ⟨by omega,fun i hi => ?_⟩
    cases i with
    | zero => exact hs
    | succ i => exact succeeds_issued.mp (hsucc i (by omega))
  · rintro ⟨hpast,hsucc⟩
    exact ⟨by omega,by omega,fun j hj => succeeds_issued.mpr (hsucc (j + 1) (by omega))⟩

theorem not_overflows_findFile {filename : List Char} {d : NvmeController} :
    ¬Overflows (findFile filename) (some d) := by
  rintro ⟨t,h⟩
  by_cases hs : d.Succeeds d.log.length
  · rw [findFile_ok filename hs] at h
    cases h
  · rw [findFile,d.readBlock_eq,if_neg hs] at h
    cases h

theorem not_overflows_verifyMdoAccess {lba : UInt64} {context : MdoContext} {d : NvmeController} :
    ¬Overflows (verifyMdoAccess lba context) (some d) := by
  rintro ⟨t,h⟩
  by_cases hs : d.Succeeds d.log.length
  · rw [verifyMdoAccess_read lba context hs] at h
    cases hg : gate (d.blocks lba) context with
    | error message =>
      rw [hg] at h
      cases h
    | ok offset =>
      rw [hg] at h
      cases h
  · rw [verifyMdoAccess_error lba context hs] at h
    cases h

/-- Before the gate nothing is computed. -/
theorem overflows_verifyMdoAccess_bind {B : Type} {lba : UInt64} {context : MdoContext}
    {f : ℕ → Kernel B} {d : NvmeController} :
    Overflows (verifyMdoAccess lba context >>= f) (some d) ↔ ∃ offset, d.Succeeds d.log.length ∧
      gate (d.blocks lba) context = .ok offset ∧ Overflows (f offset) (some (d.issued (.read lba))) := by
  rw [overflows_bind,or_iff_right not_overflows_verifyMdoAccess]
  constructor
  · rintro ⟨offset,t,hverify,hover⟩
    obtain ⟨hs,hg,rfl⟩ := verifyMdoAccess_iff.mp hverify
    exact ⟨offset,hs,hg,hover⟩
  · rintro ⟨offset,hs,hg,hover⟩
    exact ⟨offset,_,verifyMdoAccess_iff.mpr ⟨hs,hg,rfl⟩,hover⟩

theorem read_overflows_iff {filename : List Char} {context : MdoContext} {d : NvmeController} :
    Overflows (readFile .dev filename context) (some d) ↔ ∃ entry offset,
      d.Succeeds d.log.length ∧ lookup (d.blocks 0) filename = some entry ∧
      d.Succeeds (d.log.length + 1) ∧ gate (d.blocks entry.startLba) context = .ok offset ∧
      (2^64 ≤ entry.blockCount.toNat * 4096 ∨
        2^64 < entry.startLba.toNat + entry.blockCount.toNat ∧
        ∀ i, entry.startLba.toNat + i < 2^64 → d.Succeeds (d.log.length + 2 + i)) := by
  have hverified : (d.issued (.read 0)).Succeeds (d.issued (.read 0)).log.length ↔
      d.Succeeds (d.log.length + 1) := succeeds_issued (j := 0)
  have hread (lba : UInt64) (i : ℕ) : ((d.issued (.read 0)).issued (.read lba)).Succeeds
      (((d.issued (.read 0)).issued (.read lba)).log.length + i) ↔
      d.Succeeds (d.log.length + 2 + i) := by
    rw [succeeds_issued,succeeds_issued,show i + 1 + 1 = 2 + i by omega,← Nat.add_assoc]
  rw [readFile,overflows_bind,or_iff_right not_overflows_findFile]
  constructor
  · rintro ⟨found,t,hfind,hover⟩
    cases found with
    | none =>
      obtain ⟨_,h⟩ := hover
      cases h
    | some entry =>
      obtain ⟨hs,hlook,rfl⟩ := findFile_some_iff.mp hfind
      obtain ⟨offset,hs₁,hg,hcontents⟩ := overflows_verifyMdoAccess_bind.mp hover
      rw [contents_overflows_iff] at hcontents
      simp only [hread] at hcontents
      exact ⟨entry,offset,hs,hlook,hverified.mp hs₁,hg,hcontents⟩
  · rintro ⟨entry,offset,hs,hlook,hs₁,hg,hcontents⟩
    simp only [← hread entry.startLba] at hcontents
    refine ⟨some entry,_,findFile_some_iff.mpr ⟨hs,hlook,rfl⟩,overflows_verifyMdoAccess_bind.mpr ?_⟩
    exact ⟨offset,hverified.mpr hs₁,hg,contents_overflows_iff.mpr hcontents⟩

/-- A debug build that saves behind an entry past block 0 keeps its data off the table. -/
theorem offTable_dev {filename : List Char} {data : Slice} {d : NvmeController}
    (h : d.Succeeds d.log.length → filename ∉ names (listed d) →
      0 < nextOf (listed d) ∨ (blocksNeeded data).toNat = 0) :
    OffTable .dev d (.change (.save filename data)) := by
  intro d' hd' j hj lba b hcmd
  -- a save that ends at the table logs its read only
  have hshort : ∀ d₁ : NvmeController, stateOf (saveFile .dev filename data (some d)) = some d₁ →
      d₁.log = d.log ++ [.read 0] → lba ≠ 0 := by
    intro d₁ hd₁ hlog
    obtain rfl : d₁ = d' := Option.some.inj (hd₁.symm.trans hd')
    rw [hlog,List.getElem?_eq_none (by simp)] at hcmd
    cases hcmd
  by_cases hs : d.Succeeds d.log.length
  swap
  · refine hshort (d.issued (.read 0)) ?_ rfl
    rw [saveFile,bind_error (readMft_error hs)]
    rfl
  by_cases hdup : filename ∈ names (listed d)
  · refine hshort (d.issued (.read 0)) ?_ rfl
    rw [saveFile,bind_ok (readMft_ok hs),if_pos (any_name_iff.mpr hdup)]
    rfl
  rcases Nat.lt_or_ge (nextOf (listed d)) (2^64) with hlt | hge
  swap
  · refine hshort (d.issued (.read 0)) ?_ rfl
    rw [saveFile,bind_ok (readMft_ok hs),if_neg fun ha => hdup (any_name_iff.mp ha),
      nextLba_overflow hge,bind_error (ofPanic_error _ _)]
    rfl
  obtain ⟨start,hstart,hnat⟩ := nextLba_ok .dev hlt
  obtain ⟨cmds,tail,d₁,hd₁,hlog,hwrites,htail⟩ := saveFile_log data hs hdup hstart
  obtain rfl : d₁ = d' := Option.some.inj (hd₁.symm.trans hd')
  have hget : cmds[j]? = some (.write lba b) := by
    have hindex : d₁.log[d.log.length + 1 + j]? = (cmds ++ tail)[j]? := by
      rw [hlog,Nat.add_assoc,List.getElem?_append_right (by omega),Nat.add_sub_cancel_left,
        Nat.add_comm 1 j,List.getElem?_cons_succ]
    rw [hindex] at hcmd
    rcases htail with rfl | hlen
    · rwa [List.append_nil] at hcmd
    · rwa [List.getElem?_append_left (by omega)] at hcmd
  obtain ⟨hcmd,hrange⟩ := hwrites.command j _ hget
  cases hcmd
  have hin : start.toNat + j < 2^64 := by simpa using hrange
  apply ne_zero_of_pos
  rw [Nat.zero_add,toNat_lba hin,hnat]
  have := h hs hdup
  omega

/-- The first block of data goes where the last entry of the table ends. -/
theorem saveFile_first {build : Profile} {filename : List Char} {data : Slice} {d : NvmeController}
    {start : UInt64} (hs : d.Succeeds d.log.length) (hnew : filename ∉ names (listed d))
    (hstart : nextLba build (listed d) = .ok start) (hn : (blocksNeeded data).toNat ≠ 0) :
    ∃ d' b, stateOf (saveFile build filename data (some d)) = some d' ∧
      d'.log[d.log.length + 1]? = some (.write start b) := by
  obtain ⟨cmds,tail,d',hd',hlog,hwrites,_⟩ := saveFile_log data hs hnew hstart
  have hne := hwrites.nonempty hn (.inl (by simpa using start.toNat_lt))
  obtain ⟨c,cmds,rfl⟩ := List.exists_cons_of_ne_nil hne
  obtain ⟨rfl,_⟩ := hwrites.command 0 c rfl
  refine ⟨d',.ofData (chunk data 0),hd',?_⟩
  rw [hlog,List.getElem?_append_right (by omega),Nat.add_sub_cancel_left]
  simp

theorem not_offTable {filename : List Char} {data : Slice} {d : NvmeController}
    (hs : d.Succeeds d.log.length) (hnew : filename ∉ names (listed d))
    (hzero : nextOf (listed d) = 0) (hn : (blocksNeeded data).toNat ≠ 0) (build : Profile) :
    ¬OffTable build d (.change (.save filename data)) := by
  intro h
  have hlt : nextOf (listed d) < 2^64 := by omega
  obtain ⟨start,hstart,hnat⟩ := nextLba_ok build hlt
  obtain ⟨d',b,hd',hcmd⟩ := saveFile_first hs hnew hstart hn
  refine h d' hd' 0 (Nat.pos_of_ne_zero hn) start b hcmd ?_
  exact UInt64.toNat_inj.mp (hnat.trans hzero)

theorem operation_agrees (op : Operation) : Agrees (op.exec .dev) (op.exec .release) := by
  cases op with
  | change c =>
    cases c with
    | save filename data => exact saveFile_agrees filename data
    | delete filename context => exact .refl _
    | rename oldName newName context => exact .refl _
  | read filename context => exact (readFile_agrees filename context).bind fun _ => .refl _

/-- In range is all there is to show of a debug build: a release build then does the same. -/
theorem LbasExact.of_dev {d : NvmeController} {op : Operation} (h : ¬Overflows (op.exec .dev) (some d))
    (hoff : OffTable .dev d op) : LbasExact d op := by
  have hsame := (operation_agrees op (some d)).resolve_left h
  refine ⟨h,hsame,fun build => ?_⟩
  cases build with
  | dev => exact hoff
  | release =>
    match op with
    | .change (.save filename data) =>
      have hrun : saveFile .release filename data (some d) = saveFile .dev filename data (some d) := hsame
      simp only [OffTable] at hoff ⊢
      rwa [hrun]
    | .change (.delete _ _) => trivial
    | .change (.rename _ _ _) => trivial
    | .read _ _ => trivial

/-- Whatever block 0 holds, the arithmetic of a call is exact and its data stays off the table
exactly when the numbers it takes from the table are in range, or it never comes to them. -/
theorem lbasExact_iff (d : NvmeController) (op : Operation) : LbasExact d op ↔ LbasInRange d op := by
  match op with
  | .change (.delete filename context) =>
    refine iff_of_true (.of_dev (fun h => ?_) trivial) trivial
    exact (((Call.delete filename context).overflows_iff d).mp h).2 trivial
  | .change (.rename oldName newName context) =>
    refine iff_of_true (.of_dev (fun h => ?_) trivial) trivial
    exact (((Call.rename oldName newName context).overflows_iff d).mp h).2 trivial
  | .change (.save filename data) =>
    constructor
    · intro h hs hnew
      constructor
      · by_contra hno
        exact not_offTable hs hnew (by omega) (by omega) .dev (h.off_table .dev)
      · by_contra hno
        push Not at hno
        refine h.in_range (save_overflows_iff.mpr ⟨hs,hnew,fun hin => ?_,hno.2⟩)
        have := hno.1 hin.1
        have := hin.2
        omega
    · intro h
      refine .of_dev (fun hover => ?_) (offTable_dev fun hs hnew => (h hs hnew).1)
      obtain ⟨hs,hnew,hout,hsucc⟩ := save_overflows_iff.mp hover
      rcases (h hs hnew).2 with hin | ⟨j,hj,hlt,hfail⟩
      · exact hout hin
      · exact hfail (hsucc j hj hlt)
  | .read filename context =>
    have hover : Overflows ((Operation.read filename context).exec .dev) (some d) ↔
        Overflows (readFile .dev filename context) (some d) := overflows_bind_pure
    constructor
    · intro h entry offset hs hlook hs₁ hg
      have hno := h.in_range
      rw [hover,read_overflows_iff] at hno
      constructor
      · by_contra hcap
        exact hno ⟨entry,offset,hs,hlook,hs₁,hg,.inl (by omega)⟩
      · by_contra hlba
        push Not at hlba
        exact hno ⟨entry,offset,hs,hlook,hs₁,hg,.inr ⟨hlba.1,hlba.2⟩⟩
    · intro h
      refine .of_dev (fun ho => ?_) trivial
      obtain ⟨entry,offset,hs,hlook,hs₁,hg,hpast⟩ := read_overflows_iff.mp (hover.mp ho)
      obtain ⟨hcap,hlba⟩ := h entry offset hs hlook hs₁ hg
      rcases hpast with hbig | ⟨hlarge,hsucc⟩
      · omega
      · rcases hlba with hle | ⟨i,hi,hfail⟩
        · omega
        · exact hfail (hsucc i hi)

/-- A table whose one entry ends with the last LBA. -/
def fullDrive : NvmeController := blankDrive.written 0 (mftBlock [⟨['a'],0xFFFFFFFFFFFFFFFF,1⟩])

theorem listed_fullDrive : listed fullDrive = [⟨['a'],0xFFFFFFFFFFFFFFFF,1⟩] := by
  rw [listed,fullDrive,written_blocks,Function.update_self]
  exact parseMft_mftBlock_of_clean (by unfold AllClean; decide) (by decide)

/-- The next save panics in a debug build, and writes its data over the table in a release build. -/
theorem fullDrive_overwritten :
    Overflows (saveFile .dev ['b'] ⟨[42],by decide⟩) (some fullDrive) ∧
    (∃ d' b, stateOf (saveFile .release ['b'] ⟨[42],by decide⟩ (some fullDrive)) = some d' ∧
      d'.log[fullDrive.log.length + 1]? = some (.write 0 b)) ∧
    ¬∀ d op, LbasExact d op := by
  have hhealthy : ∀ n, fullDrive.Succeeds n := blankDrive_healthy.written 0 _
  have hnew : ['b'] ∉ names (listed fullDrive) := by
    rw [listed_fullDrive]
    decide
  have hover : Overflows (saveFile .dev ['b'] ⟨[42],by decide⟩) (some fullDrive) := by
    refine save_overflows_iff.mpr ⟨hhealthy _,hnew,fun h => ?_,fun _ _ _ => hhealthy _⟩
    rw [listed_fullDrive] at h
    exact absurd h.1 (by decide)
  refine ⟨hover,?_,fun h => (h fullDrive (.change (.save ['b'] ⟨[42],by decide⟩))).in_range hover⟩
  exact saveFile_first (hhealthy _) hnew (by rw [listed_fullDrive]; rfl) (by decide)

end Mfs
end PolymorphOS
