import PolymorphOS.PayloadNames

/-! The name under which a payload is saved: how many probes it takes, which name it is, and that
`save_file` accepts it. -/
namespace PolymorphOS
namespace Mfs

open Kernel NvmeController

variable {A B : Type} {build : Profile} {d : NvmeController} {n c : Int32} {k : ℕ}

/-- On a drive without failures the call returns and leaves it so, or an addition overflows. -/
def Sound (x : Kernel A) : Prop :=
  ∀ d : NvmeController, d.Healthy → (∃ a d', x (some d) = .ok a (some d') ∧ d'.Healthy) ∨
    ∃ cause t, x (some d) = .error (.panic cause) t

namespace Sound

theorem pure (a : A) : Sound (Pure.pure a : Kernel A) := fun d hd => .inl ⟨a,d,rfl,hd⟩

theorem bind {x : Kernel A} {f : A → Kernel B} (hx : Sound x) (hf : ∀ a, Sound (f a)) :
    Sound (x >>= f) := by
  intro d hd
  rcases hx d hd with ⟨a,d',h,hd'⟩ | ⟨cause,t,h⟩
  · rw [bind_ok h]
    exact hf a d' hd'
  · exact .inr ⟨cause,t,bind_error h⟩

theorem ofPanic (r : Except Panic A) : Sound (Kernel.ofPanic r) := by
  intro d hd
  cases r with
  | error cause => exact .inr ⟨cause,_,rfl⟩
  | ok a => exact .inl ⟨a,d,rfl,hd⟩

theorem nvmeLock : Sound Kernel.nvmeLock := fun d hd => .inl ⟨(),d,rfl,hd⟩

theorem write (message : String) (lba : UInt64) {data : List UInt8} (h : data.length ≤ 4096) :
    Sound (nvme message (·.writeBlock lba data)) :=
  fun _ hd => .inl ⟨(),_,nvme_write_ok message lba h (hd _),hd.written _ _⟩

theorem writeBlocks (build : Profile) (start : UInt64) (data : Slice) (i n : ℕ) :
    Sound (Mfs.writeBlocks build start data i n) := by
  induction n generalizing i with
  | zero => exact pure ()
  | succ n ih =>
    exact (ofPanic _).bind fun lba => (write _ lba (length_chunk data i)).bind fun _ => ih (i + 1)

end Sound

/-- The names of the strict table are in the table that `find_file` reads. -/
theorem listed_subset (d : NvmeController) : listed d ⊆ looseEntries (d.blocks 0) := by
  rw [listed]
  by_cases h : magicText <+: mftText (d.blocks 0)
  · rw [parseMft_of_header h]
    exact List.Subset.refl _
  · rw [parseMft_of_no_header h]
    exact List.nil_subset _

/-- A name that no line has, not even up to ASCII case, is accepted: what stops the save then is
an addition that overflows, and nothing else. -/
theorem saveFile_unnamed (hd : d.Healthy) (hfree : ¬Named (d.blocks 0) n) (data : Slice)
    (message : String) (t : Option NvmeController) :
    saveFile build (payloadName n) data (some d) ≠ .error (.err message) t := by
  have hfresh : ¬(listed d).any (·.name == payloadName n) = true := by
    intro hany
    obtain ⟨e,he,hname⟩ := List.any_eq_true.mp hany
    refine hfree ⟨e,listed_subset d he,?_⟩
    rw [beq_iff_eq.mp hname]
    exact sameName_refl _
  rw [saveFile,bind_ok (readMft_ok (hd _)),if_neg hfresh]
  have hrest : Sound (do
      let start ← ofPanic (nextLba build (listed d))
      nvmeLock
      writeBlocks build start data 0 (blocksNeeded data).toNat
      writeMft (listed d ++ [⟨payloadName n,start,blocksNeeded data⟩])) :=
    (Sound.ofPanic _).bind fun start => Sound.nvmeLock.bind fun _ =>
      (Sound.writeBlocks build start data _ _).bind fun _ => Sound.write _ _ (mftBlock _).2.le
  rcases hrest _ (hd.issued (.read 0)) with ⟨a,d',h,_⟩ | ⟨cause,t',h⟩
  · rw [h]
    intro hsame
    cases hsame
  · rw [h]
    intro hsame
    cases hsame

theorem taken_iff_named (hd : d.Healthy) :
    Taken (some d) k (payloadName n) ↔ Named (d.blocks 0) n := by
  rw [← isSome_lookup]
  constructor
  · rintro ⟨_,⟨⟩,_,h⟩
    exact h
  · exact fun h => ⟨d,rfl,hd _,h⟩

/-- The counters from `c` on, as long as they stay in the range of the type. -/
theorem toInt_add (h : c.toInt + k < 2^31) (hk : k < 2^31) :
    (c + .ofNat k).toInt = c.toInt + k := by
  have hlo := c.le_toInt
  rw [Int32.toInt_add,Int32.toInt_ofNat_of_lt hk]
  exact Int.bmod_eq_of_le_mul_two (by omega) (by omega)

/-- The first counter that no line names comes after at most as many others as there are lines. -/
theorem exists_first_unnamed (b : Block) (c : Int32) : ∃ k ≤ (tableLines b).length,
    ¬Named b (c + .ofNat k) ∧ ∀ i < k, Named b (c + .ofNat i) := by
  classical
  obtain ⟨j,hj,hfree⟩ := exists_unnamed b c
  have hexists : ∃ k, ¬Named b (c + .ofNat k) := ⟨j,hfree⟩
  refine ⟨Nat.find hexists,(Nat.find_min' hexists hfree).trans hj,Nat.find_spec hexists,?_⟩
  exact fun i hi => not_not.mp (Nat.find_min hexists hi)

/-- Whatever block 0 holds, the search takes at most one probe more than the table has lines,
whichever larger number the loop would allow; it ends with the least counter from the given one on
that no valid line names, and `save_file` does not find that name in the table. -/
theorem payload_naming (build : Profile) (d : NvmeController) (hd : d.Healthy) (c : Int32)
    (hc : c.toInt < 2^31 - 5000) :
    ∃ (n : Int32) (probes : ℕ), probes ≤ (tableLines (d.blocks 0)).length + 1 ∧
      probes ≤ maxProbes ∧
      (∀ allowed ≥ probes,
        searchName build allowed c (some d) = .ok (some n) (probed (some d) probes)) ∧
      (c ≤ n ∧ ¬Named (d.blocks 0) n ∧ ∀ m, c ≤ m → m < n → Named (d.blocks 0) m) ∧
      ∀ data t, saveFile build (payloadName n) data (probed (some d) probes) ≠
        .error (.err "File already exists") t := by
  obtain ⟨k,hk,hfree,htaken⟩ := exists_first_unnamed (d.blocks 0) c
  have hlines := (length_looseEntries_le (d.blocks 0)).2
  rw [maxProbes] at hlines
  have hcount : ∀ i ≤ k, (c + .ofNat i).toInt = c.toInt + i := fun i hi =>
    toInt_add (by omega) (by omega)
  let after : NvmeController := {d with log := d.log ++ List.replicate (k + 1) (.read 0)}
  have hafter : after.Healthy := hd
  refine ⟨c + .ofNat k,k + 1,by omega,by rw [maxProbes]; omega,?_,⟨?_,hfree,?_⟩,?_⟩
  · intro allowed hallowed
    refine searchName_ok hallowed ((taken_iff_named hd).not.mpr hfree)
      (fun i hi => (taken_iff_named hd).mpr (htaken i hi)) fun i hi => .inl fun hmax => ?_
    have hint := hcount i hi.le
    have htop : Int32.maxValue.toInt = 2147483647 := rfl
    rw [hmax] at hint
    omega
  · rw [Int32.le_iff_toInt_le,hcount k le_rfl]
    omega
  · intro m hle hlt
    rw [Int32.le_iff_toInt_le] at hle
    rw [Int32.lt_iff_toInt_lt,hcount k le_rfl] at hlt
    obtain ⟨i,hi⟩ := Int.eq_ofNat_of_zero_le (sub_nonneg.mpr hle)
    have hm : m = c + .ofNat i := Int32.toInt_inj.mp (by rw [hcount i (by omega)]; omega)
    rw [hm]
    exact htaken i (by omega)
  · exact fun data t => saveFile_unnamed hafter hfree data _ t

/-- A table without its header, whose one line names `payload_0.mdo` in capital letters. -/
def capitalBlock : Block := .ofData (Utf8.encode "\n PAYLOAD_0.MDO:1:1".toList)

theorem looseEntries_capitalBlock :
    looseEntries capitalBlock = [⟨" PAYLOAD_0.MDO".toList,1,1⟩] := by
  have htext : mftText capitalBlock = "\n PAYLOAD_0.MDO:1:1".toList :=
    mftText_ofData (by decide) (by decide)
  rw [looseEntries,htext]
  decide

theorem named_capitalBlock : Named capitalBlock 0 ∧ ¬Named capitalBlock 1 := by
  rw [Named,Named,looseEntries_capitalBlock]
  simp only [List.mem_singleton,exists_eq_left]
  decide

/-- The name is taken there, and the next one is free. -/
theorem capitalBlock_naming : ∃ probes ≤ maxProbes,
    searchName .dev maxProbes 0 (some {blankDrive with blocks := fun _ => capitalBlock}) =
      .ok (some 1) (probed (some {blankDrive with blocks := fun _ => capitalBlock}) probes) := by
  obtain ⟨n,probes,_,hprobes,hsearch,⟨hle,hfree,hleast⟩,_⟩ := payload_naming .dev
    {blankDrive with blocks := fun _ => capitalBlock} blankDrive_healthy 0 (by decide)
  obtain ⟨hzero,hone⟩ := named_capitalBlock
  have hn : n = 1 := by
    rcases Int32.lt_or_eq_of_le hle with hlt | rfl
    · by_contra hne
      refine hone (hleast 1 (by decide) ?_)
      rw [Int32.lt_iff_toInt_lt] at hlt ⊢
      have hint : n.toInt ≠ (1 : Int32).toInt := fun h => hne (Int32.toInt_inj.mp h)
      have h0 : (0 : Int32).toInt = 0 := rfl
      have h1 : (1 : Int32).toInt = 1 := rfl
      omega
    · exact absurd hzero hfree
  exact ⟨probes,hprobes,hn ▸ hsearch maxProbes hprobes⟩

end Mfs
end PolymorphOS
