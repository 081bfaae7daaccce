import PolymorphOS.MfsLookup

/-! The gate in front of reading, deleting and renaming: what it decides on, and that a
denied call does nothing and tells nothing. -/
namespace PolymorphOS
namespace Mfs

open Kernel NvmeController

/-- The block is no MDO block, or the policy in it rejects the context. -/
def Denied (firstBlock : Block) (context : MdoContext) : Prop :=
  bytesAt firstBlock 0 4 ≠ mdoMagic ∨ 3968 < bytecodeLen firstBlock ∨
  MdoVm.executeMictCheck (bytecodeOf firstBlock) context ≠ .ok ()

theorem gate_ok {b : Block} {ctx : MdoContext} (h : ¬Denied b ctx) :
    gate b ctx = .ok (128 + bytecodeLen b) := by
  simp only [Denied,not_or,ne_eq,not_not] at h
  rw [gate,if_neg (not_not.mpr h.1),if_neg h.2.1,h.2.2]

theorem gate_error {b : Block} {ctx : MdoContext} (h : Denied b ctx) :
    ∃ message, gate b ctx = .error message := by
  unfold gate
  by_cases hmagic : bytesAt b 0 4 ≠ mdoMagic
  · exact ⟨_,if_pos hmagic⟩
  rw [if_neg hmagic]
  by_cases hlen : 3968 < bytecodeLen b
  · exact ⟨_,if_pos hlen⟩
  rw [if_neg hlen]
  cases hrun : MdoVm.executeMictCheck (bytecodeOf b) ctx with
  | error _ => exact ⟨_,rfl⟩
  | ok u => exact absurd hrun ((h.resolve_left hmagic).resolve_left hlen)

theorem denied_iff {b : Block} {ctx : MdoContext} :
    Denied b ctx ↔ ∀ offset, gate b ctx ≠ .ok offset := by
  constructor
  · intro h offset hg
    obtain ⟨message,hm⟩ := gate_error h
    rw [hm] at hg
    cases hg
  · intro h
    by_contra hd
    exact h _ (gate_ok hd)

/-- The bytes of a first block the gate may look at: the header, and the bytecode if it
lies inside the block. -/
def gateBytes (b : Block) : ℕ := if 3968 < bytecodeLen b then 128 else 128 + bytecodeLen b

theorem bytesAt_congr {b b' : Block} {n hi : ℕ} (lo : ℕ) (h : b'.1.take n = b.1.take n) (hn : hi ≤ n) :
    bytesAt b' lo hi = bytesAt b lo hi := by
  have htake : ∀ c : Block, bytesAt c lo hi = ((c.1.take n).take hi).drop lo := fun c => by
    rw [bytesAt,List.take_take,min_eq_left hn,List.drop_take]
  rw [htake,htake,h]

theorem gate_congr {b b' : Block} (ctx : MdoContext)
    (h : b'.1.take (gateBytes b) = b.1.take (gateBytes b)) : gate b' ctx = gate b ctx := by
  have h128 : 128 ≤ gateBytes b := by
    unfold gateBytes
    split <;> omega
  have hmagic : bytesAt b' 0 4 = bytesAt b 0 4 := bytesAt_congr 0 h (by omega)
  have hlen : bytecodeLen b' = bytecodeLen b := by
    rw [bytecodeLen,bytesAt_congr 76 h (by omega),bytecodeLen]
  unfold gate
  rw [hmagic,hlen]
  by_cases hlong : 3968 < bytecodeLen b
  · rw [if_pos hlong,if_pos hlong]
  · have hbytes : gateBytes b = 128 + bytecodeLen b := if_neg hlong
    have hcode : bytecodeOf b' = bytecodeOf b := by
      rw [bytecodeOf,hlen,bytesAt_congr 128 h hbytes.ge,bytecodeOf]
    rw [hcode]

theorem findFile_ok {d : NvmeController} (name : List Char) (h : d.Succeeds d.log.length) :
    findFile name (some d) = .ok (lookup (d.blocks 0) name) (some (d.issued (.read 0))) := by
  rw [findFile,d.readBlock_eq,if_pos h]

theorem findFile_some_iff {d : NvmeController} {name : List Char} {entry : FileEntry}
    {t : Option NvmeController} : findFile name (some d) = .ok (some entry) t ↔
      d.Succeeds d.log.length ∧ lookup (d.blocks 0) name = some entry ∧
        t = some (d.issued (.read 0)) := by
  by_cases hs : d.Succeeds d.log.length
  · rw [findFile_ok name hs]
    constructor
    · intro h
      injection h with hfound ht
      exact ⟨hs,hfound,ht.symm⟩
    · rintro ⟨_,hfound,rfl⟩
      rw [hfound]
  · have hnone : findFile name (some d) = .ok none (some (d.issued (.read 0))) := by
      rw [findFile,d.readBlock_eq,if_neg hs]
    rw [hnone]
    exact iff_of_false (by simp) fun h => hs h.1

theorem verifyMdoAccess_denied {d : NvmeController} (hd : d.Healthy) {lba : UInt64}
    {ctx : MdoContext} {message : String} (hg : gate (d.blocks lba) ctx = .error message) :
    verifyMdoAccess lba ctx (some d) = .error (.err message) (some (d.issued (.read lba))) := by
  rw [verifyMdoAccess_read lba ctx (hd _),hg,ofErr_error]

theorem readFile_denied (build : Profile) {d : NvmeController} (hd : d.Healthy) {name : List Char}
    {entry : FileEntry} {ctx : MdoContext} {message : String}
    (he : lookup (d.blocks 0) name = some entry)
    (hg : gate (d.blocks entry.startLba) ctx = .error message) :
    readFile build name ctx (some d) =
      .error (.err message) (some ((d.issued (.read 0)).issued (.read entry.startLba))) := by
  rw [readFile,bind_ok (findFile_ok name (hd _)),he]
  exact bind_error (verifyMdoAccess_denied (hd.issued _) hg)

theorem deleteFile_denied {d : NvmeController} (hd : d.Healthy) {name : List Char}
    {entry : FileEntry} {ctx : MdoContext} {message : String}
    (he : resolveExact (listed d) name = some entry)
    (hg : gate (d.blocks entry.startLba) ctx = .error message) :
    deleteFile name ctx (some d) =
      .error (.err message) (some ((d.issued (.read 0)).issued (.read entry.startLba))) := by
  obtain ⟨pos,hpos,rfl⟩ := Option.map_eq_some_iff.mp he
  rw [deleteFile,bind_ok (readMft_ok (hd _)),hpos]
  exact bind_error (verifyMdoAccess_denied (hd.issued _) hg)

/-- A rename to a listed name is refused before the gate is asked. -/
theorem renameFile_denied {d : NvmeController} (hd : d.Healthy) {name : List Char}
    (newName : List Char) {entry : FileEntry} {ctx : MdoContext} {message : String}
    (he : resolveExact (listed d) name = some entry)
    (hg : gate (d.blocks entry.startLba) ctx = .error message) :
    renameFile name newName ctx (some d) = if newName ∈ names (listed d) then
        .error (.err "Target filename already exists.") (some (d.issued (.read 0)))
      else .error (.err message) (some ((d.issued (.read 0)).issued (.read entry.startLba))) := by
  rw [renameFile,bind_ok (readMft_ok (hd _))]
  by_cases hnew : newName ∈ names (listed d)
  · rw [if_pos hnew,if_pos (any_name_iff.mpr hnew)]
    rfl
  · rw [if_neg hnew,if_neg fun ha => hnew (any_name_iff.mp ha)]
    obtain ⟨pos,hpos,rfl⟩ := Option.map_eq_some_iff.mp he
    rw [hpos]
    exact bind_error (verifyMdoAccess_denied (hd.issued _) hg)

/-- The call ends with an error, changes no block, and ends the same way on every drive
with the same table and the same header and policy at the start of the entry. -/
def Refused {A : Type} (d : NvmeController) (entry : FileEntry) (call : Kernel A) : Prop :=
  ∃ message d', call (some d) = .error (.err message) (some d') ∧ d'.blocks = d.blocks ∧
    ∀ other : NvmeController, other.Healthy → other.blocks 0 = d.blocks 0 →
      (other.blocks entry.startLba).1.take (gateBytes (d.blocks entry.startLba)) =
        (d.blocks entry.startLba).1.take (gateBytes (d.blocks entry.startLba)) →
      ∃ other', call (some other) = .error (.err message) (some other')

/-- No way around the gate. -/
theorem complete_mediation (build : Profile) {d : NvmeController} (hd : d.Healthy)
    (name newName : List Char) (ctx : MdoContext) (entry : FileEntry)
    (hdenied : Denied (d.blocks entry.startLba) ctx) :
    (lookup (d.blocks 0) name = some entry → Refused d entry (readFile build name ctx)) ∧
    (resolveExact (listed d) name = some entry → Refused d entry (deleteFile name ctx)) ∧
    (resolveExact (listed d) name = some entry →
      Refused d entry (renameFile name newName ctx)) := by
  obtain ⟨message,hg⟩ := gate_error hdenied
  have hother : ∀ other : NvmeController,
      (other.blocks entry.startLba).1.take (gateBytes (d.blocks entry.startLba)) =
        (d.blocks entry.startLba).1.take (gateBytes (d.blocks entry.startLba)) →
      gate (other.blocks entry.startLba) ctx = .error message := fun other h => by
    rw [gate_congr ctx h,hg]
  refine ⟨fun he => ?_,fun he => ?_,fun he => ?_⟩
  · refine ⟨message,_,readFile_denied build hd he hg,rfl,fun other ho h0 hb => ?_⟩
    exact ⟨_,readFile_denied build ho (h0 ▸ he) (hother other hb)⟩
  · refine ⟨message,_,deleteFile_denied hd he hg,rfl,fun other ho h0 hb => ?_⟩
    exact ⟨_,deleteFile_denied ho (listed_congr h0 ▸ he) (hother other hb)⟩
  · have hrun := renameFile_denied hd newName he hg
    by_cases hnew : newName ∈ names (listed d)
    · rw [if_pos hnew] at hrun
      refine ⟨_,_,hrun,rfl,fun other ho h0 hb => ?_⟩
      have hrun' := renameFile_denied ho newName (listed_congr h0 ▸ he) (hother other hb)
      rw [listed_congr h0,if_pos hnew] at hrun'
      exact ⟨_,hrun'⟩
    · rw [if_neg hnew] at hrun
      refine ⟨_,_,hrun,rfl,fun other ho h0 hb => ?_⟩
      have hrun' := renameFile_denied ho newName (listed_congr h0 ▸ he) (hother other hb)
      rw [listed_congr h0,if_neg hnew] at hrun'
      exact ⟨_,hrun'⟩

theorem complete_mediation_no_mdo : ∃ d : NvmeController,
    lookup (d.blocks 0) ['a'] = some ⟨['a'],1,1⟩ ∧
    Refused d ⟨['a'],1,1⟩ (readFile .dev ['a'] ⟨MdoVm.zeroHash,MdoVm.zeroHash,MdoVm.zeroHash,0⟩) := by
  have hfit : tableSize [⟨['a'],1,1⟩] ≤ 4096 := by decide
  have hlookup : lookup ((blankDrive.written 0 (mftBlock [⟨['a'],1,1⟩])).blocks 0) ['a'] =
      some ⟨['a'],1,1⟩ := by
    rw [NvmeController.written_blocks,Function.update_self,
      lookup_mftBlock (by unfold AllClean; decide) hfit]
    decide
  have hblock : (blankDrive.written 0 (mftBlock [⟨['a'],1,1⟩])).blocks 1 = .zero := by
    rw [NvmeController.written_blocks,Function.update_of_ne (by decide)]
    rfl
  exact ⟨_,hlookup,(complete_mediation .dev (blankDrive_healthy.written 0 _) ['a'] ['b'] _
    ⟨['a'],1,1⟩ (.inl (by rw [hblock]; decide))).1 hlookup⟩

end Mfs
end PolymorphOS
