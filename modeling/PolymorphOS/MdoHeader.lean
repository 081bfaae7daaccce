import PolymorphOS.MdoPolicy
import PolymorphOS.MfsGate

/-! The owner and the status of a file: the header stores them, and the gate evaluates
the policy under the ones the caller claims. -/
namespace PolymorphOS
namespace Mfs

open Kernel NvmeController MdoVm

/-- Bytes `0x04` to `0x23` of the header. -/
def headerOwner (b : Block) : Hash := ⟨bytesAt b 4 36,by simp [bytesAt,b.2]⟩

/-- Bytes `0x48` to `0x4B` of the header. -/
def headerStatus (b : Block) : UInt32 := .ofNat (fromLeBytes (bytesAt b 72 76))

/-- The caller's request, with the owner and the status of the file. -/
def trusted (b : Block) (ctx : MdoContext) : MdoContext :=
  {ctx with ownerIdHash := headerOwner b,status := headerStatus b}

/-- The gate lets the caller through. -/
def Grants (d : NvmeController) (lba : UInt64) (ctx : MdoContext) : Prop :=
  ∃ offset s, verifyMdoAccess lba ctx (some d) = .ok offset s

theorem grants_iff {d : NvmeController} (hs : d.Succeeds d.log.length) {lba : UInt64}
    (hmagic : bytesAt (d.blocks lba) 0 4 = mdoMagic) (hlen : bytecodeLen (d.blocks lba) ≤ 3968)
    (ctx : MdoContext) :
    Grants d lba ctx ↔ executeMictCheck (bytecodeOf (d.blocks lba)) ctx = .ok () := by
  have hread := verifyMdoAccess_read lba ctx hs
  unfold Grants
  rw [hread,gate,if_neg (not_not.mpr hmagic),if_neg (not_lt.mpr hlen)]
  cases executeMictCheck (bytecodeOf (d.blocks lba)) ctx with
  | error e =>
    refine iff_of_false ?_ (by simp)
    rintro ⟨offset,s,h⟩
    rw [ofErr_error] at h
    cases h
  | ok u => exact iff_of_true ⟨_,_,ofErr_ok _ _⟩ rfl

/-- `PUSH_VAR requestor`, `PUSH_VAR owner`, `EQ`, `ASSERT_OR_DISSONANCE 0x42`, `HALT_OK`. -/
def ownerPolicy : List UInt8 := [0x10,0x01,0x10,0x03,0x20,0x30,0x42,0x3F]

theorem policy_ownerPolicy :
    policy [] ownerPolicy = ([⟨.eq (.var .owner) (.var .requestor),0x42⟩],.ok ()) := by
  simp [ownerPolicy,policy,fetch,opPushVar,opPushConstHash,opEq,opNeq,opAssertOrDissonance,opHaltOk,
    VarId.ofByte,varRequestorId,varAction,varOwnerId]

theorem ownerPolicy_ok_iff (ctx : MdoContext) :
    executeMictCheck ownerPolicy ctx = .ok () ↔ ctx.requestorIdHash = ctx.ownerIdHash := by
  rw [executeMictCheck_eq,policy_ownerPolicy,Policy.verdict_ok_iff]
  have hbool : ∀ b, (firstByte (boolHash b) != 0) = b := by decide
  simp only [true_and,List.mem_singleton,forall_eq,Clause.holds,Term.eval,hbool,VarId.value,
    beq_iff_eq]
  exact eq_comm

/-- The gate decides as documented, two callers that claim different owners or statuses
are treated alike, and the owner policy admits the owner, each exactly when the policy
does not see the difference between what is claimed and what is stored. -/
theorem header_decides_iff {d : NvmeController} (hs : d.Succeeds d.log.length) {lba : UInt64}
    (hmagic : bytesAt (d.blocks lba) 0 4 = mdoMagic) (hlen : bytecodeLen (d.blocks lba) ≤ 3968)
    (ctx : MdoContext) :
    ((Grants d lba ctx ↔
        executeMictCheck (bytecodeOf (d.blocks lba)) (trusted (d.blocks lba) ctx) = .ok ()) ↔
      (policy [] (bytecodeOf (d.blocks lba))).Insensitive ctx (trusted (d.blocks lba) ctx)) ∧
    (∀ ctx', SameRequest ctx ctx' → ((Grants d lba ctx ↔ Grants d lba ctx') ↔
      (policy [] (bytecodeOf (d.blocks lba))).Insensitive ctx ctx')) ∧
    (bytecodeOf (d.blocks lba) = ownerPolicy →
      ((Grants d lba ctx ↔ ctx.requestorIdHash = headerOwner (d.blocks lba)) ↔
        (ctx.requestorIdHash = ctx.ownerIdHash ↔
          ctx.requestorIdHash = headerOwner (d.blocks lba)))) := by
  refine ⟨?_,fun ctx' h => ?_,fun hcode => ?_⟩
  · rw [grants_iff hs hmagic hlen,executeMictCheck_eq,executeMictCheck_eq]
    exact Policy.same_verdict_iff _ ⟨rfl,rfl⟩
  · rw [grants_iff hs hmagic hlen,grants_iff hs hmagic hlen,executeMictCheck_eq,executeMictCheck_eq]
    exact Policy.same_verdict_iff _ h
  · rw [grants_iff hs hmagic hlen,hcode,ownerPolicy_ok_iff]

def secretMessage : List UInt8 :=
  Utf8.encode "TOP SECRET: PolyMorphOS Sovereign Kernel Verified!".toList

/-- The file the kernel saves as `vault.mdo` at boot. -/
def forgeDummyMdoPayload : List UInt8 :=
  mdoMagic ++ List.replicate 32 0xAA ++ List.replicate 40 0 ++ [8,0,0,0] ++ List.replicate 48 0 ++
  ownerPolicy ++ secretMessage ++ List.replicate (4096 - 136 - secretMessage.length) 0

theorem length_forgeDummyMdoPayload : forgeDummyMdoPayload.length = 4096 := by
  have hmsg : secretMessage.length = 50 := by decide
  simp only [forgeDummyMdoPayload,List.length_append,List.length_replicate,hmsg]
  rfl

def repeatedHash (b : UInt8) : Hash := ⟨List.replicate 32 b,List.length_replicate⟩

/-- A drive whose block 1 is the forged file. -/
def vaultDrive : NvmeController :=
  ⟨fun lba => if lba = 1 then .ofData forgeDummyMdoPayload else .zero,fun _ => 0,[]⟩

theorem vaultDrive_magic : bytesAt (vaultDrive.blocks 1) 0 4 = mdoMagic := by decide

theorem vaultDrive_owner : headerOwner (vaultDrive.blocks 1) = repeatedHash 0xAA := by decide

theorem vaultDrive_bytecode : bytecodeOf (vaultDrive.blocks 1) = ownerPolicy := by decide

theorem vaultDrive_succeeds (n : ℕ) : vaultDrive.Succeeds n :=
  show (0 : UInt16) >>> 1 = 0 by decide

theorem vaultDrive_len : bytecodeLen (vaultDrive.blocks 1) ≤ 3968 := by decide

theorem header_decides_honest_owner :
    Grants vaultDrive 1 ⟨repeatedHash 0xAA,zeroHash,repeatedHash 0xAA,0⟩ :=
  (((header_decides_iff (vaultDrive_succeeds _) vaultDrive_magic vaultDrive_len
    ⟨repeatedHash 0xAA,zeroHash,repeatedHash 0xAA,0⟩).2.2 vaultDrive_bytecode).mpr
      (by rw [vaultDrive_owner])).mpr vaultDrive_owner.symm

/-- The owner of the forged file is `0xAA…`. A requestor `0xBB…` who claims to be the owner
is let in, and the boot's own request by `0xAA…`, which claims owner `0x00…`, is not. -/
theorem claimed_owner_decides :
    headerOwner (vaultDrive.blocks 1) = repeatedHash 0xAA ∧
    bytesAt (vaultDrive.blocks 1) 0 4 = mdoMagic ∧ bytecodeLen (vaultDrive.blocks 1) ≤ 3968 ∧
    Grants vaultDrive 1 ⟨repeatedHash 0xBB,zeroHash,repeatedHash 0xBB,0⟩ ∧
    executeMictCheck (bytecodeOf (vaultDrive.blocks 1))
      (trusted (vaultDrive.blocks 1) ⟨repeatedHash 0xBB,zeroHash,repeatedHash 0xBB,0⟩) ≠ .ok () ∧
    ¬Grants vaultDrive 1 ⟨repeatedHash 0xAA,zeroHash,zeroHash,0⟩ := by
  refine ⟨vaultDrive_owner,vaultDrive_magic,vaultDrive_len,?_,?_,?_⟩
  · rw [grants_iff (vaultDrive_succeeds _) vaultDrive_magic vaultDrive_len,vaultDrive_bytecode,
      ownerPolicy_ok_iff]
  · rw [vaultDrive_bytecode,ne_eq,ownerPolicy_ok_iff,trusted,vaultDrive_owner]
    decide
  · rw [grants_iff (vaultDrive_succeeds _) vaultDrive_magic vaultDrive_len,vaultDrive_bytecode,
      ownerPolicy_ok_iff]
    decide

end Mfs
end PolymorphOS
