import PolymorphOS.MdoReference
import PolymorphOS.MfsGate

/-! A script and the bytes after it. The header says where the script ends, and the two codes
for a script that ends too early are the only results that depend on it. -/
namespace PolymorphOS
namespace MdoVm

/-- The result does not report that the bytecode ended too early. -/
def Settled (r : Except UInt8 Unit) : Prop := r ≠ .error 0xFB ∧ r ≠ .error 0xFF

theorem fetch_append {code rest : List UInt8} {instr : Instr} (t : List UInt8)
    (h : fetch code = .ok (instr,rest)) : fetch (code ++ t) = .ok (instr,rest ++ t) := by
  cases code with
  | nil => cases h
  | cons op code =>
    simp only [List.cons_append,fetch] at h ⊢
    split_ifs at h ⊢
    · cases code with
      | nil => cases h
      | cons b code =>
        simp only [List.cons_append] at h ⊢
        cases hid : VarId.ofByte b with
        | none =>
          rw [hid] at h
          cases h
        | some id =>
          rw [hid] at h
          cases h
          rfl
    · rename_i hlong hlen
      cases h
      simp only [List.take_append_of_le_length hlen,List.drop_append_of_le_length hlen]
    · rename_i hlong hlen
      simp only [List.length_append] at hlong
      omega
    · cases h
      rfl
    · cases h
      rfl
    · cases code with
      | nil => cases h
      | cons b code =>
        cases h
        rfl
    · cases h
      rfl

/-- A failure to decode that more bytes cannot cure. -/
theorem fetch_append_error {code : List UInt8} {e : UInt8} (t : List UInt8)
    (h : fetch code = .error e) (hs : Settled (.error e)) : fetch (code ++ t) = .error e := by
  cases code with
  | nil =>
    cases h
    exact absurd rfl hs.1
  | cons op code =>
    simp only [List.cons_append,fetch] at h ⊢
    split_ifs at h ⊢
    · cases code with
      | nil =>
        cases h
        exact absurd rfl hs.2
      | cons b code =>
        simp only [List.cons_append] at h ⊢
        cases hid : VarId.ofByte b with
        | none =>
          rw [hid] at h
          cases h
          rfl
        | some id =>
          rw [hid] at h
          cases h
    · cases h
      exact absurd rfl hs.2
    · cases h
      exact absurd rfl hs.2
    · cases code with
      | nil =>
        cases h
        exact absurd rfl hs.2
      | cons b code => cases h
    · cases h
      rfl

/-- The two runs go in step until the shorter one decides. -/
theorem reference_append (ctx : MdoContext) (stack : List Hash) (code t : List UInt8)
    (hs : Settled (reference ctx stack code)) :
    reference ctx stack (code ++ t) = reference ctx stack code := by
  induction hn : code.length using Nat.strong_induction_on generalizing stack code with
  | _ n ih =>
  subst hn
  cases hf : fetch code with
  | error e =>
    rw [reference_error hf] at hs
    rw [reference_error hf,reference_error (fetch_append_error t hf hs)]
  | ok fetched =>
    obtain ⟨instr,rest⟩ := fetched
    have hf' := fetch_append t hf
    cases ht : instr.turn ctx stack with
    | goOn stack' =>
      rw [reference_goOn hf ht] at hs
      rw [reference_goOn hf ht,reference_goOn hf' ht]
      exact ih _ (fetch_length hf) stack' rest hs rfl
    | stop r => rw [reference_stop hf ht,reference_stop hf' ht]

theorem executeMictCheck_append {bytecode : List UInt8} {ctx : MdoContext} (t : List UInt8)
    (hs : Settled (executeMictCheck bytecode ctx)) :
    executeMictCheck (bytecode ++ t) ctx = executeMictCheck bytecode ctx := by
  rw [executeMictCheck_eq_reference] at hs
  rw [executeMictCheck_eq_reference,executeMictCheck_eq_reference,reference_append ctx [] _ t hs]

end MdoVm

namespace Mfs

/-- `b'` is `b` with a larger bytecode length, and the longer script still lies in the block. -/
structure Enlarged (b b' : Block) : Prop where
  before : b'.1.take 76 = b.1.take 76
  after : b'.1.drop 80 = b.1.drop 80
  longer : bytecodeLen b ≤ bytecodeLen b'
  inside : bytecodeLen b' ≤ 3968

theorem Enlarged.bytecodeOf {b b' : Block} (h : Enlarged b b') :
    ∃ t, Mfs.bytecodeOf b' = Mfs.bytecodeOf b ++ t := by
  have hdrop : b'.1.drop 128 = b.1.drop 128 := by
    rw [show (128 : ℕ) = 80 + 48 by norm_num,← List.drop_drop,← List.drop_drop,h.after]
  have hcode : ∀ c : Block, Mfs.bytecodeOf c = (c.1.drop 128).take (bytecodeLen c) := fun c => by
    rw [Mfs.bytecodeOf,bytesAt,Nat.add_sub_cancel_left]
  refine ⟨((b.1.drop 128).drop (bytecodeLen b)).take (bytecodeLen b' - bytecodeLen b),?_⟩
  rw [hcode,hcode,hdrop,← List.take_add,Nat.add_sub_cancel' h.longer]

/-- More bytecode changes no grant and no rejection but the two for a script that ends too
early, and a header that claims payload bytes as bytecode gains nothing by it. -/
theorem decision_stable (ctx : MdoContext) :
    (∀ bytecode t : List UInt8, MdoVm.Settled (MdoVm.executeMictCheck bytecode ctx) →
      MdoVm.executeMictCheck (bytecode ++ t) ctx = MdoVm.executeMictCheck bytecode ctx) ∧
    ∀ b b' : Block, Enlarged b b' →
      (∀ offset, gate b ctx = .ok offset → gate b' ctx = .ok (128 + bytecodeLen b')) ∧
      (∀ e, MdoVm.executeMictCheck (bytecodeOf b) ctx = .error e → MdoVm.Settled (.error e) →
        Denied b' ctx) := by
  refine ⟨fun bytecode t hs => MdoVm.executeMictCheck_append t hs,fun b b' h => ?_⟩
  obtain ⟨t,ht⟩ := h.bytecodeOf
  refine ⟨fun offset hg => gate_ok ?_,fun e he hs => .inr (.inr ?_)⟩
  · have hgrant : ¬Denied b ctx := fun hd => denied_iff.mp hd offset hg
    simp only [Denied,not_or,ne_eq,not_not] at hgrant ⊢
    have hmagic : bytesAt b' 0 4 = bytesAt b 0 4 := bytesAt_congr 0 h.before (by norm_num)
    refine ⟨hmagic.trans hgrant.1,not_lt.mpr h.inside,?_⟩
    rw [ht,MdoVm.executeMictCheck_append t (by simp [MdoVm.Settled,hgrant.2.2]),hgrant.2.2]
  · rw [ht,MdoVm.executeMictCheck_append t (by rw [he]; exact hs),he]
    simp

/-- A grant, and a byte after it. -/
theorem decision_stable_halt :
    MdoVm.executeMictCheck ([0x3F] ++ [0x00]) ⟨MdoVm.zeroHash,MdoVm.zeroHash,MdoVm.zeroHash,0⟩ =
      .ok () := by
  have hgrant : MdoVm.executeMictCheck [0x3F]
      ⟨MdoVm.zeroHash,MdoVm.zeroHash,MdoVm.zeroHash,0⟩ = .ok () := by
    have hfetch : MdoVm.fetch [0x3F] = .ok (.haltOk,[]) := rfl
    rw [MdoVm.executeMictCheck_eq_reference]
    exact MdoVm.reference_stop hfetch rfl
  rw [← hgrant]
  exact (decision_stable _).1 [0x3F] [0x00] (by rw [hgrant]; exact ⟨nofun,nofun⟩)

end Mfs
end PolymorphOS
