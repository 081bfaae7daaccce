import Mathlib.Data.Vector.Basic
import Mathlib.Tactic

/-! Bit sets packed eight to a byte: what setting, clearing and testing one bit
through its byte mask do to the set as a whole. -/
namespace PolymorphOS
namespace Bitmap

/-- The mask of bit `i` in its byte. -/
def mask (i : ℕ) : UInt8 := 1 <<< UInt8.ofNat (i % 8)

/-- Membership in the set; no bit lies past the last byte. -/
def bit {n : ℕ} (map : Vector UInt8 n) (i : ℕ) : Bool :=
  if h : i / 8 < n then (map[i / 8]).toBitVec.getLsbD (i % 8) else false

theorem mask_toBitVec (i : ℕ) : (mask i).toBitVec = BitVec.twoPow 8 (i % 8) := by
  have hi : i % 8 < 8 := Nat.mod_lt _ (by norm_num)
  rw [mask]
  interval_cases i % 8 <;> rfl

theorem and_mask_ne_zero (b : UInt8) (i : ℕ) :
    (b &&& mask i != 0) = b.toBitVec.getLsbD (i % 8) := by
  have hi : i % 8 < 8 := Nat.mod_lt _ (by norm_num)
  have hz : (b &&& mask i = 0) ↔ b.toBitVec.getLsbD (i % 8) = false := by
    rw [← UInt8.toBitVec_inj,UInt8.toBitVec_and,mask_toBitVec,BitVec.and_twoPow]
    cases hb : b.toBitVec.getLsbD (i % 8)
    · simp
    · simp only [if_true,Bool.true_eq_false,iff_false]
      intro h
      have := congrArg (fun x => BitVec.getLsbD x (i % 8)) h
      simp [hi] at this
  cases hb : b.toBitVec.getLsbD (i % 8) <;> simp_all

theorem bit_test {n : ℕ} (map : Vector UInt8 n) {i : ℕ} (h : i / 8 < n) :
    (map[i / 8] &&& mask i != 0) = bit map i := by
  rw [and_mask_ne_zero,bit,dif_pos h]

theorem mask_getLsbD {i j : ℕ} (h : i / 8 = j / 8) :
    (mask i).toBitVec.getLsbD (j % 8) = decide (j = i) := by
  have hi : i % 8 < 8 := Nat.mod_lt _ (by norm_num)
  rw [mask_toBitVec,BitVec.getLsbD_twoPow,decide_eq_true hi,Bool.true_and,decide_eq_decide]
  omega

theorem bit_insert {n : ℕ} (map : Vector UInt8 n) {i : ℕ} (h : i / 8 < n) (j : ℕ) :
    bit (map.set (i / 8) (map[i / 8] ||| mask i)) j = (bit map j || decide (j = i)) := by
  unfold bit
  by_cases hn : j / 8 < n
  · rw [dif_pos hn,dif_pos hn]
    by_cases hb : i / 8 = j / 8
    · simp only [hb,Vector.getElem_set_self,UInt8.toBitVec_or,BitVec.getLsbD_or,mask_getLsbD hb]
    · have hne : j ≠ i := fun he => hb (by rw [he])
      simp [hb,hne]
  · have hne : j ≠ i := fun he => hn (by rwa [he])
    simp [hn,hne]

theorem bit_erase {n : ℕ} (map : Vector UInt8 n) {i : ℕ} (h : i / 8 < n) (j : ℕ) :
    bit (map.set (i / 8) (map[i / 8] &&& ~~~mask i)) j = (bit map j && !decide (j = i)) := by
  have hj : j % 8 < 8 := Nat.mod_lt _ (by norm_num)
  unfold bit
  by_cases hn : j / 8 < n
  · rw [dif_pos hn,dif_pos hn]
    by_cases hb : i / 8 = j / 8
    · simp only [hb,Vector.getElem_set_self,UInt8.toBitVec_and,UInt8.toBitVec_not,
        BitVec.getLsbD_and,BitVec.getLsbD_not,mask_getLsbD hb,hj,decide_true,Bool.true_and]
    · have hne : j ≠ i := fun he => hb (by rw [he])
      simp [hb,hne]
  · simp [hn]

@[simp] theorem bit_zero {n : ℕ} (i : ℕ) : bit (Vector.replicate n 0) i = false := by
  unfold bit
  split <;> simp

/-- A bitmap without members is the zero bitmap. -/
theorem eq_zero_of_bit {n : ℕ} {map : Vector UInt8 n} (h : ∀ i, bit map i = false) :
    map = Vector.replicate n 0 := by
  apply Vector.ext
  intro k hk
  rw [Vector.getElem_replicate,← UInt8.toBitVec_inj]
  apply BitVec.eq_of_getLsbD_eq
  intro j hj
  have hb := h (8*k + j)
  have hd : (8*k + j) / 8 = k := by omega
  have hm : (8*k + j) % 8 = j := by omega
  simpa [bit,hd,hm,hk] using hb

end Bitmap
end PolymorphOS
