import Mathlib.Data.Nat.ModEq
import Mathlib.Tactic

/-! Sums of words with end-around carry: in base `b` they are what is left of a sum modulo
`b - 1`, where zero has two representations. -/
namespace PolymorphOS
namespace OnesComplement

variable {b n : ℕ}

/-- What lies above the lowest digit is added to it, until nothing does. -/
def fold (b n : ℕ) : ℕ := if _ : 1 < b ∧ b ≤ n then fold b (n % b + n / b) else n
termination_by n
decreasing_by
  rename_i h
  have hdiv : n % b + b * (n / b) = n := Nat.mod_add_div n b
  have hpos : 0 < n / b := Nat.div_pos h.2 (by omega)
  nlinarith

theorem fold_of_lt (h : n < b) : fold b n = n := by
  rw [fold]
  simp only [not_le.mpr h,and_false,dif_neg,not_false_eq_true]

theorem fold_of_le (hb : 1 < b) (h : b ≤ n) : fold b n = fold b (n % b + n / b) := by
  conv_lhs => rw [fold]
  simp only [hb,h,and_self,dif_pos]

/-- One carry changes the number by a multiple of `b - 1`. -/
theorem carry_modEq (hb : 1 < b) (n : ℕ) : n % b + n / b ≡ n [MOD b - 1] := by
  have hsum : n = n % b + n / b + (b - 1) * (n / b) := by
    obtain ⟨c,rfl⟩ : ∃ c, b = c + 1 := ⟨b - 1,by omega⟩
    have hdiv := Nat.mod_add_div n (c + 1)
    simp only [Nat.add_sub_cancel]
    nlinarith
  conv_rhs => rw [hsum]
  simp only [Nat.ModEq,Nat.add_mul_mod_self_left]

theorem carry_pos (hb : 1 < b) (h : b ≤ n) : 0 < n % b + n / b :=
  Nat.add_pos_right _ (Nat.div_pos h (by omega))

/-- What folding yields: one digit, in the same class, and zero only for zero. -/
structure Folded (b n d : ℕ) : Prop where
  lt : d < b
  modEq : d ≡ n [MOD b - 1]
  pos : 0 < n → 0 < d

theorem folded_fold (hb : 1 < b) (n : ℕ) : Folded b n (fold b n) := by
  induction n using Nat.strong_induction_on with
  | _ n ih =>
    by_cases h : b ≤ n
    · have hlt : n % b + n / b < n := by
        have hdiv := Nat.mod_add_div n b
        have hpos := Nat.div_pos h (by omega)
        nlinarith
      have hnext := ih _ hlt
      rw [fold_of_le hb h]
      exact ⟨hnext.lt,hnext.modEq.trans (carry_modEq hb n),fun _ => hnext.pos (carry_pos hb h)⟩
    · rw [fold_of_lt (not_le.mp h)]
      exact ⟨not_le.mp h,rfl,id⟩

/-- With the complement of its folded sum added, a sum folds to the negative zero. -/
theorem fold_add_complement (hb : 1 < b) (n : ℕ) : fold b (n + (b - 1 - fold b n)) = b - 1 := by
  have hfold := folded_fold hb n
  have hlt := hfold.lt
  have htotal := folded_fold hb (n + (b - 1 - fold b n))
  have hpos : 0 < n + (b - 1 - fold b n) := by
    by_cases hn : n = 0
    · rw [hn,fold_of_lt (by omega)]
      omega
    · omega
  have hzero : fold b (n + (b - 1 - fold b n)) ≡ 0 [MOD b - 1] := by
    calc fold b (n + (b - 1 - fold b n))
      _ ≡ n + (b - 1 - fold b n) [MOD b - 1] := htotal.modEq
      _ ≡ fold b n + (b - 1 - fold b n) [MOD b - 1] := hfold.modEq.symm.add_right _
      _ = b - 1 := by omega
      _ ≡ 0 [MOD b - 1] := by simp [Nat.ModEq]
  have hdvd : b - 1 ∣ fold b (n + (b - 1 - fold b n)) := (Nat.modEq_zero_iff_dvd).mp hzero
  have hle := Nat.le_of_dvd (htotal.pos hpos) hdvd
  have htop := htotal.lt
  omega

end OnesComplement
end PolymorphOS
