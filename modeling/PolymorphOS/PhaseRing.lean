import Mathlib.Tactic

/-! Rings of `n` entries that are written over and over: every entry carries a phase bit, set
on the first lap and inverted from each lap to the next, which tells a new entry from the
old one in its slot. -/
namespace PolymorphOS
namespace PhaseRing

/-- The phase of the `k`-th entry. -/
def lap (n k : ℕ) : Bool := k / n % 2 = 0

/-- The slot after `i`. -/
def next (n i : ℕ) : ℕ := if i + 1 = n then 0 else i + 1

theorem lap_of_lt {n k : ℕ} (h : k < n) : lap n k = true := by
  simp [lap,Nat.div_eq_of_lt h]

theorem next_mod {n : ℕ} (hn : 0 < n) (k : ℕ) : next n (k % n) = (k + 1) % n := by
  have hlt := Nat.mod_lt k hn
  rw [next,← Nat.mod_add_mod]
  split
  · rename_i h
    rw [h,Nat.mod_self]
  · have hnext : k % n + 1 < n := by omega
    exact (Nat.mod_eq_of_lt hnext).symm

theorem succ_mod_eq_zero_iff {n : ℕ} (k : ℕ) : (k + 1) % n = 0 ↔ n ∣ k + 1 :=
  Nat.dvd_iff_mod_eq_zero.symm

/-- The phase flips with the first slot of a lap. -/
theorem lap_succ {n : ℕ} (hn : 0 < n) (k : ℕ) :
    lap n (k + 1) = if next n (k % n) = 0 then !lap n k else lap n k := by
  rw [next_mod hn]
  unfold lap
  rw [Nat.succ_div]
  split
  · rename_i h
    rw [if_pos ((succ_mod_eq_zero_iff k).mpr h),← decide_not,decide_eq_decide]
    omega
  · rename_i h
    rw [if_neg (mt (succ_mod_eq_zero_iff k).mp h),Nat.add_zero]

variable {E : Type*} {phase : E → Bool} {n k : ℕ} {slots : ℕ → E}

/-- What the slots look like after `k` entries were written in order into a ring whose
entries carried no phase at first. -/
def Written (phase : E → Bool) (n k : ℕ) (slots : ℕ → E) : Prop :=
  ∀ i < n, phase (slots i) = if i < k % n then lap n k else !lap n k

theorem Written.zero (hn : 0 < n) (h : ∀ i < n, phase (slots i) = false) :
    Written phase n 0 slots := by
  intro i hi
  rw [h i hi,Nat.zero_mod,if_neg (Nat.not_lt_zero i),lap_of_lt hn]
  rfl

/-- The slot of the next entry still shows the other phase. -/
theorem Written.stale (hn : 0 < n) (h : Written phase n k slots) :
    phase (slots (k % n)) = !lap n k := by
  rw [h _ (Nat.mod_lt k hn),if_neg (lt_irrefl _)]

/-- The slot of the latest entry shows its phase. -/
theorem Written.fresh (hn : 0 < n) (h : Written phase n (k + 1) slots) :
    phase (slots (k % n)) = lap n k := by
  have hlt := Nat.mod_lt k hn
  rw [h _ hlt,lap_succ hn,← next_mod hn,next]
  split_ifs with hlast hslot <;> simp_all

theorem Written.write (hn : 0 < n) (h : Written phase n k slots) {e : E} (he : phase e = lap n k) :
    Written phase n (k + 1) (Function.update slots (k % n) e) := by
  intro i hi
  have hlt := Nat.mod_lt k hn
  rw [lap_succ hn,← next_mod hn,next]
  by_cases hik : i = k % n
  · rw [hik,Function.update_self,he]
    split_ifs <;> simp_all
  · rw [Function.update_of_ne hik,h i hi]
    by_cases hlast : k % n + 1 = n
    · have hlt' : i < k % n := by omega
      simp [hlast,hlt']
    · have hiff : i < k % n + 1 ↔ i < k % n := by omega
      simp [hlast,hiff]

end PhaseRing
end PolymorphOS
