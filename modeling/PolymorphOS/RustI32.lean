import PolymorphOS.Returns
import PolymorphOS.RustCore

/-! `i32` arithmetic. A value is an integer in the range of the type, and an operation whose
result is not stops with a panic, as it does in a debug build; a release build agrees with it
wherever it does not stop. -/
namespace PolymorphOS

/-- The result of an `i32` operation. -/
def i32 (n : ℤ) : Except Panic ℤ := if -2^31 ≤ n ∧ n < 2^31 then .ok n else .error .overflow

/-- `a / b` on `i32`; the quotient is rounded towards zero. -/
def divI32 (a b : ℤ) : Except Panic ℤ :=
  if b = 0 then .error (.explicit "attempt to divide by zero") else i32 (a.tdiv b)

/-- `i32::abs`. -/
def absI32 (a : ℤ) : Except Panic ℤ := i32 |a|

/-- `i32::clamp`. -/
def clampI32 (a lo hi : ℤ) : Except Panic ℤ :=
  if lo ≤ hi then .ok (max lo (min a hi)) else .error (.explicit "assertion failed: min <= max")

/-- `as i32`. -/
def asI32 (n : ℕ) : ℤ := (n : ℤ).bmod (2^32)

/-- The integers of `lo..hi`. -/
def rangeI32 (lo hi : ℤ) : List ℤ := (List.range (hi - lo).toNat).map fun (i : ℕ) => lo + i

/-- `u32` subtraction. -/
def subU32 (a b : ℕ) : Except Panic ℕ := if b ≤ a then .ok (a - b) else .error .overflow

/-- `u32` multiplication. -/
def mulU32 (a b : ℕ) : Except Panic ℕ := if a * b < 2^32 then .ok (a * b) else .error .overflow

/-- `as u32`. -/
def asU32 (n : ℤ) : ℕ := (n % 2^32).toNat

theorem mem_rangeI32 {lo hi n : ℤ} : n ∈ rangeI32 lo hi ↔ lo ≤ n ∧ n < hi := by
  simp only [rangeI32,List.mem_map,List.mem_range]
  constructor
  · rintro ⟨i,hmem,rfl⟩
    omega
  · rintro ⟨hle,hlt⟩
    exact ⟨(n - lo).toNat,by omega,by omega⟩

theorem rangeI32_cons {lo hi : ℤ} (h : lo < hi) : rangeI32 lo hi = lo :: rangeI32 (lo + 1) hi := by
  have hlen : (hi - lo).toNat = (hi - (lo + 1)).toNat + 1 := by omega
  simp only [rangeI32,hlen,List.range_succ_eq_map,List.map_cons,List.map_map,Nat.cast_zero,add_zero]
  congr 1
  apply List.map_congr_left
  intro i _
  simp only [Function.comp_apply,Nat.cast_succ]
  ring

theorem rangeI32_nil {lo hi : ℤ} (h : hi ≤ lo) : rangeI32 lo hi = [] := by
  simp only [rangeI32,Int.toNat_of_nonpos (sub_nonpos.mpr h),List.range_zero,List.map_nil]

/-- The part of a range that lies in an interval. -/
theorem filter_rangeI32 (lo hi a b : ℤ) : ((rangeI32 lo hi).filter fun n => a ≤ n ∧ n < b) =
    rangeI32 (max lo a) (min hi b) := by
  induction hn : (hi - lo).toNat generalizing lo with
  | zero =>
    rw [rangeI32_nil (by omega),rangeI32_nil (by omega)]
    rfl
  | succ n ih =>
    rw [rangeI32_cons (by omega),List.filter_cons,ih (lo + 1) (by omega)]
    by_cases ha : a ≤ lo
    · rw [max_eq_left (by omega),max_eq_left ha]
      by_cases hb : lo < b
      · rw [if_pos (decide_eq_true ⟨ha,hb⟩),← rangeI32_cons (by omega)]
      · rw [if_neg (by simp only [decide_eq_true_eq]; omega),rangeI32_nil (by omega),
          rangeI32_nil (by omega)]
    · rw [if_neg (by simp only [decide_eq_true_eq]; omega),max_eq_right (by omega),
        max_eq_right (by omega)]

theorem asI32_of_lt {n : ℕ} (h : n < 2^31) : asI32 n = n := by
  have hlo : -((2^32 : ℕ) : ℤ) ≤ (n : ℤ) * 2 := by omega
  have hhi : (n : ℤ) * 2 < ((2^32 : ℕ) : ℤ) := by omega
  exact Int.bmod_eq_of_le_mul_two hlo hhi

theorem asU32_le {n m : ℤ} (h0 : 0 ≤ n) (hle : n ≤ m) (hm : m < 2^32) : asU32 n ≤ m.toNat := by
  rw [asU32]
  omega

/-- What a quotient by a positive divisor is. -/
structure Quotient (a b q : ℤ) : Prop where
  nonneg : 0 ≤ a → 0 ≤ q ∧ b * q ≤ a ∧ a < b * q + b
  nonpos : a ≤ 0 → q ≤ 0 ∧ a ≤ b * q ∧ b * q - b < a

theorem quotient_tdiv {a b : ℤ} (hb : 0 < b) : Quotient a b (a.tdiv b) := by
  have hsum := Int.mul_tdiv_add_tmod a b
  constructor
  · intro ha
    have hlo := Int.tmod_nonneg b ha
    have hhi := Int.tmod_lt_of_pos a hb
    exact ⟨Int.tdiv_nonneg ha hb.le,by omega,by omega⟩
  · intro ha
    have hhi : a.tmod b ≤ 0 := by
      have h := Int.tmod_nonneg b (neg_nonneg.mpr ha)
      rw [Int.neg_tmod] at h
      omega
    have hlo : -b < a.tmod b := by
      have h := Int.tmod_lt_of_pos (-a) hb
      rw [Int.neg_tmod] at h
      omega
    have hq : a.tdiv b ≤ 0 := by
      have h := Int.tdiv_nonneg (neg_nonneg.mpr ha) hb.le
      rw [Int.neg_tdiv] at h
      omega
    exact ⟨hq,by omega,by omega⟩

/-- A dividend in a range around zero has its quotient there too. -/
theorem Quotient.abs_le {a b q m : ℤ} (h : Quotient a b q) (hb : 0 < b) (ha : -m ≤ a ∧ a ≤ m) :
    -m ≤ q ∧ q ≤ m := by
  rcases le_total 0 a with hsign | hsign
  · obtain ⟨hq,hle,_⟩ := h.nonneg hsign
    have hmul : q ≤ b * q := le_mul_of_one_le_left hq hb
    omega
  · obtain ⟨hq,hle,_⟩ := h.nonpos hsign
    have hmul : b * q ≤ q := by nlinarith
    omega

/-- The smaller the divisor, the larger the quotient. -/
theorem Quotient.mul_le {a b q k : ℤ} (h : Quotient a b q) (ha : 0 ≤ a) (hk : k ≤ b) :
    0 ≤ q ∧ k * q ≤ a := by
  obtain ⟨hq,hle,_⟩ := h.nonneg ha
  exact ⟨hq,(mul_le_mul_of_nonneg_right hk hq).trans hle⟩

/-- The square of a value in a range around zero. -/
theorem square_le {d m : ℤ} (h : -m ≤ d ∧ d ≤ m) : 0 ≤ d * d ∧ d * d ≤ m * m :=
  ⟨mul_self_nonneg d,by nlinarith⟩

/-! ### One operation of a computation that goes on with its result -/

namespace Returns

variable {β : Type} {P : β → Prop} {f : ℤ → Except Panic β} {g : ℕ → Except Panic β}
  {a b lo hi n : ℤ} {m k : ℕ}

theorem of_i32 {Q : ℤ → Prop} (hlo : -2147483648 ≤ n) (hhi : n < 2147483648) (h : Q n) :
    Returns (i32 n) Q := ⟨n,if_pos ⟨hlo,hhi⟩,h⟩

theorem bind_i32 (hlo : -2147483648 ≤ n) (hhi : n < 2147483648) (h : Returns (f n) P) :
    Returns (i32 n >>= f) P := by
  rw [i32,if_pos ⟨hlo,hhi⟩]
  exact h

theorem bind_tdivI32 (hb : 0 < b) (hlo : -2147483648 < a) (hhi : a < 2147483648)
    (h : Returns (f (a.tdiv b)) P) : Returns (divI32 a b >>= f) P := by
  have hrange := (quotient_tdiv (a := a) hb).abs_le (m := 2147483647) hb ⟨by omega,by omega⟩
  rw [divI32,if_neg hb.ne']
  exact bind_i32 (by omega) (by omega) h

theorem bind_divI32 (hb : 0 < b) (hlo : -2147483648 < a) (hhi : a < 2147483648)
    (h : ∀ q, Quotient a b q → Returns (f q) P) : Returns (divI32 a b >>= f) P :=
  bind_tdivI32 hb hlo hhi (h _ (quotient_tdiv hb))

theorem bind_absI32 (hlo : -2147483648 < a) (hhi : a < 2147483648) (h : Returns (f |a|) P) :
    Returns (absI32 a >>= f) P := by
  have hnonneg := abs_nonneg a
  exact bind_i32 (by omega) (abs_lt.mpr ⟨hlo,hhi⟩) h

theorem bind_clampI32 (hle : lo ≤ hi) (h : Returns (f (max lo (min a hi))) P) :
    Returns (clampI32 a lo hi >>= f) P := by
  rw [clampI32,if_pos hle]
  exact h

theorem bind_subU32 (hle : k ≤ m) (h : Returns (g (m - k)) P) : Returns (subU32 m k >>= g) P := by
  rw [subU32,if_pos hle]
  exact h

theorem bind_mulU32 (hlt : m * k < 2^32) (h : Returns (g (m * k)) P) :
    Returns (mulU32 m k >>= g) P := by
  rw [mulU32,if_pos hlt]
  exact h

end Returns

namespace Ensures

variable {β : Type} {P : β → Prop} {f : ℤ → Except Panic β} {g : ℕ → Except Panic β}
  {a b n : ℤ} {m k : ℕ}

theorem i32 {Q : ℤ → Prop} (h : Q n) : Ensures (i32 n) Q := by
  unfold PolymorphOS.i32
  exact Ensures.ite (fun _ => Ensures.pure h) fun _ => Ensures.error

theorem bind_i32 (h : Ensures (f n) P) : Ensures (PolymorphOS.i32 n >>= f) P :=
  (Ensures.i32 (Q := fun c => c = n) rfl).bind fun _ hc => hc ▸ h

theorem bind_divI32 (h : b ≠ 0 → Ensures (f (a.tdiv b)) P) : Ensures (divI32 a b >>= f) P := by
  unfold divI32
  split
  · exact Ensures.error
  · rename_i hb
    exact bind_i32 (h hb)

theorem bind_subU32 (h : k ≤ m → Ensures (g (m - k)) P) : Ensures (subU32 m k >>= g) P := by
  unfold subU32
  split
  · rename_i hle
    exact h hle
  · exact Ensures.error

theorem bind_mulU32 (h : Ensures (g (m * k)) P) : Ensures (mulU32 m k >>= g) P := by
  unfold mulU32
  split
  · exact h
  · exact Ensures.error

end Ensures
end PolymorphOS
