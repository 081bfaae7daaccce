import Mathlib.Tactic

/-! Memory as bytes at addresses: blocks that overwrite what was there, and what reads the same
afterwards. -/
namespace PolymorphOS

/-- `len` bytes from `dst` on become `src`'s first ones. -/
def splice (bytes : ℕ → UInt8) (dst len : ℕ) (src : ℕ → UInt8) : ℕ → UInt8 :=
  fun a => if dst ≤ a ∧ a < dst + len then src (a - dst) else bytes a

theorem splice_apply {bytes : ℕ → UInt8} {dst len i : ℕ} (hi : i < len) (src : ℕ → UInt8) :
    splice bytes dst len src (dst + i) = src i := by
  rw [splice,if_pos ⟨by omega,by omega⟩,Nat.add_sub_cancel_left]

theorem splice_of_not_mem {bytes : ℕ → UInt8} {dst len a : ℕ} (ha : a < dst ∨ dst + len ≤ a)
    (src : ℕ → UInt8) : splice bytes dst len src a = bytes a := by
  rw [splice,if_neg (by omega)]

@[simp] theorem splice_zero (bytes : ℕ → UInt8) (dst : ℕ) (src : ℕ → UInt8) :
    splice bytes dst 0 src = bytes := by
  funext a
  exact splice_of_not_mem (by omega) src

/-- A block is written byte by byte. -/
theorem splice_succ (bytes : ℕ → UInt8) (dst n : ℕ) (src : ℕ → UInt8) :
    splice bytes dst (n + 1) src = Function.update (splice bytes dst n src) (dst + n) (src n) := by
  funext a
  by_cases ha : a = dst + n
  · rw [ha,Function.update_self,splice_apply (Nat.lt_succ_self n)]
  · rw [Function.update_of_ne ha,splice,splice]
    by_cases hmem : dst ≤ a ∧ a < dst + n
    · rw [if_pos hmem,if_pos ⟨hmem.1,by omega⟩]
    · rw [if_neg hmem,if_neg (by omega)]

/-- The little-endian word at an address. -/
def word (bytes : ℕ → UInt8) (a : ℕ) : UInt32 :=
  (bytes a).toUInt32 ||| (bytes (a + 1)).toUInt32 <<< 8 ||| (bytes (a + 2)).toUInt32 <<< 16 |||
    (bytes (a + 3)).toUInt32 <<< 24

theorem word_congr {bytes bytes' : ℕ → UInt8} {a a' : ℕ}
    (h : ∀ i < 4, bytes (a + i) = bytes' (a' + i)) : word bytes a = word bytes' a' := by
  have h0 : bytes a = bytes' a' := h 0 (by decide)
  rw [word,word,h0,h 1 (by decide),h 2 (by decide),h 3 (by decide)]

end PolymorphOS
