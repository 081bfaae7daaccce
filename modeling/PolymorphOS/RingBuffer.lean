import Mathlib.Tactic

/-! Ring buffers of a fixed size that keep one slot empty: a write index, a read index
and the elements between them. -/
namespace PolymorphOS

structure RingBuffer (A : Type*) where
  slots : ℕ → A
  head : ℕ
  tail : ℕ

namespace RingBuffer

variable {A : Type*} {n : ℕ} {r : RingBuffer A}

/-- The number of elements, of `n` slots. -/
def occupied (n : ℕ) (r : RingBuffer A) : ℕ := (r.head + n - r.tail) % n

/-- The elements from `tail` on, oldest first. -/
def contents (n : ℕ) (r : RingBuffer A) : List A :=
  (List.range (r.occupied n)).map fun i => r.slots ((r.tail + i) % n)

/-- The write index would run into the read index. -/
def Full (n : ℕ) (r : RingBuffer A) : Prop := (r.head + 1) % n = r.tail

instance (n : ℕ) (r : RingBuffer A) : Decidable (r.Full n) := inferInstanceAs (Decidable (_ = _))

def push (n : ℕ) (r : RingBuffer A) (a : A) : RingBuffer A where
  slots := Function.update r.slots r.head a
  head := (r.head + 1) % n
  tail := r.tail

def pop (n : ℕ) (r : RingBuffer A) : RingBuffer A where
  slots := r.slots
  head := r.head
  tail := (r.tail + 1) % n

@[simp] theorem push_head (a : A) : (r.push n a).head = (r.head + 1) % n := rfl
@[simp] theorem push_tail (a : A) : (r.push n a).tail = r.tail := rfl
@[simp] theorem pop_head : (r.pop n).head = r.head := rfl
@[simp] theorem pop_tail : (r.pop n).tail = (r.tail + 1) % n := rfl
@[simp] theorem pop_slots : (r.pop n).slots = r.slots := rfl

/-- Both indices are in range. -/
structure InBounds (n : ℕ) (r : RingBuffer A) : Prop where
  head : r.head < n
  tail : r.tail < n

/-- An index wraps around at most once. -/
theorem mod_wrap {n i : ℕ} (h : i < n + n) : i % n = if i < n then i else i - n := by
  split
  · rename_i hlt
    exact Nat.mod_eq_of_lt hlt
  · rename_i hge
    rw [Nat.mod_eq_sub_mod (not_lt.mp hge),Nat.mod_eq_of_lt (by omega)]

namespace InBounds

theorem push (h : r.InBounds n) (a : A) : (r.push n a).InBounds n where
  head := Nat.mod_lt _ (Nat.zero_lt_of_lt h.head)
  tail := h.tail

theorem pop (h : r.InBounds n) : (r.pop n).InBounds n where
  head := h.head
  tail := Nat.mod_lt _ (Nat.zero_lt_of_lt h.head)

theorem occupied_eq (h : r.InBounds n) :
    r.occupied n = if r.head < r.tail then r.head + n - r.tail else r.head - r.tail := by
  have hhead := h.head
  have htail := h.tail
  rw [occupied,mod_wrap (by omega)]
  split_ifs <;> omega

theorem empty_iff (h : r.InBounds n) : r.occupied n = 0 ↔ r.head = r.tail := by
  have hhead := h.head
  have htail := h.tail
  rw [h.occupied_eq]
  split_ifs <;> omega

theorem full_iff (h : r.InBounds n) : r.Full n ↔ r.occupied n = n - 1 := by
  have hhead := h.head
  have htail := h.tail
  rw [Full,h.occupied_eq,mod_wrap (by omega)]
  split_ifs <;> omega

theorem occupied_push (h : r.InBounds n) (hfull : ¬r.Full n) (a : A) :
    (r.push n a).occupied n = r.occupied n + 1 := by
  have hhead := h.head
  have htail := h.tail
  rw [Full,mod_wrap (by omega)] at hfull
  rw [(h.push a).occupied_eq,h.occupied_eq,push_head,push_tail,mod_wrap (by omega)]
  split_ifs at hfull ⊢ <;> omega

theorem occupied_pop (h : r.InBounds n) (hempty : r.head ≠ r.tail) :
    (r.pop n).occupied n + 1 = r.occupied n := by
  have hhead := h.head
  have htail := h.tail
  rw [h.pop.occupied_eq,h.occupied_eq,pop_head,pop_tail,mod_wrap (by omega)]
  split_ifs <;> omega

/-- The slot after the elements is the one at the write index. -/
theorem slot_head (h : r.InBounds n) : (r.tail + r.occupied n) % n = r.head := by
  have hhead := h.head
  have htail := h.tail
  rw [h.occupied_eq,mod_wrap (by split_ifs <;> omega)]
  split_ifs <;> omega

/-- No element lies at the write index. -/
theorem slot_ne_head (h : r.InBounds n) {i : ℕ} (hi : i < r.occupied n) :
    (r.tail + i) % n ≠ r.head := by
  have hhead := h.head
  have htail := h.tail
  rw [h.occupied_eq] at hi
  rw [mod_wrap (by split_ifs at hi <;> omega)]
  split_ifs at hi ⊢ <;> omega

theorem contents_push (h : r.InBounds n) (hfull : ¬r.Full n) (a : A) :
    (r.push n a).contents n = r.contents n ++ [a] := by
  rw [contents,h.occupied_push hfull,List.range_succ,List.map_append,List.map_singleton,push_tail,
    h.slot_head]
  congr 1
  · apply List.map_congr_left
    intro i hi
    exact Function.update_of_ne (h.slot_ne_head (List.mem_range.mp hi)) _ _
  · exact congrArg (fun x => [x]) (Function.update_self _ _ _)

theorem contents_pop (h : r.InBounds n) (hempty : r.head ≠ r.tail) :
    r.contents n = r.slots r.tail :: (r.pop n).contents n := by
  rw [contents,← h.occupied_pop hempty,List.range_succ_eq_map,List.map_cons,List.map_map,
    Nat.add_zero,Nat.mod_eq_of_lt h.tail]
  congr 1
  apply List.map_congr_left
  intro i _
  rw [Function.comp_apply,pop_slots,pop_tail,Nat.mod_add_mod,Nat.add_assoc,Nat.add_comm 1]

/-- A push neither empties the ring nor touches its oldest element. -/
theorem push_nonempty (h : r.InBounds n) (hfull : ¬r.Full n) (a : A) :
    (r.push n a).head ≠ (r.push n a).tail := by
  rw [Ne,← (h.push a).empty_iff,h.occupied_push hfull]
  exact Nat.succ_ne_zero _

theorem push_slot_tail (hempty : r.head ≠ r.tail) (a : A) :
    (r.push n a).slots r.tail = r.slots r.tail :=
  Function.update_of_ne hempty.symm _ _

end InBounds
end RingBuffer
end PolymorphOS
