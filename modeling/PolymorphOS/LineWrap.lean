import Mathlib.Data.List.DropRight
import Mathlib.Tactic

/-! Lines wrapped at a width: the rows that a line takes up, and the row and the column at which
each of its elements stands. -/
namespace PolymorphOS
namespace LineWrap

variable {α β : Type*} {n : ℕ} {line : List α}

/-- A line that is too long goes on in the next row; an empty line has a row of its own. -/
def wrap (n : ℕ) (line : List α) : List (List α) :=
  if n = 0 ∨ line.length ≤ n then [line] else line.take n :: wrap n (line.drop n)
termination_by line.length

theorem wrap_of_le (h : line.length ≤ n) : wrap n line = [line] := by
  rw [wrap,if_pos (.inr h)]

theorem wrap_of_lt (hn : 0 < n) (h : n < line.length) :
    wrap n line = line.take n :: wrap n (line.drop n) := by
  rw [wrap,if_neg (by omega)]

/-- How many rows a line of this length takes up. -/
def rowCount (n len : ℕ) : ℕ := if len = 0 then 1 else (len + n - 1) / n

theorem rowCount_of_le {len : ℕ} (h : len ≤ n) : rowCount n len = 1 := by
  unfold rowCount
  split
  · rfl
  · rw [Nat.div_eq_iff (by omega)]
    omega

theorem rowCount_of_lt {len : ℕ} (hn : 0 < n) (h : n < len) :
    rowCount n len = rowCount n (len - n) + 1 := by
  have hrest : len + n - 1 = len - n + n - 1 + n := by omega
  rw [rowCount,rowCount,if_neg (by omega),if_neg (by omega),hrest,Nat.add_div_right _ hn]

/-- The last element of a line stands in its last row. -/
theorem rowCount_pred (hn : 0 < n) (len : ℕ) : rowCount n (len + 1) = len / n + 1 := by
  have hsum : len + 1 + n - 1 = len + n := by omega
  rw [rowCount,if_neg (Nat.succ_ne_zero len),hsum,Nat.add_div_right _ hn]

theorem length_wrap (hn : 0 < n) (line : List α) :
    (wrap n line).length = rowCount n line.length := by
  induction line using wrap.induct n with
  | case1 line h =>
    have hle := h.resolve_left (by omega)
    rw [wrap_of_le hle,rowCount_of_le hle]
    rfl
  | case2 line h ih =>
    have hlt : n < line.length := by omega
    rw [wrap_of_lt hn hlt,List.length_cons,ih,List.length_drop,rowCount_of_lt hn hlt]

theorem length_le_of_mem_wrap (hn : 0 < n) {row : List α} (h : row ∈ wrap n line) :
    row.length ≤ n := by
  induction line using wrap.induct n with
  | case1 line hle =>
    rw [wrap_of_le (hle.resolve_left (by omega)),List.mem_singleton] at h
    rw [h]
    exact hle.resolve_left (by omega)
  | case2 line hlt ih =>
    rw [wrap_of_lt hn (by omega),List.mem_cons] at h
    rcases h with rfl | h
    · exact List.length_take_le n line
    · exact ih h

/-- The last element of the line is the last one of the last row. -/
theorem wrap_concat (hn : 0 < n) (line : List α) (a : α) :
    ∃ rows row, wrap n (line ++ [a]) = rows ++ [row ++ [a]] := by
  induction hlen : line.length using Nat.strong_induction_on generalizing line with
  | _ len ih =>
    by_cases h : (line ++ [a]).length ≤ n
    · exact ⟨[],line,wrap_of_le h⟩
    · rw [List.length_append,List.length_singleton] at h
      obtain ⟨rows,row,hrest⟩ := ih (line.drop n).length (by rw [List.length_drop]; omega) _ rfl
      refine ⟨(line ++ [a]).take n :: rows,row,?_⟩
      rw [wrap_of_lt hn (by rw [List.length_append,List.length_singleton]; omega),
        List.drop_append_of_le_length (by omega),hrest,List.cons_append]

/-- The `k`-th element stands in row `k / n` and column `k mod n`. -/
theorem flatMap_wrap (hn : 0 < n) (line : List α) (first : ℕ) (f : ℕ → ℕ → α → List β) :
    ((wrap n line).zipIdx first).flatMap
      (fun row => row.1.zipIdx.flatMap fun cell => f row.2 cell.2 cell.1) =
    line.zipIdx.flatMap fun cell => f (first + cell.2 / n) (cell.2 % n) cell.1 := by
  have hfirst (row : List α) (hlen : row.length ≤ n) {first : ℕ} (cell : α × ℕ)
      (hcell : cell ∈ row.zipIdx) : f first cell.2 cell.1 =
        f (first + cell.2 / n) (cell.2 % n) cell.1 := by
    have hlt : cell.2 < n := (List.snd_lt_of_mem_zipIdx hcell).trans_le hlen
    rw [Nat.div_eq_of_lt hlt,Nat.mod_eq_of_lt hlt,Nat.add_zero]
  induction line using wrap.induct n generalizing first with
  | case1 line h =>
    have hle := h.resolve_left (by omega)
    rw [wrap_of_le hle,List.zipIdx_singleton,List.flatMap_singleton]
    exact List.flatMap_congr fun cell hcell => hfirst line hle cell hcell
  | case2 line h ih =>
    have hlen : (line.take n).length = n := List.length_take_of_le (by omega)
    have hsplit : line.zipIdx = (line.take n).zipIdx ++ (line.drop n).zipIdx n := by
      conv_lhs => rw [← List.take_append_drop n line,List.zipIdx_append,hlen,Nat.zero_add]
    rw [wrap_of_lt hn (by omega),List.zipIdx_cons,List.flatMap_cons,ih,hsplit,List.flatMap_append]
    congr 1
    · exact List.flatMap_congr fun cell hcell => hfirst _ hlen.le cell hcell
    · rw [List.zipIdx_eq_map_add (i := n),List.flatMap_map]
      refine List.flatMap_congr fun cell _ => ?_
      rw [Nat.add_div_left _ hn,Nat.add_mod_left,Nat.add_succ,Nat.succ_add]
      rfl

theorem flatMap_drop_from (rows : List α) (skip first : ℕ) (f : ℕ → α → List β) :
    ((rows.zipIdx first).flatMap fun row =>
      if skip ≤ row.2 then f (row.2 - skip) row.1 else []) =
    ((rows.drop (skip - first)).zipIdx (first - skip)).flatMap fun row => f row.2 row.1 := by
  induction rows generalizing first with
  | nil => simp only [List.drop_nil,List.zipIdx_nil,List.flatMap_nil]
  | cons row rows ih =>
    rw [List.zipIdx_cons,List.flatMap_cons,ih]
    by_cases h : skip ≤ first
    · rw [if_pos h,Nat.sub_eq_zero_of_le h,Nat.sub_eq_zero_of_le (h.trans (Nat.le_succ first)),
        Nat.succ_sub h,List.drop_zero,List.drop_zero,List.zipIdx_cons,List.flatMap_cons]
    · have hskip : skip - first = skip - (first + 1) + 1 := by omega
      rw [if_neg h,hskip,List.drop_succ_cons,Nat.sub_eq_zero_of_le (not_le.mp h),
        Nat.sub_eq_zero_of_le (not_le.mp h).le,List.nil_append]

/-- Only the rows from the `skip`-th on, which are counted anew. -/
theorem flatMap_drop (rows : List α) (skip : ℕ) (f : ℕ → α → List β) :
    (rows.zipIdx.flatMap fun row => if skip ≤ row.2 then f (row.2 - skip) row.1 else []) =
      (rows.drop skip).zipIdx.flatMap fun row => f row.2 row.1 := by
  have h := flatMap_drop_from rows skip 0 f
  rwa [Nat.sub_zero,Nat.zero_sub] at h

/-! ### Text that grows at its end -/

/-- What is seen of a list through a window on its end, when one more entry is added. -/
theorem tail_rtake_append (hn : 0 < n) {l : List β} (h : n ≤ l.length) (b : β) :
    (l.rtake n).tail ++ [b] = (l ++ [b]).rtake n := by
  have hskip : (l ++ [b]).length - n = l.length - n + 1 := by
    rw [List.length_append,List.length_singleton]
    omega
  rw [List.rtake,List.rtake,hskip,List.tail_drop,List.drop_append_of_le_length (by omega)]

theorem wrap_ne_nil (n : ℕ) (line : List α) : wrap n line ≠ [] := by
  rw [wrap]
  split <;> exact List.cons_ne_nil _ _

/-- The last row takes one more element, or a new row begins. -/
theorem wrap_append (hn : 0 < n) {rows : List (List α)} {row : List α}
    (h : wrap n line = rows ++ [row]) (a : α) :
    wrap n (line ++ [a]) = if row.length < n then rows ++ [row ++ [a]] else rows ++ [row,[a]] := by
  induction line using wrap.induct n generalizing rows with
  | case1 line hle =>
    have hlen := hle.resolve_left (by omega)
    rw [wrap_of_le hlen] at h
    obtain ⟨rfl,hrow⟩ : [] = rows ∧ [line] = [row] := List.append_inj' h rfl
    cases hrow
    by_cases hlt : row.length < n
    · rw [if_pos hlt]
      exact wrap_of_le (by rw [List.length_append]; exact hlt)
    · have hfull : row.length = n := by omega
      rw [if_neg hlt,wrap_of_lt hn (by rw [List.length_append,List.length_singleton]; omega),
        List.take_left' hfull,List.drop_left' hfull,
        wrap_of_le (by rw [List.length_singleton]; omega)]
      rfl
  | case2 line hlt ih =>
    have hlen : n < line.length := by omega
    rw [wrap_of_lt hn hlen] at h
    cases rows with
    | nil => exact absurd (List.cons.inj h).2 (wrap_ne_nil n _)
    | cons first rows =>
      obtain ⟨rfl,hrest⟩ := List.cons.inj h
      rw [wrap_of_lt hn (by rw [List.length_append]; omega),List.take_append_of_le_length hlen.le,
        List.drop_append_of_le_length hlen.le,ih hrest]
      split <;> rfl

section

variable [BEq α] {sep a : α} {text : List α}

/-- What is no separator belongs to the last piece. -/
theorem splitOn_append [LawfulBEq α] (h : a ≠ sep) (text : List α) :
    ∃ init last, text.splitOn sep = init ++ [last] ∧
      (text ++ [a]).splitOn sep = init ++ [last ++ [a]] := by
  induction text with
  | nil => exact ⟨[],[],rfl,List.splitOn_eq_singleton (by simpa using h.symm)⟩
  | cons b text ih =>
    obtain ⟨init,last,hold,hnew⟩ := ih
    rw [List.cons_append,List.splitOn_cons_eq_if_modifyHead,List.splitOn_cons_eq_if_modifyHead,
      hold,hnew]
    split
    · exact ⟨[] :: init,last,rfl,rfl⟩
    · cases init with
      | nil => exact ⟨[],b :: last,rfl,rfl⟩
      | cons first init => exact ⟨(b :: first) :: init,last,rfl,rfl⟩

/-- The rows of a text, each of whose lines is wrapped. -/
def textRows (n : ℕ) (newline : α) (text : List α) : List (List α) :=
  (text.splitOn newline).flatMap (wrap n)

theorem textRows_ne_nil (n : ℕ) (sep : α) (text : List α) : textRows n sep text ≠ [] := by
  obtain ⟨line,rest,hlines⟩ := List.exists_cons_of_ne_nil (List.splitOn_ne_nil sep text)
  rw [textRows,hlines,List.flatMap_cons]
  exact List.append_ne_nil_of_left_ne_nil (wrap_ne_nil n line) _

theorem textRows_nil : textRows n sep ([] : List α) = [[]] := by
  rw [textRows,List.splitOn_nil,List.flatMap_singleton,wrap_of_le (Nat.zero_le n)]

theorem textRows_append_newline [ReflBEq α] (n : ℕ) (sep : α) (text rest : List α) :
    textRows n sep (text ++ sep :: rest) = textRows n sep text ++ textRows n sep rest := by
  rw [textRows,List.splitOn_append_cons_self,List.flatMap_append]
  rfl

theorem textRows_newline [ReflBEq α] (n : ℕ) (sep : α) (text : List α) :
    textRows n sep (text ++ [sep]) = textRows n sep text ++ [[]] := by
  rw [textRows_append_newline,textRows_nil]

/-- A line that fits is one row. -/
theorem textRows_line [LawfulBEq α] (h : sep ∉ text) (hlen : text.length ≤ n) :
    textRows n sep text = [text] := by
  rw [textRows,List.splitOn_eq_singleton h,List.flatMap_singleton,wrap_of_le hlen]

theorem textRows_append [LawfulBEq α] (hn : 0 < n) (ha : a ≠ sep) {rows : List (List α)} {row : List α}
    (h : textRows n sep text = rows ++ [row]) : textRows n sep (text ++ [a]) =
      if row.length < n then rows ++ [row ++ [a]] else rows ++ [row,[a]] := by
  obtain ⟨init,last,hold,hnew⟩ := splitOn_append ha text
  obtain ⟨rest,bottom,hlast⟩ := (List.eq_nil_or_concat' _).resolve_left (wrap_ne_nil n last)
  rw [textRows,hold,List.flatMap_append,List.flatMap_singleton,hlast,← List.append_assoc] at h
  obtain ⟨rfl,hrow⟩ := List.append_inj' h rfl
  cases hrow
  rw [textRows,hnew,List.flatMap_append,List.flatMap_singleton,wrap_append hn hlast]
  split <;> rw [List.append_assoc]

end

end LineWrap
end PolymorphOS
