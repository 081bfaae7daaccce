import Mathlib.Data.List.TakeWhile
import Mathlib.Order.Basic
import Mathlib.Tactic.Common

/-! Streams in which a message runs from a symbol that opens it to the next symbol that ends it. -/
namespace Framing

variable {A : Type*}

section Cut

variable (stop : A → Bool)

/-- The stretches that are ended, each with what ended it, and what follows the last of them. -/
def cut : List A → List (List A × A) × List A
  | [] => ([],[])
  | a::l =>
    let (ended,tail) := cut l
    if stop a then (([],a)::ended,tail)
    else match ended with
      | [] => ([],a::tail)
      | (first,b)::more => ((a::first,b)::more,tail)

variable {stop} {l more : List A} {a : A}

theorem cut_tail (h : ∀ a ∈ l, stop a = false) : cut stop l = ([],l) := by
  induction l with
  | nil => rfl
  | cons a l ih =>
    obtain ⟨ha,hl⟩ := List.forall_mem_cons.mp h
    rw [cut,ih hl]
    simp [ha]

theorem cut_append (h : ∀ a ∈ l, stop a = false) (ha : stop a = true) :
    cut stop (l ++ a::more) = ((l,a)::(cut stop more).1,(cut stop more).2) := by
  induction l with
  | nil => simp [cut,ha]
  | cons b l ih =>
    obtain ⟨hb,hl⟩ := List.forall_mem_cons.mp h
    rw [List.cons_append,cut,ih hl]
    simp [hb]

variable (stop) in
/-- A stream is a tail without an end, or a stretch that is ended and another stream. -/
@[elab_as_elim]
theorem cut_induction {motive : List A → Prop} (tail : ∀ l, (∀ a ∈ l, stop a = false) → motive l)
    (ended : ∀ l a more, (∀ a ∈ l, stop a = false) → stop a = true → motive more →
      motive (l ++ a::more)) (l : List A) : motive l := by
  suffices h : ∀ n (l : List A), l.length ≤ n → motive l from h _ l le_rfl
  intro n
  induction n with
  | zero =>
    intro l hl
    obtain rfl : l = [] := List.eq_nil_of_length_eq_zero (Nat.le_zero.mp hl)
    exact tail [] fun _ ha => absurd ha List.not_mem_nil
  | succ n ih =>
    intro l hl
    cases hrest : l.dropWhile fun a => !stop a with
    | nil =>
      refine tail l fun a ha => ?_
      simpa using List.dropWhile_eq_nil_iff.mp hrest a ha
    | cons a more =>
      have hsplit : l.takeWhile (fun a => !stop a) ++ a::more = l := by
        rw [← hrest,List.takeWhile_append_dropWhile]
      have hstop : stop a = true := by
        have hhead := List.head_dropWhile_not (fun a => !stop a) (l := l)
          (by rw [hrest]; exact List.cons_ne_nil _ _)
        simpa [hrest] using hhead
      have hlength : more.length ≤ n := by
        have htotal := congrArg List.length hsplit
        rw [List.length_append,List.length_cons] at htotal
        omega
      rw [← hsplit]
      refine ended _ a more (fun b hb => ?_) hstop (ih more hlength)
      simpa using List.mem_takeWhile_imp hb

/-- Nothing is lost: the stretches and the tail make up the stream again. -/
theorem join_cut (l : List A) :
    (cut stop l).1.flatMap (fun part => part.1 ++ [part.2]) ++ (cut stop l).2 = l := by
  induction l using cut_induction stop with
  | tail l h => rw [cut_tail h]; rfl
  | ended l a more h ha ih =>
    rw [cut_append h ha,List.flatMap_cons,List.append_assoc,ih,List.append_assoc]
    rfl

/-- What arrives later changes nothing about what has been ended. -/
theorem cut_prefix (l more : List A) : (cut stop l).1 <+: (cut stop (l ++ more)).1 := by
  induction l using cut_induction stop with
  | tail l h => rw [cut_tail h]; exact List.nil_prefix
  | ended l a rest h ha ih =>
    rw [cut_append h ha,List.append_assoc,List.cons_append,cut_append h ha]
    exact List.cons_prefix_cons.mpr ⟨rfl,ih⟩

end Cut

section Message

variable [DecidableEq A] (start : A)

/-- The message in a stretch: all from the first opening symbol on. -/
def message (l : List A) : List A := l.dropWhile (· ≠ start)

variable {start} {noise l : List A} {a : A}

theorem message_noise (h : start ∉ noise) (l : List A) :
    message start (noise ++ start::l) = start::l := by
  induction noise with
  | nil => simp [message]
  | cons a noise ih =>
    obtain ⟨ha,hnoise⟩ : start ≠ a ∧ start ∉ noise := by simpa using h
    rw [List.cons_append,message,List.dropWhile_cons_of_pos (by simpa using Ne.symm ha)]
    exact ih hnoise

theorem message_of_not_mem (h : start ∉ l) : message start l = [] :=
  List.dropWhile_eq_nil_iff.mpr fun a ha => by simpa using fun heq : a = start => h (heq ▸ ha)

theorem message_append_of_ne (h : message start l ≠ []) (more : List A) :
    message start (l ++ more) = message start l ++ more := by
  rw [message,List.dropWhile_append]
  exact if_neg (by simpa [message] using h)

theorem message_append_of_eq (h : message start l = []) (more : List A) :
    message start (l ++ more) = message start more := by
  rw [message,List.dropWhile_append]
  exact if_pos (by simpa [message] using h)

end Message
end Framing
