import Mathlib.Data.List.Basic
import Mathlib.Logic.Function.Basic

/-! Singly linked lists threaded through a table: a node holds a link, and a link leads to a
node or nowhere. -/
namespace PolymorphOS
namespace LinkedList

variable {α β : Type*} {deref : β → Option α} {link : α → β}

/-- From the link `s` one passes the nodes of a list and arrives at the link `t`. -/
inductive Segment (deref : β → Option α) (link : α → β) : β → List α → β → Prop
  | nil (s : β) : Segment deref link s [] s
  | cons {s t : β} {a : α} {l : List α} : deref s = some a → Segment deref link (link a) l t →
      Segment deref link s (a :: l) t

/-- The first `n` nodes from the link `s` on. -/
def walk (deref : β → Option α) (link : α → β) : ℕ → β → Option (List α)
  | 0,_ => some []
  | n + 1,s =>
    match deref s with
    | some a => (walk deref link n (link a)).map (a :: ·)
    | none => none

namespace Segment

theorem cons_iff {s t : β} {a : α} {l : List α} :
    Segment deref link s (a :: l) t ↔ deref s = some a ∧ Segment deref link (link a) l t := by
  constructor
  · intro h
    cases h with
    | cons hs hl => exact ⟨hs,hl⟩
  · exact fun h => .cons h.1 h.2

theorem split {s u : β} {l r : List α} (h : Segment deref link s (l ++ r) u) :
    ∃ t, Segment deref link s l t ∧ Segment deref link t r u := by
  induction l generalizing s with
  | nil => exact ⟨s,.nil s,h⟩
  | cons a l ih =>
    obtain ⟨hs,hl⟩ := cons_iff.mp h
    obtain ⟨t,ht,hr⟩ := ih hl
    exact ⟨t,.cons hs ht,hr⟩

/-- Only the links of the nodes passed matter. -/
theorem congr {link' : α → β} {s t : β} {l : List α} (h : Segment deref link s l t)
    (heq : ∀ a ∈ l, link' a = link a) : Segment deref link' s l t := by
  induction h with
  | nil => exact .nil _
  | @cons s t a l hs _ ih =>
    apply Segment.cons hs
    rw [heq a List.mem_cons_self]
    exact ih fun b hb => heq b (List.mem_cons_of_mem a hb)

theorem update [DecidableEq α] {s t u : β} {l : List α} {a : α}
    (h : Segment deref link s l t) (ha : a ∉ l) :
    Segment deref (Function.update link a u) s l t := by
  apply h.congr
  intro b hb
  apply Function.update_of_ne
  intro he
  exact ha (he ▸ hb)

/-- A pair of nodes goes back in front of a list: the link of its last node is set to where
the list starts. -/
theorem push [DecidableEq α] {s t u : β} {a b : α} {l : List α} (hs : deref s = some a)
    (hab : deref (link a) = some b) (hne : a ≠ b) (hl : Segment deref link t l u) (hb : b ∉ l) :
    Segment deref (Function.update link b t) s (a :: b :: l) u := by
  apply Segment.cons hs
  rw [Function.update_of_ne hne]
  apply Segment.cons hab
  rw [Function.update_self]
  exact hl.update hb

theorem walk_eq {s t : β} {l : List α} (h : Segment deref link s l t) :
    walk deref link l.length s = some l := by
  induction h with
  | nil => rfl
  | cons hs _ ih =>
    simp only [List.length_cons,walk,hs,ih]
    rfl

end Segment

theorem exists_segment {n : ℕ} {s : β} {l : List α} (h : walk deref link n s = some l) :
    ∃ t, Segment deref link s l t := by
  induction n generalizing s l with
  | zero =>
    cases Option.some.inj h
    exact ⟨s,.nil s⟩
  | succ n ih =>
    rw [walk] at h
    cases hs : deref s with
    | none =>
      rw [hs] at h
      cases h
    | some a =>
      rw [hs] at h
      obtain ⟨r,hr,rfl⟩ := Option.map_eq_some_iff.mp h
      obtain ⟨t,ht⟩ := ih hr
      exact ⟨t,.cons hs ht⟩

end LinkedList
end PolymorphOS
