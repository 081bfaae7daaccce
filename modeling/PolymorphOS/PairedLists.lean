import Mathlib.Data.List.Forall2
import Mathlib.Data.List.Perm.Basic

/-! Two lists whose entries belong together one by one, and what happens to both at once. -/
namespace PolymorphOS
namespace PairedLists

variable {A B C : Type*} {R : A → B → Prop} {l : List A} {m : List B}

/-- Taking an entry out and putting it at the end only changes the order. -/
theorem perm_moved {a : A} {i : ℕ} (h : l[i]? = some a) : (l.eraseIdx i ++ [a]).Perm l := by
  obtain ⟨hi,rfl⟩ := List.getElem?_eq_some_iff.mp h
  exact (List.perm_append_singleton _ _).trans (List.getElem_cons_eraseIdx_perm hi)

/-- The partner of an entry of the right list. -/
theorem getElem?_right (h : List.Forall₂ R l m) {i : ℕ} {b : B} (hb : m[i]? = some b) :
    ∃ a, l[i]? = some a ∧ R a b := by
  induction h generalizing i with
  | nil => cases hb
  | @cons a b' l m hab _ ih =>
    cases i with
    | zero =>
      cases hb
      exact ⟨a,rfl,hab⟩
    | succ i => exact ih hb

theorem getElem?_left (h : List.Forall₂ R l m) {i : ℕ} {a : A} (ha : l[i]? = some a) :
    ∃ b, m[i]? = some b ∧ R a b := getElem?_right (List.Forall₂.flip h) ha

theorem getElem?_both (h : List.Forall₂ R l m) {i : ℕ} {a : A} {b : B} (ha : l[i]? = some a)
    (hb : m[i]? = some b) : R a b := by
  obtain ⟨a',ha',hr⟩ := getElem?_right h hb
  exact Option.some.inj (ha.symm.trans ha') ▸ hr

theorem mem_right (h : List.Forall₂ R l m) {b : B} (hb : b ∈ m) : ∃ a ∈ l, R a b := by
  obtain ⟨i,hi⟩ := List.mem_iff_getElem?.mp hb
  obtain ⟨a,ha,hr⟩ := getElem?_right h hi
  exact ⟨a,List.mem_of_getElem? ha,hr⟩

theorem mem_left (h : List.Forall₂ R l m) {a : A} (ha : a ∈ l) : ∃ b ∈ m, R a b := by
  obtain ⟨b,hb,hr⟩ := mem_right (List.Forall₂.flip h) ha
  exact ⟨b,hb,hr⟩

theorem eraseIdx (h : List.Forall₂ R l m) (i : ℕ) :
    List.Forall₂ R (l.eraseIdx i) (m.eraseIdx i) := by
  induction h generalizing i with
  | nil => exact .nil
  | cons hab h ih =>
    cases i with
    | zero => exact h
    | succ i => exact .cons hab (ih i)

theorem concat (h : List.Forall₂ R l m) {a : A} {b : B} (hab : R a b) :
    List.Forall₂ R (l ++ [a]) (m ++ [b]) := List.rel_append h (.cons hab .nil)

theorem mapIdx {S : A → C → Prop} (h : List.Forall₂ R l m) {f : ℕ → B → C}
    (hf : ∀ i a b, R a b → S a (f i b)) : List.Forall₂ S l (m.mapIdx f) := by
  induction h generalizing f with
  | nil => exact .nil
  | cons hab _ ih =>
    rw [List.mapIdx_cons]
    exact .cons (hf 0 _ _ hab) (ih fun i => hf (i + 1))

/-- One after the other. -/
theorem trans {S : B → C → Prop} {T : A → C → Prop} {n : List C} (h : List.Forall₂ R l m)
    (h' : List.Forall₂ S m n) (hrel : ∀ a b c, R a b → S b c → T a c) : List.Forall₂ T l n := by
  induction h generalizing n with
  | nil =>
    cases h'
    exact .nil
  | cons hab _ ih =>
    cases h' with
    | cons hbc h' => exact .cons (hrel _ _ _ hab hbc) (ih h')

/-- The entries of the left list whose partners stay in the right one. -/
def survivors (p : B → Bool) (l : List A) (m : List B) : List A :=
  ((l.zip m).filter fun c => p c.2).map Prod.fst

theorem survivors_cons (p : B → Bool) (a : A) (b : B) (l : List A) (m : List B) :
    survivors p (a::l) (b::m) = if p b then a :: survivors p l m else survivors p l m := by
  rw [survivors,List.zip_cons_cons,List.filter_cons]
  split <;> rfl

theorem forall₂_survivors (h : List.Forall₂ R l m) (p : B → Bool) :
    List.Forall₂ (fun a b => R a b ∧ p b = true) (survivors p l m) (m.filter p) := by
  induction h with
  | nil => exact .nil
  | cons hab _ ih =>
    rw [survivors_cons,List.filter_cons]
    split
    · rename_i hp
      exact .cons ⟨hab,hp⟩ ih
    · exact ih

theorem survivors_sublist (h : List.Forall₂ R l m) (p : B → Bool) :
    (survivors p l m).Sublist l := by
  induction h with
  | nil => exact .slnil
  | cons _ _ ih =>
    rw [survivors_cons]
    split
    · exact ih.cons_cons _
    · exact ih.cons _

/-- An entry goes only if its partner does. -/
theorem not_mem_survivors (h : List.Forall₂ R l m) {p : B → Bool} {a : A} (ha : a ∈ l)
    (hgone : a ∉ survivors p l m) : ∃ b ∈ m, R a b ∧ ¬p b = true := by
  induction h with
  | nil => cases ha
  | @cons a' b l m hab _ ih =>
    rw [survivors_cons] at hgone
    rcases List.mem_cons.mp ha with rfl | ha
    · refine ⟨b,List.mem_cons_self,hab,fun hp => hgone ?_⟩
      rw [if_pos hp]
      exact List.mem_cons_self
    · obtain ⟨b',hb',hrest⟩ := ih ha fun hmem => hgone (by
        split
        · exact List.mem_cons_of_mem _ hmem
        · exact hmem)
      exact ⟨b',List.mem_cons_of_mem _ hb',hrest⟩

end PairedLists
end PolymorphOS
