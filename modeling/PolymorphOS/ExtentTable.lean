import PolymorphOS.Runs
import Mathlib.Tactic

/-! Tables of named extents of a linear store. A new extent is laid out behind the last
one of the table; removing and renaming leave the others where they are. -/
namespace PolymorphOS

/-- `count` cells from `start` on, under a name. -/
@[ext] structure Extent (N : Type*) where
  name : N
  start : ℕ
  count : ℕ

namespace Extent

variable {N : Type*}

def stop (e : Extent N) : ℕ := e.start + e.count

def Covers (e : Extent N) (cell : ℕ) : Prop := e.start ≤ cell ∧ cell < e.stop

theorem start_le_stop (e : Extent N) : e.start ≤ e.stop := Nat.le_add_right _ _

def Apart (e f : Extent N) : Prop := e.stop ≤ f.start ∨ f.stop ≤ e.start

instance : Std.Symm (Apart (N := N)) := ⟨fun _ _ => Or.symm⟩

end Extent

/-- A table on the cells from `base` on: no name twice, and the extents in the order of
the table. -/
@[ext] structure ExtentTable (N : Type*) (base : ℕ) where
  extents : List (Extent N)
  names_nodup : (extents.map Extent.name).Nodup
  base_le : ∀ e ∈ extents, base ≤ e.start
  ordered : extents.Pairwise fun a b => a.stop ≤ b.start

namespace ExtentTable

variable {N : Type*} {base : ℕ}

def names (t : ExtentTable N base) : List N := t.extents.map Extent.name

def empty : ExtentTable N base where
  extents := []
  names_nodup := List.nodup_nil
  base_le _ h := by cases h
  ordered := List.Pairwise.nil

/-- Where the next extent goes. -/
def next (t : ExtentTable N base) : ℕ := (t.extents.getLast?.map Extent.stop).getD base

/-- The last extent of the table lies highest. -/
theorem stop_le_next (t : ExtentTable N base) {e : Extent N} (he : e ∈ t.extents) :
    e.stop ≤ t.next := by
  rcases List.eq_nil_or_concat t.extents with hl | ⟨init,last,hl⟩
  · rw [hl] at he
    cases he
  have hnext : t.next = last.stop := by simp [next,hl]
  rw [hl,List.concat_eq_append] at he
  rcases List.mem_append.mp he with he | he
  · have ho := t.ordered
    rw [hl,List.concat_eq_append,List.pairwise_append] at ho
    calc e.stop ≤ last.start := ho.2.2 e he last (by simp)
      _ ≤ last.stop := last.start_le_stop
      _ = t.next := hnext.symm
  · rw [List.mem_singleton.mp he,hnext]

theorem base_le_next (t : ExtentTable N base) : base ≤ t.next := by
  unfold next
  cases h : t.extents.getLast? with
  | none => exact le_refl _
  | some last =>
    exact (t.base_le last (List.mem_of_getLast? h)).trans last.start_le_stop

theorem apart (t : ExtentTable N base) {e e' : Extent N} (he : e ∈ t.extents) (he' : e' ∈ t.extents)
    (hne : e ≠ e') : e.Apart e' :=
  (t.ordered.imp (S := Extent.Apart) Or.inl).forall he he' hne

def append (t : ExtentTable N base) (name : N) (count : ℕ) (h : name ∉ t.names) :
    ExtentTable N base where
  extents := t.extents ++ [⟨name,t.next,count⟩]
  names_nodup := by
    rw [List.map_append]
    refine List.nodup_append.mpr ⟨t.names_nodup,List.nodup_singleton _,?_⟩
    rintro a ha b hb rfl
    rw [List.map_singleton,List.mem_singleton] at hb
    subst hb
    exact h ha
  base_le e he := by
    rcases List.mem_append.mp he with he | he
    · exact t.base_le e he
    · rw [List.mem_singleton.mp he]
      exact t.base_le_next
  ordered := by
    refine List.pairwise_append.mpr ⟨t.ordered,List.pairwise_singleton _ _,fun e he f hf => ?_⟩
    rw [List.mem_singleton.mp hf]
    exact t.stop_le_next he

/-- The first `k` extents, and of the next one only its name and its start. -/
def cut (t : ExtentTable N base) (k : ℕ) (hk : k < t.extents.length) (count : ℕ) :
    ExtentTable N base where
  extents := t.extents.take k ++ [{t.extents[k] with count := count}]
  names_nodup := by
    have hsub := (t.extents.take_sublist (k+1)).map Extent.name
    rw [List.take_succ_eq_append_getElem hk,List.map_append] at hsub
    rw [List.map_append]
    exact t.names_nodup.sublist hsub
  base_le e he := by
    rcases List.mem_append.mp he with he | he
    · exact t.base_le e (List.mem_of_mem_take he)
    · rw [List.mem_singleton.mp he]
      exact t.base_le t.extents[k] (List.getElem_mem hk)
  ordered := by
    have hsub := t.ordered.sublist (t.extents.take_sublist (k+1))
    rw [List.take_succ_eq_append_getElem hk,List.pairwise_append] at hsub
    refine List.pairwise_append.mpr ⟨hsub.1,List.pairwise_singleton _ _,fun e he f hf => ?_⟩
    rw [List.mem_singleton.mp hf]
    exact hsub.2.2 e he t.extents[k] (List.mem_singleton_self _)

def take (t : ExtentTable N base) (k : ℕ) : ExtentTable N base where
  extents := t.extents.take k
  names_nodup := t.names_nodup.sublist ((t.extents.take_sublist k).map _)
  base_le e he := t.base_le e (List.mem_of_mem_take he)
  ordered := t.ordered.sublist (t.extents.take_sublist k)

variable [DecidableEq N]

def erase (t : ExtentTable N base) (name : N) : ExtentTable N base where
  extents := t.extents.filter fun e => e.name ≠ name
  names_nodup := t.names_nodup.sublist (List.filter_sublist.map _)
  base_le e he := t.base_le e (List.mem_of_mem_filter he)
  ordered := t.ordered.sublist List.filter_sublist

def relabel (oldName newName : N) (e : Extent N) : Extent N :=
  if e.name = oldName then {e with name := newName} else e

theorem relabel_stop (oldName newName : N) (e : Extent N) :
    (relabel oldName newName e).stop = e.stop := by
  unfold relabel
  split <;> rfl

theorem relabel_start (oldName newName : N) (e : Extent N) :
    (relabel oldName newName e).start = e.start := by
  unfold relabel
  split <;> rfl

def rename (t : ExtentTable N base) (oldName newName : N) (h : newName ∉ t.names) :
    ExtentTable N base where
  extents := t.extents.map (relabel oldName newName)
  names_nodup := by
    have hinj : ∀ e ∈ t.extents, ∀ f ∈ t.extents,
        (relabel oldName newName e).name = (relabel oldName newName f).name → e.name = f.name := by
      intro e he f hf hef
      have hne : ∀ g ∈ t.extents, g.name ≠ newName := fun g hg hgn =>
        h (hgn ▸ List.mem_map_of_mem hg)
      have he' := hne e he
      have hf' := hne f hf
      unfold relabel at hef
      split_ifs at hef with h₁ h₂ h₂
      · exact h₁.trans h₂.symm
      · exact absurd hef.symm hf'
      · exact absurd hef he'
      · exact hef
    rw [List.map_map,List.nodup_map_iff_inj_on (List.Nodup.of_map _ t.names_nodup)]
    exact fun e he f hf hef => List.inj_on_of_nodup_map t.names_nodup he hf (hinj e he f hf hef)
  base_le e he := by
    obtain ⟨f,hf,rfl⟩ := List.mem_map.mp he
    rw [relabel_start]
    exact t.base_le f hf
  ordered := by
    rw [List.pairwise_map]
    refine t.ordered.imp fun h => ?_
    rw [relabel_stop,relabel_start]
    exact h

inductive Op (N : Type*)
  | append (name : N) (count : ℕ)
  | erase (name : N)
  | rename (oldName newName : N)

/-- The table on its own: extents come, go, and change their names. -/
def system (N : Type*) [DecidableEq N] (base : ℕ) : Runs.System (ExtentTable N base) (Op N) where
  init t := t = empty
  step t op t' := match op with
    | .append name count => ∃ h, t' = t.append name count h
    | .erase name => name ∈ t.names ∧ t' = t.erase name
    | .rename oldName newName => oldName ∈ t.names ∧ ∃ h, t' = t.rename oldName newName h

end ExtentTable
end PolymorphOS
