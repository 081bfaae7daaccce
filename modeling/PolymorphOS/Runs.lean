import Mathlib.Logic.Relation
import Mathlib.Order.WellFounded

/-! Systems that take one labelled step after another, and the rules by which a
property of one step becomes a property of every run. -/
namespace PolymorphOS
namespace Runs

/-- A log with a verdict on each entry is as it should be exactly if no verdict is bad. -/
theorem prefix_iff_verdicts {A : Type*} {log expected : List A} {verdicts : List Bool}
    (hlen : verdicts.length = log.length)
    (h : ∀ m < log.length, log[m]? = expected[m]? ↔ verdicts[m]? = some true) :
    log <+: expected ↔ ∀ verdict ∈ verdicts, verdict = true := by
  constructor
  · intro hpre verdict hmem
    obtain ⟨m,hm,rfl⟩ := List.mem_iff_getElem.mp hmem
    have hm' : m < log.length := hlen ▸ hm
    have hgood := (h m hm').mp (by
      rw [List.prefix_iff_getElem?.mp hpre m hm',List.getElem?_eq_getElem hm'])
    rw [List.getElem?_eq_getElem hm] at hgood
    exact Option.some.inj hgood
  · intro hall
    rw [List.prefix_iff_getElem?]
    intro m hm
    have hm' : m < verdicts.length := hlen.symm ▸ hm
    have hgood : verdicts[m]? = some true := by
      rw [List.getElem?_eq_getElem hm',hall _ (List.getElem_mem hm')]
    rw [← (h m hm).mpr hgood,List.getElem?_eq_getElem hm]

/-- A relation that leads on from every state of an invariant has an endless run. -/
theorem exists_endless {S : Type*} {I : S → Prop} {R : S → S → Prop}
    (h : ∀ s, I s → ∃ t, R s t ∧ I t) {s : S} (hs : I s) :
    ∃ f : ℕ → S, f 0 = s ∧ ∀ k, I (f k) ∧ R (f k) (f (k + 1)) := by
  refine not_acc_iff_exists_descending_chain (r := fun t s => I s ∧ R s t).mp fun hacc => ?_
  induction hacc with
  | intro s _ ih =>
    obtain ⟨t,hr,ht⟩ := h s hs
    exact ih t ⟨hs,hr⟩ ht

/-- Initial states and labelled steps. -/
structure System (S A : Type*) where
  init : S → Prop
  step : S → A → S → Prop

namespace System

variable {S A T B : Type*} {m : System S A}

/-- The same system, where only the steps allowed by `ok` are taken. -/
def guard (m : System S A) (ok : S → A → Prop) : System S A where
  init := m.init
  step s a t := ok s a ∧ m.step s a t

inductive Reachable (m : System S A) : S → Prop
  | init {s : S} : m.init s → m.Reachable s
  | step {s t : S} {a : A} : m.Reachable s → m.step s a t → m.Reachable t

/-- Zero or more steps from one state to another. -/
def Run (m : System S A) : S → S → Prop := Relation.ReflTransGen fun s t => ∃ a, m.step s a t

/-- What holds initially and survives every step holds in every reachable state. -/
theorem Reachable.invariant {I : S → Prop} (hinit : ∀ s, m.init s → I s)
    (hstep : ∀ s a t, I s → m.step s a t → I t) {s : S} (h : m.Reachable s) : I s := by
  induction h with
  | init h => exact hinit _ h
  | step _ h ih => exact hstep _ _ _ ih h

theorem Run.preserves {I : S → Prop} (hstep : ∀ s a t, I s → m.step s a t → I t) {s t : S}
    (h : m.Run s t) (hs : I s) : I t := by
  induction h with
  | refl => exact hs
  | tail _ h ih =>
    obtain ⟨a,ha⟩ := h
    exact hstep _ _ _ ih ha

theorem Reachable.run {s t : S} (hs : m.Reachable s) (h : m.Run s t) : m.Reachable t := by
  induction h with
  | refl => exact hs
  | tail _ h ih =>
    obtain ⟨a,ha⟩ := h
    exact .step ih ha

/-- What the steps allow under a guard they allow without it. -/
theorem Run.of_guard {ok : S → A → Prop} {s t : S} (h : (m.guard ok).Run s t) : m.Run s t := by
  induction h with
  | refl => exact .refl
  | tail _ h ih =>
    obtain ⟨a,_,hstep⟩ := h
    exact ih.tail ⟨a,hstep⟩

/-- Steps that were computed one after the other, from reachable states. -/
theorem Reachable.foldlM {exec : S → A → Option S}
    (hexec : ∀ s a t, m.Reachable s → exec s a = some t → m.step s a t) {s t : S} {l : List A}
    (hs : m.Reachable s) (h : l.foldlM exec s = some t) : m.Reachable t := by
  induction l generalizing s with
  | nil =>
    cases Option.some.inj h
    exact hs
  | cons a l ih =>
    rw [List.foldlM_cons] at h
    obtain ⟨u,hu,ht⟩ := Option.bind_eq_some_iff.mp h
    exact ih (.step hs (hexec s a u hs hu)) ht

/-- The steps of a run, in order. -/
inductive Trace (m : System S A) : S → List A → S → Prop
  | nil {s : S} : m.Trace s [] s
  | cons {s t u : S} {a : A} {l : List A} : m.step s a t → m.Trace t l u → m.Trace s (a::l) u

/-- What follows every step of a system accepts all of its traces. -/
theorem Trace.accepted {spec : T → A → Option T} {R : S → T → Prop}
    (hstep : ∀ s t a s', R s t → m.step s a s' → ∃ t', spec t a = some t' ∧ R s' t')
    {s s' : S} {l : List A} (h : m.Trace s l s') {t : T} (hr : R s t) :
    ∃ t', l.foldlM spec t = some t' ∧ R s' t' := by
  induction h generalizing t with
  | nil => exact ⟨t,rfl,hr⟩
  | cons ha _ ih =>
    obtain ⟨u,hu,hr'⟩ := hstep _ _ _ _ hr ha
    obtain ⟨t',ht',hr''⟩ := ih hr'
    exact ⟨t',by rw [List.foldlM_cons,hu]; exact ht',hr''⟩

theorem Trace.concat {s t u : S} {a : A} {l : List A} (h : m.Trace s l t) (ha : m.step t a u) :
    m.Trace s (l ++ [a]) u := by
  induction h with
  | nil => exact .cons ha .nil
  | cons hb _ ih => exact .cons hb (ih ha)

/-- The steps of a run, each with the state that it is taken in. -/
inductive Path (m : System S A) : S → List (S × A) → S → Prop
  | nil {s : S} : m.Path s [] s
  | cons {s t u : S} {a : A} {l : List (S × A)} : m.step s a t → m.Path t l u →
      m.Path s ((s,a)::l) u

/-- Bounded waiting: a bound on the ticks to come, which each tick lowers and no step raises, is not
outrun without the goal. -/
theorem Path.meets {tick : S × A → Bool} {goal : S × A → Prop} {R : ℕ → S → Prop}
    (hstep : ∀ n s a t, R n s → m.step s a t → ¬goal (s,a) →
      if tick (s,a) then ∃ k, n = k + 1 ∧ R k t else R n t)
    {n : ℕ} {s t : S} {l : List (S × A)} (h : m.Path s l t) (hs : R n s)
    (hticks : n < l.countP tick) : ∃ x ∈ l, goal x := by
  induction h generalizing n with
  | nil => exact absurd hticks (Nat.not_lt_zero n)
  | @cons s _ _ a l ha _ ih =>
    by_cases hgoal : goal (s,a)
    · exact ⟨_,List.mem_cons_self,hgoal⟩
    · have hnext := hstep n _ _ _ hs ha hgoal
      by_cases htick : tick (s,a) = true
      · rw [if_pos htick] at hnext
        obtain ⟨k,rfl,hk⟩ := hnext
        rw [List.countP_cons_of_pos htick] at hticks
        obtain ⟨x,hx,hgoal⟩ := ih hk (Nat.lt_of_succ_lt_succ hticks)
        exact ⟨x,List.mem_cons_of_mem _ hx,hgoal⟩
      · rw [if_neg htick] at hnext
        rw [List.countP_cons_of_neg htick] at hticks
        obtain ⟨x,hx,hgoal⟩ := ih hnext hticks
        exact ⟨x,List.mem_cons_of_mem _ hx,hgoal⟩

/-- A forward simulation: what a step does, the related state does in one step or in none. -/
theorem Reachable.simulates {n : System T B} {R : S → T → Prop}
    (hinit : ∀ s, m.init s → ∃ t, n.init t ∧ R s t)
    (hstep : ∀ s a s' t, R s t → m.step s a s' → ∃ t', R s' t' ∧ (t' = t ∨ ∃ b, n.step t b t'))
    {s : S} (h : m.Reachable s) : ∃ t, n.Reachable t ∧ R s t := by
  induction h with
  | init h =>
    obtain ⟨t,ht,hr⟩ := hinit _ h
    exact ⟨t,.init ht,hr⟩
  | step _ h ih =>
    obtain ⟨t,ht,hr⟩ := ih
    obtain ⟨t',hr',rfl | ⟨b,hb⟩⟩ := hstep _ _ _ _ hr h
    · exact ⟨t',ht,hr'⟩
    · exact ⟨t',.step ht hb,hr'⟩

/-- A simulation that keeps a record: each step of the system adds nothing to it, or one step of the
specification. What is on record is then a trace of the specification. -/
theorem Reachable.records {spec : System T B} {R : S → T → Prop} {record : S → List B} {t₀ : T}
    (hinit : ∀ s, m.init s → record s = [] ∧ R s t₀)
    (hstep : ∀ s a s' t, R s t → m.step s a s' → record s' = record s ∧ R s' t ∨
      ∃ b t', record s' = record s ++ [b] ∧ spec.step t b t' ∧ R s' t')
    {s : S} (h : m.Reachable s) : ∃ t, spec.Trace t₀ (record s) t ∧ R s t := by
  induction h with
  | init h =>
    obtain ⟨hrecord,hr⟩ := hinit _ h
    exact ⟨t₀,hrecord ▸ .nil,hr⟩
  | step _ h ih =>
    obtain ⟨t,ht,hr⟩ := ih
    obtain ⟨hrecord,hr'⟩ | ⟨b,t',hrecord,hb,hr'⟩ := hstep _ _ _ _ hr h
    · exact ⟨t,hrecord ▸ ht,hr'⟩
    · exact ⟨t',hrecord ▸ ht.concat hb,hr'⟩

end System
end Runs
end PolymorphOS
