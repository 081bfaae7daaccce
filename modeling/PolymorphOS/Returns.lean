import Mathlib.Tactic

/-! Correctness of computations that may fail: that one returns a value, and what holds of the
value if it does. -/
namespace PolymorphOS

theorem bind_inv {E A B : Type} {x : Except E A} {f : A → Except E B} {b : B}
    (h : x >>= f = .ok b) : ∃ a, x = .ok a ∧ f a = .ok b := by
  cases x with
  | error e => cases h
  | ok a => exact ⟨a,rfl,h⟩

theorem map_inv {E A B : Type} {f : A → B} {x : Except E A} {b : B} (h : x.map f = .ok b) :
    ∃ a, x = .ok a ∧ b = f a := by
  cases x with
  | error e => cases h
  | ok a => exact ⟨a,rfl,(Except.ok.inj h).symm⟩

/-- A loop that ends has returned from every round. -/
theorem mapM_inv {E A B : Type} {l : List A} {f : A → Except E B} {bs : List B}
    (h : l.mapM f = .ok bs) : ∀ a ∈ l, ∃ b, f a = .ok b := by
  induction l generalizing bs with
  | nil => simp
  | cons a l ih =>
    rw [List.mapM_cons] at h
    obtain ⟨b,hb,h⟩ := bind_inv h
    obtain ⟨bs',hbs',_⟩ := bind_inv h
    exact List.forall_mem_cons.mpr ⟨⟨b,hb⟩,ih hbs'⟩

/-- The computation returns, and `Q` holds of what it returns. -/
def Returns {ε α : Type*} (x : Except ε α) (Q : α → Prop) : Prop := ∃ a, x = .ok a ∧ Q a

namespace Returns

variable {ε α β : Type} {Q : α → Prop} {P : β → Prop}

theorem pure {a : α} (h : Q a) : Returns (Pure.pure a : Except ε α) Q := ⟨a,rfl,h⟩

theorem bind {x : Except ε α} {f : α → Except ε β} (hx : Returns x Q)
    (hf : ∀ a, Q a → Returns (f a) P) : Returns (x >>= f) P := by
  obtain ⟨a,rfl,ha⟩ := hx
  exact hf a ha

theorem mono {Q' : α → Prop} {x : Except ε α} (hx : Returns x Q) (h : ∀ a, Q a → Q' a) :
    Returns x Q' := by
  obtain ⟨a,rfl,ha⟩ := hx
  exact ⟨a,rfl,h a ha⟩

theorem of_ok {x : Except ε α} {a : α} (hx : Returns x Q) (h : x = .ok a) : Q a := by
  obtain ⟨b,hb,hq⟩ := hx
  rw [h] at hb
  exact Except.ok.inj hb ▸ hq

theorem ite {c : Prop} [Decidable c] {x y : Except ε α} (hx : c → Returns x Q)
    (hy : ¬c → Returns y Q) : Returns (if c then x else y) Q := by
  by_cases h : c
  · rw [if_pos h]
    exact hx h
  · rw [if_neg h]
    exact hy h

/-- `&&` evaluates its right side only where the left one is true. -/
theorem and {x y : Except ε Bool} {A B : Prop} (hx : Returns x fun b => b = true → A)
    (hy : A → Returns y fun b => b = true → B) :
    Returns (x <&&> y) fun b => b = true → A ∧ B := by
  refine hx.bind fun b hb => ?_
  cases b with
  | false => exact Returns.pure nofun
  | true => exact (hy (hb rfl)).mono fun c hc hctrue => ⟨hb rfl,hc hctrue⟩

theorem and_of_true {x y : Except ε Bool} {Q : Bool → Prop} (hx : Returns x fun b => b = true)
    (hy : Returns y Q) : Returns (x <&&> y) Q :=
  hx.bind fun b hb => by
    subst hb
    exact hy

theorem and_of_false {x y : Except ε Bool} (hx : Returns x fun b => b = false) :
    Returns (x <&&> y) fun b => b = false :=
  hx.bind fun b hb => by
    subst hb
    exact Returns.pure rfl

/-- A loop over a list that computes one value for each entry. -/
theorem mapM {l : List β} {f : β → Except ε α} (h : ∀ b ∈ l, Returns (f b) Q) :
    Returns (l.mapM f) fun values => ∀ a ∈ values, Q a := by
  induction l with
  | nil => exact Returns.pure (by simp)
  | cons b l ih =>
    rw [List.mapM_cons]
    refine (h b List.mem_cons_self).bind fun a ha => ?_
    refine (ih fun b' hb' => h b' (List.mem_cons_of_mem _ hb')).bind fun values hvalues => ?_
    exact Returns.pure (List.forall_mem_cons.mpr ⟨ha,hvalues⟩)

/-- A loop over a list whose body is a function. -/
theorem mapM_map {l : List β} {f : β → Except ε α} {g : β → α}
    (h : ∀ b ∈ l, Returns (f b) fun a => a = g b) :
    Returns (l.mapM f) fun as => as = l.map g := by
  induction l with
  | nil => exact Returns.pure rfl
  | cons b l ih =>
    rw [List.mapM_cons]
    refine (h b List.mem_cons_self).bind fun a ha => ?_
    refine (ih fun b' hb' => h b' (List.mem_cons_of_mem _ hb')).bind fun as has => ?_
    exact Returns.pure (by rw [ha,has,List.map_cons])

/-- A loop over successive numbers, by what holds before each of them. -/
theorem foldlM_range' {f : α → ℕ → Except ε α} {I : ℕ → α → Prop} {start n : ℕ} {a : α}
    (h : ∀ k, start ≤ k → k < start + n → ∀ a, I k a → Returns (f a k) (I (k + 1)))
    (ha : I start a) : Returns ((List.range' start n).foldlM f a) (I (start + n)) := by
  induction n generalizing start a with
  | zero => exact Returns.pure ha
  | succ n ih =>
    rw [List.range'_succ,List.foldlM_cons]
    refine (h start le_rfl (by omega) a ha).bind fun b hb => ?_
    have hrest := ih (fun k hk hlt => h k (by omega) (by omega)) hb
    rwa [Nat.add_right_comm] at hrest

theorem foldlM_range {f : α → ℕ → Except ε α} {I : ℕ → α → Prop} {n : ℕ} {a : α}
    (h : ∀ k < n, ∀ a, I k a → Returns (f a k) (I (k + 1))) (ha : I 0 a) :
    Returns ((List.range n).foldlM f a) (I n) := by
  have hrun : Returns ((List.range' 0 n).foldlM f a) (I (0 + n)) :=
    foldlM_range' (fun k _ hlt => h k (by omega)) ha
  rwa [Nat.zero_add,← List.range_eq_range'] at hrun

end Returns

/-- `Q` holds of what the computation returns, if it returns. -/
def Ensures {ε α : Type*} (x : Except ε α) (Q : α → Prop) : Prop := ∀ a, x = .ok a → Q a

namespace Ensures

variable {ε α β σ : Type} {Q : α → Prop} {P : β → Prop}

theorem pure {a : α} (h : Q a) : Ensures (Pure.pure a : Except ε α) Q := by
  rintro _ ⟨⟩
  exact h

theorem error {e : ε} : Ensures (.error e) Q := nofun

theorem of_true {x : Except ε α} : Ensures x fun _ => True := fun _ _ => trivial

theorem bind {x : Except ε α} {f : α → Except ε β} (hx : Ensures x Q)
    (hf : ∀ a, Q a → Ensures (f a) P) : Ensures (x >>= f) P := by
  intro b hb
  cases x with
  | error e => cases hb
  | ok a => exact hf a (hx a rfl) b hb

theorem ite {c : Prop} [Decidable c] {x y : Except ε α} (hx : c → Ensures x Q)
    (hy : ¬c → Ensures y Q) : Ensures (if c then x else y) Q := by
  by_cases h : c
  · rw [if_pos h]
    exact hx h
  · rw [if_neg h]
    exact hy h

/-- A loop over a list, by its invariant. -/
theorem foldlM {l : List β} {f : σ → β → Except ε σ} {I : σ → Prop} {s : σ} (hs : I s)
    (h : ∀ s, I s → ∀ b ∈ l, Ensures (f s b) I) : Ensures (l.foldlM f s) I := by
  induction l generalizing s with
  | nil => exact Ensures.pure hs
  | cons b l ih =>
    rw [List.foldlM_cons]
    refine (h s hs b List.mem_cons_self).bind fun t ht => ?_
    exact ih ht fun u hu b' hb' => h u hu b' (List.mem_cons_of_mem _ hb')

/-- A loop over a list, whose body relates each entry to its value. -/
theorem mapM_forall₂ {l : List β} {f : β → Except ε α} {R : β → α → Prop}
    (h : ∀ b ∈ l, Ensures (f b) (R b)) : Ensures (l.mapM f) (List.Forall₂ R l) := by
  induction l with
  | nil => exact Ensures.pure .nil
  | cons b l ih =>
    rw [List.mapM_cons]
    refine (h b List.mem_cons_self).bind fun a ha => ?_
    refine (ih fun b' hb' => h b' (List.mem_cons_of_mem _ hb')).bind fun as has => ?_
    exact Ensures.pure (.cons ha has)

theorem mapM_forall {l : List β} {f : β → Except ε α} (h : ∀ b ∈ l, Ensures (f b) Q) :
    Ensures (l.mapM f) fun as => ∀ a ∈ as, Q a := by
  induction l with
  | nil => exact Ensures.pure (by simp)
  | cons b l ih =>
    rw [List.mapM_cons]
    refine (h b List.mem_cons_self).bind fun a ha => ?_
    refine (ih fun b' hb' => h b' (List.mem_cons_of_mem _ hb')).bind fun as has => ?_
    exact Ensures.pure (List.forall_mem_cons.mpr ⟨ha,has⟩)

/-- A loop over a list whose body is a function. -/
theorem mapM {l : List β} {f : β → Except ε α} {g : β → α}
    (h : ∀ b ∈ l, Ensures (f b) fun a => a = g b) : Ensures (l.mapM f) fun as => as = l.map g := by
  intro as has
  have hall : List.Forall₂ (· = ·) (l.map g) as :=
    List.forall₂_map_left_iff.mpr ((mapM_forall₂ h as has).imp fun _ _ hab => hab.symm)
  rw [List.forall₂_eq_eq_eq] at hall
  exact hall.symm

end Ensures

/-- A computation that returns, and what it ensures. -/
theorem Returns.with_ensures {ε α : Type} {x : Except ε α} {Q P : α → Prop} (hx : Returns x Q)
    (h : Ensures x P) : Returns x P := by
  obtain ⟨a,ha,_⟩ := hx
  exact ⟨a,ha,h a ha⟩

/-- The computation returns exactly under the condition `c`, and `Q` holds of what it returns. -/
def ReturnsIff {ε α : Type*} (x : Except ε α) (c : Prop) (Q : α → Prop) : Prop :=
  (c → Returns x Q) ∧ ∀ a, x = .ok a → c

namespace ReturnsIff

variable {ε α β : Type} {Q : α → Prop} {P : β → Prop} {c d : Prop}

theorem pure {a : α} (h : Q a) : ReturnsIff (Pure.pure a : Except ε α) True Q :=
  ⟨fun _ => Returns.pure h,fun _ _ => trivial⟩

theorem bind {x : Except ε α} {f : α → Except ε β} (hx : ReturnsIff x c Q)
    (hf : ∀ a, Q a → ReturnsIff (f a) d P) : ReturnsIff (x >>= f) (c ∧ d) P := by
  constructor
  · rintro ⟨hc,hd⟩
    exact (hx.1 hc).bind fun a ha => (hf a ha).1 hd
  · intro b hb
    cases x with
    | error e => cases hb
    | ok a =>
      have hc := hx.2 a rfl
      exact ⟨hc,(hf a ((hx.1 hc).of_ok rfl)).2 b hb⟩

theorem ite {b : Prop} [Decidable b] {x y : Except ε α} (hx : b → ReturnsIff x c Q)
    (hy : ¬b → ReturnsIff y d Q) :
    ReturnsIff (if b then x else y) ((b → c) ∧ (¬b → d)) Q := by
  by_cases h : b
  · simp only [h,not_true_eq_false,true_imp_iff,false_imp_iff,and_true]
    exact hx h
  · simp only [h,not_false_eq_true,true_imp_iff,false_imp_iff,true_and]
    exact hy h

theorem guard [Decidable c] {a : α} {e : ε} (h : Q a) :
    ReturnsIff (if c then .ok a else .error e) c Q := by
  by_cases hc : c
  · simp only [hc,if_true]
    exact ReturnsIff.pure h
  · simp only [hc,if_false]
    exact ⟨nofun,nofun⟩

theorem congr {x : Except ε α} (hx : ReturnsIff x c Q) (h : c ↔ d) : ReturnsIff x d Q := by
  rwa [h] at hx

theorem mono {Q' : α → Prop} {x : Except ε α} (hx : ReturnsIff x c Q) (h : ∀ a, Q a → Q' a) :
    ReturnsIff x c Q' := ⟨fun hc => (hx.1 hc).mono h,hx.2⟩

/-- What the computation returns, if it returns. -/
theorem ensures {x : Except ε α} (hx : ReturnsIff x c Q) : Ensures x Q :=
  fun a ha => (hx.1 (hx.2 a ha)).of_ok ha

/-- A computation that returns, and some further condition on what it returns. -/
theorem returns_iff {x : Except ε α} {A : α → Prop} (hx : ReturnsIff x c Q)
    (h : ∀ a, Q a → (A a ↔ d)) : Returns x A ↔ c ∧ d := by
  constructor
  · rintro ⟨a,ha,hA⟩
    exact ⟨hx.2 a ha,(h a (hx.ensures a ha)).mp hA⟩
  · rintro ⟨hc,hd⟩
    exact (hx.1 hc).mono fun a ha => (h a ha).mpr hd

end ReturnsIff
end PolymorphOS
