import Mathlib.Tactic

/-! What a heap is for: objects of bytes, each behind its own handle, that keep what was written to
them. Nothing here knows of addresses. -/
namespace PolymorphOS

/-- The bytes that were neither written nor read yet are unknown. -/
structure Object where
  size : ℕ
  bytes : ℕ → Option UInt8

abbrev ObjectStore := ℕ → Option Object

namespace ObjectStore

/-- What a client sees of a call: the handle it was given, or the byte it read. -/
inductive Event
  | refused
  | create (handle size : ℕ)
  | createZeroed (handle size : ℕ)
  | remove (handle : ℕ)
  | resize (handle handle' size : ℕ)
  | store (handle i : ℕ) (byte : UInt8)
  | load (handle i : ℕ) (byte : UInt8)
  deriving DecidableEq

def empty : ObjectStore := fun _ => none

/-- The store with a new object, behind a handle that is not in use. -/
def insert (s : ObjectStore) (handle : ℕ) (o : Object) : Option ObjectStore :=
  if (s handle).isNone then some (Function.update s handle (some o)) else none

/-- Byte `i` of the object is known from now on. -/
def know (s : ObjectStore) (handle : ℕ) (o : Object) (i : ℕ) (byte : UInt8) : ObjectStore :=
  Function.update s handle (some {o with bytes := Function.update o.bytes i (some byte)})

/-- The store after an event; `none` if the event must not happen. -/
def step (s : ObjectStore) : Event → Option ObjectStore
  | .refused => some s
  | .create handle size => s.insert handle ⟨size,fun _ => none⟩
  | .createZeroed handle size => s.insert handle ⟨size,fun _ => some 0⟩
  | .remove handle => (s handle).map fun _ => Function.update s handle none
  | .resize handle handle' size => do
    let o ← s handle
    let s ← s.insert handle' ⟨size,fun i => if i < o.size then o.bytes i else none⟩
    return Function.update s handle none
  | .store handle i byte => do
    let o ← s handle
    if i < o.size then return s.know handle o i byte else none
  | .load handle i byte => do
    let o ← s handle
    if i < o.size ∧ (o.bytes i).all (· = byte) then return s.know handle o i byte else none

example : ([.create 1 8,.store 1 0 5,.resize 1 2 16,.load 2 0 5].foldlM step .empty).isSome ∧
    ([.create 1 8,.store 1 0 5,.resize 1 2 16,.load 2 0 6].foldlM step .empty).isNone := by decide

/-- Some places, each behind its own handle, hold what the store knows of its objects. -/
structure Represents {L : Type} (s : ObjectStore) (live : L → Prop) (handle size : L → ℕ)
    (byteAt : ℕ → UInt8) : Prop where
  handle_inj : ∀ l m, live l → live m → handle l = handle m → l = m
  object : ∀ l, live l → ∃ o, s (handle l) = some o ∧ o.size = size l ∧
    ∀ i < o.size, ∀ byte, o.bytes i = some byte → byteAt (handle l + i) = byte
  unused : ∀ h, (∀ l, live l → handle l ≠ h) → s h = none

namespace Represents

variable {L : Type} {s : ObjectStore} {live : L → Prop} {handle size : L → ℕ}
  {byteAt byteAt' : ℕ → UInt8}

theorem empty : Represents .empty (fun _ : L => False) handle size byteAt where
  handle_inj _ _ hl := hl.elim
  object _ hl := hl.elim
  unused _ _ := rfl

/-- Nothing changes but what is in no object. -/
theorem keep (h : Represents s live handle size byteAt)
    (hkeep : ∀ l, live l → ∀ i < size l, byteAt' (handle l + i) = byteAt (handle l + i)) :
    Represents s live handle size byteAt' := by
  refine ⟨h.handle_inj,fun l hl => ?_,h.unused⟩
  obtain ⟨o,ho,hsize,hbytes⟩ := h.object l hl
  exact ⟨o,ho,hsize,fun i hi byte hb => (hkeep l hl i (hsize ▸ hi)).trans (hbytes i hi byte hb)⟩

theorem insert (h : Represents s live handle size byteAt) (l₀ : L) (o : Object)
    (hfresh : ∀ l, live l → handle l ≠ handle l₀) (hsize : o.size = size l₀)
    (hbytes : ∀ i < o.size, ∀ byte, o.bytes i = some byte → byteAt (handle l₀ + i) = byte) :
    ∃ s', s.insert (handle l₀) o = some s' ∧ (∀ l, live l → s' (handle l) = s (handle l)) ∧
      Represents s' (fun l => l = l₀ ∨ live l) handle size byteAt := by
  have hnone : s (handle l₀) = none := h.unused _ hfresh
  have hother (l : L) (hl : live l) :
      Function.update s (handle l₀) (some o) (handle l) = s (handle l) :=
    Function.update_of_ne (hfresh l hl) _ _
  refine ⟨_,if_pos (by rw [hnone]; rfl),hother,?_,?_,?_⟩
  · rintro l m (rfl | hl) (rfl | hm) heq
    · rfl
    · exact absurd heq.symm (hfresh m hm)
    · exact absurd heq (hfresh l hl)
    · exact h.handle_inj l m hl hm heq
  · rintro l (rfl | hl)
    · exact ⟨o,Function.update_self _ _ _,hsize,hbytes⟩
    · rw [hother l hl]
      exact h.object l hl
  · intro a ha
    rw [Function.update_of_ne (ha l₀ (.inl rfl)).symm]
    exact h.unused a fun l hl => ha l (.inr hl)

theorem remove (h : Represents s live handle size byteAt) {l₀ : L} (hl₀ : live l₀) :
    Represents (Function.update s (handle l₀) none) (fun l => live l ∧ l ≠ l₀) handle size
      byteAt := by
  refine ⟨fun l m hl hm => h.handle_inj l m hl.1 hm.1,fun l hl => ?_,fun a ha => ?_⟩
  · have hne : handle l ≠ handle l₀ := fun heq => hl.2 (h.handle_inj l l₀ hl.1 hl₀ heq)
    rw [Function.update_of_ne hne]
    exact h.object l hl.1
  · by_cases heq : a = handle l₀
    · rw [heq,Function.update_self]
    · rw [Function.update_of_ne heq]
      exact h.unused a fun l hl hla =>
        ha l ⟨hl,fun hll => heq (hla.symm.trans (congrArg handle hll))⟩ hla

/-- A byte of one object becomes known. -/
theorem know (h : Represents s live handle size byteAt) {l₀ : L} (hl₀ : live l₀) {o : Object}
    (ho : s (handle l₀) = some o) (i : ℕ) (byte : UInt8)
    (hbyte : byteAt' (handle l₀ + i) = byte)
    (hsame : ∀ j < size l₀, j ≠ i → byteAt' (handle l₀ + j) = byteAt (handle l₀ + j))
    (hkeep : ∀ l, live l → l ≠ l₀ → ∀ j < size l, byteAt' (handle l + j) = byteAt (handle l + j)) :
    Represents (s.know (handle l₀) o i byte) live handle size byteAt' := by
  refine ⟨h.handle_inj,fun l hl => ?_,fun a ha => ?_⟩
  · obtain ⟨o',ho',hsize,hbytes⟩ := h.object l hl
    by_cases hll : l = l₀
    · subst hll
      cases ho.symm.trans ho'
      refine ⟨_,Function.update_self _ _ _,hsize,fun j hj b hb => ?_⟩
      dsimp only at hb
      by_cases hji : j = i
      · subst hji
        rw [Function.update_self] at hb
        exact hbyte.trans (Option.some.inj hb)
      · rw [Function.update_of_ne hji] at hb
        exact (hsame j (hsize ▸ hj) hji).trans (hbytes j hj b hb)
    · have hne : handle l ≠ handle l₀ := fun heq => hll (h.handle_inj l l₀ hl hl₀ heq)
      refine ⟨o',(Function.update_of_ne hne _ _).trans ho',hsize,fun j hj b hb => ?_⟩
      exact (hkeep l hl hll j (hsize ▸ hj)).trans (hbytes j hj b hb)
  · rw [ObjectStore.know,Function.update_of_ne (ha l₀ hl₀).symm]
    exact h.unused a ha

end Represents
end ObjectStore
end PolymorphOS
