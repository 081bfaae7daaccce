import Mathlib.Tactic
import PolymorphOS.Runs

/-! Programs that read and write the registers of a device, one access at a time, while the device
goes on changing its state; and rules by which assertions that the device cannot break carry over
to every interleaving. -/
namespace PolymorphOS

/-- What the registers of a device do, and how it changes on its own. -/
structure Device (D R V : Type) where
  read : D → R → V
  write : D → R → V → D
  own : D → D → Prop

/-- A program over registers. `spin r c` reads `r` until `c` holds of what it reads. -/
inductive RegProgram (R V A : Type) : Type
  | ret (a : A)
  | read (r : R) (k : V → RegProgram R V A)
  | write (r : R) (v : V) (k : RegProgram R V A)
  | spin (r : R) (c : V → Bool) (k : RegProgram R V A)

namespace RegProgram

variable {D R V A B : Type}

protected def bind : RegProgram R V A → (A → RegProgram R V B) → RegProgram R V B
  | ret a,f => f a
  | read r k,f => read r fun v => (k v).bind f
  | write r v k,f => write r v (k.bind f)
  | spin r c k,f => spin r c (k.bind f)

instance : Monad (RegProgram R V) where
  pure := ret
  bind := RegProgram.bind

def readReg (r : R) : RegProgram R V V := read r ret
def writeReg (r : R) (v : V) : RegProgram R V Unit := write r v (ret ())
def spinUntil (r : R) (c : V → Bool) : RegProgram R V Unit := spin r c (ret ())

/-- The program alone, on a device that does nothing on its own. -/
def exec (dev : Device D R V) : RegProgram R V A → D → Option (A × D)
  | ret a,d => some (a,d)
  | read r k,d => (k (dev.read d r)).exec dev d
  | write r v k,d => k.exec dev (dev.write d r v)
  | spin r c k,d => if c (dev.read d r) then k.exec dev d else none

theorem exec_bind (dev : Device D R V) (p : RegProgram R V A) (f : A → RegProgram R V B) (d : D) :
    (p >>= f).exec dev d = (p.exec dev d).bind fun x => (f x.1).exec dev x.2 := by
  change (p.bind f).exec dev d = _
  induction p generalizing d with
  | ret a => rfl
  | read r k ih => exact ih (dev.read d r) d
  | write r v k ih => exact ih (dev.write d r v)
  | spin r c k ih =>
    simp only [RegProgram.bind,exec]
    split
    · exact ih d
    · rfl

/-- The program takes a step, or the device does. -/
inductive Step (dev : Device D R V) :
    RegProgram R V A × D → Bool → RegProgram R V A × D → Prop
  | read {r : R} {k : V → RegProgram R V A} {d : D} :
      Step dev (.read r k,d) true (k (dev.read d r),d)
  | write {r : R} {v : V} {k : RegProgram R V A} {d : D} :
      Step dev (.write r v k,d) true (k,dev.write d r v)
  | leave {r : R} {c : V → Bool} {k : RegProgram R V A} {d : D} : c (dev.read d r) = true →
      Step dev (.spin r c k,d) true (k,d)
  | stay {r : R} {c : V → Bool} {k : RegProgram R V A} {d : D} : c (dev.read d r) = false →
      Step dev (.spin r c k,d) true (.spin r c k,d)
  | own {p : RegProgram R V A} {d d' : D} : dev.own d d' → Step dev (p,d) false (p,d')

/-- The program started on a device in one of these states. -/
def system (dev : Device D R V) (init : D → Prop) (p : RegProgram R V A) :
    Runs.System (RegProgram R V A × D) Bool where
  init s := s.1 = p ∧ init s.2
  step := Step dev

end RegProgram

namespace Device

variable {D R V A B : Type} (dev : Device D R V)

/-- The device does not break the assertion. -/
def Stable (P : D → Prop) : Prop := ∀ d d', P d → dev.own d d' → P d'

/-- What the device may come to on its own. -/
def Owns : D → D → Prop := Relation.ReflTransGen dev.own

theorem Stable.owns {dev : Device D R V} {P : D → Prop} {d d' : D} (h : dev.Stable P) (hd : P d)
    (howns : dev.Owns d d') : P d' := by
  induction howns with
  | refl => exact hd
  | tail _ hown ih => exact h _ _ ih hown

end Device

namespace RegProgram

open Device

section

variable {D R V A B : Type} (dev : Device D R V) (ok : D → R → V → Prop)

/-- From states with `P` the program only makes writes that are `ok`, ends each of its loops if the
device lets it, and returns with `Q`. -/
inductive Proves (Q : A → D → Prop) : (D → Prop) → RegProgram R V A → Prop
  | ret {P : D → Prop} {a : A} : dev.Stable P → (∀ d, P d → Q a d) → Proves Q P (.ret a)
  | read {P : D → Prop} (P' : V → D → Prop) {r : R} {k : V → RegProgram R V A} : dev.Stable P →
      (∀ d, P d → P' (dev.read d r) d) → (∀ v, Proves Q (P' v) (k v)) → Proves Q P (.read r k)
  | write {P : D → Prop} (P' : D → Prop) {r : R} {v : V} {k : RegProgram R V A} : dev.Stable P →
      (∀ d, P d → ok d r v ∧ P' (dev.write d r v)) → Proves Q P' k → Proves Q P (.write r v k)
  | spin {P : D → Prop} (P' : D → Prop) {r : R} {c : V → Bool} {k : RegProgram R V A} :
      dev.Stable P → (∀ d, P d → c (dev.read d r) = true → P' d) →
      (∀ d, P d → ∃ d', dev.Owns d d' ∧ c (dev.read d' r) = true) → Proves Q P' k →
      Proves Q P (.spin r c k)

/-- The next access, if it is a write, is `ok`. -/
def WritesOk : RegProgram R V A × D → Prop
  | (.write r v _,d) => ok d r v
  | _ => True

end

namespace Proves

variable {D R V A B : Type} {dev : Device D R V} {ok : D → R → V → Prop} {Q : A → D → Prop}
  {P : D → Prop} {p : RegProgram R V A}

theorem stable (h : Proves dev ok Q P p) : dev.Stable P := by
  cases h <;> assumption

theorem weaken {P₀ : D → Prop} (h : Proves dev ok Q P p) (hstable : dev.Stable P₀)
    (himp : ∀ d, P₀ d → P d) : Proves dev ok Q P₀ p := by
  cases h with
  | ret _ hret => exact .ret hstable fun d hd => hret d (himp d hd)
  | read P' _ hread hk => exact .read P' hstable (fun d hd => hread d (himp d hd)) hk
  | write P' _ hwrite hk => exact .write P' hstable (fun d hd => hwrite d (himp d hd)) hk
  | spin P' _ hleave hends hk =>
    exact .spin P' hstable (fun d hd => hleave d (himp d hd)) (fun d hd => hends d (himp d hd)) hk

/-- From no state at all. -/
theorem ofFalse (p : RegProgram R V A) : Proves dev ok Q (fun _ => False) p := by
  have hstable : dev.Stable fun _ => False := fun _ _ hd _ => hd
  induction p with
  | ret a => exact .ret hstable fun _ hd => hd.elim
  | read r k ih => exact .read (fun _ _ => False) hstable (fun _ hd => hd.elim) ih
  | write r v k ih => exact .write (fun _ => False) hstable (fun _ hd => hd.elim) ih
  | spin r c k ih =>
    exact .spin (fun _ => False) hstable (fun _ hd => hd.elim) (fun _ hd => hd.elim) ih

/-- What was read may be known to the rest of the program. -/
theorem ofPure {φ : Prop} (hstable : dev.Stable P) (h : φ → Proves dev ok Q P p) :
    Proves dev ok Q (fun d => φ ∧ P d) p := by
  have hboth : dev.Stable fun d => φ ∧ P d := fun d d' hd hown => ⟨hd.1,hstable d d' hd.2 hown⟩
  by_cases hφ : φ
  · exact (h hφ).weaken hboth fun _ hd => hd.2
  · exact (ofFalse p).weaken hboth fun _ hd => hφ hd.1

theorem bind {Q' : B → D → Prop} {f : A → RegProgram R V B} (h : Proves dev ok Q P p)
    (hf : ∀ a, Proves dev ok Q' (Q a) (f a)) : Proves dev ok Q' P (p >>= f) := by
  induction h with
  | ret hstable hret => exact (hf _).weaken hstable hret
  | read P' hstable hread _ ih => exact .read P' hstable hread ih
  | write P' hstable hwrite _ ih => exact .write P' hstable hwrite ih
  | spin P' hstable hleave hends _ ih => exact .spin P' hstable hleave hends ih

/-- One step, of the program or of the device. -/
theorem step {d : D} {s : RegProgram R V A × D} {byProgram : Bool} (h : Proves dev ok Q P p)
    (hd : P d) (hstep : Step dev (p,d) byProgram s) : ∃ P', Proves dev ok Q P' s.1 ∧ P' s.2 := by
  cases hstep with
  | read =>
    cases h with
    | read P' _ hread hk => exact ⟨_,hk _,hread d hd⟩
  | write =>
    cases h with
    | write P' _ hwrite hk => exact ⟨P',hk,(hwrite d hd).2⟩
  | leave hc =>
    cases h with
    | spin P' _ hleave _ hk => exact ⟨P',hk,hleave d hd hc⟩
  | stay => exact ⟨P,h,hd⟩
  | own hown => exact ⟨P,h,h.stable d _ hd hown⟩

theorem reachable {s : RegProgram R V A × D} (h : Proves dev ok Q P p)
    (hs : (system dev P p).Reachable s) : ∃ P', Proves dev ok Q P' s.1 ∧ P' s.2 := by
  induction hs with
  | init hinit =>
    obtain ⟨hp,hd⟩ := hinit
    exact ⟨P,hp ▸ h,hd⟩
  | step _ hstep ih =>
    obtain ⟨P',hp,hd⟩ := ih
    exact hp.step hd hstep

/-- The program waits while the device goes on. -/
theorem run_owns {init : D → Prop} {p₀ : RegProgram R V A} {d d' : D} (h : dev.Owns d d') :
    (system dev init p₀).Run (p,d) (p,d') := by
  induction h with
  | refl => exact .refl
  | tail _ hown ih => exact ih.tail ⟨false,.own hown⟩

/-- The device can always go on so that the program returns. -/
theorem completes {init : D → Prop} {p₀ : RegProgram R V A} {d : D} (h : Proves dev ok Q P p)
    (hd : P d) : ∃ a d', (system dev init p₀).Run (p,d) (.ret a,d') := by
  induction h generalizing d with
  | ret => exact ⟨_,d,.refl⟩
  | read P' _ hread _ ih =>
    obtain ⟨a,d',hrun⟩ := ih _ (hread d hd)
    exact ⟨a,d',.head ⟨true,.read⟩ hrun⟩
  | write P' _ hwrite _ ih =>
    obtain ⟨a,d',hrun⟩ := ih (hwrite d hd).2
    exact ⟨a,d',.head ⟨true,.write⟩ hrun⟩
  | spin P' hstable hleave hends _ ih =>
    obtain ⟨d₁,howns,hc⟩ := hends d hd
    obtain ⟨a,d',hrun⟩ := ih (hleave d₁ (hstable.owns hd howns) hc)
    exact ⟨a,d',(run_owns howns).trans (.head ⟨true,.leave hc⟩ hrun)⟩

/-- In every interleaving: each write is `ok`, the program returns with `Q`, and it can return. -/
theorem correct {s : RegProgram R V A × D} (h : Proves dev ok Q P p)
    (hs : (system dev P p).Reachable s) :
    WritesOk ok s ∧ (∀ a d, s = (.ret a,d) → Q a d) ∧
      ∃ a d, (system dev P p).Run s (.ret a,d) := by
  obtain ⟨P',hp,hd⟩ := h.reachable hs
  obtain ⟨q,d⟩ := s
  refine ⟨?_,?_,hp.completes hd⟩
  · cases hp with
    | write P' _ hwrite _ => exact (hwrite _ hd).1
    | _ => trivial
  · intro a d' heq
    cases heq
    cases hp with
    | ret _ hret => exact hret d hd

end Proves
end RegProgram
end PolymorphOS
