import PolymorphOS.MdoPolicy

/-! What a policy script means: its instructions, decoded one after another, on a list of
values. The interpreter computes that, and it sees hashes only through equality. -/
namespace PolymorphOS
namespace MdoVm

/-- Where one instruction leads. -/
inductive Turn
  | goOn (stack : List Hash)
  | stop (result : Except UInt8 Unit)

/-- A decoded instruction on a stack of at most 32 values, the top one first. -/
def Instr.turn (ctx : MdoContext) : Instr → List Hash → Turn
  | .push t,stack => if stack.length < 32 then .goOn (t.eval ctx::stack) else .stop (.error 0xFD)
  | .eq,a::b::stack => .goOn (boolHash (a == b)::stack)
  | .neq,a::b::stack => .goOn (boolHash (a != b)::stack)
  | .assertOrDissonance code,val::stack =>
    if firstByte val = 0 then .stop (.error code) else .goOn stack
  | .haltOk,_ => .stop (.ok ())
  | _,_ => .stop (.error 0xFD)

/-- Decoding goes first: an instruction that is not complete fails whatever the stack. -/
def reference (ctx : MdoContext) (stack : List Hash) (code : List UInt8) : Except UInt8 Unit :=
  match _h : fetch code with
  | .error e => .error e
  | .ok (instr,rest) => match instr.turn ctx stack with
    | .goOn stack => reference ctx stack rest
    | .stop result => result
termination_by code.length
decreasing_by exact fetch_length _h

/-- The script gets to these bytes with this stack: every instruction before was complete
and did not fail. -/
inductive Reaches (ctx : MdoContext) (bytecode : List UInt8) : List Hash → List UInt8 → Prop
  | start : Reaches ctx bytecode [] bytecode
  | next {stack stack' : List Hash} {code rest : List UInt8} {instr : Instr} :
      Reaches ctx bytecode stack code → fetch code = .ok (instr,rest) →
      instr.turn ctx stack = .goOn stack' → Reaches ctx bytecode stack' rest

/-- The instruction at the head of these bytes fails with the code, or there is none. -/
def Fails (ctx : MdoContext) (stack : List Hash) (code : List UInt8) (e : UInt8) : Prop :=
  fetch code = .error e ∨
  ∃ instr rest, fetch code = .ok (instr,rest) ∧ instr.turn ctx stack = .stop (.error e)

section Equations

variable {ctx : MdoContext} {stack stack' : List Hash} {code rest : List UInt8} {instr : Instr}

theorem reference_error {e : UInt8} (h : fetch code = .error e) :
    reference ctx stack code = .error e := by
  rw [reference]
  split <;> simp_all

theorem reference_goOn (h : fetch code = .ok (instr,rest)) (ht : instr.turn ctx stack = .goOn stack') :
    reference ctx stack code = reference ctx stack' rest := by
  rw [reference]
  split <;> simp_all

theorem reference_stop {r : Except UInt8 Unit} (h : fetch code = .ok (instr,rest))
    (ht : instr.turn ctx stack = .stop r) : reference ctx stack code = r := by
  rw [reference]
  split <;> simp_all

/-- Only `HALT_OK` accepts. -/
theorem Instr.turn_ok_iff : instr.turn ctx stack = .stop (.ok ()) ↔ instr = .haltOk := by
  constructor
  · intro h
    unfold Instr.turn at h
    split at h <;> first | rfl | cases h | (split at h <;> cases h)
  · rintro rfl
    rfl

end Equations

/-- The machine's stack and the list it stands for take the same turn. -/
theorem flow_turn (ctx : MdoContext) (stack : MictStack) (pc : ℕ) (instr : Instr) :
    match instr.turn ctx stack.toList with
    | .goOn l => ∃ s', instr.flow ctx stack pc = .next s' pc ∧ s'.toList = l
    | .stop r => instr.flow ctx stack pc = .halt r := by
  cases instr with
  | push t =>
    simp only [Instr.turn,MictStack.length_toList]
    by_cases hroom : stack.ptr < 32
    · obtain ⟨s',hpush,hs'⟩ := MictStack.push_ok (t.eval ctx) hroom
      rw [if_pos hroom]
      refine ⟨s',?_,hs'⟩
      simp only [Instr.flow,hpush,onStack]
    · rw [if_neg hroom]
      simp only [Instr.flow,MictStack.push_full _ hroom,onStack]
  | eq =>
    have hc := compare_flow stack (· == ·) pc
    rcases hl : stack.toList with _ | ⟨a,_ | ⟨b,rest⟩⟩
    all_goals rw [hl] at hc
    · exact hc
    · exact hc
    · exact hc
  | neq =>
    have hc := compare_flow stack (· != ·) pc
    rcases hl : stack.toList with _ | ⟨a,_ | ⟨b,rest⟩⟩
    all_goals rw [hl] at hc
    · exact hc
    · exact hc
    · exact hc
  | assertOrDissonance code =>
    cases hl : stack.toList with
    | nil =>
      simp only [Instr.turn,Instr.flow,MictStack.popBool,MictStack.pop_nil hl,bind,Except.bind,onStack]
    | cons val rest =>
      obtain ⟨s',hpop,hs'⟩ := MictStack.pop_cons hl
      have hflow : Instr.flow ctx stack pc (.assertOrDissonance code) =
          if firstByte val = 0 then .halt (.error code) else .next s' pc := by
        simp only [Instr.flow,MictStack.popBool,hpop,bind,Except.bind,pure,Except.pure,onStack]
        by_cases hz : firstByte val = 0 <;> simp [hz]
      simp only [Instr.turn]
      by_cases hz : firstByte val = 0
      · rw [if_pos hz] at hflow ⊢
        exact hflow
      · rw [if_neg hz] at hflow ⊢
        exact ⟨s',hflow,hs'⟩
  | haltOk => rfl

theorem run_eq_reference (bytecode : List UInt8) (ctx : MdoContext) (stack : MictStack) (pc : ℕ) :
    run bytecode ctx stack pc = reference ctx stack.toList (bytecode.drop pc) := by
  induction hn : bytecode.length - pc using Nat.strong_induction_on generalizing stack pc with
  | _ n ih =>
  subst hn
  by_cases h : pc < bytecode.length
  swap
  · have hnil : fetch (bytecode.drop pc) = .error 0xFB := by
      rw [List.drop_eq_nil_of_le (by omega),fetch]
    rw [run,dif_neg h,reference_error hnil]
  have hf := step_fetch bytecode ctx stack pc h
  cases he : fetch (bytecode.drop pc) with
  | error e =>
    rw [he] at hf
    rw [run_halt hf,reference_error he]
  | ok fetched =>
    obtain ⟨instr,rest⟩ := fetched
    rw [he] at hf
    obtain ⟨pc',hdrop,hstep⟩ := hf
    have hturn := flow_turn ctx stack pc' instr
    cases ht : instr.turn ctx stack.toList with
    | goOn l =>
      rw [ht] at hturn
      obtain ⟨s',hflow,hs'⟩ := hturn
      have hnext := hstep.trans hflow
      have hlt := step_pc_lt hnext
      rw [run_next hnext,ih _ (by omega) s' pc' rfl,hs',hdrop,reference_goOn he ht]
    | stop r =>
      rw [ht] at hturn
      rw [run_halt (hstep.trans hturn),reference_stop he ht]

theorem executeMictCheck_eq_reference (bytecode : List UInt8) (ctx : MdoContext) :
    executeMictCheck bytecode ctx = reference ctx [] bytecode :=
  run_eq_reference bytecode ctx .new 0

namespace Reaches

variable {ctx : MdoContext} {bytecode code : List UInt8} {stack : List Hash}

/-- Getting somewhere does not change the result. -/
theorem reference_eq (h : Reaches ctx bytecode stack code) :
    reference ctx [] bytecode = reference ctx stack code := by
  induction h with
  | start => rfl
  | next _ hf ht ih => rw [ih,reference_goOn hf ht]

theorem length_le (h : Reaches ctx bytecode stack code) : code.length ≤ bytecode.length := by
  induction h with
  | start => exact le_rfl
  | next _ hf _ ih => exact (fetch_length hf).le.trans ih

/-- Every script comes to an instruction that decides. -/
theorem exists_stop (h : Reaches ctx bytecode stack code) :
    ∃ stack' code', Reaches ctx bytecode stack' code' ∧
      ((∃ rest, fetch code' = .ok (.haltOk,rest)) ∨ ∃ e, Fails ctx stack' code' e) := by
  induction hn : code.length using Nat.strong_induction_on generalizing stack code with
  | _ n ih =>
  subst hn
  cases hf : fetch code with
  | error e => exact ⟨stack,code,h,.inr ⟨e,.inl hf⟩⟩
  | ok fetched =>
    obtain ⟨instr,rest⟩ := fetched
    cases ht : instr.turn ctx stack with
    | goOn stack' => exact ih _ (fetch_length hf) (h.next hf ht) rfl
    | stop r =>
      match r,ht with
      | .ok (),ht =>
        rw [Instr.turn_ok_iff.mp ht] at hf
        exact ⟨stack,code,h,.inl ⟨rest,hf⟩⟩
      | .error e,ht => exact ⟨stack,code,h,.inr ⟨e,.inr ⟨instr,rest,hf,ht⟩⟩⟩

theorem reference_halt {rest : List UInt8} (h : Reaches ctx bytecode stack code)
    (hf : fetch code = .ok (.haltOk,rest)) : reference ctx [] bytecode = .ok () := by
  rw [h.reference_eq]
  exact reference_stop hf rfl

theorem reference_fails {e : UInt8} (h : Reaches ctx bytecode stack code)
    (hf : Fails ctx stack code e) : reference ctx [] bytecode = .error e := by
  rw [h.reference_eq]
  rcases hf with hf | ⟨instr,rest,hf,ht⟩
  · exact reference_error hf
  · exact reference_stop hf ht

end Reaches

/-- The interpreter is the reference: it accepts exactly when a `HALT_OK` is reached, and
otherwise rejects with the code of the first instruction that fails. -/
theorem executeMictCheck_reference (bytecode : List UInt8) (ctx : MdoContext) :
    executeMictCheck bytecode ctx = reference ctx [] bytecode ∧
    (executeMictCheck bytecode ctx = .ok () ↔ ∃ stack code rest,
      Reaches ctx bytecode stack code ∧ fetch code = .ok (.haltOk,rest)) ∧
    ∀ e, executeMictCheck bytecode ctx = .error e ↔ ∃ stack code,
      Reaches ctx bytecode stack code ∧ Fails ctx stack code e := by
  obtain ⟨stack',code',hr,hstop⟩ := Reaches.exists_stop (.start : Reaches ctx bytecode [] bytecode)
  rw [executeMictCheck_eq_reference]
  refine ⟨rfl,⟨fun h => ?_,?_⟩,fun e => ⟨fun h => ?_,?_⟩⟩
  · rcases hstop with ⟨rest,hf⟩ | ⟨e,hf⟩
    · exact ⟨stack',code',rest,hr,hf⟩
    · rw [hr.reference_fails hf] at h
      cases h
  · rintro ⟨stack,code,rest,hreach,hf⟩
    exact hreach.reference_halt hf
  · rcases hstop with ⟨rest,hf⟩ | ⟨e',hf⟩
    · rw [hr.reference_halt hf] at h
      cases h
    · rw [hr.reference_fails hf] at h
      cases h
      exact ⟨stack',code',hr,hf⟩
  · rintro ⟨stack,code,hreach,hf⟩
    exact hreach.reference_fails hf

/-- The constants that a script can come to push, whatever the context. -/
def Pushes (bytecode : List UInt8) (h : Hash) : Prop :=
  ∃ ctx stack code rest, Reaches ctx bytecode stack code ∧
    fetch code = .ok (.push (.const h),rest) ∧ stack.length < 32

/-- A renaming of hashes that takes one context to another and leaves the script's own
values, and what `ASSERT_OR_DISSONANCE` looks at, as they are. -/
structure Renames (f : Hash → Hash) (bytecode : List UInt8) (c₁ c₂ : MdoContext) : Prop where
  injective : Function.Injective f
  var : ∀ id : VarId, f (id.value c₁) = id.value c₂
  const : ∀ h, Pushes bytecode h → f h = h
  bool : ∀ b, f (boolHash b) = boolHash b
  zero : ∀ h, firstByte (f h) = 0 ↔ firstByte h = 0

/-- Scripts push variables and constants only. -/
theorem fetch_push {code rest : List UInt8} {t : Term} (h : fetch code = .ok (.push t,rest)) :
    (∃ id, t = .var id) ∨ ∃ val, t = .const val := by
  cases code with
  | nil => cases h
  | cons op code =>
    simp only [fetch] at h
    split_ifs at h
    · split at h
      · cases h
      · split at h
        · cases h
        · cases h
          exact .inl ⟨_,rfl⟩
    · cases h
      exact .inr ⟨_,rfl⟩
    · cases h
    · cases h
    · split at h <;> cases h
    · cases h

/-- A constant takes 33 bytes. -/
theorem not_pushes_of_short {bytecode : List UInt8} (h : bytecode.length < 33) (val : Hash) :
    ¬Pushes bytecode val := by
  rintro ⟨ctx,stack,code,rest,hr,hf,_⟩
  have hle := hr.length_le
  cases code with
  | nil => cases hf
  | cons op code =>
    rw [List.length_cons] at hle
    simp only [fetch] at hf
    split_ifs at hf
    · split at hf
      · cases hf
      · split at hf <;> cases hf
    · omega
    · cases hf
    · cases hf
    · split at hf <;> cases hf
    · cases hf

namespace Renames

variable {f : Hash → Hash} {bytecode code rest : List UInt8} {c₁ c₂ : MdoContext}
  {stack : List Hash} {instr : Instr}

theorem beq (h : Renames f bytecode c₁ c₂) (a b : Hash) : (f a == f b) = (a == b) := by
  rw [Bool.eq_iff_iff,beq_iff_eq,beq_iff_eq]
  exact h.injective.eq_iff

/-- What a `PUSH` pushes is renamed. -/
theorem eval (h : Renames f bytecode c₁ c₂) {t : Term} (hr : Reaches c₁ bytecode stack code)
    (hf : fetch code = .ok (.push t,rest)) (hroom : stack.length < 32) :
    t.eval c₂ = f (t.eval c₁) := by
  rcases fetch_push hf with ⟨id,rfl⟩ | ⟨val,rfl⟩
  · exact (h.var id).symm
  · exact (h.const val ⟨c₁,stack,code,rest,hr,hf,hroom⟩).symm

/-- Renamed stacks take renamed turns. -/
theorem turn (h : Renames f bytecode c₁ c₂) (hr : Reaches c₁ bytecode stack code)
    (hf : fetch code = .ok (instr,rest)) : instr.turn c₂ (stack.map f) =
      match instr.turn c₁ stack with
      | .goOn l => .goOn (l.map f)
      | .stop r => .stop r := by
  cases instr with
  | push t =>
    simp only [Instr.turn,List.length_map]
    by_cases hroom : stack.length < 32
    · rw [if_pos hroom,if_pos hroom,h.eval hr hf hroom]
      rfl
    · rw [if_neg hroom,if_neg hroom]
  | eq =>
    match stack with
    | [] => rfl
    | [_] => rfl
    | a::b::stack => simp only [Instr.turn,List.map_cons,h.beq,h.bool]
  | neq =>
    match stack with
    | [] => rfl
    | [_] => rfl
    | a::b::stack => simp only [Instr.turn,List.map_cons,bne,h.beq,h.bool]
  | assertOrDissonance code =>
    match stack with
    | [] => rfl
    | val::stack =>
      simp only [Instr.turn,List.map_cons,h.zero]
      by_cases hz : firstByte val = 0
      · rw [if_pos hz,if_pos hz]
      · rw [if_neg hz,if_neg hz]
  | haltOk => rfl

theorem reference_map (h : Renames f bytecode c₁ c₂) (hr : Reaches c₁ bytecode stack code) :
    reference c₁ stack code = reference c₂ (stack.map f) code := by
  induction hn : code.length using Nat.strong_induction_on generalizing stack code with
  | _ n ih =>
  subst hn
  cases hf : fetch code with
  | error e => rw [reference_error hf,reference_error hf]
  | ok fetched =>
    obtain ⟨instr,rest⟩ := fetched
    have hturn := h.turn hr hf
    cases ht : instr.turn c₁ stack with
    | goOn stack' =>
      rw [ht] at hturn
      rw [reference_goOn hf ht,reference_goOn hf hturn]
      exact ih _ (fetch_length hf) (hr.next hf ht) rfl
    | stop r =>
      rw [ht] at hturn
      rw [reference_stop hf ht,reference_stop hf hturn]

end Renames

/-- Hashes matter through equality only. -/
theorem executeMictCheck_renamed {f : Hash → Hash} {bytecode : List UInt8} {c₁ c₂ : MdoContext}
    (h : Renames f bytecode c₁ c₂) : executeMictCheck bytecode c₁ = executeMictCheck bytecode c₂ := by
  rw [executeMictCheck_eq_reference,executeMictCheck_eq_reference]
  exact h.reference_map .start

/-- The owner asks for the file, under one hash or another. -/
theorem executeMictCheck_renamed_owner :
    executeMictCheck [0x10,0x01,0x10,0x03,0x20,0x30,0x42,0x3F]
      ⟨⟨List.replicate 32 0xAA,rfl⟩,zeroHash,⟨List.replicate 32 0xAA,rfl⟩,0⟩ =
    executeMictCheck [0x10,0x01,0x10,0x03,0x20,0x30,0x42,0x3F]
      ⟨⟨List.replicate 32 0xBB,rfl⟩,zeroHash,⟨List.replicate 32 0xBB,rfl⟩,0⟩ := by
  let a : Hash := ⟨List.replicate 32 0xAA,rfl⟩
  let b : Hash := ⟨List.replicate 32 0xBB,rfl⟩
  apply executeMictCheck_renamed (f := Equiv.swap a b)
  refine ⟨(Equiv.swap a b).injective,?_,fun val hp => ?_,by decide,fun val => ?_⟩
  · rintro (_ | _ | _ | _)
    · exact Equiv.swap_apply_left a b
    · exact Equiv.swap_apply_of_ne_of_ne (by decide) (by decide)
    · exact Equiv.swap_apply_left a b
    · exact Equiv.swap_apply_of_ne_of_ne (by decide) (by decide)
  · exact absurd hp (not_pushes_of_short (by decide) val)
  · rw [Equiv.swap_apply_def]
    split_ifs with ha hb
    · rw [ha]
      decide
    · rw [hb]
      decide
    · rfl

end MdoVm
end PolymorphOS
