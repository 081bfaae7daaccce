import PolymorphOS.MdoVm

/-! Policies read off the bytecode. The machine has no jumps, so a script is a list of
clauses over the context's variables, each with the code it fails with, and the verdict
it reaches when all of them hold. -/
namespace PolymorphOS
namespace MdoVm

inductive VarId
  | requestor | action | owner | status
  deriving DecidableEq

def VarId.ofByte (b : UInt8) : Option VarId :=
  if b = varRequestorId then some .requestor
  else if b = varAction then some .action
  else if b = varOwnerId then some .owner
  else if b = varStatus then some .status
  else none

def VarId.value (ctx : MdoContext) : VarId → Hash
  | .requestor => ctx.requestorIdHash
  | .action => ctx.actionHash
  | .owner => ctx.ownerIdHash
  | .status => statusHash ctx.status

theorem readVar_eq (ctx : MdoContext) (b : UInt8) :
    readVar ctx b = (VarId.ofByte b).map (VarId.value ctx) := by
  unfold readVar VarId.ofByte
  split_ifs <;> rfl

/-- What a stack cell holds, as a function of the context. -/
inductive Term
  | var (id : VarId)
  | const (h : Hash)
  | eq (a b : Term)
  | neq (a b : Term)

def Term.eval (ctx : MdoContext) : Term → Hash
  | .var id => id.value ctx
  | .const h => h
  | .eq a b => boolHash (a.eval ctx == b.eval ctx)
  | .neq a b => boolHash (a.eval ctx != b.eval ctx)

/-- An assertion and the code it rejects with. -/
structure Clause where
  condition : Term
  code : UInt8

def Clause.holds (ctx : MdoContext) (c : Clause) : Bool :=
  firstByte (c.condition.eval ctx) != 0

inductive Instr
  | push (t : Term)
  | eq
  | neq
  | assertOrDissonance (code : UInt8)
  | haltOk

/-- The instruction at the head of the bytecode and the bytes after it. -/
def fetch : List UInt8 → Except UInt8 (Instr × List UInt8)
  | [] => .error 0xFB
  | op::rest =>
    if op = opPushVar then
      match rest with
      | [] => .error 0xFF
      | b::rest => match VarId.ofByte b with
        | none => .error 0xFE
        | some id => .ok (.push (.var id),rest)
    else if op = opPushConstHash then
      if h : 32 ≤ rest.length then .ok (.push (.const ⟨rest.take 32,by simp; omega⟩),rest.drop 32)
      else .error 0xFF
    else if op = opEq then .ok (.eq,rest)
    else if op = opNeq then .ok (.neq,rest)
    else if op = opAssertOrDissonance then
      match rest with
      | [] => .error 0xFF
      | code::rest => .ok (.assertOrDissonance code,rest)
    else if op = opHaltOk then .ok (.haltOk,rest)
    else .error 0xFC

theorem fetch_length {code rest : List UInt8} {instr : Instr} (h : fetch code = .ok (instr,rest)) :
    rest.length < code.length := by
  cases code with
  | nil => cases h
  | cons op code =>
    simp only [fetch] at h
    split_ifs at h
    all_goals try split at h
    all_goals try split at h
    all_goals cases h
    all_goals simp

/-- The clauses of a script, first to last, and its verdict once they all hold. -/
abbrev Policy := List Clause × Except UInt8 Unit

def policy (stack : List Term) (code : List UInt8) : Policy :=
  match _h : fetch code with
  | .error e => ([],.error e)
  | .ok (.push t,rest) => if stack.length < 32 then policy (t::stack) rest else ([],.error 0xFD)
  | .ok (.eq,rest) => match stack with
    | a::b::stack => policy (.eq a b::stack) rest
    | _ => ([],.error 0xFD)
  | .ok (.neq,rest) => match stack with
    | a::b::stack => policy (.neq a b::stack) rest
    | _ => ([],.error 0xFD)
  | .ok (.assertOrDissonance e,rest) => match stack with
    | c::stack =>
      let p := policy stack rest
      (⟨c,e⟩::p.1,p.2)
    | [] => ([],.error 0xFD)
  | .ok (.haltOk,_) => ([],.ok ())
termination_by code.length
decreasing_by all_goals exact fetch_length _h

/-- The first clause that fails decides; otherwise the script's own verdict does. -/
def Policy.verdict (ctx : MdoContext) (p : Policy) : Except UInt8 Unit :=
  match p.1.find? fun c => !c.holds ctx with
  | some c => .error c.code
  | none => p.2

/-- What the machine does with a fetched instruction; `pc` is the address after it. -/
def Instr.flow (ctx : MdoContext) (stack : MictStack) (pc : ℕ) : Instr → Flow
  | .push t => onStack (stack.push (t.eval ctx)) fun stack => .next stack pc
  | .eq => onStack stack.pop fun (a,stack) => onStack stack.pop fun (b,stack) =>
      onStack (stack.pushBool (a == b)) fun stack => .next stack pc
  | .neq => onStack stack.pop fun (a,stack) => onStack stack.pop fun (b,stack) =>
      onStack (stack.pushBool (a != b)) fun stack => .next stack pc
  | .assertOrDissonance code => onStack stack.popBool fun (condition,stack) =>
      if !condition then .halt (.error code) else .next stack pc
  | .haltOk => .halt (.ok ())

/-- One turn of the loop is one fetched instruction. -/
theorem step_fetch (bytecode : List UInt8) (ctx : MdoContext) (stack : MictStack) (pc : ℕ)
    (h : pc < bytecode.length) :
    match fetch (bytecode.drop pc) with
    | .error e => step bytecode ctx stack pc h = .halt (.error e)
    | .ok (instr,rest) => ∃ pc', bytecode.drop pc' = rest ∧
        step bytecode ctx stack pc h = instr.flow ctx stack pc' := by
  rw [List.drop_eq_getElem_cons h]
  simp only [fetch,step]
  by_cases hvar : bytecode[pc] = opPushVar
  · simp only [if_pos hvar]
    by_cases h₁ : pc + 1 < bytecode.length
    · rw [List.drop_eq_getElem_cons h₁]
      simp only [dif_pos h₁,readVar_eq]
      cases VarId.ofByte bytecode[pc + 1] with
      | none => rfl
      | some id => exact ⟨pc + 2,rfl,rfl⟩
    · rw [List.drop_eq_nil_of_le (by omega)]
      simp only [dif_neg h₁]
  simp only [if_neg hvar]
  by_cases hconst : bytecode[pc] = opPushConstHash
  · simp only [if_pos hconst,List.length_drop]
    by_cases h₁ : pc + 32 < bytecode.length
    · simp only [dif_pos h₁,dif_pos (show 32 ≤ bytecode.length - (pc + 1) by omega)]
      exact ⟨pc + 33,by simp [List.drop_drop,Nat.add_assoc],rfl⟩
    · simp only [dif_neg h₁,dif_neg (show ¬32 ≤ bytecode.length - (pc + 1) by omega)]
  simp only [if_neg hconst]
  by_cases heq : bytecode[pc] = opEq
  · simp only [if_pos heq]
    exact ⟨pc + 1,rfl,rfl⟩
  simp only [if_neg heq]
  by_cases hneq : bytecode[pc] = opNeq
  · simp only [if_pos hneq]
    exact ⟨pc + 1,rfl,rfl⟩
  simp only [if_neg hneq]
  by_cases hassert : bytecode[pc] = opAssertOrDissonance
  · simp only [if_pos hassert]
    by_cases h₁ : pc + 1 < bytecode.length
    · rw [List.drop_eq_getElem_cons h₁]
      simp only [dif_pos h₁]
      exact ⟨pc + 2,rfl,rfl⟩
    · rw [List.drop_eq_nil_of_le (by omega)]
      simp only [dif_neg h₁]
  simp only [if_neg hassert]
  by_cases hhalt : bytecode[pc] = opHaltOk
  · simp only [if_pos hhalt]
    exact ⟨pc + 1,rfl,rfl⟩
  · simp only [if_neg hhalt]

/-- Popping two values and pushing a comparison of them. -/
theorem compare_flow (stack : MictStack) (f : Hash → Hash → Bool) (pc : ℕ) :
    let flow := onStack stack.pop fun (a,stack) => onStack stack.pop fun (b,stack) =>
      onStack (stack.pushBool (f a b)) fun stack => Flow.next stack pc
    match stack.toList with
    | a::b::rest => ∃ s', flow = .next s' pc ∧ s'.toList = boolHash (f a b)::rest
    | _ => flow = .halt (.error 0xFD) := by
  cases hl : stack.toList with
  | nil => simp only [MictStack.pop_nil hl,onStack]
  | cons a tail =>
    obtain ⟨s₁,h₁,ht₁⟩ := MictStack.pop_cons hl
    cases tail with
    | nil => simp only [h₁,onStack,MictStack.pop_nil ht₁]
    | cons b rest =>
      obtain ⟨s₂,h₂,ht₂⟩ := MictStack.pop_cons ht₁
      have hroom : s₂.ptr < 32 := by
        have hle := stack.ptr_le
        rw [← stack.length_toList,hl] at hle
        rw [← s₂.length_toList,ht₂]
        simp only [List.length_cons] at hle
        omega
      obtain ⟨s₃,h₃,ht₃⟩ := MictStack.push_ok (boolHash (f a b)) hroom
      refine ⟨s₃,?_,by rw [ht₃,ht₂]⟩
      simp only [h₁,onStack,h₂,MictStack.pushBool,h₃]

theorem verdict_nil (ctx : MdoContext) (r : Except UInt8 Unit) : Policy.verdict ctx ([],r) = r := rfl

theorem verdict_cons (ctx : MdoContext) (c : Clause) (p : Policy) :
    Policy.verdict ctx (c::p.1,p.2) = if c.holds ctx then p.verdict ctx else .error c.code := by
  cases hc : c.holds ctx <;> simp [Policy.verdict,hc]

/-- A comparison on the stack and the same comparison of terms. -/
theorem compare_verdict {ctx : MdoContext} {stack : MictStack} {terms : List Term}
    (f : Hash → Hash → Bool) (op : Term → Term → Term)
    (hop : ∀ a b, (op a b).eval ctx = boolHash (f (a.eval ctx) (b.eval ctx))) (rest : List UInt8)
    (pc : ℕ) :
    let flow := onStack stack.pop fun (a,stack) => onStack stack.pop fun (b,stack) =>
      onStack (stack.pushBool (f a b)) fun stack => Flow.next stack pc
    let p : Policy := match terms with
      | a::b::terms => policy (op a b::terms) rest
      | _ => ([],.error 0xFD)
    stack.toList = terms.map (Term.eval ctx) →
      (∃ s' terms', flow = .next s' pc ∧ s'.toList = terms'.map (Term.eval ctx) ∧
        p.verdict ctx = (policy terms' rest).verdict ctx) ∨ flow = .halt (p.verdict ctx) := by
  have hc := compare_flow stack f pc
  match terms with
  | [] =>
    intro flow p hs
    rw [hs] at hc
    exact .inr hc
  | [_] =>
    intro flow p hs
    rw [hs] at hc
    exact .inr hc
  | a::b::terms' =>
    intro flow p hs
    rw [hs] at hc
    obtain ⟨s',hflow,hs'⟩ := hc
    refine .inl ⟨s',op a b::terms',hflow,?_,rfl⟩
    rw [hs',List.map_cons,hop]

/-- Whatever an instruction does to the stack, the policy of the bytes from it on does to
the terms: the script goes on with both, or halts with the policy's verdict. -/
theorem flow_verdict {ctx : MdoContext} {stack : MictStack} {terms : List Term}
    {code rest : List UInt8} {instr : Instr} (hs : stack.toList = terms.map (Term.eval ctx))
    (hf : fetch code = .ok (instr,rest)) (pc : ℕ) :
    (∃ s' terms', instr.flow ctx stack pc = .next s' pc ∧ s'.toList = terms'.map (Term.eval ctx) ∧
      (policy terms code).verdict ctx = (policy terms' rest).verdict ctx) ∨
    instr.flow ctx stack pc = .halt ((policy terms code).verdict ctx) := by
  rw [policy]
  split
  all_goals
    rename_i he
    rw [hf] at he
    cases he
  · rename_i t
    have hlen : terms.length = stack.ptr := by
      rw [← stack.length_toList,hs,List.length_map]
    by_cases hroom : stack.ptr < 32
    · obtain ⟨s',hpush,hs'⟩ := MictStack.push_ok (t.eval ctx) hroom
      rw [if_pos (hlen ▸ hroom)]
      refine .inl ⟨s',t::terms,?_,by rw [hs',hs,List.map_cons],rfl⟩
      simp only [Instr.flow,hpush,onStack]
    · rw [if_neg (hlen ▸ hroom)]
      right
      simp only [Instr.flow,MictStack.push_full _ hroom,onStack,verdict_nil]
  · exact compare_verdict (· == ·) .eq (fun _ _ => rfl) rest pc hs
  · exact compare_verdict (· != ·) .neq (fun _ _ => rfl) rest pc hs
  · rename_i e
    match terms with
    | [] =>
      right
      simp only [Instr.flow,MictStack.popBool,MictStack.pop_nil hs,onStack,bind,Except.bind,verdict_nil]
    | c::terms' =>
      obtain ⟨s',hpop,hs'⟩ := MictStack.pop_cons hs
      have hflow : Instr.flow ctx stack pc (.assertOrDissonance e) =
          if Clause.holds ctx ⟨c,e⟩ then .next s' pc else .halt (.error e) := by
        have hb : stack.popBool = .ok (Clause.holds ctx ⟨c,e⟩,s') := by
          rw [MictStack.popBool,hpop]
          rfl
        simp only [Instr.flow,hb,onStack]
        cases Clause.holds ctx ⟨c,e⟩ <;> rfl
      rw [hflow]
      simp only [verdict_cons]
      cases Clause.holds ctx ⟨c,e⟩ with
      | false => exact .inr rfl
      | true => exact .inl ⟨s',terms',rfl,hs',rfl⟩
  · exact .inr rfl

/-- The interpreter computes the verdict of the script's policy. -/
theorem run_eq_verdict (bytecode : List UInt8) (ctx : MdoContext) (stack : MictStack) (pc : ℕ)
    (terms : List Term) (hs : stack.toList = terms.map (Term.eval ctx)) :
    run bytecode ctx stack pc = (policy terms (bytecode.drop pc)).verdict ctx := by
  induction hn : bytecode.length - pc using Nat.strong_induction_on generalizing stack pc terms with
  | _ n ih =>
  subst hn
  by_cases h : pc < bytecode.length
  swap
  · rw [run,dif_neg h,List.drop_eq_nil_of_le (by omega),policy]
    rfl
  have hf := step_fetch bytecode ctx stack pc h
  cases he : fetch (bytecode.drop pc) with
  | error e =>
    rw [he] at hf
    rw [run_halt hf,policy]
    split
    all_goals
      rename_i he'
      rw [he] at he'
      cases he'
    rfl
  | ok fetched =>
    obtain ⟨instr,rest⟩ := fetched
    rw [he] at hf
    obtain ⟨pc',hdrop,hstep⟩ := hf
    obtain ⟨s',terms',hflow,hs',hverdict⟩ | hhalt := flow_verdict hs he pc'
    · have hnext := hstep.trans hflow
      have hlt := step_pc_lt hnext
      rw [run_next hnext,ih _ (by omega) s' pc' terms' hs' rfl,hverdict,hdrop]
    · exact run_halt (hstep.trans hhalt)

theorem executeMictCheck_eq (bytecode : List UInt8) (ctx : MdoContext) :
    executeMictCheck bytecode ctx = (policy [] bytecode).verdict ctx :=
  run_eq_verdict bytecode ctx .new 0 [] MictStack.toList_new

theorem Policy.verdict_ok_iff (ctx : MdoContext) (p : Policy) :
    p.verdict ctx = .ok () ↔ p.2 = .ok () ∧ ∀ c ∈ p.1, c.holds ctx = true := by
  unfold Policy.verdict
  cases hf : p.1.find? fun c => !c.holds ctx with
  | none =>
    rw [List.find?_eq_none] at hf
    simpa using fun _ c hc => by simpa using hf c hc
  | some c =>
    have hc := List.find?_some hf
    simp only [Bool.not_eq_true'] at hc
    simp only [reduceCtorEq,false_iff]
    intro h
    rw [h.2 c (List.mem_of_find?_eq_some hf)] at hc
    cases hc

/-- The term mentions the owner or the status, which MDO_VM.md takes from the file header. -/
def Term.readsHeader : Term → Bool
  | .var .owner => true
  | .var .status => true
  | .var _ => false
  | .const _ => false
  | .eq a b => a.readsHeader || b.readsHeader
  | .neq a b => a.readsHeader || b.readsHeader

/-- The contexts differ at most in the owner and the status. -/
def SameRequest (ctx ctx' : MdoContext) : Prop :=
  ctx.requestorIdHash = ctx'.requestorIdHash ∧ ctx.actionHash = ctx'.actionHash

theorem Term.eval_congr {ctx ctx' : MdoContext} (h : SameRequest ctx ctx') {t : Term}
    (ht : t.readsHeader = false) : t.eval ctx = t.eval ctx' := by
  induction t with
  | var id =>
    cases id with
    | requestor => exact h.1
    | action => exact h.2
    | owner => cases ht
    | status => cases ht
  | const c => rfl
  | eq a b iha ihb =>
    rw [Term.readsHeader,Bool.or_eq_false_iff] at ht
    rw [Term.eval,iha ht.1,ihb ht.2,Term.eval]
  | neq a b iha ihb =>
    rw [Term.readsHeader,Bool.or_eq_false_iff] at ht
    rw [Term.eval,iha ht.1,ihb ht.2,Term.eval]

/-- What makes a policy blind to the difference between two contexts: its script does not
end well, a clause on the request alone fails, or the clauses on the header variables all
hold in the one context exactly when they all hold in the other. -/
def Policy.Insensitive (p : Policy) (ctx ctx' : MdoContext) : Prop :=
  p.2 ≠ .ok () ∨ (∃ c ∈ p.1, c.condition.readsHeader = false ∧ c.holds ctx = false) ∨
  ((∀ c ∈ p.1, c.condition.readsHeader = true → c.holds ctx = true) ↔
    ∀ c ∈ p.1, c.condition.readsHeader = true → c.holds ctx' = true)

theorem Policy.same_verdict_iff (p : Policy) {ctx ctx' : MdoContext} (h : SameRequest ctx ctx') :
    (p.verdict ctx = .ok () ↔ p.verdict ctx' = .ok ()) ↔ p.Insensitive ctx ctx' := by
  have hsame : ∀ c : Clause, c.condition.readsHeader = false → c.holds ctx' = c.holds ctx :=
    fun c hc => by rw [Clause.holds,Clause.holds,Term.eval_congr h hc]
  have hsplit : ∀ x : MdoContext, (∀ c ∈ p.1, c.holds x = true) ↔
      (∀ c ∈ p.1, c.condition.readsHeader = false → c.holds x = true) ∧
      ∀ c ∈ p.1, c.condition.readsHeader = true → c.holds x = true := by
    intro x
    refine ⟨fun hx => ⟨fun c hc _ => hx c hc,fun c hc _ => hx c hc⟩,fun hx c hc => ?_⟩
    cases hr : c.condition.readsHeader with
    | false => exact hx.1 c hc hr
    | true => exact hx.2 c hc hr
  rw [verdict_ok_iff,verdict_ok_iff,hsplit ctx,hsplit ctx',Insensitive]
  have hfree : (∀ c ∈ p.1, c.condition.readsHeader = false → c.holds ctx' = true) ↔
      ∀ c ∈ p.1, c.condition.readsHeader = false → c.holds ctx = true :=
    forall₂_congr fun c _ => forall_congr' fun hr => by rw [hsame c hr]
  have hfail : (∃ c ∈ p.1, c.condition.readsHeader = false ∧ c.holds ctx = false) ↔
      ¬∀ c ∈ p.1, c.condition.readsHeader = false → c.holds ctx = true := by
    simp
  rw [hfree,hfail]
  tauto

end MdoVm
end PolymorphOS
