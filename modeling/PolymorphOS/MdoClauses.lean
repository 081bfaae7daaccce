import PolymorphOS.MdoReference

/-! The translation of MDO_VM.md, section 3: a clause compares two operands and asserts the
outcome, a policy is one clause after another and then `HALT_OK`. -/
namespace PolymorphOS
namespace MdoVm

/-- What a clause compares: a variable of the context, or a hash. -/
inductive Operand
  | var (id : VarId)
  | const (h : Hash)

inductive Comparison
  | eq | neq
  deriving DecidableEq

def VarId.byte : VarId → UInt8
  | .requestor => varRequestorId
  | .action => varAction
  | .owner => varOwnerId
  | .status => varStatus

namespace Operand

def value (ctx : MdoContext) : Operand → Hash
  | .var id => id.value ctx
  | .const h => h

def compile : Operand → List UInt8
  | .var id => [opPushVar,id.byte]
  | .const h => opPushConstHash::h.1

end Operand

namespace Comparison

def compare : Comparison → Hash → Hash → Bool
  | .eq => fun a b => a == b
  | .neq => fun a b => a != b

def opcode : Comparison → UInt8
  | .eq => opEq
  | .neq => opNeq

end Comparison

/-- `left op right`, or else the error code. -/
structure Assertion where
  left : Operand
  op : Comparison
  right : Operand
  code : UInt8

namespace Assertion

def holds (ctx : MdoContext) (a : Assertion) : Bool :=
  a.op.compare (a.left.value ctx) (a.right.value ctx)

def compile (a : Assertion) : List UInt8 :=
  a.left.compile ++ (a.right.compile ++ [a.op.opcode,opAssertOrDissonance,a.code])

end Assertion

theorem ofByte_byte (id : VarId) : VarId.ofByte id.byte = some id := by
  cases id <;> rfl

section Translation

variable {ctx : MdoContext} {stack : List Hash} (rest : List UInt8)

/-- The code of an operand pushes its value. -/
theorem reference_operand (o : Operand) (h : stack.length < 32) :
    reference ctx stack (o.compile ++ rest) = reference ctx (o.value ctx::stack) rest := by
  cases o with
  | var id =>
    have hf : fetch ((Operand.var id).compile ++ rest) = .ok (.push (.var id),rest) := by
      show fetch (opPushVar::id.byte::rest) = _
      simp only [fetch,if_true,ofByte_byte]
    exact reference_goOn hf (if_pos h)
  | const val =>
    have hf : fetch ((Operand.const val).compile ++ rest) = .ok (.push (.const val),rest) := by
      show fetch (opPushConstHash::(val.1 ++ rest)) = _
      have hne : ¬opPushConstHash = opPushVar := by decide
      have hlen : 32 ≤ (val.1 ++ rest).length := by
        rw [List.length_append,val.2]
        exact Nat.le_add_right _ _
      have htake : (val.1 ++ rest).take 32 = val.1 := List.take_left' val.2
      have hdrop : (val.1 ++ rest).drop 32 = rest := List.drop_left' val.2
      simp only [fetch,if_neg hne,if_true,dif_pos hlen,htake,hdrop]
    exact reference_goOn hf (if_pos h)

/-- The code of a comparison replaces two values by a Boolean; operands are popped in
reverse, which no comparison notices. -/
theorem reference_comparison (op : Comparison) (a b : Hash) :
    reference ctx (b::a::stack) (op.opcode::rest) =
      reference ctx (boolHash (op.compare a b)::stack) rest := by
  cases op with
  | eq =>
    have hcomm : (b == a) = (a == b) := Bool.beq_comm
    have hf : fetch (opEq::rest) = .ok (.eq,rest) := rfl
    rw [Comparison.opcode,reference_goOn hf rfl,hcomm]
    rfl
  | neq =>
    have hcomm : (b != a) = (a != b) := bne_comm
    have hf : fetch (opNeq::rest) = .ok (.neq,rest) := rfl
    rw [Comparison.opcode,reference_goOn hf rfl,hcomm]
    rfl

theorem reference_assert (b : Bool) (code : UInt8) :
    reference ctx (boolHash b::stack) (opAssertOrDissonance::code::rest) =
      if b then reference ctx stack rest else .error code := by
  have hf : fetch (opAssertOrDissonance::code::rest) = .ok (.assertOrDissonance code,rest) := rfl
  cases b with
  | false => exact reference_stop hf rfl
  | true => exact reference_goOn hf rfl

/-- A clause that holds leaves the stack as it was, however long the policy. -/
theorem reference_assertion (a : Assertion) (h : stack.length + 1 < 32) :
    reference ctx stack (a.compile ++ rest) =
      if a.holds ctx then reference ctx stack rest else .error a.code := by
  have hright : (a.left.value ctx::stack).length < 32 := h
  rw [Assertion.compile,List.append_assoc,List.append_assoc,reference_operand _ _ (by omega),
    reference_operand _ _ hright]
  exact (reference_comparison _ a.op _ _).trans (reference_assert rest _ a.code)

end Translation

/-- A policy is the conjunction of its clauses, and its first clause that fails names the
error; nothing behind `HALT_OK` matters. -/
theorem executeMictCheck_conjunction (ctx : MdoContext) (assertions : List Assertion)
    (tail : List UInt8) :
    let result := executeMictCheck (assertions.flatMap Assertion.compile ++ opHaltOk::tail) ctx
    (result = .ok () ↔ ∀ a ∈ assertions, a.holds ctx = true) ∧
    result = match assertions.find? fun a => !a.holds ctx with
      | some a => .error a.code
      | none => .ok () := by
  intro result
  have heq : result = match assertions.find? fun a => !a.holds ctx with
      | some a => .error a.code
      | none => .ok () := by
    show executeMictCheck _ ctx = _
    rw [executeMictCheck_eq_reference]
    clear result
    induction assertions with
    | nil =>
      have hf : fetch (opHaltOk::tail) = .ok (.haltOk,tail) := rfl
      exact reference_stop hf rfl
    | cons a assertions ih =>
      rw [List.flatMap_cons,List.append_assoc,reference_assertion _ a (by decide),ih,List.find?_cons]
      cases a.holds ctx <;> rfl
  refine ⟨?_,heq⟩
  rw [heq]
  cases hfind : assertions.find? fun a => !a.holds ctx with
  | none =>
    refine iff_of_true rfl fun a ha => ?_
    simpa using List.find?_eq_none.mp hfind a ha
  | some a =>
    refine iff_of_false (by simp) fun hall => ?_
    have hfails := List.find?_some hfind
    simp [hall a (List.mem_of_find?_eq_some hfind)] at hfails

/-- The script of the file that the kernel forges at boot is such a translation. -/
example : [Assertion.mk (.var .requestor) .eq (.var .owner) 0x42].flatMap Assertion.compile ++
    [opHaltOk] = [0x10,0x01,0x10,0x03,0x20,0x30,0x42,0x3F] := rfl

end MdoVm
end PolymorphOS
