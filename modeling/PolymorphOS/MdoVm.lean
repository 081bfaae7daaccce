import Mathlib.Data.Vector.Basic
import Mathlib.Tactic

/-! The MDO virtual machine: the interpreter of the policy bytecode that every file
carries in its header. -/
namespace PolymorphOS

/-- A 256-bit hash, `[u8; 32]`. -/
abbrev Hash := {bytes : List UInt8 // bytes.length = 32}

/-- The context a caller presents with a request. -/
structure MdoContext where
  requestorIdHash : Hash
  actionHash : Hash
  ownerIdHash : Hash
  status : UInt32
  deriving DecidableEq

namespace MdoVm

def zeroHash : Hash := ⟨List.replicate 32 0,rfl⟩

/-- `1` or `0` in the first byte, zero elsewhere. -/
def boolHash (b : Bool) : Hash := ⟨(if b then 1 else 0)::List.replicate 31 0,rfl⟩

def firstByte (h : Hash) : UInt8 := h.1.headD 0

/-- `u32::to_le_bytes`. -/
def toLeBytes (n : UInt32) : List UInt8 :=
  [n.toUInt8,(n >>> 8).toUInt8,(n >>> 16).toUInt8,(n >>> 24).toUInt8]

/-- The 32-bit integer in the first four bytes of a hash-sized value. -/
def statusHash (n : UInt32) : Hash := ⟨toLeBytes n ++ List.replicate 28 0,rfl⟩

/-- The fixed-size operand stack; `ptr` counts the values on it. -/
structure MictStack where
  data : Vector Hash 32
  ptr : ℕ
  ptr_le : ptr ≤ 32

namespace MictStack

def new : MictStack := ⟨Vector.replicate 32 zeroHash,0,by norm_num⟩

def push (s : MictStack) (val : Hash) : Except String MictStack :=
  if h : s.ptr < 32 then .ok ⟨s.data.set s.ptr val,s.ptr+1,h⟩
  else .error "MDO-VM Stack Overflow"

def pop (s : MictStack) : Except String (Hash × MictStack) :=
  if h : s.ptr = 0 then .error "MDO-VM Stack Underflow"
  else
    have hlt : s.ptr - 1 < 32 := by have := s.ptr_le; omega
    .ok (s.data[s.ptr - 1],⟨s.data,s.ptr - 1,hlt.le⟩)

def pushBool (s : MictStack) (b : Bool) : Except String MictStack := s.push (boolHash b)

def popBool (s : MictStack) : Except String (Bool × MictStack) := do
  let (val,s') ← s.pop
  return (firstByte val != 0,s')

/-- The values on the stack, the top one first. -/
def toList (s : MictStack) : List Hash := (s.data.toList.take s.ptr).reverse

@[simp] theorem toList_new : new.toList = [] := rfl

@[simp] theorem length_toList (s : MictStack) : s.toList.length = s.ptr := by
  have := s.ptr_le
  simp [toList]
  omega

theorem push_ok {s : MictStack} (val : Hash) (h : s.ptr < 32) :
    ∃ s', s.push val = .ok s' ∧ s'.toList = val::s.toList := by
  refine ⟨⟨s.data.set s.ptr val,s.ptr+1,h⟩,dif_pos h,?_⟩
  have hlen : s.data.toList.length = 32 := by simp
  have ht : (s.data.toList.set s.ptr val).take (s.ptr+1) = s.data.toList.take s.ptr ++ [val] := by
    rw [List.take_succ_eq_append_getElem (by simpa using h),List.take_set_of_le (le_refl _),
      List.getElem_set_self]
  simp [toList,Vector.toList_set,ht]

theorem push_full {s : MictStack} (val : Hash) (h : ¬s.ptr < 32) :
    s.push val = .error "MDO-VM Stack Overflow" := dif_neg h

theorem pop_nil {s : MictStack} (h : s.toList = []) : s.pop = .error "MDO-VM Stack Underflow" := by
  have hp : s.ptr = 0 := by rw [← s.length_toList,h,List.length_nil]
  rw [pop,dif_pos hp]

theorem pop_cons {s : MictStack} {val : Hash} {rest : List Hash} (h : s.toList = val::rest) :
    ∃ s', s.pop = .ok (val,s') ∧ s'.toList = rest := by
  have hp : s.ptr = rest.length + 1 := by rw [← s.length_toList,h,List.length_cons]
  have hle := s.ptr_le
  have hsplit : s.toList = s.data[s.ptr - 1]::(s.data.toList.take (s.ptr - 1)).reverse := by
    have ht := List.take_succ_eq_append_getElem (i := s.ptr - 1) (l := s.data.toList)
      (by simp; omega)
    rw [Nat.sub_add_cancel (by omega)] at ht
    rw [toList,ht]
    simp
  rw [hsplit] at h
  obtain ⟨hv,hr⟩ := List.cons.inj h
  refine ⟨⟨s.data,s.ptr - 1,by omega⟩,?_,hr⟩
  rw [pop,dif_neg (by omega)]
  simp only [hv]

end MictStack

def opPushVar : UInt8 := 0x10
def opPushConstHash : UInt8 := 0x11
def opEq : UInt8 := 0x20
def opNeq : UInt8 := 0x21
def opAssertOrDissonance : UInt8 := 0x30
def opHaltOk : UInt8 := 0x3F

def varRequestorId : UInt8 := 0x01
def varAction : UInt8 := 0x02
def varOwnerId : UInt8 := 0x03
def varStatus : UInt8 := 0x04

def readVar (ctx : MdoContext) (varId : UInt8) : Option Hash :=
  if varId = varRequestorId then some ctx.requestorIdHash
  else if varId = varAction then some ctx.actionHash
  else if varId = varOwnerId then some ctx.ownerIdHash
  else if varId = varStatus then some (statusHash ctx.status)
  else none

/-- Where one turn of the interpreter loop leads. -/
inductive Flow
  | next (stack : MictStack) (pc : ℕ)
  | halt (result : Except UInt8 Unit)

/-- Stack failures report `0xFD`. -/
def onStack {A : Type} (r : Except String A) (f : A → Flow) : Flow :=
  match r with
  | .error _ => .halt (.error 0xFD)
  | .ok a => f a

/-- The body of the loop at `pc`. -/
def step (bytecode : List UInt8) (ctx : MdoContext) (stack : MictStack) (pc : ℕ)
    (h : pc < bytecode.length) : Flow :=
  let op := bytecode[pc]
  if op = opPushVar then
    if h₁ : pc + 1 < bytecode.length then
      match readVar ctx bytecode[pc + 1] with
      | none => .halt (.error 0xFE)
      | some val => onStack (stack.push val) fun stack => .next stack (pc + 2)
    else .halt (.error 0xFF)
  else if op = opPushConstHash then
    if h₁ : pc + 32 < bytecode.length then
      let hash : Hash := ⟨(bytecode.drop (pc + 1)).take 32,by simp; omega⟩
      onStack (stack.push hash) fun stack => .next stack (pc + 33)
    else .halt (.error 0xFF)
  else if op = opEq then
    onStack stack.pop fun (a,stack) => onStack stack.pop fun (b,stack) =>
      onStack (stack.pushBool (a == b)) fun stack => .next stack (pc + 1)
  else if op = opNeq then
    onStack stack.pop fun (a,stack) => onStack stack.pop fun (b,stack) =>
      onStack (stack.pushBool (a != b)) fun stack => .next stack (pc + 1)
  else if op = opAssertOrDissonance then
    if h₁ : pc + 1 < bytecode.length then
      onStack stack.popBool fun (condition,stack) =>
        if !condition then .halt (.error bytecode[pc + 1]) else .next stack (pc + 2)
    else .halt (.error 0xFF)
  else if op = opHaltOk then .halt (.ok ())
  else .halt (.error 0xFC)

theorem onStack_next {A : Type} {r : Except String A} {f : A → Flow} {s : MictStack} {pc : ℕ}
    (h : onStack r f = .next s pc) : ∃ a, f a = .next s pc := by
  cases r with
  | error e => cases h
  | ok a => exact ⟨a,h⟩

/-- Every turn moves the program counter forward, and at most to the end of the script. -/
theorem step_pc_mem {bytecode : List UInt8} {ctx : MdoContext} {stack stack' : MictStack}
    {pc pc' : ℕ} {h : pc < bytecode.length} (hs : step bytecode ctx stack pc h = .next stack' pc') :
    pc < pc' ∧ pc' ≤ bytecode.length := by
  simp only [step] at hs
  split_ifs at hs
  · split at hs
    · cases hs
    · obtain ⟨a,ha⟩ := onStack_next hs
      cases ha
      omega
  · obtain ⟨a,ha⟩ := onStack_next hs
    cases ha
    omega
  · obtain ⟨a,ha⟩ := onStack_next hs
    obtain ⟨b,hb⟩ := onStack_next ha
    obtain ⟨c,hc⟩ := onStack_next hb
    cases hc
    omega
  · obtain ⟨a,ha⟩ := onStack_next hs
    obtain ⟨b,hb⟩ := onStack_next ha
    obtain ⟨c,hc⟩ := onStack_next hb
    cases hc
    omega
  · obtain ⟨⟨condition,s⟩,ha⟩ := onStack_next hs
    cases condition with
    | false => cases ha
    | true =>
      cases ha
      omega

theorem step_pc_lt {bytecode : List UInt8} {ctx : MdoContext} {stack stack' : MictStack}
    {pc pc' : ℕ} {h : pc < bytecode.length} (hs : step bytecode ctx stack pc h = .next stack' pc') :
    pc < pc' := (step_pc_mem hs).1

/-- `while pc < bytecode.len()`; running off the end rejects. -/
def run (bytecode : List UInt8) (ctx : MdoContext) (stack : MictStack) (pc : ℕ) :
    Except UInt8 Unit :=
  if h : pc < bytecode.length then
    match _hs : step bytecode ctx stack pc h with
    | .next stack' pc' => run bytecode ctx stack' pc'
    | .halt result => result
  else .error 0xFB
termination_by bytecode.length - pc
decreasing_by
  have := step_pc_lt _hs
  omega

def executeMictCheck (bytecode : List UInt8) (ctx : MdoContext) : Except UInt8 Unit :=
  run bytecode ctx MictStack.new 0

theorem run_next {bytecode : List UInt8} {ctx : MdoContext} {stack stack' : MictStack} {pc pc' : ℕ}
    {h : pc < bytecode.length} (hs : step bytecode ctx stack pc h = .next stack' pc') :
    run bytecode ctx stack pc = run bytecode ctx stack' pc' := by
  rw [run,dif_pos h]
  split
  · rename_i heq
    rw [hs] at heq
    cases heq
    rfl
  · rename_i heq
    rw [hs] at heq
    cases heq

theorem run_halt {bytecode : List UInt8} {ctx : MdoContext} {stack : MictStack} {pc : ℕ}
    {h : pc < bytecode.length} {r : Except UInt8 Unit}
    (hs : step bytecode ctx stack pc h = .halt r) : run bytecode ctx stack pc = r := by
  rw [run,dif_pos h]
  split
  · rename_i heq
    rw [hs] at heq
    cases heq
  · rename_i heq
    rw [hs] at heq
    cases heq
    rfl

end MdoVm
end PolymorphOS
