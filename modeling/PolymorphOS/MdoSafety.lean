import PolymorphOS.Mfs

/-! The interpreter and the gate as they are compiled: nothing is known about the stack
pointer or the program counter, and every index, slice and copy carries its own test and
panics when that fails. None ever does, and what is left is the interpreter of `MdoVm`. -/
namespace PolymorphOS
namespace MdoVm
namespace Checked

/-- `bytes[i]`. -/
def index (bytes : List UInt8) (i : ℕ) : Except Panic UInt8 :=
  if h : i < bytes.length then .ok bytes[i] else .error .indexOutOfBounds

/-- `&bytes[lo..hi]`. -/
def slice (bytes : List UInt8) (lo hi : ℕ) : Except Panic (List UInt8) :=
  if lo ≤ hi ∧ hi ≤ bytes.length then .ok ((bytes.drop lo).take (hi - lo))
  else .error .indexOutOfBounds

/-- A slice as a `[u8; n]`: `copy_from_slice`, and `try_into` with `unwrap`. -/
def toArray (n : ℕ) (bytes : List UInt8) : Except Panic {l : List UInt8 // l.length = n} :=
  if h : bytes.length = n then .ok ⟨bytes,h⟩ else .error (.explicit "slice length mismatch")

structure MictStack where
  data : Vector Hash 32
  ptr : ℕ

namespace MictStack

def new : MictStack := ⟨Vector.replicate 32 zeroHash,0⟩

/-- `self.data[i]`. -/
def read (s : MictStack) (i : ℕ) : Except Panic Hash :=
  if h : i < 32 then .ok s.data[i] else .error .indexOutOfBounds

/-- `self.data[i] = val`. -/
def write (s : MictStack) (i : ℕ) (val : Hash) : Except Panic MictStack :=
  if h : i < 32 then .ok {s with data := s.data.set i val} else .error .indexOutOfBounds

def push (s : MictStack) (val : Hash) : Except Panic (Except String MictStack) :=
  if s.ptr ≥ 32 then return .error "MDO-VM Stack Overflow"
  else do
    let s ← s.write s.ptr val
    return .ok {s with ptr := s.ptr + 1}

def pop (s : MictStack) : Except Panic (Except String (Hash × MictStack)) :=
  if s.ptr = 0 then return .error "MDO-VM Stack Underflow"
  else do
    let s : MictStack := {s with ptr := s.ptr - 1}
    let val ← s.read s.ptr
    return .ok (val,s)

def pushBool (s : MictStack) (b : Bool) : Except Panic (Except String MictStack) :=
  s.push (boolHash b)

def popBool (s : MictStack) : Except Panic (Except String (Bool × MictStack)) := do
  match ← s.pop with
  | .error e => return .error e
  | .ok (val,s) => return .ok (firstByte val != 0,s)

end MictStack

inductive Flow
  | next (stack : MictStack) (pc : ℕ)
  | halt (result : Except UInt8 Unit)

/-- Stack failures report `0xFD`. -/
def onStack {A : Type} (r : Except Panic (Except String A)) (f : A → Except Panic Flow) :
    Except Panic Flow := do
  match ← r with
  | .error _ => return .halt (.error 0xFD)
  | .ok a => f a

/-- The body of the loop at `pc`. -/
def step (bytecode : List UInt8) (ctx : MdoContext) (stack : MictStack) (pc : ℕ) :
    Except Panic Flow := do
  let op ← index bytecode pc
  if op = opPushVar then
    if pc + 1 ≥ bytecode.length then return .halt (.error 0xFF)
    else
      let varId ← index bytecode (pc + 1)
      match readVar ctx varId with
      | none => return .halt (.error 0xFE)
      | some val => onStack (stack.push val) fun stack => return .next stack (pc + 2)
  else if op = opPushConstHash then
    if pc + 32 ≥ bytecode.length then return .halt (.error 0xFF)
    else
      let bytes ← slice bytecode (pc + 1) (pc + 33)
      let hash ← toArray 32 bytes
      onStack (stack.push hash) fun stack => return .next stack (pc + 33)
  else if op = opEq then
    onStack stack.pop fun (a,stack) => onStack stack.pop fun (b,stack) =>
      onStack (stack.pushBool (a == b)) fun stack => return .next stack (pc + 1)
  else if op = opNeq then
    onStack stack.pop fun (a,stack) => onStack stack.pop fun (b,stack) =>
      onStack (stack.pushBool (a != b)) fun stack => return .next stack (pc + 1)
  else if op = opAssertOrDissonance then
    if pc + 1 ≥ bytecode.length then return .halt (.error 0xFF)
    else
      let errorCode ← index bytecode (pc + 1)
      onStack stack.popBool fun (condition,stack) =>
        if !condition then return .halt (.error errorCode) else return .next stack (pc + 2)
  else if op = opHaltOk then return .halt (.ok ())
  else return .halt (.error 0xFC)

/-- The loop with a bound on its turns; `none` when it is not over by then. -/
def runFor (bytecode : List UInt8) (ctx : MdoContext) (turns : ℕ) (stack : MictStack) (pc : ℕ) :
    Except Panic (Option (Except UInt8 Unit)) :=
  if pc < bytecode.length then
    match turns with
    | 0 => return none
    | turns+1 => do
      match ← step bytecode ctx stack pc with
      | .next stack pc => runFor bytecode ctx turns stack pc
      | .halt result => return some result
  else return some (.error 0xFB)

/-- `execute_mict_check`, given as many turns as the script has bytes. -/
def executeMictCheck (bytecode : List UInt8) (ctx : MdoContext) :
    Except Panic (Option (Except UInt8 Unit)) :=
  runFor bytecode ctx bytecode.length .new 0

/-- `verify_mdo_access` on the block it has read. -/
def gate (firstBlock : Block) (context : MdoContext) :
    Except Panic (Option (Except String ℕ)) := do
  let magic ← slice firstBlock.1 0 4
  if magic ≠ Mfs.mdoMagic then
    return some (.error "Not a valid MDO file. Zero-Trust Access Denied.")
  else
    let bytes ← slice firstBlock.1 76 80
    let length ← toArray 4 bytes
    let bytecodeLen := Mfs.fromLeBytes length
    if bytecodeLen > 3968 then return some (.error "Corrupted MDO: Bytecode too large.")
    else
      let bytecode ← slice firstBlock.1 128 (128 + bytecodeLen)
      match ← executeMictCheck bytecode context with
      | none => return none
      | some (.error _) => return some (.error "Access Denied by MDO Security Policy")
      | some (.ok ()) => return some (.ok (128 + bytecodeLen))

/-- The loop gets to the top of a turn with this stack and this `pc` after so many turns. -/
inductive Turns (bytecode : List UInt8) (ctx : MdoContext) : ℕ → MictStack → ℕ → Prop
  | start : Turns bytecode ctx 0 .new 0
  | next {n : ℕ} {stack stack' : MictStack} {pc pc' : ℕ} : Turns bytecode ctx n stack pc →
      pc < bytecode.length → step bytecode ctx stack pc = .ok (.next stack' pc') →
      Turns bytecode ctx (n+1) stack' pc'

theorem index_ok {bytes : List UInt8} {i : ℕ} (h : i < bytes.length) :
    index bytes i = .ok bytes[i] := dif_pos h

theorem slice_ok {bytes : List UInt8} {lo hi : ℕ} (h : lo ≤ hi) (hb : hi ≤ bytes.length) :
    slice bytes lo hi = .ok ((bytes.drop lo).take (hi - lo)) := if_pos ⟨h,hb⟩

theorem toArray_ok {n : ℕ} {bytes : List UInt8} (h : bytes.length = n) :
    toArray n bytes = .ok ⟨bytes,h⟩ := dif_pos h

/-- A stack whose pointer is in range. -/
def ofStack (s : MdoVm.MictStack) : MictStack := ⟨s.data,s.ptr⟩

def ofFlow : MdoVm.Flow → Flow
  | .next stack pc => .next (ofStack stack) pc
  | .halt result => .halt result

theorem exists_ofStack {s : MictStack} (h : s.ptr ≤ 32) : ∃ s', ofStack s' = s := ⟨⟨s.data,s.ptr,h⟩,rfl⟩

@[simp] theorem ofStack_new : ofStack .new = .new := rfl

@[simp] theorem ofStack_ptr (s : MdoVm.MictStack) : (ofStack s).ptr = s.ptr := rfl

theorem push_ofStack (s : MdoVm.MictStack) (val : Hash) :
    (ofStack s).push val = .ok ((s.push val).map ofStack) := by
  by_cases h : s.ptr < 32
  · have hwrite : (ofStack s).write s.ptr val = .ok ⟨s.data.set s.ptr val,s.ptr⟩ := dif_pos h
    rw [MictStack.push,if_neg (by simpa using h),MdoVm.MictStack.push,dif_pos h]
    simp only [ofStack_ptr,hwrite,bind,Except.bind]
    rfl
  · rw [MictStack.push,if_pos (by simpa using h),MdoVm.MictStack.push,dif_neg h]
    rfl

theorem pop_ofStack (s : MdoVm.MictStack) :
    (ofStack s).pop = .ok (s.pop.map (Prod.map id ofStack)) := by
  by_cases h : s.ptr = 0
  · rw [MictStack.pop,if_pos (by exact h),MdoVm.MictStack.pop,dif_pos h]
    rfl
  · have hle := s.ptr_le
    have hread : MictStack.read ⟨s.data,s.ptr - 1⟩ (s.ptr - 1) = .ok s.data[s.ptr - 1] :=
      dif_pos (by omega)
    rw [MictStack.pop,if_neg (by exact h),MdoVm.MictStack.pop,dif_neg h]
    simp only [ofStack,hread,bind,Except.bind]
    rfl

theorem popBool_ofStack (s : MdoVm.MictStack) :
    (ofStack s).popBool = .ok (s.popBool.map (Prod.map id ofStack)) := by
  rw [MictStack.popBool,pop_ofStack,MdoVm.MictStack.popBool]
  cases s.pop with
  | error e => rfl
  | ok p => rfl

theorem onStack_ofFlow {A B : Type} {g : A → B} {r : Except String A}
    {x : Except Panic (Except String B)} {f : A → MdoVm.Flow} {f' : B → Except Panic Flow}
    (hx : x = .ok (r.map g)) (hf : ∀ a, f' (g a) = .ok (ofFlow (f a))) :
    onStack x f' = .ok (ofFlow (MdoVm.onStack r f)) := by
  rw [hx]
  cases r with
  | error e => rfl
  | ok a => exact hf a

/-- `EQ` and `NEQ`. -/
theorem compare_ofFlow (s : MdoVm.MictStack) (f : Hash → Hash → Bool) (pc : ℕ) :
    (onStack (ofStack s).pop fun (a,s) => onStack s.pop fun (b,s) =>
      onStack (s.pushBool (f a b)) fun s => return Flow.next s pc) =
    .ok (ofFlow (MdoVm.onStack s.pop fun (a,s) => MdoVm.onStack s.pop fun (b,s) =>
      MdoVm.onStack (s.pushBool (f a b)) fun s => MdoVm.Flow.next s pc)) :=
  onStack_ofFlow (pop_ofStack s) fun (_,s) => onStack_ofFlow (pop_ofStack s) fun (_,s) =>
    onStack_ofFlow (push_ofStack s _) fun _ => rfl

/-- A turn inside the script panics nowhere, and is the turn of the interpreter. -/
theorem step_ofStack (bytecode : List UInt8) (ctx : MdoContext) (stack : MdoVm.MictStack) {pc : ℕ}
    (h : pc < bytecode.length) : step bytecode ctx (ofStack stack) pc =
      .ok (ofFlow (MdoVm.step bytecode ctx stack pc h)) := by
  simp only [step,index_ok h,bind,Except.bind,MdoVm.step]
  by_cases hvar : bytecode[pc] = opPushVar
  · simp only [if_pos hvar]
    by_cases h₁ : pc + 1 < bytecode.length
    · simp only [if_neg (not_le.mpr h₁),dif_pos h₁,index_ok h₁]
      cases readVar ctx bytecode[pc + 1] with
      | none => rfl
      | some val => exact onStack_ofFlow (push_ofStack stack val) fun _ => rfl
    · simp only [if_pos (not_lt.mp h₁),dif_neg h₁]
      rfl
  simp only [if_neg hvar]
  by_cases hconst : bytecode[pc] = opPushConstHash
  · simp only [if_pos hconst]
    by_cases h₁ : pc + 32 < bytecode.length
    · have hlen : ((bytecode.drop (pc + 1)).take (pc + 33 - (pc + 1))).length = 32 := by
        simp
        omega
      simp only [if_neg (not_le.mpr h₁),dif_pos h₁,slice_ok (show pc + 1 ≤ pc + 33 by omega)
        (show pc + 33 ≤ bytecode.length by omega),toArray_ok hlen]
      refine onStack_ofFlow ?_ fun _ => rfl
      rw [push_ofStack]
      simp only [show pc + 33 - (pc + 1) = 32 by omega]
    · simp only [if_pos (not_lt.mp h₁),dif_neg h₁]
      rfl
  simp only [if_neg hconst]
  by_cases heq : bytecode[pc] = opEq
  · simp only [if_pos heq]
    exact compare_ofFlow stack (· == ·) (pc + 1)
  simp only [if_neg heq]
  by_cases hneq : bytecode[pc] = opNeq
  · simp only [if_pos hneq]
    exact compare_ofFlow stack (· != ·) (pc + 1)
  simp only [if_neg hneq]
  by_cases hassert : bytecode[pc] = opAssertOrDissonance
  · simp only [if_pos hassert]
    by_cases h₁ : pc + 1 < bytecode.length
    · simp only [if_neg (not_le.mpr h₁),dif_pos h₁,index_ok h₁]
      refine onStack_ofFlow (popBool_ofStack stack) ?_
      rintro ⟨condition,_⟩
      cases condition <;> rfl
    · simp only [if_pos (not_lt.mp h₁),dif_neg h₁]
      rfl
  simp only [if_neg hassert]
  by_cases hhalt : bytecode[pc] = opHaltOk
  · simp only [if_pos hhalt]
    rfl
  · simp only [if_neg hhalt]
    rfl

/-- A turn that goes on is one of the interpreter. -/
theorem step_next_inv {bytecode : List UInt8} {ctx : MdoContext} {s : MdoVm.MictStack} {pc pc' : ℕ}
    {stack' : MictStack} (h : step bytecode ctx (ofStack s) pc = .ok (.next stack' pc')) :
    ∃ (hlt : pc < bytecode.length) (s' : MdoVm.MictStack),
      MdoVm.step bytecode ctx s pc hlt = .next s' pc' ∧ stack' = ofStack s' := by
  by_cases hlt : pc < bytecode.length
  · rw [step_ofStack bytecode ctx s hlt] at h
    cases hflow : MdoVm.step bytecode ctx s pc hlt with
    | halt r =>
      rw [hflow] at h
      cases h
    | next s' pc' =>
      rw [hflow] at h
      cases h
      exact ⟨hlt,s',hflow,rfl⟩
  · rw [step,index,dif_neg hlt] at h
    cases h

/-- As many turns as there are bytes left are enough. -/
theorem runFor_eq (bytecode : List UInt8) (ctx : MdoContext) (turns : ℕ) (stack : MdoVm.MictStack)
    (pc : ℕ) (hn : bytecode.length ≤ pc + turns) :
    runFor bytecode ctx turns (ofStack stack) pc = .ok (some (run bytecode ctx stack pc)) := by
  induction turns generalizing stack pc with
  | zero =>
    rw [runFor,if_neg (by omega),run,dif_neg (by omega)]
    rfl
  | succ turns ih =>
    by_cases h : pc < bytecode.length
    · rw [runFor,if_pos h]
      simp only [step_ofStack bytecode ctx stack h,bind,Except.bind]
      cases hs : MdoVm.step bytecode ctx stack pc h with
      | next stack' pc' =>
        have hlt := step_pc_lt hs
        rw [run_next hs]
        exact ih stack' pc' (by omega)
      | halt r =>
        rw [run_halt hs]
        rfl
    · rw [runFor,if_neg h,run,dif_neg h]
      rfl

theorem executeMictCheck_eq (bytecode : List UInt8) (ctx : MdoContext) :
    executeMictCheck bytecode ctx = .ok (some (MdoVm.executeMictCheck bytecode ctx)) :=
  runFor_eq bytecode ctx bytecode.length .new 0 (by omega)

theorem gate_eq (firstBlock : Block) (context : MdoContext) :
    gate firstBlock context = .ok (some (Mfs.gate firstBlock context)) := by
  have hlen := firstBlock.2
  have hslice : ∀ {lo hi : ℕ}, lo ≤ hi → hi ≤ 4096 →
      slice firstBlock.1 lo hi = .ok (Mfs.bytesAt firstBlock lo hi) :=
    fun hle hhi => slice_ok hle (by omega)
  have hword : (Mfs.bytesAt firstBlock 76 80).length = 4 := by
    simp [Mfs.bytesAt,hlen]
  have hlength : Mfs.fromLeBytes (Mfs.bytesAt firstBlock 76 80) = Mfs.bytecodeLen firstBlock := rfl
  simp only [gate,hslice (show 0 ≤ 4 by omega) (by omega),
    hslice (show 76 ≤ 80 by omega) (by omega),toArray_ok hword,bind,Except.bind,Mfs.gate,hlength]
  by_cases hmagic : Mfs.bytesAt firstBlock 0 4 ≠ Mfs.mdoMagic
  · rw [if_pos hmagic,if_pos hmagic]
    rfl
  rw [if_neg hmagic,if_neg hmagic]
  by_cases hbig : 3968 < Mfs.bytecodeLen firstBlock
  · rw [if_pos hbig,if_pos hbig]
    rfl
  · rw [if_neg hbig,if_neg hbig,hslice (by omega) (by omega)]
    simp only [executeMictCheck_eq]
    rw [← Mfs.bytecodeOf]
    cases MdoVm.executeMictCheck (Mfs.bytecodeOf firstBlock) context <;> rfl

theorem pop_ptr_lt {s s' : MictStack} {val : Hash} (h : s.pop = .ok (.ok (val,s'))) :
    s'.ptr < s.ptr := by
  by_cases hz : s.ptr = 0
  · rw [MictStack.pop,if_pos hz] at h
    cases h
  · rw [MictStack.pop,if_neg hz] at h
    simp only [bind,Except.bind] at h
    split at h
    · cases h
    · cases h
      simp only
      omega

/-- What holds at the top of every turn. -/
structure Safe (bytecode : List UInt8) (ctx : MdoContext) (turns : ℕ) (stack : MictStack) (pc : ℕ) :
    Prop where
  ptr_le : stack.ptr ≤ 32
  turns_le : turns ≤ pc
  pc_le : pc ≤ bytecode.length
  no_panic : pc < bytecode.length → ∃ flow, step bytecode ctx stack pc = .ok flow
  pc_lt : ∀ {stack' pc'}, step bytecode ctx stack pc = .ok (.next stack' pc') → pc < pc'
  push_ok : ∀ {a s₁ b s₂}, stack.pop = .ok (.ok (a,s₁)) → s₁.pop = .ok (.ok (b,s₂)) →
    ∀ val, ∃ s₃, s₂.push val = .ok (.ok s₃)

theorem Turns.safe {bytecode : List UInt8} {ctx : MdoContext} {turns : ℕ} {stack : MictStack}
    {pc : ℕ} (h : Turns bytecode ctx turns stack pc) : Safe bytecode ctx turns stack pc := by
  have hbounds : stack.ptr ≤ 32 ∧ turns ≤ pc ∧ pc ≤ bytecode.length := by
    induction h with
    | start => exact ⟨Nat.zero_le _,le_rfl,Nat.zero_le _⟩
    | next _ hlt hs ih =>
      obtain ⟨s,rfl⟩ := exists_ofStack ih.1
      obtain ⟨_,s',hflow,rfl⟩ := step_next_inv hs
      have hpc := step_pc_mem hflow
      exact ⟨s'.ptr_le,by omega,hpc.2⟩
  obtain ⟨s,rfl⟩ := exists_ofStack hbounds.1
  refine ⟨hbounds.1,hbounds.2.1,hbounds.2.2,fun hlt => ⟨_,step_ofStack bytecode ctx s hlt⟩,?_,?_⟩
  · intro stack' pc' hs
    obtain ⟨_,_,hflow,_⟩ := step_next_inv hs
    exact step_pc_lt hflow
  · intro a s₁ b s₂ h₁ h₂ val
    have hptr := pop_ptr_lt h₁
    have hptr' := pop_ptr_lt h₂
    have hle := hbounds.1
    have hroom : s₂.ptr < 32 := by omega
    obtain ⟨s₂,rfl⟩ := exists_ofStack hroom.le
    obtain ⟨s₃,hpush,_⟩ := MdoVm.MictStack.push_ok val hroom
    exact ⟨ofStack s₃,by rw [push_ofStack,hpush]; rfl⟩

/-- Nothing in the bytes of a block or of a script makes the gate or the interpreter panic, and
the interpreter is done after at most one turn for each byte. -/
theorem verifier_safe :
    (∀ (firstBlock : Block) (context : MdoContext),
      gate firstBlock context = .ok (some (Mfs.gate firstBlock context))) ∧
    ∀ (bytecode : List UInt8) (ctx : MdoContext),
      executeMictCheck bytecode ctx = .ok (some (MdoVm.executeMictCheck bytecode ctx)) ∧
      ∀ turns stack pc, Turns bytecode ctx turns stack pc → Safe bytecode ctx turns stack pc :=
  ⟨gate_eq,fun bytecode ctx => ⟨executeMictCheck_eq bytecode ctx,fun _ _ _ h => h.safe⟩⟩

/-- After the first of `PUSH_VAR` and `HALT_OK`. -/
theorem verifier_safe_push :
    Safe [0x10,0x02,0x3F] ⟨zeroHash,boolHash true,zeroHash,0⟩ 1
      ⟨MictStack.new.data.set 0 (boolHash true),1⟩ 2 :=
  (verifier_safe.2 [0x10,0x02,0x3F] _).2 1 _ 2 (.next .start (by decide) rfl)

end Checked
end MdoVm
end PolymorphOS
