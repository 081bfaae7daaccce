import PolymorphOS.PayloadNames

/-! The task behind the serial line: it collects the bytes from `{` to the next backtick, and a
message is run as a command or saved as a file. -/
namespace PolymorphOS

open Kernel Mfs RustStr

/-- The locals of `genesis_init_task` between two bytes. -/
structure GenesisTask where
  jsonBuffer : RustString
  receivingJson : Bool
  payloadCount : Int32

/-- What a complete message makes the task call: `execute_command` of the top-most window, with
this input, or `save_file`. -/
inductive GenesisCall
  | executeCommand (input : List Char)
  | saveFile (filename : List Char) (data : Slice)

namespace GenesisTask

def new : GenesisTask := ⟨.empty,false,0⟩

def commandKey : List Char := "\"command\"".toList

def payloadKey : List Char := "\"payload\"".toList

/-- The text of the command, if the message spells its field without a blank. -/
def commandStr (json : List Char) : Option (List Char) := do
  let cmdIdx ← find json "\"command\":\"".toList
  let start := cmdIdx + 11
  let len ← find (json.drop start) "\"".toList
  return (json.drop start).take len

/-- A complete message: the counter after it, and the call it leads to. -/
def onMessage (build : Profile) (json : RustString) (payloadCount : Int32) :
    Kernel (Int32 × Option GenesisCall) :=
  if contains json.chars commandKey then
    pure (payloadCount,(commandStr json.chars).map fun input => .executeCommand (input ++ ['\n']))
  else if contains json.chars payloadKey then do
    match ← searchName build maxProbes payloadCount with
    | some payloadCount =>
      return (payloadCount,some (.saveFile (payloadName payloadCount) json.asBytes))
    | none => return (payloadCount,none)
  else pure (payloadCount,none)

/-- One turn of the loop, up to the call. -/
def onByte (build : Profile) (task : GenesisTask) (byte : UInt8) :
    Kernel (GenesisTask × Option GenesisCall) := do
  let char := Char.ofUInt8 byte
  if char = '{' ∧ task.receivingJson = false then
    let jsonBuffer ← ofPanic (RustString.empty.push char)
    return ({task with jsonBuffer,receivingJson := true},none)
  else if task.receivingJson = true then
    let jsonBuffer ← ofPanic (task.jsonBuffer.push char)
    if char = '`' then
      let (payloadCount,call) ← onMessage build jsonBuffer.pop task.payloadCount
      return (⟨.empty,false,payloadCount⟩,call)
    else return ({task with jsonBuffer},none)
  else return (task,none)

/-- The loop up to its next call, and the bytes that are left then. -/
def nextCall (build : Profile) : GenesisTask → List UInt8 →
    Kernel (GenesisTask × Option (GenesisCall × List UInt8))
  | task, [] => pure (task,none)
  | task, byte::bytes => do
    match ← onByte build task byte with
    | (task,some call) => return (task,some (call,bytes))
    | (task,none) => nextCall build task bytes

end GenesisTask

namespace RustString

variable {s t : RustString} {c : Char}

theorem push_ok (ht : t.chars = s.chars ++ [c]) : s.push c = .ok t := by
  have hsize : (Utf8.encode (s.chars ++ [c])).length < 2^63 := ht ▸ t.size_lt
  rw [push,ofChars,dif_pos hsize]
  exact congrArg Except.ok (RustString.ext ht.symm)

theorem push_error (h : 2^63 ≤ (Utf8.encode (s.chars ++ [c])).length) :
    s.push c = .error (.explicit "capacity overflow") := dif_neg (not_lt.mpr h)

theorem pop_of_concat (ht : t.chars = s.chars ++ [c]) : t.pop = s := by
  apply RustString.ext
  show t.chars.dropLast = s.chars
  rw [ht,List.dropLast_concat]

/-- What fits with more behind it fits alone. -/
theorem exists_prefix {chars more : List Char} (ht : t.chars = chars ++ more) :
    ∃ s : RustString, s.chars = chars := by
  refine ⟨⟨chars,lt_of_le_of_lt ?_ t.size_lt⟩,rfl⟩
  rw [ht,Utf8.encode_append,List.length_append]
  exact Nat.le_add_right _ _

end RustString

namespace GenesisTask

/-- The byte that ends a message. -/
def backtick : UInt8 := 0x60

/-- The bytes as the task reads them. -/
def received (bytes : List UInt8) : List Char := bytes.map Char.ofUInt8

variable {build : Profile} {s : Option NvmeController} {text full : RustString}
  {payloadCount : Int32} {byte : UInt8} {bytes rest : List UInt8}

theorem onByte_collect (hbyte : byte ≠ backtick) (hfull : full.chars = text.chars ++ [.ofUInt8 byte]) :
    onByte build ⟨text,true,payloadCount⟩ byte s = .ok (⟨full,true,payloadCount⟩,none) s := by
  have hopen : ¬(Char.ofUInt8 byte = '{' ∧ true = false) := fun h => Bool.noConfusion h.2
  have hclose : Char.ofUInt8 byte ≠ '`' := fun h => hbyte (ofUInt8_injective h)
  rw [onByte,if_neg hopen,if_pos rfl,RustString.push_ok hfull,bind_ok (ofPanic_ok _ s),if_neg hclose]
  rfl

theorem onByte_overflow (h : 2^63 ≤ (Utf8.encode (text.chars ++ [.ofUInt8 byte])).length) :
    onByte build ⟨text,true,payloadCount⟩ byte s =
      .error (.panic (.explicit "capacity overflow")) s := by
  have hopen : ¬(Char.ofUInt8 byte = '{' ∧ true = false) := fun h => Bool.noConfusion h.2
  rw [onByte,if_neg hopen,if_pos rfl,RustString.push_error h]
  rfl

/-- What a complete message leads to. -/
def afterMessage (build : Profile) (rest : List UInt8) (r : Int32 × Option GenesisCall) :
    Kernel (GenesisTask × Option (GenesisCall × List UInt8)) :=
  match r.2 with
  | some call => pure (⟨.empty,false,r.1⟩,some (call,rest))
  | none => nextCall build ⟨.empty,false,r.1⟩ rest

theorem nextCall_none {task task' : GenesisTask} {s' : Option NvmeController}
    (h : onByte build task byte s = .ok (task',none) s') :
    nextCall build task (byte::bytes) s = nextCall build task' bytes s' := by
  rw [nextCall,bind_ok h]

theorem nextCall_error {task : GenesisTask} {e : Fault} {s' : Option NvmeController}
    (h : onByte build task byte s = .error e s') :
    nextCall build task (byte::bytes) s = .error e s' := by
  rw [nextCall,bind_error h]

/-- Bytes without a backtick are appended to the message. -/
theorem nextCall_collect (hbytes : backtick ∉ bytes)
    (hfull : full.chars = text.chars ++ received bytes) :
    nextCall build ⟨text,true,payloadCount⟩ (bytes ++ rest) s =
      nextCall build ⟨full,true,payloadCount⟩ rest s := by
  induction bytes generalizing text with
  | nil =>
    have heq : full = text := RustString.ext (hfull.trans (List.append_nil _))
    rw [heq,List.nil_append]
  | cons byte bytes ih =>
    have hbyte : byte ≠ backtick := fun h => hbytes (h ▸ List.mem_cons_self)
    have happend : full.chars = text.chars ++ [.ofUInt8 byte] ++ received bytes := by
      rw [hfull,received,List.map_cons,List.append_cons]
      rfl
    obtain ⟨next,hnext⟩ := RustString.exists_prefix happend
    rw [List.cons_append,nextCall_none (onByte_collect hbyte hnext)]
    exact ih (fun h => hbytes (List.mem_cons_of_mem _ h)) (hnext ▸ happend)

/-- The backtick is pushed, taken off again, and ends the message. -/
theorem onByte_close (hfit : (Utf8.encode (text.chars ++ ['`'])).length < 2^63) :
    onByte build ⟨text,true,payloadCount⟩ backtick s =
      (onMessage build text payloadCount >>= fun r => pure (⟨.empty,false,r.1⟩,r.2)) s := by
  let full : RustString := ⟨_,hfit⟩
  have hopen : ¬(Char.ofUInt8 backtick = '{' ∧ true = false) := fun h => Bool.noConfusion h.2
  have hclose : Char.ofUInt8 backtick = '`' := rfl
  have hpush : text.push (.ofUInt8 backtick) = .ok full := RustString.push_ok rfl
  have hpop : full.pop = text := RustString.pop_of_concat rfl
  rw [onByte,if_neg hopen,if_pos rfl,hpush,bind_ok (ofPanic_ok _ s),if_pos hclose,hpop]

theorem nextCall_close (hfit : (Utf8.encode (text.chars ++ ['`'])).length < 2^63) :
    nextCall build ⟨text,true,payloadCount⟩ (backtick::rest) s =
      (onMessage build text payloadCount >>= afterMessage build rest) s := by
  have hbyte : onByte build ⟨text,true,payloadCount⟩ backtick s = _ := onByte_close hfit
  cases hmsg : onMessage build text payloadCount s with
  | error e s' =>
    rw [bind_error hmsg] at hbyte ⊢
    exact nextCall_error hbyte
  | ok r s' =>
    rw [bind_ok hmsg] at hbyte ⊢
    rw [nextCall,bind_ok hbyte,afterMessage]
    cases r.2 with
    | none => rfl
    | some call => rfl

/-- The message does not fit in a `String`. -/
theorem nextCall_overflow
    (h : 2^63 ≤ (Utf8.encode (text.chars ++ received bytes ++ ['`'])).length)
    (hbytes : backtick ∉ bytes) :
    nextCall build ⟨text,true,payloadCount⟩ (bytes ++ backtick::rest) s =
      .error (.panic (.explicit "capacity overflow")) s := by
  induction bytes generalizing text with
  | nil =>
    rw [received,List.map_nil,List.append_nil] at h
    exact nextCall_error (onByte_overflow h)
  | cons byte bytes ih =>
    by_cases hsize : 2^63 ≤ (Utf8.encode (text.chars ++ [.ofUInt8 byte])).length
    · exact nextCall_error (onByte_overflow hsize)
    · have hbyte : byte ≠ backtick := fun h => hbytes (h ▸ List.mem_cons_self)
      let next : RustString := ⟨_,lt_of_not_ge hsize⟩
      rw [List.cons_append,nextCall_none (onByte_collect hbyte (rfl : next.chars = _))]
      refine ih ?_ fun h => hbytes (List.mem_cons_of_mem _ h)
      rwa [received,List.map_cons,List.append_cons text.chars] at h

/-- The keys are ASCII: reading bytes as characters neither hides nor makes one. -/
theorem contains_received {key : List Char} (hkey : received (Utf8.encode key) = key) :
    contains (received bytes) key = decide (Utf8.encode key <:+: bytes) := by
  rw [contains]
  conv_lhs => rw [← hkey]
  exact decide_eq_decide.mpr (map_infix_map_iff ofUInt8_injective)

theorem received_payloadKey : received (Utf8.encode payloadKey) = payloadKey := by decide

theorem received_commandKey : received (Utf8.encode commandKey) = commandKey := by decide

/-- A message that the task is to save as a file. -/
structure Payload (message : List UInt8) : Prop where
  opening : message.head? = some 0x7B
  unbroken : backtick ∉ message
  payload : Utf8.encode payloadKey <:+: message
  noCommand : ¬Utf8.encode commandKey <:+: message

/-- From an idle task, the message and its backtick lead to saving just the message. -/
def SavesExactly (build : Profile) (s : Option NvmeController) (task : GenesisTask)
    (message rest : List UInt8) : Prop :=
  ∃ task' filename data s', nextCall build task (message ++ backtick::rest) s =
    .ok (task',some (.saveFile filename data,rest)) s' ∧ data.bytes = message

variable {task : GenesisTask} {message : List UInt8}

/-- The opening byte starts a fresh buffer, whatever was received before. -/
theorem nextCall_open (hidle : task.receivingJson = false) (htext : text.chars = ['{']) :
    nextCall build task (0x7B::rest) s = nextCall build ⟨text,true,task.payloadCount⟩ rest s := by
  have hopen : Char.ofUInt8 0x7B = '{' := rfl
  have hpush : RustString.empty.push (Char.ofUInt8 0x7B) = .ok text := RustString.push_ok htext
  apply nextCall_none
  rw [onByte,if_pos ⟨hopen,hidle⟩,hpush]
  rfl

/-- A message that a `String` holds is what is handed to `onMessage`. -/
theorem nextCall_message (hidle : task.receivingJson = false) (h : Payload message)
    (htext : text.chars = received message)
    (hfit : (Utf8.encode (text.chars ++ ['`'])).length < 2^63) :
    nextCall build task (message ++ backtick::rest) s =
      (onMessage build text task.payloadCount >>= afterMessage build rest) s := by
  obtain ⟨body,rfl⟩ : ∃ body, message = 0x7B::body := List.head?_eq_some_iff.mp h.opening
  have hsplit : text.chars = ['{'] ++ received body := htext
  obtain ⟨start,hstart⟩ := RustString.exists_prefix hsplit
  have hbody : backtick ∉ body := fun hmem => h.unbroken (List.mem_cons_of_mem _ hmem)
  calc nextCall build task ((0x7B::body) ++ backtick::rest) s
    _ = nextCall build ⟨start,true,task.payloadCount⟩ (body ++ backtick::rest) s :=
      nextCall_open hidle hstart
    _ = nextCall build ⟨text,true,task.payloadCount⟩ (backtick::rest) s :=
      nextCall_collect hbody (hstart ▸ hsplit)
    _ = _ := nextCall_close hfit

theorem nextCall_message_overflow (hidle : task.receivingJson = false) (h : Payload message)
    (hsize : 2^63 ≤ (Utf8.encode (received message ++ ['`'])).length) :
    nextCall build task (message ++ backtick::rest) s =
      .error (.panic (.explicit "capacity overflow")) s := by
  obtain ⟨body,rfl⟩ : ∃ body, message = 0x7B::body := List.head?_eq_some_iff.mp h.opening
  let start : RustString := ⟨['{'],by decide⟩
  have hbody : backtick ∉ body := fun hmem => h.unbroken (List.mem_cons_of_mem _ hmem)
  calc nextCall build task ((0x7B::body) ++ backtick::rest) s
    _ = nextCall build ⟨start,true,task.payloadCount⟩ (body ++ backtick::rest) s :=
      nextCall_open hidle rfl
    _ = _ := nextCall_overflow hsize hbody

/-- What is saved is the text as a `String` holds it, under the first free name. -/
theorem onMessage_payload (h : Payload message) (htext : text.chars = received message) :
    (¬Exhausted build s payloadCount ∧ ∃ count s', onMessage build text payloadCount s =
      .ok (count,some (.saveFile (payloadName count) text.asBytes)) s') ∨
    (Exhausted build s payloadCount ∧ ∃ s',
      onMessage build text payloadCount s = .error (.panic .overflow) s') := by
  have hcommand : ¬contains text.chars commandKey = true := by
    rw [htext,contains_received received_commandKey,decide_eq_true_eq]
    exact h.noCommand
  have hpayload : contains text.chars payloadKey = true := by
    rw [htext,contains_received received_payloadKey,decide_eq_true_eq]
    exact h.payload
  rw [onMessage,if_neg hcommand,if_pos hpayload]
  rcases searchName_total build s payloadCount with ⟨hroom,count,k,hsearch⟩ | ⟨hfull,k,hsearch⟩
  · exact .inl ⟨hroom,count,_,by rw [bind_ok hsearch]; rfl⟩
  · exact .inr ⟨hfull,_,bind_error hsearch⟩

/-- What is handed to `save_file` is the UTF-8 encoding of the bytes as characters. -/
theorem data_of_nextCall (hidle : task.receivingJson = false) (h : Payload message)
    {task' : GenesisTask} {filename : List Char} {data : Slice} {s' : Option NvmeController}
    (hcall : nextCall build task (message ++ backtick::rest) s =
      .ok (task',some (.saveFile filename data,rest)) s') :
    data.bytes = Utf8.encode (received message) ∧
      (Utf8.encode (received message ++ ['`'])).length < 2^63 ∧
      ¬Exhausted build s task.payloadCount := by
  by_cases hsize : 2^63 ≤ (Utf8.encode (received message ++ ['`'])).length
  · rw [nextCall_message_overflow hidle h hsize] at hcall
    cases hcall
  · have hfit := lt_of_not_ge hsize
    let full : RustString := ⟨_,hfit⟩
    obtain ⟨text,htext⟩ := RustString.exists_prefix (t := full) rfl
    rw [nextCall_message hidle h htext (htext ▸ hfit)] at hcall
    rcases onMessage_payload h htext with ⟨hroom,count,t,hmsg⟩ | ⟨hfull,t,hmsg⟩
    · rw [bind_ok hmsg] at hcall
      cases hcall
      exact ⟨congrArg Utf8.encode htext,hfit,hroom⟩
    · rw [bind_error hmsg] at hcall
      cases hcall

/-- `{"payload":"e"}`, without and with an accent on its letter. -/
def plainMessage : List UInt8 := Utf8.encode "\x7b\"payload\":\"e\"\x7d".toList

def accentedMessage : List UInt8 := Utf8.encode "\x7b\"payload\":\"é\"\x7d".toList

theorem not_exhausted_blankDrive (build : Profile) (payloadCount : Int32) :
    ¬Exhausted build (some blankDrive) payloadCount := by
  rintro ⟨_,k,_,hall⟩
  obtain ⟨_,⟨⟩,_,h⟩ := hall 0 (Nat.zero_le k)
  rw [show blankDrive.blocks 0 = .zero from rfl,lookup_zero] at h
  cases h

end GenesisTask
end PolymorphOS
