import PolymorphOS.GenesisTask
import PolymorphOS.TextBuffer

/-! `process_keystroke`: a line is typed into the top-most window, edited with the backspace key, and
run as a command by Enter; the same command may come over the serial line instead. -/
namespace PolymorphOS

open Kernel Mfs RustStr VirtioPci

namespace Terminal

section

variable (build : Profile) (toUppercase : List Char → List Char) (answers : PciFunction)

def processKeystroke (win : TextWindow) (c : Char) : Kernel TextWindow :=
  if c = '\x08' then return {win with inputBuffer := win.inputBuffer.dropLast}
  else if c = '\n' ∨ c = '\r' then executeCommand build toUppercase answers win
  else return {win with inputBuffer := win.inputBuffer ++ [c]}

/-- The keys that `print_keypresses` decodes, one after another, each with what the bus answers a
command that it starts. -/
def processKeystrokes (win : TextWindow) (keys : List (Char × PciFunction)) : Kernel TextWindow :=
  keys.foldlM (fun win key => processKeystroke build toUppercase key.2 win key.1) win

end

/-! ### The editor -/

/-- The key that ends a line. -/
def isEnter (c : Char) : Bool := c = '\n' ∨ c = '\r'

/-- The line after some keys, none of them Enter. -/
def edit (line keys : List Char) : List Char :=
  keys.foldl (fun line c => if c = '\x08' then line.dropLast else line ++ [c]) line

/-- The lines that some keys amount to; only the last is not run yet. -/
def editedLines (line keys : List Char) : List (List Char) :=
  match keys.splitOnP isEnter with
  | [] => []
  | first::more => edit line first :: more.map (edit [])

/-- Text without a backspace is typed as it is. -/
theorem edit_text {text : List Char} (h : '\x08' ∉ text) (line : List Char) :
    edit line text = line ++ text := by
  induction text generalizing line with
  | nil => rw [List.append_nil]; rfl
  | cons c text ih =>
    have hc : c ≠ '\x08' := fun hc => h (hc ▸ List.mem_cons_self)
    rw [edit,List.foldl_cons,if_neg hc,← edit,ih fun hmem => h (List.mem_cons_of_mem _ hmem),
      List.append_assoc]
    rfl

theorem edit_append (line keys more : List Char) :
    edit line (keys ++ more) = edit (edit line keys) more := List.foldl_append

/-- What was typed by mistake is erased by as many backspaces. -/
theorem edit_typo {typo : List Char} (h : '\x08' ∉ typo) (line : List Char) :
    edit line (typo ++ List.replicate typo.length '\x08') = line := by
  rw [edit_append,edit_text h]
  induction typo using List.reverseRecOn with
  | nil => exact List.append_nil line
  | append_singleton typo c ih =>
    have htypo : '\x08' ∉ typo := fun hmem => h (List.mem_append_left _ hmem)
    rw [List.length_append,List.length_singleton,List.replicate_succ,edit,List.foldl_cons,if_pos rfl,
      ← List.append_assoc,List.dropLast_concat]
    exact ih htypo

/-- The lines that were ended, each with the key that ended it. -/
def enteredLines (line : List Char) (keys : List (Char × PciFunction)) :
    List (List Char × PciFunction) :=
  (editedLines line (keys.map Prod.fst)).dropLast.zip
    ((keys.filter fun key => isEnter key.1).map Prod.snd)

/-- Commands run one after another; the text they leave. -/
def runCommands (build : Profile) (toUppercase : List Char → List Char) (textBuffer : List Char)
    (inputs : List (List Char × PciFunction)) : Kernel (List Char) :=
  inputs.foldlM (fun textBuffer input => do
    return (← executeCommand build toUppercase input.2 ⟨textBuffer,input.1⟩).textBuffer) textBuffer

theorem editedLines_nil (line : List Char) : editedLines line [] = [line] := rfl

theorem editedLines_enter {c : Char} (h : isEnter c) (line keys : List Char) :
    editedLines line (c::keys) = line :: editedLines [] keys := by
  obtain ⟨first,more,hkeys⟩ := List.exists_cons_of_ne_nil (List.splitOnP_ne_nil isEnter keys)
  rw [editedLines,editedLines,List.splitOnP_cons_eq_if_modifyHead,if_pos h,hkeys]
  rfl

theorem editedLines_key {c : Char} (h : ¬isEnter c) (line keys : List Char) :
    editedLines line (c::keys) = editedLines (edit line [c]) keys := by
  obtain ⟨first,more,hkeys⟩ := List.exists_cons_of_ne_nil (List.splitOnP_ne_nil isEnter keys)
  rw [editedLines,editedLines,List.splitOnP_cons_eq_if_modifyHead,if_neg h,hkeys]
  rfl

/-- A line that is typed to its end. -/
theorem editedLines_line {c : Char} {keys : List Char} (hkeys : ∀ c ∈ keys, isEnter c = false)
    (h : isEnter c) (line more : List Char) :
    editedLines line (keys ++ c::more) = edit line keys :: editedLines [] more := by
  obtain ⟨first,rest,hmore⟩ := List.exists_cons_of_ne_nil (List.splitOnP_ne_nil isEnter more)
  rw [editedLines,editedLines,List.splitOnP_append_cons_of_forall_mem hkeys c h,hmore]
  rfl

theorem editedLines_ne_nil (line keys : List Char) : editedLines line keys ≠ [] := by
  obtain ⟨first,more,hkeys⟩ := List.exists_cons_of_ne_nil (List.splitOnP_ne_nil isEnter keys)
  rw [editedLines,hkeys]
  exact List.cons_ne_nil _ _

section

variable {build : Profile} {toUppercase : List Char → List Char} {answers : PciFunction}
  {win : TextWindow} {c : Char}

theorem processKeystroke_key (h : ¬isEnter c) :
    processKeystroke build toUppercase answers win c =
      pure {win with inputBuffer := edit win.inputBuffer [c]} := by
  have hne : ¬(c = '\n' ∨ c = '\r') := by simpa [isEnter] using h
  rw [processKeystroke]
  by_cases hc : c = '\x08'
  · rw [if_pos hc,edit,List.foldl_cons,if_pos hc]
    rfl
  · rw [if_neg hc,if_neg hne,edit,List.foldl_cons,if_neg hc]
    rfl

theorem processKeystroke_enter (h : isEnter c) :
    processKeystroke build toUppercase answers win c =
      executeCommand build toUppercase answers win := by
  have henter : c = '\n' ∨ c = '\r' := by simpa [isEnter] using h
  have hc : c ≠ '\x08' := by
    rintro rfl
    exact absurd henter (by decide)
  rw [processKeystroke,if_neg hc,if_pos henter]

/-- A command leaves no input behind. -/
theorem executeCommand_input : executeCommand build toUppercase answers win = (do
    return ⟨(← executeCommand build toUppercase answers win).textBuffer,[]⟩) := by
  rw [executeCommand]
  simp only [bind_assoc,pure_bind]

theorem processKeystrokes_cons (key : Char × PciFunction) (keys : List (Char × PciFunction)) :
    processKeystrokes build toUppercase win (key::keys) =
      processKeystroke build toUppercase key.2 win key.1 >>= fun win =>
        processKeystrokes build toUppercase win keys := List.foldlM_cons

theorem runCommands_cons (textBuffer : List Char) (input : List Char × PciFunction)
    (inputs : List (List Char × PciFunction)) :
    runCommands build toUppercase textBuffer (input::inputs) = (do
      let win ← executeCommand build toUppercase input.2 ⟨textBuffer,input.1⟩
      runCommands build toUppercase win.textBuffer inputs) := by
  rw [runCommands,List.foldlM_cons,bind_assoc]
  simp only [pure_bind,runCommands]

end

theorem enteredLines_enter {key : Char × PciFunction} (h : isEnter key.1) (line : List Char)
    (keys : List (Char × PciFunction)) :
    enteredLines line (key::keys) = (line,key.2) :: enteredLines [] keys := by
  obtain ⟨first,more,hlines⟩ :=
    List.exists_cons_of_ne_nil (editedLines_ne_nil [] (keys.map Prod.fst))
  rw [enteredLines,enteredLines,List.map_cons,editedLines_enter h,hlines,List.filter_cons,if_pos h,
    List.dropLast_cons_of_ne_nil (List.cons_ne_nil _ _)]
  rfl

theorem enteredLines_key {key : Char × PciFunction} (h : ¬isEnter key.1) (line : List Char)
    (keys : List (Char × PciFunction)) :
    enteredLines line (key::keys) = enteredLines (edit line [key.1]) keys := by
  rw [enteredLines,enteredLines,List.map_cons,editedLines_key h,List.filter_cons,if_neg h]

/-- Whatever is typed: each Enter runs the line as it was edited since the last one, and what was
typed after the last Enter is left in the window. -/
theorem keystrokes_run (build : Profile) (toUppercase : List Char → List Char) (win : TextWindow)
    (keys : List (Char × PciFunction)) :
    processKeystrokes build toUppercase win keys = (do
      let textBuffer ← runCommands build toUppercase win.textBuffer
        (enteredLines win.inputBuffer keys)
      return ⟨textBuffer,(editedLines win.inputBuffer (keys.map Prod.fst)).getLastD []⟩) := by
  induction keys generalizing win with
  | nil => rfl
  | cons key keys ih =>
    rw [processKeystrokes_cons,List.map_cons]
    by_cases hkey : isEnter key.1
    · obtain ⟨first,more,hlines⟩ :=
        List.exists_cons_of_ne_nil (editedLines_ne_nil [] (keys.map Prod.fst))
      rw [processKeystroke_enter hkey,executeCommand_input,editedLines_enter hkey,
        enteredLines_enter hkey,runCommands_cons]
      simp only [bind_assoc,pure_bind]
      refine bind_congr fun win' => ?_
      rw [ih,hlines]
      rfl
    · rw [processKeystroke_key hkey,pure_bind,editedLines_key hkey,enteredLines_key hkey]
      exact ih _

/-! ### The same command over the serial line -/

theorem trim_newline (s : List Char) : trim (s ++ ['\n']) = trim s := by
  rw [trim,trim]
  by_cases h : s.dropWhile isWhitespace = []
  · rw [List.dropWhile_append,h]
    rfl
  · rw [List.dropWhile_append,if_neg (by simpa using h)]
    exact List.rdropWhile_concat_pos _ _ _ (by decide)

theorem splitWhitespace_newline (s : List Char) :
    splitWhitespace (s ++ ['\n']) = splitWhitespace s := by
  rw [splitWhitespace,List.splitOnP_append_cons s [] (by decide),List.filter_append]
  exact List.append_nil _

section

variable (build : Profile) (toUppercase : List Char → List Char) (answers : PciFunction)

/-- What a command adds to the text behind its echo; `none` where CLEAR empties it. -/
def commandBody (inputBuffer : List Char) : Kernel (Option (List Char)) := do
  let parts := splitWhitespace (toUppercase (trim inputBuffer))
  let cmd := parts.getD 0 []
  let arg1 := parts.getD 1 []
  if cmd = [] then return some []
  else if cmd = "CLEAR".toList then return none
  else
    let out ← armOut build answers cmd arg1 inputBuffer
    return some out

/-- The end of `execute_command`: the echo of the input and the output go to the text. -/
def showCommand (textBuffer inputBuffer : List Char) (body : Option (List Char)) :
    Kernel TextWindow := do
  let out := body.map (("genesis> ".toList ++ inputBuffer) ++ ·)
  return ⟨← ofPanic (trimText (extend textBuffer out)),[]⟩

end

section

variable {build : Profile} {toUppercase : List Char → List Char} {answers : PciFunction}

theorem executeCommand_eq (textBuffer inputBuffer : List Char) :
    executeCommand build toUppercase answers ⟨textBuffer,inputBuffer⟩ =
      commandBody build toUppercase answers inputBuffer >>= showCommand textBuffer inputBuffer := by
  rw [executeCommand,commandOut,commandBody]
  dsimp only
  split
  · simp only [pure_bind,showCommand,Option.map_some,List.append_nil]
  · split
    · simp only [pure_bind,showCommand,Option.map_none]
    · simp only [bind_assoc,pure_bind,showCommand,Option.map_some]

/-- The newline behind a command that was sent reaches nothing but its echo. -/
theorem commandBody_newline (inputBuffer : List Char) :
    commandBody build toUppercase answers (inputBuffer ++ ['\n']) =
      commandBody build toUppercase answers inputBuffer := by
  have hexec (c : FileCommand) : exec build (inputBuffer ++ ['\n']) c = exec build inputBuffer c := by
    cases c with
    | save arg1 => rw [exec,exec,content,splitWhitespace_newline]; rfl
    | read arg1 => rfl
  have harm (cmd arg1 : List Char) : armOut build answers cmd arg1 (inputBuffer ++ ['\n']) =
      armOut build answers cmd arg1 inputBuffer := by
    simp only [armOut,hexec,splitWhitespace_newline]
  simp only [commandBody,trim_newline,harm]

end

end Terminal

namespace RustStr

/-- The first occurrence of a pattern. -/
theorem find_eq_some {s pattern : List Char} {i : ℕ} (hi : i ≤ s.length)
    (hfound : pattern <+: s.drop i) (hfirst : ∀ j < i, ¬pattern <+: s.drop j) :
    find s pattern = some i := by
  refine List.find?_range_eq_some.mpr ⟨List.isPrefixOf_iff_prefix.mpr hfound,
    List.mem_range.mpr (Nat.lt_succ_of_le hi),fun j hj => ?_⟩
  rw [Bool.not_eq_true',Bool.eq_false_iff]
  exact fun h => hfirst j hj (List.isPrefixOf_iff_prefix.mp h)

/-- A character is found where it is first. -/
theorem find_char {s t : List Char} {c : Char} (h : c ∉ s) : find (s ++ c::t) [c] = some s.length := by
  refine find_eq_some (by rw [List.length_append]; omega) ?_ fun j hj hstart => ?_
  · rw [List.drop_left]
    exact ⟨t,rfl⟩
  · rw [List.drop_append_of_le_length hj.le] at hstart
    obtain ⟨a,rest,hdrop⟩ := List.exists_cons_of_length_pos (l := s.drop j)
      (by rw [List.length_drop]; omega)
    rw [hdrop,List.cons_append,List.cons_prefix_cons] at hstart
    refine h (List.mem_of_mem_drop (i := j) ?_)
    rw [hdrop,hstart.1]
    exact List.mem_cons_self

end RustStr

namespace GenesisTask

variable {build : Profile} {s : Option NvmeController} {task : GenesisTask} {text : RustString}
  {body line rest : List UInt8}

theorem received_append (bytes more : List UInt8) :
    received (bytes ++ more) = received bytes ++ received more := List.map_append

/-- A braced message that a `String` holds is what is handed to `onMessage`. -/
theorem nextCall_braced (hidle : task.receivingJson = false) (hbody : backtick ∉ body)
    (htext : text.chars = received (0x7B::body))
    (hfit : (Utf8.encode (text.chars ++ ['`'])).length < 2^63) :
    nextCall build task ((0x7B::body) ++ backtick::rest) s =
      (onMessage build text task.payloadCount >>= afterMessage build rest) s := by
  have hsplit : text.chars = ['{'] ++ received body := htext
  obtain ⟨start,hstart⟩ := RustString.exists_prefix hsplit
  calc nextCall build task ((0x7B::body) ++ backtick::rest) s
    _ = nextCall build ⟨start,true,task.payloadCount⟩ (body ++ backtick::rest) s :=
      nextCall_open hidle hstart
    _ = nextCall build ⟨text,true,task.payloadCount⟩ (backtick::rest) s :=
      nextCall_collect hbody (hstart ▸ hsplit)
    _ = _ := nextCall_close hfit

/-- `{"command":"…"}`, as the host sends it. -/
def commandMessage (line : List UInt8) : List UInt8 :=
  Utf8.encode "\x7b\"command\":\"".toList ++ line ++ Utf8.encode "\"\x7d".toList

/-- The text between the quotes is the command. -/
theorem commandStr_message (hline : (0x22 : UInt8) ∉ line) :
    commandStr (received (commandMessage line)) = some (received line) := by
  let key := "\"command\":\"".toList
  have hopen : received (Utf8.encode "\x7b\"command\":\"".toList) = '{'::key := by decide
  have hclose : received (Utf8.encode "\"\x7d".toList) = ['"','}'] := by decide
  have htext : received (commandMessage line) = '{'::(key ++ (received line ++ '"'::['}'])) := by
    rw [commandMessage,received_append,received_append,hopen,hclose,List.append_assoc]
    rfl
  have hquote : '"' ∉ received line := by
    intro hmem
    obtain ⟨byte,hbyte,hchar⟩ := List.mem_map.mp hmem
    have hval : byte = 0x22 := ofUInt8_injective (hchar.trans (by decide))
    exact hline (hval ▸ hbyte)
  have hkey : find (received (commandMessage line)) key = some 1 := by
    rw [htext]
    refine find_eq_some (by rw [List.length_cons]; omega) ⟨_,rfl⟩ fun j hj => ?_
    obtain rfl : j = 0 := by omega
    exact fun hstart => absurd (List.cons_prefix_cons.mp hstart).1 (by decide)
  have hdrop : (received (commandMessage line)).drop (1 + 11) = received line ++ '"'::['}'] := by
    rw [htext]
    rfl
  rw [commandStr,show "\"command\":\"".toList = key from rfl,hkey]
  show ((find ((received (commandMessage line)).drop (1 + 11)) ['"']).bind fun len =>
    some (((received (commandMessage line)).drop (1 + 11)).take len)) = _
  rw [hdrop,find_char hquote,Option.bind_some,List.take_left]

theorem contains_message (line : List UInt8) :
    contains (received (commandMessage line)) commandKey = true := by
  rw [contains_received received_commandKey,decide_eq_true_eq]
  exact ⟨[0x7B],Utf8.encode ":\"".toList ++ line ++ Utf8.encode "\"\x7d".toList,by
    rw [commandMessage]
    simp only [← List.append_assoc]
    rfl⟩

/-- The message makes an idle task run the command, with a newline behind it. -/
theorem nextCall_command (hidle : task.receivingJson = false)
    (hline : ∀ byte ∈ line, byte ≠ 0x22 ∧ byte ≠ backtick)
    (hfit : (Utf8.encode (received (commandMessage line ++ [backtick]))).length < 2^63) :
    nextCall build task (commandMessage line ++ backtick::rest) s =
      .ok (⟨.empty,false,task.payloadCount⟩,
        some (.executeCommand (received line ++ ['\n']),rest)) s := by
  let body := Utf8.encode "\"command\":\"".toList ++ line ++ Utf8.encode "\"\x7d".toList
  have hmessage : commandMessage line = 0x7B::body := rfl
  have hbody : backtick ∉ body := by
    simp only [body,List.mem_append,not_or]
    exact ⟨⟨by decide,fun hmem => (hline _ hmem).2 rfl⟩,by decide⟩
  rw [received_append] at hfit
  obtain ⟨text,htext⟩ : ∃ text : RustString, text.chars = received (commandMessage line) :=
    RustString.exists_prefix (t := ⟨_,hfit⟩) rfl
  have hclose : (Utf8.encode (text.chars ++ ['`'])).length < 2^63 := htext ▸ hfit
  rw [hmessage] at htext ⊢
  rw [nextCall_braced hidle hbody htext hclose,onMessage,htext,← hmessage,contains_message,if_pos rfl,
    commandStr_message fun hmem => (hline _ hmem).1 rfl]
  rfl

end GenesisTask

namespace Terminal

open GenesisTask

end Terminal
end PolymorphOS
