import PolymorphOS.Terminal
import PolymorphOS.VirtioPci

/-! The text of a window: what commands and log messages add to it, and the first 500 bytes that
each call drops from a text of more than 2000. -/
namespace PolymorphOS

open Kernel Mfs RustStr VirtioPci

/-- `String::len`, in bytes. -/
def byteLen (s : List Char) : ℕ := (Utf8.encode s).length

namespace Terminal

/-- The text fields of a window. -/
structure TextWindow where
  textBuffer : List Char
  inputBuffer : List Char

def spawn (id : UInt32) : TextWindow :=
  ⟨"Instance ".toList ++ Nat.toDigits 10 id.toNat ++ " Instantiated.\n".toList,[]⟩

/-- `{:0width$X}`. -/
def formatHex (width n : ℕ) : List Char :=
  let digits := (Nat.toDigits 16 n).map Char.toUpper
  List.replicate (width - digits.length) '0' ++ digits

section

variable (answers : PciFunction)

def probeDeviceToString (bus slot func : UInt8) : ConfigAccess (List Char) := do
  let word0 ← pciReadWord answers bus slot func 0x00
  let vendorId := word0 &&& 0xFFFF
  let deviceId := word0 >>> 16
  let word2 ← pciReadWord answers bus slot func 0x08
  let classCode := (word2 >>> 24) &&& 0xFF
  let subclass := (word2 >>> 16) &&& 0xFF
  let name :=
    if classCode = 0x01 ∧ subclass = 0x08 then "NVMe Controller"
    else if vendorId = 0x8086 ∧ deviceId = 0x100E then "Intel E1000 Gigabit Network"
    else if vendorId = 0x8086 ∧ deviceId = 0x1237 then "Intel Host Bridge"
    else if classCode = 0x03 ∧ subclass = 0x00 then "VGA Compatible Controller"
    else "Unknown Device"
  return "  -> Bus ".toList ++ formatHex 2 bus.toNat ++ ", Slot ".toList ++
    formatHex 2 slot.toNat ++ ", Func ".toList ++ Nat.toDigits 10 func.toNat ++
    " | Ven: ".toList ++ formatHex 4 vendorId.toNat ++ ", Dev: ".toList ++ formatHex 4 deviceId.toNat ++
    '[' :: (name.toList ++ "]\n".toList)

/-- The text for one slot: its functions 1 to 7 only where the header says there are any. -/
def scanSlot (bus slot : UInt8) : ConfigAccess (List Char) := do
  let vendor := (← pciReadWord answers bus slot 0 0) &&& 0xFFFF
  if vendor = 0xFFFF then return []
  else
    let output ← probeDeviceToString answers bus slot 0
    let headerType := ((← pciReadWord answers bus slot 0 0x0C) >>> 16) &&& 0xFF
    if headerType &&& 0x80 ≠ 0 then
      let functions ← [1,2,3,4,5,6,7].mapM fun func => do
        if (← pciReadWord answers bus slot func 0) &&& 0xFFFF ≠ 0xFFFF then
          probeDeviceToString answers bus slot func
        else return []
      return output ++ functions.flatten
    else return output

def scanPciDynamic : ConfigAccess (List Char) := do
  let slots := (List.range 256).flatMap fun bus => (List.range 32).map fun slot => (bus,slot)
  let found ← slots.mapM fun (bus,slot) => scanSlot answers (.ofNat bus) (.ofNat slot)
  return "[MICT: MAP] Initiating Dynamic PCIe Radar...\n".toList ++ found.flatten ++
    "[MICT: MAP] Dynamic Scan Complete.\n".toList

end

def helpText : List Char :=
  ("Available Commands:\n  CLEAR     - Wipes the terminal screen\n" ++
    "  SCAN      - Ex: 'SCAN PCI'. Enumerates hardware.\n" ++
    "  PING      - Ex: 'PING NVME'. Checks storage.\n" ++
    "  SAVE      - Ex: 'SAVE FILE.TXT'. Allocates a block.\n" ++
    "  READ      - Ex: 'READ FILE.TXT'. Fetches a block.\n").toList

/-- One line of LIST. -/
def entryOut (entry : FileEntry) : List Char :=
  "  - ".toList ++ entry.name ++ " (".toList ++ formatU64 entry.blockCount ++
    " blocks at LBA ".toList ++ formatU64 entry.startLba ++ ")\n".toList

def listOut : Kernel (List Char) := do
  let out := "Listing files in root directory:\n".toList
  match ← result readMft with
  | .ok entries =>
    let emptyOut := if entries.isEmpty then "  (No files found)\n".toList else []
    return out ++ emptyOut ++ entries.flatMap entryOut
  | .error e => return out ++ "  [FAIL] Could not read MFT: ".toList ++ (e.toList ++ ['\n'])

section

variable (build : Profile) (toUppercase : List Char → List Char) (answers : PciFunction)

/-- What the arm of the command adds to the text. The packets that PING and ARP send, and the line
that REQUEST writes to the serial port, leave the text alone. -/
def armOut (cmd arg1 inputBuffer : List Char) : Kernel (List Char) :=
  if cmd = "HELP".toList then pure helpText
  else if cmd = "SCAN".toList then
    if arg1 = "PCI".toList then do
      let (out,_) ← ofPanic (scanPciDynamic answers ⟨[],[]⟩)
      return out
    else pure "Usage: SCAN PCI\n".toList
  else if cmd = "PING".toList then
    if arg1 = "NVME".toList then pure []
    else if arg1 = "ROUTER".toList then pure "[MICT] Forging ICMP Echo Request...\n".toList
    else pure "Usage: PING[NVME | ROUTER]\n".toList
  else if cmd = "ARP".toList then
    pure "[MICT] Broadcasting ARP Request to Virtual Router...\n".toList
  else if cmd = "SAVE".toList then List.flatten <$> exec build inputBuffer (.save arg1)
  else if cmd = "READ".toList then List.flatten <$> exec build inputBuffer (.read arg1)
  else if cmd = "LIST".toList then listOut
  else if cmd = "REQUEST".toList then
    if List.intercalate [' '] ((splitWhitespace inputBuffer).drop 1) ≠ [] then
      pure "Sending Request to Agentic Gateway...\n".toList
    else pure "Usage: REQUEST <PROMPT>\n".toList
  else pure ("Command not recognized: '".toList ++ (cmd ++ "'\n".toList))

/-- What a command adds to the text, its echo included; `none` where CLEAR empties it. -/
def commandOut (inputBuffer : List Char) : Kernel (Option (List Char)) := do
  let rawInput := toUppercase (trim inputBuffer)
  let echo := "genesis> ".toList ++ inputBuffer
  let parts := splitWhitespace rawInput
  let cmd := parts.getD 0 []
  let arg1 := parts.getD 1 []
  if cmd = [] then return some echo
  else if cmd = "CLEAR".toList then return none
  else
    let out ← armOut build answers cmd arg1 inputBuffer
    return some (echo ++ out)

/-- The text with the output behind it. -/
def extend (textBuffer : List Char) : Option (List Char) → List Char
  | none => []
  | some out => textBuffer ++ out

/-- The step against long texts. -/
def trimText (textBuffer : List Char) : Except Panic (List Char) :=
  if byteLen textBuffer > 2000 then drainFront 500 textBuffer else .ok textBuffer

def executeCommand (win : TextWindow) : Kernel TextWindow := do
  let out ← commandOut build toUppercase answers win.inputBuffer
  let textBuffer ← ofPanic (trimText (extend win.textBuffer out))
  return ⟨textBuffer,[]⟩

/-- A log message reaches the top-most window. -/
def logTo (win : TextWindow) (s : List Char) : Except Panic TextWindow := do
  let textBuffer ← trimText (win.textBuffer ++ s)
  return { win with textBuffer }

/-- `SplatEngine::write_str`. -/
def writeStr (windows : List TextWindow) (s : List Char) : Except Panic (List TextWindow) :=
  match windows.getLast? with
  | none => .ok windows
  | some win => do return windows.dropLast ++ [← logTo win s]

theorem writeStr_concat (windows : List TextWindow) (win : TextWindow) (s : List Char) :
    writeStr (windows ++ [win]) s = (logTo win s).map fun win => windows ++ [win] := by
  rw [writeStr,List.getLast?_concat,List.dropLast_concat]
  show (do return windows ++ [← logTo win s]) = _
  cases logTo win s <;> rfl

end

/-- What is appended to a window's text: a command, over the drive and the bus that it finds, or a
message. -/
inductive TextCall
  | executeCommand (inputBuffer : List Char) (answers : PciFunction)
      (drive : Option NvmeController)
  | writeStr (s : List Char)

/-- What a kernel call comes to, without the drive it leaves behind. -/
def outcome {A : Type} : EStateM.Result Fault (Option NvmeController) A → Except Fault A
  | .ok a _ => .ok a
  | .error e _ => .error e

namespace TextCall

variable (build : Profile) (toUppercase : List Char → List Char)

/-- What the call adds to a text; `none` where it empties it. -/
def output : TextCall → Except Fault (Option (List Char))
  | .executeCommand inputBuffer answers drive =>
    outcome (commandOut build toUppercase answers inputBuffer drive)
  | .writeStr s => .ok (some s)

/-- The text after the call. -/
def exec (textBuffer : List Char) : TextCall → Except Fault (List Char)
  | .executeCommand inputBuffer answers drive => (outcome
      (Terminal.executeCommand build toUppercase answers ⟨textBuffer,inputBuffer⟩ drive)).map
        TextWindow.textBuffer
  | .writeStr s => ((logTo ⟨textBuffer,[]⟩ s).mapError .panic).map TextWindow.textBuffer

variable {build toUppercase} {call : TextCall} {textBuffer : List Char} {out : Option (List Char)}

/-- Both ways to append end in the same step. -/
theorem exec_eq (h : call.output build toUppercase = .ok out) :
    call.exec build toUppercase textBuffer =
      (trimText (extend textBuffer out)).mapError .panic := by
  cases call with
  | executeCommand inputBuffer answers drive =>
    rw [output] at h
    cases hout : commandOut build toUppercase answers inputBuffer drive with
    | error e drive' =>
      rw [hout] at h
      cases h
    | ok _ drive' =>
      rw [hout] at h
      cases h
      rw [exec,Terminal.executeCommand,bind_ok hout]
      cases trimText (extend textBuffer out) <;> rfl
  | writeStr s =>
    cases h
    rw [exec,logTo,extend]
    cases trimText (textBuffer ++ s) <;> rfl

end TextCall

/-- A text of more than 2000 bytes is cut in front of a character. -/
def Cuttable (textBuffer : List Char) : Prop :=
  byteLen textBuffer ≤ 2000 ∨ ∃ b, (Utf8.encode textBuffer)[500]? = some b ∧ b.IsUTF8FirstByte

theorem trimText_of_le {textBuffer : List Char} (h : byteLen textBuffer ≤ 2000) :
    trimText textBuffer = .ok textBuffer := if_neg (Nat.not_lt.mpr h)

theorem trimText_of_lt {textBuffer rest : List Char} (h : 2000 < byteLen textBuffer) :
    trimText textBuffer = .ok rest ↔ dropBytes 500 textBuffer = some rest := by
  rw [trimText,if_pos h,drainFront]
  cases dropBytes 500 textBuffer <;> simp

theorem cuttable_of_lt {textBuffer : List Char} (h : 2000 < byteLen textBuffer) :
    Cuttable textBuffer ↔ (dropBytes 500 textBuffer).isSome := by
  have hlen : 500 ≠ (Utf8.encode textBuffer).length := by
    rw [byteLen] at h
    omega
  rw [isSome_dropBytes_iff,IsCharBoundary,Cuttable,or_iff_right (Nat.not_le.mpr h),
    or_iff_right hlen]

theorem mapError_eq_ok {A : Type} {x : Except Panic A} {a : A} :
    x.mapError Fault.panic = .ok a ↔ x = .ok a := by
  cases x <;> simp [Except.mapError]

/-- A call's last step does not panic, and leaves a suffix of the text, exactly if a text of more
than 2000 bytes has the first byte of a character at 500. -/
theorem trimming_safe_iff (build : Profile) (toUppercase : List Char → List Char) (call : TextCall)
    (textBuffer : List Char) (out : Option (List Char))
    (hout : call.output build toUppercase = .ok out) :
    (∃ rest, call.exec build toUppercase textBuffer = .ok rest ∧ rest <:+ extend textBuffer out) ↔
      Cuttable (extend textBuffer out) := by
  simp only [TextCall.exec_eq hout,mapError_eq_ok]
  by_cases hlong : 2000 < byteLen (extend textBuffer out)
  · simp only [trimText_of_lt hlong,cuttable_of_lt hlong,Option.isSome_iff_exists]
    constructor
    · rintro ⟨rest,hrest,_⟩
      exact ⟨rest,hrest⟩
    · rintro ⟨rest,hrest⟩
      exact ⟨rest,hrest,(dropBytes_eq_some hrest).1⟩
  · have hle := Nat.not_lt.mp hlong
    exact iff_of_true ⟨_,trimText_of_le hle,List.suffix_rfl⟩ (.inl hle)

theorem trimming_safe_message : ∃ rest,
    (TextCall.writeStr ['a']).exec .dev asciiUppercase [] = .ok rest ∧ rest <:+ ['a'] :=
  (trimming_safe_iff .dev asciiUppercase (.writeStr ['a']) [] (some ['a']) rfl).mpr
    (.inl (by decide))

/-- The text after each of the calls. -/
def history (build : Profile) (toUppercase : List Char → List Char) :
    List Char → List TextCall → Except Fault (List (List Char))
  | _, [] => .ok []
  | textBuffer, call::calls => do
    let textBuffer ← call.exec build toUppercase textBuffer
    return textBuffer :: (← history build toUppercase textBuffer calls)

/-- What the call adds to the text does not take it beyond 2500 bytes. -/
def TextCall.Fits (build : Profile) (toUppercase : List Char → List Char) (textBuffer : List Char)
    (call : TextCall) : Prop :=
  ∀ out, call.output build toUppercase = .ok (some out) → byteLen textBuffer + byteLen out ≤ 2500

section

variable {build : Profile} {toUppercase : List Char → List Char} {call : TextCall}
  {textBuffer rest : List Char}

theorem byteLen_append (s t : List Char) : byteLen (s ++ t) = byteLen s + byteLen t := by
  rw [byteLen,Utf8.encode_append,List.length_append]
  rfl

/-- The step takes 500 bytes off, once. -/
theorem byteLen_trimText_le_iff (h : trimText textBuffer = .ok rest) :
    byteLen rest ≤ 2000 ↔ byteLen textBuffer ≤ 2500 := by
  by_cases hlong : 2000 < byteLen textBuffer
  · have hlen := (dropBytes_eq_some ((trimText_of_lt hlong).mp h)).2
    rw [byteLen] at hlong ⊢
    rw [byteLen]
    omega
  · rw [trimText_of_le (Nat.not_lt.mp hlong)] at h
    cases h
    omega

/-- Before it trims, a call has done all it may fail at but the trimming. -/
theorem TextCall.output_of_exec (h : call.exec build toUppercase textBuffer = .ok rest) :
    ∃ out, call.output build toUppercase = .ok out := by
  cases call with
  | writeStr s => exact ⟨_,rfl⟩
  | executeCommand inputBuffer answers drive =>
    rw [output]
    cases hout : commandOut build toUppercase answers inputBuffer drive with
    | ok out drive' => exact ⟨out,rfl⟩
    | error e drive' =>
      rw [exec,Terminal.executeCommand,bind_error hout] at h
      cases h

theorem TextCall.byteLen_exec_le_iff (h : call.exec build toUppercase textBuffer = .ok rest) :
    byteLen rest ≤ 2000 ↔ call.Fits build toUppercase textBuffer := by
  obtain ⟨out,hout⟩ := call.output_of_exec h
  rw [call.exec_eq hout,mapError_eq_ok] at h
  rw [byteLen_trimText_le_iff h,Fits]
  cases out with
  | none =>
    refine iff_of_true (Nat.zero_le _) fun out hsome => ?_
    cases hout.symm.trans hsome
  | some out =>
    rw [extend,byteLen_append]
    refine ⟨fun hle out' hout' => ?_,fun hfits => hfits out hout⟩
    cases hout.symm.trans hout'
    exact hle

theorem history_cons {text : List Char} {texts : List (List Char)} {calls : List TextCall}
    (hexec : call.exec build toUppercase textBuffer = .ok text)
    (hrest : history build toUppercase text calls = .ok texts) :
    history build toUppercase textBuffer (call::calls) = .ok (text::texts) := by
  rw [history,hexec]
  show (return text :: (← history build toUppercase text calls)) = Except.ok (text::texts)
  rw [hrest]
  rfl

theorem history_cons_inv {texts : List (List Char)} {calls : List TextCall}
    (h : history build toUppercase textBuffer (call::calls) = .ok texts) :
    ∃ text rest, call.exec build toUppercase textBuffer = .ok text ∧
      history build toUppercase text calls = .ok rest ∧ texts = text::rest := by
  obtain ⟨text,hexec,hcalls⟩ := bind_inv h
  obtain ⟨rest,hrest,hpure⟩ := bind_inv hcalls
  exact ⟨text,rest,hexec,hrest,(Except.ok.inj hpure).symm⟩

end

/-- Short calls keep a short text short. -/
theorem history_bounded_of_short {build : Profile} {toUppercase : List Char → List Char}
    {textBuffer : List Char} {calls : List TextCall} {texts : List (List Char)}
    (hshort : ∀ call ∈ calls, ∀ out, TextCall.output build toUppercase call = .ok (some out) →
      byteLen out ≤ 500)
    (htext : byteLen textBuffer ≤ 2000)
    (h : history build toUppercase textBuffer calls = .ok texts) :
    ∀ text ∈ texts, byteLen text ≤ 2000 := by
  induction calls generalizing textBuffer texts with
  | nil =>
    cases h
    simp
  | cons call calls ih =>
    obtain ⟨text,rest,hexec,hrest,rfl⟩ := history_cons_inv h
    rw [List.forall_mem_cons] at hshort ⊢
    have hnext : byteLen text ≤ 2000 := (call.byteLen_exec_le_iff hexec).mpr fun out hout =>
      Nat.add_le_add htext (hshort.1 out hout)
    exact ⟨hnext,ih hshort.2 hnext hrest⟩

/-- A command of blanks does nothing but echo. -/
theorem commandOut_blank {build : Profile} {toUppercase : List Char → List Char}
    {answers : PciFunction} {inputBuffer : List Char} {drive : Option NvmeController}
    (hup : toUppercase [] = []) (hblank : ∀ c ∈ inputBuffer, isWhitespace c = true) :
    commandOut build toUppercase answers inputBuffer drive =
      .ok (some ("genesis> ".toList ++ inputBuffer)) drive := by
  have htrim : trim inputBuffer = [] := by
    rw [trim,List.dropWhile_eq_nil_iff.mpr hblank]
    rfl
  rw [commandOut,htrim,hup]
  rfl

/-- In ASCII text, bytes count characters. -/
theorem dropBytes_ascii {n : ℕ} {p : List Char} (hascii : ∀ c ∈ p, c.utf8Size = 1) (s : List Char) :
    dropBytes (p.length + n) (p ++ s) = dropBytes n s := by
  induction p with
  | nil => rw [List.length_nil,Nat.zero_add,List.nil_append]
  | cons c p ih =>
    obtain ⟨hc,hp⟩ := List.forall_mem_cons.mp hascii
    rw [List.length_cons,Nat.add_right_comm,List.cons_append,dropBytes,hc,if_pos (by omega),
      Nat.add_sub_cancel]
    exact ih hp

theorem byteLen_ascii {s : List Char} (hascii : ∀ c ∈ s, c.utf8Size = 1) :
    byteLen s = s.length := by
  induction s with
  | nil => rfl
  | cons c s ih =>
    obtain ⟨hc,hs⟩ := List.forall_mem_cons.mp hascii
    rw [byteLen,Utf8.encode_cons,List.length_append,String.length_utf8EncodeChar,hc,
      List.length_cons,Nat.add_comm,← ih hs]
    rfl

/-- As long as only ASCII is ever printed, the step does not fail. -/
theorem cuttable_of_ascii {textBuffer : List Char} (hascii : ∀ c ∈ textBuffer, c.utf8Size = 1) :
    Cuttable textBuffer := by
  by_cases hlong : 2000 < byteLen textBuffer
  · have hlen := byteLen_ascii hascii
    have hdrop := dropBytes_ascii (n := 0)
      (fun c hc => hascii c (List.mem_of_mem_take (i := 500) hc)) (textBuffer.drop 500)
    rw [List.take_append_drop,List.length_take_of_le (by omega),Nat.add_zero] at hdrop
    rw [cuttable_of_lt hlong,hdrop,dropBytes_zero]
    rfl
  · exact .inl (Nat.not_lt.mp hlong)

/-- 465 blanks, the no-break space, which takes two bytes, and 1600 more blanks. -/
def noBreakSpace : List Char := List.replicate 465 ' ' ++ '\u00A0' :: List.replicate 1600 ' '

/-- What they are appended to in a new window. -/
def newPrompt : List Char := (spawn 1).textBuffer ++ "genesis> ".toList

theorem newPrompt_ascii (n : ℕ) : ∀ c ∈ newPrompt ++ List.replicate n ' ', c.utf8Size = 1 := by
  have hprompt : newPrompt.all fun c => c.utf8Size = 1 := by decide
  rw [List.forall_mem_append]
  refine ⟨fun c hc => of_decide_eq_true (List.all_eq_true.mp hprompt c hc),fun c hc => ?_⟩
  rw [List.eq_of_mem_replicate hc]
  rfl

theorem isWhitespace_replicate (n : ℕ) : ∀ c ∈ List.replicate n ' ', isWhitespace c = true := by
  intro c hc
  rw [List.eq_of_mem_replicate hc]
  rfl

/-- In a new window, byte 500 is the second one of the no-break space. -/
theorem noBreakSpace_panics : ¬∀ build toUppercase call textBuffer out,
    TextCall.output build toUppercase call = .ok out →
    ∃ rest, call.exec build toUppercase textBuffer = .ok rest ∧ rest <:+ extend textBuffer out := by
  intro h
  let call : TextCall := .executeCommand noBreakSpace (fun _ => 0) none
  have hblank : ∀ c ∈ noBreakSpace, isWhitespace c = true := by
    rw [noBreakSpace,List.forall_mem_append,List.forall_mem_cons]
    exact ⟨isWhitespace_replicate 465,rfl,isWhitespace_replicate 1600⟩
  have hout : call.output .dev asciiUppercase =
      .ok (some ("genesis> ".toList ++ noBreakSpace)) := by
    rw [TextCall.output,commandOut_blank rfl hblank]
    rfl
  obtain ⟨rest,hrest,_⟩ := h .dev asciiUppercase call (spawn 1).textBuffer _ hout
  have htext : extend (spawn 1).textBuffer (some ("genesis> ".toList ++ noBreakSpace)) =
      (newPrompt ++ List.replicate 465 ' ') ++ '\u00A0' :: List.replicate 1600 ' ' := by
    simp only [extend,noBreakSpace,newPrompt,List.append_assoc]
  have hlong : 2000 < byteLen ((newPrompt ++ List.replicate 465 ' ') ++
      '\u00A0' :: List.replicate 1600 ' ') := by
    refine lt_of_lt_of_le ?_ (Utf8.encode_length_ge _)
    simp only [List.length_append,List.length_cons,List.length_replicate]
    omega
  rw [TextCall.exec_eq hout,mapError_eq_ok,htext,trimText_of_lt hlong] at hrest
  have hdrop := dropBytes_ascii (n := 1) (newPrompt_ascii 465) ('\u00A0' :: List.replicate 1600 ' ')
  have hlen : (newPrompt ++ List.replicate 465 ' ').length + 1 = 500 := by
    rw [List.length_append,List.length_replicate]
    rfl
  rw [hlen,hrest] at hdrop
  cases hdrop

/-- A command of 2500 blanks. -/
def blanks : List Char := List.replicate 2500 ' '

end Terminal
end PolymorphOS
