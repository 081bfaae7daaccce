import PolymorphOS.MfsIsolation
import PolymorphOS.PlainFiles
import PolymorphOS.RustText

/-! The terminal's two file commands. SAVE stores the words that follow the name as they are, READ
asks for an MDO header and shows what is behind it. -/
namespace PolymorphOS

open Kernel Mfs RustStr

/-- The arms of `execute_command` that reach a file, with their argument. -/
inductive FileCommand
  | save (arg1 : List Char)
  | read (arg1 : List Char)
  deriving DecidableEq

namespace Terminal

/-- The match on the first word. Upper-casing follows the tables of Unicode; nothing here depends on
what it does. -/
def fileCommand (toUppercase : List Char → List Char) (inputBuffer : List Char) :
    Option FileCommand :=
  let parts := splitWhitespace (toUppercase (trim inputBuffer))
  let cmd := parts.getD 0 []
  let arg1 := parts.getD 1 []
  if cmd = "SAVE".toList then some (.save arg1)
  else if cmd = "READ".toList then some (.read arg1)
  else none

/-- The words of the input behind the command and the name, as they were typed. -/
def content (inputBuffer : List Char) : List Char :=
  List.intercalate [' '] ((splitWhitespace inputBuffer).drop 2)

def terminalContext : MdoContext := ⟨repeatedHash 0xAA,MdoVm.zeroHash,MdoVm.zeroHash,0⟩

def savingOut (arg1 : List Char) : List Char := "Saving file: '".toList ++ (arg1 ++ "'\n".toList)

def okOut : List Char := "  [OK] File saved to MFS.\n".toList

def readingOut (arg1 : List Char) : List Char := "Reading file: '".toList ++ (arg1 ++ "'\n".toList)

def contentOut (text : List Char) : List Char := "  -> CONTENTS: ".toList ++ (text ++ ['\n'])

def errOut (e : String) : List Char := "  [FAIL] ".toList ++ (e.toList ++ ['\n'])

/-- The file's bytes up to the first zero, as text. -/
def shownText (data : List UInt8) : List Char :=
  (Utf8.decode (data.takeWhile (· != 0))).getD "[CORRUPT]".toList

/-- The `Result` of a call, to be matched on; a panic still ends everything. -/
def result {A : Type} (call : Kernel A) : Kernel (Except String A) := fun s =>
  match call s with
  | .ok a s => .ok (.ok a) s
  | .error (.err e) s => .ok (.error e) s
  | .error (.panic cause) s => .error (.panic cause) s

/-- What the arm prints, on the screen and on the serial line. -/
def exec (build : Profile) (inputBuffer : List Char) : FileCommand → Kernel (List (List Char))
  | .save arg1 =>
    if arg1 ≠ [] then do
      let payload ← ofPanic (RustString.ofChars (content inputBuffer))
      match ← result (saveFile build arg1 payload.asBytes) with
      | .ok () => return [savingOut arg1,okOut]
      | .error e => return [savingOut arg1,errOut e]
    else return ["Usage: SAVE <FILENAME> <CONTENT>\n".toList]
  | .read arg1 =>
    if arg1 ≠ [] then do
      match ← result (readFile build arg1 terminalContext) with
      | .ok data => return [readingOut arg1,contentOut (shownText data)]
      | .error e => return [readingOut arg1,errOut e]
    else return ["Usage: READ <FILENAME>\n".toList]

/-- `execute_command` takes one of the two arms, and this is its output. -/
def Prints (build : Profile) (toUppercase : List Char → List Char) (inputBuffer : List Char)
    (s : Option NvmeController) (out : List (List Char)) (s' : Option NvmeController) : Prop :=
  ∃ c, fileCommand toUppercase inputBuffer = some c ∧ exec build inputBuffer c s = .ok out s'

variable {build : Profile} {toUppercase : List Char → List Char} {arg1 inputBuffer text : List Char}
  {s s' : Option NvmeController}

theorem contentOut_injective : Function.Injective contentOut := by
  intro a b h
  exact List.append_cancel_right (List.append_cancel_left h)

theorem contentOut_ne_errOut (text : List Char) (e : String) : contentOut text ≠ errOut e := by
  intro h
  unfold contentOut errOut at h
  simp at h

theorem okOut_ne_errOut (e : String) : okOut ≠ errOut e := by
  intro h
  unfold okOut errOut at h
  simp at h

theorem result_ok_iff {A : Type} {call : Kernel A} {r : Except String A} :
    result call s = .ok r s' ↔
      (∃ a, r = .ok a ∧ call s = .ok a s') ∨ ∃ e, r = .error e ∧ call s = .error (.err e) s' := by
  unfold result
  cases hcall : call s with
  | ok a t =>
    constructor
    · rintro ⟨⟩
      exact .inl ⟨a,rfl,rfl⟩
    · rintro (⟨_,rfl,⟨⟩⟩ | ⟨_,_,h⟩)
      · rfl
      · cases h
  | error fault t =>
    cases fault with
    | err e =>
      constructor
      · rintro ⟨⟩
        exact .inr ⟨e,rfl,rfl⟩
      · rintro (⟨_,_,h⟩ | ⟨_,rfl,⟨⟩⟩)
        · cases h
        · rfl
    | panic cause =>
      refine iff_of_false (fun h => nomatch h) ?_
      rintro (⟨_,_,h⟩ | ⟨_,_,h⟩) <;> cases h

/-- SAVE reports success only of a save that succeeded. -/
theorem saveFile_of_exec (h : exec build inputBuffer (.save arg1) s = .ok [savingOut arg1,okOut] s') :
    arg1 ≠ [] ∧ ∃ payload : RustString, payload.chars = content inputBuffer ∧
      saveFile build arg1 payload.asBytes s = .ok () s' := by
  rw [exec] at h
  split at h
  · rename_i hne
    obtain ⟨payload,_,hjoin,hrest⟩ := bind_ok_iff.mp h
    obtain ⟨hpayload,rfl⟩ := ofPanic_iff.mp hjoin
    obtain ⟨r,_,hresult,hreport⟩ := bind_ok_iff.mp hrest
    refine ⟨hne,payload,RustString.ofChars_chars hpayload,?_⟩
    rcases result_ok_iff.mp hresult with ⟨_,rfl,hsave⟩ | ⟨e,rfl,_⟩
    · cases hreport
      exact hsave
    · injection hreport with hout
      simp only [List.cons.injEq,and_true,true_and] at hout
      exact absurd hout.symm (okOut_ne_errOut e)
  · injection h with hout
    simp at hout

/-- What READ shows is the text of what it read. -/
theorem exec_read_iff (hne : arg1 ≠ []) :
    (∃ s', exec build inputBuffer (.read arg1) s = .ok [readingOut arg1,contentOut text] s') ↔
      ∃ data, (∃ s', readFile build arg1 terminalContext s = .ok data s') ∧ shownText data = text := by
  rw [exec,if_pos hne]
  constructor
  · rintro ⟨s',h⟩
    obtain ⟨r,_,hresult,hreport⟩ := bind_ok_iff.mp h
    rcases result_ok_iff.mp hresult with ⟨data,rfl,hread⟩ | ⟨e,rfl,_⟩
    · injection hreport with hout
      simp only [List.cons.injEq,and_true,true_and] at hout
      exact ⟨data,⟨_,hread⟩,contentOut_injective hout⟩
    · injection hreport with hout
      simp only [List.cons.injEq,and_true,true_and] at hout
      exact absurd hout.symm (contentOut_ne_errOut text e)
  · rintro ⟨data,⟨s',hread⟩,rfl⟩
    refine ⟨s',?_⟩
    rw [bind_ok (result_ok_iff.mpr (.inl ⟨data,rfl,hread⟩))]
    rfl

theorem prints_save (hc : fileCommand toUppercase inputBuffer = some (.save arg1)) (hne : arg1 ≠ [])
    {payload : RustString} (htext : payload.chars = content inputBuffer)
    (h : saveFile build arg1 payload.asBytes s = .ok () s') :
    Prints build toUppercase inputBuffer s [savingOut arg1,okOut] s' := by
  have hjoin : RustString.ofChars (content inputBuffer) = .ok payload := by
    rw [← htext]
    exact dif_pos payload.size_lt
  refine ⟨_,hc,?_⟩
  rw [exec,if_pos hne,hjoin,bind_ok (ofPanic_ok _ s),
    bind_ok (result_ok_iff.mpr (.inl ⟨(),rfl,h⟩))]
  rfl

theorem prints_read_error (hc : fileCommand toUppercase inputBuffer = some (.read arg1))
    (hne : arg1 ≠ []) {e : String}
    (h : readFile build arg1 terminalContext s = .error (.err e) s') :
    Prints build toUppercase inputBuffer s [readingOut arg1,errOut e] s' := by
  refine ⟨_,hc,?_⟩
  rw [exec,if_pos hne,bind_ok (result_ok_iff.mpr (.inr ⟨e,rfl,h⟩))]
  rfl

/-- Where the name leads once the data is saved under it: to a file that starts outside the blocks
just written, and lets the terminal in. -/
structure OlderFile (build : Profile) (d : NvmeController) (filename : List Char) (data : Slice)
    (start : UInt64) (entry : FileEntry) (offset : ℕ) : Prop where
  next : nextLba build (listed d) = .ok start
  found : lookup (mftBlock (listed d ++ [⟨filename,start,blocksNeeded data⟩])) filename = some entry
  offTable : entry.startLba ≠ 0
  unwritten : (blocksNeeded data).toNat ≤ (entry.startLba - start).toNat
  granted : gate (d.blocks entry.startLba) terminalContext = .ok offset
  legible : Legible build (saved d filename start data) entry

/-- That file happens to hold the same text. -/
def OlderFileShows (build : Profile) (d : NvmeController) (filename text : List Char) : Prop :=
  ∃ (data : Slice) (start : UInt64) (entry : FileEntry) (offset : ℕ),
    data.bytes = Utf8.encode text ∧ OlderFile build d filename data start entry offset ∧
    shownText (payload (saved d filename start data) entry offset) = text

/-- After a SAVE that reports success, READ shows what was typed exactly if the name leads to an
older file with just this text: never because of the file that was saved. -/
theorem read_shows_saved_iff (build : Profile) (toUppercase : List Char → List Char)
    (d : NvmeController) (s' : Option NvmeController) (filename saveInput readInput : List Char)
    (hsave : fileCommand toUppercase saveInput = some (.save filename))
    (hread : fileCommand toUppercase readInput = some (.read filename))
    (hnul : '\x00' ∉ content saveInput)
    (hok : Prints build toUppercase saveInput (some d) [savingOut filename,okOut] s') :
    (∃ s'', Prints build toUppercase readInput s'
      [readingOut filename,contentOut (content saveInput)] s'') ↔
    OlderFileShows build d filename (content saveInput) := by
  obtain ⟨c,hc,hexec⟩ := hok
  obtain rfl : c = .save filename := Option.some.inj (hc.symm.trans hsave)
  obtain ⟨hne,text,htext,hsaved⟩ := saveFile_of_exec hexec
  obtain ⟨_,start,⟨⟩,hnext,rfl⟩ := saveFile_saved hsaved
  have hbytes : text.asBytes.bytes = Utf8.encode (content saveInput) := congrArg Utf8.encode htext
  have hzero : 0 ∉ text.asBytes.bytes := by
    rw [hbytes]
    exact Utf8.zero_not_mem_encode hnul
  have hprints : ∀ s out, (∃ s'', Prints build toUppercase readInput s out s'') ↔
      ∃ s'', exec build readInput (.read filename) s = .ok out s'' := by
    intro s out
    constructor
    · rintro ⟨s'',c,hc,h⟩
      obtain rfl : c = .read filename := Option.some.inj (hc.symm.trans hread)
      exact ⟨s'',h⟩
    · rintro ⟨s'',h⟩
      exact ⟨s'',_,hread,h⟩
  rw [hprints,exec_read_iff hne]
  constructor
  · rintro ⟨data,hdata,hshown⟩
    obtain ⟨entry,offset,hfound,hgate,hlegible,rfl⟩ := readFile_iff.mp hdata
    obtain ⟨hlba,hunwritten⟩ := unwritten_of_gate hzero hgate
    rw [saved_blocks_zero] at hfound
    rw [saved_blocks_other hlba hunwritten] at hgate
    exact ⟨text.asBytes,start,entry,offset,hbytes,⟨hnext,hfound,hlba,hunwritten,hgate,hlegible⟩,hshown⟩
  · rintro ⟨data,start',entry,offset,hdata,hold,hshown⟩
    obtain rfl : data = text.asBytes := Slice.ext (hdata.trans hbytes.symm)
    obtain rfl : start = start' := Except.ok.inj (hnext.symm.trans hold.next)
    refine ⟨_,readFile_iff.mpr ⟨entry,offset,?_,?_,hold.legible,rfl⟩,hshown⟩
    · rw [saved_blocks_zero]
      exact hold.found
    · rw [saved_blocks_other hold.offTable hold.unwritten]
      exact hold.granted

/-- Upper-casing, as it is on ASCII. -/
def asciiUppercase (s : List Char) : List Char := s.map Char.toUpper

def saveLine : List Char := "save a.txt HELLO".toList

def readLine : List Char := "read a.txt".toList

/-- A drive with an empty file `a.txt` that anybody may read. -/
def openDrive : NvmeController :=
  ⟨fun lba => if lba = 0 then mftBlock [⟨"a.txt".toList,1,1⟩] else openBlock,fun _ => 0,[]⟩

theorem openDrive_healthy : openDrive.Healthy := fun _ => show (0 : UInt16) >>> 1 = 0 by decide

theorem openDrive_blocks_one : openDrive.blocks 1 = openBlock := rfl

theorem listed_openDrive : listed openDrive = [⟨"a.txt".toList,1,1⟩] := by
  have hblock : openDrive.blocks 0 = mftBlock [⟨"a.txt".toList,1,1⟩] := rfl
  rw [listed,hblock]
  exact parseMft_mftBlock_of_clean (by unfold AllClean; decide) (by decide)

theorem shownText_zero (bytes : List UInt8) : shownText (0::bytes) = [] := by
  have hempty : Utf8.decode [] = some [] := Utf8.decode_encode []
  have hcut : (0::bytes).takeWhile (· != 0) = [] := rfl
  rw [shownText,hcut,hempty]
  rfl

theorem openDrive_older : OlderFileShows .dev openDrive "A.TXT".toList [] := by
  let data : Slice := RustString.empty.asBytes
  have hgate : gate openBlock terminalContext = .ok (128 + bytecodeLen openBlock) := by
    refine gate_ok fun hdenied => ?_
    obtain ⟨offset,hopen⟩ := gate_openBlock terminalContext
    exact denied_iff.mp hdenied _ hopen
  have hstale : (saved openDrive "A.TXT".toList 2 data).blocks 1 = openBlock := by
    rw [saved_blocks_other (by decide) (by decide),openDrive_blocks_one]
  have hhealthy : (saved openDrive "A.TXT".toList 2 data).Healthy := openDrive_healthy.of_status rfl
  have hlen : bytecodeLen openBlock = 1 := by decide
  have hpadding : openBlock.1.drop 129 = List.replicate 3967 0 := by
    have hsize : (mdoMagic ++ List.replicate 72 0 ++ [1,0,0,0] ++ List.replicate 48 0 ++
        [MdoVm.opHaltOk]).length = 129 := by simp [mdoMagic]
    rw [openBlock,Block.ofData_bytes (by omega),List.drop_left' hsize,hsize]
  refine ⟨data,2,⟨"a.txt".toList,1,1⟩,128 + bytecodeLen openBlock,rfl,
    ⟨?_,?_,by decide,by decide,?_,?_⟩,?_⟩
  · rw [listed_openDrive]
    rfl
  · rw [listed_openDrive,lookup_mftBlock (by unfold AllClean; decide) (by decide)]
    decide
  · rw [openDrive_blocks_one]
    exact hgate
  · exact ⟨.inl (by decide),fun j hlo hhi => absurd hhi (Nat.not_lt.mpr hlo),
      fun j _ => hhealthy _⟩
  · rw [payload,hstale,hlen,hpadding]
    exact shownText_zero _

/-- `SAVE A.TXT` without any content, and what READ shows is the empty file that was there. -/
theorem older_file_shown : ∃ s' s'',
    Prints .dev asciiUppercase "save a.txt".toList (some openDrive) [savingOut "A.TXT".toList,okOut] s' ∧
    Prints .dev asciiUppercase readLine s' [readingOut "A.TXT".toList,contentOut []] s'' := by
  have hsave : fileCommand asciiUppercase "save a.txt".toList = some (.save "A.TXT".toList) := by decide
  have hread : fileCommand asciiUppercase readLine = some (.read "A.TXT".toList) := by decide
  have hne : "A.TXT".toList ≠ [] := by decide
  have hfresh : "A.TXT".toList ∉ names (listed openDrive) := by
    rw [listed_openDrive]
    decide
  have hin : (Call.save "A.TXT".toList RustString.empty.asBytes).InRange (listed openDrive) := by
    rw [listed_openDrive]
    exact ⟨by decide,by decide⟩
  have hcontent : content "save a.txt".toList = [] := by decide
  obtain ⟨d',hrun,_⟩ := save_succeeds .dev openDrive_healthy hfresh hin
  have hok := prints_save hsave hne hcontent.symm hrun
  obtain ⟨s'',hshown⟩ := (read_shows_saved_iff .dev asciiUppercase openDrive _ "A.TXT".toList
    "save a.txt".toList readLine hsave hread (by decide) hok).mpr (hcontent ▸ openDrive_older)
  exact ⟨_,s'',hok,hcontent ▸ hshown⟩

/-- The first file of a new drive: saved, and refused. -/
theorem first_file_refused : '\x00' ∉ content saveLine ∧
    ∃ s', Prints .dev asciiUppercase saveLine (some blankDrive) [savingOut "A.TXT".toList,okOut] s' ∧
    (∃ s'', Prints .dev asciiUppercase readLine s' [readingOut "A.TXT".toList,
      errOut "Not a valid MDO file. Zero-Trust Access Denied."] s'') ∧
    ¬∃ s'', Prints .dev asciiUppercase readLine s'
      [readingOut "A.TXT".toList,contentOut (content saveLine)] s'' := by
  have hsave : fileCommand asciiUppercase saveLine = some (.save "A.TXT".toList) := by decide
  have hread : fileCommand asciiUppercase readLine = some (.read "A.TXT".toList) := by decide
  have hne : "A.TXT".toList ≠ [] := by decide
  let text : RustString := ⟨content saveLine,by decide⟩
  obtain ⟨d',hrun,hreach,hd',hlisted⟩ := save_first .dev "A.TXT".toList text.asBytes (by decide)
    ⟨by decide,by decide⟩ (by decide)
  obtain ⟨_,start,⟨⟩,hnext,hsaved⟩ := saveFile_saved hrun
  rw [listed_blankDrive] at hnext
  obtain rfl : 1 = start := Except.ok.inj hnext
  obtain ⟨_,_,hr⟩ := history_refines hreach
  have hlook : lookup (d'.blocks 0) "A.TXT".toList =
      some ⟨"A.TXT".toList,1,blocksNeeded text.asBytes⟩ := by
    rw [lookup_listed hr.intact,hlisted]
    decide
  have hgate : gate (d'.blocks 1) terminalContext =
      .error "Not a valid MDO file. Zero-Trust Access Denied." := by
    rw [Option.some.inj hsaved,saved_blocks_chunk (by decide) (by decide)]
    exact if_pos (by decide)
  have hrefused := prints_read_error hread hne (readFile_denied .dev hd' hlook hgate)
  refine ⟨by decide,some d',prints_save hsave hne rfl hrun,⟨_,hrefused⟩,?_⟩
  rintro ⟨s'',c,hc,hexec⟩
  obtain ⟨_,hc',hexec'⟩ := hrefused
  obtain rfl := Option.some.inj (hc.symm.trans hc')
  injection hexec.symm.trans hexec' with hout
  simp only [List.cons.injEq,and_true,true_and] at hout
  exact contentOut_ne_errOut _ _ hout

end Terminal
end PolymorphOS
