import PolymorphOS.LineWrap
import PolymorphOS.Returns
import PolymorphOS.RustCore

/-! `vga_buffer.rs`: the text screen of 25 rows. What is printed goes to its last row, and a new
line moves all rows up. -/
namespace PolymorphOS

open LineWrap

/-- The discriminants count up from 0, in this order. -/
inductive Color
  | black | blue | green | cyan | red | magenta | brown | lightGray
  | darkGray | lightBlue | lightGreen | lightCyan | lightRed | pink | yellow | white
  deriving DecidableEq

structure ColorCode where
  code : UInt8
  deriving DecidableEq

def ColorCode.new (foreground background : Color) : ColorCode :=
  ⟨UInt8.ofNat background.ctorIdx <<< 4 ||| UInt8.ofNat foreground.ctorIdx⟩

structure ScreenChar where
  asciiCharacter : UInt8
  colorCode : ColorCode
  deriving DecidableEq

def bufferHeight : ℕ := 25
def bufferWidth : ℕ := 80

structure Buffer where
  chars : Vector (Vector ScreenChar bufferWidth) bufferHeight

namespace Buffer

def read (buffer : Buffer) (row col : ℕ) : Except Panic ScreenChar :=
  if hr : row < bufferHeight then
    if hc : col < bufferWidth then .ok buffer.chars[row][col] else .error .indexOutOfBounds
  else .error .indexOutOfBounds

def write (buffer : Buffer) (row col : ℕ) (character : ScreenChar) : Except Panic Buffer :=
  if hr : row < bufferHeight then
    if hc : col < bufferWidth then .ok ⟨buffer.chars.set row (buffer.chars[row].set col character)⟩
    else .error .indexOutOfBounds
  else .error .indexOutOfBounds

end Buffer

structure Writer where
  columnPosition : ℕ
  colorCode : ColorCode
  buffer : Buffer

namespace Writer

def clearRow (w : Writer) (row : ℕ) : Except Panic Writer := do
  let blank : ScreenChar := ⟨0x20,w.colorCode⟩
  let buffer ← (List.range bufferWidth).foldlM (fun buffer col => buffer.write row col blank) w.buffer
  return {w with buffer}

/-- The inner loop of `new_line`. -/
def copyRow (buffer : Buffer) (row : ℕ) : Except Panic Buffer :=
  (List.range bufferWidth).foldlM (fun buffer col => do
    let character ← buffer.read row col
    buffer.write (row - 1) col character) buffer

def newLine (w : Writer) : Except Panic Writer := do
  let buffer ← (List.range' 1 (bufferHeight - 1)).foldlM copyRow w.buffer
  let w ← {w with buffer}.clearRow (bufferHeight - 1)
  return {w with columnPosition := 0}

def writeByte (w : Writer) (byte : UInt8) : Except Panic Writer :=
  if byte = 0x0A then w.newLine
  else do
    let w ← if w.columnPosition ≥ bufferWidth then w.newLine else pure w
    let buffer ← w.buffer.write (bufferHeight - 1) w.columnPosition ⟨byte,w.colorCode⟩
    return {w with buffer,columnPosition := w.columnPosition + 1}

/-- What is shown for a byte: printable ASCII and newlines are kept. -/
def shown (byte : UInt8) : UInt8 :=
  if 0x20 ≤ byte ∧ byte ≤ 0x7E ∨ byte = 0x0A then byte else 0xFE

/-- `write_string`, of the bytes of a string. -/
def writeString (w : Writer) (s : List UInt8) : Except Panic Writer :=
  s.foldlM (fun w byte => w.writeByte (shown byte)) w

/-- `_print`: the pieces that formatting hands to `write_str`, one after another. -/
def print (w : Writer) (pieces : List (List UInt8)) : Except Panic Writer :=
  pieces.foldlM writeString w

end Writer

/-- `WRITER`, on the screen as it was before. -/
def writer (buffer : Buffer) : Writer := ⟨0,.new .yellow .black,buffer⟩

/-! ### One call -/

namespace Buffer

variable {buffer : Buffer} {row col : ℕ}

theorem read_of_lt (hr : row < bufferHeight) (hc : col < bufferWidth) :
    buffer.read row col = .ok buffer.chars[row][col] := by
  rw [read,dif_pos hr,dif_pos hc]

theorem write_returns (hr : row < bufferHeight) (hc : col < bufferWidth) (character : ScreenChar) :
    Returns (buffer.write row col character) fun b => ∀ r c, b.read r c =
      if r = row ∧ c = col then .ok character else buffer.read r c := by
  refine ⟨_,by rw [write,dif_pos hr,dif_pos hc],fun r c => ?_⟩
  by_cases hcell : r = row ∧ c = col
  · obtain ⟨rfl,rfl⟩ := hcell
    rw [if_pos ⟨rfl,rfl⟩,read_of_lt hr hc]
    simp only [Vector.getElem_set_self]
  · rw [if_neg hcell,read,read]
    split
    · split
      · by_cases hrow : row = r
        · subst hrow
          have hcol : col ≠ c := fun he => hcell ⟨rfl,he.symm⟩
          simp only [Vector.getElem_set_self,Vector.getElem_set_ne _ _ hcol]
        · simp only [Vector.getElem_set_ne _ _ hrow]
      · rfl
    · rfl

/-- The rows from the top to the bottom. -/
def rows (buffer : Buffer) : List (List ScreenChar) := buffer.chars.toList.map Vector.toList

@[simp] theorem length_rows : buffer.rows.length = bufferHeight := by
  rw [rows,List.length_map,Vector.length_toList]

theorem getElem?_rows (hr : row < bufferHeight) :
    buffer.rows[row]? = some buffer.chars[row].toList := by
  rw [rows,List.getElem?_map,List.getElem?_eq_getElem (by rwa [Vector.length_toList])]
  rfl

theorem length_of_mem_rows {cells : List ScreenChar} (h : cells ∈ buffer.rows) :
    cells.length = bufferWidth := by
  obtain ⟨row,_,rfl⟩ := List.mem_map.mp h
  exact row.length_toList

theorem length_bottom {above : List (List ScreenChar)} {bottom : List ScreenChar}
    (h : buffer.rows = above ++ [bottom]) :
    above.length = bufferHeight - 1 ∧ bottom.length = bufferWidth := by
  have hrows := buffer.length_rows
  rw [h,List.length_append,List.length_singleton] at hrows
  exact ⟨by omega,length_of_mem_rows (h ▸ List.mem_append_right _ (List.mem_singleton_self bottom))⟩

/-- A cell of a row is what is read there. -/
theorem getElem?_of_read {cells : List ScreenChar} (h : buffer.rows[row]? = some cells)
    (hc : col < bufferWidth) {character : ScreenChar} (hread : buffer.read row col = .ok character) :
    cells[col]? = some character := by
  have hr : row < bufferHeight := by
    rw [← buffer.length_rows]
    exact (List.getElem?_eq_some_iff.mp h).1
  cases Option.some.inj ((getElem?_rows hr).symm.trans h)
  rw [read_of_lt hr hc] at hread
  rw [← Except.ok.inj hread,List.getElem?_eq_getElem (by rwa [Vector.length_toList])]
  rfl

/-- The rows are what can be read, cell by cell. -/
theorem rows_eq {lines : List (List ScreenChar)} (hheight : lines.length = bufferHeight)
    (hwidth : ∀ cells ∈ lines, cells.length = bufferWidth)
    (h : ∀ r cells, lines[r]? = some cells → ∀ c < bufferWidth,
      ∃ character, cells[c]? = some character ∧ buffer.read r c = .ok character) :
    buffer.rows = lines := by
  refine List.ext_getElem? fun r => ?_
  by_cases hr : r < bufferHeight
  · obtain ⟨cells,hcells⟩ : ∃ cells, lines[r]? = some cells :=
      ⟨_,List.getElem?_eq_getElem (hheight ▸ hr)⟩
    have hlen := hwidth cells (List.mem_of_getElem? hcells)
    rw [hcells,getElem?_rows hr,Option.some_inj]
    refine List.ext_getElem? fun c => ?_
    by_cases hc : c < bufferWidth
    · obtain ⟨character,hcell,hread⟩ := h r cells hcells c hc
      rw [hcell,getElem?_of_read (getElem?_rows hr) hc hread]
    · rw [List.getElem?_eq_none (by rw [Vector.length_toList]; omega),
        List.getElem?_eq_none (by omega)]
  · rw [List.getElem?_eq_none (by rw [length_rows]; omega),List.getElem?_eq_none (by omega)]

end Buffer

/-- An empty row. -/
def blankRow (colorCode : ColorCode) : List ScreenChar :=
  List.replicate bufferWidth ⟨0x20,colorCode⟩

namespace Writer

variable {w : Writer} {buffer : Buffer} {row : ℕ}

theorem copyRow_returns (hpos : 0 < row) (hr : row < bufferHeight) :
    Returns (copyRow buffer row) fun b => ∀ r c, c < bufferWidth → b.read r c =
      if r = row - 1 then buffer.read row c else buffer.read r c := by
  have hloop : Returns (copyRow buffer row) fun b => ∀ r c, b.read r c =
      if r = row - 1 ∧ c < bufferWidth then buffer.read row c else buffer.read r c := by
    refine Returns.foldlM_range (I := fun k (b : Buffer) => ∀ r c, b.read r c =
      if r = row - 1 ∧ c < k then buffer.read row c else buffer.read r c)
      (fun k hk b hb => ?_) fun r c => (if_neg (by omega)).symm
    have hsource : b.read row k = .ok buffer.chars[row][k] := by
      rw [hb,if_neg (by omega),Buffer.read_of_lt hr hk]
    rw [hsource]
    refine (Buffer.write_returns (by omega) hk _).mono fun b' hb' r c => ?_
    rw [hb',hb]
    by_cases hcell : r = row - 1 ∧ c = k
    · rw [if_pos hcell,if_pos ⟨hcell.1,by omega⟩,hcell.2,Buffer.read_of_lt hr hk]
    · rw [if_neg hcell]
      exact if_congr (by omega) rfl rfl
  exact hloop.mono fun b hb r c hc => by simp only [hb,hc,and_true]

/-- Each row is overwritten by the one below it; the last row stays. -/
theorem copyRows_returns :
    Returns ((List.range' 1 (bufferHeight - 1)).foldlM copyRow buffer) fun b =>
      ∀ r c, c < bufferWidth → b.read r c =
        if r + 1 < bufferHeight then buffer.read (r + 1) c else buffer.read r c := by
  refine Returns.foldlM_range' (I := fun k (b : Buffer) => ∀ r c, c < bufferWidth → b.read r c =
    if r + 1 < k then buffer.read (r + 1) c else buffer.read r c)
    (fun k hk hlt b hb => ?_) fun r c _ => (if_neg (by omega)).symm
  refine (copyRow_returns hk (by omega)).mono fun b' hb' r c hc => ?_
  rw [hb' r c hc,hb k c hc,hb r c hc]
  by_cases hrow : r = k - 1
  · rw [if_pos hrow,if_neg (by omega),if_pos (by omega),show r + 1 = k by omega]
  · rw [if_neg hrow]
    exact if_congr (by omega) rfl rfl

theorem clearRow_returns (hr : row < bufferHeight) :
    Returns (w.clearRow row) fun w' => w'.colorCode = w.colorCode ∧
      ∀ r c, c < bufferWidth → w'.buffer.read r c =
        if r = row then .ok ⟨0x20,w.colorCode⟩ else w.buffer.read r c := by
  have hloop : Returns ((List.range bufferWidth).foldlM
      (fun buffer col => buffer.write row col ⟨0x20,w.colorCode⟩) w.buffer) fun b => ∀ r c,
        b.read r c = if r = row ∧ c < bufferWidth then .ok ⟨0x20,w.colorCode⟩
          else w.buffer.read r c := by
    refine Returns.foldlM_range (I := fun k (b : Buffer) => ∀ r c, b.read r c =
      if r = row ∧ c < k then .ok ⟨0x20,w.colorCode⟩ else w.buffer.read r c)
      (fun k hk b hb => ?_) fun r c => (if_neg (by omega)).symm
    refine (Buffer.write_returns hr hk _).mono fun b' hb' r c => ?_
    rw [hb',hb]
    by_cases hcell : r = row ∧ c = k
    · rw [if_pos hcell,if_pos ⟨hcell.1,by omega⟩]
    · rw [if_neg hcell]
      exact if_congr (by omega) rfl rfl
  exact hloop.bind fun b hb => Returns.pure ⟨rfl,fun r c hc => by simp only [hb,hc,and_true]⟩

theorem newLine_returns : Returns w.newLine fun w' =>
    w'.colorCode = w.colorCode ∧ w'.columnPosition = 0 ∧
      w'.buffer.rows = w.buffer.rows.tail ++ [blankRow w.colorCode] := by
  refine copyRows_returns.bind fun b hb => ?_
  refine (clearRow_returns (by decide)).bind fun w' hw' => Returns.pure ⟨hw'.1,rfl,?_⟩
  obtain ⟨_,hread⟩ := hw'
  refine Buffer.rows_eq ?_ ?_ fun r cells hcells c hc => ?_
  · rw [List.length_append,List.length_tail,Buffer.length_rows]
    rfl
  · intro row hrow
    rw [List.mem_append,List.mem_singleton] at hrow
    rcases hrow with hrow | rfl
    · exact Buffer.length_of_mem_rows (List.mem_of_mem_tail hrow)
    · exact List.length_replicate
  · have hheight : w.buffer.rows.tail.length = bufferHeight - 1 := by
      rw [List.length_tail,Buffer.length_rows]
    rw [hread r c hc,hb r c hc]
    by_cases hr : r < bufferHeight - 1
    · rw [List.getElem?_append_left (by omega),List.getElem?_tail] at hcells
      have hlt : r + 1 < bufferHeight := by omega
      have hcell : w.buffer.read (r + 1) c = _ := Buffer.read_of_lt hlt hc
      rw [if_neg (by omega),if_pos hlt]
      exact ⟨_,Buffer.getElem?_of_read hcells hc hcell,hcell⟩
    · rw [List.getElem?_append_right (by omega),List.getElem?_singleton] at hcells
      split at hcells
      · cases hcells
        rw [if_pos (by omega)]
        exact ⟨_,List.getElem?_replicate_of_lt hc,rfl⟩
      · cases hcells

/-- Writing to the last row. -/
theorem write_bottom_returns {col : ℕ} (hc : col < bufferWidth) (character : ScreenChar)
    {above : List (List ScreenChar)} {bottom : List ScreenChar}
    (h : buffer.rows = above ++ [bottom]) :
    Returns (buffer.write (bufferHeight - 1) col character) fun b =>
      b.rows = above ++ [bottom.set col character] := by
  obtain ⟨hlen,hbottom⟩ := Buffer.length_bottom h
  refine (Buffer.write_returns (by decide) hc character).mono fun b hb => ?_
  refine Buffer.rows_eq ?_ ?_ fun r cells hcells c hc' => ?_
  · rw [List.length_append,hlen]
    rfl
  · intro row hrow
    rw [List.mem_append,List.mem_singleton] at hrow
    rcases hrow with hrow | rfl
    · exact Buffer.length_of_mem_rows (h ▸ List.mem_append_left _ hrow)
    · rw [List.length_set,hbottom]
  · rw [hb]
    by_cases hr : r < bufferHeight - 1
    · rw [List.getElem?_append_left (by omega)] at hcells
      have hold : buffer.rows[r]? = some cells := by
        rw [h,List.getElem?_append_left (by omega),hcells]
      have hcell : buffer.read r c = _ := Buffer.read_of_lt (hr.trans (by decide)) hc'
      rw [if_neg (by omega)]
      exact ⟨_,Buffer.getElem?_of_read hold hc' hcell,hcell⟩
    · rw [List.getElem?_append_right (by omega),List.getElem?_singleton] at hcells
      split at hcells
      · cases hcells
        have hlast : r = bufferHeight - 1 := by omega
        by_cases hcol : c = col
        · rw [if_pos ⟨hlast,hcol⟩,hcol]
          exact ⟨_,List.getElem?_set_self (hbottom ▸ hc),rfl⟩
        · have hold : buffer.rows[r]? = some bottom := by
            rw [h,List.getElem?_append_right (by omega),hlen,hlast,Nat.sub_self]
            rfl
          have hcell : buffer.read r c = _ := Buffer.read_of_lt (hlast ▸ by decide) hc'
          rw [if_neg fun he => hcol he.2,List.getElem?_set_ne (Ne.symm hcol)]
          exact ⟨_,Buffer.getElem?_of_read hold hc' hcell,hcell⟩
      · cases hcells

end Writer

/-! ### What is on the screen -/

/-- Text on a row of the screen; what it does not cover stays as it was. -/
def fill (colorCode : ColorCode) (text : List UInt8) (under : List ScreenChar) : List ScreenChar :=
  text.map (fun byte => ⟨byte,colorCode⟩) ++ under.drop text.length

/-- The screen as it was, and below it the rows that were printed. The first of them begins on its
last row. -/
def transcript (old : List (List ScreenChar)) (colorCode : ColorCode) (lines : List (List UInt8)) :
    List (List ScreenChar) :=
  old.dropLast ++ lines.mapIdx fun i line =>
    fill colorCode line (if i = 0 then old.getLastD [] else blankRow colorCode)

/-- The last rows that fit on the screen. -/
def screenAfter (old : List (List ScreenChar)) (colorCode : ColorCode) (lines : List (List UInt8)) :
    List (List ScreenChar) := (transcript old colorCode lines).rtake bufferHeight

theorem fill_nil (colorCode : ColorCode) (under : List ScreenChar) : fill colorCode [] under = under := rfl

theorem fill_set {colorCode : ColorCode} {text : List UInt8} {under : List ScreenChar}
    (h : text.length < under.length) (byte : UInt8) :
    (fill colorCode text under).set text.length ⟨byte,colorCode⟩ =
      fill colorCode (text ++ [byte]) under := by
  rw [fill,fill,List.set_append,List.length_map,if_neg (lt_irrefl _),Nat.sub_self,
    List.drop_eq_getElem_cons h,List.set_cons_zero,List.map_append,List.append_assoc,
    List.length_append]
  rfl

/-- The row that the next line is printed on. -/
def nextRow (old : List (List ScreenChar)) (colorCode : ColorCode) (lines : List (List UInt8)) :
    List ScreenChar := if lines.length = 0 then old.getLastD [] else blankRow colorCode

section

variable {old : List (List ScreenChar)} {colorCode : ColorCode} {lines : List (List UInt8)}

theorem transcript_concat (line : List UInt8) : transcript old colorCode (lines ++ [line]) =
    transcript old colorCode lines ++ [fill colorCode line (nextRow old colorCode lines)] := by
  rw [transcript,List.mapIdx_concat,← List.append_assoc]
  rfl

theorem screenAfter_concat (line : List UInt8) : screenAfter old colorCode (lines ++ [line]) =
    (transcript old colorCode lines).rtake (bufferHeight - 1) ++
      [fill colorCode line (nextRow old colorCode lines)] := by
  rw [screenAfter,transcript_concat]
  exact List.rtake_concat_succ _ (bufferHeight - 1) _

end

namespace Writer

/-- The writer after these rows were printed on the screen of `buffer`. -/
structure Shows (buffer : Buffer) (colorCode : ColorCode) (lines : List (List UInt8)) (w : Writer) :
    Prop where
  color : w.colorCode = colorCode
  rows : w.buffer.rows = screenAfter buffer.rows colorCode lines
  column : lines.getLast?.map List.length = some w.columnPosition

variable {buffer : Buffer} {colorCode : ColorCode} {lines : List (List UInt8)} {line : List UInt8}
  {w : Writer}

theorem length_nextRow : (nextRow buffer.rows colorCode lines).length = bufferWidth := by
  have hne : buffer.rows ≠ [] := List.ne_nil_of_length_pos (by rw [Buffer.length_rows]; decide)
  rw [nextRow]
  split
  · rw [List.getLastD_eq_getLast?,List.getLast?_eq_some_getLast hne,Option.getD_some]
    exact Buffer.length_of_mem_rows (List.getLast_mem hne)
  · exact List.length_replicate

theorem length_transcript :
    (transcript buffer.rows colorCode lines).length = bufferHeight - 1 + lines.length := by
  rw [transcript,List.length_append,List.length_dropLast,Buffer.length_rows,List.length_mapIdx]

theorem newLine_shows (h : Shows buffer colorCode lines w) :
    Returns w.newLine (Shows buffer colorCode (lines ++ [[]])) := by
  refine newLine_returns.mono fun w' hw' => ?_
  obtain ⟨hcolor,hcolumn,hrows⟩ := hw'
  have hne : lines.length ≠ 0 := by
    intro h0
    have hcol := h.column
    rw [List.eq_nil_of_length_eq_zero h0] at hcol
    cases hcol
  have hlen : bufferHeight ≤ (transcript buffer.rows colorCode lines).length := by
    rw [length_transcript]
    omega
  refine ⟨hcolor.trans h.color,?_,?_⟩
  · rw [hrows,h.rows,h.color,screenAfter,tail_rtake_append (by decide) hlen,screenAfter,
      transcript_concat,nextRow,if_neg hne,fill_nil]
  · rw [List.getLast?_concat,hcolumn]
    rfl

/-- One more byte on the last row. -/
theorem write_shows (h : Shows buffer colorCode (lines ++ [line]) w)
    (hlt : line.length < bufferWidth) (byte : UInt8) :
    Returns (w.buffer.write (bufferHeight - 1) w.columnPosition ⟨byte,w.colorCode⟩) fun b =>
      Shows buffer colorCode (lines ++ [line ++ [byte]])
        ⟨w.columnPosition + 1,w.colorCode,b⟩ := by
  obtain ⟨hcolor,hrows,hcolumn⟩ := h
  rw [List.getLast?_concat] at hcolumn
  rw [← Option.some.inj hcolumn]
  rw [screenAfter_concat] at hrows
  refine (write_bottom_returns hlt ⟨byte,w.colorCode⟩ hrows).mono fun b hb => ⟨hcolor,?_,?_⟩
  · rw [hb,hcolor,fill_set (hlt.trans_eq length_nextRow.symm),screenAfter_concat]
  · rw [List.getLast?_concat,Option.map_some,List.length_append]
    rfl

theorem writeByte_shows {text : List UInt8}
    (h : Shows buffer colorCode (textRows bufferWidth 0x0A text) w) (byte : UInt8) :
    Returns (w.writeByte byte)
      (Shows buffer colorCode (textRows bufferWidth 0x0A (text ++ [byte]))) := by
  rw [writeByte]
  refine Returns.ite (fun hnewline => ?_) fun hbyte => ?_
  · rw [hnewline,textRows_newline]
    exact newLine_shows h
  · obtain ⟨lines,line,hlines⟩ := (List.eq_nil_or_concat' _).resolve_left
      (textRows_ne_nil bufferWidth 0x0A text)
    rw [hlines] at h
    have hcolumn := h.column
    rw [List.getLast?_concat] at hcolumn
    have hcolumn := Option.some.inj hcolumn
    rw [textRows_append (by decide) hbyte hlines]
    by_cases hlt : line.length < bufferWidth
    · rw [if_neg (by omega),if_pos hlt]
      exact (write_shows h hlt byte).bind fun b hb => Returns.pure hb
    · -- The row is full: the byte begins a new one.
      rw [if_pos (by omega),if_neg hlt]
      refine (newLine_shows h).bind fun w' hw' => ?_
      refine (write_shows hw' (by decide) byte).bind fun b hb => Returns.pure ?_
      rwa [List.append_assoc] at hb

theorem writeString_shows {text : List UInt8}
    (h : Shows buffer colorCode (textRows bufferWidth 0x0A text) w) (s : List UInt8) :
    Returns (w.writeString s)
      (Shows buffer colorCode (textRows bufferWidth 0x0A (text ++ s.map shown))) := by
  induction s generalizing text w with
  | nil => exact Returns.pure (by rwa [List.map_nil,List.append_nil])
  | cons byte s ih =>
    rw [writeString,List.foldlM_cons,List.map_cons,List.append_cons]
    exact (writeByte_shows h (shown byte)).bind fun w' hw' => ih hw'

theorem print_shows {text : List UInt8}
    (h : Shows buffer colorCode (textRows bufferWidth 0x0A text) w) (pieces : List (List UInt8)) :
    Returns (w.print pieces)
      (Shows buffer colorCode (textRows bufferWidth 0x0A (text ++ pieces.flatten.map shown))) := by
  induction pieces generalizing text w with
  | nil => exact Returns.pure (by rwa [List.flatten_nil,List.map_nil,List.append_nil])
  | cons piece pieces ih =>
    rw [print,List.foldlM_cons,List.flatten_cons,List.map_append,← List.append_assoc]
    exact (writeString_shows h piece).bind fun w' hw' => ih hw'

end Writer

theorem writer_shows (buffer : Buffer) :
    (writer buffer).Shows buffer (.new .yellow .black) (textRows bufferWidth 0x0A []) := by
  have hne : buffer.rows ≠ [] := List.ne_nil_of_length_pos (by rw [Buffer.length_rows]; decide)
  rw [textRows_nil]
  refine ⟨rfl,?_,rfl⟩
  rw [screenAfter,transcript,List.mapIdx_singleton,fill_nil,if_pos rfl,
    List.getLastD_eq_getLast?,List.getLast?_eq_some_getLast hne,Option.getD_some,
    List.dropLast_append_getLast hne,List.rtake,Buffer.length_rows,Nat.sub_self,List.drop_zero]
  rfl

/-- However many calls print it and in whatever pieces, the screen shows the last rows of the text,
wrapped at its width, and the next byte goes behind the last of them; nothing panics. -/
theorem screen_shows_text (buffer : Buffer) (pieces : List (List UInt8)) :
    Returns ((writer buffer).print pieces) fun w =>
      let lines := textRows bufferWidth 0x0A (pieces.flatten.map Writer.shown)
      w.buffer.rows = screenAfter buffer.rows (.new .yellow .black) lines ∧
        lines.getLast?.map List.length = some w.columnPosition :=
  (Writer.print_shows (writer_shows buffer) pieces).mono fun _ hw => ⟨hw.rows,hw.column⟩

/-- `test_println_output`, after anything that was printed and for every line that fits. -/
theorem println_output (buffer : Buffer) (pieces : List (List UInt8)) (s : List UInt8)
    (hs : ∀ byte ∈ s, 0x20 ≤ byte ∧ byte ≤ 0x7E) (hlen : s.length ≤ bufferWidth) :
    Returns ((writer buffer).print (pieces ++ [[0x0A],s,[0x0A]])) fun w =>
      w.buffer.rows[bufferHeight - 2]? =
        some (fill (.new .yellow .black) s (blankRow (.new .yellow .black))) := by
  have hshown : s.map Writer.shown = s := List.map_congr_left (fun byte hbyte =>
    if_pos (.inl (hs byte hbyte))) |>.trans s.map_id
  have hnewline : (0x0A : UInt8) ∉ s := fun hmem => absurd (hs _ hmem).1 (by decide)
  have htext : (pieces ++ [[0x0A],s,[0x0A]]).flatten.map Writer.shown =
      pieces.flatten.map Writer.shown ++ 0x0A :: (s ++ [0x0A]) := by
    rw [List.flatten_append,List.map_append]
    simp only [List.flatten_cons,List.flatten_nil,List.append_nil,List.map_append,hshown]
    rfl
  refine (screen_shows_text buffer _).mono fun w hw => ?_
  rw [hw.1,htext,textRows_append_newline,textRows_newline,textRows_line hnewline hlen,
    ← List.append_assoc,screenAfter_concat,transcript_concat,nextRow,
    if_neg (by simpa using textRows_ne_nil bufferWidth 0x0A _)]
  show (List.rtake _ (bufferHeight - 2 + 1) ++ _)[bufferHeight - 2]? = _
  have hrows : (List.rtake (transcript buffer.rows (.new .yellow .black)
      (textRows bufferWidth 0x0A (pieces.flatten.map Writer.shown))) (bufferHeight - 2)).length =
        bufferHeight - 2 := by
    rw [List.rtake,List.length_drop,Writer.length_transcript]
    omega
  rw [List.rtake_concat_succ,List.append_assoc,List.getElem?_append_right hrows.le,hrows,Nat.sub_self]
  rfl

end PolymorphOS
