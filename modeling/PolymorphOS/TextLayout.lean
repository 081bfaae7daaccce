import PolymorphOS.LineWrap
import PolymorphOS.TextBuffer
import PolymorphOS.WindowDrag

/-! The text in a window: `render_text` counts the rows that the text takes up, and then draws as
many of the last ones as there is room for. -/
namespace PolymorphOS

open Terminal LineWrap

/-- `BASIC_LEGACY`: eight rows of eight pixels for each code below 128. -/
abbrev Font := Vector (Vector UInt8 8) 128

/-- The block behind the input. -/
def cursorBlock : Char := Char.ofNat 0x2588

def glyph (font : Font) (c : Char) : Option (Vector UInt8 8) :=
  if h : c.toNat < 128 then some font[c.toNat] else none

/-- In the text, the block is a glyph of its own. -/
def bitmap (font : Font) (c : Char) : Option (Vector UInt8 8) :=
  if c = cursorBlock then some (Vector.replicate 8 255) else glyph font c

/-- The columns `x` with `row & (1 << x) != 0`. -/
def litColumns (row : UInt8) : List ℕ :=
  (List.range 8).filter fun x => row &&& (1 <<< UInt8.ofNat x) ≠ 0

def drawBitmap (cx cy : ℤ) (r g b : UInt8) (bitmap : Option (Vector UInt8 8)) :
    Except Panic (List DrawCall) :=
  match bitmap with
  | none => return []
  | some bitmap => do
    let rows ← bitmap.toList.zipIdx.mapM fun (row,y) => (litColumns row).mapM fun (x : ℕ) => do
      return DrawCall.drawPixel (← i32 (cx + x)) (← i32 (cy + y)) r g b
    return rows.flatten

/-- Where the next character goes, and how many rows have to be skipped before. -/
structure Pen where
  cx : ℤ
  cy : ℤ
  skipLines : ℕ
  charCount : ℕ
  drawn : List DrawCall

/-- `if skip_lines > 0 { skip_lines -= 1; } else { cy += 12; }` -/
def Pen.advance (pen : Pen) : Except Panic Pen :=
  if pen.skipLines > 0 then return {pen with skipLines := pen.skipLines - 1}
  else do return {pen with cy := ← i32 (pen.cy + 12)}

namespace SemanticWindow

def maxCharsPerLine (win : SemanticWindow) : Except Panic ℕ := do
  return (max (← divI32 (← i32 (win.w - 60)) 8) 1).toNat

def maxLines (win : SemanticWindow) : Except Panic ℕ := do
  return (max (← divI32 (← i32 (win.h - 60)) 12) 1).toNat

/-- `total_physical_lines` -/
def countLines (maxChars : ℕ) (lines : List (List Char)) : ℕ :=
  lines.foldl (fun total line => total +
    if line.length = 0 then 1 else (line.length + maxChars - 1) / maxChars) 0

variable (font : Font) (win : SemanticWindow)

def title : List Char := "PolymorphOS Sovereign Terminal".toList

def drawTitle : Except Panic (List DrawCall) := do
  let titleX ← i32 (win.x + 30)
  let titleY ← i32 (win.y + 2)
  let (_,drawn) ← title.foldlM (fun (pen : ℤ × List DrawCall) c => do
    let pixels ← drawBitmap pen.1 titleY 180 255 255 (glyph font c)
    return (← i32 (pen.1 + 8),pen.2 ++ pixels)) (titleX,[])
  return drawn

/-- A full row is left before the next character. -/
def wrapLine (maxChars : ℕ) (pen : Pen) : Except Panic Pen :=
  if pen.charCount > 0 ∧ pen.charCount % maxChars = 0 then do
    let pen ← pen.advance
    return {pen with cx := ← i32 (win.x + 30)}
  else return pen

def putChar (pen : Pen) (c : Char) : Except Panic Pen := do
  let counted := {pen with charCount := pen.charCount + 1}
  if ← pure (decide (pen.skipLines = 0)) <&&>
      (return decide (pen.cy < (← i32 ((← i32 (win.y + win.h)) - 15)))) then
    let pixels ← drawBitmap pen.cx pen.cy 255 255 255 (bitmap font c)
    return {counted with cx := ← i32 (pen.cx + 8),drawn := pen.drawn ++ pixels}
  else return counted

def drawLine (maxChars : ℕ) (pen : Pen) (line : List Char) : Except Panic Pen := do
  let pen ← line.foldlM (fun pen c => do win.putChar font (← win.wrapLine maxChars pen) c)
    {pen with cx := ← i32 (win.x + 30),charCount := 0}
  pen.advance

/-- The history, the prompt, and the input. -/
def displayText (text : TextWindow) : List Char :=
  text.textBuffer ++ "genesis> ".toList ++ text.inputBuffer ++ [cursorBlock]

/-- The pen before the first line; `cx` is set with each line. -/
def firstPen (maxChars maxLines : ℕ) (lines : List (List Char)) : Except Panic Pen := do
  let total := countLines maxChars lines
  let skipLines := if total > maxLines then total - maxLines else 0
  return {cx := 0,cy := ← i32 (win.y + 40),skipLines := skipLines,charCount := 0,drawn := []}

/-- `render_text`: the title, and the pen after the text. -/
def drawText (text : TextWindow) : Except Panic (List DrawCall × Pen) := do
  let maxChars ← win.maxCharsPerLine
  let maxLines ← win.maxLines
  let titleDrawn ← win.drawTitle font
  let lines := (displayText text).splitOn '\n'
  let pen ← lines.foldlM (win.drawLine font maxChars) (← win.firstPen maxChars maxLines lines)
  return (titleDrawn,pen)

def renderText (text : TextWindow) : Except Panic (List DrawCall) :=
  match win.state with
  | .stable .instantiated | .stable .maximized => do
    let (titleDrawn,pen) ← win.drawText font text
    return titleDrawn ++ pen.drawn
  | _ => return []

end SemanticWindow

/-! ### The layout -/

/-- The pixels of a bitmap in a cell. -/
def bitmapPixels (cx cy : ℤ) (r g b : UInt8) (bitmap : Option (Vector UInt8 8)) : List DrawCall :=
  match bitmap with
  | none => []
  | some bitmap => bitmap.toList.zipIdx.flatMap fun (row,y) => (litColumns row).map fun (x : ℕ) =>
    .drawPixel (cx + x) (cy + y) r g b

/-- The corners of the window and the end of its title have `i32` coordinates. -/
structure SemanticWindow.Fits (win : SemanticWindow) : Prop where
  x : -2147483648 ≤ win.x ∧ win.x + 270 < 2147483648
  y : -2147483648 ≤ win.y ∧ win.y + win.h < 2147483648
  right : win.x + win.w < 2147483648
  w : win.w < 2147483648
  h : win.h < 2147483648

theorem mem_litColumns {row : UInt8} {x : ℕ} (h : x ∈ litColumns row) : x < 8 :=
  List.mem_range.mp (List.mem_of_mem_filter h)

theorem drawBitmap_returns {cx cy : ℤ} (hx : -2147483648 ≤ cx ∧ cx + 7 < 2147483648)
    (hy : -2147483648 ≤ cy ∧ cy + 7 < 2147483648) (r g b : UInt8)
    (bitmap : Option (Vector UInt8 8)) :
    Returns (drawBitmap cx cy r g b bitmap) fun drawn =>
      drawn = bitmapPixels cx cy r g b bitmap := by
  cases bitmap with
  | none => exact Returns.pure rfl
  | some bitmap =>
    refine (Returns.mapM_map (g := fun cell => (litColumns cell.1).map fun (x : ℕ) =>
      DrawCall.drawPixel (cx + x) (cy + cell.2) r g b) fun cell hcell => ?_).bind
        fun rows hrows => Returns.pure ?_
    · have hrow : cell.2 < 8 := by
        have hlt := List.snd_lt_of_mem_zipIdx hcell
        rwa [Vector.length_toList] at hlt
      refine Returns.mapM_map fun x hcolumn => ?_
      have hcolumn := mem_litColumns hcolumn
      refine Returns.bind_i32 (by omega) (by omega) ?_
      exact Returns.bind_i32 (by omega) (by omega) (Returns.pure rfl)
    · rw [hrows,bitmapPixels,List.flatMap]

namespace SemanticWindow

/-- How many characters a row has, and how many rows there are. -/
def columns (win : SemanticWindow) : ℕ := max ((win.w - 60).toNat / 8) 1

def rows (win : SemanticWindow) : ℕ := max ((win.h - 60).toNat / 12) 1

variable {font : Font} {win : SemanticWindow}

theorem maxCharsPerLine_returns (hw : 68 ≤ win.w) (hlt : win.w < 2147483648) :
    Returns win.maxCharsPerLine fun n => n = win.columns := by
  refine Returns.bind_i32 (by omega) (by omega) ?_
  refine Returns.bind_divI32 (by omega) (by omega) (by omega) fun q hq => Returns.pure ?_
  have hq := hq.nonneg (by omega)
  rw [columns]
  omega

theorem maxLines_returns (hh : 60 ≤ win.h) (hlt : win.h < 2147483648) :
    Returns win.maxLines fun n => n = win.rows := by
  refine Returns.bind_i32 (by omega) (by omega) ?_
  refine Returns.bind_divI32 (by omega) (by omega) (by omega) fun q hq => Returns.pure ?_
  have hq := hq.nonneg (by omega)
  rw [rows]
  omega

theorem columns_bounds (hw : 68 ≤ win.w) :
    0 < win.columns ∧ 8 * (win.columns : ℤ) ≤ win.w - 60 := by
  rw [columns]
  omega

/-- All rows are above the border at the bottom. -/
theorem rows_bounds (hh : 60 ≤ win.h) : 0 < win.rows ∧ 12 * (win.rows : ℤ) < win.h - 43 := by
  rw [rows]
  omega

/-- The pixels of a character in a row and a column. -/
def charPixels (font : Font) (win : SemanticWindow) (row column : ℕ) (c : Char) : List DrawCall :=
  bitmapPixels (win.x + 30 + 8 * column) (win.y + 40 + 12 * row) 255 255 255 (bitmap font c)

/-- The same for a row of the whole text, of which the first ones are skipped. -/
def placed (font : Font) (win : SemanticWindow) (skip line column : ℕ) (c : Char) :
    List DrawCall :=
  if skip ≤ line then win.charPixels font (line - skip) column c else []

/-- The pen is in this row of the whole text. -/
structure AtLine (win : SemanticWindow) (skip line : ℕ) (pen : Pen) : Prop where
  skipLines : pen.skipLines = skip - line
  cy : pen.cy = win.y + 40 + 12 * ((line - skip : ℕ) : ℤ)

/-- The pen is in this row and column, and has passed so many characters of its line. -/
structure AtColumn (win : SemanticWindow) (skip line column count : ℕ) (pen : Pen) : Prop where
  atLine : win.AtLine skip line pen
  cx : skip ≤ line → pen.cx = win.x + 30 + 8 * (column : ℤ)
  charCount : pen.charCount = count

variable {skip line column count first n k : ℕ} {pen : Pen}

section Steps

variable (hw : 68 ≤ win.w) (hh : 60 ≤ win.h) (hfits : win.Fits)

include hh hfits in
theorem nextLine_returns (h : win.AtLine skip line pen) (hroom : line < skip + win.rows) :
    Returns pen.advance fun pen' => win.AtLine skip (line + 1) pen' ∧ pen'.drawn = pen.drawn ∧
      pen'.charCount = pen.charCount := by
  obtain ⟨hskip,hcy⟩ := h
  have hrows := rows_bounds hh
  have hy := hfits.y
  refine Returns.ite (fun hpos => Returns.pure ⟨⟨?_,?_⟩,rfl,rfl⟩) fun hzero => ?_
  · dsimp only
    omega
  · dsimp only
    omega
  · refine Returns.bind_i32 (by omega) (by omega) (Returns.pure ⟨⟨?_,?_⟩,rfl,rfl⟩)
    · dsimp only
      omega
    · dsimp only
      omega

/-- Where the pen is before the check that begins a new row. -/
def AtChar (win : SemanticWindow) (skip first n : ℕ) (pen : Pen) : ℕ → Prop
  | 0 => win.AtColumn skip first 0 0 pen
  | k + 1 => win.AtColumn skip (first + k / n) (k % n + 1) (k + 1) pen

theorem div_mod_succ (n k : ℕ) :
    if (k + 1) % n = 0 then (k + 1) / n = k / n + 1
    else (k + 1) / n = k / n ∧ (k + 1) % n = k % n + 1 := by
  have hk := Nat.div_add_mod k n
  have hsucc := Nat.div_add_mod (k + 1) n
  split
  · rename_i hzero
    rw [Nat.succ_div,if_pos (Nat.dvd_of_mod_eq_zero hzero)]
  · rename_i hpos
    have hdiv : (k + 1) / n = k / n := by
      rw [Nat.succ_div,if_neg fun hdvd => hpos (Nat.mod_eq_zero_of_dvd hdvd),Nat.add_zero]
    refine ⟨hdiv,?_⟩
    rw [hdiv] at hsucc
    omega

include hh hfits in
theorem wrapLine_returns (h : win.AtChar skip first n pen k)
    (hroom : first + k / n < skip + win.rows) :
    Returns (win.wrapLine n pen) fun pen' =>
      win.AtColumn skip (first + k / n) (k % n) k pen' ∧ pen'.drawn = pen.drawn := by
  have hx := hfits.x
  cases k with
  | zero =>
    have hcount : pen.charCount = 0 := h.charCount
    refine Returns.ite (fun hwrap => absurd hwrap.1 (by omega)) fun _ => Returns.pure ⟨?_,rfl⟩
    rw [Nat.zero_div,Nat.zero_mod]
    exact h
  | succ k =>
    have hdiv := div_mod_succ n k
    have hcount : pen.charCount = k + 1 := h.charCount
    refine Returns.ite (fun hwrap => ?_) fun hwrap => ?_
    · rw [hcount] at hwrap
      rw [if_pos hwrap.2] at hdiv
      refine (nextLine_returns hh hfits h.atLine (by omega)).bind fun pen' hpen => ?_
      obtain ⟨hline,hdrawn,hcount'⟩ := hpen
      refine Returns.bind_i32 (by omega) (by omega) (Returns.pure ⟨⟨?_,fun _ => ?_,?_⟩,hdrawn⟩)
      · rw [hdiv,← Nat.add_assoc]
        exact ⟨hline.skipLines,hline.cy⟩
      · rw [hwrap.2]
        simp only [Nat.cast_zero,mul_zero,add_zero]
      · exact hcount'.trans hcount
    · have hmod : (k + 1) % n ≠ 0 := fun hzero => hwrap ⟨by omega,by rw [hcount,hzero]⟩
      rw [if_neg hmod] at hdiv
      refine Returns.pure ⟨?_,rfl⟩
      rw [hdiv.1,hdiv.2]
      exact h

include hw hh hfits in
theorem putChar_returns (hcolumn : column < win.columns)
    (h : win.AtColumn skip line column count pen) (hroom : line < skip + win.rows) (c : Char) :
    Returns (win.putChar font pen c) fun pen' =>
      win.AtColumn skip line (column + 1) (count + 1) pen' ∧
      pen'.drawn = pen.drawn ++ placed font win skip line column c := by
  obtain ⟨⟨hskip,hcy⟩,hcx,hcount⟩ := h
  have hrows := rows_bounds hh
  have hcolumns := columns_bounds hw
  have hx := hfits.x
  have hy := hfits.y
  have hright := hfits.right
  have hcounted : pen.charCount + 1 = count + 1 := congrArg (· + 1) hcount
  by_cases hvisible : skip ≤ line
  · have hzero : pen.skipLines = 0 := hskip.trans (Nat.sub_eq_zero_of_le hvisible)
    have hcx := hcx hvisible
    have hclip : Returns (return decide (pen.cy < (← i32 ((← i32 (win.y + win.h)) - 15))))
        fun b => b = true := by
      refine Returns.bind_i32 (by omega) (by omega) (Returns.bind_i32 (by omega) (by omega) ?_)
      exact Returns.pure (decide_eq_true (by omega))
    refine (Returns.and_of_true (Returns.pure (decide_eq_true hzero)) hclip).bind fun b hb => ?_
    rw [if_pos hb]
    refine (drawBitmap_returns (by omega) (by omega) 255 255 255 _).bind fun pixels hpixels => ?_
    refine Returns.bind_i32 (by omega) (by omega)
      (Returns.pure ⟨⟨⟨hskip,hcy⟩,fun _ => ?_,hcounted⟩,?_⟩)
    · rw [hcx]
      push_cast
      ring
    · rw [hpixels,placed,if_pos hvisible,charPixels,hcx,hcy]
  · have hne : pen.skipLines ≠ 0 := by omega
    refine (Returns.and_of_false (Returns.pure (decide_eq_false hne))).bind fun b hb => ?_
    rw [if_neg (by rw [hb]; exact Bool.false_ne_true)]
    refine Returns.pure ⟨⟨⟨hskip,hcy⟩,fun h => absurd h hvisible,hcounted⟩,?_⟩
    rw [placed,if_neg hvisible,List.append_nil]

include hw hh hfits in
/-- The characters of a line, each in its row and column. -/
theorem drawChars_returns {line : List Char} (h : win.AtChar skip first win.columns pen k)
    (hroom : ∀ i < k + line.length, first + i / win.columns < skip + win.rows) :
    Returns (line.foldlM (fun pen c => do
        win.putChar font (← win.wrapLine win.columns pen) c) pen) fun pen' =>
      win.AtChar skip first win.columns pen' (k + line.length) ∧
      pen'.drawn = pen.drawn ++ (line.zipIdx k).flatMap fun cell =>
        placed font win skip (first + cell.2 / win.columns) (cell.2 % win.columns) cell.1 := by
  have hn := (columns_bounds hw).1
  induction line generalizing pen k with
  | nil => exact Returns.pure ⟨h,(List.append_nil _).symm⟩
  | cons c line ih =>
    rw [List.length_cons] at hroom
    rw [List.foldlM_cons,bind_assoc]
    refine (wrapLine_returns hh hfits h (hroom k (by omega))).bind fun pen₁ h₁ => ?_
    obtain ⟨hcolumn,hdrawn₁⟩ := h₁
    refine (putChar_returns hw hh hfits (Nat.mod_lt k hn) hcolumn (hroom k (by omega)) c).bind
      fun pen₂ h₂ => ?_
    obtain ⟨hnext,hdrawn₂⟩ := h₂
    refine (ih (k := k + 1) hnext fun i hi => hroom i (by omega)).mono fun pen₃ h₃ => ?_
    obtain ⟨hlast,hdrawn₃⟩ := h₃
    rw [List.length_cons,List.zipIdx_cons,List.flatMap_cons,hdrawn₃,hdrawn₂,hdrawn₁,
      List.append_assoc]
    exact ⟨by rwa [Nat.add_comm line.length,← Nat.add_assoc],rfl⟩

/-- The pixels of a row of the whole text. -/
def rowPlaced (font : Font) (win : SemanticWindow) (skip line : ℕ) (row : List Char) :
    List DrawCall :=
  row.zipIdx.flatMap fun cell => placed font win skip line cell.2 cell.1

include hw hh hfits in
/-- A line of the text, row by row. -/
theorem drawLine_returns {line : List Char} (h : win.AtLine skip first pen)
    (hroom : first + rowCount win.columns line.length ≤ skip + win.rows) :
    Returns (win.drawLine font win.columns pen line) fun pen' =>
      win.AtLine skip (first + rowCount win.columns line.length) pen' ∧
      pen'.drawn = pen.drawn ++ ((wrap win.columns line).zipIdx first).flatMap fun row =>
        rowPlaced font win skip row.2 row.1 := by
  have hn := (columns_bounds hw).1
  have hx := hfits.x
  let start : Pen := {pen with cx := win.x + 30,charCount := 0}
  have hstart : win.AtChar skip first win.columns start 0 :=
    ⟨⟨h.skipLines,h.cy⟩,fun _ => by simp only [start,Nat.cast_zero,mul_zero,add_zero],rfl⟩
  have hchars : ∀ i < 0 + line.length, first + i / win.columns < skip + win.rows := by
    intro i hi
    have hmono := Nat.div_le_div_right (c := win.columns) (show i ≤ line.length - 1 by omega)
    have hcount := rowCount_pred hn (line.length - 1)
    rw [show line.length - 1 + 1 = line.length by omega] at hcount
    omega
  refine Returns.bind_i32 (by omega) (by omega) ?_
  refine (drawChars_returns hw hh hfits hstart hchars).bind fun pen₁ h₁ => ?_
  obtain ⟨hlast,hdrawn⟩ := h₁
  rw [Nat.zero_add] at hlast
  have hrow : ∃ last, win.AtLine skip last pen₁ ∧
      last + 1 = first + rowCount win.columns line.length := by
    cases hlen : line.length with
    | zero =>
      rw [hlen] at hlast
      exact ⟨first,hlast.atLine,by rw [rowCount_of_le (Nat.zero_le _)]⟩
    | succ len =>
      rw [hlen] at hlast
      exact ⟨first + len / win.columns,hlast.atLine,by rw [rowCount_pred hn,Nat.add_assoc]⟩
  obtain ⟨last,hline,hsum⟩ := hrow
  refine (nextLine_returns hh hfits hline (by omega)).mono fun pen₂ h₂ => ?_
  obtain ⟨hnext,hdrawn₂,_⟩ := h₂
  rw [hdrawn₂,hdrawn]
  refine ⟨hsum ▸ hnext,congrArg (pen.drawn ++ ·) ?_⟩
  exact (flatMap_wrap hn line first fun line column c => placed font win skip line column c).symm

include hw hh hfits in
theorem drawLines_returns (font : Font) {lines : List (List Char)} (h : win.AtLine skip first pen)
    (hroom : first + (lines.flatMap (wrap win.columns)).length ≤ skip + win.rows) :
    Returns (lines.foldlM (win.drawLine font win.columns) pen) fun pen' =>
      win.AtLine skip (first + (lines.flatMap (wrap win.columns)).length) pen' ∧
      pen'.drawn = pen.drawn ++ ((lines.flatMap (wrap win.columns)).zipIdx first).flatMap fun row =>
        rowPlaced font win skip row.2 row.1 := by
  have hn := (columns_bounds hw).1
  induction lines generalizing pen first with
  | nil => exact Returns.pure ⟨h,(List.append_nil _).symm⟩
  | cons line lines ih =>
    rw [List.flatMap_cons,List.length_append,length_wrap hn,← Nat.add_assoc] at hroom ⊢
    rw [List.foldlM_cons]
    refine (drawLine_returns hw hh hfits h (by omega)).bind fun pen₁ h₁ => ?_
    obtain ⟨hline,hdrawn₁⟩ := h₁
    refine (ih hline hroom).mono fun pen₂ h₂ => ?_
    obtain ⟨hlast,hdrawn₂⟩ := h₂
    refine ⟨hlast,?_⟩
    rw [hdrawn₂,hdrawn₁,List.zipIdx_append,List.flatMap_append,length_wrap hn,List.append_assoc]

end Steps

theorem countLines_eq (hn : 0 < n) (lines : List (List Char)) :
    countLines n lines = (lines.flatMap (wrap n)).length := by
  have hfold (total : ℕ) : lines.foldl (fun total line => total +
      if line.length = 0 then 1 else (line.length + n - 1) / n) total =
      total + (lines.flatMap (wrap n)).length := by
    induction lines generalizing total with
    | nil => rfl
    | cons line lines ih =>
      rw [List.foldl_cons,ih,List.flatMap_cons,List.length_append,length_wrap hn,Nat.add_assoc]
      rfl
  exact (hfold 0).trans (Nat.zero_add _)

/-- The pixels of the title. -/
def titlePixels (font : Font) (win : SemanticWindow) : List DrawCall :=
  title.zipIdx.flatMap fun cell =>
    bitmapPixels (win.x + 30 + 8 * cell.2) (win.y + 2) 180 255 255 (glyph font cell.1)

theorem drawTitle_returns (font : Font) (hh : 60 ≤ win.h) (hfits : win.Fits) :
    Returns (win.drawTitle font) fun drawn => drawn = titlePixels font win := by
  have hx := hfits.x
  have hy := hfits.y
  have hchars (chars : List Char) (k : ℕ) (hk : k + chars.length ≤ 30) (drawn : List DrawCall) :
      Returns (chars.foldlM (fun (pen : ℤ × List DrawCall) c => do
          let pixels ← drawBitmap pen.1 (win.y + 2) 180 255 255 (glyph font c)
          return (← i32 (pen.1 + 8),pen.2 ++ pixels)) (win.x + 30 + 8 * (k : ℤ),drawn))
        fun pen => pen.2 = drawn ++ (chars.zipIdx k).flatMap fun cell =>
          bitmapPixels (win.x + 30 + 8 * cell.2) (win.y + 2) 180 255 255 (glyph font cell.1) := by
    induction chars generalizing k drawn with
    | nil => exact Returns.pure (List.append_nil _).symm
    | cons c chars ih =>
      rw [List.length_cons] at hk
      rw [List.foldlM_cons,bind_assoc]
      refine (drawBitmap_returns (by omega) (by omega) 180 255 255 _).bind fun pixels hpixels => ?_
      rw [bind_assoc]
      refine Returns.bind_i32 (by omega) (by omega) ?_
      have hnext : win.x + 30 + 8 * (k : ℤ) + 8 = win.x + 30 + 8 * ((k + 1 : ℕ) : ℤ) := by
        push_cast
        ring
      rw [hnext]
      refine (ih (k + 1) (by omega) (drawn ++ pixels)).mono fun pen hpen => ?_
      rw [hpen,hpixels,List.append_assoc,List.zipIdx_cons,List.flatMap_cons]
  refine Returns.bind_i32 (by omega) (by omega) (Returns.bind_i32 (by omega) (by omega) ?_)
  have hall := hchars title 0 (by decide) []
  rw [Nat.cast_zero,mul_zero,add_zero] at hall
  refine hall.bind fun pen hpen => Returns.pure ?_
  rw [hpen,List.nil_append,titlePixels]

/-- The rows that the text takes up. -/
def physicalLines (win : SemanticWindow) (text : TextWindow) : List (List Char) :=
  ((displayText text).splitOn '\n').flatMap (wrap win.columns)

/-- The last ones, as many as there is room for. -/
def shownLines (win : SemanticWindow) (text : TextWindow) : List (List Char) :=
  (win.physicalLines text).drop ((win.physicalLines text).length - win.rows)

/-- Rows drawn from the top of the window on. -/
def rowPixels (font : Font) (win : SemanticWindow) (rows : List (List Char)) : List DrawCall :=
  rows.zipIdx.flatMap fun row => row.1.zipIdx.flatMap fun cell =>
    charPixels font win row.2 cell.2 cell.1

theorem rowPlaced_eq (skip : ℕ) (rows : List (List Char)) :
    (rows.zipIdx.flatMap fun row => rowPlaced font win skip row.2 row.1) =
      rowPixels font win (rows.drop skip) := by
  have hrow (line : ℕ) (row : List Char) : rowPlaced font win skip line row = if skip ≤ line then
      row.zipIdx.flatMap fun cell => charPixels font win (line - skip) cell.2 cell.1 else [] := by
    unfold rowPlaced placed
    split
    · rfl
    · simp
  simp only [hrow]
  exact flatMap_drop rows skip fun line row =>
    row.zipIdx.flatMap fun cell => charPixels font win line cell.2 cell.1

theorem splitOn_concat {a c : Char} (hc : c ≠ a) (s : List Char) :
    ∃ lines line, (s ++ [c]).splitOn a = lines ++ [line ++ [c]] := by
  induction s with
  | nil => exact ⟨[],[],List.splitOn_eq_singleton (by simpa using hc.symm)⟩
  | cons x s ih =>
    obtain ⟨lines,line,hs⟩ := ih
    rw [List.cons_append,List.splitOn_cons_eq_if_modifyHead,hs]
    split
    · exact ⟨[] :: lines,line,rfl⟩
    · cases lines with
      | nil => exact ⟨[],x :: line,rfl⟩
      | cons first lines => exact ⟨(x :: first) :: lines,line,rfl⟩

/-- The last row of the text ends in the block. -/
theorem physicalLines_concat (hw : 68 ≤ win.w) (text : TextWindow) :
    ∃ rows row, win.physicalLines text = rows ++ [row ++ [cursorBlock]] := by
  obtain ⟨lines,line,hlines⟩ := splitOn_concat (a := '\n') (c := cursorBlock) (by decide)
    (text.textBuffer ++ "genesis> ".toList ++ text.inputBuffer)
  obtain ⟨rows,row,hrows⟩ := wrap_concat (columns_bounds hw).1 line cursorBlock
  refine ⟨lines.flatMap (wrap win.columns) ++ rows,row,?_⟩
  rw [physicalLines,displayText,hlines,List.flatMap_append,List.flatMap_singleton,hrows,
    List.append_assoc]

/-- So does the last row that is shown. -/
theorem shownLines_concat (hw : 68 ≤ win.w) (hh : 60 ≤ win.h) (text : TextWindow) :
    ∃ rows row, win.shownLines text = rows ++ [row ++ [cursorBlock]] := by
  have hpos := (rows_bounds hh).1
  obtain ⟨rows,row,hrows⟩ := physicalLines_concat hw text
  refine ⟨rows.drop ((win.physicalLines text).length - win.rows),row,?_⟩
  rw [shownLines,hrows,List.length_append,List.length_singleton,
    List.drop_append_of_le_length (by omega)]

/-- Each row that is shown, and each of its characters, lies inside the window. -/
theorem shownLines_inside (hw : 68 ≤ win.w) (hh : 60 ≤ win.h) (text : TextWindow) {j : ℕ}
    {row : List Char} (hrow : (win.shownLines text)[j]? = some row) {c : ℕ} (hc : c < row.length) :
    30 + 8 * (c : ℤ) + 8 ≤ win.w ∧ 40 + 12 * (j : ℤ) + 8 ≤ win.h := by
  have hcolumns := columns_bounds hw
  have hrows := rows_bounds hh
  have hj : j < win.rows := by
    have hlt := (List.getElem?_eq_some_iff.mp hrow).1
    rw [shownLines,List.length_drop] at hlt
    omega
  have hmem : row ∈ win.physicalLines text :=
    List.mem_of_mem_drop (List.mem_of_getElem? hrow)
  obtain ⟨line,_,hwrap⟩ := List.mem_flatMap.mp hmem
  have hlen := length_le_of_mem_wrap hcolumns.1 hwrap
  omega

/-- The rows between two pens: each of them has been skipped, or has moved the pen down. -/
def rowsPassed (start pen : Pen) : ℤ :=
  ((start.skipLines : ℤ) - pen.skipLines) + (pen.cy - start.cy) / 12

section Text

variable (hw : 68 ≤ win.w) (hh : 60 ≤ win.h) (hfits : win.Fits) (text : TextWindow)

include hw hh hfits

theorem firstPen_returns :
    Returns (win.firstPen win.columns win.rows ((displayText text).splitOn '\n')) fun start =>
      start.skipLines = (win.physicalLines text).length - win.rows ∧
      start.cy = win.y + 40 ∧ start.drawn = [] := by
  have hy := hfits.y
  refine Returns.bind_i32 (by omega) (by omega) (Returns.pure ⟨?_,rfl,rfl⟩)
  rw [countLines_eq (columns_bounds hw).1]
  show (if (win.physicalLines text).length > win.rows then _ else 0) = _
  split
  · rfl
  · omega

/-- Both passes over the text agree on the rows. -/
theorem passes_agree (font : Font) : ∃ start pen,
    win.firstPen win.columns win.rows ((displayText text).splitOn '\n') = .ok start ∧
    ((displayText text).splitOn '\n').foldlM (win.drawLine font win.columns) start = .ok pen ∧
    rowsPassed start pen = countLines win.columns ((displayText text).splitOn '\n') ∧
    pen.drawn = rowPixels font win (win.shownLines text) := by
  obtain ⟨start,hstart,hskip,hcy,hdrawn⟩ := firstPen_returns hw hh hfits text
  have hline : win.AtLine ((win.physicalLines text).length - win.rows) 0 start := by
    refine ⟨hskip,?_⟩
    rw [hcy,Nat.zero_sub,Nat.cast_zero,mul_zero,add_zero]
  have hroom : 0 + (((displayText text).splitOn '\n').flatMap (wrap win.columns)).length ≤
      (win.physicalLines text).length - win.rows + win.rows := by
    rw [Nat.zero_add,← physicalLines]
    omega
  obtain ⟨pen,hpen,⟨hlast,hlastCy⟩,hpixels⟩ :=
    drawLines_returns hw hh hfits font hline hroom
  rw [Nat.zero_add,← physicalLines] at hlast hlastCy
  rw [hdrawn,List.nil_append,rowPlaced_eq] at hpixels
  refine ⟨start,pen,hstart,hpen,?_,hpixels⟩
  rw [rowsPassed,countLines_eq (columns_bounds hw).1,← physicalLines,hskip,hlast,hcy,hlastCy]
  omega

/-- The title, and what the second pass leaves behind. -/
theorem drawText_eq (font : Font) {start pen : Pen}
    (hstart : win.firstPen win.columns win.rows ((displayText text).splitOn '\n') = .ok start)
    (hpen : ((displayText text).splitOn '\n').foldlM (win.drawLine font win.columns) start =
      .ok pen) : win.drawText font text = .ok (titlePixels font win,pen) := by
  obtain ⟨_,hchars,rfl⟩ := maxCharsPerLine_returns hw hfits.w
  obtain ⟨_,hlines,rfl⟩ := maxLines_returns hh hfits.h
  obtain ⟨_,htitle,rfl⟩ := drawTitle_returns font hh hfits
  rw [drawText,hchars,hlines,htitle]
  show (do
    let pen ← ((displayText text).splitOn '\n').foldlM (win.drawLine font win.columns)
      (← win.firstPen win.columns win.rows ((displayText text).splitOn '\n'))
    return (titlePixels font win,pen)) = Except.ok (titlePixels font win,pen)
  rw [hstart]
  show (do
    let pen ← ((displayText text).splitOn '\n').foldlM (win.drawLine font win.columns) start
    return (titlePixels font win,pen)) = Except.ok (titlePixels font win,pen)
  rw [hpen]
  rfl

end Text

/-- A window that neither expands nor shrinks shows its text. -/
theorem renderText_eq {text : TextWindow} {mode : WindowMode} (hstable : win.state = .stable mode)
    (halive : mode ≠ .dead) {titleDrawn : List DrawCall}
    (hdraw : win.drawText font text = .ok (titleDrawn,pen)) :
    win.renderText font text = .ok (titleDrawn ++ pen.drawn) := by
  cases mode with
  | dead => exact absurd rfl halive
  | instantiated =>
    simp only [renderText,hstable,hdraw]
    rfl
  | maximized =>
    simp only [renderText,hstable,hdraw]
    rfl

theorem Bounded.fits {m : ℤ} (h : win.Bounded m) (hm : m ≤ 8192) : win.Fits := by
  obtain ⟨hx,hy,hw,hh⟩ := h.now
  constructor <;> omega

/-- The windows that the desktop draws are none but those of the theorem below. -/
theorem reachable_drawn {screen : Screen} {gpu : GpuDriver} (hgw : gpu.width.toNat ≤ 8192)
    (hgh : gpu.height.toNat ≤ 8192) {r : DesktopRun} (h : (desktopSystem screen gpu).Reachable r)
    (hwin : win ∈ r.desktop.engine.windows) : win.Fits ∧ win.state ≠ .stable .dead := by
  have hbounded := (DesktopRun.reachable_bounded hgw hgh h).engine.windows win hwin
  refine ⟨hbounded.fits screen.limit_bounds.2.1,?_⟩
  refine h.invariant (I := fun r => ∀ win ∈ r.desktop.engine.windows, win.state ≠ .stable .dead)
    ?_ ?_ win hwin
  · rintro _ rfl win hwin
    exact absurd hwin List.not_mem_nil
  · intro r a t hr hexec
    rcases DragState.exec_engine hexec with hkept | ⟨stored,d,_,hd,hdrawn⟩
    · rwa [hkept]
    · rw [hdrawn]
      exact Desktop.frame_alive d hd

/-- A window at the launcher, with its first line of text. -/
def openedWindow : SemanticWindow where
  id := 1
  x := 560
  y := 700
  w := 800
  h := 600
  normalX := 560
  normalY := 700
  normalW := 800
  normalH := 600
  baseZ := 0
  targetZ := 0
  state := .stable .instantiated
  splatCloud := []

end SemanticWindow
end PolymorphOS
