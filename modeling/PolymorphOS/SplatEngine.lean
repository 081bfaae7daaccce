import PolymorphOS.SemanticWindow

/-! `splat.rs`: the desktop. What a click does, and one call of `render_desktop`; the text in the
windows is left out. -/
namespace PolymorphOS

structure AppLauncher where
  x : ℤ
  y : ℤ
  radius : ℤ
  deriving DecidableEq

structure SplatEngine where
  nebulaSplats : List GaussianSplat
  launchers : List AppLauncher
  windows : List SemanticWindow
  instanceCounter : UInt32
  deriving DecidableEq

namespace SplatEngine

def tickPhysics (engine : SplatEngine) : Except Panic (SplatEngine × Bool) := do
  let ticked ← engine.windows.mapM SemanticWindow.updatePhysics
  let windows := ticked.map Prod.fst
  return ({engine with windows := windows.filter fun win => win.state ≠ .stable .dead},
    ticked.any Prod.snd)

/-- The two splats of a launcher. -/
def launcherSplats (l : AppLauncher) : Except Panic (List GaussianSplat) := do
  return [
    {x := l.x, y := l.y, z := 10, scaleX := l.radius, scaleY := l.radius
     r := 0, g := 255, b := 200, opacity := 200},
    {x := l.x, y := l.y, z := 11, scaleX := ← divI32 l.radius 2, scaleY := ← divI32 l.radius 2
     r := 255, g := 255, b := 255, opacity := 255}]

/-- The nebula is sorted by depth, and the sort is stable. -/
def sorted (engine : SplatEngine) : SplatEngine :=
  {engine with nebulaSplats := engine.nebulaSplats.mergeSort fun a b => a.z ≤ b.z}

def renderSplats (gpu : GpuDriver) (splats : List GaussianSplat) : Except Panic (List DrawCall) := do
  return (← splats.mapM (GaussianSplat.renderSingleSplat gpu)).flatten

/-- `SplatEngine::render`, without the text. -/
def render (gpu : GpuDriver) (engine : SplatEngine) : Except Panic (SplatEngine × List DrawCall) := do
  let engine := engine.sorted
  let nebula ← renderSplats gpu engine.nebulaSplats
  let launchers ← engine.launchers.mapM fun l => do renderSplats gpu (← launcherSplats l)
  let windows ← engine.windows.mapM fun win => renderSplats gpu win.splatCloud
  return (engine,nebula ++ launchers.flatten ++ windows.flatten)

end SplatEngine

/-- The statics of the user interface, and the engine. -/
structure Desktop where
  cursorX : ℤ
  cursorY : ℤ
  leftClick : Bool
  isDragging : Bool
  dragOffsetX : ℤ
  dragOffsetY : ℤ
  screenWidth : ℤ
  screenHeight : ℤ
  engine : SplatEngine
  deriving DecidableEq

/-- What a click does to a window: nothing, or the window comes to the front, possibly with the
offset at which it is dragged. -/
inductive Click
  | missed
  | handled (win : SemanticWindow) (drag : Option (ℤ × ℤ))

namespace Desktop

/-- `(a - b).abs() < r` -/
def near (a b r : ℤ) : Except Panic Bool := do return (← absI32 (← i32 (a - b))) < r

/-- `win.x <= cx && cx <= win.x + win.w && win.y <= cy && cy <= win.y + height` -/
def hovers (d : Desktop) (win : SemanticWindow) (height : ℤ) : Except Panic Bool :=
  pure (decide (d.cursorX ≥ win.x)) <&&>
    (return decide (d.cursorX ≤ (← i32 (win.x + win.w)))) <&&>
    pure (decide (d.cursorY ≥ win.y)) <&&>
    (return decide (d.cursorY ≤ (← i32 (win.y + height))))

/-- The body of a window: a click there only brings it to the front. -/
def clickBody (d : Desktop) (win : SemanticWindow) : Except Panic Click := do
  if ← d.hovers win win.h then return .handled win none else return .missed

def clickWindow (d : Desktop) (win : SemanticWindow) : Except Panic Click :=
  match win.state with
  | .transitioning _ => d.clickBody win
  | .stable _ => do
    let closeX ← i32 ((← i32 (win.x + win.w)) - 25)
    let restX ← i32 ((← i32 (win.x + win.w)) - 55)
    let maxX ← i32 ((← i32 (win.x + win.w)) - 85)
    let btnY ← i32 (win.y + 15)
    if ← near d.cursorX closeX 15 <&&> near d.cursorY btnY 15 then
      match d.engine.launchers with
      | [] => .error .indexOutOfBounds
      | l :: _ => return .handled (win.triggerClose l.x l.y) none
    else if ← near d.cursorX restX 15 <&&> near d.cursorY btnY 15 then
      return .handled win.triggerRestore none
    else if ← near d.cursorX maxX 15 <&&> near d.cursorY btnY 15 then
      return .handled (win.triggerMaximize d.screenWidth d.screenHeight) none
    else if ← d.hovers win 40 then
      return .handled win (some (← i32 (d.cursorX - win.x),← i32 (d.cursorY - win.y)))
    else d.clickBody win

/-- The loop over the windows, from the top-most of the first `i` on. -/
def findClicked (d : Desktop) : ℕ → Except Panic (Option (ℕ × SemanticWindow × Option (ℤ × ℤ)))
  | 0 => return none
  | i + 1 =>
    match d.engine.windows[i]? with
    | none => d.findClicked i
    | some win => do
      match ← d.clickWindow win with
      | .missed => d.findClicked i
      | .handled win drag => return some (i,win,drag)

/-- The first launcher under the cursor opens a window; `instance_counter` wraps, as in a release
build. -/
def clickLauncher (d : Desktop) : List AppLauncher → Except Panic Desktop
  | [] => return d
  | l :: rest => do
    if ← near d.cursorX l.x l.radius <&&> near d.cursorY l.y l.radius then
      let win ← SemanticWindow.spawn d.engine.instanceCounter l.x l.y 800 600
      return {d with
        engine.windows := d.engine.windows ++ [win]
        engine.instanceCounter := d.engine.instanceCounter + 1}
    else d.clickLauncher rest

/-- The clicked window is taken out and put at the end, and a drag begins. -/
def focus (d : Desktop) (i : ℕ) (win : SemanticWindow) (drag : Option (ℤ × ℤ)) : Desktop :=
  let focused := {d with engine.windows := d.engine.windows.eraseIdx i ++ [win]}
  match drag with
  | none => focused
  | some (x,y) => {focused with isDragging := true,dragOffsetX := x,dragOffsetY := y}

def handleClick (d : Desktop) : Except Panic Desktop :=
  if d.leftClick then do
    match ← d.findClicked d.engine.windows.length with
    | some (i,win,drag) => return d.focus i win drag
    | none => if d.isDragging then return d else d.clickLauncher d.engine.launchers
  else return {d with isDragging := false}

/-- The last window comes to the front, the others sink into the background. -/
def parallax (d : Desktop) : Desktop :=
  {d with engine.windows := d.engine.windows.mapIdx fun i win =>
    {win with targetZ := if i = d.engine.windows.length - 1 then 0 else 300}}

/-- The last window is dragged along with the cursor. -/
def applyDrag (d : Desktop) : Except Panic Desktop :=
  match d.isDragging,d.engine.windows.getLast? with
  | true,some win => do
    let x ← i32 (d.cursorX - d.dragOffsetX)
    let y ← i32 (d.cursorY - d.dragOffsetY)
    let win ← SemanticWindow.generateCloud {win with x := x,y := y}
    return {d with engine.windows := d.engine.windows.dropLast ++ [win]}
  | _,_ => return d

/-- The cursor, five pixels wide and high. -/
def drawCursor (d : Desktop) (clicked : Bool) : Except Panic (List DrawCall) := do
  let rows ← (rangeI32 0 5).mapM fun dy => (rangeI32 0 5).mapM fun dx => do
    let x ← i32 (d.cursorX + dx)
    let y ← i32 (d.cursorY + dy)
    return DrawCall.drawPixel x y 255 (if clicked then 50 else 255) (if clicked then 50 else 255)
  return rows.flatten

/-- What is drawn before the buffers are swapped. -/
def renderDesktop (gpu : GpuDriver) (d : Desktop) : Except Panic (Desktop × List DrawCall) := do
  let d ← d.handleClick
  let d ← d.parallax.applyDrag
  let (ticked,_) ← d.engine.tickPhysics
  let (engine,drawn) ← ticked.render gpu
  let cursor ← d.drawCursor d.leftClick
  return ({d with engine := engine},.restoreFromNebulaCache :: (drawn ++ cursor))

end Desktop

/-! ### The bounds -/

/-- A launcher on a screen. -/
structure AppLauncher.Bounded (l : AppLauncher) : Prop where
  x : 0 ≤ l.x ∧ l.x ≤ 8192
  y : 0 ≤ l.y ∧ l.y ≤ 8192
  radius : 0 ≤ l.radius ∧ l.radius ≤ 4096

structure SplatEngine.Bounded (m : ℤ) (engine : SplatEngine) : Prop where
  nebula : ∀ splat ∈ engine.nebulaSplats, splat.Bounded
  launchers : ∀ l ∈ engine.launchers, l.Bounded
  launched : engine.launchers ≠ []
  windows : ∀ win ∈ engine.windows, win.Bounded m

/-- The screen of the desktop. -/
structure Screen where
  width : ℤ
  height : ℤ
  width_ge : 800 ≤ width
  width_le : width ≤ 8192
  height_ge : 600 ≤ height
  height_le : height ≤ 8192

/-- The largest size of a window. -/
def Screen.limit (screen : Screen) : ℤ := max 800 (max screen.width screen.height)

theorem Screen.limit_bounds (screen : Screen) : 800 ≤ screen.limit ∧ screen.limit ≤ 8192 ∧
    screen.width ≤ screen.limit ∧ screen.height ≤ screen.limit := by
  have hw := screen.width_le
  have hh := screen.height_le
  simp only [limit]
  omega

structure Desktop.Bounded (screen : Screen) (d : Desktop) : Prop where
  width : d.screenWidth = screen.width
  height : d.screenHeight = screen.height
  cursorX : 0 ≤ d.cursorX ∧ d.cursorX ≤ screen.width - 6
  cursorY : 0 ≤ d.cursorY ∧ d.cursorY ≤ screen.height - 6
  dragX : 0 ≤ d.dragOffsetX ∧ d.dragOffsetX ≤ 8192
  dragY : 0 ≤ d.dragOffsetY ∧ d.dragOffsetY ≤ 8192
  engine : d.engine.Bounded screen.limit

theorem Desktop.Bounded.near {screen : Screen} {d : Desktop} (h : d.Bounded screen) :
    (0 ≤ d.cursorX ∧ d.cursorX ≤ 8192) ∧ (0 ≤ d.cursorY ∧ d.cursorY ≤ 8192) := by
  have hx := h.cursorX
  have hy := h.cursorY
  have hw := screen.width_le
  have hh := screen.height_le
  omega

namespace SplatEngine

variable {m : ℤ} {engine : SplatEngine} {gpu : GpuDriver}

theorem tickPhysics_returns (hm : m ≤ 8192) (h : engine.Bounded m) :
    Returns engine.tickPhysics fun r => r.1.Bounded m := by
  refine (Returns.mapM fun win hwin => SemanticWindow.updatePhysics_returns hm (h.windows win hwin)).bind
    fun ticked hticked => Returns.pure ?_
  refine ⟨h.nebula,h.launchers,h.launched,fun win hwin => ?_⟩
  obtain ⟨r,hr,rfl⟩ := List.mem_map.mp (List.mem_of_mem_filter hwin)
  exact hticked r hr

theorem sorted_bounded (h : engine.Bounded m) : engine.sorted.Bounded m :=
  ⟨fun splat hs => h.nebula splat (List.mem_mergeSort.mp hs),h.launchers,h.launched,h.windows⟩

theorem renderSplats_returns (hw : gpu.width.toNat ≤ 8192) (hh : gpu.height.toNat ≤ 8192)
    {splats : List GaussianSplat} (h : ∀ splat ∈ splats, splat.Bounded) :
    Returns (renderSplats gpu splats) fun _ => True :=
  (Returns.mapM fun splat hs => GaussianSplat.renderSingleSplat_returns (h splat hs) hw hh).bind
    fun _ _ => Returns.pure trivial

theorem launcherSplats_returns {l : AppLauncher} (h : l.Bounded) :
    Returns (launcherSplats l) fun splats => ∀ splat ∈ splats, splat.Bounded := by
  obtain ⟨hx,hy,hr⟩ := h
  refine Returns.bind_divI32 (by omega) (by omega) (by omega) fun q hq => ?_
  refine Returns.bind_divI32 (by omega) (by omega) (by omega) fun q' hq' => ?_
  have hq := hq.nonneg (by omega)
  have hq' := hq'.nonneg (by omega)
  refine Returns.pure ?_
  simp only [List.forall_mem_cons,List.not_mem_nil,IsEmpty.forall_iff,implies_true,and_true]
  constructor <;> constructor <;> dsimp only <;> omega

theorem render_returns (hw : gpu.width.toNat ≤ 8192) (hh : gpu.height.toNat ≤ 8192)
    (h : engine.Bounded m) : Returns (engine.render gpu) fun r => r.1.Bounded m := by
  have hs := sorted_bounded h
  refine (renderSplats_returns hw hh hs.nebula).bind fun _ _ => ?_
  refine (Returns.mapM (Q := fun _ => True) fun l hl => ?_).bind fun _ _ => ?_
  · exact (launcherSplats_returns (hs.launchers l hl)).bind fun _ => renderSplats_returns hw hh
  · refine (Returns.mapM (Q := fun _ => True) fun win hwin => ?_).bind fun _ _ => Returns.pure hs
    exact renderSplats_returns hw hh (hs.windows win hwin).cloud

end SplatEngine

namespace Desktop

variable {screen : Screen} {d : Desktop} {win : SemanticWindow} {gpu : GpuDriver}

theorem near_returns {a b : ℤ} (ha : -20000 ≤ a ∧ a ≤ 20000) (hb : -20000 ≤ b ∧ b ≤ 20000) (r : ℤ) :
    Returns (near a b r) fun b => b = true → True := by
  refine Returns.bind_i32 (by omega) (by omega) ?_
  exact Returns.bind_absI32 (by omega) (by omega) (Returns.pure fun _ => trivial)

theorem hovers_returns (h : win.Bounded screen.limit) (height : ℤ)
    (hheight : 0 ≤ height ∧ height ≤ 8192) :
    Returns (d.hovers win height) fun b => b = true → d.cursorX ≥ win.x ∧
      d.cursorX ≤ win.x + win.w ∧ d.cursorY ≥ win.y ∧ d.cursorY ≤ win.y + height := by
  have hm := screen.limit_bounds
  obtain ⟨hx,hy,hw,hh⟩ := h.now
  refine Returns.and (Returns.pure of_decide_eq_true) fun _ => ?_
  refine Returns.and ?_ fun _ => ?_
  · exact Returns.bind_i32 (by omega) (by omega) (Returns.pure of_decide_eq_true)
  · refine Returns.and (Returns.pure of_decide_eq_true) fun _ => ?_
    exact Returns.bind_i32 (by omega) (by omega) (Returns.pure of_decide_eq_true)

/-- What a click leaves is bounded again, and a drag that begins takes the window along from
where the cursor is. -/
inductive Click.Bounded (m : ℤ) : Click → Prop
  | missed : Click.Bounded m .missed
  | handled {win : SemanticWindow} {drag : Option (ℤ × ℤ)} (hwin : win.Bounded m)
      (hdrag : ∀ x y, drag = some (x,y) → (0 ≤ x ∧ x ≤ 8192) ∧ (0 ≤ y ∧ y ≤ 8192)) :
      Click.Bounded m (.handled win drag)

theorem clickBody_returns (h : win.Bounded screen.limit) :
    Returns (d.clickBody win) (Click.Bounded screen.limit) := by
  have hm := screen.limit_bounds
  have hh := h.now.h
  refine (hovers_returns h _ (by omega)).bind fun b _ => ?_
  refine Returns.ite (fun _ => Returns.pure (.handled h nofun)) fun _ => Returns.pure .missed

theorem clickWindow_returns (hd : d.Bounded screen) (h : win.Bounded screen.limit) :
    Returns (d.clickWindow win) (Click.Bounded screen.limit) := by
  have hm := screen.limit_bounds
  have hcursor := hd.near
  obtain ⟨hx,hy,hw,hh⟩ := h.now
  unfold clickWindow
  split
  · exact clickBody_returns h
  · refine Returns.bind_i32 (by omega) (by omega) ?_
    refine Returns.bind_i32 (by omega) (by omega) ?_
    refine Returns.bind_i32 (by omega) (by omega) ?_
    refine Returns.bind_i32 (by omega) (by omega) ?_
    refine Returns.bind_i32 (by omega) (by omega) ?_
    refine Returns.bind_i32 (by omega) (by omega) ?_
    refine Returns.bind_i32 (by omega) (by omega) ?_
    have hbutton (inset : ℤ) (hinset : 0 ≤ inset ∧ inset ≤ 85) :=
      Returns.and (near_returns (a := d.cursorX) (b := win.x + win.w - inset) (by omega) (by omega) 15)
        fun _ => near_returns (a := d.cursorY) (b := win.y + 15) (by omega) (by omega) 15
    -- the close button, the restore button, the maximize button
    refine (hbutton 25 (by omega)).bind fun b _ => Returns.ite (fun _ => ?_) fun _ => ?_
    · split
      · rename_i hnil
        exact absurd hnil hd.engine.launched
      · rename_i l _ hcons
        obtain ⟨hlx,hly,_⟩ := hd.engine.launchers l (hcons ▸ List.mem_cons_self)
        have htarget : Bounds screen.limit l.x l.y 40 40 := ⟨by omega,by omega,by omega,by omega⟩
        exact Returns.pure (.handled (SemanticWindow.transitionTo_bounded h htarget _) nofun)
    refine (hbutton 55 (by omega)).bind fun b _ => Returns.ite (fun _ => ?_) fun _ => ?_
    · exact Returns.pure (.handled (SemanticWindow.transitionTo_bounded h h.normal _) nofun)
    refine (hbutton 85 (by omega)).bind fun b _ => Returns.ite (fun _ => ?_) fun _ => ?_
    · have hscreen : Bounds screen.limit 0 0 d.screenWidth d.screenHeight := by
        have hwidth := screen.width_ge
        have hheight := screen.height_ge
        rw [hd.width,hd.height]
        exact ⟨by omega,by omega,by omega,by omega⟩
      exact Returns.pure (.handled (SemanticWindow.triggerMaximize_bounded h hscreen) nofun)
    -- the title bar
    refine (hovers_returns h 40 (by omega)).bind fun b hb =>
      Returns.ite (fun hover => ?_) fun _ => clickBody_returns h
    have hover := hb hover
    refine Returns.bind_i32 (by omega) (by omega) (Returns.bind_i32 (by omega) (by omega) ?_)
    refine Returns.pure (.handled h fun x y hdrag => ?_)
    cases hdrag
    omega

theorem findClicked_returns (hd : d.Bounded screen) (i : ℕ) :
    Returns (d.findClicked i) fun found => ∀ r, found = some r →
      Click.Bounded screen.limit (.handled r.2.1 r.2.2) := by
  induction i with
  | zero => exact Returns.pure fun r hr => absurd hr (Option.some_ne_none r).symm
  | succ i ih =>
    unfold findClicked
    split
    · exact ih
    · rename_i win hwin
      have hmem := List.mem_of_getElem? hwin
      refine (clickWindow_returns hd (hd.engine.windows win hmem)).bind fun click hclick => ?_
      cases hclick with
      | missed => exact ih
      | handled hwin' hdrag =>
        refine Returns.pure fun r hr => ?_
        cases hr
        exact .handled hwin' hdrag

/-- New windows in place of the old ones. -/
theorem Bounded.windows (hd : d.Bounded screen) {windows : List SemanticWindow} (counter : UInt32)
    (h : ∀ win ∈ windows, win.Bounded screen.limit) :
    Bounded screen {d with engine.windows := windows,engine.instanceCounter := counter} :=
  ⟨hd.width,hd.height,hd.cursorX,hd.cursorY,hd.dragX,hd.dragY,
    hd.engine.nebula,hd.engine.launchers,hd.engine.launched,h⟩

theorem clickLauncher_returns (hd : d.Bounded screen) {launchers : List AppLauncher}
    (h : ∀ l ∈ launchers, l.Bounded) : Returns (d.clickLauncher launchers) (Bounded screen) := by
  have hm := screen.limit_bounds
  have hcursor := hd.near
  induction launchers with
  | nil => exact Returns.pure hd
  | cons l launchers ih =>
    obtain ⟨hx,hy,hr⟩ := h l List.mem_cons_self
    have hnear := Returns.and (near_returns (a := d.cursorX) (b := l.x) (by omega) (by omega) l.radius)
      fun _ => near_returns (a := d.cursorY) (b := l.y) (by omega) (by omega) l.radius
    refine hnear.bind fun b _ => Returns.ite (fun _ => ?_) fun _ =>
      ih fun l' hl' => h l' (List.mem_cons_of_mem _ hl')
    refine (SemanticWindow.spawn_returns ⟨hm.1,hm.2.1⟩ _ hx hy).bind fun win hwin => Returns.pure ?_
    refine hd.windows _ fun win' hwin' => ?_
    rcases List.mem_append.mp hwin' with hold | hnew
    · exact hd.engine.windows win' hold
    · exact List.mem_singleton.mp hnew ▸ hwin

theorem focus_bounded (hd : d.Bounded screen) (i : ℕ) {drag : Option (ℤ × ℤ)}
    (h : Click.Bounded screen.limit (.handled win drag)) : (d.focus i win drag).Bounded screen := by
  cases h with
  | handled hwin hdrag =>
  have hfocused : Bounded screen {d with engine.windows := d.engine.windows.eraseIdx i ++ [win]} := by
    refine hd.windows _ fun win' hwin' => ?_
    rcases List.mem_append.mp hwin' with hold | hnew
    · exact hd.engine.windows win' (List.mem_of_mem_eraseIdx hold)
    · exact List.mem_singleton.mp hnew ▸ hwin
  rcases drag with _ | ⟨x,y⟩
  · exact hfocused
  · obtain ⟨hx,hy⟩ := hdrag x y rfl
    exact ⟨hd.width,hd.height,hd.cursorX,hd.cursorY,hx,hy,hfocused.engine⟩

theorem handleClick_returns (hd : d.Bounded screen) : Returns d.handleClick (Bounded screen) := by
  refine Returns.ite (fun _ => ?_) fun _ => Returns.pure ?_
  · refine (findClicked_returns hd _).bind fun found hfound => ?_
    rcases found with _ | ⟨i,win,drag⟩
    · exact Returns.ite (fun _ => Returns.pure hd) fun _ => clickLauncher_returns hd hd.engine.launchers
    · exact Returns.pure (focus_bounded hd i (hfound _ rfl))
  · exact ⟨hd.width,hd.height,hd.cursorX,hd.cursorY,hd.dragX,hd.dragY,hd.engine⟩

theorem parallax_bounded (hd : d.Bounded screen) : d.parallax.Bounded screen := by
  refine hd.windows _ fun win' hwin' => ?_
  obtain ⟨i,hi,rfl⟩ := List.mem_mapIdx.mp hwin'
  have hwin := hd.engine.windows _ (List.getElem_mem hi)
  refine ⟨hwin.now,hwin.normal,hwin.baseZ,?_,hwin.transition,hwin.cloud⟩
  dsimp only
  split <;> omega

theorem applyDrag_returns (hd : d.Bounded screen) : Returns d.applyDrag (Bounded screen) := by
  have hm := screen.limit_bounds
  have hcursor := hd.near
  have hdx := hd.dragX
  have hdy := hd.dragY
  unfold applyDrag
  split
  · rename_i win _ hlast
    have hwin := hd.engine.windows win (List.mem_of_getLast? hlast)
    refine Returns.bind_i32 (by omega) (by omega) (Returns.bind_i32 (by omega) (by omega) ?_)
    have hnow : Bounds screen.limit (d.cursorX - d.dragOffsetX) (d.cursorY - d.dragOffsetY) win.w win.h :=
      ⟨by omega,by omega,hwin.now.w,hwin.now.h⟩
    let moved : SemanticWindow :=
      {win with x := d.cursorX - d.dragOffsetX,y := d.cursorY - d.dragOffsetY}
    have hcloud : Returns moved.generateCloud (SemanticWindow.Bounded screen.limit) :=
      SemanticWindow.generateCloud_bounded hm.2.1 hnow hwin.normal hwin.baseZ hwin.targetZ hwin.transition
    refine Returns.bind hcloud fun win' hwin' => Returns.pure ?_
    refine hd.windows _ fun win'' hmem => ?_
    rcases List.mem_append.mp hmem with hold | hnew
    · exact hd.engine.windows win'' (List.mem_of_mem_dropLast hold)
    · exact List.mem_singleton.mp hnew ▸ hwin'
  · exact Returns.pure hd

theorem drawCursor_returns (hd : d.Bounded screen) (clicked : Bool) :
    Returns (d.drawCursor clicked) fun _ => True := by
  have hcursor := hd.near
  refine (Returns.mapM (Q := fun _ => True) fun dy hy => ?_).bind fun _ _ => Returns.pure trivial
  refine (Returns.mapM (Q := fun _ => True) fun dx hx => ?_).mono fun _ _ => trivial
  rw [mem_rangeI32] at hx hy
  exact Returns.bind_i32 (by omega) (by omega) (Returns.bind_i32 (by omega) (by omega)
    (Returns.pure trivial))

theorem renderDesktop_returns (hd : d.Bounded screen) (hw : gpu.width.toNat ≤ 8192)
    (hh : gpu.height.toNat ≤ 8192) : Returns (d.renderDesktop gpu) fun r => r.1.Bounded screen := by
  refine (handleClick_returns hd).bind fun d₁ h₁ => ?_
  refine (applyDrag_returns (parallax_bounded h₁)).bind fun d₂ h₂ => ?_
  refine (SplatEngine.tickPhysics_returns screen.limit_bounds.2.1 h₂.engine).bind fun r hr => ?_
  refine (SplatEngine.render_returns hw hh hr).bind fun r' hr' => ?_
  refine (drawCursor_returns h₂ _).bind fun _ _ => Returns.pure ?_
  exact ⟨h₂.width,h₂.height,h₂.cursorX,h₂.cursorY,h₂.dragX,h₂.dragY,hr'⟩

end Desktop
end PolymorphOS
