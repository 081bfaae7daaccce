import PolymorphOS.Splat

/-! `splat.rs`: the windows, how they change their place and their depth step by step, and the
bounds that their geometry keeps. -/
namespace PolymorphOS

inductive WindowMode
  | instantiated | maximized | dead
  deriving DecidableEq

/-- The data of `WindowState::Transitioning`: from a starting geometry to a target. -/
structure Transition where
  progress : ℤ
  max : ℤ
  sW : ℤ
  sH : ℤ
  sX : ℤ
  sY : ℤ
  tW : ℤ
  tH : ℤ
  tX : ℤ
  tY : ℤ
  finalMode : WindowMode
  deriving DecidableEq

inductive WindowState
  | stable (mode : WindowMode)
  | transitioning (transition : Transition)
  deriving DecidableEq

structure SemanticWindow where
  id : UInt32
  x : ℤ
  y : ℤ
  w : ℤ
  h : ℤ
  normalX : ℤ
  normalY : ℤ
  normalW : ℤ
  normalH : ℤ
  baseZ : ℤ
  targetZ : ℤ
  state : WindowState
  splatCloud : List GaussianSplat
  deriving DecidableEq

namespace SemanticWindow

/-- The body of a window and its four borders. -/
def bodyCloud (win : SemanticWindow) : Except Panic (List GaussianSplat) := do
  let cx ← i32 (win.x + (← divI32 win.w 2))
  let cy ← i32 (win.y + (← divI32 win.h 2))
  let _coreScale := max (min (← divI32 win.w 4) (← divI32 win.h 4)) 10
  let body : GaussianSplat := {
    x := cx, y := cy, z := ← i32 (win.baseZ + 10)
    scaleX := max (← divI32 win.w 2) 10, scaleY := max (← divI32 win.h 2) 10
    r := 5, g := 10, b := 15, opacity := 220}
  let thickness := 4
  let top : GaussianSplat := {
    x := cx, y := win.y, z := ← i32 (win.baseZ + 12)
    scaleX := ← divI32 win.w 2, scaleY := thickness
    r := 0, g := 255, b := 200, opacity := 120}
  let bottom : GaussianSplat := {
    x := cx, y := ← i32 (win.y + win.h), z := ← i32 (win.baseZ + 12)
    scaleX := ← divI32 win.w 2, scaleY := thickness
    r := 0, g := 100, b := 255, opacity := 90}
  let left : GaussianSplat := {
    x := win.x, y := cy, z := ← i32 (win.baseZ + 12)
    scaleX := thickness, scaleY := ← divI32 win.h 2
    r := 0, g := 150, b := 255, opacity := 90}
  let right : GaussianSplat := {
    x := ← i32 (win.x + win.w), y := cy, z := ← i32 (win.baseZ + 12)
    scaleX := thickness, scaleY := ← divI32 win.h 2
    r := 0, g := 150, b := 255, opacity := 90}
  return [body,top,bottom,left,right]

/-- A button, so many pixels from the right border. -/
def button (win : SemanticWindow) (inset : ℤ) (r g b : UInt8) : Except Panic GaussianSplat := do
  let x ← i32 ((← i32 (win.x + win.w)) - inset)
  let y ← i32 (win.y + 15)
  let z ← i32 (win.baseZ + 14)
  return {
    x := x, y := y, z := z
    scaleX := 12, scaleY := 12, r := r, g := g, b := b, opacity := 200}

def buttonCloud (win : SemanticWindow) : Except Panic (List GaussianSplat) :=
  match win.state with
  | .stable .dead | .transitioning _ => return []
  | .stable _ => do
    let close ← win.button 25 255 50 50
    let restore ← win.button 55 255 200 50
    let maximize ← win.button 85 50 255 100
    return [close,restore,maximize]

def generateCloud (win : SemanticWindow) : Except Panic SemanticWindow := do
  let body ← win.bodyCloud
  let buttons ← win.buttonCloud
  return {win with splatCloud := body ++ buttons}

def spawn (id : UInt32) (originX originY targetW targetH : ℤ) : Except Panic SemanticWindow := do
  let targetX ← i32 (originX - (← divI32 targetW 2))
  let targetY ← i32 (originY - (← divI32 targetH 2))
  generateCloud {
    id := id
    x := originX
    y := originY
    w := 40
    h := 40
    normalX := targetX
    normalY := targetY
    normalW := targetW
    normalH := targetH
    baseZ := 0
    targetZ := 0
    state := .transitioning {
      progress := 0, max := 15
      sW := 40, sH := 40, sX := originX, sY := originY
      tW := targetW, tH := targetH, tX := targetX, tY := targetY
      finalMode := .instantiated}
    splatCloud := []}

/-- The first half of `update_physics`: the window slides towards its depth. -/
def slideDepth (win : SemanticWindow) : Except Panic (SemanticWindow × Bool) :=
  if win.baseZ ≠ win.targetZ then do
    let diff ← i32 (win.targetZ - win.baseZ)
    let baseZ ← i32 (win.baseZ + (← divI32 diff 4))
    let near := (← absI32 diff) < 5
    let win ← generateCloud {win with baseZ := if near then win.targetZ else baseZ}
    return (win,true)
  else return (win,false)

/-- `s + ((t - s) * factor) / 100` -/
def interpolate (s t factor : ℤ) : Except Panic ℤ := do
  i32 (s + (← divI32 (← i32 ((← i32 (t - s)) * factor)) 100))

/-- The second half of `update_physics`: one step of the transition. -/
def advance (win : SemanticWindow) : Except Panic (SemanticWindow × Bool) :=
  match win.state with
  | .stable _ => return (win,false)
  | .transitioning t => do
    let p ← i32 (t.progress + 1)
    let factor ← divI32
      (← i32 ((← i32 (p * (← i32 ((← i32 (2 * t.max)) - p)))) * 100)) (← i32 (t.max * t.max))
    let w ← interpolate t.sW t.tW factor
    let h ← interpolate t.sH t.tH factor
    let x ← interpolate t.sX t.tX factor
    let y ← interpolate t.sY t.tY factor
    let win ← generateCloud (
      if p ≥ t.max then
        {win with w := t.tW,h := t.tH,x := t.tX,y := t.tY,state := .stable t.finalMode}
      else {win with w := w,h := h,x := x,y := y,state := .transitioning {t with progress := p}})
    return (win,true)

def updatePhysics (win : SemanticWindow) : Except Panic (SemanticWindow × Bool) := do
  let (win,slid) ← win.slideDepth
  let (win,moved) ← win.advance
  return (win,slid || moved)

/-- What the three triggers do: a transition from where the window is. -/
def transitionTo (win : SemanticWindow) (tW tH tX tY : ℤ) (finalMode : WindowMode) : SemanticWindow :=
  {win with
    state := .transitioning {
      progress := 0, max := 15
      sW := win.w, sH := win.h, sX := win.x, sY := win.y
      tW := tW, tH := tH, tX := tX, tY := tY
      finalMode := finalMode}}

def triggerClose (win : SemanticWindow) (launcherX launcherY : ℤ) : SemanticWindow :=
  win.transitionTo 40 40 launcherX launcherY .dead

def triggerMaximize (win : SemanticWindow) (screenW screenH : ℤ) : SemanticWindow :=
  let saved :=
    if win.state = .stable .instantiated then
      {win with normalX := win.x,normalY := win.y,normalW := win.w,normalH := win.h}
    else win
  saved.transitionTo screenW screenH 0 0 .maximized

def triggerRestore (win : SemanticWindow) : SemanticWindow :=
  win.transitionTo win.normalW win.normalH win.normalX win.normalY .instantiated

end SemanticWindow

/-! ### The bounds -/

/-- The places and sizes that a window may have, where `m` bounds the sizes. -/
structure Bounds (m x y w h : ℤ) : Prop where
  x : -8192 ≤ x ∧ x ≤ 8192
  y : -8192 ≤ y ∧ y ≤ 8192
  w : 40 ≤ w ∧ w ≤ m
  h : 40 ≤ h ∧ h ≤ m

structure Transition.Bounded (m : ℤ) (t : Transition) : Prop where
  max : t.max = 15
  progress : 0 ≤ t.progress ∧ t.progress < 15
  start : Bounds m t.sX t.sY t.sW t.sH
  target : Bounds m t.tX t.tY t.tW t.tH

namespace SemanticWindow

structure Bounded (m : ℤ) (win : SemanticWindow) : Prop where
  now : Bounds m win.x win.y win.w win.h
  normal : Bounds m win.normalX win.normalY win.normalW win.normalH
  baseZ : 0 ≤ win.baseZ ∧ win.baseZ ≤ 300
  targetZ : 0 ≤ win.targetZ ∧ win.targetZ ≤ 300
  transition : ∀ t, win.state = .transitioning t → t.Bounded m
  cloud : ∀ splat ∈ win.splatCloud, splat.Bounded

variable {m : ℤ} {win : SemanticWindow}

theorem bodyCloud_returns (hm : m ≤ 8192) (hnow : Bounds m win.x win.y win.w win.h)
    (hz : 0 ≤ win.baseZ ∧ win.baseZ ≤ 300) :
    Returns win.bodyCloud fun cloud => ∀ splat ∈ cloud, splat.Bounded := by
  obtain ⟨hx,hy,hw,hh⟩ := hnow
  refine Returns.bind_divI32 (by omega) (by omega) (by omega) fun w2 hw2 => ?_
  have hw2 := hw2.nonneg (by omega)
  refine Returns.bind_i32 (by omega) (by omega) ?_
  refine Returns.bind_divI32 (by omega) (by omega) (by omega) fun h2 hh2 => ?_
  have hh2 := hh2.nonneg (by omega)
  refine Returns.bind_i32 (by omega) (by omega) ?_
  refine Returns.bind_divI32 (by omega) (by omega) (by omega) fun _ _ => ?_
  refine Returns.bind_divI32 (by omega) (by omega) (by omega) fun _ _ => ?_
  -- the body
  refine Returns.bind_i32 (by omega) (by omega) ?_
  refine Returns.bind_divI32 (by omega) (by omega) (by omega) fun bodyW hbodyW => ?_
  refine Returns.bind_divI32 (by omega) (by omega) (by omega) fun bodyH hbodyH => ?_
  have hbodyW := hbodyW.nonneg (by omega)
  have hbodyH := hbodyH.nonneg (by omega)
  -- the borders at the top, at the bottom, on the left and on the right
  refine Returns.bind_i32 (by omega) (by omega) ?_
  refine Returns.bind_divI32 (by omega) (by omega) (by omega) fun topW htopW => ?_
  have htopW := htopW.nonneg (by omega)
  refine Returns.bind_i32 (by omega) (by omega) ?_
  refine Returns.bind_i32 (by omega) (by omega) ?_
  refine Returns.bind_divI32 (by omega) (by omega) (by omega) fun bottomW hbottomW => ?_
  have hbottomW := hbottomW.nonneg (by omega)
  refine Returns.bind_i32 (by omega) (by omega) ?_
  refine Returns.bind_divI32 (by omega) (by omega) (by omega) fun leftH hleftH => ?_
  have hleftH := hleftH.nonneg (by omega)
  refine Returns.bind_i32 (by omega) (by omega) ?_
  refine Returns.bind_i32 (by omega) (by omega) ?_
  refine Returns.bind_divI32 (by omega) (by omega) (by omega) fun rightH hrightH => ?_
  have hrightH := hrightH.nonneg (by omega)
  refine Returns.pure ?_
  simp only [List.forall_mem_cons,List.not_mem_nil,IsEmpty.forall_iff,implies_true,and_true]
  refine ⟨?_,?_,?_,?_,?_⟩ <;> constructor <;> dsimp only <;> omega

theorem button_returns (hm : m ≤ 8192) (hnow : Bounds m win.x win.y win.w win.h)
    (hz : 0 ≤ win.baseZ ∧ win.baseZ ≤ 300) {inset : ℤ} (hinset : 0 ≤ inset ∧ inset ≤ 85)
    (r g b : UInt8) : Returns (win.button inset r g b) GaussianSplat.Bounded := by
  obtain ⟨hx,hy,hw,hh⟩ := hnow
  refine Returns.bind_i32 (by omega) (by omega) ?_
  refine Returns.bind_i32 (by omega) (by omega) ?_
  refine Returns.bind_i32 (by omega) (by omega) ?_
  refine Returns.bind_i32 (by omega) (by omega) ?_
  refine Returns.pure ?_
  constructor <;> dsimp only <;> omega

theorem buttonCloud_returns (hm : m ≤ 8192) (hnow : Bounds m win.x win.y win.w win.h)
    (hz : 0 ≤ win.baseZ ∧ win.baseZ ≤ 300) :
    Returns win.buttonCloud fun cloud => ∀ splat ∈ cloud, splat.Bounded := by
  have hbutton (inset : ℤ) (h : 0 ≤ inset ∧ inset ≤ 85) := button_returns hm hnow hz h
  unfold buttonCloud
  split
  · exact Returns.pure nofun
  · exact Returns.pure nofun
  · refine (hbutton 25 (by omega) 255 50 50).bind fun close hclose => ?_
    refine (hbutton 55 (by omega) 255 200 50).bind fun restore hrestore => ?_
    refine (hbutton 85 (by omega) 50 255 100).bind fun maximize hmaximize => ?_
    refine Returns.pure ?_
    simp only [List.forall_mem_cons,List.not_mem_nil,IsEmpty.forall_iff,implies_true,and_true]
    exact ⟨hclose,hrestore,hmaximize⟩

/-- Only the cloud changes, and it comes to lie around the window. -/
theorem generateCloud_returns (hm : m ≤ 8192) (hnow : Bounds m win.x win.y win.w win.h)
    (hz : 0 ≤ win.baseZ ∧ win.baseZ ≤ 300) :
    Returns win.generateCloud fun win' => ∃ cloud, (∀ splat ∈ cloud, splat.Bounded) ∧
      win' = {win with splatCloud := cloud} := by
  refine (bodyCloud_returns hm hnow hz).bind fun body hbody => ?_
  refine (buttonCloud_returns hm hnow hz).bind fun buttons hbuttons => ?_
  exact Returns.pure ⟨_,List.forall_mem_append.mpr ⟨hbody,hbuttons⟩,rfl⟩

/-- A window with bounded geometry is bounded once it has its cloud. -/
theorem generateCloud_bounded (hm : m ≤ 8192) (hnow : Bounds m win.x win.y win.w win.h)
    (hnormal : Bounds m win.normalX win.normalY win.normalW win.normalH)
    (hbase : 0 ≤ win.baseZ ∧ win.baseZ ≤ 300) (htarget : 0 ≤ win.targetZ ∧ win.targetZ ≤ 300)
    (htrans : ∀ t, win.state = .transitioning t → t.Bounded m) :
    Returns win.generateCloud (Bounded m) := by
  refine (generateCloud_returns hm hnow hbase).mono ?_
  rintro _ ⟨cloud,hcloud,rfl⟩
  exact ⟨hnow,hnormal,hbase,htarget,htrans,hcloud⟩

theorem transitionTo_bounded (h : win.Bounded m) {tW tH tX tY : ℤ} (ht : Bounds m tX tY tW tH)
    (finalMode : WindowMode) : (win.transitionTo tW tH tX tY finalMode).Bounded m where
  now := h.now
  normal := h.normal
  baseZ := h.baseZ
  targetZ := h.targetZ
  transition t heq := by
    cases heq
    exact ⟨rfl,⟨le_refl 0,show (0 : ℤ) < 15 by norm_num⟩,h.now,ht⟩
  cloud := h.cloud

theorem triggerMaximize_bounded (h : win.Bounded m) {screenW screenH : ℤ}
    (hscreen : Bounds m 0 0 screenW screenH) : (win.triggerMaximize screenW screenH).Bounded m := by
  refine transitionTo_bounded ?_ hscreen _
  split
  · exact ⟨h.now,h.now,h.baseZ,h.targetZ,h.transition,h.cloud⟩
  · exact h

theorem slideDepth_returns (hm : m ≤ 8192) (h : win.Bounded m) :
    Returns win.slideDepth fun r => r.1.Bounded m := by
  have hbase := h.baseZ
  have htarget := h.targetZ
  refine Returns.ite (fun _ => ?_) fun _ => Returns.pure h
  refine Returns.bind_i32 (by omega) (by omega) ?_
  refine Returns.bind_divI32 (by omega) (by omega) (by omega) fun q hq => ?_
  have hpos := hq.nonneg
  have hneg := hq.nonpos
  refine Returns.bind_i32 (by omega) (by omega) ?_
  refine Returns.bind_absI32 (by omega) (by omega) ?_
  refine Returns.bind (Q := Bounded m) ?_ fun _ hwin => Returns.pure hwin
  refine generateCloud_bounded hm h.now h.normal ?_ htarget h.transition
  dsimp only
  split <;> omega

/-- What lies between two values of a range lies in it. -/
theorem interpolate_returns {s t factor lo hi : ℤ} (hlo : -8192 ≤ lo) (hhi : hi ≤ 8192)
    (hs : lo ≤ s ∧ s ≤ hi) (ht : lo ≤ t ∧ t ≤ hi) (hf : 0 ≤ factor ∧ factor ≤ 100) :
    Returns (interpolate s t factor) fun v => lo ≤ v ∧ v ≤ hi := by
  have hup : 0 ≤ t - s → 0 ≤ (t - s) * factor ∧ (t - s) * factor ≤ (t - s) * 100 := fun h =>
    ⟨mul_nonneg h hf.1,mul_le_mul_of_nonneg_left hf.2 h⟩
  have hdown : t - s ≤ 0 → (t - s) * factor ≤ 0 ∧ (t - s) * 100 ≤ (t - s) * factor := fun h =>
    ⟨mul_nonpos_of_nonpos_of_nonneg h hf.1,mul_le_mul_of_nonpos_left hf.2 h⟩
  refine Returns.bind_i32 (by omega) (by omega) ?_
  refine Returns.bind_i32 (by omega) (by omega) ?_
  refine Returns.bind_divI32 (by omega) (by omega) (by omega) fun q hq => ?_
  have hpos := hq.nonneg
  have hneg := hq.nonpos
  exact Returns.of_i32 (by omega) (by omega) (by omega)

theorem advance_returns (hm : m ≤ 8192) (h : win.Bounded m) :
    Returns win.advance fun r => r.1.Bounded m := by
  unfold advance
  split
  · exact Returns.pure h
  · rename_i t hstate
    obtain ⟨hmax,hp,hstart,htarget⟩ := h.transition t hstate
    rw [hmax]
    have hprod : 0 ≤ (t.progress + 1) * (2 * 15 - (t.progress + 1)) ∧
        (t.progress + 1) * (2 * 15 - (t.progress + 1)) ≤ 225 := by
      constructor <;> nlinarith
    refine Returns.bind_i32 (by omega) (by omega) ?_
    refine Returns.bind_i32 (by omega) (by omega) ?_
    refine Returns.bind_i32 (by omega) (by omega) ?_
    refine Returns.bind_i32 (by omega) (by omega) ?_
    refine Returns.bind_i32 (by omega) (by omega) ?_
    refine Returns.bind_i32 (by omega) (by omega) ?_
    refine Returns.bind_divI32 (by omega) (by omega) (by omega) fun factor hfactor => ?_
    have hfactor := hfactor.nonneg (by omega)
    refine (interpolate_returns (by omega) hm hstart.w htarget.w (by omega)).bind fun w hw => ?_
    refine (interpolate_returns (by omega) hm hstart.h htarget.h (by omega)).bind fun h' hh => ?_
    refine (interpolate_returns (by omega) (by omega) hstart.x htarget.x (by omega)).bind
      fun x hx => ?_
    refine (interpolate_returns (by omega) (by omega) hstart.y htarget.y (by omega)).bind
      fun y hy => ?_
    refine Returns.bind (Q := Bounded m) ?_ fun _ hwin => Returns.pure hwin
    split
    · refine generateCloud_bounded hm htarget h.normal h.baseZ h.targetZ ?_
      intro t' heq
      cases heq
    · refine generateCloud_bounded hm ⟨hx,hy,hw,hh⟩ h.normal h.baseZ h.targetZ ?_
      intro t' heq
      cases heq
      exact ⟨rfl,by dsimp only; omega,hstart,htarget⟩

theorem updatePhysics_returns (hm : m ≤ 8192) (h : win.Bounded m) :
    Returns win.updatePhysics fun r => r.1.Bounded m := by
  refine (slideDepth_returns hm h).bind fun r hr => ?_
  exact (advance_returns hm hr).bind fun r' hr' => Returns.pure hr'

theorem spawn_returns (hm : 800 ≤ m ∧ m ≤ 8192) (id : UInt32) {originX originY : ℤ}
    (hx : 0 ≤ originX ∧ originX ≤ 8192) (hy : 0 ≤ originY ∧ originY ≤ 8192) :
    Returns (spawn id originX originY 800 600) (Bounded m) := by
  refine Returns.bind_divI32 (by omega) (by omega) (by omega) fun w2 hw2 => ?_
  have hw2 := hw2.nonneg (by omega)
  refine Returns.bind_i32 (by omega) (by omega) ?_
  refine Returns.bind_divI32 (by omega) (by omega) (by omega) fun h2 hh2 => ?_
  have hh2 := hh2.nonneg (by omega)
  refine Returns.bind_i32 (by omega) (by omega) ?_
  have hstart : Bounds m originX originY 40 40 :=
    ⟨by omega,by omega,by omega,by omega⟩
  have htarget : Bounds m (originX - w2) (originY - h2) 800 600 :=
    ⟨by omega,by omega,by omega,by omega⟩
  refine generateCloud_bounded hm.2 hstart htarget ⟨le_refl 0,by norm_num⟩ ⟨le_refl 0,by norm_num⟩ ?_
  intro t heq
  cases heq
  exact ⟨rfl,⟨le_refl 0,show (0 : ℤ) < 15 by norm_num⟩,hstart,htarget⟩

end SemanticWindow
end PolymorphOS
