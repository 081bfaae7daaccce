import Mathlib.Order.Interval.Set.UnorderedInterval
import PolymorphOS.SplatEngine

/-! What `update_physics` makes of a window, as functions of its depth and of its transition. -/
namespace PolymorphOS

/-- Where a window is, and how large. -/
structure Geometry where
  x : ℤ
  y : ℤ
  w : ℤ
  h : ℤ
  deriving DecidableEq

/-- The numbers whose sums and multiples here are far from the ends of `i32`. -/
structure Geometry.Wide (g : Geometry) : Prop where
  x : -2^20 ≤ g.x ∧ g.x ≤ 2^20
  y : -2^20 ≤ g.y ∧ g.y ≤ 2^20
  w : -2^20 ≤ g.w ∧ g.w ≤ 2^20
  h : -2^20 ≤ g.h ∧ g.h ≤ 2^20

/-- The depth one step later: a quarter of the way, and the rest of it at once where it is short. -/
def nextDepth (z target : ℤ) : ℤ := if |target - z| < 5 then target else z + (target - z).tdiv 4

/-- The part of the way, `s + ((t - s) * factor) / 100`. -/
def lerp (s t factor : ℤ) : ℤ := s + ((t - s) * factor).tdiv 100

namespace Transition

/-- How many percent of the way are behind the transition after `p` steps. -/
def factor (t : Transition) (p : ℤ) : ℤ := (p * (2 * t.max - p) * 100).tdiv (t.max * t.max)

def start (t : Transition) : Geometry := ⟨t.sX,t.sY,t.sW,t.sH⟩

def target (t : Transition) : Geometry := ⟨t.tX,t.tY,t.tW,t.tH⟩

/-- Where the transition has taken the window after `p` steps. -/
def place (t : Transition) (p : ℤ) : Geometry :=
  ⟨lerp t.sX t.tX (t.factor p),lerp t.sY t.tY (t.factor p),lerp t.sW t.tW (t.factor p),
    lerp t.sH t.tH (t.factor p)⟩

end Transition

namespace SemanticWindow

def geometry (win : SemanticWindow) : Geometry := ⟨win.x,win.y,win.w,win.h⟩

/-- The geometry that restore leads to. -/
def normal (win : SemanticWindow) : Geometry :=
  ⟨win.normalX,win.normalY,win.normalW,win.normalH⟩

/-- The window without its cloud. -/
def bare (win : SemanticWindow) : SemanticWindow := {win with splatCloud := []}

/-- The window there, in this state. -/
def moveTo (win : SemanticWindow) (g : Geometry) (state : WindowState) : SemanticWindow :=
  {win with x := g.x,y := g.y,w := g.w,h := g.h,state := state}

/-- The window one step nearer to its depth. -/
def slid (win : SemanticWindow) : SemanticWindow :=
  {win with baseZ := nextDepth win.baseZ win.targetZ}

/-- The window one step of its transition further. -/
def advanced (win : SemanticWindow) : SemanticWindow :=
  match win.state with
  | .stable _ => win
  | .transitioning t =>
    if t.progress + 1 ≥ t.max then win.moveTo t.target (.stable t.finalMode)
    else win.moveTo (t.place (t.progress + 1)) (.transitioning {t with progress := t.progress + 1})

/-- What `update_physics` leaves, but for the cloud. -/
def ticked (win : SemanticWindow) : SemanticWindow := win.slid.advanced

end SemanticWindow

/-! ### The depth -/

theorem nextDepth_self (z : ℤ) : nextDepth z z = z := by simp [nextDepth]

/-- The depth comes closer, and does not go past its target. -/
theorem nextDepth_closer {z target : ℤ} (h : z ≠ target) :
    |target - nextDepth z target| < |target - z| := by
  unfold nextDepth
  split
  · rw [sub_self,abs_zero]
    exact abs_pos.mpr (sub_ne_zero.mpr h.symm)
  · rename_i hfar
    have hq := quotient_tdiv (a := target - z) (b := 4) (by norm_num)
    generalize (target - z).tdiv 4 = q at hq
    have hpos := hq.nonneg
    have hneg := hq.nonpos
    rcases le_total 0 (target - z) with hsign | hsign
    · rw [abs_of_nonneg hsign] at hfar ⊢
      rw [abs_of_nonneg (by omega)]
      omega
    · rw [abs_of_nonpos hsign] at hfar ⊢
      rw [abs_of_nonpos (by omega)]
      omega

theorem nextDepth_mem (z target : ℤ) : nextDepth z target ∈ Set.uIcc z target := by
  rw [Set.mem_uIcc]
  unfold nextDepth
  split
  · omega
  · have hq := quotient_tdiv (a := target - z) (b := 4) (by norm_num)
    have hpos := hq.nonneg
    have hneg := hq.nonpos
    omega

/-! ### The place -/

namespace Transition

variable {t : Transition} {p : ℤ}

theorem factor_eq (hmax : t.max = 15) (p : ℤ) : t.factor p = (p * (30 - p) * 100).tdiv 225 := by
  rw [factor,hmax]
  norm_num

theorem factor_bounds (hmax : t.max = 15) (hp : 0 ≤ p ∧ p ≤ 15) :
    0 ≤ t.factor p ∧ t.factor p ≤ 100 := by
  have hprod : 0 ≤ p * (30 - p) ∧ p * (30 - p) ≤ 225 := by constructor <;> nlinarith
  have hq := (quotient_tdiv (a := p * (30 - p) * 100) (b := 225) (by norm_num)).nonneg (by omega)
  rw [factor_eq hmax]
  omega

theorem factor_mono (hmax : t.max = 15) (hp : 0 ≤ p ∧ p < 15) :
    t.factor p ≤ t.factor (p + 1) := by
  have hprod : 0 ≤ p * (30 - p) ∧ p * (30 - p) ≤ (p + 1) * (30 - (p + 1)) := by
    constructor <;> nlinarith
  have hq := (quotient_tdiv (a := p * (30 - p) * 100) (b := 225) (by norm_num)).nonneg (by omega)
  have hq' := (quotient_tdiv (a := (p + 1) * (30 - (p + 1)) * 100) (b := 225) (by norm_num)).nonneg
    (by omega)
  rw [factor_eq hmax,factor_eq hmax]
  omega

end Transition

/-- More percent of the way are nearer to its end. -/
theorem lerp_mem {s t f f' : ℤ} (hf : 0 ≤ f) (hle : f ≤ f') (hf' : f' ≤ 100) :
    lerp s t f ∈ Set.uIcc s t ∧ lerp s t f' ∈ Set.uIcc (lerp s t f) t := by
  have hq := quotient_tdiv (a := (t - s) * f) (b := 100) (by norm_num)
  have hq' := quotient_tdiv (a := (t - s) * f') (b := 100) (by norm_num)
  simp only [Set.mem_uIcc,lerp]
  rcases le_total 0 (t - s) with hsign | hsign
  · have h0 : 0 ≤ (t - s) * f := mul_nonneg hsign hf
    have h1 : (t - s) * f ≤ (t - s) * f' := mul_le_mul_of_nonneg_left hle hsign
    have h2 : (t - s) * f' ≤ (t - s) * 100 := mul_le_mul_of_nonneg_left hf' hsign
    have hpos := hq.nonneg h0
    have hpos' := hq'.nonneg (h0.trans h1)
    omega
  · have h0 : (t - s) * f ≤ 0 := mul_nonpos_of_nonpos_of_nonneg hsign hf
    have h1 : (t - s) * f' ≤ (t - s) * f := mul_le_mul_of_nonpos_left hle hsign
    have h2 : (t - s) * 100 ≤ (t - s) * f' := mul_le_mul_of_nonpos_left hf' hsign
    have hneg := hq.nonpos h0
    have hneg' := hq'.nonpos (h1.trans h0)
    omega

/-- Coordinate by coordinate, the second geometry is between the first and the third. -/
structure Geometry.Between (a b c : Geometry) : Prop where
  x : b.x ∈ Set.uIcc a.x c.x
  y : b.y ∈ Set.uIcc a.y c.y
  w : b.w ∈ Set.uIcc a.w c.w
  h : b.h ∈ Set.uIcc a.h c.h

theorem Geometry.Between.refl_right (a b : Geometry) : a.Between b b :=
  ⟨Set.right_mem_uIcc,Set.right_mem_uIcc,Set.right_mem_uIcc,Set.right_mem_uIcc⟩

theorem Geometry.Wide.of_between {a b c : Geometry} (ha : a.Wide) (hc : c.Wide)
    (h : a.Between b c) : b.Wide := by
  have hmem {u v w : ℤ} (hu : -2^20 ≤ u ∧ u ≤ 2^20) (hw : -2^20 ≤ w ∧ w ≤ 2^20)
      (hv : v ∈ Set.uIcc u w) : -2^20 ≤ v ∧ v ≤ 2^20 := by
    rw [Set.mem_uIcc] at hv
    omega
  exact ⟨hmem ha.x hc.x h.x,hmem ha.y hc.y h.y,hmem ha.w hc.w h.w,hmem ha.h hc.h h.h⟩

namespace Transition

variable {t : Transition} {p : ℤ}

/-- The place is on the way from the start to the target, and one step later on the rest of it. -/
theorem place_between (hmax : t.max = 15) (hp : 0 ≤ p ∧ p < 15) :
    t.start.Between (t.place p) t.target ∧ (t.place p).Between (t.place (p + 1)) t.target := by
  have hlo := (factor_bounds hmax ⟨hp.1,hp.2.le⟩).1
  have hhi := (factor_bounds (p := p + 1) hmax (by omega)).2
  have hmem (s t : ℤ) := lerp_mem (s := s) (t := t) hlo (factor_mono hmax hp) hhi
  exact ⟨⟨(hmem _ _).1,(hmem _ _).1,(hmem _ _).1,(hmem _ _).1⟩,
    ⟨(hmem _ _).2,(hmem _ _).2,(hmem _ _).2,(hmem _ _).2⟩⟩

theorem place_wide (hmax : t.max = 15) (hp : 0 ≤ p ∧ p < 15) (hstart : t.start.Wide)
    (htarget : t.target.Wide) : (t.place (p + 1)).Wide := by
  obtain ⟨hnow,hnext⟩ := place_between hmax hp
  exact (hstart.of_between htarget hnow).of_between htarget hnext

end Transition

/-! ### One step, if it returns -/

namespace SemanticWindow

variable {win win' : SemanticWindow}

theorem advanced_stable {mode : WindowMode} (h : win.state = .stable mode) :
    win.advanced = win := by
  rw [advanced,h]

theorem advanced_transitioning {t : Transition} (h : win.state = .transitioning t) :
    win.advanced = if t.progress + 1 ≥ t.max then win.moveTo t.target (.stable t.finalMode)
      else win.moveTo (t.place (t.progress + 1))
        (.transitioning {t with progress := t.progress + 1}) := by
  rw [advanced,h]

/-- The cloud plays no part. -/
theorem advanced_bare (win : SemanticWindow) : win.advanced.bare = win.bare.advanced := by
  cases hstate : win.state with
  | stable mode =>
    have hbare : win.bare.state = .stable mode := hstate
    rw [advanced_stable hstate,advanced_stable hbare]
  | transitioning t =>
    have hbare : win.bare.state = .transitioning t := hstate
    rw [advanced_transitioning hstate,advanced_transitioning hbare]
    split <;> rfl

theorem generateCloud_ensures : Ensures win.generateCloud fun win' => win'.bare = win.bare :=
  Ensures.of_true.bind fun _ _ => Ensures.of_true.bind fun _ _ => Ensures.pure rfl

theorem slideDepth_ensures : Ensures win.slideDepth fun out => out.1.bare = win.slid.bare := by
  refine Ensures.ite (fun _ => ?_) fun hsame => Ensures.pure ?_
  · refine Ensures.bind_i32 (Ensures.bind_divI32 fun _ => Ensures.bind_i32 ?_)
    refine (Ensures.i32 (Q := fun a => a = |win.targetZ - win.baseZ|) rfl).bind fun a ha => ?_
    subst ha
    refine generateCloud_ensures.bind fun win' hwin' => Ensures.pure (hwin'.trans ?_)
    rfl
  · have hz : nextDepth win.baseZ win.targetZ = win.baseZ := by
      rw [not_not.mp hsame,nextDepth_self]
    rw [slid,hz]

theorem interpolate_ensures {s t f : ℤ} : Ensures (interpolate s t f) fun v => v = lerp s t f :=
  Ensures.bind_i32 (Ensures.bind_i32 (Ensures.bind_divI32 fun _ => Ensures.i32 rfl))

theorem advance_ensures : Ensures win.advance fun out => out.1.bare = win.advanced.bare := by
  unfold advance
  split
  · rename_i mode hstate
    rw [advanced_stable hstate]
    exact Ensures.pure rfl
  · rename_i t hstate
    rw [advanced_transitioning hstate]
    refine Ensures.bind_i32 (Ensures.bind_i32 (Ensures.bind_i32 (Ensures.bind_i32 ?_)))
    refine Ensures.bind_i32 (Ensures.bind_i32 (Ensures.bind_divI32 fun _ => ?_))
    refine interpolate_ensures.bind fun w hw => interpolate_ensures.bind fun h hh => ?_
    refine interpolate_ensures.bind fun x hx => interpolate_ensures.bind fun y hy => ?_
    subst hw hh hx hy
    refine generateCloud_ensures.bind fun win' hwin' => Ensures.pure (hwin'.trans ?_)
    split <;> rfl

/-- What `update_physics` returns, if it returns. -/
theorem updatePhysics_ensures :
    Ensures win.updatePhysics fun out => out.1.bare = win.ticked.bare := by
  refine slideDepth_ensures.bind fun out hout => ?_
  refine advance_ensures.bind fun out' hout' => Ensures.pure (hout'.trans ?_)
  rw [advanced_bare,hout,← advanced_bare]
  rfl

theorem bare_congr {A : Type} (f : SemanticWindow → A) (hf : ∀ w, f w.bare = f w)
    (h : win'.bare = win.bare) : f win' = f win := by
  rw [← hf win',h,hf win]

theorem ticked_baseZ (win : SemanticWindow) :
    win.ticked.baseZ = nextDepth win.baseZ win.targetZ ∧ win.ticked.targetZ = win.targetZ := by
  unfold ticked advanced
  split
  · exact ⟨rfl,rfl⟩
  · split <;> exact ⟨rfl,rfl⟩

theorem ticked_stable {mode : WindowMode} (h : win.state = .stable mode) :
    win.ticked.state = .stable mode ∧ win.ticked.geometry = win.geometry := by
  rw [ticked,advanced_stable (show win.slid.state = .stable mode from h)]
  exact ⟨h,rfl⟩

theorem ticked_last {t : Transition} (h : win.state = .transitioning t)
    (hlast : t.progress + 1 ≥ t.max) :
    win.ticked.state = .stable t.finalMode ∧ win.ticked.geometry = t.target := by
  rw [ticked,advanced_transitioning (show win.slid.state = .transitioning t from h),if_pos hlast]
  exact ⟨rfl,rfl⟩

theorem ticked_next {t : Transition} (h : win.state = .transitioning t)
    (hnext : t.progress + 1 < t.max) :
    win.ticked.state = .transitioning {t with progress := t.progress + 1} ∧
      win.ticked.geometry = t.place (t.progress + 1) := by
  rw [ticked,advanced_transitioning (show win.slid.state = .transitioning t from h),
    if_neg hnext.not_ge]
  exact ⟨rfl,rfl⟩

/-- The mode that the window is in or goes to. -/
def mode (win : SemanticWindow) : WindowMode :=
  match win.state with
  | .stable mode => mode
  | .transitioning t => t.finalMode

theorem mode_stable {mode : WindowMode} (h : win.state = .stable mode) : win.mode = mode := by
  rw [SemanticWindow.mode,h]

theorem mode_congr (h : win'.state = win.state) : win'.mode = win.mode := by
  rw [mode,mode,h]

theorem mode_transitioning {t : Transition} (h : win.state = .transitioning t) :
    win.mode = t.finalMode := by
  rw [mode,h]

theorem ticked_mode (win : SemanticWindow) : win.ticked.mode = win.mode := by
  cases hstate : win.state with
  | stable mode => rw [mode_stable hstate,mode_stable (ticked_stable hstate).1]
  | transitioning t =>
    rw [mode_transitioning hstate]
    by_cases hlast : t.progress + 1 ≥ t.max
    · exact mode_stable (ticked_last hstate hlast).1
    · have hnext := mode_transitioning (ticked_next hstate (not_le.mp hlast)).1
      exact hnext

theorem ticked_keeps (win : SemanticWindow) :
    win.ticked.id = win.id ∧ win.ticked.normal = win.normal := by
  unfold ticked advanced
  split
  · exact ⟨rfl,rfl⟩
  · split <;> exact ⟨rfl,rfl⟩

theorem spawn_ensures {id : UInt32} {x y w h : ℤ} : Ensures (spawn id x y w h) fun win =>
    win.id = id ∧ ∃ t, win.state = .transitioning t ∧ t.finalMode = .instantiated := by
  refine Ensures.bind_divI32 fun _ => Ensures.bind_i32 ?_
  refine Ensures.bind_divI32 fun _ => Ensures.bind_i32 fun win hwin => ?_
  have hbare := generateCloud_ensures win hwin
  exact ⟨bare_congr SemanticWindow.id (fun _ => rfl) hbare,_,
    bare_congr state (fun _ => rfl) hbare,rfl⟩

/-- The window has made so many steps of a transition of 15. -/
structure Underway (win : SemanticWindow) (t : Transition) (steps : ℤ) : Prop where
  state : win.state = .transitioning {t with progress := steps}
  max : t.max = 15

theorem Underway.next {t : Transition} {steps : ℤ} (h : win.Underway t steps)
    (hnext : steps + 1 < 15) (hbare : win'.bare = win.ticked.bare) :
    win'.Underway t (steps + 1) ∧ win'.geometry = t.place (steps + 1) := by
  obtain ⟨hstate,hplace⟩ := ticked_next h.state (show steps + 1 < t.max by rw [h.max]; exact hnext)
  exact ⟨⟨(bare_congr SemanticWindow.state (fun _ => rfl) hbare).trans hstate,h.max⟩,
    (bare_congr geometry (fun _ => rfl) hbare).trans hplace⟩

theorem Underway.last {t : Transition} {steps : ℤ} (h : win.Underway t steps)
    (hlast : 15 ≤ steps + 1) (hbare : win'.bare = win.ticked.bare) :
    win'.state = .stable t.finalMode ∧ win'.geometry = t.target := by
  obtain ⟨hstate,hplace⟩ := ticked_last h.state (show steps + 1 ≥ t.max by rw [h.max]; exact hlast)
  exact ⟨(bare_congr SemanticWindow.state (fun _ => rfl) hbare).trans hstate,
    (bare_congr geometry (fun _ => rfl) hbare).trans hplace⟩

/-- A trigger begins such a transition. -/
theorem underway_transitionTo (win : SemanticWindow) (w h x y : ℤ) (finalMode : WindowMode) :
    ∃ t : Transition, (win.transitionTo w h x y finalMode).Underway t 0 ∧
      t.finalMode = finalMode ∧ t.target = ⟨x,y,w,h⟩ := by
  let t : Transition :=
    {progress := 0,max := 15,sW := win.w,sH := win.h,sX := win.x,sY := win.y,tW := w,tH := h,
      tX := x,tY := y,finalMode := finalMode}
  exact ⟨t,⟨rfl,rfl⟩,rfl,rfl⟩

/-! ### One step in range -/

/-- A window in the ranges in which `update_physics` does not overflow. -/
structure InRange (win : SemanticWindow) : Prop where
  now : win.geometry.Wide
  baseZ : -2^29 ≤ win.baseZ ∧ win.baseZ ≤ 2^29
  targetZ : -2^29 ≤ win.targetZ ∧ win.targetZ ≤ 2^29
  transition : ∀ t, win.state = .transitioning t →
    t.max = 15 ∧ (0 ≤ t.progress ∧ t.progress < 15) ∧ t.start.Wide ∧ t.target.Wide

theorem InRange.of_bare (h : win.InRange) (hbare : win'.bare = win.bare) : win'.InRange := by
  have hrange : win.bare.InRange := ⟨h.now,h.baseZ,h.targetZ,h.transition⟩
  rw [← hbare] at hrange
  exact ⟨hrange.now,hrange.baseZ,hrange.targetZ,hrange.transition⟩

theorem InRange.slid (h : win.InRange) : win.slid.InRange := by
  have hbase := h.baseZ
  have htarget := h.targetZ
  have hnext := Set.mem_uIcc.mp (nextDepth_mem win.baseZ win.targetZ)
  refine ⟨h.now,?_,h.targetZ,h.transition⟩
  simp only [SemanticWindow.slid]
  omega

theorem InRange.advanced (h : win.InRange) : win.advanced.InRange := by
  cases hstate : win.state with
  | stable mode =>
    rw [advanced_stable hstate]
    exact h
  | transitioning t =>
    obtain ⟨hmax,hp,hstart,htarget⟩ := h.transition t hstate
    rw [advanced_transitioning hstate,hmax]
    split
    · exact ⟨htarget,h.baseZ,h.targetZ,fun _ hnot => nomatch hnot⟩
    · refine ⟨t.place_wide hmax hp hstart htarget,h.baseZ,h.targetZ,?_⟩
      rintro _ ⟨⟩
      exact ⟨rfl,by dsimp only; omega,hstart,htarget⟩

theorem bodyCloud_wide (hnow : win.geometry.Wide) (hz : -2^29 ≤ win.baseZ ∧ win.baseZ ≤ 2^29) :
    Returns win.bodyCloud fun _ => True := by
  obtain ⟨hx,hy,hw,hh⟩ := hnow
  simp only [geometry] at hx hy hw hh
  refine Returns.bind_divI32 (by omega) (by omega) (by omega) fun w2 hw2 => ?_
  have hw2 := hw2.abs_le (m := 2^20) (by omega) (by omega)
  refine Returns.bind_i32 (by omega) (by omega) ?_
  refine Returns.bind_divI32 (by omega) (by omega) (by omega) fun h2 hh2 => ?_
  have hh2 := hh2.abs_le (m := 2^20) (by omega) (by omega)
  refine Returns.bind_i32 (by omega) (by omega) ?_
  refine Returns.bind_divI32 (by omega) (by omega) (by omega) fun _ _ => ?_
  refine Returns.bind_divI32 (by omega) (by omega) (by omega) fun _ _ => ?_
  -- the body
  refine Returns.bind_i32 (by omega) (by omega) ?_
  refine Returns.bind_divI32 (by omega) (by omega) (by omega) fun _ _ => ?_
  refine Returns.bind_divI32 (by omega) (by omega) (by omega) fun _ _ => ?_
  -- the borders at the top, at the bottom, on the left and on the right
  refine Returns.bind_i32 (by omega) (by omega) ?_
  refine Returns.bind_divI32 (by omega) (by omega) (by omega) fun _ _ => ?_
  refine Returns.bind_i32 (by omega) (by omega) ?_
  refine Returns.bind_i32 (by omega) (by omega) ?_
  refine Returns.bind_divI32 (by omega) (by omega) (by omega) fun _ _ => ?_
  refine Returns.bind_i32 (by omega) (by omega) ?_
  refine Returns.bind_divI32 (by omega) (by omega) (by omega) fun _ _ => ?_
  refine Returns.bind_i32 (by omega) (by omega) ?_
  refine Returns.bind_i32 (by omega) (by omega) ?_
  exact Returns.bind_divI32 (by omega) (by omega) (by omega) fun _ _ => Returns.pure trivial

theorem buttonCloud_wide (hnow : win.geometry.Wide) (hz : -2^29 ≤ win.baseZ ∧ win.baseZ ≤ 2^29) :
    Returns win.buttonCloud fun _ => True := by
  obtain ⟨hx,hy,hw,hh⟩ := hnow
  simp only [geometry] at hx hy hw hh
  have hbutton (inset : ℤ) (hinset : 0 ≤ inset ∧ inset ≤ 85) (r g b : UInt8) :
      Returns (win.button inset r g b) fun _ => True := by
    refine Returns.bind_i32 (by omega) (by omega) (Returns.bind_i32 (by omega) (by omega) ?_)
    refine Returns.bind_i32 (by omega) (by omega) (Returns.bind_i32 (by omega) (by omega) ?_)
    exact Returns.pure trivial
  unfold buttonCloud
  split
  · exact Returns.pure trivial
  · exact Returns.pure trivial
  · refine (hbutton 25 (by omega) 255 50 50).bind fun _ _ => ?_
    refine (hbutton 55 (by omega) 255 200 50).bind fun _ _ => ?_
    exact (hbutton 85 (by omega) 50 255 100).bind fun _ _ => Returns.pure trivial

theorem generateCloud_wide (h : win.InRange) : Returns win.generateCloud fun _ => True := by
  refine (bodyCloud_wide h.now h.baseZ).bind fun body _ => ?_
  exact (buttonCloud_wide h.now h.baseZ).bind fun buttons _ => Returns.pure trivial

theorem slideDepth_wide (h : win.InRange) : Returns win.slideDepth fun _ => True := by
  have hbase := h.baseZ
  have htarget := h.targetZ
  refine Returns.ite (fun _ => ?_) fun hsame => Returns.pure trivial
  have hq := (quotient_tdiv (a := win.targetZ - win.baseZ) (b := 4) (by norm_num)).abs_le
    (m := 2^30) (by norm_num) (by omega)
  refine Returns.bind_i32 (by omega) (by omega) ?_
  refine Returns.bind_tdivI32 (by norm_num) (by omega) (by omega) ?_
  refine Returns.bind_i32 (by omega) (by omega) (Returns.bind_absI32 (by omega) (by omega) ?_)
  exact (generateCloud_wide h.slid).bind fun _ _ => Returns.pure trivial

theorem interpolate_wide {s t f : ℤ} (hs : -2^20 ≤ s ∧ s ≤ 2^20) (ht : -2^20 ≤ t ∧ t ≤ 2^20)
    (hf : 0 ≤ f ∧ f ≤ 100) : Returns (interpolate s t f) fun v => v = lerp s t f := by
  have hdiff : |t - s| ≤ 2^21 := abs_le.mpr ⟨by omega,by omega⟩
  have habs : |(t - s) * f| ≤ 2^21 * 100 := by
    rw [abs_mul,abs_of_nonneg hf.1]
    exact mul_le_mul hdiff hf.2 hf.1 (by norm_num)
  have hprod := abs_le.mp habs
  have hmem := Set.mem_uIcc.mp (lerp_mem (s := s) (t := t) hf.1 le_rfl hf.2).1
  rw [lerp] at hmem
  refine Returns.bind_i32 (by omega) (by omega) (Returns.bind_i32 (by omega) (by omega) ?_)
  exact Returns.bind_tdivI32 (by norm_num) (by omega) (by omega)
    (Returns.of_i32 (by omega) (by omega) rfl)

theorem advance_wide (h : win.InRange) : Returns win.advance fun _ => True := by
  unfold advance
  split
  · exact Returns.pure trivial
  · rename_i t hstate
    obtain ⟨hmax,hp,hstart,htarget⟩ := h.transition t hstate
    have hf := t.factor_bounds (p := t.progress + 1) hmax (by omega)
    have hadvanced := h.advanced
    rw [advanced_transitioning hstate] at hadvanced
    have hsquare : t.max * t.max = 225 := by rw [hmax]; norm_num
    have hprod : 0 ≤ (t.progress + 1) * (2 * t.max - (t.progress + 1)) ∧
        (t.progress + 1) * (2 * t.max - (t.progress + 1)) ≤ 225 := by
      rw [hmax]
      constructor <;> nlinarith
    refine Returns.bind_i32 (by omega) (by omega) (Returns.bind_i32 (by omega) (by omega) ?_)
    refine Returns.bind_i32 (by omega) (by omega) (Returns.bind_i32 (by omega) (by omega) ?_)
    refine Returns.bind_i32 (by omega) (by omega) (Returns.bind_i32 (by omega) (by omega) ?_)
    refine Returns.bind_tdivI32 (by omega) (by omega) (by omega) ?_
    refine (interpolate_wide hstart.w htarget.w hf).bind fun w hw => ?_
    refine (interpolate_wide hstart.h htarget.h hf).bind fun h' hh => ?_
    refine (interpolate_wide hstart.x htarget.x hf).bind fun x hx => ?_
    refine (interpolate_wide hstart.y htarget.y hf).bind fun y hy => ?_
    subst hw hh hx hy
    by_cases hlast : t.progress + 1 ≥ t.max
    · simp only [if_pos hlast] at hadvanced ⊢
      exact (generateCloud_wide hadvanced).bind fun _ _ => Returns.pure trivial
    · simp only [if_neg hlast] at hadvanced ⊢
      exact (generateCloud_wide hadvanced).bind fun _ _ => Returns.pure trivial

/-- In range, `update_physics` returns, and leaves a window in range. -/
theorem updatePhysics_wide (h : win.InRange) :
    Returns win.updatePhysics fun out => out.1.InRange ∧ out.1.bare = win.ticked.bare := by
  have hslid : Returns win.slideDepth fun out => out.1.InRange :=
    (slideDepth_wide h).with_ensures fun out hout => h.slid.of_bare (slideDepth_ensures out hout)
  have hreturns : Returns win.updatePhysics fun _ => True :=
    hslid.bind fun out hout => (advance_wide hout).bind fun _ _ => Returns.pure trivial
  refine hreturns.with_ensures fun out hout => ?_
  have hbare := updatePhysics_ensures out hout
  exact ⟨h.slid.advanced.of_bare hbare,hbare⟩

end SemanticWindow

/-- `tick_physics` takes every window one step on, and removes the dead ones. -/
theorem SplatEngine.tickPhysics_ensures {engine : SplatEngine} :
    Ensures engine.tickPhysics fun out => ∃ ticked,
      List.Forall₂ (fun win win' => win'.bare = win.ticked.bare) engine.windows ticked ∧
      out.1 = {engine with windows := ticked.filter fun win => win.state ≠ .stable .dead} := by
  refine (Ensures.mapM_forall₂ (R := fun win out => out.1.bare = win.ticked.bare)
    fun win _ => SemanticWindow.updatePhysics_ensures).bind fun out hout => ?_
  exact Ensures.pure ⟨out.map Prod.fst,List.forall₂_map_right_iff.mpr hout,rfl⟩

end PolymorphOS
