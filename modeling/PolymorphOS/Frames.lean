import Mathlib.Data.List.ReduceOption
import PolymorphOS.Picture
import PolymorphOS.TextLayout

/-! What is on the monitor: the picture that was last pushed to it, of each frame of the desktop no
more than its own calls and the wallpaper behind them. -/
namespace PolymorphOS

open Terminal

/-- A picture that is painted, and the one that is to be seen meanwhile. -/
structure Monitor where
  canvas : Canvas
  shown : ℤ → ℤ → Rgb

def Monitor.act (m : Monitor) : DisplayAction → Monitor
  | .draw call => {m with canvas := m.canvas.paint call}
  | .swapBuffers => {m with shown := m.canvas.picture}

namespace Display

/-- The address of a byte of the backing store. -/
def address (d : Display) (i : ℕ) : UInt64 := d.backing + UInt64.ofNat i

/-- What the backing store holds of a pixel. -/
def shownPixel (d : Display) (x y : ℤ) : Rgb :=
  let i := d.gpu.index x y
  ⟨d.memory (d.address (i + 2)),d.memory (d.address (i + 1)),d.memory (d.address i)⟩

/-- A display with a backing store for the whole back buffer. -/
structure Valid (d : Display) : Prop where
  gpu : d.gpu.Valid
  backing : d.backing ≠ 0
  room : d.backing.toNat + d.gpu.backBuffer.length ≤ 2^64

/-- The display shows what the monitor is to show. -/
structure Shows (d : Display) (m : Monitor) : Prop where
  canvas : d.gpu.Shows m.canvas
  shown : ∀ x y, d.gpu.OnScreen x y → d.shownPixel x y = m.shown x y

variable {d d' : Display} {m : Monitor} {build : Profile}

theorem address_sub {i : ℕ} (hi : i < 2^63) : (d.address i - d.backing).toNat = i := by
  have hsub : d.address i - d.backing = UInt64.ofNat i := by
    rw [address,UInt64.add_comm,UInt64.add_sub_cancel]
  rw [hsub,UInt64.toNat_ofNat_of_lt']
  norm_num [UInt64.size]
  omega

/-- The back buffer is copied as it is. -/
theorem swapBuffers_shows (hd : d.Valid) (h : d.Shows m) :
    d.swapBuffers.Valid ∧ d.swapBuffers.Shows (m.act .swapBuffers) := by
  refine ⟨⟨hd.gpu,hd.backing,hd.room⟩,h.canvas,fun x y hxy => ?_⟩
  have hfits := GpuDriver.index_fits hd.gpu hxy
  have hbytes := hd.gpu.bytes_le
  have hlt := hd.gpu.length_lt
  have hbyte (i : ℕ) (hi : i < d.gpu.backBuffer.length) :
      d.swapBuffers.memory (d.address i) = d.gpu.backBuffer.getD i 0 := by
    show d.copied.getD (d.address i - d.backing).toNat (d.memory (d.address i)) = _
    rw [address_sub (by omega),copied,if_pos hd.backing,List.getD_eq_getElem?_getD,
      List.getD_eq_getElem?_getD,List.getElem?_eq_getElem hi]
    rfl
  calc d.swapBuffers.shownPixel x y
    _ = GpuDriver.pixelAt d.gpu.backBuffer (d.gpu.index x y) :=
      Rgb.ext (hbyte (d.gpu.index x y + 2) (by omega)) (hbyte (d.gpu.index x y + 1) (by omega))
        (hbyte (d.gpu.index x y) (by omega))
    _ = m.canvas.picture x y := (h.canvas x y hxy).1

theorem draw_shows (hd : d.Valid) (h : d.Shows m) {call : DrawCall} (hrange : call.InRange) :
    Returns (d.draw build call) fun d' => d.gpu.SameShape d'.gpu ∧ d'.Valid ∧
      d'.Shows (m.act (.draw call)) := by
  refine (GpuDriver.draw_shows hd.gpu h.canvas hrange).bind fun gpu hgpu => Returns.pure ?_
  obtain ⟨hshape,hvalid,hshows⟩ := hgpu
  refine ⟨hshape,⟨hvalid,hd.backing,hshape.length ▸ hd.room⟩,hshows,fun x y hxy => ?_⟩
  rw [hshape.onScreen] at hxy
  rw [shownPixel,hshape.index]
  exact h.shown x y hxy

/-- The monitor after some actions. -/
theorem trace_shows {booted s : Display} {actions : List DisplayAction}
    (htrace : (displaySystem build booted).Trace s actions d) (hs : s.Valid) (h : s.Shows m)
    (hrange : ∀ call, .draw call ∈ actions → call.InRange) :
    d.Valid ∧ d.Shows (actions.foldl Monitor.act m) := by
  induction htrace generalizing m with
  | nil => exact ⟨hs,h⟩
  | @cons s t _ a _ hstep _ ih =>
    have hnext : t.Valid ∧ t.Shows (m.act a) := by
      cases a with
      | draw call => exact ((draw_shows hs h (hrange call List.mem_cons_self)).of_ok hstep).2
      | swapBuffers =>
        cases hstep
        exact swapBuffers_shows hs h
    exact ih hnext.1 hnext.2 fun call hcall => hrange call (List.mem_cons_of_mem _ hcall)

end Display

/-- Drawing and swapping in any order: the monitor shows the picture as it was painted up to the
last swap, and no call that is in range panics. -/
theorem display_shows_picture (build : Profile) {booted d : Display} (hvalid : booted.Valid)
    {c : Canvas} (hc : booted.gpu.Shows c) {actions : List DisplayAction}
    (hrange : ∀ call, .draw call ∈ actions → call.InRange)
    (htrace : (displaySystem build booted).Trace booted actions d) :
    d.Shows (actions.foldl Monitor.act ⟨c,booted.shownPixel⟩) ∧
      ∀ call : DrawCall, call.InRange →
        ∃ d', (displaySystem build booted).step d (.draw call) d' := by
  obtain ⟨hd,hshows⟩ := Display.trace_shows (m := ⟨c,booted.shownPixel⟩) htrace hvalid
    ⟨hc,fun _ _ _ => rfl⟩ hrange
  refine ⟨hshows,fun call hcall => ?_⟩
  obtain ⟨d',hd',_⟩ := Display.draw_shows hd hshows hcall
  exact ⟨d',hd'⟩

/-! ### The frames of the desktop -/

namespace SplatEngine

variable (gpu : GpuDriver) (font : Font) (text : UInt32 → TextWindow)

/-- A window, and over it the text that belongs to its number. -/
def renderWindow (win : SemanticWindow) : Except Panic (List DrawCall) := do
  let body ← renderSplats gpu win.splatCloud
  let text ← win.renderText font (text win.id)
  return body ++ text

/-- `SplatEngine::render`. -/
def renderAll (engine : SplatEngine) : Except Panic (SplatEngine × List DrawCall) := do
  let engine := engine.sorted
  let nebula ← renderSplats gpu engine.nebulaSplats
  let launchers ← engine.launchers.mapM fun l => do renderSplats gpu (← launcherSplats l)
  let windows ← engine.windows.mapM (renderWindow gpu font text)
  return (engine,nebula ++ launchers.flatten ++ windows.flatten)

end SplatEngine

/-- `render_desktop`, with everything that it draws before it swaps the buffers. -/
def Desktop.renderFrame (gpu : GpuDriver) (font : Font) (text : UInt32 → TextWindow)
    (d : Desktop) : Except Panic (Desktop × List DrawCall) := do
  let d ← d.handleClick
  let d ← d.parallax.applyDrag
  let (ticked,_) ← d.engine.tickPhysics
  let (engine,drawn) ← ticked.renderAll gpu font text
  let cursor ← d.drawCursor d.leftClick
  return ({d with engine := engine},.restoreFromNebulaCache :: (drawn ++ cursor))

/-- The calls that are about one pixel. -/
def DrawCall.isPixel : DrawCall → Bool
  | .drawPixel _ _ _ _ _ | .blendPixel _ _ _ _ _ _ => true
  | _ => false

/-- All that is drawn is pixels. -/
def Pixels (calls : List DrawCall) : Prop := ∀ call ∈ calls, call.isPixel = true

theorem Pixels.nil : Pixels [] := List.forall_mem_nil _

theorem Pixels.append {calls more : List DrawCall} (h : Pixels calls) (hmore : Pixels more) :
    Pixels (calls ++ more) := List.forall_mem_append.mpr ⟨h,hmore⟩

theorem Pixels.flatten {parts : List (List DrawCall)} (h : ∀ calls ∈ parts, Pixels calls) :
    Pixels parts.flatten := fun call hcall =>
  have ⟨calls,hcalls,hmem⟩ := List.mem_flatten.mp hcall
  h calls hcalls call hmem

theorem blendAt_pixel (splat : GaussianSplat) (projX projY projScaleX projScaleY px py : ℤ) :
    Ensures (splat.blendAt projX projY projScaleX projScaleY px py) fun call =>
      ∀ c, call = some c → c.isPixel = true := by
  -- the falloff takes eleven operations, the alpha two
  iterate 11 refine Ensures.of_true.bind fun _ _ => ?_
  refine Ensures.ite (fun _ => ?_) fun _ => Ensures.pure nofun
  iterate 2 refine Ensures.of_true.bind fun _ _ => ?_
  refine Ensures.ite (fun _ => Ensures.pure ?_) fun _ => Ensures.pure nofun
  rintro _ ⟨⟩
  rfl

theorem renderSingleSplat_pixels (gpu : GpuDriver) (splat : GaussianSplat) :
    Ensures (GaussianSplat.renderSingleSplat gpu splat) Pixels := by
  refine Ensures.of_true.bind fun zDist _ => ?_
  refine Ensures.ite (fun _ => Ensures.pure .nil) fun _ => ?_
  -- the center takes ten operations, the radii four, the corners of the box six
  iterate 20 refine Ensures.of_true.bind fun _ _ => ?_
  refine (Ensures.mapM_forall fun py _ => Ensures.mapM_forall fun px _ =>
    blendAt_pixel splat _ _ _ _ px py).bind fun rows hrows => Ensures.pure fun c hc => ?_
  obtain ⟨row,hrow,hmem⟩ := List.mem_flatten.mp (List.reduceOption_mem_iff.mp hc)
  exact hrows row hrow (some c) hmem c rfl

theorem renderSplats_pixels (gpu : GpuDriver) (splats : List GaussianSplat) :
    Ensures (SplatEngine.renderSplats gpu splats) Pixels :=
  (Ensures.mapM_forall fun splat _ => renderSingleSplat_pixels gpu splat).bind
    fun _ hparts => Ensures.pure (.flatten hparts)

theorem drawBitmap_pixels (cx cy : ℤ) (r g b : UInt8) (bitmap : Option (Vector UInt8 8)) :
    Ensures (drawBitmap cx cy r g b bitmap) Pixels := by
  cases bitmap with
  | none => exact Ensures.pure .nil
  | some bitmap =>
    refine (Ensures.mapM_forall (Q := Pixels) fun row _ => ?_).bind fun _ hrows =>
      Ensures.pure (.flatten hrows)
    refine Ensures.mapM_forall fun x _ => ?_
    iterate 2 refine Ensures.of_true.bind fun _ _ => ?_
    exact Ensures.pure rfl

namespace SemanticWindow

variable {font : Font} {win : SemanticWindow}

theorem drawTitle_pixels : Ensures (win.drawTitle font) Pixels := by
  iterate 2 refine Ensures.of_true.bind fun _ _ => ?_
  refine (Ensures.foldlM (I := fun pen => Pixels pen.2) .nil fun pen hpen c _ => ?_).bind
    fun pen hpen => Ensures.pure hpen
  refine (drawBitmap_pixels _ _ _ _ _ _).bind fun pixels hpixels => ?_
  exact Ensures.of_true.bind fun _ _ => Ensures.pure (hpen.append hpixels)

theorem advance_pixels {pen : Pen} (h : Pixels pen.drawn) :
    Ensures pen.advance fun pen' => Pixels pen'.drawn :=
  Ensures.ite (fun _ => Ensures.pure h) fun _ => Ensures.of_true.bind fun _ _ => Ensures.pure h

theorem putChar_pixels {pen : Pen} (h : Pixels pen.drawn) (c : Char) :
    Ensures (win.putChar font pen c) fun pen' => Pixels pen'.drawn := by
  refine Ensures.of_true.bind fun visible _ => Ensures.ite (fun _ => ?_) fun _ => Ensures.pure h
  refine (drawBitmap_pixels _ _ _ _ _ _).bind fun pixels hpixels => ?_
  exact Ensures.of_true.bind fun _ _ => Ensures.pure (h.append hpixels)

theorem wrapLine_pixels {pen : Pen} (h : Pixels pen.drawn) (maxChars : ℕ) :
    Ensures (win.wrapLine maxChars pen) fun pen' => Pixels pen'.drawn :=
  Ensures.ite (fun _ => (advance_pixels h).bind fun _ hpen =>
    Ensures.of_true.bind fun _ _ => Ensures.pure hpen) fun _ => Ensures.pure h

theorem drawLine_pixels {pen : Pen} (h : Pixels pen.drawn) (maxChars : ℕ) (line : List Char) :
    Ensures (win.drawLine font maxChars pen line) fun pen' => Pixels pen'.drawn := by
  refine Ensures.of_true.bind fun cx _ => ?_
  refine (Ensures.foldlM (I := fun pen => Pixels pen.drawn) h fun pen hpen c _ => ?_).bind
    fun pen hpen => advance_pixels hpen
  exact (wrapLine_pixels hpen maxChars).bind fun pen' hpen' => putChar_pixels hpen' c

theorem renderText_pixels (text : TextWindow) : Ensures (win.renderText font text) Pixels := by
  have hdrawn : Ensures (win.drawText font text >>= fun r => pure (r.1 ++ r.2.drawn)) Pixels := by
    refine Ensures.bind (Q := fun r => Pixels r.1 ∧ Pixels r.2.drawn) ?_
      fun r hr => Ensures.pure (hr.1.append hr.2)
    iterate 2 refine Ensures.of_true.bind fun _ _ => ?_
    refine drawTitle_pixels.bind fun titleDrawn htitle => ?_
    refine Ensures.bind (Q := fun pen => Pixels pen.drawn) ?_ fun first hfirst => ?_
    · exact Ensures.of_true.bind fun _ _ => Ensures.pure .nil
    · refine (Ensures.foldlM (I := fun pen => Pixels pen.drawn) hfirst fun pen hpen line _ =>
        drawLine_pixels hpen _ line).bind fun pen hpen => Ensures.pure ⟨htitle,hpen⟩
  unfold renderText
  split
  · exact hdrawn
  · exact hdrawn
  · exact Ensures.pure .nil

end SemanticWindow

section

variable {gpu : GpuDriver} {font : Font} {text : UInt32 → TextWindow}

theorem renderAll_pixels (engine : SplatEngine) :
    Ensures (engine.renderAll gpu font text) fun r => Pixels r.2 := by
  refine (renderSplats_pixels gpu _).bind fun nebula hnebula => ?_
  refine (Ensures.mapM_forall (Q := Pixels) fun l _ => ?_).bind fun launchers hlaunchers => ?_
  · exact Ensures.of_true.bind fun splats _ => renderSplats_pixels gpu splats
  refine (Ensures.mapM_forall (Q := Pixels) fun win _ => ?_).bind fun windows hwindows => ?_
  · refine (renderSplats_pixels gpu _).bind fun body hbody => ?_
    exact (SemanticWindow.renderText_pixels _).bind fun _ htext => Ensures.pure (hbody.append htext)
  · exact Ensures.pure ((hnebula.append (.flatten hlaunchers)).append (.flatten hwindows))

/-- A frame restores the wallpaper, and then draws pixels. -/
theorem renderFrame_pixels (d : Desktop) : Ensures (d.renderFrame gpu font text) fun r =>
    ∃ drawn, r.2 = .restoreFromNebulaCache :: drawn ∧ Pixels drawn := by
  iterate 2 refine Ensures.of_true.bind fun _ _ => ?_
  refine Ensures.of_true.bind fun ticked _ => ?_
  refine (renderAll_pixels _).bind fun r hr => ?_
  refine Ensures.bind (Q := Pixels) ?_ fun cursor hcursor =>
    Ensures.pure ⟨_,rfl,hr.append hcursor⟩
  refine (Ensures.mapM_forall (Q := Pixels) fun dy _ => ?_).bind fun _ hrows =>
    Ensures.pure (.flatten hrows)
  refine Ensures.mapM_forall fun dx _ => ?_
  iterate 2 refine Ensures.of_true.bind fun _ _ => ?_
  exact Ensures.pure rfl

/-- The text is drawn over the desktop and changes nothing of it. -/
theorem renderFrame_desktop {d d' : Desktop} {calls : List DrawCall}
    (h : d.renderFrame gpu font text = .ok (d',calls)) :
    ∃ drawn, d.renderDesktop gpu = .ok (d',drawn) := by
  obtain ⟨d₁,h₁,h⟩ := bind_inv h
  obtain ⟨d₂,h₂,h⟩ := bind_inv h
  obtain ⟨⟨ticked,moved⟩,hticked,h⟩ := bind_inv h
  obtain ⟨⟨engine,drawn⟩,hrender,h⟩ := bind_inv h
  obtain ⟨cursor,hcursor,h⟩ := bind_inv h
  obtain ⟨nebula,hnebula,hrender⟩ := bind_inv hrender
  obtain ⟨launchers,hlaunchers,hrender⟩ := bind_inv hrender
  obtain ⟨windows,hwindows,hrender⟩ := bind_inv hrender
  have hbodies : Returns (ticked.sorted.windows.mapM fun win =>
      SplatEngine.renderSplats gpu win.splatCloud) fun bodies => ∀ body ∈ bodies, True := by
    refine Returns.mapM fun win hwin => ?_
    obtain ⟨_,hwindow⟩ := mapM_inv hwindows win hwin
    obtain ⟨body,hbody,_⟩ := bind_inv hwindow
    exact ⟨body,hbody,trivial⟩
  obtain ⟨bodies,hbodies,_⟩ := hbodies
  cases hrender
  cases h
  have hdesktop : ticked.render gpu =
      .ok (ticked.sorted,nebula ++ launchers.flatten ++ bodies.flatten) := by
    rw [SplatEngine.render,hnebula,hlaunchers,hbodies]
    rfl
  have hok {A B : Type} (a : A) (f : A → Except Panic B) : (Except.ok a >>= f) = f a := rfl
  refine ⟨.restoreFromNebulaCache :: ((nebula ++ launchers.flatten ++ bodies.flatten) ++ cursor),?_⟩
  simp only [Desktop.renderDesktop,h₁,h₂,hticked,hdesktop,hcursor,hok]
  rfl

end

namespace Canvas

variable {c : Canvas} {calls : List DrawCall}

theorem paint_wallpaper {call : DrawCall} (h : call.isPixel = true) :
    (c.paint call).wallpaper = c.wallpaper := by
  cases call with
  | saveToNebulaCache => cases h
  | _ => rfl

theorem paintAll_wallpaper (h : Pixels calls) : (c.paintAll calls).wallpaper = c.wallpaper := by
  induction calls generalizing c with
  | nil => rfl
  | cons call calls ih =>
    obtain ⟨hcall,hcalls⟩ := List.forall_mem_cons.mp h
    exact (ih hcalls).trans (paint_wallpaper hcall)

/-- What no call is about stays as it is. -/
theorem paintAll_uncovered (h : Pixels calls) {x y : ℤ}
    (huncovered : ∀ call ∈ calls, call.covers x y = false) :
    (c.paintAll calls).picture x y = c.picture x y := by
  induction calls generalizing c with
  | nil => rfl
  | cons call calls ih =>
    obtain ⟨hcall,hcalls⟩ := List.forall_mem_cons.mp h
    obtain ⟨hfree,hrest⟩ := List.forall_mem_cons.mp huncovered
    refine (ih hcalls hrest).trans ?_
    cases call with
    | drawPixel => exact if_neg (by rw [hfree]; exact Bool.false_ne_true)
    | blendPixel => exact if_neg (by rw [hfree]; exact Bool.false_ne_true)
    | _ => cases hcall

end Canvas

/-- What `render_desktop` can draw on a screen of this size. -/
def IsFrame (gpu : GpuDriver) (calls : List DrawCall) : Prop :=
  ∃ (gpu' : GpuDriver) (font : Font) (text : UInt32 → TextWindow) (d d' : Desktop),
    gpu'.width = gpu.width ∧ gpu'.height = gpu.height ∧
      d.renderFrame gpu' font text = .ok (d',calls)

namespace Display

variable {build : Profile} {d : Display} {m : Monitor} {calls : List DrawCall}

/-- The calls of a frame, and the swap behind them. -/
def frame (build : Profile) (d : Display) (calls : List DrawCall) : Except Panic Display := do
  return (← calls.foldlM (Display.draw build) d).swapBuffers

theorem inRange_of_isPixel {call : DrawCall} (h : call.isPixel = true) : call.InRange := by
  cases call with
  | drawGlassRect => cases h
  | _ => trivial

theorem draws_show (hd : d.Valid) (h : d.Shows m) (hrange : ∀ call ∈ calls, call.InRange) :
    Returns (calls.foldlM (Display.draw build) d) fun d' => d.gpu.SameShape d'.gpu ∧ d'.Valid ∧
      d'.Shows ⟨m.canvas.paintAll calls,m.shown⟩ := by
  induction calls generalizing d m with
  | nil => exact Returns.pure ⟨.refl _,hd,h⟩
  | cons call calls ih =>
    obtain ⟨hcall,hcalls⟩ := List.forall_mem_cons.mp hrange
    rw [List.foldlM_cons]
    refine (draw_shows hd h hcall).bind fun d' h' => ?_
    exact (ih h'.2.1 h'.2.2 hcalls).mono fun d'' h'' => ⟨h'.1.trans h''.1,h''.2⟩

/-- A frame leaves the wallpaper as it is, and shows its own calls in front of it. -/
theorem frame_shows (hd : d.Valid) (h : d.Shows m) {drawn : List DrawCall} (hdrawn : Pixels drawn) :
    Returns (d.frame build (.restoreFromNebulaCache :: drawn)) fun d' =>
      d.gpu.SameShape d'.gpu ∧ d'.Valid ∧ ∃ m', d'.Shows m' ∧
        m'.canvas.wallpaper = m.canvas.wallpaper ∧
        m'.shown = (Canvas.paintAll ⟨m.canvas.wallpaper,m.canvas.wallpaper⟩ drawn).picture := by
  have hrange : ∀ call ∈ .restoreFromNebulaCache :: drawn, call.InRange :=
    List.forall_mem_cons.mpr ⟨trivial,fun call hcall => inRange_of_isPixel (hdrawn call hcall)⟩
  refine (draws_show hd h hrange).bind fun d' h' => Returns.pure ?_
  obtain ⟨hshape,hvalid,hshows⟩ := h'
  obtain ⟨hvalid',hshows'⟩ := swapBuffers_shows hvalid hshows
  have hwallpaper : ((m.canvas.paint .restoreFromNebulaCache).paintAll drawn).wallpaper =
      m.canvas.wallpaper := Canvas.paintAll_wallpaper hdrawn
  exact ⟨hshape,hvalid',_,hshows',hwallpaper,rfl⟩

theorem frames_show {frames : List (List DrawCall)} (hd : d.Valid) (h : d.Shows m)
    (hframes : ∀ calls ∈ frames, ∃ drawn, calls = .restoreFromNebulaCache :: drawn ∧ Pixels drawn) :
    Returns (frames.foldlM (frame build) d) fun d' => d.gpu.SameShape d'.gpu ∧ d'.Valid ∧
      ∃ m', d'.Shows m' ∧ m'.canvas.wallpaper = m.canvas.wallpaper := by
  induction frames generalizing d m with
  | nil => exact Returns.pure ⟨.refl _,hd,m,h,rfl⟩
  | cons calls frames ih =>
    obtain ⟨⟨drawn,rfl,hdrawn⟩,hrest⟩ := List.forall_mem_cons.mp hframes
    rw [List.foldlM_cons]
    refine (frame_shows hd h hdrawn).bind fun d₁ h₁ => ?_
    obtain ⟨hshape₁,hvalid₁,m₁,hshows₁,hwallpaper₁,_⟩ := h₁
    refine (ih hvalid₁ hshows₁ hrest).mono fun d₂ h₂ => ?_
    obtain ⟨hshape₂,hvalid₂,m₂,hshows₂,hwallpaper₂⟩ := h₂
    exact ⟨hshape₁.trans hshape₂,hvalid₂,m₂,hshows₂,hwallpaper₂.trans hwallpaper₁⟩

end Display

/-- However many frames went before, and whatever they showed: the monitor shows the wallpaper with
the calls of the last frame over it, and where that frame draws nothing, the wallpaper itself. -/
theorem frames_leave_no_trace (build : Profile) {booted : Display} (hvalid : booted.Valid)
    {c : Canvas} (hc : booted.gpu.Shows c) {frames : List (List DrawCall)} {last : List DrawCall}
    (hframes : ∀ calls ∈ frames ++ [last], IsFrame booted.gpu calls) :
    ∃ d, (frames ++ [last]).foldlM (Display.frame build) booted = .ok d ∧
      ∀ x y, booted.gpu.OnScreen x y →
        d.shownPixel x y = (Canvas.paintAll ⟨c.wallpaper,c.wallpaper⟩ last).picture x y ∧
        ((∀ call ∈ last, call.covers x y = false) → d.shownPixel x y = c.wallpaper x y) := by
  have hpixels : ∀ calls ∈ frames ++ [last],
      ∃ drawn, calls = .restoreFromNebulaCache :: drawn ∧ Pixels drawn := by
    intro calls hcalls
    obtain ⟨gpu,font,text,d,d',_,_,hframe⟩ := hframes calls hcalls
    exact renderFrame_pixels d _ hframe
  obtain ⟨hbefore,hlast⟩ := List.forall_mem_append.mp hpixels
  obtain ⟨drawn,rfl,hdrawn⟩ := hlast last (List.mem_singleton_self last)
  have hrun : Returns ((frames ++ [.restoreFromNebulaCache :: drawn]).foldlM (Display.frame build)
      booted) fun d => ∀ x y, booted.gpu.OnScreen x y →
        d.shownPixel x y = (Canvas.paintAll ⟨c.wallpaper,c.wallpaper⟩ drawn).picture x y := by
    rw [List.foldlM_append]
    refine (Display.frames_show hvalid (m := ⟨c,booted.shownPixel⟩) ⟨hc,fun _ _ _ => rfl⟩
      hbefore).bind fun d₁ h₁ => ?_
    obtain ⟨hshape₁,hvalid₁,m₁,hshows₁,hwallpaper₁⟩ := h₁
    refine (Display.frame_shows hvalid₁ hshows₁ hdrawn).bind fun d₂ h₂ => Returns.pure ?_
    obtain ⟨hshape₂,_,m₂,hshows₂,_,hshown⟩ := h₂
    intro x y hxy
    rw [← hwallpaper₁,← hshown]
    refine hshows₂.shown x y ?_
    rw [(hshape₁.trans hshape₂).onScreen]
    exact hxy
  obtain ⟨d,hd,hshown⟩ := hrun
  refine ⟨d,hd,fun x y hxy => ⟨hshown x y hxy,fun huncovered => ?_⟩⟩
  rw [hshown x y hxy]
  exact Canvas.paintAll_uncovered hdrawn (List.forall_mem_cons.mp huncovered).2

section Examples

/-- A row of eight pixels. -/
def eightPixels : Display where
  gpu := {
    backBuffer := List.replicate 32 0
    nebulaBuffer := List.replicate 32 0
    width := 8
    height := 1
    bytesPerPixel := 4}
  backing := 0x1000
  memory := fun _ => 0

def black : Canvas := ⟨fun _ _ => ⟨0,0,0⟩,fun _ _ => ⟨0,0,0⟩⟩

theorem eightPixels_valid : eightPixels.Valid :=
  ⟨⟨by decide,by decide,by decide,by decide,by decide,by decide⟩,by decide,by decide⟩

theorem eightPixels_black : eightPixels.gpu.Shows black := by
  intro x y _
  have hzero (i : ℕ) : (List.replicate 32 (0 : UInt8)).getD i 0 = 0 := by
    rw [List.getD_eq_getElem?_getD,List.getElem?_replicate]
    split <;> rfl
  have hpixel (i : ℕ) : GpuDriver.pixelAt (List.replicate 32 0) i = ⟨0,0,0⟩ := by
    rw [GpuDriver.pixelAt,hzero,hzero,hzero]
  exact ⟨hpixel _,hpixel _⟩

/-- A red pixel is drawn and pushed to the monitor. -/
theorem display_shows_red : ∃ d, (displaySystem .dev eightPixels).Trace eightPixels
    [.draw (.drawPixel 2 0 255 0 0),.swapBuffers] d ∧
      d.Shows ([.draw (.drawPixel 2 0 255 0 0),.swapBuffers].foldl Monitor.act
        ⟨black,eightPixels.shownPixel⟩) := by
  have hnone : ∀ call, DisplayAction.draw call ∈ [] → call.InRange := by simp
  obtain ⟨_,hdraw⟩ := display_shows_picture .dev eightPixels_valid eightPixels_black hnone .nil
  obtain ⟨d,hd⟩ := hdraw (.drawPixel 2 0 255 0 0) trivial
  have htrace : (displaySystem .dev eightPixels).Trace eightPixels
      [.draw (.drawPixel 2 0 255 0 0),.swapBuffers] d.swapBuffers := .cons hd (.cons rfl .nil)
  refine ⟨d.swapBuffers,htrace,?_⟩
  refine (display_shows_picture .dev eightPixels_valid eightPixels_black ?_ htrace).1
  simp only [List.mem_cons,List.not_mem_nil,or_false,DisplayAction.draw.injEq,reduceCtorEq]
  rintro _ rfl
  trivial

def emptyDesktop : Desktop := ⟨0,0,false,false,0,0,8,1,⟨[],[],[],1⟩⟩

def cursorCalls : List DrawCall :=
  ((rangeI32 0 5).map fun dy => (rangeI32 0 5).map fun dx => .drawPixel dx dy 255 255 255).flatten

/-- Nothing but the cursor. -/
theorem emptyDesktop_frame : IsFrame eightPixels.gpu (.restoreFromNebulaCache :: cursorCalls) := by
  let font : Font := Vector.replicate 128 (Vector.replicate 8 0)
  let text : UInt32 → TextWindow := fun _ => ⟨[],[]⟩
  have hsorted : emptyDesktop.engine.sorted = emptyDesktop.engine := by
    simp [SplatEngine.sorted,emptyDesktop]
  have hrender : emptyDesktop.engine.renderAll eightPixels.gpu font text =
      .ok (emptyDesktop.engine,[]) := by
    rw [SplatEngine.renderAll,hsorted]
    rfl
  refine ⟨eightPixels.gpu,font,text,emptyDesktop,emptyDesktop,rfl,rfl,?_⟩
  show (emptyDesktop.engine.renderAll eightPixels.gpu font text >>= fun r =>
    emptyDesktop.drawCursor false >>= fun cursor => .ok (({emptyDesktop with engine := r.1} : Desktop),
      DrawCall.restoreFromNebulaCache :: (r.2 ++ cursor))) = _
  rw [hrender]
  rfl

/-- After two frames, the last pixel is still that of the wallpaper. -/
theorem frames_leave_no_trace_cursor : ∃ d,
    [.restoreFromNebulaCache :: cursorCalls,.restoreFromNebulaCache :: cursorCalls].foldlM
      (Display.frame .dev) eightPixels = .ok d ∧ d.shownPixel 7 0 = ⟨0,0,0⟩ := by
  have hframes : ∀ calls ∈ [.restoreFromNebulaCache :: cursorCalls] ++
      [.restoreFromNebulaCache :: cursorCalls], IsFrame eightPixels.gpu calls := by
    simp only [List.singleton_append,List.forall_mem_cons]
    exact ⟨emptyDesktop_frame,emptyDesktop_frame,List.forall_mem_nil _⟩
  obtain ⟨d,hd,hshown⟩ := frames_leave_no_trace .dev eightPixels_valid eightPixels_black hframes
  refine ⟨d,hd,(hshown 7 0 ⟨by decide,by decide⟩).2 ?_⟩
  have hall : (DrawCall.restoreFromNebulaCache :: cursorCalls).all (fun call => !call.covers 7 0) =
      true := by decide
  exact fun call hcall => Bool.not_eq_true' _ ▸ List.all_eq_true.mp hall call hcall

end Examples

end PolymorphOS
