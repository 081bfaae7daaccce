import PolymorphOS.Splat

/-! The box of a splat against a scan of the whole screen: which pixels the box leaves out. -/
namespace PolymorphOS

/-- Where a splat is projected to, and how large it is there. -/
structure Projection where
  x : ℤ
  y : ℤ
  scaleX : ℤ
  scaleY : ℤ

namespace GaussianSplat

/-- The projection of a splat that is `zDist` in front of the camera. -/
def project (gpu : GpuDriver) (splat : GaussianSplat) (zDist : ℤ) : Except Panic Projection := do
  let focalLength := 500
  let screenCx ← divI32 (asI32 gpu.width.toNat) 2
  let screenCy ← divI32 (asI32 gpu.height.toNat) 2
  let projX ← i32 (screenCx + (← divI32 (← i32 ((← i32 (splat.x - screenCx)) * focalLength)) zDist))
  let projY ← i32 (screenCy + (← divI32 (← i32 ((← i32 (splat.y - screenCy)) * focalLength)) zDist))
  let projScaleX ← divI32 (← i32 (splat.scaleX * focalLength)) zDist
  let projScaleY ← divI32 (← i32 (splat.scaleY * focalLength)) zDist
  return ⟨projX,projY,projScaleX,projScaleY⟩

/-- The same splat without the box: every pixel of the screen is looked at, row by row. -/
def renderWholeScreen (gpu : GpuDriver) (splat : GaussianSplat) : Except Panic (List DrawCall) := do
  let zDist ← i32 (splat.z - -500)
  if zDist ≤ 0 then return []
  let p ← splat.project gpu zDist
  let rows ← (rangeI32 0 (asI32 gpu.height.toNat)).mapM fun py =>
    (rangeI32 0 (asI32 gpu.width.toNat)).mapM fun px =>
      splat.blendAt p.x p.y p.scaleX p.scaleY px py
  return rows.flatten.reduceOption

/-! ### The projection and the pixels as numbers -/

/-- One coordinate, seen from the camera. -/
def projected (screen z coordinate : ℤ) : ℤ :=
  screen.tdiv 2 + ((coordinate - screen.tdiv 2) * 500).tdiv (z + 500)

/-- The projection as the perspective formula has it. -/
def projection (gpu : GpuDriver) (splat : GaussianSplat) : Projection where
  x := projected (asI32 gpu.width.toNat) splat.z splat.x
  y := projected (asI32 gpu.height.toNat) splat.z splat.y
  scaleX := (splat.scaleX * 500).tdiv (splat.z + 500)
  scaleY := (splat.scaleY * 500).tdiv (splat.z + 500)

end GaussianSplat

/-- The falloff along one axis, at a distance from the center. -/
def axisFalloff (scale d : ℤ) : ℤ := (d * d).tdiv (max ((scale * scale).tdiv 128) 1)

def Projection.falloff (p : Projection) (px py : ℤ) : ℤ :=
  axisFalloff p.scaleX (px - p.x) + axisFalloff p.scaleY (py - p.y)

/-- The falloff leaves something of the opacity. -/
def Projection.Shows (p : Projection) (opacity : UInt8) (px py : ℤ) : Prop :=
  255 ≤ (255 - p.falloff px py) * opacity.toNat

instance (p : Projection) (opacity : UInt8) (px py : ℤ) : Decidable (p.Shows opacity px py) :=
  inferInstanceAs (Decidable (_ ≤ _))

namespace GaussianSplat

/-- What a pixel gets from a splat. -/
def pixel (splat : GaussianSplat) (p : Projection) (px py : ℤ) : Option DrawCall :=
  if p.Shows splat.opacity px py then
    some (.blendPixel px py splat.r splat.g splat.b
      (UInt8.ofNat ((255 - (p.falloff px py).toNat) * splat.opacity.toNat / 255)))
  else none

end GaussianSplat

theorem axisFalloff_nonneg (scale d : ℤ) : 0 ≤ axisFalloff scale d :=
  Int.tdiv_nonneg (mul_self_nonneg d) (by omega)

theorem Projection.falloff_nonneg (p : Projection) (px py : ℤ) : 0 ≤ p.falloff px py :=
  add_nonneg (axisFalloff_nonneg _ _) (axisFalloff_nonneg _ _)

/-- The farther from the center, the larger the falloff. -/
theorem axisFalloff_mono {scale d e : ℤ} (h : |d| ≤ |e|) :
    axisFalloff scale d ≤ axisFalloff scale e := by
  have hsquare : d * d ≤ e * e := by
    have hmul := mul_self_le_mul_self (abs_nonneg d) h
    rwa [abs_mul_abs_self,abs_mul_abs_self] at hmul
  have hd := mul_self_nonneg d
  rw [axisFalloff,axisFalloff,Int.tdiv_eq_ediv_of_nonneg hd,
    Int.tdiv_eq_ediv_of_nonneg (hd.trans hsquare)]
  exact Int.ediv_le_ediv (by omega) hsquare

namespace GaussianSplat

variable {gpu : GpuDriver} {splat : GaussianSplat} {p : Projection}

/-- Where the falloff is below 255, a pixel shows exactly if it gets a positive alpha. -/
theorem shows_iff_alpha {opacity : UInt8} {px py : ℤ} (hlt : p.falloff px py < 255) :
    p.Shows opacity px py ↔ 0 < (255 - (p.falloff px py).toNat) * opacity.toNat / 255 := by
  have hnonneg := p.falloff_nonneg px py
  have hcast : (((255 - (p.falloff px py).toNat) * opacity.toNat : ℕ) : ℤ) =
      (255 - p.falloff px py) * opacity.toNat := by
    rw [Nat.cast_mul,Nat.cast_sub (by omega),Int.toNat_of_nonneg hnonneg]
    rfl
  rw [Projection.Shows,← hcast,Nat.div_pos_iff]
  omega

theorem not_shows_of_falloff {opacity : UInt8} {px py : ℤ} (hge : 255 ≤ p.falloff px py) :
    ¬p.Shows opacity px py := by
  have hopacity : (0 : ℤ) ≤ opacity.toNat := Int.natCast_nonneg _
  have hmul := mul_nonpos_of_nonpos_of_nonneg (sub_nonpos.mpr hge) hopacity
  rw [Projection.Shows]
  omega

theorem blendAt_ensures (splat : GaussianSplat) (p : Projection) (px py : ℤ) :
    Ensures (splat.blendAt p.x p.y p.scaleX p.scaleY px py) fun r => r = splat.pixel p px py := by
  have hnonneg := p.falloff_nonneg px py
  refine .bind_i32 (.bind_i32 (.bind_i32 (.bind_divI32 fun _ => .bind_i32 (.bind_divI32 fun _ => ?_))))
  refine .bind_i32 (.bind_divI32 fun _ => .bind_i32 (.bind_divI32 fun _ => .bind_i32 ?_))
  change Ensures (if p.falloff px py < 255 then _ else _) _
  refine Ensures.ite (fun hlt => .bind_subU32 fun _ => .bind_mulU32 ?_) fun hge => ?_
  · have hval : asU32 (p.falloff px py) = (p.falloff px py).toNat := by
      rw [asU32,Int.emod_eq_of_lt hnonneg (by omega)]
    change Ensures (if 0 < (255 - asU32 (p.falloff px py)) * splat.opacity.toNat / 255 then _ else _) _
    rw [hval]
    refine Ensures.ite (fun hpos => .pure ?_) fun hzero => .pure ?_
    · rw [pixel,if_pos ((shows_iff_alpha hlt).mpr hpos),← hval]
      rfl
    · rw [pixel,if_neg (mt (shows_iff_alpha hlt).mp hzero)]
  · exact .pure (by rw [pixel,if_neg (not_shows_of_falloff (not_lt.mp hge))])

/-- The pixels of a part of the screen that get something from a splat. -/
def pixels (splat : GaussianSplat) (p : Projection) (rows columns : List ℤ) : List DrawCall :=
  rows.flatMap fun py => columns.filterMap fun px => splat.pixel p px py

theorem blendRows_ensures (splat : GaussianSplat) (p : Projection) (rows columns : List ℤ) :
    Ensures (do
      let drawn ← rows.mapM fun py => columns.mapM fun px =>
        splat.blendAt p.x p.y p.scaleX p.scaleY px py
      return drawn.flatten.reduceOption) fun r => r = splat.pixels p rows columns := by
  have hrows : Ensures (rows.mapM fun py => columns.mapM fun px =>
      splat.blendAt p.x p.y p.scaleX p.scaleY px py) fun drawn =>
        drawn = rows.map fun py => columns.map fun px => splat.pixel p px py :=
    .mapM fun py _ => .mapM fun px _ => blendAt_ensures splat p px py
  refine hrows.bind fun drawn hdrawn => .pure ?_
  show drawn.flatten.filterMap id = _
  simp only [hdrawn,pixels,List.filterMap_flatten,List.map_map,List.flatMap]
  congr 1
  apply List.map_congr_left
  intro py _
  simp only [Function.comp_apply,List.filterMap_map,id_eq]

theorem project_ensures (gpu : GpuDriver) (splat : GaussianSplat) :
    Ensures (splat.project gpu (splat.z + 500)) fun p => p = splat.projection gpu := by
  refine .bind_divI32 fun _ => .bind_divI32 fun _ => ?_
  refine .bind_i32 (.bind_i32 (.bind_divI32 fun _ => .bind_i32 ?_))
  refine .bind_i32 (.bind_i32 (.bind_divI32 fun _ => .bind_i32 ?_))
  refine .bind_i32 (.bind_divI32 fun _ => .bind_i32 (.bind_divI32 fun _ => .pure rfl))

theorem renderSingleSplat_ensures (gpu : GpuDriver) (splat : GaussianSplat)
    (hfront : 0 < splat.z + 500) : Ensures (renderSingleSplat gpu splat) fun r =>
      let p := splat.projection gpu
      r = splat.pixels p
        (rangeI32 (max 0 (p.y - p.scaleY * 2)) (min (asI32 gpu.height.toNat) (p.y + p.scaleY * 2)))
        (rangeI32 (max 0 (p.x - p.scaleX * 2)) (min (asI32 gpu.width.toNat) (p.x + p.scaleX * 2))) := by
  refine .bind_i32 ?_
  rw [sub_neg_eq_add,if_neg (not_le.mpr hfront)]
  refine .bind_divI32 fun _ => .bind_divI32 fun _ => ?_
  refine .bind_i32 (.bind_i32 (.bind_divI32 fun _ => .bind_i32 ?_))
  refine .bind_i32 (.bind_i32 (.bind_divI32 fun _ => .bind_i32 ?_))
  refine .bind_i32 (.bind_divI32 fun _ => .bind_i32 (.bind_divI32 fun _ => ?_))
  refine .bind_i32 (.bind_i32 (.bind_i32 (.bind_i32 (.bind_i32 (.bind_i32 ?_)))))
  exact blendRows_ensures splat (splat.projection gpu) _ _

theorem renderWholeScreen_ensures (gpu : GpuDriver) (splat : GaussianSplat)
    (hfront : 0 < splat.z + 500) : Ensures (renderWholeScreen gpu splat) fun r =>
      r = splat.pixels (splat.projection gpu) (rangeI32 0 (asI32 gpu.height.toNat))
        (rangeI32 0 (asI32 gpu.width.toNat)) := by
  refine .bind_i32 ?_
  rw [sub_neg_eq_add,if_neg (not_le.mpr hfront)]
  refine (project_ensures gpu splat).bind fun p hp => ?_
  rw [hp]
  exact blendRows_ensures splat (splat.projection gpu) _ _

/-! ### What the box leaves out -/

/-- The on-screen pixels outside of the box get nothing. -/
def BoxSuffices (gpu : GpuDriver) (splat : GaussianSplat) (p : Projection) : Prop :=
  ∀ px py, (0 ≤ px ∧ px < asI32 gpu.width.toNat) → (0 ≤ py ∧ py < asI32 gpu.height.toNat) →
    ¬((p.x - p.scaleX * 2 ≤ px ∧ px < p.x + p.scaleX * 2) ∧
      p.y - p.scaleY * 2 ≤ py ∧ py < p.y + p.scaleY * 2) → ¬p.Shows splat.opacity px py

theorem pixel_of_shows {px py : ℤ} (h : p.Shows splat.opacity px py) : ∃ alpha,
    splat.pixel p px py = some (.blendPixel px py splat.r splat.g splat.b alpha) :=
  ⟨_,if_pos h⟩

theorem pixel_none {px py : ℤ} (h : ¬p.Shows splat.opacity px py) : splat.pixel p px py = none :=
  if_neg h

/-- A call that blends names its pixel. -/
theorem mem_pixels {rows columns : List ℤ} {px py : ℤ} {r g b alpha : UInt8}
    (h : .blendPixel px py r g b alpha ∈ splat.pixels p rows columns) : py ∈ rows ∧ px ∈ columns := by
  obtain ⟨py',hrow,h⟩ := List.mem_flatMap.mp h
  obtain ⟨px',hcolumn,h⟩ := List.mem_filterMap.mp h
  unfold pixel at h
  split at h
  · simp only [Option.some.injEq,DrawCall.blendPixel.injEq] at h
    obtain ⟨rfl,rfl,_⟩ := h
    exact ⟨hrow,hcolumn⟩
  · cases h

/-- Pixels that get nothing may as well be left out. -/
theorem pixels_filter {rows columns : List ℤ} {inRows inColumns : ℤ → Bool}
    (h : ∀ py ∈ rows, ∀ px ∈ columns, ¬(inColumns px ∧ inRows py) → ¬p.Shows splat.opacity px py) :
    splat.pixels p (rows.filter inRows) (columns.filter inColumns) = splat.pixels p rows columns := by
  have hrow : ∀ py ∈ rows, inRows py → (columns.filter inColumns).filterMap
      (fun px => splat.pixel p px py) = columns.filterMap fun px => splat.pixel p px py := by
    intro py hpy hin
    rw [List.filterMap_filter]
    apply List.filterMap_congr
    intro px hpx
    split
    · rfl
    · rename_i hout
      exact (pixel_none (h py hpy px hpx fun hbox => hout hbox.1)).symm
  have hout : ∀ py ∈ rows, ¬inRows py → columns.filterMap (fun px => splat.pixel p px py) = [] := by
    intro py hpy hout
    rw [List.filterMap_eq_nil_iff]
    intro px hpx
    exact pixel_none (h py hpy px hpx fun hbox => hout hbox.2)
  clear h
  induction rows with
  | nil => rfl
  | cons py rows ih =>
    rw [List.forall_mem_cons] at hrow hout
    have hrest := ih hrow.2 hout.2
    simp only [pixels,List.flatMap_cons,List.filter_cons] at hrest ⊢
    split
    · rename_i hin
      rw [List.flatMap_cons,hrest,hrow.1 hin]
    · rename_i hnot
      rw [hrest,hout.1 hnot,List.nil_append]

/-- The box draws what the whole screen would draw exactly if the pixels outside it get nothing. -/
theorem pixels_box_iff (gpu : GpuDriver) (splat : GaussianSplat) (p : Projection) :
    splat.pixels p
      (rangeI32 (max 0 (p.y - p.scaleY * 2)) (min (asI32 gpu.height.toNat) (p.y + p.scaleY * 2)))
      (rangeI32 (max 0 (p.x - p.scaleX * 2)) (min (asI32 gpu.width.toNat) (p.x + p.scaleX * 2))) =
    splat.pixels p (rangeI32 0 (asI32 gpu.height.toNat)) (rangeI32 0 (asI32 gpu.width.toNat)) ↔
    BoxSuffices gpu splat p := by
  constructor
  · intro heq px py hx hy hout hshows
    obtain ⟨alpha,hpixel⟩ := pixel_of_shows hshows
    have hmem : .blendPixel px py splat.r splat.g splat.b alpha ∈
        splat.pixels p (rangeI32 0 (asI32 gpu.height.toNat)) (rangeI32 0 (asI32 gpu.width.toNat)) :=
      List.mem_flatMap.mpr ⟨py,mem_rangeI32.mpr hy,
        List.mem_filterMap.mpr ⟨px,mem_rangeI32.mpr hx,hpixel⟩⟩
    rw [← heq] at hmem
    obtain ⟨hrow,hcolumn⟩ := mem_pixels hmem
    rw [mem_rangeI32] at hrow hcolumn
    exact hout ⟨
      ⟨(le_max_right _ _).trans hcolumn.1,hcolumn.2.trans_le (min_le_right _ _)⟩,
      (le_max_right _ _).trans hrow.1,hrow.2.trans_le (min_le_right _ _)⟩
  · intro h
    rw [← filter_rangeI32,← filter_rangeI32]
    refine pixels_filter fun py hpy px hpx hout => ?_
    rw [mem_rangeI32] at hpy hpx
    exact h px py hpx hpy fun hin => hout ⟨decide_eq_true hin.1,decide_eq_true hin.2⟩

/-! ### The four pixels that decide -/

/-- The point of an interval that is nearest to a center. -/
def nearest (c lo hi : ℤ) : ℤ := max lo (min c hi)

theorem abs_nearest_le {c lo hi n : ℤ} (h : lo ≤ n ∧ n ≤ hi) : |nearest c lo hi - c| ≤ |n - c| := by
  unfold nearest
  rcases abs_cases (max lo (min c hi) - c) with ⟨ha,_⟩ | ⟨ha,_⟩ <;>
    rcases abs_cases (n - c) with ⟨hb,_⟩ | ⟨hb,_⟩ <;> omega

/-- A part of the screen, with its last column and row. -/
structure Strip where
  left : ℤ
  right : ℤ
  top : ℤ
  bottom : ℤ

/-- The strips of the screen to the right of the box, to the left, below and above. -/
def strips (gpu : GpuDriver) (p : Projection) : List Strip :=
  let right := asI32 gpu.width.toNat - 1
  let bottom := asI32 gpu.height.toNat - 1
  [⟨max 0 (p.x + p.scaleX * 2),right,0,bottom⟩,
    ⟨0,min right (p.x - p.scaleX * 2 - 1),0,bottom⟩,
    ⟨0,right,max 0 (p.y + p.scaleY * 2),bottom⟩,
    ⟨0,right,0,min bottom (p.y - p.scaleY * 2 - 1)⟩]

/-- A strip is empty, or its pixel nearest to the center gets nothing. -/
def Strip.Dark (splat : GaussianSplat) (p : Projection) (strip : Strip) : Prop :=
  strip.left ≤ strip.right → strip.top ≤ strip.bottom →
    ¬p.Shows splat.opacity (nearest p.x strip.left strip.right) (nearest p.y strip.top strip.bottom)

instance (splat : GaussianSplat) (p : Projection) (strip : Strip) : Decidable (strip.Dark splat p) :=
  inferInstanceAs (Decidable (_ → _ → _))

/-- A pixel nearer to the center shows if one farther away does. -/
theorem shows_mono {opacity : UInt8} {px py qx qy : ℤ} (hx : |qx - p.x| ≤ |px - p.x|)
    (hy : |qy - p.y| ≤ |py - p.y|) (h : p.Shows opacity px py) : p.Shows opacity qx qy := by
  have hle : p.falloff qx qy ≤ p.falloff px py :=
    add_le_add (axisFalloff_mono hx) (axisFalloff_mono hy)
  have hopacity : (0 : ℤ) ≤ opacity.toNat := Int.natCast_nonneg _
  have hmul : (255 - p.falloff px py) * opacity.toNat ≤ (255 - p.falloff qx qy) * opacity.toNat :=
    mul_le_mul_of_nonneg_right (by omega) hopacity
  exact h.trans hmul

theorem dark_iff {strip : Strip} : strip.Dark splat p ↔
    ∀ px py, (strip.left ≤ px ∧ px ≤ strip.right) → (strip.top ≤ py ∧ py ≤ strip.bottom) →
      ¬p.Shows splat.opacity px py := by
  constructor
  · intro h px py hx hy hshows
    exact h (hx.1.trans hx.2) (hy.1.trans hy.2)
      (shows_mono (abs_nearest_le hx) (abs_nearest_le hy) hshows)
  · intro h hx hy
    refine h _ _ ?_ ?_ <;> simp only [nearest] <;> omega

theorem boxSuffices_iff : BoxSuffices gpu splat p ↔ ∀ strip ∈ strips gpu p, strip.Dark splat p := by
  simp only [strips,List.forall_mem_cons,List.not_mem_nil,IsEmpty.forall_iff,implies_true,and_true,
    dark_iff]
  constructor
  · intro h
    refine ⟨?_,?_,?_,?_⟩ <;> intro px py hx hy <;> exact h px py (by omega) (by omega) (by omega)
  · rintro ⟨hright,hleft,hbelow,habove⟩ px py hx hy hout
    by_cases h₁ : p.x + p.scaleX * 2 ≤ px
    · exact hright px py (by omega) (by omega)
    · by_cases h₂ : px < p.x - p.scaleX * 2
      · exact hleft px py (by omega) (by omega)
      · by_cases h₃ : p.y + p.scaleY * 2 ≤ py
        · exact hbelow px py (by omega) (by omega)
        · exact habove px py (by omega) (by omega)

theorem drawn_eq_scanned_iff {drawn scanned : List DrawCall} (hfront : 0 < splat.z + 500)
    (hdrawn : renderSingleSplat gpu splat = .ok drawn)
    (hscanned : renderWholeScreen gpu splat = .ok scanned) :
    drawn = scanned ↔ BoxSuffices gpu splat (splat.projection gpu) := by
  rw [renderSingleSplat_ensures gpu splat hfront _ hdrawn,
    renderWholeScreen_ensures gpu splat hfront _ hscanned,pixels_box_iff]

/-- The box draws what a scan of the whole screen draws exactly if, to the right of the box, to its
left, below and above, the on-screen pixel nearest to the center gets nothing. -/
theorem culling_exact_iff (gpu : GpuDriver) (splat : GaussianSplat) (drawn scanned : List DrawCall)
    (hfront : 0 < splat.z + 500) (hdrawn : renderSingleSplat gpu splat = .ok drawn)
    (hscanned : renderWholeScreen gpu splat = .ok scanned) : drawn = scanned ↔
      ∀ strip ∈ strips gpu (splat.projection gpu), strip.Dark splat (splat.projection gpu) := by
  rw [drawn_eq_scanned_iff hfront hdrawn hscanned]
  exact boxSuffices_iff

/-- From a scale of eight pixels on, the falloff reaches 255 within the box. -/
theorem axisFalloff_ge {scale d : ℤ} (hscale : 8 ≤ scale) (hd : 2 * scale ≤ |d|) :
    255 ≤ axisFalloff scale d := by
  have hsquare : (2 * scale) * (2 * scale) ≤ d * d := by
    have hmul := mul_self_le_mul_self (by omega) hd
    rwa [abs_mul_abs_self] at hmul
  have hpos := mul_self_nonneg d
  have hscale2 := mul_self_nonneg scale
  have hlarge : 8 * 8 ≤ scale * scale := mul_self_le_mul_self (by norm_num) hscale
  rw [axisFalloff,Int.tdiv_eq_ediv_of_nonneg hpos,Int.tdiv_eq_ediv_of_nonneg hscale2]
  have hfac : 128 * (scale * scale / 128) ≤ scale * scale := Int.mul_ediv_self_le (by norm_num)
  rw [Int.le_ediv_iff_mul_le (by omega)]
  rcases max_cases (scale * scale / 128) 1 with ⟨hmax,_⟩ | ⟨hmax,_⟩ <;> rw [hmax] <;> nlinarith

theorem boxSuffices_of_wide (hx : 8 ≤ p.scaleX) (hy : 8 ≤ p.scaleY) : BoxSuffices gpu splat p := by
  intro px py _ _ hout
  apply not_shows_of_falloff
  have hxnonneg := axisFalloff_nonneg p.scaleX (px - p.x)
  have hynonneg := axisFalloff_nonneg p.scaleY (py - p.y)
  rw [Projection.falloff]
  by_cases hcolumn : 2 * p.scaleX ≤ |px - p.x|
  · have hge := axisFalloff_ge hx hcolumn
    omega
  · by_cases hrow : 2 * p.scaleY ≤ |py - p.y|
    · have hge := axisFalloff_ge hy hrow
      omega
    · have hxlt := abs_lt.mp (not_le.mp hcolumn)
      have hylt := abs_lt.mp (not_le.mp hrow)
      exact absurd ⟨⟨by omega,by omega⟩,by omega,by omega⟩ hout

/-- The box is wide enough for every splat that is projected to a scale of at least eight. -/
theorem culling_exact_of_wide {drawn scanned : List DrawCall} (hfront : 0 < splat.z + 500)
    (hx : 8 ≤ (splat.projection gpu).scaleX) (hy : 8 ≤ (splat.projection gpu).scaleY)
    (hdrawn : renderSingleSplat gpu splat = .ok drawn)
    (hscanned : renderWholeScreen gpu splat = .ok scanned) : drawn = scanned :=
  (drawn_eq_scanned_iff hfront hdrawn hscanned).mpr (boxSuffices_of_wide hx hy)

/-- A scan returns where the screen lies around the projected center. -/
theorem renderWholeScreen_returns (hfront : 0 < splat.z + 500) (hz : splat.z < 2147483147)
    (hproj : splat.project gpu (splat.z + 500) = .ok p)
    (hx : 0 ≤ p.x ∧ p.x ≤ 8192) (hy : 0 ≤ p.y ∧ p.y ≤ 8192)
    (hsx : 0 ≤ p.scaleX ∧ p.scaleX ≤ 5120) (hsy : 0 ≤ p.scaleY ∧ p.scaleY ≤ 5120)
    (hw : gpu.width.toNat ≤ 8192) (hh : gpu.height.toNat ≤ 8192) :
    Returns (renderWholeScreen gpu splat) fun _ => True := by
  have hwidth := asI32_of_lt (n := gpu.width.toNat) (by omega)
  have hheight := asI32_of_lt (n := gpu.height.toNat) (by omega)
  refine Returns.bind_i32 (by omega) (by omega) ?_
  rw [sub_neg_eq_add,if_neg (not_le.mpr hfront),hproj,hwidth,hheight]
  refine (Returns.mapM (Q := fun _ => True) fun py hpy => ?_).bind fun _ _ => Returns.pure trivial
  refine (Returns.mapM (Q := fun _ => True) fun px hpx => ?_).mono fun _ _ => trivial
  rw [mem_rangeI32] at hpx hpy
  exact blendAt_returns splat (by omega) (by omega) hsx hsy

/-- The framebuffer of an 800x600 screen. -/
def smallGpu : GpuDriver where
  backBuffer := List.replicate (800 * 600 * 4) 0
  nebulaBuffer := List.replicate (800 * 600 * 4) 0
  width := 800
  height := 600
  bytesPerPixel := 4

theorem smallGpu_width : asI32 smallGpu.width.toNat = 800 := asI32_of_lt (by decide)

theorem smallGpu_height : asI32 smallGpu.height.toNat = 600 := asI32_of_lt (by decide)

/-- The upper border of a window of 400x300 pixels in the middle of it. -/
def upperBorder : GaussianSplat where
  x := 400
  y := 150
  z := 12
  scaleX := 200
  scaleY := 4
  r := 0
  g := 255
  b := 200
  opacity := 120

theorem upperBorder_bounded : upperBorder.Bounded := by constructor <;> decide

theorem upperBorder_project : upperBorder.project smallGpu 512 = .ok ⟨400,154,195,3⟩ := by
  rw [project,smallGpu_width,smallGpu_height]
  rfl

theorem upperBorder_projection : upperBorder.projection smallGpu = ⟨400,154,195,3⟩ := by
  rw [projection,smallGpu_width,smallGpu_height]
  rfl

theorem upperBorder_scanned : ∃ scanned, renderWholeScreen smallGpu upperBorder = .ok scanned := by
  have hreturns : Returns (renderWholeScreen smallGpu upperBorder) fun _ => True :=
    renderWholeScreen_returns (by decide) (by decide) upperBorder_project (by decide) (by decide)
      (by decide) (by decide) (by decide) (by decide)
  obtain ⟨scanned,hscanned,_⟩ := hreturns
  exact ⟨scanned,hscanned⟩

/-- The row below the box of the border gets nothing, and a scan would blend it. -/
theorem upperBorder_cut : ∃ drawn scanned, renderSingleSplat smallGpu upperBorder = .ok drawn ∧
    renderWholeScreen smallGpu upperBorder = .ok scanned ∧ drawn ≠ scanned := by
  have hreturns : Returns (renderSingleSplat smallGpu upperBorder) fun _ => True :=
    renderSingleSplat_returns upperBorder_bounded (by decide) (by decide)
  obtain ⟨drawn,hdrawn,_⟩ := hreturns
  obtain ⟨scanned,hscanned⟩ := upperBorder_scanned
  refine ⟨drawn,scanned,hdrawn,hscanned,fun heq => ?_⟩
  have hbox := (drawn_eq_scanned_iff (by decide) hdrawn hscanned).mp heq
  rw [upperBorder_projection,BoxSuffices,smallGpu_width,smallGpu_height] at hbox
  exact hbox 400 160 (by decide) (by decide) (by decide) (by decide)

/-- A splat of the nebula, in the middle of that screen. -/
def nebulaSplat : GaussianSplat where
  x := 400
  y := 300
  z := 0
  scaleX := 120
  scaleY := 120
  r := 0
  g := 255
  b := 180
  opacity := 150

theorem nebulaSplat_exact : ∃ drawn, renderSingleSplat smallGpu nebulaSplat = .ok drawn ∧
    renderWholeScreen smallGpu nebulaSplat = .ok drawn := by
  have hproj : nebulaSplat.project smallGpu 500 = .ok ⟨400,300,120,120⟩ := by
    rw [project,smallGpu_width,smallGpu_height]
    rfl
  have hdark : ∀ strip ∈ strips smallGpu (nebulaSplat.projection smallGpu),
      strip.Dark nebulaSplat (nebulaSplat.projection smallGpu) := by
    rw [strips,projection,smallGpu_width,smallGpu_height]
    decide
  have hbox : Returns (renderSingleSplat smallGpu nebulaSplat) fun _ => True :=
    renderSingleSplat_returns (by constructor <;> decide) (by decide) (by decide)
  have hscan : Returns (renderWholeScreen smallGpu nebulaSplat) fun _ => True :=
    renderWholeScreen_returns (by decide) (by decide) hproj (by decide) (by decide)
      (by decide) (by decide) (by decide) (by decide)
  obtain ⟨drawn,hdrawn,_⟩ := hbox
  obtain ⟨scanned,hscanned,_⟩ := hscan
  have heq := (culling_exact_iff smallGpu nebulaSplat drawn scanned (by decide) hdrawn hscanned).mpr
    hdark
  exact ⟨drawn,hdrawn,heq ▸ hscanned⟩

end GaussianSplat
end PolymorphOS
