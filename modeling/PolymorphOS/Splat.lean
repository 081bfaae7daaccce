import PolymorphOS.GpuDriver

/-! `splat.rs`: the splats that the desktop is made of, and how one is projected onto the screen. -/
namespace PolymorphOS

structure GaussianSplat where
  x : ℤ
  y : ℤ
  z : ℤ
  scaleX : ℤ
  scaleY : ℤ
  r : UInt8
  g : UInt8
  b : UInt8
  opacity : UInt8
  deriving DecidableEq

namespace GaussianSplat

/-- What a pixel gets from a splat whose center is projected to `projX`, `projY`. -/
def blendAt (splat : GaussianSplat) (projX projY projScaleX projScaleY px py : ℤ) :
    Except Panic (Option DrawCall) := do
  let dx ← i32 (px - projX)
  let dy ← i32 (py - projY)
  let scaleFacX := max (← divI32 (← i32 (projScaleX * projScaleX)) 128) 1
  let scaleFacY := max (← divI32 (← i32 (projScaleY * projScaleY)) 128) 1
  let falloff ← i32 ((← divI32 (← i32 (dx * dx)) scaleFacX) +
    (← divI32 (← i32 (dy * dy)) scaleFacY))
  if falloff < 255 then
    let intensity ← subU32 255 (asU32 falloff)
    let alpha := (← mulU32 intensity splat.opacity.toNat) / 255
    if 0 < alpha then
      return some (.blendPixel px py splat.r splat.g splat.b (UInt8.ofNat alpha))
  return none

/-- `render_single_splat`: the pixels that it blends, row by row. -/
def renderSingleSplat (gpu : GpuDriver) (splat : GaussianSplat) : Except Panic (List DrawCall) := do
  let focalLength := 500
  let cameraZ := -500
  let zDist ← i32 (splat.z - cameraZ)
  if zDist ≤ 0 then return []
  let screenCx ← divI32 (asI32 gpu.width.toNat) 2
  let screenCy ← divI32 (asI32 gpu.height.toNat) 2
  let projX ← i32 (screenCx + (← divI32 (← i32 ((← i32 (splat.x - screenCx)) * focalLength)) zDist))
  let projY ← i32 (screenCy + (← divI32 (← i32 ((← i32 (splat.y - screenCy)) * focalLength)) zDist))
  let projScaleX ← divI32 (← i32 (splat.scaleX * focalLength)) zDist
  let projScaleY ← divI32 (← i32 (splat.scaleY * focalLength)) zDist
  let radiusX ← i32 (projScaleX * 2)
  let radiusY ← i32 (projScaleY * 2)
  let minX := max 0 (← i32 (projX - radiusX))
  let maxX := min (asI32 gpu.width.toNat) (← i32 (projX + radiusX))
  let minY := max 0 (← i32 (projY - radiusY))
  let maxY := min (asI32 gpu.height.toNat) (← i32 (projY + radiusY))
  let rows ← (rangeI32 minY maxY).mapM fun py => (rangeI32 minX maxX).mapM fun px =>
    splat.blendAt projX projY projScaleX projScaleY px py
  return rows.flatten.reduceOption

/-- A splat of a desktop whose screen is at most 8192 pixels wide and high. -/
structure Bounded (splat : GaussianSplat) : Prop where
  x : -20000 ≤ splat.x ∧ splat.x ≤ 20000
  y : -20000 ≤ splat.y ∧ splat.y ≤ 20000
  z : -100 ≤ splat.z ∧ splat.z ≤ 400
  scaleX : 0 ≤ splat.scaleX ∧ splat.scaleX ≤ 4096
  scaleY : 0 ≤ splat.scaleY ∧ splat.scaleY ≤ 4096

theorem blendAt_returns (splat : GaussianSplat) {projX projY projScaleX projScaleY px py : ℤ}
    (hx : -10240 ≤ px - projX ∧ px - projX ≤ 10240) (hy : -10240 ≤ py - projY ∧ py - projY ≤ 10240)
    (hsx : 0 ≤ projScaleX ∧ projScaleX ≤ 5120) (hsy : 0 ≤ projScaleY ∧ projScaleY ≤ 5120) :
    Returns (splat.blendAt projX projY projScaleX projScaleY px py) fun _ => True := by
  have hdx := square_le hx
  have hdy := square_le hy
  have hpx := square_le (m := 5120) ⟨by omega,hsx.2⟩
  have hpy := square_le (m := 5120) ⟨by omega,hsy.2⟩
  refine Returns.bind_i32 (by omega) (by omega) ?_
  refine Returns.bind_i32 (by omega) (by omega) ?_
  refine Returns.bind_i32 (by omega) (by omega) ?_
  refine Returns.bind_divI32 (by omega) (by omega) (by omega) fun facX hfacX => ?_
  refine Returns.bind_i32 (by omega) (by omega) ?_
  refine Returns.bind_divI32 (by omega) (by omega) (by omega) fun facY hfacY => ?_
  refine Returns.bind_i32 (by omega) (by omega) ?_
  refine Returns.bind_divI32 (by omega) (by omega) (by omega) fun qx hqx => ?_
  refine Returns.bind_i32 (by omega) (by omega) ?_
  refine Returns.bind_divI32 (by omega) (by omega) (by omega) fun qy hqy => ?_
  have hqx0 := (hqx.nonneg hdx.1).1
  have hqy0 := (hqy.nonneg hdy.1).1
  have hqxle := hqx.abs_le (m := 10240 * 10240) (by omega) ⟨by omega,hdx.2⟩
  have hqyle := hqy.abs_le (m := 10240 * 10240) (by omega) ⟨by omega,hdy.2⟩
  refine Returns.bind_i32 (by omega) (by omega) ?_
  refine Returns.ite (fun hlt => ?_) fun _ => Returns.pure trivial
  have hfalloff : asU32 (qx + qy) ≤ 255 := asU32_le (m := 255) (by omega) (by omega) (by norm_num)
  have hproduct : (255 - asU32 (qx + qy)) * splat.opacity.toNat < 2^32 := by
    calc (255 - asU32 (qx + qy)) * splat.opacity.toNat ≤ 255 * 2^8 :=
          Nat.mul_le_mul (Nat.sub_le _ _) splat.opacity.toNat_lt.le
      _ < 2^32 := by norm_num
  refine Returns.bind_subU32 hfalloff (Returns.bind_mulU32 hproduct ?_)
  exact Returns.ite (fun _ => Returns.pure trivial) fun _ => Returns.pure trivial

theorem renderSingleSplat_returns {gpu : GpuDriver} {splat : GaussianSplat} (h : splat.Bounded)
    (hw : gpu.width.toNat ≤ 8192) (hh : gpu.height.toNat ≤ 8192) :
    Returns (renderSingleSplat gpu splat) fun _ => True := by
  obtain ⟨hx,hy,hz,hsx,hsy⟩ := h
  have hwidth := asI32_of_lt (n := gpu.width.toNat) (by omega)
  have hheight := asI32_of_lt (n := gpu.height.toNat) (by omega)
  unfold renderSingleSplat
  rw [hwidth,hheight]
  refine Returns.bind_i32 (by omega) (by omega) ?_
  refine Returns.ite (fun _ => Returns.pure trivial) fun _ => ?_
  refine Returns.bind_divI32 (by omega) (by omega) (by omega) fun cx hcx => ?_
  refine Returns.bind_divI32 (by omega) (by omega) (by omega) fun cy hcy => ?_
  have hcx := hcx.nonneg (by omega)
  have hcy := hcy.nonneg (by omega)
  refine Returns.bind_i32 (by omega) (by omega) ?_
  refine Returns.bind_i32 (by omega) (by omega) ?_
  refine Returns.bind_divI32 (by omega) (by omega) (by omega) fun qx hqx => ?_
  have hqx := hqx.abs_le (m := 20000000) (by omega) ⟨by omega,by omega⟩
  refine Returns.bind_i32 (by omega) (by omega) ?_
  refine Returns.bind_i32 (by omega) (by omega) ?_
  refine Returns.bind_i32 (by omega) (by omega) ?_
  refine Returns.bind_divI32 (by omega) (by omega) (by omega) fun qy hqy => ?_
  have hqy := hqy.abs_le (m := 20000000) (by omega) ⟨by omega,by omega⟩
  refine Returns.bind_i32 (by omega) (by omega) ?_
  refine Returns.bind_i32 (by omega) (by omega) ?_
  refine Returns.bind_divI32 (by omega) (by omega) (by omega) fun sx hqsx => ?_
  have hsx := hqsx.mul_le (k := 400) (by omega) (by omega)
  refine Returns.bind_i32 (by omega) (by omega) ?_
  refine Returns.bind_divI32 (by omega) (by omega) (by omega) fun sy hqsy => ?_
  have hsy := hqsy.mul_le (k := 400) (by omega) (by omega)
  refine Returns.bind_i32 (by omega) (by omega) ?_
  refine Returns.bind_i32 (by omega) (by omega) ?_
  refine Returns.bind_i32 (by omega) (by omega) ?_
  refine Returns.bind_i32 (by omega) (by omega) ?_
  refine Returns.bind_i32 (by omega) (by omega) ?_
  refine Returns.bind_i32 (by omega) (by omega) ?_
  refine (Returns.mapM (Q := fun _ => True) fun py hpy => ?_).bind fun _ _ => Returns.pure trivial
  refine (Returns.mapM (Q := fun _ => True) fun px hpx => ?_).mono fun _ _ => trivial
  rw [mem_rangeI32] at hpx hpy
  exact blendAt_returns splat (by omega) (by omega) (by omega) (by omega)

end GaussianSplat
end PolymorphOS
