import PolymorphOS.RustI32

/-! `gpu_driver.rs`: the software buffers that the desktop is drawn in. -/
namespace PolymorphOS

/-- What the bootloader tells about its framebuffer. -/
structure FrameBuffer where
  width : UInt64
  height : UInt64
  bytesPerPixel : UInt64
  buffer : Slice

structure GpuDriver where
  backBuffer : List UInt8
  nebulaBuffer : List UInt8
  width : UInt64
  height : UInt64
  bytesPerPixel : UInt64

/-- `vec![0; n]`; `room` says for which sizes the heap has a free run. -/
def zeroedVec (room : ℕ → Bool) (n : UInt64) : Except Panic (List UInt8) :=
  if 2^63 ≤ n.toNat then .error (.explicit "capacity overflow")
  else if room n.toNat then .ok (List.replicate n.toNat 0)
  else .error (.explicit "memory allocation failed")

/-- `as usize`, of an `i32`. -/
def asUsize (n : ℤ) : UInt64 := UInt64.ofInt n

/-- One call that draws. -/
inductive DrawCall
  | saveToNebulaCache
  | restoreFromNebulaCache
  | clearScreen (r g b : UInt8)
  | drawGlassRect (x y w h : ℤ) (r g b alpha : UInt8)
  | drawPixel (x y : ℤ) (r g b : UInt8)
  | blendPixel (x y : ℤ) (r g b alpha : UInt8)
  deriving DecidableEq

namespace GpuDriver

variable (build : Profile)

/-- `room` is the state of the heap at the two allocations. -/
def new (fb : FrameBuffer) (room : ℕ → Bool) : Except Panic GpuDriver := do
  let size := UInt64.ofNat fb.buffer.bytes.length
  let backBuffer ← zeroedVec room size
  let nebulaBuffer ← zeroedVec room size
  return {
    backBuffer := backBuffer
    nebulaBuffer := nebulaBuffer
    width := fb.width
    height := fb.height
    bytesPerPixel := fb.bytesPerPixel}

/-- `copy_from_slice` panics on slices of different lengths. -/
def saveToNebulaCache (d : GpuDriver) : Except Panic GpuDriver :=
  if d.nebulaBuffer.length = d.backBuffer.length then .ok {d with nebulaBuffer := d.backBuffer}
  else .error (.explicit "copy_from_slice: source slice length does not match destination slice length")

def restoreFromNebulaCache (d : GpuDriver) : Except Panic GpuDriver :=
  if d.backBuffer.length = d.nebulaBuffer.length then .ok {d with backBuffer := d.nebulaBuffer}
  else .error (.explicit "copy_from_slice: source slice length does not match destination slice length")

def readByte (d : GpuDriver) (i : UInt64) : Except Panic UInt8 :=
  if h : i.toNat < d.backBuffer.length then .ok (d.backBuffer.get ⟨i.toNat,h⟩)
  else .error .indexOutOfBounds

def writeByte (d : GpuDriver) (i : UInt64) (byte : UInt8) : Except Panic GpuDriver :=
  if i.toNat < d.backBuffer.length then .ok {d with backBuffer := d.backBuffer.set i.toNat byte}
  else .error .indexOutOfBounds

/-- Three bytes from an offset on. -/
def writePixel (d : GpuDriver) (offset : UInt64) (r g b : UInt8) : Except Panic GpuDriver := do
  let d ← d.writeByte offset b
  let d ← d.writeByte (← addU64 build offset 1) g
  d.writeByte (← addU64 build offset 2) r

/-- Is the pixel off the screen? -/
def outside (d : GpuDriver) (x y : ℤ) : Bool :=
  x < 0 || y < 0 || x ≥ asI32 d.width.toNat || y ≥ asI32 d.height.toNat

/-- `((y as usize) * self.width + (x as usize)) * self.bytes_per_pixel` -/
def pixelOffset (d : GpuDriver) (x y : ℤ) : Except Panic UInt64 := do
  let row ← mulU64 build (asUsize y) d.width
  mulU64 build (← addU64 build row (asUsize x)) d.bytesPerPixel

def drawPixel (d : GpuDriver) (x y : ℤ) (r g b : UInt8) : Except Panic GpuDriver :=
  if d.outside x y then .ok d
  else do d.writePixel build (← d.pixelOffset build x y) r g b

/-- `(((c as u32 * a) + (bg * inv_a)) >> 8) as u8` -/
def mix (c bg alpha : UInt8) : UInt8 :=
  ((c.toUInt32 * alpha.toUInt32 + bg.toUInt32 * (255 - alpha.toUInt32)) >>> 8).toUInt8

/-- The three bytes from an offset on are mixed with a color. -/
def mixPixel (d : GpuDriver) (offset : UInt64) (r g b alpha : UInt8) : Except Panic GpuDriver := do
  let bgB ← d.readByte offset
  let bgG ← d.readByte (← addU64 build offset 1)
  let bgR ← d.readByte (← addU64 build offset 2)
  d.writePixel build offset (mix r bgR alpha) (mix g bgG alpha) (mix b bgB alpha)

def blendPixel (d : GpuDriver) (x y : ℤ) (r g b alpha : UInt8) : Except Panic GpuDriver :=
  if alpha = 255 then d.drawPixel build x y r g b
  else if alpha = 0 then .ok d
  else if d.outside x y then .ok d
  else do d.mixPixel build (← d.pixelOffset build x y) r g b alpha

/-- With four bytes to a pixel, whole groups of four are overwritten. -/
def clearScreen (d : GpuDriver) (r g b : UInt8) : Except Panic GpuDriver :=
  if d.bytesPerPixel = 4 then
    let whole := d.backBuffer.length / 4 * 4
    .ok {d with backBuffer := d.backBuffer.mapIdx fun i old =>
      if i < whole then [b,g,r,255].getD (i % 4) 0 else old}
  else
    (List.range d.height.toNat).foldlM (fun d y =>
      (List.range d.width.toNat).foldlM (fun d x => d.drawPixel build (asI32 x) (asI32 y) r g b) d) d

def drawGlassRect (d : GpuDriver) (x y w h : ℤ) (r g b alpha : UInt8) : Except Panic GpuDriver :=
  if alpha = 0 then .ok d
  else do
    let startX := max 0 x
    let startY := max 0 y
    let endX := min (← i32 (x + w)) (asI32 d.width.toNat)
    let endY := min (← i32 (y + h)) (asI32 d.height.toNat)
    if startX ≥ endX ∨ startY ≥ endY then return d
    (rangeI32 startY endY).foldlM (fun d py => do
      let row ← mulU64 build (← mulU64 build (asUsize py) d.width) d.bytesPerPixel
      (rangeI32 startX endX).foldlM (fun d px => do
        let offset ← addU64 build row (← mulU64 build (asUsize px) d.bytesPerPixel)
        if alpha = 255 then d.writePixel build offset r g b
        else d.mixPixel build offset r g b alpha) d) d

def draw (d : GpuDriver) : DrawCall → Except Panic GpuDriver
  | .saveToNebulaCache => d.saveToNebulaCache
  | .restoreFromNebulaCache => d.restoreFromNebulaCache
  | .clearScreen r g b => d.clearScreen build r g b
  | .drawGlassRect x y w h r g b alpha => d.drawGlassRect build x y w h r g b alpha
  | .drawPixel x y r g b => d.drawPixel build x y r g b
  | .blendPixel x y r g b alpha => d.blendPixel build x y r g b alpha

def resizeToHardware (d : GpuDriver) (newWidth newHeight : UInt64) (room : ℕ → Bool) :
    Except Panic GpuDriver :=
  if d.width = newWidth ∧ d.height = newHeight then .ok d
  else do
    let newSize ← mulU64 build (← mulU64 build newWidth newHeight) d.bytesPerPixel
    let backBuffer ← zeroedVec room newSize
    let nebulaBuffer ← zeroedVec room newSize
    return {d with
      width := newWidth
      height := newHeight
      backBuffer := backBuffer
      nebulaBuffer := nebulaBuffer}

end GpuDriver
end PolymorphOS
