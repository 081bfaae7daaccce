import PolymorphOS.Runs
import PolymorphOS.DmaFrames
import PolymorphOS.GpuDriver

/-! The buffer that `swap_buffers` copies, and the DMA memory that it copies it to: where the one
gets its size and where the other. -/
namespace PolymorphOS

namespace GpuDriver

/-- Drawing changes what is in the buffer, not its size. -/
structure SameShape (d d' : GpuDriver) : Prop where
  length : d'.backBuffer.length = d.backBuffer.length
  width : d'.width = d.width
  height : d'.height = d.height
  bytesPerPixel : d'.bytesPerPixel = d.bytesPerPixel

theorem SameShape.refl (d : GpuDriver) : SameShape d d := ⟨rfl,rfl,rfl,rfl⟩

theorem SameShape.trans {d d' d'' : GpuDriver} (h : SameShape d d') (h' : SameShape d' d'') :
    SameShape d d'' :=
  ⟨h'.length.trans h.length,h'.width.trans h.width,h'.height.trans h.height,
    h'.bytesPerPixel.trans h.bytesPerPixel⟩

section Shapes

variable (build : Profile) (d : GpuDriver)

theorem writeByte_shape (i : UInt64) (byte : UInt8) : Ensures (d.writeByte i byte) (SameShape d) :=
  Ensures.ite (fun _ => Ensures.pure ⟨List.length_set,rfl,rfl,rfl⟩) fun _ => Ensures.error

theorem writePixel_shape (offset : UInt64) (r g b : UInt8) :
    Ensures (d.writePixel build offset r g b) (SameShape d) := by
  refine (d.writeByte_shape offset b).bind fun d₁ h₁ => ?_
  refine Ensures.of_true.bind fun i _ => (d₁.writeByte_shape i g).bind fun d₂ h₂ => ?_
  refine Ensures.of_true.bind fun j _ => ?_
  exact fun d₃ hd₃ => (h₁.trans h₂).trans (d₂.writeByte_shape j r d₃ hd₃)

theorem drawPixel_shape (x y : ℤ) (r g b : UInt8) :
    Ensures (d.drawPixel build x y r g b) (SameShape d) :=
  Ensures.ite (fun _ => Ensures.pure (.refl d)) fun _ =>
    Ensures.of_true.bind fun offset _ => d.writePixel_shape build offset r g b

theorem mixPixel_shape (offset : UInt64) (r g b alpha : UInt8) :
    Ensures (d.mixPixel build offset r g b alpha) (SameShape d) := by
  refine Ensures.of_true.bind fun bgB _ => Ensures.of_true.bind fun i _ => ?_
  refine Ensures.of_true.bind fun bgG _ => Ensures.of_true.bind fun j _ => ?_
  exact Ensures.of_true.bind fun bgR _ => d.writePixel_shape build offset _ _ _

theorem blendPixel_shape (x y : ℤ) (r g b alpha : UInt8) :
    Ensures (d.blendPixel build x y r g b alpha) (SameShape d) := by
  refine Ensures.ite (fun _ => d.drawPixel_shape build x y r g b) fun _ => ?_
  refine Ensures.ite (fun _ => Ensures.pure (.refl d)) fun _ => ?_
  refine Ensures.ite (fun _ => Ensures.pure (.refl d)) fun _ => ?_
  exact Ensures.of_true.bind fun offset _ => d.mixPixel_shape build offset r g b alpha

/-- A loop whose rounds keep the shape. -/
theorem foldlM_shape {B : Type} {l : List B} {f : GpuDriver → B → Except Panic GpuDriver}
    (h : ∀ d b, Ensures (f d b) (SameShape d)) : Ensures (l.foldlM f d) (SameShape d) :=
  Ensures.foldlM (SameShape.refl d) fun d' hd' b _ d'' hd'' => hd'.trans (h d' b d'' hd'')

theorem clearScreen_shape (r g b : UInt8) : Ensures (d.clearScreen build r g b) (SameShape d) :=
  Ensures.ite (fun _ => Ensures.pure ⟨List.length_mapIdx,rfl,rfl,rfl⟩) fun _ =>
    d.foldlM_shape fun d _ => d.foldlM_shape fun d _ => d.drawPixel_shape build _ _ r g b

theorem drawGlassRect_shape (x y w h : ℤ) (r g b alpha : UInt8) :
    Ensures (d.drawGlassRect build x y w h r g b alpha) (SameShape d) := by
  refine Ensures.ite (fun _ => Ensures.pure (.refl d)) fun _ => ?_
  refine Ensures.of_true.bind fun endX _ => Ensures.of_true.bind fun endY _ => ?_
  refine Ensures.ite (fun _ => Ensures.pure (.refl d)) fun _ => ?_
  refine d.foldlM_shape fun d py => ?_
  refine Ensures.of_true.bind fun lines _ => Ensures.of_true.bind fun row _ => ?_
  refine d.foldlM_shape fun d px => ?_
  refine Ensures.of_true.bind fun column _ => Ensures.of_true.bind fun offset _ => ?_
  exact Ensures.ite (fun _ => d.writePixel_shape build offset r g b) fun _ =>
    d.mixPixel_shape build offset r g b alpha

theorem draw_shape (call : DrawCall) : Ensures (d.draw build call) (SameShape d) := by
  cases call with
  | saveToNebulaCache => exact Ensures.ite (fun _ => Ensures.pure ⟨rfl,rfl,rfl,rfl⟩) fun _ => Ensures.error
  | restoreFromNebulaCache =>
    exact Ensures.ite (fun h => Ensures.pure ⟨h.symm,rfl,rfl,rfl⟩) fun _ => Ensures.error
  | clearScreen r g b => exact d.clearScreen_shape build r g b
  | drawGlassRect x y w h r g b alpha => exact d.drawGlassRect_shape build x y w h r g b alpha
  | drawPixel x y r g b => exact d.drawPixel_shape build x y r g b
  | blendPixel x y r g b alpha => exact d.blendPixel_shape build x y r g b alpha

end Shapes
end GpuDriver

/-- The driver, `VIRTIO_BACKING_VIRT`, and the memory. -/
structure Display where
  gpu : GpuDriver
  backing : UInt64
  memory : Memory

/-- `bytes_needed`: the size of the DMA backing store. -/
def bytesNeeded : ℕ := 1920 * 1080 * 4

namespace Display

variable (build : Profile)

def draw (d : Display) (call : DrawCall) : Except Panic Display := do
  return {d with gpu := ← d.gpu.draw build call}

/-- `init_virtio_device`'s display setup; `dma` is what `allocate_dma_frames` returned. -/
def initVirtioDevice (d : Display) (room : ℕ → Bool) (dma : Option (PhysAddr × VirtAddr)) :
    Except Panic Display := do
  let gpu ← d.gpu.resizeToHardware build 1920 1080 room
  match dma with
  | some (_,virt) => return {d with gpu := gpu,backing := virt.1}
  | none => return {d with gpu := gpu}

/-- From `GpuDriver::new` over the first draws to the end of `init_virtio_device`. -/
def boot (fb : FrameBuffer) (memory : Memory) (roomNew : ℕ → Bool) (draws : List DrawCall)
    (roomResize : ℕ → Bool) (dma : Option (PhysAddr × VirtAddr)) : Except Panic Display := do
  let gpu ← GpuDriver.new fb roomNew
  let d ← draws.foldlM (draw build) {gpu := gpu,backing := 0,memory := memory}
  d.initVirtioDevice build roomResize dma

/-- The bytes that `swap_buffers` copies, none if there is no backing store. -/
def copied (d : Display) : List UInt8 := if d.backing ≠ 0 then d.gpu.backBuffer else []

/-- `copy_nonoverlapping` to the backing store. -/
def swapBuffers (d : Display) : Display :=
  {d with memory := fun addr => d.copied.getD (addr - d.backing).toNat (d.memory addr)}

end Display

inductive DisplayAction
  | draw (call : DrawCall)
  | swapBuffers

/-- The display once it is set up. -/
def displaySystem (build : Profile) (booted : Display) : Runs.System Display DisplayAction where
  init d := d = booted
  step d a d' :=
    match a with
    | .draw call => d.draw build call = .ok d'
    | .swapBuffers => d' = d.swapBuffers

/-- Of a buffer that keeps its size, the bootloader's length; of a resized one, the new size. -/
def FrameBuffer.Fits (fb : FrameBuffer) : Prop :=
  if fb.width = 1920 ∧ fb.height = 1080 then fb.buffer.bytes.length ≤ bytesNeeded
  else 1920 * 1080 * fb.bytesPerPixel.toNat % 2^64 ≤ bytesNeeded

theorem zeroedVec_length (room : ℕ → Bool) (n : UInt64) :
    Ensures (zeroedVec room n) fun bytes => bytes.length = n.toNat :=
  Ensures.ite (fun _ => Ensures.error) fun _ =>
    Ensures.ite (fun _ => Ensures.pure List.length_replicate) fun _ => Ensures.error

theorem GpuDriver.new_ensures (fb : FrameBuffer) (room : ℕ → Bool) :
    Ensures (GpuDriver.new fb room) fun d => d.backBuffer.length = fb.buffer.bytes.length ∧
      d.width = fb.width ∧ d.height = fb.height ∧ d.bytesPerPixel = fb.bytesPerPixel := by
  refine (zeroedVec_length room _).bind fun bytes hbytes => Ensures.of_true.bind fun nebula _ => ?_
  have hlt := fb.buffer.length_lt
  refine Ensures.pure ⟨?_,rfl,rfl,rfl⟩
  rw [hbytes]
  exact UInt64.toNat_ofNat_of_lt' (hlt.trans (by norm_num [UInt64.size]))

theorem GpuDriver.resizeToHardware_ensures (build : Profile) (d : GpuDriver) (room : ℕ → Bool) :
    Ensures (d.resizeToHardware build 1920 1080 room) fun d' => d'.backBuffer.length =
      if d.width = 1920 ∧ d.height = 1080 then d.backBuffer.length
      else 1920 * 1080 * d.bytesPerPixel.toNat % 2^64 := by
  refine Ensures.ite (fun hsame => Ensures.pure ?_) fun hother => ?_
  · rw [if_pos hsame]
  · rw [if_neg hother]
    refine Ensures.bind (Q := fun pixels => pixels = 1920 * 1080)
      (fun _ h => (mulU64_iff.mp h).2) fun pixels hpixels => ?_
    refine Ensures.bind (Q := fun size => size = pixels * d.bytesPerPixel)
      (fun _ h => (mulU64_iff.mp h).2) fun size hsize => ?_
    refine (zeroedVec_length room size).bind fun bytes hbytes => Ensures.of_true.bind fun _ _ => ?_
    refine Ensures.pure ?_
    rw [hbytes,hsize,hpixels,UInt64.toNat_mul]
    rfl

namespace Display

variable {build : Profile}

theorem draw_ensures (d : Display) (call : DrawCall) : Ensures (d.draw build call) fun d' =>
    d.gpu.SameShape d'.gpu ∧ d'.backing = d.backing :=
  (d.gpu.draw_shape build call).bind fun _ hgpu => Ensures.pure ⟨hgpu,rfl⟩

/-- Two places decide on the size of the buffer: the bootloader, and the resize if there is one. -/
theorem boot_ensures (fb : FrameBuffer) (memory : Memory) (roomNew : ℕ → Bool)
    (draws : List DrawCall) (roomResize : ℕ → Bool) (dma : Option (PhysAddr × VirtAddr)) :
    Ensures (boot build fb memory roomNew draws roomResize dma) fun d =>
      d.gpu.backBuffer.length ≤ bytesNeeded ↔ fb.Fits := by
  refine (GpuDriver.new_ensures fb roomNew).bind fun gpu hgpu => ?_
  refine Ensures.bind (Q := fun d => gpu.SameShape d.gpu) ?_ fun d hd => ?_
  · refine Ensures.foldlM (GpuDriver.SameShape.refl gpu) fun d hd call _ d' hd' => ?_
    exact hd.trans (d.draw_ensures call d' hd').1
  obtain ⟨hlength,hwidth,hheight,hbpp⟩ := hgpu
  refine (d.gpu.resizeToHardware_ensures build roomResize).bind fun gpu' hgpu' => ?_
  have hfits : gpu'.backBuffer.length ≤ bytesNeeded ↔ fb.Fits := by
    rw [hgpu',hd.width,hd.height,hd.bytesPerPixel,hd.length,hlength,hwidth,hheight,hbpp,
      FrameBuffer.Fits]
    split <;> rfl
  rcases dma with _ | ⟨phys,virt⟩
  · exact Ensures.pure hfits
  · exact Ensures.pure hfits

theorem reachable_shape {booted d : Display} (h : (displaySystem build booted).Reachable d) :
    booted.gpu.SameShape d.gpu ∧ d.backing = booted.backing := by
  refine h.invariant (I := fun d => booted.gpu.SameShape d.gpu ∧ d.backing = booted.backing) ?_ ?_
  · rintro _ rfl
    exact ⟨.refl _,rfl⟩
  · intro d a d' hd hstep
    cases a with
    | draw call =>
      obtain ⟨hgpu,hbacking⟩ := d.draw_ensures call d' hstep
      exact ⟨hd.1.trans hgpu,hbacking.trans hd.2⟩
    | swapBuffers =>
      cases hstep
      exact hd

end Display

/-- Once the backing store is there, every copy fits into it exactly if the framebuffer was no
larger than the store where it kept its size, or its pixels no larger than the store's. -/
theorem swapBuffers_fits_iff {build : Profile} {fb : FrameBuffer} {memory : Memory}
    {roomNew : ℕ → Bool} {draws : List DrawCall} {roomResize : ℕ → Bool}
    {dma : Option (PhysAddr × VirtAddr)} {booted : Display}
    (h : Display.boot build fb memory roomNew draws roomResize dma = .ok booted)
    (hbacking : booted.backing ≠ 0) :
    (∀ d, (displaySystem build booted).Reachable d → d.copied.length ≤ bytesNeeded) ↔ fb.Fits := by
  have hsize : booted.gpu.backBuffer.length ≤ bytesNeeded ↔ fb.Fits :=
    Display.boot_ensures fb memory roomNew draws roomResize dma booted h
  rw [← hsize]
  constructor
  · intro hall
    have hcopied := hall booted (.init rfl)
    rwa [Display.copied,if_pos hbacking] at hcopied
  · intro hfits d hd
    obtain ⟨hgpu,hkept⟩ := Display.reachable_shape hd
    rw [Display.copied,if_pos (hkept ▸ hbacking),hgpu.length]
    exact hfits

section Examples

/-- A framebuffer whose rows may be padded. -/
def rowsOf (width height stride : ℕ) (h : stride * height * 4 < 2^63) : FrameBuffer where
  width := UInt64.ofNat width
  height := UInt64.ofNat height
  bytesPerPixel := 4
  buffer := ⟨List.replicate (stride * height * 4) 0,by rwa [List.length_replicate]⟩

def storeAddress : PhysAddr × VirtAddr := (⟨0x100000,by norm_num⟩,⟨0x100000,by decide⟩)

/-- The boot on a heap with room. -/
def bootHere (fb : FrameBuffer) : Except Panic Display :=
  Display.boot .dev fb (fun _ => 0) (fun _ => true) [] (fun _ => true) (some storeAddress)

def paddedRows : FrameBuffer := rowsOf 1920 1080 2048 (by norm_num)

def smallScreen : FrameBuffer := rowsOf 1280 800 1280 (by norm_num)

def zeroedDisplay (n : ℕ) : Display where
  gpu := {
    backBuffer := List.replicate n 0
    nebulaBuffer := List.replicate n 0
    width := 1920
    height := 1080
    bytesPerPixel := 4}
  backing := 0x100000
  memory := fun _ => 0

theorem bootHere_paddedRows : bootHere paddedRows = .ok (zeroedDisplay 8847360) := by
  have hlen : paddedRows.buffer.bytes.length = 8847360 := List.length_replicate
  unfold bootHere Display.boot GpuDriver.new
  rw [hlen]
  rfl

theorem bootHere_smallScreen : bootHere smallScreen = .ok (zeroedDisplay 8294400) := by
  have hlen : smallScreen.buffer.bytes.length = 4096000 := List.length_replicate
  unfold bootHere Display.boot GpuDriver.new
  rw [hlen]
  rfl

/-- The framebuffer already has the resolution, so it keeps its padded length. -/
theorem paddedRows_overflow : ∃ booted, bootHere paddedRows = .ok booted ∧
    (1920 * 1080 * 4 ≤ paddedRows.buffer.bytes.length ∧ booted.backing ≠ 0) ∧
    (displaySystem .dev booted).Reachable booted ∧ bytesNeeded < booted.copied.length := by
  refine ⟨_,bootHere_paddedRows,⟨?_,by decide⟩,.init rfl,?_⟩
  · have hlen : paddedRows.buffer.bytes.length = 8847360 := List.length_replicate
    rw [hlen]
    norm_num
  · have hcopied : (zeroedDisplay 8847360).copied = List.replicate 8847360 0 := if_pos (by decide)
    rw [hcopied,List.length_replicate,bytesNeeded]
    norm_num

theorem smallScreen_fits : (zeroedDisplay 8294400).copied.length ≤ bytesNeeded :=
  (swapBuffers_fits_iff bootHere_smallScreen (by decide)).mpr (by
    rw [FrameBuffer.Fits,if_neg (by decide)]
    decide) _ (.init rfl)

end Examples

end PolymorphOS
