import Mathlib.Data.Int.Bitwise
import PolymorphOS.Runs
import PolymorphOS.SplatEngine

/-! The desktop as the mouse drives it: `desktop_compositor_task` over the bytes of the mouse, and
the calls of `render_desktop` that other tasks make in between. -/
namespace PolymorphOS

/-- The desktop, and the locals of `desktop_compositor_task`. -/
structure DesktopRun where
  desktop : Desktop
  wasLeftClick : Bool
  packet : Vector UInt8 3
  byteIdx : ℕ

/-- A byte of the mouse, where `has_data` tells whether more bytes wait, or a redraw. -/
inductive DesktopAction
  | mouseByte (byte : UInt8) (hasData : Bool)
  | render

namespace DesktopRun

/-- A movement byte as a signed number: `x_mov |= !0xFF` if the sign bit is set. -/
def movement (byte : UInt8) (negative : Bool) : ℤ :=
  if negative then Int.lor byte.toNat (Int.lnot 0xFF) else byte.toNat

/-- The cursor moves, but not off the screen. -/
def moveCursor (d : Desktop) (xMov yMov : ℤ) (leftClick : Bool) : Except Panic Desktop := do
  let maxX ← i32 (d.screenWidth - 6)
  let maxY ← i32 (d.screenHeight - 6)
  let cx ← clampI32 (← i32 (d.cursorX + xMov)) 0 maxX
  let cy ← clampI32 (← i32 (d.cursorY - yMov)) 0 maxY
  return {d with cursorX := cx,cursorY := cy,leftClick := leftClick}

variable (gpu : GpuDriver)

def render (r : DesktopRun) : Except Panic DesktopRun := do
  return {r with desktop := (← r.desktop.renderDesktop gpu).1}

/-- A whole packet; it is only drawn if no more bytes wait. -/
def onPacket (r : DesktopRun) (hasData : Bool) : Except Panic DesktopRun :=
  let flags := r.packet[0]
  let xMov := movement r.packet[1] (flags &&& 0x10 != 0)
  let yMov := movement r.packet[2] (flags &&& 0x20 != 0)
  let leftClick := flags &&& 0x01 != 0
  if xMov ≠ 0 ∨ yMov ≠ 0 ∨ leftClick ≠ r.wasLeftClick then do
    let d ← moveCursor r.desktop xMov yMov leftClick
    let moved := {r with desktop := d,wasLeftClick := leftClick}
    if hasData then return moved else moved.render gpu
  else return r

/-- The first byte of a packet has bit 3 set; bytes without it are skipped. -/
def onByte (r : DesktopRun) (byte : UInt8) (hasData : Bool) : Except Panic DesktopRun :=
  match r.byteIdx with
  | 0 =>
    if byte &&& 0x08 ≠ 0 then return {r with packet := r.packet.set 0 byte,byteIdx := 1}
    else return r
  | 1 => return {r with packet := r.packet.set 1 byte,byteIdx := 2}
  | 2 => onPacket gpu {r with packet := r.packet.set 2 byte,byteIdx := 0} hasData
  | _ => return r

def exec (r : DesktopRun) : DesktopAction → Except Panic DesktopRun
  | .mouseByte byte hasData => r.onByte gpu byte hasData
  | .render => r.render gpu

end DesktopRun

/-- The nebula and the launcher that `kernel_main` creates. -/
def kernelEngine : SplatEngine where
  nebulaSplats := [
    {x := 400, y := 300, z := -100, scaleX := 200, scaleY := 200, r := 0, g := 150, b := 255, opacity := 100},
    {x := 800, y := 500, z := -100, scaleX := 250, scaleY := 250, r := 100, g := 0, b := 200, opacity := 80},
    {x := 640, y := 400, z := 0, scaleX := 120, scaleY := 120, r := 0, g := 255, b := 180, opacity := 150},
    {x := 600, y := 380, z := 10, scaleX := 80, scaleY := 80, r := 255, g := 255, b := 255, opacity := 200},
    {x := 700, y := 450, z := 50, scaleX := 60, scaleY := 60, r := 255, g := 50, b := 100, opacity := 220}]
  launchers := [{x := 960, y := 1000, radius := 25}]
  windows := []
  instanceCounter := 1

namespace DesktopRun

def start (screen : Screen) : DesktopRun where
  desktop := {
    cursorX := 400
    cursorY := 300
    leftClick := false
    isDragging := false
    dragOffsetX := 0
    dragOffsetY := 0
    screenWidth := screen.width
    screenHeight := screen.height
    engine := kernelEngine}
  wasLeftClick := false
  packet := #v[0,0,0]
  byteIdx := 0

end DesktopRun

def desktopSystem (screen : Screen) (gpu : GpuDriver) : Runs.System DesktopRun DesktopAction where
  init r := r = .start screen
  step r a r' := r.exec gpu a = .ok r'

namespace DesktopRun

variable {screen : Screen} {gpu : GpuDriver} {r : DesktopRun}

theorem movement_bounds (byte : UInt8) (negative : Bool) :
    -256 ≤ movement byte negative ∧ movement byte negative ≤ 255 := by
  have hall : ∀ n : Fin 256, -256 ≤ Int.lor (n.val : ℤ) (Int.lnot 0xFF) ∧
      Int.lor (n.val : ℤ) (Int.lnot 0xFF) ≤ 255 := by decide +kernel
  have hlt := byte.toNat_lt
  unfold movement
  split
  · exact hall ⟨byte.toNat,hlt⟩
  · omega

theorem moveCursor_returns {d : Desktop} (h : d.Bounded screen) {xMov yMov : ℤ}
    (hx : -256 ≤ xMov ∧ xMov ≤ 255) (hy : -256 ≤ yMov ∧ yMov ≤ 255) (leftClick : Bool) :
    Returns (moveCursor d xMov yMov leftClick) (Desktop.Bounded screen) := by
  have hnear := h.near
  have hw := screen.width_ge
  have hw' := screen.width_le
  have hh := screen.height_ge
  have hh' := screen.height_le
  unfold moveCursor
  rw [h.width,h.height]
  refine Returns.bind_i32 (by omega) (by omega) (Returns.bind_i32 (by omega) (by omega) ?_)
  refine Returns.bind_i32 (by omega) (by omega) (Returns.bind_clampI32 (by omega) ?_)
  refine Returns.bind_i32 (by omega) (by omega) (Returns.bind_clampI32 (by omega) ?_)
  refine Returns.pure ⟨rfl,rfl,?_,?_,h.dragX,h.dragY,h.engine⟩ <;> dsimp only <;> omega

section Steps

variable (hw : gpu.width.toNat ≤ 8192) (hh : gpu.height.toNat ≤ 8192)

include hw hh

theorem render_returns (h : r.desktop.Bounded screen) :
    Returns (r.render gpu) fun r' => r'.desktop.Bounded screen :=
  (Desktop.renderDesktop_returns h hw hh).bind fun _ hd => Returns.pure hd

theorem onPacket_returns (h : r.desktop.Bounded screen) (hasData : Bool) :
    Returns (r.onPacket gpu hasData) fun r' => r'.desktop.Bounded screen := by
  refine Returns.ite (fun _ => ?_) fun _ => Returns.pure h
  refine (moveCursor_returns h (movement_bounds _ _) (movement_bounds _ _) _).bind fun d hd => ?_
  exact Returns.ite (fun _ => Returns.pure hd) fun _ => render_returns hw hh hd

theorem onByte_returns (h : r.desktop.Bounded screen) (byte : UInt8) (hasData : Bool) :
    Returns (r.onByte gpu byte hasData) fun r' => r'.desktop.Bounded screen := by
  unfold onByte
  split
  · exact Returns.ite (fun _ => Returns.pure h) fun _ => Returns.pure h
  · exact Returns.pure h
  · exact onPacket_returns hw hh (r := {r with packet := _,byteIdx := 0}) h hasData
  · exact Returns.pure h

theorem exec_returns (h : r.desktop.Bounded screen) (a : DesktopAction) :
    Returns (r.exec gpu a) fun r' => r'.desktop.Bounded screen := by
  cases a with
  | mouseByte byte hasData => exact onByte_returns hw hh h byte hasData
  | render => exact render_returns hw hh h

end Steps

theorem start_bounded (screen : Screen) : (start screen).desktop.Bounded screen := by
  have hw := screen.width_ge
  have hh := screen.height_ge
  have hoffset : (0 : ℤ) ≤ 0 ∧ (0 : ℤ) ≤ 8192 := by decide
  refine ⟨rfl,rfl,?_,?_,hoffset,hoffset,?_,?_,?_,?_⟩
  · simp only [start]
    omega
  · simp only [start]
    omega
  · intro splat hs
    simp only [start,kernelEngine,List.mem_cons,List.not_mem_nil,or_false] at hs
    rcases hs with rfl | rfl | rfl | rfl | rfl <;> constructor <;> decide
  · intro l hl
    simp only [start,kernelEngine,List.mem_singleton] at hl
    subst hl
    constructor <;> decide
  · exact List.cons_ne_nil _ _
  · exact fun win hwin => absurd hwin List.not_mem_nil

theorem reachable_bounded (hw : gpu.width.toNat ≤ 8192) (hh : gpu.height.toNat ≤ 8192)
    (h : (desktopSystem screen gpu).Reachable r) : r.desktop.Bounded screen := by
  refine h.invariant (I := fun r => r.desktop.Bounded screen) ?_ ?_
  · rintro _ rfl
    exact start_bounded screen
  · intro r a r' hr hstep
    exact (exec_returns hw hh hr a).of_ok hstep

end DesktopRun

/-- Whatever the mouse does and whenever the desktop is drawn, the cursor stays on the screen, the
windows keep their bounds, and no operation leaves the range of its type or divides by zero. -/
theorem desktop_in_range {screen : Screen} {gpu : GpuDriver} (hw : gpu.width.toNat ≤ 8192)
    (hh : gpu.height.toNat ≤ 8192) {r : DesktopRun} (h : (desktopSystem screen gpu).Reachable r) :
    (0 ≤ r.desktop.cursorX ∧ r.desktop.cursorX ≤ screen.width - 6) ∧
    (0 ≤ r.desktop.cursorY ∧ r.desktop.cursorY ≤ screen.height - 6) ∧
    (∀ win ∈ r.desktop.engine.windows, (0 ≤ win.baseZ ∧ win.baseZ ≤ 300) ∧
      (40 ≤ win.w ∧ win.w ≤ max 800 (max screen.width screen.height)) ∧
      40 ≤ win.h ∧ win.h ≤ max 800 (max screen.width screen.height)) ∧
    ∀ a, ∃ r', r.exec gpu a = .ok r' := by
  have hbounded := DesktopRun.reachable_bounded hw hh h
  refine ⟨hbounded.cursorX,hbounded.cursorY,fun win hwin => ?_,fun a => ?_⟩
  · have hwindow := hbounded.engine.windows win hwin
    exact ⟨hwindow.baseZ,hwindow.now.w,hwindow.now.h⟩
  · obtain ⟨r',hr,_⟩ := DesktopRun.exec_returns hw hh hbounded a
    exact ⟨r',hr⟩

def hdScreen : Screen := ⟨1920,1080,by norm_num,by norm_num,by norm_num,by norm_num⟩

def hdGpu : GpuDriver where
  backBuffer := List.replicate (1920 * 1080 * 4) 0
  nebulaBuffer := List.replicate (1920 * 1080 * 4) 0
  width := 1920
  height := 1080
  bytesPerPixel := 4

theorem hdDesktop_reachable : (desktopSystem hdScreen hdGpu).Reachable (.start hdScreen) := .init rfl

/-- The first frame. -/
theorem hdDesktop_in_range : ∃ r, (DesktopRun.start hdScreen).exec hdGpu .render = .ok r :=
  (desktop_in_range (by decide) (by decide) hdDesktop_reachable).2.2.2 .render

end PolymorphOS
