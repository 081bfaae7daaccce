import PolymorphOS.DesktopRuns

/-! The bytes of the mouse as packets: what `desktop_compositor_task` makes of each of them,
whichever bytes wait and whenever the desktop is drawn. -/
namespace PolymorphOS

/-- The statics that `render_desktop` reads and never stores. -/
structure Pointer where
  cursorX : ℤ
  cursorY : ℤ
  leftClick : Bool
  screenWidth : ℤ
  screenHeight : ℤ

namespace Desktop

variable {d : Desktop} {gpu : GpuDriver}

def pointer (d : Desktop) : Pointer :=
  ⟨d.cursorX,d.cursorY,d.leftClick,d.screenWidth,d.screenHeight⟩

/-- What neither a click nor a drag changes: those statics, and the nebula. -/
def backdrop (d : Desktop) : Pointer × List GaussianSplat := (d.pointer,d.engine.nebulaSplats)

theorem clickLauncher_backdrop (launchers : List AppLauncher) :
    Ensures (d.clickLauncher launchers) fun d' => d'.backdrop = d.backdrop := by
  induction launchers with
  | nil => exact Ensures.pure rfl
  | cons l launchers ih =>
    refine Ensures.of_true.bind fun near _ => Ensures.ite (fun _ => ?_) fun _ => ih
    exact Ensures.of_true.bind fun win _ => Ensures.pure rfl

theorem focus_backdrop (i : ℕ) (win : SemanticWindow) (drag : Option (ℤ × ℤ)) :
    (d.focus i win drag).backdrop = d.backdrop := by
  cases drag <;> rfl

theorem handleClick_backdrop : Ensures d.handleClick fun d' => d'.backdrop = d.backdrop := by
  refine Ensures.ite (fun _ => ?_) fun _ => Ensures.pure rfl
  refine Ensures.of_true.bind fun found _ => ?_
  rcases found with _ | ⟨i,win,drag⟩
  · exact Ensures.ite (fun _ => Ensures.pure rfl) fun _ => clickLauncher_backdrop _
  · exact Ensures.pure (focus_backdrop i win drag)

theorem applyDrag_backdrop : Ensures d.applyDrag fun d' => d'.backdrop = d.backdrop := by
  unfold applyDrag
  split
  · refine Ensures.of_true.bind fun x _ => Ensures.of_true.bind fun y _ => ?_
    exact Ensures.of_true.bind fun win _ => Ensures.pure rfl
  · exact Ensures.pure rfl

theorem renderDesktop_pointer :
    Ensures (d.renderDesktop gpu) fun out => out.1.pointer = d.pointer := by
  refine handleClick_backdrop.bind fun d₁ h₁ => ?_
  refine (applyDrag_backdrop (d := d₁.parallax)).bind fun d₂ h₂ => ?_
  have hpointer : d₂.pointer = d.pointer := congrArg Prod.fst (h₂.trans h₁)
  refine Ensures.of_true.bind fun ticked _ => Ensures.of_true.bind fun drawn _ => ?_
  exact Ensures.of_true.bind fun cursor _ => Ensures.pure hpointer

end Desktop

abbrev Packet := Vector UInt8 3

namespace Packet

/-- `packet[i] = byte` -/
def put (p : Packet) (i : Fin 3) (byte : UInt8) : Packet := p.set i byte i.isLt

def left (p : Packet) : Bool := p.get 0 &&& 0x01 != 0

/-- The movements are signed numbers of nine bits, whose sign bits are in the first byte. -/
def dx (p : Packet) : ℤ := ((p.get 1).toNat : ℤ) - if p.get 0 &&& 0x10 != 0 then 256 else 0

def dy (p : Packet) : ℤ := ((p.get 2).toNat : ℤ) - if p.get 0 &&& 0x20 != 0 then 256 else 0

@[simp] theorem get_put (p : Packet) (i j : Fin 3) (byte : UInt8) :
    (p.put i byte).get j = if i = j then byte else p.get j := by
  have hset : (Vector.set p i byte i.isLt)[j.val] = if i.val = j.val then byte else p[j.val] :=
    Vector.getElem_set i.isLt j.isLt
  simp only [Fin.ext_iff]
  exact hset

/-- Where a packet takes the cursor of a screen. -/
def move (screenWidth screenHeight : ℤ) (cursor : ℤ × ℤ) (p : Packet) : ℤ × ℤ :=
  (max 0 (min (cursor.1 + p.dx) (screenWidth - 6)),
    max 0 (min (cursor.2 - p.dy) (screenHeight - 6)))

end Packet

namespace DesktopRun

theorem movement_eq (byte : UInt8) (negative : Bool) :
    movement byte negative = (byte.toNat : ℤ) - if negative then 256 else 0 := by
  have hall : ∀ n : Fin 256, Int.lor (n.val : ℤ) (Int.lnot 0xFF) = n.val - 256 := by
    decide +kernel
  cases negative with
  | false => simp [movement]
  | true => exact hall ⟨byte.toNat,byte.toNat_lt⟩

/-- What the task stores for a packet, and whether it calls `render_desktop` then. -/
def storePacket (r : DesktopRun) (hasData : Bool) : Except Panic (DesktopRun × Bool) :=
  let p : Packet := r.packet
  if p.dx ≠ 0 ∨ p.dy ≠ 0 ∨ p.left ≠ r.wasLeftClick then do
    let d ← moveCursor r.desktop p.dx p.dy p.left
    return ({r with desktop := d,wasLeftClick := p.left},!hasData)
  else return (r,false)

/-- What an action stores before the desktop is drawn, if it is. -/
def store (r : DesktopRun) : DesktopAction → Except Panic (DesktopRun × Bool)
  | .render => return (r,true)
  | .mouseByte byte hasData =>
    match r.byteIdx with
    | 0 =>
      if byte &&& 0x08 ≠ 0 then return ({r with packet := Packet.put r.packet 0 byte,byteIdx := 1},false)
      else return (r,false)
    | 1 => return ({r with packet := Packet.put r.packet 1 byte,byteIdx := 2},false)
    | 2 => storePacket {r with packet := Packet.put r.packet 2 byte,byteIdx := 0} hasData
    | _ => return (r,false)

variable {gpu : GpuDriver} {r stored : DesktopRun} {a : DesktopAction}

/-- The call of `render_desktop` at the end of an action. -/
def drawIf (gpu : GpuDriver) (draws : Bool) (r : DesktopRun) : Except Panic DesktopRun :=
  if draws then r.render gpu else return r

theorem onPacket_eq (hasData : Bool) :
    r.onPacket gpu hasData = r.storePacket hasData >>= fun out => out.1.drawIf gpu out.2 := by
  have hx : movement r.packet[1] (r.packet[0] &&& 0x10 != 0) = Packet.dx r.packet :=
    movement_eq _ _
  have hy : movement r.packet[2] (r.packet[0] &&& 0x20 != 0) = Packet.dy r.packet :=
    movement_eq _ _
  have hleft : (r.packet[0] &&& 0x01 != 0) = Packet.left r.packet := rfl
  simp only [onPacket,storePacket,hx,hy,hleft]
  split
  · cases moveCursor r.desktop _ _ _ with
    | error e => rfl
    | ok d => cases hasData <;> rfl
  · rfl

theorem exec_eq : r.exec gpu a = r.store a >>= fun out => out.1.drawIf gpu out.2 := by
  cases a with
  | render => rfl
  | mouseByte byte hasData =>
    rw [exec,onByte,store]
    rcases hidx : r.byteIdx with _ | _ | _ | n
    · by_cases hfirst : byte &&& 0x08 ≠ 0
      · simp only [if_pos hfirst]
        rfl
      · simp only [if_neg hfirst]
        rfl
    · rfl
    · exact onPacket_eq hasData
    · rfl

end DesktopRun

/-- A packet that the task has framed, whether bytes waited behind it, and the value of
`LEFT_CLICK` in the call of `render_desktop` it led to; or the value in the call of another task. -/
inductive MouseEvent
  | packet (p : Packet) (waiting : Bool) (seen : Option Bool)
  | redraw (seen : Bool)

def MouseEvent.packet? : MouseEvent → Option Packet
  | .packet p _ _ => some p
  | .redraw _ => none

namespace DesktopRun

/-- What an action logs, where it has stored `stored` and draws then or does not. -/
def event (r stored : DesktopRun) (draws : Bool) : DesktopAction → List MouseEvent
  | .render => [.redraw stored.desktop.leftClick]
  | .mouseByte _ hasData =>
    if r.byteIdx = 2 then
      [.packet stored.packet hasData (if draws then some stored.desktop.leftClick else none)]
    else []

/-- Actions one after the other, and what they log. -/
def run (gpu : GpuDriver) :
    DesktopRun → List DesktopAction → Except Panic (DesktopRun × List MouseEvent)
  | r, [] => return (r,[])
  | r, a::actions => do
    let (stored,draws) ← r.store a
    let (r',log) ← run gpu (← stored.drawIf gpu draws) actions
    return (r',r.event stored draws a ++ log)

/-- The run takes the steps of the task. -/
theorem run_fst (actions : List DesktopAction) :
    (run gpu r actions).map Prod.fst = actions.foldlM (fun r a => r.exec gpu a) r := by
  induction actions generalizing r with
  | nil => rfl
  | cons a actions ih =>
    rw [List.foldlM_cons,exec_eq,run,bind_assoc]
    cases r.store a with
    | error e => rfl
    | ok out =>
      obtain ⟨stored,draws⟩ := out
      show ((do
        let (r',log) ← run gpu (← stored.drawIf gpu draws) actions
        return (r',r.event stored draws a ++ log)).map Prod.fst) =
        stored.drawIf gpu draws >>= fun r' => actions.foldlM (fun r a => r.exec gpu a) r'
      cases stored.drawIf gpu draws with
      | error e => rfl
      | ok r' =>
        show ((do
          let (r',log) ← run gpu r' actions
          return (r',r.event stored draws a ++ log)).map Prod.fst) =
          actions.foldlM (fun r a => r.exec gpu a) r'
        rw [← ih]
        cases run gpu r' actions <;> rfl

end DesktopRun

/-! ### What the bytes do to the mouse's part of the state -/

/-- The pointer and the locals of the task. -/
structure Mouse where
  pointer : Pointer
  wasLeftClick : Bool
  packet : Packet
  byteIdx : ℕ

def DesktopRun.mouse (r : DesktopRun) : Mouse :=
  ⟨r.desktop.pointer,r.wasLeftClick,r.packet,r.byteIdx⟩

/-- A packet moves the cursor and sets the button. -/
def Pointer.afterPacket (pointer : Pointer) (p : Packet) : Pointer :=
  let (x,y) := p.move pointer.screenWidth pointer.screenHeight (pointer.cursorX,pointer.cursorY)
  {pointer with cursorX := x,cursorY := y,leftClick := p.left}

namespace Mouse

def afterByte (m : Mouse) (byte : UInt8) : Mouse :=
  match m.byteIdx with
  | 0 => if byte &&& 0x08 ≠ 0 then {m with packet := m.packet.put 0 byte,byteIdx := 1} else m
  | 1 => {m with packet := m.packet.put 1 byte,byteIdx := 2}
  | 2 =>
    let p : Packet := m.packet.put 2 byte
    ⟨m.pointer.afterPacket p,p.left,p,0⟩
  | _ => m

/-- The packets that the bytes complete. -/
def framed : Mouse → List UInt8 → List Packet
  | _, [] => []
  | m, byte::bytes =>
    (if m.byteIdx = 2 then [m.packet.put 2 byte] else []) ++ framed (m.afterByte byte) bytes

/-- The first bytes of the packet that is not yet complete. -/
def pending (m : Mouse) : List UInt8 := m.packet.toList.take m.byteIdx

/-- The cursor is on a screen whose corner a movement can be added to, and `was_left_click` is what
is stored in `LEFT_CLICK`. -/
structure Ready (m : Mouse) : Prop where
  byteIdx : m.byteIdx ≤ 2
  click : m.wasLeftClick = m.pointer.leftClick
  cursorX : 0 ≤ m.pointer.cursorX ∧ m.pointer.cursorX ≤ m.pointer.screenWidth - 6
  cursorY : 0 ≤ m.pointer.cursorY ∧ m.pointer.cursorY ≤ m.pointer.screenHeight - 6
  width : m.pointer.screenWidth + 249 < 2^31
  height : m.pointer.screenHeight + 250 < 2^31

variable {m : Mouse}

theorem Ready.afterByte (h : m.Ready) (byte : UInt8) : (m.afterByte byte).Ready := by
  obtain ⟨hidx,hclick,hx,hy,hw,hh⟩ := h
  unfold Mouse.afterByte
  split
  · split
    · exact ⟨one_le_two,hclick,hx,hy,hw,hh⟩
    · exact ⟨hidx,hclick,hx,hy,hw,hh⟩
  · exact ⟨le_rfl,hclick,hx,hy,hw,hh⟩
  · refine ⟨Nat.zero_le 2,rfl,?_,?_,hw,hh⟩
    · simp only [Pointer.afterPacket,Packet.move]
      omega
    · simp only [Pointer.afterPacket,Packet.move]
      omega
  · exact ⟨hidx,hclick,hx,hy,hw,hh⟩

end Mouse

theorem foldl_pointer (m : Mouse) (bytes : List UInt8) :
    (bytes.foldl Mouse.afterByte m).pointer =
      (m.framed bytes).foldl Pointer.afterPacket m.pointer := by
  induction bytes generalizing m with
  | nil => rfl
  | cons byte bytes ih =>
    rw [List.foldl_cons,ih,Mouse.framed,List.foldl_append]
    rcases hidx : m.byteIdx with _ | _ | _ | n
    · by_cases hfirst : byte &&& 0x08 ≠ 0 <;> simp [Mouse.afterByte,hidx,hfirst]
    all_goals simp [Mouse.afterByte,hidx]

theorem toList_packet (p : Packet) : p.toList = [p.get 0,p.get 1,p.get 2] := by
  apply List.ext_getElem
  · simp
  · intro i hi _
    rw [Vector.length_toList] at hi
    interval_cases i <;> rfl

theorem length_pending {m : Mouse} (hidx : m.byteIdx ≤ 2) : m.pending.length = m.byteIdx := by
  rw [Mouse.pending,List.length_take,Vector.length_toList]
  omega

/-- A byte before the third is added to the packet. -/
theorem pending_afterByte {m : Mouse} {byte : UInt8} (hidx : m.byteIdx < 2)
    (hfirst : m.byteIdx = 0 → byte &&& 0x08 ≠ 0) :
    (m.afterByte byte).byteIdx = m.byteIdx + 1 ∧
      (m.afterByte byte).pending = m.pending ++ [byte] := by
  rcases hm : m.byteIdx with _ | _ | n
  · have hafter : m.afterByte byte = {m with packet := m.packet.put 0 byte,byteIdx := 1} := by
      simp only [Mouse.afterByte,hm,if_pos (hfirst hm)]
    simp [hafter,Mouse.pending,toList_packet,hm]
  · have hafter : m.afterByte byte = {m with packet := m.packet.put 1 byte,byteIdx := 2} := by
      simp only [Mouse.afterByte,hm]
    simp [hafter,Mouse.pending,toList_packet,hm]
  · omega

theorem pending_complete {m : Mouse} (byte : UInt8) (hidx : m.byteIdx = 2) :
    (m.packet.put 2 byte).toList = m.pending ++ [byte] ∧ (m.afterByte byte).byteIdx = 0 := by
  constructor
  · simp [Mouse.pending,toList_packet,hidx]
  · simp only [Mouse.afterByte,hidx]

/-- As long as the bytes are those of packets, these are the packets that are framed. -/
theorem framed_eq {m : Mouse} {bytes : List UInt8} {packets : List Packet}
    (hfirst : ∀ p ∈ packets, p.get 0 &&& 0x08 ≠ 0) (hidx : m.byteIdx ≤ 2)
    (h : m.pending ++ bytes <+: packets.flatMap Vector.toList) :
    m.framed bytes = packets.take ((m.byteIdx + bytes.length) / 3) := by
  induction bytes generalizing m packets with
  | nil =>
    rw [List.length_nil,Nat.add_zero,Nat.div_eq_of_lt (by omega)]
    rfl
  | cons byte bytes ih =>
    cases packets with
    | nil => exact absurd (List.prefix_nil.mp h) (by simp)
    | cons p packets =>
      have hlen := length_pending hidx
      rw [Mouse.framed,List.length_cons]
      by_cases hlast : m.byteIdx = 2
      · -- the third byte completes the packet
        obtain ⟨hcomplete,hzero⟩ := pending_complete byte hlast
        rw [List.append_cons,← hcomplete,List.flatMap_cons] at h
        obtain ⟨more,hmore⟩ := h
        rw [List.append_assoc] at hmore
        obtain ⟨hp,hrest⟩ := List.append_inj hmore (by simp only [Vector.length_toList])
        have hpending : (m.afterByte byte).pending = [] := by
          rw [Mouse.pending,hzero,List.take_zero]
        have hbytes : (m.afterByte byte).pending ++ bytes <+: packets.flatMap Vector.toList :=
          ⟨more,by rw [hpending,List.nil_append,hrest]⟩
        rw [if_pos hlast,Vector.toList_inj.mp hp,
          ih (fun q hq => hfirst q (List.mem_cons_of_mem p hq)) (by omega) hbytes,hzero,hlast]
        have hcount : (2 + (bytes.length + 1)) / 3 = (0 + bytes.length) / 3 + 1 := by omega
        rw [hcount,List.take_succ_cons]
        rfl
      · have hhead : m.byteIdx = 0 → byte &&& 0x08 ≠ 0 := by
          intro hzero
          rw [List.eq_nil_of_length_eq_zero (hlen.trans hzero),List.nil_append,List.flatMap_cons,
            toList_packet,List.cons_append,List.cons_prefix_cons] at h
          exact h.1 ▸ hfirst p List.mem_cons_self
        obtain ⟨hnext,hpending⟩ := pending_afterByte (by omega) hhead
        rw [List.append_cons,← hpending] at h
        rw [if_neg hlast,List.nil_append,ih hfirst (by omega) h,hnext]
        congr 2
        omega

namespace DesktopRun

theorem dx_bounds (p : Packet) : -256 ≤ p.dx ∧ p.dx ≤ 255 := by
  have hlt := (p.get 1).toNat_lt
  unfold Packet.dx
  split <;> omega

theorem dy_bounds (p : Packet) : -256 ≤ p.dy ∧ p.dy ≤ 255 := by
  have hlt := (p.get 2).toNat_lt
  unfold Packet.dy
  split <;> omega

variable {gpu : GpuDriver} {r : DesktopRun}

theorem moveCursor_stores (h : r.mouse.Ready) (p : Packet) :
    Returns (moveCursor r.desktop p.dx p.dy p.left) fun d => d = {r.desktop with
      cursorX := max 0 (min (r.desktop.cursorX + p.dx) (r.desktop.screenWidth - 6))
      cursorY := max 0 (min (r.desktop.cursorY - p.dy) (r.desktop.screenHeight - 6))
      leftClick := p.left} := by
  have hdx := dx_bounds p
  have hdy := dy_bounds p
  have hx : 0 ≤ r.desktop.cursorX ∧ r.desktop.cursorX ≤ r.desktop.screenWidth - 6 := h.cursorX
  have hy : 0 ≤ r.desktop.cursorY ∧ r.desktop.cursorY ≤ r.desktop.screenHeight - 6 := h.cursorY
  have hw : r.desktop.screenWidth + 249 < 2147483648 := h.width
  have hh : r.desktop.screenHeight + 250 < 2147483648 := h.height
  refine Returns.bind_i32 (by omega) (by omega) (Returns.bind_i32 (by omega) (by omega) ?_)
  refine Returns.bind_i32 (by omega) (by omega) (Returns.bind_clampI32 (by omega) ?_)
  refine Returns.bind_i32 (by omega) (by omega) (Returns.bind_clampI32 (by omega) ?_)
  exact Returns.pure rfl

/-- A packet without movement and with the button as it was changes nothing. -/
theorem afterPacket_still (h : r.mouse.Ready) {p : Packet} (hdx : p.dx = 0) (hdy : p.dy = 0)
    (hleft : p.left = r.wasLeftClick) : r.mouse.pointer.afterPacket p = r.mouse.pointer := by
  have hx := h.cursorX
  have hy := h.cursorY
  have hclick : p.left = r.mouse.pointer.leftClick := hleft.trans h.click
  simp only [Pointer.afterPacket,Packet.move,hdx,hdy,hclick,add_zero,sub_zero,min_eq_left hx.2,
    min_eq_left hy.2,max_eq_right hx.1,max_eq_right hy.1]

/-- What is stored for a packet is its effect on the mouse, also where nothing is stored since
nothing changes. -/
theorem storePacket_returns (h : r.mouse.Ready) (hasData : Bool) :
    Returns (r.storePacket hasData) fun out =>
      out.1.mouse = ⟨r.mouse.pointer.afterPacket r.packet,Packet.left r.packet,r.packet,r.byteIdx⟩ ∧
      out.2 = (decide (Packet.dx r.packet ≠ 0 ∨ Packet.dy r.packet ≠ 0 ∨
        Packet.left r.packet ≠ r.wasLeftClick) && !hasData) := by
  refine Returns.ite (fun hmoves => ?_) fun hstill => ?_
  · refine (moveCursor_stores h r.packet).bind fun d hd => Returns.pure ⟨?_,?_⟩
    · rw [hd]
      rfl
    · simp only [hmoves,decide_true,Bool.true_and]
  · obtain ⟨hdx,hdy,hleft⟩ : Packet.dx r.packet = 0 ∧ Packet.dy r.packet = 0 ∧
        Packet.left r.packet = r.wasLeftClick := by simpa only [not_or,not_not] using hstill
    refine Returns.pure ⟨?_,?_⟩
    · rw [afterPacket_still h hdx hdy hleft,hleft]
      rfl
    · simp only [hstill,decide_false,Bool.false_and]

/-- The storing part of an action returns, and has the byte's effect on the mouse. -/
theorem store_returns (h : r.mouse.Ready) (byte : UInt8) (hasData : Bool) :
    Returns (r.store (.mouseByte byte hasData)) fun out =>
      out.1.mouse = r.mouse.afterByte byte := by
  rw [store]
  rcases hidx : r.byteIdx with _ | _ | _ | n
  · refine Returns.ite (fun hfirst => Returns.pure ?_) fun hfirst => Returns.pure ?_
    · simp only [mouse,Mouse.afterByte,hidx,if_pos hfirst]
    · simp only [mouse,Mouse.afterByte,hidx,if_neg hfirst]
  · refine Returns.pure ?_
    simp only [mouse,Mouse.afterByte,hidx]
  · let complete : DesktopRun := {r with packet := Packet.put r.packet 2 byte,byteIdx := 0}
    have hcomplete : complete.mouse.Ready :=
      ⟨Nat.zero_le 2,h.click,h.cursorX,h.cursorY,h.width,h.height⟩
    refine (storePacket_returns hcomplete hasData).mono fun out hout => ?_
    rw [hout.1]
    simp only [mouse,Mouse.afterByte,hidx,complete]
  · exact absurd h.byteIdx (by simp only [mouse,hidx]; omega)

theorem drawIf_mouse (draws : Bool) :
    Ensures (r.drawIf gpu draws) fun r' => r'.mouse = r.mouse := by
  refine Ensures.ite (fun _ => ?_) fun _ => Ensures.pure rfl
  refine Desktop.renderDesktop_pointer.bind fun out hout => Ensures.pure ?_
  simp only [mouse,hout]

def mouseBytes (actions : List DesktopAction) : List UInt8 :=
  actions.flatMap fun
    | .mouseByte byte _ => [byte]
    | .render => []

/-- Over a run, the mouse's part of the state depends on the bytes alone. -/
theorem run_mouse {actions : List DesktopAction} {r' : DesktopRun} {log : List MouseEvent}
    (h : r.mouse.Ready) (hrun : run gpu r actions = .ok (r',log)) :
    r'.mouse.Ready ∧ r'.mouse = (mouseBytes actions).foldl Mouse.afterByte r.mouse ∧
      log.filterMap MouseEvent.packet? = r.mouse.framed (mouseBytes actions) := by
  induction actions generalizing r log with
  | nil =>
    cases hrun
    exact ⟨h,rfl,rfl⟩
  | cons a actions ih =>
    obtain ⟨⟨stored,draws⟩,hstore,hrest⟩ := bind_inv hrun
    obtain ⟨next,hdraw,hrest⟩ := bind_inv hrest
    obtain ⟨⟨last,log'⟩,hactions,hpure⟩ := bind_inv hrest
    cases hpure
    have hnext : next.mouse = stored.mouse := drawIf_mouse draws next hdraw
    cases a with
    | render =>
      cases hstore
      obtain ⟨hready,hmouse,hframed⟩ := ih (hnext ▸ h) hactions
      rw [hnext] at hmouse hframed
      exact ⟨hready,hmouse,hframed⟩
    | mouseByte byte hasData =>
      have hbyte : stored.mouse = r.mouse.afterByte byte :=
        (store_returns h byte hasData).of_ok hstore
      rw [hbyte] at hnext
      obtain ⟨hready,hmouse,hframed⟩ := ih (hnext ▸ h.afterByte byte) hactions
      rw [hnext] at hmouse hframed
      refine ⟨hready,hmouse,?_⟩
      rw [List.filterMap_append,hframed]
      refine congrArg (· ++ Mouse.framed _ (mouseBytes actions)) ?_
      by_cases hidx : r.byteIdx = 2
      · have hpacket : stored.packet = Packet.put r.packet 2 byte := by
          have hset := congrArg Mouse.packet hbyte
          simp only [Mouse.afterByte,mouse,hidx] at hset
          exact hset
        simp only [event,hidx,mouse,if_true,List.filterMap_cons,List.filterMap_nil,
          MouseEvent.packet?,hpacket]
      · simp only [event,hidx,mouse,if_false,List.filterMap_nil]

end DesktopRun

theorem foldl_cursor (pointer : Pointer) (packets : List Packet) :
    let last := packets.foldl Pointer.afterPacket pointer
    (last.cursorX,last.cursorY) =
      packets.foldl (Packet.move pointer.screenWidth pointer.screenHeight)
        (pointer.cursorX,pointer.cursorY) ∧
    last.leftClick = (packets.getLast?.map Packet.left).getD pointer.leftClick ∧
    last.screenWidth = pointer.screenWidth ∧ last.screenHeight = pointer.screenHeight := by
  induction packets generalizing pointer with
  | nil => exact ⟨rfl,rfl,rfl,rfl⟩
  | cons p packets ih =>
    obtain ⟨hcursor,hleft,hwidth,hheight⟩ := ih (pointer.afterPacket p)
    refine ⟨hcursor,hleft.trans ?_,hwidth,hheight⟩
    cases packets with
    | nil => rfl
    | cons q packets =>
      rw [List.getLast?_cons_cons,List.getLast?_cons]
      rfl

/-- Whichever bytes wait behind each other and whenever the desktop is drawn, the packets that the
mouse sends are the ones that the task frames, in their order; after each of them the cursor is
where their movements take it, one after the other, and `LEFT_CLICK` is the button of the last.
No byte stops the task before it draws. -/
theorem mouse_decoding (gpu : GpuDriver) (r r' : DesktopRun) (actions : List DesktopAction)
    (packets : List Packet) (log : List MouseEvent) (h : r.mouse.Ready) (hidx : r.byteIdx = 0)
    (hfirst : ∀ p ∈ packets, p.get 0 &&& 0x08 ≠ 0)
    (hbytes : DesktopRun.mouseBytes actions <+: packets.flatMap Vector.toList)
    (hrun : DesktopRun.run gpu r actions = .ok (r',log)) :
    let framed := log.filterMap MouseEvent.packet?
    framed = packets.take ((DesktopRun.mouseBytes actions).length / 3) ∧
    (r'.desktop.cursorX,r'.desktop.cursorY) =
      framed.foldl (Packet.move r.desktop.screenWidth r.desktop.screenHeight)
        (r.desktop.cursorX,r.desktop.cursorY) ∧
    (0 ≤ r'.desktop.cursorX ∧ r'.desktop.cursorX ≤ r.desktop.screenWidth - 6) ∧
    (0 ≤ r'.desktop.cursorY ∧ r'.desktop.cursorY ≤ r.desktop.screenHeight - 6) ∧
    r'.desktop.leftClick = (framed.getLast?.map Packet.left).getD r.desktop.leftClick ∧
    ∀ byte hasData, ∃ out, r'.store (.mouseByte byte hasData) = .ok out := by
  intro framed
  obtain ⟨hready,hmouse,hframed⟩ := DesktopRun.run_mouse h hrun
  have hpending : r.mouse.pending = [] := by
    rw [Mouse.pending,show r.mouse.byteIdx = 0 from hidx,List.take_zero]
  have hprefix : r.mouse.pending ++ DesktopRun.mouseBytes actions <+:
      packets.flatMap Vector.toList := by
    rwa [hpending,List.nil_append]
  have hpackets := framed_eq hfirst h.byteIdx hprefix
  rw [show r.mouse.byteIdx = 0 from hidx,Nat.zero_add,← hframed] at hpackets
  have hpointer := foldl_pointer r.mouse (DesktopRun.mouseBytes actions)
  rw [← hmouse,← hframed] at hpointer
  obtain ⟨hcursor,hleft,hwidth,hheight⟩ := foldl_cursor r.mouse.pointer framed
  rw [← hpointer] at hcursor hleft hwidth hheight
  have hx := hready.cursorX
  have hy := hready.cursorY
  rw [hwidth] at hx
  rw [hheight] at hy
  refine ⟨hpackets,hcursor,hx,hy,hleft,fun byte hasData => ?_⟩
  obtain ⟨out,hout,_⟩ := DesktopRun.store_returns hready byte hasData
  exact ⟨out,hout⟩

theorem start_ready (screen : Screen) : (DesktopRun.start screen).mouse.Ready := by
  have hw := screen.width_ge
  have hw' := screen.width_le
  have hh := screen.height_ge
  have hh' := screen.height_le
  refine ⟨Nat.zero_le 2,rfl,?_,?_,?_,?_⟩ <;>
    simp only [DesktopRun.mouse,Desktop.pointer,DesktopRun.start] <;> omega

/-- A packet that moves the mouse by one pixel, and the first byte of the next one. -/
def onePixel : List DesktopAction :=
  [.mouseByte 0x08 true,.mouseByte 0x01 true,.mouseByte 0x00 true,.mouseByte 0x08 true]

theorem onePixel_decoding : ∃ r' log,
    DesktopRun.run hdGpu (.start hdScreen) onePixel = .ok (r',log) ∧
    (r'.desktop.cursorX,r'.desktop.cursorY) = (401,300) := by
  obtain ⟨⟨r',log⟩,hrun⟩ : ∃ out, DesktopRun.run hdGpu (.start hdScreen) onePixel = .ok out :=
    ⟨_,rfl⟩
  have hfirst : ∀ p ∈ ([#v[0x08,0x01,0x00],#v[0x08,0x00,0x00]] : List Packet),
      p.get 0 &&& 0x08 ≠ 0 :=
    List.forall_mem_cons.mpr ⟨by decide,List.forall_mem_singleton.mpr (by decide)⟩
  obtain ⟨hframed,hcursor,_⟩ := mouse_decoding hdGpu (.start hdScreen) r' onePixel
    [#v[0x08,0x01,0x00],#v[0x08,0x00,0x00]] log (start_ready hdScreen) rfl hfirst
    ⟨[0x00,0x00],rfl⟩ hrun
  rw [hframed] at hcursor
  exact ⟨r',log,hrun,hcursor⟩

/-- The largest width, with the cursor at the right border. -/
def widestScreen : DesktopRun :=
  let r := DesktopRun.start hdScreen
  {r with desktop := {r.desktop with cursorX := 2^31 - 7,screenWidth := 2^31 - 1}}

/-- A movement to the right: the sum overflows before it is clamped. -/
theorem widestScreen_overflows :
    (0 ≤ widestScreen.desktop.cursorX ∧
      widestScreen.desktop.cursorX ≤ widestScreen.desktop.screenWidth - 6) ∧
    DesktopRun.run hdGpu widestScreen [.mouseByte 0x08 true,.mouseByte 0xFF true,
      .mouseByte 0x00 true] = .error .overflow := by
  refine ⟨by decide,?_⟩
  rfl

end PolymorphOS
