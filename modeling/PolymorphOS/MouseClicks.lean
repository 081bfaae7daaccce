import PolymorphOS.MousePackets

/-! Presses of the left button, and the calls of `render_desktop` that see them: the click handler
looks at `LEFT_CLICK` only when the desktop is drawn, and it is not drawn while bytes wait. -/
namespace PolymorphOS
namespace MouseEvent

/-- The button, as a packet reports it. -/
def left? : MouseEvent → Option Bool
  | .packet p _ _ => some p.left
  | .redraw _ => none

/-- The value of `LEFT_CLICK` in the call of `render_desktop`, if there was one. -/
def seen? : MouseEvent → Option Bool
  | .packet _ _ seen => seen
  | .redraw seen => some seen

/-- No byte waited behind it. -/
def Unqueued : MouseEvent → Prop
  | .packet _ waiting _ => waiting = false
  | .redraw _ => True

/-- A packet that moves the cursor, or a call of another task. -/
def Moves : MouseEvent → Prop
  | .packet p _ _ => p.dx ≠ 0 ∨ p.dy ≠ 0
  | .redraw _ => True

/-- What the event has to show, where `was` is the button before it: the desktop is drawn for a
packet that changes something and behind which no byte waits. -/
def Shows (was : Bool) : MouseEvent → Prop
  | .packet p waiting seen =>
    seen = if (p.dx ≠ 0 ∨ p.dy ≠ 0 ∨ p.left ≠ was) ∧ waiting = false then some p.left else none
  | .redraw seen => seen = was

end MouseEvent

/-- The button after the events. -/
def leftAfter (left : Bool) (log : List MouseEvent) : Bool :=
  log.foldl (fun was e => e.left?.getD was) left

/-- A press of the button that was up, and the release that ends it, with the events between. -/
structure IsClick (left : Bool) (before : List MouseEvent) (press : MouseEvent)
    (held : List MouseEvent) (release : MouseEvent) : Prop where
  up : leftAfter left before = false
  press : press.left? = some true
  held : ∀ e ∈ held, e.left? ≠ some false
  release : release.left? = some false

/-- Every press is seen by a call of `render_desktop` before its release. -/
def ClicksSeen (left : Bool) (log : List MouseEvent) : Prop :=
  ∀ before press held release after, log = before ++ press :: (held ++ release :: after) →
    IsClick left before press held release → ∃ e ∈ press :: held, e.seen? = some true

/-- No byte waits behind the packet of a press, or behind one that moves the cursor while the
button is held, or another task draws the desktop in between. -/
def ClicksDrawn (left : Bool) (log : List MouseEvent) : Prop :=
  ∀ before press held release after, log = before ++ press :: (held ++ release :: after) →
    IsClick left before press held release → press.Unqueued ∨ ∃ e ∈ held, e.Unqueued ∧ e.Moves

/-- Every event shows what it has to. -/
def AllShow : Bool → List MouseEvent → Prop
  | _, [] => True
  | was, e::log => e.Shows was ∧ AllShow (e.left?.getD was) log

variable {left : Bool} {log before held : List MouseEvent} {e press : MouseEvent}

theorem AllShow.at (h : AllShow left (before ++ e :: log)) : e.Shows (leftAfter left before) := by
  induction before generalizing left with
  | nil => exact h.1
  | cons e' before ih => exact ih h.2

theorem leftAfter_held (hpress : press.left? = some true)
    (hheld : ∀ e ∈ held, e.left? ≠ some false) :
    leftAfter left (before ++ press :: held) = true := by
  rw [leftAfter,List.foldl_append,List.foldl_cons,hpress,Option.getD_some]
  induction held with
  | nil => rfl
  | cons e held ih =>
    obtain ⟨he,hheld⟩ := List.forall_mem_cons.mp hheld
    have hstill : e.left?.getD true = true := by
      cases hleft : e.left? with
      | none => rfl
      | some left =>
        cases left with
        | true => rfl
        | false => exact absurd hleft he
    rw [List.foldl_cons,hstill]
    exact ih hheld

/-- A press changes the button, so it is drawn unless bytes wait. -/
theorem press_seen_iff (hpress : press.left? = some true) (h : press.Shows false) :
    press.seen? = some true ↔ press.Unqueued := by
  cases press with
  | redraw seen => cases hpress
  | packet p waiting seen =>
    have hleft : p.left = true := Option.some.inj hpress
    simp only [MouseEvent.Shows,hleft] at h
    cases waiting <;> simp [MouseEvent.seen?,MouseEvent.Unqueued,h]

/-- While the button is held, only a movement is drawn. -/
theorem held_seen_iff (hheld : e.left? ≠ some false) (h : e.Shows true) :
    e.seen? = some true ↔ e.Unqueued ∧ e.Moves := by
  cases e with
  | redraw seen =>
    cases h
    simp [MouseEvent.seen?,MouseEvent.Unqueued,MouseEvent.Moves]
  | packet p waiting seen =>
    have hleft : p.left = true := by
      cases hp : p.left with
      | true => rfl
      | false => exact absurd (congrArg some hp) hheld
    simp only [MouseEvent.Shows,hleft] at h
    cases waiting <;> simp [MouseEvent.seen?,MouseEvent.Unqueued,MouseEvent.Moves,h,imp_iff_not_or]

theorem seen_iff_drawn (h : AllShow left log) : ClicksSeen left log ↔ ClicksDrawn left log := by
  refine forall_congr' fun before => forall_congr' fun press => forall_congr' fun held =>
    forall_congr' fun release => forall_congr' fun after => ?_
  refine imp_congr_right fun hlog => imp_congr_right fun hclick => ?_
  subst hlog
  rw [List.exists_mem_cons_iff]
  have hpress := h.at
  rw [hclick.up] at hpress
  refine or_congr (press_seen_iff hclick.press hpress) (exists_congr fun e => ?_)
  refine and_congr_right fun he => ?_
  obtain ⟨first,last,rfl⟩ := List.append_of_mem he
  have hshows : e.Shows (leftAfter left (before ++ press :: first)) := by
    have hall : AllShow left ((before ++ press :: first) ++ e :: (last ++ release :: after)) := by
      simpa only [List.append_assoc,List.cons_append] using h
    exact hall.at
  rw [leftAfter_held hclick.press fun e he =>
    hclick.held e (List.mem_append_left _ he)] at hshows
  exact held_seen_iff (hclick.held e he) hshows

namespace DesktopRun

variable {gpu : GpuDriver} {r stored : DesktopRun}

/-- `was_left_click` and `LEFT_CLICK` are the same. -/
def InStep (r : DesktopRun) : Prop := r.wasLeftClick = r.desktop.leftClick

theorem moveCursor_leftClick (d : Desktop) (xMov yMov : ℤ) (leftClick : Bool) :
    Ensures (moveCursor d xMov yMov leftClick) fun d' => d'.leftClick = leftClick := by
  refine Ensures.of_true.bind fun _ _ => Ensures.of_true.bind fun _ _ => ?_
  refine Ensures.of_true.bind fun _ _ => Ensures.of_true.bind fun _ _ => ?_
  refine Ensures.of_true.bind fun _ _ => Ensures.of_true.bind fun _ _ => ?_
  exact Ensures.pure rfl

theorem storePacket_ensures (h : r.InStep) (hasData : Bool) :
    Ensures (r.storePacket hasData) fun out => out.1.InStep ∧ out.1.packet = r.packet ∧
      out.1.desktop.leftClick = Packet.left r.packet ∧
      out.2 = decide ((Packet.dx r.packet ≠ 0 ∨ Packet.dy r.packet ≠ 0 ∨
        Packet.left r.packet ≠ r.desktop.leftClick) ∧ hasData = false) := by
  unfold storePacket
  rw [h]
  refine Ensures.ite (fun hmoves => ?_) fun hstill => ?_
  · refine (moveCursor_leftClick _ _ _ _).bind fun d hd => Ensures.pure ⟨hd.symm,rfl,hd,?_⟩
    cases hasData <;> simp [hmoves]
  · have hleft : Packet.left r.packet = r.desktop.leftClick :=
      not_not.mp fun hne => hstill (.inr (.inr hne))
    refine Ensures.pure ⟨h,rfl,hleft.symm,?_⟩
    simp [hstill]

/-- What one action logs shows what it has to. -/
theorem step_shows (h : r.InStep) (a : DesktopAction) :
    Ensures (r.store a) fun out => out.1.InStep ∧
      ∀ log, AllShow out.1.desktop.leftClick log →
        AllShow r.desktop.leftClick (r.event out.1 out.2 a ++ log) := by
  cases a with
  | render => exact Ensures.pure ⟨h,fun log hlog => ⟨rfl,hlog⟩⟩
  | mouseByte byte hasData =>
    have hsilent : r.byteIdx ≠ 2 → ∀ stored draws,
        r.event stored draws (.mouseByte byte hasData) = [] := fun hidx _ _ => if_neg hidx
    rw [store]
    rcases hidx : r.byteIdx with _ | _ | _ | n
    · refine Ensures.ite (fun _ => Ensures.pure ⟨h,fun log hlog => ?_⟩)
        fun _ => Ensures.pure ⟨h,fun log hlog => ?_⟩
      all_goals
        rw [hsilent (by omega)]
        exact hlog
    · refine Ensures.pure ⟨h,fun log hlog => ?_⟩
      rw [hsilent (by omega)]
      exact hlog
    · let complete : DesktopRun := {r with packet := Packet.put r.packet 2 byte,byteIdx := 0}
      have hcomplete : complete.InStep := h
      rintro ⟨stored,draws⟩ hstored
      obtain ⟨hstep,hpacket,hleft,hdraws⟩ := storePacket_ensures hcomplete hasData _ hstored
      have hevent : r.event stored draws (.mouseByte byte hasData) =
          [.packet complete.packet hasData
            (if draws then some (Packet.left complete.packet) else none)] := by
        rw [event,if_pos hidx,hpacket,hleft]
      refine ⟨hstep,fun log hlog => ?_⟩
      rw [hevent]
      refine ⟨?_,?_⟩
      · simp only at hdraws
        simp only [MouseEvent.Shows,hdraws,decide_eq_true_eq]
        rfl
      · show AllShow (Packet.left complete.packet) log
        rw [← hleft]
        exact hlog
    · refine Ensures.pure ⟨h,fun log hlog => ?_⟩
      rw [hsilent (by omega)]
      exact hlog

theorem run_shows {actions : List DesktopAction} {r' : DesktopRun} {log : List MouseEvent}
    (h : r.InStep) (hrun : run gpu r actions = .ok (r',log)) :
    AllShow r.desktop.leftClick log := by
  induction actions generalizing r log with
  | nil =>
    cases hrun
    trivial
  | cons a actions ih =>
    obtain ⟨⟨stored,draws⟩,hstore,hrest⟩ := bind_inv hrun
    obtain ⟨next,hdraw,hrest⟩ := bind_inv hrest
    obtain ⟨⟨last,log'⟩,hactions,hpure⟩ := bind_inv hrest
    cases hpure
    obtain ⟨hstep,hshows⟩ := step_shows h a _ hstore
    have hnext : next.mouse = stored.mouse := drawIf_mouse draws next hdraw
    have hleft : next.desktop.leftClick = stored.desktop.leftClick :=
      congrArg (fun m => m.pointer.leftClick) hnext
    have hwas : next.wasLeftClick = stored.wasLeftClick := congrArg Mouse.wasLeftClick hnext
    have hready : next.InStep := hwas.trans (hstep.trans hleft.symm)
    exact hshows log' (hleft ▸ ih hready hactions)

end DesktopRun

/-- In every run of the task, each press of the button is seen by a call of `render_desktop` before
its release exactly if no byte waits behind its packet, or behind a packet that moves the cursor
while the button is held, or another task draws the desktop in between. -/
theorem clicks_seen_iff (gpu : GpuDriver) (r r' : DesktopRun) (actions : List DesktopAction)
    (log : List MouseEvent) (h : r.wasLeftClick = r.desktop.leftClick)
    (hrun : DesktopRun.run gpu r actions = .ok (r',log)) :
    ClicksSeen r.desktop.leftClick log ↔ ClicksDrawn r.desktop.leftClick log :=
  seen_iff_drawn (DesktopRun.run_shows h hrun)

/-- A press and a release at the same place; the bytes of both and of a next packet arrive before
the task runs. -/
def quickClick : List DesktopAction :=
  [.mouseByte 0x09 true,.mouseByte 0x00 true,.mouseByte 0x00 true,
    .mouseByte 0x08 true,.mouseByte 0x00 true,.mouseByte 0x00 true]

def quickLog : List MouseEvent :=
  [.packet #v[0x09,0x00,0x00] true none,.packet #v[0x08,0x00,0x00] true none]

theorem quickClick_run :
    ∃ r', DesktopRun.run hdGpu (.start hdScreen) quickClick = .ok (r',quickLog) := ⟨_,rfl⟩

theorem quickClick_isClick :
    IsClick false [] (.packet #v[0x09,0x00,0x00] true none) []
      (.packet #v[0x08,0x00,0x00] true none) := ⟨rfl,rfl,nofun,rfl⟩

theorem quickClick_unseen : ¬ClicksSeen false quickLog := by
  obtain ⟨r',hrun⟩ := quickClick_run
  intro hseen
  have hdrawn := (clicks_seen_iff hdGpu (.start hdScreen) r' quickClick quickLog rfl hrun).mp hseen
  rcases hdrawn [] _ [] _ [] rfl quickClick_isClick with hpress | ⟨e,he,_⟩
  · cases hpress
  · cases he

/-- Neither packet is drawn, so what is under the cursor never hears of the click. -/
theorem quickClick_lost : ¬∀ gpu r r' actions log, DesktopRun.run gpu r actions = .ok (r',log) →
    r.wasLeftClick = r.desktop.leftClick → ClicksSeen r.desktop.leftClick log := by
  intro h
  obtain ⟨r',hrun⟩ := quickClick_run
  obtain ⟨e,he,hseen⟩ := h hdGpu (.start hdScreen) r' quickClick quickLog hrun rfl [] _ [] _ [] rfl
    quickClick_isClick
  rw [List.mem_singleton] at he
  subst he
  cases hseen

end PolymorphOS
