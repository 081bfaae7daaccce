import PolymorphOS.PairedLists
import PolymorphOS.WindowDrag
import PolymorphOS.WindowPhysics

/-! Runs of the desktop with a ledger beside them: every window has a name, wherever it comes to
lie in `engine.windows`, and under its name it is noted when its buttons were clicked. -/
namespace PolymorphOS

inductive WindowButton
  | close | restore | maximize
  deriving DecidableEq

/-- What is noted of a window: the geometry it had when maximize was last clicked while it was
`Stable(Instantiated)`; the number of frames before restore was last clicked while it was
`Stable(Maximized)`, and what was saved then; and the number of frames before its close button was
clicked. -/
structure WindowNote where
  saved : Option Geometry
  restored : Option (ℕ × Option Geometry)
  closed : Option ℕ

namespace WindowNote

def blank : WindowNote := ⟨none,none,none⟩

/-- The note after a click on a button of the window, or beside them. -/
def press (note : WindowNote) (win : SemanticWindow) (frames : ℕ) :
    Option WindowButton → WindowNote
  | some .close => {note with closed := some frames}
  | some .restore =>
    if win.state = .stable .maximized then {note with restored := some (frames,note.saved)}
    else note
  | some .maximize =>
    if win.state = .stable .instantiated then {note with saved := some win.geometry} else note
  | none => note

end WindowNote

/-- The names of the windows in `engine.windows`, one by one, how many windows there have been and
how many frames, and the notes under each name. -/
structure Ledger where
  names : List ℕ
  opened : ℕ
  frames : ℕ
  notes : ℕ → WindowNote

namespace Desktop

/-- The button of a stable window that the cursor is on, as `render_desktop` asks for them. -/
def pressed (d : Desktop) (win : SemanticWindow) : Option WindowButton :=
  match win.state with
  | .transitioning _ => none
  | .stable _ =>
    if d.OnButton win 25 then some .close
    else if d.OnButton win 55 then some .restore
    else if d.OnButton win 85 then some .maximize
    else none

/-- The first part of the click pass. -/
def found (d : Desktop) : Except Panic (Option (ℕ × SemanticWindow × Option (ℤ × ℤ))) :=
  if d.leftClick then d.findClicked d.engine.windows.length else return none

end Desktop

namespace Ledger

/-- Names for windows that have been there from the beginning. -/
def fresh (count : ℕ) : Ledger := ⟨List.range count,count,0,fun _ => .blank⟩

/-- The click pass takes the name of the clicked window to the end, and a window that was opened
gets the next name. -/
def click (l : Ledger) (d after : Desktop) (found : Option (ℕ × SemanticWindow × Option (ℤ × ℤ))) :
    Ledger :=
  match found with
  | some (i,_,_) =>
    match d.engine.windows[i]?,l.names[i]? with
    | some win,some n => {l with
        names := l.names.eraseIdx i ++ [n]
        notes := Function.update l.notes n ((l.notes n).press win l.frames (d.pressed win))}
    | _,_ => l
  | none =>
    if d.engine.windows.length < after.engine.windows.length then
      {l with names := l.names ++ [l.opened],opened := l.opened + 1}
    else l

/-- `tick_physics` takes the names of the dead windows out of the list. -/
def tick (l : Ledger) (ticked : List SemanticWindow) : Ledger :=
  {l with
    names := PairedLists.survivors (fun win => win.state ≠ .stable .dead) l.names ticked
    frames := l.frames + 1}

end Ledger

/-- `render_desktop` up to the drawing, with the ledger. -/
def Desktop.notedFrame (d : Desktop) (l : Ledger) : Except Panic (Desktop × Ledger) := do
  let found ← d.found
  let clicked ← d.handleClick
  let dragged ← clicked.parallax.applyDrag
  let ticked ← dragged.engine.windows.mapM SemanticWindow.updatePhysics
  let (engine,_) ← dragged.engine.tickPhysics
  return ({dragged with engine := engine},(l.click d clicked found).tick (ticked.map Prod.fst))

structure NotedRun where
  run : DesktopRun
  ledger : Ledger

namespace NotedRun

/-- Before anything is noted. -/
def fresh (r : DesktopRun) : NotedRun := ⟨r,.fresh r.desktop.engine.windows.length⟩

/-- An action of the desktop, with the ledger. -/
def exec (gpu : GpuDriver) (s : NotedRun) (a : DesktopAction) : Except Panic NotedRun := do
  let (stored,draws) ← s.run.store a
  let run ← stored.drawIf gpu draws
  if draws then return ⟨run,(← stored.desktop.notedFrame s.ledger).2⟩
  else return ⟨run,s.ledger⟩

/-- The window has the name. -/
def Named (s : NotedRun) (n : ℕ) (win : SemanticWindow) : Prop :=
  ∃ i : ℕ, s.ledger.names[i]? = some n ∧ s.run.desktop.engine.windows[i]? = some win

end NotedRun

/-- The runs of the desktop from anywhere, with the ledger. -/
def notedSystem (gpu : GpuDriver) : Runs.System NotedRun DesktopAction where
  init s := ∃ r, s = .fresh r
  step s a t := s.exec gpu a = .ok t

/-! ### The click pass -/

/-- What a click makes of a window that takes it: what its button does, or nothing. -/
inductive Pressed (win : SemanticWindow) : Option WindowButton → SemanticWindow → Prop
  | close {mode : WindowMode} (x y : ℤ) : win.state = .stable mode →
      Pressed win (some .close) (win.triggerClose x y)
  | restore {mode : WindowMode} : win.state = .stable mode →
      Pressed win (some .restore) win.triggerRestore
  | maximize {mode : WindowMode} (w h : ℤ) : win.state = .stable mode →
      Pressed win (some .maximize) (win.triggerMaximize w h)
  | beside : Pressed win none win

theorem Pressed.id {win win' : SemanticWindow} {button : Option WindowButton}
    (h : Pressed win button win') : win'.id = win.id := by
  cases h with
  | close => rfl
  | restore => rfl
  | maximize w h =>
    unfold SemanticWindow.triggerMaximize
    split <;> rfl
  | beside => rfl

/-- A window that is not stable takes no click but one that does nothing to it. -/
theorem Pressed.stable {win win' : SemanticWindow} {button : Option WindowButton}
    (h : Pressed win button win') : button = none ∨ ∃ mode, win.state = .stable mode := by
  cases h with
  | close _ _ hstable => exact .inr ⟨_,hstable⟩
  | restore hstable => exact .inr ⟨_,hstable⟩
  | maximize _ _ hstable => exact .inr ⟨_,hstable⟩
  | beside => exact .inl rfl

namespace Desktop

variable {d : Desktop} {win : SemanticWindow}

theorem pressed_stable {mode : WindowMode} (h : win.state = .stable mode) :
    d.pressed win = if d.OnButton win 25 then some .close
      else if d.OnButton win 55 then some .restore
      else if d.OnButton win 85 then some .maximize
      else none := by
  rw [pressed,h]

theorem pressed_beside (h : d.Beside win) : d.pressed win = none := by
  unfold pressed
  split
  · rfl
  · rename_i mode hstable
    have hon := h mode hstable
    rw [if_neg fun h => hon (.inl h),if_neg fun h => hon (.inr (.inl h)),
      if_neg fun h => hon (.inr (.inr (.inl h)))]

theorem clickWindow_pressed : Ensures (d.clickWindow win) fun click =>
    ∀ win' drag, click = .handled win' drag → Pressed win (d.pressed win) win' := by
  rintro click hclick win' drag rfl
  cases clickWindow_cases _ hclick with
  | close x y hstable h =>
    rw [pressed_stable hstable,if_pos h]
    exact .close x y hstable
  | restore hstable hnclose h =>
    rw [pressed_stable hstable,if_neg hnclose,if_pos h]
    exact .restore hstable
  | maximize w h hstable hnclose hnres hmax =>
    rw [pressed_stable hstable,if_neg hnclose,if_neg hnres,if_pos hmax]
    exact .maximize w h hstable
  | title _ hstable hnclose hnres hnmax =>
    rw [pressed_stable hstable,if_neg hnclose,if_neg hnres,if_neg hnmax]
    exact .beside
  | body hbeside =>
    rw [pressed_beside hbeside]
    exact .beside

theorem findClicked_pressed (i : ℕ) : Ensures (d.findClicked i) fun found =>
    ∀ j win' drag, found = some (j,win',drag) →
      ∃ win, d.engine.windows[j]? = some win ∧ Pressed win (d.pressed win) win' := by
  induction i with
  | zero => exact Ensures.pure fun _ _ _ h => nomatch h
  | succ i ih =>
    unfold findClicked
    split
    · exact ih
    · rename_i win hwin
      refine clickWindow_pressed.bind fun click hclick => ?_
      cases click with
      | missed => exact ih
      | handled win' drag =>
        refine Ensures.pure fun j win'' drag' h => ?_
        cases h
        exact ⟨win,hwin,hclick win' drag rfl⟩

/-- No window is opened, or one is, with the next number. -/
def Opens (d d' : Desktop) : Prop :=
  (d'.engine.windows = d.engine.windows ∧ d'.engine.instanceCounter = d.engine.instanceCounter) ∨
  ∃ x y win, SemanticWindow.spawn d.engine.instanceCounter x y 800 600 = .ok win ∧
    d'.engine.windows = d.engine.windows ++ [win] ∧
    d'.engine.instanceCounter = d.engine.instanceCounter + 1

theorem clickLauncher_opens (launchers : List AppLauncher) :
    Ensures (d.clickLauncher launchers) d.Opens := by
  induction launchers with
  | nil => exact Ensures.pure (.inl ⟨rfl,rfl⟩)
  | cons l launchers ih =>
    refine Ensures.of_true.bind fun near _ => Ensures.ite (fun _ => ?_) fun _ => ih
    refine Ensures.bind (Q := fun win => SemanticWindow.spawn d.engine.instanceCounter l.x l.y 800 600 =
      .ok win) (fun win hwin => hwin) fun win hwin => Ensures.pure (.inr ?_)
    exact ⟨_,_,win,hwin,rfl,rfl⟩

end Desktop

/-- What the click pass does to the windows, to their counter and to the ledger. -/
inductive ClickStep (d : Desktop) (l : Ledger) : List SemanticWindow → UInt32 → Ledger → Prop
  | missed : ClickStep d l d.engine.windows d.engine.instanceCounter l
  | opened {x y : ℤ} {win : SemanticWindow} :
      SemanticWindow.spawn d.engine.instanceCounter x y 800 600 = .ok win →
      ClickStep d l (d.engine.windows ++ [win]) (d.engine.instanceCounter + 1)
        {l with names := l.names ++ [l.opened],opened := l.opened + 1}
  | pressed {i n : ℕ} {win win' : SemanticWindow} : d.engine.windows[i]? = some win →
      l.names[i]? = some n → Pressed win (d.pressed win) win' →
      ClickStep d l (d.engine.windows.eraseIdx i ++ [win']) d.engine.instanceCounter {l with
        names := l.names.eraseIdx i ++ [n]
        notes := Function.update l.notes n ((l.notes n).press win l.frames (d.pressed win))}

theorem Ledger.click_step {d clicked : Desktop} {l : Ledger}
    {found : Option (ℕ × SemanticWindow × Option (ℤ × ℤ))}
    (hlen : l.names.length = d.engine.windows.length) (hfound : d.found = .ok found)
    (hclick : d.handleClick = .ok clicked) :
    ClickStep d l clicked.engine.windows clicked.engine.instanceCounter
      (l.click d clicked found) := by
  by_cases hleft : d.leftClick = true
  swap
  · rw [Desktop.found,if_neg hleft] at hfound
    rw [Desktop.handleClick,if_neg hleft] at hclick
    cases hfound
    cases hclick
    rw [Ledger.click,if_neg (lt_irrefl _)]
    exact .missed
  rw [Desktop.found,if_pos hleft] at hfound
  rw [Desktop.handleClick,if_pos hleft,hfound] at hclick
  rcases found with _ | ⟨i,win',drag⟩
  · have hopens : d.Opens clicked := Ensures.ite (fun _ => Ensures.pure (.inl ⟨rfl,rfl⟩))
      (fun _ => Desktop.clickLauncher_opens d.engine.launchers) clicked hclick
    rcases hopens with ⟨hsame,hcounter⟩ | ⟨x,y,win,hspawn,hwindows,hcounter⟩
    · rw [Ledger.click,hsame,hcounter,if_neg (lt_irrefl _)]
      exact .missed
    · rw [Ledger.click,hwindows,hcounter,List.length_append,List.length_singleton,
        if_pos (Nat.lt_succ_self _)]
      exact .opened hspawn
  · obtain ⟨win,hwin,hpressed⟩ := Desktop.findClicked_pressed _ _ hfound i win' drag rfl
    obtain ⟨n,hn⟩ : ∃ n, l.names[i]? = some n := by
      have hlt := (List.getElem?_eq_some_iff.mp hwin).1
      exact ⟨_,List.getElem?_eq_getElem (hlen ▸ hlt)⟩
    have hfocus : clicked.engine = {d.engine with
        windows := d.engine.windows.eraseIdx i ++ [win']} := by
      cases hclick
      cases drag <;> rfl
    rw [Ledger.click,hfocus,hwin,hn]
    exact .pressed hwin hn hpressed

/-- Neither the parallax nor a drag changes more of a window than its depth and place. -/
structure SemanticWindow.Moved (win win' : SemanticWindow) : Prop where
  id : win'.id = win.id
  state : win'.state = win.state
  normal : win'.normal = win.normal

theorem Desktop.applyDrag_moved {d : Desktop} : Ensures d.parallax.applyDrag fun d' =>
    List.Forall₂ SemanticWindow.Moved d.engine.windows d'.engine.windows ∧
      d'.engine.instanceCounter = d.engine.instanceCounter := by
  have hself (windows : List SemanticWindow) :
      List.Forall₂ SemanticWindow.Moved windows windows :=
    List.forall₂_same.mpr fun win _ => ⟨rfl,rfl,rfl⟩
  have hparallax : List.Forall₂ SemanticWindow.Moved d.engine.windows d.parallax.engine.windows :=
    PairedLists.mapIdx (hself d.engine.windows) fun i win win' h => ⟨h.id,h.state,h.normal⟩
  unfold applyDrag
  split
  · rename_i win _ hlast
    refine Ensures.of_true.bind fun x _ => Ensures.of_true.bind fun y _ => ?_
    refine SemanticWindow.generateCloud_ensures.bind fun win' hwin' => Ensures.pure ⟨?_,rfl⟩
    obtain ⟨before,hbefore⟩ := List.getLast?_eq_some_iff.mp hlast
    have hid := SemanticWindow.bare_congr SemanticWindow.id (fun _ => rfl) hwin'
    have hstate := SemanticWindow.bare_congr SemanticWindow.state (fun _ => rfl) hwin'
    have hnormal := SemanticWindow.bare_congr SemanticWindow.normal (fun _ => rfl) hwin'
    have hlast' : List.Forall₂ SemanticWindow.Moved d.parallax.engine.windows
        (d.parallax.engine.windows.dropLast ++ [win']) := by
      rw [hbefore,List.dropLast_concat]
      exact PairedLists.concat (hself before) ⟨hid,hstate,hnormal⟩
    exact PairedLists.trans hparallax hlast' fun _ _ _ hab hbc =>
      ⟨hbc.id.trans hab.id,hbc.state.trans hab.state,hbc.normal.trans hab.normal⟩
  · exact Ensures.pure ⟨hparallax,rfl⟩

/-! ### From one window to all of them -/

/-- What a frame may hold a window to: `post` between two frames and `pre` within one, of its name,
the number of frames, its note and itself; and `gone` of a window that was removed. -/
structure WindowRule where
  pre : ℕ → ℕ → WindowNote → SemanticWindow → Prop
  post : ℕ → ℕ → WindowNote → SemanticWindow → Prop
  gone : ℕ → ℕ → WindowNote → Prop

/-- What each step of a frame does to one window keeps to the rule. -/
structure WindowRule.Kept (rule : WindowRule) : Prop where
  enter : ∀ {n k note win}, rule.post n k note win → rule.pre n k note win
  spawn : ∀ n k id x y, Ensures (SemanticWindow.spawn id x y 800 600) (rule.pre n k .blank)
  press : ∀ {n k note win win' button}, rule.pre n k note win → Pressed win button win' →
    rule.pre n k (note.press win k button) win'
  place : ∀ {n k note win win'}, rule.pre n k note win → win'.state = win.state →
    win'.normal = win.normal → rule.pre n k note win'
  tick : ∀ {n k note win win'}, rule.pre n k note win → win'.bare = win.ticked.bare →
    if win'.state = .stable .dead then rule.gone n (k + 1) note else rule.post n (k + 1) note win'
  later : ∀ {n k note}, rule.gone n k note → rule.gone n (k + 1) note

/-- The windows have names of their own, which are among those that were given, and what was said
of a window and of a removed one holds. -/
structure Ledger.Keeps (l : Ledger) (windows : List SemanticWindow)
    (listed : ℕ → WindowNote → SemanticWindow → Prop) (gone : ℕ → WindowNote → Prop) : Prop where
  nodup : l.names.Nodup
  lt : ∀ n ∈ l.names, n < l.opened
  blank : ∀ n, l.opened ≤ n → l.notes n = .blank
  listed : List.Forall₂ (fun n win => listed n (l.notes n) win) l.names windows
  gone : ∀ n < l.opened, n ∉ l.names → gone n (l.notes n)

namespace Ledger

variable {l l' : Ledger} {windows windows' : List SemanticWindow} {rule : WindowRule}
  {listed listed' : ℕ → WindowNote → SemanticWindow → Prop} {gone : ℕ → WindowNote → Prop}

theorem Keeps.map (h : l.Keeps windows listed gone)
    (hall : List.Forall₂ (fun n win => listed' n (l.notes n) win) l.names windows') :
    l.Keeps windows' listed' gone := ⟨h.nodup,h.lt,h.blank,hall,h.gone⟩

/-- Only of windows that there were is anything noted. -/
theorem Keeps.lt_opened (h : l.Keeps windows listed gone) {n : ℕ} (hnote : l.notes n ≠ .blank) :
    n < l.opened := by
  by_contra hnot
  exact hnote (h.blank n (not_lt.mp hnot))

theorem Keeps.enter (hrule : rule.Kept) (h : l.Keeps windows (rule.post · l.frames) gone) :
    l.Keeps windows (rule.pre · l.frames) gone :=
  h.map (h.listed.imp fun _ _ hpost => hrule.enter hpost)

/-- A note changes only if the window under its name is stable and takes a click. -/
theorem Keeps.click_note {d : Desktop} {counter : UInt32}
    (h : l.Keeps d.engine.windows (rule.pre · l.frames) gone)
    (hstep : ClickStep d l windows' counter l') (n : ℕ) :
    l'.notes n = l.notes n ∨ ∃ win mode, rule.pre n l.frames (l.notes n) win ∧
      win.state = .stable mode := by
  cases hstep with
  | missed => exact .inl rfl
  | opened => exact .inl rfl
  | @pressed i m win win' hwin hm hpressed =>
    by_cases heq : n = m
    · subst heq
      rcases hpressed.stable with hnone | ⟨mode,hstable⟩
      · rw [hnone]
        exact .inl (Function.update_self ..)
      · exact .inr ⟨win,mode,PairedLists.getElem?_both h.listed hm hwin,hstable⟩
    · exact .inl (Function.update_of_ne heq _ _)

/-- The next name is a new one. -/
theorem Keeps.opened (h : l.Keeps windows listed gone) {win : SemanticWindow}
    (hwin : listed l.opened .blank win) :
    Keeps {l with names := l.names ++ [l.opened],opened := l.opened + 1} (windows ++ [win])
      listed gone := by
  have hnew : l.opened ∉ l.names := fun hmem => lt_irrefl _ (h.lt _ hmem)
  have hblank := h.blank l.opened le_rfl
  refine ⟨?_,?_,fun n hn => h.blank n (Nat.le_of_succ_le hn),?_,?_⟩
  · exact List.nodup_append.mpr ⟨h.nodup,List.nodup_singleton _,by
      rintro n hn _ hm rfl
      exact hnew (List.mem_singleton.mp hm ▸ hn)⟩
  · intro n hn
    rcases List.mem_append.mp hn with hn | hn
    · exact Nat.lt_succ_of_lt (h.lt n hn)
    · exact List.mem_singleton.mp hn ▸ Nat.lt_succ_self _
  · refine PairedLists.concat h.listed ?_
    rw [hblank]
    exact hwin
  · intro n hn hmem
    rw [List.mem_append,List.mem_singleton,not_or] at hmem
    exact h.gone n (lt_of_le_of_ne (Nat.le_of_lt_succ hn) hmem.2) hmem.1

/-- The name that goes to the end is the only one whose note may change. -/
theorem Keeps.moved (h : l.Keeps windows listed gone) {i n : ℕ} (hn : l.names[i]? = some n)
    {note : WindowNote} {win : SemanticWindow} (hwin : listed n note win) :
    Keeps {l with
      names := l.names.eraseIdx i ++ [n]
      notes := Function.update l.notes n note} (windows.eraseIdx i ++ [win]) listed gone := by
  have hperm := PairedLists.perm_moved hn
  have hnodup := hperm.nodup_iff.mpr h.nodup
  have hmem : n ∈ l.names := List.mem_of_getElem? hn
  have hothers : ∀ m ∈ l.names.eraseIdx i, m ≠ n := fun m hm heq =>
    (List.nodup_append.mp hnodup).2.2 m hm n (List.mem_singleton_self n) heq
  have hsame {m : ℕ} (hne : m ≠ n) : Function.update l.notes n note m = l.notes m :=
    Function.update_of_ne hne _ _
  refine ⟨hnodup,fun m hm => h.lt m (hperm.mem_iff.mp hm),fun m hm => ?_,?_,?_⟩
  · exact (hsame fun heq => (h.lt n hmem).not_ge (heq ▸ hm)).trans (h.blank m hm)
  · refine PairedLists.concat ?_ ?_
    · refine ((List.forall₂_and_left _ _).mpr ⟨hothers,PairedLists.eraseIdx h.listed i⟩).imp ?_
      rintro m other ⟨hne,hlisted⟩
      show listed m (Function.update l.notes n note m) other
      rwa [hsame hne]
    · show listed n (Function.update l.notes n note n) win
      rwa [Function.update_self]
  · intro m hm hnot
    have hgone : m ∉ l.names := fun hm => hnot (hperm.mem_iff.mpr hm)
    have hne : m ≠ n := fun heq => hgone (heq.symm ▸ hmem)
    show gone m (Function.update l.notes n note m)
    rw [hsame hne]
    exact h.gone m hm hgone

theorem Keeps.click {d : Desktop} (hrule : rule.Kept)
    (h : l.Keeps d.engine.windows (rule.pre · l.frames) (rule.gone · l.frames))
    {counter : UInt32} (hstep : ClickStep d l windows' counter l') :
    l'.frames = l.frames ∧ l'.Keeps windows' (rule.pre · l.frames) (rule.gone · l.frames) := by
  cases hstep with
  | missed => exact ⟨rfl,h⟩
  | opened hspawn => exact ⟨rfl,h.opened (hrule.spawn _ _ _ _ _ _ hspawn)⟩
  | pressed hwin hn hpressed =>
    have hpre := PairedLists.getElem?_both h.listed hn hwin
    exact ⟨rfl,h.moved hn (hrule.press hpre hpressed)⟩

theorem Keeps.place {d : Desktop} (hrule : rule.Kept)
    (h : l.Keeps d.engine.windows (rule.pre · l.frames) gone) :
    Ensures d.parallax.applyDrag fun d' =>
      l.Keeps d'.engine.windows (rule.pre · l.frames) gone := by
  intro d' hd'
  obtain ⟨hmoved,_⟩ := Desktop.applyDrag_moved d' hd'
  exact h.map (PairedLists.trans h.listed hmoved fun n win win' hpre hsame =>
    hrule.place hpre hsame.state hsame.normal)

/-- The tick goes from one frame to the next. -/
theorem Keeps.tick {ticked : List SemanticWindow} (hrule : rule.Kept)
    (h : l.Keeps windows (rule.pre · l.frames) (rule.gone · l.frames))
    (hticked : List.Forall₂ (fun win win' => win'.bare = win.ticked.bare) windows ticked) :
    (l.tick ticked).Keeps (ticked.filter fun win => win.state ≠ .stable .dead)
      (rule.post · (l.frames + 1)) (rule.gone · (l.frames + 1)) := by
  have hall := PairedLists.trans h.listed hticked fun n win win' hpre hbare => hrule.tick hpre hbare
  let alive (win : SemanticWindow) : Bool := win.state ≠ .stable .dead
  have hsub := PairedLists.survivors_sublist hall alive
  refine ⟨h.nodup.sublist hsub,fun n hn => h.lt n (hsub.subset hn),h.blank,?_,?_⟩
  · refine (PairedLists.forall₂_survivors hall alive).imp ?_
    rintro n win ⟨htick,halive⟩
    rwa [if_neg (of_decide_eq_true halive)] at htick
  · intro n hn hnot
    by_cases hmem : n ∈ l.names
    · have hnot : n ∉ PairedLists.survivors alive l.names ticked := hnot
      obtain ⟨win,_,htick,hdead⟩ := PairedLists.not_mem_survivors hall hmem hnot
      rwa [if_pos (not_not.mp (mt decide_eq_true hdead))] at htick
    · exact hrule.later (h.gone n hn hmem)

end Ledger

/-! ### Frames and runs -/

namespace Desktop

variable {d d' : Desktop} {l l' : Ledger}

/-- The ledger does not take part in the frame. -/
theorem frame_of_noted (h : d.notedFrame l = .ok (d',l')) : d.frame = .ok d' := by
  obtain ⟨found,hfound,h⟩ := bind_inv h
  obtain ⟨clicked,hclicked,h⟩ := bind_inv h
  obtain ⟨dragged,hdragged,h⟩ := bind_inv h
  obtain ⟨ticked,hticked,h⟩ := bind_inv h
  obtain ⟨⟨engine,redrew⟩,hengine,h⟩ := bind_inv h
  cases h
  simp only [frame,hclicked,hdragged,hengine,bind,Except.bind,pure,Except.pure]

/-- And it follows the frame wherever that returns. -/
theorem noted_of_frame (l : Ledger) (h : d.frame = .ok d') : ∃ l', d.notedFrame l = .ok (d',l') := by
  obtain ⟨clicked,hclicked,h⟩ := bind_inv h
  obtain ⟨dragged,hdragged,h⟩ := bind_inv h
  obtain ⟨⟨engine,redrew⟩,hengine,h⟩ := bind_inv h
  cases h
  obtain ⟨ticked,hticked,_⟩ := bind_inv hengine
  obtain ⟨found,hfound⟩ : ∃ found, d.found = .ok found := by
    unfold found
    split
    · rename_i hleft
      rw [handleClick,if_pos hleft] at hclicked
      obtain ⟨found,hfound,_⟩ := bind_inv hclicked
      exact ⟨found,hfound⟩
    · exact ⟨none,rfl⟩
  refine ⟨(l.click d clicked found).tick (ticked.map Prod.fst),?_⟩
  simp only [notedFrame,hfound,hclicked,hdragged,hticked,hengine,bind,Except.bind,pure,Except.pure]

/-- A frame in its parts. -/
theorem notedFrame_cases (hlen : l.names.length = d.engine.windows.length) :
    Ensures (d.notedFrame l) fun out => ∃ (clicked : Desktop) (l₁ : Ledger)
      (dragged : Desktop) (ticked : List SemanticWindow),
      ClickStep d l clicked.engine.windows clicked.engine.instanceCounter l₁ ∧
      clicked.parallax.applyDrag = .ok dragged ∧
      List.Forall₂ (fun win win' => win'.bare = win.ticked.bare) dragged.engine.windows ticked ∧
      out.1.engine = {dragged.engine with
        windows := ticked.filter fun win => win.state ≠ .stable .dead} ∧
      out.2 = l₁.tick ticked := by
  intro out hout
  obtain ⟨found,hfound,hout⟩ := bind_inv hout
  obtain ⟨clicked,hclicked,hout⟩ := bind_inv hout
  obtain ⟨dragged,hdragged,hout⟩ := bind_inv hout
  obtain ⟨ticked,hticked,hout⟩ := bind_inv hout
  obtain ⟨⟨engine,redrew⟩,hengine,hout⟩ := bind_inv hout
  cases hout
  have hall : List.Forall₂ (fun win out => out.1.bare = win.ticked.bare) dragged.engine.windows
      ticked :=
    Ensures.mapM_forall₂ (fun win _ => SemanticWindow.updatePhysics_ensures) ticked hticked
  rw [SplatEngine.tickPhysics,hticked] at hengine
  cases hengine
  exact ⟨clicked,_,dragged,_,Ledger.click_step hlen hfound hclicked,hdragged,
    List.forall₂_map_right_iff.mpr hall,rfl,rfl⟩

/-- A frame keeps to the rule. -/
theorem notedFrame_keeps {rule : WindowRule} (hrule : rule.Kept)
    (h : l.Keeps d.engine.windows (rule.post · l.frames) (rule.gone · l.frames)) :
    Ensures (d.notedFrame l) fun out => out.2.frames = l.frames + 1 ∧
      out.2.Keeps out.1.engine.windows (rule.post · out.2.frames) (rule.gone · out.2.frames) := by
  intro out hout
  obtain ⟨clicked,l₁,dragged,ticked,hstep,hdragged,hticked,hengine,hledger⟩ :=
    notedFrame_cases h.listed.length_eq out hout
  obtain ⟨hframes,hclicked⟩ := Ledger.Keeps.click hrule (h.enter hrule) hstep
  rw [← hframes] at hclicked
  have hplaced := hclicked.place hrule dragged hdragged
  have htick := Ledger.Keeps.tick hrule hplaced hticked
  rw [hledger,hengine]
  show l₁.frames + 1 = l.frames + 1 ∧ _
  exact ⟨by rw [hframes],htick⟩

end Desktop

namespace NotedRun

variable {gpu : GpuDriver} {s t : NotedRun} {a : DesktopAction}

/-- An action leaves the windows and the ledger alone, or it draws a frame. -/
theorem exec_cases (h : s.exec gpu a = .ok t) :
    (t.run.desktop.engine = s.run.desktop.engine ∧ t.ledger = s.ledger) ∨
    ∃ stored d' : Desktop, stored.engine = s.run.desktop.engine ∧
      stored.notedFrame s.ledger = .ok (d',t.ledger) ∧
      t.run.desktop.engine = d'.engine.sorted := by
  obtain ⟨⟨stored,draws⟩,hstore,h⟩ := bind_inv h
  obtain ⟨run,hrun,h⟩ := bind_inv h
  have hstored : stored.desktop.engine = s.run.desktop.engine :=
    (DragState.store_keeps _ hstore).1
  cases draws with
  | false =>
    cases h
    cases hrun
    exact .inl ⟨hstored,rfl⟩
  | true =>
    obtain ⟨⟨d',l'⟩,hnoted,h⟩ := bind_inv h
    cases h
    obtain ⟨d,hframe,rfl⟩ := DragState.render_ensures run hrun
    rw [Desktop.frame_of_noted hnoted] at hframe
    cases hframe
    exact .inr ⟨stored.desktop,d',hstored,hnoted,rfl⟩

theorem exec_run (h : s.exec gpu a = .ok t) : s.run.exec gpu a = .ok t.run := by
  obtain ⟨⟨stored,draws⟩,hstore,h⟩ := bind_inv h
  obtain ⟨run,hrun,h⟩ := bind_inv h
  have ht : t.run = run := by
    cases draws with
    | false =>
      cases h
      rfl
    | true =>
      obtain ⟨out,_,h⟩ := bind_inv h
      cases h
      rfl
  rw [ht,DesktopRun.exec_eq,hstore]
  exact hrun

/-- What the desktop can do, it can do with a ledger; only a frame is counted. -/
theorem exec_of_run {r : DesktopRun} (h : s.run.exec gpu a = .ok r) :
    ∃ l, s.exec gpu a = .ok ⟨r,l⟩ := by
  rw [DesktopRun.exec_eq] at h
  obtain ⟨⟨stored,draws⟩,hstore,hdraw⟩ := bind_inv h
  cases draws with
  | false =>
    refine ⟨s.ledger,?_⟩
    simp only [exec,hstore,hdraw,bind,Except.bind]
    rfl
  | true =>
    obtain ⟨d,hframe,_⟩ := DragState.render_ensures r hdraw
    obtain ⟨l',hnoted⟩ := Desktop.noted_of_frame s.ledger hframe
    refine ⟨l',?_⟩
    simp only [exec,hstore,hdraw,bind,Except.bind,if_true,hnoted]
    rfl

/-- Every window keeps to the rule between two frames. -/
def Keeps (s : NotedRun) (rule : WindowRule) : Prop :=
  s.ledger.Keeps s.run.desktop.engine.windows (rule.post · s.ledger.frames)
    (rule.gone · s.ledger.frames)

theorem Keeps.named {rule : WindowRule} (h : s.Keeps rule) {n : ℕ} {win : SemanticWindow}
    (hnamed : s.Named n win) : rule.post n s.ledger.frames (s.ledger.notes n) win := by
  obtain ⟨i,hn,hwin⟩ := hnamed
  exact PairedLists.getElem?_both h.listed hn hwin

/-- What is stored before a frame leaves the windows alone. -/
theorem Keeps.stored {rule : WindowRule} (h : s.Keeps rule) {stored : Desktop}
    (hengine : stored.engine = s.run.desktop.engine) :
    s.ledger.Keeps stored.engine.windows (rule.post · s.ledger.frames)
      (rule.gone · s.ledger.frames) := by
  rw [hengine]
  exact h

theorem exec_keeps {rule : WindowRule} (hrule : rule.Kept) (h : s.Keeps rule)
    (hexec : s.exec gpu a = .ok t) : t.Keeps rule := by
  rcases exec_cases hexec with ⟨hsame,hledger⟩ | ⟨stored,d',hengine,hnoted,hdrawn⟩
  · rw [Keeps,hsame,hledger]
    exact h
  · rw [Keeps,hdrawn]
    exact (Desktop.notedFrame_keeps hrule (h.stored hengine) _ hnoted).2

/-- What an action makes of the note under a name. -/
theorem exec_note {rule : WindowRule} (hrule : rule.Kept) (h : s.Keeps rule)
    (hexec : s.exec gpu a = .ok t) (n : ℕ) :
    (s.ledger.frames ≤ t.ledger.frames ∧ t.ledger.notes n = s.ledger.notes n) ∨
      t.ledger.frames = s.ledger.frames + 1 ∧
      ∃ win mode, rule.pre n s.ledger.frames (s.ledger.notes n) win ∧ win.state = .stable mode := by
  rcases exec_cases hexec with ⟨_,hledger⟩ | ⟨stored,d',hengine,hnoted,_⟩
  · rw [hledger]
    exact .inl ⟨le_rfl,rfl⟩
  · have hstored := (h.stored hengine).enter hrule
    obtain ⟨clicked,l₁,dragged,ticked,hstep,_,_,_,hledger⟩ :=
      Desktop.notedFrame_cases hstored.listed.length_eq _ hnoted
    have hticks : t.ledger = l₁.tick ticked := hledger
    have hframes : t.ledger.frames = s.ledger.frames + 1 := by
      rw [hticks,← (Ledger.Keeps.click hrule hstored hstep).1]
      rfl
    rcases hstored.click_note hstep n with hsame | hpressed
    · refine .inl ⟨by omega,?_⟩
      rw [hticks]
      exact hsame
    · exact .inr ⟨hframes,hpressed⟩

/-- Only a frame is counted. -/
theorem exec_frames {rule : WindowRule} (hrule : rule.Kept) (h : s.Keeps rule)
    (hexec : s.exec gpu a = .ok t) : t.ledger.frames ≤ s.ledger.frames + 1 ∧
      (a = .render → t.ledger.frames = s.ledger.frames + 1) := by
  have hframe {stored : Desktop} {out : Desktop × Ledger}
      (hengine : stored.engine = s.run.desktop.engine)
      (hnoted : stored.notedFrame s.ledger = .ok out) : out.2.frames = s.ledger.frames + 1 :=
    (Desktop.notedFrame_keeps hrule (h.stored hengine) _ hnoted).1
  constructor
  · rcases exec_cases hexec with ⟨_,hledger⟩ | ⟨stored,d',hengine,hnoted,_⟩
    · rw [hledger]
      exact Nat.le_succ _
    · exact (hframe hengine hnoted).le
  · rintro rfl
    obtain ⟨⟨stored,draws⟩,hstore,hexec⟩ := bind_inv hexec
    cases hstore
    obtain ⟨run,_,hexec⟩ := bind_inv hexec
    obtain ⟨out,hnoted,hexec⟩ := bind_inv hexec
    cases hexec
    exact hframe rfl hnoted

/-- From the beginning every window keeps to the rule, if those that are there then do. -/
theorem run_keeps {rule : WindowRule} (hrule : rule.Kept) {r : DesktopRun}
    (hstart : ∀ n < r.desktop.engine.windows.length, ∀ win ∈ r.desktop.engine.windows,
      rule.post n 0 .blank win) (h : (notedSystem gpu).Run (.fresh r) s) : s.Keeps rule := by
  refine h.preserves (I := fun s => s.Keeps rule) (fun s a t hs ht => exec_keeps hrule hs ht) ?_
  refine ⟨List.nodup_range,fun n hn => List.mem_range.mp hn,fun n _ => rfl,?_,?_⟩
  · refine List.forall₂_iff_get.mpr ⟨List.length_range,fun i hi hwin => ?_⟩
    refine hstart _ ?_ _ (List.get_mem _ _)
    exact List.mem_range.mp (List.get_mem _ _)
  · exact fun n hn hnot => absurd (List.mem_range.mpr hn) hnot

/-- The runs with a ledger are the runs of the desktop. -/
theorem exists_ledger {screen : Screen} {r : DesktopRun}
    (h : (desktopSystem screen gpu).Reachable r) :
    ∃ l, (notedSystem gpu).Run (.fresh (.start screen)) ⟨r,l⟩ := by
  induction h with
  | init h =>
    obtain rfl : _ = DesktopRun.start screen := h
    exact ⟨_,.refl⟩
  | step _ hstep ih =>
    obtain ⟨l,hl⟩ := ih
    obtain ⟨l',hl'⟩ := exec_of_run (s := ⟨_,l⟩) hstep
    exact ⟨l',hl.tail ⟨_,hl'⟩⟩

theorem reachable_of_run {screen : Screen} (h : (notedSystem gpu).Run (.fresh (.start screen)) s) :
    (desktopSystem screen gpu).Reachable s.run := by
  have hstart : (desktopSystem screen gpu).Reachable (.start screen) := .init rfl
  refine h.preserves (I := fun s => (desktopSystem screen gpu).Reachable s.run) ?_ hstart
  exact fun s a t hs ht => hs.step (a := a) (exec_run ht)

/-- An action without the drawing, with the ledger. -/
def sketched (s : NotedRun) (a : DesktopAction) : Option NotedRun := do
  let (stored,draws) ← (s.run.store a).toOption
  if draws then
    let (d,l) ← (stored.desktop.notedFrame s.ledger).toOption
    return ⟨{stored with desktop := d},l⟩
  else return ⟨stored,s.ledger⟩

theorem sketched_exec {screen : Screen} (hw : gpu.width.toNat ≤ 8192)
    (hh : gpu.height.toNat ≤ 8192) (hs : (desktopSystem screen gpu).Reachable s.run)
    (h : s.sketched a = some t) : s.exec gpu a = .ok t := by
  obtain ⟨⟨stored,draws⟩,hout,h⟩ := Option.bind_eq_some_iff.mp h
  have hstore := toOption_inv hout
  cases draws with
  | false =>
    cases Option.some.inj h
    simp only [exec,hstore,bind,Except.bind]
    rfl
  | true =>
    obtain ⟨⟨d,l⟩,hout,h⟩ := Option.bind_eq_some_iff.mp h
    cases Option.some.inj h
    have hnoted := toOption_inv hout
    have hsketch : s.run.sketch a = .ok ({stored with desktop := d},true) := by
      simp only [DesktopRun.sketch,hstore,bind,Except.bind,Desktop.frameIf,if_true,
        Desktop.frame_of_noted hnoted]
      rfl
    obtain ⟨stored',hstore',hdraw⟩ := sketch_draws hw hh hs hsketch
    cases hstore.symm.trans hstore'
    simp only [exec,hstore,hdraw,bind,Except.bind,if_true,hnoted]
    rfl

/-- Actions that were computed without the drawing. -/
theorem run_sketches {screen : Screen} (hw : gpu.width.toNat ≤ 8192)
    (hh : gpu.height.toNat ≤ 8192) (hs : (desktopSystem screen gpu).Reachable s.run)
    {actions : List DesktopAction} (h : actions.foldlM sketched s = some t) :
    (notedSystem gpu).Run s t := by
  induction actions generalizing s with
  | nil =>
    cases Option.some.inj h
    exact .refl
  | cons a actions ih =>
    rw [List.foldlM_cons] at h
    obtain ⟨u,hu,ht⟩ := Option.bind_eq_some_iff.mp h
    have hexec := sketched_exec hw hh hs hu
    exact .head ⟨a,hexec⟩ (ih (hs.step (exec_run hexec)) ht)

/-- The names are the numbers that the windows were opened with, as far as these do not wrap. -/
structure Numbered (s : NotedRun) : Prop where
  counter : s.run.desktop.engine.instanceCounter = UInt32.ofNat (s.ledger.opened + 1)
  ids : List.Forall₂ (fun n win => win.id = UInt32.ofNat (n + 1)) s.ledger.names
    s.run.desktop.engine.windows

theorem clickStep_numbered {d : Desktop} {l l' : Ledger} {windows' : List SemanticWindow}
    {counter : UInt32} (hcounter : d.engine.instanceCounter = UInt32.ofNat (l.opened + 1))
    (hids : List.Forall₂ (fun n win => win.id = UInt32.ofNat (n + 1)) l.names d.engine.windows)
    (hstep : ClickStep d l windows' counter l') :
    counter = UInt32.ofNat (l'.opened + 1) ∧
      List.Forall₂ (fun n win => win.id = UInt32.ofNat (n + 1)) l'.names windows' := by
  cases hstep with
  | missed => exact ⟨hcounter,hids⟩
  | opened hspawn =>
    refine ⟨?_,PairedLists.concat hids ?_⟩
    · rw [hcounter]
      exact (UInt32.ofNat_add _ 1).symm
    · exact (SemanticWindow.spawn_ensures _ hspawn).1.trans hcounter
  | pressed hwin hn hpressed =>
    refine ⟨hcounter,PairedLists.concat (PairedLists.eraseIdx hids _) ?_⟩
    exact hpressed.id.trans (PairedLists.getElem?_both hids hn hwin)

theorem exec_numbered (h : s.Numbered) (hexec : s.exec gpu a = .ok t) : t.Numbered := by
  rcases exec_cases hexec with ⟨hsame,hledger⟩ | ⟨stored,d',hengine,hnoted,hdrawn⟩
  · constructor
    · rw [hsame,hledger]
      exact h.counter
    · rw [hsame,hledger]
      exact h.ids
  · have hcounter := h.counter
    have hids := h.ids
    rw [← hengine] at hcounter hids
    obtain ⟨clicked,l₁,dragged,ticked,hstep,hdragged,hticked,hd',hledger⟩ :=
      Desktop.notedFrame_cases hids.length_eq _ hnoted
    obtain ⟨hcounter',hids'⟩ := clickStep_numbered hcounter hids hstep
    obtain ⟨hmoved,hkept⟩ := Desktop.applyDrag_moved dragged hdragged
    have hplaced := PairedLists.trans hids' hmoved fun n win win' hid hsame => hsame.id.trans hid
    have hall := PairedLists.trans hplaced hticked fun n win win' hid hbare =>
      ((SemanticWindow.bare_congr SemanticWindow.id (fun _ => rfl) hbare).trans win.ticked_keeps.1).trans
        hid
    have hticks : t.ledger = l₁.tick ticked := hledger
    constructor
    · rw [hdrawn,hd',hticks]
      exact hkept.trans hcounter'
    · rw [hdrawn,hd',hticks]
      have hlive := PairedLists.forall₂_survivors hall fun win => win.state ≠ .stable .dead
      exact hlive.imp fun _ _ hid => hid.1

theorem run_numbered {screen : Screen} (h : (notedSystem gpu).Run (.fresh (.start screen)) s) :
    s.Numbered :=
  h.preserves (I := Numbered) (fun _ _ _ hs ht => exec_numbered hs ht) ⟨rfl,.nil⟩

end NotedRun

/-- Two computed runs, one after the other. -/
theorem hdDesktop_runs {actions more : List DesktopAction} {P Q : NotedRun → Prop}
    [DecidablePred P] [DecidablePred Q]
    (h : (actions.foldlM NotedRun.sketched (.fresh (.start hdScreen))).any fun s =>
      P s ∧ (more.foldlM NotedRun.sketched s).any fun s' => Q s') :
    ∃ s s', (notedSystem hdGpu).Run (.fresh (.start hdScreen)) s ∧ (notedSystem hdGpu).Run s s' ∧
      P s ∧ Q s' := by
  obtain ⟨s,hs,heval⟩ := (Option.any_eq_true _ _).mp h
  obtain ⟨hfirst,heval⟩ := of_decide_eq_true heval
  obtain ⟨s',hs',hthen⟩ := (Option.any_eq_true _ _).mp heval
  have hw : hdGpu.width.toNat ≤ 8192 := by decide
  have hh : hdGpu.height.toNat ≤ 8192 := by decide
  have hrun := NotedRun.run_sketches (s := .fresh _) hw hh hdDesktop_reachable hs
  have hrun' := NotedRun.run_sketches hw hh (NotedRun.reachable_of_run hrun) hs'
  exact ⟨s,s',hrun,hrun',hfirst,of_decide_eq_true hthen⟩

/-- The cursor goes to the launcher, and a window is opened. -/
def openFirst : List DesktopAction :=
  packetBytes 0x28 255 1 true ++ packetBytes 0x28 255 1 true ++ packetBytes 0x28 50 66 true ++
  openWindow

end PolymorphOS
