import PolymorphOS.MousePackets

/-! A drag under way: what the click pass of each frame, which runs again with the new cursor, does
to the windows behind the dragged one. -/
namespace PolymorphOS
namespace Desktop

/-- The cursor is on the button that lies so many pixels from the right border. -/
def OnButton (d : Desktop) (win : SemanticWindow) (inset : ℤ) : Prop :=
  |d.cursorX - (win.x + win.w - inset)| < 15 ∧ |d.cursorY - (win.y + 15)| < 15

/-- The cursor is in the top `height` pixels of the window. -/
def Inside (d : Desktop) (win : SemanticWindow) (height : ℤ) : Prop :=
  (win.x ≤ d.cursorX ∧ d.cursorX ≤ win.x + win.w) ∧
    win.y ≤ d.cursorY ∧ d.cursorY ≤ win.y + height

/-- The window is under the cursor: with its body, or, once it is stable, with its close, restore
or maximize button or its title bar. -/
def Under (d : Desktop) (win : SemanticWindow) : Prop :=
  ((∃ mode, win.state = .stable mode) ∧
    (d.OnButton win 25 ∨ d.OnButton win 55 ∨ d.OnButton win 85 ∨ d.Inside win 40)) ∨
  d.Inside win win.h

instance (d : Desktop) (win : SemanticWindow) (inset : ℤ) : Decidable (d.OnButton win inset) :=
  inferInstanceAs (Decidable (_ ∧ _))

instance (d : Desktop) (win : SemanticWindow) (height : ℤ) : Decidable (d.Inside win height) :=
  inferInstanceAs (Decidable (_ ∧ _))

variable {d : Desktop} {win : SemanticWindow} {gpu : GpuDriver}

theorem near_ensures (a b r : ℤ) : Ensures (near a b r) fun near => near = true ↔ |a - b| < r := by
  refine Ensures.bind_i32 ?_
  refine (Ensures.i32 (Q := fun c => c = |a - b|) rfl).bind fun c hc => Ensures.pure ?_
  rw [hc,decide_eq_true_iff]

/-- `&&` over two conditions. -/
theorem and_ensures {x y : Except Panic Bool} {A B : Prop} (hx : Ensures x fun b => b = true ↔ A)
    (hy : Ensures y fun b => b = true ↔ B) : Ensures (x <&&> y) fun b => b = true ↔ A ∧ B := by
  refine hx.bind fun b hb => ?_
  cases b with
  | false => exact Ensures.pure (iff_of_false nofun fun h => nomatch hb.mpr h.1)
  | true =>
    refine fun c hc => (hy c hc).trans ?_
    exact (and_iff_right (hb.mp rfl)).symm

theorem hovers_ensures (height : ℤ) :
    Ensures (d.hovers win height) fun b => b = true ↔ d.Inside win height := by
  have hdecide (a b : ℤ) : Ensures (do return decide (a ≤ (← i32 b)) : Except Panic Bool)
      fun c => c = true ↔ a ≤ b := Ensures.bind_i32 (Ensures.pure decide_eq_true_iff)
  have hall := and_ensures (Ensures.pure (ε := Panic) (decide_eq_true_iff (p := d.cursorX ≥ win.x)))
    (and_ensures (hdecide d.cursorX (win.x + win.w))
      (and_ensures (Ensures.pure (decide_eq_true_iff (p := d.cursorY ≥ win.y)))
        (hdecide d.cursorY (win.y + height))))
  refine fun b hb => (hall b hb).trans ?_
  exact and_assoc.symm

theorem onButton_ensures (inset : ℤ) :
    Ensures (near d.cursorX (win.x + win.w - inset) 15 <&&> near d.cursorY (win.y + 15) 15)
      fun b => b = true ↔ d.OnButton win inset :=
  and_ensures (near_ensures _ _ _) (near_ensures _ _ _)

/-- The cursor is on nothing that only a stable window has. -/
def Beside (d : Desktop) (win : SemanticWindow) : Prop :=
  ∀ mode, win.state = .stable mode →
    ¬(d.OnButton win 25 ∨ d.OnButton win 55 ∨ d.OnButton win 85 ∨ d.Inside win 40)

/-- Where the cursor is on a window, and what a click does there. -/
inductive ClickCase (d : Desktop) (win : SemanticWindow) : Click → Prop
  | close {mode : WindowMode} (x y : ℤ) : win.state = .stable mode → d.OnButton win 25 →
      ClickCase d win (.handled (win.triggerClose x y) none)
  | restore {mode : WindowMode} : win.state = .stable mode → ¬d.OnButton win 25 →
      d.OnButton win 55 → ClickCase d win (.handled win.triggerRestore none)
  | maximize {mode : WindowMode} (w h : ℤ) : win.state = .stable mode → ¬d.OnButton win 25 →
      ¬d.OnButton win 55 → d.OnButton win 85 →
      ClickCase d win (.handled (win.triggerMaximize w h) none)
  | title {mode : WindowMode} (drag : ℤ × ℤ) : win.state = .stable mode → ¬d.OnButton win 25 →
      ¬d.OnButton win 55 → ¬d.OnButton win 85 → d.Inside win 40 →
      ClickCase d win (.handled win (some drag))
  | body : d.Beside win → d.Inside win win.h → ClickCase d win (.handled win none)
  | missed : d.Beside win → ¬d.Inside win win.h → ClickCase d win .missed

theorem clickBody_cases (h : d.Beside win) : Ensures (d.clickBody win) (d.ClickCase win) := by
  refine (hovers_ensures win.h).bind fun b hb => Ensures.ite (fun hover => ?_) fun hover => ?_
  · exact Ensures.pure (.body h (hb.mp hover))
  · exact Ensures.pure (.missed h (mt hb.mpr hover))

theorem clickWindow_cases : Ensures (d.clickWindow win) (d.ClickCase win) := by
  unfold clickWindow
  split
  · rename_i t hstate
    exact clickBody_cases fun mode hstable => nomatch hstate.symm.trans hstable
  · rename_i mode hstate
    refine Ensures.bind_i32 (Ensures.bind_i32 (Ensures.bind_i32 (Ensures.bind_i32 ?_)))
    refine Ensures.bind_i32 (Ensures.bind_i32 (Ensures.bind_i32 ?_))
    refine (onButton_ensures 25).bind fun close hclose => Ensures.ite (fun h => ?_) fun hnclose => ?_
    · split
      · exact Ensures.error
      · exact Ensures.pure (.close _ _ hstate (hclose.mp h))
    have hnclose := mt hclose.mpr hnclose
    refine (onButton_ensures 55).bind fun restore hres => Ensures.ite (fun h => ?_) fun hnres => ?_
    · exact Ensures.pure (.restore hstate hnclose (hres.mp h))
    have hnres := mt hres.mpr hnres
    refine (onButton_ensures 85).bind fun maximize hmax => Ensures.ite (fun h => ?_) fun hnmax => ?_
    · exact Ensures.pure (.maximize _ _ hstate hnclose hnres (hmax.mp h))
    have hnmax := mt hmax.mpr hnmax
    refine (hovers_ensures 40).bind fun title htitle => Ensures.ite (fun h => ?_) fun hntitle => ?_
    · refine Ensures.bind_i32 (Ensures.bind_i32 (Ensures.pure ?_))
      exact .title _ hstate hnclose hnres hnmax (htitle.mp h)
    have hntitle := mt htitle.mpr hntitle
    refine clickBody_cases fun _ _ => ?_
    rintro (h | h | h | h)
    · exact hnclose h
    · exact hnres h
    · exact hnmax h
    · exact hntitle h

/-- A click misses exactly the windows that are not under the cursor. -/
theorem clickWindow_ensures :
    Ensures (d.clickWindow win) fun click => click = .missed ↔ ¬d.Under win := by
  intro click hclick
  cases clickWindow_cases click hclick with
  | close _ _ hstable h =>
    exact iff_of_false nofun (not_not.mpr (.inl ⟨⟨_,hstable⟩,.inl h⟩))
  | restore hstable _ h =>
    exact iff_of_false nofun (not_not.mpr (.inl ⟨⟨_,hstable⟩,.inr (.inl h)⟩))
  | maximize _ _ hstable _ _ h =>
    exact iff_of_false nofun (not_not.mpr (.inl ⟨⟨_,hstable⟩,.inr (.inr (.inl h))⟩))
  | title _ hstable _ _ _ h =>
    exact iff_of_false nofun (not_not.mpr (.inl ⟨⟨_,hstable⟩,.inr (.inr (.inr h))⟩))
  | body _ h => exact iff_of_false nofun (not_not.mpr (.inr h))
  | missed hbeside h =>
    refine iff_of_true rfl ?_
    rintro (⟨⟨mode,hstable⟩,hon⟩ | hinside)
    · exact hbeside mode hstable hon
    · exact h hinside

/-! ### A frame -/

theorem findClicked_missed {i : ℕ} (h : ∀ win ∈ d.engine.windows.take i, ¬d.Under win) :
    Ensures (d.findClicked i) fun found => found = none := by
  induction i with
  | zero => exact Ensures.pure rfl
  | succ i ih =>
    have hbelow := ih fun win hwin => h win (List.take_subset_take_left _ (Nat.le_succ i) hwin)
    unfold findClicked
    split
    · exact hbelow
    · rename_i win hwin
      have hnot : ¬d.Under win := by
        refine h win (List.mem_of_getElem? (i := i) ?_)
        rwa [List.getElem?_take_of_lt (Nat.lt_succ_self i)]
      refine clickWindow_ensures.bind fun click hclick => ?_
      cases hclick.mpr hnot
      exact hbelow

/-- The top-most window takes the click if it is under the cursor. -/
theorem findClicked_top {others : List SemanticWindow} (hwin : d.engine.windows = others ++ [win])
    (h : d.Under win) : Ensures (d.findClicked (others.length + 1)) fun found =>
      ∃ win' drag, found = some (others.length,win',drag) := by
  have htop : d.engine.windows[others.length]? = some win := by
    simp only [hwin,List.getElem?_append_right le_rfl,Nat.sub_self,List.getElem?_cons_zero]
  unfold findClicked
  rw [htop]
  refine clickWindow_ensures.bind fun click hclick => ?_
  cases click with
  | missed => exact absurd h (hclick.mp rfl)
  | handled win' drag => exact Ensures.pure ⟨win',drag,rfl⟩

/-- The click pass of a frame during a drag, where no other window can take the click. -/
theorem handleClick_keeps {others : List SemanticWindow} (hleft : d.leftClick = true)
    (hdrag : d.isDragging = true) (hwindows : d.engine.windows = others ++ [win])
    (hunder : d.Under win ∨ ∀ other ∈ others, ¬d.Under other) :
    Ensures d.handleClick fun d' =>
      d'.isDragging = true ∧ ∃ win', d'.engine.windows = others ++ [win'] := by
  have hlen : d.engine.windows.length = others.length + 1 := by
    rw [hwindows,List.length_append,List.length_singleton]
  have hkept : Ensures (if d.isDragging then return d else d.clickLauncher d.engine.launchers)
      fun d' : Desktop => d'.isDragging = true ∧ ∃ win', d'.engine.windows = others ++ [win'] := by
    rw [hdrag,if_pos rfl]
    exact Ensures.pure ⟨hdrag,win,hwindows⟩
  rw [handleClick,if_pos hleft,hlen]
  by_cases htop : d.Under win
  · refine (findClicked_top hwindows htop).bind fun found hfound => ?_
    obtain ⟨win',drag,rfl⟩ := hfound
    have herase : d.engine.windows.eraseIdx others.length = others := by
      simp only [hwindows,List.eraseIdx_append_of_length_le le_rfl,Nat.sub_self,
        List.eraseIdx_cons_zero,List.append_nil]
    refine Ensures.pure ?_
    rcases drag with _ | ⟨x,y⟩
    · exact ⟨hdrag,win',congrArg (· ++ [win']) herase⟩
    · exact ⟨rfl,win',congrArg (· ++ [win']) herase⟩
  · refine (findClicked_missed (i := others.length + 1) fun other hother => ?_).bind
      fun found hfound => ?_
    · have hmem := List.mem_of_mem_take hother
      rw [hwindows,List.mem_append,List.mem_singleton] at hmem
      rcases hmem with hmem | rfl
      · exact hunder.resolve_left htop other hmem
      · exact htop
    · cases hfound
      exact hkept

/-- What a frame does to the windows behind the top-most one if nothing else happens to them: they
sink, go on with their transitions, and vanish once they are dead. -/
def drift (others : List SemanticWindow) : List SemanticWindow :=
  match (others.map fun win => {win with targetZ := 300}).mapM SemanticWindow.updatePhysics with
  | .ok ticked => (ticked.map Prod.fst).filter fun win => win.state ≠ .stable .dead
  | .error _ => []

/-- `render_desktop` up to the drawing. -/
def frame (d : Desktop) : Except Panic Desktop := do
  let d ← d.handleClick
  let d ← d.parallax.applyDrag
  let (ticked,_) ← d.engine.tickPhysics
  return {d with engine := ticked}

/-- A dead window does not survive the frame. -/
theorem frame_alive : Ensures d.frame fun d' =>
    ∀ win ∈ d'.engine.windows, win.state ≠ .stable .dead := by
  refine Ensures.of_true.bind fun d₁ _ => Ensures.of_true.bind fun d₂ _ => ?_
  refine Ensures.bind (Q := fun out : SplatEngine × Bool =>
    ∀ win ∈ out.1.windows, win.state ≠ .stable .dead) ?_ fun out hout => Ensures.pure hout
  refine Ensures.of_true.bind fun ticked _ => Ensures.pure fun win hwin => ?_
  exact of_decide_eq_true (List.mem_filter.mp hwin).2

theorem renderDesktop_eq : d.renderDesktop gpu = d.frame >>= fun d' => do
    let (engine,drawn) ← d'.engine.render gpu
    let cursor ← d'.drawCursor d'.leftClick
    return ({d' with engine := engine},.restoreFromNebulaCache :: (drawn ++ cursor)) := by
  simp only [renderDesktop,frame,bind_assoc]
  rfl

/-- The drawing leaves what the frame leaves, but for the order of the nebula. -/
theorem renderDesktop_ensures : Ensures (d.renderDesktop gpu) fun out => ∃ d', d.frame = .ok d' ∧
    out.1 = {d' with engine := d'.engine.sorted} := by
  rw [renderDesktop_eq]
  cases hframe : d.frame with
  | error e => exact Ensures.error
  | ok d' =>
    have hrender : Ensures (d'.engine.render gpu) fun out => out.1 = d'.engine.sorted := by
      refine Ensures.of_true.bind fun _ _ => Ensures.of_true.bind fun _ _ => ?_
      exact Ensures.of_true.bind fun _ _ => Ensures.pure rfl
    refine hrender.bind fun out hout => Ensures.of_true.bind fun _ _ => Ensures.pure ⟨d',rfl,?_⟩
    rw [hout]

theorem parallax_windows {others : List SemanticWindow}
    (h : d.engine.windows = others ++ [win]) : d.parallax.engine.windows =
      (others.map fun win => {win with targetZ := 300}) ++ [{win with targetZ := 0}] := by
  have hlen : d.engine.windows.length - 1 = others.length := by
    rw [h,List.length_append,List.length_singleton,Nat.add_sub_cancel]
  simp only [parallax,hlen]
  rw [h,List.mapIdx_append,List.mapIdx_cons,List.mapIdx_nil,Nat.zero_add,if_pos rfl]
  congr 1
  apply List.ext_getElem (by simp only [List.length_mapIdx,List.length_map])
  intro i hi _
  have hne : i ≠ others.length := (by simpa only [List.length_mapIdx] using hi : i < _).ne
  simp only [List.getElem_mapIdx,List.getElem_map,if_neg hne]

theorem applyDrag_windows {others : List SemanticWindow}
    (h : d.engine.windows = others ++ [win]) :
    Ensures d.applyDrag fun d' => d'.isDragging = d.isDragging ∧
      ∃ win', d'.engine.windows = others ++ [win'] := by
  unfold applyDrag
  split
  · refine Ensures.of_true.bind fun x _ => Ensures.of_true.bind fun y _ => ?_
    refine Ensures.of_true.bind fun win' _ => Ensures.pure ⟨rfl,win',?_⟩
    simp only [h,List.dropLast_concat]
  · exact Ensures.pure ⟨rfl,win,h⟩

theorem tickPhysics_windows {others : List SemanticWindow} {engine : SplatEngine}
    (h : engine.windows = (others.map fun win => {win with targetZ := 300}) ++ [win]) :
    Ensures engine.tickPhysics fun out => out.1.windows = drift others ∨
      ∃ win', out.1.windows = drift others ++ [win'] := by
  unfold SplatEngine.tickPhysics drift
  rw [h,List.mapM_append]
  cases (others.map fun win => {win with targetZ := 300}).mapM SemanticWindow.updatePhysics with
  | error e => exact Ensures.error
  | ok ticked =>
    rw [List.mapM_cons,List.mapM_nil]
    cases win.updatePhysics with
    | error e => exact Ensures.error
    | ok out =>
      refine Ensures.pure ?_
      by_cases hdead : out.1.state ≠ .stable .dead
      · right
        exact ⟨out.1,by simp [hdead]⟩
      · left
        simp [hdead]

/-- A frame of a drag leaves the windows behind the dragged one to themselves. -/
theorem frame_keeps {others : List SemanticWindow} (hleft : d.leftClick = true)
    (hdrag : d.isDragging = true) (hwindows : d.engine.windows = others ++ [win])
    (hunder : d.Under win ∨ ∀ other ∈ others, ¬d.Under other) :
    Ensures d.frame fun d' => d'.isDragging = true ∧ (d'.engine.windows = drift others ∨
      ∃ win', d'.engine.windows = drift others ++ [win']) := by
  refine (handleClick_keeps hleft hdrag hwindows hunder).bind fun d₁ h₁ => ?_
  obtain ⟨hdrag₁,win₁,hwin₁⟩ := h₁
  refine (applyDrag_windows (parallax_windows hwin₁)).bind fun d₂ h₂ => ?_
  obtain ⟨hdrag₂,win₂,hwin₂⟩ := h₂
  refine (tickPhysics_windows hwin₂).bind fun out hout => ?_
  exact Ensures.pure ⟨hdrag₂.trans hdrag₁,hout⟩

/-- Without a window, nothing is dragged, and no launcher opens one. -/
theorem frame_empty (hleft : d.leftClick = true) (hdrag : d.isDragging = true)
    (hwindows : d.engine.windows = []) :
    Ensures d.frame fun d' => d'.isDragging = true ∧ d'.engine.windows = [] := by
  have hclick : d.handleClick = .ok d := by
    rw [handleClick,if_pos hleft,hwindows,hdrag]
    rfl
  have hparallax : d.parallax.engine.windows = [] := by
    simp only [parallax,hwindows,List.mapIdx_nil]
  have hstill : d.parallax.applyDrag = .ok d.parallax := by
    rw [applyDrag,hparallax]
    cases d.parallax.isDragging <;> rfl
  rw [frame,hclick]
  show Ensures (d.parallax.applyDrag >>= _) _
  rw [hstill]
  show Ensures (d.parallax.engine.tickPhysics >>= _) _
  unfold SplatEngine.tickPhysics
  rw [hparallax]
  exact Ensures.pure ⟨hdrag,rfl⟩

end Desktop

/-- The desktop during a drag, with what the windows behind the dragged one are if nothing but
their own physics happens to them. -/
structure DragState where
  run : DesktopRun
  others : List SemanticWindow

/-- An action of the desktop. -/
def DragState.exec (gpu : GpuDriver) (s : DragState) (a : DesktopAction) :
    Except Panic DragState := do
  let (stored,draws) ← s.run.store a
  let run ← stored.drawIf gpu draws
  return ⟨run,if draws then Desktop.drift s.others else s.others⟩

/-- The runs that begin in a reachable state with a drag, and last until the button is released. -/
def dragSystem (screen : Screen) (gpu : GpuDriver) : Runs.System DragState DesktopAction where
  init s := (desktopSystem screen gpu).Reachable s.run ∧ s.run.desktop.leftClick = true ∧
    s.run.desktop.isDragging = true ∧ ∃ win, s.run.desktop.engine.windows = s.others ++ [win]
  step s a t := s.exec gpu a = .ok t ∧ t.run.desktop.leftClick = true

/-- Where the action draws, the dragged window is still there, and it is under the cursor unless no
window is. -/
def DragState.Uncontested (s : DragState) (a : DesktopAction) : Prop :=
  ∀ stored, s.run.store a = .ok (stored,true) →
    stored.desktop.engine.windows = [] ∨
    ∃ win, stored.desktop.engine.windows = s.others ++ [win] ∧
      (stored.desktop.Under win ∨ ∀ other ∈ s.others, ¬stored.desktop.Under other)

/-- The windows are those of the ghost, and behind them none but the dragged one. -/
def DragState.Owned (s : DragState) : Prop :=
  s.run.desktop.engine.windows = s.others ∨
    ∃ win, s.run.desktop.engine.windows = s.others ++ [win]

namespace DragState

variable {gpu : GpuDriver} {r : DesktopRun} {s t : DragState} {a : DesktopAction}

/-- The runs are runs of the desktop. -/
theorem exec_run (h : s.exec gpu a = .ok t) : s.run.exec gpu a = .ok t.run := by
  obtain ⟨⟨stored,draws⟩,hstore,hrest⟩ := bind_inv h
  obtain ⟨run,hrun,hpure⟩ := bind_inv hrest
  cases hpure
  rw [DesktopRun.exec_eq,hstore]
  exact hrun

/-- What an action stores before the desktop is drawn leaves the windows and the drag alone. -/
theorem store_keeps : Ensures (r.store a) fun out =>
    out.1.desktop.engine = r.desktop.engine ∧
      out.1.desktop.isDragging = r.desktop.isDragging := by
  have hkept : r.desktop.engine = r.desktop.engine ∧
    r.desktop.isDragging = r.desktop.isDragging := ⟨rfl,rfl⟩
  cases a with
  | render => exact Ensures.pure hkept
  | mouseByte byte hasData =>
    rw [DesktopRun.store]
    split
    · exact Ensures.ite (fun _ => Ensures.pure hkept) fun _ => Ensures.pure hkept
    · exact Ensures.pure hkept
    · refine Ensures.ite (fun _ => ?_) fun _ => Ensures.pure hkept
      refine Ensures.bind (Q := fun d : Desktop => d.engine = r.desktop.engine ∧
        d.isDragging = r.desktop.isDragging) ?_ fun d hd => Ensures.pure hd
      refine Ensures.of_true.bind fun _ _ => Ensures.of_true.bind fun _ _ => ?_
      refine Ensures.of_true.bind fun _ _ => Ensures.of_true.bind fun _ _ => ?_
      refine Ensures.of_true.bind fun _ _ => Ensures.of_true.bind fun _ _ => ?_
      exact Ensures.pure hkept
    · exact Ensures.pure hkept

theorem render_ensures : Ensures (r.render gpu) fun r' => ∃ d, r.desktop.frame = .ok d ∧
    r' = {r with desktop := {d with engine := d.engine.sorted}} := by
  refine Desktop.renderDesktop_ensures.bind fun out hout => Ensures.pure ?_
  obtain ⟨d,hd,hsorted⟩ := hout
  exact ⟨d,hd,by rw [hsorted]⟩

/-- An action leaves the windows and the nebula alone, or it draws a frame. -/
theorem exec_engine {r' : DesktopRun} (h : r.exec gpu a = .ok r') :
    r'.desktop.engine = r.desktop.engine ∨
    ∃ (stored : DesktopRun) (d : Desktop), stored.desktop.engine = r.desktop.engine ∧
      stored.desktop.frame = .ok d ∧ r'.desktop.engine = d.engine.sorted := by
  rw [DesktopRun.exec_eq] at h
  obtain ⟨⟨stored,draws⟩,hstore,hdraw⟩ := bind_inv h
  have hstored : stored.desktop.engine = r.desktop.engine := (store_keeps _ hstore).1
  cases draws with
  | false =>
    cases hdraw
    exact .inl hstored
  | true =>
    obtain ⟨d,hd,rfl⟩ := render_ensures r' hdraw
    exact .inr ⟨stored,d,hstored,hd,rfl⟩

/-- What holds while the button is held. -/
structure Dragging (s : DragState) : Prop where
  left : s.run.desktop.leftClick = true
  drag : s.run.desktop.isDragging = true
  owned : s.Owned

theorem exec_keeps (h : s.Dragging) (hguard : s.Uncontested a) (hexec : s.exec gpu a = .ok t)
    (hleft : t.run.desktop.leftClick = true) : t.Dragging := by
  obtain ⟨⟨stored,draws⟩,hstore,hrest⟩ := bind_inv hexec
  obtain ⟨run,hrun,hpure⟩ := bind_inv hrest
  cases hpure
  obtain ⟨hengine,hdragging⟩ := store_keeps _ hstore
  have hdrag : stored.desktop.isDragging = true := hdragging.trans h.drag
  have hheld : stored.desktop.leftClick = true := by
    have hmouse := DesktopRun.drawIf_mouse draws run hrun
    exact (congrArg (fun m => m.pointer.leftClick) hmouse).symm.trans hleft
  cases draws with
  | false =>
    cases hrun
    refine ⟨hleft,hdrag,?_⟩
    show stored.desktop.engine.windows = _ ∨ ∃ win, stored.desktop.engine.windows = _
    rw [hengine]
    exact h.owned
  | true =>
    have hframe : Ensures stored.desktop.frame fun d => d.isDragging = true ∧
        (d.engine.windows = Desktop.drift s.others ∨
          ∃ win, d.engine.windows = Desktop.drift s.others ++ [win]) := by
      rcases hguard stored hstore with hempty | ⟨win,hwindows,hunder⟩
      · have hothers : s.others = [] := by
          have howned := h.owned
          rw [Owned,← hengine,hempty] at howned
          rcases howned with h | ⟨win,h⟩
          · exact h.symm
          · exact (List.append_ne_nil_of_right_ne_nil _ (List.cons_ne_nil _ _) h.symm).elim
        rw [hothers]
        intro d hd
        obtain ⟨hdrag',hwindows⟩ := Desktop.frame_empty hheld hdrag hempty d hd
        exact ⟨hdrag',.inl hwindows⟩
      · exact Desktop.frame_keeps hheld hdrag hwindows hunder
    obtain ⟨d,hd,rfl⟩ := render_ensures run hrun
    obtain ⟨hdrag',howned⟩ := hframe d hd
    exact ⟨hleft,hdrag',howned⟩

end DragState

/-! ### Runs without the drawing -/

namespace Desktop

variable {d : Desktop}

theorem frame_nebula :
    Ensures d.frame fun d' => d'.engine.nebulaSplats = d.engine.nebulaSplats := by
  refine handleClick_backdrop.bind fun d₁ h₁ => ?_
  refine (applyDrag_backdrop (d := d₁.parallax)).bind fun d₂ h₂ => ?_
  have hnebula : d₂.engine.nebulaSplats = d.engine.nebulaSplats :=
    congrArg Prod.snd (h₂.trans h₁)
  have htick : Ensures d₂.engine.tickPhysics fun out =>
      out.1.nebulaSplats = d₂.engine.nebulaSplats :=
    Ensures.of_true.bind fun ticked _ => Ensures.pure rfl
  exact htick.bind fun out hout => Ensures.pure (hout.trans hnebula)

end Desktop

theorem kernelEngine_sorted : kernelEngine.nebulaSplats.mergeSort (fun a b => a.z ≤ b.z) =
    kernelEngine.nebulaSplats := List.mergeSort_of_pairwise (by decide)

/-- The nebula of the kernel is sorted already, so that it never changes. -/
theorem reachable_nebula {screen : Screen} {gpu : GpuDriver} {r : DesktopRun}
    (h : (desktopSystem screen gpu).Reachable r) :
    r.desktop.engine.nebulaSplats = kernelEngine.nebulaSplats := by
  refine h.invariant (I := fun r => r.desktop.engine.nebulaSplats = kernelEngine.nebulaSplats) ?_ ?_
  · rintro _ rfl
    rfl
  · intro r a t hr hexec
    rcases DragState.exec_engine hexec with hkept | ⟨stored,d,hstored,hd,hdrawn⟩
    · rwa [hkept]
    · rw [hdrawn]
      show d.engine.nebulaSplats.mergeSort _ = _
      rw [Desktop.frame_nebula d hd,hstored,hr,kernelEngine_sorted]

def Desktop.frameIf (draws : Bool) (d : Desktop) : Except Panic Desktop :=
  if draws then d.frame else return d

/-- An action without the drawing, and whether there was one. -/
def DesktopRun.sketch (r : DesktopRun) (a : DesktopAction) : Except Panic (DesktopRun × Bool) := do
  let (stored,draws) ← r.store a
  let d ← stored.desktop.frameIf draws
  return ({stored with desktop := d},draws)

def DesktopRun.sketched (r : DesktopRun) (a : DesktopAction) : Option DesktopRun :=
  (r.sketch a).toOption.map Prod.fst

/-- The action, if the button is held after it. -/
def DragState.hold (s : DragState) (a : DesktopAction) : Option DragState := do
  let out ← (s.run.sketch a).toOption
  if out.1.desktop.leftClick then
    return ⟨out.1,if out.2 then Desktop.drift s.others else s.others⟩
  else none

section Sketch

variable {screen : Screen} {gpu : GpuDriver} {r t : DesktopRun} {s : DragState} {a : DesktopAction}

theorem toOption_inv {E A : Type} {x : Except E A} {a : A} (h : x.toOption = some a) :
    x = .ok a := by
  cases x with
  | error e => cases h
  | ok b => exact congrArg _ (Option.some.inj h)

/-- In a reachable state the drawing always succeeds. -/
theorem sketch_draws (hw : gpu.width.toNat ≤ 8192) (hh : gpu.height.toNat ≤ 8192)
    (h : (desktopSystem screen gpu).Reachable r) {draws : Bool}
    (hs : r.sketch a = .ok (t,draws)) :
    ∃ stored, r.store a = .ok (stored,draws) ∧ stored.drawIf gpu draws = .ok t := by
  obtain ⟨r',hexec,_⟩ :=
    DesktopRun.exec_returns hw hh (DesktopRun.reachable_bounded hw hh h) a
  obtain ⟨⟨stored,draws'⟩,hstore,hrest⟩ := bind_inv hs
  obtain ⟨d,hd,hpure⟩ := bind_inv hrest
  cases hpure
  have hstored : stored.desktop.engine = r.desktop.engine := (DragState.store_keeps _ hstore).1
  rw [DesktopRun.exec_eq,hstore] at hexec
  refine ⟨stored,hstore,Eq.trans hexec ?_⟩
  cases draws with
  | false =>
    cases hexec
    cases hd
    rfl
  | true =>
    obtain ⟨d',hd',rfl⟩ := DragState.render_ensures r' hexec
    cases hd.symm.trans hd'
    have hnebula : d.engine.nebulaSplats = kernelEngine.nebulaSplats := by
      rw [Desktop.frame_nebula d hd,hstored,reachable_nebula h]
    have hsorted : d.engine.sorted = d.engine := by
      rw [SplatEngine.sorted,hnebula,kernelEngine_sorted,← hnebula]
    rw [hsorted]

theorem sketched_exec (hw : gpu.width.toNat ≤ 8192) (hh : gpu.height.toNat ≤ 8192)
    (h : (desktopSystem screen gpu).Reachable r) (hs : r.sketched a = some t) :
    r.exec gpu a = .ok t := by
  obtain ⟨⟨_,draws⟩,hout,rfl⟩ := Option.map_eq_some_iff.mp hs
  obtain ⟨stored,hstore,hdraw⟩ := sketch_draws hw hh h (toOption_inv hout)
  rw [DesktopRun.exec_eq,hstore]
  exact hdraw

theorem sketches_reachable (hw : gpu.width.toNat ≤ 8192) (hh : gpu.height.toNat ≤ 8192)
    (h : (desktopSystem screen gpu).Reachable r) {actions : List DesktopAction}
    (hs : actions.foldlM DesktopRun.sketched r = some t) :
    (desktopSystem screen gpu).Reachable t :=
  h.foldlM (fun _ _ _ hr hsketch => sketched_exec hw hh hr hsketch) hs

theorem reachable_run (h : (dragSystem screen gpu).Reachable s) :
    (desktopSystem screen gpu).Reachable s.run := by
  induction h with
  | init h => exact h.1
  | step _ h ih => exact .step ih (DragState.exec_run h.1)

theorem hold_step (hw : gpu.width.toNat ≤ 8192) (hh : gpu.height.toNat ≤ 8192) {t : DragState}
    (h : (dragSystem screen gpu).Reachable s) (hs : s.hold a = some t) :
    (dragSystem screen gpu).step s a t := by
  obtain ⟨⟨run,draws⟩,hout,hrest⟩ := Option.bind_eq_some_iff.mp hs
  obtain ⟨stored,hstore,hdraw⟩ := sketch_draws hw hh (reachable_run h) (toOption_inv hout)
  by_cases hleft : run.desktop.leftClick = true
  · rw [if_pos hleft] at hrest
    cases hrest
    refine ⟨?_,hleft⟩
    rw [DragState.exec,hstore]
    show (do return ⟨← stored.drawIf gpu draws,_⟩ : Except Panic DragState) = _
    rw [hdraw]
    rfl
  · rw [if_neg hleft] at hrest
    cases hrest

end Sketch

/-- The bytes of a packet, behind which bytes wait or do not. -/
def packetBytes (first dx dy : UInt8) (waiting : Bool) : List DesktopAction :=
  [.mouseByte first true,.mouseByte dx true,.mouseByte dy waiting]

/-- A click at the launcher, and the frames in which its window grows. -/
def openWindow : List DesktopAction :=
  packetBytes 0x09 0 0 false ++ packetBytes 0x08 0 0 false ++ List.replicate 14 .render

/-- From the launcher up to the title bar of its window, where the button goes down. -/
def grabTitle : List DesktopAction :=
  packetBytes 0x08 0 255 true ++ packetBytes 0x08 0 25 true ++
    packetBytes 0x09 0 0 false

/-- A window is opened and dragged to the top of the screen; a second one is opened, and a drag
begins at its title bar. -/
def secondDrag : List DesktopAction :=
  packetBytes 0x28 255 1 true ++ packetBytes 0x28 255 1 true ++
  packetBytes 0x28 50 66 true ++ openWindow ++ grabTitle ++
  packetBytes 0x09 0 255 true ++ packetBytes 0x09 0 255 true ++
  packetBytes 0x09 0 190 false ++ packetBytes 0x08 0 0 false ++
  packetBytes 0x28 0 1 true ++ packetBytes 0x28 0 1 true ++
  packetBytes 0x28 0 1 true ++ packetBytes 0x28 0 41 true ++ openWindow ++ grabTitle

/-- The desktop in which the second drag has begun. -/
def grabbed : Option DragState :=
  (secondDrag.foldlM DesktopRun.sketched (.start hdScreen)).map fun r =>
    ⟨r,r.desktop.engine.windows.dropLast⟩

/-- The drag goes on by 255 pixels at once. -/
def stolen : Option DragState :=
  grabbed.bind fun s => (packetBytes 0x09 0 255 false).foldlM DragState.hold s

theorem grabbed_eval : grabbed.any fun s =>
    s.run.desktop.leftClick = true ∧ s.run.desktop.isDragging = true ∧
    ∃ win ∈ s.run.desktop.engine.windows, s.run.desktop.engine.windows = s.others ++ [win] ∧
      s.run.desktop.Inside win win.h := by decide +kernel

theorem stolen_eval : stolen.any fun s =>
    s.run.desktop.engine.windows.map SemanticWindow.id = [2,1] ∧
    s.others.map SemanticWindow.id = [1] := by decide +kernel

theorem redraw_eval : (grabbed.bind fun s => s.hold .render).isSome := by decide +kernel

theorem grabbed_init : ∃ s, grabbed = some s ∧ (dragSystem hdScreen hdGpu).init s ∧
    ∃ win, s.run.desktop.engine.windows = s.others ++ [win] ∧
      s.run.desktop.Inside win win.h := by
  obtain ⟨s,hs,heval⟩ := (Option.any_eq_true _ _).mp grabbed_eval
  obtain ⟨r,hr,rfl⟩ := Option.map_eq_some_iff.mp hs
  obtain ⟨hleft,hdrag,win,_,hwin,hinside⟩ := of_decide_eq_true heval
  have hreach : (desktopSystem hdScreen hdGpu).Reachable r :=
    sketches_reachable (by decide) (by decide) hdDesktop_reachable hr
  exact ⟨_,hs,⟨hreach,hleft,hdrag,win,hwin⟩,win,hwin,hinside⟩

/-- As long as the dragged window is still there in each frame of a drag, and under the cursor
unless no window is, the frames do nothing to the windows behind it: these have the places, the
order and the transitions that their own physics gives them. -/
theorem drag_owned (screen : Screen) (gpu : GpuDriver) (s : DragState)
    (h : ((dragSystem screen gpu).guard DragState.Uncontested).Reachable s) :
    s.run.desktop.engine.windows = s.others ∨
      ∃ win, s.run.desktop.engine.windows = s.others ++ [win] := by
  refine (h.invariant (I := DragState.Dragging) ?_ ?_).owned
  · rintro s ⟨_,hleft,hdrag,howned⟩
    exact ⟨hleft,hdrag,.inr howned⟩
  · rintro s a t hs ⟨hguard,hexec,hleft⟩
    exact DragState.exec_keeps hs hguard hexec hleft

/-- A frame in which the mouse does not move. -/
theorem grabbed_owned : ∃ s, ((dragSystem hdScreen hdGpu).guard DragState.Uncontested).Reachable s ∧
    (s.run.desktop.engine.windows = s.others ∨
      ∃ win, s.run.desktop.engine.windows = s.others ++ [win]) := by
  obtain ⟨s,hs,hinit,win,hwin,hinside⟩ := grabbed_init
  obtain ⟨t,ht⟩ := Option.isSome_iff_exists.mp redraw_eval
  rw [hs,Option.bind_some] at ht
  have hstep : (dragSystem hdScreen hdGpu).step s .render t :=
    hold_step (by decide) (by decide) (.init hinit) ht
  have hguard : s.Uncontested .render := by
    rintro _ ⟨⟩
    exact .inr ⟨win,hwin,.inl (.inr hinside)⟩
  have hreach : ((dragSystem hdScreen hdGpu).guard DragState.Uncontested).Reachable t :=
    .step (.init hinit) ⟨hguard,hstep⟩
  exact ⟨t,hreach,drag_owned hdScreen hdGpu t hreach⟩

/-- The second window is dragged from the bottom of the screen over the first one, which lies at
the top: one movement takes the cursor there, and the click pass of the next frame finds the first
window, brings it to the front, and it is dragged from then on. -/
theorem drag_stolen : ¬∀ screen gpu s, (dragSystem screen gpu).Reachable s →
    s.run.desktop.engine.windows = s.others ∨
      ∃ win, s.run.desktop.engine.windows = s.others ++ [win] := by
  intro h
  obtain ⟨s,hs,hinit,_⟩ := grabbed_init
  obtain ⟨t,ht,heval⟩ := (Option.any_eq_true _ _).mp stolen_eval
  obtain ⟨hwindows,hothers⟩ := of_decide_eq_true heval
  rw [stolen,hs] at ht
  have hreach : (dragSystem hdScreen hdGpu).Reachable t :=
    Runs.System.Reachable.foldlM
      (fun _ _ _ hreach => hold_step (by decide) (by decide) hreach) (.init hinit) ht
  rcases h _ _ t hreach with hsame | ⟨win,hsame⟩
  · rw [hsame,hothers] at hwindows
    exact absurd hwindows (by decide)
  · rw [hsame,List.map_append,hothers] at hwindows
    have hhead : (1 : UInt32) = 2 := (List.cons.inj hwindows).1
    exact absurd hhead (by decide)

end PolymorphOS
