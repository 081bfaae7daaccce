import PolymorphOS.IdleLoop
import PolymorphOS.PairedLists
import PolymorphOS.WindowDrag
import PolymorphOS.WindowPhysics

/-! The animations come to an end: `update_physics` of one window, `tick_physics` of all of them,
and the rounds of `physics_tick_task`. -/
namespace PolymorphOS
namespace SemanticWindow

/-- What becomes of a window whose `update_physics` is called again and again. -/
structure Converges (win : SemanticWindow) (f : ℕ → SemanticWindow) : Prop where
  start : f 0 = win
  calls : ∀ k, ∃ redrew, (f k).updatePhysics = .ok (f (k + 1),redrew)
  targetZ : ∀ k, (f k).targetZ = win.targetZ
  closer : ∀ k, (f k).baseZ ≠ win.targetZ →
    |win.targetZ - (f (k + 1)).baseZ| < |win.targetZ - (f k).baseZ|
  noOvershoot : ∀ k, (f (k + 1)).baseZ ∈ Set.uIcc (f k).baseZ win.targetZ
  stable : ∀ mode, win.state = .stable mode →
    ∀ k, (f k).state = .stable mode ∧ (f k).geometry = win.geometry
  moving : ∀ t, win.state = .transitioning t → ∀ k : ℕ, t.progress + k < 15 →
    (f k).state = .transitioning {t with progress := t.progress + k}
  landed : ∀ t, win.state = .transitioning t → ∀ k : ℕ, 15 ≤ t.progress + k →
    (f k).state = .stable t.finalMode ∧ (f k).geometry = t.target
  between : ∀ t, win.state = .transitioning t → ∀ k,
    0 < k ∨ win.geometry = t.place t.progress → t.start.Between (f k).geometry t.target
  monotone : ∀ t, win.state = .transitioning t → ∀ k,
    0 < k ∨ win.geometry = t.place t.progress → (f k).geometry.Between (f (k + 1)).geometry t.target
  ends : ∃ n, ∀ k ≥ n, (f k).animating = false

/-- The steps that are left of the transition. -/
def stepsLeft (win : SemanticWindow) : ℕ :=
  match win.state with
  | .stable _ => 0
  | .transitioning t => (t.max - t.progress).toNat

/-- The way that is left to the depth. -/
def depthLeft (win : SemanticWindow) : ℕ := (win.targetZ - win.baseZ).natAbs

variable {win win' : SemanticWindow}

theorem animating_iff (h : win.InRange) :
    win.animating = false ↔ win.stepsLeft = 0 ∧ win.depthLeft = 0 := by
  have hdepth : win.depthLeft = 0 ↔ win.baseZ = win.targetZ := by
    rw [depthLeft,Int.natAbs_eq_zero]
    omega
  rw [animating,hdepth,stepsLeft,Bool.or_eq_false_iff,decide_eq_false_iff_not,not_not,and_comm]
  cases hstate : win.state with
  | stable mode => simp
  | transitioning t =>
    obtain ⟨hmax,hp,_⟩ := h.transition t hstate
    simp only [Bool.true_eq_false,false_and,false_iff,not_and,hmax]
    omega

theorem depthLeft_le (hbare : win'.bare = win.ticked.bare) : win'.depthLeft ≤ win.depthLeft - 1 := by
  have hz := ticked_baseZ win
  rw [depthLeft,depthLeft,bare_congr targetZ (fun _ => rfl) hbare,
    bare_congr baseZ (fun _ => rfl) hbare,hz.1,hz.2]
  by_cases heq : win.baseZ = win.targetZ
  · rw [heq,nextDepth_self]
    omega
  · have hcloser := nextDepth_closer heq
    rw [Int.abs_eq_natAbs,Int.abs_eq_natAbs] at hcloser
    omega

theorem stepsLeft_le (hbare : win'.bare = win.ticked.bare) :
    win'.stepsLeft ≤ win.stepsLeft - 1 := by
  have hstate' := bare_congr state (fun _ => rfl) hbare
  rw [stepsLeft,stepsLeft,hstate']
  cases hstate : win.state with
  | stable mode =>
    rw [(ticked_stable hstate).1]
    exact le_rfl
  | transitioning t =>
    by_cases hlast : t.progress + 1 ≥ t.max
    · rw [(ticked_last hstate hlast).1]
      exact Nat.zero_le _
    · rw [(ticked_next hstate (not_le.mp hlast)).1]
      dsimp only
      omega

theorem InRange.left_le (h : win.InRange) : win.stepsLeft ≤ 15 ∧ win.depthLeft ≤ 2^30 := by
  have hbase := h.baseZ
  have htarget := h.targetZ
  constructor
  · rw [stepsLeft]
    cases hstate : win.state with
    | stable mode => exact Nat.zero_le _
    | transitioning t =>
      obtain ⟨hmax,hp,_⟩ := h.transition t hstate
      dsimp only
      omega
  · rw [depthLeft]
    omega

section Run

variable {f : ℕ → SemanticWindow} (hbare : ∀ k, (f (k + 1)).bare = (f k).ticked.bare)

include hbare

theorem run_targetZ (k : ℕ) : (f k).targetZ = (f 0).targetZ := by
  induction k with
  | zero => rfl
  | succ k ih =>
    rw [bare_congr targetZ (fun _ => rfl) (hbare k),(ticked_baseZ _).2,ih]

theorem run_baseZ (k : ℕ) : (f (k + 1)).baseZ = nextDepth (f k).baseZ (f 0).targetZ := by
  rw [bare_congr baseZ (fun _ => rfl) (hbare k),(ticked_baseZ _).1,run_targetZ hbare]

theorem run_stable {mode : WindowMode} (h : (f 0).state = .stable mode) (k : ℕ) :
    (f k).state = .stable mode ∧ (f k).geometry = (f 0).geometry := by
  induction k with
  | zero => exact ⟨h,rfl⟩
  | succ k ih =>
    obtain ⟨hstate,hplace⟩ := ticked_stable ih.1
    exact ⟨(bare_congr state (fun _ => rfl) (hbare k)).trans hstate,
      (bare_congr geometry (fun _ => rfl) (hbare k)).trans (hplace.trans ih.2)⟩

/-- Where a transition has taken the window after `k` steps, up to its last step and beyond. -/
theorem run_transition {t : Transition} (h : (f 0).state = .transitioning t) (hmax : t.max = 15)
    (hp : t.progress < 15) (k : ℕ) :
    (t.progress + k < 15 → (f k).state = .transitioning {t with progress := t.progress + k} ∧
      (0 < k ∨ (f 0).geometry = t.place t.progress →
        (f k).geometry = t.place (t.progress + k))) ∧
    (15 ≤ t.progress + k → (f k).state = .stable t.finalMode ∧ (f k).geometry = t.target) := by
  induction k with
  | zero =>
    have hzero : t.progress + (0 : ℕ) = t.progress := add_zero _
    rw [hzero]
    exact ⟨fun _ => ⟨h,fun hplace => hplace.resolve_left (lt_irrefl 0)⟩,
      fun hge => absurd hp hge.not_gt⟩
  | succ k ih =>
    have hcast : t.progress + ((k + 1 : ℕ) : ℤ) = t.progress + k + 1 := by
      rw [Nat.cast_succ,add_assoc]
    rw [bare_congr state (fun _ => rfl) (hbare k),bare_congr geometry (fun _ => rfl) (hbare k),hcast]
    by_cases hk : t.progress + k < 15
    · have hmoving := (ih.1 hk).1
      constructor
      · intro hlt
        obtain ⟨hs,hplace⟩ := ticked_next hmoving (by dsimp only; omega)
        exact ⟨hs,fun _ => hplace⟩
      · intro hge
        obtain ⟨hs,hplace⟩ := ticked_last hmoving (by dsimp only; omega)
        exact ⟨hs,hplace⟩
    · refine ⟨fun hlt => absurd hlt (by omega),fun _ => ?_⟩
      obtain ⟨hs,hplace⟩ := ih.2 (not_lt.mp hk)
      obtain ⟨hs',hplace'⟩ := ticked_stable hs
      exact ⟨hs',hplace'.trans hplace⟩

/-- What is left becomes less with every step. -/
theorem run_left (k : ℕ) :
    (f k).stepsLeft ≤ (f 0).stepsLeft - k ∧ (f k).depthLeft ≤ (f 0).depthLeft - k := by
  induction k with
  | zero => exact ⟨le_rfl,le_rfl⟩
  | succ k ih =>
    have hsteps := stepsLeft_le (hbare k)
    have hdepth := depthLeft_le (hbare k)
    omega

end Run

/-- The windows that `update_physics` makes one out of the other. -/
theorem exists_calls (h : win.InRange) : ∃ f : ℕ → SemanticWindow, f 0 = win ∧
    ∀ k, (f k).InRange ∧ (∃ redrew, (f k).updatePhysics = .ok (f (k + 1),redrew)) ∧
      (f (k + 1)).bare = (f k).ticked.bare := by
  refine Runs.exists_endless (I := InRange) (R := fun w w' =>
    (∃ redrew, w.updatePhysics = .ok (w',redrew)) ∧ w'.bare = w.ticked.bare) (fun w hw => ?_) h
  obtain ⟨⟨w',redrew⟩,hcall,hrange,hbare⟩ := updatePhysics_wide hw
  exact ⟨w',⟨⟨redrew,hcall⟩,hbare⟩,hrange⟩

theorem exists_converges (h : win.InRange) : ∃ f, win.Converges f := by
  obtain ⟨f,rfl,hall⟩ := exists_calls h
  have hbare : ∀ k, (f (k + 1)).bare = (f k).ticked.bare := fun k => (hall k).2.2
  refine ⟨f,rfl,fun k => (hall k).2.1,run_targetZ hbare,fun k hne => ?_,fun k => ?_,
    fun mode hs => run_stable hbare hs,fun t hs k hk => ?_,fun t hs k hk => ?_,fun t hs k hk => ?_,
    fun t hs k hk => ?_,?_⟩
  · rw [run_baseZ hbare]
    exact nextDepth_closer hne
  · rw [run_baseZ hbare]
    exact nextDepth_mem _ _
  · obtain ⟨hmax,hp,_⟩ := h.transition t hs
    exact ((run_transition hbare hs hmax hp.2 k).1 hk).1
  · obtain ⟨hmax,hp,_⟩ := h.transition t hs
    exact (run_transition hbare hs hmax hp.2 k).2 hk
  · obtain ⟨hmax,hp,_⟩ := h.transition t hs
    obtain ⟨hmoving,hlanded⟩ := run_transition hbare hs hmax hp.2 k
    by_cases hlt : t.progress + k < 15
    · rw [(hmoving hlt).2 hk]
      exact (t.place_between hmax (by omega)).1
    · rw [(hlanded (not_lt.mp hlt)).2]
      exact .refl_right _ _
  · obtain ⟨hmax,hp,_⟩ := h.transition t hs
    obtain ⟨hmoving,hlanded⟩ := run_transition hbare hs hmax hp.2 k
    obtain ⟨hmoving',hlanded'⟩ := run_transition hbare hs hmax hp.2 (k + 1)
    rw [Nat.cast_succ,← add_assoc] at hmoving' hlanded'
    by_cases hlt : t.progress + k < 15
    · rw [(hmoving hlt).2 hk]
      by_cases hlt' : t.progress + k + 1 < 15
      · rw [(hmoving' hlt').2 (.inl k.succ_pos)]
        exact (t.place_between hmax (by omega)).2
      · rw [(hlanded' (not_lt.mp hlt')).2]
        exact .refl_right _ _
    · rw [(hlanded' (by omega)).2]
      exact .refl_right _ _
  · refine ⟨(f 0).stepsLeft + (f 0).depthLeft,fun k hk => (animating_iff (hall k).1).mpr ?_⟩
    have hleft := run_left hbare k
    omega

end SemanticWindow

/-! ### All windows -/

namespace SplatEngine

variable {engine : SplatEngine}

/-- Every window is in range. -/
def InRange (engine : SplatEngine) : Prop := ∀ win ∈ engine.windows, win.InRange

theorem tickPhysics_wide (h : engine.InRange) : Returns engine.tickPhysics fun out =>
    ∃ ticked, List.Forall₂ (fun win win' => win'.bare = win.ticked.bare) engine.windows ticked ∧
      out.1 = {engine with windows := ticked.filter fun win => win.state ≠ .stable .dead} := by
  refine Returns.with_ensures (Q := fun _ => True) ?_ tickPhysics_ensures
  refine (Returns.mapM (Q := fun _ => True) fun win hwin => ?_).bind fun _ _ => Returns.pure trivial
  exact (SemanticWindow.updatePhysics_wide (h win hwin)).mono fun _ _ => trivial

/-- What a window after the tick comes from. -/
theorem InRange.of_ticked {windows ticked : List SemanticWindow}
    (h : ∀ win ∈ windows, win.InRange)
    (hticked : List.Forall₂ (fun win win' => win'.bare = win.ticked.bare) windows ticked)
    {win' : SemanticWindow} (hwin' : win' ∈ ticked) :
    win'.InRange ∧ ∃ win ∈ windows, win'.stepsLeft ≤ win.stepsLeft - 1 ∧
      win'.depthLeft ≤ win.depthLeft - 1 := by
  obtain ⟨win,hwin,hbare⟩ := PairedLists.mem_right hticked hwin'
  exact ⟨(h win hwin).slid.advanced.of_bare hbare,win,hwin,
    SemanticWindow.stepsLeft_le hbare,SemanticWindow.depthLeft_le hbare⟩

theorem exists_tick (h : engine.InRange) : ∃ engine' redrew,
    engine.tickPhysics = .ok (engine',redrew) ∧ engine'.InRange ∧
    ∀ win' ∈ engine'.windows, ∃ win ∈ engine.windows,
      win'.stepsLeft ≤ win.stepsLeft - 1 ∧ win'.depthLeft ≤ win.depthLeft - 1 := by
  obtain ⟨⟨engine',redrew⟩,hcall,ticked,hticked,hwindows⟩ := tickPhysics_wide h
  have hmem (win' : SemanticWindow) (hwin' : win' ∈ engine'.windows) : win' ∈ ticked := by
    rw [show engine' = _ from hwindows] at hwin'
    exact List.mem_of_mem_filter hwin'
  exact ⟨engine',redrew,hcall,fun win' hwin' => (InRange.of_ticked h hticked (hmem win' hwin')).1,
    fun win' hwin' => (InRange.of_ticked h hticked (hmem win' hwin')).2⟩

/-- The engines that `tick_physics` makes one out of the other, until no window moves. -/
theorem exists_converges (h : engine.InRange) : ∃ f : ℕ → SplatEngine, f 0 = engine ∧
    (∀ k, ∃ redrew, (f k).tickPhysics = .ok (f (k + 1),redrew)) ∧
    ∃ n, ∀ k ≥ n, (f k).windows.any SemanticWindow.animating = false := by
  obtain ⟨f,rfl,hall⟩ := Runs.exists_endless (I := InRange) (R := fun e e' =>
    (∃ redrew, e.tickPhysics = .ok (e',redrew)) ∧ ∀ win' ∈ e'.windows, ∃ win ∈ e.windows,
      win'.stepsLeft ≤ win.stepsLeft - 1 ∧ win'.depthLeft ≤ win.depthLeft - 1) (fun e he => by
    obtain ⟨e',redrew,hcall,hrange,hleft⟩ := exists_tick he
    exact ⟨e',⟨⟨redrew,hcall⟩,hleft⟩,hrange⟩) h
  refine ⟨f,rfl,fun k => (hall k).2.1,2^30 + 15,fun k hk => ?_⟩
  have hleft (k : ℕ) : ∀ win ∈ (f k).windows,
      win.stepsLeft ≤ 15 - k ∧ win.depthLeft ≤ 2^30 - k := by
    induction k with
    | zero => exact fun win hwin => ((hall 0).1 win hwin).left_le
    | succ k ih =>
      intro win' hwin'
      obtain ⟨win,hwin,hsteps,hdepth⟩ := (hall k).2.2 win' hwin'
      have hle := ih win hwin
      omega
  refine List.any_eq_false.mpr fun win hwin => ?_
  have hzero := hleft k win hwin
  rw [Bool.not_eq_true,SemanticWindow.animating_iff ((hall k).1 win hwin)]
  omega

end SplatEngine

theorem Bounds.wide {m : ℤ} {g : Geometry} (hm : m ≤ 8192) (h : Bounds m g.x g.y g.w g.h) :
    g.Wide := by
  obtain ⟨hx,hy,hw,hh⟩ := h
  constructor <;> omega

theorem SemanticWindow.Bounded.inRange {m : ℤ} {win : SemanticWindow} (hm : m ≤ 8192)
    (h : win.Bounded m) : win.InRange := by
  have hbase := h.baseZ
  have htarget := h.targetZ
  refine ⟨Bounds.wide hm h.now,by omega,by omega,fun t ht => ?_⟩
  obtain ⟨hmax,hp,hstart,hend⟩ := h.transition t ht
  exact ⟨hmax,hp,Bounds.wide (g := t.start) hm hstart,Bounds.wide (g := t.target) hm hend⟩

namespace Desktop

variable {screen : Screen} {gpu : GpuDriver} {d d' : Desktop}

theorem Bounded.inRange (h : d.Bounded screen) : d.engine.InRange :=
  fun win hwin => (h.engine.windows win hwin).inRange screen.limit_bounds.2.1

/-- The windows as a frame without a click leaves them. -/
def Drawn (d d' : Desktop) : Prop :=
  ∃ ticked, List.Forall₂ (fun win win' => win'.bare = win.ticked.bare)
      d.parallax.engine.windows ticked ∧
    d'.engine.windows = ticked.filter fun win => win.state ≠ .stable .dead

theorem frame_drawn (hleft : d.leftClick = false) : Ensures d.frame d.Drawn := by
  have hclick : Ensures d.handleClick fun d₁ => d₁ = {d with isDragging := false} := by
    rw [handleClick,hleft]
    exact Ensures.pure rfl
  refine hclick.bind fun d₁ h₁ => ?_
  have hstill : Ensures d₁.parallax.applyDrag fun d₂ => d₂ = d₁.parallax := by
    rw [h₁]
    exact Ensures.pure rfl
  refine hstill.bind fun d₂ h₂ => SplatEngine.tickPhysics_ensures.bind fun out hout => Ensures.pure ?_
  obtain ⟨ticked,hticked,hwindows⟩ := hout
  rw [h₂,h₁] at hticked
  exact ⟨ticked,hticked,congrArg SplatEngine.windows hwindows⟩

/-- A round of `physics_tick_task` while the button is not held. -/
theorem physicsTick_drawn (hw : gpu.width.toNat ≤ 8192) (hh : gpu.height.toNat ≤ 8192)
    (h : d.Bounded screen) (hleft : d.leftClick = false) :
    Returns (physicsTick gpu d) fun d' => d'.Bounded screen ∧ d'.leftClick = false ∧
      if d.engine.windows.any SemanticWindow.animating then d.Drawn d' else d' = d := by
  have hdrawn : Ensures (d.renderDesktop gpu) fun out => d.Drawn out.1 := by
    intro out hout
    obtain ⟨d',hframe,hsorted⟩ := renderDesktop_ensures out hout
    rw [hsorted]
    exact frame_drawn hleft d' hframe
  unfold physicsTick
  split
  · obtain ⟨out,hout,hbounded⟩ := renderDesktop_returns h hw hh
    have hpointer := congrArg Pointer.leftClick (renderDesktop_pointer out hout)
    exact ⟨out.1,by rw [hout]; rfl,hbounded,hpointer.trans hleft,hdrawn out hout⟩
  · exact Returns.pure ⟨h,hleft,rfl⟩

/-- The depth that `parallax` gives the window there. -/
def depthAt (d : Desktop) (i : ℕ) : ℤ := if i = d.engine.windows.length - 1 then 0 else 300

/-- Every window stays, and none is further from its depth. -/
def Settled (d : Desktop) (n : ℕ) : Prop :=
  ∀ i win, d.engine.windows[i]? = some win →
    (∃ mode, win.state = .stable mode ∧ mode ≠ .dead) ∧ (d.depthAt i - win.baseZ).natAbs ≤ n

theorem getElem?_parallax (i : ℕ) : d.parallax.engine.windows[i]? =
    d.engine.windows[i]?.map fun win => {win with targetZ := d.depthAt i} := by
  rw [parallax,List.getElem?_mapIdx]
  rfl

theorem length_parallax : d.parallax.engine.windows.length = d.engine.windows.length :=
  List.length_mapIdx

/-- A frame removes the dead windows, and takes the others a step on. -/
theorem Drawn.left (h : d.Drawn d') : ∀ win' ∈ d'.engine.windows,
    win'.state ≠ .stable .dead ∧ ∃ win ∈ d.engine.windows, win'.stepsLeft ≤ win.stepsLeft - 1 := by
  obtain ⟨ticked,hticked,hwindows⟩ := h
  intro win' hwin'
  rw [hwindows,List.mem_filter,decide_eq_true_iff] at hwin'
  obtain ⟨win,hwin,hbare⟩ := PairedLists.mem_right hticked hwin'.1
  obtain ⟨i,hi,rfl⟩ := List.mem_mapIdx.mp hwin
  have hsteps := SemanticWindow.stepsLeft_le hbare
  exact ⟨hwin'.2,_,List.getElem_mem hi,hsteps⟩

theorem Drawn.settled {n : ℕ} (hsettled : d.Settled n) (h : d.Drawn d') : d'.Settled (n - 1) ∧
    ∀ i win, d'.engine.windows[i]? = some win → win.targetZ = d'.depthAt i := by
  obtain ⟨ticked,hticked,hwindows⟩ := h
  have hwin {i : ℕ} {win' : SemanticWindow} (hi : ticked[i]? = some win') :
      (∃ mode, win'.state = .stable mode ∧ mode ≠ .dead) ∧
        (d.depthAt i - win'.baseZ).natAbs ≤ n - 1 ∧ win'.targetZ = d.depthAt i := by
    obtain ⟨placed,hplaced,hbare⟩ := PairedLists.getElem?_right hticked hi
    rw [getElem?_parallax] at hplaced
    obtain ⟨win,hwin,rfl⟩ := Option.map_eq_some_iff.mp hplaced
    obtain ⟨⟨mode,hstate,halive⟩,hnear⟩ := hsettled i win hwin
    have hdepth := SemanticWindow.depthLeft_le hbare
    have htarget := SemanticWindow.bare_congr SemanticWindow.targetZ (fun _ => rfl) hbare
    rw [(SemanticWindow.ticked_baseZ _).2] at htarget
    rw [SemanticWindow.depthLeft,htarget] at hdepth
    have hplaced : SemanticWindow.state {win with targetZ := d.depthAt i} = .stable mode := hstate
    refine ⟨⟨mode,?_,halive⟩,hdepth.trans (Nat.sub_le_sub_right hnear 1),htarget⟩
    exact (SemanticWindow.bare_congr SemanticWindow.state (fun _ => rfl) hbare).trans
      (SemanticWindow.ticked_stable hplaced).1
  have hall : ticked.filter (fun win => win.state ≠ .stable .dead) = ticked := by
    refine List.filter_eq_self.mpr fun win' hmem => ?_
    obtain ⟨i,hi⟩ := List.mem_iff_getElem?.mp hmem
    obtain ⟨⟨mode,hstate,halive⟩,_⟩ := hwin hi
    rw [hstate,decide_eq_true_iff]
    exact fun hdead => halive (WindowState.stable.inj hdead)
  rw [hall] at hwindows
  have hlen : d'.engine.windows.length = d.engine.windows.length := by
    rw [hwindows,← hticked.length_eq,length_parallax]
  have hsame (i : ℕ) : d'.depthAt i = d.depthAt i := by rw [depthAt,depthAt,hlen]
  constructor
  · intro i win' hi
    rw [hwindows] at hi
    rw [hsame]
    exact ⟨(hwin hi).1,(hwin hi).2.1⟩
  · intro i win' hi
    rw [hwindows] at hi
    rw [hsame]
    exact (hwin hi).2.2

section Rounds

variable {f : ℕ → Desktop} (hdrawn : ∀ k < 315, (f k).Drawn (f (k + 1)))

include hdrawn

theorem rounds_left (h : (f 0).engine.InRange) {k : ℕ} (hk : k ≤ 315) :
    ∀ win ∈ (f k).engine.windows, win.stepsLeft ≤ 15 - k := by
  induction k with
  | zero => exact fun win hwin => (h win hwin).left_le.1
  | succ k ih =>
    intro win' hwin'
    obtain ⟨_,win,hwin,hsteps⟩ := (hdrawn k hk).left win' hwin'
    have hle := ih (Nat.le_of_succ_le hk) win hwin
    omega

/-- After 15 frames no transition is left: no window dies any more, and the depths are final. -/
theorem rounds_settled (h : ∀ k, (f k).Bounded screen) {k : ℕ} (hk : k ≤ 300) :
    (f (15 + k)).Settled (300 - k) := by
  induction k with
  | zero =>
    intro i win hi
    have hmem := List.mem_of_getElem? hi
    have hwin := (h 15).engine.windows win hmem
    have hbase := hwin.baseZ
    have hsteps := rounds_left hdrawn (h 0).inRange (show 15 ≤ 315 by norm_num) win hmem
    have halive := ((hdrawn 14 (by norm_num)).left win hmem).1
    constructor
    · cases hstate : win.state with
      | stable mode =>
        refine ⟨mode,rfl,?_⟩
        rintro rfl
        exact halive hstate
      | transitioning t =>
        obtain ⟨hmax,hp,_⟩ := hwin.transition t hstate
        rw [SemanticWindow.stepsLeft,hstate] at hsteps
        dsimp only at hsteps
        omega
    · unfold depthAt
      split <;> omega
  | succ k ih =>
    have hnext := ((hdrawn (15 + k) (by omega)).settled (ih (Nat.le_of_succ_le hk))).1
    rwa [Nat.sub_sub] at hnext

end Rounds

/-- While the button is not held, `physics_tick_task` comes to an end of its animation. -/
theorem exists_converges (hw : gpu.width.toNat ≤ 8192) (hh : gpu.height.toNat ≤ 8192)
    (h : d.Bounded screen) (hleft : d.leftClick = false) : ∃ f : ℕ → Desktop, f 0 = d ∧
    (∀ k, physicsTick gpu (f k) = .ok (f (k + 1))) ∧
    ∃ n, ∀ k ≥ n, (f k).engine.windows.any SemanticWindow.animating = false := by
  obtain ⟨f,rfl,hall⟩ := Runs.exists_endless
    (I := fun d : Desktop => d.Bounded screen ∧ d.leftClick = false)
    (R := fun d d' => physicsTick gpu d = .ok d' ∧
      if d.engine.windows.any SemanticWindow.animating then d.Drawn d' else d' = d)
    (fun d hd => by
      obtain ⟨d',hcall,hbounded,hleft',hdrawn⟩ := physicsTick_drawn hw hh hd.1 hd.2
      exact ⟨d',⟨hcall,hdrawn⟩,hbounded,hleft'⟩) ⟨h,hleft⟩
  refine ⟨f,rfl,fun k => (hall k).2.1,?_⟩
  have hquiet (k : ℕ) (hk : (f k).engine.windows.any SemanticWindow.animating = false) :
      f (k + 1) = f k := by
    have hnext := (hall k).2.2
    rwa [hk,if_neg Bool.false_ne_true] at hnext
  have hexists : ∃ n, (f n).engine.windows.any SemanticWindow.animating = false := by
    by_contra hmoves
    push Not at hmoves
    have hdrawn : ∀ k < 315, (f k).Drawn (f (k + 1)) := by
      intro k _
      have hnext := (hall k).2.2
      rwa [if_pos (eq_true_of_ne_false (hmoves k))] at hnext
    have hbounded (k : ℕ) := (hall k).1.1
    obtain ⟨hsettled,htarget⟩ := (hdrawn 314 (by norm_num)).settled
      (rounds_settled hdrawn hbounded (show 299 ≤ 300 by norm_num))
    refine hmoves 315 (List.any_eq_false.mpr fun win hwin => ?_)
    obtain ⟨i,hi⟩ := List.mem_iff_getElem?.mp hwin
    obtain ⟨⟨mode,hstate,_⟩,hnear⟩ := hsettled i win hi
    rw [← htarget i win hi] at hnear
    rw [Bool.not_eq_true,SemanticWindow.animating_iff ((hbounded 315).inRange win hwin)]
    exact ⟨by rw [SemanticWindow.stepsLeft,hstate],Nat.le_zero.mp hnear⟩
  obtain ⟨n,hn⟩ := hexists
  refine ⟨n,fun k hk => ?_⟩
  induction k, hk using Nat.le_induction with
  | base => exact hn
  | succ k _ ih => rwa [hquiet k ih]

end Desktop

/-- A window in range slides to its depth without going past it, goes through its transition from
the start to the target, on which it lands with the 15th step, and then stays; hence no window
moves any more after finitely many calls of `tick_physics`, nor, while the button is not held,
after finitely many rounds of `physics_tick_task`. -/
theorem animations_converge {screen : Screen} {gpu : GpuDriver} (win : SemanticWindow)
    (h : win.InRange) (engine : SplatEngine) (hengine : engine.InRange) (d : Desktop)
    (hd : d.Bounded screen) (hleft : d.leftClick = false) (hw : gpu.width.toNat ≤ 8192)
    (hh : gpu.height.toNat ≤ 8192) :
    (∃ f, win.Converges f) ∧
    (∃ f : ℕ → SplatEngine, f 0 = engine ∧
      (∀ k, ∃ redrew, (f k).tickPhysics = .ok (f (k + 1),redrew)) ∧
      ∃ n, ∀ k ≥ n, (f k).windows.any SemanticWindow.animating = false) ∧
    ∃ f : ℕ → Desktop, f 0 = d ∧ (∀ k, physicsTick gpu (f k) = .ok (f (k + 1))) ∧
      ∃ n, ∀ k ≥ n, (f k).engine.windows.any SemanticWindow.animating = false :=
  ⟨SemanticWindow.exists_converges h,SplatEngine.exists_converges hengine,
    Desktop.exists_converges hw hh hd hleft⟩

/-- A window in the background on which maximize was clicked. -/
def maximizedWindow : SemanticWindow :=
  SemanticWindow.triggerMaximize {
    id := 1, x := 560, y := 700, w := 800, h := 600
    normalX := 560, normalY := 700, normalW := 800, normalH := 600
    baseZ := 300, targetZ := 0, state := .stable .instantiated, splatCloud := []} 1920 1080

theorem maximizedWindow_inRange : maximizedWindow.InRange := by
  refine ⟨⟨?_,?_,?_,?_⟩,?_,?_,?_⟩
  iterate 6 decide
  rintro _ ⟨⟩
  exact ⟨rfl,by decide,⟨by decide,by decide,by decide,by decide⟩,
    ⟨by decide,by decide,by decide,by decide⟩⟩

theorem maximizedWindow_converges : ∃ f, maximizedWindow.Converges f ∧
    (f 15).state = .stable .maximized ∧ (f 15).geometry = ⟨0,0,1920,1080⟩ := by
  obtain ⟨⟨f,hf⟩,_⟩ := animations_converge maximizedWindow maximizedWindow_inRange kernelEngine
    (fun _ hwin => absurd hwin List.not_mem_nil) (DesktopRun.start hdScreen).desktop
    (DesktopRun.start_bounded hdScreen) rfl (by decide : hdGpu.width.toNat ≤ 8192) (by decide)
  exact ⟨f,hf,hf.landed _ rfl 15 (by decide)⟩

end PolymorphOS
