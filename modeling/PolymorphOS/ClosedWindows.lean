import PolymorphOS.WindowNotes

/-! A window whose close button was clicked: it shrinks for 15 frames, whatever is clicked in the
meantime, and is gone. -/
namespace PolymorphOS

namespace SemanticWindow

variable {win win' : SemanticWindow} {t₀ k : ℕ}

/-- So many frames after the click on its close button the window is that far on its way. -/
def Closing (win : SemanticWindow) (t₀ k : ℕ) : Prop :=
  t₀ ≤ k ∧ k < t₀ + 15 ∧ ∃ t, win.Underway t (k - t₀) ∧ t.finalMode = .dead

/-- And between two frames, where that leads. -/
def Shrunk (win : SemanticWindow) (t₀ k : ℕ) : Prop :=
  t₀ ≤ k ∧ k < t₀ + 15 ∧ ∃ t, win.Underway t (k - t₀) ∧ t.finalMode = .dead ∧
    win.geometry = t.place (k - t₀)

theorem Closing.not_stable (h : win.Closing t₀ k) (mode : WindowMode) :
    win.state ≠ .stable mode := by
  obtain ⟨_,_,t,ht,_⟩ := h
  rw [ht.state]
  exact nofun

theorem Closing.mode_eq (h : win.Closing t₀ k) : win.mode = .dead := by
  obtain ⟨_,_,t,ht,hfinal⟩ := h
  exact (mode_transitioning ht.state).trans hfinal

theorem Shrunk.closing (h : win.Shrunk t₀ k) : win.Closing t₀ k := by
  obtain ⟨hle,hlt,t,ht,hfinal,_⟩ := h
  exact ⟨hle,hlt,t,ht,hfinal⟩

theorem closing_triggerClose (win : SemanticWindow) (x y : ℤ) (k : ℕ) :
    (win.triggerClose x y).Closing k k := by
  obtain ⟨t,ht,hfinal,_⟩ := underway_transitionTo win 40 40 x y .dead
  refine ⟨le_rfl,Nat.lt_add_of_pos_right (by norm_num),t,?_,hfinal⟩
  rw [sub_self]
  exact ht

/-- The last step of the close animation makes the window dead, and no other does. -/
theorem Closing.tick (h : win.Closing t₀ k) (hbare : win'.bare = win.ticked.bare) :
    if k + 1 < t₀ + 15 then win'.Shrunk t₀ (k + 1) else win'.state = .stable .dead := by
  obtain ⟨hle,hlt,t,ht,hfinal⟩ := h
  split
  · rename_i hnext
    obtain ⟨hmoved,hplace⟩ := ht.next (by omega) hbare
    have hsteps : ((k + 1 : ℕ) : ℤ) - t₀ = k - t₀ + 1 := by omega
    refine ⟨by omega,hnext,t,?_,hfinal,?_⟩
    · rw [hsteps]
      exact hmoved
    · rw [hsteps]
      exact hplace
  · rw [← hfinal]
    exact (ht.last (by omega) hbare).1

end SemanticWindow

theorem WindowNote.press_closed (note : WindowNote) (win : SemanticWindow) (k : ℕ)
    (button : Option WindowButton) :
    (note.press win k button).closed = if button = some .close then some k else note.closed := by
  unfold press
  split
  · rfl
  · split <;> rfl
  · split <;> rfl
  · rfl

/-- The windows whose close button was clicked are those that go to `Dead`, and they are gone after
15 frames. -/
def closedRule : WindowRule where
  pre _ k note win := (note.closed = none → win.mode ≠ .dead) ∧
    ∀ t₀, note.closed = some t₀ → win.Closing t₀ k
  post _ k note win := (note.closed = none → win.mode ≠ .dead) ∧
    ∀ t₀, note.closed = some t₀ → win.Shrunk t₀ k
  gone _ k note := ∃ t₀, note.closed = some t₀ ∧ t₀ + 15 ≤ k

theorem closedRule_press {n k : ℕ} {note : WindowNote} {win win' : SemanticWindow}
    {button : Option WindowButton} (h : closedRule.pre n k note win)
    (hpressed : Pressed win button win') : closedRule.pre n k (note.press win k button) win' := by
  obtain ⟨halive,hclosing⟩ := h
  simp only [closedRule,note.press_closed win k button]
  cases hpressed with
  | close x y hstable =>
    rw [if_pos rfl]
    refine ⟨nofun,fun t₀ ht => ?_⟩
    cases ht
    exact SemanticWindow.closing_triggerClose win x y k
  | restore hstable =>
    rw [if_neg nofun]
    exact ⟨fun _ => nofun,fun t₀ ht => absurd hstable ((hclosing t₀ ht).not_stable _)⟩
  | maximize w h hstable =>
    rw [if_neg nofun]
    exact ⟨fun _ => nofun,fun t₀ ht => absurd hstable ((hclosing t₀ ht).not_stable _)⟩
  | beside =>
    rw [if_neg nofun]
    exact ⟨halive,hclosing⟩

theorem closedRule_tick {n k : ℕ} {note : WindowNote} {win win' : SemanticWindow}
    (h : closedRule.pre n k note win) (hbare : win'.bare = win.ticked.bare) :
    if win'.state = .stable .dead then closedRule.gone n (k + 1) note
    else closedRule.post n (k + 1) note win' := by
  obtain ⟨halive,hclosing⟩ := h
  have hmode : win'.mode = win.mode :=
    (SemanticWindow.bare_congr SemanticWindow.mode (fun _ => rfl) hbare).trans win.ticked_mode
  cases hnote : note.closed with
  | none =>
    have hnotDead : win'.mode ≠ .dead := by
      rw [hmode]
      exact halive hnote
    rw [if_neg fun hdead => hnotDead (SemanticWindow.mode_stable hdead)]
    exact ⟨fun _ => hnotDead,fun t₀ ht => nomatch hnote.symm.trans ht⟩
  | some t₀ =>
    have htick := (hclosing t₀ hnote).tick hbare
    by_cases hnext : k + 1 < t₀ + 15
    · rw [if_pos hnext] at htick
      rw [if_neg (htick.closing.not_stable _)]
      refine ⟨fun hnone => (nomatch hnote.symm.trans hnone),fun t₁ ht => ?_⟩
      cases hnote.symm.trans ht
      exact htick
    · rw [if_neg hnext] at htick
      rw [if_pos htick]
      exact ⟨t₀,hnote,not_lt.mp hnext⟩

theorem closedRule_kept : closedRule.Kept where
  enter h := ⟨h.1,fun t₀ ht => (h.2 t₀ ht).closing⟩
  spawn _ _ _ _ _ := fun win hwin => by
    obtain ⟨_,t,ht,hfinal⟩ := SemanticWindow.spawn_ensures win hwin
    have hmode : win.mode ≠ .dead := by
      rw [SemanticWindow.mode_transitioning ht,hfinal]
      exact nofun
    exact ⟨fun _ => hmode,nofun⟩
  press := closedRule_press
  place h hstate _ := by
    refine ⟨fun hnone => ?_,fun t₀ ht => ?_⟩
    · rw [SemanticWindow.mode_congr hstate]
      exact h.1 hnone
    · obtain ⟨hle,hlt,t,hunder,hfinal⟩ := h.2 t₀ ht
      exact ⟨hle,hlt,t,⟨hstate.trans hunder.state,hunder.max⟩,hfinal⟩
  tick := closedRule_tick
  later h := by
    obtain ⟨t₀,ht,hle⟩ := h
    exact ⟨t₀,ht,Nat.le_succ_of_le hle⟩

namespace NotedRun

variable {screen : Screen} {gpu : GpuDriver} {s s' : NotedRun} {n t₀ : ℕ}

/-- A closing window takes no click but one on its body. -/
theorem run_closed (hs : s.Keeps closedRule) (hclosed : (s.ledger.notes n).closed = some t₀)
    (h : (notedSystem gpu).Run s s') :
    s'.Keeps closedRule ∧ (s'.ledger.notes n).closed = some t₀ := by
  refine h.preserves (I := fun s => s.Keeps closedRule ∧ (s.ledger.notes n).closed = some t₀)
    (fun s a t hs hexec => ⟨exec_keeps closedRule_kept hs.1 hexec,?_⟩) ⟨hs,hclosed⟩
  obtain ⟨hs,hclosed⟩ := hs
  rcases exec_note closedRule_kept hs hexec n with ⟨_,hsame⟩ | ⟨_,win,mode,hpre,hstable⟩
  · rw [hsame]
    exact hclosed
  · exact absurd hstable ((hpre.2 t₀ hclosed).not_stable mode)

/-- The windows that are kept are all that were opened but those that have finished closing. -/
theorem Keeps.mem_names_iff (h : s.Keeps closedRule) : n ∈ s.ledger.names ↔
    n < s.ledger.opened ∧
      ∀ t₀, (s.ledger.notes n).closed = some t₀ → s.ledger.frames < t₀ + 15 := by
  constructor
  · intro hn
    refine ⟨h.lt n hn,fun t₀ hclosed => ?_⟩
    obtain ⟨win,_,_,hpost⟩ := PairedLists.mem_left h.listed hn
    exact (hpost t₀ hclosed).2.1
  · rintro ⟨hlt,hopen⟩
    by_contra hnot
    obtain ⟨t₀,hclosed,hle⟩ := h.gone n hlt hnot
    exact (hopen t₀ hclosed).not_ge hle

end NotedRun

theorem Desktop.clickWindow_closing {win : SemanticWindow} {t₀ k : ℕ} (h : win.Closing t₀ k)
    (d : Desktop) : Ensures (d.clickWindow win) fun click =>
      click = .missed ∨ click = .handled win none := by
  intro click hclick
  cases clickWindow_cases click hclick with
  | close _ _ hstable => exact absurd hstable (h.not_stable _)
  | restore hstable => exact absurd hstable (h.not_stable _)
  | maximize _ _ hstable => exact absurd hstable (h.not_stable _)
  | title _ hstable => exact absurd hstable (h.not_stable _)
  | body => exact .inr rfl
  | missed => exact .inl rfl

/-- From the click on its close button on, whatever follows, a window is on its way to `Dead` and
is not stable, and takes no click but one on its body, which only brings it to the front; it is
gone after the 15th frame. Every other window that was opened is there, once. -/
theorem closed_stays {screen : Screen} {gpu : GpuDriver} :
    (∀ r, (desktopSystem screen gpu).Reachable r ↔
      ∃ l, (notedSystem gpu).Run (.fresh (.start screen)) ⟨r,l⟩) ∧
    ∀ s s' : NotedRun, (notedSystem gpu).Run (.fresh (.start screen)) s →
      (notedSystem gpu).Run s s' →
      (∀ n t₀, (s.ledger.notes n).closed = some t₀ →
        (s'.ledger.notes n).closed = some t₀ ∧
        (n ∈ s'.ledger.names ↔ s'.ledger.frames < t₀ + 15) ∧
        ∀ win, s'.Named n win → win.Shrunk t₀ s'.ledger.frames ∧
          (∀ mode, win.state ≠ .stable mode) ∧
          ∀ d : Desktop, Ensures (d.clickWindow win) fun click =>
            click = .missed ∨ click = .handled win none) ∧
      (∀ n win, s'.Named n win → ((s'.ledger.notes n).closed = none ↔ win.mode ≠ .dead)) ∧
      (s'.ledger.names.Nodup ∧
        List.Forall₂ (fun n win => win.id = UInt32.ofNat (n + 1)) s'.ledger.names
          s'.run.desktop.engine.windows) ∧
      ∀ n, n ∈ s'.ledger.names ↔ n < s'.ledger.opened ∧
        ∀ t₀, (s'.ledger.notes n).closed = some t₀ → s'.ledger.frames < t₀ + 15 := by
  refine ⟨fun r => ⟨NotedRun.exists_ledger,?_⟩,fun s s' hs h => ?_⟩
  · rintro ⟨l,hl⟩
    exact NotedRun.reachable_of_run hl
  have hstart : s.Keeps closedRule :=
    NotedRun.run_keeps closedRule_kept (fun _ hn => absurd hn (Nat.not_lt_zero _)) hs
  have hrun : s'.Keeps closedRule :=
    NotedRun.run_keeps closedRule_kept (fun _ hn => absurd hn (Nat.not_lt_zero _)) (hs.trans h)
  refine ⟨fun n t₀ hclosed => ?_,fun n win hnamed => ?_,
    ⟨hrun.nodup,(NotedRun.run_numbered (hs.trans h)).ids⟩,fun n => hrun.mem_names_iff⟩
  · have hkept := (NotedRun.run_closed hstart hclosed h).2
    refine ⟨hkept,?_,fun win hnamed => ?_⟩
    · have hopened : n < s'.ledger.opened := hrun.lt_opened fun hblank => by
        rw [hblank] at hkept
        cases hkept
      refine hrun.mem_names_iff.trans ⟨fun hmem => hmem.2 t₀ hkept,fun hlt => ⟨hopened,?_⟩⟩
      intro t₁ ht
      cases hkept.symm.trans ht
      exact hlt
    · have hshrunk := (hrun.named hnamed).2 t₀ hkept
      exact ⟨hshrunk,hshrunk.closing.not_stable,Desktop.clickWindow_closing hshrunk.closing⟩
  · obtain ⟨halive,hclosing⟩ := hrun.named hnamed
    refine ⟨halive,fun hmode => ?_⟩
    by_contra hclosed
    obtain ⟨t₀,ht⟩ := Option.ne_none_iff_exists'.mp hclosed
    exact hmode (hclosing t₀ ht).closing.mode_eq

/-- A window is opened, and its close button is clicked. -/
def closeFirst : List DesktopAction :=
  openFirst ++ packetBytes 0x08 255 255 true ++ packetBytes 0x08 120 30 true ++
  packetBytes 0x09 0 0 false

/-- The click is in the 17th frame, and 15 frames later there is no window. -/
theorem closeFirst_eval :
    (closeFirst.foldlM NotedRun.sketched (.fresh (.start hdScreen))).any fun s =>
      (s.ledger.notes 0).closed = some 16 ∧
      ((List.replicate 14 DesktopAction.render).foldlM NotedRun.sketched s).any fun s' =>
        s'.ledger.frames = 31 := by decide +kernel

theorem closeFirst_gone : ∃ s s' : NotedRun,
    (notedSystem hdGpu).Run (.fresh (.start hdScreen)) s ∧ (notedSystem hdGpu).Run s s' ∧
    (s.ledger.notes 0).closed = some 16 ∧ (s'.ledger.notes 0).closed = some 16 ∧
    0 ∉ s'.ledger.names := by
  obtain ⟨s,s',hrun,hrun',hclosed,hframes⟩ := hdDesktop_runs closeFirst_eval
  obtain ⟨hkept,hmem,_⟩ := ((@closed_stays hdScreen hdGpu).2 s s' hrun hrun').1 0 16 hclosed
  refine ⟨s,s',hrun,hrun',hclosed,hkept,?_⟩
  rw [hmem,hframes]
  norm_num

end PolymorphOS
