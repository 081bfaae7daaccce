import PolymorphOS.WindowNotes

/-! A window on which restore was clicked while it was maximized: it comes back to where it was when
maximize was clicked, whatever is clicked and dragged in the meantime. -/
namespace PolymorphOS

namespace SemanticWindow

variable {win win' : SemanticWindow} {t₀ k : ℕ} {o : Option Geometry}

/-- For 15 frames after the click the window is on its way to what was saved. -/
def Restoring (win : SemanticWindow) (t₀ k : ℕ) (o : Option Geometry) : Prop :=
  t₀ ≤ k ∧ (k < t₀ + 15 → ∃ t, win.Underway t (k - t₀) ∧ t.finalMode = .instantiated ∧
    ∀ g, o = some g → t.target = g)

/-- And with the 15th it is there. -/
def Restored (win : SemanticWindow) (t₀ k : ℕ) (o : Option Geometry) : Prop :=
  win.Restoring t₀ k o ∧ (k = t₀ + 15 →
    win.state = .stable .instantiated ∧ ∀ g, o = some g → win.geometry = g)

/-- What is stable has finished. -/
theorem Restoring.of_stable {mode : WindowMode} (h : win.Restoring t₀ k o)
    (hstable : win.state = .stable mode) (win' : SemanticWindow) : win'.Restoring t₀ k o := by
  refine ⟨h.1,fun hlt => ?_⟩
  obtain ⟨t,ht,_⟩ := h.2 hlt
  cases hstable.symm.trans ht.state

theorem Restoring.congr (h : win.Restoring t₀ k o) (hstate : win'.state = win.state) :
    win'.Restoring t₀ k o := by
  refine ⟨h.1,fun hlt => ?_⟩
  obtain ⟨t,ht,hfinal⟩ := h.2 hlt
  exact ⟨t,⟨hstate.trans ht.state,ht.max⟩,hfinal⟩

theorem restoring_triggerRestore {k : ℕ} (hsaved : ∀ g, o = some g → win.normal = g) :
    win.triggerRestore.Restoring k k o := by
  obtain ⟨t,ht,hfinal,htarget⟩ :=
    underway_transitionTo win win.normalW win.normalH win.normalX win.normalY .instantiated
  refine ⟨le_rfl,fun _ => ⟨t,?_,hfinal,fun g hg => htarget.trans (hsaved g hg)⟩⟩
  rw [sub_self]
  exact ht

/-- No step of the animation but its last one makes the window stable, and none makes it dead. -/
theorem Restoring.tick (h : win.Restoring t₀ k o) (hbare : win'.bare = win.ticked.bare) :
    win'.Restored t₀ (k + 1) o ∧ (k < t₀ + 15 → win'.state ≠ .stable .dead) := by
  obtain ⟨hle,hmoving⟩ := h
  by_cases hlt : k < t₀ + 15
  swap
  · exact ⟨⟨⟨by omega,fun h => absurd h (by omega)⟩,fun h => absurd h (by omega)⟩,
      fun h => absurd h hlt⟩
  obtain ⟨t,ht,hfinal,htarget⟩ := hmoving hlt
  by_cases hnext : k + 1 < t₀ + 15
  · have hmoved := (ht.next (by omega) hbare).1
    have hsteps : ((k + 1 : ℕ) : ℤ) - t₀ = k - t₀ + 1 := by omega
    refine ⟨⟨⟨by omega,fun _ => ⟨t,?_,hfinal,htarget⟩⟩,fun h => absurd h (by omega)⟩,fun _ => ?_⟩
    · rw [hsteps]
      exact hmoved
    · rw [hmoved.state]
      exact nofun
  · obtain ⟨hstate,hplace⟩ := ht.last (by omega) hbare
    rw [hfinal] at hstate
    refine ⟨⟨⟨by omega,fun h => absurd h hnext⟩,
      fun _ => ⟨hstate,fun g hg => hplace.trans (htarget g hg)⟩⟩,fun _ => ?_⟩
    rw [hstate]
    exact nofun

end SemanticWindow

/-- What there is to know about a window that was opened in the run: it is not maximized unless its
place was saved. -/
structure WindowNote.Complete (note : WindowNote) (win : SemanticWindow) : Prop where
  alive : win.state ≠ .stable .dead
  saved : note.saved = none → win.mode ≠ .maximized
  restored : ∀ t₀, note.restored ≠ some (t₀,none)

/-- Windows on which restore was clicked while they were maximized come back; of the first `given`
windows it is not known what was saved before. -/
def restoredRule (given : ℕ) : WindowRule where
  pre n k note win := (∀ g, note.saved = some g → win.normal = g) ∧
    (∀ t₀ o, note.restored = some (t₀,o) → win.Restoring t₀ k o) ∧
    (given ≤ n → note.Complete win)
  post n k note win := (∀ g, note.saved = some g → win.normal = g) ∧
    (∀ t₀ o, note.restored = some (t₀,o) → win.Restored t₀ k o) ∧
    (given ≤ n → note.Complete win)
  gone n k note := (∀ t₀ o, note.restored = some (t₀,o) → t₀ + 15 < k) ∧
    (given ≤ n → ∀ t₀, note.restored ≠ some (t₀,none))

section Rule

variable {given n k : ℕ} {note : WindowNote} {win win' : SemanticWindow}

/-- A stable window begins a transition, and neither a place nor a restore is noted. -/
theorem restoredRule_begins {mode : WindowMode} {closed : Option ℕ}
    (h : (restoredRule given).pre n k note win) (hstable : win.state = .stable mode)
    (hnormal : win'.normal = win.normal) (hmoves : ∀ mode, win'.state ≠ .stable mode)
    (hmode : given ≤ n → note.saved = none → win'.mode ≠ .maximized) :
    (restoredRule given).pre n k {note with closed := closed} win' := by
  obtain ⟨hsaved,hrestoring,hcomplete⟩ := h
  refine ⟨fun g hg => hnormal.trans (hsaved g hg),
    fun t₀ o ho => (hrestoring t₀ o ho).of_stable hstable win',fun hgiven => ?_⟩
  exact ⟨hmoves _,hmode hgiven,(hcomplete hgiven).restored⟩

theorem restoredRule_restore {mode : WindowMode} (h : (restoredRule given).pre n k note win)
    (hstable : win.state = .stable mode) :
    (restoredRule given).pre n k (note.press win k (some .restore)) win.triggerRestore := by
  rw [WindowNote.press]
  split
  · rename_i hmaximized
    obtain ⟨hsaved,_,hcomplete⟩ := h
    refine ⟨hsaved,fun t₀ o ho => ?_,fun hgiven => ⟨nofun,fun _ => nofun,fun t₀ ho => ?_⟩⟩
    · cases ho
      exact SemanticWindow.restoring_triggerRestore hsaved
    · have hnone : note.saved = none := congrArg Prod.snd (Option.some.inj ho)
      exact (hcomplete hgiven).saved hnone (SemanticWindow.mode_stable hmaximized)
  · exact restoredRule_begins h hstable rfl (fun _ => nofun) fun _ _ => nofun

theorem restoredRule_maximize {mode : WindowMode} (h : (restoredRule given).pre n k note win)
    (hstable : win.state = .stable mode) (screenW screenH : ℤ) :
    (restoredRule given).pre n k (note.press win k (some .maximize))
      (win.triggerMaximize screenW screenH) := by
  rw [WindowNote.press,SemanticWindow.triggerMaximize]
  split
  · obtain ⟨_,hrestoring,hcomplete⟩ := h
    refine ⟨fun g hg => ?_,fun t₀ o ho => (hrestoring t₀ o ho).of_stable hstable _,fun hgiven => ?_⟩
    · cases hg
      rfl
    · exact ⟨nofun,nofun,(hcomplete hgiven).restored⟩
  · rename_i hnot
    refine restoredRule_begins h hstable rfl (fun _ => nofun) fun hgiven hnone => ?_
    obtain ⟨halive,hsaved,_⟩ := h.2.2 hgiven
    have hmode := hsaved hnone
    rw [SemanticWindow.mode_stable hstable] at hmode
    cases mode with
    | dead => exact absurd hstable halive
    | instantiated => exact absurd hstable hnot
    | maximized => exact absurd rfl hmode

theorem restoredRule_press {button : Option WindowButton}
    (h : (restoredRule given).pre n k note win) (hpressed : Pressed win button win') :
    (restoredRule given).pre n k (note.press win k button) win' := by
  cases hpressed with
  | close x y hstable => exact restoredRule_begins h hstable rfl (fun _ => nofun) fun _ _ => nofun
  | restore hstable => exact restoredRule_restore h hstable
  | maximize screenW screenH hstable => exact restoredRule_maximize h hstable screenW screenH
  | beside => exact h

theorem restoredRule_tick (h : (restoredRule given).pre n k note win)
    (hbare : win'.bare = win.ticked.bare) :
    if win'.state = .stable .dead then (restoredRule given).gone n (k + 1) note
    else (restoredRule given).post n (k + 1) note win' := by
  obtain ⟨hsaved,hrestoring,hcomplete⟩ := h
  split
  · rename_i hdead
    refine ⟨fun t₀ o ho => ?_,fun hgiven => (hcomplete hgiven).restored⟩
    by_contra hle
    exact ((hrestoring t₀ o ho).tick hbare).2 (by omega) hdead
  · rename_i halive
    have hnormal : win'.normal = win.normal :=
      (SemanticWindow.bare_congr SemanticWindow.normal (fun _ => rfl) hbare).trans
        win.ticked_keeps.2
    have hmode : win'.mode = win.mode :=
      (SemanticWindow.bare_congr SemanticWindow.mode (fun _ => rfl) hbare).trans win.ticked_mode
    refine ⟨fun g hg => hnormal.trans (hsaved g hg),
      fun t₀ o ho => ((hrestoring t₀ o ho).tick hbare).1,fun hgiven => ?_⟩
    obtain ⟨_,hmax,hrestored⟩ := hcomplete hgiven
    exact ⟨halive,fun hnone => hmode ▸ hmax hnone,hrestored⟩

end Rule

theorem restoredRule_kept (given : ℕ) : (restoredRule given).Kept where
  enter h := ⟨h.1,fun t₀ o ho => (h.2.1 t₀ o ho).1,h.2.2⟩
  spawn _ _ _ _ _ := fun win hwin => by
    obtain ⟨_,t,ht,hfinal⟩ := SemanticWindow.spawn_ensures win hwin
    have hmode : win.mode ≠ .maximized := by
      rw [SemanticWindow.mode_transitioning ht,hfinal]
      exact nofun
    have halive : win.state ≠ .stable .dead := by
      rw [ht]
      exact nofun
    exact ⟨nofun,nofun,fun _ => ⟨halive,fun _ => hmode,nofun⟩⟩
  press := restoredRule_press
  place h hstate hnormal := by
    obtain ⟨hsaved,hrestoring,hcomplete⟩ := h
    refine ⟨fun g hg => hnormal.trans (hsaved g hg),
      fun t₀ o ho => (hrestoring t₀ o ho).congr hstate,fun hgiven => ?_⟩
    obtain ⟨halive,hmax,hrestored⟩ := hcomplete hgiven
    have hmode := SemanticWindow.mode_congr hstate
    exact ⟨hstate ▸ halive,fun hnone => hmode ▸ hmax hnone,hrestored⟩
  tick := restoredRule_tick
  later h := ⟨fun t₀ o ho => Nat.lt_succ_of_lt (h.1 t₀ o ho),h.2⟩

namespace NotedRun

variable {gpu : GpuDriver} {s s' : NotedRun} {given n t₀ : ℕ} {o : Option Geometry}

/-- While the window comes back it takes no click on its buttons. -/
theorem run_restored (hs : s.Keeps (restoredRule given))
    (hrestored : (s.ledger.notes n).restored = some (t₀,o)) (h : (notedSystem gpu).Run s s')
    (hframes : s'.ledger.frames ≤ t₀ + 15) :
    (s'.ledger.notes n).restored = some (t₀,o) := by
  refine (h.preserves (I := fun s => s.Keeps (restoredRule given) ∧ (s.ledger.frames ≤ t₀ + 15 →
    (s.ledger.notes n).restored = some (t₀,o))) (fun s a t hs hexec =>
      ⟨exec_keeps (restoredRule_kept given) hs.1 hexec,fun hle => ?_⟩)
    ⟨hs,fun _ => hrestored⟩).2 hframes
  obtain ⟨hs,hrestored⟩ := hs
  rcases exec_note (restoredRule_kept given) hs hexec n with
    ⟨hmono,hsame⟩ | ⟨hnext,win,mode,hpre,hstable⟩
  · rw [hsame]
    exact hrestored (hmono.trans hle)
  · obtain ⟨t,ht,_⟩ := (hpre.2.1 t₀ o (hrestored (by omega))).2 (by omega)
    cases hstable.symm.trans ht.state

/-- A window that comes back is still there. -/
theorem Keeps.exists_named (h : s.Keeps (restoredRule given))
    (hrestored : (s.ledger.notes n).restored = some (t₀,o)) (hframes : s.ledger.frames ≤ t₀ + 15) :
    ∃ win, s.Named n win ∧ win.Restored t₀ s.ledger.frames o := by
  have hopened : n < s.ledger.opened := h.lt_opened fun hblank => by
    rw [hblank] at hrestored
    cases hrestored
  have hmem : n ∈ s.ledger.names := by
    by_contra hnot
    exact ((h.gone n hopened hnot).1 t₀ o hrestored).not_ge hframes
  obtain ⟨i,hi⟩ := List.mem_iff_getElem?.mp hmem
  obtain ⟨win,hwin,hpost⟩ := PairedLists.getElem?_left h.listed hi
  exact ⟨win,⟨i,hi,hwin⟩,hpost.2.1 t₀ o hrestored⟩

/-- A note that does not say what was saved is about one of the first windows. -/
theorem Keeps.given_of_none (h : s.Keeps (restoredRule given))
    (hrestored : (s.ledger.notes n).restored = some (t₀,none)) : n < given := by
  by_contra hnot
  have hnot := not_lt.mp hnot
  have hopened : n < s.ledger.opened := h.lt_opened fun hblank => by
    rw [hblank] at hrestored
    cases hrestored
  by_cases hmem : n ∈ s.ledger.names
  · obtain ⟨win,_,_,_,hcomplete⟩ := PairedLists.mem_left h.listed hmem
    exact (hcomplete hnot).restored t₀ hrestored
  · exact (h.gone n hopened hmem).2 hnot t₀ hrestored

end NotedRun

/-- If restore is clicked while a window is maximized, then after the 15th frame, and not before, it
is stable again, where it was when maximize was last clicked while it was stable and not maximized,
whatever happens in the meantime. What was saved is unknown only for windows that the run did not
open. In a bounded desktop the run always goes on, and each frame counts. -/
theorem restore_lands {gpu : GpuDriver} {r : DesktopRun} {s s' : NotedRun} {n t₀ : ℕ}
    {o : Option Geometry} (hs : (notedSystem gpu).Run (.fresh r) s)
    (hrestored : (s.ledger.notes n).restored = some (t₀,o)) (h : (notedSystem gpu).Run s s')
    (hframes : s'.ledger.frames ≤ t₀ + 15) :
    (o = none → n < r.desktop.engine.windows.length) ∧
    (∃ win, s'.Named n win ∧
      (s'.ledger.frames < t₀ + 15 →
        ∃ t, win.state = .transitioning t ∧ t.finalMode = .instantiated) ∧
      (s'.ledger.frames = t₀ + 15 →
        win.state = .stable .instantiated ∧ ∀ g, o = some g → win.geometry = g)) ∧
    (∀ a t, s'.exec gpu a = .ok t → t.ledger.frames ≤ s'.ledger.frames + 1 ∧
      (a = .render → t.ledger.frames = s'.ledger.frames + 1)) ∧
    ∀ screen : Screen, r.desktop.Bounded screen → gpu.width.toNat ≤ 8192 →
      gpu.height.toNat ≤ 8192 → ∀ a, ∃ t, s'.exec gpu a = .ok t := by
  have hkept := restoredRule_kept r.desktop.engine.windows.length
  have hstart {s : NotedRun} (hs : (notedSystem gpu).Run (.fresh r) s) :
      s.Keeps (restoredRule r.desktop.engine.windows.length) :=
    NotedRun.run_keeps hkept (fun n hn _ _ => ⟨nofun,nofun,fun hge => absurd hn hge.not_gt⟩) hs
  have hthen := NotedRun.run_restored (hstart hs) hrestored h hframes
  have hrun : (notedSystem gpu).Run (.fresh r) s' := hs.trans h
  refine ⟨?_,?_,fun a t hexec => ?_,fun screen hd hw hh a => ?_⟩
  · rintro rfl
    exact (hstart hs).given_of_none hrestored
  · obtain ⟨win,hnamed,⟨_,hmoving⟩,hlanded⟩ := (hstart hrun).exists_named hthen hframes
    refine ⟨win,hnamed,fun hlt => ?_,hlanded⟩
    obtain ⟨t,ht,hfinal,_⟩ := hmoving hlt
    exact ⟨_,ht.state,hfinal⟩
  · exact NotedRun.exec_frames hkept (hstart hrun) hexec
  · have hbounded : s'.run.desktop.Bounded screen :=
      hrun.preserves (I := fun s => s.run.desktop.Bounded screen) (fun s a t hs ht =>
        (DesktopRun.exec_returns hw hh hs a).of_ok (NotedRun.exec_run ht)) hd
    obtain ⟨r',hr',_⟩ := DesktopRun.exec_returns hw hh hbounded a
    obtain ⟨l,hl⟩ := NotedRun.exec_of_run hr'
    exact ⟨⟨r',l⟩,hl⟩

/-- A click, and the frames in which what it began ends. -/
def clickAndWait : List DesktopAction :=
  packetBytes 0x09 0 0 false ++ packetBytes 0x08 0 0 false ++ List.replicate 14 .render

/-- A window is opened, maximize is clicked, and once more when it is maximized, and then restore. -/
def maximizeTwice : List DesktopAction :=
  openFirst ++ packetBytes 0x08 255 255 true ++ packetBytes 0x08 60 30 true ++ clickAndWait ++
  packetBytes 0x08 255 255 true ++ packetBytes 0x08 255 255 true ++ packetBytes 0x08 50 190 true ++
  clickAndWait ++ packetBytes 0x08 30 0 true ++ packetBytes 0x09 0 0 false

theorem maximizeTwice_eval :
    (maximizeTwice.foldlM NotedRun.sketched (.fresh (.start hdScreen))).any fun s =>
      (s.ledger.notes 0).restored = some (48,some ⟨560,700,800,600⟩) ∧
      ((List.replicate 14 DesktopAction.render).foldlM NotedRun.sketched s).any fun s' =>
        s'.ledger.frames = 63 := by decide +kernel

theorem maximizeTwice_restored : ∃ (s s' : NotedRun) (win : SemanticWindow),
    (notedSystem hdGpu).Run (.fresh (.start hdScreen)) s ∧ (notedSystem hdGpu).Run s s' ∧
    (s.ledger.notes 0).restored = some (48,some ⟨560,700,800,600⟩) ∧ s'.Named 0 win ∧
    win.state = .stable .instantiated ∧ win.geometry = ⟨560,700,800,600⟩ := by
  obtain ⟨s,s',hrun,hrun',hrestored,hframes⟩ := hdDesktop_runs maximizeTwice_eval
  obtain ⟨_,⟨win,hnamed,_,hlanded⟩,_⟩ := restore_lands hrun hrestored hrun' hframes.le
  obtain ⟨hstate,hplace⟩ := hlanded hframes
  exact ⟨s,s',win,hrun,hrun',hrestored,hnamed,hstate,hplace _ rfl⟩

end PolymorphOS
