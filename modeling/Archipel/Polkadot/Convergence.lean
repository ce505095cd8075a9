import Archipel.Docker.Trace
import Archipel.Polkadot.Flows

/-!
# A start that runs alone

What `start` and `cleanUp` do when they run alone on a working daemon. A start
looks at the container of its own mode only before it returns early, so it
repairs every state of the two containers but one.
-/

namespace Archipel.Polkadot
open Async Docker Utils

/-- The node was switched: `up` runs, `down` is gone, the other containers are
the same. -/
structure Switched (up down : String) (h h' : Host) : Prop where
  runs : h'.Running up
  gone : ¬ h'.Present down
  others : ∀ c : Container, c.name ≠ up → c.name ≠ down → (c ∈ h'.containers ↔ c ∈ h.containers)

/-- The two outcomes of a start that runs alone: nothing happens when `up` runs,
and otherwise the node is switched to it. -/
structure Started (up down : String) (h : Host) (out : Except String Bool) (h' : Host) : Prop where
  early : h.Running up → out = .ok false ∧ h'.containers = h.containers
  switched : ¬ h.Running up → out = .ok true ∧ Switched up down h h'

section Start
variable {up down : String}

theorem Switched.congr {h h₁ h₂ h₃ : Host} (h01 : h₁.containers = h.containers)
    (hs : Switched up down h₁ h₂) (h23 : h₃.containers = h₂.containers) :
    Switched up down h h₃ where
  runs := (Host.running_congr h23 up).mpr hs.runs
  gone := fun hp => hs.gone ((Host.present_congr h23 down).mp hp)
  others := fun c hcu hcd => by
    rw [h23, ← h01]
    exact hs.others c hcu hcd

theorem Started.congr {h h₁ h₂ h₃ : Host} {out : Except String Bool}
    (h01 : h₁.containers = h.containers) (hs : Started up down h₁ out h₂)
    (h23 : h₃.containers = h₂.containers) : Started up down h out h₃ where
  early := fun hr => by
    obtain ⟨hout, hc⟩ := hs.early ((Host.running_congr h01 up).mpr hr)
    exact ⟨hout, h23.trans (hc.trans h01)⟩
  switched := fun hr => by
    obtain ⟨hout, hsw⟩ := hs.switched fun h => hr ((Host.running_congr h01 up).mp h)
    exact ⟨hout, hsw.congr h01 h23⟩

/-- What the log of a start tells: only lookups when `up` runs, and otherwise
that its container was created and started. -/
structure Shown (up down : String) (w : Traced) (out : Except String Bool) (w' : Traced) :
    Prop where
  started : Started up down w.1 out w'.1
  early : w.1.Running up → Logs (fun event => Call.quiet event.call) w w'
  launched : ¬ w.1.Running up → Launches up w w'

theorem Shown.congr {w w₁ w₂ w₃ : Traced} {out : Except String Bool}
    (h01 : w₁.1.containers = w.1.containers)
    (hl01 : Logs (fun event => Call.quiet event.call) w w₁) (hs : Shown up down w₁ out w₂)
    (h23 : w₃.1.containers = w₂.1.containers)
    (hl23 : Logs (fun event => Call.quiet event.call) w₂ w₃) : Shown up down w out w₃ where
  started := hs.started.congr h01 h23
  early := fun hr =>
    logs_trans hl01 (logs_trans (hs.early ((Host.running_congr h01 up).mpr hr)) hl23)
  launched := fun hr => launches_logs
    (logs_launches hl01 (hs.launched fun h => hr ((Host.running_congr h01 up).mp h))) hl23

/-- The container `up` is launched where `down` is gone. -/
theorem recorded_launch (hup : Plain up) (hne : up ≠ down) (data : ContainerData) {w : Traced}
    {u v : State × Traced} (hu : ¬ u.2.1.Present down) (hsame : SameBut down w.1 u.2.1)
    (hlogs : Touches (fun _ => True) w u.2) (hv : ¬ v.2.1.Present up)
    (huv : SameBut up u.2.1 v.2.1) (hlogs' : Touches (fun _ => True) u.2 v.2) :
    Recorded (startContainer { data with name := up })
      (fun out y => out = .ok true ∧ Switched up down w.1 y.2.1 ∧ Launches up w y.2) v := by
  have hidle : ¬ v.2.1.Running up := fun hr => hv hr.present
  refine wp_mono (demonic_mono _) _ ?_ v
    (wp_and (recorded (healthy_startContainer { data with name := up } hup (v.1, v.2.1) hidle))
      (recorded_startContainer { data with name := up } hup v hv))
  intro out z hz
  obtain ⟨⟨hout, hrun, hvz⟩, -, hlaunches⟩ := hz
  have huz := huv.trans hvz
  exact ⟨hout, ⟨hrun, fun hp => hu ((huz.present hne.symm).mp hp),
    fun c hcu hcd => (huz c hcu).trans (hsame c hcd)⟩,
    logs_launches (touches_trans hlogs hlogs').moments hlaunches⟩

/-- What is left to do when `down` is gone and `up` does not run. -/
theorem recorded_startUp (hup : Plain up) (hne : up ≠ down) (data : ContainerData) {w : Traced}
    (hw : ¬ w.1.Running up) {containerUp : Option Instance}
    (hcontainerUp : containerUp = none → ¬ w.1.Present up) {u : State × Traced}
    (hu : ¬ u.2.1.Present down) (hsame : SameBut down w.1 u.2.1)
    (hlogs : Touches (fun _ => True) w u.2) :
    Recorded
      (if containerUp.isNone then startContainer { data with name := up }
      else do
        let running ← isContainerRunning up
        if !running then do
          let _ ← removeContainer up
          startContainer { data with name := up }
        else
          pure false)
      (fun out y => out = .ok true ∧ Switched up down w.1 y.2.1 ∧ Launches up w y.2) u := by
  split
  · next hnone =>
    refine recorded_launch hup hne data hu hsame hlogs ?_ (.refl up u.2.1) (touches_refl u.2)
    have habsent := hcontainerUp (Option.isNone_iff_eq_none.mp hnone)
    exact fun hp => habsent ((hsame.present hne).mp hp)
  · have hnot : ¬ u.2.1.Running up := fun hr => hw ((hsame.running hne).mp hr)
    refine wp_seq (demonic_mono _) (isContainerRunning up) _ u
      (wp_and (recorded (healthy_isContainerRunning hup (u.1, u.2.1)))
        (framed_quiet (S := fun _ => True) (quiet_isContainerRunning up) u)) ?_
      fun _ _ h => nomatch h.1.2
    intro running v hv
    obtain ⟨⟨hvu, hrunning⟩, huv⟩ := hv
    obtain ⟨-, hvhost⟩ := Prod.mk.inj hvu
    cases hrunning
    rw [decide_eq_false hnot]
    refine wp_seq (demonic_mono _) (removeContainer up) _ v
      (wp_and (recorded (healthy_removeContainer hup (v.1, v.2.1)))
        (framed_removeContainer (S := fun _ => True) hup trivial v)) ?_ fun _ _ h => nomatch h.1.1
    intro removed z hz
    obtain ⟨⟨-, -, hgone, hvz⟩, htouched⟩ := hz
    rw [hvhost] at hvz
    exact recorded_launch hup hne data hu hsame hlogs hgone hvz (touches_trans huv htouched)

theorem recorded_prepareAndStart (hup : Plain up) (hdown : Plain down) (hne : up ≠ down)
    (data : ContainerData) (x : State × Traced) (hx : ¬ x.2.1.Running up) :
    Recorded (prepareAndStart data up down) (fun out y => out = .ok true ∧
      Switched up down x.2.1 y.2.1 ∧ Launches up x.2 y.2) x := by
  refine wp_seq (demonic_mono _) (getContainer up) _ x
    (recorded_getContainer (S := fun _ => True) hup x) ?_ fun _ _ h => h.2.2.2.elim
  intro containerUp y hy
  obtain ⟨-, hyhost, hyt, hcontainerUp⟩ := hy
  refine wp_seq (demonic_mono _) (getContainer down) _ y
    (recorded_getContainer (S := fun _ => True) hdown y) ?_ fun _ _ h => h.2.2.2.elim
  intro containerDown z hz
  obtain ⟨-, hzhost, hzt, hcontainerDown⟩ := hz
  have hhost : z.2.1 = x.2.1 := hzhost.trans hyhost
  have hxz : Touches (fun _ => True) x.2 z.2 := touches_trans hyt hzt
  have habsentUp : containerUp = none → ¬ x.2.1.Present up := by
    intro hnone
    rw [hnone] at hcontainerUp
    exact hcontainerUp
  cases containerDown with
  | none =>
    rw [hyhost] at hcontainerDown
    have habsent : ¬ z.2.1.Present down := by
      rw [hhost]
      exact hcontainerDown
    refine recorded_startUp hup hne data hx habsentUp habsent ?_ hxz
    rw [hhost]
    exact .refl down x.2.1
  | some container =>
    refine wp_seq (demonic_mono _) (removeContainer down) _ z
      (wp_and (recorded (healthy_removeContainer hdown (z.1, z.2.1)))
        (framed_removeContainer (S := fun _ => True) hdown trivial z)) ?_ fun _ _ h => nomatch h.1.1
    intro removed u hu
    obtain ⟨⟨-, -, hgone, hsame⟩, htouched⟩ := hu
    rw [hhost] at hsame
    exact recorded_startUp hup hne data hx habsentUp hgone hsame (touches_trans hxz htouched)

theorem recorded_checkAndStart (hup : Plain up) (hdown : Plain down) (hne : up ≠ down)
    (data : ContainerData) (mountSource : String) (x : State × Traced) :
    Recorded (do
        let alreadyRunning ← isContainerRunning up
        if alreadyRunning then
          pure false
        else do
          let _ ← createVolume mountSource
          prepareAndStart data up down)
      (fun out y => Shown up down x.2 out y.2) x := by
  refine wp_seq (demonic_mono _) (isContainerRunning up) _ x
    (recorded_quiet (quiet_isContainerRunning up) (healthy_isContainerRunning hup (x.1, x.2.1)))
    ?_ fun _ _ h => nomatch h.1.2
  intro running y hy
  obtain ⟨⟨hyx, hrunning⟩, hlogs⟩ := hy
  obtain ⟨-, hhost⟩ := Prod.mk.inj hyx
  cases hrunning
  by_cases hr : x.2.1.Running up
  · rw [decide_eq_true hr]
    refine ⟨⟨fun _ => ⟨rfl, ?_⟩, fun h => absurd hr h⟩, fun _ => hlogs, fun h => absurd hr h⟩
    rw [hhost]
  · rw [decide_eq_false hr]
    refine wp_seq (demonic_mono _) (createVolume mountSource) _ y
      (recorded_quiet (quiet_createVolume mountSource)
        (healthy_calm (quiet_createVolume mountSource) (returns_tryCatch _ fun _ => trivial)
          (y.1, y.2.1))) ?_ fun _ _ h => nomatch h.1.1
    intro created z hz
    obtain ⟨⟨-, hsame⟩, hlogs'⟩ := hz
    have hcontainers : z.2.1.containers = x.2.1.containers :=
      hsame.trans (congrArg Host.containers hhost)
    have hrun : ¬ z.2.1.Running up := fun h => hr ((Host.running_congr hcontainers up).mp h)
    refine wp_mono (demonic_mono _) _ ?_ z
      (recorded_prepareAndStart hup hdown hne data z hrun)
    intro out u hu
    obtain ⟨hout, hsw, hlaunches⟩ := hu
    exact ⟨⟨fun h => absurd h hr, fun _ => ⟨hout, hsw.congr hcontainers rfl⟩⟩,
      fun h => absurd h hr, fun _ => logs_launches (logs_trans hlogs hlogs') hlaunches⟩

end Start

/-! ### The methods -/

theorem recorded_startServiceContainer (config : Config) (mode : Mode) (image : String)
    (cmd : List String) (mountTarget mountSource networkMode : String) (x : State × Traced) :
    Recorded (startServiceContainer mode config.validatorName config.syncName image cmd mountTarget
      mountSource networkMode) (fun out y =>
      Shown (config.containerName mode) (config.containerName mode.other) x.2 out y.2) x := by
  have hup := plain_containerName config mode
  have hdown := plain_containerName config mode.other
  have hne := containerName_ne config mode
  cases mode with
  | active => exact recorded_checkAndStart hup hdown hne _ mountSource x
  | passive => exact recorded_checkAndStart hup hdown hne _ mountSource x

theorem recorded_methodStart (config : Config) (mode : Mode) (x : State × Traced) :
    Recorded (start config mode) (fun out y =>
      Shown (config.containerName mode) (config.containerName mode.other) x.2 out y.2) x := by
  have hrest : ∀ y : State × Traced, y.2.1.containers = x.2.1.containers →
      Logs (fun event => Call.quiet event.call) x.2 y.2 → Recorded (do
        let s ← get
        let serviceStarted ← startServiceContainer mode config.validatorName config.syncName
          config.polkadotImage
          (["--name", nodeName config mode] ++ s.commonPolkadotOptions ++ modeOptions mode)
          config.databasePath s.polkadotVolume s.networkMode
        let _ ← polkadotKeysImport config
        pure serviceStarted) (fun out y =>
      Shown (config.containerName mode) (config.containerName mode.other) x.2 out y.2) y := by
    intro y hy hlogs
    refine (wp_get_bind ..).mpr (wp_seq (demonic_mono _) _ _ y
      (recorded_startServiceContainer config mode _ _ _ _ _ y) ?_
      fun _ _ h => h.congr hy hlogs rfl (logs_refl _))
    intro serviceStarted z hz
    refine wp_seq (demonic_mono _) (polkadotKeysImport config) _ z
      (recorded_quiet (quiet_polkadotKeysImport config)
        (healthy_calm (quiet_polkadotKeysImport config) (returns_tryCatch _ fun _ => trivial)
          (z.1, z.2.1))) ?_ fun _ _ h => nomatch h.1.1
    intro imported u hu
    obtain ⟨⟨-, hsame⟩, hlogs'⟩ := hu
    exact hz.congr hy hlogs hsame hlogs'
  refine (wp_get_bind ..).mpr ?_
  dsimp only
  split
  · refine wp_seq (demonic_mono _) (prepareService config) _ x
      (recorded_quiet (quiet_prepareService config)
        (healthy_calm (quiet_prepareService config) (returns_prepareService config)
          (x.1, x.2.1))) ?_ fun _ _ h => nomatch h.1.1
    intro _ y hy
    obtain ⟨⟨-, hsame⟩, hlogs⟩ := hy
    exact hrest y hsame hlogs
  · exact hrest x rfl (logs_refl x.2)

theorem healthy_methodStart (config : Config) (mode : Mode) (x : State × Host) :
    Healthy (start config mode) (fun out y =>
      Started (config.containerName mode) (config.containerName mode.other) x.2 out y.2) x := by
  refine wp_unlogged x.1 (x.2, []) ?_
  refine wp_mono (demonic_mono _) _ ?_ _ (recorded_methodStart config mode (x.1, (x.2, [])))
  exact fun _ _ h => h.started

theorem healthy_cleanUp (config : Config) (x : State × Host) (hx : x.1.cleaningUp = false) :
    Healthy (cleanUp config) (fun out y => out = .ok true ∧ y.1 = x.1 ∧ Clear config y.2 ∧
      ∀ c : Container, c.name ≠ config.validatorName → c.name ≠ config.syncName →
        (c ∈ y.2.containers ↔ c ∈ x.2.containers)) x := by
  refine (wp_tryCatch ..).mpr ((wp_get_bind ..).mpr ?_)
  rw [hx]
  refine (wp_modify_bind ..).mpr ⟨trivial, ?_⟩
  refine wp_seq (demonic_mono daemon) (removeContainer config.syncName) _ _
    (healthy_removeContainer (plain_containerName config .passive) _) ?_ fun _ _ h => nomatch h.1
  rintro _ y ⟨-, hy, hsync, hsame⟩
  refine wp_seq (demonic_mono daemon) (removeContainer config.validatorName) _ y
    (healthy_removeContainer (plain_containerName config .active) y) ?_ fun _ _ h => nomatch h.1
  rintro _ z ⟨-, hz, hvalidator, hsame'⟩
  refine (wp_modify_bind ..).mpr ⟨trivial, rfl, ?_, ⟨hvalidator, ?_⟩, ?_⟩
  · rw [hz, hy]
    obtain ⟨⟨cleaningUp, importedKeys, delay, volume, options, networkMode, prepared⟩, h⟩ := x
    cases hx
    rfl
  · exact fun hp => hsync ((hsame'.present (containerName_ne config .passive)).mp hp)
  · exact fun c hcv hcs => (hsame' c hcv).trans (hsame c hcs)

/-! ### Convergence -/

theorem daemon_total : Env.Total daemon := fun c h => ⟨_, _, answer_daemon c h⟩

theorem start_alone (config : Config) (mode : Mode) {x y : State × Host} {out : Except String Bool}
    (hr : Runs daemon (start config mode) x out y) :
    Started (config.containerName mode) (config.containerName mode.other) x.2 out y.2 :=
  wp_runs (healthy_methodStart config mode x) hr

theorem start_keeps_both (config : Config) (mode : Mode) {x y : State × Host}
    {out : Except String Bool} (hx : Both config x.2)
    (hr : Runs daemon (start config mode) x out y) : Both config y.2 := by
  have hup := ((both_iff config mode x.2).mp hx).1
  obtain ⟨-, hc⟩ := (start_alone config mode hr).early hup
  exact ⟨(Host.running_congr hc _).mpr hx.1, (Host.running_congr hc _).mpr hx.2⟩

theorem start_moves (config : Config) (mode : Mode) {x y : State × Host}
    {out : Except String Bool} (hx : ¬ Both config x.2)
    (hr : Runs daemon (start config mode) x out y) :
    y.2.Running (config.containerName mode) ∧ ¬ y.2.Running (config.containerName mode.other) := by
  have hs := start_alone config mode hr
  by_cases hup : x.2.Running (config.containerName mode)
  · obtain ⟨-, hc⟩ := hs.early hup
    refine ⟨(Host.running_congr hc _).mpr hup, fun hdown => hx ?_⟩
    exact (both_iff config mode x.2).mpr ⟨hup, (Host.running_congr hc _).mp hdown⟩
  · obtain ⟨-, hsw⟩ := hs.switched hup
    exact ⟨hsw.runs, fun hdown => hsw.gone hdown.present⟩

/-- A start that runs alone on a working daemon ends with its container running
and the other one not, from every host but those on which both run. -/
theorem start_converges_iff (config : Config) (mode : Mode) (x : State × Host) :
    (∃ out y, Runs daemon (start config mode) x out y) ∧
    ((∀ out y, Runs daemon (start config mode) x out y →
      y.2.Running (config.containerName mode) ∧ ¬ y.2.Running (config.containerName mode.other)) ↔
      ¬ Both config x.2) := by
  obtain ⟨out, y, hr⟩ := runs_exists daemon daemon_total (start config mode) x
  refine ⟨⟨out, y, hr⟩, ?_, ?_⟩
  · intro hall hboth
    have hy := (both_iff config mode y.2).mp (start_keeps_both config mode hboth hr)
    exact (hall out y hr).2 hy.2
  · intro hone out y hr
    exact start_moves config mode hone hr

/-- Every history: flows overlap, any call may fail and containers crash. -/
def anyHistory (config : Config) : System Docker.api State String Bool Host Flow :=
  node config (fun _ _ => True) (fun _ => faulty fun _ _ => False) Crash

theorem overlapping_reachable_anyHistory (config : Config) {x : State × Host} {p : Flows}
    (hp : (overlapping config).Reachable x p) : (anyHistory config).Reachable x p :=
  System.reachable_mono hp rfl (fun _ _ h => h) (fun _ _ _ _ _ h => .inl h) fun _ _ => False.elim

theorem overlapped_start_does_not_converge : ¬ ∀ (config : Config) (s : State) (h : Host),
    Clear config h → ∀ p, (anyHistory config).Reachable (s, h) p → ∀ mode out y,
      Runs daemon (start config mode) p.shared out y →
      y.2.Running (config.containerName mode) ∧
        ¬ y.2.Running (config.containerName mode.other) := by
  intro hall
  have hnever : ∀ p : Flows, (overlapping plainConfig).Reachable ({}, Host.empty) p →
      ¬ Both plainConfig p.shared.2 := by
    intro p hp hx
    obtain ⟨out, y, hr⟩ := runs_exists daemon daemon_total (start plainConfig .active) p.shared
    have hboth := start_keeps_both plainConfig .active hx hr
    have hreach := overlapping_reachable_anyHistory plainConfig hp
    exact (hall plainConfig {} Host.empty (by decide) p hreach .active out y hr).2 hboth.2
  exact hnever overlapped overlapped_reachable overlapped_both

end Archipel.Polkadot
