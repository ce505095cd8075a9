import Archipel.Docker.Refusal
import Archipel.Polkadot.Convergence

/-!
# A start that the daemon may refuse

What one `start`, one `cleanUp` and one `checkLaunchedContainer` do when they run
alone on a daemon that may refuse to launch. A start removes the container of
the other mode before it knows whether its own can be launched.
-/

namespace Archipel.Polkadot
open Async Docker Utils

/-- The outcome of a start: nothing happens when `up` runs, and otherwise `down`
is gone and `up` runs if its launch is not refused. -/
structure Tried (f : Refusal) (image up down : String) (h h' : Host) : Prop where
  early : h.Running up → h'.containers = h.containers
  launched : ¬ h.Running up → (h'.Running up ↔ Launchable f h.images image)
  gone : ¬ h.Running up → ¬ h'.Present down

section Start
variable {f : Refusal} {up down : String}

theorem Tried.congr {image : String} {h h₁ h₂ h₃ : Host} (h01 : h₁.containers = h.containers)
    (himages : f.pull = true → h₁.images = h.images) (ht : Tried f image up down h₁ h₂)
    (h23 : h₃.containers = h₂.containers) : Tried f image up down h h₃ where
  early := fun hr => h23.trans ((ht.early ((Host.running_congr h01 up).mpr hr)).trans h01)
  launched := fun hr => by
    rw [Host.running_congr h23, ht.launched fun h => hr ((Host.running_congr h01 up).mp h),
      launchable_congr himages]
  gone := fun hr hp => ht.gone (fun h => hr ((Host.running_congr h01 up).mp h))
    ((Host.present_congr h23 down).mp hp)

/-- The container `up` is absent and `down` is gone. -/
theorem refused_launch (hup : Plain up) (hne : up ≠ down) (data : ContainerData)
    {images : List String} {x : State × Host} (himages : f.pull = true → x.2.images = images)
    (hx : ¬ x.2.Present up) (hgone : ¬ x.2.Present down) :
    Refused f (startContainer { data with name := up }) (fun _ y =>
      (y.2.Running up ↔ Launchable f images data.image) ∧ ¬ y.2.Present down) x := by
  refine wp_mono (demonic_mono _) _ ?_ x (refused_startContainer { data with name := up } hup x hx)
  intro out y hy
  obtain ⟨hrun, hsame⟩ := hy
  refine ⟨hrun.trans (launchable_congr himages), ?_⟩
  exact fun hp => hgone ((hsame.present hne.symm).mp hp)

theorem refused_startUp (hup : Plain up) (hne : up ≠ down) (data : ContainerData)
    {images : List String} {containerUp : Option Instance} {x : State × Host}
    (himages : f.pull = true → x.2.images = images)
    (hcontainerUp : containerUp = none → ¬ x.2.Present up) (hx : ¬ x.2.Running up)
    (hgone : ¬ x.2.Present down) :
    Refused f
      (if containerUp.isNone then startContainer { data with name := up }
      else do
        let running ← isContainerRunning up
        if !running then do
          let _ ← removeContainer up
          startContainer { data with name := up }
        else
          pure false) (fun _ y =>
      (y.2.Running up ↔ Launchable f images data.image) ∧ ¬ y.2.Present down) x := by
  split
  · next hnone =>
    exact refused_launch hup hne data himages (hcontainerUp (Option.isNone_iff_eq_none.mp hnone))
      hgone
  · refine wp_seq (demonic_mono _) (isContainerRunning up) _ x (refused_isContainerRunning hup x)
      ?_ fun _ _ h => nomatch h.2
    intro running y hy
    obtain ⟨rfl, hrunning⟩ := hy
    cases hrunning
    rw [decide_eq_false hx]
    refine wp_seq (demonic_mono _) (removeContainer up) _ y (refused_removeContainer hup y) ?_
      fun _ _ h => nomatch h.1.1
    intro removed z hz
    obtain ⟨⟨-, -, habsent, hsame⟩, hz⟩ := hz
    refine refused_launch hup hne data (fun hpull => (hz hpull).trans (himages hpull)) habsent ?_
    exact fun hp => hgone ((hsame.present hne.symm).mp hp)

theorem refused_prepareAndStart (hup : Plain up) (hdown : Plain down) (hne : up ≠ down)
    (data : ContainerData) (x : State × Host) (hx : ¬ x.2.Running up) :
    Refused f (prepareAndStart data up down) (fun _ y =>
      (y.2.Running up ↔ Launchable f x.2.images data.image) ∧ ¬ y.2.Present down) x := by
  refine wp_seq (demonic_mono _) (getContainer up) _ x (refused_getContainer hup x) ?_
    fun _ _ h => h.2.elim
  intro containerUp y hy
  obtain ⟨rfl, hcontainerUp⟩ := hy
  refine wp_seq (demonic_mono _) (getContainer down) _ y (refused_getContainer hdown y) ?_
    fun _ _ h => h.2.elim
  intro containerDown z hz
  obtain ⟨rfl, hcontainerDown⟩ := hz
  have habsent : containerUp = none → ¬ z.2.Present up := by
    intro hnone
    rw [hnone] at hcontainerUp
    exact hcontainerUp
  cases containerDown with
  | none => exact refused_startUp hup hne data (fun _ => rfl) habsent hx hcontainerDown
  | some container =>
    refine wp_seq (demonic_mono _) (removeContainer down) _ z (refused_removeContainer hdown z) ?_
      fun _ _ h => nomatch h.1.1
    intro removed u hu
    obtain ⟨⟨-, -, hgone, hsame⟩, himages⟩ := hu
    refine refused_startUp hup hne data himages ?_ ?_ hgone
    · exact fun hnone hp => habsent hnone ((hsame.present hne).mp hp)
    · exact fun hr => hx ((hsame.running hne).mp hr)

theorem refused_calm {α : Type} {m : Method α} (hm : Quiet m) (hr : Returns m) (x : State × Host) :
    Refused f m (fun out y => (∃ a, out = .ok a) ∧ y.2.containers = x.2.containers ∧
      (f.pull = true → y.2.images = x.2.images)) x :=
  wp_returns (demonic_mono _) hr x (wp_and (refused_quiet hm x) (refused_images m x))

theorem refused_checkAndStart (hup : Plain up) (hdown : Plain down) (hne : up ≠ down)
    (data : ContainerData) (mountSource : String) (x : State × Host) :
    Refused f (do
        let alreadyRunning ← isContainerRunning up
        if alreadyRunning then
          pure false
        else do
          let _ ← createVolume mountSource
          prepareAndStart data up down)
      (fun _ y => Tried f data.image up down x.2 y.2) x := by
  refine wp_seq (demonic_mono _) (isContainerRunning up) _ x (refused_isContainerRunning hup x) ?_
    fun _ _ h => nomatch h.2
  intro running y hy
  obtain ⟨rfl, hrunning⟩ := hy
  cases hrunning
  by_cases hr : y.2.Running up
  · rw [decide_eq_true hr]
    exact ⟨fun _ => rfl, fun hnot => absurd hr hnot, fun hnot => absurd hr hnot⟩
  · rw [decide_eq_false hr]
    refine wp_seq (demonic_mono _) (createVolume mountSource) _ y
      (refused_calm (quiet_createVolume mountSource) (returns_tryCatch _ fun _ => trivial) y) ?_
      fun _ _ h => nomatch h.1
    intro created z hz
    obtain ⟨-, hsame, himages⟩ := hz
    have hrun : ¬ z.2.Running up := fun h => hr ((Host.running_congr hsame up).mp h)
    refine wp_mono (demonic_mono _) _ ?_ z (refused_prepareAndStart hup hdown hne data z hrun)
    intro out u hu
    exact ⟨fun h => absurd h hr, fun _ => hu.1.trans (launchable_congr himages), fun _ => hu.2⟩

end Start

/-! ### The methods -/

section Methods
variable {f : Refusal}

theorem refused_startServiceContainer (config : Config) (mode : Mode) (image : String)
    (cmd : List String) (mountTarget mountSource networkMode : String) (x : State × Host) :
    Refused f (startServiceContainer mode config.validatorName config.syncName image cmd mountTarget
      mountSource networkMode) (fun _ y =>
      Tried f image (config.containerName mode) (config.containerName mode.other) x.2 y.2) x := by
  have hup := plain_containerName config mode
  have hdown := plain_containerName config mode.other
  have hne := containerName_ne config mode
  cases mode with
  | active => exact refused_checkAndStart hup hdown hne _ mountSource x
  | passive => exact refused_checkAndStart hup hdown hne _ mountSource x

theorem refused_methodStart (config : Config) (mode : Mode) (x : State × Host) :
    Refused f (start config mode) (fun _ y => Tried f config.polkadotImage
      (config.containerName mode) (config.containerName mode.other) x.2 y.2) x := by
  have hrest : ∀ y : State × Host, y.2.containers = x.2.containers →
      (f.pull = true → y.2.images = x.2.images) → Refused f (do
        let s ← get
        let serviceStarted ← startServiceContainer mode config.validatorName config.syncName
          config.polkadotImage
          (["--name", nodeName config mode] ++ s.commonPolkadotOptions ++ modeOptions mode)
          config.databasePath s.polkadotVolume s.networkMode
        let _ ← polkadotKeysImport config
        pure serviceStarted) (fun _ y => Tried f config.polkadotImage
      (config.containerName mode) (config.containerName mode.other) x.2 y.2) y := by
    intro y hy himages
    refine (wp_get_bind ..).mpr (wp_seq (demonic_mono _) _ _ y
      (refused_startServiceContainer config mode _ _ _ _ _ y) ?_
      fun _ _ h => h.congr hy himages rfl)
    intro serviceStarted z hz
    refine wp_seq (demonic_mono _) (polkadotKeysImport config) _ z
      (refused_calm (quiet_polkadotKeysImport config) (returns_tryCatch _ fun _ => trivial) z) ?_
      fun _ _ h => nomatch h.1
    intro imported u hu
    exact hz.congr hy himages hu.2.1
  refine (wp_get_bind ..).mpr ?_
  dsimp only
  split
  · refine wp_seq (demonic_mono _) (prepareService config) _ x
      (refused_calm (quiet_prepareService config) (returns_prepareService config) x) ?_
      fun _ _ h => nomatch h.1
    intro _ y hy
    exact hrest y hy.2.1 hy.2.2
  · exact hrest x rfl fun _ => rfl

theorem refused_cleanUp (config : Config) (x : State × Host) (hx : Idle x.1) :
    Refused f (cleanUp config) (fun _ y => Idle y.1 ∧ Clear config y.2) x := by
  have hsteady : OnlyCalls (A := Docker.api) Call.steady (cleanUp config) := by
    have hremove : ∀ name, OnlyCalls (A := Docker.api) Call.steady
        (removeContainer name : Method Bool) := fun name =>
      onlyCalls_removeContainer name trivial (fun _ => trivial) fun _ => trivial
    refine onlyCalls_tryCatch (onlyCalls_bind onlyCalls_get fun s => ?_) fun _ =>
      onlyCalls_bind (onlyCalls_modify _) fun _ => trivial
    split
    · exact onlyCalls_bind (onlyCalls_modify _) fun _ =>
        onlyCalls_bind (hremove _) fun _ =>
          onlyCalls_bind (hremove _) fun _ =>
            onlyCalls_bind (onlyCalls_modify _) fun _ => trivial
    · trivial
  refine refused_steady hsteady (wp_mono (demonic_mono _) _ ?_ x (healthy_cleanUp config x hx))
  intro out y hy
  obtain ⟨-, hfields, hclear, -⟩ := hy
  rw [hfields]
  exact ⟨hx, hclear⟩

end Methods

/-! ### The container that runs -/

def launchedContainer (config : Config) (h : Host) : Option Mode :=
  if h.Running config.validatorName then some .active
  else if h.Running config.syncName then some .passive
  else none

theorem healthy_checkLaunchedContainer (config : Config) (x : State × Host) :
    Healthy (checkLaunchedContainer config) (fun out y => y = x ∧
      out = .ok (launchedContainer config x.2)) x := by
  have hvalidator : Plain config.validatorName := plain_containerName config .active
  have hsync : Plain config.syncName := plain_containerName config .passive
  refine wp_seq (demonic_mono _) (isContainerRunning config.validatorName) _ x
    (healthy_isContainerRunning hvalidator x) ?_ fun _ _ h => nomatch h.2
  intro running y hy
  obtain ⟨rfl, hrunning⟩ := hy
  cases hrunning
  unfold launchedContainer
  by_cases hr : y.2.Running config.validatorName
  · rw [if_pos hr, decide_eq_true hr]
    exact ⟨rfl, rfl⟩
  · rw [if_neg hr, decide_eq_false hr]
    refine wp_seq (demonic_mono _) (isContainerRunning config.syncName) _ y
      (healthy_isContainerRunning hsync y) ?_ fun _ _ h => nomatch h.2
    intro running z hz
    obtain ⟨rfl, hrunning⟩ := hz
    cases hrunning
    by_cases hs : z.2.Running config.syncName
    · rw [if_pos hs, decide_eq_true hs]
      exact ⟨rfl, rfl⟩
    · rw [if_neg hs, decide_eq_false hs]
      exact ⟨rfl, rfl⟩

end Archipel.Polkadot
