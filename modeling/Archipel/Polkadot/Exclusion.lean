import Archipel.Docker.Exclusion
import Archipel.Polkadot.Basic

/-!
# One service container at a time

`start` and `cleanUp` flows share the service object and the docker host. A
`start` removes the container of the other mode before it starts its own, but
it holds no lock and takes a failed lookup for an absent container.
-/

namespace Archipel.Polkadot
open Async Docker Utils

def Mode.other : Mode → Mode
  | .active => .passive
  | .passive => .active

def Config.containerName (config : Config) : Mode → String
  | .active => config.validatorName
  | .passive => config.syncName

theorem plain_append (s t : String) (c : Char) (hc : c ∈ t.toList)
    (hhex : c ∉ "0123456789abcdef".toList) : Plain (s ++ t) := by
  intro id hid
  refine hhex (id.hex c ?_)
  rw [hid, String.toList_append]
  exact List.mem_append_right _ hc

theorem plain_containerName (config : Config) (mode : Mode) :
    Plain (config.containerName mode) := by
  cases mode with
  | active => exact plain_append _ _ 'p' (by decide) (by decide)
  | passive => exact plain_append _ _ 'p' (by decide) (by decide)

theorem containerName_ne (config : Config) (mode : Mode) :
    config.containerName mode ≠ config.containerName mode.other := by
  have h : config.validatorName ≠ config.syncName := by
    unfold Config.validatorName Config.syncName
    rw [ne_eq, String.append_right_inj]
    decide
  cases mode with
  | active => exact h
  | passive => exact h.symm

/-! ### Functions that start nothing -/

theorem quiet_checkKeyAdded (key keyType : String) :
    Quiet (checkKeyAdded key keyType) :=
  onlyCalls_bind (onlyCalls_request (.post _ _) trivial) fun resultPost => by
    cases resultPost <;> trivial

theorem quiet_checkSessionKeysOnNode (config : Config) :
    Quiet (checkSessionKeysOnNode config) := by
  refine onlyCalls_tryCatch ?_ fun _ => trivial
  split
  · trivial
  · exact onlyCalls_bind (onlyCalls_request (.post _ _) trivial) fun resultPost => by
      cases resultPost <;> trivial

theorem quiet_importKey (config : Config) (mnemonic : String) (crypto : Crypto)
    (type : String) : Quiet (importKey config mnemonic crypto type) := by
  unfold importKey
  split
  · trivial
  · refine onlyCalls_bind (onlyCalls_request .cryptoWaitReady trivial) fun _ => ?_
    refine onlyCalls_bind onlyCalls_get fun s => ?_
    split
    · trivial
    · refine onlyCalls_bind (onlyCalls_tryCatch (onlyCalls_request (.post _ _) trivial)
        fun _ => trivial) fun resultPost => ?_
      cases resultPost with
      | none => trivial
      | some result =>
        refine onlyCalls_bind (quiet_checkKeyAdded _ _) fun keyAdded => ?_
        split
        · trivial
        · exact onlyCalls_bind (quiet_checkSessionKeysOnNode config) fun _ _ => trivial

theorem quiet_polkadotKeysImport (config : Config) :
    Quiet (polkadotKeysImport config) := by
  refine onlyCalls_tryCatch (onlyCalls_bind onlyCalls_get fun s => ?_) fun _ => trivial
  split
  · trivial
  · refine onlyCalls_bind (onlyCalls_request (.setTimeout _) trivial) fun _ => ?_
    refine onlyCalls_bind (quiet_importKey ..) fun _ => ?_
    refine onlyCalls_bind (quiet_importKey ..) fun _ => ?_
    refine onlyCalls_bind (quiet_importKey ..) fun _ => ?_
    refine onlyCalls_bind (quiet_importKey ..) fun _ => ?_
    refine onlyCalls_bind (quiet_importKey ..) fun _ => ?_
    exact onlyCalls_bind (quiet_importKey ..) fun _ => trivial

theorem quiet_checkLaunchedContainer (config : Config) :
    Quiet (checkLaunchedContainer config) := by
  refine onlyCalls_bind (quiet_isContainerRunning _) fun running => ?_
  split
  · trivial
  · refine onlyCalls_bind (quiet_isContainerRunning _) fun running => ?_
    split <;> trivial

theorem quiet_getInfo (config : Config) : Quiet (getInfo config) :=
  onlyCalls_bind (quiet_checkLaunchedContainer config) fun _ =>
    onlyCalls_bind (quiet_checkSessionKeysOnNode config) fun _ => trivial

theorem quiet_prepareService (config : Config) :
    Quiet (prepareService config) :=
  onlyCalls_bind (onlyCalls_modify _) fun _ => onlyCalls_bind (onlyCalls_modify _) fun _ =>
    onlyCalls_bind (quiet_getMount _ _) fun _ => onlyCalls_bind (onlyCalls_modify _) fun _ =>
      onlyCalls_modify _

theorem harmless_cleanUp (config : Config) : Harmless (cleanUp config) := by
  refine onlyCalls_tryCatch (onlyCalls_bind onlyCalls_get fun s => ?_) fun _ =>
    onlyCalls_bind (onlyCalls_modify _) fun _ => trivial
  split
  · exact onlyCalls_bind (onlyCalls_modify _) fun _ =>
      onlyCalls_bind (harmless_removeContainer _) fun _ =>
        onlyCalls_bind (harmless_removeContainer _) fun _ =>
          onlyCalls_bind (onlyCalls_modify _) fun _ => trivial
  · trivial

theorem returns_prepareService (config : Config) : Returns (prepareService config) :=
  returns_bind (fun _ => trivial) fun _ => returns_bind (fun _ => trivial) fun _ =>
    returns_bind (returns_tryCatch _ fun _ => trivial) fun _ =>
      returns_bind (fun _ => trivial) fun _ _ => trivial

/-! ### The container that a start starts -/

section Starts
variable {up down : String}

theorem startsOnly_of_harmless {α : Type} {m : Method α} (hm : Harmless m) :
    OnlyCalls (A := Docker.api) (Call.startsOnly up) m := onlyCalls_mono (fun _ => .inl) hm

theorem startsOnly_prepareAndStart (data : ContainerData) :
    OnlyCalls (A := Docker.api) (Call.startsOnly up) (prepareAndStart data up down) := by
  have hstart : OnlyCalls (A := Docker.api) (Call.startsOnly up)
      (startContainer { data with name := up } : Method Bool) := startsOnly_startContainer _
  have hrest : ∀ containerUp : Option Instance, OnlyCalls (A := Docker.api) (Call.startsOnly up)
      (if containerUp.isNone then startContainer { data with name := up }
      else do
        let running ← isContainerRunning up
        if !running then do
          let _ ← removeContainer up
          startContainer { data with name := up }
        else
          pure false : Method Bool) := by
    intro containerUp
    split
    · exact hstart
    · refine onlyCalls_bind (startsOnly_of_harmless (quiet_isContainerRunning up).harmless)
        fun running => ?_
      split
      · exact onlyCalls_bind (startsOnly_of_harmless (harmless_removeContainer up)) fun _ => hstart
      · trivial
  refine onlyCalls_bind (startsOnly_of_harmless (quiet_getContainer up).harmless)
    fun containerUp => ?_
  refine onlyCalls_bind (startsOnly_of_harmless (quiet_getContainer down).harmless)
    fun containerDown => ?_
  cases containerDown with
  | none => exact hrest containerUp
  | some container =>
    exact onlyCalls_bind (startsOnly_of_harmless (harmless_removeContainer down))
      fun _ => hrest containerUp

theorem startsOnly_checkAndStart (data : ContainerData) (mountSource : String) :
    OnlyCalls (A := Docker.api) (Call.startsOnly up) (do
        let alreadyRunning ← isContainerRunning up
        if alreadyRunning then
          pure false
        else do
          let _ ← createVolume mountSource
          prepareAndStart data up down : Method Bool) := by
  refine onlyCalls_bind (startsOnly_of_harmless (quiet_isContainerRunning up).harmless)
    fun alreadyRunning => ?_
  split
  · trivial
  · exact onlyCalls_bind (startsOnly_of_harmless (quiet_createVolume mountSource).harmless)
      fun _ => startsOnly_prepareAndStart data

end Starts

theorem startsOnly_start (config : Config) (mode : Mode) :
    OnlyCalls (A := Docker.api) (Call.startsOnly (config.containerName mode))
      (start config mode) := by
  have hrest : OnlyCalls (A := Docker.api) (Call.startsOnly (config.containerName mode)) (do
        let s ← get
        let serviceStarted ← startServiceContainer mode config.validatorName config.syncName
          config.polkadotImage
          (["--name", nodeName config mode] ++ s.commonPolkadotOptions ++ modeOptions mode)
          config.databasePath s.polkadotVolume s.networkMode
        let _ ← polkadotKeysImport config
        pure serviceStarted : Method Bool) := by
    refine onlyCalls_bind onlyCalls_get fun s => onlyCalls_bind ?_ fun serviceStarted =>
      onlyCalls_bind (startsOnly_of_harmless (quiet_polkadotKeysImport config).harmless)
        fun _ => trivial
    cases mode with
    | active => exact startsOnly_checkAndStart _ _
    | passive => exact startsOnly_checkAndStart _ _
  refine onlyCalls_bind onlyCalls_get fun s => ?_
  dsimp only
  split
  · exact onlyCalls_bind (startsOnly_of_harmless (quiet_prepareService config).harmless)
      fun _ => hrest
  · exact hrest

/-! ### A start among starts of the same mode -/

section Start
variable {up down : String}

theorem wp_prepareAndStart (hup : Plain up) (hdown : Plain down) (hne : up ≠ down)
    (data : ContainerData) (x : State × Host) :
    wp (amongStarts State up down (sparing down)) (rely up down) (prepareAndStart data up down)
      (fun _ y => ¬ y.2.Running down) x := by
  refine wp_seq_returns (P := fun _ => True) (shielded_mono _ _ _) _ x
    (returns_tryCatch _ fun _ => trivial)
    (wp_harmless stable_true (quiet_getContainer up).harmless x trivial) ?_
  intro containerUp y _
  refine wp_seq (shielded_mono _ _ _) (getContainer down) _ y (wp_getContainer_down hdown y) ?_ ?_
  swap
  · intro e z hz
    obtain ⟨container, hcontainer, -⟩ := hz
    cases hcontainer
  intro containerDown z hz
  obtain ⟨containerDown, hcontainer, hfound⟩ := hz
  cases hcontainer
  -- From here on the down container does not run: it was not found or is removed
  have hstart : ∀ u : State × Host, ¬ u.2.Running down →
      wp (amongStarts State up down (sparing down)) (rely up down)
        (if containerUp.isNone then startContainer { data with name := up }
        else do
          let running ← isContainerRunning up
          if !running then do
            let _ ← removeContainer up
            startContainer { data with name := up }
          else
            pure false) (fun _ v => ¬ v.2.Running down) u := by
    intro u hu
    split
    · exact wp_startContainer_up hup hne _ rfl u hu
    · refine wp_seq (P := fun _ v => ¬ v.2.Running down) (shielded_mono _ _ _) _ _ u
        (wp_harmless stable_not_running (quiet_isContainerRunning up).harmless u hu) ?_
        fun _ _ hv => hv
      intro running v hv
      split
      · exact wp_seq (P := fun _ v => ¬ v.2.Running down) (shielded_mono _ _ _) _ _ v
          (wp_harmless stable_not_running (harmless_removeContainer up) v hv)
          (fun _ t ht => wp_startContainer_up hup hne _ rfl t ht) fun _ _ ht => ht
      · exact hv
  cases containerDown with
  | none => exact hstart z hfound
  | some container =>
    exact wp_seq (shielded_mono _ _ _) (removeContainer down) _ z
      (wp_removeContainer_down hdown z) (fun _ u hu => hstart u hu) fun _ _ hu => hu

theorem wp_checkAndStart (hup : Plain up) (hdown : Plain down) (hne : up ≠ down)
    (data : ContainerData) (mountSource : String) (x : State × Host)
    (hx : ¬ (x.2.Running up ∧ x.2.Running down)) :
    wp (amongStarts State up down (sparing down)) (rely up down)
      (do
        let alreadyRunning ← isContainerRunning up
        if alreadyRunning then
          pure false
        else do
          let _ ← createVolume mountSource
          prepareAndStart data up down) (fun _ y => ¬ y.2.Running down) x := by
  refine wp_seq (shielded_mono _ _ _) (isContainerRunning up) _ x
    (wp_isContainerRunning_up hup x hx) ?_ ?_
  · intro alreadyRunning y hy
    obtain ⟨running, hrunning, hdone⟩ := hy
    cases hrunning
    split
    · next h => exact hdone h
    · exact wp_seq_returns (P := fun _ => True) (shielded_mono _ _ _) _ y
        (returns_tryCatch _ fun _ => trivial)
        (wp_harmless stable_true (quiet_createVolume mountSource).harmless y trivial)
        fun _ z _ => wp_prepareAndStart hup hdown hne data z
  · intro e y hy
    obtain ⟨running, hrunning, -⟩ := hy
    cases hrunning

end Start

/-- A start of the mode among starts of the same mode and flows that start
nothing: no call it makes for the container of the other mode fails while that
container runs. -/
abbrev Config.alone (config : Config) (mode : Mode) : CallSpec Docker.api String (State × Host) :=
  amongStarts State (config.containerName mode) (config.containerName mode.other)
    (sparing (config.containerName mode.other))

abbrev Config.rely (config : Config) (mode : Mode) : State × Host → State × Host → Prop :=
  Docker.rely (config.containerName mode) (config.containerName mode.other)

def Config.Exclusive (config : Config) (mode : Mode) (h : Host) : Prop :=
  ¬ (h.Running (config.containerName mode) ∧ h.Running (config.containerName mode.other))

theorem wp_startServiceContainer (config : Config) (mode : Mode) (image : String)
    (cmd : List String) (mountTarget mountSource networkMode : String) (x : State × Host)
    (hx : config.Exclusive mode x.2) :
    wp (config.alone mode) (config.rely mode)
      (startServiceContainer mode config.validatorName config.syncName image cmd mountTarget
        mountSource networkMode)
      (fun _ y => ¬ y.2.Running (config.containerName mode.other)) x := by
  have hup := plain_containerName config mode
  have hdown := plain_containerName config mode.other
  have hne := containerName_ne config mode
  cases mode with
  | active => exact wp_checkAndStart hup hdown hne _ mountSource x hx
  | passive => exact wp_checkAndStart hup hdown hne _ mountSource x hx

/-- Where one of the containers does not run, a start ends with the container of
the other mode not running. -/
theorem wp_start (config : Config) (mode : Mode) (x : State × Host)
    (hx : config.Exclusive mode x.2) :
    wp (config.alone mode) (config.rely mode) (start config mode)
      (fun _ y => ¬ y.2.Running (config.containerName mode.other)) x := by
  have hrest : ∀ y : State × Host, config.Exclusive mode y.2 →
      wp (config.alone mode) (config.rely mode)
      (do
        let s ← get
        let serviceStarted ← startServiceContainer mode config.validatorName config.syncName
          config.polkadotImage
          (["--name", nodeName config mode] ++ s.commonPolkadotOptions ++ modeOptions mode)
          config.databasePath s.polkadotVolume s.networkMode
        let _ ← polkadotKeysImport config
        pure serviceStarted) (fun _ z => ¬ z.2.Running (config.containerName mode.other)) y := by
    intro y hy
    refine (wp_get_bind ..).mpr (wp_seq (shielded_mono _ _ _) _ _ y
      (wp_startServiceContainer config mode _ _ _ _ _ y hy) ?_ fun _ _ hz => hz)
    intro serviceStarted z hz
    exact wp_seq (shielded_mono _ _ _) (polkadotKeysImport config) _ z
      (wp_harmless stable_not_running (quiet_polkadotKeysImport config).harmless z hz)
      (fun _ _ hu => hu) fun _ _ hu => hu
  refine (wp_get_bind ..).mpr ?_
  dsimp only
  split
  · exact wp_seq_returns (P := fun y => config.Exclusive mode y.2) (shielded_mono _ _ _) _ x
      (returns_prepareService config)
      (wp_harmless stable_exclusive (quiet_prepareService config).harmless x hx)
      fun _ y hy => hrest y hy
  · exact hrest x hx

end Archipel.Polkadot
