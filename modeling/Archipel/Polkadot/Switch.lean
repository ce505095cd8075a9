import Archipel.Polkadot.Convergence
import Archipel.Polkadot.Exit

/-!
# Mode switches one at a time

Histories in which starts, clean-ups and the ends of the two containers follow
one another on a working daemon. At every step at most one of the two containers
is there, and no other container of the host is ever touched.
-/

namespace Archipel.Polkadot
open Async Docker

def Own (config : Config) (name : String) : Prop :=
  name = config.validatorName ∨ name = config.syncName

theorem own_containerName (config : Config) (mode : Mode) :
    Own config (config.containerName mode) := by
  cases mode with
  | active => exact .inl rfl
  | passive => exact .inr rfl

/-! ### Only the two containers are touched -/

section Framed
variable {S : String → Prop} {up down : String}

theorem framed_prepareAndStart (hup : Plain up) (hdown : Plain down) (hSup : S up) (hSdown : S down)
    (data : ContainerData) : Framed S (prepareAndStart data up down) := by
  have hlaunch : Framed S (startContainer { data with name := up } : Method Bool) :=
    framed_startContainer { data with name := up } hup hSup
  have hrest : ∀ containerUp : Option Instance, Framed S
      (if containerUp.isNone then startContainer { data with name := up }
      else do
        let running ← isContainerRunning up
        if !running then do
          let _ ← removeContainer up
          startContainer { data with name := up }
        else
          pure false : Method Bool) := by
    intro containerUp
    split
    · exact hlaunch
    · refine framed_bind (framed_quiet (quiet_isContainerRunning up)) fun running => ?_
      split
      · exact framed_bind (framed_removeContainer hup hSup) fun _ => hlaunch
      · exact framed_pure false
  refine framed_bind (framed_quiet (quiet_getContainer up)) fun containerUp => ?_
  refine framed_bind (framed_quiet (quiet_getContainer down)) fun containerDown => ?_
  cases containerDown with
  | none => exact hrest containerUp
  | some container =>
    exact framed_bind (framed_removeContainer hdown hSdown) fun _ => hrest containerUp

theorem framed_checkAndStart (hup : Plain up) (hdown : Plain down) (hSup : S up) (hSdown : S down)
    (data : ContainerData) (mountSource : String) : Framed S (do
      let alreadyRunning ← isContainerRunning up
      if alreadyRunning then
        pure false
      else do
        let _ ← createVolume mountSource
        prepareAndStart data up down : Method Bool) := by
  refine framed_bind (framed_quiet (quiet_isContainerRunning up)) fun alreadyRunning => ?_
  split
  · exact framed_pure false
  · exact framed_bind (framed_quiet (quiet_createVolume mountSource)) fun _ =>
      framed_prepareAndStart hup hdown hSup hSdown data

end Framed

theorem framed_startServiceContainer (config : Config) (mode : Mode) (image : String)
    (cmd : List String) (mountTarget mountSource networkMode : String) :
    Framed (Own config) (startServiceContainer mode config.validatorName config.syncName image cmd
      mountTarget mountSource networkMode) := by
  have hup := plain_containerName config mode
  have hdown := plain_containerName config mode.other
  have hSup := own_containerName config mode
  have hSdown := own_containerName config mode.other
  cases mode with
  | active => exact framed_checkAndStart hup hdown hSup hSdown _ mountSource
  | passive => exact framed_checkAndStart hup hdown hSup hSdown _ mountSource

theorem framed_start (config : Config) (mode : Mode) :
    Framed (Own config) (start config mode) := by
  have hrest : Framed (Own config) (do
      let s ← get
      let serviceStarted ← startServiceContainer mode config.validatorName config.syncName
        config.polkadotImage
        (["--name", nodeName config mode] ++ s.commonPolkadotOptions ++ modeOptions mode)
        config.databasePath s.polkadotVolume s.networkMode
      let _ ← polkadotKeysImport config
      pure serviceStarted : Method Bool) := by
    refine framed_get_bind fun s => ?_
    refine framed_bind (framed_startServiceContainer config mode _ _ _ _ _) fun started => ?_
    exact framed_bind (framed_quiet (quiet_polkadotKeysImport config)) fun _ => framed_pure started
  refine framed_get_bind fun s => ?_
  dsimp only
  split
  · exact framed_bind (framed_quiet (quiet_prepareService config)) fun _ => hrest
  · exact hrest

theorem framed_cleanUp (config : Config) : Framed (Own config) (cleanUp config) := by
  refine framed_tryCatch ?_ fun _ => framed_bind (framed_modify _) fun _ => framed_pure false
  refine framed_get_bind fun s => ?_
  split
  · refine framed_bind (framed_modify _) fun _ => ?_
    refine framed_bind (framed_removeContainer (plain_containerName config .passive)
      (own_containerName config .passive)) fun _ => ?_
    refine framed_bind (framed_removeContainer (plain_containerName config .active)
      (own_containerName config .active)) fun _ => ?_
    exact framed_bind (framed_modify _) fun _ => framed_pure true
  · exact framed_pure false

/-! ### Histories -/

/-- What may happen next: a whole `start` or `cleanUp`, or one of the two
containers stops or is removed from outside. -/
inductive Turn (config : Config) : State × Traced → State × Traced → Prop
  | start {x y : State × Traced} (mode : Mode) (out : Except String Bool) :
    Runs (logged daemon) (Polkadot.start config mode) x out y → Turn config x y
  | cleanUp {x y : State × Traced} (out : Except String Bool) :
    Runs (logged daemon) (Polkadot.cleanUp config) x out y → Turn config x y
  | stopped {x : State × Traced} (c : Container) : c ∈ x.2.1.containers → Own config c.name →
    Turn config x (x.1, (x.2.1.setRunning false c.id, x.2.2))
  | removed {x : State × Traced} (c : Container) : c ∈ x.2.1.containers → Own config c.name →
    Turn config x (x.1, (x.2.1.remove c.id, x.2.2))

abbrev Turns (config : Config) := Relation.ReflTransGen (Turn config)

/-- Nothing is in flight, the two containers are not both there, and the others
are, now and after every call so far, those of the host `h`. -/
structure InOrder (config : Config) (h : Host) (x : State × Traced) : Prop where
  unflagged : x.1.cleaningUp = false
  one : ¬ (x.2.1.Present config.validatorName ∧ x.2.1.Present config.syncName)
  others : Frame (Own config) h x.2.1
  moments : ∀ event ∈ x.2.2, Frame (Own config) h event.after

section Turns
variable {config : Config} {h : Host} {x y : State × Traced}

theorem one_iff (config : Config) (mode : Mode) (h : Host) :
    ¬ (h.Present config.validatorName ∧ h.Present config.syncName) ↔
      ¬ (h.Present (config.containerName mode) ∧ h.Present (config.containerName mode.other)) := by
  cases mode with
  | active => exact Iff.rfl
  | passive => exact not_congr and_comm

theorem touches_inOrder (ht : Touches (Own config) x.2 y.2) (hx : InOrder config h x) :
    Frame (Own config) h y.2.1 ∧ ∀ event ∈ y.2.2, Frame (Own config) h event.after := by
  refine ⟨frame_trans hx.others ht.frame, ?_⟩
  obtain ⟨made, hmade, hall⟩ := ht.moments
  intro event hevent
  rw [hmade] at hevent
  rcases List.mem_append.mp hevent with hold | hnew
  · exact hx.moments event hold
  · exact frame_trans hx.others (hall event hnew)

/-- What a start does in a history. -/
structure Switches (config : Config) (mode : Mode) (x : State × Traced) (out : Except String Bool)
    (y : State × Traced) : Prop where
  runs : y.2.1.Running (config.containerName mode)
  gone : ¬ y.2.1.Present (config.containerName mode.other)
  answer : ∃ made, y.2.2 = x.2.2 ++ made ∧
    ((out = .ok true ∧ ∃ name, Launched name made) ∨
      (out = .ok false ∧ ∀ name, ¬ Launched name made))

theorem start_switches {mode : Mode} {out : Except String Bool} (hx : InOrder config h x)
    (hr : Runs (logged daemon) (start config mode) x out y) : Switches config mode x out y := by
  have hshown := wp_runs (recorded_methodStart config mode x) hr
  by_cases hup : x.2.1.Running (config.containerName mode)
  · obtain ⟨hout, hsame⟩ := hshown.started.early hup
    obtain ⟨made, hmade, hquiet⟩ := hshown.early hup
    refine ⟨(Host.running_congr hsame _).mpr hup, ?_, made, hmade, .inr ⟨hout, ?_⟩⟩
    · intro hdown
      refine (one_iff config mode x.2.1).mp hx.one ⟨hup.present, ?_⟩
      exact (Host.present_congr hsame _).mp hdown
    · exact fun name => not_launched hquiet
  · obtain ⟨hout, hswitched⟩ := hshown.started.switched hup
    obtain ⟨made, hmade, hlaunched⟩ := hshown.launched hup
    exact ⟨hswitched.runs, hswitched.gone, made, hmade, .inl ⟨hout, _, hlaunched⟩⟩

theorem start_inOrder {mode : Mode} {out : Except String Bool} (hx : InOrder config h x)
    (hr : Runs (logged daemon) (start config mode) x out y) : InOrder config h y := by
  have hswitches := start_switches hx hr
  have htouches := wp_runs (framed_start config mode x) hr
  have hflag := wp_runs (wp_maintains (unflagged_start config mode) x hx.unflagged) hr
  obtain ⟨hothers, hmoments⟩ := touches_inOrder htouches hx
  refine ⟨hflag, ?_, hothers, hmoments⟩
  rw [one_iff config mode]
  exact fun hboth => hswitches.gone hboth.2

theorem cleanUp_inOrder {out : Except String Bool} (hflag : x.1.cleaningUp = false)
    (hothers : Frame (Own config) h x.2.1)
    (hmoments : ∀ event ∈ x.2.2, Frame (Own config) h event.after)
    (hr : Runs (logged daemon) (cleanUp config) x out y) :
    out = .ok true ∧ Clear config y.2.1 ∧ InOrder config h y := by
  have hclean := wp_runs (recorded (healthy_cleanUp config (x.1, x.2.1) hflag)) hr
  have htouches := wp_runs (framed_cleanUp config x) hr
  obtain ⟨hout, hfields, hclear, -⟩ := hclean
  obtain ⟨made, hmade, hall⟩ := htouches.moments
  refine ⟨hout, hclear, ?_, fun hboth => hclear.1 hboth.1, frame_trans hothers htouches.frame, ?_⟩
  · rw [hfields]
    exact hflag
  · intro event hevent
    rw [hmade] at hevent
    rcases List.mem_append.mp hevent with hold | hnew
    · exact hmoments event hold
    · exact frame_trans hothers (hall event hnew)

theorem turn_inOrder (hx : InOrder config h x) (ht : Turn config x y) : InOrder config h y := by
  cases ht with
  | start mode out hr => exact start_inOrder hx hr
  | cleanUp out hr => exact (cleanUp_inOrder hx.unflagged hx.others hx.moments hr).2.2
  | stopped c hc hown =>
    have hsame := SameBut.setRunning hc rfl false
    refine ⟨hx.unflagged, ?_, frame_trans hx.others (hsame.frame hown), hx.moments⟩
    have hpresent : ∀ name, (x.2.1.setRunning false c.id).Present name → x.2.1.Present name := by
      intro name hp
      obtain ⟨d, hd, hname⟩ := hp
      obtain ⟨e, he, rfl⟩ := Host.mem_setRunning.mp hd
      rw [Container.setRunning_name] at hname
      exact ⟨e, he, hname⟩
    exact fun hboth => hx.one ⟨hpresent _ hboth.1, hpresent _ hboth.2⟩
  | removed c hc hown =>
    have hsame := SameBut.remove hc rfl
    refine ⟨hx.unflagged, ?_, frame_trans hx.others (hsame.frame hown), hx.moments⟩
    have hpresent : ∀ name, (x.2.1.remove c.id).Present name → x.2.1.Present name := by
      intro name hp
      obtain ⟨d, hd, hname⟩ := hp
      exact ⟨d, (Host.mem_remove.mp hd).1, hname⟩
    exact fun hboth => hx.one ⟨hpresent _ hboth.1, hpresent _ hboth.2⟩

theorem turns_inOrder (hx : InOrder config h x) (ht : Turns config x y) : InOrder config h y := by
  induction ht with
  | refl => exact hx
  | tail _ hturn ih => exact turn_inOrder ih hturn

end Turns

end Archipel.Polkadot
