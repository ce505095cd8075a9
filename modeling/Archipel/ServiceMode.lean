import Archipel.Async.Focus
import Archipel.Polkadot.Refusal

/-!
# The service (orchestrator/src/service.js)

The service keeps the mode that it was last started in beside the instance that
owns the containers. Over the histories of its calls, one after the other, the
mode is compared with the container that runs.
-/

namespace Archipel.ServiceMode
open Async Docker Polkadot

/-- The object; a service is constructed with the mode 'none'. -/
structure Service where
  mode : Option Mode := none
  serviceInstance : State := {}

abbrev Method (α : Type) := Async Docker.api Service String α

def instanceField : Field Service State where
  get s := s.serviceInstance
  set t s := { s with serviceInstance := t }
  get_set _ _ := rfl
  set_set _ _ _ := rfl
  set_get _ := rfl

/-- Start service -/
def serviceStart (config : Config) (mode : Mode) : Method Bool := do
  modify fun s => { s with mode := some mode }
  focus instanceField (Polkadot.start config mode)

/-- Cleanup a service -/
def serviceCleanUp (config : Config) : Method Bool := focus instanceField (Polkadot.cleanUp config)

/-- Check service -/
def serviceCheck (config : Config) : Method (Option Mode) :=
  focus instanceField (Polkadot.checkLaunchedContainer config)

/-! ### Histories -/

inductive ServiceCall where
  | serviceStart (mode : Mode)
  | serviceCleanUp
  deriving DecidableEq

def ServiceCall.code (config : Config) : ServiceCall → Method Bool
  | .serviceStart mode => ServiceMode.serviceStart config mode
  | .serviceCleanUp => ServiceMode.serviceCleanUp config

/-- One call of a history: what the daemon refuses in it, and the object and the
host before it and after it. -/
structure Served where
  call : ServiceCall
  refusal : Refusal
  before : Service × Host
  after : Service × Host

/-- The calls served one after the other since the construction on `host`. -/
inductive History (config : Config) (host : Host) : List Served → Service × Host → Prop
  | nil : History config host [] ({}, host)
  | call {steps : List Served} {x : Service × Host} (c : ServiceCall) (f : Refusal)
      {out : Except String Bool} {y : Service × Host} (h : History config host steps x)
      (hr : Runs (refusing f) (c.code config) x out y) :
      History config host (steps ++ [⟨c, f, x, y⟩]) y

/-- The mode is what a check of the service answers. -/
def Advertises (config : Config) (x : Service × Host) : Prop :=
  (∃ out y, Runs daemon (serviceCheck config) x out y) ∧
  ∀ out y, Runs daemon (serviceCheck config) x out y → out = .ok x.1.mode

/-- A clean up is called with the mode 'none'; a start finds its container
running, a passive one without the validator, or its launch is not refused. -/
def Sound (config : Config) (step : Served) : Prop :=
  match step.call with
  | .serviceCleanUp => step.before.1.mode = none
  | .serviceStart mode =>
    if step.before.2.Running (config.containerName mode) then
      mode = .passive → ¬ step.before.2.Running config.validatorName
    else Launchable step.refusal step.before.2.images config.polkadotImage

/-! ### One call -/

theorem advertises_iff (config : Config) (x : Service × Host) :
    Advertises config x ↔ x.1.mode = launchedContainer config x.2 := by
  have hcheck : wp (demonic daemon) free (serviceCheck config)
      (fun out _ => out = .ok (launchedContainer config x.2)) x := by
    refine wp_focus instanceField x (wp_mono (demonic_mono _) _ ?_ _
      (healthy_checkLaunchedContainer config (x.1.serviceInstance, x.2)))
    exact fun _ _ h => h.2
  obtain ⟨out, y, hr⟩ := runs_exists daemon daemon_total (serviceCheck config) x
  constructor
  · intro h
    have hmode := h.2 out y hr
    rw [wp_runs hcheck hr] at hmode
    exact (Except.ok.inj hmode).symm
  · intro h
    refine ⟨⟨out, y, hr⟩, fun out' y' hr' => ?_⟩
    rw [wp_runs hcheck hr', h]

theorem launchedContainer_clear {config : Config} {h : Host} (hclear : Clear config h) :
    launchedContainer config h = none := by
  unfold launchedContainer
  rw [if_neg fun hr => hclear.1 hr.present, if_neg fun hr => hclear.2 hr.present]

theorem launchedContainer_iff {config : Config} {h : Host} (mode : Mode) :
    launchedContainer config h = some mode ↔ h.Running (config.containerName mode) ∧
      (mode = .passive → ¬ h.Running config.validatorName) := by
  unfold launchedContainer
  by_cases hv : h.Running config.validatorName
  · cases mode with
    | active => simp [hv, Config.containerName]
    | passive => simp [hv]
  · by_cases hs : h.Running config.syncName
    · cases mode with
      | active => simp [hv, hs, Config.containerName]
      | passive => simp [hv, hs, Config.containerName]
    · cases mode with
      | active => simp [hv, hs, Config.containerName]
      | passive => simp [hv, hs, Config.containerName]

theorem start_sets (config : Config) (mode : Mode) {f : Refusal} {x y : Service × Host}
    {out : Except String Bool} (hx : Idle x.1.serviceInstance)
    (hr : Runs (refusing f) (serviceStart config mode) x out y) :
    y.1.mode = some mode ∧ Idle y.1.serviceInstance ∧ Tried f config.polkadotImage
      (config.containerName mode) (config.containerName mode.other) x.2 y.2 := by
  have hstart : wp (demonic (refusing f)) free (serviceStart config mode) (fun _ y =>
      y.1.mode = some mode ∧ Idle y.1.serviceInstance ∧ Tried f config.polkadotImage
        (config.containerName mode) (config.containerName mode.other) x.2 y.2) x := by
    refine (wp_modify_bind ..).mpr ⟨trivial, wp_focus instanceField _ ?_⟩
    refine wp_mono (demonic_mono _) _ ?_ _ (wp_and
      (wp_maintains (unflagged_start config mode) (x.1.serviceInstance, x.2) hx)
      (refused_methodStart config mode (x.1.serviceInstance, x.2)))
    exact fun _ _ h => ⟨rfl, h.1, h.2⟩
  exact wp_runs hstart hr

theorem cleanUp_keeps (config : Config) {f : Refusal} {x y : Service × Host}
    {out : Except String Bool} (hx : Idle x.1.serviceInstance)
    (hr : Runs (refusing f) (serviceCleanUp config) x out y) :
    y.1.mode = x.1.mode ∧ Idle y.1.serviceInstance ∧ Clear config y.2 := by
  have hclean : wp (demonic (refusing f)) free (serviceCleanUp config) (fun _ y =>
      y.1.mode = x.1.mode ∧ Idle y.1.serviceInstance ∧ Clear config y.2) x := by
    refine wp_focus instanceField x (wp_mono (demonic_mono _) _ ?_ _
      (refused_cleanUp config (x.1.serviceInstance, x.2) hx))
    exact fun _ _ h => ⟨rfl, h.1, h.2⟩
  exact wp_runs hclean hr

/-- One call ends with the mode of the container that runs exactly when it is sound. -/
theorem call_advertises_iff (config : Config) (c : ServiceCall) {f : Refusal}
    {x y : Service × Host} {out : Except String Bool} (hx : Idle x.1.serviceInstance)
    (hr : Runs (refusing f) (c.code config) x out y) :
    Idle y.1.serviceInstance ∧ (Advertises config y ↔ Sound config ⟨c, f, x, y⟩) := by
  cases c with
  | serviceCleanUp =>
    obtain ⟨hmode, hidle, hclear⟩ := cleanUp_keeps config hx hr
    refine ⟨hidle, ?_⟩
    rw [advertises_iff, hmode, launchedContainer_clear hclear]
    exact Iff.rfl
  | serviceStart mode =>
    obtain ⟨hmode, hidle, htried⟩ := start_sets config mode hx hr
    refine ⟨hidle, ?_⟩
    rw [advertises_iff, hmode, eq_comm, launchedContainer_iff]
    unfold Sound
    dsimp only
    by_cases hup : x.2.Running (config.containerName mode)
    · have hsame := htried.early hup
      rw [if_pos hup, Host.running_congr hsame, Host.running_congr hsame]
      exact ⟨fun h => h.2, fun h => ⟨hup, h⟩⟩
    · have hgone := htried.gone hup
      rw [if_neg hup, htried.launched hup]
      refine ⟨fun h => h.1, fun h => ⟨h, ?_⟩⟩
      rintro rfl
      exact fun hv => hgone hv.present

/-! ### Every history -/

theorem history_idle {config : Config} {host : Host} {steps : List Served} {x : Service × Host}
    (h : History config host steps x) : Idle x.1.serviceInstance ∧
      ∀ step ∈ steps, (Advertises config step.after ↔ Sound config step) := by
  induction h with
  | nil => exact ⟨rfl, by simp⟩
  | @call steps x c f out y h hr ih =>
    obtain ⟨hidle, hsteps⟩ := ih
    obtain ⟨hidle', hstep⟩ := call_advertises_iff config c hidle hr
    refine ⟨hidle', ?_⟩
    intro step hmem
    rcases List.mem_append.mp hmem with hold | hnew
    · exact hsteps step hold
    · rw [List.mem_singleton.mp hnew]
      exact hstep

/-- The mode is the real mode after every call of a history exactly when every
call is sound. -/
theorem mode_advertised_iff {config : Config} {host : Host} {steps : List Served}
    {x : Service × Host} (h : History config host steps x) :
    (∀ step ∈ steps, Advertises config step.after) ↔ ∀ step ∈ steps, Sound config step := by
  obtain ⟨-, hsteps⟩ := history_idle h
  constructor
  · intro hall step hmem
    exact (hsteps step hmem).mp (hall step hmem)
  · intro hall step hmem
    exact (hsteps step hmem).mpr (hall step hmem)

theorem code_runs (config : Config) (c : ServiceCall) (f : Refusal) (x : Service × Host) :
    ∃ out y, Runs (refusing f) (c.code config) x out y :=
  runs_exists (refusing f) (refusing_total f) (c.code config) x

theorem idle_fresh : Idle ({} : Service).serviceInstance := rfl

def granted : Refusal := ⟨false, false, false⟩

def pulled : Host := { Host.empty with images := [plainConfig.polkadotImage] }

/-- The image is there before its pull is refused, and the validator runs before
everything is. -/
theorem mode_advertised_starts : ∃ x y z, ∃ steps : List Served,
    steps = [⟨.serviceStart .active, ⟨true, false, false⟩, ({}, pulled), x⟩,
      ⟨.serviceStart .active, ⟨true, true, true⟩, x, y⟩,
      ⟨.serviceStart .passive, granted, y, z⟩] ∧
    History plainConfig pulled steps z ∧ ∀ step ∈ steps, Advertises plainConfig step.after := by
  obtain ⟨_, x, hx⟩ := code_runs plainConfig (.serviceStart .active) ⟨true, false, false⟩
    ({}, pulled)
  obtain ⟨_, y, hy⟩ := code_runs plainConfig (.serviceStart .active) ⟨true, true, true⟩ x
  obtain ⟨_, z, hz⟩ := code_runs plainConfig (.serviceStart .passive) granted y
  have h := History.call (.serviceStart .passive) granted
    (.call (.serviceStart .active) ⟨true, true, true⟩
      (.call (.serviceStart .active) ⟨true, false, false⟩ .nil hx) hy) hz
  obtain ⟨-, hidle, htried⟩ := start_sets plainConfig .active idle_fresh hx
  have hlaunchable : Launchable ⟨true, false, false⟩ pulled.images plainConfig.polkadotImage :=
    ⟨rfl, rfl, fun _ => List.mem_singleton_self _⟩
  have hup := (htried.launched (by decide)).mpr hlaunchable
  have hgone := htried.gone (by decide)
  obtain ⟨-, -, htried'⟩ := start_sets plainConfig .active hidle hy
  have hsync : ¬ y.2.Running plainConfig.syncName := by
    rw [Host.running_congr (htried'.early hup)]
    exact fun hr => hgone hr.present
  refine ⟨x, y, z, _, rfl, h, (mode_advertised_iff h).mpr ?_⟩
  intro step hmem
  rcases List.mem_cons.mp hmem with rfl | hmem
  · unfold Sound
    dsimp only
    rw [if_neg (by decide)]
    exact hlaunchable
  rcases List.mem_cons.mp hmem with rfl | hmem
  · unfold Sound
    dsimp only
    rw [if_pos hup]
    exact fun h => by cases h
  · rw [List.mem_singleton.mp hmem]
    unfold Sound
    dsimp only
    rw [if_neg (by exact hsync)]
    exact ⟨rfl, rfl, fun h => by cases h⟩

/-- After a clean up the mode is still 'active', and so it is after a start whose
image could not be pulled. -/
theorem mode_stale :
    (∃ x y, History plainConfig Host.empty
      [⟨.serviceStart .active, granted, ({}, Host.empty), x⟩, ⟨.serviceCleanUp, granted, x, y⟩] y ∧
        y.1.mode = some .active ∧ launchedContainer plainConfig y.2 = none ∧
          ¬ Advertises plainConfig y) ∧
    ∃ x, History plainConfig Host.empty
      [⟨.serviceStart .active, ⟨true, false, false⟩, ({}, Host.empty), x⟩] x ∧
        x.1.mode = some .active ∧ ¬ Advertises plainConfig x := by
  constructor
  · obtain ⟨out, x, hr⟩ := code_runs plainConfig (.serviceStart .active) granted ({}, Host.empty)
    obtain ⟨out', y, hr'⟩ := code_runs plainConfig .serviceCleanUp granted x
    have h := History.call (.serviceStart .active) granted (.nil : History plainConfig _ _ _) hr
    obtain ⟨hactive, hidle, -⟩ := start_sets plainConfig .active idle_fresh hr
    obtain ⟨hmode, -, hclear⟩ := cleanUp_keeps plainConfig hidle hr'
    have hnone := launchedContainer_clear hclear
    refine ⟨x, y, .call .serviceCleanUp granted h hr', hmode.trans hactive, hnone, ?_⟩
    rw [advertises_iff, hmode, hactive, hnone]
    exact nofun
  · obtain ⟨out, x, hr⟩ := code_runs plainConfig (.serviceStart .active) ⟨true, false, false⟩
      ({}, Host.empty)
    obtain ⟨hmode, -, htried⟩ := start_sets plainConfig .active idle_fresh hr
    refine ⟨x, .call (.serviceStart .active) ⟨true, false, false⟩ .nil hr, hmode, ?_⟩
    rw [advertises_iff, hmode, eq_comm, launchedContainer_iff, htried.launched (by decide)]
    intro h
    have himage := h.1.2.2 rfl
    cases himage

end Archipel.ServiceMode
