import Archipel.Orchestrator.Rules
import Archipel.Polkadot.Switch

/-!
# The boot of a node

`bootstrapOrchestrator` cleans up and starts the service in passive mode, on a
host with whatever containers it finds. From there on the mode switches of the
service do what they say.
-/

namespace Archipel.Orchestrator
open Async
open Docker (Host Traced daemon)
open Polkadot (Mode)

/-- The service instance on a working daemon; `copied` is the outcome of the copy
of the key file, and the chain answers anything. -/
def hosted {α : Type} (service : Polkadot.Config) (copied : Except String Unit) :
    Env (api α) String (Polkadot.State × Traced)
  | .cleanUp, w, r, w' => Runs (logged daemon) (Polkadot.cleanUp service) w r w'
  | .start mode, w, r, w' => Runs (logged daemon) (Polkadot.start service mode) w r w'
  | .bootstrap, w, r, w' => r = copied ∧ w' = w
  | _, w, _, w' => w' = w

variable {α : Type} {service : Polkadot.Config} {copied : Except String Unit} {h : Host}

/-- What the boot leaves. -/
structure Booted (service : Polkadot.Config) (copied : Except String Unit) (h : Host)
    (w : Polkadot.State × Traced) : Prop where
  inOrder : Polkadot.InOrder service h w
  passive : copied = .ok () →
    w.2.1.Running service.syncName ∧ ¬ w.2.1.Present service.validatorName

theorem wp_serviceCleanUp_hosted {config : Config α} (hrole : config.nodeRole ≠ "noservice")
    {x : State α × (Polkadot.State × Traced)} {object : Service}
    (hx : x.1.service = some object) (hflag : x.2.1.cleaningUp = false) (hlog : x.2.2.2 = []) :
    wp (demonic (hosted service copied)) free (serviceCleanUp config) (fun out y =>
      (∃ b, out = .ok b) ∧ y.1 = x.1 ∧ Polkadot.Clear service y.2.2.1 ∧
        Polkadot.InOrder service x.2.2.1 y.2) x := by
  unfold serviceCleanUp
  rw [if_neg hrole, wp_bind, wp_theService, hx]
  dsimp only
  rw [wp_call]
  intro r w hr
  have hmoments : ∀ event ∈ x.2.2.2, Docker.Frame (Polkadot.Own service) x.2.2.1 event.after := by
    rw [hlog]
    exact fun _ hevent => nomatch hevent
  obtain ⟨hout, hclear, hinOrder⟩ :=
    Polkadot.cleanUp_inOrder hflag (Docker.frame_refl x.2.2.1) hmoments hr
  exact ⟨⟨true, hout⟩, rfl, hclear, hinOrder⟩

theorem wp_fillHeartbeats_hosted [DecidableEq α] (wallets : List (Wallet α))
    (x : State α × (Polkadot.State × Traced)) :
    wp (demonic (hosted service copied)) free (fillHeartbeatsFromChain wallets)
      (fun _ y => y.2 = x.2) x := by
  induction wallets generalizing x with
  | nil => exact rfl
  | cons wallet wallets ih =>
    show wp _ _ (request (.getHeartbeat wallet) >>= _) _ _
    rw [wp_bind, wp_call]
    intro r w hr
    have hw : w = x.2 := hr
    cases r with
    | error e => exact hw
    | ok heartbeatBlock =>
      dsimp only
      rw [wp_modify_bind]
      refine ⟨trivial, wp_mono (demonic_mono _) _ ?_ _ (ih _)⟩
      intro out y hy
      rw [hy]
      exact hw

theorem bootstrapOrchestrator_boots [DecidableEq α] {config : Config α}
    (hrole : config.nodeRole ≠ "noservice") {s : State α} (hs : HasService s)
    {fields : Polkadot.State} (hfields : fields.cleaningUp = false) :
    wp (demonic (hosted service copied)) free (bootstrapOrchestrator config)
      (fun _ y => Booted service copied h y.2) (s, (fields, (h, []))) := by
  obtain ⟨object, hservice⟩ := Option.isSome_iff_exists.mp hs
  unfold bootstrapOrchestrator
  rw [if_neg hrole]
  refine wp_seq (demonic_mono _) (serviceCleanUp config) _ _
    (wp_serviceCleanUp_hosted hrole hservice hfields rfl) ?_ ?_
  · intro _ y hy
    obtain ⟨-, hys, hclear, hinOrder⟩ := hy
    have hyservice : y.1.service = some object := by rw [hys]; exact hservice
    show wp _ _ (theService >>= _) _ _
    rw [wp_bind, wp_theService, hyservice]
    show wp _ _ (request .bootstrap >>= _) _ _
    rw [wp_bind, wp_call]
    intro r w hr
    obtain ⟨hcopied, hw⟩ := hr
    cases r with
    | error e =>
      refine ⟨hw ▸ hinOrder, ?_⟩
      intro hok
      rw [hok] at hcopied
      cases hcopied
    | ok _ =>
      show wp _ _ (serviceStart config .passive >>= _) _ _
      rw [wp_bind, wp_serviceStart (x := (y.1, w)) hrole .passive hyservice]
      intro r w' hr'
      have hrun : Runs (logged daemon) (Polkadot.start service .passive) w r w' := hr'
      rw [hw] at hrun
      have hnot : ¬ y.2.2.1.Running service.syncName := fun hup => hclear.2 hup.present
      have hswitches := Polkadot.start_switches hinOrder hrun
      have hstarted : Booted service copied h w' := by
        refine ⟨Polkadot.start_inOrder hinOrder hrun, fun _ => ?_⟩
        exact ⟨hswitches.runs, hswitches.gone⟩
      have hshown := wp_runs (Polkadot.recorded_methodStart service .passive y.2) hrun
      obtain ⟨hout, -⟩ := hshown.started.switched hnot
      rw [hout]
      show wp _ _ (fillHeartbeatsFromChain config.nodesWallets) _ _
      refine wp_mono (demonic_mono _) _ ?_ _ (wp_fillHeartbeats_hosted _ _)
      intro out z hz
      rw [hz]
      exact hstarted
  · intro e y hy
    obtain ⟨⟨b, hb⟩, -⟩ := hy
    cases hb

/-- After the boot the sync container runs and the validator container is gone;
from there on, whatever order starts, clean-ups and the ends of the two
containers come in, at most one of the two is there, a start leaves its own
running and the other gone and answers whether it created and started one, and no
other container is ever touched. -/
theorem mode_switches [DecidableEq α] (config : Config α) (hrole : config.nodeRole ≠ "noservice")
    (service : Polkadot.Config) (copied : Except String Unit) {s s' : State α}
    (hs : HasService s) {fields : Polkadot.State} (hfields : fields.cleaningUp = false) (h : Host)
    {out : Except String Unit} {w : Polkadot.State × Traced}
    (hboot : Runs (hosted service copied) (bootstrapOrchestrator config)
      (s, (fields, (h, []))) out (s', w)) :
    (copied = .ok () →
      w.2.1.Running service.syncName ∧ ¬ w.2.1.Present service.validatorName) ∧
    ∀ x, Polkadot.Turns service w x →
      ¬ (x.2.1.Present service.validatorName ∧ x.2.1.Present service.syncName) ∧
      Docker.Frame (Polkadot.Own service) h x.2.1 ∧
      (∀ event ∈ x.2.2, Docker.Frame (Polkadot.Own service) h event.after) ∧
      ∀ mode out y, Runs (logged daemon) (Polkadot.start service mode) x out y →
        y.2.1.Running (service.containerName mode) ∧
        ¬ y.2.1.Present (service.containerName mode.other) ∧
        ∃ made, y.2.2 = x.2.2 ++ made ∧
          (out = .ok true ↔ ∃ name, Docker.Launched name made) := by
  have hbooted := wp_runs (bootstrapOrchestrator_boots (h := h) hrole hs hfields) hboot
  refine ⟨hbooted.passive, ?_⟩
  intro x hturns
  have hinOrder := Polkadot.turns_inOrder hbooted.inOrder hturns
  refine ⟨hinOrder.one, hinOrder.others, hinOrder.moments, ?_⟩
  intro mode out y hr
  have hswitches := Polkadot.start_switches hinOrder hr
  obtain ⟨made, hmade, hanswer⟩ := hswitches.answer
  refine ⟨hswitches.runs, hswitches.gone, made, hmade, ?_⟩
  rcases hanswer with ⟨htrue, hlaunched⟩ | ⟨hfalse, hnot⟩
  · exact ⟨fun _ => hlaunched, fun _ => htrue⟩
  · constructor
    · intro htrue
      rw [hfalse] at htrue
      cases htrue
    · intro hlaunched
      obtain ⟨name, hname⟩ := hlaunched
      exact absurd hname (hnot name)

/-! ### A boot on an empty host -/

def tracedAnswer : Script Docker.api String Traced := fun c w =>
  some ((Docker.answer c w.1).1, ((Docker.answer c w.1).2,
    w.2 ++ [⟨c, (Docker.answer c w.1).1, (Docker.answer c w.1).2⟩]))

theorem tracedAnswer_logged (c : Docker.Call) (w : Traced) (r : Except String c.Ret) (w' : Traced)
    (h : tracedAnswer c w = some (r, w')) : logged daemon c w r w' := by
  cases h
  exact ⟨Docker.answer_daemon c w.1, rfl⟩

/-- The chain knows no heartbeat. -/
def hostedAnswer : Script (api ℕ) String (Polkadot.State × Traced)
  | .cleanUp, w => exec tracedAnswer (Polkadot.cleanUp Polkadot.plainConfig) w
  | .start mode, w => exec tracedAnswer (Polkadot.start Polkadot.plainConfig mode) w
  | .bootstrap, w => some (.ok (), w)
  | .getHeartbeat _, w => some (.ok 0, w)
  | _, _ => none

theorem hostedAnswer_hosted (c : Call ℕ) (w : Polkadot.State × Traced) (r : Except String c.Ret)
    (w' : Polkadot.State × Traced) (h : hostedAnswer c w = some (r, w')) :
    hosted Polkadot.plainConfig (.ok ()) c w r w' := by
  cases c with
  | cleanUp => exact exec_runs tracedAnswer_logged _ _ h
  | start mode => exact exec_runs tracedAnswer_logged _ _ h
  | bootstrap =>
    cases h
    exact ⟨rfl, rfl⟩
  | getHeartbeat key =>
    cases h
    exact rfl
  | _ => cases h

/-- The service and the host after the boot. -/
def booted : Polkadot.State × Traced :=
  match exec hostedAnswer (bootstrapOrchestrator (plainNode 1))
    (State.init (plainNode 1), ({}, (Host.empty, []))) with
  | some (_, _, w) => w
  | none => ({}, (Host.empty, []))

theorem booted_runs : ∃ out s', Runs (hosted Polkadot.plainConfig (.ok ()))
    (bootstrapOrchestrator (plainNode 1)) (State.init (plainNode 1), ({}, (Host.empty, []))) out
    (s', booted) := by
  have hsome : (exec hostedAnswer (bootstrapOrchestrator (plainNode 1))
      (State.init (plainNode 1), ({}, (Host.empty, [])))).isSome := rfl
  unfold booted
  cases hexec : exec hostedAnswer (bootstrapOrchestrator (plainNode 1))
      (State.init (plainNode 1), ({}, (Host.empty, []))) with
  | none =>
    rw [hexec] at hsome
    cases hsome
  | some result =>
    obtain ⟨out, s', w⟩ := result
    exact ⟨out, s', exec_runs hostedAnswer_hosted _ _ hexec⟩

theorem mode_switches_booted :
    (booted.2.1.Running Polkadot.plainConfig.syncName ∧
      ¬ booted.2.1.Present Polkadot.plainConfig.validatorName) ∧
    ∀ x, Polkadot.Turns Polkadot.plainConfig booted x →
      ¬ (x.2.1.Present Polkadot.plainConfig.validatorName ∧
        x.2.1.Present Polkadot.plainConfig.syncName) := by
  obtain ⟨out, s', hruns⟩ := booted_runs
  obtain ⟨hpassive, hturns⟩ := mode_switches (plainNode 1) (by decide) Polkadot.plainConfig (.ok ())
    rfl rfl Host.empty hruns
  exact ⟨hpassive rfl, fun x hx => (hturns x hx).1⟩

end Archipel.Orchestrator
