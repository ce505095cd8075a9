import Archipel.Federation.Play
import Archipel.Orchestrator.Readiness

/-!
# Nodes that go silent

When a leader that cannot serve stops sending heartbeats, and when a node whose
sending was switched off starts again. For both there are reachable states of
the federation in which the intended change does not come.
-/

namespace Archipel.Federation
open Async Orchestrator
open Polkadot (Mode)

variable {α W : Type} [DecidableEq α]

/-! ### A leader that cannot serve -/

/-- After as many stuck ticks as the readiness check waits, and one more, the
sending is off exactly when orchestration was on, the service was in active
mode at the first of them, and either heartbeats were enabled by the operator
or the counter was used up already. -/
theorem steps_aside_iff {config : Config α} (hrole : config.nodeRole ≠ "noservice")
    (hmode : config.serviceMode = "orchestrator") {s s' : Orchestrator.State α}
    {service : Service} (hs : s.service = some service) (hflag : s.heartbeatSendEnabled = true)
    (h : StuckTicks config (config.noReadyThreshold + 1) s s') :
    s'.heartbeatSendEnabled = false ↔
      s.orchestrationEnabled = true ∧ service.mode = some .active ∧
        (s.heartbeatSendEnabledAdmin = true ∨ config.noReadyThreshold ≤ s.noReadyCount) := by
  constructor
  · intro hoff
    by_contra hnot
    have hon : s'.heartbeatSendEnabled = true := by
      by_cases hidle : s.orchestrationEnabled = true → service.mode ≠ some .active
      · exact stuckTicks_sending hrole hmode h hs hflag hidle
      · obtain ⟨horch, hactive⟩ := Classical.not_imp.mp hidle
        have hactive := not_not.mp hactive
        obtain ⟨hadmin, hcount⟩ := not_or.mp fun hor => hnot ⟨horch, hactive, hor⟩
        obtain ⟨heartbeats, s₁, hrest, -, hs₁⟩ := stuckTicks_succ hrole hmode hs h
        have hpassive : (if s.heartbeatSendEnabled && s.heartbeatSendEnabledAdmin then Mode.active
            else Mode.passive) = .passive := if_neg (by simp [hadmin])
        rw [hs₁ horch, hactive, afterStuck_waiting (s := { s with heartbeats := heartbeats })
          (Nat.not_le.mp hcount), hpassive] at hrest
        exact stuckTicks_sending hrole hmode hrest rfl hflag fun _ => by decide
    rw [hon] at hoff
    cases hoff
  · intro ⟨horch, hactive, hadmin⟩
    obtain ⟨mode⟩ := service
    cases hactive
    exact stuckTicks_exhausted hrole hmode h hs horch hflag hadmin (by omega) (by omega)

theorem stuckTicks_plainNode (s : Orchestrator.State ℕ) : ∃ s', StuckTicks (plainNode 1) 31 s s' :=
  stuckTicks_exists (plainNode 1) 31 s bothAlive 1 (.address 2) (by decide)
    (fun _ hi => bothAlive_alive (.inl rfl) (by omega))
    fun _ hi => bothAlive_alive (.inr rfl) (by omega)

theorem steps_aside_iff_leading :
    ∃ s', StuckTicks (plainNode 1) 31 (leading.nodes false).orchestrator s' ∧
      s'.heartbeatSendEnabled = false := by
  obtain ⟨s', h⟩ := stuckTicks_plainNode (leading.nodes false).orchestrator
  have hservice : (leading.nodes false).orchestrator.service = some { mode := some .active } := by
    decide +kernel
  exact ⟨s', h, (steps_aside_iff (by decide) rfl hservice (by decide +kernel) h).mpr
    ⟨by decide +kernel, rfl, .inl (by decide +kernel)⟩⟩

/-- The leader restarts and subscribes again. -/
def restarted : State Bool ℕ := leading.play pair [.restart false, .subscribe false]

theorem restarted_reachable : Reachable pair restarted := play_reachable leading_reachable _

/-- A leader that has restarted is in passive mode, and there the stuck ticks
are not counted. -/
theorem restarted_leader_stays : ¬ ∀ (F : Operators Bool ℕ) (f : State Bool ℕ), Reachable F f →
    ∀ i, (f.nodes i).phase = .subscribed → (F.config i).serviceMode = "orchestrator" →
    f.pallet.leaders (F.config i).group = some (F.config i).nodeKey →
    (f.nodes i).orchestrator.orchestrationEnabled = true →
    (f.nodes i).orchestrator.heartbeatSendEnabled = true →
    (f.nodes i).orchestrator.heartbeatSendEnabledAdmin = true →
    ∀ s', StuckTicks (F.config i) ((F.config i).noReadyThreshold + 1) (f.nodes i).orchestrator s' →
      s'.heartbeatSendEnabled = false := by
  intro hall
  have hservice : (restarted.nodes false).orchestrator.service =
      some { mode := some .passive } := by decide +kernel
  have hflag : (restarted.nodes false).orchestrator.heartbeatSendEnabled = true := by
    decide +kernel
  obtain ⟨s', h⟩ := stuckTicks_plainNode (restarted.nodes false).orchestrator
  have hoff := hall pair restarted restarted_reachable false (by decide +kernel) rfl
    (by decide +kernel) (by decide +kernel) hflag (by decide +kernel) s' h
  rw [stuckTicks_sending (by decide) rfl h hservice hflag fun _ => by decide] at hoff
  cases hoff

/-! ### A node whose heartbeats were switched off -/

/-- After a tick that finds the service ready and another node alive the
sending is on exactly when it was on before, or orchestration is on and the
last heartbeat of the node itself is recent. -/
theorem comes_back_iff {config : Config α} (hrole : config.nodeRole ≠ "noservice")
    (hmode : config.serviceMode = "orchestrator") (n : ℕ) (s s' : Orchestrator.State α)
    (hs : s.service.isSome) (other : Wallet α) (hne : other ≠ .address config.nodeKey)
    (hother : s.heartbeats.Alive config.aliveTime n other) (w w' : W) (out : Except String Unit)
    (hrun : Runs (answering (recovered n)) (orchestrateService config) (s, w) out (s', w')) :
    s'.heartbeatSendEnabled = true ↔ s.heartbeatSendEnabled = true ∨
      (s.orchestrationEnabled = true ∧
        s.heartbeats.Alive config.aliveTime n (.address config.nodeKey)) := by
  obtain ⟨service, hservice⟩ := Option.isSome_iff_exists.mp hs
  exact wp_runs (wp_recovered_tick (fun _ _ _ _ h => h) hrole hmode hservice hne hother) hrun

theorem comes_back_iff_alive :
    ∃ out s', Runs (answering (recovered 2)) (orchestrateService (plainNode 1))
        ({ State.init (plainNode 1) with
          heartbeats := bothAlive, heartbeatSendEnabled := false }, ()) out (s', ()) ∧
      s'.heartbeatSendEnabled = true := by
  obtain ⟨out, ⟨s', _⟩, hrun⟩ := runs_exists (answering (recovered 2)) (recovered_total 2)
    (orchestrateService (plainNode 1))
    ({ State.init (plainNode 1) with heartbeats := bothAlive, heartbeatSendEnabled := false }, ())
  refine ⟨out, s', hrun, ?_⟩
  exact (comes_back_iff (by decide) rfl 2 _ s' rfl (.address 2) (by decide)
    (bothAlive_alive (.inr rfl) (n := 1) (by omega)) () () out hrun).mpr
    (.inr ⟨rfl, bothAlive_alive (.inl rfl) (n := 1) (by omega)⟩)

/-- The leader is not ready for 31 ticks, a block made before each, and its
sending is switched off. After 100 more blocks the other node sends a heartbeat. -/
def trapped : State Bool ℕ := leading.play pair
  ((List.replicate 31 [.blocks 1, .entry false .tick false]).flatten ++
    [.blocks 100, .entry true .heartbeat true, .deliver false, .deliver false])

theorem trapped_reachable : Reachable pair trapped := play_reachable leading_reachable _

theorem trapped_silent : (trapped.nodes false).phase = .subscribed ∧
    (trapped.nodes false).orchestrator.orchestrationEnabled = true ∧
    (trapped.nodes false).orchestrator.service = some { mode := some .passive } ∧
    (trapped.nodes false).orchestrator.heartbeatSendEnabled = false ∧
    (trapped.nodes false).orchestrator.heartbeats.Alive 100 trapped.block (.address 2) ∧
    ¬ (trapped.nodes false).orchestrator.heartbeats.Alive 100 trapped.block (.address 1) := by
  decide +kernel

theorem silent_stays {f : State Bool ℕ} {service : Service}
    (hservice : (f.nodes false).orchestrator.service = some service)
    (hflag : (f.nodes false).orchestrator.heartbeatSendEnabled = false)
    (hother : (f.nodes false).orchestrator.heartbeats.Alive 100 f.block (.address 2))
    (hself : ¬ (f.nodes false).orchestrator.heartbeats.Alive 100 f.block (.address 1)) :
    ¬ ∀ out s' w', Runs (answering (recovered f.block)) (orchestrateService (pair.config false))
      ((f.nodes false).orchestrator, ()) out (s', w') → s'.heartbeatSendEnabled = true := by
  intro hall
  obtain ⟨out, s', hrun, hoff⟩ := recovered_silent (pair.operator false) rfl hservice
    (by decide) hother hflag hself
  rw [hall out s' () hrun] at hoff
  cases hoff

/-- A node that has been silent for too long counts itself among the dead, and
never asks again whether its service is ready. -/
theorem trapped_stays_silent : ¬ ∀ (F : Operators Bool ℕ) (f : State Bool ℕ), Reachable F f →
    ∀ i, (f.nodes i).phase = .subscribed → (F.config i).serviceMode = "orchestrator" →
    (f.nodes i).orchestrator.orchestrationEnabled = true →
    ∀ other, other ≠ .address (F.config i).nodeKey →
    (f.nodes i).orchestrator.heartbeats.Alive (F.config i).aliveTime f.block other →
    ∀ out s' w', Runs (answering (recovered f.block)) (orchestrateService (F.config i))
      ((f.nodes i).orchestrator, ()) out (s', w') → s'.heartbeatSendEnabled = true := by
  intro hall
  obtain ⟨hphase, horch, hservice, hflag, hother, hself⟩ := trapped_silent
  exact silent_stays hservice hflag hother hself
    (hall pair trapped trapped_reachable false hphase rfl horch (.address 2) (by decide) hother)

end Archipel.Federation
