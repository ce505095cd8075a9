import Archipel.Orchestrator.Rules

/-!
# Readiness and the sending of heartbeats

Two ticks are followed through to the fields they leave. In a stuck tick the
node leads its group on chain, is alive, and its service is not ready. In a
tick that finds the service ready only the heartbeat of the node itself decides
whether the sending of heartbeats is switched on again.
-/

namespace Archipel.Orchestrator
open Async
open Polkadot (Mode)

variable {α W : Type}

/-- What the chain and the service answer in a stuck tick at block `n`. -/
def stuck (config : Config α) (n : ℕ) : (c : Call α) → Except String c.Ret → Prop
  | .canSendTransactions, r => r = .ok true
  | .getBestNumber, r => r = .ok n
  | .isServiceReadyToStart, r => r = .ok false
  | .getLeader _, r => r = .ok (some config.nodeKey)
  | .isLeadedGroup _, r => r = .ok true
  | _, _ => True

def recovered (n : ℕ) : (c : Call α) → Except String c.Ret → Prop
  | .canSendTransactions, r => r = .ok true
  | .getBestNumber, r => r = .ok n
  | .isServiceReadyToStart, r => r = .ok true
  | _, _ => True

/-- The answers are restricted, what the calls do is not. -/
def answering (P : (c : Call α) → Except String c.Ret → Prop) : Env (api α) String W :=
  fun c _ r _ => P c r

theorem stuck_total (config : Config α) (n : ℕ) :
    Env.Total (answering (stuck config n) : Env (api α) String W) := by
  intro c w
  cases c with
  | canSendTransactions | getBestNumber | isServiceReadyToStart | getLeader g | isLeadedGroup g =>
    exact ⟨_, w, rfl⟩
  | isConnected | getPeerId | getPeerNumber | getBestNumberFinalized | getSyncState | getHeartbeat
  | setLeader | addHeartbeat | giveUpLeadership | bootstrap | start | cleanUp
  | checkLaunchedContainer | getInfo | setTimeout => exact ⟨.error "", w, trivial⟩

theorem recovered_total (n : ℕ) :
    Env.Total (answering (recovered n) : Env (api α) String W) := by
  intro c w
  cases c with
  | canSendTransactions | getBestNumber | isServiceReadyToStart => exact ⟨_, w, rfl⟩
  | isConnected | getPeerId | getPeerNumber | getBestNumberFinalized | getSyncState | getLeader
  | isLeadedGroup | getHeartbeat | setLeader | addHeartbeat | giveUpLeadership | bootstrap | start
  | cleanUp | checkLaunchedContainer | getInfo | setTimeout => exact ⟨.error "", w, trivial⟩

/-- The fields a stuck tick leaves. -/
def afterStuck (config : Config α) (mode : Option Mode) (s : State α) : State α :=
  let (serviceReady, s') := readiness config mode false s
  if serviceReady && s'.heartbeatSendEnabled && s'.heartbeatSendEnabledAdmin then s'.inMode .active
  else s'.inMode .passive

section Ticks
variable {E : Env (api α) String W} {config : Config α}

theorem wp_start_last (hrole : config.nodeRole ≠ "noservice") (mode : Mode) {s : State α} {w : W}
    {service : Service} (hs : s.service = some service) {I : State α → Prop}
    (hI : I (s.inMode mode)) :
    wp (demonic E) free (do let _ ← serviceStart config mode : Method α Unit)
      (fun _ y => I y.1) (s, w) := by
  rw [wp_serviceStart_drop (x := (s, w)) hrole mode hs]
  intro r w _
  exact hI

variable [DecidableEq α]

theorem wp_leadershipManagement_leader {n : ℕ} (hE : ∀ c w r w', E c w r w' → stuck config n c r)
    (Q : Except String Bool → State α × W → Prop) (x : State α × W)
    (hQ : ∀ w, Q (.ok true) (x.1, w)) :
    wp (demonic E) free (leadershipManagement config) Q x := by
  unfold leadershipManagement
  rw [wp_bind, wp_call]
  intro r w hr
  rw [show r = .ok (some config.nodeKey) from hE _ _ _ _ hr]
  show wp _ _ (request (.isLeadedGroup config.group) >>= _) _ _
  rw [wp_bind, wp_call]
  intro r w hr
  rw [show r = .ok true from hE _ _ _ _ hr]
  dsimp only
  rw [if_neg (by decide)]
  simp only [leaderText, if_true]
  exact hQ w

theorem wp_stuck {n : ℕ} (hE : ∀ c w r w', E c w r w' → stuck config n c r)
    (hrole : config.nodeRole ≠ "noservice") {s : State α} {w : W} {service : Service}
    (hs : s.service = some service)
    (halive : s.heartbeats.anyOneAlive (.address config.nodeKey) config.aliveTime config.group n
      = true) :
    wp (demonic E) free (orchestrateOperatorService config)
      (fun _ y => y.1 = afterStuck config service.mode s) (s, w) := by
  unfold orchestrateOperatorService
  rw [wp_bind, wp_call]
  intro r w hr
  rw [show r = .ok true from hE _ _ _ _ hr]
  show wp _ _ (request .getBestNumber >>= _) _ _
  rw [wp_bind, wp_call]
  intro r w hr
  rw [show r = .ok n from hE _ _ _ _ hr]
  dsimp only
  rw [wp_get_bind]
  dsimp only
  rw [halive]
  show wp _ _ (serviceReadinessManagement config >>= _) _ _
  rw [wp_bind, wp_serviceReadinessManagement (x := (s, w)) hs]
  intro r w hr
  rw [show r = .ok false from hE _ _ _ _ hr]
  dsimp only
  rw [hs]
  dsimp only
  have hservice : (readiness config service.mode false s).2.service = some service := by
    rw [readiness_service, hs]
  unfold afterStuck
  obtain ⟨ready, s', hread⟩ : ∃ ready s', readiness config service.mode false s = (ready, s') :=
    ⟨_, _, rfl⟩
  rw [hread] at hservice ⊢
  dsimp only at hservice ⊢
  have hlast : ∀ mode w, wp (demonic E) free (do let _ ← serviceStart config mode : Method α Unit)
      (fun _ y => y.1 = s'.inMode mode) (s', w) := fun mode w =>
    wp_start_last (I := (· = s'.inMode mode)) hrole mode hservice rfl
  cases ready with
  | false => exact hlast .passive w
  | true =>
    show wp _ _ (get >>= _) _ _
    rw [wp_get_bind]
    dsimp only
    cases hflag : s'.heartbeatSendEnabled <;> cases hadmin : s'.heartbeatSendEnabledAdmin
    · exact hlast .passive w
    · exact hlast .passive w
    · exact hlast .passive w
    · show wp _ _ (leadershipManagement config >>= _) _ _
      rw [wp_bind]
      apply wp_leadershipManagement_leader hE
      intro w
      show wp _ _ (request (.getLeader config.group) >>= _) _ _
      rw [wp_bind, wp_call]
      intro r w hr
      rw [show r = .ok (some config.nodeKey) from hE _ _ _ _ hr]
      simp only [leaderText, if_true]
      exact hlast .active w

theorem wp_orchestrateService {T : CallSpec (api α) String (State α × W)}
    (hrole : config.nodeRole ≠ "noservice") (hmode : config.serviceMode = "orchestrator")
    (Q : Except String Unit → State α × W → Prop) (x : State α × W) :
    wp T free (orchestrateService config) Q x ↔
      if x.1.orchestrationEnabled then wp T free (orchestrateOperatorService config) Q x
      else Q (.ok ()) x := by
  unfold orchestrateService
  rw [if_neg hrole, wp_get_bind, hmode]
  cases x.1.orchestrationEnabled <;> exact Iff.rfl

end Ticks

/-! ### A leader that cannot serve -/

variable [DecidableEq α]

/-- Stuck ticks one after the other. Between them heartbeats arrive and blocks
are made; in each the node and another node are alive. -/
inductive StuckTicks (config : Config α) : ℕ → State α → State α → Prop
  | none (s : State α) : StuckTicks config 0 s s
  | tick {n bestNumber : ℕ} {s s₁ s₂ : State α} {heartbeats : Heartbeats α}
      {out : Except String Unit} {other : Wallet α}
      (hself : heartbeats.Alive config.aliveTime bestNumber (.address config.nodeKey))
      (hother : heartbeats.Alive config.aliveTime bestNumber other)
      (hne : other ≠ .address config.nodeKey)
      (hrun : Runs (answering (stuck config bestNumber)) (orchestrateService config)
        ({ s with heartbeats := heartbeats }, ()) out (s₁, ()))
      (hrest : StuckTicks config n s₁ s₂) : StuckTicks config (n + 1) s s₂

section Leader
variable {config : Config α}

theorem stuckTicks_succ {n : ℕ} {s s' : State α} {service : Service}
    (hrole : config.nodeRole ≠ "noservice") (hmode : config.serviceMode = "orchestrator")
    (hs : s.service = some service) (h : StuckTicks config (n + 1) s s') :
    ∃ heartbeats s₁, StuckTicks config n s₁ s' ∧
      (s.orchestrationEnabled = false → s₁ = { s with heartbeats := heartbeats }) ∧
      (s.orchestrationEnabled = true →
        s₁ = afterStuck config service.mode { s with heartbeats := heartbeats }) := by
  cases h with
  | @tick _ bestNumber _ s₁ _ heartbeats out other hself hother hne hrun hrest =>
    refine ⟨heartbeats, s₁, hrest, ?_⟩
    have halive := (Heartbeats.anyOneAlive_iff heartbeats (.address config.nodeKey)
      config.aliveTime config.group bestNumber).mpr ⟨⟨other, hne, hother⟩, hself⟩
    constructor
    · intro horch
      have hwp : wp (demonic (answering (stuck config bestNumber))) free (orchestrateService config)
          (fun _ y => y.1 = { s with heartbeats := heartbeats })
          ({ s with heartbeats := heartbeats }, ()) := by
        rw [wp_orchestrateService hrole hmode, if_neg (by simp [horch])]
      exact wp_runs hwp hrun
    · intro horch
      have hwp : wp (demonic (answering (stuck config bestNumber))) free (orchestrateService config)
          (fun _ y => y.1 = afterStuck config service.mode { s with heartbeats := heartbeats })
          ({ s with heartbeats := heartbeats }, ()) := by
        rw [wp_orchestrateService hrole hmode, if_pos (by simp [horch])]
        exact wp_stuck (s := { s with heartbeats := heartbeats }) (fun _ _ _ _ h => h) hrole hs
          halive
      exact wp_runs hwp hrun

section After
omit [DecidableEq α]

theorem afterStuck_idle {mode : Option Mode} (hmode : mode ≠ some .active) (s : State α) :
    afterStuck config mode s = { s with noReadyCount := 0 }.inMode .passive := by
  unfold afterStuck readiness
  rw [if_neg (by simpa using hmode)]
  rfl

theorem afterStuck_waiting {s : State α} (hcount : s.noReadyCount < config.noReadyThreshold) :
    afterStuck config (some .active) s = { s with noReadyCount := s.noReadyCount + 1 }.inMode
      (if s.heartbeatSendEnabled && s.heartbeatSendEnabledAdmin then .active else .passive) := by
  unfold afterStuck readiness
  rw [if_pos (by decide), if_pos hcount]
  dsimp only
  rw [Bool.true_and]
  split <;> rfl

theorem afterStuck_exhausted {s : State α} (hcount : config.noReadyThreshold ≤ s.noReadyCount) :
    afterStuck config (some .active) s =
      { s with heartbeatSendEnabled := false }.inMode .passive := by
  unfold afterStuck readiness
  rw [if_pos (by decide), if_neg (Nat.not_lt.mpr hcount)]
  rfl

theorem afterStuck_silent {mode : Option Mode} {s : State α}
    (hflag : s.heartbeatSendEnabled = false) :
    (afterStuck config mode s).heartbeatSendEnabled = false := by
  by_cases hmode : mode = some .active
  · subst hmode
    rcases Nat.lt_or_ge s.noReadyCount config.noReadyThreshold with hcount | hcount
    · rw [afterStuck_waiting hcount]
      exact hflag
    · rw [afterStuck_exhausted hcount]
      rfl
  · rw [afterStuck_idle hmode]
    exact hflag

theorem afterStuck_service (config : Config α) (mode : Option Mode) (s : State α) :
    ∃ service, (afterStuck config mode s).service = some service := by
  unfold afterStuck
  dsimp only
  split <;> exact ⟨_, rfl⟩

end After

variable (hrole : config.nodeRole ≠ "noservice") (hmode : config.serviceMode = "orchestrator")
include hrole hmode

/-- Nothing switches the sending off while orchestration is off or the service
is not in active mode: a stuck tick then puts or leaves it in passive mode. -/
theorem stuckTicks_sending {n : ℕ} {s s' : State α} {service : Service}
    (h : StuckTicks config n s s') (hs : s.service = some service)
    (hflag : s.heartbeatSendEnabled = true)
    (hidle : s.orchestrationEnabled = true → service.mode ≠ some .active) :
    s'.heartbeatSendEnabled = true := by
  induction n generalizing s service with
  | zero =>
    cases h
    exact hflag
  | succ n ih =>
    obtain ⟨heartbeats, s₁, hrest, hoff, hon⟩ := stuckTicks_succ hrole hmode hs h
    cases horch : s.orchestrationEnabled with
    | false =>
      rw [hoff horch] at hrest
      exact ih hrest hs hflag fun h => absurd (horch.symm.trans h) (by decide)
    | true =>
      rw [hon horch, afterStuck_idle (hidle horch)] at hrest
      exact ih hrest rfl hflag fun _ => by decide

theorem stuckTicks_silent {n : ℕ} {s s' : State α} {service : Service}
    (h : StuckTicks config n s s') (hs : s.service = some service)
    (hflag : s.heartbeatSendEnabled = false) : s'.heartbeatSendEnabled = false := by
  induction n generalizing s service with
  | zero =>
    cases h
    exact hflag
  | succ n ih =>
    obtain ⟨heartbeats, s₁, hrest, hoff, hon⟩ := stuckTicks_succ hrole hmode hs h
    cases horch : s.orchestrationEnabled with
    | false =>
      rw [hoff horch] at hrest
      exact ih hrest hs hflag
    | true =>
      rw [hon horch] at hrest
      obtain ⟨service₁, hservice₁⟩ := afterStuck_service config service.mode
        { s with heartbeats := heartbeats }
      exact ih hrest hservice₁ (afterStuck_silent hflag)

/-- In active mode with both flags set every stuck tick counts, and the one
that finds the counter at its threshold switches the sending off. -/
theorem stuckTicks_exhausted {n : ℕ} {s s' : State α} (h : StuckTicks config n s s')
    (hs : s.service = some { mode := some .active }) (horch : s.orchestrationEnabled = true)
    (hflag : s.heartbeatSendEnabled = true)
    (hadmin : s.heartbeatSendEnabledAdmin = true ∨ config.noReadyThreshold ≤ s.noReadyCount)
    (hn : config.noReadyThreshold + 1 ≤ n + s.noReadyCount) (hpos : 0 < n) :
    s'.heartbeatSendEnabled = false := by
  induction n generalizing s with
  | zero => exact absurd hpos (Nat.lt_irrefl 0)
  | succ n ih =>
    obtain ⟨heartbeats, s₁, hrest, hoff, hon⟩ := stuckTicks_succ hrole hmode hs h
    rw [hon horch] at hrest
    rcases Nat.lt_or_ge s.noReadyCount config.noReadyThreshold with hcount | hcount
    · have hadmin' : s.heartbeatSendEnabledAdmin = true := by
        rcases hadmin with hadmin | hge
        · exact hadmin
        · omega
      have hactive : (if s.heartbeatSendEnabled && s.heartbeatSendEnabledAdmin then Mode.active
          else Mode.passive) = .active := if_pos (by rw [hflag, hadmin', Bool.and_self])
      rw [afterStuck_waiting (s := { s with heartbeats := heartbeats }) hcount, hactive] at hrest
      have hn' : config.noReadyThreshold + 1 ≤ n + (s.noReadyCount + 1) := by omega
      exact ih hrest rfl horch hflag (.inl hadmin') hn' (by omega)
    · rw [afterStuck_exhausted (s := { s with heartbeats := heartbeats }) hcount] at hrest
      exact stuckTicks_silent hrole hmode hrest rfl rfl

end Leader

theorem stuckTicks_exists (config : Config α) (n : ℕ) (s : State α) (heartbeats : Heartbeats α)
    (bestNumber : ℕ) (other : Wallet α) (hne : other ≠ .address config.nodeKey)
    (hself : ∀ i < n, heartbeats.Alive config.aliveTime (bestNumber + i) (.address config.nodeKey))
    (hother : ∀ i < n, heartbeats.Alive config.aliveTime (bestNumber + i) other) :
    ∃ s', StuckTicks config n s s' := by
  induction n generalizing s bestNumber with
  | zero => exact ⟨s, .none s⟩
  | succ n ih =>
    obtain ⟨out, ⟨s₁, _⟩, hrun⟩ := runs_exists (answering (stuck config bestNumber))
      (stuck_total config bestNumber) (orchestrateService config)
      ({ s with heartbeats := heartbeats }, ())
    have hlater : ∀ wallet,
        (∀ i < n + 1, heartbeats.Alive config.aliveTime (bestNumber + i) wallet) →
        ∀ i < n, heartbeats.Alive config.aliveTime (bestNumber + 1 + i) wallet := by
      intro wallet h i hi
      rw [Nat.add_assoc, Nat.add_comm 1 i]
      exact h (i + 1) (by omega)
    obtain ⟨s', hrest⟩ := ih s₁ (bestNumber + 1) (hlater _ hself) (hlater _ hother)
    exact ⟨s', .tick (hself 0 (by omega)) (hother 0 (by omega)) hne hrun hrest⟩

theorem bothAlive_alive {wallet : Wallet ℕ} (hwallet : wallet = .address 1 ∨ wallet = .address 2)
    {n : ℕ} (hn : n < 100) : bothAlive.Alive 100 (1 + n) wallet := by
  have hlookup : ∃ value, bothAlive.getHeartbeat wallet = some value ∧ value.blockNumber = 1 := by
    rcases hwallet with rfl | rfl
    · exact ⟨_, rfl, rfl⟩
    · exact ⟨_, rfl, rfl⟩
  obtain ⟨value, hvalue, hblock⟩ := hlookup
  refine ⟨value, hvalue, (Heartbeats.isAlive_iff _ _ _).mpr ⟨?_, ?_⟩⟩
  · omega
  · omega

/-! ### A node whose heartbeats were switched off -/

section Silent
variable {E : Env (api α) String W} {config : Config α}

/-- A tick that finds the service ready switches the sending on if and only if
the node counts itself among the living. -/
theorem wp_recovered {n : ℕ} (hE : ∀ c w r w', E c w r w' → recovered n c r)
    (hrole : config.nodeRole ≠ "noservice") {s : State α} {w : W} {service : Service}
    (hs : s.service = some service) {other : Wallet α} (hne : other ≠ .address config.nodeKey)
    (hother : s.heartbeats.Alive config.aliveTime n other) :
    wp (demonic E) free (orchestrateOperatorService config)
      (fun _ y => y.1.heartbeatSendEnabled = true ↔ s.heartbeatSendEnabled = true ∨
        s.heartbeats.Alive config.aliveTime n (.address config.nodeKey)) (s, w) := by
  unfold orchestrateOperatorService
  rw [wp_bind, wp_call]
  intro r w hr
  rw [show r = .ok true from hE _ _ _ _ hr]
  show wp _ _ (request .getBestNumber >>= _) _ _
  rw [wp_bind, wp_call]
  intro r w hr
  rw [show r = .ok n from hE _ _ _ _ hr]
  dsimp only
  rw [wp_get_bind]
  dsimp only
  by_cases hself : s.heartbeats.Alive config.aliveTime n (.address config.nodeKey)
  · have hany := (Heartbeats.anyOneAlive_iff s.heartbeats (.address config.nodeKey)
      config.aliveTime config.group n).mpr ⟨⟨other, hne, hother⟩, hself⟩
    rw [hany]
    let I : State α → Prop := fun t => t.heartbeatSendEnabled = true ↔
      s.heartbeatSendEnabled = true ∨
        s.heartbeats.Alive config.aliveTime n (.address config.nodeKey)
    have hI : ∀ t, t.heartbeatSendEnabled = true → I t := fun t ht =>
      iff_of_true ht (.inr hself)
    show wp _ _ (serviceReadinessManagement config >>= _) _ _
    rw [wp_bind, wp_serviceReadinessManagement (x := (s, w)) hs]
    intro r w hr
    rw [show r = .ok true from hE _ _ _ _ hr]
    dsimp only
    rw [hs]
    have hready : readiness config service.mode true s =
        (true, { s with heartbeatSendEnabled := true, noReadyCount := 0 }) := rfl
    dsimp only
    rw [hready]
    show wp _ _ (get >>= _) (fun _ y => I y.1) _
    rw [wp_get_bind]
    split
    · have hstart : Maintains (A := api α) I
          (do let _ ← serviceStart config .passive : Method α Unit) :=
        maintains_bind (maintains_serviceStart .passive fun _ h => h) fun _ => trivial
      exact wp_maintains hstart _ (hI _ rfl)
    · exact wp_maintains (maintains_lead (fun _ _ h => h) fun _ _ h => h) _ (hI _ rfl)
  · rw [Heartbeats.anyOneAlive_dead hself]
    exact wp_start_last (I := fun t => t.heartbeatSendEnabled = true ↔ _) hrole .passive hs
      ⟨.inl, fun h => h.resolve_right hself⟩

theorem wp_recovered_tick {n : ℕ} (hE : ∀ c w r w', E c w r w' → recovered n c r)
    (hrole : config.nodeRole ≠ "noservice") (hmode : config.serviceMode = "orchestrator")
    {s : State α} {w : W} {service : Service} (hs : s.service = some service) {other : Wallet α}
    (hne : other ≠ .address config.nodeKey) (hother : s.heartbeats.Alive config.aliveTime n other) :
    wp (demonic E) free (orchestrateService config)
      (fun _ y => y.1.heartbeatSendEnabled = true ↔ s.heartbeatSendEnabled = true ∨
        (s.orchestrationEnabled = true ∧
          s.heartbeats.Alive config.aliveTime n (.address config.nodeKey))) (s, w) := by
  rw [wp_orchestrateService hrole hmode]
  dsimp only
  cases horch : s.orchestrationEnabled with
  | false => simp
  | true => simpa using wp_recovered hE hrole hs hne hother

theorem recovered_silent {n : ℕ} (hrole : config.nodeRole ≠ "noservice")
    (hmode : config.serviceMode = "orchestrator") {s : State α} {service : Service}
    (hs : s.service = some service) {other : Wallet α} (hne : other ≠ .address config.nodeKey)
    (hother : s.heartbeats.Alive config.aliveTime n other) (hflag : s.heartbeatSendEnabled = false)
    (hself : ¬ s.heartbeats.Alive config.aliveTime n (.address config.nodeKey)) :
    ∃ out s', Runs (answering (recovered n)) (orchestrateService config) (s, ()) out (s', ()) ∧
      s'.heartbeatSendEnabled = false := by
  obtain ⟨out, ⟨s', _⟩, hrun⟩ := runs_exists (answering (recovered n)) (recovered_total n)
    (orchestrateService config) (s, ())
  refine ⟨out, s', hrun, ?_⟩
  have hon := wp_runs (wp_recovered_tick (fun _ _ _ _ h => h) hrole hmode hs hne hother) hrun
  rw [Bool.eq_false_iff]
  intro hs'
  rcases hon.mp hs' with h | h
  · rw [hflag] at h
    cases h
  · exact hself h.2

end Silent

end Archipel.Orchestrator
