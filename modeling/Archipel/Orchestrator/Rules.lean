import Archipel.Orchestrator.Basic

/-!
# What the methods of the orchestrator await

One equation a method: its weakest precondition in terms of the calls it
awaits, for any specification of the calls. The node is an operator node, so
its service object is present.
-/

namespace Archipel.Orchestrator
open Async
open Polkadot (Mode)

variable {α W : Type} {T : CallSpec (api α) String (State α × W)}

theorem spec_congr {c : Call α} {P P' : Except String c.Ret → State α × W → Prop}
    {x : State α × W} (h : ∀ r y, P r y ↔ P' r y) : T c P x ↔ T c P' x := by
  have hP : P = P' := funext fun r => funext fun y => propext (h r y)
  rw [hP]

def State.inMode (s : State α) (mode : Mode) : State α :=
  { s with service := some { mode := some mode } }

theorem wp_theService (Q : Except String Service → State α × W → Prop) (x : State α × W) :
    wp T free theService Q x ↔ match x.1.service with
      | some service => Q (.ok service) x
      | none => Q (.error undefinedService) x := by
  show wp T free (match x.1.service with
    | some service => pure service
    | none => throw undefinedService) Q x ↔ _
  cases x.1.service <;> exact Iff.rfl

theorem wp_serviceStart {config : Config α} (hrole : config.nodeRole ≠ "noservice") (mode : Mode)
    {x : State α × W} {service : Service} (hx : x.1.service = some service)
    (Q : Except String Bool → State α × W → Prop) :
    wp T free (serviceStart config mode) Q x ↔ T (.start mode) Q (x.1.inMode mode, x.2) := by
  unfold serviceStart
  rw [if_neg hrole, wp_bind, wp_theService, hx]
  show wp T free (modify _ >>= _) Q x ↔ _
  rw [wp_modify_bind, wp_call]
  exact and_iff_right trivial

theorem wp_serviceStart_drop {config : Config α} (hrole : config.nodeRole ≠ "noservice")
    (mode : Mode) {x : State α × W} {service : Service} (hx : x.1.service = some service)
    (Q : Except String Unit → State α × W → Prop) :
    wp T free (do let _ ← serviceStart config mode) Q x ↔
      T (.start mode) (fun r y => Q (r.map fun _ => ()) y) (x.1.inMode mode, x.2) := by
  rw [wp_bind, wp_serviceStart hrole mode hx]
  apply iff_of_eq
  congr
  funext r y
  cases r <;> rfl

/-- What `serviceReadinessManagement` makes of the answer of the service. -/
def readiness (config : Config α) (mode : Option Mode) (serviceReady : Bool) (s : State α) :
    Bool × State α :=
  if !serviceReady && mode = some .active then
    if s.noReadyCount < config.noReadyThreshold then
      (true, { s with noReadyCount := s.noReadyCount + 1 })
    else (false, { s with heartbeatSendEnabled := false })
  else
    (serviceReady, { s with
      heartbeatSendEnabled := serviceReady || s.heartbeatSendEnabled
      noReadyCount := 0 })

theorem wp_serviceReadinessManagement {config : Config α} {x : State α × W} {service : Service}
    (hx : x.1.service = some service) (Q : Except String Bool → State α × W → Prop) :
    wp T free (serviceReadinessManagement config) Q x ↔
      T .isServiceReadyToStart (fun r y => match r with
        | .error e => Q (.error e) y
        | .ok ready => match y.1.service with
          | none => Q (.error undefinedService) y
          | some service =>
            Q (.ok (readiness config service.mode ready y.1).1)
              ((readiness config service.mode ready y.1).2, y.2)) x := by
  unfold serviceReadinessManagement serviceReady
  rw [wp_bind, wp_bind, wp_theService, hx]
  dsimp only
  rw [wp_call]
  refine spec_congr (T := T) (c := .isServiceReadyToStart) fun r y => ?_
  cases r with
  | error e => exact Iff.rfl
  | ok ready =>
    dsimp only
    rw [wp_bind, wp_theService]
    cases y.1.service with
    | none => exact Iff.rfl
    | some service =>
      dsimp only
      rw [wp_get_bind]
      unfold readiness
      split
      · split
        · rw [wp_modify_bind]
          exact and_iff_right trivial
        · rw [wp_modify_bind]
          exact and_iff_right trivial
      · rw [wp_modify_bind, wp_modify_bind]
        have hs : ∀ s : State α, { (if ready && !s.heartbeatSendEnabled then
            { s with heartbeatSendEnabled := true } else s) with noReadyCount := 0 } =
            { s with
              heartbeatSendEnabled := ready || s.heartbeatSendEnabled, noReadyCount := 0 } := by
          intro ⟨_, _, _, _, flag, _, _⟩
          cases ready <;> cases flag <;> rfl
        dsimp only
        rw [hs]
        exact ⟨fun h => h.2.2, fun h => ⟨trivial, trivial, h⟩⟩

@[simp] theorem readiness_heartbeats (config : Config α) (mode : Option Mode) (ready : Bool)
    (s : State α) : (readiness config mode ready s).2.heartbeats = s.heartbeats := by
  unfold readiness
  split
  · split <;> rfl
  · rfl

@[simp] theorem readiness_service (config : Config α) (mode : Option Mode) (ready : Bool)
    (s : State α) : (readiness config mode ready s).2.service = s.service := by
  unfold readiness
  split
  · split <;> rfl
  · rfl

@[simp] theorem readiness_noLiveness (config : Config α) (mode : Option Mode) (ready : Bool)
    (s : State α) :
    (readiness config mode ready s).2.noLivenessFromLeader = s.noLivenessFromLeader := by
  unfold readiness
  split
  · split <;> rfl
  · rfl

@[simp] theorem readiness_admin (config : Config α) (mode : Option Mode) (ready : Bool)
    (s : State α) :
    (readiness config mode ready s).2.heartbeatSendEnabledAdmin = s.heartbeatSendEnabledAdmin := by
  unfold readiness
  split
  · split <;> rfl
  · rfl

/-! ### The calls each method may make -/

section Calls
variable {p : Call α → Prop} {config : Config α}

theorem onlyCalls_theService : OnlyCalls (A := api α) p (theService : Method α Service) := by
  refine onlyCalls_bind onlyCalls_get fun s => ?_
  cases s.service <;> trivial

theorem onlyCalls_serviceStart (mode : Mode) (hp : p (.start mode)) :
    OnlyCalls (A := api α) p (serviceStart config mode) := by
  unfold serviceStart
  split
  · trivial
  · exact onlyCalls_bind onlyCalls_theService fun _ =>
      onlyCalls_bind (onlyCalls_modify _) fun _ => onlyCalls_call hp

theorem onlyCalls_start_drop (mode : Mode) (hp : p (.start mode)) : OnlyCalls (A := api α) p
    (do let _ ← serviceStart config mode : Method α Unit) :=
  onlyCalls_bind (onlyCalls_serviceStart mode hp) fun _ => trivial

theorem onlyCalls_serviceCleanUp (hp : p .cleanUp) :
    OnlyCalls (A := api α) p (serviceCleanUp config) := by
  unfold serviceCleanUp
  split
  · trivial
  · exact onlyCalls_bind onlyCalls_theService fun _ => onlyCalls_call hp

theorem onlyCalls_serviceReadinessManagement (hp : p .isServiceReadyToStart) :
    OnlyCalls (A := api α) p (serviceReadinessManagement config) := by
  have hready : OnlyCalls (A := api α) p (serviceReady : Method α Bool) :=
    onlyCalls_bind onlyCalls_theService fun _ => onlyCalls_call hp
  refine onlyCalls_bind hready fun ready => ?_
  refine onlyCalls_bind onlyCalls_theService fun service => ?_
  refine onlyCalls_bind onlyCalls_get fun s => ?_
  split
  · split
    · exact onlyCalls_bind (onlyCalls_modify _) fun _ => trivial
    · exact onlyCalls_bind (onlyCalls_modify _) fun _ => trivial
  · exact onlyCalls_bind (onlyCalls_modify _) fun _ =>
      onlyCalls_bind (onlyCalls_modify _) fun _ => trivial

theorem onlyCalls_becomeLeader (oldLeader : Wallet α) (hset : p (.setLeader oldLeader config.group))
    (hwait : ∀ ms, p (.setTimeout ms)) :
    OnlyCalls (A := api α) p (becomeLeader config oldLeader) := by
  refine onlyCalls_bind (onlyCalls_call hset) fun setLeader => ?_
  split
  · exact onlyCalls_bind (onlyCalls_call (hwait _)) fun _ => trivial
  · trivial

variable [DecidableEq α]

theorem onlyCalls_otherLeaderAction (currentLeader : Wallet α)
    (hset : p (.setLeader currentLeader config.group)) (hbest : p .getBestNumber)
    (hwait : ∀ ms, p (.setTimeout ms)) :
    OnlyCalls (A := api α) p (otherLeaderAction config currentLeader) := by
  refine onlyCalls_bind onlyCalls_get fun s => ?_
  dsimp only
  split
  · split
    · exact onlyCalls_bind (onlyCalls_modify _) fun _ => trivial
    · exact onlyCalls_bind (onlyCalls_modify _) fun _ =>
        onlyCalls_becomeLeader currentLeader hset hwait
  · refine onlyCalls_bind (onlyCalls_call hbest) fun bestNumber => ?_
    split
    · exact onlyCalls_becomeLeader currentLeader hset hwait
    · trivial

theorem onlyCalls_leadershipManagement (hleader : p (.getLeader config.group))
    (hled : p (.isLeadedGroup config.group)) (hset : ∀ old, p (.setLeader old config.group))
    (hbest : p .getBestNumber) (hwait : ∀ ms, p (.setTimeout ms)) :
    OnlyCalls (A := api α) p (leadershipManagement config) := by
  refine onlyCalls_bind (onlyCalls_call hleader) fun currentLeader => ?_
  refine onlyCalls_bind (onlyCalls_call hled) fun isLeadedGroup => ?_
  dsimp only
  split
  · exact onlyCalls_becomeLeader _ (hset _) hwait
  · split
    · trivial
    · exact onlyCalls_otherLeaderAction _ (hset _) hbest hwait

end Calls

/-! ### What the methods do to the fields -/

section Fields
variable {I : State α → Prop} {config : Config α}

theorem maintains_theService : Maintains (A := api α) I (theService : Method α Service) := by
  refine maintains_get_bind fun s _ => ?_
  cases s.service <;> trivial

theorem maintains_serviceStart (mode : Mode) (hI : ∀ s, I s → I (s.inMode mode)) :
    Maintains (A := api α) I (serviceStart config mode) := by
  unfold serviceStart
  split
  · trivial
  · exact maintains_bind maintains_theService fun _ =>
      maintains_bind (maintains_modify hI) fun _ => maintains_call _

theorem maintains_start_drop (mode : Mode) (hI : ∀ s, I s → I (s.inMode mode)) :
    Maintains (A := api α) I (do let _ ← serviceStart config mode : Method α Unit) :=
  maintains_bind (maintains_serviceStart mode hI) fun _ => trivial

theorem maintains_serviceReadinessManagement
    (hflag : ∀ s flag, I s → I { s with heartbeatSendEnabled := flag })
    (hcount : ∀ s count, I s → I { s with noReadyCount := count }) :
    Maintains (A := api α) I (serviceReadinessManagement config) := by
  have hready : Maintains (A := api α) I (serviceReady : Method α Bool) :=
    maintains_bind maintains_theService fun _ => maintains_call _
  refine maintains_bind hready fun ready => ?_
  refine maintains_bind maintains_theService fun service => ?_
  refine maintains_get_bind fun s _ => ?_
  split
  · split
    · exact maintains_bind (maintains_modify fun s hs => hcount s _ hs) fun _ => trivial
    · exact maintains_bind (maintains_modify fun s hs => hflag s _ hs) fun _ => trivial
  · refine maintains_bind (maintains_modify fun s hs => ?_) fun _ =>
      maintains_bind (maintains_modify fun s hs => hcount s _ hs) fun _ => trivial
    split
    · exact hflag s _ hs
    · exact hs

theorem maintains_serviceCleanUp : Maintains (A := api α) I (serviceCleanUp config) := by
  unfold serviceCleanUp
  split
  · trivial
  · exact maintains_bind maintains_theService fun _ => maintains_call _

theorem maintains_becomeLeader (oldLeader : Wallet α) :
    Maintains (A := api α) I (becomeLeader config oldLeader) := by
  refine maintains_bind (maintains_call _) fun setLeader => ?_
  split
  · exact maintains_bind (maintains_call _) fun _ => trivial
  · trivial

variable [DecidableEq α]

theorem maintains_leadershipManagement
    (hI : ∀ s n, I s → I { s with noLivenessFromLeader := n }) :
    Maintains (A := api α) I (leadershipManagement config) := by
  refine maintains_bind (maintains_call _) fun currentLeader => ?_
  refine maintains_bind (maintains_call _) fun isLeadedGroup => ?_
  dsimp only
  split
  · exact maintains_becomeLeader _
  · split
    · trivial
    · refine maintains_get_bind fun s _ => ?_
      dsimp only
      split
      · split
        · exact maintains_bind (maintains_modify fun s hs => hI s _ hs) fun _ => trivial
        · exact maintains_bind (maintains_modify fun s hs => hI s _ hs) fun _ =>
            maintains_becomeLeader _
      · refine maintains_bind (maintains_call _) fun bestNumber => ?_
        split
        · exact maintains_becomeLeader _
        · trivial

theorem maintains_lead (hI : ∀ s n, I s → I { s with noLivenessFromLeader := n })
    (hI' : ∀ s mode, I s → I (s.inMode mode)) :
    Maintains (A := api α) I (do
      let leadership ← leadershipManagement config
      if !leadership then do
        let _ ← serviceStart config .passive
      else do
        let currentLeader : Option α ← request (.getLeader config.group)
        if leaderText currentLeader = Wallet.address config.nodeKey then do
          let _ ← serviceStart config .active
        else
          pure ()) := by
  have hstart : ∀ mode, Maintains (A := api α) I
      (do let _ ← serviceStart config mode : Method α Unit) := fun mode =>
    maintains_start_drop mode fun s hs => hI' s mode hs
  refine maintains_bind (maintains_leadershipManagement hI) fun leadership => ?_
  split
  · exact hstart .passive
  · refine maintains_bind (maintains_call _) fun currentLeader => ?_
    split
    · exact hstart .active
    · trivial

end Fields

/-! ### The service object stays -/

section Service
variable {config : Config α}

abbrev HasService (s : State α) : Prop := s.service.isSome = true

theorem hasService_serviceStart (mode : Mode) :
    Maintains (A := api α) HasService (serviceStart config mode) :=
  maintains_serviceStart mode fun _ _ => rfl

theorem hasService_start_drop (mode : Mode) : Maintains (A := api α) HasService
    (do let _ ← serviceStart config mode : Method α Unit) :=
  maintains_start_drop mode fun _ _ => rfl

theorem hasService_serviceReadinessManagement :
    Maintains (A := api α) HasService (serviceReadinessManagement config) :=
  maintains_serviceReadinessManagement (fun _ _ h => h) fun _ _ h => h

variable [DecidableEq α]

theorem hasService_orchestrateOperatorService :
    Maintains (A := api α) HasService (orchestrateOperatorService config) := by
  refine maintains_bind (maintains_call _) fun sendTransaction => ?_
  split
  · exact hasService_start_drop .passive
  refine maintains_bind (maintains_call _) fun bestNumber => ?_
  refine maintains_get_bind fun s _ => ?_
  split
  · exact hasService_start_drop .passive
  refine maintains_bind hasService_serviceReadinessManagement fun serviceReady => ?_
  split
  · exact hasService_start_drop .passive
  refine maintains_get_bind fun s _ => ?_
  split
  · exact hasService_start_drop .passive
  · exact maintains_lead (fun _ _ h => h) fun _ _ _ => rfl

theorem hasService_forceActive : Maintains (A := api α) HasService (forceActive config) := by
  have hactive : Maintains (A := api α) HasService (do
      let _ ← serviceStart config .active
      pure true : Method α Bool) :=
    maintains_bind (hasService_serviceStart .active) fun _ => trivial
  unfold forceActive
  split
  · trivial
  refine maintains_bind (maintains_call _) fun currentLeader => ?_
  split
  · exact hactive
  refine maintains_bind (maintains_call _) fun isLeadedGroup => ?_
  refine maintains_bind (maintains_becomeLeader _) fun becomeLeaderResult => ?_
  split
  · refine maintains_bind (maintains_call _) fun currentLeader => ?_
    split
    · exact hactive
    · trivial
  · trivial

theorem hasService_orchestrateService :
    Maintains (A := api α) HasService (orchestrateService config) := by
  unfold orchestrateService
  split
  · trivial
  refine maintains_get_bind fun s _ => ?_
  split
  · trivial
  split
  · exact hasService_orchestrateOperatorService
  split
  · exact hasService_start_drop .passive
  split
  · exact maintains_bind hasService_forceActive fun _ => trivial
  · trivial

theorem hasService_orchestrationLoop :
    Maintains (A := api α) HasService (orchestrationLoop config) :=
  maintains_tryCatch hasService_orchestrateService fun _ => trivial

theorem hasService_onEvent (event : Pallet.Event α) :
    Maintains (A := api α) HasService (onEvent config event) := by
  cases event with
  | newLeader who groupId =>
    show Maintains _ (if _ then _ else _)
    split
    · exact hasService_start_drop .passive
    · trivial
  | newHeartbeat who groupId nodeStatus now => exact maintains_modify fun _ h => h
  | giveUpLeader who groupId => trivial

theorem hasService_fillHeartbeatsFromChain (wallets : List (Wallet α)) :
    Maintains (A := api α) HasService (fillHeartbeatsFromChain wallets) := by
  induction wallets with
  | nil => trivial
  | cons wallet wallets ih =>
    exact maintains_bind (maintains_call _) fun _ =>
      maintains_bind (maintains_modify fun _ h => h) fun _ => ih

theorem hasService_bootstrapOrchestrator :
    Maintains (A := api α) HasService (bootstrapOrchestrator config) := by
  unfold bootstrapOrchestrator
  split
  · trivial
  refine maintains_bind maintains_serviceCleanUp fun _ => ?_
  refine maintains_bind maintains_theService fun _ => ?_
  refine maintains_bind (maintains_call _) fun _ => ?_
  refine maintains_bind (hasService_serviceStart .passive) fun serviceStart => ?_
  split
  · trivial
  · exact hasService_fillHeartbeatsFromChain _

omit [DecidableEq α] in
theorem hasService_init (hrole : config.nodeRole ≠ "noservice") :
    HasService (State.init config) := by
  unfold HasService State.init
  rw [if_neg hrole]
  rfl

end Service

end Archipel.Orchestrator
