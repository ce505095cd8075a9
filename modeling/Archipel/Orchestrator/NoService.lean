import Archipel.Async.Agree
import Archipel.Chain.Nonce
import Archipel.Orchestrator.Info

/-!
# A node without service

A node with the role 'noservice' has no service object. Whatever its timers, its
listener and its API launch, in any order and with any answers, it makes no call
on a service, none that changes the leadership, and the heartbeats that it sends
carry the status 0. It does not look for the service object: its flows do the
same whether there is one or not.
-/

namespace Archipel.Orchestrator
open Async
open Polkadot (Mode)

variable {α : Type}

/-! ### The calls of a node without service -/

/-- The only transactions are heartbeats of the group with the status 0. -/
def StatusZero (groupId : UInt32) : Chain.Call α → Prop
  | .send transaction => transaction.call = .addHeartbeat groupId 0
  | _ => True

def Permitted (config : Config α) : Call α → Prop
  | .addHeartbeat mode groupId => groupId = config.group ∧ ∀ key,
      OnlyCalls (A := Chain.api α) (StatusZero groupId) (Chain.addHeartbeat mode key groupId)
  | .setLeader _ _ => False
  | .giveUpLeadership _ => False
  | .bootstrap => False
  | .start _ => False
  | .cleanUp => False
  | .isServiceReadyToStart => False
  | .checkLaunchedContainer => False
  | .getInfo => False
  | _ => True

theorem statusZero_quiet {groupId : UInt32} {c : Chain.Call α} (hc : c.quiet = true) :
    StatusZero groupId c := by
  cases c with
  | send transaction => cases hc
  | isConnected | bestNumber | bestNumberFinalized | health | leaders | leadedGroup | heartbeats
  | account | setTimeout | never => trivial

theorem statusZero_addHeartbeat {mode : String} (hmode : Chain.fromModeToNodeStatus mode = 0)
    (key : α) (groupId : UInt32) :
    OnlyCalls (A := Chain.api α) (StatusZero groupId) (Chain.addHeartbeat mode key groupId) := by
  unfold Chain.addHeartbeat
  refine onlyCalls_bind (onlyCalls_mono (fun _ => statusZero_quiet)
    Chain.quiet_canSendTransactions) fun sendTransaction => ?_
  split
  · refine onlyCalls_bind (onlyCalls_call trivial) fun nonce => ?_
    refine onlyCalls_bind (onlyCalls_call ?_) fun updates => ?_
    · show Pallet.Call.addHeartbeat groupId (Chain.fromModeToNodeStatus mode) = _
      rw [hmode]
    · split
      · trivial
      · exact onlyCalls_bind (onlyCalls_call trivial) fun never => nomatch never
  · trivial

/-! ### Methods that do not touch the service -/

/-- The fields are the same, but perhaps for the service object. -/
def SameButService (s s' : State α) : Prop := s' = { s with service := s'.service }

theorem SameButService.refl (s : State α) : SameButService s s := rfl

/-- The method makes permitted calls only, does the same whether there is a
service object or not, and makes none. -/
structure Untouching {β : Type} (config : Config α) (m : Method α β) : Prop where
  calls : OnlyCalls (A := api α) (Permitted config) m
  blind : Agree (A := api α) SameButService m m
  service : Maintains (A := api α) (fun s => s.service = none) m

section Untouching
variable {β γ : Type} {config : Config α}

theorem untouching_pure (b : β) : Untouching config (pure b : Method α β) :=
  ⟨trivial, agree_pure b, trivial⟩

theorem untouching_fail (e : String) : Untouching config (throw e : Method α β) :=
  ⟨trivial, rfl, trivial⟩

theorem untouching_bind {m : Method α β} {f : β → Method α γ} (hm : Untouching config m)
    (hf : ∀ b, Untouching config (f b)) : Untouching config (m >>= f) where
  calls := onlyCalls_bind hm.calls fun b => (hf b).calls
  blind := agree_bind hm.blind fun b => (hf b).blind
  service := maintains_bind hm.service fun b => (hf b).service

theorem untouching_tryCatch {m : Method α β} {h : String → Method α β}
    (hm : Untouching config m) (hh : ∀ e, Untouching config (h e)) :
    Untouching config (tryCatch m h) where
  calls := onlyCalls_tryCatch hm.calls fun e => (hh e).calls
  blind := agree_tryCatch hm.blind fun e => (hh e).blind
  service := maintains_tryCatch hm.service fun e => (hh e).service

theorem untouching_request {c : Call α} (hc : Permitted config c) :
    Untouching config (request c) := 
  ⟨onlyCalls_call hc, agree_call (A := api α) c, maintains_call (A := api α) c⟩

theorem untouching_get_bind {f : State α → Method α β}
    (hsame : ∀ s service, f { s with service := service } = f s)
    (hf : ∀ s, Untouching config (f s)) : Untouching config (get >>= f) where
  calls := onlyCalls_bind onlyCalls_get fun s => (hf s).calls
  blind := by
    refine agree_get_bind fun s s' hs => ?_
    have heq : f s' = f s := by
      rw [hs]
      exact hsame s s'.service
    rw [heq]
    exact (hf s).blind
  service := maintains_get_bind fun s _ => (hf s).service

theorem untouching_modify {f : State α → State α}
    (hsame : ∀ s service, f { s with service := service } = { f s with service := service })
    (hservice : ∀ s, (f s).service = s.service) : Untouching config (modify f) where
  calls := onlyCalls_modify f
  blind := by
    refine agree_modify fun s s' hs => ?_
    unfold SameButService
    rw [hservice s']
    conv_lhs => rw [hs]
    exact hsame s s'.service
  service := maintains_modify fun s hs => (hservice s).trans hs

end Untouching

/-! ### The entry points -/

section Methods
variable {config : Config α} (hrole : config.nodeRole = "noservice")
include hrole

theorem untouching_serviceStart (mode : Mode) : Untouching config (serviceStart config mode) := by
  rw [show serviceStart config mode = pure false from if_pos hrole]
  exact untouching_pure false

theorem untouching_serviceCleanUp : Untouching config (serviceCleanUp config) := by
  rw [show serviceCleanUp config = pure false from if_pos hrole]
  exact untouching_pure false

theorem getServiceMode_noservice : getServiceMode config = pure "noservice" := if_pos hrole

theorem untouching_heartbeatLoop : Untouching config (heartbeatLoop config) := by
  refine untouching_tryCatch (untouching_get_bind (fun _ _ => rfl) fun s => ?_) fun _ =>
    untouching_pure ()
  split
  · exact untouching_pure ()
  rw [getServiceMode_noservice hrole, pure_bind]
  have hpermitted : Permitted config (.addHeartbeat "noservice" config.group) :=
    ⟨rfl, fun key => statusZero_addHeartbeat (by decide) key config.group⟩
  exact untouching_bind (untouching_request hpermitted) fun _ => untouching_pure ()

theorem untouching_disableOrchestration : Untouching config (disableOrchestration config) := by
  refine untouching_get_bind (fun _ _ => rfl) fun s => ?_
  split
  · refine untouching_bind (untouching_modify (fun _ _ => rfl) fun _ => rfl) fun _ => ?_
    refine untouching_bind (untouching_request trivial) fun _ => ?_
    exact untouching_bind (untouching_serviceStart hrole .passive) fun _ => untouching_pure true
  · exact untouching_pure false

theorem untouching_getOrchestratorInfo (localeCompare : String → String → Ordering) :
    Untouching config (getOrchestratorInfo config localeCompare) := by
  unfold getOrchestratorInfo
  refine untouching_bind (untouching_request trivial) fun isConnected => ?_
  refine untouching_bind (untouching_request trivial) fun peerId => ?_
  refine untouching_bind (untouching_request trivial) fun peerNumber => ?_
  refine untouching_bind (untouching_request trivial) fun bestNumber => ?_
  refine untouching_bind (untouching_request trivial) fun bestNumberFinalized => ?_
  refine untouching_bind (untouching_request trivial) fun synchState => ?_
  refine untouching_bind (untouching_request trivial) fun leader => ?_
  refine untouching_get_bind (fun _ _ => rfl) fun s => ?_
  dsimp only
  rw [if_pos hrole]
  exact untouching_pure _

variable [DecidableEq α]

theorem untouching_bootstrapOrchestrator : Untouching config (bootstrapOrchestrator config) := by
  rw [show bootstrapOrchestrator config = pure () from if_pos hrole]
  exact untouching_pure ()

theorem untouching_forceActive : Untouching config (forceActive config) := by
  rw [show forceActive config = pure false from if_pos hrole]
  exact untouching_pure false

theorem untouching_orchestrateService : Untouching config (orchestrateService config) := by
  rw [show orchestrateService config = pure () from if_pos hrole]
  exact untouching_pure ()

theorem untouching_onEvent (event : Pallet.Event α) : Untouching config (onEvent config event) := by
  cases event with
  | newLeader who groupId =>
    show Untouching config (if _ then _ else _)
    split
    · exact untouching_bind (untouching_serviceStart hrole .passive) fun _ => untouching_pure ()
    · exact untouching_pure ()
  | newHeartbeat who groupId nodeStatus now =>
    exact untouching_modify (fun _ _ => rfl) fun _ => rfl
  | giveUpLeader who groupId => exact untouching_pure ()

end Methods

/-- What may be launched on a node: the loops, the listener and the methods that
they and the routes call. -/
inductive Entry (α : Type) where
  | bootstrapOrchestrator
  | orchestrateService
  | orchestrationLoop
  | onEvent (event : Pallet.Event α)
  | heartbeatLoop
  | forceActive
  | serviceStart (mode : Mode)
  | serviceCleanUp
  | getServiceMode
  | getOrchestratorInfo
  | routeServiceStart (mode : String)
  | routeServiceStop
  | disableOrchestration
  | enableOrchestration
  | disableHeartbeats
  | enableHeartbeats

variable [DecidableEq α]

def Entry.code (config : Config α) (localeCompare : String → String → Ordering) :
    Entry α → Method α Unit
  | .bootstrapOrchestrator => Orchestrator.bootstrapOrchestrator config
  | .orchestrateService => Orchestrator.orchestrateService config
  | .orchestrationLoop => Orchestrator.orchestrationLoop config
  | .onEvent event => Orchestrator.onEvent config event
  | .heartbeatLoop => Orchestrator.heartbeatLoop config
  | .forceActive => do let _ ← Orchestrator.forceActive config
  | .serviceStart mode => do let _ ← Orchestrator.serviceStart config mode
  | .serviceCleanUp => do let _ ← Orchestrator.serviceCleanUp config
  | .getServiceMode => do let _ ← Orchestrator.getServiceMode config
  | .getOrchestratorInfo => do let _ ← Orchestrator.getOrchestratorInfo config localeCompare
  | .routeServiceStart mode => Orchestrator.routeServiceStart config mode
  | .routeServiceStop => Orchestrator.routeServiceStop config
  | .disableOrchestration => do let _ ← Orchestrator.disableOrchestration config
  | .enableOrchestration => do let _ ← Orchestrator.enableOrchestration
  | .disableHeartbeats => do let _ ← Orchestrator.disableHeartbeats
  | .enableHeartbeats => do let _ ← Orchestrator.enableHeartbeats

theorem untouching_code {config : Config α} (hrole : config.nodeRole = "noservice")
    (localeCompare : String → String → Ordering) (entry : Entry α) :
    Untouching config (entry.code config localeCompare) := by
  have hdrop : ∀ {β : Type} {m : Method α β}, Untouching config m →
      Untouching config (do let _ ← m : Method α Unit) :=
    fun hm => untouching_bind hm fun _ => untouching_pure ()
  have hswitch : ∀ {f : State α → State α} {b : State α → Bool},
      (∀ s service, b { s with service := service } = b s) →
      (∀ s service, f { s with service := service } = { f s with service := service }) →
      (∀ s, (f s).service = s.service) → Untouching config (do
        let s ← get
        if b s then do
          modify f
          pure true
        else
          pure false : Method α Bool) := by
    intro f b hb hf hservice
    refine untouching_get_bind (fun s service => ?_) fun s => ?_
    · rw [hb]
    · split
      · exact untouching_bind (untouching_modify hf hservice) fun _ => untouching_pure true
      · exact untouching_pure false
  cases entry with
  | bootstrapOrchestrator => exact untouching_bootstrapOrchestrator hrole
  | orchestrateService => exact untouching_orchestrateService hrole
  | orchestrationLoop =>
    exact untouching_tryCatch (untouching_orchestrateService hrole) fun _ => untouching_pure ()
  | onEvent event => exact untouching_onEvent hrole event
  | heartbeatLoop => exact untouching_heartbeatLoop hrole
  | forceActive => exact hdrop (untouching_forceActive hrole)
  | serviceStart mode => exact hdrop (untouching_serviceStart hrole mode)
  | serviceCleanUp => exact hdrop (untouching_serviceCleanUp hrole)
  | getServiceMode =>
    refine hdrop ?_
    rw [getServiceMode_noservice hrole]
    exact untouching_pure _
  | getOrchestratorInfo => exact hdrop (untouching_getOrchestratorInfo hrole localeCompare)
  | routeServiceStart mode =>
    show Untouching config (routeServiceStart config mode)
    unfold routeServiceStart
    split
    · exact untouching_fail _
    split
    · exact hdrop (untouching_forceActive hrole)
    · exact hdrop (untouching_serviceStart hrole .passive)
  | routeServiceStop => exact hdrop (untouching_serviceCleanUp hrole)
  | disableOrchestration => exact hdrop (untouching_disableOrchestration hrole)
  | enableOrchestration =>
    exact hdrop (hswitch (fun _ _ => rfl) (fun _ _ => rfl) fun _ => rfl)
  | disableHeartbeats => exact hdrop (hswitch (fun _ _ => rfl) (fun _ _ => rfl) fun _ => rfl)
  | enableHeartbeats => exact hdrop (hswitch (fun _ _ => rfl) (fun _ _ => rfl) fun _ => rfl)

/-! ### Runs of the node -/

/-- Any number of flows in any order, with any answers. -/
def process (config : Config α) (localeCompare : String → String → Ordering) :
    System (api α) (State α) String Unit Unit (Entry α) where
  code := Entry.code config localeCompare
  launches _ _ := True
  env _ _ _ _ _ := True
  world _ _ := False

omit [DecidableEq α] in
theorem untouching_step {config : Config α} {m m' : Method α Unit} {x y : State α × Unit}
    {E : Env (api α) String Unit} (hm : Untouching config m) (hx : x.1.service = none)
    (h : Async.Step E m x m' y) : Untouching config m' ∧ y.1.service = none := by
  have hcalls := onlyCalls_step hm.calls h
  have hblind := agree_step SameButService.refl hm.blind h
  cases h with
  | serve hr => exact ⟨⟨hcalls, hblind, hm.service _⟩, hx⟩
  | turn hs =>
    obtain ⟨hservice, hnone⟩ := maintains_turn hm.service hx
    exact ⟨⟨hcalls, hblind, hservice⟩, hnone⟩

/-- In every run of a node without service there is never a service object, and
whatever is left of a flow makes permitted calls only and does the same whether
there is a service object or not. -/
theorem noservice_untouched {config : Config α} (hrole : config.nodeRole = "noservice")
    (localeCompare : String → String → Ordering)
    {p : Pool (api α) (State α) String Unit Unit (Entry α)}
    (hp : (process config localeCompare).Reachable (.init config, ()) p) :
    p.shared.1.service = none ∧ ∀ f ∈ p.flows,
      OnlyCalls (A := api α) (Permitted config) f.2 ∧
        Agree (A := api α) SameButService f.2 f.2 := by
  suffices h : p.shared.1.service = none ∧ ∀ f ∈ p.flows, Untouching config f.2 by
    exact ⟨h.1, fun f hf => ⟨(h.2 f hf).calls, (h.2 f hf).blind⟩⟩
  refine System.reachable_invariant (I := fun p => p.shared.1.service = none ∧
    ∀ f ∈ p.flows, Untouching config f.2) hp ?_ ?_
  · exact ⟨if_pos hrole, fun f hf => nomatch hf⟩
  intro p q ⟨hnone, hflows⟩ hstep
  cases hstep with
  | launch t _ =>
    refine ⟨hnone, fun f hf => ?_⟩
    rcases List.mem_append.mp hf with hf | hf
    · exact hflows f hf
    · rw [List.mem_singleton.mp hf]
      exact untouching_code hrole localeCompare t
  | flow h =>
    obtain ⟨hm, hnone'⟩ := untouching_step
      (hflows _ (List.mem_append_right _ (List.mem_cons_self ..))) hnone h
    refine ⟨hnone', fun f hf => ?_⟩
    rcases List.mem_append.mp hf with hf | hf
    · exact hflows f (List.mem_append_left _ hf)
    · rcases List.mem_cons.mp hf with hf | hf
      · rw [hf]
        exact hm
      · exact hflows f (List.mem_append_right _ (List.mem_cons_of_mem _ hf))
  | world h => exact h.elim

def observerNode : Config ℕ := { plainNode 1 with nodeRole := "noservice" }

theorem noservice_untouched_heartbeat :
    (State.init observerNode).service = none ∧
      ∀ f ∈ [(Entry.heartbeatLoop (α := ℕ), heartbeatLoop observerNode)],
        OnlyCalls (A := api ℕ) (Permitted observerNode) f.2 ∧
          Agree (A := api ℕ) SameButService f.2 f.2 :=
  noservice_untouched rfl compare
    (p := ⟨(State.init observerNode, ()), [(.heartbeatLoop, heartbeatLoop observerNode)]⟩)
    (.single (System.Step.launch (S := process observerNode compare) .heartbeatLoop trivial))

end Archipel.Orchestrator
