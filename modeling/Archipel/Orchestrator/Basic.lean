import Archipel.Chain
import Archipel.Polkadot.Basic

/-!
# The orchestrator (orchestrator/src/orchestrator.js, service.js, routes, app.js)

The methods run over the methods of the collaborators that they await, the chain
client and the service instance. The heartbeat map is read and written between
two awaits, so it is a field of the state, next to the fields of the
orchestrator and of its service object.
-/

namespace Archipel.Orchestrator
open Polkadot (Mode)

/-- What a node is configured with. `nodeKey` is the account of the mnemonic;
the two thresholds are constants of the constructor. -/
structure Config (α : Type) where
  nodeRole : String
  service : String
  serviceMode : String
  nodeKey : α
  group : UInt32
  archipelName : String
  aliveTime : ℤ
  heartbeatEnabled : Bool
  orchestrationEnabled : Bool
  nodesWallets : List (Wallet α)
  nodes : List (Wallet α × String)
  noLivenessThreshold : ℕ := 5
  noReadyThreshold : ℕ := 30

def plainNode (key : ℕ) : Config ℕ where
  nodeRole := "operator"
  service := "polkadot"
  serviceMode := "orchestrator"
  nodeKey := key
  group := 1
  archipelName := "archipel"
  aliveTime := 100
  heartbeatEnabled := true
  orchestrationEnabled := true
  nodesWallets := [.address 1, .address 2]
  nodes := [(.address 1, "archipel-NODE-1"), (.address 2, "archipel-NODE-2")]

def bothAlive : Heartbeats ℕ :=
  ((Heartbeats.new (plainNode 1).nodes).addHeartbeat (.address 1) 1 1 1).addHeartbeat
    (.address 2) 1 2 1

/-- The service object; `none` is the mode 'none' of a service not started yet. -/
structure Service where
  mode : Option Mode := none
  deriving DecidableEq, Repr

/-- The fields of the orchestrator; a node without service has no service
object. -/
structure State (α : Type) where
  heartbeats : Heartbeats α
  service : Option Service
  noLivenessFromLeader : ℕ := 0
  orchestrationEnabled : Bool
  heartbeatSendEnabled : Bool := true
  heartbeatSendEnabledAdmin : Bool
  noReadyCount : ℕ := 0

/-- The calls of the chain client and of the service instance, and the waits.
`isConnected` does not wait for an answer. -/
inductive Call (α : Type) where
  | canSendTransactions
  | isConnected
  | getPeerId
  | getPeerNumber
  | getBestNumberFinalized
  | getSyncState
  | getBestNumber
  | getLeader (groupId : UInt32)
  | isLeadedGroup (groupId : UInt32)
  | getHeartbeat (key : Wallet α)
  | setLeader (oldLeader : Wallet α) (groupId : UInt32)
  | addHeartbeat (mode : String) (nodeGroupId : UInt32)
  | giveUpLeadership (groupId : UInt32)
  | bootstrap
  | start (mode : Mode)
  | cleanUp
  | isServiceReadyToStart
  | checkLaunchedContainer
  | getInfo
  | setTimeout (ms : ℕ)
  deriving DecidableEq, Repr

@[reducible] def Call.Ret {α : Type} : Call α → Type
  | .canSendTransactions => Bool
  | .isConnected => Bool
  | .getPeerId => Option String
  | .getPeerNumber => ℕ
  | .getBestNumberFinalized => ℕ
  | .getSyncState => Option Bool
  | .getBestNumber => ℕ
  | .getLeader _ => Option α
  | .isLeadedGroup _ => Bool
  | .getHeartbeat _ => ℕ
  | .setLeader _ _ => Bool
  | .addHeartbeat _ _ => Bool
  | .giveUpLeadership _ => Bool
  | .bootstrap => Unit
  | .start _ => Bool
  | .cleanUp => Bool
  | .isServiceReadyToStart => Bool
  | .checkLaunchedContainer => Option Mode
  | .getInfo => Polkadot.Info
  | .setTimeout _ => Unit

abbrev api (α : Type) : Api := ⟨Call α, Call.Ret⟩

abbrev Method (α β : Type) := Async (api α) (State α) String β

variable {α : Type}

abbrev request (c : Call α) : Method α c.Ret := Async.call (A := api α) c

def State.init (config : Config α) : State α where
  heartbeats := .new config.nodes
  service := if config.nodeRole = "noservice" then none else some {}
  orchestrationEnabled := config.orchestrationEnabled
  heartbeatSendEnabledAdmin := config.heartbeatEnabled

/-- `toString()` of the answer of `getLeader`. -/
def leaderText : Option α → Wallet α
  | some leader => .address leader
  | none => .text "false"

/-! ### The service -/

/-- The error of a method call on the missing service object. -/
def undefinedService : String := "TypeError: Cannot read properties of undefined"

def theService : Method α Service := do
  let s ← get
  match s.service with
  | some service => pure service
  | none => throw undefinedService

def serviceCleanUp (config : Config α) : Method α Bool := do
  if config.nodeRole = "noservice" then
    pure false
  else do
    let _ ← theService
    request .cleanUp

def serviceStart (config : Config α) (mode : Mode) : Method α Bool := do
  if config.nodeRole = "noservice" then
    pure false
  else do
    let _ ← theService
    modify fun s => { s with service := some { mode := some mode } }
    request (.start mode)

def serviceReady : Method α Bool := do
  let _ ← theService
  request .isServiceReadyToStart

def modeText : Option Mode → String
  | none => "none"
  | some .active => "active"
  | some .passive => "passive"

def getServiceMode (config : Config α) : Method α String := do
  if config.nodeRole = "noservice" then
    pure "noservice"
  else do
    let service ← theService
    pure (modeText service.mode)

variable [DecidableEq α]

def fillHeartbeatsFromChain : List (Wallet α) → Method α Unit
  | [] => pure ()
  | wallet :: walletList => do
    let heartbeatBlock : ℕ ← request (.getHeartbeat wallet)
    modify fun s => { s with heartbeats := s.heartbeats.addHeartbeat wallet 0 0 heartbeatBlock }
    fillHeartbeatsFromChain walletList

def bootstrapOrchestrator (config : Config α) : Method α Unit := do
  if config.nodeRole = "noservice" then
    pure ()
  else do
    let _ ← serviceCleanUp config
    let _ ← theService
    let _ ← request .bootstrap
    let serviceStart ← serviceStart config .passive
    if !serviceStart then
      throw "Unable to start service in passive mode. Please check your configuration and docker daemon."
    else
      fillHeartbeatsFromChain config.nodesWallets

/-! ### Leadership -/

def becomeLeader (config : Config α) (oldLeader : Wallet α) : Method α Bool := do
  let setLeader : Bool ← request (.setLeader oldLeader config.group)
  if setLeader then do
    -- Waiting 10 seconds to be sure that every node received leader update...
    let _ ← request (.setTimeout 10000)
    pure true
  else
    pure false

def otherLeaderAction (config : Config α) (currentLeader : Wallet α) : Method α Bool := do
  let s ← get
  let leaderHeartbeat := s.heartbeats.getHeartbeat currentLeader
  match leaderHeartbeat.filter fun heartbeat => heartbeat.blockNumber ≠ 0 with
  -- If no heartbeat received we will wait noLivenessThreshold
  | none =>
    let checksNumber : ℤ := config.noLivenessThreshold - s.noLivenessFromLeader
    if checksNumber > 0 then do
      modify fun s => { s with noLivenessFromLeader := s.noLivenessFromLeader + 1 }
      pure false
    else do
      -- No leaderHeart received for noLivenessThreshold times. Leader is offline.
      modify fun s => { s with noLivenessFromLeader := 0 }
      becomeLeader config currentLeader
  | some leaderHeartbeat => do
    let bestNumber : ℕ ← request .getBestNumber
    let lastSeenAgo : ℤ := bestNumber - leaderHeartbeat.blockNumber
    -- Checking if leader can be considered alive
    if lastSeenAgo > config.aliveTime then
      becomeLeader config currentLeader
    else
      pure false

def leadershipManagement (config : Config α) : Method α Bool := do
  let currentLeader : Option α ← request (.getLeader config.group)
  let isLeadedGroup : Bool ← request (.isLeadedGroup config.group)
  let currentLeader := leaderText currentLeader
  if isLeadedGroup = false then
    becomeLeader config (.address config.nodeKey)
  else if currentLeader = .address config.nodeKey then
    pure true
  else
    otherLeaderAction config currentLeader

def forceActive (config : Config α) : Method α Bool := do
  if config.nodeRole = "noservice" then
    pure false
  else do
    let currentLeader : Option α ← request (.getLeader config.group)
    if leaderText currentLeader = .address config.nodeKey then do
      let _ ← serviceStart config .active
      pure true
    else do
      let isLeadedGroup : Bool ← request (.isLeadedGroup config.group)
      let becomeLeaderResult ← becomeLeader config
        (if isLeadedGroup then leaderText currentLeader else .address config.nodeKey)
      if becomeLeaderResult then do
        let currentLeader : Option α ← request (.getLeader config.group)
        if leaderText currentLeader = .address config.nodeKey then do
          let _ ← serviceStart config .active
          pure true
        else
          pure false
      else
        pure false

/-! ### Orchestration -/

def serviceReadinessManagement (config : Config α) : Method α Bool := do
  let serviceReady ← serviceReady
  let service ← theService
  let s ← get
  -- If service is not ready and current node is leader
  if !serviceReady && service.mode = some .active then
    if s.noReadyCount < config.noReadyThreshold then do
      modify fun s => { s with noReadyCount := s.noReadyCount + 1 }
      pure true
    else do
      -- If service is not ready after noReadyThreshold enforcing passive mode
      -- And disabling heartbeats send
      modify fun s => { s with heartbeatSendEnabled := false }
      pure false
  else do
    -- If service is ready and heartbeat send is disabled we can activate heartbeats send
    modify fun s =>
      if serviceReady && !s.heartbeatSendEnabled then { s with heartbeatSendEnabled := true } else s
    modify fun s => { s with noReadyCount := 0 }
    pure serviceReady

def orchestrateOperatorService (config : Config α) : Method α Unit := do
  let sendTransaction : Bool ← request .canSendTransactions
  if !sendTransaction then do
    let _ ← serviceStart config .passive
  else do
    let bestNumber : ℕ ← request .getBestNumber
    let s ← get
    if !s.heartbeats.anyOneAlive (.address config.nodeKey) config.aliveTime config.group
        bestNumber then do
      let _ ← serviceStart config .passive
    else do
      -- Check if service is ready to be started if not enforcing passive service mode
      let serviceReady ← serviceReadinessManagement config
      if !serviceReady then do
        let _ ← serviceStart config .passive
      else do
        let s ← get
        if !s.heartbeatSendEnabled || !s.heartbeatSendEnabledAdmin then do
          let _ ← serviceStart config .passive
        else do
          -- Manage the node leadership and if not leader enforcing passive service mode
          let leadership ← leadershipManagement config
          if !leadership then do
            let _ ← serviceStart config .passive
          else do
            -- We will recheck if after all checks the current node is leader
            let currentLeader : Option α ← request (.getLeader config.group)
            if leaderText currentLeader = .address config.nodeKey then do
              let _ ← serviceStart config .active
            else
              pure ()

def orchestrateService (config : Config α) : Method α Unit := do
  if config.nodeRole = "noservice" then
    pure ()
  else do
    let s ← get
    if !s.orchestrationEnabled then
      pure ()
    else if config.serviceMode = "orchestrator" then
      orchestrateOperatorService config
    else if config.serviceMode = "passive" then do
      let _ ← serviceStart config .passive
    else if config.serviceMode = "active" then do
      let _ ← forceActive config
    else
      throw ("Wrong service mode " ++ config.serviceMode ++ "...")

/-! ### The listener, the loops and the routes -/

/-- `listenEvents`, for one event. -/
def onEvent (config : Config α) : Pallet.Event α → Method α Unit
  | .newLeader who groupId => do
    if who ≠ config.nodeKey ∧ groupId = config.group then do
      let _ ← serviceStart config .passive
    else
      pure ()
  | .newHeartbeat who groupId nodeStatus now =>
    modify fun s => { s with
      heartbeats := s.heartbeats.addHeartbeat (.address who) groupId.toNat nodeStatus.toNat now }
  | .giveUpLeader _ _ => pure ()

def heartbeatLoop (config : Config α) : Method α Unit := do
  try
    let s ← get
    if !s.heartbeatSendEnabled || !s.heartbeatSendEnabledAdmin then
      pure ()
    else do
      let mode ← getServiceMode config
      let _ ← request (.addHeartbeat mode config.group)
      pure ()
  catch _ => pure ()

def orchestrationLoop (config : Config α) : Method α Unit := do
  try orchestrateService config
  catch _ => pure ()

def disableHeartbeats : Method α Bool := do
  let s ← get
  if s.heartbeatSendEnabledAdmin then do
    modify fun s => { s with heartbeatSendEnabledAdmin := false }
    pure true
  else
    pure false

def enableHeartbeats : Method α Bool := do
  let s ← get
  if !s.heartbeatSendEnabledAdmin then do
    modify fun s => { s with heartbeatSendEnabledAdmin := true }
    pure true
  else
    pure false

def disableOrchestration (config : Config α) : Method α Bool := do
  let s ← get
  if s.orchestrationEnabled then do
    modify fun s => { s with orchestrationEnabled := false }
    -- Waiting 5 sec to be sure that last orchestration cycle ended
    let _ ← request (.setTimeout 5000)
    let _ ← serviceStart config .passive
    pure true
  else
    pure false

def enableOrchestration : Method α Bool := do
  let s ← get
  if !s.orchestrationEnabled then do
    modify fun s => { s with orchestrationEnabled := true }
    pure true
  else
    pure false

/-- The route `/service/start` with the mode of the request body. -/
def routeServiceStart (config : Config α) (mode : String) : Method α Unit := do
  if mode = "" then
    throw "Error: Service start mode is empty"
  else if mode = "active" then do
    let _ ← forceActive config
  else do
    let _ ← serviceStart config .passive

def routeServiceStop (config : Config α) : Method α Unit := do
  let _ ← serviceCleanUp config

end Archipel.Orchestrator
