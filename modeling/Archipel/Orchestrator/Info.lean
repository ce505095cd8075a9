import Archipel.Orchestrator.Basic

/-!
# The information of a node (getOrchestratorInfo, getServiceInfo)

The answer of the main route: what the chain client knows, the switches and the
heartbeats, and for a node with a service what the service tells.
-/

namespace Archipel.Orchestrator

variable {α : Type}

structure ServiceInfo where
  service : String
  isServiceReadyToStart : Bool
  serviceContainer : Option Polkadot.Mode
  serviceMode : String
  info : Polkadot.Info
  deriving DecidableEq, Repr

structure OrchestratorInfo (α : Type) where
  orchestratorAddress : α
  archipelName : String
  isConnected : Bool
  peerId : Option String
  peerNumber : ℕ
  bestNumber : ℕ
  bestNumberFinalized : ℕ
  synchState : Option Bool
  leader : Option α
  orchestrationEnabled : Bool
  heartbeatSendEnabledAdmin : Bool
  heartbeatSendEnabled : Bool
  heartbeats : List (Wallet α × Heartbeat)
  serviceInfo : Option ServiceInfo
  deriving DecidableEq, Repr

def getServiceInfo (config : Config α) : Method α ServiceInfo := do
  let isServiceReadyToStart ← serviceReady
  let serviceContainer : Option Polkadot.Mode ← request .checkLaunchedContainer
  let service ← theService
  let info : Polkadot.Info ← request .getInfo
  pure {
    service := config.service
    isServiceReadyToStart, serviceContainer
    serviceMode := modeText service.mode
    info }

def getOrchestratorInfo (config : Config α) (localeCompare : String → String → Ordering) :
    Method α (OrchestratorInfo α) := do
  let isConnected : Bool ← request .isConnected
  let peerId : Option String ← request .getPeerId
  let peerNumber : ℕ ← request .getPeerNumber
  let bestNumber : ℕ ← request .getBestNumber
  let bestNumberFinalized : ℕ ← request .getBestNumberFinalized
  let synchState : Option Bool ← request .getSyncState
  let leader : Option α ← request (.getLeader config.group)
  let s ← get
  let orchestratorInfo : OrchestratorInfo α :=
    { orchestratorAddress := config.nodeKey
      archipelName := config.archipelName
      isConnected, peerId, peerNumber, bestNumber, bestNumberFinalized, synchState, leader
      orchestrationEnabled := s.orchestrationEnabled
      heartbeatSendEnabledAdmin := s.heartbeatSendEnabledAdmin
      heartbeatSendEnabled := s.heartbeatSendEnabled
      heartbeats := s.heartbeats.getAllHeartbeats localeCompare
      serviceInfo := none }
  -- If no service role just returning basic orchestrator info
  if config.nodeRole = "noservice" then
    pure orchestratorInfo
  else do
    let serviceInfo ← getServiceInfo config
    pure { orchestratorInfo with serviceInfo := some serviceInfo }

end Archipel.Orchestrator
