import Archipel.Async.Shared
import Archipel.Pallet.Basic
import Archipel.Heartbeats

/-!
# The chain client (orchestrator/src/chain.js)

The methods run over the calls of the polkadot API. The query methods catch
every error and answer a sentinel: `none` stands for the `false` of `getLeader`
and for the `0` of `getSyncState`. The callback of a sent transaction is a
function of the list of status updates it is called with.
-/

namespace Archipel.Chain

structure Health where
  peers : ℕ
  isSyncing : Bool
  deriving DecidableEq, Repr

inductive Status where
  | ready
  | future
  | broadcast
  | inBlock
  | retracted
  | finalityTimeout
  | finalized
  | usurped
  | dropped
  | invalid
  deriving DecidableEq, Repr

structure Update (α : Type) where
  status : Status
  events : List (Pallet.Event α)

structure Transaction (α : Type) where
  signer : α
  nonce : ℕ
  call : Pallet.Call α

/-- The calls of the polkadot API. `send` answers with the updates of the
transaction up to its last one; `never` is the wait for a promise that nothing
settles. -/
inductive Call (α : Type) where
  | isConnected
  | bestNumber
  | bestNumberFinalized
  | health
  | leaders (groupId : UInt32)
  | leadedGroup (groupId : UInt32)
  | heartbeats (key : Wallet α)
  | account (key : α)
  | send (transaction : Transaction α)
  | setTimeout (ms : ℕ)
  | never

@[reducible] def Call.Ret {α : Type} : Call α → Type
  | .isConnected => Bool
  | .bestNumber => ℕ
  | .bestNumberFinalized => ℕ
  | .health => Health
  | .leaders _ => α
  | .leadedGroup _ => Bool
  | .heartbeats _ => ℕ
  | .account _ => ℕ
  | .send _ => List (Update α)
  | .setTimeout _ => Unit
  | .never => Empty

abbrev api (α : Type) : Api := ⟨Call α, Call.Ret⟩

structure State where
  lastBlockNumber : ℕ := 0
  lastBlockAccumulator : ℕ := 0
  lastBlockThreshold : ℕ := 10
  finalizedGap : ℕ := 10
  deriving DecidableEq, Repr

abbrev Method (α β : Type) := Async (api α) State String β

variable {α : Type}

abbrev request (c : Call α) : Method α c.Ret := Async.call (A := api α) c

/-! ### Queries -/

def getLeader (groupId : UInt32) : Method α (Option α) :=
  try
    let leader ← request (.leaders groupId)
    pure (some leader)
  catch _ => pure none

def isLeadedGroup (groupId : UInt32) : Method α Bool :=
  try request (.leadedGroup groupId)
  catch _ => pure false

def getHeartbeat (key : Wallet α) : Method α ℕ :=
  try request (.heartbeats key)
  catch _ => pure 0

def getBestNumber : Method α ℕ :=
  try request .bestNumber
  catch _ => pure 0

def getBestNumberFinalized : Method α ℕ :=
  try request .bestNumberFinalized
  catch _ => pure 0

def getPeerNumber : Method α ℕ :=
  try
    let health ← request .health
    pure health.peers
  catch _ => pure 0

def getSyncState : Method α (Option Bool) :=
  try
    let health ← request .health
    pure (some health.isSyncing)
  catch _ => pure none

def isConnected : Method α Bool := request .isConnected

def connect : Method α Unit := do
  let lastBlockNumber ← getBestNumber
  modify fun s => { s with lastBlockNumber := lastBlockNumber }

/-! ### Sending transactions -/

def chainMovingForward : Method α Bool := do
  let currentBlock ← getBestNumber
  modify fun s => { s with
    lastBlockAccumulator :=
      if s.lastBlockNumber = currentBlock then s.lastBlockAccumulator + 1 else 0 }
  let s ← get
  if s.lastBlockNumber = currentBlock ∧ s.lastBlockThreshold ≤ s.lastBlockAccumulator then
    pure false
  else do
    modify fun s => { s with lastBlockNumber := currentBlock }
    pure true

def canSendTransactions : Method α Bool := do
  let connected ← isConnected
  if !connected then
    pure false
  else do
    let moving ← chainMovingForward
    if !moving then
      pure false
    else do
      let bestNumber ← getBestNumber
      let bestNumberFinalized ← getBestNumberFinalized
      let s ← get
      if (bestNumber : ℤ) - bestNumberFinalized ≥ s.finalizedGap then
        pure false
      else do
        let peersNumber ← getPeerNumber
        let syncState ← getSyncState
        -- We will check for peers number and sync state twice with 5 second interval
        if peersNumber = 0 ∨ syncState = some true then do
          let _ ← request (.setTimeout 5000)
          let peersNumber ← getPeerNumber
          let syncState ← getSyncState
          pure (peersNumber ≠ 0 && syncState ≠ some true)
        else
          pure (peersNumber ≠ 0 && syncState ≠ some true)

/-- The first answer that the callback resolves the promise with. -/
def settle (isEvent : Pallet.Event α → Bool) : List (Update α) → Option Bool
  | [] => none
  | update :: updates =>
    match update.status with
    | .finalized => some (update.events.any isEvent)
    | .dropped | .invalid | .usurped => some false
    | _ => settle isEvent updates

/-- `new Promise((resolve, reject) => …send(…))` -/
def signAndSend (transaction : Transaction α) (isEvent : Pallet.Event α → Bool) :
    Method α Bool := do
  let updates ← request (.send transaction)
  match settle isEvent updates with
  | some result => pure result
  | none => do
    let never ← request .never
    nomatch never

def isNewHeartbeat : Pallet.Event α → Bool
  | .newHeartbeat _ _ _ _ => true
  | _ => false

def isNewLeader : Pallet.Event α → Bool
  | .newLeader _ _ => true
  | _ => false

def isGiveUpLeader : Pallet.Event α → Bool
  | .giveUpLeader _ _ => true
  | _ => false

def fromModeToNodeStatus (mode : String) : UInt32 :=
  if mode = "active" then 1 else if mode = "passive" then 2 else 0

/-- `key` is the account of the node's mnemonic. -/
def addHeartbeat (mode : String) (key : α) (nodeGroupId : UInt32) : Method α Bool := do
  let sendTransaction ← canSendTransactions
  if sendTransaction then do
    let nonce ← request (.account key)
    signAndSend ⟨key, nonce, .addHeartbeat nodeGroupId (fromModeToNodeStatus mode)⟩ isNewHeartbeat
  else
    pure false

/-- A text that is no address cannot be encoded as the argument. -/
def setLeader (oldLeader : Wallet α) (groupId : UInt32) (key : α) : Method α Bool := do
  let sendTransaction ← canSendTransactions
  if sendTransaction then do
    let nonce ← request (.account key)
    match oldLeader with
    | .address oldLeader => signAndSend ⟨key, nonce, .setLeader oldLeader groupId⟩ isNewLeader
    | .text _ => throw "Decoding: invalid address"
  else
    pure false

def giveUpLeadership (groupId : UInt32) (key : α) : Method α Bool := do
  let sendTransaction ← canSendTransactions
  if sendTransaction then do
    let nonce ← request (.account key)
    signAndSend ⟨key, nonce, .giveUpLeadership groupId⟩ isGiveUpLeader
  else
    pure false

end Archipel.Chain
