import Archipel.Docker.Client
import Archipel.Utils

/-!
# The polkadot service (orchestrator/src/services/polkadot/polkadot.js)

The service runs in one of two containers, the validator container in active
mode and the sync container in passive mode. `start` and `cleanUp` are the only
methods that touch them. Derivation of a public key from a mnemonic is a
parameter of the configuration.
-/

namespace Archipel.Polkadot
open Async Docker Utils

/-- The two modes a service is started in; the callers of `start` pass no other. -/
inductive Mode where
  | active
  | passive
  deriving DecidableEq, Repr

inductive Crypto where
  | ed25519
  | sr25519
  deriving DecidableEq, Repr

/-- The configuration read by the methods below; `none` is an unset optional
variable. `hostname` is `os.hostname()` and `publicKey` the hex public key of
the keyring pair of a mnemonic. -/
structure Config where
  polkadotName : String
  polkadotImage : String
  polkadotPrefix : String
  polkadotRpcPort : ℕ
  polkadotKeyGran : String
  polkadotKeyBabe : String
  polkadotKeyImon : String
  polkadotKeyPara : String
  polkadotKeyAsgn : String
  polkadotKeyAudi : String
  polkadotValidatorName : Option String
  polkadotReservedNodes : Option String
  polkadotTelemetryUrl : Option String
  polkadotNodeKeyFile : Option String
  polkadotAdditionalOptions : Option String
  polkadotSessionKeyToCheck : Option String
  polkadotSimulateSynch : Bool
  databasePath : String
  polkadotArchiveNode : Bool
  testing : Bool
  hostname : String
  publicKey : String → Crypto → String

structure State where
  cleaningUp : Bool := false
  importedKeys : List String := []
  importedKeysDelay : ℕ := 20000
  polkadotVolume : String := ""
  commonPolkadotOptions : List String := []
  networkMode : String := ""
  prepared : Bool := false

abbrev Method (α : Type) := Async Docker.api State String α

def Config.validatorName (config : Config) : String := config.polkadotPrefix ++ "polkadot-validator"

def Config.syncName (config : Config) : String := config.polkadotPrefix ++ "polkadot-sync"

/-! ### Session keys -/

def checkKeyAdded (key keyType : String) : Method Bool := do
  let resultPost ← request (.post "author_hasKey" [key, keyType])
  match resultPost with
  | some result => pure (includes result "true")
  | none => pure false

def checkSessionKeysOnNode (config : Config) : Method Bool :=
  try
    if isEmptyString config.polkadotSessionKeyToCheck then
      pure false
    else do
      let resultPost ← request (.post "author_hasSessionKeys"
        [config.polkadotSessionKeyToCheck.getD ""])
      match resultPost with
      | some result => pure (includes result "true")
      | none => pure false
  catch _ => pure false

def importKey (config : Config) (mnemonic : String) (crypto : Crypto) (type : String) :
    Method Bool := do
  if mnemonic == "" then
    throw "Error: Provided wallet seed is not valid."
  else do
    let _ ← request .cryptoWaitReady
    let publicKey := config.publicKey mnemonic crypto
    let s ← get
    if s.importedKeys.contains publicKey then
      pure false
    else do
      let resultPost ← try
          request (.post "author_insertKey" [type, mnemonic, publicKey])
        catch _ => pure none
      match resultPost with
      | none => pure false
      | some _ => do
        let keyAdded ← checkKeyAdded publicKey type
        if !keyAdded then
          pure false
        else do
          let _ ← checkSessionKeysOnNode config
          modify fun s => { s with importedKeys := s.importedKeys ++ [publicKey] }
          pure true

def polkadotKeysImport (config : Config) : Method Bool :=
  try
    let s ← get
    if s.importedKeys.length ≥ 6 then
      pure false
    else do
      let _ ← request (.setTimeout s.importedKeysDelay)
      let _ ← importKey config config.polkadotKeyGran .ed25519 "gran"
      let _ ← importKey config config.polkadotKeyBabe .sr25519 "babe"
      let _ ← importKey config config.polkadotKeyImon .sr25519 "imon"
      let _ ← importKey config config.polkadotKeyPara .sr25519 "para"
      let _ ← importKey config config.polkadotKeyAsgn .sr25519 "asgn"
      let _ ← importKey config config.polkadotKeyAudi .sr25519 "audi"
      pure true
  catch _ => pure false

/-! ### Containers -/

/-- The container that runs, if the lookups tell: `none` is the answer 'none'. -/
def checkLaunchedContainer (config : Config) : Method (Option Mode) := do
  if ← isContainerRunning config.validatorName then
    pure (some .active)
  else if ← isContainerRunning config.syncName then
    pure (some .passive)
  else
    pure none

structure Info where
  sessionKeysString : Option String
  checkSessionKeysOnNode : Bool
  launchedContainer : Option Mode
  deriving DecidableEq, Repr

def getInfo (config : Config) : Method Info := do
  let mode ← checkLaunchedContainer config
  let sessionKeys ← checkSessionKeysOnNode config
  pure ⟨config.polkadotSessionKeyToCheck, sessionKeys, mode⟩

/-- `if (!isEmptyString(value)) options.push(...format(value))` -/
def pushOption (value : Option String) (format : String → List String) : List String :=
  if isEmptyString value then [] else format (value.getD "")

def commonOptions (config : Config) : List String :=
  ["--prometheus-external", "--prometheus-port", "9615", "--rpc-cors", "http://localhost",
    "--rpc-port", toString config.polkadotRpcPort] ++
  (if config.polkadotArchiveNode then ["--pruning=archive"] else []) ++
  pushOption config.polkadotAdditionalOptions formatOptionCmds ++
  pushOption config.polkadotNodeKeyFile
    (fun file => ["--node-key-file=" ++ config.databasePath ++ "/keys/" ++ file]) ++
  pushOption config.polkadotReservedNodes (formatOptionList "--reserved-nodes") ++
  pushOption config.polkadotTelemetryUrl fun url =>
    if url == "--no-telemetry" then ["--no-telemetry"] else formatOptionList "--telemetry-url" url

def prepareService (config : Config) : Method Unit := do
  modify fun s => { s with commonPolkadotOptions := commonOptions config }
  -- In testing mode the network will not be attached to orchestrator container
  modify fun s =>
    if config.testing then s else { s with networkMode := "container:" ++ config.hostname }
  -- Get service volume from orchestrator and give this volume to polkadot container
  let orchestratorServiceVolume ← getMount config.hostname "service"
  modify fun s => { s with
    polkadotVolume := (orchestratorServiceVolume.bind Mount.name).getD
      (config.polkadotPrefix ++ "polkadot-volume") }
  modify fun s => { s with prepared := true }

def prepareAndStart (containerData : ContainerData) (upName downName : String) :
    Method Bool := do
  let containerUp ← getContainer upName
  let containerDown ← getContainer downName
  let containerData := { containerData with name := upName }
  -- We must remove down container if it exist
  let _ ← if containerDown.isSome then removeContainer downName else pure false
  if containerUp.isNone then
    startContainer containerData
  else do
    -- If container exits but is not in running state
    -- We will recreate and relaunch it
    let running ← isContainerRunning upName
    if !running then do
      let _ ← removeContainer containerData.name
      startContainer containerData
    else
      pure false

def startServiceContainer (type : Mode) (activeName passiveName image : String)
    (cmd : List String) (mountTarget mountSource networkMode : String) : Method Bool := do
  let alreadyRunning ← match type with
    | .active => isContainerRunning activeName
    | .passive => isContainerRunning passiveName
  if alreadyRunning then
    pure false
  else do
    let _ ← createVolume mountSource
    let mounts := [⟨mountTarget, mountSource, "volume", false⟩]
    let containerData : ContainerData :=
      { name := "", image, cmd, mounts
        networkMode := if networkMode ≠ "" then some networkMode else none }
    match type with
    | .active => prepareAndStart containerData activeName passiveName
    | .passive => prepareAndStart containerData passiveName activeName

def nodeName (config : Config) : Mode → String
  | .active =>
    if isEmptyString config.polkadotValidatorName then config.polkadotName ++ "-active"
    else config.polkadotValidatorName.getD ""
  | .passive => config.polkadotName ++ "-passive"

def modeOptions : Mode → List String
  | .active => ["--validator"]
  | .passive => []

def start (config : Config) (mode : Mode) : Method Bool := do
  let s ← get
  if !s.prepared then prepareService config else pure ()
  let s ← get
  let serviceStarted ← startServiceContainer mode config.validatorName config.syncName
    config.polkadotImage
    (["--name", nodeName config mode] ++ s.commonPolkadotOptions ++ modeOptions mode)
    config.databasePath s.polkadotVolume s.networkMode
  let _ ← polkadotKeysImport config
  pure serviceStarted

def cleanUp (config : Config) : Method Bool :=
  try
    let s ← get
    if !s.cleaningUp then do
      modify fun s => { s with cleaningUp := true }
      let _ ← removeContainer config.syncName
      let _ ← removeContainer config.validatorName
      modify fun s => { s with cleaningUp := false }
      pure true
    else
      pure false
  catch _ =>
    modify fun s => { s with cleaningUp := false }
    pure false

/-! ### The starts leave the flag of `cleanUp` alone -/

def Idle (s : State) : Prop := s.cleaningUp = false

abbrev Unflagged {α : Type} (m : Method α) : Prop := Maintains (A := Docker.api) Idle m

theorem unflagged_checkKeyAdded (key keyType : String) :
    Unflagged (checkKeyAdded key keyType) := by
  refine maintains_bind (maintains_request (.post _ _)) fun resultPost => ?_
  cases resultPost <;> trivial

theorem unflagged_checkSessionKeysOnNode (config : Config) :
    Unflagged (checkSessionKeysOnNode config) := by
  refine maintains_tryCatch ?_ fun _ => trivial
  split
  · trivial
  · refine maintains_bind (maintains_request (.post _ _)) fun resultPost => ?_
    cases resultPost <;> trivial

theorem unflagged_importKey (config : Config) (mnemonic : String) (crypto : Crypto)
    (type : String) : Unflagged (importKey config mnemonic crypto type) := by
  unfold importKey
  split
  · trivial
  refine maintains_bind (maintains_request .cryptoWaitReady) fun _ => ?_
  refine maintains_get_bind fun s _ => ?_
  split
  · trivial
  refine maintains_bind (maintains_tryCatch (maintains_request (.post _ _)) fun _ => trivial)
    fun resultPost => ?_
  cases resultPost with
  | none => trivial
  | some result =>
    refine maintains_bind (unflagged_checkKeyAdded _ _) fun keyAdded => ?_
    split
    · trivial
    · exact maintains_bind (unflagged_checkSessionKeysOnNode config) fun _ =>
        maintains_bind (maintains_modify fun _ h => h) fun _ => trivial

theorem unflagged_polkadotKeysImport (config : Config) :
    Unflagged (polkadotKeysImport config) := by
  refine maintains_tryCatch (maintains_get_bind fun s _ => ?_) fun _ => trivial
  split
  · trivial
  refine maintains_bind (maintains_request (.setTimeout _)) fun _ => ?_
  refine maintains_bind (unflagged_importKey ..) fun _ => ?_
  refine maintains_bind (unflagged_importKey ..) fun _ => ?_
  refine maintains_bind (unflagged_importKey ..) fun _ => ?_
  refine maintains_bind (unflagged_importKey ..) fun _ => ?_
  refine maintains_bind (unflagged_importKey ..) fun _ => ?_
  exact maintains_bind (unflagged_importKey ..) fun _ => trivial

theorem unflagged_prepareService (config : Config) : Unflagged (prepareService config) := by
  refine maintains_bind (maintains_modify fun _ h => h) fun _ => ?_
  refine maintains_bind (maintains_modify fun s h => ?_) fun _ => ?_
  · split
    · exact h
    · exact h
  · refine maintains_bind (maintains_getMount _ _) fun _ => ?_
    exact maintains_bind (maintains_modify fun _ h => h) fun _ => maintains_modify fun _ h => h

theorem unflagged_prepareAndStart (data : ContainerData) (up down : String) :
    Unflagged (prepareAndStart data up down) := by
  have hstart : Unflagged (startContainer { data with name := up } : Method Bool) :=
    maintains_startContainer _
  have hrest : ∀ containerUp : Option Instance, Unflagged
      (if containerUp.isNone then startContainer { data with name := up }
      else do
        let running ← isContainerRunning up
        if !running then do
          let _ ← removeContainer up
          startContainer { data with name := up }
        else
          pure false : Method Bool) := by
    intro containerUp
    split
    · exact hstart
    · refine maintains_bind (maintains_isContainerRunning up) fun running => ?_
      split
      · exact maintains_bind (maintains_removeContainer up) fun _ => hstart
      · trivial
  refine maintains_bind (maintains_getContainer up) fun containerUp => ?_
  refine maintains_bind (maintains_getContainer down) fun containerDown => ?_
  cases containerDown with
  | none => exact hrest containerUp
  | some container =>
    exact maintains_bind (maintains_removeContainer down) fun _ => hrest containerUp

theorem unflagged_startServiceContainer (type : Mode) (activeName passiveName image : String)
    (cmd : List String) (mountTarget mountSource networkMode : String) :
    Unflagged (startServiceContainer type activeName passiveName image cmd mountTarget
      mountSource networkMode) := by
  have hrest : ∀ alreadyRunning : Bool, ∀ m : Method Bool, Unflagged m → Unflagged
      (if alreadyRunning then pure false else do
        let _ ← createVolume mountSource
        m : Method Bool) := by
    intro alreadyRunning m hm
    split
    · trivial
    · exact maintains_bind (maintains_createVolume mountSource) fun _ => hm
  cases type with
  | active =>
    exact maintains_bind (maintains_isContainerRunning activeName) fun alreadyRunning =>
      hrest alreadyRunning _ (unflagged_prepareAndStart _ _ _)
  | passive =>
    exact maintains_bind (maintains_isContainerRunning passiveName) fun alreadyRunning =>
      hrest alreadyRunning _ (unflagged_prepareAndStart _ _ _)

theorem unflagged_start (config : Config) (mode : Mode) : Unflagged (start config mode) := by
  have hrest : Unflagged (do
        let s ← get
        let serviceStarted ← startServiceContainer mode config.validatorName config.syncName
          config.polkadotImage
          (["--name", nodeName config mode] ++ s.commonPolkadotOptions ++ modeOptions mode)
          config.databasePath s.polkadotVolume s.networkMode
        let _ ← polkadotKeysImport config
        pure serviceStarted : Method Bool) := by
    refine maintains_get_bind fun s _ => ?_
    refine maintains_bind (unflagged_startServiceContainer ..) fun serviceStarted => ?_
    exact maintains_bind (unflagged_polkadotKeysImport config) fun _ => trivial
  refine maintains_get_bind fun s _ => ?_
  dsimp only
  split
  · exact maintains_bind (unflagged_prepareService config) fun _ => hrest
  · exact hrest

end Archipel.Polkadot
