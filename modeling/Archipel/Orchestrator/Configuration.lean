import Archipel.Environment
import Archipel.Orchestrator.Basic
import Archipel.Orchestrator.ConfigFile

/-!
# The configuration of a node (orchestrator/src/config.js)

The configuration comes from the file when CONFIG_FILE is set. What the file
leaves open comes from the environment, and what the environment leaves open has
a default or was not set.
-/

namespace Archipel.Orchestrator
open ConfigFile Environment Utils

/-- `none` is a property that the object does not have. -/
structure Configuration where
  nodeId : Option ℤ
  configFilePath : Option String
  nodeRole : String
  mnemonic : String
  nodesWallets : String
  archipelName : String
  nodeGroupId : ℤ
  nodeWs : String
  aliveTime : ℤ
  heartbeatEnabled : Bool
  orchestrationEnabled : Bool
  service : Option String
  serviceMode : Option String
  serviceDataDirectory : Option String
  serviceConfigDirectory : Option String
  deriving DecidableEq

/-- A switch is on unless its variable includes 'false'. -/
def enabled (value : Option String) : Bool :=
  match value with
  | none => true
  | some text => !includes text "false"

def constructConfiguration (readToObj : String → Except String ConfigObject) (env : Environment) :
    Except String Configuration := do
  -- Get configuration from config file
  let file ← fromFile (constructConfigurationFromConfigFile readToObj) env
  -- If config was not set by config file trying to get it from env variables
  let nodeRole := orDefault (orElse (file.bind FileConfig.nodeRole) (env "NODE_ROLE")) "operator"
  let mnemonic := orElse (file.map FileConfig.mnemonic) (env "MNEMONIC")
  let nodesWallets := orElse (file.map FileConfig.nodesWallets) (env "NODES_WALLETS")
  let archipelName :=
    orDefault (orElse (file.map FileConfig.archipelName) (env "ARCHIPEL_NAME")) "test-archipel"
  let nodeGroupId :=
    orDefault (orElse (file.bind FileConfig.nodeGroupId) (env "NODE_GROUP_ID")) "1"
  -- Get config from env variables and setting default values if env vars are empty
  let nodeWs := orDefault (env "NODE_WS") "ws://127.0.0.1:9944"
  let aliveTime := orDefault (env "ALIVE_TIME") "12"
  -- If node role is not no service getting service configuration
  let fileService := file.bind FileConfig.service
  let serves := nodeRole ≠ "noservice"
  let service :=
    if serves then some (orDefault (orElse fileService (env "SERVICES")) "polkadot")
    else fileService
  let serviceMode :=
    if serves then some (orDefault (env "ARCHIPEL_SERVICE_MODE") "orchestrator") else none
  let serviceDataDirectory :=
    if serves then some (orDefault (env "SERVICE_DATA_DIRECTORY") "/service") else none
  let serviceConfigDirectory :=
    if serves then some (orDefault (env "SERVICE_CONFIG_DIRECTORY") "/config") else none
  -- Parsing integers
  let aliveTime ← integer (some aliveTime) "Error: Alive time must be an integer"
  let nodeGroupId ← integer (some nodeGroupId) "Error: Node group id must be an integer"
  -- A number or a switch is never empty, so the texts are checked, in their order.
  checkKeys (present "configFilePath" (file.map FileConfig.configFilePath) ++
    [("nodeRole", some nodeRole), ("mnemonic", mnemonic), ("nodesWallets", nodesWallets),
      ("archipelName", some archipelName)] ++ present "service" service ++
    [("nodeWs", some nodeWs)] ++ present "serviceMode" serviceMode ++
    present "serviceDataDirectory" serviceDataDirectory ++
    present "serviceConfigDirectory" serviceConfigDirectory)
  pure {
    nodeId := file.map FileConfig.nodeId
    configFilePath := file.map FileConfig.configFilePath
    nodeRole := nodeRole
    mnemonic := mnemonic.getD ""
    nodesWallets := nodesWallets.getD ""
    archipelName := archipelName
    nodeGroupId := nodeGroupId
    nodeWs := nodeWs
    aliveTime := aliveTime
    heartbeatEnabled := enabled (env "ARCHIPEL_HEARTBEATS_ENABLE")
    orchestrationEnabled := enabled (env "ARCHIPEL_ORCHESTRATION_ENABLE")
    service := service
    serviceMode := serviceMode
    serviceDataDirectory := serviceDataDirectory
    serviceConfigDirectory := serviceConfigDirectory }

/-- What the objects of a node take out of the configuration: `accountOf` is the
account of a seed and `walletOf` reads the text of a wallet. The group is a u32. -/
def Configuration.config {α : Type} (accountOf : String → α) (walletOf : String → Wallet α)
    (config : Configuration) : Config α where
  nodeRole := config.nodeRole
  service := config.service.getD "undefined"
  serviceMode := config.serviceMode.getD "undefined"
  nodeKey := accountOf config.mnemonic
  group := UInt32.ofNat config.nodeGroupId.toNat
  archipelName := config.archipelName
  aliveTime := config.aliveTime
  heartbeatEnabled := config.heartbeatEnabled
  orchestrationEnabled := config.orchestrationEnabled
  nodesWallets := (config.nodesWallets.splitOn ",").map walletOf
  nodes := (constructNodesList (some config.nodesWallets) (some config.archipelName)).map
    fun node => (walletOf node.wallet, node.name)

/-- The configuration takes everything that the file sets out of the file. -/
structure Configuration.Takes (config : Configuration) (file : FileConfig) (env : Environment) :
    Prop where
  nodeRole : some config.nodeRole = file.nodeRole
  mnemonic : config.mnemonic = file.mnemonic
  nodesWallets : config.nodesWallets = file.nodesWallets
  nodeGroupId : parseInt file.nodeGroupId = some config.nodeGroupId
  aliveTime : parseInt (some (orDefault (env "ALIVE_TIME") "12")) = some config.aliveTime
  service : config.nodeRole ≠ "noservice" → file.service ≠ none → config.service = file.service
  named : config.archipelName ≠ ""

theorem serves_set {role text : String} {value other : Option String} (h : text ≠ "")
    (hother : ∀ t, other = some t → t ≠ "") :
    ∀ t, (if role ≠ "noservice" then some (orDefault value text) else other) = some t → t ≠ "" := by
  intro t ht
  split at ht
  · cases ht
    exact orDefault_ne_empty value h
  · exact hother t ht

/-- A file with a role, a seed, a list of wallets and a number for the group of
the node is enough, whatever the environment has for these. -/
theorem constructConfiguration_takes {readToObj : String → Except String ConfigObject}
    {env : Environment} {file : FileConfig}
    (hfile : fromFile (constructConfigurationFromConfigFile readToObj) env = .ok (some file))
    {role : String} (hrole : file.nodeRole = some role) (hset : role ≠ "")
    (hmnemonic : file.mnemonic ≠ "") (hwallets : file.nodesWallets ≠ "") {group : ℤ}
    (hgroup : parseInt file.nodeGroupId = some group) {aliveTime : ℤ}
    (halive : parseInt (some (orDefault (env "ALIVE_TIME") "12")) = some aliveTime)
    (hpath : file.configFilePath ≠ "") (hservice : ∀ name, file.service = some name → name ≠ "") :
    ∃ config, constructConfiguration readToObj env = .ok config ∧ config.Takes file env := by
  obtain ⟨groupText, hgroupText⟩ : ∃ text, file.nodeGroupId = some text := by
    cases hid : file.nodeGroupId with
    | none =>
      rw [hid] at hgroup
      cases hgroup
    | some text => exact ⟨text, rfl⟩
  rw [hgroupText] at hgroup
  have hnumber := parseInt_ne_empty hgroup
  unfold constructConfiguration
  simp only [hfile, hrole, hgroupText, Option.bind_some, Option.map_some, orElse_set hset,
    orElse_set hmnemonic, orElse_set hwallets, orElse_set hnumber, orDefault_set hset,
    orDefault_set hnumber, bind, Except.bind, integer_ok halive, integer_ok hgroup]
  have hnone : ∀ t, (none : Option String) = some t → t ≠ "" := fun _ h => nomatch h
  rw [checkKeys_ok.mpr ?keys]
  case keys =>
    simp only [List.forall_mem_append, List.forall_mem_cons, isEmptyString_some,
      decide_eq_false_iff_not]
    refine ⟨⟨⟨⟨⟨⟨present_set ?_, hset, hmnemonic, hwallets, ?_, List.forall_mem_nil _⟩,
      present_set ?_⟩, ?_, List.forall_mem_nil _⟩, present_set ?_⟩, present_set ?_⟩,
      present_set ?_⟩
    · rintro t ht
      cases ht
      exact hpath
    · exact orDefault_ne_empty _ (by decide)
    · exact serves_set (by decide) hservice
    · exact orDefault_ne_empty _ (by decide)
    · exact serves_set (by decide) hnone
    · exact serves_set (by decide) hnone
    · exact serves_set (by decide) hnone
  refine ⟨_, rfl, hrole.symm, rfl, rfl, by rw [hgroupText]; exact hgroup, halive, ?_,
    orDefault_ne_empty _ (by decide)⟩
  intro hserves hfileService
  dsimp only at hserves ⊢
  rw [if_pos hserves]
  cases hname : file.service with
  | none => exact absurd hname hfileService
  | some name => rw [orElse_set (hservice name hname), orDefault_set (hservice name hname)]

end Archipel.Orchestrator
