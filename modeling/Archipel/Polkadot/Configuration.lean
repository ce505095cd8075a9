import Archipel.Environment
import Archipel.Polkadot.ConfigFile
import Archipel.Polkadot.Keys

/-!
# The configuration of the polkadot service (orchestrator/src/services/polkadot/config.js)

Everything that was set up to the keys has to be set, the list of reserved nodes
and the key file too when they come from the file. What follows is optional.
-/

namespace Archipel.Polkadot
open ConfigFile Environment Utils

/-- `none` is a property that the object does not have or that is undefined. -/
structure Configuration where
  nodeId : Option ℤ
  configFilePath : Option String
  polkadotUnixUserId : ℕ
  polkadotUnixGroupId : ℕ
  polkadotRpcPort : ℕ
  polkadotName : String
  polkadotImage : String
  polkadotPrefix : String
  polkadotKeyGran : String
  polkadotKeyBabe : String
  polkadotKeyImon : String
  polkadotKeyPara : String
  polkadotKeyAsgn : String
  polkadotKeyAudi : String
  polkadotValidatorName : Option String
  polkadotReservedNodes : Option String
  polkadotTelemetryUrl : Option String
  polkadotNodeKeyFile : Option String
  polkadotAdditionalOptions : Option String
  databasePath : String
  polkadotSessionKeyToCheck : Option String
  polkadotSimulateSynch : Bool
  polkadotArchiveNode : Bool
  testing : Bool
  deriving DecidableEq

/-- `value || 'text'` includes 'true'. -/
def isOn (value : Option String) (text : String) : Bool := includes (orDefault value text) "true"

def constructConfiguration (readToObj : String → Except String ConfigObject) (env : Environment) :
    Except String Configuration := do
  -- Get configuration from config file
  let file ← fromFile (constructConfigurationFromConfigFile readToObj) env
  -- Mandatory environment variables
  let polkadotName := orElse (file.map FileConfig.polkadotName) (env "POLKADOT_NAME")
  let polkadotImage := orDefault (env "POLKADOT_IMAGE") "parity/polkadot:latest"
  let polkadotPrefix := orDefault (env "POLKADOT_PREFIX") "node-"
  let polkadotKeyGran := orElse (file.map FileConfig.polkadotKeyGran) (env "POLKADOT_KEY_GRAN")
  let polkadotKeyBabe := orElse (file.map FileConfig.polkadotKeyBabe) (env "POLKADOT_KEY_BABE")
  let polkadotKeyImon := orElse (file.map FileConfig.polkadotKeyImon) (env "POLKADOT_KEY_IMON")
  let polkadotKeyPara := orElse (file.map FileConfig.polkadotKeyPara) (env "POLKADOT_KEY_PARA")
  let polkadotKeyAsgn := orElse (file.map FileConfig.polkadotKeyAsgn) (env "POLKADOT_KEY_ASGN")
  let polkadotKeyAudi := orElse (file.map FileConfig.polkadotKeyAudi) (env "POLKADOT_KEY_AUDI")
  -- Check for mandatory env variables
  checkKeys (present "configFilePath" (file.map FileConfig.configFilePath) ++
    [("polkadotName", polkadotName), ("polkadotKeyGran", polkadotKeyGran),
      ("polkadotKeyBabe", polkadotKeyBabe), ("polkadotKeyImon", polkadotKeyImon),
      ("polkadotKeyPara", polkadotKeyPara), ("polkadotKeyAsgn", polkadotKeyAsgn),
      ("polkadotKeyAudi", polkadotKeyAudi)] ++
    present "polkadotReservedNodes" (file.map FileConfig.polkadotReservedNodes) ++
    present "polkadotNodeKeyFile" (file.map FileConfig.polkadotNodeKeyFile) ++
    [("polkadotImage", some polkadotImage), ("polkadotPrefix", some polkadotPrefix)])
  -- Optional environment variables
  pure {
    nodeId := file.map FileConfig.nodeId
    configFilePath := file.map FileConfig.configFilePath
    polkadotUnixUserId := 1000
    polkadotUnixGroupId := 1000
    polkadotRpcPort := 9993
    polkadotName := polkadotName.getD ""
    polkadotImage := polkadotImage
    polkadotPrefix := polkadotPrefix
    polkadotKeyGran := polkadotKeyGran.getD ""
    polkadotKeyBabe := polkadotKeyBabe.getD ""
    polkadotKeyImon := polkadotKeyImon.getD ""
    polkadotKeyPara := polkadotKeyPara.getD ""
    polkadotKeyAsgn := polkadotKeyAsgn.getD ""
    polkadotKeyAudi := polkadotKeyAudi.getD ""
    polkadotValidatorName := env "POLKADOT_VALIDATOR_NAME"
    polkadotReservedNodes :=
      orElse (file.map FileConfig.polkadotReservedNodes) (env "POLKADOT_RESERVED_NODES")
    polkadotTelemetryUrl := env "POLKADOT_TELEMETRY_URL"
    polkadotNodeKeyFile :=
      orElse (file.map FileConfig.polkadotNodeKeyFile) (env "POLKADOT_NODE_KEY_FILE")
    polkadotAdditionalOptions := env "POLKADOT_ADDITIONAL_OPTIONS"
    databasePath := orDefault (env "POLKADOT_DATABASE_PATH") "/data"
    polkadotSessionKeyToCheck := env "POLKADOT_SESSION_KEY_TO_CHECK"
    polkadotSimulateSynch := isOn (env "POLKADOT_SIMULATE_SYNCH") "false"
    polkadotArchiveNode := isOn (env "POLKADOT_ARCHIVE_NODE") "true"
    testing := isOn (env "TESTING") "false" }

/-- The configuration that the methods of the service read. -/
def Configuration.config (config : Configuration) (hostname : String)
    (publicKey : String → Crypto → String) : Config where
  polkadotName := config.polkadotName
  polkadotImage := config.polkadotImage
  polkadotPrefix := config.polkadotPrefix
  polkadotRpcPort := config.polkadotRpcPort
  polkadotKeyGran := config.polkadotKeyGran
  polkadotKeyBabe := config.polkadotKeyBabe
  polkadotKeyImon := config.polkadotKeyImon
  polkadotKeyPara := config.polkadotKeyPara
  polkadotKeyAsgn := config.polkadotKeyAsgn
  polkadotKeyAudi := config.polkadotKeyAudi
  polkadotValidatorName := config.polkadotValidatorName
  polkadotReservedNodes := config.polkadotReservedNodes
  polkadotTelemetryUrl := config.polkadotTelemetryUrl
  polkadotNodeKeyFile := config.polkadotNodeKeyFile
  polkadotAdditionalOptions := config.polkadotAdditionalOptions
  polkadotSessionKeyToCheck := config.polkadotSessionKeyToCheck
  polkadotSimulateSynch := config.polkadotSimulateSynch
  databasePath := config.databasePath
  polkadotArchiveNode := config.polkadotArchiveNode
  testing := config.testing
  hostname := hostname
  publicKey := publicKey

/-- The configuration takes everything that the file sets out of the file. -/
structure Configuration.Takes (config : Configuration) (file : FileConfig) : Prop where
  polkadotName : config.polkadotName = file.polkadotName
  sessionKeys : ∀ hostname publicKey,
    (config.config hostname publicKey).sessionKeys.map SessionKey.mnemonic = file.sessionKeys
  polkadotReservedNodes : config.polkadotReservedNodes = some file.polkadotReservedNodes
  polkadotNodeKeyFile : config.polkadotNodeKeyFile = some file.polkadotNodeKeyFile

/-- A file with all the texts of the node is enough, whatever the environment
has for these. -/
theorem constructConfiguration_takes {readToObj : String → Except String ConfigObject}
    {env : Environment} {file : FileConfig}
    (hfile : fromFile (constructConfigurationFromConfigFile readToObj) env = .ok (some file))
    (hpath : file.configFilePath ≠ "") (hname : file.polkadotName ≠ "")
    (hkeys : ∀ key ∈ file.sessionKeys, key ≠ "") (hreserved : file.polkadotReservedNodes ≠ "")
    (hkeyFile : file.polkadotNodeKeyFile ≠ "") :
    ∃ config, constructConfiguration readToObj env = .ok config ∧ config.Takes file := by
  obtain ⟨hgran, hbabe, himon, hpara, hasgn, haudi⟩ : file.polkadotKeyGran ≠ "" ∧
      file.polkadotKeyBabe ≠ "" ∧ file.polkadotKeyImon ≠ "" ∧ file.polkadotKeyPara ≠ "" ∧
      file.polkadotKeyAsgn ≠ "" ∧ file.polkadotKeyAudi ≠ "" := by
    simpa [FileConfig.sessionKeys] using hkeys
  have hset : ∀ {text : String}, text ≠ "" → ∀ t, some text = some t → t ≠ "" := by
    rintro text htext t ht
    cases ht
    exact htext
  unfold constructConfiguration
  simp only [hfile, Option.map_some, orElse_set hname, orElse_set hgran, orElse_set hbabe,
    orElse_set himon, orElse_set hpara, orElse_set hasgn, orElse_set haudi, orElse_set hreserved,
    orElse_set hkeyFile, bind, Except.bind]
  rw [checkKeys_ok.mpr ?keys]
  case keys =>
    simp only [List.forall_mem_append, List.forall_mem_cons, isEmptyString_some,
      decide_eq_false_iff_not]
    exact ⟨⟨⟨⟨present_set (hset hpath), hname, hgran, hbabe, himon, hpara, hasgn, haudi,
      List.forall_mem_nil _⟩, present_set (hset hreserved)⟩, present_set (hset hkeyFile)⟩,
      orDefault_ne_empty _ (by decide), orDefault_ne_empty _ (by decide), List.forall_mem_nil _⟩
  exact ⟨_, rfl, rfl, fun _ _ => rfl, rfl, rfl⟩

end Archipel.Polkadot
