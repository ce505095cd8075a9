import Archipel.ConfigFile

/-!
# Loading the service configuration (orchestrator/src/services/polkadot/config.js)

The polkadot service of a node reads the field block and the node key file at its
node id in the lists of the first service.
-/

namespace Archipel.Polkadot
open ConfigFile

/-- The fields that are set from the file. -/
structure FileConfig where
  nodeId : ℤ
  configFilePath : String
  polkadotName : String
  polkadotKeyGran : String
  polkadotKeyBabe : String
  polkadotKeyImon : String
  polkadotKeyPara : String
  polkadotKeyAsgn : String
  polkadotKeyAudi : String
  polkadotReservedNodes : String
  polkadotNodeKeyFile : String
  deriving DecidableEq

/-- `configObject.services[0].fields[index].find(element => element.env === env).value` -/
def fieldValue (configObject : ConfigObject) (index : ℕ) (env : String) : Except String String := do
  let service ← property "fields" configObject.services[0]?
  let fields ← property "find" service.fields[index]?
  let element ← property "value" (fields.find? fun element => element.env == env)
  pure element.value

/-- The body of the `try`. -/
def readConfigObject (configObject : ConfigObject) (configFilePath : String) (nodeId : ℤ) :
    Except String FileConfig := do
  -- Check if node number is valid must be from 1 and the nodesNumber
  if (configObject.nodesNumber : ℤ) < nodeId ∨ nodeId ≤ 0 then
    throw ("Error: Invalid node id. It must be between 1 and " ++ toString configObject.nodesNumber)
  let index := (nodeId - 1).toNat
  let polkadotKeyGran ← fieldValue configObject index "POLKADOT_KEY_GRAN"
  let polkadotKeyBabe ← fieldValue configObject index "POLKADOT_KEY_BABE"
  let polkadotKeyImon ← fieldValue configObject index "POLKADOT_KEY_IMON"
  let polkadotKeyPara ← fieldValue configObject index "POLKADOT_KEY_PARA"
  let polkadotKeyAsgn ← fieldValue configObject index "POLKADOT_KEY_ASGN"
  let polkadotKeyAudi ← fieldValue configObject index "POLKADOT_KEY_AUDI"
  let service ← property "reservedPeersList" configObject.services[0]?
  let nodeIds ← property "idFile" service.nodeIds[index]?
  pure {
    nodeId := nodeId
    configFilePath := configFilePath
    polkadotName := configObject.name ++ "-node-" ++ toString nodeId
    polkadotKeyGran := polkadotKeyGran
    polkadotKeyBabe := polkadotKeyBabe
    polkadotKeyImon := polkadotKeyImon
    polkadotKeyPara := polkadotKeyPara
    polkadotKeyAsgn := polkadotKeyAsgn
    polkadotKeyAudi := polkadotKeyAudi
    polkadotReservedNodes := service.reservedPeersList
    polkadotNodeKeyFile := nodeIds.idFile }

def constructConfigurationFromConfigFile (readToObj : String → Except String ConfigObject)
    (configFilePath : String) (nodeId : Option String) : Except String FileConfig := do
  -- Get and parse node id
  match parseInt nodeId with
  | none => throw "Error: Node id must be set and must be an integer"
  | some id =>
    let configObject ← readToObj configFilePath
    match readConfigObject configObject configFilePath id with
    | .ok config => pure config
    | .error error => throw ("Error: " ++ error ++ ". Please check config file.")

/-- The session keys, in the order of the fields of the service. -/
def FileConfig.sessionKeys (config : FileConfig) : List String :=
  [config.polkadotKeyGran, config.polkadotKeyBabe, config.polkadotKeyImon, config.polkadotKeyPara,
    config.polkadotKeyAsgn, config.polkadotKeyAudi]

def sessionKeysEnv : List String :=
  ["POLKADOT_KEY_GRAN", "POLKADOT_KEY_BABE", "POLKADOT_KEY_IMON", "POLKADOT_KEY_PARA",
    "POLKADOT_KEY_ASGN", "POLKADOT_KEY_AUDI"]

def blockValue (block : List Field) (env : String) : Option String :=
  (block.find? fun element => element.env == env).map Field.value

theorem fieldValue_ok {configObject : ConfigObject} {service : Service}
    (hservice : configObject.services[0]? = some service) {index : ℕ} {env value : String} :
    fieldValue configObject index env = .ok value ↔
      ∃ block, service.fields[index]? = some block ∧ blockValue block env = some value := by
  unfold fieldValue
  simp only [bind_ok, property_ok, hservice, blockValue, Option.map_eq_some_iff,
    Option.some.injEq, exists_eq_left']
  constructor
  · intro h
    obtain ⟨block, hblock, element, hfind, hvalue⟩ := h
    cases hvalue
    exact ⟨block, hblock, element, hfind, rfl⟩
  · intro h
    obtain ⟨block, hblock, element, hfind, rfl⟩ := h
    exact ⟨block, hblock, element, hfind, rfl⟩

/-- What the loader takes out of the service, at the index of the node. -/
structure FileConfig.Takes (config : FileConfig) (service : Service) (index : ℕ) : Prop where
  block : ∃ block, service.fields[index]? = some block ∧
    config.sessionKeys.map some = sessionKeysEnv.map (blockValue block)
  idFile : (service.nodeIds[index]?).map NodeIds.idFile = some config.polkadotNodeKeyFile

theorem readConfigObject_takes {configObject : ConfigObject} {service : Service}
    (hservice : configObject.services[0]? = some service) {configFilePath : String} {index : ℕ}
    {config : FileConfig}
    (h : readConfigObject configObject configFilePath ((index : ℤ) + 1) = .ok config) :
    config.Takes service index := by
  have hto : ((index : ℤ) + 1 - 1).toNat = index := by omega
  unfold readConfigObject at h
  split at h
  · cases h
  simp only [hto, bind_ok, fieldValue_ok hservice, property_ok, hservice, Option.some.injEq,
    exists_eq_left'] at h
  obtain ⟨gran, ⟨block, hblock, hgran⟩, babe, ⟨_, hbabe', hbabe⟩, imon, ⟨_, himon', himon⟩,
    para, ⟨_, hpara', hpara⟩, asgn, ⟨_, hasgn', hasgn⟩, audi, ⟨_, haudi', haudi⟩, ids, hids,
    hconfig⟩ := h
  rw [hblock] at hbabe' himon' hpara' hasgn' haudi'
  cases hbabe'
  cases himon'
  cases hpara'
  cases hasgn'
  cases haudi'
  cases hconfig
  refine ⟨⟨block, hblock, ?_⟩, by rw [hids]; rfl⟩
  simp only [FileConfig.sessionKeys, sessionKeysEnv, List.map_cons, List.map_nil, hgran, hbabe,
    himon, hpara, hasgn, haudi]

theorem readConfigObject_loads {configObject : ConfigObject} {service : Service}
    (hservice : configObject.services[0]? = some service) (configFilePath : String) {index : ℕ}
    (hindex : index < configObject.nodesNumber) {block : List Field}
    (hblock : service.fields[index]? = some block)
    (hvalues : ∀ env ∈ sessionKeysEnv, ∃ value, blockValue block env = some value) {ids : NodeIds}
    (hids : service.nodeIds[index]? = some ids) :
    ∃ config, readConfigObject configObject configFilePath ((index : ℤ) + 1) = .ok config := by
  have hvalid : ¬ ((configObject.nodesNumber : ℤ) < (index : ℤ) + 1 ∨ (index : ℤ) + 1 ≤ 0) := by
    omega
  have hto : ((index : ℤ) + 1 - 1).toNat = index := by omega
  have hread : ∀ env ∈ sessionKeysEnv, ∃ value, fieldValue configObject index env = .ok value := by
    intro env henv
    obtain ⟨value, hvalue⟩ := hvalues env henv
    exact ⟨value, (fieldValue_ok hservice).mpr ⟨block, hblock, hvalue⟩⟩
  obtain ⟨gran, hgran⟩ := hread "POLKADOT_KEY_GRAN" (by simp [sessionKeysEnv])
  obtain ⟨babe, hbabe⟩ := hread "POLKADOT_KEY_BABE" (by simp [sessionKeysEnv])
  obtain ⟨imon, himon⟩ := hread "POLKADOT_KEY_IMON" (by simp [sessionKeysEnv])
  obtain ⟨para, hpara⟩ := hread "POLKADOT_KEY_PARA" (by simp [sessionKeysEnv])
  obtain ⟨asgn, hasgn⟩ := hread "POLKADOT_KEY_ASGN" (by simp [sessionKeysEnv])
  obtain ⟨audi, haudi⟩ := hread "POLKADOT_KEY_AUDI" (by simp [sessionKeysEnv])
  unfold readConfigObject
  rw [if_neg hvalid]
  simp only [hto, hgran, hbabe, himon, hpara, hasgn, haudi, hservice, property, bind, Except.bind,
    hids]
  exact ⟨_, rfl⟩

theorem constructConfigurationFromConfigFile_ok {readToObj : String → Except String ConfigObject}
    {configFilePath : String} {configObject : ConfigObject}
    (hfile : readToObj configFilePath = .ok configObject) {nodeId : Option String} {id : ℤ}
    (hid : parseInt nodeId = some id) {config : FileConfig} :
    constructConfigurationFromConfigFile readToObj configFilePath nodeId = .ok config ↔
      readConfigObject configObject configFilePath id = .ok config := by
  unfold constructConfigurationFromConfigFile
  rw [hid, hfile]
  show (match readConfigObject configObject configFilePath id with
    | .ok config => pure config
    | .error error => throw ("Error: " ++ error ++ ". Please check config file.")) = _ ↔ _
  cases readConfigObject configObject configFilePath id with
  | ok found => exact Iff.rfl
  | error e =>
    constructor
    · intro h
      cases h
    · intro h
      cases h

/-- What does not depend on the blocks and the key files. -/
theorem readConfigObject_copies {configObject : ConfigObject} {configFilePath : String} {nodeId : ℤ}
    {config : FileConfig} (h : readConfigObject configObject configFilePath nodeId = .ok config) :
    config.configFilePath = configFilePath ∧
      config.polkadotName = configObject.name ++ "-node-" ++ toString nodeId ∧
      ∃ service, configObject.services[0]? = some service ∧
        config.polkadotReservedNodes = service.reservedPeersList := by
  unfold readConfigObject at h
  split at h
  · cases h
  obtain ⟨gran, -, h⟩ := bind_ok.mp h
  obtain ⟨babe, -, h⟩ := bind_ok.mp h
  obtain ⟨imon, -, h⟩ := bind_ok.mp h
  obtain ⟨para, -, h⟩ := bind_ok.mp h
  obtain ⟨asgn, -, h⟩ := bind_ok.mp h
  obtain ⟨audi, -, h⟩ := bind_ok.mp h
  obtain ⟨service, hservice, h⟩ := bind_ok.mp h
  obtain ⟨ids, -, h⟩ := bind_ok.mp h
  cases h
  exact ⟨rfl, rfl, service, property_ok.mp hservice, rfl⟩

end Archipel.Polkadot
