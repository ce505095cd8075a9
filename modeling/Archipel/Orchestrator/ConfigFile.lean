import Archipel.ConfigFile

/-!
# Loading the configuration file (orchestrator/src/config.js)

What the orchestrator of a node reads in the file: the entries at its node id in
the lists of all nodes, and the name of the service unless its role is
`noservice`.
-/

namespace Archipel.Orchestrator
open ConfigFile

/-- The fields that are set from the file; `none` is an undefined entry. -/
structure FileConfig where
  nodeId : ℤ
  configFilePath : String
  nodeRole : Option String
  mnemonic : String
  nodesWallets : String
  archipelName : String
  nodeGroupId : Option String
  service : Option String
  deriving DecidableEq

/-- Get service config if not in no service role. -/
def serviceName (configObject : ConfigObject) (nodeRole : Option String) :
    Except String (Option String) :=
  if nodeRole ≠ some "noservice" then do
    let service ← property "name" configObject.services[0]?
    pure (some service.name)
  else
    pure none

/-- The body of the `try`. -/
def readConfigObject (configObject : ConfigObject) (configFilePath : String) (nodeId : ℤ) :
    Except String FileConfig := do
  -- Check if node number is valid must be from 1 and the nodesNumber
  if (configObject.nodesNumber : ℤ) < nodeId ∨ nodeId ≤ 0 then
    throw ("Error: Invalid node id. It must be between 1 and " ++ toString configObject.nodesNumber)
  let index := (nodeId - 1).toNat
  let nodesRole ← property "split" configObject.nodesRole
  let nodeRole := (split nodesRole)[index]?
  let archipelNode ← property "seed" configObject.archipelNodes[index]?
  let nodesGroupId ← property "split" configObject.nodesGroupId
  let service ← serviceName configObject nodeRole
  pure {
    nodeId := nodeId
    configFilePath := configFilePath
    nodeRole := nodeRole
    mnemonic := archipelNode.seed
    nodesWallets := configObject.archipelSr25519List
    archipelName := configObject.name
    nodeGroupId := (split nodesGroupId)[index]?
    service := service }

def constructConfigurationFromConfigFile (readToObj : String → Except String ConfigObject)
    (configFilePath : String) (nodeId : Option String) : Except String FileConfig := do
  -- Get and parse node id
  match parseInt nodeId with
  | none => throw "Error: Node id must be set and must be an integer"
  | some id =>
    let configObject ← readToObj configFilePath
    match readConfigObject configObject configFilePath id with
    | .ok config => pure config
    | .error error => throw ("Error: " ++ error ++ ". Please check config file.")

theorem serviceName_loads {configObject : ConfigObject} {role : String}
    (hservices : role ≠ "noservice" → configObject.services ≠ []) :
    ∃ service, serviceName configObject (some role) = .ok service := by
  unfold serviceName
  by_cases hno : role = "noservice"
  · rw [if_neg (by simp [hno])]
    exact ⟨none, rfl⟩
  · rw [if_pos (by simpa using hno)]
    obtain ⟨service, rest, hservice⟩ := List.exists_cons_of_ne_nil (hservices hno)
    rw [hservice]
    exact ⟨some service.name, rfl⟩

/-- A node whose id is among the nodes loads its own entries. -/
theorem constructConfigurationFromConfigFile_loads
    {readToObj : String → Except String ConfigObject} {configFilePath : String}
    {configObject : ConfigObject} (hfile : readToObj configFilePath = .ok configObject)
    {nodeId : Option String} {index : ℕ} (hid : parseInt nodeId = some ((index : ℤ) + 1))
    (hindex : index < configObject.nodesNumber) {roles : String}
    (hroles : configObject.nodesRole = some roles) {role : String}
    (hrole : (split roles)[index]? = some role) {node : ArchipelNode}
    (hnode : configObject.archipelNodes[index]? = some node) {groups : String}
    (hgroups : configObject.nodesGroupId = some groups)
    (hservices : role ≠ "noservice" → configObject.services ≠ []) :
    ∃ config, constructConfigurationFromConfigFile readToObj configFilePath nodeId = .ok config ∧
      config.nodeRole = some role ∧ config.mnemonic = node.seed ∧
      config.nodeGroupId = (split groups)[index]? := by
  have hvalid : ¬ ((configObject.nodesNumber : ℤ) < (index : ℤ) + 1 ∨ (index : ℤ) + 1 ≤ 0) := by
    omega
  have hto : ((index : ℤ) + 1 - 1).toNat = index := by omega
  have hread : ∃ config, readConfigObject configObject configFilePath ((index : ℤ) + 1) =
      .ok config ∧ config.nodeRole = some role ∧ config.mnemonic = node.seed ∧
      config.nodeGroupId = (split groups)[index]? := by
    obtain ⟨service, hservice⟩ := serviceName_loads hservices
    unfold readConfigObject
    rw [if_neg hvalid]
    simp only [hto, hroles, hnode, hgroups, property, bind, Except.bind, hrole, hservice]
    exact ⟨_, rfl, rfl, rfl, rfl⟩
  obtain ⟨config, hconfig, hfields⟩ := hread
  refine ⟨config, ?_, hfields⟩
  unfold constructConfigurationFromConfigFile
  rw [hid, hfile]
  show (match readConfigObject configObject configFilePath ((index : ℤ) + 1) with
    | .ok config => pure config
    | .error error => throw ("Error: " ++ error ++ ". Please check config file.")) = _
  rw [hconfig]
  rfl

theorem constructConfigurationFromConfigFile_ok
    {readToObj : String → Except String ConfigObject} {configFilePath : String}
    {configObject : ConfigObject} (hfile : readToObj configFilePath = .ok configObject)
    {nodeId : Option String} {config : FileConfig}
    (h : constructConfigurationFromConfigFile readToObj configFilePath nodeId = .ok config) :
    ∃ id, parseInt nodeId = some id ∧
      readConfigObject configObject configFilePath id = .ok config := by
  unfold constructConfigurationFromConfigFile at h
  cases hid : parseInt nodeId with
  | none =>
    rw [hid] at h
    cases h
  | some id =>
    rw [hid, hfile] at h
    refine ⟨id, rfl, ?_⟩
    change (match readConfigObject configObject configFilePath id with
      | .ok config => pure config
      | .error error => throw ("Error: " ++ error ++ ". Please check config file.")) = _ at h
    cases hread : readConfigObject configObject configFilePath id with
    | ok found =>
      rw [hread] at h
      exact h
    | error e =>
      rw [hread] at h
      cases h

/-- What is the same for every node. -/
theorem readConfigObject_copies {configObject : ConfigObject} {configFilePath : String} {nodeId : ℤ}
    {config : FileConfig} (h : readConfigObject configObject configFilePath nodeId = .ok config) :
    config.configFilePath = configFilePath ∧
      config.nodesWallets = configObject.archipelSr25519List ∧
      serviceName configObject config.nodeRole = .ok config.service := by
  unfold readConfigObject at h
  split at h
  · cases h
  obtain ⟨roles, -, h⟩ := bind_ok.mp h
  obtain ⟨node, -, h⟩ := bind_ok.mp h
  obtain ⟨groups, -, h⟩ := bind_ok.mp h
  obtain ⟨service, hservice, h⟩ := bind_ok.mp h
  cases h
  exact ⟨rfl, rfl, hservice⟩

end Archipel.Orchestrator
