import Archipel.Cli.Totality
import Archipel.Front
import Archipel.Orchestrator.ConfigFile
import Archipel.Polkadot.ConfigFile
import Archipel.Text

/-!
# Loading a generated federation

The lists of all nodes have one entry for each node and the lists of the service
one for each service node, and both loaders read at the node id. A node loads
its own role, seed and group whatever the roles are; the service of every
operator loads exactly when all operators stand before all other nodes.
-/

namespace Archipel.Cli
open Async ConfigFile
open Polkadot (blockValue sessionKeysEnv)

/-! ### What is asked of a federation -/

def ips (configData : ConfigData) : List String := (configData.publicIps.map split).getD []

def roles (configData : ConfigData) : List String := (configData.nodesRole.map split).getD []

def groups (configData : ConfigData) : List String := (configData.nodesGroupId.map split).getD []

/-- One role and one group for each ip, the number of service nodes that
`initConfig` computes, and one polkadot service with a block for each of them. -/
structure Initialised (configData : ConfigData) (blocks : List FieldsData) : Prop where
  rolesLength : (roles configData).length = (ips configData).length
  groupsLength : (groups configData).length = (ips configData).length
  counted : configData.serviceNodesNumber = some (serviceNodesNumber (roles configData))
  services : configData.services = some [⟨"polkadot", blocks⟩]
  blocksLength : blocks.length = serviceNodesNumber (roles configData)

/-- A run of `generateConfig` on `configData` that ended well, with what it saved
and its calls. -/
structure Generates (host : Host) (configData : ConfigData) (config : ConfigObject) (log : Log) :
    Prop where
  runs : Runs (logged (answering configData)) (generateConfig host) ((), ((), [])) (.ok ())
    ((), ((), log))
  saved : config ∈ log.filterMap saved

def Operator (configData : ConfigData) (nodeId : ℕ) : Prop :=
  1 ≤ nodeId ∧ (roles configData)[nodeId - 1]? = some "operator"

/-- The session keys are the values of the block at this index. -/
def Holds (blocks : List FieldsData) (config : Polkadot.FileConfig) (index : ℕ) : Prop :=
  config.sessionKeys.map some =
    polkadotFields.map fun field => blocks[index]?.bind fun block => block field.name

section Loadable
variable (readToObj : String → Except String ConfigObject) (configFilePath : String)

def loadNode (nodeId : ℕ) : Except String Orchestrator.FileConfig :=
  Orchestrator.constructConfigurationFromConfigFile readToObj configFilePath
    (some (toString nodeId))

def loadService (nodeId : ℕ) : Except String Polkadot.FileConfig :=
  Polkadot.constructConfigurationFromConfigFile readToObj configFilePath (some (toString nodeId))

/-- Every node loads its own role, seed and group from the file, and the service
of every operator loads, with a block and a key file that no other operator has. -/
structure Loadable (configData : ConfigData) (blocks : List FieldsData) (seeds : List String) :
    Prop where
  node : ∀ nodeId, 1 ≤ nodeId → nodeId ≤ (ips configData).length →
    ∃ config, loadNode readToObj configFilePath nodeId = .ok config ∧
      config.nodeRole = (roles configData)[nodeId - 1]? ∧
      some config.mnemonic = seeds[nodeId - 1]? ∧
      config.nodeGroupId = (groups configData)[nodeId - 1]?
  service : ∀ nodeId, Operator configData nodeId →
    ∃ config, loadService readToObj configFilePath nodeId = .ok config
  block : ∃ block : ℕ → ℕ,
    (∀ nodeId config, Operator configData nodeId →
      loadService readToObj configFilePath nodeId = .ok config →
        Holds blocks config (block nodeId)) ∧
    ∀ nodeId nodeId', Operator configData nodeId → Operator configData nodeId' →
      block nodeId = block nodeId' → nodeId = nodeId'
  keyFile : ∀ nodeId nodeId' config config', Operator configData nodeId →
    Operator configData nodeId' → nodeId ≠ nodeId' →
    loadService readToObj configFilePath nodeId = .ok config →
    loadService readToObj configFilePath nodeId' = .ok config' →
      config.polkadotNodeKeyFile ≠ config'.polkadotNodeKeyFile

end Loadable

/-- The node is a service node. -/
def serves (role : String) : Bool := role != "noservice"

/-- Every operator stands before every noservice node. -/
def OperatorsFirst (configData : ConfigData) : Prop := Front serves (roles configData)

instance (configData : ConfigData) : Decidable (OperatorsFirst configData) :=
  inferInstanceAs (Decidable (Front serves (roles configData)))

/-! ### The lists of a generated federation -/

theorem serviceNodesNumber_eq (roles : List String) :
    serviceNodesNumber roles = roles.countP serves := by
  have hfrom : ∀ (l : List String) (a : ℕ),
      l.foldl (fun a v => if v ≠ "noservice" then a + 1 else a) a = a + l.countP serves := by
    intro l
    induction l with
    | nil => simp
    | cons v l ih =>
      intro a
      rw [List.foldl_cons, ih, List.countP_cons]
      by_cases hv : v = "noservice"
      · simp [hv, serves]
      · simp only [serves, ne_eq, hv, not_false_eq_true, if_true, bne_iff_ne]
        omega
  simpa [serviceNodesNumber] using hfrom roles 0

theorem forall₂_getElem? {α β : Type} {R : α → β → Prop} {l : List α} {l' : List β}
    (h : List.Forall₂ R l l') {i : ℕ} {b : β} (hb : l'[i]? = some b) :
    ∃ a, l[i]? = some a ∧ R a b := by
  induction h generalizing i with
  | nil => simp at hb
  | cons hab _ ih =>
    cases i with
    | zero =>
      cases hb
      exact ⟨_, rfl, hab⟩
    | succ i => exact ih hb

theorem setField_ok {fieldsData : FieldsData} {field : ServiceField} {element : Field}
    (h : setField fieldsData field = .ok element) :
    fieldsData field.name = some element.value ∧ element.env = field.env := by
  unfold setField at h
  cases hvalue : fieldsData field.name with
  | none =>
    rw [hvalue] at h
    cases h
  | some value =>
    simp only [hvalue] at h
    split at h
    · cases h
      exact ⟨rfl, rfl⟩
    · cases h

/-- A block has the value of each field behind the variable of the field. -/
theorem blockValue_setField {fieldsData : FieldsData} {names : List ServiceField}
    {block : List Field}
    (h : List.Forall₂ (fun field element => setField fieldsData field = .ok element) names block)
    (hnodup : (names.map ServiceField.env).Nodup) {field : ServiceField} (hfield : field ∈ names) :
    ∃ value, fieldsData field.name = some value ∧ blockValue block field.env = some value := by
  induction h with
  | nil => simp at hfield
  | @cons first element names block hset hrest ih =>
    rw [List.map_cons, List.nodup_cons] at hnodup
    obtain ⟨hname, henv⟩ := setField_ok hset
    rcases List.mem_cons.mp hfield with rfl | hmem
    · refine ⟨element.value, hname, ?_⟩
      simp [blockValue, henv]
    · obtain ⟨value, hvalue, hblock⟩ := ih hnodup.2 hmem
      have hne : first.env ≠ field.env := by
        intro heq
        apply hnodup.1
        rw [heq]
        exact List.mem_map_of_mem hmem
      refine ⟨value, hvalue, ?_⟩
      unfold blockValue
      rw [List.find?_cons, henv, beq_eq_false_iff_ne.mpr hne]
      exact hblock

theorem sessionKeysEnv_eq : sessionKeysEnv = polkadotFields.map ServiceField.env := rfl

theorem polkadotFields_nodup : (polkadotFields.map ServiceField.env).Nodup := by decide

theorem nodeIdFile_injective {service : String} {i j : ℕ}
    (h : nodeIdFile service i = nodeIdFile service j) : i = j := by
  have hdigits : toString i = toString j := by
    have hlists := congrArg String.toList h
    simp only [nodeIdFile, String.toList_append, List.append_cancel_left_eq] at hlists
    exact String.toList_inj.mp hlists
  exact Text.toString_inj hdigits

/-! ### What a run writes -/

theorem split_ne_nil (text : String) : split text ≠ [] := by
  unfold split
  rw [ne_eq, List.map_eq_nil_iff]
  exact List.splitOn_ne_nil _ _

theorem validateTexts_roles {host : Host} {configData : ConfigData}
    (h : validateTexts host configData = .ok ()) :
    ∀ role ∈ roles configData, role = "operator" ∨ role = "noservice" := by
  have hroles : validateNodesRole configData.nodesRole = .ok () := by
    unfold validateTexts at h
    obtain ⟨_, -, h⟩ := bind_ok.mp h
    obtain ⟨_, -, h⟩ := bind_ok.mp h
    split at h
    · cases h
    · obtain ⟨_, -, h⟩ := bind_ok.mp h
      exact h
  obtain ⟨text, htext, hall⟩ := bind_ok.mp hroles
  have hsome : configData.nodesRole = some text := property_ok.mp htext
  intro role hrole
  have hmem : role ∈ split text := by simpa [roles, hsome] using hrole
  have hvalid := forM_ok hall role hmem
  unfold validateRole at hvalid
  split at hvalid
  · cases hvalid
  · next hknown =>
    by_cases hoperator : role = "operator"
    · exact .inl hoperator
    · refine .inr ?_
      by_contra hno
      exact hknown ⟨hoperator, hno⟩

/-- config.json as the loaders see it. -/
structure Written (configData : ConfigData) (blocks : List FieldsData) (config : ConfigObject)
    (service : Service) : Prop where
  copied : config.toCopied = configData.toCopied
  nodesNumber : config.nodesNumber = (ips configData).length
  archipelNodes : config.archipelNodes.length = config.nodesNumber
  nodes : 0 < config.nodesNumber
  services : config.services = [service]
  fields : List.Forall₂ (fun fieldsData block => polkadotFields.mapM (setField fieldsData) =
    .ok block) blocks service.fields
  idFiles : service.nodeIds.map NodeIds.idFile =
    (List.range blocks.length).map (nodeIdFile "polkadot")
  known : ∀ role ∈ roles configData, role = "operator" ∨ role = "noservice"

/-- The first service, which is the one that the nodes load. -/
structure FirstService (blocks : List FieldsData) (config : ConfigObject) (service : Service) :
    Prop where
  first : config.services[0]? = some service
  fields : List.Forall₂ (fun fieldsData block => polkadotFields.mapM (setField fieldsData) =
    .ok block) blocks service.fields
  idFiles : service.nodeIds.map NodeIds.idFile =
    (List.range blocks.length).map (nodeIdFile "polkadot")

theorem Written.firstService {configData : ConfigData} {blocks : List FieldsData}
    {config : ConfigObject} {service : Service} (hw : Written configData blocks config service) :
    FirstService blocks config service :=
  ⟨by rw [hw.services]; rfl, hw.fields, hw.idFiles⟩

/-- What a run that saved `config` says about it. -/
theorem generates_constructed {host : Host} {configData : ConfigData} {config : ConfigObject}
    {log : Log} (h : Generates host configData config log) :
    validateTexts host configData = .ok () ∧ Constructed configData config ∧
      log.filterMap drawn = config.archipelNodes.map ArchipelNode.seed := by
  obtain ⟨htexts, found, hconstructed, made, hmade, hdrawn, hsaved⟩ := runs_generateConfig h.runs
  simp only [List.nil_append] at hmade
  subst hmade
  have hconfig : config = found := by
    have hmem := h.saved
    rw [hsaved] at hmem
    exact List.mem_singleton.mp hmem
  subst hconfig
  exact ⟨htexts, hconstructed, hdrawn⟩

theorem generates_written {host : Host} {configData : ConfigData} {blocks : List FieldsData}
    (hdata : Initialised configData blocks) {config : ConfigObject} {log : Log}
    (h : Generates host configData config log) :
    (∃ service, Written configData blocks config service) ∧
      log.filterMap drawn = config.archipelNodes.map ArchipelNode.seed := by
  obtain ⟨htexts, hconstructed, hdrawn⟩ := generates_constructed h
  obtain ⟨publicIps, hips, hnumber⟩ := hconstructed.nodesNumber
  have hlength : config.nodesNumber = (ips configData).length := by
    simp [ips, hips, hnumber]
  have hnodes : 0 < config.nodesNumber := by
    rw [hnumber]
    exact List.length_pos_of_ne_nil (split_ne_nil publicIps)
  obtain ⟨servicesData, hservicesData, hserved⟩ := hconstructed.services
  rw [hdata.services] at hservicesData
  cases hservicesData
  rw [hdata.counted, Option.getD_some, ← hdata.blocksLength] at hserved
  obtain ⟨service, rest, hone, hrest, hservices⟩ := List.forall₂_cons_left_iff.mp hserved
  rw [List.forall₂_nil_left_iff] at hrest
  subst hrest
  obtain ⟨names, hnames, hfields⟩ := hone.fields
  cases hnames
  exact ⟨⟨service, hconstructed.copied, hlength, hconstructed.archipelNodes, hnodes, hservices,
    mapM_ok hfields, hone.idFiles, validateTexts_roles htexts⟩, hdrawn⟩

/-! ### What a node reads -/

section Read
variable {readToObj : String → Except String ConfigObject} {configFilePath : String}
variable {configData : ConfigData} {blocks : List FieldsData} {config : ConfigObject}
variable {service : Service}

theorem parseInt_node (index : ℕ) :
    parseInt (some (toString (index + 1))) = some ((index : ℤ) + 1) := by
  rw [parseInt_toString]
  push_cast
  rfl

theorem loadService_ok (hfile : readToObj configFilePath = .ok config) {index : ℕ}
    {loaded : Polkadot.FileConfig} :
    loadService readToObj configFilePath (index + 1) = .ok loaded ↔
      Polkadot.readConfigObject config configFilePath ((index : ℤ) + 1) = .ok loaded :=
  Polkadot.constructConfigurationFromConfigFile_ok hfile (parseInt_node index)

/-- The values of a block, as the service of a node reads them. -/
theorem FirstService.block (hw : FirstService blocks config service) {index : ℕ}
    {block : List Field} (hblock : service.fields[index]? = some block) :
    ∃ fieldsData, blocks[index]? = some fieldsData ∧ ∀ field ∈ polkadotFields,
      ∃ value, fieldsData field.name = some value ∧ blockValue block field.env = some value := by
  obtain ⟨fieldsData, hdata, hset⟩ := forall₂_getElem? hw.fields hblock
  refine ⟨fieldsData, hdata, ?_⟩
  intro field hfield
  exact blockValue_setField (mapM_ok hset) polkadotFields_nodup hfield

theorem FirstService.reads (hw : FirstService blocks config service)
    (hfile : readToObj configFilePath = .ok config) {index : ℕ} {loaded : Polkadot.FileConfig}
    (h : loadService readToObj configFilePath (index + 1) = .ok loaded) :
    index < blocks.length ∧ Holds blocks loaded index ∧
      loaded.polkadotNodeKeyFile = nodeIdFile "polkadot" index := by
  have htakes := Polkadot.readConfigObject_takes hw.first ((loadService_ok hfile).mp h)
  obtain ⟨block, hblock, hkeys⟩ := htakes.block
  obtain ⟨fieldsData, hdata, hvalues⟩ := hw.block hblock
  have hindex : index < blocks.length := (List.getElem?_eq_some_iff.mp hdata).1
  have hfiles := htakes.idFile
  rw [← List.getElem?_map, hw.idFiles, List.getElem?_map, List.getElem?_range hindex] at hfiles
  refine ⟨hindex, ?_, (Option.some.inj hfiles).symm⟩
  unfold Holds
  rw [hkeys, sessionKeysEnv_eq, List.map_map]
  refine List.map_congr_left ?_
  intro field hfield
  obtain ⟨value, hname, hvalue⟩ := hvalues field hfield
  rw [Function.comp_apply, hvalue, hdata, Option.bind_some, hname]

theorem FirstService.loads (hw : FirstService blocks config service)
    (hfile : readToObj configFilePath = .ok config) {index : ℕ} (hindex : index < blocks.length)
    (hnode : index < config.nodesNumber) :
    ∃ loaded, loadService readToObj configFilePath (index + 1) = .ok loaded := by
  have hlength : index < service.fields.length := by rw [← hw.fields.length_eq]; exact hindex
  have hblock : service.fields[index]? = some service.fields[index] :=
    List.getElem?_eq_getElem hlength
  have hids : index < service.nodeIds.length := by
    have hfiles := congrArg List.length hw.idFiles
    simp only [List.length_map, List.length_range] at hfiles
    omega
  obtain ⟨fieldsData, -, hvalues⟩ := hw.block hblock
  have henv : ∀ env ∈ sessionKeysEnv,
      ∃ value, blockValue service.fields[index] env = some value := by
    intro env henv
    rw [sessionKeysEnv_eq] at henv
    obtain ⟨field, hfield, rfl⟩ := List.mem_map.mp henv
    obtain ⟨value, -, hvalue⟩ := hvalues field hfield
    exact ⟨value, hvalue⟩
  obtain ⟨loaded, hloaded⟩ := Polkadot.readConfigObject_loads hw.first configFilePath hnode hblock
    henv (List.getElem?_eq_getElem hids)
  exact ⟨loaded, (loadService_ok hfile).mpr hloaded⟩

theorem loadService_reads (hw : Written configData blocks config service)
    (hfile : readToObj configFilePath = .ok config) {index : ℕ} {loaded : Polkadot.FileConfig}
    (h : loadService readToObj configFilePath (index + 1) = .ok loaded) :
    index < blocks.length ∧ Holds blocks loaded index ∧
      loaded.polkadotNodeKeyFile = nodeIdFile "polkadot" index :=
  hw.firstService.reads hfile h

theorem loadService_loads (hw : Written configData blocks config service)
    (hfile : readToObj configFilePath = .ok config) {index : ℕ} (hindex : index < blocks.length)
    (hnode : index < config.nodesNumber) :
    ∃ loaded, loadService readToObj configFilePath (index + 1) = .ok loaded :=
  hw.firstService.loads hfile hindex hnode

/-- A list with an entry was set. -/
theorem split_set {text : Option String} (h : 0 < ((text.map split).getD []).length) :
    ∃ t, text = some t ∧ (text.map split).getD [] = split t := by
  cases text with
  | none => exact absurd h (Nat.lt_irrefl 0)
  | some t => exact ⟨t, rfl, rfl⟩

theorem loadNode_loads (hdata : Initialised configData blocks)
    (hw : Written configData blocks config service)
    (hfile : readToObj configFilePath = .ok config) {index : ℕ}
    (hindex : index < (ips configData).length) :
    ∃ loaded, loadNode readToObj configFilePath (index + 1) = .ok loaded ∧
      loaded.nodeRole = (roles configData)[index]? ∧
      some loaded.mnemonic = (config.archipelNodes.map ArchipelNode.seed)[index]? ∧
      loaded.nodeGroupId = (groups configData)[index]? := by
  have hnode : index < config.nodesNumber := by rw [hw.nodesNumber]; exact hindex
  have hlength : index < config.archipelNodes.length := by rw [hw.archipelNodes]; exact hnode
  have hroles : ∃ text, configData.nodesRole = some text ∧ roles configData = split text :=
    split_set (by rw [← roles, hdata.rolesLength]; omega)
  have hgroups : ∃ text, configData.nodesGroupId = some text ∧ groups configData = split text :=
    split_set (by rw [← groups, hdata.groupsLength]; omega)
  obtain ⟨rolesText, hrolesText, hsplit⟩ := hroles
  obtain ⟨groupsText, hgroupsText, hsplit'⟩ := hgroups
  have hrole : index < (split rolesText).length := by
    rw [← hsplit, hdata.rolesLength]
    exact hindex
  have hcopiedRoles : config.nodesRole = some rolesText := by rw [hw.copied]; exact hrolesText
  have hcopiedGroups : config.nodesGroupId = some groupsText := by rw [hw.copied]; exact hgroupsText
  obtain ⟨loaded, hloaded, hrole', hseed, hgroup⟩ :=
    Orchestrator.constructConfigurationFromConfigFile_loads hfile (parseInt_node index) hnode
      hcopiedRoles (List.getElem?_eq_getElem hrole) (List.getElem?_eq_getElem hlength)
      hcopiedGroups (fun _ => by rw [hw.services]; simp)
  refine ⟨loaded, hloaded, ?_, ?_, ?_⟩
  · rw [hrole', hsplit, List.getElem?_eq_getElem hrole]
  · rw [hseed, List.getElem?_map, List.getElem?_eq_getElem hlength, Option.map_some]
  · rw [hgroup, hsplit']

end Read

/-! ### Federations of four nodes -/

theorem behaving_answering {configData : ConfigData} (c : Call) (w : Unit)
    (r : Except String (api.Ret c)) (w' : Unit) (h : behaving configData c w r w') :
    answering configData c w r w' := by
  obtain ⟨a, rfl, ha⟩ := h
  cases c with
  | loadJSONFile path => exact congrArg Except.ok ha
  | prepareTempDirectory path => trivial
  | fileExists path => trivial
  | getPasswordFromUser => trivial
  | execAsync cmd => trivial
  | saveJSONToPath json path => trivial
  | rmNonEmptyDir path => trivial

theorem delivers_generates {host : Host} {configData : ConfigData}
    (hdelivers : Delivers (behaving configData) (generateConfig host) fun _ => True) :
    ∃ config log, Generates host configData config log := by
  obtain ⟨_, y, hrun, -⟩ := delivers_runs hdelivers (behaving_total configData) () ((), [])
  have hanswering : Runs (logged (answering configData)) (generateConfig host) ((), ((), []))
      (.ok ()) y := by
    refine runs_mono ?_ hrun
    exact fun c w r w' h => ⟨behaving_answering c w.1 r w'.1 h.1, h.2⟩
  obtain ⟨-, config, -, made, hmade, -, hsaved⟩ := runs_generateConfig hanswering
  refine ⟨config, y.2.2, hanswering, ?_⟩
  rw [hmade, List.nil_append, hsaved]
  exact List.mem_singleton_self config

/-- A federation is generated from every archipel.json that is valid and filled. -/
theorem generates_exists {host : Host} {configData : ConfigData} {blocks : List FieldsData}
    (htexts : validateTexts host configData = .ok ())
    (hservices : configData.services = some [⟨"polkadot", blocks⟩])
    (hfilled : ∀ block ∈ blocks, Filled block) :
    ∃ config log, Generates host configData config log := by
  apply delivers_generates (delivers_generateConfig htexts hservices _)
  intro service hservice
  rw [List.mem_singleton.mp hservice]
  exact generable_filled hfilled

def plainHost : Host where
  isIP ip := ["1.1.1.1", "2.2.2.2", "3.3.3.3", "4.4.4.4"].contains ip
  isValidDomain _ := false
  toLowerCase name := String.ofList (name.toList.map Char.toLower)
  configZip := "/root/config.zip"

def plainBlock (number : String) : FieldsData := fun name =>
  if (polkadotFields.map ServiceField.name).contains name then some (name ++ " " ++ number)
  else none

def plainBlocks : List FieldsData := [plainBlock "1", plainBlock "2", plainBlock "3"]

/-- Three service nodes among four nodes. -/
def plainData (nodesRole : String) : ConfigData where
  name := some "Archipel"
  publicIps := some "1.1.1.1,2.2.2.2,3.3.3.3,4.4.4.4"
  wireguardPorts := none
  nodesRole := some nodesRole
  nodesGroup := some "A,A,B,B"
  nodesGroupId := some "1,1,2,2"
  nexmoApiKey := none
  nexmoApiSecret := none
  nexmoApiSignatureMethod := none
  nexmoApiSignatureSecret := none
  nexmoPhoneNumber := none
  outletPhoneNumber := none
  serviceNodesNumber := some 3
  services := some [⟨"polkadot", plainBlocks⟩]
  service := none

theorem plainBlocks_filled : ∀ block ∈ plainBlocks, Filled block := by
  have hfilled : ∀ number, Filled (plainBlock number) := by
    intro number field hfield
    have hname : (polkadotFields.map ServiceField.name).contains field.name = true := by
      rw [List.contains_iff_mem]
      exact List.mem_map_of_mem hfield
    exact ⟨field.name ++ " " ++ number, if_pos hname, by simp⟩
  intro block hblock
  simp only [plainBlocks, List.mem_cons, List.not_mem_nil, or_false] at hblock
  rcases hblock with rfl | rfl | rfl
  · exact hfilled "1"
  · exact hfilled "2"
  · exact hfilled "3"

/-! ### All nodes load exactly when the operators come first -/

theorem serves_operator : serves "operator" = true := rfl

theorem operator_index {configData : ConfigData} {nodeId : ℕ} (h : Operator configData nodeId) :
    ∃ index, nodeId = index + 1 ∧ (roles configData)[index]? = some "operator" := by
  obtain ⟨hpos, hrole⟩ := h
  exact ⟨nodeId - 1, by omega, hrole⟩

section Iff
variable {readToObj : String → Except String ConfigObject} {configFilePath : String}
variable {configData : ConfigData} {blocks : List FieldsData} {config : ConfigObject}
variable {service : Service} {seeds : List String}

/-- A role that serves is an operator, and its service was loaded from a block. -/
theorem index_of_loadable (hw : Written configData blocks config service)
    (hfile : readToObj configFilePath = .ok config)
    (h : Loadable readToObj configFilePath configData blocks seeds) (index : ℕ) (role : String)
    (hrole : (roles configData)[index]? = some role) (hserves : serves role = true) :
    index < blocks.length := by
  have hoperator : role = "operator" := by
    rcases hw.known role (List.mem_of_getElem? hrole) with rfl | rfl
    · rfl
    · cases hserves
  rw [hoperator] at hrole
  obtain ⟨loaded, hloaded⟩ := h.service (index + 1) ⟨by omega, hrole⟩
  exact (loadService_reads hw hfile hloaded).1

theorem loadable_of_index (hdata : Initialised configData blocks)
    (hw : Written configData blocks config service)
    (hseeds : seeds = config.archipelNodes.map ArchipelNode.seed)
    (hfile : readToObj configFilePath = .ok config)
    (hindex : ∀ (index : ℕ) (role : String), (roles configData)[index]? = some role →
      serves role = true → index < blocks.length) :
    Loadable readToObj configFilePath configData blocks seeds := by
  have hreads : ∀ nodeId loaded, Operator configData nodeId →
      loadService readToObj configFilePath nodeId = .ok loaded →
        Holds blocks loaded (nodeId - 1) ∧
          loaded.polkadotNodeKeyFile = nodeIdFile "polkadot" (nodeId - 1) := by
    intro nodeId loaded hoperator hloaded
    obtain ⟨index, rfl, -⟩ := operator_index hoperator
    exact (loadService_reads hw hfile hloaded).2
  refine ⟨?_, ?_, ⟨fun nodeId => nodeId - 1, ?_, ?_⟩, ?_⟩
  · intro nodeId hpos hle
    obtain ⟨index, rfl⟩ : ∃ index, nodeId = index + 1 := ⟨nodeId - 1, by omega⟩
    rw [hseeds]
    exact loadNode_loads hdata hw hfile (by omega)
  · intro nodeId hoperator
    obtain ⟨index, rfl, hrole⟩ := operator_index hoperator
    have hlt := hindex index "operator" hrole serves_operator
    have hnode : index < config.nodesNumber := by
      rw [hw.nodesNumber, ← hdata.rolesLength]
      exact (List.getElem?_eq_some_iff.mp hrole).1
    exact loadService_loads hw hfile hlt hnode
  · intro nodeId loaded hoperator hloaded
    exact (hreads nodeId loaded hoperator hloaded).1
  · intro nodeId nodeId' hoperator hoperator' heq
    have hpos := hoperator.1
    have hpos' := hoperator'.1
    dsimp only at heq
    omega
  · intro nodeId nodeId' loaded loaded' hoperator hoperator' hne hloaded hloaded' heq
    rw [(hreads nodeId loaded hoperator hloaded).2,
      (hreads nodeId' loaded' hoperator' hloaded').2] at heq
    have hsame := nodeIdFile_injective heq
    have hpos := hoperator.1
    have hpos' := hoperator'.1
    omega

end Iff

theorem loadable_iff_operatorsFirst (host : Host) {configData : ConfigData}
    {blocks : List FieldsData} (hdata : Initialised configData blocks) {config : ConfigObject}
    {log : Log} (hgenerates : Generates host configData config log)
    {readToObj : String → Except String ConfigObject} {configFilePath : String}
    (hfile : readToObj configFilePath = .ok config) :
    Loadable readToObj configFilePath configData blocks (log.filterMap drawn) ↔
      OperatorsFirst configData := by
  obtain ⟨⟨service, hw⟩, hseeds⟩ := generates_written hdata hgenerates
  have hcount : blocks.length = (roles configData).countP serves := by
    rw [hdata.blocksLength, serviceNodesNumber_eq]
  unfold OperatorsFirst
  rw [front_iff_index, ← hcount]
  constructor
  · intro h
    exact index_of_loadable hw hfile h
  · intro hindex
    exact loadable_of_index hdata hw hseeds hfile hindex

theorem operators_first_loads :
    ∃ config log, Generates plainHost (plainData "operator,operator,operator,noservice") config
      log ∧ Loadable (fun _ => .ok config) "/config/config.json"
        (plainData "operator,operator,operator,noservice") plainBlocks (log.filterMap drawn) := by
  have hdata : Initialised (plainData "operator,operator,operator,noservice") plainBlocks :=
    ⟨by decide, by decide, by decide, rfl, by decide⟩
  have htexts : validateTexts plainHost (plainData "operator,operator,operator,noservice") =
      .ok () := by decide
  obtain ⟨config, log, hgenerates⟩ := generates_exists htexts rfl plainBlocks_filled
  have hfile : (fun _ : String => (.ok config : Except String ConfigObject))
      "/config/config.json" = .ok config := rfl
  exact ⟨config, log, hgenerates,
    (loadable_iff_operatorsFirst plainHost hdata hgenerates hfile).mpr (by decide)⟩

theorem noservice_first_fails :
    Initialised (plainData "noservice,operator,operator,operator") plainBlocks ∧
    (∀ block ∈ plainBlocks, Filled block) ∧
    ∃ config log, Generates plainHost (plainData "noservice,operator,operator,operator") config
      log ∧ ¬ Loadable (fun _ => .ok config) "/config/config.json"
        (plainData "noservice,operator,operator,operator") plainBlocks (log.filterMap drawn) := by
  have hdata : Initialised (plainData "noservice,operator,operator,operator") plainBlocks :=
    ⟨by decide, by decide, by decide, rfl, by decide⟩
  have htexts : validateTexts plainHost (plainData "noservice,operator,operator,operator") =
      .ok () := by decide
  obtain ⟨config, log, hgenerates⟩ := generates_exists htexts rfl plainBlocks_filled
  refine ⟨hdata, plainBlocks_filled, config, log, hgenerates, ?_⟩
  intro h
  obtain ⟨⟨service, hw⟩, -⟩ := generates_written hdata hgenerates
  -- The service of the fourth node reads a fourth block.
  obtain ⟨loaded, hloaded⟩ := h.service 4 ⟨by decide, by decide⟩
  have hfile : (fun _ : String => (.ok config : Except String ConfigObject))
      "/config/config.json" = .ok config := rfl
  have hblock : 3 < plainBlocks.length := (loadService_reads hw hfile hloaded).1
  have hthree : plainBlocks.length = 3 := rfl
  omega

end Archipel.Cli
