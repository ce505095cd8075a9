import Archipel.Cli.Keyring
import Archipel.Federation.Basic
import Archipel.Orchestrator.Configuration
import Archipel.Polkadot.Configuration

/-!
# Starting a generated federation (app.js, service.js)

Every node starts from config.json, its node id and whatever else stands in its
environment. The operators of a generated federation start with accounts of
their own, each with its own block of session keys, and know the accounts of all
others: they are the nodes of a federation.
-/

namespace Archipel.Federation
open Async Cli ConfigFile Environment

/-- What `main` configures the objects of a node with. -/
structure Launched where
  config : Orchestrator.Configuration
  service : Option Polkadot.Configuration

/-- The constructor of `Service`. -/
def newService (readToObj : String → Except String ConfigObject) (env : Environment)
    (serviceName : Option String) : Except String Polkadot.Configuration :=
  if serviceName = some "polkadot" then
    Polkadot.constructConfiguration readToObj env
  else
    throw ("Error: Service " ++ serviceName.getD "undefined" ++ " is not supported yet.")

/-- The objects that `main` constructs; a node without service has no service object. -/
def launch (readToObj : String → Except String ConfigObject) (env : Environment) :
    Except String Launched := do
  -- Create configuration
  let config ← Orchestrator.constructConfiguration readToObj env
  -- Create service instance if node role is not no service
  if config.nodeRole ≠ "noservice" then do
    let service ← newService readToObj env config.service
    pure ⟨config, some service⟩
  else
    pure ⟨config, none⟩

/-- The process of a node is started on the file with its node id; the other
variables are as they may. -/
structure Starts (readToObj : String → Except String ConfigObject) (config : ConfigObject)
    (env : Environment) (nodeId : ℕ) : Prop where
  file : Utils.isEmptyString (env "CONFIG_FILE") = false
  nodeId : env "NODE_ID" = some (toString nodeId)
  reads : readToObj (orDefault (env "CONFIG_FILE_PATH") "/config/config.json") = .ok config
  aliveTime : ∃ t, parseInt (some (orDefault (env "ALIVE_TIME") "12")) = some t

section Node
variable {configData : ConfigData} {blocks : List FieldsData} {config : ConfigObject}
variable {service : ConfigFile.Service} {keys : List SubstrateKey} {log : Log}
variable {readToObj : String → Except String ConfigObject} {env : Environment} {index : ℕ}

theorem serviceName_polkadot (hs : Sourced config service keys log) {role name : Option String}
    (h : Orchestrator.serviceName config role = .ok name) :
    (role ≠ some "noservice" → name = some "polkadot") ∧ ∀ n, name = some n → n ≠ "" := by
  unfold Orchestrator.serviceName at h
  split at h
  · rw [hs.services] at h
    cases h
    rw [hs.name]
    refine ⟨fun _ => rfl, ?_⟩
    rintro n hn
    cases hn
    decide
  · next hno =>
    cases h
    exact ⟨fun hrole => absurd hrole hno, fun n hn => nomatch hn⟩

/-- What the configuration of a node is, whatever its environment has besides. -/
structure Configured (configData : ConfigData) (keys : List SubstrateKey) (index : ℕ)
    (c : Orchestrator.Configuration) : Prop where
  role : (roles configData)[index]? = some c.nodeRole
  seed : (keys.map SubstrateKey.seed)[index]? = some c.mnemonic
  wallets : c.nodesWallets = ",".intercalate (keys.map SubstrateKey.sr25519Address)
  group : parseInt (groups configData)[index]? = some c.nodeGroupId
  service : c.nodeRole ≠ "noservice" → c.service = some "polkadot"

theorem constructConfiguration_configured (hdata : Initialised configData blocks)
    (hw : Written configData blocks config service) (hs : Sourced config service keys log)
    (hkeys : ∀ key ∈ keys, key.seed ≠ "" ∧ Cli.Entry key.sr25519Address) {group : ℤ}
    (hgroup : parseInt (groups configData)[index]? = some group)
    (hstarts : Starts readToObj config env (index + 1))
    (hindex : index < (ips configData).length) :
    ∃ c, Orchestrator.constructConfiguration readToObj env = .ok c ∧
      Configured configData keys index c := by
  obtain ⟨loaded, hloaded, hrole, hseed, hgroup'⟩ := loadNode_loads hdata hw hstarts.reads hindex
  obtain ⟨id, -, hread⟩ :=
    Orchestrator.constructConfigurationFromConfigFile_ok hstarts.reads hloaded
  obtain ⟨hpath, hwallets, hservice⟩ := Orchestrator.readConfigObject_copies hread
  obtain ⟨hpolkadot, hnames⟩ := serviceName_polkadot hs hservice
  have hfile : fromFile (Orchestrator.constructConfigurationFromConfigFile readToObj) env =
      .ok (some loaded) := fromFile_ok hstarts.file (by rw [hstarts.nodeId]; exact hloaded)
  obtain ⟨t, halive⟩ := hstarts.aliveTime
  have hlt : index < (roles configData).length := by rw [hdata.rolesLength]; exact hindex
  have hroleset : (roles configData)[index] ≠ "" := by
    rcases hw.known _ (List.getElem_mem hlt) with hknown | hknown
    · rw [hknown]
      decide
    · rw [hknown]
      decide
  rw [List.getElem?_eq_getElem hlt] at hrole
  rw [hs.seeds] at hseed
  have hmnemonic : loaded.mnemonic ≠ "" := by
    obtain ⟨key, hkey, hsame⟩ := List.mem_map.mp (List.mem_of_getElem? hseed.symm)
    rw [← hsame]
    exact (hkeys key hkey).1
  have hne : keys.map SubstrateKey.sr25519Address ≠ [] := by
    have hpos := hw.nodes
    rw [← hs.length] at hpos
    simpa using List.ne_nil_of_length_pos hpos
  have hlist : loaded.nodesWallets ≠ "" := by
    rw [hwallets, hs.wallets]
    refine join_ne_empty hne ?_
    intro text htext
    obtain ⟨key, hkey, rfl⟩ := List.mem_map.mp htext
    exact (hkeys key hkey).2
  obtain ⟨c, hc, htakes⟩ := Orchestrator.constructConfiguration_takes hfile hrole hroleset hmnemonic
    hlist (by rw [hgroup']; exact hgroup) halive
    (by rw [hpath]; exact orDefault_ne_empty _ (by decide)) hnames
  refine ⟨c, hc, ?_, ?_, ?_, ?_, ?_⟩
  · rw [htakes.nodeRole, hrole, List.getElem?_eq_getElem hlt]
  · rw [htakes.mnemonic, hseed]
  · rw [htakes.nodesWallets, hwallets, hs.wallets]
  · rw [← hgroup', htakes.nodeGroupId]
  · intro hno
    have hrole' : loaded.nodeRole ≠ some "noservice" := by
      rw [← htakes.nodeRole]
      simpa using hno
    have hname := hpolkadot hrole'
    rw [htakes.service hno (by rw [hname]; simp), hname]

/-- The service of an operator has the session keys of its own block, and its key file. -/
structure Equipped (blocks : List FieldsData) (index : ℕ) (service : Polkadot.Config) : Prop where
  sessionKeys : (service.sessionKeys.map Polkadot.SessionKey.mnemonic).map some =
    polkadotFields.map fun field => blocks[index]?.bind fun block => block field.name
  accepted : service.Accepted
  keyFile : service.polkadotNodeKeyFile = some (nodeIdFile "polkadot" index)

theorem constructConfiguration_equipped (hw : Written configData blocks config service)
    (hs : Sourced config service keys log)
    (hstarts : Starts readToObj config env (index + 1)) (hindex : index < blocks.length)
    (hnode : index < config.nodesNumber) :
    ∃ c, Polkadot.constructConfiguration readToObj env = .ok c ∧
      ∀ hostname publicKey, Equipped blocks index (c.config hostname publicKey) := by
  have hpeers : service.reservedPeersList ≠ "" := by
    rw [hs.reserved]
    apply reservedPeers_ne_empty
    have hfiles := congrArg List.length hw.idFiles
    simp only [List.length_map, List.length_range] at hfiles
    apply List.ne_nil_of_length_pos
    omega
  obtain ⟨loaded, hloaded⟩ := loadService_loads hw hstarts.reads hindex hnode
  obtain ⟨-, hholds, hkeyFile⟩ := loadService_reads hw hstarts.reads hloaded
  have hset := loadService_ne_empty hw hstarts.reads hloaded
  obtain ⟨hpath, hname, service', hservice, hreserved⟩ :=
    Polkadot.readConfigObject_copies ((loadService_ok hstarts.reads).mp hloaded)
  rw [hs.services] at hservice
  cases hservice
  have hfile : fromFile (Polkadot.constructConfigurationFromConfigFile readToObj) env =
      .ok (some loaded) := fromFile_ok hstarts.file (by rw [hstarts.nodeId]; exact hloaded)
  obtain ⟨c, hc, htakes⟩ := Polkadot.constructConfiguration_takes hfile
    (by rw [hpath]; exact orDefault_ne_empty _ (by decide)) (by simp [hname]) hset
    (by rw [hreserved]; exact hpeers) (by simp [hkeyFile, nodeIdFile])
  refine ⟨c, hc, fun hostname publicKey => ⟨?_, ?_, ?_⟩⟩
  · rw [htakes.sessionKeys]
    exact hholds
  · intro k hk
    apply hset
    rw [← htakes.sessionKeys hostname publicKey]
    exact List.mem_map_of_mem hk
  · show c.polkadotNodeKeyFile = _
    rw [htakes.polkadotNodeKeyFile, hkeyFile]

theorem launch_serves {c : Orchestrator.Configuration} {s : Polkadot.Configuration}
    (hc : Orchestrator.constructConfiguration readToObj env = .ok c)
    (hrole : c.nodeRole ≠ "noservice") (hservice : c.service = some "polkadot")
    (hs : Polkadot.constructConfiguration readToObj env = .ok s) :
    launch readToObj env = .ok ⟨c, some s⟩ := by
  unfold launch newService
  rw [hc, hs]
  simp only [bind, Except.bind]
  rw [if_pos hrole, hservice, if_pos rfl]
  rfl

theorem launch_noservice {c : Orchestrator.Configuration}
    (hc : Orchestrator.constructConfiguration readToObj env = .ok c)
    (hrole : c.nodeRole = "noservice") : launch readToObj env = .ok ⟨c, none⟩ := by
  unfold launch
  rw [hc]
  simp only [bind, Except.bind]
  rw [if_neg (by rw [hrole]; simp)]
  rfl

end Node

/-- The seed and the address of one answer of `subkey generate` belong to one
account, and no account is drawn twice. -/
structure Keyring {α : Type} (accountOf : String → α) (walletOf : String → Wallet α) (log : Log) :
    Prop where
  wallet : ∀ key, Generated log key → walletOf key.sr25519Address = .address (accountOf key.seed)
  texts : ∀ key, Generated log key → key.seed ≠ "" ∧ Cli.Entry key.sr25519Address
  distinct : ((log.filterMap drawn).map accountOf).Nodup

/-- What a node knows of the federation: its own account and group, and the
accounts of all nodes in their order. -/
structure Informed {α : Type} (accounts : List α) (groups : List String) (index : ℕ)
    (node : Orchestrator.Config α) : Prop where
  account : accounts[index]? = some node.nodeKey
  wallets : node.nodesWallets = accounts.map .address
  group : parseInt groups[index]? = some (node.group.toNat : ℤ)

/-- Every group is the number of a group on the chain. -/
def Grouped (configData : ConfigData) : Prop :=
  ∀ text ∈ groups configData, ∃ g : UInt32, parseInt (some text) = some (g.toNat : ℤ)

/-- config.json with all that its generation tells of it. -/
structure Origin {α : Type} (accountOf : String → α) (walletOf : String → Wallet α)
    (configData : ConfigData) (blocks : List FieldsData) (config : ConfigObject)
    (service : ConfigFile.Service) (keys : List SubstrateKey) (log : Log) : Prop where
  initialised : Initialised configData blocks
  written : Written configData blocks config service
  sourced : Sourced config service keys log
  seeds : log.filterMap drawn = keys.map SubstrateKey.seed
  keyring : Keyring accountOf walletOf log
  grouped : Grouped configData

theorem generates_origin {α : Type} {accountOf : String → α} {walletOf : String → Wallet α}
    {host : Host} {configData : ConfigData} {blocks : List FieldsData}
    (hdata : Initialised configData blocks)
    (hgroups : Grouped configData)
    {config : ConfigObject} {log : Log} (hgenerates : Generates host configData config log)
    (hkeyring : Keyring accountOf walletOf log) :
    ∃ service keys, Origin accountOf walletOf configData blocks config service keys log := by
  obtain ⟨⟨service, hw⟩, hseeds⟩ := generates_written hdata hgenerates
  obtain ⟨service', keys, hs⟩ := generates_sourced hdata hgenerates
  have hsame : service' = service := by
    have hone := hs.services
    rw [hw.services] at hone
    exact (List.cons.inj hone).1.symm
  subst hsame
  rw [hs.seeds] at hseeds
  exact ⟨service', keys, hdata, hw, hs, hseeds, hkeyring, hgroups⟩

section Federation
variable {α : Type} {accountOf : String → α} {walletOf : String → Wallet α}
variable {configData : ConfigData} {blocks : List FieldsData} {config : ConfigObject}
variable {service : ConfigFile.Service} {keys : List SubstrateKey} {log : Log}
variable {readToObj : String → Except String ConfigObject} {env : Environment} {index : ℕ}

theorem informed_configured
    (h : Origin accountOf walletOf configData blocks config service keys log)
    {c : Orchestrator.Configuration} (hc : Configured configData keys index c) {g : UInt32}
    (hg : c.nodeGroupId = (g.toNat : ℤ)) :
    Informed ((log.filterMap drawn).map accountOf) (groups configData) index
      (c.config accountOf walletOf) := by
  have hne : keys.map SubstrateKey.sr25519Address ≠ [] := by
    intro hnil
    have hseed := hc.seed
    rw [List.map_eq_nil_iff.mp hnil] at hseed
    cases hseed
  have hentries : ∀ text ∈ keys.map SubstrateKey.sr25519Address, Cli.Entry text := by
    intro text htext
    obtain ⟨key, hkey, rfl⟩ := List.mem_map.mp htext
    exact (h.keyring.texts key (h.sourced.generated key hkey)).2
  refine ⟨?_, ?_, ?_⟩
  · rw [h.seeds, List.getElem?_map, hc.seed]
    rfl
  · show (c.nodesWallets.splitOn ",").map walletOf = _
    rw [hc.wallets, splitOn_comma hne hentries, h.seeds, List.map_map, List.map_map, List.map_map]
    apply List.map_congr_left
    intro key hkey
    exact h.keyring.wallet key (h.sourced.generated key hkey)
  · have hgroup : (c.config accountOf walletOf).group = g := by
      show UInt32.ofNat c.nodeGroupId.toNat = g
      rw [hg, Int.toNat_natCast, UInt32.ofNat_toNat]
    rw [hc.group, hgroup, hg]

theorem constructs_node
    (h : Origin accountOf walletOf configData blocks config service keys log)
    (hstarts : Starts readToObj config env (index + 1)) (hindex : index < (ips configData).length) :
    ∃ c, Orchestrator.constructConfiguration readToObj env = .ok c ∧
      Configured configData keys index c ∧
      Informed ((log.filterMap drawn).map accountOf) (groups configData) index
        (c.config accountOf walletOf) := by
  have hlt : index < (groups configData).length := by
    rw [h.initialised.groupsLength]
    exact hindex
  have hkeys : ∀ key ∈ keys, key.seed ≠ "" ∧ Cli.Entry key.sr25519Address :=
    fun key hkey => h.keyring.texts key (h.sourced.generated key hkey)
  obtain ⟨g, hg⟩ := h.grouped _ (List.getElem_mem hlt)
  rw [← List.getElem?_eq_getElem hlt] at hg
  obtain ⟨c, hc, hconfigured⟩ := constructConfiguration_configured h.initialised h.written h.sourced
    hkeys hg hstarts hindex
  refine ⟨c, hc, hconfigured, informed_configured h hconfigured (g := g) ?_⟩
  have hgroup := hconfigured.group
  rw [hg] at hgroup
  exact (Option.some.inj hgroup).symm

/-- An operator starts, and its service is configured with its block. -/
theorem launch_operator (h : Origin accountOf walletOf configData blocks config service keys log)
    (hfirst : OperatorsFirst configData) (hstarts : Starts readToObj config env (index + 1))
    (hrole : (roles configData)[index]? = some "operator") :
    ∃ c s, launch readToObj env = .ok ⟨c, some s⟩ ∧ c.nodeRole = "operator" ∧
      Informed ((log.filterMap drawn).map accountOf) (groups configData) index
        (c.config accountOf walletOf) ∧
      ∀ hostname publicKey, Equipped blocks index (s.config hostname publicKey) := by
  have hlt := (List.getElem?_eq_some_iff.mp hrole).1
  rw [h.initialised.rolesLength] at hlt
  obtain ⟨c, hc, hconfigured, hinformed⟩ := constructs_node h hstarts hlt
  have hoperator : c.nodeRole = "operator" := by
    have hown := hconfigured.role
    rw [hrole] at hown
    exact (Option.some.inj hown).symm
  have hserves : c.nodeRole ≠ "noservice" := by
    rw [hoperator]
    decide
  have hblock : index < blocks.length := by
    rw [h.initialised.blocksLength, serviceNodesNumber_eq]
    exact front_iff_index.mp hfirst index _ hrole serves_operator
  obtain ⟨s, hs, hequipped⟩ := constructConfiguration_equipped h.written h.sourced hstarts hblock
    (by rw [h.written.nodesNumber]; exact hlt)
  exact ⟨c, s, launch_serves hc hserves (hconfigured.service hserves) hs, hoperator, hinformed,
    hequipped⟩

theorem launch_node (h : Origin accountOf walletOf configData blocks config service keys log)
    (hfirst : OperatorsFirst configData) (hstarts : Starts readToObj config env (index + 1))
    (hindex : index < (ips configData).length) :
    ∃ launched, launch readToObj env = .ok launched ∧
      (roles configData)[index]? = some launched.config.nodeRole := by
  have hlt : index < (roles configData).length := by
    rw [h.initialised.rolesLength]
    exact hindex
  have hrole := List.getElem?_eq_getElem hlt
  rcases h.written.known _ (List.getElem_mem hlt) with hknown | hknown
  · rw [hknown] at hrole
    obtain ⟨c, s, hlaunch, hoperator, -⟩ := launch_operator h hfirst hstarts hrole
    exact ⟨_, hlaunch, by rw [hrole, hoperator]⟩
  · obtain ⟨c, hc, hconfigured, -⟩ := constructs_node h hstarts hindex
    have hown := hconfigured.role
    rw [hrole, hknown] at hown
    have hno := (Option.some.inj hown).symm
    exact ⟨_, launch_noservice hc hno, by rw [hrole, hknown, hno]⟩

end Federation

abbrev OperatorId (configData : ConfigData) := { nodeId : ℕ // Operator configData nodeId }

/-- Every node of a generated federation starts, and its operators are the nodes
of a federation, each with its own account, group and block. -/
theorem generated_federation_starts {α : Type} (accountOf : String → α)
    (walletOf : String → Wallet α) (host : Host) {configData : ConfigData}
    {blocks : List FieldsData} (hdata : Initialised configData blocks)
    (hfirst : OperatorsFirst configData) (hgroups : Grouped configData)
    {config : ConfigObject} {log : Log} (hgenerates : Generates host configData config log)
    (hkeyring : Keyring accountOf walletOf log)
    {readToObj : String → Except String ConfigObject} {env : ℕ → Environment}
    (henv : ∀ nodeId, 1 ≤ nodeId → Starts readToObj config (env nodeId) nodeId)
    (hostname : ℕ → String) (publicKey : String → Polkadot.Crypto → String) :
    (∀ nodeId, 1 ≤ nodeId → nodeId ≤ (ips configData).length → ∃ launched,
      launch readToObj (env nodeId) = .ok launched ∧
        (roles configData)[nodeId - 1]? = some launched.config.nodeRole) ∧
    ∃ F : Operators (OperatorId configData) α, ∀ i : OperatorId configData, ∃ c s,
      launch readToObj (env i) = .ok ⟨c, some s⟩ ∧
      F.config i = c.config accountOf walletOf ∧ F.service i = s.config (hostname i) publicKey ∧
      Informed ((log.filterMap drawn).map accountOf) (groups configData) (i.1 - 1) (F.config i) ∧
      Equipped blocks (i.1 - 1) (F.service i) := by
  obtain ⟨service, keys, h⟩ := generates_origin hdata hgroups hgenerates hkeyring
  have hstarts : ∀ nodeId, 1 ≤ nodeId → Starts readToObj config (env nodeId) (nodeId - 1 + 1) := by
    intro nodeId hpos
    rw [Nat.sub_add_cancel hpos]
    exact henv nodeId hpos
  constructor
  · intro nodeId hpos hle
    exact launch_node h hfirst (hstarts nodeId hpos) (by omega)
  · have hall : ∀ i : OperatorId configData, ∃ c s, launch readToObj (env i) = .ok ⟨c, some s⟩ ∧
        c.nodeRole = "operator" ∧ Informed ((log.filterMap drawn).map accountOf)
          (groups configData) (i.1 - 1) (c.config accountOf walletOf) ∧
        ∀ hostname publicKey, Equipped blocks (i.1 - 1) (s.config hostname publicKey) :=
      fun i => launch_operator h hfirst (hstarts i i.2.1) i.2.2
    choose c s hlaunch hrole hinformed hequipped using hall
    refine ⟨⟨fun i => (c i).config accountOf walletOf, fun i => (s i).config (hostname i) publicKey,
      ?_, ?_⟩, fun i => ⟨c i, s i, hlaunch i, rfl, rfl, hinformed i, hequipped i _ _⟩⟩
    · intro i
      show (c i).nodeRole ≠ "noservice"
      rw [hrole i]
      decide
    · intro i j hsame
      have hi := (hinformed i).account
      have hj := (hinformed j).account
      rw [← hsame] at hj
      have hindex := (List.getElem?_inj (List.getElem?_eq_some_iff.mp hi).1
        hkeyring.distinct).mp (hi.trans hj.symm)
      have hpos := i.2.1
      have hpos' := j.2.1
      exact Subtype.ext (by omega)

/-! ### Three operators and a noservice node -/

def number (text : String) (start : ℕ) : ℕ := Nat.ofDigitChars 10 (text.toList.drop start) 0

def numberOf (seed : String) : ℕ := number seed 5

def numbered (text : String) : Wallet ℕ :=
  if "W".toList <+: text.toList then .address (number text 1) else .text text

def belongs (event : Event Cli.api String Unit) : Bool :=
  match event with
  | ⟨.execAsync cmd, .ok result, _⟩ =>
    if cmd = subkeyGenerate then
      match seedOf result, addressOf result with
      | some seed, some wallet => decide (numbered wallet = .address (numberOf seed)) &&
        decide (seed ≠ "" ∧ wallet ≠ "" ∧ ',' ∉ wallet.toList)
      | _, _ => true
    else
      true
  | _ => true

theorem keyring_belongs {log : Log} (hall : ∀ event ∈ log, belongs event = true)
    (hdistinct : ((log.filterMap drawn).map numberOf).Nodup) : Keyring numberOf numbered log := by
  have hkey : ∀ key, Generated log key →
      numbered key.sr25519Address = .address (numberOf key.seed) ∧ key.seed ≠ "" ∧
        key.sr25519Address ≠ "" ∧ ',' ∉ key.sr25519Address.toList := by
    rintro key ⟨result, w, hmem, hseed, hwallet⟩
    have h := hall _ hmem
    simp only [belongs, if_true, hseed, hwallet, Bool.and_eq_true, decide_eq_true_eq] at h
    exact h
  exact ⟨fun key h => (hkey key h).1, fun key h => (hkey key h).2, hdistinct⟩

theorem plain_generates : ∃ config log, Generates plainHost plainRoles config log ∧
    Keyring numberOf numbered log := by
  obtain ⟨config, log, hgenerates, hcheck⟩ := plain_plays (fun log => log.all belongs &&
    decide ((log.filterMap drawn).map numberOf).Nodup) (by decide +kernel)
  simp only [Bool.and_eq_true, List.all_eq_true, decide_eq_true_eq] at hcheck
  exact ⟨config, log, hgenerates, keyring_belongs hcheck.1 hcheck.2⟩

/-- Only the file and the node id are set. -/
def plainEnvironment (nodeId : ℕ) : Environment := fun name =>
  if name = "CONFIG_FILE" then some "true"
  else if name = "NODE_ID" then some (toString nodeId)
  else none

theorem generated_federation_starts_plain : ∃ config log,
    Generates plainHost plainRoles config log ∧ ∃ F : Operators (OperatorId plainRoles) ℕ,
      ∀ i : OperatorId plainRoles, ∃ c s,
        launch (fun _ => .ok config) (plainEnvironment i) = .ok ⟨c, some s⟩ ∧
        F.config i = c.config numberOf numbered ∧
        Equipped plainBlocks (i.1 - 1) (F.service i) := by
  obtain ⟨config, log, hgenerates, hkeyring⟩ := plain_generates
  have hdata : Initialised plainRoles plainBlocks :=
    ⟨by decide, by decide, by decide, rfl, by decide⟩
  have hgroups : Grouped plainRoles := by
    have hall : ∀ text ∈ groups plainRoles, text = "1" ∨ text = "2" := by decide
    intro text htext
    rcases hall text htext with rfl | rfl
    · exact ⟨1, by decide⟩
    · exact ⟨2, by decide⟩
  have hstarts : ∀ nodeId, 1 ≤ nodeId →
      Starts (fun _ => .ok config) config (plainEnvironment nodeId) nodeId := by
    intro nodeId _
    have hunset : plainEnvironment nodeId "ALIVE_TIME" = none := by simp [plainEnvironment]
    exact ⟨rfl, rfl, rfl, 12, by rw [hunset]; decide⟩
  obtain ⟨-, F, hF⟩ := generated_federation_starts numberOf numbered plainHost hdata (by decide)
    hgroups hgenerates hkeyring hstarts (fun _ => "host") (fun mnemonic _ => mnemonic)
  refine ⟨config, log, hgenerates, F, fun i => ?_⟩
  obtain ⟨c, s, hlaunch, hconfig, -, -, hequipped⟩ := hF i
  exact ⟨c, s, hlaunch, hconfig, hequipped⟩

end Archipel.Federation
