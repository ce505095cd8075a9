import Archipel.Cli.Federation
import Archipel.Cli.Lists

/-!
# Which key a node of config.json has

The seed of a node and its entry in the list of wallets come from one answer of
`subkey generate`. The service of config.json has the name that archipel.json
gives it.
-/

namespace Archipel.Cli
open Async ConfigFile
open Polkadot (blockValue sessionKeysEnv)

/-- `subkey generate` gave the key. -/
def Generated (log : Log) (key : SubstrateKey) : Prop :=
  ∃ (result : String) (w : Unit),
    (⟨Call.execAsync subkeyGenerate, .ok result, w⟩ : Event api String Unit) ∈ log ∧
      seedOf result = some key.seed ∧ addressOf result = some key.sr25519Address

theorem generated_mono {log log' : Log} (h : log <+: log') {key : SubstrateKey}
    (hkey : Generated log key) : Generated log' key := by
  obtain ⟨result, w, hmem, hread⟩ := hkey
  exact ⟨result, w, h.mem hmem, hread⟩

section Runs
variable {E : Env api String Unit} {x y : Unit × (Unit × Log)}

theorem generated_generateSubstrateKey {key : SubstrateKey}
    (h : Runs (logged E) generateSubstrateKey x (.ok key) y) : Generated y.2.2 key := by
  obtain ⟨subKeyResult, x₁, hgenerate, h⟩ := runs_bind h
  have hlog := runs_prefix h
  obtain ⟨seed, x₂, hseed, h⟩ := runs_bind h
  obtain ⟨sr, x₃, hsr, h⟩ := runs_bind h
  obtain ⟨subKeyResultEd, x₄, -, h⟩ := runs_bind h
  obtain ⟨ed, x₅, -, h⟩ := runs_bind h
  obtain ⟨rfl, -⟩ := runs_pure h
  have hdrawn := (runs_call hgenerate).1.2
  have hmem : (⟨Call.execAsync subkeyGenerate, .ok subKeyResult, x₁.2.1⟩ :
      Event api String Unit) ∈ x₁.2.2 := by
    rw [hdrawn]
    exact List.mem_append_right _ (List.mem_singleton_self _)
  exact ⟨subKeyResult, _, hlog.mem hmem, matched_ok.mp (runs_ofExcept hseed).1,
    matched_ok.mp (runs_ofExcept hsr).1⟩

theorem generated_generateArchipelConfig {federationSize : ℕ} {config : ArchipelConfig}
    (h : Runs (logged E) (generateArchipelConfig federationSize) x (.ok config) y) :
    ∃ keys : List SubstrateKey, keys.length = federationSize ∧
      config.archipelNodes.map ArchipelNode.seed = keys.map SubstrateKey.seed ∧
      config.archipelSr25519List = ",".intercalate (keys.map SubstrateKey.sr25519Address) ∧
      ∀ key ∈ keys, Generated y.2.2 key := by
  obtain ⟨keys, x₁, hkeys, h⟩ := runs_bind h
  have hlog := runs_prefix h
  obtain ⟨nodeIds, x₂, hnodeIds, h⟩ := runs_bind h
  obtain ⟨rfl, rfl⟩ := runs_pure h
  have hlength := (runs_generateSubstrateKeys hkeys).1
  have hfiles := congrArg List.length (runs_generateNodeIds hnodeIds)
  simp only [List.length_map, List.length_range] at hfiles
  have hall : (∀ key ∈ keys, Generated x₁.2.2 key) ∧ x.2.2 <+: x₁.2.2 := by
    refine runs_mapM (R := fun _ keys x y => (∀ key ∈ keys, Generated y.2.2 key) ∧
      x.2.2 <+: y.2.2) (fun x => ⟨List.forall_mem_nil _, List.prefix_rfl⟩) ?_ hkeys
    intro i key l keys x z y hkey hrest
    refine ⟨?_, ( runs_prefix hkey).trans hrest.2⟩
    rw [List.forall_mem_cons]
    exact ⟨generated_mono hrest.2 (generated_generateSubstrateKey hkey), hrest.1⟩
  refine ⟨keys, hlength, ?_, rfl, fun key hkey => generated_mono hlog (hall.1 key hkey)⟩
  apply List.ext_getElem
  · simp [hlength, hfiles]
  · intro i h₁ h₂
    simp

/-- A service has the name and, for each service node, the peer that it reserves. -/
theorem runs_serviceNames {servicesData : List ServiceData} {federationSize : ℕ}
    {services : List Service}
    (h : Runs (logged E) (servicesData.mapM (generateServiceConfig federationSize)) x
      (.ok services) y) : services.map Service.name = servicesData.map ServiceData.name := by
  refine runs_mapM (R := fun l services _ _ =>
    services.map Service.name = l.map ServiceData.name) (fun _ => rfl) ?_ h
  intro serviceData service l services x z y hrun hservices
  obtain ⟨names, x₁, -, hrun⟩ := runs_bind hrun
  obtain ⟨fields, x₂, -, hrun⟩ := runs_bind hrun
  obtain ⟨nodeIds, x₃, -, hrun⟩ := runs_bind hrun
  obtain ⟨rfl, -⟩ := runs_pure hrun
  rw [List.map_cons, List.map_cons, hservices]

/-- config.json as the run constructed it, and the log that led to it. -/
theorem runs_constructed {host : Host} {configData : ConfigData} {u : Unit}
    (h : Runs (logged (answering configData)) (generateConfig host) x (.ok u) y) :
    ∃ config x₁ y₁, Runs (logged (answering configData)) (constructConfig host configData) x₁
      (.ok config) y₁ ∧ y₁.2.2 <+: y.2.2 ∧ config ∈ y.2.2.filterMap saved := by
  obtain ⟨_, x₁, -, h⟩ := runs_bind h
  obtain ⟨found, x₂, -, h⟩ := runs_bind h
  cases found with
  | false =>
    obtain ⟨_, x₃, hthrow, -⟩ := runs_bind h
    exact absurd hthrow runs_throw
  | true =>
    obtain ⟨data, x₃, hload, h⟩ := runs_bind h
    obtain ⟨_, x₄, -, h⟩ := runs_bind h
    obtain ⟨password, x₅, -, h⟩ := runs_bind h
    obtain ⟨config, x₆, hconfig, h⟩ := runs_bind h
    have hafter := runs_prefix h
    obtain ⟨_, x₇, hsave, harchive⟩ := runs_bind h
    have hdata : data = configData := Except.ok.inj (runs_call hload).1.1
    subst hdata
    refine ⟨config, x₅, x₆, hconfig, hafter, ?_⟩
    have hlog := (runs_call hsave).1.2
    rw [List.mem_filterMap]
    refine ⟨⟨Call.saveJSONToPath config (tempDir ++ "/config.json"), .ok (), x₇.2.1⟩, ?_, rfl⟩
    apply ( runs_prefix harchive).mem
    rw [hlog]
    exact List.mem_append_right _ (List.mem_singleton_self _)

end Runs

/-- Where config.json has its keys and its service from. -/
structure Sourced (config : ConfigObject) (service : Service) (keys : List SubstrateKey)
    (log : Log) : Prop where
  length : keys.length = config.nodesNumber
  seeds : config.archipelNodes.map ArchipelNode.seed = keys.map SubstrateKey.seed
  wallets : config.archipelSr25519List = ",".intercalate (keys.map SubstrateKey.sr25519Address)
  generated : ∀ key ∈ keys, Generated log key
  services : config.services = [service]
  name : service.name = "polkadot"
  reserved : service.reservedPeersList = reservedPeers "30333" service.nodeIds

theorem generates_sourced {host : Host} {configData : ConfigData} {blocks : List FieldsData}
    (hdata : Initialised configData blocks) {config : ConfigObject} {log : Log}
    (h : Generates host configData config log) :
    ∃ service keys, Sourced config service keys log := by
  obtain ⟨made, x, y, hrun, hlog, hmade⟩ := runs_constructed h.runs
  -- The run saves one object.
  have hone : made = config := by
    obtain ⟨-, found, -, events, hevents, -, hsaved⟩ := runs_generateConfig h.runs
    rw [List.nil_append] at hevents
    dsimp only at hevents hmade
    rw [hevents, hsaved] at hmade
    have hmem := h.saved
    rw [hevents, hsaved] at hmem
    rw [List.mem_singleton.mp hmade, List.mem_singleton.mp hmem]
  subst hone
  obtain ⟨publicIps, x₁, -, hrun⟩ := runs_bind hrun
  obtain ⟨name, x₂, -, hrun⟩ := runs_bind hrun
  obtain ⟨services, x₃, hservices, hrun⟩ := runs_bind hrun
  obtain ⟨wireguard, x₄, -, hrun⟩ := runs_bind hrun
  obtain ⟨archipel, x₅, harchipel, hrun⟩ := runs_bind hrun
  obtain ⟨rfl, rfl⟩ := runs_pure hrun
  obtain ⟨keys, hlength, hseeds, hwallets, hgenerated⟩ := generated_generateArchipelConfig harchipel
  have hreserved := runs_reservedPeers hservices
  obtain ⟨servicesData, x₆, hlist, hservices⟩ := runs_bind hservices
  rw [hdata.services] at hlist
  cases (runs_ofExcept hlist).1
  have hnames := runs_serviceNames hservices
  cases services with
  | nil => cases hnames
  | cons service rest =>
    cases rest with
    | cons _ _ => cases (List.cons.inj hnames).2
    | nil =>
      exact ⟨service, keys, hlength, hseeds, hwallets,
        fun key hkey => generated_mono hlog (hgenerated key hkey), rfl,
        (List.cons.inj hnames).1, (hreserved service (List.mem_singleton_self _)).2⟩

theorem reservedPeers_ne_empty {nodeIds : List NodeIds} (hne : nodeIds ≠ []) :
    reservedPeers "30333" nodeIds ≠ "" := by
  obtain ⟨ids, rest, rfl⟩ := List.exists_cons_of_ne_nil hne
  rw [reservedPeers_eq, List.map_cons, List.mapIdx_cons]
  apply Text.intercalate_ne_empty
  simp [servicePeer]

theorem setField_ne_empty {fieldsData : FieldsData} {field : ServiceField} {element : Field}
    (h : setField fieldsData field = .ok element) : element.value ≠ "" := by
  unfold setField at h
  cases hvalue : fieldsData field.name with
  | none =>
    rw [hvalue] at h
    cases h
  | some value =>
    simp only [hvalue] at h
    split at h
    · next hset =>
      cases h
      exact hset
    · cases h

theorem written_ne_empty {configData : ConfigData} {blocks : List FieldsData}
    {config : ConfigObject} {service : Service} (hw : Written configData blocks config service)
    {block : List Field} (hblock : block ∈ service.fields) :
    ∀ element ∈ block, element.value ≠ "" := by
  obtain ⟨i, hi⟩ := List.mem_iff_getElem?.mp hblock
  obtain ⟨fieldsData, -, hset⟩ := forall₂_getElem? hw.fields hi
  intro element helement
  obtain ⟨k, hk⟩ := List.mem_iff_getElem?.mp helement
  obtain ⟨field, -, hfield⟩ := forall₂_getElem? (mapM_ok hset) hk
  exact setField_ne_empty hfield

/-- No session key that a service loads is empty. -/
theorem loadService_ne_empty {configData : ConfigData} {blocks : List FieldsData}
    {config : ConfigObject} {service : Service} (hw : Written configData blocks config service)
    {readToObj : String → Except String ConfigObject} {configFilePath : String}
    (hfile : readToObj configFilePath = .ok config) {index : ℕ} {loaded : Polkadot.FileConfig}
    (h : loadService readToObj configFilePath (index + 1) = .ok loaded) :
    ∀ key ∈ loaded.sessionKeys, key ≠ "" := by
  have hservice : config.services[0]? = some service := by rw [hw.services]; rfl
  obtain ⟨block, hblock, hkeys⟩ :=
    (Polkadot.readConfigObject_takes hservice ((loadService_ok hfile).mp h)).block
  intro key hkey
  have hmem : some key ∈ sessionKeysEnv.map (blockValue block) := by
    rw [← hkeys]
    exact List.mem_map_of_mem hkey
  obtain ⟨env, -, hvalue⟩ := List.mem_map.mp hmem
  obtain ⟨element, hfind, rfl⟩ := Option.map_eq_some_iff.mp hvalue
  exact written_ne_empty hw (List.mem_of_getElem? hblock) element (List.mem_of_find?_eq_some hfind)

/-! ### Three operators and a noservice node -/

/-- What `subkey generate` answers, with a number for the key. -/
def keyText (n : ℕ) : String :=
  String.singleton backtick ++ "seed " ++ toString n ++ String.singleton backtick ++
    "\nSS58 Address:     W" ++ toString n

def inspectText : String := "SS58 Address:     E"

def wireguardText : String := "AAAAAAAAAAAAAAAAAAAAAAAAAAAAAAAAAAAAAAAAAAAA"

def plainRoles : ConfigData := plainData "operator,operator,operator,noservice"

/-- A key has the number of the calls before it. -/
def keyedAnswer (log : Log) : (c : Call) → Cli.api.Ret c
  | .prepareTempDirectory _ => ()
  | .fileExists _ => true
  | .loadJSONFile _ => plainRoles
  | .getPasswordFromUser => ""
  | .execAsync cmd =>
    if cmd = subkeyGenerate then keyText log.length
    else if cmd = wgGenkey ∨ cmd = wgPubkey wireguardText then wireguardText
    else inspectText
  | .saveJSONToPath _ _ => ()
  | .rmNonEmptyDir _ => ()

def keyedScript : Script Cli.api String (Unit × Log) := fun c w =>
  let r := Except.ok (keyedAnswer w.2 c)
  some (r, ((), w.2 ++ [⟨c, r, ()⟩]))

/-- The run of the script, with a fact about its log. -/
theorem plain_plays (check : Log → Bool)
    (hplay : (match exec keyedScript (generateConfig plainHost) ((), ((), [])) with
      | some (.ok (), _, _, log) => !(log.filterMap saved).isEmpty && check log
      | _ => false) = true) :
    ∃ config log, Generates plainHost plainRoles config log ∧ check log = true := by
  cases hexec : exec keyedScript (generateConfig plainHost) ((), ((), [])) with
  | none =>
    rw [hexec] at hplay
    cases hplay
  | some played =>
    obtain ⟨out, u, v, log⟩ := played
    rw [hexec] at hplay
    cases out with
    | error e => cases hplay
    | ok done =>
      simp only [Bool.and_eq_true, Bool.not_eq_true'] at hplay
      obtain ⟨hsaved, hcheck⟩ := hplay
      obtain ⟨config, hconfig⟩ := List.exists_mem_of_ne_nil _ (List.isEmpty_eq_false_iff.mp hsaved)
      refine ⟨config, log, ⟨?_, hconfig⟩, hcheck⟩
      refine exec_runs ?_ _ _ hexec
      intro c w r w' h
      cases h
      refine ⟨?_, rfl⟩
      cases c with
      | loadJSONFile path => rfl
      | prepareTempDirectory path => trivial
      | fileExists path => trivial
      | getPasswordFromUser => trivial
      | execAsync cmd => trivial
      | saveJSONToPath json path => trivial
      | rmNonEmptyDir path => trivial

end Archipel.Cli
