import Archipel.Cli.Generate

/-!
# What a run of the CLI draws and saves

The log of a run tells which seeds `subkey generate` gave, in order, and which
objects were saved. A run of `constructConfig` that ends well draws one seed for
each node, saves nothing and gives an object with one entry for each of its two
lists: nodes and seeds, service nodes and their blocks.
-/

namespace Archipel.Cli
open Async ConfigFile

abbrev Log := List (Event api String Unit)

/-- The seed that an event drew. -/
def drawn : Event api String Unit → Option String
  | ⟨.execAsync cmd, .ok result, _⟩ => if cmd = subkeyGenerate then seedOf result else none
  | _ => none

def saved : Event api String Unit → Option ConfigObject
  | ⟨.saveJSONToPath json _, .ok _, _⟩ => some json
  | _ => none

/-- The log gained events that draw `seeds` and save `configs`. -/
def Effect (seeds : List String) (configs : List ConfigObject) (w w' : Unit × Log) : Prop :=
  ∃ made, w'.2 = w.2 ++ made ∧ made.filterMap drawn = seeds ∧ made.filterMap saved = configs

theorem effect_refl (w : Unit × Log) : Effect [] [] w w := ⟨[], by simp, rfl, rfl⟩

theorem effect_trans {seeds seeds' : List String} {configs configs' : List ConfigObject}
    {w w' w'' : Unit × Log} (h : Effect seeds configs w w') (h' : Effect seeds' configs' w' w'') :
    Effect (seeds ++ seeds') (configs ++ configs') w w'' := by
  obtain ⟨made, hmade, hseeds, hconfigs⟩ := h
  obtain ⟨made', hmade', hseeds', hconfigs'⟩ := h'
  refine ⟨made ++ made', by rw [hmade', hmade, List.append_assoc], ?_, ?_⟩
  · rw [List.filterMap_append, hseeds, hseeds']
  · rw [List.filterMap_append, hconfigs, hconfigs']

/-! ### Calls without an effect -/

/-- The call neither draws a seed nor saves an object. -/
def Quiet : Call → Prop
  | .execAsync cmd => cmd ≠ subkeyGenerate
  | .saveJSONToPath _ _ => False
  | .prepareTempDirectory _ => True
  | .fileExists _ => True
  | .loadJSONFile _ => True
  | .getPasswordFromUser => True
  | .rmNonEmptyDir _ => True

theorem quiet_event {event : Event api String Unit} (h : Quiet event.call) :
    drawn event = none ∧ saved event = none := by
  obtain ⟨c, r, w⟩ := event
  cases c with
  | execAsync cmd =>
    cases r with
    | ok result => exact ⟨if_neg h, rfl⟩
    | error e => exact ⟨rfl, rfl⟩
  | saveJSONToPath json path => exact h.elim
  | prepareTempDirectory path => exact ⟨rfl, rfl⟩
  | fileExists path => exact ⟨rfl, rfl⟩
  | loadJSONFile path => exact ⟨rfl, rfl⟩
  | getPasswordFromUser => exact ⟨rfl, rfl⟩
  | rmNonEmptyDir path => exact ⟨rfl, rfl⟩

theorem effect_quiet {w w' : Unit × Log} (h : Logs (fun event => Quiet event.call) w w') :
    Effect [] [] w w' := by
  obtain ⟨made, hmade, hquiet⟩ := h
  refine ⟨made, hmade, ?_, ?_⟩
  · rw [List.filterMap_eq_nil_iff]
    exact fun event hevent => (quiet_event (hquiet event hevent)).1
  · rw [List.filterMap_eq_nil_iff]
    exact fun event hevent => (quiet_event (hquiet event hevent)).2

/-- The command starts otherwise than the one that draws a seed. -/
def Foreign (cmd : String) : Prop := ¬ cmd.toList <+: subkeyGenerate.toList

instance (cmd : String) : Decidable (Foreign cmd) :=
  inferInstanceAs (Decidable (¬ cmd.toList <+: subkeyGenerate.toList))

theorem foreign_append {cmd : String} (rest : String) (h : Foreign cmd) :
    Foreign (cmd ++ rest) := by
  intro hlong
  apply h
  rw [String.toList_append] at hlong
  exact (List.prefix_append _ _).trans hlong

theorem quiet_foreign {cmd : String} (h : Foreign cmd) : Quiet (.execAsync cmd) := by
  intro hcmd
  apply h
  rw [hcmd]

theorem quiet_subkeyInspect (seed : String) : Quiet (.execAsync (subkeyInspect seed)) := by
  exact quiet_foreign (foreign_append _ (foreign_append _ (by decide)))

theorem onlyCalls_generateNodeIds (service : String) (nodesNumber : ℕ) :
    OnlyCalls Quiet (generateNodeIds service nodesNumber) := by
  refine onlyCalls_mapM (fun i => ?_) _
  refine onlyCalls_bind (onlyCalls_call ?_) fun _ => trivial
  exact quiet_foreign (foreign_append _ (by decide))

theorem onlyCalls_validateKey (fieldData : FieldsData) (name : String) :
    OnlyCalls Quiet (validateKey fieldData name) := by
  refine onlyCalls_bind ?_ fun valid => ?_
  · exact onlyCalls_bind (onlyCalls_call (quiet_subkeyInspect _)) fun _ => trivial
  · cases valid with
    | true => trivial
    | false => trivial

theorem onlyCalls_validatePolkadotConfig (fieldData : FieldsData) :
    OnlyCalls Quiet (validatePolkadotConfig fieldData) := by
  have hkey := onlyCalls_validateKey fieldData
  exact onlyCalls_bind (hkey _) fun _ => onlyCalls_bind (hkey _) fun _ =>
    onlyCalls_bind (hkey _) fun _ => onlyCalls_bind (hkey _) fun _ =>
    onlyCalls_bind (hkey _) fun _ => hkey _

theorem onlyCalls_validateCentrifugeConfig (fieldData : FieldsData) :
    OnlyCalls Quiet (validateCentrifugeConfig fieldData) := by
  have hkey := onlyCalls_validateKey fieldData
  exact onlyCalls_bind (hkey _) fun _ => onlyCalls_bind (hkey _) fun _ =>
    onlyCalls_bind (hkey _) fun _ => hkey _

theorem onlyCalls_validateConfigData (host : Host) (configData : ConfigData) :
    OnlyCalls Quiet (validateConfigData host configData) := by
  refine onlyCalls_bind (onlyCalls_ofExcept _) fun _ => ?_
  refine onlyCalls_bind (onlyCalls_ofExcept _) fun servicesList => ?_
  refine onlyCalls_forM (fun service => ?_) _
  unfold validateService
  split
  · exact onlyCalls_forM onlyCalls_validatePolkadotConfig _
  · split
    · exact onlyCalls_forM onlyCalls_validateCentrifugeConfig _
    · trivial

theorem onlyCalls_generateServicesConfig (configData : ConfigData) (federationSize : ℕ) :
    OnlyCalls Quiet (generateServicesConfig configData federationSize) := by
  refine onlyCalls_bind (onlyCalls_ofExcept _) fun services => ?_
  refine onlyCalls_mapM (fun serviceData => ?_) _
  refine onlyCalls_bind (onlyCalls_ofExcept _) fun _ => ?_
  refine onlyCalls_bind (onlyCalls_ofExcept _) fun _ => ?_
  exact onlyCalls_bind (onlyCalls_generateNodeIds _ _) fun _ => trivial

theorem onlyCalls_generateWireguardKey : OnlyCalls Quiet generateWireguardKey := by
  refine onlyCalls_bind (onlyCalls_call ?_) fun _ => ?_
  · exact quiet_foreign (by decide)
  refine onlyCalls_bind (onlyCalls_call ?_) fun _ => ?_
  · exact quiet_foreign (foreign_append _ (foreign_append _ (by decide)))
  dsimp only
  split
  · trivial
  · trivial

theorem onlyCalls_generateWireguardConfig (externalIPAddresses : List String)
    (wireguardPortsList : Option (List String)) :
    OnlyCalls Quiet (generateWireguardConfig externalIPAddresses wireguardPortsList) := by
  have hkeys : OnlyCalls Quiet ((List.range externalIPAddresses.length).mapM
      fun _ => generateWireguardKey) := onlyCalls_mapM (fun _ => onlyCalls_generateWireguardKey) _
  refine onlyCalls_bind ?_ fun _ => ?_
  · exact onlyCalls_bind hkeys fun _ => trivial
  · exact onlyCalls_bind (onlyCalls_ofExcept _) fun _ => trivial

theorem onlyCalls_createArchive (folderPath resultFilePath password : String) :
    OnlyCalls Quiet (createArchive folderPath resultFilePath password) := by
  have hremove : OnlyCalls Quiet (rmNonEmptyDir folderPath) := onlyCalls_call trivial
  unfold createArchive
  split
  · refine onlyCalls_bind (onlyCalls_call (quiet_foreign ?_)) fun _ => hremove
    exact foreign_append _ (foreign_append _ (foreign_append _ (foreign_append _
      (foreign_append _ (by decide)))))
  · refine onlyCalls_bind (onlyCalls_call (quiet_foreign ?_)) fun _ => hremove
    exact foreign_append _ (foreign_append _ (foreign_append _ (by decide)))

/-! ### Runs that end well -/

section Runs
variable {E : Env api String Unit} {x y : Unit × (Unit × Log)}

theorem runs_quiet {α : Type} {m : Command α} (hm : OnlyCalls Quiet m) {a : α}
    (h : Runs (logged E) m x (.ok a) y) : Effect [] [] x.2 y.2 :=
  effect_quiet (runs_logs hm h)

theorem runs_quietCall {c : Call} {a : api.Ret c}
    (h : Runs (logged E) (call (A := api) c : Command (api.Ret c)) x (.ok a) y) (hc : Quiet c) :
    Effect [] [] x.2 y.2 :=
  runs_quiet (onlyCalls_call hc) h

theorem runs_generateSubstrateKey {key : SubstrateKey}
    (h : Runs (logged E) generateSubstrateKey x (.ok key) y) : Effect [key.seed] [] x.2 y.2 := by
  obtain ⟨subKeyResult, x₁, hgenerate, h⟩ := runs_bind h
  obtain ⟨seed, x₂, hseed, h⟩ := runs_bind h
  obtain ⟨sr, x₃, hsr, h⟩ := runs_bind h
  obtain ⟨subKeyResultEd, x₄, hinspect, h⟩ := runs_bind h
  obtain ⟨ed, x₅, hed, h⟩ := runs_bind h
  obtain ⟨rfl, rfl⟩ := runs_pure h
  obtain ⟨hfound, rfl⟩ := runs_ofExcept hseed
  obtain ⟨-, rfl⟩ := runs_ofExcept hsr
  obtain ⟨-, rfl⟩ := runs_ofExcept hed
  have hdraw : Effect [seed] [] x.2 x₃.2 := by
    obtain ⟨⟨-, hlog⟩, -⟩ := runs_call hgenerate
    refine ⟨_, hlog, ?_, rfl⟩
    simp [drawn, matched_ok.mp hfound]
  have hquiet : Effect [] [] x₃.2 y.2 :=
    runs_quiet (onlyCalls_call (quiet_subkeyInspect seed)) hinspect
  exact effect_trans hdraw hquiet

theorem runs_generateSubstrateKeys {keysNumber : ℕ} {keys : List SubstrateKey}
    (h : Runs (logged E) (generateSubstrateKeys keysNumber) x (.ok keys) y) :
    keys.length = keysNumber ∧ Effect (keys.map SubstrateKey.seed) [] x.2 y.2 := by
  have hrun : keys.length = (List.range keysNumber).length ∧
      Effect (keys.map SubstrateKey.seed) [] x.2 y.2 := by
    refine runs_mapM (R := fun l keys x y => keys.length = l.length ∧
      Effect (keys.map SubstrateKey.seed) [] x.2 y.2) ?_ ?_ h
    · exact fun x => ⟨rfl, effect_refl x.2⟩
    · intro i key l keys x z y hkey hkeys
      refine ⟨by simp [hkeys.1], ?_⟩
      exact effect_trans (runs_generateSubstrateKey hkey) hkeys.2
  rw [List.length_range] at hrun
  exact hrun

theorem runs_generateNodeIds {service : String} {nodesNumber : ℕ} {nodeIds : List NodeIds}
    (h : Runs (logged E) (generateNodeIds service nodesNumber) x (.ok nodeIds) y) :
    nodeIds.map NodeIds.idFile = (List.range nodesNumber).map (nodeIdFile service) := by
  refine runs_mapM (R := fun l nodeIds _ _ =>
    nodeIds.map NodeIds.idFile = l.map (nodeIdFile service)) (fun _ => rfl) ?_ h
  intro i ids l nodeIds x z y hids hnodeIds
  obtain ⟨subKeyCommand, x₁, -, hids⟩ := runs_bind hids
  obtain ⟨rfl, -⟩ := runs_pure hids
  rw [List.map_cons, List.map_cons, hnodeIds]

theorem runs_generateArchipelConfig {federationSize : ℕ} {config : ArchipelConfig}
    (h : Runs (logged E) (generateArchipelConfig federationSize) x (.ok config) y) :
    config.archipelNodes.length = federationSize ∧
      Effect (config.archipelNodes.map ArchipelNode.seed) [] x.2 y.2 := by
  obtain ⟨keys, x₁, hkeys, h⟩ := runs_bind h
  obtain ⟨nodeIds, x₂, hnodeIds, h⟩ := runs_bind h
  obtain ⟨rfl, rfl⟩ := runs_pure h
  obtain ⟨hlength, hdraws⟩ := runs_generateSubstrateKeys hkeys
  have hfiles := congrArg List.length (runs_generateNodeIds hnodeIds)
  simp only [List.length_map, List.length_range] at hfiles
  have hseeds : (keys.zipWith (fun key ids => ArchipelNode.mk key.seed ids) nodeIds).map
      ArchipelNode.seed = keys.map SubstrateKey.seed := by
    have hle : keys.length ≤ nodeIds.length := by omega
    rw [List.map_zipWith, ← List.map_uncurry_zip_eq_zipWith]
    conv_rhs => rw [← List.map_fst_zip hle, List.map_map]
    rfl
  refine ⟨by simp [hlength, hfiles], ?_⟩
  have hquiet := runs_quiet (onlyCalls_generateNodeIds _ _) hnodeIds
  have hall := effect_trans hdraws hquiet
  rw [hseeds]
  simpa using hall

/-- What a service of config.json owes to its service in archipel.json. -/
structure Served (federationSize : ℕ) (serviceData : ServiceData) (service : Service) : Prop where
  fields : ∃ names, serviceFields serviceData.name = .ok names ∧
    generateServiceFieldsConfig serviceData names = .ok service.fields
  idFiles : service.nodeIds.map NodeIds.idFile =
    (List.range federationSize).map (nodeIdFile serviceData.name)

theorem runs_generateServiceConfig {federationSize : ℕ} {serviceData : ServiceData}
    {service : Service}
    (h : Runs (logged E) (generateServiceConfig federationSize serviceData) x (.ok service) y) :
    Served federationSize serviceData service := by
  obtain ⟨names, x₁, hnames, h⟩ := runs_bind h
  obtain ⟨fields, x₂, hfields, h⟩ := runs_bind h
  obtain ⟨nodeIds, x₃, hnodeIds, h⟩ := runs_bind h
  obtain ⟨rfl, -⟩ := runs_pure h
  exact ⟨⟨names, (runs_ofExcept hnames).1, (runs_ofExcept hfields).1⟩,
    runs_generateNodeIds hnodeIds⟩

theorem runs_generateServicesConfig {configData : ConfigData} {federationSize : ℕ}
    {services : List Service}
    (h : Runs (logged E) (generateServicesConfig configData federationSize) x (.ok services) y) :
    ∃ servicesData, configData.services = some servicesData ∧
      List.Forall₂ (Served federationSize) servicesData services := by
  obtain ⟨servicesData, x₁, hlist, h⟩ := runs_bind h
  have hsome : configData.services = some servicesData := by
    have hok := (runs_ofExcept hlist).1
    cases hdata : configData.services with
    | none =>
      rw [hdata] at hok
      cases hok
    | some list =>
      rw [hdata] at hok
      cases hok
      rfl
  refine ⟨servicesData, hsome, ?_⟩
  refine runs_mapM (R := fun l services _ _ => List.Forall₂ (Served federationSize) l services)
    (fun _ => .nil) ?_ h
  intro serviceData service l services x z y hservice hservices
  exact .cons (runs_generateServiceConfig hservice) hservices

/-- What config.json owes to archipel.json. -/
structure Constructed (configData : ConfigData) (config : ConfigObject) : Prop where
  copied : config.toCopied = configData.toCopied
  nodesNumber : ∃ publicIps, configData.publicIps = some publicIps ∧
    config.nodesNumber = (split publicIps).length
  archipelNodes : config.archipelNodes.length = config.nodesNumber
  services : ∃ servicesData, configData.services = some servicesData ∧
    List.Forall₂ (Served (configData.serviceNodesNumber.getD 0)) servicesData config.services

theorem runs_constructConfig {host : Host} {configData : ConfigData} {config : ConfigObject}
    (h : Runs (logged E) (constructConfig host configData) x (.ok config) y) :
    Constructed configData config ∧
      Effect (config.archipelNodes.map ArchipelNode.seed) [] x.2 y.2 := by
  obtain ⟨publicIps, x₁, hips, h⟩ := runs_bind h
  obtain ⟨name, x₂, hname, h⟩ := runs_bind h
  obtain ⟨services, x₃, hservices, h⟩ := runs_bind h
  obtain ⟨wireguard, x₄, hwireguard, h⟩ := runs_bind h
  obtain ⟨archipel, x₅, harchipel, h⟩ := runs_bind h
  obtain ⟨rfl, rfl⟩ := runs_pure h
  obtain ⟨hsplit, rfl⟩ := runs_ofExcept hips
  obtain ⟨-, rfl⟩ := runs_ofExcept hname
  obtain ⟨hnodes, hdraws⟩ := runs_generateArchipelConfig harchipel
  have hquiet := runs_quiet (onlyCalls_generateServicesConfig _ _) hservices
  have hquiet' := runs_quiet (onlyCalls_generateWireguardConfig _ _) hwireguard
  refine ⟨⟨rfl, ⟨publicIps, property_ok.mp hsplit, rfl⟩, hnodes,
    runs_generateServicesConfig hservices⟩, ?_⟩
  exact effect_trans hquiet (effect_trans hquiet' hdraws)

/-- archipel.json holds `configData`; everything else answers anything. -/
def answering (configData : ConfigData) : Env api String Unit
  | .loadJSONFile _, _, r, _ => r = .ok configData
  | .prepareTempDirectory _, _, _, _ => True
  | .fileExists _, _, _, _ => True
  | .getPasswordFromUser, _, _, _ => True
  | .execAsync _, _, _, _ => True
  | .saveJSONToPath _ _, _, _, _ => True
  | .rmNonEmptyDir _, _, _, _ => True

theorem runs_generateConfig {host : Host} {configData : ConfigData} {u : Unit}
    (h : Runs (logged (answering configData)) (generateConfig host) x (.ok u) y) :
    validateTexts host configData = .ok () ∧ ∃ config, Constructed configData config ∧
      Effect (config.archipelNodes.map ArchipelNode.seed) [config] x.2 y.2 := by
  obtain ⟨_, x₁, hprepare, h⟩ := runs_bind h
  obtain ⟨found, x₂, hfound, h⟩ := runs_bind h
  cases found with
  | false =>
    obtain ⟨_, x₃, hthrow, -⟩ := runs_bind h
    exact absurd hthrow runs_throw
  | true =>
    obtain ⟨data, x₃, hload, h⟩ := runs_bind h
    obtain ⟨_, x₄, hvalid, h⟩ := runs_bind h
    obtain ⟨password, x₅, hpassword, h⟩ := runs_bind h
    obtain ⟨config, x₆, hconfig, h⟩ := runs_bind h
    obtain ⟨_, x₇, hsave, harchive⟩ := runs_bind h
    have hdata : data = configData := Except.ok.inj (runs_call hload).1.1
    subst hdata
    obtain ⟨_, x₈, htexts, -⟩ := runs_bind hvalid
    obtain ⟨hconstructed, hdraws⟩ := runs_constructConfig hconfig
    have hsaved : Effect [] [config] x₆.2 x₇.2 := by
      obtain ⟨⟨-, hlog⟩, -⟩ := runs_call hsave
      exact ⟨_, hlog, rfl, rfl⟩
    refine ⟨(runs_ofExcept htexts).1, config, hconstructed, ?_⟩
    have hbefore := effect_trans (runs_quietCall hprepare trivial)
      (effect_trans (runs_quietCall hfound trivial)
        (effect_trans (runs_quietCall hload trivial)
          (effect_trans (runs_quiet (onlyCalls_validateConfigData host data) hvalid)
            (runs_quietCall hpassword trivial))))
    have hafter := effect_trans hdraws (effect_trans hsaved
      (runs_quiet (onlyCalls_createArchive _ _ _) harchive))
    simpa using effect_trans hbefore hafter

end Runs

end Archipel.Cli
