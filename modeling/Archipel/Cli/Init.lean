import Archipel.Cli.Federation

/-!
# The template of archipel.json (cli/src/init.js, cli/src/service.js)

`init` writes archipel.json with an empty text for every field of every block of
each service. The user sets the texts and runs `generate`, which asks for the
fields of the service by their names.
-/

namespace Archipel.Cli
open Async ConfigFile
open Polkadot (blockValue)

/-! ### service.js -/

/-- The object that has an empty text for each field. -/
def fieldsObject (fields : List String) : FieldsData :=
  fields.foldl (fun result item => Function.update result item (some "")) fun _ => none

/-- Generate service template -/
def generateServicesTemplate (servicesName : String) (instances : ℕ) :
    Except String (List ServiceData) :=
  (split servicesName).mapM fun value => do
    let serviceFields ← serviceFields value
    pure {
      name := value
      fields := List.replicate instances (fieldsObject (serviceFields.map ServiceField.name)) }

/-! ### init.js -/

def configTemplate : ConfigData where
  name := some "Archipel"
  publicIps := some ("1.1.1.1,2.2.2.2,3.3.3.3,4.4.4.4,5.5.5.5,6.6.6.6,7.7.7.7,8.8.8.8,9.9.9.9," ++
    "10.10.10.10,11.11.11.11,12.12.12.12,13.13.13.13")
  wireguardPorts := some ("51820,51820,51820,51820,51820,51820,51820,51821,51821,51821," ++
    "51822,51822,51822")
  nodesRole := some ("operator,operator,operator,operator,operator,operator,operator,operator," ++
    "operator,noservice,noservice,noservice,noservice")
  nodesGroupId := some "1,1,1,2,2,2,3,3,3,99,99,99,99"
  nodesGroup := some "A,A,A,B,B,B,C,C,C,0,0,0,0"
  nexmoApiKey := some "null,null,null,null,null,null,null,null,null,null,null,null,null"
  nexmoApiSecret := some "null,null,null,null,null,null,null,null,null,null,null,null,null"
  nexmoApiSignatureMethod := some "null,null,null,null,null,null,null,null,null,null,null,null,null"
  nexmoApiSignatureSecret := some "null,null,null,null,null,null,null,null,null,null,null,null,null"
  nexmoPhoneNumber := some "null,null,null,null,null,null,null,null,null,null,null,null,null"
  outletPhoneNumber := some "null,null,null,null,null,null,null,null,null,null,null,null,null"
  serviceNodesNumber := none
  services := none
  service := none

/-- The file that `init` saves, or the error that it ends with. -/
def initConfig (services : String) : Except String ConfigData := do
  -- Setting service nodes number from node roles
  let number := serviceNodesNumber (roles configTemplate)
  -- Constructing configuration
  let template ← generateServicesTemplate services number
  pure { configTemplate with serviceNodesNumber := some number, services := some template }

/-! ### What the user edits -/

/-- The user sets texts of the services: no block gains or loses a property. -/
structure Edited (template configData : ConfigData) : Prop where
  services : ∃ before after, template.services = some before ∧ configData.services = some after ∧
    List.Forall₂ (fun service service' => service'.name = service.name ∧
      List.Forall₂ (fun block block' => ∀ name, (block' name).isSome = (block name).isSome)
        service.fields service'.fields) before after

/-- No text of a service is empty. -/
def Complete (configData : ConfigData) : Prop :=
  ∀ service ∈ configData.services.getD [], ∀ block ∈ service.fields, ∀ name,
    block name ≠ some ""

/-! ### The template has the fields that are asked for -/

theorem fieldsObject_isSome (fields : List String) (name : String) :
    (fieldsObject fields name).isSome = true ↔ name ∈ fields := by
  have hfrom : ∀ (l : List String) (result : FieldsData),
      (l.foldl (fun result item => Function.update result item (some "")) result name).isSome =
        true ↔ (result name).isSome = true ∨ name ∈ l := by
    intro l
    induction l with
    | nil => simp
    | cons item l ih =>
      intro result
      rw [List.foldl_cons, ih, Function.update_apply]
      by_cases hitem : name = item
      · simp [hitem]
      · simp [hitem]
  simpa [fieldsObject] using hfrom fields fun _ => none

/-- A service whose blocks have exactly the properties that its fields name. -/
structure Shaped (service : ServiceData) (names : List ServiceField) : Prop where
  supported : serviceFields service.name = .ok names
  properties : ∀ block ∈ service.fields, ∀ name,
    (block name).isSome = true ↔ name ∈ names.map ServiceField.name

theorem forall₂_mem {α β : Type} {R : α → β → Prop} {l : List α} {l' : List β}
    (h : List.Forall₂ R l l') {b : β} (hb : b ∈ l') : ∃ a ∈ l, R a b := by
  obtain ⟨i, hi⟩ := List.mem_iff_getElem?.mp hb
  obtain ⟨a, ha, hab⟩ := forall₂_getElem? h hi
  exact ⟨a, List.mem_of_getElem? ha, hab⟩

theorem template_shaped {servicesName : String} {instances : ℕ} {template : List ServiceData}
    (h : generateServicesTemplate servicesName instances = .ok template) :
    ∀ service ∈ template, ∃ names, Shaped service names := by
  intro service hservice
  obtain ⟨value, -, hvalue⟩ := forall₂_mem (mapM_ok h) hservice
  obtain ⟨names, hnames, hlast⟩ := bind_ok.mp hvalue
  cases hlast
  refine ⟨names, hnames, fun block hblock name => ?_⟩
  rw [List.eq_of_mem_replicate hblock]
  exact fieldsObject_isSome _ name

theorem edited_shaped {services : String} {template configData : ConfigData}
    (hinit : initConfig services = .ok template) (hedit : Edited template configData) :
    ∀ service ∈ configData.services.getD [], ∃ names, Shaped service names := by
  obtain ⟨before, after, hbefore, hafter, hall⟩ := hedit.services
  obtain ⟨list, hlist, hlast⟩ := bind_ok.mp hinit
  cases hlast
  cases hbefore
  rw [hafter]
  intro service' hservice'
  obtain ⟨service, hservice, hname, hblocks⟩ := forall₂_mem hall hservice'
  obtain ⟨names, hshaped⟩ := template_shaped hlist service hservice
  refine ⟨names, hname ▸ hshaped.supported, fun block' hblock' name => ?_⟩
  obtain ⟨block, hblock, hsame⟩ := forall₂_mem hblocks hblock'
  rw [hsame]
  exact hshaped.properties block hblock name

theorem shaped_generable {service : ServiceData} {names : List ServiceField}
    (h : Shaped service names) :
    Generable service ↔ ∀ block ∈ service.fields, ∀ name, block name ≠ some "" := by
  have hfields : Generable service ↔
      ∃ fields, generateServiceFieldsConfig service names = .ok fields := by
    constructor
    · intro hgenerable
      obtain ⟨names', fields, hnames', hfields⟩ := hgenerable
      cases hnames'.symm.trans h.supported
      exact ⟨fields, hfields⟩
    · intro hset
      obtain ⟨fields, hfields⟩ := hset
      exact ⟨names, fields, h.supported, hfields⟩
  rw [hfields, generateServiceFieldsConfig_isOk]
  refine forall₂_congr fun block hblock => ?_
  constructor
  · intro hset name hempty
    have hmem : name ∈ names.map ServiceField.name := by
      rw [← h.properties block hblock, hempty]
      rfl
    obtain ⟨field, hfield, rfl⟩ := List.mem_map.mp hmem
    obtain ⟨value, hvalue, hne⟩ := hset field hfield
    rw [hvalue] at hempty
    exact hne (Option.some.inj hempty)
  · intro hcomplete field hfield
    have hsome : (block field.name).isSome = true :=
      (h.properties block hblock field.name).mpr (List.mem_map_of_mem hfield)
    obtain ⟨value, hvalue⟩ := Option.isSome_iff_exists.mp hsome
    refine ⟨value, hvalue, ?_⟩
    rintro rfl
    exact hcomplete field.name hvalue

theorem edited_generable {services : String} {template configData : ConfigData}
    (hinit : initConfig services = .ok template) (hedit : Edited template configData) :
    ∃ after, configData.services = some after ∧
      ((∀ service ∈ after, Generable service) ↔ Complete configData) := by
  have hshaped := edited_shaped hinit hedit
  obtain ⟨-, after, -, hafter, -⟩ := hedit.services
  rw [hafter, Option.getD_some] at hshaped
  refine ⟨after, hafter, ?_⟩
  unfold Complete
  rw [hafter, Option.getD_some]
  refine forall₂_congr fun service hservice => ?_
  obtain ⟨names, hnames⟩ := hshaped service hservice
  exact shaped_generable hnames

/-- An archipel.json that `init` wrote generates, when the tools behave, if its
texts are valid and no text of a service is empty; a run that generates it, whatever
the tools answer, finds it so. -/
theorem init_generates {services : String} {template configData : ConfigData} (host : Host)
    (hinit : initConfig services = .ok template) (hedit : Edited template configData) :
    (validateTexts host configData = .ok () → Complete configData →
      Delivers (behaving configData) (generateConfig host) fun _ => True) ∧
    ∀ config log, Generates host configData config log →
      validateTexts host configData = .ok () ∧ Complete configData := by
  obtain ⟨after, hafter, hcomplete⟩ := edited_generable hinit hedit
  constructor
  · intro htexts hset
    exact delivers_generateConfig htexts hafter (hcomplete.mpr hset)
  · intro config log hgenerates
    obtain ⟨htexts, hconstructed, -⟩ := generates_constructed hgenerates
    obtain ⟨servicesData, hservicesData, hserved⟩ := hconstructed.services
    cases hafter.symm.trans hservicesData
    refine ⟨htexts, hcomplete.mp fun service hservice => ?_⟩
    obtain ⟨written, -, hwritten⟩ := forall₂_mem (List.Forall₂.flip hserved) hservice
    obtain ⟨names, hnames, hfields⟩ := hwritten.fields
    exact ⟨names, written.fields, hnames, hfields⟩

/-! ### The first service of the template is the one that loads -/

theorem serviceNodesNumber_template : serviceNodesNumber (roles configTemplate) = 9 := by
  decide +kernel

/-- The first service in archipel.json and in config.json. -/
structure Heads (services : String) (configData : ConfigData) (config : ConfigObject)
    (data : ServiceData) (names : List ServiceField) (service : Service) : Prop where
  value : (split services).head? = some data.name
  given : (configData.services.getD [])[0]? = some data
  length : data.fields.length = 9
  supported : serviceFields data.name = .ok names
  first : config.services[0]? = some service
  fields : List.Forall₂ (fun fieldsData block => names.mapM (setField fieldsData) = .ok block)
    data.fields service.fields
  idFiles : service.nodeIds.map NodeIds.idFile = (List.range 9).map (nodeIdFile data.name)

theorem heads_generates {host : Host} {services : String} {template configData : ConfigData}
    {config : ConfigObject} {log : Log} (hinit : initConfig services = .ok template)
    (hedit : Edited template configData)
    (hcount : configData.serviceNodesNumber = template.serviceNodesNumber)
    (hgenerates : Generates host configData config log) :
    ∃ data names service, Heads services configData config data names service := by
  obtain ⟨before, after, hbefore, hafter, hall⟩ := hedit.services
  obtain ⟨list, hlist, hlast⟩ := bind_ok.mp hinit
  cases hlast
  cases hbefore
  obtain ⟨value, values, hsplit⟩ := List.exists_cons_of_ne_nil (split_ne_nil services)
  have hlist := mapM_ok hlist
  rw [hsplit] at hlist
  obtain ⟨first, rest, hfirst, -, rfl⟩ := List.forall₂_cons_left_iff.mp hlist
  obtain ⟨data, others, ⟨hname, hblocks⟩, -, rfl⟩ := List.forall₂_cons_left_iff.mp hall
  obtain ⟨names, hnames, hlast⟩ := bind_ok.mp hfirst
  cases hlast
  obtain ⟨-, hconstructed, -⟩ := generates_constructed hgenerates
  obtain ⟨servicesData, hservicesData, hserved⟩ := hconstructed.services
  cases hafter.symm.trans hservicesData
  rw [hcount, Option.getD_some, serviceNodesNumber_template] at hserved
  obtain ⟨service, written, hone, -, hservices⟩ := List.forall₂_cons_left_iff.mp hserved
  obtain ⟨names', hnames', hfields⟩ := hone.fields
  have hsupported : serviceFields data.name = .ok names := by
    rw [hname]
    exact hnames
  cases hnames'.symm.trans hsupported
  have hlength : data.fields.length = 9 := by
    rw [← hblocks.length_eq, List.length_replicate, serviceNodesNumber_template]
  exact ⟨data, names, service, by rw [hsplit, hname]; rfl, by rw [hafter]; rfl, hlength, hsupported,
    by rw [hservices]; rfl, mapM_ok hfields, hone.idFiles⟩

/-- A block has no variable that is not one of its service. -/
theorem blockValue_env {fieldsData : FieldsData} {names : List ServiceField} {block : List Field}
    (h : names.mapM (setField fieldsData) = .ok block) {env value : String}
    (hvalue : blockValue block env = some value) : ∃ field ∈ names, field.env = env := by
  obtain ⟨element, hfind, -⟩ := Option.map_eq_some_iff.mp hvalue
  obtain ⟨field, hfield, hset⟩ := forall₂_mem (mapM_ok h) (List.mem_of_find?_eq_some hfind)
  have henv : element.env = env := by simpa using List.find?_some hfind
  exact ⟨field, hfield, (setField_ok hset).2.symm.trans henv⟩

/-- No block of centrifuge has a variable of polkadot. -/
theorem Heads.never {services : String} {configData : ConfigData} {config : ConfigObject}
    {data : ServiceData} {service : Service}
    (hheads : Heads services configData config data centrifugeFields service)
    {readToObj : String → Except String ConfigObject} {configFilePath : String}
    (hfile : readToObj configFilePath = .ok config) (index : ℕ) (loaded : Polkadot.FileConfig) :
    loadService readToObj configFilePath (index + 1) ≠ .ok loaded := by
  intro hloaded
  obtain ⟨block, hblock, hkeys⟩ := (Polkadot.readConfigObject_takes hheads.first
    ((loadService_ok hfile).mp hloaded)).block
  obtain ⟨fieldsData, -, hset⟩ := forall₂_getElem? hheads.fields hblock
  have hgran : blockValue block "POLKADOT_KEY_GRAN" = some loaded.polkadotKeyGran :=
    (List.cons.inj hkeys).1.symm
  obtain ⟨field, hfield, henv⟩ := blockValue_env hset hgran
  have hnone : "POLKADOT_KEY_GRAN" ∉ centrifugeFields.map ServiceField.env := by decide
  exact hnone (henv ▸ List.mem_map_of_mem hfield)

theorem loadService_bounded {readToObj : String → Except String ConfigObject}
    {configFilePath : String} {config : ConfigObject}
    (hfile : readToObj configFilePath = .ok config) {index : ℕ} {loaded : Polkadot.FileConfig}
    (h : loadService readToObj configFilePath (index + 1) = .ok loaded) :
    index < config.nodesNumber := by
  have hread := (loadService_ok hfile).mp h
  unfold Polkadot.readConfigObject at hread
  split at hread
  · cases hread
  · omega

/-- The polkadot service of a federation that `init` began loads at the first nine
nodes, each with its own block, if polkadot was named first, and at no other node. -/
theorem init_loads {services : String} {template configData : ConfigData}
    (hinit : initConfig services = .ok template) (hedit : Edited template configData)
    (hcount : configData.serviceNodesNumber = template.serviceNodesNumber) (host : Host)
    {config : ConfigObject} {log : Log} (hgenerates : Generates host configData config log)
    {readToObj : String → Except String ConfigObject} {configFilePath : String}
    (hfile : readToObj configFilePath = .ok config) (index : ℕ) :
    ((∃ loaded, loadService readToObj configFilePath (index + 1) = .ok loaded) ↔
      (split services).head? = some "polkadot" ∧ index < 9 ∧ index < (ips configData).length) ∧
    ∀ loaded, loadService readToObj configFilePath (index + 1) = .ok loaded →
      ∃ data, (configData.services.getD [])[0]? = some data ∧ Holds data.fields loaded index ∧
        loaded.polkadotNodeKeyFile = nodeIdFile "polkadot" index := by
  obtain ⟨data, names, service, hheads⟩ := heads_generates hinit hedit hcount hgenerates
  obtain ⟨-, hconstructed, -⟩ := generates_constructed hgenerates
  obtain ⟨publicIps, hips, hnumber⟩ := hconstructed.nodesNumber
  have hnodes : config.nodesNumber = (ips configData).length := by simp [ips, hips, hnumber]
  have hbounded : ∀ loaded, loadService readToObj configFilePath (index + 1) = .ok loaded →
      index < (ips configData).length := by
    intro loaded hloaded
    rw [← hnodes]
    exact loadService_bounded hfile hloaded
  rcases serviceFields_cases hheads.supported with ⟨hname, rfl⟩ | ⟨hname, rfl⟩
  · have hservice : FirstService data.fields config service := by
      refine ⟨hheads.first, hheads.fields, ?_⟩
      rw [hheads.length, ← hname]
      exact hheads.idFiles
    have hreads : ∀ loaded, loadService readToObj configFilePath (index + 1) = .ok loaded →
        index < 9 ∧ Holds data.fields loaded index ∧
          loaded.polkadotNodeKeyFile = nodeIdFile "polkadot" index := by
      intro loaded hloaded
      rw [← hheads.length]
      exact hservice.reads hfile hloaded
    refine ⟨⟨?_, ?_⟩, fun loaded hloaded => ⟨data, hheads.given, (hreads loaded hloaded).2⟩⟩
    · intro h
      obtain ⟨loaded, hloaded⟩ := h
      exact ⟨hname ▸ hheads.value, (hreads loaded hloaded).1, hbounded loaded hloaded⟩
    · intro h
      obtain ⟨-, hindex, hnode⟩ := h
      rw [← hheads.length] at hindex
      rw [← hnodes] at hnode
      exact hservice.loads hfile hindex hnode
  · have hnever := hheads.never hfile index
    refine ⟨⟨?_, ?_⟩, fun loaded hloaded => absurd hloaded (hnever loaded)⟩
    · intro h
      obtain ⟨loaded, hloaded⟩ := h
      exact absurd hloaded (hnever loaded)
    · intro h
      have hhead := h.1
      rw [hheads.value, hname] at hhead
      exact absurd (Option.some.inj hhead) (by decide)

/-! ### A template of both services -/

/-- The file that `init` saves for both services. -/
def bothTemplate : ConfigData :=
  { configTemplate with
    serviceNodesNumber := some 9
    services := some [
      ⟨"polkadot", List.replicate 9 (fieldsObject (polkadotFields.map ServiceField.name))⟩,
      ⟨"centrifuge", List.replicate 9 (fieldsObject (centrifugeFields.map ServiceField.name))⟩] }

/-- The seed of a field. -/
def seeded (block : FieldsData) : FieldsData := fun name =>
  (block name).map fun _ => "//" ++ name

/-- Every text of every service is set. -/
def bothData : ConfigData :=
  { bothTemplate with
    services := bothTemplate.services.map fun services => services.map fun service =>
      { service with fields := service.fields.map seeded } }

def bothHost : Host :=
  { plainHost with
    isIP := fun ip => ["1.1.1.1", "2.2.2.2", "3.3.3.3", "4.4.4.4", "5.5.5.5", "6.6.6.6", "7.7.7.7",
      "8.8.8.8", "9.9.9.9", "10.10.10.10", "11.11.11.11", "12.12.12.12",
      "13.13.13.13"].contains ip }

theorem initConfig_both : initConfig "polkadot,centrifuge" = .ok bothTemplate := by
  have hsplit : split "polkadot,centrifuge" = ["polkadot", "centrifuge"] := by decide +kernel
  unfold initConfig generateServicesTemplate
  rw [hsplit, serviceNodesNumber_template]
  rfl

theorem both_edited : Edited bothTemplate bothData := by
  refine ⟨_, _, rfl, rfl, ?_⟩
  rw [List.forall₂_map_right_iff, List.forall₂_same]
  intro service _
  refine ⟨rfl, ?_⟩
  rw [List.forall₂_map_right_iff, List.forall₂_same]
  intro block _ name
  simp [seeded]

theorem both_complete : Complete bothData := by
  intro service hservice block hblock name hempty
  obtain ⟨service, -, rfl⟩ := List.mem_map.mp hservice
  obtain ⟨block, -, rfl⟩ := List.mem_map.mp hblock
  obtain ⟨text, -, htext⟩ := Option.map_eq_some_iff.mp hempty
  simp at htext

theorem both_valid : validateTexts bothHost bothData = .ok () := by decide +kernel

theorem init_generates_both :
    Delivers (behaving bothData) (generateConfig bothHost) fun _ => True :=
  (init_generates bothHost initConfig_both both_edited).1 both_valid both_complete

theorem init_loads_both : ∃ config log, Generates bothHost bothData config log ∧
    ∃ loaded, loadService (fun _ => .ok config) "/config/config.json" 9 = .ok loaded := by
  obtain ⟨after, hafter, hcomplete⟩ := edited_generable initConfig_both both_edited
  obtain ⟨config, log, hgenerates⟩ := delivers_generates
    (delivers_generateConfig both_valid hafter (hcomplete.mpr both_complete))
  have hfile : (fun _ : String => (.ok config : Except String ConfigObject))
      "/config/config.json" = .ok config := rfl
  exact ⟨config, log, hgenerates, (init_loads initConfig_both both_edited rfl bothHost hgenerates
    hfile 8).1.mpr (by decide +kernel)⟩

end Archipel.Cli
