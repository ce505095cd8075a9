import Archipel.Cli.Effects

/-!
# Generation succeeds

When `subkey` and `wg` print what they document and the files can be read and
written, `generateConfig` ends well on every archipel.json whose texts are valid
and whose services are supported and filled.
-/

namespace Archipel.Cli
open Async ConfigFile Utils

def wgGenkey : String := "wg genkey"

def wgPubkey (privateKey : String) : String := "echo " ++ privateKey ++ " | wg pubkey"

/-- What the answer of a call is like: a generated key has a phrase and an
address, an inspected key has an address, a wireguard key has 44 characters. -/
def Behaves (configData : ConfigData) : (c : Call) → api.Ret c → Prop
  | .prepareTempDirectory _, _ => True
  | .fileExists _, found => found = true
  | .loadJSONFile _, loaded => loaded = configData
  | .getPasswordFromUser, _ => True
  | .execAsync cmd, result =>
    (cmd = subkeyGenerate → (seedOf result).isSome = true ∧ (addressOf result).isSome = true) ∧
    (∀ seed, cmd = subkeyInspect seed →
      (addressOf result).isSome = true ∧ includes result "Invalid" = false) ∧
    ((cmd = wgGenkey ∨ ∃ privateKey, cmd = wgPubkey privateKey) → (base64Prefix result).length = 44)
  | .saveJSONToPath _ _, _ => True
  | .rmNonEmptyDir _, _ => True

def behaving (configData : ConfigData) : Env api String Unit :=
  fun c _ r _ => ∃ a, r = .ok a ∧ Behaves configData c a

/-- Every field of the service is set. -/
def Filled (block : FieldsData) : Prop :=
  ∀ field ∈ polkadotFields, ∃ value, block field.name = some value ∧ value ≠ ""

section Delivers
variable {configData : ConfigData}

theorem delivers_behaving {c : Call} :
    Delivers (behaving configData) (call (A := api) c : Command (api.Ret c))
      (Behaves configData c) :=
  delivers_call fun _ _ _ hr => hr

theorem delivers_execAsync {cmd : String} :
    Delivers (behaving configData) (execAsync cmd) (Behaves configData (.execAsync cmd)) :=
  delivers_behaving

theorem matched_some {found : Option String} (h : found.isSome = true) :
    ∃ text, matched found = .ok text := by
  obtain ⟨text, rfl⟩ := Option.isSome_iff_exists.mp h
  exact ⟨text, rfl⟩

theorem delivers_generateSubstrateKey :
    Delivers (behaving configData) generateSubstrateKey fun _ => True := by
  refine delivers_bind delivers_execAsync fun subKeyResult hresult => ?_
  obtain ⟨hseed, haddress⟩ := hresult.1 rfl
  obtain ⟨seed, hseed⟩ := matched_some hseed
  obtain ⟨address, haddress⟩ := matched_some haddress
  refine delivers_ok hseed (delivers_ok haddress ?_)
  refine delivers_bind delivers_execAsync fun subKeyResultEd hinspect => ?_
  obtain ⟨addressEd, haddressEd⟩ := matched_some (hinspect.2.1 seed rfl).1
  exact delivers_ok haddressEd (delivers_pure trivial)

theorem delivers_generateNodeIds (service : String) (nodesNumber : ℕ) :
    Delivers (behaving configData) (generateNodeIds service nodesNumber) fun _ => True := by
  refine delivers_mono (delivers_mapM (R := fun _ _ => True) fun i _ => ?_) fun _ _ => trivial
  exact delivers_bind delivers_execAsync fun _ _ => delivers_pure trivial

theorem delivers_generateArchipelConfig (federationSize : ℕ) :
    Delivers (behaving configData) (generateArchipelConfig federationSize) fun _ => True := by
  have hkeys : Delivers (behaving configData) (generateSubstrateKeys federationSize)
      fun _ => True :=
    delivers_mono (delivers_mapM fun _ _ => delivers_generateSubstrateKey) fun _ _ => trivial
  refine delivers_bind hkeys fun keys _ => ?_
  exact delivers_bind (delivers_generateNodeIds _ _) fun _ _ => delivers_pure trivial

theorem delivers_generateWireguardKey :
    Delivers (behaving configData) generateWireguardKey fun key => key.isSome = true := by
  refine delivers_bind delivers_execAsync fun genKeyCmd hgenkey => ?_
  have hprivate : (base64Prefix genKeyCmd).length = 44 := hgenkey.2.2 (.inl rfl)
  refine delivers_bind delivers_execAsync fun publicKeyCmd hpubkey => ?_
  have hpublic : (base64Prefix publicKeyCmd).length = 44 := hpubkey.2.2 (.inr ⟨_, rfl⟩)
  dsimp only
  rw [if_pos ⟨hprivate, hpublic⟩]
  exact delivers_pure rfl

theorem length_filterMap_isSome {α β : Type} {l : List α} {bs : List (Option β)}
    (h : List.Forall₂ (fun _ b => b.isSome = true) l bs) :
    (bs.filterMap id).length = l.length := by
  induction h with
  | nil => rfl
  | @cons a b l bs hsome hrest ih =>
    obtain ⟨key, rfl⟩ := Option.isSome_iff_exists.mp hsome
    show (key :: bs.filterMap id).length = _
    rw [List.length_cons, ih, List.length_cons]

theorem delivers_generateWireguardKeys (keysNumber : ℕ) :
    Delivers (behaving configData) (generateWireguardKeys keysNumber)
      fun keys => keys.length = keysNumber := by
  refine delivers_bind (delivers_mapM fun _ _ => delivers_generateWireguardKey) fun keys hkeys => ?_
  have hlength := length_filterMap_isSome hkeys
  rw [List.length_range] at hlength
  exact delivers_pure hlength

theorem mapM_property {keys : List WireguardKey} {l : List ℕ} (h : ∀ i ∈ l, i < keys.length) :
    ∃ nodes, (l.mapM fun i => do
      let key ← property "privateKey" keys[i]?
      pure key.privateKey) = .ok nodes := by
  induction l with
  | nil => exact ⟨[], rfl⟩
  | cons i l ih =>
    obtain ⟨nodes, hnodes⟩ := ih fun j hj => h j (by simp [hj])
    have hi : i < keys.length := h i (by simp)
    have hkey : keys[i]? = some keys[i] := List.getElem?_eq_getElem hi
    rw [List.mapM_cons, hnodes, hkey]
    exact ⟨keys[i].privateKey :: nodes, rfl⟩

theorem delivers_generateWireguardConfig (externalIPAddresses : List String)
    (wireguardPortsList : Option (List String)) :
    Delivers (behaving configData) (generateWireguardConfig externalIPAddresses wireguardPortsList)
      fun _ => True := by
  refine delivers_bind (delivers_generateWireguardKeys _) fun keys hkeys => ?_
  have hindex : ∀ i ∈ List.range externalIPAddresses.length, i < keys.length := by
    intro i hi
    rw [hkeys]
    exact List.mem_range.mp hi
  obtain ⟨nodes, hnodes⟩ := mapM_property hindex
  exact delivers_ok hnodes (delivers_pure trivial)

/-! ### The service -/

theorem mapM_isOk {ε α β : Type} {f : α → Except ε β} {l : List α} :
    (∃ bs, l.mapM f = .ok bs) ↔ ∀ a ∈ l, ∃ b, f a = .ok b := by
  induction l with
  | nil => simpa using ⟨[], rfl⟩
  | cons a l ih =>
    rw [List.forall_mem_cons, ← ih, List.mapM_cons]
    constructor
    · intro ⟨bs, hbs⟩
      obtain ⟨b, hb, hrest⟩ := bind_ok.mp hbs
      obtain ⟨bs', hbs', -⟩ := bind_ok.mp hrest
      exact ⟨⟨b, hb⟩, bs', hbs'⟩
    · intro ⟨⟨b, hb⟩, bs, hbs⟩
      rw [hb, hbs]
      exact ⟨b :: bs, rfl⟩

theorem setField_isOk {block : FieldsData} {field : ServiceField} :
    (∃ element, setField block field = .ok element) ↔
      ∃ value, block field.name = some value ∧ value ≠ "" := by
  unfold setField
  cases hvalue : block field.name with
  | none => simp
  | some value =>
    by_cases hempty : value = ""
    · simp [hempty]
    · simp [hempty]

theorem generateServiceFieldsConfig_isOk {service : ServiceData} {names : List ServiceField} :
    (∃ fields, generateServiceFieldsConfig service names = .ok fields) ↔
      ∀ block ∈ service.fields, ∀ field ∈ names, ∃ value, block field.name = some value ∧
        value ≠ "" := by
  unfold generateServiceFieldsConfig
  simp only [mapM_isOk, setField_isOk]

/-- The service is supported and every field of it is set. -/
def Generable (service : ServiceData) : Prop :=
  ∃ names fields, serviceFields service.name = .ok names ∧
    generateServiceFieldsConfig service names = .ok fields

theorem generable_filled {blocks : List FieldsData} (hfilled : ∀ block ∈ blocks, Filled block) :
    Generable ⟨"polkadot", blocks⟩ := by
  have hset : ∃ fields,
      generateServiceFieldsConfig ⟨"polkadot", blocks⟩ polkadotFields = .ok fields :=
    generateServiceFieldsConfig_isOk.mpr hfilled
  obtain ⟨fields, hfields⟩ := hset
  exact ⟨polkadotFields, fields, rfl, hfields⟩

variable {services : List ServiceData}

theorem delivers_generateServicesConfig (hservices : configData.services = some services)
    (hall : ∀ service ∈ services, Generable service) (federationSize : ℕ) :
    Delivers (behaving configData) (generateServicesConfig configData federationSize)
      fun _ => True := by
  unfold generateServicesConfig
  rw [hservices]
  refine delivers_ok rfl ?_
  refine delivers_mono (delivers_mapM (R := fun _ _ => True) fun serviceData hmem => ?_)
    fun _ _ => trivial
  obtain ⟨names, fields, hnames, hfields⟩ := hall serviceData hmem
  refine delivers_ok hnames (delivers_ok hfields ?_)
  exact delivers_bind (delivers_generateNodeIds _ _) fun _ _ => delivers_pure trivial

theorem delivers_validateKey (fieldData : FieldsData) (name : String) :
    Delivers (behaving configData) (validateKey fieldData name) fun _ => True := by
  have hvalid : ∀ seed, Delivers (behaving configData) (validateSeed seed)
      fun valid => valid = true := by
    intro seed
    refine delivers_bind delivers_execAsync fun subKeyCommand hinspect => ?_
    exact delivers_pure (by rw [(hinspect.2.1 seed rfl).2]; rfl)
  refine delivers_bind (hvalid _) fun valid htrue => ?_
  rw [htrue]
  exact delivers_pure trivial

theorem delivers_validatePolkadotConfig (fieldData : FieldsData) :
    Delivers (behaving configData) (validatePolkadotConfig fieldData) fun _ => True := by
  have hkey : ∀ name, Delivers (behaving configData) (validateKey fieldData name) fun _ => True :=
    delivers_validateKey fieldData
  exact delivers_bind (hkey _) fun _ _ => delivers_bind (hkey _) fun _ _ =>
    delivers_bind (hkey _) fun _ _ => delivers_bind (hkey _) fun _ _ =>
    delivers_bind (hkey _) fun _ _ => hkey _

theorem delivers_validateCentrifugeConfig (fieldData : FieldsData) :
    Delivers (behaving configData) (validateCentrifugeConfig fieldData) fun _ => True := by
  have hkey : ∀ name, Delivers (behaving configData) (validateKey fieldData name) fun _ => True :=
    delivers_validateKey fieldData
  exact delivers_bind (hkey _) fun _ _ => delivers_bind (hkey _) fun _ _ =>
    delivers_bind (hkey _) fun _ _ => hkey _

theorem serviceFields_cases {name : String} {names : List ServiceField}
    (h : serviceFields name = .ok names) :
    (name = "polkadot" ∧ names = polkadotFields) ∨
      (name = "centrifuge" ∧ names = centrifugeFields) := by
  unfold serviceFields at h
  split at h
  · next hname =>
    cases h
    exact .inl ⟨hname, rfl⟩
  · split at h
    · next hname =>
      cases h
      exact .inr ⟨hname, rfl⟩
    · cases h

theorem delivers_validateService {service : ServiceData} {names : List ServiceField}
    (hnames : serviceFields service.name = .ok names) :
    Delivers (behaving configData) (validateService configData service) fun _ => True := by
  unfold validateService
  rcases serviceFields_cases hnames with ⟨hname, -⟩ | ⟨hname, -⟩
  · rw [if_pos hname]
    exact delivers_forM fun block _ => delivers_validatePolkadotConfig block
  · rw [hname, if_neg (by decide), if_pos rfl]
    exact delivers_forM fun block _ => delivers_validateCentrifugeConfig block

theorem delivers_validateConfigData {host : Host}
    (htexts : validateTexts host configData = .ok ())
    (hservices : configData.services = some services)
    (hall : ∀ service ∈ services, Generable service) :
    Delivers (behaving configData) (validateConfigData host configData) fun _ => True := by
  refine delivers_ok htexts ?_
  unfold validateServicesConfig
  rw [hservices]
  refine delivers_ok rfl ?_
  refine delivers_forM fun service hmem => ?_
  obtain ⟨names, fields, hnames, -⟩ := hall service hmem
  exact delivers_validateService hnames

/-! ### The whole command -/

theorem validateTexts_set {host : Host} (h : validateTexts host configData = .ok ()) :
    (∃ name, configData.name = some name) ∧ ∃ publicIps, configData.publicIps = some publicIps := by
  have hset : ∀ (str : Option String) (msg : String) (u : Unit), isEmptyString str msg = .ok u →
      ∃ text, str = some text := by
    intro str msg u hok
    cases str with
    | none => cases hok
    | some text => exact ⟨text, rfl⟩
  unfold validateTexts at h
  obtain ⟨u, hname, h⟩ := bind_ok.mp h
  obtain ⟨u', hips, -⟩ := bind_ok.mp h
  exact ⟨hset _ _ u hname, hset _ _ u' hips⟩

theorem delivers_createArchive (folderPath resultFilePath password : String) :
    Delivers (behaving configData) (createArchive folderPath resultFilePath password)
      fun _ => True := by
  have hremove : Delivers (behaving configData) (rmNonEmptyDir folderPath) fun _ => True :=
    delivers_mono delivers_behaving fun _ _ => trivial
  unfold createArchive
  split
  · exact delivers_bind delivers_execAsync fun _ _ => hremove
  · exact delivers_bind delivers_execAsync fun _ _ => hremove

theorem delivers_generateConfig {host : Host}
    (htexts : validateTexts host configData = .ok ())
    (hservices : configData.services = some services)
    (hall : ∀ service ∈ services, Generable service) :
    Delivers (behaving configData) (generateConfig host) fun _ => True := by
  obtain ⟨⟨name, hname⟩, publicIps, hips⟩ := validateTexts_set htexts
  refine delivers_bind delivers_behaving fun _ _ => ?_
  refine delivers_bind (delivers_behaving (c := .fileExists configFile)) fun found hfound => ?_
  have htrue : found = true := hfound
  rw [htrue]
  refine delivers_bind (delivers_behaving (c := .loadJSONFile configFile)) fun loaded hloaded => ?_
  have hdata : loaded = configData := hloaded
  rw [hdata]
  refine delivers_bind (delivers_validateConfigData htexts hservices hall) fun _ _ => ?_
  refine delivers_bind delivers_behaving fun password _ => ?_
  have hconstruct : Delivers (behaving configData) (constructConfig host configData)
      fun _ => True := by
    unfold constructConfig
    rw [hips, hname]
    refine delivers_ok rfl (delivers_ok rfl ?_)
    refine delivers_bind (delivers_generateServicesConfig hservices hall _) fun _ _ => ?_
    refine delivers_bind (delivers_generateWireguardConfig _ _) fun _ _ => ?_
    exact delivers_bind (delivers_generateArchipelConfig _) fun _ _ => delivers_pure trivial
  refine delivers_bind hconstruct fun config _ => ?_
  refine delivers_bind delivers_behaving fun _ _ => ?_
  exact delivers_createArchive _ _ _

end Delivers

/-! ### Tools that behave -/

def plainNodeId : String := "12D3KooWDNrN2hVjFFRB\n"

def plainKey : String :=
  "Secret phrase `bottom drive` is account:\n  SS58 Address:     5Gukhq\n"

def plainWireguardKey : String := "oJ+o0ey68QRC2ZbeG+KFMG4h4CBIwUSJ8qjhdduXcF8=\n"

/-- Answers of `subkey` and `wg` in the formats that they document. -/
def plainShell (cmd : String) : String :=
  if "subkey generate-node-key".toList.isPrefixOf cmd.toList then plainNodeId
  else if "subkey".toList.isPrefixOf cmd.toList then plainKey
  else plainWireguardKey

def plainAnswer (configData : ConfigData) : (c : Call) → api.Ret c
  | .prepareTempDirectory _ => ()
  | .fileExists _ => true
  | .loadJSONFile _ => configData
  | .getPasswordFromUser => "password"
  | .execAsync cmd => plainShell cmd
  | .saveJSONToPath _ _ => ()
  | .rmNonEmptyDir _ => ()

theorem plainShell_subkeyGenerate : plainShell subkeyGenerate = plainKey := by decide +kernel

theorem plainShell_subkeyInspect (seed : String) : plainShell (subkeyInspect seed) = plainKey := by
  have htext : (subkeyInspect seed).toList =
      "subkey inspect --scheme Ed25519 --network substrate \"".toList ++ (seed ++ "\"").toList :=
    (congrArg String.toList String.append_assoc).trans String.toList_append
  unfold plainShell
  rw [htext]
  rfl

theorem plainShell_wgGenkey : plainShell wgGenkey = plainWireguardKey := by decide +kernel

theorem plainShell_wgPubkey (privateKey : String) :
    plainShell (wgPubkey privateKey) = plainWireguardKey := by
  have htext : (wgPubkey privateKey).toList =
      "echo ".toList ++ (privateKey ++ " | wg pubkey").toList :=
    (congrArg String.toList String.append_assoc).trans String.toList_append
  unfold plainShell
  rw [htext]
  rfl

theorem plainShell_behaves (configData : ConfigData) (cmd : String) :
    Behaves configData (.execAsync cmd) (plainShell cmd) := by
  have haddress : (addressOf plainKey).isSome = true := by decide +kernel
  have hwg : (base64Prefix plainWireguardKey).length = 44 := by decide +kernel
  refine ⟨?_, ?_, ?_⟩
  · rintro rfl
    rw [plainShell_subkeyGenerate]
    exact ⟨by decide +kernel, haddress⟩
  · rintro seed rfl
    rw [plainShell_subkeyInspect]
    exact ⟨haddress, by decide +kernel⟩
  · rintro (rfl | ⟨privateKey, rfl⟩)
    · rw [plainShell_wgGenkey]
      exact hwg
    · rw [plainShell_wgPubkey]
      exact hwg

theorem plainAnswer_behaves (configData : ConfigData) (c : Call) :
    Behaves configData c (plainAnswer configData c) := by
  cases c with
  | execAsync cmd => exact plainShell_behaves configData cmd
  | prepareTempDirectory path => trivial
  | fileExists path => rfl
  | loadJSONFile path => rfl
  | getPasswordFromUser => trivial
  | saveJSONToPath json path => trivial
  | rmNonEmptyDir path => trivial

theorem behaving_total (configData : ConfigData) : (behaving configData).Total :=
  fun c w => ⟨.ok (plainAnswer configData c), w, _, rfl, plainAnswer_behaves configData c⟩

end Archipel.Cli
