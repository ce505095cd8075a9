import Archipel.Deployer.Peers

/-!
# The chain of a node (deployer/archipel/start-chain.sh)

The script takes what no variable sets from config.json, writes the spec of the
chain with the addresses of all nodes as its authorities, puts the keys of the
node into the keystore and starts the chain. An exit is the text that it prints;
a command that fails exits without one.
-/

namespace Archipel.Deployer.StartChain
open ConfigFile Shell

/-- The variables that config.json has a value for. -/
structure Settings where
  nodeAlias : String
  keySeed : String
  nodeKeyFile : String
  authoritiesSr25519List : String
  authoritiesEd25519List : String
  reservedPeers : String
  deriving DecidableEq

structure Variables extends Settings where
  configFile : String
  nodeId : Option ℕ
  listenPort : String
  telemetryUrl : String
  telemetryLoglevel : String

inductive Scheme where
  | ed25519
  | sr25519
  deriving DecidableEq

/-- What the container has: config.json when the archive is there, the files, and
what `subkey inspect` prints, if it does not fail. -/
structure Machine where
  unzipped : Option ConfigObject
  isFile : String → Bool
  inspect : Scheme → String → Option String

/-! ### The variables -/

def checkResult (result name : String) : Except String Unit :=
  -- A result without words leaves the name as the first argument.
  let arguments := fields result ++ [name]
  if arguments[0]? = some "null" then
    throw ("Error! Config for '" ++ arguments.getD 1 "" ++ "' not found in config file.")
  else
    pure ()

def retrieve (value : String) (found : Option String) (name : String) : Except String String := do
  if value = "" then
    let result := printed found
    checkResult result name
    pure result
  else
    pure value

def retrieveAlias (value name : String) (nodeId : ℕ) : Except String String := do
  if value = "" then
    let result := printed (some name)
    checkResult result "ARCHIPEL_NODE_ALIAS"
    pure (result ++ "-" ++ toString nodeId)
  else
    pure value

/-- set variables from config file if they are not set -/
def setVariables (config : ConfigObject) (nodeId : ℕ) (set : Settings) :
    Except String Settings := do
  let node := config.archipelNodes[nodeId - 1]?
  let nodeAlias ← retrieveAlias set.nodeAlias config.name nodeId
  let keySeed ← retrieve set.keySeed (node.map ArchipelNode.seed) "ARCHIPEL_KEY_SEED"
  let nodeKeyFile ← retrieve set.nodeKeyFile (node.map fun node => node.nodeIds.idFile)
    "ARCHIPEL_NODE_KEY_FILE"
  let authoritiesSr25519List ← retrieve set.authoritiesSr25519List
    (some config.archipelSr25519List) "ARCHIPEL_AUTHORITIES_SR25519_LIST"
  let authoritiesEd25519List ← retrieve set.authoritiesEd25519List
    (some config.archipelEd25519List) "ARCHIPEL_AUTHORITIES_ED25519_LIST"
  let reservedPeers ← retrieve set.reservedPeers (some config.archipelReservedPeersList)
    "ARCHIPEL_RESERVED_PEERS"
  pure {
    nodeAlias := nodeAlias
    keySeed := keySeed
    nodeKeyFile := nodeKeyFile
    authoritiesSr25519List := authoritiesSr25519List
    authoritiesEd25519List := authoritiesEd25519List
    reservedPeers := reservedPeers }

/-- parsing config file -/
def parseConfigFile (unzipped : Option ConfigObject) (env : Variables) :
    Except String Settings := do
  if env.configFile = "" then
    pure env.toSettings
  else
    match env.nodeId, unzipped with
    | none, _ => throw "$NODE_ID must be set"
    | some _, none => throw "No config file found in /config/archipel-config.zip"
    | some nodeId, some config =>
      -- check if node id is valid
      if nodeId = 0 ∨ nodeId > config.nodesNumber then
        throw ("Invalid node number! Node number must be between 1 and " ++
          toString config.nodesNumber ++ "...")
      else
        setVariables config nodeId env.toSettings

/-! ### The commands -/

/-- Without blanks, quotes and brackets, one entry on each line. -/
def clean (list : String) : String :=
  substitution (tr ',' '\n' (trDelete [' ', '"', '[', ']'] (echo list)))

/-- `[ ! -f $path ]`; the test of several words fails. -/
def isMissing (machine : Machine) (path : String) : Bool :=
  match fields path with
  | [path] => !machine.isFile path
  | _ => false

/-- `subkey inspect .. | grep key | cut -d":" -f2 | sed ..` -/
def inspected (machine : Machine) (scheme : Scheme) (keySeed key name : String) :
    Except String String :=
  match machine.inspect scheme keySeed with
  | none => throw ""
  | some output =>
    match grep key output with
    | [] => throw ""
    | found =>
      let value := substitution ("\n".intercalate (found.map fun line => trimStart (cut ':' line)))
      if value = "" then throw ("$" ++ name ++ " no found using subkey") else pure value

/-- `sed -E "s/0x(.*)/\1/g"` -/
def without0x (publicKey : String) : String :=
  substitution ("\n".intercalate ((lines publicKey).map fun line =>
    String.ofList (Cli.removeFirst "0x".toList line.toList)))

/-! ### The spec of the chain -/

/-- The fields of archipelSpec.json that are not those of the template. Of two
arrays it is the text between their brackets. -/
structure Spec where
  bootNodes : List String
  name : String
  id : String
  auraAuthorities : List String
  grandpaAuthorities : String
  balances : String
  deriving DecidableEq

/-- add SS58 Adress to palletAura.authorities -/
def addAuthorities (authorities : List String) : List String :=
  authorities.foldl (fun list auth => list ++ [auth]) []

def itemOutput (weight item : String) : String := "[\"" ++ item ++ "\"," ++ weight ++ "]"

def listToInject (weight : String) (items : List String) : String :=
  let list := items.foldl (fun list item => list ++ " " ++ itemOutput weight item ++ ",") ""
  -- remove last , of loop
  String.ofList list.toList.dropLast

def inject (placeholder weight : String) (items : List String) : Except String String :=
  match replacement placeholder (echo (listToInject weight items)).toList with
  | some text => pure (String.ofList text)
  | none => throw ""

def buildSpec (sr25519 ed25519 : List String) : Except String Spec := do
  let grandpaAuthorities ← inject "\"REPLACE_AUTHORITIES_HERE\"" "1" ed25519
  let balances ← inject "\"REPLACE_BALANCES_HERE\"" "1152921504606847000" sr25519
  pure {
    bootNodes := []
    name := "Archipel"
    id := "archipel"
    auraAuthorities := addAuthorities sr25519
    grandpaAuthorities := grandpaAuthorities
    balances := balances }

/-! ### The start of the chain -/

/-- reserved peers list construct -/
def reservedPeersParam (reservedPeers : String) : String :=
  if reservedPeers = "" then
    "--reserved-only"
  else
    (fields (tr ',' ' ' (echo reservedPeers))).foldl
      (fun param item => param ++ " --reserved-nodes " ++ item) "--reserved-only"

def telemetryUrlCmd (telemetryUrl : String) : String :=
  if telemetryUrl ≠ "" ∧ telemetryUrl ≠ "--no-telemetry" then telemetryUrl else "--no-telemetry"

def telemetryArguments (telemetryUrl telemetryLoglevel : String) : List String :=
  let url := telemetryUrlCmd telemetryUrl
  let loglevel := if telemetryLoglevel ≠ "" then telemetryLoglevel else "0"
  if url = "--no-telemetry" then ["--no-telemetry"] else ["--telemetry-url", url ++ " " ++ loglevel]

/-- The arguments of the chain. -/
def arguments (listenPort nodeKeyFile nodeAlias reservedPeers : String)
    (telemetry : List String) : List String :=
  ["--chain=/root/chain/archipelSpecRaw.json", "--base-path", "/root/chain/data", "--validator",
    "--prometheus-external", "--prometheus-port", "9616", "--port"] ++ fields listenPort ++
  ["--node-key-file"] ++ fields ("/config/" ++ nodeKeyFile) ++ telemetry ++
  ["--name", nodeAlias] ++ fields (reservedPeersParam reservedPeers)

def keystore : String := "/root/chain/data/chains/archipel/keystore/"

structure Started where
  spec : Spec
  /-- Each file with its content. -/
  keys : List (String × String)
  arguments : List String

/-- What of the settings goes into the chain, checked. -/
structure Checked where
  nodeKeyFile : String
  sr25519 : List String
  ed25519 : List String

/-- check if all necessary vars are set -/
def checkSettings (machine : Machine) (set : Settings) : Except String Checked := do
  if set.nodeAlias = "" then throw "$ARCHIPEL_NODE_ALIAS is empty"
  if set.keySeed = "" then throw "$ARCHIPEL_KEY_SEED is empty"
  let nodeKeyFile := if set.nodeKeyFile = "" then "archipel_node_key_file" else set.nodeKeyFile
  if isMissing machine ("/config/" ++ nodeKeyFile) then
    throw ("$/config/" ++ nodeKeyFile ++ " file not found")
  if set.authoritiesSr25519List = "" then throw "$ARCHIPEL_AUTHORITIES_SR25519_LIST is empty"
  let sr25519 := clean set.authoritiesSr25519List
  if sr25519 = "" then throw "$ARCHIPEL_AUTHORITIES_SR25519_LIST_CLEAN is empty"
  let ed25519 := clean set.authoritiesEd25519List
  if ed25519 = "" then throw "$ARCHIPEL_AUTHORITIES_ED25519_LIST_CLEAN is empty"
  pure ⟨nodeKeyFile, fields sr25519, fields ed25519⟩

/-- The public keys of the node; its addresses are only looked for. -/
def publicKeys (machine : Machine) (keySeed : String) : Except String (String × String) := do
  if !machine.isFile "/usr/local/bin/subkey" then
    throw "Missing 'subkey' utility. It is necessary to extract keys."
  let _ ← inspected machine .ed25519 keySeed "SS58" "ARCHIPEL_SS58_ADDRESS_ED25519"
  let _ ← inspected machine .sr25519 keySeed "SS58" "ARCHIPEL_SS58_ADDRESS_SR25519"
  let ed25519 ← inspected machine .ed25519 keySeed "Public" "ARCHIPEL_PUBLIC_KEY_ED25519"
  let sr25519 ← inspected machine .sr25519 keySeed "Public" "ARCHIPEL_PUBLIC_KEY_SR25519"
  pure (ed25519, sr25519)

def startChain (machine : Machine) (env : Variables) : Except String Started := do
  let set ← parseConfigFile machine.unzipped env
  let listenPort := if env.listenPort = "" then "30334" else env.listenPort
  let checked ← checkSettings machine set
  let (ed25519, sr25519) ← publicKeys machine set.keySeed
  if !machine.isFile "/root/chain/archipelTemplateSpec.json" then
    throw "missing chain spec template /root/chain/archipelTemplateSpec.json"
  let spec ← buildSpec checked.sr25519 checked.ed25519
  -- Writing key seed into files
  let content := "\"" ++ set.keySeed ++ "\"\n"
  pure {
    spec := spec
    keys := [(keystore ++ "6772616e" ++ without0x ed25519, content),
      (keystore ++ "61757261" ++ without0x sr25519, content)]
    arguments := arguments listenPort checked.nodeKeyFile set.nodeAlias set.reservedPeers
      (telemetryArguments env.telemetryUrl env.telemetryLoglevel) }

/-! ### Texts of one word -/

/-- An address of `subkey`: letters and digits. -/
def Address (text : String) : Prop :=
  text ≠ "" ∧ text ≠ "null" ∧ ∀ c ∈ text.toList, c.isAlphanum = true

theorem Address.item {text : String} (h : Address text) : Item text :=
  ⟨⟨h.1, h.2.1, fun c hc => (isAlphanum_plain (h.2.2 c hc)).2.1⟩,
    fun hcomma => (isAlphanum_plain (h.2.2 _ hcomma)).2.2 rfl⟩

theorem checkResult_first {result name : String} (h : (fields result)[0]? ≠ some "null")
    (hname : name ≠ "null") : checkResult result name = .ok () := by
  unfold checkResult
  rw [if_neg]
  · rfl
  · intro hnull
    cases hfields : fields result with
    | nil =>
      rw [hfields] at hnull
      exact hname (Option.some.inj hnull)
    | cons first rest =>
      rw [hfields] at h hnull
      exact h hnull

theorem retrieve_first (text name : String) (h : (fields (shown text))[0]? ≠ some "null")
    (hname : name ≠ "null") : retrieve "" (some text) name = .ok (shown text) := by
  unfold retrieve
  rw [if_pos rfl]
  simp only [printed, checkResult_first h hname]
  rfl

/-- No separator of words is in a text without white space. -/
theorem isSpace_fields {c : Char} (hc : isSpace c = false) :
    (c == ' ' || c == '\t' || c == '\n') = false := by
  have hne : c ≠ ' ' ∧ c ≠ '\t' ∧ c ≠ '\n' := by
    refine ⟨?_, ?_, ?_⟩
    all_goals
      rintro rfl
      revert hc
      decide
  simp [hne]

theorem fields_intercalate (sep : Char) {l : List String}
    (hsep : (sep == ' ' || sep == '\t' || sep == '\n') = true)
    (hl : ∀ text ∈ l, text ≠ "" ∧ ∀ c ∈ text.toList, isSpace c = false) :
    fields ((String.ofList [sep]).intercalate l) = l := by
  apply words_intercalate hsep fun text htext => (hl text htext).1
  exact fun text htext c hc => isSpace_fields ((hl text htext).2 c hc)

theorem fields_word_first {text : String} (h : Word text) : (fields text)[0]? ≠ some "null" := by
  rw [fields_word h]
  simpa using h.2.1

theorem echo_word {text : String} (h : Word text) : echo text = text := by
  rw [echo, fields_word h]
  rfl

/-! ### The lists of the addresses -/

section Lists
variable {l : List String}

/-- The list of the addresses comes back. -/
theorem fields_clean (hne : l ≠ []) (hl : ∀ text ∈ l, Address text) :
    fields (clean (",".intercalate l)) = l := by
  have hitems : ∀ text ∈ l, Item text := fun text htext => (hl text htext).item
  have hkept : trDelete [' ', '"', '[', ']'] (",".intercalate l) = ",".intercalate l := by
    apply trDelete_eq
    intro c hc hmem
    rw [comma_eq] at hc
    rcases Text.mem_intercalate hc with rfl | ⟨text, htext, hchar⟩
    · revert hmem
      decide
    · have halnum := (hl text htext).2.2 c hchar
      simp only [List.mem_cons, List.not_mem_nil, or_false] at hmem
      rcases hmem with rfl | rfl | rfl | rfl
      all_goals cases halnum
  have hlines : tr ',' '\n' (",".intercalate l) = "\n".intercalate l :=
    tr_intercalate (b := '\n') fun text htext => (hitems text htext).2
  have hwords : fields ("\n".intercalate l) = l := by
    apply fields_intercalate '\n' rfl
    intro text htext
    exact ⟨(hl text htext).1, fun c hc => (isAlphanum_plain ((hl text htext).2.2 c hc)).2.1⟩
  rw [clean, fields_substitution, echo_word (word_join hne hitems), hkept, hlines, hwords]

theorem addAuthorities_eq (authorities : List String) :
    addAuthorities authorities = authorities := by
  rw [addAuthorities, List.foldl_append_eq_append, List.nil_append, ← List.flatMap_def]
  simp

/-- One blank stands before each entry, and the list begins with one. -/
theorem intercalate_blank (hne : l ≠ []) :
    ",".intercalate (l.map fun entry => " " ++ entry) = "" ++ " " ++ ", ".intercalate l := by
  induction l with
  | nil => exact absurd rfl hne
  | cons entry l ih =>
    cases l with
    | nil => simp
    | cons next l =>
      have hrest := ih (List.cons_ne_nil next l)
      rw [List.map_cons] at hrest
      rw [List.map_cons, List.map_cons, String.intercalate_cons_cons, hrest,
        String.intercalate_cons_cons]
      apply String.ext
      simp

/-- `echo` changes nothing in a list with one blank after each comma. -/
theorem echo_entries (hne : l ≠ []) (hl : ∀ entry ∈ l, entry ≠ "")
    (hblank : ∀ entry ∈ l, ∀ c ∈ entry.toList, isSpace c = false) :
    fields (", ".intercalate l) ≠ [] ∧ echo (", ".intercalate l) = ", ".intercalate l := by
  induction l with
  | nil => exact absurd rfl hne
  | cons entry l ih =>
    have hone : ∀ text : String, text ≠ "" → (∀ c ∈ text.toList, isSpace c = false) →
        fields text = [text] := fun text htext hchars =>
      words_single htext fun c hc => isSpace_fields (hchars c hc)
    have hentry := hl entry (List.mem_cons_self ..)
    have hchars := hblank entry (List.mem_cons_self ..)
    cases l with
    | nil =>
      have hfields := hone entry hentry hchars
      rw [String.intercalate_singleton, echo, hfields]
      exact ⟨List.cons_ne_nil _ _, rfl⟩
    | cons next l =>
      obtain ⟨hfields, hecho⟩ := ih (List.cons_ne_nil next l)
        (fun e he => hl e (List.mem_cons_of_mem entry he))
        fun e he => hblank e (List.mem_cons_of_mem entry he)
      have hcomma : fields (entry ++ ",") = [entry ++ ","] := by
        apply hone
        · simp
        · intro c hc
          rw [String.toList_append, List.mem_append] at hc
          rcases hc with hc | hc
          · exact hchars c hc
          · cases List.mem_singleton.mp hc
            decide
      have htext : ", ".intercalate (entry :: next :: l) =
          entry ++ "," ++ " " ++ ", ".intercalate (next :: l) := by
        rw [String.intercalate_cons_cons]
        apply String.ext
        simp
      obtain ⟨first, rest, hcons⟩ := List.exists_cons_of_ne_nil hfields
      have hsplit : fields (", ".intercalate (entry :: next :: l)) =
          (entry ++ ",") :: first :: rest := by
        rw [htext, fields_append, hcomma, hcons]
        rfl
      refine ⟨by rw [hsplit]; exact List.cons_ne_nil _ _, ?_⟩
      rw [echo, hcons] at hecho
      rw [echo, hsplit, String.intercalate_cons_cons, hecho, htext]

theorem listToInject_eq (weight : String) (hne : l ≠ []) :
    listToInject weight l = "" ++ " " ++ ", ".intercalate (l.map (itemOutput weight)) := by
  have hentries : l.foldl (fun list item => list ++ " " ++ itemOutput weight item ++ ",") "" =
      ((l.map fun item => " " ++ itemOutput weight item).map
        fun entry => entry ++ String.ofList [',']).foldl (fun text entry => text ++ entry) "" := by
    rw [List.map_map, List.foldl_map]
    congr 1
    funext list item
    apply String.ext
    simp
  have hmap : l.map (fun item => " " ++ itemOutput weight item) =
      (l.map (itemOutput weight)).map fun entry => " " ++ entry := by
    rw [List.map_map]
    rfl
  unfold listToInject
  rw [hentries, Text.dropLast_separated, hmap]
  exact intercalate_blank (by simpa using hne)

theorem itemOutput_chars {weight item : String} (hitem : ∀ c ∈ item.toList, c.isAlphanum = true)
    (hweight : ∀ c ∈ weight.toList, c.isAlphanum = true) {c : Char}
    (hc : c ∈ (itemOutput weight item).toList) :
    isSpace c = false ∧ c ≠ '/' ∧ c ≠ '&' ∧ c ≠ '\\' := by
  have halnum : c.isAlphanum = true → isSpace c = false ∧ c ≠ '/' ∧ c ≠ '&' ∧ c ≠ '\\' := by
    intro h
    refine ⟨(isAlphanum_plain h).2.1, ?_, ?_, ?_⟩
    all_goals
      rintro rfl
      cases h
  have hmarks : ∀ d ∈ ['[', '"', ',', ']'],
      isSpace d = false ∧ d ≠ '/' ∧ d ≠ '&' ∧ d ≠ '\\' := forall_chars (by decide)
  have hmark : ∀ text : String, text.toList ⊆ ['[', '"', ',', ']'] → c ∈ text.toList →
      isSpace c = false ∧ c ≠ '/' ∧ c ≠ '&' ∧ c ≠ '\\' :=
    fun text hsubset hmem => hmarks c (hsubset hmem)
  simp only [itemOutput, String.toList_append, List.mem_append] at hc
  rcases hc with (((hc | hc) | hc) | hc) | hc
  · exact hmark _ (by decide) hc
  · exact halnum (hitem c hc)
  · exact hmark _ (by decide) hc
  · exact halnum (hweight c hc)
  · exact hmark _ (by decide) hc

/-- The text between the brackets: one pair for each address. -/
theorem inject_eq (placeholder weight : String) (hne : l ≠ [])
    (hl : ∀ text ∈ l, Address text) (hweight : ∀ c ∈ weight.toList, c.isAlphanum = true) :
    inject placeholder weight l = .ok (", ".intercalate (l.map (itemOutput weight))) := by
  have hchars : ∀ entry ∈ l.map (itemOutput weight), ∀ c ∈ entry.toList,
      isSpace c = false ∧ c ≠ '/' ∧ c ≠ '&' ∧ c ≠ '\\' := by
    intro entry hentry c hc
    obtain ⟨item, hitem, rfl⟩ := List.mem_map.mp hentry
    exact itemOutput_chars (hl item hitem).2.2 hweight hc
  have hspace : ∀ entry ∈ l.map (itemOutput weight), ∀ c ∈ entry.toList,
      isSpace c = false := fun entry hentry c hc => (hchars entry hentry c hc).1
  have hentries : ∀ entry ∈ l.map (itemOutput weight), entry ≠ "" := by
    intro entry hentry
    obtain ⟨item, -, rfl⟩ := List.mem_map.mp hentry
    simp [itemOutput]
  have hecho := (echo_entries (by simpa using hne) hentries hspace).2
  have htext : echo (listToInject weight l) = ", ".intercalate (l.map (itemOutput weight)) := by
    rw [listToInject_eq weight hne, echo, fields_append]
    exact hecho
  have hplain : ∀ c ∈ (", ".intercalate (l.map (itemOutput weight))).toList,
      c ≠ '/' ∧ c ≠ '&' ∧ c ≠ '\\' := by
    have hsep : ∀ d ∈ ", ".toList, d ≠ '/' ∧ d ≠ '&' ∧ d ≠ '\\' := forall_chars (by decide)
    intro c hc
    rcases Text.mem_intercalate_text hc with hmem | ⟨entry, hentry, hmem⟩
    · exact hsep c hmem
    · exact (hchars entry hentry c hmem).2
  unfold inject
  rw [htext, replacement_plain hplain]
  dsimp only
  rw [String.ofList_toList]
  rfl

/-- The spec with these addresses. -/
def genesis (sr25519 ed25519 : List String) : Spec where
  bootNodes := []
  name := "Archipel"
  id := "archipel"
  auraAuthorities := sr25519
  grandpaAuthorities := ", ".intercalate (ed25519.map (itemOutput "1"))
  balances := ", ".intercalate (sr25519.map (itemOutput "1152921504606847000"))

theorem buildSpec_eq {sr25519 ed25519 : List String} (hsr : sr25519 ≠ []) (hed : ed25519 ≠ [])
    (hsrs : ∀ text ∈ sr25519, Address text) (heds : ∀ text ∈ ed25519, Address text) :
    buildSpec sr25519 ed25519 = .ok (genesis sr25519 ed25519) := by
  have hgrandpa := inject_eq "\"REPLACE_AUTHORITIES_HERE\"" "1" hed heds
    (forall_chars (by decide))
  have hbalances := inject_eq "\"REPLACE_BALANCES_HERE\"" "1152921504606847000" hsr hsrs
    (forall_chars (by decide))
  refine bind_ok.mpr ⟨_, hgrandpa, bind_ok.mpr ⟨_, hbalances, ?_⟩⟩
  rw [addAuthorities_eq]
  rfl

/-- Every peer is reserved, in the order of the list. -/
theorem fields_reservedPeersParam (hne : l ≠ []) (hl : ∀ text ∈ l, Item text) :
    fields (reservedPeersParam (",".intercalate l)) =
      "--reserved-only" :: l.flatMap fun peer => ["--reserved-nodes", peer] := by
  have hfold : ∀ (peers : List String) (param : String), (∀ peer ∈ peers, Word peer) →
      fields (peers.foldl (fun param item => param ++ " --reserved-nodes " ++ item) param) =
        fields param ++ peers.flatMap fun peer => ["--reserved-nodes", peer] := by
    intro peers
    induction peers with
    | nil => simp
    | cons peer peers ih =>
      intro param hwords
      have htext : param ++ " --reserved-nodes " ++ peer =
          param ++ " " ++ "--reserved-nodes" ++ " " ++ peer := by
        apply String.ext
        simp
      have hoption : fields "--reserved-nodes" = ["--reserved-nodes"] := by decide
      rw [List.foldl_cons, ih _ fun p hp => hwords p (List.mem_cons_of_mem peer hp), htext,
        fields_append, fields_append, hoption, fields_word (hwords peer (List.mem_cons_self ..))]
      simp
  have hword := word_join hne hl
  have hpeers : fields (tr ',' ' ' (echo (",".intercalate l))) = l := by
    have htr : tr ',' ' ' (",".intercalate l) = " ".intercalate l :=
      tr_intercalate (b := ' ') fun text htext => (hl text htext).2
    rw [echo_word hword, htr]
    apply fields_intercalate ' ' rfl
    exact fun text htext => ⟨(hl text htext).1.1, (hl text htext).1.2.2⟩
  unfold reservedPeersParam
  rw [if_neg hword.1, hpeers, hfold _ _ fun text htext => (hl text htext).1]
  have hfirst : fields "--reserved-only" = ["--reserved-only"] := by decide
  rw [hfirst]
  rfl

end Lists

/-! ### The keys of the node -/

/-- One line has the word, and its text after the colon and the blanks is the value. -/
def Shows (output word value : String) : Prop :=
  ∃ label blank : List Char, grep word output = [String.ofList (label ++ ':' :: blank) ++ value] ∧
    ':' ∉ label ∧ (∀ c ∈ blank, isspace c = true) ∧ Address value

theorem cut_second {sep : Char} {label rest : List Char} (hlabel : sep ∉ label)
    (hrest : sep ∉ rest) :
    cut sep (String.ofList (label ++ sep :: rest)) = String.ofList rest := by
  have hsplit : (label ++ sep :: rest).splitOn sep = [label, rest] := by
    have hjoin : [sep].intercalate [label, rest] = label ++ sep :: rest := by
      simp [List.intercalate, List.intersperse]
    rw [← hjoin]
    apply List.splitOn_intercalate
    · simp [hlabel, hrest]
    · simp
  unfold cut
  rw [String.toList_ofList, hsplit]
  simp

theorem trimStart_blank {blank : List Char} {value : String}
    (hblank : ∀ c ∈ blank, isspace c = true)
    (hvalue : ∀ c ∈ value.toList, isspace c = false) :
    trimStart (String.ofList (blank ++ value.toList)) = value := by
  have hkeep : value.toList.dropWhile isspace = value.toList := by
    cases hlist : value.toList with
    | nil => rfl
    | cons c t =>
      have hc := hvalue c (by rw [hlist]; exact List.mem_cons_self ..)
      rw [List.dropWhile_cons, if_neg (by rw [hc]; decide)]
  rw [trimStart, String.toList_ofList, List.dropWhile_append_of_pos hblank, hkeep,
    String.ofList_toList]

theorem Address.notMem {text : String} (h : Address text) {c : Char} (hc : c.isAlphanum = false) :
    c ∉ text.toList := by
  intro hmem
  rw [h.2.2 c hmem] at hc
  cases hc

theorem inspected_shows {machine : Machine} {scheme : Scheme} {keySeed word output value : String}
    (name : String) (houtput : machine.inspect scheme keySeed = some output)
    (h : Shows output word value) : inspected machine scheme keySeed word name = .ok value := by
  obtain ⟨label, blank, hgrep, hlabel, hblank, haddress⟩ := h
  have hrest : ':' ∉ blank ++ value.toList := by
    rw [List.mem_append]
    rintro (hmem | hmem)
    · exact absurd (hblank _ hmem) (by decide)
    · exact haddress.notMem (by decide) hmem
  have hcut : cut ':' (String.ofList (label ++ ':' :: blank) ++ value) =
      String.ofList (blank ++ value.toList) := by
    rw [← cut_second hlabel hrest]
    congr 1
    apply String.ext
    simp
  have htrim : trimStart (String.ofList (blank ++ value.toList)) = value :=
    trimStart_blank hblank fun c hc => isspace_isSpace (isAlphanum_plain (haddress.2.2 c hc)).2.1
  have hvalue : substitution ("\n".intercalate [value]) = value := by
    rw [String.intercalate_singleton]
    exact substitution_line (haddress.notMem (by decide))
  unfold inspected
  simp only [houtput, hgrep, List.map_singleton, hcut, htrim, hvalue]
  rw [if_neg haddress.1]
  rfl

theorem without0x_hex {hex : String} (h : Address hex) : without0x ("0x" ++ hex) = hex := by
  have hlines : lines ("0x" ++ hex) = ["0x" ++ hex] := by
    apply lines_single
    rw [String.toList_append, List.mem_append]
    rintro (hmem | hmem)
    · revert hmem
      decide
    · exact h.notMem (by decide) hmem
  have hremove : Cli.removeFirst "0x".toList ("0x" ++ hex).toList = hex.toList := by
    have hprefix : ['0', 'x'].isPrefixOf? ('0' :: 'x' :: hex.toList) = some hex.toList := by
      simp [List.isPrefixOf?]
    rw [String.toList_append]
    show Cli.removeFirst ['0', 'x'] ('0' :: 'x' :: hex.toList) = hex.toList
    rw [Cli.removeFirst, hprefix]
  rw [without0x, hlines, List.map_singleton, hremove, String.ofList_toList,
    String.intercalate_singleton]
  exact substitution_line (h.notMem (by decide))

/-! ### The start of a node -/

/-- What the script reads of a node in config.json. -/
structure Entries (config : ConfigObject) (nodeId : ℕ) (node : ArchipelNode)
    (sr25519 ed25519 peers : List String) : Prop where
  found : config.archipelNodes[nodeId - 1]? = some node
  name : Word (shown config.name)
  seed : shown node.seed = node.seed ∧ node.seed ≠ "" ∧ (fields node.seed)[0]? ≠ some "null"
  idFile : shown node.nodeIds.idFile = node.nodeIds.idFile ∧ Word node.nodeIds.idFile
  sr25519List : shown config.archipelSr25519List = ",".intercalate sr25519
  ed25519List : shown config.archipelEd25519List = ",".intercalate ed25519
  reservedPeers : shown config.archipelReservedPeersList = ",".intercalate peers
  addresses : ∀ text ∈ sr25519 ++ ed25519, Address text
  items : ∀ peer ∈ peers, Item peer
  nonempty : sr25519 ≠ [] ∧ ed25519 ≠ [] ∧ peers ≠ []

/-- The container of a node with this config.json and this key file. -/
structure Prepared (machine : Machine) (config : ConfigObject) (idFile : String) : Prop where
  unzipped : machine.unzipped = some config
  keyFile : machine.isFile ("/config/" ++ idFile) = true
  subkey : machine.isFile "/usr/local/bin/subkey" = true
  template : machine.isFile "/root/chain/archipelTemplateSpec.json" = true

/-- Only the file and the node id are set. -/
structure Unset (env : Variables) (nodeId : ℕ) : Prop where
  configFile : env.configFile ≠ ""
  nodeId : env.nodeId = some nodeId
  settings : env.toSettings = ⟨"", "", "", "", "", ""⟩

/-- `subkey` prints the address and the public key of the seed. -/
def Prints (machine : Machine) (scheme : Scheme) (seed address publicKey : String) : Prop :=
  ∃ output, machine.inspect scheme seed = some output ∧ Shows output "SS58" address ∧
    Shows output "Public" ("0x" ++ publicKey) ∧ Address publicKey

section Start
variable {machine : Machine} {env : Variables} {config : ConfigObject} {nodeId : ℕ}
variable {node : ArchipelNode} {sr25519 ed25519 peers : List String}

/-- What the script sets from config.json. -/
def nodeSettings (config : ConfigObject) (nodeId : ℕ) (node : ArchipelNode)
    (sr25519 ed25519 peers : List String) : Settings where
  nodeAlias := shown config.name ++ "-" ++ toString nodeId
  keySeed := node.seed
  nodeKeyFile := node.nodeIds.idFile
  authoritiesSr25519List := ",".intercalate sr25519
  authoritiesEd25519List := ",".intercalate ed25519
  reservedPeers := ",".intercalate peers

theorem Entries.setVariables_eq (e : Entries config nodeId node sr25519 ed25519 peers) :
    setVariables config nodeId ⟨"", "", "", "", "", ""⟩ =
      .ok (nodeSettings config nodeId node sr25519 ed25519 peers) := by
  have hlist : ∀ {text : String} (name : String) {l : List String}, shown text = ",".intercalate l →
      l ≠ [] → (∀ entry ∈ l, Item entry) → name ≠ "null" →
      retrieve "" (some text) name = .ok (",".intercalate l) := by
    intro text name l htext hne hitems hname
    rw [← htext]
    exact retrieve_first text name (fields_word_first (htext ▸ word_join hne hitems)) hname
  have hsr := hlist "ARCHIPEL_AUTHORITIES_SR25519_LIST" e.sr25519List e.nonempty.1
    (fun text htext => (e.addresses text (List.mem_append_left _ htext)).item) (by decide)
  have hed := hlist "ARCHIPEL_AUTHORITIES_ED25519_LIST" e.ed25519List e.nonempty.2.1
    (fun text htext => (e.addresses text (List.mem_append_right _ htext)).item) (by decide)
  have hpeers := hlist "ARCHIPEL_RESERVED_PEERS" e.reservedPeers e.nonempty.2.2 e.items
    (by decide)
  have hseed : retrieve "" (some node.seed) "ARCHIPEL_KEY_SEED" = .ok node.seed := by
    have hfirst := retrieve_first node.seed "ARCHIPEL_KEY_SEED"
      (by rw [e.seed.1]; exact e.seed.2.2) (by decide)
    rwa [e.seed.1] at hfirst
  have hfile : retrieve "" (some node.nodeIds.idFile) "ARCHIPEL_NODE_KEY_FILE" =
      .ok node.nodeIds.idFile := by
    have hfirst := retrieve_first node.nodeIds.idFile "ARCHIPEL_NODE_KEY_FILE"
      (by rw [e.idFile.1]; exact fields_word_first e.idFile.2) (by decide)
    rwa [e.idFile.1] at hfirst
  have halias : retrieveAlias "" config.name nodeId =
      .ok (shown config.name ++ "-" ++ toString nodeId) := by
    unfold retrieveAlias
    rw [if_pos rfl]
    simp only [printed, checkResult_first (fields_word_first e.name)
      (show "ARCHIPEL_NODE_ALIAS" ≠ "null" by decide)]
    rfl
  unfold setVariables
  simp only [e.found, Option.map_some, halias, hseed, hfile, hsr, hed, hpeers]
  rfl

theorem parseConfigFile_eq (hunset : Unset env nodeId) (hpos : 1 ≤ nodeId)
    (hle : nodeId ≤ config.nodesNumber) :
    parseConfigFile (some config) env = setVariables config nodeId ⟨"", "", "", "", "", ""⟩ := by
  have hvalid : ¬ (nodeId = 0 ∨ nodeId > config.nodesNumber) := by omega
  unfold parseConfigFile
  rw [if_neg hunset.configFile, hunset.nodeId, hunset.settings]
  exact if_neg hvalid

theorem clean_ne_empty {l : List String} (hne : l ≠ []) (hl : ∀ text ∈ l, Address text) :
    clean (",".intercalate l) ≠ "" := by
  intro hempty
  have hfields := fields_clean hne hl
  rw [hempty] at hfields
  exact hne hfields.symm

theorem word_config {idFile : String} (h : Word idFile) : Word ("/config/" ++ idFile) := by
  have hfirst : '/' ∈ ("/config/" ++ idFile).toList := by simp
  refine ⟨?_, ?_, ?_⟩
  · intro hempty
    rw [hempty] at hfirst
    cases hfirst
  · intro hnull
    rw [hnull] at hfirst
    revert hfirst
    decide
  · have hpath : ∀ c ∈ "/config/".toList, isSpace c = false := forall_chars (by decide)
    intro c hc
    rw [String.toList_append, List.mem_append] at hc
    rcases hc with hc | hc
    · exact hpath c hc
    · exact h.2.2 c hc

theorem Entries.checked (e : Entries config nodeId node sr25519 ed25519 peers)
    (hmachine : Prepared machine config node.nodeIds.idFile) :
    checkSettings machine (nodeSettings config nodeId node sr25519 ed25519 peers) =
      .ok ⟨node.nodeIds.idFile, sr25519, ed25519⟩ := by
  have hsrs : ∀ text ∈ sr25519, Address text :=
    fun text htext => e.addresses text (List.mem_append_left _ htext)
  have heds : ∀ text ∈ ed25519, Address text :=
    fun text htext => e.addresses text (List.mem_append_right _ htext)
  have halias : shown config.name ++ "-" ++ toString nodeId ≠ "" := by simp
  have hfound : isMissing machine ("/config/" ++ node.nodeIds.idFile) = false := by
    unfold isMissing
    rw [fields_word (word_config e.idFile.2)]
    simp [hmachine.keyFile]
  have hlist : ",".intercalate sr25519 ≠ "" :=
    (word_join e.nonempty.1 fun text htext => (hsrs text htext).item).1
  unfold checkSettings nodeSettings
  simp only [if_neg halias, if_neg e.seed.2.1, if_neg e.idFile.2.1, hfound, if_neg hlist,
    if_neg (clean_ne_empty e.nonempty.1 hsrs), if_neg (clean_ne_empty e.nonempty.2.1 heds),
    fields_clean e.nonempty.1 hsrs, fields_clean e.nonempty.2.1 heds]
  rfl

theorem publicKeys_eq {config : ConfigObject} {idFile seed : String}
    (hmachine : Prepared machine config idFile) {ed25519 sr25519 edKey srKey : String}
    (hed : Prints machine .ed25519 seed ed25519 edKey)
    (hsr : Prints machine .sr25519 seed sr25519 srKey) :
    publicKeys machine seed = .ok ("0x" ++ edKey, "0x" ++ srKey) := by
  obtain ⟨edOutput, hedOutput, hedAddress, hedKey, -⟩ := hed
  obtain ⟨srOutput, hsrOutput, hsrAddress, hsrKey, -⟩ := hsr
  unfold publicKeys
  simp only [hmachine.subkey, inspected_shows _ hedOutput hedAddress,
    inspected_shows _ hsrOutput hsrAddress, inspected_shows _ hedOutput hedKey,
    inspected_shows _ hsrOutput hsrKey]
  rfl

/-- What a node starts with, whose keys, key file and peers are these. -/
def nodeChain (env : Variables) (nodeAlias keySeed nodeKeyFile edKey srKey : String) (spec : Spec)
    (peers : List String) : Started where
  spec := spec
  keys := [(keystore ++ "6772616e" ++ edKey, "\"" ++ keySeed ++ "\"\n"),
    (keystore ++ "61757261" ++ srKey, "\"" ++ keySeed ++ "\"\n")]
  arguments := ["--chain=/root/chain/archipelSpecRaw.json", "--base-path", "/root/chain/data",
    "--validator", "--prometheus-external", "--prometheus-port", "9616", "--port"] ++
    fields (if env.listenPort = "" then "30334" else env.listenPort) ++
    ["--node-key-file", "/config/" ++ nodeKeyFile] ++
    telemetryArguments env.telemetryUrl env.telemetryLoglevel ++
    ["--name", nodeAlias, "--reserved-only"] ++
    peers.flatMap fun peer => ["--reserved-nodes", peer]

/-- A node without variables of its own starts on the spec of the addresses in
config.json, with its own keys and key file, and reserves all peers. -/
theorem startChain_eq (e : Entries config nodeId node sr25519 ed25519 peers)
    (hmachine : Prepared machine config node.nodeIds.idFile) (hunset : Unset env nodeId)
    (hpos : 1 ≤ nodeId) (hle : nodeId ≤ config.nodesNumber)
    {edAddress srAddress edKey srKey : String}
    (hed : Prints machine .ed25519 node.seed edAddress edKey)
    (hsr : Prints machine .sr25519 node.seed srAddress srKey) :
    startChain machine env = .ok (nodeChain env (shown config.name ++ "-" ++ toString nodeId)
      node.seed node.nodeIds.idFile edKey srKey (genesis sr25519 ed25519) peers) := by
  have hparse : parseConfigFile machine.unzipped env =
      .ok (nodeSettings config nodeId node sr25519 ed25519 peers) := by
    rw [hmachine.unzipped, parseConfigFile_eq hunset hpos hle]
    exact e.setVariables_eq
  have hspec := buildSpec_eq e.nonempty.1 e.nonempty.2.1
    (fun text htext => e.addresses text (List.mem_append_left _ htext))
    (fun text htext => e.addresses text (List.mem_append_right _ htext))
  have hkeys := publicKeys_eq hmachine hed hsr
  obtain ⟨-, -, -, -, hedHex⟩ := hed
  obtain ⟨-, -, -, -, hsrHex⟩ := hsr
  have hfile : fields ("/config/" ++ node.nodeIds.idFile) =
      ["/config/" ++ node.nodeIds.idFile] := fields_word (word_config e.idFile.2)
  have hreserved : fields (reservedPeersParam
      (nodeSettings config nodeId node sr25519 ed25519 peers).reservedPeers) = "--reserved-only" ::
        peers.flatMap fun peer => ["--reserved-nodes", peer] :=
    fields_reservedPeersParam e.nonempty.2.2 e.items
  refine bind_ok.mpr ⟨_, hparse, bind_ok.mpr ⟨_, e.checked hmachine, ?_⟩⟩
  refine bind_ok.mpr ⟨_, hkeys, ?_⟩
  simp only [hmachine.template, without0x_hex hedHex, without0x_hex hsrHex]
  refine bind_ok.mpr ⟨_, hspec, ?_⟩
  unfold arguments
  rw [hfile, hreserved]
  simp only [nodeChain, nodeSettings, List.append_assoc, List.cons_append, List.nil_append]
  rfl

end Start

end Archipel.Deployer.StartChain
