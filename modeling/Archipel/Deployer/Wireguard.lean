import Archipel.ConfigFile
import Archipel.Shell

/-!
# The wireguard interface of a node (deployer/archipel/start-wireguard.sh)

The script takes what no variable sets from config.json and writes wg0.conf: the
interface of the node and one section for each other node. An exit is the text
that it prints. A variable that is not set is empty, and the entries of a list
are those between its commas.
-/

namespace Archipel.Deployer
open ConfigFile Shell

/-- The variables of the interface. -/
structure Wireguard where
  privateKey : String
  address : String
  listenPort : String
  peersExternalAddr : String
  peersPubAddr : String
  peersAllowedIp : String
  deriving DecidableEq

/-- The environment; a node id that is not set is `none`. -/
structure Variables extends Wireguard where
  configFile : String
  nodeId : Option ℕ

def checkResult (result name : String) : Except String Unit :=
  -- A result without words leaves the name as the first argument.
  let arguments := fields result ++ [name]
  if arguments[0]? = some "null" then
    throw ("Error! Config for '" ++ arguments.getD 1 "" ++ "' not found")
  else
    pure ()

/-- What `jq` prints of a path in config.json. -/
def printed : Option String → String
  | some text => shown text
  | none => "null"

/-- set variables from config file if they are not set -/
def retrieve (value : String) (found : Option String) (name : String) : Except String String := do
  if value = "" then
    let result := printed found
    checkResult result name
    pure result
  else
    pure value

def allowedIp (nodeId : ℕ) : String := "10.0.1." ++ toString nodeId ++ "/32"

def setVariables (config : ConfigObject) (nodeId : ℕ) (set : Wireguard) :
    Except String Wireguard := do
  let privateKey ← retrieve set.privateKey config.wireguardNodes[nodeId - 1]?
    "WIREGUARD_PRIVATE_KEY"
  let address := if set.address = "" then allowedIp nodeId else set.address
  let listenPort := if set.listenPort = "" then "51820" else set.listenPort
  let peersExternalAddr ← retrieve set.peersExternalAddr (some config.wireguardExternalAddrList)
    "WIREGUARD_PEERS_EXTERNAL_ADDR"
  let peersPubAddr ← retrieve set.peersPubAddr (some config.wireguardPeersPubAddrList)
    "WIREGUARD_PEERS_PUB_ADDR"
  let peersAllowedIp ← retrieve set.peersAllowedIp (some config.wireguardAllowedIpsList)
    "WIREGUARD_PEERS_ALLOWED_IP"
  pure {
    privateKey := privateKey
    address := address
    listenPort := listenPort
    peersExternalAddr := peersExternalAddr
    peersPubAddr := peersPubAddr
    peersAllowedIp := peersAllowedIp }

/-- parsing config file -/
def parseConfigFile (unzipped : Option ConfigObject) (env : Variables) :
    Except String Wireguard := do
  if env.configFile = "" then
    pure env.toWireguard
  else
    match env.nodeId, unzipped with
    | none, _ => throw "$NODE_ID must be set"
    | some _, none => throw "No config file found in /config/archipel-config.zip"
    | some nodeId, some config =>
      -- check if node id is valid
      if nodeId = 0 ∨ nodeId > config.nodesNumber then
        throw ("Invalid node number! Node number must be between 1 and " ++
          toString config.nodesNumber ++ "...")
      else
        setVariables config nodeId env.toWireguard

/-- `[ -z $value ]`; the test of several words fails. -/
def isUnset (value : String) : Bool := (fields value).isEmpty

/-- Checking env vars -/
def checkVariables (set : Wireguard) : Except String Unit :=
  if isUnset set.privateKey || isUnset set.address || isUnset set.listenPort ||
      isUnset set.peersExternalAddr || isUnset set.peersPubAddr || isUnset set.peersAllowedIp then
    throw ("ERROR: Please set env vars WIREGUARD_PRIVATE_KEY, WIREGUARD_ADDRESS, " ++
      "WIREGUARD_LISTEN_PORT, WIREGUARD_PEERS_PUB_ADDR, WIREGUARD_PEERS_ALLOWED_IP, " ++
      "WIREGUARD_PEERS_EXTERNAL_ADDR.")
  else
    pure ()

/-- `wc -w` of an array. -/
def arrayCount (entries : List String) : ℕ := wordCount (" ".intercalate entries)

/-- Check if length of peers arrays are the same -/
def checkLengths (pubAddr allowedIps externalAddr : List String) : Except String Unit :=
  if arrayCount pubAddr ≠ arrayCount allowedIps ∨ arrayCount pubAddr ≠ arrayCount externalAddr then
    throw ("ERROR: Please check WIREGUARD_PEERS_PUB_ADDR_SPACE, " ++
      "WIREGUARD_PEERS_ALLOWED_IP_SPACE, WIREGUARD_PEERS_EXTERNAL_ADDR_SPACE lists length.")
  else
    pure ()

def interfaceSection (address privateKey listenPort : String) : String :=
  "[Interface]\nAddress = " ++ address ++ "\nPrivateKey = " ++ privateKey ++
    "\nListenPort = " ++ listenPort ++ "\n\n"

def peerSection (publicKey allowedIPs endpoint : String) : String :=
  "[Peer]\nPublicKey = " ++ publicKey ++ "\nAllowedIPs = " ++ allowedIPs ++
    "\nEndpoint = " ++ endpoint ++ "\nPersistentKeepalive = 21\n\n"

/-- Add peers into config file -/
def addPeers (address : String) (pubAddr allowedIps externalAddr : List String) (conf : String) :
    String :=
  (List.range pubAddr.length).foldl (fun conf i =>
    -- Don't add server as peer
    if allowedIps.getD i "" ≠ address then
      conf ++ peerSection (pubAddr.getD i "") (allowedIps.getD i "") (externalAddr.getD i "")
    else
      conf) conf

/-- wg0.conf -/
def startWireguard (unzipped : Option ConfigObject) (env : Variables) :
    Except String String := do
  let set ← parseConfigFile unzipped env
  checkVariables set
  let pubAddr := readArray ',' set.peersPubAddr
  let allowedIps := readArray ',' set.peersAllowedIp
  let externalAddr := readArray ',' set.peersExternalAddr
  checkLengths pubAddr allowedIps externalAddr
  pure (addPeers set.address pubAddr allowedIps externalAddr
    (interfaceSection set.address set.privateKey set.listenPort))

/-! ### Texts that the script passes on -/

/-- A result of `jq` that is one word. -/
def Word (text : String) : Prop :=
  text ≠ "" ∧ text ≠ "null" ∧ ∀ c ∈ text.toList, isSpace c = false

/-- An entry of a list. -/
def Item (text : String) : Prop := Word text ∧ ',' ∉ text.toList

theorem isspace_isSpace {c : Char} (hc : isSpace c = false) : isspace c = false := by
  simp only [isSpace, spaces, isspace, List.mem_cons, List.not_mem_nil, or_false,
    decide_eq_false_iff_not] at hc ⊢
  omega

theorem fields_word {text : String} (h : Word text) : fields text = [text] := by
  refine words_single h.1 fun c hc => ?_
  have hspace := h.2.2 c hc
  have hne : c ≠ ' ' ∧ c ≠ '\t' ∧ c ≠ '\n' := by
    refine ⟨?_, ?_, ?_⟩
    all_goals
      rintro rfl
      revert hspace
      decide
  simp [hne]

theorem isUnset_word {text : String} (h : Word text) : isUnset text = false := by
  rw [isUnset, fields_word h]
  rfl

theorem checkResult_word {text name : String} (h : Word text) :
    checkResult text name = .ok () := by
  have hargument : (fields text ++ [name])[0]? ≠ some "null" := by
    rw [fields_word h]
    simpa using h.2.1
  unfold checkResult
  rw [if_neg hargument]
  rfl

theorem retrieve_word {text name : String} (h : Word (shown text)) :
    retrieve "" (some text) name = .ok (shown text) := by
  unfold retrieve
  rw [if_pos rfl]
  simp only [printed, checkResult_word h]
  rfl

section Join
variable {l : List String}

theorem comma_eq : "," = String.ofList [','] := rfl

theorem split_join (hne : l ≠ []) (hl : ∀ text ∈ l, Item text) :
    split (",".intercalate l) = l := by
  rw [comma_eq]
  exact Text.splitOn_intercalate hne fun text htext => (hl text htext).2

theorem readArray_join (hne : l ≠ []) (hl : ∀ text ∈ l, Item text) :
    readArray ',' (",".intercalate l) = l := by
  rw [comma_eq]
  refine readArray_intercalate hne ?_ (by decide)
  intro text htext
  obtain ⟨⟨hempty, -, hspace⟩, hcomma⟩ := hl text htext
  refine ⟨hempty, hcomma, fun hline => ?_⟩
  have hnot := hspace '\n' hline
  revert hnot
  decide

theorem arrayCount_items (hl : ∀ text ∈ l, Item text) : arrayCount l = l.length := by
  have hwords : words isspace (" ".intercalate l) = l := by
    rw [show " " = String.ofList [' '] from rfl]
    refine words_intercalate rfl (fun text htext => (hl text htext).1.1) ?_
    exact fun text htext c hc => isspace_isSpace ((hl text htext).1.2.2 c hc)
  rw [arrayCount, wordCount, hwords]

theorem word_join (hne : l ≠ []) (hl : ∀ text ∈ l, Item text) : Word (",".intercalate l) := by
  have hsplit := split_join hne hl
  refine ⟨?_, ?_, ?_⟩
  · intro hempty
    rw [hempty] at hsplit
    have hmem : "" ∈ l := by
      rw [← hsplit]
      decide
    exact (hl "" hmem).1.1 rfl
  · intro hnull
    rw [hnull] at hsplit
    have hmem : "null" ∈ l := by
      rw [← hsplit]
      decide
    exact (hl "null" hmem).1.2.1 rfl
  · intro c hc
    rw [comma_eq] at hc
    rcases Text.mem_intercalate hc with rfl | ⟨text, htext, hmem⟩
    · decide
    · exact (hl text htext).1.2.2 c hmem

theorem isUnset_join (hne : l ≠ []) (hl : ∀ text ∈ l, Item text) :
    isUnset (",".intercalate l) = false := isUnset_word (word_join hne hl)

end Join

theorem toString_unspaced {n : ℕ} : ∀ c ∈ (toString n).toList, isSpace c = false ∧ c ≠ ',' := by
  intro c hc
  have hdigit := Text.isDigit_of_mem_toString hc
  refine ⟨(digit_plain hdigit).1, ?_⟩
  rintro rfl
  revert hdigit
  decide

theorem toList_allowedIp (nodeId : ℕ) : (allowedIp nodeId).toList =
    "10.0.1.".toList ++ ((toString nodeId).toList ++ "/32".toList) := by
  simp [allowedIp, String.append_assoc]

theorem item_allowedIp (nodeId : ℕ) : Item (allowedIp nodeId) := by
  have htext := toList_allowedIp nodeId
  have hstart : ∀ c ∈ "10.0.1.".toList, isSpace c = false ∧ c ≠ ',' := by
    simp [isSpace, spaces]
  have hend : ∀ c ∈ "/32".toList, isSpace c = false ∧ c ≠ ',' := by
    simp [isSpace, spaces]
  have hchars : ∀ c ∈ (allowedIp nodeId).toList, isSpace c = false ∧ c ≠ ',' := by
    rw [htext]
    intro c hc
    rcases List.mem_append.mp hc with hmem | hmem
    · exact hstart c hmem
    · rcases List.mem_append.mp hmem with hmem | hmem
      · exact toString_unspaced c hmem
      · exact hend c hmem
  refine ⟨⟨?_, ?_, fun c hc => (hchars c hc).1⟩, fun hcomma => (hchars ',' hcomma).2 rfl⟩
  · intro hempty
    rw [hempty] at htext
    cases htext
  · intro hnull
    rw [hnull] at htext
    cases htext

theorem allowedIp_injective {nodeId nodeId' : ℕ} (h : allowedIp nodeId = allowedIp nodeId') :
    nodeId = nodeId' := by
  have htexts := congrArg String.toList h
  rw [toList_allowedIp, toList_allowedIp, List.append_cancel_left_eq,
    List.append_cancel_right_eq] at htexts
  exact Text.toString_inj (String.toList_inj.mp htexts)

/-! ### The sections -/

/-- The nodes other than this one, in order and counted from 0. -/
def others (nodesNumber nodeId : ℕ) : List ℕ :=
  (List.range nodesNumber).filter fun j => j + 1 ≠ nodeId

theorem length_others {nodesNumber nodeId : ℕ} (hpos : 1 ≤ nodeId) (hle : nodeId ≤ nodesNumber) :
    (others nodesNumber nodeId).length = nodesNumber - 1 := by
  have herase : others nodesNumber nodeId = (List.range nodesNumber).erase (nodeId - 1) := by
    rw [List.nodup_range.erase_eq_filter]
    refine List.filter_congr ?_
    intro j _
    rw [Bool.eq_iff_iff]
    simp only [ne_eq, decide_eq_true_eq, bne_iff_ne]
    omega
  have hmem : nodeId - 1 ∈ List.range nodesNumber := by
    rw [List.mem_range]
    omega
  rw [herase, List.length_erase_of_mem hmem, List.length_range]

theorem foldl_sections {p : ℕ → Prop} [DecidablePred p] (text : ℕ → String) (l : List ℕ)
    (conf : String) :
    l.foldl (fun conf i => if p i then conf ++ text i else conf) conf =
      conf ++ String.join ((l.filter fun i => p i).map text) := by
  induction l generalizing conf with
  | nil => simp
  | cons i l ih =>
    rw [List.foldl_cons, ih]
    by_cases hi : p i
    · simp [hi, String.append_assoc]
    · simp [hi]

/-- The sections of the other nodes follow the interface. -/
theorem addPeers_eq {nodesNumber nodeId : ℕ} {pubAddr externalAddr : List String}
    (hlength : pubAddr.length = nodesNumber) (conf : String) :
    addPeers (allowedIp nodeId) pubAddr
        ((List.range nodesNumber).map fun j => allowedIp (j + 1)) externalAddr conf =
      conf ++ String.join ((others nodesNumber nodeId).map fun j =>
        peerSection (pubAddr.getD j "") (allowedIp (j + 1)) (externalAddr.getD j "")) := by
  have hip : ∀ j ∈ List.range nodesNumber,
      ((List.range nodesNumber).map fun j => allowedIp (j + 1)).getD j "" =
        allowedIp (j + 1) := by
    intro j hj
    have hlt := List.mem_range.mp hj
    simp [List.getD, hlt]
  have hother : ∀ j, allowedIp (j + 1) ≠ allowedIp nodeId ↔ j + 1 ≠ nodeId := by
    intro j
    constructor
    · rintro hne rfl
      exact hne rfl
    · exact fun hne heq => hne (allowedIp_injective heq)
  unfold addPeers
  rw [hlength, foldl_sections (p := fun i =>
    ((List.range nodesNumber).map fun j => allowedIp (j + 1)).getD i "" ≠ allowedIp nodeId)]
  congr 2
  have hkept : (List.range nodesNumber).filter (fun i =>
      ((List.range nodesNumber).map fun j => allowedIp (j + 1)).getD i "" ≠ allowedIp nodeId) =
        others nodesNumber nodeId := by
    refine List.filter_congr ?_
    intro j hj
    rw [hip j hj]
    exact decide_eq_decide.mpr (hother j)
  rw [hkept]
  refine List.map_congr_left ?_
  intro j hj
  rw [hip j (List.mem_filter.mp hj).1]

section Start
variable {config : ConfigObject} {env : Variables} {nodeId : ℕ} {privateKey : String}
variable {pubAddr externalAddr : List String}

theorem setVariables_eq {nodeId : ℕ} (hkey : config.wireguardNodes[nodeId - 1]? = some privateKey)
    (hword : Word (shown privateKey)) (hpub : Word (shown config.wireguardPeersPubAddrList))
    (hexternal : Word (shown config.wireguardExternalAddrList))
    (hips : Word (shown config.wireguardAllowedIpsList)) :
    setVariables config nodeId ⟨"", "", "", "", "", ""⟩ = .ok {
      privateKey := shown privateKey
      address := allowedIp nodeId
      listenPort := "51820"
      peersExternalAddr := shown config.wireguardExternalAddrList
      peersPubAddr := shown config.wireguardPeersPubAddrList
      peersAllowedIp := shown config.wireguardAllowedIpsList } := by
  unfold setVariables
  simp only [hkey, retrieve_word hword, retrieve_word hpub, retrieve_word hexternal,
    retrieve_word hips, if_true]
  rfl

theorem parseConfigFile_eq (hfile : env.configFile ≠ "") (hnode : env.nodeId = some nodeId)
    (hpos : 1 ≤ nodeId) (hle : nodeId ≤ config.nodesNumber) :
    parseConfigFile (some config) env = setVariables config nodeId env.toWireguard := by
  have hvalid : ¬ (nodeId = 0 ∨ nodeId > config.nodesNumber) := by omega
  unfold parseConfigFile
  rw [if_neg hfile, hnode]
  exact if_neg hvalid

theorem startWireguard_ok {unzipped : Option ConfigObject} {set : Wireguard}
    (hparse : parseConfigFile unzipped env = .ok set) (hcheck : checkVariables set = .ok ())
    (hlengths : checkLengths (readArray ',' set.peersPubAddr) (readArray ',' set.peersAllowedIp)
      (readArray ',' set.peersExternalAddr) = .ok ()) :
    startWireguard unzipped env = .ok (addPeers set.address (readArray ',' set.peersPubAddr)
      (readArray ',' set.peersAllowedIp) (readArray ',' set.peersExternalAddr)
      (interfaceSection set.address set.privateKey set.listenPort)) := by
  refine bind_ok.mpr ⟨set, hparse, bind_ok.mpr ⟨(), hcheck, ?_⟩⟩
  exact bind_ok.mpr ⟨(), hlengths, rfl⟩

/-- A node without variables of its own writes its interface and the sections of
the other nodes. -/
theorem startWireguard_eq (hfile : env.configFile ≠ "") (hnode : env.nodeId = some nodeId)
    (hset : env.toWireguard = ⟨"", "", "", "", "", ""⟩) (hpos : 1 ≤ nodeId)
    (hle : nodeId ≤ config.nodesNumber)
    (hkey : config.wireguardNodes[nodeId - 1]? = some privateKey) (hword : Word (shown privateKey))
    (hpub : shown config.wireguardPeersPubAddrList = ",".intercalate pubAddr)
    (hexternal : shown config.wireguardExternalAddrList = ",".intercalate externalAddr)
    (hips : shown config.wireguardAllowedIpsList =
      ",".intercalate ((List.range config.nodesNumber).map fun j => allowedIp (j + 1)))
    (hpubItems : ∀ text ∈ pubAddr, Item text) (hexternalItems : ∀ text ∈ externalAddr, Item text)
    (hpubLength : pubAddr.length = config.nodesNumber)
    (hexternalLength : externalAddr.length = config.nodesNumber) :
    startWireguard (some config) env = .ok
      (interfaceSection (allowedIp nodeId) (shown privateKey) "51820" ++
        String.join ((others config.nodesNumber nodeId).map fun j =>
          peerSection (pubAddr.getD j "") (allowedIp (j + 1)) (externalAddr.getD j ""))) := by
  have hne : ∀ l : List String, l.length = config.nodesNumber → l ≠ [] := by
    rintro l hlength rfl
    rw [List.length_nil] at hlength
    omega
  have hipItems : ∀ text ∈ (List.range config.nodesNumber).map fun j => allowedIp (j + 1),
      Item text := by
    intro text htext
    obtain ⟨j, -, rfl⟩ := List.mem_map.mp htext
    exact item_allowedIp (j + 1)
  have hipNe := hne ((List.range config.nodesNumber).map fun j => allowedIp (j + 1)) (by simp)
  have hpubNe := hne pubAddr hpubLength
  have hexternalNe := hne externalAddr hexternalLength
  have hvariables := setVariables_eq hkey hword (hpub ▸ word_join hpubNe hpubItems)
    (hexternal ▸ word_join hexternalNe hexternalItems) (hips ▸ word_join hipNe hipItems)
  have hcounts : arrayCount pubAddr = config.nodesNumber ∧
      arrayCount externalAddr = config.nodesNumber ∧ arrayCount
        ((List.range config.nodesNumber).map fun j => allowedIp (j + 1)) = config.nodesNumber := by
    rw [arrayCount_items hpubItems, arrayCount_items hexternalItems, arrayCount_items hipItems]
    simp [hpubLength, hexternalLength]
  have hport : isUnset "51820" = false := by decide
  have hparse := parseConfigFile_eq hfile hnode hpos hle
  rw [hset, hvariables, hpub, hexternal, hips] at hparse
  have hcheck : checkVariables {
      privateKey := shown privateKey
      address := allowedIp nodeId
      listenPort := "51820"
      peersExternalAddr := ",".intercalate externalAddr
      peersPubAddr := ",".intercalate pubAddr
      peersAllowedIp := ",".intercalate
        ((List.range config.nodesNumber).map fun j => allowedIp (j + 1)) } = .ok () := by
    simp [checkVariables, isUnset_word hword, isUnset_word (item_allowedIp nodeId).1, hport,
      isUnset_join hpubNe hpubItems, isUnset_join hexternalNe hexternalItems,
      isUnset_join hipNe hipItems]
    rfl
  have hlengths : checkLengths pubAddr
      ((List.range config.nodesNumber).map fun j => allowedIp (j + 1)) externalAddr = .ok () := by
    simp [checkLengths, hcounts]
    rfl
  have hreads := readArray_join hpubNe hpubItems
  have hreads' := readArray_join hexternalNe hexternalItems
  have hreads'' := readArray_join hipNe hipItems
  rw [startWireguard_ok hparse hcheck (by rw [hreads, hreads', hreads'']; exact hlengths), hreads,
    hreads', hreads'', addPeers_eq hpubLength]

end Start

end Archipel.Deployer
