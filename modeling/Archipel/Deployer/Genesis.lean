import Archipel.Cli.Keyring
import Archipel.Deployer.StartChain

/-!
# One chain for all nodes

The CLI joins the addresses and the peers of the federation into lists, the
script of every node reads them back: all nodes build the same spec. Its
authorities are the addresses of the seeds in order, each node has the keys of
its own seed in the keystore, and reserves the peers at the ips of the wireguard
interfaces.
-/

namespace Archipel.Deployer
open Async Cli ConfigFile Shell StartChain

/-! ### What the CLI writes -/

/-- `subkey inspect` gave the second address of the key. -/
def Inspected (log : Log) (key : SubstrateKey) : Prop :=
  ∃ (result : String) (w : Unit),
    (⟨Call.execAsync (subkeyInspect key.seed), .ok result, w⟩ : Event api String Unit) ∈ log ∧
      addressOf result = some key.ed25519Address

/-- config.json has these keys and node ids, and a name without spaces. -/
structure Authorities (config : ConfigObject) (keys : List SubstrateKey) (nodeIds : List NodeIds)
    (log : Log) : Prop where
  unspaced : ∀ c ∈ config.name.toList, isSpace c = false
  length : keys.length = config.nodesNumber
  idFiles : nodeIds.map NodeIds.idFile =
    (List.range config.nodesNumber).map (nodeIdFile "archipel")
  peerIds : ∀ ids ∈ nodeIds, ∃ text, ids.peerId = base64Prefix text
  nodes : config.archipelNodes = keys.zipWith (fun key ids => ⟨key.seed, ids⟩) nodeIds
  sr25519 : config.archipelSr25519List = ",".intercalate (keys.map SubstrateKey.sr25519Address)
  ed25519 : config.archipelEd25519List = ",".intercalate (keys.map SubstrateKey.ed25519Address)
  reserved : config.archipelReservedPeersList = reservedPeers "30334" nodeIds
  generated : ∀ key ∈ keys, Generated log key ∧ Inspected log key

section Runs
variable {E : Env api String Unit} {x y : Unit × (Unit × Log)}

theorem inspected_generateSubstrateKey {key : SubstrateKey}
    (h : Runs (logged E) generateSubstrateKey x (.ok key) y) : Inspected y.2.2 key := by
  obtain ⟨subKeyResult, x₁, -, h⟩ := runs_bind h
  obtain ⟨seed, x₂, -, h⟩ := runs_bind h
  obtain ⟨sr, x₃, -, h⟩ := runs_bind h
  obtain ⟨subKeyResultEd, x₄, hinspect, h⟩ := runs_bind h
  have hlog := runs_prefix h
  obtain ⟨ed, x₅, hed, h⟩ := runs_bind h
  obtain ⟨rfl, -⟩ := runs_pure h
  have hmade := (runs_call hinspect).1.2
  have hmem : (⟨Call.execAsync (subkeyInspect seed), .ok subKeyResultEd, x₄.2.1⟩ :
      Event api String Unit) ∈ x₄.2.2 := by
    rw [hmade]
    exact List.mem_append_right _ (List.mem_singleton_self _)
  exact ⟨subKeyResultEd, _, hlog.mem hmem, matched_ok.mp (runs_ofExcept hed).1⟩

theorem generated_inspected {keysNumber : ℕ} {keys : List SubstrateKey}
    (h : Runs (logged E) (generateSubstrateKeys keysNumber) x (.ok keys) y) :
    ∀ key ∈ keys, Generated y.2.2 key ∧ Inspected y.2.2 key := by
  have hall : (∀ key ∈ keys, Generated y.2.2 key ∧ Inspected y.2.2 key) ∧ x.2.2 <+: y.2.2 := by
    refine runs_mapM (R := fun _ keys x y =>
      (∀ key ∈ keys, Generated y.2.2 key ∧ Inspected y.2.2 key) ∧ x.2.2 <+: y.2.2)
      (fun x => ⟨List.forall_mem_nil _, List.prefix_rfl⟩) ?_ h
    intro i key l keys x z y hkey hrest
    refine ⟨?_, ( runs_prefix hkey).trans hrest.2⟩
    obtain ⟨result, w, hmem, haddress⟩ := inspected_generateSubstrateKey hkey
    rw [List.forall_mem_cons]
    exact ⟨⟨generated_mono hrest.2 (generated_generateSubstrateKey hkey),
      result, w, hrest.2.mem hmem, haddress⟩, hrest.1⟩
  exact hall.1

theorem runs_peerIds {service : String} {nodesNumber : ℕ} {nodeIds : List NodeIds}
    (h : Runs (logged E) (generateNodeIds service nodesNumber) x (.ok nodeIds) y) :
    ∀ ids ∈ nodeIds, ∃ text, ids.peerId = base64Prefix text := by
  refine runs_mapM (R := fun _ nodeIds _ _ => ∀ ids ∈ nodeIds, ∃ text,
    ids.peerId = base64Prefix text) (fun _ => List.forall_mem_nil _) ?_ h
  intro i ids l nodeIds x z y hids hnodeIds
  obtain ⟨subKeyCommand, x₁, -, hids⟩ := runs_bind hids
  obtain ⟨rfl, -⟩ := runs_pure hids
  rw [List.forall_mem_cons]
  exact ⟨⟨subKeyCommand, rfl⟩, hnodeIds⟩

theorem generates_authorities {host : Host} {configData : ConfigData} {config : ConfigObject}
    {log : Log} (h : Generates host configData config log) :
    ∃ keys nodeIds, Authorities config keys nodeIds log := by
  obtain ⟨made, x, y, hrun, hlog, hmade⟩ := runs_constructed h.runs
  -- The run saves one object.
  have hone : made = config := by
    obtain ⟨-, found, -, events, hevents, -, hsaved⟩ := runs_generateConfig h.runs
    rw [List.nil_append] at hevents
    dsimp only at hevents hmade
    rw [hevents, hsaved] at hmade
    have hmem := h.saved
    rw [hevents, hsaved] at hmem
    rw [List.mem_singleton.mp hmade, List.mem_singleton.mp hmem]
  subst hone
  obtain ⟨publicIps, x₁, -, hrun⟩ := runs_bind hrun
  obtain ⟨name, x₂, -, hrun⟩ := runs_bind hrun
  obtain ⟨services, x₃, -, hrun⟩ := runs_bind hrun
  obtain ⟨wireguard, x₄, -, hrun⟩ := runs_bind hrun
  obtain ⟨archipel, x₅, harchipel, hrun⟩ := runs_bind hrun
  obtain ⟨rfl, rfl⟩ := runs_pure hrun
  obtain ⟨keys, x₆, hkeys, hnodes⟩ := runs_bind harchipel
  have hafter := runs_prefix hnodes
  obtain ⟨nodeIds, x₇, hnodeIds, hnodes⟩ := runs_bind hnodes
  obtain ⟨rfl, rfl⟩ := runs_pure hnodes
  have hdashed : ∀ c ∈ (String.ofList ((host.toLowerCase name).toList.map fun c =>
      if isSpace c then '-' else c)).toList, isSpace c = false := by
    intro c hc
    rw [String.toList_ofList, List.mem_map] at hc
    obtain ⟨d, -, rfl⟩ := hc
    by_cases hd : isSpace d = true
    · rw [if_pos hd]
      decide
    · rw [if_neg hd]
      simpa using hd
  refine ⟨keys, nodeIds, hdashed, (runs_generateSubstrateKeys hkeys).1,
    runs_generateNodeIds hnodeIds, runs_peerIds hnodeIds, rfl, rfl, rfl, rfl, fun key hkey => ?_⟩
  obtain ⟨hgenerated, result, w, hmem, haddress⟩ := generated_inspected hkeys key hkey
  have hgrow := hafter.trans hlog
  exact ⟨generated_mono hgrow hgenerated, result, w, hgrow.mem hmem, haddress⟩

end Runs

/-! ### The peers -/

def peerAddress (port : String) (index : ℕ) (peerId : String) : String :=
  "/ip4/10.0.1." ++ toString (index + 1) ++ "/tcp/" ++ port ++ "/p2p/" ++ peerId

theorem reservedPeers_join (port : String) (nodeIds : List NodeIds) :
    reservedPeers port nodeIds =
      ",".intercalate (nodeIds.mapIdx fun index ids => peerAddress port index ids.peerId) := by
  have hpeers : (nodeIds.mapIdx fun index ids =>
      "/ip4/10.0.1." ++ toString (index + 1) ++ "/tcp/" ++ port ++ "/p2p/" ++ ids.peerId ++ ",") =
        (nodeIds.mapIdx fun index ids => peerAddress port index ids.peerId).map
          fun entry => entry ++ String.ofList [','] := by
    apply List.ext_getElem
    · simp
    · intro index h h'
      simp only [List.getElem_mapIdx, List.getElem_map]
      rfl
  unfold reservedPeers
  rw [hpeers]
  exact Text.dropLast_separated ',' _

theorem peerAddress_chars (index : ℕ) (text : String) {c : Char}
    (hc : c ∈ (peerAddress "30334" index (base64Prefix text)).toList) :
    Plain c ∧ isSpace c = false ∧ c ≠ ',' := by
  have hconst : ∀ d ∈ "/ip4/10.0.1.".toList ++ "/tcp/".toList ++ "30334".toList ++ "/p2p/".toList,
      Plain d ∧ isSpace d = false ∧ d ≠ ',' := forall_chars (by decide)
  simp only [peerAddress, String.toList_append, List.mem_append] at hc hconst
  rcases hc with ((((hc | hc) | hc) | hc) | hc) | hc
  · exact hconst c (.inl (.inl (.inl hc)))
  · have hdigit := Text.isDigit_of_mem_toString hc
    exact isAlphanum_plain (by rw [Char.isAlphanum, hdigit, Bool.or_true])
  · exact hconst c (.inl (.inl (.inr hc)))
  · exact hconst c (.inl (.inr hc))
  · exact hconst c (.inr hc)
  · exact base64Prefix_plain c hc

theorem item_peerAddress (index : ℕ) (text : String) :
    Item (peerAddress "30334" index (base64Prefix text)) := by
  have hfirst : '/' ∈ (peerAddress "30334" index (base64Prefix text)).toList := by
    simp [peerAddress]
  refine ⟨⟨?_, ?_, fun c hc => (peerAddress_chars index text hc).2.1⟩,
    fun hcomma => (peerAddress_chars index text hcomma).2.2 rfl⟩
  · intro hempty
    rw [hempty] at hfirst
    cases hfirst
  · intro hnull
    rw [hnull] at hfirst
    revert hfirst
    decide

theorem word_nodeIdFile (index : ℕ) :
    shown (nodeIdFile "archipel" index) = nodeIdFile "archipel" index ∧
      Word (nodeIdFile "archipel" index) := by
  have hconst : ∀ d ∈ "archipel".toList ++ "-node-id-".toList,
      Plain d ∧ isSpace d = false := forall_chars (by decide)
  have hchars : ∀ c ∈ (nodeIdFile "archipel" index).toList, Plain c ∧ isSpace c = false := by
    intro c hc
    simp only [nodeIdFile, String.toList_append] at hc
    rcases List.mem_append.mp hc with hc | hc
    · exact hconst c hc
    · have hdigit := Text.isDigit_of_mem_toString hc
      have hplain := isAlphanum_plain (c := c) (by rw [Char.isAlphanum, hdigit, Bool.or_true])
      exact ⟨hplain.1, hplain.2.1⟩
  have hfirst : '-' ∈ (nodeIdFile "archipel" index).toList := by simp [nodeIdFile]
  refine ⟨shown_plain fun c hc => (hchars c hc).1, ?_, ?_, fun c hc => (hchars c hc).2⟩
  · intro hempty
    rw [hempty] at hfirst
    cases hfirst
  · intro hnull
    rw [hnull] at hfirst
    revert hfirst
    decide

/-! ### One spec -/

/-- In the containers `subkey` prints the address and the public key of a seed, the
same addresses as it printed to the CLI. -/
structure Subkey (inspect : Scheme → String → Option String)
    (address publicKey : Scheme → String → String) (log : Log) : Prop where
  seeds : ∀ key, Generated log key → key.seed ≠ "" ∧ (fields key.seed)[0]? ≠ some "null" ∧
    ∀ c ∈ key.seed.toList, Plain c
  prints : ∀ key, Generated log key → ∀ scheme, ∃ output,
    inspect scheme key.seed = some output ∧ Shows output "SS58" (address scheme key.seed) ∧
      Shows output "Public" ("0x" ++ publicKey scheme key.seed) ∧
      Address (publicKey scheme key.seed)
  sr25519 : ∀ key, Generated log key → key.sr25519Address = address .sr25519 key.seed
  ed25519 : ∀ key, Inspected log key → key.ed25519Address = address .ed25519 key.seed

section Federation
variable {config : ConfigObject} {keys : List SubstrateKey} {nodeIds : List NodeIds} {log : Log}
variable {inspect : Scheme → String → Option String}
variable {address publicKey : Scheme → String → String}

theorem Authorities.sizes (h : Authorities config keys nodeIds log) :
    nodeIds.length = config.nodesNumber ∧ config.archipelNodes.length = config.nodesNumber := by
  have hfiles := congrArg List.length h.idFiles
  simp only [List.length_map, List.length_range] at hfiles
  refine ⟨hfiles, ?_⟩
  rw [h.nodes, List.length_zipWith, h.length, hfiles, Nat.min_self]

/-- The addresses are those of the seeds, in the order of the nodes. -/
theorem Authorities.addresses (h : Authorities config keys nodeIds log)
    (hsubkey : Subkey inspect address publicKey log) (scheme : Scheme) :
    keys.map (fun key => match scheme with
      | .sr25519 => key.sr25519Address
      | .ed25519 => key.ed25519Address) =
      config.archipelNodes.map fun node => address scheme node.seed := by
  apply List.ext_getElem
  · rw [List.length_map, List.length_map, h.length, h.sizes.2]
  · intro index h₁ h₂
    simp only [h.nodes, List.getElem_map, List.getElem_zipWith]
    obtain ⟨hgenerated, hinspected⟩ := h.generated _ (List.getElem_mem (by simpa using h₁))
    cases scheme with
    | sr25519 => exact hsubkey.sr25519 _ hgenerated
    | ed25519 => exact hsubkey.ed25519 _ hinspected

theorem Authorities.node (h : Authorities config keys nodeIds log) (nodeId : ℕ)
    {node : ArchipelNode} (hnode : config.archipelNodes[nodeId - 1]? = some node) :
    ∃ key ∈ keys, node.seed = key.seed ∧
      node.nodeIds.idFile = nodeIdFile "archipel" (nodeId - 1) := by
  rw [h.nodes] at hnode
  obtain ⟨hlt, hget⟩ := List.getElem?_eq_some_iff.mp hnode
  rw [List.length_zipWith, lt_min_iff] at hlt
  rw [List.getElem_zipWith] at hget
  subst hget
  refine ⟨_, List.getElem_mem hlt.1, rfl, ?_⟩
  have hfile := congrArg (fun l => l[nodeId - 1]?) h.idFiles
  rw [List.getElem?_map, List.getElem?_map, List.getElem?_eq_getElem hlt.2,
    List.getElem?_range (by rw [← h.sizes.1]; exact hlt.2)] at hfile
  exact Option.some.inj hfile

/-- The peers of the nodes, at the ips of their wireguard interfaces. -/
def chainPeers (config : ConfigObject) : List String :=
  config.archipelNodes.mapIdx fun index node => peerAddress "30334" index node.nodeIds.peerId

theorem Authorities.peers (h : Authorities config keys nodeIds log) :
    config.archipelReservedPeersList = ",".intercalate (chainPeers config) ∧
      ∀ peer ∈ chainPeers config, Item peer ∧ shown peer = peer := by
  have hpeers : chainPeers config =
      nodeIds.mapIdx fun index ids => peerAddress "30334" index ids.peerId := by
    apply List.ext_getElem
    · simp [chainPeers, h.sizes]
    · intro index h₁ h₂
      simp only [chainPeers, h.nodes, List.getElem_mapIdx, List.getElem_zipWith]
  rw [h.reserved, reservedPeers_join, hpeers]
  refine ⟨rfl, fun peer hpeer => ?_⟩
  obtain ⟨index, hlt, rfl⟩ := List.mem_mapIdx.mp hpeer
  obtain ⟨text, htext⟩ := h.peerIds _ (List.getElem_mem hlt)
  rw [htext]
  exact ⟨item_peerAddress index text, shown_plain fun c hc => (peerAddress_chars index text hc).1⟩

theorem Authorities.entries (h : Authorities config keys nodeIds log)
    (hsubkey : Subkey inspect address publicKey log) (hempty : config.name ≠ "")
    (hnull : config.name ≠ "null") {nodeId : ℕ} {node : ArchipelNode}
    (hnode : config.archipelNodes[nodeId - 1]? = some node) :
    Entries config nodeId node (config.archipelNodes.map fun node => address .sr25519 node.seed)
      (config.archipelNodes.map fun node => address .ed25519 node.seed) (chainPeers config) := by
  have hshown : ∀ l : List String, (∀ text ∈ l, shown text = text) →
      shown (",".intercalate l) = ",".intercalate l := by
    intro l hl
    rw [shown_join id hl, List.map_id]
  have haddress : ∀ scheme, ∀ text ∈ config.archipelNodes.map fun node => address scheme node.seed,
      Address text := by
    intro scheme text htext
    obtain ⟨other, hother, rfl⟩ := List.mem_map.mp htext
    obtain ⟨index, hindex⟩ := List.mem_iff_getElem?.mp hother
    obtain ⟨key, hkey, hseed, -⟩ := h.node (index + 1) hindex
    obtain ⟨output, -, ⟨label, blank, -, -, -, haddress⟩, -⟩ :=
      hsubkey.prints key (h.generated key hkey).1 scheme
    rw [hseed]
    exact haddress
  have hplain : ∀ scheme, shown (",".intercalate
      (config.archipelNodes.map fun node => address scheme node.seed)) = ",".intercalate
        (config.archipelNodes.map fun node => address scheme node.seed) := fun scheme =>
    hshown _ fun text htext =>
      shown_plain fun c hc => (isAlphanum_plain ((haddress scheme text htext).2.2 c hc)).1
  have hne : config.archipelNodes ≠ [] := by
    intro hnil
    rw [hnil] at hnode
    cases hnode
  obtain ⟨key, hkey, hseed, hfile⟩ := h.node nodeId hnode
  obtain ⟨hseed', hfirst, hchars⟩ := hsubkey.seeds key (h.generated key hkey).1
  refine ⟨hnode, word_shown hempty hnull h.unspaced, ?_, ?_, ?_, ?_, ?_, ?_,
    fun peer hpeer => (h.peers.2 peer hpeer).1, ?_⟩
  · rw [hseed]
    exact ⟨shown_plain hchars, hseed', hfirst⟩
  · rw [hfile]
    exact word_nodeIdFile (nodeId - 1)
  · have hsr : keys.map SubstrateKey.sr25519Address = _ := h.addresses hsubkey .sr25519
    rw [h.sr25519, hsr]
    exact hplain .sr25519
  · have hed : keys.map SubstrateKey.ed25519Address = _ := h.addresses hsubkey .ed25519
    rw [h.ed25519, hed]
    exact hplain .ed25519
  · rw [h.peers.1]
    exact hshown _ fun peer hpeer => (h.peers.2 peer hpeer).2
  · intro text htext
    rcases List.mem_append.mp htext with hmem | hmem
    · exact haddress .sr25519 text hmem
    · exact haddress .ed25519 text hmem
  · simpa [chainPeers] using hne

end Federation

/-- All nodes of a generated federation that set no variables of their own build the
same spec, with the addresses of all seeds as the authorities. Each starts with the
keys of its own seed and its own key file, and reserves the peers of all nodes. -/
theorem nodes_build_one_chain (host : Host) {configData : ConfigData} {config : ConfigObject}
    {log : Log} (hgenerates : Generates host configData config log)
    (hempty : config.name ≠ "") (hnull : config.name ≠ "null")
    {inspect : Scheme → String → Option String} {address publicKey : Scheme → String → String}
    (hsubkey : Subkey inspect address publicKey log) :
    config.archipelNodes.length = config.nodesNumber ∧
    ∀ (nodeId : ℕ) (node : ArchipelNode), 1 ≤ nodeId →
      config.archipelNodes[nodeId - 1]? = some node →
      ∀ (machine : Machine) (env : StartChain.Variables), machine.inspect = inspect →
      Prepared machine config (nodeIdFile "archipel" (nodeId - 1)) → Unset env nodeId →
      startChain machine env = .ok (nodeChain env (shown config.name ++ "-" ++ toString nodeId)
        node.seed (nodeIdFile "archipel" (nodeId - 1)) (publicKey .ed25519 node.seed)
        (publicKey .sr25519 node.seed)
        (genesis (config.archipelNodes.map fun node => address .sr25519 node.seed)
          (config.archipelNodes.map fun node => address .ed25519 node.seed))
        (chainPeers config)) := by
  obtain ⟨keys, nodeIds, h⟩ := generates_authorities hgenerates
  refine ⟨h.sizes.2, fun nodeId node hpos hnode machine env hinspect hmachine hunset => ?_⟩
  obtain ⟨key, hkey, hseed, hfile⟩ := h.node nodeId hnode
  have hle : nodeId ≤ config.nodesNumber := by
    have hlt := (List.getElem?_eq_some_iff.mp hnode).1
    rw [h.sizes.2] at hlt
    omega
  have hprints : ∀ scheme, Prints machine scheme node.seed (address scheme node.seed)
      (publicKey scheme node.seed) := by
    intro scheme
    unfold Prints
    rw [hinspect, hseed]
    exact hsubkey.prints key (h.generated key hkey).1 scheme
  rw [← hfile] at hmachine ⊢
  exact startChain_eq (h.entries hsubkey hempty hnull hnode) hmachine hunset hpos hle
    (hprints .ed25519) (hprints .sr25519)

/-! ### Three operators and a noservice node -/

/-- The address has the number of the key, or is the one that the CLI read. -/
def plainAddress : Scheme → String → String
  | .sr25519, seed => String.ofList ('W' :: seed.toList.drop 5)
  | .ed25519, _ => "E"

def plainPublicKey (_ : Scheme) (seed : String) : String :=
  String.ofList ('a' :: seed.toList.drop 5)

def plainReport (scheme : Scheme) (seed : String) : String :=
  "Secret phrase is account:\n  Public key (hex): 0x" ++ plainPublicKey scheme seed ++
    "\n  SS58 Address:     " ++ plainAddress scheme seed

/-- What `subkey` prints of the seed. -/
def reported (seed : String) : Bool :=
  [Scheme.ed25519, .sr25519].all fun scheme =>
    decide (grep "SS58" (plainReport scheme seed) =
      ["  SS58 Address:     " ++ plainAddress scheme seed]) &&
    decide (grep "Public" (plainReport scheme seed) =
      ["  Public key (hex): 0x" ++ plainPublicKey scheme seed]) &&
    (plainAddress scheme seed).toList.all Char.isAlphanum &&
    (plainPublicKey scheme seed).toList.all Char.isAlphanum

/-- What an answer of `subkey` to the CLI has to be. -/
def agrees (event : Event Cli.api String Unit) : Bool :=
  match event with
  | ⟨.execAsync cmd, .ok result, _⟩ =>
    if cmd = subkeyGenerate then
      match seedOf result, addressOf result with
      | some seed, some wallet => decide (wallet = plainAddress .sr25519 seed) && reported seed &&
        decide (seed ≠ "" ∧ (fields seed)[0]? ≠ some "null") &&
          seed.toList.all fun c => decide (Plain c)
      | _, _ => true
    else
      decide (∀ other ∈ addressOf result, other = "E")
  | _ => true

theorem address_cons {text : String} {c : Char} {t : List Char} (htext : text.toList = c :: t)
    (hc : c ≠ 'n') (halnum : text.toList.all Char.isAlphanum = true) : Address text := by
  refine ⟨?_, ?_, List.all_eq_true.mp halnum⟩
  · rintro rfl
    cases htext
  · rintro rfl
    cases htext
    exact hc rfl

theorem reported_prints {seed : String} (h : reported seed = true) (scheme : Scheme) :
    Shows (plainReport scheme seed) "SS58" (plainAddress scheme seed) ∧
      Shows (plainReport scheme seed) "Public" ("0x" ++ plainPublicKey scheme seed) ∧
      Address (plainPublicKey scheme seed) := by
  have hscheme : scheme ∈ [Scheme.ed25519, .sr25519] := by cases scheme <;> decide
  have hall := List.all_eq_true.mp h scheme hscheme
  simp only [Bool.and_eq_true, decide_eq_true_eq] at hall
  obtain ⟨⟨⟨haddress, hpublic⟩, halnum⟩, hkey⟩ := hall
  have hkeyAddress : Address (plainPublicKey scheme seed) :=
    address_cons (c := 'a') (t := seed.toList.drop 5) (by simp [plainPublicKey]) (by decide) hkey
  refine ⟨⟨"  SS58 Address".toList, "     ".toList, haddress, by decide,
      forall_chars (by decide), ?_⟩,
    ⟨"  Public key (hex)".toList, " ".toList, ?_, by decide, forall_chars (by decide), ?_⟩,
    hkeyAddress⟩
  · cases scheme with
    | ed25519 => exact address_cons (c := 'E') (t := []) (by simp [plainAddress]) (by decide) halnum
    | sr25519 =>
      exact address_cons (c := 'W') (t := seed.toList.drop 5) (by simp [plainAddress]) (by decide)
        halnum
  · rw [hpublic]
    congr 1
  · refine address_cons (c := '0') (t := 'x' :: 'a' :: seed.toList.drop 5)
      (by simp [plainPublicKey]) (by decide) ?_
    rw [String.toList_append, List.all_append, hkey]
    rfl

theorem subkey_agrees {log : Log} (hall : ∀ event ∈ log, agrees event = true) :
    Subkey (fun scheme seed => some (plainReport scheme seed)) plainAddress plainPublicKey log := by
  have hkey : ∀ key, Generated log key → key.sr25519Address = plainAddress .sr25519 key.seed ∧
      reported key.seed = true ∧ key.seed ≠ "" ∧ (fields key.seed)[0]? ≠ some "null" ∧
      ∀ c ∈ key.seed.toList, Plain c := by
    rintro key ⟨result, w, hmem, hseed, hwallet⟩
    have h := hall _ hmem
    simp only [agrees, if_true, hseed, hwallet, Bool.and_eq_true, decide_eq_true_eq] at h
    exact ⟨h.1.1.1, h.1.1.2, h.1.2.1, h.1.2.2, forall_chars h.2⟩
  refine ⟨fun key h => (hkey key h).2.2, fun key h scheme => ?_, fun key h => (hkey key h).1, ?_⟩
  · exact ⟨_, rfl, reported_prints (hkey key h).2.1 scheme⟩
  · rintro key ⟨result, w, hmem, haddress⟩
    have h := hall _ hmem
    have hother : subkeyInspect key.seed ≠ subkeyGenerate := quiet_subkeyInspect key.seed
    simp only [agrees, if_neg hother, decide_eq_true_eq] at h
    exact h _ haddress

/-- The archive and the key files are there. -/
def plainMachine (config : ConfigObject) : Machine where
  unzipped := some config
  isFile _ := true
  inspect scheme seed := some (plainReport scheme seed)

def nodeEnvironment (nodeId : ℕ) : StartChain.Variables :=
  ⟨⟨"", "", "", "", "", ""⟩, "true", some nodeId, "", "", ""⟩

theorem nodes_build_one_chain_plain : ∃ config log, Generates plainHost plainRoles config log ∧
    ∃ node : ArchipelNode, config.archipelNodes[1]? = some node ∧
      startChain (plainMachine config) (nodeEnvironment 2) =
        .ok (nodeChain (nodeEnvironment 2) "archipel-2" node.seed (nodeIdFile "archipel" 1)
          (plainPublicKey .ed25519 node.seed) (plainPublicKey .sr25519 node.seed)
          (genesis (config.archipelNodes.map fun node => plainAddress .sr25519 node.seed)
            (config.archipelNodes.map fun node => plainAddress .ed25519 node.seed))
          (chainPeers config)) := by
  obtain ⟨config, log, hgenerates, hcheck⟩ := plain_plays (fun log => log.all agrees &&
    (log.filterMap saved).all fun config => decide (config.name = "archipel" ∧
      config.nodesNumber = 4)) (by decide +kernel)
  simp only [Bool.and_eq_true, List.all_eq_true, decide_eq_true_eq] at hcheck
  obtain ⟨hall, hsaved⟩ := hcheck
  obtain ⟨hconfig, hnumber⟩ := hsaved config hgenerates.saved
  obtain ⟨hlength, hstarts⟩ := nodes_build_one_chain plainHost hgenerates (by rw [hconfig]; decide)
    (by rw [hconfig]; decide) (subkey_agrees hall)
  rw [hnumber] at hlength
  have hnode : config.archipelNodes[1]? = some config.archipelNodes[1] :=
    List.getElem?_eq_getElem (by omega)
  have hstart := hstarts 2 _ (by decide) hnode (plainMachine config) (nodeEnvironment 2) rfl
    ⟨rfl, rfl, rfl, rfl⟩ ⟨by decide, rfl, rfl⟩
  have halias : shown config.name ++ "-" ++ toString 2 = "archipel-2" := by
    rw [hconfig]
    decide
  rw [halias] at hstart
  exact ⟨config, log, hgenerates, _, hnode, hstart⟩

end Archipel.Deployer
