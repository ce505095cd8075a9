import Archipel.Cli.Federation
import Archipel.Deployer.Wireguard

/-!
# The peers of every node

The CLI draws one key pair for each address and joins the public keys, the
addresses and the ips of the federation in the same order. The script of a node
reads them back at their positions: its interface has the private key and the ip
of the node, and one section follows for each other node. A port is written as
`jq` prints it without its double quotes.
-/

namespace Archipel.Deployer
open Async Cli ConfigFile Shell

/-- The log of a run that draws these pairs, each public key from its private key. -/
inductive Draws : List WireguardKey → Log → Prop where
  | nil : Draws [] []
  | cons {key : WireguardKey} {keys : List WireguardKey} {genKeyCmd publicKeyCmd : String}
      {made : Log} (hprivate : key.privateKey = base64Prefix genKeyCmd)
      (hpublic : key.publicKey = base64Prefix publicKeyCmd) (hrest : Draws keys made) :
      Draws (key :: keys) (⟨.execAsync wgGenkey, .ok genKeyCmd, ()⟩ ::
        ⟨.execAsync (wgPubkey key.privateKey), .ok publicKeyCmd, ()⟩ :: made)

/-- Both keys have the length of a wireguard key. -/
def Pair (key : WireguardKey) : Prop := key.privateKey.length = 44 ∧ key.publicKey.length = 44

/-- The port of a node, counted from 0. -/
def wireguardPort (wireguardPortsList : Option (List String)) (j : ℕ) : String :=
  match wireguardPortsList.bind fun ports => ports[j]? with
  | some port => if port = "" then "51820" else port
  | none => "51820"

/-- The file of a node with these key pairs and endpoints. -/
def wg0Conf (keys : List WireguardKey) (endpoint : ℕ → String) (nodesNumber nodeId : ℕ) : String :=
  interfaceSection (allowedIp nodeId)
      ((keys.map WireguardKey.privateKey).getD (nodeId - 1) "") "51820" ++
    String.join ((others nodesNumber nodeId).map fun j =>
      peerSection ((keys.map WireguardKey.publicKey).getD j "") (allowedIp (j + 1)) (endpoint j))

/-- The endpoint of a node, counted from 0, with its port as `write` gives it. -/
def endpoint (write : String → String) (addresses : List String) (ports : Option (List String))
    (j : ℕ) : String :=
  addresses.getD j "" ++ ":" ++ write (wireguardPort ports j)

/-- The object has the wireguard configuration of a federation of this size. -/
structure Carries (config : ConfigObject) (wireguard : WireguardConfig) (nodesNumber : ℕ) :
    Prop where
  externalAddr : config.wireguardExternalAddrList = wireguard.wireguardExternalAddrList
  pubAddr : config.wireguardPeersPubAddrList = wireguard.wireguardPeersPubAddrList
  nodes : config.wireguardNodes = wireguard.wireguardNodes
  allowedIps : config.wireguardAllowedIpsList = wireguard.wireguardAllowedIpsList
  nodesNumber : config.nodesNumber = nodesNumber

/-- No accepted address has a comma, white space or a character that `jq` escapes. -/
def AcceptsPlain (host : Host) : Prop :=
  ∀ element, (host.isIP element || host.isValidDomain element) = true →
    ∀ c ∈ element.toList, Plain c ∧ isSpace c = false ∧ c ≠ ','

/-- A text without commas and white space. -/
def Unspaced (text : String) : Prop := ∀ c ∈ text.toList, isSpace c = false ∧ c ≠ ','

/-! ### The drawn pairs -/

theorem isAlphanum_plain {c : Char} (hc : c.isAlphanum = true) :
    Plain c ∧ isSpace c = false ∧ c ≠ ',' := by
  have hrange : 48 ≤ c.toNat ∧ c.toNat ≤ 122 ∧ c.toNat ≠ 92 := by
    have hranges : (decide (c.val ≥ 'A'.val ∧ c.val ≤ 'Z'.val) ||
        (decide (c.val ≥ 'a'.val) && decide (c.val ≤ 'z'.val)) ||
          (decide (c.val ≥ '0'.val) && decide (c.val ≤ '9'.val))) = true := hc
    have hval : c.val.toNat = c.toNat := rfl
    simp only [Bool.or_eq_true, Bool.and_eq_true, decide_eq_true_eq, ge_iff_le,
      UInt32.le_iff_toNat_le, hval] at hranges
    have hletters : ('A'.val.toNat = 65 ∧ 'Z'.val.toNat = 90) ∧
        ('a'.val.toNat = 97 ∧ 'z'.val.toNat = 122) ∧
          '0'.val.toNat = 48 ∧ '9'.val.toNat = 57 := by decide
    omega
  refine ⟨⟨?_, ?_, by omega, by omega⟩, ?_, ?_⟩
  · rintro rfl
    exact absurd hrange (by decide)
  · rintro rfl
    exact absurd hrange (by decide)
  · simp only [isSpace, spaces, List.mem_cons, List.not_mem_nil, or_false,
      decide_eq_false_iff_not]
    omega
  · rintro rfl
    exact absurd hrange (by decide)

theorem base64Prefix_plain {result : String} :
    ∀ c ∈ (base64Prefix result).toList, Plain c ∧ isSpace c = false ∧ c ≠ ',' := by
  intro c hc
  rw [base64Prefix, String.toList_ofList] at hc
  have hbase := List.mem_takeWhile_imp hc
  simp only [Bool.or_eq_true, beq_iff_eq] at hbase
  rcases hbase with ((halphanum | rfl) | rfl) | rfl
  · exact isAlphanum_plain halphanum
  all_goals decide

theorem draws_plain {keys : List WireguardKey} {made : Log} (h : Draws keys made) :
    ∀ key ∈ keys,
      (∀ c ∈ key.privateKey.toList, Plain c ∧ isSpace c = false ∧ c ≠ ',') ∧
      ∀ c ∈ key.publicKey.toList, Plain c ∧ isSpace c = false ∧ c ≠ ',' := by
  induction h with
  | nil => simp
  | cons hprivate hpublic hrest ih =>
    intro key hkey
    rcases List.mem_cons.mp hkey with rfl | hmem
    · rw [hprivate, hpublic]
      exact ⟨base64Prefix_plain, base64Prefix_plain⟩
    · exact ih key hmem

section Runs
variable {E : Env api String Unit} {x y : Unit × (Unit × Log)}

theorem runs_generateWireguardKey {result : Option WireguardKey}
    (h : Runs (logged E) generateWireguardKey x (.ok result) y) {key : WireguardKey}
    (hkey : result = some key) :
    Pair key ∧ ∀ keys made, Draws keys made → ∃ drawn,
      y.2.2 = x.2.2 ++ drawn ∧ Draws (key :: keys) (drawn ++ made) := by
  obtain ⟨genKeyCmd, x₁, hgenkey, h⟩ := runs_bind h
  obtain ⟨publicKeyCmd, x₂, hpubkey, h⟩ := runs_bind h
  obtain ⟨⟨-, hlog⟩, -⟩ := runs_call hgenkey
  obtain ⟨⟨-, hlog'⟩, -⟩ := runs_call hpubkey
  dsimp only at h
  split at h
  · next hlength =>
    obtain ⟨rfl, rfl⟩ := runs_pure h
    cases hkey
    refine ⟨hlength, fun keys made hdraws => ?_⟩
    refine ⟨_, by rw [hlog', hlog, List.append_assoc], ?_⟩
    exact .cons rfl rfl hdraws
  · obtain ⟨rfl, -⟩ := runs_pure h
    cases hkey

/-- No pair was left out. -/
theorem map_some_filterMap {α : Type} {l : List (Option α)}
    (h : l.length ≤ (l.filterMap id).length) : l = (l.filterMap id).map some := by
  induction l with
  | nil => rfl
  | cons o l ih =>
    have hle := List.length_filterMap_le id l
    cases o with
    | none =>
      rw [List.filterMap_cons_none rfl, List.length_cons] at h
      omega
    | some a =>
      rw [List.filterMap_cons_some (f := id) rfl, List.length_cons, List.length_cons] at h
      rw [List.filterMap_cons_some (f := id) rfl, List.map_cons, ← ih (by omega)]

theorem runs_generateWireguardKeys {keysNumber : ℕ} {keys : List WireguardKey}
    (h : Runs (logged E) (generateWireguardKeys keysNumber) x (.ok keys) y)
    (hlength : keysNumber ≤ keys.length) :
    keys.length = keysNumber ∧ (∀ key ∈ keys, Pair key) ∧
      ∃ made, y.2.2 = x.2.2 ++ made ∧ Draws keys made := by
  obtain ⟨results, x₁, hresults, h⟩ := runs_bind h
  obtain ⟨rfl, rfl⟩ := runs_pure h
  have hrun : results.length = (List.range keysNumber).length ∧
      ∀ keys : List WireguardKey, results = keys.map some → (∀ key ∈ keys, Pair key) ∧
        ∃ made, y.2.2 = x.2.2 ++ made ∧ Draws keys made := by
    refine runs_mapM (R := fun l results x y => results.length = l.length ∧
      ∀ keys : List WireguardKey, results = keys.map some → (∀ key ∈ keys, Pair key) ∧
        ∃ made, y.2.2 = x.2.2 ++ made ∧ Draws keys made) ?_ ?_ hresults
    · refine fun x => ⟨rfl, fun keys hkeys => ?_⟩
      rw [List.map_eq_nil_iff.mp hkeys.symm]
      exact ⟨by simp, [], by simp, .nil⟩
    · intro i result l results x z y hresult hrest
      refine ⟨by simp [hrest.1], fun keys hkeys => ?_⟩
      cases keys with
      | nil => cases hkeys
      | cons key keys =>
        rw [List.map_cons, List.cons.injEq] at hkeys
        obtain ⟨hpair, hdraws⟩ := runs_generateWireguardKey hresult hkeys.1
        obtain ⟨hpairs, made, hmade, hmadeDraws⟩ := hrest.2 keys hkeys.2
        obtain ⟨drawn, hdrawn, hall⟩ := hdraws keys made hmadeDraws
        refine ⟨?_, drawn ++ made, by rw [hmade, hdrawn, List.append_assoc], hall⟩
        intro other hother
        rcases List.mem_cons.mp hother with rfl | hmem
        · exact hpair
        · exact hpairs other hmem
  have hle := List.length_filterMap_le id results
  rw [List.length_range] at hrun
  have hkept := map_some_filterMap (l := results) (by omega)
  obtain ⟨hpairs, hdraws⟩ := hrun.2 _ hkept
  exact ⟨by omega, hpairs, hdraws⟩

theorem runs_generateWireguardConfig {addresses : List String} {ports : Option (List String)}
    {wireguard : WireguardConfig}
    (h : Runs (logged E) (generateWireguardConfig addresses ports) x (.ok wireguard) y) :
    ∃ keys made, y.2.2 = x.2.2 ++ made ∧ Draws keys made ∧ keys.length = addresses.length ∧
      (∀ key ∈ keys, Pair key) ∧ wireguard = {
        wireguardExternalAddrList := ",".intercalate (addresses.mapIdx (externalAddr ports))
        wireguardPeersPubAddrList := ",".intercalate (keys.map WireguardKey.publicKey)
        wireguardNodes := keys.map WireguardKey.privateKey
        wireguardAllowedIpsList := ",".intercalate
          ((List.range addresses.length).map fun i => allowedIp (i + 1)) } := by
  obtain ⟨keys, x₁, hkeys, h⟩ := runs_bind h
  obtain ⟨nodes, x₂, hproperties, h⟩ := runs_bind h
  obtain ⟨rfl, rfl⟩ := runs_pure h
  obtain ⟨hnodes, rfl⟩ := runs_ofExcept hproperties
  have hread := mapM_ok hnodes
  have hlength := hread.length_eq
  rw [List.length_range] at hlength
  have hnode : ∀ i < addresses.length, ∃ key, keys[i]? = some key ∧
      nodes[i]? = some key.privateKey := by
    intro i hi
    have hi' : i < nodes.length := by omega
    obtain ⟨j, hj, hkey⟩ := forall₂_getElem? hread (List.getElem?_eq_getElem hi')
    rw [List.getElem?_range hi, Option.some.injEq] at hj
    subst hj
    obtain ⟨key, hproperty, hpure⟩ := bind_ok.mp hkey
    have hprivateKey : key.privateKey = nodes[i] := Except.ok.inj hpure
    exact ⟨key, property_ok.mp hproperty, by rw [hprivateKey, List.getElem?_eq_getElem hi']⟩
  have hle : addresses.length ≤ keys.length := by
    by_contra hshort
    obtain ⟨key, hkey, -⟩ := hnode keys.length (by omega)
    rw [List.getElem?_eq_none (Nat.le_refl _)] at hkey
    cases hkey
  obtain ⟨hcount, hpairs, made, hmade, hdraws⟩ := runs_generateWireguardKeys hkeys hle
  have hprivate : nodes = keys.map WireguardKey.privateKey := by
    apply List.ext_getElem?
    intro i
    by_cases hi : i < addresses.length
    · obtain ⟨key, hkey, hprivateKey⟩ := hnode i hi
      rw [hprivateKey, List.getElem?_map, hkey, Option.map_some]
    · rw [List.getElem?_eq_none (by omega), List.getElem?_eq_none (by simp; omega)]
  subst hprivate
  exact ⟨keys, made, hmade, hdraws, hcount, hpairs, rfl⟩

/-- `generate` writes the wireguard configuration into config.json. -/
theorem carries_constructConfig {host : Host} {configData : ConfigData} {config : ConfigObject}
    (h : Runs (logged E) (constructConfig host configData) x (.ok config) y) :
    ∃ wireguard z z', Runs (logged E) (generateWireguardConfig (ips configData)
        ((configData.wireguardPorts.filter fun ports => ports != "").map split)) z
          (.ok wireguard) z' ∧ Carries config wireguard (ips configData).length := by
  obtain ⟨publicIps, x₁, hips, h⟩ := runs_bind h
  obtain ⟨name, x₂, hname, h⟩ := runs_bind h
  obtain ⟨services, x₃, hservices, h⟩ := runs_bind h
  obtain ⟨wireguard, x₄, hwireguard, h⟩ := runs_bind h
  obtain ⟨archipel, x₅, harchipel, h⟩ := runs_bind h
  obtain ⟨rfl, rfl⟩ := runs_pure h
  obtain ⟨hproperty, -⟩ := runs_ofExcept hips
  have hsplit : ips configData = split publicIps := by
    rw [ips, property_ok.mp hproperty]
    rfl
  rw [hsplit]
  exact ⟨wireguard, x₃, x₄, hwireguard, rfl, rfl, rfl, rfl, rfl⟩

end Runs

/-! ### The texts of the lists -/

theorem externalAddr_eq (ports : Option (List String)) (j : ℕ) (element : String) :
    externalAddr ports j element = element ++ ":" ++ wireguardPort ports j := by
  unfold externalAddr wireguardPort
  cases ports.bind fun list => list[j]? with
  | none =>
    rw [String.append_assoc]
    rfl
  | some port =>
    by_cases hport : port = ""
    · simp only [hport, ne_eq, not_true, if_false, if_true]
      rw [String.append_assoc]
      rfl
    · simp only [hport, ne_eq, not_false_eq_true, if_true, if_false]

theorem unspaced_wireguardPort {ports : Option (List String)}
    (hports : ∀ list ∈ ports, ∀ port ∈ list, Unspaced port) (j : ℕ) :
    Unspaced (wireguardPort ports j) := by
  have hdefault : Unspaced "51820" := by
    simp [Unspaced, isSpace, spaces]
  unfold wireguardPort
  cases hport : ports.bind fun list => list[j]? with
  | none => exact hdefault
  | some port =>
    obtain ⟨list, hlist, hentry⟩ := Option.bind_eq_some_iff.mp hport
    dsimp only
    split
    · exact hdefault
    · exact hports list hlist port (List.mem_of_getElem? hentry)

theorem unspaced_shown {text : String} (h : Unspaced text) : Unspaced (shown text) := by
  intro c hc
  rcases mem_shown hc with hmem | rfl | halphanum
  · exact h c hmem
  · decide
  · exact (isAlphanum_plain halphanum).2

/-- `jq` shows a text without spaces as a word. -/
theorem word_shown {text : String} (hempty : text ≠ "") (hnull : text ≠ "null")
    (hspace : ∀ c ∈ text.toList, isSpace c = false) : Word (shown text) := by
  have hchars : ∀ c ∈ (shown text).toList, isSpace c = false := by
    intro c hc
    rcases mem_shown hc with hmem | rfl | halphanum
    · exact hspace c hmem
    · decide
    · exact (isAlphanum_plain halphanum).2.1
  by_cases hplain : ∀ c ∈ text.toList, Plain c
  · rw [shown_plain hplain] at hchars ⊢
    exact ⟨hempty, hnull, hchars⟩
  · obtain ⟨c, hc, hescaped⟩ : ∃ c ∈ text.toList, ¬ Plain c := by simpa using hplain
    have hback : '\\' ∈ (shown text).toList := by
      rw [toList_shown]
      exact List.mem_filter.mpr
        ⟨List.mem_flatMap.mpr ⟨c, hc, backslash_jqPoint hescaped⟩, by decide⟩
    refine ⟨?_, ?_, hchars⟩
    · intro htext
      rw [htext] at hback
      cases hback
    · intro htext
      rw [htext] at hback
      revert hback
      decide

theorem item_endpoint {element port : String} (helement : Unspaced element)
    (hport : Unspaced port) : Item (element ++ ":" ++ port) := by
  have htext : (element ++ ":" ++ port).toList = element.toList ++ ':' :: port.toList := by
    simp
  have hcolon : ':' ∈ (element ++ ":" ++ port).toList := by simp
  have hchars : Unspaced (element ++ ":" ++ port) := by
    unfold Unspaced
    rw [htext]
    intro c hc
    rcases List.mem_append.mp hc with hmem | hmem
    · exact helement c hmem
    · rcases List.mem_cons.mp hmem with rfl | hmem
      · decide
      · exact hport c hmem
  refine ⟨⟨?_, ?_, fun c hc => (hchars c hc).1⟩, fun hcomma => (hchars ',' hcomma).2 rfl⟩
  · intro hempty
    rw [hempty] at hcolon
    cases hcolon
  · intro hnull
    rw [hnull] at hcolon
    revert hcolon
    decide

theorem shown_allowedIp (nodeId : ℕ) : shown (allowedIp nodeId) = allowedIp nodeId := by
  have hstart : ∀ c ∈ "10.0.1.".toList, Plain c := by simp [Plain]
  have hend : ∀ c ∈ "/32".toList, Plain c := by simp [Plain]
  refine shown_plain fun c hc => ?_
  rw [toList_allowedIp] at hc
  rcases List.mem_append.mp hc with hmem | hmem
  · exact hstart c hmem
  · rcases List.mem_append.mp hmem with hmem | hmem
    · refine (isAlphanum_plain ?_).1
      rw [Char.isAlphanum, Text.isDigit_of_mem_toString hmem, Bool.or_true]
    · exact hend c hmem

theorem item_key {text : String} (hlength : text.length = 44)
    (hplain : ∀ c ∈ text.toList, Plain c ∧ isSpace c = false ∧ c ≠ ',') :
    Item text := by
  refine ⟨⟨?_, ?_, fun c hc => (hplain c hc).2.1⟩, fun hcomma => (hplain ',' hcomma).2.2 rfl⟩
  · rintro rfl
    cases hlength
  · rintro rfl
    cases hlength

theorem shown_join {l : List String} (f : String → String) (h : ∀ text ∈ l, shown text = f text) :
    shown (",".intercalate l) = ",".intercalate (l.map f) := by
  have hcomma : shown "," = "," := by decide
  rw [shown_intercalate, hcomma, List.map_congr_left h]

/-! ### Every node lists exactly its peers -/

section Lists
variable {addresses : List String} {ports : Option (List String)} {keys : List WireguardKey}

theorem shown_externalAddr
    (haddresses : ∀ address ∈ addresses, ∀ c ∈ address.toList,
      Plain c ∧ isSpace c = false ∧ c ≠ ',') :
    (addresses.mapIdx (externalAddr ports)).map shown =
      (List.range addresses.length).map (endpoint shown addresses ports) := by
  apply List.ext_getElem
  · simp
  · intro j h h'
    have hj : j < addresses.length := by simpa using h
    have hplain : shown addresses[j] = addresses[j] :=
      shown_plain fun c hc => (haddresses _ (List.getElem_mem hj) c hc).1
    have hcolon : shown ":" = ":" := by decide
    have haddress : addresses.getD j "" = addresses[j] := by simp [List.getD, hj]
    simp only [List.getElem_map, List.getElem_mapIdx, List.getElem_range, externalAddr_eq,
      shown_append, hplain, hcolon, endpoint, haddress]

theorem startWireguard_carries (hcount : keys.length = addresses.length)
    (hpairs : ∀ key ∈ keys, Pair key)
    (hplain : ∀ key ∈ keys,
      (∀ c ∈ key.privateKey.toList, Plain c ∧ isSpace c = false ∧ c ≠ ',') ∧
      ∀ c ∈ key.publicKey.toList, Plain c ∧ isSpace c = false ∧ c ≠ ',')
    (haddresses : ∀ address ∈ addresses, ∀ c ∈ address.toList,
      Plain c ∧ isSpace c = false ∧ c ≠ ',')
    (hports : ∀ list ∈ ports, ∀ port ∈ list, Unspaced port) {config : ConfigObject}
    (hcarries : Carries config {
      wireguardExternalAddrList := ",".intercalate (addresses.mapIdx (externalAddr ports))
      wireguardPeersPubAddrList := ",".intercalate (keys.map WireguardKey.publicKey)
      wireguardNodes := keys.map WireguardKey.privateKey
      wireguardAllowedIpsList := ",".intercalate
        ((List.range addresses.length).map fun i => allowedIp (i + 1)) } addresses.length)
    (env : Variables) {nodeId : ℕ} (hfile : env.configFile ≠ "") (hnode : env.nodeId = some nodeId)
    (hset : env.toWireguard = ⟨"", "", "", "", "", ""⟩) (hpos : 1 ≤ nodeId)
    (hle : nodeId ≤ addresses.length) :
    startWireguard (some config) env = .ok
      (wg0Conf keys (endpoint shown addresses ports) addresses.length nodeId) := by
  obtain ⟨hexternal, hpub, hnodes, hips, hsize⟩ := hcarries
  have hindex : nodeId - 1 < keys.length := by omega
  have hmem := List.getElem_mem hindex
  have hprivate : shown keys[nodeId - 1].privateKey = keys[nodeId - 1].privateKey :=
    shown_plain fun c hc => ((hplain _ hmem).1 c hc).1
  have hkey : config.wireguardNodes[nodeId - 1]? = some keys[nodeId - 1].privateKey := by
    rw [hnodes, List.getElem?_map, List.getElem?_eq_getElem hindex, Option.map_some]
  have hword : Word (shown keys[nodeId - 1].privateKey) := by
    rw [hprivate]
    exact (item_key (hpairs _ hmem).1 (hplain _ hmem).1).1
  have hpubShown : shown config.wireguardPeersPubAddrList =
      ",".intercalate (keys.map WireguardKey.publicKey) := by
    rw [hpub, shown_join id, List.map_id]
    intro text htext
    obtain ⟨key, hkeyMem, rfl⟩ := List.mem_map.mp htext
    exact shown_plain fun c hc => ((hplain key hkeyMem).2 c hc).1
  have hexternalShown : shown config.wireguardExternalAddrList =
      ",".intercalate ((List.range addresses.length).map (endpoint shown addresses ports)) := by
    rw [hexternal, shown_join shown fun _ _ => rfl, shown_externalAddr haddresses]
  have hipsShown : shown config.wireguardAllowedIpsList =
      ",".intercalate ((List.range config.nodesNumber).map fun j => allowedIp (j + 1)) := by
    rw [hips, hsize, shown_join id, List.map_id]
    intro text htext
    obtain ⟨j, -, rfl⟩ := List.mem_map.mp htext
    exact shown_allowedIp (j + 1)
  have hpubItems : ∀ text ∈ keys.map WireguardKey.publicKey, Item text := by
    intro text htext
    obtain ⟨key, hkeyMem, rfl⟩ := List.mem_map.mp htext
    exact item_key (hpairs key hkeyMem).2 (hplain key hkeyMem).2
  have hexternalItems : ∀ text ∈ (List.range addresses.length).map (endpoint shown addresses ports),
      Item text := by
    intro text htext
    obtain ⟨j, hj, rfl⟩ := List.mem_map.mp htext
    have hlt := List.mem_range.mp hj
    have haddress : addresses.getD j "" = addresses[j] := by simp [List.getD, hlt]
    rw [endpoint, haddress]
    refine item_endpoint ?_ (unspaced_shown (unspaced_wireguardPort hports j))
    exact fun c hc => (haddresses _ (List.getElem_mem hlt) c hc).2
  have hstart := startWireguard_eq hfile hnode hset hpos (by omega) hkey hword hpubShown
    hexternalShown hipsShown hpubItems hexternalItems (by simp [hcount, hsize]) (by simp [hsize])
  have hkeyText : (keys.map WireguardKey.privateKey).getD (nodeId - 1) "" =
      keys[nodeId - 1].privateKey := by simp [List.getD, hindex]
  have hsections : (others addresses.length nodeId).map (fun j =>
      peerSection ((keys.map WireguardKey.publicKey).getD j "") (allowedIp (j + 1))
        (((List.range addresses.length).map (endpoint shown addresses ports)).getD j "")) =
      (others addresses.length nodeId).map fun j =>
        peerSection ((keys.map WireguardKey.publicKey).getD j "") (allowedIp (j + 1))
          (endpoint shown addresses ports j) := by
    refine List.map_congr_left ?_
    intro j hj
    have hlt := List.mem_range.mp (List.mem_filter.mp hj).1
    have hendpoint : ((List.range addresses.length).map (endpoint shown addresses ports)).getD j
        "" = endpoint shown addresses ports j := by simp [List.getD, hlt]
    rw [hendpoint]
  rw [hstart, hprivate, hsize, hsections, wg0Conf, hkeyText]

end Lists

/-- From the run that drew the pairs to the file of each node; a port is as `jq`
prints it, which changes nothing in a plain one. -/
theorem wg0_lists_peers (host : Host) (hhost : AcceptsPlain host) (E : Env api String Unit)
    (addresses : List String)
    (haccepted : ∀ address ∈ addresses,
      (host.isIP address || host.isValidDomain address) = true)
    (ports : Option (List String)) (hports : ∀ list ∈ ports, ∀ port ∈ list, Unspaced port)
    {x y : Unit × (Unit × Log)} {wireguard : WireguardConfig}
    (hrun : Runs (logged E) (generateWireguardConfig addresses ports) x (.ok wireguard) y) :
    (∃ keys made, y.2.2 = x.2.2 ++ made ∧ Draws keys made ∧ keys.length = addresses.length ∧
      (∀ key ∈ keys, Pair key) ∧
      ∀ config, Carries config wireguard addresses.length →
      ∀ nodeId, 1 ≤ nodeId → nodeId ≤ addresses.length →
        (others addresses.length nodeId).length = addresses.length - 1 ∧
        ∀ env : Variables, env.configFile ≠ "" → env.nodeId = some nodeId →
          env.toWireguard = ⟨"", "", "", "", "", ""⟩ →
          startWireguard (some config) env = .ok
            (wg0Conf keys (endpoint shown addresses ports) addresses.length nodeId)) ∧
    ∀ j, (∀ c ∈ (wireguardPort ports j).toList, Plain c) →
      endpoint shown addresses ports j = endpoint id addresses ports j := by
  constructor
  · obtain ⟨keys, made, hmade, hdraws, hcount, hpairs, rfl⟩ := runs_generateWireguardConfig hrun
    refine ⟨keys, made, hmade, hdraws, hcount, hpairs, ?_⟩
    intro config hcarries nodeId hpos hle
    refine ⟨length_others hpos hle, fun env hfile hnode hset => ?_⟩
    exact startWireguard_carries hcount hpairs (draws_plain hdraws)
      (fun address haddress => hhost address (haccepted address haddress)) hports hcarries env
      hfile hnode hset hpos hle
  · intro j hplain
    rw [endpoint, endpoint, shown_plain hplain]
    rfl

/-! ### Four nodes -/

def plainAddresses : List String := ["1.1.1.1", "2.2.2.2", "3.3.3.3", "4.4.4.4"]

theorem plainHost_accepts (element : String) :
    (plainHost.isIP element || plainHost.isValidDomain element) = true ↔
      element ∈ plainAddresses := by
  simp [plainHost, plainAddresses]

theorem acceptsPlain_plainHost : AcceptsPlain plainHost := by
  intro element haccepted
  have hmem := (plainHost_accepts element).mp haccepted
  simp only [plainAddresses, List.mem_cons, List.not_mem_nil, or_false] at hmem
  rcases hmem with rfl | rfl | rfl | rfl
  all_goals simp [Plain, isSpace, spaces]

theorem generates_plainAddresses (ports : Option (List String)) :
    ∃ wireguard y, Runs (logged (behaving (plainData "operator,operator,operator,noservice")))
      (generateWireguardConfig plainAddresses ports) ((), ((), [])) (.ok wireguard) y := by
  obtain ⟨wireguard, y, hrun, -⟩ := delivers_runs
    (delivers_generateWireguardConfig plainAddresses ports) (behaving_total _) () ((), [])
  exact ⟨wireguard, y, hrun⟩

/-- An object with this wireguard configuration. -/
def carrying (wireguard : WireguardConfig) (nodesNumber : ℕ) : ConfigObject where
  toCopied := (plainData "operator,operator,operator,noservice").toCopied
  name := "archipel"
  nodesNumber := nodesNumber
  services := []
  wireguardExternalAddrList := wireguard.wireguardExternalAddrList
  wireguardPeersPubAddrList := wireguard.wireguardPeersPubAddrList
  wireguardNodes := wireguard.wireguardNodes
  wireguardAllowedIpsList := wireguard.wireguardAllowedIpsList
  archipelSr25519List := ""
  archipelEd25519List := ""
  archipelReservedPeersList := ""
  archipelNodes := []

theorem carries_carrying (wireguard : WireguardConfig) (nodesNumber : ℕ) :
    Carries (carrying wireguard nodesNumber) wireguard nodesNumber := ⟨rfl, rfl, rfl, rfl, rfl⟩

def nodeVariables (nodeId : ℕ) : Variables := ⟨⟨"", "", "", "", "", ""⟩, "true", some nodeId⟩

theorem wg0_lists_peers_four :
    ∃ wireguard y keys, Runs (logged (behaving (plainData "operator,operator,operator,noservice")))
        (generateWireguardConfig plainAddresses (some ["51821"])) ((), ((), [])) (.ok wireguard) y ∧
      startWireguard (some (carrying wireguard 4)) (nodeVariables 2) = .ok
        (wg0Conf keys (endpoint shown plainAddresses (some ["51821"])) 4 2) := by
  obtain ⟨wireguard, y, hrun⟩ := generates_plainAddresses (some ["51821"])
  have hports : ∀ list ∈ some ["51821"], ∀ port ∈ list, Unspaced port := by
    simp [Unspaced, isSpace, spaces]
  obtain ⟨⟨keys, made, -, -, -, -, hlists⟩, -⟩ := wg0_lists_peers plainHost acceptsPlain_plainHost _
    plainAddresses (fun address => (plainHost_accepts address).mpr) _ hports hrun
  exact ⟨wireguard, y, keys, hrun, (hlists _ (carries_carrying wireguard 4) 2 (by decide)
    (by decide)).2 (nodeVariables 2) (by decide) rfl rfl⟩

theorem getD_quote {l : List String} (h : ∀ text ∈ l, '"' ∉ text.toList) (j : ℕ) :
    '"' ∉ (l.getD j "").toList := by
  rw [List.getD_eq_getElem?_getD]
  cases htext : l[j]? with
  | none => decide
  | some text => exact h text (List.mem_of_getElem? htext)

theorem peerSection_quote {publicKey allowedIPs endpoint : String} :
    '"' ∈ (peerSection publicKey allowedIPs endpoint).toList ↔
      '"' ∈ publicKey.toList ∨ '"' ∈ allowedIPs.toList ∨ '"' ∈ endpoint.toList := by
  unfold peerSection
  have hpublicKey : '"' ∉ "[Peer]\nPublicKey = ".toList := by decide
  have hallowedIPs : '"' ∉ "\nAllowedIPs = ".toList := by decide
  have hendpoint : '"' ∉ "\nEndpoint = ".toList := by decide
  have hkeepalive : '"' ∉ "\nPersistentKeepalive = 21\n\n".toList := by decide
  simp only [String.toList_append, List.mem_append]
  constructor
  · rintro ((((((h | h) | h) | h) | h) | h) | h)
    · exact absurd h hpublicKey
    · exact .inl h
    · exact absurd h hallowedIPs
    · exact .inr (.inl h)
    · exact absurd h hendpoint
    · exact .inr (.inr h)
    · exact absurd h hkeepalive
  · rintro (h | h | h)
    · exact .inl (.inl (.inl (.inl (.inl (.inr h)))))
    · exact .inl (.inl (.inl (.inr h)))
    · exact .inl (.inr h)

theorem interfaceSection_quote {address privateKey listenPort : String}
    (h : '"' ∈ (interfaceSection address privateKey listenPort).toList) :
    '"' ∈ address.toList ∨ '"' ∈ privateKey.toList ∨ '"' ∈ listenPort.toList := by
  unfold interfaceSection at h
  have haddress : '"' ∉ "[Interface]\nAddress = ".toList := by decide
  have hprivateKey : '"' ∉ "\nPrivateKey = ".toList := by decide
  have hlistenPort : '"' ∉ "\nListenPort = ".toList := by decide
  have hend : '"' ∉ "\n\n".toList := by decide
  simp only [String.toList_append, List.mem_append] at h
  rcases h with (((((h | h) | h) | h) | h) | h) | h
  · exact absurd h haddress
  · exact .inl h
  · exact absurd h hprivateKey
  · exact .inr (.inl h)
  · exact absurd h hlistenPort
  · exact .inr (.inr h)
  · exact absurd h hend

theorem allowedIp_quote (nodeId : ℕ) : '"' ∉ (allowedIp nodeId).toList := by
  rw [← shown_allowedIp]
  exact shown_quote _

theorem wg0Conf_quote {keys : List WireguardKey}
    (hplain : ∀ key ∈ keys,
      (∀ c ∈ key.privateKey.toList, Plain c ∧ isSpace c = false ∧ c ≠ ',') ∧
      ∀ c ∈ key.publicKey.toList, Plain c ∧ isSpace c = false ∧ c ≠ ',')
    (endpoint : ℕ → String) (nodesNumber nodeId : ℕ) :
    '"' ∈ (wg0Conf keys endpoint nodesNumber nodeId).toList ↔
      ∃ j ∈ others nodesNumber nodeId, '"' ∈ (endpoint j).toList := by
  have hprivate : ∀ j, '"' ∉ ((keys.map WireguardKey.privateKey).getD j "").toList := by
    refine getD_quote fun text htext hquote => ?_
    obtain ⟨key, hkey, rfl⟩ := List.mem_map.mp htext
    exact ((hplain key hkey).1 '"' hquote).1.1 rfl
  have hpublic : ∀ j, '"' ∉ ((keys.map WireguardKey.publicKey).getD j "").toList := by
    refine getD_quote fun text htext hquote => ?_
    obtain ⟨key, hkey, rfl⟩ := List.mem_map.mp htext
    exact ((hplain key hkey).2 '"' hquote).1.1 rfl
  have hport : '"' ∉ "51820".toList := by decide
  rw [wg0Conf, String.toList_append, String.toList_join, List.mem_append, List.flatMap_map,
    List.mem_flatMap]
  constructor
  · rintro (h | ⟨j, hj, h⟩)
    · rcases interfaceSection_quote h with h | h | h
      · exact absurd h (allowedIp_quote nodeId)
      · exact absurd h (hprivate _)
      · exact absurd h hport
    · rcases peerSection_quote.mp h with h | h | h
      · exact absurd h (hpublic j)
      · exact absurd h (allowedIp_quote (j + 1))
      · exact ⟨j, hj, h⟩
  · rintro ⟨j, hj, h⟩
    exact .inr ⟨j, hj, peerSection_quote.mpr (.inr (.inr h))⟩

/-- A port that is a double quote is written as a backslash. -/
theorem quoted_port_escaped :
    AcceptsPlain plainHost ∧
    (∀ address ∈ plainAddresses,
      (plainHost.isIP address || plainHost.isValidDomain address) = true) ∧
    Unspaced "\"" ∧
    ∃ wireguard y config, Runs
        (logged (behaving (plainData "operator,operator,operator,noservice")))
        (generateWireguardConfig plainAddresses (some ["\""])) ((), ((), [])) (.ok wireguard) y ∧
      Carries config wireguard 4 ∧
      ∀ keys, startWireguard (some config) (nodeVariables 2) ≠ .ok
        (wg0Conf keys (endpoint id plainAddresses (some ["\""])) 4 2) := by
  have hquote : Unspaced "\"" := by
    simp [Unspaced, isSpace, spaces]
  refine ⟨acceptsPlain_plainHost, fun address => (plainHost_accepts address).mpr, hquote, ?_⟩
  obtain ⟨wireguard, y, hrun⟩ := generates_plainAddresses (some ["\""])
  refine ⟨wireguard, y, carrying wireguard 4, hrun, carries_carrying wireguard 4, ?_⟩
  intro keys hstart
  obtain ⟨drawn, made, -, hdraws, hcount, hpairs, rfl⟩ := runs_generateWireguardConfig hrun
  have hports : ∀ list ∈ some ["\""], ∀ port ∈ list, Unspaced port := by
    intro list hlist port hport
    cases hlist
    rw [List.mem_singleton.mp hport]
    exact hquote
  have hwritten := startWireguard_carries hcount hpairs (draws_plain hdraws)
    (fun address haddress => acceptsPlain_plainHost address
      ((plainHost_accepts address).mpr haddress)) hports (carries_carrying _ 4)
    (nodeVariables 2) (by decide) rfl rfl (by decide) (by decide)
  rw [hwritten, Except.ok.injEq] at hstart
  have hin : '"' ∈ (wg0Conf keys (endpoint id plainAddresses (some ["\""])) 4 2).toList := by
    rw [wg0Conf, String.toList_append, String.toList_join, List.mem_append, List.flatMap_map,
      List.mem_flatMap]
    refine .inr ⟨0, by decide, peerSection_quote.mpr (.inr (.inr ?_))⟩
    decide
  rw [← hstart] at hin
  obtain ⟨j, -, hendpoint⟩ := (wg0Conf_quote (draws_plain hdraws) _ 4 2).mp hin
  have haddress : '"' ∉ (plainAddresses.getD j "").toList := getD_quote (by decide) j
  have hcolon : '"' ∉ ":".toList := by decide
  unfold endpoint at hendpoint
  simp only [String.toList_append, List.mem_append] at hendpoint
  rcases hendpoint with (h | h) | h
  · exact haddress h
  · exact hcolon h
  · exact shown_quote _ h

end Archipel.Deployer
