import Archipel.Cli.Effects
import Archipel.Heartbeats.Latest
import Archipel.Text

/-!
# The lists that the CLI writes and the orchestrator reads

The peers are written with a comma after each and the last comma cut off, the
wallets with a comma between them. `formatOptionList` and `constructNodesList`
of the orchestrator read every entry back at its own position.
-/

namespace Archipel.Cli
open Async ConfigFile Utils

/-- A text that can be an entry of a list. -/
def Entry (text : String) : Prop := text ≠ "" ∧ ',' ∉ text.toList

theorem splitOn_comma {entries : List String} (hne : entries ≠ [])
    (hentries : ∀ text ∈ entries, Entry text) :
    (",".intercalate entries).splitOn "," = entries := by
  have hcomma : "," = String.ofList [','] := rfl
  rw [hcomma, Text.splitOn_singleton]
  exact Text.splitOn_intercalate hne fun text htext => (hentries text htext).2

theorem join_ne_empty {entries : List String} (hne : entries ≠ [])
    (hentries : ∀ text ∈ entries, Entry text) : ",".intercalate entries ≠ "" := by
  intro hempty
  have hsplit := splitOn_comma hne hentries
  rw [hempty] at hsplit
  have hmem : "" ∈ entries := by
    rw [← hsplit, show "," = String.ofList [','] from rfl, Text.splitOn_singleton]
    simp
  exact (hentries "" hmem).1 rfl

/-! ### The options of the peers -/

def servicePeer (index : ℕ) (peerId : String) : String :=
  "/ip4/10.0.1." ++ toString (index + 1) ++ "/tcp/30333/p2p/" ++ peerId

theorem reservedPeers_eq (nodeIds : List NodeIds) :
    reservedPeers "30333" nodeIds =
      ",".intercalate ((nodeIds.map NodeIds.peerId).mapIdx servicePeer) := by
  have hport : ∀ text : String, text ++ "/tcp/" ++ "30333" ++ "/p2p/" =
      text ++ "/tcp/30333/p2p/" := by
    intro text
    rw [String.append_assoc, String.append_assoc]
    rfl
  have hpeers : (nodeIds.mapIdx fun index ids =>
      "/ip4/10.0.1." ++ toString (index + 1) ++ "/tcp/" ++ "30333" ++ "/p2p/" ++ ids.peerId ++
        ",") = ((nodeIds.map NodeIds.peerId).mapIdx servicePeer).map
          fun entry => entry ++ String.ofList [','] := by
    apply List.ext_getElem
    · simp
    · intro index h h'
      have hcomma : String.ofList [','] = "," := rfl
      simp only [List.getElem_mapIdx, List.getElem_map, servicePeer, hcomma, hport]
  unfold reservedPeers
  rw [hpeers]
  exact Text.dropLast_separated ',' _

theorem entry_servicePeer {index : ℕ} {peerId : String} (h : Entry peerId) :
    Entry (servicePeer index peerId) := by
  have htext : (servicePeer index peerId).toList = "/ip4/10.0.1.".toList ++
      ((toString (index + 1)).toList ++ ("/tcp/30333/p2p/".toList ++ peerId.toList)) := by
    simp [servicePeer, String.append_assoc]
  constructor
  · intro hempty
    rw [hempty] at htext
    cases htext
  · rw [htext]
    intro hcomma
    rcases List.mem_append.mp hcomma with hmem | hmem
    · revert hmem
      decide
    · rcases List.mem_append.mp hmem with hmem | hmem
      · have hdigit := Text.isDigit_of_mem_toString hmem
        revert hdigit
        decide
      · rcases List.mem_append.mp hmem with hmem | hmem
        · revert hmem
          decide
        · exact h.2 hmem

theorem formatOptionList_join {option : String} (hoption : option ≠ "") {entries : List String}
    (hne : entries ≠ []) (hentries : ∀ text ∈ entries, Entry text) :
    formatOptionList option (",".intercalate entries) =
      entries.flatMap fun text => [option, text] := by
  have hset : (option == "" || ",".intercalate entries == "") = false := by
    simp [hoption, join_ne_empty hne hentries]
  unfold formatOptionList
  rw [hset, splitOn_comma hne hentries]
  simp [List.flatMap_def]

theorem formatOptionList_reservedPeers {option : String} (hoption : option ≠ "")
    {nodeIds : List NodeIds} (hne : nodeIds ≠ []) (hids : ∀ ids ∈ nodeIds, Entry ids.peerId) :
    formatOptionList option (reservedPeers "30333" nodeIds) =
      ((nodeIds.map NodeIds.peerId).mapIdx servicePeer).flatMap fun peer => [option, peer] := by
  rw [reservedPeers_eq]
  refine formatOptionList_join hoption (by simpa using hne) ?_
  intro peer hpeer
  obtain ⟨index, h, rfl⟩ := List.mem_mapIdx.mp hpeer
  rw [List.getElem_map]
  exact entry_servicePeer (hids _ (List.getElem_mem _))

/-! ### The nodes of the wallets -/

def nodeName (name : String) (index : ℕ) : String := name ++ "-NODE-" ++ toString (index + 1)

theorem constructNodesList_join {name : String} (hname : name ≠ "") {wallets : List String}
    (hne : wallets ≠ []) (hwallets : ∀ wallet ∈ wallets, Entry wallet) :
    constructNodesList (some (",".intercalate wallets)) (some name) =
      wallets.mapIdx fun index wallet => ⟨wallet, nodeName name index⟩ := by
  have hset : (Utils.isEmptyString (some (",".intercalate wallets)) ||
      Utils.isEmptyString (some name)) = false := by
    have hjoin := join_ne_empty hne hwallets
    simp [Utils.isEmptyString, hname, hjoin]
  unfold constructNodesList
  rw [hset]
  simp only [Bool.false_eq_true, if_false, Option.getD_some, splitOn_comma hne hwallets]
  rw [List.foldl_append_eq_append, List.nil_append, ← List.flatMap_def, ← List.map_eq_flatMap,
    List.mapIdx_eq_zipIdx_map]
  rfl

/-- Each wallet is found at its own position. -/
theorem find_node {α : Type} [DecidableEq α] {walletOf : String → Wallet α}
    (hinj : Function.Injective walletOf) {name : String} {wallets : List String}
    (hnodup : wallets.Nodup) {index : ℕ} {wallet : String}
    (hwallet : wallets[index]? = some wallet) :
    (((wallets.mapIdx fun index wallet => Node.mk wallet (nodeName name index)).map fun node =>
      (walletOf node.wallet, node.name)).find? fun element => element.1 = walletOf wallet) =
        some (walletOf wallet, nodeName name index) := by
  obtain ⟨hlt, rfl⟩ := List.getElem?_eq_some_iff.mp hwallet
  rw [List.find?_eq_some_iff_getElem]
  refine ⟨by simp, index, by simpa using hlt, by simp, ?_⟩
  intro other hother
  have hne : wallets[other] ≠ wallets[index] := by
    intro heq
    have hsame := (List.Nodup.getElem_inj_iff hnodup).mp heq
    omega
  have hkeys : walletOf wallets[other] ≠ walletOf wallets[index] := fun heq => hne (hinj heq)
  simp [hkeys]

theorem addHeartbeat_own_name {α : Type} [DecidableEq α] {walletOf : String → Wallet α}
    (hinj : Function.Injective walletOf) {name : String} (hname : name ≠ "")
    {wallets : List String} (hwallets : ∀ wallet ∈ wallets, Entry wallet)
    (hnodup : wallets.Nodup) (beats : List (Heartbeats.Beat α)) {index : ℕ} {wallet : String}
    (hwallet : wallets[index]? = some wallet) (group nodeStatus blockNumber : ℕ) :
    ((((Heartbeats.construct walletOf (some (",".intercalate wallets)) (some name)).addHeartbeats
      beats).addHeartbeat (walletOf wallet) group nodeStatus blockNumber).getHeartbeat
        (walletOf wallet)) = some ⟨nodeName name index, group, nodeStatus, blockNumber⟩ := by
  have hne : wallets ≠ [] := by
    rintro rfl
    cases hwallet
  apply Heartbeats.getHeartbeat_addHeartbeat_name
  rw [Heartbeats.addHeartbeats_nodes, Heartbeats.construct,
    constructNodesList_join hname hne hwallets]
  exact find_node hinj hnodup hwallet

/-! ### What the runs of the CLI write -/

/-- The wallet that an event drew. -/
def drawnWallet : Event api String Unit → Option String
  | ⟨.execAsync cmd, .ok result, _⟩ => if cmd = subkeyGenerate then addressOf result else none
  | _ => none

/-- The log gained events that draw `wallets`. -/
def DrawsWallets (wallets : List String) (w w' : Unit × Log) : Prop :=
  ∃ made, w'.2 = w.2 ++ made ∧ made.filterMap drawnWallet = wallets

theorem drawsWallets_trans {wallets wallets' : List String} {w w' w'' : Unit × Log}
    (h : DrawsWallets wallets w w') (h' : DrawsWallets wallets' w' w'') :
    DrawsWallets (wallets ++ wallets') w w'' := by
  obtain ⟨made, hmade, hwallets⟩ := h
  obtain ⟨made', hmade', hwallets'⟩ := h'
  refine ⟨made ++ made', by rw [hmade', hmade, List.append_assoc], ?_⟩
  rw [List.filterMap_append, hwallets, hwallets']

theorem drawsWallets_quiet {w w' : Unit × Log}
    (h : Logs (fun event => Quiet event.call) w w') : DrawsWallets [] w w' := by
  obtain ⟨made, hmade, hquiet⟩ := h
  refine ⟨made, hmade, ?_⟩
  rw [List.filterMap_eq_nil_iff]
  intro event hevent
  have hcall := hquiet event hevent
  obtain ⟨c, r, w⟩ := event
  cases c with
  | execAsync cmd =>
    cases r with
    | ok result => exact if_neg hcall
    | error e => rfl
  | prepareTempDirectory path => rfl
  | fileExists path => rfl
  | loadJSONFile path => rfl
  | getPasswordFromUser => rfl
  | saveJSONToPath json path => rfl
  | rmNonEmptyDir path => rfl

section Runs
variable {E : Env api String Unit} {x y : Unit × (Unit × Log)}

theorem draws_generateSubstrateKey {key : SubstrateKey}
    (h : Runs (logged E) generateSubstrateKey x (.ok key) y) :
    DrawsWallets [key.sr25519Address] x.2 y.2 := by
  obtain ⟨subKeyResult, x₁, hgenerate, h⟩ := runs_bind h
  obtain ⟨seed, x₂, hseed, h⟩ := runs_bind h
  obtain ⟨sr, x₃, hsr, h⟩ := runs_bind h
  obtain ⟨subKeyResultEd, x₄, hinspect, h⟩ := runs_bind h
  obtain ⟨ed, x₅, hed, h⟩ := runs_bind h
  obtain ⟨rfl, rfl⟩ := runs_pure h
  obtain ⟨-, rfl⟩ := runs_ofExcept hseed
  obtain ⟨hfound, rfl⟩ := runs_ofExcept hsr
  obtain ⟨-, rfl⟩ := runs_ofExcept hed
  have hdraw : DrawsWallets [sr] x.2 x₃.2 := by
    obtain ⟨⟨-, hlog⟩, -⟩ := runs_call hgenerate
    refine ⟨_, hlog, ?_⟩
    simp [drawnWallet, matched_ok.mp hfound]
  have hquiet : DrawsWallets [] x₃.2 y.2 :=
    drawsWallets_quiet (runs_logs (onlyCalls_call (quiet_subkeyInspect seed)) hinspect)
  exact drawsWallets_trans hdraw hquiet

theorem draws_generateSubstrateKeys {keysNumber : ℕ} {keys : List SubstrateKey}
    (h : Runs (logged E) (generateSubstrateKeys keysNumber) x (.ok keys) y) :
    keys.length = keysNumber ∧ DrawsWallets (keys.map SubstrateKey.sr25519Address) x.2 y.2 := by
  refine ⟨(runs_generateSubstrateKeys h).1, ?_⟩
  refine runs_mapM (R := fun _ keys x y =>
    DrawsWallets (keys.map SubstrateKey.sr25519Address) x.2 y.2) ?_ ?_ h
  · exact fun x => ⟨[], by simp, rfl⟩
  · intro i key l keys x z y hkey hkeys
    exact drawsWallets_trans (draws_generateSubstrateKey hkey) hkeys

theorem draws_generateArchipelConfig {federationSize : ℕ} {config : ArchipelConfig}
    (h : Runs (logged E) (generateArchipelConfig federationSize) x (.ok config) y) :
    ∃ wallets : List String, wallets.length = federationSize ∧
      config.archipelSr25519List = ",".intercalate wallets ∧ DrawsWallets wallets x.2 y.2 := by
  obtain ⟨keys, x₁, hkeys, h⟩ := runs_bind h
  obtain ⟨nodeIds, x₂, hnodeIds, h⟩ := runs_bind h
  obtain ⟨rfl, rfl⟩ := runs_pure h
  obtain ⟨hlength, hdraws⟩ := draws_generateSubstrateKeys hkeys
  refine ⟨keys.map SubstrateKey.sr25519Address, by rw [List.length_map, hlength], rfl, ?_⟩
  have hquiet := drawsWallets_quiet (runs_logs (onlyCalls_generateNodeIds _ _) hnodeIds)
  have hall := drawsWallets_trans hdraws hquiet
  rwa [List.append_nil] at hall

theorem runs_reservedPeers {configData : ConfigData} {federationSize : ℕ}
    {services : List Service}
    (h : Runs (logged E) (generateServicesConfig configData federationSize) x (.ok services) y) :
    ∀ service ∈ services, service.nodeIds.length = federationSize ∧
      service.reservedPeersList = reservedPeers "30333" service.nodeIds := by
  obtain ⟨servicesData, x₁, -, h⟩ := runs_bind h
  refine runs_mapM (R := fun _ services _ _ => ∀ service ∈ services,
    service.nodeIds.length = federationSize ∧
      service.reservedPeersList = reservedPeers "30333" service.nodeIds) ?_ ?_ h
  · intro x service hservice
    cases hservice
  · intro serviceData service l services x z y hrun hservices other hother
    rcases List.mem_cons.mp hother with rfl | hmem
    · have hfiles := congrArg List.length (runs_generateServiceConfig hrun).idFiles
      obtain ⟨names, x₁, -, hrun⟩ := runs_bind hrun
      obtain ⟨fields, x₂, -, hrun⟩ := runs_bind hrun
      obtain ⟨nodeIds, x₃, -, hrun⟩ := runs_bind hrun
      obtain ⟨rfl, -⟩ := runs_pure hrun
      simp only [List.length_map, List.length_range] at hfiles
      exact ⟨hfiles, rfl⟩
    · exact hservices other hmem

end Runs

/-! ### No entry is lost, doubled or shifted -/

theorem lists_read_back :
    (∀ (E : Env api String Unit) x y configData n services,
      Runs (logged E) (generateServicesConfig configData n) x (.ok services) y →
      ∀ service ∈ services, service.nodeIds.length = n ∧
        service.reservedPeersList = reservedPeers "30333" service.nodeIds) ∧
    (∀ option nodeIds, option ≠ "" → nodeIds ≠ [] → (∀ ids ∈ nodeIds, Entry ids.peerId) →
      (formatOptionList option (reservedPeers "30333" nodeIds)).length = 2 * nodeIds.length ∧
      formatOptionList option (reservedPeers "30333" nodeIds) =
        ((nodeIds.map NodeIds.peerId).mapIdx servicePeer).flatMap fun peer => [option, peer]) ∧
    (∀ (E : Env api String Unit) x y n config,
      Runs (logged E) (generateArchipelConfig n) x (.ok config) y →
      ∃ wallets : List String, wallets.length = n ∧
        config.archipelSr25519List = ",".intercalate wallets ∧ DrawsWallets wallets x.2 y.2) ∧
    (∀ name wallets, name ≠ "" → wallets ≠ [] → (∀ wallet ∈ wallets, Entry wallet) →
      (constructNodesList (some (",".intercalate wallets)) (some name)).length = wallets.length ∧
      constructNodesList (some (",".intercalate wallets)) (some name) =
        wallets.mapIdx (fun index wallet => ⟨wallet, nodeName name index⟩) ∧
      (wallets.Nodup → ∀ (α : Type) [DecidableEq α] (walletOf : String → Wallet α),
        Function.Injective walletOf →
        ∀ beats index wallet group nodeStatus blockNumber, wallets[index]? = some wallet →
          (((Heartbeats.construct walletOf (some (",".intercalate wallets))
            (some name)).addHeartbeats beats).addHeartbeat (walletOf wallet) group nodeStatus
              blockNumber).getHeartbeat (walletOf wallet) =
                some ⟨nodeName name index, group, nodeStatus, blockNumber⟩)) := by
  refine ⟨?_, ?_, ?_, ?_⟩
  · intro E x y configData n services h
    exact runs_reservedPeers h
  · intro option nodeIds hoption hne hids
    rw [formatOptionList_reservedPeers hoption hne hids]
    refine ⟨?_, rfl⟩
    simp [List.length_flatMap, Nat.mul_comm]
  · intro E x y n config h
    exact draws_generateArchipelConfig h
  · intro name wallets hname hne hwallets
    have hnodes := constructNodesList_join hname hne hwallets
    refine ⟨by simp [hnodes], hnodes, ?_⟩
    intro hnodup α _ walletOf hinj beats index wallet group nodeStatus blockNumber hwallet
    exact addHeartbeat_own_name hinj hname hwallets hnodup beats hwallet group nodeStatus
      blockNumber

end Archipel.Cli
