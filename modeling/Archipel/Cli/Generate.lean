import Archipel.Cli.Service

/-!
# Generating a federation (cli/src/generate.js, wireguard.js, archipel.js, init.js)

`generateConfig` validates archipel.json, draws the keys and writes config.json
into the directory that it archives. An exception ends the process with the
error on the console. The tests of an address, the case mapping and the working
directory are those of the host.
-/

namespace Archipel.Cli
open Async ConfigFile Utils

/-- What the code takes from node and its packages: `net.isIP`, `isValidDomain`,
`toLowerCase` and the path of the archive in the working directory. -/
structure Host where
  isIP : String → Bool
  isValidDomain : String → Bool
  toLowerCase : String → String
  configZip : String

def configFile : String := "archipel.json"

def tempDir : String := "/tmp/archipel-bootstrap"

/-! ### init.js -/

/-- Setting service nodes number from node roles -/
def serviceNodesNumber (roles : List String) : ℕ :=
  roles.foldl (fun a v => if v ≠ "noservice" then a + 1 else a) 0

/-! ### wireguard.js -/

structure WireguardKey where
  privateKey : String
  publicKey : String

def generateWireguardKey : Command (Option WireguardKey) := do
  let genKeyCmd ← execAsync "wg genkey"
  let privateKey := base64Prefix genKeyCmd
  let publicKeyCmd ← execAsync ("echo " ++ privateKey ++ " | wg pubkey")
  let publicKey := base64Prefix publicKeyCmd
  if privateKey.length = 44 ∧ publicKey.length = 44 then
    pure (some { privateKey := privateKey, publicKey := publicKey })
  else
    pure none

/-- Generate Wireguard keys -/
def generateWireguardKeys (keysNumber : ℕ) : Command (List WireguardKey) := do
  let keys ← (List.range keysNumber).mapM fun _ => generateWireguardKey
  pure (keys.filterMap id)

def externalAddr (wireguardPortsList : Option (List String)) (index : ℕ) (element : String) :
    String :=
  match wireguardPortsList.bind fun ports => ports[index]? with
  | some port => if port ≠ "" then element ++ ":" ++ port else element ++ ":51820"
  | none => element ++ ":51820"

structure WireguardConfig where
  wireguardExternalAddrList : String
  wireguardPeersPubAddrList : String
  wireguardNodes : List String
  wireguardAllowedIpsList : String

/-- Generate Wireguard configuration -/
def generateWireguardConfig (externalIPAddresses : List String)
    (wireguardPortsList : Option (List String)) : Command WireguardConfig := do
  let wireGuardKeys ← generateWireguardKeys externalIPAddresses.length
  let wireguardNodes ← MonadExcept.ofExcept <|
    (List.range externalIPAddresses.length).mapM fun i => do
      let key ← property "privateKey" wireGuardKeys[i]?
      pure key.privateKey
  pure {
    wireguardExternalAddrList :=
      ",".intercalate (externalIPAddresses.mapIdx (externalAddr wireguardPortsList))
    wireguardPeersPubAddrList := ",".intercalate (wireGuardKeys.map WireguardKey.publicKey)
    wireguardNodes := wireguardNodes
    wireguardAllowedIpsList := ",".intercalate
      ((List.range externalIPAddresses.length).map fun i =>
        "10.0.1." ++ toString (i + 1) ++ "/32") }

/-! ### archipel.js -/

structure ArchipelConfig where
  archipelSr25519List : String
  archipelEd25519List : String
  archipelReservedPeersList : String
  archipelNodes : List ArchipelNode

/-- Generate Archipel configuration -/
def generateArchipelConfig (federationSize : ℕ) : Command ArchipelConfig := do
  let substrateKeys ← generateSubstrateKeys federationSize
  let nodeIds ← generateNodeIds "archipel" federationSize
  pure {
    archipelSr25519List := ",".intercalate (substrateKeys.map SubstrateKey.sr25519Address)
    archipelEd25519List := ",".intercalate (substrateKeys.map SubstrateKey.ed25519Address)
    archipelReservedPeersList := reservedPeers "30334" nodeIds
    -- Both lists have one entry for each node.
    archipelNodes := substrateKeys.zipWith (fun key ids => ⟨key.seed, ids⟩) nodeIds }

/-! ### generate.js -/

/-- Validate public ips list -/
def validatePublicIps (host : Host) (ips : String) : Except String Unit := do
  let externalIPAddresses := split ips
  if externalIPAddresses.length < 4 then
    throw "Error: Archipel must have at least 4 nodes config."
  -- Check if every ip address in list is valid
  externalIPAddresses.forM fun element =>
    if !host.isIP element && !host.isValidDomain element then
      throw ("Error: Public ip list has an invalid IP address or DNS domain (" ++ element ++ ").")
    else
      pure ()

def validateRole (role : String) : Except String Unit :=
  if role ≠ "operator" ∧ role ≠ "noservice" then
    throw ("Error: Bad role node :" ++ role ++
      ". Archipel node role must be operator or noservice")
  else
    pure ()

/-- Validate nodes role support -/
def validateNodesRole (roles : Option String) : Except String Unit := do
  let roles ← property "split" roles
  (split roles).forM validateRole

def validateTexts (host : Host) (configData : ConfigData) : Except String Unit := do
  isEmptyString configData.name "Archipel Name was not set in archipel.json file."
  isEmptyString configData.publicIps "Nodes public ips were not set in archipel.json file."
  if configData.services.getD [] matches [] then
    throw "Error: Services was not found in archipel.json file."
  validatePublicIps host (configData.publicIps.getD "")
  validateNodesRole configData.nodesRole

/-- Validate config data from archipel.json file -/
def validateConfigData (host : Host) (configData : ConfigData) : Command Unit := do
  MonadExcept.ofExcept (validateTexts host configData)
  validateServicesConfig configData

/-- Start constructing config -/
def constructConfig (host : Host) (configData : ConfigData) : Command ConfigObject := do
  let publicIps ← MonadExcept.ofExcept (property "split" configData.publicIps)
  let externalIPAddresses := split publicIps
  let wireguardPortsList := (configData.wireguardPorts.filter fun ports => ports != "").map split
  let name ← MonadExcept.ofExcept (property "toLowerCase" configData.name)
  let nodesNumber := externalIPAddresses.length
  -- A size that was not set bounds no loop.
  let services ← generateServicesConfig configData (configData.serviceNodesNumber.getD 0)
  -- Adding wireguard config
  let wireguard ← generateWireguardConfig externalIPAddresses wireguardPortsList
  -- Adding Archipel config
  let archipel ← generateArchipelConfig nodesNumber
  pure {
    toCopied := configData.toCopied
    name := String.ofList ((host.toLowerCase name).toList.map fun c =>
      if isSpace c then '-' else c)
    nodesNumber := nodesNumber
    services := services
    wireguardExternalAddrList := wireguard.wireguardExternalAddrList
    wireguardPeersPubAddrList := wireguard.wireguardPeersPubAddrList
    wireguardNodes := wireguard.wireguardNodes
    wireguardAllowedIpsList := wireguard.wireguardAllowedIpsList
    archipelSr25519List := archipel.archipelSr25519List
    archipelEd25519List := archipel.archipelEd25519List
    archipelReservedPeersList := archipel.archipelReservedPeersList
    archipelNodes := archipel.archipelNodes }

/-- Generate config -/
def generateConfig (host : Host) : Command Unit := do
  -- Config file checks
  prepareTempDirectory tempDir
  if !(← fileExists configFile) then
    throw "Error: Archipel config file was not found. Try to launch 'init' command."
  let configData ← loadJSONFile configFile
  validateConfigData host configData
  let password ← getPasswordFromUser
  let config ← constructConfig host configData
  -- Write configuration to file
  saveJSONToPath config (tempDir ++ "/config.json")
  -- Creating configuration archive
  createArchive tempDir host.configZip password

end Archipel.Cli
