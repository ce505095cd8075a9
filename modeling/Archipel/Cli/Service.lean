import Archipel.Cli.Basic

/-!
# The services (cli/src/service.js, cli/src/polkadot.js, cli/src/centrifuge.js)

A service has one block of fields and one node id for each service node. The
blocks are written in the order of archipel.json and the node id files are
numbered from 0.
-/

namespace Archipel.Cli
open Async ConfigFile Utils

structure ServiceField where
  type : String
  name : String
  label : String
  env : String

/-- Necessary fields for polkadot service -/
def polkadotFields : List ServiceField :=
  [⟨"text", "granKey", "Gran Key", "POLKADOT_KEY_GRAN"⟩,
    ⟨"text", "babeKey", "Babe Key", "POLKADOT_KEY_BABE"⟩,
    ⟨"text", "imonKey", "Imon Key", "POLKADOT_KEY_IMON"⟩,
    ⟨"text", "paraKey", "Para Key", "POLKADOT_KEY_PARA"⟩,
    ⟨"text", "asgnKey", "Asgn Key", "POLKADOT_KEY_ASGN"⟩,
    ⟨"text", "audiKey", "Audi Key", "POLKADOT_KEY_AUDI"⟩]

/-- Necessary fields for centrifuge service -/
def centrifugeFields : List ServiceField :=
  [⟨"text", "granKey", "Gran Key", "CENTRIFUGE_KEY_GRAN"⟩,
    ⟨"text", "babeKey", "Babe Key", "CENTRIFUGE_KEY_BABE"⟩,
    ⟨"text", "imonKey", "Imon Key", "CENTRIFUGE_KEY_IMON"⟩,
    ⟨"text", "audiKey", "Audi Key", "CENTRIFUGE_KEY_AUDI"⟩]

/-! ### Validation -/

def validateKey (fieldData : FieldsData) (name : String) : Command Unit := do
  if !(← validateSeed ((fieldData name).getD "undefined")) then
    throw ("Error: " ++ name ++ " seed is not valid.")

def validatePolkadotConfig (fieldData : FieldsData) : Command Unit := do
  validateKey fieldData "granKey"
  validateKey fieldData "babeKey"
  validateKey fieldData "imonKey"
  validateKey fieldData "paraKey"
  validateKey fieldData "asgnKey"
  validateKey fieldData "audiKey"

def validateCentrifugeConfig (fieldData : FieldsData) : Command Unit := do
  validateKey fieldData "granKey"
  validateKey fieldData "babeKey"
  validateKey fieldData "imonKey"
  validateKey fieldData "audiKey"

/-- The error names `configData.service`, which archipel.json does not have. -/
def validateService (configData : ConfigData) (service : ServiceData) : Command Unit :=
  if service.name = "polkadot" then
    service.fields.forM validatePolkadotConfig
  else if service.name = "centrifuge" then
    service.fields.forM validateCentrifugeConfig
  else
    throw ("Error: Service " ++ configData.service.getD "undefined" ++ " is not supported yet.")

def iterable (name : String) : Option (List ServiceData) → Except String (List ServiceData)
  | some servicesList => .ok servicesList
  | none => .error ("TypeError: " ++ name ++ " is not iterable")

/-- Validate service config -/
def validateServicesConfig (configData : ConfigData) : Command Unit := do
  let servicesList ← MonadExcept.ofExcept (iterable "servicesList" configData.services)
  servicesList.forM (validateService configData)

/-! ### Generation -/

def setField (fieldsData : FieldsData) (field : ServiceField) : Except String Field :=
  match fieldsData field.name with
  | some value =>
    -- If service field was set in request
    if value ≠ "" then
      .ok { name := field.name, value := value, env := field.env }
    else
      .error ("Error: '" ++ field.label ++ "' field was not set.")
  | none => .error ("Error: '" ++ field.label ++ "' field was not set.")

def generateServiceFieldsConfig (serviceData : ServiceData) (serviceFields : List ServiceField) :
    Except String (List (List Field)) :=
  serviceData.fields.mapM fun fieldsData => serviceFields.mapM (setField fieldsData)

/-- Create reserved peers list -/
def reservedPeers (port : String) (nodeIds : List NodeIds) : String :=
  let list := (nodeIds.mapIdx fun index ids =>
    "/ip4/10.0.1." ++ toString (index + 1) ++ "/tcp/" ++ port ++ "/p2p/" ++ ids.peerId ++ ",").foldl
    (fun listArray peer => listArray ++ peer) ""
  String.ofList list.toList.dropLast

def serviceFields (name : String) : Except String (List ServiceField) :=
  if name = "polkadot" then .ok polkadotFields
  else if name = "centrifuge" then .ok centrifugeFields
  else .error ("Error: Service " ++ name ++ " is not supported yet.")

def generateServiceConfig (federationSize : ℕ) (serviceData : ServiceData) : Command Service := do
  let serviceFields ← MonadExcept.ofExcept (serviceFields serviceData.name)
  let fields ← MonadExcept.ofExcept (generateServiceFieldsConfig serviceData serviceFields)
  -- Generate Service Node Ids
  let nodeIds ← generateNodeIds serviceData.name federationSize
  pure {
    name := serviceData.name
    fields := fields
    nodeIds := nodeIds
    reservedPeersList := reservedPeers "30333" nodeIds }

/-- Generate service configuration -/
def generateServicesConfig (configData : ConfigData) (federationSize : ℕ) :
    Command (List Service) := do
  let services ← MonadExcept.ofExcept (iterable "configData.services" configData.services)
  services.mapM (generateServiceConfig federationSize)

end Archipel.Cli
