import Archipel.Async.Success
import Archipel.ConfigFile
import Archipel.Json.Scan
import Archipel.Utils

/-!
# The CLI (cli/src/utils.js, cli/src/substrate.js)

`generate` reads archipel.json, runs `subkey` and `wg` for keys and writes
config.json. The commands of the shell, the prompt and the files are the calls;
an exception is the text of `error.toString()`.
-/

namespace Archipel.Cli
open Async ConfigFile Utils

/-! ### archipel.json -/

/-- A block of fields: the value of each property that is set. -/
abbrev FieldsData := String → Option String

structure ServiceData where
  name : String
  fields : List FieldsData

/-- The object of archipel.json; `none` is a property that is not set. -/
structure ConfigData extends Copied where
  name : Option String
  publicIps : Option String
  wireguardPorts : Option String
  services : Option (List ServiceData)
  service : Option String

inductive Call where
  | prepareTempDirectory (tempDir : String)
  | fileExists (fileName : String)
  | loadJSONFile (fileName : String)
  | getPasswordFromUser
  | execAsync (cmd : String)
  | saveJSONToPath (json : ConfigObject) (path : String)
  | rmNonEmptyDir (path : String)

def api : Api where
  Call := Call
  Ret
    | .prepareTempDirectory _ => Unit
    | .fileExists _ => Bool
    | .loadJSONFile _ => ConfigData
    | .getPasswordFromUser => String
    | .execAsync _ => String
    | .saveJSONToPath _ _ => Unit
    | .rmNonEmptyDir _ => Unit

abbrev Command (α : Type) := Async api Unit String α

def prepareTempDirectory (tempDir : String) : Command Unit :=
  call (A := api) (.prepareTempDirectory tempDir)

def fileExists (fileName : String) : Command Bool := call (A := api) (.fileExists fileName)

def loadJSONFile (fileName : String) : Command ConfigData :=
  call (A := api) (.loadJSONFile fileName)

def getPasswordFromUser : Command String := call (A := api) .getPasswordFromUser

def execAsync (cmd : String) : Command String := call (A := api) (.execAsync cmd)

def saveJSONToPath (json : ConfigObject) (path : String) : Command Unit :=
  call (A := api) (.saveJSONToPath json path)

def rmNonEmptyDir (path : String) : Command Unit := call (A := api) (.rmNonEmptyDir path)

/-- Create a zip Archive -/
def createArchive (folderPath resultFilePath password : String) : Command Unit := do
  if password ≠ "" then do
    let _ ← execAsync
      ("zip -P \"" ++ password ++ "\" -r -j " ++ resultFilePath ++ " " ++ folderPath)
    rmNonEmptyDir folderPath
  else do
    let _ ← execAsync ("zip -r -j " ++ resultFilePath ++ " " ++ folderPath)
    rmNonEmptyDir folderPath

/-- Check if a string is empty -/
def isEmptyString (str : Option String) (msg : String) : Except String Unit :=
  if str = none ∨ str = some "" then throw ("Error: " ++ msg) else pure ()

/-! ### The patterns of the answers -/

def backtick : Char := Char.ofNat 96

/-- What `.` does not match. -/
def isLineTerminator (c : Char) : Bool := decide (c.toNat ∈ [10, 13, 8232, 8233])

def restOfLine (t : List Char) : List Char := t.takeWhile fun c => !isLineTerminator c

/-- `.*` between two backticks, as far as it goes on the line. -/
def matchQuoted : List Char → Option (List Char)
  | [] => none
  | c :: t =>
    if c = backtick ∧ backtick ∈ restOfLine t then
      some (c :: ((restOfLine t).reverse.dropWhile fun d => d != backtick).reverse)
    else
      none

/-- `SS58 Address:.*` -/
def matchAddress (t : List Char) : Option (List Char) :=
  ("SS58 Address:".toList.isPrefixOf? t).map fun rest => "SS58 Address:".toList ++ restOfLine rest

/-- `replace(pattern, '')` of the first occurrence. -/
def removeFirst (pattern : List Char) : List Char → List Char
  | [] => []
  | c :: t =>
    match pattern.isPrefixOf? (c :: t) with
    | some rest => rest
    | none => c :: removeFirst pattern t

def seedOf (subKeyResult : String) : Option String :=
  (Json.search matchQuoted subKeyResult.toList).map fun found =>
    String.ofList (found.filter fun c => c != backtick)

def addressOf (subKeyResult : String) : Option String :=
  (Json.search matchAddress subKeyResult.toList).map fun found =>
    String.ofList ((removeFirst "SS58 Address:     ".toList found).filter fun c => !isSpace c)

/-- `match(/[A-Za-z0-9+=/]*/)` -/
def base64Prefix (result : String) : String :=
  String.ofList (result.toList.takeWhile fun c => c.isAlphanum || c == '+' || c == '=' || c == '/')

/-- A match that is null has no `toString`. -/
def matched : Option String → Except String String
  | some text => .ok text
  | none => .error "TypeError: Cannot read properties of null (reading 'toString')"

theorem matched_ok {found : Option String} {text : String} :
    matched found = .ok text ↔ found = some text := by
  cases found with
  | none => simp [matched]
  | some t => simp [matched]

/-! ### Substrate keys -/

structure SubstrateKey where
  seed : String
  sr25519Address : String
  ed25519Address : String

def subkeyGenerate : String := "subkey generate --network substrate"

def subkeyInspect (seed : String) : String :=
  "subkey inspect --scheme Ed25519 --network substrate \"" ++ seed ++ "\""

def generateSubstrateKey : Command SubstrateKey := do
  let subKeyResult ← execAsync subkeyGenerate
  let seed ← ofExcept (matched (seedOf subKeyResult))
  let sr25519Address ← ofExcept (matched (addressOf subKeyResult))
  let subKeyResultEd ← execAsync (subkeyInspect seed)
  let ed25519Address ← ofExcept (matched (addressOf subKeyResultEd))
  pure { seed := seed, sr25519Address := sr25519Address, ed25519Address := ed25519Address }

/-- Generate Substrate Keys and extract sr25519 and ed25519 addresses -/
def generateSubstrateKeys (keysNumber : ℕ) : Command (List SubstrateKey) :=
  (List.range keysNumber).mapM fun _ => generateSubstrateKey

def nodeIdFile (service : String) (i : ℕ) : String := service ++ "-node-id-" ++ toString i

def generateNodeId (service : String) (i : ℕ) : Command NodeIds := do
  let subKeyCommand ← execAsync
    ("subkey generate-node-key --file /tmp/archipel-bootstrap/" ++ nodeIdFile service i)
  pure { peerId := base64Prefix subKeyCommand, idFile := nodeIdFile service i }

/-- Create Node id files and get PeerIds -/
def generateNodeIds (service : String) (nodesNumber : ℕ) : Command (List NodeIds) :=
  (List.range nodesNumber).mapM fun i => generateNodeId service i

/-- Validate a seed -/
def validateSeed (seed : String) : Command Bool := do
  let subKeyCommand ← execAsync (subkeyInspect seed)
  pure (!includes subKeyCommand "Invalid")

end Archipel.Cli
