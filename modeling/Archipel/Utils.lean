import Mathlib.Data.List.Infix
import Mathlib.Data.Nat.Notation

/-!
# Helpers (orchestrator/src/utils.js)
-/

namespace Archipel.Utils

/-- `String.prototype.includes` -/
def includes (s t : String) : Bool := decide (t.toList <:+: s.toList)

def isEmptyString : Option String → Bool
  | none => true
  | some str => str.length == 0

/-- Check is a variable is set -/
def checkVariable (value : Option String) (name : String) : Except String Unit :=
  if isEmptyString value then throw ("Error: Error! Variable " ++ name ++ " was not set.")
  else pure ()

def formatOptionList (option inputList : String) : List String :=
  if option == "" || inputList == "" then []
  else (inputList.splitOn ",").foldl (fun resultArray item => resultArray ++ [option, item]) []

def formatOptionCmds (inputCmds : String) : List String :=
  if inputCmds == "" then []
  else if (inputCmds.splitOn " ").length == 1 then [inputCmds]
  else (inputCmds.splitOn " ").foldl (fun resultArray item => resultArray ++ [item]) []

structure Node where
  wallet : String
  name : String

/-- Construct nodes list with wallets and nodes names -/
def constructNodesList (nodesWallets archipelName : Option String) : List Node :=
  if isEmptyString nodesWallets || isEmptyString archipelName then []
  else (((nodesWallets.getD "").splitOn ",").zipIdx).foldl
    (fun resultArray (item, index) => resultArray ++
      [{ wallet := item
         name := archipelName.getD "" ++ "-NODE-" ++ toString (index + 1) }]) []

end Archipel.Utils
