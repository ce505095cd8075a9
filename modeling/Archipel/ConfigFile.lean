import Archipel.Text
import Mathlib.Data.Int.Notation
import Mathlib.Data.Nat.Notation
import Mathlib.Data.List.Forall2
import Mathlib.Data.List.TakeWhile

/-!
# The configuration file of a federation (config.json)

The CLI writes the file and every node of the federation reads it, each at its
own node id. `ConfigObject` is the object that the file holds. The loaders take
the reading of a path as a parameter, and an exception is the text that
`error.toString()` gives.
-/

namespace Archipel.ConfigFile

structure NodeIds where
  peerId : String
  idFile : String
  deriving DecidableEq

structure Field where
  name : String
  value : String
  env : String
  deriving DecidableEq

structure Service where
  name : String
  fields : List (List Field)
  nodeIds : List NodeIds
  reservedPeersList : String
  deriving DecidableEq

structure ArchipelNode where
  seed : String
  nodeIds : NodeIds
  deriving DecidableEq

/-- What config.json repeats as it stands in archipel.json; `none` is an entry that
was not set. -/
structure Copied where
  nodesRole : Option String
  nodesGroup : Option String
  nodesGroupId : Option String
  nexmoApiKey : Option String
  nexmoApiSecret : Option String
  nexmoApiSignatureMethod : Option String
  nexmoApiSignatureSecret : Option String
  nexmoPhoneNumber : Option String
  outletPhoneNumber : Option String
  serviceNodesNumber : Option ℕ
  deriving DecidableEq

structure ConfigObject extends Copied where
  name : String
  nodesNumber : ℕ
  services : List Service
  wireguardExternalAddrList : String
  wireguardPeersPubAddrList : String
  wireguardNodes : List String
  wireguardAllowedIpsList : String
  archipelSr25519List : String
  archipelEd25519List : String
  archipelReservedPeersList : String
  archipelNodes : List ArchipelNode
  deriving DecidableEq

/-- `text.split(',')` -/
def split (text : String) : List String := (text.toList.splitOn ',').map String.ofList

/-- A property of a value that may be undefined. -/
def property {α : Type} (name : String) : Option α → Except String α
  | some a => .ok a
  | none => .error ("TypeError: Cannot read properties of undefined (reading '" ++ name ++ "')")

theorem property_ok {α : Type} {name : String} {o : Option α} {a : α} :
    property name o = .ok a ↔ o = some a := by
  cases o with
  | none => simp [property]
  | some b => simp [property]

theorem bind_ok {ε α β : Type} {m : Except ε α} {f : α → Except ε β} {b : β} :
    m >>= f = .ok b ↔ ∃ a, m = .ok a ∧ f a = .ok b := by
  cases m with
  | ok a =>
    show f a = .ok b ↔ _
    simp
  | error e =>
    show Except.error e = .ok b ↔ _
    simp

theorem mapM_ok {ε α β : Type} {f : α → Except ε β} {l : List α} {bs : List β}
    (h : l.mapM f = .ok bs) : List.Forall₂ (fun a b => f a = .ok b) l bs := by
  induction l generalizing bs with
  | nil =>
    rw [List.mapM_nil] at h
    cases h
    exact .nil
  | cons a l ih =>
    rw [List.mapM_cons, bind_ok] at h
    obtain ⟨b, hb, hrest⟩ := h
    rw [bind_ok] at hrest
    obtain ⟨bs', hbs, hlast⟩ := hrest
    cases hlast
    exact .cons hb (ih hbs)

theorem forM_ok {ε α : Type} {f : α → Except ε Unit} {l : List α}
    (h : l.forM f = .ok ()) : ∀ a ∈ l, f a = .ok () := by
  induction l with
  | nil => simp
  | cons a l ih =>
    obtain ⟨u, ha, hrest⟩ := bind_ok.mp h
    intro b hb
    rcases List.mem_cons.mp hb with rfl | hmem
    · exact ha
    · exact ih hrest b hmem

/-! ### parseInt -/

def spaces : List ℕ :=
  [9, 10, 11, 12, 13, 32, 160, 5760, 8192, 8193, 8194, 8195, 8196, 8197, 8198, 8199, 8200, 8201,
    8202, 8232, 8233, 8239, 8287, 12288, 65279]

/-- `\s` -/
def isSpace (c : Char) : Bool := decide (c.toNat ∈ spaces)

def hexValue (c : Char) : Option ℕ :=
  if c.isDigit then some (c.toNat - 48)
  else if 'a' ≤ c ∧ c ≤ 'f' then some (c.toNat - 87)
  else if 'A' ≤ c ∧ c ≤ 'F' then some (c.toNat - 55)
  else none

def parseHex (t : List Char) : Option ℕ :=
  let digits := t.takeWhile fun c => (hexValue c).isSome
  if digits = [] then none
  else some (digits.foldl (fun n c => 16 * n + (hexValue c).getD 0) 0)

def parseDecimal (t : List Char) : Option ℕ :=
  let digits := t.takeWhile Char.isDigit
  if digits = [] then none else some (Nat.ofDigitChars 10 digits 0)

def parseUnsigned : List Char → Option ℕ
  | '0' :: 'x' :: t => parseHex t
  | '0' :: 'X' :: t => parseHex t
  | t => parseDecimal t

def parseSigned : List Char → Option ℤ
  | '-' :: t => (parseUnsigned t).map fun n => -(n : ℤ)
  | '+' :: t => (parseUnsigned t).map Int.ofNat
  | t => (parseUnsigned t).map Int.ofNat

/-- `none` is NaN; an environment variable that is not set is not a number. -/
def parseInt (text : Option String) : Option ℤ :=
  text.bind fun s => parseSigned (s.toList.dropWhile isSpace)

theorem digit_plain {c : Char} (hc : c.isDigit = true) :
    isSpace c = false ∧ c ≠ '-' ∧ c ≠ '+' ∧ c ≠ 'x' ∧ c ≠ 'X' := by
  have hlow : 48 ≤ c.toNat ∧ c.toNat ≤ 57 := by
    simp only [Char.isDigit, Bool.and_eq_true, decide_eq_true_eq] at hc
    exact hc
  refine ⟨?_, ?_, ?_, ?_, ?_⟩
  · simp only [isSpace, spaces, List.mem_cons, List.not_mem_nil, or_false, decide_eq_false_iff_not]
    omega
  all_goals
    rintro rfl
    revert hc
    decide

theorem parseUnsigned_digits {t : List Char} (ht : ∀ c ∈ t, c.isDigit = true) :
    parseUnsigned t = parseDecimal t := by
  unfold parseUnsigned
  split
  · next u =>
    exact absurd rfl (digit_plain (ht 'x' (by simp))).2.2.2.1
  · next u =>
    exact absurd rfl (digit_plain (ht 'X' (by simp))).2.2.2.2
  · rfl

theorem parseSigned_digits {t : List Char} (ht : ∀ c ∈ t, c.isDigit = true) :
    parseSigned t = (parseDecimal t).map Int.ofNat := by
  unfold parseSigned
  split
  · exact absurd rfl (digit_plain (ht '-' (by simp))).2.1
  · exact absurd rfl (digit_plain (ht '+' (by simp))).2.2.1
  · rw [parseUnsigned_digits ht]

/-- A node id is read back from the digits it is written with. -/
theorem parseInt_toString (n : ℕ) : parseInt (some (toString n)) = some (n : ℤ) := by
  have htext := Text.toList_toString n
  have hdigits : ∀ c ∈ Nat.toDigits 10 n, c.isDigit = true := by
    rw [← htext]
    exact fun c hc => Text.isDigit_of_mem_toString hc
  have hne : Nat.toDigits 10 n ≠ [] := Nat.toDigits_ne_nil
  have hdrop : (Nat.toDigits 10 n).dropWhile isSpace = Nat.toDigits 10 n := by
    rw [List.dropWhile_eq_self_iff]
    intro hlen
    have hfirst := (digit_plain (hdigits _ (List.getElem_mem hlen))).1
    simpa using hfirst
  have htake : (Nat.toDigits 10 n).takeWhile Char.isDigit = Nat.toDigits 10 n :=
    List.takeWhile_eq_self_iff.mpr hdigits
  show parseSigned ((toString n).toList.dropWhile isSpace) = _
  rw [htext, hdrop, parseSigned_digits hdigits]
  simp only [parseDecimal, htake, if_neg hne, Nat.ofDigitChars_ten_toDigits, Option.map_some]
  rfl

end Archipel.ConfigFile
