import Mathlib.Data.List.Infix
import Mathlib.Data.Nat.Notation

/-!
# JSON texts

JSON values as a program holds them and the text that `JSON.stringify` writes.
Strings are sequences of Unicode scalars and of surrogates that stand alone,
which the text holds escaped. The fields of an object stand in the order in which
they are written.
-/

namespace Archipel.Json

inductive CodePoint where
  | scalar (c : Char)
  | surrogate (n : Fin 2048)
  deriving DecidableEq

abbrev Text := List CodePoint

def text (s : String) : Text := s.toList.map .scalar

def numberChars : List Char :=
  ['0', '1', '2', '3', '4', '5', '6', '7', '8', '9', '+', '-', '.', 'e']

/-- A number, by the text it is written with. -/
structure Number where
  text : List Char
  chars : ∀ c ∈ text, c ∈ numberChars

/-- The text of a natural number: its digits, or the scientific notation from
10^21 on. -/
def Number.Natural (number : Number) (n : ℕ) : Prop :=
  if n < 1000000000000000000000 then number.text = Nat.toDigits 10 n
  else ∃ d rest, number.text = d :: rest ∧ d ∈ "123456789".toList

inductive Value where
  | null
  | bool (b : Bool)
  | number (n : Number)
  | string (s : Text)
  | array (items : List Value)
  | object (fields : List (Text × Value))

/-! ### Writing -/

def hex4 (n : ℕ) : List Char :=
  [Nat.digitChar (n / 4096 % 16), Nat.digitChar (n / 256 % 16), Nat.digitChar (n / 16 % 16),
    Nat.digitChar (n % 16)]

def escapePoint : CodePoint → List Char
  | .scalar c =>
    if c = '"' then ['\\', '"']
    else if c = '\\' then ['\\', '\\']
    else if c.toNat = 8 then ['\\', 'b']
    else if c.toNat = 9 then ['\\', 't']
    else if c.toNat = 10 then ['\\', 'n']
    else if c.toNat = 12 then ['\\', 'f']
    else if c.toNat = 13 then ['\\', 'r']
    else if c.toNat < 32 then '\\' :: 'u' :: hex4 c.toNat
    else [c]
  | .surrogate n => '\\' :: 'u' :: hex4 (55296 + n)

def escape (s : Text) : List Char := s.flatMap escapePoint

def quoted (s : Text) : List Char := '"' :: escape s ++ ['"']

mutual

def stringify : Value → List Char
  | .null => "null".toList
  | .bool true => "true".toList
  | .bool false => "false".toList
  | .number n => n.text
  | .string s => quoted s
  | .array [] => ['[', ']']
  | .array (item :: items) => '[' :: (stringify item ++ moreItems items)
  | .object [] => ['{', '}']
  | .object ((key, value) :: fields) =>
    '{' :: (quoted key ++ ':' :: (stringify value ++ moreFields fields))

def moreItems : List Value → List Char
  | [] => [']']
  | item :: items => ',' :: (stringify item ++ moreItems items)

def moreFields : List (Text × Value) → List Char
  | [] => ['}']
  | (key, value) :: fields =>
    ',' :: (quoted key ++ ':' :: (stringify value ++ moreFields fields))

end

/-- The first character tells the numbers and `true` from the other values. -/
theorem stringify_head (v : Value) : (∃ n, v = .number n) ∨ v = .bool true ∨
    (∀ n, v ≠ .number n) ∧ v ≠ .bool true ∧
      ∃ c u, stringify v = c :: u ∧ c ∈ ['n', 'f', '"', '[', '{'] := by
  cases v with
  | number n => exact .inl ⟨n, rfl⟩
  | bool b =>
    cases b with
    | true => exact .inr (.inl rfl)
    | false => exact .inr (.inr ⟨nofun, nofun, 'f', _, rfl, by simp⟩)
  | null => exact .inr (.inr ⟨nofun, nofun, 'n', _, rfl, by simp⟩)
  | string s => exact .inr (.inr ⟨nofun, nofun, '"', _, rfl, by simp⟩)
  | array items =>
    refine .inr (.inr ⟨nofun, nofun, '[', ?_⟩)
    cases items with
    | nil => exact ⟨_, rfl, by simp⟩
    | cons item items => exact ⟨_, by rw [stringify], by simp⟩
  | object fields =>
    refine .inr (.inr ⟨nofun, nofun, '{', ?_⟩)
    cases fields with
    | nil => exact ⟨_, rfl, by simp⟩
    | cons entry fields =>
      obtain ⟨key, v⟩ := entry
      exact ⟨_, by rw [stringify], by simp⟩

/-! ### Quotes stand behind backslashes -/

/-- Every quote in a text is preceded by a backslash; `prev` stands before the
text. -/
def Guarded : Char → List Char → Prop
  | _, [] => True
  | prev, c :: t => (c = '"' → prev = '\\') ∧ Guarded c t

theorem guarded_append {x t : List Char} (hx : ∀ c ∈ x, c ≠ '"') (ht : ∀ prev, Guarded prev t)
    (prev : Char) : Guarded prev (x ++ t) := by
  induction x generalizing prev with
  | nil => exact ht prev
  | cons c x ih =>
    refine ⟨fun hc => absurd hc (hx c (by simp)), ih (fun d hd => hx d (by simp [hd])) c⟩

theorem digitChar_ne_quote (n : ℕ) : Nat.digitChar (n % 16) ≠ '"' := by
  have hall : ∀ d, d < 16 → Nat.digitChar d ≠ '"' := by decide
  exact hall (n % 16) (Nat.mod_lt n (by decide))

theorem hex4_plain (n : ℕ) : ∀ c ∈ '\\' :: 'u' :: hex4 n, c ≠ '"' := by
  intro c hc
  simp only [hex4, List.mem_cons, List.not_mem_nil, or_false] at hc
  rcases hc with rfl | rfl | rfl | rfl | rfl | rfl
  · decide
  · decide
  · exact digitChar_ne_quote _
  · exact digitChar_ne_quote _
  · exact digitChar_ne_quote _
  · exact digitChar_ne_quote _

theorem guarded_escapePoint (p : CodePoint) {t : List Char} (ht : ∀ prev, Guarded prev t)
    (prev : Char) : Guarded prev (escapePoint p ++ t) := by
  cases p with
  | surrogate n => exact guarded_append (hex4_plain _) ht prev
  | scalar c =>
    unfold escapePoint
    dsimp only
    split
    · exact ⟨fun h => absurd h (by decide), fun _ => rfl, ht '"'⟩
    · next hquote =>
      refine guarded_append ?_ ht prev
      split
      · simp
      split
      · simp
      split
      · simp
      split
      · simp
      split
      · simp
      split
      · simp
      split
      · exact hex4_plain _
      · intro d hd
        rw [List.mem_singleton.mp hd]
        exact hquote

theorem guarded_escape (s : Text) (prev : Char) : Guarded prev (escape s) := by
  induction s generalizing prev with
  | nil => trivial
  | cons p s ih => exact guarded_escapePoint p ih prev

/-! ### What follows a value -/

def marks : List Char := ['"', ',', ':', '[', ']', '{', '}']

/-- The text ends here, or a comma or a closing bracket comes. -/
def Closing (t : List Char) : Prop := t = [] ∨ ∃ c u, t = c :: u ∧ c ∈ [',', ']', '}']

theorem closing_moreItems (items : List Value) (t : List Char) :
    Closing (moreItems items ++ t) := by
  cases items with
  | nil => exact .inr ⟨']', t, by simp [moreItems], by simp⟩
  | cons item items => exact .inr ⟨',', _, by rw [moreItems, List.cons_append], by simp⟩

theorem closing_moreFields (fields : List (Text × Value)) (t : List Char) :
    Closing (moreFields fields ++ t) := by
  cases fields with
  | nil => exact .inr ⟨'}', t, by simp [moreFields], by simp⟩
  | cons field fields =>
    obtain ⟨key, value⟩ := field
    exact .inr ⟨',', _, by rw [moreFields, List.cons_append], by simp⟩

end Archipel.Json
