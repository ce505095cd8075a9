import Archipel.ConfigFile
import Archipel.Utils

/-!
# The environment of a process

Both configurations take a value from the file, else from the environment, else a
default, and check at the end that nothing is empty. The environment is the one
after `dotenv.config()`.
-/

namespace Archipel
open ConfigFile Utils

/-- `process.env` -/
abbrev Environment := String → Option String

namespace Environment

/-- `value || other`, and `value ? value : other`: an empty text counts as not set. -/
def orElse (value other : Option String) : Option String :=
  if isEmptyString value then other else value

/-- `value || 'text'` -/
def orDefault (value : Option String) (text : String) : String :=
  if isEmptyString value then text else value.getD text

/-- What the file gives, nothing if CONFIG_FILE is not set. -/
def fromFile {β : Type} (load : String → Option String → Except String β) (env : Environment) :
    Except String (Option β) :=
  if isEmptyString (env "CONFIG_FILE") then
    pure none
  else do
    -- Setting default config path if is not set by env var
    let config ← load (orDefault (env "CONFIG_FILE_PATH") "/config/config.json") (env "NODE_ID")
    pure (some config)

/-- `parseInt` with the error of a text that is no number. -/
def integer (value : Option String) (error : String) : Except String ℤ :=
  match parseInt value with
  | some n => pure n
  | none => throw error

/-- The keys of an object whose value is a text, in their order. A number or a
switch is never empty. -/
abbrev Keys := List (String × Option String)

/-- A key that the object only has when it was set. -/
def present (key : String) (value : Option String) : Keys :=
  (value.map fun text => (key, some text)).toList

def checkKeys (keys : Keys) : Except String Unit :=
  keys.forM fun (key, value) => checkVariable value key

theorem isEmptyString_some {text : String} : isEmptyString (some text) = decide (text = "") := by
  by_cases h : text = ""
  · subst h
    rfl
  · have hlength : text.length ≠ 0 := by simpa [String.length_eq_zero_iff] using h
    simp [isEmptyString, h]

theorem orElse_set {text : String} (h : text ≠ "") (other : Option String) :
    orElse (some text) other = some text := by
  unfold orElse
  rw [isEmptyString_some, if_neg (by simpa using h)]

theorem orDefault_set {text : String} (h : text ≠ "") (other : String) :
    orDefault (some text) other = text := by
  unfold orDefault
  rw [isEmptyString_some, if_neg (by simpa using h)]
  rfl

theorem orDefault_ne_empty (value : Option String) {text : String} (h : text ≠ "") :
    orDefault value text ≠ "" := by
  unfold orDefault
  split
  · exact h
  · next hset =>
    cases value with
    | none => exact absurd rfl hset
    | some given =>
      rw [isEmptyString_some] at hset
      simpa using hset

theorem checkKeys_nil : checkKeys [] = .ok () := rfl

theorem fromFile_ok {β : Type} {load : String → Option String → Except String β}
    {env : Environment} (hset : isEmptyString (env "CONFIG_FILE") = false) {config : β}
    (hload : load (orDefault (env "CONFIG_FILE_PATH") "/config/config.json") (env "NODE_ID") =
      .ok config) : fromFile load env = .ok (some config) := by
  unfold fromFile
  rw [hset, hload]
  rfl

/-- Only a key that is set and empty, or undefined, makes the check fail. -/
theorem checkKeys_ok {keys : Keys} :
    checkKeys keys = .ok () ↔ ∀ key ∈ keys, isEmptyString key.2 = false := by
  induction keys with
  | nil => simp [checkKeys_nil]
  | cons key keys ih =>
    have hcons : checkKeys (key :: keys) =
        (checkVariable key.2 key.1 >>= fun _ => checkKeys keys) := rfl
    rw [hcons, bind_ok, List.forall_mem_cons, ← ih]
    unfold checkVariable
    cases isEmptyString key.2 with
    | true => simp [throw, throwThe, MonadExceptOf.throw]
    | false => simp [pure, Except.pure]

theorem present_set {key : String} {value : Option String} (h : ∀ t, value = some t → t ≠ "") :
    ∀ entry ∈ present key value, isEmptyString entry.2 = false := by
  intro entry hentry
  cases value with
  | none => cases hentry
  | some text =>
    have hone : entry = (key, some text) := List.mem_singleton.mp hentry
    rw [hone, isEmptyString_some]
    simpa using h text rfl

theorem integer_ok {value : Option String} {n : ℤ} (h : parseInt value = some n) (error : String) :
    integer value error = .ok n := by
  unfold integer
  rw [h]
  rfl

/-- An empty text is not a number. -/
theorem parseInt_ne_empty {text : String} {n : ℤ} (h : parseInt (some text) = some n) :
    text ≠ "" := by
  rintro rfl
  have hnone : parseInt (some "") = none := by decide
  rw [hnone] at h
  cases h

end Environment

end Archipel
