import Mathlib.Data.List.Perm.Subperm
import Archipel.Async.Blocks
import Archipel.Polkadot.Keys

/-!
# Passes that overlap

Each start launches a pass of `polkadotKeysImport`, and a pass that has found a
key missing awaits two or three calls before it adds the key to the list. Two
passes may find one key missing and both add it. While no two passes are
importing one key, the list has no key twice and each of its keys was confirmed
by `author_hasKey`.
-/

namespace Archipel.Polkadot
open Async Docker Utils

/-! ### The code of a pass -/

section Code
variable (config : Config) (k : SessionKey) (ks : List SessionKey)

def pushKey : Method Bool :=
  .read fun s =>
    .write { s with importedKeys := s.importedKeys ++ [config.keyOf k] } (importRest config ks)

def checkSession : Method Bool :=
  if isEmptyString config.polkadotSessionKeyToCheck then pushKey config k ks
  else .await (.post "author_hasSessionKeys" [config.polkadotSessionKeyToCheck.getD ""])
    fun _ => pushKey config k ks

def checkKey : Method Bool :=
  .await (.post "author_hasKey" [config.keyOf k, k.type]) fun
    | .ok (some result) =>
      if includes result "true" then checkSession config k ks else importRest config ks
    | .ok none => importRest config ks
    | .error _ => .done false

def insertKey : Method Bool :=
  .await (.post "author_insertKey" [k.type, k.mnemonic, config.keyOf k]) fun
    | .ok (some _) => checkKey config k ks
    | _ => importRest config ks

def findKey : Method Bool :=
  .read fun s =>
    if s.importedKeys.contains (config.keyOf k) then importRest config ks
    else insertKey config k ks

/-- What is left of a pass after what is left of one key. -/
def finish (m : Method Bool) : Method Bool :=
  tryCatch ((m >>= fun _ => importKeys config ks) >>= fun _ => pure true) fun _ => pure false

/-- What `importKey` does once the key was found in the keystore. -/
def addKey : Method Bool := do
  let _ ← checkSessionKeysOnNode config
  modify fun s => { s with importedKeys := s.importedKeys ++ [config.keyOf k] }
  pure true

theorem finish_addKey : finish config ks (addKey config k) = checkSession config k ks := by
  unfold checkSession addKey checkSessionKeysOnNode
  split
  · rfl
  · refine congrArg (Async.await (A := Docker.api) _) (funext fun r => ?_)
    rcases r with e | result
    · rfl
    · cases result <;> rfl

def confirmKey : Method Bool := do
  let keyAdded ← checkKeyAdded (config.keyOf k) k.type
  if !keyAdded then
    pure false
  else
    addKey config k

theorem finish_confirmKey : finish config ks (confirmKey config k) = checkKey config k ks := by
  refine congrArg (Async.await (A := Docker.api) _) (funext fun r => ?_)
  rcases r with e | result
  · rfl
  · cases result with
    | none => rfl
    | some result =>
      show finish config ks (if !includes result "true" then pure false else addKey config k) =
        if includes result "true" then checkSession config k ks else importRest config ks
      cases includes result "true" with
      | false => rfl
      | true => exact finish_addKey config k ks

theorem importRest_cons : importRest config (k :: ks) =
    if k.mnemonic == "" then .done false
    else .await .cryptoWaitReady fun
      | .ok _ => findKey config k ks
      | .error _ => .done false := by
  unfold importRest importKeys importKey
  split
  · rfl
  refine congrArg (Async.await (A := Docker.api) Call.cryptoWaitReady) (funext fun r => ?_)
  cases r with
  | error e => rfl
  | ok a =>
    refine congrArg Async.read (funext fun s => ?_)
    show finish config ks (if s.importedKeys.contains (config.keyOf k) then pure false else _) =
      if s.importedKeys.contains (config.keyOf k) then importRest config ks
      else insertKey config k ks
    split
    · rfl
    refine congrArg (Async.await (A := Docker.api) _) (funext fun r => ?_)
    rcases r with e | result
    · rfl
    · cases result with
      | none => rfl
      | some result => exact finish_confirmKey config k ks

theorem polkadotKeysImport_tree : polkadotKeysImport config =
    .read fun s =>
      if s.importedKeys.length ≥ 6 then .done false
      else .await (.setTimeout s.importedKeysDelay) fun
        | .ok _ => importRest config config.sessionKeys
        | .error _ => .done false := by
  rw [polkadotKeysImport_eq]
  refine congrArg Async.read (funext fun s => ?_)
  show tryCatch (if s.importedKeys.length ≥ 6 then (pure false : Method Bool) else _)
      (fun _ => pure false) =
    if s.importedKeys.length ≥ 6 then _ else _
  split
  · rfl
  refine congrArg (Async.await (A := Docker.api) _) (funext fun r => ?_)
  cases r <;> rfl

theorem suspended_importRest : (importRest config ks).suspended = true := by
  cases ks with
  | nil => rfl
  | cons k ks =>
    rw [importRest_cons]
    split <;> rfl

end Code

/-! ### Passes that spare a key -/

/-- Whatever a call answers, the list holds the key afterwards. -/
abbrev holding (key : String) : CallSpec Docker.api String (State × Unit) :=
  fun _ Q _ => ∀ r s, key ∈ s.importedKeys → Q r (s, ())

abbrev sparing (key : String) (x y : State × Unit) : Prop :=
  y.1.importedKeys.count key = x.1.importedKeys.count key

/-- As long as the list holds the key, the pass does not add it again. A pass
that does not spare a key is importing it: it has found the key missing and may
still add it. -/
def Spares (key : String) (m : Method Bool) : Prop :=
  ∀ s, key ∈ s.importedKeys →
    wp (holding key) (sparing key) m (fun _ _ => True) (s, ())

theorem spares_await {key : String} (c : Docker.Call)
    (k : Except String (Docker.api.Ret c) → Method Bool) :
    Spares key (.await c k) ↔ ∀ r, Spares key (k r) := by
  constructor
  · intro h r s hs
    exact h { importedKeys := [key] } (List.mem_singleton_self key) r s hs
  · intro h s _ r s' hs'
    exact h r s' hs'

theorem spares_ended {key : String} {m : Method Bool} (hm : m.ended = true) : Spares key m := by
  cases m with
  | done a | fail e => exact fun _ _ => trivial
  | read k | write s k | await c k => cases hm

theorem spares_turn {key : String} {m : Method Bool} (hm : Spares key m) {s : State}
    (hs : key ∈ s.importedKeys) :
    (m.turn s).2.importedKeys.count key = s.importedKeys.count key ∧ Spares key (m.turn s).1 := by
  obtain ⟨hcount, hwp⟩ := wp_turn (G := sparing key) (fun _ => rfl)
    (fun _ _ _ h h' => h'.trans h) m (s, ()) (hm s hs)
  refine ⟨hcount, ?_⟩
  have hsuspended := turn_suspended m s
  cases hturn : (m.turn s).1 with
  | done a | fail e => exact spares_ended rfl
  | read k | write s' k =>
    rw [hturn] at hsuspended
    cases hsuspended
  | await c k =>
    rw [hturn] at hwp
    exact (spares_await c k).mpr hwp

section Spares
variable {config : Config} {k : SessionKey} {ks : List SessionKey} {key : String}

theorem spares_pushKey (hkey : key ≠ config.keyOf k) (hrest : Spares key (importRest config ks)) :
    Spares key (pushKey config k ks) := by
  intro s hs
  refine ⟨?_, hrest _ (List.mem_append_left _ hs)⟩
  have hne : [config.keyOf k].count key = 0 := by simp [hkey.symm]
  simp [sparing, List.count_append, hne]

theorem spares_insertKey (hkey : key ≠ config.keyOf k)
    (hrest : Spares key (importRest config ks)) : Spares key (insertKey config k ks) := by
  have hsession : Spares key (checkSession config k ks) := by
    unfold checkSession
    split
    · exact spares_pushKey hkey hrest
    · exact (spares_await _ _).mpr fun _ => spares_pushKey hkey hrest
  have hcheck : Spares key (checkKey config k ks) := by
    refine (spares_await _ _).mpr fun r => ?_
    rcases r with e | result
    · exact spares_ended rfl
    · cases result with
      | none => exact hrest
      | some result =>
        dsimp only
        split
        · exact hsession
        · exact hrest
  refine (spares_await _ _).mpr fun r => ?_
  rcases r with e | result
  · exact hrest
  · cases result with
    | none => exact hrest
    | some result => exact hcheck

/-- Between two keys a pass spares every key: it looks before it imports. -/
theorem spares_importRest (config : Config) (ks : List SessionKey) (key : String) :
    Spares key (importRest config ks) := by
  induction ks with
  | nil => exact spares_ended rfl
  | cons k ks ih =>
    rw [importRest_cons]
    split
    · exact spares_ended rfl
    refine (spares_await _ _).mpr fun r => ?_
    cases r with
    | error e => exact spares_ended rfl
    | ok a =>
      intro s hs
      show wp _ _ (if s.importedKeys.contains (config.keyOf k) then _ else _) _ _
      split
      · exact ih s hs
      · next hmissing =>
        have hkey : key ≠ config.keyOf k := by
          intro heq
          rw [heq] at hs
          exact hmissing (by simpa using hs)
        exact spares_insertKey hkey ih s hs

theorem spares_polkadotKeysImport (config : Config) (key : String) :
    Spares key (polkadotKeysImport config) := by
  rw [polkadotKeysImport_tree]
  intro s hs
  show wp _ _ (if s.importedKeys.length ≥ 6 then _ else _) _ _
  split
  · trivial
  · intro r s' hs'
    cases r with
    | error e => trivial
    | ok a => exact spares_importRest config config.sessionKeys key s' hs'

end Spares

/-! ### What a block does to the list -/

/-- The block leaves the list as it is, or it adds a key that the pass is
importing and is done with that key. -/
def Orderly (m : Method Bool) : Prop :=
  ∀ s, (m.turn s).2.importedKeys = s.importedKeys ∨
    ∃ key, (m.turn s).2.importedKeys = s.importedKeys ++ [key] ∧ ¬ Spares key m ∧
      Spares key (m.turn s).1

theorem orderly_suspended (m : Method Bool) (hm : m.suspended = true) : Orderly m := by
  intro s
  rw [turn_of_suspended hm]
  exact .inl rfl

section Orderly
variable (config : Config) (k : SessionKey) (ks : List SessionKey)

theorem not_spares_pushKey : ¬ Spares (config.keyOf k) (pushKey config k ks) := by
  intro h
  have hcount := (h { importedKeys := [config.keyOf k] } (List.mem_singleton_self _)).1
  simp [sparing] at hcount

theorem orderly_pushKey : Orderly (pushKey config k ks) := by
  intro s
  have hturn : ((pushKey config k ks).turn s) =
      (importRest config ks, { s with importedKeys := s.importedKeys ++ [config.keyOf k] }) :=
    turn_of_suspended (suspended_importRest config ks) _
  rw [hturn]
  exact .inr ⟨_, rfl, not_spares_pushKey config k ks, spares_importRest config ks _⟩

theorem orderly_importRest : Orderly (importRest config ks) :=
  orderly_suspended _ (suspended_importRest config ks)

variable {config k ks}

theorem blocks_checkSession (hrest : Blocks Orderly (importRest config ks)) :
    Orderly (checkSession config k ks) ∧ Blocks Orderly (checkSession config k ks) := by
  have hpush : Blocks Orderly (pushKey config k ks) := fun _ => hrest
  unfold checkSession
  split
  · exact ⟨orderly_pushKey config k ks, hpush⟩
  · exact ⟨orderly_suspended _ rfl, fun _ => ⟨orderly_pushKey config k ks, hpush⟩⟩

theorem blocks_checkKey (hrest : Blocks Orderly (importRest config ks)) :
    Blocks Orderly (checkKey config k ks) := by
  intro r
  rcases r with e | result
  · exact ⟨orderly_suspended _ rfl, trivial⟩
  · cases result with
    | none => exact ⟨orderly_importRest config ks, hrest⟩
    | some result =>
      dsimp only
      split
      · exact blocks_checkSession hrest
      · exact ⟨orderly_importRest config ks, hrest⟩

theorem blocks_insertKey (hrest : Blocks Orderly (importRest config ks)) :
    Blocks Orderly (insertKey config k ks) := by
  intro r
  rcases r with e | result
  · exact ⟨orderly_importRest config ks, hrest⟩
  · cases result with
    | none => exact ⟨orderly_importRest config ks, hrest⟩
    | some result => exact ⟨orderly_suspended _ rfl, blocks_checkKey hrest⟩

theorem orderly_findKey : Orderly (findKey config k ks) := by
  intro s
  have hsuspended : (if s.importedKeys.contains (config.keyOf k) then importRest config ks
      else insertKey config k ks).suspended = true := by
    split
    · exact suspended_importRest config ks
    · rfl
  have hturn : (findKey config k ks).turn s = _ := turn_of_suspended hsuspended s
  rw [hturn]
  exact .inl rfl

theorem blocks_importRest (config : Config) (ks : List SessionKey) :
    Blocks Orderly (importRest config ks) := by
  induction ks with
  | nil => trivial
  | cons k ks ih =>
    rw [importRest_cons]
    split
    · trivial
    intro r
    cases r with
    | error e => exact ⟨orderly_suspended _ rfl, trivial⟩
    | ok a =>
      refine ⟨orderly_findKey, fun s => ?_⟩
      dsimp only
      split
      · exact ih
      · exact blocks_insertKey ih

theorem orderly_polkadotKeysImport (config : Config) :
    Orderly (polkadotKeysImport config) ∧ Blocks Orderly (polkadotKeysImport config) := by
  rw [polkadotKeysImport_tree]
  constructor
  · intro s
    refine .inl ?_
    show (Async.turn (if s.importedKeys.length ≥ 6 then _ else _) s).2.importedKeys = _
    split <;> rfl
  · intro s
    dsimp only
    split
    · trivial
    · intro r
      cases r with
      | error e => exact ⟨orderly_suspended _ rfl, trivial⟩
      | ok a =>
        exact ⟨orderly_importRest config config.sessionKeys,
          blocks_importRest config config.sessionKeys⟩

end Orderly

/-! ### Confirmed keys -/

/-- The answer of `author_hasKey` that `checkKeyAdded` takes for a yes. -/
def Confirms (method : String) (r : Except String (Option String)) : Prop :=
  method = "author_hasKey" ∧
    ∃ result, r = .ok (some result) ∧ includes result "true" = true

/-- The keystore entry that a call of `author_hasKey` asks for. -/
def askedFor : List String → List (String × String)
  | [key, keyType] => [(keyType, key)]
  | _ => []

/-- Any call may fail or answer anything. The world is the list of the keystore
entries confirmed so far. -/
def confirming : Env Docker.api String (List (String × String))
  | .post method params, w, r, w' =>
    (Confirms method r ∧ w' = w ++ askedFor params) ∨ (¬ Confirms method r ∧ w' = w)
  | _, w, _, w' => w' = w

theorem confirming_subset {c : Docker.Call} {w w' : List (String × String)}
    {r : Except String (Docker.api.Ret c)} (h : confirming c w r w') : w ⊆ w' := by
  cases c with
  | post method params =>
    rcases h with ⟨_, hw⟩ | ⟨_, hw⟩
    · rw [hw]
      exact List.subset_append_left _ _
    · rw [hw]
      exact List.Subset.refl w
  | listContainers nameOrId | inspectContainer nameOrId id | createContainer data
  | startContainer nameOrId id | stopContainer nameOrId id | removeContainer nameOrId id
  | inspectImage name | pull name | inspectVolume name | createVolume name | setTimeout ms
  | cryptoWaitReady =>
    have hw : w' = w := h
    rw [hw]
    exact List.Subset.refl w

/-- Each key of the list is a session key that was confirmed with its type. -/
def Confirmed (config : Config) (x : State × List (String × String)) : Prop :=
  ∀ key ∈ x.1.importedKeys, ∃ k ∈ config.sessionKeys, config.keyOf k = key ∧ config.entry k ∈ x.2

structure Keeps (config : Config) (x y : State × List (String × String)) : Prop where
  confirmed : x.2 ⊆ y.2
  listed : Confirmed config x → Confirmed config y

theorem Keeps.refl {config : Config} (x : State × List (String × String)) : Keeps config x x :=
  ⟨List.Subset.refl _, id⟩

theorem Keeps.trans {config : Config} (x y z : State × List (String × String))
    (h : Keeps config x y) (h' : Keeps config y z) : Keeps config x z :=
  ⟨List.Subset.trans h.confirmed h'.confirmed, h'.listed ∘ h.listed⟩

theorem Keeps.of_subset {config : Config} {x y : State × List (String × String)}
    (hkeys : y.1.importedKeys = x.1.importedKeys) (hsub : x.2 ⊆ y.2) : Keeps config x y := by
  refine ⟨hsub, fun hx key hkey => ?_⟩
  rw [hkeys] at hkey
  obtain ⟨k, hk, heq, hentry⟩ := hx key hkey
  exact ⟨k, hk, heq, hsub hentry⟩

/-- What is left of a pass adds only confirmed keys, whatever the others do. -/
abbrev Honest (config : Config) (m : Method Bool) (x : State × List (String × String)) : Prop :=
  wp (shielded (Keeps config) (Keeps config) confirming) (Keeps config) m (fun _ _ => True) x

theorem honest_await {config : Config} {c : Docker.Call}
    {k : Except String (Docker.api.Ret c) → Method Bool} {x : State × List (String × String)}
    (h : ∀ r w w', x.2 ⊆ w → confirming c w r w' → ∀ y, w' ⊆ y.2 → Honest config (k r) y) :
    Honest config (.await c k) x := by
  intro y hxy r w hr
  refine ⟨.of_subset rfl (confirming_subset hr), fun z hyz => ?_⟩
  exact h r y.2 w hxy.confirmed hr z hyz.confirmed

section Honest
variable {config : Config} {k : SessionKey} {ks : List SessionKey}

theorem honest_pushKey (hk : k ∈ config.sessionKeys) {x : State × List (String × String)}
    (hentry : config.entry k ∈ x.2) (hrest : ∀ y, Honest config (importRest config ks) y) :
    Honest config (pushKey config k ks) x := by
  refine ⟨⟨List.Subset.refl _, fun hx key hkey => ?_⟩, hrest _⟩
  rcases List.mem_append.mp hkey with hold | hnew
  · exact hx key hold
  · exact ⟨k, hk, (List.mem_singleton.mp hnew).symm, hentry⟩

theorem honest_checkSession (hk : k ∈ config.sessionKeys) {x : State × List (String × String)}
    (hentry : config.entry k ∈ x.2) (hrest : ∀ y, Honest config (importRest config ks) y) :
    Honest config (checkSession config k ks) x := by
  unfold checkSession
  split
  · exact honest_pushKey hk hentry hrest
  · refine honest_await fun r w w' hw hr y hy => ?_
    exact honest_pushKey hk (hy (confirming_subset hr (hw hentry))) hrest

theorem honest_checkKey (hk : k ∈ config.sessionKeys)
    (hrest : ∀ y, Honest config (importRest config ks) y) (x : State × List (String × String)) :
    Honest config (checkKey config k ks) x := by
  refine honest_await fun r w w' _ hr y hy => ?_
  rcases r with e | result
  · trivial
  · cases result with
    | none => exact hrest y
    | some result =>
      dsimp only
      split
      · next hresult =>
        rcases hr with ⟨_, hw'⟩ | ⟨hno, _⟩
        · refine honest_checkSession hk (hy ?_) hrest
          rw [hw']
          exact List.mem_append_right _ (List.mem_singleton_self _)
        · exact absurd ⟨rfl, result, rfl, hresult⟩ hno
      · exact hrest y

theorem honest_importRest (config : Config) (ks : List SessionKey) (hks : ks ⊆ config.sessionKeys)
    (x : State × List (String × String)) : Honest config (importRest config ks) x := by
  induction ks generalizing x with
  | nil => trivial
  | cons k ks ih =>
    have hk : k ∈ config.sessionKeys := hks (List.mem_cons_self ..)
    have hrest := ih fun k' hk' => hks (List.mem_cons_of_mem k hk')
    rw [importRest_cons]
    split
    · trivial
    refine honest_await fun r w w' _ _ y _ => ?_
    cases r with
    | error e => trivial
    | ok a =>
      show Honest config (if y.1.importedKeys.contains (config.keyOf k) then _ else _) y
      split
      · exact hrest y
      refine honest_await fun r w w' _ _ z _ => ?_
      rcases r with e | result
      · exact hrest z
      · cases result with
        | none => exact hrest z
        | some result => exact honest_checkKey hk hrest z

theorem honest_polkadotKeysImport (config : Config) (x : State × List (String × String)) :
    Honest config (polkadotKeysImport config) x := by
  rw [polkadotKeysImport_tree]
  show Honest config (if x.1.importedKeys.length ≥ 6 then _ else _) x
  split
  · trivial
  refine honest_await fun r w w' _ _ y _ => ?_
  cases r with
  | error e => trivial
  | ok a => exact honest_importRest config config.sessionKeys (List.Subset.refl _) y

end Honest

/-! ### Any number of passes -/

/-- Passes are launched at any time. The rest of the service may change the
other fields. -/
def passes (config : Config) :
    System Docker.api State String Bool (List (String × String)) Unit where
  code _ := polkadotKeysImport config
  launches _ _ := True
  env _ := confirming
  world x y := y.1.importedKeys = x.1.importedKeys ∧ y.2 = x.2

abbrev Passes := Pool Docker.api State String Bool (List (String × String)) Unit

/-- No two passes are importing one key. -/
def OneImporter (p : Passes) : Prop :=
  p.flows.Pairwise fun f g => ∀ key, Spares key f.2 ∨ Spares key g.2

structure Tidy (config : Config) (p : Passes) : Prop where
  nodup : p.shared.1.importedKeys.Nodup
  confirmed : Confirmed config p.shared
  spares : ∀ f ∈ p.flows, ∀ key ∈ p.shared.1.importedKeys, Spares key f.2
  orderly : ∀ f ∈ p.flows, Orderly f.2 ∧ Blocks Orderly f.2
  honest : ∀ f ∈ p.flows, Promises (Keeps config) (Keeps config) confirming f.2
    (fun _ _ => True) p.shared

/-- The other passes spare a key that one pass is importing. -/
theorem OneImporter.others {x : State × List (String × String)}
    {pre post : List (Unit × Method Bool)} {f : Unit × Method Bool}
    (h : OneImporter ⟨x, pre ++ f :: post⟩) {key : String} (hf : ¬ Spares key f.2)
    {g : Unit × Method Bool} (hg : g ∈ pre ∨ g ∈ post) : Spares key g.2 := by
  obtain ⟨-, hcons, hcross⟩ := List.pairwise_append.mp h
  rcases hg with hg | hg
  · rcases hcross g hg f (List.mem_cons_self ..) key with hs | hs
    · exact hs
    · exact absurd hs hf
  · rcases (List.pairwise_cons.mp hcons).1 g hg key with hs | hs
    · exact absurd hs hf
    · exact hs

/-- A step of a pass leaves the list, or adds a key that the list misses and
that the pass is importing. -/
theorem pass_step {m m' : Method Bool} {x y : State × List (String × String)} (hm : Orderly m)
    (hspares : ∀ key ∈ x.1.importedKeys, Spares key m) (h : Async.Step confirming m x m' y) :
    (∀ key ∈ y.1.importedKeys, Spares key m') ∧
      (y.1.importedKeys = x.1.importedKeys ∨ ∃ key, key ∉ x.1.importedKeys ∧ ¬ Spares key m ∧
        y.1.importedKeys = x.1.importedKeys ++ [key]) := by
  cases h with
  | serve hr => exact ⟨fun key hkey => (spares_await _ _).mp (hspares key hkey) _, .inl rfl⟩
  | @turn m s w hs =>
    rcases hm s with hsame | ⟨key, hpush, himporting, hdone⟩
    · refine ⟨fun key hkey => ?_, .inl hsame⟩
      have hold : key ∈ s.importedKeys := hsame ▸ hkey
      exact (spares_turn (hspares key hold) hold).2
    · refine ⟨fun key' hkey' => ?_, .inr ⟨key, ?_, himporting, hpush⟩⟩
      · have hkey : key' ∈ s.importedKeys ++ [key] := hpush ▸ hkey'
        rcases List.mem_append.mp hkey with hold | hnew
        · exact (spares_turn (hspares key' hold) hold).2
        · rw [List.mem_singleton.mp hnew]
          exact hdone
      · intro hold
        exact himporting (hspares key hold)

theorem tidy_launch {config : Config} {p : Passes} (hp : Tidy config p) :
    Tidy config ⟨p.shared, p.flows ++ [((), polkadotKeysImport config)]⟩ := by
  have hflow : ∀ f ∈ p.flows ++ [((), polkadotKeysImport config)],
      f ∈ p.flows ∨ f.2 = polkadotKeysImport config := by
    intro f hf
    rcases List.mem_append.mp hf with hf | hf
    · exact .inl hf
    · rw [List.mem_singleton.mp hf]
      exact .inr rfl
  refine ⟨hp.nodup, hp.confirmed, fun f hf key hkey => ?_, fun f hf => ?_, fun f hf => ?_⟩
  · rcases hflow f hf with hf | hf
    · exact hp.spares f hf key hkey
    · rw [hf]
      exact spares_polkadotKeysImport config key
  · rcases hflow f hf with hf | hf
    · exact hp.orderly f hf
    · rw [hf]
      exact orderly_polkadotKeysImport config
  · rcases hflow f hf with hf | hf
    · exact hp.honest f hf
    · rw [hf]
      exact fun y _ => honest_polkadotKeysImport config y

theorem tidy_flow {config : Config} {x y : State × List (String × String)}
    {pre post : List (Unit × Method Bool)} {t : Unit} {m m' : Method Bool}
    (hp : Tidy config ⟨x, pre ++ (t, m) :: post⟩) (hone : OneImporter ⟨x, pre ++ (t, m) :: post⟩)
    (h : Async.Step confirming m x m' y) : Tidy config ⟨y, pre ++ (t, m') :: post⟩ := by
  have hmem : (t, m) ∈ pre ++ (t, m) :: post := List.mem_append_right _ (List.mem_cons_self ..)
  obtain ⟨hkeeps, hhonest⟩ := promises_step Keeps.refl Keeps.trans Keeps.refl Keeps.trans
    (fun _ _ _ _ _ => trivial) (hp.honest _ hmem) h
  obtain ⟨hself, hlist⟩ := pass_step (hp.orderly _ hmem).1 (hp.spares _ hmem) h
  have hother : ∀ f ∈ pre ++ post, f ∈ pre ++ (t, m) :: post := by
    intro f hf
    rcases List.mem_append.mp hf with hf | hf
    · exact List.mem_append_left _ hf
    · exact List.mem_append_right _ (List.mem_cons_of_mem _ hf)
  have hflow : ∀ f ∈ pre ++ (t, m') :: post, f = (t, m') ∨ f ∈ pre ++ post := by
    intro f hf
    rcases List.mem_append.mp hf with hf | hf
    · exact .inr (List.mem_append_left _ hf)
    · rcases List.mem_cons.mp hf with hf | hf
      · exact .inl hf
      · exact .inr (List.mem_append_right _ hf)
  refine ⟨?_, hkeeps.listed hp.confirmed, fun f hf key hkey => ?_, fun f hf => ?_, fun f hf => ?_⟩
  · rcases hlist with hsame | ⟨key, hmissing, _, hpush⟩
    · show y.1.importedKeys.Nodup
      rw [hsame]
      exact hp.nodup
    · show y.1.importedKeys.Nodup
      rw [hpush]
      refine List.nodup_append.mpr ⟨hp.nodup, List.nodup_singleton key, ?_⟩
      intro a ha b hb heq
      rw [heq, List.mem_singleton.mp hb] at ha
      exact hmissing ha
  · rcases hflow f hf with hf | hf
    · rw [hf]
      exact hself key hkey
    · rcases hlist with hsame | ⟨key', _, himporting, hpush⟩
      · exact hp.spares f (hother f hf) key (hsame ▸ hkey)
      · have hkey' : key ∈ x.1.importedKeys ++ [key'] := hpush ▸ hkey
        rcases List.mem_append.mp hkey' with hold | hnew
        · exact hp.spares f (hother f hf) key hold
        · rw [List.mem_singleton.mp hnew]
          exact hone.others himporting (List.mem_append.mp hf)
  · rcases hflow f hf with hf | hf
    · rw [hf]
      exact blocks_step orderly_suspended (hp.orderly _ hmem).2 h
    · exact hp.orderly f (hother f hf)
  · rcases hflow f hf with hf | hf
    · rw [hf]
      exact hhonest
    · exact promises_rely Keeps.trans (hp.honest f (hother f hf)) hkeeps

theorem tidy_step {config : Config} {p q : Passes} (hp : Tidy config p) (hone : OneImporter p)
    (h : (passes config).Step p q) : Tidy config q := by
  cases h with
  | launch t _ => exact tidy_launch hp
  | flow h => exact tidy_flow hp hone h
  | @world x y fs h =>
    obtain ⟨hkeys, hw⟩ := h
    have hkeeps : Keeps config x y := .of_subset hkeys (by rw [hw]; exact List.Subset.refl _)
    refine ⟨?_, hkeeps.listed hp.confirmed, fun f hf key hkey => ?_, hp.orderly, fun f hf => ?_⟩
    · show y.1.importedKeys.Nodup
      rw [hkeys]
      exact hp.nodup
    · exact hp.spares f hf key (hkeys ▸ hkey)
    · exact promises_rely Keeps.trans (hp.honest f hf) hkeeps

/-- Six different keys of the list are the six session keys. -/
theorem confirmed_all {config : Config} {x : State × List (String × String)}
    (hnodup : x.1.importedKeys.Nodup) (hconfirmed : Confirmed config x)
    (hlen : 6 ≤ x.1.importedKeys.length) : ∀ k ∈ config.sessionKeys, config.entry k ∈ x.2 := by
  have hsub : x.1.importedKeys ⊆ config.sessionKeys.map config.keyOf := by
    intro key hkey
    obtain ⟨k, hk, heq, -⟩ := hconfirmed key hkey
    exact List.mem_map.mpr ⟨k, hk, heq⟩
  have hperm : x.1.importedKeys.Perm (config.sessionKeys.map config.keyOf) :=
    (hnodup.subperm hsub).perm_of_length_le (by simpa [Config.sessionKeys] using hlen)
  intro k hk
  obtain ⟨k', hk', heq, hentry⟩ :=
    hconfirmed (config.keyOf k) (hperm.mem_iff.mpr (List.mem_map_of_mem hk))
  have hsame : k' = k := List.inj_on_of_nodup_map (hperm.nodup_iff.mp hnodup) hk' hk heq
  rw [← hsame]
  exact hentry

/-- While no two passes are importing one key, the list has no key twice, and
six entries mean that all six keys are confirmed. -/
theorem passes_tidy (config : Config) {s : State} (hs : s.importedKeys = []) {p : Passes}
    (hp : (passes config).ReachableWithin OneImporter (s, []) p) :
    p.shared.1.importedKeys.Nodup ∧ (6 ≤ p.shared.1.importedKeys.length →
      ∀ k ∈ config.sessionKeys, config.entry k ∈ p.shared.2) := by
  have hinit : Tidy config ⟨(s, []), []⟩ := by
    refine ⟨?_, ?_, ?_, ?_, ?_⟩
    · simp [hs]
    · intro key hkey
      rw [hs] at hkey
      cases hkey
    · intro f hf
      cases hf
    · intro f hf
      cases hf
    · intro f hf
      cases hf
  have htidy : Tidy config p :=
    System.reachableWithin_invariant hp hinit .nil fun _ _ => tidy_step
  exact ⟨htidy.nodup, confirmed_all htidy.nodup htidy.confirmed⟩

/-! ### A service that confirms every key -/

instance (config : Config) (t : Unit) (fs : List (Unit × Method Bool)) :
    Decidable ((passes config).launches t fs) := inferInstanceAs (Decidable True)

/-- A service that takes and confirms every key. -/
def confirmAll : Answers Docker.api String (List (String × String))
  | .post method params, w =>
    (.ok (some "true"), if method = "author_hasKey" then w ++ askedFor params else w)
  | .setTimeout _, w => (.ok (), w)
  | .cryptoWaitReady, w => (.ok (), w)
  | _, w => (.error "", w)

theorem confirmAll_confirming (c : Docker.Call) (w : List (String × String)) :
    confirming c w (confirmAll c w).1 (confirmAll c w).2 := by
  cases c with
  | post method params =>
    by_cases hmethod : method = "author_hasKey"
    · exact .inl ⟨⟨hmethod, "true", rfl, by decide⟩, if_pos hmethod⟩
    · exact .inr ⟨fun h => hmethod h.1, if_neg hmethod⟩
  | listContainers nameOrId | inspectContainer nameOrId id | createContainer data
  | startContainer nameOrId id | stopContainer nameOrId id | removeContainer nameOrId id
  | inspectImage name | pull name | inspectVolume name | createVolume name | setTimeout ms
  | cryptoWaitReady => rfl

/-! ### Two passes one after the other -/

/-- A pass that has come to its first await has not looked for a key yet. -/
theorem spares_turned (config : Config) (s : State) (key : String) :
    Spares key ((polkadotKeysImport config).turn s).1 := by
  rw [polkadotKeysImport_tree]
  show Spares key (turn (if s.importedKeys.length ≥ 6 then _ else _) s).1
  split
  · exact spares_ended rfl
  · refine (spares_await _ _).mpr fun r => ?_
    cases r with
    | error e => exact spares_ended rfl
    | ok a => exact spares_importRest config config.sessionKeys key

def confirm : Script Docker.api String (List (String × String)) := fun c w => some (confirmAll c w)

theorem confirm_confirming (c : Docker.Call) (w : List (String × String))
    (r : Except String c.Ret) (w' : List (String × String)) (h : confirm c w = some (r, w')) :
    confirming c w r w' := by
  have hc := confirmAll_confirming c w
  rw [Option.some.inj h] at hc
  exact hc

/-- The second pass awaits its delay. -/
def delayed : Method Bool := ((polkadotKeysImport plainConfig).turn {}).1

/-- The first pass imports the six keys. -/
def passed : Method Bool × (State × List (String × String)) :=
  (advance confirm 19 (polkadotKeysImport plainConfig) ({}, [])).get (by decide +kernel)

/-- Then the second pass finds each key in the list. -/
def passedAgain : Method Bool × (State × List (String × String)) :=
  (advance confirm 7 delayed passed.2).get (by decide +kernel)

def bothPassed : Passes := ⟨passedAgain.2, [((), passed.1), ((), passedAgain.1)]⟩

abbrev Within (p q : Passes) : Prop :=
  Relation.ReflTransGen (fun p q => (passes plainConfig).Step p q ∧ OneImporter q) p q

theorem bothPassed_reachable : Within ⟨({}, []), []⟩ bothPassed := by
  have hpassed : Steps confirming (polkadotKeysImport plainConfig, ({}, [])) passed :=
    advance_steps confirm_confirming (Option.some_get _).symm
  have hagain : Steps confirming (delayed, passed.2) passedAgain :=
    advance_steps confirm_confirming (Option.some_get _).symm
  have hended : passed.1.ended = true := by decide +kernel
  have hunstarted : ∀ m (y : State × List (String × String)),
      OneImporter ⟨y, [((), polkadotKeysImport plainConfig), ((), m)]⟩ := by
    intro m y
    exact List.pairwise_pair.mpr fun key => .inl (spares_polkadotKeysImport plainConfig key)
  have hdelayed : ∀ m (y : State × List (String × String)),
      OneImporter ⟨y, [((), m), ((), delayed)]⟩ := by
    intro m y
    exact List.pairwise_pair.mpr fun key => .inr (spares_turned plainConfig {} key)
  have hdone : ∀ m (y : State × List (String × String)),
      OneImporter ⟨y, [((), passed.1), ((), m)]⟩ := by
    intro m y
    exact List.pairwise_pair.mpr fun key => .inl (spares_ended hended)
  have hfirst : Within ⟨({}, []), []⟩ ⟨({}, []), [((), polkadotKeysImport plainConfig)]⟩ :=
    .single ⟨.launch () trivial, List.pairwise_singleton ..⟩
  have hsecond : Within ⟨({}, []), [((), polkadotKeysImport plainConfig)]⟩
      ⟨({}, []), [((), polkadotKeysImport plainConfig), ((), polkadotKeysImport plainConfig)]⟩ :=
    .single ⟨.launch () trivial, hunstarted ..⟩
  have hturn : Within
      ⟨({}, []), [((), polkadotKeysImport plainConfig), ((), polkadotKeysImport plainConfig)]⟩
      ⟨({}, []), [((), polkadotKeysImport plainConfig), ((), delayed)]⟩ :=
    System.steps_flow_within [((), polkadotKeysImport plainConfig)] [] hunstarted
      (steps_turn confirming (polkadotKeysImport plainConfig) ({}, []))
  have himport : Within ⟨({}, []), [((), polkadotKeysImport plainConfig), ((), delayed)]⟩
      ⟨passed.2, [((), passed.1), ((), delayed)]⟩ :=
    System.steps_flow_within [] [((), delayed)] hdelayed hpassed
  have hlook : Within ⟨passed.2, [((), passed.1), ((), delayed)]⟩ bothPassed :=
    System.steps_flow_within [((), passed.1)] [] hdone hagain
  exact (hfirst.trans hsecond).trans (hturn.trans (himport.trans hlook))

theorem passes_tidy_both :
    bothPassed.flows.map (fun f => f.2.ended) = [true, true] ∧
    bothPassed.shared.1.importedKeys = ["gran", "babe", "imon", "para", "asgn", "audi"] ∧
    bothPassed.shared.1.importedKeys.Nodup ∧
    ∀ k ∈ plainConfig.sessionKeys, plainConfig.entry k ∈ bothPassed.shared.2 := by
  have hkeys : bothPassed.shared.1.importedKeys =
      ["gran", "babe", "imon", "para", "asgn", "audi"] := by decide +kernel
  obtain ⟨hnodup, hall⟩ := passes_tidy plainConfig rfl bothPassed_reachable
  exact ⟨by decide +kernel, hkeys, hnodup, hall (by rw [hkeys]; decide)⟩

/-! ### Two passes that import one key -/

def moves (i n : ℕ) : List (Move Unit Unit) :=
  (List.replicate n [.serve i (), .turn i]).flatten

/-- Both passes find the key of the type gran missing; the first imports the
five keys before audi, then the second adds its first key. -/
def twoPasses : List (Move Unit Unit) :=
  [.launch (), .turn 0, .launch (), .turn 1] ++ moves 0 2 ++ moves 1 2 ++ moves 0 14 ++
    moves 1 2

def twicePassed : Passes :=
  Pool.play (passes plainConfig) (fun _ => confirmAll) ⟨({}, []), []⟩ twoPasses

theorem twicePassed_reachable : (passes plainConfig).Reachable ({}, []) twicePassed :=
  Pool.play_steps (fun _ _ => confirmAll_confirming) twoPasses _

/-- The list has six entries, one of them twice, and one of the keys was never
confirmed. -/
theorem six_entries_five_keys : ¬ ∀ (config : Config) (s : State) (p : Passes),
    config.DistinctKeys → s.importedKeys = [] → (passes config).Reachable (s, []) p →
    p.shared.1.importedKeys.Nodup ∧ (6 ≤ p.shared.1.importedKeys.length →
      ∀ k ∈ config.sessionKeys, config.entry k ∈ p.shared.2) := by
  intro hall
  have hdistinct : plainConfig.DistinctKeys := by
    unfold Config.DistinctKeys
    decide
  have hkeys : 6 ≤ twicePassed.shared.1.importedKeys.length ∧
      ("audi", "audi") ∉ twicePassed.shared.2 := by
    decide +kernel
  have hsix := (hall plainConfig {} twicePassed hdistinct rfl twicePassed_reachable).2 hkeys.1
  exact hkeys.2 (hsix ⟨"audi", .sr25519, "audi"⟩ (by simp [Config.sessionKeys, plainConfig]))

end Archipel.Polkadot
