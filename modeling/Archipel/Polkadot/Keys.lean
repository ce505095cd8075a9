import Archipel.Polkadot.Flows

/-!
# One pass over the session keys

A pass of `polkadotKeysImport` takes the six session keys in turn. It skips a
key whose public key is in the list of imported keys, whatever type it was
imported with, while the keystore holds a key for each type.
-/

namespace Archipel.Polkadot
open Async Docker Utils

structure SessionKey where
  mnemonic : String
  crypto : Crypto
  type : String

def Config.sessionKeys (config : Config) : List SessionKey :=
  [⟨config.polkadotKeyGran, .ed25519, "gran"⟩, ⟨config.polkadotKeyBabe, .sr25519, "babe"⟩,
    ⟨config.polkadotKeyImon, .sr25519, "imon"⟩, ⟨config.polkadotKeyPara, .sr25519, "para"⟩,
    ⟨config.polkadotKeyAsgn, .sr25519, "asgn"⟩, ⟨config.polkadotKeyAudi, .sr25519, "audi"⟩]

/-- The public key that the pass imports for a session key. -/
def Config.keyOf (config : Config) (k : SessionKey) : String :=
  config.publicKey k.mnemonic k.crypto

/-- The entry of a session key in the keystore. -/
def Config.entry (config : Config) (k : SessionKey) : String × String := (k.type, config.keyOf k)

/-- The configuration code refuses an empty mnemonic. -/
def Config.Accepted (config : Config) : Prop := ∀ k ∈ config.sessionKeys, k.mnemonic ≠ ""

def importKeys (config : Config) : List SessionKey → Method Unit
  | [] => pure ()
  | k :: ks => do
    let _ ← importKey config k.mnemonic k.crypto k.type
    importKeys config ks

/-- What a pass does with the keys that are left. -/
def importRest (config : Config) (ks : List SessionKey) : Method Bool :=
  try
    importKeys config ks
    pure true
  catch _ => pure false

theorem polkadotKeysImport_eq (config : Config) : polkadotKeysImport config =
    (try
      let s ← get
      if s.importedKeys.length ≥ 6 then
        pure false
      else do
        let _ ← request (.setTimeout s.importedKeysDelay)
        importKeys config config.sessionKeys
        pure true
    catch _ => pure false) := by
  unfold polkadotKeysImport Config.sessionKeys
  simp only [importKeys, bind_assoc, pure_bind]

/-! ### A keystore that works -/

/-- The pair that a call of `author_insertKey` inserts. -/
def insertedBy : List String → List (String × String)
  | [type, _, publicKey] => [(type, publicKey)]
  | _ => []

/-- Every call of a pass succeeds. The world is the list of the pairs inserted
so far, and `author_hasKey` answers whether a pair is one of them. -/
def keystore : Env Docker.api String (List (String × String))
  | .post method params, w, r, w' =>
    (∃ result : String, r = .ok (some result) ∧ (method = "author_hasKey" →
      ∀ key keyType, params = [key, keyType] →
        (includes result "true" = true ↔ (keyType, key) ∈ w))) ∧
      w' = if method = "author_insertKey" then w ++ insertedBy params else w
  | .setTimeout _, w, r, w' => r = .ok () ∧ w' = w
  | .cryptoWaitReady, w, r, w' => r = .ok () ∧ w' = w
  | _, w, _, w' => w' = w

theorem keystore_total : keystore.Total := by
  intro c w
  cases c with
  | post method params =>
    by_cases hmem : ∃ key keyType, params = [key, keyType] ∧ (keyType, key) ∈ w
    · obtain ⟨key, keyType, hparams, hw⟩ := hmem
      refine ⟨.ok (some "true"), _, ⟨"true", rfl, ?_⟩, rfl⟩
      intro _ key' keyType' hparams'
      rw [hparams] at hparams'
      cases hparams'
      exact ⟨fun _ => hw, fun _ => by decide⟩
    · refine ⟨.ok (some "false"), _, ⟨"false", rfl, ?_⟩, rfl⟩
      intro _ key keyType hparams
      exact ⟨fun h => absurd h (by decide), fun h => absurd ⟨key, keyType, hparams, h⟩ hmem⟩
  | setTimeout ms | cryptoWaitReady => exact ⟨.ok (), w, rfl, rfl⟩
  | listContainers nameOrId | inspectContainer nameOrId id | createContainer data
  | startContainer nameOrId id | stopContainer nameOrId id | removeContainer nameOrId id
  | inspectImage name | pull name | inspectVolume name | createVolume name =>
    exact ⟨.error "", w, rfl⟩

abbrev Clean {α : Type} (m : Method α)
    (Q : Except String α → State × List (String × String) → Prop)
    (x : State × List (String × String)) : Prop := wp (demonic keystore) free m Q x

theorem clean_checkKeyAdded {key keyType : String} {x : State × List (String × String)}
    (hx : (keyType, key) ∈ x.2) :
    Clean (checkKeyAdded key keyType) (fun out y => out = .ok true ∧ y = x) x := by
  unfold Clean checkKeyAdded
  rw [wp_bind, wp_call]
  intro r w ⟨⟨result, hr, hresult⟩, hw⟩
  rw [hr, hw]
  dsimp only
  have htrue := (hresult rfl key keyType rfl).mpr hx
  rw [htrue]
  exact ⟨rfl, rfl⟩

theorem clean_checkSessionKeysOnNode (config : Config) (x : State × List (String × String)) :
    Clean (checkSessionKeysOnNode config) (fun out y => (∃ b, out = .ok b) ∧ y = x) x := by
  unfold Clean checkSessionKeysOnNode
  rw [wp_tryCatch]
  split
  · exact ⟨⟨false, rfl⟩, rfl⟩
  · rw [wp_bind, wp_call]
    intro r w ⟨⟨result, hr, _⟩, hw⟩
    rw [hr, hw]
    exact ⟨⟨_, rfl⟩, rfl⟩

/-- What the list and the keystore become when a key is taken. -/
def Config.install (config : Config) (k : SessionKey)
    (x : List String × List (String × String)) : List String × List (String × String) :=
  if config.keyOf k ∈ x.1 then x else (x.1 ++ [config.keyOf k], x.2 ++ [config.entry k])

theorem clean_importKey (config : Config) {k : SessionKey} (hk : k.mnemonic ≠ "")
    (x : State × List (String × String)) :
    Clean (importKey config k.mnemonic k.crypto k.type) (fun out y => (∃ b, out = .ok b) ∧
      (y.1.importedKeys, y.2) = config.install k (x.1.importedKeys, x.2)) x := by
  have hseed : ¬ (k.mnemonic == "") = true := by simpa using hk
  unfold Clean importKey
  rw [if_neg hseed, wp_bind, wp_call]
  intro r w ⟨hr, hw⟩
  rw [hr, hw]
  dsimp only
  rw [wp_get_bind]
  by_cases hmem : config.keyOf k ∈ x.1.importedKeys
  · have hcontains : x.1.importedKeys.contains (config.publicKey k.mnemonic k.crypto) = true := by
      simpa [Config.keyOf] using hmem
    rw [if_pos hcontains, Config.install, if_pos hmem]
    exact ⟨⟨false, rfl⟩, rfl⟩
  · have hcontains : ¬ x.1.importedKeys.contains (config.publicKey k.mnemonic k.crypto) = true := by
      simpa [Config.keyOf] using hmem
    rw [if_neg hcontains, Config.install, if_neg hmem, wp_bind, wp_tryCatch, wp_call]
    intro r w ⟨⟨result, hr, _⟩, hw⟩
    rw [hr, hw]
    dsimp only
    have hadded : (k.type, config.publicKey k.mnemonic k.crypto) ∈
        x.2 ++ [(k.type, config.publicKey k.mnemonic k.crypto)] := by simp
    refine wp_seq (demonic_mono keystore) _ _ _ (clean_checkKeyAdded hadded) ?_ ?_
    · intro keyAdded y ⟨hkeyAdded, hy⟩
      cases hkeyAdded
      rw [hy]
      refine wp_seq (demonic_mono keystore) _ _ _ (clean_checkSessionKeysOnNode config _) ?_ ?_
      · intro _ z ⟨_, hz⟩
        rw [hz]
        exact ⟨trivial, ⟨true, rfl⟩, rfl⟩
      · intro e z ⟨⟨b, hb⟩, _⟩
        cases hb
    · intro e y ⟨hout, _⟩
      cases hout

/-! ### The whole pass -/

theorem clean_importKeys (config : Config) (ks : List SessionKey)
    (hks : ∀ k ∈ ks, k.mnemonic ≠ "") (x : State × List (String × String)) :
    Clean (importKeys config ks) (fun out y => out = .ok () ∧
      (y.1.importedKeys, y.2) =
        ks.foldl (fun z k => config.install k z) (x.1.importedKeys, x.2)) x := by
  induction ks generalizing x with
  | nil => exact ⟨rfl, rfl⟩
  | cons k ks ih =>
    refine wp_seq (demonic_mono keystore) _ _ x
      (clean_importKey config (hks k (List.mem_cons_self ..)) x) ?_ ?_
    · intro _ y ⟨_, hy⟩
      have hrest := ih (fun k' hk' => hks k' (List.mem_cons_of_mem k hk')) y
      rw [hy] at hrest
      exact hrest
    · intro e y ⟨⟨b, hb⟩, _⟩
      cases hb

/-- The keys that a pass inserts when the list holds `imported`. -/
def Config.installs (config : Config) : List SessionKey → List String → List SessionKey
  | [], _ => []
  | k :: ks, imported =>
    if config.keyOf k ∈ imported then config.installs ks imported
    else k :: config.installs ks (imported ++ [config.keyOf k])

theorem foldl_install (config : Config) (ks : List SessionKey)
    (x : List String × List (String × String)) :
    ks.foldl (fun z k => config.install k z) x =
      (x.1 ++ (config.installs ks x.1).map config.keyOf,
        x.2 ++ (config.installs ks x.1).map config.entry) := by
  induction ks generalizing x with
  | nil => simp [Config.installs]
  | cons k ks ih =>
    rw [List.foldl_cons, ih, Config.install, Config.installs]
    by_cases hmem : config.keyOf k ∈ x.1
    · rw [if_pos hmem, if_pos hmem]
    · rw [if_neg hmem, if_neg hmem]
      simp

theorem installs_sublist (config : Config) (ks : List SessionKey) (imported : List String) :
    (config.installs ks imported).Sublist ks := by
  induction ks generalizing imported with
  | nil => exact .slnil
  | cons k ks ih =>
    rw [Config.installs]
    split
    · exact (ih imported).cons k
    · exact (ih _).cons_cons k

theorem installs_eq_iff (config : Config) (ks : List SessionKey) (imported : List String) :
    config.installs ks imported = ks ↔
      (∀ k ∈ ks, config.keyOf k ∉ imported) ∧ (ks.map config.keyOf).Nodup := by
  induction ks generalizing imported with
  | nil => simp [Config.installs]
  | cons k ks ih =>
    rw [Config.installs]
    by_cases hmem : config.keyOf k ∈ imported
    · rw [if_pos hmem]
      constructor
      · intro heq
        have hlen := (installs_sublist config ks imported).length_le
        rw [heq, List.length_cons] at hlen
        omega
      · intro hall
        exact absurd hmem (hall.1 k (List.mem_cons_self ..))
    · rw [if_neg hmem, List.cons.injEq, ih]
      simp only [true_and, List.mem_append, List.mem_cons, List.not_mem_nil, or_false, not_or,
        forall_eq_or_imp, hmem, not_false_eq_true, List.map_cons, List.nodup_cons, List.mem_map]
      constructor
      · intro h
        obtain ⟨hnew, hnodup⟩ := h
        refine ⟨fun k' hk' => (hnew k' hk').1, ?_, hnodup⟩
        intro hin
        obtain ⟨k', hk', heq⟩ := hin
        exact (hnew k' hk').2 heq
      · intro h
        obtain ⟨hnew, hhead, hnodup⟩ := h
        exact ⟨fun k' hk' => ⟨hnew k' hk', fun heq => hhead ⟨k', hk', heq⟩⟩, hnodup⟩

/-- A pass that starts with an empty list leaves the list and the keystore with
the keys it installs. -/
theorem clean_polkadotKeysImport {config : Config} (hconfig : config.Accepted)
    {x : State × List (String × String)} (hx : x.1.importedKeys = []) :
    Clean (polkadotKeysImport config) (fun _ y =>
      y.1.importedKeys = (config.installs config.sessionKeys []).map config.keyOf ∧
        y.2 = x.2 ++ (config.installs config.sessionKeys []).map config.entry) x := by
  have hlen : ¬ x.1.importedKeys.length ≥ 6 := by simp [hx]
  unfold Clean
  rw [polkadotKeysImport_eq, wp_tryCatch, wp_get_bind, if_neg hlen, wp_bind, wp_call]
  intro r w ⟨hr, hw⟩
  rw [hr, hw]
  dsimp only
  refine wp_seq (demonic_mono keystore) _ _ _
    (clean_importKeys config config.sessionKeys hconfig (x.1, x.2)) ?_ ?_
  · intro _ y ⟨_, hy⟩
    rw [foldl_install, hx, List.nil_append] at hy
    exact Prod.mk.inj hy
  · intro e y ⟨hout, _⟩
    cases hout

/-- The public keys of the six types are pairwise distinct. -/
def Config.DistinctKeys (config : Config) : Prop := (config.sessionKeys.map config.keyOf).Nodup

theorem installs_all_iff (config : Config) :
    ((∀ k ∈ config.sessionKeys,
        config.entry k ∈ (config.installs config.sessionKeys []).map config.entry) ∧
      6 ≤ ((config.installs config.sessionKeys []).map config.keyOf).length) ↔
      config.DistinctKeys := by
  have hiff := installs_eq_iff config config.sessionKeys []
  simp only [List.not_mem_nil, not_false_eq_true, implies_true, true_and] at hiff
  unfold Config.DistinctKeys
  rw [← hiff]
  constructor
  · intro h
    have hlen := h.2
    rw [List.length_map] at hlen
    exact (installs_sublist config config.sessionKeys []).eq_of_length_le hlen
  · intro heq
    rw [heq]
    exact ⟨fun k hk => List.mem_map_of_mem hk, by simp [Config.sessionKeys]⟩

/-- A clean pass inserts the keys of all six types, and leaves six entries in the
list, exactly when the six public keys are pairwise distinct. -/
theorem keys_installed_iff {config : Config} (hconfig : config.Accepted) {s : State}
    (hs : s.importedKeys = []) {w : List (String × String)} {out : Except String Bool}
    {y : State × List (String × String)}
    (h : Runs keystore (polkadotKeysImport config) (s, w) out y) :
    ((∃ calls, y.2 = w ++ calls ∧ ∀ k ∈ config.sessionKeys, config.entry k ∈ calls) ∧
      6 ≤ y.1.importedKeys.length) ↔ config.DistinctKeys := by
  obtain ⟨hkeys, hpairs⟩ := wp_runs (clean_polkadotKeysImport hconfig hs) h
  rw [← installs_all_iff, hkeys, hpairs]
  refine and_congr_left fun _ => ?_
  constructor
  · intro ⟨calls, hcalls, hall⟩
    rw [List.append_cancel_left hcalls]
    exact hall
  · intro hall
    exact ⟨_, rfl, hall⟩

theorem keys_installed_iff_plain : ∃ out y,
    Runs keystore (polkadotKeysImport plainConfig) ({}, []) out y ∧
    (((∃ calls, y.2 = [] ++ calls ∧
        ∀ k ∈ plainConfig.sessionKeys, plainConfig.entry k ∈ calls) ∧
      6 ≤ y.1.importedKeys.length) ↔ plainConfig.DistinctKeys) := by
  obtain ⟨out, y, h⟩ :=
    runs_exists keystore keystore_total (polkadotKeysImport plainConfig) ({}, [])
  have hconfig : plainConfig.Accepted := by
    unfold Config.Accepted
    decide
  exact ⟨out, y, h, keys_installed_iff hconfig rfl h⟩

/-- The mnemonic of the type babe serves for the type imon, too. -/
def sharedConfig : Config := { plainConfig with polkadotKeyImon := "babe" }

/-- A mnemonic that two types share is inserted for the first of them, and the
list stays one entry short. -/
theorem shared_key_missing : ¬ ∀ (config : Config) (s : State) (w : List (String × String))
    (out : Except String Bool) (y : State × List (String × String)), config.Accepted →
    s.importedKeys = [] → Runs keystore (polkadotKeysImport config) (s, w) out y →
    (∃ calls, y.2 = w ++ calls ∧ ∀ k ∈ config.sessionKeys, config.entry k ∈ calls) ∧
      6 ≤ y.1.importedKeys.length := by
  intro hall
  have hconfig : sharedConfig.Accepted := by
    unfold Config.Accepted
    decide
  obtain ⟨out, y, h⟩ :=
    runs_exists keystore keystore_total (polkadotKeysImport sharedConfig) ({}, [])
  have hlen := (hall sharedConfig {} [] out y hconfig rfl h).2
  rw [(wp_runs (clean_polkadotKeysImport hconfig rfl) h).1] at hlen
  exact absurd hlen (by decide)

end Archipel.Polkadot
