import Archipel.Polkadot.Exclusion

/-!
# The flows of one node

The orchestration tick, the event handler and the API launch `start` and
`cleanUp` flows that nobody awaits together. This module states when the
validator container and the sync container never run at once.
-/

namespace Archipel.Polkadot
open Async Docker

inductive Flow where
  | start (mode : Mode)
  | cleanUp
  deriving DecidableEq, Repr

def Flow.code (config : Config) : Flow → Method Bool
  | .start mode => Polkadot.start config mode
  | .cleanUp => Polkadot.cleanUp config

abbrev Flows := Pool Docker.api State String Bool Host Flow

def Both (config : Config) (h : Host) : Prop :=
  h.Running config.validatorName ∧ h.Running config.syncName

instance (config : Config) (h : Host) : Decidable (Both config h) :=
  inferInstanceAs (Decidable (_ ∧ _))

def Clear (config : Config) (h : Host) : Prop :=
  ¬ h.Present config.validatorName ∧ ¬ h.Present config.syncName

instance (config : Config) (h : Host) : Decidable (Clear config h) :=
  inferInstanceAs (Decidable (_ ∧ _))

/-- A container of the host stops by itself. -/
def Crash (x y : State × Host) : Prop := ∃ id, y = (x.1, x.2.setRunning false id)

/-- The flows of a node launched as `launches` permits, on a daemon that answers
each flow as `env` says. -/
def node (config : Config) (launches : Flow → List (Flow × Method Bool) → Prop)
    (env : Flow → Env Docker.api String Host) (world : State × Host → State × Host → Prop) :
    System Docker.api State String Bool Host Flow where
  code := Flow.code config
  launches := launches
  env := env
  world := world

/-- A `start` is launched only when every `start` of the other mode in flight
makes no further call that creates or starts a container. -/
def Separate : Flow → List (Flow × Method Bool) → Prop
  | .start mode, fs => ∀ f ∈ fs, f.1 = .start mode.other → Harmless f.2
  | .cleanUp, _ => True

def OneByOne (_ : Flow) (fs : List (Flow × Method Bool)) : Prop := ∀ f ∈ fs, f.2.ended = true

/-- Any call may fail, but those that a `start` makes for the container of the
other mode do not fail while that container runs. -/
def sparingOther (config : Config) : Flow → Env Docker.api String Host
  | .start mode => faulty (sparing (config.containerName mode.other))
  | .cleanUp => faulty fun _ _ => False

/-! ### The invariant -/

/-- One of the containers does not run, and of the flows in flight only those of
one mode may still start a container, as `wp_start` promises. -/
def Guarded (config : Config) (p : Flows) : Prop :=
  ¬ Both config p.shared.2 ∧ ∃ mode, ∀ f ∈ p.flows, Harmless f.2 ∨
    (f.1 = .start mode ∧ Promises (config.rely mode) (config.rely mode)
      (sparingOther config (.start mode)) f.2 (fun _ _ => True) p.shared)

theorem both_iff (config : Config) (mode : Mode) (h : Host) :
    Both config h ↔
      h.Running (config.containerName mode) ∧ h.Running (config.containerName mode.other) := by
  cases mode with
  | active => exact Iff.rfl
  | passive => exact And.comm

theorem rely_exclusive (config : Config) (mode : Mode) {x y : State × Host}
    (hxy : config.rely mode x y) (hx : ¬ Both config x.2) : ¬ Both config y.2 := by
  rw [both_iff config mode] at hx ⊢
  exact hxy.exclusive hx

theorem sparingOther_keeps (config : Config) (t : Flow) {up down : String} {c : Call}
    (hc : c.harmless) {h h' : Host} {r : Except String c.Ret}
    (hr : sparingOther config t c h r h') : Keeps up down h h' := by
  cases t with
  | start mode =>
    have hr' : faulty (sparing (config.containerName mode.other)) c h r h' := hr
    exact faulty_harmless_keeps up down hc hr'
  | cleanUp =>
    have hr' : faulty (fun _ _ => False) c h r h' := hr
    exact faulty_harmless_keeps up down hc hr'

theorem flow_step (config : Config) (mode : Mode) {t : Flow} {m m' : Method Bool}
    {x y : State × Host} (hm : Harmless m ∨
      (t = .start mode ∧ Promises (config.rely mode) (config.rely mode)
        (sparingOther config (.start mode)) m (fun _ _ => True) x))
    (h : Async.Step (sparingOther config t) m x m' y) :
    config.rely mode x y ∧ (Harmless m' ∨
      (t = .start mode ∧ Promises (config.rely mode) (config.rely mode)
        (sparingOther config (.start mode)) m' (fun _ _ => True) y)) := by
  rcases hm with hm | ⟨rfl, hm⟩
  · refine ⟨?_, .inl (onlyCalls_step hm h)⟩
    cases h with
    | serve hr => exact sparingOther_keeps config t hm.1 hr
    | turn hs => exact rely_refl _
  · obtain ⟨hG, hm'⟩ := promises_step rely_refl rely_trans rely_refl rely_trans
      (fun _ _ _ _ _ => trivial) hm h
    exact ⟨hG, .inr ⟨rfl, hm'⟩⟩

theorem guarded_step (config : Config) {p q : Flows} (hp : Guarded config p)
    (h : (node config Separate (sparingOther config) Crash).Step p q) : Guarded config q := by
  obtain ⟨hone, mode, hfs⟩ := hp
  cases h with
  | launch t hl =>
    cases t with
    | cleanUp =>
      refine ⟨hone, mode, fun f hf => ?_⟩
      rcases List.mem_append.mp hf with hf | hf
      · exact hfs f hf
      · rw [List.mem_singleton.mp hf]
        exact .inl (harmless_cleanUp config)
    | start mode' =>
      refine ⟨hone, mode', fun f hf => ?_⟩
      rcases List.mem_append.mp hf with hf | hf
      · rcases hfs f hf with hh | ⟨ht, hpr⟩
        · exact .inl hh
        · by_cases hmode : mode = mode'
          · exact .inr ⟨hmode ▸ ht, hmode ▸ hpr⟩
          · have hother : mode = mode'.other := by
              cases mode <;> cases mode' <;> first | rfl | exact absurd rfl hmode
            exact .inl (hl f hf (hother ▸ ht))
      · rw [List.mem_singleton.mp hf]
        refine .inr ⟨rfl, fun y hy => ?_⟩
        exact wp_mono (shielded_mono _ _ _) _ (fun _ _ _ => trivial) y
          (wp_start config mode' y ((both_iff config mode' y.2).not.mp
            (rely_exclusive config mode' hy hone)))
  | @flow x y pre post t m m' h =>
    obtain ⟨hk, hm'⟩ := flow_step config mode (hfs (t, m) (by simp)) h
    refine ⟨rely_exclusive config mode hk hone, mode, fun f hf => ?_⟩
    rcases List.mem_append.mp hf with hf | hf
    · exact (hfs f (by simp [hf])).imp_right fun h => ⟨h.1, promises_rely rely_trans h.2 hk⟩
    · rcases List.mem_cons.mp hf with rfl | hf
      · exact hm'
      · exact (hfs f (by simp [hf])).imp_right fun h => ⟨h.1, promises_rely rely_trans h.2 hk⟩
  | @world x y fs h =>
    obtain ⟨id, rfl⟩ := h
    have hk : config.rely mode x (x.1, x.2.setRunning false id) := Keeps.stop x.2 id
    exact ⟨rely_exclusive config mode hk hone, mode, fun f hf => (hfs f hf).imp_right fun h =>
      ⟨h.1, promises_rely rely_trans h.2 hk⟩⟩

theorem guarded_reachable (config : Config) {x : State × Host} (hx : ¬ Both config x.2) {p : Flows}
    (hp : (node config Separate (sparingOther config) Crash).Reachable x p) :
    ¬ Both config p.shared.2 := by
  have hg : Guarded config p := System.reachable_invariant hp
    ⟨hx, .active, fun f hf => nomatch hf⟩ fun _ _ => guarded_step config
  exact hg.1

theorem not_both_of_clear {config : Config} {h : Host} (hc : Clear config h) : ¬ Both config h :=
  fun hb => hc.1 hb.1.present

/-! ### Overlapping flows -/

/-- Flows overlap freely and every call of the daemon succeeds. -/
def overlapping (config : Config) : System Docker.api State String Bool Host Flow :=
  node config (fun _ _ => True) (fun _ => daemon) fun _ _ => False

instance (config : Config) (t : Flow) (fs : List (Flow × Method Bool)) :
    Decidable ((overlapping config).launches t fs) := .isTrue trivial

/-- Starts of the two modes that do not overlap before the last container call
of the first never leave both containers running. -/
theorem separate_starts_exclusive (config : Config) (s : State) (h : Host) (hc : Clear config h)
    (p : Flows)
    (hp : (node config Separate (fun _ => daemon) fun _ _ => False).Reachable (s, h) p) :
    ¬ Both config p.shared.2 := by
  refine guarded_reachable config (x := (s, h)) (not_both_of_clear hc) ?_
  refine System.reachable_mono hp rfl (fun _ _ h => h) ?_ fun _ _ => False.elim
  intro t c w r w' hr
  cases t with
  | start mode => exact .inl hr
  | cleanUp => exact .inl hr

def proceed {δ : Type} (i : ℕ) (d : δ) (n : ℕ) : List (Move δ Flow) :=
  (List.replicate n [.serve i d, .turn i]).flatten

def plainConfig : Config where
  polkadotName := "node"
  polkadotImage := "parity/polkadot"
  polkadotPrefix := "node-"
  polkadotRpcPort := 9993
  polkadotKeyGran := "gran"
  polkadotKeyBabe := "babe"
  polkadotKeyImon := "imon"
  polkadotKeyPara := "para"
  polkadotKeyAsgn := "asgn"
  polkadotKeyAudi := "audi"
  polkadotValidatorName := none
  polkadotReservedNodes := none
  polkadotTelemetryUrl := none
  polkadotNodeKeyFile := none
  polkadotAdditionalOptions := none
  polkadotSessionKeyToCheck := none
  polkadotSimulateSynch := false
  databasePath := "/polkadot"
  polkadotArchiveNode := false
  testing := false
  hostname := "orchestrator"
  publicKey := fun mnemonic _ => mnemonic

theorem proceed_flows {δ : Type} (i : ℕ) (d : δ) (n : ℕ) (t : Flow) :
    .launch t ∉ proceed i d n := by
  simp [proceed]

def alone : Flows := ⟨({}, Host.empty), [(.start .passive, start plainConfig .passive)]⟩

/-- A passive start that has started its container and imports the keys. -/
def importing : Flows :=
  Pool.play (overlapping plainConfig) (fun _ => answer) alone (.turn 0 :: proceed 0 () 11)

/-- An active start is launched, and both starts move to their ends. -/
def followed : Flows :=
  Pool.play (overlapping plainConfig) (fun _ => answer)
    ⟨importing.shared, importing.flows ++ [(.start .active, start plainConfig .active)]⟩
    (.turn 1 :: proceed 1 () 6 ++ proceed 0 () 6 ++ proceed 1 () 20 ++ proceed 0 () 7)

theorem importing_flows : importing.flows = [(.start .passive, ((do
    let _ ← polkadotKeysImport plainConfig
    pure true : Method Bool).turn importing.shared.1).1)] := rfl

theorem importing_harmless : ∀ f ∈ importing.flows, Harmless f.2 := by
  rw [importing_flows]
  intro f hf
  rw [List.mem_singleton.mp hf]
  have hquiet : Quiet (do
      let _ ← polkadotKeysImport plainConfig
      pure true : Method Bool) :=
    onlyCalls_bind (quiet_polkadotKeysImport plainConfig) fun _ => trivial
  exact onlyCalls_turn hquiet.harmless _

/-- Starts of the two modes that do not overlap before the last container call of
the first. -/
def separate (config : Config) : System Docker.api State String Bool Host Flow :=
  node config Separate (fun _ => daemon) fun _ _ => False

theorem followed_reachable : (separate plainConfig).Reachable ({}, Host.empty) followed := by
  have hfirst : (separate plainConfig).Step ⟨({}, Host.empty), []⟩ alone :=
    .launch (Flow.start .passive) fun f hf => by cases hf
  have himporting : Relation.ReflTransGen (separate plainConfig).Step alone importing :=
    Pool.play_flows_steps (fun _ _ => answer_daemon) _ (fun t => by simp [proceed_flows]) alone
  have hsecond : (separate plainConfig).Step importing
      ⟨importing.shared, importing.flows ++ [(.start .active, start plainConfig .active)]⟩ :=
    .launch (Flow.start .active) fun f hf _ => importing_harmless f hf
  have hfollowed : Relation.ReflTransGen (separate plainConfig).Step
      ⟨importing.shared, importing.flows ++ [(.start .active, start plainConfig .active)]⟩
      followed :=
    Pool.play_flows_steps (fun _ _ => answer_daemon) _ (fun t => by simp [proceed_flows]) _
  exact (himporting.head hfirst).trans (hfollowed.head hsecond)

/-- Both starts have ended, and the validator container has replaced the other. -/
theorem separate_starts_exclusive_followed :
    followed.flows.map (fun f => (f.1, f.2.ended)) =
      [(.start .passive, true), (.start .active, true)] ∧
    followed.shared.2.Running plainConfig.validatorName ∧
    ¬ Both plainConfig followed.shared.2 := by
  have hruns : followed.shared.2.Running plainConfig.validatorName := by decide +kernel
  exact ⟨by decide +kernel, hruns,
    separate_starts_exclusive plainConfig {} Host.empty (by decide) followed followed_reachable⟩

/-- Both starts find no container of the other mode, then each starts its own. -/
def overlappingStarts : List (Move Unit Flow) :=
  [.launch (.start .active), .turn 0] ++ proceed 0 () 6 ++
    [.launch (.start .passive), .turn 1] ++ proceed 1 () 10 ++ proceed 0 () 5

def overlapped : Flows :=
  Pool.play (overlapping plainConfig) (fun _ => answer) ⟨({}, Host.empty), []⟩ overlappingStarts

theorem overlapped_reachable : (overlapping plainConfig).Reachable ({}, Host.empty) overlapped :=
  Pool.play_steps (fun _ _ => answer_daemon) overlappingStarts _

theorem overlapped_both : Both plainConfig overlapped.shared.2 := by decide

theorem overlapping_starts_run_both : ¬ ∀ (config : Config) (s : State) (h : Host),
    Clear config h → ∀ p, (overlapping config).Reachable (s, h) p → ¬ Both config p.shared.2 :=
  fun hall => hall plainConfig {} Host.empty (by decide) _ overlapped_reachable overlapped_both

/-! ### Failing calls -/

/-- Flows are executed one after the other and any call may fail. -/
def failing (config : Config) : System Docker.api State String Bool Host Flow :=
  node config OneByOne (fun _ => faulty fun _ _ => False) fun _ _ => False

instance (config : Config) (t : Flow) (fs : List (Flow × Method Bool)) :
    Decidable ((failing config).launches t fs) :=
  inferInstanceAs (Decidable (∀ f ∈ fs, f.2.ended = true))

theorem onlyCalls_of_ended {m : Method Bool} (hm : m.ended = true) (p : Call → Prop) :
    OnlyCalls p m := by
  cases m with
  | done a => trivial
  | fail e => trivial
  | read k | write s k | await c k => cases hm

/-- Starts and clean-ups one after the other never leave both containers
running unless a call made for the container of the other mode fails while that
container runs. -/
theorem spared_starts_exclusive (config : Config) (s : State) (h : Host) (hc : Clear config h)
    (p : Flows)
    (hp : (node config OneByOne (sparingOther config) fun _ _ => False).Reachable (s, h) p) :
    ¬ Both config p.shared.2 := by
  refine guarded_reachable config (x := (s, h)) (not_both_of_clear hc) ?_
  refine System.reachable_mono hp rfl ?_ (fun _ _ _ _ _ h => h) fun _ _ => False.elim
  intro t fs hfs
  cases t with
  | start mode => exact fun f hf _ => onlyCalls_of_ended (hfs f hf) _
  | cleanUp => trivial

instance (config : Config) (env : Flow → Env Docker.api String Host)
    (world : State × Host → State × Host → Prop) (t : Flow) (fs : List (Flow × Method Bool)) :
    Decidable ((node config OneByOne env world).launches t fs) :=
  inferInstanceAs (Decidable (∀ f ∈ fs, f.2.ended = true))

/-- Calls that concern no running container may fail. -/
def answerOrSpare (fails : Bool) : Answers Docker.api String Host := fun c h =>
  if fails ∧ ∀ name ∈ c.subject, ¬ h.Running name then (.error "connection refused", h)
  else answer c h

theorem answerOrSpare_sparing (t : Flow) (fails : Bool) (c : Docker.Call) (h : Host) :
    sparingOther plainConfig t c h (answerOrSpare fails c h).1 (answerOrSpare fails c h).2 := by
  unfold answerOrSpare
  split
  · next hfails =>
    cases t with
    | start mode => exact .inr ⟨fun hspared => hfails.2 _ hspared.1 hspared.2, ⟨_, rfl⟩, .inl rfl⟩
    | cleanUp => exact .inr ⟨id, ⟨_, rfl⟩, .inl rfl⟩
  · cases t with
    | start mode => exact .inl (answer_daemon c h)
    | cleanUp => exact .inl (answer_daemon c h)

/-- A passive start that fails to look for the orchestrator, then an active start
that fails to look for its own container. -/
def spared : Flows :=
  Pool.play (node plainConfig OneByOne (sparingOther plainConfig) fun _ _ => False) answerOrSpare
    ⟨({}, Host.empty), []⟩
    ([.launch (.start .passive), .turn 0] ++ proceed 0 true 1 ++ proceed 0 false 24 ++
      [.launch (.start .active), .turn 1] ++ proceed 1 true 1 ++ proceed 1 false 24)

theorem spared_starts_exclusive_spared :
    spared.flows.map (fun f => (f.1, f.2.ended)) =
      [(.start .passive, true), (.start .active, true)] ∧
    spared.shared.2.Running plainConfig.validatorName ∧
    ¬ Both plainConfig spared.shared.2 := by
  have hruns : spared.shared.2.Running plainConfig.validatorName := by decide +kernel
  exact ⟨by decide +kernel, hruns, spared_starts_exclusive plainConfig {} Host.empty (by decide)
    spared (Pool.play_steps answerOrSpare_sparing _ _)⟩

def answerOrFail (fails : Bool) : Answers Docker.api String Host :=
  if fails then fun _ h => (.error "connection refused", h) else answer

/-- The sync container is started; then an active start fails to list the
containers when it looks for it. -/
def failingLookup : List (Move Bool Flow) :=
  [.launch (.start .passive), .turn 0] ++ proceed 0 false 24 ++
    [.launch (.start .active), .turn 1] ++ proceed 1 false 3 ++ proceed 1 true 1 ++
    proceed 1 false 4

theorem failing_lookup_runs_both : ¬ ∀ (config : Config) (s : State) (h : Host),
    Clear config h → ∀ p, (failing config).Reachable (s, h) p → ¬ Both config p.shared.2 := by
  intro hall
  refine hall plainConfig {} Host.empty (by decide) _
    (Pool.play_steps (D := answerOrFail) ?_ failingLookup _) ?_
  · intro t fails c w
    cases fails with
    | false => exact .inl (answer_daemon c w)
    | true => exact .inr ⟨id, ⟨_, rfl⟩, .inl rfl⟩
  · decide +kernel

end Archipel.Polkadot
