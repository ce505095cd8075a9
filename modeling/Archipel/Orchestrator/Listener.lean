import Archipel.Async.Nested
import Archipel.Orchestrator.Rules
import Archipel.Polkadot.Flows
import Mathlib.Logic.Function.Iterate

/-!
# One tick and one event

While a tick is in flight the listener may be called with a `NewLeader` event of
another account. It starts the service in passive mode and nobody waits for it,
so from then on two functions of the orchestrator share the service instance
and the docker host, and each may move at every await of the other.
-/

namespace Archipel.Orchestrator
open Async
open Polkadot (Mode Both)

variable {α : Type} [DecidableEq α]

/-- The calls that are methods of the service instance. -/
def serviceCalls (service : Polkadot.Config) :
    Linkage (api α) Docker.api Polkadot.State String
  | .start mode => some (Polkadot.start service mode)
  | .cleanUp => some (Polkadot.cleanUp service)
  | _ => none

/-- What the chain answers: once another node has taken the leadership, the
leader is not this node. -/
def leaderAnswers (config : Config α) (emitted : Bool) : Answered (api α) String
  | .getLeader _, r => emitted = true → r ≠ .ok (some config.nodeKey)
  | _, _ => True

abbrev Flight (α : Type) := Nested (api α) Docker.api (State α) Polkadot.State String Unit

structure Race (α : Type) where
  fields : State α
  inst : Polkadot.State × Docker.Host
  emitted : Bool
  tick : Flight α
  listener : Option (Flight α)

def Race.start (config : Config α) (fields : State α) (inst : Polkadot.State × Docker.Host) :
    Race α := ⟨fields, inst, false, .own (orchestrateService config), none⟩

/-- The moves of the race; `delivers` says at which points of the tick the event
is delivered. -/
inductive Race.Step (config : Config α) (service : Polkadot.Config) (delivers : Flight α → Prop) :
    Race α → Race α → Prop
  | tick {r : Race α} {tick : Flight α} {fields : State α} {inst : Polkadot.State × Docker.Host}
      (h : Nested.Step (serviceCalls service) (leaderAnswers config r.emitted) Docker.daemon
        r.tick (r.fields, r.inst) tick (fields, inst)) :
      Step config service delivers r { r with fields, inst, tick }
  | emit {r : Race α} : Step config service delivers r { r with emitted := true }
  | deliver {r : Race α} {who : α} (hemitted : r.emitted = true) (hlistener : r.listener = none)
      (hwho : who ≠ config.nodeKey) (h : delivers r.tick) :
      Step config service delivers r
        { r with listener := some (.own (onEvent config (.newLeader who config.group))) }
  | listener {r : Race α} {listener listener' : Flight α} {fields : State α}
      {inst : Polkadot.State × Docker.Host} (hlistener : r.listener = some listener)
      (h : Nested.Step (serviceCalls service) (leaderAnswers config r.emitted) Docker.daemon
        listener (r.fields, r.inst) listener' (fields, inst)) :
      Step config service delivers r
        { r with fields, inst, listener := some listener' }

def Race.Reachable (config : Config α) (service : Polkadot.Config) (delivers : Flight α → Prop)
    (fields : State α) (inst : Polkadot.State × Docker.Host) (r : Race α) : Prop :=
  Relation.ReflTransGen (Race.Step config service delivers) (.start config fields inst) r

/-- The tick creates and starts no validator container any more, unless it reads
once more that the node leads. -/
def Settled (config : Config α) (service : Polkadot.Config) : Flight α → Prop
  | .own m => Abides (A := api α) (leaderAnswers config true) (· ≠ .start .active) m
  | .inside _ m k => OnlyCalls (A := Docker.api) (Docker.Call.spares service.validatorName) m ∧
      ∀ r, Abides (A := api α) (leaderAnswers config true) (· ≠ .start .active) (k r)

section Race
variable {config : Config α} {service : Polkadot.Config}

omit [DecidableEq α] in
theorem serviceCalls_elim {motive : ∀ c : Call α, Polkadot.Method c.Ret → Prop}
    (hstart : ∀ mode, motive (.start mode) (Polkadot.start service mode))
    (hcleanUp : motive .cleanUp (Polkadot.cleanUp service)) {c : Call α}
    {m : Polkadot.Method c.Ret} (h : serviceCalls service c = some m) : motive c m := by
  cases c with
  | start mode =>
    cases h
    exact hstart mode
  | cleanUp =>
    cases h
    exact hcleanUp
  | canSendTransactions | isConnected | getPeerId | getPeerNumber | getBestNumberFinalized
  | getSyncState | getBestNumber | getLeader | isLeadedGroup | getHeartbeat | setLeader
  | addHeartbeat | giveUpLeadership | bootstrap | isServiceReadyToStart | checkLaunchedContainer
  | getInfo | setTimeout => cases h

/-! ### Where the tick is settled -/

/-- The method starts the service in active mode only after it has read once
more that the node leads. -/
abbrev Abiding {β : Type} (config : Config α) (m : Method α β) : Prop :=
  Abides (A := api α) (leaderAnswers config true) (· ≠ .start .active) m

theorem abiding_leader {β : Type} {X Y : Option α → Method α β}
    (hY : ∀ leader, Abiding config (Y leader)) : Abiding config (do
      let leader : Option α ← request (.getLeader config.group)
      if leaderText leader = Wallet.address config.nodeKey then X leader else Y leader) := by
  refine abides_call_bind (by simp) fun leader hleader => ?_
  have hne : leaderText leader ≠ .address config.nodeKey := by
    cases leader with
    | none => simp [leaderText]
    | some leader =>
      intro heq
      cases heq
      exact hleader rfl rfl
  rw [if_neg hne]
  exact hY leader

omit [DecidableEq α] in
theorem abiding_bind {β γ : Type} {m : Method α β} {f : β → Method α γ}
    (hm : OnlyCalls (A := api α) (· ≠ .start .active) m) (hf : ∀ b, Abiding config (f b)) :
    Abiding config (m >>= f) := abides_bind (abides_of_onlyCalls hm) hf

omit [DecidableEq α] in
theorem abiding_passive : Abiding config
    (do let _ ← serviceStart config .passive : Method α Unit) :=
  abides_of_onlyCalls (onlyCalls_start_drop .passive (by simp))

theorem abiding_forceActive : Abiding config (forceActive config) := by
  unfold forceActive
  split
  · trivial
  refine abiding_leader fun leader => ?_
  refine abiding_bind (onlyCalls_call (by simp)) fun isLeadedGroup => ?_
  refine abiding_bind (onlyCalls_becomeLeader _ (by simp) fun _ => by simp)
    fun becomeLeaderResult => ?_
  split
  · exact abiding_leader fun _ => trivial
  · trivial

theorem abiding_orchestrateOperatorService :
    Abiding config (orchestrateOperatorService config) := by
  refine abiding_bind (onlyCalls_call (by simp)) fun sendTransaction => ?_
  split
  · exact abiding_passive
  refine abiding_bind (onlyCalls_call (by simp)) fun bestNumber => ?_
  refine abiding_bind onlyCalls_get fun s => ?_
  split
  · exact abiding_passive
  refine abiding_bind (onlyCalls_serviceReadinessManagement (by simp)) fun serviceReady => ?_
  split
  · exact abiding_passive
  refine abiding_bind onlyCalls_get fun s => ?_
  split
  · exact abiding_passive
  have hleadership : OnlyCalls (A := api α) (· ≠ .start .active) (leadershipManagement config) :=
    onlyCalls_leadershipManagement (by simp) (by simp) (fun _ => by simp) (by simp) fun _ => by simp
  refine abiding_bind hleadership fun leadership => ?_
  split
  · exact abiding_passive
  · exact abiding_leader fun _ => trivial

theorem settled_tick : Settled config service (.own (orchestrateService config)) := by
  show Abiding config (orchestrateService config)
  unfold orchestrateService
  split
  · trivial
  refine abiding_bind onlyCalls_get fun s => ?_
  split
  · trivial
  split
  · exact abiding_orchestrateOperatorService
  split
  · exact abiding_passive
  split
  · exact abides_bind abiding_forceActive fun _ => trivial
  · trivial

/-! ### Before the event is delivered -/

/-- What a start or a clean-up in flight does to the host, if it is the tick's. -/
def Starting (service : Polkadot.Config) : Flight α → Polkadot.State × Docker.Host → Prop
  | .own _, _ => True
  | .inside _ m _, y => ∃ mode,
      OnlyCalls (A := Docker.api) (Docker.Call.startsOnly (service.containerName mode)) m ∧
        Async.Promises (service.rely mode) (service.rely mode) Docker.daemon m (fun _ _ => True) y

theorem wp_start_working (mode : Mode) {y : Polkadot.State × Docker.Host}
    (hy : ¬ Both service y.2) :
    wp (shielded (service.rely mode) (service.rely mode) Docker.daemon) (service.rely mode)
      (Polkadot.start service mode)
      (fun _ z => ¬ z.2.Running (service.containerName mode.other)) y :=
  wp_shielded_env (fun _ _ _ _ h => .inl h)
    (Polkadot.wp_start service mode y ((Polkadot.both_iff service mode y.2).not.mp hy))

theorem wp_harmless_working (mode : Mode) {β : Type} {m : Polkadot.Method β}
    (hm : Docker.Harmless m) (y : Polkadot.State × Docker.Host) :
    wp (shielded (service.rely mode) (service.rely mode) Docker.daemon) (service.rely mode) m
      (fun _ _ => True) y :=
  wp_shielded_env (F := Docker.faulty fun _ _ => True) (fun _ _ _ _ h => .inl h)
    (Docker.wp_harmless Docker.stable_true hm y trivial)

omit [DecidableEq α] in
theorem starting_step {P : Answered (api α) String} {f f' : Flight α}
    {x x' : State α × Polkadot.State × Docker.Host} (hf : Starting service f x.2)
    (hx : ¬ Both service x.2.2)
    (h : Nested.Step (serviceCalls service) P Docker.daemon f x f' x') :
    ¬ Both service x'.2.2 ∧ Starting service f' x'.2 := by
  cases h with
  | turn hs => exact ⟨hx, trivial⟩
  | serve hlink hr => exact ⟨hx, trivial⟩
  | finish => exact ⟨hx, trivial⟩
  | throw => exact ⟨hx, trivial⟩
  | @enter c m k _ hlink =>
    refine ⟨hx, serviceCalls_elim (motive := fun c m => ∀ k, Starting service (.inside c m k) x.2)
      ?_ ?_ hlink k⟩
    · intro mode k
      refine ⟨mode, Polkadot.startsOnly_start service mode, fun z hz => ?_⟩
      exact wp_mono (shielded_mono _ _ _) _ (fun _ _ _ => trivial) z
        (wp_start_working mode (Polkadot.rely_exclusive service mode hz hx))
    · intro k
      have hm := Polkadot.harmless_cleanUp service
      exact ⟨.passive, onlyCalls_mono (fun _ => .inl) hm, fun z _ => wp_harmless_working _ hm z⟩
  | move h =>
    obtain ⟨mode, honly, hm⟩ := hf
    obtain ⟨hG, hm'⟩ := promises_step Docker.rely_refl Docker.rely_trans Docker.rely_refl
      Docker.rely_trans (fun _ _ _ _ _ => trivial) hm h
    exact ⟨Polkadot.rely_exclusive service mode hG hx, mode, onlyCalls_step honly h, hm'⟩

/-! ### After the event is delivered -/

/-- The promise of a function in flight after the delivery, among functions that
start the service in passive mode only. -/
abbrev Promised (config : Config α) (service : Polkadot.Config)
    (Q : Polkadot.State × Docker.Host → Prop) (f : Flight α)
    (x : State α × Polkadot.State × Docker.Host) : Prop :=
  f.Promises (serviceCalls service) (leaderAnswers config true) (service.rely .passive)
    (service.rely .passive) Docker.daemon HasService (fun _ x => Q x.2) x

/-- The answers of the chain are limited, those of the service instance are not. -/
def Unlimited (service : Polkadot.Config) (P : Answered (api α) String) : Prop :=
  ∀ c m, serviceCalls service c = some m → ∀ r, P c r

omit [DecidableEq α] in
theorem unlimited_leaderAnswers : Unlimited service (leaderAnswers config true) := by
  intro c m hlink
  exact serviceCalls_elim (motive := fun c _ => ∀ r : Except String c.Ret,
    leaderAnswers config true c r) (fun _ _ => trivial) (fun _ => trivial) hlink

/-- While its calls are answered so, a function in flight starts the service in
passive mode only, and creates and starts no validator container any more. -/
def Spared (P : Answered (api α) String) (service : Polkadot.Config) : Flight α → Prop
  | .own m => Abides (A := api α) P (· ≠ .start .active) m
  | .inside _ m k => OnlyCalls (A := Docker.api) (Docker.Call.spares service.validatorName) m ∧
      ∀ r, Abides (A := api α) P (· ≠ .start .active) (k r)

section Spared
variable {P : Answered (api α) String}

omit [DecidableEq α] in
theorem wp_abiding {β : Type} (hP : Unlimited service P) {m : Method α β}
    (hm : Abides (A := api α) P (· ≠ .start .active) m) (s : State α)
    {y : Polkadot.State × Docker.Host} (hy : ¬ Both service y.2) :
    wp (linked (serviceCalls service) P (service.rely .passive) (service.rely .passive)
      Docker.daemon HasService) free m (fun _ _ => True) (s, y) := by
  refine wp_linked_abides (K := fun y => ¬ Both service y.2)
    (fun _ _ => Polkadot.rely_exclusive service .passive)
    (fun _ _ => Polkadot.rely_exclusive service .passive) hP ?_ hm hy
  intro c m hc hlink y hy
  refine serviceCalls_elim (motive := fun c m => c ≠ .start .active →
    wp (shielded (service.rely .passive) (service.rely .passive) Docker.daemon)
      (service.rely .passive) m (fun _ _ => True) y) ?_ ?_ hlink hc
  · intro mode hc
    cases mode with
    | active => exact absurd rfl hc
    | passive =>
      exact wp_mono (shielded_mono _ _ _) _ (fun _ _ _ => trivial) y
        (wp_start_working .passive hy)
  · exact fun _ => wp_harmless_working _ (Polkadot.harmless_cleanUp service) y

omit [DecidableEq α] in
theorem promises_spared (hP : Unlimited service P) {f : Flight α}
    {x : State α × Polkadot.State × Docker.Host} (hspared : Spared P service f)
    (hf : Starting service f x.2) (hx : ¬ Both service x.2.2) :
    f.Promises (serviceCalls service) P (service.rely .passive) (service.rely .passive)
      Docker.daemon HasService (fun _ _ => True) x := by
  have hK : ∀ y, service.rely .passive x.2 y → ¬ Both service y.2 := fun y hy =>
    Polkadot.rely_exclusive service .passive hy hx
  cases f with
  | own m => exact fun s y _ hy => wp_abiding hP hspared s (hK y hy)
  | inside c m k =>
    obtain ⟨hspares, hk⟩ := hspared
    obtain ⟨mode, honly, hm⟩ := hf
    intro y hy
    have hpassive : wp (shielded (service.rely .passive) (service.rely .passive) Docker.daemon)
        (service.rely .passive) m (fun _ _ => True) y := by
      cases mode with
      | passive => exact hm y hy
      | active =>
        -- What a start in active mode may still start is spared: it starts nothing any more
        refine wp_harmless_working .passive (onlyCalls_and ?_ honly hspares) y
        intro c honly hspares
        exact honly.elim id fun hsubject => hspares.resolve_right fun h => h hsubject
    have hone := wp_shielded_keeps (K := fun y => ¬ Both service y.2)
      (fun _ _ => Polkadot.rely_exclusive service .passive)
      (fun _ _ => Polkadot.rely_exclusive service .passive) (hK y hy) hpassive
    refine wp_mono (shielded_mono _ _ _) m ?_ y hone
    exact fun r z hz s u _ hu => wp_abiding hP (hk r) s
      (Polkadot.rely_exclusive service .passive hu hz.2)

end Spared

omit [DecidableEq α] in
theorem promised_tick {f : Flight α} {x : State α × Polkadot.State × Docker.Host}
    (hsettled : Settled config service f) (hf : Starting service f x.2)
    (hx : ¬ Both service x.2.2) : Promised config service (fun _ => True) f x := by
  have hspared : Spared (leaderAnswers config true) service f := by
    cases f with
    | own m => exact hsettled
    | inside c m k => exact hsettled
  exact promises_spared unlimited_leaderAnswers hspared hf hx

theorem promised_listener (hrole : config.nodeRole ≠ "noservice") {who : α}
    (hwho : who ≠ config.nodeKey) {x : State α × Polkadot.State × Docker.Host}
    (hx : ¬ Both service x.2.2) :
    Promised config service (fun y => ¬ y.2.Running service.validatorName)
      (.own (onEvent config (.newLeader who config.group))) x := by
  intro s y hs hy
  show wp _ _ (if _ then _ else _) _ _
  rw [if_pos ⟨hwho, rfl⟩]
  obtain ⟨object, hobject⟩ := Option.isSome_iff_exists.mp hs
  rw [wp_serviceStart_drop (x := (s, y)) hrole .passive hobject]
  intro z hz
  have hone := Polkadot.rely_exclusive service .passive (Docker.rely_trans _ _ _ hy hz) hx
  refine wp_mono (shielded_mono _ _ _) _ ?_ z (wp_start_working .passive hone)
  exact fun _ u hu _ v _ hv hrun => hu (Docker.Keeps.down_running hv hrun)

/-! ### The invariant of the race -/

structure Race.Guarded (config : Config α) (service : Polkadot.Config) (r : Race α) : Prop where
  hasService : HasService r.fields
  exclusive : ¬ Both service r.inst.2
  fields : r.tick.Maintains HasService
  alone : r.listener = none → Starting service r.tick r.inst
  met : ∀ f, r.listener = some f → r.emitted = true ∧ f.Maintains HasService ∧
    Promised config service (fun _ => True) r.tick (r.fields, r.inst) ∧
    Promised config service (fun y => ¬ y.2.Running service.validatorName) f
      (r.fields, r.inst)

theorem guarded_step (hrole : config.nodeRole ≠ "noservice") {r r' : Race α}
    (hr : Race.Guarded config service r)
    (h : Race.Step config service (Settled config service) r r') :
    Race.Guarded config service r' := by
  cases h with
  | emit => exact ⟨hr.hasService, hr.exclusive, hr.fields, hr.alone, fun f hf =>
      ⟨rfl, (hr.met f hf).2⟩⟩
  | deliver hemitted hlistener hwho hsettled =>
    refine ⟨hr.hasService, hr.exclusive, hr.fields, (by simp), fun f hf => ?_⟩
    cases hf
    exact ⟨hemitted, hasService_onEvent _, promised_tick hsettled (hr.alone hlistener) hr.exclusive,
      promised_listener hrole hwho hr.exclusive⟩
  | @tick tick fields inst h =>
    obtain ⟨hfields, hservice⟩ := Nested.maintains_step hr.fields hr.hasService h
    cases hl : r.listener with
    | none =>
      obtain ⟨hexclusive, hstarting⟩ := starting_step (hr.alone hl) hr.exclusive h
      exact ⟨hservice, hexclusive, hfields, fun _ => hstarting, (by simp)⟩
    | some f =>
      obtain ⟨hemitted, hlfields, htick, hf⟩ := hr.met f hl
      rw [hemitted] at h
      obtain ⟨hG, htick'⟩ := Nested.promises_step Docker.rely_refl Docker.rely_trans
        Docker.rely_refl Docker.rely_trans (fun _ _ _ _ _ _ _ => trivial) htick hr.hasService h
      refine ⟨hservice, Polkadot.rely_exclusive service .passive hG hr.exclusive, hfields,
        (by simp), fun g hg => ?_⟩
      cases hg
      exact ⟨hemitted, hlfields, htick', Nested.promises_rely Docker.rely_trans hf hG⟩
  | @listener f f' fields inst hl h =>
    obtain ⟨hemitted, hlfields, htick, hf⟩ := hr.met f hl
    obtain ⟨hlfields', hservice⟩ := Nested.maintains_step hlfields hr.hasService h
    rw [hemitted] at h
    obtain ⟨hG, hf'⟩ := Nested.promises_step Docker.rely_refl Docker.rely_trans
      Docker.rely_refl Docker.rely_trans
      (fun _ _ _ _ hQ _ hz hrun => hQ (Docker.Keeps.down_running hz hrun)) hf hr.hasService h
    refine ⟨hservice, Polkadot.rely_exclusive service .passive hG hr.exclusive, hr.fields,
      (by simp), fun g hg => ?_⟩
    cases hg
    exact ⟨hemitted, hlfields', Nested.promises_rely Docker.rely_trans htick hG, hf'⟩

theorem guarded_reachable (hrole : config.nodeRole ≠ "noservice") {fields : State α}
    (hfields : HasService fields) {inst : Polkadot.State × Docker.Host}
    (hinst : ¬ Both service inst.2) {r : Race α}
    (hr : Race.Reachable config service (Settled config service) fields inst r) :
    Race.Guarded config service r := by
  induction hr with
  | refl =>
    exact ⟨hfields, hinst, hasService_orchestrateService, fun _ => trivial, fun f hf => by cases hf⟩
  | tail _ hstep ih => exact guarded_step hrole ih hstep

/-! ### Playing a race -/

def Race.moveTick (service : Polkadot.Config) (D : Bool → (c : Call α) → Except String c.Ret)
    (r : Race α) : Race α :=
  if r.tick.ended then r
  else
    let (tick, fields, inst) := Nested.next (serviceCalls service) (D r.emitted) Docker.answer
      r.tick (r.fields, r.inst)
    { r with fields, inst, tick }

def Race.moveListener (service : Polkadot.Config) (D : Bool → (c : Call α) → Except String c.Ret)
    (r : Race α) : Race α :=
  match r.listener with
  | none => r
  | some listener =>
    if listener.ended then r
    else
      let (listener, fields, inst) := Nested.next (serviceCalls service) (D r.emitted) Docker.answer
        listener (r.fields, r.inst)
      { r with fields, inst, listener := some listener }

def Race.deliver (config : Config α) (who : α) (r : Race α) : Race α :=
  { r with emitted := true, listener := some (.own (onEvent config (.newLeader who config.group))) }

section Play
variable {delivers : Flight α → Prop} {D : Bool → (c : Call α) → Except String c.Ret}

theorem deliver_steps {who : α} (hwho : who ≠ config.nodeKey) {r : Race α}
    (hr : r.listener = none) (h : delivers r.tick) :
    Relation.ReflTransGen (Race.Step config service delivers) r (r.deliver config who) :=
  .tail (.single .emit) (.deliver (r := { r with emitted := true }) rfl hr hwho h)

omit [DecidableEq α] in
theorem iterate_steps {β : Type} {step : β → β → Prop} {move : β → β}
    (hmove : ∀ r, Relation.ReflTransGen step r (move r)) (n : ℕ) (r : β) :
    Relation.ReflTransGen step r (move^[n] r) := by
  induction n generalizing r with
  | zero => exact .refl
  | succ n ih => exact (hmove r).trans (ih (move r))

variable (hD : ∀ emitted c, leaderAnswers config emitted c (D emitted c))
include hD

theorem moveTick_steps (r : Race α) :
    Relation.ReflTransGen (Race.Step config service delivers) r (r.moveTick service D) := by
  unfold Race.moveTick
  split
  · exact .refl
  · next h =>
    exact .single (.tick (Nested.next_step (hD r.emitted) Docker.answer_daemon r.tick
      (r.fields, r.inst) (by simpa using h)))

theorem moveListener_steps (r : Race α) :
    Relation.ReflTransGen (Race.Step config service delivers) r (r.moveListener service D) := by
  unfold Race.moveListener
  split
  · exact .refl
  · next listener hlistener =>
    split
    · exact .refl
    · next h =>
      exact .single (.listener hlistener (Nested.next_step (hD r.emitted) Docker.answer_daemon
        listener (r.fields, r.inst) (by simpa using h)))

end Play

def leadThenLose (emitted : Bool) : (c : Call ℕ) → Except String c.Ret
  | .canSendTransactions => .ok true
  | .isConnected => .ok true
  | .getPeerId => .ok none
  | .getPeerNumber => .ok 1
  | .getBestNumberFinalized => .ok 2
  | .getSyncState => .ok (some false)
  | .getBestNumber => .ok 2
  | .getLeader _ => .ok (some (if emitted then 2 else 1))
  | .isLeadedGroup _ => .ok true
  | .getHeartbeat _ => .ok 0
  | .setLeader _ _ => .ok false
  | .addHeartbeat _ _ => .ok false
  | .giveUpLeadership _ => .ok false
  | .bootstrap => .ok ()
  | .start _ => .ok false
  | .cleanUp => .ok false
  | .isServiceReadyToStart => .ok true
  | .checkLaunchedContainer => .ok none
  | .getInfo => .ok ⟨none, false, none⟩
  | .setTimeout _ => .ok ()

theorem leadThenLose_answers (emitted : Bool) (c : Call ℕ) :
    leaderAnswers (plainNode 1) emitted c (leadThenLose emitted c) := by
  cases c with
  | getLeader g =>
    intro hemitted
    rw [hemitted]
    exact fun h => absurd (Option.some.inj (Except.ok.inj h)) (by decide)
  | canSendTransactions | isConnected | getPeerId | getPeerNumber | getBestNumberFinalized
  | getSyncState | getBestNumber | isLeadedGroup | getHeartbeat | setLeader | addHeartbeat
  | giveUpLeadership | bootstrap | start | cleanUp | isServiceReadyToStart
  | checkLaunchedContainer | getInfo | setTimeout => trivial

def syncRunning : Docker.Host where
  containers := [⟨Docker.Host.empty.freshId,
    ⟨Polkadot.plainConfig.syncName, Polkadot.plainConfig.polkadotImage, [], [], none⟩, true⟩]
  images := [Polkadot.plainConfig.polkadotImage]
  volumes := []
  idsNodup := List.nodup_singleton _
  namesNodup := List.nodup_singleton _

def passiveNode : Race ℕ :=
  .start (plainNode 1)
    { State.init (plainNode 1) with
      service := some { mode := some .passive }, heartbeats := bothAlive } ({}, syncRunning)

/-! ### The event against the tick -/

/-- Delivered at a settled point of the tick, the event beats it: once the
listener has ended the validator container does not run. -/
theorem new_leader_beats_tick (config : Config α) (service : Polkadot.Config)
    (hrole : config.nodeRole ≠ "noservice") (fields : State α) (hfields : HasService fields)
    (inst : Polkadot.State × Docker.Host)
    (hone : ¬ (inst.2.Present service.validatorName ∧ inst.2.Present service.syncName)) (r : Race α)
    (hr : Race.Reachable config service (Settled config service) fields inst r)
    (listener : Flight α) (hlistener : r.listener = some listener)
    (hended : listener.ended = true) : ¬ r.inst.2.Running service.validatorName := by
  have hinst : ¬ Both service inst.2 := fun hboth => hone ⟨hboth.1.present, hboth.2.present⟩
  have hg := guarded_reachable hrole hfields hinst hr
  obtain ⟨-, -, -, hf⟩ := hg.met listener hlistener
  obtain ⟨_, hout⟩ := Nested.promises_ended Docker.rely_refl hf hg.hasService hended
  exact hout

/-- Told at the start of the tick, the listener runs between its steps. -/
def outpaced : Race ℕ :=
  (Race.moveTick Polkadot.plainConfig leadThenLose)^[40]
    ((Race.moveListener Polkadot.plainConfig leadThenLose)^[40]
      ((Race.moveTick Polkadot.plainConfig leadThenLose)^[12]
        (passiveNode.deliver (plainNode 1) 2)))

theorem new_leader_beats_tick_early : outpaced.tick.ended = true ∧
    outpaced.listener.map Nested.ended = some true ∧
    ¬ outpaced.inst.2.Running Polkadot.plainConfig.validatorName := by
  have hends : outpaced.tick.ended = true ∧ outpaced.listener.map Nested.ended = some true := by
    decide +kernel
  obtain ⟨listener, hlistener, hended⟩ := Option.map_eq_some_iff.mp hends.2
  refine ⟨hends.1, hends.2, ?_⟩
  refine new_leader_beats_tick (plainNode 1) Polkadot.plainConfig (by decide) passiveNode.fields rfl
    passiveNode.inst (by decide) outpaced ?_ listener hlistener hended
  have hdeliver : Race.Reachable (plainNode 1) Polkadot.plainConfig
      (Settled (plainNode 1) Polkadot.plainConfig) passiveNode.fields passiveNode.inst
      (passiveNode.deliver (plainNode 1) 2) := deliver_steps (by decide) rfl settled_tick
  have htick := hdeliver.trans (iterate_steps (moveTick_steps leadThenLose_answers) 12 _)
  have hboth := htick.trans (iterate_steps (moveListener_steps leadThenLose_answers) 40 _)
  exact hboth.trans (iterate_steps (moveTick_steps leadThenLose_answers) 40 _)

/-- The tick has read for the last time that node 1 leads, and started to start
the service in active mode; the listener finds the sync container running and
returns at once; the tick goes on. -/
def outrun : Race ℕ :=
  (Race.moveTick Polkadot.plainConfig leadThenLose)^[40]
    ((Race.moveListener Polkadot.plainConfig leadThenLose)^[40]
      (((Race.moveTick Polkadot.plainConfig leadThenLose)^[12]
        passiveNode).deliver (plainNode 1) 2))

theorem outrun_reachable : Race.Reachable (plainNode 1) Polkadot.plainConfig (fun _ => True)
    passiveNode.fields passiveNode.inst outrun := by
  have htick : ∀ n r, Relation.ReflTransGen
      (Race.Step (plainNode 1) Polkadot.plainConfig fun _ => True) r
      ((Race.moveTick Polkadot.plainConfig leadThenLose)^[n] r) :=
    iterate_steps (moveTick_steps leadThenLose_answers)
  have hlistener : ∀ n r, Relation.ReflTransGen
      (Race.Step (plainNode 1) Polkadot.plainConfig fun _ => True) r
      ((Race.moveListener Polkadot.plainConfig leadThenLose)^[n] r) :=
    iterate_steps (moveListener_steps leadThenLose_answers)
  have hne : 2 ≠ (plainNode 1).nodeKey := by decide
  have hdeliver := (htick 12 passiveNode).trans (deliver_steps hne (by decide +kernel) trivial)
  exact (hdeliver.trans (hlistener 40 _)).trans (htick 40 _)

theorem tick_beats_new_leader : ¬ ∀ (config : Config ℕ) (service : Polkadot.Config),
    config.nodeRole ≠ "noservice" → config.serviceMode = "orchestrator" →
    ∀ fields : State ℕ, HasService fields → ∀ inst : Polkadot.State × Docker.Host,
    ¬ (inst.2.Present service.validatorName ∧ inst.2.Present service.syncName) →
    ∀ r, Race.Reachable config service (fun _ => True) fields inst r → r.tick.ended = true →
    ∀ listener, r.listener = some listener → listener.ended = true →
      ¬ r.inst.2.Running service.validatorName := by
  intro hall
  have hends : outrun.tick.ended = true ∧ outrun.listener.map Nested.ended = some true ∧
      outrun.inst.2.Running Polkadot.plainConfig.validatorName := by decide +kernel
  obtain ⟨htick, hended, hrun⟩ := hends
  obtain ⟨listener, hlistener, hended⟩ := Option.map_eq_some_iff.mp hended
  exact hall (plainNode 1) Polkadot.plainConfig (by decide) rfl passiveNode.fields rfl
    passiveNode.inst (by decide) outrun outrun_reachable htick listener hlistener hended hrun

end Race

end Archipel.Orchestrator
