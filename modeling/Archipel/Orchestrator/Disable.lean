import Archipel.Orchestrator.Listener

/-!
# One tick and one request to disable the orchestration

The request clears the flag, waits five seconds for the tick in flight and
starts the service in passive mode. A tick looks at the flag only once, at its
start, and may be in flight for longer.
-/

namespace Archipel.Orchestrator
open Async
open Polkadot (Mode Both)

variable {α : Type}

abbrev Request (α : Type) := Nested (api α) Docker.api (State α) Polkadot.State String Bool

abbrev anyAnswer : Answered (api α) String := fun _ _ => True

structure Disabling (α : Type) where
  fields : State α
  inst : Polkadot.State × Docker.Host
  tick : Flight α
  request : Option (Request α)

/-- What the request has returned. -/
def Disabling.returned (d : Disabling α) : Option Bool :=
  match d.request with
  | some (.own (.done result)) => some result
  | _ => none

theorem returned_some {d : Disabling α} {result : Bool} (h : d.returned = some result) :
    d.request = some (.own (.done result)) := by
  unfold Disabling.returned at h
  split at h
  · next hrequest =>
    cases h
    exact hrequest
  · cases h

/-- The request waits for the tick to end. -/
def Waiting : Request α → Prop
  | .own (.await (.setTimeout _) _) => True
  | _ => False

/-- The moves of a tick and a request; `closes` says at which points of the tick
the wait of the request may be over. -/
inductive Disabling.Step (config : Config α) (service : Polkadot.Config)
    (closes : Flight α → Prop) : Disabling α → Disabling α → Prop
  | tick {d : Disabling α} {tick : Flight α} {fields : State α}
      {inst : Polkadot.State × Docker.Host}
      (h : Nested.Step (serviceCalls service) anyAnswer Docker.daemon d.tick (d.fields, d.inst) tick
        (fields, inst)) : Step config service closes d { d with fields, inst, tick }
  | call {d : Disabling α} (hrequest : d.request = none) :
      Step config service closes d { d with request := some (.own (disableOrchestration config)) }
  | request {d : Disabling α} {request request' : Request α} {fields : State α}
      {inst : Polkadot.State × Docker.Host} (hrequest : d.request = some request)
      (hcloses : Waiting request → closes d.tick)
      (h : Nested.Step (serviceCalls service) anyAnswer Docker.daemon request (d.fields, d.inst)
        request' (fields, inst)) :
      Step config service closes d { d with fields, inst, request := some request' }

/-- The tick is past its last start of the service in active mode, and creates
and starts no validator container any more. -/
def Retired (service : Polkadot.Config) : Flight α → Prop
  | .own m => OnlyCalls (A := api α) (· ≠ .start .active) m
  | .inside _ m k => OnlyCalls (A := Docker.api) (Docker.Call.spares service.validatorName) m ∧
      ∀ r, OnlyCalls (A := api α) (· ≠ .start .active) (k r)

/-- The tick calls `serviceStart('active')`. -/
def Issues : Flight α → Prop
  | .own (.await (.start .active) _) => True
  | _ => False

section Disabling
variable {config : Config α} {service : Polkadot.Config}

/-! ### The tick -/

/-- The code of the tick itself starts the service in passive mode only. -/
def Quits : Flight α → Prop
  | .own m => OnlyCalls (A := api α) (· ≠ .start .active) m
  | .inside _ _ k => ∀ r, OnlyCalls (A := api α) (· ≠ .start .active) (k r)

theorem quits_step {link : Linkage (api α) Docker.api Polkadot.State String} {f f' : Flight α}
    {x x' : State α × Polkadot.State × Docker.Host} (hf : Quits f)
    (h : Nested.Step link anyAnswer Docker.daemon f x f' x') : Quits f' := by
  cases h with
  | turn hs => exact onlyCalls_turn hf _
  | serve hlink hr => exact hf.2 _
  | enter hlink => exact hf.2
  | move h => exact hf
  | finish => exact hf _
  | throw => exact hf _

theorem quits_not_issues {f : Flight α} (hf : Quits f) : ¬ Issues f := by
  intro hissues
  unfold Issues at hissues
  split at hissues
  · exact hf.1 rfl
  · exact hissues

theorem retired_of_ended {f : Flight α} (hf : f.ended = true) : Retired service f := by
  cases f with
  | own m =>
    cases m with
    | done a => trivial
    | fail e => trivial
    | read k | write s k | await c k => cases hf
  | inside c m k => cases hf

theorem retired_quits {f : Flight α} (hf : Retired service f) : Quits f := by
  cases f with
  | own m => exact hf
  | inside c m k => exact hf.2

theorem retired_spared {f : Flight α} (hf : Retired service f) : Spared anyAnswer service f := by
  cases f with
  | own m => exact abides_of_onlyCalls hf
  | inside c m k => exact ⟨hf.1, fun r => abides_of_onlyCalls (hf.2 r)⟩

/-! ### The request -/

/-- The promise of a function in flight after the wait. -/
abbrev Closed {β : Type} (service : Polkadot.Config)
    (Q : Except String β → Polkadot.State × Docker.Host → Prop)
    (f : Nested (api α) Docker.api (State α) Polkadot.State String β)
    (x : State α × Polkadot.State × Docker.Host) : Prop :=
  f.Promises (serviceCalls service) anyAnswer (service.rely .passive) (service.rely .passive)
    Docker.daemon HasService (fun out x => Q out x.2) x

def Stopped (service : Polkadot.Config) (out : Except String Bool)
    (y : Polkadot.State × Docker.Host) : Prop :=
  out = .ok true → ¬ y.2.Running service.validatorName

/-- The request has not waited yet, and keeps its promise once it has. -/
def Early (service : Polkadot.Config) : Method α Bool → Prop
  | .done result => result = false
  | .fail _ => True
  | .read k => ∀ s, Early service (k s)
  | .write _ k => Early service k
  | .await (.setTimeout _) k =>
    ∀ r x, ¬ Both service x.2.2 → Closed service (Stopped service) (.own (k r)) x
  | .await _ _ => False

theorem closed_passive (hrole : config.nodeRole ≠ "noservice")
    {x : State α × Polkadot.State × Docker.Host} (hx : ¬ Both service x.2.2) :
    Closed service (Stopped service)
      (.own (do let _ ← serviceStart config .passive; pure true)) x := by
  intro s y hs hy
  obtain ⟨object, hobject⟩ := Option.isSome_iff_exists.mp hs
  rw [wp_bind, wp_serviceStart (x := (s, y)) hrole .passive hobject]
  intro z hz
  have hone := Polkadot.rely_exclusive service .passive (Docker.rely_trans _ _ _ hy hz) hx
  refine wp_mono (shielded_mono _ _ _) _ ?_ z (wp_start_working .passive hone)
  intro r u hu s' v hs' hv
  have hstopped : ¬ v.2.Running service.validatorName := fun hrun =>
    hu (Docker.Keeps.down_running hv hrun)
  cases r with
  | ok started => exact fun _ => hstopped
  | error e => exact fun _ => hstopped

theorem early_disableOrchestration (hrole : config.nodeRole ≠ "noservice") :
    Early service (disableOrchestration config : Method α Bool) := by
  intro s
  show Early service (if _ then _ else _)
  split
  · intro s r x hx
    cases r with
    | ok _ => exact closed_passive hrole hx
    | error e => exact fun s y _ _ h => by cases h
  · rfl

theorem early_turn {m : Method α Bool} (hm : Early service m) (s : State α) :
    Early service (m.turn s).1 := by
  induction m generalizing s with
  | done result => exact hm
  | fail e => trivial
  | read k ih => exact ih s (hm s) s
  | write s' k ih => exact ih hm s'
  | await c k ih => exact hm

/-- The request before its wait is over. -/
def EarlyRequest (service : Polkadot.Config) : Request α → Prop
  | .own m => Early service m
  | .inside _ _ _ => False

theorem earlyRequest_step {f f' : Request α} {x x' : State α × Polkadot.State × Docker.Host}
    (hf : EarlyRequest service f)
    (h : Nested.Step (serviceCalls service) anyAnswer Docker.daemon f x f' x') :
    x'.2 = x.2 ∧ (EarlyRequest service f' ∨ Waiting f ∧
      ∀ y, ¬ Both service y.2.2 → Closed service (Stopped service) f' y) := by
  cases h with
  | turn hs => exact ⟨rfl, .inl (early_turn hf _)⟩
  | @serve c k _ r hlink hr =>
    cases c with
    | setTimeout ms => exact ⟨rfl, .inr ⟨trivial, hf r⟩⟩
    | _ => exact hf.elim
  | @enter c m k _ hlink =>
    cases c with
    | setTimeout ms => cases hlink
    | _ => exact hf.elim
  | move h => exact hf.elim
  | finish => exact hf.elim
  | throw => exact hf.elim

theorem earlyRequest_not_true {f : Request α} (hf : EarlyRequest service f) :
    f ≠ .own (.done true) := by
  intro hdone
  rw [hdone] at hf
  cases hf

/-! ### The invariant -/

/-- Before and after the wait of the request. -/
inductive Phase (service : Polkadot.Config) (d : Disabling α) : Prop
  | early (hrequest : ∀ f, d.request = some f → EarlyRequest service f)
      (htick : Starting service d.tick d.inst)
  | late (f : Request α) (hrequest : d.request = some f) (hquits : Quits d.tick)
      (htick : Closed service (fun _ _ => True) d.tick (d.fields, d.inst))
      (hf : Closed service (Stopped service) f (d.fields, d.inst))

structure Disabling.Guarded (service : Polkadot.Config) (d : Disabling α) : Prop where
  hasService : HasService d.fields
  exclusive : ¬ Both service d.inst.2
  fields : d.tick.Maintains HasService
  requestFields : ∀ f, d.request = some f → f.Maintains HasService
  phase : Phase service d

theorem unlimited_anyAnswer : Unlimited service (anyAnswer (α := α)) :=
  fun _ _ _ _ => trivial

theorem closed_step {β : Type} {Q : Except String β → Polkadot.State × Docker.Host → Prop}
    (hQ : ∀ out y z, Q out y → service.rely .passive y z → Q out z)
    {f f' : Nested (api α) Docker.api (State α) Polkadot.State String β}
    {x x' : State α × Polkadot.State × Docker.Host} (hf : Closed service Q f x)
    (hx : HasService x.1)
    (h : Nested.Step (serviceCalls service) anyAnswer Docker.daemon f x f' x') :
    service.rely .passive x.2 x'.2 ∧ Closed service Q f' x' :=
  Nested.promises_step Docker.rely_refl Docker.rely_trans Docker.rely_refl Docker.rely_trans
    (fun out y _ z hy _ hz => hQ out y.2 z hy hz) hf hx h

theorem stopped_rely (out : Except String Bool) (y z : Polkadot.State × Docker.Host)
    (hy : Stopped service out y) (hz : service.rely .passive y z) : Stopped service out z :=
  fun hout hrun => hy hout (Docker.Keeps.down_running hz hrun)

theorem maintains_disableOrchestration :
    Maintains (A := api α) HasService (disableOrchestration config) := by
  refine maintains_get_bind fun s _ => ?_
  split
  · refine maintains_bind (maintains_modify fun _ h => h) fun _ => ?_
    refine maintains_bind (maintains_call _) fun _ => ?_
    exact maintains_bind (hasService_serviceStart .passive) fun _ => trivial
  · trivial

theorem guarded_tick {d : Disabling α} (hd : Disabling.Guarded service d) {tick : Flight α}
    {fields : State α} {inst : Polkadot.State × Docker.Host}
    (h : Nested.Step (serviceCalls service) anyAnswer Docker.daemon d.tick (d.fields, d.inst) tick
      (fields, inst)) : Disabling.Guarded service { d with fields, inst, tick } := by
  obtain ⟨hfields, hservice⟩ := Nested.maintains_step hd.fields hd.hasService h
  cases hd.phase with
  | early hrequest htick =>
    obtain ⟨hexclusive, hstarting⟩ := starting_step htick hd.exclusive h
    exact ⟨hservice, hexclusive, hfields, hd.requestFields, .early hrequest hstarting⟩
  | late f hrequest hquits htick hf =>
    obtain ⟨hG, htick'⟩ := closed_step (fun _ _ _ _ _ => trivial) htick hd.hasService h
    have hexclusive := Polkadot.rely_exclusive service .passive hG hd.exclusive
    have hf' := Nested.promises_rely Docker.rely_trans hf hG
    exact ⟨hservice, hexclusive, hfields, hd.requestFields,
      .late f hrequest (quits_step hquits h) htick' hf'⟩

theorem guarded_call (hrole : config.nodeRole ≠ "noservice") {d : Disabling α}
    (hd : Disabling.Guarded service d) (hrequest : d.request = none) :
    Disabling.Guarded service { d with request := some (.own (disableOrchestration config)) } := by
  have hmaintains : ∀ f : Request α, some (.own (disableOrchestration config)) = some f →
      f.Maintains HasService := by
    intro f hf
    cases hf
    exact maintains_disableOrchestration
  have hearly : ∀ f : Request α, some (.own (disableOrchestration config)) = some f →
      EarlyRequest service f := by
    intro f hf
    cases hf
    exact early_disableOrchestration hrole
  cases hd.phase with
  | early _ htick =>
    exact ⟨hd.hasService, hd.exclusive, hd.fields, hmaintains, .early hearly htick⟩
  | late f hsome =>
    rw [hrequest] at hsome
    cases hsome

/-- A move of the request; if it ends the wait the tick is retired. -/
theorem guarded_request {d : Disabling α} (hd : Disabling.Guarded service d)
    {request request' : Request α} {fields : State α} {inst : Polkadot.State × Docker.Host}
    (hrequest : d.request = some request) (hcloses : Waiting request → Retired service d.tick)
    (h : Nested.Step (serviceCalls service) anyAnswer Docker.daemon request (d.fields, d.inst)
      request' (fields, inst)) :
    Disabling.Guarded service { d with fields, inst, request := some request' } := by
  obtain ⟨hfields, hservice⟩ :=
    Nested.maintains_step (hd.requestFields request hrequest) hd.hasService h
  have hrequestFields : ∀ f, some request' = some f → f.Maintains HasService := by
    intro f hf
    cases hf
    exact hfields
  cases hd.phase with
  | early hearly htick =>
    obtain ⟨hinst, hnext⟩ := earlyRequest_step (hearly request hrequest) h
    have hinst' : inst = d.inst := hinst
    subst hinst'
    rcases hnext with hnext | ⟨hwaiting, hnext⟩
    · have hearly' : ∀ f, some request' = some f → EarlyRequest service f := by
        intro f hf
        cases hf
        exact hnext
      exact ⟨hservice, hd.exclusive, hd.fields, hrequestFields, .early hearly' htick⟩
    · have hretired := hcloses hwaiting
      have htick' : Closed service (fun _ _ => True) d.tick (fields, d.inst) :=
        promises_spared unlimited_anyAnswer (retired_spared hretired) htick hd.exclusive
      exact ⟨hservice, hd.exclusive, hd.fields, hrequestFields,
        .late request' rfl (retired_quits hretired) htick' (hnext _ hd.exclusive)⟩
  | late f hsome hquits htick hf =>
    rw [hrequest] at hsome
    cases hsome
    obtain ⟨hG, hf'⟩ := closed_step stopped_rely hf hd.hasService h
    have hexclusive := Polkadot.rely_exclusive service .passive hG hd.exclusive
    have htick' := Nested.promises_rely Docker.rely_trans htick hG
    exact ⟨hservice, hexclusive, hd.fields, hrequestFields, .late request' rfl hquits htick' hf'⟩

theorem disabling_step (hrole : config.nodeRole ≠ "noservice") {d d' : Disabling α}
    (hd : Disabling.Guarded service d)
    (h : Disabling.Step config service (Retired service) d d') : Disabling.Guarded service d' := by
  cases h with
  | tick h => exact guarded_tick hd h
  | call hrequest => exact guarded_call hrole hd hrequest
  | request hrequest hcloses h => exact guarded_request hd hrequest hcloses h

/-! ### Playing a request against a tick -/

def Disabling.moveTick (service : Polkadot.Config) (D : (c : Call α) → Except String c.Ret)
    (d : Disabling α) : Disabling α :=
  if d.tick.ended then d
  else
    let (tick, fields, inst) := Nested.next (serviceCalls service) D Docker.answer d.tick
      (d.fields, d.inst)
    { d with fields, inst, tick }

def Disabling.moveRequest (config : Config α) (service : Polkadot.Config)
    (D : (c : Call α) → Except String c.Ret) (d : Disabling α) : Disabling α :=
  match d.request with
  | none => { d with request := some (.own (disableOrchestration config)) }
  | some request =>
    if request.ended then d
    else
      let (request, fields, inst) := Nested.next (serviceCalls service) D Docker.answer request
        (d.fields, d.inst)
      { d with fields, inst, request := some request }

section Play
variable {closes : Flight α → Prop} (D : (c : Call α) → Except String c.Ret)

theorem disabling_moveTick_steps (d : Disabling α) :
    Relation.ReflTransGen (Disabling.Step config service closes) d (d.moveTick service D) := by
  unfold Disabling.moveTick
  split
  · exact .refl
  · next h =>
    exact .single (.tick (Nested.next_step (fun _ => trivial) Docker.answer_daemon d.tick
      (d.fields, d.inst) (by simpa using h)))

theorem disabling_moveRequest_steps (d : Disabling α) (hcloses : closes d.tick) :
    Relation.ReflTransGen (Disabling.Step config service closes) d
      (d.moveRequest config service D) := by
  unfold Disabling.moveRequest
  split
  · next hrequest => exact .single (.call hrequest)
  · next request hrequest =>
    split
    · exact .refl
    · next h =>
      exact .single (.request hrequest (fun _ => hcloses) (Nested.next_step (fun _ => trivial)
        Docker.answer_daemon request (d.fields, d.inst) (by simpa using h)))

theorem moveRequest_tick (n : ℕ) (d : Disabling α) :
    ((Disabling.moveRequest config service D)^[n] d).tick = d.tick := by
  have hmove : ∀ d : Disabling α, (d.moveRequest config service D).tick = d.tick := by
    intro d
    unfold Disabling.moveRequest
    split
    · rfl
    · split <;> rfl
  induction n generalizing d with
  | zero => rfl
  | succ n ih => exact (ih (d.moveRequest config service D)).trans (hmove d)

/-- A request that runs to its end while the tick stands still. -/
theorem disabling_request_steps (n : ℕ) (d : Disabling α) (hcloses : closes d.tick) :
    Relation.ReflTransGen (Disabling.Step config service closes) d
      ((Disabling.moveRequest config service D)^[n] d) := by
  induction n with
  | zero => exact .refl
  | succ n ih =>
    rw [Function.iterate_succ_apply']
    refine ih.trans (disabling_moveRequest_steps D _ ?_)
    rw [moveRequest_tick]
    exact hcloses

end Play

/-! ### Every reachable state -/

variable [DecidableEq α]

def Disabling.start (config : Config α) (fields : State α) (inst : Polkadot.State × Docker.Host) :
    Disabling α := ⟨fields, inst, .own (orchestrateService config), none⟩

def Disabling.Reachable (config : Config α) (service : Polkadot.Config) (closes : Flight α → Prop)
    (fields : State α) (inst : Polkadot.State × Docker.Host) (d : Disabling α) : Prop :=
  Relation.ReflTransGen (Disabling.Step config service closes) (.start config fields inst) d

theorem disabling_reachable (hrole : config.nodeRole ≠ "noservice") {fields : State α}
    (hfields : HasService fields) {inst : Polkadot.State × Docker.Host}
    (hinst : ¬ Both service inst.2) {d : Disabling α}
    (hd : Disabling.Reachable config service (Retired service) fields inst d) :
    Disabling.Guarded service d := by
  induction hd with
  | refl =>
    have hnone : ∀ f, (Disabling.start config fields inst).request ≠ some f := fun f hf => by
      cases hf
    exact ⟨hfields, hinst, hasService_orchestrateService, fun f hf => absurd hf (hnone f),
      .early (fun f hf => absurd hf (hnone f)) trivial⟩
  | tail _ hstep ih => exact disabling_step hrole ih hstep

/-! ### Disabling the orchestration -/

/-- Where the wait of the request ends at a retired point of the tick, disabling
is final: once the request has returned true the tick starts the service in
active mode no more, and the validator container does not run. -/
theorem disabled_is_final (config : Config α) (service : Polkadot.Config)
    (hrole : config.nodeRole ≠ "noservice") (fields : State α) (hfields : HasService fields)
    (inst : Polkadot.State × Docker.Host) (hone : ¬ Both service inst.2) (d : Disabling α)
    (hd : Disabling.Reachable config service (Retired service) fields inst d)
    (hreturned : d.returned = some true) :
    ¬ Issues d.tick ∧ ¬ d.inst.2.Running service.validatorName := by
  have hguarded := disabling_reachable hrole hfields hone hd
  cases hguarded.phase with
  | early hearly => exact absurd rfl (earlyRequest_not_true (hearly _ (returned_some hreturned)))
  | late f hrequest hquits htick hf =>
    rw [returned_some hreturned] at hrequest
    cases hrequest
    have hstopped := hf d.fields d.inst hguarded.hasService (Docker.rely_refl d.inst)
    exact ⟨quits_not_issues hquits, hstopped rfl⟩

def disablingNode : Disabling ℕ := .start (plainNode 1) passiveNode.fields passiveNode.inst

/-- The tick moves `n` times, then the request is made and runs to its end. -/
def disabledAfter (n : ℕ) : Disabling ℕ :=
  (Disabling.moveRequest (plainNode 1) Polkadot.plainConfig (leadThenLose false))^[60]
    ((Disabling.moveTick Polkadot.plainConfig (leadThenLose false))^[n] disablingNode)

theorem disablingNode_tick_steps (closes : Flight ℕ → Prop) (n : ℕ) (d : Disabling ℕ) :
    Relation.ReflTransGen (Disabling.Step (plainNode 1) Polkadot.plainConfig closes) d
      ((Disabling.moveTick Polkadot.plainConfig (leadThenLose false))^[n] d) :=
  iterate_steps (disabling_moveTick_steps (leadThenLose false)) n d

theorem disabledAfter_steps (closes : Flight ℕ → Prop) (n : ℕ)
    (hcloses : closes ((Disabling.moveTick Polkadot.plainConfig (leadThenLose false))^[n]
      disablingNode).tick) :
    Disabling.Reachable (plainNode 1) Polkadot.plainConfig closes passiveNode.fields
      passiveNode.inst (disabledAfter n) :=
  (disablingNode_tick_steps closes n disablingNode).trans
    (disabling_request_steps _ 60 _ hcloses)

theorem disabledAfter_retired (n : ℕ)
    (hended : ((Disabling.moveTick Polkadot.plainConfig (leadThenLose false))^[n]
      disablingNode).tick.ended = true) :
    Disabling.Reachable (plainNode 1) Polkadot.plainConfig (Retired Polkadot.plainConfig)
      passiveNode.fields passiveNode.inst (disabledAfter n) :=
  disabledAfter_steps (Retired Polkadot.plainConfig) n (retired_of_ended hended)

theorem disabled_is_final_ended :
    ¬ Issues (disabledAfter 60).tick ∧
      ¬ (disabledAfter 60).inst.2.Running Polkadot.plainConfig.validatorName := by
  have hended : ((Disabling.moveTick Polkadot.plainConfig (leadThenLose false))^[60]
      disablingNode).tick.ended = true := by decide +kernel
  have hreach := disabledAfter_retired 60 hended
  have hreturned : (disabledAfter 60).returned = some true := by decide +kernel
  exact disabled_is_final (plainNode 1) Polkadot.plainConfig (by decide) passiveNode.fields rfl
    passiveNode.inst (by decide) (disabledAfter 60) hreach hreturned

/-- The request runs to its end while the tick waits for its last `getLeader`;
then the tick runs to its end. -/
def outlasting : Disabling ℕ :=
  (Disabling.moveTick Polkadot.plainConfig (leadThenLose false))^[60] (disabledAfter 8)

theorem tick_outlasts_disabling : ¬ ∀ (config : Config ℕ) (service : Polkadot.Config),
    config.nodeRole ≠ "noservice" → ∀ fields : State ℕ, HasService fields →
    ∀ inst : Polkadot.State × Docker.Host, ¬ Both service inst.2 → ∀ d,
    Disabling.Reachable config service (fun _ => True) fields inst d → d.returned = some true →
      ¬ Issues d.tick ∧ (d.tick.ended = true → ¬ d.inst.2.Running service.validatorName) := by
  intro h
  have hreach : Disabling.Reachable (plainNode 1) Polkadot.plainConfig (fun _ => True)
      passiveNode.fields passiveNode.inst outlasting :=
    (disabledAfter_steps _ 8 trivial).trans (disablingNode_tick_steps _ 60 (disabledAfter 8))
  have hends : outlasting.returned = some true ∧ outlasting.tick.ended = true ∧
      outlasting.inst.2.Running Polkadot.plainConfig.validatorName := by decide +kernel
  obtain ⟨hreturned, hended, hrunning⟩ := hends
  exact (h (plainNode 1) Polkadot.plainConfig (by decide) passiveNode.fields rfl passiveNode.inst
    (by decide) outlasting hreach hreturned).2 hended hrunning

end Disabling

end Archipel.Orchestrator
