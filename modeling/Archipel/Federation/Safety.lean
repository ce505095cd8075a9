import Archipel.Federation.Play
import Archipel.Orchestrator.Rules

/-!
# At most one informed node of a group validates

The invariant of one node couples its host, the leaders of the chain and its
queue of events: while its validator container runs, its account leads its
group, or nobody does, or a `NewLeader` event of another account is on its way
to it. Calls of anybody keep it, and a node starts its validator container only
right after it has read that it leads. The process does not wait for its
subscription before it opens its API, so that the invariant is one of the runs
in which the API asks no node for active mode too early.
-/

namespace Archipel.Federation
open Async
open Pallet (Storage Extrinsic)
open Polkadot (Mode Both)

variable {ι α : Type} [DecidableEq α] [Inhabited α]

/-! ### The calls of the orchestrator -/

theorem rpc_advances {block : ℕ} {c : Chain.Call α} {s s' : Storage α} {r : Except String c.Ret}
    (h : rpc block c s r s') : s.Advances s' := by
  cases c with
  | send transaction =>
    rcases h with h | h
    · rw [h]
      exact .refl s
    · rw [h]
      exact .execute s _
  | bestNumberFinalized | health | account key =>
    have hs : s' = s := h
    rw [hs]
    exact .refl s
  | isConnected | bestNumber | leaders g | leadedGroup g | heartbeats key | setTimeout ms =>
    rw [h.2]
    exact .refl s
  | never => exact h.elim

theorem onChain_advances {β : Type} {m : Chain.Method α β} {w w' : World α} {r : Except String β}
    (h : onChain m w r w') : w.pallet.Advances w'.pallet ∧ w'.host = w.host := by
  obtain ⟨chain, pallet, hr, rfl⟩ := h
  refine ⟨?_, rfl⟩
  refine wp_runs (wp_invariant (I := fun y => w.pallet.Advances y.2) (demonic_mono _) ?_ ?_
    (onlyCalls_true m) _ (.refl _)) hr
  · exact fun _ _ hx => ⟨trivial, hx⟩
  · exact fun c _ x hx r w hc => hx.trans (rpc_advances hc)

theorem onChain_getLeader {g : UInt32} {w w' : World α} {r : Except String (Option α)}
    (h : onChain (Chain.getLeader g) w r w') : w'.pallet = w.pallet ∧ w'.host = w.host ∧
      (r = .ok (some (w.pallet.getLeader g)) ∨ r = .ok none) := by
  obtain ⟨chain, pallet, hr, rfl⟩ := h
  have hwp : wp (demonic (rpc w.block)) free (Chain.getLeader g) (fun out y => y.2 = w.pallet ∧
      (out = .ok (some (w.pallet.getLeader g)) ∨ out = .ok none)) (w.chain, w.pallet) := by
    refine (wp_tryCatch ..).mpr ((wp_bind ..).mpr ((wp_call ..).mpr ?_))
    intro r s hc
    obtain ⟨hr, rfl⟩ := hc
    rcases hr with rfl | ⟨e, rfl⟩
    · exact ⟨rfl, .inl rfl⟩
    · exact ⟨rfl, .inr rfl⟩
  obtain ⟨hpallet, hout⟩ := wp_runs hwp hr
  exact ⟨hpallet, rfl, hout⟩

omit [DecidableEq α] [Inhabited α] in
theorem onHost_start {service : Polkadot.Config} {mode : Mode} {w w' : World α}
    {r : Except String Bool} (h : onHost (Polkadot.start service mode) w r w')
    (hw : ¬ Both service w.host) : w'.pallet = w.pallet ∧ ¬ Both service w'.host ∧
      (mode = .passive → ¬ w'.host.Running service.validatorName) := by
  obtain ⟨polkadot, host, hr, rfl⟩ := h
  obtain ⟨-, hdown⟩ := Polkadot.start_moves service mode (x := (w.polkadot, w.host)) hw hr
  refine ⟨rfl, fun hboth => hdown ((Polkadot.both_iff service mode host).mp hboth).2, ?_⟩
  intro hmode
  subst hmode
  exact hdown

omit [DecidableEq α] [Inhabited α] in
theorem onHost_harmless {β : Type} {m : Polkadot.Method β} (hm : Docker.Harmless m)
    {w w' : World α} {r : Except String β} (h : onHost m w r w') : w'.pallet = w.pallet ∧
      (∀ name, w'.host.Running name → w.host.Running name) := by
  obtain ⟨polkadot, host, hr, rfl⟩ := h
  refine ⟨rfl, fun name => ?_⟩
  refine wp_runs (wp_invariant (I := fun y => y.2.Running name → w.host.Running name)
    (demonic_mono _) ?_ ?_ hm _ id) hr
  · exact fun _ _ hx => ⟨trivial, hx⟩
  · intro c hc x hx r w hcall hrun
    exact hx ((Docker.harmless_keeps name name hc hcall).down_running hrun)

theorem serve_advances {config : Orchestrator.Config α} {service : Polkadot.Config}
    {c : Orchestrator.Call α} {w w' : World α} {r : Except String c.Ret}
    (h : serve config service c w r w') : w.pallet.Advances w'.pallet := by
  cases c with
  | canSendTransactions | isConnected | getPeerNumber | getBestNumberFinalized | getSyncState
  | getBestNumber | getLeader g | isLeadedGroup g | getHeartbeat key | setLeader old g
  | addHeartbeat mode g | giveUpLeadership g => exact (onChain_advances h).1
  | getPeerId | bootstrap =>
    have hw' : w' = w := h
    rw [hw']
    exact .refl _
  | isServiceReadyToStart | setTimeout ms =>
    rw [h.2]
    exact .refl _
  | start mode | cleanUp | checkLaunchedContainer | getInfo =>
    obtain ⟨polkadot, host, -, rfl⟩ := h
    exact .refl _

/-- After a call that does not start the service in active mode only what ran
before runs, or the validator container does not run. -/
theorem serve_host {config : Orchestrator.Config α} {service : Polkadot.Config}
    {c : Orchestrator.Call α} {w w' : World α} {r : Except String c.Ret}
    (hc : c ≠ .start .active) (h : serve config service c w r w') :
    (∀ name, w'.host.Running name → w.host.Running name) ∨
      (¬ Both service w.host →
        ¬ Both service w'.host ∧ ¬ w'.host.Running service.validatorName) := by
  cases c with
  | canSendTransactions | isConnected | getPeerNumber | getBestNumberFinalized | getSyncState
  | getBestNumber | getLeader g | isLeadedGroup g | getHeartbeat key | setLeader old g
  | addHeartbeat mode g | giveUpLeadership g =>
    rw [(onChain_advances h).2]
    exact .inl fun _ => id
  | getPeerId | bootstrap =>
    have hw' : w' = w := h
    rw [hw']
    exact .inl fun _ => id
  | isServiceReadyToStart | setTimeout ms =>
    rw [h.2]
    exact .inl fun _ => id
  | cleanUp => exact .inl (onHost_harmless (Polkadot.harmless_cleanUp service) h).2
  | checkLaunchedContainer =>
    exact .inl (onHost_harmless (Polkadot.quiet_checkLaunchedContainer service).harmless h).2
  | getInfo => exact .inl (onHost_harmless (Polkadot.quiet_getInfo service).harmless h).2
  | start mode =>
    cases mode with
    | active => exact absurd rfl hc
    | passive =>
      refine .inr fun hw => ?_
      obtain ⟨-, hexclusive, hpassive⟩ := onHost_start h hw
      exact ⟨hexclusive, hpassive rfl⟩

/-! ### The invariant of one node -/

/-- The service containers do not run both, and while the validator container
runs its node leads the group, or nobody does, or it will be told. -/
structure Guarded (config : Orchestrator.Config α) (service : Polkadot.Config) (delivered : ℕ)
    (pallet : Storage α) (host : Docker.Host) : Prop where
  exclusive : ¬ Both service host
  emitted : delivered ≤ pallet.events.length
  informed : host.Running service.validatorName →
    pallet.Informs config.nodeKey config.group delivered

section Node
variable {config : Orchestrator.Config α} {service : Polkadot.Config} {delivered : ℕ}
  {w w' : World α}

theorem guarded_advance {pallet pallet' : Storage α} {host host' : Docker.Host}
    (hw : Guarded config service delivered pallet host) (hpallet : pallet.Advances pallet')
    (hhost : ∀ name, host'.Running name → host.Running name) :
    Guarded config service delivered pallet' host' where
  exclusive := fun hboth => hw.exclusive ⟨hhost _ hboth.1, hhost _ hboth.2⟩
  emitted := hw.emitted.trans hpallet.events.length_le
  informed := fun hrun => Pallet.informs_advances hpallet hw.emitted (hw.informed (hhost _ hrun))

theorem guarded_serve {c : Orchestrator.Call α} {r : Except String c.Ret}
    (hw : Guarded config service delivered w.pallet w.host) (hc : c ≠ .start .active)
    (h : serve config service c w r w') : Guarded config service delivered w'.pallet w'.host := by
  have hpallet := serve_advances h
  rcases serve_host hc h with hhost | hhost
  · exact guarded_advance hw hpallet hhost
  · obtain ⟨hexclusive, hidle⟩ := hhost hw.exclusive
    exact ⟨hexclusive, hw.emitted.trans hpallet.events.length_le, fun hrun => absurd hrun hidle⟩

theorem guarded_active {r : Except String Bool}
    (hw : Guarded config service delivered w.pallet w.host)
    (hleads : w.pallet.getLeader config.group = config.nodeKey)
    (h : serve config service (.start .active) w r w') :
    Guarded config service delivered w'.pallet w'.host := by
  obtain ⟨hpallet, hexclusive, -⟩ := onHost_start h hw.exclusive
  refine ⟨hexclusive, ?_, fun _ => ?_⟩
  · rw [hpallet]
    exact hw.emitted
  · rw [hpallet]
    cases hl : w.pallet.leaders config.group with
    | none => exact .inr (.inl hl)
    | some leader =>
      have hget : w.pallet.getLeader config.group = leader := by
        unfold Storage.getLeader
        rw [hl]
        rfl
      rw [← hleads, hget]
      exact .inl hl

/-! ### The methods of the orchestrator -/

variable {β : Type} {m : Orchestrator.Method α β} {x : Orchestrator.State α × World α}

abbrev GuardedAt (config : Orchestrator.Config α) (service : Polkadot.Config) (delivered : ℕ)
    (x : Orchestrator.State α × World α) : Prop :=
  Guarded config service delivered x.2.pallet x.2.host

theorem wp_guarded (hm : OnlyCalls (A := Orchestrator.api α) (· ≠ .start .active) m)
    (hx : GuardedAt config service delivered x) :
    wp (demonic (serve config service)) free m
      (fun _ y => GuardedAt config service delivered y) x := by
  refine wp_invariant (I := GuardedAt config service delivered) (demonic_mono _) ?_ ?_ hm x hx
  · exact fun _ _ hy => ⟨trivial, hy⟩
  · exact fun _ hc _ hy _ _ h => guarded_serve hy hc h

theorem wp_guarded_seq {γ : Type} {f : β → Orchestrator.Method α γ}
    (hm : OnlyCalls (A := Orchestrator.api α) (· ≠ .start .active) m)
    (hx : GuardedAt config service delivered x)
    (hf : ∀ b (y : Orchestrator.State α × World α), GuardedAt config service delivered y →
      wp (demonic (serve config service)) free (f b)
        (fun _ z => GuardedAt config service delivered z) y) :
    wp (demonic (serve config service)) free (m >>= f)
      (fun _ y => GuardedAt config service delivered y) x :=
  wp_seq (demonic_mono _) m f x (wp_guarded hm hx) hf fun _ _ h => h

theorem wp_getLeader (hx : GuardedAt config service delivered x) :
    wp (demonic (serve config service)) free (Orchestrator.request (.getLeader config.group))
      (fun out y => GuardedAt config service delivered y ∧ ∀ leader, out = .ok leader →
        Orchestrator.leaderText leader = .address config.nodeKey →
        y.2.pallet.getLeader config.group = config.nodeKey) x := by
  refine (wp_call ..).mpr fun r w h => ?_
  refine ⟨guarded_serve (c := .getLeader config.group) hx (by simp) h, ?_⟩
  obtain ⟨hpallet, -, hr⟩ := onChain_getLeader h
  rintro leader rfl hleader
  rw [hpallet]
  rcases hr with hr | hr
  · cases hr
    exact Wallet.address.inj hleader
  · cases hr
    cases hleader

theorem wp_start_active (hx : GuardedAt config service delivered x)
    (hleads : x.2.pallet.getLeader config.group = config.nodeKey) :
    wp (demonic (serve config service)) free (Orchestrator.serviceStart config .active)
      (fun _ y => GuardedAt config service delivered y) x := by
  unfold Orchestrator.serviceStart
  split
  · exact hx
  · rw [wp_bind, Orchestrator.wp_theService]
    cases x.1.service with
    | none => exact hx
    | some object =>
      show wp _ _ (modify _ >>= _) _ _
      rw [wp_modify_bind, wp_call]
      exact ⟨trivial, fun r w h => guarded_active hx hleads h⟩

theorem wp_lead (f : Option α → Orchestrator.Method α β) (g : Bool → Orchestrator.Method α β)
    (hself : ∀ leader, Orchestrator.leaderText leader = .address config.nodeKey →
      f leader = Orchestrator.serviceStart config .active >>= g)
    (hother : ∀ leader, Orchestrator.leaderText leader ≠ .address config.nodeKey →
      ∀ y : Orchestrator.State α × World α, GuardedAt config service delivered y →
      wp (demonic (serve config service)) free (f leader)
        (fun _ z => GuardedAt config service delivered z) y)
    (hg : ∀ b, OnlyCalls (A := Orchestrator.api α) (· ≠ .start .active) (g b))
    (hx : GuardedAt config service delivered x) :
    wp (demonic (serve config service)) free
      (Orchestrator.request (.getLeader config.group) >>= f)
      (fun _ y => GuardedAt config service delivered y) x := by
  refine wp_seq (demonic_mono _) _ f x (wp_getLeader hx) ?_ fun _ _ h => h.1
  intro leader y ⟨hy, hleads⟩
  by_cases heq : Orchestrator.leaderText leader = .address config.nodeKey
  · rw [hself leader heq]
    exact wp_seq (demonic_mono _) _ g y (wp_start_active hy (hleads leader rfl heq))
      (fun b z hz => wp_guarded (hg b) hz) fun _ _ h => h
  · exact hother leader heq y hy

theorem wp_orchestrateOperatorService (hx : GuardedAt config service delivered x) :
    wp (demonic (serve config service)) free (Orchestrator.orchestrateOperatorService config)
      (fun _ y => GuardedAt config service delivered y) x := by
  refine wp_guarded_seq (onlyCalls_call (by simp)) hx fun sendTransaction x hx => ?_
  split
  · exact wp_guarded (Orchestrator.onlyCalls_start_drop .passive (by simp)) hx
  refine wp_guarded_seq (onlyCalls_call (by simp)) hx fun bestNumber x hx => ?_
  rw [wp_get_bind]
  split
  · exact wp_guarded (Orchestrator.onlyCalls_start_drop .passive (by simp)) hx
  refine wp_guarded_seq (Orchestrator.onlyCalls_serviceReadinessManagement (by simp)) hx
    fun serviceReady x hx => ?_
  split
  · exact wp_guarded (Orchestrator.onlyCalls_start_drop .passive (by simp)) hx
  rw [wp_get_bind]
  split
  · exact wp_guarded (Orchestrator.onlyCalls_start_drop .passive (by simp)) hx
  have hleadership : OnlyCalls (A := Orchestrator.api α) (· ≠ .start .active)
      (Orchestrator.leadershipManagement config) :=
    Orchestrator.onlyCalls_leadershipManagement (by simp) (by simp) (fun _ => by simp) (by simp)
      fun _ => by simp
  refine wp_guarded_seq hleadership hx fun leadership x hx => ?_
  split
  · exact wp_guarded (Orchestrator.onlyCalls_start_drop .passive (by simp)) hx
  refine wp_lead _ (fun _ => pure ()) (fun leader h => if_pos h) ?_ (fun _ => trivial) hx
  intro leader hleader y hy
  rw [if_neg hleader]
  exact hy

theorem wp_forceActive (hx : GuardedAt config service delivered x) :
    wp (demonic (serve config service)) free (Orchestrator.forceActive config)
      (fun _ y => GuardedAt config service delivered y) x := by
  unfold Orchestrator.forceActive
  split
  · exact hx
  refine wp_lead _ (fun _ => pure true) (fun leader h => if_pos h) ?_ (fun _ => trivial) hx
  intro leader hleader x hx
  rw [if_neg hleader]
  refine wp_guarded_seq (onlyCalls_call (by simp)) hx fun isLeadedGroup x hx => ?_
  refine wp_guarded_seq (Orchestrator.onlyCalls_becomeLeader _ (by simp) fun _ => by simp) hx
    fun becomeLeaderResult x hx => ?_
  split
  · refine wp_lead _ (fun _ => pure true) (fun leader h => if_pos h) ?_ (fun _ => trivial) hx
    intro leader hleader y hy
    rw [if_neg hleader]
    exact hy
  · exact hx

theorem wp_tick (hx : GuardedAt config service delivered x) :
    wp (demonic (serve config service)) free (Orchestrator.orchestrationLoop config)
      (fun _ y => GuardedAt config service delivered y) x := by
  refine wp_try (P := fun _ y => GuardedAt config service delivered y)
    (demonic_mono _) _ _ x ?_ (fun _ _ h => h) fun _ _ h => h
  unfold Orchestrator.orchestrateService
  split
  · exact hx
  rw [wp_get_bind]
  split
  · exact hx
  split
  · exact wp_orchestrateOperatorService hx
  split
  · exact wp_guarded (Orchestrator.onlyCalls_start_drop .passive (by simp)) hx
  split
  · exact wp_seq (demonic_mono _) _ _ x (wp_forceActive hx) (fun _ _ h => h) fun _ _ h => h
  · exact hx

omit [Inhabited α] in
theorem onlyCalls_unclaiming {entry : Entry} (h : ¬ entry.claims) :
    OnlyCalls (A := Orchestrator.api α) (· ≠ .start .active) (entry.code config) := by
  cases entry with
  | tick => exact absurd (.inl rfl) h
  | heartbeat =>
    refine onlyCalls_tryCatch (onlyCalls_bind onlyCalls_get fun s => ?_) fun _ => trivial
    split
    · trivial
    · have hmode : OnlyCalls (A := Orchestrator.api α) (· ≠ .start .active)
          (Orchestrator.getServiceMode config) := by
        unfold Orchestrator.getServiceMode
        split
        · trivial
        · exact onlyCalls_bind Orchestrator.onlyCalls_theService fun _ => trivial
      exact onlyCalls_bind hmode fun _ => onlyCalls_bind (onlyCalls_call (by simp)) fun _ => trivial
  | serviceStart mode =>
    have hmode : mode ≠ "active" := fun heq => h (.inr (by rw [heq]))
    show OnlyCalls _ (Orchestrator.routeServiceStart config mode)
    unfold Orchestrator.routeServiceStart
    split
    · trivial
    · exact Orchestrator.onlyCalls_start_drop .passive (by simp)
  | serviceStop =>
    exact onlyCalls_bind (Orchestrator.onlyCalls_serviceCleanUp (by simp)) fun _ => trivial
  | disableOrchestration =>
    refine onlyCalls_bind (onlyCalls_bind onlyCalls_get fun s => ?_) fun _ => trivial
    split
    · exact onlyCalls_bind (onlyCalls_modify _) fun _ =>
        onlyCalls_bind (onlyCalls_call (by simp)) fun _ =>
          onlyCalls_bind (Orchestrator.onlyCalls_serviceStart .passive (by simp)) fun _ => trivial
    · trivial
  | enableOrchestration | disableHeartbeats | enableHeartbeats =>
    refine onlyCalls_bind (onlyCalls_bind onlyCalls_get fun s => ?_) fun _ => trivial
    split
    · exact onlyCalls_bind (onlyCalls_modify _) fun _ => trivial
    · trivial

theorem wp_entry (entry : Entry) (hx : GuardedAt config service delivered x) :
    wp (demonic (serve config service)) free (entry.code config)
      (fun _ y => GuardedAt config service delivered y) x := by
  by_cases hclaims : entry.claims
  · rcases hclaims with rfl | rfl
    · exact wp_tick hx
    · exact wp_seq (demonic_mono _) _ _ x (wp_forceActive hx) (fun _ _ h => h) fun _ _ h => h
  · exact wp_guarded (onlyCalls_unclaiming hclaims) hx

/-! ### Hosts -/

theorem exclusive_serve {c : Orchestrator.Call α} {r : Except String c.Ret}
    (hw : ¬ Both service w.host) (h : serve config service c w r w') : ¬ Both service w'.host := by
  by_cases hc : c = .start .active
  · subst hc
    exact (onHost_start h hw).2.1
  · rcases serve_host hc h with hhost | hhost
    · exact fun hboth => hw ⟨hhost _ hboth.1, hhost _ hboth.2⟩
    · exact (hhost hw).1

/-- Whatever an orchestrator does, no host comes to run both containers. -/
theorem runs_exclusive {y : Orchestrator.State α × World α} {out : Except String β}
    (hx : ¬ Both service x.2.host) (h : Runs (serve config service) m x out y) :
    ¬ Both service y.2.host := by
  refine wp_runs (wp_invariant (I := fun y => ¬ Both service y.2.host) (demonic_mono _) ?_ ?_
    (onlyCalls_true m) x hx) h
  · exact fun _ _ hy => ⟨trivial, hy⟩
  · exact fun _ _ _ hy _ _ h => exclusive_serve hy h

theorem idle_serve {c : Orchestrator.Call α} {r : Except String c.Ret}
    (hw : ¬ w.host.Running service.validatorName) (hc : c ≠ .start .active)
    (h : serve config service c w r w') : ¬ w'.host.Running service.validatorName := by
  rcases serve_host hc h with hhost | hhost
  · exact fun hrun => hw (hhost _ hrun)
  · exact (hhost fun hboth => hw hboth.1).2

theorem wp_idle (hm : OnlyCalls (A := Orchestrator.api α) (· ≠ .start .active) m)
    (hx : ¬ x.2.host.Running service.validatorName) :
    wp (demonic (serve config service)) free m
      (fun _ y => ¬ y.2.host.Running service.validatorName) x := by
  refine wp_invariant (I := fun y => ¬ y.2.host.Running service.validatorName) (demonic_mono _)
    ?_ ?_ hm x hx
  · exact fun _ _ hy => ⟨trivial, hy⟩
  · exact fun _ hc _ hy _ _ h => idle_serve hy hc h

omit [Inhabited α] in
theorem onlyCalls_fillHeartbeatsFromChain (wallets : List (Wallet α)) :
    OnlyCalls (A := Orchestrator.api α) (· ≠ .start .active)
      (Orchestrator.fillHeartbeatsFromChain wallets) := by
  induction wallets with
  | nil => trivial
  | cons wallet wallets ih =>
    exact onlyCalls_bind (onlyCalls_call (by simp)) fun _ =>
      onlyCalls_bind (onlyCalls_modify _) fun _ => ih

theorem wp_bootstrapOrchestrator (hrole : config.nodeRole ≠ "noservice")
    (hw : w.polkadot.cleaningUp = false) :
    wp (demonic (serve config service)) free (Orchestrator.bootstrapOrchestrator config)
      (fun _ y => ¬ y.2.host.Running service.validatorName) (.init config, w) := by
  have hservice : (Orchestrator.State.init config).service = some {} := if_neg hrole
  unfold Orchestrator.bootstrapOrchestrator Orchestrator.serviceCleanUp
  rw [if_neg hrole, if_neg hrole, wp_bind, wp_bind, Orchestrator.wp_theService, hservice]
  dsimp only
  rw [wp_call]
  intro r w' h
  obtain ⟨polkadot, host, hr, rfl⟩ := h
  obtain ⟨rfl, -, hclear, -⟩ := wp_runs (Polkadot.healthy_cleanUp service _ hw) hr
  have hidle : ¬ host.Running service.validatorName := fun hrun => hclear.1 hrun.present
  refine wp_idle ?_ hidle
  refine onlyCalls_bind Orchestrator.onlyCalls_theService fun _ => ?_
  refine onlyCalls_bind (onlyCalls_call (by simp)) fun _ => ?_
  refine onlyCalls_bind (Orchestrator.onlyCalls_serviceStart .passive (by simp))
    fun serviceStart => ?_
  split
  · trivial
  · exact onlyCalls_fillHeartbeatsFromChain _

/-! ### Delivering an event -/

/-- The listener keeps the invariant and the event is done with: a `NewLeader`
of another account stops the validator container. -/
theorem wp_onEvent {event : Pallet.Event α} (hrole : config.nodeRole ≠ "noservice")
    (hservice : x.1.service.isSome) (hevent : x.2.pallet.events[delivered]? = some event)
    (hx : GuardedAt config service delivered x) :
    wp (demonic (serve config service)) free (Orchestrator.onEvent config event)
      (fun _ y => GuardedAt config service (delivered + 1) y) x := by
  obtain ⟨hlt, -⟩ := List.getElem?_eq_some_iff.mp hevent
  have hseen : (∀ other, other ≠ config.nodeKey → event ≠ .newLeader other config.group) →
      GuardedAt config service (delivered + 1) x := fun hother =>
    ⟨hx.exclusive, hlt, fun hrun => (hx.informed hrun).deliver hevent hother⟩
  cases event with
  | newLeader who groupId =>
    show wp _ _ (if _ then _ else _) _ _
    by_cases hother : who ≠ config.nodeKey ∧ groupId = config.group
    · rw [if_pos hother]
      obtain ⟨object, hobject⟩ := Option.isSome_iff_exists.mp hservice
      rw [Orchestrator.wp_serviceStart_drop hrole .passive hobject]
      intro r w h
      obtain ⟨hpallet, hexclusive, hpassive⟩ := onHost_start h hx.exclusive
      refine ⟨hexclusive, ?_, fun hrun => absurd hrun (hpassive rfl)⟩
      show delivered + 1 ≤ w.pallet.events.length
      rw [hpallet]
      exact hlt
    · rw [if_neg hother]
      refine hseen fun other hne heq => hother ?_
      cases heq
      exact ⟨hne, rfl⟩
  | newHeartbeat who groupId nodeStatus now => exact ⟨trivial, hseen fun _ _ => (by simp)⟩
  | giveUpLeader who groupId => exact hseen fun _ _ => (by simp)

/-! ### What a node does to the chain -/

theorem runs_advances {y : Orchestrator.State α × World α} {out : Except String β}
    (h : Runs (serve config service) m x out y) : x.2.pallet.Advances y.2.pallet := by
  refine wp_runs (wp_invariant (I := fun y => x.2.pallet.Advances y.2.pallet) (demonic_mono _)
    ?_ ?_ (onlyCalls_true m) x (.refl _)) h
  · exact fun _ _ hy => ⟨trivial, hy⟩
  · exact fun _ _ _ hy _ _ h => hy.trans (serve_advances h)

omit [Inhabited α] in
theorem hasService_entry (entry : Entry) :
    Maintains (A := Orchestrator.api α) Orchestrator.HasService (entry.code config) := by
  cases entry with
  | tick => exact Orchestrator.hasService_orchestrationLoop
  | heartbeat =>
    refine maintains_tryCatch (maintains_get_bind fun s _ => ?_) fun _ => trivial
    split
    · trivial
    · have hmode : Maintains (A := Orchestrator.api α) Orchestrator.HasService
          (Orchestrator.getServiceMode config) := by
        unfold Orchestrator.getServiceMode
        split
        · trivial
        · exact maintains_bind Orchestrator.maintains_theService fun _ => trivial
      exact maintains_bind hmode fun _ => maintains_bind (maintains_call _) fun _ => trivial
  | serviceStart mode =>
    show Maintains _ (Orchestrator.routeServiceStart config mode)
    unfold Orchestrator.routeServiceStart
    split
    · trivial
    split
    · exact maintains_bind Orchestrator.hasService_forceActive fun _ => trivial
    · exact Orchestrator.hasService_start_drop .passive
  | serviceStop => exact maintains_bind Orchestrator.maintains_serviceCleanUp fun _ => trivial
  | disableOrchestration =>
    refine maintains_bind (maintains_get_bind fun s _ => ?_) fun _ => trivial
    split
    · exact maintains_bind (maintains_modify fun _ h => h) fun _ =>
        maintains_bind (maintains_call _) fun _ =>
          maintains_bind (Orchestrator.hasService_serviceStart .passive) fun _ => trivial
    · trivial
  | enableOrchestration | disableHeartbeats | enableHeartbeats =>
    refine maintains_bind (maintains_get_bind fun s _ => ?_) fun _ => trivial
    split
    · exact maintains_bind (maintains_modify fun _ h => h) fun _ => trivial
    · trivial

end Node

/-! ### What every run keeps -/

/-- A process has its service, and the host does not run both containers. -/
structure NodeSane (service : Polkadot.Config) (node : Node α) : Prop where
  hasService : node.phase ≠ .stopped → Orchestrator.HasService node.orchestrator
  exclusive : ¬ Both service node.host

structure Sane (F : Operators ι α) (f : State ι α) : Prop where
  nodes : ∀ i, NodeSane (F.service i) (f.nodes i)
  consistent : f.pallet.Consistent

section Federation
variable [DecidableEq ι] {F : Operators ι α} {f f' : State ι α}

omit [DecidableEq ι] in
theorem consistent_advances {s s' : Storage α} (h : s.Advances s') (hs : s.Consistent) :
    s'.Consistent := h.induct hs fun x _ ht => Pallet.execute_consistent x ht

theorem sane_setNode (hf : Sane F f) (i : ι) {pallet : Storage α} {node : Node α}
    (hpallet : f.pallet.Advances pallet) (hnode : NodeSane (F.service i) node) :
    Sane F ({ f with pallet }.setNode i node) := by
  refine ⟨fun j => ?_, consistent_advances hpallet hf.consistent⟩
  by_cases hj : j = i
  · subst hj
    show NodeSane _ (Function.update f.nodes j node j)
    rw [Function.update_self]
    exact hnode
  · show NodeSane _ (Function.update f.nodes i node j)
    rw [Function.update_of_ne hj]
    exact hf.nodes j

omit [DecidableEq α] [Inhabited α] in
theorem crash_running {host : Docker.Host} {id : Docker.ContainerId} {name : String}
    (h : (host.setRunning false id).Running name) : host.Running name := by
  have hkeeps : Docker.Keeps name name host _ := .stop _ id
  exact hkeeps.down_running h

theorem sane_step (hf : Sane F f) (h : Step F f f') : Sane F f' := by
  obtain ⟨act, h⟩ := h
  cases act with
  | extrinsic x =>
    obtain ⟨-, rfl⟩ := h
    exact ⟨hf.nodes, consistent_advances (.execute _ x) hf.consistent⟩
  | block =>
    cases h
    exact ⟨hf.nodes, hf.consistent⟩
  | crash i id =>
    cases h
    refine sane_setNode hf i (.refl _) ⟨(hf.nodes i).hasService, ?_⟩
    exact fun hboth => (hf.nodes i).exclusive ⟨crash_running hboth.1, crash_running hboth.2⟩
  | subscribe i =>
    obtain ⟨hphase, rfl⟩ := h
    exact sane_setNode hf i (.refl _)
      ⟨fun _ => (hf.nodes i).hasService (by rw [hphase]; decide), (hf.nodes i).exclusive⟩
  | restart i =>
    obtain ⟨connected, chain, pallet, out, s, w, -, hrun, rfl⟩ := h
    have hservice := wp_runs (wp_maintains Orchestrator.hasService_bootstrapOrchestrator _
      (Orchestrator.hasService_init (F.operator i))) hrun
    exact sane_setNode hf i (runs_advances hrun)
      ⟨fun _ => hservice, runs_exclusive (hf.nodes i).exclusive hrun⟩
  | entry i e =>
    obtain ⟨out, s, w, hphase, hrun, rfl⟩ := h
    refine sane_setNode hf i (runs_advances hrun)
      ⟨fun hne => ?_, runs_exclusive (hf.nodes i).exclusive hrun⟩
    exact wp_runs (wp_maintains (hasService_entry e) _ ((hf.nodes i).hasService hne)) hrun
  | deliver i =>
    obtain ⟨event, out, s, w, hphase, -, hrun, rfl⟩ := h
    have hservice := (hf.nodes i).hasService (by rw [hphase]; decide)
    refine sane_setNode hf i (runs_advances hrun)
      ⟨fun _ => ?_, runs_exclusive (hf.nodes i).exclusive hrun⟩
    exact wp_runs (wp_maintains (Orchestrator.hasService_onEvent event) _ hservice) hrun

theorem sane_reachable (hf : Reachable F f) : Sane F f := by
  obtain ⟨f₀, ⟨hpallet, hinit⟩, hsteps⟩ := hf
  induction hsteps with
  | refl =>
    refine ⟨fun i => ?_, ?_⟩
    · obtain ⟨hphase, hclear⟩ := hinit i
      exact ⟨fun h => absurd hphase h, fun hboth => hclear.1 hboth.1.present⟩
    · rw [hpallet]
      exact Pallet.empty_consistent
  | tail _ hstep ih => exact sane_step ih hstep

end Federation

/-! ### What every orderly run keeps -/

structure NodeSafe (config : Orchestrator.Config α) (service : Polkadot.Config)
    (pallet : Storage α) (node : Node α) : Prop where
  idle : node.phase ≠ .subscribed → ¬ node.host.Running service.validatorName
  guarded : node.phase = .subscribed → Guarded config service node.delivered pallet node.host

theorem nodeSafe_advance {config : Orchestrator.Config α} {service : Polkadot.Config}
    {pallet pallet' : Storage α} {node : Node α} (h : NodeSafe config service pallet node)
    (hpallet : pallet.Advances pallet') : NodeSafe config service pallet' node where
  idle := h.idle
  guarded := fun hphase => guarded_advance (h.guarded hphase) hpallet fun _ => id

def Safe (F : Operators ι α) (f : State ι α) : Prop :=
  ∀ i, NodeSafe (F.config i) (F.service i) f.pallet (f.nodes i)

/-- The queue of the node tells of another leader of its group. -/
def Told [DecidableEq ι] (F : Operators ι α) (f : State ι α) (i : ι) : Prop :=
  ∃ other, other ≠ (F.config i).nodeKey ∧ .newLeader other (F.config i).group ∈ f.queue i

/-- A validator container runs only on the leader of its group, or while the
group is unled, or while the node has yet to be told of another leader; and of
the nodes of a led group that have not to be told at most one runs its validator
container. -/
def OneValidator [DecidableEq ι] (F : Operators ι α) (f : State ι α) : Prop :=
  (∀ i, (f.nodes i).host.Running (F.service i).validatorName →
    f.pallet.leaders (F.config i).group ≠ some (F.config i).nodeKey →
    f.pallet.leaders (F.config i).group = none ∨ Told F f i) ∧
  ∀ i j, (F.config i).group = (F.config j).group →
    f.pallet.leaders (F.config i).group ≠ none →
    (f.nodes i).host.Running (F.service i).validatorName →
    (f.nodes j).host.Running (F.service j).validatorName →
    ¬ Told F f i → ¬ Told F f j → i = j

section Federation
variable [DecidableEq ι] {F : Operators ι α} {f f' : State ι α}

theorem safe_setNode (hf : Safe F f) (i : ι) {pallet : Storage α} {node : Node α}
    (hpallet : f.pallet.Advances pallet)
    (hnode : NodeSafe (F.config i) (F.service i) pallet node) :
    Safe F ({ f with pallet }.setNode i node) := by
  intro j
  by_cases hj : j = i
  · subst hj
    show NodeSafe _ _ _ (Function.update f.nodes j node j)
    rw [Function.update_self]
    exact hnode
  · show NodeSafe _ _ _ (Function.update f.nodes i node j)
    rw [Function.update_of_ne hj]
    exact nodeSafe_advance (hf j) hpallet

omit [DecidableEq α] [Inhabited α] [DecidableEq ι] in
/-- What an orderly entry of a node that has not subscribed does not do. -/
theorem unclaiming {i : ι} {entry : Entry} (hphase : entry.admitted (f.nodes i).phase)
    (horderly : (Act.entry i entry).orderly f) (hsub : (f.nodes i).phase ≠ .subscribed) :
    ¬ entry.claims := by
  rintro (rfl | rfl)
  · cases hcase : (f.nodes i).phase with
    | stopped | booted =>
      rw [hcase] at hphase
      simp [Entry.admitted] at hphase
    | subscribed => exact hsub hcase
  · exact hsub (horderly rfl)

theorem safe_step {act : Act ι α} (hsane : Sane F f) (hf : Safe F f)
    (h : Happens F F.serving f f' act) (horderly : act.orderly f) : Safe F f' := by
  cases act with
  | extrinsic x =>
    obtain ⟨-, rfl⟩ := h
    exact fun i => nodeSafe_advance (hf i) (.execute _ x)
  | block =>
    cases h
    exact hf
  | crash i id =>
    cases h
    refine safe_setNode hf i (.refl _) ⟨?_, ?_⟩
    · exact fun hphase hrun => (hf i).idle hphase (crash_running hrun)
    · exact fun hphase =>
        guarded_advance ((hf i).guarded hphase) (.refl _) fun _ hrun => crash_running hrun
  | subscribe i =>
    obtain ⟨hphase, rfl⟩ := h
    have hidle := (hf i).idle (by rw [hphase]; decide)
    refine safe_setNode hf i (.refl _) ⟨fun h => absurd rfl h, fun _ => ?_⟩
    exact ⟨fun hboth => hidle hboth.1, le_refl _, fun hrun => absurd hrun hidle⟩
  | restart i =>
    obtain ⟨connected, chain, pallet, out, s, w, -, hrun, rfl⟩ := h
    have hidle := wp_runs (wp_bootstrapOrchestrator (F.operator i) rfl) hrun
    refine safe_setNode hf i (runs_advances hrun) ⟨fun _ => hidle, fun hphase => ?_⟩
    dsimp only at hphase
    split at hphase <;> cases hphase
  | entry i e =>
    obtain ⟨out, s, w, hphase, hrun, rfl⟩ := h
    refine safe_setNode hf i (runs_advances hrun) ⟨fun hsub => ?_, fun hsub => ?_⟩
    · have hclaims := unclaiming hphase horderly hsub
      exact wp_runs (wp_idle (onlyCalls_unclaiming hclaims) ((hf i).idle hsub)) hrun
    · exact wp_runs (wp_entry e ((hf i).guarded hsub)) hrun
  | deliver i =>
    obtain ⟨event, out, s, w, hphase, hevent, hrun, rfl⟩ := h
    have hservice := (hsane.nodes i).hasService (by rw [hphase]; decide)
    refine safe_setNode hf i (runs_advances hrun) ⟨fun h => absurd rfl h, fun _ => ?_⟩
    exact wp_runs (wp_onEvent (F.operator i) hservice hevent ((hf i).guarded hphase)) hrun

theorem safe_inOrder (hf : InOrder F f) : Safe F f := by
  obtain ⟨f₀, acts, ⟨hpallet, hinit⟩, hcourse⟩ := hf
  have hstart : Safe F f₀ := by
    intro i
    obtain ⟨hphase, hclear⟩ := hinit i
    refine ⟨fun _ hrun => hclear.1 hrun.present, fun hsub => ?_⟩
    rw [hphase] at hsub
    cases hsub
  have hboth : Sane F f ∧ Safe F f := by
    apply hcourse.keeps (I := fun f => Sane F f ∧ Safe F f)
    · intro s s' act hs hact horderly
      exact ⟨sane_step hs.1 ⟨act, hact⟩, safe_step hs.1 hs.2 hact horderly⟩
    · exact ⟨sane_reachable ⟨f₀, ⟨hpallet, hinit⟩, .refl⟩, hstart⟩
  exact hboth.2

omit [DecidableEq α] [Inhabited α] in
/-- A node whose validator container runs leads its group, or nobody does, or a
`NewLeader` event of another account for the group is in its queue. -/
theorem validator_informed (hf : Safe F f) (i : ι)
    (hrun : (f.nodes i).host.Running (F.service i).validatorName) :
    f.pallet.leaders (F.config i).group = some (F.config i).nodeKey ∨
      f.pallet.leaders (F.config i).group = none ∨ Told F f i := by
  have hphase : (f.nodes i).phase = .subscribed := by
    by_contra hne
    exact (hf i).idle hne hrun
  unfold Told
  rw [queue_subscribed hphase]
  exact ((hf i).guarded hphase).informed hrun

/-- Federation safety, in every run in which the API asks no node for active mode
before its subscription. -/
theorem federation_safety (F : Operators ι α) (f : State ι α) (hf : InOrder F f) :
    OneValidator F f := by
  have hsafe := safe_inOrder hf
  constructor
  · intro i hrun hne
    exact (validator_informed hsafe i hrun).resolve_left hne
  · intro i j hgroup hled hruni hrunj hi hj
    have hleads : ∀ k, (F.config k).group = (F.config i).group →
        (f.nodes k).host.Running (F.service k).validatorName → ¬ Told F f k →
        f.pallet.leaders (F.config i).group = some (F.config k).nodeKey := by
      intro k hk hrun htold
      rcases validator_informed hsafe k hrun with h | h | h
      · rw [← hk]
        exact h
      · rw [hk] at h
        exact absurd h hled
      · exact absurd h htold
    have hboth := (hleads i rfl hruni hi).symm.trans (hleads j hgroup.symm hrunj hj)
    exact F.accounts i j (Option.some.inj hboth)

end Federation

theorem federation_safety_leading :
    (leading.nodes false).host.Running (pair.service false).validatorName ∧
      ∀ j, (leading.nodes j).host.Running (pair.service j).validatorName →
        ¬ Told pair leading j → false = j := by
  have hrun : (leading.nodes false).host.Running (pair.service false).validatorName := by
    decide +kernel
  have hled : leading.pallet.leaders 1 ≠ none := by decide +kernel
  have hqueue : ∀ event ∈ leading.queue false, event = .newLeader 1 1 := by decide +kernel
  have htold : ¬ Told pair leading false := by
    intro htold
    obtain ⟨other, hne, hmem⟩ := htold
    exact hne (Pallet.Event.newLeader.inj (hqueue _ hmem)).1
  refine ⟨hrun, fun j hj hinformed => ?_⟩
  exact (federation_safety pair leading leading_inOrder).2 false j rfl hled hrun hj htold hinformed

/-- The API asks the first node for active mode before its subscription is in
place. The second node is told, is asked for active mode too and takes over; then
the first node subscribes. -/
def untold : State Bool ℕ := pairStart.play pair
  [.restart false, .restart true, .subscribe true, .entry false (.serviceStart "active") true,
    .deliver true, .entry true (.serviceStart "active") true, .subscribe false]

/-- Nobody tells the first node, and the validators of both run. -/
theorem untold_runs_both : ¬ ∀ (F : Operators Bool ℕ) (f : State Bool ℕ), Reachable F f →
    OneValidator F f := by
  intro hall
  have hruns : ∀ i, (untold.nodes i).host.Running (pair.service i).validatorName := by
    decide +kernel
  have hled : untold.pallet.leaders 1 ≠ none := by decide +kernel
  have hfirst : untold.queue false = [] := by decide +kernel
  have hsecond : untold.queue true = [.newLeader 2 1] := by decide +kernel
  have htold : ∀ i, ¬ Told pair untold i := by
    intro i htold
    obtain ⟨other, hne, hmem⟩ := htold
    cases i with
    | false =>
      rw [hfirst] at hmem
      cases hmem
    | true =>
      rw [hsecond, List.mem_singleton] at hmem
      cases hmem
      exact hne rfl
  have hboth := (hall pair untold (play_reachable pairStart_reachable _)).2 false true rfl hled
    (hruns false) (hruns true) (htold false) (htold true)
  cases hboth

end Archipel.Federation
