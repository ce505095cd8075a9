import Archipel.Chain.Rpc
import Archipel.Orchestrator.Decision

/-!
# Failed reads of the chain

The query methods of the chain client answer a sentinel when the call of the
API fails. Here the methods that a tick awaits run over scripted calls of the
API, and some of these calls fail. A failed read of the peers, of the finalized
number or of the leader never opens a gate; a failed read of the best number,
of the sync state or of the led group may.
-/

namespace Archipel.Orchestrator
open Async
open Polkadot (Mode)
open Chain hiding State Call Method api request

variable {α : Type}

/-! ### One tick -/

/-- The calls of the API during each of the methods that a tick awaits. -/
structure TickReads (α : Type) where
  send : Rpc α
  best : Rpc α
  leader : Rpc α
  leaded : Rpc α
  leaderBest : Rpc α
  setLeader : Rpc α
  finalLeader : Rpc α
  ready : Except String Bool
  started : Except String Bool

/-- The fields of the chain client after `canSendTransactions`; the queries do
not change them. -/
def TickReads.fields (t : TickReads α) (f : Chain.State) : Chain.State :=
  ((t.send.run Chain.canSendTransactions f).map Prod.snd).getD f

def TickReads.answers (config : Config α) (f : Chain.State) (t : TickReads α) : TickAnswers α where
  canSend := (t.send.run Chain.canSendTransactions f).map Prod.fst
  best := (t.best.run Chain.getBestNumber (t.fields f)).map Prod.fst
  ready := some t.ready
  leader := (t.leader.run (Chain.getLeader config.group) (t.fields f)).map Prod.fst
  leaded := (t.leaded.run (Chain.isLeadedGroup config.group) (t.fields f)).map Prod.fst
  leaderBest := (t.leaderBest.run Chain.getBestNumber (t.fields f)).map Prod.fst
  setLeader oldLeader := (t.setLeader.run
    (Chain.setLeader oldLeader config.group config.nodeKey) (t.fields f)).map Prod.fst
  finalLeader := (t.finalLeader.run (Chain.getLeader config.group) (t.fields f)).map Prod.fst
  started := some t.started

theorem fields_moved {t : TickReads α} {f : Chain.State} (h : CanSend f t.send) :
    t.fields f = moved f (orZero (t.send.bests 0)) := by
  obtain ⟨out, f', w', hrun, hout, hmoved⟩ := exec_canSendTransactions t.send f h.connected
  unfold TickReads.fields Rpc.run
  rw [hrun, ← hmoved (hout.mpr h)]
  rfl

variable [DecidableEq α]

/-- Some run of the tick starts the service in active mode. -/
def ActiveTick (config : Config α) (s : State α) (f : Chain.State) (t : TickReads α) : Prop :=
  ∃ out y, Runs (asked (t.answers config f)) (orchestrateOperatorService config) (s, []) out y ∧
    .active ∈ starts y.2

/-! ### The tests of a tick -/

def GoneBy (config : Config α) (s : State α) (best : ℕ) (leader : Wallet α) : Prop :=
  match (s.heartbeats.getHeartbeat leader).filter fun heartbeat => heartbeat.blockNumber ≠ 0 with
  | none => config.noLivenessThreshold ≤ s.noLivenessFromLeader
  | some heartbeat => (best : ℤ) - heartbeat.blockNumber > config.aliveTime

def TakesOver (config : Config α) (f : Chain.State) (t : TickReads α) (oldLeader : Wallet α) :
    Prop :=
  Taken (moved f (orZero (t.send.bests 0))) t.setLeader oldLeader config.group config.nodeKey

def HoldsLead (config : Config α) (s : State α) (f : Chain.State) (t : TickReads α) : Prop :=
  (leadedOf t.leaded.leaded = false ∧ TakesOver config f t (.address config.nodeKey)) ∨
  (leadedOf t.leaded.leaded = true ∧ leaderOf t.leader.leader = some config.nodeKey) ∨
  (leadedOf t.leaded.leaded = true ∧ leaderOf t.leader.leader ≠ some config.nodeKey ∧
    GoneBy config s (orZero (t.leaderBest.bests 0)) (leaderText (leaderOf t.leader.leader)) ∧
    TakesOver config f t (leaderText (leaderOf t.leader.leader)))

/-- The tests that a failed read can pass. -/
structure Favoured (config : Config α) (s : State α) (f : Chain.State) (t : TickReads α) :
    Prop where
  moving : Moving f (orZero (t.send.bests 0))
  near : Near f (orZero (t.send.bests 1)) (orZero t.send.finalized)
  sync : InSync (t.send.health 0) (t.send.health 1) ∨ InSync (t.send.health 2) (t.send.health 3)
  alive : s.heartbeats.anyOneAlive (.address config.nodeKey) config.aliveTime config.group
    (orZero (t.best.bests 0)) = true
  leads : HoldsLead config s f t

/-- All the tests. -/
structure Opens (config : Config α) (s : State α) (f : Chain.State) (t : TickReads α) : Prop
    extends Favoured config s f t where
  service : s.service.isSome
  connected : t.send.connected = .ok true
  ready : ∃ ready, t.ready = .ok ready ∧
    (readiness config (s.service.bind Service.mode) ready s).1 = true ∧
    (readiness config (s.service.bind Service.mode) ready s).2.heartbeatSendEnabled = true
  admin : s.heartbeatSendEnabledAdmin = true
  last : leaderOf t.finalLeader.leader = some config.nodeKey

variable {config : Config α} {s : State α} {t t' : TickReads α} {f}

theorem leads_answers (hsend : CanSend f t.send) :
    Leads config s (t.answers config f) ↔ HoldsLead config s f t := by
  have hset : ∀ oldLeader, (t.answers config f).setLeader oldLeader = some (.ok true) ↔
      TakesOver config f t oldLeader := by
    intro oldLeader
    unfold TakesOver
    rw [← fields_moved hsend]
    exact run_setLeader ..
  have hgone : ∀ leader, Gone config s (t.answers config f) leader ↔
      GoneBy config s (orZero (t.leaderBest.bests 0)) leader := by
    intro leader
    have hbest : (t.answers config f).leaderBest = some (.ok (orZero (t.leaderBest.bests 0))) :=
      run_getBestNumber ..
    unfold Gone GoneBy
    rw [hbest]
    cases hfilter : (s.heartbeats.getHeartbeat leader).filter
        (fun heartbeat => heartbeat.blockNumber ≠ 0) with
    | none => exact Iff.rfl
    | some heartbeat => simp
  rw [leads_iff (run_getLeader ..) (run_isLeadedGroup ..)]
  simp only [hset, hgone, HoldsLead]

theorem gates_answers : (s.service.isSome ∧ Gates config s (t.answers config f) ∧
    (t.answers config f).finalLeader = some (.ok (some config.nodeKey))) ↔
      Opens config s f t := by
  have hlast : (t.answers config f).finalLeader = some (.ok (leaderOf t.finalLeader.leader)) :=
    run_getLeader ..
  have hbest : (t.answers config f).best = some (.ok (orZero (t.best.bests 0))) :=
    run_getBestNumber ..
  have hsend : (t.answers config f).canSend = some (.ok true) ↔ CanSend f t.send :=
    run_canSendTransactions ..
  rw [hlast]
  constructor
  · intro ⟨hservice, hgates, hown⟩
    obtain ⟨n, hn, halive⟩ := hgates.alive
    obtain ⟨ready, hready, hheld⟩ := hgates.ready
    have hopen := hsend.mp hgates.send
    have hleads := (leads_answers hopen).mp hgates.leads
    have hself : leaderOf t.finalLeader.leader = some config.nodeKey := by simpa using hown
    rw [hbest] at hn
    cases hn
    exact ⟨⟨hopen.moving, hopen.near, hopen.sync, halive, hleads⟩, hservice, hopen.connected,
      ⟨ready, Option.some.inj hready, hheld⟩, hgates.admin, hself⟩
  · intro h
    have hopen : CanSend f t.send := ⟨h.connected, h.moving, h.near, h.sync⟩
    have hleads := (leads_answers hopen).mpr h.leads
    obtain ⟨ready, hready, hheld⟩ := h.ready
    have hgates : Gates config s (t.answers config f) := ⟨hsend.mpr hopen, ⟨_, hbest, h.alive⟩,
      ⟨ready, congrArg some hready, hheld⟩, h.admin, hleads⟩
    exact ⟨h.service, hgates, by rw [h.last]⟩

theorem activeTick_iff (hrole : config.nodeRole ≠ "noservice") :
    ActiveTick config s f t ↔ Opens config s f t := by
  rw [← gates_answers]
  constructor
  · intro ⟨out, y, hrun, hactive⟩
    have hdecided := wp_runs (wp_orchestrateOperatorService_asked hrole) hrun
    rcases hdecided with ⟨-, hdecided⟩ | ⟨hstarts, -⟩ | ⟨hstarts, -⟩
    · exact hdecided
    · simp [hstarts] at hactive
    · simp [hstarts] at hactive
  · intro ⟨hservice, hgates, hown⟩
    obtain ⟨service, hs⟩ := Option.isSome_iff_exists.mp hservice
    exact angelic_runs (angelic_orchestrateOperatorService hrole hs rfl hgates hown)

/-! ### Failed reads -/

/-- Some of the queries of the tick fail, and all the rest is answered as
before. -/
structure TickReads.Failing (t t' : TickReads α) : Prop where
  send : t.send.Failing t'.send
  best : t.best.Failing t'.best
  leader : t.leader.Failing t'.leader
  leaded : t.leaded.Failing t'.leaded
  leaderBest : t.leaderBest.Failing t'.leaderBest
  setLeader : t.setLeader.Failing t'.setLeader
  finalLeader : t.finalLeader.Failing t'.finalLeader
  ready : t'.ready = t.ready
  started : t'.started = t.started

/-- A tick that opens with the failed reads opens without them if and only if
it passes the favoured tests without them. -/
theorem opens_iff (hfail : t.Failing t') (hopen : Opens config s f t') :
    Opens config s f t ↔ Favoured config s f t := by
  constructor
  · exact Opens.toFavoured
  · intro h
    obtain ⟨ready, hready, hheld⟩ := hopen.ready
    exact ⟨h, hopen.service, hfail.send.connected ▸ hopen.connected,
      ⟨ready, hfail.ready ▸ hready, hheld⟩, hopen.admin,
      hfail.finalLeader.leader.leader hopen.last⟩

theorem goneBy_mono {best best' : ℕ} {leader : Wallet α} (hle : best' ≤ best)
    (h : GoneBy config s best' leader) : GoneBy config s best leader := by
  unfold GoneBy at h ⊢
  cases hfilter : (s.heartbeats.getHeartbeat leader).filter
      (fun heartbeat => heartbeat.blockNumber ≠ 0) with
  | none =>
    rw [hfilter] at h
    exact h
  | some heartbeat =>
    rw [hfilter] at h
    dsimp only at h ⊢
    omega

theorem holdsLead_kept (hfail : t.Failing t') (hsend : t.send.Kept t'.send)
    (hset : t.setLeader.Kept t'.setLeader)
    (hleaded : leadedOf t'.leaded.leaded = leadedOf t.leaded.leaded)
    (h : HoldsLead config s f t') : HoldsLead config s f t := by
  have htakes : ∀ oldLeader, TakesOver config f t' oldLeader → TakesOver config f t oldLeader := by
    intro oldLeader ⟨hcan, leader, nonce, updates, hold, haccount, hupdates, hsettle⟩
    rw [hsend.bests] at hcan
    exact ⟨canSend_kept hfail.setLeader hset hcan, leader, nonce, updates, hold,
      hfail.setLeader.account ▸ haccount, hfail.setLeader.updates ▸ hupdates, hsettle⟩
  unfold HoldsLead at h ⊢
  rw [hleaded] at h
  rcases h with ⟨hno, htake⟩ | ⟨hyes, hself⟩ | ⟨hyes, hself, hgone, htake⟩
  · exact .inl ⟨hno, htakes _ htake⟩
  · exact .inr (.inl ⟨hyes, hfail.leader.leader.leader hself⟩)
  · obtain ⟨leader, hleader⟩ : ∃ leader, leaderOf t'.leader.leader = some leader := by
      obtain ⟨-, who, -, -, hold, -⟩ := htake
      exact ⟨who, (leaderText_address _ who).mp hold⟩
    have hsame := hfail.leader.leader.leader hleader
    rw [hleader] at hself hgone htake
    rw [hsame]
    have hgone' := goneBy_mono (hfail.leaderBest.bests 0).orZero_le hgone
    exact .inr (.inr ⟨hyes, hself, hgone', htakes _ htake⟩)

theorem favoured_kept (hfail : t.Failing t') (hsend : t.send.Kept t'.send)
    (hbest : t'.best.bests = t.best.bests)
    (hleaded : leadedOf t'.leaded.leaded = leadedOf t.leaded.leaded)
    (hset : t.setLeader.Kept t'.setLeader) (h : Opens config s f t') :
    Favoured config s f t := by
  have hcan := canSend_kept hfail.send hsend ⟨h.connected, h.moving, h.near, h.sync⟩
  exact ⟨hcan.moving, hcan.near, hcan.sync, hbest ▸ h.alive,
    holdsLead_kept hfail hsend hset hleaded h.leads⟩

/-- Failed reads make a tick active exactly when they pass all its tests while
the chain without them had stalled, ran ahead of its finality, was syncing,
showed no live node or another leader. No failed read of the peers, of the
finalized number or of the leader does so. -/
theorem failed_reads_iff (config : Config α) (hrole : config.nodeRole ≠ "noservice")
    (s : State α) (f : Chain.State) (t t' : TickReads α) (hfail : t.Failing t') :
    ((¬ ActiveTick config s f t → ¬ ActiveTick config s f t') ↔
      (Opens config s f t' → Favoured config s f t)) ∧
    (t.send.Kept t'.send → t'.best.bests = t.best.bests →
      leadedOf t'.leaded.leaded = leadedOf t.leaded.leaded → t.setLeader.Kept t'.setLeader →
      ¬ ActiveTick config s f t → ¬ ActiveTick config s f t') := by
  have hiff : (¬ ActiveTick config s f t → ¬ ActiveTick config s f t') ↔
      (Opens config s f t' → Favoured config s f t) := by
    rw [activeTick_iff hrole, activeTick_iff hrole, not_imp_not]
    constructor
    · intro h hopen
      exact (h hopen).toFavoured
    · intro h hopen
      exact (opens_iff hfail hopen).mpr (h hopen)
  exact ⟨hiff, fun hsend hbest hleaded hset =>
    hiff.mpr (favoured_kept hfail hsend hbest hleaded hset)⟩

/-- The answers during one method; the first best number fails when `fails`. -/
def plainRpc (fails : Bool) : Rpc ℕ where
  connected := .ok true
  bests k := if fails ∧ k = 0 then .error "disconnected" else .ok 100
  finalized := .ok 95
  health _ := .ok ⟨3, false⟩
  leader := .ok 1
  leaded := .ok true
  account := .ok 0
  updates _ := .ok []

/-- A tick of the leader in which `chainMovingForward` may fail to read the best
number. -/
def leaderReads (fails : Bool) : TickReads ℕ where
  send := plainRpc fails
  best := plainRpc false
  leader := plainRpc false
  leaded := plainRpc false
  leaderBest := plainRpc false
  setLeader := plainRpc false
  finalLeader := plainRpc false
  ready := .ok true
  started := .ok true

/-- The best number has not changed for nine checks. -/
def stalled : Chain.State := { lastBlockNumber := 100, lastBlockAccumulator := 9 }

theorem plainRpc_failing (fails : Bool) : (plainRpc false).Failing (plainRpc fails) := by
  refine ⟨rfl, fun k => ?_, .inl rfl, fun _ => .inl rfl, .inl rfl, .inl rfl, rfl, rfl⟩
  by_cases h : fails ∧ k = 0
  · exact .inr ⟨"disconnected", by simp [plainRpc, h]⟩
  · exact .inl (by simp [plainRpc, h])

theorem leaderReads_failing (fails : Bool) : (leaderReads false).Failing (leaderReads fails) :=
  have hkept := plainRpc_failing false
  ⟨plainRpc_failing fails, hkept, hkept, hkept, hkept, hkept, hkept, rfl, rfl⟩

theorem stalled_inactive :
    ¬ ActiveTick (plainNode 1) leadingState stalled (leaderReads false) := by
  rw [activeTick_iff (by decide)]
  intro hopen
  exact hopen.moving ⟨rfl, by decide⟩

/-- The peers, the finalized number and the leader cannot be read. -/
def cutOff : Rpc ℕ :=
  { plainRpc false with
    finalized := .error "disconnected"
    health k := if k = 0 then .error "disconnected" else .ok ⟨3, false⟩
    leader := .error "disconnected" }

def cutOffReads : TickReads ℕ := { leaderReads false with send := cutOff, finalLeader := cutOff }

theorem cutOff_failing : (plainRpc false).Failing cutOff := by
  refine ⟨rfl, fun _ => .inl rfl, .inr ⟨_, rfl⟩, fun k => ?_, .inr ⟨_, rfl⟩, .inl rfl, rfl, rfl⟩
  by_cases h : k = 0
  · exact .inr ⟨"disconnected", by simp [cutOff, h]⟩
  · exact .inl (by simp [cutOff, plainRpc, h])

theorem failed_reads_iff_stalled :
    ((¬ ActiveTick (plainNode 1) leadingState stalled (leaderReads false) →
        ¬ ActiveTick (plainNode 1) leadingState stalled (leaderReads true)) ↔
      (Opens (plainNode 1) leadingState stalled (leaderReads true) →
        Favoured (plainNode 1) leadingState stalled (leaderReads false))) ∧
    ¬ ActiveTick (plainNode 1) leadingState stalled cutOffReads := by
  constructor
  · exact (failed_reads_iff (plainNode 1) (by decide) leadingState stalled _ _
      (leaderReads_failing true)).1
  · have hkept := plainRpc_failing false
    have hfail : (leaderReads false).Failing cutOffReads :=
      ⟨cutOff_failing, hkept, hkept, hkept, hkept, hkept, cutOff_failing, rfl, rfl⟩
    exact (failed_reads_iff (plainNode 1) (by decide) leadingState stalled _ _ hfail).2
      ⟨rfl, rfl, rfl⟩ rfl rfl ⟨rfl, rfl, rfl⟩ stalled_inactive

/-- A validator on a stalled chain is stopped, but not when the read of the best
number fails. -/
theorem failed_read_activates : ¬ ∀ (config : Config ℕ) (s : State ℕ) (f : Chain.State)
    (t t' : TickReads ℕ), config.nodeRole ≠ "noservice" → t.Failing t' →
    ¬ ActiveTick config s f t → ¬ ActiveTick config s f t' := by
  intro h
  have hrole : (plainNode 1).nodeRole ≠ "noservice" := by decide
  refine h (plainNode 1) leadingState stalled _ _ hrole (leaderReads_failing true)
    stalled_inactive ?_
  rw [activeTick_iff hrole]
  exact ⟨⟨by unfold Moving; decide, by unfold Near; decide, .inl ⟨by decide, by decide⟩, rfl,
    .inr (.inl ⟨rfl, rfl⟩)⟩, rfl, rfl, ⟨true, rfl, rfl, rfl⟩, rfl, rfl⟩

end Archipel.Orchestrator
