import Archipel.Orchestrator.Rules
import Mathlib.Data.Int.Notation

/-!
# The decision of a tick

The answers of one tick of an operator node, each read of the chain and of the
service an answer of its own. The gates are the tests that the node has to pass
before it looks at the leader a last time; a tick starts the service in active
mode when all of them are open and this last look shows the node itself.
-/

namespace Archipel.Orchestrator
open Async
open Polkadot (Mode)

variable {α : Type}

/-- `none` is a call that is never answered. -/
structure TickAnswers (α : Type) where
  canSend : Option (Except String Bool)
  best : Option (Except String ℕ)
  ready : Option (Except String Bool)
  leader : Option (Except String (Option α))
  leaded : Option (Except String Bool)
  leaderBest : Option (Except String ℕ)
  setLeader : Wallet α → Option (Except String Bool)
  finalLeader : Option (Except String (Option α))
  started : Option (Except String Bool)

def starts (log : List (Call α)) : List Mode :=
  log.filterMap fun
    | .start mode => some mode
    | _ => none

theorem starts_append (log log' : List (Call α)) :
    starts (log ++ log') = starts log ++ starts log' := List.filterMap_append

section Answers
variable [DecidableEq α]

def TickAnswers.answer (a : TickAnswers α) (log : List (Call α)) :
    (c : Call α) → Option (Except String c.Ret)
  | .canSendTransactions => a.canSend
  | .getBestNumber => if .getBestNumber ∈ log then a.leaderBest else a.best
  | .isServiceReadyToStart => a.ready
  | .getLeader groupId => if .getLeader groupId ∈ log then a.finalLeader else a.leader
  | .isLeadedGroup _ => a.leaded
  | .setLeader oldLeader _ => a.setLeader oldLeader
  | .start _ => a.started
  | .setTimeout _ => some (.ok ())
  | _ => none

/-- The calls of the tick are kept in the world. -/
def asked (a : TickAnswers α) : Env (api α) String (List (Call α)) :=
  fun c log r log' => a.answer log c = some r ∧ log' = log ++ [c]

/-! ### The gates -/

/-- The leader counts as gone: it has been silent for too many checks, or its
last heartbeat is too old. -/
def Gone (config : Config α) (s : State α) (a : TickAnswers α) (leader : Wallet α) : Prop :=
  match (s.heartbeats.getHeartbeat leader).filter fun heartbeat => heartbeat.blockNumber ≠ 0 with
  | none => config.noLivenessThreshold ≤ s.noLivenessFromLeader
  | some heartbeat => ∃ n : ℕ, a.leaderBest = some (.ok n) ∧
      (n : ℤ) - heartbeat.blockNumber > config.aliveTime

def Leads (config : Config α) (s : State α) (a : TickAnswers α) : Prop :=
  ∃ leader leaded, a.leader = some (.ok leader) ∧ a.leaded = some (.ok leaded) ∧
    ((leaded = false ∧ a.setLeader (.address config.nodeKey) = some (.ok true)) ∨
    (leaded = true ∧ leader = some config.nodeKey) ∨
    (leaded = true ∧ leader ≠ some config.nodeKey ∧ Gone config s a (leaderText leader) ∧
      a.setLeader (leaderText leader) = some (.ok true)))

structure Gates (config : Config α) (s : State α) (a : TickAnswers α) : Prop where
  send : a.canSend = some (.ok true)
  alive : ∃ n, a.best = some (.ok n) ∧ s.heartbeats.anyOneAlive (.address config.nodeKey)
    config.aliveTime config.group n = true
  ready : ∃ ready, a.ready = some (.ok ready) ∧
    (readiness config (s.service.bind Service.mode) ready s).1 = true ∧
    (readiness config (s.service.bind Service.mode) ready s).2.heartbeatSendEnabled = true
  admin : s.heartbeatSendEnabledAdmin = true
  leads : Leads config s a

theorem wp_asked (a : TickAnswers α) (c : Call α)
    (Q : Except String c.Ret → State α × List (Call α) → Prop) (x : State α × List (Call α)) :
    demonic (asked a) c Q x ↔ ∀ r, a.answer x.2 c = some r → Q r (x.1, x.2 ++ [c]) := by
  constructor
  · intro h r hr
    exact h r _ ⟨hr, rfl⟩
  · intro h r log ⟨hr, hlog⟩
    rw [hlog]
    exact h r hr

/-! ### What a tick decides -/

section Tick
variable {config : Config α} {a : TickAnswers α} {s : State α}

theorem leads_congr {s' : State α} (hh : s'.heartbeats = s.heartbeats)
    (hn : s'.noLivenessFromLeader = s.noLivenessFromLeader) (h : Leads config s' a) :
    Leads config s a := by
  unfold Leads Gone at *
  rw [hh, hn] at h
  exact h

omit [DecidableEq α] in
theorem leaderText_address (leader : Option α) (who : α) :
    leaderText leader = .address who ↔ leader = some who := by
  cases leader <;> simp [leaderText]

theorem leads_iff {leader : Option α} {leaded : Bool} (hleader : a.leader = some (.ok leader))
    (hleaded : a.leaded = some (.ok leaded)) : Leads config s a ↔
      (leaded = false ∧ a.setLeader (.address config.nodeKey) = some (.ok true)) ∨
      (leaded = true ∧ leader = some config.nodeKey) ∨
      (leaded = true ∧ leader ≠ some config.nodeKey ∧ Gone config s a (leaderText leader) ∧
        a.setLeader (leaderText leader) = some (.ok true)) := by
  constructor
  · intro ⟨l, d, hl, hd, h⟩
    rw [hleader] at hl
    rw [hleaded] at hd
    cases hl
    cases hd
    exact h
  · intro h
    exact ⟨leader, leaded, hleader, hleaded, h⟩

/-- The last three gates read the state that the readiness check leaves. -/
theorem gates_iff {n : ℕ} {ready : Bool} (hsend : a.canSend = some (.ok true))
    (hbest : a.best = some (.ok n)) (halive : s.heartbeats.anyOneAlive (.address config.nodeKey)
      config.aliveTime config.group n = true) (hready : a.ready = some (.ok ready)) :
    Gates config s a ↔
      (readiness config (s.service.bind Service.mode) ready s).1 = true ∧
      (readiness config (s.service.bind Service.mode) ready s).2.heartbeatSendEnabled = true ∧
      (readiness config (s.service.bind Service.mode) ready s).2.heartbeatSendEnabledAdmin = true ∧
      Leads config (readiness config (s.service.bind Service.mode) ready s).2 a := by
  rw [readiness_admin]
  constructor
  · intro h
    obtain ⟨r, hr, hheld, hflag⟩ := h.ready
    have hleads := h.leads
    rw [hready] at hr
    cases hr
    exact ⟨hheld, hflag, h.admin,
      leads_congr (readiness_heartbeats ..).symm (readiness_noLiveness ..).symm hleads⟩
  · intro ⟨hheld, hflag, hadmin, hleads⟩
    have hleads' : Leads config s a :=
      leads_congr (readiness_heartbeats ..) (readiness_noLiveness ..) hleads
    exact ⟨hsend, ⟨n, hbest, halive⟩, ⟨ready, hready, hheld, hflag⟩, hadmin, hleads'⟩

/-- The node has looked at the leader and started nothing yet, and the answer
tells whether `P` holds. -/
def Managed (config : Config α) (service : Option Service) (P : Prop) (out : Except String Bool)
    (y : State α × List (Call α)) : Prop :=
  y.1.service = service ∧ starts y.2 = [] ∧ .getLeader config.group ∈ y.2 ∧
    ∀ leads, out = .ok leads → (leads = true ↔ P)

theorem wp_becomeLeader_asked (oldLeader : Wallet α) (x : State α × List (Call α))
    (hx : starts x.2 = [] ∧ .getLeader config.group ∈ x.2) :
    wp (demonic (asked a)) free (becomeLeader config oldLeader)
      (Managed config x.1.service (a.setLeader oldLeader = some (.ok true))) x := by
  obtain ⟨hstart, hleader⟩ := hx
  unfold becomeLeader
  rw [wp_bind, wp_call, wp_asked]
  intro r hr
  have hset : a.setLeader oldLeader = some r := hr
  cases r with
  | error e => exact ⟨rfl, by simpa [starts] using hstart, by simp [hleader], by simp⟩
  | ok taken =>
    cases taken with
    | false => exact ⟨rfl, by simpa [starts] using hstart, by simp [hleader], by simp [hset]⟩
    | true =>
      show wp _ _ (request (.setTimeout 10000) >>= _) _ _
      rw [wp_bind, wp_call, wp_asked]
      intro r hr
      cases hr
      exact ⟨rfl, by simpa [starts] using hstart, by simp [hleader], by simp [hset]⟩

theorem wp_otherLeaderAction_asked (leader : Wallet α) (x : State α × List (Call α))
    (hx : starts x.2 = [] ∧ .getLeader config.group ∈ x.2) (hbest : .getBestNumber ∈ x.2) :
    wp (demonic (asked a)) free (otherLeaderAction config leader)
      (Managed config x.1.service (Gone config x.1 a leader ∧
        a.setLeader leader = some (.ok true))) x := by
  have hbecome : ∀ y : State α × List (Call α), y.1.service = x.1.service →
      starts y.2 = [] ∧ .getLeader config.group ∈ y.2 → Gone config x.1 a leader →
      wp (demonic (asked a)) free (becomeLeader config leader)
        (Managed config x.1.service (Gone config x.1 a leader ∧
          a.setLeader leader = some (.ok true))) y := by
    intro y hservice hy hgone
    rw [← hservice]
    simpa [hgone] using wp_becomeLeader_asked leader y hy
  unfold otherLeaderAction
  rw [wp_get_bind]
  dsimp only
  cases hfilter : (x.1.heartbeats.getHeartbeat leader).filter
      (fun heartbeat => heartbeat.blockNumber ≠ 0) with
  | none =>
    have hgone : Gone config x.1 a leader ↔
        config.noLivenessThreshold ≤ x.1.noLivenessFromLeader := by
      unfold Gone
      rw [hfilter]
    dsimp only
    split
    · next hchecks =>
      rw [wp_modify_bind]
      refine ⟨trivial, rfl, hx.1, hx.2, fun leads hout => ?_⟩
      cases hout
      simp only [hgone, Bool.false_eq_true, false_iff]
      omega
    · next hchecks =>
      rw [wp_modify_bind]
      exact ⟨trivial, hbecome _ rfl hx (hgone.mpr (by omega))⟩
  | some heartbeat =>
    have hgone : Gone config x.1 a leader ↔ ∃ n : ℕ, a.leaderBest = some (.ok n) ∧
        (n : ℤ) - heartbeat.blockNumber > config.aliveTime := by
      unfold Gone
      rw [hfilter]
    show wp _ _ (request .getBestNumber >>= _) _ _
    rw [wp_bind, wp_call, wp_asked]
    intro r hr
    simp only [TickAnswers.answer, if_pos hbest] at hr
    have hlog : starts (x.2 ++ [.getBestNumber]) = [] ∧
        .getLeader config.group ∈ x.2 ++ [.getBestNumber] :=
      ⟨by simpa [starts] using hx.1, by simp [hx.2]⟩
    cases r with
    | error e => exact ⟨rfl, hlog.1, hlog.2, by simp⟩
    | ok bestNumber =>
      dsimp only
      split
      · next hold => exact hbecome _ rfl hlog (hgone.mpr ⟨bestNumber, hr, hold⟩)
      · next hold =>
        refine ⟨rfl, hlog.1, hlog.2, fun leads hout => ?_⟩
        cases hout
        simp only [hgone, hr, Option.some.injEq, Except.ok.injEq, Bool.false_eq_true, false_iff]
        intro ⟨⟨n, hn, hlt⟩, _⟩
        subst hn
        exact hold hlt

theorem wp_leadershipManagement_asked (x : State α × List (Call α)) (hstart : starts x.2 = [])
    (hleader : .getLeader config.group ∉ x.2) (hbest : .getBestNumber ∈ x.2) :
    wp (demonic (asked a)) free (leadershipManagement config)
      (Managed config x.1.service (Leads config x.1 a)) x := by
  unfold leadershipManagement
  rw [wp_bind, wp_call, wp_asked]
  intro r hr
  simp only [TickAnswers.answer, if_neg hleader] at hr
  cases r with
  | error e => exact ⟨rfl, by simpa [starts] using hstart, by simp, by simp⟩
  | ok leader =>
    show wp _ _ (request (.isLeadedGroup config.group) >>= _) _ _
    rw [wp_bind, wp_call, wp_asked]
    intro r hr'
    simp only [TickAnswers.answer] at hr'
    have hlog : starts (x.2 ++ [.getLeader config.group] ++ [.isLeadedGroup config.group]) = [] ∧
        .getLeader config.group ∈
          x.2 ++ [.getLeader config.group] ++ [.isLeadedGroup config.group] :=
      ⟨by simpa [starts] using hstart, by simp⟩
    cases r with
    | error e => exact ⟨rfl, hlog.1, hlog.2, by simp⟩
    | ok leaded =>
      have hleads : Leads config x.1 a ↔ _ := leads_iff hr hr'
      dsimp only
      cases leaded with
      | false =>
        rw [if_pos rfl]
        simpa [hleads] using wp_becomeLeader_asked (a := a) (.address config.nodeKey) (x.1, _) hlog
      | true =>
        rw [if_neg (by decide)]
        by_cases hself : leader = some config.nodeKey
        · rw [if_pos ((leaderText_address leader _).mpr hself)]
          exact ⟨rfl, hlog.1, hlog.2, fun leads hout => by simp_all⟩
        · rw [if_neg fun h => hself ((leaderText_address leader _).mp h)]
          have hother := wp_otherLeaderAction_asked (a := a) (leaderText leader) (x.1, _) hlog
            (by simp [hbest])
          simpa [hleads, hself] using hother

/-- What a tick starts, and why. -/
def Decided (config : Config α) (a : TickAnswers α) (s : State α) (out : Except String Unit)
    (log : List (Call α)) : Prop :=
  (starts log = [.active] ∧ s.service.isSome ∧ Gates config s a ∧
    a.finalLeader = some (.ok (some config.nodeKey))) ∨
  (starts log = [.passive] ∧ ¬ Gates config s a) ∨
  (starts log = [] ∧
    (out = .ok () → Gates config s a ∧ a.finalLeader ≠ some (.ok (some config.nodeKey))))

theorem wp_start_asked (hrole : config.nodeRole ≠ "noservice") (mode : Mode)
    (x : State α × List (Call α)) (hx : starts x.2 = []) :
    wp (demonic (asked a)) free (do let _ ← serviceStart config mode : Method α Unit)
      (fun out y => starts y.2 = [mode] ∨ (starts y.2 = [] ∧ ∃ e, out = .error e)) x := by
  cases hservice : x.1.service with
  | some service =>
    rw [wp_serviceStart_drop hrole mode hservice, wp_asked]
    intro r _
    exact .inl (by rw [starts_append, hx]; rfl)
  | none =>
    unfold serviceStart
    rw [if_neg hrole, wp_bind, wp_bind, wp_theService, hservice]
    exact .inr ⟨hx, _, rfl⟩

theorem wp_passive_asked (hrole : config.nodeRole ≠ "noservice") (x : State α × List (Call α))
    (hx : starts x.2 = []) (hshut : ¬ Gates config s a) :
    wp (demonic (asked a)) free (do let _ ← serviceStart config .passive : Method α Unit)
      (fun out y => Decided config a s out y.2) x := by
  refine wp_mono (demonic_mono _) _ ?_ _ (wp_start_asked hrole .passive x hx)
  intro out y hy
  rcases hy with hy | ⟨hy, e, he⟩
  · exact .inr (.inl ⟨hy, hshut⟩)
  · exact .inr (.inr ⟨hy, fun hout => by simp [he] at hout⟩)

theorem decided_throw {e : String} {log : List (Call α)} (h : starts log = []) :
    Decided config a s (.error e) log := .inr (.inr ⟨h, fun hout => by cases hout⟩)

/-- The last gate and the last look at the leader. -/
theorem wp_lead_asked (hrole : config.nodeRole ≠ "noservice") (x : State α × List (Call α))
    (hstart : starts x.2 = []) (hleader : .getLeader config.group ∉ x.2)
    (hbest : .getBestNumber ∈ x.2) (hs : s.service.isSome)
    (hgates : Gates config s a ↔ Leads config x.1 a) :
    wp (demonic (asked a)) free (do
      let leadership ← leadershipManagement config
      if !leadership then do
        let _ ← serviceStart config .passive
      else do
        let currentLeader : Option α ← request (.getLeader config.group)
        if leaderText currentLeader = .address config.nodeKey then do
          let _ ← serviceStart config .active
        else
          pure () : Method α Unit) (fun out y => Decided config a s out y.2) x := by
  refine wp_seq (demonic_mono _) _ _ x
    (wp_leadershipManagement_asked x hstart hleader hbest) ?_ ?_
  · intro leads y hy
    obtain ⟨hservice, hstarts, hlooked, hiff⟩ := hy
    cases leads with
    | false =>
      refine wp_passive_asked hrole y hstarts fun h => ?_
      exact absurd ((hiff false rfl).mpr (hgates.mp h)) (by decide)
    | true =>
      have hopen : Gates config s a := hgates.mpr ((hiff true rfl).mp rfl)
      show wp _ _ (request (.getLeader config.group) >>= _) _ _
      rw [wp_bind, wp_call, wp_asked]
      intro r hr
      simp only [TickAnswers.answer, if_pos hlooked] at hr
      have hstarts' : starts (y.2 ++ [.getLeader config.group]) = [] := by
        simpa [starts] using hstarts
      cases r with
      | error e => exact decided_throw hstarts'
      | ok currentLeader =>
        dsimp only
        split
        · next hself =>
          have hown := (leaderText_address currentLeader _).mp hself
          rw [hown] at hr
          refine wp_mono (demonic_mono _) _ ?_ _ (wp_start_asked hrole .active _ hstarts')
          intro out z hz
          rcases hz with hz | ⟨hz, e, he⟩
          · exact .inl ⟨hz, hs, hopen, hr⟩
          · exact .inr (.inr ⟨hz, fun hout => by simp [he] at hout⟩)
        · next hself =>
          refine .inr (.inr ⟨hstarts', fun _ => ⟨hopen, fun hown => hself ?_⟩⟩)
          rw [hr] at hown
          cases hown
          rfl
  · intro e y hy
    exact decided_throw hy.2.1

/-- The heartbeat flags are read behind the readiness check. -/
theorem wp_flags_asked (hrole : config.nodeRole ≠ "noservice") (x : State α × List (Call α))
    (hstart : starts x.2 = []) (hleader : .getLeader config.group ∉ x.2)
    (hbest : .getBestNumber ∈ x.2) (hs : s.service.isSome)
    (hgates : Gates config s a ↔ x.1.heartbeatSendEnabled = true ∧
      x.1.heartbeatSendEnabledAdmin = true ∧ Leads config x.1 a) :
    wp (demonic (asked a)) free (do
      let s ← get
      if !s.heartbeatSendEnabled || !s.heartbeatSendEnabledAdmin then do
        let _ ← serviceStart config .passive
      else do
        let leadership ← leadershipManagement config
        if !leadership then do
          let _ ← serviceStart config .passive
        else do
          let currentLeader : Option α ← request (.getLeader config.group)
          if leaderText currentLeader = .address config.nodeKey then do
            let _ ← serviceStart config .active
          else
            pure () : Method α Unit) (fun out y => Decided config a s out y.2) x := by
  rw [wp_get_bind]
  cases hflag : x.1.heartbeatSendEnabled with
  | false => exact wp_passive_asked hrole _ hstart fun h => by simpa [hflag] using (hgates.mp h).1
  | true =>
    cases hadmin : x.1.heartbeatSendEnabledAdmin with
    | false =>
      exact wp_passive_asked hrole _ hstart fun h => by simpa [hadmin] using (hgates.mp h).2.1
    | true =>
      have hlast : Gates config s a ↔ Leads config x.1 a := by
        simpa [hflag, hadmin] using hgates
      exact wp_lead_asked hrole x hstart hleader hbest hs hlast

theorem wp_orchestrateOperatorService_asked (hrole : config.nodeRole ≠ "noservice") :
    wp (demonic (asked a)) free (orchestrateOperatorService config)
      (fun out y => Decided config a s out y.2) (s, []) := by
  unfold orchestrateOperatorService
  rw [wp_bind, wp_call, wp_asked]
  intro r hsend
  simp only [TickAnswers.answer] at hsend
  cases r with
  | error e => exact decided_throw rfl
  | ok sendTransaction =>
    cases sendTransaction with
    | false => exact wp_passive_asked hrole _ rfl fun h => by simp [h.send] at hsend
    | true =>
      show wp _ _ (request .getBestNumber >>= _) _ _
      rw [wp_bind, wp_call, wp_asked]
      intro r hbest
      simp [TickAnswers.answer] at hbest
      cases r with
      | error e => exact decided_throw rfl
      | ok bestNumber =>
        dsimp only
        rw [wp_get_bind]
        dsimp only
        cases halive : s.heartbeats.anyOneAlive (.address config.nodeKey) config.aliveTime
            config.group bestNumber with
        | false =>
          refine wp_passive_asked hrole _ rfl fun h => ?_
          obtain ⟨n, hn, hany⟩ := h.alive
          rw [hbest] at hn
          cases hn
          rw [halive] at hany
          cases hany
        | true =>
          show wp _ _ (serviceReadinessManagement config >>= _) _ _
          cases hservice : s.service with
          | none =>
            unfold serviceReadinessManagement serviceReady
            rw [wp_bind, wp_bind, wp_bind, wp_theService, hservice]
            exact decided_throw rfl
          | some service =>
            rw [wp_bind, wp_serviceReadinessManagement (x := (s, _)) hservice, wp_asked]
            intro r hready
            simp only [TickAnswers.answer] at hready
            cases r with
            | error e => exact decided_throw rfl
            | ok ready =>
              dsimp only
              rw [hservice]
              dsimp only
              have hgates : Gates config s a ↔ _ := gates_iff hsend hbest halive hready
              rw [hservice] at hgates
              change Gates config s a ↔ (readiness config service.mode ready s).1 = true ∧
                (readiness config service.mode ready s).2.heartbeatSendEnabled = true ∧
                (readiness config service.mode ready s).2.heartbeatSendEnabledAdmin = true ∧
                Leads config (readiness config service.mode ready s).2 a at hgates
              generalize readiness config service.mode ready s = read at hgates ⊢
              obtain ⟨held, s'⟩ := read
              dsimp only at hgates ⊢
              cases held with
              | false => exact wp_passive_asked hrole _ rfl fun h => by simpa using (hgates.mp h).1
              | true =>
                exact wp_flags_asked hrole _ rfl (by simp) (by simp) (by rw [hservice]; rfl)
                  (by simpa using hgates)

/-! ### Open gates -/

theorem angelic_asked {c : Call α} {Q : Except String c.Ret → State α × List (Call α) → Prop}
    {x : State α × List (Call α)} {r : Except String c.Ret} (hr : a.answer x.2 c = some r)
    (hQ : Q r (x.1, x.2 ++ [c])) : angelic (asked a) c Q x := ⟨r, _, ⟨hr, rfl⟩, hQ⟩

/-- The leadership was confirmed on some run, and nothing was started. -/
def Confirmed (config : Config α) (service : Option Service) (out : Except String Bool)
    (y : State α × List (Call α)) : Prop :=
  out = .ok true ∧ y.1.service = service ∧ .getLeader config.group ∈ y.2

theorem angelic_becomeLeader {oldLeader : Wallet α} {x : State α × List (Call α)}
    (hset : a.setLeader oldLeader = some (.ok true)) (hx : .getLeader config.group ∈ x.2) :
    wp (angelic (asked a)) free (becomeLeader config oldLeader)
      (Confirmed config x.1.service) x := by
  unfold becomeLeader
  rw [wp_bind, wp_call]
  refine angelic_asked hset ?_
  show wp _ _ (request (.setTimeout 10000) >>= _) _ _
  rw [wp_bind, wp_call]
  exact angelic_asked (a := a) (r := .ok ()) rfl ⟨rfl, rfl, by simp [hx]⟩

theorem angelic_otherLeaderAction {leader : Wallet α} {x : State α × List (Call α)}
    (hgone : Gone config x.1 a leader) (hset : a.setLeader leader = some (.ok true))
    (hx : .getLeader config.group ∈ x.2) (hbest : .getBestNumber ∈ x.2) :
    wp (angelic (asked a)) free (otherLeaderAction config leader)
      (Confirmed config x.1.service) x := by
  unfold Gone at hgone
  unfold otherLeaderAction
  rw [wp_get_bind]
  dsimp only
  cases hfilter : (x.1.heartbeats.getHeartbeat leader).filter
      (fun heartbeat => heartbeat.blockNumber ≠ 0) with
  | none =>
    rw [hfilter] at hgone
    dsimp only at hgone ⊢
    have hchecks : ¬ (config.noLivenessThreshold : ℤ) - x.1.noLivenessFromLeader > 0 := by omega
    rw [if_neg hchecks, wp_modify_bind]
    exact ⟨trivial, angelic_becomeLeader hset hx⟩
  | some heartbeat =>
    rw [hfilter] at hgone
    obtain ⟨n, hn, hold⟩ := hgone
    show wp _ _ (request .getBestNumber >>= _) _ _
    rw [wp_bind, wp_call]
    refine angelic_asked (r := .ok n) (by simp [TickAnswers.answer, hbest, hn]) ?_
    dsimp only
    rw [if_pos hold]
    exact angelic_becomeLeader (x := (x.1, _)) hset (by simp [hx])

theorem angelic_leadershipManagement {x : State α × List (Call α)} (hleads : Leads config x.1 a)
    (hleader : .getLeader config.group ∉ x.2) (hbest : .getBestNumber ∈ x.2) :
    wp (angelic (asked a)) free (leadershipManagement config) (Confirmed config x.1.service) x := by
  obtain ⟨leader, leaded, hl, hd, hcase⟩ := hleads
  unfold leadershipManagement
  rw [wp_bind, wp_call]
  refine angelic_asked (r := .ok leader) (by simp [TickAnswers.answer, hleader, hl]) ?_
  show wp _ _ (request (.isLeadedGroup config.group) >>= _) _ _
  rw [wp_bind, wp_call]
  refine angelic_asked hd ?_
  dsimp only
  rcases hcase with ⟨rfl, hset⟩ | ⟨rfl, hself⟩ | ⟨rfl, hself, hgone, hset⟩
  · rw [if_pos rfl]
    exact angelic_becomeLeader (x := (x.1, _)) hset (by simp)
  · rw [if_neg (by decide), if_pos ((leaderText_address leader _).mpr hself)]
    exact ⟨rfl, rfl, by simp⟩
  · rw [if_neg (by decide), if_neg fun h => hself ((leaderText_address leader _).mp h)]
    exact angelic_otherLeaderAction (x := (x.1, _)) hgone hset (by simp) (by simp [hbest])

theorem angelic_start (hrole : config.nodeRole ≠ "noservice") {mode : Mode}
    {x : State α × List (Call α)} {service : Service} (hservice : x.1.service = some service)
    {r : Except String Bool} (hstarted : a.started = some r) :
    wp (angelic (asked a)) free (do let _ ← serviceStart config mode : Method α Unit)
      (fun _ y => mode ∈ starts y.2) x := by
  rw [wp_serviceStart_drop hrole mode hservice]
  exact angelic_asked hstarted (by simp [starts])

theorem angelic_orchestrateOperatorService (hrole : config.nodeRole ≠ "noservice")
    {service : Service} (hservice : s.service = some service) {r : Except String Bool}
    (hstarted : a.started = some r) (hgates : Gates config s a)
    (hown : a.finalLeader = some (.ok (some config.nodeKey))) :
    wp (angelic (asked a)) free (orchestrateOperatorService config)
      (fun _ y => .active ∈ starts y.2) (s, []) := by
  obtain ⟨n, hbest, halive⟩ := hgates.alive
  obtain ⟨ready, hready, -⟩ := hgates.ready
  have hread := (gates_iff hgates.send hbest halive hready).mp hgates
  have hmode := readiness_service config service.mode ready s
  rw [hservice] at hread hmode
  unfold orchestrateOperatorService
  rw [wp_bind, wp_call]
  refine angelic_asked hgates.send ?_
  show wp _ _ (request .getBestNumber >>= _) _ _
  rw [wp_bind, wp_call]
  refine angelic_asked (r := .ok n) (by simp [TickAnswers.answer, hbest]) ?_
  dsimp only
  rw [wp_get_bind]
  dsimp only
  rw [halive]
  show wp _ _ (serviceReadinessManagement config >>= _) _ _
  rw [wp_bind, wp_serviceReadinessManagement (x := (s, _)) hservice]
  refine angelic_asked hready ?_
  dsimp only
  rw [hservice]
  dsimp only
  change (readiness config service.mode ready s).1 = true ∧
    (readiness config service.mode ready s).2.heartbeatSendEnabled = true ∧
    (readiness config service.mode ready s).2.heartbeatSendEnabledAdmin = true ∧
    Leads config (readiness config service.mode ready s).2 a at hread
  generalize readiness config service.mode ready s = read at hread hmode ⊢
  obtain ⟨held, s'⟩ := read
  obtain ⟨hheld, hflag, hadmin, hleads⟩ := hread
  dsimp only at hheld hflag hadmin hleads hmode ⊢
  rw [hheld]
  show wp _ _ (get >>= _) _ _
  rw [wp_get_bind]
  dsimp only
  rw [hflag, hadmin]
  show wp _ _ (leadershipManagement config >>= _) _ _
  refine wp_seq (angelic_mono _) _ _ _
    (angelic_leadershipManagement (x := (s', _)) hleads (by simp) (by simp)) ?_ ?_
  · intro leads y ⟨hout, hs', hlooked⟩
    cases hout
    show wp _ _ (request (.getLeader config.group) >>= _) _ _
    rw [wp_bind, wp_call]
    refine angelic_asked (r := .ok (some config.nodeKey))
      (by simp [TickAnswers.answer, hlooked, hown]) ?_
    dsimp only
    have hself := (leaderText_address (some config.nodeKey) config.nodeKey).mpr rfl
    rw [if_pos hself]
    exact angelic_start hrole (hs'.trans hmode) hstarted
  · intro e y ⟨hout, _⟩
    cases hout

/-! ### The decision -/

/-- One service start, in active mode if and only if all gates are open and the
last look shows the node itself. -/
def Decisive (config : Config α) (s : State α) (a : TickAnswers α) (log : List (Call α)) : Prop :=
  ∃ mode, starts log = [mode] ∧
    (mode = .active ↔ Gates config s a ∧ a.finalLeader = some (.ok (some config.nodeKey)))

/-- A tick that does not throw is decisive except when all gates are open and
the last look shows somebody else: then it starts nothing, and a node in active
mode stays in it. -/
theorem tick_decisive_iff (config : Config α) (hrole : config.nodeRole ≠ "noservice")
    (s : State α) (a : TickAnswers α) (s' : State α) (log : List (Call α))
    (h : Runs (asked a) (orchestrateOperatorService config) (s, []) (.ok ()) (s', log)) :
    Decisive config s a log ↔
      ¬ (Gates config s a ∧ a.finalLeader ≠ some (.ok (some config.nodeKey))) := by
  have hdecided := wp_runs (wp_orchestrateOperatorService_asked (s := s) (a := a) hrole) h
  rcases hdecided with ⟨hstarts, -, hgates, hown⟩ | ⟨hstarts, hshut⟩ | ⟨hstarts, hlost⟩
  · constructor
    · intro _ hne
      exact hne.2 hown
    · intro _
      exact ⟨.active, hstarts, by simp [hgates, hown]⟩
  · constructor
    · intro _ hne
      exact hshut hne.1
    · intro _
      exact ⟨.passive, hstarts, by simp [hshut]⟩
  · constructor
    · intro ⟨mode, hmode, _⟩
      rw [hstarts] at hmode
      cases hmode
    · intro hnot
      exact absurd (hlost rfl) hnot

end Tick

def TickAnswers.script (a : TickAnswers α) : Script (api α) String (List (Call α)) :=
  fun c log => (a.answer log c).map fun r => (r, log ++ [c])

theorem script_asked (a : TickAnswers α) (c : Call α) (log : List (Call α))
    (r : Except String c.Ret) (log' : List (Call α)) (h : a.script c log = some (r, log')) :
    asked a c log r log' := by
  simp only [TickAnswers.script, Option.map_eq_some_iff, Prod.mk.injEq] at h
  obtain ⟨r', hr, rfl, rfl⟩ := h
  exact ⟨hr, rfl⟩

end Answers

/-- A validator in good order. -/
def leadingState : State ℕ :=
  { State.init (plainNode 1) with heartbeats := bothAlive, service := some ⟨some .active⟩ }

/-- The node is the leader at the first look; at the last look it is `last`. -/
def lookedTwice (last : ℕ) : TickAnswers ℕ where
  canSend := some (.ok true)
  best := some (.ok 2)
  ready := some (.ok true)
  leader := some (.ok (some 1))
  leaded := some (.ok true)
  leaderBest := some (.ok 2)
  setLeader := fun _ => none
  finalLeader := some (.ok (some last))
  started := some (.ok true)

theorem tick_decisive_iff_leader :
    Decisive (plainNode 1) leadingState (lookedTwice 1) [.canSendTransactions, .getBestNumber,
      .isServiceReadyToStart, .getLeader 1, .isLeadedGroup 1, .getLeader 1, .start .active] ↔
    ¬ (Gates (plainNode 1) leadingState (lookedTwice 1) ∧
      (lookedTwice 1).finalLeader ≠ some (.ok (some 1))) := by
  have hrun := exec_runs (script_asked (lookedTwice 1)) (orchestrateOperatorService (plainNode 1))
    (leadingState, []) rfl
  exact tick_decisive_iff (plainNode 1) (by decide) leadingState (lookedTwice 1) _ _ hrun

/-- The validator whose place was taken between the two looks is not demoted. -/
theorem lost_leader_not_demoted : ¬ ∀ (config : Config ℕ) (s : State ℕ) (a : TickAnswers ℕ)
    (s' : State ℕ) (log : List (Call ℕ)), config.nodeRole ≠ "noservice" →
    Runs (asked a) (orchestrateOperatorService config) (s, []) (.ok ()) (s', log) →
    Decisive config s a log := by
  intro h
  have hrun := exec_runs (script_asked (lookedTwice 2)) (orchestrateOperatorService (plainNode 1))
    (leadingState, []) rfl
  obtain ⟨mode, hmode, -⟩ := h (plainNode 1) leadingState (lookedTwice 2) _ _ (by decide) hrun
  cases hmode

end Archipel.Orchestrator
