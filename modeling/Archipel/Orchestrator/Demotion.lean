import Archipel.Orchestrator.Rules
import Mathlib.Data.Int.Notation

/-!
# Self-demotion before takeover

A follower claims the place of a leader only when the last heartbeat it knows
of the leader is older than `aliveTime`. One block later at the latest, a
leader that knows no newer heartbeat of itself does not count itself among the
living, and its tick starts the service in passive mode.
-/

namespace Archipel.Orchestrator
open Async
open Polkadot (Mode)

variable {α : Type}

/-- The calls of a run are kept in the world, and `P` restricts their answers. -/
def recorded (P : (c : Call α) → Except String c.Ret → Prop) :
    Env (api α) String (List (Call α)) :=
  fun c log r log' => P c r ∧ log' = log ++ [c]

def seesBest (n : ℕ) : (c : Call α) → Except String c.Ret → Prop
  | .getBestNumber, r => r = .ok n
  | _, _ => True

def answersBest (n : ℕ) (c : Call α) (r : Except String c.Ret) : Prop :=
  seesBest n c r ∧ ∃ a, r = .ok a

theorem wp_recorded (P : (c : Call α) → Except String c.Ret → Prop) (c : Call α)
    (Q : Except String c.Ret → State α × List (Call α) → Prop) (x : State α × List (Call α)) :
    demonic (recorded P) c Q x ↔ ∀ r, P c r → Q r (x.1, x.2 ++ [c]) := by
  constructor
  · intro h r hr
    exact h r _ ⟨hr, rfl⟩
  · intro h r log ⟨hr, hlog⟩
    rw [hlog]
    exact h r hr

theorem wp_unrecorded {β : Type} (P : (c : Call α) → Except String c.Ret → Prop) (c : Call α)
    {m : Method α β} (hm : OnlyCalls (A := api α) (· ≠ c) m) (x : State α × List (Call α))
    (hx : c ∉ x.2) : wp (demonic (recorded P)) free m (fun _ y => c ∉ y.2) x := by
  refine wp_invariant (demonic_mono _) (fun y s hy => ⟨trivial, hy⟩) ?_ hm x hx
  intro d hd y hy r log ⟨_, hlog⟩
  have hne : c ≠ d := fun h => hd h.symm
  simp only [hlog, List.mem_append, List.mem_singleton, hy, hne, or_self, not_false_eq_true]

variable [DecidableEq α]

def lastBlock (h : Heartbeats α) (wallet : Wallet α) : ℕ :=
  match h.getHeartbeat wallet with
  | some heartbeat => heartbeat.blockNumber
  | none => 0

/-- The last heartbeat of the wallet counts as too old for a leader. -/
def Stale (h : Heartbeats α) (aliveTime : ℤ) (bestNumber : ℕ) (wallet : Wallet α) : Prop :=
  lastBlock h wallet = 0 ∨ (bestNumber : ℤ) - lastBlock h wallet > aliveTime

/-- The strict bound of `anyOneAlive` and the strict bound of
`otherLeaderAction` leave a margin of one block. -/
theorem stale_not_alive {h h' : Heartbeats α} {aliveTime : ℤ} {n n' : ℕ} {wallet : Wallet α}
    (hstale : Stale h aliveTime n wallet) (hrecord : lastBlock h' wallet ≤ lastBlock h wallet)
    (hbest : (n : ℤ) - 1 ≤ n') : ¬ h'.Alive aliveTime n' wallet := by
  intro ⟨value, hvalue, halive⟩
  have hlast : lastBlock h' wallet = value.blockNumber := by
    unfold lastBlock
    rw [hvalue]
  obtain ⟨hne, hlt⟩ := (Heartbeats.isAlive_iff aliveTime n' value).mp halive
  rcases hstale with hzero | hold
  · omega
  · omega

/-- A leader that does not count itself among the living starts its service in
passive mode and in no other. -/
theorem wp_demotion {config : Config α} (hrole : config.nodeRole ≠ "noservice") (n : ℕ)
    {s : State α} {service : Service} (hs : s.service = some service)
    (hdead : ¬ s.heartbeats.Alive config.aliveTime n (.address config.nodeKey)) :
    wp (demonic (recorded (answersBest n))) free (orchestrateOperatorService config)
      (fun out y => out = .ok () ∧ ∃ log, y.2 = log ++ [.start .passive] ∧
        ∀ mode, .start mode ∉ log) (s, []) := by
  have hpassive : ∀ log : List (Call α), (∀ mode, .start mode ∉ log) →
      wp (demonic (recorded (answersBest n))) free
        (do let _ ← serviceStart config .passive : Method α Unit)
        (fun out y => out = .ok () ∧ ∃ log, y.2 = log ++ [.start .passive] ∧
          ∀ mode, .start mode ∉ log) (s, log) := by
    intro log hlog
    rw [wp_serviceStart_drop hrole .passive hs, wp_recorded]
    intro r ⟨_, a, ha⟩
    rw [ha]
    exact ⟨rfl, log, rfl, hlog⟩
  unfold orchestrateOperatorService
  rw [wp_bind, wp_call, wp_recorded]
  intro r ⟨_, sendTransaction, hr⟩
  rw [hr]
  cases sendTransaction with
  | false => exact hpassive _ (by simp)
  | true =>
    show wp _ _ (request .getBestNumber >>= _) _ _
    rw [wp_bind, wp_call, wp_recorded]
    intro r ⟨hbest, _⟩
    rw [show r = .ok n from hbest]
    dsimp only
    rw [wp_get_bind]
    dsimp only
    rw [Heartbeats.anyOneAlive_dead hdead]
    exact hpassive _ (by simp)

theorem wp_otherLeaderAction_alive {config : Config α} (n : ℕ) (currentLeader : Wallet α)
    (x : State α × List (Call α))
    (halive : ¬ Stale x.1.heartbeats config.aliveTime n currentLeader)
    (hx : .setLeader currentLeader config.group ∉ x.2) :
    wp (demonic (recorded (seesBest n))) free (otherLeaderAction config currentLeader)
      (fun _ y => .setLeader currentLeader config.group ∉ y.2) x := by
  have hfound : ∃ value, x.1.heartbeats.getHeartbeat currentLeader = some value ∧
      value.blockNumber ≠ 0 ∧ (n : ℤ) - value.blockNumber ≤ config.aliveTime := by
    unfold Stale lastBlock at halive
    cases hget : x.1.heartbeats.getHeartbeat currentLeader with
    | none => simp [hget] at halive
    | some value =>
      rw [hget] at halive
      have hbounds := not_or.mp halive
      exact ⟨value, rfl, hbounds.1, Int.not_lt.mp hbounds.2⟩
  obtain ⟨value, hvalue, hne, hrecent⟩ := hfound
  have hfilter : (x.1.heartbeats.getHeartbeat currentLeader).filter
      (fun heartbeat => heartbeat.blockNumber ≠ 0) = some value := by
    rw [hvalue]
    simp [Option.filter, hne]
  unfold otherLeaderAction
  rw [wp_get_bind]
  dsimp only
  rw [hfilter]
  show wp _ _ (request .getBestNumber >>= _) _ _
  rw [wp_bind, wp_call, wp_recorded]
  intro r hr
  rw [show r = .ok n from hr]
  dsimp only
  rw [if_neg (Int.not_lt.mpr hrecent)]
  show _ ∉ _
  simpa using hx

theorem wp_leadershipManagement_alive {config : Config α} (n : ℕ) (leader : α)
    (hne : leader ≠ config.nodeKey) (x : State α × List (Call α))
    (halive : ¬ Stale x.1.heartbeats config.aliveTime n (.address leader))
    (hx : .setLeader (.address leader) config.group ∉ x.2) :
    wp (demonic (recorded (seesBest n))) free (leadershipManagement config)
      (fun _ y => .setLeader (.address leader) config.group ∉ y.2) x := by
  unfold leadershipManagement
  rw [wp_bind, wp_call, wp_recorded]
  intro r _
  cases r with
  | error e => simpa using hx
  | ok currentLeader =>
    show wp _ _ (request (.isLeadedGroup config.group) >>= _) _ _
    rw [wp_bind, wp_call, wp_recorded]
    intro r _
    cases r with
    | error e => simpa using hx
    | ok isLeadedGroup =>
      dsimp only
      split
      · have hset : (.setLeader (.address config.nodeKey) config.group : Call α) ≠
            .setLeader (.address leader) config.group := by
          simpa using hne.symm
        exact wp_unrecorded _ _ (onlyCalls_becomeLeader _ hset (by simp)) _ (by simpa using hx)
      · split
        · simpa using hx
        · by_cases heq : leaderText currentLeader = .address leader
          · rw [heq]
            exact wp_otherLeaderAction_alive n (.address leader) _ halive (by simpa using hx)
          · have hset : Call.setLeader (leaderText currentLeader) config.group ≠
                .setLeader (.address leader) config.group := by
              simpa using heq
            exact wp_unrecorded _ _ (onlyCalls_otherLeaderAction _ hset (by simp) (by simp)) _
              (by simpa using hx)

theorem wp_unclaimed {config : Config α} (n : ℕ) {s : State α} {service : Service}
    (hs : s.service = some service) (leader : α) (hne : leader ≠ config.nodeKey)
    (halive : ¬ Stale s.heartbeats config.aliveTime n (.address leader)) :
    wp (demonic (recorded (seesBest n))) free (orchestrateOperatorService config)
      (fun _ y => .setLeader (.address leader) config.group ∉ y.2) (s, []) := by
  have hstart : ∀ mode, OnlyCalls (A := api α) (· ≠ .setLeader (.address leader) config.group)
      (do let _ ← serviceStart config mode : Method α Unit) := fun mode =>
    onlyCalls_start_drop mode (by simp)
  unfold orchestrateOperatorService
  rw [wp_bind, wp_call, wp_recorded]
  intro r _
  cases r with
  | error e => simp
  | ok sendTransaction =>
    cases sendTransaction with
    | false => exact wp_unrecorded _ _ (hstart .passive) _ (by simp)
    | true =>
      show wp _ _ (request .getBestNumber >>= _) _ _
      rw [wp_bind, wp_call, wp_recorded]
      intro r _
      cases r with
      | error e => simp
      | ok bestNumber =>
        dsimp only
        rw [wp_get_bind]
        split
        · exact wp_unrecorded _ _ (hstart .passive) _ (by simp)
        · rw [wp_bind, wp_serviceReadinessManagement hs, wp_recorded]
          intro r _
          cases r with
          | error e => simp
          | ok ready =>
            dsimp only
            rw [hs]
            dsimp only
            split
            · exact wp_unrecorded _ _ (hstart .passive) _ (by simp)
            · rw [wp_get_bind]
              split
              · exact wp_unrecorded _ _ (hstart .passive) _ (by simp)
              · refine wp_seq (demonic_mono _) _ _ _ (wp_leadershipManagement_alive n leader hne _
                  (by simpa using halive) (by simp)) ?_ (fun _ _ h => h)
                intro leadership y hy
                have hrest : OnlyCalls (A := api α)
                    (· ≠ .setLeader (.address leader) config.group)
                    (do
                      let currentLeader : Option α ← request (.getLeader config.group)
                      if leaderText currentLeader = .address config.nodeKey then do
                        let _ ← serviceStart config .active
                      else pure () : Method α Unit) := by
                  refine onlyCalls_bind (onlyCalls_call (by simp)) fun currentLeader => ?_
                  split
                  · exact hstart .active
                  · trivial
                cases leadership with
                | false => exact wp_unrecorded _ _ (hstart .passive) _ hy
                | true => exact wp_unrecorded _ _ hrest _ hy

/-- When a follower submits a claim against a leader, the tick of the leader
starts the service in passive mode and in no other, whatever its other inputs:
provided it knows no newer heartbeat of itself and its best block is at most
one behind. -/
theorem demotion_before_takeover (config leaderConfig : Config α)
    (haliveTime : leaderConfig.aliveTime = config.aliveTime)
    (hkeys : leaderConfig.nodeKey ≠ config.nodeKey)
    (hrole : leaderConfig.nodeRole ≠ "noservice")
    (s sL : State α) (hs : s.service.isSome) (hsL : sL.service.isSome) (nk nL : ℕ)
    (hrecord : lastBlock sL.heartbeats (.address leaderConfig.nodeKey) ≤
      lastBlock s.heartbeats (.address leaderConfig.nodeKey))
    (hbest : (nk : ℤ) - 1 ≤ nL) (out outL : Except String Unit)
    (y yL : State α × List (Call α))
    (hrun : Runs (recorded (seesBest nk)) (orchestrateOperatorService config) (s, []) out y)
    (hclaim : .setLeader (.address leaderConfig.nodeKey) config.group ∈ y.2)
    (hrunL : Runs (recorded (answersBest nL)) (orchestrateOperatorService leaderConfig)
      (sL, []) outL yL) :
    outL = .ok () ∧ ∃ log, yL.2 = log ++ [.start .passive] ∧ ∀ mode, .start mode ∉ log := by
  obtain ⟨service, hservice⟩ := Option.isSome_iff_exists.mp hs
  obtain ⟨serviceL, hserviceL⟩ := Option.isSome_iff_exists.mp hsL
  have hstale : Stale s.heartbeats config.aliveTime nk (.address leaderConfig.nodeKey) := by
    by_contra halive
    exact wp_runs (wp_unclaimed nk hservice leaderConfig.nodeKey hkeys halive) hrun hclaim
  have hdead := stale_not_alive hstale hrecord hbest
  rw [← haliveTime] at hdead
  exact wp_runs (wp_demotion hrole nL hserviceL hdead) hrunL

theorem demotion_before_takeover_claim :
    let sL := { State.init (plainNode 2) with
      heartbeats := (State.init (plainNode 2)).heartbeats.addHeartbeat (.address 2) 1 1 5 }
    ∀ outL yL, Runs (recorded (answersBest 119)) (orchestrateOperatorService (plainNode 2))
      (sL, []) outL yL →
      outL = .ok () ∧ ∃ log, yL.2 = log ++ [.start .passive] ∧ ∀ mode, .start mode ∉ log := by
  intro sL outL yL hrunL
  let s := { State.init (plainNode 1) with
    heartbeats := (sL.heartbeats.addHeartbeat (.address 1) 1 2 119).addHeartbeat (.address 3) 1 2
      119 }
  let D : Script (api ℕ) String (List (Call ℕ)) := fun c log => some (match c with
    | .canSendTransactions => .ok true
    | .getBestNumber => .ok 120
    | .getLeader _ => .ok (some 2)
    | .isLeadedGroup _ => .ok true
    | .getHeartbeat _ => .ok 0
    | .setLeader _ _ => .ok false
    | .addHeartbeat _ _ => .ok false
    | .bootstrap => .ok ()
    | .start _ => .ok true
    | .cleanUp => .ok true
    | .isServiceReadyToStart => .ok true
    | .setTimeout _ => .ok ()
    | _ => .error "", log ++ [c])
  have hD : ∀ c log r log', D c log = some (r, log') → recorded (seesBest 120) c log r log' := by
    intro c log r log' h
    cases h
    cases c <;> exact ⟨by trivial, rfl⟩
  exact demotion_before_takeover (plainNode 1) (plainNode 2) rfl (by decide) (by decide) s sL rfl
    rfl 120 119 (by decide) (by decide) _ outL _ yL
    (exec_runs hD (orchestrateOperatorService (plainNode 1)) (s, []) rfl) (by decide) hrunL

end Archipel.Orchestrator
