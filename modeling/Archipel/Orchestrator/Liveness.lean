import Archipel.Async.Log
import Archipel.Orchestrator.Rules

/-!
# The count of silent checks

`otherLeaderAction` counts the checks in which it found no heartbeat of the
leader, over the ticks. The count says nothing about whom the checks were about:
it is set back by a claim and by nothing else. It stands for checks of one
silent leader in the runs where a count, once begun, is not disturbed.
-/

namespace Archipel.Orchestrator
open Async
open Polkadot (Mode)

abbrev Log (α : Type) := List (Event (api α) String Unit)

variable {α : Type}

/-! ### What the log of a tick says -/

def leaderAnswer : Event (api α) String Unit → Option (Option α)
  | ⟨.getLeader _, .ok leader, _⟩ => some leader
  | _ => none

def leadedAnswer : Event (api α) String Unit → Option Bool
  | ⟨.isLeadedGroup _, .ok leaded, _⟩ => some leaded
  | _ => none

/-- The first leader that was read. -/
def leaderRead (log : Log α) : Option (Option α) := log.findSome? leaderAnswer

def leadedRead (log : Log α) : Option Bool := log.findSome? leadedAnswer

/-- A claim against `leader` was submitted. -/
def Claims (log : Log α) (leader : Wallet α) : Prop :=
  ∃ group answer, (⟨.setLeader leader group, answer, ()⟩ : Event (api α) String Unit) ∈ log

/-- Calls that neither look at the leader nor claim his place. -/
def Preliminary : Call α → Prop
  | .getLeader _ => False
  | .isLeadedGroup _ => False
  | .setLeader _ _ => False
  | _ => True

def NoClaim : Call α → Prop
  | .setLeader _ _ => False
  | _ => True

/-- The group was found leaded and the leader known. -/
def BothRead (log : Log α) : Prop := (leaderRead log).isSome ∧ (leadedRead log).isSome

structure Unread (log : Log α) : Prop where
  leader : leaderRead log = none
  leaded : leadedRead log = none
  claims : ∀ leader, ¬ Claims log leader

theorem leaderRead_append (log made : Log α) :
    leaderRead (log ++ made) = (leaderRead log).or (leaderRead made) := List.findSome?_append

theorem leadedRead_append (log made : Log α) :
    leadedRead (log ++ made) = (leadedRead log).or (leadedRead made) := List.findSome?_append

theorem claims_append (log made : Log α) (leader : Wallet α) :
    Claims (log ++ made) leader ↔ Claims log leader ∨ Claims made leader := by
  unfold Claims
  constructor
  · intro h
    obtain ⟨group, answer, hmem⟩ := h
    rcases List.mem_append.mp hmem with hlog | hmade
    · exact .inl ⟨group, answer, hlog⟩
    · exact .inr ⟨group, answer, hmade⟩
  · intro h
    rcases h with h | h
    · obtain ⟨group, answer, hlog⟩ := h
      exact ⟨group, answer, List.mem_append_left _ hlog⟩
    · obtain ⟨group, answer, hmade⟩ := h
      exact ⟨group, answer, List.mem_append_right _ hmade⟩

theorem no_claims {made : Log α} (h : ∀ event ∈ made, NoClaim event.call) (leader : Wallet α) :
    ¬ Claims made leader := by
  intro hclaims
  obtain ⟨group, answer, hmem⟩ := hclaims
  exact h _ hmem

theorem unread_quiet {made : Log α} (h : ∀ event ∈ made, Preliminary event.call) : Unread made := by
  constructor
  · apply List.findSome?_eq_none_iff.mpr
    intro event hevent
    have hquiet := h event hevent
    obtain ⟨c, r, w⟩ := event
    cases c with
    | getLeader group => exact hquiet.elim
    | _ => rfl
  · apply List.findSome?_eq_none_iff.mpr
    intro event hevent
    have hquiet := h event hevent
    obtain ⟨c, r, w⟩ := event
    cases c with
    | isLeadedGroup group => exact hquiet.elim
    | _ => rfl
  · intro leader hclaims
    obtain ⟨group, answer, hmem⟩ := hclaims
    exact h _ hmem

theorem unread_append {log made : Log α} (h : Unread log) (h' : Unread made) :
    Unread (log ++ made) := by
  constructor
  · rw [leaderRead_append, h.leader, h'.leader]
    rfl
  · rw [leadedRead_append, h.leaded, h'.leaded]
    rfl
  · intro leader hclaims
    rcases (claims_append log made leader).mp hclaims with hlog | hmade
    · exact h.claims leader hlog
    · exact h'.claims leader hmade

theorem looked_append {log : Log α} (h : BothRead log) (made : Log α) :
    leaderRead (log ++ made) = leaderRead log ∧ leadedRead (log ++ made) = leadedRead log := by
  obtain ⟨leader, hleader⟩ := Option.isSome_iff_exists.mp h.1
  obtain ⟨leaded, hleaded⟩ := Option.isSome_iff_exists.mp h.2
  rw [leaderRead_append, leadedRead_append, hleader, hleaded]
  exact ⟨rfl, rfl⟩

variable [DecidableEq α]

/-- The leader that the tick handed to `otherLeaderAction`, if it did. -/
def evaluated (config : Config α) (log : Log α) : Option (Wallet α) :=
  if config.serviceMode = "orchestrator" ∧ leadedRead log = some true then
    ((leaderRead log).map leaderText).filter (· ≠ .address config.nodeKey)
  else none

/-- There is no non-zero heartbeat of the leader in the map. -/
def silent (heartbeats : Heartbeats α) (leader : Wallet α) : Bool :=
  ((heartbeats.getHeartbeat leader).filter fun heartbeat => heartbeat.blockNumber ≠ 0).isNone

/-! ### One tick -/

/-- What a tick that started in `s` did to the count. -/
structure Counted (config : Config α) (s s' : State α) (log : Log α) : Prop where
  idle : evaluated config log = none → s'.noLivenessFromLeader = s.noLivenessFromLeader
  heard : ∀ leader, evaluated config log = some leader → silent s.heartbeats leader = false →
    s'.noLivenessFromLeader = s.noLivenessFromLeader
  waits : ∀ leader, evaluated config log = some leader → silent s.heartbeats leader = true →
    s.noLivenessFromLeader < config.noLivenessThreshold →
    s'.noLivenessFromLeader = s.noLivenessFromLeader + 1 ∧ ¬ Claims log leader
  gone : ∀ leader, evaluated config log = some leader → silent s.heartbeats leader = true →
    config.noLivenessThreshold ≤ s.noLivenessFromLeader → s'.noLivenessFromLeader = 0

section Tick
variable {config : Config α} {s : State α}

theorem evaluated_none {log : Log α}
    (h : leaderRead log = none ∨ leadedRead log ≠ some true) : evaluated config log = none := by
  unfold evaluated
  rcases h with h | h
  · rw [h]
    simp
  · rw [if_neg fun hand => h hand.2]

theorem evaluated_self {log : Log α} {leader : Option α} (hleader : leaderRead log = some leader)
    (hself : leaderText leader = .address config.nodeKey) : evaluated config log = none := by
  unfold evaluated
  rw [hleader, Option.map_some, hself]
  simp

theorem evaluated_other (hmode : config.serviceMode = "orchestrator") {log : Log α}
    {leader : Option α} (hleader : leaderRead log = some leader)
    (hleaded : leadedRead log = some true) (hother : leaderText leader ≠ .address config.nodeKey) :
    evaluated config log = some (leaderText leader) := by
  unfold evaluated
  rw [if_pos ⟨hmode, hleaded⟩, hleader]
  simp [hother]

theorem counted_idle {s' : State α} {log : Log α} (h : evaluated config log = none)
    (hs : s'.noLivenessFromLeader = s.noLivenessFromLeader) : Counted config s s' log := by
  constructor
  · intro _
    exact hs
  all_goals
    intro leader hleader
    rw [h] at hleader
    cases hleader

theorem counted_heard {s' : State α} {log : Log α} {leader : Wallet α}
    (h : evaluated config log = some leader) (hheard : silent s.heartbeats leader = false)
    (hs : s'.noLivenessFromLeader = s.noLivenessFromLeader) : Counted config s s' log := by
  have hnot : ∀ other, evaluated config log = some other →
      silent s.heartbeats other ≠ true := by
    intro other hother hsilent
    rw [h] at hother
    cases hother
    rw [hheard] at hsilent
    cases hsilent
  exact ⟨fun _ => hs, fun _ _ _ => hs, fun other hother hsilent =>
    absurd hsilent (hnot other hother), fun other hother hsilent =>
    absurd hsilent (hnot other hother)⟩

theorem counted_silent {s' : State α} {log : Log α} {leader : Wallet α}
    (h : evaluated config log = some leader) (hsilent : silent s.heartbeats leader = true)
    (hwaits : s.noLivenessFromLeader < config.noLivenessThreshold →
      s'.noLivenessFromLeader = s.noLivenessFromLeader + 1 ∧ ¬ Claims log leader)
    (hgone : config.noLivenessThreshold ≤ s.noLivenessFromLeader →
      s'.noLivenessFromLeader = 0) : Counted config s s' log := by
  constructor
  · intro hnone
    rw [h] at hnone
    cases hnone
  · intro other hother hheard
    rw [h] at hother
    cases hother
    rw [hsilent] at hheard
    cases hheard
  · intro other hother _ hlt
    rw [h] at hother
    cases hother
    exact hwaits hlt
  · intro other _ _ hle
    exact hgone hle

/-- No claim is ruled out in a tick with this log: whoever it found silent has
had all the checks. -/
def Exhausted (config : Config α) (s : State α) (log : Log α) : Prop :=
  ∀ leader, evaluated config log = some leader → silent s.heartbeats leader = true →
    config.noLivenessThreshold ≤ s.noLivenessFromLeader

theorem evaluated_append (config : Config α) {log : Log α} (h : BothRead log) (made : Log α) :
    evaluated config (log ++ made) = evaluated config log := by
  obtain ⟨hleader, hleaded⟩ := looked_append h made
  unfold evaluated
  rw [hleader, hleaded]

theorem counted_append {s' s'' : State α} {log made : Log α} (h : Counted config s s' log)
    (hlooked : BothRead log)
    (hmade : (∀ event ∈ made, NoClaim event.call) ∨ Exhausted config s log)
    (hs : s''.noLivenessFromLeader = s'.noLivenessFromLeader) :
    Counted config s s'' (log ++ made) := by
  have heval := evaluated_append config hlooked made
  constructor
  · rw [heval, hs]
    exact h.idle
  · rw [heval, hs]
    exact h.heard
  · intro leader hleader hsilent hlt
    rw [heval] at hleader
    obtain ⟨hcount, hclaims⟩ := h.waits leader hleader hsilent hlt
    refine ⟨by rw [hs, hcount], ?_⟩
    intro hclaims'
    rcases (claims_append log made leader).mp hclaims' with hlog | hmade'
    · exact hclaims hlog
    · rcases hmade with hno | hexhausted
      · exact no_claims hno leader hmade'
      · have hle := hexhausted leader hleader hsilent
        omega
  · rw [heval, hs]
    exact h.gone

abbrev World (α : Type) := Unit × Log α

/-- Nothing has been looked at and nothing counted since the tick started in `s`. -/
structure Fresh (s : State α) (y : State α × World α) : Prop where
  count : y.1.noLivenessFromLeader = s.noLivenessFromLeader
  heartbeats : y.1.heartbeats = s.heartbeats
  unread : Unread y.2.2

abbrev SameCount (s t : State α) : Prop :=
  t.noLivenessFromLeader = s.noLivenessFromLeader ∧ t.heartbeats = s.heartbeats

/-- The tick has looked at the leader and counted. -/
structure Checked (config : Config α) (s : State α) (y : State α × World α) : Prop where
  counted : Counted config s y.1 y.2.2
  looked : BothRead y.2.2

theorem fresh_counted {y : State α × World α} (h : Fresh s y) : Counted config s y.1 y.2.2 :=
  counted_idle (evaluated_none (.inl h.unread.leader)) h.count

omit [DecidableEq α] in
theorem wp_fresh {β : Type} {m : Method α β}
    (hI : Maintains (A := api α) (SameCount s) m) (hp : OnlyCalls (A := api α) Preliminary m)
    (y : State α × World α) (hy : Fresh s y) :
    wp (demonic (logged anyAnswer)) free m (fun _ z => Fresh s z) y := by
  have hm := wp_maintains_logged (E := anyAnswer) hI hp y ⟨hy.count, hy.heartbeats⟩
  refine wp_mono (demonic_mono _) m ?_ y hm
  intro out z hz
  obtain ⟨⟨hcount, hheartbeats⟩, made, hmade, hquiet⟩ := hz
  have hunread := unread_append hy.unread (unread_quiet hquiet)
  rw [← hmade] at hunread
  exact ⟨hcount, hheartbeats, hunread⟩

theorem wp_checked {β : Type} {m : Method α β} {y : State α × World α}
    (hI : Maintains (A := api α) (fun t => t.noLivenessFromLeader = y.1.noLivenessFromLeader) m)
    (hp : OnlyCalls (A := api α) NoClaim m ∨ Exhausted config s y.2.2)
    (hy : Checked config s y) :
    wp (demonic (logged anyAnswer)) free m (fun _ z => Checked config s z) y := by
  have hchecked : ∀ (z : State α × World α) (made : Log α), y.2.2 ++ made = z.2.2 →
      z.1.noLivenessFromLeader = y.1.noLivenessFromLeader →
      (∀ event ∈ made, NoClaim event.call) ∨ Exhausted config s y.2.2 → Checked config s z := by
    intro z made hmade hcount hclaims
    have hcounted := counted_append hy.counted hy.looked hclaims hcount
    have hlooked := looked_append hy.looked made
    rw [hmade] at hcounted hlooked
    refine ⟨hcounted, ?_, ?_⟩
    · rw [hlooked.1]
      exact hy.looked.1
    · rw [hlooked.2]
      exact hy.looked.2
  rcases hp with hp | hexhausted
  · have hm := wp_maintains_logged (E := anyAnswer) hI hp y rfl
    refine wp_mono (demonic_mono _) m ?_ y hm
    intro out z hz
    obtain ⟨hcount, made, hmade, hquiet⟩ := hz
    exact hchecked z made hmade.symm hcount (.inl hquiet)
  · have hm := wp_maintains_logged (E := anyAnswer) hI (onlyCalls_true m) y rfl
    refine wp_mono (demonic_mono _) m ?_ y hm
    intro out z hz
    obtain ⟨hcount, made, hmade, -⟩ := hz
    exact hchecked z made hmade.symm hcount (.inr hexhausted)

theorem wp_becomeLeader_checked (oldLeader : Wallet α) {y : State α × World α}
    (hexhausted : Exhausted config s y.2.2) (hy : Checked config s y) :
    wp (demonic (logged anyAnswer)) free (becomeLeader config oldLeader)
      (fun _ z => Checked config s z) y :=
  wp_checked (maintains_becomeLeader oldLeader) (.inr hexhausted) hy

theorem wp_otherLeaderAction_checked {leader : Wallet α} {y : State α × World α}
    (hsame : SameCount s y.1) (hlooked : BothRead y.2.2)
    (hleader : evaluated config y.2.2 = some leader) (hclaims : ¬ Claims y.2.2 leader) :
    wp (demonic (logged anyAnswer)) free (otherLeaderAction config leader)
      (fun _ z => Checked config s z) y := by
  obtain ⟨hcount, hheartbeats⟩ := hsame
  unfold otherLeaderAction
  rw [wp_get_bind]
  dsimp only
  cases hfilter : (y.1.heartbeats.getHeartbeat leader).filter
      (fun heartbeat => heartbeat.blockNumber ≠ 0) with
  | none =>
    have hsilent : silent s.heartbeats leader = true := by
      unfold silent
      rw [← hheartbeats, hfilter]
      rfl
    dsimp only
    split
    · next hchecks =>
      -- The check is counted, and no claim is made.
      rw [wp_modify_bind]
      refine ⟨trivial, counted_silent hleader hsilent ?_ ?_, hlooked⟩
      · intro _
        exact ⟨congrArg (· + 1) hcount, hclaims⟩
      · intro hgone
        omega
    · next hchecks =>
      rw [wp_modify_bind]
      have hgone : config.noLivenessThreshold ≤ s.noLivenessFromLeader := by omega
      refine ⟨trivial, wp_becomeLeader_checked leader (fun _ _ _ => hgone)
        ⟨counted_silent hleader hsilent ?_ fun _ => rfl, hlooked⟩⟩
      intro hlt
      omega
  | some heartbeat =>
    have hheard : silent s.heartbeats leader = false := by
      unfold silent
      rw [← hheartbeats, hfilter]
      rfl
    have hchecked : Checked config s y := ⟨counted_heard hleader hheard hcount, hlooked⟩
    have hexhausted : Exhausted config s y.2.2 := by
      intro other hother hsilent
      rw [hleader] at hother
      cases hother
      rw [hheard] at hsilent
      cases hsilent
    refine wp_checked ?_ (.inr hexhausted) hchecked
    refine maintains_bind (maintains_call _) fun bestNumber => ?_
    split
    · exact maintains_becomeLeader _
    · trivial

omit [DecidableEq α] in
/-- The log after the two looks. -/
theorem looked_reads (config : Config α) {log : Log α} (h : Unread log) (leader : Option α)
    (leaded : Bool) :
    leaderRead (log ++ [⟨.getLeader config.group, .ok leader, ()⟩] ++
      [⟨.isLeadedGroup config.group, .ok leaded, ()⟩]) = some leader ∧
    leadedRead (log ++ [⟨.getLeader config.group, .ok leader, ()⟩] ++
      [⟨.isLeadedGroup config.group, .ok leaded, ()⟩]) = some leaded := by
  constructor
  · rw [leaderRead_append, leaderRead_append, h.leader]
    rfl
  · rw [leadedRead_append, leadedRead_append, h.leaded]
    rfl

omit [DecidableEq α] in
/-- The two looks claim nothing. -/
theorem looked_claims (config : Config α) {log : Log α} (h : Unread log) (leader : Option α)
    (leaded : Bool) (wallet : Wallet α) :
    ¬ Claims (log ++ [⟨.getLeader config.group, .ok leader, ()⟩] ++
      [⟨.isLeadedGroup config.group, .ok leaded, ()⟩]) wallet := by
  have hquiet : ∀ event ∈ ([⟨.getLeader config.group, .ok leader, ()⟩,
      ⟨.isLeadedGroup config.group, .ok leaded, ()⟩] : Log α), NoClaim event.call := by
    intro event hevent
    rcases List.mem_pair.mp hevent with heq | heq
    · rw [heq]
      trivial
    · rw [heq]
      trivial
  rw [List.append_assoc]
  intro hclaims
  rcases (claims_append _ _ _).mp hclaims with hlog | hmade
  · exact h.claims _ hlog
  · exact no_claims hquiet _ hmade

theorem wp_leadershipManagement_counted (hmode : config.serviceMode = "orchestrator")
    {y : State α × World α} (hy : Fresh s y) :
    wp (demonic (logged anyAnswer)) free (leadershipManagement config)
      (fun out z => Counted config s z.1 z.2.2 ∧ ∀ leads, out = .ok leads → Checked config s z)
      y := by
  unfold leadershipManagement
  rw [wp_bind, wp_call]
  intro r w hr
  obtain ⟨-, hw⟩ := hr
  cases r with
  | error e =>
    have hnone : leaderRead w.2 = none := by
      rw [hw, leaderRead_append, hy.unread.leader]
      rfl
    exact ⟨counted_idle (evaluated_none (.inl hnone)) hy.count, fun leads hout => nomatch hout⟩
  | ok leader =>
    show wp _ _ (request (.isLeadedGroup config.group) >>= _) _ _
    rw [wp_bind, wp_call]
    intro r w' hr
    obtain ⟨-, hw'⟩ := hr
    cases r with
    | error e =>
      have hnone : leadedRead w'.2 = none := by
        rw [hw', hw, leadedRead_append, leadedRead_append, hy.unread.leaded]
        rfl
      refine ⟨counted_idle (evaluated_none (.inr ?_)) hy.count, fun leads hout => nomatch hout⟩
      rw [hnone]
      exact fun h => nomatch h
    | ok leaded =>
      obtain ⟨hleader, hleaded⟩ := looked_reads config hy.unread leader leaded
      rw [← hw, ← hw'] at hleader hleaded
      have hlooked : BothRead w'.2 := by
        unfold BothRead
        rw [hleader, hleaded]
        exact ⟨rfl, rfl⟩
      have hidle : evaluated config w'.2 = none → Checked config s (y.1, w') := fun hnone =>
        ⟨counted_idle hnone hy.count, hlooked⟩
      have hnever : evaluated config w'.2 = none → Exhausted config s w'.2 := by
        intro hnone other hother
        rw [hnone] at hother
        cases hother
      dsimp only
      cases leaded with
      | false =>
        have hnone : evaluated config w'.2 = none := evaluated_none (.inr (by simp [hleaded]))
        rw [if_pos rfl]
        refine wp_mono (demonic_mono _) _ ?_ _
          (wp_becomeLeader_checked _ (hnever hnone) (hidle hnone))
        exact fun out z hz => ⟨hz.counted, fun _ _ => hz⟩
      | true =>
        rw [if_neg (by decide)]
        by_cases hself : leaderText leader = .address config.nodeKey
        · have hnone := evaluated_self hleader hself
          rw [if_pos hself]
          exact ⟨counted_idle hnone hy.count, fun _ _ => hidle hnone⟩
        · have hother := evaluated_other hmode hleader hleaded hself
          have hclaims : ¬ Claims w'.2 (leaderText leader) := by
            rw [hw', hw]
            exact looked_claims config hy.unread leader true (leaderText leader)
          rw [if_neg hself]
          refine wp_mono (demonic_mono _) _ ?_ _
            (wp_otherLeaderAction_checked ⟨hy.count, hy.heartbeats⟩ hlooked hother hclaims)
          exact fun out z hz => ⟨hz.counted, fun _ _ => hz⟩

omit [DecidableEq α] in
theorem wp_passive_fresh (mode : Mode) {y : State α × World α} (hy : Fresh s y) :
    wp (demonic (logged anyAnswer)) free (do let _ ← serviceStart config mode)
      (fun _ z => Fresh s z) y :=
  wp_fresh (maintains_start_drop mode fun _ h => h) (onlyCalls_start_drop mode trivial) y hy

theorem wp_orchestrateOperatorService_counted (hmode : config.serviceMode = "orchestrator")
    {y : State α × World α} (hy : Fresh s y) :
    wp (demonic (logged anyAnswer)) free (orchestrateOperatorService config)
      (fun _ z => Counted config s z.1 z.2.2) y := by
  have hthrow : ∀ (e : String) (z : State α × World α), Fresh s z →
      Counted config s z.1 z.2.2 := fun _ _ hz => fresh_counted hz
  have hpassive : ∀ z : State α × World α, Fresh s z → wp (demonic (logged anyAnswer)) free
      (do let _ ← serviceStart config .passive) (fun _ z => Counted config s z.1 z.2.2) z :=
    fun z hz => wp_mono (demonic_mono _) _ (fun _ _ h => fresh_counted h) z
      (wp_passive_fresh .passive hz)
  have hcall : ∀ {c : Call α}, Preliminary c → ∀ z : State α × World α, Fresh s z →
      wp (demonic (logged anyAnswer)) free (request c) (fun _ z => Fresh s z) z :=
    fun hc z hz => wp_fresh (maintains_call _) (onlyCalls_call hc) z hz
  unfold orchestrateOperatorService
  refine wp_seq (demonic_mono _) _ _ y (hcall (c := .canSendTransactions) trivial y hy) ?_ hthrow
  intro sendTransaction y hy
  split
  · exact hpassive y hy
  refine wp_seq (demonic_mono _) _ _ y (hcall (c := .getBestNumber) trivial y hy) ?_ hthrow
  intro bestNumber y hy
  rw [wp_get_bind]
  split
  · exact hpassive y hy
  have hready : wp (demonic (logged anyAnswer)) free (serviceReadinessManagement config)
      (fun _ z => Fresh s z) y :=
    wp_fresh (maintains_serviceReadinessManagement (fun _ _ h => h) fun _ _ h => h)
      (onlyCalls_serviceReadinessManagement trivial) y hy
  refine wp_seq (demonic_mono _) _ _ y hready ?_ hthrow
  intro serviceReady y hy
  split
  · exact hpassive y hy
  rw [wp_get_bind]
  split
  · exact hpassive y hy
  -- From here on the tick has looked at the leader, or has thrown.
  refine wp_seq (demonic_mono _) _ _ y (wp_leadershipManagement_counted hmode hy) ?_
    fun e z hz => hz.1
  intro leadership y hy
  have hstart : ∀ mode, OnlyCalls (A := api α) NoClaim
      (do let _ ← serviceStart config mode : Method α Unit) := fun mode =>
    onlyCalls_start_drop mode trivial
  have hrest : ∀ {m : Method α Unit}, Maintains (A := api α)
      (fun t => t.noLivenessFromLeader = y.1.noLivenessFromLeader) m →
      OnlyCalls (A := api α) NoClaim m →
      wp (demonic (logged anyAnswer)) free m (fun _ z => Counted config s z.1 z.2.2) y :=
    fun hI hp => wp_mono (demonic_mono _) _ (fun _ _ hz => hz.counted) y
      (wp_checked hI (.inl hp) (hy.2 leadership rfl))
  split
  · exact hrest (maintains_start_drop .passive fun _ h => h) (hstart .passive)
  · refine hrest ?_ ?_
    · refine maintains_bind (maintains_call _) fun currentLeader => ?_
      split
      · exact maintains_start_drop .active fun _ h => h
      · trivial
    · refine onlyCalls_bind (onlyCalls_call trivial) fun currentLeader => ?_
      split
      · exact hstart .active
      · trivial

theorem maintains_forceActive {I : State α → Prop} (hI : ∀ s mode, I s → I (s.inMode mode)) :
    Maintains (A := api α) I (forceActive config) := by
  have hactive : Maintains (A := api α) I (do
      let _ ← serviceStart config .active
      pure true : Method α Bool) :=
    maintains_bind (maintains_serviceStart .active fun s => hI s .active) fun _ => trivial
  unfold forceActive
  split
  · trivial
  refine maintains_bind (maintains_call _) fun currentLeader => ?_
  split
  · exact hactive
  refine maintains_bind (maintains_call _) fun isLeadedGroup => ?_
  refine maintains_bind (maintains_becomeLeader _) fun becomeLeaderResult => ?_
  split
  · refine maintains_bind (maintains_call _) fun currentLeader => ?_
    split
    · exact hactive
    · trivial
  · trivial

theorem orchestrateService_counted {out : Except String Unit} {s' : State α} {log : Log α}
    (h : Runs (logged anyAnswer) (orchestrateService config) (s, ((), [])) out
      (s', ((), log))) : Counted config s s' log := by
  have hfresh : Fresh s (s, (((), []) : World α)) :=
    ⟨rfl, rfl, unread_quiet (by simp)⟩
  have hwp : wp (demonic (logged anyAnswer)) free (orchestrateService config)
      (fun _ z => Counted config s z.1 z.2.2) (s, ((), [])) := by
    by_cases hmode : config.serviceMode = "orchestrator"
    · unfold orchestrateService
      split
      · exact fresh_counted hfresh
      rw [wp_get_bind]
      split
      · exact fresh_counted hfresh
      · exact wp_orchestrateOperatorService_counted hmode hfresh
    · have hkept : Maintains (A := api α)
          (fun t => t.noLivenessFromLeader = s.noLivenessFromLeader)
          (orchestrateService config) := by
        unfold orchestrateService
        split
        · trivial
        refine maintains_get_bind fun t _ => ?_
        split
        · trivial
        split
        · exact maintains_start_drop .passive fun _ h => h
        split
        · exact maintains_bind (maintains_forceActive fun _ _ h => h) fun _ => trivial
        · trivial
      refine wp_mono (demonic_mono _) _ ?_ _ (wp_maintains hkept (s, ((), [])) rfl)
      intro out z hz
      refine counted_idle ?_ hz
      unfold evaluated
      rw [if_neg fun hand => hmode hand.1]
  exact wp_runs hwp h

end Tick

/-! ### Runs of ticks -/

/-- `N` ticks: tick `n` takes the fields `before n` to `after n`, with any
answers. Between two ticks the other methods may change all the fields but the
count, which only the ticks use. -/
structure Ticks (config : Config α) (N : ℕ) (before after : ℕ → State α)
    (out : ℕ → Except String Unit) (log : ℕ → Log α) : Prop where
  init : (before 0).noLivenessFromLeader = 0
  tick : ∀ n, n < N → Runs (logged anyAnswer) (orchestrateService config) (before n, ((), []))
    (out n) (after n, ((), log n))
  keep : ∀ n, n + 1 < N → (before (n + 1)).noLivenessFromLeader = (after n).noLivenessFromLeader

/-- The evaluations of `otherLeaderAction` before tick `n`: whom each was about
and whether it found him silent. -/
def evaluations (config : Config α) (before : ℕ → State α) (log : ℕ → Log α) :
    ℕ → List (Wallet α × Bool)
  | 0 => []
  | n + 1 => evaluations config before log n ++ match evaluated config (log n) with
    | some leader => [(leader, silent (before n).heartbeats leader)]
    | none => []

/-- The tick submits a claim against `leader` because he is silent. -/
structure SilentClaim (config : Config α) (s : State α) (log : Log α) (leader : Wallet α) :
    Prop where
  evaluated : evaluated config log = some leader
  silent : silent s.heartbeats leader = true
  claims : Claims log leader

/-- An evaluation during a count finds the leader of the evaluation before it,
and finds him silent. -/
def Undisturbed (config : Config α) (N : ℕ) (before : ℕ → State α) (log : ℕ → Log α) : Prop :=
  ∀ n, n < N → ∀ leader, evaluated config (log n) = some leader →
    0 < (before n).noLivenessFromLeader → silent (before n).heartbeats leader = true ∧
      (evaluations config before log n).getLast?.map Prod.fst = some leader

section Ticks
variable {config : Config α} {N : ℕ} {before after : ℕ → State α} {out : ℕ → Except String Unit}
  {log : ℕ → Log α}

theorem evaluations_none {n : ℕ} (h : evaluated config (log n) = none) :
    evaluations config before log (n + 1) = evaluations config before log n := by
  simp [evaluations, h]

theorem evaluations_some {n : ℕ} {leader : Wallet α}
    (h : evaluated config (log n) = some leader) :
    evaluations config before log (n + 1) =
      evaluations config before log n ++ [(leader, silent (before n).heartbeats leader)] := by
  simp [evaluations, h]

omit [DecidableEq α] in
theorem last_replicate {earlier : List (Wallet α × Bool)} {count : ℕ} {leader other : Wallet α}
    (hcount : 0 < count) (h : (earlier ++ List.replicate count (leader, true)).getLast?.map
      Prod.fst = some other) : leader = other := by
  rw [List.getLast?_append_of_ne_nil _ (by simp; omega), List.getLast?_replicate,
    if_neg (by omega)] at h
  exact Option.some.inj h

/-- Before each tick of an undisturbed run the last evaluations, as many as the
count says, found one leader silent. -/
theorem count_silent (h : Ticks config N before after out log)
    (hundisturbed : Undisturbed config N before log) (n : ℕ) (hn : n < N) :
    ∃ earlier leader, evaluations config before log n =
      earlier ++ List.replicate (before n).noLivenessFromLeader (leader, true) := by
  induction n with
  | zero =>
    rw [h.init]
    exact ⟨[], .text "", rfl⟩
  | succ n ih =>
    obtain ⟨earlier, leader, hbefore⟩ := ih (by omega)
    have hcounted := orchestrateService_counted (h.tick n (by omega))
    have hnext := h.keep n hn
    cases heval : evaluated config (log n) with
    | none =>
      have hcount := hcounted.idle heval
      refine ⟨earlier, leader, ?_⟩
      rw [hnext, hcount, ← hbefore, evaluations_none heval]
    | some other =>
      cases hsilent : silent (before n).heartbeats other with
      | false =>
        have hcount := hcounted.heard other heval hsilent
        have hzero : (before n).noLivenessFromLeader = 0 := by
          by_contra hpos
          have hfound := (hundisturbed n (by omega) other heval (by omega)).1
          rw [hsilent] at hfound
          cases hfound
        refine ⟨evaluations config before log n ++ [(other, false)], other, ?_⟩
        rw [hnext, hcount, hzero, evaluations_some heval, hsilent]
        simp
      | true =>
        by_cases hlt : (before n).noLivenessFromLeader < config.noLivenessThreshold
        · have hcount := (hcounted.waits other heval hsilent hlt).1
          by_cases hpos : 0 < (before n).noLivenessFromLeader
          · have hlast := (hundisturbed n (by omega) other heval hpos).2
            rw [hbefore] at hlast
            have hsame : leader = other := last_replicate hpos hlast
            refine ⟨earlier, other, ?_⟩
            rw [hnext, hcount, evaluations_some heval, hsilent, hbefore, hsame,
              List.replicate_succ', List.append_assoc]
          · have hzero : (before n).noLivenessFromLeader = 0 := by omega
            refine ⟨evaluations config before log n, other, ?_⟩
            rw [hnext, hcount, hzero, evaluations_some heval, hsilent]
            rfl
        · have hcount := hcounted.gone other heval hsilent (by omega)
          refine ⟨evaluations config before log n ++ [(other, true)], other, ?_⟩
          rw [hnext, hcount, evaluations_some heval, hsilent]
          simp

/-- In an undisturbed run the evaluations just before a claim against a silent
leader, as many as the threshold says, all found that leader silent. -/
theorem silent_claim_counted (h : Ticks config N before after out log)
    (hundisturbed : Undisturbed config N before log) (n : ℕ) (hn : n < N) (leader : Wallet α)
    (hclaim : SilentClaim config (before n) (log n) leader) :
    ∃ earlier, evaluations config before log n =
      earlier ++ List.replicate config.noLivenessThreshold (leader, true) := by
  obtain ⟨earlier, other, hbefore⟩ := count_silent h hundisturbed n hn
  have hcounted := orchestrateService_counted (h.tick n hn)
  have hfull : config.noLivenessThreshold ≤ (before n).noLivenessFromLeader := by
    by_contra hlt
    exact (hcounted.waits leader hclaim.evaluated hclaim.silent (by omega)).2 hclaim.claims
  by_cases hpos : 0 < (before n).noLivenessFromLeader
  · have hlast := (hundisturbed n hn leader hclaim.evaluated hpos).2
    rw [hbefore] at hlast
    have hsame : other = leader := last_replicate hpos hlast
    refine ⟨earlier ++ List.replicate
      ((before n).noLivenessFromLeader - config.noLivenessThreshold) (leader, true), ?_⟩
    rw [hbefore, hsame, List.append_assoc, List.replicate_append_replicate]
    congr 2
    omega
  · have hzero : config.noLivenessThreshold = 0 := by omega
    rw [hzero]
    exact ⟨evaluations config before log n, by simp⟩

end Ticks

/-! ### Two silent leaders in turn -/

/-- A node of a federation of four. -/
def lookoutNode : Config ℕ where
  nodeRole := "operator"
  service := "polkadot"
  serviceMode := "orchestrator"
  nodeKey := 1
  group := 1
  archipelName := "archipel"
  aliveTime := 100
  heartbeatEnabled := true
  orchestrationEnabled := true
  nodesWallets := [.address 1, .address 2, .address 3, .address 4]
  nodes := [(.address 1, "archipel-NODE-1"), (.address 2, "archipel-NODE-2"),
    (.address 3, "archipel-NODE-3"), (.address 4, "archipel-NODE-4")]

/-- The nodes 1 and 4 have sent heartbeats. -/
def lookout (count : ℕ) : State ℕ :=
  { State.init lookoutNode with
    heartbeats := ((Heartbeats.new lookoutNode.nodes).addHeartbeat (.address 1) 1 1 1).addHeartbeat
      (.address 4) 1 1 1
    service := some { mode := some .passive }
    noLivenessFromLeader := count }

/-- The group is led by `leader`, and a claim comes too late. -/
def ledAnswer (leader : ℕ) : (c : Call ℕ) → Except String c.Ret
  | .canSendTransactions => .ok true
  | .getBestNumber => .ok 1
  | .isServiceReadyToStart => .ok true
  | .getLeader _ => .ok (some leader)
  | .isLeadedGroup _ => .ok true
  | .setLeader _ _ => .ok false
  | .start _ => .ok true
  | _ => .error "unavailable"

def ledBy (leader : ℕ) : Script (api ℕ) String (World ℕ) := fun c w =>
  some (ledAnswer leader c, ((), w.2 ++ [⟨c, ledAnswer leader c, ()⟩]))

def lookoutLog (leader : ℕ) (claim : Log ℕ) : Log ℕ :=
  [⟨.canSendTransactions, .ok true, ()⟩, ⟨.getBestNumber, .ok 1, ()⟩,
    ⟨.isServiceReadyToStart, .ok true, ()⟩, ⟨.getLeader 1, .ok (some leader), ()⟩,
    ⟨.isLeadedGroup 1, .ok true, ()⟩] ++ claim ++
    [⟨.start .passive, .ok true, ()⟩]

/-- The log of the tick `n` of six, the first five led by 2. -/
def sixLogs (last : ℕ) (n : ℕ) : Log ℕ :=
  if n < 5 then lookoutLog 2 []
  else lookoutLog last [⟨.setLeader (.address last) 1, .ok false, ()⟩]

theorem ledBy_logged (leader : ℕ) (c : Call ℕ) (w : World ℕ) (r : Except String c.Ret)
    (w' : World ℕ) (h : ledBy leader c w = some (r, w')) : logged anyAnswer c w r w' := by
  cases h
  exact ⟨trivial, rfl⟩

theorem runs_waiting (count : ℕ) (hcount : count < 5) :
    Runs (logged anyAnswer) (orchestrateService lookoutNode) (lookout count, ((), [])) (.ok ())
      (lookout (count + 1), ((), lookoutLog 2 [])) := by
  apply exec_runs (ledBy_logged 2)
  have hcases : count = 0 ∨ count = 1 ∨ count = 2 ∨ count = 3 ∨ count = 4 := by omega
  rcases hcases with rfl | rfl | rfl | rfl | rfl <;> rfl

theorem sixTicks (last : ℕ) (hlast : last = 2 ∨ last = 3) :
    Ticks lookoutNode 6 lookout (fun n => lookout (if n < 5 then n + 1 else 0)) (fun _ => .ok ())
      (sixLogs last) := by
  constructor
  · rfl
  · intro n hn
    by_cases hlt : n < 5
    · have hruns := runs_waiting n hlt
      simpa only [sixLogs, if_pos hlt] using hruns
    · have hn' : n = 5 := by omega
      rw [hn']
      rcases hlast with rfl | rfl
      · exact exec_runs (ledBy_logged 2) _ _ rfl
      · exact exec_runs (ledBy_logged 3) _ _ rfl
  · intro n hn
    have hlt : n < 5 := by omega
    simp only [if_pos hlt]

theorem silent_claim_counted_five : ∃ earlier,
    evaluations lookoutNode lookout (sixLogs 2) 5 =
      earlier ++ List.replicate 5 (.address 2, true) := by
  refine silent_claim_counted (sixTicks 2 (.inl rfl)) ?_ 5 (by decide) (.address 2)
    ⟨rfl, rfl, 1, .ok false, by simp [sixLogs, lookoutLog]⟩
  intro n hn leader hleader hcount
  have hcases : n = 0 ∨ n = 1 ∨ n = 2 ∨ n = 3 ∨ n = 4 ∨ n = 5 := by omega
  rcases hcases with rfl | rfl | rfl | rfl | rfl | rfl <;> cases hleader
  · exact absurd hcount (by decide)
  all_goals exact ⟨rfl, rfl⟩

/-- Node 2 is silent for five checks; when node 3 takes the lead, its first
silent check is followed by a claim. -/
theorem first_check_claims : ¬ ∀ (config : Config ℕ) (N : ℕ) (before after : ℕ → State ℕ)
    (out : ℕ → Except String Unit) (log : ℕ → Log ℕ), Ticks config N before after out log →
    ∀ n, n < N → ∀ leader, SilentClaim config (before n) (log n) leader →
      ∃ earlier, evaluations config before log n =
        earlier ++ List.replicate config.noLivenessThreshold (leader, true) := by
  intro hall
  have hclaim : SilentClaim lookoutNode (lookout 5) (sixLogs 3 5) (.address 3) :=
    ⟨rfl, rfl, 1, .ok false, by simp [sixLogs, lookoutLog]⟩
  obtain ⟨earlier, hevaluations⟩ := hall lookoutNode 6 lookout _ _ (sixLogs 3)
    (sixTicks 3 (.inr rfl)) 5 (by decide) (.address 3) hclaim
  have hlast : (evaluations lookoutNode lookout (sixLogs 3) 5).getLast?.map Prod.fst =
      some (.address 2) := rfl
  rw [hevaluations] at hlast
  have hsame := last_replicate (by decide) hlast
  cases hsame

end Archipel.Orchestrator
