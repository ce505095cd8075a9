import Archipel.Async.Mark
import Archipel.Orchestrator.Rules
import Archipel.Pallet.Leadership
import Mathlib.Data.List.Infix

/-!
# A takeover displaces the leader it looked at

One attempt reads the leader and whether the group is led, and builds a
`set_leader` from the two answers, while other accounts act on the chain. The
world is the history of the chain, the extrinsics executed so far. The claim
may be executed at any later moment, also after the attempt has given up
waiting for it.
-/

namespace Archipel.Orchestrator
open Async
open Pallet (Extrinsic Storage runCalls)
open Polkadot (Mode)

variable {α : Type} [DecidableEq α] [Inhabited α]

/-- The chain as the extrinsics it has executed. -/
abbrev History (α : Type) := List (Extrinsic α)

def History.storage (h : History α) : Storage α := runCalls Storage.empty h

/-- The others change the fields of the object and add to the history. -/
def amidOthers (x y : State α × History α) : Prop := x.2 <+: y.2

omit [DecidableEq α] [Inhabited α] in
theorem amidOthers_read {s : State α} {h : History α} {x z : State α × History α} (hh : h = x.2)
    (hz : amidOthers (s, h) z) : x.2 <+: z.2 := by
  rw [← hh]
  exact hz

/-- The two reads answer what the storage holds, or fail and answer their
sentinel; every other call answers anything. -/
def chainReads : Env (api α) String (History α) := fun c h r h' =>
  match c with
  | .getLeader g => h' = h ∧ (r = .ok (some (h.storage.getLeader g)) ∨ r = .ok none)
  | .isLeadedGroup g => h' = h ∧ (r = .ok (h.storage.getLeadedGroup g) ∨ r = .ok false)
  | _ => h <+: h'

/-- `otherLeaderAction` found the leader dead: no heartbeat and the checks used
up, or a heartbeat older than `aliveTime` at the best number it then read. -/
def FoundDead (config : Config α) (leader : Wallet α)
    (marks : List (Mark (api α) (State α) String (History α))) : Prop :=
  ∃ s marks', marks = .read s :: marks' ∧
    ((∀ v, s.heartbeats.getHeartbeat leader = some v → v.blockNumber = 0) ∧
        config.noLivenessThreshold ≤ s.noLivenessFromLeader ∨
      ∃ v, ∃ n : ℕ, ∃ h, s.heartbeats.getHeartbeat leader = some v ∧ v.blockNumber ≠ 0 ∧
        .call .getBestNumber h (.ok n) ∈ marks' ∧ (n : ℤ) - v.blockNumber > config.aliveTime)

/-- What an attempt has seen when it submits a claim that names `old`: the
answers `currentLeader` and `isLeadedGroup` of its two reads, the histories
they were served at, and the marks after them. -/
structure Looked (config : Config α) (marks : List (Mark (api α) (State α) String (History α)))
    (submitted : History α) (old : Wallet α) where
  currentLeader : Option α
  isLeadedGroup : Bool
  leaderRead : History α
  groupRead : History α
  rest : List (Mark (api α) (State α) String (History α))
  marks_eq : marks = .call (.getLeader config.group) leaderRead (.ok currentLeader) ::
    .call (.isLeadedGroup config.group) groupRead (.ok isLeadedGroup) :: rest
  leader_eq : currentLeader = some (leaderRead.storage.getLeader config.group) ∨
    currentLeader = none
  group_eq : isLeadedGroup = groupRead.storage.getLeadedGroup config.group ∨ isLeadedGroup = false
  leader_group : leaderRead <+: groupRead
  group_submitted : groupRead <+: submitted
  old_eq : old = if isLeadedGroup then leaderText currentLeader else .address config.nodeKey
  leader_ne : isLeadedGroup = true → leaderText currentLeader ≠ .address config.nodeKey

variable {config : Config α} {old : Wallet α} {x y : State α × History α}
  {marks : List (Mark (api α) (State α) String (History α))}

theorem comes_becomeLeader {β : Type} (named : Wallet α) (f : Bool → Method α β)
    (hf : ∀ b, OnlyCalls (A := api α) (· ≠ .setLeader old config.group) (f b))
    (h : Comes amidOthers chainReads (.setLeader old config.group) (becomeLeader config named >>= f)
      x marks y) : named = old ∧ marks = [] ∧ y = x := by
  unfold becomeLeader at h
  rw [bind_assoc] at h
  rcases (comes_call_bind _ _).mp h with ⟨hd, hmarks, hy⟩ | ⟨x', set, w, z, tr, -, -, -, -, hrest⟩
  · cases hd
    exact ⟨rfl, hmarks, hy⟩
  · have hafter : OnlyCalls (A := api α) (· ≠ .setLeader old config.group)
        ((if set then do
            let _ ← request (.setTimeout 10000)
            pure true
          else pure false : Method α Bool) >>= f) := by
      refine onlyCalls_bind ?_ hf
      split
      · exact onlyCalls_bind (onlyCalls_call (by simp)) fun _ => trivial
      · trivial
    exact absurd hrest (onlyCalls_not_comes hafter)

theorem comes_otherLeaderAction (leader : Wallet α)
    (h : Comes amidOthers chainReads (.setLeader old config.group)
      (otherLeaderAction config leader) x marks y) :
    leader = old ∧ FoundDead config leader marks ∧ x.2 <+: y.2 := by
  have hbecome : ∀ x marks, Comes amidOthers chainReads (.setLeader old config.group)
      (becomeLeader config leader) x marks y → leader = old ∧ marks = [] ∧ y = x := by
    intro x marks h
    rw [← bind_pure (becomeLeader config leader)] at h
    exact comes_becomeLeader leader pure (fun _ => trivial) h
  obtain ⟨marks', hmarks, h⟩ := (comes_get_bind _).mp h
  dsimp only at h
  cases hfilter : (x.1.heartbeats.getHeartbeat leader).filter
      fun heartbeat => heartbeat.blockNumber ≠ 0 with
  | none =>
    have hsilent : ∀ v, x.1.heartbeats.getHeartbeat leader = some v → v.blockNumber = 0 := by
      intro v hv
      rw [hv] at hfilter
      simpa [Option.filter] using hfilter
    rw [hfilter] at h
    dsimp only at h
    by_cases hchecks : (config.noLivenessThreshold : ℤ) - x.1.noLivenessFromLeader > 0
    · rw [if_pos hchecks] at h
      obtain ⟨tr, -, h⟩ := (comes_modify_bind _ _).mp h
      exact h.elim
    · rw [if_neg hchecks] at h
      obtain ⟨tr, -, h⟩ := (comes_modify_bind _ _).mp h
      obtain ⟨hold, -, hy⟩ := hbecome _ _ h
      rw [hy]
      exact ⟨hold, ⟨x.1, marks', hmarks, .inl ⟨hsilent, by omega⟩⟩, List.prefix_rfl⟩
  | some v =>
    obtain ⟨hv, hne⟩ := Option.filter_eq_some_iff.mp hfilter
    rw [hfilter] at h
    rcases (comes_call_bind _ _).mp h with ⟨hd, -, -⟩ | ⟨x', n, w, z, tr, hx, hr, hz, htr, h⟩
    · cases hd
    · by_cases hold : (n : ℤ) - v.blockNumber > config.aliveTime
      · rw [if_pos hold] at h
        obtain ⟨heq, -, hy⟩ := hbecome _ _ h
        refine ⟨heq, ⟨x.1, marks', hmarks, .inr ⟨v, n, x'.2, hv, by simpa using hne, ?_, hold⟩⟩, ?_⟩
        · rw [htr]
          exact List.mem_cons_self ..
        · rw [hy]
          exact (hx.trans hr).trans hz
      · rw [if_neg hold] at h
        exact h.elim

theorem comes_leadershipManagement
    (h : Comes amidOthers chainReads (.setLeader old config.group) (leadershipManagement config)
      x marks y) :
    ∃ l : Looked config marks y.2 old, l.isLeadedGroup = true → FoundDead config old l.rest := by
  rcases (comes_call_bind _ _).mp h with ⟨hd, -, -⟩ | ⟨x₁, cur, w₁, z₁, tr₁, hx₁, hr₁, hz₁, htr₁, h⟩
  · cases hd
  rcases (comes_call_bind _ _).mp h with ⟨hd, -, -⟩ | ⟨x₂, led, w₂, z₂, tr₂, hx₂, hr₂, hz₂, htr₂, h⟩
  · cases hd
  obtain ⟨hw₁, hleader⟩ := hr₁
  obtain ⟨hw₂, hgroup⟩ := hr₂
  dsimp only at h
  have hmarks : marks = .call (.getLeader config.group) x₁.2 (.ok cur) ::
      .call (.isLeadedGroup config.group) x₂.2 (.ok led) :: tr₂ := by
    rw [htr₁, htr₂]
  have horder : x₁.2 <+: x₂.2 := (amidOthers_read hw₁ hz₁).trans hx₂
  have hrest : x₂.2 <+: z₂.2 := amidOthers_read hw₂ hz₂
  cases led with
  | false =>
    rw [if_pos rfl, ← bind_pure (becomeLeader config _)] at h
    obtain ⟨hold, -, hy⟩ := comes_becomeLeader _ pure (fun _ => trivial) h
    rw [hy]
    exact ⟨⟨cur, false, x₁.2, x₂.2, tr₂, hmarks, hleader.imp Except.ok.inj Except.ok.inj,
      hgroup.imp Except.ok.inj Except.ok.inj, horder, hrest, hold.symm, (by simp)⟩, (by simp)⟩
  | true =>
    rw [if_neg (by decide)] at h
    by_cases hself : leaderText cur = .address config.nodeKey
    · rw [if_pos hself] at h
      exact h.elim
    · rw [if_neg hself] at h
      obtain ⟨hold, hdead, hy⟩ := comes_otherLeaderAction _ h
      rw [← hold]
      exact ⟨⟨cur, true, x₁.2, x₂.2, tr₂, hmarks, hleader.imp Except.ok.inj Except.ok.inj,
        hgroup.imp Except.ok.inj Except.ok.inj, horder, hrest.trans hy, rfl,
        fun _ => hself⟩, fun _ => hdead⟩

theorem comes_forceActive
    (h : Comes amidOthers chainReads (.setLeader old config.group) (forceActive config) x marks y) :
    Nonempty (Looked config marks y.2 old) := by
  have hactive : OnlyCalls (A := api α) (· ≠ .setLeader old config.group)
      (do
        let _ ← serviceStart config .active
        pure true : Method α Bool) :=
    onlyCalls_bind (onlyCalls_serviceStart .active (by simp)) fun _ => trivial
  unfold forceActive at h
  by_cases hrole : config.nodeRole = "noservice"
  · rw [if_pos hrole] at h
    exact h.elim
  rw [if_neg hrole] at h
  rcases (comes_call_bind _ _).mp h with ⟨hd, -, -⟩ | ⟨x₁, cur, w₁, z₁, tr₁, hx₁, hr₁, hz₁, htr₁, h⟩
  · cases hd
  by_cases hself : leaderText cur = .address config.nodeKey
  · rw [if_pos hself] at h
    exact absurd h (onlyCalls_not_comes hactive)
  rw [if_neg hself] at h
  rcases (comes_call_bind _ _).mp h with ⟨hd, -, -⟩ | ⟨x₂, led, w₂, z₂, tr₂, hx₂, hr₂, hz₂, htr₂, h⟩
  · cases hd
  obtain ⟨hw₁, hleader⟩ := hr₁
  obtain ⟨hw₂, hgroup⟩ := hr₂
  have horder : x₁.2 <+: x₂.2 := (amidOthers_read hw₁ hz₁).trans hx₂
  have hrest : x₂.2 <+: z₂.2 := amidOthers_read hw₂ hz₂
  have hafter : ∀ b : Bool, OnlyCalls (A := api α) (· ≠ .setLeader old config.group)
      (if b then do
          let currentLeader : Option α ← request (.getLeader config.group)
          if leaderText currentLeader = Wallet.address config.nodeKey then do
            let _ ← serviceStart config .active
            pure true
          else pure false
        else pure false : Method α Bool) := by
    intro b
    split
    · refine onlyCalls_bind (onlyCalls_call (by simp)) fun currentLeader => ?_
      split
      · exact hactive
      · trivial
    · trivial
  obtain ⟨hold, -, hy⟩ := comes_becomeLeader _ _ hafter h
  rw [hy]
  exact ⟨cur, led, x₁.2, x₂.2, tr₂, by rw [htr₁, htr₂], hleader.imp Except.ok.inj Except.ok.inj,
    hgroup.imp Except.ok.inj Except.ok.inj, horder, hrest, hold.symm, fun _ => hself⟩

theorem storage_leaders_frame (h xs : History α) (g : UInt32)
    (hxs : ∀ x ∈ xs, x.call.leads g = false) :
    (History.storage (h ++ xs)).leaders g = h.storage.leaders g := by
  unfold History.storage
  rw [Pallet.runCalls_append]
  exact Pallet.runCalls_leaders_frame xs _ g hxs

theorem storage_consistent (h : History α) : h.storage.Consistent :=
  Pallet.runCalls_consistent h Pallet.empty_consistent

theorem looked_displaces {submitted : History α} {named : α}
    (l : Looked config marks submitted (.address named)) (s : Storage α) (now : ℕ) (leader : α)
    (hled : s.leaders config.group = some leader)
    (hok : ((⟨now, .signed config.nodeKey, .setLeader named config.group⟩ : Extrinsic α).execute
      s).1 = .ok ()) :
    l.isLeadedGroup = true ∧ l.currentLeader = some leader ∧ named = leader ∧
      leader ≠ config.nodeKey := by
  obtain ⟨hne, hnamed, -⟩ := Pallet.setLeader_ok now config.nodeKey named config.group s leader
    hled hok
  have hold := l.old_eq
  cases hgroup : l.isLeadedGroup with
  | false =>
    rw [hgroup, if_neg (by decide)] at hold
    cases hold
    exact absurd hnamed hne
  | true =>
    rw [hgroup, if_pos rfl] at hold
    cases hcur : l.currentLeader with
    | none =>
      rw [hcur] at hold
      cases hold
    | some read =>
      rw [hcur] at hold
      cases hold
      rw [hnamed]
      exact ⟨rfl, rfl, rfl, hne.symm⟩

theorem looked_succeeds {submitted : History α} {named : α}
    (l : Looked config marks submitted (.address named)) (hleader : l.currentLeader ≠ none)
    (hgroup : l.isLeadedGroup = l.groupRead.storage.getLeadedGroup config.group)
    (xs : List (Extrinsic α)) (hlater : submitted <+: l.leaderRead ++ xs)
    (hxs : ∀ x ∈ xs, x.call.leads config.group = false) (now : ℕ) :
    ((⟨now, .signed config.nodeKey, .setLeader named config.group⟩ : Extrinsic α).execute
      (History.storage (l.leaderRead ++ xs))).1 = .ok () := by
  have hread : l.currentLeader = some (l.leaderRead.storage.getLeader config.group) :=
    l.leader_eq.resolve_right hleader
  have hsame : l.groupRead.storage.leaders config.group =
      l.leaderRead.storage.leaders config.group := by
    obtain ⟨ys, hys⟩ := l.leader_group
    have hsub : ys <+: xs := by
      have hpre := l.group_submitted.trans hlater
      rw [← hys] at hpre
      exact (List.prefix_append_right_inj _).mp hpre
    rw [← hys]
    exact storage_leaders_frame _ ys _ fun x hx => hxs x (hsub.mem hx)
  have hexec := storage_leaders_frame l.leaderRead xs config.group hxs
  have hold := l.old_eq
  rw [hgroup, storage_consistent l.groupRead config.group, hsame] at hold
  rw [Pallet.execute_setLeader_signed, hexec]
  cases hl : l.leaderRead.storage.leaders config.group with
  | none => rfl
  | some leader =>
    have hget : l.leaderRead.storage.getLeader config.group = leader := by
      unfold Storage.getLeader
      rw [hl]
      rfl
    have hled : l.isLeadedGroup = true := by
      rw [hgroup, storage_consistent l.groupRead config.group, hsame, hl]
      rfl
    rw [hl, if_pos (by rfl), hread, hget] at hold
    have hne := l.leader_ne hled
    rw [hread, hget] at hne
    cases hold
    have hkey : config.nodeKey ≠ named := fun h => hne (by rw [h]; rfl)
    simp only [if_neg hkey, if_true]

/-- A claim that an attempt submits displaces nobody but the leader that the
attempt looked at, and in orchestrator mode found dead; and it does succeed
when both reads did and no leadership call came in between. -/
theorem takeover_displaces_observed_leader (attempt : Method α Bool)
    (hattempt : attempt = leadershipManagement config ∨ attempt = forceActive config) (named : α)
    (h : Comes amidOthers chainReads (.setLeader (.address named) config.group) attempt x marks y) :
    ∃ l : Looked config marks y.2 (.address named),
      (∀ (later : History α) (now : ℕ) (leader : α), y.2 <+: later →
        later.storage.leaders config.group = some leader →
        ((⟨now, .signed config.nodeKey, .setLeader named config.group⟩ : Extrinsic α).execute
          later.storage).1 = .ok () →
        l.currentLeader = some leader ∧ named = leader ∧ leader ≠ config.nodeKey ∧
          (attempt = leadershipManagement config → FoundDead config (.address leader) l.rest)) ∧
      (∀ (xs : List (Extrinsic α)) (now : ℕ), y.2 <+: l.leaderRead ++ xs →
        l.currentLeader ≠ none →
        l.isLeadedGroup = l.groupRead.storage.getLeadedGroup config.group →
        (∀ x ∈ xs, x.call.leads config.group = false) →
        ((⟨now, .signed config.nodeKey, .setLeader named config.group⟩ : Extrinsic α).execute
          (History.storage (l.leaderRead ++ xs))).1 = .ok ()) := by
  have hlooked : ∃ l : Looked config marks y.2 (.address named),
      attempt = leadershipManagement config → l.isLeadedGroup = true →
        FoundDead config (.address named) l.rest := by
    rcases hattempt with heq | heq
    · rw [heq] at h
      obtain ⟨l, hdead⟩ := comes_leadershipManagement h
      exact ⟨l, fun _ => hdead⟩
    · by_cases hboth : attempt = leadershipManagement config
      · rw [hboth] at h
        obtain ⟨l, hdead⟩ := comes_leadershipManagement h
        exact ⟨l, fun _ => hdead⟩
      · rw [heq] at h
        obtain ⟨l⟩ := comes_forceActive h
        exact ⟨l, fun hm => absurd hm hboth⟩
  obtain ⟨l, hdead⟩ := hlooked
  refine ⟨l, ?_, ?_⟩
  · intro later now leader _ hled hok
    obtain ⟨hgroup, hcur, hnamed, hne⟩ := looked_displaces l later.storage now leader hled hok
    refine ⟨hcur, hnamed, hne, fun hm => ?_⟩
    rw [← hnamed]
    exact hdead hm hgroup
  · intro xs now hlater hcur hgroup hxs
    exact looked_succeeds l hcur hgroup xs hlater hxs now

theorem takeover_displaces_observed_leader_claim :
    let history : History ℕ := [⟨1, .signed 2, .setLeader 2 1⟩]
    let s := { State.init (plainNode 1) with
      heartbeats := (State.init (plainNode 1)).heartbeats.addHeartbeat (.address 2) 1 1 5 }
    let marks : List (Mark (api ℕ) (State ℕ) String (History ℕ)) :=
      [.call (.getLeader 1) history (.ok (some 2)), .call (.isLeadedGroup 1) history (.ok true),
        .read s, .call .getBestNumber history (.ok (120 : ℕ))]
    ∃ l : Looked (plainNode 1) marks history (.address 2),
      ∀ (later : History ℕ) (now leader : ℕ), history <+: later →
        later.storage.leaders 1 = some leader →
        ((⟨now, .signed 1, .setLeader 2 1⟩ : Extrinsic ℕ).execute later.storage).1 = .ok () →
        l.currentLeader = some leader ∧ FoundDead (plainNode 1) (.address leader) l.rest := by
  intro history s marks
  have h : Comes amidOthers chainReads (.setLeader (.address 2) 1)
      (leadershipManagement (plainNode 1)) (s, history) marks (s, history) := by
    refine .inr ⟨(s, history), .ok (some 2), history, (s, history), _, List.prefix_rfl,
      ⟨rfl, .inl rfl⟩, List.prefix_rfl, rfl, ?_⟩
    refine .inr ⟨(s, history), .ok true, history, (s, history), _, List.prefix_rfl,
      ⟨rfl, .inl rfl⟩, List.prefix_rfl, rfl, ?_⟩
    refine ⟨_, rfl, .inr ⟨(s, history), .ok (120 : ℕ), history, (s, history), _, List.prefix_rfl,
      List.prefix_rfl, List.prefix_rfl, rfl, ?_⟩⟩
    exact .inl ⟨rfl, rfl, rfl⟩
  obtain ⟨l, hdisplaces, -⟩ := takeover_displaces_observed_leader
    (leadershipManagement (plainNode 1)) (.inl rfl) 2 h
  refine ⟨l, fun later now leader hlater hled hok => ?_⟩
  obtain ⟨hcur, -, -, hdead⟩ := hdisplaces later now leader hlater hled hok
  exact ⟨hcur, hdead rfl⟩

end Archipel.Orchestrator
