import Archipel.Federation.Healthy

/-!
# Failover

When the leader of a group has fallen silent, the ticks of one node whose
collaborators work are enough: after as many as it has checks left, and one
more, a node that is still there leads the group. In a group with a steady
leader the ticks of the others leave one validator container.
-/

namespace Archipel.Federation
open Async
open Pallet (Storage Extrinsic)

variable {ι α : Type} [DecidableEq α] [Inhabited α] [DecidableEq ι]

/-! ### What every act keeps -/

section Invariants
variable {F : Operators ι α} {E : Serving ι α} {f f' : State ι α}

theorem happens_advances (hE : E.Within F) {act : Act ι α} (h : Happens F E f f' act) :
    f.pallet.Advances f'.pallet := by
  have h := happens_mono hE h
  cases act with
  | extrinsic x =>
    obtain ⟨-, rfl⟩ := h
    exact .execute _ x
  | block | crash i id =>
    cases h
    exact .refl _
  | subscribe i =>
    obtain ⟨-, rfl⟩ := h
    exact .refl _
  | restart i =>
    obtain ⟨connected, chain, pallet, out, s, w, -, hrun, rfl⟩ := h
    exact runs_advances hrun
  | entry i e =>
    obtain ⟨out, s, w, -, hrun, rfl⟩ := h
    exact runs_advances hrun
  | deliver i =>
    obtain ⟨event, out, s, w, -, -, hrun, rfl⟩ := h
    exact runs_advances hrun

/-- Nodes other than those that an act is about stay as they are. -/
def Act.about (i : ι) : Act ι α → Prop
  | .crash j _ => j = i
  | .restart j => j = i
  | .subscribe j => j = i
  | .entry j _ => j = i
  | .deliver j => j = i
  | _ => False

omit [DecidableEq α] [Inhabited α] in
theorem nodes_setNode_ne (f : State ι α) {i j : ι} (node : Node α) (h : j ≠ i) :
    (f.setNode j node).nodes i = f.nodes i := Function.update_of_ne h.symm ..

omit [DecidableEq α] [Inhabited α] in
theorem nodes_setNode_self (f : State ι α) (i : ι) (node : Node α) :
    (f.setNode i node).nodes i = node := Function.update_self ..

omit [DecidableEq α] [Inhabited α] in
theorem nodes_leave_self (f : State ι α) (i : ι) (phase : Phase) (delivered : ℕ)
    (s : Orchestrator.State α) (w : World α) : (f.leave i phase delivered s w).nodes i =
      ⟨phase, s, w.chain, w.polkadot, w.host, delivered⟩ := nodes_setNode_self ..

theorem happens_elsewhere {act : Act ι α} {i : ι} (h : Happens F E f f' act)
    (hact : ¬ act.about i) : f'.nodes i = f.nodes i := by
  cases act with
  | extrinsic x =>
    obtain ⟨-, rfl⟩ := h
    rfl
  | block =>
    cases h
    rfl
  | crash j id =>
    cases h
    exact nodes_setNode_ne _ _ hact
  | restart j =>
    obtain ⟨connected, chain, pallet, out, s, w, -, -, rfl⟩ := h
    exact nodes_setNode_ne _ _ hact
  | subscribe j =>
    obtain ⟨-, rfl⟩ := h
    exact nodes_setNode_ne _ _ hact
  | entry j e =>
    obtain ⟨out, s, w, -, -, rfl⟩ := h
    exact nodes_setNode_ne _ _ hact
  | deliver j =>
    obtain ⟨event, out, s, w, -, -, -, rfl⟩ := h
    exact nodes_setNode_ne _ _ hact

end Invariants

section Federation
variable {F : Operators ι α} {f f' : State ι α} {g : UInt32} {members : ι → Prop} {i : ι}

/-! ### A silent leader is replaced -/

/-- The collaborators of the chosen nodes work, those of the others as they may. -/
def attended (F : Operators ι α) (well : ι → Bool) : Serving ι α := fun i =>
  if well i then wellServe (F.config i) (F.service i) else F.serving i

omit [DecidableEq ι] in
theorem attended_within (F : Operators ι α) (well : ι → Bool) : (attended F well).Within F := by
  intro i c w r w' h
  unfold attended at h
  split at h
  · exact wellServe_serve h
  · exact h

/-- One of the members leads the group. -/
def LedBy (F : Operators ι α) (g : UInt32) (members : ι → Prop) (f : State ι α) : Prop :=
  ∃ j, members j ∧ (F.config j).group = g ∧ f.pallet.leaders g = some (F.config j).nodeKey

/-- A tick of the node finds what it needs, and no leader that it hears. -/
def Acts (F : Operators ι α) (f : State ι α) (i : ι) : Prop :=
  Ready (F.config i) (f.nodes i).orchestrator (f.world i) ∧
    Absent (F.config i) (f.nodes i).orchestrator (f.world i)

/-- An act of somebody who is no member of the group. -/
def Act.foreign (members : ι → Prop) : Act ι α → Prop
  | .extrinsic _ => True
  | .entry j _ => ¬ members j
  | _ => False

/-- What happens, where nobody but the members takes the leadership of the group. -/
def Reserved (F : Operators ι α) (E : Serving ι α) (g : UInt32) (members : ι → Prop)
    (f f' : State ι α) (act : Act ι α) : Prop :=
  Happens F E f f' act ∧
    (act.foreign members → f'.pallet.leaders g = f.pallet.leaders g ∨ LedBy F g members f')

/-- The node does not restart, and as long as no member leads it is ready at its
ticks and does not hear the leader. -/
def Awaits (F : Operators ι α) (g : UInt32) (members : ι → Prop) (i : ι) (f : State ι α) :
    Act ι α → Prop
  | .restart j => j ≠ i
  | .entry j e => j = i → e = .tick → ¬ LedBy F g members f → Acts F f i
  | _ => True

def Act.isTick (i : ι) : Act ι α → Bool
  | .entry j .tick => decide (j = i)
  | _ => false

/-- The checks of a silent leader that the node has left. -/
def checksLeft (F : Operators ι α) (i : ι) (f : State ι α) : ℕ :=
  (F.config i).noLivenessThreshold - (f.nodes i).orchestrator.noLivenessFromLeader

theorem tick_subscribed {phase : Phase} (h : Entry.tick.admitted phase) : phase = .subscribed := by
  cases phase with
  | subscribed => rfl
  | booted => exact absurd rfl h
  | stopped => exact h.elim

/-- Whoever changes the leader of the group makes a member lead. -/
theorem leaders_step {E : Serving ι α} (hE : E.Within F) {act : Act ι α}
    (h : Reserved F E g members f f' act) :
    f'.pallet.leaders g = f.pallet.leaders g ∨ LedBy F g members f' := by
  by_cases hforeign : act.foreign members
  · exact h.2 hforeign
  by_cases hno : act.leads F g
  · cases act with
    | extrinsic x => exact absurd trivial hforeign
    | entry k e =>
      obtain ⟨hk, -⟩ := hno
      rcases happens_own hE h.1 with hsame | hown
      · rw [hk] at hsame
        exact .inl hsame
      · rw [hk] at hown
        exact .inr ⟨k, not_not.mp hforeign, hk, hown⟩
    | block | crash k id | restart k | subscribe k | deliver k => exact hno.elim
  · exact .inl (happens_leaders hE hno h.1)

theorem ledBy_step {E : Serving ι α} (hE : E.Within F) {act : Act ι α}
    (hf : LedBy F g members f) (h : Reserved F E g members f f' act) : LedBy F g members f' := by
  obtain ⟨j, hj, hgroup, hleads⟩ := hf
  rcases leaders_step hE h with hsame | hled
  · exact ⟨j, hj, hgroup, hsame.trans hleads⟩
  · exact hled

abbrev CountIs (n : ℕ) (s : Orchestrator.State α) : Prop := s.noLivenessFromLeader = n

/-- The counter of the node changes at its ticks and at its restart only. -/
theorem counter_kept {E : Serving ι α} {act : Act ι α} (h : Happens F E f f' act)
    (htick : act.isTick i = false) (hrestart : ∀ j, act = .restart j → j ≠ i) :
    (f'.nodes i).orchestrator.noLivenessFromLeader =
      (f.nodes i).orchestrator.noLivenessFromLeader := by
  by_cases habout : act.about i
  · cases act with
    | extrinsic x | block => exact habout.elim
    | crash j id =>
      cases h
      cases habout
      rw [nodes_setNode_self]
    | restart j => exact absurd habout (hrestart j rfl)
    | subscribe j =>
      obtain ⟨-, rfl⟩ := h
      cases habout
      rw [nodes_setNode_self]
    | entry j e =>
      obtain ⟨out, s, w, -, hrun, rfl⟩ := h
      cases habout
      have he : e ≠ .tick := by
        rintro rfl
        simp [Act.isTick] at htick
      have hcount := wp_runs (wp_maintains (maintains_entry (I := CountIs _) e (fun _ _ h => h)
        (fun _ _ h => h) (fun _ _ h => h) fun htick => absurd htick he) _ rfl) hrun
      rw [nodes_leave_self]
      exact hcount
    | deliver j =>
      obtain ⟨event, out, s, w, -, -, hrun, rfl⟩ := h
      cases habout
      have hcount := wp_runs (wp_maintains (maintains_onEvent (I := CountIs _) event
        (fun _ _ h => h) fun _ _ h => h) _ rfl) hrun
      rw [nodes_leave_self]
      exact hcount
  · rw [happens_elsewhere h habout]

/-- A tick of the ready node elects it, or takes one of its checks. -/
theorem tick_elects {well : ι → Bool} (hi : members i) (hwell : well i = true)
    (hgroup : (F.config i).group = g) (hf : Sane F f) (hacts : Acts F f i)
    (h : Happens F (attended F well) f f' (.entry i .tick)) :
    LedBy F g members f' ∨ checksLeft F i f' < checksLeft F i f := by
  subst hgroup
  obtain ⟨out, s, w, hphase, hrun, rfl⟩ := h
  have hphase := tick_subscribed hphase
  have hserve : attended F well i = wellServe (F.config i) (F.service i) := if_pos hwell
  rw [hserve] at hrun
  have hnode := hf.nodes i
  obtain ⟨object, hobject⟩ := Option.isSome_iff_exists.mp
    (hnode.hasService (by rw [hphase]; decide))
  have htick := wp_runs (wp_tick_well (F.operator i) hobject hacts.1 hf.consistent hacts.2
    hnode.exclusive) hrun
  rcases htick with hserves | hwaiting
  · exact .inl ⟨i, hi, rfl, hserves.leads⟩
  · right
    have hcounted : s.noLivenessFromLeader =
      (f.nodes i).orchestrator.noLivenessFromLeader + 1 := hwaiting.counted
    have hbelow : (f.nodes i).orchestrator.noLivenessFromLeader <
      (F.config i).noLivenessThreshold := hwaiting.below
    unfold checksLeft
    rw [nodes_leave_self]
    dsimp only
    omega

/-- Every tick of the waiting member takes one of its checks or elects it, and
nothing between its ticks undoes either. -/
theorem ledBy_reached {acts : List (Act ι α)} (hf : Sane F f) (hi : members i)
    (hgroup : (F.config i).group = g) {well : ι → Bool} (hwell : well i = true)
    (h : Course (Reserved F (attended F well) g members) (Awaits F g members i) f acts f')
    (hticks : checksLeft F i f < acts.countP (Act.isTick i)) : LedBy F g members f' := by
  have hE := attended_within F well
  have hsane := h.within (I := Sane F)
    (fun s s' act hs hact _ => sane_step hs (happens_step hE hact.1)) hf
  refine hsane.reaches (checksLeft F i) (Act.isTick i) ?_ ?_ hticks
  · intro s s' act hs hact hadmits
    exact ledBy_step hE hs hact
  · intro s s' act hs hact hadmits
    cases htick : Act.isTick i act with
    | false =>
      right
      have hrestart : ∀ j, act = .restart j → j ≠ i := by
        rintro j rfl
        exact hadmits.1
      have hkept := counter_kept hact.1 htick hrestart
      unfold checksLeft
      rw [hkept]
      exact ⟨le_refl _, fun h => nomatch h⟩
    | true =>
      cases act with
      | entry j e =>
        cases e with
        | tick =>
          have hj : j = i := by simpa [Act.isTick] using htick
          subst hj
          have hacts := hadmits.1 rfl rfl hs
          rcases tick_elects hi hwell hgroup hadmits.2 hacts hact.1 with hled | hlt
          · exact .inl hled
          · exact .inr ⟨hlt.le, fun _ => hlt⟩
        | _ => cases htick
      | _ => cases htick

/-- In a group where nobody but the members takes the leadership a member leads
once one of them, whose collaborators work, has ticked more often than it has
checks left without hearing the leader. -/
theorem silent_leader_replaced {acts : List (Act ι α)} (hf : Reachable F f) (hi : members i)
    (hgroup : (F.config i).group = g) (well : ι → Bool) (hwell : well i = true)
    (h : Course (Reserved F (attended F well) g members) (Awaits F g members i) f acts f')
    (hticks : checksLeft F i f < acts.countP (Act.isTick i)) : LedBy F g members f' :=
  ledBy_reached (sane_reachable hf) hi hgroup hwell h hticks

/-! ### The ticks of a group leave one validator container -/

/-- The leader is heard at the ticks of the other members, and its own ticks
find what they need. -/
def Steady (F : Operators ι α) (members : ι → Prop) (l : ι) (f : State ι α) (act : Act ι α) :
    Prop :=
  Undisturbed F (F.config l).group (F.config l).nodeKey f act ∧
    match act with
    | .entry j .tick => members j → (F.config j).serviceMode = "orchestrator" ∧
      (f.nodes j).orchestrator.orchestrationEnabled = true ∧
      (j = l → Ready (F.config l) (f.nodes l).orchestrator (f.world l))
    | _ => True

/-- The node leads its group in a sane federation. -/
structure Led (F : Operators ι α) (l : ι) (f : State ι α) : Prop where
  sane : Sane F f
  leads : f.pallet.leaders (F.config l).group = some (F.config l).nodeKey

theorem led_step {E : Serving ι α} (hE : E.Within F) {l : ι} {act : Act ι α} (hf : Led F l f)
    (h : Happens F E f f' act) (hact : Steady F members l f act) : Led F l f' :=
  ⟨sane_step hf.sane (happens_step hE h), undisturbed_step hE hf.leads h hact.1⟩

abbrev Idle (F : Operators ι α) (j : ι) (f : State ι α) : Prop :=
  ¬ (f.nodes j).host.Running (F.service j).validatorName

/-- A tick that hears the leader is followed by passive mode. -/
theorem tick_idle {well : ι → Bool} {l j : ι} (hwell : well j = true) (hj : members j)
    (hgroup : (F.config j).group = (F.config l).group) (hne : j ≠ l) (hf : Led F l f)
    (h : Happens F (attended F well) f f' (.entry j .tick))
    (hact : Steady F members l f (.entry j .tick)) : Idle F j f' := by
  have hkey : (F.config j).nodeKey ≠ (F.config l).nodeKey := fun heq => hne (F.accounts j l heq)
  obtain ⟨hmode, horch, -⟩ := hact.2 hj
  obtain ⟨-, -, hheard⟩ := hact.1 hgroup hkey (.inl rfl)
  obtain ⟨out, s, w, hphase, hrun, rfl⟩ := h
  have hserve : attended F well j = wellServe (F.config j) (F.service j) := if_pos hwell
  rw [hserve] at hrun
  have hsub := tick_subscribed hphase
  have hnode := hf.sane.nodes j
  obtain ⟨object, hobject⟩ := Option.isSome_iff_exists.mp
    (hnode.hasService (by rw [hsub]; decide))
  have hled : f.pallet.getLeadedGroup (F.config j).group = true := by
    rw [hf.sane.consistent, hgroup, hf.leads]
    rfl
  have hfollows : Follows (F.config j) (F.config l).nodeKey
      ((f.nodes j).orchestrator, f.world j) :=
    ⟨hkey, by rw [hgroup]; exact hf.leads, hled, hheard⟩
  have hidle := wp_runs (wp_tick_follows (F.operator j) hobject hmode horch hfollows
    hnode.exclusive) hrun
  rw [Idle, nodes_leave_self]
  exact hidle

theorem restart_idle {E : Serving ι α} {j : ι} (h : Happens F E f f' (.restart j)) :
    Idle F j f' := by
  obtain ⟨connected, chain, pallet, out, s, w, -, hrun, rfl⟩ := h
  rw [Idle, nodes_leave_self]
  exact wp_runs (wp_bootstrapOrchestrator (F.operator j) rfl) hrun

/-- Nothing else starts the validator container of a node that does not lead. -/
theorem idle_step {well : ι → Bool} {l j : ι} (hwell : well j = true) (hj : members j)
    (hgroup : (F.config j).group = (F.config l).group) (hne : j ≠ l) (hf : Led F l f)
    (hidle : Idle F j f) {act : Act ι α} (h : Happens F (attended F well) f f' act)
    (hact : Steady F members l f act) : Idle F j f' := by
  by_cases habout : act.about j
  · cases act with
    | extrinsic x | block => exact habout.elim
    | crash k id =>
      cases h
      cases habout
      rw [Idle, nodes_setNode_self]
      exact fun hrun => hidle (crash_running hrun)
    | restart k =>
      cases habout
      exact restart_idle h
    | subscribe k =>
      obtain ⟨-, rfl⟩ := h
      cases habout
      rw [Idle, nodes_setNode_self]
      exact hidle
    | entry k e =>
      cases habout
      by_cases hclaims : e.claims
      · have hkey : (F.config j).nodeKey ≠ (F.config l).nodeKey := fun heq =>
          hne (F.accounts j l heq)
        obtain ⟨rfl, -⟩ := hact.1 hgroup hkey hclaims
        exact tick_idle hwell hj hgroup hne hf h hact
      · obtain ⟨out, s, w, -, hrun, rfl⟩ := h
        have hrun := runs_mono (attended_within F well j) hrun
        rw [Idle, nodes_leave_self]
        exact wp_runs (wp_idle (onlyCalls_unclaiming hclaims) hidle) hrun
    | deliver k =>
      obtain ⟨event, out, s, w, -, -, hrun, rfl⟩ := h
      cases habout
      have hrun := runs_mono (attended_within F well j) hrun
      rw [Idle, nodes_leave_self]
      exact wp_runs (wp_idle (onlyCalls_onEvent event (by simp)) hidle) hrun
  · rw [Idle, happens_elsewhere h habout]
    exact hidle

/-- A tick of the ready leader leaves its validator container running. -/
theorem leader_tick_serves {well : ι → Bool} {l : ι} (hwell : well l = true) (hl : members l)
    (hf : Led F l f) (h : Happens F (attended F well) f f' (.entry l .tick))
    (hact : Steady F members l f (.entry l .tick)) :
    (f'.nodes l).host.Running (F.service l).validatorName := by
  obtain ⟨-, -, hready⟩ := hact.2 hl
  obtain ⟨out, s, w, hphase, hrun, rfl⟩ := h
  have hserve : attended F well l = wellServe (F.config l) (F.service l) := if_pos hwell
  rw [hserve] at hrun
  have hsub := tick_subscribed hphase
  have hnode := hf.sane.nodes l
  obtain ⟨object, hobject⟩ := Option.isSome_iff_exists.mp
    (hnode.hasService (by rw [hsub]; decide))
  have habsent : Absent (F.config l) (f.nodes l).orchestrator (f.world l) := by
    intro leader hleader hne
    exact absurd (Option.some.inj (hleader.symm.trans hf.leads)) hne
  have hresult := wp_runs (wp_tick_well (F.operator l) hobject (hready rfl) hf.sane.consistent
    habsent hnode.exclusive) hrun
  rw [nodes_leave_self]
  rcases hresult with hserves | hwaiting
  · exact hserves.runs
  · exact absurd hf.leads hwaiting.other

/-- In a group with a steady leader, once every other member has ticked and the
leader has just ticked, the validator container of the leader runs and no other
of the members'. -/
theorem one_validator_after_ticks {acts : List (Act ι α)} {l : ι} (hf : Reachable F f)
    (hl : members l) (hleads : f.pallet.leaders (F.config l).group = some (F.config l).nodeKey)
    (hgroup : ∀ j, members j → (F.config j).group = (F.config l).group) (well : ι → Bool)
    (hwell : ∀ j, members j → well j = true)
    (h : Course (Happens F (attended F well)) (Steady F members l) f
      (acts ++ [.entry l .tick]) f')
    (hticked : ∀ j, members j → j ≠ l → .entry j .tick ∈ acts) :
    ∀ j, members j → ((f'.nodes j).host.Running (F.service j).validatorName ↔ j = l) := by
  have hE := attended_within F well
  have hled := h.within (I := Led F l) (fun s s' act hs hact hadmits => led_step hE hs hact hadmits)
    ⟨sane_reachable hf, hleads⟩
  obtain ⟨f₁, hbefore, hlast⟩ := hled.split
  cases hlast with
  | cons htick hadmits hnil =>
    cases hnil
    intro j hj
    constructor
    · intro hrun
      by_contra hne
      have hidle : Idle F j f₁ := hbefore.after (I := Idle F j)
        (T := fun act => act = .entry j .tick)
        (fun s s' act hs hact hadmits =>
          idle_step (hwell j hj) hj (hgroup j hj) hne hadmits.2 hs hact hadmits.1)
        (fun s s' act hact hadmits hturn => by
          subst hturn
          exact tick_idle (hwell j hj) hj (hgroup j hj) hne hadmits.2 hact hadmits.1)
        ⟨_, hticked j hj hne, rfl⟩
      have hsame := happens_elsewhere (i := j) htick fun habout => hne (Eq.symm habout)
      rw [hsame] at hrun
      exact hidle hrun
    · rintro rfl
      exact leader_tick_serves (hwell j hj) hj hadmits.2 htick hadmits.1

end Federation

/-! ### Two nodes of one group -/

theorem answerRpc_wellRpc {block : ℕ} {c : Chain.Call α} {s s' : Storage α}
    {r : Except String c.Ret} (h : answerRpc block c s = some (r, s')) :
    wellRpc block c s r s' := by
  cases c with
  | isConnected | bestNumber | leaders g | leadedGroup g | setTimeout ms =>
    cases h
    exact ⟨rfl, rfl⟩
  | bestNumberFinalized =>
    cases h
    exact ⟨⟨block, rfl, by omega⟩, rfl⟩
  | health =>
    cases h
    exact ⟨⟨0, rfl⟩, rfl⟩
  | heartbeats key =>
    cases key with
    | address who =>
      cases h
      exact ⟨.inl ⟨who, rfl, rfl⟩, rfl⟩
    | text t =>
      cases h
      exact ⟨.inr ⟨_, rfl⟩, rfl⟩
  | account key =>
    cases h
    exact ⟨⟨0, rfl⟩, rfl⟩
  | send transaction =>
    cases h
    exact ⟨rfl, [], by simp, rfl⟩
  | never => cases h

theorem playChain_onWell {β : Type} {m : Chain.Method α β} {w w' : World α} {r : Except String β}
    (h : playChain m w = some (r, w')) : onWell m w r w' := by
  unfold playChain at h
  cases hm : exec (answerRpc w.block) m (w.chain, w.pallet) with
  | none =>
    rw [hm] at h
    cases h
  | some y =>
    rw [hm] at h
    cases h
    exact ⟨_, _, exec_runs (fun _ _ _ _ => answerRpc_wellRpc) m _ hm, rfl⟩

omit [DecidableEq ι] in
theorem answer_attended {F : Operators ι α} {i : ι} {c : Orchestrator.Call α} {w w' : World α}
    {r : Except String c.Ret} (h : answer true (F.config i) (F.service i) c w = some (r, w')) :
    attended F (fun _ => true) i c w r w' := by
  show wellServe (F.config i) (F.service i) c w r w'
  cases c with
  | canSendTransactions | getBestNumber | getLeader g | isLeadedGroup g | setLeader old g =>
    exact playChain_onWell h
  | isServiceReadyToStart =>
    cases h
    exact ⟨rfl, rfl⟩
  | isConnected | getPeerId | getPeerNumber | getBestNumberFinalized | getSyncState
  | getHeartbeat key | addHeartbeat mode g | giveUpLeadership g | bootstrap | start mode | cleanUp
  | checkLaunchedContainer | getInfo | setTimeout ms => exact answer_serve h

def ticks (i : ι) (n : ℕ) : List (Move ι) := List.replicate n (.entry i .tick true)

theorem played (F : Operators ι α) (f : State ι α) (i : ι) (entry : Entry)
    (hphase : entry.admitted (f.nodes i).phase)
    (hplayed : (exec (answer true (F.config i) (F.service i)) (entry.code (F.config i))
      ((f.nodes i).orchestrator, f.world i)).isSome) :
    Happens F (attended F fun _ => true) f (f.move F (.entry i entry true)) (.entry i entry) := by
  obtain ⟨⟨out, s, w⟩, hexec⟩ := Option.isSome_iff_exists.mp hplayed
  refine ⟨out, s, w, hphase, exec_runs (fun _ _ _ _ => answer_attended) _ _ hexec, ?_⟩
  simp only [State.move]
  rw [if_pos hphase, hexec]

theorem played_tick {F : Operators ι α} {f : State ι α} {i : ι}
    (hphase : (f.nodes i).phase = .subscribed)
    (hplayed : (exec (answer true (F.config i) (F.service i)) (Entry.tick.code (F.config i))
      ((f.nodes i).orchestrator, f.world i)).isSome) :
    Happens F (attended F fun _ => true) f (f.play F (ticks i 1)) (.entry i .tick) := by
  apply played F f i .tick _ hplayed
  rw [hphase]
  trivial

theorem play_ticks_succ (F : Operators ι α) (f : State ι α) (i : ι) (n : ℕ) :
    f.play F (ticks i (n + 1)) = (f.play F (ticks i n)).play F (ticks i 1) := by
  unfold State.play ticks
  rw [List.replicate_succ', List.foldl_append]
  rfl

/-- The ticks of one node, played one after the other. -/
theorem course_ticks {F : Operators ι α} {f : State ι α} {i : ι}
    {happens : State ι α → State ι α → Act ι α → Prop} {admits : State ι α → Act ι α → Prop}
    (n : ℕ)
    (hphase : ∀ k < n, ((f.play F (ticks i k)).nodes i).phase = .subscribed)
    (hplayed : ∀ k < n, (exec (answer true (F.config i) (F.service i))
      (Entry.tick.code (F.config i)) (((f.play F (ticks i k)).nodes i).orchestrator,
        (f.play F (ticks i k)).world i)).isSome)
    (hhappens : ∀ f f' : State ι α, Happens F (attended F fun _ => true) f f' (.entry i .tick) →
      happens f f' (.entry i .tick))
    (hadmits : ∀ k < n, admits (f.play F (ticks i k)) (.entry i .tick)) :
    Course happens admits f (List.replicate n (.entry i .tick)) (f.play F (ticks i n)) := by
  induction n with
  | zero => exact .nil f
  | succ n ih =>
    have hbefore := ih (fun k hk => hphase k (by omega)) (fun k hk => hplayed k (by omega))
      fun k hk => hadmits k (by omega)
    have hlast := hhappens _ _ (played_tick (hphase n (by omega)) (hplayed n (by omega)))
    rw [List.replicate_succ', play_ticks_succ]
    exact hbefore.append (.cons hlast (hadmits n (by omega)) (.nil _))

/-- Both nodes have heard each other when a third account takes the group. -/
def deserted : State Bool ℕ :=
  let f := pairStart.play pair (takesLeadership.take 10)
  { f with pallet := (Extrinsic.execute ⟨f.block, .signed 3, .setLeader 3 1⟩ f.pallet).2 }

theorem deserted_reachable : Reachable pair deserted := by
  obtain ⟨f₀, hinit, hsteps⟩ := play_reachable pairStart_reachable (takesLeadership.take 10)
  exact ⟨f₀, hinit, hsteps.tail ⟨.extrinsic ⟨_, .signed 3, .setLeader 3 1⟩, rfl, rfl⟩⟩

theorem silent_leader_replaced_deserted : deserted.pallet.leaders 1 = some 3 ∧
    LedBy pair 1 (fun _ => True) (deserted.play pair (ticks false 6)) := by
  have hleads : deserted.pallet.leaders 1 = some 3 := by decide +kernel
  have hready : ∀ k < 6, Ready (pair.config false)
      ((deserted.play pair (ticks false k)).nodes false).orchestrator
      ((deserted.play pair (ticks false k)).world false) := by decide +kernel
  have habsent : ∀ k < 6, (deserted.play pair (ticks false k)).pallet.leaders 1 = some 3 ∧
      ((deserted.play pair (ticks false k)).nodes false).orchestrator.heartbeats.getHeartbeat
        (.address 3) = none := by decide +kernel
  have hcourse : Course (Reserved pair (attended pair fun _ => true) 1 fun _ => True)
      (Awaits pair 1 (fun _ => True) false) deserted (List.replicate 6 (.entry false .tick))
      (deserted.play pair (ticks false 6)) := by
    refine course_ticks 6 (by decide +kernel) (by decide +kernel)
      (fun _ _ h => ⟨h, fun hforeign => absurd trivial hforeign⟩) fun k hk => ?_
    intro _ _ _
    refine ⟨hready k hk, fun leader hleader _ hheard => ?_⟩
    obtain ⟨hthird, hnone⟩ := habsent k hk
    obtain ⟨record, hrecord, -⟩ := hheard
    have hleader : leader = 3 := Option.some.inj (hleader.symm.trans hthird)
    subst hleader
    rw [hnone] at hrecord
    cases hrecord
  exact ⟨hleads, silent_leader_replaced deserted_reachable trivial rfl (fun _ => true) rfl hcourse
    (by decide +kernel)⟩

theorem one_validator_after_ticks_leading : ∃ f' : State Bool ℕ,
    (f'.nodes false).host.Running (pair.service false).validatorName ∧
      ¬ (f'.nodes true).host.Running (pair.service true).validatorName := by
  have hother := played_tick (F := pair) (f := leading) (i := true) (by decide +kernel)
    (by decide +kernel)
  have hleader := played_tick (F := pair) (f := leading.play pair (ticks true 1)) (i := false)
    (by decide +kernel) (by decide +kernel)
  have hheard : (leading.nodes true).orchestrator.heartbeats.Alive 100 leading.block
      (.address 1) := by decide +kernel
  have hready : Ready (pair.config false)
      ((leading.play pair (ticks true 1)).nodes false).orchestrator
      ((leading.play pair (ticks true 1)).world false) := by decide +kernel
  have hcourse : Course (Happens pair (attended pair fun _ => true))
      (Steady pair (fun _ => True) false) leading ([.entry true .tick] ++ [.entry false .tick])
      ((leading.play pair (ticks true 1)).play pair (ticks false 1)) := by
    refine .cons hother ⟨fun _ _ _ => ⟨rfl, by decide, heard_of_alive hheard⟩, fun _ =>
      ⟨rfl, by decide +kernel, fun h => nomatch h⟩⟩ (.cons hleader ⟨fun _ h => absurd rfl h,
      fun _ => ⟨rfl, by decide +kernel, fun _ => hready⟩⟩ (.nil _))
  have hticked : ∀ j : Bool, True → j ≠ false →
      Act.entry (α := ℕ) j .tick ∈ [Act.entry true .tick] := by
    intro j _ hj
    cases j with
    | false => exact absurd rfl hj
    | true => exact List.mem_singleton_self _
  have hone := @one_validator_after_ticks _ _ _ _ _ pair _ _ (fun _ => True) _ false
    leading_reachable trivial (by decide +kernel) (fun _ _ => rfl) (fun _ => true)
    (fun _ _ => rfl) hcourse hticked
  refine ⟨_, (hone false trivial).mpr rfl, fun hrun => ?_⟩
  cases (hone true trivial).mp hrun

end Archipel.Federation
