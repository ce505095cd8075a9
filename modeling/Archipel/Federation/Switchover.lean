import Archipel.Federation.Detector

/-!
# Switching a group over by hand

Somebody asks a node for active mode over the API. The node takes the leadership
from whoever has it and its validator container runs. The events that tell the
others are emitted by then: a node of the group that has been delivered them has
stopped its own container and, as long as it hears the new leader, does not start
it again.
-/

namespace Archipel.Federation
open Async
open Pallet (Storage Extrinsic Event)

variable {ι α : Type} [DecidableEq α] [Inhabited α]

/-! ### Active mode by force -/

section Node
variable {config : Orchestrator.Config α} {service : Polkadot.Config}
  {x : Orchestrator.State α × World α}

theorem wp_start_serves (hrole : config.nodeRole ≠ "noservice") {object : Orchestrator.Service}
    (hservice : x.1.service = some object)
    (hleads : x.2.pallet.leaders config.group = some config.nodeKey)
    (hexclusive : ¬ Polkadot.Both service x.2.host) :
    wp (demonic (wellServe config service)) free (do
      let _ ← Orchestrator.serviceStart config .active
      pure true) (fun _ y => Serves config service y) x := by
  refine wp_seq (P := fun _ y => Serves config service y) (demonic_mono _) _ _ x ?_
    (fun _ _ h => h) fun _ _ h => h
  refine (Orchestrator.wp_serviceStart hrole .active hservice _).mpr fun r w hactive => ?_
  obtain ⟨hpallet, hruns⟩ := onHost_active hactive hexclusive
  exact ⟨hpallet ▸ hleads, hruns⟩

/-- A node whose chain client works leads and serves after `forceActive`, whoever
led before it. -/
theorem wp_forceActive_well (hrole : config.nodeRole ≠ "noservice")
    {object : Orchestrator.Service} (hservice : x.1.service = some object)
    (hkey : config.nodeKey ≠ default) (honline : Online x.2.chain x.2.block)
    (hconsistent : x.2.pallet.Consistent) (hexclusive : ¬ Polkadot.Both service x.2.host) :
    wp (demonic (wellServe config service)) free (Orchestrator.forceActive config)
      (fun _ y => Serves config service y) x := by
  unfold Orchestrator.forceActive
  rw [if_neg hrole]
  refine (wp_bind ..).mpr ((wp_call ..).mpr fun r w hleader => ?_)
  obtain ⟨rfl, rfl⟩ := onWell_getLeader hleader
  dsimp only
  by_cases hself : x.2.pallet.leaders config.group = some config.nodeKey
  · have hread : Orchestrator.leaderText (some (x.2.pallet.getLeader config.group)) =
        .address config.nodeKey := by
      rw [getLeader_of_leaders hself]
      rfl
    rw [if_pos hread]
    exact wp_start_serves hrole hservice hself hexclusive
  have hread : Orchestrator.leaderText (some (x.2.pallet.getLeader config.group)) ≠
      .address config.nodeKey := by
    intro hread
    have hget : x.2.pallet.getLeader config.group = config.nodeKey := Wallet.address.inj hread
    cases hleads : x.2.pallet.leaders config.group with
    | none =>
      rw [Storage.getLeader, hleads] at hget
      exact hkey hget.symm
    | some leader =>
      rw [getLeader_of_leaders hleads] at hget
      exact hself (hget ▸ hleads)
  rw [if_neg hread]
  refine (wp_bind ..).mpr ((wp_call ..).mpr fun r w hled => ?_)
  obtain ⟨rfl, rfl⟩ := onWell_isLeadedGroup hled
  dsimp only
  -- The account that the claim names is the one that leads, if one does.
  obtain ⟨old, hold, hnamed⟩ : ∃ old : α, (if x.2.pallet.getLeadedGroup config.group = true then
      Orchestrator.leaderText (some (x.2.pallet.getLeader config.group))
      else .address config.nodeKey) = .address old ∧
      ∀ leader, x.2.pallet.leaders config.group = some leader →
        config.nodeKey ≠ old ∧ old = leader := by
    rw [hconsistent]
    cases hleads : x.2.pallet.leaders config.group with
    | none =>
      refine ⟨config.nodeKey, if_neg (by simp), ?_⟩
      intro leader hleader
      cases hleader
    | some leader =>
      refine ⟨leader, ?_, ?_⟩
      · rw [getLeader_of_leaders hleads]
        exact if_pos rfl
      · intro other hother
        cases hother
        exact ⟨fun heq => hself (heq ▸ hleads), rfl⟩
  rw [hold]
  apply wp_seq (demonic_mono _) _ _ _ (wp_becomeLeader_well (x := (x.1, x.2)) honline hnamed)
  case herr =>
    intro error y hy
    cases hy.1
  rintro won y ⟨hwon, hfields, hhost, hleads⟩
  cases hwon
  have hservice : y.1.service = some object := by
    rw [hfields]
    exact hservice
  have hexclusive : ¬ Polkadot.Both service y.2.host := by
    rw [hhost]
    exact hexclusive
  refine (wp_bind ..).mpr ((wp_call ..).mpr fun r w hleader => ?_)
  obtain ⟨rfl, rfl⟩ := onWell_getLeader hleader
  have hagain : Orchestrator.leaderText (some (y.2.pallet.getLeader config.group)) =
      .address config.nodeKey := by
    rw [getLeader_of_leaders hleads]
    rfl
  dsimp only
  rw [if_pos hagain]
  exact wp_start_serves hrole hservice hleads hexclusive

/-- A delivery that tells of another leader stops the validator container. -/
theorem wp_onEvent_recalls (hrole : config.nodeRole ≠ "noservice")
    {object : Orchestrator.Service} (hservice : x.1.service = some object) {other : α}
    (hother : other ≠ config.nodeKey) (hexclusive : ¬ Polkadot.Both service x.2.host) :
    wp (demonic (serve config service)) free
      (Orchestrator.onEvent config (.newLeader other config.group))
      (fun _ y => ¬ y.2.host.Running service.validatorName) x := by
  show wp _ _ (if _ then _ else _) _ _
  rw [if_pos ⟨hother, rfl⟩, Orchestrator.wp_serviceStart_drop hrole .passive hservice]
  intro r w hpassive
  exact (onHost_start hpassive hexclusive).2.2 rfl

end Node

/-! ### The others are told -/

section Federation
variable [DecidableEq ι] {F : Operators ι α} {f f₁ f' : State ι α} {members : ι → Prop}
  {well : ι → Bool} {l j k : ι} {n : ℕ}

/-- The validator container of the node does not run, or the node has subscribed
and one of the first `n` events makes it stop the container and is still to be
delivered. -/
def Recalled (F : Operators ι α) (n : ℕ) (j : ι) (f : State ι α) : Prop :=
  Idle F j f ∨ (f.nodes j).phase = .subscribed ∧
    ∃ m other, (f.nodes j).delivered ≤ m ∧ m < n ∧ other ≠ (F.config j).nodeKey ∧
      f.pallet.events[m]? = some (.newLeader other (F.config j).group)

omit [DecidableEq α] [Inhabited α] [DecidableEq ι] in
/-- Whoever does not lead is told by the events that have been emitted. -/
theorem recalled_led (hgroup : (F.config j).group = (F.config l).group) (hne : j ≠ l)
    (hleads : f.pallet.leaders (F.config l).group = some (F.config l).nodeKey)
    (hnode : NodeSafe (F.config j) (F.service j) f.pallet (f.nodes j)) :
    Recalled F f.pallet.events.length j f := by
  by_cases hrun : (f.nodes j).host.Running (F.service j).validatorName
  · have hphase : (f.nodes j).phase = .subscribed := by
      by_contra hphase
      exact hnode.idle hphase hrun
    rcases (hnode.guarded hphase).informed hrun with hself | hnone | ⟨other, hother, hmem⟩
    · rw [hgroup, hleads] at hself
      exact absurd (F.accounts l j (Option.some.inj hself)).symm hne
    · rw [hgroup, hleads] at hnone
      cases hnone
    · obtain ⟨m, hget⟩ := List.mem_iff_getElem?.mp hmem
      rw [List.getElem?_drop] at hget
      obtain ⟨hlt, -⟩ := List.getElem?_eq_some_iff.mp hget
      exact .inr ⟨hphase, _, other, Nat.le_add_right .., hlt, hother, hget⟩
  · exact .inl hrun

theorem recalled_deliver (hf : Sane F f) {m : ℕ} {other : α}
    (hdelivered : (f.nodes j).delivered ≤ m) (hm : m < n) (hother : other ≠ (F.config j).nodeKey)
    (hevent : f.pallet.events[m]? = some (.newLeader other (F.config j).group))
    (h : Happens F (attended F well) f f' (.deliver j)) : Recalled F n j f' := by
  have hE := attended_within F well
  have hevents := (happens_advances hE h).events
  obtain ⟨event, out, s, w, hphase, hnext, hrun, rfl⟩ := h
  have hrun := runs_mono (hE j) hrun
  have hnode := nodes_leave_self f j .subscribed ((f.nodes j).delivered + 1) s w
  rcases Nat.lt_or_eq_of_le hdelivered with hlater | hnow
  · refine .inr ⟨by rw [hnode], m, other, ?_, hm, hother, getElem?_prefix hevents hevent⟩
    rw [hnode]
    exact hlater
  · subst hnow
    cases hevent.symm.trans hnext
    have hsane := hf.nodes j
    obtain ⟨object, hobject⟩ := Option.isSome_iff_exists.mp
      (hsane.hasService (by rw [hphase]; decide))
    have hstopped := wp_runs (wp_onEvent_recalls (F.operator j) hobject hother
      hsane.exclusive) hrun
    refine .inl ?_
    rw [Idle, hnode]
    exact hstopped

theorem recalled_step (hwell : well j = true) (hj : members j)
    (hgroup : (F.config j).group = (F.config l).group) (hne : j ≠ l) (hf : Led F l f)
    (hrecalled : Recalled F n j f) {act : Act ι α} (h : Happens F (attended F well) f f' act)
    (hact : Steady F members l f act) : Recalled F n j f' := by
  rcases hrecalled with hidle | ⟨hphase, m, other, hdelivered, hm, hother, hevent⟩
  · exact .inl (idle_step hwell hj hgroup hne hf hidle h hact)
  have hevents := (happens_advances (attended_within F well) h).events
  have hpending : (f'.nodes j).phase = (f.nodes j).phase →
      (f'.nodes j).delivered = (f.nodes j).delivered → Recalled F n j f' := by
    intro hstays hsame
    exact .inr ⟨hstays.trans hphase, m, other, hsame ▸ hdelivered, hm, hother,
      getElem?_prefix hevents hevent⟩
  by_cases habout : act.about j
  · cases act with
    | extrinsic x | block => exact habout.elim
    | crash i id =>
      cases habout
      cases h
      apply hpending <;> rw [nodes_setNode_self]
    | restart i =>
      cases habout
      exact .inl (restart_idle h)
    | subscribe i =>
      cases habout
      have hbooted := h.1
      rw [hphase] at hbooted
      cases hbooted
    | entry i e =>
      cases habout
      obtain ⟨out, s, w, -, -, rfl⟩ := h
      apply hpending <;> rw [nodes_leave_self]
    | deliver i =>
      cases habout
      exact recalled_deliver hf.sane hdelivered hm hother hevent h
  · apply hpending <;> rw [happens_elsewhere h habout]

/-- After a node was asked for active mode it leads and serves, as long as the
members hear it at their ticks. In a run in order none of the other members that
has been delivered what was emitted by then runs its validator container. -/
theorem switchover {acts : List (Act ι α)} (hf : Reachable F f) (hk : members k)
    (hgroup : ∀ j, members j → (F.config j).group = (F.config k).group) (well : ι → Bool)
    (hwell : ∀ j, members j → well j = true) (hkey : (F.config k).nodeKey ≠ default)
    (honline : Online (f.nodes k).chain f.block)
    (hswitch : Happens F (attended F well) f f₁ (.entry k (.serviceStart "active")))
    (h : Course (Happens F (attended F well)) (Steady F members k) f₁ acts f') :
    (f₁.nodes k).host.Running (F.service k).validatorName ∧
      f'.pallet.leaders (F.config k).group = some (F.config k).nodeKey ∧
      (InOrder F f → ∀ j, members j → j ≠ k →
        f₁.pallet.events.length ≤ (f'.nodes j).delivered →
          ¬ (f'.nodes j).host.Running (F.service j).validatorName) := by
  have hE := attended_within F well
  have hsane := sane_reachable hf
  have hsane₁ := sane_step hsane (happens_step hE hswitch)
  obtain ⟨hleads, hruns⟩ : f₁.pallet.leaders (F.config k).group = some (F.config k).nodeKey ∧
      (f₁.nodes k).host.Running (F.service k).validatorName := by
    obtain ⟨out, s, w, hphase, hrun, rfl⟩ := hswitch
    have hserve : attended F well k = wellServe (F.config k) (F.service k) := if_pos (hwell k hk)
    rw [hserve] at hrun
    have hbooted : (f.nodes k).phase ≠ .stopped := by
      intro hstopped
      rw [hstopped] at hphase
      exact hphase
    have hnode := hsane.nodes k
    obtain ⟨object, hobject⟩ := Option.isSome_iff_exists.mp (hnode.hasService hbooted)
    have hforced : Serves (F.config k) (F.service k) (s, w) := by
      refine wp_runs (Q := fun _ y => Serves (F.config k) (F.service k) y) ?_ hrun
      exact wp_seq (demonic_mono _) _ _ _ (wp_forceActive_well (F.operator k) hobject hkey honline
        hsane.consistent hnode.exclusive) (fun _ _ h => h) fun _ _ h => h
    refine ⟨hforced.leads, ?_⟩
    rw [nodes_leave_self]
    exact hforced.runs
  have hled : Led F k f₁ := ⟨hsane₁, hleads⟩
  have hcourse := h.within (I := Led F k)
    (fun s s' act hs hact hadmits => led_step hE hs hact hadmits) hled
  have hend : Led F k f' :=
    h.keeps (fun s s' act hs hact hadmits => led_step hE hs hact hadmits) hled
  refine ⟨hruns, hend.leads, fun horder j hj hne hdelivered => ?_⟩
  -- The switch leaves the other nodes as they were.
  have hnode : NodeSafe (F.config j) (F.service j) f₁.pallet (f₁.nodes j) := by
    rw [happens_elsewhere hswitch fun habout => hne (Eq.symm habout)]
    exact nodeSafe_advance (safe_inOrder horder j) (happens_advances hE hswitch)
  have hrecalled : Recalled F f₁.pallet.events.length j f' := by
    apply hcourse.keeps _ (recalled_led (hgroup j hj) hne hleads hnode)
    intro s s' act hs hact hadmits
    exact recalled_step (hwell j hj) hj (hgroup j hj) hne hadmits.2 hs hact hadmits.1
  rcases hrecalled with hidle | ⟨-, m, other, hle, hlt, -, -⟩
  · exact hidle
  · omega

end Federation

/-! ### Two nodes of one group -/

theorem played_deliver [DecidableEq ι] (F : Operators ι α) (f : State ι α) (i : ι)
    (event : Event α) (hphase : (f.nodes i).phase = .subscribed)
    (hevent : f.pallet.events[(f.nodes i).delivered]? = some event)
    (hplayed : (exec (answer true (F.config i) (F.service i))
      (Orchestrator.onEvent (F.config i) event) ((f.nodes i).orchestrator, f.world i)).isSome) :
    Happens F (attended F fun _ => true) f (f.move F (.deliver i)) (.deliver i) := by
  obtain ⟨⟨out, s, w⟩, hexec⟩ := Option.isSome_iff_exists.mp hplayed
  refine ⟨event, out, s, w, hphase, hevent,
    exec_runs (fun _ _ _ _ => answer_attended) _ _ hexec, ?_⟩
  simp only [State.move]
  rw [if_pos hphase, hevent]
  dsimp only
  rw [hexec]

/-- The other node is asked for active mode. -/
def switched : State Bool ℕ := leading.move pair (.entry true (.serviceStart "active") true)

/-- The former leader is delivered its own event and that of the other node. -/
theorem switchover_leading : (switched.nodes true).host.Running (pair.service true).validatorName ∧
    ∃ f' : State Bool ℕ, f'.pallet.leaders 1 = some 2 ∧
      ¬ (f'.nodes false).host.Running (pair.service false).validatorName := by
  have hswitch := played pair leading true (.serviceStart "active") (by decide +kernel)
    (by decide +kernel)
  have hfirst := played_deliver pair switched false (.newLeader 1 1) (by decide +kernel)
    (by decide +kernel) (by decide +kernel)
  have hsecond := played_deliver pair (switched.move pair (.deliver false)) false (.newLeader 2 1)
    (by decide +kernel) (by decide +kernel) (by decide +kernel)
  have hcourse : Course (Happens pair (attended pair fun _ => true))
      (Steady pair (fun _ => True) true) switched [.deliver false, .deliver false]
      ((switched.move pair (.deliver false)).move pair (.deliver false)) :=
    .cons hfirst ⟨trivial, trivial⟩ (.cons hsecond ⟨trivial, trivial⟩ (.nil _))
  have hseen : switched.pallet.events.length ≤
      (((switched.move pair (.deliver false)).move pair (.deliver false)).nodes false).delivered :=
    by decide +kernel
  obtain ⟨hruns, hleads, hothers⟩ := @switchover _ _ _ _ _ pair _ _ _ (fun _ => True) true _
    leading_inOrder.reachable trivial (fun _ _ => rfl) (fun _ => true) (fun _ _ => rfl) (by decide)
    (by decide +kernel) hswitch hcourse
  exact ⟨hruns, _, hleads, hothers leading_inOrder false trivial (by decide) hseen⟩

end Archipel.Federation
