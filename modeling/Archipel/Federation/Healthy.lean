import Archipel.Federation.Stability
import Archipel.Chain.Settle

/-!
# Nodes whose collaborators work

The RPC port of such a node answers every query with what there is, it has peers
and is in sync, what it sends is executed and finalized, and its service is
ready. A tick then does what the leadership of the group asks for.
-/

namespace Archipel.Federation
open Async
open Pallet (Storage Extrinsic)

variable {ι α : Type} [DecidableEq α] [Inhabited α]

def wellRpc (block : ℕ) : Env (Chain.api α) String (Storage α)
  | .isConnected, s, r, s' => r = .ok true ∧ s' = s
  | .bestNumber, s, r, s' => r = .ok block ∧ s' = s
  | .bestNumberFinalized, s, r, s' => (∃ n, r = .ok n ∧ block < n + 10) ∧ s' = s
  | .health, s, r, s' => (∃ peers, r = .ok ⟨peers + 1, false⟩) ∧ s' = s
  | .leaders g, s, r, s' => r = .ok (s.getLeader g) ∧ s' = s
  | .leadedGroup g, s, r, s' => r = .ok (s.getLeadedGroup g) ∧ s' = s
  | .heartbeats key, s, r, s' =>
    ((∃ who, key = .address who ∧ r = .ok (s.getHeartbeat who)) ∨ ∃ e, r = .error e) ∧ s' = s
  | .account _, s, r, s' => (∃ nonce, r = .ok nonce) ∧ s' = s
  | .send transaction, s, r, s' =>
    s' = (Extrinsic.execute ⟨block, .signed transaction.signer, transaction.call⟩ s).2 ∧
      ∃ before : List (Chain.Update α), (∀ update ∈ before, update.status.terminal = false) ∧
        r = .ok (before ++ [⟨.finalized, s'.events.drop s.events.length⟩])
  | .setTimeout _, s, r, s' => r = .ok () ∧ s' = s
  | .never, _, _, _ => False

theorem wellRpc_rpc {block : ℕ} {c : Chain.Call α} {s s' : Storage α} {r : Except String c.Ret}
    (h : wellRpc block c s r s') : rpc block c s r s' := by
  cases c with
  | isConnected => exact ⟨⟨true, h.1⟩, h.2⟩
  | bestNumber | leaders g | leadedGroup g => exact ⟨.inl h.1, h.2⟩
  | bestNumberFinalized | health | account key => exact h.2
  | heartbeats key | setTimeout ms => exact h
  | send transaction => exact .inr h.1
  | never => exact h

def onWell {β : Type} (m : Chain.Method α β) (w : World α) (r : Except String β)
    (w' : World α) : Prop :=
  ∃ chain pallet, Runs (wellRpc w.block) m (w.chain, w.pallet) r (chain, pallet) ∧
    w' = { w with chain, pallet }

theorem onWell_onChain {β : Type} {m : Chain.Method α β} {w w' : World α} {r : Except String β}
    (h : onWell m w r w') : onChain m w r w' := by
  obtain ⟨chain, pallet, hr, rfl⟩ := h
  exact ⟨chain, pallet, runs_mono (fun _ _ _ _ => wellRpc_rpc) hr, rfl⟩

/-- The calls of a tick. The other calls are served in any way. -/
def wellServe (config : Orchestrator.Config α) (service : Polkadot.Config) :
    Env (Orchestrator.api α) String (World α)
  | .canSendTransactions, w, r, w' => onWell Chain.canSendTransactions w r w'
  | .getBestNumber, w, r, w' => onWell Chain.getBestNumber w r w'
  | .getLeader groupId, w, r, w' => onWell (Chain.getLeader groupId) w r w'
  | .isLeadedGroup groupId, w, r, w' => onWell (Chain.isLeadedGroup groupId) w r w'
  | .setLeader oldLeader groupId, w, r, w' =>
    onWell (Chain.setLeader oldLeader groupId config.nodeKey) w r w'
  | .isServiceReadyToStart, w, r, w' => r = .ok true ∧ w' = w
  | c, w, r, w' => serve config service c w r w'

theorem wellServe_serve {config : Orchestrator.Config α} {service : Polkadot.Config}
    {c : Orchestrator.Call α} {w w' : World α} {r : Except String c.Ret}
    (h : wellServe config service c w r w') : serve config service c w r w' := by
  cases c with
  | canSendTransactions | getBestNumber | getLeader g | isLeadedGroup g | setLeader old g =>
    exact onWell_onChain h
  | isServiceReadyToStart => exact ⟨⟨true, h.1⟩, h.2⟩
  | isConnected | getPeerId | getPeerNumber | getBestNumberFinalized | getSyncState
  | getHeartbeat key | addHeartbeat mode g | giveUpLeadership g | bootstrap | start mode | cleanUp
  | checkLaunchedContainer | getInfo | setTimeout ms => exact h

/-! ### The methods of the chain client -/

/-- The chain client has not asked for the best number too often since the last
block. -/
structure Online (c : Chain.State) (block : ℕ) : Prop where
  gap : 10 ≤ c.finalizedGap
  moving : Chain.Moving c block

theorem wp_well_bestNumber {block : ℕ} {Q : Except String ℕ → Chain.State × Storage α → Prop}
    {x : Chain.State × Storage α} (hQ : Q (.ok block) x) :
    wp (demonic (wellRpc block)) free (Chain.getBestNumber (α := α)) Q x := by
  refine (wp_tryCatch ..).mpr ((wp_call ..).mpr ?_)
  rintro r s ⟨rfl, rfl⟩
  exact hQ

theorem wp_well_chainMovingForward {block : ℕ} {x : Chain.State × Storage α}
    (hx : Chain.Moving x.1 block) : wp (demonic (wellRpc block)) free (Chain.chainMovingForward)
      (fun out y => out = .ok true ∧ y = (Chain.moved x.1 block, x.2)) x := by
  refine (wp_bind ..).mpr (wp_well_bestNumber ?_)
  refine (wp_modify_bind ..).mpr ⟨trivial, (wp_get_bind ..).mpr ?_⟩
  dsimp only
  by_cases hblock : x.1.lastBlockNumber = block
  · have hstall : ¬ x.1.lastBlockThreshold ≤ x.1.lastBlockAccumulator + 1 := fun h => hx ⟨hblock, h⟩
    simp only [hblock, hstall, if_true, and_false, if_false]
    exact ⟨trivial, rfl, by simp [Chain.moved, hblock]⟩
  · simp only [hblock, false_and, if_false]
    exact ⟨trivial, rfl, by simp [Chain.moved, hblock]⟩

theorem wp_well_health {β : Type} {block : ℕ} {f : Chain.Health → β} {b : β}
    {Q : Except String β → Chain.State × Storage α → Prop} {x : Chain.State × Storage α}
    (hQ : ∀ peers, Q (.ok (f ⟨peers + 1, false⟩)) x) :
    wp (demonic (wellRpc block)) free (try do
        let health ← Chain.request (α := α) .health
        pure (f health)
      catch _ => pure b) Q x := by
  refine (wp_tryCatch ..).mpr ((wp_bind ..).mpr ((wp_call ..).mpr ?_))
  rintro r s ⟨⟨peers, rfl⟩, rfl⟩
  exact hQ peers

theorem wp_well_canSendTransactions {block : ℕ} {x : Chain.State × Storage α}
    (hx : Online x.1 block) : wp (demonic (wellRpc block)) free (Chain.canSendTransactions)
      (fun out y => out = .ok true ∧ y = (Chain.moved x.1 block, x.2)) x := by
  refine (wp_bind ..).mpr ((wp_call ..).mpr ?_)
  rintro r s ⟨rfl, rfl⟩
  refine wp_seq (demonic_mono _) _ _ _ (wp_well_chainMovingForward hx.moving) ?_
    fun _ _ h => nomatch h.1
  rintro moving y ⟨hmoving, rfl⟩
  cases hmoving
  refine (wp_bind ..).mpr (wp_well_bestNumber ?_)
  refine (wp_bind ..).mpr ((wp_tryCatch ..).mpr ((wp_call ..).mpr ?_))
  rintro r s ⟨⟨n, rfl, hn⟩, rfl⟩
  refine (wp_get_bind ..).mpr ?_
  have hgap := hx.gap
  have hnear : ¬ (block : ℤ) - n ≥ (Chain.moved x.1 block).finalizedGap := by
    show ¬ (block : ℤ) - n ≥ x.1.finalizedGap
    omega
  dsimp only
  rw [if_neg hnear]
  refine (wp_bind ..).mpr (wp_well_health fun peers => ?_)
  refine (wp_bind ..).mpr (wp_well_health fun peers' => ?_)
  simp

theorem wp_well_query {β : Type} {block : ℕ} {m : Chain.Method α β} (hm : Returns m)
    {f : β → Chain.Method α Bool} (x : Chain.State × Storage α)
    (hf : ∀ b y, wp (demonic (wellRpc block)) free (f b) (fun out _ => ∃ b, out = .ok b) y) :
    wp (demonic (wellRpc block)) free (m >>= f) (fun out _ => ∃ b, out = .ok b) x := by
  refine wp_seq_returns (P := fun _ => True) (demonic_mono _) f x hm ?_ fun b y _ => hf b y
  exact wp_invariant (demonic_mono _) (fun _ _ _ => ⟨trivial, trivial⟩)
    (fun _ _ _ _ _ _ _ => trivial) (onlyCalls_true m) x trivial

/-- Such a port never makes `canSendTransactions` throw. -/
theorem wp_well_answers {block : ℕ} (x : Chain.State × Storage α) :
    wp (demonic (wellRpc block)) free (Chain.canSendTransactions)
      (fun out _ => ∃ b, out = .ok b) x := by
  have hpeers : Returns (Chain.getPeerNumber (α := α)) := returns_tryCatch _ fun _ => trivial
  have hsync : Returns (Chain.getSyncState (α := α)) := returns_tryCatch _ fun _ => trivial
  have hbest : Returns (Chain.getBestNumber (α := α)) := returns_tryCatch _ fun _ => trivial
  have hfinalized : Returns (Chain.getBestNumberFinalized (α := α)) :=
    returns_tryCatch _ fun _ => trivial
  have hmoving : Returns (Chain.chainMovingForward (α := α)) := by
    refine returns_bind hbest fun block => returns_bind (fun s => trivial) fun _ =>
      returns_bind (fun s => trivial) fun s => ?_
    split
    · trivial
    · exact returns_bind (fun s => trivial) fun _ => trivial
  refine (wp_bind ..).mpr ((wp_call ..).mpr ?_)
  rintro r s ⟨rfl, rfl⟩
  refine wp_well_query hmoving _ fun moving y => ?_
  split
  · exact ⟨false, rfl⟩
  refine wp_well_query hbest y fun best y => ?_
  refine wp_well_query hfinalized y fun finalized y => ?_
  refine (wp_get_bind ..).mpr ?_
  split
  · exact ⟨false, rfl⟩
  refine wp_well_query hpeers y fun peers y => wp_well_query hsync y fun syncState y => ?_
  split
  · refine (wp_bind ..).mpr ((wp_call ..).mpr ?_)
    rintro r s ⟨rfl, rfl⟩
    exact wp_well_query hpeers _ fun peers y => wp_well_query hsync y fun syncState y => ⟨_, rfl⟩
  · exact ⟨_, rfl⟩

section World
variable {w w' : World α}

theorem onWell_answers {r : Except String Bool} (h : onWell Chain.canSendTransactions w r w') :
    (∃ b, r = .ok b) ∧ w'.pallet = w.pallet ∧ w'.block = w.block ∧ w'.host = w.host := by
  have hpallet := onChain_quiet Chain.quiet_canSendTransactions (onWell_onChain h)
  obtain ⟨chain, pallet, hr, rfl⟩ := h
  exact ⟨wp_runs (wp_well_answers (w.chain, w.pallet)) hr, hpallet, rfl, rfl⟩

omit [DecidableEq α] [Inhabited α] in
theorem World.eq_of_chain {w : World α} {chain : Chain.State} {pallet : Storage α}
    (h : chain = w.chain ∧ pallet = w.pallet) : { w with chain, pallet } = w := by
  rw [h.1, h.2]

theorem onWell_canSendTransactions {r : Except String Bool} (hw : Online w.chain w.block)
    (h : onWell Chain.canSendTransactions w r w') :
    r = .ok true ∧ w' = { w with chain := Chain.moved w.chain w.block } := by
  obtain ⟨chain, pallet, hr, rfl⟩ := h
  obtain ⟨hout, hy⟩ := wp_runs (wp_well_canSendTransactions (x := (w.chain, w.pallet)) hw) hr
  cases hy
  exact ⟨hout, rfl⟩

theorem onWell_getBestNumber {r : Except String ℕ} (h : onWell Chain.getBestNumber w r w') :
    r = .ok w.block ∧ w' = w := by
  obtain ⟨chain, pallet, hr, rfl⟩ := h
  have hy := wp_runs (wp_well_bestNumber (Q := fun out y => out = .ok w.block ∧
    y = (w.chain, w.pallet)) ⟨rfl, rfl⟩) hr
  exact ⟨hy.1, World.eq_of_chain (Prod.mk.inj hy.2)⟩

theorem onWell_getLeader {r : Except String (Option α)} {g : UInt32}
    (h : onWell (Chain.getLeader g) w r w') : r = .ok (some (w.pallet.getLeader g)) ∧ w' = w := by
  obtain ⟨chain, pallet, hr, rfl⟩ := h
  have hy := wp_runs (Q := fun out y => out = .ok (some (w.pallet.getLeader g)) ∧
    y = (w.chain, w.pallet)) ?_ hr
  · exact ⟨hy.1, World.eq_of_chain (Prod.mk.inj hy.2)⟩
  refine (wp_tryCatch ..).mpr ((wp_bind ..).mpr ((wp_call ..).mpr ?_))
  rintro r s ⟨rfl, rfl⟩
  exact ⟨rfl, rfl⟩

theorem onWell_isLeadedGroup {r : Except String Bool} {g : UInt32}
    (h : onWell (Chain.isLeadedGroup g) w r w') :
    r = .ok (w.pallet.getLeadedGroup g) ∧ w' = w := by
  obtain ⟨chain, pallet, hr, rfl⟩ := h
  have hy := wp_runs (Q := fun out y => out = .ok (w.pallet.getLeadedGroup g) ∧
    y = (w.chain, w.pallet)) ?_ hr
  · exact ⟨hy.1, World.eq_of_chain (Prod.mk.inj hy.2)⟩
  refine (wp_tryCatch ..).mpr ((wp_call ..).mpr ?_)
  rintro r s ⟨rfl, rfl⟩
  exact ⟨rfl, rfl⟩

/-- A claim that the pallet accepts is answered with true. -/
theorem onWell_setLeader {r : Except String Bool} {old : α} {g : UInt32} {key : α}
    (hw : Online w.chain w.block) (hnamed : ∀ leader, w.pallet.leaders g = some leader →
      key ≠ old ∧ old = leader) (h : onWell (Chain.setLeader (.address old) g key) w r w') :
    r = .ok true ∧ ∃ chain, w' = { w with chain, pallet := w.pallet.lead key g } := by
  obtain ⟨chain, pallet, hr, rfl⟩ := h
  have hexecute : (⟨w.block, .signed key, .setLeader old g⟩ : Extrinsic α).execute w.pallet =
      (.ok (), w.pallet.lead key g) := by
    rw [Pallet.execute_setLeader_signed]
    cases hl : w.pallet.leaders g with
    | none => rfl
    | some leader =>
      obtain ⟨hne, heq⟩ := hnamed leader hl
      dsimp only
      rw [if_neg hne, if_pos heq]
  have hy := wp_runs (Q := fun out y => out = .ok true ∧ y.2 = w.pallet.lead key g) ?_ hr
  · refine ⟨hy.1, chain, ?_⟩
    rw [show pallet = _ from hy.2]
  refine wp_seq (demonic_mono _) _ _ _ (wp_well_canSendTransactions hw) ?_ fun _ _ h => nomatch h.1
  rintro sendTransaction y ⟨hsend, rfl⟩
  cases hsend
  refine (wp_bind ..).mpr ((wp_call ..).mpr ?_)
  rintro r s ⟨⟨nonce, rfl⟩, rfl⟩
  refine (wp_bind ..).mpr ((wp_call ..).mpr ?_)
  rintro r s ⟨hs, before, hbefore, rfl⟩
  have hs : s = w.pallet.lead key g := hs.trans (congrArg Prod.snd hexecute)
  subst hs
  have hsettle : Chain.settle Chain.isNewLeader (before ++
      [⟨.finalized, (w.pallet.lead key g).events.drop w.pallet.events.length⟩]) = some true := by
    rw [Chain.settle_live _ hbefore]
    simp [Chain.settle, Storage.lead, Chain.isNewLeader]
  dsimp only
  rw [hsettle]
  exact ⟨rfl, rfl⟩

end World

/-! ### A tick -/

/-- What lets a tick of the node get to the leadership of the group. -/
structure Ready (config : Orchestrator.Config α) (s : Orchestrator.State α) (w : World α) :
    Prop where
  mode : config.serviceMode = "orchestrator"
  orchestrated : s.orchestrationEnabled = true
  admin : s.heartbeatSendEnabledAdmin = true
  alive : s.heartbeats.anyOneAlive (.address config.nodeKey) config.aliveTime config.group
    w.block = true
  online : Online w.chain w.block
  again : Online (Chain.moved w.chain w.block) w.block

instance (c : Chain.State) (block : ℕ) : Decidable (Online c block) :=
  decidable_of_iff (10 ≤ c.finalizedGap ∧ Chain.Moving c block)
    ⟨fun h => ⟨h.1, h.2⟩, fun h => ⟨h.gap, h.moving⟩⟩

instance (config : Orchestrator.Config α) (s : Orchestrator.State α) (w : World α) :
    Decidable (Ready config s w) :=
  decidable_of_iff (config.serviceMode = "orchestrator" ∧ s.orchestrationEnabled = true ∧
      s.heartbeatSendEnabledAdmin = true ∧ s.heartbeats.anyOneAlive (.address config.nodeKey)
        config.aliveTime config.group w.block = true ∧ Online w.chain w.block ∧
      Online (Chain.moved w.chain w.block) w.block)
    ⟨fun h => ⟨h.1, h.2.1, h.2.2.1, h.2.2.2.1, h.2.2.2.2.1, h.2.2.2.2.2⟩,
      fun h => ⟨h.mode, h.orchestrated, h.admin, h.alive, h.online, h.again⟩⟩

/-- The group has no other leader that the node hears. -/
def Absent (config : Orchestrator.Config α) (s : Orchestrator.State α) (w : World α) : Prop :=
  ∀ leader, w.pallet.leaders config.group = some leader → leader ≠ config.nodeKey →
    ¬ Heard s.heartbeats config.aliveTime w.block leader

/-- The node has counted one more check of a silent leader. -/
structure Waiting (config : Orchestrator.Config α) (x y : Orchestrator.State α × World α) :
    Prop where
  other : x.2.pallet.leaders config.group ≠ some config.nodeKey
  below : x.1.noLivenessFromLeader < config.noLivenessThreshold
  counted : y.1.noLivenessFromLeader = x.1.noLivenessFromLeader + 1

section Tick
variable {config : Orchestrator.Config α} {service : Polkadot.Config}
  {x : Orchestrator.State α × World α}

theorem wp_becomeLeader_well {old : α} (hx : Online x.2.chain x.2.block)
    (hnamed : ∀ leader, x.2.pallet.leaders config.group = some leader →
      config.nodeKey ≠ old ∧ old = leader) :
    wp (demonic (wellServe config service)) free (Orchestrator.becomeLeader config (.address old))
      (fun out y => out = .ok true ∧ y.1 = x.1 ∧ y.2.host = x.2.host ∧
        y.2.pallet.leaders config.group = some config.nodeKey) x := by
  refine (wp_bind ..).mpr ((wp_call ..).mpr fun r w hset => ?_)
  obtain ⟨rfl, chain, rfl⟩ := onWell_setLeader hx hnamed hset
  refine (wp_bind ..).mpr ((wp_call ..).mpr ?_)
  rintro r w ⟨rfl, rfl⟩
  exact ⟨rfl, rfl, rfl, Pallet.lead_leaders_self ..⟩

/-- The leadership check leads, or it counts a silent leader. -/
structure Managed (config : Orchestrator.Config α) (x : Orchestrator.State α × World α)
    (out : Except String Bool) (y : Orchestrator.State α × World α) : Prop where
  service : y.1.service = x.1.service
  host : y.2.host = x.2.host
  result : (out = .ok true ∧ y.2.pallet.leaders config.group = some config.nodeKey) ∨
    (out = .ok false ∧ Waiting config x y)

theorem wp_otherLeaderAction_well {leader : α} (hx : Online x.2.chain x.2.block)
    (hleads : x.2.pallet.leaders config.group = some leader) (hother : leader ≠ config.nodeKey)
    (habsent : ¬ Heard x.1.heartbeats config.aliveTime x.2.block leader) :
    wp (demonic (wellServe config service)) free
      (Orchestrator.otherLeaderAction config (.address leader)) (Managed config x) x := by
  have hnamed : ∀ l, x.2.pallet.leaders config.group = some l →
      config.nodeKey ≠ leader ∧ leader = l := fun l hl =>
    ⟨hother.symm, Option.some.inj (hleads.symm.trans hl)⟩
  have hne : x.2.pallet.leaders config.group ≠ some config.nodeKey := by
    rw [hleads]
    simpa using hother
  refine (wp_get_bind ..).mpr ?_
  dsimp only
  split
  · split
    · next hchecks =>
      refine (wp_modify_bind ..).mpr ⟨trivial, rfl, rfl, .inr ⟨rfl, hne, ?_, rfl⟩⟩
      omega
    · refine (wp_modify_bind ..).mpr ⟨trivial, ?_⟩
      refine wp_mono (demonic_mono _) _ ?_ _ (wp_becomeLeader_well hx hnamed)
      intro out y ⟨hout, hfields, hhost, hwon⟩
      exact ⟨by rw [hfields], hhost, .inl ⟨hout, hwon⟩⟩
  · next record hrecord =>
    obtain ⟨hrecord, hnonzero⟩ := Option.filter_eq_some_iff.mp hrecord
    have hstale : ¬ (x.2.block : ℤ) - record.blockNumber ≤ config.aliveTime := fun hrecent =>
      habsent ⟨record, hrecord, by simpa using hnonzero, hrecent⟩
    refine (wp_bind ..).mpr ((wp_call ..).mpr fun r w hbest => ?_)
    obtain ⟨rfl, rfl⟩ := onWell_getBestNumber hbest
    dsimp only
    rw [if_pos (by omega)]
    refine wp_mono (demonic_mono _) _ ?_ _ (wp_becomeLeader_well (x := (x.1, x.2)) hx hnamed)
    intro out y ⟨hout, hfields, hhost, hwon⟩
    exact ⟨by rw [hfields], hhost, .inl ⟨hout, hwon⟩⟩

omit [DecidableEq α] in
theorem getLeader_of_leaders {s : Storage α} {g : UInt32} {leader : α}
    (h : s.leaders g = some leader) : s.getLeader g = leader := by
  rw [Storage.getLeader, h]
  rfl

theorem wp_leadershipManagement_well (hx : Online x.2.chain x.2.block)
    (hconsistent : x.2.pallet.Consistent) (habsent : Absent config x.1 x.2) :
    wp (demonic (wellServe config service)) free (Orchestrator.leadershipManagement config)
      (Managed config x) x := by
  refine (wp_bind ..).mpr ((wp_call ..).mpr fun r w hleader => ?_)
  obtain ⟨rfl, rfl⟩ := onWell_getLeader hleader
  refine (wp_bind ..).mpr ((wp_call ..).mpr fun r w hled => ?_)
  obtain ⟨rfl, rfl⟩ := onWell_isLeadedGroup hled
  dsimp only
  rw [hconsistent]
  cases hleads : x.2.pallet.leaders config.group with
  | none =>
    refine wp_mono (demonic_mono _) _ ?_ _ (wp_becomeLeader_well (x := (x.1, x.2)) hx ?_)
    · intro out y ⟨hout, hfields, hhost, hwon⟩
      exact ⟨by rw [hfields], hhost, .inl ⟨hout, hwon⟩⟩
    · intro leader hl
      rw [hleads] at hl
      cases hl
  | some leader =>
    rw [getLeader_of_leaders hleads]
    by_cases hself : leader = config.nodeKey
    · subst hself
      have heq : Orchestrator.leaderText (some config.nodeKey) = .address config.nodeKey := rfl
      rw [if_neg (by simp), if_pos heq]
      exact ⟨rfl, rfl, .inl ⟨rfl, hleads⟩⟩
    · have hne : Orchestrator.leaderText (some leader) ≠ .address config.nodeKey := by
        simpa [Orchestrator.leaderText] using hself
      rw [if_neg (by simp), if_neg hne]
      exact wp_otherLeaderAction_well hx hleads hself (habsent leader hleads hself)

/-- The node leads the group and its validator container runs. -/
structure Serves (config : Orchestrator.Config α) (service : Polkadot.Config)
    (y : Orchestrator.State α × World α) : Prop where
  leads : y.2.pallet.leaders config.group = some config.nodeKey
  runs : y.2.host.Running service.validatorName

omit [DecidableEq α] [Inhabited α] in
theorem onHost_active {w w' : World α} {r : Except String Bool}
    (h : onHost (Polkadot.start service .active) w r w')
    (hw : ¬ Polkadot.Both service w.host) :
    w'.pallet = w.pallet ∧ w'.host.Running service.validatorName := by
  obtain ⟨polkadot, host, hr, rfl⟩ := h
  exact ⟨rfl, (Polkadot.start_moves service .active (x := (w.polkadot, w.host)) hw hr).1⟩

theorem wp_lead_well (hrole : config.nodeRole ≠ "noservice") {object : Orchestrator.Service}
    (hservice : x.1.service = some object) (hx : Online x.2.chain x.2.block)
    (hconsistent : x.2.pallet.Consistent) (habsent : Absent config x.1 x.2)
    (hexclusive : ¬ Polkadot.Both service x.2.host) :
    wp (demonic (wellServe config service)) free (do
      let leadership ← Orchestrator.leadershipManagement config
      if !leadership then do
        let _ ← Orchestrator.serviceStart config .passive
      else do
        let currentLeader : Option α ← Orchestrator.request (.getLeader config.group)
        if Orchestrator.leaderText currentLeader = Wallet.address config.nodeKey then do
          let _ ← Orchestrator.serviceStart config .active
        else
          pure ()) (fun _ y => Serves config service y ∨ Waiting config x y) x := by
  refine wp_seq (demonic_mono _) _ _ x (wp_leadershipManagement_well hx hconsistent habsent) ?_ ?_
  · intro leadership y hy
    have hobject : y.1.service = some object := hy.service.trans hservice
    rcases hy.result with ⟨hlead, hwon⟩ | ⟨hlead, hwaiting⟩
    · cases hlead
      refine (wp_bind ..).mpr ((wp_call ..).mpr fun r w hleader => ?_)
      obtain ⟨rfl, rfl⟩ := onWell_getLeader hleader
      have hself : Orchestrator.leaderText (some (y.2.pallet.getLeader config.group)) =
          .address config.nodeKey := by
        rw [getLeader_of_leaders hwon]
        rfl
      dsimp only
      rw [if_pos hself, Orchestrator.wp_serviceStart_drop hrole .active (x := (y.1, y.2)) hobject]
      intro r w hactive
      have hhost : ¬ Polkadot.Both service y.2.host := by
        rw [hy.host]
        exact hexclusive
      obtain ⟨hpallet, hruns⟩ := onHost_active hactive hhost
      refine .inl ⟨?_, hruns⟩
      rw [hpallet]
      exact hwon
    · cases hlead
      show wp _ _ (do let _ ← Orchestrator.serviceStart config .passive) _ _
      rw [Orchestrator.wp_serviceStart_drop hrole .passive hobject]
      exact fun r w _ => .inr ⟨hwaiting.other, hwaiting.below, hwaiting.counted⟩
  · intro e y hy
    rcases hy.result with h | h
    · cases h.1
    · cases h.1

/-- A ready node that hears no other leader leads the group after its tick and
serves, or it has counted one more check of a silent leader. -/
theorem wp_tick_well (hrole : config.nodeRole ≠ "noservice") {object : Orchestrator.Service}
    (hservice : x.1.service = some object) (hready : Ready config x.1 x.2)
    (hconsistent : x.2.pallet.Consistent) (habsent : Absent config x.1 x.2)
    (hexclusive : ¬ Polkadot.Both service x.2.host) :
    wp (demonic (wellServe config service)) free (Orchestrator.orchestrationLoop config)
      (fun _ y => Serves config service y ∨ Waiting config x y) x := by
  refine wp_try (P := fun _ y => Serves config service y ∨ Waiting config x y)
    (demonic_mono _) _ _ x ?_ (fun _ _ h => h) fun _ _ h => h
  unfold Orchestrator.orchestrateService
  rw [if_neg hrole, wp_get_bind, hready.orchestrated, if_neg (by decide), if_pos hready.mode]
  refine (wp_bind ..).mpr ((wp_call ..).mpr fun r w hsend => ?_)
  obtain ⟨rfl, rfl⟩ := onWell_canSendTransactions hready.online hsend
  refine (wp_bind ..).mpr ((wp_call ..).mpr fun r w hbest => ?_)
  obtain ⟨rfl, rfl⟩ := onWell_getBestNumber hbest
  refine (wp_get_bind ..).mpr ?_
  dsimp only
  rw [hready.alive, if_neg (by decide)]
  refine (wp_bind ..).mpr ((Orchestrator.wp_serviceReadinessManagement
    (x := (x.1, { x.2 with chain := Chain.moved x.2.chain x.2.block })) hservice _).mpr ?_)
  rintro r w ⟨rfl, rfl⟩
  dsimp only
  rw [hservice]
  dsimp only
  have hresult : (Orchestrator.readiness config object.mode true x.1).1 = true := rfl
  rw [hresult, if_neg (by decide), wp_get_bind]
  have hflags : (!(Orchestrator.readiness config object.mode true x.1).2.heartbeatSendEnabled ||
      !(Orchestrator.readiness config object.mode true x.1).2.heartbeatSendEnabledAdmin) =
      false := by
    rw [Orchestrator.readiness_admin, hready.admin]
    rfl
  rw [hflags, if_neg (by decide)]
  have hlead := wp_lead_well (x := ((Orchestrator.readiness config object.mode true x.1).2,
    { x.2 with chain := Chain.moved x.2.chain x.2.block })) hrole
    (hservice : (Orchestrator.readiness config object.mode true x.1).2.service = some object)
    hready.again hconsistent habsent (hexclusive : ¬ Polkadot.Both service x.2.host)
  refine wp_mono (demonic_mono _) _ ?_ _ hlead
  intro out y hy
  rcases hy with hy | hy
  · exact .inl hy
  · exact .inr ⟨hy.other, hy.below, hy.counted⟩

/-- The node does not lead the group, and hears its leader. -/
structure Follows (config : Orchestrator.Config α) (leader : α)
    (x : Orchestrator.State α × World α) : Prop where
  other : config.nodeKey ≠ leader
  leads : x.2.pallet.leaders config.group = some leader
  led : x.2.pallet.getLeadedGroup config.group = true
  heard : Heard x.1.heartbeats config.aliveTime x.2.block leader

theorem wp_leadershipManagement_follows {leader : α} (hx : Follows config leader x) :
    wp (demonic (wellServe config service)) free (Orchestrator.leadershipManagement config)
      (fun out y => out = .ok false ∧ y = x) x := by
  obtain ⟨record, hrecord, hnonzero, hrecent⟩ := hx.heard
  refine (wp_bind ..).mpr ((wp_call ..).mpr fun r w hleader => ?_)
  obtain ⟨rfl, rfl⟩ := onWell_getLeader hleader
  refine (wp_bind ..).mpr ((wp_call ..).mpr fun r w hled => ?_)
  obtain ⟨rfl, rfl⟩ := onWell_isLeadedGroup hled
  dsimp only
  have hne : Orchestrator.leaderText (some leader) ≠ .address config.nodeKey := by
    simpa [Orchestrator.leaderText] using hx.other.symm
  have hfilter : (x.1.heartbeats.getHeartbeat (Orchestrator.leaderText (some leader))).filter
      (fun heartbeat => heartbeat.blockNumber ≠ 0) = some record := by
    rw [Orchestrator.leaderText, hrecord]
    simp [hnonzero]
  rw [hx.led, getLeader_of_leaders hx.leads, if_neg (by decide), if_neg hne]
  refine (wp_get_bind ..).mpr ?_
  dsimp only
  rw [hfilter]
  refine (wp_bind ..).mpr ((wp_call ..).mpr fun r w hbest => ?_)
  obtain ⟨rfl, rfl⟩ := onWell_getBestNumber hbest
  dsimp only
  rw [if_neg (by omega)]
  exact ⟨rfl, rfl⟩

theorem wp_passive_well (hrole : config.nodeRole ≠ "noservice") {object : Orchestrator.Service}
    (hservice : x.1.service = some object) (hexclusive : ¬ Polkadot.Both service x.2.host) :
    wp (demonic (wellServe config service)) free
      (do let _ ← Orchestrator.serviceStart config .passive)
      (fun _ y => ¬ y.2.host.Running service.validatorName) x := by
  rw [Orchestrator.wp_serviceStart_drop hrole .passive hservice]
  intro r w hpassive
  exact (onHost_start hpassive hexclusive).2.2 rfl

/-- A tick of a node that does not lead and hears the leader ends in passive
mode, whatever else it finds. -/
theorem wp_tick_follows (hrole : config.nodeRole ≠ "noservice") {object : Orchestrator.Service}
    (hservice : x.1.service = some object) (hmode : config.serviceMode = "orchestrator")
    (horch : x.1.orchestrationEnabled = true) {leader : α} (hx : Follows config leader x)
    (hexclusive : ¬ Polkadot.Both service x.2.host) :
    wp (demonic (wellServe config service)) free (Orchestrator.orchestrationLoop config)
      (fun _ y => ¬ y.2.host.Running service.validatorName) x := by
  refine wp_try (P := fun _ y => ¬ y.2.host.Running service.validatorName)
    (demonic_mono _) _ _ x ?_ (fun _ _ h => h) (fun e y h => (wp_pure ..).mpr h)
  unfold Orchestrator.orchestrateService
  rw [if_neg hrole, wp_get_bind, horch, if_neg (by decide), if_pos hmode]
  refine (wp_bind ..).mpr ((wp_call ..).mpr fun r w hsend => ?_)
  obtain ⟨⟨sendTransaction, rfl⟩, hpallet, hblock, hhost⟩ := onWell_answers hsend
  have hexclusive : ¬ Polkadot.Both service w.host := by
    rw [hhost]
    exact hexclusive
  dsimp only
  split
  · exact wp_passive_well hrole hservice hexclusive
  refine (wp_bind ..).mpr ((wp_call ..).mpr fun r w' hbest => ?_)
  obtain ⟨rfl, rfl⟩ := onWell_getBestNumber hbest
  refine (wp_get_bind ..).mpr ?_
  dsimp only
  split
  · exact wp_passive_well hrole hservice hexclusive
  refine (wp_bind ..).mpr ((Orchestrator.wp_serviceReadinessManagement
    (x := (x.1, w')) hservice _).mpr ?_)
  rintro r w ⟨rfl, rfl⟩
  dsimp only
  rw [hservice]
  dsimp only
  have hservice' : (Orchestrator.readiness config object.mode true x.1).2.service = some object :=
    hservice
  split
  · exact wp_passive_well hrole hservice' hexclusive
  refine (wp_get_bind ..).mpr ?_
  split
  · exact wp_passive_well hrole hservice' hexclusive
  have hfollows : Follows config leader
      ((Orchestrator.readiness config object.mode true x.1).2, w) :=
    ⟨hx.other, by rw [hpallet]; exact hx.leads, by rw [hpallet]; exact hx.led,
      by rw [hblock]; exact hx.heard⟩
  refine wp_seq (demonic_mono _) _ _ _ (wp_leadershipManagement_follows hfollows) ?_ ?_
  · rintro leadership y ⟨hlead, rfl⟩
    cases hlead
    exact wp_passive_well hrole hservice' hexclusive
  · rintro e y ⟨hfailed, -⟩
    cases hfailed

end Tick

end Archipel.Federation
