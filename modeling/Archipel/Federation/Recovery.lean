import Archipel.Federation.Timely

/-!
# A leader that has gone is replaced

The last heartbeat of the leader is too old, and it sends no other. One member of
the group is left whose collaborators work. Its own heartbeats and those of some
other node come in time and reach it in time: they keep it going. After as many
of its ticks as it has checks left, and one more, a member leads the group.
-/

namespace Archipel.Federation
open Async
open Pallet (Storage Extrinsic Event)

variable {ι α : Type} [DecidableEq α] [Inhabited α]

/-! ### Who sends heartbeats of an account -/

theorem execute_getHeartbeat {who : α} (x : Extrinsic α) (s : Storage α)
    (hx : ∀ g st, x.call = .addHeartbeat g st → x.origin ≠ .signed who) :
    (x.execute s).2.getHeartbeat who = s.getHeartbeat who := by
  rcases Pallet.execute_cases x s with ⟨e, he⟩ | ⟨other, g, st, hsigned, hcall, he⟩ |
    ⟨other, old, g, -, -, he, -⟩ | ⟨other, g, -, -, he, -⟩
  · rw [he]
  · have hne : who ≠ other := by
      rintro rfl
      exact hx g st hcall hsigned
    rw [he, getHeartbeat_beat, if_neg hne]
  · rw [he]
    rfl
  · rw [he]
    rfl

section Node
variable {config : Orchestrator.Config α} {service : Polkadot.Config} {w w' : World α} {who : α}

/-- A call sends no heartbeat of the account. -/
abbrev Mute (config : Orchestrator.Config α) (who : α) (c : Orchestrator.Call α) : Prop :=
  config.nodeKey = who → ∀ mode g, c ≠ .addHeartbeat mode g

theorem serve_mute {c : Orchestrator.Call α} {r : Except String c.Ret} (hc : Mute config who c)
    (h : serve config service c w r w') :
    w'.pallet.getHeartbeat who = w.pallet.getHeartbeat who := by
  have hsent : ∀ (transaction : Chain.Transaction α) (isEvent : Event α → Bool),
      transaction.signer = config.nodeKey →
      (config.nodeKey = who → ∀ g st, transaction.call ≠ .addHeartbeat g st) → ∀ s,
      wp (demonic (rpc w.block)) free (Chain.signAndSend transaction isEvent)
        (fun _ y => y.2.getHeartbeat who = w.pallet.getHeartbeat who) (s, w.pallet) := by
    intro transaction isEvent hsigner hcall s
    refine wp_mono (demonic_mono _) _ ?_ _ (wp_signAndSend (s, w.pallet))
    intro out y hy
    rcases hy with hy | hy
    · rw [hy]
    · rw [hy]
      apply execute_getHeartbeat
      intro g st hbeat hsigned
      have hkey : transaction.signer = who := by simpa using hsigned
      exact hcall (hsigner.symm.trans hkey) g st hbeat
  cases hsends : sends c with
  | false => rw [serve_quiet hsends h]
  | true =>
    cases c with
    | setLeader old g =>
      obtain ⟨chain, pallet, hr, rfl⟩ := h
      refine wp_runs (Q := fun _ y => y.2.getHeartbeat who = w.pallet.getHeartbeat who) ?_ hr
      refine wp_sender (Q := fun s => s.getHeartbeat who = w.pallet.getHeartbeat who) _ rfl ?_
      intro nonce s
      cases old with
      | address old => exact hsent _ _ rfl (by simp) s
      | text t => exact rfl
    | addHeartbeat mode g =>
      obtain ⟨chain, pallet, hr, rfl⟩ := h
      refine wp_runs (Q := fun _ y => y.2.getHeartbeat who = w.pallet.getHeartbeat who) ?_ hr
      refine wp_sender (Q := fun s => s.getHeartbeat who = w.pallet.getHeartbeat who) _ rfl ?_
      exact fun nonce s => hsent _ _ rfl (fun hkey => absurd rfl (hc hkey mode g)) s
    | giveUpLeadership g =>
      obtain ⟨chain, pallet, hr, rfl⟩ := h
      refine wp_runs (Q := fun _ y => y.2.getHeartbeat who = w.pallet.getHeartbeat who) ?_ hr
      refine wp_sender (Q := fun s => s.getHeartbeat who = w.pallet.getHeartbeat who) _ rfl ?_
      exact fun nonce s => hsent _ _ rfl (by simp) s
    | _ => cases hsends

theorem runs_mute {β : Type} {m : Orchestrator.Method α β}
    {x y : Orchestrator.State α × World α} {out : Except String β}
    (hm : OnlyCalls (A := Orchestrator.api α) (Mute config who) m)
    (h : Runs (serve config service) m x out y) :
    y.2.pallet.getHeartbeat who = x.2.pallet.getHeartbeat who := by
  refine wp_runs (wp_invariant
    (I := fun y => y.2.pallet.getHeartbeat who = x.2.pallet.getHeartbeat who)
    (demonic_mono _) ?_ ?_ hm x rfl) h
  · exact fun _ _ hy => ⟨trivial, hy⟩
  · intro c hc y hy r w hserve
    exact (serve_mute hc hserve).trans hy

end Node

section Federation
variable [DecidableEq ι] {F : Operators ι α} {E : Serving ι α} {f f' : State ι α} {g : UInt32}
  {members : ι → Prop} {well : ι → Bool} {i : ι} {who peer : α} {period delay : ℕ}

/-- The acts that may send a heartbeat of the account. -/
def Act.beats (F : Operators ι α) (who : α) : Act ι α → Prop
  | .extrinsic x => x.origin = .signed who ∧ ∃ g st, x.call = .addHeartbeat g st
  | .entry j e => (F.config j).nodeKey = who ∧ e = .heartbeat
  | _ => False

theorem happens_mute (hE : E.Within F) {act : Act ι α} (hact : ¬ act.beats F who)
    (h : Happens F E f f' act) : f'.pallet.getHeartbeat who = f.pallet.getHeartbeat who := by
  have hquiet : ∀ {config : Orchestrator.Config α} {c : Orchestrator.Call α}, sends c = false →
      Mute config who c := by
    rintro config c hc - mode g rfl
    cases hc
  cases act with
  | extrinsic x =>
    obtain ⟨-, rfl⟩ := h
    exact execute_getHeartbeat x _ fun g st hcall hsigned => hact ⟨hsigned, g, st, hcall⟩
  | block | crash j id =>
    cases h
    rfl
  | subscribe j =>
    obtain ⟨-, rfl⟩ := h
    rfl
  | restart j =>
    obtain ⟨connected, chain, pallet, out, s, w, -, hrun, rfl⟩ := h
    exact runs_mute (onlyCalls_bootstrap fun c hc => hquiet hc) hrun
  | entry j e =>
    obtain ⟨out, s, w, -, hrun, rfl⟩ := h
    refine runs_mute (onlyCalls_entry e (fun c hc => hquiet hc) (fun _ old _ mode g' => by simp) ?_)
      (runs_mono (hE j) hrun)
    exact fun he mode hkey _ _ _ => hact ⟨hkey, he⟩
  | deliver j =>
    obtain ⟨event, out, s, w, -, -, hrun, rfl⟩ := h
    exact runs_mute (onlyCalls_onEvent event (hquiet rfl)) (runs_mono (hE j) hrun)

/-! ### A member that is left -/

/-- What the node needs at a tick besides the heartbeats. -/
structure Operates (f : State ι α) (i : ι) : Prop where
  orchestrated : (f.nodes i).orchestrator.orchestrationEnabled = true
  admin : (f.nodes i).orchestrator.heartbeatSendEnabledAdmin = true
  online : Online (f.nodes i).chain f.block
  again : Online (Chain.moved (f.nodes i).chain f.block) f.block

instance (f : State ι α) (i : ι) : Decidable (Operates f i) :=
  decidable_of_iff ((f.nodes i).orchestrator.orchestrationEnabled = true ∧
      (f.nodes i).orchestrator.heartbeatSendEnabledAdmin = true ∧
      Online (f.nodes i).chain f.block ∧ Online (Chain.moved (f.nodes i).chain f.block) f.block)
    ⟨fun h => ⟨h.1, h.2.1, h.2.2.1, h.2.2.2⟩,
      fun h => ⟨h.orchestrated, h.admin, h.online, h.again⟩⟩

/-- The accounts whose heartbeats keep the node going. -/
def Keeps (F : Operators ι α) (i : ι) (peer who : α) : Prop :=
  who = (F.config i).nodeKey ∨ who = peer

/-- The node does not restart, the heartbeats that keep it going come in time, and
none of them is late at its ticks. A leader that is no member sends none. -/
def Recovering (F : Operators ι α) (g : UInt32) (members : ι → Prop) (i : ι) (peer : α)
    (period delay : ℕ) (f : State ι α) (act : Act ι α) : Prop :=
  (¬ LedBy F g members f → ∀ leader, f.pallet.leaders g = some leader → ¬ act.beats F leader) ∧
    match act with
    | .block => ∀ who, Keeps F i peer who → f.block + 1 ≤ f.pallet.getHeartbeat who + period
    | .restart j => j ≠ i
    | .entry j e => j = i → e = .tick → Operates f i ∧
      ∀ who, Keeps F i peer who → ∀ n ∈ beats who (f.queue i), f.block ≤ n + delay
    | _ => True

/-- The node is subscribed and in touch with the accounts that keep it going, and
the leader is overdue unless it is a member. -/
structure Forsaken (F : Operators ι α) (g : UInt32) (members : ι → Prop) (i : ι) (peer : α)
    (period : ℕ) (f : State ι α) : Prop where
  subscribed : (f.nodes i).phase = .subscribed
  fresh : ∀ who, Keeps F i peer who → Fresh who period f
  touch : ∀ who, Keeps F i peer who → InTouch period who f i
  overdue : ¬ LedBy F g members f → ∀ leader, f.pallet.leaders g = some leader →
    (f.pallet.getHeartbeat leader : ℤ) + (F.config i).aliveTime < f.block

omit [Inhabited α] [DecidableEq ι] in
theorem InTouch.alive (h : InTouch period who f i) (hphase : (f.nodes i).phase = .subscribed)
    (hdelay : ∀ n ∈ beats who (f.queue i), f.block ≤ n + delay) {aliveTime : ℤ}
    (halive : ((period + delay : ℕ) : ℤ) < aliveTime) :
    (f.nodes i).orchestrator.heartbeats.Alive aliveTime f.block (.address who) := by
  obtain ⟨record, hrecord, hpos, habreast⟩ := h
  rw [queue_subscribed hphase] at hdelay
  have hrecent := habreast.spaced.recent habreast.recent hdelay
  exact ⟨record, hrecord, (Heartbeats.isAlive_iff ..).mpr ⟨by omega, by omega⟩⟩

omit [Inhabited α] [DecidableEq ι] in
/-- The ticks of the node find what they need, and no leader that it hears. -/
theorem forsaken_acts (hgroup : (F.config i).group = g)
    (hmode : (F.config i).serviceMode = "orchestrator") (hpeer : peer ≠ (F.config i).nodeKey)
    (halive : ((period + delay : ℕ) : ℤ) < (F.config i).aliveTime) (hdetects : Detects F f)
    (hf : Forsaken F g members i peer period f) (hled : ¬ LedBy F g members f)
    (hoperates : Operates f i)
    (hdelay : ∀ who, Keeps F i peer who → ∀ n ∈ beats who (f.queue i), f.block ≤ n + delay) :
    Acts F f i := by
  have hheard : ∀ who, Keeps F i peer who → (f.nodes i).orchestrator.heartbeats.Alive
      (F.config i).aliveTime f.block (.address who) := fun who hwho =>
    (hf.touch who hwho).alive hf.subscribed (hdelay who hwho) halive
  refine ⟨⟨hmode, hoperates.orchestrated, hoperates.admin, ?_, hoperates.online,
    hoperates.again⟩, ?_⟩
  · apply (Heartbeats.anyOneAlive_iff ..).mpr
    have hne : Wallet.address peer ≠ .address (F.config i).nodeKey := by simpa using hpeer
    exact ⟨⟨_, hne, hheard peer (.inr rfl)⟩, hheard _ (.inl rfl)⟩
  · subst hgroup
    intro leader hleader _ ⟨record, hrecord, hnonzero, hrecent⟩
    have hbound := hdetects.bounded i (by rw [hf.subscribed]; decide) leader record hrecord
    have hold := hf.overdue hled leader hleader
    have hrecent : (f.block : ℤ) - record.blockNumber ≤ (F.config i).aliveTime := hrecent
    omega

omit [Inhabited α] [DecidableEq ι] in
theorem recovering_awaits (hgroup : (F.config i).group = g)
    (hmode : (F.config i).serviceMode = "orchestrator") (hpeer : peer ≠ (F.config i).nodeKey)
    (halive : ((period + delay : ℕ) : ℤ) < (F.config i).aliveTime) (hdetects : Detects F f)
    (hf : Forsaken F g members i peer period f) {act : Act ι α}
    (hact : Recovering F g members i peer period delay f act) : Awaits F g members i f act := by
  cases act with
  | restart j => exact hact.2
  | entry j e =>
    intro hj htick hled
    obtain ⟨hoperates, hdelay⟩ := hact.2 hj htick
    exact forsaken_acts hgroup hmode hpeer halive hdetects hf hled hoperates hdelay
  | extrinsic x | block | crash j id | subscribe j | deliver j => trivial

theorem happens_block (hE : E.Within F) {act : Act ι α} (h : Happens F E f f' act) :
    f.block ≤ f'.block := by
  by_cases hact : act = .block
  · subst hact
    cases h
    exact Nat.le_succ _
  · have hsame := (happens_kept (P := fun _ => True) hE (fun _ _ _ _ => trivial) trivial hact h).2
    exact hsame.ge

theorem subscribed_step {act : Act ι α} (hf : (f.nodes i).phase = .subscribed)
    (h : Happens F E f f' act) (hrestart : ∀ j, act = .restart j → j ≠ i) :
    (f'.nodes i).phase = .subscribed := by
  by_cases habout : act.about i
  · cases act with
    | extrinsic x | block => exact habout.elim
    | restart j => exact absurd habout (hrestart j rfl)
    | crash j id =>
      cases habout
      cases h
      rw [nodes_setNode_self]
      exact hf
    | subscribe j =>
      cases habout
      obtain ⟨-, rfl⟩ := h
      rw [nodes_setNode_self]
    | entry j e =>
      cases habout
      obtain ⟨out, s, w, -, -, rfl⟩ := h
      rw [nodes_leave_self]
      exact hf
    | deliver j =>
      cases habout
      obtain ⟨event, out, s, w, -, -, -, rfl⟩ := h
      rw [nodes_leave_self]
  · rw [happens_elsewhere h habout]
    exact hf

theorem forsaken_step (hE : E.Within F) (hf : Forsaken F g members i peer period f)
    {act : Act ι α} (hreserved : Reserved F E g members f f' act)
    (hact : Recovering F g members i peer period delay f act) :
    Forsaken F g members i peer period f' := by
  have h := hreserved.1
  have hsubscribed : (f'.nodes i).phase = .subscribed := by
    apply subscribed_step hf.subscribed h
    rintro j rfl
    exact hact.2
  have hblock : ∀ who, Keeps F i peer who → act = .block →
      f.block + 1 ≤ f.pallet.getHeartbeat who + period := by
    rintro who hwho rfl
    exact hact.2 who hwho
  refine ⟨hsubscribed, fun who hwho => fresh_step hE (hf.fresh who hwho) h (hblock who hwho),
    fun who hwho => ?_, fun hled leader hleader => ?_⟩
  · apply inTouch_step hE (hf.fresh who hwho) (fun _ => hf.touch who hwho) h (hblock who hwho) _
      hsubscribed
    rintro rfl
    have hbooted := h.1
    rw [hf.subscribed] at hbooted
    cases hbooted
  · rcases leaders_step hE hreserved with hsame | hmember
    · have hbefore : ¬ LedBy F g members f := fun hbefore => hled (ledBy_step hE hbefore hreserved)
      rw [hsame] at hleader
      have hmute := happens_mute hE (hact.1 hbefore leader hleader) h
      have hold := hf.overdue hbefore leader hleader
      have hnow := happens_block hE h
      rw [hmute]
      omega
    · exact absurd hmember hled

/-- A leader that has gone is replaced after as many ticks of the member that is
left as it has checks left, and one more, whatever the other nodes do. -/
theorem gone_leader_replaced {acts : List (Act ι α)} (hf : Reachable F f) (hi : members i)
    (hgroup : (F.config i).group = g) (hmode : (F.config i).serviceMode = "orchestrator")
    (hpeer : peer ≠ (F.config i).nodeKey)
    (halive : ((period + delay : ℕ) : ℤ) < (F.config i).aliveTime) (well : ι → Bool)
    (hwell : well i = true) (hforsaken : Forsaken F g members i peer period f)
    (h : Course (Reserved F (attended F well) g members)
      (Recovering F g members i peer period delay) f acts f')
    (hticks : checksLeft F i f < acts.countP (Act.isTick i)) : LedBy F g members f' := by
  have hE := attended_within F well
  have hinvariant := h.within (I := fun f => Detects F f ∧ Forsaken F g members i peer period f)
    (fun s s' act hs hact hadmits =>
      ⟨detects_step hs.1 (happens_step hE hact.1), forsaken_step hE hs.2 hact hadmits⟩)
    ⟨detects_reachable hf, hforsaken⟩
  have hawaits : Course (Reserved F (attended F well) g members) (Awaits F g members i) f acts f' :=
    hinvariant.imp fun s act hs =>
      recovering_awaits hgroup hmode hpeer halive hs.2.1 hs.2.2 hs.1
  exact ledBy_reached (sane_reachable hf) hi hgroup hwell hawaits hticks

end Federation

/-! ### Two nodes of one group -/

/-- Two nodes that have heard each other, late in the life of the chain. -/
def late : State Bool ℕ :=
  pairStart.play pair (.blocks 200 :: takesLeadership.take 10)

/-- A third account leads that never sent a heartbeat. -/
def gone : State Bool ℕ :=
  { late with pallet := (Extrinsic.execute ⟨late.block, .signed 3, .setLeader 3 1⟩ late.pallet).2 }

theorem gone_reachable : Reachable pair gone := by
  obtain ⟨f₀, hinit, hsteps⟩ :=
    play_reachable pairStart_reachable (.blocks 200 :: takesLeadership.take 10)
  exact ⟨f₀, hinit, hsteps.tail ⟨.extrinsic ⟨_, .signed 3, .setLeader 3 1⟩, rfl, rfl⟩⟩

theorem gone_forsaken : Forsaken pair 1 (fun _ => True) false 2 60 gone := by
  have hfresh : ∀ who, Keeps pair false 2 who → Fresh who 60 gone := by
    rintro who (rfl | rfl)
    · exact ⟨by decide +kernel, by decide +kernel⟩
    · exact ⟨by decide +kernel, by decide +kernel⟩
  have hnone : ∀ who, Keeps pair false 2 who → beats who (gone.queue false) = [] := by
    rintro who (rfl | rfl)
    · decide +kernel
    · decide +kernel
  have hrecord : ∀ who, Keeps pair false 2 who → ∃ record,
      (gone.nodes false).orchestrator.heartbeats.getHeartbeat (.address who) = some record ∧
        0 < record.blockNumber ∧ gone.pallet.getHeartbeat who ≤ record.blockNumber := by
    rintro who (rfl | rfl)
    · exact ⟨⟨"archipel-NODE-1", 1, 2, 201⟩, by decide +kernel, by decide +kernel,
        by decide +kernel⟩
    · exact ⟨⟨"archipel-NODE-2", 1, 2, 201⟩, by decide +kernel, by decide +kernel,
        by decide +kernel⟩
  refine ⟨by decide +kernel, hfresh, fun who hwho => ?_, fun _ leader hleader => ?_⟩
  · obtain ⟨record, hget, hpos, hle⟩ := hrecord who hwho
    refine ⟨record, hget, hpos, (hfresh who hwho).recent, by decide +kernel, ?_⟩
    have hspaced : Spaced 60 record.blockNumber (beats who (gone.queue false))
        (gone.pallet.getHeartbeat who) := by
      rw [hnone who hwho]
      exact hle
    exact hspaced
  · have hthird : gone.pallet.leaders 1 = some 3 := by decide +kernel
    cases hleader.symm.trans hthird
    decide +kernel

theorem gone_leader_replaced_pair : gone.pallet.leaders 1 = some 3 ∧
    LedBy pair 1 (fun _ => True) (gone.play pair (ticks false 6)) := by
  have hoperates : ∀ k < 6, Operates (gone.play pair (ticks false k)) false := by decide +kernel
  have hdelivered : ∀ k < 6, beats 1 ((gone.play pair (ticks false k)).queue false) = [] ∧
      beats 2 ((gone.play pair (ticks false k)).queue false) = [] := by decide +kernel
  have hcourse : Course (Reserved pair (attended pair fun _ => true) 1 fun _ => True)
      (Recovering pair 1 (fun _ => True) false 2 60 30) gone
      (List.replicate 6 (.entry false .tick)) (gone.play pair (ticks false 6)) := by
    refine course_ticks 6 (by decide +kernel) (by decide +kernel)
      (fun _ _ h => ⟨h, fun hforeign => absurd trivial hforeign⟩) fun k hk => ⟨?_, ?_⟩
    · intro _ leader _ hbeats
      cases hbeats.2
    · refine fun _ _ => ⟨hoperates k hk, fun who hwho n hn => ?_⟩
      rcases hwho with rfl | rfl
      · rw [show (pair.config false).nodeKey = 1 from rfl, (hdelivered k hk).1] at hn
        cases hn
      · rw [(hdelivered k hk).2] at hn
        cases hn
  exact ⟨by decide +kernel, gone_leader_replaced gone_reachable trivial rfl rfl (by decide)
    (by decide) (fun _ => true) rfl gone_forsaken hcourse (by decide +kernel)⟩

end Archipel.Federation
