import Archipel.Federation.Acts

/-!
# A leader that is heard stays

A node claims the leadership from the account that it names. While the other
nodes of the group have a recent heartbeat of the leader none of them names it,
whatever their chain clients answer, and the leadership stays where it is.
-/

namespace Archipel.Federation
open Async
open Pallet (Storage Extrinsic)

variable {ι α : Type} [DecidableEq α] [Inhabited α]

/-- The last heartbeat of the account is known and not too long ago. -/
def Heard (h : Heartbeats α) (aliveTime : ℤ) (block : ℕ) (who : α) : Prop :=
  ∃ record, h.getHeartbeat (.address who) = some record ∧ record.blockNumber ≠ 0 ∧
    (block : ℤ) - record.blockNumber ≤ aliveTime

omit [Inhabited α] in
theorem heard_of_alive {h : Heartbeats α} {aliveTime : ℤ} {block : ℕ} {who : α}
    (halive : h.Alive aliveTime block (.address who)) : Heard h aliveTime block who := by
  obtain ⟨record, hrecord, halive⟩ := halive
  obtain ⟨hnonzero, hrecent⟩ := (Heartbeats.isAlive_iff aliveTime block record).mp halive
  exact ⟨record, hrecord, hnonzero, Int.le_of_lt hrecent⟩

theorem onChain_getBestNumber {w w' : World α} {r : Except String ℕ}
    (h : onChain Chain.getBestNumber w r w') : ∃ n, r = .ok n ∧ n ≤ w.block := by
  obtain ⟨chain, pallet, hr, rfl⟩ := h
  refine wp_runs (Q := fun out _ => ∃ n, out = .ok n ∧ n ≤ w.block) ?_ hr
  refine (wp_tryCatch ..).mpr ((wp_call ..).mpr ?_)
  intro r s hc
  rcases hc.1 with rfl | ⟨e, rfl⟩
  · exact ⟨w.block, rfl, le_refl _⟩
  · exact ⟨0, rfl, Nat.zero_le _⟩

/-! ### An entry of another node -/

/-- The account leads the group of the node; the heartbeats of the node are those
at the start of the entry. -/
structure Watched (config : Orchestrator.Config α) (leader : α) (block : ℕ) (h : Heartbeats α)
    (y : Orchestrator.State α × World α) : Prop where
  leads : y.2.pallet.leaders config.group = some leader
  block : y.2.block = block
  heartbeats : y.1.heartbeats = h

section Node
variable {config : Orchestrator.Config α} {service : Polkadot.Config} {leader : α} {block : ℕ}
  {h : Heartbeats α} {x : Orchestrator.State α × World α} {β : Type}

abbrev KeepsWatch (config : Orchestrator.Config α) (service : Polkadot.Config) (leader : α)
    (block : ℕ) (h : Heartbeats α) (m : Orchestrator.Method α β)
    (x : Orchestrator.State α × World α) : Prop :=
  wp (demonic (serve config service)) free m (fun _ y => Watched config leader block h y) x

theorem watched_serve {c : Orchestrator.Call α} {r : Except String c.Ret} {w : World α}
    (hx : Watched config leader block h x) (hset : ∀ old, c ≠ .setLeader old config.group)
    (hgive : ∀ g, c ≠ .giveUpLeadership g) (hc : serve config service c x.2 r w) :
    Watched config leader block h (x.1, w) :=
  ⟨(serve_leaders hset hgive hc).trans hx.leads, (serve_block hc).trans hx.block, hx.heartbeats⟩

theorem wp_watched {m : Orchestrator.Method α β} (hm : OnlyCalls (A := Orchestrator.api α)
      (fun c => (∀ old, c ≠ .setLeader old config.group) ∧ ∀ g, c ≠ .giveUpLeadership g) m)
    (hh : Maintains (A := Orchestrator.api α) (fun s => s.heartbeats = h) m)
    (hx : Watched config leader block h x) : KeepsWatch config service leader block h m x := by
  have hchain := wp_invariant (T := demonic (serve config service)) (G := free)
    (I := fun y => y.2.pallet.leaders config.group = some leader ∧ y.2.block = block)
    (demonic_mono _) (fun _ _ hy => ⟨trivial, hy⟩)
    (fun c hc y hy r w hserve => ⟨(serve_leaders hc.1 hc.2 hserve).trans hy.1,
      (serve_block hserve).trans hy.2⟩) hm x ⟨hx.leads, hx.block⟩
  have hfields := wp_maintains (E := serve config service) hh x hx.heartbeats
  refine wp_mono (demonic_mono _) _ ?_ _ (wp_and hchain hfields)
  exact fun _ y hy => ⟨hy.1.1, hy.1.2, hy.2⟩

theorem wp_becomeLeader_watched {old : Wallet α} (hold : old ≠ .address leader)
    (hx : Watched config leader block h x) :
    KeepsWatch config service leader block h (Orchestrator.becomeLeader config old) x := by
  refine (wp_bind ..).mpr ((wp_call ..).mpr fun setLeader w hset => ?_)
  have hleads : w.pallet.leaders config.group = some leader := by
    rcases (onChain_setLeader hset).2 with hsame | htaken
    · exact hsame.trans hx.leads
    · exact absurd (htaken.named leader hx.leads).2 hold
  have hw : Watched config leader block h (x.1, w) :=
    ⟨hleads, (serve_block hset).trans hx.block, hx.heartbeats⟩
  cases setLeader with
  | error e => exact hw
  | ok setLeader =>
    dsimp only
    split
    · refine (wp_bind ..).mpr ((wp_call ..).mpr fun r w' hwait => ?_)
      have hw' := watched_serve (c := .setTimeout 10000) hw (by simp) (by simp) hwait
      cases r <;> exact hw'
    · exact hw

theorem wp_otherLeaderAction_watched (hheard : Heard h config.aliveTime block leader)
    (currentLeader : Wallet α) (hx : Watched config leader block h x) :
    KeepsWatch config service leader block h
      (Orchestrator.otherLeaderAction config currentLeader) x := by
  by_cases hleader : currentLeader = .address leader
  · obtain ⟨record, hrecord, hnonzero, hrecent⟩ := hheard
    have hfilter : (x.1.heartbeats.getHeartbeat currentLeader).filter
        (fun heartbeat => heartbeat.blockNumber ≠ 0) = some record := by
      rw [hx.heartbeats, hleader, hrecord]
      simp [hnonzero]
    refine (wp_get_bind ..).mpr ?_
    dsimp only
    rw [hfilter]
    refine (wp_bind ..).mpr ((wp_call ..).mpr fun r w hbest => ?_)
    have hw := watched_serve (c := .getBestNumber) hx (by simp) (by simp) hbest
    obtain ⟨bestNumber, rfl, hle⟩ := onChain_getBestNumber hbest
    have hblock := hx.block
    have halive : ¬ (bestNumber : ℤ) - record.blockNumber > config.aliveTime := by omega
    dsimp only
    rw [if_neg halive]
    exact hw
  · refine (wp_get_bind ..).mpr ?_
    dsimp only
    split
    · split
      · exact ⟨trivial, ⟨hx.leads, hx.block, hx.heartbeats⟩⟩
      · exact ⟨trivial, wp_becomeLeader_watched hleader ⟨hx.leads, hx.block, hx.heartbeats⟩⟩
    · refine (wp_bind ..).mpr ((wp_call ..).mpr fun r w hbest => ?_)
      have hw := watched_serve (c := .getBestNumber) hx (by simp) (by simp) hbest
      cases r with
      | error e => exact hw
      | ok bestNumber =>
        dsimp only
        split
        · exact wp_becomeLeader_watched hleader hw
        · exact hw

theorem wp_leadershipManagement_watched (hother : config.nodeKey ≠ leader)
    (hheard : Heard h config.aliveTime block leader) (hx : Watched config leader block h x) :
    KeepsWatch config service leader block h (Orchestrator.leadershipManagement config) x := by
  have hself : Wallet.address config.nodeKey ≠ .address leader := by simpa using hother
  refine (wp_bind ..).mpr ((wp_call ..).mpr fun r w hleader => ?_)
  have hw := watched_serve (c := .getLeader config.group) hx (by simp) (by simp) hleader
  cases r with
  | error e => exact hw
  | ok currentLeader =>
    refine (wp_bind ..).mpr ((wp_call ..).mpr fun r w' hled => ?_)
    have hw' := watched_serve (c := .isLeadedGroup config.group) hw (by simp) (by simp) hled
    cases r with
    | error e => exact hw'
    | ok isLeadedGroup =>
      dsimp only
      split
      · exact wp_becomeLeader_watched hself hw'
      · split
        · exact hw'
        · exact wp_otherLeaderAction_watched hheard _ hw'

theorem wp_seq_watched {γ : Type} {m : Orchestrator.Method α β} {f : β → Orchestrator.Method α γ}
    (hm : KeepsWatch config service leader block h m x)
    (hf : ∀ b y, Watched config leader block h y →
      KeepsWatch config service leader block h (f b) y) :
    KeepsWatch config service leader block h (m >>= f) x :=
  wp_seq (demonic_mono _) m f x hm hf fun _ _ hy => hy

theorem wp_start_watched (mode : Polkadot.Mode) (hx : Watched config leader block h x) :
    KeepsWatch config service leader block h
      (do let _ ← Orchestrator.serviceStart config mode) x :=
  wp_watched (Orchestrator.onlyCalls_start_drop mode (by simp))
    (Orchestrator.maintains_start_drop mode fun _ hs => hs) hx

theorem wp_orchestrateOperatorService_watched (hother : config.nodeKey ≠ leader)
    (hheard : Heard h config.aliveTime block leader) (hx : Watched config leader block h x) :
    KeepsWatch config service leader block h
      (Orchestrator.orchestrateOperatorService config) x := by
  have hcall : ∀ (c : Orchestrator.Call α) (y : Orchestrator.State α × World α),
      (∀ old, c ≠ .setLeader old config.group) → (∀ g, c ≠ .giveUpLeadership g) →
      Watched config leader block h y → KeepsWatch config service leader block h
        (Orchestrator.request c) y := fun c y hset hgive hy =>
    wp_watched (onlyCalls_call ⟨hset, hgive⟩) (maintains_call (A := Orchestrator.api α) c) hy
  refine wp_seq_watched (hcall .canSendTransactions x (by simp) (by simp) hx)
    fun sendTransaction x hx => ?_
  split
  · exact wp_start_watched .passive hx
  refine wp_seq_watched (hcall .getBestNumber x (by simp) (by simp) hx) fun bestNumber x hx => ?_
  refine (wp_get_bind ..).mpr ?_
  split
  · exact wp_start_watched .passive hx
  have hready : KeepsWatch config service leader block h
      (Orchestrator.serviceReadinessManagement config) x :=
    wp_watched (Orchestrator.onlyCalls_serviceReadinessManagement (by simp))
      (Orchestrator.maintains_serviceReadinessManagement (fun _ _ hs => hs) fun _ _ hs => hs) hx
  refine wp_seq_watched hready fun serviceReady x hx => ?_
  split
  · exact wp_start_watched .passive hx
  refine (wp_get_bind ..).mpr ?_
  split
  · exact wp_start_watched .passive hx
  refine wp_seq_watched (wp_leadershipManagement_watched hother hheard hx) fun leadership x hx => ?_
  split
  · exact wp_start_watched .passive hx
  refine wp_seq_watched (hcall (.getLeader config.group) x (by simp) (by simp) hx)
    fun currentLeader x hx => ?_
  split
  · exact wp_start_watched .active hx
  · exact hx

theorem wp_tick_watched (hother : config.nodeKey ≠ leader) (hmode : config.serviceMode ≠ "active")
    (hheard : Heard h config.aliveTime block leader) (hx : Watched config leader block h x) :
    KeepsWatch config service leader block h (Orchestrator.orchestrationLoop config) x := by
  refine wp_try (P := fun _ y => Watched config leader block h y)
    (demonic_mono _) _ _ x ?_ (fun _ _ hy => hy) fun _ _ hy => hy
  unfold Orchestrator.orchestrateService
  split
  · exact hx
  refine (wp_get_bind ..).mpr ?_
  split
  · exact hx
  split
  · exact wp_orchestrateOperatorService_watched hother hheard hx
  split
  · exact wp_start_watched .passive hx
  exact hx

end Node

/-! ### Runs -/

section Federation
variable [DecidableEq ι] {F : Operators ι α} {E : Serving ι α} {f f' : State ι α} {g : UInt32}
  {leader : α}

/-- Nobody else in the group is asked for active mode, and whoever ticks has heard
the leader recently. An outside call does not name the leader. -/
def Undisturbed (F : Operators ι α) (g : UInt32) (leader : α) (f : State ι α) : Act ι α → Prop
  | .extrinsic x => x.call ≠ .setLeader leader g ∧
    (x.call = .giveUpLeadership g → x.origin ≠ .signed leader)
  | .entry i e => (F.config i).group = g → (F.config i).nodeKey ≠ leader → e.claims →
    e = .tick ∧ (F.config i).serviceMode ≠ "active" ∧
      Heard (f.nodes i).orchestrator.heartbeats (F.config i).aliveTime f.block leader
  | _ => True

theorem undisturbed_step (hE : E.Within F) {act : Act ι α}
    (hleads : f.pallet.leaders g = some leader) (h : Happens F E f f' act)
    (hact : Undisturbed F g leader f act) : f'.pallet.leaders g = some leader := by
  by_cases hno : act.leads F g
  · cases act with
    | extrinsic x =>
      obtain ⟨-, rfl⟩ := h
      show (x.execute f.pallet).2.leaders g = some leader
      rcases Pallet.execute_cases x f.pallet with ⟨e, he⟩ | ⟨who, g', st, -, -, he⟩ |
        ⟨who, old, g', -, hc, he, hnamed⟩ | ⟨who, g', hw, hc, he, -, hgot⟩
      · rw [he]
        exact hleads
      · rw [he, Pallet.beat_leaders]
        exact hleads
      · by_cases hg : g = g'
        · subst hg
          obtain ⟨-, rfl⟩ := hnamed leader hleads
          exact absurd hc hact.1
        · rw [he, Pallet.lead_leaders_ne _ _ hg]
          exact hleads
      · by_cases hg : g = g'
        · subst hg
          have hwho : leader = who := by
            rw [← hgot, Pallet.Storage.getLeader, hleads]
            rfl
          subst hwho
          exact absurd hw (hact.2 hc)
        · rw [he, Pallet.unlead_leaders_ne _ _ hg]
          exact hleads
    | entry i e =>
      obtain ⟨hgroup, hclaims⟩ := hno
      subst hgroup
      by_cases hkey : (F.config i).nodeKey = leader
      · rcases happens_own hE h with hsame | hown
        · exact hsame.trans hleads
        · rw [hown, hkey]
      obtain ⟨rfl, hmode, hheard⟩ := hact rfl hkey hclaims
      obtain ⟨out, s, w, -, hrun, rfl⟩ := h
      have hwatched : Watched (F.config i) leader f.block (f.nodes i).orchestrator.heartbeats
          ((f.nodes i).orchestrator, f.world i) := ⟨hleads, rfl, rfl⟩
      exact (wp_runs (wp_tick_watched hkey hmode hheard hwatched) (runs_mono (hE i) hrun)).leads
    | block | crash i id | restart i | subscribe i | deliver i => exact hno.elim
  · exact (happens_leaders hE hno h).trans hleads

/-- The leader of a group stays while the other nodes of the group hear it, in
every run, whatever the chain clients of all nodes answer. -/
theorem leader_stays {acts : List (Act ι α)} (hleads : f.pallet.leaders g = some leader)
    (h : Course (Happens F F.serving) (Undisturbed F g leader) f acts f') :
    f'.pallet.leaders g = some leader := by
  apply h.keeps (I := fun f => f.pallet.leaders g = some leader) _ hleads
  intro s s' act hs hact hadmits
  exact undisturbed_step (fun _ _ _ _ _ hc => hc) hs hact hadmits

end Federation

/-- The other node ticks after a block and does not claim the group. -/
theorem leader_stays_leading : ∃ f', Course (Happens pair pair.serving) (Undisturbed pair 1 1)
    leading [.block, .entry true .tick] f' ∧ f'.pallet.leaders 1 = some 1 := by
  have hplayed : ∃ f', Happens pair pair.serving { leading with block := leading.block + 1 } f'
      (.entry true .tick) := played_entry (D := answer true (pair.config true) (pair.service true))
    (fun _ _ _ _ => answer_serve) (by decide +kernel) (by decide +kernel)
  obtain ⟨f', hentry⟩ := hplayed
  have hheard : (leading.nodes true).orchestrator.heartbeats.Alive 100 (leading.block + 1)
      (.address 1) := by decide +kernel
  have hcourse : Course (Happens pair pair.serving) (Undisturbed pair 1 1) leading
      [.block, .entry true .tick] f' := .cons rfl trivial
    (.cons hentry (fun _ _ _ => ⟨rfl, by decide, heard_of_alive hheard⟩) (.nil f'))
  exact ⟨f', hcourse, leader_stays (by decide +kernel) hcourse⟩

end Archipel.Federation
