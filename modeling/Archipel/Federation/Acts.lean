import Archipel.Federation.Safety
import Archipel.Chain.Nonce
import Archipel.Async.Success
import Archipel.Orchestrator.Liveness

/-!
# The acts of a federation

What the acts of a federation do to the chain, however the calls of each node
are served. Only an outside call or an entry of a node of the group changes the
leader of a group, and an entry sets no other leader than the account of its own
node.
-/

namespace Archipel.Federation
open Async
open Pallet (Storage Extrinsic)
open Polkadot (Mode)

variable {ι α : Type} [DecidableEq α] [Inhabited α]

/-- What a served call may answer is what it may answer in the federation. -/
def Serving.Within (E : Serving ι α) (F : Operators ι α) : Prop :=
  ∀ i c w r w', E i c w r w' → F.serving i c w r w'

section Acts
variable [DecidableEq ι] {F : Operators ι α} {E : Serving ι α} {f f' : State ι α}

theorem happens_mono (hE : E.Within F) {act : Act ι α} (h : Happens F E f f' act) :
    Happens F F.serving f f' act := by
  cases act with
  | extrinsic x | block | crash i id | restart i | subscribe i => exact h
  | entry i entry =>
    obtain ⟨out, s, w, hphase, hrun, rfl⟩ := h
    exact ⟨out, s, w, hphase, runs_mono (hE i) hrun, rfl⟩
  | deliver i =>
    obtain ⟨event, out, s, w, hphase, hevent, hrun, rfl⟩ := h
    exact ⟨event, out, s, w, hphase, hevent, runs_mono (hE i) hrun, rfl⟩

theorem happens_step (hE : E.Within F) {act : Act ι α} (h : Happens F E f f' act) :
    Step F f f' := ⟨act, happens_mono hE h⟩

theorem played_entry {i : ι} {entry : Entry} {D : Script (Orchestrator.api α) String (World α)}
    (hD : ∀ c w r w', D c w = some (r, w') → E i c w r w')
    (hphase : entry.admitted (f.nodes i).phase)
    (hplayed : (exec D (entry.code (F.config i)) ((f.nodes i).orchestrator, f.world i)).isSome) :
    ∃ f', Happens F E f f' (.entry i entry) := by
  obtain ⟨⟨out, s, w⟩, hexec⟩ := Option.isSome_iff_exists.mp hplayed
  exact ⟨_, out, s, w, hphase, exec_runs hD _ _ hexec, rfl⟩

end Acts

/-! ### The calls of the chain client -/

theorem rpc_quiet {block : ℕ} {c : Chain.Call α} {s s' : Storage α} {r : Except String c.Ret}
    (hc : c.quiet = true) (h : rpc block c s r s') : s' = s := by
  cases c with
  | account key | send transaction => cases hc
  | bestNumberFinalized | health => exact h
  | isConnected | bestNumber | leaders g | leadedGroup g | heartbeats key | setTimeout ms =>
    exact h.2
  | never => exact h.elim

theorem wp_quiet {β : Type} {block : ℕ} {m : Chain.Method α β}
    (hm : OnlyCalls (A := Chain.api α) (fun c => c.quiet = true) m) (x : Chain.State × Storage α) :
    wp (demonic (rpc block)) free m (fun _ y => y.2 = x.2) x := by
  apply wp_invariant (I := fun y => y.2 = x.2) (demonic_mono _) _ _ hm x rfl
  · exact fun _ _ hy => ⟨trivial, hy⟩
  · intro c hc y hy r w h
    exact (rpc_quiet hc h).trans hy

theorem onChain_quiet {β : Type} {m : Chain.Method α β}
    (hm : OnlyCalls (A := Chain.api α) (fun c => c.quiet = true) m) {w w' : World α}
    {r : Except String β} (h : onChain m w r w') : w'.pallet = w.pallet := by
  obtain ⟨chain, pallet, hr, rfl⟩ := h
  exact wp_runs (wp_quiet hm (w.chain, w.pallet)) hr

/-- A transaction is not executed or executed, whatever its updates are. -/
theorem wp_signAndSend {block : ℕ} {transaction : Chain.Transaction α}
    {isEvent : Pallet.Event α → Bool} (x : Chain.State × Storage α) :
    wp (demonic (rpc block)) free (Chain.signAndSend transaction isEvent) (fun _ y => y.2 = x.2 ∨
      y.2 = (Extrinsic.execute ⟨block, .signed transaction.signer, transaction.call⟩ x.2).2) x := by
  refine (wp_bind ..).mpr ((wp_call ..).mpr fun r s hsent => ?_)
  cases r with
  | error e => exact hsent
  | ok updates =>
    dsimp only
    cases Chain.settle isEvent updates with
    | some result => exact hsent
    | none => exact (wp_bind ..).mpr ((wp_call ..).mpr fun r s hnever => hnever.elim)

/-- The methods that send a transaction read the chain, then the nonce. -/
theorem wp_sender {block : ℕ} {key : α} {k : ℕ → Chain.Method α Bool} {Q : Storage α → Prop}
    (x : Chain.State × Storage α) (hx : Q x.2)
    (hk : ∀ nonce s, wp (demonic (rpc block)) free (k nonce) (fun _ y => Q y.2) (s, x.2)) :
    wp (demonic (rpc block)) free (do
      let sendTransaction ← Chain.canSendTransactions
      if sendTransaction then do
        let nonce ← Chain.request (.account key)
        k nonce
      else
        pure false) (fun _ y => Q y.2) x := by
  have hsame : ∀ s : Storage α, s = x.2 → Q s := by
    intro s hs
    rw [hs]
    exact hx
  refine wp_seq (demonic_mono _) _ _ x (wp_quiet Chain.quiet_canSendTransactions x) ?_
    fun _ y hy => hsame y.2 hy
  intro sendTransaction y hy
  split
  · refine (wp_bind ..).mpr ((wp_call ..).mpr fun nonce s hs => ?_)
    have hs : s = x.2 := Eq.trans (show s = y.2 from hs) hy
    subst hs
    cases nonce with
    | error e => exact hx
    | ok nonce => exact hk nonce y.1
  · exact hsame y.2 hy

theorem onChain_addHeartbeat {w w' : World α} {mode : String} {key : α} {g : UInt32}
    {r : Except String Bool} (h : onChain (Chain.addHeartbeat mode key g) w r w') :
    w'.pallet.leaders = w.pallet.leaders := by
  obtain ⟨chain, pallet, hr, rfl⟩ := h
  refine wp_runs (Q := fun _ y => y.2.leaders = w.pallet.leaders) ?_ hr
  refine wp_sender (Q := fun s => s.leaders = w.pallet.leaders) _ rfl fun nonce s => ?_
  refine wp_mono (demonic_mono _) _ ?_ _ (wp_signAndSend _)
  intro out y hy
  rcases hy with hy | hy
  · rw [hy]
  · rw [hy, Pallet.execute_addHeartbeat_signed, Pallet.beat_leaders]

/-- A claim takes the group from nobody, or from the account it names. -/
structure Taken (s s' : Storage α) (g : UInt32) (key : α) (old : Wallet α) : Prop where
  leads : s'.leaders g = some key
  named : ∀ leader, s.leaders g = some leader → key ≠ leader ∧ old = .address leader

theorem onChain_setLeader {w w' : World α} {old : Wallet α} {g : UInt32} {key : α}
    {r : Except String Bool} (h : onChain (Chain.setLeader old g key) w r w') :
    (∀ g', g' ≠ g → w'.pallet.leaders g' = w.pallet.leaders g') ∧
      (w'.pallet.leaders g = w.pallet.leaders g ∨ Taken w.pallet w'.pallet g key old) := by
  obtain ⟨chain, pallet, hr, rfl⟩ := h
  refine wp_runs (Q := fun _ y => (∀ g', g' ≠ g → y.2.leaders g' = w.pallet.leaders g') ∧
    (y.2.leaders g = w.pallet.leaders g ∨ Taken w.pallet y.2 g key old)) ?_ hr
  refine wp_sender (Q := fun s => (∀ g', g' ≠ g → s.leaders g' = w.pallet.leaders g') ∧
    (s.leaders g = w.pallet.leaders g ∨ Taken w.pallet s g key old)) _
    ⟨fun _ _ => rfl, .inl rfl⟩ fun nonce s => ?_
  cases old with
  | text t => exact ⟨fun _ _ => rfl, .inl rfl⟩
  | address old =>
    refine wp_mono (demonic_mono _) _ ?_ _ (wp_signAndSend _)
    intro out y hy
    rcases hy with hy | hy
    · rw [hy]
      exact ⟨fun _ _ => rfl, .inl rfl⟩
    · rw [hy]
      refine ⟨fun g' hg' => ?_, ?_⟩
      · apply Pallet.execute_leaders_frame
        simpa [Pallet.Call.leads] using Ne.symm hg'
      rcases Pallet.execute_cases ⟨w.block, .signed key, .setLeader old g⟩ w.pallet with
        ⟨e, he⟩ | ⟨who, g', st, -, hc, -⟩ | ⟨who, old', g', hw, hc, he, hnamed⟩ |
        ⟨who, g', -, hc, -⟩
      · rw [he]
        exact .inl rfl
      · cases hc
      · cases hw
        cases hc
        rw [he]
        refine .inr ⟨Pallet.lead_leaders_self .., fun leader hl => ?_⟩
        obtain ⟨hne, rfl⟩ := hnamed leader hl
        exact ⟨hne, rfl⟩
      · cases hc

/-! ### The leaders of the groups -/

/-- The calls that send a transaction. -/
def sends : Orchestrator.Call α → Bool
  | .setLeader _ _ | .addHeartbeat _ _ | .giveUpLeadership _ => true
  | _ => false

omit [DecidableEq α] [Inhabited α] in
theorem sends_claims {c : Orchestrator.Call α} (hc : sends c = false) :
    (∀ old g, c ≠ .setLeader old g) ∧ ∀ g, c ≠ .giveUpLeadership g := by
  cases c with
  | setLeader old g | giveUpLeadership g => cases hc
  | _ => simp

section Leaders
variable {config : Orchestrator.Config α} {service : Polkadot.Config} {w w' : World α}

theorem serve_block {c : Orchestrator.Call α} {r : Except String c.Ret}
    (h : serve config service c w r w') : w'.block = w.block := by
  cases c with
  | canSendTransactions | isConnected | getPeerNumber | getBestNumberFinalized | getSyncState
  | getBestNumber | getLeader g | isLeadedGroup g | getHeartbeat key | setLeader old g
  | addHeartbeat mode g | giveUpLeadership g | start mode | cleanUp | checkLaunchedContainer
  | getInfo =>
    obtain ⟨_, _, -, rfl⟩ := h
    rfl
  | getPeerId | bootstrap =>
    have hw' : w' = w := h
    rw [hw']
  | isServiceReadyToStart | setTimeout ms => rw [h.2]

theorem serve_quiet {c : Orchestrator.Call α} {r : Except String c.Ret} (hc : sends c = false)
    (h : serve config service c w r w') : w'.pallet = w.pallet := by
  cases c with
  | canSendTransactions => exact onChain_quiet Chain.quiet_canSendTransactions h
  | isConnected => exact onChain_quiet (onlyCalls_call rfl) h
  | getBestNumber =>
    exact onChain_quiet (m := Chain.getBestNumber)
      (onlyCalls_tryCatch (onlyCalls_call rfl) fun _ => trivial) h
  | getBestNumberFinalized =>
    exact onChain_quiet (m := Chain.getBestNumberFinalized)
      (onlyCalls_tryCatch (onlyCalls_call rfl) fun _ => trivial) h
  | isLeadedGroup g =>
    exact onChain_quiet (m := Chain.isLeadedGroup g)
      (onlyCalls_tryCatch (onlyCalls_call rfl) fun _ => trivial) h
  | getHeartbeat key =>
    exact onChain_quiet (m := Chain.getHeartbeat key)
      (onlyCalls_tryCatch (onlyCalls_call rfl) fun _ => trivial) h
  | getPeerNumber =>
    exact onChain_quiet (m := Chain.getPeerNumber)
      (onlyCalls_tryCatch (onlyCalls_bind (onlyCalls_call rfl) fun _ => trivial) fun _ => trivial) h
  | getSyncState =>
    exact onChain_quiet (m := Chain.getSyncState)
      (onlyCalls_tryCatch (onlyCalls_bind (onlyCalls_call rfl) fun _ => trivial) fun _ => trivial) h
  | getLeader g =>
    exact onChain_quiet (m := Chain.getLeader g)
      (onlyCalls_tryCatch (onlyCalls_bind (onlyCalls_call rfl) fun _ => trivial) fun _ => trivial) h
  | setLeader old g | addHeartbeat mode g | giveUpLeadership g => cases hc
  | start mode | cleanUp | checkLaunchedContainer | getInfo =>
    obtain ⟨_, _, -, rfl⟩ := h
    rfl
  | getPeerId | bootstrap =>
    have hw' : w' = w := h
    rw [hw']
  | isServiceReadyToStart | setTimeout ms => rw [h.2]

theorem serve_leaders {c : Orchestrator.Call α} {r : Except String c.Ret} {g : UInt32}
    (hset : ∀ old, c ≠ .setLeader old g) (hgive : ∀ g', c ≠ .giveUpLeadership g')
    (h : serve config service c w r w') : w'.pallet.leaders g = w.pallet.leaders g := by
  cases hc : sends c with
  | false => rw [serve_quiet hc h]
  | true =>
    cases c with
    | setLeader old g' =>
      have hne : g ≠ g' := fun heq => hset old (by rw [heq])
      exact (onChain_setLeader h).1 g hne
    | addHeartbeat mode g' => rw [onChain_addHeartbeat h]
    | giveUpLeadership g' => exact absurd rfl (hgive g')
    | _ => cases hc

/-- The calls of a node that claim no group but its own. -/
def Own (config : Orchestrator.Config α) (c : Orchestrator.Call α) : Prop :=
  (∀ old g, c = .setLeader old g → g = config.group) ∧ ∀ g, c ≠ .giveUpLeadership g

variable {β : Type} {m : Orchestrator.Method α β} {x y : Orchestrator.State α × World α}
  {out : Except String β}

theorem runs_block (h : Runs (serve config service) m x out y) : y.2.block = x.2.block := by
  refine wp_runs (wp_invariant (I := fun y => y.2.block = x.2.block) (demonic_mono _) ?_ ?_
    (onlyCalls_true m) x rfl) h
  · exact fun _ _ hy => ⟨trivial, hy⟩
  · intro c _ y hy r w hc
    exact (serve_block hc).trans hy

theorem runs_leaders {g : UInt32} (hm : OnlyCalls (A := Orchestrator.api α)
      (fun c => (∀ old, c ≠ .setLeader old g) ∧ ∀ g', c ≠ .giveUpLeadership g') m)
    (h : Runs (serve config service) m x out y) :
    y.2.pallet.leaders g = x.2.pallet.leaders g := by
  refine wp_runs (wp_invariant (I := fun y => y.2.pallet.leaders g = x.2.pallet.leaders g)
    (demonic_mono _) ?_ ?_ hm x rfl) h
  · exact fun _ _ hy => ⟨trivial, hy⟩
  · intro c hc y hy r w hserve
    exact (serve_leaders hc.1 hc.2 hserve).trans hy

/-- Every call of the block keeps the fact about the storage. -/
def KeptAt (block : ℕ) (P : Storage α → Prop) : Prop :=
  ∀ x : Extrinsic α, x.now = block → ∀ s, P s → P (x.execute s).2

variable {P : Storage α → Prop}

theorem rpc_kept {block : ℕ} (hP : KeptAt block P) {c : Chain.Call α} {s s' : Storage α}
    {r : Except String c.Ret} (hs : P s) (h : rpc block c s r s') : P s' := by
  cases c with
  | send transaction =>
    rcases h with rfl | rfl
    · exact hs
    · exact hP _ rfl _ hs
  | account key =>
    cases (show s' = s from h)
    exact hs
  | _ =>
    cases rpc_quiet rfl h
    exact hs

theorem onChain_kept (hP : KeptAt w.block P) {m : Chain.Method α β} {r : Except String β}
    (hw : P w.pallet) (h : onChain m w r w') : P w'.pallet := by
  obtain ⟨chain, pallet, hr, rfl⟩ := h
  refine wp_runs (wp_invariant (I := fun y => P y.2) (demonic_mono _) ?_ ?_ (onlyCalls_true m) _
    hw) hr
  · exact fun _ _ hy => ⟨trivial, hy⟩
  · exact fun _ _ _ hy _ _ hc => rpc_kept hP hy hc

theorem serve_kept (hP : KeptAt w.block P) {c : Orchestrator.Call α} {r : Except String c.Ret}
    (hw : P w.pallet) (h : serve config service c w r w') : P w'.pallet := by
  cases c with
  | canSendTransactions | isConnected | getPeerNumber | getBestNumberFinalized | getSyncState
  | getBestNumber | getLeader g | isLeadedGroup g | getHeartbeat key | setLeader old g
  | addHeartbeat mode g | giveUpLeadership g => exact onChain_kept hP hw h
  | start mode | cleanUp | checkLaunchedContainer | getInfo =>
    obtain ⟨_, _, -, rfl⟩ := h
    exact hw
  | getPeerId | bootstrap =>
    cases (show w' = w from h)
    exact hw
  | isServiceReadyToStart | setTimeout ms =>
    cases h.2
    exact hw

theorem runs_kept (hP : KeptAt x.2.block P) (hx : P x.2.pallet)
    (h : Runs (serve config service) m x out y) : P y.2.pallet := by
  have hboth : P y.2.pallet ∧ y.2.block = x.2.block := by
    refine wp_runs (wp_invariant (I := fun y => P y.2.pallet ∧ y.2.block = x.2.block)
      (demonic_mono _) ?_ ?_ (onlyCalls_true m) x ⟨hx, rfl⟩) h
    · exact fun _ _ hy => ⟨trivial, hy⟩
    · intro c _ y hy r w hc
      rw [← hy.2] at hP
      exact ⟨serve_kept hP hy.1 hc, (serve_block hc).trans hy.2⟩
  exact hboth.1

/-- A node claims its group for itself. -/
theorem runs_own (hm : OnlyCalls (A := Orchestrator.api α) (Own config) m)
    (h : Runs (serve config service) m x out y) :
    y.2.pallet.leaders config.group = x.2.pallet.leaders config.group ∨
      y.2.pallet.leaders config.group = some config.nodeKey := by
  refine wp_runs (wp_invariant (I := fun y =>
    y.2.pallet.leaders config.group = x.2.pallet.leaders config.group ∨
      y.2.pallet.leaders config.group = some config.nodeKey) (demonic_mono _) ?_ ?_ hm x
    (.inl rfl)) h
  · exact fun _ _ hy => ⟨trivial, hy⟩
  · intro c hc y hy r w hserve
    by_cases hset : ∃ old, c = .setLeader old config.group
    · obtain ⟨old, rfl⟩ := hset
      rcases (onChain_setLeader hserve).2 with hsame | htaken
      · rw [← hsame] at hy
        exact hy
      · exact .inr htaken.leads
    · have hsame := serve_leaders (fun old heq => hset ⟨old, heq⟩) hc.2 hserve
      rw [← hsame] at hy
      exact hy

end Leaders

/-! ### The acts that change a leader -/

section Entries
variable {config : Orchestrator.Config α} {p : Orchestrator.Call α → Prop}

omit [Inhabited α] in
theorem onlyCalls_forceActive
    (hp : ∀ c, sends c = false → p c)
    (hset : ∀ old, p (.setLeader old config.group)) :
    OnlyCalls (A := Orchestrator.api α) p (Orchestrator.forceActive config) := by
  have hactive : OnlyCalls (A := Orchestrator.api α) p (do
      let _ ← Orchestrator.serviceStart config .active
      pure true) := onlyCalls_bind
    (Orchestrator.onlyCalls_serviceStart .active (hp _ rfl)) fun _ => trivial
  unfold Orchestrator.forceActive
  split
  · trivial
  refine onlyCalls_bind (onlyCalls_call (hp _ rfl)) fun currentLeader => ?_
  split
  · exact hactive
  refine onlyCalls_bind (onlyCalls_call (hp _ rfl)) fun isLeadedGroup => ?_
  refine onlyCalls_bind (Orchestrator.onlyCalls_becomeLeader _ (hset _) fun ms =>
    hp _ rfl) fun becomeLeaderResult => ?_
  split
  · refine onlyCalls_bind (onlyCalls_call (hp _ rfl)) fun currentLeader => ?_
    split
    · exact hactive
    · trivial
  · trivial

omit [Inhabited α] in
theorem onlyCalls_orchestrateOperatorService
    (hp : ∀ c, sends c = false → p c)
    (hset : ∀ old, p (.setLeader old config.group)) : OnlyCalls (A := Orchestrator.api α) p
      (Orchestrator.orchestrateOperatorService config) := by
  have hstart : ∀ mode, OnlyCalls (A := Orchestrator.api α) p
      (do let _ ← Orchestrator.serviceStart config mode) := fun mode =>
    Orchestrator.onlyCalls_start_drop mode (hp _ rfl)
  refine onlyCalls_bind (onlyCalls_call (hp _ rfl)) fun sendTransaction => ?_
  split
  · exact hstart .passive
  refine onlyCalls_bind (onlyCalls_call (hp _ rfl)) fun bestNumber => ?_
  refine onlyCalls_bind onlyCalls_get fun s => ?_
  split
  · exact hstart .passive
  refine onlyCalls_bind (Orchestrator.onlyCalls_serviceReadinessManagement
    (hp _ rfl)) fun serviceReady => ?_
  split
  · exact hstart .passive
  refine onlyCalls_bind onlyCalls_get fun s => ?_
  split
  · exact hstart .passive
  refine onlyCalls_bind (Orchestrator.onlyCalls_leadershipManagement (hp _ rfl)
    (hp _ rfl) hset (hp _ rfl)
    fun ms => hp _ rfl) fun leadership => ?_
  split
  · exact hstart .passive
  refine onlyCalls_bind (onlyCalls_call (hp _ rfl)) fun currentLeader => ?_
  split
  · exact hstart .active
  · trivial

omit [Inhabited α] in
/-- Only the ticks and the API's call for active mode send claims, for the group of
their node, and only the heartbeat loop sends heartbeats. -/
theorem onlyCalls_entry (entry : Entry)
    (hp : ∀ c, sends c = false → p c)
    (hset : entry.claims → ∀ old, p (.setLeader old config.group))
    (hbeat : entry = .heartbeat → ∀ mode, p (.addHeartbeat mode config.group)) :
    OnlyCalls (A := Orchestrator.api α) p (entry.code config) := by
  have hstart : ∀ mode, OnlyCalls (A := Orchestrator.api α) p
      (do let _ ← Orchestrator.serviceStart config mode) := fun mode =>
    Orchestrator.onlyCalls_start_drop mode (hp _ rfl)
  cases entry with
  | tick =>
    have hset := hset (.inl rfl)
    refine onlyCalls_tryCatch ?_ fun _ => trivial
    unfold Orchestrator.orchestrateService
    split
    · trivial
    refine onlyCalls_bind onlyCalls_get fun s => ?_
    split
    · trivial
    split
    · exact onlyCalls_orchestrateOperatorService hp hset
    split
    · exact hstart .passive
    split
    · exact onlyCalls_bind (onlyCalls_forceActive hp hset) fun _ => trivial
    · trivial
  | heartbeat =>
    refine onlyCalls_tryCatch (onlyCalls_bind onlyCalls_get fun s => ?_) fun _ => trivial
    split
    · trivial
    · have hmode : OnlyCalls (A := Orchestrator.api α) p (Orchestrator.getServiceMode config) := by
        unfold Orchestrator.getServiceMode
        split
        · trivial
        · exact onlyCalls_bind Orchestrator.onlyCalls_theService fun _ => trivial
      exact onlyCalls_bind hmode fun mode =>
        onlyCalls_bind (onlyCalls_call (hbeat rfl mode)) fun _ => trivial
  | serviceStart mode =>
    show OnlyCalls _ (Orchestrator.routeServiceStart config mode)
    unfold Orchestrator.routeServiceStart
    split
    · trivial
    split
    · next hmode =>
      have hset := hset (.inr (by rw [hmode]))
      exact onlyCalls_bind (onlyCalls_forceActive hp hset) fun _ => trivial
    · exact hstart .passive
  | serviceStop =>
    exact onlyCalls_bind (Orchestrator.onlyCalls_serviceCleanUp (hp _ rfl))
      fun _ => trivial
  | disableOrchestration =>
    refine onlyCalls_bind (onlyCalls_bind onlyCalls_get fun s => ?_) fun _ => trivial
    split
    · exact onlyCalls_bind (onlyCalls_modify _) fun _ =>
        onlyCalls_bind (onlyCalls_call (hp _ rfl)) fun _ =>
          onlyCalls_bind (Orchestrator.onlyCalls_serviceStart .passive (hp _ rfl))
            fun _ => trivial
    · trivial
  | enableOrchestration | disableHeartbeats | enableHeartbeats =>
    refine onlyCalls_bind (onlyCalls_bind onlyCalls_get fun s => ?_) fun _ => trivial
    split
    · exact onlyCalls_bind (onlyCalls_modify _) fun _ => trivial
    · trivial

omit [Inhabited α] in
theorem onlyCalls_fill (wallets : List (Wallet α)) (hp : ∀ wallet, p (.getHeartbeat wallet)) :
    OnlyCalls (A := Orchestrator.api α) p (Orchestrator.fillHeartbeatsFromChain wallets) := by
  induction wallets with
  | nil => trivial
  | cons wallet wallets ih =>
    exact onlyCalls_bind (onlyCalls_call (hp wallet)) fun _ =>
      onlyCalls_bind (onlyCalls_modify _) fun _ => ih

omit [Inhabited α] in
theorem onlyCalls_bootstrap (hp : ∀ c, sends c = false → p c) :
    OnlyCalls (A := Orchestrator.api α) p (Orchestrator.bootstrapOrchestrator config) := by
  unfold Orchestrator.bootstrapOrchestrator
  split
  · trivial
  refine onlyCalls_bind (Orchestrator.onlyCalls_serviceCleanUp (hp _ rfl)) fun _ => ?_
  refine onlyCalls_bind Orchestrator.onlyCalls_theService fun _ => ?_
  refine onlyCalls_bind (onlyCalls_call (hp _ rfl)) fun _ => ?_
  refine onlyCalls_bind (Orchestrator.onlyCalls_serviceStart .passive (hp _ rfl)) fun _ => ?_
  split
  · trivial
  · exact onlyCalls_fill _ fun _ => hp _ rfl

omit [Inhabited α] in
theorem onlyCalls_onEvent (event : Pallet.Event α) (hp : p (.start .passive)) :
    OnlyCalls (A := Orchestrator.api α) p (Orchestrator.onEvent config event) := by
  cases event with
  | newLeader who groupId =>
    show OnlyCalls (A := Orchestrator.api α) p (if _ then _ else _)
    split
    · exact Orchestrator.onlyCalls_start_drop .passive hp
    · trivial
  | newHeartbeat who groupId nodeStatus now => exact onlyCalls_modify _
  | giveUpLeader who groupId => trivial

/-! ### What the entries do to the fields -/

variable {I : Orchestrator.State α → Prop}

omit [Inhabited α] in
theorem maintains_orchestrationLoop (hmode : ∀ s mode, I s → I (s.inMode mode))
    (hflag : ∀ s flag, I s → I { s with heartbeatSendEnabled := flag })
    (hcount : ∀ s count, I s → I { s with noReadyCount := count })
    (hsilent : ∀ s n, I s → I { s with noLivenessFromLeader := n }) :
    Maintains (A := Orchestrator.api α) I (Orchestrator.orchestrationLoop config) := by
  have hpassive : Maintains (A := Orchestrator.api α) I
      (do let _ ← Orchestrator.serviceStart config .passive) :=
    Orchestrator.maintains_start_drop .passive fun s => hmode s .passive
  refine maintains_tryCatch ?_ fun _ => trivial
  unfold Orchestrator.orchestrateService
  split
  · trivial
  refine maintains_get_bind fun s _ => ?_
  split
  · trivial
  split
  · refine maintains_bind (maintains_call _) fun sendTransaction => ?_
    split
    · exact hpassive
    refine maintains_bind (maintains_call _) fun bestNumber => maintains_get_bind fun s _ => ?_
    split
    · exact hpassive
    refine maintains_bind (Orchestrator.maintains_serviceReadinessManagement hflag hcount)
      fun serviceReady => ?_
    split
    · exact hpassive
    refine maintains_get_bind fun s _ => ?_
    split
    · exact hpassive
    · exact Orchestrator.maintains_lead hsilent hmode
  split
  · exact hpassive
  split
  · exact maintains_bind (Orchestrator.maintains_forceActive hmode) fun _ => trivial
  · trivial

omit [Inhabited α] in
/-- Apart from the ticks an entry writes the mode of the service and the two
switches of the operator. -/
theorem maintains_entry (entry : Entry) (hmode : ∀ s mode, I s → I (s.inMode mode))
    (horch : ∀ s flag, I s → I { s with orchestrationEnabled := flag })
    (hadmin : ∀ s flag, I s → I { s with heartbeatSendEnabledAdmin := flag })
    (htick : entry = .tick →
      Maintains (A := Orchestrator.api α) I (Orchestrator.orchestrationLoop config)) :
    Maintains (A := Orchestrator.api α) I (entry.code config) := by
  cases entry with
  | tick => exact htick rfl
  | heartbeat =>
    refine maintains_tryCatch (maintains_get_bind fun s _ => ?_) fun _ => trivial
    split
    · trivial
    · have hread : Maintains (A := Orchestrator.api α) I (Orchestrator.getServiceMode config) := by
        unfold Orchestrator.getServiceMode
        split
        · trivial
        · exact maintains_bind Orchestrator.maintains_theService fun _ => trivial
      exact maintains_bind hread fun _ => maintains_bind (maintains_call _) fun _ => trivial
  | serviceStart mode =>
    show Maintains _ (Orchestrator.routeServiceStart config mode)
    unfold Orchestrator.routeServiceStart
    split
    · trivial
    split
    · exact maintains_bind (Orchestrator.maintains_forceActive hmode) fun _ => trivial
    · exact Orchestrator.maintains_start_drop .passive fun s => hmode s .passive
  | serviceStop => exact maintains_bind Orchestrator.maintains_serviceCleanUp fun _ => trivial
  | disableOrchestration =>
    refine maintains_bind (maintains_get_bind fun s _ => ?_) fun _ => trivial
    split
    · exact maintains_bind (maintains_modify fun s => horch s false) fun _ =>
        maintains_bind (maintains_call _) fun _ =>
          maintains_bind (Orchestrator.maintains_serviceStart .passive fun s => hmode s .passive)
            fun _ => trivial
    · trivial
  | enableOrchestration =>
    refine maintains_bind (maintains_get_bind fun s _ => ?_) fun _ => trivial
    split
    · exact maintains_bind (maintains_modify fun s => horch s true) fun _ => trivial
    · trivial
  | disableHeartbeats =>
    refine maintains_bind (maintains_get_bind fun s _ => ?_) fun _ => trivial
    split
    · exact maintains_bind (maintains_modify fun s => hadmin s false) fun _ => trivial
    · trivial
  | enableHeartbeats =>
    refine maintains_bind (maintains_get_bind fun s _ => ?_) fun _ => trivial
    split
    · exact maintains_bind (maintains_modify fun s => hadmin s true) fun _ => trivial
    · trivial

omit [Inhabited α] in
theorem maintains_onEvent (event : Pallet.Event α) (hmode : ∀ s mode, I s → I (s.inMode mode))
    (hbeat : ∀ s h, I s → I { s with heartbeats := h }) :
    Maintains (A := Orchestrator.api α) I (Orchestrator.onEvent config event) := by
  cases event with
  | newLeader who groupId =>
    show Maintains (A := Orchestrator.api α) I (if _ then _ else _)
    split
    · exact Orchestrator.maintains_start_drop .passive fun s => hmode s .passive
    · trivial
  | newHeartbeat who groupId nodeStatus now => exact maintains_modify fun s => hbeat s _
  | giveUpLeader who groupId => trivial

end Entries

section Federation
variable [DecidableEq ι] {F : Operators ι α} {E : Serving ι α} {f f' : State ι α} {g : UInt32}

/-- A fact about the storage that every call of the block keeps is kept by the
acts of the block. -/
theorem happens_kept (hE : E.Within F) {act : Act ι α} {P : Storage α → Prop}
    (hP : KeptAt f.block P) (hf : P f.pallet) (hact : act ≠ .block) (h : Happens F E f f' act) :
    P f'.pallet ∧ f'.block = f.block := by
  cases act with
  | extrinsic x =>
    obtain ⟨hnow, rfl⟩ := h
    exact ⟨hP x hnow _ hf, rfl⟩
  | block => exact absurd rfl hact
  | crash i id =>
    cases h
    exact ⟨hf, rfl⟩
  | subscribe i =>
    obtain ⟨-, rfl⟩ := h
    exact ⟨hf, rfl⟩
  | restart i =>
    obtain ⟨connected, chain, pallet, out, s, w, -, hrun, rfl⟩ := h
    exact ⟨runs_kept hP hf hrun, rfl⟩
  | entry i e =>
    obtain ⟨out, s, w, -, hrun, rfl⟩ := h
    exact ⟨runs_kept hP hf (runs_mono (hE i) hrun), rfl⟩
  | deliver i =>
    obtain ⟨event, out, s, w, -, -, hrun, rfl⟩ := h
    exact ⟨runs_kept hP hf (runs_mono (hE i) hrun), rfl⟩

/-- The acts that may change the leader of the group: an outside call that leads
it, and a claim of one of its nodes. -/
def Act.leads (F : Operators ι α) (g : UInt32) : Act ι α → Prop
  | .extrinsic x => x.call.leads g = true
  | .entry i e => (F.config i).group = g ∧ e.claims
  | _ => False

theorem happens_leaders (hE : E.Within F) {act : Act ι α} (hact : ¬ act.leads F g)
    (h : Happens F E f f' act) : f'.pallet.leaders g = f.pallet.leaders g := by
  cases act with
  | extrinsic x =>
    obtain ⟨-, rfl⟩ := h
    have hframe : x.call.leads g = false := by simpa [Act.leads] using hact
    exact Pallet.execute_leaders_frame x f.pallet g hframe
  | block | crash i id =>
    cases h
    rfl
  | restart i =>
    obtain ⟨connected, chain, pallet, out, s, w, hconnect, hrun, rfl⟩ := h
    exact runs_leaders (onlyCalls_bootstrap
      fun c hc => ⟨fun old => (sends_claims hc).1 old g, (sends_claims hc).2⟩) hrun
  | subscribe i =>
    obtain ⟨-, rfl⟩ := h
    rfl
  | entry i entry =>
    obtain ⟨out, s, w, -, hrun, rfl⟩ := h
    refine runs_leaders (onlyCalls_entry entry
      (fun c hc => ⟨fun old => (sends_claims hc).1 old g, (sends_claims hc).2⟩)
      (fun hclaims old => ⟨fun old' heq => hact ⟨?_, hclaims⟩, by simp⟩) (by simp))
      (runs_mono (hE i) hrun)
    cases heq
    rfl
  | deliver i =>
    obtain ⟨event, out, s, w, -, -, hrun, rfl⟩ := h
    exact runs_leaders (onlyCalls_onEvent event (by simp)) (runs_mono (hE i) hrun)

theorem happens_own (hE : E.Within F) {i : ι} {entry : Entry}
    (h : Happens F E f f' (.entry i entry)) :
    f'.pallet.leaders (F.config i).group = f.pallet.leaders (F.config i).group ∨
      f'.pallet.leaders (F.config i).group = some (F.config i).nodeKey := by
  obtain ⟨out, s, w, -, hrun, rfl⟩ := h
  refine runs_own (onlyCalls_entry entry (fun c hc => ⟨?_, (sends_claims hc).2⟩)
    (fun _ old => ⟨?_, by simp⟩) fun _ mode => ⟨by simp, by simp⟩) (runs_mono (hE i) hrun)
  · intro old g heq
    exact absurd heq ((sends_claims hc).1 old g)
  · intro old' g heq
    cases heq
    rfl

end Federation

end Archipel.Federation
