import Archipel.Federation.Failover

/-!
# The failure detector of a federation

What a node knows of the heartbeats of an account lies between the last
heartbeat that was delivered to it and the last one on the chain, whatever
restarts, failed reads and late deliveries the run has.
-/

namespace Archipel.Federation
open Async
open Pallet (Storage Extrinsic Event)

variable {ι α : Type} [DecidableEq α] [Inhabited α]

/-! ### The heartbeats of the chain -/

/-- The block of a heartbeat event. -/
def beatBlock : Event α → Option ℕ
  | .newHeartbeat _ _ _ now => some now
  | _ => none

/-- The heartbeats of the chain were executed in the order of their blocks, and
the storage has the last one of each account. -/
structure Dated (s : Storage α) (block : ℕ) : Prop where
  sorted : s.events.Pairwise fun e e' => ∀ n ∈ beatBlock e, ∀ m ∈ beatBlock e', n ≤ m
  past : ∀ e ∈ s.events, ∀ n ∈ beatBlock e, n ≤ block
  stored : ∀ who g st n, .newHeartbeat who g st n ∈ s.events → n ≤ s.getHeartbeat who
  bound : ∀ who, s.getHeartbeat who ≤ block

/-- No account has an older heartbeat than before. -/
def Later (s s' : Storage α) : Prop := ∀ who, s.getHeartbeat who ≤ s'.getHeartbeat who

omit [Inhabited α] in
theorem getHeartbeat_beat (s : Storage α) (who other : α) (g st : UInt32) (now : ℕ) :
    (s.beat who g st now).getHeartbeat other =
      if other = who then now else s.getHeartbeat other := by
  simp only [Storage.getHeartbeat, Storage.beat, Function.update_apply]
  split <;> rfl

omit [Inhabited α] in
theorem dated_quiet {s s' : Storage α} {block : ℕ} {e : Event α} (h : Dated s block)
    (he : beatBlock e = none) (hevents : s'.events = s.events ++ [e])
    (hbeats : s'.heartbeats = s.heartbeats) : Dated s' block := by
  have hget : ∀ who, s'.getHeartbeat who = s.getHeartbeat who := fun who => by
    rw [Storage.getHeartbeat, hbeats]
    rfl
  have hmem : ∀ {e'}, e' ∈ s'.events → ∀ n ∈ beatBlock e', e' ∈ s.events := by
    intro e' hmem n hn
    rw [hevents, List.mem_append, List.mem_singleton] at hmem
    rcases hmem with hmem | rfl
    · exact hmem
    · rw [he] at hn
      cases hn
  refine ⟨?_, fun e' hm n hn => h.past e' (hmem hm n hn) n hn, ?_, fun who => ?_⟩
  · rw [hevents, List.pairwise_append]
    refine ⟨h.sorted, List.pairwise_singleton .., fun e' _ e'' hlast n _ m hm => ?_⟩
    rw [List.mem_singleton.mp hlast, he] at hm
    cases hm
  · intro who g st n hm
    rw [hget]
    exact h.stored who g st n (hmem hm n rfl)
  · rw [hget]
    exact h.bound who

theorem dated_execute (x : Extrinsic α) {s : Storage α} (h : Dated s x.now) :
    Dated (x.execute s).2 x.now ∧ Later s (x.execute s).2 := by
  rcases Pallet.execute_cases x s with ⟨e, he⟩ | ⟨who, g, st, -, -, he⟩ |
    ⟨who, old, g, -, -, he, -⟩ | ⟨who, g, -, -, he, -⟩
  · rw [he]
    exact ⟨h, fun _ => le_refl _⟩
  · rw [he]
    refine ⟨⟨?_, ?_, ?_, ?_⟩, ?_⟩
    · show (s.events ++ [_]).Pairwise _
      rw [List.pairwise_append]
      refine ⟨h.sorted, List.pairwise_singleton .., fun e' hmem e'' hlast n hn m hm => ?_⟩
      rw [List.mem_singleton.mp hlast] at hm
      cases hm
      exact h.past e' hmem n hn
    · intro e' hmem n hn
      rcases List.mem_append.mp hmem with hmem | hmem
      · exact h.past e' hmem n hn
      · rw [List.mem_singleton.mp hmem] at hn
        cases hn
        exact le_refl _
    · intro other g' st' n hmem
      rw [getHeartbeat_beat]
      rcases List.mem_append.mp hmem with hmem | hmem
      · split
        · exact h.past _ hmem n rfl
        · exact h.stored other g' st' n hmem
      · cases List.mem_singleton.mp hmem
        rw [if_pos rfl]
    · intro other
      rw [getHeartbeat_beat]
      split
      · exact le_refl _
      · exact h.bound other
    · intro other
      rw [getHeartbeat_beat]
      split
      · exact h.bound other
      · exact le_refl _
  · rw [he]
    exact ⟨dated_quiet h (e := .newLeader who g) rfl rfl rfl, fun _ => le_refl _⟩
  · rw [he]
    exact ⟨dated_quiet h (e := .giveUpLeader who g) rfl rfl rfl, fun _ => le_refl _⟩

section Node
variable {config : Orchestrator.Config α} {service : Polkadot.Config} {w w' : World α}

theorem runs_dated {β : Type} {m : Orchestrator.Method α β}
    {x y : Orchestrator.State α × World α} {out : Except String β}
    (hx : Dated x.2.pallet x.2.block) (h : Runs (serve config service) m x out y) :
    Dated y.2.pallet y.2.block ∧ Later x.2.pallet y.2.pallet := by
  have hkept : KeptAt x.2.block fun s => Dated s x.2.block ∧ Later x.2.pallet s := by
    rintro e hnow s ⟨hdated, hlater⟩
    rw [← hnow] at hdated ⊢
    obtain ⟨hdated', hlater'⟩ := dated_execute e hdated
    exact ⟨hdated', fun who => (hlater who).trans (hlater' who)⟩
  rw [runs_block h]
  exact runs_kept hkept ⟨hx, fun _ => le_refl _⟩ h

/-! ### The records of a node -/

/-- No record of an account is later than its last heartbeat on the chain. -/
def Bounded (h : Heartbeats α) (s : Storage α) : Prop :=
  ∀ who record, h.getHeartbeat (.address who) = some record →
    record.blockNumber ≤ s.getHeartbeat who

omit [Inhabited α] in
theorem Bounded.later {h : Heartbeats α} {s s' : Storage α} (hs : Bounded h s)
    (hlater : Later s s') : Bounded h s' :=
  fun who record hrecord => (hs who record hrecord).trans (hlater who)

omit [Inhabited α] in
theorem bounded_new (nodes : List (Wallet α × String)) (s : Storage α) :
    Bounded (.new nodes) s := by
  intro who record hrecord
  cases hrecord

omit [Inhabited α] in
theorem Bounded.add {h : Heartbeats α} {s : Storage α} (hs : Bounded h s) {wallet : Wallet α}
    {n : ℕ} (hn : ∀ who, wallet = .address who → n ≤ s.getHeartbeat who) (g st : ℕ) :
    Bounded (h.addHeartbeat wallet g st n) s := by
  intro who record hrecord
  by_cases hwho : .address who = wallet
  · subst hwho
    obtain ⟨name, hadded⟩ := h.getHeartbeat_addHeartbeat_self (.address who) g st n
    rw [hadded] at hrecord
    cases hrecord
    exact hn who rfl
  · rw [h.getHeartbeat_addHeartbeat_ne hwho] at hrecord
    exact hs who record hrecord

theorem onChain_getHeartbeat {wallet : Wallet α} {r : Except String ℕ}
    (h : onChain (Chain.getHeartbeat wallet) w r w') : w'.pallet = w.pallet ∧
      ∃ n, r = .ok n ∧ ∀ who, wallet = .address who → n ≤ w.pallet.getHeartbeat who := by
  obtain ⟨chain, pallet, hr, rfl⟩ := h
  refine wp_runs (Q := fun out y => y.2 = w.pallet ∧ ∃ n, out = .ok n ∧
    ∀ who, wallet = .address who → n ≤ w.pallet.getHeartbeat who) ?_ hr
  refine (wp_tryCatch ..).mpr ((wp_call ..).mpr ?_)
  rintro r s ⟨hread, rfl⟩
  rcases hread with ⟨who, rfl, rfl⟩ | ⟨e, rfl⟩
  · exact ⟨rfl, _, rfl, fun other heq => by cases heq; exact le_refl _⟩
  · exact ⟨rfl, 0, rfl, fun _ _ => Nat.zero_le _⟩

theorem wp_fill_bounded (wallets : List (Wallet α)) (x : Orchestrator.State α × World α)
    (hx : Bounded x.1.heartbeats x.2.pallet) : wp (demonic (serve config service)) free
      (Orchestrator.fillHeartbeatsFromChain wallets)
      (fun _ y => Bounded y.1.heartbeats y.2.pallet) x := by
  induction wallets generalizing x with
  | nil => exact hx
  | cons wallet wallets ih =>
    refine (wp_bind ..).mpr ((wp_call ..).mpr fun r w hread => ?_)
    obtain ⟨hpallet, n, rfl, hn⟩ := onChain_getHeartbeat hread
    refine (wp_modify_bind ..).mpr ⟨trivial, ih _ ?_⟩
    show Bounded _ w.pallet
    rw [hpallet]
    exact hx.add hn 0 0

/-- A restart begins with an empty map and fills it with what the chain has. -/
theorem wp_bootstrap_bounded : wp (demonic (serve config service)) free
    (Orchestrator.bootstrapOrchestrator config)
    (fun _ y => Bounded y.1.heartbeats y.2.pallet) (.init config, w) := by
  have hnew : ∀ y : Orchestrator.State α × World α,
      y.1.heartbeats = .new config.nodes → Bounded y.1.heartbeats y.2.pallet := by
    intro y hy
    rw [hy]
    exact bounded_new _ _
  have hkeeps : ∀ {β : Type} {m : Orchestrator.Method α β},
      Maintains (A := Orchestrator.api α) (fun s => s.heartbeats = .new config.nodes) m →
      ∀ y : Orchestrator.State α × World α, y.1.heartbeats = .new config.nodes →
      wp (demonic (serve config service)) free m
        (fun _ y => y.1.heartbeats = .new config.nodes) y :=
    fun hm y hy => wp_maintains hm y hy
  unfold Orchestrator.bootstrapOrchestrator
  split
  · exact hnew _ rfl
  refine wp_seq (demonic_mono _) _ _ _ (hkeeps Orchestrator.maintains_serviceCleanUp _ rfl)
    (fun _ y hy => ?_) fun _ y hy => hnew y hy
  refine wp_seq (demonic_mono _) _ _ _ (hkeeps Orchestrator.maintains_theService y hy)
    (fun _ y hy => ?_) fun _ y hy => hnew y hy
  refine wp_seq (demonic_mono _) _ _ _
    (hkeeps (maintains_call (A := Orchestrator.api α) .bootstrap) y hy)
    (fun _ y hy => ?_) fun _ y hy => hnew y hy
  refine wp_seq (demonic_mono _) _ _ _
    (hkeeps (Orchestrator.maintains_serviceStart .passive fun _ hs => hs) y hy)
    (fun serviceStart y hy => ?_) fun _ y hy => hnew y hy
  split
  · exact hnew y hy
  · exact wp_fill_bounded _ y (hnew y hy)

end Node

omit [Inhabited α] in
/-- The listener writes the heartbeat of the event and no other. -/
theorem wp_onEvent_heartbeats {E : Env (Orchestrator.api α) String (World α)}
    {config : Orchestrator.Config α} (event : Event α) (x : Orchestrator.State α × World α) :
    wp (demonic E) free (Orchestrator.onEvent config event) (fun _ y =>
      y.1.heartbeats = match event with
        | .newHeartbeat who g st now =>
          x.1.heartbeats.addHeartbeat (.address who) g.toNat st.toNat now
        | _ => x.1.heartbeats) x := by
  cases event with
  | newLeader who g =>
    show wp _ _ (if _ then _ else _) _ _
    split
    · exact wp_maintains (I := fun s : Orchestrator.State α => s.heartbeats = x.1.heartbeats)
        (Orchestrator.maintains_start_drop .passive fun _ h => h) x rfl
    · rfl
  | newHeartbeat who g st now => exact ⟨trivial, rfl⟩
  | giveUpLeader who g => rfl

omit [Inhabited α] in
/-- Only the listener and a restart write heartbeats. -/
theorem entry_heartbeats {config : Orchestrator.Config α} (entry : Entry) (h : Heartbeats α) :
    Maintains (A := Orchestrator.api α) (fun s => s.heartbeats = h) (entry.code config) :=
  maintains_entry entry (fun _ _ h => h) (fun _ _ h => h) (fun _ _ h => h) fun _ =>
    maintains_orchestrationLoop (fun _ _ h => h) (fun _ _ h => h) (fun _ _ h => h) fun _ _ h => h

/-! ### Every reachable federation -/

section Federation
variable [DecidableEq ι] {F : Operators ι α} {E : Serving ι α} {f f' : State ι α}

/-- The chain is dated and the records of the running nodes are bounded by it. -/
structure Detects (F : Operators ι α) (f : State ι α) : Prop where
  dated : Dated f.pallet f.block
  bounded : ∀ i, (f.nodes i).phase ≠ .stopped →
    Bounded (f.nodes i).orchestrator.heartbeats f.pallet

omit [Inhabited α] in
theorem detects_leave {f : State ι α} {i : ι} {phase : Phase} {delivered : ℕ}
    {s : Orchestrator.State α} {w : World α} (hf : Detects F f) (hblock : w.block = f.block)
    (hw : Dated w.pallet w.block ∧ Later f.pallet w.pallet)
    (hs : phase ≠ .stopped → Bounded s.heartbeats w.pallet) :
    Detects F (f.leave i phase delivered s w) := by
  refine ⟨?_, fun j hj => ?_⟩
  · show Dated w.pallet f.block
    rw [← hblock]
    exact hw.1
  · by_cases hji : i = j
    · subst hji
      rw [nodes_leave_self] at hj ⊢
      exact hs hj
    · have hnode : (f.leave i phase delivered s w).nodes j = f.nodes j :=
        nodes_setNode_ne _ _ hji
      rw [hnode] at hj ⊢
      exact (hf.bounded j hj).later hw.2

theorem detects_step (hf : Detects F f) (h : Step F f f') : Detects F f' := by
  obtain ⟨act, h⟩ := h
  cases act with
  | extrinsic x =>
    obtain ⟨hnow, rfl⟩ := h
    obtain ⟨hdated, hlater⟩ := dated_execute x (hnow ▸ hf.dated)
    rw [hnow] at hdated
    exact ⟨hdated, fun i hi => (hf.bounded i hi).later hlater⟩
  | block =>
    cases h
    refine ⟨⟨hf.dated.sorted, fun e hm n hn => (hf.dated.past e hm n hn).trans (Nat.le_succ _),
      hf.dated.stored, fun who => (hf.dated.bound who).trans (Nat.le_succ _)⟩, hf.bounded⟩
  | crash i id =>
    cases h
    refine ⟨hf.dated, fun j hj => ?_⟩
    by_cases hji : i = j
    · subst hji
      rw [nodes_setNode_self] at hj ⊢
      exact hf.bounded i hj
    · rw [nodes_setNode_ne _ _ hji] at hj ⊢
      exact hf.bounded j hj
  | subscribe i =>
    obtain ⟨hphase, rfl⟩ := h
    refine ⟨hf.dated, fun j hj => ?_⟩
    by_cases hji : i = j
    · subst hji
      rw [nodes_setNode_self]
      exact hf.bounded i (by rw [hphase]; decide)
    · rw [nodes_setNode_ne _ _ hji] at hj ⊢
      exact hf.bounded j hj
  | restart i =>
    obtain ⟨connected, chain, pallet, out, s, w, -, hrun, rfl⟩ := h
    exact detects_leave hf (runs_block hrun) (runs_dated hf.dated hrun)
      fun _ => wp_runs wp_bootstrap_bounded hrun
  | entry i entry =>
    obtain ⟨out, s, w, -, hrun, rfl⟩ := h
    have hsame : s.heartbeats = _ := wp_runs (wp_maintains (entry_heartbeats entry _) _ rfl) hrun
    have hdated := runs_dated hf.dated hrun
    refine detects_leave hf (runs_block hrun) hdated fun hne => ?_
    rw [hsame]
    exact (hf.bounded i hne).later hdated.2
  | deliver i =>
    obtain ⟨event, out, s, w, hphase, hevent, hrun, rfl⟩ := h
    have hdated := runs_dated hf.dated hrun
    have hbounded := hf.bounded i (by rw [hphase]; decide)
    refine detects_leave hf (runs_block hrun) hdated fun _ => ?_
    have hbeats := wp_runs (wp_onEvent_heartbeats event _) hrun
    cases event with
    | newHeartbeat who g st now =>
      have hnow := hf.dated.stored who g st now (List.mem_of_getElem? hevent)
      have hbeats : s.heartbeats = _ := hbeats
      rw [hbeats]
      refine (hbounded.later hdated.2).add ?_ _ _
      intro other heq
      cases heq
      exact hnow.trans (hdated.2 who)
    | newLeader who g | giveUpLeader who g =>
      have hbeats : s.heartbeats = _ := hbeats
      rw [hbeats]
      exact hbounded.later hdated.2

theorem detects_reachable (hf : Reachable F f) : Detects F f := by
  obtain ⟨f₀, ⟨hpallet, hinit⟩, hsteps⟩ := hf
  induction hsteps with
  | refl =>
    refine ⟨?_, fun i hi => absurd (hinit i).1 hi⟩
    rw [hpallet]
    exact ⟨List.Pairwise.nil, fun e hm => (nomatch hm), fun who g st n hm => (nomatch hm),
      fun _ => Nat.zero_le _⟩
  | tail _ hstep ih => exact detects_step ih hstep

/-! ### A heartbeat that was delivered -/

/-- A heartbeat of the account at the block was delivered to the node, and its
record is not older. -/
structure Knows (f : State ι α) (i : ι) (who : α) (n : ℕ) : Prop where
  subscribed : (f.nodes i).phase = .subscribed
  record : ∃ record, (f.nodes i).orchestrator.heartbeats.getHeartbeat (.address who) = some record ∧
    n ≤ record.blockNumber
  delivered : ∃ k g st, k < (f.nodes i).delivered ∧
    f.pallet.events[k]? = some (.newHeartbeat who g st n)

omit [Inhabited α] in
theorem Dated.ordered {s : Storage α} {block : ℕ} (h : Dated s block) {j k : ℕ} (hjk : j < k)
    {who other : α} {g st g' st' : UInt32} {n m : ℕ}
    (hj : s.events[j]? = some (.newHeartbeat who g st n))
    (hk : s.events[k]? = some (.newHeartbeat other g' st' m)) : n ≤ m := by
  obtain ⟨hjlt, hj⟩ := List.getElem?_eq_some_iff.mp hj
  obtain ⟨hklt, hk⟩ := List.getElem?_eq_some_iff.mp hk
  have hsorted := List.pairwise_iff_getElem.mp h.sorted j k hjlt hklt hjk
  rw [hj, hk] at hsorted
  exact hsorted n rfl m rfl

theorem getElem?_prefix {β : Type} {l l' : List β} (h : l <+: l') {k : ℕ} {b : β}
    (hk : l[k]? = some b) : l'[k]? = some b := by
  obtain ⟨t, rfl⟩ := h
  obtain ⟨hlt, -⟩ := List.getElem?_eq_some_iff.mp hk
  rw [List.getElem?_append_left hlt]
  exact hk

/-- A delivery leaves the record of the event, or the record that was there. -/
theorem knows_deliver {i : ι} {who : α} {n : ℕ} (hE : E.Within F) (hf : Detects F f)
    (hold : (∃ record, (f.nodes i).orchestrator.heartbeats.getHeartbeat (.address who) =
        some record ∧ n ≤ record.blockNumber) ∧
      (∃ k g st, k < (f.nodes i).delivered ∧
        f.pallet.events[k]? = some (.newHeartbeat who g st n)) ∨
      ∃ g st, f.pallet.events[(f.nodes i).delivered]? = some (.newHeartbeat who g st n))
    (h : Happens F E f f' (.deliver i)) : Knows f' i who n := by
  have hevents := (happens_advances hE h).events
  obtain ⟨event, out, s, w, hphase, hevent, hrun, rfl⟩ := h
  have hbeats : s.heartbeats = _ := wp_runs (wp_onEvent_heartbeats event _) hrun
  have hnode := nodes_leave_self f i .subscribed ((f.nodes i).delivered + 1) s w
  refine ⟨by rw [hnode], ?_, ?_⟩
  · rw [hnode]
    dsimp only
    rw [hbeats]
    by_cases hthis : ∃ g st m, event = .newHeartbeat who g st m
    · obtain ⟨g, st, m, rfl⟩ := hthis
      have hnm : n ≤ m := by
        rcases hold with ⟨-, k, g', st', hk, hkn⟩ | ⟨g', st', hkn⟩
        · exact hf.dated.ordered hk hkn hevent
        · cases hevent.symm.trans hkn
          exact le_refl _
      obtain ⟨name, hadded⟩ := (f.nodes i).orchestrator.heartbeats.getHeartbeat_addHeartbeat_self
        (.address who) g.toNat st.toNat m
      exact ⟨_, hadded, hnm⟩
    · rcases hold with ⟨⟨record, hrecord, hle⟩, -⟩ | ⟨g', st', hkn⟩
      · refine ⟨record, ?_, hle⟩
        cases event with
        | newHeartbeat other g st m =>
          have hne : Wallet.address who ≠ .address other := by
            rintro heq
            cases heq
            exact hthis ⟨g, st, m, rfl⟩
          exact (Heartbeats.getHeartbeat_addHeartbeat_ne _ hne _ _ _).trans hrecord
        | newLeader other g | giveUpLeader other g => exact hrecord
      · exact absurd ⟨g', st', n, Option.some.inj (hevent.symm.trans hkn)⟩ hthis
  · rw [hnode]
    rcases hold with ⟨-, k, g', st', hk, hkn⟩ | ⟨g', st', hkn⟩
    · exact ⟨k, g', st', Nat.lt_succ_of_lt hk, getElem?_prefix hevents hkn⟩
    · exact ⟨_, g', st', Nat.lt_succ_self _, getElem?_prefix hevents hkn⟩

theorem knows_step {i : ι} {who : α} {n : ℕ} (hE : E.Within F) (hf : Detects F f)
    (hknows : Knows f i who n) {act : Act ι α} (h : Happens F E f f' act)
    (hact : ∀ j, act = .restart j → j ≠ i) : Knows f' i who n := by
  have hevents := (happens_advances hE h).events
  obtain ⟨k, g, st, hk, hkn⟩ := hknows.delivered
  have hkn' := getElem?_prefix hevents hkn
  by_cases habout : act.about i
  · cases act with
    | extrinsic x | block => exact habout.elim
    | crash j id =>
      cases h
      cases habout
      exact ⟨by rw [nodes_setNode_self]; exact hknows.subscribed,
        by rw [nodes_setNode_self]; exact hknows.record,
        k, g, st, by rw [nodes_setNode_self]; exact hk, hkn'⟩
    | restart j => exact absurd habout (hact j rfl)
    | subscribe j =>
      obtain ⟨hphase, -⟩ := h
      cases habout
      rw [hknows.subscribed] at hphase
      cases hphase
    | entry j e =>
      obtain ⟨out, s, w, -, hrun, rfl⟩ := h
      cases habout
      have hsame : s.heartbeats = _ := wp_runs (wp_maintains (entry_heartbeats e _) _ rfl) hrun
      have hnode := nodes_leave_self f i (f.nodes i).phase (f.nodes i).delivered s w
      refine ⟨by rw [hnode]; exact hknows.subscribed, ?_, k, g, st, by rw [hnode]; exact hk, hkn'⟩
      rw [hnode]
      dsimp only
      rw [hsame]
      exact hknows.record
    | deliver j =>
      cases habout
      exact knows_deliver hE hf (.inl ⟨hknows.record, hknows.delivered⟩) h
  · have hsame := happens_elsewhere h habout
    exact ⟨by rw [hsame]; exact hknows.subscribed, by rw [hsame]; exact hknows.record,
      k, g, st, by rw [hsame]; exact hk, hkn'⟩

/-- What a node knows of an account lies between the last heartbeat that was
delivered to it since its restart and the last one on the chain. An account
that is overdue on the chain is heard by no node. -/
theorem records_between (F : Operators ι α) (f : State ι α) (hf : Reachable F f) (i : ι) (who : α) :
    ((f.nodes i).phase ≠ .stopped → ∀ aliveTime : ℤ,
      (f.block : ℤ) - f.pallet.getHeartbeat who > aliveTime →
      ¬ Heard (f.nodes i).orchestrator.heartbeats aliveTime f.block who) ∧
    ∀ g st n, f.pallet.events[(f.nodes i).delivered]? = some (.newHeartbeat who g st n) →
      ∀ f₁, Happens F F.serving f f₁ (.deliver i) → ∀ acts f',
      Course (Happens F F.serving) (fun _ act => ∀ j, act = .restart j → j ≠ i) f₁ acts f' →
      ∃ record, (f'.nodes i).orchestrator.heartbeats.getHeartbeat (.address who) = some record ∧
        n ≤ record.blockNumber ∧ record.blockNumber ≤ f'.pallet.getHeartbeat who ∧
        f'.pallet.getHeartbeat who ≤ f'.block := by
  have hE : (F.serving).Within F := fun _ _ _ _ _ hc => hc
  have hdetects := detects_reachable hf
  constructor
  · rintro hphase aliveTime hoverdue ⟨record, hrecord, -, hrecent⟩
    have hle := hdetects.bounded i hphase who record hrecord
    omega
  · intro g st n hevent f₁ hdeliver acts f' h
    have hknows : Knows f₁ i who n := knows_deliver hE hdetects (.inr ⟨g, st, hevent⟩) hdeliver
    have hend : Detects F f' ∧ Knows f' i who n := by
      apply h.keeps (I := fun f => Detects F f ∧ Knows f i who n) _
        ⟨detects_step hdetects (happens_step hE hdeliver), hknows⟩
      intro s s' act ⟨hs, hk⟩ hact hadmits
      exact ⟨detects_step hs (happens_step hE hact), knows_step hE hs hk hact hadmits⟩
    obtain ⟨record, hrecord, hle⟩ := hend.2.record
    exact ⟨record, hrecord, hle, hend.1.bounded i (by rw [hend.2.subscribed]; decide) who record
      hrecord, hend.1.dated.bound who⟩

end Federation

/-- Both nodes have sent a heartbeat and none is delivered. -/
def beating : State Bool ℕ := pairStart.play pair (takesLeadership.take 6)

theorem records_between_beating : ∃ f', Happens pair pair.serving beating f' (.deliver false) ∧
    ∃ record, (f'.nodes false).orchestrator.heartbeats.getHeartbeat (.address 1) = some record ∧
      1 ≤ record.blockNumber ∧ record.blockNumber ≤ f'.pallet.getHeartbeat 1 ∧
      f'.pallet.getHeartbeat 1 ≤ f'.block := by
  have hevent : beating.pallet.events[(beating.nodes false).delivered]? =
      some (.newHeartbeat 1 1 2 1) := by decide +kernel
  have hphase : (beating.nodes false).phase = .subscribed := by decide +kernel
  have hplayed : (exec (answer true (pair.config false) (pair.service false))
      (Orchestrator.onEvent (pair.config false) (.newHeartbeat 1 1 2 1))
      ((beating.nodes false).orchestrator, beating.world false)).isSome := by decide +kernel
  obtain ⟨⟨out, s, w⟩, hexec⟩ := Option.isSome_iff_exists.mp hplayed
  have hdeliver : Happens pair pair.serving beating
      (beating.leave false .subscribed ((beating.nodes false).delivered + 1) s w)
      (.deliver false) :=
    ⟨_, out, s, w, hphase, hevent, exec_runs (fun _ _ _ _ => answer_serve) _ _ hexec, rfl⟩
  exact ⟨_, hdeliver, (records_between pair beating (play_reachable pairStart_reachable _)
    false 1).2 1 2 1 hevent _ hdeliver [] _ (.nil _)⟩

end Archipel.Federation
