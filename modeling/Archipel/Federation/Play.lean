import Archipel.Federation.Basic

/-!
# Playing the federation

The calls of the nodes answered by a chain that executes every transaction and
by a docker daemon that works, so that the steps of the federation can be
computed. What is played is a run of the federation.
-/

namespace Archipel.Federation
open Async
open Pallet (Storage Extrinsic)

variable {ι α : Type} [DecidableEq α] [Inhabited α]

/-- A chain that answers every query, has one peer and executes what it is sent. -/
def answerRpc (block : ℕ) : Script (Chain.api α) String (Storage α)
  | .isConnected, s => some (.ok true, s)
  | .bestNumber, s => some (.ok block, s)
  | .bestNumberFinalized, s => some (.ok block, s)
  | .health, s => some (.ok ⟨1, false⟩, s)
  | .leaders g, s => some (.ok (s.getLeader g), s)
  | .leadedGroup g, s => some (.ok (s.getLeadedGroup g), s)
  | .heartbeats (.address who), s => some (.ok (s.getHeartbeat who), s)
  | .heartbeats (.text _), s => some (.error "Decoding: invalid address", s)
  | .account _, s => some (.ok 0, s)
  | .send transaction, s =>
    let s' := (Extrinsic.execute ⟨block, .signed transaction.signer, transaction.call⟩ s).2
    some (.ok [⟨.finalized, s'.events.drop s.events.length⟩], s')
  | .setTimeout _, s => some (.ok (), s)
  | .never, _ => none

theorem answerRpc_rpc {block : ℕ} {c : Chain.Call α} {s s' : Storage α} {r : Except String c.Ret}
    (h : answerRpc block c s = some (r, s')) : rpc block c s r s' := by
  cases c with
  | isConnected =>
    cases h
    exact ⟨⟨true, rfl⟩, rfl⟩
  | bestNumber | leaders g | leadedGroup g =>
    cases h
    exact ⟨.inl rfl, rfl⟩
  | bestNumberFinalized | health | account key =>
    cases h
    exact rfl
  | heartbeats key =>
    cases key with
    | address who =>
      cases h
      exact ⟨.inl ⟨who, rfl, rfl⟩, rfl⟩
    | text t =>
      cases h
      exact ⟨.inr ⟨_, rfl⟩, rfl⟩
  | send transaction =>
    cases h
    exact .inr rfl
  | setTimeout ms =>
    cases h
    exact ⟨rfl, rfl⟩
  | never => cases h

def playChain {β : Type} (m : Chain.Method α β) (w : World α) :
    Option (Except String β × World α) :=
  match exec (answerRpc w.block) m (w.chain, w.pallet) with
  | some (r, chain, pallet) => some (r, { w with chain, pallet })
  | none => none

theorem playChain_onChain {β : Type} {m : Chain.Method α β} {w w' : World α} {r : Except String β}
    (h : playChain m w = some (r, w')) : onChain m w r w' := by
  unfold playChain at h
  cases hm : exec (answerRpc w.block) m (w.chain, w.pallet) with
  | none =>
    rw [hm] at h
    cases h
  | some y =>
    rw [hm] at h
    cases h
    exact ⟨_, _, exec_runs (fun _ _ _ _ => answerRpc_rpc) m _ hm, rfl⟩

def playHost {β : Type} (m : Polkadot.Method β) (w : World α) :
    Option (Except String β × World α) :=
  match exec (fun c h => some (Docker.answer c h)) m (w.polkadot, w.host) with
  | some (r, polkadot, host) => some (r, { w with polkadot, host })
  | none => none

omit [DecidableEq α] [Inhabited α] in
theorem playHost_onHost {β : Type} {m : Polkadot.Method β} {w w' : World α} {r : Except String β}
    (h : playHost m w = some (r, w')) : onHost m w r w' := by
  unfold playHost at h
  cases hm : exec (fun c h => some (Docker.answer c h)) m (w.polkadot, w.host) with
  | none =>
    rw [hm] at h
    cases h
  | some y =>
    rw [hm] at h
    cases h
    refine ⟨_, _, exec_runs (fun c h r h' hc => ?_) m _ hm, rfl⟩
    have hd := Docker.answer_daemon c h
    rw [Option.some.inj hc] at hd
    exact hd

def answer (ready : Bool) (config : Orchestrator.Config α) (service : Polkadot.Config) :
    Script (Orchestrator.api α) String (World α)
  | .canSendTransactions, w => playChain Chain.canSendTransactions w
  | .getBestNumber, w => playChain Chain.getBestNumber w
  | .getLeader groupId, w => playChain (Chain.getLeader groupId) w
  | .isLeadedGroup groupId, w => playChain (Chain.isLeadedGroup groupId) w
  | .getHeartbeat key, w => playChain (Chain.getHeartbeat key) w
  | .setLeader oldLeader groupId, w =>
    playChain (Chain.setLeader oldLeader groupId config.nodeKey) w
  | .addHeartbeat mode nodeGroupId, w =>
    playChain (Chain.addHeartbeat mode config.nodeKey nodeGroupId) w
  | .bootstrap, w => some (.ok (), w)
  | .start mode, w => playHost (Polkadot.start service mode) w
  | .cleanUp, w => playHost (Polkadot.cleanUp service) w
  | .isServiceReadyToStart, w => some (.ok ready, w)
  | .setTimeout _, w => some (.ok (), w)
  | _, _ => none

theorem answer_serve {ready : Bool} {config : Orchestrator.Config α} {service : Polkadot.Config}
    {c : Orchestrator.Call α} {w w' : World α} {r : Except String c.Ret}
    (h : answer ready config service c w = some (r, w')) : serve config service c w r w' := by
  cases c with
  | canSendTransactions | getBestNumber | getLeader g | isLeadedGroup g | getHeartbeat key
  | setLeader old g | addHeartbeat mode g => exact playChain_onChain h
  | start mode | cleanUp => exact playHost_onHost h
  | bootstrap =>
    cases h
    exact rfl
  | isServiceReadyToStart =>
    cases h
    exact ⟨⟨ready, rfl⟩, rfl⟩
  | setTimeout ms =>
    cases h
    exact ⟨rfl, rfl⟩
  | isConnected | getPeerId | getPeerNumber | getBestNumberFinalized | getSyncState
  | giveUpLeadership g | checkLaunchedContainer | getInfo => cases h

/-! ### Moves -/

/-- One choice of what happens next. -/
inductive Move (ι : Type) where
  | blocks (n : ℕ)
  | restart (i : ι)
  | subscribe (i : ι)
  | entry (i : ι) (entry : Entry) (ready : Bool)
  | deliver (i : ι)

instance (entry : Entry) (phase : Phase) : Decidable (entry.admitted phase) := by
  cases phase with
  | stopped => exact inferInstanceAs (Decidable False)
  | booted => exact inferInstanceAs (Decidable (_ ≠ _))
  | subscribed => exact inferInstanceAs (Decidable True)

variable [DecidableEq ι]

/-- The federation after a choice; a choice that is not possible changes nothing. -/
def State.move (F : Operators ι α) (f : State ι α) : Move ι → State ι α
  | .blocks n => { f with block := f.block + n }
  | .restart i =>
    match exec (answerRpc f.block) Chain.connect ({}, f.pallet) with
    | some (_, chain, _) =>
      match exec (answer true (F.config i) (F.service i))
          (Orchestrator.bootstrapOrchestrator (F.config i))
          (.init (F.config i), { f.world i with chain, polkadot := {} }) with
      | some (out, s, w) => f.leave i (if out.isOk then .booted else .stopped) 0 s w
      | none => f
    | none => f
  | .subscribe i =>
    if (f.nodes i).phase = .booted then
      f.setNode i { f.nodes i with phase := .subscribed, delivered := f.pallet.events.length }
    else f
  | .entry i entry ready =>
    if entry.admitted (f.nodes i).phase then
      match exec (answer ready (F.config i) (F.service i)) (entry.code (F.config i))
          ((f.nodes i).orchestrator, f.world i) with
      | some (_, s, w) => f.leave i (f.nodes i).phase (f.nodes i).delivered s w
      | none => f
    else f
  | .deliver i =>
    if (f.nodes i).phase = .subscribed then
      match f.pallet.events[(f.nodes i).delivered]? with
      | some event =>
        match exec (answer true (F.config i) (F.service i))
            (Orchestrator.onEvent (F.config i) event)
            ((f.nodes i).orchestrator, f.world i) with
        | some (_, s, w) => f.leave i .subscribed ((f.nodes i).delivered + 1) s w
        | none => f
      | none => f
    else f

/-- The moves whose acts are orderly in every state. -/
def Move.orderly : Move ι → Prop
  | .entry _ e _ => e ≠ .serviceStart "active"
  | _ => True

instance (v : Move ι) : Decidable v.orderly := by
  cases v with
  | entry i e ready => exact inferInstanceAs (Decidable (_ ≠ _))
  | _ => exact inferInstanceAs (Decidable True)

/-- A run all of whose acts are orderly if the hypothesis holds. -/
def Leads (F : Operators ι α) (orderly : Prop) (f f' : State ι α) : Prop :=
  ∃ acts, Course (Happens F F.serving) (fun s act => orderly → act.orderly s) f acts f'

theorem Leads.refl {F : Operators ι α} {p : Prop} (f : State ι α) : Leads F p f f := ⟨[], .nil f⟩

theorem Leads.single {F : Operators ι α} {p : Prop} {f f' : State ι α} (act : Act ι α)
    (hact : Happens F F.serving f f' act) (horderly : p → act.orderly f) : Leads F p f f' :=
  ⟨[act], .cons hact horderly (.nil f')⟩

theorem Leads.trans {F : Operators ι α} {p : Prop} {f f' f'' : State ι α} (h : Leads F p f f')
    (h' : Leads F p f' f'') : Leads F p f f'' := by
  obtain ⟨acts, hcourse⟩ := h
  obtain ⟨acts', hcourse'⟩ := h'
  exact ⟨acts ++ acts', hcourse.append hcourse'⟩

theorem Leads.imp {F : Operators ι α} {p q : Prop} {f f' : State ι α} (h : Leads F p f f')
    (hqp : q → p) : Leads F q f f' := by
  obtain ⟨acts, hcourse⟩ := h
  exact ⟨acts, hcourse.imp fun s act horderly hq => horderly (hqp hq)⟩

theorem leads_blocks {F : Operators ι α} (p : Prop) (f : State ι α) (n : ℕ) :
    Leads F p f { f with block := f.block + n } := by
  induction n with
  | zero => exact .refl f
  | succ n ih => exact ih.trans (.single .block rfl fun _ => trivial)

theorem leads_move (F : Operators ι α) (f : State ι α) (v : Move ι) :
    Leads F v.orderly f (f.move F v) := by
  cases v with
  | blocks n => exact leads_blocks _ f n
  | restart i =>
    simp only [State.move]
    split
    · next connected chain pallet hconnect =>
      split
      · next out s w hrun =>
        refine .single (.restart i) ⟨connected, chain, pallet, out, s, w, ?_, ?_, rfl⟩
          fun _ => trivial
        · exact exec_runs (fun _ _ _ _ => answerRpc_rpc) _ _ hconnect
        · exact exec_runs (fun _ _ _ _ => answer_serve) _ _ hrun
      · exact .refl f
    · exact .refl f
  | subscribe i =>
    simp only [State.move]
    split
    · next hphase => exact .single (.subscribe i) ⟨hphase, rfl⟩ fun _ => trivial
    · exact .refl f
  | entry i e ready =>
    simp only [State.move]
    split
    · next hphase =>
      split
      · next out s w hrun =>
        refine .single (.entry i e) ⟨out, s, w, hphase, ?_, rfl⟩ fun hne heq =>
          absurd heq hne
        exact exec_runs (fun _ _ _ _ => answer_serve) _ _ hrun
      · exact .refl f
    · exact .refl f
  | deliver i =>
    simp only [State.move]
    split
    · next hphase =>
      split
      · next event hevent =>
        split
        · next out s w hrun =>
          refine .single (.deliver i) ⟨event, out, s, w, hphase, hevent, ?_, rfl⟩
            fun _ => trivial
          exact exec_runs (fun _ _ _ _ => answer_serve) _ _ hrun
        · exact .refl f
      · exact .refl f
    · exact .refl f

def State.play (F : Operators ι α) (f : State ι α) (moves : List (Move ι)) : State ι α :=
  moves.foldl (State.move F) f

theorem leads_play (F : Operators ι α) (moves : List (Move ι)) (f : State ι α) :
    Leads F (∀ v ∈ moves, v.orderly) f (f.play F moves) := by
  induction moves generalizing f with
  | nil => exact .refl f
  | cons v moves ih =>
    have hfirst := (leads_move F f v).imp fun h : ∀ u ∈ v :: moves, u.orderly =>
      h v List.mem_cons_self
    have hrest := (ih (f.move F v)).imp fun h : ∀ u ∈ v :: moves, u.orderly =>
      fun u hu => h u (List.mem_cons_of_mem v hu)
    exact hfirst.trans hrest

theorem play_reachable {F : Operators ι α} {f : State ι α} (hf : Reachable F f)
    (moves : List (Move ι)) : Reachable F (f.play F moves) := by
  obtain ⟨f₀, hinit, hsteps⟩ := hf
  obtain ⟨acts, hcourse⟩ := leads_play F moves f
  exact ⟨f₀, hinit, hsteps.trans (course_steps hcourse)⟩

theorem play_inOrder {F : Operators ι α} {f : State ι α} (hf : InOrder F f)
    {moves : List (Move ι)} (hmoves : ∀ v ∈ moves, v.orderly) : InOrder F (f.play F moves) := by
  obtain ⟨f₀, acts, hinit, hcourse⟩ := hf
  obtain ⟨acts', hplayed⟩ := leads_play F moves f
  exact ⟨f₀, acts ++ acts', hinit, hcourse.append (hplayed.imp fun s act horderly =>
    horderly hmoves)⟩

/-! ### Two nodes of one group -/

/-- Node `false` has account 1, node `true` has account 2. -/
def pair : Operators Bool ℕ where
  config i := Orchestrator.plainNode (if i then 2 else 1)
  service _ := Polkadot.plainConfig
  operator := by decide
  accounts := by decide

def pairStart : State Bool ℕ where
  pallet := .empty
  block := 1
  nodes i := ⟨.stopped, .init (pair.config i), {}, {}, .empty, 0⟩

theorem pairStart_inOrder : InOrder pair pairStart := by
  have hclear : Polkadot.Clear Polkadot.plainConfig .empty := by decide
  exact ⟨pairStart, [], ⟨rfl, fun _ => ⟨rfl, hclear⟩⟩, .nil pairStart⟩

theorem pairStart_reachable : Reachable pair pairStart := pairStart_inOrder.reachable

def takesLeadership : List (Move Bool) :=
  [.restart false, .restart true, .subscribe false, .subscribe true,
    .entry false .heartbeat true, .entry true .heartbeat true,
    .deliver false, .deliver false, .deliver true, .deliver true, .entry false .tick true]

def leading : State Bool ℕ := pairStart.play pair takesLeadership

theorem leading_inOrder : InOrder pair leading := play_inOrder pairStart_inOrder (by decide)

theorem leading_reachable : Reachable pair leading := leading_inOrder.reachable

end Archipel.Federation
