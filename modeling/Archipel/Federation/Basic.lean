import Archipel.Course
import Archipel.Orchestrator.Basic
import Archipel.Pallet.Events
import Archipel.Polkadot.Convergence
import Mathlib.Logic.Relation

/-!
# The federation

Any number of operator nodes and one chain. A step is one whole method of one
node, one delivery of an event, one restart, one call executed by the chain, one
new block, or one container that stops. The calls that the orchestrator awaits
are served by the methods of the chain client and of the service, and these run
over the RPC calls of the chain and over the docker daemon.
-/

namespace Archipel.Federation
open Async
open Pallet (Storage Extrinsic)

variable {ι α : Type} [DecidableEq α] [Inhabited α]

/-- What the RPC calls of a node answer at a block. A query fails or answers what
the storage holds; a sent transaction is executed or not, and its updates are
arbitrary. -/
def rpc (block : ℕ) : Env (Chain.api α) String (Storage α)
  | .isConnected, s, r, s' => (∃ b, r = .ok b) ∧ s' = s
  | .bestNumber, s, r, s' => (r = .ok block ∨ ∃ e, r = .error e) ∧ s' = s
  | .bestNumberFinalized, s, _, s' => s' = s
  | .health, s, _, s' => s' = s
  | .leaders g, s, r, s' => (r = .ok (s.getLeader g) ∨ ∃ e, r = .error e) ∧ s' = s
  | .leadedGroup g, s, r, s' => (r = .ok (s.getLeadedGroup g) ∨ ∃ e, r = .error e) ∧ s' = s
  | .heartbeats key, s, r, s' =>
    ((∃ who, key = .address who ∧ r = .ok (s.getHeartbeat who)) ∨ ∃ e, r = .error e) ∧ s' = s
  | .account _, s, _, s' => s' = s
  | .send transaction, s, _, s' =>
    s' = s ∨ s' = (Extrinsic.execute ⟨block, .signed transaction.signer, transaction.call⟩ s).2
  | .setTimeout _, s, r, s' => r = .ok () ∧ s' = s
  | .never, _, _, _ => False

/-- What the objects of one process of a node act on: the chain, the fields of
the chain client and of the service instance, and the docker host. -/
structure World (α : Type) where
  pallet : Storage α
  block : ℕ
  chain : Chain.State
  polkadot : Polkadot.State
  host : Docker.Host

def onChain {β : Type} (m : Chain.Method α β) (w : World α) (r : Except String β)
    (w' : World α) : Prop :=
  ∃ chain pallet, Runs (rpc w.block) m (w.chain, w.pallet) r (chain, pallet) ∧
    w' = { w with chain, pallet }

def onHost {β : Type} (m : Polkadot.Method β) (w : World α) (r : Except String β)
    (w' : World α) : Prop :=
  ∃ polkadot host, Runs Docker.daemon m (w.polkadot, w.host) r (polkadot, host) ∧
    w' = { w with polkadot, host }

/-- The calls of the orchestrator, served by its collaborators. `bootstrap` only
copies a key file, the readiness of the service is asked of its RPC port, and
the peer id is any text. -/
def serve (config : Orchestrator.Config α) (service : Polkadot.Config) :
    Env (Orchestrator.api α) String (World α)
  | .canSendTransactions, w, r, w' => onChain Chain.canSendTransactions w r w'
  | .getBestNumber, w, r, w' => onChain Chain.getBestNumber w r w'
  | .getLeader groupId, w, r, w' => onChain (Chain.getLeader groupId) w r w'
  | .isLeadedGroup groupId, w, r, w' => onChain (Chain.isLeadedGroup groupId) w r w'
  | .getHeartbeat key, w, r, w' => onChain (Chain.getHeartbeat key) w r w'
  | .setLeader oldLeader groupId, w, r, w' =>
    onChain (Chain.setLeader oldLeader groupId config.nodeKey) w r w'
  | .addHeartbeat mode nodeGroupId, w, r, w' =>
    onChain (Chain.addHeartbeat mode config.nodeKey nodeGroupId) w r w'
  | .giveUpLeadership groupId, w, r, w' =>
    onChain (Chain.giveUpLeadership groupId config.nodeKey) w r w'
  | .isConnected, w, r, w' => onChain Chain.isConnected w r w'
  | .getPeerId, w, _, w' => w' = w
  | .getPeerNumber, w, r, w' => onChain Chain.getPeerNumber w r w'
  | .getBestNumberFinalized, w, r, w' => onChain Chain.getBestNumberFinalized w r w'
  | .getSyncState, w, r, w' => onChain Chain.getSyncState w r w'
  | .bootstrap, w, _, w' => w' = w
  | .start mode, w, r, w' => onHost (Polkadot.start service mode) w r w'
  | .cleanUp, w, r, w' => onHost (Polkadot.cleanUp service) w r w'
  | .isServiceReadyToStart, w, r, w' => (∃ b, r = .ok b) ∧ w' = w
  | .checkLaunchedContainer, w, r, w' => onHost (Polkadot.checkLaunchedContainer service) w r w'
  | .getInfo, w, r, w' => onHost (Polkadot.getInfo service) w r w'
  | .setTimeout _, w, r, w' => r = .ok () ∧ w' = w

/-! ### Nodes -/

/-- Whether the process of a node runs, and whether it has subscribed to the
events of the chain. -/
inductive Phase where
  | stopped
  | booted
  | subscribed
  deriving DecidableEq, Repr

/-- `delivered` counts the events of the chain up to the last one delivered. -/
structure Node (α : Type) where
  phase : Phase
  orchestrator : Orchestrator.State α
  chain : Chain.State
  polkadot : Polkadot.State
  host : Docker.Host
  delivered : ℕ

structure State (ι α : Type) where
  pallet : Storage α
  block : ℕ
  nodes : ι → Node α

/-- The nodes of a federation: operator nodes with distinct accounts. -/
structure Operators (ι α : Type) where
  config : ι → Orchestrator.Config α
  service : ι → Polkadot.Config
  operator : ∀ i, (config i).nodeRole ≠ "noservice"
  accounts : ∀ i j, (config i).nodeKey = (config j).nodeKey → i = j

inductive Entry where
  | tick
  | heartbeat
  | serviceStart (mode : String)
  | serviceStop
  | disableOrchestration
  | enableOrchestration
  | disableHeartbeats
  | enableHeartbeats
  deriving DecidableEq, Repr

def Entry.code (config : Orchestrator.Config α) : Entry → Orchestrator.Method α Unit
  | .tick => Orchestrator.orchestrationLoop config
  | .heartbeat => Orchestrator.heartbeatLoop config
  | .serviceStart mode => Orchestrator.routeServiceStart config mode
  | .serviceStop => Orchestrator.routeServiceStop config
  | .disableOrchestration => do let _ ← Orchestrator.disableOrchestration config
  | .enableOrchestration => do let _ ← Orchestrator.enableOrchestration
  | .disableHeartbeats => do let _ ← Orchestrator.disableHeartbeats
  | .enableHeartbeats => do let _ ← Orchestrator.enableHeartbeats

/-- The subscription is in place before the first tick. The heartbeat loop and
the API do not wait for it. -/
def Entry.admitted (entry : Entry) : Phase → Prop
  | .stopped => False
  | .booted => entry ≠ .tick
  | .subscribed => True

/-- The entries that may claim the group of their node. -/
def Entry.claims (entry : Entry) : Prop := entry = .tick ∨ entry = .serviceStart "active"

variable [DecidableEq ι]

def State.world (f : State ι α) (i : ι) : World α :=
  ⟨f.pallet, f.block, (f.nodes i).chain, (f.nodes i).polkadot, (f.nodes i).host⟩

def State.setNode (f : State ι α) (i : ι) (node : Node α) : State ι α :=
  { f with nodes := Function.update f.nodes i node }

def State.leave (f : State ι α) (i : ι) (phase : Phase) (delivered : ℕ)
    (s : Orchestrator.State α) (w : World α) : State ι α :=
  { f with pallet := w.pallet }.setNode i ⟨phase, s, w.chain, w.polkadot, w.host, delivered⟩

/-- The events that were emitted since the subscription of a node and not yet
delivered to it. -/
def State.queue (f : State ι α) (i : ι) : List (Pallet.Event α) :=
  if (f.nodes i).phase = .subscribed then f.pallet.events.drop (f.nodes i).delivered else []

omit [DecidableEq α] [Inhabited α] [DecidableEq ι] in
theorem queue_subscribed {f : State ι α} {i : ι} (h : (f.nodes i).phase = .subscribed) :
    f.queue i = f.pallet.events.drop (f.nodes i).delivered := if_pos h

/-! ### Steps -/

inductive Act (ι α : Type) where
  | extrinsic (x : Extrinsic α)
  | block
  | crash (i : ι) (id : Docker.ContainerId)
  | restart (i : ι)
  | subscribe (i : ι)
  | entry (i : ι) (entry : Entry)
  | deliver (i : ι)

/-- How the calls of each node are served. -/
abbrev Serving (ι α : Type) := ι → Env (Orchestrator.api α) String (World α)

omit [DecidableEq ι] in
def Operators.serving (F : Operators ι α) : Serving ι α := fun i => serve (F.config i) (F.service i)

/-- What an act does, when the entries and the listeners are served by `E`. -/
def Happens (F : Operators ι α) (E : Serving ι α) (f f' : State ι α) : Act ι α → Prop
  | .extrinsic x => x.now = f.block ∧ f' = { f with pallet := (x.execute f.pallet).2 }
  | .block => f' = { f with block := f.block + 1 }
  | .crash i id =>
    f' = f.setNode i { f.nodes i with host := (f.nodes i).host.setRunning false id }
  | .restart i => ∃ connected chain pallet out s w,
    Runs (rpc f.block) Chain.connect ({}, f.pallet) connected (chain, pallet) ∧
    Runs (F.serving i) (Orchestrator.bootstrapOrchestrator (F.config i))
      (.init (F.config i), { f.world i with chain, polkadot := {} }) out (s, w) ∧
    f' = f.leave i (if Except.isOk out then .booted else .stopped) 0 s w
  | .subscribe i => (f.nodes i).phase = .booted ∧ f' = f.setNode i
    { f.nodes i with phase := .subscribed, delivered := f.pallet.events.length }
  | .entry i entry => ∃ out s w, entry.admitted (f.nodes i).phase ∧
    Runs (E i) (entry.code (F.config i)) ((f.nodes i).orchestrator, f.world i) out (s, w) ∧
    f' = f.leave i (f.nodes i).phase (f.nodes i).delivered s w
  | .deliver i => ∃ event out s w, (f.nodes i).phase = .subscribed ∧
    f.pallet.events[(f.nodes i).delivered]? = some event ∧
    Runs (E i) (Orchestrator.onEvent (F.config i) event)
      ((f.nodes i).orchestrator, f.world i) out (s, w) ∧
    f' = f.leave i .subscribed ((f.nodes i).delivered + 1) s w

def Step (F : Operators ι α) (f f' : State ι α) : Prop := ∃ act, Happens F F.serving f f' act

/-- A federation before its first step: empty storage, no process runs, and no
host has a service container. -/
def Initial (F : Operators ι α) (f : State ι α) : Prop :=
  f.pallet = Storage.empty ∧
    ∀ i, (f.nodes i).phase = .stopped ∧ Polkadot.Clear (F.service i) (f.nodes i).host

def Reachable (F : Operators ι α) (f : State ι α) : Prop :=
  ∃ f₀, Initial F f₀ ∧ Relation.ReflTransGen (Step F) f₀ f

/-- The API asks no node for active mode before the node has subscribed. -/
def Act.orderly (f : State ι α) : Act ι α → Prop
  | .entry i e => e = .serviceStart "active" → (f.nodes i).phase = .subscribed
  | _ => True

/-- Reached by orderly acts. -/
def InOrder (F : Operators ι α) (f : State ι α) : Prop :=
  ∃ f₀ acts, Initial F f₀ ∧ Course (Happens F F.serving) Act.orderly f₀ acts f

theorem course_steps {F : Operators ι α} {admits : State ι α → Act ι α → Prop}
    {f f' : State ι α} {acts : List (Act ι α)} (h : Course (Happens F F.serving) admits f acts f') :
    Relation.ReflTransGen (Step F) f f' := by
  induction h with
  | nil f => exact .refl
  | cons hact hadmits hrest ih => exact .head ⟨_, hact⟩ ih

theorem InOrder.reachable {F : Operators ι α} {f : State ι α} (hf : InOrder F f) :
    Reachable F f := by
  obtain ⟨f₀, acts, hinit, hcourse⟩ := hf
  exact ⟨f₀, hinit, course_steps hcourse⟩

end Archipel.Federation
