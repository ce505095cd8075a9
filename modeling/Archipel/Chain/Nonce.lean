import Archipel.Chain

/-!
# The nonces of one account

The heartbeat loop and the orchestration loop of a node send transactions of one
account. Each loop reads the nonce of the account and signs the transaction with
it; between the two and until the transaction is included the other loop moves.
A loop may go on while its transaction is pending: the promise of a transaction
rejects when the connection is lost.
-/

namespace Archipel.Chain
open Async
open scoped List

variable {α : Type}

/-! ### The two loops and the chain -/

inductive Loop where
  | heartbeat
  | orchestration
  deriving DecidableEq, Repr

inductive Sender (key : α) : Loop → Method α Bool → Prop
  | heartbeat (mode : String) (nodeGroupId : UInt32) :
      Sender key .heartbeat (addHeartbeat mode key nodeGroupId)
  | orchestration (oldLeader : Wallet α) (groupId : UInt32) :
      Sender key .orchestration (setLeader oldLeader groupId key)

/-- The method that a loop runs; `sent` once its transaction is in the pool. -/
structure Thread (α : Type) where
  flow : Method α Bool
  sent : Bool

structure Entry where
  loop : Loop
  nonce : ℕ
  deriving DecidableEq, Repr

/-- The chain client of a node, its loops and its account: `base` of the account's
transactions are final, `best` says which loops sent those that the best chain
includes above them, and those of `pool` are sent and not included. -/
structure Node (α : Type) where
  fields : State
  thread : Loop → Thread α
  base : ℕ
  best : List Loop
  pool : List Entry

def Node.included (n : Node α) : ℕ := n.base + n.best.length

def Node.set (n : Node α) (l : Loop) (thread : Thread α) : Node α :=
  { n with thread := Function.update n.thread l thread }

@[simp] theorem Node.set_thread_self (n : Node α) (l : Loop) (thread : Thread α) :
    (n.set l thread).thread l = thread := Function.update_self ..

theorem Node.set_thread_ne (n : Node α) {l l' : Loop} (thread : Thread α) (h : l' ≠ l) :
    (n.set l thread).thread l' = n.thread l' := Function.update_of_ne h ..

def Call.quiet : Call α → Bool
  | .account _ => false
  | .send _ => false
  | _ => true

/-- Nothing settles the promise of `never`. -/
def Call.plain : Call α → Bool
  | .never => false
  | c => c.quiet

theorem plain_quiet {c : Call α} (h : c.plain = true) : c.quiet = true := by
  cases c with
  | never => cases h
  | _ => exact h

/-- One move of the node or of the chain; `guard` limits when a loop may read the
nonce. -/
inductive Node.Step (key : α) (guard : Node α → Loop → Prop) : Node α → Node α → Prop
  | launch {n : Node α} {l : Loop} {m : Method α Bool} (hm : Sender key l m)
      (h : (n.thread l).flow.ended = true) : Step key guard n (n.set l ⟨m, false⟩)
  | turn {n : Node α} {l : Loop} (h : (n.thread l).flow.suspended = false) :
      Step key guard n
        { n.set l ⟨((n.thread l).flow.turn n.fields).1, (n.thread l).sent⟩ with
          fields := ((n.thread l).flow.turn n.fields).2 }
  | serve {n : Node α} {l : Loop} {c : Call α} {k : Except String c.Ret → Method α Bool}
      (h : (n.thread l).flow = .await c k) (hplain : c.plain = true)
      (r : Except String c.Ret) : Step key guard n (n.set l ⟨k r, (n.thread l).sent⟩)
  | account {n : Node α} {l : Loop} {k : Except String ℕ → Method α Bool}
      (h : (n.thread l).flow = .await (.account key) k) (hguard : guard n l) :
      Step key guard n (n.set l ⟨k (.ok n.included), (n.thread l).sent⟩)
  | accountFails {n : Node α} {l : Loop} {k : Except String ℕ → Method α Bool}
      (h : (n.thread l).flow = .await (.account key) k) (e : String) :
      Step key guard n (n.set l ⟨k (.error e), (n.thread l).sent⟩)
  | send {n : Node α} {l : Loop} {transaction : Transaction α}
      {k : Except String (List (Update α)) → Method α Bool}
      (h : (n.thread l).flow = .await (.send transaction) k) (hsent : (n.thread l).sent = false) :
      Step key guard n { n.set l ⟨(n.thread l).flow, true⟩ with
        pool := n.pool ++ [⟨l, transaction.nonce⟩] }
  | sendFails {n : Node α} {l : Loop} {transaction : Transaction α}
      {k : Except String (List (Update α)) → Method α Bool}
      (h : (n.thread l).flow = .await (.send transaction) k) (hsent : (n.thread l).sent = false)
      (e : String) : Step key guard n (n.set l ⟨k (.error e), false⟩)
  | answer {n : Node α} {l : Loop} {transaction : Transaction α}
      {k : Except String (List (Update α)) → Method α Bool}
      (h : (n.thread l).flow = .await (.send transaction) k) (hsent : (n.thread l).sent = true)
      (r : Except String (List (Update α))) : Step key guard n (n.set l ⟨k r, false⟩)
  | inBlock {n : Node α} {pre post : List Entry} {e : Entry} (h : n.pool = pre ++ e :: post)
      (hnonce : e.nonce = n.included) :
      Step key guard n { n with pool := pre ++ post, best := n.best ++ [e.loop] }
  | retract {n : Node α} {best : List Loop} {l : Loop} (h : n.best = best ++ [l]) :
      Step key guard n { n with
        pool := n.pool ++ [⟨l, n.base + best.length⟩], best := best }
  | finalize {n : Node α} {best : List Loop} {l : Loop} (h : n.best = l :: best) :
      Step key guard n { n with base := n.base + 1, best := best }
  | drop {n : Node α} {pre post : List Entry} {e : Entry} (h : n.pool = pre ++ e :: post) :
      Step key guard n { n with pool := pre ++ post }
  | other {n : Node α} (fields : State) : Step key guard n { n with fields := fields }

/-- No transaction of the loops is on the way. -/
structure Node.Started (n : Node α) : Prop where
  ended : ∀ l, (n.thread l).flow.ended = true
  unsent : ∀ l, (n.thread l).sent = false
  pool : n.pool = []
  best : n.best = []

/-- The nonce that a loop has read and not sent yet. -/
def Thread.signed (t : Thread α) : Option ℕ :=
  match t.flow with
  | .await (.send transaction) _ => if t.sent then none else some transaction.nonce
  | _ => none

/-- No loop has a nonce that is not sent yet, and no transaction is in the pool. -/
def Node.Free (n : Node α) (_ : Loop) : Prop :=
  (∀ l, (n.thread l).signed = none) ∧ n.pool = []

/-! ### What is left of a method -/

abbrev Quiet (m : Method α Bool) : Prop :=
  OnlyCalls (A := api α) (fun c => c.quiet = true) m

inductive Signs (nonce : ℕ) : Method α Bool → Prop
  | send (transaction : Transaction α) (k : Except String (List (Update α)) → Method α Bool)
      (h : transaction.nonce = nonce) (hk : ∀ r, Quiet (k r)) :
      Signs nonce (.await (.send transaction) k)
  | stop (e : String) : Signs nonce (.fail e)

/-- The nonce is not read yet, and what is read is at once signed. -/
def Fresh : Method α Bool → Prop
  | .done _ => True
  | .fail _ => True
  | .read k => ∀ s, Fresh (k s)
  | .write _ k => Fresh k
  | .await (.account _) k => (∀ nonce, Signs nonce (k (.ok nonce))) ∧ ∀ e, Quiet (k (.error e))
  | .await (.send _) _ => False
  | .await _ k => ∀ r, Fresh (k r)

theorem fresh_bind {β : Type} {m : Method α β} {f : β → Method α Bool}
    (hm : OnlyCalls (A := api α) (fun c => c.quiet = true) m) (hf : ∀ a, Fresh (f a)) :
    Fresh (m >>= f) := by
  induction m with
  | done a => exact hf a
  | fail e => trivial
  | read k ih => exact fun s => ih s (hm s)
  | write s k ih => exact ih hm
  | await c k ih =>
    have hk : ∀ r, Fresh (k r >>= f) := fun r => ih r (hm.2 r)
    cases c with
    | account who => cases hm.1
    | send transaction => cases hm.1
    | _ => exact hk

theorem fresh_turn {m : Method α Bool} (hm : Fresh m) (s : State) : Fresh (m.turn s).1 := by
  induction m generalizing s with
  | done a => trivial
  | fail e => trivial
  | read k ih => exact ih s (hm s) s
  | write s' k ih => exact ih hm s'
  | await c k ih => exact hm

theorem quiet_canSendTransactions :
    OnlyCalls (A := api α) (fun c => c.quiet = true) canSendTransactions := by
  have hbest : OnlyCalls (A := api α) (fun c => c.quiet = true) getBestNumber :=
    onlyCalls_tryCatch (onlyCalls_call rfl) fun e => trivial
  have hfinal : OnlyCalls (A := api α) (fun c => c.quiet = true) getBestNumberFinalized :=
    onlyCalls_tryCatch (onlyCalls_call rfl) fun e => trivial
  have hpeers : OnlyCalls (A := api α) (fun c => c.quiet = true) getPeerNumber :=
    onlyCalls_tryCatch (onlyCalls_bind (onlyCalls_call rfl) fun health => trivial)
      fun e => trivial
  have hsync : OnlyCalls (A := api α) (fun c => c.quiet = true) getSyncState :=
    onlyCalls_tryCatch (onlyCalls_bind (onlyCalls_call rfl) fun health => trivial)
      fun e => trivial
  have hmoving : OnlyCalls (A := api α) (fun c => c.quiet = true) chainMovingForward := by
    refine onlyCalls_bind hbest fun block => onlyCalls_bind (onlyCalls_modify _) fun _ =>
      onlyCalls_bind onlyCalls_get fun s => ?_
    split
    · trivial
    · exact onlyCalls_bind (onlyCalls_modify _) fun _ => trivial
  unfold canSendTransactions
  refine onlyCalls_bind (onlyCalls_call rfl) fun connected => ?_
  split
  · trivial
  refine onlyCalls_bind hmoving fun moving => ?_
  split
  · trivial
  refine onlyCalls_bind hbest fun best => onlyCalls_bind hfinal fun final =>
    onlyCalls_bind onlyCalls_get fun s => ?_
  split
  · trivial
  refine onlyCalls_bind hpeers fun peers => onlyCalls_bind hsync fun syncState => ?_
  split
  · exact onlyCalls_bind (onlyCalls_call rfl) fun _ => onlyCalls_bind hpeers fun peers =>
      onlyCalls_bind hsync fun syncState => trivial
  · trivial

theorem signs_signAndSend (key : α) (nonce : ℕ) (call : Pallet.Call α)
    (isEvent : Pallet.Event α → Bool) : Signs nonce (signAndSend ⟨key, nonce, call⟩ isEvent) := by
  refine .send ⟨key, nonce, call⟩ _ rfl ?_
  intro r
  cases r with
  | error e => trivial
  | ok updates =>
    dsimp only [Async.bind]
    cases settle isEvent updates with
    | some result => trivial
    | none => exact onlyCalls_bind (onlyCalls_call rfl) fun never => never.elim

theorem sender_fresh {key : α} {l : Loop} {m : Method α Bool} (h : Sender key l m) : Fresh m := by
  cases h with
  | heartbeat mode nodeGroupId =>
    refine fresh_bind quiet_canSendTransactions fun sendTransaction => ?_
    cases sendTransaction with
    | false => trivial
    | true => exact ⟨fun nonce => signs_signAndSend .., fun e => trivial⟩
  | orchestration oldLeader groupId =>
    refine fresh_bind quiet_canSendTransactions fun sendTransaction => ?_
    cases sendTransaction with
    | false => trivial
    | true =>
      refine ⟨fun nonce => ?_, fun e => trivial⟩
      cases oldLeader with
      | address oldLeader => exact signs_signAndSend ..
      | text t => exact .stop _

/-! ### The invariant -/

/-- How far a loop is. -/
inductive Stage (t : Thread α) : Prop
  | fresh (h : Fresh t.flow) (hsent : t.sent = false)
  | awaits (transaction : Transaction α) (k : Except String (List (Update α)) → Method α Bool)
      (h : t.flow = .await (.send transaction) k) (hk : ∀ r, Quiet (k r))
  | settled (h : Quiet t.flow) (hsent : t.sent = false)

/-- The nonces of the transactions in the pool and in the blocks that are not
final. -/
def Node.nonces (n : Node α) : List ℕ :=
  n.pool.map Entry.nonce ++ List.range' n.base n.best.length

structure Node.Inv (n : Node α) : Prop where
  stage : ∀ l, Stage (n.thread l)
  once : n.nonces.Nodup
  held : ∀ l a, (n.thread l).signed = some a → a ∉ n.nonces
  one : ∀ l l' a b, (n.thread l).signed = some a → (n.thread l').signed = some b → l = l'

theorem fresh_signed {t : Thread α} (h : Fresh t.flow) : t.signed = none := by
  unfold Thread.signed
  split
  · next hflow =>
    rw [hflow] at h
    exact h.elim
  · rfl

theorem quiet_signed {t : Thread α} (h : Quiet t.flow) : t.signed = none := by
  unfold Thread.signed
  split
  · next hflow =>
    rw [hflow] at h
    cases h.1
  · rfl

/-- The chain moves, and a nonce that it uses was in use. -/
theorem inv_world {n n' : Node α} (h : n.Inv) (hthread : n'.thread = n.thread)
    (honce : n'.nonces.Nodup) (hnonces : ∀ a ∈ n'.nonces, a ∈ n.nonces) : n'.Inv := by
  refine ⟨fun l => hthread ▸ h.stage l, honce, fun l a ha hmem => ?_, ?_⟩
  · rw [hthread] at ha
    exact h.held l a ha (hnonces a hmem)
  · rw [hthread]
    exact h.one

/-- A loop that moves to code in which it has signed nothing. -/
theorem inv_unsigned {n : Node α} (h : n.Inv) {l : Loop} {t : Thread α} (fields : State)
    (hstage : Stage t) (hsigned : t.signed = none) :
    Node.Inv { n.set l t with fields := fields } := by
  have hsame : ∀ l' a, ((n.set l t).thread l').signed = some a →
      (n.thread l').signed = some a := by
    intro l' a ha
    by_cases hl : l' = l
    · subst hl
      rw [Node.set_thread_self, hsigned] at ha
      cases ha
    · rwa [Node.set_thread_ne _ _ hl] at ha
  have hstages : ∀ l', Stage ((n.set l t).thread l') := by
    intro l'
    by_cases hl : l' = l
    · subst hl
      rw [Node.set_thread_self]
      exact hstage
    · rw [Node.set_thread_ne _ _ hl]
      exact h.stage l'
  refine ⟨hstages, h.once, fun l' a ha => h.held l' a (hsame l' a ha), ?_⟩
  intro l₁ l₂ a b ha hb
  exact h.one l₁ l₂ a b (hsame l₁ a ha) (hsame l₂ b hb)

theorem fresh_serve {c : Call α} {k : Except String c.Ret → Method α Bool}
    (h : Fresh (.await c k)) (hc : c.quiet = true) (r : Except String c.Ret) : Fresh (k r) := by
  cases c with
  | account who => cases hc
  | send transaction => cases hc
  | _ => exact h r

theorem inv_serve {n : Node α} (h : n.Inv) {l : Loop} {c : Call α}
    {k : Except String c.Ret → Method α Bool} (hflow : (n.thread l).flow = .await c k)
    (hc : c.quiet = true) (r : Except String c.Ret) :
    (n.set l ⟨k r, (n.thread l).sent⟩).Inv := by
  cases h.stage l with
  | fresh hfresh hsent =>
    rw [hflow] at hfresh
    have hrest := fresh_serve hfresh hc r
    exact inv_unsigned h n.fields (.fresh hrest hsent) (fresh_signed hrest)
  | awaits transaction k' hsend =>
    rw [hflow] at hsend
    cases hsend
    cases hc
  | settled hsettled hsent =>
    rw [hflow] at hsettled
    have hrest := hsettled.2 r
    exact inv_unsigned h n.fields (.settled hrest hsent) (quiet_signed hrest)

theorem inv_turn {n : Node α} (h : n.Inv) {l : Loop} (hturn : (n.thread l).flow.suspended = false) :
    Node.Inv { n.set l ⟨((n.thread l).flow.turn n.fields).1, (n.thread l).sent⟩ with
      fields := ((n.thread l).flow.turn n.fields).2 } := by
  cases h.stage l with
  | fresh hfresh hsent =>
    have hrest := fresh_turn hfresh n.fields
    exact inv_unsigned h _ (.fresh hrest hsent) (fresh_signed hrest)
  | awaits transaction k' hsend =>
    rw [hsend] at hturn
    cases hturn
  | settled hsettled hsent =>
    have hrest := onlyCalls_turn hsettled n.fields
    exact inv_unsigned h _ (.settled hrest hsent) (quiet_signed hrest)

/-- A loop at the read of the nonce has signed nothing yet. -/
theorem stage_account {n : Node α} (h : n.Inv) {l : Loop} {key : α}
    {k : Except String ℕ → Method α Bool} (hflow : (n.thread l).flow = .await (.account key) k) :
    Fresh (.await (.account key) k : Method α Bool) ∧ (n.thread l).sent = false := by
  cases h.stage l with
  | fresh hfresh hsent => exact ⟨hflow ▸ hfresh, hsent⟩
  | awaits transaction k' hsend =>
    rw [hflow] at hsend
    cases hsend
  | settled hsettled =>
    rw [hflow] at hsettled
    cases hsettled.1

/-- The nonce that is read is in no pending transaction, and in no other hand. -/
theorem inv_account {n : Node α} (h : n.Inv) {l : Loop} {key : α}
    {k : Except String ℕ → Method α Bool} (hflow : (n.thread l).flow = .await (.account key) k)
    (hfree : n.Free l) : (n.set l ⟨k (.ok n.included), (n.thread l).sent⟩).Inv := by
  obtain ⟨hfresh, hsent⟩ := stage_account h hflow
  have hsigns : Signs n.included (k (.ok n.included)) := hfresh.1 n.included
  rw [hsent]
  generalize hm : k (.ok n.included) = m at hsigns
  cases hsigns with
  | stop e => exact inv_unsigned h n.fields (.settled trivial rfl) rfl
  | send transaction k' hnonce hk =>
    have hunused : n.included ∉ n.nonces := by
      unfold Node.nonces Node.included
      rw [hfree.2, List.mem_append, List.mem_range'_1]
      simp
    have hread : ∀ l' a, ((n.set l ⟨.await (.send transaction) k', false⟩).thread l').signed =
        some a → l' = l ∧ a = n.included := by
      intro l' a ha
      by_cases hl : l' = l
      · subst hl
        rw [Node.set_thread_self] at ha
        cases (show some transaction.nonce = some a from ha)
        exact ⟨rfl, hnonce⟩
      · rw [Node.set_thread_ne _ _ hl, hfree.1 l'] at ha
        cases ha
    refine ⟨fun l' => ?_, h.once, fun l' a ha => ?_, fun l₁ l₂ a b ha hb => ?_⟩
    · by_cases hl : l' = l
      · subst hl
        rw [Node.set_thread_self]
        exact .awaits transaction k' rfl hk
      · rw [Node.set_thread_ne _ _ hl]
        exact h.stage l'
    · rw [(hread l' a ha).2]
      exact hunused
    · exact (hread l₁ a ha).1.trans (hread l₂ b hb).1.symm

/-- A loop that awaits the answer to a transaction. -/
theorem stage_send {n : Node α} (h : n.Inv) {l : Loop} {transaction : Transaction α}
    {k : Except String (List (Update α)) → Method α Bool}
    (hflow : (n.thread l).flow = .await (.send transaction) k) : ∀ r, Quiet (k r) := by
  cases h.stage l with
  | fresh hfresh =>
    rw [hflow] at hfresh
    exact hfresh.elim
  | awaits transaction' k' hsend hk =>
    rw [hflow] at hsend
    cases hsend
    exact hk
  | settled hsettled =>
    rw [hflow] at hsettled
    cases hsettled.1

/-- The nonce in hand goes into the pool. -/
theorem inv_send {n : Node α} (h : n.Inv) {l : Loop} {transaction : Transaction α}
    {k : Except String (List (Update α)) → Method α Bool}
    (hflow : (n.thread l).flow = .await (.send transaction) k)
    (hsent : (n.thread l).sent = false) :
    Node.Inv { n.set l ⟨(n.thread l).flow, true⟩ with
      pool := n.pool ++ [⟨l, transaction.nonce⟩] } := by
  have hsigned : (n.thread l).signed = some transaction.nonce := by
    unfold Thread.signed
    rw [hflow, hsent]
    rfl
  have hnonces : (n.pool ++ [Entry.mk l transaction.nonce]).map Entry.nonce ++
      List.range' n.base n.best.length ~ transaction.nonce :: n.nonces := by
    rw [List.map_append, List.append_assoc]
    exact List.perm_middle
  have honce : ((n.pool ++ [Entry.mk l transaction.nonce]).map Entry.nonce ++
      List.range' n.base n.best.length).Nodup :=
    hnonces.nodup_iff.mpr (List.nodup_cons.mpr ⟨h.held l _ hsigned, h.once⟩)
  have hnone : ∀ l', ((n.set l ⟨(n.thread l).flow, true⟩).thread l').signed = none := by
    intro l'
    by_cases hl : l' = l
    · subst hl
      rw [Node.set_thread_self, Thread.signed, hflow]
      rfl
    · rw [Node.set_thread_ne _ _ hl]
      cases hother : (n.thread l').signed with
      | none => rfl
      | some a => exact absurd (h.one l' l a _ hother hsigned) hl
  refine ⟨fun l' => ?_, honce, fun l' a ha => ?_, fun l₁ l₂ a b ha => ?_⟩
  · show Stage ((n.set l _).thread l')
    by_cases hl : l' = l
    · subst hl
      rw [Node.set_thread_self]
      exact .awaits transaction k hflow (stage_send h hflow)
    · rw [Node.set_thread_ne _ _ hl]
      exact h.stage l'
  · cases (hnone l').symm.trans ha
  · cases (hnone l₁).symm.trans ha

/-- The promise of a transaction settles, wherever the transaction is. -/
theorem inv_answered {n : Node α} (h : n.Inv) {l : Loop} {transaction : Transaction α}
    {k : Except String (List (Update α)) → Method α Bool}
    (hflow : (n.thread l).flow = .await (.send transaction) k)
    (r : Except String (List (Update α))) : (n.set l ⟨k r, false⟩).Inv := by
  have hrest := stage_send h hflow r
  exact inv_unsigned h n.fields (.settled hrest rfl) (quiet_signed hrest)

theorem inv_inBlock {n : Node α} (h : n.Inv) {pre post : List Entry} {e : Entry}
    (hpool : n.pool = pre ++ e :: post) (hnonce : e.nonce = n.included) :
    Node.Inv { n with pool := pre ++ post, best := n.best ++ [e.loop] } := by
  have hnonces : (pre ++ post).map Entry.nonce ++
      List.range' n.base (n.best ++ [e.loop]).length ~ n.nonces := by
    rw [List.length_append, List.length_singleton, List.range'_concat, Nat.one_mul,
      show n.base + n.best.length = e.nonce from hnonce.symm]
    simp only [Node.nonces, hpool, List.map_append, List.map_cons, List.append_assoc]
    refine List.Perm.append_left _ ?_
    rw [← List.append_assoc]
    exact List.perm_append_singleton ..
  exact inv_world h rfl (hnonces.nodup_iff.mpr h.once) fun a => hnonces.mem_iff.mp

theorem inv_retract {n : Node α} (h : n.Inv) {best : List Loop} {l : Loop}
    (hbest : n.best = best ++ [l]) :
    Node.Inv { n with pool := n.pool ++ [⟨l, n.base + best.length⟩], best := best } := by
  have hnonces : (n.pool ++ [Entry.mk l (n.base + best.length)]).map Entry.nonce ++
      List.range' n.base best.length ~ n.nonces := by
    rw [Node.nonces, hbest, List.length_append, List.length_singleton, List.range'_concat,
      Nat.one_mul, List.map_append, List.append_assoc]
    exact List.Perm.append_left _ (List.perm_append_singleton ..).symm
  exact inv_world h rfl (hnonces.nodup_iff.mpr h.once) fun a => hnonces.mem_iff.mp

theorem inv_finalize {n : Node α} (h : n.Inv) {best : List Loop} {l : Loop}
    (hbest : n.best = l :: best) :
    Node.Inv { n with base := n.base + 1, best := best } := by
  have hnonces : n.pool.map Entry.nonce ++ List.range' (n.base + 1) best.length <+ n.nonces := by
    rw [Node.nonces, hbest, List.length_cons, List.range'_succ]
    exact List.Sublist.append_left (List.sublist_cons_self ..) _
  exact inv_world h rfl (h.once.sublist hnonces) fun a ha => hnonces.subset ha

theorem inv_drop {n : Node α} (h : n.Inv) {pre post : List Entry} {e : Entry}
    (hpool : n.pool = pre ++ e :: post) : Node.Inv { n with pool := pre ++ post } := by
  have hpools : pre ++ post <+ n.pool := by
    rw [hpool]
    exact List.Sublist.append_left (List.sublist_cons_self ..) _
  have hnonces : (pre ++ post).map Entry.nonce ++ List.range' n.base n.best.length <+ n.nonces :=
    List.Sublist.append_right (hpools.map _) _
  exact inv_world h rfl (h.once.sublist hnonces) fun a ha => hnonces.subset ha

theorem inv_step {key : α} {n n' : Node α} (h : n.Inv) (hstep : Node.Step key Node.Free n n') :
    n'.Inv := by
  cases hstep with
  | launch hm hended =>
    have hfresh := sender_fresh hm
    exact inv_unsigned h n.fields (.fresh hfresh rfl) (fresh_signed hfresh)
  | turn hturn => exact inv_turn h hturn
  | serve hflow hplain r => exact inv_serve h hflow (plain_quiet hplain) r
  | account hflow hguard => exact inv_account h hflow hguard
  | @accountFails l k hflow e =>
    obtain ⟨hfresh, hsent⟩ := stage_account h hflow
    have hrest : Quiet (k (.error e)) := hfresh.2 e
    exact inv_unsigned h n.fields (.settled hrest hsent) (quiet_signed hrest)
  | send hflow hsent => exact inv_send h hflow hsent
  | sendFails hflow hsent e => exact inv_answered h hflow (.error e)
  | answer hflow hsent r => exact inv_answered h hflow r
  | inBlock hpool hnonce => exact inv_inBlock h hpool hnonce
  | retract hbest => exact inv_retract h hbest
  | finalize hbest => exact inv_finalize h hbest
  | drop hpool => exact inv_drop h hpool
  | other fields => exact inv_world h rfl h.once fun _ ha => ha

theorem inv_started {n : Node α} (h : n.Started) : n.Inv := by
  have hnonces : n.nonces = [] := by
    rw [Node.nonces, h.pool, h.best]
    rfl
  have hquiet : ∀ l, Quiet (n.thread l).flow := by
    intro l
    have hended := h.ended l
    cases hflow : (n.thread l).flow with
    | done a => trivial
    | fail e => trivial
    | read k | write s k | await c k => rw [hflow] at hended; cases hended
  refine ⟨fun l => .settled (hquiet l) (h.unsent l), ?_, fun l a ha => ?_, fun l l' a b ha => ?_⟩
  · rw [hnonces]
    exact List.nodup_nil
  · cases (quiet_signed (hquiet l)).symm.trans ha
  · cases (quiet_signed (hquiet l)).symm.trans ha

/-- While a loop reads the nonce only when no loop has a nonce in hand and no
transaction is in the pool, no two transactions of the pool have one nonce. -/
theorem pool_nonces_distinct (key : α) {n₀ n : Node α} (h₀ : n₀.Started)
    (h : Relation.ReflTransGen (Node.Step key Node.Free) n₀ n) :
    (n.pool.map Entry.nonce).Nodup := by
  have hinv : n.Inv := by
    induction h with
    | refl => exact inv_started h₀
    | tail _ hstep ih => exact inv_step ih hstep
  exact (List.nodup_append.mp hinv.once).1

/-! ### Two loops in step -/

instance (n : Node α) (l : Loop) : Decidable (n.Free l) :=
  decidable_of_iff (((n.thread .heartbeat).signed = none ∧
      (n.thread .orchestration).signed = none) ∧ n.pool = [])
    ⟨fun h => ⟨fun l' => by cases l' with
      | heartbeat => exact h.1.1
      | orchestration => exact h.1.2, h.2⟩,
    fun h => ⟨⟨h.1 .heartbeat, h.1 .orchestration⟩, h.2⟩⟩

def upAnswer : (c : Call ℕ) → Except String c.Ret
  | .isConnected => .ok true
  | .bestNumber => .ok 5
  | .bestNumberFinalized => .ok 4
  | .health => .ok ⟨3, false⟩
  | _ => .error "unused"

def loopCode : Loop → Method ℕ Bool
  | .heartbeat => addHeartbeat "passive" 2 1
  | .orchestration => setLeader (.address 1) 1 2

theorem loopCode_sender (l : Loop) : Sender 2 l (loopCode l) := by
  cases l with
  | heartbeat => exact .heartbeat "passive" 1
  | orchestration => exact .orchestration (.address 1) 1

section Play
variable (guard : Node ℕ → Loop → Prop) [∀ n l, Decidable (guard n l)]

/-- The next move of a loop on a chain that includes nothing. -/
def Node.advance (n : Node ℕ) (l : Loop) : Node ℕ :=
  match (n.thread l).flow with
  | .done _ => n.set l ⟨loopCode l, false⟩
  | .fail _ => n.set l ⟨loopCode l, false⟩
  | .read _ | .write _ _ =>
    { n.set l ⟨((n.thread l).flow.turn n.fields).1, (n.thread l).sent⟩ with
      fields := ((n.thread l).flow.turn n.fields).2 }
  | .await (.account who) k =>
    if who = 2 ∧ guard n l then n.set l ⟨k (.ok n.included), (n.thread l).sent⟩ else n
  | .await (.send transaction) _ =>
    if (n.thread l).sent then n
    else { n.set l ⟨(n.thread l).flow, true⟩ with pool := n.pool ++ [⟨l, transaction.nonce⟩] }
  | .await c k => if c.plain then n.set l ⟨k (upAnswer c), (n.thread l).sent⟩ else n

theorem advance_step (n : Node ℕ) (l : Loop) :
    Relation.ReflTransGen (Node.Step 2 guard) n (n.advance guard l) := by
  unfold Node.advance
  split
  · next h => exact .single (.launch (loopCode_sender l) (by rw [h]; rfl))
  · next h => exact .single (.launch (loopCode_sender l) (by rw [h]; rfl))
  · next h => exact .single (.turn (by rw [h]; rfl))
  · next h => exact .single (.turn (by rw [h]; rfl))
  · next h =>
    split
    · next hguard =>
      obtain ⟨rfl, hguard⟩ := hguard
      exact .single (.account h hguard)
    · exact .refl
  · next h =>
    split
    · exact .refl
    · next hsent => exact .single (.send h (by simpa using hsent))
  · next h =>
    split
    · next hplain => exact .single (.serve h hplain _)
    · exact .refl

/-- A loop moves, its connection is lost while it awaits its transaction, the next
transaction is included, or the last block is retracted. -/
inductive Move where
  | loop (l : Loop)
  | lose (l : Loop)
  | inBlock
  | retract

def Node.move (n : Node ℕ) : Move → Node ℕ
  | .loop l => n.advance guard l
  | .lose l =>
    match (n.thread l).flow with
    | .await (.send _) k =>
      if (n.thread l).sent then n.set l ⟨k (.error "disconnected"), false⟩ else n
    | _ => n
  | .inBlock =>
    match n.pool with
    | e :: post =>
      if e.nonce = n.included then { n with pool := post, best := n.best ++ [e.loop] } else n
    | [] => n
  | .retract =>
    match n.best with
    | [l] => { n with pool := n.pool ++ [⟨l, n.base⟩], best := [] }
    | _ => n

theorem move_steps (n : Node ℕ) (v : Move) :
    Relation.ReflTransGen (Node.Step 2 guard) n (n.move guard v) := by
  cases v with
  | loop l => exact advance_step guard n l
  | lose l =>
    simp only [Node.move]
    split
    · next h =>
      split
      · next hsent => exact .single (.answer h hsent _)
      · exact .refl
    · exact .refl
  | inBlock =>
    simp only [Node.move]
    split
    · next e post h =>
      split
      · next hnonce => exact .single (.inBlock (show n.pool = [] ++ e :: post from h) hnonce)
      · exact .refl
    · exact .refl
  | retract =>
    simp only [Node.move]
    split
    · next l h => exact .single (.retract (show n.best = [] ++ [l] from h))
    · exact .refl

def Node.play (n : Node ℕ) (moves : List Move) : Node ℕ := moves.foldl (Node.move guard) n

theorem play_steps (n : Node ℕ) (moves : List Move) :
    Relation.ReflTransGen (Node.Step 2 guard) n (n.play guard moves) := by
  induction moves generalizing n with
  | nil => exact .refl
  | cons v moves ih => exact (move_steps guard n v).trans (ih (n.move guard v))

end Play

def idleNode : Node ℕ := ⟨{}, fun _ => ⟨.done false, false⟩, 7, [], []⟩

theorem idleNode_started : idleNode.Started := ⟨fun _ => rfl, fun _ => rfl, rfl, rfl⟩

/-- Both loops, in turn. -/
def inStep : List Move := (List.replicate 12 [.loop .heartbeat, .loop .orchestration]).flatten

/-- The heartbeat loop loses its connection while its transaction is pending, and
both loops come to the nonce. The transaction is included, the loops send again,
and the block is retracted. -/
def lost : List Move :=
  inStep ++ .lose .heartbeat :: inStep ++ .inBlock :: inStep ++ [.retract]

theorem pool_nonces_distinct_lost :
    (idleNode.play Node.Free lost).pool = [⟨.heartbeat, 8⟩, ⟨.heartbeat, 7⟩] ∧
      ((idleNode.play Node.Free lost).pool.map Entry.nonce).Nodup :=
  ⟨by decide +kernel, pool_nonces_distinct 2 idleNode_started (play_steps Node.Free idleNode lost)⟩

/-- The loops read the same nonce and send one after the other. -/
theorem nonce_signed_twice : ¬ ∀ (key : ℕ) (n₀ n : Node ℕ), n₀.Started →
    Relation.ReflTransGen (Node.Step key fun _ _ => True) n₀ n →
    (n.pool.map Entry.nonce).Nodup := by
  intro h
  have hnodup := h 2 idleNode _ idleNode_started (play_steps (fun _ _ => True) idleNode inStep)
  have hpool : (idleNode.play (fun _ _ => True) inStep).pool =
    [⟨.heartbeat, 7⟩, ⟨.orchestration, 7⟩] := by decide +kernel
  rw [hpool] at hnodup
  exact absurd hnodup (by decide)

end Archipel.Chain
