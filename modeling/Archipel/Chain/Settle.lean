import Archipel.Chain.Rpc

/-!
# The answer of a sent transaction

The pool reports the status of a transaction up to a terminal one. The callback
settles the promise at the first update that decides; the terminal status
`finalityTimeout` is the one that it does not know.
-/

namespace Archipel.Chain
open Async

variable {α : Type}

/-- The pool reports nothing after such a status. -/
def Status.terminal : Status → Bool
  | .finalized | .finalityTimeout | .usurped | .dropped | .invalid => true
  | _ => false

/-- A stream of updates as the pool delivers it. -/
structure Stream (α : Type) where
  before : List (Update α)
  last : Update α
  before_live : ∀ update ∈ before, update.status.terminal = false
  last_terminal : last.status.terminal = true

def Stream.updates (stream : Stream α) : List (Update α) := stream.before ++ [stream.last]

/-- What the sender should learn of its transaction. -/
def Stream.result (stream : Stream α) (isEvent : Pallet.Event α → Bool) : Bool :=
  stream.last.status = .finalized && stream.last.events.any isEvent

theorem settle_live (isEvent : Pallet.Event α → Bool) {updates : List (Update α)}
    (h : ∀ update ∈ updates, update.status.terminal = false) (rest : List (Update α)) :
    settle isEvent (updates ++ rest) = settle isEvent rest := by
  induction updates with
  | nil => rfl
  | cons update updates ih =>
    have hlive := h update (List.mem_cons_self ..)
    have hrest := ih fun u hu => h u (List.mem_cons_of_mem update hu)
    rw [List.cons_append, settle]
    cases hstatus : update.status <;> simp_all [Status.terminal]

theorem settle_stream (isEvent : Pallet.Event α → Bool) (stream : Stream α) :
    settle isEvent stream.updates =
      if stream.last.status = .finalityTimeout then none else some (stream.result isEvent) := by
  have hterminal := stream.last_terminal
  rw [Stream.updates, settle_live isEvent stream.before_live, settle, Stream.result]
  cases hstatus : stream.last.status <;> simp_all [Status.terminal, settle]

/-- The methods that send a transaction, with the event that each waits for. -/
inductive Sends (key : α) : Method α Bool → Pallet.Call α → (Pallet.Event α → Bool) → Prop
  | addHeartbeat (mode : String) (nodeGroupId : UInt32) :
      Sends key (addHeartbeat mode key nodeGroupId)
        (.addHeartbeat nodeGroupId (fromModeToNodeStatus mode)) isNewHeartbeat
  | setLeader (oldLeader : α) (groupId : UInt32) :
      Sends key (setLeader (.address oldLeader) groupId key) (.setLeader oldLeader groupId)
        isNewLeader
  | giveUpLeadership (groupId : UInt32) :
      Sends key (giveUpLeadership groupId key) (.giveUpLeadership groupId) isGiveUpLeader

theorem sends_submit {key : α} {m : Method α Bool} {call : Pallet.Call α}
    {isEvent : Pallet.Event α → Bool} (h : Sends key m call isEvent) :
    m = submit key call isEvent := by
  cases h with
  | addHeartbeat mode nodeGroupId => exact addHeartbeat_submit mode key nodeGroupId
  | setLeader oldLeader groupId => exact setLeader_submit oldLeader groupId key
  | giveUpLeadership groupId => exact giveUpLeadership_submit groupId key

theorem run_sends {key : α} {m : Method α Bool} {call : Pallet.Call α}
    {isEvent : Pallet.Event α → Bool} (h : Sends key m call isEvent) {f : State} {r : Rpc α}
    (hsend : CanSend f r) {nonce : ℕ} (haccount : r.account = .ok nonce) {stream : Stream α}
    (hupdates : r.updates ⟨key, nonce, call⟩ = .ok stream.updates) :
    (r.run m f).map Prod.fst =
      if stream.last.status = .finalityTimeout then none
      else some (.ok (stream.result isEvent)) := by
  obtain ⟨f', w', hrun⟩ := exec_submit hsend haccount key call isEvent
  rw [Rpc.run, sends_submit h, hrun, exec_signAndSend r f' w' hupdates, settle_stream]
  split <;> rfl

/-- A sent transaction is answered, and by what became of it, if and only if its
stream does not end with a finality timeout; then it is never answered. -/
theorem sent_transaction_answered_iff {key : α} {m : Method α Bool} {call : Pallet.Call α}
    {isEvent : Pallet.Event α → Bool} (h : Sends key m call isEvent) (f : State) (r : Rpc α)
    (hsend : CanSend f r) (nonce : ℕ) (haccount : r.account = .ok nonce) (stream : Stream α)
    (hupdates : r.updates ⟨key, nonce, call⟩ = .ok stream.updates) :
    ((r.run m f).map Prod.fst = some (.ok (stream.result isEvent)) ↔
      stream.last.status ≠ .finalityTimeout) ∧
    (stream.last.status = .finalityTimeout → r.run m f = none) := by
  have hrun := run_sends h hsend haccount hupdates
  by_cases htimeout : stream.last.status = .finalityTimeout
  · rw [if_pos htimeout] at hrun
    exact ⟨by simp [hrun, htimeout], fun _ => Option.map_eq_none_iff.mp hrun⟩
  · rw [if_neg htimeout] at hrun
    exact ⟨by simp [hrun, htimeout], fun ht => absurd ht htimeout⟩

def deaf (last : Update ℕ) (h : last.status.terminal = true) : Stream ℕ :=
  ⟨[⟨.ready, []⟩, ⟨.inBlock, []⟩, ⟨.retracted, []⟩, ⟨.inBlock, []⟩], last, by decide, h⟩

/-- A synchronized chain that delivers the stream. -/
def delivering (stream : Stream ℕ) : Rpc ℕ where
  connected := .ok true
  bests := fun _ => .ok 5
  finalized := .ok 4
  health := fun _ => .ok ⟨3, false⟩
  leader := .ok 1
  leaded := .ok true
  account := .ok 7
  updates := fun _ => .ok stream.updates

theorem delivering_canSend (stream : Stream ℕ) : CanSend {} (delivering stream) :=
  ⟨rfl, fun h => absurd h.1 (by decide : (0 : ℕ) ≠ 5), (by decide : (5 : ℤ) - 4 < 10),
    .inl ⟨(by decide : 3 ≠ 0), (by decide : some false ≠ some true)⟩⟩

def finalizedLeader : Stream ℕ := deaf ⟨.finalized, [.newLeader 2 1]⟩ rfl

def finalityLost : Stream ℕ := deaf ⟨.finalityTimeout, []⟩ rfl

theorem sent_transaction_answered_iff_finalized :
    (((delivering finalizedLeader).run (setLeader (.address 1) 1 2) {}).map Prod.fst =
      some (.ok (finalizedLeader.result isNewLeader)) ↔
        finalizedLeader.last.status ≠ .finalityTimeout) ∧
    (finalizedLeader.last.status = .finalityTimeout →
      (delivering finalizedLeader).run (setLeader (.address 1) 1 2) {} = none) :=
  sent_transaction_answered_iff (.setLeader 1 1) {} (delivering finalizedLeader)
    (delivering_canSend finalizedLeader) 7 rfl finalizedLeader rfl

/-- A transaction that loses finality is not answered. -/
theorem finality_timeout_unanswered : ¬ ∀ (key : ℕ) (m : Method ℕ Bool) (call : Pallet.Call ℕ)
    (isEvent : Pallet.Event ℕ → Bool), Sends key m call isEvent → ∀ (f : State) (r : Rpc ℕ),
    CanSend f r → ∀ nonce, r.account = .ok nonce → ∀ stream : Stream ℕ,
    r.updates ⟨key, nonce, call⟩ = .ok stream.updates →
    (r.run m f).map Prod.fst = some (.ok (stream.result isEvent)) := by
  intro h
  have hanswer := h 2 _ _ _ (.setLeader 1 1) {} (delivering finalityLost)
    (delivering_canSend finalityLost) 7 rfl finalityLost rfl
  rw [run_sends (.setLeader 1 1) (delivering_canSend finalityLost) rfl rfl] at hanswer
  have htimeout : finalityLost.last.status = .finalityTimeout := rfl
  rw [if_pos htimeout] at hanswer
  cases hanswer

end Archipel.Chain
