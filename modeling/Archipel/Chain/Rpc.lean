import Archipel.Chain

/-!
# The chain client over scripted calls

What the methods of the chain client answer when the calls of the API are
scripted: the tests before a transaction, the queries with their sentinels and
the sent transaction.
-/

namespace Archipel.Chain
open Async

variable {α : Type}

/-! ### The calls of the API during one method -/

/-- The answers to the calls of the API during one method; a call that a method
makes more than once is answered by its count. -/
structure Rpc (α : Type) where
  connected : Except String Bool
  bests : ℕ → Except String ℕ
  finalized : Except String ℕ
  health : ℕ → Except String Health
  leader : Except String α
  leaded : Except String Bool
  account : Except String ℕ
  updates : Transaction α → Except String (List (Update α))

structure Counts where
  bests : ℕ := 0
  healths : ℕ := 0

def Rpc.script (r : Rpc α) : Script (api α) String Counts
  | .isConnected, w => some (r.connected, w)
  | .bestNumber, w => some (r.bests w.bests, { w with bests := w.bests + 1 })
  | .bestNumberFinalized, w => some (r.finalized, w)
  | .health, w => some (r.health w.healths, { w with healths := w.healths + 1 })
  | .leaders _, w => some (r.leader, w)
  | .leadedGroup _, w => some (r.leaded, w)
  | .account _, w => some (r.account, w)
  | .send transaction, w => some (r.updates transaction, w)
  | .setTimeout _, w => some (.ok (), w)
  | .heartbeats _, _ => none
  | .never, _ => none

/-- The outcome of a method of the chain client and the fields it leaves. -/
def Rpc.run {β : Type} (r : Rpc α) (m : Method α β) (f : State) :
    Option (Except String β × State) := (exec r.script m (f, {})).map fun a => (a.1, a.2.1)

def orZero : Except String ℕ → ℕ
  | .ok n => n
  | .error _ => 0

def peersOf : Except String Health → ℕ
  | .ok health => health.peers
  | .error _ => 0

def syncOf : Except String Health → Option Bool
  | .ok health => some health.isSyncing
  | .error _ => none

variable (r : Rpc α) (f : State) (w : Counts)

theorem exec_getBestNumber : exec r.script getBestNumber (f, w) =
    some (.ok (orZero (r.bests w.bests)), (f, { w with bests := w.bests + 1 })) := by
  unfold getBestNumber
  rw [exec_tryCatch, exec_call]
  show recover _ _ (some (r.bests w.bests, _)) = _
  cases r.bests w.bests <;> rfl

theorem exec_getBestNumberFinalized : exec r.script getBestNumberFinalized (f, w) =
    some (.ok (orZero r.finalized), (f, w)) := by
  unfold getBestNumberFinalized
  rw [exec_tryCatch, exec_call]
  show recover _ _ (some (r.finalized, _)) = _
  cases r.finalized <;> rfl

theorem exec_getPeerNumber : exec r.script getPeerNumber (f, w) =
    some (.ok (peersOf (r.health w.healths)), (f, { w with healths := w.healths + 1 })) := by
  unfold getPeerNumber
  rw [exec_tryCatch, exec_bind, exec_call]
  show recover _ _ (andThen _ _ (some (r.health w.healths, _))) = _
  cases r.health w.healths <;> rfl

theorem exec_getSyncState : exec r.script getSyncState (f, w) =
    some (.ok (syncOf (r.health w.healths)), (f, { w with healths := w.healths + 1 })) := by
  unfold getSyncState
  rw [exec_tryCatch, exec_bind, exec_call]
  show recover _ _ (andThen _ _ (some (r.health w.healths, _))) = _
  cases r.health w.healths <;> rfl

/-! ### The tests before a transaction -/

def Moving (f : State) (block : ℕ) : Prop :=
  ¬ (f.lastBlockNumber = block ∧ f.lastBlockThreshold ≤ f.lastBlockAccumulator + 1)

def Near (f : State) (best finalized : ℕ) : Prop :=
  (best : ℤ) - finalized < f.finalizedGap

def InSync (peers syncState : Except String Health) : Prop :=
  peersOf peers ≠ 0 ∧ syncOf syncState ≠ some true

theorem inSync_iff (peers syncState : Except String Health) :
    (decide (peersOf peers ≠ 0) && decide (syncOf syncState ≠ some true)) = true ↔
      InSync peers syncState := by
  simp [InSync]

/-- `canSendTransactions` looks at the peers and the sync state once more when
it does not like them the first time. -/
structure CanSend (f : State) (r : Rpc α) : Prop where
  connected : r.connected = .ok true
  moving : Moving f (orZero (r.bests 0))
  near : Near f (orZero (r.bests 1)) (orZero r.finalized)
  sync : InSync (r.health 0) (r.health 1) ∨ InSync (r.health 2) (r.health 3)

def moved (f : State) (block : ℕ) : State :=
  { f with
    lastBlockNumber := block
    lastBlockAccumulator :=
      if f.lastBlockNumber = block then f.lastBlockAccumulator + 1 else 0 }

instance (f : State) (block : ℕ) : Decidable (Moving f block) :=
  inferInstanceAs (Decidable (¬ _))

theorem exec_chainMovingForward : ∃ f', exec r.script chainMovingForward (f, w) =
    some (.ok (decide (Moving f (orZero (r.bests w.bests)))),
      (f', { w with bests := w.bests + 1 })) ∧
    (Moving f (orZero (r.bests w.bests)) → f' = moved f (orZero (r.bests w.bests))) := by
  unfold chainMovingForward
  rw [exec_bind, exec_getBestNumber]
  generalize orZero (r.bests w.bests) = block
  dsimp only [andThen]
  rw [exec_modify_bind, exec_get_bind]
  by_cases hblock : f.lastBlockNumber = block
  · by_cases hstall : f.lastBlockThreshold ≤ f.lastBlockAccumulator + 1
    · have hmoving : ¬ Moving f block := fun h => h ⟨hblock, hstall⟩
      refine ⟨{ f with lastBlockAccumulator := f.lastBlockAccumulator + 1 }, ?_,
        fun h => absurd h hmoving⟩
      simp only [hblock, hstall, hmoving, if_true, true_and, decide_false]
      rfl
    · have hmoving : Moving f block := fun h => hstall h.2
      refine ⟨moved f block, ?_, fun _ => rfl⟩
      simp only [hblock, hstall, hmoving, if_true, true_and, if_false, decide_true, moved]
      rfl
  · have hmoving : Moving f block := fun h => hblock h.1
    refine ⟨moved f block, ?_, fun _ => rfl⟩
    simp only [hblock, hmoving, false_and, if_false, decide_true, moved]
    rfl

theorem exec_canSendTransactions (hconnected : r.connected = .ok true) : ∃ out f' w',
    exec r.script canSendTransactions (f, {}) = some (.ok out, (f', w')) ∧
    (out = true ↔ CanSend f r) ∧ (out = true → f' = moved f (orZero (r.bests 0))) := by
  have hc : exec r.script isConnected (f, {}) = some (.ok true, (f, {})) := by
    unfold isConnected
    rw [exec_call]
    show some (r.connected, _) = _
    rw [hconnected]
  obtain ⟨f₁, hmoving, hf₁⟩ := exec_chainMovingForward r f {}
  unfold canSendTransactions
  rw [exec_bind, hc]
  dsimp only [andThen]
  rw [if_neg (by decide), exec_bind, hmoving]
  by_cases hm : Moving f (orZero (r.bests 0))
  · rw [decide_eq_true hm]
    dsimp only [andThen]
    rw [if_neg (by decide), exec_bind, exec_getBestNumber]
    dsimp only [andThen]
    rw [exec_bind, exec_getBestNumberFinalized]
    dsimp only [andThen]
    rw [exec_get_bind]
    have hf : f₁ = moved f (orZero (r.bests 0)) := hf₁ hm
    by_cases hnear : Near f (orZero (r.bests 1)) (orZero r.finalized)
    · have hgap : ¬ ((orZero (r.bests 1) : ℤ) - orZero r.finalized ≥ f₁.finalizedGap) := by
        rw [hf]
        exact Int.not_le.mpr hnear
      have hsend : ∀ out : Bool, (out = true ↔ InSync (r.health 0) (r.health 1) ∨
          InSync (r.health 2) (r.health 3)) → (out = true ↔ CanSend f r) := fun out hout =>
        hout.trans ⟨fun h => ⟨hconnected, hm, hnear, h⟩, CanSend.sync⟩
      dsimp only
      rw [if_neg hgap, exec_bind, exec_getPeerNumber]
      dsimp only [andThen]
      rw [exec_bind, exec_getSyncState]
      dsimp only [andThen]
      by_cases hsync : InSync (r.health 0) (r.health 1)
      · have hfirst : ¬ (peersOf (r.health 0) = 0 ∨ syncOf (r.health 1) = some true) :=
          not_or.mpr hsync
        rw [if_neg hfirst]
        exact ⟨_, _, _, rfl, hsend _ ((inSync_iff _ _).trans (by simp [hsync])), fun _ => hf⟩
      · have hfirst : peersOf (r.health 0) = 0 ∨ syncOf (r.health 1) = some true := by
          by_contra h
          exact hsync (not_or.mp h)
        rw [if_pos hfirst, exec_bind, exec_call]
        dsimp only [Rpc.script, Option.map, andThen]
        rw [exec_bind, exec_getPeerNumber]
        dsimp only [andThen]
        rw [exec_bind, exec_getSyncState]
        dsimp only [andThen]
        exact ⟨_, _, _, rfl, hsend _ ((inSync_iff _ _).trans (by simp [hsync])), fun _ => hf⟩
    · have hgap : (orZero (r.bests 1) : ℤ) - orZero r.finalized ≥ f₁.finalizedGap := by
        rw [hf]
        exact Int.not_lt.mp hnear
      dsimp only
      rw [if_pos hgap]
      exact ⟨false, _, _, rfl, by simpa using fun h : CanSend f r => hnear h.near, by simp⟩
  · rw [decide_eq_false hm]
    exact ⟨false, f₁, _, rfl, by simpa using fun h : CanSend f r => hm h.moving, by simp⟩

theorem run_canSendTransactions :
    (r.run canSendTransactions f).map Prod.fst = some (.ok true) ↔ CanSend f r := by
  have hcall : exec r.script (isConnected (α := α)) (f, {}) =
      some (r.connected, (f, {})) := by
    unfold isConnected
    rw [exec_call]
    rfl
  cases hconnected : r.connected with
  | error e =>
    have hthrow : exec r.script (canSendTransactions (α := α)) (f, {}) =
        some (.error e, (f, {})) := by
      unfold canSendTransactions
      rw [exec_bind, hcall, hconnected]
      rfl
    rw [Rpc.run, hthrow]
    simpa using fun h : CanSend f r => by simpa [hconnected] using h.connected
  | ok connected =>
    cases connected with
    | false =>
      have hfalse : exec r.script (canSendTransactions (α := α)) (f, {}) =
          some (.ok false, (f, {})) := by
        unfold canSendTransactions
        rw [exec_bind, hcall, hconnected]
        rfl
      rw [Rpc.run, hfalse]
      simpa using fun h : CanSend f r => by simpa [hconnected] using h.connected
    | true =>
      obtain ⟨out, f', w', hrun, hout, -⟩ := exec_canSendTransactions r f hconnected
      rw [Rpc.run, hrun, ← hout]
      simp

/-! ### The three transactions -/

/-- What the three sending methods have in common. -/
def submit (key : α) (call : Pallet.Call α) (isEvent : Pallet.Event α → Bool) :
    Method α Bool := do
  let sendTransaction ← canSendTransactions
  if sendTransaction then do
    let nonce ← request (.account key)
    signAndSend ⟨key, nonce, call⟩ isEvent
  else
    pure false

theorem addHeartbeat_submit (mode : String) (key : α) (nodeGroupId : UInt32) :
    addHeartbeat mode key nodeGroupId =
      submit key (.addHeartbeat nodeGroupId (fromModeToNodeStatus mode)) isNewHeartbeat := rfl

theorem setLeader_submit (oldLeader : α) (groupId : UInt32) (key : α) :
    setLeader (.address oldLeader) groupId key =
      submit key (.setLeader oldLeader groupId) isNewLeader := rfl

theorem giveUpLeadership_submit (groupId : UInt32) (key : α) :
    giveUpLeadership groupId key = submit key (.giveUpLeadership groupId) isGiveUpLeader := rfl

theorem exec_signAndSend {transaction : Transaction α} {updates : List (Update α)}
    (hupdates : r.updates transaction = .ok updates) (isEvent : Pallet.Event α → Bool) :
    exec r.script (signAndSend transaction isEvent) (f, w) =
      (settle isEvent updates).map fun result => (.ok result, (f, w)) := by
  have hcall : exec r.script (request (.send transaction)) (f, w) =
      some (r.updates transaction, (f, w)) := exec_call ..
  unfold signAndSend
  rw [exec_bind, hcall, hupdates]
  dsimp only [andThen]
  cases settle isEvent updates with
  | none =>
    dsimp only
    rw [exec_bind, exec_call]
    rfl
  | some result => rfl

theorem exec_signAndSend_error {transaction : Transaction α} {e : String}
    (hupdates : r.updates transaction = .error e) (isEvent : Pallet.Event α → Bool) :
    exec r.script (signAndSend transaction isEvent) (f, w) = some (.error e, (f, w)) := by
  have hcall : exec r.script (request (.send transaction)) (f, w) =
      some (r.updates transaction, (f, w)) := exec_call ..
  unfold signAndSend
  rw [exec_bind, hcall, hupdates]
  rfl

theorem exec_submit {r : Rpc α} {f : State} (hsend : CanSend f r) {nonce : ℕ}
    (haccount : r.account = .ok nonce) (key : α) (call : Pallet.Call α)
    (isEvent : Pallet.Event α → Bool) : ∃ f' w', exec r.script (submit key call isEvent) (f, {}) =
      exec r.script (signAndSend ⟨key, nonce, call⟩ isEvent) (f', w') := by
  obtain ⟨out, f', w', hrun, hout, -⟩ := exec_canSendTransactions r f hsend.connected
  have hcall : exec r.script (request (.account key)) (f', w') =
      some (r.account, (f', w')) := exec_call ..
  refine ⟨f', w', ?_⟩
  unfold submit
  rw [exec_bind, hrun, hout.mpr hsend]
  dsimp only [andThen]
  rw [if_pos rfl, exec_bind, hcall, haccount]
  rfl

/-- `setLeader` answers true: the tests are passed and the transaction is
finalized with the event. -/
def Taken (f : State) (r : Rpc α) (oldLeader : Wallet α) (groupId : UInt32) (key : α) : Prop :=
  CanSend f r ∧ ∃ leader nonce updates, oldLeader = .address leader ∧ r.account = .ok nonce ∧
    r.updates ⟨key, nonce, .setLeader leader groupId⟩ = .ok updates ∧
    settle isNewLeader updates = some true

theorem run_setLeader (oldLeader : Wallet α) (groupId : UInt32) (key : α) :
    (r.run (setLeader oldLeader groupId key) f).map Prod.fst = some (.ok true) ↔
      Taken f r oldLeader groupId key := by
  have hsend := run_canSendTransactions r f
  unfold Rpc.run at hsend ⊢
  unfold setLeader Taken
  rw [exec_bind, ← hsend]
  rcases exec r.script (canSendTransactions (α := α)) (f, {}) with _ | ⟨out, f', w'⟩
  · simp [andThen]
  · cases out with
    | error e => simp [andThen]
    | ok sendTransaction =>
      cases sendTransaction with
      | false => simp [andThen, exec_pure]
      | true =>
        have hcall : exec r.script (request (.account key)) (f', w') =
            some (r.account, (f', w')) := exec_call ..
        dsimp only [andThen]
        rw [if_pos rfl, exec_bind, hcall]
        cases haccount : r.account with
        | error e => simp [andThen]
        | ok nonce =>
          cases oldLeader with
          | text t =>
            have hthrow : exec r.script (throw "Decoding: invalid address" : Method α Bool)
              (f', w') = some (.error "Decoding: invalid address", (f', w')) := rfl
            dsimp only [andThen]
            rw [hthrow]
            simp
          | address leader =>
            dsimp only [andThen]
            cases hupdates : r.updates ⟨key, nonce, .setLeader leader groupId⟩ with
            | error e =>
              rw [exec_signAndSend_error r f' w' hupdates]
              simp [hupdates]
            | ok updates =>
              rw [exec_signAndSend r f' w' hupdates]
              cases hsettle : settle isNewLeader updates <;> simp [hupdates, hsettle]

/-! ### The queries -/

def leaderOf : Except String α → Option α
  | .ok leader => some leader
  | .error _ => none

def leadedOf : Except String Bool → Bool
  | .ok leaded => leaded
  | .error _ => false

theorem run_getBestNumber :
    (r.run getBestNumber f).map Prod.fst = some (.ok (orZero (r.bests 0))) := by
  rw [Rpc.run, exec_getBestNumber]
  rfl

theorem run_getLeader (groupId : UInt32) :
    (r.run (getLeader groupId) f).map Prod.fst = some (.ok (leaderOf r.leader)) := by
  have hcall : exec r.script (request (.leaders groupId)) (f, {}) =
      some (r.leader, (f, {})) := exec_call ..
  unfold Rpc.run getLeader
  rw [exec_tryCatch, exec_bind, hcall]
  cases r.leader <;> rfl

theorem run_isLeadedGroup (groupId : UInt32) :
    (r.run (isLeadedGroup groupId) f).map Prod.fst = some (.ok (leadedOf r.leaded)) := by
  have hcall : exec r.script (request (.leadedGroup groupId)) (f, {}) =
      some (r.leaded, (f, {})) := exec_call ..
  unfold Rpc.run isLeadedGroup
  rw [exec_tryCatch, hcall]
  cases r.leaded <;> rfl

/-! ### Failed calls -/

def Failed {β : Type} (a b : Except String β) : Prop := b = a ∨ ∃ e, b = .error e

structure Rpc.Failing (r r' : Rpc α) : Prop where
  connected : r'.connected = r.connected
  bests : ∀ k, Failed (r.bests k) (r'.bests k)
  finalized : Failed r.finalized r'.finalized
  health : ∀ k, Failed (r.health k) (r'.health k)
  leader : Failed r.leader r'.leader
  leaded : Failed r.leaded r'.leaded
  account : r'.account = r.account
  updates : r'.updates = r.updates

theorem Failed.of_ok {β : Type} {a b : Except String β} (h : Failed a b) {v : β}
    (hb : b = .ok v) : a = .ok v := by
  rcases h with h | ⟨e, h⟩
  · rw [← h, hb]
  · rw [h] at hb
    cases hb

theorem Failed.leader {a b : Except String α} (h : Failed a b) {who : α}
    (hb : leaderOf b = some who) : leaderOf a = some who := by
  cases b with
  | error e => cases hb
  | ok leader =>
    cases hb
    rw [h.of_ok rfl]
    rfl

theorem Failed.orZero_le {a b : Except String ℕ} (h : Failed a b) : orZero b ≤ orZero a := by
  rcases h with h | ⟨e, h⟩
  · exact Nat.le_of_eq (congrArg orZero h)
  · rw [h]
    exact Nat.zero_le _

/-- The reads of the best number, of the sync state and of the led group are
answered as before. -/
structure Rpc.Kept (r r' : Rpc α) : Prop where
  bests : r'.bests = r.bests
  syncState : r'.health 1 = r.health 1
  syncStateAgain : r'.health 3 = r.health 3

theorem inSync_kept {p p' q q' : Except String Health} (hp : Failed p p') (hq : q' = q)
    (h : InSync p' q') : InSync p q := by
  rw [hq] at h
  refine ⟨?_, h.2⟩
  rcases hp with hp | ⟨e, hp⟩
  · rw [← hp]
    exact h.1
  · rw [hp] at h
    exact absurd rfl h.1

theorem canSend_kept {r r' : Rpc α} (hfail : r.Failing r') (hkept : r.Kept r') {f : State}
    (h : CanSend f r') : CanSend f r := by
  refine ⟨hfail.connected ▸ h.connected, hkept.bests ▸ h.moving, ?_, ?_⟩
  · have hnear := h.near
    have hle := hfail.finalized.orZero_le
    rw [hkept.bests] at hnear
    unfold Near at hnear ⊢
    omega
  · rcases h.sync with hsync | hsync
    · exact .inl (inSync_kept (hfail.health 0) hkept.syncState hsync)
    · exact .inr (inSync_kept (hfail.health 2) hkept.syncStateAgain hsync)

end Archipel.Chain
