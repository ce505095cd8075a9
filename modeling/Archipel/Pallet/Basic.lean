import Mathlib.Logic.Function.Basic
import Mathlib.Data.Nat.Notation

/-!
# The archipel pallet (chain/pallets/archipel/src/lib.rs)

Storage, events and the three dispatchable functions of the pallet. A
dispatchable runs in `Dispatch`: an error is reported together with the storage
as it stands at the error, so that nothing is assumed about a rollback.
Storage maps are partial functions; a `ValueQuery` map is read through its
default. The account type and its default are parameters, block numbers are
natural numbers.
-/

namespace Archipel.Pallet

/-- A storage map with optional entries. -/
abbrev StorageMap (κ ν : Type) := κ → Option ν

inductive Event (α : Type) where
  | newHeartbeat (who : α) (groupId nodeStatus : UInt32) (now : ℕ)
  | newLeader (who : α) (groupId : UInt32)
  | giveUpLeader (who : α) (groupId : UInt32)
  deriving DecidableEq, Repr

structure Storage (α : Type) where
  heartbeats : StorageMap α ℕ
  nodesStatus : StorageMap α UInt32
  groups : StorageMap α UInt32
  leaders : StorageMap UInt32 α
  leadedGroup : StorageMap UInt32 Bool
  accounts : StorageMap UInt32 α
  accountsCount : Option UInt32
  accountsIndex : StorageMap α UInt32
  events : List (Event α)

/-- Storage of a chain whose genesis configures nothing in the pallet. -/
def Storage.empty {α : Type} : Storage α where
  heartbeats := fun _ => none
  nodesStatus := fun _ => none
  groups := fun _ => none
  leaders := fun _ => none
  leadedGroup := fun _ => none
  accounts := fun _ => none
  accountsCount := none
  accountsIndex := fun _ => none
  events := []

inductive Origin (α : Type) where
  | root
  | signed (who : α)
  | none
  deriving DecidableEq, Repr

inductive DispatchError where
  | badOrigin
  | other (message : String)
  deriving DecidableEq, Repr

abbrev Dispatch (α β : Type) := ExceptT DispatchError (StateM (Storage α)) β

variable {α β γ : Type}

def exec (m : Dispatch α β) (s : Storage α) : Except DispatchError β × Storage α :=
  m.run.run s

@[simp] theorem exec_pure (b : β) (s : Storage α) :
    exec (pure b : Dispatch α β) s = (.ok b, s) := rfl

@[simp] theorem exec_throw (e : DispatchError) (s : Storage α) :
    exec (throw e : Dispatch α β) s = (.error e, s) := rfl

@[simp] theorem exec_get (s : Storage α) :
    exec (get : Dispatch α (Storage α)) s = (.ok s, s) := rfl

@[simp] theorem exec_modify (f : Storage α → Storage α) (s : Storage α) :
    exec (modify f : Dispatch α Unit) s = (.ok (), f s) := rfl

@[simp] theorem exec_bind (m : Dispatch α β) (f : β → Dispatch α γ) (s : Storage α) :
    exec (m >>= f) s = match exec m s with
      | (.ok b, s') => exec (f b) s'
      | (.error e, s') => (.error e, s') := by
  have hm : exec m s = m s := rfl
  have hb : exec (m >>= f) s = match m s with
      | (r, s') => ExceptT.bindCont f r s' := rfl
  rw [hb, hm]
  rcases m s with ⟨r, s'⟩
  cases r <;> rfl

def ensureSigned : Origin α → Dispatch α α
  | .signed who => pure who
  | _ => throw .badOrigin

def ensure (p : Prop) [Decidable p] (message : String) : Dispatch α Unit :=
  if p then pure () else throw (.other message)

@[simp] theorem exec_ensure (p : Prop) [Decidable p] (message : String) (s : Storage α) :
    exec (ensure p message) s = if p then (.ok (), s) else (.error (.other message), s) := by
  unfold ensure
  split <;> rfl

def depositEvent (event : Event α) : Dispatch α Unit :=
  modify fun s => { s with events := s.events ++ [event] }

/-- `Leaders` is a `ValueQuery` map: an unled group reads as the default account. -/
def Storage.getLeader [Inhabited α] (s : Storage α) (groupId : UInt32) : α :=
  (s.leaders groupId).getD default

def Storage.getLeadedGroup (s : Storage α) (groupId : UInt32) : Bool :=
  (s.leadedGroup groupId).getD false

def Storage.getHeartbeat [DecidableEq α] (s : Storage α) (who : α) : ℕ :=
  (s.heartbeats who).getD 0

def saturatingAdd (a b : UInt32) : UInt32 :=
  if a.toNat + b.toNat < UInt32.size then a + b else UInt32.ofNat (UInt32.size - 1)

section Calls
variable [DecidableEq α]

def addAccount (account : α) : Dispatch α Unit := do
  let s ← get
  if (s.accountsIndex account).isNone then
    let accountsCount := s.accountsCount.getD 0
    let newAccountsCount := saturatingAdd accountsCount 1
    modify fun s =>
      { s with accounts := Function.update s.accounts accountsCount (some account) }
    modify fun s => { s with accountsCount := some newAccountsCount }
    modify fun s =>
      { s with accountsIndex := Function.update s.accountsIndex account (some accountsCount) }

def Storage.register (s : Storage α) (account : α) : Storage α :=
  if (s.accountsIndex account).isNone then
    { s with
      accounts := Function.update s.accounts (s.accountsCount.getD 0) (some account)
      accountsCount := some (saturatingAdd (s.accountsCount.getD 0) 1)
      accountsIndex := Function.update s.accountsIndex account (some (s.accountsCount.getD 0)) }
  else s

theorem exec_addAccount (account : α) (s : Storage α) :
    exec (addAccount account) s = (.ok (), s.register account) := by
  cases h : s.accountsIndex account with
  | none => simp [addAccount, Storage.register, h]
  | some index => simp [addAccount, Storage.register, h]

variable [Inhabited α]

def setLeader (origin : Origin α) (oldLeader : α) (groupId : UInt32) : Dispatch α Unit := do
  let sender ← ensureSigned origin
  -- If leader is already set by someone in this group
  let s ← get
  if (s.leaders groupId).isSome then
    let leader := s.getLeader groupId
    ensure (sender ≠ oldLeader) "You are already leader."
    ensure (oldLeader = leader) "Incorrect old leader report."
  modify fun s => { s with leaders := Function.update s.leaders groupId (some sender) }
  modify fun s => { s with leadedGroup := Function.update s.leadedGroup groupId (some true) }
  depositEvent (.newLeader sender groupId)

def giveUpLeadership (origin : Origin α) (groupId : UInt32) : Dispatch α Unit := do
  let sender ← ensureSigned origin
  let s ← get
  ensure (s.getLeadedGroup groupId = true) "No Leader in this group."
  ensure (s.getLeader groupId = sender) "You are not the current leader."
  modify fun s => { s with leadedGroup := Function.update s.leadedGroup groupId (some false) }
  modify fun s => { s with leaders := Function.update s.leaders groupId none }
  depositEvent (.giveUpLeader sender groupId)

def addHeartbeat (now : ℕ) (origin : Origin α) (groupId nodeStatus : UInt32) :
    Dispatch α Unit := do
  let sender ← ensureSigned origin
  addAccount sender
  modify fun s => { s with groups := Function.update s.groups sender (some groupId) }
  modify fun s => { s with heartbeats := Function.update s.heartbeats sender (some now) }
  modify fun s => { s with nodesStatus := Function.update s.nodesStatus sender (some nodeStatus) }
  depositEvent (.newHeartbeat sender groupId nodeStatus now)

end Calls

inductive Call (α : Type) where
  | setLeader (oldLeader : α) (groupId : UInt32)
  | giveUpLeadership (groupId : UInt32)
  | addHeartbeat (groupId nodeStatus : UInt32)
  deriving DecidableEq, Repr

/-- A call as a block executes it: its block, its origin and its arguments. -/
structure Extrinsic (α : Type) where
  now : ℕ
  origin : Origin α
  call : Call α
  deriving DecidableEq, Repr

abbrev DispatchResult := Except DispatchError Unit

section Execution
variable [DecidableEq α] [Inhabited α]

def Extrinsic.dispatch (x : Extrinsic α) : Dispatch α Unit :=
  match x.call with
  | .setLeader oldLeader groupId => setLeader x.origin oldLeader groupId
  | .giveUpLeadership groupId => giveUpLeadership x.origin groupId
  | .addHeartbeat groupId nodeStatus => addHeartbeat x.now x.origin groupId nodeStatus

def Extrinsic.execute (x : Extrinsic α) (s : Storage α) : DispatchResult × Storage α :=
  exec x.dispatch s

def runCalls (s : Storage α) : List (Extrinsic α) → Storage α
  | [] => s
  | x :: xs => runCalls (x.execute s).2 xs

@[simp] theorem runCalls_nil (s : Storage α) : runCalls s [] = s := rfl

@[simp] theorem runCalls_cons (s : Storage α) (x : Extrinsic α) (xs : List (Extrinsic α)) :
    runCalls s (x :: xs) = runCalls (x.execute s).2 xs := rfl

theorem runCalls_append (s : Storage α) (xs ys : List (Extrinsic α)) :
    runCalls s (xs ++ ys) = runCalls (runCalls s xs) ys := by
  induction xs generalizing s with
  | nil => rfl
  | cons x xs ih => exact ih (x.execute s).2

def Reachable (s : Storage α) : Prop := ∃ xs, s = runCalls Storage.empty xs

/-! ### What each call does -/

def Storage.lead (s : Storage α) (who : α) (groupId : UInt32) : Storage α :=
  { s with
    leaders := Function.update s.leaders groupId (some who)
    leadedGroup := Function.update s.leadedGroup groupId (some true)
    events := s.events ++ [.newLeader who groupId] }

def Storage.unlead (s : Storage α) (who : α) (groupId : UInt32) : Storage α :=
  { s with
    leaders := Function.update s.leaders groupId none
    leadedGroup := Function.update s.leadedGroup groupId (some false)
    events := s.events ++ [.giveUpLeader who groupId] }

theorem execute_setLeader_signed (now : ℕ) (who oldLeader : α) (groupId : UInt32) (s : Storage α) :
    (⟨now, .signed who, .setLeader oldLeader groupId⟩ : Extrinsic α).execute s =
      match s.leaders groupId with
      | none => (.ok (), s.lead who groupId)
      | some leader =>
        if who = oldLeader then (.error (.other "You are already leader."), s)
        else if oldLeader = leader then (.ok (), s.lead who groupId)
        else (.error (.other "Incorrect old leader report."), s) := by
  cases hl : s.leaders groupId with
  | none => simp [Extrinsic.execute, Extrinsic.dispatch, setLeader, ensureSigned, hl,
      depositEvent, Storage.lead]
  | some leader =>
    have hg : s.getLeader groupId = leader := by simp [Storage.getLeader, hl]
    by_cases h1 : who = oldLeader
    · simp [Extrinsic.execute, Extrinsic.dispatch, setLeader, ensureSigned, hl, h1]
    · by_cases h2 : oldLeader = leader
      · subst h2
        simp [Extrinsic.execute, Extrinsic.dispatch, setLeader, ensureSigned, hl, hg, h1,
          depositEvent, Storage.lead]
      · simp [Extrinsic.execute, Extrinsic.dispatch, setLeader, ensureSigned, hl, hg, h1, h2]

theorem execute_giveUpLeadership_signed (now : ℕ) (who : α) (groupId : UInt32) (s : Storage α) :
    (⟨now, .signed who, .giveUpLeadership groupId⟩ : Extrinsic α).execute s =
      if s.getLeadedGroup groupId = true then
        if s.getLeader groupId = who then (.ok (), s.unlead who groupId)
        else (.error (.other "You are not the current leader."), s)
      else (.error (.other "No Leader in this group."), s) := by
  by_cases h1 : s.getLeadedGroup groupId = true
  · by_cases h2 : s.getLeader groupId = who
    · simp [Extrinsic.execute, Extrinsic.dispatch, giveUpLeadership, ensureSigned, h1, h2,
        depositEvent, Storage.unlead]
    · simp [Extrinsic.execute, Extrinsic.dispatch, giveUpLeadership, ensureSigned, h1, h2]
  · simp [Extrinsic.execute, Extrinsic.dispatch, giveUpLeadership, ensureSigned, h1]

def Storage.beat (s : Storage α) (who : α) (groupId nodeStatus : UInt32) (now : ℕ) : Storage α :=
  { s.register who with
    groups := Function.update s.groups who (some groupId)
    heartbeats := Function.update s.heartbeats who (some now)
    nodesStatus := Function.update s.nodesStatus who (some nodeStatus)
    events := s.events ++ [.newHeartbeat who groupId nodeStatus now] }

theorem execute_addHeartbeat_signed (now : ℕ) (who : α) (groupId nodeStatus : UInt32)
    (s : Storage α) :
    (⟨now, .signed who, .addHeartbeat groupId nodeStatus⟩ : Extrinsic α).execute s =
      (.ok (), s.beat who groupId nodeStatus now) := by
  have hr : (s.register who).groups = s.groups ∧ (s.register who).heartbeats = s.heartbeats ∧
      (s.register who).nodesStatus = s.nodesStatus ∧ (s.register who).events = s.events := by
    unfold Storage.register
    split <;> exact ⟨rfl, rfl, rfl, rfl⟩
  simp [Extrinsic.execute, Extrinsic.dispatch, addHeartbeat, ensureSigned, exec_addAccount,
    depositEvent, Storage.beat, hr]

theorem execute_unsigned (x : Extrinsic α) (hx : ∀ who, x.origin ≠ .signed who)
    (s : Storage α) : x.execute s = (.error .badOrigin, s) := by
  rcases x with ⟨now, origin, call⟩
  cases origin with
  | signed who => exact absurd rfl (hx who)
  | root | none =>
    cases call <;>
      simp [Extrinsic.execute, Extrinsic.dispatch, setLeader, giveUpLeadership, addHeartbeat,
        ensureSigned]

end Execution
end Archipel.Pallet
