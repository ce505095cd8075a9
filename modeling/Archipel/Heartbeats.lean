import Archipel.Utils
import Mathlib.Data.List.Nodup
import Mathlib.Data.Int.Notation

/-!
# The heartbeat map (orchestrator/src/heartbeats.js)

The map keeps its keys in the order of their first insertion; the structure
carries the fact that no key occurs twice.
-/

namespace Archipel

/-- A wallet as the program handles it, a text: the address of an account, or a
text that is no address, such as the answer `false` turned into a text. -/
inductive Wallet (α : Type) where
  | address (who : α)
  | text (s : String)
  deriving DecidableEq, Repr

structure Heartbeat where
  name : String
  group : ℕ
  nodeStatus : ℕ
  blockNumber : ℕ
  deriving DecidableEq, Repr

structure Heartbeats (α : Type) where
  nodes : List (Wallet α × String)
  entries : List (Wallet α × Heartbeat)
  keysNodup : (entries.map Prod.fst).Nodup

namespace Heartbeats

variable {α : Type}

def new (nodes : List (Wallet α × String)) : Heartbeats α := ⟨nodes, [], List.nodup_nil⟩

/-- The constructor; `walletOf` reads the text of a wallet. -/
def construct (walletOf : String → Wallet α) (nodesWallets archipelName : Option String) :
    Heartbeats α :=
  new ((Utils.constructNodesList nodesWallets archipelName).map fun node =>
    (walletOf node.wallet, node.name))

variable [DecidableEq α]

/-- `Map.prototype.set`: a known key keeps its place. -/
def setEntry (entries : List (Wallet α × Heartbeat)) (wallet : Wallet α) (value : Heartbeat) :
    List (Wallet α × Heartbeat) :=
  if wallet ∈ entries.map Prod.fst then
    entries.map fun entry => if entry.1 = wallet then (wallet, value) else entry
  else entries ++ [(wallet, value)]

theorem setEntry_keys (entries : List (Wallet α × Heartbeat)) (wallet : Wallet α)
    (value : Heartbeat) :
    (setEntry entries wallet value).map Prod.fst =
      if wallet ∈ entries.map Prod.fst then entries.map Prod.fst
      else entries.map Prod.fst ++ [wallet] := by
  unfold setEntry
  split
  · rw [List.map_map]
    apply List.map_congr_left
    intro entry _
    simp only [Function.comp_apply]
    split
    · next h => exact h.symm
    · rfl
  · simp

theorem setEntry_nodup (entries : List (Wallet α × Heartbeat)) (wallet : Wallet α)
    (value : Heartbeat) (h : (entries.map Prod.fst).Nodup) :
    ((setEntry entries wallet value).map Prod.fst).Nodup := by
  rw [setEntry_keys]
  split
  · exact h
  · next hnot =>
    have hne : ∀ key ∈ entries.map Prod.fst, key ≠ wallet := by
      intro key hkey heq
      exact hnot (heq ▸ hkey)
    simpa [List.nodup_append] using ⟨h, fun a b hab => hne a (List.mem_map_of_mem hab)⟩

def addHeartbeat (h : Heartbeats α) (wallet : Wallet α) (group nodeStatus blockNumber : ℕ) :
    Heartbeats α :=
  let node := h.nodes.find? fun element => element.1 = wallet
  let name := match node with
    | some node => node.2
    | none => ""
  { h with
    entries := setEntry h.entries wallet ⟨name, group, nodeStatus, blockNumber⟩
    keysNodup := setEntry_nodup h.entries wallet _ h.keysNodup }

def getHeartbeat (h : Heartbeats α) (wallet : Wallet α) : Option Heartbeat :=
  h.entries.lookup wallet

def isAlive (aliveTime : ℤ) (bestNumber : ℕ) (value : Heartbeat) : Bool :=
  let lastSeenAgo : ℤ := bestNumber - value.blockNumber
  value.blockNumber ≠ 0 && lastSeenAgo < aliveTime

/-- `group` is not used. -/
def anyOneAlive (h : Heartbeats α) (excludeNode : Wallet α) (aliveTime : ℤ) (_group : UInt32)
    (bestNumber : ℕ) : Bool :=
  let (otherNodeAlive, currentNodeAlive) := h.entries.foldl
    (fun (otherNodeAlive, currentNodeAlive) (key, value) =>
      if isAlive aliveTime bestNumber value then
        if key ≠ excludeNode then (true, currentNodeAlive) else (otherNodeAlive, true)
      else (otherNodeAlive, currentNodeAlive))
    (false, false)
  -- One other node and current node must be alive
  otherNodeAlive && currentNodeAlive

/-- Sorted by the names of the nodes; `localeCompare` is the comparison of texts
of the locale. -/
def getAllHeartbeats (localeCompare : String → String → Ordering) (h : Heartbeats α) :
    List (Wallet α × Heartbeat) :=
  h.entries.mergeSort fun el1 el2 => localeCompare el1.2.name el2.2.name != .gt

/-! ### What the lookup and the loop compute -/

theorem lookup_mem (entries : List (Wallet α × Heartbeat)) (wallet : Wallet α) (value : Heartbeat)
    (h : (entries.map Prod.fst).Nodup) :
    entries.lookup wallet = some value ↔ (wallet, value) ∈ entries := by
  induction entries with
  | nil => simp
  | cons entry entries ih =>
    obtain ⟨key, v⟩ := entry
    have hnodup := List.nodup_cons.mp h
    by_cases hkey : wallet = key
    · subst hkey
      have hnot : (wallet, value) ∉ entries := by
        intro hm
        have hkey := List.mem_map_of_mem (f := Prod.fst) hm
        exact hnodup.1 hkey
      simp [hnot, eq_comm]
    · have hbeq : (wallet == key) = false := by simpa using hkey
      simp [List.lookup_cons, hbeq, hkey, ih hnodup.2]

theorem getHeartbeat_mem (h : Heartbeats α) (wallet : Wallet α) (value : Heartbeat) :
    h.getHeartbeat wallet = some value ↔ (wallet, value) ∈ h.entries :=
  lookup_mem h.entries wallet value h.keysNodup

theorem mem_setEntry (entries : List (Wallet α × Heartbeat)) (wallet key : Wallet α)
    (value v : Heartbeat) : (key, v) ∈ setEntry entries wallet value ↔
      (key = wallet ∧ v = value) ∨ (key ≠ wallet ∧ (key, v) ∈ entries) := by
  unfold setEntry
  split
  · next hmem =>
    rw [List.mem_map]
    constructor
    · intro ⟨entry, he, heq⟩
      by_cases hkey : entry.1 = wallet
      · rw [if_pos hkey, Prod.mk.injEq] at heq
        exact .inl ⟨heq.1.symm, heq.2.symm⟩
      · rw [if_neg hkey] at heq
        subst heq
        exact .inr ⟨hkey, he⟩
    · intro h
      rcases h with ⟨hkey, hv⟩ | ⟨hkey, hm⟩
      · obtain ⟨entry, he, heq⟩ := List.mem_map.mp hmem
        exact ⟨entry, he, by rw [if_pos heq, hkey, hv]⟩
      · exact ⟨(key, v), hm, if_neg hkey⟩
  · next hmem =>
    rw [List.mem_append, List.mem_singleton, Prod.mk.injEq]
    constructor
    · intro h
      rcases h with hm | h
      · refine .inr ⟨fun hkey => hmem ?_, hm⟩
        have hkeys := List.mem_map_of_mem (f := Prod.fst) hm
        rwa [hkey] at hkeys
      · exact .inl h
    · intro h
      rcases h with h | ⟨-, hm⟩
      · exact .inr h
      · exact .inl hm

theorem getHeartbeat_addHeartbeat_self (h : Heartbeats α) (wallet : Wallet α)
    (group nodeStatus blockNumber : ℕ) :
    ∃ name, (h.addHeartbeat wallet group nodeStatus blockNumber).getHeartbeat wallet =
      some ⟨name, group, nodeStatus, blockNumber⟩ := by
  simp only [getHeartbeat_mem]
  exact ⟨_, (mem_setEntry h.entries wallet wallet _ _).mpr (.inl ⟨rfl, rfl⟩)⟩

/-- The name is the one of the first node with the wallet. -/
theorem getHeartbeat_addHeartbeat_name (h : Heartbeats α) {wallet : Wallet α} {name : String}
    (hnode : (h.nodes.find? fun element => element.1 = wallet) = some (wallet, name))
    (group nodeStatus blockNumber : ℕ) :
    (h.addHeartbeat wallet group nodeStatus blockNumber).getHeartbeat wallet =
      some ⟨name, group, nodeStatus, blockNumber⟩ := by
  rw [getHeartbeat_mem]
  refine (mem_setEntry h.entries wallet wallet _ _).mpr (.inl ⟨rfl, ?_⟩)
  rw [hnode]

theorem getHeartbeat_addHeartbeat_ne (h : Heartbeats α) {wallet key : Wallet α}
    (hkey : key ≠ wallet) (group nodeStatus blockNumber : ℕ) :
    (h.addHeartbeat wallet group nodeStatus blockNumber).getHeartbeat key =
      h.getHeartbeat key := by
  apply Option.ext
  intro value
  have hm := mem_setEntry h.entries wallet key
  rw [getHeartbeat_mem, getHeartbeat_mem, addHeartbeat, hm]
  simp [hkey]

def Alive (h : Heartbeats α) (aliveTime : ℤ) (bestNumber : ℕ) (wallet : Wallet α) : Prop :=
  ∃ value, h.getHeartbeat wallet = some value ∧ isAlive aliveTime bestNumber value = true

instance (h : Heartbeats α) (aliveTime : ℤ) (bestNumber : ℕ) (wallet : Wallet α) :
    Decidable (h.Alive aliveTime bestNumber wallet) :=
  inferInstanceAs
    (Decidable (∃ value ∈ h.getHeartbeat wallet, isAlive aliveTime bestNumber value = true))

theorem anyOneAlive_loop (entries : List (Wallet α × Heartbeat)) (excludeNode : Wallet α)
    (aliveTime : ℤ) (bestNumber : ℕ) (b : Bool × Bool) :
    entries.foldl (fun (otherNodeAlive, currentNodeAlive) (key, value) =>
      if isAlive aliveTime bestNumber value then
        if key ≠ excludeNode then (true, currentNodeAlive) else (otherNodeAlive, true)
      else (otherNodeAlive, currentNodeAlive)) b =
    (b.1 || entries.any fun e => isAlive aliveTime bestNumber e.2 && decide (e.1 ≠ excludeNode),
      b.2 || entries.any fun e =>
        isAlive aliveTime bestNumber e.2 && decide (e.1 = excludeNode)) := by
  induction entries generalizing b with
  | nil => simp
  | cons entry entries ih =>
    rw [List.foldl_cons, ih]
    by_cases halive : isAlive aliveTime bestNumber entry.2 = true
    · by_cases hkey : entry.1 = excludeNode
      · simp [halive, hkey]
      · simp [halive, hkey]
    · simp [halive]

theorem anyOneAlive_iff (h : Heartbeats α) (excludeNode : Wallet α) (aliveTime : ℤ)
    (group : UInt32) (bestNumber : ℕ) :
    h.anyOneAlive excludeNode aliveTime group bestNumber = true ↔
      (∃ wallet, wallet ≠ excludeNode ∧ h.Alive aliveTime bestNumber wallet) ∧
        h.Alive aliveTime bestNumber excludeNode := by
  unfold anyOneAlive
  rw [anyOneAlive_loop]
  simp only [Bool.false_or, Bool.and_eq_true, List.any_eq_true, decide_eq_true_eq, Alive,
    getHeartbeat_mem]
  constructor
  · intro ⟨⟨⟨w, v⟩, hm, hv, hne⟩, ⟨⟨w', v'⟩, hm', hv', heq⟩⟩
    dsimp only at hne heq hv hv'
    subst heq
    exact ⟨⟨w, hne, v, hm, hv⟩, ⟨v', hm', hv'⟩⟩
  · intro ⟨⟨w, hne, v, hm, hv⟩, ⟨v', hm', hv'⟩⟩
    exact ⟨⟨(w, v), hm, hv, hne⟩, ⟨(excludeNode, v'), hm', hv', rfl⟩⟩

theorem anyOneAlive_dead {h : Heartbeats α} {excludeNode : Wallet α} {aliveTime : ℤ}
    {group : UInt32} {bestNumber : ℕ} (hdead : ¬ h.Alive aliveTime bestNumber excludeNode) :
    h.anyOneAlive excludeNode aliveTime group bestNumber = false := by
  rw [Bool.eq_false_iff]
  intro halive
  exact hdead ((anyOneAlive_iff h excludeNode aliveTime group bestNumber).mp halive).2

theorem isAlive_iff (aliveTime : ℤ) (bestNumber : ℕ) (value : Heartbeat) :
    isAlive aliveTime bestNumber value = true ↔
      value.blockNumber ≠ 0 ∧ (bestNumber : ℤ) - value.blockNumber < aliveTime := by
  simp [isAlive]

end Heartbeats
end Archipel
