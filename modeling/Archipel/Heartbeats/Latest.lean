import Archipel.Heartbeats
import Mathlib.Data.List.Induction

/-!
# The latest heartbeat of each wallet

A run of `addHeartbeat` calls on a fresh object. What `anyOneAlive` answers
after it is read off the last block of each wallet, so the order of the calls of
different wallets and the groups do not matter.
-/

namespace Archipel.Heartbeats

variable {α : Type} [DecidableEq α]

/-- The arguments of a call of `addHeartbeat`. -/
structure Beat (α : Type) where
  wallet : Wallet α
  group : ℕ
  nodeStatus : ℕ
  blockNumber : ℕ

def addHeartbeats (h : Heartbeats α) (beats : List (Beat α)) : Heartbeats α :=
  beats.foldl (fun h beat =>
    h.addHeartbeat beat.wallet beat.group beat.nodeStatus beat.blockNumber) h

def ownBeats (beats : List (Beat α)) (wallet : Wallet α) : List (Beat α) :=
  beats.filter fun beat => beat.wallet = wallet

def lastBlock (beats : List (Beat α)) (wallet : Wallet α) : Option ℕ :=
  (ownBeats beats wallet).getLast?.map Beat.blockNumber

def Recent (aliveTime : ℤ) (bestNumber : ℕ) (block : Option ℕ) : Prop :=
  ∃ b, block = some b ∧ b ≠ 0 ∧ (bestNumber : ℤ) - b < aliveTime

/-- `anyOneAlive` after the calls on a fresh object. -/
def anyOneAliveAfter (nodes : List (Wallet α × String)) (beats : List (Beat α))
    (excludeNode : Wallet α) (aliveTime : ℤ) (group : UInt32) (bestNumber : ℕ) : Bool :=
  ((new nodes).addHeartbeats beats).anyOneAlive excludeNode aliveTime group bestNumber

/-! ### The calls of one wallet -/

theorem addHeartbeats_concat (h : Heartbeats α) (beats : List (Beat α)) (beat : Beat α) :
    h.addHeartbeats (beats ++ [beat]) = (h.addHeartbeats beats).addHeartbeat beat.wallet
      beat.group beat.nodeStatus beat.blockNumber := by
  simp [addHeartbeats]

theorem addHeartbeats_nodes (h : Heartbeats α) (beats : List (Beat α)) :
    (h.addHeartbeats beats).nodes = h.nodes := by
  induction beats using List.reverseRecOn with
  | nil => rfl
  | append_singleton beats beat ih =>
    rw [addHeartbeats_concat]
    exact ih

theorem ownBeats_append (beats beats' : List (Beat α)) (wallet : Wallet α) :
    ownBeats (beats ++ beats') wallet = ownBeats beats wallet ++ ownBeats beats' wallet :=
  List.filter_append ..

theorem lastBlock_concat (beats : List (Beat α)) (beat : Beat α) (wallet : Wallet α) :
    lastBlock (beats ++ [beat]) wallet =
      if beat.wallet = wallet then some beat.blockNumber else lastBlock beats wallet := by
  unfold lastBlock
  rw [ownBeats_append]
  by_cases h : beat.wallet = wallet
  · simp [ownBeats, h]
  · simp [ownBeats, h]

theorem lastBlock_append (pre post : List (Beat α)) (wallet : Wallet α) :
    lastBlock (pre ++ post) wallet = (lastBlock post wallet).or (lastBlock pre wallet) := by
  unfold lastBlock
  rw [ownBeats_append, List.getLast?_append, Option.map_or]

theorem lastBlock_calls (beats : List (Beat α)) (wallet : Wallet α) :
    lastBlock beats wallet =
      (((beats.map fun beat => (beat.wallet, beat.blockNumber)).filter
        fun call => call.1 = wallet).getLast?).map Prod.snd := by
  rw [List.filter_map, List.getLast?_map, Option.map_map]
  rfl

/-- The wallets and the blocks of the calls fix the last blocks. -/
theorem lastBlock_congr {beats beats' : List (Beat α)}
    (h : (beats'.map fun beat => (beat.wallet, beat.blockNumber)) =
      beats.map fun beat => (beat.wallet, beat.blockNumber)) (wallet : Wallet α) :
    lastBlock beats' wallet = lastBlock beats wallet := by
  rw [lastBlock_calls, lastBlock_calls beats, h]

/-- The object holds the last block of each wallet. -/
theorem addHeartbeats_getHeartbeat (nodes : List (Wallet α × String)) (beats : List (Beat α))
    (wallet : Wallet α) :
    (((new nodes).addHeartbeats beats).getHeartbeat wallet).map Heartbeat.blockNumber =
      lastBlock beats wallet := by
  induction beats using List.reverseRecOn with
  | nil => rfl
  | append_singleton beats beat ih =>
    rw [addHeartbeats_concat, lastBlock_concat]
    by_cases h : beat.wallet = wallet
    · subst h
      obtain ⟨name, hget⟩ := getHeartbeat_addHeartbeat_self ((new nodes).addHeartbeats beats)
        beat.wallet beat.group beat.nodeStatus beat.blockNumber
      simp [hget]
    · have hne : wallet ≠ beat.wallet := fun heq => h heq.symm
      rw [getHeartbeat_addHeartbeat_ne _ hne, if_neg h, ih]

theorem alive_iff_recent (nodes : List (Wallet α × String)) (beats : List (Beat α))
    (aliveTime : ℤ) (bestNumber : ℕ) (wallet : Wallet α) :
    ((new nodes).addHeartbeats beats).Alive aliveTime bestNumber wallet ↔
      Recent aliveTime bestNumber (lastBlock beats wallet) := by
  rw [← addHeartbeats_getHeartbeat nodes]
  unfold Alive Recent
  simp only [isAlive_iff, Option.map_eq_some_iff]
  constructor
  · intro h
    obtain ⟨value, hget, hne, hago⟩ := h
    exact ⟨value.blockNumber, ⟨value, hget, rfl⟩, hne, hago⟩
  · intro h
    obtain ⟨b, ⟨value, hget, hb⟩, hne, hago⟩ := h
    subst hb
    exact ⟨value, hget, hne, hago⟩

theorem anyOneAliveAfter_iff (nodes : List (Wallet α × String)) (beats : List (Beat α))
    (excludeNode : Wallet α) (aliveTime : ℤ) (group : UInt32) (bestNumber : ℕ) :
    anyOneAliveAfter nodes beats excludeNode aliveTime group bestNumber = true ↔
      Recent aliveTime bestNumber (lastBlock beats excludeNode) ∧
        ∃ wallet, wallet ≠ excludeNode ∧ Recent aliveTime bestNumber (lastBlock beats wallet) := by
  unfold anyOneAliveAfter
  rw [anyOneAlive_iff]
  simp only [alive_iff_recent]
  exact and_comm

/-! ### Comparing two runs -/

theorem anyOneAliveAfter_congr (nodes : List (Wallet α × String)) {beats beats' : List (Beat α)}
    (h : ∀ wallet, lastBlock beats' wallet = lastBlock beats wallet) (excludeNode : Wallet α)
    (aliveTime : ℤ) (group group' : UInt32) (bestNumber : ℕ) :
    anyOneAliveAfter nodes beats' excludeNode aliveTime group' bestNumber =
      anyOneAliveAfter nodes beats excludeNode aliveTime group bestNumber := by
  rw [Bool.eq_iff_iff, anyOneAliveAfter_iff, anyOneAliveAfter_iff]
  simp only [h]

theorem anyOneAliveAfter_mono (nodes : List (Wallet α × String)) {beats beats' : List (Beat α)}
    {aliveTime aliveTime' : ℤ} {bestNumber bestNumber' : ℕ} (excludeNode : Wallet α)
    (group : UInt32)
    (h : ∀ wallet, Recent aliveTime bestNumber (lastBlock beats wallet) →
      Recent aliveTime' bestNumber' (lastBlock beats' wallet))
    (halive : anyOneAliveAfter nodes beats excludeNode aliveTime group bestNumber = true) :
    anyOneAliveAfter nodes beats' excludeNode aliveTime' group bestNumber' = true := by
  rw [anyOneAliveAfter_iff] at halive ⊢
  obtain ⟨hcurrent, wallet, hne, hother⟩ := halive
  exact ⟨h _ hcurrent, wallet, hne, h _ hother⟩

theorem recent_mono {aliveTime aliveTime' : ℤ} {bestNumber bestNumber' b b' : ℕ}
    (htime : aliveTime ≤ aliveTime') (hbest : bestNumber' ≤ bestNumber) (hb : b ≤ b')
    (h : Recent aliveTime bestNumber (some b)) : Recent aliveTime' bestNumber' (some b') := by
  obtain ⟨c, hc, hne, hago⟩ := h
  cases hc
  exact ⟨b', rfl, by omega, by omega⟩

theorem recent_later {aliveTime aliveTime' : ℤ} {bestNumber bestNumber' : ℕ}
    (htime : aliveTime ≤ aliveTime') (hbest : bestNumber' ≤ bestNumber) {block : Option ℕ}
    (h : Recent aliveTime bestNumber block) : Recent aliveTime' bestNumber' block := by
  cases block with
  | none => obtain ⟨c, hc, -⟩ := h; cases hc
  | some b => exact recent_mono htime hbest (Nat.le_refl b) h

/-- A last block that only grows keeps the wallet recent. -/
theorem recent_newer {aliveTime : ℤ} {bestNumber b' : ℕ} {block : Option ℕ}
    (hb : ∀ b, block = some b → b ≤ b') (h : Recent aliveTime bestNumber block) :
    Recent aliveTime bestNumber (some b') := by
  cases block with
  | none => obtain ⟨c, hc, -⟩ := h; cases hc
  | some b => exact recent_mono (Int.le_refl _) (Nat.le_refl _) (hb b rfl) h

theorem recent_concat {aliveTime : ℤ} {bestNumber : ℕ} {beats : List (Beat α)} {beat : Beat α}
    (hb : ∀ b, lastBlock beats beat.wallet = some b → b ≤ beat.blockNumber) (wallet : Wallet α)
    (h : Recent aliveTime bestNumber (lastBlock beats wallet)) :
    Recent aliveTime bestNumber (lastBlock (beats ++ [beat]) wallet) := by
  rw [lastBlock_concat]
  by_cases hwallet : beat.wallet = wallet
  · subst hwallet
    rw [if_pos rfl]
    exact recent_newer hb h
  · rw [if_neg hwallet]
    exact h

/-- The call that gave a wallet its last block is replaced by one with a larger block. -/
theorem recent_replace {aliveTime : ℤ} {bestNumber : ℕ} {pre post : List (Beat α)}
    {beat beat' : Beat α} (hwallet : beat'.wallet = beat.wallet)
    (hblock : beat.blockNumber ≤ beat'.blockNumber) (wallet : Wallet α)
    (h : Recent aliveTime bestNumber (lastBlock (pre ++ [beat] ++ post) wallet)) :
    Recent aliveTime bestNumber (lastBlock (pre ++ [beat'] ++ post) wallet) := by
  rw [lastBlock_append] at h ⊢
  cases hpost : lastBlock post wallet with
  | some b =>
    rw [hpost] at h
    exact h
  | none =>
    rw [hpost, Option.none_or, lastBlock_concat] at h
    rw [Option.none_or, lastBlock_concat, hwallet]
    by_cases heq : beat.wallet = wallet
    · rw [if_pos heq] at h ⊢
      exact recent_mono (Int.le_refl _) (Nat.le_refl _) hblock h
    · rw [if_neg heq] at h ⊢
      exact h

/-! ### The gate of an active start -/

/-- After any run of calls on a fresh object the answer is read off the last
block of each wallet. -/
theorem anyOneAlive_latest (nodes : List (Wallet α × String)) (beats : List (Beat α))
    (excludeNode : Wallet α) (aliveTime : ℤ) (group : UInt32) (bestNumber : ℕ) :
    (anyOneAliveAfter nodes beats excludeNode aliveTime group bestNumber = true ↔
      (∃ b, lastBlock beats excludeNode = some b ∧ b ≠ 0 ∧ (bestNumber : ℤ) - b < aliveTime) ∧
        ∃ wallet c, wallet ≠ excludeNode ∧ lastBlock beats wallet = some c ∧ c ≠ 0 ∧
          (bestNumber : ℤ) - c < aliveTime) ∧
    (∀ beats', (∀ wallet, ownBeats beats' wallet = ownBeats beats wallet) →
      anyOneAliveAfter nodes beats' excludeNode aliveTime group bestNumber =
        anyOneAliveAfter nodes beats excludeNode aliveTime group bestNumber) ∧
    (∀ beats' (group' : UInt32),
      (beats'.map fun beat => (beat.wallet, beat.nodeStatus, beat.blockNumber)) =
        (beats.map fun beat => (beat.wallet, beat.nodeStatus, beat.blockNumber)) →
      anyOneAliveAfter nodes beats' excludeNode aliveTime group' bestNumber =
        anyOneAliveAfter nodes beats excludeNode aliveTime group bestNumber) ∧
    (∀ bestNumber', bestNumber ≤ bestNumber' →
      anyOneAliveAfter nodes beats excludeNode aliveTime group bestNumber = false →
        anyOneAliveAfter nodes beats excludeNode aliveTime group bestNumber' = false) ∧
    (∀ aliveTime', aliveTime ≤ aliveTime' →
      anyOneAliveAfter nodes beats excludeNode aliveTime group bestNumber = true →
        anyOneAliveAfter nodes beats excludeNode aliveTime' group bestNumber = true) ∧
    (∀ beat : Beat α,
      (∀ b, lastBlock beats beat.wallet = some b → b ≤ beat.blockNumber) →
      anyOneAliveAfter nodes beats excludeNode aliveTime group bestNumber = true →
        anyOneAliveAfter nodes (beats ++ [beat]) excludeNode aliveTime group bestNumber = true) ∧
    (∀ pre beat beat' post, beats = pre ++ [beat] ++ post → beat'.wallet = beat.wallet →
      beat.blockNumber ≤ beat'.blockNumber →
      anyOneAliveAfter nodes beats excludeNode aliveTime group bestNumber = true →
        anyOneAliveAfter nodes (pre ++ [beat'] ++ post) excludeNode aliveTime group bestNumber =
          true) := by
  refine ⟨?_, ?_, ?_, ?_, ?_, ?_, ?_⟩
  · rw [anyOneAliveAfter_iff]
    simp only [Recent, exists_and_left]
  · intro beats' hown
    apply anyOneAliveAfter_congr
    intro wallet
    rw [lastBlock, lastBlock, hown wallet]
  · intro beats' group' hcalls
    have hpairs := congrArg (List.map fun call => (call.1, call.2.2)) hcalls
    rw [List.map_map, List.map_map] at hpairs
    exact anyOneAliveAfter_congr nodes (lastBlock_congr hpairs) excludeNode aliveTime group group'
      bestNumber
  · intro bestNumber' hle hdead
    rw [Bool.eq_false_iff] at hdead ⊢
    intro halive
    have hearlier := anyOneAliveAfter_mono nodes excludeNode group
      (fun _ => recent_later (Int.le_refl _) hle) halive
    exact hdead hearlier
  · intro aliveTime' hle halive
    exact anyOneAliveAfter_mono nodes excludeNode group
      (fun _ => recent_later hle (Nat.le_refl _)) halive
  · intro beat hb halive
    exact anyOneAliveAfter_mono nodes excludeNode group (recent_concat hb) halive
  · intro pre beat beat' post hbeats hwallet hblock halive
    subst hbeats
    exact anyOneAliveAfter_mono nodes excludeNode group (recent_replace hwallet hblock) halive

end Archipel.Heartbeats
