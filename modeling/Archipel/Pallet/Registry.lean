import Archipel.Pallet.Record
import Mathlib.Data.Finset.Card
import Mathlib.Data.List.Nodup

/-!
# The registry of accounts

`AccountsCount`, `Accounts` and `AccountsIndex` represent one list: the accounts
in the order of their first heartbeat. The counter saturates; up to the last
`u32` the two maps are inverse to each other.
-/

namespace Archipel.Pallet

open Runs

variable {α : Type} [DecidableEq α]

/-! ### The order of first occurrence -/

def enroll (r : List α) (a : α) : List α := if a ∈ r then r else r ++ [a]

def firsts (as : List α) : List α := as.foldl enroll []

theorem mem_enroll (r : List α) (a b : α) : b ∈ enroll r a ↔ b ∈ r ∨ b = a := by
  unfold enroll
  split
  · rename_i h
    constructor
    · exact .inl
    · rintro (hb | rfl)
      · exact hb
      · exact h
  · simp

theorem nodup_enroll {r : List α} (hr : r.Nodup) (a : α) : (enroll r a).Nodup := by
  unfold enroll
  split
  · exact hr
  · rename_i h
    have hdisjoint : ∀ b ∈ r, ¬ b = a := fun b hb hba => h (by rwa [hba] at hb)
    exact List.nodup_append.mpr ⟨hr, by simp, by simpa using hdisjoint⟩

theorem firsts_concat (as : List α) (a : α) : firsts (as ++ [a]) = enroll (firsts as) a := by
  simp [firsts]

theorem mem_firsts (as : List α) (a : α) : a ∈ firsts as ↔ a ∈ as := by
  induction as using List.reverseRecOn with
  | nil => simp [firsts]
  | append_singleton as b ih => simp [firsts_concat, mem_enroll, ih]

theorem nodup_firsts (as : List α) : (firsts as).Nodup := by
  induction as using List.reverseRecOn with
  | nil => simp [firsts]
  | append_singleton as b ih =>
    rw [firsts_concat]
    exact nodup_enroll ih b

theorem length_firsts (as : List α) : (firsts as).length = as.toFinset.card := by
  have hset : (firsts as).toFinset = as.toFinset := by
    ext a
    simp [mem_firsts]
  rw [← hset, List.toFinset_card_of_nodup (nodup_firsts as)]

theorem firsts_prefix (as bs : List α) : firsts as <+: firsts (as ++ bs) := by
  induction bs using List.reverseRecOn with
  | nil => simp
  | append_singleton bs b ih =>
    rw [← List.append_assoc, firsts_concat]
    unfold enroll
    split
    · exact ih
    · exact ih.trans (List.prefix_append ..)

/-! ### The storage represents the list -/

def u32Max : ℕ := UInt32.size - 1

structure Storage.Registers (s : Storage α) (r : List α) : Prop where
  nodup : r.Nodup
  count : s.accountsCount = if r = [] then none else some (UInt32.ofNat (min r.length u32Max))
  index : ∀ a, s.accountsIndex a =
    if a ∈ r then some (UInt32.ofNat (min (r.idxOf a) u32Max)) else none
  accounts : r.length ≤ u32Max → ∀ i, s.accounts i = r[i.toNat]?

theorem toNat_ofNat_min (n : ℕ) : (UInt32.ofNat (min n u32Max)).toNat = min n u32Max := by
  have h : min n u32Max < UInt32.size := by
    unfold u32Max
    simp only [UInt32.size]
    omega
  exact UInt32.toNat_ofNat_of_lt' h

theorem saturatingAdd_min (n : ℕ) :
    saturatingAdd (UInt32.ofNat (min n u32Max)) 1 = UInt32.ofNat (min (n + 1) u32Max) := by
  have hn := toNat_ofNat_min n
  have hn' := toNat_ofNat_min (n + 1)
  unfold saturatingAdd
  split
  · rename_i h
    apply UInt32.toNat_inj.mp
    rw [UInt32.toNat_add, hn', hn]
    rw [hn] at h
    simp only [u32Max, UInt32.size, UInt32.toNat_one] at h ⊢
    omega
  · rename_i h
    rw [hn] at h
    simp only [u32Max, UInt32.size, UInt32.toNat_one] at h ⊢
    congr 1
    omega

namespace Storage.Registers

theorem count_getD {s : Storage α} {r : List α} (h : s.Registers r) :
    s.accountsCount.getD 0 = UInt32.ofNat (min r.length u32Max) := by
  rw [h.count]
  split
  · rename_i hr
    rw [hr]
    rfl
  · rfl

theorem register_new {s : Storage α} {r : List α} (h : s.Registers r) {a : α} (ha : a ∉ r) :
    (s.register a).accountsCount = some (UInt32.ofNat (min (r.length + 1) u32Max)) ∧
    (s.register a).accountsIndex =
      Function.update s.accountsIndex a (some (UInt32.ofNat (min r.length u32Max))) ∧
    (s.register a).accounts =
      Function.update s.accounts (UInt32.ofNat (min r.length u32Max)) (some a) := by
  have hi := h.index a
  have hc := h.count_getD
  rw [if_neg ha] at hi
  rw [← saturatingAdd_min]
  simp [Storage.register, hi, hc]

theorem register_old {s : Storage α} {r : List α} (h : s.Registers r) {a : α} (ha : a ∈ r) :
    s.register a = s := by
  unfold Storage.register
  rw [h.index a, if_pos ha]
  rfl

theorem register {s : Storage α} {r : List α} (h : s.Registers r) (a : α) :
    (s.register a).Registers (enroll r a) := by
  by_cases ha : a ∈ r
  · rw [h.register_old ha, enroll, if_pos ha]
    exact h
  · obtain ⟨hcount, hindex, haccounts⟩ := h.register_new ha
    have hnodup := nodup_enroll h.nodup a
    rw [enroll, if_neg ha] at hnodup ⊢
    refine ⟨hnodup, ?_, ?_, ?_⟩
    · rw [hcount, if_neg (by simp)]
      simp
    · intro b
      rw [hindex]
      by_cases hb : b = a
      · rw [hb, Function.update_self, if_pos (by simp), List.idxOf_append_of_notMem ha]
        simp
      · rw [Function.update_of_ne hb, h.index b]
        by_cases hbr : b ∈ r
        · rw [if_pos hbr, if_pos (by simp [hbr]), List.idxOf_append_of_mem hbr]
        · rw [if_neg hbr, if_neg (by simp [hbr, hb])]
    · intro hlen i
      have hlt : r.length + 1 ≤ u32Max := by simpa using hlen
      have hmin : min r.length u32Max = r.length := by omega
      rw [haccounts, hmin]
      have htoNat := toNat_ofNat_min r.length
      rw [hmin] at htoNat
      by_cases hir : i = UInt32.ofNat r.length
      · rw [hir, Function.update_self, htoNat]
        simp
      · rw [Function.update_of_ne hir, h.accounts (by omega) i]
        have hne : i.toNat ≠ r.length := by
          intro hn
          apply hir
          rw [← hn]
          simp
        rw [List.getElem?_append]
        split
        · rfl
        · rw [List.getElem?_eq_none (by omega), List.getElem?_eq_none (by simp; omega)]

theorem congr {s t : Storage α} {r : List α} (h : s.Registers r)
    (hc : t.accountsCount = s.accountsCount) (hi : t.accountsIndex = s.accountsIndex)
    (ha : t.accounts = s.accounts) : t.Registers r :=
  ⟨h.nodup, by rw [hc, h.count], fun a => by rw [hi, h.index a],
    fun hlen i => by rw [ha, h.accounts hlen i]⟩

theorem beat {s : Storage α} {r : List α} (h : s.Registers r) (who : α) (g st : UInt32) (now : ℕ) :
    (s.beat who g st now).Registers (enroll r who) := (h.register who).congr rfl rfl rfl

theorem index_isSome {s : Storage α} {r : List α} (h : s.Registers r) (a : α) :
    (s.accountsIndex a).isSome ↔ a ∈ r := by
  rw [h.index a]
  split <;> simp_all

theorem index_toNat {s : Storage α} {r : List α} (h : s.Registers r) (hlen : r.length ≤ u32Max)
    {a : α} (ha : a ∈ r) : ∃ i, s.accountsIndex a = some i ∧ i.toNat = r.idxOf a := by
  refine ⟨UInt32.ofNat (min (r.idxOf a) u32Max), by rw [h.index a, if_pos ha], ?_⟩
  have hlt := List.idxOf_lt_length_of_mem ha
  rw [toNat_ofNat_min]
  omega

theorem inverse {s : Storage α} {r : List α} (h : s.Registers r) (hlen : r.length ≤ u32Max)
    (i : UInt32) (a : α) : s.accounts i = some a ↔ s.accountsIndex a = some i := by
  rw [h.accounts hlen i]
  constructor
  · intro hget
    obtain ⟨hlt, heq⟩ := List.getElem?_eq_some_iff.mp hget
    have hmem : a ∈ r := heq ▸ List.getElem_mem hlt
    obtain ⟨j, hj, hidx⟩ := h.index_toNat hlen hmem
    have hval : r.idxOf a = i.toNat := by
      rw [← heq]
      exact h.nodup.idxOf_getElem i.toNat hlt
    have hij : j = i := UInt32.toNat_inj.mp (hidx.trans hval)
    rw [hj, hij]
  · intro hidx
    have hmem : a ∈ r := (h.index_isSome a).mp (by rw [hidx]; rfl)
    obtain ⟨j, hj, hval⟩ := h.index_toNat hlen hmem
    have hij : j = i := Option.some.inj (hj.symm.trans hidx)
    rw [← hij, hval]
    exact List.getElem?_eq_some_iff.mpr ⟨List.idxOf_lt_length_of_mem hmem, List.getElem_idxOf _⟩

end Storage.Registers

theorem empty_registers : (Storage.empty : Storage α).Registers [] :=
  ⟨List.nodup_nil, rfl, fun _ => rfl, fun _ _ => rfl⟩

/-! ### The heartbeats of a run -/

def Extrinsic.beater (x : Extrinsic α) : Option α :=
  match x.origin, x.call with
  | .signed who, .addHeartbeat _ _ => some who
  | _, _ => none

def beaters (xs : List (Extrinsic α)) : List α := xs.filterMap Extrinsic.beater

variable [Inhabited α]

omit [DecidableEq α] [Inhabited α] in
theorem beater_eq_some {x : Extrinsic α} {who : α} (h : x.beater = some who) :
    ∃ g st, x = ⟨x.now, .signed who, .addHeartbeat g st⟩ := by
  rcases x with ⟨now, origin, call⟩
  cases origin with
  | root | none => cases h
  | signed sender =>
    cases call with
    | addHeartbeat g st =>
      cases h
      exact ⟨g, st, rfl⟩
    | setLeader old g => cases h
    | giveUpLeadership g => cases h

theorem execute_beater_some {x : Extrinsic α} {who : α} (h : x.beater = some who)
    (s : Storage α) : ∃ g st, x.execute s = (.ok (), s.beat who g st x.now) := by
  obtain ⟨g, st, hx⟩ := beater_eq_some h
  have he := execute_addHeartbeat_signed x.now who g st s
  rw [← hx] at he
  exact ⟨g, st, he⟩

theorem execute_beater_none {x : Extrinsic α} (h : x.beater = none) (s : Storage α) :
    (x.execute s).2.accountsCount = s.accountsCount ∧
      (x.execute s).2.accountsIndex = s.accountsIndex ∧
      (x.execute s).2.accounts = s.accounts := by
  rcases execute_cases x s with ⟨e, he⟩ | ⟨who, g, st, ho, hc, -⟩ | ⟨who, old, g, -, -, he, -⟩ |
    ⟨who, g, -, -, he, -⟩
  · rw [he]
    exact ⟨rfl, rfl, rfl⟩
  · simp [Extrinsic.beater, ho, hc] at h
  · rw [he]
    exact ⟨rfl, rfl, rfl⟩
  · rw [he]
    exact ⟨rfl, rfl, rfl⟩

theorem runCalls_registers (xs : List (Extrinsic α)) {s : Storage α} {r : List α}
    (h : s.Registers r) : (runCalls s xs).Registers ((beaters xs).foldl enroll r) := by
  induction xs generalizing s r with
  | nil => exact h
  | cons x xs ih =>
    cases hb : x.beater with
    | some who =>
      obtain ⟨g, st, he⟩ := execute_beater_some hb s
      simp only [beaters, List.filterMap_cons, hb, List.foldl_cons]
      rw [runCalls_cons, he]
      exact ih (h.beat who g st x.now)
    | none =>
      obtain ⟨hc, hi, ha⟩ := execute_beater_none hb s
      simp only [beaters, List.filterMap_cons, hb]
      exact ih (h.congr hc hi ha)

theorem reachable_registers (xs : List (Extrinsic α)) :
    (runCalls Storage.empty xs).Registers (firsts (beaters xs)) :=
  runCalls_registers xs empty_registers

theorem execute_index_keep (x : Extrinsic α) {s : Storage α} {a : α} {i : UInt32}
    (h : s.accountsIndex a = some i) : (x.execute s).2.accountsIndex a = some i := by
  cases hb : x.beater with
  | none => rw [(execute_beater_none hb s).2.1, h]
  | some who =>
    obtain ⟨g, st, he⟩ := execute_beater_some hb s
    rw [he]
    show (s.register who).accountsIndex a = some i
    unfold Storage.register
    split
    · rename_i hnone
      have hne : a ≠ who := by
        intro ha
        rw [← ha, h] at hnone
        cases hnone
      simpa [Function.update_of_ne hne] using h
    · exact h

theorem runCalls_index_keep (xs : List (Extrinsic α)) {s : Storage α} {a : α} {i : UInt32}
    (h : s.accountsIndex a = some i) : (runCalls s xs).accountsIndex a = some i := by
  rw [runCalls_eq_final]
  exact final_induct (P := fun t : Storage α => t.accountsIndex a = some i) h
    (fun x _ ht => execute_index_keep x ht) xs

omit [Inhabited α] in
theorem firsts_idxOf (as bs : List α) {a : α} (ha : a ∉ as) :
    (firsts (as ++ a :: bs)).idxOf a = as.toFinset.card := by
  have hfirst : firsts (as ++ [a]) = firsts as ++ [a] := by
    rw [firsts_concat, enroll, if_neg (by rwa [mem_firsts])]
  obtain ⟨rest, hrest⟩ := firsts_prefix (as ++ [a]) bs
  have hsplit : as ++ a :: bs = as ++ [a] ++ bs := by simp
  rw [hsplit, ← hrest, hfirst, List.append_assoc, List.idxOf_append_of_notMem
    (by rwa [mem_firsts]), length_firsts]
  simp

/-- Up to `u32::MAX` accounts the registry is a bijection: it numbers the
accounts in the order of their first heartbeat, and no call renumbers them. -/
theorem registry_bijection (xs : List (Extrinsic α))
    (hxs : (beaters xs).toFinset.card ≤ u32Max) :
    ((runCalls Storage.empty xs).accountsCount.getD 0).toNat = (beaters xs).toFinset.card ∧
    (∀ i, ((runCalls Storage.empty xs).accounts i).isSome ↔
      i.toNat < (beaters xs).toFinset.card) ∧
    (∀ i a, (runCalls Storage.empty xs).accounts i = some a ↔
      (runCalls Storage.empty xs).accountsIndex a = some i) ∧
    (∀ pre x post a, xs = pre ++ x :: post → x.beater = some a → a ∉ beaters pre →
      ∃ i, (runCalls Storage.empty xs).accountsIndex a = some i ∧
        i.toNat = (beaters pre).toFinset.card) ∧
    (∀ ys a i, (runCalls Storage.empty xs).accountsIndex a = some i →
      (runCalls Storage.empty (xs ++ ys)).accountsIndex a = some i) := by
  have h := reachable_registers xs
  have hlength := length_firsts (beaters xs)
  have hmax : (firsts (beaters xs)).length ≤ u32Max := by
    rw [hlength]
    exact hxs
  have hcount : ((runCalls Storage.empty xs).accountsCount.getD 0).toNat =
      (beaters xs).toFinset.card := by
    rw [h.count_getD, toNat_ofNat_min, ← hlength]
    omega
  have hdefined : ∀ i, ((runCalls Storage.empty xs).accounts i).isSome ↔
      i.toNat < (beaters xs).toFinset.card := by
    intro i
    rw [h.accounts hmax i, ← hlength]
    simp
  have hindex : ∀ pre x post a, xs = pre ++ x :: post → x.beater = some a → a ∉ beaters pre →
      ∃ i, (runCalls Storage.empty xs).accountsIndex a = some i ∧
        i.toNat = (beaters pre).toFinset.card := by
    intro pre x post a hsplit hx hpre
    have hbeaters : beaters xs = beaters pre ++ a :: beaters post := by
      simp [beaters, hsplit, hx]
    have hmem : a ∈ firsts (beaters xs) := by
      rw [mem_firsts, hbeaters]
      simp
    obtain ⟨i, hi, hval⟩ := h.index_toNat hmax hmem
    rw [hbeaters, firsts_idxOf _ _ hpre] at hval
    exact ⟨i, hi, hval⟩
  have hkeep : ∀ ys a i, (runCalls Storage.empty xs).accountsIndex a = some i →
      (runCalls Storage.empty (xs ++ ys)).accountsIndex a = some i := by
    intro ys a i hi
    rw [runCalls_append]
    exact runCalls_index_keep ys hi
  exact ⟨hcount, hdefined, h.inverse hmax, hindex, hkeep⟩

theorem registry_bijection_two :
    ((runCalls (Storage.empty : Storage ℕ) [⟨1, .signed 20, .addHeartbeat 1 0⟩,
      ⟨2, .signed 10, .addHeartbeat 1 0⟩]).accountsCount.getD 0).toNat = 2 :=
  (registry_bijection [⟨1, .signed 20, .addHeartbeat 1 0⟩,
    ⟨2, .signed 10, .addHeartbeat 1 0⟩] (by decide)).1

end Archipel.Pallet
