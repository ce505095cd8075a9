import Archipel.Pallet.Registry

/-!
# The registry at the end of the counter

The counter stays at `u32::MAX` and the account that is registered there takes
the last index again. With `2 ^ 32` accounts every index is taken once; from
the next account on, the last index loses its account and is shared.
-/

namespace Archipel.Pallet

variable {α : Type} [DecidableEq α]

/-- No index loses its account. -/
def Storage.Keeps (s t : Storage α) : Prop :=
  ∀ i a, s.accounts i = some a → t.accounts i = some a

/-- Registered accounts have distinct indices. -/
def Storage.Distinct (s : Storage α) : Prop :=
  ∀ a b i, s.accountsIndex a = some i → s.accountsIndex b = some i → a = b

/-! ### What an index holds -/

/-- The account at an index after the accounts of the list were registered: the
last index holds the latest of all accounts that found the counter at its end. -/
def slot (r : List α) (i : UInt32) : Option α :=
  if i.toNat < u32Max then r[i.toNat]? else if r.length ≤ u32Max then none else r.getLast?

def Storage.Slots (s : Storage α) (r : List α) : Prop := ∀ i, s.accounts i = slot r i

omit [DecidableEq α] in
theorem toNat_le_u32Max (i : UInt32) : i.toNat ≤ u32Max := by
  have hlt := i.toNat_lt_size
  simp only [u32Max, UInt32.size] at hlt ⊢
  omega

omit [DecidableEq α] in
theorem slot_new (r : List α) (a : α) (i : UInt32) :
    slot (r ++ [a]) i = if i.toNat = min r.length u32Max then some a else slot r i := by
  have hle := toNat_le_u32Max i
  have hlength : (r ++ [a]).length = r.length + 1 := by simp
  unfold slot
  rw [hlength]
  by_cases hi : i.toNat < u32Max
  · rw [if_pos hi, if_pos hi]
    by_cases hlast : i.toNat = r.length
    · have hmin : i.toNat = min r.length u32Max := by omega
      rw [if_pos hmin, hlast]
      simp
    · have hmin : ¬ i.toNat = min r.length u32Max := by omega
      rw [if_neg hmin, List.getElem?_append]
      split
      · rfl
      · have hr : r[i.toNat]? = none := List.getElem?_eq_none (by omega)
        have ha : [a][i.toNat - r.length]? = none :=
          List.getElem?_eq_none (by rw [List.length_singleton]; omega)
        rw [hr, ha]
  · rw [if_neg hi, if_neg hi]
    by_cases hfull : u32Max ≤ r.length
    · have hmin : i.toNat = min r.length u32Max := by omega
      have hlt : ¬ r.length + 1 ≤ u32Max := by omega
      rw [if_pos hmin, if_neg hlt]
      simp
    · have hmin : ¬ i.toNat = min r.length u32Max := by omega
      have hlt : r.length + 1 ≤ u32Max := by omega
      rw [if_neg hmin, if_pos hlt, if_pos (by omega)]

namespace Storage.Registers

variable {s : Storage α} {r : List α}

theorem register_accounts (h : s.Registers r) {a : α} (ha : a ∉ r) (i : UInt32) :
    (s.register a).accounts i =
      if i.toNat = min r.length u32Max then some a else s.accounts i := by
  have hmin := toNat_ofNat_min r.length
  rw [(h.register_new ha).2.2]
  by_cases hi : i.toNat = min r.length u32Max
  · have heq : i = UInt32.ofNat (min r.length u32Max) := by
      apply UInt32.toNat_inj.mp
      omega
    rw [if_pos hi, heq, Function.update_self]
  · have hne : i ≠ UInt32.ofNat (min r.length u32Max) := by
      intro heq
      rw [heq] at hi
      exact hi hmin
    rw [if_neg hi, Function.update_of_ne hne]

theorem register_slots (h : s.Registers r) (hslots : s.Slots r) (a : α) :
    (s.register a).Slots (enroll r a) := by
  by_cases ha : a ∈ r
  · rw [h.register_old ha, enroll, if_pos ha]
    exact hslots
  · intro i
    rw [enroll, if_neg ha, h.register_accounts ha, slot_new, hslots i]

/-- A new account takes a free index as long as an index is free. -/
theorem register_keeps_iff (h : s.Registers r) (hslots : s.Slots r) {a : α} (ha : a ∉ r) :
    s.Keeps (s.register a) ↔ r.length ≤ u32Max := by
  have hmin := toNat_ofNat_min r.length
  constructor
  · intro hkeeps
    by_contra hlt
    obtain ⟨init, b, hr⟩ := List.eq_nil_or_concat r |>.resolve_left (by
      rintro rfl
      simp at hlt)
    have hfull : (UInt32.ofNat (min r.length u32Max)).toNat = u32Max := by omega
    have hold : s.accounts (UInt32.ofNat (min r.length u32Max)) = some b := by
      rw [hslots, slot, hfull, if_neg (by omega), if_neg hlt, hr]
      simp
    have hnew := hkeeps _ b hold
    rw [h.register_accounts ha, if_pos hmin] at hnew
    cases hnew
    exact ha (by rw [hr]; simp)
  · intro hle i b hb
    rw [h.register_accounts ha]
    by_cases hi : i.toNat = min r.length u32Max
    · have hfree : slot r i = none := by
        unfold slot
        by_cases hlt : i.toNat < u32Max
        · rw [if_pos hlt, List.getElem?_eq_none (by omega)]
        · rw [if_neg hlt, if_pos hle]
      rw [hslots, hfree] at hb
      cases hb
    · rw [if_neg hi, hb]

theorem distinct_iff (h : s.Registers r) : s.Distinct ↔ r.length ≤ u32Max + 1 := by
  constructor
  · intro hdistinct
    by_contra hlt
    have hindex : ∀ n (hn : n < r.length), u32Max ≤ n →
        s.accountsIndex r[n] = some (UInt32.ofNat u32Max) := by
      intro n hn hge
      rw [h.index, if_pos (List.getElem_mem hn), h.nodup.idxOf_getElem n hn, Nat.min_eq_right hge]
    have hsame := hdistinct _ _ _ (hindex u32Max (by omega) (by omega))
      (hindex (u32Max + 1) (by omega) (by omega))
    have heq := (List.Nodup.getElem_inj_iff h.nodup).mp hsame
    omega
  · intro hle a b i ha hb
    have hmem : ∀ c, s.accountsIndex c = some i → c ∈ r ∧ i.toNat = r.idxOf c := by
      intro c hc
      have hcr : c ∈ r := (h.index_isSome c).mp (by rw [hc]; rfl)
      have hlt := List.idxOf_lt_length_of_mem hcr
      rw [h.index c, if_pos hcr] at hc
      refine ⟨hcr, ?_⟩
      rw [← Option.some.inj hc, toNat_ofNat_min]
      omega
    obtain ⟨har, hia⟩ := hmem a ha
    obtain ⟨-, hib⟩ := hmem b hb
    exact (List.idxOf_inj har).mp (hia.symm.trans hib)

end Storage.Registers

/-! ### Over a run -/

variable [Inhabited α]

theorem runCalls_slots (xs : List (Extrinsic α)) :
    (runCalls Storage.empty xs).Slots (firsts (beaters xs)) := by
  induction xs using List.reverseRecOn with
  | nil =>
    intro i
    simp [slot, beaters, firsts, Storage.empty]
  | append_singleton xs x ih =>
    have h := reachable_registers xs
    rw [runCalls_append, runCalls_cons, runCalls_nil]
    cases hb : x.beater with
    | none =>
      have hbeaters : beaters (xs ++ [x]) = beaters xs := by simp [beaters, hb]
      intro i
      rw [(execute_beater_none hb _).2.2, hbeaters]
      exact ih i
    | some who =>
      have hbeaters : beaters (xs ++ [x]) = beaters xs ++ [who] := by simp [beaters, hb]
      obtain ⟨g, st, he⟩ := execute_beater_some hb (runCalls Storage.empty xs)
      rw [he, hbeaters, firsts_concat]
      exact h.register_slots ih who

/-- One more call: only a new account that finds every index taken does harm. -/
theorem execute_keeps_iff (xs : List (Extrinsic α)) (x : Extrinsic α) :
    (runCalls Storage.empty xs).Keeps (runCalls Storage.empty (xs ++ [x])) ↔
      ∀ a, x.beater = some a → a ∉ beaters xs → (beaters xs).toFinset.card ≤ u32Max := by
  have h := reachable_registers xs
  have hslots := runCalls_slots xs
  rw [runCalls_append, runCalls_cons, runCalls_nil, ← length_firsts]
  cases hb : x.beater with
  | none =>
    constructor
    · intro _ a ha
      cases ha
    · intro _ i a ha
      rw [(execute_beater_none hb _).2.2]
      exact ha
  | some who =>
    obtain ⟨g, st, he⟩ := execute_beater_some hb (runCalls Storage.empty xs)
    rw [he]
    show (runCalls Storage.empty xs).Keeps ((runCalls Storage.empty xs).register who) ↔ _
    by_cases hmem : who ∈ firsts (beaters xs)
    · rw [h.register_old hmem]
      constructor
      · intro _ a ha hnot
        cases ha
        exact absurd ((mem_firsts _ who).mp hmem) hnot
      · exact fun _ i a ha => ha
    · rw [h.register_keeps_iff hslots hmem]
      constructor
      · exact fun hle _ _ _ => hle
      · intro hall
        exact hall who rfl (by rwa [mem_firsts] at hmem)

omit [Inhabited α] in
theorem card_beaters_mono (xs ys : List (Extrinsic α)) :
    (beaters xs).toFinset.card ≤ (beaters (xs ++ ys)).toFinset.card := by
  apply Finset.card_le_card
  intro a ha
  simp only [List.mem_toFinset, beaters, List.filterMap_append, List.mem_append] at ha ⊢
  exact .inl ha

/-- No call of a run takes an index from its account, and the accounts have
distinct indices, exactly when at most `2 ^ 32` accounts send heartbeats. -/
theorem registry_keeps_iff (xs : List (Extrinsic α)) :
    (∀ pre x post, xs = pre ++ x :: post →
      (runCalls Storage.empty pre).Keeps (runCalls Storage.empty (pre ++ [x])) ∧
        (runCalls Storage.empty (pre ++ [x])).Distinct) ↔
      (beaters xs).toFinset.card ≤ u32Max + 1 := by
  constructor
  · intro hall
    rcases List.eq_nil_or_concat xs with rfl | ⟨pre, x, hxs⟩
    · simp [beaters]
    · obtain ⟨-, hdistinct⟩ := hall pre x [] (by rw [hxs, List.concat_eq_append])
      have hle := (reachable_registers (pre ++ [x])).distinct_iff.mp hdistinct
      rwa [length_firsts, ← List.concat_eq_append, ← hxs] at hle
  · intro hle pre x post hxs
    have hsplit : xs = pre ++ [x] ++ post := by simp [hxs]
    have hcard := card_beaters_mono (pre ++ [x]) post
    rw [← hsplit] at hcard
    constructor
    · rw [execute_keeps_iff]
      intro a ha hnot
      have hbeaters : beaters (pre ++ [x]) = beaters pre ++ [a] := by simp [beaters, ha]
      have hone : (beaters (pre ++ [x])).toFinset.card = (beaters pre).toFinset.card + 1 := by
        rw [hbeaters, ← length_firsts, firsts_concat, enroll,
          if_neg (by rwa [mem_firsts]), ← length_firsts]
        simp
      omega
    · rw [(reachable_registers (pre ++ [x])).distinct_iff, length_firsts]
      omega

/-! ### The first account that is lost -/

/-- Heartbeats of `n` accounts, one after the other. -/
def senders (n : ℕ) : List (Extrinsic ℕ) :=
  (List.range n).map fun who => ⟨who, .signed who, .addHeartbeat 1 0⟩

theorem beaters_senders (n : ℕ) : beaters (senders n) = List.range n := by
  have hbeater : ∀ l : List ℕ, beaters (l.map fun who =>
      (⟨who, .signed who, .addHeartbeat 1 0⟩ : Extrinsic ℕ)) = l := by
    intro l
    induction l with
    | nil => rfl
    | cons who l ih => simpa [beaters, Extrinsic.beater] using ih
  exact hbeater (List.range n)

omit [Inhabited α] in
theorem firsts_of_nodup {as : List α} (h : as.Nodup) : firsts as = as := by
  induction as using List.reverseRecOn with
  | nil => rfl
  | append_singleton as a ih =>
    have hparts := List.nodup_append.mp h
    have hnot : a ∉ as := fun ha => hparts.2.2 a ha a (by simp) rfl
    rw [firsts_concat, ih hparts.1, enroll, if_neg hnot]

theorem senders_firsts (n : ℕ) : firsts (beaters (senders n)) = List.range n := by
  rw [beaters_senders, firsts_of_nodup List.nodup_range]

theorem senders_last {n : ℕ} (hn : u32Max ≤ n) :
    (runCalls Storage.empty (senders (n + 1))).accounts (UInt32.ofNat u32Max) = some n := by
  have hslots := runCalls_slots (senders (n + 1))
  have hmax : (UInt32.ofNat u32Max).toNat = u32Max := toNat_ofNat_min u32Max
  rw [senders_firsts] at hslots
  rw [hslots, slot, hmax, if_neg (by omega), List.length_range, if_neg (by omega)]
  simp [List.range_succ]

theorem senders_index {n who : ℕ} (hwho : who < n) (hmax : u32Max ≤ who) :
    (runCalls Storage.empty (senders n)).accountsIndex who = some (UInt32.ofNat u32Max) := by
  have h := reachable_registers (senders n)
  rw [senders_firsts] at h
  have hidx := List.nodup_range.idxOf_getElem who (by simpa using hwho)
  rw [List.getElem_range] at hidx
  rw [h.index, if_pos (List.mem_range.mpr hwho), hidx, Nat.min_eq_right hmax]

/-- The account after `2 ^ 32` others takes the index of the last of them. -/
theorem registry_overwritten :
    u32Max = 4294967295 ∧
    (runCalls Storage.empty (senders (u32Max + 1))).accounts (UInt32.ofNat u32Max) =
      some u32Max ∧
    (runCalls Storage.empty (senders (u32Max + 1 + 1))).accounts (UInt32.ofNat u32Max) =
      some (u32Max + 1) ∧
    (runCalls Storage.empty (senders (u32Max + 1 + 1))).accountsIndex u32Max =
      (runCalls Storage.empty (senders (u32Max + 1 + 1))).accountsIndex (u32Max + 1) ∧
    ¬ (∀ pre x post, senders (u32Max + 1 + 1) = pre ++ x :: post →
      (runCalls Storage.empty pre).Keeps (runCalls Storage.empty (pre ++ [x])) ∧
        (runCalls Storage.empty (pre ++ [x])).Distinct) := by
  have hindex : ∀ who, u32Max ≤ who → who < u32Max + 1 + 1 →
      (runCalls Storage.empty (senders (u32Max + 1 + 1))).accountsIndex who =
        some (UInt32.ofNat u32Max) := fun who hmax hwho => senders_index hwho hmax
  have hlower := hindex u32Max (Nat.le_refl _) (by omega)
  have hupper := hindex (u32Max + 1) (by omega) (by omega)
  refine ⟨rfl, senders_last (Nat.le_refl _), senders_last (by omega), ?_, ?_⟩
  · rw [hlower, hupper]
  · intro hall
    have hsplit : senders (u32Max + 1 + 1) =
        senders (u32Max + 1) ++ [⟨u32Max + 1, .signed (u32Max + 1), .addHeartbeat 1 0⟩] := by
      simp [senders, List.range_succ]
    obtain ⟨-, hdistinct⟩ := hall _ _ [] hsplit
    rw [← hsplit] at hdistinct
    have hsame := hdistinct _ _ _ hlower hupper
    omega

end Archipel.Pallet
