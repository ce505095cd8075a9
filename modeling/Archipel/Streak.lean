import Mathlib.Data.Nat.Notation

/-!
# Streaks

A counter that one kind of step increments and every other step resets holds
the length of the streak of steps of that kind that ends where it is read. A
latch that one kind of step sets and another clears is set when a setting step
has had no clearing step since.
-/

namespace Archipel.Streak

variable {p : ℕ → Prop}

/-- `c n` is the counter before step `n`. -/
structure Counts (p : ℕ → Prop) (c : ℕ → ℕ) : Prop where
  more : ∀ n, p n → c (n + 1) = c n + 1
  reset : ∀ n, ¬ p n → c (n + 1) = 0

/-- The length of the unbroken streak of steps `p` that ends just before `n`. -/
def streak (p : ℕ → Prop) [DecidablePred p] : ℕ → ℕ
  | 0 => 0
  | n + 1 => if p n then streak p n + 1 else 0

theorem counts_streak [DecidablePred p] : Counts p (streak p) := by
  constructor
  · intro n hn
    simp [streak, hn]
  · intro n hn
    simp [streak, hn]

namespace Counts

variable {c : ℕ → ℕ}

theorem le_iff (h : Counts p c) (h0 : c 0 = 0) (m n : ℕ) :
    m ≤ c n ↔ m ≤ n ∧ ∀ k, n - m ≤ k → k < n → p k := by
  induction n generalizing m with
  | zero =>
    constructor
    · intro hm
      exact ⟨by omega, fun k _ hk => absurd hk (Nat.not_lt_zero k)⟩
    · intro hm
      omega
  | succ n ih =>
    cases m with
    | zero =>
      constructor
      · intro _
        exact ⟨Nat.zero_le _, fun k hk hkn => by omega⟩
      · intro _
        exact Nat.zero_le _
    | succ m =>
      by_cases hn : p n
      · have hm := ih m
        rw [h.more n hn]
        constructor
        · intro hle
          obtain ⟨hmn, hall⟩ := hm.mp (by omega)
          refine ⟨by omega, ?_⟩
          intro k hk hkn
          by_cases hkn' : k = n
          · rw [hkn']
            exact hn
          · exact hall k (by omega) (by omega)
        · intro hwindow
          have hle := hm.mpr ⟨by omega, fun k hk hkn => hwindow.2 k (by omega) (by omega)⟩
          omega
      · rw [h.reset n hn]
        constructor
        · intro hle
          omega
        · intro hwindow
          exact absurd (hwindow.2 n (by omega) (by omega)) hn

theorem lt_of_break (h : Counts p c) {k n : ℕ} (hk : ¬ p k) (hkn : k < n) : c n < n - k := by
  induction n with
  | zero => omega
  | succ n ih =>
    by_cases hn : p n
    · have hne : k ≠ n := fun heq => hk (heq ▸ hn)
      have hlt := ih (by omega)
      rw [h.more n hn]
      omega
    · rw [h.reset n hn]
      omega

theorem eq_add (h : Counts p c) {n : ℕ} (hall : ∀ k, k < n → p k) : c n = c 0 + n := by
  induction n with
  | zero => rfl
  | succ n ih =>
    have hn := ih fun k hk => hall k (by omega)
    rw [h.more n (hall n (by omega))]
    omega

end Counts

/-- The values from `a` to `n` are one value. -/
theorem constant_iff {β : Type} (b : ℕ → β) (a n : ℕ) :
    (∀ k, a ≤ k → k < n → b k = b (k + 1)) ↔ ∀ k, a ≤ k → k ≤ n → b k = b n := by
  induction n with
  | zero =>
    constructor
    · intro _ k _ hk
      rw [Nat.le_zero.mp hk]
    · intro _ k _ hk
      omega
  | succ n ih =>
    constructor
    · intro hstep k hak hk
      by_cases hkn : k = n + 1
      · rw [hkn]
      · have hn := ih.mp (fun j hj hjn => hstep j hj (by omega)) k hak (by omega)
        rw [hn]
        exact hstep n (by omega) (by omega)
    · intro hall k hak hk
      rw [hall k hak (by omega), hall (k + 1) (by omega) (by omega)]

/-! ### Counters with a cap -/

/-- A counter that stays at its cap. -/
structure Capped (T : ℕ) (p : ℕ → Prop) (c : ℕ → ℕ) : Prop where
  more : ∀ n, p n → c n < T → c (n + 1) = c n + 1
  full : ∀ n, p n → T ≤ c n → c (n + 1) = c n
  reset : ∀ n, ¬ p n → c (n + 1) = 0

theorem Capped.eq_min [DecidablePred p] {T : ℕ} {c : ℕ → ℕ} (h : Capped T p c) (h0 : c 0 = 0)
    (n : ℕ) : c n = min T (streak p n) := by
  induction n with
  | zero =>
    rw [h0]
    simp [streak]
  | succ n ih =>
    by_cases hn : p n
    · have hs := counts_streak.more n hn
      by_cases hT : c n < T
      · have hmore := h.more n hn hT
        omega
      · have hfull := h.full n hn (by omega)
        omega
    · rw [h.reset n hn, counts_streak.reset n hn, Nat.min_zero]

/-! ### Latches -/

/-- `l n` holds when the latch is set before step `n`. -/
structure Latch (set clear : ℕ → Prop) (l : ℕ → Prop) : Prop where
  on : ∀ n, set n → l (n + 1)
  off : ∀ n, clear n → ¬ l (n + 1)
  keep : ∀ n, ¬ set n → ¬ clear n → (l (n + 1) ↔ l n)

theorem Latch.iff_since {set clear l : ℕ → Prop} (h : Latch set clear l) (h0 : ¬ l 0) (n : ℕ) :
    l n ↔ ∃ k, k < n ∧ set k ∧ ∀ j, k ≤ j → j < n → ¬ clear j := by
  induction n with
  | zero =>
    constructor
    · intro hl
      exact absurd hl h0
    · intro ⟨k, hk, _⟩
      omega
  | succ n ih =>
    by_cases hclear : clear n
    · constructor
      · intro hl
        exact absurd hl (h.off n hclear)
      · intro ⟨k, hk, _, hsince⟩
        exact absurd hclear (hsince n (by omega) (by omega))
    · by_cases hset : set n
      · constructor
        · intro _
          refine ⟨n, by omega, hset, ?_⟩
          intro j hj hjn
          have hjn' : j = n := by omega
          rw [hjn']
          exact hclear
        · intro _
          exact h.on n hset
      · rw [h.keep n hset hclear, ih]
        constructor
        · intro ⟨k, hk, hk', hsince⟩
          refine ⟨k, by omega, hk', ?_⟩
          intro j hj hjn
          by_cases hjn' : j = n
          · rw [hjn']
            exact hclear
          · exact hsince j hj (by omega)
        · intro ⟨k, hk, hk', hsince⟩
          have hkn : k ≠ n := fun heq => hset (heq ▸ hk')
          exact ⟨k, by omega, hk', fun j hj hjn => hsince j hj (by omega)⟩

end Archipel.Streak
