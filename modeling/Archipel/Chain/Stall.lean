import Archipel.Chain.Rpc
import Archipel.Streak

/-!
# The stall detector

`chainMovingForward` counts the calls that find the best number they found last.
Over successive calls its answer is a test on a window of the best numbers seen:
it is false when as many calls as the threshold, and the one before them, saw
one number. A query that fails is seen as the number 0, so one failed query in a
stall makes the detector count from the start again.
-/

namespace Archipel.Chain
open Async

variable {α : Type}

/-! ### One call -/

section Wp
variable {W : Type} {T : CallSpec (api α) String (State × W)}

theorem wp_getBestNumber (Q : Except String ℕ → State × W → Prop) (x : State × W) :
    wp T free (getBestNumber : Method α ℕ) Q x ↔
      T .bestNumber (fun r y => Q (.ok (orZero r)) y) x := by
  unfold getBestNumber
  rw [wp_tryCatch, wp_call]
  apply iff_of_eq
  congr
  funext r y
  cases r <;> rfl

theorem moved_stalled {f : State} {block : ℕ} (hblock : f.lastBlockNumber = block) :
    moved f block = { f with lastBlockAccumulator := f.lastBlockAccumulator + 1 } := by
  unfold moved
  rw [if_pos hblock, ← hblock]

theorem wp_chainMovingForward (Q : Except String Bool → State × W → Prop) (x : State × W) :
    wp T free (chainMovingForward : Method α Bool) Q x ↔
      T .bestNumber (fun r y =>
        Q (.ok (decide (Moving y.1 (orZero r)))) (moved y.1 (orZero r), y.2)) x := by
  unfold chainMovingForward
  rw [wp_bind, wp_getBestNumber]
  have hQ : ∀ (block : ℕ) (y : State × W), wp T free (do
      modify fun s => { s with
        lastBlockAccumulator :=
          if s.lastBlockNumber = block then s.lastBlockAccumulator + 1 else 0 }
      let s ← get
      if s.lastBlockNumber = block ∧ s.lastBlockThreshold ≤ s.lastBlockAccumulator then
        pure false
      else do
        modify fun s => { s with lastBlockNumber := block }
        pure true : Method α Bool) Q y ↔
      Q (.ok (decide (Moving y.1 block))) (moved y.1 block, y.2) := by
    intro block y
    rw [wp_modify_bind, wp_get_bind, and_iff_right trivial]
    by_cases hblock : y.1.lastBlockNumber = block
    · by_cases hstall : y.1.lastBlockThreshold ≤ y.1.lastBlockAccumulator + 1
      · have hmoving : ¬ Moving y.1 block := fun h => h ⟨hblock, hstall⟩
        rw [decide_eq_false hmoving, moved_stalled hblock]
        simp only [hblock, hstall, if_true, true_and]
        exact Iff.rfl
      · have hmoving : Moving y.1 block := fun h => hstall h.2
        simp only [hblock, hstall, hmoving, if_true, true_and, if_false, decide_true, moved]
        rw [wp_modify_bind, and_iff_right trivial]
        exact Iff.rfl
    · have hmoving : Moving y.1 block := fun h => hblock h.1
      simp only [hblock, hmoving, false_and, if_false, decide_true, moved]
      rw [wp_modify_bind, and_iff_right trivial]
      exact Iff.rfl
  apply iff_of_eq
  congr
  funext r y
  exact propext (hQ (orZero r) y)

end Wp

/-- The query of the best number is answered by `query`. -/
def answering (query : Except String ℕ) : Env (api α) String Unit
  | .bestNumber, _, r, _ => r = query
  | _, _, _, _ => True

theorem runs_chainMovingForward {query : Except String ℕ} {f f' : State}
    {out : Except String Bool}
    (h : Runs (answering query) (chainMovingForward : Method α Bool) (f, ()) out (f', ())) :
    out = .ok (decide (Moving f (orZero query))) ∧ f' = moved f (orZero query) := by
  have hwp : wp (demonic (answering query)) free (chainMovingForward : Method α Bool)
      (fun out y => out = .ok (decide (Moving f (orZero query))) ∧ y.1 = moved f (orZero query))
      (f, ()) := by
    rw [wp_chainMovingForward]
    intro r w hr
    have hquery : r = query := hr
    rw [hquery]
    exact ⟨rfl, rfl⟩
  exact wp_runs hwp h

theorem chainMovingForward_runs (α : Type) (query : Except String ℕ) (f : State) :
    Runs (answering query) (chainMovingForward : Method α Bool) (f, ())
      (.ok (decide (Moving f (orZero query)))) (moved f (orZero query), ()) := by
  have hwp : wp (angelic (answering query)) free (chainMovingForward : Method α Bool)
      (fun out y => out = .ok (decide (Moving f (orZero query))) ∧ y = (moved f (orZero query), ()))
      (f, ()) := by
    rw [wp_chainMovingForward]
    exact ⟨query, (), rfl, rfl, rfl⟩
  obtain ⟨out, y, hruns, rfl, rfl⟩ := angelic_runs hwp
  exact hruns

/-! ### Successive calls -/

/-- Successive calls: `query n` answers the query of call `n`, which ends with
`out n` and the fields `s n`. The fields before the first call are `s 0`. -/
structure Polls (α : Type) (query : ℕ → Except String ℕ) (s : ℕ → State)
    (out : ℕ → Except String Bool) : Prop where
  call : ∀ n, Runs (answering (query (n + 1))) (chainMovingForward : Method α Bool) (s n, ())
    (out (n + 1)) (s (n + 1), ())

/-- The block number of call `n`, and before the first call the one the node
starts with. -/
def seen (query : ℕ → Except String ℕ) (start : ℕ) : ℕ → ℕ
  | 0 => start
  | n + 1 => orZero (query (n + 1))

/-- The fields after `n` calls. -/
def polled (query : ℕ → Except String ℕ) (f : State) : ℕ → State
  | 0 => f
  | n + 1 => moved (polled query f n) (orZero (query (n + 1)))

theorem polls_exists (α : Type) (query : ℕ → Except String ℕ) (f : State) :
    Polls α query (polled query f)
      fun n => .ok (decide (Moving (polled query f (n - 1)) (orZero (query n)))) :=
  ⟨fun n => chainMovingForward_runs α (query (n + 1)) (polled query f n)⟩

section Polls
variable {query : ℕ → Except String ℕ} {s : ℕ → State} {out : ℕ → Except String Bool}

theorem Polls.out_succ (h : Polls α query s out) (n : ℕ) :
    out (n + 1) = .ok (decide (Moving (s n) (orZero (query (n + 1))))) :=
  (runs_chainMovingForward (h.call n)).1

theorem Polls.succ (h : Polls α query s out) (n : ℕ) :
    s (n + 1) = moved (s n) (orZero (query (n + 1))) := (runs_chainMovingForward (h.call n)).2

theorem Polls.lastBlockNumber (h : Polls α query s out) (n : ℕ) :
    (s n).lastBlockNumber = seen query (s 0).lastBlockNumber n := by
  cases n with
  | zero => rfl
  | succ n =>
    rw [h.succ n]
    rfl

theorem Polls.lastBlockThreshold (h : Polls α query s out) (n : ℕ) :
    (s n).lastBlockThreshold = (s 0).lastBlockThreshold := by
  induction n with
  | zero => rfl
  | succ n ih =>
    rw [h.succ n]
    exact ih

/-- The accumulator counts the steps that saw one number before and after. -/
theorem Polls.counts (h : Polls α query s out) :
    Streak.Counts (fun n => seen query (s 0).lastBlockNumber n =
      seen query (s 0).lastBlockNumber (n + 1)) fun n => (s n).lastBlockAccumulator := by
  have hstep : ∀ n, (s (n + 1)).lastBlockAccumulator =
      if seen query (s 0).lastBlockNumber n = seen query (s 0).lastBlockNumber (n + 1) then
        (s n).lastBlockAccumulator + 1 else 0 := by
    intro n
    rw [h.succ n, ← h.lastBlockNumber n]
    rfl
  constructor
  · intro n hn
    rw [hstep n, if_pos hn]
  · intro n hn
    rw [hstep n, if_neg hn]

theorem Polls.stalled_iff (h : Polls α query s out) (n : ℕ) :
    out (n + 1) = .ok false ↔
      seen query (s 0).lastBlockNumber n = seen query (s 0).lastBlockNumber (n + 1) ∧
        (s 0).lastBlockThreshold ≤ (s (n + 1)).lastBlockAccumulator := by
  rw [h.out_succ n, Except.ok.injEq, decide_eq_false_iff_not, Moving, not_not, h.lastBlockNumber n,
    h.lastBlockThreshold n]
  refine and_congr_right fun hsame => ?_
  rw [h.counts.more n hsame]

/-- The detector is a test on a sliding window. -/
theorem chainMovingForward_window (h : Polls α query s out)
    (hacc : (s 0).lastBlockAccumulator = 0) (hthreshold : 1 ≤ (s 0).lastBlockThreshold) (n : ℕ)
    (hn : 1 ≤ n) : ∃ moving, out n = .ok moving ∧
      (moving = false ↔ (s 0).lastBlockThreshold ≤ n ∧
        ∀ k, n - (s 0).lastBlockThreshold ≤ k → k ≤ n →
          seen query (s 0).lastBlockNumber k = seen query (s 0).lastBlockNumber n) ∧
      (s n).lastBlockNumber = seen query (s 0).lastBlockNumber n := by
  obtain ⟨m, rfl⟩ : ∃ m, n = m + 1 := ⟨n - 1, by omega⟩
  refine ⟨decide (Moving (s m) (orZero (query (m + 1)))), h.out_succ m, ?_,
    h.lastBlockNumber (m + 1)⟩
  have hstalled := h.stalled_iff m
  rw [h.out_succ m, Except.ok.injEq] at hstalled
  rw [hstalled, h.counts.le_iff hacc, Streak.constant_iff]
  constructor
  · intro hwindow
    exact hwindow.2
  · intro hwindow
    exact ⟨hwindow.2 m (by omega) (by omega), hwindow⟩

end Polls

def frozenQuery : ℕ → Except String ℕ := fun _ => .ok 7

def flakyQuery (n : ℕ) : Except String ℕ := if n = 2 then .error "disconnected" else .ok 7

def frozen : State := { lastBlockNumber := 7, lastBlockThreshold := 2 }

theorem chainMovingForward_window_frozen : ∃ moving,
    (Except.ok (decide (Moving (polled frozenQuery frozen 1) 7)) : Except String Bool) =
      .ok moving ∧
    (moving = false ↔ 2 ≤ 2 ∧ ∀ k, 2 - 2 ≤ k → k ≤ 2 →
      seen frozenQuery 7 k = seen frozenQuery 7 2) ∧
    (polled frozenQuery frozen 2).lastBlockNumber = seen frozenQuery 7 2 :=
  chainMovingForward_window (polls_exists ℕ frozenQuery frozen) rfl (by decide) 2 (by decide)

/-! ### Failed queries during a stall -/

section Stall
variable {query : ℕ → Except String ℕ} {s : ℕ → State} {out : ℕ → Except String Bool} {B : ℕ}

theorem seen_ok (hstart : (s 0).lastBlockNumber = B) {n : ℕ} (hn : 1 ≤ n → query n = .ok B) :
    seen query (s 0).lastBlockNumber n = B := by
  cases n with
  | zero => exact hstart
  | succ n =>
    have hok := hn (by omega)
    simp [seen, hok, orZero]

theorem seen_error {n : ℕ} (hn : 1 ≤ n) (herror : ∃ e, query n = .error e) :
    seen query (s 0).lastBlockNumber n = 0 := by
  obtain ⟨e, he⟩ := herror
  cases n with
  | zero => omega
  | succ n => simp [seen, he, orZero]

/-- Between a failed call and a later one that sees the stalled block the
accumulator starts again from zero. -/
theorem Polls.lt_of_error (h : Polls α query s out) (hB : 0 < B) {j n : ℕ} (hj : 1 ≤ j)
    (hjn : j < n) (herror : ∃ e, query j = .error e) (hok : query n = .ok B) :
    (s n).lastBlockAccumulator < n - j := by
  have hzero := seen_error (s := s) hj herror
  have hsame : seen query (s 0).lastBlockNumber n = B := by
    cases n with
    | zero => omega
    | succ n => simp [seen, hok, orZero]
  have hbreak : ¬ ∀ k, j ≤ k → k < n → seen query (s 0).lastBlockNumber k =
      seen query (s 0).lastBlockNumber (k + 1) := by
    intro hall
    have heq := (Streak.constant_iff _ j n).mp hall j (Nat.le_refl j) (by omega)
    omega
  push Not at hbreak
  obtain ⟨k, hjk, hkn, hk⟩ := hbreak
  have hlt := h.counts.lt_of_break hk hkn
  omega

theorem Polls.threshold_le (h : Polls α query s out) {n : ℕ} (hn : 1 ≤ n)
    (hout : out n = .ok false) : (s 0).lastBlockThreshold ≤ (s n).lastBlockAccumulator := by
  obtain ⟨m, rfl⟩ : ∃ m, n = m + 1 := ⟨n - 1, by omega⟩
  exact ((h.stalled_iff m).mp hout).2

theorem Polls.errors_go_on (h : Polls α query s out) (hB : 0 < B)
    (hthreshold : 1 ≤ (s 0).lastBlockThreshold)
    (hquery : ∀ n, 1 ≤ n → query n = .ok B ∨ ∃ e, query n = .error e)
    (hstall : ∀ n, (s 0).lastBlockThreshold ≤ n → query n = .ok B → out n = .ok false)
    {j : ℕ} (hj : 1 ≤ j) (herror : ∃ e, query j = .error e) (n : ℕ) (hjn : j < n)
    (hn : (s 0).lastBlockThreshold ≤ n) : ∃ e, query n = .error e := by
  induction n with
  | zero => omega
  | succ n ih =>
    rcases hquery (n + 1) (by omega) with hok | hfail
    · have hle := h.threshold_le (by omega) (hstall (n + 1) hn hok)
      by_cases hlater : j < n ∧ (s 0).lastBlockThreshold ≤ n
      · have hprev := ih hlater.1 hlater.2
        have hlt := h.lt_of_error hB (by omega) (Nat.lt_add_one n) hprev hok
        omega
      · have hlt := h.lt_of_error hB hj hjn herror hok
        omega
    · exact hfail

/-- From the threshold on every answered call of a stall is false exactly when
no answered call comes after a failed one. -/
theorem stall_reported_iff (h : Polls α query s out)
    (hthreshold : 1 ≤ (s 0).lastBlockThreshold) (hB : 0 < B)
    (hstart : (s 0).lastBlockNumber = B)
    (hquery : ∀ n, 1 ≤ n → query n = .ok B ∨ ∃ e, query n = .error e) :
    (∀ n, (s 0).lastBlockThreshold ≤ n → query n = .ok B → out n = .ok false) ↔
      ∀ j n, 1 ≤ j → j < n → (s 0).lastBlockThreshold ≤ n → (∃ e, query j = .error e) →
        ∃ e, query n = .error e := by
  constructor
  · intro hstall j n hj hjn hn herror
    exact h.errors_go_on hB hthreshold hquery hstall hj herror n hjn hn
  · intro hgo n hn hok
    have hseen : ∀ k, k ≤ n → seen query (s 0).lastBlockNumber k = B := by
      intro k hk
      refine seen_ok hstart fun hk1 => ?_
      rcases hquery k hk1 with hkok | hkerror
      · exact hkok
      · by_cases hkn : k = n
        · rw [hkn]
          exact hok
        · obtain ⟨e, he⟩ := hgo k n hk1 (by omega) hn hkerror
          rw [he] at hok
          cases hok
    have hacc := h.counts.eq_add (n := n) fun k hk =>
      (hseen k (by omega)).trans (hseen (k + 1) (by omega)).symm
    obtain ⟨m, rfl⟩ : ∃ m, n = m + 1 := ⟨n - 1, by omega⟩
    refine (h.stalled_iff m).mpr ⟨?_, by omega⟩
    rw [hseen m (by omega), hseen (m + 1) (Nat.le_refl _)]

end Stall

theorem stall_reported_iff_flaky :
    (∀ n, 2 ≤ n → flakyQuery n = .ok 7 →
      (Except.ok (decide (Moving (polled flakyQuery frozen (n - 1)) (orZero (flakyQuery n)))) :
        Except String Bool) = .ok false) ↔
      ∀ j n, 1 ≤ j → j < n → 2 ≤ n → (∃ e, flakyQuery j = .error e) →
        ∃ e, flakyQuery n = .error e :=
  stall_reported_iff (polls_exists ℕ flakyQuery frozen) (by decide) (by decide) rfl fun n _ => by
    by_cases hn : n = 2
    · exact .inr ⟨"disconnected", if_pos hn⟩
    · exact .inl (if_neg hn)

/-- One failed query hides the stall: the third call is told that the chain
moves. -/
theorem stall_hidden : ¬ ∀ (query : ℕ → Except String ℕ) (s : ℕ → State)
    (out : ℕ → Except String Bool) (B : ℕ), Polls ℕ query s out →
    1 ≤ (s 0).lastBlockThreshold → 0 < B → (s 0).lastBlockNumber = B →
    (∀ n, 1 ≤ n → query n = .ok B ∨ ∃ e, query n = .error e) →
    ∀ n, (s 0).lastBlockThreshold ≤ n → query n = .ok B → out n = .ok false := by
  intro h
  have hflaky : ∀ n, 1 ≤ n → flakyQuery n = .ok 7 ∨ ∃ e, flakyQuery n = .error e := by
    intro n _
    by_cases hn : n = 2
    · exact .inr ⟨"disconnected", if_pos hn⟩
    · exact .inl (if_neg hn)
  have hthird := h flakyQuery _ _ 7 (polls_exists ℕ flakyQuery frozen) (by decide) (by decide) rfl
    hflaky 3 (by decide) rfl
  exact absurd hthird (by decide)

end Archipel.Chain
