import Mathlib.Data.List.Induction
import Mathlib.Data.List.Perm.Basic
import Mathlib.Data.Nat.Notation

/-!
# Runs of a step function

A step takes an input to a result and a next state. A journal is an event log
that each step extends by at most one event and from which a view of the state
can be replayed. A slice is a part of the state that some of the inputs act on
and the others leave alone: two runs that agree on these inputs agree on the
slice and on their results.
-/

namespace Archipel.Runs

variable {X S R E V : Type}

def final (step : X → S → R × S) (s : S) : List X → S
  | [] => s
  | x :: xs => final step (step x s).2 xs

def results (step : X → S → R × S) (s : S) : List X → List (X × R)
  | [] => []
  | x :: xs => (x, (step x s).1) :: results step (step x s).2 xs

variable {step : X → S → R × S}

@[simp] theorem final_nil (s : S) : final step s [] = s := rfl

@[simp] theorem final_cons (s : S) (x : X) (xs : List X) :
    final step s (x :: xs) = final step (step x s).2 xs := rfl

theorem final_append (s : S) (xs ys : List X) :
    final step s (xs ++ ys) = final step (final step s xs) ys := by
  induction xs generalizing s with
  | nil => rfl
  | cons x xs ih => exact ih (step x s).2

theorem final_concat (s : S) (xs : List X) (x : X) :
    final step s (xs ++ [x]) = (step x (final step s xs)).2 := final_append s xs [x]

theorem final_induct {P : S → Prop} {s : S} (hs : P s)
    (hstep : ∀ x t, P t → P (step x t).2) (xs : List X) : P (final step s xs) := by
  induction xs generalizing s with
  | nil => exact hs
  | cons x xs ih => exact ih (hstep x s hs)

theorem fst_mem_of_mem_results {s : S} {xs : List X} {z : X × R} (h : z ∈ results step s xs) :
    z.1 ∈ xs := by
  induction xs generalizing s with
  | nil => cases h
  | cons x xs ih =>
    rcases List.mem_cons.mp h with h | h
    · rw [h]
      exact List.mem_cons_self ..
    · exact List.mem_cons_of_mem x (ih h)

/-! ### Journals -/

/-- What one step adds to the log explains what it does to the view. -/
structure Journal (step : X → S → R × S) (log : S → List E) (view : S → V)
    (apply : V → E → V) : Prop where
  entry : ∀ x s, (log (step x s).2 = log s ∧ view (step x s).2 = view s) ∨
    ∃ e, log (step x s).2 = log s ++ [e] ∧ view (step x s).2 = apply (view s) e

namespace Journal

variable {log : S → List E} {view : S → V} {apply : V → E → V}

theorem replay (h : Journal step log view apply) {v : V} {s : S}
    (hs : (log s).foldl apply v = view s) (xs : List X) :
    (log (final step s xs)).foldl apply v = view (final step s xs) := by
  refine final_induct (P := fun t => (log t).foldl apply v = view t) hs ?_ xs
  intro x t ht
  rcases h.entry x t with ⟨hl, hv⟩ | ⟨e, hl, hv⟩
  · rw [hl, hv, ht]
  · rw [hl, hv, List.foldl_append, ht]
    rfl

/-- An event of the log was added by one of the steps, on top of the events
before it. -/
theorem origin (h : Journal step log view apply) {s : S} (hs : log s = []) (xs : List X)
    {pre post : List E} {e : E} (hlog : log (final step s xs) = pre ++ e :: post) :
    ∃ ys x zs, xs = ys ++ x :: zs ∧ log (final step s ys) = pre ∧
      log (step x (final step s ys)).2 = pre ++ [e] := by
  induction xs using List.reverseRecOn generalizing post with
  | nil => simp [hs] at hlog
  | append_singleton xs x ih =>
    rw [final_concat] at hlog
    rcases h.entry x (final step s xs) with ⟨hl, -⟩ | ⟨e', hl, -⟩
    · rw [hl] at hlog
      obtain ⟨ys, y, zs, rfl, hys, hy⟩ := ih hlog
      exact ⟨ys, y, zs ++ [x], by simp, hys, hy⟩
    · have heq : log (final step s xs) ++ [e'] = pre ++ e :: post := hl.symm.trans hlog
      rcases List.eq_nil_or_concat post with rfl | ⟨post', e'', rfl⟩
      · obtain ⟨hpre, he⟩ := List.append_inj' heq rfl
        rw [he, hpre] at hl
        exact ⟨xs, x, [], rfl, hpre, hl⟩
      · have hsplit : log (final step s xs) ++ [e'] = (pre ++ e :: post') ++ [e''] := by
          simpa using heq
        obtain ⟨hpre, -⟩ := List.append_inj' hsplit rfl
        obtain ⟨ys, y, zs, rfl, hys, hy⟩ := ih hpre
        exact ⟨ys, y, zs ++ [x], by simp, hys, hy⟩

end Journal

/-! ### The latest entry of a log -/

def latest (f : E → Option V) (log : List E) : Option V := log.reverse.findSome? f

theorem latest_append (f : E → Option V) (l l' : List E) :
    latest f (l ++ l') = (latest f l').or (latest f l) := by
  unfold latest
  rw [List.reverse_append, List.findSome?_append]

theorem latest_concat (f : E → Option V) (l : List E) (e : E) :
    latest f (l ++ [e]) = (f e).or (latest f l) := by
  rw [latest_append]
  simp [latest]

/-- No entry stands between the two positions. -/
def Quiet (f : E → Option V) (log : List E) (n m : ℕ) : Prop :=
  ∀ i e, n ≤ i → i < m → log[i]? = some e → f e = none

theorem quiet_latest {f : E → Option V} {log : List E} {n m : ℕ} (hnm : n ≤ m)
    (h : Quiet f log n m) : latest f (log.take m) = latest f (log.take n) := by
  have hsplit : log.take m = log.take n ++ (log.take m).drop n := by
    have htake := (List.take_append_drop n (log.take m)).symm
    rwa [List.take_take, Nat.min_eq_left hnm] at htake
  have hnone : latest f ((log.take m).drop n) = none := by
    unfold latest
    rw [List.findSome?_eq_none_iff]
    intro e he
    obtain ⟨i, hi, hget⟩ := List.mem_iff_getElem.mp (List.mem_reverse.mp he)
    rw [List.length_drop, List.length_take] at hi
    rw [List.getElem_drop, List.getElem_take] at hget
    exact h (n + i) e (by omega) (by omega) (List.getElem?_eq_some_iff.mpr ⟨by omega, hget⟩)
  rw [hsplit, latest_append, hnone, Option.none_or]

theorem latest_succ (f : E → Option V) {log : List E} {n : ℕ} {e : E} (h : log[n]? = some e) :
    latest f (log.take (n + 1)) = (f e).or (latest f (log.take n)) := by
  rw [List.take_add_one, h, Option.toList_some, latest_concat]

/-! ### Slices -/

/-- The inputs that `sees` selects read and write the view and nothing else of
the state; the other inputs leave the view as it is. -/
structure Slice (step : X → S → R × S) (V : Type) where
  sees : X → Bool
  view : S → V
  frame : ∀ x s, sees x = false → view (step x s).2 = view s
  agree : ∀ x s t, sees x = true → view s = view t →
    (step x s).1 = (step x t).1 ∧ view (step x s).2 = view (step x t).2

namespace Slice

theorem filter_run (c : Slice step V) (xs : List X) {s t : S} (h : c.view s = c.view t) :
    c.view (final step s xs) = c.view (final step t (xs.filter c.sees)) ∧
      (results step s xs).filter (fun z => c.sees z.1) =
        results step t (xs.filter c.sees) := by
  induction xs generalizing s t with
  | nil => exact ⟨h, rfl⟩
  | cons x xs ih =>
    cases hx : c.sees x with
    | false =>
      have hf : c.view (step x s).2 = c.view t := (c.frame x s hx).trans h
      simpa [results, hx] using ih hf
    | true =>
      obtain ⟨hr, hv⟩ := c.agree x s t hx h
      simpa [results, hx, hr] using ih hv

theorem final_eq (c : Slice step V) {xs ys : List X} (h : xs.filter c.sees = ys.filter c.sees)
    (s : S) : c.view (final step s xs) = c.view (final step s ys) := by
  have hx := (c.filter_run xs (s := s) rfl).1
  have hy := (c.filter_run ys (s := s) rfl).1
  rw [hx, hy, h]

theorem results_eq (c : Slice step V) {xs ys : List X}
    (h : xs.filter c.sees = ys.filter c.sees) (s : S) :
    (results step s xs).filter (fun z => c.sees z.1) =
      (results step s ys).filter (fun z => c.sees z.1) := by
  have hx := (c.filter_run xs (s := s) rfl).2
  have hy := (c.filter_run ys (s := s) rfl).2
  rw [hx, hy, h]

end Slice

/-- Two runs in which every input is seen by a slice that they agree on give
each input the same result. -/
theorem results_perm {xs ys : List X} (s : S)
    (h : ∀ x, x ∈ xs ∨ x ∈ ys → ∃ (V : Type) (c : Slice step V), c.sees x = true ∧
      xs.filter c.sees = ys.filter c.sees) :
    (results step s xs).Perm (results step s ys) := by
  classical
  refine List.perm_iff_count.mpr fun z => ?_
  by_cases hz : z.1 ∈ xs ∨ z.1 ∈ ys
  · obtain ⟨V, c, hc, hf⟩ := h z.1 hz
    have hcount := congrArg (List.count z) (c.results_eq hf s)
    rwa [List.count_filter (by simpa using hc), List.count_filter (by simpa using hc)] at hcount
  · have hx : z ∉ results step s xs := fun hm => hz (.inl (fst_mem_of_mem_results hm))
    have hy : z ∉ results step s ys := fun hm => hz (.inr (fst_mem_of_mem_results hm))
    rw [List.count_eq_zero_of_not_mem hx, List.count_eq_zero_of_not_mem hy]

end Archipel.Runs
