import Archipel.Async.Wp

/-!
# Runs up to a call

A run among others, followed until the function awaits a given call. The marks
it leaves are what it has seen on the way: the fields it read, and the answers
of its calls with the world in which each was served.
-/

namespace Archipel.Async

variable {A : Api} {σ ε α β W : Type}

inductive Mark (A : Api) (σ ε W : Type) where
  | read (s : σ)
  | call (c : A.Call) (w : W) (r : Except ε (A.Ret c))

/-- `Comes R E c m x tr y`: from `x`, with `R` steps of others around each of
its calls, `m` may come to await `c` in `y`, leaving the marks `tr`. -/
def Comes (R : σ × W → σ × W → Prop) (E : Env A ε W) (c : A.Call) :
    Async A σ ε α → σ × W → List (Mark A σ ε W) → σ × W → Prop
  | .done _, _, _, _ => False
  | .fail _, _, _, _ => False
  | .read k, x, tr, y => ∃ tr', tr = .read x.1 :: tr' ∧ Comes R E c (k x.1) x tr' y
  | .write s k, x, tr, y => Comes R E c k (s, x.2) tr y
  | .await d k, x, tr, y => (d = c ∧ tr = [] ∧ y = x) ∨
      ∃ x' r w z tr', R x x' ∧ E d x'.2 r w ∧ R (x'.1, w) z ∧ tr = .call d x'.2 r :: tr' ∧
        Comes R E c (k r) z tr' y

variable {R : σ × W → σ × W → Prop} {E : Env A ε W} {c : A.Call}
  {x y : σ × W} {tr : List (Mark A σ ε W)}

theorem comes_get_bind (f : σ → Async A σ ε α) :
    Comes R E c (get >>= f) x tr y ↔ ∃ tr', tr = .read x.1 :: tr' ∧ Comes R E c (f x.1) x tr' y :=
  Iff.rfl

theorem comes_modify_bind (g : σ → σ) (f : Unit → Async A σ ε α) :
    Comes R E c (modify g >>= f) x tr y ↔
      ∃ tr', tr = .read x.1 :: tr' ∧ Comes R E c (f ()) (g x.1, x.2) tr' y := Iff.rfl

theorem comes_call_bind (d : A.Call) (f : A.Ret d → Async A σ ε α) :
    Comes R E c (call d >>= f) x tr y ↔ (d = c ∧ tr = [] ∧ y = x) ∨
      ∃ x' a w z tr', R x x' ∧ E d x'.2 (.ok a) w ∧ R (x'.1, w) z ∧
        tr = .call d x'.2 (.ok a) :: tr' ∧ Comes R E c (f a) z tr' y := by
  apply or_congr_right
  constructor
  · intro ⟨x', r, w, z, tr', hx, hr, hz, htr, h⟩
    cases r with
    | ok a => exact ⟨x', a, w, z, tr', hx, hr, hz, htr, h⟩
    | error e => exact h.elim
  · intro ⟨x', a, w, z, tr', hx, hr, hz, htr, h⟩
    exact ⟨x', .ok a, w, z, tr', hx, hr, hz, htr, h⟩

theorem onlyCalls_not_comes {m : Async A σ ε α} (hm : OnlyCalls (· ≠ c) m) :
    ¬ Comes R E c m x tr y := by
  induction m generalizing x tr with
  | done a => exact not_false
  | fail e => exact not_false
  | read k ih =>
    intro ⟨tr', _, h⟩
    exact ih x.1 (hm x.1) h
  | write s k ih => exact ih hm
  | await d k ih =>
    intro h
    rcases h with ⟨hd, -, -⟩ | ⟨x', r, w, z, tr', -, -, -, -, h⟩
    · exact hm.1 hd
    · exact ih r (hm.2 r) h

end Archipel.Async
