import Archipel.Async.Shared

/-!
# Synchronous blocks

A function runs in blocks: from its launch or from the answer of a call up to
its next await nothing else happens. What a block does to the fields is `turn`,
so a property of blocks is a property of what is left of the function where a
block starts.
-/

namespace Archipel.Async

variable {A : Api} {σ ε α W τ : Type}

/-- `P` holds of what is left of the function at the start of each of its
blocks, but for the first one. -/
def Blocks (P : Async A σ ε α → Prop) : Async A σ ε α → Prop
  | .done _ => True
  | .fail _ => True
  | .read k => ∀ s, Blocks P (k s)
  | .write _ k => Blocks P k
  | .await _ k => ∀ r, P (k r) ∧ Blocks P (k r)

theorem blocks_turn {P : Async A σ ε α → Prop} {m : Async A σ ε α} (hm : Blocks P m) (s : σ) :
    Blocks P (m.turn s).1 := by
  induction m generalizing s with
  | done a => trivial
  | fail e => trivial
  | read k ih => exact ih s (hm s) s
  | write s' k ih => exact ih hm s'
  | await c k ih => exact hm

theorem blocks_step {P : Async A σ ε α → Prop} (hP : ∀ m, m.suspended = true → P m)
    {E : Env A ε W} {m m' : Async A σ ε α} {x y : σ × W} (hm : Blocks P m)
    (h : Step E m x m' y) : P m' ∧ Blocks P m' := by
  cases h with
  | serve hr => exact hm _
  | turn hs => exact ⟨hP _ (turn_suspended _ _), blocks_turn hm _⟩

/-! ### Runs that meet a condition -/

/-- A run all of whose states meet the condition `C`. -/
def System.ReachableWithin (S : System A σ ε α W τ) (C : Pool A σ ε α W τ → Prop) (x : σ × W)
    (p : Pool A σ ε α W τ) : Prop :=
  Relation.ReflTransGen (fun p q => S.Step p q ∧ C q) ⟨x, []⟩ p

variable {S : System A σ ε α W τ} {C : Pool A σ ε α W τ → Prop} {x : σ × W}
  {p : Pool A σ ε α W τ}

theorem System.ReachableWithin.reachable (hp : S.ReachableWithin C x p) : S.Reachable x p :=
  Relation.ReflTransGen.mono (fun _ _ h => h.1) _ _ hp

theorem System.reachableWithin_invariant {I : Pool A σ ε α W τ → Prop}
    (hp : S.ReachableWithin C x p) (h0 : I ⟨x, []⟩) (hC : C ⟨x, []⟩)
    (hstep : ∀ p q, I p → C p → S.Step p q → I q) : I p := by
  suffices h : I p ∧ C p from h.1
  induction hp with
  | refl => exact ⟨h0, hC⟩
  | tail _ hpq ih => exact ⟨hstep _ _ ih.1 ih.2 hpq.1, hpq.2⟩

/-- One function moves while the condition holds whatever it has come to. -/
theorem System.steps_flow_within (pre post : List (τ × Async A σ ε α)) {t : τ}
    (hC : ∀ m y, C ⟨y, pre ++ (t, m) :: post⟩) {m m' : Async A σ ε α} {x y : σ × W}
    (h : Steps (S.env t) (m, x) (m', y)) : Relation.ReflTransGen (fun p q => S.Step p q ∧ C q)
      ⟨x, pre ++ (t, m) :: post⟩ ⟨y, pre ++ (t, m') :: post⟩ := by
  suffices hall : ∀ b, Steps (S.env t) (m, x) b →
      Relation.ReflTransGen (fun p q => S.Step p q ∧ C q) ⟨x, pre ++ (t, m) :: post⟩
        ⟨b.2, pre ++ (t, b.1) :: post⟩ from hall (m', y) h
  intro b hb
  induction hb with
  | refl => exact .refl
  | tail _ hstep ih => exact ih.tail ⟨.flow hstep, hC _ _⟩

end Archipel.Async
