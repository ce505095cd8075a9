import Mathlib.Logic.Relation
import Mathlib.Data.List.Basic

/-!
# Asynchronous functions

A shallow embedding of `async` functions over an interface of calls: a function
is a tree whose inner nodes are awaited calls and whose other nodes are the
synchronous code between two awaits (reads and writes of the object fields).
An awaited call answers with a value or rejects; a rejection is an exception
that `attempt` and `tryCatch` observe.
-/

namespace Archipel

structure Api where
  Call : Type
  Ret : Call → Type

/-- An asynchronous function over the interface `A`, with object fields `σ`,
exceptions `ε` and result `α`. -/
inductive Async (A : Api) (σ ε α : Type) : Type
  | done (a : α)
  | fail (e : ε)
  | read (k : σ → Async A σ ε α)
  | write (s : σ) (k : Async A σ ε α)
  | await (c : A.Call) (k : Except ε (A.Ret c) → Async A σ ε α)

namespace Async

variable {A : Api} {σ ε α β γ : Type}

protected def bind : Async A σ ε α → (α → Async A σ ε β) → Async A σ ε β
  | .done a, f => f a
  | .fail e, _ => .fail e
  | .read k, f => .read fun s => (k s).bind f
  | .write s k, f => .write s (k.bind f)
  | .await c k, f => .await c fun r => (k r).bind f

instance : Monad (Async A σ ε) where
  pure := .done
  bind := Async.bind

instance : LawfulMonad (Async A σ ε) := LawfulMonad.mk' _
  (by
    intro α m
    show Async.bind m .done = m
    induction m with
    | done a => rfl
    | fail e => rfl
    | read k ih => exact congrArg Async.read (funext ih)
    | write s k ih => exact congrArg (Async.write s) ih
    | await c k ih => exact congrArg (Async.await c) (funext ih))
  (by
    intro α β a f
    rfl)
  (by
    intro α β γ m f g
    show Async.bind (Async.bind m f) g = Async.bind m fun a => Async.bind (f a) g
    induction m with
    | done a => rfl
    | fail e => rfl
    | read k ih => exact congrArg Async.read (funext ih)
    | write s k ih => exact congrArg (Async.write s) ih
    | await c k ih => exact congrArg (Async.await c) (funext ih))

def call (c : A.Call) : Async A σ ε (A.Ret c) :=
  .await c fun
    | .ok a => .done a
    | .error e => .fail e

def attempt : Async A σ ε α → Async A σ ε (Except ε α)
  | .done a => .done (.ok a)
  | .fail e => .done (.error e)
  | .read k => .read fun s => (k s).attempt
  | .write s k => .write s k.attempt
  | .await c k => .await c fun r => (k r).attempt

instance : MonadExceptOf ε (Async A σ ε) where
  throw := .fail
  tryCatch m h := m.attempt >>= fun
    | .ok a => .done a
    | .error e => h e

instance : MonadStateOf σ (Async A σ ε) where
  get := .read .done
  set s := .write s (.done ())
  modifyGet f := .read fun s => .write (f s).2 (.done (f s).1)

/-! ### Running alone

`Env` says what a call may answer and what it does to the world outside the
object. -/

/-- The environment of a run: the answers a call may get in a world, each with
the world it leaves. -/
abbrev Env (A : Api) (ε W : Type) := (c : A.Call) → W → Except ε (A.Ret c) → W → Prop

variable {W : Type}

/-- `Runs E m x out y`: run from fields and world `x` with nothing in between
its awaits, `m` may end with outcome `out` in `y`. -/
def Runs (E : Env A ε W) : Async A σ ε α → σ × W → Except ε α → σ × W → Prop
  | .done a, x, out, y => out = .ok a ∧ y = x
  | .fail e, x, out, y => out = .error e ∧ y = x
  | .read k, x, out, y => Runs E (k x.1) x out y
  | .write s k, x, out, y => Runs E k (s, x.2) out y
  | .await c k, x, out, y => ∃ r w, E c x.2 r w ∧ Runs E (k r) (x.1, w) out y

abbrev Answers (A : Api) (ε W : Type) := (c : A.Call) → W → Except ε (A.Ret c) × W

abbrev Script (A : Api) (ε W : Type) := (c : A.Call) → W → Option (Except ε (A.Ret c) × W)

def exec (D : Script A ε W) : Async A σ ε α → σ × W → Option (Except ε α × (σ × W))
  | .done a, x => some (.ok a, x)
  | .fail e, x => some (.error e, x)
  | .read k, x => exec D (k x.1) x
  | .write s k, x => exec D k (s, x.2)
  | .await c k, x =>
    match D c x.2 with
    | some (r, w) => exec D (k r) (x.1, w)
    | none => none

/-- What is left to do after an outcome. -/
def andThen (D : Script A ε W) (f : α → Async A σ ε β) :
    Option (Except ε α × (σ × W)) → Option (Except ε β × (σ × W))
  | some (.ok a, y) => exec D (f a) y
  | some (.error e, y) => some (.error e, y)
  | none => none

theorem exec_bind (D : Script A ε W) (m : Async A σ ε α) (f : α → Async A σ ε β) (x : σ × W) :
    exec D (m >>= f) x = andThen D f (exec D m x) := by
  induction m generalizing x with
  | done a => rfl
  | fail e => rfl
  | read k ih => exact ih x.1 x
  | write s k ih => exact ih (s, x.2)
  | await c k ih =>
    show exec D (.await c fun r => k r >>= f) x = _
    simp only [exec]
    cases D c x.2 with
    | none => rfl
    | some a => exact ih a.1 (x.1, a.2)

theorem exec_pure (D : Script A ε W) (a : α) (x : σ × W) :
    exec D (pure a : Async A σ ε α) x = some (.ok a, x) := rfl

theorem exec_get_bind (D : Script A ε W) (f : σ → Async A σ ε α) (x : σ × W) :
    exec D (get >>= f) x = exec D (f x.1) x := rfl

theorem exec_modify_bind (D : Script A ε W) (g : σ → σ) (f : Unit → Async A σ ε α) (x : σ × W) :
    exec D (modify g >>= f) x = exec D (f ()) (g x.1, x.2) := rfl

theorem exec_call (D : Script A ε W) (c : A.Call) (x : σ × W) :
    exec D (call c : Async A σ ε (A.Ret c)) x = (D c x.2).map fun a => (a.1, (x.1, a.2)) := by
  simp only [call, exec]
  cases D c x.2 with
  | none => rfl
  | some a =>
    obtain ⟨r, w⟩ := a
    cases r <;> rfl

theorem exec_attempt (D : Script A ε W) (m : Async A σ ε α) (x : σ × W) :
    exec D m.attempt x = (exec D m x).map fun a => (.ok a.1, a.2) := by
  induction m generalizing x with
  | done a => rfl
  | fail e => rfl
  | read k ih => exact ih x.1 x
  | write s k ih => exact ih (s, x.2)
  | await c k ih =>
    simp only [attempt, exec]
    cases D c x.2 with
    | none => rfl
    | some a => exact ih a.1 (x.1, a.2)

def recover (D : Script A ε W) (h : ε → Async A σ ε α) :
    Option (Except ε α × (σ × W)) → Option (Except ε α × (σ × W))
  | some (.ok a, y) => some (.ok a, y)
  | some (.error e, y) => exec D (h e) y
  | none => none

theorem exec_tryCatch (D : Script A ε W) (m : Async A σ ε α) (h : ε → Async A σ ε α)
    (x : σ × W) : exec D (tryCatch m h) x = recover D h (exec D m x) := by
  show exec D (m.attempt >>= _) x = _
  rw [exec_bind, exec_attempt]
  cases exec D m x with
  | none => rfl
  | some a =>
    obtain ⟨out, y⟩ := a
    cases out <;> rfl

theorem exec_runs {E : Env A ε W} {D : Script A ε W}
    (hD : ∀ c w r w', D c w = some (r, w') → E c w r w') (m : Async A σ ε α) (x : σ × W)
    {out : Except ε α} {y : σ × W} (h : exec D m x = some (out, y)) : Runs E m x out y := by
  induction m generalizing x with
  | done a =>
    cases h
    exact ⟨rfl, rfl⟩
  | fail e =>
    cases h
    exact ⟨rfl, rfl⟩
  | read k ih => exact ih x.1 x h
  | write s k ih => exact ih (s, x.2) h
  | await c k ih =>
    simp only [exec] at h
    cases hc : D c x.2 with
    | some a =>
      rw [hc] at h
      exact ⟨a.1, a.2, hD c x.2 a.1 a.2 hc, ih a.1 (x.1, a.2) h⟩
    | none =>
      rw [hc] at h
      cases h

def Env.Total (E : Env A ε W) : Prop := ∀ c w, ∃ r w', E c w r w'

theorem runs_exists (E : Env A ε W) (hE : E.Total) (m : Async A σ ε α) (x : σ × W) :
    ∃ out y, Runs E m x out y := by
  induction m generalizing x with
  | done a => exact ⟨.ok a, x, rfl, rfl⟩
  | fail e => exact ⟨.error e, x, rfl, rfl⟩
  | read k ih => exact ih x.1 x
  | write s k ih => exact ih (s, x.2)
  | await c k ih =>
    obtain ⟨r, w, hr⟩ := hE c x.2
    obtain ⟨out, y, hy⟩ := ih r (x.1, w)
    exact ⟨out, y, r, w, hr, hy⟩

end Async

end Archipel
