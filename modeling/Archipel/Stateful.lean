import Mathlib.Data.Nat.Notation

/-!
# Programs over a state

A program that reads and changes a state and may throw, with the state that an
exception leaves. `Keeps` says that every run from a state with the invariant
ends in one, and that what it throws is allowed.
-/

namespace Archipel.Stateful

/-- A program over the state `σ` that throws `ε`. -/
abbrev Program (ε σ α : Type) := ExceptT ε (StateM σ) α

variable {ε σ α β : Type}

/-- The outcome of a run and the state that it leaves. -/
def exec (m : Program ε σ α) (s : σ) : Except ε α × σ := StateT.run (ExceptT.run m) s

/-- Read the state, or throw. -/
def ask (f : σ → Except ε α) : Program ε σ α := fun s => (f s, s)

/-- Change the state, or throw. -/
def update (f : σ → Except ε σ) : Program ε σ Unit := fun s =>
  match f s with
  | .ok s' => (.ok (), s')
  | .error e => (.error e, s)

@[simp] theorem exec_pure (a : α) (s : σ) : exec (pure a : Program ε σ α) s = (.ok a, s) := rfl

@[simp] theorem exec_throw (e : ε) (s : σ) :
    exec (throw e : Program ε σ α) s = (.error e, s) := rfl

@[simp] theorem exec_ask (f : σ → Except ε α) (s : σ) : exec (ask f) s = (f s, s) := rfl

theorem exec_bind (m : Program ε σ α) (f : α → Program ε σ β) (s : σ) :
    exec (m >>= f) s = match exec m s with
      | (.ok a, s') => exec (f a) s'
      | (.error e, s') => (.error e, s') := by
  have hbind : exec (m >>= f) s = ExceptT.bindCont f (exec m s).1 (exec m s).2 := rfl
  rw [hbind]
  cases exec m s with
  | mk out s' =>
    cases out with
    | ok a => rfl
    | error e => rfl

theorem exec_bind_ok {m : Program ε σ α} {f : α → Program ε σ β} {s : σ} {b : β}
    (h : (exec (m >>= f) s).1 = .ok b) :
    ∃ a s', exec m s = (.ok a, s') ∧ exec (m >>= f) s = exec (f a) s' := by
  rw [exec_bind] at h ⊢
  cases hrun : exec m s with
  | mk out s' =>
    cases out with
    | ok a => exact ⟨a, s', rfl, rfl⟩
    | error e =>
      rw [hrun] at h
      cases h

theorem exec_update (f : σ → Except ε σ) (s : σ) :
    exec (update f) s = match f s with
      | .ok s' => (.ok (), s')
      | .error e => (.error e, s) := rfl

/-- Every run from `I` ends in `I`, and throws only what `Q` allows. -/
def Keeps (I : σ → Prop) (Q : ε → Prop) (m : Program ε σ α) : Prop :=
  ∀ s, I s → I (exec m s).2 ∧ ∀ e, (exec m s).1 = .error e → Q e

section Keeps
variable {I : σ → Prop} {Q : ε → Prop}

theorem keeps_pure (a : α) : Keeps I Q (pure a : Program ε σ α) := by
  intro s hs
  refine ⟨hs, ?_⟩
  intro e he
  cases he

theorem keeps_throw {e : ε} (he : Q e) : Keeps I Q (throw e : Program ε σ α) := by
  intro s hs
  refine ⟨hs, ?_⟩
  intro e' he'
  cases he'
  exact he

theorem keeps_ask {f : σ → Except ε α} (hf : ∀ s e, f s = .error e → Q e) :
    Keeps I Q (ask f) := fun s hs => ⟨hs, fun e he => hf s e he⟩

theorem keeps_update {f : σ → Except ε σ} (hI : ∀ s s', I s → f s = .ok s' → I s')
    (hf : ∀ s e, f s = .error e → Q e) : Keeps I Q (update f) := by
  intro s hs
  rw [exec_update]
  cases hfs : f s with
  | ok s' =>
    refine ⟨hI s s' hs hfs, ?_⟩
    intro e he
    cases he
  | error e =>
    refine ⟨hs, ?_⟩
    intro e' he'
    cases he'
    exact hf s e hfs

theorem keeps_bind {m : Program ε σ α} {f : α → Program ε σ β} (hm : Keeps I Q m)
    (hf : ∀ a, Keeps I Q (f a)) : Keeps I Q (m >>= f) := by
  intro s hs
  have hstart := hm s hs
  rw [exec_bind]
  obtain ⟨hI, hQ⟩ := hstart
  cases hrun : exec m s with
  | mk out s' =>
    rw [hrun] at hI hQ
    cases out with
    | ok a => exact hf a s' hI
    | error e =>
      refine ⟨hI, ?_⟩
      intro e' he'
      cases he'
      exact hQ e rfl

theorem exec_bind_keeps {m : Program ε σ α} {f : α → Program ε σ β} {s : σ}
    (hm : I (exec m s).2) (hf : ∀ a, Keeps I Q (f a)) : I (exec (m >>= f) s).2 := by
  rw [exec_bind]
  cases hrun : exec m s with
  | mk out s' =>
    rw [hrun] at hm
    cases out with
    | ok a => exact (hf a s' hm).1
    | error e => exact hm

/-- What was read still holds when the rest begins. -/
theorem keeps_ask_bind {f : σ → Except ε α} {g : α → Program ε σ β}
    (hf : ∀ s e, f s = .error e → Q e)
    (hg : ∀ s a, I s → f s = .ok a →
      I (exec (g a) s).2 ∧ ∀ e, (exec (g a) s).1 = .error e → Q e) :
    Keeps I Q (ask f >>= g) := by
  intro s hs
  rw [exec_bind, exec_ask]
  cases hfs : f s with
  | ok a => exact hg s a hs hfs
  | error e =>
    refine ⟨hs, ?_⟩
    intro e' he'
    cases he'
    exact hf s e hfs

theorem keeps_forM {f : α → Program ε σ PUnit} {l : List α} (hf : ∀ a ∈ l, Keeps I Q (f a)) :
    Keeps I Q (l.forM f) := by
  induction l with
  | nil => exact keeps_pure _
  | cons a l ih =>
    refine keeps_bind (hf a (by simp)) fun _ => ?_
    exact ih fun b hb => hf b (List.mem_cons_of_mem a hb)

end Keeps

end Archipel.Stateful
