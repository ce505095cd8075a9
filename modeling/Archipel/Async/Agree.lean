import Archipel.Async.Nested

/-!
# Functions that agree

Two functions agree from related fields when they read, write related fields,
make the same calls and end in the same way. A function that agrees with itself
under a relation that forgets a part of the fields does not look at that part.
-/

namespace Archipel.Async

variable {A : Api} {σ ε α β W : Type} {ρ : σ → σ → Prop}

def Agree (ρ : σ → σ → Prop) : Async A σ ε α → Async A σ ε α → Prop
  | .done a, n => n = .done a
  | .fail e, n => n = .fail e
  | .read k, n => ∃ k', n = .read k' ∧ ∀ s s', ρ s s' → Agree ρ (k s) (k' s')
  | .write s k, n => ∃ s' k', n = .write s' k' ∧ ρ s s' ∧ Agree ρ k k'
  | .await c k, n => ∃ k', n = .await c k' ∧ ∀ r, Agree ρ (k r) (k' r)

theorem agree_bind {m n : Async A σ ε α} {f g : α → Async A σ ε β} (hm : Agree ρ m n)
    (hf : ∀ a, Agree ρ (f a) (g a)) : Agree ρ (m >>= f) (n >>= g) := by
  induction m generalizing n with
  | done a =>
    rw [show n = .done a from hm]
    exact hf a
  | fail e =>
    rw [show n = .fail e from hm]
    exact rfl
  | read k ih =>
    obtain ⟨k', rfl, hk⟩ := hm
    exact ⟨_, rfl, fun s s' hs => ih s (hk s s' hs)⟩
  | write s k ih =>
    obtain ⟨s', k', rfl, hs, hk⟩ := hm
    exact ⟨s', _, rfl, hs, ih hk⟩
  | await c k ih =>
    obtain ⟨k', rfl, hk⟩ := hm
    exact ⟨_, rfl, fun r => ih r (hk r)⟩

theorem agree_attempt {m n : Async A σ ε α} (hm : Agree ρ m n) :
    Agree ρ m.attempt n.attempt := by
  induction m generalizing n with
  | done a =>
    rw [show n = .done a from hm]
    exact rfl
  | fail e =>
    rw [show n = .fail e from hm]
    exact rfl
  | read k ih =>
    obtain ⟨k', rfl, hk⟩ := hm
    exact ⟨_, rfl, fun s s' hs => ih s (hk s s' hs)⟩
  | write s k ih =>
    obtain ⟨s', k', rfl, hs, hk⟩ := hm
    exact ⟨s', _, rfl, hs, ih hk⟩
  | await c k ih =>
    obtain ⟨k', rfl, hk⟩ := hm
    exact ⟨_, rfl, fun r => ih r (hk r)⟩

theorem agree_tryCatch {m n : Async A σ ε α} {h h' : ε → Async A σ ε α} (hm : Agree ρ m n)
    (hh : ∀ e, Agree ρ (h e) (h' e)) : Agree ρ (tryCatch m h) (tryCatch n h') :=
  agree_bind (agree_attempt hm) fun out => by
    cases out with
    | ok a => exact rfl
    | error e => exact hh e

theorem agree_pure (a : α) : Agree ρ (pure a : Async A σ ε α) (pure a) := rfl

theorem agree_call (c : A.Call) : Agree ρ (call c : Async A σ ε (A.Ret c)) (call c) :=
  ⟨_, rfl, fun r => by cases r <;> exact rfl⟩

theorem agree_get_bind {f g : σ → Async A σ ε α} (h : ∀ s s', ρ s s' → Agree ρ (f s) (g s')) :
    Agree ρ (get >>= f) (get >>= g) := ⟨_, rfl, h⟩

theorem agree_modify {f : σ → σ} (h : ∀ s s', ρ s s' → ρ (f s) (f s')) :
    Agree ρ (modify f : Async A σ ε Unit) (modify f) :=
  ⟨_, rfl, fun s s' hs => ⟨_, _, rfl, h s s' hs, rfl⟩⟩

theorem agree_turn {m n : Async A σ ε α} (hm : Agree ρ m n) {s s' : σ} (hs : ρ s s') :
    Agree ρ (m.turn s).1 (n.turn s').1 := by
  induction m generalizing n s s' with
  | done a =>
    rw [show n = .done a from hm]
    exact rfl
  | fail e =>
    rw [show n = .fail e from hm]
    exact rfl
  | read k ih =>
    obtain ⟨k', rfl, hk⟩ := hm
    exact ih s (hk s s' hs) hs
  | write t k ih =>
    obtain ⟨t', k', rfl, ht, hk⟩ := hm
    exact ih hk ht
  | await c k ih =>
    obtain ⟨k', rfl, hk⟩ := hm
    exact ⟨k', rfl, hk⟩

theorem agree_step {E : Env A ε W} {m m' : Async A σ ε α} {x y : σ × W} (hrefl : ∀ s, ρ s s)
    (hm : Agree ρ m m) (h : Step E m x m' y) : Agree ρ m' m' := by
  cases h with
  | serve hr =>
    obtain ⟨k', heq, hk⟩ := hm
    cases heq
    exact hk _
  | turn hs => exact agree_turn hm (hrefl _)

end Archipel.Async
