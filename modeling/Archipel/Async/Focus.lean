import Archipel.Async.Wp

/-!
# The method of a field

An object may hold another object in one of its fields and call its methods. The
method of the field runs on the fields of the outer object and writes only that
field.
-/

namespace Archipel.Async

variable {A : Api} {σ τ ε α W : Type}

/-- How a field is read and written. -/
structure Field (τ σ : Type) where
  get : τ → σ
  set : σ → τ → τ
  get_set : ∀ s t, get (set s t) = s
  set_set : ∀ s s' t, set s' (set s t) = set s' t
  set_get : ∀ t, set (get t) t = t

def focus (field : Field τ σ) : Async A σ ε α → Async A τ ε α
  | .done a => .done a
  | .fail e => .fail e
  | .read k => .read fun t => focus field (k (field.get t))
  | .write s k => .read fun t => .write (field.set s t) (focus field k)
  | .await c k => .await c fun r => focus field (k r)

/-- What a method promises of its own fields holds of the field it runs on. -/
theorem wp_focus {E : Env A ε W} (field : Field τ σ) {m : Async A σ ε α}
    {Q : Except ε α → τ × W → Prop} (x : τ × W)
    (h : wp (demonic E) free m (fun out y => Q out (field.set y.1 x.1, y.2))
      (field.get x.1, x.2)) : wp (demonic E) free (focus field m) Q x := by
  obtain ⟨t, w⟩ := x
  induction m generalizing t w with
  | done a =>
    have hdone : Q (.ok a) (field.set (field.get t) t, w) := h
    rw [field.set_get] at hdone
    exact hdone
  | fail e =>
    have hfail : Q (.error e) (field.set (field.get t) t, w) := h
    rw [field.set_get] at hfail
    exact hfail
  | read k ih => exact ih (field.get t) t w h
  | write s k ih =>
    refine ⟨trivial, ih (field.set s t) w ?_⟩
    simp only [field.get_set, field.set_set]
    exact h.2
  | await c k ih => exact fun r w' hr => ih r t w' (h r w' hr)

end Archipel.Async
