import Mathlib.Data.List.Forall2
import Archipel.Async.Log

/-!
# Runs that end without an exception

A run of a sequence that ends well is a run of each of its parts that ends well,
one after the other, and a run of a loop over a list is one run for each element;
the first rules take such a run apart. `Delivers` says that every run ends well,
with its own rules for the same constructs.
-/

namespace Archipel.Async

variable {A : Api} {σ ε α β W : Type} {E : Env A ε W}

theorem runs_pure {a b : α} {x y : σ × W}
    (h : Runs E (pure a : Async A σ ε α) x (.ok b) y) : b = a ∧ y = x := by
  obtain ⟨hout, hy⟩ := h
  cases hout
  exact ⟨rfl, hy⟩

theorem runs_throw {e : ε} {b : α} {x y : σ × W} :
    ¬ Runs E (throw e : Async A σ ε α) x (.ok b) y := by
  intro h
  obtain ⟨hout, -⟩ := h
  cases hout

/-- Synchronous code that may throw. -/
theorem runs_ofExcept {m : Except ε α} {a : α} {x y : σ × W}
    (h : Runs E (MonadExcept.ofExcept m : Async A σ ε α) x (.ok a) y) : m = .ok a ∧ y = x := by
  cases m with
  | ok b =>
    obtain ⟨hout, hy⟩ := h
    cases hout
    exact ⟨rfl, hy⟩
  | error e =>
    obtain ⟨hout, -⟩ := h
    cases hout

theorem runs_bind {m : Async A σ ε α} {f : α → Async A σ ε β} {b : β} {x y : σ × W}
    (h : Runs E (m >>= f) x (.ok b) y) :
    ∃ a z, Runs E m x (.ok a) z ∧ Runs E (f a) z (.ok b) y := by
  induction m generalizing x with
  | done a => exact ⟨a, x, ⟨rfl, rfl⟩, h⟩
  | fail e =>
    obtain ⟨hout, -⟩ := h
    cases hout
  | read k ih => exact ih x.1 h
  | write s k ih => exact ih h
  | await c k ih =>
    obtain ⟨r, w, hr, hk⟩ := h
    obtain ⟨a, z, hm, hf⟩ := ih r hk
    exact ⟨a, z, ⟨r, w, hr, hm⟩, hf⟩

theorem runs_call {c : A.Call} {a : A.Ret c} {x y : σ × W}
    (h : Runs E (call c : Async A σ ε (A.Ret c)) x (.ok a) y) :
    E c x.2 (.ok a) y.2 ∧ y.1 = x.1 := by
  obtain ⟨r, w, hr, hk⟩ := h
  cases r with
  | ok b =>
    obtain ⟨hout, rfl⟩ := hk
    cases hout
    exact ⟨hr, rfl⟩
  | error e =>
    obtain ⟨hout, -⟩ := hk
    cases hout

/-- The loop rule: `R` relates the elements, their results and the two ends of
the run, as soon as it does so for no element and for one more. -/
theorem runs_mapM {f : α → Async A σ ε β} {R : List α → List β → σ × W → σ × W → Prop}
    (hnil : ∀ x, R [] [] x x)
    (hcons : ∀ a b l bs x z y, Runs E (f a) x (.ok b) z → R l bs z y → R (a :: l) (b :: bs) x y)
    {l : List α} {bs : List β} {x y : σ × W} (h : Runs E (l.mapM f) x (.ok bs) y) :
    R l bs x y := by
  induction l generalizing bs x with
  | nil =>
    rw [List.mapM_nil] at h
    obtain ⟨rfl, rfl⟩ := runs_pure h
    exact hnil y
  | cons a l ih =>
    rw [List.mapM_cons] at h
    obtain ⟨b, z, hb, hrest⟩ := runs_bind h
    obtain ⟨bs', z', hbs, hlast⟩ := runs_bind hrest
    obtain ⟨rfl, rfl⟩ := runs_pure hlast
    exact hcons a b l bs' x z y hb (ih hbs)

theorem onlyCalls_ofExcept {p : A.Call → Prop} (m : Except ε α) :
    OnlyCalls p (MonadExcept.ofExcept m : Async A σ ε α) := by
  cases m with
  | ok a => trivial
  | error e => trivial

theorem onlyCalls_mapM {p : A.Call → Prop} {f : α → Async A σ ε β}
    (hf : ∀ a, OnlyCalls p (f a)) (l : List α) : OnlyCalls p (l.mapM f) := by
  induction l with
  | nil => exact trivial
  | cons a l ih =>
    rw [List.mapM_cons]
    refine onlyCalls_bind (hf a) fun b => ?_
    exact onlyCalls_bind ih fun bs => trivial

theorem onlyCalls_forM {p : A.Call → Prop} {f : α → Async A σ ε PUnit}
    (hf : ∀ a, OnlyCalls p (f a)) (l : List α) : OnlyCalls p (l.forM f) := by
  induction l with
  | nil => exact trivial
  | cons a l ih => exact onlyCalls_bind (hf a) fun _ => ih

theorem runs_logs {p : A.Call → Prop} {m : Async A σ ε α} (hp : OnlyCalls p m)
    {x y : σ × (W × List (Event A ε W))} {out : Except ε α} (h : Runs (logged E) m x out y) :
    Logs (fun event => p event.call) x.2 y.2 := by
  induction m generalizing x with
  | done a =>
    obtain ⟨-, rfl⟩ := h
    exact logs_refl y.2
  | fail e =>
    obtain ⟨-, rfl⟩ := h
    exact logs_refl y.2
  | read k ih => exact ih x.1 (hp x.1) h
  | write s k ih =>
    show Logs _ (s, x.2).2 y.2
    exact ih hp h
  | await c k ih =>
    obtain ⟨r, w, hr, hk⟩ := h
    exact logs_trans (logged_logs hr hp.1) (ih r (hp.2 r) hk)

/-! ### Every run ends well -/

/-- A run only adds to the log. -/
theorem runs_prefix {m : Async A σ ε α} {x y : σ × (W × List (Event A ε W))} {out : Except ε α}
    (h : Runs (logged E) m x out y) : x.2.2 <+: y.2.2 := by
  obtain ⟨made, hmade, -⟩ := runs_logs (onlyCalls_true m) h
  exact ⟨made, hmade.symm⟩

theorem runs_mono {E' : Env A ε W} (hE : ∀ c w r w', E c w r w' → E' c w r w')
    {m : Async A σ ε α} {x y : σ × W} {out : Except ε α} (h : Runs E m x out y) :
    Runs E' m x out y := by
  induction m generalizing x with
  | done a => exact h
  | fail e => exact h
  | read k ih => exact ih x.1 h
  | write s k ih => exact ih (x := (s, x.2)) h
  | await c k ih =>
    obtain ⟨r, w, hr, hk⟩ := h
    exact ⟨r, w, hE c x.2 r w hr, ih r hk⟩

/-- From every state every run ends without an exception, with a result in `Q`. -/
def Delivers (E : Env A ε W) (m : Async A σ ε α) (Q : α → Prop) : Prop :=
  ∀ x, wp (demonic E) free m (fun out _ => ∃ a, out = .ok a ∧ Q a) x

section Delivers
variable {Q : α → Prop}

theorem delivers_mono {m : Async A σ ε α} {R : α → Prop} (hm : Delivers E m Q)
    (hQR : ∀ a, Q a → R a) : Delivers E m R := by
  intro x
  refine wp_mono (demonic_mono E) m ?_ x (hm x)
  intro out y hout
  obtain ⟨a, ha, hQ⟩ := hout
  exact ⟨a, ha, hQR a hQ⟩

theorem delivers_pure {a : α} (ha : Q a) : Delivers E (pure a : Async A σ ε α) Q :=
  fun _ => ⟨a, rfl, ha⟩

theorem delivers_call {c : A.Call} {Q : A.Ret c → Prop}
    (h : ∀ w r w', E c w r w' → ∃ a, r = .ok a ∧ Q a) :
    Delivers E (call c : Async A σ ε (A.Ret c)) Q :=
  fun x => (wp_call ..).mpr fun r w hr => h x.2 r w hr

theorem delivers_bind {m : Async A σ ε α} {f : α → Async A σ ε β} {R : β → Prop}
    (hm : Delivers E m Q) (hf : ∀ a, Q a → Delivers E (f a) R) : Delivers E (m >>= f) R := by
  intro x
  refine wp_seq (demonic_mono E) m f x (hm x) ?_ ?_
  · intro a y hy
    obtain ⟨b, hb, hQ⟩ := hy
    cases hb
    exact hf a hQ y
  · intro e y hy
    obtain ⟨b, hb, -⟩ := hy
    cases hb

/-- Synchronous code that does not throw. -/
theorem delivers_ok {m : Except ε α} {a : α} (hm : m = .ok a) {f : α → Async A σ ε β}
    {R : β → Prop} (hf : Delivers E (f a) R) :
    Delivers E ((MonadExcept.ofExcept m : Async A σ ε α) >>= f) R := by
  rw [hm]
  exact hf

theorem delivers_mapM {f : α → Async A σ ε β} {R : α → β → Prop} {l : List α}
    (hf : ∀ a ∈ l, Delivers E (f a) (R a)) : Delivers E (l.mapM f) (List.Forall₂ R l) := by
  induction l with
  | nil => exact delivers_pure .nil
  | cons a l ih =>
    rw [List.mapM_cons]
    refine delivers_bind (hf a (by simp)) fun b hb => ?_
    refine delivers_bind (ih fun c hc => hf c (by simp [hc])) fun bs hbs => ?_
    exact delivers_pure (.cons hb hbs)

theorem delivers_forM {f : α → Async A σ ε PUnit} {l : List α}
    (hf : ∀ a ∈ l, Delivers E (f a) fun _ => True) : Delivers E (l.forM f) fun _ => True := by
  induction l with
  | nil => exact delivers_pure trivial
  | cons a l ih =>
    exact delivers_bind (hf a (by simp)) fun _ _ => ih fun c hc => hf c (by simp [hc])

/-- A function that delivers has a logged run that ends well. -/
theorem delivers_runs {m : Async A σ ε α} (hm : Delivers E m Q) (hE : E.Total) (s : σ)
    (w : W × List (Event A ε W)) :
    ∃ a y, Runs (logged E) m (s, w) (.ok a) y ∧ Q a := by
  have htotal : (logged E).Total := by
    intro c w
    obtain ⟨r, w', hr⟩ := hE c w.1
    exact ⟨r, (w', w.2 ++ [⟨c, r, w'⟩]), hr, rfl⟩
  obtain ⟨out, y, hrun⟩ := runs_exists (logged E) htotal m (s, w)
  have hwp := wp_logged (onlyCalls_true m) s w (hm (s, w.1))
  obtain ⟨⟨a, rfl, ha⟩, -⟩ := wp_runs hwp hrun
  exact ⟨a, y, hrun, ha⟩

end Delivers

end Archipel.Async
