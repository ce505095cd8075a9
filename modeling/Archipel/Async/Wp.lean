import Archipel.Async.Basic

/-!
# Weakest preconditions

One predicate transformer serves runs alone and runs among other functions: the
specification `T` of the calls says what holds after an awaited call, and the
guarantee `G` is charged for every write of the object fields. `demonic E` is
the specification of a run alone; `shielded R G E` lets the environment take
`R` steps before the call is served and before its answer is looked at, and
charges the call's own effect to `G`.
-/

namespace Archipel.Async

variable {A : Api} {σ ε α β W : Type}

/-- What one call guarantees, as a transformer of what is wanted after it. -/
abbrev CallSpec (A : Api) (ε S : Type) :=
  (c : A.Call) → (Except ε (A.Ret c) → S → Prop) → S → Prop

def CallSpec.Mono {S : Type} (T : CallSpec A ε S) : Prop :=
  ∀ c (P Q : Except ε (A.Ret c) → S → Prop), (∀ r y, P r y → Q r y) →
    ∀ x, T c P x → T c Q x

def wp (T : CallSpec A ε (σ × W)) (G : σ × W → σ × W → Prop) :
    Async A σ ε α → (Except ε α → σ × W → Prop) → σ × W → Prop
  | .done a, Q, x => Q (.ok a) x
  | .fail e, Q, x => Q (.error e) x
  | .read k, Q, x => wp T G (k x.1) Q x
  | .write s k, Q, x => G x (s, x.2) ∧ wp T G k Q (s, x.2)
  | .await c k, Q, x => T c (fun r y => wp T G (k r) Q y) x

variable (T : CallSpec A ε (σ × W)) (G : σ × W → σ × W → Prop)

@[simp] theorem wp_done (a : α) (Q : Except ε α → σ × W → Prop) (x : σ × W) :
    wp T G (.done a) Q x ↔ Q (.ok a) x := Iff.rfl

@[simp] theorem wp_pure (a : α) (Q : Except ε α → σ × W → Prop) (x : σ × W) :
    wp T G (pure a) Q x ↔ Q (.ok a) x := Iff.rfl

@[simp] theorem wp_fail (e : ε) (Q : Except ε α → σ × W → Prop) (x : σ × W) :
    wp T G (.fail e) Q x ↔ Q (.error e) x := Iff.rfl

theorem wp_get_bind (f : σ → Async A σ ε α) (Q : Except ε α → σ × W → Prop) (x : σ × W) :
    wp T G (get >>= f) Q x ↔ wp T G (f x.1) Q x := Iff.rfl

theorem wp_modify_bind (g : σ → σ) (f : Unit → Async A σ ε α)
    (Q : Except ε α → σ × W → Prop) (x : σ × W) :
    wp T G (modify g >>= f) Q x ↔
      G x (g x.1, x.2) ∧ wp T G (f ()) Q (g x.1, x.2) := Iff.rfl

theorem wp_bind (m : Async A σ ε α) (f : α → Async A σ ε β)
    (Q : Except ε β → σ × W → Prop) (x : σ × W) :
    wp T G (m >>= f) Q x ↔
      wp T G m (fun out y => match out with
        | .ok a => wp T G (f a) Q y
        | .error e => Q (.error e) y) x := by
  induction m generalizing x with
  | done a => exact Iff.rfl
  | fail e => exact Iff.rfl
  | read k ih => exact ih x.1 x
  | write s k ih => exact and_congr_right fun _ => ih (s, x.2)
  | await c k ih =>
    have hk : (fun r y => wp T G (k r >>= f) Q y) =
        fun r y => wp T G (k r) (fun out z => match out with
          | .ok a => wp T G (f a) Q z
          | .error e => Q (.error e) z) y := by
      funext r y
      exact propext (ih r y)
    show T c (fun r y => wp T G (k r >>= f) Q y) x ↔ _
    rw [hk]
    exact Iff.rfl

theorem wp_attempt (m : Async A σ ε α) (Q : Except ε (Except ε α) → σ × W → Prop)
    (x : σ × W) :
    wp T G m.attempt Q x ↔ wp T G m (fun out y => Q (.ok out) y) x := by
  induction m generalizing x with
  | done a => exact Iff.rfl
  | fail e => exact Iff.rfl
  | read k ih => exact ih x.1 x
  | write s k ih => exact and_congr_right fun _ => ih (s, x.2)
  | await c k ih =>
    have hk : (fun r y => wp T G (k r).attempt Q y) =
        fun r y => wp T G (k r) (fun out z => Q (.ok out) z) y := by
      funext r y
      exact propext (ih r y)
    show T c (fun r y => wp T G (k r).attempt Q y) x ↔ _
    rw [hk]
    exact Iff.rfl

theorem wp_tryCatch (m : Async A σ ε α) (h : ε → Async A σ ε α)
    (Q : Except ε α → σ × W → Prop) (x : σ × W) :
    wp T G (tryCatch m h) Q x ↔
      wp T G m (fun out y => match out with
        | .ok a => Q (.ok a) y
        | .error e => wp T G (h e) Q y) x := by
  show wp T G (m.attempt >>= _) Q x ↔ _
  rw [wp_bind, wp_attempt]
  have hQ : (fun (out : Except ε α) (y : σ × W) => wp T G (match out with
      | .ok a => .done a
      | .error e => h e) Q y) = fun out y => match out with
      | .ok a => Q (.ok a) y
      | .error e => wp T G (h e) Q y := by
    funext out y
    cases out <;> rfl
  exact iff_of_eq (congrArg (fun Q => wp T G m Q x) hQ)

theorem wp_call (c : A.Call) (Q : Except ε (A.Ret c) → σ × W → Prop) (x : σ × W) :
    wp T G (call c) Q x ↔ T c Q x := by
  have hQ : ∀ k : Except ε (A.Ret c) → Async A σ ε (A.Ret c), (∀ a, k (.ok a) = .done a) →
      (∀ e, k (.error e) = .fail e) → (fun r y => wp T G (k r) Q y) = Q := by
    intro k hok herr
    funext r y
    cases r with
    | ok a => rw [hok, wp_done]
    | error e => rw [herr, wp_fail]
  unfold call
  simp only [wp]
  rw [hQ _ (fun _ => rfl) (fun _ => rfl)]

variable {T G}

theorem wp_mono (hT : T.Mono) (m : Async A σ ε α) {P Q : Except ε α → σ × W → Prop}
    (hPQ : ∀ out y, P out y → Q out y) (x : σ × W) (h : wp T G m P x) : wp T G m Q x := by
  induction m generalizing x with
  | done a => exact hPQ _ _ h
  | fail e => exact hPQ _ _ h
  | read k ih => exact ih x.1 x h
  | write s k ih => exact ⟨h.1, ih (s, x.2) h.2⟩
  | await c k ih => exact hT c _ _ (fun r y => ih r y) x h

theorem wp_seq (hT : T.Mono) (m : Async A σ ε α) (f : α → Async A σ ε β)
    {P : Except ε α → σ × W → Prop} {Q : Except ε β → σ × W → Prop} (x : σ × W)
    (hm : wp T G m P x) (hok : ∀ a y, P (.ok a) y → wp T G (f a) Q y)
    (herr : ∀ e y, P (.error e) y → Q (.error e) y) : wp T G (m >>= f) Q x := by
  rw [wp_bind]
  refine wp_mono hT m ?_ x hm
  intro out y hP
  cases out with
  | ok a => exact hok a y hP
  | error e => exact herr e y hP

theorem wp_try (hT : T.Mono) (m : Async A σ ε α) (h : ε → Async A σ ε α)
    {P Q : Except ε α → σ × W → Prop} (x : σ × W) (hm : wp T G m P x)
    (hok : ∀ a y, P (.ok a) y → Q (.ok a) y)
    (herr : ∀ e y, P (.error e) y → wp T G (h e) Q y) : wp T G (tryCatch m h) Q x := by
  rw [wp_tryCatch]
  refine wp_mono hT m ?_ x hm
  intro out y hP
  cases out with
  | ok a => exact hok a y hP
  | error e => exact herr e y hP

/-! ### Functions that make only some calls -/

/-- Every call of `m`, on every path, satisfies `p`. -/
def OnlyCalls (p : A.Call → Prop) : Async A σ ε α → Prop
  | .done _ => True
  | .fail _ => True
  | .read k => ∀ s, OnlyCalls p (k s)
  | .write _ k => OnlyCalls p k
  | .await c k => p c ∧ ∀ r, OnlyCalls p (k r)

variable {p : A.Call → Prop}

theorem onlyCalls_bind {m : Async A σ ε α} {f : α → Async A σ ε β}
    (hm : OnlyCalls p m) (hf : ∀ a, OnlyCalls p (f a)) : OnlyCalls p (m >>= f) := by
  induction m with
  | done a => exact hf a
  | fail e => trivial
  | read k ih => exact fun s => ih s (hm s)
  | write s k ih => exact ih hm
  | await c k ih => exact ⟨hm.1, fun r => ih r (hm.2 r)⟩

theorem onlyCalls_attempt {m : Async A σ ε α} (hm : OnlyCalls p m) :
    OnlyCalls p m.attempt := by
  induction m with
  | done a => trivial
  | fail e => trivial
  | read k ih => exact fun s => ih s (hm s)
  | write s k ih => exact ih hm
  | await c k ih => exact ⟨hm.1, fun r => ih r (hm.2 r)⟩

theorem onlyCalls_tryCatch {m : Async A σ ε α} {h : ε → Async A σ ε α}
    (hm : OnlyCalls p m) (hh : ∀ e, OnlyCalls p (h e)) : OnlyCalls p (tryCatch m h) :=
  onlyCalls_bind (onlyCalls_attempt hm) fun out => by
    cases out with
    | ok a => trivial
    | error e => exact hh e

theorem onlyCalls_call {c : A.Call} (hc : p c) :
    OnlyCalls p (call c : Async A σ ε (A.Ret c)) :=
  ⟨hc, fun r => by cases r <;> trivial⟩

theorem onlyCalls_get : OnlyCalls p (get : Async A σ ε σ) := fun _ => trivial

theorem onlyCalls_modify (f : σ → σ) : OnlyCalls p (modify f : Async A σ ε Unit) :=
  fun _ => trivial

theorem onlyCalls_true (m : Async A σ ε α) : OnlyCalls (fun _ => True) m := by
  induction m with
  | done a => trivial
  | fail e => trivial
  | read k ih => exact ih
  | write s k ih => exact ih
  | await c k ih => exact ⟨trivial, ih⟩

theorem onlyCalls_mono {q : A.Call → Prop} (hpq : ∀ c, p c → q c) {m : Async A σ ε α}
    (hm : OnlyCalls p m) : OnlyCalls q m := by
  induction m with
  | done a => trivial
  | fail e => trivial
  | read k ih => exact fun s => ih s (hm s)
  | write s k ih => exact ih hm
  | await c k ih => exact ⟨hpq c hm.1, fun r => ih r (hm.2 r)⟩

theorem onlyCalls_and {q r : A.Call → Prop} (hpq : ∀ c, p c → q c → r c) {m : Async A σ ε α}
    (hp : OnlyCalls p m) (hq : OnlyCalls q m) : OnlyCalls r m := by
  induction m with
  | done a => trivial
  | fail e => trivial
  | read k ih => exact fun s => ih s (hp s) (hq s)
  | write s k ih => exact ih hp hq
  | await c k ih => exact ⟨hpq c hp.1 hq.1, fun r => ih r (hp.2 r) (hq.2 r)⟩

/-- An invariant that the writes and the admitted calls keep is kept by every
function that makes only admitted calls. -/
theorem wp_invariant (hT : T.Mono) {I : σ × W → Prop}
    (hwrite : ∀ x s, I x → G x (s, x.2) ∧ I (s, x.2))
    (hcall : ∀ c, p c → ∀ x, I x → T c (fun _ y => I y) x)
    {m : Async A σ ε α} (hm : OnlyCalls p m) (x : σ × W) (hx : I x) :
    wp T G m (fun _ y => I y) x := by
  induction m generalizing x with
  | done a => exact hx
  | fail e => exact hx
  | read k ih => exact ih x.1 (hm x.1) x hx
  | write s k ih => exact ⟨(hwrite x s hx).1, ih hm (s, x.2) (hwrite x s hx).2⟩
  | await c k ih => exact hT c _ _ (fun r y hy => ih r (hm.2 r) y hy) x (hcall c hm.1 x hx)

/-! ### Functions that maintain a fact about the fields -/

/-- Every write of `m` leaves fields that satisfy `I`, if those it read did. -/
def Maintains (I : σ → Prop) : Async A σ ε α → Prop
  | .done _ => True
  | .fail _ => True
  | .read k => ∀ s, I s → Maintains I (k s)
  | .write s k => I s ∧ Maintains I k
  | .await _ k => ∀ r, Maintains I (k r)

section Maintains
variable {I : σ → Prop}

theorem maintains_bind {m : Async A σ ε α} {f : α → Async A σ ε β} (hm : Maintains I m)
    (hf : ∀ a, Maintains I (f a)) : Maintains I (m >>= f) := by
  induction m with
  | done a => exact hf a
  | fail e => trivial
  | read k ih => exact fun s hs => ih s (hm s hs)
  | write s k ih => exact ⟨hm.1, ih hm.2⟩
  | await c k ih => exact fun r => ih r (hm r)

theorem maintains_get_bind {f : σ → Async A σ ε α} (hf : ∀ s, I s → Maintains I (f s)) :
    Maintains I (get >>= f) := hf

theorem maintains_attempt {m : Async A σ ε α} (hm : Maintains I m) : Maintains I m.attempt := by
  induction m with
  | done a => trivial
  | fail e => trivial
  | read k ih => exact fun s hs => ih s (hm s hs)
  | write s k ih => exact ⟨hm.1, ih hm.2⟩
  | await c k ih => exact fun r => ih r (hm r)

theorem maintains_tryCatch {m : Async A σ ε α} {h : ε → Async A σ ε α} (hm : Maintains I m)
    (hh : ∀ e, Maintains I (h e)) : Maintains I (tryCatch m h) :=
  maintains_bind (maintains_attempt hm) fun out => by
    cases out with
    | ok a => trivial
    | error e => exact hh e

theorem maintains_call (c : A.Call) : Maintains I (call c : Async A σ ε (A.Ret c)) :=
  fun r => by cases r <;> trivial

theorem maintains_modify {f : σ → σ} (hf : ∀ s, I s → I (f s)) :
    Maintains I (modify f : Async A σ ε Unit) := fun s hs => ⟨hf s hs, trivial⟩

end Maintains

/-! ### Functions that never throw -/

def Returns : Async A σ ε α → Prop
  | .done _ => True
  | .fail _ => False
  | .read k => ∀ s, Returns (k s)
  | .write _ k => Returns k
  | .await _ k => ∀ r, Returns (k r)

theorem returns_bind {m : Async A σ ε α} {f : α → Async A σ ε β} (hm : Returns m)
    (hf : ∀ a, Returns (f a)) : Returns (m >>= f) := by
  induction m with
  | done a => exact hf a
  | fail e => exact hm.elim
  | read k ih => exact fun s => ih s (hm s)
  | write s k ih => exact ih hm
  | await c k ih => exact fun r => ih r (hm r)

theorem returns_attempt (m : Async A σ ε α) : Returns m.attempt := by
  induction m with
  | done a => trivial
  | fail e => trivial
  | read k ih => exact ih
  | write s k ih => exact ih
  | await c k ih => exact ih

theorem returns_tryCatch (m : Async A σ ε α) {h : ε → Async A σ ε α} (hh : ∀ e, Returns (h e)) :
    Returns (tryCatch m h) :=
  returns_bind (returns_attempt m) fun out => by
    cases out with
    | ok a => trivial
    | error e => exact hh e

theorem wp_returns (hT : T.Mono) {m : Async A σ ε α} (hm : Returns m)
    {Q : Except ε α → σ × W → Prop} (x : σ × W) (h : wp T G m Q x) :
    wp T G m (fun out y => (∃ a, out = .ok a) ∧ Q out y) x := by
  induction m generalizing x with
  | done a => exact ⟨⟨a, rfl⟩, h⟩
  | fail e => exact hm.elim
  | read k ih => exact ih x.1 (hm x.1) x h
  | write s k ih => exact ⟨h.1, ih hm (s, x.2) h.2⟩
  | await c k ih => exact hT c _ _ (fun r y => ih r (hm r) y) x h

theorem wp_seq_returns (hT : T.Mono) {m : Async A σ ε α} (f : α → Async A σ ε β)
    {P : σ × W → Prop} {Q : Except ε β → σ × W → Prop} (x : σ × W) (hr : Returns m)
    (hm : wp T G m (fun _ y => P y) x) (hok : ∀ a y, P y → wp T G (f a) Q y) :
    wp T G (m >>= f) Q x := by
  refine wp_seq hT m f x (wp_returns hT hr x hm) (fun a y hy => hok a y hy.2) ?_
  intro e y hy
  obtain ⟨⟨a, ha⟩, -⟩ := hy
  cases ha

/-! ### Runs alone -/

def demonic (E : Env A ε W) : CallSpec A ε (σ × W) :=
  fun c Q x => ∀ r w, E c x.2 r w → Q r (x.1, w)

abbrev free : σ × W → σ × W → Prop := fun _ _ => True

theorem demonic_mono (E : Env A ε W) : (demonic (σ := σ) E).Mono :=
  fun _ _ _ hPQ _ h r w hr => hPQ r _ (h r w hr)

/-- The rule of a run alone: what the weakest precondition promises holds at
the end of every run. -/
theorem wp_runs {E : Env A ε W} {m : Async A σ ε α} {Q : Except ε α → σ × W → Prop}
    {x : σ × W} {out : Except ε α} {y : σ × W} (h : wp (demonic E) free m Q x)
    (hr : Runs E m x out y) : Q out y := by
  induction m generalizing x with
  | done a =>
    obtain ⟨rfl, rfl⟩ := hr
    exact h
  | fail e =>
    obtain ⟨rfl, rfl⟩ := hr
    exact h
  | read k ih => exact ih x.1 h hr
  | write s k ih => exact ih h.2 hr
  | await c k ih =>
    obtain ⟨r, w, hc, hk⟩ := hr
    exact ih r (h r w hc) hk

/-- What holds at the end of every run under `E` holds under an environment that
gives the calls of the function no other answers. -/
theorem wp_answers {E E' : Env A ε W} {m : Async A σ ε α} {Q : Except ε α → σ × W → Prop}
    (hm : OnlyCalls p m) (hE : ∀ c, p c → ∀ w r w', E' c w r w' → E c w r w') {x : σ × W}
    (h : wp (demonic E) free m Q x) : wp (demonic E') free m Q x := by
  induction m generalizing x with
  | done a => exact h
  | fail e => exact h
  | read k ih => exact ih x.1 (hm x.1) h
  | write s k ih => exact ⟨trivial, ih hm h.2⟩
  | await c k ih => exact fun r w hr => ih r (hm.2 r) (h r w (hE c hm.1 x.2 r w hr))

theorem wp_and {E : Env A ε W} {m : Async A σ ε α} {P Q : Except ε α → σ × W → Prop} {x : σ × W}
    (hP : wp (demonic E) free m P x) (hQ : wp (demonic E) free m Q x) :
    wp (demonic E) free m (fun out y => P out y ∧ Q out y) x := by
  induction m generalizing x with
  | done a => exact ⟨hP, hQ⟩
  | fail e => exact ⟨hP, hQ⟩
  | read k ih => exact ih x.1 hP hQ
  | write s k ih => exact ⟨trivial, ih hP.2 hQ.2⟩
  | await c k ih => exact fun r w hr => ih r (hP r w hr) (hQ r w hr)

/-- The specification of a call in some run instead of all runs. -/
def angelic (E : Env A ε W) : CallSpec A ε (σ × W) :=
  fun c Q x => ∃ r w, E c x.2 r w ∧ Q r (x.1, w)

theorem angelic_mono (E : Env A ε W) : (angelic (σ := σ) E).Mono := by
  intro c P Q hPQ x ⟨r, w, hr, hP⟩
  exact ⟨r, w, hr, hPQ r _ hP⟩

theorem angelic_runs {E : Env A ε W} {m : Async A σ ε α} {Q : Except ε α → σ × W → Prop}
    {x : σ × W} (h : wp (angelic E) free m Q x) : ∃ out y, Runs E m x out y ∧ Q out y := by
  induction m generalizing x with
  | done a => exact ⟨.ok a, x, ⟨rfl, rfl⟩, h⟩
  | fail e => exact ⟨.error e, x, ⟨rfl, rfl⟩, h⟩
  | read k ih => exact ih x.1 h
  | write s k ih => exact ih h.2
  | await c k ih =>
    obtain ⟨r, w, hc, hk⟩ := h
    obtain ⟨out, y, hy, hQ⟩ := ih r hk
    exact ⟨out, y, ⟨r, w, hc, hy⟩, hQ⟩

theorem wp_maintains {E : Env A ε W} {I : σ → Prop} {m : Async A σ ε α} (hm : Maintains I m)
    (x : σ × W) (hx : I x.1) : wp (demonic E) free m (fun _ y => I y.1) x := by
  induction m generalizing x with
  | done a => exact hx
  | fail e => exact hx
  | read k ih => exact ih x.1 (hm x.1 hx) x hx
  | write s k ih => exact ⟨trivial, ih hm.2 (s, x.2) hm.1⟩
  | await c k ih => exact fun r w _ => ih r (hm r) (x.1, w) hx

end Archipel.Async
