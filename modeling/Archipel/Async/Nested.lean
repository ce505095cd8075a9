import Archipel.Async.Shared

/-!
# Functions that await functions of another object

Some calls of a function are functions over another interface, with fields of
their own. While such a call is awaited its function moves, and whatever shares
its object may move at each of its awaits. The rule is the rule of
`Async.Shared` carried through the call: the function inside is proved against
`shielded R G F`, and what it ends in is what the caller goes on from.
-/

namespace Archipel.Async

variable {A B : Api} {σ τ ε α β W : Type}

abbrev Linkage (A B : Api) (τ ε : Type) := (c : A.Call) → Option (Async B τ ε (A.Ret c))

abbrev Answered (A : Api) (ε : Type) := (c : A.Call) → Except ε (A.Ret c) → Prop

/-- A function over `A` in flight: in its own code, or waiting for the function
over `B` that a call of it is. -/
inductive Nested (A B : Api) (σ τ ε α : Type) : Type
  | own (m : Async A σ ε α)
  | inside (c : A.Call) (m : Async B τ ε (A.Ret c)) (k : Except ε (A.Ret c) → Async A σ ε α)

namespace Nested

def ended : Nested A B σ τ ε α → Bool
  | .own m => m.ended
  | .inside _ _ _ => false

inductive Step (link : Linkage A B τ ε) (P : Answered A ε) (F : Env B ε W) :
    Nested A B σ τ ε α → σ × τ × W → Nested A B σ τ ε α → σ × τ × W → Prop
  | turn {m : Async A σ ε α} {s : σ} {y : τ × W} (h : m.suspended = false) :
      Step link P F (.own m) (s, y) (.own (m.turn s).1) ((m.turn s).2, y)
  | serve {c : A.Call} {k : Except ε (A.Ret c) → Async A σ ε α} {x : σ × τ × W}
      {r : Except ε (A.Ret c)} (hlink : link c = none) (h : P c r) :
      Step link P F (.own (.await c k)) x (.own (k r)) x
  | enter {c : A.Call} {m : Async B τ ε (A.Ret c)} {k : Except ε (A.Ret c) → Async A σ ε α}
      {x : σ × τ × W} (hlink : link c = some m) :
      Step link P F (.own (.await c k)) x (.inside c m k) x
  | move {c : A.Call} {m m' : Async B τ ε (A.Ret c)} {k : Except ε (A.Ret c) → Async A σ ε α}
      {s : σ} {y y' : τ × W} (h : Async.Step F m y m' y') :
      Step link P F (.inside c m k) (s, y) (.inside c m' k) (s, y')
  | finish {c : A.Call} {a : A.Ret c} {k : Except ε (A.Ret c) → Async A σ ε α} {x : σ × τ × W} :
      Step link P F (.inside c (.done a) k) x (.own (k (.ok a))) x
  | throw {c : A.Call} {e : ε} {k : Except ε (A.Ret c) → Async A σ ε α} {x : σ × τ × W} :
      Step link P F (.inside c (.fail e) k) x (.own (k (.error e))) x

def next (link : Linkage A B τ ε) (D : (c : A.Call) → Except ε (A.Ret c)) (E : Answers B ε W) :
    Nested A B σ τ ε α → σ × τ × W → Nested A B σ τ ε α × σ × τ × W
  | .own (.await c k), x =>
    match link c with
    | some m => (.inside c m k, x)
    | none => (.own (k (D c)), x)
  | .own m, x => (.own (m.turn x.1).1, ((m.turn x.1).2, x.2))
  | .inside _ (.done a) k, x => (.own (k (.ok a)), x)
  | .inside _ (.fail e) k, x => (.own (k (.error e)), x)
  | .inside c (.await d j) k, x =>
    (.inside c (j (E d x.2.2).1) k, (x.1, x.2.1, (E d x.2.2).2))
  | .inside c m k, x => (.inside c (m.turn x.2.1).1 k, (x.1, (m.turn x.2.1).2, x.2.2))

theorem next_step {link : Linkage A B τ ε} {P : Answered A ε} {F : Env B ε W}
    {D : (c : A.Call) → Except ε (A.Ret c)} {E : Answers B ε W} (hD : ∀ c, P c (D c))
    (hE : ∀ c w, F c w (E c w).1 (E c w).2) (f : Nested A B σ τ ε α) (x : σ × τ × W)
    (hf : f.ended = false) : Step link P F f x (next link D E f x).1 (next link D E f x).2 := by
  cases f with
  | own m =>
    cases m with
    | done a | fail e => cases hf
    | read k | write s k => exact .turn rfl
    | await c k =>
      simp only [next]
      cases hlink : link c with
      | none => exact .serve hlink (hD c)
      | some m => exact .enter hlink
  | inside c m k =>
    cases m with
    | done a => exact .finish
    | fail e => exact .throw
    | read j | write s j => exact .move (.turn rfl)
    | await d j => exact .move (.serve (hE d x.2.2))

end Nested

/-! ### Facts about the fields of the caller -/

theorem maintains_turn {I : σ → Prop} {m : Async A σ ε α} (hm : Maintains I m) {s : σ} (hs : I s) :
    Maintains I (m.turn s).1 ∧ I (m.turn s).2 := by
  induction m generalizing s with
  | done a => exact ⟨hm, hs⟩
  | fail e => exact ⟨hm, hs⟩
  | read k ih => exact ih s (hm s hs) hs
  | write s' k ih => exact ih hm.2 hm.1
  | await c k ih => exact ⟨hm, hs⟩

def Nested.Maintains (I : σ → Prop) : Nested A B σ τ ε α → Prop
  | .own m => Async.Maintains I m
  | .inside _ _ k => ∀ r, Async.Maintains I (k r)

section Linked
variable {link : Linkage A B τ ε} {P : Answered A ε} {R G : τ × W → τ × W → Prop}
  {F : Env B ε W} {I : σ → Prop}

theorem Nested.maintains_step {f f' : Nested A B σ τ ε α} {x x' : σ × τ × W}
    (hf : f.Maintains I) (hx : I x.1) (h : Nested.Step link P F f x f' x') :
    f'.Maintains I ∧ I x'.1 := by
  cases h with
  | turn hs => exact maintains_turn hf hx
  | serve hlink hr => exact ⟨hf _, hx⟩
  | enter hlink => exact ⟨hf, hx⟩
  | move h => exact ⟨hf, hx⟩
  | finish => exact ⟨hf _, hx⟩
  | throw => exact ⟨hf _, hx⟩

/-! ### The promise of a function in flight -/

/-- The specification of the calls of the caller: the others may take an `R`
step before and after, and leave fields that satisfy `I`. -/
def linked (link : Linkage A B τ ε) (P : Answered A ε) (R G : τ × W → τ × W → Prop)
    (F : Env B ε W) (I : σ → Prop) : CallSpec A ε (σ × τ × W) := fun c Q x =>
  ∀ y, R x.2 y → match link c with
    | none => ∀ r, P c r → ∀ s z, I s → R y z → Q r (s, z)
    | some m => wp (shielded R G F) G m (fun r z => ∀ s u, I s → R z u → Q r (s, u)) y

namespace Nested

/-- The rest of a function in flight ends in `Q` whatever the others do first. -/
def Promises (link : Linkage A B τ ε) (P : Answered A ε) (R G : τ × W → τ × W → Prop)
    (F : Env B ε W) (I : σ → Prop) (Q : Except ε α → σ × τ × W → Prop) :
    Nested A B σ τ ε α → σ × τ × W → Prop
  | .own m, x => ∀ s y, I s → R x.2 y → wp (linked link P R G F I) free m Q (s, y)
  | .inside _ m k, x => Async.Promises R G F m
      (fun r z => ∀ s u, I s → R z u → wp (linked link P R G F I) free (k r) Q (s, u)) x.2

variable {Q : Except ε α → σ × τ × W → Prop}

theorem wp_linked_wait (hRtrans : ∀ x y z, R x y → R y z → R x z)
    (hQ : ∀ out x s z, Q out x → I s → R x.2 z → Q out (s, z)) {m : Async A σ ε α}
    (hm : m.suspended = true) {x : σ × τ × W} (h : wp (linked link P R G F I) free m Q x) (s : σ)
    (y : τ × W) (hs : I s) (hy : R x.2 y) : wp (linked link P R G F I) free m Q (s, y) := by
  cases m with
  | done a => exact hQ _ _ _ _ h hs hy
  | fail e => exact hQ _ _ _ _ h hs hy
  | read k => cases hm
  | write s' k => cases hm
  | await c k => exact fun z hz => h z (hRtrans _ _ _ hy hz)

theorem promises_rely (hRtrans : ∀ x y z, R x y → R y z → R x z) {f : Nested A B σ τ ε α}
    {x x' : σ × τ × W} (hf : Promises link P R G F I Q f x) (hx : R x.2 x'.2) :
    Promises link P R G F I Q f x' := by
  cases f with
  | own m => exact fun s y hs hy => hf s y hs (hRtrans _ _ _ hx hy)
  | inside c m k => exact Async.promises_rely hRtrans hf hx

theorem promises_step (hRrefl : ∀ x, R x x) (hRtrans : ∀ x y z, R x y → R y z → R x z)
    (hGrefl : ∀ x, G x x) (hGtrans : ∀ x y z, G x y → G y z → G x z)
    (hQ : ∀ out x s z, Q out x → I s → R x.2 z → Q out (s, z)) {f f' : Nested A B σ τ ε α}
    {x x' : σ × τ × W} (hf : Promises link P R G F I Q f x) (hx : I x.1)
    (h : Step link P F f x f' x') : G x.2 x'.2 ∧ Promises link P R G F I Q f' x' := by
  cases h with
  | @turn m s y hs =>
    obtain ⟨-, hm⟩ := wp_turn (G := free) (fun _ => trivial) (fun _ _ _ _ _ => trivial) m (s, y)
      (hf s y hx (hRrefl y))
    exact ⟨hGrefl y, wp_linked_wait hRtrans hQ (turn_suspended m s) hm⟩
  | @serve c k _ r hlink hr =>
    have hc := hf x.1 x.2 hx (hRrefl x.2) x.2 (hRrefl x.2)
    rw [hlink] at hc
    exact ⟨hGrefl x.2, hc r hr⟩
  | @enter c m k _ hlink =>
    refine ⟨hGrefl x.2, fun y hy => ?_⟩
    have hc := hf x.1 x.2 hx (hRrefl x.2) y hy
    rw [hlink] at hc
    exact hc
  | move h =>
    exact Async.promises_step hRrefl hRtrans hGrefl hGtrans
      (fun r y z hy hyz s u hs hu => hy s u hs (hRtrans _ _ _ hyz hu)) hf h
  | finish => exact ⟨hGrefl x.2, hf x.2 (hRrefl x.2)⟩
  | throw => exact ⟨hGrefl x.2, hf x.2 (hRrefl x.2)⟩

theorem promises_ended (hRrefl : ∀ x, R x x) {f : Nested A B σ τ ε α} {x : σ × τ × W}
    (hf : Promises link P R G F I Q f x) (hx : I x.1) (hended : f.ended = true) :
    ∃ out, Q out x := by
  cases f with
  | inside c m k => cases hended
  | own m =>
    have hm := hf x.1 x.2 hx (hRrefl x.2)
    cases m with
    | done a => exact ⟨_, hm⟩
    | fail e => exact ⟨_, hm⟩
    | read k | write s k | await c k => cases hended

end Nested
end Linked

/-! ### Functions that make only some calls while they are answered so -/

/-- Every call of `m` satisfies `p` on the paths on which the calls before are
answered as `P` says. -/
def Abides (P : Answered A ε) (p : A.Call → Prop) : Async A σ ε α → Prop
  | .done _ => True
  | .fail _ => True
  | .read k => ∀ s, Abides P p (k s)
  | .write _ k => Abides P p k
  | .await c k => p c ∧ ∀ r, P c r → Abides P p (k r)

section Abides
variable {P : Answered A ε} {p : A.Call → Prop}

theorem abides_of_onlyCalls {m : Async A σ ε α} (hm : OnlyCalls p m) : Abides P p m := by
  induction m with
  | done a => trivial
  | fail e => trivial
  | read k ih => exact fun s => ih s (hm s)
  | write s k ih => exact ih hm
  | await c k ih => exact ⟨hm.1, fun r _ => ih r (hm.2 r)⟩

theorem abides_bind {m : Async A σ ε α} {f : α → Async A σ ε β} (hm : Abides P p m)
    (hf : ∀ a, Abides P p (f a)) : Abides P p (m >>= f) := by
  induction m with
  | done a => exact hf a
  | fail e => trivial
  | read k ih => exact fun s => ih s (hm s)
  | write s k ih => exact ih hm
  | await c k ih => exact ⟨hm.1, fun r hr => ih r (hm.2 r hr)⟩

theorem abides_call_bind {c : A.Call} {f : A.Ret c → Async A σ ε β} (hc : p c)
    (hf : ∀ a, P c (.ok a) → Abides P p (f a)) : Abides P p (call c >>= f) := by
  refine ⟨hc, fun r hr => ?_⟩
  cases r with
  | ok a => exact hf a hr
  | error e => trivial

end Abides

section Rules
variable {R G : τ × W → τ × W → Prop} {F : Env B ε W}

theorem wp_shielded_keeps {K : τ × W → Prop} (hR : ∀ x y, R x y → K x → K y)
    (hG : ∀ x y, G x y → K x → K y) {m : Async B τ ε β} {Q : Except ε β → τ × W → Prop}
    {x : τ × W} (hx : K x) (h : wp (shielded R G F) G m Q x) :
    wp (shielded R G F) G m (fun out y => Q out y ∧ K y) x := by
  induction m generalizing x with
  | done a => exact ⟨h, hx⟩
  | fail e => exact ⟨h, hx⟩
  | read k ih => exact ih x.1 hx h
  | write s k ih => exact ⟨h.1, ih (hG _ _ h.1 hx) h.2⟩
  | await c k ih =>
    intro y hy r w hr
    obtain ⟨hg, hk⟩ := h y hy r w hr
    exact ⟨hg, fun z hz => ih r (hR _ _ hz (hG _ _ hg (hR _ _ hy hx))) (hk z hz)⟩

theorem wp_shielded_env {F' : Env B ε W} (hF : ∀ c w r w', F' c w r w' → F c w r w')
    {m : Async B τ ε β} {Q : Except ε β → τ × W → Prop} {x : τ × W}
    (h : wp (shielded R G F) G m Q x) : wp (shielded R G F') G m Q x := by
  induction m generalizing x with
  | done a => exact h
  | fail e => exact h
  | read k ih => exact ih x.1 h
  | write s k ih => exact ⟨h.1, ih h.2⟩
  | await c k ih =>
    intro y hy r w hr
    obtain ⟨hg, hk⟩ := h y hy r w (hF _ _ _ _ hr)
    exact ⟨hg, fun z hz => ih r (hk z hz)⟩

/-- A caller that makes only calls of `p` keeps the guarantee if each of the
functions among these does so where `K` holds. -/
theorem wp_linked_abides {link : Linkage A B τ ε} {P : Answered A ε} {I : σ → Prop}
    {p : A.Call → Prop} {K : τ × W → Prop} (hR : ∀ x y, R x y → K x → K y)
    (hG : ∀ x y, G x y → K x → K y) (hP : ∀ c m, link c = some m → ∀ r, P c r)
    (hp : ∀ c m, p c → link c = some m → ∀ y, K y → wp (shielded R G F) G m (fun _ _ => True) y)
    {m : Async A σ ε α} (hm : Abides P p m) {x : σ × τ × W} (hx : K x.2) :
    wp (linked link P R G F I) free m (fun _ _ => True) x := by
  induction m generalizing x with
  | done a => trivial
  | fail e => trivial
  | read k ih => exact ih x.1 (hm x.1) hx
  | write s k ih => exact ⟨trivial, ih hm hx⟩
  | await c k ih =>
    intro y hy
    have hky := hR _ _ hy hx
    cases hlink : link c with
    | none => exact fun r hr s z _ hz => ih r (hm.2 r hr) (hR _ _ hz hky)
    | some m =>
      refine wp_mono (shielded_mono R G F) m ?_ y
        (wp_shielded_keeps hR hG hky (hp c m hm.1 hlink y hky))
      exact fun r z hz s u _ hu => ih r (hm.2 r (hP c m hlink r)) (hR _ _ hu hz.2)

end Rules

end Archipel.Async
