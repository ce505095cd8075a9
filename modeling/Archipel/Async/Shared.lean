import Archipel.Async.Wp

/-!
# Functions that share an object

Any number of functions in flight share the fields of one object and the world
outside it. One function moves at a time: either a call it awaits is served, or
it runs its synchronous code up to its next await. The rule of this module is
rely/guarantee: a function proved against `shielded R G E` keeps its promise
while the others take `R` steps, and every move it makes is a `G` step.
-/

namespace Archipel.Async

variable {A : Api} {σ ε α W τ : Type}

/-! ### Moves of one function -/

def turn : Async A σ ε α → σ → Async A σ ε α × σ
  | .done a, s => (.done a, s)
  | .fail e, s => (.fail e, s)
  | .read k, s => (k s).turn s
  | .write s k, _ => k.turn s
  | .await c k, s => (.await c k, s)

def suspended : Async A σ ε α → Bool
  | .read _ => false
  | .write _ _ => false
  | _ => true

def ended : Async A σ ε α → Bool
  | .done _ => true
  | .fail _ => true
  | _ => false

inductive Step (E : Env A ε W) :
    Async A σ ε α → σ × W → Async A σ ε α → σ × W → Prop
  | serve {c : A.Call} {k : Except ε (A.Ret c) → Async A σ ε α} {s : σ} {w : W}
      {r : Except ε (A.Ret c)} {w' : W} (h : E c w r w') :
      Step E (.await c k) (s, w) (k r) (s, w')
  | turn {m : Async A σ ε α} {s : σ} {w : W} (h : m.suspended = false) :
      Step E m (s, w) (m.turn s).1 ((m.turn s).2, w)

theorem turn_suspended (m : Async A σ ε α) (s : σ) : (m.turn s).1.suspended = true := by
  induction m generalizing s with
  | done a => rfl
  | fail e => rfl
  | read k ih => exact ih s s
  | write s' k ih => exact ih s'
  | await c k ih => rfl

theorem onlyCalls_turn {p : A.Call → Prop} {m : Async A σ ε α} (hm : OnlyCalls p m) (s : σ) :
    OnlyCalls p (m.turn s).1 := by
  induction m generalizing s with
  | done a => trivial
  | fail e => trivial
  | read k ih => exact ih s (hm s) s
  | write s' k ih => exact ih hm s'
  | await c k ih => exact hm

theorem onlyCalls_step {p : A.Call → Prop} {E : Env A ε W} {m m' : Async A σ ε α} {x y : σ × W}
    (hm : OnlyCalls p m) (h : Step E m x m' y) : OnlyCalls p m' := by
  cases h with
  | serve hr => exact hm.2 _
  | turn hs => exact onlyCalls_turn hm _

/-! ### Rely and guarantee -/

/-- The specification of a call among other functions: they may take an `R`
step before the call is served and before its answer is looked at, and what the
call does is charged to `G`. -/
def shielded (R G : σ × W → σ × W → Prop) (E : Env A ε W) : CallSpec A ε (σ × W) :=
  fun c Q x => ∀ y, R x y → ∀ r w, E c y.2 r w → G y (y.1, w) ∧ ∀ z, R (y.1, w) z → Q r z

theorem shielded_mono (R G : σ × W → σ × W → Prop) (E : Env A ε W) : (shielded R G E).Mono := by
  intro c P Q hPQ x h y hxy r w hr
  obtain ⟨hG, hz⟩ := h y hxy r w hr
  exact ⟨hG, fun z hR => hPQ r z (hz z hR)⟩

/-- The rest of a function keeps its promise whatever the others do first. -/
def Promises (R G : σ × W → σ × W → Prop) (E : Env A ε W) (m : Async A σ ε α)
    (Q : Except ε α → σ × W → Prop) (x : σ × W) : Prop :=
  ∀ y, R x y → wp (shielded R G E) G m Q y

theorem wp_turn {T : CallSpec A ε (σ × W)} {G : σ × W → σ × W → Prop} (hrefl : ∀ x, G x x)
    (htrans : ∀ x y z, G x y → G y z → G x z) (m : Async A σ ε α)
    {Q : Except ε α → σ × W → Prop} (x : σ × W) (h : wp T G m Q x) :
    G x ((m.turn x.1).2, x.2) ∧ wp T G (m.turn x.1).1 Q ((m.turn x.1).2, x.2) := by
  induction m generalizing x with
  | done a => exact ⟨hrefl x, h⟩
  | fail e => exact ⟨hrefl x, h⟩
  | read k ih => exact ih x.1 x h
  | write s k ih =>
    obtain ⟨hG, hk⟩ := ih (s, x.2) h.2
    exact ⟨htrans x (s, x.2) _ h.1 hG, hk⟩
  | await c k ih => exact ⟨hrefl x, h⟩

theorem wp_wait {R G : σ × W → σ × W → Prop} {E : Env A ε W}
    (htrans : ∀ x y z, R x y → R y z → R x z) (m : Async A σ ε α)
    {Q : Except ε α → σ × W → Prop} (hQ : ∀ out x y, Q out x → R x y → Q out y)
    (hs : m.suspended = true) (x y : σ × W) (hxy : R x y)
    (h : wp (shielded R G E) G m Q x) : wp (shielded R G E) G m Q y := by
  cases m with
  | done a => exact hQ _ x y h hxy
  | fail e => exact hQ _ x y h hxy
  | read k => cases hs
  | write s k => cases hs
  | await c k => exact fun z hyz r w hr => h z (htrans x y z hxy hyz) r w hr

theorem promises_step {R G : σ × W → σ × W → Prop} {E : Env A ε W} (hRrefl : ∀ x, R x x)
    (hRtrans : ∀ x y z, R x y → R y z → R x z) (hGrefl : ∀ x, G x x)
    (hGtrans : ∀ x y z, G x y → G y z → G x z) {Q : Except ε α → σ × W → Prop}
    (hQ : ∀ out x y, Q out x → R x y → Q out y) {m m' : Async A σ ε α} {x y : σ × W}
    (hm : Promises R G E m Q x) (h : Step E m x m' y) : G x y ∧ Promises R G E m' Q y := by
  cases h with
  | serve hr => exact hm _ (hRrefl _) _ (hRrefl _) _ _ hr
  | @turn m s w hs =>
    obtain ⟨hG, hk⟩ := wp_turn hGrefl hGtrans m (s, w) (hm (s, w) (hRrefl (s, w)))
    exact ⟨hG, fun z hz => wp_wait hRtrans _ hQ (turn_suspended m s) _ z hz hk⟩

theorem promises_rely {R G : σ × W → σ × W → Prop} {E : Env A ε W}
    (htrans : ∀ x y z, R x y → R y z → R x z) {Q : Except ε α → σ × W → Prop}
    {m : Async A σ ε α} {x y : σ × W} (hm : Promises R G E m Q x) (hxy : R x y) :
    Promises R G E m Q y := fun z hz => hm z (htrans x y z hxy hz)

theorem promises_ended {R G : σ × W → σ × W → Prop} {E : Env A ε W} (hRrefl : ∀ x, R x x)
    {Q : Except ε α → σ × W → Prop} {m : Async A σ ε α} {x : σ × W} (hm : Promises R G E m Q x)
    (hended : m.ended = true) : ∃ out, Q out x := by
  have hx := hm x (hRrefl x)
  cases m with
  | done a => exact ⟨_, hx⟩
  | fail e => exact ⟨_, hx⟩
  | read k | write s k | await c k => cases hended

/-! ### The pool of functions in flight -/

/-- The fields and the world, and the functions in flight, each under the label
it was launched with. Functions that have ended stay in the list. -/
structure Pool (A : Api) (σ ε α W τ : Type) where
  shared : σ × W
  flows : List (τ × Async A σ ε α)

/-- Which function a label launches and among which others, how calls are
answered for it, and what else may happen. -/
structure System (A : Api) (σ ε α W τ : Type) where
  code : τ → Async A σ ε α
  launches : τ → List (τ × Async A σ ε α) → Prop
  env : τ → Env A ε W
  world : σ × W → σ × W → Prop

inductive System.Step (S : System A σ ε α W τ) : Pool A σ ε α W τ → Pool A σ ε α W τ → Prop
  | launch {p : Pool A σ ε α W τ} (t : τ) (h : S.launches t p.flows) :
      Step S p ⟨p.shared, p.flows ++ [(t, S.code t)]⟩
  | flow {x y : σ × W} {pre post : List (τ × Async A σ ε α)} {t : τ} {m m' : Async A σ ε α}
      (h : Async.Step (S.env t) m x m' y) :
      Step S ⟨x, pre ++ (t, m) :: post⟩ ⟨y, pre ++ (t, m') :: post⟩
  | world {x y : σ × W} {fs : List (τ × Async A σ ε α)} (h : S.world x y) : Step S ⟨x, fs⟩ ⟨y, fs⟩

def System.Reachable (S : System A σ ε α W τ) (x : σ × W) (p : Pool A σ ε α W τ) : Prop :=
  Relation.ReflTransGen S.Step ⟨x, []⟩ p

theorem System.reachable_invariant {S : System A σ ε α W τ} {I : Pool A σ ε α W τ → Prop}
    {x : σ × W} {p : Pool A σ ε α W τ} (hp : S.Reachable x p) (h0 : I ⟨x, []⟩)
    (hstep : ∀ p q, I p → S.Step p q → I q) : I p := by
  induction hp with
  | refl => exact h0
  | tail _ hpq ih => exact hstep _ _ ih hpq

theorem System.reachable_mono {S S' : System A σ ε α W τ} {x : σ × W} {p : Pool A σ ε α W τ}
    (hp : S.Reachable x p) (hcode : S.code = S'.code)
    (hlaunches : ∀ t fs, S.launches t fs → S'.launches t fs)
    (henv : ∀ t c w r w', S.env t c w r w' → S'.env t c w r w')
    (hworld : ∀ x y, S.world x y → S'.world x y) : S'.Reachable x p := by
  refine Relation.ReflTransGen.mono ?_ _ _ hp
  intro p q hpq
  cases hpq with
  | launch t h =>
    rw [hcode]
    exact .launch t (hlaunches t _ h)
  | flow h =>
    cases h with
    | serve hr => exact .flow (.serve (henv _ _ _ _ _ hr))
    | turn hs => exact .flow (.turn hs)
  | world h => exact .world (hworld _ _ h)

/-! ### A function that moves while the others stand still -/

/-- The moves of one function. -/
abbrev Steps (E : Env A ε W) : Async A σ ε α × (σ × W) → Async A σ ε α × (σ × W) → Prop :=
  Relation.ReflTransGen fun a b => Step E a.1 a.2 b.1 b.2

theorem turn_of_suspended {m : Async A σ ε α} (hm : m.suspended = true) (s : σ) :
    m.turn s = (m, s) := by
  cases m with
  | done a | fail e | await c k => rfl
  | read k | write s' k => cases hm

theorem steps_turn (E : Env A ε W) (m : Async A σ ε α) (x : σ × W) :
    Steps E (m, x) ((m.turn x.1).1, ((m.turn x.1).2, x.2)) := by
  cases hm : m.suspended with
  | true => rw [turn_of_suspended hm]
  | false => exact .single (.turn hm)

/-- The function comes to its next await, and `n` of its calls are served. -/
def advance (D : Script A ε W) : ℕ → Async A σ ε α → σ × W → Option (Async A σ ε α × (σ × W))
  | 0, m, x => some ((m.turn x.1).1, ((m.turn x.1).2, x.2))
  | n + 1, m, x =>
    match m.turn x.1 with
    | (.await c k, s) =>
      match D c x.2 with
      | some (r, w) => advance D n (k r) (s, w)
      | none => none
    | _ => none

theorem advance_steps {E : Env A ε W} {D : Script A ε W}
    (hD : ∀ c w r w', D c w = some (r, w') → E c w r w') {n : ℕ} {m : Async A σ ε α} {x : σ × W}
    {b : Async A σ ε α × (σ × W)} (h : advance D n m x = some b) : Steps E (m, x) b := by
  induction n generalizing m x with
  | zero =>
    cases h
    exact steps_turn E m x
  | succ n ih =>
    have hturn := steps_turn E m x
    unfold advance at h
    split at h
    · next c k s hawait =>
      rw [hawait] at hturn
      split at h
      · next r w hserve => exact (hturn.tail (.serve (hD c _ r w hserve))).trans (ih h)
      · cases h
    · cases h

theorem System.steps_flow (S : System A σ ε α W τ) {t : τ} {a b : Async A σ ε α × (σ × W)}
    (h : Steps (S.env t) a b) (pre post : List (τ × Async A σ ε α)) :
    Relation.ReflTransGen S.Step ⟨a.2, pre ++ (t, a.1) :: post⟩ ⟨b.2, pre ++ (t, b.1) :: post⟩ := by
  induction h with
  | refl => exact .refl
  | tail _ hstep ih => exact ih.tail (.flow hstep)

/-! ### Schedules -/

inductive Move (δ τ : Type) where
  | launch (t : τ)
  | serve (i : ℕ) (d : δ)
  | turn (i : ℕ)

variable {δ : Type}

def serve (D : Answers A ε W) : Async A σ ε α → W → Option (Async A σ ε α × W)
  | .await c k, w => some (k (D c w).1, (D c w).2)
  | _, _ => none

theorem serve_step {E : Env A ε W} {D : Answers A ε W} (hD : ∀ c w, E c w (D c w).1 (D c w).2)
    {m m' : Async A σ ε α} {s : σ} {w w' : W} (h : serve D m w = some (m', w')) :
    Step E m (s, w) m' (s, w') := by
  cases m with
  | await c k =>
    simp only [serve, Option.some.injEq, Prod.mk.injEq] at h
    obtain ⟨rfl, rfl⟩ := h
    exact .serve (hD c w)
  | done a | fail e | read k | write s k => cases h

def Pool.move (S : System A σ ε α W τ) [∀ t fs, Decidable (S.launches t fs)]
    (D : δ → Answers A ε W) (p : Pool A σ ε α W τ) : Move δ τ → Pool A σ ε α W τ
  | .launch t => if S.launches t p.flows then ⟨p.shared, p.flows ++ [(t, S.code t)]⟩ else p
  | .serve i d =>
    match p.flows[i]? with
    | some (t, m) =>
      match serve (D d) m p.shared.2 with
      | some (m', w) => ⟨(p.shared.1, w), p.flows.set i (t, m')⟩
      | none => p
    | none => p
  | .turn i =>
    match p.flows[i]? with
    | some (t, m) =>
      if m.suspended then p
      else ⟨((m.turn p.shared.1).2, p.shared.2), p.flows.set i (t, (m.turn p.shared.1).1)⟩
    | none => p

def Pool.play (S : System A σ ε α W τ) [∀ t fs, Decidable (S.launches t fs)]
    (D : δ → Answers A ε W) (p : Pool A σ ε α W τ) (moves : List (Move δ τ)) :
    Pool A σ ε α W τ := moves.foldl (Pool.move S D) p

theorem split_at {β : Type} {l : List β} {i : ℕ} {b : β} (h : l[i]? = some b) :
    ∃ pre post, l = pre ++ b :: post ∧ ∀ c, l.set i c = pre ++ c :: post := by
  obtain ⟨hi, rfl⟩ := List.getElem?_eq_some_iff.mp h
  refine ⟨l.take i, l.drop (i + 1), ?_, ?_⟩
  · rw [List.getElem_cons_drop, List.take_append_drop]
  · intro c
    exact List.set_eq_take_append_cons_drop.trans (if_pos hi)

theorem Pool.move_steps {S : System A σ ε α W τ} [∀ t fs, Decidable (S.launches t fs)]
    {D : δ → Answers A ε W} (hD : ∀ t d c w, S.env t c w (D d c w).1 (D d c w).2)
    (p : Pool A σ ε α W τ) (v : Move δ τ) :
    Relation.ReflTransGen S.Step p (p.move S D v) := by
  rcases p with ⟨⟨s, w⟩, fs⟩
  cases v with
  | launch t =>
    simp only [Pool.move]
    split
    · next h => exact .single (.launch t h)
    · exact .refl
  | serve i d =>
    simp only [Pool.move]
    split
    · next t m hm =>
      obtain ⟨pre, post, rfl, hset⟩ := split_at hm
      split
      · next m' w' hw =>
        rw [hset]
        exact .single (.flow (serve_step (hD t d) hw))
      · exact .refl
    · exact .refl
  | turn i =>
    simp only [Pool.move]
    split
    · next t m hm =>
      obtain ⟨pre, post, rfl, hset⟩ := split_at hm
      split
      · exact .refl
      · next hs =>
        rw [hset]
        exact .single (.flow (.turn (by simpa using hs)))
    · exact .refl

theorem Pool.play_steps {S : System A σ ε α W τ} [∀ t fs, Decidable (S.launches t fs)]
    {D : δ → Answers A ε W} (hD : ∀ t d c w, S.env t c w (D d c w).1 (D d c w).2)
    (moves : List (Move δ τ)) (p : Pool A σ ε α W τ) :
    Relation.ReflTransGen S.Step p (p.play S D moves) := by
  induction moves generalizing p with
  | nil => exact .refl
  | cons v vs ih => exact (Pool.move_steps hD p v).trans (ih (p.move S D v))

/-- The moves of the functions in flight do not depend on what may be launched. -/
theorem Pool.move_flows {S S' : System A σ ε α W τ} [∀ t fs, Decidable (S.launches t fs)]
    [∀ t fs, Decidable (S'.launches t fs)] (D : δ → Answers A ε W) (p : Pool A σ ε α W τ)
    {v : Move δ τ} (hv : ∀ t, v ≠ .launch t) : p.move S D v = p.move S' D v := by
  cases v with
  | launch t => exact absurd rfl (hv t)
  | serve i d | turn i => rfl

theorem Pool.play_flows_steps {S S' : System A σ ε α W τ} [∀ t fs, Decidable (S.launches t fs)]
    {D : δ → Answers A ε W} (hD : ∀ t d c w, S'.env t c w (D d c w).1 (D d c w).2)
    (moves : List (Move δ τ)) (hmoves : ∀ t, .launch t ∉ moves) (p : Pool A σ ε α W τ) :
    Relation.ReflTransGen S'.Step p (p.play S D moves) := by
  classical
  induction moves generalizing p with
  | nil => exact .refl
  | cons v vs ih =>
    have hv : ∀ t, v ≠ .launch t := fun t heq => hmoves t (heq ▸ List.mem_cons_self)
    have hvs : ∀ t, .launch t ∉ vs := fun t hmem => hmoves t (List.mem_cons_of_mem v hmem)
    have hfirst : Relation.ReflTransGen S'.Step p (p.move S D v) := by
      have hsame : p.move S D v = p.move S' D v := Pool.move_flows D p hv
      rw [hsame]
      exact Pool.move_steps hD p v
    exact hfirst.trans (ih hvs (p.move S D v))

end Archipel.Async
