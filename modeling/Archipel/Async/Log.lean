import Archipel.Async.Wp

/-!
# Logged runs

The environment `logged E` answers as `E` does and writes down every call, its
answer and the world it leaves. A promise about the runs under `E` holds under
`logged E`, where the log grows by calls that the function makes, and a promise
about the logged runs that does not read the log holds under `E`.
-/

namespace Archipel.Async

variable {A : Api} {σ ε α W : Type}

structure Event (A : Api) (ε W : Type) where
  call : A.Call
  answer : Except ε (A.Ret call)
  after : W

/-- Every call gets any answer. -/
def anyAnswer : Env A ε Unit := fun _ _ _ _ => True

def logged (E : Env A ε W) : Env A ε (W × List (Event A ε W)) :=
  fun c w r w' => E c w.1 r w'.1 ∧ w'.2 = w.2 ++ [⟨c, r, w'.1⟩]

/-! ### What a log gained -/

/-- The log gained events that satisfy `P`. -/
def Logs (P : Event A ε W → Prop) (w w' : W × List (Event A ε W)) : Prop :=
  ∃ made, w'.2 = w.2 ++ made ∧ ∀ event ∈ made, P event

section Logs
variable {P P' : Event A ε W → Prop} {w w' w'' : W × List (Event A ε W)}

theorem logs_refl (w : W × List (Event A ε W)) : Logs P w w := ⟨[], by simp, by simp⟩

theorem logs_trans (h : Logs P w w') (h' : Logs P w' w'') : Logs P w w'' := by
  obtain ⟨made, hmade, hall⟩ := h
  obtain ⟨made', hmade', hall'⟩ := h'
  refine ⟨made ++ made', by rw [hmade', hmade, List.append_assoc], ?_⟩
  intro event hevent
  rcases List.mem_append.mp hevent with hold | hnew
  · exact hall event hold
  · exact hall' event hnew

theorem logs_mono (hP : ∀ event, P event → P' event) (h : Logs P w w') : Logs P' w w' := by
  obtain ⟨made, hmade, hall⟩ := h
  exact ⟨made, hmade, fun event hevent => hP event (hall event hevent)⟩

theorem logged_logs {E : Env A ε W} {c : A.Call} {r : Except ε (A.Ret c)}
    (hr : logged E c w r w') (hP : P ⟨c, r, w'.1⟩) : Logs P w w' := by
  refine ⟨[⟨c, r, w'.1⟩], hr.2, ?_⟩
  intro event hevent
  rw [List.mem_singleton.mp hevent]
  exact hP

end Logs

/-! ### Promises with and without the log -/

theorem wp_logged {E : Env A ε W} {p : A.Call → Prop} {m : Async A σ ε α}
    {Q : Except ε α → σ × W → Prop} (hp : OnlyCalls p m) (s : σ)
    (w : W × List (Event A ε W)) (h : wp (demonic E) free m Q (s, w.1)) :
    wp (demonic (logged E)) free m (fun out y => Q out (y.1, y.2.1) ∧
      Logs (fun event => p event.call) w y.2) (s, w) := by
  induction m generalizing s w with
  | done a => exact ⟨h, logs_refl w⟩
  | fail e => exact ⟨h, logs_refl w⟩
  | read k ih => exact ih s (hp s) s w h
  | write t k ih => exact ⟨trivial, ih hp t w h.2⟩
  | await c k ih =>
    intro r w' hr
    have hk := ih r (hp.2 r) s w' (h r w'.1 hr.1)
    refine wp_mono (demonic_mono _) (k r) ?_ _ hk
    intro out y hy
    exact ⟨hy.1, logs_trans (logged_logs hr hp.1) hy.2⟩

theorem wp_unlogged {E : Env A ε W} {m : Async A σ ε α} {Q : Except ε α → σ × W → Prop} (s : σ)
    (w : W × List (Event A ε W))
    (h : wp (demonic (logged E)) free m (fun out y => Q out (y.1, y.2.1)) (s, w)) :
    wp (demonic E) free m Q (s, w.1) := by
  induction m generalizing s w with
  | done a => exact h
  | fail e => exact h
  | read k ih => exact ih s s w h
  | write t k ih => exact ⟨trivial, ih t w h.2⟩
  | await c k ih =>
    intro r w' hr
    exact ih r s (w', w.2 ++ [⟨c, r, w'⟩]) (h r _ ⟨hr, rfl⟩)

theorem wp_maintains_logged {E : Env A ε W} {p : A.Call → Prop} {I : σ → Prop}
    {m : Async A σ ε α} (hI : Maintains I m) (hp : OnlyCalls p m)
    (x : σ × (W × List (Event A ε W))) (hx : I x.1) :
    wp (demonic (logged E)) free m (fun _ y => I y.1 ∧
      Logs (fun event => p event.call) x.2 y.2) x :=
  wp_logged hp x.1 x.2 (wp_maintains hI (x.1, x.2.1) hx)

end Archipel.Async
