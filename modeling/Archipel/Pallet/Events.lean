import Archipel.Pallet.Leadership
import Mathlib.Data.List.Infix

/-!
# The events of the pallet

Calls only append to the events. An account that led a group still leads it, or
nobody does, or an event tells that another account took the leadership.
-/

namespace Archipel.Pallet

variable {α : Type} [DecidableEq α] [Inhabited α]

theorem execute_events (x : Extrinsic α) (s : Storage α) : s.events <+: (x.execute s).2.events := by
  rcases execute_cases x s with ⟨e, he⟩ | ⟨who, g, st, -, -, he⟩ | ⟨who, old, g, -, -, he, -⟩ |
    ⟨who, g, -, -, he, -⟩
  · rw [he]
  · rw [he]
    exact List.prefix_append ..
  · rw [he]
    exact List.prefix_append ..
  · rw [he]
    exact List.prefix_append ..

def Storage.Advances (s s' : Storage α) : Prop := ∃ xs, s' = runCalls s xs

namespace Storage.Advances

theorem refl (s : Storage α) : s.Advances s := ⟨[], rfl⟩

theorem trans {s s' s'' : Storage α} (h : s.Advances s') (h' : s'.Advances s'') :
    s.Advances s'' := by
  obtain ⟨xs, rfl⟩ := h
  obtain ⟨ys, rfl⟩ := h'
  exact ⟨xs ++ ys, (runCalls_append s xs ys).symm⟩

theorem execute (s : Storage α) (x : Extrinsic α) : s.Advances (x.execute s).2 := ⟨[x], rfl⟩

theorem induct {P : Storage α → Prop} {s s' : Storage α} (h : s.Advances s') (hs : P s)
    (hstep : ∀ x t, P t → P (Extrinsic.execute x t).2) : P s' := by
  obtain ⟨xs, rfl⟩ := h
  induction xs generalizing s with
  | nil => exact hs
  | cons x xs ih => exact ih (hstep x s hs)

theorem events {s s' : Storage α} (h : s.Advances s') : s.events <+: s'.events :=
  h.induct (P := fun t => s.events <+: t.events) List.prefix_rfl
    fun x t ht => ht.trans (execute_events x t)

end Storage.Advances

/-- The account leads the group, or nobody does, or one of the events after the
first `seen` tells that another account took the leadership. -/
def Storage.Informs (s : Storage α) (who : α) (g : UInt32) (seen : ℕ) : Prop :=
  s.leaders g = some who ∨ s.leaders g = none ∨
    ∃ other, other ≠ who ∧ Event.newLeader other g ∈ s.events.drop seen

theorem mem_drop_append {β : Type} {l m : List β} {n : ℕ} {b : β} (h : b ∈ l.drop n) :
    b ∈ (l ++ m).drop n := by
  rw [List.drop_append]
  exact List.mem_append_left _ h

omit [DecidableEq α] [Inhabited α] in
theorem Storage.Informs.append {s s' : Storage α} {who : α} {g : UInt32} {seen : ℕ}
    (h : s.Informs who g seen) (hl : s'.leaders g = s.leaders g) (events : List (Event α))
    (he : s'.events = s.events ++ events) : s'.Informs who g seen := by
  rcases h with h | h | ⟨other, hne, hm⟩
  · exact .inl (hl.trans h)
  · exact .inr (.inl (hl.trans h))
  · refine .inr (.inr ⟨other, hne, ?_⟩)
    rw [he]
    exact mem_drop_append hm

theorem informs_execute (x : Extrinsic α) {s : Storage α} {who : α} {g : UInt32} {seen : ℕ}
    (hseen : seen ≤ s.events.length) (h : s.Informs who g seen) :
    (x.execute s).2.Informs who g seen := by
  rcases execute_cases x s with ⟨e, he⟩ | ⟨other, g', st, -, -, he⟩ |
    ⟨other, old, g', -, -, he, -⟩ | ⟨other, g', -, -, he, -⟩
  · rw [he]
    exact h
  · rw [he]
    exact h.append (by rw [beat_leaders]) _ rfl
  · rw [he]
    by_cases hg : g = g'
    · subst hg
      by_cases hwho : other = who
      · rw [hwho]
        exact .inl (lead_leaders_self ..)
      · refine .inr (.inr ⟨other, hwho, ?_⟩)
        show _ ∈ (s.events ++ [_]).drop seen
        rw [List.drop_append_of_le_length hseen]
        exact List.mem_append_right _ (List.mem_singleton_self _)
    · exact h.append (lead_leaders_ne s other hg) _ rfl
  · rw [he]
    by_cases hg : g = g'
    · subst hg
      exact .inr (.inl (unlead_leaders_self ..))
    · exact h.append (unlead_leaders_ne s other hg) _ rfl

theorem informs_advances {s s' : Storage α} {who : α} {g : UInt32} {seen : ℕ}
    (hadv : s.Advances s') (hseen : seen ≤ s.events.length) (h : s.Informs who g seen) :
    s'.Informs who g seen :=
  (hadv.induct (P := fun t => seen ≤ t.events.length ∧ t.Informs who g seen) ⟨hseen, h⟩
    fun x _ ht => ⟨ht.1.trans (execute_events x _).length_le, informs_execute x ht.1 ht.2⟩).2

omit [DecidableEq α] [Inhabited α] in
theorem Storage.Informs.deliver {s : Storage α} {who : α} {g : UInt32} {seen : ℕ} {event : Event α}
    (h : s.Informs who g seen) (hevent : s.events[seen]? = some event)
    (hother : ∀ other, other ≠ who → event ≠ .newLeader other g) : s.Informs who g (seen + 1) := by
  rcases h with h | h | ⟨other, hne, hm⟩
  · exact .inl h
  · exact .inr (.inl h)
  · refine .inr (.inr ⟨other, hne, ?_⟩)
    obtain ⟨hlt, hget⟩ := List.getElem?_eq_some_iff.mp hevent
    rw [List.drop_eq_getElem_cons hlt, hget] at hm
    rcases List.mem_cons.mp hm with hm | hm
    · exact absurd hm.symm (hother other hne)
    · exact hm

end Archipel.Pallet
