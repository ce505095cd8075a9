import Mathlib.Data.List.Basic
import Mathlib.Data.Nat.Notation

/-!
# Labelled runs

A course is a run of a labelled transition system in which every act is admitted
in the state before it. Besides the rule of invariants there is one for what a
course reaches: a measure that some acts bring down and no act brings up.
-/

namespace Archipel

variable {S L : Type}

/-- From a state by the acts of a list to a state. -/
inductive Course (happens : S → S → L → Prop) (admits : S → L → Prop) : S → List L → S → Prop
  | nil (s : S) : Course happens admits s [] s
  | cons {s s' s'' : S} {act : L} {acts : List L} (hact : happens s s' act)
      (hadmits : admits s act) (hrest : Course happens admits s' acts s'') :
      Course happens admits s (act :: acts) s''

namespace Course

variable {happens : S → S → L → Prop} {admits : S → L → Prop} {s s' : S} {acts : List L}

theorem keeps {I : S → Prop} (h : Course happens admits s acts s')
    (hstep : ∀ s s' act, I s → happens s s' act → admits s act → I s') (hs : I s) : I s' := by
  induction h with
  | nil s => exact hs
  | cons hact hadmits hrest ih => exact ih (hstep _ _ _ hs hact hadmits)

theorem append {s'' : S} {acts' : List L} (h : Course happens admits s acts s')
    (h' : Course happens admits s' acts' s'') : Course happens admits s (acts ++ acts') s'' := by
  induction h with
  | nil s => exact h'
  | cons hact hadmits hrest ih => exact .cons hact hadmits (ih h')

theorem split {acts' : List L} (h : Course happens admits s (acts ++ acts') s') :
    ∃ s₁, Course happens admits s acts s₁ ∧ Course happens admits s₁ acts' s' := by
  induction acts generalizing s with
  | nil => exact ⟨s, .nil s, h⟩
  | cons act acts ih =>
    cases h with
    | cons hact hadmits hrest =>
      obtain ⟨s₁, hfirst, hlast⟩ := ih hrest
      exact ⟨s₁, .cons hact hadmits hfirst, hlast⟩

theorem imp {admits' : S → L → Prop} (h : Course happens admits s acts s')
    (himp : ∀ s act, admits s act → admits' s act) : Course happens admits' s acts s' := by
  induction h with
  | nil s => exact .nil s
  | cons hact hadmits hrest ih => exact .cons hact (himp _ _ hadmits) ih

/-- The acts of a course one after the other, with an invariant of the states. -/
theorem within {I : S → Prop} (h : Course happens admits s acts s')
    (hstep : ∀ s s' act, I s → happens s s' act → admits s act → I s') (hs : I s) :
    Course happens (fun s act => admits s act ∧ I s) s acts s' := by
  induction h with
  | nil s => exact .nil s
  | cons hact hadmits hrest ih =>
    exact .cons hact ⟨hadmits, hs⟩ (ih (hstep _ _ _ hs hact hadmits))

/-- What holds after one of the acts and is kept by all holds at the end. -/
theorem after {I : S → Prop} {T : L → Prop} (h : Course happens admits s acts s')
    (hstep : ∀ s s' act, I s → happens s s' act → admits s act → I s')
    (hturn : ∀ s s' act, happens s s' act → admits s act → T act → I s')
    (hacts : ∃ act ∈ acts, T act) : I s' := by
  induction h with
  | nil s =>
    obtain ⟨act, hmem, -⟩ := hacts
    cases hmem
  | cons hact hadmits hrest ih =>
    obtain ⟨act', hmem, hturn'⟩ := hacts
    rcases List.mem_cons.mp hmem with rfl | hmem
    · exact keeps hrest hstep (hturn _ _ _ hact hadmits hturn')
    · exact ih ⟨act', hmem, hturn'⟩

/-- The goal is reached, and kept, when there are more turns than the measure of
the first state: a turn brings the measure down and no other act brings it up. -/
theorem reaches {goal : S → Prop} (measure : S → ℕ) (turn : L → Bool)
    (h : Course happens admits s acts s')
    (hgoal : ∀ s s' act, goal s → happens s s' act → admits s act → goal s')
    (hstep : ∀ s s' act, ¬ goal s → happens s s' act → admits s act →
      goal s' ∨ measure s' ≤ measure s ∧ (turn act = true → measure s' < measure s))
    (hturns : measure s < acts.countP turn) : goal s' := by
  induction h with
  | nil s =>
    rw [List.countP_nil] at hturns
    exact absurd hturns (Nat.not_lt_zero _)
  | @cons s s₁ s₂ act acts hact hadmits hrest ih =>
    by_cases hs : goal s
    · exact keeps hrest hgoal (hgoal _ _ _ hs hact hadmits)
    rcases hstep _ _ _ hs hact hadmits with hdone | ⟨hle, hlt⟩
    · exact keeps hrest hgoal hdone
    · apply ih
      rw [List.countP_cons] at hturns
      by_cases hturn : turn act = true
      · have hdown := hlt hturn
        rw [if_pos hturn] at hturns
        omega
      · rw [if_neg hturn] at hturns
        omega

end Course
end Archipel
