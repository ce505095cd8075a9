import Mathlib.Data.List.Basic
import Mathlib.Data.Nat.Notation

/-!
# Lists whose marked elements come first

`Front p l`: no marked element stands behind an unmarked one. Then and only then
every marked element has an index below the number of marked elements, so that a
second list with one entry for each marked element can be read at the index in
the first.
-/

namespace Archipel

variable {α : Type} (p : α → Bool)

def Front (l : List α) : Prop := l.Pairwise fun a b => p b = true → p a = true

instance (l : List α) : Decidable (Front p l) :=
  inferInstanceAs (Decidable (l.Pairwise fun a b => p b = true → p a = true))

variable {p}

theorem countP_le_of_index {l : List α} {k : ℕ}
    (h : ∀ (i : ℕ) (a : α), l[i]? = some a → p a = true → i < k) : l.countP p ≤ k := by
  have hlate : (l.drop k).countP p = 0 := by
    rw [List.countP_eq_zero]
    intro a ha hpa
    obtain ⟨i, hi⟩ := List.mem_iff_getElem?.mp ha
    rw [List.getElem?_drop] at hi
    have hlt := h (k + i) a hi hpa
    omega
  have hearly : (l.take k).countP p ≤ (l.take k).length := List.countP_le_length
  have hsplit : l.countP p = (l.take k).countP p + (l.drop k).countP p := by
    rw [← List.countP_append, List.take_append_drop]
  have hlen : (l.take k).length ≤ k := List.length_take_le k l
  omega

theorem front_iff_index {l : List α} :
    Front p l ↔ ∀ (i : ℕ) (a : α), l[i]? = some a → p a = true → i < l.countP p := by
  unfold Front
  induction l with
  | nil => simp
  | cons b l ih =>
    rw [List.pairwise_cons, ih, List.countP_cons]
    constructor
    · intro h i a ha hpa
      obtain ⟨hb, hl⟩ := h
      cases i with
      | zero =>
        cases ha
        rw [if_pos hpa]
        omega
      | succ i =>
        have hmem : a ∈ l := List.mem_of_getElem? ha
        have hi := hl i a ha hpa
        rw [if_pos (hb a hmem hpa)]
        omega
    · intro h
      by_cases hpb : p b = true
      · refine ⟨fun _ _ _ => hpb, ?_⟩
        intro i a ha hpa
        have hi := h (i + 1) a ha hpa
        rw [if_pos hpb] at hi
        omega
      · rw [if_neg hpb] at h
        -- The index of every marked element leaves room for `b`, so there is none.
        have hnone : l.countP p ≤ l.countP p - 1 := by
          refine countP_le_of_index fun i a ha hpa => ?_
          have hi := h (i + 1) a ha hpa
          omega
        have hzero : l.countP p = 0 := by omega
        have habsent : ∀ a ∈ l, ¬ p a = true := List.countP_eq_zero.mp hzero
        refine ⟨fun a ha hpa => absurd hpa (habsent a ha), ?_⟩
        intro i a ha hpa
        exact absurd hpa (habsent a (List.mem_of_getElem? ha))

end Archipel
