import Mathlib.Data.String.Basic

/-!
# Lists written as texts

A list of texts is written with a separator between the entries, or with a
separator after each entry and the last one cut off. When no entry has the
separator both texts split into the list again.
-/

namespace Archipel.Text

open String (utf8Len)

theorem splitOnAux_singleton (sep : Char) (l m r : List Char) (acc : List String) :
    String.splitOnAux (String.ofList (l ++ m ++ r)) (String.ofList [sep]) ⟨utf8Len l⟩
        ⟨utf8Len l + utf8Len m⟩ 0 acc =
      acc.reverse ++ (List.splitOnPPrepend (· == sep) r m.reverse).map String.ofList := by
  induction r generalizing l m acc with
  | nil =>
    have hend : String.Pos.Raw.atEnd (String.ofList (l ++ m ++ [])) ⟨utf8Len (l ++ m)⟩ = true :=
      (String.atEnd_of_valid (l ++ m) []).mpr rfl
    rw [String.utf8Len_append] at hend
    unfold String.splitOnAux
    rw [if_pos hend, String.extract_of_valid l m []]
    simp
  | cons c r ih =>
    have hend : ¬ String.Pos.Raw.atEnd (String.ofList (l ++ m ++ c :: r))
        ⟨utf8Len (l ++ m)⟩ = true := by
      rw [String.atEnd_of_valid (l ++ m) (c :: r)]
      exact List.cons_ne_nil c r
    have hget := String.get_of_valid (l ++ m) (c :: r)
    have hnext := String.next_of_valid (l ++ m) c r
    have hsep : String.Pos.Raw.get (String.ofList [sep]) 0 = sep := String.get_of_valid [] [sep]
    have hsepNext : String.Pos.Raw.next (String.ofList [sep]) 0 = ⟨sep.utf8Size⟩ := by
      have h := String.next_of_valid [] sep []
      simpa using h
    have hsepEnd : String.Pos.Raw.atEnd (String.ofList [sep]) ⟨sep.utf8Size⟩ = true := by
      have h := String.atEnd_of_valid [sep] []
      simpa using h
    have hextract := String.extract_of_valid l m (c :: r)
    rw [String.utf8Len_append] at hend hget hnext
    unfold String.splitOnAux
    rw [if_neg hend, hget, hsep, hnext, hsepNext]
    by_cases hc : c = sep
    · subst hc
      have hback : String.Pos.Raw.unoffsetBy ⟨utf8Len l + utf8Len m + c.utf8Size⟩ ⟨c.utf8Size⟩ =
          ⟨utf8Len l + utf8Len m⟩ := by simp [String.Pos.Raw.unoffsetBy]
      have hrest := ih (l ++ m ++ [c]) [] (String.ofList m :: acc)
      have htext : l ++ m ++ [c] ++ [] ++ r = l ++ m ++ c :: r := by simp
      have hpos : utf8Len (l ++ m ++ [c]) = utf8Len l + utf8Len m + c.utf8Size := by
        simp [Nat.add_assoc]
      rw [htext, hpos] at hrest
      simp only [List.headD_cons, beq_self_eq_true, if_true, hsepEnd, hback, hextract]
      rw [List.splitOnPPrepend_cons_pos (by simp)]
      simpa using hrest
    · have hback : String.Pos.Raw.unoffsetBy ⟨utf8Len l + utf8Len m⟩ 0 =
          ⟨utf8Len l + utf8Len m⟩ := by simp [String.Pos.Raw.unoffsetBy]
      have hne : (c == sep) = false := by simpa using hc
      have hrest := ih l (m ++ [c]) acc
      have htext : l ++ (m ++ [c]) ++ r = l ++ m ++ c :: r := by simp
      have hpos : utf8Len l + utf8Len (m ++ [c]) = utf8Len l + utf8Len m + c.utf8Size := by
        simp [Nat.add_assoc]
      rw [htext, hpos] at hrest
      simp only [List.headD_cons, hne, Bool.false_eq_true, if_false, hback, hnext]
      rw [hrest, List.splitOnPPrepend_cons_neg (p := (· == sep)) hne, List.reverse_append]
      rfl

theorem splitOn_singleton (sep : Char) (s : String) :
    s.splitOn (String.ofList [sep]) = (s.toList.splitOn sep).map String.ofList := by
  have hsep : (String.ofList [sep] == "") = false := by simp
  have h := splitOnAux_singleton sep [] [] s.toList []
  simp only [List.nil_append, String.ofList_toList] at h
  unfold String.splitOn
  rw [hsep]
  exact h

/-! ### The entries come back -/

section Entries
variable {sep : Char} {l : List String}

theorem splitOn_intercalate (hne : l ≠ []) (hsep : ∀ s ∈ l, sep ∉ s.toList) :
    (((String.ofList [sep]).intercalate l).toList.splitOn sep).map String.ofList = l := by
  have hentries : ∀ t ∈ l.map String.toList, sep ∉ t := by
    intro t ht
    obtain ⟨s, hs, rfl⟩ := List.mem_map.mp ht
    exact hsep s hs
  rw [String.toList_intercalate, String.toList_ofList,
    List.splitOn_intercalate sep hentries (by simpa using hne), List.map_map]
  simp [Function.comp_def]

theorem intercalate_ne_empty (sep : String) {first : String} (h : first ≠ "") (rest : List String) :
    sep.intercalate (first :: rest) ≠ "" := by
  cases rest with
  | nil => simpa using h
  | cons next rest =>
    rw [String.intercalate_cons_cons]
    simp [h]

theorem mem_intercalate_text {text : String} {c : Char}
    (hc : c ∈ (text.intercalate l).toList) : c ∈ text.toList ∨ ∃ s ∈ l, c ∈ s.toList := by
  induction l with
  | nil => simp at hc
  | cons s l ih =>
    cases l with
    | nil => exact .inr ⟨s, by simp, by simpa using hc⟩
    | cons next l =>
      rw [String.intercalate_cons_cons, String.toList_append, String.toList_append] at hc
      rcases List.mem_append.mp hc with hfirst | hrest
      · rcases List.mem_append.mp hfirst with hmem | hmem
        · exact .inr ⟨s, by simp, hmem⟩
        · exact .inl hmem
      · rcases ih hrest with hmem | ⟨t, ht, hmem⟩
        · exact .inl hmem
        · exact .inr ⟨t, List.mem_cons_of_mem s ht, hmem⟩

theorem mem_intercalate {c : Char} (hc : c ∈ ((String.ofList [sep]).intercalate l).toList) :
    c = sep ∨ ∃ s ∈ l, c ∈ s.toList := by
  rcases mem_intercalate_text hc with hmem | hentry
  · rw [String.toList_ofList] at hmem
    exact .inl (List.mem_singleton.mp hmem)
  · exact .inr hentry

theorem foldl_append_toList (l : List String) (s : String) :
    (l.foldl (fun text entry => text ++ entry) s).toList =
      s.toList ++ l.flatMap String.toList := by
  induction l generalizing s with
  | nil => simp
  | cons entry l ih => simp [ih]

theorem flatMap_separated (sep : Char) (l : List (List Char)) (hne : l ≠ []) :
    l.flatMap (fun entry => entry ++ [sep]) = [sep].intercalate l ++ [sep] := by
  induction l with
  | nil => exact absurd rfl hne
  | cons entry l ih =>
    cases l with
    | nil => simp
    | cons next l =>
      rw [List.flatMap_cons, ih (List.cons_ne_nil next l), List.intercalate_cons_cons]
      simp

/-- The last separator is cut off. -/
theorem dropLast_separated (sep : Char) (l : List String) :
    String.ofList ((l.map fun entry => entry ++ String.ofList [sep]).foldl
      (fun text entry => text ++ entry) "").toList.dropLast =
        (String.ofList [sep]).intercalate l := by
  by_cases hne : l = []
  · subst hne
    rfl
  · have hflat : (l.map fun entry => entry ++ String.ofList [sep]).flatMap String.toList =
        (l.map String.toList).flatMap fun entry => entry ++ [sep] := by
      simp [List.flatMap_map]
    rw [foldl_append_toList, hflat, flatMap_separated sep _ (by simpa using hne)]
    apply String.ext
    simp [String.toList_intercalate]

end Entries

/-! ### Digits -/

theorem toList_toString (n : ℕ) : (toString n).toList = Nat.toDigits 10 n := by
  show (String.ofList (Nat.toDigits 10 n)).toList = _
  exact String.toList_ofList

theorem isDigit_of_mem_toString {n : ℕ} {c : Char} (hc : c ∈ (toString n).toList) :
    c.isDigit = true := by
  rw [toList_toString] at hc
  exact Nat.isDigit_of_mem_toDigits (by decide) (by decide) hc

theorem toString_inj {m n : ℕ} (h : toString m = toString n) : m = n := by
  have hdigits := congrArg String.toList h
  rw [toList_toString, toList_toString] at hdigits
  have hread : Nat.ofDigitChars 10 (Nat.toDigits 10 m) 0 = m := Nat.ofDigitChars_ten_toDigits
  rw [hdigits, Nat.ofDigitChars_ten_toDigits] at hread
  exact hread.symm

end Archipel.Text
