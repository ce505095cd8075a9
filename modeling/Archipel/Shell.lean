import Archipel.Json
import Archipel.Text
import Mathlib.Data.List.DropRight
import Mathlib.Data.List.TakeWhile

/-!
# Texts in shell scripts

The words of a text, the array that `read -a` fills, and a string of a JSON file
as `jq` prints it with the double quotes deleted. A list that is joined with a
separator is read back entry by entry, and `jq` changes nothing in a text without
double quotes, backslashes and control characters.
-/

namespace Archipel.Shell

/-- `isspace` -/
def isspace (c : Char) : Bool := decide (c.toNat ∈ [9, 10, 11, 12, 13, 32])

/-- What is between the characters that `cut` accepts. -/
def words (cut : Char → Bool) (s : String) : List String :=
  ((s.toList.splitOnP cut).filter fun word => !word.isEmpty).map String.ofList

/-- The words of a variable that is not quoted. -/
def fields (s : String) : List String :=
  words (fun c => c == ' ' || c == '\t' || c == '\n') s

/-- `wc -w` -/
def wordCount (s : String) : ℕ := (words isspace s).length

/-- `IFS=sep read -r -a`: the first line only, and a separator at its end opens no
entry. -/
def readArray (sep : Char) (s : String) : List String :=
  let entries := (s.toList.takeWhile fun c => c != '\n').splitOn sep
  (if entries.getLast? = some [] then entries.dropLast else entries).map String.ofList

/-- `$(..)` cuts the newlines at the end off. -/
def substitution (output : String) : String :=
  String.ofList (output.toList.rdropWhile fun c => c == '\n')

/-- `echo` of a variable that is not quoted. -/
def echo (value : String) : String := " ".intercalate (fields value)

/-- `tr a b` -/
def tr (a b : Char) (s : String) : String :=
  String.ofList (s.toList.map fun c => if c = a then b else c)

/-- `tr -d` of each of the characters. -/
def trDelete (deleted : List Char) (s : String) : String :=
  String.ofList (s.toList.filter fun c => decide (c ∉ deleted))

def lines (s : String) : List String := (s.toList.splitOn '\n').map String.ofList

def grep (word s : String) : List String :=
  (lines s).filter fun line => decide (word.toList <:+: line.toList)

/-- `cut -d sep -f2`; a line without the separator is printed whole. -/
def cut (sep : Char) (line : String) : String :=
  if sep ∈ line.toList then String.ofList ((line.toList.splitOn sep).getD 1 []) else line

/-- `sed 's/^[[:space:]]*//'` -/
def trimStart (line : String) : String := String.ofList (line.toList.dropWhile isspace)

/-- The replacement of `sed 's/../../g'`: an ampersand is what matched, a backslash
quotes, and a slash ends the expression too early. -/
def replacement (matched : String) : List Char → Option (List Char)
  | [] => some []
  | '\\' :: c :: text => (replacement matched text).map fun rest => c :: rest
  | c :: text =>
    if c = '/' then none
    else (replacement matched text).map fun rest =>
      (if c = '&' then matched.toList else [c]) ++ rest

/-- `jq` also escapes the delete character. -/
def jqPoint (c : Char) : List Char :=
  if c.toNat = 127 then '\\' :: 'u' :: Json.hex4 127 else Json.escapePoint (.scalar c)

def jqString (s : String) : String := String.ofList ('"' :: s.toList.flatMap jqPoint ++ ['"'])

/-- `sed 's/\"//g'` -/
def deleteQuotes (s : String) : String := String.ofList (s.toList.filter fun c => c != '"')

/-- A string as `jq` prints it, less its double quotes. -/
def shown (s : String) : String := deleteQuotes (jqString s)

/-! ### Words -/

section Words
variable {cut : Char → Bool} {l : List String}

/-- A property of the characters of a fixed text is evaluated. -/
theorem forall_chars {l : List Char} {p : Char → Prop} [DecidablePred p]
    (h : (l.all fun c => decide (p c)) = true) : ∀ c ∈ l, p c := by
  intro c hc
  exact of_decide_eq_true (List.all_eq_true.mp h c hc)

theorem words_single {s : String} (hne : s ≠ "") (hcut : ∀ c ∈ s.toList, cut c = false) :
    words cut s = [s] := by
  have hlist : s.toList.isEmpty = false := by simpa using hne
  unfold words
  rw [List.splitOnP_eq_singleton hcut]
  simp [hlist]

theorem words_append_cons {s t : List Char} {sep : Char} (hsep : cut sep = true) :
    words cut (String.ofList (s ++ sep :: t)) =
      words cut (String.ofList s) ++ words cut (String.ofList t) := by
  unfold words
  simp only [String.toList_ofList, List.splitOnP_append_cons s t hsep, List.filter_append,
    List.map_append]

theorem fields_append (s t : String) : fields (s ++ " " ++ t) = fields s ++ fields t := by
  have htext : s ++ " " ++ t = String.ofList (s.toList ++ ' ' :: t.toList) := by
    apply String.ext
    simp
  rw [htext, fields, words_append_cons rfl, String.ofList_toList, String.ofList_toList]
  rfl

theorem words_intercalate {sep : Char} (hsep : cut sep = true) (hne : ∀ s ∈ l, s ≠ "")
    (hcut : ∀ s ∈ l, ∀ c ∈ s.toList, cut c = false) :
    words cut ((String.ofList [sep]).intercalate l) = l := by
  induction l with
  | nil => rfl
  | cons s l ih =>
    have hone := words_single (hne s (by simp)) (hcut s (by simp))
    cases l with
    | nil => simpa using hone
    | cons next l =>
      have hrest := ih (fun t ht => hne t (List.mem_cons_of_mem s ht))
        fun t ht => hcut t (List.mem_cons_of_mem s ht)
      have htext : (String.ofList [sep]).intercalate (s :: next :: l) = String.ofList
          (s.toList ++ sep :: ((String.ofList [sep]).intercalate (next :: l)).toList) := by
        apply String.ext
        simp
      rw [htext, words_append_cons hsep, String.ofList_toList, String.ofList_toList, hone, hrest]
      rfl

end Words

/-! ### Arrays -/

theorem readArray_intercalate {sep : Char} {l : List String} (hne : l ≠ [])
    (hentries : ∀ s ∈ l, s ≠ "" ∧ sep ∉ s.toList ∧ '\n' ∉ s.toList) (hsep : sep ≠ '\n') :
    readArray sep ((String.ofList [sep]).intercalate l) = l := by
  have hline : ((String.ofList [sep]).intercalate l).toList.takeWhile (fun c => c != '\n') =
      ((String.ofList [sep]).intercalate l).toList := by
    rw [List.takeWhile_eq_self_iff]
    intro c hc
    rw [bne_iff_ne]
    rintro rfl
    rcases Text.mem_intercalate hc with heq | ⟨s, hs, hmem⟩
    · exact hsep heq.symm
    · exact (hentries s hs).2.2 hmem
  have hsplit := Text.splitOn_intercalate hne fun s hs => (hentries s hs).2.1
  have hlast : (((String.ofList [sep]).intercalate l).toList.splitOn sep).getLast? ≠ some [] := by
    intro hend
    have hmem : "" ∈ l := by
      rw [← hsplit]
      exact List.mem_map.mpr ⟨[], List.mem_of_getLast? hend, rfl⟩
    exact (hentries "" hmem).1 rfl
  unfold readArray
  simp only [hline, if_neg hlast]
  exact hsplit

/-! ### Commands -/

theorem substitution_line {s : String} (h : '\n' ∉ s.toList) : substitution s = s := by
  have hkeep : s.toList.rdropWhile (fun c => c == '\n') = s.toList := by
    rw [List.rdropWhile_eq_self_iff]
    intro hne hlast
    have heq := eq_of_beq hlast
    exact h (heq ▸ List.getLast_mem hne)
  rw [substitution, hkeep, String.ofList_toList]

/-- Words do not depend on the newlines at the end. -/
theorem fields_substitution (s : String) : fields (substitution s) = fields s := by
  have hwords : ∀ t : List Char, fields (String.ofList (t.rdropWhile fun c => c == '\n')) =
      fields (String.ofList t) := by
    intro t
    induction t using List.reverseRecOn with
    | nil => rfl
    | append_singleton t c ih =>
      by_cases hc : c = '\n'
      · subst hc
        have hcut : fields (String.ofList (t ++ ['\n'])) =
            fields (String.ofList t) ++ fields (String.ofList []) := words_append_cons rfl
        have hempty : fields (String.ofList []) = [] := rfl
        rw [List.rdropWhile_concat_pos _ _ _ (by rfl), ih, hcut, hempty, List.append_nil]
      · rw [List.rdropWhile_concat_neg _ _ _ (by simpa using hc)]
  rw [substitution, hwords, String.ofList_toList]

theorem trDelete_eq {deleted : List Char} {s : String} (h : ∀ c ∈ s.toList, c ∉ deleted) :
    trDelete deleted s = s := by
  have hkeep : s.toList.filter (fun c => decide (c ∉ deleted)) = s.toList := by
    rw [List.filter_eq_self]
    intro c hc
    simpa using h c hc
  rw [trDelete, hkeep, String.ofList_toList]

theorem tr_append (a b : Char) (s t : String) : tr a b (s ++ t) = tr a b s ++ tr a b t := by
  apply String.ext
  simp [tr]

theorem tr_eq {a b : Char} {s : String} (h : a ∉ s.toList) : tr a b s = s := by
  have hkeep : s.toList.map (fun c => if c = a then b else c) = s.toList.map id := by
    apply List.map_congr_left
    intro c hc
    apply if_neg
    rintro rfl
    exact h hc
  rw [tr, hkeep, List.map_id, String.ofList_toList]

theorem tr_intercalate {a b : Char} {l : List String} (h : ∀ s ∈ l, a ∉ s.toList) :
    tr a b ((String.ofList [a]).intercalate l) = (String.ofList [b]).intercalate l := by
  induction l with
  | nil => rfl
  | cons s l ih =>
    have hfirst := tr_eq (b := b) (h s (List.mem_cons_self ..))
    cases l with
    | nil => simpa using hfirst
    | cons next l =>
      have hsep : tr a b (String.ofList [a]) = String.ofList [b] := by simp [tr]
      rw [String.intercalate_cons_cons, String.intercalate_cons_cons, tr_append, tr_append, hfirst,
        hsep, ih fun t ht => h t (List.mem_cons_of_mem s ht)]

theorem lines_single {s : String} (h : '\n' ∉ s.toList) : lines s = [s] := by
  have hsplit : s.toList.splitOn '\n' = [s.toList] := by
    rw [List.splitOn_eq_splitOnP]
    apply List.splitOnP_eq_singleton
    intro c hc
    rw [beq_eq_false_iff_ne]
    rintro rfl
    exact h hc
  rw [lines, hsplit, List.map_singleton, String.ofList_toList]

theorem replacement_plain {matched : String} {text : List Char}
    (h : ∀ c ∈ text, c ≠ '/' ∧ c ≠ '&' ∧ c ≠ '\\') : replacement matched text = some text := by
  induction text with
  | nil => rfl
  | cons c text ih =>
    obtain ⟨hslash, hand, hback⟩ := h c (List.mem_cons_self ..)
    have hrest := ih fun d hd => h d (List.mem_cons_of_mem c hd)
    unfold replacement
    split
    · next heq => cases heq
    · next heq => exact absurd (List.cons.inj heq).1 hback
    · next heq =>
      obtain ⟨rfl, rfl⟩ := List.cons.inj heq
      rw [if_neg hslash, hrest, if_neg hand]
      rfl

/-! ### What jq shows -/

/-- The character is printed as it is. -/
def Plain (c : Char) : Prop := c ≠ '"' ∧ c ≠ '\\' ∧ 32 ≤ c.toNat ∧ c.toNat ≠ 127

instance (c : Char) : Decidable (Plain c) :=
  inferInstanceAs (Decidable (c ≠ '"' ∧ c ≠ '\\' ∧ 32 ≤ c.toNat ∧ c.toNat ≠ 127))

theorem jqPoint_plain {c : Char} (hc : Plain c) : jqPoint c = [c] := by
  obtain ⟨hquote, hbackslash, hlow, hdelete⟩ := hc
  have hcontrol : c.toNat ≠ 8 ∧ c.toNat ≠ 9 ∧ c.toNat ≠ 10 ∧ c.toNat ≠ 12 ∧ c.toNat ≠ 13 := by
    omega
  simp [jqPoint, Json.escapePoint, hquote, hbackslash, hdelete, hcontrol, Nat.not_lt.mpr hlow]

theorem isAlphanum_hex4 {n : ℕ} {c : Char} (hc : c ∈ Json.hex4 n) : c.isAlphanum = true := by
  have hdigit : ∀ d < 16, (Nat.digitChar d).isAlphanum = true := by decide
  simp only [Json.hex4, List.mem_cons, List.not_mem_nil, or_false] at hc
  rcases hc with rfl | rfl | rfl | rfl
  all_goals exact hdigit _ (Nat.mod_lt _ (by omega))

theorem mem_jqPoint {c d : Char} (hc : c ∈ jqPoint d) (hquote : c ≠ '"') :
    c = d ∨ c = '\\' ∨ c.isAlphanum = true := by
  have hshort : ∀ e, e = '"' ∨ e = '\\' ∨ e.isAlphanum = true → c ∈ ['\\', e] →
      c = d ∨ c = '\\' ∨ c.isAlphanum = true := by
    intro e he hmem
    simp only [List.mem_cons, List.not_mem_nil, or_false] at hmem
    rcases hmem with rfl | rfl
    · exact .inr (.inl rfl)
    · exact .inr (he.resolve_left hquote)
  have hhex : ∀ n, c ∈ '\\' :: 'u' :: Json.hex4 n →
      c = d ∨ c = '\\' ∨ c.isAlphanum = true := by
    intro n hmem
    simp only [List.mem_cons] at hmem
    rcases hmem with rfl | rfl | hmem
    · exact .inr (.inl rfl)
    · exact .inr (.inr rfl)
    · exact .inr (.inr (isAlphanum_hex4 hmem))
  simp only [jqPoint, Json.escapePoint] at hc
  split_ifs at hc
  · exact hhex _ hc
  · exact hshort '"' (.inl rfl) hc
  · exact hshort '\\' (.inr (.inl rfl)) hc
  · exact hshort 'b' (.inr (.inr rfl)) hc
  · exact hshort 't' (.inr (.inr rfl)) hc
  · exact hshort 'n' (.inr (.inr rfl)) hc
  · exact hshort 'f' (.inr (.inr rfl)) hc
  · exact hshort 'r' (.inr (.inr rfl)) hc
  · exact hhex _ hc
  · exact .inl (List.mem_singleton.mp hc)

theorem backslash_jqPoint {c : Char} (hc : ¬ Plain c) : '\\' ∈ jqPoint c := by
  simp only [jqPoint, Json.escapePoint]
  split_ifs with hdelete hquote hbackslash hback htab hnew hfeed hreturn hlow
  · exact List.mem_cons_self ..
  · exact List.mem_cons_self ..
  · exact List.mem_cons_self ..
  · exact List.mem_cons_self ..
  · exact List.mem_cons_self ..
  · exact List.mem_cons_self ..
  · exact List.mem_cons_self ..
  · exact List.mem_cons_self ..
  · exact List.mem_cons_self ..
  · exact absurd ⟨hquote, hbackslash, Nat.le_of_not_lt hlow, hdelete⟩ hc

theorem toList_shown (s : String) :
    (shown s).toList = (s.toList.flatMap jqPoint).filter fun c => c != '"' := by
  simp [shown, deleteQuotes, jqString]

theorem shown_quote (s : String) : '"' ∉ (shown s).toList := by
  rw [toList_shown]
  simp

theorem mem_shown {s : String} {c : Char} (hc : c ∈ (shown s).toList) :
    c ∈ s.toList ∨ c = '\\' ∨ c.isAlphanum = true := by
  rw [toList_shown] at hc
  obtain ⟨hmem, hquote⟩ := List.mem_filter.mp hc
  obtain ⟨d, hd, hpoint⟩ := List.mem_flatMap.mp hmem
  rcases mem_jqPoint hpoint (by simpa using hquote) with rfl | hescape
  · exact .inl hd
  · exact .inr hescape

theorem shown_plain {s : String} (hs : ∀ c ∈ s.toList, Plain c) : shown s = s := by
  have hpoints : s.toList.flatMap jqPoint = s.toList := by
    rw [List.flatMap_congr fun c hc => jqPoint_plain (hs c hc)]
    simp
  apply String.ext
  rw [toList_shown, hpoints, List.filter_eq_self]
  intro c hc
  simpa using (hs c hc).1

theorem shown_append (s t : String) : shown (s ++ t) = shown s ++ shown t := by
  apply String.ext
  simp [toList_shown]

theorem shown_intercalate (sep : String) (l : List String) :
    shown (sep.intercalate l) = (shown sep).intercalate (l.map shown) := by
  induction l with
  | nil =>
    apply String.ext
    simp [toList_shown]
  | cons s l ih =>
    cases l with
    | nil => simp
    | cons next l =>
      rw [String.intercalate_cons_cons, shown_append, shown_append, ih]
      simp

end Archipel.Shell
