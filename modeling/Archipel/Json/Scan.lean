import Archipel.Json

/-!
# Reading a JSON text without parsing it

A leftmost search for `"word":` followed by something readable, or for a bare
word, over the text of a JSON value. What it finds first is what a walk over the
value in the order of the text finds first: it sees the keys that end in `word`
at every depth, and the bare word inside keys and strings too.
-/

namespace Archipel.Json

variable {β : Type}

/-- The leftmost match. -/
def search (at_ : List Char → Option β) : List Char → Option β
  | [] => none
  | c :: t => (at_ (c :: t)).or (search at_ t)

/-- What follows `"word":` at the start of the text. -/
def afterKey (word t : List Char) : Option (List Char) :=
  ('"' :: word ++ ['"', ':']).isPrefixOf? t

def look (word : List Char) (value bare : List Char → Option β) (t : List Char) : Option β :=
  ((afterKey word t).bind value).or (bare t)

/-- The key, with its opening quote, ends in `"word`. -/
def Keyed (word : List Char) (key : Text) : Prop := '"' :: word <:+ '"' :: escape key

instance (word : List Char) (key : Text) : Decidable (Keyed word key) :=
  inferInstanceAs (Decidable (_ <:+ _))

section Read
variable (word : List Char) (field : Value → Option β) (bare : List Char → Option β)

mutual

/-- The first match in the order of the text. -/
def read : Value → Option β
  | .null => search bare "null".toList
  | .bool true => search bare "true".toList
  | .bool false => search bare "false".toList
  | .number n => search bare n.text
  | .string s => search bare (escape s)
  | .array items => readItems items
  | .object fields => readFields fields

def readItems : List Value → Option β
  | [] => none
  | item :: items => (read item).or (readItems items)

def readFields : List (Text × Value) → Option β
  | [] => none
  | (key, value) :: fields => (search bare (escape key)).or
      ((if Keyed word key then field value else none).or ((read value).or (readFields fields)))

end

end Read

/-! ### The conditions on the patterns -/

/-- The bare pattern has no match across a mark. -/
structure Bare (bare : List Char → Option β) : Prop where
  nil : bare [] = none
  mark : ∀ x d u, d ∈ marks → bare (x ++ d :: u) = bare x

/-- The keyed pattern reads the value and stops. -/
def Fielded (value : List Char → Option β) (field : Value → Option β) : Prop :=
  ∀ v t, Closing t → value (stringify v ++ t) = field v

/-- A word of letters. -/
structure Word (word : List Char) : Prop where
  letters : ∀ c ∈ word, c ∉ marks ∧ c ≠ '\\'
  nonempty : word ≠ []

/-- A bare word. -/
def bareWord (word : List Char) (b : β) (t : List Char) : Option β :=
  if word <+: t then some b else none

theorem isPrefix_mark {word : List Char} {d : Char} (hd : d ∉ word) (x u : List Char) :
    word <+: x ++ d :: u ↔ word <+: x := by
  induction word generalizing x with
  | nil => simp
  | cons a word ih =>
    have hne : a ≠ d := fun h => hd (by simp [h])
    have hrest : d ∉ word := fun h => hd (by simp [h])
    cases x with
    | nil => simp [List.cons_prefix_cons, hne]
    | cons c x =>
      rw [List.cons_append, List.cons_prefix_cons, List.cons_prefix_cons, ih hrest]

theorem bare_bareWord {word : List Char} (hword : Word word) (b : β) :
    Bare (bareWord word b) := by
  constructor
  · simp [bareWord, hword.nonempty]
  · intro x d u hd
    have hnot : d ∉ word := fun h => (hword.letters d h).1 hd
    unfold bareWord
    by_cases h : word <+: x
    · rw [if_pos h, if_pos ((isPrefix_mark hnot x u).mpr h)]
    · rw [if_neg h, if_neg fun h' => h ((isPrefix_mark hnot x u).mp h')]

theorem bare_none : Bare (fun _ => none : List Char → Option β) := ⟨rfl, fun _ _ _ _ => rfl⟩

@[simp] theorem search_none (t : List Char) :
    search (fun _ => none : List Char → Option β) t = none := by
  induction t with
  | nil => rfl
  | cons c t ih => simp [search, ih]

section Search
variable {word : List Char} {value bare : List Char → Option β} {field : Value → Option β}

theorem bare_mark (hb : Bare bare) {d : Char} (hd : d ∈ marks) (u : List Char) :
    bare (d :: u) = none := (hb.mark [] d u hd).trans hb.nil

theorem afterKey_other {c : Char} (hc : c ≠ '"') (t : List Char) :
    afterKey word (c :: t) = none := by
  simp [afterKey, List.isPrefixOf?, hc.symm]

theorem look_other {c : Char} (hc : c ≠ '"') (t : List Char) :
    look word value bare (c :: t) = bare (c :: t) := by
  simp [look, afterKey_other hc]

theorem search_mark (hb : Bare bare) {d : Char} (hd : d ∈ marks) (hquote : d ≠ '"')
    (u : List Char) :
    search (look word value bare) (d :: u) = search (look word value bare) u := by
  simp [search, look_other hquote, bare_mark hb hd]

/-- Over a text without quotes only the bare pattern matches. -/
theorem search_plain (hb : Bare bare) {x t : List Char} (hx : ∀ c ∈ x, c ≠ '"')
    (ht : Closing t) :
    search (look word value bare) (x ++ t) =
      (search bare x).or (search (look word value bare) t) := by
  induction x with
  | nil => simp [search]
  | cons c x ih =>
    have hc := hx c (by simp)
    have hlocal : bare (c :: (x ++ t)) = bare (c :: x) := by
      rcases ht with rfl | ⟨d, u, rfl, hd⟩
      · rw [List.append_nil]
      · exact hb.mark (c :: x) d u (by simp [marks] at hd ⊢; tauto)
    simp only [List.cons_append, search]
    rw [look_other hc, hlocal, ih fun d hd => hx d (by simp [hd]), Option.or_assoc]

/-! ### Strings and keys -/

def afterColon : List Char → Option (List Char)
  | ':' :: t => some t
  | _ => none

theorem isPrefixOf?_quote (hword : ∀ c ∈ word, c ∉ marks ∧ c ≠ '\\') {prev : Char}
    (hprev : prev ≠ '\\') {x : List Char} (hx : Guarded prev x) (u : List Char) :
    (word ++ ['"', ':']).isPrefixOf? (x ++ '"' :: u) =
      if x = word then afterColon u else none := by
  induction word generalizing prev x with
  | nil =>
    cases x with
    | nil =>
      cases u with
      | nil => rfl
      | cons d u =>
        by_cases hd : d = ':'
        · subst hd
          rfl
        · have hcolon : afterColon (d :: u) = none := by
            unfold afterColon
            split
            · next heq => exact absurd (List.cons.inj heq).1 hd
            · rfl
          have hne : ¬ ':' = d := fun h => hd h.symm
          simp [List.isPrefixOf?, hcolon, hne]
    | cons c x =>
      have hc : ¬ '"' = c := fun h => hprev (hx.1 h.symm)
      simp [List.isPrefixOf?, hc]
  | cons a word ih =>
    have ha := hword a (by simp)
    cases x with
    | nil =>
      have hne : ¬ a = '"' := fun h => ha.1 (by simp [h, marks])
      simp [List.isPrefixOf?, hne]
    | cons c x =>
      by_cases hac : a = c
      · subst hac
        have hrest := ih (fun d hd => hword d (by simp [hd])) ha.2 hx.2
        simpa [List.isPrefixOf?] using hrest
      · have hca : ¬ c = a := fun h => hac h.symm
        simp [List.isPrefixOf?, hac, hca]

theorem afterKey_quote (hword : Word word) {x : List Char} (hx : Guarded '"' x) (u : List Char) :
    afterKey word ('"' :: (x ++ '"' :: u)) = if x = word then afterColon u else none := by
  have hprefix := isPrefixOf?_quote hword.letters (by decide) hx u
  simpa [afterKey, List.isPrefixOf?] using hprefix

/-- The closing quote of a string begins no key. -/
theorem look_closing (hword : Word word) (hb : Bare bare) {u : List Char}
    (hu : u = [] ∨ ∃ d t, u = d :: t ∧ d ∈ marks) :
    look word value bare ('"' :: u) = none := by
  have hafter : afterKey word ('"' :: u) = none := by
    obtain ⟨a, w, hw⟩ := List.exists_cons_of_ne_nil hword.nonempty
    rcases hu with rfl | ⟨d, t, rfl, hd⟩
    · simp [afterKey, hw, List.isPrefixOf?]
    · have hne : ¬ a = d := fun h => (hword.letters a (by simp [hw])).1 (h ▸ hd)
      simp [afterKey, hw, List.isPrefixOf?, hne]
  simp [look, hafter, bare_mark hb (d := '"') (by simp [marks])]

/-- Over the inside of a string, from any point on. -/
theorem search_inside (hword : Word word) (hb : Bare bare)
    (hown : search bare ('"' :: word) = none) {prev : Char} {x : List Char} (hx : Guarded prev x)
    {u : List Char} (hu : u = [] ∨ ∃ d t, u = d :: t ∧ d ∈ marks) :
    search (look word value bare) (x ++ '"' :: u) = (search bare x).or
      ((if '"' :: word <:+ x then (afterColon u).bind value else none).or
        (search (look word value bare) u)) := by
  induction x generalizing prev with
  | nil =>
    simp [search, look_closing hword hb hu]
  | cons c x ih =>
    have hrest := ih hx.2
    have hlocal : bare (c :: (x ++ '"' :: u)) = bare (c :: x) :=
      hb.mark (c :: x) '"' u (by simp [marks])
    by_cases hc : c = '"'
    · subst hc
      have hnone : bare ('"' :: x) = none := bare_mark hb (by simp [marks]) x
      have hafter := afterKey_quote hword hx.2 u
      have hsuffix : '"' :: word <:+ '"' :: x ↔ x = word ∨ '"' :: word <:+ x := by
        rw [List.suffix_cons_iff, List.cons.injEq]
        constructor
        · rintro (⟨-, h⟩ | h)
          · exact .inl h.symm
          · exact .inr h
        · rintro (h | h)
          · exact .inl ⟨rfl, h.symm⟩
          · exact .inr h
      simp only [List.cons_append, search]
      rw [look, hafter, hlocal, hnone, hrest]
      by_cases hxw : x = word
      · have hno : ¬ '"' :: word <:+ x := by
          intro h
          have hlen := h.length_le
          rw [hxw, List.length_cons] at hlen
          omega
        have hclean : search bare x = none := by
          rw [hxw]
          simpa [search, bare_mark hb (d := '"') (by simp [marks])] using hown
        rw [if_pos hxw, if_pos (hsuffix.mpr (.inl hxw)), if_neg hno, hclean]
        simp
      · rw [if_neg hxw]
        by_cases hs : '"' :: word <:+ x
        · rw [if_pos hs, if_pos (hsuffix.mpr (.inr hs))]
          simp
        · rw [if_neg hs, if_neg fun h => (hsuffix.mp h).elim hxw hs]
          simp
    · have hsuffix : '"' :: word <:+ c :: x ↔ '"' :: word <:+ x := by
        rw [List.suffix_cons_iff, List.cons.injEq]
        constructor
        · rintro (⟨h, -⟩ | h)
          · exact absurd h.symm hc
          · exact h
        · exact .inr
      simp only [List.cons_append, search]
      rw [look_other hc, hlocal, hrest, Option.or_assoc]
      by_cases hs : '"' :: word <:+ x
      · rw [if_pos hs, if_pos (hsuffix.mpr hs)]
      · rw [if_neg hs, if_neg fun h => hs (hsuffix.mp h)]

/-- Over a whole string and what follows it. -/
theorem search_quoted (hword : Word word) (hb : Bare bare)
    (hown : search bare ('"' :: word) = none) (s : Text) {u : List Char}
    (hu : u = [] ∨ ∃ d t, u = d :: t ∧ d ∈ marks) :
    search (look word value bare) (quoted s ++ u) = (search bare (escape s)).or
      ((if Keyed word s then (afterColon u).bind value else none).or
        (search (look word value bare) u)) := by
  have hguard : Guarded '\\' ('"' :: escape s) := ⟨fun _ => rfl, guarded_escape s '"'⟩
  have hinside : search (look word value bare) ('"' :: escape s ++ '"' :: u) = _ :=
    search_inside hword hb hown hguard hu
  have hopen : search bare ('"' :: escape s) = search bare (escape s) := by
    simp [search, bare_mark hb (d := '"') (by simp [marks])]
  rw [hopen] at hinside
  have hquoted : quoted s ++ u = '"' :: escape s ++ '"' :: u := by simp [quoted]
  rw [hquoted]
  exact hinside

theorem search_key (hword : Word word) (hb : Bare bare)
    (hown : search bare ('"' :: word) = none) (hf : Fielded value field) (key : Text) (v : Value)
    {t : List Char} (ht : Closing t) :
    search (look word value bare) (quoted key ++ ':' :: (stringify v ++ t)) =
      (search bare (escape key)).or ((if Keyed word key then field v else none).or
        (search (look word value bare) (stringify v ++ t))) := by
  rw [search_quoted hword hb hown key (.inr ⟨':', _, rfl, by simp [marks]⟩),
    search_mark hb (by simp [marks]) (by decide)]
  simp only [afterColon, Option.bind_some]
  rw [hf v t ht]

end Search

/-! ### Values -/

theorem number_plain (n : Number) : ∀ c ∈ n.text, c ≠ '"' := by
  intro c hc hquote
  have hmem := n.chars c hc
  rw [hquote] at hmem
  exact absurd hmem (by decide)

section Values
variable {word : List Char} {value bare : List Char → Option β} {field : Value → Option β}

mutual

theorem search_value (hword : Word word) (hb : Bare bare)
    (hown : search bare ('"' :: word) = none) (hf : Fielded value field) :
    ∀ (v : Value) {t : List Char}, Closing t →
      search (look word value bare) (stringify v ++ t) =
        (read word field bare v).or (search (look word value bare) t)
  | .null, t, ht => by
    rw [stringify, read]
    exact search_plain hb (by simp) ht
  | .bool true, t, ht => by
    rw [stringify, read]
    exact search_plain hb (by simp) ht
  | .bool false, t, ht => by
    rw [stringify, read]
    exact search_plain hb (by simp) ht
  | .number n, t, ht => by
    rw [stringify, read]
    exact search_plain hb (number_plain n) ht
  | .string s, t, ht => by
    have hmark : t = [] ∨ ∃ d u, t = d :: u ∧ d ∈ marks := by
      rcases ht with h | ⟨c, u, h, hc⟩
      · exact .inl h
      · exact .inr ⟨c, u, h, by simp [marks] at hc ⊢; tauto⟩
    have hcolon : afterColon t = none := by
      rcases ht with rfl | ⟨c, u, rfl, hc⟩
      · rfl
      · simp only [List.mem_cons, List.not_mem_nil, or_false] at hc
        rcases hc with rfl | rfl | rfl <;> rfl
    rw [stringify, read, search_quoted hword hb hown s hmark, hcolon]
    simp
  | .array [], t, ht => by
    rw [stringify, read, readItems, List.cons_append, search_mark hb (by simp [marks]) (by decide),
      List.cons_append, search_mark hb (by simp [marks]) (by decide)]
    rfl
  | .array (item :: items), t, ht => by
    rw [stringify, read, readItems, List.cons_append, search_mark hb (by simp [marks]) (by decide),
      List.append_assoc, search_value hword hb hown hf item (closing_moreItems items t),
      search_moreItems hword hb hown hf items ht, Option.or_assoc]
  | .object [], t, ht => by
    rw [stringify, read, readFields, List.cons_append,
      search_mark hb (by simp [marks]) (by decide), List.cons_append,
      search_mark hb (by simp [marks]) (by decide)]
    rfl
  | .object ((key, v) :: fields), t, ht => by
    rw [stringify, read, readFields, List.cons_append,
      search_mark hb (by simp [marks]) (by decide), List.append_assoc, List.cons_append,
      List.append_assoc, search_key hword hb hown hf key v (closing_moreFields fields t),
      search_value hword hb hown hf v (closing_moreFields fields t),
      search_moreFields hword hb hown hf fields ht]
    simp only [Option.or_assoc]

theorem search_moreItems (hword : Word word) (hb : Bare bare)
    (hown : search bare ('"' :: word) = none) (hf : Fielded value field) :
    ∀ (items : List Value) {t : List Char}, Closing t →
      search (look word value bare) (moreItems items ++ t) =
        (readItems word field bare items).or (search (look word value bare) t)
  | [], t, ht => by
    rw [moreItems, readItems, List.singleton_append, search_mark hb (by simp [marks]) (by decide)]
    rfl
  | item :: items, t, ht => by
    rw [moreItems, readItems, List.cons_append, search_mark hb (by simp [marks]) (by decide),
      List.append_assoc, search_value hword hb hown hf item (closing_moreItems items t),
      search_moreItems hword hb hown hf items ht, Option.or_assoc]

theorem search_moreFields (hword : Word word) (hb : Bare bare)
    (hown : search bare ('"' :: word) = none) (hf : Fielded value field) :
    ∀ (fields : List (Text × Value)) {t : List Char}, Closing t →
      search (look word value bare) (moreFields fields ++ t) =
        (readFields word field bare fields).or (search (look word value bare) t)
  | [], t, ht => by
    rw [moreFields, readFields, List.singleton_append,
      search_mark hb (by simp [marks]) (by decide)]
    rfl
  | (key, v) :: fields, t, ht => by
    rw [moreFields, readFields, List.cons_append,
      search_mark hb (by simp [marks]) (by decide), List.append_assoc, List.cons_append,
      List.append_assoc, search_key hword hb hown hf key v (closing_moreFields fields t),
      search_value hword hb hown hf v (closing_moreFields fields t),
      search_moreFields hword hb hown hf fields ht]
    simp only [Option.or_assoc]

end

/-- The search over the text of a value finds what the walk over it finds. -/
theorem search_stringify (hword : Word word) (hb : Bare bare)
    (hown : search bare ('"' :: word) = none) (hf : Fielded value field) (v : Value) :
    search (look word value bare) (stringify v) = read word field bare v := by
  have hsearch := search_value hword hb hown hf v (t := []) (.inl rfl)
  rw [List.append_nil] at hsearch
  rw [hsearch]
  simp [search]

theorem readFields_append (fields more : List (Text × Value)) :
    readFields word field bare (fields ++ more) =
      (readFields word field bare fields).or (readFields word field bare more) := by
  induction fields with
  | nil => simp [readFields]
  | cons entry fields ih =>
    obtain ⟨key, v⟩ := entry
    rw [List.cons_append, readFields, readFields, ih]
    simp only [Option.or_assoc]

end Values

/-! ### Fields -/

/-- The fields written before that of the key. -/
def before (key : Text) (fields : List (Text × Value)) : List (Text × Value) :=
  fields.takeWhile fun entry => entry.1 ≠ key

theorem lookup_split {key : Text} {v : Value} {fields : List (Text × Value)}
    (h : fields.lookup key = some v) :
    ∃ after, fields = before key fields ++ (key, v) :: after := by
  induction fields with
  | nil => cases h
  | cons entry fields ih =>
    obtain ⟨k, w⟩ := entry
    by_cases hk : k = key
    · subst hk
      have hw : w = v := by simpa using h
      exact ⟨fields, by simp [before, hw]⟩
    · have hlookup : fields.lookup key = some v := by
        have hbeq : (key == k) = false := by simpa using fun h => hk h.symm
        rw [List.lookup_cons, hbeq] at h
        exact h
      obtain ⟨after, hafter⟩ := ih hlookup
      refine ⟨after, ?_⟩
      have hbefore : before key ((k, w) :: fields) = (k, w) :: before key fields := by
        simp [before, hk]
      rw [hbefore, List.cons_append, ← hafter]

theorem key_infix_moreFields {key : Text} {v : Value} {fields : List (Text × Value)}
    (h : (key, v) ∈ fields) : quoted key ++ [':'] <:+: moreFields fields := by
  induction fields with
  | nil => cases h
  | cons entry fields ih =>
    obtain ⟨k, w⟩ := entry
    rcases List.mem_cons.mp h with heq | hmem
    · cases heq
      exact ⟨[','], stringify v ++ moreFields fields, by simp [moreFields]⟩
    · have htail : moreFields fields <:+ moreFields ((k, w) :: fields) :=
        ⟨',' :: (quoted k ++ ':' :: stringify w), by simp [moreFields]⟩
      exact (ih hmem).trans htail.isInfix

theorem key_infix {key : Text} {v : Value} {fields : List (Text × Value)}
    (h : (key, v) ∈ fields) : quoted key ++ [':'] <:+: stringify (.object fields) := by
  cases fields with
  | nil => cases h
  | cons entry fields =>
    obtain ⟨k, w⟩ := entry
    rcases List.mem_cons.mp h with heq | hmem
    · cases heq
      exact ⟨['{'], stringify v ++ moreFields fields, by simp [stringify]⟩
    · have htail : moreFields fields <:+ stringify (.object ((k, w) :: fields)) :=
        ⟨'{' :: (quoted k ++ ':' :: stringify w), by simp [stringify]⟩
      exact (key_infix_moreFields hmem).trans htail.isInfix

end Archipel.Json
