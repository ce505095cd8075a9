import Mathlib.Data.List.Basic
import Mathlib.Data.List.Induction
import Mathlib.Data.Nat.Notation
import Mathlib.Tactic.Ring

/-!
# File systems with symbolic links

A file system is a finite tree of directories, files and symbolic links, given by
the kind of the entry at each place. A path is resolved from the root, links are
followed up to a bound, and removing takes away one entry that has none below.
What resolves in a part of a file system resolves in the whole to the same place.
-/

namespace Archipel.FileSystem

inductive Errno where
  | ENOENT
  | ENOTDIR
  | ELOOP
  | ENOTEMPTY
  | EISDIR
  | EEXIST
  | EBUSY
  deriving DecidableEq

variable {N : Type} [DecidableEq N]

/-- A step of a path: to the directory above or to the entry of this name. -/
inductive Step (N : Type) where
  | up
  | name (n : N)
  deriving DecidableEq

inductive Kind (N : Type) where
  | file
  | dir
  | link (absolute : Bool) (target : List (Step N))
  deriving DecidableEq

/-- The entries by their places; a place is the list of the names from the root. -/
structure FileTree (N : Type) [DecidableEq N] where
  entries : List (List N × Kind N)
  nodup : (entries.map Prod.fst).Nodup
  root : entries.lookup [] = some .dir
  parent : ∀ place name, (entries.lookup (place ++ [name])).isSome = true →
    entries.lookup place = some .dir

def FileTree.kind (t : FileTree N) (place : List N) : Option (Kind N) := t.entries.lookup place

/-- The names in the directory at a place. -/
def FileTree.names (t : FileTree N) (place : List N) : List N :=
  t.entries.filterMap fun entry =>
    if entry.1.dropLast = place then entry.1.getLast? else none

/-! ### Resolving a path -/

/-- Follow the steps from a place; `jump` goes on behind a link. -/
def walk (t : FileTree N) (jump : List N → List (Step N) → Except Errno (List N × ℕ)) (links : ℕ) :
    List N → List (Step N) → Except Errno (List N × ℕ)
  | place, [] => .ok (place, links)
  | place, .up :: rest =>
    if t.kind place = some .dir then walk t jump links place.dropLast rest else .error .ENOTDIR
  | place, .name n :: rest =>
    if t.kind place = some .dir then
      match t.kind (place ++ [n]) with
      | none => .error .ENOENT
      | some (.link absolute target) => jump (if absolute then [] else place) (target ++ rest)
      | some .file => walk t jump links (place ++ [n]) rest
      | some .dir => walk t jump links (place ++ [n]) rest
    else .error .ENOTDIR

/-- The place of a path and how many links may still be followed. -/
def resolve (t : FileTree N) : ℕ → List N → List (Step N) → Except Errno (List N × ℕ)
  | 0 => walk t (fun _ _ => .error .ELOOP) 0
  | links + 1 => walk t (resolve t links) (links + 1)

def maxLinks : ℕ := 40

/-- The place that a path leads to. -/
def follow (t : FileTree N) (path : List (Step N)) : Except Errno (List N) :=
  (resolve t maxLinks [] path).map Prod.fst

/-- The place of the entry that a path names, which may be a link. -/
def locate (t : FileTree N) (path : List (Step N)) : Except Errno (List N) :=
  match path.getLast? with
  | some (.name n) => do
    let place ← follow t path.dropLast
    if t.kind place = some .dir then pure (place ++ [n]) else throw .ENOTDIR
  | _ => follow t path

/-- Whether a path leads to a directory. -/
def isDirectory (t : FileTree N) (path : List (Step N)) : Except Errno Bool :=
  (follow t path).map fun place => decide (t.kind place = some .dir)

/-- The names in the directory that a path leads to. -/
def readdir (t : FileTree N) (path : List (Step N)) : Except Errno (List N) := do
  let place ← follow t path
  if t.kind place = some .dir then pure (t.names place) else throw .ENOTDIR

/-! ### Changing the tree -/

theorem mem_names {t : FileTree N} {place : List N} {n : N} :
    n ∈ t.names place ↔ (t.kind (place ++ [n])).isSome = true := by
  rw [FileTree.names, List.mem_filterMap, FileTree.kind, List.lookup_isSome_iff]
  constructor
  · rintro ⟨entry, hentry, hn⟩
    split at hn
    · next hdrop =>
      obtain ⟨above, habove⟩ := List.getLast?_eq_some_iff.mp hn
      refine ⟨entry, hentry, ?_⟩
      rw [← hdrop, habove]
      simp
    · cases hn
  · rintro ⟨entry, hentry, hplace⟩
    have hplace' : place ++ [n] = entry.1 := by simpa using hplace
    refine ⟨entry, hentry, ?_⟩
    rw [← hplace']
    simp

theorem lookup_filter_ne {α β : Type} [BEq α] [LawfulBEq α] [DecidableEq α] (l : List (α × β))
    (a b : α) :
    (l.filter fun entry => entry.1 ≠ a).lookup b = if b = a then none else l.lookup b := by
  induction l with
  | nil => simp
  | cons entry l ih =>
    obtain ⟨key, value⟩ := entry
    by_cases hkey : key = a
    · subst hkey
      rw [List.filter_cons_of_neg (by simp), ih]
      by_cases hb : b = key
      · simp [hb]
      · have hne : (b == key) = false := by simpa using hb
        rw [if_neg hb, if_neg hb, List.lookup_cons, hne]
    · rw [List.filter_cons_of_pos (by simpa using hkey), List.lookup_cons, List.lookup_cons, ih]
      by_cases hb : b = key
      · simp [hb, hkey]
      · have hne : (b == key) = false := by simpa using hb
        rw [hne]

/-- Without the entry at this place, which is not the root and has none below. -/
def FileTree.remove (t : FileTree N) (place : List N) : FileTree N :=
  if h : place ≠ [] ∧ t.names place = [] then {
    entries := t.entries.filter fun entry => entry.1 ≠ place
    nodup := t.nodup.sublist (List.filter_sublist.map Prod.fst)
    root := by
      rw [lookup_filter_ne, if_neg h.1.symm]
      exact t.root
    parent := by
      intro above name hsome
      rw [lookup_filter_ne] at hsome ⊢
      split at hsome
      · cases hsome
      · have hne : above ≠ place := by
          rintro rfl
          have hname : name ∈ t.names above := mem_names.mpr hsome
          rw [h.2] at hname
          cases hname
        rw [if_neg hne]
        exact t.parent above name hsome }
  else t

/-- With a new directory of this name in the directory at a place. -/
def FileTree.add (t : FileTree N) (place : List N) (n : N) : FileTree N :=
  if h : t.kind place = some .dir ∧ t.kind (place ++ [n]) = none then {
    entries := (place ++ [n], .dir) :: t.entries
    nodup := by
      rw [List.map_cons, List.nodup_cons]
      refine ⟨?_, t.nodup⟩
      intro hmem
      obtain ⟨entry, hentry, hplace⟩ := List.mem_map.mp hmem
      have hnone := List.lookup_eq_none_iff.mp h.2 entry hentry
      rw [hplace] at hnone
      simp at hnone
    root := by
      have hne : (([] : List N) == place ++ [n]) = false := by simp
      rw [List.lookup_cons, hne]
      exact t.root
    parent := by
      intro above name hsome
      rw [List.lookup_cons] at hsome
      have habove : t.kind above = some .dir := by
        by_cases hnew : above ++ [name] = place ++ [n]
        · rw [(List.append_inj' hnew rfl).1]
          exact h.1
        · have hne : (above ++ [name] == place ++ [n]) = false := beq_eq_false_iff_ne.mpr hnew
          rw [hne] at hsome
          exact t.parent above name hsome
      have hne : (above == place ++ [n]) = false := by
        rw [beq_eq_false_iff_ne]
        rintro rfl
        rw [h.2] at habove
        cases habove
      rw [List.lookup_cons, hne]
      exact habove }
  else t

/-- `unlink` -/
def unlink (t : FileTree N) (path : List (Step N)) : Except Errno (FileTree N) := do
  let place ← locate t path
  match t.kind place with
  | none => throw .ENOENT
  | some .dir => throw .EISDIR
  | some .file => pure (t.remove place)
  | some (.link _ _) => pure (t.remove place)

/-- `rmdir` -/
def rmdir (t : FileTree N) (path : List (Step N)) : Except Errno (FileTree N) :=
  match path.getLast? with
  | none => throw .EBUSY
  | some .up => throw .ENOTEMPTY
  | some (.name _) => do
    let place ← locate t path
    match t.kind place with
    | none => throw .ENOENT
    | some .dir => if t.names place = [] then pure (t.remove place) else throw .ENOTEMPTY
    | some .file => throw .ENOTDIR
    | some (.link _ _) => throw .ENOTDIR

/-- `mkdir` -/
def mkdir (t : FileTree N) (path : List (Step N)) : Except Errno (FileTree N) :=
  match path.getLast? with
  | none => throw .EEXIST
  | some .up => throw .EEXIST
  | some (.name n) => do
    let place ← follow t path.dropLast
    if t.kind place = some .dir then
      if t.kind (place ++ [n]) = none then pure (t.add place n) else throw .EEXIST
    else throw .ENOTDIR

/-! ### What stays -/

theorem kind_root (t : FileTree N) : t.kind [] = some .dir := t.root

theorem kind_parent {t : FileTree N} {place : List N} {n : N}
    (h : (t.kind (place ++ [n])).isSome = true) : t.kind place = some .dir := t.parent place n h

theorem kind_remove {t : FileTree N} {place : List N} (hne : place ≠ [])
    (hleaf : t.names place = []) (other : List N) :
    (t.remove place).kind other = if other = place then none else t.kind other := by
  rw [FileTree.remove, dif_pos ⟨hne, hleaf⟩]
  exact lookup_filter_ne t.entries place other

/-- Only a directory has names. -/
theorem names_eq_nil {t : FileTree N} {place : List N} (h : t.kind place ≠ some .dir) :
    t.names place = [] := by
  rw [List.eq_nil_iff_forall_not_mem]
  intro n hn
  exact h (kind_parent (mem_names.mp hn))

theorem kind_add {t : FileTree N} {place : List N} {n : N} (hdir : t.kind place = some .dir)
    (hnew : t.kind (place ++ [n]) = none) (other : List N) :
    (t.add place n).kind other = if other = place ++ [n] then some .dir else t.kind other := by
  rw [FileTree.add, dif_pos ⟨hdir, hnew⟩]
  show List.lookup other ((place ++ [n], Kind.dir) :: t.entries) = _
  rw [List.lookup_cons]
  by_cases h : other = place ++ [n]
  · simp [h]
  · have hne : (other == place ++ [n]) = false := beq_eq_false_iff_ne.mpr h
    rw [hne, if_neg h]
    rfl

/-- Nothing is below an entry that is no directory. -/
theorem kind_below {t : FileTree N} {place : List N} (h : t.kind place ≠ some .dir) (names : List N)
    (hne : names ≠ []) : t.kind (place ++ names) = none := by
  induction names using List.reverseRecOn with
  | nil => exact absurd rfl hne
  | append_singleton names n ih =>
    by_contra hkind
    rw [← List.append_assoc] at hkind
    have habove := kind_parent (Option.isSome_iff_ne_none.mpr hkind)
    by_cases hnames : names = []
    · subst hnames
      rw [List.append_nil] at habove
      exact h habove
    · rw [ih hnames] at habove
      cases habove

/-- What is in the first tree is in the second one. -/
def Part (t t' : FileTree N) : Prop :=
  ∀ place kind, t.kind place = some kind → t'.kind place = some kind

theorem part_refl (t : FileTree N) : Part t t := fun _ _ h => h

theorem part_trans {t t' t'' : FileTree N} (h : Part t t') (h' : Part t' t'') : Part t t'' :=
  fun place kind hkind => h' place kind (h place kind hkind)

theorem part_remove (t : FileTree N) (place : List N) : Part (t.remove place) t := by
  intro other kind hkind
  by_cases h : place ≠ [] ∧ t.names place = []
  · rw [kind_remove h.1 h.2] at hkind
    split at hkind
    · cases hkind
    · exact hkind
  · rw [FileTree.remove, dif_neg h] at hkind
    exact hkind

theorem eq_of_removed {t : FileTree N} {place other : List N} (h : t.kind other ≠ none)
    (hremoved : (t.remove place).kind other = none) : other = place := by
  by_cases hleaf : place ≠ [] ∧ t.names place = []
  · rw [kind_remove hleaf.1 hleaf.2] at hremoved
    split at hremoved
    · assumption
    · exact absurd hremoved h
  · rw [FileTree.remove, dif_neg hleaf] at hremoved
    exact absurd hremoved h

/-! ### Paths in parts -/

section Walk
variable {t : FileTree N} {jump : List N → List (Step N) → Except Errno (List N × ℕ)} {links : ℕ}

theorem walk_append {rest : List (Step N)} {after : List N × ℕ → Except Errno (List N × ℕ)}
    (hjump : ∀ place path, jump place (path ++ rest) = jump place path >>= after)
    (hrest : ∀ place, walk t jump links place rest = after (place, links)) (place : List N)
    (path : List (Step N)) :
    walk t jump links place (path ++ rest) = walk t jump links place path >>= after := by
  induction path generalizing place with
  | nil => exact hrest place
  | cons step path ih =>
    cases step with
    | up =>
      simp only [List.cons_append, walk]
      split
      · exact ih _
      · rfl
    | name n =>
      simp only [List.cons_append, walk]
      split
      · cases t.kind (place ++ [n]) with
        | none => rfl
        | some kind =>
          cases kind with
          | file => exact ih _
          | dir => exact ih _
          | link absolute target =>
            show jump _ (target ++ (path ++ rest)) = jump _ (target ++ path) >>= after
            rw [← List.append_assoc]
            exact hjump _ _
      · rfl

theorem walk_part {t' : FileTree N} {jump' : List N → List (Step N) → Except Errno (List N × ℕ)}
    (h : Part t t')
    (hjump : ∀ place path found, jump place path = .ok found → jump' place path = .ok found)
    {place : List N} {path : List (Step N)} {found : List N × ℕ}
    (hfound : walk t jump links place path = .ok found) :
    walk t' jump' links place path = .ok found := by
  induction path generalizing place with
  | nil => exact hfound
  | cons step path ih =>
    cases step with
    | up =>
      simp only [walk] at hfound ⊢
      split at hfound
      · next hdir =>
        rw [if_pos (h _ _ hdir)]
        exact ih hfound
      · cases hfound
    | name n =>
      simp only [walk] at hfound ⊢
      split at hfound
      · next hdir =>
        rw [if_pos (h _ _ hdir)]
        cases hkind : t.kind (place ++ [n]) with
        | none =>
          rw [hkind] at hfound
          cases hfound
        | some kind =>
          rw [hkind] at hfound
          rw [h _ _ hkind]
          cases kind with
          | file => exact ih hfound
          | dir => exact ih hfound
          | link absolute target => exact hjump _ _ _ hfound
      · cases hfound

theorem kind_dropLast {place : List N} (h : (t.kind place).isSome = true) :
    (t.kind place.dropLast).isSome = true := by
  rcases List.eq_nil_or_concat place with rfl | ⟨above, n, rfl⟩
  · exact h
  · rw [List.concat_eq_append] at h
    rw [List.concat_eq_append, List.dropLast_concat, kind_parent h]
    rfl

theorem walk_exists
    (hjump : ∀ place path found, (t.kind place).isSome = true → jump place path = .ok found →
      (t.kind found.1).isSome = true)
    {place : List N} {path : List (Step N)} {found : List N × ℕ}
    (hplace : (t.kind place).isSome = true) (hfound : walk t jump links place path = .ok found) :
    (t.kind found.1).isSome = true := by
  induction path generalizing place with
  | nil =>
    cases hfound
    exact hplace
  | cons step path ih =>
    cases step with
    | up =>
      rw [walk] at hfound
      split at hfound
      · exact ih (kind_dropLast hplace) hfound
      · cases hfound
    | name n =>
      rw [walk] at hfound
      split at hfound
      · cases hkind : t.kind (place ++ [n]) with
        | none =>
          rw [hkind] at hfound
          cases hfound
        | some kind =>
          have hnext : (t.kind (place ++ [n])).isSome = true := by rw [hkind]; rfl
          rw [hkind] at hfound
          cases kind with
          | file => exact ih hnext hfound
          | dir => exact ih hnext hfound
          | link absolute target =>
            refine hjump _ _ _ ?_ hfound
            split
            · rw [kind_root]
              rfl
            · exact hplace
      · cases hfound

end Walk

theorem resolve_append (t : FileTree N) (links : ℕ) (place : List N) (path rest : List (Step N)) :
    resolve t links place (path ++ rest) =
      resolve t links place path >>= fun found => resolve t found.2 found.1 rest := by
  induction links generalizing place path with
  | zero => exact walk_append (fun _ _ => rfl) (fun _ => rfl) place path
  | succ links ih => exact walk_append ih (fun _ => rfl) place path

theorem resolve_part {t t' : FileTree N} (h : Part t t') {links : ℕ} {place : List N}
    {path : List (Step N)} {found : List N × ℕ} (hfound : resolve t links place path = .ok found) :
    resolve t' links place path = .ok found := by
  induction links generalizing place path found with
  | zero => exact walk_part h (fun _ _ _ hjump => by cases hjump) hfound
  | succ links ih => exact walk_part h (fun _ _ _ hjump => ih hjump) hfound

theorem follow_ok {t : FileTree N} {path : List (Step N)} {place : List N} :
    follow t path = .ok place ↔ ∃ links, resolve t maxLinks [] path = .ok (place, links) := by
  unfold follow
  cases resolve t maxLinks [] path with
  | error e => simp [Except.map]
  | ok found =>
    obtain ⟨place', links⟩ := found
    simp [Except.map]

theorem follow_part {t t' : FileTree N} (h : Part t t') {path : List (Step N)} {place : List N}
    (hfollow : follow t path = .ok place) : follow t' path = .ok place := by
  obtain ⟨links, hresolve⟩ := follow_ok.mp hfollow
  exact follow_ok.mpr ⟨links, resolve_part h hresolve⟩

theorem resolve_name (t : FileTree N) (links : ℕ) (place : List N) (n : N) (rest : List (Step N)) :
    resolve t links place (.name n :: rest) =
      if t.kind place = some .dir then
        match t.kind (place ++ [n]) with
        | none => .error .ENOENT
        | some (.link absolute target) =>
          match links with
          | 0 => .error .ELOOP
          | links + 1 => resolve t links (if absolute then [] else place) (target ++ rest)
        | some .file => resolve t links (place ++ [n]) rest
        | some .dir => resolve t links (place ++ [n]) rest
      else .error .ENOTDIR := by
  cases links with
  | zero => rfl
  | succ links => rfl

/-- A longer path goes through a directory that has the next name. -/
theorem follow_name {t : FileTree N} {path rest : List (Step N)} {n : N} {place : List N}
    (h : follow t (path ++ .name n :: rest) = .ok place) :
    ∃ above, follow t path = .ok above ∧ t.kind above = some .dir ∧
      (t.kind (above ++ [n])).isSome = true := by
  obtain ⟨links, hresolve⟩ := follow_ok.mp h
  rw [resolve_append] at hresolve
  cases habove : resolve t maxLinks [] path with
  | error e =>
    rw [habove] at hresolve
    cases hresolve
  | ok found =>
    rw [habove] at hresolve
    obtain ⟨above, left⟩ := found
    have hnext : resolve t left above (.name n :: rest) = .ok (place, links) := hresolve
    rw [resolve_name] at hnext
    split at hnext
    · next hdir =>
      refine ⟨above, follow_ok.mpr ⟨left, habove⟩, hdir, ?_⟩
      cases hkind : t.kind (above ++ [n]) with
      | none =>
        rw [hkind] at hnext
        cases hnext
      | some kind => rfl
    · cases hnext

/-- An entry that is no link is where its path leads. -/
theorem follow_entry {t : FileTree N} {path : List (Step N)} {n : N} {above : List N}
    (habove : follow t path = .ok above) (hdir : t.kind above = some .dir)
    (hkind : t.kind (above ++ [n]) = some .file ∨ t.kind (above ++ [n]) = some .dir) :
    follow t (path ++ [.name n]) = .ok (above ++ [n]) := by
  obtain ⟨left, hresolve⟩ := follow_ok.mp habove
  refine follow_ok.mpr ⟨left, ?_⟩
  rw [resolve_append, hresolve]
  show resolve t left above [.name n] = _
  rw [resolve_name, if_pos hdir]
  rcases hkind with hkind | hkind
  · rw [hkind]
    cases left with
    | zero => rfl
    | succ left => rfl
  · rw [hkind]
    cases left with
    | zero => rfl
    | succ left => rfl

theorem locate_name {t : FileTree N} {path : List (Step N)} {n : N} {place : List N} :
    locate t (path ++ [.name n]) = .ok place ↔
      ∃ above, follow t path = .ok above ∧ t.kind above = some .dir ∧ place = above ++ [n] := by
  unfold locate
  rw [List.getLast?_concat, List.dropLast_concat]
  cases follow t path with
  | error e =>
    constructor
    · intro h
      cases h
    · rintro ⟨above, habove, -⟩
      cases habove
  | ok above =>
    show (if t.kind above = some .dir then Except.ok (above ++ [n])
      else Except.error Errno.ENOTDIR) = _ ↔ _
    split
    · next hdir =>
      constructor
      · intro h
        cases h
        exact ⟨above, rfl, hdir, rfl⟩
      · rintro ⟨above', habove, -, rfl⟩
        cases habove
        rfl
    · next hdir =>
      constructor
      · intro h
        cases h
      · rintro ⟨above', habove, hdir', -⟩
        cases habove
        exact absurd hdir' hdir

theorem follow_exists {t : FileTree N} {path : List (Step N)} {place : List N}
    (h : follow t path = .ok place) : (t.kind place).isSome = true := by
  have hexists : ∀ links place path found, (t.kind place).isSome = true →
      resolve t links place path = .ok found → (t.kind found.1).isSome = true := by
    intro links
    induction links with
    | zero => exact fun _ _ _ => walk_exists fun _ _ _ _ hjump => by cases hjump
    | succ links ih => exact fun _ _ _ => walk_exists fun place path found => ih place path found
  obtain ⟨links, hresolve⟩ := follow_ok.mp h
  exact hexists maxLinks [] path _ (by rw [kind_root]; rfl) hresolve

theorem locate_cases (path : List (Step N)) :
    (∃ above n, path = above ++ [.name n]) ∨ ∀ t : FileTree N, locate t path = follow t path := by
  rcases List.eq_nil_or_concat path with rfl | ⟨above, step, rfl⟩
  · exact .inr fun _ => rfl
  · cases step with
    | up =>
      right
      intro t
      rw [List.concat_eq_append, locate, List.getLast?_concat]
    | name n => exact .inl ⟨above, n, List.concat_eq_append⟩

theorem locate_part {t t' : FileTree N} (h : Part t t') {path : List (Step N)} {place : List N}
    (hlocate : locate t path = .ok place) : locate t' path = .ok place := by
  rcases locate_cases path with ⟨above, n, rfl⟩ | hsame
  · obtain ⟨up, hup, hdir, hplace⟩ := locate_name.mp hlocate
    exact locate_name.mpr ⟨up, follow_part h hup, h _ _ hdir, hplace⟩
  · rw [hsame] at hlocate ⊢
    exact follow_part h hlocate

/-- A path that leads somewhere names an entry. -/
theorem locate_follow {t : FileTree N} {path : List (Step N)} {place : List N}
    (h : follow t path = .ok place) :
    ∃ entry, locate t path = .ok entry ∧ (t.kind entry).isSome = true := by
  rcases locate_cases path with ⟨above, n, rfl⟩ | hsame
  · obtain ⟨up, hup, hdir, hkind⟩ := follow_name h
    exact ⟨up ++ [n], locate_name.mpr ⟨up, hup, hdir, rfl⟩, hkind⟩
  · exact ⟨place, by rw [hsame, h], follow_exists h⟩

/-- An entry below a path is below the directory that the path leads to. -/
theorem locate_below {t : FileTree N} {path : List (Step N)} {n : N} {names place : List N}
    (h : locate t (path ++ .name n :: names.map .name) = .ok place) :
    ∃ above, follow t path = .ok above ∧ t.kind above = some .dir := by
  rcases List.eq_nil_or_concat names with rfl | ⟨names', last, rfl⟩
  · obtain ⟨above, habove, hdir, -⟩ := locate_name.mp h
    exact ⟨above, habove, hdir⟩
  · have hsplit : path ++ .name n :: (names'.concat last).map Step.name =
        (path ++ .name n :: names'.map .name) ++ [.name last] := by simp
    rw [hsplit] at h
    obtain ⟨up, hup, -⟩ := locate_name.mp h
    obtain ⟨above, habove, hdir, -⟩ := follow_name hup
    exact ⟨above, habove, hdir⟩

theorem isDirectory_ok {t : FileTree N} {path : List (Step N)} {b : Bool} :
    isDirectory t path = .ok b ↔
      ∃ place, follow t path = .ok place ∧ decide (t.kind place = some .dir) = b := by
  unfold isDirectory
  cases follow t path with
  | error e => simp [Except.map]
  | ok place => simp [Except.map]

theorem isDirectory_part {t t' : FileTree N} (h : Part t t') {path : List (Step N)} {b : Bool}
    (hdir : isDirectory t path = .ok b) : isDirectory t' path = .ok b := by
  obtain ⟨place, hfollow, hb⟩ := isDirectory_ok.mp hdir
  refine isDirectory_ok.mpr ⟨place, follow_part h hfollow, ?_⟩
  obtain ⟨kind, hkind⟩ := Option.isSome_iff_exists.mp (follow_exists hfollow)
  rw [h _ _ hkind, ← hb, hkind]

/-! ### The calls that change the tree -/

theorem unlink_ok {t t' : FileTree N} {path : List (Step N)} :
    unlink t path = .ok t' ↔ ∃ place kind, locate t path = .ok place ∧
      t.kind place = some kind ∧ kind ≠ .dir ∧ t' = t.remove place := by
  unfold unlink
  cases locate t path with
  | error e =>
    constructor
    · intro h
      cases h
    · rintro ⟨place, kind, hplace, -⟩
      cases hplace
  | ok place =>
    constructor
    · intro h
      cases hkind : t.kind place with
      | none =>
        simp only [hkind, bind, Except.bind] at h
        cases h
      | some kind =>
        simp only [hkind, bind, Except.bind] at h
        cases kind with
        | file =>
          cases h
          exact ⟨place, _, rfl, hkind, by simp, rfl⟩
        | dir => cases h
        | link absolute target =>
          cases h
          exact ⟨place, _, rfl, hkind, by simp, rfl⟩
    · rintro ⟨place', kind, hplace, hkind, hdir, rfl⟩
      cases hplace
      simp only [hkind, bind, Except.bind]
      cases kind with
      | file => rfl
      | dir => exact absurd rfl hdir
      | link absolute target => rfl

theorem rmdir_name {t t' : FileTree N} {path : List (Step N)} {n : N} :
    rmdir t (path ++ [.name n]) = .ok t' ↔ ∃ place, locate t (path ++ [.name n]) = .ok place ∧
      t.kind place = some .dir ∧ t.names place = [] ∧ t' = t.remove place := by
  unfold rmdir
  rw [List.getLast?_concat]
  cases locate t (path ++ [.name n]) with
  | error e =>
    constructor
    · intro h
      cases h
    · rintro ⟨place, hplace, -⟩
      cases hplace
  | ok place =>
    constructor
    · intro h
      cases hkind : t.kind place with
      | none =>
        simp only [hkind, bind, Except.bind] at h
        cases h
      | some kind =>
        simp only [hkind, bind, Except.bind] at h
        cases kind with
        | file => cases h
        | dir =>
          dsimp only at h
          split at h
          · next hnames =>
            cases h
            exact ⟨place, rfl, hkind, hnames, rfl⟩
          · cases h
        | link absolute target => cases h
    · rintro ⟨place', hplace, hkind, hnames, rfl⟩
      cases hplace
      simp only [hkind, hnames, bind, Except.bind, if_true]
      rfl

theorem rmdir_ok {t t' : FileTree N} {path : List (Step N)} :
    rmdir t path = .ok t' ↔ ∃ above n place, path = above ++ [.name n] ∧
      locate t path = .ok place ∧ t.kind place = some .dir ∧ t.names place = [] ∧
      t' = t.remove place := by
  rcases List.eq_nil_or_concat path with rfl | ⟨above, step, rfl⟩
  · constructor
    · intro h
      cases h
    · rintro ⟨above, n, place, hpath, -⟩
      simp at hpath
  · rw [List.concat_eq_append]
    cases step with
    | up =>
      constructor
      · intro h
        rw [rmdir, List.getLast?_concat] at h
        cases h
      · rintro ⟨above', n, place, hpath, -⟩
        have hstep := (List.append_inj' hpath rfl).2
        cases hstep
    | name n =>
      rw [rmdir_name]
      constructor
      · rintro ⟨place, hplace, hrest⟩
        exact ⟨above, n, place, rfl, hplace, hrest⟩
      · rintro ⟨above', n', place, -, hplace, hrest⟩
        exact ⟨place, hplace, hrest⟩

theorem mkdir_ok {t t' : FileTree N} {path : List (Step N)} (h : mkdir t path = .ok t') :
    ∃ place n, locate t path = .ok (place ++ [n]) ∧ t.kind place = some .dir ∧
      t.kind (place ++ [n]) = none ∧ t' = t.add place n := by
  rcases List.eq_nil_or_concat path with rfl | ⟨above, step, rfl⟩
  · cases h
  · rw [List.concat_eq_append] at h ⊢
    cases step with
    | up =>
      rw [mkdir, List.getLast?_concat] at h
      cases h
    | name n =>
      unfold mkdir at h
      rw [List.getLast?_concat, List.dropLast_concat] at h
      cases hfollow : follow t above with
      | error e =>
        rw [hfollow] at h
        cases h
      | ok place =>
        simp only [hfollow, bind, Except.bind] at h
        split at h
        · next hdir =>
          split at h
          · next hnew =>
            cases h
            exact ⟨place, n, locate_name.mpr ⟨place, hfollow, hdir, rfl⟩, hdir, hnew, rfl⟩
          · cases h
        · cases h

/-! ### How long a path can be -/

def FileTree.height (t : FileTree N) : ℕ := t.entries.foldr (fun entry h => max entry.1.length h) 0

theorem length_le_height {t : FileTree N} {place : List N} (h : (t.kind place).isSome = true) :
    place.length ≤ t.height := by
  have hentries : ∀ l : List (List N × Kind N), ∀ entry ∈ l,
      entry.1.length ≤ l.foldr (fun entry h => max entry.1.length h) 0 := by
    intro l
    induction l with
    | nil => simp
    | cons first l ih =>
      intro entry hentry
      rw [List.foldr_cons]
      rcases List.mem_cons.mp hentry with rfl | hmem
      · exact Nat.le_max_left _ _
      · exact Nat.le_trans (ih entry hmem) (Nat.le_max_right _ _)
  rw [FileTree.kind, List.lookup_isSome_iff] at h
  obtain ⟨entry, hentry, hplace⟩ := h
  have hkey : place = entry.1 := by simpa using hplace
  rw [hkey]
  exact hentries t.entries entry hentry

section Length
variable {t : FileTree N} {jump : List N → List (Step N) → Except Errno (List N × ℕ)}
variable {links bound : ℕ}

/-- Every name leads one directory down until a link is followed. -/
theorem walk_names
    (hjump : ∀ place path (names : List N) found,
      jump place (path ++ names.map Step.name) = .ok found → names.length ≤ bound)
    {place : List N} {names : List N} {found : List N × ℕ}
    (h : walk t jump links place (names.map Step.name) = .ok found) :
    names.length ≤ t.height - place.length + 1 + bound := by
  induction names generalizing place with
  | nil => exact Nat.zero_le _
  | cons n names ih =>
    rw [List.map_cons, walk] at h
    rw [List.length_cons]
    split at h
    · cases hkind : t.kind (place ++ [n]) with
      | none =>
        rw [hkind] at h
        cases h
      | some kind =>
        have hthere : (t.kind (place ++ [n])).isSome = true := by rw [hkind]; rfl
        have hlength := length_le_height hthere
        rw [List.length_append, List.length_singleton] at hlength
        rw [hkind] at h
        cases kind with
        | file =>
          have hrest := ih h
          rw [List.length_append, List.length_singleton] at hrest
          omega
        | dir =>
          have hrest := ih h
          rw [List.length_append, List.length_singleton] at hrest
          omega
        | link absolute target =>
          have hrest := hjump _ _ _ _ h
          omega
    · cases h

theorem walk_length (bound : ℕ)
    (hjump : ∀ place path (names : List N) found,
      jump place (path ++ names.map Step.name) = .ok found → names.length ≤ bound)
    {place : List N} {path : List (Step N)} {names : List N} {found : List N × ℕ}
    (h : walk t jump links place (path ++ names.map Step.name) = .ok found) :
    names.length ≤ t.height + 1 + bound := by
  induction path generalizing place with
  | nil =>
    have hnames := walk_names hjump h
    omega
  | cons step path ih =>
    cases step with
    | up =>
      rw [List.cons_append, walk] at h
      split at h
      · exact ih h
      · cases h
    | name n =>
      rw [List.cons_append, walk] at h
      split at h
      · cases hkind : t.kind (place ++ [n]) with
        | none =>
          rw [hkind] at h
          cases h
        | some kind =>
          rw [hkind] at h
          cases kind with
          | file => exact ih h
          | dir => exact ih h
          | link absolute target =>
            dsimp only at h
            rw [← List.append_assoc] at h
            have hrest := hjump _ _ _ _ h
            omega
      · cases h

end Length

theorem resolve_length {t : FileTree N} {links : ℕ} {place : List N} {path : List (Step N)}
    {names : List N} {found : List N × ℕ}
    (h : resolve t links place (path ++ names.map Step.name) = .ok found) :
    names.length ≤ (links + 1) * (t.height + 1) := by
  induction links generalizing place path names found with
  | zero =>
    have hlength := walk_length 0 (fun _ _ _ _ hjump => by cases hjump) h
    omega
  | succ links ih =>
    have hlength := walk_length ((links + 1) * (t.height + 1))
      (fun _ _ _ _ hjump => ih hjump) h
    have hsum : (links + 1 + 1) * (t.height + 1) =
        (links + 1) * (t.height + 1) + (t.height + 1) := by ring
    omega

/-- So many names can follow a path at most. -/
def FileTree.depth (t : FileTree N) : ℕ := (maxLinks + 1) * (t.height + 1)

theorem follow_length {t : FileTree N} {path : List (Step N)} {names : List N} {place : List N}
    (h : follow t (path ++ names.map Step.name) = .ok place) : names.length ≤ t.depth := by
  obtain ⟨links, hresolve⟩ := follow_ok.mp h
  exact resolve_length hresolve

end Archipel.FileSystem
