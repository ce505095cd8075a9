import Archipel.FileSystem
import Archipel.Stateful

/-!
# Clearing a directory (cli/src/utils.js)

`rmNonEmptyDir` asks `statSync`, which follows links, whether an entry is a
directory, clears it then and unlinks it otherwise. A call of the file system
that fails throws its code. The order in which `readdirSync` lists the names is
not promised; a run depends on it.
-/

namespace Archipel.TempDirectory
open FileSystem Stateful

/-- The steps of a path from the root. -/
abbrev Path := List (Step String)

inductive Failure where
  | error (message : String)
  | errno (code : Errno)
  /-- The levels of the recursion ran out. -/
  | exhausted
  deriving DecidableEq

abbrev Code (α : Type) := Program Failure (FileTree String) α

/-- The order in which the names of the directory at a path are listed. -/
abbrev Order := Path → List String → List String

def Lawful (order : Order) : Prop := ∀ path names, (order path names).Perm names

def failing {α : Type} (result : Except Errno α) : Except Failure α := result.mapError .errno

/-- `fs.existsSync` -/
def existsSync (path : Path) : Code Bool := ask fun t => .ok (follow t path).isOk

/-- `fs.readdirSync` -/
def readdirSync (order : Order) (path : Path) : Code (List String) :=
  ask fun t => (failing (readdir t path)).map (order path)

/-- `fs.statSync(path).isDirectory()` -/
def isDirectorySync (path : Path) : Code Bool := ask fun t => failing (isDirectory t path)

/-- `fs.unlinkSync` -/
def unlinkSync (path : Path) : Code Unit := update fun t => failing (unlink t path)

/-- `fs.rmdirSync` -/
def rmdirSync (path : Path) : Code Unit := update fun t => failing (rmdir t path)

/-- `fs.mkdirSync` -/
def mkdirSync (path : Path) : Code Unit := update fun t => failing (mkdir t path)

/-- `path + '/' + filename` -/
def join (path : Path) (filename : String) : Path := path ++ [.name filename]

/-- The function that is called for each file. -/
def removeFile (remove : Path → Code Unit) (path : Path) (filename : String) : Code Unit := do
  if ← isDirectorySync (join path filename) then
    remove (join path filename)
  else
    unlinkSync (join path filename)

def removeWithin (order : Order) : ℕ → Path → Code Unit
  | 0, _ => throw .exhausted
  | levels + 1, path => do
    if ← existsSync path then
      let files ← readdirSync order path
      if files.length > 0 then
        files.forM (removeFile (removeWithin order levels) path)
        rmdirSync path
      else
        rmdirSync path
    else
      throw (.error "Directory was not found.")

/-- Remove a directory with files in it; no path that resolves has more levels. -/
def rmNonEmptyDir (order : Order) (path : Path) : Code Unit := do
  let levels ← ask fun t => .ok (t.depth + 2)
  removeWithin order levels path

/-- Delete temp directory if already exists if not create one -/
def prepareTempDirectory (order : Order) (tempDir : Path) : Code Unit := do
  if ← existsSync tempDir then
    rmNonEmptyDir order tempDir
    mkdirSync tempDir
  else
    mkdirSync tempDir

def text (path : Path) : String :=
  String.join (path.map fun step => match step with
    | .up => "/.."
    | .name n => "/" ++ n)

def zipCommand (folderPath : Path) (resultFilePath : String) (password : Option String) : String :=
  if password ≠ none ∧ password ≠ some "" then
    "zip -P \"" ++ password.getD "" ++ "\" -r -j " ++ resultFilePath ++ " " ++ text folderPath
  else
    "zip -r -j " ++ resultFilePath ++ " " ++ text folderPath

/-- Create a zip Archive; what the command does to the files is left open. -/
def createArchive (execAsync : String → Code Unit) (order : Order) (folderPath : Path)
    (resultFilePath : String) (password : Option String) : Code Unit := do
  execAsync (zipCommand folderPath resultFilePath password)
  -- Removing zipped directory
  rmNonEmptyDir order folderPath

/-! ### What is asked of the directory -/

/-- The place is that of the entry that the path names, or below it. -/
def Under (t : FileTree String) (path : Path) (place : List String) : Prop :=
  ∃ entry, locate t path = .ok entry ∧ entry <+: place

/-- What was removed was under the path. -/
def RemovesUnder (t : FileTree String) (path : Path) (t' : FileTree String) : Prop :=
  ∀ place, (t.kind place).isSome = true → t'.kind place = none → Under t path place

/-- Nothing is left at the path. -/
def Cleared (t : FileTree String) (path : Path) (t' : FileTree String) : Prop :=
  ∃ entry, locate t path = .ok entry ∧ ∀ place, entry <+: place → t'.kind place = none

/-- The path names an entry at this place that is a file, a link to a file or an
empty directory of its own. -/
def Removable (t : FileTree String) (path : Path) (place : List String) : Prop :=
  locate t path = .ok place ∧
    (isDirectory t path = .ok false ∨ t.kind place = some .dir ∧ t.names place = [])

def descend (path : Path) (names : List String) : Path := path ++ names.map .name

/-- Everything removable that names lead to from the path, through directories and
links to directories, is under the path. -/
def Confined (t : FileTree String) (path : Path) : Prop :=
  ∀ names place, Removable t (descend path names) place → Under t path place

theorem failing_ok {α : Type} {result : Except Errno α} {a : α} :
    failing result = .ok a ↔ result = .ok a := by
  cases result with
  | ok b => simp [failing, Except.mapError]
  | error e => simp [failing, Except.mapError]

theorem failing_error {α : Type} {result : Except Errno α} {e : Failure}
    (h : failing result = .error e) : ∃ code, e = .errno code := by
  cases result with
  | ok b => cases h
  | error code =>
    cases h
    exact ⟨code, rfl⟩

theorem join_descend (path : Path) (names : List String) (filename : String) :
    join (descend path names) filename = descend path (names ++ [filename]) := by
  simp [join, descend]

theorem descend_nil (path : Path) : descend path [] = path := by simp [descend]

/-! ### What every run keeps -/

section Keeps
variable {I : FileTree String → Prop} {Q : Failure → Prop}

theorem keeps_change {f : FileTree String → Except Errno (FileTree String)}
    (hcode : ∀ code, Q (.errno code)) (hf : ∀ t t', I t → f t = .ok t' → I t') :
    Keeps I Q (update fun t => failing (f t)) := by
  refine keeps_update (fun t t' ht hchange => hf t t' ht (failing_ok.mp hchange)) ?_
  intro t e he
  obtain ⟨code, rfl⟩ := failing_error he
  exact hcode code

theorem keeps_readdirSync (hcode : ∀ code, Q (.errno code)) (order : Order) (path : Path) :
    Keeps I Q (readdirSync order path) := by
  refine keeps_ask ?_
  intro t e he
  cases hread : failing (readdir t path) with
  | ok files =>
    rw [hread] at he
    cases he
  | error e' =>
    rw [hread] at he
    cases he
    obtain ⟨code, rfl⟩ := failing_error hread
    exact hcode code

theorem keeps_removeFile {remove : Path → Code Unit} {path : Path} {filename : String}
    (hcode : ∀ code, Q (.errno code))
    (hremove : ∀ t, I t → isDirectory t (join path filename) = .ok true →
      I (exec (remove (join path filename)) t).2 ∧
        ∀ e, (exec (remove (join path filename)) t).1 = .error e → Q e)
    (hunlink : ∀ t t', I t → isDirectory t (join path filename) = .ok false →
      unlink t (join path filename) = .ok t' → I t') :
    Keeps I Q (removeFile remove path filename) := by
  refine keeps_ask_bind ?_ ?_
  · intro t e he
    obtain ⟨code, rfl⟩ := failing_error he
    exact hcode code
  · intro t isDir ht hdir
    cases isDir with
    | true => exact hremove t ht (failing_ok.mp hdir)
    | false =>
      show I (exec (unlinkSync _) t).2 ∧ ∀ e, (exec (unlinkSync _) t).1 = .error e → Q e
      rw [unlinkSync, exec_update]
      cases hchange : failing (unlink t (join path filename)) with
      | ok t' =>
        refine ⟨hunlink t t' ht (failing_ok.mp hdir) (failing_ok.mp hchange), ?_⟩
        intro e he
        cases he
      | error e =>
        refine ⟨ht, ?_⟩
        intro e' he'
        cases he'
        obtain ⟨code, rfl⟩ := failing_error hchange
        exact hcode code

/-- The invariant is kept when it is kept by what is removed, and the levels do not
run out when no path in a tree with the invariant has more names. -/
theorem keeps_removeWithin {path : Path} (bound : ℕ)
    (order : Order) (hcode : ∀ code, Q (.errno code)) (herror : ∀ message, Q (.error message))
    (hunlink : ∀ names t t', I t → isDirectory t (descend path names) = .ok false →
      unlink t (descend path names) = .ok t' → I t')
    (hrmdir : ∀ names t t', I t → rmdir t (descend path names) = .ok t' → I t')
    (hlength : Q .exhausted ∨ ∀ names t, I t →
      isDirectory t (descend path names) = .ok true → names.length ≤ bound)
    (levels : ℕ) (names : List String)
    (hlevels : Q .exhausted ∨ names.length ≤ bound ∧ bound < levels + names.length) :
    Keeps I Q (removeWithin order levels (descend path names)) := by
  induction levels generalizing names with
  | zero =>
    rcases hlevels with hQ | hshort
    · exact keeps_throw hQ
    · omega
  | succ levels ih =>
    have hlast : Keeps I Q (rmdirSync (descend path names)) := keeps_change hcode (hrmdir names)
    refine keeps_bind (keeps_ask fun t e he => by cases he) fun found => ?_
    cases found with
    | false => exact keeps_throw (herror _)
    | true =>
      refine keeps_bind (keeps_readdirSync hcode order _) fun files => ?_
      show Keeps I Q (if files.length > 0 then _ else _)
      split
      · refine keeps_bind (keeps_forM fun filename _ => ?_) fun _ => hlast
        refine keeps_removeFile hcode ?_ ?_
        · intro t ht hdir
          rw [join_descend] at hdir ⊢
          refine ih (names ++ [filename]) ?_ t ht
          rcases hlevels with hQ | hshort
          · exact .inl hQ
          · rcases hlength with hQ | hlength
            · exact .inl hQ
            · have hlen := hlength _ t ht hdir
              rw [List.length_append, List.length_singleton] at hlen ⊢
              exact .inr (by omega)
        · intro t t' ht hdir hchange
          rw [join_descend] at hdir hchange
          exact hunlink _ t t' ht hdir hchange
      · exact hlast

end Keeps

theorem keeps_remove {I : FileTree String → Prop} (hI : ∀ t place, I t → I (t.remove place))
    (order : Order) (levels : ℕ) (path : Path) :
    Keeps I (fun _ => True) (removeWithin order levels path) := by
  rw [← descend_nil path]
  refine keeps_removeWithin 0 order (fun _ => trivial) (fun _ => trivial) ?_ ?_
    (.inl trivial) levels [] (.inl trivial)
  · intro names t t' ht _ hchange
    obtain ⟨place, kind, -, -, -, rfl⟩ := unlink_ok.mp hchange
    exact hI t place ht
  · intro names t t' ht hchange
    obtain ⟨above, n, place, -, -, -, -, rfl⟩ := rmdir_ok.mp hchange
    exact hI t place ht

theorem keeps_files {I : FileTree String → Prop} (hI : ∀ t place, I t → I (t.remove place))
    (order : Order) (levels : ℕ) (path : Path) (files : List String) :
    Keeps I (fun _ => True) (files.forM (removeFile (removeWithin order levels) path)) := by
  refine keeps_forM fun filename _ => keeps_removeFile (fun _ => trivial) ?_ ?_
  · intro t ht _
    exact keeps_remove hI order levels _ t ht
  · intro t t' ht _ hchange
    obtain ⟨place, kind, -, -, -, rfl⟩ := unlink_ok.mp hchange
    exact hI t place ht

theorem part_removeWithin (order : Order) (levels : ℕ) (path : Path) (t : FileTree String) :
    Part (exec (removeWithin order levels path) t).2 t := by
  have hkeeps := keeps_remove (I := fun t' => Part t' t)
    (fun t' place h => part_trans (part_remove t' place) h) order levels path
  exact (hkeeps t (part_refl t)).1

theorem gone_remove {t : FileTree String} {place : List String} (other : List String)
    (h : t.kind place = none) : (t.remove other).kind place = none := by
  cases hkind : (t.remove other).kind place with
  | none => rfl
  | some kind =>
    have hbefore := part_remove t other place kind hkind
    rw [h] at hbefore
    cases hbefore

theorem exec_rmNonEmptyDir (order : Order) (path : Path) (t : FileTree String) :
    exec (rmNonEmptyDir order path) t = exec (removeWithin order (t.depth + 2) path) t := by
  rw [rmNonEmptyDir, exec_bind, exec_ask]

/-- No path that resolves has more names than the levels allow. -/
theorem rmNonEmptyDir_levels (order : Order) (path : Path) (t : FileTree String) :
    (exec (rmNonEmptyDir order path) t).1 ≠ .error .exhausted := by
  have hkeeps : Keeps (fun t' => Part t' t) (fun e => e ≠ .exhausted)
      (removeWithin order (t.depth + 2) (descend path [])) := by
    refine keeps_removeWithin t.depth order (by simp) (by simp) ?_ ?_ ?_ _ [] ?_
    · intro names t₁ t₂ ht _ hchange
      obtain ⟨place, kind, -, -, -, rfl⟩ := unlink_ok.mp hchange
      exact part_trans (part_remove t₁ place) ht
    · intro names t₁ t₂ ht hchange
      obtain ⟨above, n, place, -, -, -, -, rfl⟩ := rmdir_ok.mp hchange
      exact part_trans (part_remove t₁ place) ht
    · right
      intro names t₁ ht hdir
      obtain ⟨place, hfollow, -⟩ := isDirectory_ok.mp hdir
      exact follow_length (follow_part ht hfollow)
    · right
      simp
  rw [descend_nil] at hkeeps
  rw [exec_rmNonEmptyDir]
  intro hexhausted
  exact (hkeeps t (part_refl t)).2 _ hexhausted rfl

/-! ### A confined directory -/

section Confined
variable {t : FileTree String} {path : Path}

theorem follow_descend {t : FileTree String} {names : List String} {place : List String}
    (h : follow t (descend path names) = .ok place) : ∃ start, follow t path = .ok start := by
  cases names with
  | nil => exact ⟨place, by rwa [descend_nil] at h⟩
  | cons n names =>
    obtain ⟨above, habove, -⟩ := follow_name h
    exact ⟨above, habove⟩

/-- While a path below it resolves, the entry of the path is there. -/
theorem entry_of_descend {t₁ : FileTree String} (hpart : Part t₁ t) {names : List String}
    {place entry : List String} (hfollow : follow t₁ (descend path names) = .ok place)
    (hentry : locate t path = .ok entry) : (t₁.kind entry).isSome = true := by
  obtain ⟨start, hstart⟩ := follow_descend hfollow
  obtain ⟨entry', hentry', hkind⟩ := locate_follow hstart
  have hsame := locate_part hpart hentry'
  rw [hentry, Except.ok.injEq] at hsame
  rw [hsame]
  exact hkind

theorem removesUnder_refl (t : FileTree String) (path : Path) : RemovesUnder t path t := by
  intro place hsome hnone
  rw [hnone] at hsome
  cases hsome

theorem removesUnder_remove {t₁ : FileTree String} (h : RemovesUnder t path t₁)
    {place : List String} (hplace : Under t path place) :
    RemovesUnder t path (t₁.remove place) := by
  intro other hsome hnone
  by_cases hother : t₁.kind other = none
  · exact h other hsome hother
  · rw [eq_of_removed hother hnone]
    exact hplace

/-- A directory that became empty has lost an entry under the path, which is not
the entry of the path itself. -/
theorem under_of_rmdir (h : Confined t path) {t₁ : FileTree String} (hpart : Part t₁ t)
    (hremoved : RemovesUnder t path t₁) {names place : List String}
    (hplace : locate t₁ (descend path names) = .ok place) (hkind : t₁.kind place = some .dir)
    (hempty : t₁.names place = []) : Under t path place := by
  rcases List.eq_nil_or_concat names with rfl | ⟨names', n, rfl⟩
  · rw [descend_nil] at hplace
    exact ⟨place, locate_part hpart hplace, List.prefix_rfl⟩
  · cases hnames : t.names place with
    | nil =>
      exact h _ place ⟨locate_part hpart hplace, .inr ⟨hpart _ _ hkind, hnames⟩⟩
    | cons c rest =>
      have hc : c ∈ t.names place := by simp [hnames]
      have hgone : t₁.kind (place ++ [c]) = none := by
        by_contra hthere
        have hc' := mem_names.mpr (Option.isSome_iff_ne_none.mpr hthere)
        rw [hempty] at hc'
        cases hc'
      obtain ⟨entry, hentry, hprefix⟩ := hremoved _ (mem_names.mp hc) hgone
      rcases List.prefix_concat_iff.mp hprefix with rfl | hprefix
      · rw [List.concat_eq_append, ← join_descend] at hplace
        obtain ⟨above, habove, -⟩ := locate_name.mp hplace
        have hthere := entry_of_descend hpart habove hentry
        rw [hgone] at hthere
        cases hthere
      · exact ⟨entry, hentry, hprefix⟩

theorem confined_removesUnder (h : Confined t path) (order : Order) :
    RemovesUnder t path (exec (rmNonEmptyDir order path) t).2 := by
  have hkeeps : Keeps (fun t' => Part t' t ∧ RemovesUnder t path t') (fun _ => True)
      (removeWithin order (t.depth + 2) (descend path [])) := by
    refine keeps_removeWithin 0 order (fun _ => trivial) (fun _ => trivial) ?_ ?_
      (.inl trivial) _ [] (.inl trivial)
    · intro names t₁ t₂ ht hdir hchange
      obtain ⟨place, kind, hplace, hkind, hnotDir, rfl⟩ := unlink_ok.mp hchange
      refine ⟨part_trans (part_remove t₁ place) ht.1, removesUnder_remove ht.2 ?_⟩
      exact h names place ⟨locate_part ht.1 hplace, .inl (isDirectory_part ht.1 hdir)⟩
    · intro names t₁ t₂ ht hchange
      obtain ⟨-, -, place, -, hplace, hkind, hnames, rfl⟩ := rmdir_ok.mp hchange
      refine ⟨part_trans (part_remove t₁ place) ht.1, removesUnder_remove ht.2 ?_⟩
      exact under_of_rmdir h ht.1 ht.2 hplace hkind hnames
  rw [descend_nil] at hkeeps
  rw [exec_rmNonEmptyDir]
  exact (hkeeps t ⟨part_refl t, removesUnder_refl t path⟩).1.2

end Confined

/-! ### A run that returns -/

theorem exec_existsSync (path : Path) (t : FileTree String) :
    exec (existsSync path) t = (.ok (follow t path).isOk, t) := rfl

theorem exec_readdirSync (order : Order) (path : Path) (t : FileTree String) :
    exec (readdirSync order path) t = ((failing (readdir t path)).map (order path), t) := rfl

/-- The last call of a run that returns removes the directory itself. -/
theorem removeWithin_ok {order : Order} {levels : ℕ} {path : Path} {t : FileTree String}
    (h : (exec (removeWithin order levels path) t).1 = .ok ()) :
    ∃ t₁, Part t₁ t ∧ rmdir t₁ path = .ok (exec (removeWithin order levels path) t).2 := by
  have hlast : ∀ t₁, (exec (rmdirSync path) t₁).1 = .ok () →
      rmdir t₁ path = .ok (exec (rmdirSync path) t₁).2 := by
    intro t₁ hok
    rw [rmdirSync, exec_update] at hok ⊢
    cases hchange : failing (rmdir t₁ path) with
    | ok t₂ => exact failing_ok.mp hchange
    | error e =>
      rw [hchange] at hok
      cases hok
  cases levels with
  | zero => cases h
  | succ levels =>
    unfold removeWithin at h ⊢
    obtain ⟨found, s, hfound, hrest⟩ := exec_bind_ok h
    rw [exec_existsSync] at hfound
    cases hfound
    rw [hrest] at h ⊢
    split at h
    · next hfound =>
      rw [if_pos hfound]
      obtain ⟨files, s, hfiles, hrest⟩ := exec_bind_ok h
      rw [exec_readdirSync] at hfiles
      obtain ⟨-, rfl⟩ := Prod.mk.inj hfiles
      rw [hrest] at h ⊢
      split at h
      · next hfull =>
        rw [if_pos hfull]
        obtain ⟨u, s, hforM, hrest⟩ := exec_bind_ok h
        have hkeeps := keeps_files (I := fun t' => Part t' t)
          (fun t' place ht => part_trans (part_remove t' place) ht) order levels path files t
          (part_refl t)
        rw [hforM] at hkeeps
        rw [hrest] at h ⊢
        exact ⟨s, hkeeps.1, hlast s h⟩
      · next hempty =>
        rw [if_neg hempty]
        exact ⟨t, part_refl t, hlast t h⟩
    · cases h

theorem rmNonEmptyDir_clears {order : Order} {path : Path} {t : FileTree String}
    (h : (exec (rmNonEmptyDir order path) t).1 = .ok ()) :
    Cleared t path (exec (rmNonEmptyDir order path) t).2 := by
  rw [exec_rmNonEmptyDir] at h ⊢
  obtain ⟨t₁, hpart, hrmdir⟩ := removeWithin_ok h
  obtain ⟨above, n, place, hpath, hplace, hkind, hnames, hlast⟩ := rmdir_ok.mp hrmdir
  have hne : place ≠ [] := by
    rw [hpath] at hplace
    obtain ⟨up, -, -, rfl⟩ := locate_name.mp hplace
    simp
  have hgone : (t₁.remove place).kind place = none := by simp [kind_remove hne hnames]
  rw [hlast]
  refine ⟨place, locate_part hpart hplace, ?_⟩
  rintro other ⟨names, rfl⟩
  by_cases hempty : names = []
  · rw [hempty, List.append_nil]
    exact hgone
  · exact kind_below (by simp [hgone]) names hempty

/-! ### A run that leaves the directory -/

theorem gone_rmdirSync (path : Path) (place : List String) :
    Keeps (fun t => t.kind place = none) (fun _ => True) (rmdirSync path) := by
  refine keeps_change (fun _ => trivial) ?_
  intro t t' ht hchange
  obtain ⟨above, n, other, -, -, -, -, rfl⟩ := rmdir_ok.mp hchange
  exact gone_remove other ht

/-- What the first file of the list takes away stays away. -/
theorem gone_of_first {order : Order} {levels : ℕ} {path : Path} {t : FileTree String} {n : String}
    {above place : List String} {rest : List String} (hfollow : follow t path = .ok above)
    (hdir : t.kind above = some .dir) (hfiles : order path (t.names above) = n :: rest)
    (hfirst : (exec (removeFile (removeWithin order levels) path n) t).2.kind place = none) :
    (exec (removeWithin order (levels + 1) path) t).2.kind place = none := by
  have hread : readdir t path = .ok (t.names above) := by
    unfold readdir
    rw [hfollow]
    exact if_pos hdir
  unfold removeWithin
  rw [exec_bind, exec_existsSync, hfollow]
  show (exec (readdirSync order path >>= _) t).2.kind place = none
  rw [exec_bind, exec_readdirSync, hread]
  show (exec (if (order path (t.names above)).length > 0 then _ else _) t).2.kind place = none
  rw [hfiles, if_pos (by simp)]
  have hlast := gone_rmdirSync path place
  have hrest := keeps_files (I := fun t : FileTree String => t.kind place = none)
    (fun t other ht => gone_remove other ht) order levels path rest
  exact exec_bind_keeps (exec_bind_keeps hfirst fun _ => hrest) fun _ => hlast

/-- At every level the next of these names comes first. -/
def leading (path : Path) (names : List String) : Order := fun p files =>
  match names[p.length - path.length]? with
  | some n => if n ∈ files then n :: files.erase n else files
  | none => files

theorem lawful_leading (path : Path) (names : List String) : Lawful (leading path names) := by
  intro p files
  unfold leading
  cases names[p.length - path.length]? with
  | none => exact List.Perm.refl files
  | some n =>
    dsimp only
    split
    · next hn => exact (List.perm_cons_erase hn).symm
    · exact List.Perm.refl files

theorem leading_first {path : Path} {done rest files : List String} {n : String}
    (hn : n ∈ files) :
    leading path (done ++ n :: rest) (descend path done) files = n :: files.erase n := by
  have hindex : (descend path done).length - path.length = done.length := by simp [descend]
  unfold leading
  rw [hindex, List.getElem?_append_right (Nat.le_refl _), Nat.sub_self]
  exact if_pos hn

/-- An empty directory is removed at once. -/
theorem gone_of_empty {order : Order} (horder : Lawful order) {levels : ℕ} {path : Path}
    {t : FileTree String} {n : String} {place : List String}
    (hfollow : follow t (join path n) = .ok place) (hplace : locate t (join path n) = .ok place)
    (hdir : t.kind place = some .dir) (hnames : t.names place = []) :
    (exec (removeWithin order (levels + 1) (join path n)) t).2.kind place = none := by
  have hread : readdir t (join path n) = .ok [] := by
    unfold readdir
    rw [hfollow, ← hnames]
    exact if_pos hdir
  have hfiles : order (join path n) [] = [] := (horder (join path n) []).eq_nil
  have hrmdir : rmdir t (join path n) = .ok (t.remove place) :=
    rmdir_name.mpr ⟨place, hplace, hdir, hnames, rfl⟩
  have hne : place ≠ [] := by
    obtain ⟨above, -, -, rfl⟩ := locate_name.mp hplace
    simp
  unfold removeWithin
  rw [exec_bind, exec_existsSync, hfollow]
  show (exec (readdirSync order (join path n) >>= _) t).2.kind place = none
  rw [exec_bind, exec_readdirSync, hread]
  show (exec (if (order (join path n) []).length > 0 then _ else _) t).2.kind place = none
  rw [hfiles, if_neg (by simp), rmdirSync, exec_update, hrmdir]
  show (t.remove place).kind place = none
  simp [kind_remove hne hnames]

theorem exec_removeFile {remove : Path → Code Unit} {path : Path} {n : String}
    {t : FileTree String} {isDir : Bool} (h : isDirectory t (join path n) = .ok isDir) :
    exec (removeFile remove path n) t =
      exec (if isDir then remove (join path n) else unlinkSync (join path n)) t := by
  have hask : exec (isDirectorySync (join path n)) t = (.ok isDir, t) := by
    rw [isDirectorySync, exec_ask, h]
    rfl
  rw [removeFile, exec_bind, hask]

theorem removable_exists {t : FileTree String} {path : Path} {place : List String}
    (h : Removable t path place) : (t.kind place).isSome = true := by
  obtain ⟨hplace, hfile | ⟨hdir, -⟩⟩ := h
  · obtain ⟨found, hfound, -⟩ := isDirectory_ok.mp hfile
    obtain ⟨entry, hentry, hthere⟩ := locate_follow hfound
    rw [hplace, Except.ok.injEq] at hentry
    rw [hentry]
    exact hthere
  · rw [hdir]
    rfl

theorem gone_of_removable {order : Order} (horder : Lawful order) {levels : ℕ} {path : Path}
    {t : FileTree String} {n : String} {place : List String}
    (h : Removable t (join path n) place) :
    (exec (removeFile (removeWithin order (levels + 1)) path n) t).2.kind place = none := by
  obtain ⟨kind, hthere⟩ := Option.isSome_iff_exists.mp (removable_exists h)
  obtain ⟨hplace, hkind⟩ := h
  obtain ⟨above, habove, hdir, hname⟩ := locate_name.mp hplace
  rcases hkind with hfile | ⟨hplaceDir, hnames⟩
  · have hnotDir : t.kind place ≠ some .dir := by
      intro hplaceDir
      have hfollow := follow_entry habove hdir (.inr (hname ▸ hplaceDir))
      obtain ⟨found, hfound, hfalse⟩ := isDirectory_ok.mp hfile
      rw [join, hfollow, ← hname, Except.ok.injEq] at hfound
      rw [← hfound] at hfalse
      simp [hplaceDir] at hfalse
    have hunlink : unlink t (join path n) = .ok (t.remove place) :=
      unlink_ok.mpr ⟨place, kind, hplace, hthere, fun heq => hnotDir (heq ▸ hthere), rfl⟩
    have hne : place ≠ [] := by simp [hname]
    rw [exec_removeFile hfile]
    show (exec (unlinkSync (join path n)) t).2.kind place = none
    rw [unlinkSync, exec_update, hunlink]
    show (t.remove place).kind place = none
    simp [kind_remove hne (names_eq_nil hnotDir)]
  · have hfollow : follow t (join path n) = .ok place := by
      rw [hname] at hplaceDir ⊢
      exact follow_entry habove hdir (.inr hplaceDir)
    have hisDir : isDirectory t (join path n) = .ok true :=
      isDirectory_ok.mpr ⟨place, hfollow, by simp [hplaceDir]⟩
    rw [exec_removeFile hisDir]
    exact gone_of_empty horder hfollow hplace hplaceDir hnames

theorem removable_gone {t : FileTree String} {path : Path} {place : List String}
    (rest : List String) :
    ∀ (done : List String) (levels : ℕ), rest ≠ [] → rest.length ≤ levels →
      Removable t (descend path (done ++ rest)) place →
      (exec (removeWithin (leading path (done ++ rest)) (levels + 1) (descend path done)) t).2.kind
        place = none := by
  induction rest with
  | nil => exact fun _ _ hne => absurd rfl hne
  | cons n rest ih =>
    intro done levels _ hlevels hremovable
    obtain ⟨levels, rfl⟩ : ∃ m, levels = m + 1 := ⟨levels - 1, by simp at hlevels; omega⟩
    have hdescend : descend path (done ++ n :: rest) =
        descend path done ++ .name n :: rest.map .name := by simp [descend]
    obtain ⟨above, habove, hdir⟩ := locate_below (hdescend ▸ hremovable.1)
    have hlawful := lawful_leading path (done ++ n :: rest)
    cases rest with
    | nil =>
      rw [← join_descend] at hremovable
      obtain ⟨above', habove', -, hname⟩ := locate_name.mp hremovable.1
      rw [habove, Except.ok.injEq] at habove'
      have hn : n ∈ t.names above := by
        rw [mem_names, habove', ← hname]
        exact removable_exists hremovable
      exact gone_of_first habove hdir (leading_first hn) (gone_of_removable hlawful hremovable)
    | cons n' rest =>
      have hnext : descend path (done ++ n :: n' :: rest) =
          descend path (done ++ [n]) ++ .name n' :: rest.map .name := by simp [descend]
      obtain ⟨next, hfollow, hnextDir⟩ := locate_below (hnext ▸ hremovable.1)
      rw [← join_descend] at hfollow
      obtain ⟨above', habove', -, hthere⟩ := follow_name hfollow
      rw [habove, Except.ok.injEq] at habove'
      have hn : n ∈ t.names above := by
        rw [mem_names, habove']
        exact hthere
      have hisDir : isDirectory t (join (descend path done) n) = .ok true :=
        isDirectory_ok.mpr ⟨next, hfollow, by simp [hnextDir]⟩
      refine gone_of_first habove hdir (leading_first hn) ?_
      rw [exec_removeFile hisDir, join_descend]
      have hrest := ih (done ++ [n]) levels (by simp) (by simp at hlevels ⊢; omega)
      rw [List.append_assoc] at hrest
      exact hrest hremovable

theorem confined_of_removesUnder {t : FileTree String} {path : Path}
    (h : ∀ order, Lawful order → RemovesUnder t path (exec (rmNonEmptyDir order path) t).2) :
    Confined t path := by
  intro names place hremovable
  rcases List.eq_nil_or_concat names with rfl | ⟨names', n, rfl⟩
  · rw [descend_nil] at hremovable
    exact ⟨place, hremovable.1, List.prefix_rfl⟩
  · rw [List.concat_eq_append] at hremovable
    have hlevels : (names' ++ [n]).length ≤ t.depth + 1 := by
      have hplace := hremovable.1
      rw [← join_descend] at hplace
      obtain ⟨above, habove, -⟩ := locate_name.mp hplace
      have hlength := follow_length habove
      rw [List.length_append, List.length_singleton]
      omega
    have hgone := removable_gone (names' ++ [n]) [] (t.depth + 1) (by simp) hlevels hremovable
    rw [descend_nil, List.nil_append, ← exec_rmNonEmptyDir] at hgone
    exact h _ (lawful_leading path (names' ++ [n])) place (removable_exists hremovable) hgone

/-! ### The functions that clear a directory -/

section Prepare
variable {t : FileTree String} {path : Path}

theorem exec_mkdirSync (path : Path) (t : FileTree String) :
    (exec (mkdirSync path) t).2 = t ∨ ∃ place n, locate t path = .ok (place ++ [n]) ∧
      t.kind place = some .dir ∧ t.kind (place ++ [n]) = none ∧
        (exec (mkdirSync path) t).2 = t.add place n := by
  rw [mkdirSync, exec_update]
  cases hchange : failing (mkdir t path) with
  | error e => exact .inl rfl
  | ok t' =>
    obtain ⟨place, n, hplace, hdir, hnew, rfl⟩ := mkdir_ok (failing_ok.mp hchange)
    exact .inr ⟨place, n, hplace, hdir, hnew, rfl⟩

/-- The new directory stands where the path is. -/
theorem removesUnder_mkdirSync {t₁ : FileTree String} (hpart : Part t₁ t) :
    RemovesUnder t path (exec (mkdirSync path) t₁).2 ↔ RemovesUnder t path t₁ := by
  rcases exec_mkdirSync path t₁ with hsame | ⟨place, n, hplace, hdir, hnew, hadd⟩
  · rw [hsame]
  · rw [hadd]
    constructor
    · intro h other hsome hnone
      by_cases hother : other = place ++ [n]
      · rw [hother]
        exact ⟨_, locate_part hpart hplace, List.prefix_rfl⟩
      · refine h other hsome ?_
        rw [kind_add hdir hnew, if_neg hother]
        exact hnone
    · intro h other hsome hnone
      rw [kind_add hdir hnew] at hnone
      split at hnone
      · cases hnone
      · exact h other hsome hnone

theorem exec_prepareTempDirectory {order : Order} {place : List String}
    (hfollow : follow t path = .ok place) :
    exec (prepareTempDirectory order path) t =
      exec (rmNonEmptyDir order path >>= fun _ => mkdirSync path) t := by
  rw [prepareTempDirectory, exec_bind, exec_existsSync, hfollow]
  rfl

theorem exec_prepareTempDirectory_new {order : Order} {e : Errno}
    (hfollow : follow t path = .error e) :
    exec (prepareTempDirectory order path) t = exec (mkdirSync path) t := by
  rw [prepareTempDirectory, exec_bind, exec_existsSync, hfollow]
  rfl

theorem part_rmNonEmptyDir (order : Order) (path : Path) (t : FileTree String) :
    Part (exec (rmNonEmptyDir order path) t).2 t := by
  rw [exec_rmNonEmptyDir]
  exact part_removeWithin order _ path t

theorem removesUnder_prepare (order : Order) {place : List String}
    (hfollow : follow t path = .ok place) :
    RemovesUnder t path (exec (prepareTempDirectory order path) t).2 ↔
      RemovesUnder t path (exec (rmNonEmptyDir order path) t).2 := by
  have hpart := part_rmNonEmptyDir order path t
  rw [exec_prepareTempDirectory hfollow, exec_bind]
  cases hrun : exec (rmNonEmptyDir order path) t with
  | mk out t₁ =>
    rw [hrun] at hpart
    cases out with
    | ok u => exact removesUnder_mkdirSync hpart
    | error e => exact Iff.rfl

/-- Nothing is below a path that does not resolve. -/
theorem confined_of_error {e : Errno} (hfollow : follow t path = .error e) : Confined t path := by
  intro names place hremovable
  cases names with
  | nil =>
    rw [descend_nil] at hremovable
    exact ⟨place, hremovable.1, List.prefix_rfl⟩
  | cons n names =>
    obtain ⟨above, habove, -⟩ := locate_below hremovable.1
    rw [hfollow] at habove
    cases habove

theorem rmNonEmptyDir_confined :
    (∀ order, Lawful order → RemovesUnder t path (exec (rmNonEmptyDir order path) t).2) ↔
      Confined t path :=
  ⟨confined_of_removesUnder, fun h order _ => confined_removesUnder h order⟩

theorem prepareTempDirectory_confined :
    (∀ order, Lawful order → RemovesUnder t path (exec (prepareTempDirectory order path) t).2) ↔
      Confined t path := by
  cases hfollow : follow t path with
  | ok place =>
    rw [← rmNonEmptyDir_confined]
    exact forall₂_congr fun order _ => removesUnder_prepare order hfollow
  | error e =>
    refine iff_of_true (fun order _ => ?_) (confined_of_error hfollow)
    rw [exec_prepareTempDirectory_new hfollow]
    exact (removesUnder_mkdirSync (part_refl t)).mpr (removesUnder_refl t path)

theorem exec_mkdirSync_ok {t₁ : FileTree String} (hpart : Part t₁ t)
    (h : (exec (mkdirSync path) t₁).1 = .ok ()) :
    ∃ entry, locate t path = .ok entry ∧ (exec (mkdirSync path) t₁).2.kind entry = some .dir ∧
      (exec (mkdirSync path) t₁).2.names entry = [] := by
  rw [mkdirSync, exec_update] at h ⊢
  cases hchange : failing (mkdir t₁ path) with
  | error e =>
    rw [hchange] at h
    cases h
  | ok t₂ =>
    obtain ⟨place, n, hplace, hdir, hnew, rfl⟩ := mkdir_ok (failing_ok.mp hchange)
    refine ⟨place ++ [n], locate_part hpart hplace, ?_, ?_⟩
    · rw [kind_add hdir hnew, if_pos rfl]
    · rw [List.eq_nil_iff_forall_not_mem]
      intro c hc
      have hthere := mem_names.mp hc
      rw [kind_add hdir hnew, if_neg (by simp), kind_below (by simp [hnew]) [c] (by simp)] at hthere
      cases hthere

/-- The temporary directory is there and empty. -/
theorem prepareTempDirectory_empty {order : Order}
    (h : (exec (prepareTempDirectory order path) t).1 = .ok ()) :
    ∃ entry, locate t path = .ok entry ∧
      (exec (prepareTempDirectory order path) t).2.kind entry = some .dir ∧
        (exec (prepareTempDirectory order path) t).2.names entry = [] := by
  cases hfollow : follow t path with
  | ok place =>
    rw [exec_prepareTempDirectory hfollow] at h ⊢
    obtain ⟨u, t₁, hrun, hrest⟩ := exec_bind_ok h
    have hpart := part_rmNonEmptyDir order path t
    rw [hrun] at hpart
    rw [hrest] at h ⊢
    exact exec_mkdirSync_ok hpart h
  | error e =>
    rw [exec_prepareTempDirectory_new hfollow] at h ⊢
    exact exec_mkdirSync_ok (part_refl t) h

end Prepare

theorem exec_createArchive {execAsync : String → Code Unit} {order : Order} {folderPath : Path}
    {resultFilePath : String} {password : Option String} {t t₁ : FileTree String}
    (h : exec (execAsync (zipCommand folderPath resultFilePath password)) t = (.ok (), t₁)) :
    exec (createArchive execAsync order folderPath resultFilePath password) t =
      exec (rmNonEmptyDir order folderPath) t₁ := by
  rw [createArchive, exec_bind, h]

/-- What is removed is under the directory exactly when it is confined, and a run
that returns leaves nothing there. -/
theorem clearing_confined_iff (t : FileTree String) (path : Path) :
    ((∀ order, Lawful order → RemovesUnder t path (exec (rmNonEmptyDir order path) t).2) ↔
      Confined t path) ∧
    (∀ order, (exec (rmNonEmptyDir order path) t).1 = .ok () →
      Cleared t path (exec (rmNonEmptyDir order path) t).2) ∧
    ((∀ order, Lawful order →
      RemovesUnder t path (exec (prepareTempDirectory order path) t).2) ↔ Confined t path) ∧
    (∀ order, (exec (prepareTempDirectory order path) t).1 = .ok () →
      ∃ entry, locate t path = .ok entry ∧
        (exec (prepareTempDirectory order path) t).2.kind entry = some .dir ∧
        (exec (prepareTempDirectory order path) t).2.names entry = []) ∧
    ∀ (execAsync : String → Code Unit) (resultFilePath : String) (password : Option String)
      (t₁ : FileTree String),
      exec (execAsync (zipCommand path resultFilePath password)) t = (.ok (), t₁) →
      ((∀ order, Lawful order → RemovesUnder t₁ path
        (exec (createArchive execAsync order path resultFilePath password) t).2) ↔
          Confined t₁ path) ∧
      ∀ order, (exec (createArchive execAsync order path resultFilePath password) t).1 = .ok () →
        Cleared t₁ path
          (exec (createArchive execAsync order path resultFilePath password) t).2 := by
  refine ⟨rmNonEmptyDir_confined, fun order => rmNonEmptyDir_clears,
    prepareTempDirectory_confined, fun order => prepareTempDirectory_empty, ?_⟩
  intro execAsync resultFilePath password t₁ hzip
  simp only [exec_createArchive hzip]
  exact ⟨rmNonEmptyDir_confined, fun order => rmNonEmptyDir_clears⟩

/-! ### A link in the temporary directory -/

def tempDir : Path := [.name "tmp", .name "archipel-bootstrap"]

/-- The temporary directory has one entry, a link to a directory with a file. -/
def linkedEntries : List (List String × Kind String) :=
  [([], .dir), (["tmp"], .dir), (["tmp", "archipel-bootstrap"], .dir),
    (["tmp", "archipel-bootstrap", "link"], .link true [.name "home"]), (["home"], .dir),
    (["home", "keys"], .file)]

def linkedTree : FileTree String where
  entries := linkedEntries
  nodup := by decide
  root := rfl
  parent := by
    have hparent : ∀ entry ∈ linkedEntries,
        linkedEntries.lookup entry.1.dropLast = some .dir := by decide
    intro place name h
    rw [List.lookup_isSome_iff] at h
    obtain ⟨entry, hentry, hplace⟩ := h
    have hkey : place ++ [name] = entry.1 := by simpa using hplace
    have hdir := hparent entry hentry
    rw [← hkey, List.dropLast_concat] at hdir
    exact hdir

theorem linked_keys_removed :
    linkedTree.kind ["home", "keys"] = some .file ∧
    ¬ Under linkedTree tempDir ["home", "keys"] ∧
    Lawful (fun _ names => names) ∧
    (exec (rmNonEmptyDir (fun _ names => names) tempDir) linkedTree).2.kind ["home", "keys"] =
      none ∧
    (exec (rmNonEmptyDir (fun _ names => names) tempDir) linkedTree).1 =
      .error (.errno .ENOTDIR) ∧
    ¬ RemovesUnder linkedTree tempDir
      (exec (rmNonEmptyDir (fun _ names => names) tempDir) linkedTree).2 := by
  have hfile : linkedTree.kind ["home", "keys"] = some .file := rfl
  have hgone : (exec (rmNonEmptyDir (fun _ names => names) tempDir) linkedTree).2.kind
      ["home", "keys"] = none := by decide
  have hout : ¬ Under linkedTree tempDir ["home", "keys"] := by
    rintro ⟨entry, hentry, hprefix⟩
    have hplace : locate linkedTree tempDir = .ok ["tmp", "archipel-bootstrap"] := by rfl
    rw [hplace] at hentry
    cases hentry
    revert hprefix
    decide
  refine ⟨hfile, hout, fun _ names => List.Perm.refl names, hgone, by rfl, ?_⟩
  intro h
  exact hout (h _ (by rw [hfile]; rfl) hgone)

end Archipel.TempDirectory
