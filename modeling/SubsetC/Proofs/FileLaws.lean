import SubsetC.FileSystem
import SubsetC.Proofs.ArtifactPaths

/-!
# Laws of file access

What a program can rely on when it reads and replaces files, whatever the system is. `FileView` is
what can be seen of the files in a world: where paths lead, and what stands there. `FileAccess.Laws`
says what the two operations do to it. `FileSystem` follows the laws: writing to a path touches one
place, and directories stay what they are, so that paths lead where they led before.
-/

namespace SubsetC

/-! ### Laws -/

/-- What can be seen of the files in a world. They stand at places. -/
structure FileView (World Place : Type) where
  /-- Where a path leads to. Nothing needs to stand there. -/
  resolve : World → Text → Option Place
  find? : World → Place → Option FileNode
  /-- A write of a content that fails may leave this one. -/
  MayLeave : (content left : Text) → Prop

namespace FileView

variable {World Place : Type}

/-- The contents that a file may have after it is replaced by a content, by how that ends. -/
def Leaves (view : FileView World Place) (content : Text) : Except ReplaceError Unit → Text → Prop
  | .ok (), left => left = content
  | .error (.write _), left => view.MayLeave content left
  | .error (.lock _), _ => False

theorem Leaves.eq_or_mayLeave {view : FileView World Place} {content left : Text}
    {result : Except ReplaceError Unit} (leaves : view.Leaves content result left) :
    left = content ∨ ∃ error, result = .error error ∧ view.MayLeave content left := by
  rcases result with (error | error) | done
  · exact leaves.elim
  · exact .inr ⟨_, rfl, leaves⟩
  · exact .inl leaves

/-- No links: under another name in the same directory stands something else. -/
def Unlinked (view : FileView World Place) (world : World) : Prop :=
  ∀ path name place, Path.slash ∉ name → name ∉ ["", ".", ".."].map Text.ofString →
    view.resolve world path = some place →
      view.resolve world (Path.parent path ++ name) = some place → Path.fileName path = name

/-- How the replacement of a file may end, and what it may do. -/
structure Replaces (view : FileView World Place) (before : World) (lock path content : Text)
    (run : Except ReplaceError Unit × World) : Prop where
  /-- Paths lead where they led before. -/
  resolve : ∀ other, view.resolve run.2 other = view.resolve before other
  /-- The file is written, and the lock file is there, empty if it was not there before. -/
  find? : ∀ place, view.find? run.2 place = view.find? before place ∨
    (view.resolve before path = some place ∧
      ∃ left, view.Leaves content run.1 left ∧ view.find? run.2 place = some (.file left)) ∨
    view.resolve before lock = some place ∧ view.find? before place = none ∧
      view.find? run.2 place = some (.file [])

end FileView

/-- What reading and replacing files do. -/
structure FileAccess.Laws {World Place : Type} (access : FileAccess (StateM World))
    (view : FileView World Place) : Prop where
  /-- Reading changes nothing. -/
  read_keeps : ∀ world path, ((access.read path).run world).2 = world
  /-- What is read is the content of the file that the path leads to. -/
  read_eq_ok : ∀ world path content, ((access.read path).run world).1 = .ok content ↔
    ∃ place, view.resolve world path = some place ∧
      view.find? world place = some (.file content)
  replaces : ∀ world lock path content,
    view.Replaces world lock path content ((access.replace lock path content).run world)

namespace FileSystem

variable {files before after : FileSystem} {names other here : List Text} {path content : Text}

/-! ### Places -/

/-- Something stands where names lead to, or below. -/
def Reaches (files : FileSystem) (names : List Text) : Prop :=
  names <+: files.workingDirectory ∨ ∃ entry ∈ files.entries, names <+: entry.1

theorem Reaches.of_prefix (reaches : files.Reaches names) (isPrefix : other <+: names) :
    files.Reaches other := by
  rcases reaches with working | ⟨entry, mem, below⟩
  · exact .inl (isPrefix.trans working)
  · exact .inr ⟨entry, mem, isPrefix.trans below⟩

theorem reaches_iff (files : FileSystem) (names : List Text) :
    (names.isPrefixOf files.workingDirectory ||
      files.entries.any fun entry => names.isPrefixOf entry.1) = true ↔ files.Reaches names := by
  simp only [Reaches, Bool.or_eq_true, List.any_eq_true, List.isPrefixOf_iff_prefix]

theorem reaches_of_find? {node : FileNode} (found : files.find? names = some node) :
    files.Reaches names := by
  unfold find? at found
  split at found
  · rename_i entry
    rcases List.lookup_eq_some_iff.1 entry with ⟨front, back, parts, _⟩
    exact .inr ⟨(names, node), by simp_all, List.prefix_rfl⟩
  · split_ifs at found with condition
    exact (files.reaches_iff names).1 condition

theorem find?_congr (sameEntry : before.entries.lookup names = after.entries.lookup names)
    (sameReach : before.Reaches names ↔ after.Reaches names) :
    before.find? names = after.find? names := by
  have condition := Bool.eq_iff_iff.2
    ((before.reaches_iff names).trans (sameReach.trans (after.reaches_iff names).symm))
  unfold find?
  rw [sameEntry, condition]

/-- Files can stand where names lead to: there is a directory above. -/
def IsPlace (files : FileSystem) (names : List Text) : Prop :=
  ∀ front, front <+: names → front ≠ names → files.Reaches front

theorem isPlace_nil (files : FileSystem) : files.IsPlace [] := by
  intro front isPrefix differs
  exact absurd (List.prefix_nil.1 isPrefix) differs

theorem isPlace_workingDirectory (files : FileSystem) : files.IsPlace files.workingDirectory :=
  fun _ isPrefix _ => .inl isPrefix

theorem IsPlace.dropLast (isPlace : files.IsPlace names) : files.IsPlace names.dropLast := by
  intro front isPrefix differs
  apply isPlace front (isPrefix.trans names.dropLast_prefix)
  rintro rfl
  have sameLength := isPrefix.length_le
  apply differs
  exact (front.dropLast_prefix.eq_of_length (by
    have := front.dropLast_prefix.length_le
    omega)).symm

theorem Reaches.isPlace_append (reaches : files.Reaches names) (name : Text) :
    files.IsPlace (names ++ [name]) := by
  intro front isPrefix differs
  rcases List.prefix_concat_iff.1 isPrefix with same | isPrefix
  · exact absurd same differs
  · exact reaches.of_prefix isPrefix

theorem lookup_put (files : FileSystem) (names other : List Text) (content : Text) :
    (files.put names content).entries.lookup other =
      if other = names then some (.file content) else files.entries.lookup other := by
  rcases files with ⟨workingDirectory, entries⟩
  simp only [put, List.lookup_append]
  induction entries with
  | nil =>
      by_cases same : other = names
      · simp [same]
      · simp [same, List.lookup_cons, beq_eq_false_iff_ne.2 same]
  | cons entry entries ih =>
      rcases entry with ⟨key, node⟩
      by_cases removed : key = names
      · by_cases same : other = names
        · simpa [removed, same] using ih
        · simpa [removed, same, List.lookup_cons, beq_eq_false_iff_ne.2 same] using ih
      · by_cases isKey : other = key
        · simp [removed, isKey, List.lookup_cons]
        · simpa [removed, List.lookup_cons, beq_eq_false_iff_ne.2 isKey] using ih

theorem reaches_put (isPlace : files.IsPlace names) (content : Text) (differs : other ≠ names) :
    (files.put names content).Reaches other ↔ files.Reaches other := by
  constructor
  · rintro (working | ⟨entry, mem, below⟩)
    · exact .inl working
    · simp only [put, List.mem_append, List.mem_filter, List.mem_singleton] at mem
      rcases mem with ⟨mem, _⟩ | rfl
      · exact .inr ⟨entry, mem, below⟩
      · exact isPlace other below differs
  · rintro (working | ⟨entry, mem, below⟩)
    · exact .inl working
    · by_cases replaced : entry.1 = names
      · exact .inr ⟨(names, .file content), by simp [put], replaced ▸ below⟩
      · exact .inr ⟨entry, by simp [put, mem, replaced], below⟩

/-- A file in its place changes nothing elsewhere. -/
theorem find?_put (isPlace : files.IsPlace names) (content : Text) (other : List Text) :
    (files.put names content).find? other =
      if other = names then some (.file content) else files.find? other := by
  have entry := files.lookup_put names other content
  split_ifs with same
  · rw [if_pos same] at entry
    simp [find?, entry]
  · rw [if_neg same] at entry
    exact find?_congr entry (reaches_put isPlace content same)

/-! ### Ways -/

/-- Where a part of a path leads to from a directory, if it is not too long. -/
def enter (here : List Text) (part : Text) : Option (List Text) :=
  if part = "" ∨ part = "." then some here
  else if part = ".." then some here.dropLast
  else if maxNameLength < part.length then none
  else some (here ++ [part])

theorem walk_cons_eq_ok {part : Text} {parts : List Text} :
    files.walk here (part :: parts) = .ok names ↔ files.find? here = some .directory ∧
      ∃ next, enter here part = some next ∧ files.walk next parts = .ok names := by
  rw [walk]
  unfold enter
  cases files.find? here with
  | none => simp
  | some node =>
      cases node with
      | file => simp
      | directory => split_ifs <;> simp

theorem walk_append {first second : List Text} :
    files.walk here (first ++ second) = .ok names ↔
      ∃ there, files.walk here first = .ok there ∧ files.walk there second = .ok names := by
  induction first generalizing here with
  | nil => simp [walk]
  | cons part first ih =>
      rw [List.cons_append, walk_cons_eq_ok]
      simp only [walk_cons_eq_ok, ih]
      constructor
      · rintro ⟨isDirectory, next, enters, there, leads, others⟩
        exact ⟨there, ⟨isDirectory, next, enters, leads⟩, others⟩
      · rintro ⟨there, ⟨isDirectory, next, enters, leads⟩, others⟩
        exact ⟨isDirectory, next, enters, there, leads, others⟩

theorem walk_singleton {part : Text} : files.walk here [part] = .ok names ↔
    files.find? here = some .directory ∧ enter here part = some names := by
  rw [walk_cons_eq_ok]
  simp [walk]

/-- A name that stands for no directory is added at the end, and nothing else leads there. -/
theorem eq_of_enter {part name : Text} (notSpecial : name ∉ (["", ".", ".."].map Text.ofString))
    (enters : enter here part = some names) (enters' : enter here name = some names) :
    part = name := by
  simp only [List.map_cons, List.map_nil, List.mem_cons, List.not_mem_nil, or_false, not_or]
    at notSpecial
  have atEnd : names = here ++ [name] := by
    unfold enter at enters'
    rw [if_neg (by simp_all), if_neg notSpecial.2.2] at enters'
    split_ifs at enters'
    exact (Option.some.inj enters').symm
  have longer : names.length = here.length + 1 := by simp [atEnd]
  unfold enter at enters
  split_ifs at enters
  · cases enters
    omega
  · cases enters
    rw [List.length_dropLast] at longer
    omega
  · simpa using (Option.some.inj enters).trans atEnd

theorem IsPlace.enter {part : Text} {next : List Text} (isPlace : files.IsPlace here)
    (reaches : files.Reaches here) (enters : enter here part = some next) :
    files.IsPlace next := by
  unfold FileSystem.enter at enters
  split_ifs at enters
  · cases enters
    exact isPlace
  · cases enters
    exact isPlace.dropLast
  · cases enters
    exact reaches.isPlace_append part

theorem IsPlace.walk {parts : List Text} (isPlace : files.IsPlace here)
    (leads : files.walk here parts = .ok names) : files.IsPlace names := by
  induction parts generalizing here with
  | nil =>
      cases leads
      exact isPlace
  | cons part parts ih =>
      rcases walk_cons_eq_ok.1 leads with ⟨isDirectory, next, enters, leads⟩
      exact ih (isPlace.enter (reaches_of_find? isDirectory) enters) leads

/-- Where relative and absolute paths start. -/
def start (files : FileSystem) (path : Text) : List Text :=
  if Path.isAbsolute path then [] else files.workingDirectory

/-- The path is no path at all. -/
def IsRefused (path : Text) : Prop :=
  path.contains 0 ∨ path.isEmpty ∨ maxPathLength < path.length

theorem resolve_eq_ok : files.resolve path = .ok names ↔
    ¬IsRefused path ∧ files.walk (files.start path) (Path.parts path) = .ok names := by
  unfold resolve IsRefused start
  split_ifs <;> simp_all

theorem isPlace_of_resolve (leads : files.resolve path = .ok names) : files.IsPlace names := by
  have isStart : files.IsPlace (files.start path) := by
    unfold start
    split_ifs
    · exact files.isPlace_nil
    · exact files.isPlace_workingDirectory
  exact isStart.walk (resolve_eq_ok.1 leads).2

/-- Both have the same directories, and paths start from the same one. -/
structure SameDirectories (before after : FileSystem) : Prop where
  workingDirectory : after.workingDirectory = before.workingDirectory
  directory_iff : ∀ names,
    after.find? names = some .directory ↔ before.find? names = some .directory

namespace SameDirectories

theorem refl (files : FileSystem) : files.SameDirectories files := ⟨rfl, fun _ => Iff.rfl⟩

theorem trans {later : FileSystem} (first : before.SameDirectories after)
    (second : after.SameDirectories later) : before.SameDirectories later :=
  ⟨second.workingDirectory.trans first.workingDirectory,
    fun names => (second.directory_iff names).trans (first.directory_iff names)⟩

/-- Paths lead where they led before. -/
theorem resolve_iff (same : before.SameDirectories after) :
    after.resolve path = .ok names ↔ before.resolve path = .ok names := by
  have sameWalk : ∀ parts here,
      after.walk here parts = .ok names ↔ before.walk here parts = .ok names := by
    intro parts
    induction parts with
    | nil => simp [walk]
    | cons part parts ih =>
        intro here
        simp only [walk_cons_eq_ok, same.directory_iff, ih]
  rw [resolve_eq_ok, resolve_eq_ok, sameWalk, start, start, same.workingDirectory]

end SameDirectories

/-! ### Writes -/

/-- The content of the file where names lead to. What is no file has none. -/
def contentAt (files : FileSystem) (names : List Text) : Text :=
  match files.find? names with
  | some (.file content) => content
  | _ => []

theorem read_eq_ok : files.read path = .ok content ↔
    ∃ names, files.resolve path = .ok names ∧ files.find? names = some (.file content) := by
  unfold read
  split
  · simp_all
  · rename_i names leads
    simp only [leads, Except.ok.injEq, exists_eq_left']
    split <;> simp_all

theorem exists_of_change {update : Text → Text} (changed : before.change path update = .ok after) :
    ∃ names, before.resolve path = .ok names ∧ before.find? names ≠ some .directory ∧
      after = before.put names (update (before.contentAt names)) := by
  unfold change at changed
  split at changed
  · cases changed
  · rename_i names leads
    refine ⟨names, leads, ?_⟩
    unfold contentAt
    split at changed
    · cases changed
    · rename_i found
      cases changed
      simp [found]
    · rename_i found
      cases changed
      simp [found]

/-- Where no directory is, a file leaves the directories as they are. -/
theorem sameDirectories_put (isPlace : files.IsPlace names)
    (notDirectory : files.find? names ≠ some .directory) (content : Text) :
    files.SameDirectories (files.put names content) := by
  refine ⟨rfl, fun other => ?_⟩
  rw [find?_put isPlace]
  split_ifs with same
  · subst same
    simp [notDirectory]
  · exact Iff.rfl

/-- A change touches one file, which has the changed content afterwards. -/
theorem change_effects {update : Text → Text} (changed : before.change path update = .ok after) :
    before.SameDirectories after ∧ ∀ names, after.find? names = before.find? names ∨
      before.resolve path = .ok names ∧ before.find? names ≠ some .directory ∧
        after.find? names = some (.file (update (before.contentAt names))) := by
  rcases exists_of_change changed with ⟨names, leads, notDirectory, rfl⟩
  have isPlace := isPlace_of_resolve leads
  refine ⟨sameDirectories_put isPlace notDirectory _, fun other => ?_⟩
  rw [find?_put isPlace]
  split_ifs with same
  · subst same
    exact .inr ⟨leads, notDirectory, rfl⟩
  · exact .inl rfl

/-- A lock file that is there stays as it is. -/
theorem lock_effects (locked : before.change path id = .ok after) :
    before.SameDirectories after ∧ ∀ names, after.find? names = before.find? names ∨
      before.resolve path = .ok names ∧ before.find? names = none ∧
        after.find? names = some (.file []) := by
  rcases change_effects locked with ⟨same, effects⟩
  refine ⟨same, fun names => ?_⟩
  rcases effects names with unchanged | ⟨leads, notDirectory, found⟩
  · exact .inl unchanged
  · unfold contentAt at found
    cases present : before.find? names with
    | none => exact .inr ⟨leads, rfl, by simpa [present] using found⟩
    | some node =>
        cases node with
        | file content => exact .inl (by simpa [present] using found)
        | directory => exact absurd present notDirectory

theorem replace_cases (lock path content : Text) (files : FileSystem) :
    (replace lock path content files).2 = files ∨ ∃ locked, files.change lock id = .ok locked ∧
      ((replace lock path content files).2 = locked ∨
        (replace lock path content files).1 = .ok () ∧
          locked.change path (fun _ => content) = .ok (replace lock path content files).2) := by
  unfold replace
  cases files.change lock id with
  | error error => simp
  | ok locked => cases writing : locked.change path fun _ => content <;> simp [writing]

/-- Replacing a file under a lock changes the file, and the lock file if there was none. -/
theorem replace_effects (lock path content : Text) (files : FileSystem) :
    files.SameDirectories (replace lock path content files).2 ∧ ∀ names,
      (replace lock path content files).2.find? names = files.find? names ∨
      (files.resolve path = .ok names ∧ (replace lock path content files).1 = .ok () ∧
        (replace lock path content files).2.find? names = some (.file content)) ∨
      files.resolve lock = .ok names ∧ files.find? names = none ∧
        (replace lock path content files).2.find? names = some (.file []) := by
  rcases replace_cases lock path content files with same | ⟨locked, locking, rest⟩
  · rw [same]
    exact ⟨.refl files, fun _ => .inl rfl⟩
  · rcases lock_effects locking with ⟨sameLocked, lockEffects⟩
    rcases rest with same | ⟨succeeds, writing⟩
    · rw [same]
      exact ⟨sameLocked, fun names => (lockEffects names).imp_right .inr⟩
    · rcases change_effects writing with ⟨sameWritten, effects⟩
      refine ⟨sameLocked.trans sameWritten, fun names => ?_⟩
      rcases effects names with unchanged | ⟨leads, _, found⟩
      · rw [unchanged]
        exact (lockEffects names).imp_right .inr
      · exact .inr (.inl ⟨sameLocked.resolve_iff.1 leads, succeeds, found⟩)

/-! ### The model follows the laws -/

/-- What can be seen of the files of the model. A write that fails leaves what was there. -/
def view : FileView FileSystem (List Text) where
  resolve files path := (files.resolve path).toOption
  find? := find?
  MayLeave _ _ := False

theorem view_resolve_eq_some :
    view.resolve files path = some names ↔ files.resolve path = .ok names := by
  change (files.resolve path).toOption = some names ↔ _
  cases files.resolve path <;> simp [Except.toOption]

theorem access_laws : access.Laws view where
  read_keeps _ _ := rfl
  read_eq_ok files path content := by
    change files.read path = .ok content ↔ _
    simp only [read_eq_ok, view_resolve_eq_some]
    rfl
  replaces files lock path content := by
    change view.Replaces files lock path content (replace lock path content files)
    rcases replace_effects lock path content files with ⟨sameDirectories, effects⟩
    refine ⟨fun other => ?_, fun names => ?_⟩
    · apply Option.ext
      intro names
      rw [view_resolve_eq_some, view_resolve_eq_some]
      exact sameDirectories.resolve_iff
    · simp only [view_resolve_eq_some]
      rcases effects names with unchanged | ⟨leads, succeeds, written⟩ | locked
      · exact .inl unchanged
      · refine .inr (.inl ⟨leads, content, ?_, written⟩)
        rw [succeeds]
        exact rfl
      · exact .inr (.inr locked)

/-- There are no links in the model. -/
theorem view_unlinked (files : FileSystem) : view.Unlinked files := by
  intro path name names noSlash notSpecial leads leads'
  rw [view_resolve_eq_some] at leads leads'
  rcases Path.exists_parts path with ⟨directories, parts⟩
  have pathParts := parts (Path.fileName path) (Path.slash_notMem_fileName path)
  have nameParts := parts name noSlash
  rw [Path.parent_append_fileName] at pathParts
  have way := (resolve_eq_ok.1 leads).2
  have way' := (resolve_eq_ok.1 leads').2
  rw [start, pathParts.2, pathParts.1, walk_append] at way
  rw [start, nameParts.2, nameParts.1, walk_append] at way'
  rcases way with ⟨there, toThere, last⟩
  rcases way' with ⟨there', toThere', last'⟩
  obtain rfl : there = there' := Except.ok.inj (toThere.symm.trans toThere')
  exact eq_of_enter notSpecial (walk_singleton.1 last).2 (walk_singleton.1 last').2

end FileSystem

end SubsetC
