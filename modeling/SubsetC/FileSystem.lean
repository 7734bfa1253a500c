import SubsetC.Path

/-!
# Files

What the command line needs of a file system, as an interface with two operations: reading a file,
and replacing a file while a lock file beside it is held. `FileSystem` is a model of it: a tree
of directories with files, and a working directory that relative paths start from.
-/

namespace SubsetC

/-- Why the system refuses an operation. -/
inductive FileCause where
  | notFound
  | isDirectory
  | notDirectory
  /-- The path or a part of it is longer than the system takes. -/
  | nameTooLong
  /-- The path holds a byte that no path holds. -/
  | invalidPath
  /-- Any other reason, in the words of the system. -/
  | other (reason : Text)
  deriving DecidableEq, Repr

def FileCause.text : FileCause → Text
  | .notFound => "no such file or directory"
  | .isDirectory => "is a directory"
  | .notDirectory => "not a directory"
  | .nameTooLong => "file name too long"
  | .invalidPath => "invalid argument"
  | .other reason => reason

/-- An operation the system refuses. -/
structure FileError where
  operation : Text
  /-- The path it was asked for. -/
  path : Text
  cause : FileCause
  deriving DecidableEq, Repr

/-- The wording of a refusal. -/
def FileError.text (error : FileError) : Text :=
  error.operation ++ " " ++ error.path ++ ": " ++ error.cause.text

/-- Why a file could not be replaced. -/
inductive ReplaceError where
  /-- The lock file could not be had. -/
  | lock (error : FileError)
  /-- The file itself could not be written. -/
  | write (error : FileError)
  deriving DecidableEq, Repr

/-- Access to files. -/
structure FileAccess (m : Type → Type) where
  /-- The content of a file at a path. -/
  read : (path : Text) → m (Except FileError Text)
  /-- Gives the file at a path a content, while holding a lock file, which is created if there is
  none. -/
  replace : (lock path content : Text) → m (Except ReplaceError Unit)

/-- What stands at a path. -/
inductive FileNode where
  | file (content : Text)
  | directory
  deriving DecidableEq, Repr

/-- Files and directories, by the names that lead to them from the root. -/
structure FileSystem where
  /-- The names that lead to the directory that relative paths start from. -/
  workingDirectory : List Text
  /-- The entries. Directories on the way to an entry need none of their own. -/
  entries : List (List Text × FileNode)
  deriving DecidableEq, Repr

namespace FileSystem

/-- What stands where names lead to. -/
def find? (files : FileSystem) (names : List Text) : Option FileNode :=
  match files.entries.lookup names with
  | some node => some node
  | none =>
    if names.isPrefixOf files.workingDirectory ||
        files.entries.any (fun entry => names.isPrefixOf entry.1) then
      some .directory
    else none

/-- The files with a content where names lead to. -/
def put (files : FileSystem) (names : List Text) (content : Text) : FileSystem :=
  { files with
    entries := (files.entries.filter fun entry => entry.1 ≠ names) ++ [(names, .file content)] }

/-- The number of bytes a name may have. -/
def maxNameLength : Nat := 255

/-- The number of bytes a path may have. -/
def maxPathLength : Nat := 4095

/-- Where the parts of a path lead to from a place. All places on the way must be directories, and
the root is above itself. -/
def walk (files : FileSystem) (here : List Text) : List Text → Except FileCause (List Text)
  | [] => .ok here
  | part :: rest =>
    match files.find? here with
    | none => .error .notFound
    | some (.file _) => .error .notDirectory
    | some .directory =>
      if part = "" ∨ part = "." then files.walk here rest
      else if part = ".." then files.walk here.dropLast rest
      else if maxNameLength < part.length then .error .nameTooLong
      else files.walk (here ++ [part]) rest

/-- Where a path leads to. -/
def resolve (files : FileSystem) (path : Text) : Except FileCause (List Text) :=
  if path.contains 0 then .error .invalidPath
  else if path.isEmpty then .error .notFound
  else if maxPathLength < path.length then .error .nameTooLong
  else if Path.isAbsolute path then files.walk [] (Path.parts path)
  else files.walk files.workingDirectory (Path.parts path)

/-- The content of the file at a path. -/
def read (files : FileSystem) (path : Text) : Except FileError Text :=
  match files.resolve path with
  | .error cause => .error ⟨"open", path, cause⟩
  | .ok names =>
    match files.find? names with
    | none => .error ⟨"open", path, .notFound⟩
    | some .directory => .error ⟨"read", path, .isDirectory⟩
    | some (.file content) => .ok content

/-- The files with the content of the file at a path changed. A file that does not exist starts
out empty. -/
def change (files : FileSystem) (path : Text) (update : Text → Text) :
    Except FileError FileSystem :=
  match files.resolve path with
  | .error cause => .error ⟨"open", path, cause⟩
  | .ok names =>
    match files.find? names with
    | some .directory => .error ⟨"open", path, .isDirectory⟩
    | some (.file content) => .ok (files.put names (update content))
    | none => .ok (files.put names (update []))

/-- The files after one is replaced while a lock file is held. -/
def replace (lock path content : Text) (files : FileSystem) :
    Except ReplaceError Unit × FileSystem :=
  match files.change lock id with
  | .error error => (.error (.lock error), files)
  | .ok files =>
    match files.change path fun _ => content with
    | .error error => (.error (.write error), files)
    | .ok files => (.ok (), files)

/-- Access to the files of the model. -/
def access : FileAccess (StateM FileSystem) where
  read path := do pure ((← get).read path)
  replace lock path content := modifyGet (replace lock path content)

end FileSystem

end SubsetC
