/-!
# Files

Why a file could not be read or written, and a tree of files below a working directory, in which names are
looked up step by step along a path.
-/

namespace RowConsole

/-! ## Section 1: Failures -/

/-- Why a file could not be read or written. -/
inductive FileFault where
  | notFound
  | notADirectory
  | isADirectory
  | nameTooLong
  /-- The path holds a null character. -/
  | nullInPath
  /-- Any other failure, as the system describes it. -/
  | other (message : String)
  deriving DecidableEq, Repr

namespace FileFault

/-- The description of a failure. -/
def message : FileFault → String
  | .notFound => "No such file or directory (os error 2)"
  | .notADirectory => "Not a directory (os error 20)"
  | .isADirectory => "Is a directory (os error 21)"
  | .nameTooLong => "File name too long (os error 36)"
  | .nullInPath => "file name contained an unexpected NUL byte"
  | .other message => message

/-- Whether something is there although it could not be read. -/
def isPresent : FileFault → Bool
  | .isADirectory | .other _ => true
  | .notFound | .notADirectory | .nameTooLong | .nullInPath => false

end FileFault

/-! ## Section 2: Trees -/

/-- The files below a working directory, by the names along their paths, and the directories that hold no
file. -/
structure FileTree where
  files : List (List String × String) := []
  emptyFolders : List (List String) := []

/-- Where a path leads: below the working directory, with the names along the way, the last first, or to a
directory outside. -/
inductive Place where
  | inside (names : List String)
  | outside
  deriving DecidableEq, Repr

namespace FileTree

/-- The names along a path. -/
def splitPath (path : String) : List String :=
  (path.splitToList (· == '/'))

/-- A tree from files given by their relative paths. -/
def ofFiles (files : List (String × String)) (emptyFolders : List String) : FileTree :=
  ⟨files.map fun (path, content) => (splitPath path, content), emptyFolders.map splitPath⟩

/-- The content of the file with some names along its path. -/
def fileAt? (t : FileTree) (names : List String) : Option String :=
  t.files.lookup names

/-- Whether a directory has some names along its path. -/
def isFolder (t : FileTree) (names : List String) : Bool :=
  names.isEmpty || t.files.any (fun f => f.1 != names && names.isPrefixOf f.1) ||
    t.emptyFolders.any names.isPrefixOf

/-- Goes one name further. -/
def step (t : FileTree) (place : Place) (name : String) : Except FileFault Place :=
  let here := match place with
    | .inside names => names.isEmpty || t.isFolder names.reverse
    | .outside => true
  if !here then .error .notADirectory
  else if name = "" || name = "." then .ok place
  else if name = ".." then
    match place with
    | .inside (_ :: names) => .ok (.inside names)
    | .inside [] | .outside => .ok .outside
  else if 255 < name.utf8ByteSize then .error .nameTooLong
  else
    match place with
    | .outside => .error .notFound
    | .inside names =>
      let path := (name :: names).reverse
      if (t.fileAt? path).isSome || t.isFolder path then .ok (.inside (name :: names))
      else .error .notFound

/-- Where a path starts and the names along it. -/
def readPath (path : String) : Except FileFault (Place × List String) :=
  if path.toList.contains '\x00' then .error .nullInPath
  else if path = "" then .error .notFound
  else if 4096 ≤ path.utf8ByteSize then .error .nameTooLong
  else .ok (if path.toList.head? = some '/' then .outside else .inside [], splitPath path)

/-- The place that a path leads to. -/
def resolve (t : FileTree) (path : String) : Except FileFault Place := do
  let (start, names) ← readPath path
  names.foldlM t.step start

/-- The content of a file. -/
def read (t : FileTree) (path : String) : Except FileFault String :=
  match t.resolve path with
  | .error f => .error f
  | .ok .outside => .error .isADirectory
  | .ok (.inside names) =>
    match t.fileAt? names.reverse with
    | some content => .ok content
    | none => .error .isADirectory

/-- Gives a file a content. -/
def put (t : FileTree) (names : List String) (content : String) : FileTree :=
  { t with files := t.files.filter (fun f => f.1 != names) ++ [(names, content)] }

/-- Writes a file, which is created in its directory if it is not there. A path that ends in a slash or in dots
names a directory, whether it is there or not. -/
def write (t : FileTree) (path content : String) : Except FileFault FileTree := do
  let (start, names) ← readPath path
  match names.reverse.dropWhile (· = "") with
  | [] => throw .isADirectory
  | name :: before =>
    let folder ← (before.reverse ++ ["."]).foldlM t.step start
    if names.getLast? = some "" || name = "." || name = ".." then throw .isADirectory
    match folder, t.step folder name with
    | _, .ok (.inside place) =>
      if t.isFolder place.reverse then throw .isADirectory
      else return t.put place.reverse content
    | .inside place, .error .notFound => return t.put (place.reverse ++ [name]) content
    | _, .ok .outside => throw .isADirectory
    | _, .error fault => throw fault

end FileTree

end RowConsole
