import PageGen.Files.Directories

/-! A tree of files and directories, without links. Here paths are resolved:
they start at the root, every directory on the way has to be there, and `..`
leads to the directory above. -/
namespace PageGen

/-- Where something is: the names on the way from the root. -/
abbrev Location := List (List Char)

inductive Entry where
  | file (content : ByteArray)
  | directory

structure FileTree where
  /-- What is where, the root apart. Of two entries for one place the first counts. -/
  entries : List (Location × Entry)

namespace FileTree

def empty : FileTree := ⟨[]⟩

def entry? (tree : FileTree) (location : Location) : Option Entry :=
  if location = [] then some .directory else tree.entries.lookup location

def put (tree : FileTree) (location : Location) (entry : Entry) : FileTree :=
  ⟨(location, entry) :: tree.entries⟩

def enter (tree : FileTree) (location : Location) : Except FileError Unit :=
  match tree.entry? location with
  | some .directory => .ok ()
  | some (.file _) => .error .notADirectory
  | none => .error .notFound

/-- Follows pieces of a path from a location. What they lead to need not be
there; all that they lead through has to be. -/
def follow (tree : FileTree) (location : Location) : List (List Char) → Except FileError Location
  | [] => .ok location
  | piece :: rest => do
    tree.enter location
    let next :=
      if Path.isSilent piece then location
      else if piece = ['.', '.'] then location.dropLast
      else location ++ [piece]
    follow tree next rest

/-- The pieces of a path, unless it holds a character that no path may hold. -/
def checkedPieces (path : Path) : Except FileError (List (List Char)) :=
  if path.holdsNul then .error .forbiddenCharacter
  else .ok (Path.split path.text.toList)

def locate (tree : FileTree) (path : Path) : Except FileError Location := do
  let pieces ← checkedPieces path
  tree.follow [] pieces

def find (tree : FileTree) (path : Path) : Except FileError Entry := do
  let location ← tree.locate path
  match tree.entry? location with
  | some entry => .ok entry
  | none => .error .notFound

def pathExists (tree : FileTree) (path : Path) : Bool :=
  match tree.find path with
  | .ok _ => true
  | .error _ => false

def isFile (tree : FileTree) (path : Path) : Bool :=
  match tree.find path with
  | .ok (.file _) => true
  | _ => false

def isDirectory (tree : FileTree) (path : Path) : Bool :=
  match tree.find path with
  | .ok .directory => true
  | _ => false

def read (tree : FileTree) (path : Path) : Except FileError String := do
  match ← tree.find path with
  | .directory => .error .isADirectory
  | .file content =>
    match String.fromUTF8? content with
    | some text => .ok text
    | none => .error .notText

/-- Writes a file, new or in place of what it held. -/
def write (tree : FileTree) (path : Path) (content : String) : Except FileError FileTree := do
  let location ← tree.locate path
  match tree.entry? location with
  | some .directory => .error .isADirectory
  | some (.file _) => .ok (tree.put location (.file content.toUTF8))
  | none => .ok (tree.put location (.file content.toUTF8))

/-- Makes one directory. Slashes at the end of its path do not matter. -/
def createDirectory (tree : FileTree) (path : Path) : Except FileError FileTree := do
  let pieces ← checkedPieces path
  match pieces.reverse.dropWhile (· == []) with
  | [] => .error .alreadyExists
  | last :: before =>
    let parent ← tree.follow [] before.reverse
    tree.enter parent
    if Path.isSilent last ∨ last = ['.', '.'] then .error .alreadyExists
    else
      match tree.entry? (parent ++ [last]) with
      | some _ => .error .alreadyExists
      | none => .ok (tree.put (parent ++ [last]) .directory)

/-- Runs an operation on the tree, which stays as it was if that fails. -/
def attempt (operation : FileTree → Except FileError FileTree) :
    StateM FileTree (Except FileError Unit) := fun tree =>
  match operation tree with
  | .ok next => (.ok (), next)
  | .error cause => (.error cause, tree)

instance : FileSystem (StateM FileTree) where
  pathExists path := fun tree => (tree.pathExists path, tree)
  createDirectories path :=
    createWithParents (m := StateM FileTree) (fun path => attempt (createDirectory · path))
      (fun path => fun tree => (tree.isDirectory path, tree)) (path :: path.parents)
  write path content := attempt (write · path content)
  isFile path := fun tree => (tree.isFile path, tree)
  read path := fun tree => (tree.read path, tree)

end FileTree

end PageGen
