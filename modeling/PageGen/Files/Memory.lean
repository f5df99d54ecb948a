import PageGen.Files.Store

/-! Files in memory. Paths are the same if their parts are. A file can be
written only into a directory that has been made, or into none at all. -/
namespace PageGen

structure MemoryFiles where
  /-- Paths that are said to be files, without content. -/
  added : List (List Path.Part)
  directories : List (List Path.Part)
  /-- The contents that have been written, the latest first. -/
  written : List (List Path.Part × String)
  deriving DecidableEq, Repr

namespace MemoryFiles

def empty : MemoryFiles := ⟨[], [], []⟩

/-- The parts of a path and of everything above it, the empty path apart. -/
def ancestors : List Path.Part → List (List Path.Part)
  | [] => []
  | part :: rest => [part] :: (ancestors rest).map (part :: ·)

def addFile (files : MemoryFiles) (path : Path) : MemoryFiles :=
  { files with added := path.parts :: files.added }

def hasDirectory (files : MemoryFiles) (path : Path) : Bool :=
  files.directories.contains path.parts

def read (files : MemoryFiles) (path : Path) : Option String :=
  files.written.lookup path.parts

def pathExists (files : MemoryFiles) (path : Path) : Bool :=
  files.added.contains path.parts || files.hasDirectory path || (files.read path).isSome

/-- Makes a directory and everything above it. This never fails. -/
def createDirectories (files : MemoryFiles) (path : Path) : MemoryFiles :=
  { files with directories := ancestors path.parts ++ files.directories }

/-- Writes a file, unless its parent is a directory that is not known. -/
def write (files : MemoryFiles) (path : Path) (content : String) :
    Except FileError MemoryFiles :=
  match path.parent? with
  | none => .ok { files with written := (path.parts, content) :: files.written }
  | some parent =>
    if parent.text.isEmpty ∨ files.hasDirectory parent = true then
      .ok { files with written := (path.parts, content) :: files.written }
    else .error (.missingDirectory parent)

instance : FileStore (StateM MemoryFiles) where
  pathExists path := fun files => (files.pathExists path, files)
  createDirectories path := fun files => (.ok (), files.createDirectories path)
  write path content := fun files =>
    match files.write path content with
    | .ok next => (.ok (), next)
    | .error cause => (.error cause, files)

end MemoryFiles

end PageGen
