import PageGen.Command.Generate
import PageGen.Files.Directories

/-! The program: the command line on the real file system. -/
namespace PageGen

namespace Program

def errorOf (cause : IO.Error) : FileError :=
  match cause with
  | .noFileOrDirectory _ _ _ => .notFound
  | .alreadyExists _ _ _ => .alreadyExists
  | .inappropriateType _ _ _ => .notADirectory
  | other => .other (toString other)

/-- Runs an operation on a path and gives its failure as a value. -/
def attempt {α : Type} (path : Path) (operation : IO α) : IO (Except FileError α) := do
  if path.holdsNul then return .error .forbiddenCharacter
  try
    let value ← operation
    pure (.ok value)
  catch cause => pure (.error (errorOf cause))

/-- Whether there is something at a path, and whether it is a directory. -/
def inspect (path : Path) : IO (Option Bool) := do
  try
    let real ← IO.FS.realPath path.text
    if ← real.pathExists then
      let isDirectory ← real.isDir
      pure (some isDirectory)
    else pure none
  catch _ => pure none

instance : FileSystem IO where
  pathExists path := do
    let found ← inspect path
    pure found.isSome
  isFile path := do
    let found ← inspect path
    pure (found == some false)
  createDirectories path :=
    createWithParents (fun path => attempt path (IO.FS.createDir path.text))
      (fun path => do
        let found ← inspect path
        pure (found == some true))
      (path :: path.parents)
  write path content := do
    match ← inspect path with
    | some true => pure (.error .isADirectory)
    | _ => attempt path (IO.FS.writeFile path.text content)
  read path := do
    match ← inspect path with
    | some true => pure (.error .isADirectory)
    | _ =>
      match ← attempt path (IO.FS.readBinFile path.text) with
      | .error cause => pure (.error cause)
      | .ok content =>
        match String.fromUTF8? content with
        | some text => pure (.ok text)
        | none => pure (.error .notText)

end Program

end PageGen

def main (arguments : List String) : IO UInt32 := do
  let cwd ← IO.currentDir
  let report ← PageGen.Command.run ⟨cwd.toString⟩ arguments
  IO.print report.stdout
  IO.eprint report.stderr
  pure report.code
