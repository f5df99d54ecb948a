import PageGen.Files.Path

/-! What the program asks of a file system. -/
namespace PageGen

inductive FileError where
  | notFound
  | notADirectory
  | isADirectory
  | alreadyExists
  | notText
  | forbiddenCharacter
  /-- The directory to be written to is not known. -/
  | missingDirectory (directory : Path)
  | other (description : String)
  deriving DecidableEq, Repr

def FileError.message : FileError → String
  | .notFound => "No such file or directory (os error 2)"
  | .notADirectory => "Not a directory (os error 20)"
  | .isADirectory => "Is a directory (os error 21)"
  | .alreadyExists => "File exists (os error 17)"
  | .notText => "stream did not contain valid UTF-8"
  | .forbiddenCharacter => "file name contained an unexpected NUL byte"
  | .missingDirectory directory => "directory " ++ directory.text ++ " does not exist"
  | .other description => description

class FileStore (m : Type → Type) where
  /-- Whether there is a file or a directory. -/
  pathExists : Path → m Bool
  /-- Makes a directory and all that are missing above it. -/
  createDirectories : Path → m (Except FileError Unit)
  /-- Writes a whole file, in place of what was there. -/
  write : Path → String → m (Except FileError Unit)

class FileSystem (m : Type → Type) extends FileStore m where
  isFile : Path → m Bool
  read : Path → m (Except FileError String)

end PageGen
