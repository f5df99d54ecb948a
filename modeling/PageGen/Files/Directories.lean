import PageGen.Files.Store

/-! Making a directory with all that is missing above it, where only one
directory can be made at a time, and only in one that is there. -/
namespace PageGen

variable {m : Type → Type} [Monad m]

/-- Makes the first of these paths, each of which lies above the one before.
Where something above is missing that is made first. A path that already leads
to a directory will do; what was made before a failure stays. -/
def createWithParents (create : Path → m (Except FileError Unit)) (isDirectory : Path → m Bool) :
    List Path → m (Except FileError Unit)
  | [] => pure (.ok ())
  | path :: above => do
    if path.text.isEmpty ∨ path.parent? = none then pure (.ok ())
    else
      match ← create path with
      | .ok () => pure (.ok ())
      | .error .notFound =>
        match ← createWithParents create isDirectory above with
        | .error cause => pure (.error cause)
        | .ok () => existing (← create path) path
      | .error cause => existing (.error cause) path
where
  /-- A failure does not matter if there is a directory. -/
  existing (outcome : Except FileError Unit) (path : Path) : m (Except FileError Unit) := do
    match outcome with
    | .ok () => pure (.ok ())
    | .error cause => if ← isDirectory path then pure (.ok ()) else pure (.error cause)

end PageGen
