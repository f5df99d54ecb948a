/-! Paths, as they are written and as the lists of parts that they mean. Nothing
is resolved: two spellings mean the same path if their parts are equal. -/
namespace PageGen

structure Path where
  text : String
  deriving DecidableEq, Repr

namespace Path

inductive Part where
  /-- The leading slash of an absolute path. -/
  | root
  /-- A leading `.`; any other is no part. -/
  | here
  | up
  | name (s : List Char)
  deriving DecidableEq, Repr

/-- The pieces between slashes. There is one more of them than there are slashes. -/
def split : List Char → List (List Char)
  | [] => [[]]
  | c :: rest =>
    if c = '/' then [] :: split rest
    else
      match split rest with
      | [] => [[c]]
      | piece :: pieces => (c :: piece) :: pieces

def join : List (List Char) → List Char
  | [] => []
  | [piece] => piece
  | piece :: rest => piece ++ '/' :: join rest

inductive Start where
  | root
  | here
  | relative
  deriving DecidableEq, Repr

/-- The start of a path and the pieces behind it. -/
def pieces (path : Path) : Start × List (List Char) :=
  match split path.text.toList with
  | [] :: piece :: rest => (.root, piece :: rest)
  | ['.'] :: rest => (.here, rest)
  | all => (.relative, all)

def ofPieces (start : Start) (pieces : List (List Char)) : Path :=
  ⟨String.ofList
    (match start, pieces with
    | .root, [] => ['/']
    | .root, pieces => join ([] :: pieces)
    | .here, pieces => join (['.'] :: pieces)
    | .relative, pieces => join pieces)⟩

/-- Whether a piece is no part: it is empty or a `.`. -/
def isSilent (piece : List Char) : Bool := piece == [] || piece == ['.']

def part? (piece : List Char) : Option Part :=
  if isSilent piece then none
  else if piece = ['.', '.'] then some .up
  else some (.name piece)

def Start.parts : Start → List Part
  | .root => [.root]
  | .here => [.here]
  | .relative => []

/-- The parts that a path means. -/
def parts (path : Path) : List Part :=
  let (start, pieces) := path.pieces
  start.parts ++ pieces.filterMap part?

/-- What is above a path of which the pieces are given from the last to the
first. What is above keeps the slashes that were written inside of it. -/
def above (start : Start) : List (List Char) → List Path
  | [] =>
    match start with
    | .here => [⟨""⟩]
    | .root => []
    | .relative => []
  | piece :: rest =>
    if isSilent piece then above start rest
    else ofPieces start (rest.dropWhile isSilent).reverse :: above start rest

/-- The path without its last part, without its last two, and so on. The last
of these is the root, or the empty path. -/
def parents (path : Path) : List Path :=
  let (start, pieces) := path.pieces
  above start pieces.reverse

/-- The path without its last part. The root and the empty path have none. -/
def parent? (path : Path) : Option Path := path.parents.head?

/-- The last part, if it is a name. -/
def fileName? (path : Path) : Option (List Char) :=
  match path.parts.getLast? with
  | some (.name s) => some s
  | _ => none

/-- What follows the last dot of the file name, unless the name starts with
that dot. -/
def extension? (path : Path) : Option (List Char) :=
  match path.fileName? with
  | none => none
  | some name =>
    let suffix := (name.reverse.takeWhile (· != '.')).reverse
    let stem := name.take (name.length - suffix.length - 1)
    if suffix.length < name.length ∧ stem ≠ [] then some suffix else none

/-- Whether a path holds the character that no file name may hold. -/
def holdsNul (path : Path) : Bool := path.text.toList.contains '\x00'

def isAbsolute (path : Path) : Bool := path.text.toList.head? == some '/'

/-- A path seen from a directory. An absolute path stands for itself. -/
def within (directory path : Path) : Path :=
  if path.isAbsolute ∨ directory.text.isEmpty then path
  else if directory.text.toList.getLast? = some '/' then ⟨directory.text ++ path.text⟩
  else ⟨directory.text ++ "/" ++ path.text⟩

end Path

end PageGen
