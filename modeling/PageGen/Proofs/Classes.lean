import PageGen.Proofs.Encounters
import PageGen.Proofs.PageTree

/-! The classes on a page, as a reader of its markup finds them. Only a page header
has any, so they tell which headers the body of the document comes to. -/
namespace PageGen

namespace Markup

/-- The names in the value of a class attribute, with blanks between them. -/
def classNames (value : String) : List String :=
  (value.toList.splitOnP Char.isWhitespace).map String.ofList

/-- The classes of an element with these attributes. -/
def ownClasses (attributes : List (String × String)) : List String :=
  match attributes.lookup "class" with
  | none => []
  | some value => classNames value

mutual

/-- The classes of an element and of all that is in it. -/
def classes : Markup → List String
  | .text _ => []
  | .element _ attributes children => ownClasses attributes ++ classesIn children

@[inherit_doc classes]
def classesIn : List Markup → List String
  | [] => []
  | first :: rest => first.classes ++ classesIn rest

end

end Markup

namespace Part

open Markup

variable (margin : String) (depth : Nat)

variable {attributes : List (String × String)} (hNone : attributes.lookup "class" = none)

include hNone

end Part

/-- The classes that an element has on a page. -/
def Element.classes : Element → List String
  | .topbar _ fixed _ => Markup.classNames (Html.topbarClass fixed)
  | _ => []

namespace Html

open Markup PageGen.Part

variable {context : Context} {parts : List Part} {margin : String} {depth : Nat}

end Html

namespace Document

open Markup PageGen.Part

variable {document : Document} {name : String}

end Document

end PageGen
