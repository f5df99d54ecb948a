import Mathlib.Tactic.SplitIfs
import PageGen.Proofs.References

/-! A reader of markup. Whatever comes before a `<` is text, and a tag goes from
there to the next `>` that is not in the quoted value of an attribute. Character
references are read in text and in values. The reader takes tags that are
properly nested and refuses all others; it knows nothing of how the markup that
it reads was made. -/
namespace PageGen

/-- Markup as it is read: text, and elements with attributes and an inside. -/
inductive Markup where
  | text (content : String)
  | element (tag : String) (attributes : List (String × String)) (children : List Markup)

namespace Markup

/-- The elements without an inside, which have no closing tag. -/
def voidTags : List String := ["link", "br", "input", "img"]

/-- Where the reader stands. -/
inductive Mode where
  | text (read : List Char)
  /-- Behind a `<`. The name of a closing tag begins with its slash. -/
  | tagName (read : List Char)
  | inTag (tag : List Char) (attributes : List (String × String))
  | attributeName (tag : List Char) (attributes : List (String × String)) (read : List Char)
  /-- Behind the `=` of an attribute. -/
  | equals (tag : List Char) (attributes : List (String × String)) (name : List Char)
  | value (tag : List Char) (attributes : List (String × String)) (name : List Char) (quote : Char)
    (read : List Char)

/-- An element whose closing tag is still to come. -/
structure Opened where
  tag : String
  attributes : List (String × String)
  /-- What comes before the element, inside the one around it. -/
  before : List Markup

/-- What has been read: the elements that are open, the innermost first, and the
inside of the innermost so far. -/
structure Reading where
  mode : Mode
  inside : List Markup
  opened : List Opened

/-- Text as a part of markup. No text at all is nothing. -/
def ofText (content : String) : List Markup := if content = "" then [] else [.text content]

namespace Reading

def start : Reading := ⟨.text [], [], []⟩

/-- Takes in text that is complete. -/
def addText (reading : Reading) (read : List Char) : Reading :=
  { reading with inside := reading.inside ++ ofText (decodeReferences (String.ofList read)) }

/-- Opens an element. A void one is complete with that. -/
def openTag (reading : Reading) (tag : String) (attributes : List (String × String)) : Reading :=
  if tag ∈ voidTags then
    ⟨.text [], reading.inside ++ [.element tag attributes []], reading.opened⟩
  else ⟨.text [], [], ⟨tag, attributes, reading.inside⟩ :: reading.opened⟩

/-- Closes the innermost element, which has to be the one of this tag. -/
def closeTag (reading : Reading) (tag : String) : Option Reading :=
  match reading.opened with
  | [] => none
  | last :: outer =>
    if last.tag = tag then
      some ⟨.text [], last.before ++ [.element tag last.attributes reading.inside], outer⟩
    else none

/-- The end of a tag, at its `>`. -/
def endTag (reading : Reading) (tag : List Char) (attributes : List (String × String)) :
    Option Reading :=
  match tag, attributes with
  | '/' :: name, [] => reading.closeTag (String.ofList name)
  | '/' :: _, _ :: _ => none
  | name, attributes => some (reading.openTag (String.ofList name) attributes)

def step (reading : Reading) (c : Char) : Option Reading :=
  match reading.mode with
  | .text read =>
    if c = '<' then some { reading.addText read with mode := .tagName [] }
    else some { reading with mode := .text (read ++ [c]) }
  | .tagName read =>
    if c = '>' then reading.endTag read []
    else if c.isWhitespace then some { reading with mode := .inTag read [] }
    else some { reading with mode := .tagName (read ++ [c]) }
  | .inTag tag attributes =>
    if c = '>' then reading.endTag tag attributes
    else if c.isWhitespace then some reading
    else some { reading with mode := .attributeName tag attributes [c] }
  | .attributeName tag attributes read =>
    if c = '=' then some { reading with mode := .equals tag attributes read }
    else if c = '>' ∨ c.isWhitespace then none
    else some { reading with mode := .attributeName tag attributes (read ++ [c]) }
  | .equals tag attributes name =>
    if c = '\x27' ∨ c = '\x22' then
      some { reading with mode := .value tag attributes name c [] }
    else none
  | .value tag attributes name quote read =>
    if c = quote then
      some { reading with
        mode := .inTag tag
          (attributes ++ [(String.ofList name, decodeReferences (String.ofList read))]) }
    else some { reading with mode := .value tag attributes name quote (read ++ [c]) }

end Reading

/-- Reads a text as markup, all of whose elements have to be closed at its end. -/
def read? (text : String) : Option (List Markup) := do
  let reading ← text.toList.foldlM Reading.step Reading.start
  match reading with
  | ⟨.text read, _, []⟩ => some (reading.addText read).inside
  | _ => none

/-- Reading goes on where it has come to. -/
theorem foldlM_append {reading next : Reading} {first : List Char}
    (hFirst : first.foldlM Reading.step reading = some next) (rest : List Char) :
    (first ++ rest).foldlM Reading.step reading = rest.foldlM Reading.step next := by
  rw [List.foldlM_append, hFirst]
  rfl

theorem foldlM_cons {reading next : Reading} {c : Char} (hStep : reading.step c = some next)
    (rest : List Char) :
    (c :: rest).foldlM Reading.step reading = rest.foldlM Reading.step next := by
  rw [List.foldlM_cons, hStep]
  rfl

/-- Where every character of a text is just added to what has been read, all of
them are. -/
theorem foldlM_collect (collect : List Char → Reading) {text : List Char}
    (hStep : ∀ read, ∀ c ∈ text, (collect read).step c = some (collect (read ++ [c])))
    (read : List Char) :
    text.foldlM Reading.step (collect read) = some (collect (read ++ text)) := by
  induction text generalizing read with
  | nil => simp
  | cons c rest ih =>
      rw [foldlM_cons (hStep read c List.mem_cons_self),
        ih (fun read c hMem => hStep read c (List.mem_cons_of_mem _ hMem)), List.append_assoc]
      rfl

/-- The names of elements and attributes. -/
def IsName (name : String) : Prop := name ≠ "" ∧ ∀ c ∈ name.toList, c.isAlphanum = true

theorem ne_of_isAlphanum {c other : Char} (hName : c.isAlphanum = true)
    (hOther : other.isAlphanum = false) : c ≠ other := by
  rintro rfl
  exact Bool.false_ne_true (hOther.symm.trans hName)

theorem isWhitespace_eq_false {c : Char} (hName : c.isAlphanum = true) :
    c.isWhitespace = false := by
  rw [Bool.eq_false_iff]
  intro hBlank
  simp only [Char.isWhitespace, Bool.or_eq_true, decide_eq_true_eq] at hBlank
  rcases hBlank with ((rfl | rfl) | rfl) | rfl <;> simp [Char.isAlphanum] at hName

variable {inside : List Markup} {opened : List Opened} {attributes : List (String × String)}
  {text : List Char}

theorem foldlM_text (hText : '<' ∉ text) (read : List Char) :
    text.foldlM Reading.step ⟨.text read, inside, opened⟩ =
      some ⟨.text (read ++ text), inside, opened⟩ := by
  refine foldlM_collect (fun read => ⟨.text read, inside, opened⟩) ?_ read
  intro read c hMem
  have hOther : c ≠ '<' := fun hSame => hText (hSame ▸ hMem)
  simp [Reading.step, hOther]

theorem foldlM_tagName (hText : ∀ c ∈ text, c.isAlphanum = true) (read : List Char) :
    text.foldlM Reading.step ⟨.tagName read, inside, opened⟩ =
      some ⟨.tagName (read ++ text), inside, opened⟩ := by
  refine foldlM_collect (fun read => ⟨.tagName read, inside, opened⟩) ?_ read
  intro read c hMem
  have hEnd : c ≠ '>' := ne_of_isAlphanum (hText c hMem) rfl
  simp [Reading.step, hEnd, isWhitespace_eq_false (hText c hMem)]

/-- The name of an attribute begins behind a blank. -/
theorem foldlM_attributeName {name : String} (hName : IsName name) (tag : List Char) :
    name.toList.foldlM Reading.step ⟨.inTag tag attributes, inside, opened⟩ =
      some ⟨.attributeName tag attributes name.toList, inside, opened⟩ := by
  obtain ⟨hNonempty, hPlain⟩ := hName
  obtain ⟨first, rest, hChars⟩ :=
    List.exists_cons_of_ne_nil (mt String.toList_eq_nil_iff.mp hNonempty)
  rw [hChars, List.forall_mem_cons] at hPlain
  have hFirst : Reading.step ⟨.inTag tag attributes, inside, opened⟩ first =
      some ⟨.attributeName tag attributes [first], inside, opened⟩ := by
    have hEnd : first ≠ '>' := ne_of_isAlphanum hPlain.1 rfl
    simp [Reading.step, hEnd, isWhitespace_eq_false hPlain.1]
  rw [hChars, foldlM_cons hFirst]
  refine foldlM_collect (fun read => ⟨.attributeName tag attributes read, inside, opened⟩) ?_
    [first]
  intro read c hMem
  have hEquals : c ≠ '=' := ne_of_isAlphanum (hPlain.2 c hMem) rfl
  have hEnd : c ≠ '>' := ne_of_isAlphanum (hPlain.2 c hMem) rfl
  simp [Reading.step, hEquals, hEnd, isWhitespace_eq_false (hPlain.2 c hMem)]

theorem foldlM_value {quote : Char} (hText : quote ∉ text) (tag name read : List Char) :
    text.foldlM Reading.step ⟨.value tag attributes name quote read, inside, opened⟩ =
      some ⟨.value tag attributes name quote (read ++ text), inside, opened⟩ := by
  refine foldlM_collect (fun read => ⟨.value tag attributes name quote read, inside, opened⟩) ?_
    read
  intro read c hMem
  have hOther : c ≠ quote := fun hSame => hText (hSame ▸ hMem)
  simp [Reading.step, hOther]

/-- Attributes as they stand in a tag: each behind a blank, and each value in
quotes that do not occur in it. -/
inductive AttributesWritten : List (String × String) → List Char → Prop where
  | nil : AttributesWritten [] []
  | cons {name written : String} {quote : Char} {rest : List (String × String)}
      {others : List Char} (hName : IsName name) (hQuote : quote = '\x27' ∨ quote = '\x22')
      (hClosed : quote ∉ written.toList) (hRest : AttributesWritten rest others) :
      AttributesWritten ((name, decodeReferences written) :: rest)
        (' ' :: (name.toList ++ '=' :: quote :: (written.toList ++ quote :: others)))

theorem AttributesWritten.append {more : List (String × String)} {others : List Char}
    (hFirst : AttributesWritten attributes text) (hMore : AttributesWritten more others) :
    AttributesWritten (attributes ++ more) (text ++ others) := by
  induction hFirst with
  | nil => exact hMore
  | cons hName hQuote hClosed _ ih =>
      simpa only [List.cons_append, List.append_assoc] using
        AttributesWritten.cons hName hQuote hClosed ih

theorem AttributesWritten.single {name value : String} (quote : Char)
    (hQuote : quote = '\x27' ∨ quote = '\x22') (hName : IsName name) (written : String)
    (hClosed : quote ∉ written.toList) (hValue : decodeReferences written = value)
    (hText : text = ' ' :: (name.toList ++ '=' :: quote :: (written.toList ++ [quote]))) :
    AttributesWritten [(name, value)] text := by
  rw [hText, ← hValue]
  exact .cons hName hQuote hClosed .nil

/-- An escaped value may stand in quotes of either kind. -/
theorem AttributesWritten.escaped {name : String} (quote : Char)
    (hQuote : quote = '\x27' ∨ quote = '\x22') (hName : IsName name) (value : String)
    (hText : text = ' ' :: (name.toList ++ '=' :: quote :: ((escapeHtml value).toList ++ [quote]))) :
    AttributesWritten [(name, value)] text := by
  have hClosed : quote ∉ (escapeHtml value).toList := by
    rw [escapeHtml, String.toList_ofList]
    exact Reference.not_mem_html (by rcases hQuote with rfl | rfl <;> simp) _
  exact .single quote hQuote hName _ hClosed (decodeReferences_escapeHtml value) hText

/-- An attribute is read from its name to its closing quote. -/
theorem foldlM_attribute {name written : String} {quote : Char} (hName : IsName name)
    (hQuote : quote = '\x27' ∨ quote = '\x22') (hClosed : quote ∉ written.toList)
    (tag rest : List Char) :
    (name.toList ++ '=' :: quote :: (written.toList ++ quote :: rest)).foldlM Reading.step
        ⟨.inTag tag attributes, inside, opened⟩ =
      rest.foldlM Reading.step
        ⟨.inTag tag (attributes ++ [(name, decodeReferences written)]), inside, opened⟩ := by
  have hEquals : Reading.step ⟨.attributeName tag attributes name.toList, inside, opened⟩ '=' =
      some ⟨.equals tag attributes name.toList, inside, opened⟩ := rfl
  have hOpen : Reading.step ⟨.equals tag attributes name.toList, inside, opened⟩ quote =
      some ⟨.value tag attributes name.toList quote [], inside, opened⟩ := by
    simp only [Reading.step, if_pos hQuote]
  have hClose :
      Reading.step ⟨.value tag attributes name.toList quote written.toList, inside, opened⟩
        quote =
      some ⟨.inTag tag (attributes ++ [(name, decodeReferences written)]), inside, opened⟩ := by
    simp only [Reading.step, if_true, String.ofList_toList]
  rw [foldlM_append (foldlM_attributeName hName tag), foldlM_cons hEquals, foldlM_cons hOpen,
    foldlM_append (foldlM_value hClosed _ _ []), List.nil_append, foldlM_cons hClose]

theorem foldlM_attributes (hWritten : AttributesWritten attributes text) (tag : List Char)
    (before : List (String × String)) :
    text.foldlM Reading.step ⟨.inTag tag before, inside, opened⟩ =
      some ⟨.inTag tag (before ++ attributes), inside, opened⟩ := by
  induction hWritten generalizing before with
  | nil => simp
  | cons hName hQuote hClosed _ ih =>
      have hBlank : Reading.step ⟨.inTag tag before, inside, opened⟩ ' ' =
          some ⟨.inTag tag before, inside, opened⟩ := rfl
      rw [foldlM_cons hBlank, foldlM_attribute hName hQuote hClosed, ih, List.append_assoc]
      rfl

/-- A blank behind the name of a tag begins its attributes. -/
theorem foldlM_blank (tag rest : List Char) :
    (' ' :: rest).foldlM Reading.step ⟨.tagName tag, inside, opened⟩ =
      (' ' :: rest).foldlM Reading.step ⟨.inTag tag [], inside, opened⟩ := rfl

/-- The rest of a tag behind its name. -/
theorem foldlM_endTag (hWritten : AttributesWritten attributes text) (tag rest : List Char) :
    (text ++ '>' :: rest).foldlM Reading.step ⟨.tagName tag, inside, opened⟩ =
      (Reading.endTag ⟨.inTag tag attributes, inside, opened⟩ tag attributes).bind
        (rest.foldlM Reading.step) := by
  have hAttributes : text.foldlM Reading.step ⟨.inTag tag [], inside, opened⟩ =
      some ⟨.inTag tag attributes, inside, opened⟩ := foldlM_attributes hWritten tag []
  cases hWritten with
  | nil => rfl
  | cons hName hQuote hClosed hRest =>
      rw [List.cons_append, foldlM_blank, ← List.cons_append, foldlM_append hAttributes]
      rfl

/-- An opening tag ends the text in front of it. -/
theorem foldlM_openTag {tag : String} (hTag : IsName tag)
    (hWritten : AttributesWritten attributes text) (read rest : List Char) :
    ('<' :: (tag.toList ++ (text ++ '>' :: rest))).foldlM Reading.step
        ⟨.text read, inside, opened⟩ =
      rest.foldlM Reading.step
        ((Reading.addText ⟨.text read, inside, opened⟩ read).openTag tag attributes) := by
  obtain ⟨hNonempty, hPlain⟩ := hTag
  obtain ⟨first, more, hChars⟩ :=
    List.exists_cons_of_ne_nil (mt String.toList_eq_nil_iff.mp hNonempty)
  have hSlash : first ≠ '/' := ne_of_isAlphanum (hPlain first (by simp [hChars])) rfl
  have hOpen : Reading.step ⟨.text read, inside, opened⟩ '<' =
      some { Reading.addText ⟨.text read, inside, opened⟩ read with mode := .tagName [] } := rfl
  have hEnd : ∀ reading : Reading, reading.endTag tag.toList attributes =
      some (reading.openTag tag attributes) := by
    intro reading
    rw [← String.ofList_toList (s := tag), hChars]
    simp [Reading.endTag, hSlash]
  rw [foldlM_cons hOpen, foldlM_append (foldlM_tagName hPlain []), List.nil_append,
    foldlM_endTag hWritten, hEnd]
  rfl

/-- The closing tag of the innermost element ends the text in front of it. -/
theorem foldlM_closeTag {tag : String} (hTag : IsName tag) {before : List Markup}
    (read rest : List Char) :
    ('<' :: '/' :: (tag.toList ++ '>' :: rest)).foldlM Reading.step
        ⟨.text read, inside, ⟨tag, attributes, before⟩ :: opened⟩ =
      rest.foldlM Reading.step ⟨.text [],
        before ++ [.element tag attributes
          (inside ++ ofText (decodeReferences (String.ofList read)))], opened⟩ := by
  have hOpen : Reading.step ⟨.text read, inside, ⟨tag, attributes, before⟩ :: opened⟩ '<' =
      some ⟨.tagName [], inside ++ ofText (decodeReferences (String.ofList read)),
        ⟨tag, attributes, before⟩ :: opened⟩ := rfl
  have hSlash : ∀ inside : List Markup,
      Reading.step ⟨.tagName [], inside, ⟨tag, attributes, before⟩ :: opened⟩ '/' =
        some ⟨.tagName ['/'], inside, ⟨tag, attributes, before⟩ :: opened⟩ := fun _ => rfl
  have hEnd : ∀ inside : List Markup, Reading.step ⟨.tagName ('/' :: tag.toList), inside,
      ⟨tag, attributes, before⟩ :: opened⟩ '>' =
        some ⟨.text [], before ++ [.element tag attributes inside], opened⟩ := by
    intro inside
    simp [Reading.step, Reading.endTag, Reading.closeTag]
  rw [foldlM_cons hOpen, foldlM_cons (hSlash _), foldlM_append (foldlM_tagName hTag.2 ['/']),
    List.singleton_append, foldlM_cons (hEnd _)]

end Markup
end PageGen
