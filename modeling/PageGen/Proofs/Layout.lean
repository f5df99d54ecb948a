import PageGen.Proofs.Lines
import PageGen.Proofs.Markup
import PageGen.Text.Escape

/-! The layout of a page: every element on lines of its own, with the margin of
its depth. What a reader of markup makes of such lines is told once for each form
of an element. It comes to the elements with text between them, the line breaks
and margins, and nothing that is written in them changes that. -/
namespace PageGen

/-- An element as it is to be on a page. -/
inductive Part where
  /-- An element with text in it. -/
  | line (tag : String) (attributes : List (String × String)) (content : String)
  | void (tag : String) (attributes : List (String × String))
  /-- An element with others in it, each on lines of its own. -/
  | block (tag : String) (attributes : List (String × String)) (inside : List Part)

namespace Part

open Markup

/-- The text between two lines, with its references read as in any text. -/
def lineStart (indent : String) (depth : Nat) : Markup :=
  .text (decodeReferences ("\n" ++ Writer.margin indent depth))

mutual

/-- The element as markup, if it stands at this depth. -/
def markup (indent : String) (depth : Nat) : Part → Markup
  | .line tag attributes content => .element tag attributes (ofText content)
  | .void tag attributes => .element tag attributes []
  | .block tag attributes inside =>
    .element tag attributes (laidOut indent (depth + 1) inside ++ [lineStart indent depth])

/-- Elements as markup, each with what comes before its first line. -/
def laidOut (indent : String) (depth : Nat) : List Part → List Markup
  | [] => []
  | part :: rest =>
    lineStart indent depth :: part.markup indent depth :: laidOut indent depth rest

end

theorem laidOut_append (indent : String) (depth : Nat) (first rest : List Part) :
    laidOut indent depth (first ++ rest) =
      laidOut indent depth first ++ laidOut indent depth rest := by
  induction first with
  | nil => rfl
  | cons part others ih => simp only [List.cons_append, laidOut, ih]

end Part

/-- An element on one line. -/
def elementLine (tag attributes content : String) : String :=
  "<" ++ tag ++ attributes ++ ">" ++ escapeHtml content ++ "</" ++ tag ++ ">"

/-- An element around lines. -/
def blockText (indent : String) (depth : Nat) (tag attributes lines : String) : String :=
  Writer.lineText indent depth ("<" ++ tag ++ attributes ++ ">") ++ lines ++
    Writer.lineText indent depth ("</" ++ tag ++ ">")

/-- Behind a line break, the text is read as these elements, up to the line
break at its end. -/
def ReadsAs (indent : String) (depth : Nat) (text : String) (parts : List Part) : Prop :=
  ∀ inside opened, text.toList.foldlM Markup.Reading.step ⟨.text ['\n'], inside, opened⟩ =
    some ⟨.text ['\n'], inside ++ Part.laidOut indent depth parts, opened⟩

namespace ReadsAs

open Markup

variable {indent : String} {depth : Nat} {tag attributesText : String}
  {attributes : List (String × String)}

theorem lt_not_mem_margin (hIndent : '<' ∉ indent.toList) (depth : Nat) :
    '<' ∉ (Writer.margin indent depth).toList := by
  simp only [Writer.margin, String.toList_join, List.mem_flatMap, List.mem_replicate, not_exists,
    not_and]
  rintro text ⟨-, rfl⟩
  exact hIndent

/-- The margin of a line comes to the line break in front of it. -/
theorem foldlM_margin (hIndent : '<' ∉ indent.toList) (depth : Nat) (inside : List Markup)
    (opened : List Opened) (rest : List Char) :
    ((Writer.margin indent depth).toList ++ rest).foldlM Reading.step
        ⟨.text ['\n'], inside, opened⟩ =
      rest.foldlM Reading.step
        ⟨.text ("\n" ++ Writer.margin indent depth).toList, inside, opened⟩ := by
  rw [foldlM_append (foldlM_text (lt_not_mem_margin hIndent depth) _)]
  simp

theorem ofText_lineStart (indent : String) (depth : Nat) :
    ofText (decodeReferences (String.ofList ("\n" ++ Writer.margin indent depth).toList)) =
      [Part.lineStart indent depth] := by
  have hBreak : decodeReferences ("\n" ++ Writer.margin indent depth) ≠ "" := by
    simp [decodeReferences, Reference.decode_cons]
  rw [String.ofList_toList, ofText, if_neg hBreak, Part.lineStart]

theorem of_eq {text other : String} {parts : List Part} (hReads : ReadsAs indent depth text parts)
    (hText : other = text) : ReadsAs indent depth other parts := by
  rw [hText]
  exact hReads

theorem nil : ReadsAs indent depth "" [] := by
  intro inside opened
  simp [Part.laidOut]

theorem append {first rest : String} {parts others : List Part}
    (hFirst : ReadsAs indent depth first parts) (hRest : ReadsAs indent depth rest others) :
    ReadsAs indent depth (first ++ rest) (parts ++ others) := by
  intro inside opened
  rw [String.toList_append, foldlM_append (hFirst inside opened), hRest, Part.laidOut_append,
    List.append_assoc]

/-- An element without an inside. -/
theorem void (hIndent : '<' ∉ indent.toList) (hTag : IsName tag) (hVoid : tag ∈ voidTags)
    (hWritten : AttributesWritten attributes attributesText.toList) :
    ReadsAs indent depth (Writer.lineText indent depth ("<" ++ tag ++ attributesText ++ ">"))
      [.void tag attributes] := by
  intro inside opened
  have hChars : (Writer.lineText indent depth ("<" ++ tag ++ attributesText ++ ">")).toList =
      (Writer.margin indent depth).toList ++
        ('<' :: (tag.toList ++ (attributesText.toList ++ '>' :: ['\n']))) := by
    simp [Writer.lineText]
  rw [hChars, foldlM_margin hIndent, foldlM_openTag hTag hWritten, Reading.openTag, if_pos hVoid,
    Reading.addText, ofText_lineStart, List.append_assoc]
  rfl

/-- An element on one line, with whatever text in it. -/
theorem line (hIndent : '<' ∉ indent.toList) (hTag : IsName tag) (hVoid : tag ∉ voidTags)
    (hWritten : AttributesWritten attributes attributesText.toList) (content : String) :
    ReadsAs indent depth (Writer.lineText indent depth (elementLine tag attributesText content))
      [.line tag attributes content] := by
  intro inside opened
  have hChars : (Writer.lineText indent depth (elementLine tag attributesText content)).toList =
      (Writer.margin indent depth).toList ++
        ('<' :: (tag.toList ++ (attributesText.toList ++ '>' ::
          ((escapeHtml content).toList ++ '<' :: '/' :: (tag.toList ++ '>' :: ['\n']))))) := by
    simp [Writer.lineText, elementLine]
  have hContent : '<' ∉ (escapeHtml content).toList := by
    rw [escapeHtml, String.toList_ofList]
    exact Reference.not_mem_html (by simp) _
  rw [hChars, foldlM_margin hIndent, foldlM_openTag hTag hWritten, Reading.openTag, if_neg hVoid,
    Reading.addText, ofText_lineStart, foldlM_append (foldlM_text hContent []),
    foldlM_closeTag hTag, List.nil_append, List.nil_append, String.ofList_toList,
    decodeReferences_escapeHtml, List.append_assoc]
  rfl

/-- An element with others in it, from its opening tag to its closing tag. -/
theorem foldlM_block (hIndent : '<' ∉ indent.toList) (hTag : IsName tag) (hVoid : tag ∉ voidTags)
    (hWritten : AttributesWritten attributes attributesText.toList) {lines : String}
    {parts : List Part} (hLines : ReadsAs indent (depth + 1) lines parts) (read : List Char)
    (inside : List Markup) (opened : List Opened) (rest : List Char) :
    ('<' :: (tag.toList ++ (attributesText.toList ++ '>' :: '\n' :: (lines.toList ++
        ((Writer.margin indent depth).toList ++ '<' :: '/' :: (tag.toList ++ '>' :: rest)))))).foldlM
        Reading.step ⟨.text read, inside, opened⟩ =
      rest.foldlM Reading.step
        ⟨.text [], inside ++ ofText (decodeReferences (String.ofList read)) ++
          [(Part.block tag attributes parts).markup indent depth], opened⟩ := by
  have hBreak : ∀ opened, Reading.step ⟨.text [], [], opened⟩ '\n' =
      some ⟨.text ['\n'], [], opened⟩ := fun _ => rfl
  rw [foldlM_openTag hTag hWritten, Reading.openTag, if_neg hVoid, Reading.addText,
    foldlM_cons (hBreak _), foldlM_append (hLines _ _), foldlM_margin hIndent,
    foldlM_closeTag hTag, ofText_lineStart, List.nil_append]
  rfl

theorem block (hIndent : '<' ∉ indent.toList) (hTag : IsName tag) (hVoid : tag ∉ voidTags)
    (hWritten : AttributesWritten attributes attributesText.toList) {lines : String}
    {parts : List Part} (hLines : ReadsAs indent (depth + 1) lines parts) :
    ReadsAs indent depth (blockText indent depth tag attributesText lines)
      [.block tag attributes parts] := by
  intro inside opened
  have hChars : (blockText indent depth tag attributesText lines).toList =
      (Writer.margin indent depth).toList ++
        '<' :: (tag.toList ++ (attributesText.toList ++ '>' :: '\n' :: (lines.toList ++
          ((Writer.margin indent depth).toList ++ '<' :: '/' :: (tag.toList ++ '>' :: ['\n']))))) := by
    simp [blockText, Writer.lineText]
  rw [hChars, foldlM_margin hIndent, foldlM_block hIndent hTag hVoid hWritten hLines,
    ofText_lineStart, List.append_assoc]
  rfl

/-- A text that is a single element around lines, and nothing else. -/
theorem read?_block (hIndent : '<' ∉ indent.toList) (hTag : IsName tag) (hVoid : tag ∉ voidTags)
    (hWritten : AttributesWritten attributes attributesText.toList) {lines : String}
    {parts : List Part} (hLines : ReadsAs indent 1 lines parts) :
    read? (blockText indent 0 tag attributesText lines) =
      some [(Part.block tag attributes parts).markup indent 0, .text "\n"] := by
  have hChars : (blockText indent 0 tag attributesText lines).toList =
      '<' :: (tag.toList ++ (attributesText.toList ++ '>' :: '\n' :: (lines.toList ++
        ((Writer.margin indent 0).toList ++ '<' :: '/' :: (tag.toList ++ '>' :: ['\n']))))) := by
    simp [blockText, Writer.lineText, Writer.margin]
  rw [read?, hChars, Reading.start, foldlM_block hIndent hTag hVoid hWritten hLines]
  rfl

end ReadsAs

end PageGen
