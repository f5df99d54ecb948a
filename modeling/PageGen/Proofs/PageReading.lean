import Mathlib
import PageGen.Proofs.Blocks
import PageGen.Proofs.PageTree

/-! The page as a reader of markup finds it. What is written for one node is read
as what the node stands for, a walk over a body adds up what it writes, and the
page as a whole is read as its tree. -/
namespace PageGen

namespace Html

open Markup Writer

variable {context : Context} {indent : String}

/-- What is written is the escaped text of the expression. -/
theorem textContent_eq_ok {expr : Expr} {written : String}
    (hOk : (textContent context expr).result = .ok written) :
    ∃ text, expr.textIn context = .ok text ∧ written = escapeHtml text := by
  obtain ⟨value, hValue, hDone⟩ := Run.result_bind_eq_ok_iff.mp hOk
  obtain rfl := Except.ok.inj hDone
  exact ⟨value.text, by rw [Expr.textIn, hValue]; rfl, rfl⟩

theorem styleAttribute_eq_ok {styles : List StyleDeclaration} {written : String}
    (hOk : (styleAttribute context styles).result = .ok written) :
    ∃ attributes, styleAttributes context styles = .ok attributes ∧
      AttributesWritten attributes written.toList := by
  obtain ⟨style, hStyle, hDone⟩ := Run.result_bind_eq_ok_iff.mp hOk
  obtain rfl := Except.ok.inj hDone
  refine ⟨_, by rw [styleAttributes, hStyle]; rfl, ?_⟩
  by_cases hEmpty : style = ""
  · simpa [hEmpty] using AttributesWritten.nil
  · simpa [hEmpty] using .escaped '\x27' (.inl rfl) (by simp [IsName]) style (by simp)

theorem attributesWritten_none : AttributesWritten [] "".toList := .nil

theorem isName_headingTag (level : UInt8) : IsName (headingTag level) := by
  refine ⟨by simp [headingTag], fun c hMem => ?_⟩
  simp only [headingTag, String.toList_append, String.toList_ofList, List.mem_append] at hMem
  rcases hMem with hHead | hDigit
  · obtain rfl : c = 'h' := by simpa using hHead
    rfl
  · simp [Char.isAlphanum, Nat.isDigit_of_mem_toDigits (by decide) (by decide) hDigit]

theorem headingTag_not_mem_voidTags (level : UInt8) : headingTag level ∉ voidTags := by
  have hFirst : ∀ tag ∈ voidTags, tag.toList.head? ≠ some 'h' := by simp [voidTags]
  intro hMem
  exact hFirst _ hMem (by simp [headingTag])

/-- A single line that is an element with text in it. -/
theorem readsAs_line (hIndent : '<' ∉ indent.toList) (depth : Nat) {tag : String} (hTag : IsName tag)
    (hVoid : tag ∉ voidTags) {attributes : List (String × String)} {attributesText : String}
    (hWritten : AttributesWritten attributes attributesText.toList) {content text : String}
    (hText : text = elementLine tag attributesText content) :
    ReadsAs indent depth (linesText indent depth [⟨0, text⟩]) [.line tag attributes content] :=
  (ReadsAs.line hIndent hTag hVoid hWritten content).of_eq (by simp [hText, linesText])

/-- A single line that is an element without an inside. -/
theorem readsAs_void (hIndent : '<' ∉ indent.toList) (depth : Nat) {tag : String} (hTag : IsName tag)
    (hVoid : tag ∈ voidTags) {attributes : List (String × String)} {attributesText : String}
    (hWritten : AttributesWritten attributes attributesText.toList) {text : String}
    (hText : text = "<" ++ tag ++ attributesText ++ ">") :
    ReadsAs indent depth (linesText indent depth [⟨0, text⟩]) [.void tag attributes] :=
  (ReadsAs.void hIndent hTag hVoid hWritten).of_eq (by simp [hText, linesText])

theorem inputLine_eq_ok {name written : String} {placeholder : Option Expr}
    (hOk : (inputLine context (escapeHtml name) placeholder).result = .ok written) :
    ∃ part, inputPart context name placeholder = .ok part ∧
      ∀ indent depth, '<' ∉ indent.toList →
        ReadsAs indent depth (linesText indent depth [⟨0, written⟩]) [part] := by
  have hType : AttributesWritten [("type", "text")] " type='text'".toList :=
    .single '\x27' (.inl rfl) (by simp [IsName]) "text" (by simp) (by decide) (by simp)
  have hId : AttributesWritten [("id", name)] (" id='" ++ escapeHtml name ++ "'").toList :=
    .escaped '\x27' (.inl rfl) (by simp [IsName]) name (by simp)
  cases placeholder with
  | none =>
      obtain rfl := Except.ok.inj hOk
      refine ⟨_, rfl, fun indent depth hIndent => ?_⟩
      have hWritten := hType.append hId
      rw [← String.toList_append] at hWritten
      exact readsAs_void hIndent depth (by simp [IsName]) (by simp [voidTags]) hWritten
        (String.ext (by simp))
  | some placeholder =>
      obtain ⟨text, hText, hDone⟩ := Run.result_bind_eq_ok_iff.mp hOk
      obtain rfl := Except.ok.inj hDone
      obtain ⟨text, hValue, rfl⟩ := textContent_eq_ok hText
      refine ⟨.void "input" [("type", "text"), ("id", name), ("placeholder", text)],
        by rw [inputPart, hValue]; rfl, fun indent depth hIndent => ?_⟩
      have hPlaceholder : AttributesWritten [("placeholder", text)]
          (" placeholder='" ++ escapeHtml text ++ "'").toList :=
        .escaped '\x27' (.inl rfl) (by simp [IsName]) text (by simp)
      have hWritten := (hType.append hId).append hPlaceholder
      rw [← String.toList_append, ← String.toList_append] at hWritten
      exact readsAs_void hIndent depth (by simp [IsName]) (by simp [voidTags]) hWritten
        (String.ext (by simp))

theorem readsAs_append {depth : Nat} {first next : Line} {parts others : List Part}
    (hFirst : ReadsAs indent depth (linesText indent depth [first]) parts)
    (hNext : ReadsAs indent depth (linesText indent depth [next]) others) :
    ReadsAs indent depth (linesText indent depth [first, next]) (parts ++ others) := by
  have hBoth := hFirst.append hNext
  simpa only [linesText, String.append_empty] using hBoth

theorem attributesWritten_href (address : String) :
    AttributesWritten [("href", address)] (" href='" ++ escapeHtml address ++ "'").toList :=
  .escaped '\x27' (.inl rfl) (by simp [IsName]) address (by simp)

/-- The escapes of this attribute leave everything but the ampersand and the
quote around it as it is. -/
theorem attributesWritten_onclick (call : String) :
    AttributesWritten [("onclick", call)] (" onclick='" ++ escapeSingleQuoted call ++ "'").toList := by
  have hClosed : '\x27' ∉ (escapeSingleQuoted call).toList := by
    rw [escapeSingleQuoted, String.toList_ofList]
    exact Reference.quote_not_mem_singleQuoted _
  exact .single '\x27' (.inl rfl) (by simp [IsName]) _ hClosed
    (decodeReferences_escapeSingleQuoted call) (by simp)

/-- A header with its single link is three elements in each other. -/
theorem readsAs_topbar (hIndent : '<' ∉ indent.toList) (depth : Nat) (fixed : Bool)
    {style : List (String × String)} {styleText : String}
    (hStyle : AttributesWritten style styleText.toList) (content : String) :
    ReadsAs indent depth
      (linesText indent depth
        [⟨0, "<header class='" ++ topbarClass fixed ++ "'" ++ styleText ++ ">"⟩,
          ⟨1, "<nav>"⟩,
          ⟨2, "<a" ++ styleText ++ " href='./'>" ++ escapeHtml content ++ "</a>"⟩,
          ⟨1, "</nav>"⟩,
          ⟨0, "</header>"⟩])
      [.block "header" ([("class", topbarClass fixed)] ++ style)
        [.block "nav" [] [.line "a" (style ++ [("href", "./")]) content]]] := by
  have hClass : AttributesWritten [("class", topbarClass fixed)]
      (" class='" ++ topbarClass fixed ++ "'").toList := by
    refine .single '\x27' (.inl rfl) (by simp [IsName]) (topbarClass fixed) ?_ ?_ (by simp)
    all_goals cases fixed <;> decide
  have hHome : AttributesWritten [("href", "./")] " href='./'".toList :=
    .single '\x27' (.inl rfl) (by simp [IsName]) "./" (by decide) (by decide) (by decide)
  have hLinkAttributes := hStyle.append hHome
  have hHeaderAttributes := hClass.append hStyle
  rw [← String.toList_append] at hLinkAttributes hHeaderAttributes
  have hLink := @ReadsAs.line indent (depth + 1 + 1) "a" _ _ hIndent (by simp [IsName])
    (by simp [voidTags]) hLinkAttributes content
  have hNav := @ReadsAs.block indent (depth + 1) "nav" _ _ hIndent (by simp [IsName])
    (by simp [voidTags]) attributesWritten_none _ _ hLink
  have hHeader := @ReadsAs.block indent depth "header" _ _ hIndent (by simp [IsName])
    (by simp [voidTags]) hHeaderAttributes _ _ hNav
  exact hHeader.of_eq (String.ext (by simp [linesText, blockText, lineText, elementLine]))

/-- What is written for an element of a body is read as what the element stands
for. -/
theorem bodyElement_readsAs (hIndent : '<' ∉ indent.toList) (depth : Nat) {e : Element}
    {outcome : Emission (List Writer.Call)} (hOk : (bodyElement context e).result = .ok outcome) :
    ∃ parts, elementParts context e = .ok parts ∧
      ReadsAs indent depth (linesText indent depth outcome.lines) parts := by
  cases e with
  | paragraph text styles =>
      obtain ⟨style, hStyle, hMore⟩ := Run.result_bind_eq_ok_iff.mp hOk
      obtain ⟨written, hText, hDone⟩ := Run.result_bind_eq_ok_iff.mp hMore
      obtain rfl := Except.ok.inj hDone
      obtain ⟨attributes, hAttributes, hWritten⟩ := styleAttribute_eq_ok hStyle
      obtain ⟨content, hContent, rfl⟩ := textContent_eq_ok hText
      refine ⟨[.line "p" attributes content], by rw [elementParts, hAttributes, hContent]; rfl, ?_⟩
      exact readsAs_line hIndent depth (by simp [IsName]) (by simp [voidTags]) hWritten
        (String.ext (by simp [elementLine]))
  | button text action arguments =>
      cases action with
      | none =>
          obtain ⟨written, hText, hDone⟩ := Run.result_bind_eq_ok_iff.mp hOk
          obtain rfl := Except.ok.inj hDone
          obtain ⟨content, hContent, rfl⟩ := textContent_eq_ok hText
          refine ⟨[.line "button" [] content], by rw [elementParts, hContent]; rfl, ?_⟩
          exact readsAs_line hIndent depth (by simp [IsName]) (by simp [voidTags])
            attributesWritten_none (String.ext (by simp [elementLine]))
      | some action =>
          obtain ⟨written, hText, hMore⟩ := Run.result_bind_eq_ok_iff.mp hOk
          obtain ⟨values, hValues, hDone⟩ := Run.result_bind_eq_ok_iff.mp hMore
          obtain rfl := Except.ok.inj hDone
          obtain ⟨content, hContent, rfl⟩ := textContent_eq_ok hText
          refine ⟨_, by rw [elementParts, hContent, hValues]; rfl, ?_⟩
          exact readsAs_line hIndent depth (by simp [IsName]) (by simp [voidTags])
            (attributesWritten_onclick _) (String.ext (by simp [elementLine]))
  | link url text =>
      cases text with
      | none =>
          obtain ⟨written, hUrl, hDone⟩ := Run.result_bind_eq_ok_iff.mp hOk
          obtain rfl := Except.ok.inj hDone
          obtain ⟨address, hAddress, rfl⟩ := textContent_eq_ok hUrl
          refine ⟨[.line "a" [("href", address)] address],
            by rw [elementParts, hAddress]; rfl, ?_⟩
          exact readsAs_line hIndent depth (by simp [IsName]) (by simp [voidTags])
            (attributesWritten_href address) (String.ext (by simp [elementLine]))
      | some text =>
          obtain ⟨written, hUrl, hMore⟩ := Run.result_bind_eq_ok_iff.mp hOk
          obtain ⟨label, hText, hDone⟩ := Run.result_bind_eq_ok_iff.mp hMore
          obtain rfl := Except.ok.inj hDone
          obtain ⟨address, hAddress, rfl⟩ := textContent_eq_ok hUrl
          obtain ⟨content, hContent, rfl⟩ := textContent_eq_ok hText
          refine ⟨[.line "a" [("href", address)] content],
            by rw [elementParts, hAddress, hContent]; rfl, ?_⟩
          exact readsAs_line hIndent depth (by simp [IsName]) (by simp [voidTags])
            (attributesWritten_href address) (String.ext (by simp [elementLine]))
  | textbox name placeholder label labelAfter =>
      cases label with
      | none =>
          obtain ⟨line, hLine, hDone⟩ := Run.result_bind_eq_ok_iff.mp hOk
          obtain rfl := Except.ok.inj hDone
          obtain ⟨part, hPart, hReads⟩ := inputLine_eq_ok hLine
          exact ⟨[part], by rw [elementParts, hPart]; rfl, hReads indent depth hIndent⟩
      | some label =>
          obtain ⟨line, hLine, hMore⟩ := Run.result_bind_eq_ok_iff.mp hOk
          obtain ⟨written, hText, hDone⟩ := Run.result_bind_eq_ok_iff.mp hMore
          obtain rfl := Except.ok.inj hDone
          obtain ⟨part, hPart, hReads⟩ := inputLine_eq_ok hLine
          obtain ⟨content, hContent, rfl⟩ := textContent_eq_ok hText
          refine ⟨_, by rw [elementParts, hPart, hContent]; rfl, ?_⟩
          have hFor : AttributesWritten [("for", name)] (" for='" ++ escapeHtml name ++ "'").toList :=
            .escaped '\x27' (.inl rfl) (by simp [IsName]) name (by simp)
          have hLabel := @readsAs_line indent hIndent depth "label" (by simp [IsName])
            (by simp [voidTags]) _ _ hFor content
            ("<label for='" ++ escapeHtml name ++ "'>" ++ escapeHtml content ++ "</label>")
            (String.ext (by simp [elementLine]))
          have hInput := hReads indent depth hIndent
          cases labelAfter with
          | true => exact readsAs_append hInput hLabel
          | false => exact readsAs_append hLabel hInput
  | linebreak =>
      obtain rfl := Except.ok.inj hOk
      refine ⟨_, rfl, ?_⟩
      exact readsAs_void hIndent depth (by simp [IsName]) (by simp [voidTags])
        attributesWritten_none rfl
  | image path alt styles =>
      obtain ⟨written, hPath, hMore⟩ := Run.result_bind_eq_ok_iff.mp hOk
      obtain ⟨style, hStyle, hDone⟩ := Run.result_bind_eq_ok_iff.mp hMore
      obtain rfl := Except.ok.inj hDone
      obtain ⟨source, hSource, rfl⟩ := textContent_eq_ok hPath
      obtain ⟨attributes, hAttributes, hWritten⟩ := styleAttribute_eq_ok hStyle
      refine ⟨_, by rw [elementParts, hSource, hAttributes]; rfl, ?_⟩
      have hSrc : AttributesWritten [("src", source)] (" src='" ++ escapeHtml source ++ "'").toList :=
        .escaped '\x27' (.inl rfl) (by simp [IsName]) source (by simp)
      have hAlt : AttributesWritten [("alt", alt.getD "")]
          (" alt='" ++ escapeHtml (alt.getD "") ++ "'").toList :=
        .escaped '\x27' (.inl rfl) (by simp [IsName]) _ (by simp)
      have hAll := (hSrc.append hAlt).append hWritten
      rw [← String.toList_append, ← String.toList_append] at hAll
      exact readsAs_void hIndent depth (by simp [IsName]) (by simp [voidTags]) hAll
        (String.ext (by simp))
  | heading level text styles =>
      obtain ⟨style, hStyle, hMore⟩ := Run.result_bind_eq_ok_iff.mp hOk
      obtain ⟨written, hText, hDone⟩ := Run.result_bind_eq_ok_iff.mp hMore
      obtain rfl := Except.ok.inj hDone
      obtain ⟨attributes, hAttributes, hWritten⟩ := styleAttribute_eq_ok hStyle
      obtain ⟨content, hContent, rfl⟩ := textContent_eq_ok hText
      refine ⟨[.line (headingTag level) attributes content],
        by rw [elementParts, hAttributes, hContent]; rfl, ?_⟩
      exact readsAs_line hIndent depth (isName_headingTag level) (headingTag_not_mem_voidTags level)
        hWritten rfl
  | topbar value fixed styles =>
      obtain ⟨style, hStyle, hMore⟩ := Run.result_bind_eq_ok_iff.mp hOk
      obtain ⟨written, hText, hDone⟩ := Run.result_bind_eq_ok_iff.mp hMore
      obtain rfl := Except.ok.inj hDone
      obtain ⟨attributes, hAttributes, hWritten⟩ := styleAttribute_eq_ok hStyle
      obtain ⟨content, hContent, rfl⟩ := textContent_eq_ok hText
      exact ⟨_, by rw [elementParts, hAttributes, hContent]; rfl,
        readsAs_topbar hIndent depth fixed hWritten content⟩
  | imported path =>
      obtain rfl := Except.ok.inj hOk
      exact ⟨[], rfl, .nil⟩
  | title text =>
      obtain rfl := Except.ok.inj hOk
      exact ⟨[], rfl, .nil⟩
  | icon path =>
      obtain rfl := Except.ok.inj hOk
      exact ⟨[], rfl, .nil⟩
  | popup text =>
      obtain rfl := Except.ok.inj hOk
      exact ⟨[], rfl, .nil⟩

/-- What is written for a node of the head is read as what the node stands for. -/
theorem headNode_readsAs (hIndent : '<' ∉ indent.toList) (depth : Nat) {node : Node}
    {outcome : Emission (List Writer.Call)}
    (hOk : (headNode Context.empty node).result = .ok outcome) :
    ∃ parts, headNodeParts node = .ok parts ∧
      ReadsAs indent depth (linesText indent depth outcome.lines) parts := by
  cases node with
  | div children =>
      obtain rfl := Except.ok.inj hOk
      exact ⟨[], rfl, .nil⟩
  | useComponent name arguments =>
      obtain rfl := Except.ok.inj hOk
      exact ⟨[], rfl, .nil⟩
  | element e =>
      cases e with
      | title text =>
          obtain ⟨written, hText, hDone⟩ := Run.result_bind_eq_ok_iff.mp hOk
          obtain rfl := Except.ok.inj hDone
          obtain ⟨content, hContent, rfl⟩ := textContent_eq_ok hText
          refine ⟨[.line "title" [] content], by rw [headNodeParts, hContent]; rfl, ?_⟩
          exact readsAs_line hIndent depth (by simp [IsName]) (by simp [voidTags])
            attributesWritten_none (String.ext (by simp [elementLine]))
      | icon path =>
          obtain ⟨written, hPath, hDone⟩ := Run.result_bind_eq_ok_iff.mp hOk
          obtain rfl := Except.ok.inj hDone
          obtain ⟨address, hAddress, rfl⟩ := textContent_eq_ok hPath
          refine ⟨[.void "link" [("rel", "icon"), ("href", address)]],
            by rw [headNodeParts, hAddress]; rfl, ?_⟩
          have hRel : AttributesWritten [("rel", "icon")] " rel=\"icon\"".toList :=
            .single '\x22' (.inr rfl) (by simp [IsName]) "icon" (by decide) (by decide) (by decide)
          have hHref : AttributesWritten [("href", address)]
              (" href=\"" ++ escapeHtml address ++ "\"").toList :=
            .escaped '\x22' (.inr rfl) (by simp [IsName]) address (by simp)
          have hBoth := hRel.append hHref
          rw [← String.toList_append] at hBoth
          exact readsAs_void hIndent depth (by simp [IsName]) (by simp [voidTags]) hBoth
            (String.ext (by simp))
      | imported path =>
          obtain rfl := Except.ok.inj hOk
          exact ⟨[], rfl, .nil⟩
      | _ =>
          obtain rfl := Except.ok.inj hOk
          exact ⟨[], rfl, .nil⟩

/-- An output that has gone on from another by text that is read as these
elements. -/
def Adds (output final : Output Writer) (parts : List Part) : Prop :=
  ∃ text, final.state = output.state.append text ∧
    ReadsAs output.state.indent output.state.depth text parts

variable {output next final : Output Writer} {parts others : List Part} {options : Options}

theorem Adds.refl (output : Output Writer) : Adds output output [] :=
  ⟨"", by simp [append], .nil⟩

theorem Adds.trans (hFirst : Adds output next parts) (hRest : Adds next final others) :
    Adds output final (parts ++ others) := by
  obtain ⟨text, hState, hReads⟩ := hFirst
  obtain ⟨rest, hState', hReads'⟩ := hRest
  rw [hState] at hState' hReads'
  exact ⟨text ++ rest, hState'.trans (append_append _ _ _), hReads.append hReads'⟩

theorem Adds.same_indent (hAdds : Adds output final parts) :
    final.state.indent = output.state.indent := by
  obtain ⟨text, hState, -⟩ := hAdds
  rw [hState]
  rfl

/-- Emitting a block writes its lines. -/
theorem emit_eq_ok {emission : Run Failure (Emission (List Writer.Call))}
    (hBlock : emission.Yields Emission.IsBlock)
    (hOk : (output.emit options (carryOut Writer.call) emission).result = .ok final) :
    ∃ outcome, emission.result = .ok outcome ∧
      final.state = output.state.append
        (linesText output.state.indent output.state.depth outcome.lines) := by
  obtain ⟨outcome, hOutcome, hState, -⟩ := Output.emit_result_eq_ok_iff.mp hOk
  rw [(hBlock outcome hOutcome).writeOn_writer] at hState
  exact ⟨outcome, hOutcome, (Except.ok.inj hState).symm⟩

theorem head_adds {nodes : List Node} (hIndent : '<' ∉ output.state.indent.toList)
    (hOk : (output.emitEach options (carryOut Writer.call) (headNode Context.empty) nodes).result =
      .ok final) :
    ∃ parts, headParts nodes = .ok parts ∧ Adds output final parts := by
  induction nodes generalizing output with
  | nil =>
      obtain rfl := Except.ok.inj hOk
      exact ⟨[], rfl, .refl _⟩
  | cons node rest ih =>
      obtain ⟨next, hNode, hRest⟩ := Run.result_bind_eq_ok_iff.mp hOk
      obtain ⟨outcome, hOutcome, hState⟩ := emit_eq_ok (headNode_isBlock Context.empty node) hNode
      obtain ⟨parts, hParts, hReads⟩ := headNode_readsAs hIndent output.state.depth hOutcome
      have hFirst : Adds output next parts := ⟨_, hState, hReads⟩
      rw [← hFirst.same_indent] at hIndent
      obtain ⟨others, hOthers, hMore⟩ := ih hIndent hRest
      exact ⟨parts ++ others, by rw [headParts, hParts, hOthers]; rfl, hFirst.trans hMore⟩

/-- A container is written as a block around what its children write. -/
theorem adds_div {inner : Output Writer} (hIndent : '<' ∉ output.state.indent.toList)
    (hAdds : Adds (output.map pass.openDiv) inner parts) :
    Adds output (inner.map pass.closeDiv) [.block "div" [] parts] := by
  obtain ⟨lines, hState, hReads⟩ := hAdds
  refine ⟨_, ?_, ReadsAs.block hIndent (by simp [IsName]) (by simp [voidTags])
    attributesWritten_none hReads⟩
  have hClosed : (inner.map pass.closeDiv).state = inner.state.dedented.line "</div>" := rfl
  have hOpened : (output.map pass.openDiv).state = (output.state.line "<div>").indented := rfl
  rw [hClosed, hState, hOpened]
  simp only [line_eq_append, indented, dedented, append, blockText, Nat.add_sub_cancel]
  congr 1
  exact String.ext (by simp)

/-- What a walk over a body writes is read as what the nodes stand for. -/
theorem walk_adds (document : Document) (options : Options) (context : Context)
    (nodes : List Node) :
    ∀ output final, '<' ∉ output.state.indent.toList →
      (pass.walk document options context nodes output).result = .ok final →
      ∃ parts, document.BodyParts context nodes parts ∧ Adds output final parts := by
  induction context, nodes using document.walk_induction fun context node =>
    ∀ output final, '<' ∉ output.state.indent.toList →
      (pass.walkNode document options context node output).result = .ok final →
      ∃ parts, document.BodyParts context [node] parts ∧ Adds output final parts with
  | nil context =>
      intro output final _ hWalk
      rw [Pass.walk_nil] at hWalk
      obtain rfl := Except.ok.inj hWalk
      exact ⟨[], .nil, .refl _⟩
  | cons context node rest ihNode ihRest =>
      intro output final hIndent hWalk
      obtain ⟨next, hNode, hRest⟩ := Pass.walk_cons_eq_ok_iff.mp hWalk
      obtain ⟨parts, hParts, hFirst⟩ := ihNode output next hIndent hNode
      rw [← hFirst.same_indent] at hIndent
      obtain ⟨others, hOthers, hMore⟩ := ihRest next final hIndent hRest
      exact ⟨parts ++ others, hParts.append hOthers, hFirst.trans hMore⟩
  | element context e output final hIndent hWalk =>
      rw [Pass.walkNode_element] at hWalk
      obtain ⟨outcome, hOutcome, hState⟩ := emit_eq_ok (bodyElement_isBlock context e) hWalk
      obtain ⟨parts, hParts, hReads⟩ := bodyElement_readsAs hIndent output.state.depth hOutcome
      refine ⟨parts, ?_, _, hState, hReads⟩
      simpa using Document.BodyParts.element hParts .nil
  | div context children ih output final hIndent hWalk =>
      obtain ⟨inner, hInner, rfl⟩ := Pass.walkNode_div_eq_ok_iff.mp hWalk
      obtain ⟨inside, hInside, hAdds⟩ := ih (output.map pass.openDiv) inner hIndent hInner
      exact ⟨_, .div hInside .nil, adds_div hIndent hAdds⟩
  | useComponent context name arguments ih output final hIndent hWalk =>
      obtain ⟨component, bindings, hResolve, hBind, hBody⟩ :=
        pass_modest.walkNode_useComponent_eq_ok_iff.mp hWalk
      obtain ⟨inside, hInside, hAdds⟩ := ih component bindings hResolve output final hIndent hBody
      obtain ⟨-, hComponent⟩ := Document.resolve_eq_ok_iff.mp hResolve
      obtain ⟨-, rfl⟩ := Document.component?_mem hComponent
      rw [Component.bindArguments_result] at hBind
      refine ⟨inside, ?_, hAdds⟩
      simpa using Document.BodyParts.useComponent hComponent hBind hInside .nil

/-- The lines behind the elements of the head. -/
def linkLines : List Line :=
  [⟨0, "<link rel=\"stylesheet\" href=\"stylesheet.css\">"⟩,
    ⟨0, "<script src=\"script.js\"></script>"⟩]

theorem readsAs_linkLines (hIndent : '<' ∉ indent.toList) (depth : Nat) :
    ReadsAs indent depth (linesText indent depth linkLines)
      [.void "link" [("rel", "stylesheet"), ("href", "stylesheet.css")],
        .line "script" [("src", "script.js")] ""] := by
  have hRel : AttributesWritten [("rel", "stylesheet")] " rel=\"stylesheet\"".toList :=
    .single '\x22' (.inr rfl) (by simp [IsName]) "stylesheet" (by decide) (by decide) (by decide)
  have hHref : AttributesWritten [("href", "stylesheet.css")] " href=\"stylesheet.css\"".toList :=
    .single '\x22' (.inr rfl) (by simp [IsName]) "stylesheet.css" (by decide) (by decide) (by decide)
  have hSrc : AttributesWritten [("src", "script.js")] " src=\"script.js\"".toList :=
    .single '\x22' (.inr rfl) (by simp [IsName]) "script.js" (by decide) (by decide) (by decide)
  have hBoth := hRel.append hHref
  rw [← String.toList_append] at hBoth
  exact readsAs_append
    (readsAs_void hIndent depth (by simp [IsName]) (by simp [voidTags]) hBoth (by decide))
    (readsAs_line hIndent depth (by simp [IsName]) (by simp [voidTags]) hSrc (by decide))

/-- The page behind its doctype line, around what is written for its head and
for its body. -/
def pageText (indent head body : String) : String :=
  blockText indent 0 "html" ""
    (blockText indent 1 "head" "" (head ++ linesText indent 2 linkLines) ++
      blockText indent 1 "body" "" body)

/-- The page around texts that are written for its head and for its body. -/
theorem buffer_page (indent head body : String) :
    (afterBody.foldl Writer.call
      ((betweenHeadAndBody.foldl Writer.call
        ((beforeHead.foldl Writer.call (Writer.new indent)).append head)).append body)).buffer =
      "<!DOCTYPE html>\n" ++ pageText indent head body := by
  have hMargin : margin indent 0 = "" := by simp [margin]
  have hStyle : Target.css.fileName = "stylesheet.css" := rfl
  have hScript : Target.js.fileName = "script.js" := rfl
  simp only [afterBody, betweenHeadAndBody, beforeHead, List.foldl_cons, List.foldl_nil,
    Writer.call, Writer.new, line_eq_append, indented, dedented, append, hStyle, hScript]
  exact String.ext (by simp [pageText, blockText, linesText, linkLines, lineText, hMargin])

/-- A page that has been made reads, behind its doctype line, as the tree that the
document stands for. -/
theorem compile_reads {document : Document} {options : Options} {page : Compiled}
    (hIndent : '<' ∉ options.indent.toList)
    (hPage : (compile document options).result = .ok page) :
    ∃ tree rest, document.IsPageTree tree ∧ page.text = "<!DOCTYPE html>\n" ++ rest ∧
      Markup.read? rest = some [tree.markup options.indent 0, .text "\n"] := by
  obtain ⟨head, body, hHead, hBody, rfl⟩ := compile_eq_ok_iff.mp hPage
  obtain ⟨headParts, hHeadParts, headText, hHeadState, hHeadReads⟩ := head_adds hIndent hHead
  have hBetween : '<' ∉ (enterBody head).state.indent.toList := by
    rw [enterBody, Output.map, hHeadState]
    exact hIndent
  obtain ⟨bodyParts, hBodyParts, bodyText, hBodyState, hBodyReads⟩ :=
    walk_adds document options Context.empty document.body _ _ hBetween hBody
  simp only [enterBody, Output.map, hHeadState] at hBodyState hBodyReads
  refine ⟨_, pageText options.indent headText bodyText, .intro hHeadParts hBodyParts, ?_, ?_⟩
  · simp only [finish, Output.map, hBodyState]
    exact buffer_page options.indent headText bodyText
  · have hHeadBlock := @ReadsAs.block options.indent 1 "head" _ _ hIndent (by simp [IsName])
      (by simp [voidTags]) attributesWritten_none _ _
      (hHeadReads.append (readsAs_linkLines hIndent 2))
    have hBodyBlock := @ReadsAs.block options.indent 1 "body" _ _ hIndent (by simp [IsName])
      (by simp [voidTags]) attributesWritten_none _ _ hBodyReads
    exact @ReadsAs.read?_block options.indent "html" _ _ hIndent (by simp [IsName])
      (by simp [voidTags]) attributesWritten_none _ _ (hHeadBlock.append hBodyBlock)

end Html

end PageGen
