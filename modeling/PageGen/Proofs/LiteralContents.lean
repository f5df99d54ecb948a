import PageGen.Proofs.Outline
import PageGen.Proofs.TargetLines
import PageGen.Proofs.Targets

/-! What the contents of literals have no part in. A target sees of a value only its
kind, wherever it decides what to do next: so a document compiles as its outline
does, into as many lines, or fails as its outline does. Two documents of the same
outline are compared through it. -/
namespace PageGen

open Run (Alike)

/-- The line without its text. -/
def Line.outline (line : Line) : Line := ⟨line.depth, ""⟩

/-- The call without the text of its line. -/
def Writer.Call.outline : Call → Call
  | .line _ => .line ""
  | .blank => .blank
  | .indent => .indent
  | .dedent => .dedent

/-- The lines without their texts. -/
def Lines.outline (lines : Lines) : Lines := ⟨lines.depth, lines.written.map Line.outline⟩

/-- What is written, seen in another way. -/
def Emission.map {α β : Type} (f : α → β) : Emission α → Emission β
  | .written text => .written (f text)
  | .skipped => .skipped
  | .unsupported kind => .unsupported kind

section

variable {σ τ α β : Type} {view : σ → τ} {textView : α → β} {options : Options}
  {context context' : Context}

theorem recordEmission_alike (options : Options) (kinds : List NodeKind)
    {outcome outcome' : Emission α} (hOutcome : outcome.map textView = outcome'.map textView) :
    Alike id (recordEmission options kinds outcome) (recordEmission options kinds outcome') := by
  cases outcome with
  | written text =>
      cases outcome' with
      | written text' => exact .pure rfl
      | _ => cases hOutcome
  | skipped =>
      cases outcome' with
      | skipped => exact .pure rfl
      | _ => cases hOutcome
  | unsupported kind =>
      cases outcome' with
      | unsupported kind' =>
          obtain rfl := Emission.unsupported.inj hOutcome
          rw [recordEmission]
          by_cases hStrict : options.failOnUnsupported = true
          · rw [if_pos hStrict]
            exact .fail rfl
          · rw [if_neg hStrict]
            exact .log (.pure rfl)
      | _ => cases hOutcome

/-- Writing what looks the same onto what looks the same. -/
def WritesAlike (textView : α → β) (view : σ → τ) (write : α → σ → Run Failure σ) : Prop :=
  ∀ text text' state state', textView text = textView text' → view state = view state' →
    Alike view (write text state) (write text' state')

theorem WritesAlike.writeOn {write : α → σ → Run Failure σ}
    (hWrite : WritesAlike textView view write) {outcome outcome' : Emission α} {state state' : σ}
    (hOutcome : outcome.map textView = outcome'.map textView) (hState : view state = view state') :
    Alike view (outcome.writeOn write state) (outcome'.writeOn write state') := by
  cases outcome with
  | written text =>
      cases outcome' with
      | written text' => exact hWrite text text' state state' (Emission.written.inj hOutcome) hState
      | _ => cases hOutcome
  | skipped =>
      cases outcome' with
      | skipped => exact .pure hState
      | _ => cases hOutcome
  | unsupported kind =>
      cases outcome' with
      | unsupported kind' => exact .pure hState
      | _ => cases hOutcome

theorem Output.carry_eq_iff {output output' : Output σ} :
    output.carry view = output'.carry view ↔
      view output.state = view output'.state ∧ output.unsupported = output'.unsupported := by
  simp only [carry, mk.injEq]

theorem Output.map_alike {change : σ → σ}
    (hChange : ∀ state state', view state = view state' → view (change state) = view (change state'))
    {output output' : Output σ} (hOutput : output.carry view = output'.carry view) :
    (output.map change).carry view = (output'.map change).carry view := by
  obtain ⟨hState, hKinds⟩ := carry_eq_iff.mp hOutput
  exact carry_eq_iff.mpr ⟨hChange _ _ hState, hKinds⟩

theorem Output.emit_alike {write : α → σ → Run Failure σ} (hWrite : WritesAlike textView view write)
    {emission emission' : Run Failure (Emission α)}
    (hEmission : Alike (Emission.map textView) emission emission') {output output' : Output σ}
    (hOutput : output.carry view = output'.carry view) :
    Alike (carry view) (output.emit options write emission)
      (output'.emit options write emission') := by
  obtain ⟨hState, hKinds⟩ := carry_eq_iff.mp hOutput
  rw [emit_eq, emit_eq]
  apply hEmission.bind
  intro outcome outcome' hOutcome
  apply (hWrite.writeOn hOutcome hState).bind
  intro state state' hWritten
  rw [hKinds]
  apply (recordEmission_alike options output'.unsupported hOutcome).bind
  intro kinds kinds' hSame
  exact .pure (carry_eq_iff.mpr ⟨hWritten, hSame⟩)

theorem Output.emitEach_alike {write : α → σ → Run Failure σ}
    (hWrite : WritesAlike textView view write) {emission : Node → Run Failure (Emission α)}
    (hEmission : ∀ node, Alike (Emission.map textView) (emission node) (emission node.outline))
    (nodes : List Node) {output output' : Output σ}
    (hOutput : output.carry view = output'.carry view) :
    Alike (carry view) (output.emitEach options write emission nodes)
      (output'.emitEach options write emission (outlineAll nodes)) := by
  induction nodes generalizing output output' with
  | nil => exact .pure hOutput
  | cons node rest ih =>
      apply (emit_alike hWrite (hEmission node) hOutput).bind
      intro next next' hNext
      exact ih hNext

/-- A target that does with an element what it does with its outline, as far as
`view` can see. -/
structure Pass.SeesOutlines (pass : Pass σ α) (textView : α → β) (view : σ → τ) : Prop where
  element : ∀ {context context' : Context}, context.outline = context'.outline → ∀ e,
    Alike (Emission.map textView) (pass.element context e) (pass.element context' e.outline)
  write : WritesAlike textView view pass.write
  openDiv : ∀ state state', view state = view state' →
    view (pass.openDiv state) = view (pass.openDiv state')
  closeDiv : ∀ state state', view state = view state' →
    view (pass.closeDiv state) = view (pass.closeDiv state')

theorem Component.bindArguments_alike (hContext : context.outline = context'.outline)
    (component : Component) (arguments : List Expr) :
    Alike (List.map Binding.outline) (component.bindArguments arguments context)
      (component.outline.bindArguments (arguments.map .outline) context') := by
  unfold Alike
  rw [bindArguments_result, bindArguments_result]
  exact bindParameters_alike hContext component.parameters arguments

/-- The walk over a body does what the walk over its outline does. -/
theorem Pass.SeesOutlines.walk {pass : Pass σ α} (hSees : pass.SeesOutlines textView view)
    (hPass : pass.Modest) (document : Document) (context : Context) (nodes : List Node) :
    ∀ context' output output', context.outline = context'.outline →
      output.carry view = output'.carry view →
        Alike (Output.carry view) (pass.walk document options context nodes output)
          (pass.walk document.outline options context' (outlineAll nodes) output') := by
  induction context, nodes using document.walk_induction fun context node =>
    ∀ context' output output', context.outline = context'.outline →
      output.carry view = output'.carry view →
        Alike (Output.carry view) (pass.walkNode document options context node output)
          (pass.walkNode document.outline options context' node.outline output') with
  | nil context =>
      intro context' output output' _ hOutput
      rw [outlineAll, walk_nil, walk_nil]
      exact .pure hOutput
  | cons context node rest ihNode ihRest =>
      intro context' output output' hContext hOutput
      rw [outlineAll, walk_cons, walk_cons]
      apply (ihNode context' output output' hContext hOutput).bind
      intro next next' hNext
      exact ihRest context' next next' hContext hNext
  | element context e context' output output' hContext hOutput =>
      rw [Node.outline, walkNode_element, walkNode_element]
      exact Output.emit_alike hSees.write (hSees.element hContext e) hOutput
  | div context children ih context' output output' hContext hOutput =>
      have hOpen : (output.map pass.openDiv).carry view = (output'.map pass.openDiv).carry view :=
        Output.map_alike hSees.openDiv hOutput
      rw [Node.outline, walkNode_div, walkNode_div]
      apply (ih context' _ _ hContext hOpen).bind
      intro inner inner' hInner
      exact .pure (Output.map_alike hSees.closeDiv hInner)
  | useComponent context name arguments ih context' output output' hContext hOutput =>
      rw [Node.outline, walkNode_useComponent, walkNode_useComponent,
        document.resolve_outline hContext]
      cases hResolve : document.resolve context name with
      | error cause => exact .fail rfl
      | ok component =>
          rw [Except.map, Run.ofExcept_ok, Run.ofExcept_ok, pure_bind, pure_bind]
          apply (component.bindArguments_alike hContext arguments).bind
          intro bindings bindings' hBindings
          have hInlining : Run.FailAlike (pass.inlining component.name context.depth)
              (pass.inlining component.outline.name context'.depth) :=
            Or.inl ⟨(), (), hPass.inlining_result _ _, hPass.inlining_result _ _, rfl⟩
          apply hInlining.bind
          intro _ _ _
          apply Run.Alike.inFrame
          exact ih component bindings hResolve _ output output'
            (Context.outline_push hContext hBindings component.name) hOutput

end

namespace Lines

variable {lines lines' : Lines}

/-- A call does to the outline of lines what it does to them. -/
theorem outline_call (lines : Lines) (request : Writer.Call) :
    (lines.call request).outline = lines.outline.call request.outline := by
  cases request with
  | line text =>
      simp only [call, line, outline, Writer.Call.outline, List.map_append, List.map_cons,
        List.map_nil, Line.outline]
  | blank =>
      simp only [call, blank, outline, Writer.Call.outline, List.map_append, List.map_cons,
        List.map_nil, Line.outline]
  | indent => rfl
  | dedent => rfl

/-- Calls of one outline do the same to lines of one outline. -/
theorem foldl_alike {calls calls' : List Writer.Call}
    (hCalls : calls.map Writer.Call.outline = calls'.map Writer.Call.outline)
    (hLines : lines.outline = lines'.outline) :
    (calls.foldl call lines).outline = (calls'.foldl call lines').outline := by
  have hFold : ∀ (calls : List Writer.Call) (lines : Lines),
      (calls.foldl call lines).outline =
        (calls.map Writer.Call.outline).foldl call lines.outline := by
    intro calls lines
    rw [List.foldl_map]
    exact (List.foldl_hom outline fun lines request => (outline_call lines request).symm).symm
  rw [hFold, hFold, hCalls, hLines]

theorem map_alike (calls : List Writer.Call) {output output' : Output Lines}
    (hOutput : output.carry outline = output'.carry outline) :
    (output.map fun lines => calls.foldl call lines).carry outline =
      (output'.map fun lines => calls.foldl call lines).carry outline :=
  Output.map_alike (fun _ _ => foldl_alike rfl) hOutput

theorem length_eq (hLines : lines.outline = lines'.outline) :
    lines.written.length = lines'.written.length := by
  have hWritten := congrArg List.length (mk.inj hLines).2
  rwa [List.length_map, List.length_map] at hWritten

theorem writesAlike_carryOut :
    WritesAlike (List.map Writer.Call.outline) outline (carryOut call) :=
  fun _ _ _ _ hCalls hLines => .pure (foldl_alike hCalls hLines)

end Lines

variable {context context' : Context} {options : Options}

namespace Html

/-- Any line looks like any other one. -/
theorem outline_single (text text' : String) :
    (single text).map (List.map Writer.Call.outline) =
      (single text').map (List.map Writer.Call.outline) := rfl

/-- An element becomes as many lines, at the same depths, as its outline. -/
theorem bodyElement_alike (hContext : context.outline = context'.outline) (e : Element) :
    Alike (Emission.map (List.map Writer.Call.outline)) (bodyElement context e)
      (bodyElement context' e.outline) := by
  have hText := textContent_alike hContext
  have hStyle := styleAttribute_alike hContext
  cases e with
  | paragraph text styles =>
      exact (hStyle styles).bind fun _ _ _ => (hText text).bind fun _ _ _ => .pure (outline_single _ _)
  | button text action arguments =>
      cases action with
      | none => exact (hText text).bind fun _ _ _ => .pure (outline_single _ _)
      | some action =>
          exact (hText text).bind fun _ _ _ =>
            (callArguments_alike hContext arguments).bind fun _ _ _ => .pure (outline_single _ _)
  | link url text =>
      cases text with
      | none => exact (hText url).bind fun _ _ _ => .pure (outline_single _ _)
      | some text => exact (hText url).bind fun _ _ _ => (hText text).bind fun _ _ _ => .pure (outline_single _ _)
  | textbox name placeholder label labelAfter =>
      cases label with
      | none => exact (inputLine_alike hContext _ _ placeholder).bind fun _ _ _ => .pure (outline_single _ _)
      | some label =>
          apply (inputLine_alike hContext _ _ placeholder).bind
          intro _ _ _
          apply (hText label).bind
          intro _ _ _
          apply Alike.pure
          cases labelAfter <;>
            simp only [Emission.map, if_true, Bool.false_eq_true, if_false, List.map_cons,
              List.map_nil, Writer.Call.outline]
  | image path alt styles =>
      exact (hText path).bind fun _ _ _ => (hStyle styles).bind fun _ _ _ => .pure (outline_single _ _)
  | heading level text styles =>
      exact (hStyle styles).bind fun _ _ _ => (hText text).bind fun _ _ _ => .pure (outline_single _ _)
  | topbar value fixed styles =>
      apply (hStyle styles).bind
      intro _ _ _
      apply (hText value).bind
      intro _ _ _
      apply Alike.pure
      simp only [Emission.map, List.map_cons, List.map_nil, Writer.Call.outline]
  | _ => exact .pure rfl

theorem headNode_alike (hContext : context.outline = context'.outline) (node : Node) :
    Alike (Emission.map (List.map Writer.Call.outline)) (headNode context node)
      (headNode context' node.outline) := by
  cases node with
  | element e =>
      cases e with
      | title text =>
          exact (textContent_alike hContext text).bind fun _ _ _ => .pure (outline_single _ _)
      | icon path =>
          exact (textContent_alike hContext path).bind fun _ _ _ => .pure (outline_single _ _)
      | _ => exact .pure rfl
  | div children => exact .pure rfl
  | useComponent name arguments => exact .pure rfl

theorem passOn_seesOutlines :
    (passOn Lines.call).SeesOutlines (List.map Writer.Call.outline) Lines.outline where
  element := bodyElement_alike
  write := Lines.writesAlike_carryOut
  openDiv _ _ := Lines.foldl_alike rfl
  closeDiv _ _ := Lines.foldl_alike rfl

/-- The page of a document has the lines of the page of its outline, but for their texts. -/
theorem lines_alike (document : Document) (strict : Bool) :
    Alike (Output.carry Lines.outline) (lines document strict) (lines document.outline strict) := by
  apply (Output.emitEach_alike Lines.writesAlike_carryOut (headNode_alike rfl) document.head
    rfl).bind
  intro head head' hHead
  apply (passOn_seesOutlines.walk (passOn_modest Lines.call) document _ document.body _ _ _ rfl
    (Lines.map_alike betweenHeadAndBody hHead)).bind
  intro body body' hBody
  exact .pure (Lines.map_alike afterBody hBody)

end Html

namespace Css

theorem pass_seesOutlines : pass.SeesOutlines id id where
  element _ e := by
    cases e <;> exact .pure rfl
  write := by
    rintro rules _ sheet _ rfl rfl
    exact .refl _
  openDiv _ _ hSheet := hSheet
  closeDiv _ _ hSheet := hSheet

/-- The style sheet of a document is that of its outline. -/
theorem compile_alike (document : Document) (options : Options) :
    Alike id (compile document options) (compile document.outline options) := by
  unfold compile
  apply Alike.log
  apply (pass_seesOutlines.walk pass_modest document _ document.body _ _ _ rfl rfl).bind
  intro output output' hOutput
  obtain rfl : output = output' := hOutput
  exact .log (.pure rfl)

end Css

namespace Script

theorem statement_alike (node : Node) :
    Alike (Emission.map (List.map Writer.Call.outline)) (statement node)
      (statement node.outline) := by
  cases node with
  | element e =>
      cases e with
      | popup text =>
          exact (text.evaluate_alike rfl).bind fun _ _ _ => .pure (Html.outline_single _ _)
      | _ => exact .pure rfl
  | div children => exact .pure rfl
  | useComponent name arguments => exact .pure rfl

variable {output output' : Output Lines}

theorem addFunction_alike (function : ScriptFunction)
    (hOutput : output.carry Lines.outline = output'.carry Lines.outline) :
    Alike (Output.carry Lines.outline) (addFunction Lines.call options function output)
      (addFunction Lines.call options function.outline output') := by
  apply Alike.log
  apply (Output.emitEach_alike Lines.writesAlike_carryOut statement_alike function.body
    (Lines.map_alike [.line (header function), .indent] hOutput)).bind
  intro body body' hBody
  exact .pure (Lines.map_alike [.dedent, .line "\x7d"] hBody)

theorem addMore_alike (functions : List ScriptFunction)
    (hOutput : output.carry Lines.outline = output'.carry Lines.outline) :
    Alike (Output.carry Lines.outline) (addMore Lines.call options functions output)
      (addMore Lines.call options (functions.map .outline) output') := by
  induction functions generalizing output output' with
  | nil => exact .pure hOutput
  | cons function rest ih =>
      apply (addFunction_alike function (Lines.map_alike [.blank] hOutput)).bind
      intro next next' hNext
      exact ih hNext

/-- The script of a document has the lines of the script of its outline, but for their texts. -/
theorem lines_alike (document : Document) (strict : Bool) :
    Alike (Output.carry Lines.outline) (lines document strict) (lines document.outline strict) := by
  unfold lines Document.outline
  cases document.scripts with
  | nil => exact .pure rfl
  | cons function rest =>
      apply (addFunction_alike function rfl).bind
      intro next next' hNext
      exact addMore_alike rest hNext

end Script

namespace Site

/-- A site that is generated from the document, with the lines of its page and of
its script. -/
structure HasLines (document : Document) (options : Options) (site : Site)
    (page script : Output Lines) : Prop where
  generated : (generate document options).result = .ok site
  page_lines : (Html.lines document options.failOnUnsupported).result = .ok page
  html : site.html = page.state.text options.indent
  script_lines : (Script.lines document options.failOnUnsupported).result = .ok script
  js : site.js = script.state.text options.indent

section

variable {document : Document} {page script : Output Lines} {sheet : Compiled} {cause : Failure}

theorem hasLines (hPage : (Html.lines document options.failOnUnsupported).result = .ok page)
    (hSheet : (Css.compile document options).result = .ok sheet)
    (hScript : (Script.lines document options.failOnUnsupported).result = .ok script) :
    HasLines document options
      ⟨page.state.text options.indent, sheet.text, script.state.text options.indent,
        (page.unsupported ++ sheet.unsupported ++ script.unsupported).foldl addKind []⟩
      page script := by
  have hHtml := Html.compile_result document options
  have hJs := Script.compile_result document options
  rw [hPage] at hHtml
  rw [hScript] at hJs
  exact ⟨generate_eq_ok_iff.mpr ⟨_, sheet, _, hHtml, hSheet, hJs, rfl⟩, hPage, rfl, hScript, rfl⟩

theorem generate_html_error
    (hPage : (Html.lines document options.failOnUnsupported).result = .error cause) :
    (generate document options).result = .error ⟨.html, cause⟩ := by
  have hHtml := Html.compile_result document options
  rw [hPage] at hHtml
  exact generate_eq_error_iff.mpr (Or.inl ⟨hHtml, rfl⟩)

theorem generate_css_error
    (hPage : (Html.lines document options.failOnUnsupported).result = .ok page)
    (hSheet : (Css.compile document options).result = .error cause) :
    (generate document options).result = .error ⟨.css, cause⟩ := by
  have hHtml := Html.compile_result document options
  rw [hPage] at hHtml
  exact generate_eq_error_iff.mpr (Or.inr ⟨_, hHtml, Or.inl ⟨hSheet, rfl⟩⟩)

theorem generate_js_error
    (hPage : (Html.lines document options.failOnUnsupported).result = .ok page)
    (hSheet : (Css.compile document options).result = .ok sheet)
    (hScript : (Script.lines document options.failOnUnsupported).result = .error cause) :
    (generate document options).result = .error ⟨.js, cause⟩ := by
  have hHtml := Html.compile_result document options
  have hJs := Script.compile_result document options
  rw [hPage] at hHtml
  rw [hScript] at hJs
  exact generate_eq_error_iff.mpr (Or.inr ⟨_, hHtml, Or.inr ⟨_, hSheet, hJs, rfl⟩⟩)

end

/-- Two documents that come to the same thing, but for the texts: sites with as many
lines each, or failures of the same outline in the same target. -/
inductive GeneratedAlike (document document' : Document) (options : Options) : Prop where
  | sites {site site' : Site} {page page' script script' : Output Lines}
      (hSite : HasLines document options site page script)
      (hSite' : HasLines document' options site' page' script')
      (hCss : site.css = site'.css) (hUnsupported : site.unsupported = site'.unsupported)
      (hPage : page.state.written.length = page'.state.written.length)
      (hScript : script.state.written.length = script'.state.written.length) :
      GeneratedAlike document document' options
  | failures {target : Target} {cause cause' : Failure}
      (hFailure : (generate document options).result = .error ⟨target, cause⟩)
      (hFailure' : (generate document' options).result = .error ⟨target, cause'⟩)
      (hCause : cause.outline = cause'.outline) : GeneratedAlike document document' options

/-- The contents of literals have no part in whether a generation fails, or how, nor
in its style sheet, its unsupported kinds and its numbers of lines. These are the same
for all documents of one outline. -/
theorem generate_alike {document document' : Document}
    (hOutline : document.outline = document'.outline) (options : Options) :
    GeneratedAlike document document' options := by
  have hPages := Html.lines_alike document options.failOnUnsupported
  have hSheets := Css.compile_alike document options
  have hScripts := Script.lines_alike document options.failOnUnsupported
  rw [hOutline] at hPages hSheets hScripts
  -- The targets are compared in their order, and the first failure is in the same one.
  rcases hPages.trans (Html.lines_alike document' _).symm with
    ⟨page, page', hPage, hPage', hSamePage⟩ | ⟨cause, cause', hPage, hPage', hCause⟩
  · rcases hSheets.trans (Css.compile_alike document' _).symm with
      ⟨sheet, sheet', hSheet, hSheet', hSameSheet⟩ | ⟨cause, cause', hSheet, hSheet', hCause⟩
    · obtain rfl : sheet = sheet' := hSameSheet
      rcases hScripts.trans (Script.lines_alike document' _).symm with
        ⟨script, script', hScript, hScript', hSameScript⟩ | ⟨cause, cause', hScript, hScript', hCause⟩
      · obtain ⟨hPageLines, hPageKinds⟩ := Output.carry_eq_iff.mp hSamePage
        obtain ⟨hScriptLines, hScriptKinds⟩ := Output.carry_eq_iff.mp hSameScript
        apply GeneratedAlike.sites (hasLines hPage hSheet hScript)
          (hasLines hPage' hSheet' hScript')
        · rfl
        · simp only [hPageKinds, hScriptKinds]
        · exact Lines.length_eq hPageLines
        · exact Lines.length_eq hScriptLines
      · exact .failures (generate_js_error hPage hSheet hScript)
          (generate_js_error hPage' hSheet' hScript') hCause
    · exact .failures (generate_css_error hPage hSheet) (generate_css_error hPage' hSheet') hCause
  · exact .failures (generate_html_error hPage) (generate_html_error hPage') hCause

/-- A page with literals of every sort in it. Its two instances differ in them. -/
def pricePage (label alt : String) (price : Float) (level : UInt8) : Document where
  head := []
  body :=
    [.element (.heading level (.string label) []),
    .useComponent "price" [.operation (.number price) .multiply (.number 2)],
    .element (.image (.string label) (some alt) [⟨"width", .number price⟩])]
  scripts := []
  components :=
    [⟨"price", [⟨"amount", .number⟩],
      [.element (.button (.string label) (some "buy") [.symbol "amount"])]⟩]

theorem pricePage_generate_alike :
    (pricePage "Tea" "" 2 1).outline = (pricePage "" "A cup's picture" 0 200).outline ∧
      GeneratedAlike (pricePage "Tea" "" 2 1) (pricePage "" "A cup's picture" 0 200)
        Options.default := by
  have hOutline :
      (pricePage "Tea" "" 2 1).outline = (pricePage "" "A cup's picture" 0 200).outline := rfl
  exact ⟨hOutline, generate_alike hOutline Options.default⟩

end Site

end PageGen
