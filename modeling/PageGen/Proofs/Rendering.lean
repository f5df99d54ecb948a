import PageGen.Proofs.Blocks
import PageGen.Proofs.Targets

/-! The lines of a body, as a value of their own: a list of texts with relative
depths, put together node by node. A walk over the body with a writer appends the
rendering of this list, at whatever depth the writer stands, and fails where there
is no such list. Nothing of the writer and of what was recorded before has a part
in that. -/
namespace PageGen

/-- The document that has declarations of components and nothing else. -/
def Document.declaring (components : List Component) : Document :=
  { Document.empty with components := components }

/-- What the writer has written and then these lines, at its depth, which stays. -/
def Writer.render (writer : Writer) (lines : List Line) : Writer :=
  writer.append (Writer.linesText writer.indent writer.depth lines)

namespace Html

/-- The lines of an outcome. Where unsupported nodes are an error, such a node has
none. -/
def settledLines (strict : Bool) : Emission (List Writer.Call) → Except Failure (List Line)
  | .written calls => .ok (Writer.linesOf calls)
  | .skipped => .ok []
  | .unsupported kind => if strict then .error (.unsupportedFeature kind) else .ok []

/-- The lines of a container: those of its children, between its tags. -/
def divLines (children : List Line) : List Line :=
  ⟨0, "<div>"⟩ :: (children.map (Line.inside 1) ++ [⟨0, "</div>"⟩])

mutual

/-- The lines of nodes, one after another. -/
def bodyLines (components : List Component) (strict : Bool) (context : Context)
    (nodes : List Node) : Except Failure (List Line) :=
  match nodes with
  | [] => .ok []
  | node :: rest => do
    let first ← nodeLines components strict context node
    let others ← bodyLines components strict context rest
    pure (first ++ others)
termination_by ((Document.declaring components).inactive context, sizeOf nodes)

/-- The lines of a node. A use has those of the component's body, with the
arguments bound where it is used. -/
def nodeLines (components : List Component) (strict : Bool) (context : Context)
    (node : Node) : Except Failure (List Line) :=
  match node with
  | .element e => do
    let outcome ← (bodyElement context e).result
    settledLines strict outcome
  | .div children => do
    let inside ← bodyLines components strict context children
    pure (divLines inside)
  | .useComponent name arguments =>
    match _hResolve : (Document.declaring components).resolve context name with
    | .error cause => .error cause
    | .ok component => do
      let bindings ← (component.bindArguments arguments context).result
      bodyLines components strict (context.push ⟨component.name, bindings⟩) component.body
termination_by ((Document.declaring components).inactive context, sizeOf node)
decreasing_by
  · simp_wf
    right
    omega
  · simp_wf
    left
    exact Document.inactive_push_lt _hResolve bindings

end

variable {components : List Component} {strict : Bool} {context : Context}

theorem bodyLines_nil : bodyLines components strict context [] = .ok [] := by
  rw [bodyLines]

theorem bodyLines_cons (node : Node) (rest : List Node) :
    bodyLines components strict context (node :: rest) = (do
      let first ← nodeLines components strict context node
      let others ← bodyLines components strict context rest
      pure (first ++ others)) := by
  rw [bodyLines]

theorem nodeLines_element (e : Element) :
    nodeLines components strict context (.element e) =
      (bodyElement context e).result.bind (settledLines strict) := by
  rw [nodeLines]
  rfl

theorem nodeLines_div (children : List Node) :
    nodeLines components strict context (.div children) =
      (bodyLines components strict context children).bind fun inside => pure (divLines inside) := by
  rw [nodeLines]
  rfl

theorem nodeLines_useComponent (name : String) (arguments : List Expr) :
    nodeLines components strict context (.useComponent name arguments) = (do
      let component ← (Document.declaring components).resolve context name
      let bindings ← (component.bindArguments arguments context).result
      bodyLines components strict (context.push ⟨component.name, bindings⟩) component.body) := by
  rw [nodeLines]
  split
  · rename_i cause hResolve
    rw [hResolve]
    rfl
  · rename_i component hResolve
    rw [hResolve]
    rfl

/-- The lines of nodes in a row are those of the first ones and then those of the
others, and where the first ones have none there are none. -/
theorem bodyLines_append (first rest : List Node) :
    bodyLines components strict context (first ++ rest) = (do
      let lines ← bodyLines components strict context first
      let others ← bodyLines components strict context rest
      pure (lines ++ others)) := by
  induction first with
  | nil =>
      rw [List.nil_append, bodyLines_nil]
      cases bodyLines components strict context rest <;> rfl
  | cons node more ih =>
      rw [List.cons_append, bodyLines_cons, bodyLines_cons, ih]
      simp only [bind_assoc, pure_bind, List.append_assoc]

theorem settledLines_of_strict {outcome : Emission (List Writer.Call)} {lines : List Line}
    (hLines : settledLines true outcome = .ok lines) : settledLines false outcome = .ok lines := by
  cases outcome with
  | written own => exact hLines
  | skipped => exact hLines
  | unsupported kind => simp [settledLines] at hLines

/-- Where unsupported nodes are an error and there is none, the lines are those
that there are anyway. -/
theorem bodyLines_of_strict (context : Context) (nodes : List Node) :
    ∀ lines, bodyLines components true context nodes = .ok lines →
      bodyLines components false context nodes = .ok lines := by
  induction context, nodes using (Document.declaring components).walk_induction
      fun context node =>
        ∀ lines, nodeLines components true context node = .ok lines →
          nodeLines components false context node = .ok lines with
  | nil context =>
      intro lines hLines
      rw [bodyLines_nil] at hLines ⊢
      exact hLines
  | cons context node rest ihNode ihRest =>
      intro lines hLines
      rw [bodyLines_cons] at hLines ⊢
      obtain ⟨first, hFirst, hMore⟩ := except_bind_eq_ok_iff.mp hLines
      obtain ⟨others, hOthers, hDone⟩ := except_bind_eq_ok_iff.mp hMore
      rw [ihNode first hFirst, ihRest others hOthers]
      exact hDone
  | element context e lines hLines =>
      rw [nodeLines_element] at hLines ⊢
      obtain ⟨outcome, hOutcome, hSettled⟩ := except_bind_eq_ok_iff.mp hLines
      rw [hOutcome]
      exact settledLines_of_strict hSettled
  | div context children ih lines hLines =>
      rw [nodeLines_div] at hLines ⊢
      obtain ⟨inside, hInside, hDone⟩ := except_bind_eq_ok_iff.mp hLines
      rw [ih inside hInside]
      exact hDone
  | useComponent context name arguments ih lines hLines =>
      rw [nodeLines_useComponent] at hLines ⊢
      obtain ⟨component, hResolve, hMore⟩ := except_bind_eq_ok_iff.mp hLines
      obtain ⟨bindings, hBind, hBody⟩ := except_bind_eq_ok_iff.mp hMore
      rw [hResolve]
      simp only [Bind.bind, Except.bind, hBind]
      exact ih component bindings hResolve lines hBody

/-- The result comes to the lines, appended to what the writer has written: it is
there exactly if they are, and it fails with what they fail with. -/
def Appends (lines : Except Failure (List Line)) (writer : Writer)
    (result : Except Failure (Output Writer)) : Prop :=
  result.map Output.state = lines.map writer.render

theorem render_append (writer : Writer) (first rest : List Line) :
    writer.render (first ++ rest) = (writer.render first).render rest := by
  simp only [Writer.render, Writer.linesText_append]
  exact (Writer.append_append _ _ _).symm

namespace Appends

variable {lines others : Except Failure (List Line)} {writer target : Writer}
  {result : Except Failure (Output Writer)} {next : Output Writer → Except Failure (Output Writer)}

theorem nil (output : Output Writer) : Appends (.ok []) output.state (.ok output) := by
  simp [Appends, Except.map, Writer.render, Writer.append, Writer.linesText]

/-- What goes on from the one goes on from the other. -/
theorem andThen {more : List Line → Except Failure (List Line)}
    (hFirst : Appends lines writer result)
    (hNext : ∀ inside output, output.state = writer.render inside →
      Appends (more inside) target (next output)) :
    Appends (lines.bind more) target (result.bind next) := by
  unfold Appends at hFirst
  cases result with
  | error cause =>
      cases lines with
      | error cause' => exact congrArg Except.error (Except.error.inj hFirst)
      | ok inside => cases hFirst
  | ok output =>
      cases lines with
      | error cause' => cases hFirst
      | ok inside => exact hNext inside output (Except.ok.inj hFirst)

/-- Lines are appended one list after another. -/
theorem bind (hFirst : Appends lines writer result)
    (hNext : ∀ output, Appends others output.state (next output)) :
    Appends (do let first ← lines; let rest ← others; pure (first ++ rest)) writer
      (result.bind next) := by
  refine hFirst.andThen fun first output hState => ?_
  have hRest := hNext output
  unfold Appends at hRest ⊢
  rw [hRest, hState]
  cases others with
  | error cause => rfl
  | ok rest => exact congrArg Except.ok (render_append writer first rest).symm

/-- The lines of a container are appended by opening it, appending those of its
children and closing it. -/
theorem div (hInside : Appends lines (pass.openDiv writer) result) :
    Appends (lines.bind fun inside => pure (divLines inside)) writer
      (result.bind fun inner => pure (inner.map pass.closeDiv)) := by
  refine hInside.andThen fun inside inner hState => congrArg Except.ok ?_
  change inner.state.dedented.line "</div>" = writer.render (divLines inside)
  have hOpened : pass.openDiv writer = (writer.line "<div>").indented := rfl
  rw [hState, hOpened]
  simp only [Writer.render, Writer.line_eq_append, divLines, Writer.linesText,
    Writer.linesText_append, Writer.linesText_inside, Writer.indented, Writer.dedented,
    Writer.append, Nat.add_zero, Nat.add_sub_cancel, String.append_assoc, String.append_empty]

/-- An emission of blocks appends the lines of its outcome. -/
theorem emit (options : Options) {emission : Run Failure (Emission (List Writer.Call))}
    (hBlock : emission.Yields Emission.IsBlock) (output : Output Writer) :
    Appends (emission.result.bind (settledLines options.failOnUnsupported)) output.state
      (output.emit options (carryOut Writer.call) emission).result := by
  rw [Appends, Output.emit_eq, Run.result_bind]
  cases hOutcome : emission.result with
  | error cause => rfl
  | ok outcome =>
      simp only [Except.bind, Run.result_bind, (hBlock outcome hOutcome).writeOn_writer,
        Run.result_pure]
      cases outcome with
      | written calls => rfl
      | skipped => rfl
      | unsupported kind =>
          simp only [recordEmission]
          cases options.failOnUnsupported <;> rfl

end Appends

/-- A walk appends the lines of the nodes, whatever there is before it. -/
theorem walk_appends (document : Document) (options : Options) (context : Context)
    (nodes : List Node) :
    ∀ output : Output Writer,
      Appends (bodyLines document.components options.failOnUnsupported context nodes) output.state
        (pass.walk document options context nodes output).result := by
  induction context, nodes using document.walk_induction fun context node =>
    ∀ output : Output Writer,
      Appends (nodeLines document.components options.failOnUnsupported context node) output.state
        (pass.walkNode document options context node output).result with
  | nil context =>
      intro output
      rw [Pass.walk_nil, bodyLines_nil]
      exact .nil output
  | cons context node rest ihNode ihRest =>
      intro output
      rw [Pass.walk_cons, bodyLines_cons, Run.result_bind]
      exact (ihNode output).bind ihRest
  | element context e output =>
      rw [Pass.walkNode_element, nodeLines_element]
      exact .emit options (bodyElement_isBlock context e) output
  | div context children ih output =>
      rw [Pass.walkNode_div, nodeLines_div, Run.result_bind]
      exact (ih (output.map pass.openDiv)).div
  | useComponent context name arguments ih output =>
      have hSame : (Document.declaring document.components).resolve context name =
          document.resolve context name := rfl
      rw [Pass.walkNode_useComponent, nodeLines_useComponent, hSame]
      simp only [Run.result_bind, Run.result_ofExcept, Run.result_inFrame]
      cases hResolve : document.resolve context name with
      | error cause => rfl
      | ok component =>
          simp only [Bind.bind, Except.bind]
          cases (component.bindArguments arguments context).result with
          | error cause => rfl
          | ok bindings => exact ih component bindings hResolve output

/-- The lines of the elements of a head. -/
def headLines (strict : Bool) : List Node → Except Failure (List Line)
  | [] => .ok []
  | node :: rest => do
    let first ← (headNode Context.empty node).result.bind (settledLines strict)
    let others ← headLines strict rest
    pure (first ++ others)

theorem head_appends (options : Options) (nodes : List Node) (output : Output Writer) :
    Appends (headLines options.failOnUnsupported nodes) output.state
      (output.emitEach options (carryOut Writer.call) (headNode Context.empty) nodes).result := by
  induction nodes generalizing output with
  | nil => exact .nil output
  | cons node rest ih =>
      rw [headLines, Output.emitEach, Run.result_bind]
      exact (Appends.emit options (headNode_isBlock Context.empty node) output).bind ih

/-- The lines of a page with these in its head and in its body. -/
def pageLines (head body : List Line) : List Line :=
  [⟨0, "<!DOCTYPE html>"⟩, ⟨0, "<html>"⟩, ⟨1, "<head>"⟩] ++ head.map (Line.inside 2) ++
    [⟨2, "<link rel=\"stylesheet\" href=\"" ++ Target.css.fileName ++ "\">"⟩,
      ⟨2, "<script src=\"" ++ Target.js.fileName ++ "\"></script>"⟩,
      ⟨1, "</head>"⟩, ⟨1, "<body>"⟩] ++
    body.map (Line.inside 2) ++ [⟨1, "</body>"⟩, ⟨0, "</html>"⟩]

theorem render_pageLines (writer : Writer) (head body : List Line) :
    afterBody.foldl Writer.call
        ((betweenHeadAndBody.foldl Writer.call
          ((beforeHead.foldl Writer.call writer).render head)).render body) =
      writer.render (pageLines head body) := by
  simp only [beforeHead, betweenHeadAndBody, afterBody, List.foldl_cons, List.foldl_nil,
    Writer.call, pageLines, Writer.render, Writer.line_eq_append, Writer.linesText,
    Writer.linesText_append, Writer.linesText_inside, Writer.indented, Writer.dedented,
    Writer.append, Nat.add_assoc, Nat.add_zero, String.append_assoc, String.append_empty]
  rfl

/-- A page is the rendering of its lines. -/
theorem page_appends (document : Document) (options : Options) :
    Appends (do
        let head ← headLines options.failOnUnsupported document.head
        let body ← bodyLines document.components options.failOnUnsupported Context.empty
          document.body
        pure (pageLines head body))
      (Writer.new options.indent) (page document options).result := by
  unfold page pageOn
  simp only [Run.result_bind]
  refine (head_appends options document.head _).andThen fun head output hHead => ?_
  refine (walk_appends document options Context.empty document.body _).andThen
    fun body inner hBody => congrArg Except.ok ?_
  change afterBody.foldl Writer.call inner.state = _
  rw [hBody, ← render_pageLines]
  change afterBody.foldl Writer.call
    ((betweenHeadAndBody.foldl Writer.call output.state).render body) = _
  rw [hHead]

end Html

end PageGen
