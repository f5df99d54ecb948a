import PageGen.Proofs.Carrying
import PageGen.Proofs.Rendering

/-! What is asked of a writer while a page is made. The program runs on whatever takes
its calls, so it can be given something that records them. The recorded calls show
what the text of a page hides: a writer at depth zero would ignore a call to go out,
and none ever meets one. -/
namespace PageGen

namespace Writer

/-- Takes a call by recording it. -/
def record (calls : List Call) (request : Call) : List Call := calls ++ [request]

theorem foldl_record (calls before : List Call) : calls.foldl record before = before ++ calls := by
  induction calls generalizing before with
  | nil => exact (List.append_nil before).symm
  | cons request rest ih =>
      rw [List.foldl_cons, ih, record, List.append_assoc, List.singleton_append]

end Writer

/-- Whatever takes calls ends up as if it was given the record of them. -/
theorem takesAlike_record {σ : Type} (call : σ → Writer.Call → σ) (start : σ) :
    TakesAlike (fun calls : List Writer.Call => calls.foldl call start) Writer.record call := by
  intro calls request
  change call (calls.foldl call start) request = (calls ++ [request]).foldl call start
  rw [List.foldl_append]
  rfl

namespace Html

open Writer

/-- The calls go on from others without going out of depth zero, and end at the
depth of the others. -/
def Levels (before after : List Call) : Prop :=
  ∀ depth, depthAfter? 0 before = some depth → depthAfter? 0 after = some depth

theorem Levels.refl (calls : List Call) : Levels calls calls := fun _ hDepth => hDepth

theorem Levels.trans {first next last : List Call} (hFirst : Levels first next)
    (hNext : Levels next last) : Levels first last :=
  fun depth hDepth => hNext depth (hFirst depth hDepth)

theorem Levels.block {calls : List Call} (hBlock : IsBlock calls) (before : List Call) :
    Levels before (calls.foldl record before) := by
  intro depth hDepth
  rw [foldl_record, depthAfter?_append, hDepth]
  exact depthAfter?_inside hBlock.level depth

variable {options : Options} {output final : Output (List Call)}

theorem levels_emit {emission : Run Failure (Emission (List Call))}
    (hBlock : emission.Yields Emission.IsBlock)
    (hOk : (output.emit options (carryOut record) emission).result = .ok final) :
    Levels output.state final.state := by
  obtain ⟨outcome, hOutcome, hState, -⟩ := Output.emit_result_eq_ok_iff.mp hOk
  have hKept := hBlock outcome hOutcome
  cases outcome with
  | written calls => exact Except.ok.inj hState ▸ Levels.block hKept output.state
  | skipped => exact Except.ok.inj hState ▸ Levels.refl output.state
  | unsupported kind => exact Except.ok.inj hState ▸ Levels.refl output.state

theorem levels_emitEach {emission : Node → Run Failure (Emission (List Call))}
    (hBlock : ∀ node, (emission node).Yields Emission.IsBlock) {nodes : List Node}
    (hOk : (output.emitEach options (carryOut record) emission nodes).result = .ok final) :
    Levels output.state final.state := by
  induction nodes generalizing output with
  | nil =>
      obtain rfl := Except.ok.inj hOk
      exact .refl _
  | cons node rest ih =>
      obtain ⟨next, hNode, hRest⟩ := Run.result_bind_eq_ok_iff.mp hOk
      exact (levels_emit (hBlock node) hNode).trans (ih hRest)

/-- The walk over a body ends at the depth that it starts at. Containers keep their
children one level further in. -/
theorem levels_walk (document : Document) (options : Options) (context : Context)
    (nodes : List Node) :
    ∀ output final, ((passOn record).walk document options context nodes output).result =
        .ok final → Levels output.state final.state := by
  induction context, nodes using document.walk_induction fun context node =>
    ∀ output final, ((passOn record).walkNode document options context node output).result =
        .ok final → Levels output.state final.state with
  | nil context =>
      intro output final hWalk
      rw [Pass.walk_nil] at hWalk
      obtain rfl := Except.ok.inj hWalk
      exact .refl _
  | cons context node rest ihNode ihRest =>
      intro output final hWalk
      obtain ⟨next, hNode, hRest⟩ := Pass.walk_cons_eq_ok_iff.mp hWalk
      exact (ihNode output next hNode).trans (ihRest next final hRest)
  | element context e output final hWalk =>
      rw [Pass.walkNode_element] at hWalk
      exact levels_emit (bodyElement_isBlock context e) hWalk
  | div context children ih output final hWalk =>
      obtain ⟨inner, hInner, rfl⟩ := Pass.walkNode_div_eq_ok_iff.mp hWalk
      intro depth hDepth
      have hOpened : depthAfter? 0 ([.line "<div>", .indent].foldl record output.state) =
          some (depth + 1) := by
        rw [foldl_record, depthAfter?_append, hDepth]
        rfl
      have hInside : depthAfter? 0 inner.state = some (depth + 1) :=
        ih _ inner hInner (depth + 1) hOpened
      change depthAfter? 0 ([.dedent, .line "</div>"].foldl record inner.state) = some depth
      rw [foldl_record, depthAfter?_append, hInside]
      rfl
  | useComponent context name arguments ih output final hWalk =>
      rw [Pass.walkNode_useComponent] at hWalk
      obtain ⟨component, hResolve, hMore⟩ := Run.result_bind_eq_ok_iff.mp hWalk
      obtain ⟨bindings, -, hMore⟩ := Run.result_bind_eq_ok_iff.mp hMore
      obtain ⟨-, -, hBody⟩ := Run.result_bind_eq_ok_iff.mp hMore
      exact ih component bindings hResolve output final hBody

/-- On a page that is made no call goes out of depth zero, and the last one ends
there. -/
theorem depthAfter?_pageOn {document : Document}
    (hMade : (pageOn record document options []).result = .ok final) :
    depthAfter? 0 final.state = some 0 := by
  obtain ⟨head, hHead, hMore⟩ := Run.result_bind_eq_ok_iff.mp hMade
  obtain ⟨body, hBody, hDone⟩ := Run.result_bind_eq_ok_iff.mp hMore
  obtain rfl := Except.ok.inj hDone
  have hHeadDepth : depthAfter? 0 head.state = some 2 :=
    levels_emitEach (headNode_isBlock Context.empty) hHead 2 rfl
  have hBetween : depthAfter? 0 (betweenHeadAndBody.foldl record head.state) = some 2 := by
    rw [foldl_record, depthAfter?_append, hHeadDepth]
    rfl
  have hBodyDepth : depthAfter? 0 body.state = some 2 :=
    levels_walk document options Context.empty document.body _ body hBody 2 hBetween
  change depthAfter? 0 (afterBody.foldl record body.state) = some 0
  rw [foldl_record, depthAfter?_append, hBodyDepth]
  rfl

/-- The page that is made of anything is what the recorded calls make of it. -/
theorem pageOn_eq_record {σ : Type} (call : σ → Call → σ) (document : Document) (strict : Bool)
    (indent : String) (start : σ) :
    pageOn call document ⟨indent, strict⟩ start =
      Output.carry (fun calls => calls.foldl call start) <$>
        pageOn record document ⟨"", strict⟩ [] := by
  have hOptions : (⟨indent, strict⟩ : Options).failOnUnsupported =
    (⟨"", strict⟩ : Options).failOnUnsupported := rfl
  exact pageOn_carry (takesAlike_record call start) hOptions document []

theorem compile_eq_page (document : Document) (options : Options) :
    (compile document options).result = (page document options).result.map fun output =>
      ⟨output.state.buffer, output.unsupported⟩ := by
  unfold compile
  simp only [Run.result_bind, Run.result_log, Run.result_pure]
  cases (page document options).result <;> rfl

/-- The recorded calls of a page come to its frame around the lines of its head and of
its body, with every indent. -/
theorem foldl_pageOn {document : Document} {strict : Bool}
    (hMade : (pageOn record document ⟨"", strict⟩ []).result = .ok final) :
    ∃ head body, headLines strict document.head = .ok head ∧
      bodyLines document.components strict Context.empty document.body = .ok body ∧
      ∀ indent, final.state.foldl call (Writer.new indent) =
        ⟨indent, 0, linesText indent 0 (pageLines head body)⟩ := by
  have hAppends : ∀ indent, Except.ok (final.state.foldl call (Writer.new indent)) =
      (do
        let head ← headLines strict document.head
        let body ← bodyLines document.components strict Context.empty document.body
        pure (pageLines head body)).map (Writer.new indent).render := by
    intro indent
    have hPage := page_appends document ⟨indent, strict⟩
    rw [page, pageOn_eq_record, Appends, Run.map_eq, hMade] at hPage
    exact hPage
  cases hHead : headLines strict document.head with
  | error cause =>
      rw [hHead] at hAppends
      cases hAppends ""
  | ok head =>
      cases hBody : bodyLines document.components strict Context.empty document.body with
      | error cause =>
          rw [hHead, hBody] at hAppends
          cases hAppends ""
      | ok body =>
          rw [hHead, hBody] at hAppends
          refine ⟨head, body, rfl, rfl, fun indent => (Except.ok.inj (hAppends indent)).trans ?_⟩
          simp only [render, append, Writer.new, String.empty_append]

/-- The body of a page is a rendering of lines, and so is the page. The lines are
those of the nodes: the indent, the depth, what has been written and what has been
recorded have no part in them, nor in whether there are any and in what it fails
with if not. They stay where unsupported nodes are no error any more. Nodes in a
row have the lines of the first ones and then those of the others, and fail as the
first ones do. Whatever a page is made on, with whatever indent, it is given the same
calls, those that the program gives to a record of them. So a page fails alike with
every indent or is made with every indent. Of the calls of a page that is made none
goes out of depth zero and the last one ends there, and a writer comes to the frame of
the page around the lines of the head and those of the body, in their order. -/
theorem emission_renders_lines (document : Document) (strict : Bool) :
    (∀ indent context nodes (output : Output Writer),
      (pass.walk document ⟨indent, strict⟩ context nodes output).result.map Output.state =
        (bodyLines document.components strict context nodes).map fun lines =>
          { output.state with
            buffer := output.state.buffer ++
              linesText output.state.indent output.state.depth lines }) ∧
    (∀ context nodes lines, bodyLines document.components true context nodes = .ok lines →
      bodyLines document.components false context nodes = .ok lines) ∧
    (∀ context first rest, bodyLines document.components strict context (first ++ rest) = (do
      let lines ← bodyLines document.components strict context first
      let others ← bodyLines document.components strict context rest
      pure (lines ++ others))) ∧
    (∀ (σ : Type) (call : σ → Call → σ) (start : σ) indent,
      pageOn call document ⟨indent, strict⟩ start =
        Output.carry (fun calls => calls.foldl call start) <$>
          pageOn record document ⟨"", strict⟩ []) ∧
    ((∃ cause, ∀ indent, (compile document ⟨indent, strict⟩).result = .error cause) ∨
      ∃ head body made, headLines strict document.head = .ok head ∧
        bodyLines document.components strict Context.empty document.body = .ok body ∧
        (pageOn record document ⟨"", strict⟩ []).result = .ok made ∧
        depthAfter? 0 made.state = some 0 ∧
        ∀ indent,
          (pageOn call document ⟨indent, strict⟩ (Writer.new indent)).result =
            .ok ⟨⟨indent, 0, linesText indent 0 (pageLines head body)⟩, made.unsupported⟩ ∧
          (compile document ⟨indent, strict⟩).result =
            .ok ⟨linesText indent 0 (pageLines head body), made.unsupported⟩) := by
  refine ⟨fun indent context nodes output => ?_,
    fun context nodes => bodyLines_of_strict context nodes,
    fun context first rest => bodyLines_append first rest,
    fun σ call start indent => pageOn_eq_record call document strict indent start, ?_⟩
  · exact walk_appends document ⟨indent, strict⟩ context nodes output
  · cases hMade : (pageOn record document ⟨"", strict⟩ []).result with
    | error cause =>
        left
        refine ⟨cause, fun indent => ?_⟩
        rw [compile_eq_page, page, pageOn_eq_record, Run.map_eq, hMade]
        rfl
    | ok made =>
        right
        obtain ⟨head, body, hHead, hBody, hWriter⟩ := foldl_pageOn hMade
        refine ⟨head, body, made, hHead, hBody, rfl, depthAfter?_pageOn hMade, fun indent => ?_⟩
        have hPage : (pageOn call document ⟨indent, strict⟩ (Writer.new indent)).result =
            .ok ⟨⟨indent, 0, linesText indent 0 (pageLines head body)⟩, made.unsupported⟩ := by
          rw [pageOn_eq_record, Run.map_eq, hMade, ← hWriter]
          rfl
        refine ⟨hPage, ?_⟩
        rw [compile_eq_page, page, hPage]
        rfl

end Html

end PageGen
