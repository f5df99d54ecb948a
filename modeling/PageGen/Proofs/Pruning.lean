import PageGen.Proofs.Simulation

/-! Nodes without a rule at their place. Pruning drops them: from the head all but titles
and icons, from bodies what belongs to the head or to scripts, and imports, and from
script functions all but messages. The pruned document does what the whole one does where
unsupported nodes are only reported. It makes the same evaluations and uses on the way,
so nothing inside of a dropped node has been looked at. -/
namespace PageGen

/-- The nodes that the head has a rule for. -/
def Node.hasHeadRule : Node → Bool
  | .element (.title _) => true
  | .element (.icon _) => true
  | _ => false

/-- The elements that a body has a rule for. -/
def Element.hasBodyRule : Element → Bool
  | .title _ => false
  | .icon _ => false
  | .popup _ => false
  | .imported _ => false
  | _ => true

/-- The statements that a script function has a rule for. -/
def Node.hasScriptRule : Node → Bool
  | .element (.popup _) => true
  | _ => false

mutual

/-- A node of a body, unless it is an element without a rule. A container stays, with
what is left in it. -/
def Node.prune : Node → List Node
  | .element e => if e.hasBodyRule then [.element e] else []
  | .div children => [.div (pruneAll children)]
  | .useComponent name arguments => [.useComponent name arguments]

@[inherit_doc Node.prune]
def pruneAll : List Node → List Node
  | [] => []
  | node :: rest => node.prune ++ pruneAll rest

end

def Component.prune (component : Component) : Component :=
  { component with body := pruneAll component.body }

def ScriptFunction.prune (function : ScriptFunction) : ScriptFunction :=
  { function with body := function.body.filter Node.hasScriptRule }

/-- The document without the nodes that have no rule where they stand. -/
def Document.prune (document : Document) : Document :=
  ⟨document.head.filter Node.hasHeadRule, pruneAll document.body,
    document.scripts.map .prune, document.components.map .prune⟩

/-- The event tells of the evaluation of an expression, of a style declaration, of the
use of a component or of a rule of the style sheet. -/
def Event.isEvaluation : Event → Bool
  | .unresolvedSymbol _ _ => true
  | .unknownStyle _ => true
  | .argumentMismatch _ _ _ => true
  | .bound _ _ => true
  | .inlining _ _ => true
  | .ruleAdded _ => true
  | .entered _ => true
  | .left => true
  | _ => false

namespace Run

variable {ε ε' α β : Type}

/-- The run with no more in its log than evaluations and uses. -/
def quiet (run : Run ε α) : Run ε α := ⟨run.events.filter Event.isEvaluation, run.result⟩

theorem quiet_pure (value : α) : (pure value : Run ε α).quiet = pure value := rfl

theorem quiet_bind (run : Run ε α) (next : α → Run ε β) :
    (run >>= next).quiet = run.quiet >>= fun value => (next value).quiet := by
  change (Run.bind run next).quiet = Run.bind run.quiet fun value => (next value).quiet
  unfold Run.bind quiet
  cases run.result <;> simp

theorem quiet_map (f : α → β) (run : Run ε α) : (f <$> run).quiet = f <$> run.quiet := by
  simp only [map_eq_pure_bind, quiet_bind, quiet_pure]

theorem quiet_log_bind {event : Event} (hEvent : event.isEvaluation = false)
    (next : Unit → Run ε α) : (log event >>= next).quiet = (next ()).quiet := by
  have hLog : (log event : Run ε Unit).quiet = pure () := by
    simp only [quiet, events_log, result_log, List.filter_cons, hEvent, List.filter_nil]
    rfl
  rw [quiet_bind, hLog, pure_bind]

theorem quiet_inFrame (frame : Frame) (body : Run ε α) :
    (inFrame frame body).quiet = inFrame frame body.quiet := by
  simp [quiet, inFrame, List.filter_cons, Event.isEvaluation]

theorem quiet_mapFailure (f : ε → ε') (run : Run ε α) :
    (run.mapFailure f).quiet = run.quiet.mapFailure f := rfl

end Run

/-- Nothing is written for the node, and nothing else in the outcome is ever looked at. -/
def Emission.WritesNothing {α : Type} : Emission α → Prop
  | .written _ => False
  | .skipped => True
  | .unsupported _ => True

/-- A node that is kept is supported. One that is not kept is passed over, with nothing
evaluated. -/
def Run.Heeds {α : Type} (kept : Bool) (emission : Run Failure (Emission α)) : Prop :=
  match kept with
  | true => emission.Yields fun outcome => outcome.unsupported? = none
  | false => ∃ outcome, emission = pure outcome ∧ outcome.WritesNothing

variable {σ α : Type} {indent : String} {strict : Bool} {document : Document}

namespace Output

/-- The output with nothing listed as unsupported. -/
def cleared (output : Output σ) : Output σ := { output with unsupported := [] }

theorem cleared_map (f : σ → σ) (output : Output σ) :
    (output.map f).cleared = output.cleared.map f := rfl

theorem emit_kept {emission : Run Failure (Emission α)} (hEmission : emission.Heeds true)
    (write : α → σ → Run Failure σ) (output : Output σ) :
    (output.cleared.emit ⟨indent, strict⟩ write emission).quiet =
      cleared <$> (output.emit ⟨indent, false⟩ write emission).quiet := by
  have hRecord : ∀ (options : Options) kinds (outcome : Emission α),
      outcome.unsupported? = none → recordEmission options kinds outcome = pure kinds := by
    intro options kinds outcome hOutcome
    cases outcome with
    | written text => rfl
    | skipped => rfl
    | unsupported kind => cases hOutcome
  rw [← Run.quiet_map, emit_eq, emit_eq, map_bind]
  congr 1
  apply Run.bind_congr_of_result
  intro outcome hOutcome
  have hSupported : outcome.unsupported? = none := hEmission outcome hOutcome
  simp only [hRecord _ _ outcome hSupported, map_bind, map_pure, pure_bind]
  rfl

theorem emit_dropped {emission : Run Failure (Emission α)} (hEmission : emission.Heeds false)
    (write : α → σ → Run Failure σ) (output : Output σ) :
    cleared <$> (output.emit ⟨indent, false⟩ write emission).quiet = pure output.cleared := by
  obtain ⟨outcome, rfl, hNothing⟩ := hEmission
  rw [← Run.quiet_map, emit_eq, pure_bind]
  cases outcome with
  | written text => exact hNothing.elim
  | skipped => rfl
  | unsupported kind => rfl

/-- Nodes that are not kept may as well not be there. -/
theorem emitEach_filter {emission : Node → Run Failure (Emission α)} {kept : Node → Bool}
    (hEmission : ∀ node, (emission node).Heeds (kept node)) (write : α → σ → Run Failure σ)
    (nodes : List Node) (output : Output σ) :
    (output.cleared.emitEach ⟨indent, strict⟩ write emission (nodes.filter kept)).quiet =
      cleared <$> (output.emitEach ⟨indent, false⟩ write emission nodes).quiet := by
  induction nodes generalizing output with
  | nil => rfl
  | cons node rest ih =>
      have hNode := hEmission node
      have hRest :
          cleared <$> (output.emitEach ⟨indent, false⟩ write emission (node :: rest)).quiet =
            (cleared <$> (output.emit ⟨indent, false⟩ write (emission node)).quiet) >>= fun next =>
              (next.emitEach ⟨indent, strict⟩ write emission (rest.filter kept)).quiet := by
        rw [emitEach, Run.quiet_bind, map_bind, bind_map_left]
        simp only [ih]
      rw [hRest]
      cases hKept : kept node with
      | true =>
          rw [hKept] at hNode
          rw [List.filter_cons_of_pos hKept, emitEach, Run.quiet_bind, emit_kept hNode]
      | false =>
          rw [hKept] at hNode
          rw [List.filter_cons_of_neg (by simp [hKept]), emit_dropped hNode, pure_bind]

end Output

/-- A target with a rule for the elements that pruning leaves, and for no others. -/
def Pass.HeedsRules (pass : Pass σ α) : Prop :=
  ∀ context e, (pass.element context e).Heeds e.hasBodyRule

theorem Document.resolve_prune (document : Document) (context : Context) (name : String) :
    document.prune.resolve context name = (document.resolve context name).map Component.prune :=
  resolve_map rfl (fun _ => rfl) rfl rfl

/-- A walk over what is left of some nodes does what the walk over all of them does. -/
theorem Pass.HeedsRules.walk {pass : Pass σ α} (hPass : pass.HeedsRules) (context : Context)
    (nodes : List Node) : ∀ output : Output σ,
      (pass.walk document.prune ⟨indent, strict⟩ context (pruneAll nodes) output.cleared).quiet =
        Output.cleared <$> (pass.walk document ⟨indent, false⟩ context nodes output).quiet := by
  induction context, nodes using document.walk_induction fun context node =>
    ∀ output : Output σ,
      (pass.walk document.prune ⟨indent, strict⟩ context node.prune output.cleared).quiet =
        Output.cleared <$> (pass.walkNode document ⟨indent, false⟩ context node output).quiet with
  | nil context =>
      intro output
      rw [pruneAll, walk_nil, walk_nil]
      rfl
  | cons context node rest ihNode ihRest =>
      intro output
      rw [pruneAll, walk_append, walk_cons, Run.quiet_bind, Run.quiet_bind, ihNode, map_bind,
        bind_map_left]
      simp only [ihRest]
  | element context e output =>
      have hElement := hPass context e
      rw [Node.prune, walkNode_element]
      cases hKept : e.hasBodyRule with
      | true =>
          rw [hKept] at hElement
          rw [if_pos rfl, walk_cons, walkNode_element]
          simp only [walk_nil, bind_pure]
          exact Output.emit_kept hElement pass.write output
      | false =>
          rw [hKept] at hElement
          rw [if_neg Bool.false_ne_true, walk_nil, Output.emit_dropped hElement]
          rfl
  | div context children ih output =>
      rw [Node.prune, walk_cons, walkNode_div, walkNode_div]
      simp only [walk_nil, bind_pure, ← Output.cleared_map, Run.quiet_bind, ih, map_bind,
        bind_map_left, Run.quiet_pure, map_pure]
  | useComponent context name arguments ih output =>
      rw [Node.prune, walk_cons, walkNode_useComponent, walkNode_useComponent,
        document.resolve_prune]
      simp only [walk_nil, bind_pure]
      cases hResolve : document.resolve context name with
      | error cause => rfl
      | ok component =>
          have hBody := fun bindings => ih component bindings hResolve output
          simp only [Except.map, Run.ofExcept_ok, pure_bind, Run.quiet_bind, Run.quiet_inFrame,
            map_bind, ← Run.map_inFrame, ← hBody]
          rfl

/-- The compiled target with nothing listed as unsupported. -/
def Compiled.cleared (compiled : Compiled) : Compiled := { compiled with unsupported := [] }

/-- The site with nothing listed as unsupported. -/
def Site.cleared (site : Site) : Site := { site with unsupported := [] }

namespace Html

theorem headNode_heeds (node : Node) : (headNode Context.empty node).Heeds node.hasHeadRule := by
  cases node with
  | element e =>
      cases e with
      | title text => exact Run.Yields.bind fun _ => .pure rfl
      | icon imagePath => exact Run.Yields.bind fun _ => .pure rfl
      | _ => exact ⟨_, rfl, trivial⟩
  | div children => exact ⟨_, rfl, trivial⟩
  | useComponent name arguments => exact ⟨_, rfl, trivial⟩

theorem pass_heedsRules : pass.HeedsRules := by
  intro context e
  have hYields := bodyElement_yields context e
  cases e with
  | title text => exact ⟨_, rfl, trivial⟩
  | icon imagePath => exact ⟨_, rfl, trivial⟩
  | popup text => exact ⟨_, rfl, trivial⟩
  | imported path => exact ⟨_, rfl, trivial⟩
  | _ => exact hYields

variable (indent strict document)

theorem compile_prune :
    (compile document.prune ⟨indent, strict⟩).quiet =
      Compiled.cleared <$> (compile document ⟨indent, false⟩).quiet := by
  have hHead : (headPart document.prune ⟨indent, strict⟩).quiet =
      Output.cleared <$> (headPart document ⟨indent, false⟩).quiet :=
    Output.emitEach_filter headNode_heeds (carryOut Writer.call) document.head
      ⟨beforeHead.foldl Writer.call (Writer.new indent), []⟩
  have hBody : ∀ head : Output Writer,
      (pass.walk document.prune ⟨indent, strict⟩ Context.empty document.prune.body
        (enterBody head.cleared)).quiet =
      Output.cleared <$> (pass.walk document ⟨indent, false⟩ Context.empty document.body
        (enterBody head)).quiet := by
    intro head
    exact pass_heedsRules.walk Context.empty document.body (enterBody head)
  rw [compile_eq, compile_eq, Run.quiet_log_bind rfl, Run.quiet_log_bind rfl, Run.quiet_bind,
    Run.quiet_bind, hHead, bind_map_left, map_bind]
  congr 1
  funext head
  rw [Run.quiet_bind, Run.quiet_bind, hBody, bind_map_left, map_bind]
  congr 1

end Html

namespace Css

theorem pass_heedsRules : pass.HeedsRules := by
  intro context e
  cases e with
  | title text => exact ⟨_, rfl, trivial⟩
  | icon imagePath => exact ⟨_, rfl, trivial⟩
  | popup text => exact ⟨_, rfl, trivial⟩
  | imported path => exact ⟨_, rfl, trivial⟩
  | _ => exact Run.Yields.pure rfl

variable (indent strict document)

theorem compile_prune :
    (compile document.prune ⟨indent, strict⟩).quiet =
      Compiled.cleared <$> (compile document ⟨indent, false⟩).quiet := by
  have hBody : (pass.walk document.prune ⟨indent, strict⟩ Context.empty document.prune.body
        (start ⟨indent, strict⟩)).quiet =
      Output.cleared <$> (pass.walk document ⟨indent, false⟩ Context.empty document.body
        (start ⟨indent, false⟩)).quiet :=
    pass_heedsRules.walk Context.empty document.body (start ⟨indent, false⟩)
  rw [compile_eq, compile_eq, Run.quiet_log_bind rfl, Run.quiet_log_bind rfl, Run.quiet_bind,
    Run.quiet_bind, hBody, bind_map_left, map_bind]
  congr 1

end Css

namespace Script

theorem statement_heeds (node : Node) : (statement node).Heeds node.hasScriptRule := by
  cases node with
  | element e =>
      cases e with
      | popup text => exact Run.Yields.bind fun _ => .pure rfl
      | _ => exact ⟨_, rfl, trivial⟩
  | div children => exact ⟨_, rfl, trivial⟩
  | useComponent name arguments => exact ⟨_, rfl, trivial⟩

theorem addFunction_prune (function : ScriptFunction) (output : Output Writer) :
    (addFunction Writer.call ⟨indent, strict⟩ function.prune output.cleared).quiet =
      Output.cleared <$> (addFunction Writer.call ⟨indent, false⟩ function output).quiet := by
  have hBody : ((opened function.prune output.cleared).emitEach ⟨indent, strict⟩
        (carryOut Writer.call) statement function.prune.body).quiet =
      Output.cleared <$> ((opened function output).emitEach ⟨indent, false⟩
        (carryOut Writer.call) statement function.body).quiet :=
    Output.emitEach_filter statement_heeds (carryOut Writer.call) function.body
      (opened function output)
  rw [addFunction_eq, addFunction_eq, Run.quiet_log_bind rfl, Run.quiet_log_bind rfl,
    Run.quiet_bind, Run.quiet_bind, hBody, bind_map_left, map_bind]
  congr 1

theorem addMore_prune (functions : List ScriptFunction) (output : Output Writer) :
    (addMore Writer.call ⟨indent, strict⟩ (functions.map .prune) output.cleared).quiet =
      Output.cleared <$> (addMore Writer.call ⟨indent, false⟩ functions output).quiet := by
  induction functions generalizing output with
  | nil => rfl
  | cons function rest ih =>
      rw [List.map_cons, addMore, addMore, ← Output.cleared_map, Run.quiet_bind, Run.quiet_bind,
        addFunction_prune, bind_map_left, map_bind]
      simp only [ih]

theorem addAll_prune (functions : List ScriptFunction) (output : Output Writer) :
    (addAll Writer.call ⟨indent, strict⟩ (functions.map .prune) output.cleared).quiet =
      Output.cleared <$> (addAll Writer.call ⟨indent, false⟩ functions output).quiet := by
  cases functions with
  | nil => rfl
  | cons function rest =>
      rw [List.map_cons, addAll, addAll, Run.quiet_bind, Run.quiet_bind, addFunction_prune,
        bind_map_left, map_bind]
      simp only [addMore_prune]

variable (indent strict document)

theorem compile_prune :
    (compile document.prune ⟨indent, strict⟩).quiet =
      Compiled.cleared <$> (compile document ⟨indent, false⟩).quiet := by
  have hAll :
      (addAll Writer.call ⟨indent, strict⟩ document.prune.scripts ⟨Writer.new indent, []⟩).quiet =
      Output.cleared <$>
        (addAll Writer.call ⟨indent, false⟩ document.scripts ⟨Writer.new indent, []⟩).quiet :=
    addAll_prune document.scripts ⟨Writer.new indent, []⟩
  unfold compile
  rw [Run.quiet_log_bind rfl, Run.quiet_log_bind rfl, Run.quiet_bind, Run.quiet_bind, hAll,
    bind_map_left, map_bind]
  congr 1

end Script

namespace Site

variable (indent strict document)

theorem part_prune (target : Target) :
    (part target document.prune ⟨indent, strict⟩).quiet =
      Compiled.cleared <$> (part target document ⟨indent, false⟩).quiet := by
  have hCompile : (compile target document.prune ⟨indent, strict⟩).quiet =
      Compiled.cleared <$> (compile target document ⟨indent, false⟩).quiet := by
    cases target with
    | html => exact Html.compile_prune indent strict document
    | css => exact Css.compile_prune indent strict document
    | js => exact Script.compile_prune indent strict document
  rw [part, part, Run.quiet_mapFailure, Run.quiet_mapFailure, hCompile, Run.map_mapFailure]

theorem generate_prune :
    (generate document.prune ⟨indent, strict⟩).quiet =
      cleared <$> (generate document ⟨indent, false⟩).quiet := by
  unfold generate
  rw [Run.quiet_log_bind rfl, Run.quiet_log_bind rfl]
  simp only [Run.quiet_bind, part_prune, bind_map_left, map_bind]
  congr 1

/-- Nodes without a rule at their place are invisible. A pruned document, in a strict as
in a lenient run, generates the texts that the whole document generates in a lenient one,
with nothing unsupported, or fails in the same target with the same cause. It comes to
this by the same evaluations and uses, so that nothing in a dropped node is evaluated. -/
theorem prune_invisible :
    (generate document.prune ⟨indent, strict⟩).result =
        (generate document ⟨indent, false⟩).result.map
          (fun site => { site with unsupported := [] }) ∧
      (generate document.prune ⟨indent, strict⟩).events.filter Event.isEvaluation =
        (generate document ⟨indent, false⟩).events.filter Event.isEvaluation := by
  have hRuns := generate_prune indent strict document
  rw [Run.map_eq] at hRuns
  obtain ⟨hEvents, hResult⟩ := Run.mk.inj hRuns
  exact ⟨hResult, hEvents⟩

end Site

end PageGen
