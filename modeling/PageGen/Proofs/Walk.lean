import PageGen.Proofs.Instance

/-! The walk over a body, opened once: an equation for each form of a node, what
it takes for a use to succeed or to fail, and the induction that follows the
walk. Nothing else needs to look inside the recursion. -/
namespace PageGen

/-- Induction along the walk, for every target at once. A node list is taken
apart in order. Of a use, the body of the component it resolves to is assumed
for whatever the arguments are bound to, on top of the stack of the use. -/
theorem Document.walk_induction (document : Document) (single : Context → Node → Prop)
    {motive : Context → List Node → Prop}
    (nil : ∀ context, motive context [])
    (cons : ∀ context node rest, single context node → motive context rest →
      motive context (node :: rest))
    (element : ∀ context e, single context (.element e))
    (div : ∀ context children, motive context children → single context (.div children))
    (useComponent : ∀ context name arguments,
      (∀ component bindings, document.resolve context name = .ok component →
        motive (context.push ⟨component.name, bindings⟩) component.body) →
      single context (.useComponent name arguments))
    (context : Context) (nodes : List Node) : motive context nodes := by
  match nodes with
  | [] => exact nil context
  | .element e :: rest =>
      exact cons context _ rest (element context e)
        (document.walk_induction single nil cons element div useComponent context rest)
  | .div children :: rest =>
      exact cons context _ rest
        (div context children
          (document.walk_induction single nil cons element div useComponent context children))
        (document.walk_induction single nil cons element div useComponent context rest)
  | .useComponent name arguments :: rest =>
      refine cons context _ rest (useComponent context name arguments ?_)
        (document.walk_induction single nil cons element div useComponent context rest)
      intro component bindings hResolve
      exact document.walk_induction single nil cons element div useComponent _ component.body
termination_by (document.inactive context, sizeOf nodes)
decreasing_by
  -- Only a use goes to nodes that are no part of those at hand.
  all_goals simp_wf
  any_goals (right; omega)
  left
  exact Document.inactive_push_lt hResolve bindings

namespace Pass

variable {σ α : Type} {pass : Pass σ α} {document : Document} {options : Options}
  {context : Context} {output final : Output σ}

theorem walk_nil : pass.walk document options context [] output = pure output := by
  rw [walk]

theorem walk_cons {node : Node} {rest : List Node} :
    pass.walk document options context (node :: rest) output = (do
      let next ← pass.walkNode document options context node output
      pass.walk document options context rest next) := by
  rw [walk]

theorem walkNode_element {e : Element} :
    pass.walkNode document options context (.element e) output =
      output.emit options pass.write (pass.element context e) := by
  rw [walkNode]

theorem walkNode_div {children : List Node} :
    pass.walkNode document options context (.div children) output = (do
      let inner ← pass.walk document options context children (output.map pass.openDiv)
      pure (inner.map pass.closeDiv)) := by
  rw [walkNode]

/-- A use resolves, binds and is told of on the stack as it is. Only the body
of the component sees the new frame. -/
theorem walkNode_useComponent {name : String} {arguments : List Expr} :
    pass.walkNode document options context (.useComponent name arguments) output = (do
      let component ← Run.ofExcept (document.resolve context name)
      let bindings ← component.bindArguments arguments context
      pass.inlining component.name context.depth
      Run.inFrame ⟨component.name, bindings⟩
        (pass.walk document options (context.push ⟨component.name, bindings⟩) component.body
          output)) := by
  rw [walkNode]
  split
  · rename_i cause hResolve
    rw [hResolve, Run.ofExcept_error, Run.fail_bind]
  · rename_i component hResolve
    rw [hResolve, Run.ofExcept_ok, pure_bind]

/-- Nodes are walked over in order, the later ones from where the earlier ones
have led. -/
theorem walk_append {first second : List Node} :
    pass.walk document options context (first ++ second) output = (do
      let next ← pass.walk document options context first output
      pass.walk document options context second next) := by
  induction first generalizing output with
  | nil => rw [List.nil_append, walk_nil, pure_bind]
  | cons node rest ih => simp only [List.cons_append, walk_cons, ih, bind_assoc]

theorem walk_cons_eq_ok_iff {node : Node} {rest : List Node} :
    (pass.walk document options context (node :: rest) output).result = .ok final ↔
      ∃ next, (pass.walkNode document options context node output).result = .ok next ∧
        (pass.walk document options context rest next).result = .ok final := by
  rw [walk_cons, Run.result_bind_eq_ok_iff]

theorem walkNode_div_eq_ok_iff {children : List Node} :
    (pass.walkNode document options context (.div children) output).result = .ok final ↔
      ∃ inner, (pass.walk document options context children
          (output.map pass.openDiv)).result = .ok inner ∧ inner.map pass.closeDiv = final := by
  rw [walkNode_div, Run.result_bind_eq_ok_iff]
  simp

/-- A use succeeds exactly if it resolves, its arguments bind, and the body
succeeds in the new frame. -/
theorem Modest.walkNode_useComponent_eq_ok_iff (hPass : pass.Modest) {name : String}
    {arguments : List Expr} :
    (pass.walkNode document options context (.useComponent name arguments) output).result =
        .ok final ↔
      ∃ component bindings, document.resolve context name = .ok component ∧
        (component.bindArguments arguments context).result = .ok bindings ∧
        (pass.walk document options (context.push ⟨component.name, bindings⟩) component.body
          output).result = .ok final := by
  rw [walkNode_useComponent]
  simp only [Run.result_bind_eq_ok_iff, Run.result_ofExcept, Run.result_inFrame,
    hPass.inlining_result, true_and, exists_const, exists_and_left]

/-- A use fails because it does not resolve, because an argument has no value,
or because the body fails in the new frame. -/
theorem Modest.walkNode_useComponent_eq_error_iff (hPass : pass.Modest) {name : String}
    {arguments : List Expr} {cause : Failure} :
    (pass.walkNode document options context (.useComponent name arguments) output).result =
        .error cause ↔
      document.resolve context name = .error cause ∨
        ∃ component, document.resolve context name = .ok component ∧
          ((component.bindArguments arguments context).result = .error cause ∨
            ∃ bindings, (component.bindArguments arguments context).result = .ok bindings ∧
              (pass.walk document options (context.push ⟨component.name, bindings⟩)
                component.body output).result = .error cause) := by
  rw [walkNode_useComponent]
  simp only [Run.result_bind_eq_error_iff, Run.result_ofExcept, Run.result_inFrame,
    hPass.inlining_result, reduceCtorEq, false_or, true_and, exists_const]

end Pass

end PageGen
