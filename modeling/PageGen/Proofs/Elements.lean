import PageGen.Proofs.Emission
import PageGen.Html
import PageGen.Css

/-! What elements may log and fail with, in either target. An element tells of
the stack only how deep it is, and it never fails over a component: resolving
and binding are left to the walk. -/
namespace PageGen

/-- The events that an element may log where `context` is in force. The depth
that comes with an unbound symbol is the depth of that context. -/
def Event.OfElement (context : Context) : Event → Prop
  | .unresolvedSymbol symbol depth => context.lookup symbol = none ∧ depth = context.depth
  | .unknownStyle _ => True
  | .unsupported _ => True
  | .ruleAdded _ => True
  | _ => False

/-- The failures that are not over a component. -/
def Failure.OfElement : Failure → Prop
  | .invalidOperation _ _ _ => True
  | .unhandledExpression _ => True
  | .unsupportedFeature _ => True
  | .componentNotFound _ => False
  | .recursiveComponent _ _ => False

/-- The run keeps within what an element may log and fail with. -/
abbrev Run.OfElement {α : Type} (context : Context) (run : Run Failure α) : Prop :=
  run.Within (Event.OfElement context) Failure.OfElement

variable {context : Context} {σ α : Type}

theorem Operator.apply_failure {operator : Operator} {left right : Value} {cause : Failure}
    (hApply : operator.apply left right = .error cause) :
    cause = .invalidOperation left operator right := by
  cases operator <;> cases left <;> cases right <;> simp_all [Operator.apply]

theorem Expr.evaluate_ofElement (context : Context) (expr : Expr) :
    (expr.evaluate context).OfElement context := by
  induction expr with
  | string value => exact .pure _
  | number value => exact .pure _
  | symbol name =>
      rw [Expr.evaluate]
      cases hLookup : context.lookup name with
      | some value => exact .pure _
      | none => exact .bind (.log ⟨hLookup, rfl⟩) fun _ _ => .pure _
  | operation left operator right ihLeft ihRight =>
      rw [Expr.evaluate]
      refine .bind ihLeft fun leftValue _ => .bind ihRight fun rightValue _ => ⟨by simp, ?_⟩
      intro cause hApply
      rw [Operator.apply_failure hApply]
      trivial
  | unrecognized kind => exact .fail trivial

theorem inlineStyle_ofElement (context : Context) (styles : List StyleDeclaration) :
    (inlineStyle context styles).OfElement context := by
  induction styles with
  | nil => exact .pure _
  | cons declaration rest ih =>
      have hFirst : (declaration.css context).OfElement context := by
        unfold StyleDeclaration.css
        cases cssName? declaration.property with
        | none => exact .bind (.log trivial) fun _ _ => .pure _
        | some name => exact .bind (declaration.value.evaluate_ofElement context) fun _ _ => .pure _
      exact .bind hFirst fun _ _ => .bind ih fun _ _ => .pure _

theorem recordEmission_ofElement (context : Context) (options : Options) (kinds : List NodeKind)
    (emission : Emission α) : (recordEmission options kinds emission).OfElement context := by
  cases emission with
  | written _ => exact .pure _
  | skipped => exact .pure _
  | unsupported kind =>
      rw [recordEmission]
      split
      · exact .fail trivial
      · exact .bind (.log trivial) fun _ _ => .pure _

/-- Emitting keeps within the limits if finding out what becomes of the node
and writing it do. -/
theorem Output.emit_ofElement {options : Options} {write : α → σ → Run Failure σ}
    {emission : Run Failure (Emission α)} (hEmission : emission.OfElement context)
    (hWrite : ∀ text state, (write text state).OfElement context) (output : Output σ) :
    (output.emit options write emission).OfElement context := by
  rw [Output.emit_eq]
  refine .bind hEmission fun outcome _ => .bind ?_ fun state _ =>
    .bind (recordEmission_ofElement context options _ outcome) fun _ _ => .pure _
  cases outcome with
  | written text => exact hWrite text _
  | skipped => exact .pure _
  | unsupported kind => exact .pure _

theorem Output.emitEach_ofElement {options : Options} {write : α → σ → Run Failure σ}
    {emission : Node → Run Failure (Emission α)}
    (hEmission : ∀ node, (emission node).OfElement context)
    (hWrite : ∀ text state, (write text state).OfElement context) (nodes : List Node)
    (output : Output σ) : (output.emitEach options write emission nodes).OfElement context := by
  induction nodes generalizing output with
  | nil => exact .pure _
  | cons node rest ih =>
      exact .bind (output.emit_ofElement (hEmission node) hWrite) fun next _ => ih next

namespace Html

theorem textContent_ofElement (context : Context) (expr : Expr) :
    (textContent context expr).OfElement context :=
  .bind (expr.evaluate_ofElement context) fun _ _ => .pure _

theorem styleAttribute_ofElement (context : Context) (styles : List StyleDeclaration) :
    (styleAttribute context styles).OfElement context :=
  .bind (inlineStyle_ofElement context styles) fun _ _ => .pure _

theorem callArguments_ofElement (context : Context) (arguments : List Expr) :
    (callArguments context arguments).OfElement context := by
  induction arguments with
  | nil => exact .pure _
  | cons argument rest ih =>
      exact .bind (argument.evaluate_ofElement context) fun _ _ => .bind ih fun _ _ => .pure _

theorem inputLine_ofElement (context : Context) (id : String) (placeholder : Option Expr) :
    (inputLine context id placeholder).OfElement context := by
  cases placeholder with
  | none => exact .pure _
  | some text => exact .bind (textContent_ofElement context text) fun _ _ => .pure _

theorem headNode_ofElement (context : Context) (node : Node) :
    (headNode context node).OfElement context := by
  cases node with
  | div children => exact .pure _
  | useComponent name arguments => exact .pure _
  | element e =>
      cases e with
      | title text => exact .bind (textContent_ofElement context text) fun _ _ => .pure _
      | icon path => exact .bind (textContent_ofElement context path) fun _ _ => .pure _
      | _ => exact .pure _

theorem bodyElement_ofElement (context : Context) (e : Element) :
    (bodyElement context e).OfElement context := by
  have hText := textContent_ofElement context
  have hStyle := styleAttribute_ofElement context
  cases e with
  | paragraph text styles => exact .bind (hStyle styles) fun _ _ => .bind (hText text) fun _ _ => .pure _
  | button text action arguments =>
      cases action with
      | none => exact .bind (hText text) fun _ _ => .pure _
      | some action =>
          exact .bind (hText text) fun _ _ =>
            .bind (callArguments_ofElement context arguments) fun _ _ => .pure _
  | link url text =>
      cases text with
      | none => exact .bind (hText url) fun _ _ => .pure _
      | some text => exact .bind (hText url) fun _ _ => .bind (hText text) fun _ _ => .pure _
  | textbox name placeholder label labelAfter =>
      cases label with
      | none => exact .bind (inputLine_ofElement context _ placeholder) fun _ _ => .pure _
      | some label =>
          exact .bind (inputLine_ofElement context _ placeholder) fun _ _ =>
            .bind (hText label) fun _ _ => .pure _
  | image path alt styles => exact .bind (hText path) fun _ _ => .bind (hStyle styles) fun _ _ => .pure _
  | heading level text styles =>
      exact .bind (hStyle styles) fun _ _ => .bind (hText text) fun _ _ => .pure _
  | topbar value fixed styles =>
      exact .bind (hStyle styles) fun _ _ => .bind (hText value) fun _ _ => .pure _
  | _ => exact .pure _

end Html

theorem Css.addRules_ofElement (context : Context) (rules : List Css.Rule) (sheet : Css.Sheet) :
    (Css.addRules rules sheet).OfElement context := by
  induction rules generalizing sheet with
  | nil => exact .pure _
  | cons rule rest ih =>
      rw [Css.addRules]
      split
      · exact ih sheet
      · exact .bind (.log trivial) fun _ _ => ih _

/-- A target whose elements and text keep within these limits, and which logs
no more about a use than that it takes place. -/
structure Pass.Modest (pass : Pass σ α) : Prop where
  element : ∀ context e, (pass.element context e).OfElement context
  write : ∀ context text state, (pass.write text state).OfElement context
  inlining : ∀ name depth,
    (pass.inlining name depth).Within (· = .inlining name depth) fun _ => False

/-- A modest target never fails between binding and entering a component. -/
theorem Pass.Modest.inlining_result {pass : Pass σ α} (hPass : pass.Modest) (name : String)
    (depth : Nat) : (pass.inlining name depth).result = .ok () := by
  cases hResult : (pass.inlining name depth).result with
  | ok value => rfl
  | error cause => exact False.elim ((hPass.inlining name depth).failed cause hResult)

theorem Html.passOn_modest (call : σ → Writer.Call → σ) : (passOn call).Modest where
  element := bodyElement_ofElement
  write _ _ _ := .pure _
  inlining _ _ := .log rfl

theorem Html.pass_modest : Html.pass.Modest := passOn_modest Writer.call

theorem Css.pass_modest : Css.pass.Modest where
  element context e := by
    cases e <;> exact .pure _
  write context := addRules_ofElement context
  inlining _ _ := .pure _

end PageGen
