import PageGen.Proofs.Instance

/-! The outline of a document: what is left of it without the contents of its
literals. String and number literals stay what they are, but every string becomes
the empty one and every number zero, and the same happens to alternative texts, the
names of text boxes and the levels of headings. What is computed from an expression
has the kind, a string or a number, that its outline tells, and it goes wrong
exactly where the outline does. -/
namespace PageGen

/-- The kind of a value, as the plainest value of this kind. -/
def Value.outline : Value → Value
  | .string _ => .string ""
  | .number _ => .number 0

/-- A failure without the contents of its operands. All else in it is kept. -/
def Failure.outline : Failure → Failure
  | .invalidOperation left operator right => .invalidOperation left.outline operator right.outline
  | other => other

def Expr.outline : Expr → Expr
  | .string _ => .string ""
  | .number _ => .number 0
  | .symbol name => .symbol name
  | .operation left operator right => .operation left.outline operator right.outline
  | .unrecognized kind => .unrecognized kind

def StyleDeclaration.outline (declaration : StyleDeclaration) : StyleDeclaration :=
  { declaration with value := declaration.value.outline }

def Element.outline : Element → Element
  | .title text => .title text.outline
  | .icon imagePath => .icon imagePath.outline
  | .paragraph text styles => .paragraph text.outline (styles.map .outline)
  | .button text action arguments => .button text.outline action (arguments.map .outline)
  | .link url text => .link url.outline (text.map .outline)
  | .textbox _ placeholder label labelAfter =>
    .textbox "" (placeholder.map .outline) (label.map .outline) labelAfter
  | .linebreak => .linebreak
  | .image imagePath _ styles => .image imagePath.outline none (styles.map .outline)
  | .heading _ text styles => .heading 0 text.outline (styles.map .outline)
  | .topbar value fixed styles => .topbar value.outline fixed (styles.map .outline)
  | .imported path => .imported path
  | .popup text => .popup text.outline

mutual

/-- The outline of a node and of all that stands in it. -/
def Node.outline : Node → Node
  | .element e => .element e.outline
  | .div children => .div (outlineAll children)
  | .useComponent component arguments => .useComponent component (arguments.map .outline)

@[inherit_doc Node.outline]
def outlineAll : List Node → List Node
  | [] => []
  | node :: rest => node.outline :: outlineAll rest

end

def Component.outline (component : Component) : Component :=
  { component with body := outlineAll component.body }

def ScriptFunction.outline (function : ScriptFunction) : ScriptFunction :=
  { function with body := outlineAll function.body }

def Document.outline (document : Document) : Document :=
  ⟨outlineAll document.head, outlineAll document.body,
    document.scripts.map .outline, document.components.map .outline⟩

def Binding.outline (binding : Binding) : Binding := { binding with value := binding.value.outline }

def Frame.outline (frame : Frame) : Frame := { frame with bindings := frame.bindings.map .outline }

def Context.outline (context : Context) : Context := ⟨context.frames.map .outline⟩

namespace Run

variable {α β γ δ : Type} {view : α → β} {run run' other : Run Failure α}

/-- Both runs have a result, and the results look the same; or both fail, and the
failures have the same outline. -/
def Alike (view : α → β) (run run' : Run Failure α) : Prop :=
  (∃ value value', run.result = .ok value ∧ run'.result = .ok value' ∧ view value = view value') ∨
    ∃ cause cause', run.result = .error cause ∧ run'.result = .error cause' ∧
      cause.outline = cause'.outline

namespace Alike

theorem pure {value value' : α} (hValue : view value = view value') :
    Alike view (Pure.pure value) (Pure.pure value') :=
  Or.inl ⟨value, value', rfl, rfl, hValue⟩

theorem fail {cause cause' : Failure} (hCause : cause.outline = cause'.outline) :
    Alike view (Run.fail cause) (Run.fail cause') :=
  Or.inr ⟨cause, cause', rfl, rfl, hCause⟩

theorem refl (run : Run Failure α) : Alike view run run := by
  cases hRun : run.result with
  | ok value => exact Or.inl ⟨value, value, hRun, hRun, rfl⟩
  | error cause => exact Or.inr ⟨cause, cause, hRun, hRun, rfl⟩

theorem symm (hAlike : Alike view run run') : Alike view run' run := by
  rcases hAlike with ⟨value, value', hRun, hRun', hValue⟩ | ⟨cause, cause', hRun, hRun', hCause⟩
  · exact Or.inl ⟨value', value, hRun', hRun, hValue.symm⟩
  · exact Or.inr ⟨cause', cause, hRun', hRun, hCause.symm⟩

theorem trans (hFirst : Alike view run run') (hRest : Alike view run' other) :
    Alike view run other := by
  rcases hFirst with ⟨value, middle, hRun, hRun', hValue⟩ | ⟨cause, middle, hRun, hRun', hCause⟩
  · rcases hRest with ⟨middle', final, hMiddle, hOther, hFinal⟩ | ⟨cause, cause', hMiddle, -, -⟩
    · obtain rfl := Except.ok.inj (hRun'.symm.trans hMiddle)
      exact Or.inl ⟨value, final, hRun, hOther, hValue.trans hFinal⟩
    · cases hRun'.symm.trans hMiddle
  · rcases hRest with ⟨value, value', hMiddle, -, -⟩ | ⟨middle', final, hMiddle, hOther, hFinal⟩
    · cases hRun'.symm.trans hMiddle
    · obtain rfl := Except.error.inj (hRun'.symm.trans hMiddle)
      exact Or.inr ⟨cause, final, hRun, hOther, hCause.trans hFinal⟩

/-- What comes next may look at no more of a result than there is to see. -/
theorem bind {view' : γ → δ} {next next' : α → Run Failure γ} (hFirst : Alike view run run')
    (hNext : ∀ value value', view value = view value' →
      Alike view' (next value) (next' value')) :
    Alike view' (run >>= next) (run' >>= next') := by
  unfold Alike
  rw [result_bind, result_bind]
  rcases hFirst with ⟨value, value', hRun, hRun', hValue⟩ | ⟨cause, cause', hRun, hRun', hCause⟩
  · rw [hRun, hRun']
    exact hNext value value' hValue
  · rw [hRun, hRun']
    exact Or.inr ⟨cause, cause', rfl, rfl, hCause⟩

/-- The log is no part of what two runs are compared by. -/
theorem log {event event' : Event} {next next' : Unit → Run Failure α}
    (hNext : Alike view (next ()) (next' ())) :
    Alike view (Run.log event >>= next) (Run.log event' >>= next') := by
  unfold Alike
  rw [result_bind, result_bind]
  exact hNext

theorem inFrame {frame frame' : Frame} (hBody : Alike view run run') :
    Alike view (Run.inFrame frame run) (Run.inFrame frame' run') := hBody

end Alike

end Run

/-- A computation of which it only matters whether it goes wrong, and how. -/
abbrev Run.FailAlike {α : Type} (run run' : Run Failure α) : Prop :=
  Run.Alike (fun _ => ()) run run'

variable {context context' : Context}

namespace Context

theorem outline_push {bindings bindings' : List Binding} (hContext : context.outline = context'.outline)
    (hBindings : bindings.map Binding.outline = bindings'.map Binding.outline)
    (component : String) :
    (context.push ⟨component, bindings⟩).outline =
      (context'.push ⟨component, bindings'⟩).outline := by
  simp only [outline, push, List.map_cons, Frame.outline, hBindings, mk.injEq] at hContext ⊢
  rw [hContext]

theorem lookup_outline (context : Context) (name : String) :
    context.outline.lookup name = (context.lookup name).map Value.outline := by
  unfold lookup current? outline
  cases context.frames with
  | nil => rfl
  | cons frame rest =>
      simp only [List.map_cons, List.head?_cons, Option.bind_some, Frame.get?, Frame.outline,
        List.find?_map, Option.map_map]
      rfl

theorem isActive_outline (context : Context) (name : String) :
    context.outline.isActive name = context.isActive name := by
  simp only [isActive, outline, List.any_map]
  rfl

theorem callStack_outline (context : Context) : context.outline.callStack = context.callStack := by
  simp only [callStack, outline, ← List.map_reverse, List.map_map]
  rfl

end Context

/-- The operators look at the kinds of their operands only. -/
theorem Operator.apply_outline (operator : Operator) (left right : Value) :
    Run.Alike Value.outline (Run.ofExcept (operator.apply left right))
      (Run.ofExcept (operator.apply left.outline right.outline)) := by
  cases left with
  | string s =>
      cases operator with
      | add => cases right <;> exact .pure rfl
      | _ => cases right <;> exact .fail rfl
  | number x =>
      cases right with
      | string s =>
          cases operator with
          | add => exact .pure rfl
          | _ => exact .fail rfl
      | number y => cases operator <;> exact .pure rfl

theorem Operator.apply_alike {left left' right right' : Value} (operator : Operator)
    (hLeft : left.outline = left'.outline) (hRight : right.outline = right'.outline) :
    Run.Alike Value.outline (Run.ofExcept (operator.apply left right))
      (Run.ofExcept (operator.apply left' right')) := by
  have hOther := operator.apply_outline left' right'
  rw [← hLeft, ← hRight] at hOther
  exact (operator.apply_outline left right).trans hOther.symm

/-- An expression has a value of the kind that its outline has, in any context of
the same outline, or fails as its outline does. -/
theorem Expr.evaluate_alike (hContext : context.outline = context'.outline) (expr : Expr) :
    Run.Alike Value.outline (expr.evaluate context) (expr.outline.evaluate context') := by
  induction expr with
  | string value => exact .pure rfl
  | number value => exact .pure rfl
  | unrecognized kind => exact .fail rfl
  | symbol name =>
      have hLookup : (context.lookup name).map Value.outline =
          (context'.lookup name).map Value.outline := by
        rw [← Context.lookup_outline, ← Context.lookup_outline, hContext]
      rw [outline, evaluate, evaluate]
      cases hValue : context.lookup name with
      | none =>
          rw [hValue] at hLookup
          rw [Option.map_eq_none_iff.mp hLookup.symm]
          exact .log (.pure rfl)
      | some value =>
          rw [hValue] at hLookup
          obtain ⟨value', hValue', hSame⟩ := Option.map_eq_some_iff.mp hLookup.symm
          rw [hValue']
          exact .pure hSame.symm
  | operation left operator right ihLeft ihRight =>
      apply ihLeft.bind
      intro leftValue leftValue' hLeft
      apply ihRight.bind
      intro rightValue rightValue' hRight
      exact operator.apply_alike hLeft hRight

theorem inlineStyle_alike (hContext : context.outline = context'.outline)
    (styles : List StyleDeclaration) :
    Run.FailAlike (inlineStyle context styles) (inlineStyle context' (styles.map .outline)) := by
  induction styles with
  | nil => exact .pure rfl
  | cons declaration rest ih =>
      have hFirst : Run.FailAlike (declaration.css context) (declaration.outline.css context') := by
        unfold StyleDeclaration.css StyleDeclaration.outline
        cases cssName? declaration.property with
        | none => exact .log (.pure rfl)
        | some name => exact (declaration.value.evaluate_alike hContext).bind fun _ _ _ => .pure rfl
      exact hFirst.bind fun _ _ _ => ih.bind fun _ _ _ => .pure rfl

/-- Arguments are bound to values of the same kinds. -/
theorem bindParameters_alike (hContext : context.outline = context'.outline)
    (parameters : List Parameter) (arguments : List Expr) :
    Run.Alike (List.map Binding.outline) (bindParameters context parameters arguments)
      (bindParameters context' parameters (arguments.map .outline)) := by
  induction parameters generalizing arguments with
  | nil => exact .pure rfl
  | cons parameter rest ih =>
      cases arguments with
      | nil =>
          apply (ih []).bind
          intro bindings bindings' hBindings
          exact .pure (congrArg (List.cons _) hBindings)
      | cons argument others =>
          apply (argument.evaluate_alike hContext).bind
          intro value value' hValue
          apply (ih others).bind
          intro bindings bindings' hBindings
          apply Run.Alike.pure
          simp only [List.map_cons, Binding.outline, hValue, hBindings]

/-- A use stands for the outline of the component, or for none for the same reason. -/
theorem Document.resolve_outline (hContext : context.outline = context'.outline)
    (document : Document) (name : String) :
    document.outline.resolve context' name =
      (document.resolve context name).map Component.outline := by
  have hActive : context'.isActive name = context.isActive name := by
    rw [← Context.isActive_outline, ← hContext, Context.isActive_outline]
  have hStack : context'.callStack = context.callStack := by
    rw [← Context.callStack_outline, ← hContext, Context.callStack_outline]
  exact resolve_map rfl (fun _ => rfl) hActive hStack

namespace Html

theorem textContent_alike (hContext : context.outline = context'.outline) (expr : Expr) :
    Run.FailAlike (textContent context expr) (textContent context' expr.outline) :=
  (expr.evaluate_alike hContext).bind fun _ _ _ => .pure rfl

theorem styleAttribute_alike (hContext : context.outline = context'.outline)
    (styles : List StyleDeclaration) :
    Run.FailAlike (styleAttribute context styles)
      (styleAttribute context' (styles.map .outline)) :=
  (inlineStyle_alike hContext styles).bind fun _ _ _ => .pure rfl

theorem callArguments_alike (hContext : context.outline = context'.outline)
    (arguments : List Expr) :
    Run.FailAlike (callArguments context arguments)
      (callArguments context' (arguments.map .outline)) := by
  induction arguments with
  | nil => exact .pure rfl
  | cons argument rest ih =>
      exact (argument.evaluate_alike hContext).bind fun _ _ _ => ih.bind fun _ _ _ => .pure rfl

theorem inputLine_alike (hContext : context.outline = context'.outline) (id id' : String)
    (placeholder : Option Expr) :
    Run.FailAlike (inputLine context id placeholder)
      (inputLine context' id' (placeholder.map .outline)) := by
  cases placeholder with
  | none => exact .pure rfl
  | some text => exact (textContent_alike hContext text).bind fun _ _ _ => .pure rfl

end Html

end PageGen
