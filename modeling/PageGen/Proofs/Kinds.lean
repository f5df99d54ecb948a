import PageGen.Proofs.PageTree

/-! The kind discipline of expressions. Whether an expression has a value, and
whether that is a string or a number, can be told without evaluating it. Where
an expression has no kind, its evaluation fails at the first subexpression that
is to blame: one without a kind whose operands have one. -/
namespace PageGen

inductive ValueKind where
  | string
  | number
  deriving DecidableEq, Repr

def Value.kind : Value → ValueKind
  | .string _ => .string
  | .number _ => .number

/-- The kind of an operation, by the kinds of its operands. Every operator works
on two numbers, and a sum takes strings on either side as well. -/
def Operator.resultKind? : Operator → ValueKind → ValueKind → Option ValueKind
  | _, .number, .number => some .number
  | .add, _, _ => some .string
  | _, _, _ => none

/-- The kind of the value that the innermost frame binds first to a name. A name
that it does not bind is a string. -/
def Context.symbolKind (context : Context) (name : String) : ValueKind :=
  match context.frames with
  | [] => .string
  | innermost :: _ =>
    match innermost.bindings.find? fun binding => binding.name == name with
    | some binding => binding.value.kind
    | none => .string

namespace Expr

/-- The kind of an expression, if it has one. -/
def valueKind? (context : Context) : Expr → Option ValueKind
  | .string _ => some .string
  | .number _ => some .number
  | .symbol name => some (context.symbolKind name)
  | .operation left operator right => do
    operator.resultKind? (← left.valueKind? context) (← right.valueKind? context)
  | .unrecognized _ => none

def operands : Expr → List Expr
  | .operation left _ right => [left, right]
  | _ => []

/-- All subexpressions, the left operand before the right one and both before
their operation. -/
def postOrder : Expr → List Expr
  | .operation left operator right =>
    left.postOrder ++ (right.postOrder ++ [.operation left operator right])
  | leaf => [leaf]

/-- Whether an expression has no kind through no fault of its operands. -/
def isToBlame (context : Context) (expr : Expr) : Bool :=
  (expr.valueKind? context).isNone &&
    expr.operands.all fun operand => (operand.valueKind? context).isSome

/-- The first subexpression that is to blame. -/
def firstToBlame? (context : Context) (expr : Expr) : Option Expr :=
  expr.postOrder.find? (isToBlame context)

/-- What an expression that is to blame is reported with: an operation with its
operator and the values of its operands, anything else with its kind. -/
def ReportedAs (context : Context) : Expr → Failure → Prop
  | .operation left operator right, cause =>
    ∃ leftValue rightValue, (left.evaluate context).result = .ok leftValue ∧
      (right.evaluate context).result = .ok rightValue ∧
      cause = .invalidOperation leftValue operator rightValue
  | .unrecognized kind, cause => cause = .unhandledExpression kind
  | _, _ => False

/-- The subexpressions whose texts a string is made of, from left to right: the
maximal ones that are numbers, and the leaves that are strings. -/
def pieces (context : Context) : Expr → List Expr
  | .operation left operator right =>
    if (Expr.operation left operator right).valueKind? context = some .number then
      [.operation left operator right]
    else left.pieces context ++ right.pieces context
  | leaf => [leaf]

end Expr

variable {context : Context} {expr : Expr} {value : Value} {cause : Failure}

theorem Context.symbolKind_eq (context : Context) (name : String) :
    context.symbolKind name = ((context.lookup name).getD Value.empty).kind := by
  unfold Context.symbolKind Context.lookup Context.current? Frame.get?
  cases context.frames with
  | nil => rfl
  | cons innermost outer =>
      simp only [List.head?_cons, Option.bind_some]
      cases innermost.bindings.find? fun binding => binding.name == name <;> rfl

/-- Where an operator works, its result is of the kind that those of its
operands tell. -/
theorem Operator.resultKind?_of_apply {operator : Operator} {left right : Value}
    (hApply : operator.apply left right = .ok value) :
    operator.resultKind? left.kind right.kind = some value.kind := by
  cases operator <;> cases left <;> cases right <;> simp only [Operator.apply, reduceCtorEq,
    Except.ok.injEq] at hApply <;> subst hApply <;> rfl

theorem Operator.resultKind?_of_apply_error {operator : Operator} {left right : Value}
    (hApply : operator.apply left right = .error cause) :
    operator.resultKind? left.kind right.kind = none := by
  cases operator <;> cases left <;> cases right <;> simp only [Operator.apply, reduceCtorEq]
    at hApply <;> rfl

/-- Only sums are strings, and their text is that of both sides. -/
theorem Operator.text_of_apply {operator : Operator} {left right : Value}
    (hApply : operator.apply left right = .ok value) (hKind : value.kind ≠ .number) :
    value.text = left.text ++ right.text := by
  cases operator <;> cases left <;> cases right <;> simp only [Operator.apply, reduceCtorEq,
    Except.ok.injEq] at hApply <;> subst hApply <;> first | rfl | exact absurd rfl hKind

namespace Expr

/-- An operation has a value exactly if both operands do and the operator works
on these. -/
theorem evaluate_operation_eq_ok_iff {left right : Expr} {operator : Operator} :
    ((operation left operator right).evaluate context).result = .ok value ↔
      ∃ leftValue rightValue, (left.evaluate context).result = .ok leftValue ∧
        (right.evaluate context).result = .ok rightValue ∧
        operator.apply leftValue rightValue = .ok value := by
  rw [evaluate]
  simp only [Run.result_bind_eq_ok_iff, Run.result_ofExcept, exists_and_left]

/-- An operation fails over its left operand, else over its right one, else over
the operator. -/
theorem evaluate_operation_eq_error_iff {left right : Expr} {operator : Operator} :
    ((operation left operator right).evaluate context).result = .error cause ↔
      (left.evaluate context).result = .error cause ∨
        ∃ leftValue, (left.evaluate context).result = .ok leftValue ∧
          ((right.evaluate context).result = .error cause ∨
            ∃ rightValue, (right.evaluate context).result = .ok rightValue ∧
              operator.apply leftValue rightValue = .error cause) := by
  rw [evaluate]
  simp only [Run.result_bind_eq_error_iff, Run.result_ofExcept]

theorem firstToBlame?_operation (left right : Expr) (operator : Operator) :
    (operation left operator right).firstToBlame? context =
      ((left.firstToBlame? context).or (right.firstToBlame? context)).or
        (if (operation left operator right).isToBlame context then
          some (operation left operator right) else none) := by
  simp only [firstToBlame?, postOrder, List.find?_append, List.find?_singleton, Option.or_assoc]

/-- Of a value, the expression has the kind, and there is nothing to blame. -/
theorem kind_of_evaluate_ok (hValue : (expr.evaluate context).result = .ok value) :
    expr.valueKind? context = some value.kind ∧ expr.firstToBlame? context = none := by
  induction expr generalizing value with
  | string text =>
      obtain rfl := Except.ok.inj hValue
      exact ⟨rfl, rfl⟩
  | number x =>
      obtain rfl := Except.ok.inj hValue
      exact ⟨rfl, rfl⟩
  | symbol name =>
      refine ⟨?_, rfl⟩
      rw [evaluate] at hValue
      rw [valueKind?, Context.symbolKind_eq]
      cases hLookup : context.lookup name with
      | some bound =>
          simp only [hLookup, Run.result_pure, Except.ok.injEq] at hValue
          rw [hValue, Option.getD_some]
      | none =>
          simp only [hLookup, Run.result_bind, Run.result_log, Run.result_pure, Except.bind,
            Except.ok.injEq] at hValue
          rw [← hValue, Option.getD_none]
  | operation left operator right ihLeft ihRight =>
      obtain ⟨leftValue, rightValue, hLeft, hRight, hApply⟩ :=
        evaluate_operation_eq_ok_iff.mp hValue
      obtain ⟨hLeftKind, hLeftBlame⟩ := ihLeft hLeft
      obtain ⟨hRightKind, hRightBlame⟩ := ihRight hRight
      have hKind : (operation left operator right).valueKind? context = some value.kind := by
        rw [valueKind?, hLeftKind, hRightKind]
        exact Operator.resultKind?_of_apply hApply
      refine ⟨hKind, ?_⟩
      rw [firstToBlame?_operation, hLeftBlame, hRightBlame]
      simp [isToBlame, hKind]
  | unrecognized kind => cases hValue

/-- Where there is no value there is no kind either, and the failure is that of
the first subexpression to blame. -/
theorem blame_of_evaluate_error (hError : (expr.evaluate context).result = .error cause) :
    expr.valueKind? context = none ∧
      ∃ fault, expr.firstToBlame? context = some fault ∧ fault.ReportedAs context cause := by
  induction expr generalizing cause with
  | string text => cases hError
  | number x => cases hError
  | symbol name =>
      rw [evaluate] at hError
      cases hLookup : context.lookup name with
      | some bound => simp [hLookup] at hError
      | none =>
          simp only [hLookup, Run.result_bind, Run.result_log, Run.result_pure, Except.bind,
            reduceCtorEq] at hError
  | operation left operator right ihLeft ihRight =>
      rw [firstToBlame?_operation, valueKind?]
      rcases evaluate_operation_eq_error_iff.mp hError with
        hLeft | ⟨leftValue, hLeft, hRight | ⟨rightValue, hRight, hApply⟩⟩
      · obtain ⟨hKind, fault, hFault, hReported⟩ := ihLeft hLeft
        rw [hKind, hFault]
        exact ⟨rfl, fault, rfl, hReported⟩
      · obtain ⟨hLeftKind, hLeftBlame⟩ := kind_of_evaluate_ok hLeft
        obtain ⟨hKind, fault, hFault, hReported⟩ := ihRight hRight
        rw [hLeftKind, hLeftBlame, hKind, hFault]
        exact ⟨rfl, fault, rfl, hReported⟩
      · obtain ⟨hLeftKind, hLeftBlame⟩ := kind_of_evaluate_ok hLeft
        obtain ⟨hRightKind, hRightBlame⟩ := kind_of_evaluate_ok hRight
        have hNone := Operator.resultKind?_of_apply_error hApply
        have hBlame : (operation left operator right).isToBlame context = true := by
          simp [isToBlame, operands, valueKind?, hLeftKind, hRightKind, hNone]
        rw [hLeftKind, hLeftBlame, hRightKind, hRightBlame, if_pos hBlame]
        exact ⟨hNone, _, rfl, leftValue, rightValue, hLeft, hRight,
          Operator.apply_failure hApply⟩
  | unrecognized kind =>
      obtain rfl := Except.error.inj hError
      exact ⟨rfl, _, rfl, rfl⟩

theorem ReportedAs.unique {cause' : Failure} (hReported : expr.ReportedAs context cause)
    (hOther : expr.ReportedAs context cause') : cause = cause' := by
  cases expr with
  | operation left operator right =>
      obtain ⟨leftValue, rightValue, hLeft, hRight, rfl⟩ := hReported
      obtain ⟨leftValue', rightValue', hLeft', hRight', rfl⟩ := hOther
      rw [Except.ok.inj (hLeft.symm.trans hLeft'), Except.ok.inj (hRight.symm.trans hRight')]
  | unrecognized kind => exact hReported.trans hOther.symm
  | _ => exact False.elim hReported

/-- The text of a value is put together from those of the pieces. -/
theorem text_of_pieces (hValue : (expr.evaluate context).result = .ok value) :
    ∃ texts, (expr.pieces context).mapM (textIn context) = .ok texts ∧
      value.text = String.join texts := by
  have hWhole : ∀ {whole : Expr} {value : Value}, (whole.evaluate context).result = .ok value →
      ∃ texts, [whole].mapM (textIn context) = .ok texts ∧ value.text = String.join texts := by
    intro whole value hValue
    refine ⟨[value.text], ?_, by simp⟩
    simp [textIn, hValue, Except.map, Bind.bind, Except.bind, pure, Except.pure]
  induction expr generalizing value with
  | operation left operator right ihLeft ihRight =>
      rw [pieces]
      by_cases hNumber : (operation left operator right).valueKind? context = some .number
      · rw [if_pos hNumber]
        exact hWhole hValue
      · rw [if_neg hNumber, List.mapM_append]
        have hKind : value.kind ≠ .number := by
          intro hSame
          exact hNumber (hSame ▸ (kind_of_evaluate_ok hValue).1)
        obtain ⟨leftValue, rightValue, hLeft, hRight, hApply⟩ :=
          evaluate_operation_eq_ok_iff.mp hValue
        obtain ⟨leftTexts, hLeftTexts, hLeftText⟩ := ihLeft hLeft
        obtain ⟨rightTexts, hRightTexts, hRightText⟩ := ihRight hRight
        refine ⟨leftTexts ++ rightTexts, ?_, ?_⟩
        · rw [hLeftTexts, hRightTexts]
          rfl
        · rw [Operator.text_of_apply hApply hKind, hLeftText, hRightText, String.join_append]
  | _ => exact hWhole hValue

end Expr

/-- Evaluation follows the kinds. An expression has a value of a kind exactly if
it is of that kind; a string is made of the texts of its pieces; and a failure is
that of the first subexpression that is to blame. -/
theorem evaluation_follows_kinds (context : Context) (expr : Expr) :
    (∀ kind, (∃ value, (expr.evaluate context).result = .ok value ∧ value.kind = kind) ↔
        expr.valueKind? context = some kind) ∧
      (∀ text, (expr.evaluate context).result = .ok (.string text) ↔
        expr.valueKind? context = some .string ∧
          ∃ texts, (expr.pieces context).mapM (Expr.textIn context) = .ok texts ∧
            text = String.join texts) ∧
      (∀ cause, (expr.evaluate context).result = .error cause ↔
        ∃ fault, expr.firstToBlame? context = some fault ∧ fault.ReportedAs context cause) := by
  cases hResult : (expr.evaluate context).result with
  | error cause =>
      obtain ⟨hKind, fault, hFault, hReported⟩ := Expr.blame_of_evaluate_error hResult
      refine ⟨by simp [hKind], by simp [hKind], ?_⟩
      intro other
      rw [hFault]
      constructor
      · intro hSame
        exact ⟨fault, rfl, Except.error.inj hSame ▸ hReported⟩
      · rintro ⟨fault', hFault', hOther⟩
        obtain rfl := Option.some.inj hFault'
        rw [hReported.unique hOther]
  | ok value =>
      obtain ⟨hKind, hBlame⟩ := Expr.kind_of_evaluate_ok hResult
      obtain ⟨texts, hTexts, hText⟩ := Expr.text_of_pieces hResult
      refine ⟨by simp [hKind], ?_, by simp [hBlame]⟩
      intro text
      rw [hKind, hTexts]
      cases value with
      | string own =>
          simp only [Value.kind, Value.text] at hText ⊢
          simp [hText, eq_comm]
      | number x => simp [Value.kind]

/-- Numbers add up until the first string joins in. -/
example (one two : Float) :
    Expr.pieces Context.empty
        (.operation (.operation (.number one) .add (.number two)) .add (.string "px")) =
      [.operation (.number one) .add (.number two), .string "px"] ∧
    Expr.pieces Context.empty
        (.operation (.number one) .add (.operation (.number two) .add (.string "px"))) =
      [.number one, .number two, .string "px"] :=
  ⟨rfl, rfl⟩

end PageGen
