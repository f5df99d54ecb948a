import PageGen.Proofs.InOrder
import PageGen.Proofs.Instance

/-! What a use of a component binds. Parameters and arguments are paired by
position, in the scope of the use; inside the component a symbol stands for the
first parameter of its name and for nothing that is bound further out. -/
namespace PageGen

/-- The parameter that a binding is for. -/
def Binding.parameter (binding : Binding) : Parameter := ⟨binding.name, binding.type⟩

/-- The value that arguments pass to the parameter at a position: that of the
argument there, or the empty string behind the last argument. -/
def Passes (context : Context) (arguments : List Expr) (index : Nat) (value : Value) : Prop :=
  match arguments[index]? with
  | some argument => (argument.evaluate context).result = .ok value
  | none => value = .string ""

/-- The values of the arguments that have a parameter, evaluated one after another. -/
def passedValues (context : Context) (parameters : List Parameter) (arguments : List Expr) :
    Except Failure (List Value) :=
  (arguments.take parameters.length).mapM fun argument => (Expr.evaluate context argument).result

/-- Parameters with the values at their positions. -/
def bindingsOf (parameters : List Parameter) (values : List Value) : List Binding :=
  parameters.mapIdx fun index parameter =>
    ⟨parameter.name, parameter.type, values[index]?.getD Value.empty⟩

variable {context : Context} {parameters : List Parameter} {arguments : List Expr}
  {values : List Value}

theorem bindingsOf_cons_nil (parameter : Parameter) (parameters : List Parameter) :
    bindingsOf (parameter :: parameters) [] =
      ⟨parameter.name, parameter.type, Value.empty⟩ :: bindingsOf parameters [] := by
  simp [bindingsOf, List.mapIdx_cons]

theorem bindingsOf_cons_cons (parameter : Parameter) (parameters : List Parameter) (value : Value)
    (values : List Value) :
    bindingsOf (parameter :: parameters) (value :: values) =
      ⟨parameter.name, parameter.type, value⟩ :: bindingsOf parameters values := by
  simp [bindingsOf, List.mapIdx_cons]

theorem map_parameter_bindingsOf (parameters : List Parameter) (values : List Value) :
    (bindingsOf parameters values).map Binding.parameter = parameters := by
  refine List.ext_getElem? fun index => ?_
  simp only [bindingsOf, List.getElem?_map, List.getElem?_mapIdx, Option.map_map]
  exact Option.map_id'

/-- Surplus arguments have no part in the bindings, nor in the log of making them. -/
theorem bindParameters_take (context : Context) (parameters : List Parameter)
    (arguments : List Expr) :
    bindParameters context parameters (arguments.take parameters.length) =
      bindParameters context parameters arguments := by
  induction parameters generalizing arguments with
  | nil => rfl
  | cons parameter rest ih =>
      cases arguments with
      | nil => rfl
      | cons argument more =>
          rw [List.length_cons, List.take_succ_cons, bindParameters, bindParameters, ih]

theorem bindParameters_result (context : Context) (parameters : List Parameter)
    (arguments : List Expr) :
    (bindParameters context parameters arguments).result =
      (passedValues context parameters arguments).map (bindingsOf parameters) := by
  induction parameters generalizing arguments with
  | nil => rfl
  | cons parameter rest ih =>
      cases arguments with
      | nil =>
          have hNone : ∀ parameters, passedValues context parameters [] = .ok [] := by
            intro parameters
            rw [passedValues, List.take_nil]
            rfl
          rw [bindParameters, Run.result_bind, ih, hNone, hNone]
          exact congrArg Except.ok (bindingsOf_cons_nil parameter rest).symm
      | cons argument more =>
          have hValues : passedValues context (parameter :: rest) (argument :: more) = (do
              let value ← (argument.evaluate context).result
              let values ← passedValues context rest more
              pure (value :: values)) := List.mapM_cons
          rw [bindParameters, hValues]
          simp only [Run.result_bind, Run.result_pure, ih]
          cases (argument.evaluate context).result with
          | error cause => rfl
          | ok value =>
              cases passedValues context rest more with
              | error cause => rfl
              | ok values =>
                  exact congrArg Except.ok (bindingsOf_cons_cons parameter rest value values).symm

/-- Each binding holds what the arguments pass at its position. -/
theorem passes_of_passedValues (hValues : passedValues context parameters arguments = .ok values)
    {index : Nat} {binding : Binding}
    (hBinding : (bindingsOf parameters values)[index]? = some binding) :
    Passes context arguments index binding.value := by
  obtain ⟨hLength, hEach⟩ := List.forall₂_iff_get.mp (mapM_eq_ok_iff.mp hValues)
  rw [bindingsOf, List.getElem?_mapIdx, Option.map_eq_some_iff] at hBinding
  obtain ⟨parameter, hParameter, rfl⟩ := hBinding
  obtain ⟨hIndex, -⟩ := List.getElem?_eq_some_iff.mp hParameter
  rw [Passes]
  cases hArgument : arguments[index]? with
  | none =>
      have hBehind : values[index]? = none := by
        rw [List.getElem?_eq_none_iff] at hArgument ⊢
        rw [← hLength, List.length_take]
        omega
      simp [hBehind, Value.empty]
  | some argument =>
      rw [← List.getElem?_take_of_lt hIndex] at hArgument
      obtain ⟨hTaken, rfl⟩ := List.getElem?_eq_some_iff.mp hArgument
      have hValue := hEach index hTaken (hLength ▸ hTaken)
      simpa [List.getElem?_eq_getElem (hLength ▸ hTaken)] using hValue

theorem Expr.evaluate_symbol_result (context : Context) (name : String) :
    ((Expr.symbol name).evaluate context).result =
      .ok ((context.lookup name).getD Value.empty) := by
  rw [Expr.evaluate]
  cases context.lookup name <;> rfl

/-- In its frame a component sees its own bindings, whatever is bound further out. -/
theorem Context.lookup_push (context : Context) (component name : String)
    (bindings : List Binding) :
    (context.push ⟨component, bindings⟩).lookup name =
      ((bindings.map Binding.parameter).findIdx? fun parameter => parameter.name == name).bind
        fun index => bindings[index]?.map Binding.value := by
  have hFind : (context.push ⟨component, bindings⟩).lookup name =
      (bindings.find? fun binding => binding.name == name).map Binding.value := rfl
  rw [hFind, List.find?_eq_bind_findIdx?_getElem?, List.findIdx?_map, Option.map_bind]
  rfl

/-- Binding pairs parameters with arguments by position. It succeeds exactly if
the arguments that have a parameter evaluate where the component is used, fails as
the first of them that does not, and looks at no further arguments. Inside the
component a symbol is the value of the first parameter of its name, or the empty
string. -/
theorem arguments_bound_by_position (component : Component) (arguments : List Expr)
    (context : Context) :
    ((∃ bindings, (component.bindArguments arguments context).result = .ok bindings) ↔
        ∀ argument ∈ arguments.take component.parameters.length,
          ∃ value, (argument.evaluate context).result = .ok value) ∧
      (∀ cause, (component.bindArguments arguments context).result = .error cause ↔
        FailsFirst (fun argument => (argument.evaluate context).result)
          (arguments.take component.parameters.length) cause) ∧
      (∀ others, others.take component.parameters.length =
          arguments.take component.parameters.length →
        (component.bindArguments others context).result =
            (component.bindArguments arguments context).result ∧
          (others.length = arguments.length →
            component.bindArguments others context = component.bindArguments arguments context)) ∧
      ∀ bindings, (component.bindArguments arguments context).result = .ok bindings →
        bindings.map Binding.parameter = component.parameters ∧
          (∀ index binding, bindings[index]? = some binding →
            Passes context arguments index binding.value) ∧
          ∀ (outer : Context) (name : String),
            match component.parameters.findIdx? fun parameter => parameter.name == name with
            | some index => ∃ value, Passes context arguments index value ∧
                ((Expr.symbol name).evaluate
                  (outer.push ⟨component.name, bindings⟩)).result = .ok value
            | none => ((Expr.symbol name).evaluate
                (outer.push ⟨component.name, bindings⟩)).result = .ok (.string "") := by
  have hResult : ∀ arguments, (component.bindArguments arguments context).result =
      (passedValues context component.parameters arguments).map
        (bindingsOf component.parameters) := by
    intro arguments
    rw [Component.bindArguments_result, bindParameters_result]
  refine ⟨?_, ?_, ?_, ?_⟩
  · rw [hResult, exists_except_map_eq_ok_iff]
    exact exists_mapM_eq_ok_iff
  · intro cause
    rw [hResult, except_map_eq_error_iff]
    exact mapM_eq_error_iff
  · intro others hTake
    refine ⟨?_, fun hLength => ?_⟩
    · rw [hResult, hResult, passedValues, hTake, ← passedValues]
    · rw [Component.bindArguments, Component.bindArguments, hLength, ← bindParameters_take, hTake,
        bindParameters_take]
  · intro bindings hBindings
    rw [hResult] at hBindings
    obtain ⟨values, hValues, rfl⟩ := except_map_eq_ok_iff.mp hBindings
    refine ⟨map_parameter_bindingsOf _ _, fun index binding => passes_of_passedValues hValues, ?_⟩
    intro outer name
    rw [Expr.evaluate_symbol_result, Context.lookup_push, map_parameter_bindingsOf]
    cases hFirst : component.parameters.findIdx? fun parameter => parameter.name == name with
    | none => rfl
    | some index =>
        obtain ⟨hIndex, -⟩ := List.findIdx?_eq_some_iff_getElem.mp hFirst
        have hBound : index < (bindingsOf component.parameters values).length := by
          simpa [bindingsOf] using hIndex
        have hBinding := List.getElem?_eq_getElem hBound
        refine ⟨_, passes_of_passedValues hValues hBinding, ?_⟩
        rw [Option.bind_some, hBinding]
        rfl

end PageGen
