import PageGen.Proofs.Elements

/-! Use of a component, as the walk needs it. Which declaration is found depends on
the names alone. What binding the arguments results in is the pairing of parameters
and arguments, and it fails as an element does. -/
namespace PageGen

variable {context : Context}

/-- Where every component has been replaced by one of its name, a use stands for
what its component has been replaced by. -/
theorem Document.resolve_map {document image : Document} {context' : Context} {name : String}
    {replace : Component → Component}
    (hImage : image.components = document.components.map replace)
    (hName : ∀ component, (replace component).name = component.name)
    (hActive : context'.isActive name = context.isActive name)
    (hStack : context'.callStack = context.callStack) :
    image.resolve context' name = (document.resolve context name).map replace := by
  have hComponent : image.component? name = (document.component? name).map replace := by
    unfold component?
    rw [hImage, List.find?_map]
    congr 2
    funext component
    exact congrArg (· == name) (hName component)
  unfold resolve
  rw [hActive, hStack, hComponent]
  cases context.isActive name with
  | true => rfl
  | false => cases document.component? name <;> rfl

theorem bindParameters_ofElement (context : Context) (parameters : List Parameter)
    (arguments : List Expr) : (bindParameters context parameters arguments).OfElement context := by
  induction parameters generalizing arguments with
  | nil => exact .pure _
  | cons parameter rest ih =>
      cases arguments with
      | nil => exact .bind (ih []) fun _ _ => .pure _
      | cons argument others =>
          exact .bind (argument.evaluate_ofElement context) fun _ _ =>
            .bind (ih others) fun _ _ => .pure _

/-- A wrong number of arguments and the finished frame are only told of. -/
theorem Component.bindArguments_result (component : Component) (arguments : List Expr)
    (context : Context) :
    (component.bindArguments arguments context).result =
      (bindParameters context component.parameters arguments).result := by
  unfold Component.bindArguments
  split <;> simp only [Run.result_bind, Run.result_log, Run.result_pure, Except.bind]
  all_goals cases (bindParameters context component.parameters arguments).result <;> rfl

theorem Component.bindArguments_failure {component : Component} {arguments : List Expr}
    {cause : Failure} (hBind : (component.bindArguments arguments context).result = .error cause) :
    cause.OfElement := by
  rw [Component.bindArguments_result] at hBind
  exact (bindParameters_ofElement context _ arguments).failed cause hBind

end PageGen
