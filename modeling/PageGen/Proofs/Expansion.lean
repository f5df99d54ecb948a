import Mathlib
import PageGen.Proofs.Simulation
import PageGen.Proofs.Substitution
import PageGen.Proofs.UseGraph

/-! Use of a component is macro expansion. The expansion of a document is told
without any stack: a use gives way to the expanded body of the declaration, in
which literals stand where the parameters stood. The walk over a body that
succeeds does what the walk over its expansion does. -/
namespace PageGen

/-- The value that the parameter at a position has. What is expanded holds the
values of the caller already, so that its arguments are evaluated outside of all
components. -/
def ArgumentValue (arguments : List Expr) (position : Nat) (value : Value) : Prop :=
  match arguments[position]? with
  | some argument => (argument.evaluate Context.empty).result = .ok value
  | none => value = Value.empty

/-- These are the values of the parameters, in order. -/
structure ParameterValues (parameters : List Parameter) (arguments : List Expr)
    (values : List Value) : Prop where
  length : values.length = parameters.length
  value : ∀ position value, values[position]? = some value →
    ArgumentValue arguments position value

/-- What a symbol in the body of a component becomes: the literal of the first
parameter of this name, or the empty string. -/
def parameterLiteral (parameters : List Parameter) (values : List Value) (symbol : String) :
    Expr :=
  match (parameters.zip values).find? fun pair => pair.1.name == symbol with
  | some (_, value) => value.toExpr
  | none => .string ""

/-- The nodes on the right are those on the left with every use, at any depth of
containers, replaced by the expanded body of the component. -/
inductive Document.Expands (document : Document) : List Node → List Node → Prop where
  | nil : Expands document [] []
  | element {e : Element} {rest others : List Node} (hRest : Expands document rest others) :
      Expands document (.element e :: rest) (.element e :: others)
  | div {children inner rest others : List Node} (hChildren : Expands document children inner)
      (hRest : Expands document rest others) :
      Expands document (.div children :: rest) (.div inner :: others)
  | useComponent {name : String} {component : Component} {arguments : List Expr}
      {values : List Value} {body rest others : List Node}
      (hComponent : document.component? name = some component)
      (hValues : ParameterValues component.parameters arguments values)
      (hBody : Expands document
        (substituteAll (parameterLiteral component.parameters values) component.body) body)
      (hRest : Expands document rest others) :
      Expands document (.useComponent name arguments :: rest) (body ++ others)

/-- The document with its body expanded, and nothing else changed. -/
def Document.IsExpansion (document expanded : Document) : Prop :=
  ∃ body, document.Expands document.body body ∧ expanded = { document with body := body }

variable {document : Document} {nodes rest expanded others : List Node}

theorem ArgumentValue.unique {arguments : List Expr} {position : Nat} {value other : Value}
    (hValue : ArgumentValue arguments position value)
    (hOther : ArgumentValue arguments position other) : value = other := by
  unfold ArgumentValue at hValue hOther
  cases h : arguments[position]? with
  | none =>
      rw [h] at hValue hOther
      exact hValue.trans hOther.symm
  | some argument =>
      rw [h] at hValue hOther
      exact Except.ok.inj (hValue.symm.trans hOther)

theorem ParameterValues.unique {parameters : List Parameter} {arguments : List Expr}
    {values values' : List Value} (hValues : ParameterValues parameters arguments values)
    (hValues' : ParameterValues parameters arguments values') : values = values' := by
  apply List.ext_getElem (hValues.length.trans hValues'.length.symm)
  intro position hBound hBound'
  exact (hValues.value position _ (List.getElem?_eq_getElem hBound)).unique
    (hValues'.value position _ (List.getElem?_eq_getElem hBound'))

/-- There is no more than one expansion. -/
theorem Document.Expands.unique (hExpanded : document.Expands nodes expanded)
    (hOthers : document.Expands nodes others) : expanded = others := by
  induction hExpanded generalizing others with
  | nil =>
      cases hOthers
      rfl
  | element _ ihRest =>
      cases hOthers with
      | element hRest => rw [ihRest hRest]
  | div _ _ ihChildren ihRest =>
      cases hOthers with
      | div hChildren hRest => rw [ihChildren hChildren, ihRest hRest]
  | useComponent hComponent hValues _ _ ihBody ihRest =>
      cases hOthers with
      | useComponent hComponent' hValues' hBody hRest =>
          obtain rfl := Option.some.inj (hComponent.symm.trans hComponent')
          obtain rfl := hValues.unique hValues'
          rw [ihBody hBody, ihRest hRest]

theorem usedNames_append (first second : List Node) :
    usedNames (first ++ second) = usedNames first ++ usedNames second := by
  induction first with
  | nil => rfl
  | cons node rest ih => rw [List.cons_append, usedNames, usedNames, ih, List.append_assoc]

/-- What is expanded uses no component, at any depth. -/
theorem Document.Expands.usedNames_eq_nil (hExpanded : document.Expands nodes expanded) :
    usedNames expanded = [] := by
  induction hExpanded with
  | nil => rfl
  | element _ ihRest => exact ihRest
  | div _ _ ihChildren ihRest => rw [usedNames, Node.uses, ihChildren, ihRest, List.append_nil]
  | useComponent _ _ _ _ ihBody ihRest => rw [usedNames_append, ihBody, ihRest, List.append_nil]

theorem Document.Expands.append (hExpanded : document.Expands nodes expanded)
    (hRest : document.Expands rest others) : document.Expands (nodes ++ rest) (expanded ++ others) := by
  induction hExpanded with
  | nil => exact hRest
  | element _ ihRest => exact .element ihRest
  | div hChildren _ _ ihRest => exact .div hChildren ihRest
  | useComponent hComponent hValues hBody _ _ ihRest =>
      rw [List.append_assoc]
      exact .useComponent hComponent hValues hBody ihRest

/-- Binding pairs every parameter with its value. -/
theorem bindParameters_values {parameters : List Parameter} {arguments : List Expr}
    {bindings : List Binding}
    (hBind : (bindParameters Context.empty parameters arguments).result = .ok bindings) :
    ∃ values, ParameterValues parameters arguments values ∧
      bindings = (parameters.zip values).map fun pair => ⟨pair.1.name, pair.1.type, pair.2⟩ := by
  induction parameters generalizing arguments bindings with
  | nil =>
      obtain rfl := Except.ok.inj hBind
      exact ⟨[], ⟨rfl, by simp⟩, rfl⟩
  | cons parameter rest ih =>
      cases arguments with
      | nil =>
          obtain ⟨others, hRest, hPure⟩ := Run.result_bind_eq_ok_iff.mp hBind
          obtain rfl := Except.ok.inj hPure
          obtain ⟨values, ⟨hLength, hValues⟩, rfl⟩ := ih hRest
          refine ⟨Value.empty :: values, ⟨congrArg Nat.succ hLength, ?_⟩, rfl⟩
          intro position value hValue
          cases position with
          | zero => exact (Option.some.inj hValue).symm
          | succ position => exact hValues position value hValue
      | cons argument arguments =>
          obtain ⟨first, hFirst, hMore⟩ := Run.result_bind_eq_ok_iff.mp hBind
          obtain ⟨others, hRest, hPure⟩ := Run.result_bind_eq_ok_iff.mp hMore
          obtain rfl := Except.ok.inj hPure
          obtain ⟨values, ⟨hLength, hValues⟩, rfl⟩ := ih hRest
          refine ⟨first :: values, ⟨congrArg Nat.succ hLength, ?_⟩, rfl⟩
          intro position value hValue
          cases position with
          | zero =>
              obtain rfl := Option.some.inj hValue
              exact hFirst
          | succ position => exact hValues position value hValue

/-- Inside a component its symbols stand for the literals of its parameters. -/
theorem Context.replacement_push (context : Context) (name : String)
    (parameters : List Parameter) (values : List Value) :
    (context.push ⟨name, (parameters.zip values).map fun pair =>
      ⟨pair.1.name, pair.1.type, pair.2⟩⟩).replacement = parameterLiteral parameters values := by
  funext symbol
  unfold Context.replacement parameterLiteral
  simp only [Context.push, Context.current?, List.head?_cons, Frame.get?, List.find?_map,
    Option.map_map, Function.comp_def]
  cases (parameters.zip values).find? fun pair => pair.1.name == symbol <;> rfl

/-- A target in which a closed element does what the original does in context. -/
def Pass.Closes {σ α : Type} (pass : Pass σ α) : Prop :=
  ∀ context e, (pass.element Context.empty (e.substitute context.replacement)).result =
    (pass.element context e).result

theorem Html.pass_closes : Html.pass.Closes :=
  Html.bodyElement_substitute

theorem Css.pass_closes : Css.pass.Closes :=
  Css.element_substitute

variable {σ α : Type} {pass : Pass σ α} {options : Options}

/-- A walk that succeeds on nodes in their context succeeds, with the same
output, on an expansion of the nodes outside of all components. The expansion
needs no declarations, so any document serves. -/
theorem Pass.Closes.walk (hCloses : pass.Closes) (hPass : pass.Modest) (context : Context)
    (nodes : List Node) :
    ∀ output final, (pass.walk document options context nodes output).result = .ok final →
      ∃ expanded, document.Expands (substituteAll context.replacement nodes) expanded ∧
        ∀ anywhere, (pass.walk anywhere options Context.empty expanded output).result =
          .ok final := by
  induction context, nodes using document.walk_induction fun context node =>
    ∀ output final, (pass.walkNode document options context node output).result = .ok final →
      ∃ expanded, document.Expands [node.substitute context.replacement] expanded ∧
        ∀ anywhere, (pass.walk anywhere options Context.empty expanded output).result =
          .ok final with
  | nil context =>
      intro output final hWalk
      rw [Pass.walk_nil] at hWalk
      exact ⟨[], .nil, fun anywhere => by rw [Pass.walk_nil]; exact hWalk⟩
  | cons context node rest ihNode ihRest =>
      intro output final hWalk
      obtain ⟨next, hNode, hRest⟩ := Pass.walk_cons_eq_ok_iff.mp hWalk
      obtain ⟨first, hFirst, hFirstWalk⟩ := ihNode output next hNode
      obtain ⟨others, hOthers, hOthersWalk⟩ := ihRest next final hRest
      refine ⟨first ++ others, hFirst.append hOthers, fun anywhere => ?_⟩
      rw [Pass.walk_append, Run.result_bind_eq_ok_iff]
      exact ⟨next, hFirstWalk anywhere, hOthersWalk anywhere⟩
  | element context e output final hWalk =>
      refine ⟨[.element (e.substitute context.replacement)], .element .nil, fun anywhere => ?_⟩
      rw [Pass.walkNode_element, Output.emit_result_congr (hCloses context e).symm] at hWalk
      rw [Pass.walk_cons_eq_ok_iff, Pass.walkNode_element]
      exact ⟨final, hWalk, by rw [Pass.walk_nil]; rfl⟩
  | div context children ih output final hWalk =>
      obtain ⟨inner, hInner, rfl⟩ := Pass.walkNode_div_eq_ok_iff.mp hWalk
      obtain ⟨expanded, hExpanded, hWalks⟩ := ih (output.map pass.openDiv) inner hInner
      refine ⟨[.div expanded], .div hExpanded .nil, fun anywhere => ?_⟩
      rw [Pass.walk_cons_eq_ok_iff]
      refine ⟨_, Pass.walkNode_div_eq_ok_iff.mpr ⟨inner, hWalks anywhere, rfl⟩, ?_⟩
      rw [Pass.walk_nil]
      rfl
  | useComponent context name arguments ih output final hWalk =>
      obtain ⟨component, bindings, hResolve, hBind, hBody⟩ :=
        hPass.walkNode_useComponent_eq_ok_iff.mp hWalk
      obtain ⟨-, hFirst⟩ := Document.resolve_eq_ok_iff.mp hResolve
      obtain ⟨expanded, hExpanded, hWalks⟩ := ih component bindings hResolve output final hBody
      -- The arguments that the expansion is told of are closed by what stands around the use.
      rw [Component.bindArguments_result, ← bindParameters_substitute] at hBind
      obtain ⟨values, hValues, rfl⟩ := bindParameters_values hBind
      rw [Context.replacement_push] at hExpanded
      refine ⟨expanded, ?_, hWalks⟩
      rw [Node.substitute, ← List.append_nil expanded]
      exact .useComponent hFirst hValues hExpanded .nil

/-- The expansion of a document that compiles to a page. It is the only one, it
uses no component, and compiled itself it gives the same page and the same style
sheet, with the same unsupported kinds. -/
theorem expansion_compiles_alike {page : Compiled}
    (hPage : (Html.compile document options).result = .ok page) :
    ∃ expanded, document.IsExpansion expanded ∧
      (∀ other, document.IsExpansion other → other = expanded) ∧
      usedNames expanded.body = [] ∧
      (Html.compile expanded options).result = .ok page ∧
      ∃ sheet, (Css.compile document options).result = .ok sheet ∧
        (Css.compile expanded options).result = .ok sheet := by
  obtain ⟨sheet, hSheet, -⟩ := Css.compile_of_html hPage
  obtain ⟨head, final, hHead, hBody, rfl⟩ := Html.compile_eq_ok_iff.mp hPage
  obtain ⟨body, hExpands, hWalks⟩ :=
    Html.pass_closes.walk Html.pass_modest _ _ _ _ hBody
  obtain ⟨styled, hStyled, rfl⟩ := Css.compile_eq_ok_iff.mp hSheet
  obtain ⟨body', hExpands', hWalks'⟩ :=
    Css.pass_closes.walk Css.pass_modest _ _ _ _ hStyled
  -- Each target has found an expansion of its own, and there is only one.
  obtain rfl : body = body' := hExpands.unique hExpands'
  rw [Context.replacement_empty, substituteAll_symbol] at hExpands
  refine ⟨{ document with body := body }, ⟨body, hExpands, rfl⟩, ?_, hExpands.usedNames_eq_nil,
    ?_, _, hSheet, ?_⟩
  · rintro other ⟨body', hOther, rfl⟩
    rw [hExpands.unique hOther]
  · exact Html.compile_eq_ok_iff.mpr ⟨head, final, hHead, hWalks _, rfl⟩
  · exact Css.compile_eq_ok_iff.mpr ⟨styled, hWalks' _, rfl⟩

/-- A card that is used with a name of its parameters repeated and, once more,
with no arguments. The note in it asks for a name that only the card has, and
the second declaration of the card is never used. -/
def cards : Document where
  head := []
  body := [.div [.useComponent "card" [.string "a", .string "b"]], .useComponent "card" []]
  scripts := []
  components :=
    [⟨"card", [⟨"text", .string⟩, ⟨"text", .string⟩],
      [.useComponent "note" [.operation (.symbol "text") .add (.string "!")], .element .linebreak]⟩,
    ⟨"note", [⟨"own", .string⟩],
      [.element (.paragraph (.operation (.symbol "own") .add (.symbol "text")) []),
        .element (.imported "more")]⟩,
    ⟨"card", [], []⟩]

def cardsPage : Compiled where
  text := "<!DOCTYPE html>\n<html>\n  <head>\n    <link rel=\"stylesheet\" href=\"stylesheet.css\">\n" ++
    "    <script src=\"script.js\"></script>\n  </head>\n  <body>\n    <div>\n      <p>a!</p>\n" ++
    "      <br>\n    </div>\n    <p>!</p>\n    <br>\n  </body>\n</html>\n"
  unsupported := [.imported]

set_option maxRecDepth 4000 in
theorem expansion_of_cards_compiles_alike :
    (Html.compile cards .default).result = .ok cardsPage ∧
      ∃ expanded, cards.IsExpansion expanded ∧
        (∀ other, cards.IsExpansion other → other = expanded) ∧
        usedNames expanded.body = [] ∧
        (Html.compile expanded .default).result = .ok cardsPage ∧
        ∃ sheet, (Css.compile cards .default).result = .ok sheet ∧
          (Css.compile expanded .default).result = .ok sheet := by
  have hPage : (Html.compile cards .default).result = .ok cardsPage := by cbv
  exact ⟨hPage, expansion_compiles_alike hPage⟩

end PageGen
