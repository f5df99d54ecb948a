import Mathlib.Data.Set.Insert
import PageGen.Proofs.UseGraph

/-! The elements that a body comes to: those that stand in it, and those in the
bodies of the components that it leads to. They are told by the graph of uses, and
a walk that succeeds has been at each of them and at no other. What it keeps of them
is told by one induction for every target. -/
namespace PageGen

mutual

/-- The elements that stand in a node, at any depth of containers. -/
def Node.elements : Node → List Element
  | .element e => [e]
  | .div children => elementsOf children
  | .useComponent _ _ => []

@[inherit_doc Node.elements]
def elementsOf : List Node → List Element
  | [] => []
  | node :: rest => node.elements ++ elementsOf rest

end

namespace Document

/-- The elements that stand in these nodes, or in the body of a component that
the nodes lead to by uses. -/
def met (document : Document) (nodes : List Node) : Set Element :=
  { e | e ∈ elementsOf nodes ∨ ∃ name component, document.ReachableFrom (usedNames nodes) name ∧
    document.component? name = some component ∧ e ∈ elementsOf component.body }

variable {document : Document} {names names' : List String} {name : String}

theorem reachableFrom_nil : ¬ document.ReachableFrom [] name := by
  rintro ⟨start, hStart, -⟩
  cases hStart

theorem reachableFrom_append :
    document.ReachableFrom (names ++ names') name ↔
      document.ReachableFrom names name ∨ document.ReachableFrom names' name := by
  simp only [ReachableFrom, List.mem_append, or_and_right, exists_or]

/-- From a single name it goes nowhere, or through the body of its component. -/
theorem reachableFrom_singleton {component : Component} {start : String}
    (hComponent : document.component? start = some component) :
    document.ReachableFrom [start] name ↔
      name = start ∨ document.ReachableFrom (usedNames component.body) name := by
  constructor
  · rintro ⟨first, hFirst, hUses⟩
    obtain rfl := List.mem_singleton.mp hFirst
    rcases hUses.cases_head with rfl | ⟨next, ⟨user, hUser, hNext⟩, hRest⟩
    · exact Or.inl rfl
    · obtain rfl := Option.some.inj (hComponent.symm.trans hUser)
      exact Or.inr ⟨next, hNext, hRest⟩
  · rintro (rfl | ⟨next, hNext, hRest⟩)
    · exact ⟨name, by simp, .refl⟩
    · exact ⟨start, by simp, .head ⟨component, hComponent, hNext⟩ hRest⟩

theorem met_nil : document.met [] = ∅ := by
  ext e
  simp [met, elementsOf, usedNames, reachableFrom_nil]

theorem met_cons (node : Node) (rest : List Node) :
    document.met (node :: rest) = document.met [node] ∪ document.met rest := by
  ext e
  simp only [met, elementsOf, usedNames, List.append_nil, List.mem_append, reachableFrom_append,
    Set.mem_union, Set.mem_ofPred_eq, or_and_right, exists_or]
  exact or_or_or_comm

theorem met_element (e : Element) : document.met [.element e] = {e} := by
  ext other
  simp [met, elementsOf, Node.elements, usedNames, Node.uses, reachableFrom_nil]

theorem met_div (children : List Node) : document.met [.div children] = document.met children := by
  ext e
  simp only [met, elementsOf, Node.elements, usedNames, Node.uses, List.append_nil]

/-- A use comes to what the body of its component comes to. -/
theorem met_useComponent {component : Component} (hComponent : document.component? name = some component)
    (arguments : List Expr) :
    document.met [.useComponent name arguments] = document.met component.body := by
  ext e
  simp only [met, elementsOf, Node.elements, usedNames, Node.uses, List.append_nil,
    List.not_mem_nil, false_or, Set.mem_ofPred_eq, reachableFrom_singleton hComponent]
  constructor
  · rintro ⟨used, other, rfl | hReach, hOther, hMem⟩
    · obtain rfl := Option.some.inj (hComponent.symm.trans hOther)
      exact Or.inl hMem
    · exact Or.inr ⟨used, other, hReach, hOther, hMem⟩
  · rintro (hMem | ⟨used, other, hReach, hOther, hMem⟩)
    · exact ⟨name, component, Or.inl rfl, hComponent, hMem⟩
    · exact ⟨used, other, Or.inr hReach, hOther, hMem⟩

end Document

variable {σ α : Type} {pass : Pass σ α} {document : Document} {options : Options}

/-- A target keeps `kept` of the elements that it has met if each element that is
emitted adds itself, and containers make no difference. -/
structure Pass.Keeps (pass : Pass σ α) (options : Options)
    (kept : Set Element → Output σ → Prop) : Prop where
  emit : ∀ {context e seen output final}, kept seen output →
    (output.emit options pass.write (pass.element context e)).result = .ok final →
      kept (seen ∪ {e}) final
  openDiv : ∀ {seen output}, kept seen output → kept seen (output.map pass.openDiv)
  closeDiv : ∀ {seen output}, kept seen output → kept seen (output.map pass.closeDiv)

/-- After a walk that succeeds, all the elements that the nodes come to are kept,
and nothing besides. -/
theorem Pass.Keeps.walk {kept : Set Element → Output σ → Prop} (hKeeps : pass.Keeps options kept)
    (hPass : pass.Modest) (context : Context) (nodes : List Node) :
    ∀ seen output final, kept seen output →
      (pass.walk document options context nodes output).result = .ok final →
        kept (seen ∪ document.met nodes) final := by
  induction context, nodes using document.walk_induction fun context node =>
    ∀ seen output final, kept seen output →
      (pass.walkNode document options context node output).result = .ok final →
        kept (seen ∪ document.met [node]) final with
  | nil context =>
      intro seen output final hOutput hWalk
      rw [walk_nil] at hWalk
      obtain rfl := Except.ok.inj hWalk
      rw [Document.met_nil, Set.union_empty]
      exact hOutput
  | cons context node rest ihNode ihRest =>
      intro seen output final hOutput hWalk
      obtain ⟨next, hNode, hRest⟩ := walk_cons_eq_ok_iff.mp hWalk
      have hNext := ihNode seen output next hOutput hNode
      rw [Document.met_cons, ← Set.union_assoc]
      exact ihRest _ next final hNext hRest
  | element context e seen output final hOutput hWalk =>
      rw [walkNode_element] at hWalk
      rw [Document.met_element]
      exact hKeeps.emit hOutput hWalk
  | div context children ih seen output final hOutput hWalk =>
      obtain ⟨inner, hInner, rfl⟩ := walkNode_div_eq_ok_iff.mp hWalk
      rw [Document.met_div]
      exact hKeeps.closeDiv (ih seen _ inner (hKeeps.openDiv hOutput) hInner)
  | useComponent context name arguments ih seen output final hOutput hWalk =>
      obtain ⟨component, bindings, hResolve, -, hBody⟩ :=
        hPass.walkNode_useComponent_eq_ok_iff.mp hWalk
      obtain ⟨-, hFirst⟩ := Document.resolve_eq_ok_iff.mp hResolve
      rw [Document.met_useComponent hFirst]
      exact ih component bindings hResolve seen output final hOutput hBody

end PageGen
