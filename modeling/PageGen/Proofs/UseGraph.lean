import Mathlib.Data.List.Chain
import Mathlib.Logic.Relation
import PageGen.Proofs.Targets

/-! The graph of component uses. Its nodes are names, each standing for its
first declaration, and the body of the document is its root. The walk fails
over a component exactly along a path of this graph: a missing name is one that
can be reached, and a recursion comes with a path that closes a cycle. A success
has seen every path, so the part that can be reached is closed and acyclic. -/
namespace PageGen

mutual

/-- The names of the components that a node uses, at any depth of containers. -/
def Node.uses : Node → List String
  | .element _ => []
  | .div children => usedNames children
  | .useComponent name _ => [name]

@[inherit_doc Node.uses]
def usedNames : List Node → List String
  | [] => []
  | node :: rest => node.uses ++ usedNames rest

end

namespace Document

/-- The first declaration of `user` uses `used` in its body. -/
def Uses (document : Document) (user used : String) : Prop :=
  ∃ component, document.component? user = some component ∧ used ∈ usedNames component.body

/-- Some of these names leads to `name` by uses. -/
def ReachableFrom (document : Document) (names : List String) (name : String) : Prop :=
  ∃ start ∈ names, Relation.ReflTransGen document.Uses start name

/-- The body of the document leads to `name` by uses. -/
def Reachable (document : Document) (name : String) : Prop :=
  document.ReachableFrom (usedNames document.body) name

/-- A path of the graph that starts at one of these names. -/
structure IsPathFrom (document : Document) (names path : List String) : Prop where
  start : ∀ name ∈ path.head?, name ∈ names
  edges : path.IsChain document.Uses

/-- Every name that can be reached is declared. -/
def Closed (document : Document) : Prop :=
  ∀ name, document.Reachable name → ∃ component, document.component? name = some component

/-- No name that can be reached leads back to itself. -/
def Acyclic (document : Document) : Prop :=
  ∀ name, document.Reachable name → ¬ Relation.TransGen document.Uses name name

/-- What a result of compiling tells about the graph. The call stack of a
recursion is itself the path that closes the cycle. -/
structure ExactComponentErrors (document : Document) {α : Type} (result : Except Failure α) :
    Prop where
  success : ∀ value, result = .ok value → document.Closed ∧ document.Acyclic
  recursive : ∀ name callStack, result = .error (.recursiveComponent name callStack) →
    document.IsPathFrom (usedNames document.body) callStack ∧
      callStack.getLast? = some name ∧ callStack.dropLast.count name = 1 ∧
      callStack.dropLast.Nodup
  notFound : ∀ name, result = .error (.componentNotFound name) →
    document.Reachable name ∧ document.component? name = none
  clean : document.Closed → document.Acyclic →
    (∀ name callStack, result ≠ .error (.recursiveComponent name callStack)) ∧
      ∀ name, result ≠ .error (.componentNotFound name)

variable {document : Document} {names names' path : List String} {name : String}

theorem ReachableFrom.mono (hReach : document.ReachableFrom names name) (hNames : names ⊆ names') :
    document.ReachableFrom names' name := by
  obtain ⟨start, hStart, hUses⟩ := hReach
  exact ⟨start, hNames hStart, hUses⟩

theorem IsPathFrom.mono (hPath : document.IsPathFrom names path) (hNames : names ⊆ names') :
    document.IsPathFrom names' path :=
  ⟨fun first hFirst => hNames (hPath.start first hFirst), hPath.edges⟩

/-- A path through the body of a component is extended to the left by its name. -/
theorem IsPathFrom.cons {component : Component} (hComponent : document.component? name = some component)
    (hPath : document.IsPathFrom (usedNames component.body) path) :
    document.IsPathFrom [name] (name :: path) :=
  ⟨by simp, List.isChain_cons.mpr
    ⟨fun next hNext => ⟨component, hComponent, hPath.start next hNext⟩, hPath.edges⟩⟩

/-- Every name on a path can be reached. -/
theorem IsPathFrom.reachable (hPath : document.IsPathFrom names path) (hMem : name ∈ path) :
    document.ReachableFrom names name := by
  obtain ⟨before, after, rfl⟩ := List.append_of_mem hMem
  have hChain : (before ++ [name]).IsChain document.Uses := by
    have hSplit : ((before ++ [name]) ++ after).IsChain document.Uses := by
      simpa using hPath.edges
    exact hSplit.left_of_append
  have hNonempty : before ++ [name] ≠ [] := by simp
  refine ⟨(before ++ [name]).head hNonempty, hPath.start _ ?_, ?_⟩
  · cases before <;> simp
  · simpa using List.relationReflTransGen_of_exists_isChain _ hChain hNonempty

/-- A name that occurs twice on a path leads back to itself. -/
theorem transGen_of_chain_twice {before after : List String}
    (hChain : (name :: before ++ name :: after).IsChain document.Uses) :
    Relation.TransGen document.Uses name name := by
  have hFirst : ((name :: before) ++ [name]).IsChain document.Uses := by
    have hSplit : (((name :: before) ++ [name]) ++ after).IsChain document.Uses := by
      simpa using hChain
    exact hSplit.left_of_append
  cases before with
  | nil =>
      obtain ⟨hUses, -⟩ := List.isChain_cons_cons.mp hFirst
      exact .single hUses
  | cons next rest =>
      obtain ⟨hUses, hRest⟩ := List.isChain_cons_cons.mp hFirst
      have hBack := List.relationReflTransGen_of_exists_isChain _ hRest (by simp)
      exact .head' hUses (by simpa using hBack)

end Document

end PageGen
