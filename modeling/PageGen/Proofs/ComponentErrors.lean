import Mathlib.Data.List.Nodup
import PageGen.Proofs.UseGraph

/-! Errors over components are exact. A failing walk leaves a path through the
use graph from where it started; a successful one has walked every path. -/
namespace PageGen

variable {σ α : Type} {pass : Pass σ α} {document : Document} {options : Options}
  {context : Context} {names names' : List String} {name : String}

/-- A use fails to resolve for one of two reasons, and recursion is looked for
first. -/
theorem Document.resolve_eq_error_iff {cause : Failure} :
    document.resolve context name = .error cause ↔
      context.isActive name = true ∧
          cause = .recursiveComponent name (context.callStack ++ [name]) ∨
        context.isActive name = false ∧ document.component? name = none ∧
          cause = .componentNotFound name := by
  unfold Document.resolve
  cases context.isActive name <;> cases document.component? name <;> simp [eq_comm]

/-- What a failure over a component tells, if it comes out of nodes that use
these names on this stack. A recursion goes down a path of distinct names, none
of them in use before, and ends with a name that is already in use. -/
def Failure.LiesOnPath (document : Document) (context : Context) (names : List String) :
    Failure → Prop
  | .recursiveComponent name callStack =>
    ∃ path, document.IsPathFrom names (path ++ [name]) ∧
      callStack = context.callStack ++ path ++ [name] ∧ name ∈ context.callStack ++ path ∧
      (context.callStack.Nodup → (context.callStack ++ path).Nodup)
  | .componentNotFound name =>
    document.ReachableFrom names name ∧ document.component? name = none
  | _ => True

theorem Failure.LiesOnPath.mono {cause : Failure} (hCause : cause.LiesOnPath document context names)
    (hNames : names ⊆ names') : cause.LiesOnPath document context names' := by
  cases cause with
  | recursiveComponent name callStack =>
      obtain ⟨path, hPath, hRest⟩ := hCause
      exact ⟨path, hPath.mono hNames, hRest⟩
  | componentNotFound name => exact ⟨hCause.1.mono hNames, hCause.2⟩
  | _ => trivial

theorem Failure.OfElement.liesOnPath {cause : Failure} (hCause : cause.OfElement) :
    cause.LiesOnPath document context names := by
  cases cause with
  | componentNotFound name => exact False.elim hCause
  | recursiveComponent name callStack => exact False.elim hCause
  | _ => trivial

/-- A use that does not resolve is the shortest path. -/
theorem Failure.liesOnPath_of_resolve {cause : Failure}
    (hResolve : document.resolve context name = .error cause) :
    cause.LiesOnPath document context [name] := by
  rcases Document.resolve_eq_error_iff.mp hResolve with ⟨hActive, rfl⟩ | ⟨-, hNone, rfl⟩
  · refine ⟨[], ⟨by simp, by simp⟩, by simp, ?_, by simp⟩
    simpa using Context.isActive_iff_mem.mp hActive
  · exact ⟨⟨name, by simp, .refl⟩, hNone⟩

/-- A failure inside the body of a component lies on a path that goes through
the component. -/
theorem Failure.LiesOnPath.enter {cause : Failure} {component : Component}
    {bindings : List Binding} (hResolve : document.resolve context name = .ok component)
    (hCause : cause.LiesOnPath document (context.push ⟨component.name, bindings⟩)
      (usedNames component.body)) :
    cause.LiesOnPath document context [name] := by
  obtain ⟨hInactive, hFirst⟩ := Document.resolve_eq_ok_iff.mp hResolve
  obtain ⟨-, rfl⟩ := Document.component?_mem hFirst
  cases cause with
  | recursiveComponent again callStack =>
      obtain ⟨path, hPath, hStack, hAgain, hNodup⟩ := hCause
      simp only [Context.callStack_push, List.append_assoc] at hStack hAgain hNodup
      refine ⟨component.name :: path, hPath.cons hFirst, by simpa using hStack,
        by simpa using hAgain, ?_⟩
      -- The name in front is not in use, so that it repeats none of the outer names.
      intro hOuter
      have hFresh := Context.isActive_eq_false_iff.mp hInactive
      refine hNodup (List.nodup_append.mpr ⟨hOuter, by simp, ?_⟩)
      rintro outer hMem again hAgain rfl
      rw [List.mem_singleton.mp hAgain] at hMem
      exact hFresh hMem
  | componentNotFound missing =>
      obtain ⟨⟨start, hStart, hUses⟩, hNone⟩ := hCause
      exact ⟨⟨component.name, by simp, .head ⟨component, hFirst, hStart⟩ hUses⟩, hNone⟩
  | _ => trivial

/-- Whatever a walk fails with, a failure over a component lies on a path that
starts at the nodes walked over. -/
theorem Pass.Modest.walk_liesOnPath (hPass : pass.Modest) (context : Context) (nodes : List Node) :
    ∀ (output : Output σ) (cause : Failure),
      (pass.walk document options context nodes output).result = .error cause →
        cause.LiesOnPath document context (usedNames nodes) := by
  induction context, nodes using document.walk_induction fun context node =>
    ∀ (output : Output σ) (cause : Failure),
      (pass.walkNode document options context node output).result = .error cause →
        cause.LiesOnPath document context node.uses with
  | nil context =>
      intro output cause hWalk
      simp [Pass.walk_nil] at hWalk
  | cons context node rest ihNode ihRest =>
      intro output cause hWalk
      rw [Pass.walk_cons, Run.result_bind_eq_error_iff] at hWalk
      rw [usedNames]
      rcases hWalk with hNode | ⟨next, -, hRest⟩
      · exact (ihNode output cause hNode).mono (List.subset_append_left _ _)
      · exact (ihRest next cause hRest).mono (List.subset_append_right _ _)
  | element context e output cause hWalk =>
      rw [Pass.walkNode_element] at hWalk
      exact ((output.emit_ofElement (hPass.element context e) (hPass.write context)).failed
        cause hWalk).liesOnPath
  | div context children ih output cause hWalk =>
      rw [Pass.walkNode_div, Run.result_bind_eq_error_iff] at hWalk
      rcases hWalk with hInner | ⟨inner, -, hClose⟩
      · exact ih _ cause hInner
      · simp at hClose
  | useComponent context name arguments ih output cause hWalk =>
      rcases hPass.walkNode_useComponent_eq_error_iff.mp hWalk with
        hResolve | ⟨component, hResolve, hBind | ⟨bindings, -, hBody⟩⟩
      · exact Failure.liesOnPath_of_resolve hResolve
      · exact (Component.bindArguments_failure hBind).liesOnPath
      · exact (ih component bindings hResolve output cause hBody).enter hResolve

/-- The walk over these nodes on this stack succeeds from some output on. -/
def Pass.Completes (pass : Pass σ α) (document : Document) (options : Options) (context : Context)
    (nodes : List Node) : Prop :=
  ∃ output final, (pass.walk document options context nodes output).result = .ok final

/-- A successful walk has resolved every name that the nodes use, and has
succeeded on the body that each of them stands for. -/
theorem Pass.Completes.visits (hPass : pass.Modest) (context : Context) (nodes : List Node) :
    pass.Completes document options context nodes → ∀ name ∈ usedNames nodes,
      ∃ component bindings, document.resolve context name = .ok component ∧
        pass.Completes document options (context.push ⟨component.name, bindings⟩)
          component.body := by
  -- A rest starts from the output of what is before it, so the induction is over all outputs.
  rintro ⟨output, final, hWalk⟩
  revert output final
  induction context, nodes using document.walk_induction fun context node =>
    ∀ (output final : Output σ),
      (pass.walkNode document options context node output).result = .ok final →
        ∀ name ∈ node.uses, ∃ component bindings,
          document.resolve context name = .ok component ∧
            pass.Completes document options (context.push ⟨component.name, bindings⟩)
              component.body with
  | nil context =>
      intro output final hWalk name hMem
      cases hMem
  | cons context node rest ihNode ihRest =>
      intro output final hWalk name hMem
      obtain ⟨next, hNode, hRest⟩ := Pass.walk_cons_eq_ok_iff.mp hWalk
      rw [usedNames, List.mem_append] at hMem
      rcases hMem with hHere | hLater
      · exact ihNode output next hNode name hHere
      · exact ihRest next final hRest name hLater
  | element context e output final hWalk name hMem => cases hMem
  | div context children ih output final hWalk name hMem =>
      obtain ⟨inner, hInner, -⟩ := Pass.walkNode_div_eq_ok_iff.mp hWalk
      exact ih _ inner hInner name hMem
  | useComponent context used arguments _ output final hWalk name hMem =>
      obtain ⟨component, bindings, hResolve, -, hBody⟩ :=
        hPass.walkNode_useComponent_eq_ok_iff.mp hWalk
      rw [Node.uses, List.mem_singleton] at hMem
      subst hMem
      exact ⟨component, bindings, hResolve, output, final, hBody⟩

/-- The walk succeeds inside the component of this name, which is in use. -/
def Pass.Inside (pass : Pass σ α) (document : Document) (options : Options) (context : Context)
    (name : String) : Prop :=
  context.isActive name = true ∧ ∃ component, document.component? name = some component ∧
    pass.Completes document options context component.body

/-- From nodes that the walk succeeds on it gets inside every component that
they use, which is not in use before. What is in use stays in use. -/
theorem Pass.Completes.inside {nodes : List Node} (hPass : pass.Modest)
    (hWalk : pass.Completes document options context nodes) (hName : name ∈ usedNames nodes) :
    context.isActive name = false ∧ ∃ inner, pass.Inside document options inner name ∧
      ∀ active, context.isActive active = true → inner.isActive active = true := by
  obtain ⟨component, bindings, hResolve, hBody⟩ := hWalk.visits hPass context nodes name hName
  obtain ⟨hInactive, hFirst⟩ := Document.resolve_eq_ok_iff.mp hResolve
  obtain ⟨-, rfl⟩ := Document.component?_mem hFirst
  refine ⟨hInactive, _, ⟨?_, component, hFirst, hBody⟩, ?_⟩
  · simp [Context.isActive_push]
  · intro active hActive
    simp [Context.isActive_push, hActive]

theorem Pass.Inside.uses {used : String} (hPass : pass.Modest)
    (hInside : pass.Inside document options context name) (hUses : document.Uses name used) :
    context.isActive used = false ∧ ∃ inner, pass.Inside document options inner used ∧
      ∀ active, context.isActive active = true → inner.isActive active = true := by
  obtain ⟨-, component, hComponent, hBody⟩ := hInside
  obtain ⟨user, hUser, hMem⟩ := hUses
  obtain rfl : component = user := Option.some.inj (hComponent.symm.trans hUser)
  exact hBody.inside hPass hMem

/-- The walk gets inside every component that can be reached. -/
theorem Pass.Completes.reaches {nodes : List Node} (hPass : pass.Modest)
    (hWalk : pass.Completes document options context nodes)
    (hReach : document.ReachableFrom (usedNames nodes) name) :
    ∃ inner, pass.Inside document options inner name := by
  obtain ⟨start, hStart, hUses⟩ := hReach
  induction hUses with
  | refl =>
      obtain ⟨-, inner, hInside, -⟩ := hWalk.inside hPass hStart
      exact ⟨inner, hInside⟩
  | tail _ hLast ih =>
      obtain ⟨outer, hOuter⟩ := ih
      obtain ⟨-, inner, hInside, -⟩ := hOuter.uses hPass hLast
      exact ⟨inner, hInside⟩

/-- Nothing that leads out of a component in use is in use, so nothing leads
back to it. -/
theorem Pass.Inside.not_transGen (hPass : pass.Modest)
    (hInside : pass.Inside document options context name) :
    ¬ Relation.TransGen document.Uses name name := by
  -- The name stays in use all the way down, and whatever is met on the way is not.
  have hFar : ∀ used, Relation.TransGen document.Uses name used →
      used ≠ name ∧ ∃ inner, pass.Inside document options inner used ∧
        inner.isActive name = true := by
    intro used hUses
    induction hUses with
    | single hUses =>
        obtain ⟨hInactive, inner, hInner, hKeeps⟩ := hInside.uses hPass hUses
        refine ⟨?_, inner, hInner, hKeeps name hInside.1⟩
        rintro rfl
        simp [hInside.1] at hInactive
    | tail _ hLast ih =>
        obtain ⟨-, outer, hOuter, hActive⟩ := ih
        obtain ⟨hInactive, inner, hInner, hKeeps⟩ := hOuter.uses hPass hLast
        refine ⟨?_, inner, hInner, hKeeps name hActive⟩
        rintro rfl
        simp [hActive] at hInactive
  intro hCycle
  exact (hFar name hCycle).1 rfl

/-- The part of the graph that a successful walk can reach is closed and acyclic. -/
theorem Pass.Completes.closed_acyclic (hPass : pass.Modest)
    (hWalk : pass.Completes document options context document.body) :
    document.Closed ∧ document.Acyclic := by
  constructor
  · intro name hReach
    obtain ⟨inner, -, component, hComponent, -⟩ := hWalk.reaches hPass hReach
    exact ⟨component, hComponent⟩
  · intro name hReach
    obtain ⟨inner, hInside⟩ := hWalk.reaches hPass hReach
    exact hInside.not_transGen hPass

/-- The call stack of a recursion on an empty stack, as a path that closes a cycle. -/
theorem Failure.LiesOnPath.recursive {callStack : List String}
    (hCause : (Failure.recursiveComponent name callStack).LiesOnPath document Context.empty names) :
    document.IsPathFrom names callStack ∧ callStack.getLast? = some name ∧
      callStack.dropLast.count name = 1 ∧ callStack.dropLast.Nodup := by
  obtain ⟨path, hPath, hStack, hAgain, hNodup⟩ := hCause
  simp only [Context.callStack, Context.empty, List.reverse_nil, List.map_nil, List.nil_append]
    at hStack hAgain hNodup
  subst hStack
  have hDistinct := hNodup List.nodup_nil
  refine ⟨hPath, by simp, ?_, by simpa using hDistinct⟩
  rw [List.dropLast_concat]
  exact List.count_eq_one_of_mem hDistinct hAgain

theorem Document.Acyclic.no_recursion {callStack : List String} (hAcyclic : document.Acyclic)
    (hPath : document.IsPathFrom (usedNames document.body) callStack)
    (hLast : callStack.getLast? = some name) : callStack.dropLast.count name ≠ 1 := by
  intro hCount
  have hMem : name ∈ callStack.dropLast := List.count_pos_iff.mp (by omega)
  obtain ⟨before, after, hSplit⟩ := List.append_of_mem hMem
  obtain ⟨start, rfl⟩ := List.getLast?_eq_some_iff.mp hLast
  rw [List.dropLast_concat] at hSplit
  subst hSplit
  have hReach : document.Reachable name := hPath.reachable (by simp)
  have hChain : (name :: after ++ name :: []).IsChain document.Uses := by
    have hWhole := hPath.edges
    rw [List.append_assoc] at hWhole
    exact hWhole.right_of_append
  exact hAcyclic name hReach (Document.transGen_of_chain_twice hChain)

/-- Everything that is claimed of a result follows once each result is known to
come out of the walk over the body. -/
theorem Document.ExactComponentErrors.of_walk {β : Type} {result : Except Failure β}
    (hPass : pass.Modest) (options : Options)
    (hOk : ∀ value, result = .ok value →
      pass.Completes document options Context.empty document.body)
    (hError : ∀ cause, result = .error cause →
      cause.LiesOnPath document Context.empty (usedNames document.body)) :
    document.ExactComponentErrors result where
  success value hResult := (hOk value hResult).closed_acyclic hPass
  recursive name callStack hResult := (hError _ hResult).recursive
  notFound name hResult := hError _ hResult
  clean hClosed hAcyclic := by
    constructor
    · intro name callStack hResult
      obtain ⟨hPath, hLast, hCount, -⟩ := (hError _ hResult).recursive
      exact hAcyclic.no_recursion hPath hLast hCount
    · intro name hResult
      obtain ⟨hReach, hNone⟩ := hError _ hResult
      obtain ⟨component, hComponent⟩ := hClosed name hReach
      rw [hNone] at hComponent
      cases hComponent

/-- Errors over components are exact in the page and in the style sheet. A
document whose part in use is closed and acyclic gets none, however often a
component is used. -/
theorem component_errors_exact (document : Document) (options : Options) :
    document.ExactComponentErrors (Html.compile document options).result ∧
      document.ExactComponentErrors (Css.compile document options).result := by
  constructor
  · refine .of_walk Html.pass_modest options ?_ ?_
    · intro value hResult
      obtain ⟨head, body, -, hBody, -⟩ := Html.compile_eq_ok_iff.mp hResult
      exact ⟨_, body, hBody⟩
    · intro cause hResult
      rcases Html.compile_eq_error_iff.mp hResult with hHead | ⟨head, -, hBody⟩
      · exact (Html.headPart_ofElement.failed cause hHead).liesOnPath
      · exact Html.pass_modest.walk_liesOnPath _ _ _ cause hBody
  · refine .of_walk Css.pass_modest options ?_ ?_
    · intro value hResult
      obtain ⟨body, hBody, -⟩ := Css.compile_eq_ok_iff.mp hResult
      exact ⟨_, body, hBody⟩
    · intro cause hResult
      exact Css.pass_modest.walk_liesOnPath _ _ _ cause (Css.compile_eq_error_iff.mp hResult)

end PageGen
