import PageGen.Instance
import PageGen.Output.Emission

/-! The walk over a body, with every use of a component replaced by the
component's body. It ends for every document: a component that is in use may
not be used again, so each step into a component leaves fewer declarations that
are not yet in use. -/
namespace PageGen

/-- What a target does on the walk. -/
structure Pass (σ α : Type) where
  element : Context → Element → Run Failure (Emission α)
  write : α → σ → Run Failure σ
  openDiv : σ → σ
  closeDiv : σ → σ
  /-- What is logged once the arguments of a component are bound. -/
  inlining : String → Nat → Run Failure Unit

namespace Document

/-- The number of declarations whose name is not in use. -/
def inactive (document : Document) (context : Context) : Nat :=
  document.components.countP fun component => !context.isActive component.name

theorem component?_mem {document : Document} {name : String} {component : Component}
    (hComponent : document.component? name = some component) :
    component ∈ document.components ∧ component.name = name := by
  refine ⟨List.mem_of_find?_eq_some hComponent, ?_⟩
  simpa using List.find?_some hComponent

/-- A use resolves to a component exactly if its name is not in use and this is
its first declaration. -/
theorem resolve_eq_ok_iff {document : Document} {context : Context} {name : String}
    {component : Component} :
    document.resolve context name = .ok component ↔
      context.isActive name = false ∧ document.component? name = some component := by
  unfold resolve
  cases context.isActive name <;> cases document.component? name <;> simp

end Document

theorem Context.isActive_push (context : Context) (frame : Frame) (name : String) :
    (context.push frame).isActive name = (frame.component == name || context.isActive name) := by
  simp [Context.isActive, Context.push]

/-- A declaration that goes into use is no longer among the inactive ones. -/
theorem Document.inactive_push_lt {document : Document} {context : Context} {name : String}
    {component : Component} (hResolve : document.resolve context name = .ok component)
    (bindings : List Binding) :
    document.inactive (context.push ⟨component.name, bindings⟩) < document.inactive context := by
  obtain ⟨hInactive, hFirst⟩ := Document.resolve_eq_ok_iff.1 hResolve
  obtain ⟨hMem, rfl⟩ := Document.component?_mem hFirst
  have hStep : ∀ declarations : List Component,
      (declarations.countP fun c =>
        !(context.push ⟨component.name, bindings⟩).isActive c.name) ≤
          declarations.countP fun c => !context.isActive c.name := by
    intro declarations
    apply List.countP_mono_left
    intro c _ hActive
    simp only [Context.isActive_push, Bool.not_eq_true', Bool.or_eq_false_iff] at hActive ⊢
    simp [hActive.2]
  obtain ⟨before, after, hSplit⟩ := List.append_of_mem hMem
  have hBefore := hStep before
  have hAfter := hStep after
  simp only [Document.inactive, hSplit, List.countP_append, List.countP_cons] at *
  simp only [Context.isActive_push, BEq.rfl, Bool.true_or, Bool.not_true, hInactive,
    Bool.not_false, if_true, Bool.false_eq_true, if_false] at *
  omega

namespace Pass

variable {σ α : Type}

mutual

def walk (pass : Pass σ α) (document : Document) (options : Options) (context : Context)
    (nodes : List Node) (output : Output σ) : Run Failure (Output σ) :=
  match nodes with
  | [] => pure output
  | node :: rest => do
    let next ← walkNode pass document options context node output
    walk pass document options context rest next
termination_by (document.inactive context, sizeOf nodes)

/-- One step of the walk. The frame of a component is on the stack while its
body is walked over, and only then. -/
def walkNode (pass : Pass σ α) (document : Document) (options : Options) (context : Context)
    (node : Node) (output : Output σ) : Run Failure (Output σ) :=
  match node with
  | .element e => output.emit options pass.write (pass.element context e)
  | .div children => do
    let inner ← walk pass document options context children (output.map pass.openDiv)
    pure (inner.map pass.closeDiv)
  | .useComponent name arguments =>
    match _hResolve : document.resolve context name with
    | .error cause => Run.fail cause
    | .ok component => do
      let bindings ← component.bindArguments arguments context
      pass.inlining component.name context.depth
      Run.inFrame ⟨component.name, bindings⟩
        (walk pass document options (context.push ⟨component.name, bindings⟩) component.body
          output)
termination_by (document.inactive context, sizeOf node)
decreasing_by
  · simp_wf
    right
    omega
  · simp_wf
    left
    exact Document.inactive_push_lt _hResolve bindings

end

end Pass

end PageGen
