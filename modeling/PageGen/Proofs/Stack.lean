import Mathlib.Data.List.Dedup
import Mathlib.Data.List.Perm.Subperm
import PageGen.Proofs.Targets

/-! The stack of frames at every point of a compilation, read off its log. A
component is entered only while its name is not in use and only if it is
declared, so the names on the stack stay distinct and declared, and the walk
takes off every frame that it puts on, also where it fails. -/
namespace PageGen

/-- The stack without its innermost frame. -/
def Context.pop (stack : Context) : Context := ⟨stack.frames.tail⟩

/-- The stack after an event. Nothing but entering and leaving changes it. -/
def Context.after (stack : Context) : Event → Context
  | .entered frame => stack.push frame
  | .left => stack.pop
  | _ => stack

/-- The stack after all events of a log. -/
def Context.replay (stack : Context) (events : List Event) : Context :=
  events.foldl Context.after stack

/-- The event fits a stack on which it is logged: a depth that it tells is the
depth of this stack, a symbol that it calls unbound is so in the innermost
frame, and a component that is entered is declared and not in use. -/
def Event.Fits (document : Document) (stack : Context) : Event → Prop
  | .unresolvedSymbol symbol depth => stack.lookup symbol = none ∧ depth = stack.depth
  | .bound _ depth => depth = stack.depth
  | .inlining _ depth => depth = stack.depth
  | .entered frame => stack.isActive frame.component = false ∧
      ∃ component ∈ document.components, component.name = frame.component
  | _ => True

/-- Every event of a log fits the stack that stands when it is logged. -/
def Document.Fits (document : Document) : Context → List Event → Prop
  | _, [] => True
  | stack, event :: rest => event.Fits document stack ∧ document.Fits (stack.after event) rest

/-- The names on a stack are pairwise distinct and declared. -/
structure Document.Disciplined (document : Document) (stack : Context) : Prop where
  distinct : stack.callStack.Nodup
  declared : ∀ name ∈ stack.callStack, ∃ component ∈ document.components, component.name = name

/-- A run that fits the stack from first to last, and leaves it as it was. -/
structure Run.Steady {ε α : Type} (document : Document) (stack : Context) (run : Run ε α) :
    Prop where
  fits : document.Fits stack run.events
  returns : stack.replay run.events = stack

variable {document : Document} {options : Options} {stack : Context} {α β σ : Type} {ε : Type}

@[simp] theorem Context.pop_push (stack : Context) (frame : Frame) :
    (stack.push frame).pop = stack := rfl

theorem Context.replay_append (stack : Context) (first second : List Event) :
    stack.replay (first ++ second) = (stack.replay first).replay second := by
  simp [Context.replay]

theorem Document.fits_append {first second : List Event} :
    document.Fits stack (first ++ second) ↔
      document.Fits stack first ∧ document.Fits (stack.replay first) second := by
  induction first generalizing stack with
  | nil => simp [Document.Fits, Context.replay]
  | cons event rest ih =>
      simp only [List.cons_append, Document.Fits, ih, Context.replay, List.foldl_cons, and_assoc]

namespace Document.Disciplined

theorem empty (document : Document) : document.Disciplined Context.empty := by
  constructor <;> simp [Context.callStack, Context.empty]

/-- One event keeps the discipline. Taking a frame off does so on any stack. -/
theorem after (hStack : document.Disciplined stack) {event : Event}
    (hFits : event.Fits document stack) : document.Disciplined (stack.after event) := by
  cases event with
  | entered frame =>
      obtain ⟨hInactive, hDeclared⟩ := hFits
      have hFresh := Context.isActive_eq_false_iff.mp hInactive
      constructor
      · rw [Context.after, Context.callStack_push]
        exact List.nodup_append_comm.mp (List.nodup_cons.mpr ⟨hFresh, hStack.distinct⟩)
      · intro name hMem
        rw [Context.after, Context.callStack_push, List.mem_append, List.mem_singleton] at hMem
        rcases hMem with hOuter | rfl
        · exact hStack.declared name hOuter
        · exact hDeclared
  | left =>
      have hSub : (stack.after .left).callStack.Sublist stack.callStack :=
        ((List.tail_sublist stack.frames).reverse).map Frame.component
      exact ⟨hStack.distinct.sublist hSub, fun name hMem => hStack.declared name (hSub.subset hMem)⟩
  | _ => exact hStack

/-- The discipline holds at every point of a log that fits. -/
theorem replay (hStack : document.Disciplined stack) {before after : List Event}
    (hFits : document.Fits stack (before ++ after)) :
    document.Disciplined (stack.replay before) := by
  induction before generalizing stack with
  | nil => exact hStack
  | cons event rest ih =>
      obtain ⟨hEvent, hRest⟩ := hFits
      exact ih (hStack.after hEvent) hRest

/-- Distinct declared names cannot be more than the names that are declared. -/
theorem depth_le (hStack : document.Disciplined stack) :
    stack.depth ≤ (document.components.map Component.name).dedup.length := by
  rw [← Context.length_callStack]
  refine (List.subperm_of_subset hStack.distinct ?_).length_le
  intro name hMem
  obtain ⟨component, hComponent, rfl⟩ := hStack.declared name hMem
  exact List.mem_dedup.mpr (List.mem_map_of_mem hComponent)

end Document.Disciplined

namespace Run.Steady

variable {run : Run ε α}

theorem pure (value : α) : (Pure.pure value : Run ε α).Steady document stack := ⟨trivial, rfl⟩

theorem log {event : Event} (hFits : event.Fits document stack)
    (hStack : stack.after event = stack) : (Run.log event : Run ε Unit).Steady document stack :=
  ⟨⟨hFits, trivial⟩, hStack⟩

theorem ofExcept (result : Except ε α) : (Run.ofExcept result).Steady document stack :=
  ⟨trivial, rfl⟩

/-- A run after which another follows may leave no frame behind, so that the
other starts on the same stack. -/
theorem bind {next : α → Run ε β} (hRun : run.Steady document stack)
    (hNext : ∀ value, run.result = .ok value → (next value).Steady document stack) :
    (run >>= next).Steady document stack := by
  cases h : run.result with
  | ok value =>
      have hRest := hNext value h
      constructor
      · rw [events_bind_ok h, Document.fits_append, hRun.returns]
        exact ⟨hRun.fits, hRest.fits⟩
      · rw [events_bind_ok h, Context.replay_append, hRun.returns, hRest.returns]
  | error cause =>
      constructor
      · rw [events_bind_error h]
        exact hRun.fits
      · rw [events_bind_error h]
        exact hRun.returns

/-- Events that leave the stack alone and fit it one by one are steady together. -/
theorem of_within {causes : ε → Prop}
    (hRun : run.Within (fun event => event.Fits document stack ∧ stack.after event = stack)
      causes) : run.Steady document stack := by
  have hEvents : ∀ events : List Event,
      (∀ event ∈ events, event.Fits document stack ∧ stack.after event = stack) →
        document.Fits stack events ∧ stack.replay events = stack := by
    intro events hAll
    induction events with
    | nil => exact ⟨trivial, rfl⟩
    | cons event rest ih =>
        obtain ⟨hFits, hSame⟩ := hAll event (by simp)
        obtain ⟨hRest, hReplay⟩ := ih fun later hLater => hAll later (by simp [hLater])
        constructor
        · rw [Document.Fits, hSame]
          exact ⟨hFits, hRest⟩
        · rw [Context.replay, List.foldl_cons, hSame]
          exact hReplay
  obtain ⟨hFits, hReplay⟩ := hEvents run.events hRun.logged
  exact ⟨hFits, hReplay⟩

theorem of_ofElement {run : Run Failure α} (hRun : run.OfElement stack) :
    run.Steady document stack := by
  refine of_within (hRun.mono (fun event hEvent => ?_) fun _ hCause => hCause)
  cases event <;> first | exact ⟨hEvent, rfl⟩ | exact ⟨trivial, rfl⟩ | exact hEvent.elim

/-- A run in a frame enters and leaves, whatever it ends with. -/
theorem inFrame {frame : Frame} (hInactive : stack.isActive frame.component = false)
    (hDeclared : ∃ component ∈ document.components, component.name = frame.component)
    (hBody : run.Steady document (stack.push frame)) :
    (Run.inFrame frame run).Steady document stack := by
  constructor
  · rw [events_inFrame, Document.Fits, Document.fits_append]
    exact ⟨⟨hInactive, hDeclared⟩, hBody.fits, trivial, trivial⟩
  · rw [events_inFrame, Context.replay, List.foldl_cons, ← Context.replay, Context.replay_append,
      Context.after, hBody.returns]
    rfl

end Run.Steady

theorem Component.bindArguments_steady (component : Component) (arguments : List Expr)
    (stack : Context) : (component.bindArguments arguments stack).Steady document stack := by
  have hBindings : ∀ parameters, (bindParameters stack parameters arguments >>= fun bindings =>
      Run.log (.bound ⟨component.name, bindings⟩ stack.depth) >>= fun _ =>
        Pure.pure bindings : Run Failure (List Binding)).Steady document stack := fun parameters =>
    .bind (.of_ofElement (bindParameters_ofElement stack parameters arguments)) fun _ _ =>
      .bind (.log rfl rfl) fun _ _ => .pure _
  unfold Component.bindArguments
  split
  · exact .bind (.log trivial rfl) fun _ _ => hBindings _
  · exact hBindings _

/-- The walk fits its stack at every point, and the stack is what it was at the
call once the walk is over, however it ends. -/
theorem Pass.Modest.walk_steady {pass : Pass σ α} (hPass : pass.Modest) (stack : Context)
    (nodes : List Node) :
    ∀ output, (pass.walk document options stack nodes output).Steady document stack := by
  induction stack, nodes using document.walk_induction fun stack node =>
    ∀ output, (pass.walkNode document options stack node output).Steady document stack with
  | nil stack =>
      intro output
      rw [Pass.walk_nil]
      exact .pure _
  | cons stack node rest ihNode ihRest =>
      intro output
      rw [Pass.walk_cons]
      exact .bind (ihNode output) fun next _ => ihRest next
  | element stack e output =>
      rw [Pass.walkNode_element]
      exact .of_ofElement (output.emit_ofElement (hPass.element stack e) (hPass.write stack))
  | div stack children ih output =>
      rw [Pass.walkNode_div]
      exact .bind (ih _) fun _ _ => .pure _
  | useComponent stack name arguments ih output =>
      rw [Pass.walkNode_useComponent]
      refine .bind (.ofExcept _) fun component hResolve =>
        .bind (component.bindArguments_steady arguments stack) fun bindings _ =>
          .bind (.of_within ((hPass.inlining _ _).mono ?_ fun _ hCause => hCause)) fun _ _ => ?_
      · rintro event rfl
        exact ⟨rfl, rfl⟩
      · obtain ⟨hInactive, hFirst⟩ := Document.resolve_eq_ok_iff.mp hResolve
        obtain ⟨hMem, rfl⟩ := Document.component?_mem hFirst
        exact .inFrame hInactive ⟨component, hMem, rfl⟩ (ih component bindings hResolve output)

theorem Html.compile_steady : (Html.compile document options).Steady document Context.empty := by
  refine .bind (.log trivial rfl) fun _ _ => .bind ?_ fun _ _ =>
    .bind (.log trivial rfl) fun _ _ => .pure _
  exact .bind (.of_ofElement Html.headPart_ofElement) fun head _ =>
    .bind (Html.pass_modest.walk_steady _ _ _) fun _ _ => .pure _

theorem Css.compile_steady : (Css.compile document options).Steady document Context.empty :=
  .bind (.log trivial rfl) fun _ _ => .bind (Css.pass_modest.walk_steady _ _ _) fun _ _ =>
    .bind (.log trivial rfl) fun _ _ => .pure _

end PageGen
