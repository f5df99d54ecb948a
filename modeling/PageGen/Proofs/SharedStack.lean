import PageGen.Proofs.Stack

/-! The walk on one stack that is changed in place. A frame is pushed before the
body of a component and the innermost frame is popped after it, whatever the
body has ended with; nothing hands an old stack back. Recursion is bounded by
fuel only, so that it has to be proved, and is not built in, that every call
finishes, on documents with cycles too, and that the stack is restored. -/
namespace PageGen

/-- A computation on the shared stack. From the stack that it finds it makes a
run and leaves a stack; it makes nothing where its fuel does not suffice. -/
def OnStack (α : Type) : Type := Context → Option (Run Failure α × Context)

namespace OnStack

variable {α β σ : Type}

/-- Makes a run without touching the stack. -/
def lift (run : Run Failure α) : OnStack α := fun stack => some (run, stack)

/-- The stack as it is now. -/
def current : OnStack Context := fun stack => some (pure stack, stack)

/-- There is no fuel left. -/
def exhausted : OnStack α := fun _ => none

/-- The second part starts on the stack that the first has left. After a
failure it does not start at all. -/
def bind (first : OnStack α) (next : α → OnStack β) : OnStack β := fun stack =>
  match first stack with
  | none => none
  | some (run, left) =>
    match run.result with
    | .error cause => some (⟨run.events, .error cause⟩, left)
    | .ok value => (next value left).map fun (rest, last) =>
        (⟨run.events ++ rest.events, rest.result⟩, last)

instance : Monad OnStack where
  pure value := lift (pure value)
  bind := bind

/-- Pushes a frame, runs the body, and pops one frame, also after a failure. -/
def inFrame (frame : Frame) (body : OnStack α) : OnStack α := fun stack =>
  (body (stack.push frame)).map fun (run, left) => (Run.inFrame frame run, left.pop)

/-- One node, where `inner` walks over the nodes inside it. -/
def node (pass : Pass σ α) (document : Document) (options : Options)
    (inner : List Node → Output σ → OnStack (Output σ)) (output : Output σ) :
    Node → OnStack (Output σ)
  | .element e => do
    let stack ← current
    lift (output.emit options pass.write (pass.element stack e))
  | .div children => do
    let after ← inner children (output.map pass.openDiv)
    pure (after.map pass.closeDiv)
  | .useComponent name arguments => do
    let stack ← current
    let component ← lift (Run.ofExcept (document.resolve stack name))
    let bindings ← lift (component.bindArguments arguments stack)
    lift (pass.inlining component.name stack.depth)
    inFrame ⟨component.name, bindings⟩ (inner component.body output)

/-- The walk over nodes on the shared stack. Every call gives one unit of fuel
less to the calls that it makes. -/
def walk (pass : Pass σ α) (document : Document) (options : Options) :
    Nat → List Node → Output σ → OnStack (Output σ)
  | 0, _, _ => exhausted
  | _ + 1, [], output => pure output
  | fuel + 1, first :: rest, output => do
    let next ← node pass document options (walk pass document options fuel) output first
    walk pass document options fuel rest next

/-- On this stack the computation makes this run and leaves the stack as it
was. Where `total` is not asked for, it may also run out of fuel. -/
def Makes (total : Prop) (computation : OnStack α) (stack : Context) (run : Run Failure α) :
    Prop :=
  computation stack = some (run, stack) ∨ ¬ total ∧ computation stack = none

variable {total : Prop} {stack : Context} {first : OnStack α} {next : α → OnStack β}
  {run : Run Failure α} {rest : α → Run Failure β}

theorem makes_lift (run : Run Failure α) : Makes total (lift run) stack run := Or.inl rfl

theorem makes_exhausted (hTotal : ¬ total) : Makes total exhausted stack run :=
  Or.inr ⟨hTotal, rfl⟩

theorem Makes.bind (hFirst : Makes total first stack run)
    (hNext : ∀ value, run.result = .ok value → Makes total (next value) stack (rest value)) :
    Makes total (first >>= next) stack (run >>= rest) := by
  change Makes total (OnStack.bind first next) stack (Run.bind run rest)
  unfold Makes OnStack.bind Run.bind
  rcases hFirst with hFirst | ⟨hTotal, hFirst⟩
  · rw [hFirst]
    cases h : run.result with
    | error cause => simp [h]
    | ok value =>
        rcases hNext value h with hRest | ⟨hTotal, hRest⟩
        · simp [h, hRest]
        · simp [h, hRest, hTotal]
  · simp [hFirst, hTotal]

/-- Reading the stack gives the stack that is there. -/
theorem Makes.current {next : Context → OnStack α} (hNext : Makes total (next stack) stack run) :
    Makes total (current >>= next) stack run := by
  rw [← pure_bind (m := Run Failure) stack fun _ => run]
  refine Makes.bind (Or.inl rfl) fun now hNow => ?_
  obtain rfl : stack = now := Except.ok.inj hNow
  exact hNext

/-- Popping gives back the stack below the frame, since the body has left its
own stack as it was. -/
theorem Makes.inFrame {frame : Frame} (hBody : Makes total first (stack.push frame) run) :
    Makes total (inFrame frame first) stack (Run.inFrame frame run) := by
  unfold Makes OnStack.inFrame
  rcases hBody with hBody | ⟨hTotal, hBody⟩
  · simp [hBody]
  · simp [hBody, hTotal]

variable {pass : Pass σ α} {document : Document} {options : Options}

theorem makes_element (inner : List Node → Output σ → OnStack (Output σ)) (output : Output σ)
    (e : Element) :
    Makes total (node pass document options inner output (.element e)) stack
      (pass.walkNode document options stack (.element e) output) := by
  rw [Pass.walkNode_element]
  exact Makes.current (makes_lift _)

theorem makes_div {inner : List Node → Output σ → OnStack (Output σ)} {output : Output σ}
    {children : List Node}
    (hInner : Makes total (inner children (output.map pass.openDiv)) stack
      (pass.walk document options stack children (output.map pass.openDiv))) :
    Makes total (node pass document options inner output (.div children)) stack
      (pass.walkNode document options stack (.div children) output) := by
  rw [Pass.walkNode_div]
  exact hInner.bind fun after _ => makes_lift _

/-- A use does what the walk does if this is so of the one body that it gets to. -/
theorem makes_useComponent {inner : List Node → Output σ → OnStack (Output σ)}
    {output : Output σ} {name : String} {arguments : List Expr}
    (hInner : ∀ component bindings, document.resolve stack name = .ok component →
      (component.bindArguments arguments stack).result = .ok bindings →
        Makes total (inner component.body output) (stack.push ⟨component.name, bindings⟩)
          (pass.walk document options (stack.push ⟨component.name, bindings⟩) component.body
            output)) :
    Makes total (node pass document options inner output (.useComponent name arguments)) stack
      (pass.walkNode document options stack (.useComponent name arguments) output) := by
  rw [Pass.walkNode_useComponent]
  refine Makes.current ?_
  exact (makes_lift _).bind fun component hResolve => (makes_lift _).bind fun bindings hBind =>
    (makes_lift _).bind fun _ _ => (hInner component bindings hResolve hBind).inFrame

/-- However much fuel there is, a walk that finishes has made the run of the
walk proper, and has restored the stack. -/
theorem makes_walk (pass : Pass σ α) (document : Document) (options : Options) (fuel : Nat)
    (nodes : List Node) (output : Output σ) (stack : Context) :
    Makes False (walk pass document options fuel nodes output) stack
      (pass.walk document options stack nodes output) := by
  induction fuel generalizing nodes output stack with
  | zero => exact makes_exhausted not_false
  | succ fuel ih =>
      cases nodes with
      | nil =>
          rw [Pass.walk_nil]
          exact makes_lift _
      | cons first rest =>
          rw [Pass.walk_cons]
          refine Makes.bind ?_ fun next _ => ih rest next stack
          cases first with
          | element e => exact makes_element _ output e
          | div children => exact makes_div (ih children _ stack)
          | useComponent name arguments =>
              exact makes_useComponent fun component bindings _ _ => ih component.body output _

/-- Every call finishes once there is enough fuel, on whatever stack and in
whatever document. How much is enough does not depend on the output. -/
theorem exists_fuel (pass : Pass σ α) (document : Document) (options : Options) (stack : Context)
    (nodes : List Node) :
    ∃ bound, ∀ fuel, bound ≤ fuel → ∀ output,
      Makes True (walk pass document options fuel nodes output) stack
        (pass.walk document options stack nodes output) := by
  induction stack, nodes using document.walk_induction fun stack single =>
    ∃ bound, ∀ fuel, bound ≤ fuel → ∀ output,
      Makes True (node pass document options (walk pass document options fuel) output single)
        stack (pass.walkNode document options stack single output) with
  | nil stack =>
      refine ⟨1, fun fuel hFuel output => ?_⟩
      obtain ⟨fuel, rfl⟩ := Nat.exists_eq_add_of_le' hFuel
      rw [Pass.walk_nil]
      exact makes_lift _
  | cons stack first rest ihFirst ihRest =>
      obtain ⟨forFirst, hFirst⟩ := ihFirst
      obtain ⟨forRest, hRest⟩ := ihRest
      refine ⟨max forFirst forRest + 1, fun fuel hFuel output => ?_⟩
      obtain ⟨fuel, rfl⟩ := Nat.exists_eq_add_of_le' (Nat.le_of_add_left_le hFuel)
      rw [Pass.walk_cons]
      exact (hFirst fuel (by omega) output).bind fun next _ => hRest fuel (by omega) next
  | element stack e => exact ⟨0, fun fuel _ output => makes_element _ output e⟩
  | div stack children ih =>
      obtain ⟨bound, hInner⟩ := ih
      exact ⟨bound, fun fuel hFuel output => makes_div (hInner fuel hFuel _)⟩
  | useComponent stack name arguments ih =>
      -- The bound is that of the one body a use can get to, if it gets to any.
      cases hResolve : document.resolve stack name with
      | error cause =>
          refine ⟨0, fun fuel _ output => makes_useComponent fun component _ hOther _ => ?_⟩
          simp [hResolve] at hOther
      | ok component =>
          cases hBind : (component.bindArguments arguments stack).result with
          | error cause =>
              refine ⟨0, fun fuel _ output => makes_useComponent fun other _ hOther hBound => ?_⟩
              obtain rfl : component = other := Except.ok.inj (hResolve.symm.trans hOther)
              simp [hBind] at hBound
          | ok bindings =>
              obtain ⟨bound, hBody⟩ := ih component bindings hResolve
              refine ⟨bound, fun fuel hFuel output =>
                makes_useComponent fun other found hOther hBound => ?_⟩
              obtain rfl : component = other := Except.ok.inj (hResolve.symm.trans hOther)
              obtain rfl : bindings = found := Except.ok.inj (hBind.symm.trans hBound)
              exact hBody fuel hFuel output

end OnStack

/-- What inlining does with the stack, where `compiled` is the whole run of a
target. Every call of the walk on the shared stack finishes, and one that
finishes, with a result or a failure, has made the run of the walk proper and
has left every frame as it was. At every point of the whole run the names on the
stack are distinct and declared, so it is never deeper than there are such
names; and the log tells the stack truly, down to the empty one at the end. -/
structure StackDiscipline {σ α : Type} (pass : Pass σ α) (document : Document)
    (options : Options) (compiled : Run Failure Compiled) : Prop where
  terminates : ∀ stack nodes, ∃ bound, ∀ fuel, bound ≤ fuel → ∀ output,
    OnStack.walk pass document options fuel nodes output stack =
      some (pass.walk document options stack nodes output, stack)
  restores : ∀ fuel stack nodes output run left,
    OnStack.walk pass document options fuel nodes output stack = some (run, left) →
      run = pass.walk document options stack nodes output ∧ left = stack
  disciplined : ∀ before after, compiled.events = before ++ after →
    document.Disciplined (Context.empty.replay before) ∧
      (Context.empty.replay before).depth ≤ (document.components.map Component.name).dedup.length
  truthful : document.Fits Context.empty compiled.events ∧
    Context.empty.replay compiled.events = Context.empty

variable {σ α : Type} {document : Document} {options : Options}

theorem Run.Steady.stackDiscipline {compiled : Run Failure Compiled}
    (hCompiled : compiled.Steady document Context.empty) (pass : Pass σ α) :
    StackDiscipline pass document options compiled where
  terminates stack nodes := by
    obtain ⟨bound, hFuel⟩ := OnStack.exists_fuel pass document options stack nodes
    refine ⟨bound, fun fuel hBound output => ?_⟩
    rcases hFuel fuel hBound output with hSome | ⟨hTotal, -⟩
    · exact hSome
    · exact False.elim (hTotal trivial)
  restores fuel stack nodes output run left hWalk := by
    rcases OnStack.makes_walk pass document options fuel nodes output stack with
      hSome | ⟨-, hNone⟩
    · rw [hSome, Option.some.injEq, Prod.mk.injEq] at hWalk
      exact ⟨hWalk.1.symm, hWalk.2.symm⟩
    · rw [hNone] at hWalk
      cases hWalk
  disciplined before after hEvents := by
    have hFits := hCompiled.fits
    rw [hEvents] at hFits
    have hStack := (Document.Disciplined.empty document).replay hFits
    exact ⟨hStack, hStack.depth_le⟩
  truthful := ⟨hCompiled.fits, hCompiled.returns⟩

/-- Inlining always ends and keeps the stack disciplined, for the page and for
the style sheet and in every document: components may use each other in cycles,
be used without a declaration, or be declared twice. -/
theorem stack_discipline (document : Document) (options : Options) :
    StackDiscipline Html.pass document options (Html.compile document options) ∧
      StackDiscipline Css.pass document options (Css.compile document options) :=
  ⟨Html.compile_steady.stackDiscipline _, Css.compile_steady.stackDiscipline _⟩

end PageGen
