import PageGen.Proofs.Walk
import PageGen.Script

/-! Targets on other forms of their state. A target that writes through a writer does
so by calls, and whatever takes the same calls is written on in the same way. So one
run shows what all the others do. -/
namespace PageGen

/-- The same output with another form of its state. -/
def Output.carry {σ τ : Type} (f : σ → τ) (output : Output σ) : Output τ :=
  ⟨f output.state, output.unsupported⟩

/-- A target on another form of the state, which does what the original does. -/
structure Pass.Carries {σ τ α : Type} (f : σ → τ) (pass : Pass σ α) (image : Pass τ α) : Prop where
  element : image.element = pass.element
  write : ∀ text state, image.write text (f state) = f <$> pass.write text state
  openDiv : ∀ state, image.openDiv (f state) = f (pass.openDiv state)
  closeDiv : ∀ state, image.closeDiv (f state) = f (pass.closeDiv state)
  inlining : image.inlining = pass.inlining

variable {σ τ α : Type} {f : σ → τ} {options options' : Options}

theorem Output.map_carry {step : σ → σ} {step' : τ → τ}
    (hStep : ∀ state, step' (f state) = f (step state)) (output : Output σ) :
    (output.carry f).map step' = (output.map step).carry f := by
  simp only [map, carry, hStep]

/-- Of the options, only the one on unsupported nodes matters to an emission. -/
theorem Output.emit_carry {write : α → σ → Run Failure σ} {write' : α → τ → Run Failure τ}
    (hWrite : ∀ text state, write' text (f state) = f <$> write text state)
    (hOptions : options'.failOnUnsupported = options.failOnUnsupported)
    (emission : Run Failure (Emission α)) (output : Output σ) :
    (output.carry f).emit options' write' emission =
      carry f <$> output.emit options write emission := by
  have hRecord : ∀ kinds (outcome : Emission α),
      recordEmission options' kinds outcome = recordEmission options kinds outcome := by
    intro kinds outcome
    cases outcome <;> simp only [recordEmission, hOptions]
  rw [emit_eq, emit_eq, map_bind]
  congr 1
  funext outcome
  have hState : outcome.writeOn write' (f output.state) =
      f <$> outcome.writeOn write output.state := by
    cases outcome with
    | written text => exact hWrite text output.state
    | skipped => rw [Emission.writeOn, Emission.writeOn, map_pure]
    | unsupported kind => rw [Emission.writeOn, Emission.writeOn, map_pure]
  simp only [carry, hState, hRecord, map_bind, bind_map_left, map_pure]

theorem Output.emitEach_carry {write : α → σ → Run Failure σ} {write' : α → τ → Run Failure τ}
    (hWrite : ∀ text state, write' text (f state) = f <$> write text state)
    (hOptions : options'.failOnUnsupported = options.failOnUnsupported)
    (emission : Node → Run Failure (Emission α)) (nodes : List Node) (output : Output σ) :
    (output.carry f).emitEach options' write' emission nodes =
      carry f <$> output.emitEach options write emission nodes := by
  induction nodes generalizing output with
  | nil => rw [emitEach, emitEach, map_pure]
  | cons node rest ih =>
      simp only [emitEach, emit_carry hWrite hOptions, ih, map_bind, bind_map_left]

/-- A walk does the same on every form of the state. -/
theorem Pass.Carries.walk {pass : Pass σ α} {image : Pass τ α} (hCarries : pass.Carries f image)
    (hOptions : options'.failOnUnsupported = options.failOnUnsupported) {document : Document}
    (context : Context) (nodes : List Node) :
    ∀ output : Output σ, image.walk document options' context nodes (output.carry f) =
      Output.carry f <$> pass.walk document options context nodes output := by
  induction context, nodes using document.walk_induction fun context node =>
    ∀ output : Output σ, image.walkNode document options' context node (output.carry f) =
      Output.carry f <$> pass.walkNode document options context node output with
  | nil context =>
      intro output
      rw [walk_nil, walk_nil, map_pure]
  | cons context node rest ihNode ihRest =>
      intro output
      simp only [walk_cons, ihNode, ihRest, map_bind, bind_map_left]
  | element context e output =>
      rw [walkNode_element, walkNode_element, hCarries.element]
      exact Output.emit_carry hCarries.write hOptions _ output
  | div context children ih output =>
      rw [walkNode_div, walkNode_div, Output.map_carry hCarries.openDiv, ih]
      simp only [map_bind, bind_map_left, map_pure, Output.map_carry hCarries.closeDiv]
  | useComponent context name arguments ih output =>
      rw [walkNode_useComponent, walkNode_useComponent, hCarries.inlining]
      simp only [map_bind]
      -- The induction hypothesis speaks of a component that the use has resolved to.
      cases hResolve : document.resolve context name with
      | error cause => simp only [Run.ofExcept_error, Run.fail_bind]
      | ok component =>
          simp only [Run.ofExcept_ok, pure_bind, ih component _ hResolve, Run.map_inFrame]

/-- What takes a call here is what takes it there, seen through `f`. -/
def TakesAlike (f : σ → τ) (call : σ → Writer.Call → σ) (call' : τ → Writer.Call → τ) : Prop :=
  ∀ state request, call' (f state) request = f (call state request)

section

variable {call : σ → Writer.Call → σ} {call' : τ → Writer.Call → τ}
  (hCall : TakesAlike f call call')
  (hOptions : options'.failOnUnsupported = options.failOnUnsupported)

include hCall

theorem TakesAlike.foldl (calls : List Writer.Call) (state : σ) :
    calls.foldl call' (f state) = f (calls.foldl call state) :=
  List.foldl_hom f hCall

theorem TakesAlike.map (calls : List Writer.Call) (output : Output σ) :
    (output.carry f).map (fun state => calls.foldl call' state) =
      (output.map fun state => calls.foldl call state).carry f :=
  Output.map_carry (hCall.foldl calls) output

theorem TakesAlike.carryOut (calls : List Writer.Call) (state : σ) :
    PageGen.carryOut call' calls (f state) = f <$> PageGen.carryOut call calls state := by
  rw [PageGen.carryOut, PageGen.carryOut, map_pure, hCall.foldl]

theorem Html.passOn_carries : (passOn call).Carries f (passOn call') where
  element := rfl
  write := hCall.carryOut
  openDiv := hCall.foldl _
  closeDiv := hCall.foldl _
  inlining := rfl

include hOptions

/-- A page is made in the same way on every form of the state. -/
theorem Html.pageOn_carry (document : Document) (start : σ) :
    pageOn call' document options' (f start) =
      Output.carry f <$> pageOn call document options start := by
  have hTop : (⟨beforeHead.foldl call' (f start), []⟩ : Output τ) =
      Output.carry f ⟨beforeHead.foldl call start, []⟩ := by
    rw [hCall.foldl, Output.carry]
  unfold pageOn
  simp only [hTop, Output.emitEach_carry hCall.carryOut hOptions, map_bind, bind_map_left,
    hCall.map, (passOn_carries hCall).walk hOptions, map_pure]

namespace Script

theorem addFunction_carry (function : ScriptFunction) (output : Output σ) :
    addFunction call' options' function (output.carry f) =
      Output.carry f <$> addFunction call options function output := by
  unfold addFunction
  simp only [hCall.map, Output.emitEach_carry hCall.carryOut hOptions,
    map_bind, bind_map_left, map_pure]

theorem addMore_carry (functions : List ScriptFunction) (output : Output σ) :
    addMore call' options' functions (output.carry f) =
      Output.carry f <$> addMore call options functions output := by
  induction functions generalizing output with
  | nil => rw [addMore, addMore, map_pure]
  | cons function rest ih =>
      have hBlank : (output.carry f).map (fun state => call' state .blank) =
          (output.map fun state => call state .blank).carry f := hCall.map [.blank] output
      simp only [addMore, hBlank, addFunction_carry hCall hOptions, ih, map_bind,
        bind_map_left]

theorem addAll_carry (functions : List ScriptFunction) (output : Output σ) :
    addAll call' options' functions (output.carry f) =
      Output.carry f <$> addAll call options functions output := by
  cases functions with
  | nil => rw [addAll, addAll, map_pure]
  | cons function rest =>
      simp only [addAll, addFunction_carry hCall hOptions, addMore_carry hCall hOptions, map_bind,
        bind_map_left]

end Script

end

end PageGen
