import PageGen.Proofs.Encounters

/-! Strict against lenient generation. A strict run does what the lenient run does
up to the first unsupported node, and stops there. So it is told from the lenient
run alone what the strict one results in: the same, or a failure over the kind
that the lenient run lists first. -/
namespace PageGen

/-- The strict run results in what the lenient run does, which has then met no
unsupported kind, or it has stopped over one; and if the lenient run gets through
nevertheless, it has listed that kind first. -/
def Run.Refines {ε α : Type} (stops : NodeKind → ε → Prop) (kinds : α → List NodeKind)
    (strict lenient : Run ε α) : Prop :=
  (strict.result = lenient.result ∧ ∀ value, lenient.result = .ok value → kinds value = []) ∨
    ∃ kind cause, stops kind cause ∧ strict.result = .error cause ∧
      ∀ value, lenient.result = .ok value → (kinds value).head? = some kind

/-- The failure over an unsupported kind. -/
def Failure.StopsOver (kind : NodeKind) (cause : Failure) : Prop :=
  cause = .unsupportedFeature kind

/-- The run goes on from kinds whose first stays first. -/
def Run.KeepsFirst {ε α : Type} (before : List NodeKind) (kinds : α → List NodeKind)
    (run : Run ε α) : Prop :=
  ∀ kind value, before.head? = some kind → run.result = .ok value →
    (kinds value).head? = some kind

namespace Run

variable {ε ε' α β : Type} {stops : NodeKind → ε → Prop} {kinds : α → List NodeKind}
  {others : β → List NodeKind} {strict lenient : Run ε α} {before : List NodeKind}

theorem Refines.refl {run : Run ε α} (hKinds : ∀ value, run.result = .ok value → kinds value = []) :
    Refines stops kinds run run :=
  Or.inl ⟨rfl, hKinds⟩

theorem Refines.pure {value : α} (hValue : kinds value = []) :
    Refines stops kinds (Pure.pure value) (Pure.pure value) := by
  apply Refines.refl
  intro other hOther
  obtain rfl := Except.ok.inj hOther
  exact hValue

theorem Refines.inFrame (frame : Frame) (hBody : Refines stops kinds strict lenient) :
    Refines stops kinds (Run.inFrame frame strict) (Run.inFrame frame lenient) := by
  unfold Refines at hBody ⊢
  rwa [result_inFrame, result_inFrame]

/-- Once the strict run has stopped, the lenient one only goes on from what it has
listed. Until then both go on from the same value. -/
theorem Refines.bind {next next' : α → Run ε β} (hFirst : Refines stops kinds strict lenient)
    (hNext : ∀ value, lenient.result = .ok value → kinds value = [] →
      Refines stops others (next value) (next' value))
    (hKeeps : ∀ value, (next' value).KeepsFirst (kinds value) others) :
    Refines stops others (strict >>= next) (lenient >>= next') := by
  rcases hFirst with ⟨hSame, hNone⟩ | ⟨kind, cause, hStops, hStrict, hListed⟩
  · cases hLenient : lenient.result with
    | error cause =>
        left
        rw [result_bind, result_bind, hSame, hLenient]
        exact ⟨rfl, by simp [Except.bind]⟩
    | ok value =>
        have hRest := hNext value hLenient (hNone value hLenient)
        unfold Refines at hRest ⊢
        rwa [result_bind, result_bind, hSame, hLenient]
  · right
    refine ⟨kind, cause, hStops, ?_, ?_⟩
    · rw [result_bind_eq_error_iff]
      exact Or.inl hStrict
    · intro final hFinal
      obtain ⟨value, hValue, hRest⟩ := result_bind_eq_ok_iff.mp hFinal
      exact hKeeps value kind final (hListed value hValue) hRest

/-- A part that both runs have in common lists nothing. -/
theorem Refines.after {next next' : α → Run ε β} (run : Run ε α)
    (hNext : ∀ value, run.result = .ok value → Refines stops others (next value) (next' value)) :
    Refines stops others (run >>= next) (run >>= next') := by
  have hRun : Refines stops (fun _ => []) run run := .refl fun _ _ => rfl
  apply hRun.bind
  · intro value hValue _
    exact hNext value hValue
  · intro value kind final hNone
    cases hNone

theorem Refines.mapFailure {stops' : NodeKind → ε' → Prop} (f : ε → ε')
    (hStops : ∀ kind cause, stops kind cause → stops' kind (f cause))
    (hRun : Refines stops kinds strict lenient) :
    Refines stops' kinds (strict.mapFailure f) (lenient.mapFailure f) := by
  unfold Refines at hRun ⊢
  simp only [result_mapFailure_eq_ok_iff]
  rcases hRun with ⟨hSame, hNone⟩ | ⟨kind, cause, hCause, hStrict, hListed⟩
  · left
    rw [result_mapFailure, result_mapFailure, hSame]
    exact ⟨rfl, hNone⟩
  · right
    exact ⟨kind, f cause, hStops kind cause hCause,
      result_mapFailure_eq_error_iff.mpr ⟨cause, hStrict, rfl⟩, hListed⟩

theorem KeepsFirst.pure {value : α}
    (hValue : ∀ kind, before.head? = some kind → (kinds value).head? = some kind) :
    (Pure.pure value : Run ε α).KeepsFirst before kinds := by
  intro kind other hFirst hOther
  obtain rfl := Except.ok.inj hOther
  exact hValue kind hFirst

theorem KeepsFirst.bind {run : Run ε α} {next : α → Run ε β}
    (hRun : run.KeepsFirst before kinds)
    (hNext : ∀ value, (next value).KeepsFirst (kinds value) others) :
    (run >>= next).KeepsFirst before others := by
  intro kind final hFirst hFinal
  obtain ⟨value, hValue, hRest⟩ := result_bind_eq_ok_iff.mp hFinal
  exact hNext value kind final (hRun kind value hFirst hValue) hRest

/-- A part without kinds of its own keeps whatever the rest keeps. -/
theorem KeepsFirst.after {next : α → Run ε β} (run : Run ε α)
    (hNext : ∀ value, (next value).KeepsFirst before others) :
    (run >>= next).KeepsFirst before others := by
  intro kind final hFirst hFinal
  obtain ⟨value, -, hRest⟩ := result_bind_eq_ok_iff.mp hFinal
  exact hNext value kind final hFirst hRest

end Run

/-- The strict output refines the lenient one. -/
abbrev Output.Refines {σ : Type} (strict lenient : Run Failure (Output σ)) : Prop :=
  Run.Refines Failure.StopsOver Output.unsupported strict lenient

theorem head?_addKind {kinds : List NodeKind} {first : NodeKind}
    (hFirst : kinds.head? = some first) (kind : NodeKind) :
    (addKind kinds kind).head? = some first := by
  unfold addKind
  split
  · exact hFirst
  · rw [List.head?_append, hFirst]
    rfl

variable {σ α : Type} {indent : String} {options : Options}

theorem Output.emit_keepsFirst (write : α → σ → Run Failure σ)
    (emission : Run Failure (Emission α)) (output : Output σ) :
    (output.emit options write emission).KeepsFirst output.unsupported Output.unsupported := by
  intro first final hFirst hEmit
  obtain ⟨outcome, -, -, hRecord⟩ := Output.emit_result_eq_ok_iff.mp hEmit
  rw [recordEmission_result_eq_ok_iff] at hRecord
  cases hKind : outcome.unsupported? with
  | none =>
      rw [hKind] at hRecord
      rw [hRecord]
      exact hFirst
  | some kind =>
      rw [hKind] at hRecord
      rw [hRecord.2]
      exact head?_addKind hFirst kind

theorem Output.emitEach_keepsFirst (write : α → σ → Run Failure σ)
    (emission : Node → Run Failure (Emission α)) (nodes : List Node) (output : Output σ) :
    (output.emitEach options write emission nodes).KeepsFirst output.unsupported
      Output.unsupported := by
  induction nodes generalizing output with
  | nil => exact .pure fun _ hFirst => hFirst
  | cons node rest ih => exact (output.emit_keepsFirst write (emission node)).bind ih

theorem Pass.Modest.walk_keepsFirst {pass : Pass σ α} (hPass : pass.Modest) (document : Document)
    (context : Context) (nodes : List Node) (output : Output σ) :
    (pass.walk document options context nodes output).KeepsFirst output.unsupported
      Output.unsupported := by
  intro first final hFirst hWalk
  have hKeeps : pass.Keeps options fun _ (output : Output σ) =>
      output.unsupported.head? = some first := by
    constructor
    · intro context e seen before after hBefore hEmit
      exact Output.emit_keepsFirst pass.write (pass.element context e) before first after hBefore
        hEmit
    · intro seen before hBefore
      exact hBefore
    · intro seen before hBefore
      exact hBefore
  exact hKeeps.walk hPass context nodes ∅ output final hFirst hWalk

/-- Recording is the one step in which strict and lenient runs differ. -/
theorem recordEmission_refines (outcome : Emission α) :
    Run.Refines Failure.StopsOver id (recordEmission ⟨indent, true⟩ [] outcome)
      (recordEmission ⟨indent, false⟩ [] outcome) := by
  cases outcome with
  | written text => exact .pure rfl
  | skipped => exact .pure rfl
  | unsupported kind =>
      right
      refine ⟨kind, _, rfl, rfl, ?_⟩
      intro kinds hKinds
      obtain rfl := Except.ok.inj hKinds
      rfl

theorem Output.emit_refines (write : α → σ → Run Failure σ) (emission : Run Failure (Emission α))
    {output : Output σ} (hNone : output.unsupported = []) :
    Output.Refines (output.emit ⟨indent, true⟩ write emission)
      (output.emit ⟨indent, false⟩ write emission) := by
  rw [emit_eq, emit_eq, hNone]
  apply Run.Refines.after
  intro outcome _
  apply Run.Refines.after
  intro state _
  apply (recordEmission_refines outcome).bind
  · intro kinds _ hKinds
    exact .pure hKinds
  · intro kinds
    exact .pure fun _ hFirst => hFirst

theorem Output.emitEach_refines (write : α → σ → Run Failure σ)
    (emission : Node → Run Failure (Emission α)) (nodes : List Node) {output : Output σ}
    (hNone : output.unsupported = []) :
    Output.Refines (output.emitEach ⟨indent, true⟩ write emission nodes)
      (output.emitEach ⟨indent, false⟩ write emission nodes) := by
  induction nodes generalizing output with
  | nil => exact .pure hNone
  | cons node rest ih =>
      apply (Output.emit_refines write (emission node) hNone).bind
      · intro next _ hNext
        exact ih hNext
      · intro next
        exact next.emitEach_keepsFirst write emission rest

/-- A strict walk refines the lenient one, through containers and components of
any depth. -/
theorem Pass.Modest.walk_refines {pass : Pass σ α} (hPass : pass.Modest) (document : Document)
    (context : Context) (nodes : List Node) :
    ∀ output : Output σ, output.unsupported = [] →
      Output.Refines (pass.walk document ⟨indent, true⟩ context nodes output)
        (pass.walk document ⟨indent, false⟩ context nodes output) := by
  induction context, nodes using document.walk_induction fun context node =>
    ∀ output : Output σ, output.unsupported = [] →
      Output.Refines (pass.walkNode document ⟨indent, true⟩ context node output)
        (pass.walkNode document ⟨indent, false⟩ context node output) with
  | nil context =>
      intro output hNone
      rw [walk_nil, walk_nil]
      exact .pure hNone
  | cons context node rest ihNode ihRest =>
      intro output hNone
      rw [walk_cons, walk_cons]
      apply (ihNode output hNone).bind
      · intro next _ hNext
        exact ihRest next hNext
      · intro next
        exact hPass.walk_keepsFirst document context rest next
  | element context e output hNone =>
      rw [walkNode_element, walkNode_element]
      exact Output.emit_refines pass.write (pass.element context e) hNone
  | div context children ih output hNone =>
      rw [walkNode_div, walkNode_div]
      apply (ih (output.map pass.openDiv) hNone).bind
      · intro inner _ hInner
        exact .pure hInner
      · intro inner
        exact .pure fun _ hFirst => hFirst
  | useComponent context name arguments ih output hNone =>
      rw [walkNode_useComponent, walkNode_useComponent]
      apply Run.Refines.after
      intro component hResolve
      apply Run.Refines.after
      intro bindings _
      apply Run.Refines.after
      intro _ _
      exact (ih component bindings hResolve output hNone).inFrame _

/-- A strict target refines the lenient one. -/
abbrev Compiled.Refines (strict lenient : Run Failure Compiled) : Prop :=
  Run.Refines Failure.StopsOver Compiled.unsupported strict lenient

variable (indent) (document : Document)

theorem Html.compile_refines :
    Compiled.Refines (compile document ⟨indent, true⟩) (compile document ⟨indent, false⟩) := by
  rw [compile_eq, compile_eq]
  apply Run.Refines.after
  intro _ _
  apply (Output.emitEach_refines (carryOut Writer.call) (headNode Context.empty) document.head
    rfl).bind
  · intro head _ hHead
    apply (pass_modest.walk_refines document Context.empty document.body
      (enterBody head) hHead).bind
    · intro body _ hBody
      apply Run.Refines.after
      intro _ _
      exact .pure hBody
    · intro body
      exact .after _ fun _ => .pure fun _ hFirst => hFirst
  · intro head
    apply Run.KeepsFirst.bind (pass_modest.walk_keepsFirst document Context.empty document.body
      (enterBody head))
    intro body
    exact .after _ fun _ => .pure fun _ hFirst => hFirst

theorem Css.compile_refines :
    Compiled.Refines (compile document ⟨indent, true⟩) (compile document ⟨indent, false⟩) := by
  apply Run.Refines.after
  intro _ _
  apply (pass_modest.walk_refines document Context.empty document.body (start ⟨indent, true⟩)
    rfl).bind
  · intro body _ hBody
    apply Run.Refines.after
    intro _ _
    exact .pure hBody
  · intro body
    exact .after _ fun _ => .pure fun _ hFirst => hFirst

namespace Script

variable {indent}

theorem addFunction_keepsFirst (function : ScriptFunction) (output : Output Writer) :
    (addFunction Writer.call options function output).KeepsFirst output.unsupported
      Output.unsupported := by
  rw [addFunction_eq]
  apply Run.KeepsFirst.after
  intro _
  apply Run.KeepsFirst.bind ((opened function output).emitEach_keepsFirst (carryOut Writer.call)
    statement function.body)
  intro body
  exact .pure fun _ hFirst => hFirst

theorem addMore_keepsFirst (functions : List ScriptFunction) (output : Output Writer) :
    (addMore Writer.call options functions output).KeepsFirst output.unsupported
      Output.unsupported := by
  induction functions generalizing output with
  | nil => exact .pure fun _ hFirst => hFirst
  | cons function rest ih =>
      exact (addFunction_keepsFirst function (output.map fun writer => writer.call .blank)).bind ih

variable {output : Output Writer}

theorem addFunction_refines (function : ScriptFunction) (hNone : output.unsupported = []) :
    Output.Refines (addFunction Writer.call ⟨indent, true⟩ function output)
      (addFunction Writer.call ⟨indent, false⟩ function output) := by
  have hOpened : (opened function output).unsupported = [] := hNone
  rw [addFunction_eq, addFunction_eq]
  apply Run.Refines.after
  intro _ _
  apply (Output.emitEach_refines (carryOut Writer.call) statement function.body hOpened).bind
  · intro body _ hBody
    exact .pure hBody
  · intro body
    exact .pure fun _ hFirst => hFirst

theorem addMore_refines (functions : List ScriptFunction) (hNone : output.unsupported = []) :
    Output.Refines (addMore Writer.call ⟨indent, true⟩ functions output)
      (addMore Writer.call ⟨indent, false⟩ functions output) := by
  induction functions generalizing output with
  | nil => exact .pure hNone
  | cons function rest ih =>
      have hBlank : (output.map fun writer => writer.call .blank).unsupported = [] := hNone
      apply (addFunction_refines function hBlank).bind
      · intro next _ hNext
        exact ih hNext
      · intro next
        exact addMore_keepsFirst rest next

theorem addAll_refines (functions : List ScriptFunction) (hNone : output.unsupported = []) :
    Output.Refines (addAll Writer.call ⟨indent, true⟩ functions output)
      (addAll Writer.call ⟨indent, false⟩ functions output) := by
  cases functions with
  | nil => exact .pure hNone
  | cons function rest =>
      apply (addFunction_refines function hNone).bind
      · intro next _ hNext
        exact addMore_refines rest hNext
      · intro next
        exact addMore_keepsFirst rest next

variable (indent)

theorem compile_refines :
    Compiled.Refines (compile document ⟨indent, true⟩) (compile document ⟨indent, false⟩) := by
  apply Run.Refines.after
  intro _ _
  apply (addAll_refines document.scripts rfl).bind
  · intro output _ hOutput
    apply Run.Refines.after
    intro _ _
    exact .pure hOutput
  · intro output
    exact .after _ fun _ => .pure fun _ hFirst => hFirst

end Script

/-- The failure of a target over an unsupported kind. -/
def TargetFailure.StopsOver (kind : NodeKind) (failure : TargetFailure) : Prop :=
  failure.cause = .unsupportedFeature kind

/-- Merging keeps what is first. -/
theorem head?_foldl_addKind {kinds : List NodeKind} {first : NodeKind}
    (hFirst : kinds.head? = some first) (more : List NodeKind) :
    (more.foldl addKind kinds).head? = some first := by
  induction more generalizing kinds with
  | nil => exact hFirst
  | cons kind rest ih => exact ih (head?_addKind hFirst kind)

/-- The first of the kinds that are merged is listed first. -/
theorem head?_foldl_addKind_nil {kinds : List NodeKind} {first : NodeKind}
    (hFirst : kinds.head? = some first) : (kinds.foldl addKind []).head? = some first := by
  cases kinds with
  | nil => cases hFirst
  | cons kind rest =>
      obtain rfl := Option.some.inj hFirst
      exact head?_foldl_addKind rfl rest

namespace Site

theorem part_refines (target : Target) :
    Run.Refines TargetFailure.StopsOver Compiled.unsupported (part target document ⟨indent, true⟩)
      (part target document ⟨indent, false⟩) := by
  have hCompile : Compiled.Refines (compile target document ⟨indent, true⟩)
      (compile target document ⟨indent, false⟩) := by
    cases target with
    | html => exact Html.compile_refines indent document
    | css => exact Css.compile_refines indent document
    | js => exact Script.compile_refines indent document
  exact hCompile.mapFailure _ fun _ _ hCause => hCause

theorem generate_refines :
    Run.Refines TargetFailure.StopsOver Site.unsupported (generate document ⟨indent, true⟩)
      (generate document ⟨indent, false⟩) := by
  apply Run.Refines.after
  intro _ _
  apply (part_refines indent document .html).bind
  · intro page _ hPage
    apply (part_refines indent document .css).bind
    · intro sheet _ hSheet
      apply (part_refines indent document .js).bind
      · intro script _ hScript
        apply Run.Refines.after
        intro _ _
        exact .pure (by simp [hPage, hSheet, hScript])
      · intro script
        apply Run.KeepsFirst.after
        intro _
        apply Run.KeepsFirst.pure
        intro first hFirst
        rw [hPage, hSheet]
        exact head?_foldl_addKind_nil hFirst
    · intro sheet
      apply Run.KeepsFirst.after
      intro script
      apply Run.KeepsFirst.after
      intro _
      apply Run.KeepsFirst.pure
      intro first hFirst
      apply head?_foldl_addKind_nil
      simp [hPage, List.head?_append, hFirst]
  · intro page
    apply Run.KeepsFirst.after
    intro sheet
    apply Run.KeepsFirst.after
    intro script
    apply Run.KeepsFirst.after
    intro _
    apply Run.KeepsFirst.pure
    intro first hFirst
    apply head?_foldl_addKind_nil
    simp [List.head?_append, hFirst]

/-- Strict generation refines lenient generation. It succeeds exactly if the
lenient one succeeds with nothing unsupported, and then with the same site. Where
the lenient one lists kinds, the strict one fails over the first of them, and where
the lenient one fails, it fails alike or over an unsupported kind. -/
theorem strict_refines_lenient :
    (∀ site, (generate document ⟨indent, true⟩).result = .ok site ↔
      (generate document ⟨indent, false⟩).result = .ok site ∧ site.unsupported = []) ∧
    (∀ site kind rest, (generate document ⟨indent, false⟩).result = .ok site →
      site.unsupported = kind :: rest →
        ∃ target, (generate document ⟨indent, true⟩).result =
          .error ⟨target, .unsupportedFeature kind⟩) ∧
    (∀ failure, (generate document ⟨indent, false⟩).result = .error failure →
      (generate document ⟨indent, true⟩).result = .error failure ∨
        ∃ target kind, (generate document ⟨indent, true⟩).result =
          .error ⟨target, .unsupportedFeature kind⟩) := by
  rcases generate_refines indent document with
    ⟨hSame, hNone⟩ | ⟨kind, ⟨target, cause⟩, rfl, hStrict, hListed⟩
  · rw [hSame]
    refine ⟨?_, ?_, ?_⟩
    · intro site
      exact ⟨fun hSite => ⟨hSite, hNone site hSite⟩, fun hSite => hSite.1⟩
    · intro site kind rest hSite hKinds
      rw [hNone site hSite] at hKinds
      cases hKinds
    · intro failure hFailure
      exact Or.inl hFailure
  · rw [hStrict]
    refine ⟨?_, ?_, ?_⟩
    · intro site
      constructor
      · intro hSite
        cases hSite
      · rintro ⟨hSite, hKinds⟩
        have hFirst := hListed site hSite
        rw [hKinds] at hFirst
        cases hFirst
    · intro site first rest hSite hKinds
      have hFirst := hListed site hSite
      rw [hKinds] at hFirst
      obtain rfl := Option.some.inj hFirst
      exact ⟨target, rfl⟩
    · intro failure _
      exact Or.inr ⟨target, kind, rfl⟩

end Site

end PageGen
