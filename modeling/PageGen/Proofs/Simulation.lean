import PageGen.Proofs.Targets

/-! One target follows another on the same walk. Where the followed target gets
through, the following one does too: it makes the same uses, binds the same
frames at the same depths in the same order, and meets no other unsupported
kinds. The style sheet follows the page. -/
namespace PageGen

/-- The frame that an event tells to have been bound, with the depth of the
stack that it is to stand on. -/
def Event.boundFrame? : Event → Option (Frame × Nat)
  | .bound frame depth => some (frame, depth)
  | _ => none

/-- The frames that a run binds, in order. -/
def Run.boundFrames {ε α : Type} (run : Run ε α) : List (Frame × Nat) :=
  run.events.filterMap Event.boundFrame?

/-- On every element that `leader` gets through, `follower` gets through as
well, with the same verdict on whether the kind is supported. -/
structure Pass.Follows {σ τ α β : Type} (follower : Pass σ α) (leader : Pass τ β) : Prop where
  element : ∀ context e outcome, (leader.element context e).result = .ok outcome →
    ∃ own, (follower.element context e).result = .ok own ∧
      own.unsupported? = outcome.unsupported?
  write : ∀ text state, ∃ written, (follower.write text state).result = .ok written

variable {σ τ α β ε : Type} {document : Document} {options : Options} {context : Context}

theorem mem_addKind {kinds : List NodeKind} {kind other : NodeKind} :
    other ∈ addKind kinds kind ↔ other ∈ kinds ∨ other = kind := by
  unfold addKind
  split
  · constructor
    · exact Or.inl
    · rintro (hMem | rfl)
      · exact hMem
      · assumption
  · simp

namespace Run

theorem boundFrames_bind {run : Run ε α} {value : α} (hRun : run.result = .ok value)
    (next : α → Run ε β) :
    (run >>= next).boundFrames = run.boundFrames ++ (next value).boundFrames := by
  rw [boundFrames, events_bind_ok hRun, List.filterMap_append]
  rfl

theorem boundFrames_log_bind {event : Event} (hEvent : event.boundFrame? = none)
    (next : Unit → Run ε β) : (log event >>= next).boundFrames = (next ()).boundFrames := by
  have hLog : (log event : Run ε Unit).boundFrames = [] := by
    simp [boundFrames, hEvent]
  rw [boundFrames_bind (result_log event), hLog, List.nil_append]

/-- A run whose events are no bindings binds no frames. -/
theorem boundFrames_eq_nil {run : Run ε α} {logs : Event → Prop} {causes : ε → Prop}
    (hRun : run.Within logs causes) (hLogs : ∀ event, logs event → event.boundFrame? = none) :
    run.boundFrames = [] :=
  List.filterMap_eq_nil_iff.mpr fun event hMem => hLogs event (hRun.logged event hMem)

theorem OfElement.boundFrames {run : Run Failure α} (hRun : run.OfElement context) :
    run.boundFrames = [] := by
  refine boundFrames_eq_nil hRun fun event hEvent => ?_
  cases event <;> first | rfl | exact hEvent.elim

theorem boundFrames_inFrame (frame : Frame) (body : Run ε α) :
    (inFrame frame body).boundFrames = body.boundFrames := by
  simp [boundFrames, List.filterMap_cons, Event.boundFrame?]

end Run

/-- A use binds the frame of its component first, and then those of its body. -/
theorem Pass.Modest.boundFrames_useComponent {pass : Pass σ α} (hPass : pass.Modest)
    {name : String} {arguments : List Expr} {component : Component} {bindings : List Binding}
    (hResolve : document.resolve context name = .ok component)
    (hBind : (component.bindArguments arguments context).result = .ok bindings)
    (output : Output σ) :
    (pass.walkNode document options context (.useComponent name arguments) output).boundFrames =
      (component.bindArguments arguments context).boundFrames ++
        (pass.walk document options (context.push ⟨component.name, bindings⟩) component.body
          output).boundFrames := by
  have hInlining : (pass.inlining component.name context.depth).boundFrames = [] := by
    refine Run.boundFrames_eq_nil (hPass.inlining _ _) ?_
    rintro event rfl
    rfl
  rw [walkNode_useComponent, hResolve, Run.ofExcept_ok, pure_bind, Run.boundFrames_bind hBind,
    Run.boundFrames_bind (hPass.inlining_result _ _), hInlining, Run.boundFrames_inFrame,
    List.nil_append]

namespace Pass.Follows

variable {follower : Pass σ α} {leader : Pass τ β}

/-- The unsupported kinds of the follower stay among those of the leader. -/
theorem emit (hFollows : follower.Follows leader) {e : Element} {first final : Output τ}
    (hLeader : (first.emit options leader.write (leader.element context e)).result = .ok final)
    {own : Output σ} (hKinds : own.unsupported ⊆ first.unsupported) :
    ∃ ownFinal : Output σ,
      (own.emit options follower.write (follower.element context e)).result = .ok ownFinal ∧
        ownFinal.unsupported ⊆ final.unsupported := by
  obtain ⟨outcome, hOutcome, -, hRecord⟩ := Output.emit_result_eq_ok_iff.mp hLeader
  obtain ⟨ownOutcome, hOwn, hSame⟩ := hFollows.element context e outcome hOutcome
  obtain ⟨state, hState⟩ : ∃ state,
      (ownOutcome.writeOn follower.write own.state).result = .ok state := by
    cases ownOutcome with
    | written text => exact hFollows.write text own.state
    | skipped => exact ⟨_, rfl⟩
    | unsupported kind => exact ⟨_, rfl⟩
  rw [recordEmission_result_eq_ok_iff, ← hSame] at hRecord
  cases hKind : ownOutcome.unsupported? with
  | none =>
      rw [hKind] at hRecord
      refine ⟨⟨state, own.unsupported⟩, Output.emit_result_eq_ok_iff.mpr
        ⟨ownOutcome, hOwn, hState, recordEmission_result_eq_ok_iff.mpr ?_⟩, ?_⟩
      · rw [hKind]
      · rw [hRecord]
        exact hKinds
  | some kind =>
      rw [hKind] at hRecord
      obtain ⟨hLenient, hFinal⟩ := hRecord
      refine ⟨⟨state, addKind own.unsupported kind⟩, Output.emit_result_eq_ok_iff.mpr
        ⟨ownOutcome, hOwn, hState, recordEmission_result_eq_ok_iff.mpr ?_⟩, ?_⟩
      · rw [hKind]
        exact ⟨hLenient, rfl⟩
      · rw [hFinal]
        intro other hOther
        rw [mem_addKind] at hOther ⊢
        exact hOther.imp_left fun hMem => hKinds hMem

/-- The follower gets through every walk that the leader gets through, with the
same bindings. Both walks see the same stack, so this goes by the induction that
belongs to neither of them alone. -/
theorem walk (hFollows : follower.Follows leader) (hFollower : follower.Modest)
    (hLeader : leader.Modest) (context : Context) (nodes : List Node) :
    ∀ (first final : Output τ) (own : Output σ),
      (leader.walk document options context nodes first).result = .ok final →
      own.unsupported ⊆ first.unsupported →
        ∃ ownFinal, (follower.walk document options context nodes own).result = .ok ownFinal ∧
          ownFinal.unsupported ⊆ final.unsupported ∧
          (follower.walk document options context nodes own).boundFrames =
            (leader.walk document options context nodes first).boundFrames := by
  induction context, nodes using document.walk_induction fun context node =>
    ∀ (first final : Output τ) (own : Output σ),
      (leader.walkNode document options context node first).result = .ok final →
      own.unsupported ⊆ first.unsupported →
        ∃ ownFinal, (follower.walkNode document options context node own).result = .ok ownFinal ∧
          ownFinal.unsupported ⊆ final.unsupported ∧
          (follower.walkNode document options context node own).boundFrames =
            (leader.walkNode document options context node first).boundFrames with
  | nil context =>
      intro first final own hWalk hKinds
      rw [Pass.walk_nil, Run.result_pure, Except.ok.injEq] at hWalk
      subst hWalk
      rw [Pass.walk_nil, Pass.walk_nil]
      exact ⟨own, rfl, hKinds, rfl⟩
  | cons context node rest ihNode ihRest =>
      intro first final own hWalk hKinds
      obtain ⟨next, hNode, hRest⟩ := Pass.walk_cons_eq_ok_iff.mp hWalk
      obtain ⟨ownNext, hOwnNode, hNextKinds, hNodeFrames⟩ := ihNode first next own hNode hKinds
      obtain ⟨ownFinal, hOwnRest, hFinalKinds, hRestFrames⟩ :=
        ihRest next final ownNext hRest hNextKinds
      refine ⟨ownFinal, Pass.walk_cons_eq_ok_iff.mpr ⟨ownNext, hOwnNode, hOwnRest⟩, hFinalKinds, ?_⟩
      rw [Pass.walk_cons, Pass.walk_cons, Run.boundFrames_bind hOwnNode,
        Run.boundFrames_bind hNode, hNodeFrames, hRestFrames]
  | element context e first final own hWalk hKinds =>
      rw [Pass.walkNode_element] at hWalk
      rw [Pass.walkNode_element, Pass.walkNode_element,
        (own.emit_ofElement (hFollower.element context e) (hFollower.write context)).boundFrames,
        (first.emit_ofElement (hLeader.element context e) (hLeader.write context)).boundFrames]
      obtain ⟨ownFinal, hOwn, hFinalKinds⟩ := hFollows.emit hWalk hKinds
      exact ⟨ownFinal, hOwn, hFinalKinds, rfl⟩
  | div context children ih first final own hWalk hKinds =>
      obtain ⟨inner, hInner, rfl⟩ := Pass.walkNode_div_eq_ok_iff.mp hWalk
      obtain ⟨ownInner, hOwnInner, hInnerKinds, hFrames⟩ :=
        ih (first.map leader.openDiv) inner (own.map follower.openDiv) hInner hKinds
      refine ⟨_, Pass.walkNode_div_eq_ok_iff.mpr ⟨ownInner, hOwnInner, rfl⟩, hInnerKinds, ?_⟩
      rw [Pass.walkNode_div, Pass.walkNode_div, Run.boundFrames_bind hOwnInner,
        Run.boundFrames_bind hInner, hFrames]
      rfl
  | useComponent context name arguments ih first final own hWalk hKinds =>
      obtain ⟨component, bindings, hResolve, hBind, hBody⟩ :=
        hLeader.walkNode_useComponent_eq_ok_iff.mp hWalk
      obtain ⟨ownFinal, hOwnBody, hFinalKinds, hFrames⟩ :=
        ih component bindings hResolve first final own hBody hKinds
      refine ⟨ownFinal, hFollower.walkNode_useComponent_eq_ok_iff.mpr
        ⟨component, bindings, hResolve, hBind, hOwnBody⟩, hFinalKinds, ?_⟩
      rw [hFollower.boundFrames_useComponent hResolve hBind,
        hLeader.boundFrames_useComponent hResolve hBind, hFrames]

end Pass.Follows

theorem Css.addRules_result (rules : List Css.Rule) (sheet : Css.Sheet) :
    ∃ written, (Css.addRules rules sheet).result = .ok written := by
  induction rules generalizing sheet with
  | nil => exact ⟨sheet, rfl⟩
  | cons rule rest ih =>
      rw [Css.addRules]
      split
      · exact ih sheet
      · obtain ⟨written, hRest⟩ := ih (sheet.add rule)
        exact ⟨written, Run.result_bind_eq_ok_iff.mpr ⟨(), rfl, hRest⟩⟩

/-- The kind of an element that no target writes. -/
def Element.unsupported? : Element → Option NodeKind
  | .imported _ => some .imported
  | _ => none

theorem Html.bodyElement_yields (context : Context) (e : Element) :
    (Html.bodyElement context e).Yields fun outcome => outcome.unsupported? = e.unsupported? := by
  cases e with
  | paragraph text styles => exact .bind fun _ => .bind fun _ => .pure rfl
  | button text action arguments =>
      cases action with
      | none => exact .bind fun _ => .pure rfl
      | some action => exact .bind fun _ => .bind fun _ => .pure rfl
  | link url text =>
      cases text with
      | none => exact .bind fun _ => .pure rfl
      | some text => exact .bind fun _ => .bind fun _ => .pure rfl
  | textbox name placeholder label labelAfter =>
      cases label with
      | none => exact .bind fun _ => .pure rfl
      | some label => exact .bind fun _ => .bind fun _ => .pure rfl
  | image path alt styles => exact .bind fun _ => .bind fun _ => .pure rfl
  | heading level text styles => exact .bind fun _ => .bind fun _ => .pure rfl
  | topbar value fixed styles => exact .bind fun _ => .bind fun _ => .pure rfl
  | _ => exact .pure rfl

theorem Css.element_unsupported? (context : Context) (e : Element) :
    ∃ outcome, (Css.element context e).result = .ok outcome ∧
      outcome.unsupported? = e.unsupported? := by
  cases e <;> exact ⟨_, rfl, rfl⟩

/-- The style sheet evaluates nothing, so it follows the page everywhere. -/
theorem Css.follows_html : Css.pass.Follows Html.pass where
  element context e outcome hOutcome := by
    obtain ⟨own, hOwn, hKind⟩ := Css.element_unsupported? context e
    exact ⟨own, hOwn, hKind.trans (Html.bodyElement_yields context e outcome hOutcome).symm⟩
  write := Css.addRules_result

/-- Outside of its walk a page binds nothing. -/
theorem Html.compile_boundFrames {head body : Output Writer}
    (hHead : (Html.headPart document options).result = .ok head)
    (hBody : (Html.pass.walk document options Context.empty document.body
      (Html.enterBody head)).result = .ok body) :
    (Html.compile document options).boundFrames =
      (Html.pass.walk document options Context.empty document.body
        (Html.enterBody head)).boundFrames := by
  rw [Html.compile_eq, Run.boundFrames_log_bind rfl, Run.boundFrames_bind hHead,
    Html.headPart_ofElement.boundFrames, Run.boundFrames_bind hBody, Run.boundFrames_log_bind rfl]
  exact List.append_nil _

theorem Css.compile_boundFrames {body : Output Css.Sheet}
    (hBody : (Css.pass.walk document options Context.empty document.body
      (Css.start options)).result = .ok body) :
    (Css.compile document options).boundFrames =
      (Css.pass.walk document options Context.empty document.body
        (Css.start options)).boundFrames := by
  unfold Css.compile
  rw [Run.boundFrames_log_bind rfl]
  change (Css.pass.walk document options Context.empty document.body (Css.start options) >>=
    _).boundFrames = _
  rw [Run.boundFrames_bind hBody, Run.boundFrames_log_bind rfl]
  exact List.append_nil _

/-- Where there is a page there is a style sheet, which is made out of the same
bindings and leaves out no kind that the page does not leave out. -/
theorem Css.compile_of_html {page : Compiled}
    (hPage : (Html.compile document options).result = .ok page) :
    ∃ sheet, (Css.compile document options).result = .ok sheet ∧
      (Css.compile document options).boundFrames = (Html.compile document options).boundFrames ∧
      sheet.unsupported ⊆ page.unsupported := by
  obtain ⟨head, body, hHead, hBody, rfl⟩ := Html.compile_eq_ok_iff.mp hPage
  obtain ⟨sheet, hSheet, hKinds, hFrames⟩ :=
    Css.follows_html.walk Css.pass_modest Html.pass_modest Context.empty document.body
      (Html.enterBody head) body (Css.start options) hBody (List.nil_subset _)
  refine ⟨_, Css.compile_eq_ok_iff.mpr ⟨sheet, hSheet, rfl⟩, ?_, hKinds⟩
  rw [Css.compile_boundFrames hSheet, Html.compile_boundFrames hHead hBody, hFrames]

/-- The style sheet is simulated by the page. It never fails on its own, so a
generation fails exactly as the page does, or, where there is a page, exactly as
the script does. -/
theorem style_sheet_follows_page (document : Document) (options : Options) :
    (∀ page, (Html.compile document options).result = .ok page →
      ∃ sheet, (Css.compile document options).result = .ok sheet ∧
        (Css.compile document options).boundFrames =
          (Html.compile document options).boundFrames ∧
        ∀ kind ∈ sheet.unsupported, kind ∈ page.unsupported) ∧
    (∀ cause, (Site.generate document options).result ≠ .error ⟨.css, cause⟩) ∧
    (∀ cause, (Site.generate document options).result = .error ⟨.html, cause⟩ ↔
      (Html.compile document options).result = .error cause) ∧
    (∀ cause, (Site.generate document options).result = .error ⟨.js, cause⟩ ↔
      (∃ page, (Html.compile document options).result = .ok page) ∧
        (Script.compile document options).result = .error cause) := by
  refine ⟨?_, ?_, ?_, ?_⟩
  · intro page hPage
    obtain ⟨sheet, hSheet, hFrames, hKinds⟩ := Css.compile_of_html hPage
    exact ⟨sheet, hSheet, hFrames, fun kind hMem => hKinds hMem⟩
  · intro cause hError
    rcases Site.generate_eq_error_iff.mp hError with
      ⟨-, hTarget⟩ | ⟨page, hPage, ⟨hCss, -⟩ | ⟨sheet, -, -, hTarget⟩⟩
    · cases hTarget
    · obtain ⟨sheet, hSheet, -⟩ := Css.compile_of_html hPage
      rw [hCss] at hSheet
      cases hSheet
    · cases hTarget
  · intro cause
    rw [Site.generate_eq_error_iff]
    simp
  · intro cause
    rw [Site.generate_eq_error_iff]
    simp only [reduceCtorEq, and_false, and_true, false_or]
    constructor
    · rintro ⟨page, hPage, sheet, -, hScript⟩
      exact ⟨⟨page, hPage⟩, hScript⟩
    · rintro ⟨⟨page, hPage⟩, hScript⟩
      obtain ⟨sheet, hSheet, -⟩ := Css.compile_of_html hPage
      exact ⟨page, hPage, sheet, hSheet, hScript⟩

end PageGen
