import PageGen.Proofs.Walk
import PageGen.Site

/-! The page and the style sheet as their walk over the body, with what comes
before and after it. A whole target fails only where one of its parts does. -/
namespace PageGen

namespace Html

/-- The page up to the end of its head. -/
def headPart (document : Document) (options : Options) : Run Failure (Output Writer) :=
  (⟨beforeHead.foldl Writer.call (Writer.new options.indent), []⟩ : Output Writer).emitEach options
    (carryOut Writer.call) (headNode Context.empty) document.head

/-- The page from the end of its head to the start of its body. -/
def enterBody (head : Output Writer) : Output Writer :=
  head.map fun writer => betweenHeadAndBody.foldl Writer.call writer

/-- The page from the end of its body to its own end. -/
def finish (body : Output Writer) : Output Writer :=
  body.map fun writer => afterBody.foldl Writer.call writer

variable {document : Document} {options : Options}

theorem headPart_ofElement : (headPart document options).OfElement Context.empty :=
  Output.emitEach_ofElement (headNode_ofElement Context.empty) (fun _ _ => .pure _) _ _

/-- The page in one piece. -/
theorem compile_eq (document : Document) (options : Options) :
    compile document options = (do
      Run.log (.htmlStarted document.head.length document.body.length)
      let head ← headPart document options
      let body ← pass.walk document options Context.empty document.body
        (enterBody head)
      Run.log (.htmlComplete (finish body).state.buffer.utf8ByteSize)
      pure ⟨(finish body).state.buffer, body.unsupported⟩) := by
  unfold compile page pageOn
  simp only [bind_assoc, pure_bind]
  rfl

theorem compile_eq_ok_iff {compiled : Compiled} :
    (compile document options).result = .ok compiled ↔
      ∃ head body, (headPart document options).result = .ok head ∧
        (pass.walk document options Context.empty document.body
          (enterBody head)).result = .ok body ∧
        compiled = ⟨(finish body).state.buffer, body.unsupported⟩ := by
  rw [compile_eq]
  simp only [Run.result_bind_eq_ok_iff, Run.result_log, Run.result_pure, Except.ok.injEq,
    true_and, exists_const, exists_and_left, eq_comm (a := compiled)]

/-- The page fails with what its head or its body fails with, and nothing fails
outside of them. -/
theorem compile_eq_error_iff {cause : Failure} :
    (compile document options).result = .error cause ↔
      (headPart document options).result = .error cause ∨
        ∃ head, (headPart document options).result = .ok head ∧
          (pass.walk document options Context.empty document.body
            (enterBody head)).result = .error cause := by
  rw [compile_eq]
  simp only [Run.result_bind_eq_error_iff, Run.result_log, Run.result_pure, reduceCtorEq,
    true_and, exists_const, and_false, or_false, false_or, exists_false]

end Html

namespace Css

/-- The style sheet before the body is walked over. -/
def start (options : Options) : Output Sheet := ⟨⟨Writer.new options.indent, []⟩, []⟩

variable {document : Document} {options : Options}

/-- The style sheet in one piece. -/
theorem compile_eq (document : Document) (options : Options) :
    compile document options = (do
      Run.log (.cssStarted document.body.length)
      let body ← pass.walk document options Context.empty document.body (start options)
      Run.log (.cssComplete body.state.selectors.length)
      pure ⟨body.state.writer.buffer, body.unsupported⟩) := rfl

theorem compile_eq_ok_iff {compiled : Compiled} :
    (compile document options).result = .ok compiled ↔
      ∃ body, (pass.walk document options Context.empty document.body (start options)).result =
          .ok body ∧
        compiled = ⟨body.state.writer.buffer, body.unsupported⟩ := by
  unfold compile
  simp only [Run.result_bind_eq_ok_iff, Run.result_log, Run.result_pure, Except.ok.injEq,
    true_and, exists_const, eq_comm (a := compiled)]
  rfl

theorem compile_eq_error_iff {cause : Failure} :
    (compile document options).result = .error cause ↔
      (pass.walk document options Context.empty document.body (start options)).result =
        .error cause := by
  unfold compile
  simp only [Run.result_bind_eq_error_iff, Run.result_log, Run.result_pure, reduceCtorEq,
    true_and, exists_const, and_false, or_false, false_or, exists_false]
  rfl

end Css

/-- The output at the start of the body of a function. -/
def Script.opened (function : ScriptFunction) (output : Output Writer) : Output Writer :=
  output.map fun writer => [.line (header function), .indent].foldl Writer.call writer

theorem Script.addFunction_eq (options : Options) (function : ScriptFunction)
    (output : Output Writer) :
    addFunction Writer.call options function output = (do
      Run.log (.functionStarted function.name function.body.length)
      let body ← (opened function output).emitEach options (carryOut Writer.call) statement
        function.body
      pure (body.map fun writer => [.dedent, .line "\x7d"].foldl Writer.call writer)) := rfl

theorem Script.compile_eq_ok_iff {document : Document} {options : Options} {compiled : Compiled} :
    (compile document options).result = .ok compiled ↔
      ∃ output,
        (addAll Writer.call options document.scripts ⟨Writer.new options.indent, []⟩).result =
          .ok output ∧
        compiled = ⟨output.state.buffer, output.unsupported⟩ := by
  unfold compile
  simp only [Run.result_bind_eq_ok_iff, Run.result_log, Run.result_pure, Except.ok.injEq,
    true_and, exists_const, eq_comm (a := compiled)]

namespace Site

variable {document : Document} {options : Options}

theorem part_eq_ok_iff {target : Target} {compiled : Compiled} :
    (part target document options).result = .ok compiled ↔
      (compile target document options).result = .ok compiled :=
  Run.result_mapFailure_eq_ok_iff

/-- A part names its own target in its failures. -/
theorem part_eq_error_iff {own target : Target} {cause : Failure} :
    (part own document options).result = .error ⟨target, cause⟩ ↔
      (compile own document options).result = .error cause ∧ target = own := by
  rw [part, Run.result_mapFailure_eq_error_iff]
  constructor
  · rintro ⟨original, hError, hFailure⟩
    cases hFailure
    exact ⟨hError, rfl⟩
  · rintro ⟨hError, rfl⟩
    exact ⟨cause, hError, rfl⟩

/-- A site is made of its three targets. The unsupported kinds are listed once
each, in the order of the targets. -/
theorem generate_eq_ok_iff {site : Site} :
    (generate document options).result = .ok site ↔
      ∃ page sheet script, (Html.compile document options).result = .ok page ∧
        (Css.compile document options).result = .ok sheet ∧
        (Script.compile document options).result = .ok script ∧
        site = ⟨page.text, sheet.text, script.text,
          (page.unsupported ++ sheet.unsupported ++ script.unsupported).foldl addKind []⟩ := by
  unfold generate
  simp only [Run.result_bind_eq_ok_iff, Run.result_log, Run.result_pure, Except.ok.injEq,
    part_eq_ok_iff, compile, true_and, exists_const, exists_and_left, eq_comm (a := site)]

/-- The whole fails with what its first failing target fails with, and names
that target. -/
theorem generate_eq_error_iff {target : Target} {cause : Failure} :
    (generate document options).result = .error ⟨target, cause⟩ ↔
      (Html.compile document options).result = .error cause ∧ target = .html ∨
        ∃ page, (Html.compile document options).result = .ok page ∧
          ((Css.compile document options).result = .error cause ∧ target = .css ∨
            ∃ sheet, (Css.compile document options).result = .ok sheet ∧
              (Script.compile document options).result = .error cause ∧ target = .js) := by
  unfold generate
  simp only [Run.result_bind_eq_error_iff, Run.result_log, Run.result_pure, reduceCtorEq,
    part_eq_ok_iff, part_eq_error_iff, compile, true_and, exists_const, and_false, or_false,
    false_or, exists_false]

end Site

end PageGen
