import PageGen.Proofs.Blocks
import PageGen.Proofs.Carrying

/-! The lines of a page and of a script, apart from the text that they make. Either is
made by calls, and here they are carried out on a list of lines in the place of a
writer. The indent has no part in that, and the text of a target is that of its list
of lines. -/
namespace PageGen

theorem Lines.takesAlike_onWriter (indent : String) :
    TakesAlike (onWriter indent "") call Writer.call :=
  fun _ _ => onWriter_call _

theorem Lines.buffer_onWriter (indent : String) (lines : Lines) :
    (lines.onWriter indent "").buffer = lines.text indent :=
  String.empty_append

namespace Html

/-- The page as a list of lines. The indent has no part in it. -/
def lines (document : Document) (failOnUnsupported : Bool) : Run Failure (Output Lines) :=
  pageOn Lines.call document ⟨"", failOnUnsupported⟩ Lines.start

theorem page_eq_lines (document : Document) (options : Options) :
    page document options =
      Output.carry (Lines.onWriter options.indent "") <$>
        lines document options.failOnUnsupported := by
  have hOptions : options.failOnUnsupported =
    (⟨"", options.failOnUnsupported⟩ : Options).failOnUnsupported := rfl
  exact pageOn_carry (Lines.takesAlike_onWriter options.indent) hOptions document Lines.start

/-- The text of a page is that of its lines. -/
theorem compile_result (document : Document) (options : Options) :
    (compile document options).result =
      (lines document options.failOnUnsupported).result.map fun output =>
        ⟨output.state.text options.indent, output.unsupported⟩ := by
  unfold compile
  rw [page_eq_lines, Run.map_eq]
  simp only [Run.result_bind, Run.result_log, Run.result_pure]
  cases (lines document options.failOnUnsupported).result with
  | error cause => rfl
  | ok output => simp only [Except.map, Except.bind, Output.carry, Lines.buffer_onWriter]

end Html

namespace Script

/-- The script as a list of lines. The indent has no part in it. -/
def lines (document : Document) (failOnUnsupported : Bool) : Run Failure (Output Lines) :=
  addAll Lines.call ⟨"", failOnUnsupported⟩ document.scripts ⟨Lines.start, []⟩

/-- The text of a script is that of its lines. -/
theorem compile_result (document : Document) (options : Options) :
    (compile document options).result =
      (lines document options.failOnUnsupported).result.map fun output =>
        ⟨output.state.text options.indent, output.unsupported⟩ := by
  have hAll : addAll Writer.call options document.scripts ⟨Writer.new options.indent, []⟩ =
      Output.carry (Lines.onWriter options.indent "") <$>
        lines document options.failOnUnsupported := by
    have hOptions : options.failOnUnsupported =
      (⟨"", options.failOnUnsupported⟩ : Options).failOnUnsupported := rfl
    exact addAll_carry (Lines.takesAlike_onWriter options.indent) hOptions document.scripts
      ⟨Lines.start, []⟩
  unfold compile
  rw [hAll, Run.map_eq]
  simp only [Run.result_bind, Run.result_log, Run.result_pure]
  cases (lines document options.failOnUnsupported).result with
  | error cause => rfl
  | ok output => simp only [Except.map, Except.bind, Output.carry, Lines.buffer_onWriter]

end Script

end PageGen
