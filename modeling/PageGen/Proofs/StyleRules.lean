import Mathlib
import PageGen.Proofs.Blocks
import PageGen.Proofs.Classes
import PageGen.Proofs.PageReading
import PageGen.Proofs.TargetLines

/-! The rules of a style sheet. A page header asks for those of its classes, and a
sheet takes each of them once, so after any number of headers, in any order, there
are the same rules: those of the classes on the page, in the one order. -/
namespace PageGen

/-- There is a page header among the elements. -/
def HasTopbar (elements : Set Element) : Prop :=
  ∃ value fixed styles, .topbar value fixed styles ∈ elements

/-- There is a page header in a fixed place among the elements. -/
def HasFixedTopbar (elements : Set Element) : Prop :=
  ∃ value styles, .topbar value true styles ∈ elements

variable {elements : Set Element}

theorem HasFixedTopbar.hasTopbar (hFixed : HasFixedTopbar elements) : HasTopbar elements := by
  obtain ⟨value, styles, hMem⟩ := hFixed
  exact ⟨value, true, styles, hMem⟩

theorem hasTopbar_union_singleton {e : Element} :
    HasTopbar (elements ∪ {e}) ↔
      HasTopbar elements ∨ ∃ value fixed styles, e = .topbar value fixed styles := by
  simp only [HasTopbar, Set.mem_union, Set.mem_singleton_iff, exists_or, eq_comm]

theorem hasFixedTopbar_union_singleton {e : Element} :
    HasFixedTopbar (elements ∪ {e}) ↔
      HasFixedTopbar elements ∨ ∃ value styles, e = .topbar value true styles := by
  simp only [HasFixedTopbar, Set.mem_union, Set.mem_singleton_iff, exists_or, eq_comm]

namespace Css

/-- A rule as it stands in a sheet. -/
def Rule.text (indent : String) (rule : Rule) : String := Writer.linesText indent 0 rule.lines

/-- Rules one after another, with an empty line between any two. -/
def rulesText (indent : String) (rules : List Rule) : String :=
  "\n".intercalate (rules.map (Rule.text indent))

/-- The sheet that has these rules, and no others. -/
def Sheet.holding (indent : String) (rules : List Rule) : Sheet :=
  ⟨⟨indent, 0, rulesText indent rules⟩, rules.map Rule.selector⟩

/-- The rules with one more, unless there is one for its selector already. -/
def withRule (rules : List Rule) (rule : Rule) : List Rule :=
  if rule.selector ∈ rules.map Rule.selector then rules else rules ++ [rule]

/-- The rules for a page with a header or without one, in a fixed place or not. -/
def rulesFor (topbar fixed : Bool) : List Rule :=
  (if topbar then topbarRules else []) ++ if fixed then fixedRules else []

variable {indent : String}

theorem Rule.text_ne_empty (rule : Rule) : rule.text indent ≠ "" := by
  intro hEmpty
  have hChars := congrArg String.toList hEmpty
  simp [text, lines, Writer.linesText, Writer.lineText] at hChars

theorem rulesText_concat {rules : List Rule} (hRules : rules ≠ []) (rule : Rule) :
    rulesText indent (rules ++ [rule]) = rulesText indent rules ++ "\n" ++ rule.text indent := by
  have hTexts : rules.map (Rule.text indent) ≠ [] := by simpa using hRules
  rw [rulesText, rulesText, List.map_append,
    String.intercalate_append_of_ne_nil hTexts (by simp)]
  simp

theorem rulesText_ne_empty {rules : List Rule} (hRules : rules ≠ []) :
    rulesText indent rules ≠ "" := by
  cases rules with
  | nil => exact False.elim (hRules rfl)
  | cons rule rest =>
      intro hEmpty
      have hChars := congrArg String.toList hEmpty
      cases rest with
      | nil => exact rule.text_ne_empty (by simpa [rulesText] using hEmpty)
      | cons next others => simp [rulesText] at hChars

theorem Sheet.holding_add (rules : List Rule) (rule : Rule) :
    (holding indent rules).add rule = holding indent (rules ++ [rule]) := by
  have hBlock : ∀ text, rule.calls.foldl Writer.call ⟨indent, 0, text⟩ =
      ⟨indent, 0, text ++ rule.text indent⟩ := by
    intro text
    rw [rule.isBlock_calls.foldl_writer, rule.linesOf_calls]
    rfl
  by_cases hRules : rules = []
  · have hFirst : rulesText indent [rule] = "" ++ rule.text indent := by simp [rulesText]
    simp only [add, holding, hRules, List.nil_append, List.map_cons, List.map_nil, hFirst, ← hBlock]
    rfl
  · have hWritten : (rulesText indent rules).isEmpty = false := by
      simpa using rulesText_ne_empty hRules
    simp only [add, holding, Writer.isEmpty, hWritten, Bool.false_eq_true, if_false, Writer.blank,
      hBlock, rulesText_concat hRules, List.map_append, List.map_cons, List.map_nil]

/-- Of the rules that are added, a sheet takes those that it does not have yet. -/
theorem addRules_holding (added rules : List Rule) :
    (addRules added (Sheet.holding indent rules)).result =
      .ok (Sheet.holding indent (added.foldl withRule rules)) := by
  induction added generalizing rules with
  | nil => rfl
  | cons rule rest ih =>
      by_cases hMem : rule.selector ∈ (Sheet.holding indent rules).selectors
      · have hSame : withRule rules rule = rules := if_pos hMem
        rw [addRules, if_pos hMem, ih, List.foldl_cons, hSame]
      · have hMore : withRule rules rule = rules ++ [rule] := if_neg hMem
        rw [addRules, if_neg hMem, Run.result_bind, Run.result_log, List.foldl_cons, hMore,
          Sheet.holding_add]
        exact ih _

/-- All that a further header does to the rules is to be there, and to be in a fixed
place if it is. -/
theorem foldl_withRule_rulesFor {topbar fixed : Bool} (hFixed : fixed = true → topbar = true)
    (more : Bool) :
    (topbarRules ++ if more then fixedRules else []).foldl withRule (rulesFor topbar fixed) =
      rulesFor true (fixed || more) := by
  cases fixed with
  | true =>
      obtain rfl := hFixed rfl
      cases more <;> rfl
  | false => cases topbar <;> cases more <;> rfl

/-- The sheet holds the rules for these elements. -/
def Holds (indent : String) (elements : Set Element) (sheet : Sheet) : Prop :=
  ∃ topbar fixed : Bool, (topbar = true ↔ HasTopbar elements) ∧
    (fixed = true ↔ HasFixedTopbar elements) ∧
    sheet = Sheet.holding indent (rulesFor topbar fixed)

theorem Holds.topbar {sheet final : Sheet} {value : Expr} {more : Bool}
    {styles : List StyleDeclaration} (hHolds : Holds indent elements sheet)
    (hAdd : (addRules (topbarRules ++ if more then fixedRules else []) sheet).result = .ok final) :
    Holds indent (elements ∪ {.topbar value more styles}) final := by
  obtain ⟨topbar, fixed, hTopbar, hFixed, rfl⟩ := hHolds
  have hImp : fixed = true → topbar = true := by
    rw [hTopbar, hFixed]
    exact HasFixedTopbar.hasTopbar
  rw [addRules_holding, foldl_withRule_rulesFor hImp] at hAdd
  refine ⟨true, fixed || more, ?_, ?_, (Except.ok.inj hAdd).symm⟩
  · rw [hasTopbar_union_singleton]
    simp
  · rw [hasFixedTopbar_union_singleton, Bool.or_eq_true, hFixed]
    simp

end Css

end PageGen
