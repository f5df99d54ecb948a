import Mathlib.Data.List.Forall2
import PageGen.Proofs.Calls
import PageGen.Proofs.TargetLines

/-! The lines of a script. They are one block for each script function, with an
empty line between two blocks. No message can forge a line, since the line feeds
in it are escaped, so between the line feeds of the script these lines are found
again. -/
namespace PageGen

theorem intercalate_cons_eq_flatMap {α : Type} (separator first : List α) (rest : List (List α)) :
    separator.intercalate (first :: rest) = first ++ rest.flatMap (separator ++ ·) := by
  induction rest generalizing first with
  | nil => simp
  | cons next others ih =>
      rw [List.intercalate_cons_cons, ih next, List.flatMap_cons, List.append_assoc,
        List.append_assoc]

theorem mem_intercalate {α : Type} {separator : List α} {pieces : List (List α)} {item : α}
    (hItem : item ∈ separator.intercalate pieces) :
    item ∈ separator ∨ ∃ piece ∈ pieces, item ∈ piece := by
  cases pieces with
  | nil => cases hItem
  | cons first rest =>
      simp only [intercalate_cons_eq_flatMap, List.mem_append, List.mem_flatMap] at hItem
      rcases hItem with hFirst | ⟨piece, hPiece, hSeparator | hMem⟩
      · exact .inr ⟨first, List.mem_cons_self, hFirst⟩
      · exact .inl hSeparator
      · exact .inr ⟨piece, List.mem_cons_of_mem _ hPiece, hMem⟩

/-- What can be applied to the parts of a list can be applied to intercalated ones. -/
theorem apply_intercalate {α β : Type} {apply : List α → List β} (hNil : apply [] = [])
    (hAppend : ∀ first rest, apply (first ++ rest) = apply first ++ apply rest)
    (separator : List α) (pieces : List (List α)) :
    apply (separator.intercalate pieces) =
      (apply separator).intercalate (pieces.map apply) := by
  induction pieces with
  | nil => exact hNil
  | cons first rest ih =>
      cases rest with
      | nil => simp
      | cons next others =>
          rw [List.intercalate_cons_cons, hAppend, hAppend, ih, List.map_cons, List.map_cons,
            List.map_cons, List.intercalate_cons_cons]

/-- A script function as far as it can be told from the script: the messages are
those that its popups show. -/
structure ShownFunction where
  name : String
  parameters : List String
  messages : List String
  deriving DecidableEq, Repr

/-- The text that a statement shows, if it is a popup. -/
def Node.popup? : Node → Option Expr
  | .element (.popup text) => some text
  | _ => none

/-- The message that a text becomes outside of all components. -/
def Expr.message (text : Expr) : Except Failure String :=
  (text.evaluate Context.empty).result.map Value.text

/-- The function has this name and these parameters, and its popups show these
messages, in order. -/
structure ScriptFunction.Shows (function : ScriptFunction) (shown : ShownFunction) : Prop where
  name : shown.name = function.name
  parameters : shown.parameters = function.parameters.map Parameter.name
  messages : (function.body.filterMap Node.popup?).map Expr.message = shown.messages.map .ok

/-- All names of a script function are identifiers. -/
structure ScriptFunction.Named (function : ScriptFunction) : Prop where
  name : Call.IsIdentifier function.name
  parameters : ∀ parameter ∈ function.parameters, Call.IsIdentifier parameter.name

namespace ShownFunction

/-- The line that a function starts with. -/
def header (function : ShownFunction) : String :=
  "function " ++ function.name ++ "(" ++ ", ".intercalate function.parameters ++ ") \x7b"

/-- The line that shows a message. -/
def alertLine (message : String) : String := "alert('" ++ escapeSingleQuotedScript message ++ "');"

/-- The lines of a function, with their depths. -/
def lines (function : ShownFunction) : List Line :=
  ⟨0, function.header⟩ :: (function.messages.map fun message => ⟨1, alertLine message⟩) ++
    [⟨0, "\x7d"⟩]

/-- The lines of a function as they stand in the script. -/
def block (indent : String) (function : ShownFunction) : List String :=
  function.header :: (function.messages.map fun message => indent ++ alertLine message) ++ ["\x7d"]

end ShownFunction

/-- All names of a function that has been told are identifiers. -/
structure ShownFunction.Named (function : ShownFunction) : Prop where
  name : Call.IsIdentifier function.name
  parameters : ∀ parameter ∈ function.parameters, Call.IsIdentifier parameter

theorem Call.IsIdentifier.not_mem {name : String} (hName : Call.IsIdentifier name) {c : Char}
    (hOther : Call.isNameChar c = false) : c ∉ name.toList := by
  obtain ⟨first, rest, hChars, -, hPlain⟩ := hName
  intro hMem
  rw [hChars] at hMem
  rw [hPlain c hMem] at hOther
  cases hOther

theorem Call.not_mem_of_identifiers {names : List String}
    (hNames : ∀ name ∈ names, Call.IsIdentifier name) {c : Char}
    (hOther : Call.isNameChar c = false) : ∀ text ∈ names.map String.toList, c ∉ text := by
  intro text hText
  obtain ⟨name, hName, rfl⟩ := List.mem_map.mp hText
  exact (hNames name hName).not_mem hOther

theorem Call.IsIdentifier.ne_nil {name : String} (hName : Call.IsIdentifier name) :
    name.toList ≠ [] := by
  obtain ⟨first, rest, hChars, -⟩ := hName
  simp [hChars]

namespace Script

/-- A statement that is no popup adds nothing. -/
theorem statement_of_popup?_eq_none {node : Node} (hNode : node.popup? = none)
    {outcome : Emission (List Writer.Call)} (hOutcome : (statement node).result = .ok outcome)
    (lines : Lines) : outcome.writeOn (carryOut Lines.call) lines = pure lines := by
  cases node with
  | div children =>
      obtain rfl := Except.ok.inj hOutcome
      rfl
  | useComponent name arguments =>
      obtain rfl := Except.ok.inj hOutcome
      rfl
  | element e =>
      cases e with
      | popup text => cases hNode
      | _ =>
          obtain rfl := Except.ok.inj hOutcome
          rfl

/-- A popup adds the line that shows its message. -/
theorem statement_of_popup?_eq_some {node : Node} {text : Expr} (hNode : node.popup? = some text)
    {outcome : Emission (List Writer.Call)} (hOutcome : (statement node).result = .ok outcome) :
    ∃ message, text.message = .ok message ∧
      outcome = .written [.line (ShownFunction.alertLine message)] := by
  obtain rfl : node = .element (.popup text) := by
    unfold Node.popup? at hNode
    split at hNode
    · rw [Option.some.inj hNode]
    · cases hNode
  obtain ⟨value, hValue, hWritten⟩ := Run.result_bind_eq_ok_iff.mp hOutcome
  refine ⟨value.text, ?_, (Except.ok.inj hWritten).symm⟩
  rw [Expr.message, hValue]
  rfl

/-- The statements of a function add one line for each popup, at the depth that
they stand at. -/
theorem emitEach_writes {options : Options} {nodes : List Node} {output final : Output Lines}
    (hFinal : (output.emitEach options (carryOut Lines.call) statement nodes).result =
      .ok final) :
    ∃ messages : List String,
      (nodes.filterMap Node.popup?).map Expr.message = messages.map .ok ∧
      final.state = ⟨output.state.depth, output.state.written ++
        messages.map fun message => ⟨output.state.depth, ShownFunction.alertLine message⟩⟩ := by
  induction nodes generalizing output with
  | nil =>
      obtain rfl := Except.ok.inj hFinal
      exact ⟨[], rfl, by simp⟩
  | cons node rest ih =>
      obtain ⟨next, hNext, hRest⟩ := Run.result_bind_eq_ok_iff.mp hFinal
      obtain ⟨outcome, hOutcome, hState, -⟩ := Output.emit_result_eq_ok_iff.mp hNext
      obtain ⟨messages, hMessages, hWritten⟩ := ih hRest
      cases hNode : node.popup? with
      | none =>
          rw [statement_of_popup?_eq_none hNode hOutcome] at hState
          refine ⟨messages, ?_, ?_⟩
          · rw [List.filterMap_cons_none hNode, hMessages]
          · rw [hWritten, ← Except.ok.inj hState]
      | some text =>
          obtain ⟨message, hMessage, rfl⟩ := statement_of_popup?_eq_some hNode hOutcome
          refine ⟨message :: messages, ?_, ?_⟩
          · rw [List.filterMap_cons_some hNode, List.map_cons, List.map_cons, hMessage, hMessages]
          · rw [hWritten, ← Except.ok.inj hState]
            simp [Lines.call, Lines.line]

/-- A function is written as its lines, at the depth that it starts at, and this
depth is left again. -/
theorem addFunction_writes {options : Options} {function : ScriptFunction}
    {output final : Output Lines} (hStart : output.state.depth = 0)
    (hFinal : (addFunction Lines.call options function output).result = .ok final) :
    ∃ shown : ShownFunction, function.Shows shown ∧
      final.state = ⟨0, output.state.written ++ shown.lines⟩ := by
  obtain ⟨-, -, hRest⟩ := Run.result_bind_eq_ok_iff.mp hFinal
  obtain ⟨body, hBody, hEnd⟩ := Run.result_bind_eq_ok_iff.mp hRest
  obtain rfl := Except.ok.inj hEnd
  obtain ⟨messages, hMessages, hWritten⟩ := emitEach_writes hBody
  refine ⟨⟨function.name, function.parameters.map Parameter.name, messages⟩, ⟨rfl, rfl, hMessages⟩,
    ?_⟩
  simp [Output.map, hWritten, hStart, Lines.call, Lines.line, Lines.indented, Lines.dedented,
    ShownFunction.lines, ShownFunction.header, header]

theorem addMore_writes {options : Options} {functions : List ScriptFunction}
    {output final : Output Lines} (hStart : output.state.depth = 0)
    (hFinal : (addMore Lines.call options functions output).result = .ok final) :
    ∃ shown : List ShownFunction, List.Forall₂ ScriptFunction.Shows functions shown ∧
      final.state = ⟨0, output.state.written ++ shown.flatMap fun function =>
        ⟨0, ""⟩ :: function.lines⟩ := by
  induction functions generalizing output with
  | nil =>
      obtain rfl := Except.ok.inj hFinal
      exact ⟨[], .nil, by simp [← hStart]⟩
  | cons function rest ih =>
      obtain ⟨next, hNext, hRest⟩ := Run.result_bind_eq_ok_iff.mp hFinal
      have hBlank : (output.map fun lines => lines.call .blank).state.depth = 0 := hStart
      obtain ⟨first, hFirst, hWritten⟩ := addFunction_writes hBlank hNext
      obtain ⟨others, hOthers, hAll⟩ := ih (by rw [hWritten]) hRest
      refine ⟨first :: others, .cons hFirst hOthers, ?_⟩
      rw [hAll, hWritten]
      simp [Output.map, Lines.call, Lines.blank]

/-- The lines of functions, with empty lines between them. -/
def shownLines (functions : List ShownFunction) : List Line :=
  [⟨0, ""⟩].intercalate (functions.map ShownFunction.lines)

theorem shownLines_cons (first : ShownFunction) (others : List ShownFunction) :
    shownLines (first :: others) =
      first.lines ++ others.flatMap fun function => ⟨0, ""⟩ :: function.lines := by
  rw [shownLines, List.map_cons, intercalate_cons_eq_flatMap, List.flatMap_map]
  rfl

theorem mem_shownLines {functions : List ShownFunction} {line : Line}
    (hLine : line ∈ shownLines functions) :
    line = ⟨0, ""⟩ ∨ ∃ function ∈ functions, line ∈ function.lines := by
  cases functions with
  | nil => cases hLine
  | cons first others =>
      rw [shownLines_cons, List.mem_append, List.mem_flatMap] at hLine
      rcases hLine with hFirst | ⟨function, hFunction, hLine⟩
      · exact .inr ⟨first, List.mem_cons_self, hFirst⟩
      · exact (List.mem_cons.mp hLine).imp_right fun hLine =>
          ⟨function, List.mem_cons_of_mem _ hFunction, hLine⟩

/-- A script that can be made consists of the lines of its functions. -/
theorem lines_writes {document : Document} {failOnUnsupported : Bool} {final : Output Lines}
    (hFinal : (lines document failOnUnsupported).result = .ok final) :
    ∃ shown : List ShownFunction, List.Forall₂ ScriptFunction.Shows document.scripts shown ∧
      final.state.written = shownLines shown := by
  unfold lines at hFinal
  cases hScripts : document.scripts with
  | nil =>
      rw [hScripts] at hFinal
      obtain rfl := Except.ok.inj hFinal
      exact ⟨[], .nil, rfl⟩
  | cons function rest =>
      rw [hScripts] at hFinal
      obtain ⟨next, hNext, hRest⟩ := Run.result_bind_eq_ok_iff.mp hFinal
      obtain ⟨first, hFirst, hWritten⟩ := addFunction_writes rfl hNext
      obtain ⟨others, hOthers, hAll⟩ := addMore_writes (by rw [hWritten]) hRest
      refine ⟨first :: others, .cons hFirst hOthers, ?_⟩
      rw [hAll, hWritten, shownLines_cons]
      rfl

end Script

/-- A line as it stands in the text. -/
def Line.written (indent : String) (line : Line) : String :=
  Writer.margin indent line.depth ++ line.text

/-- Lines in which there is no line feed are found again between the line feeds
of their text, which ends with one. -/
theorem Writer.splitOn_linesText {indent : String} {lines : List Line}
    (hLines : ∀ line ∈ lines, '\n' ∉ (line.written indent).toList) :
    (linesText indent 0 lines).toList.splitOn '\n' =
      (lines.map (Line.written indent) ++ [""]).map String.toList := by
  induction lines with
  | nil => rfl
  | cons line rest ih =>
      rw [List.forall_mem_cons] at hLines
      have hText : (linesText indent 0 (line :: rest)).toList =
          (line.written indent).toList ++ '\n' :: (linesText indent 0 rest).toList := by
        simp [linesText, lineText, Line.written]
      rw [hText, List.splitOn_append_cons_self_of_not_mem hLines.1, ih hLines.2]
      rfl

namespace ShownFunction

variable {indent : String} {function : ShownFunction}

/-- The lines of a function, as they stand in the script. -/
theorem map_written_lines : function.lines.map (Line.written indent) = function.block indent := by
  simp [lines, block, Line.written, Writer.margin]

theorem lineFeed_not_mem_alertLine (message : String) : '\n' ∉ (alertLine message).toList := by
  have hLiteral := lineFeed_not_mem_alertLiteral message
  simp only [alertLiteral, alertLine, String.toList_append, List.mem_append, not_or] at hLiteral ⊢
  exact ⟨⟨by decide, hLiteral.1.2⟩, by decide⟩

theorem lineFeed_not_mem_header (hNamed : function.Named) : '\n' ∉ function.header.toList := by
  have hParameters : '\n' ∉ (", ".intercalate function.parameters).toList := by
    rw [String.toList_intercalate]
    intro hMem
    rcases mem_intercalate hMem with hSeparator | ⟨text, hText, hMem⟩
    · exact absurd hSeparator (by decide)
    · exact Call.not_mem_of_identifiers hNamed.parameters (by decide) text hText hMem
  simp only [header, String.toList_append, List.mem_append, not_or]
  exact ⟨⟨⟨⟨by decide, hNamed.name.not_mem (by decide)⟩, by decide⟩, hParameters⟩, by decide⟩

/-- No line of a function is broken, so a message cannot end its line. -/
theorem lineFeed_not_mem_block (hNamed : function.Named) (hIndent : '\n' ∉ indent.toList) :
    ∀ line ∈ function.block indent, '\n' ∉ line.toList := by
  intro line hLine
  simp only [block, List.cons_append, List.mem_cons, List.mem_append, List.mem_map,
    List.not_mem_nil, or_false] at hLine
  rcases hLine with rfl | ⟨message, -, rfl⟩ | rfl
  · exact lineFeed_not_mem_header hNamed
  · rw [String.toList_append, List.mem_append, not_or]
    exact ⟨hIndent, lineFeed_not_mem_alertLine message⟩
  · decide

end ShownFunction

/-- The lines of a script: the blocks of its functions with one empty line
between two of them, and nothing behind the last line feed. -/
def scriptLines (indent : String) (functions : List ShownFunction) : List String :=
  [""].intercalate (functions.map (ShownFunction.block indent)) ++ [""]

theorem Line.written_empty (indent : String) : Line.written indent ⟨0, ""⟩ = "" := by
  simp [Line.written, Writer.margin]

theorem map_written_shownLines (indent : String) (functions : List ShownFunction) :
    (Script.shownLines functions).map (Line.written indent) ++ [""] =
      scriptLines indent functions := by
  have hBlocks : (functions.map ShownFunction.lines).map (List.map (Line.written indent)) =
      functions.map (ShownFunction.block indent) := by
    rw [List.map_map]
    exact List.map_congr_left fun function _ => ShownFunction.map_written_lines
  rw [Script.shownLines, apply_intercalate List.map_nil fun _ _ => List.map_append, hBlocks,
    List.map_singleton, Line.written_empty]
  rfl

theorem lineFeed_not_mem_shownLines {indent : String} (hIndent : '\n' ∉ indent.toList)
    {functions : List ShownFunction} (hNamed : ∀ function ∈ functions, function.Named) :
    ∀ line ∈ Script.shownLines functions, '\n' ∉ (line.written indent).toList := by
  intro line hLine
  rcases Script.mem_shownLines hLine with rfl | ⟨function, hFunction, hLine⟩
  · rw [Line.written_empty]
    exact List.not_mem_nil
  · refine ShownFunction.lineFeed_not_mem_block (hNamed function hFunction) hIndent _ ?_
    rw [← ShownFunction.map_written_lines]
    exact List.mem_map_of_mem hLine

theorem ScriptFunction.Shows.named {function : ScriptFunction} {shown : ShownFunction}
    (hShows : function.Shows shown) (hNamed : function.Named) : shown.Named := by
  refine ⟨hShows.name ▸ hNamed.name, fun parameter hParameter => ?_⟩
  rw [hShows.parameters] at hParameter
  obtain ⟨declared, hDeclared, rfl⟩ := List.mem_map.mp hParameter
  exact hNamed.parameters declared hDeclared

theorem ScriptFunction.named_of_shows {functions : List ScriptFunction}
    {shown : List ShownFunction} (hShows : List.Forall₂ ScriptFunction.Shows functions shown)
    (hNamed : ∀ function ∈ functions, function.Named) : ∀ function ∈ shown, function.Named := by
  induction hShows with
  | nil => exact fun _ hMem => absurd hMem List.not_mem_nil
  | cons hFirst hRest ih =>
      rw [List.forall_mem_cons] at hNamed ⊢
      exact ⟨hFirst.named hNamed.1, ih hNamed.2⟩

/-- A function shows one thing only. -/
theorem ScriptFunction.Shows.unique {function : ScriptFunction} {shown other : ShownFunction}
    (hShows : function.Shows shown) (hOther : function.Shows other) : shown = other := by
  have hName := hShows.name.trans hOther.name.symm
  have hParameters := hShows.parameters.trans hOther.parameters.symm
  have hMessages : shown.messages = other.messages :=
    List.map_injective_iff.mpr (fun _ _ => Except.ok.inj)
      (hShows.messages.symm.trans hOther.messages)
  cases shown
  cases other
  simp_all

theorem ScriptFunction.shows_unique :
    Relator.RightUnique (List.Forall₂ ScriptFunction.Shows) :=
  Relator.RightUnique.forall₂ fun _ _ _ => Shows.unique

namespace Script

variable {document : Document} {options : Options} {script : Compiled}

/-- A script that has been made splits into the lines of what its functions show. -/
theorem compile_splits (hNamed : ∀ function ∈ document.scripts, function.Named)
    (hIndent : '\n' ∉ options.indent.toList)
    (hScript : (compile document options).result = .ok script) :
    ∃ functions : List ShownFunction,
      List.Forall₂ ScriptFunction.Shows document.scripts functions ∧
      script.text.toList.splitOn '\n' =
        (scriptLines options.indent functions).map String.toList := by
  rw [compile_result] at hScript
  cases hLines : (lines document options.failOnUnsupported).result with
  | error cause =>
      rw [hLines] at hScript
      cases hScript
  | ok final =>
      rw [hLines] at hScript
      obtain rfl := Except.ok.inj hScript
      obtain ⟨functions, hShows, hWritten⟩ := lines_writes hLines
      have hPlain := lineFeed_not_mem_shownLines hIndent
        (ScriptFunction.named_of_shows hShows hNamed)
      have hSplit : (final.state.text options.indent).toList.splitOn '\n' =
          (scriptLines options.indent functions).map String.toList := by
        rw [Lines.text, hWritten, Writer.splitOn_linesText hPlain, map_written_shownLines]
      exact ⟨functions, hShows, hSplit⟩

end Script

end PageGen
