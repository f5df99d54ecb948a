import PageGen.Output.Emission

/-! The lines that calls on a writer come to, apart from the text that they make. A
writer keeps no more than its text; here the same calls are carried out on a list,
with one entry for each line and the depth that the line stands at. The indent has
no part in that. Calls that never go out of the depth they start at, and end there,
are a block: wherever they are carried out, they add the same lines, placed at the
depth that they find. -/
namespace PageGen

/-- A line, with its depth relative to where it is put. -/
structure Line where
  depth : Nat
  text : String
  deriving DecidableEq, Repr

/-- The line, further inside by this many levels. -/
def Line.inside (levels : Nat) (line : Line) : Line := { line with depth := levels + line.depth }

namespace Writer

/-- A line as it is written at a depth. -/
def lineText (indent : String) (depth : Nat) (text : String) : String :=
  margin indent depth ++ text ++ "\n"

/-- The text of lines that are put at a depth. -/
def linesText (indent : String) (depth : Nat) : List Line → String
  | [] => ""
  | line :: rest =>
    lineText indent (depth + line.depth) line.text ++ linesText indent depth rest

/-- Goes on with a text of complete lines. -/
def append (writer : Writer) (text : String) : Writer :=
  { writer with buffer := writer.buffer ++ text }

theorem line_eq_append (writer : Writer) (text : String) :
    writer.line text = writer.append (lineText writer.indent writer.depth text) := by
  simp only [line, append, lineText, String.append_assoc]

theorem append_append (writer : Writer) (first rest : String) :
    (writer.append first).append rest = writer.append (first ++ rest) := by
  simp only [append, String.append_assoc]

theorem linesText_append (indent : String) (depth : Nat) (first rest : List Line) :
    linesText indent depth (first ++ rest) =
      linesText indent depth first ++ linesText indent depth rest := by
  induction first with
  | nil => simp [linesText]
  | cons line others ih => simp only [List.cons_append, linesText, ih, String.append_assoc]

/-- Lines that are put at a depth are lines of their own depths plus that one. -/
theorem linesText_inside (indent : String) (depth levels : Nat) (lines : List Line) :
    linesText indent depth (lines.map (Line.inside levels)) =
      linesText indent (depth + levels) lines := by
  induction lines with
  | nil => rfl
  | cons line rest ih =>
      simp only [List.map_cons, linesText, Line.inside, ih, Nat.add_assoc]

/-- The depth after the calls. There is none if one of them goes out of depth
zero. -/
def depthAfter? : Nat → List Call → Option Nat
  | depth, [] => some depth
  | depth, .line _ :: rest => depthAfter? depth rest
  | depth, .blank :: rest => depthAfter? depth rest
  | depth, .indent :: rest => depthAfter? (depth + 1) rest
  | 0, .dedent :: _ => none
  | depth + 1, .dedent :: rest => depthAfter? depth rest

theorem depthAfter?_append (depth : Nat) (first rest : List Call) :
    depthAfter? depth (first ++ rest) =
      (depthAfter? depth first).bind fun next => depthAfter? next rest := by
  induction first generalizing depth with
  | nil => rfl
  | cons call more ih =>
      cases call with
      | line text => exact ih depth
      | blank => exact ih depth
      | indent => exact ih (depth + 1)
      | dedent =>
          cases depth with
          | zero => rfl
          | succ depth => exact ih depth

/-- What calls do to the depth they do further inside as well. -/
theorem depthAfter?_inside {depth final : Nat} {calls : List Call}
    (hDepth : depthAfter? depth calls = some final) (levels : Nat) :
    depthAfter? (levels + depth) calls = some (levels + final) := by
  induction calls generalizing depth with
  | nil =>
      obtain rfl := Option.some.inj hDepth
      rfl
  | cons call rest ih =>
      cases call with
      | line text => exact ih hDepth
      | blank => exact ih hDepth
      | indent => exact ih hDepth
      | dedent =>
          cases depth with
          | zero => cases hDepth
          | succ depth => exact ih hDepth

end Writer

/-- The lines that have been written, and the depth of the next one. -/
structure Lines where
  depth : Nat
  written : List Line

namespace Lines

def start : Lines := ⟨0, []⟩

def line (lines : Lines) (text : String) : Lines :=
  { lines with written := lines.written ++ [⟨lines.depth, text⟩] }

/-- An empty line has no margin, at any depth. -/
def blank (lines : Lines) : Lines := { lines with written := lines.written ++ [⟨0, ""⟩] }

def indented (lines : Lines) : Lines := { lines with depth := lines.depth + 1 }

@[inherit_doc Writer.dedented]
def dedented (lines : Lines) : Lines := { lines with depth := lines.depth - 1 }

/-- Carries out a call as a writer does. -/
def call (lines : Lines) : Writer.Call → Lines
  | .line text => lines.line text
  | .blank => lines.blank
  | .indent => lines.indented
  | .dedent => lines.dedented

/-- Adds lines at the current depth. -/
def block (lines : Lines) (added : List Line) : Lines :=
  { lines with written := lines.written ++ added.map (Line.inside lines.depth) }

/-- The text that the lines make with this indent. -/
def text (indent : String) (lines : Lines) : String := Writer.linesText indent 0 lines.written

/-- The writer that has written the lines after another text. -/
def onWriter (indent before : String) (lines : Lines) : Writer :=
  ⟨indent, lines.depth, before ++ lines.text indent⟩

variable {indent before : String} {lines outer : Lines}

theorem onWriter_call (request : Writer.Call) :
    (lines.onWriter indent before).call request =
      (lines.call request).onWriter indent before := by
  cases request with
  | line text =>
      simp only [onWriter, call, line, Lines.text, Writer.call, Writer.line_eq_append,
        Writer.append, Writer.linesText_append, Writer.linesText, Nat.zero_add,
        String.append_empty, String.append_assoc]
  | blank =>
      have hBlank : Writer.lineText indent 0 "" = "\n" := by
        simp [Writer.lineText, Writer.margin]
      simp only [onWriter, call, blank, text, Writer.call, Writer.blank, Writer.linesText_append,
        Writer.linesText, Nat.add_zero, String.append_empty, hBlank, String.append_assoc]
  | indent => rfl
  | dedent => rfl

/-- Other lines behind these, at the depth where these end. -/
def followedBy (outer lines : Lines) : Lines :=
  ⟨outer.depth + lines.depth, outer.written ++ lines.written.map (Line.inside outer.depth)⟩

/-- A call does the same behind other lines, unless it writes a line without a margin
or goes out to them. -/
theorem followedBy_call {request : Writer.Call} (hBlank : request ≠ .blank)
    (hLevel : request = .dedent → 0 < lines.depth) :
    (outer.followedBy lines).call request = outer.followedBy (lines.call request) := by
  cases request with
  | line text =>
      simp only [followedBy, call, line, List.map_append, List.map_cons, List.map_nil, Line.inside,
        List.append_assoc]
  | blank => exact absurd rfl hBlank
  | indent => rfl
  | dedent =>
      have hDepth : outer.depth + lines.depth - 1 = outer.depth + (lines.depth - 1) :=
        Nat.add_sub_assoc (hLevel rfl) outer.depth
      simp only [followedBy, call, dedented, hDepth]

/-- So do calls that never go out to the other lines. They end at the depth told. -/
theorem foldl_followedBy {calls : List Writer.Call} {final : Nat}
    (hDepth : Writer.depthAfter? lines.depth calls = some final) (hBlank : .blank ∉ calls) :
    calls.foldl call (outer.followedBy lines) = outer.followedBy (calls.foldl call lines) ∧
      (calls.foldl call lines).depth = final := by
  induction calls generalizing lines with
  | nil => exact ⟨rfl, Option.some.inj hDepth⟩
  | cons request rest ih =>
      obtain ⟨hFirst, hRest⟩ := not_or.mp (mt List.mem_cons.mpr hBlank)
      have hNext : (request = .dedent → 0 < lines.depth) ∧
          Writer.depthAfter? (lines.call request).depth rest = some final := by
        cases request with
        | line text => exact ⟨by simp, hDepth⟩
        | blank => exact absurd rfl hFirst
        | indent => exact ⟨by simp, hDepth⟩
        | dedent =>
            obtain ⟨depth, written⟩ := lines
            cases depth with
            | zero => cases hDepth
            | succ depth => exact ⟨fun _ => Nat.succ_pos depth, hDepth⟩
      rw [List.foldl_cons, List.foldl_cons, followedBy_call (Ne.symm hFirst) hNext.1]
      exact ih hNext.2 hRest

end Lines

namespace Writer

/-- The lines of calls that are carried out at depth zero. -/
def linesOf (calls : List Call) : List Line := (calls.foldl Lines.call Lines.start).written

/-- Calls that never go out of the depth they start at, and end there. No empty line
is among what they write. -/
structure IsBlock (calls : List Call) : Prop where
  level : depthAfter? 0 calls = some 0
  filled : .blank ∉ calls

/-- A block adds its lines to a list of lines, at the depth that it finds. -/
theorem IsBlock.foldl_lines {calls : List Call} (hBlock : IsBlock calls) (lines : Lines) :
    calls.foldl Lines.call lines = lines.block (linesOf calls) := by
  have hStart : lines = lines.followedBy Lines.start := by simp [Lines.followedBy, Lines.start]
  obtain ⟨hPlaced, hDepth⟩ :=
    @Lines.foldl_followedBy Lines.start lines calls 0 hBlock.level hBlock.filled
  rw [hStart, hPlaced, ← hStart, Lines.followedBy, hDepth]
  rfl

/-- A block adds the text of its lines to a writer, at the depth that it finds. -/
theorem IsBlock.foldl_writer {calls : List Call} (hBlock : IsBlock calls) (writer : Writer) :
    calls.foldl call writer =
      writer.append (linesText writer.indent writer.depth (linesOf calls)) := by
  have hStart : writer = (⟨writer.depth, []⟩ : Lines).onWriter writer.indent writer.buffer := by
    simp [Lines.onWriter, Lines.text, linesText]
  rw [hStart, List.foldl_hom _ fun _ request => Lines.onWriter_call request, hBlock.foldl_lines,
    ← hStart]
  simp only [Lines.onWriter, Lines.block, Lines.text, List.nil_append, linesText_inside,
    Nat.zero_add, append]

end Writer

end PageGen
