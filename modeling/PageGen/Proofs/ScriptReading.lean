import Mathlib.Data.List.DropRight
import PageGen.Proofs.ScriptLines

/-! Reading a script back. A reader that knows no more than the form of its lines
finds the script functions in it again: their names, their parameters and the
messages they show. -/
namespace PageGen

namespace Escape

/-- What the backslashes in a string of a script stand for. -/
def unescape : List Char → List Char
  | '\x5c' :: 'n' :: rest => '\n' :: unescape rest
  | '\x5c' :: c :: rest => c :: unescape rest
  | c :: rest => c :: unescape rest
  | [] => []

theorem unescape_cons {c : Char} (hBackslash : c ≠ '\x5c') (rest : List Char) :
    unescape (c :: rest) = c :: unescape rest := by
  rw [unescape]
  · rintro - rfl
    exact absurd rfl hBackslash
  · rintro - - rfl
    exact absurd rfl hBackslash

theorem unescape_scriptChar (c : Char) (rest : List Char) :
    unescape (scriptChar '\x27' c ++ rest) = c :: unescape rest := by
  unfold scriptChar
  split_ifs with hBackslash hQuote hLine
  · simp [unescape, hBackslash]
  · simp [unescape, hQuote]
  · simp [unescape, hLine]
  · exact unescape_cons hBackslash rest

/-- The escapes of a message are undone, those in broken end tags as well. -/
theorem unescape_singleQuotedScript (text : List Char) :
    unescape (singleQuotedScript text) = text := by
  rw [singleQuotedScript_eq_breakEndTags]
  -- An end tag is two characters of the text, so the induction takes them together.
  induction text using breakEndTags.induct with
  | case1 text ih =>
      have hWritten : ('<' :: '/' :: text).flatMap (scriptChar '\x27') =
          '<' :: '/' :: text.flatMap (scriptChar '\x27') := rfl
      rw [hWritten, breakEndTags, unescape_cons (by decide)]
      simp [unescape, ih]
  | case2 c text hNoTag ih =>
      rw [List.flatMap_cons, ScriptString.breakEndTags_scriptChar (not_endTag_of_no_match hNoTag),
        unescape_scriptChar, ih]
  | case3 => rfl

end Escape

/-- What a reader takes a line of a script for. -/
inductive ScriptLine where
  | header (name : String) (parameters : List String)
  | message (text : String)
  | closing
  | other
  deriving DecidableEq, Repr

namespace ScriptLine

/-- The characters that lines may be indented with. -/
def isBlank (c : Char) : Bool := c == ' ' || c == '\t'

/-- What follows the start, if the line has this start. -/
def after? (start line : List Char) : Option (List Char) :=
  if start.isPrefixOf line then some (line.drop start.length) else none

/-- The parameters between the brackets of a header. -/
def readParameters (text : List Char) : List String :=
  (((text.filter (· ≠ ' ')).splitOn ',').filter (· ≠ [])).map String.ofList

/-- Reads the header behind its first word, up to the closing bracket. -/
def readHeader (text : List Char) : ScriptLine :=
  .header (String.ofList (text.takeWhile (· ≠ '(')))
    (readParameters ((text.dropWhile (· ≠ '(')).tail.rdrop ") \x7b".length))

/-- Reads the message behind its opening quote, up to the closing one. -/
def readMessage (text : List Char) : ScriptLine :=
  .message (String.ofList (Escape.unescape (text.rdrop "');".length)))

/-- Reads a line, however far it is indented. -/
def read (line : List Char) : ScriptLine :=
  let text := line.dropWhile isBlank
  match after? "function ".toList text, after? "alert('".toList text with
  | some rest, _ => readHeader rest
  | none, some rest => readMessage rest
  | none, none => if text = ['\x7d'] then .closing else .other

end ScriptLine

/-- What has been read of a script from its end up to some line: the messages of
a function whose header is yet to come, and the functions behind it. -/
structure ScriptReading where
  messages : List String
  functions : List ShownFunction
  deriving DecidableEq, Repr

namespace ScriptReading

def add (line : ScriptLine) (below : ScriptReading) : ScriptReading :=
  match line with
  | .header name parameters => ⟨[], ⟨name, parameters, below.messages⟩ :: below.functions⟩
  | .message text => ⟨text :: below.messages, below.functions⟩
  | .closing => ⟨[], below.functions⟩
  | .other => below

/-- Reads the lines of a script, the last one first. -/
def ofLines (lines : List (List Char)) : ScriptReading :=
  lines.foldr (fun line below => below.add (ScriptLine.read line)) ⟨[], []⟩

theorem ofLines_cons (line : List Char) (below : List (List Char)) :
    ofLines (line :: below) = (ofLines below).add (ScriptLine.read line) := rfl

end ScriptReading

/-- Reads a script as the functions in it. -/
def readScript (text : String) : List ShownFunction :=
  (ScriptReading.ofLines (text.toList.splitOn '\n')).functions

namespace ScriptLine

theorem after?_append (start rest : List Char) : after? start (start ++ rest) = some rest := by
  simp [after?]

theorem readParameters_intercalate {parameters : List String}
    (hNames : ∀ parameter ∈ parameters, Call.IsIdentifier parameter) :
    readParameters (", ".intercalate parameters).toList = parameters := by
  have hPlain : ∀ c, Call.isNameChar c = false →
      ∀ text ∈ parameters.map String.toList, c ∉ text := fun c hOther =>
    Call.not_mem_of_identifiers hNames hOther
  have hKept : (parameters.map String.toList).map (List.filter (· ≠ ' ')) =
      parameters.map String.toList := by
    refine (List.map_congr_left fun text hText => ?_).trans (List.map_id _)
    refine List.filter_eq_self.mpr fun c hMem => decide_eq_true ?_
    rintro rfl
    exact hPlain ' ' (by decide) text hText hMem
  have hBlanks : (", ".intercalate parameters).toList.filter (· ≠ ' ') =
      [','].intercalate (parameters.map String.toList) := by
    rw [String.toList_intercalate, apply_intercalate List.filter_nil List.filter_append, hKept]
    rfl
  have hPieces : (([','].intercalate (parameters.map String.toList)).splitOn ',').filter (· ≠ []) =
      parameters.map String.toList := by
    cases parameters with
    | nil => rfl
    | cons first rest =>
        rw [List.splitOn_intercalate ',' (hPlain ',' (by decide)) (by simp), List.filter_eq_self]
        intro text hText
        obtain ⟨parameter, hParameter, rfl⟩ := List.mem_map.mp hText
        simpa using (hNames parameter hParameter).ne_nil
  rw [readParameters, hBlanks, hPieces, List.map_map]
  simp

theorem rdrop_append (text ending : List Char) : (text ++ ending).rdrop ending.length = text := by
  simp [List.rdrop]

theorem read_header {function : ShownFunction} (hNamed : function.Named) :
    read function.header.toList = .header function.name function.parameters := by
  have hText : function.header.toList.dropWhile isBlank = "function ".toList ++
      (function.name.toList ++
        ('(' :: ((", ".intercalate function.parameters).toList ++ ") \x7b".toList))) := by
    simp [ShownFunction.header, isBlank]
  have hName : ∀ c ∈ function.name.toList, decide (c ≠ '(') = true := by
    intro c hMem
    refine decide_eq_true ?_
    rintro rfl
    exact hNamed.name.not_mem (by decide) hMem
  have hEnd : ((", ".intercalate function.parameters).toList ++ ") \x7b".toList).rdrop
      ") \x7b".length = (", ".intercalate function.parameters).toList := rdrop_append _ _
  simp only [read, hText, after?_append, readHeader]
  rw [List.takeWhile_append_of_pos hName, List.dropWhile_append_of_pos hName,
    List.takeWhile_cons_of_neg (by simp), List.dropWhile_cons_of_neg (by simp), List.tail_cons,
    hEnd, readParameters_intercalate hNamed.parameters, List.append_nil, String.ofList_toList]

theorem read_alertLine {indent : String} (hIndent : ∀ c ∈ indent.toList, isBlank c = true)
    (message : String) :
    read (indent ++ ShownFunction.alertLine message).toList = .message message := by
  have hText : (indent ++ ShownFunction.alertLine message).toList.dropWhile isBlank =
      "alert('".toList ++ (Escape.singleQuotedScript message.toList ++ "');".toList) := by
    rw [String.toList_append, List.dropWhile_append_of_pos hIndent]
    simp [ShownFunction.alertLine, escapeSingleQuotedScript, isBlank]
  have hOther : after? "function ".toList
      ("alert('".toList ++ (Escape.singleQuotedScript message.toList ++ "');".toList)) = none := rfl
  have hEnd : (Escape.singleQuotedScript message.toList ++ "');".toList).rdrop "');".length =
      Escape.singleQuotedScript message.toList := rdrop_append _ _
  simp only [read, hText, hOther, after?_append, readMessage]
  rw [hEnd, Escape.unescape_singleQuotedScript, String.ofList_toList]

end ScriptLine

namespace ScriptReading

variable {indent : String}

/-- The lines that show messages are read as these, above whatever is below them. -/
theorem ofLines_alertLines (hIndent : ∀ c ∈ indent.toList, ScriptLine.isBlank c = true)
    (messages : List String) (below : List (List Char)) :
    ofLines ((messages.map fun message => indent ++ ShownFunction.alertLine message).map
        String.toList ++ below) =
      ⟨messages ++ (ofLines below).messages, (ofLines below).functions⟩ := by
  induction messages with
  | nil => rfl
  | cons message rest ih =>
      rw [List.map_cons, List.map_cons, List.cons_append, ofLines_cons, ih,
        ScriptLine.read_alertLine hIndent]
      rfl

/-- The lines of a function are read as the function, whatever is below them. -/
theorem ofLines_block {function : ShownFunction} (hNamed : function.Named)
    (hIndent : ∀ c ∈ indent.toList, ScriptLine.isBlank c = true) (below : List (List Char)) :
    ofLines ((function.block indent).map String.toList ++ below) =
      ⟨[], function :: (ofLines below).functions⟩ := by
  have hBlock : (function.block indent).map String.toList ++ below =
      function.header.toList :: ((function.messages.map fun message =>
        indent ++ ShownFunction.alertLine message).map String.toList ++
          "\x7d".toList :: below) := by
    simp [ShownFunction.block]
  have hClosing : ofLines ("\x7d".toList :: below) = ⟨[], (ofLines below).functions⟩ := rfl
  rw [hBlock, ofLines_cons, ofLines_alertLines hIndent, hClosing, ScriptLine.read_header hNamed,
    List.append_nil]
  rfl

theorem ofLines_scriptLines (hIndent : ∀ c ∈ indent.toList, ScriptLine.isBlank c = true)
    {functions : List ShownFunction} (hNamed : ∀ function ∈ functions, function.Named) :
    ofLines ((scriptLines indent functions).map String.toList) = ⟨[], functions⟩ := by
  induction functions with
  | nil => rfl
  | cons first rest ih =>
      rw [List.forall_mem_cons] at hNamed
      cases rest with
      | nil =>
          rw [scriptLines, List.map_singleton, List.intercalate_singleton, List.map_append,
            ofLines_block hNamed.1 hIndent]
          rfl
      | cons next others =>
          have hLines : (scriptLines indent (first :: next :: others)).map String.toList =
              (first.block indent).map String.toList ++
                [] :: (scriptLines indent (next :: others)).map String.toList := by
            simp [scriptLines]
          rw [hLines, ofLines_block hNamed.1 hIndent, ofLines_cons, ih hNamed.2]
          rfl

end ScriptReading

namespace Script

/-- Documents whose scripts can be read back: all names in them are identifiers,
and lines are indented with spaces and tabs. -/
structure Readable (document : Document) (options : Options) : Prop where
  named : ∀ function ∈ document.scripts, function.Named
  indent : ∀ c ∈ options.indent.toList, ScriptLine.isBlank c = true

variable {document : Document} {options : Options} {script : Compiled}

/-- The lines of a script that has been made are those of what its functions
show, and as such they are read. -/
theorem compile_reads (hReadable : Readable document options)
    (hScript : (compile document options).result = .ok script) :
    ∃ functions : List ShownFunction,
      List.Forall₂ ScriptFunction.Shows document.scripts functions ∧
      script.text.toList.splitOn '\n' =
        (scriptLines options.indent functions).map String.toList ∧
      readScript script.text = functions := by
  have hIndent : '\n' ∉ options.indent.toList := fun hMem =>
    absurd (hReadable.indent '\n' hMem) (by decide)
  obtain ⟨functions, hShows, hSplit⟩ := compile_splits hReadable.named hIndent hScript
  have hNamed := ScriptFunction.named_of_shows hShows hReadable.named
  refine ⟨functions, hShows, hSplit, ?_⟩
  rw [readScript, hSplit, ScriptReading.ofLines_scriptLines hReadable.indent hNamed]

/-- The script is an unambiguous image of the script functions. Between its line
feeds there is one block for each function, in order, with one empty line between
two blocks: the header with the name and the parameters, a line for each popup
that shows its message, and a closing bracket. What each message was is found by
undoing the escapes. From the text alone the functions can be read, so documents
with other functions, parameters or messages have other scripts. -/
theorem script_is_image_of_functions (hReadable : Readable document options)
    (hScript : (compile document options).result = .ok script) :
    ∃ functions : List ShownFunction,
      List.Forall₂ ScriptFunction.Shows document.scripts functions ∧
      script.text.toList.splitOn '\n' =
        (scriptLines options.indent functions).map String.toList ∧
      (∀ function ∈ functions, ∀ message ∈ function.messages,
        Escape.unescape (escapeSingleQuotedScript message).toList = message.toList) ∧
      readScript script.text = functions ∧
      ∀ (other : Document) (options' : Options) (script' : Compiled)
        (functions' : List ShownFunction), Readable other options' →
        (compile other options').result = .ok script' →
        List.Forall₂ ScriptFunction.Shows other.scripts functions' → functions' ≠ functions →
        script'.text ≠ script.text := by
  obtain ⟨functions, hShows, hSplit, hRead⟩ := compile_reads hReadable hScript
  refine ⟨functions, hShows, hSplit, ?_, hRead, ?_⟩
  · intro function hFunction message hMessage
    rw [escapeSingleQuotedScript, String.toList_ofList, Escape.unescape_singleQuotedScript]
  · intro other options' script' functions' hReadable' hScript' hShows' hOther hSame
    obtain ⟨read, hShowsRead, -, hReadOther⟩ := compile_reads hReadable' hScript'
    have hFunctions : functions' = read := ScriptFunction.shows_unique hShows' hShowsRead
    exact hOther (by rw [hFunctions, ← hReadOther, hSame, hRead])

/-- Two functions, one of which shows a message that looks like the end of its
function and the start of another. -/
def forgingDocument : Document where
  head := []
  body := []
  scripts :=
    [⟨"greet", [⟨"who", .string⟩, ⟨"times", .number⟩],
        [.element (.popup (.operation (.string "1 + 1 = ") .add (.number 2))), .div [],
          .element (.popup (.string
            "');\n\x7d\n\nfunction forged() \x7b\n  alert('\\</script>\r"))]⟩,
      ⟨"idle", [], [.element (.imported "other.sui")]⟩]
  components := []

theorem forgingDocument_readable : Readable forgingDocument ⟨" \t", false⟩ where
  named := by
    have hGreet : Call.IsIdentifier "greet" :=
      ⟨'g', ['r', 'e', 'e', 't'], rfl, rfl, by simp [Call.isNameChar]⟩
    have hWho : Call.IsIdentifier "who" :=
      ⟨'w', ['h', 'o'], rfl, rfl, by simp [Call.isNameChar]⟩
    have hTimes : Call.IsIdentifier "times" :=
      ⟨'t', ['i', 'm', 'e', 's'], rfl, rfl, by simp [Call.isNameChar]⟩
    have hIdle : Call.IsIdentifier "idle" :=
      ⟨'i', ['d', 'l', 'e'], rfl, rfl, by simp [Call.isNameChar]⟩
    refine List.forall_mem_cons.mpr ⟨⟨hGreet, ?_⟩, List.forall_mem_singleton.mpr ⟨hIdle, ?_⟩⟩
    · exact List.forall_mem_cons.mpr ⟨hWho, List.forall_mem_singleton.mpr hTimes⟩
    · exact fun _ hMem => absurd hMem List.not_mem_nil
  indent := by simp [ScriptLine.isBlank]

theorem script_is_image_of_forging_functions :
    Readable forgingDocument ⟨" \t", false⟩ ∧
      ∃ script, (compile forgingDocument ⟨" \t", false⟩).result = .ok script ∧
        ∃ functions : List ShownFunction,
          List.Forall₂ ScriptFunction.Shows forgingDocument.scripts functions ∧
          script.text.toList.splitOn '\n' = (scriptLines " \t" functions).map String.toList ∧
          (∀ function ∈ functions, ∀ message ∈ function.messages,
            Escape.unescape (escapeSingleQuotedScript message).toList = message.toList) ∧
          readScript script.text = functions ∧
          ∀ (other : Document) (options' : Options) (script' : Compiled)
            (functions' : List ShownFunction), Readable other options' →
            (compile other options').result = .ok script' →
            List.Forall₂ ScriptFunction.Shows other.scripts functions' → functions' ≠ functions →
            script'.text ≠ script.text := by
  obtain ⟨script, hScript⟩ :
      ∃ script, (compile forgingDocument ⟨" \t", false⟩).result = .ok script := ⟨_, rfl⟩
  have hImage := script_is_image_of_functions forgingDocument_readable hScript
  exact ⟨forgingDocument_readable, script, hScript, hImage⟩

end Script

end PageGen
