import Mathlib.Tactic.SplitIfs
import PageGen.Proofs.References
import PageGen.Html
import PageGen.Script

/-! String literals of script. A literal is read from its opening quote to the
first quote that is not escaped, and neither a line feed nor a carriage return
may stand in it. Both escapes for script write literals that denote the text,
unless there is a carriage return in it, which they leave as it is. -/
namespace PageGen

namespace Escape

/-- What is written for one character of a script string in the given quotes. -/
def scriptChar (quote c : Char) : List Char :=
  if c = '\x5c' then ['\x5c', '\x5c']
  else if c = quote then ['\x5c', quote]
  else if c = '\n' then ['\x5c', 'n']
  else [c]

/-- The substitutions for a script string, the backslash being first and the
quote second. -/
theorem substitute_script {quote : Char} (hBackslash : quote ≠ '\x5c') (hQuote : quote ≠ '\n')
    (text : List Char) :
    substitute '\n' ['\x5c', 'n']
        (substitute quote ['\x5c', quote] (substitute '\x5c' ['\x5c', '\x5c'] text)) =
      text.flatMap (scriptChar quote) := by
  have hOrder : [('\x5c', ['\x5c', '\x5c']), (quote, ['\x5c', quote]),
      ('\n', ['\x5c', 'n'])].Pairwise fun earlier later => later.1 ∉ earlier.2 := by
    simp [hBackslash, hQuote.symm]
  exact successive_eq_flatMap hOrder text

theorem doubleQuotedScript_eq_flatMap (text : List Char) :
    doubleQuotedScript text = text.flatMap (scriptChar '\x22') :=
  substitute_script (by decide) (by decide) text

theorem singleQuotedScript_eq_breakEndTags (text : List Char) :
    singleQuotedScript text = breakEndTags (text.flatMap (scriptChar '\x27')) :=
  congrArg breakEndTags (substitute_script (by decide) (by decide) text)

theorem not_endTag_of_no_match {first : Char} {rest : List Char}
    (hNoTag : ∀ more, first = '<' → rest = '/' :: more → False) :
    ¬(first = '<' ∧ rest.head? = some '/') := by
  rintro ⟨hLess, hSlash⟩
  obtain ⟨more, hRest⟩ := List.head?_eq_some_iff.mp hSlash
  exact hNoTag more hLess hRest

theorem breakEndTags_cons {c : Char} {rest : List Char}
    (hNoTag : ¬(c = '<' ∧ rest.head? = some '/')) :
    breakEndTags (c :: rest) = c :: breakEndTags rest := by
  conv =>
    lhs
    unfold breakEndTags
  split <;> simp_all

theorem head?_breakEndTags (text : List Char) : (breakEndTags text).head? = text.head? := by
  unfold breakEndTags
  split <;> rfl

/-- Breaking end tags brings in nothing but backslashes. -/
theorem mem_breakEndTags {c : Char} (text : List Char) (hOther : c ≠ '\x5c') :
    c ∈ breakEndTags text ↔ c ∈ text := by
  induction text using breakEndTags.induct with
  | case1 rest ih => simp [breakEndTags, ih, hOther]
  | case2 first rest hNoTag ih =>
      rw [breakEndTags_cons (not_endTag_of_no_match hNoTag), List.mem_cons, List.mem_cons, ih]
  | case3 => rfl

/-- No end tag is left. -/
theorem endTag_not_infix_breakEndTags (text : List Char) :
    ¬['<', '/'] <:+: breakEndTags text := by
  induction text using breakEndTags.induct with
  | case1 rest ih => simp [breakEndTags, List.infix_cons_iff, ih]
  | case2 first rest hNoTag ih =>
      have hHead := not_endTag_of_no_match hNoTag
      rw [breakEndTags_cons hHead, List.infix_cons_iff]
      rintro (hPrefix | hInfix)
      · obtain ⟨rfl, hRest⟩ := List.cons_prefix_cons.mp hPrefix
        obtain ⟨more, hMore⟩ := hRest
        rw [← head?_breakEndTags, ← hMore] at hHead
        exact hHead ⟨rfl, rfl⟩
      · exact ih hInfix
  | case3 => simp [breakEndTags]

end Escape

namespace ScriptString

/-- What a backslash and the character behind it stand for. Line continuations
and escapes that name a character by its number, which nothing here writes, are
refused. -/
def escape? (c : Char) : Option Char :=
  if c = 'n' then some '\n'
  else if c = 'r' then some '\r'
  else if c = 't' then some '\t'
  else if c = 'b' then some '\x08'
  else if c = 'f' then some '\x0c'
  else if c = 'v' then some '\x0b'
  else if c ∈ ['x', 'u', '\n', '\r', '\u2028', '\u2029'] ∨ c.isDigit then none
  else some c

/-- Reads from behind the opening quote to behind the first quote that is not
escaped. Gives the text and what comes after the literal. -/
def readBody (quote : Char) : List Char → Option (List Char × List Char)
  | [] => none
  | '\x5c' :: [] => none
  | '\x5c' :: c :: rest =>
    (escape? c).bind fun meant =>
      (readBody quote rest).map fun read => (meant :: read.1, read.2)
  | c :: rest =>
    if c = quote then some ([], rest)
    else if c = '\n' ∨ c = '\r' then none
    else (readBody quote rest).map fun read => (c :: read.1, read.2)

/-- The quotes that a string literal can stand in. -/
def IsQuote (c : Char) : Prop := c = '\x27' ∨ c = '\x22'

instance (c : Char) : Decidable (IsQuote c) := inferInstanceAs (Decidable (_ ∨ _))

/-- Reads a string literal. -/
def read? : List Char → Option (List Char × List Char)
  | [] => none
  | quote :: rest => if IsQuote quote then readBody quote rest else none

/-- The literal denotes the text: whatever comes after it, it is read as the
text and ends with its last character. No line ends within it. -/
structure Denotes (literal text : String) : Prop where
  read : ∀ rest, read? (literal.toList ++ rest) = some (text.toList, rest)
  noLineFeed : '\n' ∉ literal.toList
  noCarriageReturn : '\r' ∉ literal.toList

/-- Whatever follows, this is read as the one character. -/
def StandsFor (quote : Char) (written : List Char) (c : Char) : Prop :=
  ∀ rest, readBody quote (written ++ rest) =
    (readBody quote rest).map fun read => (c :: read.1, read.2)

theorem readBody_cons {quote c : Char} (hBackslash : c ≠ '\x5c') (hQuote : c ≠ quote)
    (hLine : c ≠ '\n') (hReturn : c ≠ '\r') : StandsFor quote [c] c := by
  intro rest
  change readBody quote (c :: rest) = _
  conv =>
    lhs
    unfold readBody
  split <;> simp_all

/-- A backslash before a character that keeps its meaning, or gets another one,
makes the two stand for that one character. -/
theorem standsFor_escape {quote c meant : Char} (hEscape : escape? c = some meant) :
    StandsFor quote ['\x5c', c] meant := by
  intro rest
  change readBody quote ('\x5c' :: c :: rest) = _
  rw [readBody, hEscape, Option.bind_some]

theorem escape?_quote {quote : Char} (hQuote : IsQuote quote) : escape? quote = some quote := by
  rcases hQuote with rfl | rfl <;> rfl

theorem scriptChar_standsFor {quote c : Char} (hQuote : IsQuote quote) (hReturn : c ≠ '\r') :
    StandsFor quote (Escape.scriptChar quote c) c := by
  unfold Escape.scriptChar
  split_ifs with hBackslash hSame hLine
  · subst hBackslash
    exact standsFor_escape rfl
  · subst hSame
    exact standsFor_escape (escape?_quote hQuote)
  · subst hLine
    exact standsFor_escape rfl
  · exact readBody_cons hBackslash hSame hLine hReturn

theorem readBody_closing {quote : Char} (hQuote : IsQuote quote) (rest : List Char) :
    readBody quote (quote :: rest) = some ([], rest) := by
  rcases hQuote with rfl | rfl <;> rfl

theorem readBody_doubleQuoted {text : List Char} (hReturn : '\r' ∉ text) (rest : List Char) :
    readBody '\x22' (text.flatMap (Escape.scriptChar '\x22') ++ '\x22' :: rest) =
      some (text, rest) := by
  induction text with
  | nil => exact readBody_closing (.inr rfl) rest
  | cons c text ih =>
      rw [List.mem_cons, not_or] at hReturn
      rw [List.flatMap_cons, List.append_assoc,
        scriptChar_standsFor (.inr rfl) (Ne.symm hReturn.1), ih hReturn.2]
      rfl

/-- What is written for a character starts with a slash only for a slash. -/
theorem head?_flatMap_scriptChar (text : List Char) :
    (text.flatMap (Escape.scriptChar '\x27')).head? = some '/' ↔ text.head? = some '/' := by
  cases text with
  | nil => rfl
  | cons c rest =>
      rw [List.flatMap_cons]
      unfold Escape.scriptChar
      split_ifs <;> simp_all

/-- Breaking end tags goes on behind what is written for one character. -/
theorem breakEndTags_scriptChar {c : Char} {text : List Char}
    (hNoTag : ¬(c = '<' ∧ text.head? = some '/')) :
    Escape.breakEndTags
        (Escape.scriptChar '\x27' c ++ text.flatMap (Escape.scriptChar '\x27')) =
      Escape.scriptChar '\x27' c ++
        Escape.breakEndTags (text.flatMap (Escape.scriptChar '\x27')) := by
  rw [← head?_flatMap_scriptChar] at hNoTag
  unfold Escape.scriptChar at hNoTag ⊢
  split_ifs with hBackslash hQuote hLine
  · simp [Escape.breakEndTags_cons]
  · simp [Escape.breakEndTags_cons]
  · simp [Escape.breakEndTags_cons]
  · exact Escape.breakEndTags_cons hNoTag

/-- The backslashes in broken end tags are not read as part of the text. -/
theorem readBody_singleQuoted {text : List Char} (hReturn : '\r' ∉ text) (rest : List Char) :
    readBody '\x27' (Escape.breakEndTags (text.flatMap (Escape.scriptChar '\x27')) ++
      '\x27' :: rest) = some (text, rest) := by
  -- An end tag is two characters of the text, so the induction takes them together.
  induction text using Escape.breakEndTags.induct with
  | case1 text ih =>
      have hWritten : ('<' :: '/' :: text).flatMap (Escape.scriptChar '\x27') =
          '<' :: '/' :: text.flatMap (Escape.scriptChar '\x27') := rfl
      have hLess := @readBody_cons '\x27' '<'
        (by decide) (by decide) (by decide) (by decide)
      have hSlash := @standsFor_escape '\x27' '/' '/' rfl
      simp only [List.mem_cons, not_or] at hReturn
      rw [hWritten, Escape.breakEndTags]
      change readBody '\x27' (['<'] ++ (['\x5c', '/'] ++ (_ ++ '\x27' :: rest))) = _
      rw [hLess, hSlash, ih hReturn.2.2]
      rfl
  | case2 c text hNoTag ih =>
      have hHead := Escape.not_endTag_of_no_match hNoTag
      rw [List.mem_cons, not_or] at hReturn
      rw [List.flatMap_cons, breakEndTags_scriptChar hHead, List.append_assoc,
        scriptChar_standsFor (.inl rfl) (Ne.symm hReturn.1), ih hReturn.2]
      rfl
  | case3 => exact readBody_closing (.inl rfl) rest

/-- A character that is written as it stands, and that no other is written
with, occurs in what is written exactly if it occurs in the text. -/
theorem mem_flatMap_iff {write : Char → List Char} {character : Char}
    (hWrite : ∀ c, character ∈ write c ↔ c = character) (text : List Char) :
    character ∈ text.flatMap write ↔ character ∈ text := by
  simp [List.mem_flatMap, hWrite]

theorem return_mem_scriptChar {quote : Char} (hQuote : IsQuote quote) (c : Char) :
    '\r' ∈ Escape.scriptChar quote c ↔ c = '\r' := by
  unfold Escape.scriptChar
  rcases hQuote with rfl | rfl <;> split_ifs <;> simp_all [eq_comm]

theorem lineFeed_not_mem_scriptChar {quote : Char} (hQuote : IsQuote quote) (c : Char) :
    '\n' ∉ Escape.scriptChar quote c := by
  unfold Escape.scriptChar
  rcases hQuote with rfl | rfl <;> split_ifs <;> simp_all [eq_comm]

end ScriptString

open ScriptString

/-- The argument that a message is shown with. -/
def alertLiteral (text : String) : String := "'" ++ escapeSingleQuotedScript text ++ "'"

theorem toList_alertLiteral (text : String) :
    (alertLiteral text).toList =
      '\x27' :: (Escape.breakEndTags (text.toList.flatMap (Escape.scriptChar '\x27')) ++ ['\x27']) := by
  simp [alertLiteral, escapeSingleQuotedScript, Escape.singleQuotedScript_eq_breakEndTags]

theorem toList_callArgument_string (text : String) :
    (Html.callArgument (.string text)).toList =
      '\x22' :: (text.toList.flatMap (Escape.scriptChar '\x22') ++ ['\x22']) := by
  simp [Html.callArgument, escapeDoubleQuotedScript, Escape.doubleQuotedScript_eq_flatMap]

theorem lineFeed_not_mem_alertLiteral (text : String) : '\n' ∉ (alertLiteral text).toList := by
  rw [toList_alertLiteral]
  have hBody := Reference.not_mem_flatMap (lineFeed_not_mem_scriptChar (.inl rfl)) text.toList
  simp only [List.mem_cons, List.mem_append, List.not_mem_nil,
    Escape.mem_breakEndTags _ (show '\n' ≠ '\x5c' by decide), hBody]
  decide

theorem lineFeed_not_mem_callArgument (text : String) :
    '\n' ∉ (Html.callArgument (.string text)).toList := by
  rw [toList_callArgument_string]
  have hBody := Reference.not_mem_flatMap (lineFeed_not_mem_scriptChar (.inr rfl)) text.toList
  simp only [List.mem_cons, List.mem_append, List.not_mem_nil, hBody]
  decide

/-- A carriage return is the one character that neither escape replaces. -/
theorem return_mem_alertLiteral (text : String) :
    '\r' ∈ (alertLiteral text).toList ↔ '\r' ∈ text.toList := by
  rw [toList_alertLiteral]
  simp [Escape.mem_breakEndTags, mem_flatMap_iff (return_mem_scriptChar (.inl rfl))]

theorem return_mem_callArgument (text : String) :
    '\r' ∈ (Html.callArgument (.string text)).toList ↔ '\r' ∈ text.toList := by
  rw [toList_callArgument_string]
  simp [mem_flatMap_iff (return_mem_scriptChar (.inr rfl))]

theorem alertLiteral_denotes_iff (text : String) :
    Denotes (alertLiteral text) text ↔ '\r' ∉ text.toList := by
  constructor
  · intro hDenotes hReturn
    exact hDenotes.noCarriageReturn ((return_mem_alertLiteral text).mpr hReturn)
  · intro hReturn
    refine ⟨fun rest => ?_, lineFeed_not_mem_alertLiteral text,
      (not_congr (return_mem_alertLiteral text)).mpr hReturn⟩
    rw [toList_alertLiteral]
    simpa [read?, IsQuote] using readBody_singleQuoted hReturn rest

theorem callArgument_denotes_iff (text : String) :
    Denotes (Html.callArgument (.string text)) text ↔ '\r' ∉ text.toList := by
  constructor
  · intro hDenotes hReturn
    exact hDenotes.noCarriageReturn ((return_mem_callArgument text).mpr hReturn)
  · intro hReturn
    refine ⟨fun rest => ?_, lineFeed_not_mem_callArgument text,
      (not_congr (return_mem_callArgument text)).mpr hReturn⟩
    rw [toList_callArgument_string]
    simpa [read?, IsQuote] using readBody_doubleQuoted hReturn rest

/-- A `</` could only stand behind the opening quote, which is no part of one. -/
theorem endTag_not_infix_alertLiteral (text : String) :
    ¬['<', '/'] <:+: (alertLiteral text).toList := by
  rw [toList_alertLiteral, List.infix_cons_iff]
  rintro (hPrefix | hInfix)
  · simp at hPrefix
  · have hSnoc : ∀ written : List Char, ['<', '/'] <:+: written ++ ['\x27'] →
        ['<', '/'] <:+: written := by
      rintro written ⟨before, after, hText⟩
      rcases List.eq_nil_or_concat after with rfl | ⟨others, last, rfl⟩
      · have hLast := congrArg List.getLast? hText
        simp at hLast
      · rw [List.concat_eq_append, ← List.append_assoc] at hText
        obtain ⟨hWritten, -⟩ := List.append_inj' hText rfl
        exact ⟨before, others, hWritten⟩
    exact Escape.endTag_not_infix_breakEndTags _ (hSnoc _ hInfix)

/-- Every string literal of script denotes the text it is made of, unless there
is a carriage return in the text, which then stands in the literal as well and
makes it invalid. This holds for the message of an alert, which moreover never
ends the script by a `</`, and for a string among the arguments of a call, as it
is found once the references of the attribute around it are read. -/
theorem script_literals_denote_iff (text : String) :
    (∀ message : Expr, (Script.statement (.element (.popup message))).result =
      (message.evaluate Context.empty).result.map fun value =>
        .written [.line ("alert(" ++ alertLiteral value.text ++ ");")]) ∧
    (Denotes (alertLiteral text) text ↔ '\r' ∉ text.toList) ∧
    '\n' ∉ (alertLiteral text).toList ∧
    ¬['<', '/'] <:+: (alertLiteral text).toList ∧
    (∀ before behind, decodeReferences
      (escapeSingleQuoted (before ++ Html.callArgument (.string text) ++ behind)) =
        before ++ Html.callArgument (.string text) ++ behind) ∧
    (Denotes (Html.callArgument (.string text)) text ↔ '\r' ∉ text.toList) ∧
    '\n' ∉ (Html.callArgument (.string text)).toList := by
  refine ⟨fun message => ?_, alertLiteral_denotes_iff text, lineFeed_not_mem_alertLiteral text,
    endTag_not_infix_alertLiteral text, fun before behind => by simp,
    callArgument_denotes_iff text, lineFeed_not_mem_callArgument text⟩
  rw [Script.statement, Run.result_bind]
  cases (message.evaluate Context.empty).result with
  | error cause => rfl
  | ok value =>
      have hLine : "alert('" ++ escapeSingleQuotedScript value.text ++ "');" =
          "alert(" ++ alertLiteral value.text ++ ");" := String.ext (by simp [alertLiteral])
      simp only [Except.bind, Except.map, Run.result_pure, hLine]

/-- A carriage return stays as it is in either literal, where it may not stand. -/
theorem carriage_return_breaks_literals :
    ¬Denotes (alertLiteral "\r") "\r" ∧ ¬Denotes (Html.callArgument (.string "\r")) "\r" := by
  rw [alertLiteral_denotes_iff, callArgument_denotes_iff]
  decide

end PageGen
