import PageGen.Proofs.NumberText
import PageGen.Proofs.Run
import PageGen.Proofs.ScriptLiterals

/-! Calls in attributes. The reader here goes through a call character by
character and knows nothing of how it was written: a name, and in brackets
behind it arguments with commas between them, each of which is a string in
double quotes or a bare token. It finds the action and the arguments of a button
in the text of its attribute. -/
namespace PageGen

namespace Call

/-- An argument as it is read. -/
inductive Argument where
  | quoted (text : List Char)
  | bare (token : List Char)
  deriving DecidableEq, Repr

/-- What an argument of this value has to be read as. -/
def Argument.ofValue : Value → Argument
  | .string text => .quoted text.toList
  | .number x => .bare (numberText x).toList

/-- Where the reader stands in a call. -/
inductive Stage where
  | name
  /-- Behind the opening bracket, where an argument or the closing bracket follows. -/
  | opened
  /-- Behind a comma, where an argument has to follow. -/
  | due
  | quoted (read : List Char)
  /-- Behind a backslash in a string. -/
  | escaped (read : List Char)
  | bare (read : List Char)
  /-- Behind a closing quote. -/
  | behind
  | closed
  deriving DecidableEq, Repr

/-- What has been read of a call: its name and the arguments that are complete. -/
structure Reading where
  name : List Char
  arguments : List Argument
  stage : Stage
  deriving DecidableEq, Repr

/-- The characters of names. Above ASCII everything is taken for a letter. -/
def isNameChar (c : Char) : Bool := c.isAlphanum || c == '_' || c == '$' || decide (0x80 ≤ c.toNat)

/-- The characters that can stand neither in a bare token nor at its start. -/
def isDelimiter (c : Char) : Bool := ['\x22', ',', '(', ')', ' '].contains c

namespace Reading

def start : Reading := ⟨[], [], .name⟩

/-- The first character of an argument. -/
def beginArgument (reading : Reading) (c : Char) : Option Reading :=
  if c = '\x22' then some { reading with stage := .quoted [] }
  else if isDelimiter c then none
  else some { reading with stage := .bare [c] }

/-- A character behind the arguments that are complete. -/
def endArgument (reading : Reading) (c : Char) : Option Reading :=
  if c = ',' then some { reading with stage := .due }
  else if c = ')' then some { reading with stage := .closed }
  else none

def addArgument (reading : Reading) (argument : Argument) : Reading :=
  { reading with arguments := reading.arguments ++ [argument] }

def step (reading : Reading) (c : Char) : Option Reading :=
  match reading.stage with
  | .name =>
    if isNameChar c then some { reading with name := reading.name ++ [c] }
    else if c = '(' ∧ reading.name ≠ [] then some { reading with stage := .opened }
    else none
  | .opened =>
    if c = ')' then some { reading with stage := .closed } else reading.beginArgument c
  | .due => if c = ' ' then some reading else reading.beginArgument c
  | .quoted read =>
    if c = '\x22' then some { reading.addArgument (.quoted read) with stage := .behind }
    else if c = '\x5c' then some { reading with stage := .escaped read }
    else some { reading with stage := .quoted (read ++ [c]) }
  | .escaped read =>
    some { reading with stage := .quoted (read ++ [if c = 'n' then '\n' else c]) }
  | .bare read =>
    if isDelimiter c then (reading.addArgument (.bare read)).endArgument c
    else some { reading with stage := .bare (read ++ [c]) }
  | .behind => reading.endArgument c
  | .closed => none

end Reading

/-- The name and the arguments of a call, if this is one and nothing else. -/
def read? (text : String) : Option (String × List Argument) := do
  let reading ← text.toList.foldlM Reading.step Reading.start
  if reading.stage = .closed then some (String.ofList reading.name, reading.arguments) else none

/-- A name that begins with no digit. -/
def IsIdentifier (name : String) : Prop :=
  ∃ first rest, name.toList = first :: rest ∧ first.isDigit = false ∧
    ∀ c ∈ first :: rest, isNameChar c = true

variable {name text : List Char} {arguments : List Argument}

/-- Reading goes on where it has come to. -/
theorem foldlM_append {reading next : Reading} {first : List Char}
    (hFirst : first.foldlM Reading.step reading = some next) (rest : List Char) :
    (first ++ rest).foldlM Reading.step reading = rest.foldlM Reading.step next := by
  rw [List.foldlM_append, hFirst]
  rfl

theorem foldlM_cons {reading next : Reading} {c : Char} (hStep : reading.step c = some next)
    (rest : List Char) :
    (c :: rest).foldlM Reading.step reading = rest.foldlM Reading.step next := by
  rw [List.foldlM_cons, hStep]
  rfl

theorem foldlM_name (hText : ∀ c ∈ text, isNameChar c = true) :
    text.foldlM Reading.step ⟨name, arguments, .name⟩ = some ⟨name ++ text, arguments, .name⟩ := by
  induction text generalizing name with
  | nil => simp
  | cons c rest ih =>
      rw [List.forall_mem_cons] at hText
      have hStep : Reading.step ⟨name, arguments, .name⟩ c =
          some ⟨name ++ [c], arguments, .name⟩ := by simp [Reading.step, hText.1]
      rw [foldlM_cons hStep, ih hText.2, List.append_assoc]
      rfl

/-- What is written for a character of a string is read as that character. -/
theorem foldlM_scriptChar (read : List Char) (c : Char) :
    (Escape.scriptChar '\x22' c).foldlM Reading.step ⟨name, arguments, .quoted read⟩ =
      some ⟨name, arguments, .quoted (read ++ [c])⟩ := by
  unfold Escape.scriptChar
  split_ifs with hBackslash hQuote hLine
  · simp [Reading.step, hBackslash]
  · simp [Reading.step, hQuote]
  · simp [Reading.step, hLine]
  · simp [Reading.step, hBackslash, hQuote]

theorem foldlM_string (read : List Char) :
    (text.flatMap (Escape.scriptChar '\x22')).foldlM Reading.step
        ⟨name, arguments, .quoted read⟩ =
      some ⟨name, arguments, .quoted (read ++ text)⟩ := by
  induction text generalizing read with
  | nil => simp
  | cons c rest ih =>
      rw [List.flatMap_cons, foldlM_append (foldlM_scriptChar read c), ih, List.append_assoc]
      rfl

theorem isDelimiter_eq_false {c : Char} (hNumber : IsNumberChar c) : isDelimiter c = false := by
  have hNone : ∀ d ∈ ['\x22', ',', '(', ')', ' '], ¬IsNumberChar d := by
    simp [IsNumberChar]
  rw [isDelimiter, List.contains_eq_mem, decide_eq_false_iff_not]
  exact fun hMem => hNone c hMem hNumber

/-- What is no delimiter begins a bare token wherever an argument may begin. -/
theorem step_bare {stage : Stage} (hStage : stage = .opened ∨ stage = .due) {c : Char}
    (hPlain : isDelimiter c = false) :
    Reading.step ⟨name, arguments, stage⟩ c = some ⟨name, arguments, .bare [c]⟩ := by
  have hOther : c ≠ '\x22' ∧ c ≠ ')' ∧ c ≠ ' ' := by
    refine ⟨?_, ?_, ?_⟩ <;> rintro rfl <;> exact absurd hPlain (by decide)
  rcases hStage with rfl | rfl <;> simp [Reading.step, Reading.beginArgument, hPlain, hOther]

theorem foldlM_bare (hText : ∀ c ∈ text, isDelimiter c = false) (read : List Char) :
    text.foldlM Reading.step ⟨name, arguments, .bare read⟩ =
      some ⟨name, arguments, .bare (read ++ text)⟩ := by
  induction text generalizing read with
  | nil => simp
  | cons c rest ih =>
      rw [List.forall_mem_cons] at hText
      have hStep : Reading.step ⟨name, arguments, .bare read⟩ c =
          some ⟨name, arguments, .bare (read ++ [c])⟩ := by simp [Reading.step, hText.1]
      rw [foldlM_cons hStep, ih hText.2, List.append_assoc]
      rfl

/-- The reader has gone through an argument: a comma or a closing bracket takes
it in, and nothing else of the argument is to come. -/
structure Complete (name : List Char) (arguments : List Argument) (reading : Reading) : Prop where
  comma : reading.step ',' = some ⟨name, arguments, .due⟩
  bracket : reading.step ')' = some ⟨name, arguments, .closed⟩

/-- Where an argument may begin it is read as its value. -/
theorem complete_argument {stage : Stage} (hStage : stage = .opened ∨ stage = .due)
    (value : Value) :
    ∃ reading, (Html.callArgument value).toList.foldlM Reading.step ⟨name, arguments, stage⟩ =
        some reading ∧ Complete name (arguments ++ [Argument.ofValue value]) reading := by
  cases value with
  | string text =>
      refine ⟨⟨name, arguments ++ [.quoted text.toList], .behind⟩, ?_, rfl, rfl⟩
      have hOpen : Reading.step ⟨name, arguments, stage⟩ '\x22' =
          some ⟨name, arguments, .quoted []⟩ := by
        rcases hStage with rfl | rfl <;> rfl
      rw [toList_callArgument_string, foldlM_cons hOpen, foldlM_append (foldlM_string [])]
      rfl
  | number x =>
      have hText : ∀ c ∈ (numberText x).toList, isDelimiter c = false := by
        intro c hMem
        rw [numberText, String.toList_ofList] at hMem
        exact isDelimiter_eq_false (NumberText.isNumberChar_of_mem hMem)
      have hNonempty : (numberText x).toList ≠ [] := by
        rw [numberText, String.toList_ofList]
        exact NumberText.ofBits_ne_nil _
      obtain ⟨first, rest, hChars⟩ := List.exists_cons_of_ne_nil hNonempty
      refine ⟨⟨name, arguments, .bare (numberText x).toList⟩, ?_, rfl, rfl⟩
      rw [hChars, List.forall_mem_cons] at hText
      rw [Html.callArgument, hChars, foldlM_cons (step_bare hStage hText.1), foldlM_bare hText.2]
      rfl

/-- Arguments with commas between them are read in order, up to the closing
bracket. -/
theorem foldlM_arguments {stage : Stage} (hStage : stage = .opened ∨ stage = .due)
    (value : Value) (values : List Value) :
    ((", ".intercalate ((value :: values).map Html.callArgument)).toList ++ [')']).foldlM
        Reading.step ⟨name, arguments, stage⟩ =
      some ⟨name, arguments ++ (value :: values).map Argument.ofValue, .closed⟩ := by
  induction values generalizing value arguments stage with
  | nil =>
      obtain ⟨reading, hReading, hComplete⟩ :=
        @complete_argument name arguments _ hStage value
      have hText : (", ".intercalate ([value].map Html.callArgument)).toList =
          (Html.callArgument value).toList := by simp
      rw [hText, foldlM_append hReading, foldlM_cons hComplete.bracket]
      rfl
  | cons next rest ih =>
      obtain ⟨reading, hReading, hComplete⟩ :=
        @complete_argument name arguments _ hStage value
      have hText : (", ".intercalate ((value :: next :: rest).map Html.callArgument)).toList =
          (Html.callArgument value).toList ++
            (',' :: ' ' :: (", ".intercalate ((next :: rest).map Html.callArgument)).toList) := by
        simp
      have hBlank : Reading.step ⟨name, arguments ++ [Argument.ofValue value], .due⟩ ' ' =
          some ⟨name, arguments ++ [Argument.ofValue value], .due⟩ := rfl
      rw [hText, List.append_assoc, foldlM_append hReading, List.cons_append, List.cons_append,
        foldlM_cons hComplete.comma, foldlM_cons hBlank, ih (.inr rfl), List.append_assoc]
      rfl

/-- A call as it is written is read as its name and its arguments. -/
theorem read?_call {name : String} (hName : IsIdentifier name) (values : List Value) :
    read? (name ++ "(" ++ ", ".intercalate (values.map Html.callArgument) ++ ")") =
      some (name, values.map Argument.ofValue) := by
  obtain ⟨first, rest, hChars, -, hPlain⟩ := hName
  have hOpen : Reading.step ⟨name.toList, [], .name⟩ '(' = some ⟨name.toList, [], .opened⟩ := by
    simp [Reading.step, hChars, isNameChar]
  have hClosed : ((", ".intercalate (values.map Html.callArgument)).toList ++ [')']).foldlM
      Reading.step ⟨name.toList, [], .opened⟩ =
        some ⟨name.toList, values.map Argument.ofValue, .closed⟩ := by
    cases values with
    | nil => rfl
    | cons value values => exact foldlM_arguments (.inl rfl) value values
  have hRead : (name ++ "(" ++ ", ".intercalate (values.map Html.callArgument) ++ ")").toList =
      name.toList ++
        ('(' :: ((", ".intercalate (values.map Html.callArgument)).toList ++ [')'])) := by
    simp
  rw [← hChars] at hPlain
  rw [read?, hRead, Reading.start, foldlM_append (foldlM_name hPlain), List.nil_append,
    foldlM_cons hOpen, hClosed]
  simp

end Call

namespace Html

/-- The arguments of a call are written one by one if all of them have values. -/
theorem callArguments_result {context : Context} {arguments : List Expr} {values : List Value}
    (hValues : (arguments.map fun argument => (argument.evaluate context).result) =
      values.map .ok) :
    (callArguments context arguments).result = .ok (values.map callArgument) := by
  induction arguments generalizing values with
  | nil =>
      obtain rfl : values = [] := by simpa using hValues.symm
      rfl
  | cons argument rest ih =>
      cases values with
      | nil => simp at hValues
      | cons value values =>
          obtain ⟨hFirst, hRest⟩ := List.cons.inj hValues
          exact Run.result_bind_eq_ok_iff.mpr ⟨value, hFirst,
            Run.result_bind_eq_ok_iff.mpr ⟨_, ih hRest, rfl⟩⟩

/-- The attribute of a button encodes its call without ambiguity. If the action
is an identifier and all arguments have values, the text between the quotes of
the attribute does not end it early, and with its references read it is a call of
the action with exactly these arguments: every string is found in quotes,
character by character, and every number as a bare token. -/
theorem onclick_encodes_call {context : Context} {action : String} {arguments : List Expr}
    {values : List Value} (hAction : Call.IsIdentifier action)
    (hValues : (arguments.map fun argument => (argument.evaluate context).result) =
      values.map .ok) (text : Expr) :
    ∃ written : String,
      (bodyElement context (.button text (some action) arguments)).result =
        (textContent context text).result.map (fun label =>
          single ("<button onclick='" ++ written ++ "'>" ++ label ++ "</button>")) ∧
      '\x27' ∉ written.toList ∧
      Call.read? (decodeReferences written) =
        some (action, values.map Call.Argument.ofValue) := by
  refine ⟨escapeSingleQuoted
    (action ++ "(" ++ ", ".intercalate (values.map callArgument) ++ ")"), ?_, ?_, ?_⟩
  · rw [bodyElement]
    simp only [Run.result_bind, callArguments_result hValues]
    cases (textContent context text).result <;> rfl
  · rw [escapeSingleQuoted, String.toList_ofList]
    exact Reference.quote_not_mem_singleQuoted _
  · rw [decodeReferences_escapeSingleQuoted, Call.read?_call hAction]

/-- A card whose one parameter is bound to text that looks like the end of the
string, of the argument and of the attribute. -/
def quotingContext : Context :=
  ⟨[⟨"card", [⟨"said", .string, .string "\"), '>&quot;\\\n"⟩]⟩]⟩

def quotingArguments : List Expr := [.symbol "said", .number 2, .string "2", .symbol "unbound"]

def quotingValues : List Value :=
  [.string "\"), '>&quot;\\\n", .number 2, .string "2", .string ""]

theorem onclick_of_quotes_encodes_call :
    Call.IsIdentifier "say" ∧
      (quotingArguments.map fun argument => (argument.evaluate quotingContext).result) =
        quotingValues.map .ok ∧
      ∃ written : String,
        (bodyElement quotingContext
            (.button (.string "Say") (some "say") quotingArguments)).result =
          (textContent quotingContext (.string "Say")).result.map (fun label =>
            single ("<button onclick='" ++ written ++ "'>" ++ label ++ "</button>")) ∧
        '\x27' ∉ written.toList ∧
        Call.read? (decodeReferences written) =
          some ("say", quotingValues.map Call.Argument.ofValue) := by
  have hAction : Call.IsIdentifier "say" := ⟨'s', ['a', 'y'], rfl, rfl, by simp [Call.isNameChar]⟩
  have hValues : (quotingArguments.map fun argument =>
      (argument.evaluate quotingContext).result) = quotingValues.map .ok := rfl
  exact ⟨hAction, hValues, onclick_encodes_call hAction hValues (.string "Say")⟩

end Html

end PageGen
