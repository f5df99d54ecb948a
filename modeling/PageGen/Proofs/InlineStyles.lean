import PageGen.Proofs.Kinds
import PageGen.Proofs.Splitting

/-! Inline styles as a reader of style sheets takes them: cut at every semicolon,
and each piece at its first colon. The names that are let through are a closed
list, but a value goes into the text as it is, so a semicolon in it ends the
declaration and starts another one. -/
namespace PageGen

/-- The properties that are let through, under their names in a style sheet, with
the expressions for their values. -/
def recognizedStyles (styles : List StyleDeclaration) : List (String × Expr) :=
  styles.filterMap fun declaration =>
    (cssName? declaration.property).map fun name => (name, declaration.value)

/-- The properties that are let through with the texts of their values. -/
def declaredStyles (context : Context) (styles : List StyleDeclaration) :
    Except Failure (List (String × String)) :=
  (recognizedStyles styles).mapM fun entry => (entry.2.textIn context).map fun text => (entry.1, text)

/-- Declarations one after another. -/
def styleText (declared : List (String × String)) : String :=
  String.join (declared.map fun entry => entry.1 ++ ":" ++ entry.2 ++ "; ")

namespace InlineStyle

/-- The blanks of a style sheet. -/
def isBlank (c : Char) : Bool := c == ' ' || c == '\t' || c == '\n' || c == '\r' || c == '\x0c'

/-- Reads a piece between two semicolons: the name up to the first colon, without
the blanks in front of it, and what is behind the colon. A blank piece is none. -/
def readPiece? (piece : List Char) : Option (String × String) :=
  let text := piece.dropWhile isBlank
  if text = [] then none
  else some (String.ofList (text.takeWhile (· ≠ ':')),
    String.ofList ((text.dropWhile (· ≠ ':')).drop 1))

/-- Reads the text of a style attribute as names and values. -/
def read (text : String) : List (String × String) :=
  (text.toList.splitOn ';').filterMap readPiece?

/-- The properties that a style attribute is meant to set. -/
def properties : List String := ["color", "font-size", "height", "width", "background-color"]

variable {declared : List (String × String)}

theorem isBlank_eq_false_of_properties {name : String} (hName : name ∈ properties) :
    ∃ first rest, name.toList = first :: rest ∧ isBlank first = false ∧ ':' ∉ name.toList ∧
      ';' ∉ name.toList := by
  simp only [properties, List.mem_cons, List.not_mem_nil, or_false] at hName
  rcases hName with rfl | rfl | rfl | rfl | rfl <;>
    exact ⟨_, _, rfl, by decide, by decide, by decide⟩

/-- A piece as it is written, behind any blanks, is read as what it was written
for. -/
theorem readPiece?_written {blanks : List Char} (hBlanks : ∀ c ∈ blanks, isBlank c = true)
    {name : String} (hName : name ∈ properties) (value : String) :
    readPiece? (blanks ++ (name.toList ++ ':' :: value.toList)) = some (name, value) := by
  obtain ⟨first, rest, hChars, hFirst, hColon, -⟩ := isBlank_eq_false_of_properties hName
  have hText : (blanks ++ (name.toList ++ ':' :: value.toList)).dropWhile isBlank =
      name.toList ++ ':' :: value.toList := by
    rw [List.dropWhile_append_of_pos hBlanks, hChars]
    simp [hFirst]
  have hPlain : ∀ c ∈ name.toList, decide (c ≠ ':') = true := by
    intro c hMem
    exact decide_eq_true fun hSame => hColon (hSame ▸ hMem)
  rw [readPiece?, hText]
  simp only [List.append_eq_nil_iff, reduceCtorEq, and_false, if_false,
    List.takeWhile_append_of_pos hPlain, List.dropWhile_append_of_pos hPlain]
  simp

/-- Declarations without semicolons in their values are read back, behind any
blanks. -/
theorem filterMap_splitOn_styleText {blanks : List Char} (hBlanks : ∀ c ∈ blanks, isBlank c = true)
    (hNames : ∀ entry ∈ declared, entry.1 ∈ properties)
    (hValues : ∀ entry ∈ declared, ';' ∉ entry.2.toList) :
    ((blanks ++ (styleText declared).toList).splitOn ';').filterMap readPiece? = declared := by
  have hOpen : ∀ {blanks : List Char}, (∀ c ∈ blanks, isBlank c = true) → ';' ∉ blanks := by
    intro blanks hBlanks hMem
    exact absurd (hBlanks _ hMem) (by decide)
  induction declared generalizing blanks with
  | nil =>
      have hNone : readPiece? blanks = none := by
        have hBlank : blanks.dropWhile isBlank = [] := by
          rw [← List.append_nil blanks, List.dropWhile_append_of_pos hBlanks, List.dropWhile_nil]
        simp [readPiece?, hBlank]
      simp [styleText, List.splitOn_eq_singleton (hOpen hBlanks), hNone]
  | cons entry rest ih =>
      rw [List.forall_mem_cons] at hNames hValues
      obtain ⟨-, -, -, -, -, hName⟩ := isBlank_eq_false_of_properties hNames.1
      have hText : blanks ++ (styleText (entry :: rest)).toList =
          (blanks ++ (entry.1.toList ++ ':' :: entry.2.toList)) ++
            ';' :: ([' '] ++ (styleText rest).toList) := by
        simp [styleText]
      have hPiece : ';' ∉ blanks ++ (entry.1.toList ++ ':' :: entry.2.toList) := by
        simp [hOpen hBlanks, hName, hValues.1]
      rw [hText, List.splitOn_append_cons_self_of_not_mem hPiece,
        List.filterMap_cons_some (readPiece?_written hBlanks hNames.1 entry.2),
        ih (by simp [isBlank]) hNames.2 hValues.2]

/-- Nothing that is read has a semicolon in its value. -/
theorem semicolon_not_mem_of_mem_read {text : String} {entry : String × String}
    (hEntry : entry ∈ read text) : ';' ∉ entry.2.toList := by
  obtain ⟨piece, hPiece, hRead⟩ := List.mem_filterMap.mp hEntry
  rw [readPiece?] at hRead
  split at hRead
  · cases hRead
  · obtain rfl := Option.some.inj hRead
    intro hMem
    rw [String.toList_ofList] at hMem
    have hSuffix := (List.drop_suffix 1 _).trans
      ((List.dropWhile_suffix (· ≠ ':')).trans (List.dropWhile_suffix isBlank (l := piece)))
    exact not_mem_of_mem_splitOn hPiece (hSuffix.subset hMem)

end InlineStyle

theorem cssName?_mem_properties {property name : String} (hName : cssName? property = some name) :
    name ∈ InlineStyle.properties := by
  have hTable : ∀ entry ∈ styleProperties, entry.2 ∈ InlineStyle.properties := by decide
  obtain ⟨before, after, hSplit, -⟩ := List.lookup_eq_some_iff.mp hName
  exact hTable (property, name) (by simp [hSplit])

theorem declaredStyles_cons (context : Context) (declaration : StyleDeclaration)
    (rest : List StyleDeclaration) :
    declaredStyles context (declaration :: rest) =
      match cssName? declaration.property with
      | none => declaredStyles context rest
      | some name => (do
        let text ← declaration.value.textIn context
        let others ← declaredStyles context rest
        pure ((name, text) :: others)) := by
  unfold declaredStyles recognizedStyles
  cases hName : cssName? declaration.property with
  | none => rw [List.filterMap_cons_none (by rw [hName]; rfl)]
  | some name =>
      rw [List.filterMap_cons_some (by rw [hName]; rfl), List.mapM_cons]
      cases declaration.value.textIn context <;> rfl

/-- An inline style is the text of the properties that are let through. -/
theorem inlineStyle_result (context : Context) (styles : List StyleDeclaration) :
    (inlineStyle context styles).result = (declaredStyles context styles).map styleText := by
  induction styles with
  | nil => rfl
  | cons declaration rest ih =>
      rw [inlineStyle, StyleDeclaration.css, declaredStyles_cons]
      cases cssName? declaration.property with
      | none =>
          simp only [Run.result_bind, Run.result_log, Run.result_pure, Except.bind, ih]
          cases declaredStyles context rest with
          | error cause => rfl
          | ok others => simp [Except.map]
      | some name =>
          simp only [Run.result_bind, Run.result_pure, ih, Expr.textIn]
          cases (declaration.value.evaluate context).result with
          | error cause => rfl
          | ok value =>
              cases declaredStyles context rest with
              | error cause => rfl
              | ok others => simp [Except.bind, Except.map, Bind.bind, pure, Except.pure, styleText]

theorem mem_properties_of_declaredStyles {context : Context} {styles : List StyleDeclaration}
    {declared : List (String × String)} (hDeclared : declaredStyles context styles = .ok declared) :
    ∀ entry ∈ declared, entry.1 ∈ InlineStyle.properties := by
  induction styles generalizing declared with
  | nil =>
      obtain rfl := Except.ok.inj hDeclared
      exact fun entry hEntry => absurd hEntry List.not_mem_nil
  | cons declaration rest ih =>
      rw [declaredStyles_cons] at hDeclared
      cases hName : cssName? declaration.property with
      | none =>
          rw [hName] at hDeclared
          exact ih hDeclared
      | some name =>
          rw [hName] at hDeclared
          obtain ⟨text, -, hMore⟩ := except_bind_eq_ok_iff.mp hDeclared
          obtain ⟨others, hOthers, hAll⟩ := except_bind_eq_ok_iff.mp hMore
          obtain rfl := Except.ok.inj hAll
          exact List.forall_mem_cons.mpr ⟨cssName?_mem_properties hName, ih hOthers⟩

/-- The properties that are let through are read back with the texts of their
values, in order, exactly if there is no semicolon in any of these texts; no other
property is set then. -/
theorem inline_style_reads_back_iff {context : Context} {styles : List StyleDeclaration}
    {text : String} (hStyle : (inlineStyle context styles).result = .ok text) :
    ∃ declared, declaredStyles context styles = .ok declared ∧
      (InlineStyle.read text = declared ↔ ∀ entry ∈ declared, ';' ∉ entry.2.toList) ∧
      ((∀ entry ∈ declared, ';' ∉ entry.2.toList) →
        ∀ entry ∈ InlineStyle.read text,
          entry.1 ∈ ["color", "font-size", "height", "width", "background-color"]) := by
  rw [inlineStyle_result] at hStyle
  cases hDeclared : declaredStyles context styles with
  | error cause => simp [hDeclared, Except.map] at hStyle
  | ok declared =>
      have hNames := mem_properties_of_declaredStyles hDeclared
      obtain rfl : styleText declared = text := by simpa [hDeclared, Except.map] using hStyle
      have hRead : (∀ entry ∈ declared, ';' ∉ entry.2.toList) →
          InlineStyle.read (styleText declared) = declared := by
        intro hValues
        have hNone : ∀ c ∈ ([] : List Char), InlineStyle.isBlank c = true := by simp
        exact InlineStyle.filterMap_splitOn_styleText hNone hNames hValues
      refine ⟨declared, rfl, ⟨?_, hRead⟩, ?_⟩
      · intro hSame entry hEntry
        exact InlineStyle.semicolon_not_mem_of_mem_read (hSame ▸ hEntry)
      · intro hValues
        rw [hRead hValues]
        exact hNames

/-- A width that comes in through a component, between a colour with a colon in it
and a property that is not let through. -/
theorem inline_style_of_badge_reads_back :
    (inlineStyle ⟨[⟨"Badge", [⟨"w", .string, .string "10"⟩]⟩]⟩
        [⟨"text-color", .string "var(--a:b)"⟩, ⟨"bogus", .unrecognized "Broken"⟩,
          ⟨"width", .operation (.symbol "w") .add (.string "px")⟩]).result =
      .ok "color:var(--a:b); width:10px; " ∧
    ∃ declared, declaredStyles ⟨[⟨"Badge", [⟨"w", .string, .string "10"⟩]⟩]⟩
        [⟨"text-color", .string "var(--a:b)"⟩, ⟨"bogus", .unrecognized "Broken"⟩,
          ⟨"width", .operation (.symbol "w") .add (.string "px")⟩] = .ok declared ∧
      (InlineStyle.read "color:var(--a:b); width:10px; " = declared ↔
        ∀ entry ∈ declared, ';' ∉ entry.2.toList) ∧
      ((∀ entry ∈ declared, ';' ∉ entry.2.toList) →
        ∀ entry ∈ InlineStyle.read "color:var(--a:b); width:10px; ",
          entry.1 ∈ ["color", "font-size", "height", "width", "background-color"]) := by
  have hStyle : (inlineStyle ⟨[⟨"Badge", [⟨"w", .string, .string "10"⟩]⟩]⟩
        [⟨"text-color", .string "var(--a:b)"⟩, ⟨"bogus", .unrecognized "Broken"⟩,
          ⟨"width", .operation (.symbol "w") .add (.string "px")⟩]).result =
      .ok "color:var(--a:b); width:10px; " := by rfl
  exact ⟨hStyle, inline_style_reads_back_iff hStyle⟩

/-- A value with a semicolon in it sets a property that is not let through. -/
theorem semicolon_sets_another_property :
    (inlineStyle Context.empty [⟨"width", .string "1px;position:fixed"⟩]).result =
        .ok "width:1px;position:fixed; " ∧
      declaredStyles Context.empty [⟨"width", .string "1px;position:fixed"⟩] =
        .ok [("width", "1px;position:fixed")] ∧
      InlineStyle.read "width:1px;position:fixed; " = [("width", "1px"), ("position", "fixed")] := by
  refine ⟨rfl, rfl, ?_⟩
  decide

end PageGen
