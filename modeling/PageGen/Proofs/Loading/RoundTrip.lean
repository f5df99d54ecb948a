import PageGen.Proofs.Loading.Readers

/-! Loading documents. Whatever JSON value encodes a document, and whichever text
the value is written in, loading the text gives the document back. -/
namespace PageGen

open Json Json.Reader Schema

variable {json : Json} {entries : List (String × Json)} {name : String}

namespace Json.Reader

variable {α : Type} {encoded : α → Json → Prop} {reader : Nat → Reader α} {values : List α}

theorem loads_list (hReader : ∀ value json, encoded value json → Loads reader json value)
    (hList : ListEncodedBy encoded values json) : Loads (listOf reader) json values := by
  obtain ⟨items, rfl, hItems⟩ := hList
  exact loads_listOf (hItems.imp hReader).flip

end Json.Reader

theorem loads_paramType {type : ParamType} (hType : type.EncodedBy json) :
    Loads (choice paramTypeNames) json type := by
  cases type <;> (obtain rfl := hType; exact loads_choice rfl)

theorem Parameter.loads_read (parameter : Parameter) (json : Json)
    (hParameter : parameter.EncodedBy json) : Loads Parameter.read json parameter := by
  obtain ⟨entries, rfl, hName, hType⟩ := hParameter
  have hFields : ForFields (FieldIn (LoadsField ParameterField.read) entries) Parameter.schema
      (parameter.name, parameter.type, ()) :=
    ⟨.inl (hName.imp fun json hText => hText ▸ loads_text _),
      .inl (hType.imp fun json => loads_paramType), trivial⟩
  exact (loads_record _ (by decide) hFields).bind rfl

/-- The fields of the declaration of a component or a script function. -/
theorem fieldIn_declaration {parameters : List Parameter} {body : List Node}
    (hName : HasField entries "name" (TextEncodedBy name))
    (hParameters : MayHaveList entries Parameter.EncodedBy "parameters" parameters)
    (hBody : MayHaveList entries Node.EncodedBy "body" body) :
    ForFields (FieldIn (LoadsField DeclarationField.read) entries) declarationSchema
      (name, parameters, body, ()) :=
  ⟨.inl (hName.imp fun json hText => hText ▸ loads_text _),
    hParameters.imp (by rintro rfl; rfl) fun json => loads_list Parameter.loads_read,
    hBody.imp (by rintro rfl; rfl) fun json => loads_list fun _ _ => loads_node, trivial⟩

theorem Component.loads_read (component : Component) (json : Json)
    (hComponent : component.EncodedBy json) : Loads Component.read json component := by
  obtain ⟨entries, rfl, hName, hParameters, hBody⟩ := hComponent
  exact (loads_record _ (by decide) (fieldIn_declaration hName hParameters hBody)).bind rfl

theorem ScriptFunction.loads_read (script : ScriptFunction) (json : Json)
    (hScript : script.EncodedBy json) : Loads ScriptFunction.read json script := by
  obtain ⟨entries, rfl, hName, hParameters, hBody⟩ := hScript
  exact (loads_record _ (by decide) (fieldIn_declaration hName hParameters hBody)).bind rfl

theorem Document.loads_read (document : Document) (hDocument : document.EncodedBy json) :
    Loads Document.read json document := by
  obtain ⟨entries, rfl, hHead, hBody, hScripts, hComponents⟩ := hDocument
  have hFields : ForFields (FieldIn (LoadsField DocumentField.read) entries) Document.schema
      (document.head, document.body, document.scripts, document.components, ()) :=
    ⟨hHead.imp (by intro h; rw [h]; rfl) fun json => loads_list fun _ _ => loads_node,
      hBody.imp (by intro h; rw [h]; rfl) fun json => loads_list fun _ _ => loads_node,
      hScripts.imp (by intro h; rw [h]; rfl) fun json => loads_list ScriptFunction.loads_read,
      hComponents.imp (by intro h; rw [h]; rfl) fun json => loads_list Component.loads_read,
      trivial⟩
  exact (loads_record _ (by decide) hFields).bind rfl

/-- A text in which the document may be written: a text of a JSON value that
encodes it, nested at most 127 deep, with blanks around it. -/
def Document.WrittenAs (document : Document) (source : String) : Prop :=
  ∃ json before text after, document.EncodedBy json ∧ Written 127 json text ∧ Blanks before ∧
    Blanks after ∧ source.toList = before ++ (text ++ after)

/-- Without quotes, backslashes and control characters a string may be written as it is. -/
theorem Json.StringWritten.plain {s : String}
    (hPlain : ∀ c ∈ s.toList, c ≠ '\x22' ∧ c ≠ '\x5c' ∧ 0x20 ≤ c.toNat) :
    StringWritten s ('\x22' :: (s.toList ++ ['\x22'])) := by
  have hChars : ∀ characters : List Char,
      (∀ c ∈ characters, c ≠ '\x22' ∧ c ≠ '\x5c' ∧ 0x20 ≤ c.toNat) →
      CharsWritten characters characters := by
    intro characters
    induction characters with
    | nil => exact fun _ => .nil
    | cons c rest ih =>
        intro hAll
        obtain ⟨⟨hQuote, hBackslash, hControl⟩, hRest⟩ := List.forall_mem_cons.mp hAll
        exact .cons (.plain hQuote hBackslash hControl) (ih hRest)
  exact .intro (hChars s.toList hPlain)

theorem Json.Reader.run_of_understands {α : Type} {reader : Reader α} {value : α}
    {written : Json → List Char → Prop} {before text after : List Char} {source : String}
    (hReader : Understands written reader json value) (hText : written json text)
    (hBefore : Blanks before) (hAfter : Blanks after)
    (hSource : source.toList = before ++ (text ++ after)) : reader.run source = .ok value := by
  have hEnds : EndsNumber after := by
    simpa using endsNumber_blanks hAfter (show EndsNumber [] by rintro _ ⟨⟩)
  have hTakes := hReader hBefore hText hEnds
  rw [← hSource] at hTakes
  obtain ⟨later, _, hDone⟩ := hTakes 0
  have hEnd : Cursor.blanks ⟨after, later⟩ = ⟨[], later + after.length⟩ := by
    simpa using Cursor.blanks_append hAfter (show StartsToken [] by rintro _ ⟨⟩) later
  simp only [run, Cursor.start, hDone, hEnd]

/-- Loading undoes writing. -/
theorem Document.ofText_of_writtenAs (document : Document) {source : String}
    (hWritten : document.WrittenAs source) : Document.ofText source = .ok document := by
  obtain ⟨json, before, text, after, hDocument, hText, hBefore, hAfter, hSource⟩ := hWritten
  have hRun := run_of_understands (document.loads_read hDocument 127) hText hBefore hAfter hSource
  have hSome : isBlankText source.toList = false := by
    obtain ⟨entries, rfl, -⟩ := hDocument
    obtain ⟨inner, -, hContainer⟩ := hText.container (by rintro ⟨⟩)
    cases hContainer with
    | object hEntries => exact List.all_eq_false.mpr ⟨'\x7b', by simp [hSource], by decide⟩
  rw [Document.ofText, hSome, if_neg Bool.false_ne_true]
  change ((Document.read 127).run source).mapError _ = _
  rw [hRun]
  rfl

/-- A link behind a field that no node has, with an escape in its address, a text
that is written as absent, and its tag at the end. -/
def linkSource : String :=
  "\x7b\"bodyElements\":[\x7b\"x\":7, \"text\":null,\"url\":\x7b\"value\":\"\\u0041\"," ++
    "\"$type\":\"StringExpression\"\x7d,\"$type\":\"Link\"\x7d]\x7d\n"

theorem document_of_linkSource :
    (⟨[], [.element (.link (.string "A") none)], [], []⟩ : Document).WrittenAs linkSource ∧
      Document.ofText linkSource = .ok ⟨[], [.element (.link (.string "A") none)], [], []⟩ := by
  have hEncoded : Node.EncodedBy (.element (.link (.string "A") none))
      (.object [("x", .integer 7), ("text", .null),
        ("url", .object [("value", .string "A"), ("$type", .string "StringExpression")]),
        ("$type", .string "Link")]) :=
    ⟨_, rfl, ⟨_, rfl, rfl⟩, ⟨_, rfl, _, rfl, ⟨_, rfl, rfl⟩, ⟨_, rfl, rfl⟩⟩, .inl ⟨_, rfl, rfl⟩⟩
  have hWritten : (⟨[], [.element (.link (.string "A") none)], [], []⟩ : Document).WrittenAs
      linkSource := by
    have hUnit : UnitWritten 65 ['0', '0', '4', '1'] :=
      @UnitWritten.intro 0 0 4 1 '0' '0' '4' '1' (.inl (by simp)) (.inl (by simp)) (.inl (by simp))
        (.inl (by simp))
    have hLetter : CharWritten 'A' ('\x5c' :: 'u' :: ['0', '0', '4', '1']) := .unit hUnit
    have hAddress : StringWritten "A" _ := .intro (show CharsWritten "A".toList _ by
      rw [show "A".toList = ['A'] by simp]
      exact .cons hLetter .nil)
    have hValue : EntryWritten (Written 123) ("value", .string "A") _ :=
      .intro (.plain (by simp)) .nil .nil (.inl (.string hAddress))
    have hKind : EntryWritten (Written 123) ("$type", .string "StringExpression") _ :=
      .intro (.plain (by simp)) .nil .nil (.inl (.string (.plain (by simp))))
    have hExtra : EntryWritten (Written 124) ("x", .integer 7) _ :=
      .intro (.plain (by simp)) .nil .nil (.inl (.integer (.positive
        (show scanNumber false ⟨['7'], 0⟩ = .done (.integer 7) ⟨[], 1⟩ by rfl))))
    have hText : EntryWritten (Written 124) ("text", .null) _ :=
      .intro (.plain (by simp)) .nil .nil (.inl .null)
    have hUrl : EntryWritten (Written 124) ("url", .object _) _ :=
      .intro (.plain (by simp)) .nil .nil
        (.inr (.object (.cons .nil hValue .nil (.single .nil hKind .nil))))
    have hTag : EntryWritten (Written 124) ("$type", .string "Link") _ :=
      .intro (.plain (by simp)) .nil .nil (.inl (.string (.plain (by simp))))
    have hSpace : Blanks [' '] := by simp [Blanks]
    have hNode : Written 125 (.object _) _ :=
      .inr (.object (.cons .nil hExtra .nil (.cons hSpace hText .nil
        (.cons .nil hUrl .nil (.single .nil hTag .nil)))))
    have hBody : EntryWritten (Written 126) ("bodyElements", .array [.object _]) _ :=
      .intro (.plain (by simp)) .nil .nil (.inr (.array (.single .nil hNode .nil)))
    refine ⟨.object [("bodyElements", .array [_])], [], _, ['\n'],
      ⟨_, rfl, .inr ⟨rfl, rfl⟩, .inl ⟨_, rfl, _, rfl, .cons hEncoded .nil⟩, .inr ⟨rfl, rfl⟩,
        .inr ⟨rfl, rfl⟩⟩,
      .inr (.object (.single .nil hBody .nil)), .nil, by simp [Blanks], ?_⟩
    unfold linkSource
    simp
  exact ⟨hWritten, Document.ofText_of_writtenAs _ hWritten⟩

end PageGen
