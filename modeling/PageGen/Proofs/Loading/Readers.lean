import PageGen.Loading.Document
import PageGen.Proofs.Loading.Nodes

/-! Readers of parts of documents. A reader loads a part from a JSON value if it
comes to that part from every text of the value, however much room there is. A
record is loaded if its fields are, a list if its items are, and a node always. -/
namespace PageGen

open Json Schema

namespace Json

variable {room : Nat} {text : List Char}

theorem Written.string {s : String} (hWritten : Written room (.string s) text) :
    StringWritten s text := by
  cases room with
  | zero =>
      cases hWritten with
      | string hString => exact hString
  | succ room =>
      rcases hWritten with hScalar | hContainer
      · cases hScalar with
        | string hString => exact hString
      · cases hContainer

/-- A container is a container, and there is room for it. -/
theorem Written.container {json : Json} (hWritten : Written room json text)
    (hContainer : ¬ ScalarWritten json text) :
    ∃ inner, room = inner + 1 ∧ ContainerWritten (Written inner) json text := by
  cases room with
  | zero => exact absurd hWritten hContainer
  | succ inner => exact ⟨inner, rfl, hWritten.resolve_left hContainer⟩

namespace Reader

variable {α β : Type} {json : Json} {value : α}

/-- From every text of the JSON value the reader comes to this value. -/
def Loads (reader : Nat → Reader α) (json : Json) (value : α) : Prop :=
  ∀ room, Understands (Written room) (reader room) json value

theorem Loads.bind {reader : Nat → Reader α} (hLoads : Loads reader json value)
    {next : α → Reader β} {final : β} (hNext : next value = pure final) :
    Loads (fun room => reader room >>= next) json final :=
  fun room _ _ rest hBlanks hWritten hRest =>
    .bind (hLoads room hBlanks hWritten hRest) (hNext ▸ .pure final rest)

theorem loads_text (s : String) : Loads (fun _ => Reader.text) (.string s) s :=
  fun _ _ _ rest hBlanks hWritten _ =>
    .bind (takes_token_string hWritten.string hBlanks rest) (.pure s rest)

theorem loads_listOf {reader : Nat → Reader α} {items : List Json} {values : List α}
    (hItems : List.Forall₂ (Loads reader) items values) :
    Loads (listOf reader) (.array items) values := by
  intro room blanks text rest hBlanks hWritten _
  obtain ⟨inner, rfl, hContainer⟩ := hWritten.container (by rintro ⟨⟩)
  cases hContainer with
  | array hSeparated =>
      have hList := takes_list Written.starts (hItems.imp fun _ _ hLoads => hLoads inner) hSeparated
        rest
      simp only [List.cons_append, List.append_assoc, List.nil_append]
      exact .bind (takes_token_array hBlanks _) (.bind (.advance '[' _) (takes_inside_array hList))

/-- A variant that is written as its name. -/
theorem loads_choice {known : List (String × α)} {name : String}
    (hKnown : known.lookup name = some value) :
    Loads (choice known) (.string name) value := by
  intro room blanks text rest hBlanks hWritten _
  have hString := hWritten.string
  have hVariant : (variant known).Takes (text ++ rest) value rest := by
    refine .bind (takes_token_string hString .nil rest) ?_
    simp only [hKnown]
    exact .pure value rest
  obtain ⟨hChars⟩ := hString
  exact .bind (.peekToken hBlanks rfl _) hVariant

section Records

variable {τ : Type} [FieldTypes τ] {schema : Schema τ} {values : schema.Values}
  {field : Nat → (type : τ) → Reader (FieldTypes.Value type)} {entries : List (String × Json)}

/-- What it is for a value to be loaded as the value of a field. -/
def LoadsField (field : Nat → (type : τ) → Reader (FieldTypes.Value type)) (type : τ) (json : Json)
    (value : FieldTypes.Value type) : Prop :=
  Loads (fun room => field room type) json value

/-- Each entry fills the slot of its field, or is passed over. -/
theorem rounds_putField (hDistinct : (schema.map Prod.fst).Nodup) (room : Nat) {seen : List String}
    (hFields : ForFields (Pending (LoadsField field) seen entries) schema values) :
    Rounds (EntryRoundTakes (Written room) fun slots key =>
        putField (m := Reader) Reader.reject
          (do
            Reader.colon
            Reader.skip)
          (fun type => do
            Reader.colon
            field room type)
          key schema slots)
      (slotsOf seen schema values) entries (slotsOf (keysOf entries ++ seen) schema values) := by
  induction entries generalizing seen with
  | nil => exact .nil
  | cons entry rest ih =>
      obtain ⟨key, json⟩ := entry
      rw [keysOf_cons_append]
      refine .cons ?_ (ih (hFields.imp fun name type value _ hPending => hPending.rest))
      intro before after text behind hBefore hAfter hWritten hBehind
      -- Whether the key is a field or not, the same text is taken behind it.
      refine putField_slotsOf
        (fun {α} (reader : Reader α) a =>
          reader.Takes (before ++ ':' :: (after ++ (text ++ behind))) a behind) hDistinct
        (fun f hTakes => .bind hTakes (.pure _ behind)) (fun _ => ?_) (hFields.imp ?_)
      · exact .bind (takes_colon hBefore _)
          (understands_skip room json hAfter hWritten hBehind)
      · intro name type value _ hPending hKey
        obtain ⟨hNew, hLoads⟩ := hPending.read hKey
        exact ⟨hNew, .bind (takes_colon hBefore _) (hLoads room hAfter hWritten hBehind)⟩

/-- A record is loaded from an object that has its fields. -/
theorem loads_record (name : String) (hDistinct : (schema.map Prod.fst).Nodup)
    (hFields : ForFields (FieldIn (LoadsField field) entries) schema values) :
    Loads (Schema.read name schema field) (.object entries) values := by
  intro room blanks text rest hBlanks hWritten _
  obtain ⟨inner, rfl, hContainer⟩ := hWritten.container (by rintro ⟨⟩)
  cases hContainer with
  | object hSeparated =>
      have hRounds := rounds_putField hDistinct inner
        (hFields.imp fun name type value _ hField => pending_of_fieldIn hField)
      rw [slotsOf_nil, List.append_nil] at hRounds
      have hLoop := takes_entries hSeparated hRounds rest
      simp only [List.cons_append, List.append_assoc, List.nil_append]
      refine .bind (takes_token_object hBlanks _)
        (.bind (.advance '\x7b' _) (takes_inside_object (.bind hLoop ?_)))
      rw [fill_keysOf hFields]
      exact .pure values _

end Records

/-- What reading the entries of an outermost node does with one of them. -/
def nodeEntryStep (room : Nat) (state : Option NodeKind × List (String × Json)) (key : String) :
    Reader (Option NodeKind × List (String × Json)) :=
  if key = typeTag then
    match state.1 with
    | some _ => reject (.duplicateField typeTag)
    | none => do
      colon
      let kind ← nodeKind
      pure (some kind, state.2)
  else do
    colon
    let entry ← Reader.value room
    pure (state.1, (key, entry) :: state.2)

theorem nodeEntries_eq (room : Nat) :
    nodeEntries room = (do
      let state ← Reader.entries (nodeEntryStep room) true (none, [])
      let kind ← ofExcept (require typeTag state.1)
      pure (kind, .entries state.2.reverse)) :=
  rfl

theorem takes_nodeKind {kind : NodeKind} {blanks : List Char}
    (hString : StringWritten kind.name text) (hBlanks : Blanks blanks) (rest : List Char) :
    nodeKind.Takes (blanks ++ (text ++ rest)) kind rest := by
  refine .bind (takes_token_string hString hBlanks rest) ?_
  simp only [NodeKind.ofName_name]
  exact .pure kind rest

variable {entries : List (String × Json)} {kind : NodeKind}

/-- An entry other than the tag is kept. -/
theorem nodeEntryStep_takes {key : String} (hKey : key ≠ typeTag) (room : Nat)
    (met : Option NodeKind) (json : Json) (kept : List (String × Json)) :
    EntryRoundTakes (Written room) (nodeEntryStep room) (met, kept) (key, json)
      (met, (key, json) :: kept) := by
  intro before after text rest hBefore hAfter hWritten hRest
  simp only [nodeEntryStep, if_neg hKey]
  exact .bind (takes_colon hBefore _)
    (.bind (understands_value room json hAfter hWritten hRest) (.pure _ rest))

/-- All entries are kept if there is no further tag. -/
theorem rounds_nodeEntryStep_some (room : Nat) (kind : NodeKind)
    (hNone : fieldValues typeTag entries = []) (kept : List (String × Json)) :
    Rounds (EntryRoundTakes (Written room) (nodeEntryStep room)) (some kind, kept) entries
      (some kind, entries.reverse ++ kept) := by
  induction entries generalizing kept with
  | nil => exact .nil
  | cons entry rest ih =>
      obtain ⟨key, json⟩ := entry
      rw [fieldValues_cons] at hNone
      split at hNone
      · cases hNone
      · rename_i hKey
        rw [List.reverse_cons, List.append_assoc]
        exact .cons (nodeEntryStep_takes hKey room _ json kept) (ih hNone _)

/-- The entries but for the tag are kept, wherever the tag stands. -/
theorem rounds_nodeEntryStep_none (room : Nat) (hTag : HasTag entries kind.name)
    (kept : List (String × Json)) :
    Rounds (EntryRoundTakes (Written room) (nodeEntryStep room)) (none, kept) entries
      (some kind, (entries.filter fun entry => entry.1 != typeTag).reverse ++ kept) := by
  obtain ⟨_, hValues, rfl⟩ := hTag
  change fieldValues typeTag entries = _ at hValues
  induction entries generalizing kept with
  | nil => cases hValues
  | cons entry rest ih =>
      obtain ⟨key, json⟩ := entry
      rw [fieldValues_cons] at hValues
      split at hValues
      · rename_i hKey
        obtain ⟨rfl, hNone⟩ := List.cons.inj hValues
        have hRest : rest.filter (fun entry => entry.1 != typeTag) = rest := by
          rw [fieldValues, List.map_eq_nil_iff, List.filter_eq_nil_iff] at hNone
          exact List.filter_eq_self.mpr fun entry hEntry => by simpa [bne] using hNone entry hEntry
        subst hKey
        rw [List.filter_cons_of_neg (by simp), hRest]
        refine .cons ?_ (rounds_nodeEntryStep_some room kind hNone kept)
        intro before after text behind hBefore hAfter hWritten hBehind
        exact .bind (takes_colon hBefore _)
          (.bind (takes_nodeKind hWritten.string hAfter behind) (.pure _ behind))
      · rename_i hKey
        rw [List.filter_cons_of_pos (by simpa using hKey), List.reverse_cons, List.append_assoc]
        exact .cons (nodeEntryStep_takes hKey room _ json kept) (ih _ hValues)

theorem takes_nodeEntries {room : Nat}
    (hWritten : Separated (EntryWritten (Written room)) entries text)
    (hTag : HasTag entries kind.name) (rest : List Char) :
    (nodeEntries room).Takes (text ++ '\x7d' :: rest)
      (kind, .entries (entries.filter fun entry => entry.1 != typeTag)) ('\x7d' :: rest) := by
  rw [nodeEntries_eq]
  refine .bind (takes_entries hWritten (rounds_nodeEntryStep_none room hTag []) rest) ?_
  simp only [List.append_nil, List.reverse_reverse]
  exact .bind (.pure kind _) (.pure _ _)

/-- The fields of a node are among the entries that are no tag. -/
theorem ofEntries_filter {node : Node} (hRead : node.ReadFrom entries) :
    Node.ofEntries node.kind (entries.filter fun entry => entry.1 != typeTag) = .ok node := by
  obtain ⟨-, values, hNode, hFields⟩ := hRead
  refine (Node.ofEntries_of_fields (hFields.imp fun name type value hName hField => ?_)).trans
    (congrArg Except.ok hNode)
  have hOther : name ≠ typeTag := by
    rintro rfl
    exact NodeKind.typeTag_not_mem_schema _ hName
  have hSame : fieldValues name (entries.filter fun entry => entry.1 != typeTag) =
      fieldValues name entries := fieldValues_filter (fun _ => by simpa using hOther) entries
  simpa only [FieldIn, MayHaveField, HasField, hSame] using hField

/-- An outermost node is loaded from whatever encodes it. -/
theorem loads_node {node : Node} (hNode : node.EncodedBy json) : Loads Reader.node json node := by
  obtain ⟨entries, rfl, hRead⟩ := hNode.readFrom
  intro room blanks text rest hBlanks hWritten _
  obtain ⟨inner, rfl, hContainer⟩ := hWritten.container (by rintro ⟨⟩)
  cases hContainer with
  | object hSeparated =>
      have hContent := takes_nodeEntries hSeparated hRead.1 rest
      simp only [List.cons_append, List.append_assoc, List.nil_append]
      refine .bind (takes_token_object hBlanks _)
        (.bind (.bind (.advance '\x7b' _) (takes_inside_object hContent)) ?_)
      simp only [Node.ofContent, ofEntries_filter hRead]
      exact .pure node rest

end Reader

end Json

end PageGen
