import PageGen.Loading.Node
import PageGen.Proofs.InOrder
import PageGen.Proofs.Loading.Records

/-! Nodes that are read from JSON values. Each field of a node is read as what it
stands for, so the node is, and so is the list of its children. -/
namespace PageGen

open Json Schema

namespace Json

/-- The last entry with a key counts. -/
theorem last?_eq (name : String) (entries : List (String × Json)) :
    last? name entries = (fieldValues name entries).getLast? := by
  induction entries with
  | nil => rfl
  | cons entry rest ih =>
      obtain ⟨key, value⟩ := entry
      rw [last?, ih, fieldValues_cons]
      by_cases hKey : key = name
      · cases hLast : (fieldValues name rest).getLast? with
        | none => simp [if_pos hKey, List.getLast?_cons, hLast]
        | some later => simp [if_pos hKey, List.getLast?_cons, hLast]
      · cases hLast : (fieldValues name rest).getLast? with
        | none => simp [if_neg hKey, hLast]
        | some later => simp [if_neg hKey, hLast]

theorem HasField.last? {entries : List (String × Json)} {name : String} {encoded : Json → Prop}
    (hField : HasField entries name encoded) :
    ∃ value, Json.last? name entries = some value ∧ encoded value := by
  obtain ⟨value, hValues, hEncoded⟩ := hField
  exact ⟨value, by simp [last?_eq, hValues], hEncoded⟩

end Json

variable {entries : List (String × Json)} {json : Json}

theorem Operator.ofJson_of_encodedBy {operator : Operator} (hOperator : operator.EncodedBy json) :
    Operator.ofJson json = .ok operator := by
  cases operator <;> obtain rfl := hOperator <;> rfl

theorem Json.asFloat_of_encodedBy {x : Float} (hNumber : NumberEncodedBy x json) :
    asFloat json = .ok x := by
  rcases hNumber with rfl | ⟨n, rfl, rfl⟩ <;> rfl

/-- The tag of an expression decides which fields count. -/
theorem Expr.ofJson_object {kind : String} (hTag : last? typeTag entries = some (.string kind)) :
    Expr.ofJson (.object entries) =
      if kind = "StringExpression" then do
        let text ← (last? "value" entries).mapM asText
        return .string (← require "value" text)
      else if kind = "NumberExpression" then do
        let number ← (last? "value" entries).mapM asFloat
        return .number (← require "value" number)
      else if kind = "SymbolReference" then do
        let symbol ← (last? "symbol" entries).mapM asText
        return .symbol (← require "symbol" symbol)
      else if kind = "Operation" then do
        let left ← (last? "left" entries).mapM Expr.ofJson
        let operator ← (last? "operator" entries).mapM Operator.ofJson
        let right ← (last? "right" entries).mapM Expr.ofJson
        return .operation (← require "left" left) (← require "operator" operator)
          (← require "right" right)
      else .ok (.unrecognized kind) := by
  have hAttach : ∀ operand : Option Json,
      (operand.attach.mapM fun ⟨value, _⟩ => Expr.ofJson value) = operand.mapM Expr.ofJson := by
    rintro (_ | _) <;> rfl
  rw [Expr.ofJson]
  simp only [hTag, hAttach]

/-- Every expression is read as itself, whichever values encode it. -/
theorem Expr.ofJson_of_encodedBy (expr : Expr) {json : Json} (hExpr : expr.EncodedBy json) :
    Expr.ofJson json = .ok expr := by
  induction expr generalizing json with
  | string text =>
      obtain ⟨entries, rfl, hTag, hValue⟩ := hExpr
      obtain ⟨_, hTag, rfl⟩ := hTag.last?
      obtain ⟨_, hValue, rfl⟩ := hValue.last?
      rw [Expr.ofJson_object hTag, if_pos rfl, hValue]
      rfl
  | number x =>
      obtain ⟨entries, rfl, hTag, hValue⟩ := hExpr
      obtain ⟨_, hTag, rfl⟩ := hTag.last?
      obtain ⟨value, hValue, hNumber⟩ := hValue.last?
      have hFloat := asFloat_of_encodedBy hNumber
      rw [Expr.ofJson_object hTag, if_neg (by decide), if_pos rfl, hValue, Option.mapM_some, hFloat]
      rfl
  | symbol name =>
      obtain ⟨entries, rfl, hTag, hSymbol⟩ := hExpr
      obtain ⟨_, hTag, rfl⟩ := hTag.last?
      obtain ⟨_, hSymbol, rfl⟩ := hSymbol.last?
      rw [Expr.ofJson_object hTag, if_neg (by decide), if_neg (by decide), if_pos rfl, hSymbol]
      rfl
  | operation left operator right ihLeft ihRight =>
      obtain ⟨entries, rfl, hTag, hLeft, hOperator, hRight⟩ := hExpr
      obtain ⟨_, hTag, rfl⟩ := hTag.last?
      obtain ⟨_, hLeft, hLeftEncoded⟩ := hLeft.last?
      obtain ⟨_, hOperator, hOperatorEncoded⟩ := hOperator.last?
      obtain ⟨_, hRight, hRightEncoded⟩ := hRight.last?
      have hOperatorRead := Operator.ofJson_of_encodedBy hOperatorEncoded
      rw [Expr.ofJson_object hTag, if_neg (by decide), if_neg (by decide), if_neg (by decide),
        if_pos rfl]
      simp only [hLeft, hOperator, hRight, Option.mapM_some, ihLeft hLeftEncoded, hOperatorRead,
        ihRight hRightEncoded]
      rfl
  | unrecognized kind =>
      obtain ⟨entries, rfl, hTag, hUnknown⟩ := hExpr
      obtain ⟨_, hTag, rfl⟩ := hTag.last?
      simp only [List.mem_cons, List.not_mem_nil, or_false, not_or] at hUnknown
      rw [Expr.ofJson_object hTag, if_neg hUnknown.1, if_neg hUnknown.2.1, if_neg hUnknown.2.2.1,
        if_neg hUnknown.2.2.2]

/-- What it is for a value to be read as the value of a field. -/
def NodeField.Reads (type : NodeField) (json : Json) (value : FieldTypes.Value type) : Prop :=
  fieldOfJson type json = .ok value

/-- Each entry fills the slot of its field. -/
theorem slotsOfEntries_slotsOf {schema : Schema NodeField} {values : schema.Values}
    (hDistinct : (schema.map Prod.fst).Nodup) {seen : List String}
    (hFields : ForFields (Pending NodeField.Reads seen entries) schema values) :
    slotsOfEntries schema (slotsOf seen schema values) entries =
      .ok (slotsOf (keysOf entries ++ seen) schema values) := by
  induction entries generalizing seen with
  | nil =>
      rw [slotsOfEntries]
      rfl
  | cons entry rest ih =>
      obtain ⟨key, json⟩ := entry
      have hPut : putField (m := Except Fault) Except.error (pure ())
          (fun type => fieldOfJson type json) key schema (slotsOf seen schema values) =
            .ok (slotsOf (key :: seen) schema values) :=
        putField_slotsOf (fun {α} (x : Except Fault α) a => x = .ok a) hDistinct
          (by rintro _ _ _ _ _ rfl; rfl) (fun _ => rfl)
          (hFields.imp fun name type value _ hPending => hPending.read)
      rw [slotsOfEntries, hPut, keysOf_cons_append]
      exact ih (hFields.imp fun name type value _ hPending => hPending.rest)

/-- A record whose fields are read from the entries is read from the entries. -/
theorem slotsOfEntries_fill {schema : Schema NodeField} {values : schema.Values}
    (hDistinct : (schema.map Prod.fst).Nodup)
    (hFields : ForFields (FieldIn NodeField.Reads entries) schema values) :
    ∃ slots, slotsOfEntries schema schema.emptySlots entries = .ok slots ∧
      schema.fill slots = .ok values := by
  have hSlots := slotsOfEntries_slotsOf hDistinct
    (hFields.imp fun name type value _ hField => pending_of_fieldIn hField)
  rw [slotsOf_nil, List.append_nil] at hSlots
  exact ⟨_, hSlots, fill_keysOf hFields⟩

section Fields

variable {name : String}

theorem Expr.EncodedBy.ne_null {expr : Expr} (hExpr : expr.EncodedBy json) : json ≠ .null := by
  cases expr <;> (obtain ⟨entries, rfl, -⟩ := hExpr; simp)

theorem fieldIn_expr {expr : Expr} (hField : HasField entries name expr.EncodedBy) :
    FieldIn NodeField.Reads entries name .expr expr :=
  .inl (hField.imp fun json hExpr => by
    rw [NodeField.Reads, fieldOfJson]
    exact Expr.ofJson_of_encodedBy expr hExpr)

theorem fieldIn_optionalExpr {expr : Option Expr} (hField : MayHaveExpr entries name expr) :
    FieldIn NodeField.Reads entries name .optionalExpr expr :=
  hField.imp (by rintro rfl; rfl) fun json hExpr => by
    cases expr with
    | none =>
        obtain rfl := hExpr
        rw [NodeField.Reads, fieldOfJson]
    | some expr =>
        rw [NodeField.Reads, fieldOfJson, Expr.ofJson_of_encodedBy expr hExpr]
        · rfl
        · exact hExpr.ne_null

theorem fieldIn_exprs {exprs : List Expr} (hField : MayHaveList entries Expr.EncodedBy name exprs) :
    FieldIn NodeField.Reads entries name .exprs exprs :=
  hField.imp (by rintro rfl; rfl) fun json ⟨items, hJson, hItems⟩ => by
    rw [NodeField.Reads, hJson, fieldOfJson]
    exact mapM_eq_ok_iff.mpr (hItems.imp fun expr item => Expr.ofJson_of_encodedBy expr).flip

theorem fieldIn_text {text : String} (hField : HasField entries name (TextEncodedBy text)) :
    FieldIn NodeField.Reads entries name .text text :=
  .inl (hField.imp fun json hText => by
    rw [NodeField.Reads, hText, fieldOfJson]
    rfl)

theorem fieldIn_optionalText {text : Option String} (hField : MayHaveText entries name text) :
    FieldIn NodeField.Reads entries name .optionalText text :=
  hField.imp (by rintro rfl; rfl) fun json hText => by
    cases text with
    | none =>
        obtain rfl := hText
        rw [NodeField.Reads, fieldOfJson]
    | some text =>
        obtain rfl := hText
        rw [NodeField.Reads, fieldOfJson]
        · rfl
        · simp

theorem fieldIn_flag {flag : Bool} (hField : MayHaveFlag entries name flag) :
    FieldIn NodeField.Reads entries name .flag flag :=
  hField.imp (by rintro rfl; rfl) fun json hFlag => by
    rw [NodeField.Reads, hFlag, fieldOfJson]
    rfl

theorem fieldIn_level {level : UInt8} (hField : HasField entries name (LevelEncodedBy level)) :
    FieldIn NodeField.Reads entries name .level level :=
  .inl (hField.imp fun json hLevel => by
    have hRange := level.toNat_lt
    rw [NodeField.Reads, hLevel, fieldOfJson, levelOfJson, if_pos (by omega)]
    simp)

end Fields

theorem StyleDeclaration.ofJson_of_encodedBy (style : StyleDeclaration)
    (hStyle : style.EncodedBy json) : StyleDeclaration.ofJson json = .ok style := by
  obtain ⟨entries, rfl, hProperty, hValue⟩ := hStyle
  have hFields : ForFields (FieldIn NodeField.Reads entries) StyleDeclaration.schema
      (style.property, style.value, ()) :=
    ⟨fieldIn_text hProperty, fieldIn_expr hValue, trivial⟩
  obtain ⟨slots, hSlots, hFill⟩ := slotsOfEntries_fill (by decide) hFields
  rw [StyleDeclaration.ofJson]
  simp only [bind, Except.bind, hSlots, hFill]
  rfl

theorem stylesOfItems_eq (items : List Json) :
    stylesOfItems items = items.mapM StyleDeclaration.ofJson := by
  induction items with
  | nil => rw [stylesOfItems, List.mapM_nil]; rfl
  | cons item rest ih => rw [stylesOfItems, List.mapM_cons, ih]

theorem nodesOfItems_eq (items : List Json) : nodesOfItems items = items.mapM Node.ofJson := by
  induction items with
  | nil => rw [nodesOfItems, List.mapM_nil]; rfl
  | cons item rest ih => rw [nodesOfItems, List.mapM_cons, ih]

theorem fieldIn_styles {name : String} {styles : List StyleDeclaration}
    (hField : MayHaveList entries StyleDeclaration.EncodedBy name styles) :
    FieldIn NodeField.Reads entries name .styles styles :=
  hField.imp (by rintro rfl; rfl) fun json ⟨items, hJson, hItems⟩ => by
    rw [NodeField.Reads, hJson, fieldOfJson, stylesOfItems_eq]
    exact mapM_eq_ok_iff.mpr (hItems.imp fun style item => style.ofJson_of_encodedBy).flip

/-- The entries have the tag of the node, and its fields are read from them. -/
def Node.ReadFrom (node : Node) (entries : List (String × Json)) : Prop :=
  HasTag entries node.kind.name ∧ ∃ values, Node.ofFields node.kind values = node ∧
    ForFields (FieldIn NodeField.Reads entries) node.kind.schema values

theorem Element.EncodedIn.readFrom {e : Element} (hElement : e.EncodedIn entries) :
    (Node.element e).ReadFrom entries := by
  cases e with
  | title text =>
      obtain ⟨hTag, hText⟩ := hElement
      exact ⟨hTag, (text, ()), rfl, fieldIn_expr hText, trivial⟩
  | icon imagePath =>
      obtain ⟨hTag, hPath⟩ := hElement
      exact ⟨hTag, (imagePath, ()), rfl, fieldIn_expr hPath, trivial⟩
  | paragraph text styles =>
      obtain ⟨hTag, hText, hStyles⟩ := hElement
      exact ⟨hTag, (text, styles, ()), rfl, fieldIn_expr hText, fieldIn_styles hStyles, trivial⟩
  | button text action arguments =>
      obtain ⟨hTag, hText, hAction, hArguments⟩ := hElement
      exact ⟨hTag, (text, action, arguments, ()), rfl, fieldIn_expr hText,
        fieldIn_optionalText hAction, fieldIn_exprs hArguments, trivial⟩
  | link url text =>
      obtain ⟨hTag, hUrl, hText⟩ := hElement
      exact ⟨hTag, (url, text, ()), rfl, fieldIn_expr hUrl, fieldIn_optionalExpr hText, trivial⟩
  | textbox name placeholder label labelAfter =>
      obtain ⟨hTag, hName, hPlaceholder, hLabel, hAfter⟩ := hElement
      exact ⟨hTag, (name, placeholder, label, labelAfter, ()), rfl, fieldIn_text hName,
        fieldIn_optionalExpr hPlaceholder, fieldIn_optionalExpr hLabel, fieldIn_flag hAfter,
        trivial⟩
  | linebreak => exact ⟨hElement, (), rfl, trivial⟩
  | image imagePath altText styles =>
      obtain ⟨hTag, hPath, hAlt, hStyles⟩ := hElement
      exact ⟨hTag, (imagePath, altText, styles, ()), rfl, fieldIn_expr hPath,
        fieldIn_optionalText hAlt, fieldIn_styles hStyles, trivial⟩
  | heading level text styles =>
      obtain ⟨hTag, hLevel, hText, hStyles⟩ := hElement
      exact ⟨hTag, (level, text, styles, ()), rfl, fieldIn_level hLevel, fieldIn_expr hText,
        fieldIn_styles hStyles, trivial⟩
  | topbar value fixed styles =>
      obtain ⟨hTag, hValue, hFixed, hStyles⟩ := hElement
      exact ⟨hTag, (value, fixed, styles, ()), rfl, fieldIn_expr hValue, fieldIn_flag hFixed,
        fieldIn_styles hStyles, trivial⟩
  | imported path =>
      obtain ⟨hTag, hPath⟩ := hElement
      exact ⟨hTag, (path, ()), rfl, fieldIn_text hPath, trivial⟩
  | popup text =>
      obtain ⟨hTag, hText⟩ := hElement
      exact ⟨hTag, (text, ()), rfl, fieldIn_expr hText, trivial⟩

theorem NodeKind.schema_nodup (kind : NodeKind) : (kind.schema.map Prod.fst).Nodup := by
  cases kind <;> decide

theorem NodeKind.typeTag_not_mem_schema (kind : NodeKind) :
    typeTag ∉ kind.schema.map Prod.fst := by
  cases kind <;> decide

theorem NodeKind.ofName_name (kind : NodeKind) : NodeKind.ofName kind.name = .ok kind := by
  cases kind <;> rfl

/-- With the kind known there is no second tag. -/
theorem NodeKind.ofEntries_some (kind : NodeKind) (hNone : fieldValues typeTag entries = []) :
    NodeKind.ofEntries (some kind) entries = .ok kind := by
  induction entries with
  | nil => rfl
  | cons entry rest ih =>
      obtain ⟨key, value⟩ := entry
      rw [fieldValues_cons] at hNone
      split at hNone
      · cases hNone
      · rename_i hKey
        rw [NodeKind.ofEntries, if_neg hKey, ih hNone]

/-- The tag counts wherever it stands. -/
theorem NodeKind.ofEntries_none {kind : NodeKind} (hTag : HasTag entries kind.name) :
    NodeKind.ofEntries none entries = .ok kind := by
  obtain ⟨_, hValues, rfl⟩ := hTag
  change fieldValues typeTag entries = _ at hValues
  induction entries with
  | nil => cases hValues
  | cons entry rest ih =>
      obtain ⟨key, value⟩ := entry
      rw [fieldValues_cons] at hValues
      split at hValues
      · rename_i hKey
        obtain ⟨rfl, hNone⟩ := List.cons.inj hValues
        have hName := ofName_name kind
        rw [NodeKind.ofEntries, if_pos hKey]
        simp only [NodeKind.ofJson, hName]
        exact NodeKind.ofEntries_some kind hNone
      · rename_i hKey
        rw [NodeKind.ofEntries, if_neg hKey, ih hValues]

/-- The node is read from entries from which its fields are read. -/
theorem Node.ofEntries_of_fields {kind : NodeKind} {values : kind.schema.Values}
    (hFields : ForFields (FieldIn NodeField.Reads entries) kind.schema values) :
    Node.ofEntries kind entries = .ok (Node.ofFields kind values) := by
  obtain ⟨slots, hSlots, hFill⟩ := slotsOfEntries_fill kind.schema_nodup hFields
  rw [Node.ofEntries]
  simp only [bind, Except.bind, hSlots, hFill]
  rfl

theorem Node.ReadFrom.ofJson {node : Node} (hRead : node.ReadFrom entries) :
    Node.ofJson (.object entries) = .ok node := by
  obtain ⟨hTag, values, hNode, hFields⟩ := hRead
  rw [Node.ofJson, NodeKind.ofEntries_none hTag]
  exact (Node.ofEntries_of_fields hFields).trans (congrArg Except.ok hNode)

mutual

/-- Every node has its fields in the entries that encode it. -/
theorem Node.EncodedBy.readFrom {json : Json} :
    (node : Node) → node.EncodedBy json → ∃ entries, json = .object entries ∧ node.ReadFrom entries
  | .element _, ⟨entries, hJson, hElement⟩ => ⟨entries, hJson, hElement.readFrom⟩
  -- Only the children of a container are nodes again.
  | .div children, ⟨entries, hJson, hTag, hChildren⟩ =>
    ⟨entries, hJson, hTag, (children, ()), rfl,
      hChildren.imp (by rintro rfl; rfl) (fun _ ⟨items, hArray, hItems⟩ => by
        rw [NodeField.Reads, hArray, fieldOfJson, nodesOfItems_eq]
        exact mapM_eq_ok_iff.mpr (Node.AllEncodedBy.readFrom children hItems).flip), trivial⟩
  | .useComponent component arguments, ⟨entries, hJson, hTag, hComponent, hArguments⟩ =>
    ⟨entries, hJson, hTag, (component, arguments, ()), rfl, fieldIn_text hComponent,
      fieldIn_exprs hArguments, trivial⟩

theorem Node.AllEncodedBy.readFrom {items : List Json} :
    (nodes : List Node) → Node.AllEncodedBy nodes items →
      List.Forall₂ (fun node item => Node.ofJson item = .ok node) nodes items
  | [], hItems => by
    cases items with
    | nil => exact .nil
    | cons => cases hItems
  | node :: nodes, hItems => by
    cases items with
    | nil => cases hItems
    | cons item rest =>
        obtain ⟨entries, rfl, hRead⟩ := Node.EncodedBy.readFrom node hItems.1
        exact .cons hRead.ofJson (Node.AllEncodedBy.readFrom nodes hItems.2)

end

end PageGen
