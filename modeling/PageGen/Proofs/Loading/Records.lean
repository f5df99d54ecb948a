import PageGen.Loading.Schema
import PageGen.Proofs.Json.Skipping
import PageGen.Proofs.Loading.Encoding

/-! Records. While the entries of an object are read one after another, the
slots hold exactly the fields that have been met so far. So in the end, in
whatever order the fields came and whatever came between them, each field has
its value, or its default if it was left out. -/
namespace PageGen

open Json

namespace Json

variable {name key : String} {value : Json} {entries : List (String × Json)}

theorem fieldValues_cons (name key : String) (value : Json) (rest : List (String × Json)) :
    fieldValues name ((key, value) :: rest) =
      if key = name then value :: fieldValues name rest else fieldValues name rest := by
  by_cases hKey : key = name <;> simp [fieldValues, hKey]

theorem mem_keys_of_fieldValues (hValues : fieldValues name entries = [value]) :
    name ∈ entries.map Prod.fst := by
  have hMem : value ∈ fieldValues name entries := by simp [hValues]
  simp only [fieldValues, List.mem_map, List.mem_filter, beq_iff_eq] at hMem ⊢
  obtain ⟨entry, ⟨hEntry, hName⟩, -⟩ := hMem
  exact ⟨entry, hEntry, hName⟩

theorem HasField.imp {encoded read : Json → Prop} (hField : HasField entries name encoded)
    (hImp : ∀ json, encoded json → read json) : HasField entries name read :=
  Exists.imp (fun json hJson => ⟨hJson.1, hImp json hJson.2⟩) hField

theorem MayHaveField.imp {isDefault isDefault' : Prop} {encoded read : Json → Prop}
    (hField : MayHaveField entries name isDefault encoded) (hDefault : isDefault → isDefault')
    (hImp : ∀ json, encoded json → read json) : MayHaveField entries name isDefault' read :=
  Or.imp (fun hHas => hHas.imp hImp) (And.imp_left hDefault) hField

/-- Entries without some others still have the fields that those are not. -/
theorem fieldValues_filter {keep : String × Json → Bool}
    (hKeep : ∀ value, keep (name, value) = true)
    (entries : List (String × Json)) :
    fieldValues name (entries.filter keep) = fieldValues name entries := by
  unfold fieldValues
  rw [List.filter_filter]
  congr 2
  funext ⟨key, value⟩
  by_cases hKey : key = name
  · subst hKey
    simp [hKeep]
  · simp [hKey]

end Json

namespace Schema

variable {τ : Type} [FieldTypes τ]

/-- What holds of each field of a record. -/
def ForFields (holds : (name : String) → (type : τ) → FieldTypes.Value type → Prop) :
    (schema : Schema τ) → Values schema → Prop
  | [], _ => True
  | (name, type) :: rest, (value, values) => holds name type value ∧ ForFields holds rest values

theorem ForFields.imp {holds holds' : (name : String) → (type : τ) → FieldTypes.Value type → Prop}
    {schema : Schema τ} {values : Values schema} (hFields : ForFields holds schema values)
    (hImp : ∀ name type value, name ∈ schema.map Prod.fst → holds name type value →
      holds' name type value) : ForFields holds' schema values := by
  induction schema with
  | nil => trivial
  | cons field rest ih =>
      obtain ⟨hFirst, hRest⟩ := hFields
      exact ⟨hImp _ _ _ (by simp) hFirst,
        ih hRest fun name type value hName => hImp name type value (by simp [hName])⟩

/-- The slots of the fields that have been met. -/
def slotsOf (seen : List String) : (schema : Schema τ) → Values schema → Slots schema
  | [], _ => ()
  | (name, _) :: rest, (value, values) =>
    (if name ∈ seen then some value else none, slotsOf seen rest values)

theorem slotsOf_nil (schema : Schema τ) (values : Values schema) :
    slotsOf [] schema values = emptySlots schema := by
  induction schema with
  | nil => rfl
  | cons field rest ih => exact congrArg (Prod.mk none) (ih values.2)

/-- A key that is no field changes no slot. -/
theorem slotsOf_cons {key : String} {schema : Schema τ} (hKey : key ∉ schema.map Prod.fst)
    (seen : List String) (values : Values schema) :
    slotsOf (key :: seen) schema values = slotsOf seen schema values := by
  induction schema with
  | nil => rfl
  | cons field rest ih =>
      obtain ⟨name, type⟩ := field
      obtain ⟨value, values⟩ := values
      simp only [List.map_cons, List.mem_cons, not_or] at hKey
      have hRest := ih hKey.2 values
      have hOther := Ne.symm hKey.1
      simp only [slotsOf, hRest, List.mem_cons, hOther, false_or]
      rfl

/-- Once every field has been met that has no default, the record is complete. -/
theorem fill_slotsOf {schema : Schema τ} {values : Values schema} {seen : List String}
    (hFields : ForFields (fun name type value =>
      name ∈ seen ∨ FieldTypes.default? type = some value) schema values) :
    fill schema (slotsOf seen schema values) = .ok values := by
  induction schema with
  | nil => rfl
  | cons field rest ih =>
      obtain ⟨name, type⟩ := field
      obtain ⟨value, values⟩ := values
      obtain ⟨hFirst, hRest⟩ := hFields
      by_cases hSeen : name ∈ seen
      · simp only [slotsOf, fill, if_pos hSeen, ih hRest]
        rfl
      · simp only [slotsOf, fill, if_neg hSeen, hFirst.resolve_left hSeen, ih hRest]
        rfl

section PutField

variable {m : Type → Type} [Monad m] {fail : {α : Type} → Fault → m α} {ignore : m Unit}
  {read : (type : τ) → m (FieldTypes.Value type)} {key : String} {seen : List String}
  (Yields : {α : Type} → m α → α → Prop)

/-- Putting a field into its slot yields the slots of the fields met with it, if
ignoring a key and reading the field yield something. -/
theorem putField_slotsOf {schema : Schema τ} {values : Values schema}
    (hDistinct : (schema.map Prod.fst).Nodup)
    (hMap : ∀ {α β : Type} {x : m α} {a : α} (f : α → β), Yields x a →
      Yields (x >>= fun a => pure (f a)) (f a))
    (hIgnore : key ∉ schema.map Prod.fst → Yields ignore ())
    (hRead : ForFields (fun name type value => name = key → key ∉ seen ∧ Yields (read type) value)
      schema values) :
    Yields (putField (m := m) fail ignore read key schema (slotsOf seen schema values))
      (slotsOf (key :: seen) schema values) := by
  induction schema with
  | nil => exact hMap (fun _ => ()) (hIgnore (by simp))
  | cons field rest ih =>
      obtain ⟨name, type⟩ := field
      obtain ⟨value, values⟩ := values
      obtain ⟨hFirst, hRest⟩ := hRead
      simp only [List.map_cons, List.nodup_cons] at hDistinct
      by_cases hName : name = key
      · subst hName
        obtain ⟨hNew, hValue⟩ := hFirst rfl
        have hOthers := slotsOf_cons hDistinct.1 seen values
        simp only [slotsOf, putField, if_pos, if_neg hNew, hOthers, List.mem_cons_self]
        exact hMap (fun value => (some value, slotsOf seen rest values)) hValue
      · have hOthers := ih hDistinct.2
          (fun hKey => hIgnore (by simpa [Ne.symm hName] using hKey)) hRest
        simp only [slotsOf, putField, List.mem_cons, hName, false_or]
        exact hMap (fun slots => (if name ∈ seen then some value else none, slots)) hOthers

end PutField

/-- What is still to come of a field: nothing once it has been met, and before
that one entry at most, which has its value. -/
def Pending (Reads : (type : τ) → Json → FieldTypes.Value type → Prop) (seen : List String)
    (entries : List (String × Json)) (name : String) (type : τ) (value : FieldTypes.Value type) :
    Prop :=
  fieldValues name entries = [] ∨
    (name ∉ seen ∧ ∃ json, fieldValues name entries = [json] ∧ Reads type json value)

variable {Reads : (type : τ) → Json → FieldTypes.Value type → Prop} {seen : List String}
  {entries : List (String × Json)} {name key : String} {type : τ} {value : FieldTypes.Value type}
  {json : Json} {schema : Schema τ} {values : Values schema}

/-- The entry that comes next is new if it is a field, and it has its value. -/
theorem Pending.read (hPending : Pending Reads seen ((key, json) :: entries) name type value)
    (hKey : name = key) : key ∉ seen ∧ Reads type json value := by
  subst hKey
  simp only [Pending, fieldValues_cons, if_pos, List.cons.injEq] at hPending
  rcases hPending with hNone | ⟨hNew, _, ⟨rfl, -⟩, hReads⟩
  · cases hNone
  · exact ⟨hNew, hReads⟩

theorem Pending.rest (hPending : Pending Reads seen ((key, json) :: entries) name type value) :
    Pending Reads (key :: seen) entries name type value := by
  simp only [Pending, fieldValues_cons] at hPending ⊢
  by_cases hKey : key = name
  · simp only [if_pos hKey, List.cons.injEq, reduceCtorEq, false_or] at hPending
    obtain ⟨-, _, ⟨-, hNone⟩, -⟩ := hPending
    exact .inl hNone
  · simpa only [if_neg hKey, List.mem_cons, Ne.symm hKey, false_or] using hPending

/-- A field of an object that stands for a record. -/
abbrev FieldIn (Reads : (type : τ) → Json → FieldTypes.Value type → Prop)
    (entries : List (String × Json)) (name : String) (type : τ) (value : FieldTypes.Value type) :
    Prop :=
  MayHaveField entries name (FieldTypes.default? type = some value) fun json =>
    Reads type json value

theorem pending_of_fieldIn (hField : FieldIn Reads entries name type value) :
    Pending Reads [] entries name type value := by
  rcases hField with ⟨json, hValues, hReads⟩ | ⟨-, hNone⟩
  · exact .inr ⟨by simp, json, hValues, hReads⟩
  · exact .inl hNone

/-- The names of all entries, the last one first. -/
def keysOf (entries : List (String × Json)) : List String := (entries.map Prod.fst).reverse

theorem keysOf_cons_append (key : String) (json : Json) (entries : List (String × Json))
    (seen : List String) :
    keysOf ((key, json) :: entries) ++ seen = keysOf entries ++ key :: seen := by
  simp [keysOf]

theorem fill_keysOf (hFields : ForFields (FieldIn Reads entries) schema values) :
    fill schema (slotsOf (keysOf entries) schema values) = .ok values := by
  refine fill_slotsOf (hFields.imp fun name type value _ hField => ?_)
  rcases hField with ⟨json, hValues, -⟩ | ⟨hDefault, -⟩
  · exact .inl (List.mem_reverse.mpr (mem_keys_of_fieldValues hValues))
  · exact .inr hDefault

end Schema

end PageGen
