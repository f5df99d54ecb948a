import PageGen.Proofs.InOrder
import PageGen.Proofs.InlineStyles

/-! The inline style of a list of declarations, put together from parts of the
list. Declarations of other properties than those that are let through might as
well not be there, whatever their values are. -/
namespace PageGen

/-- Whether a declaration is for one of the properties that are let through. -/
def StyleDeclaration.isRecognized (declaration : StyleDeclaration) : Bool :=
  ["text-color", "font-size", "height", "width", "background-color"].contains declaration.property

variable {context : Context} {styles : List StyleDeclaration}

theorem StyleDeclaration.isRecognized_eq (declaration : StyleDeclaration) :
    declaration.isRecognized = (cssName? declaration.property).isSome := by
  have hNames : ["text-color", "font-size", "height", "width", "background-color"] =
      styleProperties.map Prod.fst := rfl
  rw [Bool.eq_iff_iff, isRecognized, cssName?, hNames, List.contains_iff_mem, List.mem_map,
    List.lookup_isSome_iff]
  simp only [beq_iff_eq, eq_comm (a := declaration.property)]

theorem recognizedStyles_eq (styles : List StyleDeclaration) :
    recognizedStyles styles = (styles.filter StyleDeclaration.isRecognized).map fun declaration =>
      ((cssName? declaration.property).getD "", declaration.value) := by
  induction styles with
  | nil => rfl
  | cons declaration rest ih =>
      have hRecognized := declaration.isRecognized_eq
      rw [recognizedStyles] at ih ⊢
      cases hName : cssName? declaration.property with
      | none =>
          rw [hName] at hRecognized
          rw [List.filterMap_cons_none (by rw [hName]; rfl),
            List.filter_cons_of_neg (by simp [hRecognized]), ih]
      | some name =>
          rw [hName] at hRecognized
          rw [List.filterMap_cons_some (by rw [hName]; rfl),
            List.filter_cons_of_pos hRecognized, ih, List.map_cons, hName]
          rfl

/-- The declared styles are those of the recognized declarations, one after another. -/
theorem declaredStyles_eq_mapM (context : Context) (styles : List StyleDeclaration) :
    declaredStyles context styles =
      (styles.filter StyleDeclaration.isRecognized).mapM fun declaration =>
        (declaration.value.textIn context).map fun text =>
          ((cssName? declaration.property).getD "", text) := by
  rw [declaredStyles, recognizedStyles_eq, List.mapM_map]
  rfl

theorem declaredStyles_append (context : Context) (styles others : List StyleDeclaration) :
    declaredStyles context (styles ++ others) = (do
      let declared ← declaredStyles context styles
      let rest ← declaredStyles context others
      pure (declared ++ rest)) := by
  simp only [declaredStyles_eq_mapM, List.filter_append, List.mapM_append]

theorem styleText_append (declared rest : List (String × String)) :
    styleText (declared ++ rest) = styleText declared ++ styleText rest := by
  simp [styleText]

theorem styleText_eq_empty_iff {declared : List (String × String)} :
    styleText declared = "" ↔ declared = [] := by
  cases declared with
  | nil => simp [styleText]
  | cons entry rest => simp [styleText]

theorem declaredStyles_eq_nil_iff (context : Context) :
    declaredStyles context styles = .ok [] ↔
      ∀ declaration ∈ styles, declaration.isRecognized = false := by
  rw [declaredStyles_eq_mapM, mapM_eq_ok_iff, List.forall₂_nil_right_iff, List.filter_eq_nil_iff]
  simp only [Bool.not_eq_true]

theorem inlineStyle_eq_empty_iff :
    (inlineStyle context styles).result = .ok "" ↔
      ∀ declaration ∈ styles, declaration.isRecognized = false := by
  rw [inlineStyle_result, except_map_eq_ok_iff, ← declaredStyles_eq_nil_iff context]
  simp only [styleText_eq_empty_iff, exists_eq_right]

/-- There is no style attribute exactly if the inline style has no text. -/
theorem Html.styleAttribute_eq_empty_iff :
    (Html.styleAttribute context styles).result = .ok "" ↔
      (inlineStyle context styles).result = .ok "" := by
  rw [Html.styleAttribute, Run.result_bind_eq_ok_iff]
  simp only [Run.result_pure, Except.ok.injEq]
  constructor
  · rintro ⟨style, hStyle, hNone⟩
    split at hNone
    · rename_i hEmpty
      rw [hStyle, String.isEmpty_iff.mp hEmpty]
    · simp at hNone
  · intro hStyle
    exact ⟨"", hStyle, rfl⟩

/-- The inline style of two lists one after the other is that of the one and that of
the other, and the first failure is that of the whole. Only declarations of the
properties that are let through have a part in it: it fails as the first of them
does of which the value cannot be evaluated, and it is empty, so that there is no
style attribute, exactly if there are none of them. -/
theorem inline_style_of_lists (context : Context) (styles : List StyleDeclaration) :
    (∀ others, (inlineStyle context (styles ++ others)).result =
        match (inlineStyle context styles).result, (inlineStyle context others).result with
        | .error cause, _ => .error cause
        | .ok _, .error cause => .error cause
        | .ok text, .ok rest => .ok (text ++ rest)) ∧
      (inlineStyle context (styles.filter StyleDeclaration.isRecognized)).result =
        (inlineStyle context styles).result ∧
      ((∃ text, (inlineStyle context styles).result = .ok text) ↔
        ∀ declaration ∈ styles, declaration.isRecognized = true →
          ∃ value, (declaration.value.evaluate context).result = .ok value) ∧
      (∀ cause, (inlineStyle context styles).result = .error cause ↔
        FailsFirst (fun declaration => (Expr.evaluate context declaration.value).result)
          (styles.filter StyleDeclaration.isRecognized) cause) ∧
      ((inlineStyle context styles).result = .ok "" ↔
        ∀ declaration ∈ styles, declaration.isRecognized = false) ∧
      ((Html.styleAttribute context styles).result = .ok "" ↔
        ∀ declaration ∈ styles, declaration.isRecognized = false) := by
  refine ⟨fun others => ?_, ?_, ?_, fun cause => ?_, inlineStyle_eq_empty_iff, ?_⟩
  · rw [inlineStyle_result, inlineStyle_result, inlineStyle_result, declaredStyles_append]
    cases declaredStyles context styles with
    | error cause => rfl
    | ok declared =>
        cases declaredStyles context others with
        | error cause => rfl
        | ok rest => exact congrArg Except.ok (styleText_append declared rest)
  · rw [inlineStyle_result, inlineStyle_result, declaredStyles_eq_mapM, declaredStyles_eq_mapM,
      List.filter_filter]
    simp only [Bool.and_self]
  · rw [inlineStyle_result, exists_except_map_eq_ok_iff, declaredStyles_eq_mapM,
      exists_mapM_eq_ok_iff]
    simp only [exists_except_map_eq_ok_iff, Expr.textIn, List.mem_filter, and_imp]
  · rw [inlineStyle_result, except_map_eq_error_iff, declaredStyles_eq_mapM, mapM_eq_error_iff,
      failsFirst_map]
    exact failsFirst_map
  · rw [Html.styleAttribute_eq_empty_iff, inlineStyle_eq_empty_iff]

end PageGen
