import Mathlib.Data.List.Basic

/-! Pieces that a text falls into at a separator. -/
namespace PageGen

/-- There is no separator in any of the pieces that it separates. -/
theorem not_mem_of_mem_splitOn {separator : Char} {text piece : List Char}
    (hPiece : piece ∈ text.splitOn separator) : separator ∉ piece := by
  induction text generalizing piece with
  | nil =>
      obtain rfl := List.mem_singleton.mp (List.splitOn_nil separator ▸ hPiece)
      exact List.not_mem_nil
  | cons c rest ih =>
      obtain ⟨first, others, hSplit⟩ := List.exists_cons_of_ne_nil (List.splitOn_ne_nil separator rest)
      rw [List.splitOn_cons_eq_if_modifyHead] at hPiece
      rw [hSplit] at hPiece ih
      split at hPiece
      · rcases List.mem_cons.mp hPiece with rfl | hRest
        · exact List.not_mem_nil
        · exact ih hRest
      · rename_i hOther
        rcases List.mem_cons.mp hPiece with rfl | hRest
        · simp only [List.mem_cons, not_or]
          exact ⟨fun hSame => hOther (by simp [hSame]), ih List.mem_cons_self⟩
        · exact ih (List.mem_cons_of_mem _ hRest)

end PageGen
