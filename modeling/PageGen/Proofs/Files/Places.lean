import Mathlib.Data.List.Induction
import PageGen.Proofs.Files.Growth

/-! Where a path leads that has been put together from a directory and a name,
and the name that anything found at a path bears. -/
namespace PageGen

namespace Path

theorem split_eq_splitOn (text : List Char) : split text = text.splitOn '/' := by
  induction text with
  | nil => rfl
  | cons c rest ih =>
      obtain ⟨first, others, hSplit⟩ := List.exists_cons_of_ne_nil (List.splitOn_ne_nil '/' rest)
      rw [split, List.splitOn_cons_eq_if_modifyHead, ih, hSplit]
      by_cases hSlash : c = '/'
      · simp [hSlash]
      · simp [hSlash]

theorem split_append_slash (first rest : List Char) :
    split (first ++ '/' :: rest) = split first ++ split rest := by
  simp only [split_eq_splitOn, List.splitOn_append_cons_self]

theorem split_eq_singleton {text : List Char} (hPlain : '/' ∉ text) : split text = [text] := by
  rw [split_eq_splitOn, List.splitOn_eq_singleton hPlain]

/-- The name of a file, and of nothing else. -/
structure IsName (name : String) : Prop where
  plain : '/' ∉ name.toList
  noNul : '\x00' ∉ name.toList
  heard : isSilent name.toList = false
  notUp : name.toList ≠ ['.', '.']

instance (name : String) : Decidable (IsName name) :=
  decidable_of_iff ('/' ∉ name.toList ∧ '\x00' ∉ name.toList ∧ isSilent name.toList = false ∧
      name.toList ≠ ['.', '.'])
    ⟨fun h => ⟨h.1, h.2.1, h.2.2.1, h.2.2.2⟩, fun h => ⟨h.plain, h.noNul, h.heard, h.notUp⟩⟩

variable {directory : Path} {name : String}

theorem IsName.isAbsolute (hName : IsName name) : isAbsolute ⟨name⟩ = false := by
  unfold Path.isAbsolute
  cases hChars : name.toList with
  | nil => rfl
  | cons c rest =>
      have hFirst : c ≠ '/' := fun hSlash => hName.plain (by simp [hChars, hSlash])
      simpa using hFirst

/-- A name within a directory is one more piece, put in place of an empty one at
the end of the directory, if there is one. -/
theorem split_within (hName : IsName name) :
    ∃ before : List (List Char),
      split (directory.within ⟨name⟩).text.toList = before ++ [name.toList] ∧
      (split directory.text.toList = before ∨ split directory.text.toList = before ++ [[]]) := by
  have hSingle := split_eq_singleton hName.plain
  unfold within
  split_ifs with hAlone hSlash
  · have hEmpty : directory.text = "" := by simpa [hName.isAbsolute] using hAlone
    exact ⟨[], hSingle, .inr (by rw [hEmpty]; rfl)⟩
  · obtain ⟨before, hBefore⟩ := List.getLast?_eq_some_iff.mp hSlash
    refine ⟨split before, ?_, .inr ?_⟩
    · rw [String.toList_append, hBefore, List.append_assoc, List.singleton_append,
        split_append_slash, hSingle]
    · rw [hBefore, split_append_slash]
      rfl
  · refine ⟨split directory.text.toList, ?_, .inl rfl⟩
    have hText : (directory.text ++ "/" ++ name).toList =
        directory.text.toList ++ '/' :: name.toList := by simp
    rw [hText, split_append_slash, hSingle]

theorem holdsNul_within (hName : IsName name) :
    (directory.within ⟨name⟩).holdsNul = directory.holdsNul := by
  have hNoNul := hName.noNul
  unfold within
  split_ifs with hAlone hSlash
  · have hEmpty : directory.text = "" := by simpa [hName.isAbsolute] using hAlone
    simp [holdsNul, hEmpty, hNoNul]
  · simp [holdsNul, hNoNul]
  · simp [holdsNul, hNoNul]

/-- The start of a path takes no part away from its pieces. -/
theorem filterMap_split (path : Path) :
    (split path.text.toList).filterMap part? = path.pieces.2.filterMap part? := by
  unfold pieces
  split
  · rename_i piece rest hPieces
    rw [hPieces, List.filterMap_cons_none rfl]
  · rename_i rest hPieces
    rw [hPieces, List.filterMap_cons_none rfl]
  · rfl

/-- The last name of a path is that of its last piece that is a part. -/
theorem getLast?_filterMap_split {path : Path} {last : List Char}
    (hLast : path.fileName? = some last) :
    ((split path.text.toList).filterMap part?).getLast? = some (.name last) := by
  have hParts : path.parts.getLast? = some (.name last) := by
    unfold fileName? at hLast
    split at hLast
    · rename_i found hFound
      rw [hFound, Option.some.inj hLast]
    · cases hLast
  have hAll : path.parts = path.pieces.1.parts ++ path.pieces.2.filterMap part? := rfl
  rw [filterMap_split]
  rw [hAll, List.getLast?_append] at hParts
  cases hNamed : (path.pieces.2.filterMap part?).getLast? with
  | some part => simpa [hNamed] using hParts
  | none =>
      cases hStart : path.pieces.1 <;> simp [hNamed, hStart, Start.parts] at hParts

end Path

namespace FileTree

variable {tree : FileTree} {directory path : Path} {name : String} {place : Location}

theorem child_name {piece : List Char} (hHeard : Path.isSilent piece = false)
    (hNotUp : piece ≠ ['.', '.']) (location : Location) :
    child location piece = location ++ [piece] := by
  rw [child, hHeard, if_neg Bool.false_ne_true, if_neg hNotUp]

theorem follow_append_eq_ok_iff {first rest : List (List Char)} {start : Location} :
    tree.follow start (first ++ rest) = .ok place ↔
      ∃ middle, tree.follow start first = .ok middle ∧ tree.follow middle rest = .ok place := by
  rw [follow_append, except_bind_eq_ok_iff]

/-- One piece leads on from a directory only. -/
theorem follow_singleton_eq_ok_iff {piece : List Char} {start : Location} :
    tree.follow start [piece] = .ok place ↔
      tree.entry? start = some .directory ∧ child start piece = place := by
  rw [follow_cons_eq_ok_iff]
  simp [follow]

/-- A name within a directory is that name in the place of the directory. -/
theorem locate_within_eq_ok_iff (hName : Path.IsName name) :
    tree.locate (directory.within ⟨name⟩) = .ok place ↔
      ∃ parent, tree.locate directory = .ok parent ∧ tree.entry? parent = some .directory ∧
        place = parent ++ [name.toList] := by
  obtain ⟨before, hWithin, hDirectory⟩ := @Path.split_within directory name hName
  have hChild : ∀ parent, child parent name.toList = parent ++ [name.toList] :=
    child_name hName.heard hName.notUp
  -- A slash at the end of the directory asks for the directory, which is asked for here anyway.
  have hParent : ∀ parent, (tree.follow [] (Path.split directory.text.toList) = .ok parent ∧
      tree.entry? parent = some .directory) ↔
      tree.follow [] before = .ok parent ∧ tree.entry? parent = some .directory := by
    intro parent
    rcases hDirectory with hSame | hSlash
    · rw [hSame]
    · have hSilent : ∀ middle, child middle [] = middle := fun _ => rfl
      simp only [hSlash, follow_append_eq_ok_iff, follow_singleton_eq_ok_iff, hSilent]
      constructor
      · rintro ⟨⟨middle, hBefore, hEntry, rfl⟩, -⟩
        exact ⟨hBefore, hEntry⟩
      · rintro ⟨hBefore, hEntry⟩
        exact ⟨⟨parent, hBefore, hEntry, rfl⟩, hEntry⟩
  simp only [locate_eq_ok_iff, Path.holdsNul_within hName, hWithin, follow_append_eq_ok_iff,
    follow_singleton_eq_ok_iff, hChild, and_assoc]
  constructor
  · rintro ⟨hNul, parent, hBefore, hEntry, rfl⟩
    obtain ⟨hFollow, -⟩ := (hParent parent).mpr ⟨hBefore, hEntry⟩
    exact ⟨parent, hNul, hFollow, hEntry, rfl⟩
  · rintro ⟨parent, hNul, hFollow, hEntry, rfl⟩
    obtain ⟨hBefore, -⟩ := (hParent parent).mp ⟨hFollow, hEntry⟩
    exact ⟨hNul, parent, hBefore, hEntry, rfl⟩

/-- Pieces of which the last part is a name lead to something of this name. -/
theorem follow_bears_name {pieces : List (List Char)} {start : Location} {last : List Char}
    (hLast : (pieces.filterMap Path.part?).getLast? = some (.name last))
    (hFollow : tree.follow start pieces = .ok place) : ∃ parent, place = parent ++ [last] := by
  induction pieces using List.reverseRecOn generalizing place with
  | nil => cases hLast
  | append_singleton before piece ih =>
      obtain ⟨middle, hBefore, hPiece⟩ := follow_append_eq_ok_iff.mp hFollow
      obtain ⟨-, rfl⟩ := follow_singleton_eq_ok_iff.mp hPiece
      rw [List.filterMap_append] at hLast
      cases hSilent : Path.isSilent piece with
      | true =>
          have hNone : Path.part? piece = none := by rw [Path.part?, if_pos hSilent]
          rw [List.filterMap_cons_none hNone, List.filterMap_nil, List.append_nil] at hLast
          rw [child, if_pos hSilent]
          exact ih hLast hBefore
      | false =>
          have hPart : Path.part? piece = if piece = ['.', '.'] then some .up
              else some (.name piece) := by
            rw [Path.part?, hSilent, if_neg Bool.false_ne_true]
          split_ifs at hPart with hUp
          · rw [List.filterMap_cons_some hPart] at hLast
            simp at hLast
          · rw [List.filterMap_cons_some hPart] at hLast
            obtain rfl : piece = last := by simpa using hLast
            exact ⟨middle, child_name hSilent hUp middle⟩

/-- Whatever is found at a path bears the last name of the path. -/
theorem locate_bears_fileName {last : List Char} (hLast : path.fileName? = some last)
    (hLocate : tree.locate path = .ok place) : ∃ parent, place = parent ++ [last] :=
  follow_bears_name (Path.getLast?_filterMap_split hLast) (locate_eq_ok_iff.mp hLocate).2

end FileTree

end PageGen
