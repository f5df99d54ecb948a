import PageGen.Proofs.Files.Places
import PageGen.Proofs.Splitting

/-! What is above a path. A path is spelled in pieces, and the path above it is
spelled in the pieces before its last part; what it means are the parts without
the last one. So the paths above a path stand for the beginnings of its parts. -/
namespace PageGen

namespace Path

variable {path parent ancestor directory : Path} {start : Start} {pieces back : List (List Char)}

theorem join_eq_intercalate (pieces : List (List Char)) :
    join pieces = ['/'].intercalate pieces := by
  induction pieces with
  | nil => rfl
  | cons piece rest ih =>
      cases rest with
      | nil => simp [join]
      | cons next more =>
          rw [join, ih, List.intercalate_cons_cons]
          · simp
          · exact List.cons_ne_nil next more

theorem split_eq_nil_iff {text : List Char} : split text = [[]] ↔ text = [] := by
  constructor
  · intro hSplit
    have hJoin : ['/'].intercalate (text.splitOn '/') = text := List.intercalate_splitOn '/'
    rw [← hJoin, ← split_eq_splitOn, hSplit]
    rfl
  · rintro rfl
    rfl

/-- The pieces that a start is written in. -/
def Start.spelling : Start → List (List Char)
  | .root => [[]]
  | .here => [['.']]
  | .relative => []

theorem Start.slash_not_mem_spelling (start : Start) : ∀ piece ∈ start.spelling, '/' ∉ piece := by
  cases start <;> decide

/-- Pieces that can stand behind a start. There is no slash in any of them, and
where there is no start the first one is a part. -/
structure Follow (start : Start) (pieces : List (List Char)) : Prop where
  plain : ∀ piece ∈ pieces, '/' ∉ piece
  heard : start = .relative → ∀ first ∈ pieces.head?, isSilent first = false

theorem Follow.nil : Follow start [] := ⟨nofun, fun _ => nofun⟩

theorem Follow.of_append {rest : List (List Char)} (hFollow : Follow start (pieces ++ rest)) :
    Follow start pieces := by
  refine ⟨fun piece hPiece => hFollow.plain piece (List.mem_append_left rest hPiece), ?_⟩
  intro hRelative first hFirst
  refine hFollow.heard hRelative first ?_
  rw [Option.mem_def] at hFirst ⊢
  rw [List.head?_append, hFirst, Option.some_or]

/-- A path that is not empty is split into those of its start and those behind it. -/
theorem split_eq (hText : path.text ≠ "") :
    split path.text.toList = path.pieces.1.spelling ++ path.pieces.2 ∧
      Follow path.pieces.1 path.pieces.2 := by
  have hPlain : ∀ piece ∈ split path.text.toList, '/' ∉ piece := by
    intro piece hPiece
    rw [split_eq_splitOn] at hPiece
    exact not_mem_of_mem_splitOn hPiece
  unfold pieces
  split
  · rename_i piece rest hSplit
    rw [hSplit] at hPlain ⊢
    exact ⟨rfl, fun piece hPiece => hPlain piece (List.mem_cons_of_mem _ hPiece), nofun⟩
  · rename_i rest hSplit
    rw [hSplit] at hPlain ⊢
    exact ⟨rfl, fun piece hPiece => hPlain piece (List.mem_cons_of_mem _ hPiece), nofun⟩
  · rename_i hNotRoot hNotHere
    refine ⟨rfl, hPlain, fun _ first hFirst => ?_⟩
    obtain ⟨rest, hSplit⟩ := List.head?_eq_some_iff.mp hFirst
    have hSome : first ≠ [] := by
      rintro rfl
      cases rest with
      | nil => exact hText (String.toList_eq_nil_iff.mp (split_eq_nil_iff.mp hSplit))
      | cons piece more => exact hNotRoot piece more hSplit
    have hNotDot : first ≠ ['.'] := by
      rintro rfl
      exact hNotHere rest hSplit
    simp [isSilent, hSome, hNotDot]

theorem pieces_of_split (hFollow : Follow start pieces) (hSome : pieces ≠ [])
    (hSplit : split path.text.toList = start.spelling ++ pieces) :
    path.pieces = (start, pieces) := by
  obtain ⟨first, rest, rfl⟩ := List.exists_cons_of_ne_nil hSome
  cases start with
  | root => rw [Path.pieces, hSplit]; rfl
  | here => rw [Path.pieces, hSplit]; rfl
  | relative =>
      have hHeard := hFollow.heard rfl first rfl
      have hFirst : first ≠ [] ∧ first ≠ ['.'] := by simpa [isSilent] using hHeard
      rw [Start.spelling, List.nil_append] at hSplit
      rw [Path.pieces, hSplit]
      split
      · rename_i hSame
        exact absurd (List.cons.inj hSame).1 hFirst.1
      · rename_i hSame
        exact absurd (List.cons.inj hSame).1 hFirst.2
      · rfl

/-- A path that is put together from pieces has these pieces, or one empty piece
in place of none. -/
theorem pieces_ofPieces (hFollow : Follow start pieces) :
    (ofPieces start pieces).pieces = (start, pieces) ∨
      pieces = [] ∧ (ofPieces start pieces).pieces = (start, [[]]) := by
  cases pieces with
  | nil =>
      cases start with
      | root => exact .inr ⟨rfl, rfl⟩
      | here => exact .inl rfl
      | relative => exact .inr ⟨rfl, rfl⟩
  | cons first rest =>
      have hText : (ofPieces start (first :: rest)).text.toList =
          join (start.spelling ++ first :: rest) := by
        cases start <;> simp [ofPieces, Start.spelling]
      refine .inl (pieces_of_split hFollow (List.cons_ne_nil first rest) ?_)
      rw [hText, split_eq_splitOn, join_eq_intercalate]
      refine List.splitOn_intercalate '/' (fun piece hPiece => ?_) (by simp)
      rcases List.mem_append.mp hPiece with hStart | hRest
      · exact start.slash_not_mem_spelling piece hStart
      · exact hFollow.plain piece hRest

theorem parts_eq (path : Path) :
    path.parts = path.pieces.1.parts ++ path.pieces.2.filterMap part? := rfl

theorem parts_ofPieces (hFollow : Follow start pieces) :
    (ofPieces start pieces).parts = start.parts ++ pieces.filterMap part? := by
  rw [parts_eq]
  rcases pieces_ofPieces hFollow with hSame | ⟨rfl, hNone⟩
  · rw [hSame]
  · rw [hNone]
    rfl

theorem parents_ofPieces (hFollow : Follow start pieces) :
    (ofPieces start pieces).parents = above start pieces.reverse := by
  rw [parents]
  rcases pieces_ofPieces hFollow with hSame | ⟨rfl, hNone⟩
  · rw [hSame]
  · rw [hNone]
    rfl

theorem filterMap_dropWhile_isSilent (pieces : List (List Char)) :
    (pieces.dropWhile isSilent).filterMap part? = pieces.filterMap part? := by
  induction pieces with
  | nil => rfl
  | cons piece rest ih =>
      cases hSilent : isSilent piece with
      | true =>
          have hNone : part? piece = none := by rw [part?, if_pos hSilent]
          rw [List.dropWhile_cons_of_pos hSilent, ih, List.filterMap_cons_none hNone]
      | false => rw [List.dropWhile_cons_of_neg (by simp [hSilent])]

/-- Pieces that are no parts do not matter for what is above a path. -/
theorem above_dropWhile_isSilent (start : Start) (back : List (List Char)) :
    above start (back.dropWhile isSilent) = above start back := by
  induction back with
  | nil => rfl
  | cons piece rest ih =>
      cases hSilent : isSilent piece with
      | true => rw [List.dropWhile_cons_of_pos hSilent, ih, above, if_pos hSilent]
      | false => rw [List.dropWhile_cons_of_neg (by simp [hSilent])]

/-- How a path continues upwards. Either nothing is above it, and it means no more
than the root; or it means the parts of the path above it and one more, and
whatever else is above it is above that path. -/
def Rises (parts : List Part) (above : List Path) : Prop :=
  above = [] ∧ (parts = [] ∨ parts = [.root]) ∨
    ∃ (parent : Path) (last : Part), above = parent :: parent.parents ∧
      parts = parent.parts ++ [last]

theorem rises_above (hFollow : Follow start back.reverse) :
    Rises (start.parts ++ back.reverse.filterMap part?) (above start back) := by
  induction back with
  | nil =>
      cases start with
      | root => exact .inl ⟨rfl, .inr rfl⟩
      | here => exact .inr ⟨⟨""⟩, .here, rfl, rfl⟩
      | relative => exact .inl ⟨rfl, .inl rfl⟩
  | cons piece rest ih =>
      rw [List.reverse_cons] at hFollow ⊢
      have hRest := hFollow.of_append
      cases hSilent : isSilent piece with
      | true =>
          have hNone : part? piece = none := by rw [part?, if_pos hSilent]
          rw [above, if_pos hSilent, List.filterMap_append, List.filterMap_cons_none hNone,
            List.filterMap_nil, List.append_nil]
          exact ih hRest
      | false =>
          obtain ⟨last, hPart⟩ : ∃ last, part? piece = some last := by
            rw [part?, hSilent, if_neg Bool.false_ne_true]
            split_ifs
            · exact ⟨.up, rfl⟩
            · exact ⟨.name piece, rfl⟩
          have hHeard : Follow start (rest.dropWhile isSilent).reverse := by
            rw [← List.takeWhile_append_dropWhile (p := isSilent) (l := rest),
              List.reverse_append] at hRest
            exact hRest.of_append
          have hParents := parents_ofPieces hHeard
          rw [List.reverse_reverse, above_dropWhile_isSilent] at hParents
          rw [above, hSilent, if_neg Bool.false_ne_true, ← hParents]
          refine .inr ⟨_, last, rfl, ?_⟩
          rw [parts_ofPieces hHeard, List.filterMap_append, List.filterMap_reverse,
            List.filterMap_reverse, filterMap_dropWhile_isSilent, List.filterMap_cons_some hPart,
            List.filterMap_nil, List.append_assoc]

theorem rises_parents (path : Path) : Rises path.parts path.parents := by
  by_cases hText : path.text = ""
  · obtain ⟨text⟩ := path
    obtain rfl : text = "" := hText
    exact .inl ⟨rfl, .inl rfl⟩
  · obtain ⟨-, hFollow⟩ := split_eq hText
    rw [← List.reverse_reverse path.pieces.2] at hFollow
    have hRises := rises_above hFollow
    rw [List.reverse_reverse] at hRises
    exact hRises

/-- The parts of the path above are those of the path without the last. Where there is
no path above, no more than a root is lost. -/
theorem dropLast_parts (path : Path) :
    path.parts.dropLast = (path.parent?.map parts).getD [] := by
  rw [parent?]
  rcases rises_parents path with ⟨hNone, hTop⟩ | ⟨parent, last, hParents, hParts⟩
  · rw [hNone]
    rcases hTop with hEmpty | hRoot
    · rw [hEmpty]
      rfl
    · rw [hRoot]
      rfl
  · rw [hParents, hParts, List.dropLast_concat]
    rfl

/-- A path with a file name has a path above it, which means the parts without that
name. -/
theorem exists_parent {last : List Char} (hName : path.fileName? = some last) :
    ∃ parent, path.parent? = some parent ∧ path.parts = parent.parts ++ [.name last] := by
  have hLast : path.parts.getLast? = some (.name last) := by
    unfold fileName? at hName
    split at hName
    · rename_i name hParts
      rw [hParts, Option.some.inj hName]
    · cases hName
  rcases rises_parents path with ⟨-, hEmpty | hRoot⟩ | ⟨parent, part, hParents, hParts⟩
  · rw [hEmpty] at hLast
    cases hLast
  · rw [hRoot] at hLast
    cases hLast
  · rw [hParts, List.getLast?_concat] at hLast
    refine ⟨parent, by rw [parent?, hParents, List.head?_cons], ?_⟩
    rw [hParts, Option.some.inj hLast]

/-- The paths above a path, and the path itself, are the beginnings of its parts,
the empty one apart. -/
theorem exists_parts_eq_iff (path : Path) {parts : List Part} (hSome : parts ≠ []) :
    (∃ ancestor ∈ path :: path.parents, ancestor.parts = parts) ↔ parts <+: path.parts := by
  induction hAbove : path.parents generalizing path with
  | nil =>
      rcases rises_parents path with ⟨-, hTop⟩ | ⟨parent, last, hParents, -⟩
      · simp only [List.mem_singleton, exists_eq_left]
        rcases hTop with hEmpty | hRoot
        · rw [hEmpty, List.prefix_nil, eq_comm]
        · rw [hRoot, List.prefix_cons_iff]
          simp [hSome, eq_comm]
      · rw [hAbove] at hParents
        cases hParents
  | cons parent rest ih =>
      rcases rises_parents path with ⟨hNone, -⟩ | ⟨parent', last, hParents, hParts⟩
      · rw [hAbove] at hNone
        cases hNone
      · rw [hAbove] at hParents
        obtain ⟨rfl, rfl⟩ := List.cons.inj hParents
        have hPrefix := ih parent rfl
        rw [hParts, List.prefix_concat_iff, ← hPrefix, ← hParts, List.exists_mem_cons_iff]
        exact or_congr_left eq_comm

example : (Path.parents ⟨"./a/../b//"⟩).map text = ["./a/..", "./a", ".", ""] := by decide

theorem parts_eq_nil_iff : path.parts = [] ↔ path.text = "" := by
  constructor
  · intro hParts
    by_contra hText
    obtain ⟨hSplit, hFollow⟩ := split_eq hText
    rw [parts_eq, List.append_eq_nil_iff] at hParts
    cases hStart : path.pieces.1 with
    | root => simp [hStart, Start.parts] at hParts
    | here => simp [hStart, Start.parts] at hParts
    | relative =>
        have hSome : path.pieces.2 ≠ [] := by
          intro hNone
          rw [hStart, hNone, split_eq_splitOn] at hSplit
          exact List.splitOn_ne_nil '/' path.text.toList hSplit
        obtain ⟨first, rest, hPieces⟩ := List.exists_cons_of_ne_nil hSome
        have hHeard := hFollow.heard hStart first (by rw [hPieces]; rfl)
        have hFirst := List.filterMap_eq_nil_iff.mp hParts.2 first (by simp [hPieces])
        rw [part?, hHeard, if_neg Bool.false_ne_true] at hFirst
        split_ifs at hFirst
  · intro hText
    obtain ⟨text⟩ := path
    obtain rfl : text = "" := hText
    rfl

variable {name : String}

theorem Follow.append_name (hFollow : Follow start pieces) (hName : IsName name) :
    Follow start (pieces ++ [name.toList]) := by
  constructor
  · intro piece hPiece
    rcases List.mem_append.mp hPiece with hOld | hNew
    · exact hFollow.plain piece hOld
    · obtain rfl := List.mem_singleton.mp hNew
      exact hName.plain
  · intro hRelative first hFirst
    cases pieces with
    | nil =>
        obtain rfl := Option.some.inj hFirst
        exact hName.heard
    | cons piece rest => exact hFollow.heard hRelative first hFirst

/-- An empty piece at the end of a path might as well not be there. -/
theorem exists_front {before : List (List Char)} (hText : path.text ≠ "")
    (hSplit : split path.text.toList = before ∨ split path.text.toList = before ++ [[]]) :
    ∃ front, before = path.pieces.1.spelling ++ front ∧ Follow path.pieces.1 front ∧
      path.parts = path.pieces.1.parts ++ front.filterMap part? := by
  obtain ⟨hPieces, hFollow⟩ := split_eq hText
  rcases hSplit with hSame | hSlash
  · exact ⟨path.pieces.2, hSame.symm.trans hPieces, hFollow, parts_eq path⟩
  rw [hSlash] at hPieces
  rcases List.eq_nil_or_concat path.pieces.2 with hNone | ⟨front, last, hLast⟩
  · -- Only a root is spelled with an empty piece, and the path would be empty then.
    rw [hNone, List.append_nil] at hPieces
    cases hStart : path.pieces.1 with
    | root =>
        rw [hPieces, hStart] at hSlash
        exact absurd (String.toList_eq_nil_iff.mp (split_eq_nil_iff.mp hSlash)) hText
    | here => simp [hStart, Start.spelling, List.append_eq_singleton_iff] at hPieces
    | relative => simp [hStart, Start.spelling] at hPieces
  · rw [List.concat_eq_append] at hLast
    rw [hLast, ← List.append_assoc] at hPieces
    obtain ⟨hBefore, hEmpty⟩ := List.append_inj' hPieces rfl
    obtain rfl := List.singleton_inj.mp hEmpty
    refine ⟨front, hBefore, (hLast ▸ hFollow).of_append, ?_⟩
    rw [parts_eq, hLast, List.filterMap_append, List.filterMap_cons_none rfl,
      List.filterMap_nil, List.append_nil]

/-- A name within a directory is one more part. -/
theorem parts_within (hName : IsName name) :
    (directory.within ⟨name⟩).parts = directory.parts ++ [.name name.toList] := by
  have hPart : part? name.toList = some (.name name.toList) := by
    rw [part?, hName.heard, if_neg Bool.false_ne_true, if_neg hName.notUp]
  by_cases hText : directory.text = ""
  · have hAlone : directory.within ⟨name⟩ = ⟨name⟩ := by simp [within, hText]
    have hPieces : Path.pieces ⟨name⟩ = (.relative, [name.toList]) :=
      pieces_of_split (Follow.nil.append_name hName) (by simp) (split_eq_singleton hName.plain)
    rw [hAlone, parts_eq, hPieces, parts_eq_nil_iff.mpr hText, List.filterMap_cons_some hPart]
    rfl
  · obtain ⟨before, hWithin, hDirectory⟩ := @split_within directory name hName
    obtain ⟨front, hBefore, hFront, hParts⟩ := exists_front hText hDirectory
    rw [hBefore, List.append_assoc] at hWithin
    have hPieces := pieces_of_split (hFront.append_name hName) (by simp) hWithin
    rw [parts_eq, hPieces, hParts, List.filterMap_append, List.filterMap_cons_some hPart,
      List.filterMap_nil, List.append_assoc]

end Path

end PageGen
