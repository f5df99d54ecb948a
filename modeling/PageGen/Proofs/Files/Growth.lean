import Mathlib.Tactic.SplitIfs
import PageGen.Files.Tree
import PageGen.Proofs.Run

/-! What the operations on a file tree leave as it was. Writing a file and making
a directory each change the entry of one place, and neither takes a directory
away, so every path that leads somewhere goes on leading there. -/
namespace PageGen

namespace FileTree

variable {tree next after : FileTree} {location place : Location} {entry : Entry} {path : Path}

/-- Where there is no directory, the root not being there either, something can be put. -/
theorem entry?_put (hPlace : tree.entry? place ≠ some .directory) (entry : Entry)
    (location : Location) :
    entry? (tree.put place entry) location =
      if location = place then some entry else tree.entry? location := by
  unfold entry? put
  split_ifs with hRoot hSame hSame
  · rw [← hSame, hRoot] at hPlace
    exact absurd rfl hPlace
  · rfl
  · rw [hSame, List.lookup_cons_self]
  · rw [List.lookup_cons, beq_false_of_ne hSame]

theorem enter_eq_ok_iff :
    tree.enter location = .ok () ↔ tree.entry? location = some .directory := by
  unfold enter
  split <;> simp_all

/-- Every directory of the one tree is a directory of the other. -/
def KeepsDirectories (tree after : FileTree) : Prop :=
  ∀ location, tree.entry? location = some .directory → after.entry? location = some .directory

theorem KeepsDirectories.refl (tree : FileTree) : KeepsDirectories tree tree :=
  fun _ hEntry => hEntry

theorem KeepsDirectories.trans (hFirst : KeepsDirectories tree next)
    (hRest : KeepsDirectories next after) : KeepsDirectories tree after :=
  fun location hEntry => hRest location (hFirst location hEntry)

/-- Something is put where no directory is. -/
theorem keepsDirectories_put (hPlace : tree.entry? place ≠ some .directory) (entry : Entry) :
    KeepsDirectories tree (tree.put place entry) := by
  intro location hEntry
  rw [entry?_put hPlace, if_neg, hEntry]
  rintro rfl
  exact hPlace hEntry

/-- Where one more piece of a path leads from a place. -/
def child (location : Location) (piece : List Char) : Location :=
  if Path.isSilent piece then location
  else if piece = ['.', '.'] then location.dropLast
  else location ++ [piece]

theorem follow_cons (piece : List Char) (rest : List (List Char)) :
    tree.follow location (piece :: rest) = (do
      tree.enter location
      tree.follow (child location piece) rest) := rfl

theorem follow_append (first rest : List (List Char)) :
    tree.follow location (first ++ rest) = (do
      let middle ← tree.follow location first
      tree.follow middle rest) := by
  induction first generalizing location with
  | nil => rfl
  | cons piece pieces ih =>
      simp only [List.cons_append, follow_cons, ih]
      cases tree.enter location <;> rfl

theorem follow_cons_eq_ok_iff {piece : List Char} {rest : List (List Char)} :
    tree.follow location (piece :: rest) = .ok place ↔
      tree.entry? location = some .directory ∧
        tree.follow (child location piece) rest = .ok place := by
  rw [follow_cons, ← enter_eq_ok_iff]
  cases tree.enter location with
  | error cause => simp [bind, Except.bind]
  | ok value => simp [bind, Except.bind]

/-- A path leads on to where it has led. -/
theorem KeepsDirectories.follow (hKeeps : KeepsDirectories tree after)
    {pieces : List (List Char)} (hFollow : tree.follow location pieces = .ok place) :
    after.follow location pieces = .ok place := by
  induction pieces generalizing location with
  | nil => exact hFollow
  | cons piece rest ih =>
      obtain ⟨hEntry, hRest⟩ := follow_cons_eq_ok_iff.mp hFollow
      exact follow_cons_eq_ok_iff.mpr ⟨hKeeps location hEntry, ih hRest⟩

theorem locate_eq_ok_iff : tree.locate path = .ok location ↔
    path.holdsNul = false ∧ tree.follow [] (Path.split path.text.toList) = .ok location := by
  unfold locate checkedPieces
  cases path.holdsNul <;> simp [bind, Except.bind]

theorem KeepsDirectories.locate (hKeeps : KeepsDirectories tree after)
    (hLocate : tree.locate path = .ok location) : after.locate path = .ok location := by
  rw [locate_eq_ok_iff] at hLocate ⊢
  exact ⟨hLocate.1, hKeeps.follow hLocate.2⟩

theorem find_eq_ok_iff : tree.find path = .ok entry ↔
    ∃ location, tree.locate path = .ok location ∧ tree.entry? location = some entry := by
  unfold find
  cases hLocate : tree.locate path with
  | error cause => simp [bind, Except.bind]
  | ok location =>
      cases hEntry : tree.entry? location <;> simp [bind, Except.bind, hEntry]

/-- Writing a file succeeds where there is no directory, and puts it there. -/
theorem write_eq_ok_iff {content : String} : tree.write path content = .ok next ↔
    ∃ location, tree.locate path = .ok location ∧ tree.entry? location ≠ some .directory ∧
      next = tree.put location (.file content.toUTF8) := by
  unfold write
  cases hLocate : tree.locate path with
  | error cause => simp [bind, Except.bind]
  | ok location =>
      cases hEntry : tree.entry? location with
      | none => simp [bind, Except.bind, hEntry, eq_comm]
      | some entry => cases entry <;> simp [bind, Except.bind, hEntry, eq_comm]

/-- The trees differ at most by directories that were missing, each of which is
what one of the paths leads to. -/
def AddsDirectories (paths : List Path) (tree after : FileTree) : Prop :=
  ∀ location, after.entry? location = tree.entry? location ∨
    tree.entry? location = none ∧ after.entry? location = some .directory ∧
      ∃ path ∈ paths, after.locate path = .ok location

namespace AddsDirectories

variable {paths : List Path}

theorem refl (tree : FileTree) : AddsDirectories paths tree tree := fun _ => .inl rfl

theorem keepsDirectories (hAdds : AddsDirectories paths tree after) :
    KeepsDirectories tree after := by
  intro location hEntry
  rcases hAdds location with hSame | ⟨-, hMade, -⟩
  · exact hSame.trans hEntry
  · exact hMade

theorem trans (hFirst : AddsDirectories paths tree next)
    (hRest : AddsDirectories paths next after) : AddsDirectories paths tree after := by
  intro location
  rcases hRest location with hSame | ⟨hMissing, hMade⟩
  · rcases hFirst location with hSame' | ⟨hMissing, hMade, path, hPath, hLocate⟩
    · exact .inl (hSame.trans hSame')
    · exact .inr ⟨hMissing, hSame.trans hMade, path, hPath,
        hRest.keepsDirectories.locate hLocate⟩
  · rcases hFirst location with hSame' | ⟨hMissing', -, -⟩
    · exact .inr ⟨hSame' ▸ hMissing, hMade⟩
    · exact .inr ⟨hMissing', hMade⟩

end AddsDirectories

/-- The pieces before and behind the last one that is not empty. -/
theorem exists_of_dropWhile_reverse {pieces before : List (List Char)} {last : List Char}
    (hPieces : pieces.reverse.dropWhile (· == []) = last :: before) :
    ∃ count, pieces = before.reverse ++ last :: List.replicate count [] := by
  obtain ⟨empty, hEmpty, hAll⟩ : ∃ empty : List (List Char), (∀ piece ∈ empty, piece = []) ∧
      pieces.reverse = empty ++ last :: before := by
    refine ⟨pieces.reverse.takeWhile (· == []), fun piece hPiece => ?_, ?_⟩
    · exact eq_of_beq (List.all_eq_true.mp List.all_takeWhile piece hPiece)
    · rw [← hPieces, List.takeWhile_append_dropWhile]
  refine ⟨empty.length, ?_⟩
  rw [← List.reverse_reverse pieces, hAll, List.eq_replicate_of_mem hEmpty]
  simp

theorem follow_replicate_nil (hEntry : tree.entry? location = some .directory) (count : Nat) :
    tree.follow location (List.replicate count []) = .ok location := by
  induction count with
  | zero => rfl
  | succ count ih => exact follow_cons_eq_ok_iff.mpr ⟨hEntry, ih⟩

/-- Making a directory puts it where its path then leads to, if nothing was there. -/
theorem createDirectory_eq_ok (hCreate : tree.createDirectory path = .ok next) :
    ∃ location, tree.entry? location = none ∧ next = tree.put location .directory ∧
      next.locate path = .ok location := by
  unfold createDirectory at hCreate
  obtain ⟨pieces, hPieces, hRest⟩ := except_bind_eq_ok_iff.mp hCreate
  split at hRest
  · cases hRest
  · rename_i last before hLast
    obtain ⟨parent, hParent, hRest⟩ := except_bind_eq_ok_iff.mp hRest
    obtain ⟨⟨⟩, hEnter, hRest⟩ := except_bind_eq_ok_iff.mp hRest
    rw [enter_eq_ok_iff] at hEnter
    split at hRest
    · cases hRest
    · rename_i hName
      rw [not_or] at hName
      split at hRest
      · cases hRest
      · rename_i hMissing
        obtain rfl := Except.ok.inj hRest
        have hNotDirectory : tree.entry? (parent ++ [last]) ≠ some .directory := by
          rw [hMissing]
          simp
        have hKeeps := keepsDirectories_put hNotDirectory .directory
        have hChild : child parent last = parent ++ [last] := by
          rw [child, if_neg hName.1, if_neg hName.2]
        have hMade : entry? (tree.put (parent ++ [last]) .directory) (parent ++ [last]) =
            some .directory := by
          rw [entry?_put hNotDirectory, if_pos rfl]
        obtain ⟨count, rfl⟩ := exists_of_dropWhile_reverse hLast
        unfold checkedPieces at hPieces
        split at hPieces
        · cases hPieces
        · rename_i hNul
          refine ⟨parent ++ [last], hMissing, rfl, locate_eq_ok_iff.mpr ⟨by simpa using hNul, ?_⟩⟩
          rw [Except.ok.inj hPieces, follow_append, hKeeps.follow hParent]
          refine follow_cons_eq_ok_iff.mpr ⟨hKeeps _ hEnter, ?_⟩
          rw [hChild]
          exact follow_replicate_nil hMade count

theorem createDirectory_adds {paths : List Path} (hPath : path ∈ paths)
    (hCreate : tree.createDirectory path = .ok next) : AddsDirectories paths tree next := by
  obtain ⟨place, hMissing, rfl, hLocate⟩ := createDirectory_eq_ok hCreate
  have hPlace : tree.entry? place ≠ some .directory := by simp [hMissing]
  intro location
  rw [entry?_put hPlace]
  split_ifs with hSame
  · subst hSame
    exact .inr ⟨hMissing, rfl, path, hPath, hLocate⟩
  · exact .inl rfl

/-- Wherever the action starts, it ends with a tree to which only such
directories have been added. -/
def Adds {α : Type} (paths : List Path) (action : StateM FileTree α) : Prop :=
  ∀ tree, AddsDirectories paths tree (action tree).2

namespace Adds

variable {α β : Type} {paths : List Path}

theorem pure (value : α) : Adds paths (Pure.pure value : StateM FileTree α) :=
  fun tree => AddsDirectories.refl tree

theorem bind {action : StateM FileTree α} {continuation : α → StateM FileTree β}
    (hAction : Adds paths action) (hNext : ∀ value, Adds paths (continuation value)) :
    Adds paths (action >>= continuation) :=
  fun tree => (hAction tree).trans (hNext (action tree).1 (action tree).2)

/-- An action that only looks adds nothing. -/
theorem look (view : FileTree → α) :
    Adds paths (fun tree => (view tree, tree) : StateM FileTree α) :=
  fun tree => AddsDirectories.refl tree

theorem createDirectory {path : Path} (hPath : path ∈ paths) :
    Adds paths (attempt (FileTree.createDirectory · path)) := by
  intro tree
  unfold attempt
  split
  · rename_i next hCreate
    exact createDirectory_adds hPath hCreate
  · exact AddsDirectories.refl tree

variable {create : Path → StateM FileTree (Except FileError Unit)}
  {isDirectory : Path → StateM FileTree Bool}

theorem existing (hLook : ∀ path, Adds paths (isDirectory path))
    (outcome : Except FileError Unit) (path : Path) :
    Adds paths (createWithParents.existing isDirectory outcome path) := by
  cases outcome with
  | ok value => exact .pure _
  | error cause =>
      refine (hLook path).bind fun found => ?_
      cases found
      · exact .pure _
      · exact .pure _

theorem createWithParents (hLook : ∀ path, Adds paths (isDirectory path)) {above : List Path}
    (hCreate : ∀ path ∈ above, Adds paths (create path)) :
    Adds paths (createWithParents create isDirectory above) := by
  induction above with
  | nil => exact .pure _
  | cons path above ih =>
      rw [List.forall_mem_cons] at hCreate
      unfold PageGen.createWithParents
      split_ifs
      · exact .pure _
      · refine hCreate.1.bind fun outcome => ?_
        split
        · exact .pure _
        · refine (ih hCreate.2).bind fun outcome => ?_
          cases outcome with
          | error cause => exact .pure _
          | ok value => exact hCreate.1.bind fun outcome => existing hLook outcome path
        · exact existing hLook _ path

end Adds

/-- Making a directory with all that is missing above it adds nothing but these
directories, even if it fails halfway. -/
theorem createDirectories_adds (path : Path) (tree : FileTree) :
    AddsDirectories (path :: path.parents) tree
      ((FileStore.createDirectories (m := StateM FileTree) path) tree).2 :=
  Adds.createWithParents (fun path => .look fun tree => tree.isDirectory path)
    (fun _ hPath => .createDirectory hPath) tree

end FileTree

end PageGen
