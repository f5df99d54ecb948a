import PageGen.Files.Memory
import PageGen.Proofs.Files.Parents

/-! Files in memory over whole runs of operations. What is above a directory is a
directory, and what is written has a directory above it or nothing at all. A file
holds what was written to it last, and nothing that is there goes away. -/
namespace PageGen

/-- Something that is done to files in memory. -/
inductive FileOperation where
  | addFile (path : Path)
  | createDirectories (path : Path)
  | write (path : Path) (content : String)

namespace MemoryFiles

/-- Performs an operation, which may fail. -/
def perform : FileOperation → StateM MemoryFiles (Except FileError Unit)
  | .addFile path => fun files => (.ok (), files.addFile path)
  | .createDirectories path => FileStore.createDirectories path
  | .write path content => FileStore.write path content

/-- The files after operations one after another. No failure ends the run. -/
def runFrom (files : MemoryFiles) (operations : List FileOperation) : MemoryFiles :=
  operations.foldl (fun files operation => (perform operation files).2) files

/-- The files after a run, before which there were none. -/
def run (operations : List FileOperation) : MemoryFiles := runFrom empty operations

/-- What an operation has written, going by its answer. -/
def writtenBy : FileOperation → Except FileError Unit → List (Path × String)
  | .write path content, .ok () => [(path, content)]
  | _, _ => []

/-- The writes of a run that succeed, in order. -/
def successfulWrites : MemoryFiles → List FileOperation → List (Path × String)
  | _, [] => []
  | files, operation :: rest =>
    writtenBy operation (perform operation files).1 ++
      successfulWrites (perform operation files).2 rest

/-- The content of the last of these writes that is to this path, in any spelling. -/
def lastContent? (writes : List (Path × String)) (path : Path) : Option String :=
  (writes.findRev? fun write => write.1.parts == path.parts).map Prod.snd

/-- There is a directory to write the path into, or no need of one. -/
def Accepts (files : MemoryFiles) (path : Path) : Prop :=
  ∀ parent, path.parent? = some parent → parent.text = "" ∨ files.hasDirectory parent = true

/-- Everything above a directory is a directory, and everything that is written
has been accepted. -/
structure Closed (files : MemoryFiles) : Prop where
  directories : ∀ parts ∈ files.directories, ∀ beginning, beginning ≠ [] →
    beginning <+: parts → beginning ∈ files.directories
  written : ∀ path content, files.read path = some content → files.Accepts path

/-- All that is there in the one state is there in the other. -/
structure Grows (files after : MemoryFiles) : Prop where
  added : files.added ⊆ after.added
  directories : files.directories ⊆ after.directories
  written : ∀ path, (files.read path).isSome = true → (after.read path).isSome = true

variable {files next after : MemoryFiles} {path other : Path} {content : String}

theorem mem_ancestors_iff {parts all : List Path.Part} :
    parts ∈ ancestors all ↔ parts ≠ [] ∧ parts <+: all := by
  induction all generalizing parts with
  | nil => simp [ancestors]
  | cons part rest ih =>
      cases parts with
      | nil => simp [ancestors]
      | cons first others =>
          by_cases hOthers : others = []
          · simp [ancestors, hOthers, ih]
          · simp [ancestors, hOthers, ih, List.cons_prefix_cons, and_comm, eq_comm]

theorem hasDirectory_iff : files.hasDirectory path = true ↔ path.parts ∈ files.directories :=
  List.contains_iff_mem

/-- Whether a path is accepted depends on its parts alone. -/
theorem accepts_iff :
    files.Accepts path ↔
      path.parts.dropLast = [] ∨ path.parts.dropLast ∈ files.directories := by
  rw [Path.dropLast_parts, Accepts]
  cases path.parent? with
  | none => simp
  | some parent => simp [hasDirectory_iff, Path.parts_eq_nil_iff]

theorem write_of_accepts (hAccepts : files.Accepts path) (content : String) :
    perform (.write path content) files =
      (.ok (), { files with written := (path.parts, content) :: files.written }) := by
  have hWrite : files.write path content =
      .ok { files with written := (path.parts, content) :: files.written } := by
    rw [write]
    cases hParent : path.parent? with
    | none => rfl
    | some parent => simp [hAccepts parent hParent]
  simp only [perform, FileStore.write, hWrite]

/-- A path that is not accepted has a parent to blame, and nothing changes. -/
theorem write_of_not_accepts (hRefuses : ¬files.Accepts path) (content : String) :
    ∃ parent, path.parent? = some parent ∧ parent.text ≠ "" ∧ files.hasDirectory parent = false ∧
      perform (.write path content) files = (.error (.missingDirectory parent), files) := by
  unfold Accepts at hRefuses
  push Not at hRefuses
  obtain ⟨parent, hParent, hText, hMissing⟩ := hRefuses
  have hWrite : files.write path content = .error (.missingDirectory parent) := by
    rw [write, hParent]
    simp [hText, hMissing]
  refine ⟨parent, hParent, hText, by simpa using hMissing, ?_⟩
  simp only [perform, FileStore.write, hWrite]

/-- A write fails exactly if it needs a directory that is not there. -/
theorem write_fails_iff :
    (∃ cause, (perform (.write path content) files).1 = .error cause) ↔
      ∃ parent, path.parent? = some parent ∧ parent.text ≠ "" ∧
        files.hasDirectory parent = false := by
  by_cases hAccepts : files.Accepts path
  · rw [write_of_accepts hAccepts]
    refine ⟨nofun, ?_⟩
    rintro ⟨parent, hParent, hText, hMissing⟩
    have hDirectory := (hAccepts parent hParent).resolve_left hText
    cases hMissing.symm.trans hDirectory
  · obtain ⟨parent, hParent, hText, hMissing, hWrite⟩ := write_of_not_accepts hAccepts content
    rw [hWrite]
    exact ⟨fun _ => ⟨parent, hParent, hText, hMissing⟩, fun _ => ⟨_, rfl⟩⟩

theorem unchanged_of_write_fails {cause : FileError}
    (hFails : (perform (.write path content) files).1 = .error cause) :
    (perform (.write path content) files).2 = files := by
  by_cases hAccepts : files.Accepts path
  · rw [write_of_accepts hAccepts] at hFails
    cases hFails
  · obtain ⟨parent, -, -, -, hWrite⟩ := write_of_not_accepts hAccepts content
    rw [hWrite]

/-- What is read after a write that has succeeded. -/
theorem read_written (files : MemoryFiles) (path other : Path) (content : String) :
    ({ files with written := (other.parts, content) :: files.written } : MemoryFiles).read path =
      if other.parts = path.parts then some content else files.read path := by
  unfold read
  rw [List.lookup_cons]
  by_cases hSame : other.parts = path.parts
  · simp [hSame]
  · rw [if_neg hSame, beq_eq_false_iff_ne.mpr (Ne.symm hSame)]

namespace Grows

theorem refl (files : MemoryFiles) : Grows files files :=
  ⟨List.Subset.refl _, List.Subset.refl _, fun _ hRead => hRead⟩

theorem trans (hFirst : Grows files next) (hRest : Grows next after) : Grows files after :=
  ⟨List.Subset.trans hFirst.added hRest.added,
    List.Subset.trans hFirst.directories hRest.directories,
    fun path hRead => hRest.written path (hFirst.written path hRead)⟩

theorem perform (files : MemoryFiles) (operation : FileOperation) :
    Grows files (perform operation files).2 := by
  cases operation with
  | addFile path => exact ⟨List.subset_cons_self _ _, List.Subset.refl _, fun _ hRead => hRead⟩
  | createDirectories path =>
      exact ⟨List.Subset.refl _, List.subset_append_right _ _, fun _ hRead => hRead⟩
  | write path content =>
      by_cases hAccepts : files.Accepts path
      · rw [write_of_accepts hAccepts]
        refine ⟨List.Subset.refl _, List.Subset.refl _, fun other hRead => ?_⟩
        rw [read_written]
        split
        · rfl
        · exact hRead
      · obtain ⟨parent, -, -, -, hWrite⟩ := write_of_not_accepts hAccepts content
        rw [hWrite]
        exact .refl files

theorem runFrom (files : MemoryFiles) (operations : List FileOperation) :
    Grows files (runFrom files operations) := by
  induction operations generalizing files with
  | nil => exact .refl files
  | cons operation rest ih => exact (Grows.perform files operation).trans (ih _)

theorem hasDirectory (hGrows : Grows files after) (hDirectory : files.hasDirectory path = true) :
    after.hasDirectory path = true :=
  hasDirectory_iff.mpr (hGrows.directories (hasDirectory_iff.mp hDirectory))

theorem accepts (hGrows : Grows files after) (hAccepts : files.Accepts path) :
    after.Accepts path :=
  fun parent hParent => (hAccepts parent hParent).imp_right hGrows.hasDirectory

theorem pathExists (hGrows : Grows files after) (hExists : files.pathExists path = true) :
    after.pathExists path = true := by
  simp only [MemoryFiles.pathExists, Bool.or_eq_true, List.contains_iff_mem] at hExists ⊢
  rcases hExists with (hAdded | hDirectory) | hRead
  · exact .inl (.inl (hGrows.added hAdded))
  · exact .inl (.inr (hGrows.hasDirectory hDirectory))
  · exact .inr (hGrows.written path hRead)

end Grows

namespace Closed

theorem empty : Closed empty := ⟨nofun, nofun⟩

theorem perform (hClosed : Closed files) (operation : FileOperation) :
    Closed (perform operation files).2 := by
  have hGrows := Grows.perform files operation
  cases operation with
  | addFile path =>
      exact ⟨hClosed.directories, fun other content hRead =>
        hGrows.accepts (hClosed.written other content hRead)⟩
  | createDirectories path =>
      refine ⟨fun parts hParts beginning hSome hPrefix => ?_, fun other content hRead =>
        hGrows.accepts (hClosed.written other content hRead)⟩
      rcases List.mem_append.mp hParts with hNew | hOld
      · have hBelow := (mem_ancestors_iff.mp hNew).2
        exact List.mem_append_left _ (mem_ancestors_iff.mpr ⟨hSome, hPrefix.trans hBelow⟩)
      · exact List.mem_append_right _ (hClosed.directories parts hOld beginning hSome hPrefix)
  | write path content =>
      by_cases hAccepts : files.Accepts path
      · rw [write_of_accepts hAccepts] at hGrows ⊢
        refine ⟨hClosed.directories, fun other text hRead => ?_⟩
        rw [read_written] at hRead
        split at hRead
        · rename_i hSame
          rw [accepts_iff] at hAccepts ⊢
          rw [← hSame]
          exact hAccepts
        · exact hGrows.accepts (hClosed.written other text hRead)
      · obtain ⟨parent, -, -, -, hWrite⟩ := write_of_not_accepts hAccepts content
        rw [hWrite]
        exact hClosed

theorem runFrom (hClosed : Closed files) (operations : List FileOperation) :
    Closed (runFrom files operations) := by
  induction operations generalizing files with
  | nil => exact hClosed
  | cons operation rest ih => exact ih (hClosed.perform operation)

theorem hasDirectory_above {ancestor : Path} (hClosed : Closed files)
    (hDirectory : files.hasDirectory path = true) (hAbove : ancestor ∈ path.parents)
    (hText : ancestor.text ≠ "") : files.hasDirectory ancestor = true := by
  have hSome : ancestor.parts ≠ [] := fun hNone => hText (Path.parts_eq_nil_iff.mp hNone)
  have hPrefix := (Path.exists_parts_eq_iff path hSome).mp
    ⟨ancestor, List.mem_cons_of_mem _ hAbove, rfl⟩
  exact hasDirectory_iff.mpr
    (hClosed.directories _ (hasDirectory_iff.mp hDirectory) _ hSome hPrefix)

end Closed

theorem lastContent?_cons (writes : List (Path × String)) (path other : Path) (content : String) :
    lastContent? ((other, content) :: writes) path =
      (lastContent? writes path).or (if other.parts = path.parts then some content else none) := by
  unfold lastContent?
  rw [List.findRev?]
  cases writes.findRev? fun write => write.1.parts == path.parts with
  | some later => rfl
  | none => by_cases hSame : other.parts = path.parts <;> simp [hSame]

theorem successfulWrites_write_of_accepts (hAccepts : files.Accepts path) (content : String)
    (rest : List FileOperation) :
    successfulWrites files (.write path content :: rest) =
      (path, content) :: successfulWrites (perform (.write path content) files).2 rest := by
  rw [successfulWrites, write_of_accepts hAccepts]
  rfl

theorem successfulWrites_write_of_not_accepts (hRefuses : ¬files.Accepts path) (content : String)
    (rest : List FileOperation) :
    successfulWrites files (.write path content :: rest) = successfulWrites files rest := by
  obtain ⟨parent, -, -, -, hWrite⟩ := write_of_not_accepts hRefuses content
  rw [successfulWrites, hWrite]
  rfl

/-- Only a write that succeeds, to the path itself, has a part in what is read. -/
theorem read_runFrom (files : MemoryFiles) (operations : List FileOperation) (path : Path) :
    (runFrom files operations).read path =
      (lastContent? (successfulWrites files operations) path).or (files.read path) := by
  induction operations generalizing files with
  | nil => rfl
  | cons operation rest ih =>
      have hRest := ih (perform operation files).2
      rw [runFrom, List.foldl_cons, ← runFrom, hRest]
      cases operation with
      | addFile other => rfl
      | createDirectories other => rfl
      | write other content =>
          by_cases hAccepts : files.Accepts other
          · rw [successfulWrites_write_of_accepts hAccepts, lastContent?_cons, Option.or_assoc,
              write_of_accepts hAccepts, read_written]
            split <;> rfl
          · rw [successfulWrites_write_of_not_accepts hAccepts]
            obtain ⟨parent, -, -, -, hWrite⟩ := write_of_not_accepts hAccepts content
            rw [hWrite]

theorem runFrom_append (files : MemoryFiles) (operations later : List FileOperation) :
    runFrom files (operations ++ later) = runFrom (runFrom files operations) later :=
  List.foldl_append

/-- An operation that is no write to the path leaves what is read there. -/
theorem read_perform_of_other {operation : FileOperation}
    (hOther : ∀ other content, operation = .write other content → other.parts ≠ path.parts) :
    (perform operation files).2.read path = files.read path := by
  cases operation with
  | addFile other => rfl
  | createDirectories other => rfl
  | write other content =>
      by_cases hAccepts : files.Accepts other
      · rw [write_of_accepts hAccepts, read_written, if_neg (hOther other content rfl)]
      · obtain ⟨parent, -, -, -, hWrite⟩ := write_of_not_accepts hAccepts content
        rw [hWrite]

/-- Files in memory stay consistent over every run. Paths are compared by their
parts throughout. What is above a directory is a directory; what has been written
has a directory above it, or no need of one; a write fails exactly if it needs a
directory that is not there, and changes nothing then; what is read is what was
last written there with success; and what exists goes on existing. -/
theorem run_stays_consistent (operations : List FileOperation) :
    (∀ path ancestor, (run operations).hasDirectory path = true → ancestor ∈ path.parents →
        ancestor.text ≠ "" → (run operations).hasDirectory ancestor = true) ∧
      (∀ path content, (run operations).read path = some content →
        path.parent? = none ∨ ∃ parent, path.parent? = some parent ∧
          (parent.text = "" ∨ (run operations).hasDirectory parent = true)) ∧
      (∀ path content,
        ((∃ cause, (perform (.write path content) (run operations)).1 = .error cause) ↔
          ∃ parent, path.parent? = some parent ∧ parent.text ≠ "" ∧
            (run operations).hasDirectory parent = false) ∧
        ∀ cause, (perform (.write path content) (run operations)).1 = .error cause →
          (perform (.write path content) (run operations)).2 = run operations) ∧
      (∀ path, (run operations).read path =
        lastContent? (successfulWrites empty operations) path) ∧
      (∀ operation path,
        (∀ other content, operation = .write other content → other.parts ≠ path.parts) →
        (run (operations ++ [operation])).read path = (run operations).read path) ∧
      ∀ later path, (run operations).pathExists path = true →
        (run (operations ++ later)).pathExists path = true := by
  have hClosed := Closed.empty.runFrom operations
  refine ⟨?_, ?_, ?_, ?_, ?_, ?_⟩
  · exact fun path ancestor => hClosed.hasDirectory_above
  · intro path content hRead
    have hAccepts := hClosed.written path content hRead
    cases hParent : path.parent? with
    | none => exact .inl rfl
    | some parent => exact .inr ⟨parent, rfl, hAccepts parent hParent⟩
  · exact fun path content => ⟨write_fails_iff, fun cause => unchanged_of_write_fails⟩
  · intro path
    have hRead := read_runFrom empty operations path
    have hNothing : empty.read path = none := rfl
    rw [hNothing, Option.or_none] at hRead
    exact hRead
  · intro operation path hOther
    rw [run, runFrom_append]
    exact read_perform_of_other hOther
  · intro later path hExists
    rw [run, runFrom_append]
    exact (Grows.runFrom (run operations) later).pathExists hExists

end MemoryFiles

end PageGen
