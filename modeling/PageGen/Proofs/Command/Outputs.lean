import PageGen.Proofs.Command.Preparing
import PageGen.Proofs.Files.Places

/-! What the command changes. The files are written one after another into the
directory of the job, which is made first if nothing is there. However far this
comes, the files that were to be written up to then are there with their whole
content, and apart from new directories on the way nothing else has changed. -/
namespace PageGen

/-- Where a file of this name belongs in a directory. -/
def FileTree.PlaceOf (tree : FileTree) (directory : Path) (name : String) (place : Location) :
    Prop :=
  ∃ parent, tree.locate directory = .ok parent ∧ tree.entry? parent = some .directory ∧
    place = parent ++ [name.toList]

namespace Command

/-- The files of these names are in the directory, with their texts. Besides them no
more than some directories is new, each of which one of the paths leads to, and no
directory is gone. -/
structure Outputs (made : List Path) (directory : Path) (written : List (String × String))
    (tree after : FileTree) : Prop where
  keeps : FileTree.KeepsDirectories tree after
  files : ∀ name text, (name, text) ∈ written →
    ∃ place, after.PlaceOf directory name place ∧ after.entry? place = some (.file text.toUTF8)
  others : ∀ place, (∀ name text, (name, text) ∈ written → ¬after.PlaceOf directory name place) →
    after.entry? place = tree.entry? place ∨
      tree.entry? place = none ∧ after.entry? place = some .directory ∧
        ∃ path ∈ made, after.locate path = .ok place

/-- The file of a target, as its name and its text. -/
def fileOf (site : Site) (target : Target) : String × String := (target.fileName, site.text target)

/-- How writing files into a directory can end, with what it results in: all of
them have been written, or one could not be written and those before it have been. -/
inductive Ends (made : List Path) (directory : Path) (site : Site) (targets : List Target)
    (tree : FileTree) : Except CommandFailure (List Path) → FileTree → Prop where
  | complete {after : FileTree}
      (hOutputs : Outputs made directory (targets.map (fileOf site)) tree after) :
      Ends made directory site targets tree
        (.ok (targets.map fun target => directory.within ⟨target.fileName⟩)) after
  | notWritten {written rest : List Target} {failing : Target} {cause : FileError}
      {after : FileTree} (hTargets : targets = written ++ failing :: rest)
      (hOutputs : Outputs made directory (written.map (fileOf site)) tree after) :
      Ends made directory site targets tree
        (.error (.notWritten (directory.within ⟨failing.fileName⟩) cause)) after

end Command

namespace FileTree

variable {tree next after : FileTree} {directory : Path} {name : String} {place : Location}

theorem KeepsDirectories.placeOf (hKeeps : KeepsDirectories tree after)
    (hPlace : tree.PlaceOf directory name place) : after.PlaceOf directory name place := by
  obtain ⟨parent, hLocate, hEntry, hPlace⟩ := hPlace
  exact ⟨parent, hKeeps.locate hLocate, hKeeps parent hEntry, hPlace⟩

/-- Files of different names belong to different places. -/
theorem PlaceOf.name_eq {other : String} (hPlace : tree.PlaceOf directory name place)
    (hOther : tree.PlaceOf directory other place) : name = other := by
  obtain ⟨parent, -, -, rfl⟩ := hPlace
  obtain ⟨parent', -, -, hSame⟩ := hOther
  have hNames := (List.append_inj' hSame rfl).2
  exact String.ext (List.singleton_inj.mp hNames)

theorem isFile_iff {path : Path} :
    tree.isFile path = true ↔ ∃ content, tree.find path = .ok (.file content) := by
  unfold isFile
  cases tree.find path with
  | error cause => simp
  | ok entry => cases entry <;> simp

/-- Writing a file into a directory puts it where it belongs. -/
theorem write_within_eq_ok (hName : Path.IsName name) {content : String}
    (hWrite : tree.write (directory.within ⟨name⟩) content = .ok next) :
    ∃ place, tree.PlaceOf directory name place ∧ tree.entry? place ≠ some .directory ∧
      next = tree.put place (.file content.toUTF8) := by
  obtain ⟨place, hLocate, hEntry, hNext⟩ := write_eq_ok_iff.mp hWrite
  exact ⟨place, (locate_within_eq_ok_iff hName).mp hLocate, hEntry, hNext⟩

end FileTree

theorem Target.isName_fileName (target : Target) : Path.IsName target.fileName := by
  cases target <;> decide

theorem Target.fileName_injective {target other : Target}
    (hSame : target.fileName = other.fileName) : target = other := by
  cases target <;> cases other <;> simp_all [Target.fileName]

namespace Command

variable {tree next after : FileTree} {directory : Path} {site : Site} {made : List Path}
  {written : List (String × String)}

theorem Outputs.none (tree : FileTree) : Outputs made directory [] tree tree :=
  ⟨.refl tree, nofun, fun _ _ => .inl rfl⟩

/-- A file that is written first stays when the others are written. -/
theorem Outputs.cons {name text : String} {place : Location}
    (hPlace : tree.PlaceOf directory name place) (hEntry : tree.entry? place ≠ some .directory)
    (hNew : ∀ other content, (other, content) ∈ written → other ≠ name)
    (hRest : Outputs [] directory written (tree.put place (.file text.toUTF8)) after) :
    Outputs [] directory ((name, text) :: written) tree after := by
  have hKeeps := (FileTree.keepsDirectories_put hEntry _).trans hRest.keeps
  have hAfter := hKeeps.placeOf hPlace
  refine ⟨hKeeps, ?_, ?_⟩
  · intro other content hMem
    rcases List.mem_cons.mp hMem with hFirst | hOthers
    · obtain ⟨rfl, rfl⟩ := Prod.mk.inj hFirst
      refine ⟨place, hAfter, ?_⟩
      have hOther : ∀ next content, (next, content) ∈ written →
          ¬after.PlaceOf directory next place :=
        fun next content hNext hSame => hNew next content hNext (hSame.name_eq hAfter)
      rcases hRest.others place hOther with hSame | ⟨-, -, path, hPath, -⟩
      · rw [hSame, FileTree.entry?_put hEntry, if_pos rfl]
      · cases hPath
    · exact hRest.files other content hOthers
  · intro other hOther
    have hOthers : ∀ next content, (next, content) ∈ written →
        ¬after.PlaceOf directory next other :=
      fun next content hNext => hOther next content (List.mem_cons_of_mem _ hNext)
    rcases hRest.others other hOthers with hSame | ⟨-, -, path, hPath, -⟩
    · refine .inl ?_
      rw [hSame, FileTree.entry?_put hEntry, if_neg]
      rintro rfl
      exact hOther name text List.mem_cons_self hAfter
    · cases hPath

/-- Directories that were made before do not matter to what is written into them. -/
theorem Outputs.after_directories (hAdds : FileTree.AddsDirectories made tree next)
    (hRest : Outputs [] directory written next after) :
    Outputs made directory written tree after := by
  refine ⟨hAdds.keepsDirectories.trans hRest.keeps, hRest.files, fun place hOther => ?_⟩
  rcases hRest.others place hOther with hSame | ⟨-, -, path, hPath, -⟩
  · rw [hSame]
    rcases hAdds place with hUnchanged | ⟨hMissing, hMade, path, hPath, hLocate⟩
    · exact .inl hUnchanged
    · exact .inr ⟨hMissing, hMade, path, hPath, hRest.keeps.locate hLocate⟩
  · cases hPath

/-- A file of another name is what it was. -/
theorem Outputs.find_eq (hOutputs : Outputs made directory written tree after) {path : Path}
    {last : List Char}
    (hLast : ∀ place, tree.locate path = .ok place → ∃ parent, place = parent ++ [last])
    (hOther : ∀ name text, (name, text) ∈ written → name.toList ≠ last)
    (hFile : tree.isFile path = true) : after.find path = tree.find path := by
  obtain ⟨content, hFind⟩ := FileTree.isFile_iff.mp hFile
  obtain ⟨place, hLocate, hEntry⟩ := FileTree.find_eq_ok_iff.mp hFind
  have hElsewhere : ∀ name text, (name, text) ∈ written →
      ¬after.PlaceOf directory name place := by
    rintro name text hMem ⟨parent, -, -, hSame⟩
    obtain ⟨parent', rfl⟩ := hLast place hLocate
    exact hOther name text hMem (List.singleton_inj.mp (List.append_inj' hSame rfl).2).symm
  rw [hFind, FileTree.find_eq_ok_iff]
  refine ⟨place, hOutputs.keeps.locate hLocate, ?_⟩
  rcases hOutputs.others place hElsewhere with hSame | ⟨hMissing, -⟩
  · rw [hSame, hEntry]
  · cases hEntry.symm.trans hMissing

theorem write_apply (path : Path) (content : String) (tree : FileTree) :
    FileStore.write (m := StateM FileTree) path content tree =
      match tree.write path content with
      | .ok next => (.ok (), next)
      | .error cause => (.error cause, tree) := rfl

theorem Ends.after_directories {targets : List Target}
    {result : Except CommandFailure (List Path)}
    (hAdds : FileTree.AddsDirectories made tree next)
    (hEnds : Ends [] directory site targets next result after) :
    Ends made directory site targets tree result after := by
  cases hEnds with
  | complete hOutputs => exact .complete (hOutputs.after_directories hAdds)
  | notWritten hTargets hOutputs => exact .notWritten hTargets (hOutputs.after_directories hAdds)

/-- The files of different targets differ in their names. -/
theorem fileName_ne_of_mem_map {target : Target} {targets : List Target} (hNew : target ∉ targets) :
    ∀ name text, (name, text) ∈ targets.map (fileOf site) → name ≠ target.fileName := by
  rintro name text hMem rfl
  obtain ⟨other, hOther, hSame⟩ := List.mem_map.mp hMem
  obtain rfl := Target.fileName_injective (Prod.mk.inj hSame).1
  exact hNew hOther

/-- Whether or not a file fails, those before it have been written. -/
theorem writeEach_ends {targets : List Target} (hDistinct : targets.Nodup)
    {result : Except CommandFailure (List Path)}
    (hRun : (writeEach (m := StateM FileTree) directory site targets).run tree = (result, after)) :
    Ends [] directory site targets tree result after := by
  induction targets generalizing tree result after with
  | nil =>
      obtain ⟨rfl, rfl⟩ := Prod.mk.inj hRun
      exact .complete (.none tree)
  | cons target others ih =>
      rw [List.nodup_cons] at hDistinct
      cases hWrite : tree.write (directory.within ⟨target.fileName⟩) (site.text target) with
      | error cause =>
          simp only [writeEach, run_bind, run_lift, write_apply, hWrite, run_throw] at hRun
          obtain ⟨rfl, rfl⟩ := Prod.mk.inj hRun
          have hTargets : target :: others = [] ++ target :: others := rfl
          exact .notWritten hTargets (.none tree)
      | ok next =>
          obtain ⟨place, hPlace, hEntry, rfl⟩ :=
            FileTree.write_within_eq_ok target.isName_fileName hWrite
          simp only [writeEach, run_bind, run_lift, write_apply, hWrite] at hRun
          rcases hOthers : (writeEach (m := StateM FileTree) directory site others).run
            (tree.put place (.file (site.text target).toUTF8)) with ⟨rest, final⟩
          rw [hOthers] at hRun
          cases ih hDistinct.2 hOthers with
          | complete hOutputs =>
              obtain ⟨rfl, rfl⟩ := Prod.mk.inj hRun
              exact .complete (.cons hPlace hEntry (fileName_ne_of_mem_map hDistinct.1) hOutputs)
          | @notWritten written rest failing cause _ hTargets hOutputs =>
              obtain ⟨rfl, rfl⟩ := Prod.mk.inj hRun
              subst hTargets
              have hNew : target ∉ written := fun hMem =>
                hDistinct.1 (List.mem_append_left _ hMem)
              have hTargets : target :: (written ++ failing :: rest) =
                (target :: written) ++ failing :: rest := rfl
              exact .notWritten hTargets
                (.cons hPlace hEntry (fileName_ne_of_mem_map hNew) hOutputs)

/-- The directory is made with those above it, if nothing is there. If that is
not possible nothing is written. -/
theorem writeSite_ends {result : Except CommandFailure (List Path)}
    (hRun : (writeSite (m := StateM FileTree) directory site).run tree = (result, after)) :
    Ends (directory :: directory.parents) directory site Site.targets tree result after ∨
      ∃ cause, result = .error (.notCreated directory cause) ∧
        Outputs (directory :: directory.parents) directory [] tree after := by
  have hDistinct : Site.targets.Nodup := by decide
  cases hExists : tree.pathExists directory with
  | true =>
      simp only [writeSite, run_bind, run_lift, FileTree.pathExists_apply, hExists, Bool.not_true,
        Bool.false_eq_true, if_false] at hRun
      exact .inl ((writeEach_ends hDistinct hRun).after_directories (.refl tree))
  | false =>
      have hAdds := FileTree.createDirectories_adds directory tree
      rcases hCreate : FileStore.createDirectories (m := StateM FileTree) directory tree with
        ⟨cause | value, next⟩
      · rw [hCreate] at hAdds
        simp only [writeSite, run_bind, run_lift, FileTree.pathExists_apply, hExists,
          Bool.not_false, if_true, hCreate, run_throw] at hRun
        obtain ⟨rfl, rfl⟩ := Prod.mk.inj hRun
        exact .inr ⟨cause, rfl, (Outputs.none next).after_directories hAdds⟩
      · rw [hCreate] at hAdds
        simp only [writeSite, run_bind, run_lift, FileTree.pathExists_apply, hExists,
          Bool.not_false, if_true, hCreate] at hRun
        exact .inl ((writeEach_ends hDistinct hRun).after_directories hAdds)

end Command

end PageGen
