import PageGen.Proofs.Command.Outputs
import PageGen.Proofs.Files.Memory

/-! Writing a site to files in memory. If one of its files can be written then all
of them can, since they go into one directory, and this directory is made unless
there is something in its place. -/
namespace PageGen

namespace MemoryFiles

variable {files : MemoryFiles} {directory : Path}

/-- Whether a file is known at the path, be it added or written. -/
def isKnownFile (files : MemoryFiles) (path : Path) : Bool :=
  files.added.contains path.parts || (files.read path).isSome

theorem pathExists_eq (files : MemoryFiles) (path : Path) :
    files.pathExists path = (files.isKnownFile path || files.hasDirectory path) := by
  rw [pathExists, isKnownFile, Bool.or_right_comm]

theorem pathExists_apply (path : Path) (files : MemoryFiles) :
    FileStore.pathExists (m := StateM MemoryFiles) path files =
      (files.pathExists path, files) := rfl

theorem createDirectories_apply (path : Path) (files : MemoryFiles) :
    FileStore.createDirectories (m := StateM MemoryFiles) path files =
      (.ok (), files.createDirectories path) := rfl

theorem write_apply (path : Path) (content : String) (files : MemoryFiles) :
    FileStore.write (m := StateM MemoryFiles) path content files =
      perform (.write path content) files := rfl

/-- A file can be written into a directory if that is there, or is none. -/
theorem accepts_within_iff {name : String} (hName : Path.IsName name) :
    files.Accepts (directory.within ⟨name⟩) ↔
      directory.text = "" ∨ files.hasDirectory directory = true := by
  rw [accepts_iff, Path.parts_within hName, List.dropLast_concat, Path.parts_eq_nil_iff,
    hasDirectory_iff]

/-- Making directories adds the directory and all that is above it. -/
theorem hasDirectory_createDirectories_iff {path : Path} :
    (files.createDirectories directory).hasDirectory path = true ↔
      files.hasDirectory path = true ∨
        ∃ ancestor ∈ directory :: directory.parents,
          ancestor.text ≠ "" ∧ ancestor.parts = path.parts := by
  rw [hasDirectory_iff, hasDirectory_iff, createDirectories, List.mem_append, or_comm,
    mem_ancestors_iff]
  refine or_congr_right ⟨?_, ?_⟩
  · rintro ⟨hSome, hPrefix⟩
    obtain ⟨ancestor, hAbove, hParts⟩ := (Path.exists_parts_eq_iff directory hSome).mpr hPrefix
    refine ⟨ancestor, hAbove, fun hText => hSome ?_, hParts⟩
    rw [← hParts, Path.parts_eq_nil_iff.mpr hText]
  · rintro ⟨ancestor, hAbove, hText, hParts⟩
    have hSome : path.parts ≠ [] := fun hNone =>
      hText (Path.parts_eq_nil_iff.mp (hParts.trans hNone))
    exact ⟨hSome, (Path.exists_parts_eq_iff directory hSome).mp ⟨ancestor, hAbove, hParts⟩⟩

/-- Makes a directory unless there is something in its place. -/
def ensureDirectory (files : MemoryFiles) (directory : Path) : MemoryFiles :=
  if files.pathExists directory then files else files.createDirectories directory

theorem read_ensureDirectory (path : Path) :
    (files.ensureDirectory directory).read path = files.read path := by
  unfold ensureDirectory
  split <;> rfl

theorem hasDirectory_ensureDirectory_iff {path : Path} :
    (files.ensureDirectory directory).hasDirectory path = true ↔
      files.hasDirectory path = true ∨ files.pathExists directory = false ∧
        ∃ ancestor ∈ directory :: directory.parents,
          ancestor.text ≠ "" ∧ ancestor.parts = path.parts := by
  unfold ensureDirectory
  cases files.pathExists directory with
  | true => simp
  | false => simpa using hasDirectory_createDirectories_iff

/-- Only a file in the place of a directory prevents that it is there afterwards. -/
theorem ensureDirectory_ready_iff :
    directory.text = "" ∨ (files.ensureDirectory directory).hasDirectory directory = true ↔
      ¬(directory.text ≠ "" ∧ files.isKnownFile directory = true ∧
        files.hasDirectory directory = false) := by
  by_cases hText : directory.text = ""
  · simp [hText]
  · have hSelf : ∃ ancestor ∈ directory :: directory.parents,
        ancestor.text ≠ "" ∧ ancestor.parts = directory.parts :=
      ⟨directory, List.mem_cons_self, hText, rfl⟩
    rw [hasDirectory_ensureDirectory_iff, and_iff_left hSelf, pathExists_eq, or_iff_right hText,
      and_iff_right hText]
    cases files.isKnownFile directory <;> cases files.hasDirectory directory <;> decide

end MemoryFiles

namespace Command

variable {files after : MemoryFiles} {directory : Path} {site : Site} {target : Target}
  {targets : List Target}

/-- The files of these targets are in the directory, with the text of the site. What
is read elsewhere and which directories there are has stayed the same. -/
structure Stores (directory : Path) (site : Site) (targets : List Target)
    (files after : MemoryFiles) : Prop where
  stored : ∀ target ∈ targets,
    after.read (directory.within ⟨target.fileName⟩) = some (site.text target)
  others : ∀ path, (∀ target ∈ targets,
    (directory.within ⟨target.fileName⟩).parts ≠ path.parts) → after.read path = files.read path
  directories : after.directories = files.directories

/-- The files of different targets differ in their last parts. -/
theorem parts_within_injective {other : Target}
    (hSame : (directory.within ⟨target.fileName⟩).parts =
      (directory.within ⟨other.fileName⟩).parts) : target = other := by
  rw [Path.parts_within target.isName_fileName, Path.parts_within other.isName_fileName] at hSame
  have hPart := List.singleton_inj.mp (List.append_cancel_left hSame)
  exact Target.fileName_injective (String.ext (Path.Part.name.inj hPart))

namespace Stores

theorem none (files : MemoryFiles) : Stores directory site [] files files :=
  ⟨nofun, fun _ _ => rfl, rfl⟩

/-- A file that is written first stays when the others are written. -/
theorem cons (hNew : target ∉ targets)
    (hRest : Stores directory site targets { files with written :=
      ((directory.within ⟨target.fileName⟩).parts, site.text target) :: files.written } after) :
    Stores directory site (target :: targets) files after := by
  refine ⟨List.forall_mem_cons.mpr ⟨?_, hRest.stored⟩, ?_, hRest.directories⟩
  · have hOther : ∀ other ∈ targets, (directory.within ⟨other.fileName⟩).parts ≠
        (directory.within ⟨target.fileName⟩).parts := by
      intro other hOther hSame
      obtain rfl := parts_within_injective hSame
      exact hNew hOther
    rw [hRest.others _ hOther, MemoryFiles.read_written, if_pos rfl]
  · intro path hOther
    rw [List.forall_mem_cons] at hOther
    rw [hRest.others path hOther.2, MemoryFiles.read_written, if_neg hOther.1]

end Stores

/-- Into a directory that is there, or none, all files are written. -/
theorem writeEach_stores (site : Site) (hDistinct : targets.Nodup)
    (hReady : directory.text = "" ∨ files.hasDirectory directory = true) :
    ∃ after, (writeEach (m := StateM MemoryFiles) directory site targets).run files =
        (.ok (targets.map fun target => directory.within ⟨target.fileName⟩), after) ∧
      Stores directory site targets files after := by
  induction targets generalizing files with
  | nil => exact ⟨files, rfl, .none files⟩
  | cons target others ih =>
      rw [List.nodup_cons] at hDistinct
      have hAccepts := (MemoryFiles.accepts_within_iff target.isName_fileName).mpr hReady
      have hStillReady : directory.text = "" ∨ { files with written :=
          ((directory.within ⟨target.fileName⟩).parts, site.text target) ::
            files.written }.hasDirectory directory = true := hReady
      obtain ⟨after, hOthers, hStores⟩ := ih hDistinct.2 hStillReady
      refine ⟨after, ?_, .cons hDistinct.1 hStores⟩
      simp only [writeEach, run_bind, run_lift, MemoryFiles.write_apply,
        MemoryFiles.write_of_accepts hAccepts, hOthers, run_pure, List.map_cons]

/-- Without its directory the first file is not written, and no other is tried. -/
theorem writeEach_refused (site : Site) (target : Target) (others : List Target)
    (hText : directory.text ≠ "") (hMissing : files.hasDirectory directory = false) :
    ∃ failure, (writeEach (m := StateM MemoryFiles) directory site (target :: others)).run files =
      (.error failure, files) := by
  have hRefuses : ¬files.Accepts (directory.within ⟨target.fileName⟩) := by
    rw [MemoryFiles.accepts_within_iff target.isName_fileName, hMissing]
    simp [hText]
  obtain ⟨parent, -, -, -, hWrite⟩ :=
    MemoryFiles.write_of_not_accepts hRefuses (site.text target)
  refine ⟨.notWritten (directory.within ⟨target.fileName⟩) (.missingDirectory parent), ?_⟩
  simp only [writeEach, run_bind, run_lift, MemoryFiles.write_apply, hWrite, run_throw]

theorem writeSite_run (files : MemoryFiles) (directory : Path) (site : Site) :
    (writeSite (m := StateM MemoryFiles) directory site).run files =
      (writeEach (m := StateM MemoryFiles) directory site Site.targets).run
        (files.ensureDirectory directory) := by
  unfold MemoryFiles.ensureDirectory
  cases hExists : files.pathExists directory with
  | true =>
      simp only [writeSite, run_bind, run_lift, MemoryFiles.pathExists_apply, hExists,
        Bool.not_true, Bool.false_eq_true, if_false, if_true]
  | false =>
      simp only [writeSite, run_bind, run_lift, MemoryFiles.pathExists_apply, hExists,
        Bool.not_false, if_true, MemoryFiles.createDirectories_apply, Bool.false_eq_true, if_false]

/-- Writing a site to files in memory is all or nothing, whatever is there before. It
fails exactly if a file is in the place of the directory, and then everything is as
it was. Otherwise the three files are there with their texts, what is read elsewhere
is what it was, and the only new directories are the one that the files are in and
those above it, and these only where nothing was in its place. -/
theorem writing_is_all_or_nothing (files : MemoryFiles) (destination : Path) (site : Site) :
    ∃ result after,
      (writeSite (m := StateM MemoryFiles) destination site).run files = (result, after) ∧
      ((∃ failure, result = .error failure) ↔ destination.text ≠ "" ∧
        files.isKnownFile destination = true ∧ files.hasDirectory destination = false) ∧
      (∀ failure, result = .error failure → after = files) ∧
      ∀ paths, result = .ok paths →
        paths = [destination.within ⟨"index.html"⟩, destination.within ⟨"stylesheet.css"⟩,
          destination.within ⟨"script.js"⟩] ∧
        paths.map after.read = [some site.html, some site.css, some site.js] ∧
        (∀ path, (∀ written ∈ paths, written.parts ≠ path.parts) →
          after.read path = files.read path) ∧
        ∀ path, after.hasDirectory path = true ↔ files.hasDirectory path = true ∨
          files.pathExists destination = false ∧
            ∃ ancestor ∈ destination :: destination.parents,
              ancestor.text ≠ "" ∧ ancestor.parts = path.parts := by
  have hDistinct : Site.targets.Nodup := by decide
  by_cases hReady : destination.text = "" ∨
      (files.ensureDirectory destination).hasDirectory destination = true
  · obtain ⟨after, hRun, hStores⟩ := writeEach_stores site hDistinct hReady
    have hFree := MemoryFiles.ensureDirectory_ready_iff.mp hReady
    refine ⟨_, after, (writeSite_run files destination site).trans hRun, ?_, nofun, ?_⟩
    · exact ⟨nofun, fun hBlocked => absurd hBlocked hFree⟩
    · intro paths hPaths
      obtain rfl := Except.ok.inj hPaths
      refine ⟨rfl, ?_, fun path hOther => ?_, fun path => ?_⟩
      · rw [List.map_map]
        exact List.map_congr_left hStores.stored
      · have hElsewhere := hStores.others path fun target hTarget =>
          hOther _ (List.mem_map_of_mem hTarget)
        rw [hElsewhere, MemoryFiles.read_ensureDirectory]
      · rw [← MemoryFiles.hasDirectory_ensureDirectory_iff, MemoryFiles.hasDirectory_iff,
          MemoryFiles.hasDirectory_iff, hStores.directories]
  · have hBlocked := not_not.mp (mt MemoryFiles.ensureDirectory_ready_iff.mpr hReady)
    have hSame : files.ensureDirectory destination = files := by
      rw [MemoryFiles.ensureDirectory, MemoryFiles.pathExists_eq, hBlocked.2.1]
      rfl
    obtain ⟨failure, hRun⟩ :=
      writeEach_refused site .html [.css, .js] hBlocked.1 hBlocked.2.2
    refine ⟨.error failure, files, ?_, ?_, fun _ _ => rfl, nofun⟩
    · rw [writeSite_run, hSame]
      exact hRun
    · exact ⟨fun _ => hBlocked, fun _ => ⟨failure, rfl⟩⟩

end Command

end PageGen
