import Mathlib
import PageGen.Proofs.Command.Outputs
import PageGen.Proofs.Targets

/-! The command as a whole on a tree of files: what it prints and what it
changes, whatever its arguments, its working directory and the files are. -/
namespace PageGen

/-- A document does not bear the name of one of the files that are generated. -/
theorem Path.fileName?_of_extension? {path : Path}
    (hExtension : path.extension? = some "json".toList) :
    ∃ last, path.fileName? = some last ∧ ∀ target : Target, target.fileName.toList ≠ last := by
  unfold extension? at hExtension
  split at hExtension
  · cases hExtension
  · rename_i last hLast
    refine ⟨last, hLast, ?_⟩
    rintro target rfl
    revert hExtension
    cases target <;> decide

namespace Command

/-- The files of a site, with their names and their texts, in the order in which they
are written. -/
def siteFiles (site : Site) : List (String × String) :=
  [("index.html", site.html), ("stylesheet.css", site.css), ("script.js", site.js)]

/-- The text that shows these files, each under its name. -/
def listing (site : Site) : String :=
  String.join
    ["/* index.html */\n" ++ site.html ++ "\n",
      "/* stylesheet.css */\n" ++ site.css ++ "\n",
      "/* script.js */\n" ++ site.js ++ "\n"]

theorem map_fileOf_targets (site : Site) : Site.targets.map (fileOf site) = siteFiles site := rfl

theorem printed_eq {target : Target} {label : String}
    (hLabel : "/* " ++ target.fileName ++ " */\n" = label) (site : Site) :
    printed site target = label ++ site.text target ++ "\n" := by
  rw [printed, hLabel]

theorem join_printed (site : Site) :
    String.join (Site.targets.map (printed site)) = listing site := by
  have hHtml : "/* " ++ Target.html.fileName ++ " */\n" = "/* index.html */\n" := by cbv
  have hCss : "/* " ++ Target.css.fileName ++ " */\n" = "/* stylesheet.css */\n" := by cbv
  have hJs : "/* " ++ Target.js.fileName ++ " */\n" = "/* script.js */\n" := by cbv
  rw [Site.targets, List.map_cons, List.map_cons, List.map_cons, List.map_nil, printed_eq hHtml,
    printed_eq hCss, printed_eq hJs, listing, Site.text, Site.text, Site.text]

theorem isName_settingsName : Path.IsName settingsName.text := by decide

theorem fileName_ne_settingsName (target : Target) :
    target.fileName.toList ≠ settingsName.text.toList := by
  cases target <;> decide

/-- These files are in the destination, and besides them only directories that were
missing on the way there are new. -/
def Job.Done (job : Job) (written : List (String × String)) (tree after : FileTree) : Prop :=
  Outputs (job.destination :: job.destination.parents) job.destination written tree after

variable {cwd : Path} {request : GenerateRequest} {tree after : FileTree} {report : Report}
  {job : Job}

/-- What is written bears the names of the files of a site. -/
theorem exists_target_of_mem {site : Site} {written rest : List (String × String)}
    (hFiles : siteFiles site = written ++ rest) {name text : String}
    (hMem : (name, text) ∈ written) : ∃ target : Target, name = target.fileName := by
  have hSite : (name, text) ∈ Site.targets.map (fileOf site) := by
    rw [map_fileOf_targets, hFiles]
    exact List.mem_append_left rest hMem
  obtain ⟨target, -, hSame⟩ := List.mem_map.mp hSite
  exact ⟨target, (Prod.mk.inj hSame).1.symm⟩

section

variable {made : List Path} {directory : Path} {site : Site} {written rest : List (String × String)}
  (hOutputs : Outputs made directory written tree after)
  (hFiles : siteFiles site = written ++ rest)

include hOutputs hFiles

/-- A document is not touched by what is written. -/
theorem Outputs.find_document_eq {file : Path} (hExtension : file.extension? = some "json".toList)
    (hFile : tree.isFile file = true) : after.find file = tree.find file := by
  obtain ⟨last, hLast, hOther⟩ := Path.fileName?_of_extension? hExtension
  refine hOutputs.find_eq (fun _ hLocate => FileTree.locate_bears_fileName hLast hLocate)
    (fun name text hMem => ?_) hFile
  obtain ⟨target, rfl⟩ := exists_target_of_mem hFiles hMem
  exact hOther target

/-- No settings are touched by what is written. -/
theorem Outputs.find_settings_eq {place : Path}
    (hFile : tree.isFile (place.within settingsName) = true) :
    after.find (place.within settingsName) = tree.find (place.within settingsName) := by
  have hPlace : ∀ found, tree.locate (place.within settingsName) = .ok found →
      ∃ parent, found = parent ++ [settingsName.text.toList] := fun found hLocate => by
    obtain ⟨parent, -, -, hFound⟩ :=
      (FileTree.locate_within_eq_ok_iff isName_settingsName).mp hLocate
    exact ⟨parent, hFound⟩
  refine hOutputs.find_eq hPlace (fun name text hMem => ?_) hFile
  obtain ⟨target, rfl⟩ := exists_target_of_mem hFiles hMem
  exact fileName_ne_settingsName target

end

/-- Without a job the command reports why, and that is all. -/
theorem generate_of_not_prepares
    (hNone : ∀ job, ¬Prepares tree cwd request.file request.destination request.strict job) :
    ∃ failure,
      (generate cwd request : StateM FileTree Report) tree = (failed "" failure, tree) := by
  obtain ⟨result, hRun, hResult⟩ := prepare_looks cwd request tree
  cases result with
  | ok job => exact absurd ((hResult job).mp rfl) (hNone job)
  | error failure =>
      have hPrepare : prepare (m := StateM FileTree) cwd request tree =
        (.error failure, tree) := hRun
      refine ⟨failure, ?_⟩
      unfold generate
      rw [state_bind, ExceptT.run, hPrepare]
      rfl

/-- With a job the command goes on to print or to write. -/
theorem generate_of_prepares
    (hPrepares : Prepares tree cwd request.file request.destination request.strict job) :
    (generate cwd request : StateM FileTree Report) tree =
      if request.toStdout then
        (⟨0, String.join (Site.targets.map (printed job.site)), warnings job.site⟩, tree)
      else
        match (writeSite (m := StateM FileTree) job.destination job.site).run tree with
        | (.error failure, after) => (failed (warnings job.site) failure, after)
        | (.ok paths, after) =>
          (⟨0, String.join (List.zipWith confirmation Site.targets paths), warnings job.site⟩,
            after) := by
  obtain ⟨result, hRun, hResult⟩ := prepare_looks cwd request tree
  obtain rfl := (hResult job).mpr hPrepares
  have hPrepare : prepare (m := StateM FileTree) cwd request tree = (.ok job, tree) := hRun
  unfold generate
  rw [state_bind, ExceptT.run, hPrepare]
  cases request.toStdout with
  | true => rfl
  | false =>
      simp only [Bool.false_eq_true, if_false, state_bind]
      rcases hWrite : (writeSite (m := StateM FileTree) job.destination job.site).run tree with
        ⟨failure | paths, after⟩
      · rfl
      · rfl

/-- A run that writes has done its job, or has done it up to what it fails at. -/
theorem generate_writes
    (hPrepares : Prepares tree cwd request.file request.destination request.strict job)
    (hWrites : request.toStdout = false)
    (hRun : (generate cwd request : StateM FileTree Report) tree = (report, after)) :
    (report.code = 0 ∧ job.Done (siteFiles job.site) tree after) ∨
    (∃ written name text rest cause, siteFiles job.site = written ++ (name, text) :: rest ∧
      report = failed (warnings job.site) (.notWritten (job.destination.within ⟨name⟩) cause) ∧
      job.Done written tree after) ∨
    ∃ cause, report = failed (warnings job.site) (.notCreated job.destination cause) ∧
      job.Done [] tree after := by
  rw [generate_of_prepares hPrepares, hWrites, if_neg Bool.false_ne_true] at hRun
  rcases hWrite : (writeSite (m := StateM FileTree) job.destination job.site).run tree with
    ⟨result, final⟩
  rw [hWrite] at hRun
  rcases writeSite_ends hWrite with hEnds | ⟨cause, rfl, hOutputs⟩
  · cases hEnds with
    | complete hOutputs =>
        obtain ⟨rfl, rfl⟩ := Prod.mk.inj hRun
        exact .inl ⟨rfl, hOutputs⟩
    | @notWritten written rest failing cause _ hTargets hOutputs =>
        obtain ⟨rfl, rfl⟩ := Prod.mk.inj hRun
        have hFiles : siteFiles job.site = written.map (fileOf job.site) ++
            (failing.fileName, job.site.text failing) :: rest.map (fileOf job.site) := by
          rw [← map_fileOf_targets, hTargets, List.map_append, List.map_cons, fileOf]
        exact .inr (.inl ⟨_, _, _, _, cause, hFiles, rfl, hOutputs⟩)
  · obtain ⟨rfl, rfl⟩ := Prod.mk.inj hRun
    exact .inr (.inr ⟨cause, rfl, hOutputs⟩)

/-- A run that prints shows the site, and that is all. -/
theorem generate_prints
    (hPrepares : Prepares tree cwd request.file request.destination request.strict job)
    (hPrints : request.toStdout = true)
    (hRun : (generate cwd request : StateM FileTree Report) tree = (report, after)) :
    after = tree ∧
      report = ⟨0, listing job.site, warnings job.site⟩ := by
  rw [generate_of_prepares hPrepares, if_pos hPrints, join_printed] at hRun
  obtain ⟨rfl, rfl⟩ := Prod.mk.inj hRun
  exact ⟨rfl, rfl⟩

/-- What is printed is what the same run would have written without being asked to print. -/
theorem generate_prints_what_is_written {report' : Report} {after' : FileTree}
    (hPrints : request.toStdout = true)
    (hRun : (generate cwd request : StateM FileTree Report) tree = (report, after))
    (hWriting : (generate cwd { request with toStdout := false } : StateM FileTree Report) tree =
      (report', after')) (hCode : report'.code = 0) :
    ∃ job : Job, job.Done (siteFiles job.site) tree after' ∧ report.stdout = listing job.site := by
  have hFailed : ∀ warnings failure, report' ≠ failed warnings failure := by
    rintro warnings failure rfl
    cases hCode
  by_cases hJob : ∃ job, Prepares tree cwd request.file request.destination request.strict job
  case neg =>
    obtain ⟨failure, hNothing⟩ := @generate_of_not_prepares cwd { request with toStdout := false }
      tree (not_exists.mp hJob)
    exact absurd (Prod.mk.inj (hWriting.symm.trans hNothing)).1 (hFailed "" failure)
  obtain ⟨job, hPrepares⟩ := hJob
  obtain ⟨-, rfl⟩ := generate_prints hPrepares hPrints hRun
  have hPreparesWriting : Prepares tree cwd { request with toStdout := false }.file
    { request with toStdout := false }.destination { request with toStdout := false }.strict job :=
      hPrepares
  rcases generate_writes hPreparesWriting rfl hWriting with
    ⟨-, hDone⟩ | ⟨_, _, _, _, _, -, hReport, -⟩ | ⟨_, hReport, -⟩
  · exact ⟨job, hDone, rfl⟩
  · exact absurd hReport (hFailed _ _)
  · exact absurd hReport (hFailed _ _)

/-- A run has changed nothing, or it has written the files of a site up to one of them:
none, all, or those before the one it failed at. -/
theorem generate_outputs
    (hRun : (generate cwd request : StateM FileTree Report) tree = (report, after)) :
    after = tree ∨
      ∃ job : Job, Prepares tree cwd request.file request.destination request.strict job ∧
        ∃ written rest, siteFiles job.site = written ++ rest ∧ job.Done written tree after := by
  by_cases hJob : ∃ job, Prepares tree cwd request.file request.destination request.strict job
  case neg =>
    obtain ⟨failure, hNothing⟩ := generate_of_not_prepares (not_exists.mp hJob)
    exact .inl (Prod.mk.inj (hRun.symm.trans hNothing)).2
  obtain ⟨job, hPrepares⟩ := hJob
  cases hStdout : request.toStdout with
  | true => exact .inl (generate_prints hPrepares hStdout hRun).1
  | false =>
      refine .inr ⟨job, hPrepares, ?_⟩
      rcases generate_writes hPrepares hStdout hRun with
        ⟨-, hDone⟩ | ⟨written, name, text, rest, _, hFiles, -, hDone⟩ | ⟨_, -, hDone⟩
      · exact ⟨siteFiles job.site, [], (List.append_nil _).symm, hDone⟩
      · exact ⟨written, (name, text) :: rest, hFiles, hDone⟩
      · exact ⟨[], siteFiles job.site, rfl, hDone⟩

/-- The document is not changed by a run. -/
theorem generate_find_document_eq
    (hRun : (generate cwd request : StateM FileTree Report) tree = (report, after))
    (hFile : tree.isFile (cwd.within request.file) = true) :
    after.find (cwd.within request.file) = tree.find (cwd.within request.file) := by
  rcases generate_outputs hRun with rfl | ⟨job, hPrepares, written, rest, hFiles, hDone⟩
  · rfl
  · exact Outputs.find_document_eq hDone hFiles hPrepares.extension hFile

/-- Settings are not changed by a run, wherever they are. -/
theorem generate_find_settings_eq {place : Path}
    (hRun : (generate cwd request : StateM FileTree Report) tree = (report, after))
    (hFile : tree.isFile (place.within settingsName) = true) :
    after.find (place.within settingsName) = tree.find (place.within settingsName) := by
  rcases generate_outputs hRun with rfl | ⟨job, -, written, rest, hFiles, hDone⟩
  · rfl
  · exact Outputs.find_settings_eq hDone hFiles hFile

theorem run_of_arguments {arguments : List String}
    (hArguments : Invocation.ofArguments arguments = some (.generate request)) :
    (run cwd arguments : StateM FileTree Report) tree =
      (generate cwd request : StateM FileTree Report) tree := by
  rw [run, hArguments]

/-- The command changes exactly its outputs. If anything that it needs is missing
it changes nothing and reports a failure; if all is there the site is the one of
the document under the settings, made strict if that was asked for. Printing changes
nothing and shows the text of the three files, as the same run would have written
them. Writing puts this text into the three files of the destination, one after
another, and where this fails the files before the failing one have been written and
the others not; nothing else has changed but for directories that were missing on the
way to the destination. The document stays as it was in any case, and so do all
settings. -/
theorem run_changes_outputs {arguments : List String}
    (hArguments : Invocation.ofArguments arguments = some (.generate request))
    (hRun : (run cwd arguments : StateM FileTree Report) tree = (report, after)) :
    ((∀ job, ¬Prepares tree cwd request.file request.destination request.strict job) →
      after = tree ∧ ∃ failure, report = failed "" failure) ∧
    (∀ job, Prepares tree cwd request.file request.destination request.strict job →
      (request.toStdout = true → after = tree ∧
        report = ⟨0, listing job.site, warnings job.site⟩) ∧
      (request.toStdout = false →
        (report.code = 0 ∧ job.Done (siteFiles job.site) tree after) ∨
        (∃ written name text rest cause, siteFiles job.site = written ++ (name, text) :: rest ∧
          report = failed (warnings job.site)
            (.notWritten (job.destination.within ⟨name⟩) cause) ∧
          job.Done written tree after) ∨
        ∃ cause, report = failed (warnings job.site) (.notCreated job.destination cause) ∧
          job.Done [] tree after)) ∧
    (request.toStdout = true → ∀ report' after',
      (generate cwd { request with toStdout := false } : StateM FileTree Report) tree =
        (report', after') → report'.code = 0 →
      ∃ job : Job, job.Done (siteFiles job.site) tree after' ∧
        report.stdout = listing job.site) ∧
    (tree.isFile (cwd.within request.file) = true →
      after.find (cwd.within request.file) = tree.find (cwd.within request.file)) ∧
    ∀ directory : Path, tree.isFile (directory.within ⟨"simpleui.config.json"⟩) = true →
      after.find (directory.within ⟨"simpleui.config.json"⟩) =
        tree.find (directory.within ⟨"simpleui.config.json"⟩) := by
  have hGenerate := (run_of_arguments hArguments).symm.trans hRun
  refine ⟨fun hNone => ?_, fun job hPrepares =>
      ⟨fun hPrints => generate_prints hPrepares hPrints hGenerate,
        fun hWrites => generate_writes hPrepares hWrites hGenerate⟩,
    fun hPrints report' after' hWriting hCode =>
      generate_prints_what_is_written hPrints hGenerate hWriting hCode,
    fun hFile => generate_find_document_eq hGenerate hFile,
    fun directory hFile => generate_find_settings_eq hGenerate hFile⟩
  obtain ⟨failure, hNothing⟩ := generate_of_not_prepares hNone
  obtain ⟨rfl, rfl⟩ := Prod.mk.inj (hGenerate.symm.trans hNothing)
  exact ⟨rfl, failure, rfl⟩

/-- An empty document in a directory of its own, without settings. -/
def pageTree : FileTree :=
  ⟨[(["site".toList], .directory), (["site".toList, "page.json".toList], .file "{}".toUTF8)]⟩

def pageRequest : GenerateRequest := ⟨⟨"page.json"⟩, some ⟨"out"⟩, false, true⟩

theorem pageTree_prepares : ∃ site,
    Prepares pageTree ⟨"/site"⟩ ⟨"page.json"⟩ (some ⟨"out"⟩) true ⟨site, ⟨"/site/out"⟩⟩ := by
  have hFile : Path.within ⟨"/site"⟩ ⟨"page.json"⟩ = ⟨"/site/page.json"⟩ := by decide
  have hSettings : Path.within ⟨"/site"⟩ ⟨"simpleui.config.json"⟩ = ⟨"/site/simpleui.config.json"⟩ :=
    by decide
  have hDocument : Document.ofText "{}" = .ok Document.empty := by cbv
  obtain ⟨site, hSite⟩ : ∃ site, (Site.generate Document.empty ⟨"  ", true⟩).result = .ok site := by
    simp only [Site.generate, Site.part, Site.compile, Html.compile_eq, Css.compile_eq,
      Document.empty, Pass.walk_nil]
    exact ⟨_, rfl⟩
  have hDestination : Path.within ⟨"/site"⟩ ⟨"out"⟩ = ⟨"/site/out"⟩ := by decide
  refine ⟨site, ?_, ?_, ⟨"/site"⟩, "{}", Settings.default, Document.empty, ?_, ?_, ?_, hDocument,
    hSite, ?_⟩
  · rw [hFile]
    rfl
  · rw [hFile]
    rfl
  · rw [hFile]
    decide
  · rw [hFile]
    rfl
  · refine .default ?_
    rw [hSettings]
    rfl
  · rw [← hDestination]
    exact .requested ⟨"out"⟩ none

/-- The tree after as many of the files have been written beside the document. -/
def writtenTree (site : Site) (targets : List Target) : FileTree :=
  targets.foldl
    (fun tree target => tree.put ["site".toList, "out".toList, target.fileName.toList]
      (.file (site.text target).toUTF8))
    (pageTree.put ["site".toList, "out".toList] .directory)

/-- Nothing is in the way of the files of a site. -/
theorem writeSite_pageTree (site : Site) : ∃ paths,
    (writeSite (m := StateM FileTree) ⟨"/site/out"⟩ site).run pageTree =
      (.ok paths, writtenTree site Site.targets) := by
  have hMissing : pageTree.pathExists ⟨"/site/out"⟩ = false := rfl
  have hCreate : FileStore.createDirectories (m := StateM FileTree) ⟨"/site/out"⟩ pageTree =
    (.ok (), writtenTree site []) := rfl
  have hHtml : (writtenTree site []).write (Path.within ⟨"/site/out"⟩ ⟨Target.html.fileName⟩)
    (site.text .html) = .ok (writtenTree site [.html]) := rfl
  have hCss : (writtenTree site [.html]).write (Path.within ⟨"/site/out"⟩ ⟨Target.css.fileName⟩)
    (site.text .css) = .ok (writtenTree site [.html, .css]) := rfl
  have hJs : (writtenTree site [.html, .css]).write (Path.within ⟨"/site/out"⟩ ⟨Target.js.fileName⟩)
    (site.text .js) = .ok (writtenTree site [.html, .css, .js]) := rfl
  simp only [writeSite, run_bind, run_lift, FileTree.pathExists_apply, hMissing, Bool.not_false,
    if_true, hCreate, Site.targets, writeEach, write_apply, hHtml, hCss, hJs, run_pure]
  exact ⟨_, rfl⟩

/-- The site of an empty document is written beside it. -/
theorem run_on_pageTree_changes_outputs :
    Invocation.ofArguments ["generate", "page.json", "-d", "out", "--strict"] =
        some (.generate pageRequest) ∧
      ∃ job report after, Prepares pageTree ⟨"/site"⟩ ⟨"page.json"⟩ (some ⟨"out"⟩) true job ∧
        (run ⟨"/site"⟩ ["generate", "page.json", "-d", "out", "--strict"] :
          StateM FileTree Report) pageTree = (report, after) ∧
        report.code = 0 ∧ job.Done (siteFiles job.site) pageTree after ∧
        after.find ⟨"/site/page.json"⟩ = pageTree.find ⟨"/site/page.json"⟩ := by
  have hArguments : Invocation.ofArguments ["generate", "page.json", "-d", "out", "--strict"] =
    some (.generate pageRequest) := rfl
  obtain ⟨site, hPrepares⟩ := pageTree_prepares
  obtain ⟨paths, hWrite⟩ := writeSite_pageTree site
  have hRun : (run ⟨"/site"⟩ ["generate", "page.json", "-d", "out", "--strict"] :
      StateM FileTree Report) pageTree =
        (⟨0, String.join (List.zipWith confirmation Site.targets paths), warnings site⟩,
          writtenTree site Site.targets) := by
    rw [run_of_arguments hArguments, @generate_of_prepares _ pageRequest _ _ hPrepares, hWrite]
    rfl
  obtain ⟨-, hJob, -, hInput, -⟩ := run_changes_outputs hArguments hRun
  have hFile : Path.within ⟨"/site"⟩ ⟨"page.json"⟩ = ⟨"/site/page.json"⟩ := by decide
  have hDocument := hInput hPrepares.isFile
  rw [pageRequest, hFile] at hDocument
  refine ⟨hArguments, ⟨site, ⟨"/site/out"⟩⟩, _, _, hPrepares, hRun, rfl, ?_, hDocument⟩
  rcases (hJob _ hPrepares).2 rfl with
    ⟨-, hDone⟩ | ⟨_, _, _, _, _, -, hReport, -⟩ | ⟨_, hReport, -⟩
  · exact hDone
  · cases congrArg Report.code hReport
  · cases congrArg Report.code hReport

end Command

end PageGen
