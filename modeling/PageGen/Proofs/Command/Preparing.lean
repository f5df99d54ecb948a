import PageGen.Command.Generate
import PageGen.Proofs.Files.Parents

/-! What the command has to find before it prints or writes anything: the
document, the settings beside it, and a site that can be generated from them.
Nothing of this changes a file. -/
namespace PageGen

section

variable {σ ε α β : Type}

theorem state_bind (action : StateM σ α) (next : α → StateM σ β) (state : σ) :
    (action >>= next) state = next (action state).1 (action state).2 := rfl

/-- A failure ends what has been bound, and the state is the one it was met in. -/
theorem run_bind (first : ExceptT ε (StateM σ) α) (next : α → ExceptT ε (StateM σ) β) (state : σ) :
    (first >>= next).run state =
      match first.run state with
      | (.ok value, after) => (next value).run after
      | (.error cause, after) => (.error cause, after) := by
  change ExceptT.bindCont next (first.run state).1 (first.run state).2 = _
  rcases first.run state with ⟨_ | _, after⟩ <;> rfl

theorem run_lift (action : StateM σ α) (state : σ) :
    (liftM action : ExceptT ε (StateM σ) α).run state =
      (.ok (action state).1, (action state).2) := rfl

theorem run_pure (value : α) (state : σ) :
    (pure value : ExceptT ε (StateM σ) α).run state = (.ok value, state) := rfl

theorem run_throw (cause : ε) (state : σ) :
    (throw cause : ExceptT ε (StateM σ) α).run state = (.error cause, state) := rfl

theorem run_mk_pure (result : Except ε α) (state : σ) :
    (ExceptT.mk (pure result) : ExceptT ε (StateM σ) α).run state = (result, state) := rfl

end

namespace FileTree

variable (path : Path) (tree : FileTree)

theorem pathExists_apply :
    FileStore.pathExists (m := StateM FileTree) path tree = (tree.pathExists path, tree) := rfl

theorem isFile_apply :
    FileSystem.isFile (m := StateM FileTree) path tree = (tree.isFile path, tree) := rfl

theorem read_apply :
    FileSystem.read (m := StateM FileTree) path tree = (tree.read path, tree) := rfl

end FileTree

namespace Command

/-- The settings for documents in a directory: those of the file of settings, or
the defaults where there is none. -/
inductive SettingsAt (tree : FileTree) (directory : Path) : Settings → Prop where
  | default (hMissing : tree.pathExists (directory.within ⟨"simpleui.config.json"⟩) = false) :
      SettingsAt tree directory Settings.default
  | read {text : String} {settings : Settings}
      (hFound : tree.pathExists (directory.within ⟨"simpleui.config.json"⟩) = true)
      (hRead : tree.read (directory.within ⟨"simpleui.config.json"⟩) = .ok text)
      (hSettings : Settings.ofText text = .ok settings) : SettingsAt tree directory settings

/-- Where the files go: below the working directory if the arguments name a directory,
else below the directory of the document, to the one that the settings name or to one
of its own. -/
inductive GoesTo (cwd directory : Path) : Option Path → Option String → Path → Prop where
  | requested (path : Path) (named : Option String) :
      GoesTo cwd directory (some path) named (cwd.within path)
  | named (text : String) : GoesTo cwd directory none (some text) (directory.within ⟨text⟩)
  | default : GoesTo cwd directory none none (directory.within ⟨"generated"⟩)

/-- All that a run needs is there and makes the job: the file is a file of the
right kind, it holds a document, and the site of that document can be generated
with the options of the settings that lie beside it. Whether the site is then printed
or written has no part in it. -/
structure Prepares (tree : FileTree) (cwd file : Path) (requested : Option Path) (strict : Bool)
    (job : Job) : Prop where
  extension : (cwd.within file).extension? = some "json".toList
  isFile : tree.isFile (cwd.within file) = true
  makes : ∃ directory text settings document, (cwd.within file).parent? = some directory ∧
    tree.read (cwd.within file) = .ok text ∧ SettingsAt tree directory settings ∧
    Document.ofText text = .ok document ∧
    (Site.generate document ⟨settings.indent, strict || settings.failOnUnsupported⟩).result =
      .ok job.site ∧
    GoesTo cwd directory requested settings.destination job.destination

/-- On this tree the action changes nothing, and it results in what is to be
found; it fails exactly if there is nothing of the kind. -/
def Looks {α : Type} (tree : FileTree) (action : ExceptT CommandFailure (StateM FileTree) α)
    (finds : α → Prop) : Prop :=
  ∃ result, action.run tree = (result, tree) ∧ ∀ value, result = .ok value ↔ finds value

namespace Looks

variable {α : Type} {tree : FileTree} {action : ExceptT CommandFailure (StateM FileTree) α}
  {finds : α → Prop}

theorem of_error (cause : CommandFailure) (hRun : action.run tree = (.error cause, tree))
    (hNone : ∀ value, ¬finds value) : Looks tree action finds :=
  ⟨.error cause, hRun, fun value => ⟨nofun, fun hFound => absurd hFound (hNone value)⟩⟩

theorem of_ok (found : α) (hRun : action.run tree = (.ok found, tree))
    (hOne : ∀ value, finds value ↔ value = found) : Looks tree action finds :=
  ⟨.ok found, hRun, fun value => by rw [hOne, Except.ok.injEq, eq_comm]⟩

end Looks

variable {tree : FileTree}

theorem SettingsAt.of_missing {directory : Path} {found : Settings}
    (hMissing : tree.pathExists (directory.within settingsName) = false) :
    SettingsAt tree directory found ↔ found = Settings.default := by
  constructor
  · rintro (- | ⟨hFound, -, -⟩)
    · rfl
    · cases hMissing.symm.trans hFound
  · rintro rfl
    exact .default hMissing

theorem SettingsAt.of_found {directory : Path} {found : Settings}
    (hFound : tree.pathExists (directory.within settingsName) = true) :
    SettingsAt tree directory found ↔
      ∃ text, tree.read (directory.within settingsName) = .ok text ∧
        Settings.ofText text = .ok found := by
  constructor
  · rintro (hMissing | ⟨-, hRead, hSettings⟩)
    · cases hFound.symm.trans hMissing
    · exact ⟨_, hRead, hSettings⟩
  · rintro ⟨text, hRead, hSettings⟩
    exact .read hFound hRead hSettings

/-- Settings are looked for, and nothing is changed. -/
theorem settings_looks (directory : Path) (tree : FileTree) :
    Looks tree (settings (m := StateM FileTree) directory) (SettingsAt tree directory) := by
  cases hFound : tree.pathExists (directory.within settingsName) with
  | false =>
      refine .of_ok Settings.default ?_ fun found => SettingsAt.of_missing hFound
      simp only [settings, run_bind, run_lift, FileTree.pathExists_apply, hFound,
        Bool.false_eq_true, if_false, run_pure]
  | true =>
      cases hRead : tree.read (directory.within settingsName) with
      | error cause =>
          refine .of_error (.settingsUnreadable cause) ?_ fun found => ?_
          · simp only [settings, run_bind, run_lift, FileTree.pathExists_apply, hFound, if_true,
              FileTree.read_apply, hRead, run_throw]
          · simp [SettingsAt.of_found hFound, hRead]
      | ok text =>
          cases hSettings : Settings.ofText text with
          | error fault =>
              refine .of_error (.settingsMalformed fault.1 fault.2) ?_ fun found => ?_
              · simp only [settings, run_bind, run_lift, FileTree.pathExists_apply, hFound, if_true,
                  FileTree.read_apply, hRead, hSettings, run_throw]
              · simp [SettingsAt.of_found hFound, hRead, hSettings]
          | ok found =>
              refine .of_ok found ?_ fun other => ?_
              · simp only [settings, run_bind, run_lift, FileTree.pathExists_apply, hFound, if_true,
                  FileTree.read_apply, hRead, hSettings, run_pure]
              · simp [SettingsAt.of_found hFound, hRead, hSettings, eq_comm]

theorem siteOfText_eq_ok_iff {file : Path} {text : String} {options : Options} {site : Site} :
    siteOfText file text options = .ok site ↔
      ∃ document, Document.ofText text = .ok document ∧
        (Site.generate document options).result = .ok site := by
  unfold siteOfText
  cases Document.ofText text with
  | error cause => simp [bind, Except.bind, Except.mapError]
  | ok document =>
      cases hSite : (Site.generate document options).result <;>
        simp [bind, Except.bind, Except.mapError, hSite]

theorem exists_parent_of_extension? {path : Path}
    (hExtension : path.extension? = some "json".toList) :
    ∃ directory, path.parent? = some directory := by
  unfold Path.extension? at hExtension
  split at hExtension
  · cases hExtension
  · rename_i last hLast
    obtain ⟨directory, hParent, -⟩ := Path.exists_parent hLast
    exact ⟨directory, hParent⟩

theorem destination_eq_iff {cwd file directory found : Path} {requested : Option Path}
    {settings : Settings} (hParent : file.parent? = some directory) :
    found = destination cwd file requested settings ↔
      GoesTo cwd directory requested settings.destination found := by
  have hDirectory : directoryOf cwd file = directory := by
    rw [directoryOf, hParent, Option.getD_some]
  unfold destination
  rw [hDirectory]
  cases requested with
  | some path => exact ⟨fun hSame => hSame ▸ .requested path _, fun (.requested _ _) => rfl⟩
  | none =>
      cases settings.destination with
      | some text => exact ⟨fun hSame => hSame ▸ .named text, fun (.named _) => rfl⟩
      | none => exact ⟨fun hSame => hSame ▸ .default, fun .default => rfl⟩

/-- Preparing changes nothing, and makes a job exactly if all that it needs is there. -/
theorem prepare_looks (cwd : Path) (request : GenerateRequest) (tree : FileTree) :
    Looks tree (prepare (m := StateM FileTree) cwd request)
      (Prepares tree cwd request.file request.destination request.strict) := by
  by_cases hExtension : (cwd.within request.file).extension? = some "json".toList
  case neg =>
    refine .of_error .wrongExtension ?_ fun job hPrepares => hExtension hPrepares.extension
    simp only [prepare, ne_eq, hExtension, not_false_eq_true, if_true, run_bind, run_throw]
  obtain ⟨directory, hParent⟩ := exists_parent_of_extension? hExtension
  have hDirectory : directoryOf cwd (cwd.within request.file) = directory := by
    rw [directoryOf, hParent, Option.getD_some]
  cases hFile : tree.isFile (cwd.within request.file) with
  | false =>
      refine .of_error (.noSuchFile (cwd.within request.file)) ?_ fun job hPrepares => ?_
      · simp only [prepare, ne_eq, hExtension, not_true_eq_false, if_false, run_bind, run_lift,
          FileTree.isFile_apply, hFile, Bool.not_false, if_true, run_throw]
      · cases hFile.symm.trans hPrepares.isFile
  | true =>
      cases hRead : tree.read (cwd.within request.file) with
      | error cause =>
          refine .of_error (.unreadable (cwd.within request.file) cause) ?_ fun job hPrepares => ?_
          · simp only [prepare, ne_eq, hExtension, not_true_eq_false, if_false, run_bind, run_lift,
              FileTree.isFile_apply, hFile, Bool.not_true, Bool.false_eq_true,
              FileTree.read_apply, hRead, run_throw]
          · obtain ⟨-, text, -, -, -, hText, -⟩ := hPrepares.makes
            cases hRead.symm.trans hText
      | ok text =>
          obtain ⟨settings, hSettings, hAll⟩ :=
            settings_looks directory tree
          have hRun : (prepare (m := StateM FileTree) cwd request).run tree =
              (do
                let settings ← settings
                let site ← siteOfText (cwd.within request.file) text (options request settings)
                pure ⟨site, destination cwd (cwd.within request.file) request.destination settings⟩,
                tree) := by
            simp only [prepare, ne_eq, hExtension, not_true_eq_false, if_false, run_bind, run_lift,
              FileTree.isFile_apply, hFile, Bool.not_true, Bool.false_eq_true,
              FileTree.read_apply, hRead, hDirectory, hSettings, run_mk_pure, run_pure]
            cases settings with
            | error cause => rfl
            | ok settings =>
                cases hSite :
                  siteOfText (cwd.within request.file) text (options request settings) <;>
                  simp [bind, Except.bind, hSite, pure, Except.pure]
          refine ⟨_, hRun, fun job => ?_⟩
          simp only [except_bind_eq_ok_iff, hAll, siteOfText_eq_ok_iff]
          constructor
          · rintro ⟨found, hFound, site, ⟨document, hDocument, hSite⟩, hJob⟩
            obtain rfl := Except.ok.inj hJob
            exact ⟨hExtension, hFile, directory, text, found, document, hParent, hRead, hFound,
              hDocument, hSite, (destination_eq_iff hParent).mp rfl⟩
          · rintro ⟨-, -, directory', text', found, document, hParent', hText, hFound, hDocument,
              hSite, hGoes⟩
            obtain rfl := Option.some.inj (hParent.symm.trans hParent')
            obtain rfl := Except.ok.inj (hRead.symm.trans hText)
            refine ⟨found, hFound, job.site, ⟨document, hDocument, hSite⟩, ?_⟩
            rw [← (destination_eq_iff hParent).mpr hGoes]
            rfl

end Command

end PageGen
