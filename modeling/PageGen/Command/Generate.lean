import PageGen.Command.Arguments
import PageGen.Files.Store
import PageGen.Settings
import PageGen.Site

/-! The command line program: reads a document and its settings, generates the
three files, and prints or writes them. What it asks of the file system is left
open, so that it runs on files and on models of them alike. -/
namespace PageGen

open Json

inductive CommandFailure where
  | wrongExtension
  | noSuchFile (file : Path)
  | unreadable (file : Path) (cause : FileError)
  | settingsUnreadable (cause : FileError)
  | settingsMalformed (fault : Fault) (position : Position)
  | notLoaded (file : Path) (cause : LoadFailure)
  | notGenerated (file : Path) (cause : TargetFailure)
  | notCreated (directory : Path) (cause : FileError)
  | notWritten (file : Path) (cause : FileError)

namespace CommandFailure

/-- The messages from what was attempted down to what went wrong. -/
def chain : CommandFailure → List String
  | .wrongExtension => ["Please, choose a file with one of these extensions: .json"]
  | .noSuchFile file => ["File " ++ file.text ++ " doesn't exist"]
  | .unreadable file cause => ["Failed to read " ++ file.text, cause.message]
  | .settingsUnreadable cause => [cause.message]
  | .settingsMalformed fault position => [fault.message ++ position.text]
  | .notLoaded file cause => ["Failed to generate " ++ file.text, cause.message]
  | .notGenerated file cause =>
    ["Failed to generate " ++ file.text, cause.message, cause.cause.message]
  | .notCreated directory cause => ["Failed to create " ++ directory.text, cause.message]
  | .notWritten file cause => ["Failed to write " ++ file.text, cause.message]

def message (failure : CommandFailure) : String := ": ".intercalate failure.chain

end CommandFailure

/-- What a run of the program shows. -/
structure Report where
  code : UInt32
  stdout : String
  stderr : String
  deriving DecidableEq, Repr

namespace Command

def settingsName : Path := ⟨"simpleui.config.json"⟩

/-- The directory for the files where nothing else is said. -/
def defaultDestination : Path := ⟨"generated"⟩

def versionText : String := "simpleui 0.1.0\n"

def usageText : String :=
  "Usage: simpleui [-v] generate [-d DIR] [--stdout] [--strict] FILE\n"

/-- The report of a failure, after what was written to the error output before. -/
def failed (warnings : String) (failure : CommandFailure) : Report :=
  ⟨1, "", warnings ++ "\nError: " ++ failure.message ++ "\n\n"⟩

def directoryOf (cwd file : Path) : Path := file.parent?.getD cwd

/-- Where the files go: what the arguments say, else what the settings say
about the directory of the document, else a directory of its own there. -/
def destination (cwd file : Path) (requested : Option Path) (settings : Settings) : Path :=
  match requested, settings.destination with
  | some directory, _ => cwd.within directory
  | none, some directory => (directoryOf cwd file).within ⟨directory⟩
  | none, none => (directoryOf cwd file).within defaultDestination

/-- The options of a run. The arguments can make it strict, and not lenient. -/
def options (request : GenerateRequest) (settings : Settings) : Options :=
  { settings.options with
    failOnUnsupported := request.strict || settings.options.failOnUnsupported }

/-- What is to be printed or written. -/
structure Job where
  site : Site
  destination : Path

/-- Generates the files from the text of a document. -/
def siteOfText (file : Path) (text : String) (options : Options) :
    Except CommandFailure Site := do
  let document ← (Document.ofText text).mapError (.notLoaded file)
  (Site.generate document options).result.mapError (.notGenerated file)

def warning (kind : NodeKind) : String :=
  "⚠️ " ++ kind.name ++ " is not supported yet and was left out\n"

/-- The text about the kinds of nodes that were left out. -/
def warnings (site : Site) : String := String.join (site.unsupported.map warning)

/-- One file, printed under its name. -/
def printed (site : Site) (target : Target) : String :=
  "/* " ++ target.fileName ++ " */\n" ++ site.text target ++ "\n"

/-- The text about one file that was written. -/
def confirmation (target : Target) (path : Path) : String :=
  target.name ++ " code generated successfully: " ++ path.text ++ "\n"

section

variable {m : Type → Type} [Monad m]

def settings [FileSystem m] (directory : Path) : ExceptT CommandFailure m Settings := do
  let path := directory.within settingsName
  if ← FileStore.pathExists (m := m) path then
    match ← FileSystem.read (m := m) path with
    | .error cause => throw (.settingsUnreadable cause)
    | .ok text =>
      match Settings.ofText text with
      | .ok settings => pure settings
      | .error (fault, position) => throw (.settingsMalformed fault position)
  else pure Settings.default

/-- Reads everything and generates the files. -/
def prepare [FileSystem m] (cwd : Path) (request : GenerateRequest) :
    ExceptT CommandFailure m Job := do
  let file := cwd.within request.file
  if file.extension? ≠ some "json".toList then throw .wrongExtension
  if !(← FileSystem.isFile (m := m) file) then throw (.noSuchFile file)
  match ← FileSystem.read (m := m) file with
  | .error cause => throw (.unreadable file cause)
  | .ok text =>
    let settings ← settings (directoryOf cwd file)
    let site ← ExceptT.mk (pure (siteOfText file text (options request settings)))
    pure ⟨site, destination cwd file request.destination settings⟩

/-- Writes files one after another, and gives their paths. -/
def writeEach [FileStore m] (destination : Path) (site : Site) :
    List Target → ExceptT CommandFailure m (List Path)
  | [] => pure []
  | target :: rest => do
    let path := destination.within ⟨target.fileName⟩
    match ← FileStore.write (m := m) path (site.text target) with
    | .error cause => throw (.notWritten path cause)
    | .ok () => do
      let paths ← writeEach destination site rest
      pure (path :: paths)

/-- Writes the files, into a directory that is made if nothing is there. -/
def writeSite [FileStore m] (destination : Path) (site : Site) :
    ExceptT CommandFailure m (List Path) := do
  if !(← FileStore.pathExists (m := m) destination) then
    match ← FileStore.createDirectories (m := m) destination with
    | .error cause => throw (.notCreated destination cause)
    | .ok () => pure ()
  writeEach destination site Site.targets

def generate [FileSystem m] (cwd : Path) (request : GenerateRequest) : m Report := do
  match ← (prepare cwd request).run with
  | .error failure => pure (failed "" failure)
  | .ok job =>
    let warnings := warnings job.site
    if request.toStdout then
      pure ⟨0, String.join (Site.targets.map (printed job.site)), warnings⟩
    else
      match ← (writeSite job.destination job.site).run with
      | .error failure => pure (failed warnings failure)
      | .ok paths =>
        pure ⟨0, String.join (List.zipWith confirmation Site.targets paths), warnings⟩

def run [FileSystem m] (cwd : Path) (arguments : List String) : m Report :=
  match Invocation.ofArguments arguments with
  | none => pure ⟨2, "", usageText⟩
  | some .version => pure ⟨0, versionText, ""⟩
  | some .help => pure ⟨0, usageText, ""⟩
  | some (.generate request) => generate cwd request

end

end Command

end PageGen
