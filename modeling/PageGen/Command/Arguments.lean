import PageGen.Files.Path

/-! The arguments of the command line. There is one command, `generate`, with
one file; an option that takes no value may be given once, and so may the
destination. -/
namespace PageGen

structure GenerateRequest where
  file : Path
  destination : Option Path
  /-- Whether the files are printed instead of written. -/
  toStdout : Bool
  /-- Whether unsupported nodes are errors, whatever the settings say. -/
  strict : Bool
  deriving DecidableEq, Repr

/-- What the whole command line asks for. -/
inductive Invocation where
  | generate (request : GenerateRequest)
  | version
  | help
  deriving DecidableEq, Repr

namespace Arguments

inductive Shape where
  /-- Two dashes alone: all that follows is no option. -/
  | separator
  /-- An option with two dashes, and the value behind its `=`. -/
  | long (name : List Char) (value : Option (List Char))
  /-- Options of one letter behind one dash. -/
  | short (letters : List Char)
  | plain (text : List Char)
  deriving DecidableEq, Repr

def shape (argument : String) : Shape :=
  match argument.toList with
  | ['-', '-'] => .separator
  | '-' :: '-' :: rest =>
    let name := rest.takeWhile (· != '=')
    match rest.dropWhile (· != '=') with
    | [] => .long name none
    | _ :: value => .long name (some value)
  | '-' :: letter :: letters => .short (letter :: letters)
  | text => .plain text

/-- The arguments of `generate` that have been read. -/
structure Draft where
  file : Option (List Char)
  destination : Option (List Char)
  toStdout : Bool
  strict : Bool
  verbose : Bool

/-- How the reading of options goes on. -/
inductive Step (σ : Type) where
  | next (state : σ)
  /-- An option needs the next argument as its value. -/
  | awaiting (state : σ)
  /-- An option asks for something else than the command. -/
  | stop (invocation : Invocation)
  /-- The arguments make no sense. -/
  | invalid

namespace Draft

def setVerbose (read : Draft) : Step Draft :=
  if read.verbose then .invalid else .next { read with verbose := true }

def setStdout (read : Draft) : Step Draft :=
  if read.toStdout then .invalid else .next { read with toStdout := true }

def setStrict (read : Draft) : Step Draft :=
  if read.strict then .invalid else .next { read with strict := true }

/-- Takes a destination. It may not be empty, and there may be only one. -/
def setDestination (read : Draft) (value : List Char) : Step Draft :=
  if value = [] ∨ read.destination.isSome then .invalid
  else .next { read with destination := some value }

/-- Takes a destination that is the next argument. -/
def awaitDestination (read : Draft) : Step Draft :=
  if read.destination.isSome then .invalid else .awaiting read

/-- Takes the file. It may not be empty, and there may be only one. -/
def setFile (read : Draft) (value : List Char) : Step Draft :=
  if value = [] ∨ read.file.isSome then .invalid else .next { read with file := some value }

def long (read : Draft) (name : List Char) (value : Option (List Char)) : Step Draft :=
  match value with
  | some value => if name = "destination".toList then read.setDestination value else .invalid
  | none =>
    if name = "destination".toList then read.awaitDestination
    else if name = "stdout".toList then read.setStdout
    else if name = "strict".toList then read.setStrict
    else if name = "verbose".toList then read.setVerbose
    else if name = "help".toList then .stop .help
    else .invalid

/-- Takes options of one letter. What follows a `d` is the destination. -/
def short (read : Draft) : List Char → Step Draft
  | [] => .next read
  | 'd' :: [] => read.awaitDestination
  | 'd' :: '=' :: value => read.setDestination value
  | 'd' :: value => read.setDestination value
  | 'v' :: letters =>
    match read.setVerbose with
    | .next state => short state letters
    | other => other
  | 'h' :: _ => .stop .help
  | _ :: _ => .invalid

/-- Takes the value that an option waits for. An argument that looks like an
option is none. -/
def takeAwaited (read : Draft) (argument : String) : Step Draft :=
  match shape argument with
  | .plain text => read.setDestination text
  | _ => .invalid

def take (read : Draft) : Shape → Step Draft
  | .separator => .next read
  | .long name value => read.long name value
  | .short letters => read.short letters
  | .plain text => read.setFile text

/-- The request, once all arguments have been taken. -/
def request? (read : Draft) : Option GenerateRequest :=
  read.file.map fun file =>
    { file := ⟨String.ofList file⟩
      destination := read.destination.map fun directory => ⟨String.ofList directory⟩
      toStdout := read.toStdout
      strict := read.strict }

end Draft

/-- Reads arguments none of which is an option. -/
def generatePlain (read : Draft) : List String → Option Invocation
  | [] => read.request?.map .generate
  | argument :: rest =>
    match read.setFile argument.toList with
    | .next state => generatePlain state rest
    | _ => none

def generate (read : Draft) (awaiting : Bool) : List String → Option Invocation
  | [] => if awaiting then none else read.request?.map .generate
  | argument :: rest =>
    if awaiting then
      match read.takeAwaited argument with
      | .next state => generate state false rest
      | _ => none
    else if shape argument = .separator then generatePlain read rest
    else
      match read.take (shape argument) with
      | .next state => generate state false rest
      | .awaiting state => generate state true rest
      | .stop invocation => some invocation
      | .invalid => none

/-- Takes options of one letter in front of the command. -/
def shortBefore (verbose : Bool) : List Char → Step Bool
  | [] => .next verbose
  | 'v' :: letters => if verbose then .invalid else shortBefore true letters
  | 'V' :: _ => .stop .version
  | 'h' :: _ => .stop .help
  | _ :: _ => .invalid

def optionBefore (verbose : Bool) : Shape → Step Bool
  | .long name none =>
    if name = "verbose".toList then if verbose then .invalid else .next true
    else if name = "version".toList then .stop .version
    else if name = "help".toList then .stop .help
    else .invalid
  | .short letters => shortBefore verbose letters
  | _ => .invalid

/-- Reads what follows the command `help`: nothing, or a command. -/
def help : List String → Option Invocation
  | [] => some .help
  | [command] => if command = "generate" ∨ command = "help" then some .help else none
  | _ => none

def read (verbose : Bool) : List String → Option Invocation
  | [] => none
  | argument :: rest =>
    if argument = "generate" then generate ⟨none, none, false, false, false⟩ false rest
    else if argument = "help" then help rest
    else
      match optionBefore verbose (shape argument) with
      | .next state => read state rest
      | .stop invocation => some invocation
      | .awaiting _ => none
      | .invalid => none

end Arguments

/-- What a command line asks for, unless it makes no sense. -/
def Invocation.ofArguments (arguments : List String) : Option Invocation :=
  Arguments.read false arguments

end PageGen
