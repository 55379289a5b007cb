import RegisterMap.Document.Resolving
import RegisterMap.Model.Fingerprint
import RegisterMap.Model.Inspection
import RegisterMap.Model.Rendering
import RegisterMap.Project.Manifest
import RegisterMap.Verify.Report

/-!
# The Command Line

The arguments choose a command and may name a document. Without a document, the command is run on
every document of the project that the working directory belongs to, up to the first failure. What
has been printed before a failure stays printed.
-/

namespace RegisterMap

/-- The name and version of the program. -/
def versionText : String := "regspace 0.1.0\n"

/-! ### Arguments -/

/-- What to **do with a document**. -/
inductive Command where
  /-- Print the model. -/
  | resolve (format : Option String)
  /-- Print the validation report. -/
  | validate (report : Option String) (denyWarnings : Bool)
  /-- Print the tree, or one register. -/
  | inspect (register : Option String)
  /-- Print the fingerprint. -/
  | fingerprint
deriving Repr, DecidableEq, Inhabited

/-- What the **arguments** ask for. -/
inductive Invocation where
  | version
  | run (command : Command) (document : Option String)
deriving Repr, DecidableEq, Inhabited

/-- Arguments that ask for **nothing** the program can do. -/
inductive UsageError where
  | missingCommand
  | unknownCommand (name : String)
  | unexpectedArgument (argument : String)
  | missingValue (option : String)
  | repeatedOption (option : String)
deriving Repr, DecidableEq, Inhabited

namespace UsageError

/-- The wording of wrong arguments. -/
def message : UsageError → String
  | missingCommand => "a command is required: resolve, validate, inspect or fingerprint"
  | unknownCommand name => s!"unrecognized subcommand '{name}'"
  | unexpectedArgument argument => s!"unexpected argument '{argument}' found"
  | missingValue option => s!"a value is required for '{option}' but none was supplied"
  | repeatedOption option => s!"the argument '{option}' cannot be used multiple times"

end UsageError

/-- The arguments of a command, **sorted by what they are**. -/
structure Arguments where
  document : Option String := none
  /-- Options with their values. -/
  values : List (String × String) := []
  flags : List String := []
deriving Repr, DecidableEq, Inhabited

namespace Arguments

/-- Add a document, whose path has to have characters. -/
def addDocument (a : Arguments) (path : String) : Except UsageError Arguments :=
  if a.document.isSome then .error (.unexpectedArgument path)
  else if path.isEmpty then .error (.missingValue "[DOCUMENT]")
  else .ok { a with document := some path }

/-- Add an option with its value. -/
def addValue (a : Arguments) (option value : String) : Except UsageError Arguments :=
  if (a.values.lookup option).isSome then .error (.repeatedOption option)
  else .ok { a with values := a.values ++ [(option, value)] }

/-- Add a flag. -/
def addFlag (a : Arguments) (flag : String) : Except UsageError Arguments :=
  if a.flags.contains flag then .error (.repeatedOption flag)
  else .ok { a with flags := a.flags ++ [flag] }

/-- The argument looks like an option. -/
def isOption (argument : String) : Bool :=
  argument.toList.head? == some '-' && argument.length > 1

/-- An option and the value written behind its equals sign. -/
def splitOption (argument : String) : String × Option String :=
  match Text.splitFirst '=' argument with
  | some (option, value) => (option, some value)
  | none => (argument, none)

/-- Sort arguments, given the options with values and the flags that there are, each under its
spellings. The optional name is an option that still needs its value. Options may stand before or
behind the document; behind `--` everything is a document. -/
def sort (valued : List String) (flags : List (String × String)) :
    Option String → Arguments → List String → Except UsageError Arguments
  | none, a, [] => .ok a
  | some option, _, [] => .error (.missingValue option)
  | some option, a, value :: rest =>
    if isOption value then .error (.missingValue option)
    else do
      let a ← a.addValue option value
      sort valued flags none a rest
  | none, a, argument :: rest =>
    if argument = "--" then rest.foldlM addDocument a
    else if !isOption argument then do
      let a ← a.addDocument argument
      sort valued flags none a rest
    else match flags.lookup argument with
      | some flag => do
        let a ← a.addFlag flag
        sort valued flags none a rest
      | none =>
        match splitOption argument with
        | (option, none) =>
          if valued.contains option then sort valued flags (some option) a rest
          else .error (.unexpectedArgument argument)
        | (option, some value) =>
          if valued.contains option then do
            let a ← a.addValue option value
            sort valued flags none a rest
          else .error (.unexpectedArgument argument)

end Arguments

namespace Invocation

/-- The flags that every command has, by their spellings. -/
def verboseFlags : List (String × String) := [("-v", "--verbose"), ("--verbose", "--verbose")]

/-- The command called `name` with its arguments. -/
def ofCommand (name : String) (arguments : List String) : Except UsageError Invocation := do
  let sort (valued flags : List String) : Except UsageError Arguments :=
    Arguments.sort valued (verboseFlags ++ flags.map fun flag => (flag, flag)) none {} arguments
  match name with
  | "resolve" => do
    let a ← sort ["--format"] []
    return .run (.resolve (a.values.lookup "--format")) a.document
  | "validate" => do
    let a ← sort ["--report"] ["--deny-warnings"]
    let deny := a.flags.contains "--deny-warnings"
    return .run (.validate (a.values.lookup "--report") deny) a.document
  | "inspect" => do
    let a ← sort ["--register"] []
    return .run (.inspect (a.values.lookup "--register")) a.document
  | "fingerprint" => do
    let a ← sort [] []
    return .run .fingerprint a.document
  | _ => .error (.unknownCommand name)

/-- The flags that an argument stands for: `-vV` is short for `-v -V`. -/
def flagsOf (argument : String) : List String :=
  match argument.toList with
  | '-' :: '-' :: _ => [argument]
  | '-' :: letters => letters.map fun letter => String.ofList ['-', letter]
  | _ => [argument]

/-- Read flags in front of the command. The answer tells whether the output is to be verbose; there
is none once the flag for the version is met. -/
def readFlags (verbose : Bool) : List String → Except UsageError (Option Bool)
  | [] => .ok (some verbose)
  | flag :: rest =>
    if flag = "--version" ∨ flag = "-V" then .ok none
    else match verboseFlags.lookup flag with
      | none => .error (.unexpectedArgument flag)
      | some name => if verbose then .error (.repeatedOption name) else readFlags true rest

/-- Read arguments from the flags in front of the command on. -/
def parseFrom (verbose : Bool) : List String → Except UsageError Invocation
  | [] => .error .missingCommand
  | argument :: rest =>
    if Arguments.isOption argument then
      match readFlags verbose (flagsOf argument) with
      | .error e => .error e
      | .ok none => .ok .version
      | .ok (some verbose) => parseFrom verbose rest
    else ofCommand argument rest

/-- Read the **arguments** of the program. -/
def parse (arguments : List String) : Except UsageError Invocation := parseFrom false arguments

end Invocation

/-! ### Running -/

/-- Why a run **fails**. -/
inductive Failure where
  | usage (cause : UsageError)
  | badManifest (cause : ManifestError)
  /-- No document is given, and there is no project. -/
  | noDocument
  /-- No document is given, and the project has none. -/
  | emptyProject (name : String)
  | unresolved (document : String) (cause : ResolveError)
  | unknownFormat (cause : UnknownFormat)
  | invalid (document : String) (errors warnings : Nat)
  | noRegister (document path : String)
  /-- A number that was computed from a document did not fit in its bits. -/
  | overflow (document : String)
deriving Repr, DecidableEq

namespace Failure

/-- The wording of a failed run. -/
def message : Failure → String
  | usage cause => cause.message
  | badManifest cause => cause.message
  | noDocument => s!"no document given and no {manifestName} found"
  | emptyProject name => s!"project '{name}' lists no documents in {manifestName}"
  | unresolved document cause =>
    let behind := match cause.cause? with
      | some text => s!": {text}"
      | none => ""
    s!"resolving {document}: {cause.message}{behind}"
  | unknownFormat cause => cause.message
  | invalid document errors warnings =>
    s!"validation failed for {document}: {errors} error(s), {warnings} warning(s)"
  | noRegister document path => s!"no register '{path}' in {document}"
  | overflow document => s!"a number in {document} does not fit in its bits"

/-- The status that the program ends with. -/
def status : Failure → UInt8
  | usage _ => 2
  | overflow _ => 101
  | _ => 1

/-- The text about a failure. An overflow is no error that a user could have been told about. -/
def text (f : Failure) : String :=
  match f with
  | overflow _ => s!"stopped: {f.message}"
  | _ => s!"error: {f.message}"

end Failure

/-- What a run **leaves behind**. -/
structure RunResult where
  printed : String := ""
  failure : Option Failure := none
deriving Repr, DecidableEq

namespace RunResult

/-- Nothing but a failure. -/
def failed (failure : Failure) : RunResult := { failure := some failure }

/-- The status that the program ends with: zero unless the run failed. -/
def status (r : RunResult) : UInt8 := (r.failure.map (·.status)).getD 0

/-- The text about the failure. -/
def errorText (r : RunResult) : Option String := r.failure.map (·.text)

end RunResult

namespace Command

/-- Do the command with the model of a document. `denyWarnings` is the project's own wish. -/
def onModel (c : Command) (document : String) (denyWarnings : Bool) (m : Model) : RunResult :=
  match c with
  | resolve format =>
    match m.render format with
    | .ok printed => { printed }
    | .error e => .failed (.unknownFormat e)
  | validate format deny =>
    let report := ValidationReport.ofModel m
    match report.render format with
    | .error e => .failed (.unknownFormat e)
    | .ok printed =>
      { printed
        failure :=
          if report.fails (deny || denyWarnings) then
            some (.invalid document report.summary.errors report.summary.warnings)
          else none }
  | inspect register =>
    match m.inspect register with
    | .ok printed => { printed }
    | .error (.noRegister path) => .failed (.noRegister document path)
    | .error .overflow => .failed (.overflow document)
  | fingerprint => { printed := s!"{m.fingerprint}  {document}\n" }

variable {m : Type → Type} [Monad m]

/-- Do the command with a document. -/
def onDocument (c : Command) (files : FileAccess m) (options : Options) (denyWarnings : Bool)
    (document : String) : m RunResult := do
  let model := match ← files.read document with
    | .text text => Model.ofText options text
    | .missing => .error (.notFound document)
    | .directory => .error (.unreadable "Is a directory (os error 21)")
    | .unreadable reason => .error (.unreadable reason)
  match model with
  | .ok model => return c.onModel document denyWarnings model
  | .error e =>
    return .failed (if e.isOverflow then .overflow document else .unresolved document e)

/-- Do the command with documents one after the other, up to the first failure. -/
def onDocuments (c : Command) (files : FileAccess m) (options : Options) (denyWarnings : Bool) :
    List String → m RunResult
  | [] => return {}
  | document :: rest => do
    let first ← c.onDocument files options denyWarnings document
    if first.failure.isSome then return first
    let others ← c.onDocuments files options denyWarnings rest
    return { others with printed := first.printed ++ others.printed }

/-- The **documents** to work on: the one that is given, or all of the project. -/
def documents (document : Option String) (project : Option Project) :
    Except Failure (List String) :=
  match document, project with
  | some path, _ => .ok [path]
  | none, none => .error .noDocument
  | none, some p =>
    if p.manifest.documents.isEmpty then .error (.emptyProject p.manifest.name)
    else .ok p.documentPaths

/-- Do the command. The project's manifest counts also where a document is given. -/
def run (c : Command) (files : FileAccess m) (document : Option String) : m RunResult := do
  match ← Project.find files with
  | .error e => return .failed (.badManifest e)
  | .ok project =>
    match documents document project with
    | .error failure => return .failed failure
    | .ok paths =>
      let manifest := project.map (·.manifest)
      let options := (manifest.map (·.options)).getD {}
      c.onDocuments files options (manifest.any (·.denyWarnings)) paths

end Command

/-- **Run the program** with its arguments. -/
def runProgram {m : Type → Type} [Monad m] (files : FileAccess m) (arguments : List String) :
    m RunResult :=
  match Invocation.parse arguments with
  | .error e => return .failed (.usage e)
  | .ok .version => return { printed := versionText }
  | .ok (.run command document) => command.run files document

end RegisterMap
