import RegisterMap.Options
import RegisterMap.Project.Files
import RegisterMap.Toml.Reading

/-!
# Manifests

A project has a manifest, the file `regspace.toml` in its directory. The manifest names the project
and its documents and may set resolution options. It holds for its directory and all directories
below.
-/

namespace RegisterMap

/-- The name of the manifest's file. -/
def manifestName : String := "regspace.toml"

/-- The **manifest** of a project. -/
structure Manifest where
  name : String
  /-- Paths of documents, as seen from the project's directory. -/
  documents : List String := []
  options : Options := {}
  /-- Warnings make a validation fail. -/
  denyWarnings : Bool := false
deriving Repr, DecidableEq, Inhabited

namespace Options

/-- Read options from a TOML value; the ones that it leaves out keep their defaults. -/
def ofToml? (v : Toml.Value) : Option Options := do
  let d : Options := {}
  let entries ← v.toRecord? keys
  let get (key : String) (fallback : UInt64) : Option UInt64 :=
    Toml.Entries.withDefault entries key fallback (·.toNat64?)
  let defaultRegisterSize ← Toml.Entries.withDefault entries "default-register-size"
    d.defaultRegisterSize (·.toNat32?)
  let defaultAccess ← Toml.Entries.withDefault entries "default-access" d.defaultAccess
    (·.toChoice? AccessPolicy.all AccessPolicy.name)
  let minBlockSize ← get "min-block-size" d.minBlockSize
  let emptyBlockSize ← get "empty-block-size" d.emptyBlockSize
  let maxArrayCount ← get "max-array-count" d.maxArrayCount
  return { defaultRegisterSize, defaultAccess, minBlockSize, emptyBlockSize, maxArrayCount }

end Options

namespace Manifest

/-- The name and the documents of the project. -/
def projectOfToml? (v : Toml.Value) : Option (String × List String) := do
  let entries ← v.toRecord? ["name", "documents"]
  let name ← Toml.Entries.required entries "name" (·.toStr?)
  let documents ← Toml.Entries.withDefault entries "documents" [] (·.toList? (·.toStr?))
  return (name, documents)

/-- Whether warnings are denied. -/
def validationOfToml? (v : Toml.Value) : Option Bool := do
  let entries ← v.toRecord? ["deny-warnings"]
  Toml.Entries.withDefault entries "deny-warnings" false (·.toBool?)

/-- Read a manifest from the entries of a TOML document. Other entries do not matter. -/
def ofToml? (entries : Toml.Entries) : Option Manifest := do
  let (name, documents) ← entries.required "project" projectOfToml?
  let options ← entries.withDefault "resolve" {} Options.ofToml?
  let denyWarnings ← entries.withDefault "validate" false validationOfToml?
  return { name, documents, options, denyWarnings }

/-- Read a **manifest** from its text. -/
def parse? (text : String) : Option Manifest := (Toml.parse text).bind ofToml?

open Json in
/-- The manifest as JSON, with the defaults filled in. -/
def toJson (m : Manifest) : Json :=
  .obj (
    member "project" (.obj (
      member "name" (.str m.name) ++
      member "documents" (.arr (m.documents.map .str)))) ++
    member "resolve" m.options.toJson ++
    member "validate" (.obj (member "deny-warnings" (.bool m.denyWarnings))))

end Manifest

/-- Why the manifest of a project is **no manifest**. -/
inductive ManifestError where
  | unreadable (path reason : String)
  | malformed (path : String)
deriving Repr, DecidableEq, Inhabited

namespace ManifestError

/-- The wording of a bad manifest. -/
def message : ManifestError → String
  | unreadable path reason => s!"reading {path}: {reason}"
  | malformed path => s!"parsing {path}: not a project manifest"

end ManifestError

/-- A **project**: its manifest and the directory of that. -/
structure Project where
  manifest : Manifest
  directory : String
deriving Repr, DecidableEq, Inhabited

namespace Project

/-- The paths of the documents, from the project's directory. -/
def documentPaths (p : Project) : List String :=
  p.manifest.documents.map (Path.join p.directory)

variable {m : Type → Type} [Monad m]

/-- The project with its manifest in the first of these directories that has one. -/
def findAmong (files : FileAccess m) : List String → m (Except ManifestError (Option Project))
  | [] => return .ok none
  | directory :: rest => do
    let path := Path.join directory manifestName
    match ← files.read path with
    | .text text =>
      match Manifest.parse? text with
      | some manifest => return .ok (some { manifest, directory })
      | none => return .error (.malformed path)
    | .unreadable reason => return .error (.unreadable path reason)
    | .missing | .directory => findAmong files rest

/-- The **project** that the working directory belongs to, if any. -/
def find (files : FileAccess m) : m (Except ManifestError (Option Project)) :=
  findAmong files (Path.ancestors files.workingDirectory)

end Project

end RegisterMap
