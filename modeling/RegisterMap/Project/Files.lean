import RegisterMap.Text.Split

/-!
# Files

Paths, what may be found at them, and the way in which a program reads them. A file tree is a fixed
set of files, which answers every path without anything else in the world.

## Conventions

A path is text with `/` between its names; one that starts with `/` is absolute. Joining two paths
does not look at the names `.` and `..`, which mean something only once the path is followed.
-/

namespace RegisterMap

/-! ### Paths -/

namespace Path

/-- The path is **absolute**. -/
def isAbsolute (path : String) : Bool := path.toList.head? == some '/'

/-- The path of `path` as seen **from a directory**. -/
def join (directory path : String) : String :=
  if isAbsolute path || directory.isEmpty then path
  else if directory.toList.getLast? == some '/' then directory ++ path
  else directory ++ "/" ++ path

/-- A path without the slashes and the names `.` at its end, where the path is given as its
characters in reverse. The slash that an absolute path starts with stays. -/
def trimEnd : List Char → List Char
  | '/' :: rest => if rest.isEmpty then ['/'] else trimEnd rest
  | '.' :: '/' :: rest => if rest.isEmpty then ['/'] else trimEnd rest
  | cs => cs

/-- Trimming makes no path longer. -/
theorem length_trimEnd_le (cs : List Char) : (trimEnd cs).length ≤ cs.length := by
  fun_induction trimEnd cs <;> grind

/-- The path of the **directory above**: all before the last name, with nothing left to trim at its
end. As in `trimEnd`, paths are characters in reverse. -/
def parent? (cs : List Char) : Option (List Char) :=
  match trimEnd cs with
  | [] | ['/'] => none
  | _ :: rest => some (trimEnd (rest.dropWhile (· != '/')))

/-- The directory above **has a shorter path**. -/
theorem length_lt_of_parent? {cs above : List Char} (h : parent? cs = some above) :
    above.length < cs.length := by
  unfold parent? at h
  split at h
  · cases h
  · cases h
  · rename_i last rest _ trimmed
    have whole : rest.length < cs.length := by
      have := length_trimEnd_le cs
      rw [trimmed] at this
      exact this
    have dropped := (List.dropWhile_suffix (l := rest) (· != '/')).length_le
    have := length_trimEnd_le (rest.dropWhile (· != '/'))
    obtain rfl := Option.some.inj h
    omega

/-- The paths of the directories above, nearest first, of characters in reverse. -/
def above (cs : List Char) : List (List Char) :=
  match _ : parent? cs with
  | none => []
  | some directory => directory :: above directory
termination_by cs.length
decreasing_by exact length_lt_of_parent? ‹_›

/-- A directory, as it is written, and **the directories above it**, nearest first. The last name
goes with every step up, also where it is `..`. -/
def ancestors (directory : String) : List String :=
  directory :: (above directory.toList.reverse).map fun cs => String.ofList cs.reverse

/-- The names of a path, with nothing between neighbouring slashes. -/
def namesOf : List Char → List (List Char)
  | [] => [[]]
  | '/' :: rest => [] :: namesOf rest
  | c :: rest =>
    match namesOf rest with
    | name :: names => (c :: name) :: names
    | [] => [[c]]

/-- The **names** of a path. -/
def names (path : String) : List String := (namesOf path.toList).map String.ofList

/-- The directory that a name leads to from a directory, each given as its names from the root: `.`
and the empty name stay there, and `..` goes up. -/
def enter (directory : List String) (name : String) : List String :=
  if name = "" ∨ name = "." then directory
  else if name = ".." then directory.dropLast
  else directory ++ [name]

/-- The directories that names **pass** on their way from a directory, in order, with the ends. -/
def passed (directory : List String) : List String → List (List String)
  | [] => [directory]
  | name :: rest => directory :: passed (enter directory name) rest

/-- The names from the root that an absolute path **leads to**. -/
def reached (path : String) : List String := (names path).foldl enter []

/-- The **real path** behind an absolute path: the one without the names `.` and `..`. -/
def real (path : String) : String := "/" ++ "/".intercalate (reached path)

end Path

/-! ### Contents -/

/-- What is **found at a path**. -/
inductive FileContent where
  | text (text : String)
  | missing
  | directory
  | unreadable (reason : String)
deriving Repr, DecidableEq, Inhabited

/-- A way of **reading files**. -/
structure FileAccess (m : Type → Type) where
  /-- The absolute path of the directory that other paths are seen from. -/
  workingDirectory : String
  read : String → m FileContent

/-! ### File trees -/

/-- A fixed **set of files**, each under the names of its absolute path. -/
structure FileTree where
  files : List (List String × String)
  /-- Directories that may be without files. -/
  directories : List (List String) := []
deriving Repr, Inhabited

namespace FileTree

/-- There is a **directory** under these names: the root, one with a file below it, or one given. -/
def isDirectory (t : FileTree) (names : List String) : Bool :=
  names.isEmpty ||
    t.files.any (fun f => names.isPrefixOf f.1 && names.length < f.1.length) ||
    t.directories.any (names.isPrefixOf ·)

/-- Add the directory at an absolute path, and those that the path passes. -/
def makeDirectory (t : FileTree) (path : String) : FileTree :=
  { t with directories := t.directories ++ Path.passed [] (Path.names path) }

/-- Follow names from a directory. All but the last have to lead to directories. -/
def follow (t : FileTree) : List String → List String → Option (List String)
  | reached, [] => some reached
  | reached, name :: rest =>
    if t.isDirectory reached then t.follow (Path.enter reached name) rest else none

/-- What is found at an absolute path. -/
def read (t : FileTree) (path : String) : FileContent :=
  match t.follow [] (Path.names path) with
  | none => .missing
  | some reached =>
    match t.files.lookup reached with
    | some text => .text text
    | none => if t.isDirectory reached then .directory else .missing

/-- Reading the files of the tree from a working directory. -/
def access (t : FileTree) (workingDirectory : String) : FileAccess Id :=
  { workingDirectory, read := fun path => t.read (Path.join workingDirectory path) }

end FileTree

end RegisterMap
