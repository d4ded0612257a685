import SqlWorkflow.CompileError
import SqlWorkflow.Project.Files
import SqlWorkflow.Project.IgnoreRule

/-!
# Files on disk

The disk is seen from the working directory of the program: as the texts of the
files below it. From a directory the compiler loads the source files, without
hidden ones and without those that the ignore files of the project leave out.
-/

namespace SqlWorkflow.Project

abbrev Location := List String

inductive AccessFault
  | missing
  | notDirectory
  | isDirectory
  | other (message : String)
  deriving DecidableEq

/-- The text of a fault, as the operating system words it. -/
def AccessFault.message : AccessFault → String
  | .missing => "No such file or directory (os error 2)"
  | .notDirectory => "Not a directory (os error 20)"
  | .isDirectory => "Is a directory (os error 21)"
  | .other message => message

structure Disk where
  files : List (Location × String)

namespace Disk

/-- The components of a written path, without those that lead nowhere. -/
def componentsOf (path : String) : Location :=
  (Text.split '/' path).filter fun component => component ≠ "" ∧ component ≠ "."

/-- The disk with some files; of several with one path the last counts. -/
def ofList (files : List (String × String)) : Disk :=
  ⟨(files.map fun file => (componentsOf file.1, file.2)).reverse⟩

def contents? (disk : Disk) (location : Location) : Option String :=
  (disk.files.find? (·.1 = location)).map (·.2)

/-- Whether a location is a directory: the working directory, or one with a file
below it. -/
def isDirectory (disk : Disk) (location : Location) : Bool :=
  location.isEmpty || disk.files.any fun file =>
    location.isPrefixOf file.1 && location.length < file.1.length

def step (disk : Disk) (here : Location)
    (component : String) : Except AccessFault Location :=
  if !disk.isDirectory here then .error .notDirectory
  else if component = "" ∨ component = "." then .ok here
  else if component = ".." then
    if here.isEmpty then .error .missing else .ok here.dropLast
  else
    let next := here ++ [component]
    if disk.isDirectory next ∨ (disk.contents? next).isSome then .ok next
    else .error .missing

/-- The location that a path from the working directory leads to. A path from
the root of the file system leads out of the disk. -/
def locate (disk : Disk) (path : String) : Except AccessFault Location :=
  if path.toList.head? = some '/' then .error .missing
  else (Text.split '/' path).foldlM (disk.step) []

/-- The text of the file that a path leads to. -/
def read (disk : Disk) (path : String) : Except AccessFault String :=
  match disk.locate path with
  | .error fault => .error fault
  | .ok location =>
    match disk.contents? location with
    | some text => .ok text
    | none => .error .isDirectory

/-! ## What is left out -/

/-- Where a directory may hold ignore rules; those of an earlier file win over
those of a later one. -/
def ignoreFiles : List Location :=
  [[".dataformignore"], [".ignore"], [".gitignore"],
    [".git", "info", "exclude"]]

/-- The directories above a location, the nearest first, each with the path from
there. -/
def above : Location → List (Location × Location)
  | [] => []
  | first :: rest =>
    (above rest).map (fun split => (first :: split.1, split.2)) ++
      [([], first :: rest)]

/-- The directory and the path from there lead to the location. -/
theorem append_of_mem_above {location : Location} {split : Location × Location}
    (h : split ∈ above location) : split.1 ++ split.2 = location := by
  induction location generalizing split with
  | nil => simp [above] at h
  | cons first rest ih =>
    simp only [above, List.mem_append, List.mem_map, List.mem_singleton] at h
    rcases h with ⟨inner, hinner, rfl⟩ | rfl
    · simp [ih hinner]
    · rfl

/-- The ignore rules of a directory in one of its ignore files. -/
def rules (disk : Disk) (directory file : Location) : List IgnoreRule :=
  ((disk.contents? (directory ++ file)).map IgnoreRule.ofText).getD []

/-- The ignore rule that decides about a location. -/
def decisive? (disk : Disk) (location : Location)
    (directory : Bool) : Option IgnoreRule :=
  ignoreFiles.findSome? fun file =>
    (above location).findSome? fun split =>
      IgnoreRule.decisive? (disk.rules split.1 file) split.2 directory

/-- Whether a name is that of a hidden entry. -/
def isHidden (location : Location) : Bool :=
  (location.getLast?.bind (·.toList.head?)) = some '.'

/-- Whether an entry is left out: by a rule or, where no rule decides, because
it is hidden. -/
def isLeftOut (disk : Disk) (location : Location) (directory : Bool) : Bool :=
  match disk.decisive? location directory with
  | some rule => !rule.keeps
  | none => isHidden location

/-! ## What is loaded -/

/-- The extensions of the files that the compiler reads. -/
def sourceExtensions : List String :=
  ["sqlx", "js", "yaml", "yml", "json", "sql", "ipynb"]

/-- What follows the last dot of a name; a dot at its beginning does not
count. -/
def extension? (name : String) : Option String :=
  match (Text.split '.' name).reverse with
  | [] | [_] | [_, ""] => none
  | last :: _ => some last

def isSource (name : String) : Bool :=
  (extension? name).any (· ∈ sourceExtensions)

/-- The entries on the way from a directory to a location below it, the location
last. -/
def wayTo (root : Location) : Location → List Location
  | [] => []
  | first :: rest => (root ++ [first]) :: wayTo (root ++ [first]) rest

/-- Whether a file is loaded from a directory: it is a source, and neither it
nor a directory on the way to it is left out. -/
def isLoaded (disk : Disk) (root path : Location) : Bool :=
  path.getLast?.any isSource && (wayTo root path).all fun entry =>
    !disk.isLeftOut entry (entry ≠ root ++ path)

/-- The path of a file from a directory above it. -/
def pathFrom? (root location : Location) : Option Location :=
  if root.isPrefixOf location then some (location.drop root.length) else none

/-- The file that is loaded from a directory for one on the disk, if it is
loaded. -/
def loaded? (disk : Disk) (root : Location)
    (file : Location × String) : Option (String × String) :=
  match pathFrom? root file.1 with
  | some path =>
    if disk.isLoaded root path then
      some ("/".intercalate path, file.2) else none
  | none => none

def load (disk : Disk) (path : String) : Except CompileError Files :=
  match disk.locate path with
  | .error _ => .error (.projectNotFound path)
  | .ok root =>
    if disk.isDirectory root then
      .ok (Files.ofList (disk.files.reverse.filterMap (disk.loaded? root)))
    else .error (.projectNotFound path)

end Disk

end SqlWorkflow.Project
