import Std.Data.TreeMap
import RequestRouter.Round.Store
import RequestRouter.Text.Snake
import RequestRouter.Text.Utf8

/-!
# A tree of files

Directories and files as a command sees them from the directory that it runs in. A
place is the list of names that leads to it; a path is followed name by name, and every
name but the last has to lead through a directory that is there. Dots lead nowhere, two
dots lead back. What lies above the running directory, and the root of absolute paths,
are taken to be empty directories of their own.

The operations fail as the system does: `RequestRouter.SystemError` has the five causes that
they know, and one for bytes that are no text. A path that is too long fails before it is
followed, a name that is too long where the path comes to it. What a tree holds after an
operation is told by `RequestRouter.Disk.find?_put` alone.

A generated file goes under an output directory: one directory for each segment of its package, and
in them a file named after its type in snake case (`RequestRouter.EmittedFile.pathUnder`). Unlike the
store in memory, a disk takes a file of the same name again and keeps the later one.
-/

namespace RequestRouter

/-- Why an operation on files fails. -/
inductive SystemError where
  /-- Nothing is there. -/
  | notFound
  /-- Something is there already. -/
  | exists
  /-- The path leads through a file. -/
  | notDirectory
  /-- A directory is there. -/
  | isDirectory
  /-- A name on the path, or all of it, is too long. -/
  | nameTooLong
  /-- The bytes are not UTF-8. -/
  | notText
deriving DecidableEq

/-- The error in the system's words. -/
def SystemError.message : SystemError → String
  | .notFound => "No such file or directory (os error 2)"
  | .exists => "File exists (os error 17)"
  | .notDirectory => "Not a directory (os error 20)"
  | .isDirectory => "Is a directory (os error 21)"
  | .nameTooLong => "File name too long (os error 36)"
  | .notText => "stream did not contain valid UTF-8"

/-- What is at a place. -/
inductive DiskEntry where
  /-- A file with the given bytes. -/
  | file (bytes : List UInt8)
  /-- A directory. -/
  | directory
deriving DecidableEq

/-- A place, by the names that lead to it. -/
abbrev Place := List String

/-- A tree of files. -/
structure Disk where
  /-- What is at each place. -/
  entries : Std.TreeMap Place DiskEntry

/-- The name that leads up. -/
def upward : String := ".."

/-- The name that stands for the root of absolute paths. -/
def rootName : String := "/"

/-- The bytes that a name may take up. -/
def nameLimit : Nat := 255

/-- The bytes that a path may take up. -/
def pathLimit : Nat := 4095

/-- Whether the name is too long. -/
def isLongName (name : String) : Bool := nameLimit < name.utf8ByteSize

/-- Whether the path is too long. -/
def isLongPath (path : String) : Bool := pathLimit < path.utf8ByteSize

/-- Whether the place is always a directory: the running directory, one above it, or
the root. -/
def isBase : Place → Bool
  | [] => true
  | [name] => name == upward || name == rootName
  | names => names.all (· == upward)

/-- The place that `name` leads to from the directory at `here`. -/
def enter (here : Place) (name : String) : Place :=
  if name = "." || name = "" then here
  else if name = upward then
    if here = [rootName] then here
    else if here.isEmpty || here.getLast? = some upward then here ++ [upward]
    else here.dropLast
  else here ++ [name]

/-- The parts of `s` between slashes. -/
def slashParts : List Char → List (List Char)
  | [] => [[]]
  | '/' :: rest => [] :: slashParts rest
  | c :: rest =>
    match slashParts rest with
    | [] => [[c]]
    | first :: others => (c :: first) :: others

/-- Where following a path starts, and the names on it. -/
def followed (path : String) : Place × List String :=
  let names := (slashParts path.toList).map String.ofList
  if path.toList.head? = some '/' then ([rootName], names) else ([], names)

/-- The places on the way along names from `here`, the last of them included. -/
def visited (here : Place) : List String → List Place
  | [] => []
  | name :: rest => enter here name :: visited (enter here name) rest

/-- The places on the way along a path. -/
def pathPlaces (path : String) : List Place :=
  let (start, names) := followed path
  visited start names

/-- The path that leads to a place. -/
def placePath : Place → String
  | [] => "."
  | name :: names =>
    if name = rootName then rootName ++ "/".intercalate names else "/".intercalate (name :: names)

/-- The names of a path that lead somewhere. -/
def pathNames (path : String) : List String :=
  let (start, names) := followed path
  start ++ names.filter fun name => name != "." && name != ""

/-- The path of the directory that the last name of a path lies in. -/
def directoryPath (path : String) : String :=
  let above := (slashParts path.toList).reverse.tail.dropWhile fun part =>
    part.isEmpty || part == ['.']
  String.ofList (List.intercalate ['/'] above.reverse)

namespace Disk

/-- The tree without files. -/
def empty : Disk := ⟨∅⟩

/-- What is at a place. -/
def find? (disk : Disk) (place : Place) : Option DiskEntry :=
  if isBase place then some .directory else disk.entries[place]?

/-- The tree with `entry` at the place. -/
def put (disk : Disk) (place : Place) (entry : DiskEntry) : Disk :=
  ⟨disk.entries.insert place entry⟩

/-- An entry is found where it was put, and nothing changes elsewhere. -/
theorem find?_put (disk : Disk) (place other : Place) (entry : DiskEntry) :
    (disk.put place entry).find? other =
      if isBase other then some .directory
      else if other = place then some entry
      else disk.find? other := by
  unfold find? put
  by_cases base : isBase other = true
  · simp [base]
  · by_cases same : other = place
    · simp [same]
    · simp [base, same, Std.TreeMap.getElem?_insert, Ne.symm same]

/-- The entries of the tree that are not in `old`, each directory before what it holds. -/
def since (disk old : Disk) : List (Place × DiskEntry) :=
  disk.entries.toList.filter fun found => old.find? found.1 ≠ some found.2

/-- The place that the names lead to from `here`. -/
def follow (disk : Disk) (here : Place) : List String → Except SystemError Place
  | [] => .ok here
  | name :: rest =>
    match disk.find? here with
    | none => .error .notFound
    | some (.file _) => .error .notDirectory
    | some .directory =>
      if isLongName name then .error .nameTooLong else disk.follow (enter here name) rest

/-- The bytes of the file at a path. -/
def readBytes (disk : Disk) (path : String) : Except SystemError (List UInt8) := do
  if path.isEmpty then .error .notFound
  else if isLongPath path then .error .nameTooLong
  else
    let (start, names) := followed path
    let place ← disk.follow start names
    match disk.find? place with
    | none => .error .notFound
    | some .directory => .error .isDirectory
    | some (.file bytes) => .ok bytes

/-- The text of the file at a path. -/
def readText (disk : Disk) (path : String) : Except SystemError String := do
  let bytes ← disk.readBytes path
  match Text.decodeUtf8? bytes with
  | some text => .ok text
  | none => .error .notText

/-- Makes the directories that the names lead through from `here`, a directory, one after
the other. One that is there is left alone, and a file is in the way. -/
def addDirectories (disk : Disk) (here : Place) : List String → Except SystemError Unit × Disk
  | [] => (.ok (), disk)
  | name :: rest =>
    if isLongName name then (.error .nameTooLong, disk)
    else
      match disk.find? (enter here name) with
      | none => (disk.put (enter here name) .directory).addDirectories (enter here name) rest
      | some .directory => disk.addDirectories (enter here name) rest
      | some (.file _) => (.error .exists, disk)

/-- Makes the directories from the first that is missing on among those that the names lead
through from `here`, a directory. As long as none is missing, the system looks at the
whole way, and a file on it is no directory to go through. -/
def completeDirectories (disk : Disk) (here : Place) :
    List String → Except SystemError Unit × Disk
  | [] => (.ok (), disk)
  | name :: rest =>
    if isLongName name then (.error .nameTooLong, disk)
    else
      match disk.find? (enter here name) with
      | none => disk.addDirectories here (name :: rest)
      | some .directory => disk.completeDirectories (enter here name) rest
      | some (.file _) => (.error (if rest.isEmpty then .exists else .notDirectory), disk)

/-- Makes the directory at a path, and first those above it where they are missing. -/
def makeDirectories (disk : Disk) (path : String) : Except SystemError Unit × Disk :=
  if isLongPath path then (.error .nameTooLong, disk)
  else disk.completeDirectories [] (pathNames path)

/-- Writes the file at a path, in place of one that is there. -/
def writeFile (disk : Disk) (path : String) (bytes : List UInt8) : Except SystemError Disk := do
  if isLongPath path then .error .nameTooLong
  else
    let place ← disk.follow [] (pathNames path)
    match disk.find? place with
    | some .directory => .error .isDirectory
    | _ => .ok (disk.put place (.file bytes))

/-- Writes the file at a path, with the directories above it. -/
def create (disk : Disk) (path : String) (bytes : List UInt8) : Except SystemError Unit × Disk :=
  match disk.makeDirectories (directoryPath path) with
  | (.error cause, disk) => (.error cause, disk)
  | (.ok (), disk) =>
    match disk.writeFile path bytes with
    | .ok disk => (.ok (), disk)
    | .error cause => (.error cause, disk)

/-- The files with their bytes, those above the running directory and under the root
left out. -/
def files (disk : Disk) : List (Place × List UInt8) :=
  disk.entries.toList.filterMap fun found =>
    if found.1.head? = some upward || found.1.head? = some rootName then none
    else
      match found.2 with
      | .file bytes => some (found.1, bytes)
      | .directory => none

end Disk

/-! ### Generated files -/

/-- The path of `part` under `base`. An absolute part leads away from the base. -/
def joinPath (base part : String) : String :=
  if part.toList.head? = some '/' then part
  else if base.isEmpty || base.toList.getLast? = some '/' then base ++ part
  else base ++ "/" ++ part

/-- The directories of a package. -/
def packageDirectories (package : String) : List String :=
  ((Text.segments package.toList).filter fun part => !part.isEmpty).map String.ofList

/-- The name of the file of a type. -/
def outputName (name : String) : String := Text.snakeCase name ++ ".rs"

/-- The path of a generated file under the output directory. -/
def EmittedFile.pathUnder (output : String) (file : EmittedFile) : String :=
  joinPath ((packageDirectories file.package).foldl joinPath output) (outputName file.name)

/-- The output directory of a disk as a sink. -/
def Disk.sink (output : String) : Sink Disk where
  create file disk :=
    match disk.create (file.pathUnder output) (Text.utf8Bytes file.source) with
    | (.ok (), disk) => (.ok (), disk)
    | (.error cause, disk) => (.error (.storage cause.message), disk)

end RequestRouter
