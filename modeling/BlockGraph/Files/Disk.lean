import BlockGraph.Files.Path
import BlockGraph.Files.System

/-!
# Disks

A file system as a value: files and directories by their absolute paths. Paths are walked name by
name from the root or from the current directory, and what is walked through has to be a directory.
-/

namespace BlockGraph

/-- A file or a directory. -/
inductive Node where
  | file (content : List UInt8)
  | dir
  deriving DecidableEq, Repr

/-- A file system with a current directory. -/
structure Disk where
  /-- By absolute path without `.`, `..` and a slash at the end. -/
  nodes : SortedMap String Node
  /-- The names that lead to the current directory, the last one first. -/
  current : List String

namespace Disk

/-- The path of the names that lead to a place, the last one first. -/
def pathOf (place : List String) : String := "/" ++ String.intercalate "/" place.reverse

/-- What is at a place. The root is always there. -/
def at? (d : Disk) (place : List String) : Option Node :=
  if place.isEmpty then some .dir else d.nodes.get? (pathOf place)

def isDir (d : Disk) (place : List String) : Bool := d.at? place == some .dir

/-- The greatest length of a name in bytes. -/
def maxName : Nat := 255

/-- The length in bytes that a path may not reach. -/
def maxPath : Nat := 4096

/-- Refuses a path that no call takes. -/
def checkPath (path : String) : Except OsError Unit :=
  if path.toList.contains '\x00' then .error .nulInName
  else if path = "" then .error .notFound
  else if maxPath ≤ Text.byteLength path.toList then .error .nameTooLong
  else .ok ()

/-- Refuses a name that nothing can have. -/
def checkName (name : String) : Except OsError Unit :=
  if maxName < Text.byteLength name.toList then .error .nameTooLong else .ok ()

def walk (d : Disk) (place : List String) (name : String) : Except OsError (List String) := do
  if !d.isDir place then throw .notDirectory
  checkName name
  if name = "." then return place
  else if name = ".." then return place.tail
  else if (d.at? (name :: place)).isSome then return name :: place
  else throw .notFound

/-- The place where a path begins. -/
def origin (d : Disk) (path : String) : List String :=
  if Path.isAbsolute path then [] else d.current

/-- The place and the node that a path names. -/
def resolve (d : Disk) (path : String) : Except OsError (List String × Node) := do
  checkPath path
  let place ← (Path.names path).foldlM d.walk (d.origin path)
  match d.at? place with
  | some node =>
    if Path.endsInSlash path && node ≠ .dir then throw .notDirectory else return (place, node)
  | none => throw .notFound

/-- The directory in which a path would make something, and the name that it would have there; there
is none where the path ends in the root, `.` or `..`. -/
def resolveNew (d : Disk) (path : String) : Except OsError (List String × Option String) := do
  checkPath path
  let names := Path.names path
  let place ← names.dropLast.foldlM d.walk (d.origin path)
  if !d.isDir place then throw .notDirectory
  match names.getLast? with
  | none | some "." | some ".." => return (place, none)
  | some name => return (place, some name)

def put (d : Disk) (place : List String) (node : Node) : Disk :=
  { d with nodes := d.nodes.insert (pathOf place) node }

def openFile (d : Disk) (path : String) : Except OsError Contents := do
  match ← d.resolve path with
  | (_, .file content) => return .ok content
  | (_, .dir) => return .error .isDirectory

/-- The absolute path of something that is there. -/
def realPath (d : Disk) (path : String) : Except OsError String :=
  (fun (place, _) => pathOf place) <$> d.resolve path

/-- Changes the content of a file, which is made if it is not there. A slash at the end asks for a
directory and is refused before the name in front of it is looked at. -/
def editFile (d : Disk) (path : String) (edit : List UInt8 → List UInt8) : Except OsError Disk := do
  match ← d.resolveNew path with
  | (_, none) => throw .isDirectory
  | (place, some name) =>
    if Path.endsInSlash path then throw .isDirectory
    checkName name
    match d.at? (name :: place) with
    | some .dir => throw .isDirectory
    | some (.file content) => return d.put (name :: place) (.file (edit content))
    | none => return d.put (name :: place) (.file (edit []))

def writeFile (d : Disk) (path text : String) : Except OsError Disk :=
  d.editFile path fun _ => Text.encode text

/-- Writes a text behind what a file holds. -/
def appendFile (d : Disk) (path text : String) : Except OsError Disk :=
  d.editFile path (· ++ Text.encode text)

def makeDir (d : Disk) (path : String) : Except OsError Disk := do
  match ← d.resolveNew path with
  | (_, none) => throw .alreadyThere
  | (place, some name) =>
    checkName name
    if (d.at? (name :: place)).isSome then throw .alreadyThere
    return d.put (name :: place) .dir

/-- Makes a directory, if none is at the path; `above` makes the ones above it. -/
def makeDirBelow (above : Disk → Except OsError Disk) (d : Disk) (path : String) :
    Except OsError Disk :=
  let orThere (d : Disk) (e : OsError) : Except OsError Disk :=
    match d.resolve path with
    | .ok (_, .dir) => .ok d
    | _ => .error e
  match d.makeDir path with
  | .ok d => .ok d
  | .error .notFound => do
    let d ← above d
    match d.makeDir path with
    | .ok d => return d
    | .error e => orThere d e
  | .error e => orThere d e

/-- Makes the directory that names lead to from the root or the current directory, the last name
first, and those above it. -/
def makeDirsOf (start : String) : List String → Disk → Except OsError Disk
  | [], d => .ok d
  | name :: names, d =>
    makeDirBelow (makeDirsOf start names) d
      (start ++ String.intercalate "/" (name :: names).reverse)

/-- Makes a directory and those above it. -/
def makeDirs (d : Disk) (path : String) : Except OsError Disk :=
  if path = "" then .ok d
  else
    let start := if Path.isAbsolute path then "/" else ""
    let above := ((Path.names path).filter (· ≠ ".")).dropLast.reverse
    makeDirBelow (makeDirsOf start above) d path

/-- Lets a change of the disk happen, unless it fails. -/
def change (edit : Disk → Except OsError Disk) : StateM Disk (Except OsError Unit) := do
  match edit (← get) with
  | .ok d => set d; return .ok ()
  | .error e => return .error e

instance : FileSystem (StateM Disk) where
  openFile path := return (← get).openFile path
  realPath path := return (← get).realPath path
  makeDirs path := change (·.makeDirs path)
  writeFile path text := change (·.writeFile path text)
  appendFile path text := change (·.appendFile path text)

/-- The disk with a directory at a place and at those above it, where nothing is yet. -/
def plantDirs (d : Disk) : List String → Disk
  | [] => d
  | name :: above =>
    let d := d.plantDirs above
    if (d.at? (name :: above)).isSome then d else d.put (name :: above) .dir

/-- The disk with a node at a place, and with directories above it. -/
def plant (d : Disk) (place : List String) (node : Node) : Disk :=
  (d.plantDirs place.tail).put place node

/-- An empty disk whose current directory is at a place. -/
def emptyAt (current : List String) : Disk := (⟨.empty, current⟩ : Disk).plantDirs current

/-- The files of a disk by their paths. -/
def files (d : Disk) : List (String × List UInt8) :=
  d.nodes.toList.filterMap fun
    | (path, .file content) => some (path, content)
    | (_, .dir) => none

/-- The paths of the files that an earlier disk lacks, below a directory and as seen from it. -/
def newFilesBelow (d earlier : Disk) (dir : List String) : List String :=
  let start := pathOf dir ++ "/"
  d.files.filterMap fun (path, _) =>
    if (earlier.nodes.get? path).isNone && start.toList.isPrefixOf path.toList then
      some (String.ofList (path.toList.drop start.length))
    else none

end Disk

end BlockGraph
