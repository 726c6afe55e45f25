import CodeVault.Bytes
import CodeVault.HostError
import CodeVault.Path

/-!
# Files

The files of a host, as far as a cache sees them: directories, files that are read as a whole and
replaced as a whole, and devices. A replacement is atomic, and what was read before stays as it was
read.

* a path is followed name by name, and the first step that fails says why (`walk`);
* directories are made from the top down as far as they are missing; what was made before one of
  them failed stays (`makeDirectories`);
* a file can be put where its name leads to, but in place of a directory or of `.` and `..`
  (`replace`).
-/

namespace CodeVault

/-- A file with its bytes, a directory, or a device, which has no bytes that could be mapped. -/
inductive Node where
  | file (bytes : Bytes)
  | directory
  | device
  deriving DecidableEq, Repr

/-- What there is by its names from the root on, and the directory that paths start in
    which do not start at the root. The root itself is always there. -/
structure FileStore where
  nodes : List (List String × Node)
  workplace : List String
  deriving DecidableEq, Repr

/-- An action on files. What it changed before it failed stays changed. -/
abbrev FileStoreM := EStateM HostError FileStore

namespace FileStore

/-- The number of bytes that a name may have. -/
def maxName : Nat := 255

/-- The number of bytes that a path may have. -/
def maxPath : Nat := 4095

/-! ## 1. Looking -/

/-- What is at a place. -/
def node? (files : FileStore) (place : List String) : Option Node :=
  if place = [] then some .directory else files.nodes.lookup place

/-- The place that names lead to from a place; all but the last must be directories. -/
def walk (files : FileStore) (place : List String) : List String → Except HostError (List String)
  | [] => .ok place
  | name :: rest =>
    match files.node? place with
    | none => .error .notFound
    | some (.file _) | some .device => .error .notDirectory
    | some .directory =>
      if maxName < name.utf8ByteSize then .error .nameTooLong
      else if name = ".." then files.walk place.dropLast rest
      else files.walk (place ++ [name]) rest

/-- The names of a path that the host accepts. -/
def names (path : String) : Except HostError (List String) :=
  if Path.hasNul path then .error .nulInName
  else if path = "" then .error .notFound
  else if maxPath < path.utf8ByteSize then .error .nameTooLong
  else .ok (Path.names path)

/-- The place that the names of a path start from. -/
def start (files : FileStore) (path : String) : List String :=
  if path.startsWith "/" then [] else files.workplace

/-- The place that a path leads to. -/
def locate (files : FileStore) (path : String) : Except HostError (List String) := do
  files.walk (files.start path) (← names path)

/-- What is at a path. -/
def find (files : FileStore) (path : String) : Except HostError Node := do
  match files.node? (← files.locate path) with
  | none => throw .notFound
  | some .directory => return .directory
  | some node => if Path.mustBeDirectory path then throw .notDirectory else return node

/-- The bytes of the file at a path, mapped into memory; only a file has any. -/
def map (files : FileStore) (path : String) : Except HostError Bytes := do
  match ← files.find path with
  | .file bytes => return bytes
  | .directory | .device => throw .noDevice

/-- The names in a directory, sorted. -/
def list (files : FileStore) (path : String) : List String :=
  let place := Path.names path
  let inside := files.nodes.filterMap fun (other, _) =>
    if other.dropLast = place then other.getLast? else none
  inside.mergeSort fun a b => a ≤ b

/-! ## 2. Changing -/

/-- The store with a node at a place. -/
def put (files : FileStore) (place : List String) (node : Node) : FileStore :=
  { files with nodes := (place, node) :: files.nodes.filter (·.1 != place) }

/-- The store without what is at a place. -/
def erase (files : FileStore) (place : List String) : FileStore :=
  { files with nodes := files.nodes.filter (·.1 != place) }

/-- Makes the directory that names lead to from a place, in one that is there. One that is there
    already stays. -/
def makeDirectory (place names : List String) : FileStoreM Unit := fun files =>
  match files.walk place names with
  | .error cause => .error cause files
  | .ok there =>
    match files.node? there with
    | none => .ok () (files.put there .directory)
    | some .directory => .ok () files
    | some (.file _) | some .device => .error .exists files

/-- Makes the directory that names lead to from a place, and those above it that are missing. The
    names are given from the last to the first. -/
def makeMissing (place : List String) : List String → FileStoreM Unit
  | [] => pure ()
  | name :: above => fun files =>
    let names := (name :: above).reverse
    match makeDirectory place names files with
    | .error .notFound files => (do makeMissing place above; makeDirectory place names) files
    | outcome => outcome

/-- Makes the directory at a path, and those above it that are missing. -/
def makeDirectories (path : String) : FileStoreM Unit := fun files =>
  match names path with
  | .error cause => .error cause files
  | .ok names => makeMissing (files.start path) names.reverse files

/-- Puts bytes in place of what was at a path, or of nothing. A directory stays, and what has no
    name of its own is in use. -/
def replace (files : FileStore) (path : String) (bytes : Bytes) : Except HostError FileStore := do
  if Path.hasNul path then throw .invalidArgument
  if Path.isNameless path then
    let _ ← files.find path
    throw .busy
  let place ← files.locate path
  if path.endsWith "/" then throw .notDirectory
  if files.node? place = some .directory then throw .isDirectory
  return files.put place (.file bytes)

/-- Removes what is at a path. A directory stays. -/
def remove (files : FileStore) (path : String) : Except HostError FileStore := do
  match ← files.find path with
  | .directory => throw .isDirectory
  | .file _ | .device => return files.erase (← files.locate path)

end FileStore

end CodeVault
