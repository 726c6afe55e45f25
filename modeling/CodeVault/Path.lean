/-!
# Paths

A path is a text of names with `/` between them.

* slashes at the end, and names `.` that something precedes, do not count (`dropTail`);
* a path ends in a file name unless what ends it is the root, `.` or `..`;
* the extension of a file name is what follows its last dot, if something precedes that dot;
* to replace an extension (`withExtension`), the old one is cut off the end first; a path that then
  has no file name gets none.
-/

namespace CodeVault.Path

/-! ## 1. The end of a path -/

/-- What counts of a path, read backwards, without the slashes and dots that end it. -/
def dropTail : List Char → List Char
  | '/' :: rest => dropTail rest
  | '.' :: '/' :: rest => dropTail rest
  | rest => rest

/-- A path as what precedes its last name, and that name. -/
def split (path : List Char) : List Char × List Char :=
  let backwards := dropTail path.reverse
  ((backwards.dropWhile (· != '/')).reverse, (backwards.takeWhile (· != '/')).reverse)

/-- The file name that a path ends in. -/
def fileName? (path : List Char) : Option (List Char) :=
  let name := (split path).2
  if name = [] ∨ name = ['.'] ∨ name = ['.', '.'] then none else some name

/-- A file name without its extension and the dot before it. -/
def stem (name : List Char) : List Char :=
  if '.' ∈ name then
    match (name.reverse.dropWhile (· != '.')).tail.reverse with
    | [] => name
    | before => before
  else name

/-- The extension of a file name; empty if it has none. -/
def extension (name : List Char) : List Char := name.drop ((stem name).length + 1)

/-! ## 2. Paths from paths -/

/-- The path of `path` seen from the directory `root`; a path from the root is its own. -/
def join (root path : List Char) : List Char :=
  match path with
  | '/' :: _ => path
  | _ =>
    match root.getLast? with
    | none => path
    | some '/' => root ++ path
    | some _ => root ++ '/' :: path

/-- The path without as many characters at its end as the extension of its file name has. -/
def withoutExtension (path : List Char) : List Char :=
  match fileName? path with
  | none => path
  | some name => path.take (path.length - (extension name).length)

/-- The path whose file name has another extension. Of `..name` the cut leaves `..`, which is no
    file name, so nothing is added to it. -/
def withExtension (path extension : List Char) : List Char :=
  let shortened := withoutExtension path
  match fileName? shortened with
  | none => shortened
  | some name => (split shortened).1 ++ stem name ++ '.' :: extension

/-- The directory that a path is in, if it ends in a name. -/
def parent? (path : List Char) : Option (List Char) :=
  let (before, name) := split path
  if name = [] then none
  else match dropTail before.reverse with
    | [] => if path.head? = some '/' then some ['/'] else some []
    | rest => some rest.reverse

/-- The names of a path, without those that do not count. -/
def names (path : String) : List String :=
  (path.splitOn "/").filter fun name => name != "" && name != "."

/-- Whether a path, but for slashes, ends in no name of its own: in the root, `.` or `..`. -/
def isNameless (path : String) : Bool :=
  let last := (path.toList.reverse.dropWhile (· == '/')).takeWhile (· != '/')
  last == [] || last == ['.'] || last == ['.', '.']

/-- Whether a path, by its end, can only be a directory. -/
def mustBeDirectory (path : String) : Bool := path.endsWith "/" || isNameless path

/-- Whether a path has a character that no path may have. -/
def hasNul (path : String) : Bool := path.toList.contains '\x00'

/-! ## 3. Containers -/

/-- The extension of containers. -/
def containerExtension : List Char := ['c', 'c', 'a', 'c', 'h', 'e']

/-- The place of the container of an application under a directory. -/
def containerPath (root app : String) : String :=
  String.ofList (withExtension (join root.toList app.toList) containerExtension)

end CodeVault.Path
