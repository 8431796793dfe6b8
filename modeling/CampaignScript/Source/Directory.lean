import CampaignScript.Source.LoadError

/-! A directory held in memory, and the way a path leads through it to the bytes of a file. -/
namespace CampaignScript

/-- Folders and files below a directory, by the names on the way to them. The folders on the way to
a folder or file are there too. -/
structure Directory where
  folders : List (List Text)
  files : List (List Text × ByteArray)

namespace Directory

/-- The names in a path between its slashes. -/
def names (path : Text) : List Text :=
  (path.splitOn '/').filter fun name => !name.isEmpty && name != ['.']

/-- The directory with the given folders and files, by their paths. -/
def ofPaths (folders : List Text) (files : List (Text × ByteArray)) : Directory :=
  { folders := folders.map names, files := files.map fun (path, bytes) => (names path, bytes) }

def isFolder (directory : Directory) (path : List Text) : Bool :=
  path.isEmpty || directory.folders.any path.isPrefixOf ||
    directory.files.any fun (file, _) => path.isPrefixOf file && path != file

/-- Where a part of a path leads. -/
inductive Place where
  | file (bytes : ByteArray)
  /-- A folder of the directory, or the directory itself. -/
  | folder (path : List Text)
  /-- A folder around the directory, of which nothing else is known. -/
  | outside

/-- The most bytes that a name may have, and the number that those of a path stay below. -/
def nameLimit : Nat := 255
def pathLimit : Nat := 4096

def byteCount (text : Text) : Nat :=
  (String.ofList text).utf8ByteSize

/-- The place with the given name in a folder. -/
def enter (directory : Directory) (folder : Place) (name : Text) : Except ReadFault Place :=
  match folder with
  | .file _ => .error .notDirectory
  | .outside =>
    if name = [] ∨ name = ['.'] ∨ name = ['.', '.'] then .ok .outside
    else if nameLimit < byteCount name then .error .invalidName
    else .error .notFound
  | .folder path =>
    if name = [] ∨ name = ['.'] then .ok (.folder path)
    else if name = ['.', '.'] then .ok (if path.isEmpty then .outside else .folder path.dropLast)
    else if nameLimit < byteCount name then .error .invalidName
    else
      let path := path ++ [name]
      match directory.files.lookup path with
      | some bytes => .ok (.file bytes)
      | none => if directory.isFolder path then .ok (.folder path) else .error .notFound

/-- The bytes of the file that a path leads to. A path that starts with a slash starts outside. -/
def read (directory : Directory) (path : Text) : Except ReadFault ByteArray := do
  if '\x00' ∈ path then throw .invalidPath
  if path = [] then throw .notFound
  if pathLimit ≤ byteCount path then throw .invalidName
  let start := if path.head? = some '/' then Place.outside else .folder []
  match ← (path.splitOn '/').foldlM directory.enter start with
  | .file bytes => pure bytes
  | .folder _ | .outside => throw .isDirectory

end Directory

end CampaignScript
