import RowStore.Dictionary
import RowStore.Fault
import RowStore.FileSystem.Path

/-!
A file system as a value: a tree of directories and files below one root, and the contents of the
files. A name leads to a file's identity and the identity to its contents, so that an open file
keeps its contents when its name is moved or taken away.
-/

namespace RowStore

/-- The names on the way from the root; the root itself is the empty list. -/
abbrev Location := List String

/-- One step from a directory. The root is its own parent. -/
def Location.follow (location : Location) (step : String) : Location :=
  if step = Path.here then location
  else if step = Path.up then location.dropLast
  else location ++ [step]

/-- The identity of a file, whatever its name. -/
abbrev FileId := Nat

inductive Node
  | directory
  | file (id : FileId)
  deriving DecidableEq, Repr

structure FileSystem where
  /-- All directories and files below the root. -/
  nodes : Dictionary Location Node := .empty
  contents : Dictionary FileId Bytes := .empty
  nextFile : FileId := 0

namespace FileSystem

instance : Inhabited FileSystem := ⟨{}⟩

def empty : FileSystem := {}

def node? (files : FileSystem) (location : Location) : Option Node :=
  if location = [] then some .directory else files.nodes.find? location

/-- One step out of a directory, into what must be a directory again. -/
def enter (files : FileSystem) (location : Location) (step : String) :
    Except FileFault Location :=
  let next := location.follow step
  match files.node? next with
  | none => .error .notFound
  | some (.file _) => .error .notDirectory
  | some .directory => .ok next

/-- Where the steps lead. All but the last have to lead to directories, and what the last leads to
need not exist. -/
def locateSteps (files : FileSystem) (steps : List String) : Except FileFault Location := do
  match steps.getLast? with
  | none => return []
  | some last =>
    let directory ← steps.dropLast.foldlM files.enter []
    return directory.follow last

def locate (files : FileSystem) (path : String) : Except FileFault Location :=
  if path = "" then .error .notFound else files.locateSteps (Path.steps path)

def lookup (files : FileSystem) (path : String) : Except FileFault Node := do
  let location ← files.locate path
  match files.node? location with
  | none => .error .notFound
  | some .directory => return .directory
  | some (.file id) => if Path.endsInSlash path then .error .notDirectory else return .file id

def pathExists (files : FileSystem) (path : String) : Bool :=
  (files.lookup path).isOk

def fileAt (files : FileSystem) (path : String) : Except FileFault FileId := do
  match ← files.lookup path with
  | .directory => .error .isDirectory
  | .file id => return id

def content (files : FileSystem) (id : FileId) : Bytes :=
  (files.contents.find? id).getD []

def read (files : FileSystem) (path : String) : Except FileFault Bytes := do
  let id ← files.fileAt path
  return files.content id

def readText (files : FileSystem) (path : String) : Except FileFault String := do
  let bytes ← files.read path
  match Utf8.decode? bytes with
  | some text => return text
  | none => .error .notText

def setContent (files : FileSystem) (id : FileId) (bytes : Bytes) : FileSystem :=
  { files with contents := files.contents.set id bytes }

theorem content_setContent (files : FileSystem) (id other : FileId) (bytes : Bytes) :
    (files.setContent id bytes).content other =
      if other = id then bytes else files.content other := by
  simp only [content, setContent, Dictionary.find?_set]
  split <;> rfl

/-- Write at the end. Nothing happens when there is nothing to write. -/
def append (files : FileSystem) (id : FileId) (bytes : Bytes) : FileSystem :=
  if bytes.isEmpty then files else files.setContent id (files.content id ++ bytes)

theorem content_append (files : FileSystem) (id other : FileId) (bytes : Bytes) :
    (files.append id bytes).content other =
      if other = id then files.content id ++ bytes else files.content other := by
  unfold append
  cases bytes with
  | nil =>
    simp only [List.isEmpty_nil, if_true, List.append_nil]
    split
    · rename_i same
      rw [same]
    · rfl
  | cons byte rest => simp [content_setContent]

/-- Bytes cut or, with zeros, extended to a length. -/
def resizeBytes (bytes : Bytes) (length : Nat) : Bytes :=
  bytes.take length ++ List.replicate (length - bytes.length) 0

/-- Bytes overwritten from an offset on. A gap before the offset is filled with zeros. -/
def overwrite (bytes : Bytes) (offset : Nat) (written : Bytes) : Bytes :=
  resizeBytes bytes offset ++ written ++ bytes.drop (offset + written.length)

def resize (files : FileSystem) (id : FileId) (length : Nat) : FileSystem :=
  files.setContent id (resizeBytes (files.content id) length)

/-- Write at an offset. Nothing happens when there is nothing to write. -/
def writeAt (files : FileSystem) (id : FileId) (offset : Nat) (written : Bytes) : FileSystem :=
  if written.isEmpty then files
  else files.setContent id (overwrite (files.content id) offset written)

/-- A file opened for writing, made empty if it did not exist. -/
def openFile (files : FileSystem) (path : String) : Except FileFault (FileId × FileSystem) := do
  let location ← files.locate path
  if Path.endsInSlash path then .error .isDirectory
  else
    match files.node? location with
    | some .directory => .error .isDirectory
    | some (.file id) => return (id, files)
    | none =>
      return (files.nextFile,
        { nodes := files.nodes.set location (.file files.nextFile)
          contents := files.contents.set files.nextFile []
          nextFile := files.nextFile + 1 })

/-- The file with exactly these bytes; a file that exists keeps its identity. -/
def write (files : FileSystem) (path : String) (bytes : Bytes) : Except FileFault FileSystem := do
  let (id, opened) ← files.openFile path
  return opened.setContent id bytes

def makeDirectorySteps (files : FileSystem) (steps : List String) :
    Except FileFault FileSystem := do
  let location ← files.locateSteps steps
  match files.node? location with
  | some _ => .error .alreadyExists
  | none => return { files with nodes := files.nodes.set location .directory }

def isDirectorySteps (files : FileSystem) (steps : List String) : Bool :=
  match files.locateSteps steps with
  | .ok location => files.node? location = some .directory
  | .error _ => false

/-- What has become of a request to make a directory that may be there already. -/
def orPresent (files : FileSystem) (steps : List String) :
    Except FileFault FileSystem → Except FileFault Unit × FileSystem
  | .ok made => (.ok (), made)
  | .error fault => (if files.isDirectorySteps steps then .ok () else .error fault, files)

/-- Make the directory at the end of the reversed steps. Directories on the way are made only when
the last one turns out to need them. -/
def makeDirectoriesReversed :
    List String → FileSystem → Except FileFault Unit × FileSystem
  | [], files => (.ok (), files)
  | last :: rest, files =>
    let steps := (last :: rest).reverse
    match files.makeDirectorySteps steps with
    | .error .notFound =>
      match makeDirectoriesReversed (Path.upperReversed (last :: rest)) files with
      | (.error fault, files) => (.error fault, files)
      | (.ok (), files) => files.orPresent steps (files.makeDirectorySteps steps)
    | outcome => files.orPresent steps outcome
termination_by reversedSteps => reversedSteps.length
decreasing_by exact Path.length_upperReversed_lt last rest

/-- Make a directory and those on the way to it. Directories that exist are left alone. A path that
ends in a step to the directory itself does not name it well enough for it to be made. -/
def makeDirectories (files : FileSystem) (path : String) : Except FileFault Unit × FileSystem :=
  makeDirectoriesReversed (Path.steps path).reverse files

/-- The names directly below a directory, in ascending order. -/
def namesBelow (files : FileSystem) (location : Location) : List String :=
  let names := files.nodes.keys.filterMap fun key =>
    if key.dropLast = location then key.getLast? else none
  names.mergeSort fun earlier later => earlier ≤ later

/-- What a directory holds: each name with the size of the file, or `none` for a directory. -/
def list (files : FileSystem) (path : String) : Except FileFault (List (String × Option Nat)) := do
  match ← files.lookup path with
  | .file _ => .error .notDirectory
  | .directory =>
    let location ← files.locate path
    return (files.namesBelow location).map fun name =>
      match files.node? (location ++ [name]) with
      | some (.file id) => (name, some (files.content id).length)
      | _ => (name, none)

def removeFile (files : FileSystem) (path : String) : Except FileFault FileSystem := do
  let location ← files.locate path
  match files.node? location with
  | none => .error .notFound
  | some .directory => .error .isDirectory
  | some (.file _) =>
    if Path.endsInSlash path then .error .notDirectory
    else return { files with nodes := files.nodes.erase location }

/-- Remove an empty directory. It has to be called by its name. -/
def removeDirectory (files : FileSystem) (path : String) : Except FileFault FileSystem := do
  let location ← files.locate path
  match (Path.steps path).getLast? with
  | none => .error .busy
  | some last =>
    if last = Path.here then .error .invalidArgument
    else if last = Path.up then .error .notEmpty
    else
      match files.node? location with
      | none => .error .notFound
      | some (.file _) => .error .notDirectory
      | some .directory =>
        if files.namesBelow location ≠ [] then .error .notEmpty
        else return { files with nodes := files.nodes.erase location }

/-- Move everything at and below a location. -/
def moveBelow (files : FileSystem) (source target : Location) : FileSystem :=
  let moved := files.nodes.pairs.map fun (location, node) =>
    if source.isPrefixOf location then (target ++ location.drop source.length, node)
    else (location, node)
  { files with nodes := moved.foldl (fun nodes (location, node) => nodes.set location node) .empty }

/-- Give what `source` names the name `target`, in one step. A file takes the place of a file and a
directory that of an empty directory; a directory cannot be put below itself. Both have to be called
by their names. -/
def rename (files : FileSystem) (source target : String) : Except FileFault FileSystem := do
  let sourceLocation ← files.locate source
  let targetLocation ← files.locate target
  if Path.endsUnnamed (Path.steps source) ∨ Path.endsUnnamed (Path.steps target) then .error .busy
  else
    match files.node? sourceLocation with
    | none => .error .notFound
    | some (.file id) =>
      if Path.endsInSlash source ∨ Path.endsInSlash target then .error .notDirectory
      else
        match files.node? targetLocation with
        | some .directory =>
          .error (if targetLocation.isPrefixOf sourceLocation then .notEmpty else .isDirectory)
        | _ =>
          if sourceLocation = targetLocation then return files
          else return { files with
            nodes := (files.nodes.erase sourceLocation).set targetLocation (.file id) }
    | some .directory =>
      if sourceLocation = targetLocation then return files
      else if sourceLocation.isPrefixOf targetLocation then .error .invalidArgument
      else if targetLocation.isPrefixOf sourceLocation then .error .notEmpty
      else
        match files.node? targetLocation with
        | some (.file _) => .error .notDirectory
        | _ =>
          if files.namesBelow targetLocation ≠ [] then .error .notEmpty
          else
            let cleared := { files with nodes := files.nodes.erase targetLocation }
            return cleared.moveBelow sourceLocation targetLocation

end FileSystem

end RowStore
