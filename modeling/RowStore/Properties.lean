import RowStore.Dictionary
import RowStore.FileSystem
import RowStore.SyncStrategy

namespace RowStore

structure Properties where
  entries : Dictionary String String := .empty

namespace Properties

instance : Inhabited Properties := ⟨{}⟩

def empty : Properties := {}

def get? (properties : Properties) (key : String) : Option String :=
  properties.entries.find? key

def getD (properties : Properties) (key default : String) : String :=
  (properties.get? key).getD default

def size (properties : Properties) : Nat :=
  properties.entries.size

def set (properties : Properties) (key value : String) : Properties :=
  { entries := properties.entries.set key value }

def setAll (properties : Properties) (pairs : List (String × String)) : Properties :=
  pairs.foldl (fun properties pair => properties.set pair.1 pair.2) properties

/-- The two sides of an assignment without the blank characters around them. -/
def assignment? (chars : List Char) : Option (String × String) :=
  (Text.splitAtFirst? '=' chars).map fun (key, value) =>
    (String.ofList (Text.trim key), String.ofList (Text.trim value))

def assign (properties : Properties) (text : String) : Except Fault Properties :=
  match assignment? text.toList with
  | some (key, value) => .ok (properties.set key value)
  | none => .error (.config (.notAssignment text))

/-- Whether a line without its surrounding blank characters assigns nothing. -/
def isIdle : List Char → Bool
  | [] => true
  | first :: _ => first = '#' ∨ first = '!'

/-- Carry out the lines from the one numbered `number` on, up to the first that is neither idle nor
an assignment. The assignments before that line stay. -/
def mergeLines (properties : Properties) (number : Nat) :
    List (List Char) → Except Fault Unit × Properties
  | [] => (.ok (), properties)
  | line :: rest =>
    let content := Text.trim line
    if isIdle content then properties.mergeLines (number + 1) rest
    else
      match assignment? content with
      | some (key, value) => (properties.set key value).mergeLines (number + 1) rest
      | none =>
        (.error (.config (.notAssignmentLine number (String.ofList content))), properties)

def merge (properties : Properties) (text : String) : Except Fault Unit × Properties :=
  properties.mergeLines 1 (Text.lines text.toList)

def load (files : FileSystem) (path : String) : Except Fault Properties :=
  match files.readText path with
  | .error fault => .error (.file fault)
  | .ok text =>
    match empty.merge text with
    | (.ok (), properties) => .ok properties
    | (.error fault, _) => .error fault

/-- A property read from its text, or `default` where there is none. -/
def parseD {Value : Type} (properties : Properties) (key : String) (default : Value)
    (parse : String → Except ValueFault Value) : Except Fault Value :=
  match properties.get? key with
  | none => .ok default
  | some text =>
    match parse text with
    | .ok value => .ok value
    | .error reason => .error (.config (.invalidValue text key reason))

def numberD (properties : Properties) (key : String) (default : Nat) : Except Fault Nat :=
  properties.parseD key default fun text => (Text.parseNumber text).mapError .number

def strategyD (properties : Properties) (key : String) (default : SyncStrategy) :
    Except Fault SyncStrategy :=
  properties.parseD key default fun text => (SyncStrategy.parse text).mapError .sync

end Properties

end RowStore
