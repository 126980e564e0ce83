import RowStore.Text.Utf8
import RowStore.Text.Quoted
import RowStore.Text.Number

namespace RowStore

/-- Why the file system refuses a request. -/
inductive FileFault
  | notFound
  | busy
  | alreadyExists
  | notDirectory
  | isDirectory
  | invalidArgument
  | notEmpty
  /-- The bytes of a file that should be text are not UTF-8. -/
  | notText
  deriving DecidableEq, Repr

def FileFault.message : FileFault → String
  | notFound => "No such file or directory (os error 2)"
  | busy => "Device or resource busy (os error 16)"
  | alreadyExists => "File exists (os error 17)"
  | notDirectory => "Not a directory (os error 20)"
  | isDirectory => "Is a directory (os error 21)"
  | invalidArgument => "Invalid argument (os error 22)"
  | notEmpty => "Directory not empty (os error 39)"
  | notText => "stream did not contain valid UTF-8"

inductive FieldPart
  | name
  | value
  deriving DecidableEq, Repr

def FieldPart.label : FieldPart → String
  | name => "name"
  | value => "value"

/-- Where a stored row stops being one. Offsets count from the start of the row. -/
inductive RowFault
  | truncatedLength (part : FieldPart) (offset left : Nat)
  | overrun (part : FieldPart) (length offset left : Nat)
  deriving DecidableEq, Repr

def RowFault.message : RowFault → String
  | truncatedLength part offset left =>
    s!"truncated {part.label} length at offset {offset}: {left} bytes left"
  | overrun part length offset left =>
    s!"{part.label} of {length} bytes at offset {offset} overruns buffer ({left} bytes left)"

/-- Why a file is not a snapshot. -/
inductive SnapshotFault
  | tooShort (path : String) (size : Nat)
  | wrongMagic (found : Bytes)
  | unsupportedVersion (version : Nat)
  | checksumMismatch (path : String)
  | truncatedHeader
  | truncatedBody
  | countMismatch (claimed found : Nat)
  deriving DecidableEq, Repr

def Bytes.listing (bytes : Bytes) : String :=
  "[" ++ ", ".intercalate (bytes.map fun byte => toString byte.toNat) ++ "]"

def SnapshotFault.message : SnapshotFault → String
  | tooShort path size => s!"snapshot {path} is {size} bytes, shorter than header + footer"
  | wrongMagic found => s!"Invalid snapshot magic: expected BTDB, got {found.listing}"
  | unsupportedVersion version => s!"Unsupported snapshot version: {version}"
  | checksumMismatch path => s!"snapshot {path} data checksum mismatch"
  | truncatedHeader => "truncated entry header"
  | truncatedBody => "truncated entry body"
  | countMismatch claimed found => s!"snapshot header claims {claimed} entries, found {found}"

inductive StorageFault
  | entryTooLarge (length : Nat)
  | unmatchedRelease
  | stillInUse (handles : Nat)
  /-- A visitor of the entries broke off, for a reason of its own. -/
  | refused (reason : String)
  deriving DecidableEq, Repr

def StorageFault.message : StorageFault → String
  | entryTooLarge length => s!"entry of {length} bytes too large"
  | unmatchedRelease => "release without a matching acquire"
  | stillInUse handles => s!"cannot close engine: {handles} handle(s) still in use"
  | refused reason => reason

/-- Why a text does not name a synchronisation strategy. -/
inductive SyncFault
  | zeroInterval
  | unrecognised
  deriving DecidableEq, Repr

def SyncFault.message : SyncFault → String
  | zeroInterval => "sync interval must be positive"
  | unrecognised => "expected \x60always\x60 or a positive integer"

/-- Why a property's value cannot be read. -/
inductive ValueFault
  | number (fault : NumberFault)
  | sync (fault : SyncFault)
  deriving DecidableEq, Repr

def ValueFault.message : ValueFault → String
  | number fault => fault.message
  | sync fault => fault.message

inductive ConfigFault
  /-- A line, counted from one, is neither blank nor a comment nor an assignment. -/
  | notAssignmentLine (line : Nat) (text : String)
  | notAssignment (text : String)
  | notField (text : String)
  | invalidValue (value key : String) (reason : ValueFault)
  | missingPath
  | poolTooSmall (size page : Nat)
  | unknownMeasurement (key name : String)
  deriving DecidableEq, Repr

def ConfigFault.message : ConfigFault → String
  | notAssignmentLine line text => s!"line {line}: expected key=value, got {Text.quoted text}"
  | notAssignment text => s!"expected key=value, got {Text.quoted text}"
  | notField text => s!"expected name=value, got {Text.quoted text}"
  | invalidValue value key reason =>
    s!"invalid value {Text.quoted value} for {key}: {reason.message}"
  | missingPath => "BTree db path is missing"
  | poolTooSmall size page => s!"pool size {size} is smaller than one {page}-byte page"
  | unknownMeasurement key name => s!"unknown {key}: {Text.quoted name}"

/-- Why an operation of the store failed. -/
inductive Fault
  | file (fault : FileFault)
  | malformedRow (fault : RowFault)
  | fieldNotFound (name : String)
  | fieldCount (expected actual : Nat)
  | fieldTooLarge (length : Nat)
  /-- A write does not fit into one log frame. -/
  | frameTooLarge
  | snapshot (fault : SnapshotFault)
  | storage (fault : StorageFault)
  | config (fault : ConfigFault)
  | unknownDatabase (name : String)
  deriving DecidableEq, Repr

def Fault.message : Fault → String
  | file fault => s!"IO error: {fault.message}"
  | malformedRow fault => s!"Malformed row: {fault.message}"
  | fieldNotFound name =>
    s!"Requested field {Text.quoted name} not found in stored row"
  | fieldCount expected actual => s!"Row has {actual} fields, expected {expected}"
  | fieldTooLarge length => s!"Field of {length} bytes exceeds the 32-bit length prefix"
  | frameTooLarge => "WAL corruption detected: entry too large"
  | snapshot fault => s!"Snapshot corruption detected: {fault.message}"
  | storage fault => s!"Storage error: {fault.message}"
  | config fault => s!"Configuration error: {fault.message}"
  | unknownDatabase name => s!"Unknown database: {name}"

end RowStore
