import RowStore.Fault
import RowStore.Sizes

/-!
Records as lists of named byte strings, and the bytes they are stored as: for each field its name
and then its value, each behind its length in four bytes. A row has no header, no count and no
checksum, and the end of the bytes ends it.
-/

namespace RowStore

structure Field where
  name : Bytes
  value : Bytes
  deriving DecidableEq, Repr, Inhabited

/-- A record: its fields in stored order. -/
abbrev Row := List Field

/-- The bytes that a chunk's length is written in. -/
def lengthWidth : Nat := 4

/-- The least length that does not fit into a chunk's length. -/
def lengthLimit : Nat := Bytes.fieldRange lengthWidth

/-- Put a chunk behind its length at the end of a buffer, which keeps what it holds if the chunk is
too long. -/
def putChunk (buffer chunk : Bytes) : Except Fault Unit × Bytes :=
  if chunk.length < lengthLimit then
    (.ok (), buffer ++ (Bytes.littleEndian lengthWidth chunk.length ++ chunk))
  else (.error (.fieldTooLarge chunk.length), buffer)

/-- Put chunks one after another, up to the first that is too long. Those before it stay. -/
def putChunks (buffer : Bytes) : List Bytes → Except Fault Unit × Bytes
  | [] => (.ok (), buffer)
  | chunk :: later =>
    match putChunk buffer chunk with
    | (.ok (), longer) => putChunks longer later
    | (.error fault, kept) => (.error fault, kept)

namespace Field

def encodedSize (field : Field) : Nat :=
  2 * lengthWidth + field.name.length + field.value.length

end Field

namespace Row

def encodedSize (row : Row) : Nat :=
  total Field.encodedSize row

/-- What the stored form of a row is made of: the name of each field and then its value. -/
def chunks (row : Row) : List Bytes :=
  row.flatMap fun field => [field.name, field.value]

/-- Put the stored form of a row at the end of a buffer. -/
def encodeInto (buffer : Bytes) (row : Row) : Except Fault Unit × Bytes :=
  putChunks buffer row.chunks

/-- The stored form of a row, put behind bytes that are there already. -/
def encodeAfter (earlier : Bytes) (row : Row) : Except Fault Bytes :=
  match row.encodeInto earlier with
  | (.ok (), stored) => .ok stored
  | (.error fault, _) => .error fault

def encode (row : Row) : Except Fault Bytes :=
  row.encodeAfter []

end Row

end RowStore
