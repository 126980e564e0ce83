import RowStore.Bytes.Checksum
import RowStore.Fault

/-!
The bytes of a snapshot: a header with magic, version and entry count, the entries in a block, and
a footer with the checksum of the block and four bytes of padding. Each entry is the length of its
key, the length of its value, the key and the value.
-/

namespace RowStore.Snapshot

def magic : Bytes := [0x42, 0x54, 0x44, 0x42]

def version : Nat := 1

def headerWidth : Nat := 14

def footerWidth : Nat := 8

/-- Where the entry count stands in the header. -/
def countOffset : Nat := 6

def versionField : Bytes := Bytes.littleEndian 2 version

def countField (count : Nat) : Bytes := Bytes.littleEndian 8 count

def padding : Bytes := [0, 0, 0, 0]

/-- The pieces of an entry, in the order in which they are written. -/
def entryPieces (key value : Bytes) : List Bytes :=
  [Bytes.littleEndian 4 key.length, Bytes.littleEndian 4 value.length, key, value]

def encodeEntry (entry : Bytes × Bytes) : Bytes :=
  (entryPieces entry.1 entry.2).flatten

def block (entries : List (Bytes × Bytes)) : Bytes :=
  entries.flatMap encodeEntry

/-- The whole file of a list of entries. -/
def image (entries : List (Bytes × Bytes)) : Bytes :=
  magic ++ versionField ++ countField entries.length ++ block entries ++
    (block entries).checksumField ++ padding

/-- The entries of a data block, behind those in `earlier`, which are kept latest first. -/
def readBlockAfter (earlier : List (Bytes × Bytes)) (bytes : Bytes) :
    Except SnapshotFault (List (Bytes × Bytes)) :=
  if bytes.isEmpty then .ok earlier.reverse
  else
    match _headerSplit : Bytes.split? 8 bytes with
    | none => .error .truncatedHeader
    | some (lengths, rest) =>
      let keyLength := Bytes.ofLittleEndian (lengths.take 4)
      let valueLength := Bytes.ofLittleEndian (lengths.drop 4)
      match _bodySplit : Bytes.split? (keyLength + valueLength) rest with
      | none => .error .truncatedBody
      | some (body, rest) =>
        readBlockAfter ((body.take keyLength, body.drop keyLength) :: earlier) rest
termination_by bytes.length
decreasing_by
  obtain ⟨whole, width⟩ := Bytes.split?_eq_some_iff.mp _headerSplit
  obtain ⟨content, _⟩ := Bytes.split?_eq_some_iff.mp _bodySplit
  rw [whole, content]
  simp only [List.length_append, width]
  omega

def readBlock (bytes : Bytes) : Except SnapshotFault (List (Bytes × Bytes)) :=
  readBlockAfter [] bytes

/-- The entries of a snapshot file. The path only serves the wording of faults. -/
def parse (path : String) (bytes : Bytes) : Except SnapshotFault (List (Bytes × Bytes)) := do
  if bytes.length < headerWidth + footerWidth then
    throw (.tooShort path bytes.length)
  if bytes.take 4 ≠ magic then
    throw (.wrongMagic (bytes.take 4))
  let found := Bytes.ofLittleEndian ((bytes.drop 4).take 2)
  if found ≠ version then
    throw (.unsupportedVersion found)
  let claimed := Bytes.ofLittleEndian ((bytes.drop countOffset).take 8)
  let body := bytes.drop headerWidth
  let data : Bytes := body.take (body.length - footerWidth)
  let footer := body.drop (body.length - footerWidth)
  if data.checksumField ≠ footer.take 4 then
    throw (.checksumMismatch path)
  let entries ← readBlock data
  if entries.length ≠ claimed then
    throw (.countMismatch claimed entries.length)
  return entries

end RowStore.Snapshot
