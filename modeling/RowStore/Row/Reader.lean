import RowStore.Row

namespace RowStore

structure RowReader where
  rest : Bytes
  /-- The bytes consumed so far, which faults report as the position. -/
  offset : Nat := 0
  deriving DecidableEq, Repr

namespace RowReader

def ofBytes (bytes : Bytes) : RowReader := { rest := bytes }

def isEmpty (reader : RowReader) : Bool := reader.rest.isEmpty

def remaining (reader : RowReader) : Nat := reader.rest.length

/-- One chunk. A length that is there stays consumed even if the chunk behind it is cut short. -/
def takeChunk (reader : RowReader) (part : FieldPart) : Except RowFault Bytes × RowReader :=
  match Bytes.split? lengthWidth reader.rest with
  | none => (.error (.truncatedLength part reader.offset reader.remaining), reader)
  | some (lengthField, rest) =>
    let length := Bytes.ofLittleEndian lengthField
    let behind : RowReader := { rest, offset := reader.offset + lengthWidth }
    match Bytes.split? length rest with
    | none => (.error (.overrun part length behind.offset behind.remaining), behind)
    | some (chunk, rest) => (.ok chunk, { rest, offset := behind.offset + length })

def next (reader : RowReader) : Except RowFault (Option Field) × RowReader :=
  if reader.isEmpty then (.ok none, reader)
  else
    match reader.takeChunk .name with
    | (.error fault, reader) => (.error fault, reader)
    | (.ok name, reader) =>
      match reader.takeChunk .value with
      | (.error fault, reader) => (.error fault, reader)
      | (.ok value, reader) => (.ok (some { name, value }), reader)

/-- Like `next`, but a fault ends the row: nothing is left after it. -/
def nextUntilFault (reader : RowReader) : Except RowFault (Option Field) × RowReader :=
  match reader.next with
  | (.error fault, reader) => (.error fault, { reader with rest := [] })
  | step => step

theorem takeChunk_shorter {reader after : RowReader} {part : FieldPart} {chunk : Bytes}
    (taken : reader.takeChunk part = (.ok chunk, after)) :
    after.rest.length + lengthWidth ≤ reader.rest.length := by
  unfold takeChunk at taken
  cases lengthSplit : Bytes.split? lengthWidth reader.rest with
  | none => simp [lengthSplit] at taken
  | some found =>
    obtain ⟨lengthField, rest⟩ := found
    obtain ⟨whole, width⟩ := Bytes.split?_eq_some_iff.mp lengthSplit
    simp only [lengthSplit] at taken
    cases chunkSplit : Bytes.split? (Bytes.ofLittleEndian lengthField) rest with
    | none => simp [chunkSplit] at taken
    | some pair =>
      obtain ⟨body, tail⟩ := pair
      obtain ⟨content, _⟩ := Bytes.split?_eq_some_iff.mp chunkSplit
      simp only [chunkSplit, Prod.mk.injEq] at taken
      rw [← taken.2, whole, content]
      simp only [List.length_append, width]
      omega

theorem next_shorter {reader after : RowReader} {field : Field}
    (read : reader.next = (.ok (some field), after)) :
    after.rest.length < reader.rest.length := by
  unfold next at read
  split at read
  · simp at read
  · split at read
    · simp at read
    · rename_i name middle nameTaken
      split at read
      · simp at read
      · rename_i value last valueTaken
        simp only [Prod.mk.injEq] at read
        have first := takeChunk_shorter nameTaken
        have second := takeChunk_shorter valueTaken
        simp only [lengthWidth] at first second
        rw [← read.2]
        omega

/-- The fields up to the clean end of the row or up to its first fault, behind those in `earlier`,
which are kept latest first. -/
def fieldsAfter (earlier : Row) (reader : RowReader) : Row × Option RowFault :=
  match _read : reader.next with
  | (.ok (some field), after) => after.fieldsAfter (field :: earlier)
  | (.ok none, _) => (earlier.reverse, none)
  | (.error fault, _) => (earlier.reverse, some fault)
termination_by reader.rest.length
decreasing_by exact next_shorter _read

def fields (reader : RowReader) : Row × Option RowFault :=
  reader.fieldsAfter []

end RowReader

/-- The row that the bytes are the stored form of. -/
def Row.decode (bytes : Bytes) : Except Fault Row :=
  match (RowReader.ofBytes bytes).fields with
  | (row, none) => .ok row
  | (_, some fault) => .error (.malformedRow fault)

end RowStore
