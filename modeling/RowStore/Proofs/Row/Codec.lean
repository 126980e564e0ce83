import RowStore.Row.Reader

namespace RowStore

variable {chunk stored : Bytes} {field : Field} {row : Row}

/-- A chunk behind its length. -/
def chunkBytes (chunk : Bytes) : Bytes :=
  Bytes.littleEndian lengthWidth chunk.length ++ chunk

/-- Chunks are put in turn, and the first that is too long leaves those before it in the buffer. -/
theorem putChunks_cases (buffer : Bytes) (chunks : List Bytes) :
    ((∀ chunk ∈ chunks, chunk.length < lengthLimit) ∧
        putChunks buffer chunks = (.ok (), buffer ++ chunks.flatMap chunkBytes)) ∨
      ∃ earlier chunk later, chunks = earlier ++ chunk :: later ∧
        (∀ earlierChunk ∈ earlier, earlierChunk.length < lengthLimit) ∧
        lengthLimit ≤ chunk.length ∧
        putChunks buffer chunks =
          (.error (.fieldTooLarge chunk.length), buffer ++ earlier.flatMap chunkBytes) := by
  induction chunks generalizing buffer with
  | nil => exact Or.inl ⟨List.forall_mem_nil _, by simp [putChunks]⟩
  | cons chunk later ih =>
      by_cases fits : chunk.length < lengthLimit
      · have put : putChunk buffer chunk = (.ok (), buffer ++ chunkBytes chunk) := if_pos fits
        rcases ih (buffer ++ chunkBytes chunk) with
          ⟨laterFit, made⟩ | ⟨earlier, refused, rest, rfl, earlierFit, tooLong, failed⟩
        · refine Or.inl ⟨List.forall_mem_cons.mpr ⟨fits, laterFit⟩, ?_⟩
          simp only [putChunks, put, made, List.flatMap_cons, List.append_assoc]
        · refine Or.inr ⟨chunk :: earlier, refused, rest, rfl,
            List.forall_mem_cons.mpr ⟨fits, earlierFit⟩, tooLong, ?_⟩
          simp only [putChunks, put, failed, List.flatMap_cons, List.append_assoc]
      · refine Or.inr ⟨[], chunk, later, rfl, List.forall_mem_nil _, Nat.le_of_not_lt fits, ?_⟩
        simp only [putChunks, putChunk, if_neg fits, List.flatMap_nil, List.append_nil]

namespace Field

/-- Name and value have lengths that four bytes can state. -/
def Fits (field : Field) : Prop :=
  field.name.length < lengthLimit ∧ field.value.length < lengthLimit

def bytes (field : Field) : Bytes :=
  (Bytes.littleEndian lengthWidth field.name.length ++ field.name) ++
    (Bytes.littleEndian lengthWidth field.value.length ++ field.value)

theorem length_bytes (field : Field) : field.bytes.length = field.encodedSize := by
  simp [bytes, encodedSize, lengthWidth]
  omega

end Field

namespace Row

def Fits (row : Row) : Prop :=
  ∀ field ∈ row, field.Fits

def bytes (row : Row) : Bytes :=
  row.flatMap Field.bytes

theorem bytes_cons (field : Field) (row : Row) :
    bytes (field :: row) = field.bytes ++ bytes row := rfl

theorem encodedSize_cons (field : Field) (row : Row) :
    encodedSize (field :: row) = field.encodedSize + row.encodedSize := rfl

theorem length_bytes (row : Row) : row.bytes.length = row.encodedSize := by
  induction row with
  | nil => rfl
  | cons field rest ih =>
      rw [bytes_cons, List.length_append, field.length_bytes, ih]
      rfl

theorem fits_iff_chunks : row.Fits ↔ ∀ chunk ∈ row.chunks, chunk.length < lengthLimit := by
  simp only [Fits, Field.Fits, chunks, List.mem_flatMap, List.mem_cons, List.not_mem_nil,
    or_false]
  constructor
  · rintro fits chunk ⟨field, member, rfl | rfl⟩
    · exact (fits field member).1
    · exact (fits field member).2
  · intro fits field member
    exact ⟨fits _ ⟨field, member, Or.inl rfl⟩, fits _ ⟨field, member, Or.inr rfl⟩⟩

theorem bytes_eq_chunks (row : Row) : row.bytes = row.chunks.flatMap chunkBytes := by
  induction row with
  | nil => rfl
  | cons field later ih =>
      rw [bytes_cons, ih]
      simp [chunks, chunkBytes, Field.bytes]

/-- A row is put behind what a buffer holds, or as much of it as stands before the first chunk that
is too long. -/
theorem encodeInto_cases (buffer : Bytes) (row : Row) :
    (row.Fits ∧ row.encodeInto buffer = (.ok (), buffer ++ row.bytes)) ∨
      ¬ row.Fits ∧ ∃ earlier chunk later, row.chunks = earlier ++ chunk :: later ∧
        (∀ earlierChunk ∈ earlier, earlierChunk.length < lengthLimit) ∧
        lengthLimit ≤ chunk.length ∧
        row.encodeInto buffer =
          (.error (.fieldTooLarge chunk.length), buffer ++ earlier.flatMap chunkBytes) := by
  rw [fits_iff_chunks, bytes_eq_chunks]
  rcases putChunks_cases buffer row.chunks with
    made | ⟨earlier, chunk, later, whole, earlierFit, tooLong, failed⟩
  · exact Or.inl made
  · refine Or.inr ⟨fun fits => ?_, earlier, chunk, later, whole, earlierFit, tooLong, failed⟩
    have fitting := fits chunk (whole ▸ List.mem_append_right _ List.mem_cons_self)
    exact Nat.not_lt_of_le tooLong fitting

theorem encodeInto_append (fits : row.Fits) (buffer : Bytes) :
    row.encodeInto buffer = (.ok (), buffer ++ row.bytes) := by
  rcases encodeInto_cases buffer row with ⟨_, made⟩ | ⟨refused, _⟩
  · exact made
  · exact absurd fits refused

theorem encode_eq_ok_iff : row.encode = .ok stored ↔ row.Fits ∧ stored = row.bytes := by
  rcases encodeInto_cases [] row with ⟨fits, made⟩ | ⟨refused, _, _, _, _, _, _, failed⟩
  · simp [encode, encodeAfter, made, fits, eq_comm]
  · simp [encode, encodeAfter, failed, refused]

/-- A row whose stored form is short enough has no chunk that is too long. -/
theorem fits_of_encodedSize_lt (short : row.encodedSize < lengthLimit) : row.Fits := by
  induction row with
  | nil => exact List.forall_mem_nil _
  | cons field rest ih =>
      rw [encodedSize, total_cons, Field.encodedSize] at short
      have restShort : encodedSize rest < lengthLimit := by
        rw [encodedSize]
        omega
      exact List.forall_mem_cons.mpr ⟨⟨by omega, by omega⟩, ih restShort⟩

end Row

namespace RowReader

theorem takeChunk_append (fits : chunk.length < lengthLimit) (rest : Bytes) (offset : Nat)
    (part : FieldPart) :
    RowReader.takeChunk
        { rest := (Bytes.littleEndian lengthWidth chunk.length ++ chunk) ++ rest, offset } part =
      (.ok chunk, { rest, offset := offset + lengthWidth + chunk.length }) := by
  have lengthSplit := Bytes.split?_append_of_length (chunk ++ rest)
    (Bytes.length_littleEndian lengthWidth chunk.length)
  have length : Bytes.ofLittleEndian (Bytes.littleEndian lengthWidth chunk.length) =
      chunk.length := Bytes.ofLittleEndian_littleEndian_of_lt fits
  simp only [takeChunk, List.append_assoc, lengthSplit, length, Bytes.split?_append]

theorem next_append (fits : field.Fits) (rest : Bytes) (offset : Nat) :
    RowReader.next { rest := field.bytes ++ rest, offset } =
      (.ok (some field), { rest, offset := offset + field.encodedSize }) := by
  have nonempty : RowReader.isEmpty { rest := field.bytes ++ rest, offset } = false := by
    have positive : 0 < field.bytes.length := by
      rw [field.length_bytes, Field.encodedSize, lengthWidth]
      omega
    rw [isEmpty, List.isEmpty_eq_false_iff]
    exact List.append_ne_nil_of_left_ne_nil (List.ne_nil_of_length_pos positive) rest
  have size : offset + lengthWidth + field.name.length + lengthWidth + field.value.length =
      offset + field.encodedSize := by
    rw [Field.encodedSize]
    omega
  simp only [next, nonempty, Bool.false_eq_true, if_false]
  simp only [Field.bytes, List.append_assoc (Bytes.littleEndian lengthWidth field.name.length ++ _),
    takeChunk_append fits.1, takeChunk_append fits.2, size]

theorem takeChunk_eq_ok_iff {reader after : RowReader} {part : FieldPart} :
    reader.takeChunk part = (.ok chunk, after) ↔
      chunk.length < lengthLimit ∧
        reader.rest = (Bytes.littleEndian lengthWidth chunk.length ++ chunk) ++ after.rest ∧
        after.offset = reader.offset + lengthWidth + chunk.length := by
  constructor
  · intro taken
    cases lengthSplit : Bytes.split? lengthWidth reader.rest with
    | none => simp [takeChunk, lengthSplit] at taken
    | some lengthFound =>
        obtain ⟨lengthField, behind⟩ := lengthFound
        cases chunkSplit : Bytes.split? (Bytes.ofLittleEndian lengthField) behind with
        | none => simp [takeChunk, lengthSplit, chunkSplit] at taken
        | some chunkFound =>
            obtain ⟨body, rest⟩ := chunkFound
            simp only [takeChunk, lengthSplit, chunkSplit, Prod.mk.injEq, Except.ok.injEq] at taken
            obtain ⟨rfl, rfl⟩ := taken
            obtain ⟨whole, width⟩ := Bytes.split?_eq_some_iff.mp lengthSplit
            obtain ⟨content, length⟩ := Bytes.split?_eq_some_iff.mp chunkSplit
            have bound := Bytes.ofLittleEndian_lt lengthField
            have restored := Bytes.littleEndian_ofLittleEndian lengthField
            rw [width] at bound restored
            refine ⟨by rwa [length], ?_, by rw [length]⟩
            rw [whole, content, length, restored, List.append_assoc]
  · rintro ⟨fits, content, position⟩
    have taken := takeChunk_append fits after.rest reader.offset part
    rwa [← content, ← position] at taken

theorem next_eq_some_iff {reader after : RowReader} :
    reader.next = (.ok (some field), after) ↔
      field.Fits ∧ reader.rest = field.bytes ++ after.rest ∧
        after.offset = reader.offset + field.encodedSize := by
  constructor
  · intro read
    unfold next at read
    split at read
    · simp at read
    · split at read
      · simp at read
      · rename_i name middle nameTaken
        split at read
        · simp at read
        · rename_i value last valueTaken
          simp only [Prod.mk.injEq, Except.ok.injEq, Option.some.injEq] at read
          obtain ⟨rfl, rfl⟩ := read
          obtain ⟨nameFits, nameContent, nameEnd⟩ := takeChunk_eq_ok_iff.mp nameTaken
          obtain ⟨valueFits, valueContent, valueEnd⟩ := takeChunk_eq_ok_iff.mp valueTaken
          refine ⟨⟨nameFits, valueFits⟩, ?_, ?_⟩
          · simp only [nameContent, valueContent, Field.bytes, List.append_assoc]
          · simp only [valueEnd, nameEnd, Field.encodedSize]
            omega
  · rintro ⟨fits, content, position⟩
    have read := next_append fits after.rest reader.offset
    rwa [← content, ← position] at read

theorem next_eq_none_iff {reader : RowReader} : reader.next.1 = .ok none ↔ reader.rest = [] := by
  constructor
  · intro read
    unfold next at read
    split at read
    · rename_i empty
      exact List.isEmpty_iff.mp empty
    · split at read
      · simp at read
      · split at read <;> simp at read
  · intro empty
    simp [next, isEmpty, empty]

theorem fieldsAfter_of_field {reader after : RowReader}
    (read : reader.next = (.ok (some field), after)) (earlier : Row) :
    reader.fieldsAfter earlier = after.fieldsAfter (field :: earlier) := by
  rw [fieldsAfter]
  split <;> simp_all

theorem fieldsAfter_of_end {reader : RowReader} (atEnd : reader.rest = []) (earlier : Row) :
    reader.fieldsAfter earlier = (earlier.reverse, none) := by
  have read := next_eq_none_iff.mpr atEnd
  rw [fieldsAfter]
  split <;> simp_all

theorem fieldsAfter_of_fault {reader : RowReader} {fault : RowFault}
    (read : reader.next.1 = .error fault) (earlier : Row) :
    reader.fieldsAfter earlier = (earlier.reverse, some fault) := by
  rw [fieldsAfter]
  split <;> simp_all

/-- Reading passes over the fields of a row, whatever follows them. -/
theorem fieldsAfter_append (fits : row.Fits) (earlier : Row) (rest : Bytes) (offset : Nat) :
    RowReader.fieldsAfter earlier { rest := row.bytes ++ rest, offset } =
      RowReader.fieldsAfter (row.reverse ++ earlier)
        { rest, offset := offset + row.encodedSize } := by
  induction row generalizing earlier offset with
  | nil => rfl
  | cons field later ih =>
      obtain ⟨fieldFits, laterFits⟩ := List.forall_mem_cons.mp fits
      have read := next_append fieldFits (Row.bytes later ++ rest) offset
      rw [Row.bytes_cons, List.append_assoc, fieldsAfter_of_field read, ih laterFits,
        Row.encodedSize_cons, Nat.add_assoc, List.reverse_cons, List.append_assoc,
        List.singleton_append]

end RowReader

/-- The bytes of a field show where the field ends. -/
theorem Field.bytes_append_inj {other : Field} {rest more : Bytes} (fits : field.Fits)
    (otherFits : other.Fits) (same : field.bytes ++ rest = other.bytes ++ more) :
    field = other ∧ rest = more := by
  have read := RowReader.next_append fits rest 0
  have otherRead := RowReader.next_append otherFits more 0
  rw [same, otherRead] at read
  simp only [Prod.mk.injEq, Except.ok.injEq, Option.some.injEq, RowReader.mk.injEq] at read
  exact ⟨read.1.symm, read.2.1.symm⟩

theorem Row.decode_bytes (fits : row.Fits) : Row.decode row.bytes = .ok row := by
  have read := (RowReader.fieldsAfter_append fits [] [] 0).trans
    (RowReader.fieldsAfter_of_end rfl _)
  rw [List.append_nil, List.append_nil, List.reverse_reverse] at read
  simp only [Row.decode, RowReader.fields, RowReader.ofBytes, read]

end RowStore
