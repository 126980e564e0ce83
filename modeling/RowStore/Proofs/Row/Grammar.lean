import RowStore.Proofs.Row.Codec

namespace RowStore

variable {bytes rest : Bytes} {row other : Row} {field : Field}

namespace Row

/-- The longest row whose stored form the bytes begin with, and the bytes behind it. -/
structure LegibleFields (bytes : Bytes) (row : Row) (rest : Bytes) : Prop where
  content : bytes = row.bytes ++ rest
  fits : row.Fits
  longest : ∀ other : Row, other.Fits → other.bytes <+: bytes → other <+: row

namespace LegibleFields

theorem stuck (legible : LegibleFields bytes row rest) (more : Bytes) (fits : field.Fits) :
    rest ≠ field.bytes ++ more := by
  intro goesOn
  have begins : Row.bytes (row ++ [field]) <+: bytes := by
    refine ⟨more, ?_⟩
    rw [legible.content, goesOn, Row.bytes, Row.bytes, List.flatMap_append]
    simp
  have allFit : Row.Fits (row ++ [field]) := by
    intro one member
    rcases List.mem_append.mp member with earlier | last
    · exact legible.fits one earlier
    · rwa [List.mem_singleton.mp last]
  have shorter := (legible.longest _ allFit begins).length_le
  rw [List.length_append, List.length_singleton] at shorter
  omega

theorem none (stuck : ∀ (field : Field) (more : Bytes), field.Fits → bytes ≠ field.bytes ++ more) :
    LegibleFields bytes [] bytes where
  content := rfl
  fits := List.forall_mem_nil _
  longest other fits begins := by
    cases other with
    | nil => exact List.nil_prefix
    | cons field later =>
        obtain ⟨more, whole⟩ := begins
        rw [bytes_cons, List.append_assoc] at whole
        exact absurd whole.symm (stuck field _ (fits field List.mem_cons_self))

theorem nil : LegibleFields [] [] [] := by
  apply none
  intro field more _ whole
  have width := congrArg List.length whole
  simp only [List.length_nil, List.length_append, field.length_bytes, Field.encodedSize,
    lengthWidth] at width
  omega

theorem cons (fits : field.Fits) (legible : LegibleFields bytes row rest) :
    LegibleFields (field.bytes ++ bytes) (field :: row) rest where
  content := by rw [legible.content, bytes_cons, List.append_assoc]
  fits := List.forall_mem_cons.mpr ⟨fits, legible.fits⟩
  longest other otherFits begins := by
    cases other with
    | nil => exact List.nil_prefix
    | cons first later =>
        obtain ⟨firstFits, laterFits⟩ := List.forall_mem_cons.mp otherFits
        obtain ⟨more, whole⟩ := begins
        rw [bytes_cons, List.append_assoc] at whole
        obtain ⟨rfl, same⟩ := Field.bytes_append_inj firstFits fits whole
        exact List.cons_prefix_cons.mpr ⟨rfl, legible.longest later laterFits ⟨more, same⟩⟩

/-- The reader stops behind the legible fields: at the end of the bytes or with a fault. -/
theorem next_cases (legible : LegibleFields bytes row rest) (offset : Nat) :
    rest = [] ∨ ∃ fault, (RowReader.next { rest, offset }).1 = .error fault := by
  rcases read : RowReader.next { rest, offset } with ⟨step, after⟩
  cases step with
  | error fault => exact Or.inr ⟨fault, rfl⟩
  | ok found =>
      cases found with
      | none => exact Or.inl (RowReader.next_eq_none_iff.mp (congrArg Prod.fst read))
      | some field =>
          obtain ⟨fits, content, _⟩ := RowReader.next_eq_some_iff.mp read
          exact absurd content (legible.stuck after.rest fits)

theorem decode_clean (legible : LegibleFields bytes row []) : decode bytes = .ok row := by
  rw [legible.content, List.append_nil]
  exact decode_bytes legible.fits

theorem decode_malformed {fault : RowFault} (legible : LegibleFields bytes row rest)
    (read : (RowReader.next { rest, offset := row.encodedSize }).1 = .error fault) :
    decode bytes = .error (.malformedRow fault) := by
  have passed := RowReader.fieldsAfter_append legible.fits [] rest 0
  rw [Nat.zero_add, RowReader.fieldsAfter_of_fault read, ← legible.content] at passed
  simp only [decode, RowReader.fields, RowReader.ofBytes, passed]

end LegibleFields

theorem exists_legibleFields (bytes : Bytes) : ∃ row rest, LegibleFields bytes row rest := by
  -- Along the reader: it goes on by one field as long as there is one.
  suffices read : ∀ (earlier : Row) (reader : RowReader),
      ∃ row rest, LegibleFields reader.rest row rest by
    exact read [] (RowReader.ofBytes bytes)
  intro earlier reader
  induction earlier, reader using RowReader.fieldsAfter.induct with
  | case1 earlier reader field after read ih =>
      obtain ⟨row, rest, legible⟩ := ih
      obtain ⟨fits, content, _⟩ := RowReader.next_eq_some_iff.mp read
      exact ⟨field :: row, rest, content ▸ legible.cons fits⟩
  | case2 earlier reader after read =>
      have atEnd := RowReader.next_eq_none_iff.mp (congrArg Prod.fst read)
      exact ⟨[], [], atEnd ▸ LegibleFields.nil⟩
  | case3 earlier reader after fault read =>
      refine ⟨[], reader.rest, LegibleFields.none fun field more fits whole => ?_⟩
      have found := RowReader.next_append fits more reader.offset
      rw [← whole, read] at found
      cases found

theorem decode_of_encode {stored : Bytes} (encoded : row.encode = .ok stored) :
    decode stored = .ok row := by
  obtain ⟨fits, rfl⟩ := encode_eq_ok_iff.mp encoded
  exact decode_bytes fits

theorem decode_cases (bytes : Bytes) :
    (∃ row : Row, decode bytes = .ok row ∧ row.encode = .ok bytes) ∨
      ∃ fault, decode bytes = .error (.malformedRow fault) := by
  obtain ⟨row, rest, legible⟩ := exists_legibleFields bytes
  rcases legible.next_cases row.encodedSize with rfl | ⟨fault, stops⟩
  · have whole : bytes = row.bytes := by rw [legible.content, List.append_nil]
    exact Or.inl ⟨row, legible.decode_clean, encode_eq_ok_iff.mpr ⟨legible.fits, whole⟩⟩
  · exact Or.inr ⟨fault, legible.decode_malformed stops⟩

/-- Decoding inverts encoding in both directions, and refuses all other bytes as malformed. A row can
be encoded if its names and values are shorter than two to the thirty-second bytes. -/
theorem decode_inverts_encode (bytes : Bytes) (row : Row) :
    (decode bytes = .ok row ↔
      (∀ field ∈ row, field.name.length < 4294967296 ∧ field.value.length < 4294967296) ∧
        row.encode = .ok bytes) ∧
    ((∀ other : Row, other.encode ≠ .ok bytes) →
      ∃ fault, decode bytes = .error (.malformedRow fault)) ∧
    ((∀ field ∈ row, field.name.length < 4294967296 ∧ field.value.length < 4294967296) →
      row.encode = .ok row.bytes ∧ row.bytes.length = row.encodedSize ∧
        ∀ buffer, row.encodeInto buffer = (.ok (), buffer ++ row.bytes)) ∧
    ∀ (other : Row) (stored : Bytes), row.encode = .ok stored → other.encode = .ok stored →
      row = other := by
  refine ⟨⟨fun read => ?_, fun stored => decode_of_encode stored.2⟩, fun unstored => ?_,
    fun fits => ?_, fun other stored encoded otherEncoded => ?_⟩
  · rcases decode_cases bytes with ⟨found, decoded, encoded⟩ | ⟨fault, malformed⟩
    · rw [decoded] at read
      cases read
      exact ⟨(encode_eq_ok_iff.mp encoded).1, encoded⟩
    · rw [malformed] at read
      cases read
  · rcases decode_cases bytes with ⟨found, _, encoded⟩ | malformed
    · exact absurd encoded (unstored found)
    · exact malformed
  · have encoded : row.encode = .ok row.bytes := encode_eq_ok_iff.mpr ⟨fits, rfl⟩
    exact ⟨encoded, row.length_bytes, encodeInto_append fits⟩
  · have same := (decode_of_encode encoded).symm.trans (decode_of_encode otherEncoded)
    cases same
    rfl

end Row

end RowStore
