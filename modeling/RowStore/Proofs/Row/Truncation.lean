import RowStore.Proofs.Row.Grammar

namespace RowStore

variable {bytes rest : Bytes} {row whole front : Row} {size : Nat}

namespace RowReader

/-- What a reader has not consumed is what stands behind its position. -/
structure StandsIn (reader : RowReader) (bytes : Bytes) : Prop where
  rest : reader.rest = bytes.drop reader.offset
  within : reader.offset ≤ bytes.length

variable {reader : RowReader}

theorem standsIn_ofBytes (bytes : Bytes) : (ofBytes bytes).StandsIn bytes where
  rest := rfl
  within := Nat.zero_le _

namespace StandsIn

theorem offset_add_remaining (stands : reader.StandsIn bytes) :
    reader.offset + reader.remaining = bytes.length := by
  have within := stands.within
  rw [remaining, stands.rest, List.length_drop]
  omega

theorem consume {taken : Bytes} (stands : reader.StandsIn bytes)
    (content : reader.rest = taken ++ rest) :
    StandsIn { rest, offset := reader.offset + taken.length } bytes where
  rest := by
    rw [← List.drop_drop, ← stands.rest, content, List.drop_left]
  within := by
    have left := stands.offset_add_remaining
    rw [remaining, content, List.length_append] at left
    change reader.offset + taken.length ≤ bytes.length
    omega

end StandsIn

end RowReader

namespace RowFault

/-- A fault that is true of the reader it leaves: at its position there is no length any more, or
there are fewer bytes than the length in front of it. -/
inductive IsAt (bytes : Bytes) (reader : RowReader) : RowFault → Prop
  | truncatedLength (part : FieldPart) (short : reader.remaining < lengthWidth) :
      IsAt bytes reader (.truncatedLength part reader.offset reader.remaining)
  | overrun (part : FieldPart) (earlier lengthField : Bytes)
      (content : bytes = earlier ++ lengthField ++ reader.rest)
      (width : lengthField.length = lengthWidth)
      (short : reader.remaining < Bytes.ofLittleEndian lengthField) :
      IsAt bytes reader
        (.overrun part (Bytes.ofLittleEndian lengthField) reader.offset reader.remaining)

/-- The messages that give a position and how many bytes are left there. -/
def MessageAt (position left : Nat) (message : String) : Prop :=
  ∃ part : FieldPart,
    message = s!"truncated {part.label} length at offset {position}: {left} bytes left" ∨
    ∃ length : Nat, message =
      s!"{part.label} of {length} bytes at offset {position} overruns buffer ({left} bytes left)"

theorem IsAt.message {fault : RowFault} {reader : RowReader} (isAt : fault.IsAt bytes reader) :
    MessageAt reader.offset reader.remaining fault.message := by
  cases isAt with
  | truncatedLength part short => exact ⟨part, Or.inl rfl⟩
  | overrun part earlier lengthField content width short => exact ⟨part, Or.inr ⟨_, rfl⟩⟩

end RowFault

namespace RowReader

/-- A step that leaves the reader where it says, and no further back, whether it fails or not. -/
structure GoesOn {Answer : Type} (bytes : Bytes) (reader : RowReader)
    (step : Except RowFault Answer × RowReader) : Prop where
  stands : step.2.StandsIn bytes
  remaining_le : step.2.remaining ≤ reader.remaining
  fault : ∀ fault, step.1 = .error fault → fault.IsAt bytes step.2

namespace GoesOn

variable {Answer Other : Type} {reader after : RowReader} {step : Except RowFault Other × RowReader}

theorem trans {result : Except RowFault Answer} (first : GoesOn bytes reader (result, after))
    (second : GoesOn bytes after step) : GoesOn bytes reader step where
  stands := second.stands
  remaining_le := Nat.le_trans second.remaining_le first.remaining_le
  fault := second.fault

/-- What fails with the fault of a step, and leaves the reader there, goes on as that does. -/
theorem passOn {fault : RowFault}
    (failed : GoesOn bytes reader ((.error fault : Except RowFault Answer), after)) :
    GoesOn bytes reader ((.error fault : Except RowFault Other), after) where
  stands := failed.stands
  remaining_le := failed.remaining_le
  fault _ same := by
    cases same
    exact failed.fault fault rfl

end GoesOn

variable {reader : RowReader}

theorem takeChunk_goesOn (stands : reader.StandsIn bytes) (part : FieldPart) :
    GoesOn bytes reader (reader.takeChunk part) := by
  cases lengthSplit : Bytes.split? lengthWidth reader.rest with
  | none =>
      have short := Bytes.split?_eq_none_iff.mp lengthSplit
      rw [takeChunk, lengthSplit]
      constructor
      · exact stands
      · exact Nat.le_refl _
      · intro fault failed
        cases failed
        exact .truncatedLength part short
  | some lengthFound =>
      obtain ⟨lengthField, behind⟩ := lengthFound
      obtain ⟨content, width⟩ := Bytes.split?_eq_some_iff.mp lengthSplit
      have passed := stands.consume content
      have fewer := congrArg List.length content
      rw [width] at passed
      rw [List.length_append] at fewer
      cases chunkSplit : Bytes.split? (Bytes.ofLittleEndian lengthField) behind with
      | none =>
          have short := Bytes.split?_eq_none_iff.mp chunkSplit
          simp only [takeChunk, lengthSplit, chunkSplit]
          constructor
          · exact passed
          · change behind.length ≤ reader.rest.length
            omega
          · intro fault failed
            cases failed
            have whole : bytes = bytes.take reader.offset ++ lengthField ++ behind := by
              rw [List.append_assoc, ← content, stands.rest, List.take_append_drop]
            exact .overrun part _ lengthField whole width short
      | some chunkFound =>
          obtain ⟨chunk, rest⟩ := chunkFound
          obtain ⟨inner, length⟩ := Bytes.split?_eq_some_iff.mp chunkSplit
          have left := congrArg List.length inner
          rw [List.length_append] at left
          simp only [takeChunk, lengthSplit, chunkSplit]
          constructor
          · rw [← length]
            exact passed.consume inner
          · change rest.length ≤ reader.rest.length
            omega
          · intro fault failed
            cases failed

theorem next_goesOn (stands : reader.StandsIn bytes) : GoesOn bytes reader reader.next := by
  unfold next
  split
  · exact ⟨stands, Nat.le_refl _, nofun⟩
  · have name := takeChunk_goesOn stands .name
    split
    · rename_i fault after taken
      rw [taken] at name
      exact name.passOn
    · rename_i chunk middle taken
      rw [taken] at name
      have both := name.trans (takeChunk_goesOn name.stands .value)
      split
      · rename_i fault after valueTaken
        rw [valueTaken] at both
        exact both.passOn
      · rename_i content after valueTaken
        rw [valueTaken] at both
        exact ⟨both.stands, both.remaining_le, nofun⟩

section

variable (ask : RowReader → Except RowFault (Option Field) × RowReader)

/-- The reader after it has been asked a number of times, whatever it answered. -/
def afterCalls : Nat → RowReader → RowReader
  | 0, reader => reader
  | count + 1, reader => afterCalls count (ask reader).2

/-- What the reader answers after it has been asked a number of times before. -/
def answerAt (place : Nat) (reader : RowReader) : Except RowFault (Option Field) :=
  (ask (afterCalls ask place reader)).1

theorem afterCalls_add (first second : Nat) (reader : RowReader) :
    afterCalls ask (first + second) reader =
      afterCalls ask second (afterCalls ask first reader) := by
  induction first generalizing reader with
  | zero => rw [Nat.zero_add, afterCalls]
  | succ first ih => rw [Nat.succ_add, afterCalls, ih, afterCalls]

end

/-- However often it has been asked, a reader knows where it stands. -/
theorem afterCalls_goesOn (stands : reader.StandsIn bytes) (count : Nat) :
    (afterCalls next count reader).StandsIn bytes ∧
      (afterCalls next count reader).remaining ≤ reader.remaining := by
  induction count generalizing reader with
  | zero => exact ⟨stands, Nat.le_refl _⟩
  | succ count ih =>
      have step := next_goesOn stands
      have later := ih step.stands
      exact ⟨later.1, Nat.le_trans later.2 step.remaining_le⟩

theorem nextUntilFault_of_end (ended : reader.rest = []) :
    reader.nextUntilFault = (.ok none, reader) := by
  have empty : reader.isEmpty = true := List.isEmpty_iff.mpr ended
  rw [nextUntilFault, next, if_pos empty]

theorem answerAt_of_end (ended : reader.rest = []) (place : Nat) :
    answerAt nextUntilFault place reader = .ok none := by
  induction place with
  | zero => exact congrArg Prod.fst (nextUntilFault_of_end ended)
  | succ place ih =>
      rw [answerAt, afterCalls, nextUntilFault_of_end ended]
      exact ih

theorem nextUntilFault_of_fault {fault : RowFault} (failed : reader.next.1 = .error fault) :
    reader.nextUntilFault.1 = .error fault ∧ reader.nextUntilFault.2.rest = [] := by
  rcases step : reader.next with ⟨result, after⟩
  rw [step] at failed
  subst failed
  rw [nextUntilFault, step]
  exact ⟨rfl, rfl⟩

theorem nextUntilFault_append {field : Field} (fits : field.Fits) (rest : Bytes) (offset : Nat) :
    nextUntilFault { rest := field.bytes ++ rest, offset } =
      (.ok (some field), { rest, offset := offset + field.encodedSize }) := by
  rw [nextUntilFault, next_append fits]

end RowReader

namespace Row

/-- The first fields of a row, as many as end within a number of bytes. -/
structure EndsWithin (row whole : Row) (size : Nat) : Prop where
  begins : whole <+: row
  within_iff : ∀ front : Row, front <+: row → (front.encodedSize ≤ size ↔ front <+: whole)

theorem bytes_append (front back : Row) :
    Row.bytes (front ++ back) = Row.bytes front ++ Row.bytes back :=
  List.flatMap_append

theorem bytes_begin (begins : front <+: row) : front.bytes <+: row.bytes := by
  obtain ⟨back, rfl⟩ := begins
  exact ⟨Row.bytes back, (bytes_append front back).symm⟩

theorem encodedSize_le (begins : front <+: row) : front.encodedSize ≤ row.encodedSize := by
  rw [← length_bytes, ← length_bytes]
  exact (bytes_begin begins).length_le

namespace EndsWithin

theorem size_le (ends : EndsWithin row whole size) : whole.encodedSize ≤ size :=
  (ends.within_iff whole ends.begins).mpr (List.prefix_refl whole)

/-- The cut is between two fields if nothing is left behind the whole ones. -/
theorem boundary_iff (ends : EndsWithin row whole size) :
    (∃ front : Row, front <+: row ∧ front.encodedSize = size) ↔ whole.encodedSize = size := by
  constructor
  · rintro ⟨front, begins, rfl⟩
    have within := (ends.within_iff front begins).mp (Nat.le_refl _)
    exact Nat.le_antisymm ends.size_le (encodedSize_le within)
  · intro same
    exact ⟨whole, ends.begins, same⟩

end EndsWithin

theorem legibleFields_bytes (fits : row.Fits) : LegibleFields row.bytes row [] := by
  induction row with
  | nil => exact LegibleFields.nil
  | cons field later ih =>
      obtain ⟨fieldFits, laterFits⟩ := List.forall_mem_cons.mp fits
      exact (ih laterFits).cons fieldFits

/-- The legible fields of the first bytes of a row are its fields that end within them. -/
theorem LegibleFields.endsWithin (fits : row.Fits)
    (legible : LegibleFields (row.bytes.take size) whole rest) : EndsWithin row whole size where
  begins := by
    have taken : whole.bytes <+: row.bytes.take size := ⟨rest, legible.content.symm⟩
    exact (legibleFields_bytes fits).longest whole legible.fits
      (taken.trans (List.take_prefix size row.bytes))
  within_iff front begins := by
    constructor
    · intro within
      have frontFits : front.Fits := fun field member => fits field (begins.subset member)
      rw [← length_bytes] at within
      exact legible.longest front frontFits
        (List.prefix_take_iff.mpr ⟨bytes_begin begins, within⟩)
    · intro within
      have length := congrArg List.length legible.content
      rw [List.length_take, List.length_append, length_bytes, length_bytes] at length
      have shorter := encodedSize_le within
      omega

end Row

namespace RowReader

variable {reader : RowReader}

/-- Asked until a fault, the reader gives some fields, then a fault if there is one, and nothing
however often it is asked after that. -/
structure Yields (reader : RowReader) (fields : Row) (fault? : Option RowFault) : Prop where
  field : ∀ place field, fields[place]? = some field →
    answerAt nextUntilFault place reader = .ok (some field)
  fault : ∀ fault, fault? = some fault →
    answerAt nextUntilFault fields.length reader = .error fault
  nothing : ∀ place, fields.length + fault?.toList.length ≤ place →
    answerAt nextUntilFault place reader = .ok none

theorem yields_end : Yields { rest := [], offset := size } [] none where
  field := by simp
  fault := nofun
  nothing place _ := answerAt_of_end rfl place

theorem yields_fault {fault : RowFault} (failed : reader.next.1 = .error fault) :
    reader.Yields [] (some fault) where
  field := by simp
  fault _ same := by
    cases same
    exact (nextUntilFault_of_fault failed).1
  nothing place beyond := by
    obtain ⟨more, rfl⟩ := Nat.exists_eq_add_of_le' beyond
    exact answerAt_of_end (nextUntilFault_of_fault failed).2 more

/-- A field in front of the bytes is given first, and all else after it. -/
theorem Yields.cons {field : Field} {fields : Row} {fault? : Option RowFault} {offset : Nat}
    (fits : field.Fits)
    (yields : Yields { rest, offset := offset + field.encodedSize } fields fault?) :
    Yields { rest := field.bytes ++ rest, offset } (field :: fields) fault? := by
  have read := nextUntilFault_append fits rest offset
  have later : ∀ place, answerAt nextUntilFault (place + 1)
      { rest := field.bytes ++ rest, offset } =
        answerAt nextUntilFault place { rest, offset := offset + field.encodedSize } := by
    intro place
    rw [answerAt, afterCalls, read]
    rfl
  constructor
  · intro place found present
    cases place with
    | zero =>
        cases present
        exact congrArg Prod.fst read
    | succ place => exact (later place).trans (yields.field place found present)
  · intro fault same
    exact (later fields.length).trans (yields.fault fault same)
  · intro place beyond
    rw [List.length_cons] at beyond
    obtain ⟨place, rfl⟩ : ∃ before, place = before + 1 := ⟨place - 1, by omega⟩
    exact (later place).trans (yields.nothing place (by omega))

theorem Yields.append {fault? : Option RowFault} {offset : Nat} (fits : row.Fits)
    (yields : Yields { rest, offset := offset + row.encodedSize } [] fault?) :
    Yields { rest := row.bytes ++ rest, offset } row fault? := by
  induction row generalizing offset with
  | nil => exact yields
  | cons field later ih =>
      obtain ⟨fieldFits, laterFits⟩ := List.forall_mem_cons.mp fits
      rw [Row.encodedSize_cons, ← Nat.add_assoc] at yields
      rw [Row.bytes_cons, List.append_assoc]
      exact (ih laterFits yields).cons fieldFits

/-- Of the first bytes of a row, the fields that end within them, and a fault unless they end with
one. -/
theorem exists_yields_take (fits : row.Fits) (cut : size ≤ row.encodedSize) :
    ∃ whole fault?, Row.EndsWithin row whole size ∧
      (ofBytes (row.bytes.take size)).Yields whole fault? ∧
      (fault? = none ↔ whole.encodedSize = size) := by
  obtain ⟨whole, rest, legible⟩ := Row.exists_legibleFields (row.bytes.take size)
  have length := congrArg List.length legible.content
  rw [List.length_take, List.length_append, Row.length_bytes, Row.length_bytes] at length
  have ends := legible.endsWithin fits
  rcases legible.next_cases (0 + whole.encodedSize) with rfl | ⟨fault, failed⟩
  · refine ⟨whole, none, ends, ?_, iff_of_true rfl ?_⟩
    · rw [legible.content]
      exact yields_end.append legible.fits
    · rw [List.length_nil] at length
      omega
  · refine ⟨whole, some fault, ends, ?_, iff_of_false nofun ?_⟩
    · rw [legible.content]
      exact (yields_fault failed).append legible.fits
    · intro same
      have ended : rest = [] := List.eq_nil_of_length_eq_zero (by omega)
      subst ended
      rw [next_eq_none_iff.mpr rfl] at failed
      cases failed

/-- Reading until a fault, of any number of the first bytes of a row, gives the fields that end
within them; then one fault unless the bytes end with a field; and nothing after that. A reader that
is asked on, over any bytes and whatever it has answered, keeps account of all of them, has never
more of them left than before, and fails with a fault that is true of where it stands. -/
theorem reads_cut_rows_and_goes_on :
    (∀ row : Row,
      (∀ field ∈ row, field.name.length < 4294967296 ∧ field.value.length < 4294967296) →
      ∃ stored, row.encode = .ok stored ∧ ∀ size, size ≤ stored.length →
        ∃ whole fault?, Row.EndsWithin row whole size ∧
          (ofBytes (stored.take size)).Yields whole fault? ∧
          (fault? = none ↔ ∃ front : Row, front <+: row ∧ front.encodedSize = size)) ∧
    ∀ (bytes : Bytes) (count : Nat),
      let reader := afterCalls next count (ofBytes bytes)
      reader.offset + reader.remaining = bytes.length ∧
        reader.rest = bytes.drop reader.offset ∧
        (∀ more, (afterCalls next (count + more) (ofBytes bytes)).remaining ≤ reader.remaining) ∧
        ∀ fault, reader.next.1 = .error fault →
          fault.IsAt bytes reader.next.2 ∧
          RowFault.MessageAt reader.next.2.offset reader.next.2.remaining fault.message := by
  constructor
  · intro row fits
    refine ⟨row.bytes, Row.encode_eq_ok_iff.mpr ⟨fits, rfl⟩, fun size cut => ?_⟩
    rw [row.length_bytes] at cut
    obtain ⟨whole, fault?, ends, yields, clean⟩ := exists_yields_take fits cut
    exact ⟨whole, fault?, ends, yields, clean.trans ends.boundary_iff.symm⟩
  · intro bytes count reader
    have stands : reader.StandsIn bytes := (afterCalls_goesOn (standsIn_ofBytes bytes) count).1
    refine ⟨stands.offset_add_remaining, stands.rest, fun more => ?_, fun fault failed => ?_⟩
    · rw [afterCalls_add]
      exact (afterCalls_goesOn stands more).2
    · have isAt := (next_goesOn stands).fault fault failed
      exact ⟨isAt, isAt.message⟩

def unevenRow : Row := [{ name := [1], value := [2, 3] }, { name := [], value := [4] }]

/-- Cut at the end of its first field, and behind the empty name of its second; and a reader that
fails once more when it goes on behind its first fault. -/
theorem reads_cut_rows_and_goes_on_uneven :
    ∃ stored, unevenRow.encode = .ok stored ∧
      (∃ whole, Row.EndsWithin unevenRow whole 11 ∧ (ofBytes (stored.take 11)).Yields whole none) ∧
      (∃ whole fault, Row.EndsWithin unevenRow whole 15 ∧
        (ofBytes (stored.take 15)).Yields whole (some fault)) ∧
      (afterCalls next 1 (ofBytes [9, 0, 0, 0, 1, 2])).next.1 =
        .error (.truncatedLength .name 4 2) ∧
      RowFault.IsAt [9, 0, 0, 0, 1, 2] (afterCalls next 2 (ofBytes [9, 0, 0, 0, 1, 2]))
        (.truncatedLength .name 4 2) := by
  obtain ⟨cutRows, goesOn⟩ := reads_cut_rows_and_goes_on
  have fits : ∀ field ∈ unevenRow,
      field.name.length < 4294967296 ∧ field.value.length < 4294967296 := by decide
  obtain ⟨stored, encoded, cuts⟩ := cutRows unevenRow fits
  have width : stored.length = 20 := by
    rw [(Row.encode_eq_ok_iff.mp encoded).2]
    decide
  have boundary : ∃ front : Row, front <+: unevenRow ∧ front.encodedSize = 11 :=
    ⟨unevenRow.take 1, List.take_prefix 1 unevenRow, by decide⟩
  have inside : ¬ ∃ front : Row, front <+: unevenRow ∧ front.encodedSize = 15 := by
    rintro ⟨front, begins, size⟩
    obtain ⟨count, rfl⟩ : ∃ count, front = unevenRow.take count :=
      ⟨front.length, List.prefix_iff_eq_take.mp begins⟩
    match count with
    | 0 | 1 => cases size
    | count + 2 =>
        rw [List.take_of_length_le (by simp [unevenRow])] at size
        cases size
  obtain ⟨whole, fault?, ends, yields, clean⟩ := cuts 11 (by omega)
  obtain ⟨other, otherFault?, otherEnds, otherYields, otherClean⟩ := cuts 15 (by omega)
  have failed : (afterCalls next 1 (ofBytes [9, 0, 0, 0, 1, 2])).next.1 =
      .error (.truncatedLength .name 4 2) := rfl
  refine ⟨stored, encoded, ⟨whole, ends, ?_⟩, ?_, failed, ?_⟩
  · rwa [clean.mpr boundary] at yields
  · cases otherFault? with
    | none => exact absurd (otherClean.mp rfl) inside
    | some fault => exact ⟨other, fault, otherEnds, otherYields⟩
  · exact ((goesOn [9, 0, 0, 0, 1, 2] 1).2.2.2 _ failed).1

end RowReader

end RowStore
