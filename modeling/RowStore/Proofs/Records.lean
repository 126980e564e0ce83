import RowStore.Proofs.Row.Codec
import RowStore.Proofs.Table.Directory
import RowStore.Proofs.Text.Utf8
import RowStore.Records

namespace RowStore.Records

variable {key : String} {row : Row} {rows : List (String × Row)} {table : Table}

/-- The log can frame the entry of the row. -/
def Storable (key : String) (row : Row) : Prop :=
  32 + ((Utf8.encode key).length + row.encodedSize) < Bytes.fieldRange 4

instance : Decidable (Storable key row) :=
  inferInstanceAs (Decidable (_ < _))

def write (key : String) (row : Row) (timestamp : UInt64) : Write where
  key := Utf8.encode key
  value := row.bytes
  timestamp

theorem write_fits_iff {timestamp : UInt64} :
    (write key row timestamp).Fits ↔ Storable key row := by
  rw [Write.fits_iff, Write.weight, write, row.length_bytes, Storable]

theorem Storable.fits (storable : Storable key row) : row.Fits := by
  apply Row.fits_of_encodedSize_lt
  have bound : 32 + ((Utf8.encode key).length + row.encodedSize) < lengthLimit := storable
  omega

/-- The row stored last under a key. -/
def latest (rows : List (String × Row)) (key : String) : Option Row :=
  (rows.reverse.find? (·.1 = key)).map Prod.snd

def stored (pair : String × Row) : Bytes × Bytes :=
  (Utf8.encode pair.1, pair.2.bytes)

theorem lastValue_stored (rows : List (String × Row)) (key : String) :
    lastValue (rows.map stored) (Utf8.encode key) = (latest rows key).map Row.bytes := by
  have sameKey : (fun pair : Bytes × Bytes => decide (pair.1 = Utf8.encode key)) ∘ stored =
      fun pair => decide (pair.1 = key) := by
    funext pair
    simp only [Function.comp_apply, stored, Utf8.encode_eq_encode_iff]
  rw [lastValue, latest, ← List.map_reverse, List.find?_map, sameKey, Option.map_map,
    Option.map_map]
  rfl

theorem mem_of_latest (found : latest rows key = some row) : (key, row) ∈ rows := by
  rw [latest, Option.map_eq_some_iff] at found
  obtain ⟨⟨other, last⟩, located, same⟩ := found
  have sameKey : other = key := by simpa using List.find?_some located
  subst sameKey
  subst same
  exact List.mem_reverse.mp (List.mem_of_find?_eq_some located)

/-- What reading a row in full comes to when it has to have so many fields. -/
def inFull (fieldCount : Nat) : Option Row → Except Fault (Option Row)
  | none => .ok none
  | some row =>
      if row.length = fieldCount then .ok (some row) else .error (.fieldCount fieldCount row.length)

theorem read_eq_inFull (holds : ∀ key, table.find? key = lastValue (rows.map stored) key)
    (storable : ∀ pair ∈ rows, Storable pair.1 pair.2) (fieldCount : Nat) (key : String) :
    read fieldCount table key none = inFull fieldCount (latest rows key) := by
  rw [read, holds, lastValue_stored]
  cases found : latest rows key with
  | none => rfl
  | some row =>
      have fits : row.Fits := (storable (key, row) (mem_of_latest found)).fits
      simp only [Option.map_some, decode, Row.decode_bytes fits, inFull]
      split <;> rfl

theorem insert_eq_put (storable : Storable key row) (timestamp : UInt64) :
    insert table key row timestamp = table.put (Utf8.encode key) row.bytes timestamp := by
  have encoded : row.encode = .ok row.bytes := Row.encode_eq_ok_iff.mpr ⟨storable.fits, rfl⟩
  simp only [insert, encoded]

/-- A row that cannot be stored leaves everything as it is. -/
theorem insert_refused (table : Table) (unstorable : ¬ Storable key row) (timestamp : UInt64)
    (files : FileSystem) :
    ∃ fault, (insert table key row timestamp).perform files = (.error fault, files) := by
  cases encoded : row.encode with
  | error fault =>
      refine ⟨fault, ?_⟩
      simp only [insert, encoded, Disk.perform_fail]
  | ok bytes =>
      obtain ⟨_, rfl⟩ := Row.encode_eq_ok_iff.mp encoded
      have unfit : ¬ LogEntry.Fits
          { lsn := table.log.nextLsn, key := Utf8.encode key, value := row.bytes, timestamp } := by
        intro fits
        simp only [LogEntry.fits_iff, LogEntry.weight, Row.length_bytes] at fits
        exact unstorable fits
      have appending := LogWriter.append_refused files unfit
      refine ⟨.frameTooLarge, ?_⟩
      simp only [insert, encoded, Table.put, Table.record, Disk.perform_bind, appending]

end RowStore.Records
