import RowStore.Request
import RowStore.Row.Selection
import RowStore.Table

namespace RowStore.Records

/-- A stored row, either the wanted fields of it or all of them, which then have to be as many as
expected. -/
def decode (fieldCount : Nat) (fields : Option (List Bytes)) (stored : Bytes) :
    Except Fault Row :=
  match fields with
  | some wanted => Row.decodeSelected stored wanted
  | none =>
    match Row.decode stored with
    | .error fault => .error fault
    | .ok row =>
      if row.length = fieldCount then .ok row else .error (.fieldCount fieldCount row.length)

def read (fieldCount : Nat) (table : Table) (key : String) (fields : Option (List Bytes)) :
    Except Fault (Option Row) :=
  match table.find? (Utf8.encode key) with
  | none => .ok none
  | some stored => (decode fieldCount fields stored).map some

/-- The records that a cursor comes to, until as many have been found as are `wanted`. The cursor is
not moved on behind the last of them. -/
def collect (fieldCount : Nat) (fields : Option (List Bytes)) (contents : Contents) :
    Nat → Cursor → Except Fault (List Row)
  | 0, _ => return []
  | wanted + 1, cursor =>
    match cursor.next contents with
    | (none, _) => return []
    | (some entry, beyond) => do
      let row ← decode fieldCount fields entry.2
      let rows ← collect fieldCount fields contents wanted beyond
      return row :: rows

/-- Up to `count` records from a key on, in key order. Nothing beyond them is looked at. -/
def scan (fieldCount : Nat) (table : Table) (start : String) (count : Nat)
    (fields : Option (List Bytes)) : Except Fault (List Row) :=
  collect fieldCount fields table.contents count (Cursor.startingAt (Utf8.encode start))

/-- Store a record in place of any earlier one under its key. -/
def insert (table : Table) (key : String) (row : Row) (timestamp : UInt64) : Disk Table := do
  match row.encode with
  | .error fault => Disk.fail fault
  | .ok stored => table.put (Utf8.encode key) stored timestamp

/-- Answer a call on a table. An update overwrites the whole record, as an insertion does, and a
deletion leaves the record where it is. -/
def answer (fieldCount : Nat) (table : Table) (request : Request) (timestamp : UInt64) :
    Disk (Response × Table) := do
  match request with
  | .read key fields => return (.record (read fieldCount table key fields), table)
  | .scan start count fields =>
    return (.records (scan fieldCount table start count fields), table)
  | .update key row | .insert key row =>
    match ← Disk.attempt (insert table key row timestamp) with
    | .ok written => return (.done (.ok ()), written)
    | .error fault => return (.done (.error fault), table)
  | .delete _ => return (.done (.ok ()), table)

end RowStore.Records
