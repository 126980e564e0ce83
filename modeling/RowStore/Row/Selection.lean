import RowStore.Row.Reader
import RowStore.Text.Utf8

namespace RowStore

namespace RowReader

/-- The wanted fields from here on, behind those in `found`, which are kept latest first. -/
def selectAfter (found : Row) (wanted : List Bytes) (reader : RowReader) : Except Fault Row :=
  match wanted with
  | [] => .ok found.reverse
  | name :: others =>
    match _read : reader.next with
    | (.error fault, _) => .error (.malformedRow fault)
    | (.ok none, _) => .error (.fieldNotFound (Utf8.decodeLossy name))
    | (.ok (some field), after) =>
      if field.name = name then after.selectAfter (field :: found) others
      else after.selectAfter found (name :: others)
termination_by reader.rest.length
decreasing_by all_goals exact next_shorter _read

end RowReader

def Row.decodeSelected (bytes : Bytes) (wanted : List Bytes) : Except Fault Row :=
  (RowReader.ofBytes bytes).selectAfter [] wanted

end RowStore
