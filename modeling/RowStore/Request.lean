import RowStore.Row

namespace RowStore

/-- A call on a database. Reads and scans may name the fields they want, in stored order. -/
inductive Request
  | read (key : String) (fields : Option (List Bytes))
  | scan (start : String) (count : Nat) (fields : Option (List Bytes))
  | update (key : String) (row : Row)
  | insert (key : String) (row : Row)
  | delete (key : String)
  deriving DecidableEq, Repr

inductive Status
  | ok
  | notFound
  | error
  deriving DecidableEq, Repr

namespace Status

def name : Status → String
  | ok => "Ok"
  | notFound => "NotFound"
  | error => "Error"

def code : Status → Nat
  | ok => 0
  | notFound => 1
  | error => 2

end Status

/-- What a call answers: a record that may be missing, records, or nothing but success. -/
inductive Response
  | record (result : Except Fault (Option Row))
  | records (result : Except Fault (List Row))
  | done (result : Except Fault Unit)

/-- A missing record is told apart from a failure. -/
def Response.status : Response → Status
  | record (.ok (some _)) => .ok
  | record (.ok none) => .notFound
  | records (.ok _) => .ok
  | done (.ok _) => .ok
  | record (.error _) => .error
  | records (.error _) => .error
  | done (.error _) => .error

end RowStore
