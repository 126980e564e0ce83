import RowStore.Request

namespace RowStore

/-- What a client can do with a database. -/
inductive Activity
  | insert
  | read
  | update
  | scan
  | readModifyWrite
  | delete
  deriving DecidableEq, Repr

/-- An activity together with how it went. Failures are counted apart. -/
structure Operation where
  activity : Activity
  hasFailed : Bool
  deriving DecidableEq, Repr

def Activity.all : List Activity :=
  [.insert, .read, .update, .scan, .readModifyWrite, .delete]

def Activity.name : Activity → String
  | insert => "INSERT"
  | read => "READ"
  | update => "UPDATE"
  | scan => "SCAN"
  | readModifyWrite => "READMODIFYWRITE"
  | delete => "DELETE"

def Activity.index : Activity → Fin 6
  | insert => 0
  | read => 1
  | update => 2
  | scan => 3
  | readModifyWrite => 4
  | delete => 5

/-- The activity that a call counts as. -/
def Request.activity : Request → Activity
  | read .. => .read
  | scan .. => .scan
  | update .. => .update
  | insert .. => .insert
  | delete .. => .delete

namespace Operation

/-- All operations, the successful ones first. -/
def all : List Operation :=
  Activity.all.map (⟨·, false⟩) ++ Activity.all.map (⟨·, true⟩)

def name (operation : Operation) : String :=
  operation.activity.name ++ if operation.hasFailed then "-FAILED" else ""

def index (operation : Operation) : Fin 12 :=
  let place := operation.activity.index
  if operation.hasFailed then ⟨place.val + 6, by omega⟩ else ⟨place.val, by omega⟩

def failed (operation : Operation) : Operation :=
  { operation with hasFailed := true }

/-- What a call of this operation is counted as: a missing record counts as a failure. -/
def withStatus (operation : Operation) : Status → Operation
  | .ok => operation
  | .notFound | .error => operation.failed

theorem index_injective {left right : Operation} (same : left.index = right.index) :
    left = right := by
  obtain ⟨leftActivity, leftFailed⟩ := left
  obtain ⟨rightActivity, rightFailed⟩ := right
  cases leftActivity <;> cases rightActivity <;> cases leftFailed <;> cases rightFailed <;>
    first
      | rfl
      | (exact absurd same (by decide))

end Operation

/-- One value for each operation. -/
structure PerOperation (Value : Type) where
  values : Vector Value 12

namespace PerOperation

variable {Value : Type}

def replicate (value : Value) : PerOperation Value := ⟨Vector.replicate 12 value⟩

def get (table : PerOperation Value) (operation : Operation) : Value :=
  table.values[operation.index]

def modify (table : PerOperation Value) (operation : Operation) (change : Value → Value) :
    PerOperation Value :=
  ⟨table.values.set operation.index (change (table.get operation))⟩

@[simp] theorem get_replicate (value : Value) (operation : Operation) :
    (replicate value).get operation = value := by
  simp [replicate, get]

theorem get_modify (table : PerOperation Value) (operation other : Operation)
    (change : Value → Value) :
    (table.modify operation change).get other =
      if other = operation then change (table.get operation) else table.get other := by
  by_cases same : other = operation
  · subst same
    simp [modify, get]
  · have apart : operation.index.val ≠ other.index.val := fun equal =>
      same (Operation.index_injective (Fin.ext equal.symm))
    simp [modify, get, same, apart]

end PerOperation

end RowStore
