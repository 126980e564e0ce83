import RowStore.OrderedMap

namespace RowStore

structure Contents where
  map : OrderedMap := .empty
  size : Nat := 0

namespace Contents

instance : Inhabited Contents := ⟨{}⟩

def empty : Contents := {}

def find? (contents : Contents) (key : Bytes) : Option Bytes :=
  contents.map.find? key

def count (contents : Contents) : Nat :=
  contents.map.count

def isEmpty (contents : Contents) : Bool :=
  contents.map.entries.isEmpty

/-- Write an entry. A key that is present counts for its new value instead of its old one. -/
def put (contents : Contents) (key value : Bytes) : Contents where
  map := contents.map.insert key value
  size := match contents.map.find? key with
    | some previous =>
      if value.length < previous.length then
        contents.size - (previous.length - value.length)
      else contents.size + (value.length - previous.length)
    | none => contents.size + (key.length + value.length)

def putAll (contents : Contents) (pairs : List (Bytes × Bytes)) : Contents :=
  pairs.foldl (fun contents pair => contents.put pair.1 pair.2) contents

/-- The first entry with a key from `key` on or, if `exclusive`, with a key after it. -/
def next? (contents : Contents) (key : Bytes) (exclusive : Bool) : Option (Bytes × Bytes) :=
  contents.map.next? (if exclusive then .after key else .atLeast key)

/-- Visit the entries in key order until a visit fails. The visitor's state is returned also in
that case. -/
def visit {State Refusal : Type} (contents : Contents)
    (visitor : State → Bytes × Bytes → Except Refusal State) (state : State) :
    State × Option Refusal :=
  go contents.map.entries state
where
  go : List (Bytes × Bytes) → State → State × Option Refusal
    | [], state => (state, none)
    | entry :: rest, state =>
      match visitor state entry with
      | .ok state => go rest state
      | .error refusal => (state, some refusal)

end Contents

/-- A position in a table from which entries are taken one by one. Each step looks the table up
anew, so that it sees what has been written since the last one. -/
structure Cursor where
  bound : OrderedMap.Bound
  deriving DecidableEq

namespace Cursor

def startingAt (key : Bytes) : Cursor := ⟨.atLeast key⟩

/-- The next entry and the cursor behind it. A cursor that finds nothing stays where it is. -/
def next (cursor : Cursor) (contents : Contents) : Option (Bytes × Bytes) × Cursor :=
  match contents.map.next? cursor.bound with
  | some entry => (some entry, ⟨.after entry.1⟩)
  | none => (none, cursor)

end Cursor

end RowStore
