import RowStore.Fault

namespace RowStore

inductive SyncStrategy
  | everyWrite
  /-- Whenever this many writes have gathered. -/
  | everyEntries (count : Nat)
  deriving DecidableEq, Repr, Inhabited

namespace SyncStrategy

/-- The strategy where none is given. -/
def standard : SyncStrategy := .everyEntries 100

def isDue : SyncStrategy → Nat → Bool
  | everyWrite, _ => true
  | everyEntries count, unsynced => decide (count ≤ unsynced)

/-- Equality of texts up to the case of the letters `A` to `Z`. -/
def equalIgnoringCase (left right : String) : Bool :=
  left.toList.map Char.toLower = right.toList.map Char.toLower

/-- A strategy read from text never waits for zero writes, nor for one, which is every write. -/
def parse (text : String) : Except SyncFault SyncStrategy :=
  if equalIgnoringCase text "always" then .ok .everyWrite
  else
    match Text.parseNumber text with
    | .ok 0 => .error .zeroInterval
    | .ok 1 => .ok .everyWrite
    | .ok count => .ok (.everyEntries count)
    | .error _ => .error .unrecognised

end SyncStrategy

end RowStore
