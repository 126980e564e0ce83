import RowStore.Sizes

namespace RowStore

/-- Why a text is not an unsigned 64-bit number. -/
inductive NumberFault
  | empty
  | invalidDigit
  | tooLarge
  deriving DecidableEq, Repr

namespace NumberFault

def message : NumberFault → String
  | empty => "cannot parse integer from empty string"
  | invalidDigit => "invalid digit found in string"
  | tooLarge => "number too large to fit in target type"

end NumberFault

namespace Text

/-- One more digit. A character that is no digit is noticed before the value is, so the first of
two faults in reading order wins. -/
def appendDigit (value : Nat) (char : Char) : Except NumberFault Nat :=
  if '0' ≤ char ∧ char ≤ '9' then
    let value := value * 10 + (char.toNat - '0'.toNat)
    if value < wordLimit then .ok value else .error .tooLarge
  else .error .invalidDigit

def parseDigits (chars : List Char) : Except NumberFault Nat :=
  if chars.isEmpty then .error .invalidDigit else chars.foldlM appendDigit 0

/-- A plus sign is allowed and a minus sign is not, not even before zero. -/
def parseNumber (text : String) : Except NumberFault Nat :=
  match text.toList with
  | [] => .error .empty
  | '+' :: digits => parseDigits digits
  | chars => parseDigits chars

end Text

end RowStore
