namespace RowStore.Text

/-- The characters with the property `White_Space`. -/
def isBlank (char : Char) : Bool :=
  let code := char.toNat
  (0x09 ≤ code && code ≤ 0x0D) || code == 0x20 || code == 0x85 || code == 0xA0 || code == 0x1680 ||
    (0x2000 ≤ code && code ≤ 0x200A) || code == 0x2028 || code == 0x2029 || code == 0x202F ||
    code == 0x205F || code == 0x3000

/-- The characters without the blank ones at either end. -/
def trim (chars : List Char) : List Char :=
  ((chars.dropWhile isBlank).reverse.dropWhile isBlank).reverse

/-- What stands before and after the first `separator`, or nothing when there is none. -/
def splitAtFirst? (separator : Char) (chars : List Char) : Option (List Char × List Char) :=
  match chars.span (· ≠ separator) with
  | (before, _ :: after) => some (before, after)
  | (_, []) => none

/-- The pieces between the separators, one more than there are separators. -/
def splitAll (separator : Char) (chars : List Char) : List (List Char) :=
  let (last, done) := chars.foldl
    (fun (piece, done) char =>
      if char = separator then ([], piece.reverse :: done) else (char :: piece, done))
    (([], []) : List Char × List (List Char))
  (last.reverse :: done).reverse

/-- A line without the carriage return that belongs to its line break. -/
def dropLineReturn (line : List Char) : List Char :=
  match line.getLast? with
  | some '\r' => line.dropLast
  | _ => line

/-- The lines of a text: each ends at a line feed, with or without a carriage return before it,
and what follows the last line feed is a line only if there is something. -/
def lines (chars : List Char) : List (List Char) :=
  match (splitAll '\n' chars).reverse with
  | [] => []
  | last :: terminated =>
    let ended := terminated.reverse.map dropLineReturn
    if last.isEmpty then ended else ended ++ [last]

end RowStore.Text
