import RowStore.Text.Blank

namespace RowStore.Path

/-- The steps that lead from the root to what a path names. Slashes in a row are one. -/
def steps (path : String) : List String :=
  ((Text.splitAll '/' path.toList).map String.ofList).filter (· ≠ "")

/-- The step that stays in a directory. -/
def here : String := "."

/-- The step to the directory above. -/
def up : String := ".."

/-- Whether the steps end in one that goes to a directory without naming it. -/
def endsUnnamed (steps : List String) : Bool :=
  match steps.getLast? with
  | some last => last = here ∨ last = up
  | none => true

/-- Whether a path ends in a slash, which only the path of a directory can. -/
def endsInSlash (path : String) : Bool :=
  path.toList.getLast? = some '/'

/-- The reversed steps to the directory above. Steps that stay where they are count for nothing at
the end of a path. -/
def upperReversed (reversedSteps : List String) : List String :=
  (reversedSteps.dropWhile (· = here)).tail.dropWhile (· = here)

theorem length_upperReversed_lt (last : String) (rest : List String) :
    (upperReversed (last :: rest)).length < (last :: rest).length := by
  have outer := (List.dropWhile_sublist (· = here)
    (l := ((last :: rest).dropWhile (· = here)).tail)).length_le
  have inner := (List.dropWhile_sublist (· = here) (l := last :: rest)).length_le
  simp only [upperReversed, List.length_tail, List.length_cons] at *
  omega

def join (directory name : String) : String :=
  if directory = "" ∨ directory.toList.getLast? = some '/' then directory ++ name
  else directory ++ "/" ++ name

/-- A reversed path without the slashes and `.` steps that follow its last name. -/
def dropTrailing : List Char → List Char
  | '/' :: rest => dropTrailing rest
  | '.' :: '/' :: rest => dropTrailing rest
  | rest => rest

/-- A path cut before its last name, unless it ends in no name: it is empty, is the root or the
directory it starts from, or ends in `..`. -/
def splitName? (path : List Char) : Option (List Char × List Char) :=
  let (reversedName, reversedUpper) := (dropTrailing path.reverse).span (· ≠ '/')
  let name := reversedName.reverse
  if name = [] ∨ name = ['.'] ∨ name = ['.', '.'] then none
  else some (reversedUpper.reverse, name)

/-- A name cut at its last dot. A dot that nothing precedes does not begin an extension. -/
def splitExtension (name : List Char) : List Char × Option (List Char) :=
  match name.reverse.span (· ≠ '.') with
  | (reversedExtension, _ :: reversedStem) =>
    if reversedStem.isEmpty then (name, none)
    else (reversedStem.reverse, some reversedExtension.reverse)
  | (_, []) => (name, none)

/-- The path with another extension. The old extension's length is cut off the end of the path
first, and what is left need not end in a name: such a path gets no extension. -/
def withExtension (path extension : String) : String :=
  let chars := path.toList
  let shortened := match splitName? chars with
    | none => chars
    | some (_, name) =>
      match (splitExtension name).2 with
      | none => chars
      | some old => chars.take (chars.length - old.length)
  match splitName? shortened with
  | none => String.ofList shortened
  | some (upper, name) =>
    String.ofList (upper ++ (splitExtension name).1) ++ "." ++ extension

end RowStore.Path
