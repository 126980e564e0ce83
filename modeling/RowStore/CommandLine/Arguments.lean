import RowStore.Text.Blank
import RowStore.Text.Number

namespace RowStore.CommandLine

inductive Command
  | insert (key : String) (pairs : List String)
  | update (key : String) (pairs : List String)
  | read (key : String) (fields : Option (List String))
  | scan (start : String) (count : Nat) (fields : Option (List String))
  | delete (key : String)
  deriving DecidableEq, Repr

/-- What the program is asked to do, and to which store. -/
structure Invocation where
  /-- A file to read properties from. -/
  properties : Option String
  /-- Assignments that follow those of the file. -/
  overrides : List String
  database : String
  command : Command
  deriving DecidableEq, Repr

inductive Parsed
  | run (invocation : Invocation)
  | version
  | help
  | refused
  deriving DecidableEq, Repr

inductive Shape
  | terminator
  | long (name : String) (attached : Option String)
  | short (name : Char) (attached : Option String)
  | plain (text : String)
  deriving DecidableEq, Repr

/-- Two dashes begin a long option, which ends at an equals sign if there is one. One dash begins a
short option, and what follows its letter belongs to it, with or without an equals sign. A lone
dash is plain. -/
def Shape.ofArgument (argument : String) : Shape :=
  match argument.toList with
  | ['-', '-'] => .terminator
  | '-' :: '-' :: rest =>
    match Text.splitAtFirst? '=' rest with
    | some (name, value) => .long (String.ofList name) (some (String.ofList value))
    | none => .long (String.ofList rest) none
  | '-' :: letter :: rest =>
    match rest with
    | [] => .short letter none
    | '=' :: value => .short letter (some (String.ofList value))
    | value => .short letter (some (String.ofList value))
  | _ => .plain argument

/-- The value of an option, attached to it or standing behind it, and the arguments after it. Only
a plain argument can stand behind an option as its value. -/
def takeValue? (attached : Option String) (rest : List String) :
    Option (String × List String) :=
  match attached, rest with
  | some value, _ => some (value, rest)
  | none, [] => none
  | none, next :: others =>
    match Shape.ofArgument next with
    | .plain value => some (value, others)
    | _ => none

theorem takeValue?_length {attached : Option String} {rest others : List String} {value : String}
    (taken : takeValue? attached rest = some (value, others)) : others.length ≤ rest.length := by
  unfold takeValue? at taken
  split at taken
  · simp only [Option.some.injEq, Prod.mk.injEq] at taken
    exact Nat.le_of_eq (congrArg List.length taken.2.symm)
  · simp at taken
  · split at taken
    · simp only [Option.some.injEq, Prod.mk.injEq] at taken
      rw [← taken.2]
      simp
    · simp at taken

structure CommandArguments where
  /-- The plain arguments, latest first. -/
  reversedPlain : List String := []
  /-- The fields asked for, if the option for them was given. -/
  fields : Option (List String) := none

/-- The fields with those of another use of the option, which separates them by commas. -/
def addFields (fields : Option (List String)) (text : String) : Option (List String) :=
  some (fields.getD [] ++ (Text.splitAll ',' text.toList).map String.ofList)

inductive CommandReading
  | complete (arguments : CommandArguments)
  | help
  | refused

def commandNames : List String := ["insert", "update", "read", "scan", "delete"]

def selectsFields (command : String) : Bool :=
  command = "read" ∨ command = "scan"

/-- Whether a command can take a plain argument behind as many as are given. -/
def takesPlain (command : String) (given : Nat) (text : String) : Bool :=
  match command, given with
  | "insert", _ | "update", _ | _, 0 => true
  | "scan", 1 => (Text.parseNumber text).isOk
  | _, _ => false

/-- Read the arguments of a command. After a terminator every argument is plain. -/
def readCommandArguments (command : String) (state : CommandArguments) :
    List String → CommandReading
  | [] => .complete state
  | argument :: rest =>
    let selection (attached : Option String) : CommandReading :=
      if selectsFields command then
        match _taken : takeValue? attached rest with
        | some (value, others) =>
          readCommandArguments command
            { state with fields := addFields state.fields value } others
        | none => .refused
      else .refused
    match Shape.ofArgument argument with
    | .terminator => .complete { state with reversedPlain := rest.reverse ++ state.reversedPlain }
    | .plain text =>
      if takesPlain command state.reversedPlain.length text then
        readCommandArguments command
          { state with reversedPlain := text :: state.reversedPlain } rest
      else .refused
    | .long "help" none | .short 'h' _ => .help
    | .long "fields" attached | .short 'f' attached => selection attached
    | .long _ _ | .short _ _ => .refused
termination_by arguments => arguments.length
decreasing_by
  · have shorter := takeValue?_length _taken
    simp only [List.length_cons]
    omega
  · simp

/-- The command of a name, if the name is one and its arguments fit. -/
def commandOf? (name : String) (arguments : CommandArguments) : Option Command :=
  match name, arguments.reversedPlain.reverse with
  | "insert", key :: pairs => some (.insert key pairs)
  | "update", key :: pairs => some (.update key pairs)
  | "read", [key] => some (.read key arguments.fields)
  | "scan", [start, count] =>
    match Text.parseNumber count with
    | .ok count => some (.scan start count arguments.fields)
    | .error _ => none
  | "delete", [key] => some (.delete key)
  | _, _ => none

structure StoreOptions where
  properties : Option String := none
  reversedOverrides : List String := []
  database : Option String := none
  table : Option String := none

namespace StoreOptions

/-- An option that may be given once. -/
def once (current : Option String) (value : String) : Option (Option String) :=
  match current with
  | some _ => none
  | none => some (some value)

/-- The options with one more, unless it is not known or cannot be given, or not again. The path of
the properties is not empty. The table is accepted and makes no difference. -/
def add? (options : StoreOptions) (name value : String) : Option StoreOptions :=
  match name with
  | "properties" =>
    if value = "" then none
    else (once options.properties value).map fun properties => { options with properties }
  | "prop" => some { options with reversedOverrides := value :: options.reversedOverrides }
  | "db" => (once options.database value).map fun database => { options with database }
  | "table" => (once options.table value).map fun table => { options with table }
  | _ => none

end StoreOptions

/-- The long name of a short option that takes a value. -/
def longName (letter : Char) : String :=
  match letter with
  | 'P' => "properties"
  | 'p' => "prop"
  | _ => ""

/-- Help can be asked for as a whole, about one command, or about help. -/
def parseHelp : List String → Parsed
  | [] => .help
  | [topic] => if topic = "help" ∨ topic ∈ commandNames then .help else .refused
  | _ => .refused

/-- Everything from the command on. -/
def parseCommand (options : StoreOptions) (name : String) (arguments : List String) : Parsed :=
  if name = "help" then parseHelp arguments
  else if name ∉ commandNames then .refused
  else
    match readCommandArguments name {} arguments with
    | .help => .help
    | .refused => .refused
    | .complete arguments =>
      match commandOf? name arguments with
      | none => .refused
      | some command => .run {
          properties := options.properties
          overrides := options.reversedOverrides.reverse
          database := options.database.getD "btreedb"
          command }

def parseOptions (options : StoreOptions) : List String → Parsed
  | [] => .refused
  | argument :: rest =>
    let valued (name : String) (attached : Option String) : Parsed :=
      match _taken : takeValue? attached rest with
      | none => .refused
      | some (value, others) =>
        match options.add? name value with
        | none => .refused
        | some options => parseOptions options others
    match Shape.ofArgument argument with
    | .terminator => .refused
    | .plain name => parseCommand options name rest
    | .long "version" none | .short 'V' _ => .version
    | .long "help" none | .short 'h' _ => .help
    | .long name attached => valued name attached
    | .short letter attached => valued (longName letter) attached
termination_by arguments => arguments.length
decreasing_by
  have shorter := takeValue?_length _taken
  simp only [List.length_cons]
  omega

def parse (arguments : List String) : Parsed :=
  parseOptions {} arguments

end RowStore.CommandLine
