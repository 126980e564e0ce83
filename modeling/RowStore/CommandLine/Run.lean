import RowStore.CommandLine.Arguments
import RowStore.Measurement.Meter
import RowStore.Registry

namespace RowStore.CommandLine

/-- What a run leaves behind besides the files. -/
structure Outcome where
  exitCode : Nat
  output : String := ""
  fault : Option Fault := none

def fieldOf (pair : String) : Except Fault Field :=
  match Text.splitAtFirst? '=' pair.toList with
  | some (name, value) =>
    .ok { name := Utf8.encode (String.ofList name), value := Utf8.encode (String.ofList value) }
  | none => .error (.config (.notField pair))

def Command.request : Command → Except Fault Request
  | insert key pairs => return .insert key (← pairs.mapM fieldOf)
  | update key pairs => return .update key (← pairs.mapM fieldOf)
  | read key fields => return .read key (fields.map (·.map Utf8.encode))
  | scan start count fields => return .scan start count (fields.map (·.map Utf8.encode))
  | delete key => return .delete key

def showField (field : Field) : String :=
  Utf8.decodeLossy field.name ++ "=" ++ Utf8.decodeLossy field.value

def showRow (label : String) (row : Row) : String :=
  label ++ ": " ++ " ".intercalate (row.map showField) ++ "\n"

/-- The rows of an answer, labelled with the key or, in a scan, with their numbers. -/
def showRows (request : Request) (response : Response) : String :=
  match request, response with
  | .read key _, .record (.ok (some row)) => showRow key row
  | _, .records (.ok rows) =>
    String.join (rows.zipIdx.map fun (row, number) => showRow s!"#{number}" row)
  | _, _ => ""

def failure? : Response → Option Fault
  | .record (.error fault) => some fault
  | .records (.error fault) => some fault
  | .done (.error fault) => some fault
  | _ => none

/-- The text that answers a call, and its failure. -/
def showResponse (request : Request) (response : Response) : String × Option Fault :=
  (response.status.name ++ "\n" ++ showRows request response, failure? response)

/-- Carry out a command over a connection. A command that makes no call prints nothing. -/
def execute (connection : Connection) (host : TableHost) (command : Command)
    (timestamp : UInt64) : (String × Option Fault) × TableHost :=
  match command.request with
  | .error fault => (("", some fault), host)
  | .ok request =>
    match connection.answer host request timestamp with
    | (none, host) => (("", none), host)
    | (some response, host) => (showResponse request response, host)

def propertiesOf (invocation : Invocation) (files : FileSystem) : Except Fault Properties := do
  let properties ← match invocation.properties with
    | some path => Properties.load files path
    | none => .ok .empty
  invocation.overrides.foldlM Properties.assign properties

def failed (fault : Fault) (output : String) : Outcome :=
  { exitCode := 1, output, fault := some fault }

/-- Connect, carry out the command, and close the connection. -/
def runWith (properties : Properties) (invocation : Invocation) (files : FileSystem)
    (timestamp : UInt64) : Outcome × FileSystem :=
  let (registry, host) := Registry.standard { world := files }
  match registry.create host invocation.database properties with
  | (.error fault, host) => (failed fault "", (registry.abandon host).world)
  | (.ok connection, host) =>
    let ((output, fault?), host) := execute connection host invocation.command timestamp
    let (closed, host) := connection.close host
    let outcome := match closed, fault? with
      | .error fault, _ => failed fault output
      | .ok (), some fault => failed fault output
      | .ok (), none => { exitCode := 0, output }
    (outcome, (registry.abandon host).world)

/-- Run an invocation. The kind of measurement is checked before the store is touched. -/
def run (invocation : Invocation) (files : FileSystem) (timestamp : UInt64) :
    Outcome × FileSystem :=
  match propertiesOf invocation files with
  | .error fault => (failed fault "", files)
  | .ok properties =>
    match Meter.ofProperties properties with
    | .error fault => (failed fault "", files)
    | .ok _ => runWith properties invocation files timestamp

def versionText : String := "btreedb-cli 0.1.0\n"

def helpText : String :=
  "btreedb-cli [-P FILE] [-p KEY=VALUE]... [--db NAME] [--table NAME] COMMAND\n" ++
  "  insert KEY [NAME=VALUE]...\n" ++
  "  update KEY [NAME=VALUE]...\n" ++
  "  read KEY [-f NAME,...]\n" ++
  "  scan KEY COUNT [-f NAME,...]\n" ++
  "  delete KEY\n"

/-- The program as a whole. Arguments that cannot be accepted end it with exit code 2. -/
def respond (arguments : List String) (files : FileSystem) (timestamp : UInt64) :
    Outcome × FileSystem :=
  match parse arguments with
  | .refused => ({ exitCode := 2 }, files)
  | .version => ({ exitCode := 0, output := versionText }, files)
  | .help => ({ exitCode := 0, output := helpText }, files)
  | .run invocation => run invocation files timestamp

end RowStore.CommandLine
