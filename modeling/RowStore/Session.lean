import RowStore.Measurement.Meter
import RowStore.Registry

/-!
Sessions: files together with named objects that have been opened on them. An object that is
replaced or dropped is given up without being closed, which still sends what it had buffered to its
file.
-/

namespace RowStore

abbrev MeterId := Nat

/-- A database by its interface: the connection behind it and the meters that count its calls. -/
structure MeteredDatabase where
  connection : Connection
  meters : List MeterId := []

inductive SessionObject
  | log (writer : LogWriter)
  | snapshot (writer : SnapshotWriter)
  | table (table : Table)
  | handle (engine : EngineId)
  | shared (slot : SlotId)
  | connection (connection : Connection)
  | database (database : MeteredDatabase)
  | registry (registry : Registry)
  | meter (id : MeterId)

/-- Give an object up without closing it. -/
def SessionObject.abandon (host : TableHost) : SessionObject → TableHost
  | log writer => { host with world := writer.flushed host.world }
  | snapshot writer => { host with world := writer.flushed host.world }
  | table opened => { host with world := opened.abandoned host.world }
  | handle engine => host.dropHandle engine
  | shared slot => host.dropSlot slot
  | connection established => established.abandon host
  | database metered => metered.connection.abandon host
  | registry known => known.abandon host
  | meter _ => host

structure Session where
  host : TableHost := { world := {} }
  objects : Dictionary String SessionObject := .empty
  meters : Dictionary MeterId Meter := .empty
  nextMeter : MeterId := 0

namespace Session

instance : Inhabited Session := ⟨{}⟩

def files (session : Session) : FileSystem := session.host.world

def setFiles (session : Session) (files : FileSystem) : Session :=
  { session with host := { session.host with world := files } }

def find? (session : Session) (id : String) : Option SessionObject :=
  session.objects.find? id

/-- Put an object under a name without giving up the one that was there, of which it is the
continuation. -/
def update (session : Session) (id : String) (object : SessionObject) : Session :=
  { session with objects := session.objects.set id object }

/-- Take a name away without giving up its object, which has been used up. -/
def forget (session : Session) (id : String) : Session :=
  { session with objects := session.objects.erase id }

/-- Put a new object under a name, and give up the one that was there. -/
def place (session : Session) (id : String) (object : SessionObject) : Session :=
  let placed := session.update id object
  match session.find? id with
  | none => placed
  | some earlier => { placed with host := earlier.abandon placed.host }

def drop? (session : Session) (id : String) : Option Session :=
  (session.find? id).map fun object =>
    let without := session.forget id
    { without with host := object.abandon without.host }

def perform {α : Type} (session : Session) (action : Disk α) : Except Fault α × Session :=
  let (outcome, files) := action.perform session.files
  (outcome, session.setFiles files)

/-- Do something to the files, or nothing when it is refused. -/
def change (session : Session) (attempt : FileSystem → Except FileFault FileSystem) :
    Except Fault Unit × Session :=
  session.perform (Disk.change attempt)

/-- The table under a name, which is one itself or a handle on one. -/
def table? (session : Session) (id : String) : Option Table :=
  match session.find? id with
  | some (.table table) => some table
  | some (.handle engine) => session.host.engine? engine
  | _ => none

def setTable (session : Session) (id : String) (table : Table) : Session :=
  match session.find? id with
  | some (.handle engine) => { session with host := session.host.replaceEngine engine table }
  | _ => session.update id (.table table)

/-- Change the table under a name by an action, which leaves it as it is when it fails. -/
def onTable {α : Type} (session : Session) (id : String) (table : Table)
    (action : Table → Disk (α × Table)) : Except Fault α × Session :=
  match session.perform (action table) with
  | (.ok (answer, table), session) => (.ok answer, session.setTable id table)
  | (.error fault, session) => (.error fault, session)

def placeMeter (session : Session) (id : String) (meter : Meter) : Session :=
  let placed := session.place id (.meter session.nextMeter)
  { placed with
    meters := placed.meters.set session.nextMeter meter
    nextMeter := session.nextMeter + 1 }

/-- The database under a name, with or without meters. -/
def database? (session : Session) (id : String) : Option MeteredDatabase :=
  match session.find? id with
  | some (.connection connection) => some { connection }
  | some (.database database) => some database
  | _ => none

/-- A call counted by each of the given meters. -/
def observe (session : Session) (meters : List MeterId) (request : Request)
    (response : Response) (latency : UInt64) : Session :=
  { session with
    meters := meters.foldl
      (fun known id => known.update id fun meter => meter.observe request response latency)
      session.meters }

def answer (session : Session) (database : MeteredDatabase) (request : Request)
    (timestamp latency : UInt64) : Option Response × Session :=
  match database.connection.answer session.host request timestamp with
  | (none, host) => (none, { session with host })
  | (some response, host) =>
    (some response,
      { session with host }.observe database.meters request response latency)

end Session

end RowStore
