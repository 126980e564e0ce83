import RowStore.Host
import RowStore.Records

namespace RowStore

abbrev TableHost := Host FileSystem Table

/-- A client's hold on a shared engine. -/
structure Connection where
  engine : EngineId
  slot : SlotId
  fieldCount : Nat
  deriving DecidableEq, Repr

namespace Connection

def establish (host : TableHost) (slot : SlotId) (settings : Settings) :
    Except Fault Connection × TableHost :=
  match host.acquire slot settings with
  | (.error fault, host) => (.error fault, host)
  | (.ok engine, host) =>
    (.ok { engine, slot, fieldCount := settings.fieldCount }, host.keepSlot slot)

/-- Release the shared engine. The connection is gone also if that fails. -/
def close (connection : Connection) (host : TableHost) : Except Fault Unit × TableHost :=
  let (outcome, host) := host.release connection.slot connection.engine
  (outcome, host.dropSlot connection.slot)

/-- Leave without releasing the engine. -/
def abandon (connection : Connection) (host : TableHost) : TableHost :=
  (host.dropHandle connection.engine).dropSlot connection.slot

/-- Answer a call. The engine is there as long as the connection is. -/
def answer (connection : Connection) (host : TableHost) (request : Request)
    (timestamp : UInt64) : Option Response × TableHost :=
  match host.engine? connection.engine with
  | none => (none, host)
  | some table =>
    match (Records.answer connection.fieldCount table request timestamp).perform host.world with
    | (.ok (response, table), files) =>
      (some response, { host with world := files }.replaceEngine connection.engine table)
    | (.error fault, files) => (some (.done (.error fault)), { host with world := files })

end Connection

end RowStore
