import RowStore.Settings

/-!
Engines and who holds them. An engine lives as long as there is a handle on it or a slot that holds
it; what nobody holds any more is given up. A slot opens an engine for the first to acquire it,
hands the same one to all who come later, and closes it when the last reference is released, if
nobody else still has a handle on it.
-/

namespace RowStore

/-- What a host needs of the engines it runs, over the state of the outside world. -/
class Engine (World : outParam Type) (E : Type) where
  openAt : TableOptions → World → Except Fault E × World
  close : E → World → Except Fault Unit × World
  /-- The world after an engine has been given up without closing it. -/
  abandoned : E → World → World

instance : Engine FileSystem Table where
  openAt options := (Table.openAt options).perform
  close table := table.close.perform
  abandoned := Table.abandoned

abbrev EngineId := Nat

abbrev SlotId := Nat

/-- An open engine with the number of handles on it, slots not counted. -/
structure Tenant (E : Type) where
  engine : E
  handles : Nat

/-- The place that a shared engine is kept in. -/
structure Slot where
  held : Option EngineId := none
  /-- The acquired references that have not been released. -/
  references : Nat := 0
  /-- How many parties keep the slot itself. -/
  owners : Nat := 1
  deriving DecidableEq, Repr

structure Host (World E : Type) where
  world : World
  tenants : Dictionary EngineId (Tenant E) := .empty
  slots : Dictionary SlotId Slot := .empty
  nextEngine : EngineId := 0
  nextSlot : SlotId := 0

namespace Host

variable {World E : Type}

def engine? (host : Host World E) (id : EngineId) : Option E :=
  (host.tenants.find? id).map Tenant.engine

def handles (host : Host World E) (id : EngineId) : Nat :=
  match host.tenants.find? id with
  | some tenant => tenant.handles
  | none => 0

def slot? (host : Host World E) (id : SlotId) : Option Slot :=
  host.slots.find? id

def isHeld (host : Host World E) (id : EngineId) : Bool :=
  host.slots.pairs.any fun pair => pair.2.held = some id

def setSlot (host : Host World E) (id : SlotId) (slot : Slot) : Host World E :=
  { host with slots := host.slots.set id slot }

/-- Put an open engine into the care of the host, with one handle on it. -/
def adopt (host : Host World E) (engine : E) : EngineId × Host World E :=
  (host.nextEngine,
    { host with
      tenants := host.tenants.set host.nextEngine { engine, handles := 1 }
      nextEngine := host.nextEngine + 1 })

/-- Put the engine in the state that an operation on it has left. -/
def replaceEngine (host : Host World E) (id : EngineId) (engine : E) : Host World E :=
  { host with tenants := host.tenants.update id fun tenant => { tenant with engine } }

def cloneHandle (host : Host World E) (id : EngineId) : Host World E :=
  { host with
    tenants := host.tenants.update id fun tenant => { tenant with handles := tenant.handles + 1 } }

variable [Engine World E]

/-- Give the engine up if neither a handle nor a slot holds it. -/
def settle (host : Host World E) (id : EngineId) : Host World E :=
  match host.tenants.find? id with
  | none => host
  | some tenant =>
    if tenant.handles = 0 ∧ host.isHeld id = false then
      { host with
        world := Engine.abandoned tenant.engine host.world
        tenants := host.tenants.erase id }
    else host

/-- Give one handle up. This does not release anything to a slot. -/
def dropHandle (host : Host World E) (id : EngineId) : Host World E :=
  let fewer := { host with
    tenants := host.tenants.update id fun tenant => { tenant with handles := tenant.handles - 1 } }
  fewer.settle id

def newSlot (host : Host World E) : SlotId × Host World E :=
  (host.nextSlot,
    { host with slots := host.slots.set host.nextSlot {}, nextSlot := host.nextSlot + 1 })

def keepSlot (host : Host World E) (id : SlotId) : Host World E :=
  { host with slots := host.slots.update id fun slot => { slot with owners := slot.owners + 1 } }

/-- One owner less. A slot without owners is gone, and so is its hold on an engine. -/
def dropSlot (host : Host World E) (id : SlotId) : Host World E :=
  match host.slot? id with
  | none => host
  | some slot =>
    if 1 < slot.owners then host.setSlot id { slot with owners := slot.owners - 1 }
    else
      let without := { host with slots := host.slots.erase id }
      match slot.held with
      | some engine => without.settle engine
      | none => without

/-- Open an engine and keep it in a slot. -/
def openInto (host : Host World E) (id : SlotId) (slot : Slot) (settings : Settings) :
    Except Fault EngineId × Host World E :=
  match settings.tableOptions with
  | .error fault => (.error fault, host)
  | .ok options =>
    match Engine.openAt (E := E) options host.world with
    | (.error fault, world) => (.error fault, { host with world })
    | (.ok engine, world) =>
      let (engineId, host) := { host with world }.adopt engine
      (.ok engineId,
        host.setSlot id { slot with held := some engineId, references := slot.references + 1 })

/-- A handle on the engine of a slot, opened with the given settings if there is none yet. A failed
opening leaves the slot as it was. -/
def acquire (host : Host World E) (id : SlotId) (settings : Settings) :
    Except Fault EngineId × Host World E :=
  let slot := (host.slot? id).getD {}
  match slot.held with
  | some engine =>
    (.ok engine,
      (host.cloneHandle engine).setSlot id { slot with references := slot.references + 1 })
  | none => host.openInto id slot settings

/-- Take the engine out of its slot and close it, unless handles on it are left. -/
def closeHeld (host : Host World E) (id : SlotId) : Except Fault Unit × Host World E :=
  match host.slot? id with
  | none => (.ok (), host)
  | some slot =>
    match slot.held with
    | none => (.ok (), host)
    | some engineId =>
      match host.tenants.find? engineId with
      | none => (.ok (), host.setSlot id { slot with held := none })
      | some tenant =>
        if 0 < tenant.handles then (.error (.storage (.stillInUse tenant.handles)), host)
        else
          let (outcome, world) := Engine.close tenant.engine host.world
          (outcome,
            { host with world, tenants := host.tenants.erase engineId }.setSlot id
              { slot with held := none })

/-- Give a handle back to a slot. The handle is gone in every case. The release that brings the
references to zero closes the engine. -/
def release (host : Host World E) (id : SlotId) (engine : EngineId) :
    Except Fault Unit × Host World E :=
  let slot := (host.slot? id).getD {}
  if slot.references = 0 then
    (.error (.storage .unmatchedRelease), host.dropHandle engine)
  else
    let returned :=
      (host.setSlot id { slot with references := slot.references - 1 }).dropHandle engine
    if 1 < slot.references then (.ok (), returned) else returned.closeHeld id

end Host

end RowStore
