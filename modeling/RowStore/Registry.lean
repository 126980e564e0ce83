import RowStore.Connection

namespace RowStore

structure Registry where
  constructors : Dictionary String SlotId := .empty

namespace Registry

instance : Inhabited Registry := ⟨{}⟩

def storeName : String := "btreedb"

/-- Register a slot under a name, unless the name is taken. The registry becomes an owner of the
slot. -/
def register (registry : Registry) (host : TableHost) (name : String) (slot : SlotId) :
    Bool × Registry × TableHost :=
  if registry.constructors.contains name then (false, registry, host)
  else (true, { constructors := registry.constructors.set name slot }, host.keepSlot slot)

/-- A registry with the store in it, sharing a slot of its own. -/
def standard (host : TableHost) : Registry × TableHost :=
  let (slot, host) := host.newSlot
  ({ constructors := Dictionary.empty.set storeName slot }, host)

/-- A new connection to the database registered under a name. -/
def create (registry : Registry) (host : TableHost) (name : String) (properties : Properties) :
    Except Fault Connection × TableHost :=
  match registry.constructors.find? name with
  | none => (.error (.unknownDatabase name), host)
  | some slot =>
    match Settings.ofProperties properties with
    | .error fault => (.error fault, host)
    | .ok settings => Connection.establish host slot settings

def contains (registry : Registry) (name : String) : Bool :=
  registry.constructors.contains name

def names (registry : Registry) : List String :=
  registry.constructors.keys.mergeSort fun earlier later => earlier ≤ later

/-- Give the registry up, and with it its part in the slots. -/
def abandon (registry : Registry) (host : TableHost) : TableHost :=
  registry.constructors.pairs.foldl (fun host pair => host.dropSlot pair.2) host

end Registry

end RowStore
