import RowStore.Proofs.Connection.Operations
import RowStore.Proofs.Table.Answers

/-!
Any number of clients that connect to one table through one slot, call it and close their
connections, in any order. Each step leaves all connections on one engine, whose table is in step
with the rows stored so far; the directory keeps them while nobody is connected.
-/

namespace RowStore

open FileSystem Records

/-- What a client does. A client that is not connected is passed over, unless it connects. -/
inductive ClientEvent
  | establish (client : Nat) (settings : Settings)
  | call (client : Nat) (request : Request) (timestamp : UInt64)
  | close (client : Nat)

structure Clients where
  host : TableHost
  connections : Dictionary Nat Connection := .empty

/-- What the events alone determine: which clients are connected, with the number of fields that
each expects, and the rows stored so far. -/
structure ClientOutline where
  expected : Dictionary Nat Nat := .empty
  rows : List (String × Row) := []

namespace ClientOutline

def step (outline : ClientOutline) : ClientEvent → ClientOutline
  | .establish client settings =>
      match outline.expected.find? client with
      | some _ => outline
      | none => { outline with expected := outline.expected.set client settings.fieldCount }
  | .call client request _ =>
      match outline.expected.find? client with
      | none => outline
      | some _ => { outline with rows := outline.rows ++ request.stored?.toList }
  | .close client => { outline with expected := outline.expected.erase client }

def ofEvents (events : List ClientEvent) : ClientOutline :=
  events.foldl step {}

theorem ofEvents_concat (events : List ClientEvent) (event : ClientEvent) :
    ofEvents (events ++ [event]) = (ofEvents events).step event := by
  rw [ofEvents, List.foldl_append]
  rfl

theorem length_rows_le_step (outline : ClientOutline) (event : ClientEvent) :
    outline.rows.length ≤ (outline.step event).rows.length := by
  cases event with
  | establish client settings =>
      simp only [step]
      split <;> exact Nat.le_refl _
  | call client request timestamp =>
      simp only [step]
      split
      · exact Nat.le_refl _
      · simp
  | close client => exact Nat.le_refl _

end ClientOutline

namespace Clients

/-- The slot that all clients share, the first one of a new host. -/
def slot : SlotId := 0

def start (files : FileSystem) : Clients where
  host := ({ world := files } : TableHost).newSlot.2

def establish (clients : Clients) (client : Nat) (settings : Settings) : Clients :=
  match Connection.establish clients.host slot settings with
  | (.error _, host) => { clients with host }
  | (.ok connection, host) => { host, connections := clients.connections.set client connection }

def step (clients : Clients) : ClientEvent → Clients
  | .establish client settings =>
      match clients.connections.find? client with
      | some _ => clients
      | none => clients.establish client settings
  | .call client request timestamp =>
      match clients.connections.find? client with
      | none => clients
      | some connection =>
          { clients with host := (connection.answer clients.host request timestamp).2 }
  | .close client =>
      match clients.connections.find? client with
      | none => clients
      | some connection =>
          { host := (connection.close clients.host).2
            connections := clients.connections.erase client }

def run (files : FileSystem) (events : List ClientEvent) : Clients :=
  events.foldl step (start files)

theorem run_concat (files : FileSystem) (events : List ClientEvent) (event : ClientEvent) :
    run files (events ++ [event]) = (run files events).step event := by
  rw [run, List.foldl_append]
  rfl

/-- Every client that connects names the same directory, which starts out empty or missing, and
the rows are few enough to be numbered. -/
structure IsHistory (path : String) (home : Location) (files : FileSystem)
    (events : List ClientEvent) : Prop where
  vacant : ∃ made, files.makeDirectories path = (.ok (), made) ∧ made.EmptyDirectory path home
  valid : ∀ client settings, ClientEvent.establish client settings ∈ events →
    settings.path = some path ∧ pageSize ≤ settings.poolSize
  few : (ClientOutline.ofEvents events).rows.length < wordMax

/-- Nobody is connected and the directory is at rest, or all are on the table that is open on it. -/
inductive Bound (path : String) (clients : Clients) (life : Lifetime) : Prop
  | atRest (nobody : clients.connections.size = 0) (idle : clients.host.Idle slot 1)
      (closed : life.table = none)
      (making : clients.host.world.makeDirectories path = (.ok (), life.files))
  | inUse (id : EngineId) (table : Table) (someone : 0 < clients.connections.size)
      (serves : clients.host.Serves slot (clients.connections.size + 1) id table
        clients.connections.size)
      (on : ∀ client connection, clients.connections.find? client = some connection →
        connection.engine = id ∧ connection.slot = slot)
      (isOpen : life.table = some table) (files : life.files = clients.host.world)

/-- Clients in step with the events: those connected are the ones expected, and the life of their
directory has the rows for its writes. -/
structure InStep (path : String) (home : Location) (clients : Clients) (life : Lifetime)
    (outline : ClientOutline) : Prop where
  bound : Bound path clients life
  inStep : Lifetime.InStep path home life
  rows : life.writes.map Write.pair = outline.rows.map stored
  storable : ∀ pair ∈ outline.rows, Storable pair.1 pair.2
  expected : ∀ client, outline.expected.find? client =
    (clients.connections.find? client).map Connection.fieldCount

variable {path : String} {home : Location} {clients : Clients} {life : Lifetime}
  {outline : ClientOutline} {client : Nat} {settings : Settings} {connection : Connection}
  {request : Request} {files : FileSystem} {events : List ClientEvent} {key : String} {row : Row}

theorem InStep.length_writes (inStep : InStep path home clients life outline) :
    life.writes.length = outline.rows.length := by
  have same := congrArg List.length inStep.rows
  rwa [List.length_map, List.length_map] at same

theorem InStep.inUse (inStep : InStep path home clients life outline)
    (found : clients.connections.find? client = some connection) :
    ∃ table, life.table = some table ∧ life.files = clients.host.world ∧
      clients.host.Serves slot (clients.connections.size + 1) connection.engine table
        clients.connections.size ∧
      ∀ other otherConnection, clients.connections.find? other = some otherConnection →
        otherConnection.engine = connection.engine ∧ otherConnection.slot = slot := by
  cases inStep.bound with
  | atRest nobody _ _ _ =>
      have someone := Dictionary.size_pos_of_some found
      omega
  | inUse id table _ serves on isOpen files =>
      obtain ⟨rfl, _⟩ := on client connection found
      exact ⟨table, isOpen, files, serves, on⟩

theorem inStep_start {made : FileSystem} (making : files.makeDirectories path = (.ok (), made))
    (vacant : made.EmptyDirectory path home) :
    InStep path home (start files) { files := made } {} where
  bound := .atRest rfl rfl rfl making
  inStep := .atRest [] rfl rfl vacant.atRest
  rows := rfl
  storable _ member := by cases member
  expected _ := rfl

theorem tableOptions_eq (located : settings.path = some path)
    (paged : pageSize ≤ settings.poolSize) :
    settings.tableOptions = .ok
      { path, pages := settings.poolSize / pageSize, strategy := settings.strategy } := by
  have some : settings.poolSize / pageSize ≠ 0 := by
    have positive : 0 < settings.poolSize / pageSize := Nat.div_pos paged (by decide)
    omega
  simp only [Settings.tableOptions, located, if_neg some]

/-- Opening a table makes its directory first, so that it does not matter if that is done before. -/
theorem openAt_perform_made {made : FileSystem}
    (making : files.makeDirectories path = (.ok (), made)) (leads : made.LeadsTo path home)
    (pages : Nat) (strategy : SyncStrategy) :
    (Table.openAt { path, pages, strategy }).perform files =
      (Table.openAt { path, pages, strategy }).perform made := by
  simp only [Table.openAt, Disk.perform_bind, Disk.perform_makeDirectories, making,
    leads.makeDirectories]

theorem InStep.expected_set (inStep : InStep path home clients life outline)
    (same : connection.fieldCount = settings.fieldCount) (sought : Nat) :
    (outline.expected.set client settings.fieldCount).find? sought =
      ((clients.connections.set client connection).find? sought).map Connection.fieldCount := by
  rw [Dictionary.find?_set, Dictionary.find?_set]
  split
  · rw [Option.map_some, same]
  · exact inStep.expected sought

theorem on_set {id : EngineId} {count : Nat}
    (on : ∀ client connection, clients.connections.find? client = some connection →
      connection.engine = id ∧ connection.slot = slot) :
    ∀ other connection,
      (clients.connections.set client { engine := id, slot, fieldCount := count }).find? other =
        some connection → connection.engine = id ∧ connection.slot = slot := by
  intro other connection found
  rw [Dictionary.find?_set] at found
  split at found
  · cases found
    exact ⟨rfl, rfl⟩
  · exact on other connection found

theorem InStep.establish_first (inStep : InStep path home clients life outline)
    (nobody : clients.connections.size = 0) (idle : clients.host.Idle slot 1)
    (closed : life.table = none)
    (making : clients.host.world.makeDirectories path = (.ok (), life.files))
    (located : settings.path = some path) (paged : pageSize ≤ settings.poolSize) :
    ∃ after, InStep path home (clients.establish client settings) after
      { outline with expected := outline.expected.set client settings.fieldCount } := by
  have nothing := Dictionary.find?_of_size_eq_zero nobody
  have single := Dictionary.size_set_of_none (nothing client)
  obtain ⟨table, after, opening, isOpen, follows, writes⟩ := inStep.inStep.opening closed
    (settings.poolSize / pageSize) settings.strategy
  rw [← openAt_perform_made making inStep.inStep.directoryAt.leads] at opening
  obtain ⟨id, host, established, world, serves⟩ :=
    Connection.establish_first idle (tableOptions_eq located paged) opening
  refine ⟨after, ?_⟩
  simp only [Clients.establish, established]
  exact {
    bound := by
      refine .inUse id table ?_ ?_ (on_set fun other connection found => ?_) isOpen world.symm
      · rw [single]
        exact Nat.succ_pos _
      · rw [single, nobody]
        exact serves
      · rw [nothing] at found
        cases found
    inStep := follows
    rows := by
      rw [writes]
      exact inStep.rows
    storable := inStep.storable
    expected := inStep.expected_set rfl }

theorem InStep.establish_more {id : EngineId} {table : Table}
    (inStep : InStep path home clients life outline)
    (absent : clients.connections.find? client = none)
    (serves : clients.host.Serves slot (clients.connections.size + 1) id table
      clients.connections.size)
    (on : ∀ client connection, clients.connections.find? client = some connection →
      connection.engine = id ∧ connection.slot = slot)
    (isOpen : life.table = some table) (files : life.files = clients.host.world) :
    InStep path home (clients.establish client settings) life
      { outline with expected := outline.expected.set client settings.fieldCount } := by
  obtain ⟨host, established, world, servesMore⟩ := Connection.establish_more serves settings
  have more := Dictionary.size_set_of_none absent
  simp only [Clients.establish, established]
  exact {
    bound := by
      refine .inUse id table ?_ ?_ (on_set on) isOpen (files.trans world.symm)
      · rw [more]
        exact Nat.succ_pos _
      · rw [more]
        exact servesMore
    inStep := inStep.inStep
    rows := inStep.rows
    storable := inStep.storable
    expected := inStep.expected_set rfl }

theorem InStep.establish (inStep : InStep path home clients life outline)
    (absent : clients.connections.find? client = none) (located : settings.path = some path)
    (paged : pageSize ≤ settings.poolSize) :
    ∃ after, InStep path home (clients.establish client settings) after
      { outline with expected := outline.expected.set client settings.fieldCount } := by
  cases inStep.bound with
  | atRest nobody idle closed making =>
      exact inStep.establish_first nobody idle closed making located paged
  | inUse id table _ serves on isOpen files =>
      exact ⟨life, inStep.establish_more absent serves on isOpen files⟩

theorem InStep.replaceEngine {table next : Table} {after : Lifetime}
    {rows : List (String × Row)} (inStep : InStep path home clients life outline)
    (found : clients.connections.find? client = some connection)
    (serves : clients.host.Serves slot (clients.connections.size + 1) connection.engine table
      clients.connections.size)
    (on : ∀ other otherConnection, clients.connections.find? other = some otherConnection →
      otherConnection.engine = connection.engine ∧ otherConnection.slot = slot)
    (isOpen : after.table = some next) (follows : Lifetime.InStep path home after)
    (writes : after.writes.map Write.pair = rows.map stored)
    (storable : ∀ pair ∈ rows, Storable pair.1 pair.2) :
    InStep path home
      { host :=
          Host.replaceEngine { clients.host with world := after.files } connection.engine next
        connections := clients.connections }
      after { outline with rows } where
  bound := .inUse connection.engine next (Dictionary.size_pos_of_some found)
    (serves.replaceEngine after.files next) on isOpen rfl
  inStep := follows
  rows := writes
  storable := storable
  expected := inStep.expected

theorem InStep.putting {table : Table} (inStep : InStep path home clients life outline)
    (isOpen : life.table = some table) (files : life.files = clients.host.world)
    (storable : Storable key row) (timestamp : UInt64) (few : outline.rows.length + 1 < wordMax) :
    ∃ next after, (table.put (Utf8.encode key) row.bytes timestamp).perform clients.host.world =
        (.ok next, after.files) ∧
      after.table = some next ∧ Lifetime.InStep path home after ∧
      after.writes = life.writes ++ [write key row timestamp] := by
  have fits : (write key row timestamp).Fits := write_fits_iff.mpr storable
  rw [← inStep.length_writes] at few
  obtain ⟨next, after, putting, isOpenNext, follows, writes⟩ :=
    inStep.inStep.putting isOpen fits few
  rw [files] at putting
  exact ⟨next, after, putting, isOpenNext, follows, writes⟩

theorem InStep.call (inStep : InStep path home clients life outline)
    (found : clients.connections.find? client = some connection) (timestamp : UInt64)
    (few : (outline.rows ++ request.stored?.toList).length < wordMax) :
    ∃ after, InStep path home
      { clients with host := (connection.answer clients.host request timestamp).2 } after
      { outline with rows := outline.rows ++ request.stored?.toList } := by
  obtain ⟨table, isOpen, files, serves, on⟩ := inStep.inUse found
  cases stores : request.stored? with
  | none =>
      obtain ⟨response, answered⟩ := Connection.answer_of_stored?_none serves stores timestamp
      refine ⟨life, ?_⟩
      rw [answered, Option.toList_none, List.append_nil]
      exact inStep
  | some pair =>
      obtain ⟨key, row⟩ := pair
      obtain ⟨storable, _⟩ := Request.stored?_eq_some_iff.mp stores
      rw [stores, List.length_append] at few
      obtain ⟨next, after, putting, isOpenNext, follows, writes⟩ :=
        inStep.putting isOpen files storable timestamp few
      refine ⟨after, ?_⟩
      rw [Connection.answer_of_stored?_some serves stores putting]
      refine inStep.replaceEngine found serves on isOpenNext follows ?_ ?_
      · rw [writes, List.map_append, inStep.rows, Option.toList_some, List.map_append]
        rfl
      · intro pair member
        rcases List.mem_append.mp member with earlier | new
        · exact inStep.storable pair earlier
        · cases List.mem_singleton.mp new
          exact storable

theorem InStep.expected_erase (inStep : InStep path home clients life outline) (sought : Nat) :
    (outline.expected.erase client).find? sought =
      ((clients.connections.erase client).find? sought).map Connection.fieldCount := by
  rw [Dictionary.find?_erase, Dictionary.find?_erase]
  split
  · rfl
  · exact inStep.expected sought

theorem InStep.close (inStep : InStep path home clients life outline)
    (found : clients.connections.find? client = some connection) :
    ∃ after, InStep path home
      { host := (connection.close clients.host).2
        connections := clients.connections.erase client } after
      { outline with expected := outline.expected.erase client } := by
  obtain ⟨table, isOpen, files, serves, on⟩ := inStep.inUse found
  have sameSlot := (on client connection found).2
  rw [← Dictionary.size_erase_of_some found, ← sameSlot] at serves
  by_cases more : 0 < (clients.connections.erase client).size
  · obtain ⟨host, closed, world, servesFewer⟩ :=
      Connection.close_more (Nat.succ_pos _) serves more
    rw [sameSlot] at servesFewer
    have onOthers : ∀ other otherConnection,
        (clients.connections.erase client).find? other = some otherConnection →
          otherConnection.engine = connection.engine ∧ otherConnection.slot = slot := by
      intro other otherConnection otherFound
      rw [Dictionary.find?_erase] at otherFound
      split at otherFound
      · cases otherFound
      · exact on other otherConnection otherFound
    refine ⟨life, ?_⟩
    rw [closed]
    exact {
      bound := .inUse connection.engine table more servesFewer onOthers isOpen
        (files.trans world.symm)
      inStep := inStep.inStep
      rows := inStep.rows
      storable := inStep.storable
      expected := inStep.expected_erase }
  · have nobody := Nat.eq_zero_of_not_pos more
    rw [nobody] at serves
    obtain ⟨outcome, after, closing, closedTable, follows, writes⟩ := inStep.inStep.closing isOpen
    rw [files] at closing
    obtain ⟨host, closed, world, idle⟩ := Connection.close_last Nat.one_pos serves closing
    rw [sameSlot] at idle
    refine ⟨after, ?_⟩
    rw [closed]
    exact {
      bound := by
        refine .atRest nobody idle closedTable ?_
        rw [world]
        exact follows.directoryAt.leads.makeDirectories
      inStep := follows
      rows := by
        rw [writes]
        exact inStep.rows
      storable := inStep.storable
      expected := inStep.expected_erase }

theorem InStep.step (inStep : InStep path home clients life outline) (event : ClientEvent)
    (valid : ∀ client settings, event = .establish client settings →
      settings.path = some path ∧ pageSize ≤ settings.poolSize)
    (few : (outline.step event).rows.length < wordMax) :
    ∃ after, InStep path home (clients.step event) after (outline.step event) := by
  cases event with
  | establish client settings =>
      simp only [Clients.step, ClientOutline.step, inStep.expected client]
      cases found : clients.connections.find? client with
      | some connection => exact ⟨life, inStep⟩
      | none =>
          obtain ⟨located, paged⟩ := valid client settings rfl
          exact inStep.establish found located paged
  | call client request timestamp =>
      simp only [Clients.step, ClientOutline.step, inStep.expected client] at few ⊢
      cases found : clients.connections.find? client with
      | none => exact ⟨life, inStep⟩
      | some connection =>
          rw [found] at few
          exact inStep.call found timestamp few
  | close client =>
      simp only [Clients.step, ClientOutline.step]
      cases found : clients.connections.find? client with
      | none =>
          refine ⟨life, { inStep with expected := fun sought => ?_ }⟩
          rw [Dictionary.find?_erase]
          split
          · rename_i same
            rw [same, found]
            rfl
          · exact inStep.expected sought
      | some connection => exact inStep.close found

theorem run_inStep (history : IsHistory path home files events) :
    ∃ life, InStep path home (run files events) life (ClientOutline.ofEvents events) := by
  obtain ⟨⟨made, making, vacant⟩, valid, few⟩ := history
  induction events using List.reverseRecOn with
  | nil => exact ⟨_, inStep_start making vacant⟩
  | append_singleton earlier event ih =>
      rw [run_concat, ClientOutline.ofEvents_concat] at *
      have fewEarlier := Nat.lt_of_le_of_lt (ClientOutline.length_rows_le_step _ event) few
      obtain ⟨life, before⟩ := ih
        (fun client settings member => valid client settings (List.mem_append_left _ member))
        fewEarlier
      exact before.step event (fun client settings same => valid client settings (by simp [same]))
        few

end Clients

end RowStore
