import RowStore.CommandLine.Run
import RowStore.Proofs.Connection.History

namespace RowStore

open FileSystem

/-- A directory with no table open on it, in step with the writes made there. It may still have to
be made. -/
def Resting (path : String) (home : Location) (files : FileSystem) (writes : List Write) : Prop :=
  ∃ life : Lifetime, life.table = none ∧ life.writes = writes ∧
    Lifetime.InStep path home life ∧ files.makeDirectories path = (.ok (), life.files)

variable {path : String} {home : Location} {files made : FileSystem} {writes : List Write}

theorem resting_of_vacant (making : files.makeDirectories path = (.ok (), made))
    (vacant : made.EmptyDirectory path home) : Resting path home files [] :=
  ⟨{ files := made }, rfl, rfl, .atRest [] rfl rfl vacant.atRest, making⟩

theorem Lifetime.InStep.resting {life : Lifetime} (inStep : InStep path home life)
    (closed : life.table = none) : Resting path home life.files life.writes :=
  ⟨life, closed, rfl, inStep, inStep.directoryAt.leads.makeDirectories⟩

/-- A connection to the table in a directory, beside which the slot has one other owner and no other
user. -/
def Connection.Alone (connection : Connection) (host : TableHost) (path : String)
    (home : Location) (writes : List Write) : Prop :=
  ∃ life table, life.table = some table ∧ life.writes = writes ∧
    Lifetime.InStep path home life ∧ life.files = host.world ∧
    host.Serves connection.slot 2 connection.engine table 1

variable {connection : Connection} {host : TableHost} {slot : SlotId} {settings : Settings}
  {options : TableOptions} {request : Request} {timestamp : UInt64}

theorem Resting.establish (resting : Resting options.path home host.world writes)
    (valid : settings.tableOptions = .ok options) (idle : host.Idle slot 1) :
    ∃ connection after, Connection.establish host slot settings = (.ok connection, after) ∧
      connection.slot = slot ∧ connection.fieldCount = settings.fieldCount ∧
      connection.Alone after options.path home writes := by
  obtain ⟨life, closed, isWrites, inStep, making⟩ := resting
  obtain ⟨table, opened, opening, isOpen, follows, same⟩ :=
    inStep.opening closed options.pages options.strategy
  rw [← Clients.openAt_perform_made making inStep.directoryAt.leads] at opening
  obtain ⟨id, after, established, world, serves⟩ :=
    Connection.establish_first idle valid opening
  exact ⟨_, after, established, rfl, rfl, opened, table, isOpen, same.trans isWrites, follows,
    world.symm, serves⟩

theorem Connection.establish_refused {fault : Fault} (idle : host.Idle slot 1)
    (refused : settings.tableOptions = .error fault) :
    establish host slot settings = (.error fault, host) := by
  have held : ((host.slot? slot).getD {}).held = none := idle.held
  simp only [establish, Host.acquire, held, Host.openInto, refused]

theorem Connection.establish_unopened {fault : Fault} {left : FileSystem} (idle : host.Idle slot 1)
    (valid : settings.tableOptions = .ok options)
    (failing : (Table.openAt options).perform host.world = (.error fault, left)) :
    establish host slot settings = (.error fault, { host with world := left }) := by
  have held : ((host.slot? slot).getD {}).held = none := idle.held
  simp only [establish, Host.acquire, held, Host.openInto, valid, openAt_table, failing]

namespace Connection

theorem Alone.answer (alone : connection.Alone host path home writes) (request : Request)
    (timestamp : UInt64) (few : writes.length + 1 < wordMax) :
    ∃ response after added, connection.answer host request timestamp = (some response, after) ∧
      connection.Alone after path home (writes ++ added) ∧
      added.map Write.pair = request.stored?.toList.map Records.stored ∧
      (request.stored?.isSome = true → response = .done (.ok ())) := by
  obtain ⟨life, table, isOpen, rfl, inStep, files, serves⟩ := alone
  cases stores : request.stored? with
  | none =>
      obtain ⟨response, answered⟩ := answer_of_stored?_none serves stores timestamp
      refine ⟨response, host, [], answered, ?_, rfl, nofun⟩
      rw [List.append_nil]
      exact ⟨life, table, isOpen, rfl, inStep, files, serves⟩
  | some pair =>
      obtain ⟨key, row⟩ := pair
      obtain ⟨storable, _⟩ := Request.stored?_eq_some_iff.mp stores
      have fits : (Records.write key row timestamp).Fits := Records.write_fits_iff.mpr storable
      obtain ⟨next, after, putting, isOpenNext, follows, isWrites⟩ :=
        inStep.putting isOpen fits few
      rw [files] at putting
      exact ⟨_, _, [Records.write key row timestamp],
        answer_of_stored?_some serves stores putting,
        ⟨after, next, isOpenNext, isWrites, follows, rfl, serves.replaceEngine after.files next⟩,
        rfl, fun _ => rfl⟩

theorem Alone.answer_read (alone : connection.Alone host path home writes) {key : String}
    {row : Row} (fits : row.Fits) (many : row.length = connection.fieldCount)
    (last : lastValue (writes.map Write.pair) (Utf8.encode key) = some row.bytes)
    (timestamp : UInt64) :
    connection.answer host (.read key none) timestamp =
      (some (.record (.ok (some row))), host) := by
  obtain ⟨life, table, isOpen, rfl, inStep, files, serves⟩ := alone
  rw [Connection.answer_read serves.engine?, Records.read, (inStep.answers isOpen).find?, last]
  simp only [Records.decode, Row.decode_bytes fits, if_pos many]
  rfl

theorem Alone.close (alone : connection.Alone host path home writes) :
    ∃ outcome after, connection.close host = (outcome, after) ∧
      after.Idle connection.slot 1 ∧ Resting path home after.world writes := by
  obtain ⟨life, table, isOpen, isWrites, inStep, files, serves⟩ := alone
  obtain ⟨outcome, left, closing, closed, follows, same⟩ := inStep.closing isOpen
  rw [files] at closing
  obtain ⟨after, closes, world, idle⟩ := close_last Nat.one_pos serves closing
  refine ⟨outcome, after, closes, idle, ?_⟩
  rw [world, ← isWrites, ← same]
  exact follows.resting closed

end Connection

namespace Registry

/-- The first slot, which the standard registry shares with its connections. -/
theorem standard_eq (files : FileSystem) :
    standard { world := files } =
      ({ constructors := Dictionary.empty.set storeName Clients.slot }, (Clients.start files).host) :=
  rfl

theorem create_store {name : String} {properties : Properties} (store : name = storeName)
    (set : Settings.ofProperties properties = .ok settings) (host : TableHost) :
    create { constructors := Dictionary.empty.set storeName Clients.slot } host name properties =
      Connection.establish host Clients.slot settings := by
  rw [create, store, Dictionary.find?_set_self]
  simp only [set]

theorem idle_start (files : FileSystem) : (Clients.start files).host.Idle Clients.slot 1 := rfl

theorem world_abandon (idle : host.Idle Clients.slot 1) :
    (abandon { constructors := Dictionary.empty.set storeName Clients.slot } host).world =
      host.world := by
  change (host.dropSlot Clients.slot).world = host.world
  cases found : host.slot? Clients.slot with
  | none => simp only [Host.dropSlot, found]
  | some state =>
      have isIdle : state = {} := by
        have same : (host.slot? Clients.slot).getD {} = {} := idle
        rwa [found] at same
      subst isIdle
      simp only [Host.dropSlot, found, Nat.lt_irrefl, if_false]

end Registry

namespace CommandLine

/-- The row that a command stores, if it stores one. -/
def Command.stored? (command : Command) : Option (String × Row) :=
  command.request.toOption.bind Request.stored?

/-- The properties and the database are valid: the run opens the store at the path and expects so
many fields in a row. -/
structure Invocation.Opens (invocation : Invocation) (files : FileSystem) (path : String)
    (fieldCount : Nat) : Prop where
  valid : ∃ properties meter settings options, propertiesOf invocation files = .ok properties ∧
    Meter.ofProperties properties = .ok meter ∧ Settings.ofProperties properties = .ok settings ∧
    settings.tableOptions = .ok options ∧ options.path = path ∧ settings.fieldCount = fieldCount
  database : invocation.database = Registry.storeName

variable {invocation : Invocation} {fieldCount : Nat} {command : Command}

theorem execute_alone (alone : connection.Alone host path home writes) (command : Command)
    (timestamp : UInt64) (few : writes.length + 1 < wordMax) :
    ∃ added, connection.Alone (execute connection host command timestamp).2 path home
        (writes ++ added) ∧
      added.map Write.pair = command.stored?.toList.map Records.stored ∧
      (command.stored?.isSome = true →
        (execute connection host command timestamp).1.1 = "Ok\n") := by
  unfold execute Command.stored?
  cases asked : command.request with
  | error fault =>
      refine ⟨[], ?_, rfl, nofun⟩
      rw [List.append_nil]
      exact alone
  | ok request =>
      obtain ⟨response, after, added, answered, still, isAdded, succeeds⟩ :=
        alone.answer request timestamp few
      simp only [answered]
      refine ⟨added, still, isAdded, fun stores => ?_⟩
      rw [succeeds stores]
      cases request <;> rfl

theorem execute_read (alone : connection.Alone host path home writes) {key : String} {row : Row}
    (fits : row.Fits) (many : row.length = connection.fieldCount)
    (last : lastValue (writes.map Write.pair) (Utf8.encode key) = some row.bytes)
    (timestamp : UInt64) :
    (execute connection host (.read key none) timestamp).1.1 = "Ok\n" ++ showRow key row := by
  have asked : (Command.read key none).request = .ok (.read key none) := rfl
  simp only [execute, asked, alone.answer_read fits many last]
  rfl

/-- A run that opens the store prints what its command prints over a connection to it. -/
theorem run_of_opens (resting : Resting path home files writes)
    (opens : invocation.Opens files path fieldCount) (timestamp : UInt64)
    (few : writes.length + 1 < wordMax) :
    ∃ connection host added, connection.Alone host path home writes ∧
      connection.fieldCount = fieldCount ∧
      (run invocation files timestamp).1.output =
        (execute connection host invocation.command timestamp).1.1 ∧
      Resting path home (run invocation files timestamp).2 (writes ++ added) ∧
      added.map Write.pair = invocation.command.stored?.toList.map Records.stored := by
  obtain ⟨⟨properties, meter, settings, options, given, metered, set, valid, rfl, rfl⟩, database⟩ :=
    opens
  have begun : Resting options.path home (Clients.start files).host.world writes := resting
  obtain ⟨connection, host, established, slot, fields, alone⟩ :=
    begun.establish valid (Registry.idle_start files)
  obtain ⟨added, executed, isAdded, _⟩ :=
    execute_alone alone invocation.command timestamp few
  obtain ⟨closed, left, closing, idle, rests⟩ := executed.close
  rw [slot] at idle
  have created := (Registry.create_store database set (Clients.start files).host).trans established
  refine ⟨connection, host, added, alone, fields, ?_, ?_, isAdded⟩
  · simp only [run, given, metered, runWith, Registry.standard_eq, created, closing]
    split <;> rfl
  · have world : (run invocation files timestamp).2 = left.world := by
      simp only [run, given, metered, runWith, Registry.standard_eq, created, closing]
      rw [Registry.world_abandon idle]
    rw [world]
    exact rests

/-- A run that does not open the store leaves the files alone. -/
theorem run_unopened (shut : ∀ path fieldCount, ¬ invocation.Opens files path fieldCount)
    (timestamp : UInt64) : (run invocation files timestamp).2 = files := by
  have idle := Registry.idle_start files
  have untouched := Registry.world_abandon idle
  cases given : propertiesOf invocation files with
  | error fault => simp only [run, given]
  | ok properties =>
      cases metered : Meter.ofProperties properties with
      | error fault => simp only [run, given, metered]
      | ok meter =>
          simp only [run, given, metered, runWith, Registry.standard_eq]
          by_cases database : invocation.database = Registry.storeName
          · rw [Registry.create, database, Dictionary.find?_set_self]
            cases set : Settings.ofProperties properties with
            | error fault => exact untouched
            | ok settings =>
                cases valid : settings.tableOptions with
                | error fault =>
                    simp only [Connection.establish_refused idle valid]
                    exact untouched
                | ok options =>
                    exact absurd ⟨⟨properties, meter, settings, options, given, metered, set, valid,
                      rfl, rfl⟩, database⟩ (shut options.path settings.fieldCount)
          · rw [Registry.create, Dictionary.find?_set, if_neg database]
            exact untouched

/-- If the run opens a store at all, then the one at the path. -/
def Invocation.Concerns (invocation : Invocation) (path : String) (files : FileSystem) : Prop :=
  ∀ other fieldCount, invocation.Opens files other fieldCount → other = path

theorem Invocation.Opens.concerns (opens : invocation.Opens files path fieldCount) :
    invocation.Concerns path files := by
  rintro other count ⟨⟨_, _, _, _, givenAgain, _, setAgain, validAgain, rfl, _⟩, _⟩
  obtain ⟨⟨properties, meter, settings, options, given, _, set, valid, rfl, _⟩, _⟩ := opens
  cases given.symm.trans givenAgain
  cases set.symm.trans setAgain
  cases valid.symm.trans validAgain
  rfl

theorem run_resting (resting : Resting path home files writes)
    (concerns : invocation.Concerns path files) (timestamp : UInt64)
    (few : writes.length + 1 < wordMax) :
    ∃ added, Resting path home (run invocation files timestamp).2 (writes ++ added) ∧
      (added.map Write.pair).Sublist
        (invocation.command.stored?.toList.map Records.stored) := by
  by_cases opens : ∃ other fieldCount, invocation.Opens files other fieldCount
  · obtain ⟨other, fieldCount, opens⟩ := opens
    obtain rfl := concerns other fieldCount opens
    obtain ⟨_, _, added, _, _, _, rests, isAdded⟩ := run_of_opens resting opens timestamp few
    exact ⟨added, rests, isAdded ▸ List.Sublist.refl _⟩
  · have shut : ∀ other fieldCount, ¬ invocation.Opens files other fieldCount :=
      fun other fieldCount isOpen => opens ⟨other, fieldCount, isOpen⟩
    refine ⟨[], ?_, List.nil_sublist _⟩
    rw [run_unopened shut, List.append_nil]
    exact resting

end CommandLine

end RowStore
