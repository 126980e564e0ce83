import RowStore.Proofs.Connection.History

namespace RowStore

open FileSystem Records

/-- A connection through which the rows stored so far are seen and more can be stored. -/
structure Connection.Reflects (connection : Connection) (host : TableHost)
    (rows : List (String × Row)) : Prop where
  read : ∀ key timestamp, connection.answer host (.read key none) timestamp =
    (some (.record (inFull connection.fieldCount (latest rows key))), host)
  insert : ∀ key row timestamp, Storable key row → rows.length + 1 < wordMax →
    (connection.answer host (.insert key row) timestamp).1 = some (.done (.ok ()))
  refused : ∀ key row timestamp, ¬ Storable key row →
    ∃ fault, connection.answer host (.insert key row) timestamp =
      (some (.done (.error fault)), host)
  update : ∀ key row timestamp, connection.answer host (.update key row) timestamp =
    connection.answer host (.insert key row) timestamp
  delete : ∀ key timestamp, connection.answer host (.delete key) timestamp =
    (some (.done (.ok ())), host)

namespace Clients

variable {path : String} {home : Location} {clients : Clients} {life : Lifetime}
  {outline : ClientOutline} {client : Nat} {connection : Connection} {table : Table}
  {files : FileSystem} {events : List ClientEvent}

theorem InStep.find?_eq (inStep : InStep path home clients life outline)
    (isOpen : life.table = some table) (key : Bytes) :
    table.find? key = lastValue (outline.rows.map stored) key := by
  rw [(inStep.inStep.answers isOpen).find?, inStep.rows]

theorem InStep.reflects (inStep : InStep path home clients life outline)
    (found : clients.connections.find? client = some connection) :
    connection.Reflects clients.host outline.rows := by
  obtain ⟨table, isOpen, files, serves, _⟩ := inStep.inUse found
  have holds := inStep.find?_eq isOpen
  exact {
    read := fun key timestamp => by
      rw [Connection.answer_read serves.engine?, read_eq_inFull holds inStep.storable]
    insert := fun key row timestamp storable few => by
      obtain ⟨next, after, putting, _⟩ :=
        inStep.putting isOpen files storable timestamp few
      rw [Connection.answer_storable serves storable putting]
    refused := fun key row timestamp unstorable =>
      Connection.answer_unstorable serves unstorable timestamp
    update := fun key row timestamp => connection.answer_update clients.host key row timestamp
    delete := fun key timestamp => Connection.answer_delete serves.engine? key timestamp }

theorem Bound.references (bound : Bound path clients life) :
    clients.host.references slot = clients.connections.size ∧
      ((clients.host.held slot).isSome = true ↔ 0 < clients.connections.size) := by
  cases bound with
  | atRest nobody idle _ _ =>
      rw [idle.references, idle.held, nobody]
      exact ⟨rfl, by simp⟩
  | inUse id table someone serves _ _ _ =>
      rw [serves.references, serves.holds]
      exact ⟨rfl, by simpa using someone⟩

/-- The engine is open exactly while clients are connected. Every client that is to be connected is,
and reads what was stored last, by whichever client, with the number of fields that it expects. -/
theorem run_reads_latest_rows (history : IsHistory path home files events) :
    (run files events).host.references slot = (run files events).connections.size ∧
    (((run files events).host.held slot).isSome = true ↔
      0 < (run files events).connections.size) ∧
    ∀ client fieldCount,
      (ClientOutline.ofEvents events).expected.find? client = some fieldCount →
      ∃ connection, (run files events).connections.find? client = some connection ∧
        connection.fieldCount = fieldCount ∧
        connection.Reflects (run files events).host (ClientOutline.ofEvents events).rows := by
  obtain ⟨life, inStep⟩ := run_inStep history
  obtain ⟨counted, isOpen⟩ := inStep.bound.references
  refine ⟨counted, isOpen, fun client fieldCount connected => ?_⟩
  rw [inStep.expected, Option.map_eq_some_iff] at connected
  obtain ⟨connection, found, sameCount⟩ := connected
  exact ⟨connection, found, sameCount, inStep.reflects found⟩

def dbDirectory : FileSystem :=
  { empty with nodes := Dictionary.empty.set ["db"] .directory }

private theorem steps_db : Path.steps "db" = ["db"] := by decide

theorem makeDirectories_db : empty.makeDirectories "db" = (.ok (), dbDirectory) := by
  rw [makeDirectories, steps_db, List.reverse_singleton, makeDirectoriesReversed]
  rfl

theorem dbDirectory_emptyDirectory : dbDirectory.EmptyDirectory "db" ["db"] where
  leads := by
    rw [LeadsTo, steps_db]
    rfl
  empty name := by
    have below : ["db"] ++ [name] ≠ ["db"] := by simp
    rw [node?_append, dbDirectory, Dictionary.find?_set, if_neg below]
    rfl

/-- Two clients write the same row and leave. Two others come after them. -/
def twoGenerations : List ClientEvent :=
  let single : Settings := { path := some "db", poolSize := 4096, fieldCount := 1 }
  let double : Settings :=
    { path := some "db", poolSize := 8192, strategy := .everyEntries 3, fieldCount := 2 }
  [.establish 1 single, .establish 2 double,
    .call 1 (.insert "k" [⟨[97], [49]⟩]) 0, .call 2 (.update "k" [⟨[97], [50]⟩, ⟨[98], []⟩]) 1,
    .call 1 (.delete "k") 2, .close 1, .close 2, .establish 3 double, .establish 4 single]

theorem twoGenerations_isHistory : IsHistory "db" ["db"] empty twoGenerations where
  vacant := ⟨dbDirectory, makeDirectories_db, dbDirectory_emptyDirectory⟩
  valid client settings member := by
    simp only [twoGenerations, List.mem_cons, List.not_mem_nil, reduceCtorEq, false_or, or_false,
      ClientEvent.establish.injEq] at member
    rcases member with ⟨-, rfl⟩ | ⟨-, rfl⟩ | ⟨-, rfl⟩ | ⟨-, rfl⟩ <;> decide
  few := by decide

theorem run_reads_latest_rows_generations :
    IsHistory "db" ["db"] empty twoGenerations ∧
    ∃ third fourth, (run empty twoGenerations).connections.find? 3 = some third ∧
      (run empty twoGenerations).connections.find? 4 = some fourth ∧
      third.answer (run empty twoGenerations).host (.read "k" none) 3 =
        (some (.record (.ok (some [⟨[97], [50]⟩, ⟨[98], []⟩]))), (run empty twoGenerations).host) ∧
      third.answer (run empty twoGenerations).host (.read "x" none) 3 =
        (some (.record (.ok none)), (run empty twoGenerations).host) ∧
      fourth.answer (run empty twoGenerations).host (.read "k" none) 3 =
        (some (.record (.error (.fieldCount 1 2))), (run empty twoGenerations).host) := by
  have history := twoGenerations_isHistory
  obtain ⟨_, _, connected⟩ := run_reads_latest_rows history
  obtain ⟨third, foundThird, expectsTwo, reflectsThird⟩ := connected 3 2 (by decide)
  obtain ⟨fourth, foundFourth, expectsOne, reflectsFourth⟩ := connected 4 1 (by decide)
  have last : latest (ClientOutline.ofEvents twoGenerations).rows "k" =
      some [⟨[97], [50]⟩, ⟨[98], []⟩] := by decide
  have never : latest (ClientOutline.ofEvents twoGenerations).rows "x" = none := by decide
  refine ⟨history, third, fourth, foundThird, foundFourth, ?_, ?_, ?_⟩
  · rw [reflectsThird.read, last, expectsTwo]
    rfl
  · rw [reflectsThird.read, never]
    rfl
  · rw [reflectsFourth.read, last, expectsOne]
    rfl

end Clients

end RowStore
