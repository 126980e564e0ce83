import RowStore.Connection
import RowStore.Proofs.Host.Serving
import RowStore.Proofs.Records

namespace RowStore

/-- The row that a request stores, if it asks for that and the row is not too long. -/
def Request.stored? : Request → Option (String × Row)
  | .insert key row | .update key row => if Records.Storable key row then some (key, row) else none
  | .read _ _ | .scan _ _ _ | .delete _ => none

theorem Request.stored?_eq_some_iff {request : Request} {key : String} {row : Row} :
    request.stored? = some (key, row) ↔
      Records.Storable key row ∧ (request = .insert key row ∨ request = .update key row) := by
  cases request with
  | read | scan | delete => simp [stored?]
  | update other stored | insert other stored =>
      by_cases storable : Records.Storable other stored
      · rw [stored?, if_pos storable]
        constructor
        · intro same
          cases same
          exact ⟨storable, by simp⟩
        · rintro ⟨-, same | same⟩ <;> cases same
          rfl
      · rw [stored?, if_neg storable]
        constructor
        · intro none
          cases none
        · rintro ⟨fits, same | same⟩ <;> cases same
          exact absurd fits storable

theorem openAt_table (options : TableOptions) (files : FileSystem) :
    Engine.openAt options files = (Table.openAt options).perform files := rfl

theorem close_table (table : Table) (files : FileSystem) :
    Engine.close table files = table.close.perform files := rfl

namespace Connection

variable {connection : Connection} {host : TableHost} {slot : SlotId} {id : EngineId}
  {owners count : Nat} {settings : Settings} {table next : Table} {files : FileSystem}
  {key : String} {row : Row} {request : Request} {response : Response} {timestamp : UInt64}

theorem establish_first {options : TableOptions} (idle : host.Idle slot owners)
    (valid : settings.tableOptions = .ok options)
    (opening : (Table.openAt options).perform host.world = (.ok table, files)) :
    ∃ id after, establish host slot settings =
        (.ok { engine := id, slot, fieldCount := settings.fieldCount }, after) ∧
      after.world = files ∧ after.Serves slot (owners + 1) id table 1 := by
  rw [← openAt_table] at opening
  obtain ⟨id, acquired, acquiring, world, serves⟩ := idle.acquire valid opening
  refine ⟨id, acquired.keepSlot slot, ?_, world, serves.keepSlot Nat.one_pos⟩
  simp only [establish, acquiring]

theorem establish_more (serves : host.Serves slot owners id table count) (settings : Settings) :
    ∃ after, establish host slot settings =
        (.ok { engine := id, slot, fieldCount := settings.fieldCount }, after) ∧
      after.world = host.world ∧ after.Serves slot (owners + 1) id table (count + 1) := by
  obtain ⟨acquired, acquiring, world, servesMore⟩ := serves.acquire settings
  refine ⟨acquired.keepSlot slot, ?_, world, servesMore.keepSlot (Nat.succ_pos _)⟩
  simp only [establish, acquiring]

theorem close_more (kept : 0 < owners)
    (serves : host.Serves connection.slot (owners + 1) connection.engine table (count + 1))
    (more : 0 < count) :
    ∃ after, connection.close host = (.ok (), after) ∧ after.world = host.world ∧
      after.Serves connection.slot owners connection.engine table count := by
  obtain ⟨released, releasing, world, servesFewer⟩ := serves.release more
  have several : 1 < (released.slotAt connection.slot).owners := by
    rw [servesFewer.slotAt]
    exact Nat.succ_lt_succ kept
  refine ⟨released.dropSlot connection.slot, ?_, ?_, servesFewer.dropSlot kept⟩
  · simp only [close, releasing]
  · rw [Host.world_dropSlot several, world]

theorem close_last {outcome : Except Fault Unit} (kept : 0 < owners)
    (serves : host.Serves connection.slot (owners + 1) connection.engine table 1)
    (closing : table.close.perform host.world = (outcome, files)) :
    ∃ after, connection.close host = (outcome, after) ∧ after.world = files ∧
      after.Idle connection.slot owners := by
  rw [← close_table] at closing
  obtain ⟨released, releasing, world, idle⟩ := serves.release_last closing
  have several : 1 < (released.slotAt connection.slot).owners := by
    rw [show released.slotAt connection.slot = _ from idle]
    exact Nat.succ_lt_succ kept
  refine ⟨released.dropSlot connection.slot, ?_, ?_, idle.dropSlot kept⟩
  · simp only [close, releasing]
  · rw [Host.world_dropSlot several, world]

theorem answer_eq (serving : host.engine? connection.engine = some table)
    (answering : (Records.answer connection.fieldCount table request timestamp).perform host.world =
      (.ok (response, next), files)) :
    connection.answer host request timestamp = (some response,
      ({ host with world := files } : TableHost).replaceEngine connection.engine next) := by
  simp only [answer, serving, answering]

theorem answer_unchanged (serving : host.engine? connection.engine = some table)
    (answering : (Records.answer connection.fieldCount table request timestamp).perform host.world =
      (.ok (response, table), host.world)) :
    connection.answer host request timestamp = (some response, host) := by
  rw [answer_eq serving answering]
  exact congrArg (some response, ·) (Host.replaceEngine_same serving)

theorem answer_read (serving : host.engine? connection.engine = some table) (key : String)
    (fields : Option (List Bytes)) (timestamp : UInt64) :
    connection.answer host (.read key fields) timestamp =
      (some (.record (Records.read connection.fieldCount table key fields)), host) :=
  answer_unchanged serving rfl

theorem answer_scan (serving : host.engine? connection.engine = some table) (start : String)
    (count : Nat) (fields : Option (List Bytes)) (timestamp : UInt64) :
    connection.answer host (.scan start count fields) timestamp =
      (some (.records (Records.scan connection.fieldCount table start count fields)), host) :=
  answer_unchanged serving rfl

theorem answer_delete (serving : host.engine? connection.engine = some table)
    (key : String) (timestamp : UInt64) :
    connection.answer host (.delete key) timestamp = (some (.done (.ok ())), host) :=
  answer_unchanged serving rfl

theorem answer_update (connection : Connection) (host : TableHost) (key : String) (row : Row)
    (timestamp : UInt64) :
    connection.answer host (.update key row) timestamp =
      connection.answer host (.insert key row) timestamp := rfl

theorem answer_unstorable (serves : host.Serves slot owners connection.engine table count)
    (unstorable : ¬ Records.Storable key row) (timestamp : UInt64) :
    ∃ fault, connection.answer host (.insert key row) timestamp =
      (some (.done (.error fault)), host) := by
  obtain ⟨fault, refused⟩ := Records.insert_refused table unstorable timestamp host.world
  refine ⟨fault, answer_unchanged serves.engine? ?_⟩
  simp only [Records.answer, Disk.perform_bind, Disk.perform_attempt, refused, Disk.perform_pure]

theorem answer_storable (serves : host.Serves slot owners connection.engine table count)
    (storable : Records.Storable key row)
    (putting : (table.put (Utf8.encode key) row.bytes timestamp).perform host.world =
      (.ok next, files)) :
    connection.answer host (.insert key row) timestamp = (some (.done (.ok ())),
      ({ host with world := files } : TableHost).replaceEngine connection.engine next) := by
  apply answer_eq serves.engine?
  simp only [Records.answer, Records.insert_eq_put storable, Disk.perform_bind,
    Disk.perform_attempt, putting, Disk.perform_pure]

theorem answer_of_stored?_none (serves : host.Serves slot owners connection.engine table count)
    (stores : request.stored? = none) (timestamp : UInt64) :
    ∃ response, connection.answer host request timestamp = (some response, host) := by
  have refused : ∀ key row, (Request.insert key row).stored? = none →
      ∃ response, connection.answer host (.insert key row) timestamp = (some response, host) := by
    intro key row stores
    have unstorable : ¬ Records.Storable key row := by
      intro storable
      rw [Request.stored?, if_pos storable] at stores
      cases stores
    obtain ⟨fault, answered⟩ := answer_unstorable serves unstorable timestamp
    exact ⟨_, answered⟩
  cases request with
  | read key fields => exact ⟨_, answer_read serves.engine? key fields timestamp⟩
  | scan start count fields => exact ⟨_, answer_scan serves.engine? start count fields timestamp⟩
  | update key row => exact refused key row stores
  | insert key row => exact refused key row stores
  | delete key => exact ⟨_, answer_delete serves.engine? key timestamp⟩

theorem answer_of_stored?_some (serves : host.Serves slot owners connection.engine table count)
    (stores : request.stored? = some (key, row))
    (putting : (table.put (Utf8.encode key) row.bytes timestamp).perform host.world =
      (.ok next, files)) :
    connection.answer host request timestamp = (some (.done (.ok ())),
      ({ host with world := files } : TableHost).replaceEngine connection.engine next) := by
  obtain ⟨storable, rfl | rfl⟩ := Request.stored?_eq_some_iff.mp stores
  · exact answer_storable serves storable putting
  · exact answer_storable serves storable putting

end Connection

end RowStore
