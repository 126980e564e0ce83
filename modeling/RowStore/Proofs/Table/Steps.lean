import RowStore.Proofs.Log.Storage
import RowStore.Table

namespace RowStore

namespace Table

variable {table next : Table} {key value : Bytes} {timestamp : UInt64} {files after : FileSystem}
  {info : SnapshotInfo} {outcome : Option (Except Fault SnapshotInfo)} {options : TableOptions}

/-- The table that begins with the pairs of a snapshot and goes on with the entries of a log. -/
def restored (options : TableOptions) (saved : List (Bytes × Bytes)) (logged : List LogEntry)
    (log : LogWriter) : Table where
  options
  contents := (Contents.empty.putAll saved).putAll
    (logged.map fun entry => (entry.key, entry.value))
  log
  dirty := total LogEntry.weight logged
  checkpointAt := options.poolBytes

theorem openAt_restored {made loaded replayed : FileSystem} {saved : List (Bytes × Bytes)}
    {logged : List LogEntry} {log : LogWriter} {nextLsn : UInt64}
    (making : files.makeDirectories options.path = (.ok (), made))
    (loading : (loadSnapshot options.snapshotPath).perform made = (.ok saved, loaded))
    (replaying : (replayLog options.logPath).perform loaded = (.ok (logged, nextLsn), replayed))
    (opening : (LogWriter.openAt options.logPath options.strategy nextLsn).perform replayed =
      (.ok log, after)) :
    (openAt options).perform files = (.ok (restored options saved logged log), after) := by
  simp only [openAt, Disk.perform_bind, Disk.perform_makeDirectories, making, loading, replaying,
    opening]
  rfl

/-- A table that has been opened comes of its snapshot and its log. -/
theorem exists_of_openAt (opening : (openAt options).perform files = (.ok table, after)) :
    ∃ made loaded replayed saved logged nextLsn log,
      (loadSnapshot options.snapshotPath).perform made = (.ok saved, loaded) ∧
      (replayLog options.logPath).perform loaded = (.ok (logged, nextLsn), replayed) ∧
      (LogWriter.openAt options.logPath options.strategy nextLsn).perform replayed =
        (.ok log, after) ∧
      table = restored options saved logged log := by
  obtain ⟨_, made, _, loading⟩ := Disk.exists_of_perform_bind opening
  obtain ⟨saved, loaded, reading, replaying⟩ := Disk.exists_of_perform_bind loading
  obtain ⟨⟨logged, nextLsn⟩, replayed, recovering, openingLog⟩ :=
    Disk.exists_of_perform_bind replaying
  obtain ⟨log, _, logOpened, finishing⟩ := Disk.exists_of_perform_bind openingLog
  cases finishing
  exact ⟨made, loaded, replayed, saved, logged, nextLsn, log, reading, recovering, logOpened, rfl⟩

/-- A table that has just been opened holds nothing back, so that giving it up does nothing. -/
theorem abandoned_openAt (opening : (openAt options).perform files = (.ok table, after)) :
    table.abandoned after = after := by
  obtain ⟨_, _, _, _, _, _, log, _, _, openingLog, rfl⟩ := exists_of_openAt opening
  obtain ⟨id, _, _, returning⟩ := Disk.exists_of_perform_bind openingLog
  cases returning
  rfl

/-- The table once its contents are saved and its log is empty. -/
def checkpointed (table : Table) : Table :=
  { table with log := table.log.synced, dirty := 0, checkpointAt := table.options.poolBytes }

/-- The table with a write in its contents that is in the log already. -/
def recorded (table : Table) (key value : Bytes) (log : LogWriter) : Table :=
  { table with
    log
    contents := table.contents.put key value
    dirty := table.dirty + (key.length + value.length) }

theorem checkpoint_stored
    (storing : (Snapshot.store table.options.snapshotPath table.contents.map.entries).perform files =
      (.ok info, after)) :
    table.checkpoint.perform files =
      (.ok (info, table.checkpointed), (table.log.flushed after).resize table.log.file 0) := by
  simp only [checkpoint, Disk.perform_bind, storing]
  rfl

/-- A checkpoint fails if its snapshot cannot be saved, and only then. The rest of it, which is what
changes the table, is not come to. -/
theorem checkpoint_eq_error_iff {fault : Fault} :
    table.checkpoint.perform files = (.error fault, after) ↔
      (Snapshot.store table.options.snapshotPath table.contents.map.entries).perform files =
        (.error fault, after) := by
  rcases storing : (Snapshot.store table.options.snapshotPath table.contents.map.entries).perform
    files with ⟨outcome, left⟩
  cases outcome with
  | error found => simp [checkpoint, Disk.perform_bind, storing]
  | ok info => simp [checkpoint_stored storing]

theorem checkpoint_eq_ok
    (checkpointing : table.checkpoint.perform files = (.ok (info, next), after)) :
    next = table.checkpointed := by
  obtain ⟨_, switched, _, truncating⟩ := Disk.exists_of_perform_bind checkpointing
  cases truncating
  rfl

/-- A checkpoint that may be due has not been due, or has been made, or has been put off. -/
theorem checkpointIfDue_eq_ok
    (checkpointing : table.checkpointIfDue.perform files = (.ok (outcome, next), after)) :
    (table.dirty < table.checkpointAt ∧ outcome = none ∧ next = table ∧ after = files) ∨
      ¬ table.dirty < table.checkpointAt ∧
        ((∃ info, table.checkpoint.perform files = (.ok (info, next), after) ∧
            outcome = some (.ok info)) ∨
          ∃ fault, table.checkpoint.perform files = (.error fault, after) ∧
            outcome = some (.error fault) ∧ next = table.postponed) := by
  rw [checkpointIfDue] at checkpointing
  split at checkpointing
  · rename_i early
    cases checkpointing
    exact Or.inl ⟨early, rfl, rfl, rfl⟩
  · rename_i isDue
    obtain ⟨tried, reached, attempting, settling⟩ := Disk.exists_of_perform_bind checkpointing
    rw [Disk.perform_attempt] at attempting
    cases result : table.checkpoint.perform files with
    | mk ending left =>
        simp only [result, Prod.mk.injEq, Except.ok.injEq] at attempting
        obtain ⟨rfl, rfl⟩ := attempting
        refine Or.inr ⟨isDue, ?_⟩
        cases ending with
        | error fault =>
            cases settling
            exact Or.inr ⟨fault, rfl, rfl, rfl⟩
        | ok saved =>
            cases settling
            exact Or.inl ⟨saved.1, rfl, rfl⟩

theorem put_eq_ok
    (putting : (table.put key value timestamp).perform files = (.ok next, after)) :
    ∃ lsn log logged outcome,
      (table.log.append key value timestamp).perform files = (.ok (lsn, log), logged) ∧
      (table.recorded key value log).checkpointIfDue.perform logged =
        (.ok (outcome, next), after) := by
  rw [put] at putting
  obtain ⟨recorded, logged, recording, further⟩ := Disk.exists_of_perform_bind putting
  obtain ⟨⟨outcome, saved⟩, left, checkpointing, finishing⟩ := Disk.exists_of_perform_bind further
  rw [record] at recording
  obtain ⟨⟨lsn, log⟩, _, appending, joining⟩ := Disk.exists_of_perform_bind recording
  cases finishing
  cases joining
  exact ⟨lsn, log, logged, outcome, appending, checkpointing⟩

theorem close_clean (clean : table.dirty = 0) (files : FileSystem) :
    table.close.perform files = (.ok (), table.abandoned files) := by
  simp only [close, clean, if_true, Disk.perform_bind, Disk.perform_pure, LogWriter.sync_perform]
  rfl

theorem close_saved (dirty : table.dirty ≠ 0)
    (checkpointing : table.checkpoint.perform files = (.ok (info, next), after)) :
    table.close.perform files = (.ok (), next.abandoned after) := by
  simp only [close, dirty, if_false, Disk.perform_bind, Disk.perform_attempt, checkpointing,
    LogWriter.sync_perform, Disk.perform_pure]
  rfl

theorem close_refused {fault : Fault} (dirty : table.dirty ≠ 0)
    (refused : table.checkpoint.perform files = (.error fault, after)) :
    table.close.perform files = (.error fault, table.abandoned after) := by
  simp only [close, dirty, if_false, Disk.perform_bind, Disk.perform_attempt, refused,
    Disk.perform_modify, Disk.perform_fail]

theorem contents_checkpoint
    (checkpointing : table.checkpoint.perform files = (.ok (info, next), after)) :
    next.contents = table.contents := by
  rw [checkpoint_eq_ok checkpointing, checkpointed]

theorem contents_put
    (putting : (table.put key value timestamp).perform files = (.ok next, after)) :
    next.contents = table.contents.put key value := by
  obtain ⟨_, log, logged, outcome, _, checkpointing⟩ := put_eq_ok putting
  rcases checkpointIfDue_eq_ok checkpointing with
    ⟨_, _, rfl, _⟩ | ⟨_, ⟨info, made, _⟩ | ⟨_, _, _, rfl⟩⟩
  · rfl
  · exact contents_checkpoint made
  · rfl

end Table

end RowStore
