import RowStore.Proofs.Table.History

namespace RowStore

open FileSystem

variable {path : String} {home : Location} {files : FileSystem} {events : List Event}
  {table : Table} {settled : List Write} {flushed held logged : List LogEntry}

/-- A table answers as the last write of every key says. -/
structure Table.Answers (table : Table) (writes : List Write) : Prop where
  find? : ∀ key, table.find? key = lastValue (writes.map Write.pair) key
  /-- A cursor driven to its end from a key on finds the entries from that key on. -/
  yields : ∀ start,
    Cursor.Yields table.contents (Cursor.startingAt start) (table.entriesFrom start)
  ascending : ∀ start, Ascending (table.entriesFrom start)
  mem_iff : ∀ start key value, (key, value) ∈ table.entriesFrom start ↔
    ¬ key < start ∧ lastValue (writes.map Write.pair) key = some value
  count : table.contents.count = (writes.map Write.key).toFinset.card

theorem Coupled.answers (coupled : Coupled table files home settled flushed held) :
    table.Answers (settled ++ (flushed ++ held).map LogEntry.write) where
  find? key := by
    change table.contents.map.find? key = _
    rw [coupled.contents, find?_mapAfter]
  yields start := Cursor.yields_entriesFrom table.contents start
  ascending start := OrderedMap.ascending_entriesFrom table.contents.map start
  mem_iff start key value := by
    change (key, value) ∈ table.contents.map.entriesFrom start ↔ _
    rw [OrderedMap.mem_entriesFrom_iff, ← OrderedMap.find?_eq_some_iff, coupled.contents,
      find?_mapAfter]
  count := by
    change table.contents.map.count = _
    rw [coupled.contents, mapAfter, OrderedMap.count_empty_insertAll, List.map_map]
    rfl

theorem Lifetime.InStep.answers {life : Lifetime} (inStep : InStep path home life)
    (isOpen : life.table = some table) : table.Answers life.writes := by
  obtain ⟨flushed, held, _, recent, coupled⟩ := inStep.follows.inUse isOpen
  have answers := coupled.answers
  rw [recent] at answers
  exact answers

/-- Whatever checkpoints have been made or have failed on the way, every opening and every write
succeeds, and an open table answers as all writes so far say. -/
theorem Lifetime.run_answers_last_writes (history : IsHistory path home files events) :
    (run path files events).table.isSome = (Outline.ofEvents events).isOpen ∧
    ((run path files events).table = none → ∀ pages strategy, ∃ table opened,
      (Table.openAt { path, pages, strategy }).perform (run path files events).files =
        (.ok table, opened)) ∧
    ∀ table, (run path files events).table = some table →
      table.Answers (Outline.ofEvents events).writes ∧
      ∀ write : Write, write.Fits → (Outline.ofEvents events).writes.length + 1 < wordMax →
        ∃ next after,
          (table.put write.key write.value write.timestamp).perform (run path files events).files =
            (.ok next, after) := by
  have follows := run_follows history
  refine ⟨follows.isOpen, fun closed pages strategy => ?_, fun table isOpen => ⟨?_, ?_⟩⟩
  · obtain ⟨logged, _, rests⟩ := follows.atRest closed
    obtain ⟨table, opened, opening, _⟩ :=
      AtRest.openAt_perform { path, pages, strategy } rests
    exact ⟨table, opened, opening⟩
  · obtain ⟨flushed, held, _, recent, coupled⟩ := follows.inUse isOpen
    have answers := coupled.answers
    rw [recent] at answers
    exact follows.writes ▸ answers
  · intro write fits room
    obtain ⟨flushed, held, _, recent, coupled⟩ := follows.inUse isOpen
    rw [← follows.length_eq recent] at room
    obtain ⟨next, after, _, _, putting, _⟩ := coupled.put_perform fits room
    exact ⟨next, after, putting⟩

/-- A key written again after a checkpoint that failed, and another one after reopening. -/
def rewrittenHistory : List Event :=
  [.openTable 1 (.everyEntries 3), .put ⟨[107], [49], 0⟩, .obstruct, .checkpoint, .clear,
    .put ⟨[107], [50], 0⟩, .close, .openTable 0 .everyWrite, .put ⟨[], [], 0⟩]

theorem rewrittenHistory_isHistory : Lifetime.IsHistory "" [] empty rewrittenHistory where
  vacant := emptyDirectory_empty
  fit := Event.fit_of_writes (by decide)
  few := by decide

theorem Lifetime.run_answers_last_writes_rewritten :
    IsHistory "" [] empty rewrittenHistory ∧
    ∃ table, (run "" empty rewrittenHistory).table = some table ∧
      table.find? [107] = some [50] ∧ table.find? [] = some [] ∧ table.contents.count = 2 := by
  have history := rewrittenHistory_isHistory
  obtain ⟨opens, _, answers⟩ := run_answers_last_writes history
  obtain ⟨table, isOpen⟩ := Option.isSome_iff_exists.mp opens
  obtain ⟨answer, _⟩ := answers table isOpen
  refine ⟨history, table, isOpen, ?_, ?_, ?_⟩
  · rw [answer.find?]
    decide
  · rw [answer.find?]
    decide
  · rw [answer.count]
    decide

/-- The log in its file and the bytes held back are the frames of the writes since the last
checkpoint, numbered up to the next number. The contents in memory are the snapshot, in ascending
order, overwritten by those writes, and the dirty bytes are theirs. -/
theorem Lifetime.run_couples_log_and_contents (history : IsHistory path home files events)
    (isOpen : (run path files events).table = some table) :
    (run path files events).settled ++ (run path files events).recent =
      (Outline.ofEvents events).writes ∧
    ∃ logged : List LogEntry, logged.map LogEntry.write = (run path files events).recent ∧
      (∃ bytes frames, (run path files events).files.read table.options.logPath = .ok bytes ∧
        logged.mapM LogEntry.frame = .ok frames ∧
        bytes ++ table.log.buffer.held = frames.flatten) ∧
      (logged.length < table.log.nextLsn.toNat ∧
        logged.map (fun entry => entry.lsn.toNat) =
          List.range' (table.log.nextLsn.toNat - logged.length) logged.length) ∧
      (∃ saved, (Table.loadSnapshot table.options.snapshotPath).perform
          (run path files events).files = (.ok saved, (run path files events).files) ∧
        Ascending saved ∧
        table.contents.map = (OrderedMap.empty.insertAll saved).insertAll
          ((run path files events).recent.map Write.pair)) ∧
      table.dirty = total Write.weight (run path files events).recent := by
  have follows := run_follows history
  obtain ⟨flushed, held, _, recent, coupled⟩ := follows.inUse isOpen
  obtain ⟨first, positive, _, consecutive, next⟩ := coupled.numbered
  have framing := LogEntry.mapM_frame coupled.loggedFit
  have loading := Table.loadSnapshot_perform coupled.directory coupled.saved coupled.settledFit
    coupled.durable.few
  have reading := coupled.directory.read_join TableOptions.logName_isName coupled.log.named
  refine ⟨follows.writes, flushed ++ held, recent, ⟨_, _, reading, framing, ?_⟩, ⟨by omega, ?_⟩,
    ⟨_, loading, (mapAfter _).ascending, ?_⟩, ?_⟩
  · rw [coupled.log.content, coupled.log.buffer, ← LogEntry.frames_append, LogEntry.frames,
      List.flatMap]
  · have begins : table.log.nextLsn.toNat - (flushed ++ held).length = first := by omega
    rw [begins]
    exact consecutive
  · rw [OrderedMap.empty_insertAll_entries, ← mapAfter_append, ← recent]
    exact coupled.contents
  · rw [coupled.dirty, ← recent, total_weight_write]

theorem Lifetime.run_couples_log_and_contents_rewritten :
    IsHistory "" [] empty rewrittenHistory ∧
    ∃ table, (run "" empty rewrittenHistory).table = some table ∧
      (run "" empty rewrittenHistory).settled ++ (run "" empty rewrittenHistory).recent =
        [⟨[107], [49], 0⟩, ⟨[107], [50], 0⟩, ⟨[], [], 0⟩] ∧
      (∃ logged : List LogEntry,
        logged.map LogEntry.write = (run "" empty rewrittenHistory).recent ∧
        logged.length < table.log.nextLsn.toNat) ∧
      table.dirty = total Write.weight (run "" empty rewrittenHistory).recent := by
  have history := rewrittenHistory_isHistory
  have opens : (run "" empty rewrittenHistory).table.isSome = true :=
    (run_follows history).isOpen
  obtain ⟨table, isOpen⟩ := Option.isSome_iff_exists.mp opens
  obtain ⟨writes, logged, recent, _, ⟨numbered, _⟩, _, dirty⟩ :=
    run_couples_log_and_contents history isOpen
  exact ⟨history, table, isOpen, writes, ⟨logged, recent, numbered⟩, dirty⟩

end RowStore
