import RowStore.Proofs.Table.History

namespace RowStore

open FileSystem

variable {path : String} {home : Location} {files before left : FileSystem} {events : List Event}
  {life : Lifetime} {outline : Outline} {table : Table} {settled writes : List Write}
  {flushed held logged : List LogEntry}

/-- Opening succeeds with all options and gives a map. -/
def Reopens (path : String) (files : FileSystem) (map : OrderedMap) : Prop :=
  ∀ options : TableOptions, options.path = path → ∃ table opened,
    (Table.openAt options).perform files = (.ok table, opened) ∧ table.contents.map = map

theorem Reopens.unique {map other : OrderedMap} (reopens : Reopens path files map)
    (alsoReopens : Reopens path files other) : map = other := by
  obtain ⟨table, opened, opening, contents⟩ := reopens { path, pages := 0 } rfl
  obtain ⟨_, _, alsoOpening, alsoContents⟩ := alsoReopens { path, pages := 0 } rfl
  cases opening.symm.trans alsoOpening
  exact contents.symm.trans alsoContents

theorem Durable.reopens (durable : Durable files path home settled logged) :
    Reopens path files (mapAfter (settled ++ logged.map LogEntry.write)) := by
  rintro options rfl
  obtain ⟨table, opened, opening, on⟩ := Table.openAt_perform durable
  exact ⟨table, opened, opening, on.contents⟩

/-- What is held back is all that is lost. -/
theorem Coupled.reopens_prefix (coupled : Coupled table files home settled flushed held)
    (durable : Durable left path home settled flushed)
    (isWrites : settled ++ (flushed ++ held).map LogEntry.write = writes) :
    ∃ kept, writes.length ≤ kept + table.options.strategy.window ∧
      Reopens path left (mapAfter (writes.take kept)) := by
  have lost := coupled.length_held_le
  have split : writes =
      (settled ++ flushed.map LogEntry.write) ++ held.map LogEntry.write := by
    rw [← isWrites, List.map_append, List.append_assoc]
  refine ⟨(settled ++ flushed.map LogEntry.write).length, ?_, ?_⟩
  · rw [split, List.length_append, List.length_map LogEntry.write]
    omega
  · rw [split, List.take_left]
    exact durable.reopens

namespace Lifetime

/-- The most writes that a loss of everything in memory can cost. -/
def window (life : Lifetime) : Nat :=
  match life.table with
  | none => 0
  | some table => table.options.strategy.window

/-- Where a checkpoint may begin: when it is asked for or the table is closed, and behind the record
of a write that makes one due. -/
inductive MaySave (life : Lifetime) : Table → FileSystem → List Write → Prop
  | asked {table : Table} (isOpen : life.table = some table) :
      MaySave life table life.files life.writes
  | due {table recorded : Table} {write : Write} {logged : FileSystem}
      (isOpen : life.table = some table) (fits : write.Fits)
      (few : life.writes.length + 1 < wordMax)
      (recording : (table.record write.key write.value write.timestamp).perform life.files =
        (.ok recorded, logged))
      (isDue : recorded.checkpointAt ≤ recorded.dirty) :
      MaySave life recorded logged (life.writes ++ [write])

theorem Follows.maySave (follows : Follows path home life outline)
    (saves : MaySave life table before writes) :
    ∃ settled flushed held, table.options.path = path ∧
      settled ++ (flushed ++ held).map LogEntry.write = writes ∧
      Coupled table before home settled flushed held := by
  cases saves with
  | asked isOpen =>
      obtain ⟨flushed, held, located, recent, coupled⟩ := follows.inUse isOpen
      exact ⟨life.settled, flushed, held, located, by rw [recent]; rfl, coupled⟩
  | @due table _ write _ isOpen fits few recording _ =>
      obtain ⟨flushed, held, located, recent, coupled⟩ := follows.inUse isOpen
      have room : life.settled.length + (flushed ++ held).length + 1 < wordMax := by
        rw [follows.length_eq recent, ← follows.writes]
        exact few
      obtain ⟨recorded, after, flushed', held', performed, _, recordedCoupled, same, _, divides⟩ :=
        coupled.record_perform fits room
      cases recording.symm.trans performed
      refine ⟨life.settled, flushed', held', same ▸ located, ?_, recordedCoupled⟩
      rw [Coupled.writes_divided divides, recent, ← List.append_assoc]
      rfl

/-- Whether everything in memory is lost between two operations or while a snapshot is being saved,
and whatever part of the temporary file has been written by then, opening the directory gives the
map after a first part of the writes. -/
theorem run_loses_last_writes (history : IsHistory path home files events) :
    (∃ kept,
      (Outline.ofEvents events).writes.length ≤ kept + (run path files events).window ∧
      Reopens path (run path files events).files
        (mapAfter ((Outline.ofEvents events).writes.take kept))) ∧
    ∀ table before writes, (run path files events).MaySave table before writes →
      (∀ count, Snapshot.Underway table.options.snapshotPath before
        ((Snapshot.begin table.options.snapshotPath
          (table.contents.map.entries.take count)).perform before).2) ∧
      Snapshot.Underway table.options.snapshotPath before
        ((Snapshot.prepare table.options.snapshotPath
          table.contents.map.entries).perform before).2 ∧
      ∀ left, Snapshot.Underway table.options.snapshotPath before left →
        ∃ kept, writes.length ≤ kept + table.options.strategy.window ∧
          Reopens path left (mapAfter (writes.take kept)) := by
  have follows := run_follows history
  refine ⟨?_, fun table before writes saves => ?_⟩
  · cases found : (run path files events).table with
    | none =>
        obtain ⟨logged, recent, rests⟩ := follows.atRest found
        have reopens := rests.toDurable.reopens
        rw [recent] at reopens
        refine ⟨(Outline.ofEvents events).writes.length, Nat.le_add_right _ _, ?_⟩
        rw [List.take_length, ← follows.writes]
        exact reopens
    | some table =>
        obtain ⟨flushed, held, located, recent, coupled⟩ := follows.inUse found
        have isWrites : (run path files events).settled ++
            (flushed ++ held).map LogEntry.write = (Outline.ofEvents events).writes := by
          rw [recent]
          exact follows.writes
        have durable := coupled.durable
        rw [located] at durable
        simp only [window, found]
        exact coupled.reopens_prefix durable isWrites
  · obtain ⟨settled, flushed, held, located, isWrites, coupled⟩ := follows.maySave saves
    have chunks := (storable_mapAfter coupled.writesFit coupled.fewWrites).chunks
    rw [← coupled.contents] at chunks
    refine ⟨fun count => ?_, Snapshot.underway_prepare chunks, fun left underway => ?_⟩
    · exact Snapshot.underway_begin fun entry member => chunks entry (List.mem_of_mem_take member)
    · have changes := underway.changesOnly coupled.directory TableOptions.temporaryName_isName
        table.options.temporaryName_snapshotPath
      have durable := coupled.durable.of_changesOnly changes
      rw [located] at durable
      exact coupled.reopens_prefix durable isWrites

/-- A write that an abandoned table has sent on, and two that wait for a third. -/
def waitingHistory : List Event :=
  [.openTable 1 .everyWrite, .put ⟨[107], [49], 0⟩, .abandon, .openTable 1 (.everyEntries 3),
    .put ⟨[107], [50], 0⟩, .put ⟨[106], [], 0⟩]

theorem run_loses_last_writes_waiting :
    IsHistory "" [] empty waitingHistory ∧
    (∃ kept, 3 ≤ kept + (run "" empty waitingHistory).window ∧
      Reopens "" (run "" empty waitingHistory).files
        (mapAfter ((Outline.ofEvents waitingHistory).writes.take kept))) := by
  have fit : ∀ write, Event.put write ∈ waitingHistory → write.Fits := by
    intro write member
    simp only [waitingHistory, List.mem_cons, List.not_mem_nil, reduceCtorEq, false_or, or_false,
      Event.put.injEq] at member
    rcases member with rfl | rfl | rfl <;> decide
  have history : IsHistory "" [] empty waitingHistory := ⟨emptyDirectory_empty, fit, by decide⟩
  have three : (Outline.ofEvents waitingHistory).writes.length = 3 := by decide
  obtain ⟨kept, enough, reopens⟩ := (run_loses_last_writes history).1
  rw [three] at enough
  exact ⟨history, kept, enough, reopens⟩

end Lifetime

end RowStore
