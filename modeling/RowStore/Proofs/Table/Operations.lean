import RowStore.Proofs.Table.Coupling
import RowStore.Proofs.Table.Steps

namespace RowStore

open FileSystem

namespace Table

/-- Whether a checkpoint that may have been due has been made. -/
def isMade : Option (Except Fault SnapshotInfo) → Bool
  | some (.ok _) => true
  | _ => false

/-- Whether a write brings about a checkpoint. -/
def putSettles (table : Table) (write : Write) (files : FileSystem) : Bool :=
  let written : Disk (Option (Except Fault SnapshotInfo) × Table) := do
    (← table.record write.key write.value write.timestamp).checkpointIfDue
  match (written.perform files).1 with
  | .ok (outcome, _) => isMade outcome
  | .error _ => false

end Table

namespace Coupled

variable {files : FileSystem} {home : Location} {table : Table} {settled : List Write}
  {flushed held : List LogEntry} {write : Write}

theorem record_perform (coupled : Coupled table files home settled flushed held)
    (fits : write.Fits) (room : settled.length + (flushed ++ held).length + 1 < wordMax) :
    ∃ recorded after flushed' held',
      (table.record write.key write.value write.timestamp).perform files = (.ok recorded, after) ∧
      ChangesOnly home TableOptions.logName files after ∧
      Coupled recorded after home settled flushed' held' ∧
      recorded.options = table.options ∧ recorded.checkpointAt = table.checkpointAt ∧
      table.log.Divides (write.entry table.log.nextLsn) flushed held recorded.log flushed'
        held' := by
  obtain ⟨log, after, flushed', held', appending, changes, holds, divides⟩ :=
    LogWriter.append_perform coupled.directory coupled.log
      (rfl : write.entry table.log.nextLsn = _) (Write.fits_entry fits _)
  let recorded : Table := { table with
    log
    contents := table.contents.put write.key write.value
    dirty := table.dirty + (write.key.length + write.value.length) }
  obtain ⟨first, positive, early, consecutive, next⟩ := coupled.numbered
  have order := divides.order
  have length : (flushed' ++ held').length = (flushed ++ held).length + 1 := by
    rw [order, List.length_append, List.length_singleton]
  refine ⟨recorded, after, flushed', held', ?_, changes, ?_, rfl, rfl, divides⟩
  · simp only [Table.record, Disk.perform_bind, appending]
    rfl
  · exact {
      directory := changes.directoryAt coupled.directory
      saved := coupled.saved.of_changesOnly changes TableOptions.logName_ne_snapshotName.symm
      log := holds
      contents := by
        rw [order, List.map_append, List.map_singleton, Write.write_entry, ← List.append_assoc,
          mapAfter_append, ← coupled.contents]
        rfl
      dirty := by
        rw [order, total_append, ← coupled.dirty]
        rfl
      settledFit := coupled.settledFit
      loggedFit := by
        intro entry member
        rw [order] at member
        rcases List.mem_append.mp member with old | new
        · exact coupled.loggedFit entry old
        · exact List.mem_singleton.mp new ▸ Write.fits_entry fits _
      numbered := by
        refine ⟨first, positive, early, ?_, ?_⟩
        · rw [order]
          exact consecutive.concat next
        · have limit : table.log.nextLsn.toNat + 1 < 2 ^ 64 := by
            have wide : wordMax < 2 ^ 64 := by decide
            omega
          change log.nextLsn.toNat = _
          rw [divides.nextLsn, UInt64.toNat_add, UInt64.toNat_one, Nat.mod_eq_of_lt limit, next,
            length, Nat.add_assoc]
      bounded := by
        rw [length]
        exact room
      strategy := divides.strategy.trans coupled.strategy }

theorem writes_divided {log : LogWriter} {flushed' held' : List LogEntry} {lsn : UInt64}
    (divides : table.log.Divides (write.entry lsn) flushed held log flushed' held') :
    (flushed' ++ held').map LogEntry.write = (flushed ++ held).map LogEntry.write ++ [write] := by
  rw [divides.order, List.map_append, List.map_singleton, Write.write_entry]

theorem fewWrites (coupled : Coupled table files home settled flushed held) :
    (settled ++ (flushed ++ held).map LogEntry.write).length < wordLimit := by
  have bounded := coupled.bounded
  have limit := wordMax_lt_wordLimit
  rw [List.length_append, List.length_map]
  omega

theorem snapshotFree (coupled : Coupled table files home settled flushed held) :
    files.node? (home ++ [TableOptions.snapshotName]) ≠ some .directory := by
  rcases coupled.saved with ⟨id, found, _⟩ | ⟨absent, _⟩
  · simp [found]
  · simp [absent]

/-- Once the snapshot has its name, it holds all writes. The log is as it was. -/
theorem store_perform (coupled : Coupled table files home settled flushed held)
    (free : files.node? (home ++ [TableOptions.temporaryName]) ≠ some .directory) :
    ∃ info switched,
      (Snapshot.store table.options.snapshotPath table.contents.map.entries).perform files =
        (.ok info, switched) ∧
      switched.DirectoryAt table.options.path home ∧
      SavedAfter switched home (settled ++ (flushed ++ held).map LogEntry.write) ∧
      table.log.Holds switched home TableOptions.logName flushed held := by
  have storable := storable_mapAfter coupled.writesFit coupled.fewWrites
  obtain ⟨full, switched, changes, renames, directory, holds, storing⟩ :=
    Snapshot.store_join coupled.directory TableOptions.snapshotName_isName
      TableOptions.temporaryName_isName TableOptions.snapshotName_ne_temporaryName.symm
      table.options.temporaryName_snapshotPath coupled.snapshotFree free storable.chunks
  rw [← coupled.contents] at storing
  exact ⟨_, switched, storing, directory, Or.inl holds,
    (coupled.log.of_changesOnly changes TableOptions.logName_ne_temporaryName).of_renames renames
      TableOptions.logName_ne_snapshotName TableOptions.logName_ne_temporaryName⟩

theorem checkpoint_perform (coupled : Coupled table files home settled flushed held)
    (free : files.node? (home ++ [TableOptions.temporaryName]) ≠ some .directory) :
    ∃ info saved after, table.checkpoint.perform files = (.ok (info, saved), after) ∧
      saved.options = table.options ∧
      Coupled saved after home (settled ++ (flushed ++ held).map LogEntry.write) [] [] := by
  obtain ⟨info, switched, storing, directory, savedAfter, holds⟩ := coupled.store_perform free
  obtain ⟨after, truncating, changes, emptied⟩ := LogWriter.truncate_perform directory holds
  obtain ⟨first, positive, early, _, next⟩ := coupled.numbered
  have bounded := coupled.bounded
  refine ⟨info, table.checkpointed, after, ?_, rfl, ?_⟩
  · simp only [Table.checkpoint, Disk.perform_bind, storing, truncating]
    rfl
  · exact {
      directory := changes.directoryAt directory
      saved := savedAfter.of_changesOnly changes TableOptions.logName_ne_snapshotName.symm
      log := emptied
      contents := by
        rw [List.append_nil, List.map_nil, List.append_nil]
        exact coupled.contents
      dirty := rfl
      settledFit := coupled.writesFit
      loggedFit := by simp
      numbered := by
        refine ⟨table.log.nextLsn.toNat, by omega, ?_, rfl, rfl⟩
        rw [List.length_append, List.length_map]
        omega
      bounded := by
        rw [List.length_append, List.length_map]
        simpa using bounded
      strategy := coupled.strategy }

theorem checkpoint_refused (coupled : Coupled table files home settled flushed held)
    (blocked : files.node? (home ++ [TableOptions.temporaryName]) = some .directory) :
    table.checkpoint.perform files = (.error (.file .isDirectory), files) := by
  have refused :=
    coupled.directory.openFile_obstructed TableOptions.temporaryName_isName blocked
  rw [← table.options.temporaryName_snapshotPath] at refused
  exact Table.checkpoint_eq_error_iff.mpr (Snapshot.store_refused refused _)

theorem postponed (coupled : Coupled table files home settled flushed held) :
    Coupled table.postponed files home settled flushed held :=
  { coupled with }

theorem checkpointIfDue_perform (coupled : Coupled table files home settled flushed held) :
    ∃ outcome next after, table.checkpointIfDue.perform files = (.ok (outcome, next), after) ∧
      next.options = table.options ∧
      (Table.isMade outcome = true ∧
          Coupled next after home (settled ++ (flushed ++ held).map LogEntry.write) [] [] ∨
        Table.isMade outcome = false ∧ Coupled next after home settled flushed held) := by
  by_cases early : table.dirty < table.checkpointAt
  · refine ⟨none, table, files, ?_, rfl, Or.inr ⟨rfl, coupled⟩⟩
    simp only [Table.checkpointIfDue, early, if_true, Disk.perform_pure]
  · by_cases blocked : files.node? (home ++ [TableOptions.temporaryName]) = some .directory
    · refine ⟨some (.error (.file .isDirectory)), table.postponed, files, ?_, rfl,
        Or.inr ⟨rfl, coupled.postponed⟩⟩
      simp only [Table.checkpointIfDue, early, if_false, Disk.perform_bind, Disk.perform_attempt,
        coupled.checkpoint_refused blocked]
      rfl
    · obtain ⟨info, saved, after, checkpointing, same, savedCoupled⟩ :=
        coupled.checkpoint_perform blocked
      refine ⟨some (.ok info), saved, after, ?_, same, Or.inl ⟨rfl, savedCoupled⟩⟩
      simp only [Table.checkpointIfDue, early, if_false, Disk.perform_bind, Disk.perform_attempt,
        checkpointing]
      rfl

theorem put_perform (coupled : Coupled table files home settled flushed held)
    (fits : write.Fits) (room : settled.length + (flushed ++ held).length + 1 < wordMax) :
    ∃ next after flushed' held',
      (table.put write.key write.value write.timestamp).perform files = (.ok next, after) ∧
      next.options = table.options ∧
      (table.putSettles write files = true ∧ flushed' ++ held' = [] ∧
          Coupled next after home (settled ++ ((flushed ++ held).map LogEntry.write ++ [write]))
            flushed' held' ∨
        table.putSettles write files = false ∧
          (flushed' ++ held').map LogEntry.write = (flushed ++ held).map LogEntry.write ++ [write] ∧
          Coupled next after home settled flushed' held') := by
  obtain ⟨recorded, logged, flushed', held', recording, _, recordedCoupled, same, _, divides⟩ :=
    coupled.record_perform fits room
  obtain ⟨outcome, next, after, checkpointing, sameNext, ends⟩ :=
    recordedCoupled.checkpointIfDue_perform
  have writes := writes_divided divides
  have putting : (table.put write.key write.value write.timestamp).perform files =
      (.ok next, after) := by
    simp only [Table.put, Disk.perform_bind, recording, checkpointing, Disk.perform_pure]
  have settles : table.putSettles write files = Table.isMade outcome := by
    simp only [Table.putSettles, Disk.perform_bind, recording, checkpointing]
  rcases ends with ⟨made, nextCoupled⟩ | ⟨notMade, nextCoupled⟩
  · rw [writes] at nextCoupled
    exact ⟨next, after, [], [], putting, sameNext.trans same,
      Or.inl ⟨settles.trans made, rfl, nextCoupled⟩⟩
  · exact ⟨next, after, flushed', held', putting, sameNext.trans same,
      Or.inr ⟨settles.trans notMade, writes, nextCoupled⟩⟩

/-- Closing settles the writes if they count for any bytes. Otherwise, and if the checkpoint fails,
they stay in the log. -/
theorem close_perform (coupled : Coupled table files home settled flushed held) :
    ∃ outcome after, table.close.perform files = (outcome, after) ∧
      (outcome = .ok () ∧ table.dirty ≠ 0 ∧
          AtRest after table.options.path home
            (settled ++ (flushed ++ held).map LogEntry.write) [] ∨
        ¬ (outcome = .ok () ∧ table.dirty ≠ 0) ∧
          AtRest after table.options.path home settled (flushed ++ held)) := by
  by_cases clean : table.dirty = 0
  · exact ⟨.ok (), table.abandoned files, Table.close_clean clean files,
      Or.inr ⟨fun both => both.2 clean, coupled.abandoned⟩⟩
  · by_cases blocked : files.node? (home ++ [TableOptions.temporaryName]) = some .directory
    · exact ⟨.error (.file .isDirectory), table.abandoned files,
        Table.close_refused clean (coupled.checkpoint_refused blocked),
        Or.inr ⟨fun both => (by cases both.1), coupled.abandoned⟩⟩
    · obtain ⟨info, saved, after, checkpointing, same, savedCoupled⟩ :=
        coupled.checkpoint_perform blocked
      have atRest := savedCoupled.abandoned
      rw [same] at atRest
      exact ⟨.ok (), saved.abandoned after, Table.close_saved clean checkpointing,
        Or.inl ⟨rfl, clean, atRest⟩⟩

end Coupled

end RowStore
