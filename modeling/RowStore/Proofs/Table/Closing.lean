import RowStore.Proofs.Table.Answers
import RowStore.Proofs.Table.Switch

namespace RowStore

open FileSystem

variable {path : String} {home : Location} {files : FileSystem} {events : List Event}
  {table : Table} {settled : List Write} {flushed held : List LogEntry}

/-- The log of the table is empty, and its snapshot alone holds the contents if there are any. -/
structure Table.SavedIn (table : Table) (files : FileSystem) : Prop where
  log : files.read table.options.logPath = .ok []
  snapshot : table.contents.map.entries ≠ [] → ∃ info,
    (Snapshot.load table.options.snapshotPath).perform files =
      (.ok (table.contents.map.entries, info), files)

theorem Write.weight_eq_zero_iff {write : Write} : write.weight = 0 ↔ write.pair = ([], []) := by
  rw [Write.weight, Write.pair, Nat.add_eq_zero_iff, List.length_eq_zero_iff,
    List.length_eq_zero_iff, Prod.mk.injEq]

namespace Coupled

theorem dirty_eq_zero_iff (coupled : Coupled table files home settled flushed held) :
    table.dirty = 0 ↔
      ∀ write ∈ (flushed ++ held).map LogEntry.write, write.pair = ([], []) := by
  rw [coupled.dirty, ← total_weight_write, total_eq_zero_iff]
  simp only [Write.weight_eq_zero_iff]

theorem read_log_abandoned (coupled : Coupled table files home settled flushed held) :
    (table.abandoned files).read table.options.logPath =
      .ok (LogEntry.frames (flushed ++ held)) := by
  have holds : (table.abandoned files).HoldsFile home TableOptions.logName
      (LogEntry.frames (flushed ++ held)) := coupled.log.synced.holdsFile
  obtain ⟨id, found, content⟩ := holds
  rw [TableOptions.logPath,
    coupled.abandoned.directory.read_join TableOptions.logName_isName found, content]

/-- Without a write since the last checkpoint the snapshot is all there is. -/
theorem savedIn_abandoned_iff (coupled : Coupled table files home settled flushed held) :
    table.SavedIn (table.abandoned files) ↔ flushed ++ held = [] := by
  have reading := coupled.read_log_abandoned
  constructor
  · intro saved
    exact LogEntry.frames_eq_nil_iff.mp (Except.ok.inj (reading.symm.trans saved.log))
  · intro none
    have contents := coupled.contents
    rw [none, List.map_nil, List.append_nil] at contents
    refine ⟨by rw [reading, none, LogEntry.frames_nil], fun nonempty => ?_⟩
    rw [contents] at nonempty ⊢
    rcases coupled.abandoned.saved with holds | ⟨_, rfl⟩
    · exact ⟨_, Snapshot.load_join coupled.abandoned.directory TableOptions.snapshotName_isName
        holds (storable_mapAfter coupled.settledFit coupled.durable.few)⟩
    · exact absurd rfl nonempty

theorem savedIn_checkpointed {info : SnapshotInfo} {saved : Table} {after : FileSystem}
    (checkpointing : table.checkpoint.perform files = (.ok (info, saved), after))
    (coupled : Coupled saved after home settled [] []) : table.SavedIn (saved.abandoned after) := by
  have stands := coupled.savedIn_abandoned_iff.mpr rfl
  rw [Table.checkpoint_eq_ok checkpointing] at stands ⊢
  exact ⟨stands.log, stands.snapshot⟩

theorem close_leaves (coupled : Coupled table files home settled flushed held) :
    ∃ outcome after, table.close.perform files = (outcome, after) ∧
      (outcome = .ok () ↔ table.dirty = 0 ∨
        files.node? (home ++ [TableOptions.temporaryName]) ≠ some .directory) ∧
      (table.SavedIn after ↔ flushed ++ held = [] ∨ outcome = .ok () ∧ table.dirty ≠ 0) ∧
      (table.SavedIn after ∨
        after.read table.options.logPath = .ok (LogEntry.frames (flushed ++ held))) := by
  by_cases clean : table.dirty = 0
  · refine ⟨.ok (), table.abandoned files, Table.close_clean clean files, by simp [clean], ?_,
      Or.inr coupled.read_log_abandoned⟩
    rw [coupled.savedIn_abandoned_iff]
    simp [clean]
  · by_cases blocked : files.node? (home ++ [TableOptions.temporaryName]) = some .directory
    · refine ⟨_, _, Table.close_refused clean (coupled.checkpoint_refused blocked),
        by simp [clean, blocked], ?_, Or.inr coupled.read_log_abandoned⟩
      rw [coupled.savedIn_abandoned_iff]
      simp
    · obtain ⟨info, saved, after, checkpointing, _, savedCoupled⟩ :=
        coupled.checkpoint_perform blocked
      have stands := savedIn_checkpointed checkpointing savedCoupled
      exact ⟨.ok (), saved.abandoned after, Table.close_saved clean checkpointing,
        by simp [blocked], by simp [stands, clean], Or.inl stands⟩

end Coupled

namespace Lifetime

/-- A closing succeeds if no directory stands in the way of the snapshot or if there is nothing but
empty writes to save. It leaves everything in the snapshot and nothing in the log exactly if there
has been no write since the last checkpoint or if it succeeds and one of them was not empty; else it
leaves these writes in the log. -/
theorem close_saves_iff (history : IsHistory path home files events)
    (isOpen : (run path files events).table = some table) :
    ∃ outcome after, table.close.perform (run path files events).files = (outcome, after) ∧
      (outcome = .ok () ↔
        (∀ write ∈ (run path files events).recent, write.pair = ([], [])) ∨
        (run path files events).files.node? (home ++ [TableOptions.temporaryName]) ≠
          some .directory) ∧
      (table.SavedIn after ↔ (run path files events).recent = [] ∨
        outcome = .ok () ∧ ∃ write ∈ (run path files events).recent, write.pair ≠ ([], [])) ∧
      (table.SavedIn after ∨ ∃ logged : List LogEntry,
        logged.map LogEntry.write = (run path files events).recent ∧
        after.read table.options.logPath = .ok (LogEntry.frames logged)) := by
  obtain ⟨flushed, held, _, recent, coupled⟩ := (run_follows history).inUse isOpen
  obtain ⟨outcome, after, closing, succeeds, saves, leaves⟩ := coupled.close_leaves
  have clean := coupled.dirty_eq_zero_iff
  rw [recent] at clean
  have noWrite : flushed ++ held = [] ↔ (run path files events).recent = [] := by
    rw [← recent, List.map_eq_nil_iff]
  have weighty : table.dirty ≠ 0 ↔
      ∃ write ∈ (run path files events).recent, write.pair ≠ ([], []) := by
    rw [Ne, clean]
    push Not
    rfl
  rw [clean] at succeeds
  rw [noWrite, weighty] at saves
  exact ⟨outcome, after, closing, succeeds, saves,
    leaves.imp_right fun reading => ⟨flushed ++ held, recent, reading⟩⟩

def emptyWrite : Write := ⟨[], [], 0⟩

def emptyWriteHistory : List Event :=
  [.openTable 4 .everyWrite, .put emptyWrite]

theorem emptyWriteHistory_isHistory : IsHistory "" [] empty emptyWriteHistory where
  vacant := emptyDirectory_empty
  fit := Event.fit_of_writes (by decide)
  few := by decide

/-- The closing succeeds, and the one write is in the log and not in the snapshot. -/
theorem close_saves_iff_emptyWrite :
    IsHistory "" [] empty emptyWriteHistory ∧
    ∃ table after lsn, (run "" empty emptyWriteHistory).table = some table ∧
      table.contents.count = 1 ∧
      table.close.perform (run "" empty emptyWriteHistory).files = (.ok (), after) ∧
      ¬ table.SavedIn after ∧
      after.read table.options.logPath = .ok (LogEntry.framed (emptyWrite.entry lsn).payload) := by
  have history := emptyWriteHistory_isHistory
  have written := (unsaved_open emptyDirectory_empty .everyWrite).put_due ""
    (by decide : emptyWrite.Fits) (by decide) (by decide) rfl
  obtain ⟨table, _, _, isOpen, free, _, _, _, recent, _⟩ := written
  have isRecent : (run "" empty emptyWriteHistory).recent = [emptyWrite] := recent
  obtain ⟨outcome, after, closing, succeeds, saves, leaves⟩ := close_saves_iff history isOpen
  obtain rfl := succeeds.mpr (Or.inr free)
  have unsaved : ¬ table.SavedIn after := by
    rw [saves, isRecent]
    simp [emptyWrite, Write.pair]
  obtain ⟨logged, isLogged, reading⟩ := leaves.resolve_left unsaved
  rw [isRecent] at isLogged
  obtain ⟨entry, rfl, same⟩ := List.map_eq_singleton_iff.mp isLogged
  have isEntry : emptyWrite.entry entry.lsn = entry := by
    rw [← same]
    rfl
  have answers := (run_follows history).inStep.answers isOpen
  rw [(run_follows history).writes] at answers
  rw [LogEntry.frames_singleton, ← isEntry] at reading
  refine ⟨history, table, after, entry.lsn, isOpen, ?_, closing, unsaved, reading⟩
  rw [answers.count]
  decide

end Lifetime

end RowStore
