import RowStore.Proofs.Table.Answers
import RowStore.Proofs.Table.Setbacks

namespace RowStore

open FileSystem

namespace Lifetime

variable {path : String} {home : Location} {life : Lifetime} {files : FileSystem}
  {events : List Event} {table : Table} {write : Write} {options : TableOptions}

theorem openTable_cases (life : Lifetime) (options : TableOptions) :
    (∃ table, (Table.openAt options).perform life.files =
        (.ok table, (life.openTable options).files) ∧
      (life.openTable options).table = some table) ∨
    (life.openTable options).table = life.table := by
  unfold openTable
  split
  · rename_i opening
    exact Or.inl ⟨_, opening, rfl⟩
  · exact Or.inr rfl

theorem put_cases (life : Lifetime) (table : Table) (write : Write) :
    (∃ next, (table.put write.key write.value write.timestamp).perform life.files =
        (.ok next, (life.put table write).files) ∧ (life.put table write).table = some next) ∨
    ∃ fault, (table.put write.key write.value write.timestamp).perform life.files =
        (.error fault, (life.put table write).files) ∧
      (life.put table write).table = life.table := by
  cases putting : (table.put write.key write.value write.timestamp).perform life.files with
  | mk outcome files =>
      rw [put, putting]
      cases outcome with
      | ok next => exact Or.inl ⟨next, by split <;> rfl, by split <;> rfl⟩
      | error fault => exact Or.inr ⟨fault, by split <;> rfl, by split <;> rfl⟩

theorem checkpoint_cases (life : Lifetime) (table : Table) :
    (∃ info saved, table.checkpoint.perform life.files =
        (.ok (info, saved), (life.checkpoint table).files) ∧
      (life.checkpoint table).table = some saved) ∨
    ∃ fault, table.checkpoint.perform life.files = (.error fault, (life.checkpoint table).files) ∧
      (life.checkpoint table).table = life.table := by
  unfold checkpoint
  split
  · rename_i saving
    exact Or.inl ⟨_, _, saving, rfl⟩
  · rename_i failing
    exact Or.inr ⟨_, failing, rfl⟩

theorem close_closed (life : Lifetime) (table : Table) : (life.close table).table = none := by
  unfold close
  split
  · split <;> rfl
  · rfl

/-- The table, if one is open, has been reached from its opening on. -/
def Reaches (path : String) (home : Location) (life : Lifetime) : Prop :=
  ∀ table, life.table = some table →
    ∃ options : TableOptions, options.path = path ∧ Table.Reached options home table life.files

namespace Reaches

theorem stepClosed (closed : life.table = none) (event : Event)
    (directory : (life.stepClosed path event).files.DirectoryAt path home) :
    Reaches path home (life.stepClosed path event) := by
  intro table isOpen
  cases event with
  | openTable pages strategy =>
      rcases life.openTable_cases { path, pages, strategy } with ⟨opened, opening, found⟩ | none
      · cases found.symm.trans isOpen
        exact ⟨_, rfl, ⟨_, table, _, [], opening, directory, .here⟩⟩
      · cases closed.symm.trans (none.symm.trans isOpen)
  | put | checkpoint | close | abandon | obstruct | clear => cases closed.symm.trans isOpen

theorem stepOpen (reaches : Reaches path home life) (isOpen : life.table = some table)
    (event : Event) : Reaches path home (life.stepOpen path table event) := by
  intro next nextOpen
  obtain ⟨options, same, reached⟩ := reaches table isOpen
  obtain ⟨rfl, works, -⟩ := reached.keeps
  have apart := TableOptions.logName_ne_temporaryName
  cases event with
  | openTable => exact reaches next nextOpen
  | put write =>
      rcases life.put_cases table write with ⟨_, putting, found⟩ | ⟨_, refused, found⟩
      · cases found.symm.trans nextOpen
        exact ⟨_, same, reached.onward (.put .here putting)⟩
      · cases isOpen.symm.trans (found.symm.trans nextOpen)
        exact ⟨_, same, reached.onward (.refused .here refused)⟩
  | checkpoint =>
      rcases life.checkpoint_cases table with ⟨_, _, saving, found⟩ | ⟨_, failing, found⟩
      · cases found.symm.trans nextOpen
        exact ⟨_, same, reached.onward (.saved .here saving)⟩
      · cases isOpen.symm.trans (found.symm.trans nextOpen)
        exact ⟨_, same, reached.onward (.failed .here failing)⟩
  | close => cases (life.close_closed table).symm.trans nextOpen
  | abandon => cases nextOpen
  | obstruct =>
      cases isOpen.symm.trans nextOpen
      subst same
      have changes := works.directory.changesOnly_makeDirectory TableOptions.temporaryName_isName
      exact ⟨_, rfl, reached.onward (.meddled .here (works.of_changesOnly changes apart))⟩
  | clear =>
      cases isOpen.symm.trans nextOpen
      subst same
      have changes := works.directory.changesOnly_removeDirectory TableOptions.temporaryName_isName
      exact ⟨_, rfl, reached.onward (.meddled .here (works.of_changesOnly changes apart))⟩

end Reaches

/-- Histories with closings and reopenings come to such states only. -/
theorem run_reaches (history : IsHistory path home files events) :
    Reaches path home (run path files events) := by
  obtain ⟨vacant, fit, few⟩ := history
  induction events using List.reverseRecOn with
  | nil => nofun
  | append_singleton earlier event ih =>
      have whole := run_follows ⟨vacant, fit, few⟩
      have directory := whole.inStep.directoryAt
      rw [run_concat] at directory ⊢
      rw [Outline.ofEvents_concat] at few
      have fewer := (Outline.ofEvents earlier).length_writes_le_step event
      have before := ih (fun write member => fit write (List.mem_append_left _ member)) (by omega)
      cases found : (run path files earlier).table with
      | none =>
          rw [step_closed found] at directory ⊢
          exact Reaches.stepClosed found event directory
      | some table =>
          rw [step_open found]
          exact before.stepOpen found event

end Lifetime

namespace Table

variable {table other : Table} {files otherFiles : FileSystem} {home otherHome : Location}
  {options otherOptions : TableOptions}

/-- However two tables have been written, reopened and saved before, the snapshots that they make
are the same bytes exactly if they give the same answers. -/
theorem checkpoints_agree_iff (reached : Reached options home table files)
    (otherReached : Reached otherOptions otherHome other otherFiles)
    (free : ¬ Barred files home) (otherFree : ¬ Barred otherFiles otherHome) :
    ∃ info left bytes otherInfo otherLeft otherBytes,
      table.checkpoint.perform files = (.ok (info, table.checkpointed), left) ∧
      left.read options.snapshotPath = .ok bytes ∧
      other.checkpoint.perform otherFiles = (.ok (otherInfo, other.checkpointed), otherLeft) ∧
      otherLeft.read otherOptions.snapshotPath = .ok otherBytes ∧
      (bytes = otherBytes ↔ ∀ key, table.find? key = other.find? key) := by
  obtain ⟨rfl, works, fits⟩ := reached.keeps
  obtain ⟨rfl, otherWorks, otherFits⟩ := otherReached.keeps
  obtain ⟨info, left, saving, savedWorks, snapshot, log⟩ := works.checkpoint_free fits free
  obtain ⟨otherInfo, otherLeft, otherSaving, otherSavedWorks, otherSnapshot, otherLog⟩ :=
    otherWorks.checkpoint_free otherFits otherFree
  have saved := savedWorks.savesAll fits snapshot log
  have otherSaved := otherSavedWorks.savesAll otherFits otherSnapshot otherLog
  refine ⟨info, left, _, otherInfo, otherLeft, _, saving, saved.snapshot, otherSaving,
    otherSaved.snapshot, ?_⟩
  exact (Snapshot.image_inj fits otherFits).trans OrderedMap.entries_eq_iff

def tidyHistory : List Event :=
  [.openTable 1 .everyWrite, .put ⟨[97], [49], 0⟩, .put ⟨[98], [50], 0⟩]

/-- The same writes the other way round, the first of them twice and over a reopening. -/
def messyHistory : List Event :=
  [.openTable 4 (.everyEntries 3), .put ⟨[98], [57], 0⟩, .checkpoint, .put ⟨[98], [50], 7⟩, .close,
    .openTable 0 .everyWrite, .put ⟨[97], [49], 3⟩]

theorem tidyHistory_isHistory : Lifetime.IsHistory "" [] empty tidyHistory where
  vacant := emptyDirectory_empty
  fit := Event.fit_of_writes (by decide)
  few := by decide

theorem messyHistory_isHistory : Lifetime.IsHistory "" [] empty messyHistory where
  vacant := emptyDirectory_empty
  fit := Event.fit_of_writes (by decide)
  few := by decide

/-- Once the temporary name is free, nothing is in the way of a checkpoint. -/
theorem reached_cleared {events : List Event} (history : Lifetime.IsHistory "" [] empty events)
    (isOpen : (Lifetime.run "" empty events).table = some table) :
    ∃ options : TableOptions, options.path = "" ∧
      Reached options [] table (cleared (Lifetime.run "" empty events).files) ∧
      ¬ Barred (cleared (Lifetime.run "" empty events).files) [] := by
  obtain ⟨options, same, reached⟩ := Lifetime.run_reaches history table isOpen
  obtain ⟨_, _, _, _, coupled⟩ := (Lifetime.run_follows history).inUse isOpen
  have clearing : ChangesOnly [] TableOptions.temporaryName (Lifetime.run "" empty events).files
      (cleared (Lifetime.run "" empty events).files) := changesOnly_erase _ [] _
  have works := reached.keeps.2.1.of_changesOnly clearing TableOptions.logName_ne_temporaryName
  refine ⟨options, same, reached.onward (.meddled .here works), ?_⟩
  rintro (temporary | snapshot)
  · cases ((node?_erase _ (by simp) _).trans (if_pos rfl)).symm.trans temporary
  · rw [clearing.node?_other TableOptions.snapshotName_ne_temporaryName] at snapshot
    exact coupled.snapshotFree snapshot

theorem checkpoints_agree_iff_reordered :
    Lifetime.IsHistory "" [] empty tidyHistory ∧ Lifetime.IsHistory "" [] empty messyHistory ∧
    ∃ (table other : Table) (files otherFiles left otherLeft : FileSystem)
      (info otherInfo : SnapshotInfo) (bytes : Bytes),
      (Lifetime.run "" empty tidyHistory).table = some table ∧
      (Lifetime.run "" empty messyHistory).table = some other ∧
      table.checkpoint.perform files = (.ok (info, table.checkpointed), left) ∧
      other.checkpoint.perform otherFiles = (.ok (otherInfo, other.checkpointed), otherLeft) ∧
      left.read "table.snap" = .ok bytes ∧ otherLeft.read "table.snap" = .ok bytes := by
  have tidy := tidyHistory_isHistory
  have messy := messyHistory_isHistory
  have follows := Lifetime.run_follows tidy
  have otherFollows := Lifetime.run_follows messy
  obtain ⟨table, isOpen⟩ := Option.isSome_iff_exists.mp follows.isOpen
  obtain ⟨other, otherIsOpen⟩ := Option.isSome_iff_exists.mp otherFollows.isOpen
  have answers := follows.inStep.answers isOpen
  have otherAnswers := otherFollows.inStep.answers otherIsOpen
  obtain ⟨options, path, reached, free⟩ := reached_cleared tidy isOpen
  obtain ⟨otherOptions, otherPath, otherReached, otherFree⟩ := reached_cleared messy otherIsOpen
  have alike (key : Bytes) : table.find? key = other.find? key := by
    rw [answers.find?, otherAnswers.find?, follows.writes, otherFollows.writes, ← find?_mapAfter,
      ← find?_mapAfter]
    exact OrderedMap.entries_eq_iff.mp (by decide) key
  obtain ⟨info, left, bytes, otherInfo, otherLeft, otherBytes, saving, reads, otherSaving,
    otherReads, agree⟩ := checkpoints_agree_iff reached otherReached free otherFree
  obtain rfl := agree.mpr alike
  rw [TableOptions.snapshotPath, path] at reads
  rw [TableOptions.snapshotPath, otherPath] at otherReads
  exact ⟨tidy, messy, table, other, _, _, left, otherLeft, info, otherInfo, bytes, isOpen,
    otherIsOpen, saving, otherSaving, reads, otherReads⟩

end Table

end RowStore
