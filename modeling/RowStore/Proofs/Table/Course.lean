import RowStore.Proofs.Log.Recovery
import RowStore.Proofs.Snapshot.RoundTrip
import RowStore.Proofs.Table.Scheduling

/-!
What can come to pass while a table is open. Its writes and checkpoints are made or fail, and in
between others may do anything to the files that leaves the directory in its place and the log under
its name. Whatever comes to pass, a snapshot can take in the contents, and only a directory under one
of its two names is in its way.
-/

namespace RowStore

open FileSystem

/-- A directory stands where the snapshot or its temporary file should. -/
def Barred (files : FileSystem) (home : Location) : Prop :=
  files.node? (home ++ [TableOptions.temporaryName]) = some .directory ∨
    files.node? (home ++ [TableOptions.snapshotName]) = some .directory

namespace Table

variable {table start next : Table} {files opened after left : FileSystem}
  {home : Location} {options : TableOptions} {write : Write} {writes more : List Write}
  {info : SnapshotInfo} {fault : Fault}

/-- The files of an open table: its directory is where its path leads, and its log is there. -/
structure WorksIn (table : Table) (files : FileSystem) (home : Location) : Prop where
  directory : files.DirectoryAt table.options.path home
  log : files.node? (home ++ [TableOptions.logName]) = some (.file table.log.file)

/-- The entries of a table have lengths that a snapshot can state. -/
def Fits (table : Table) : Prop :=
  Snapshot.ChunksFit table.contents.map.entries

namespace WorksIn

theorem of_changesOnly {name : String} (works : table.WorksIn files home)
    (changes : ChangesOnly home name files after) (different : TableOptions.logName ≠ name) :
    table.WorksIn after home where
  directory := changes.directoryAt works.directory
  log := (changes.node?_other different).trans works.log

theorem of_writesOnly (works : table.WorksIn files home)
    (writes : WritesOnly table.log.file files after) : table.WorksIn after home where
  directory := (writes.changesOnly works.directory works.log).directoryAt works.directory
  log := (writes.node? _).trans works.log

theorem recorded {log : LogWriter} {logged : FileSystem} {frame : Bytes}
    (works : table.WorksIn files home) (appends : table.log.Appends frame files log logged) :
    (table.recorded write.key write.value log).WorksIn logged home := by
  have logWorks := works.of_writesOnly appends.writes
  exact ⟨logWorks.directory, logWorks.log.trans (congrArg (some ∘ Node.file) appends.file.symm)⟩

theorem checkpoint_barred (works : table.WorksIn files home) (fits : table.Fits)
    (barred : Barred files home) :
    ∃ left, table.checkpoint.perform files = (.error (.file .isDirectory), left) ∧
      ChangesOnly home TableOptions.temporaryName files left := by
  have directory := works.directory
  by_cases blocked : files.node? (home ++ [TableOptions.temporaryName]) = some .directory
  · have refused := directory.openFile_obstructed TableOptions.temporaryName_isName blocked
    rw [← table.options.temporaryName_snapshotPath] at refused
    exact ⟨files, checkpoint_eq_error_iff.mpr (Snapshot.store_refused refused _),
      ChangesOnly.refl files⟩
  · obtain ⟨id, opened, opening, here, changes⟩ :=
      directory.openFile_exists TableOptions.temporaryName_isName blocked
    rw [← table.options.temporaryName_snapshotPath] at opening
    obtain ⟨full, writes, -, storing⟩ := Snapshot.store_perform opening fits
    have fullChanges := changes.trans (writes.changesOnly (changes.directoryAt directory) here)
    have named : full.node? (home ++ [TableOptions.temporaryName]) = some (.file id) :=
      (writes.node? _).trans here
    have snapshotBarred : full.node? (home ++ [TableOptions.snapshotName]) = some .directory := by
      rw [fullChanges.node?_other TableOptions.snapshotName_ne_temporaryName]
      exact barred.resolve_left blocked
    have moving := (fullChanges.directoryAt directory).rename_obstructed
      TableOptions.temporaryName_isName TableOptions.snapshotName_isName
      TableOptions.snapshotName_ne_temporaryName.symm named snapshotBarred
    rw [table.options.temporaryName_snapshotPath, TableOptions.snapshotPath, moving] at storing
    exact ⟨full, checkpoint_eq_error_iff.mpr storing, fullChanges⟩

theorem checkpoint_free (works : table.WorksIn files home) (fits : table.Fits)
    (free : ¬ Barred files home) :
    ∃ info left, table.checkpoint.perform files = (.ok (info, table.checkpointed), left) ∧
      table.checkpointed.WorksIn left home ∧
      left.HoldsFile home TableOptions.snapshotName (Snapshot.image table.contents.map.entries) ∧
      left.HoldsFile home TableOptions.logName [] := by
  obtain ⟨temporaryFree, snapshotFree⟩ := not_or.mp free
  obtain ⟨full, switched, changes, renames, directory, holds, storing⟩ :=
    Snapshot.store_join works.directory TableOptions.snapshotName_isName
      TableOptions.temporaryName_isName TableOptions.snapshotName_ne_temporaryName.symm
      table.options.temporaryName_snapshotPath snapshotFree temporaryFree fits
  have log : switched.node? (home ++ [TableOptions.logName]) = some (.file table.log.file) := by
    rw [renames.node?_other TableOptions.logName_ne_snapshotName
      TableOptions.logName_ne_temporaryName,
      changes.node?_other TableOptions.logName_ne_temporaryName, works.log]
  have writes : WritesOnly table.log.file switched
      ((table.log.flushed switched).resize table.log.file 0) :=
    (WritesOnly.append switched _).trans (WritesOnly.resize _ 0)
  have logChanges := writes.changesOnly directory log
  refine ⟨_, _, checkpoint_stored storing,
    ⟨logChanges.directoryAt directory, (writes.node? _).trans log⟩,
    logChanges.holdsFile TableOptions.logName_ne_snapshotName.symm holds,
    table.log.file, (writes.node? _).trans log, ?_⟩
  simp [resize, content_setContent, resizeBytes]

theorem checkpoint_eq_error (works : table.WorksIn files home) (fits : table.Fits)
    (failing : table.checkpoint.perform files = (.error fault, left)) :
    Barred files home ∧ ChangesOnly home TableOptions.temporaryName files left := by
  by_cases barred : Barred files home
  · obtain ⟨_, performed, changes⟩ := works.checkpoint_barred fits barred
    cases performed.symm.trans failing
    exact ⟨barred, changes⟩
  · obtain ⟨_, _, performed, -⟩ := works.checkpoint_free fits barred
    cases performed.symm.trans failing

theorem checkpoint_saved (works : table.WorksIn files home) (fits : table.Fits)
    (saving : table.checkpoint.perform files = (.ok (info, next), left)) :
    next.WorksIn left home := by
  by_cases barred : Barred files home
  · obtain ⟨_, performed, -⟩ := works.checkpoint_barred fits barred
    cases performed.symm.trans saving
  · obtain ⟨_, _, performed, savedWorks, -⟩ := works.checkpoint_free fits barred
    cases performed.symm.trans saving
    exact savedWorks

end WorksIn

theorem Fits.put (fits : table.Fits) (writeFits : write.Fits) :
    Snapshot.ChunksFit (table.contents.put write.key write.value).map.entries := by
  intro entry member
  rcases mem_insertEntry member with rfl | old
  · exact (Write.fits_entry writeFits 0).chunks
  · exact fits entry old

/-- A write that is made has been recorded, and any other write has been too large for the log. -/
theorem put_cases (table : Table) (write : Write) (files : FileSystem) :
    (write.Fits ∧ ∃ log logged tried next left,
      table.log.Appends (LogEntry.framed (write.entry table.log.nextLsn).payload) files log logged ∧
      (table.put write.key write.value write.timestamp).perform files = (.ok next, left) ∧
      (table.recorded write.key write.value log).Ends logged tried next left) ∨
    ¬ write.Fits ∧ ∃ fault,
      (table.put write.key write.value write.timestamp).perform files = (.error fault, files) := by
  by_cases fits : write.Fits
  · obtain ⟨log, logged, recording, appends⟩ := table.record_fits files fits
    obtain ⟨tried, next, left, -, putting, ends⟩ := put_ends recording
    exact Or.inl ⟨fits, log, logged, tried, next, left, appends, putting, ends⟩
  · obtain ⟨fault, refused⟩ := table.record_refused files fits
    exact Or.inr ⟨fits, fault, by simp only [put, Disk.perform_bind, refused]⟩

theorem Ends.keeps {tried : Option Bool} (ends : table.Ends files tried next left)
    (works : table.WorksIn files home) (fits : table.Fits) :
    next.options = table.options ∧ next.contents = table.contents ∧ next.WorksIn left home := by
  cases ends with
  | early => exact ⟨rfl, rfl, works⟩
  | saved _ made => exact ⟨rfl, rfl, works.checkpoint_saved fits made⟩
  | postponed _ failed =>
      have changes := (works.checkpoint_eq_error fits failed).2
      have kept := works.of_changesOnly changes TableOptions.logName_ne_temporaryName
      exact ⟨rfl, rfl, kept.directory, kept.log⟩

/-- What may come to pass from one state of an open table and its files on, and the writes that are
made on the way. -/
inductive Course (home : Location) (start : Table) (opened : FileSystem) :
    List Write → Table → FileSystem → Prop
  | here : Course home start opened [] start opened
  | put {writes : List Write} {table next : Table} {files after : FileSystem} {write : Write}
      (course : Course home start opened writes table files)
      (putting : (table.put write.key write.value write.timestamp).perform files =
        (.ok next, after)) : Course home start opened (writes ++ [write]) next after
  | refused {writes : List Write} {table : Table} {files after : FileSystem} {write : Write}
      {fault : Fault} (course : Course home start opened writes table files)
      (putting : (table.put write.key write.value write.timestamp).perform files =
        (.error fault, after)) : Course home start opened writes table after
  | saved {writes : List Write} {table next : Table} {files after : FileSystem}
      {info : SnapshotInfo} (course : Course home start opened writes table files)
      (saving : table.checkpoint.perform files = (.ok (info, next), after)) :
      Course home start opened writes next after
  | failed {writes : List Write} {table : Table} {files after : FileSystem} {fault : Fault}
      (course : Course home start opened writes table files)
      (failing : table.checkpoint.perform files = (.error fault, after)) :
      Course home start opened writes table after
  /-- Others have changed the files. -/
  | meddled {writes : List Write} {table : Table} {files after : FileSystem}
      (course : Course home start opened writes table files) (works : table.WorksIn after home) :
      Course home start opened writes table after

theorem Course.trans (earlier : Course home start opened writes table files)
    (further : Course home table files more next after) :
    Course home start opened (writes ++ more) next after := by
  induction further with
  | here => rwa [List.append_nil]
  | put _ putting ih =>
      rw [← List.append_assoc]
      exact .put ih putting
  | refused _ putting ih => exact .refused ih putting
  | saved _ saving ih => exact .saved ih saving
  | failed _ failing ih => exact .failed ih failing
  | meddled _ works ih => exact .meddled ih works

/-- What a course keeps of the table that it begins with. -/
structure Continues (table start : Table) (files : FileSystem) (home : Location)
    (writes : List Write) : Prop where
  options_eq : table.options = start.options
  contents : table.contents.map = start.contents.map.insertAll (writes.map Write.pair)
  works : table.WorksIn files home
  fits : table.Fits

namespace Continues

theorem put (continues : table.Continues start files home writes)
    (putting : (table.put write.key write.value write.timestamp).perform files =
      (.ok next, after)) : next.Continues start after home (writes ++ [write]) := by
  obtain ⟨options_eq, contents, works, fits⟩ := continues
  rcases table.put_cases write files with
    ⟨writeFits, log, logged, tried, _, _, appends, made, ends⟩ | ⟨_, _, refused⟩
  · cases made.symm.trans putting
    have recordedWorks : (table.recorded write.key write.value log).WorksIn logged home :=
      works.recorded appends
    have recordedFits : (table.recorded write.key write.value log).Fits := fits.put writeFits
    obtain ⟨sameOptions, sameContents, nextWorks⟩ := ends.keeps recordedWorks recordedFits
    refine ⟨sameOptions.trans options_eq, ?_, nextWorks, ?_⟩
    · rw [sameContents, List.map_append, OrderedMap.insertAll_append, ← contents]
      rfl
    · rw [Fits, sameContents]
      exact recordedFits
  · cases refused.symm.trans putting

theorem saved (continues : table.Continues start files home writes)
    (saving : table.checkpoint.perform files = (.ok (info, next), after)) :
    next.Continues start after home writes := by
  obtain ⟨options_eq, contents, works, fits⟩ := continues
  have nextWorks := works.checkpoint_saved fits saving
  obtain rfl := checkpoint_eq_ok saving
  exact ⟨options_eq, contents, nextWorks, fits⟩

theorem step (continues : table.Continues start files home writes)
    (works : table.WorksIn after home) : table.Continues start after home writes :=
  { continues with works }

theorem course (course : Course home start opened writes table files)
    (works : start.WorksIn opened home) (fits : start.Fits) :
    table.Continues start files home writes := by
  induction course with
  | here => exact ⟨rfl, rfl, works, fits⟩
  | put _ putting ih => exact ih.put putting
  | @refused _ table files _ write _ _ putting ih =>
      rcases table.put_cases write files with ⟨_, _, _, _, _, _, _, made, _⟩ | ⟨_, _, refused⟩
      · cases made.symm.trans putting
      · cases refused.symm.trans putting
        exact ih
  | saved _ saving ih => exact ih.saved saving
  | failed _ failing ih =>
      have changes := (ih.works.checkpoint_eq_error ih.fits failing).2
      exact ih.step (ih.works.of_changesOnly changes TableOptions.logName_ne_temporaryName)
  | meddled _ left ih => exact ih.step left

end Continues

theorem fit_of_loadSnapshot {path : String} {pairs : List (Bytes × Bytes)}
    (loading : (loadSnapshot path).perform files = (.ok pairs, after)) :
    Snapshot.ChunksFit pairs := by
  simp only [loadSnapshot, Disk.perform_bind, Disk.perform_get] at loading
  cases present : files.pathExists path with
  | false =>
      rw [present] at loading
      cases loading
      exact fun _ member => absurd member List.not_mem_nil
  | true =>
      rw [present, if_pos rfl] at loading
      obtain ⟨⟨entries, info⟩, _, reading, returning⟩ := Disk.exists_of_perform_bind loading
      cases returning
      exact Snapshot.fit_of_load reading

theorem fit_of_replayLog {path : String} {logged : List LogEntry} {nextLsn : UInt64}
    (replaying : (replayLog path).perform files = (.ok (logged, nextLsn), after)) :
    ∀ entry ∈ logged, entry.Fits := by
  simp only [replayLog, Disk.perform_bind, Disk.perform_get] at replaying
  cases present : files.pathExists path with
  | false =>
      rw [present] at replaying
      cases replaying
      exact fun _ member => absurd member List.not_mem_nil
  | true =>
      rw [present, if_pos rfl] at replaying
      obtain ⟨⟨entries, summary⟩, _, recovering, returning⟩ :=
        Disk.exists_of_perform_bind replaying
      cases returning
      exact Log.fit_of_recover recovering

theorem openAt_eq_ok (opening : (openAt options).perform files = (.ok table, opened)) :
    table.options = options ∧ table.Fits ∧ opened.Names options.logPath table.log.file := by
  obtain ⟨_, _, replayed, saved, logged, nextLsn, log, reading, recovering, logOpened, rfl⟩ :=
    exists_of_openAt opening
  obtain ⟨id, _, openingFile, returning⟩ := Disk.exists_of_perform_bind logOpened
  have savedFit := fit_of_loadSnapshot reading
  have loggedFit := fit_of_replayLog recovering
  rw [Disk.perform_openFile] at openingFile
  cases openedFile : replayed.openFile options.logPath with
  | error fault =>
      rw [openedFile] at openingFile
      cases openingFile
  | ok found =>
      rw [openedFile] at openingFile
      cases openingFile
      cases returning
      refine ⟨rfl, fun entry member => ?_, names_of_openFile openedFile⟩
      rw [restored, Contents.map_putAll, Contents.map_putAll] at member
      change entry ∈ ((OrderedMap.empty.insertAll saved).insertAll _).entries at member
      rw [← OrderedMap.insertAll_append] at member
      rcases List.mem_append.mp (OrderedMap.mem_of_mem_insertAll member) with old | new
      · exact savedFit entry old
      · obtain ⟨written, isLogged, rfl⟩ := List.mem_map.mp new
        exact (loggedFit written isLogged).chunks

/-- A state that an open table and its files can come to, with nothing said of what the files were
that the table was opened on. -/
structure Reached (options : TableOptions) (home : Location) (table : Table)
    (files : FileSystem) : Prop where
  course : ∃ before start opened writes, (openAt options).perform before = (.ok start, opened) ∧
    opened.DirectoryAt options.path home ∧ Course home start opened writes table files

namespace Reached

theorem keeps (reached : Reached options home table files) :
    table.options = options ∧ table.WorksIn files home ∧ table.Fits := by
  obtain ⟨before, start, opened, writes, opening, directory, course⟩ := reached.course
  obtain ⟨rfl, fits, location, located, found⟩ := openAt_eq_ok opening
  have there := directory.locate_join TableOptions.logName_isName
  obtain rfl := Except.ok.inj (there.symm.trans located)
  have continues := Continues.course course ⟨directory, found⟩ fits
  exact ⟨continues.options_eq, continues.works, continues.fits⟩

theorem onward (reached : Reached options home start opened)
    (course : Course home start opened writes table files) : Reached options home table files := by
  obtain ⟨before, first, found, earlier, opening, directory, way⟩ := reached.course
  exact ⟨before, first, found, _, opening, directory, way.trans course⟩

theorem continues (reached : Reached options home start opened)
    (course : Course home start opened writes table files) :
    table.Continues start files home writes := by
  obtain ⟨_, works, fits⟩ := reached.keeps
  exact Continues.course course works fits

end Reached

end Table

end RowStore
