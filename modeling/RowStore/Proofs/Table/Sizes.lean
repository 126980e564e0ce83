import RowStore.Proofs.Table.Logging

namespace RowStore

open FileSystem

/-- An insertion puts its entry between some entries and the others, in the place of the entry with
its key if there is one. -/
theorem insertEntry_split (key value : Bytes) (entries : List (Bytes × Bytes)) :
    ∃ before after, insertEntry key value entries = before ++ (key, value) :: after ∧
      (entries = before ++ after ∨ ∃ previous, entries = before ++ (key, previous) :: after) := by
  induction entries with
  | nil => exact ⟨[], [], rfl, .inl rfl⟩
  | cons entry rest ih =>
      obtain ⟨other, previous⟩ := entry
      rw [insertEntry]
      split
      · rename_i same
        exact ⟨[], rest, rfl, .inr ⟨previous, by rw [same, List.nil_append]⟩⟩
      · split
        · exact ⟨[], (other, previous) :: rest, rfl, .inl rfl⟩
        · obtain ⟨before, after, inserted, replaced⟩ := ih
          refine ⟨(other, previous) :: before, after, by rw [inserted, List.cons_append], ?_⟩
          rcases replaced with rfl | ⟨earlier, rfl⟩
          · exact .inl rfl
          · exact .inr ⟨earlier, rfl⟩

namespace OrderedMap

variable {map : OrderedMap} {key value previous : Bytes}

theorem insert_split (map : OrderedMap) (key value : Bytes) :
    ∃ before after, (map.insert key value).entries = before ++ (key, value) :: after ∧
      (map.entries = before ++ after ∧ map.find? key = none ∨
        ∃ previous, map.entries = before ++ (key, previous) :: after ∧
          map.find? key = some previous) := by
  obtain ⟨before, after, inserted, whole | ⟨previous, whole⟩⟩ :=
    insertEntry_split key value map.entries
  · refine ⟨before, after, inserted, .inl ⟨whole, find?_eq_none_iff.mpr ?_⟩⟩
    have distinct : ((before ++ (key, value) :: after).map Prod.fst).Nodup :=
      inserted ▸ (map.insert key value).nodup_keys
    rw [whole, List.map_append]
    rw [List.map_append, List.map_cons, List.nodup_middle] at distinct
    exact (List.nodup_cons.mp distinct).1
  · refine ⟨before, after, inserted, .inr ⟨previous, whole, find?_eq_some_iff.mpr ?_⟩⟩
    rw [whole]
    exact List.mem_append_right _ List.mem_cons_self

theorem byteCount_insert_present (present : map.find? key = some previous) (value : Bytes) :
    (map.insert key value).byteCount + previous.length = map.byteCount + value.length := by
  obtain ⟨before, after, inserted, ⟨_, absent⟩ | ⟨stored, whole, found⟩⟩ :=
    map.insert_split key value
  · cases absent.symm.trans present
  · cases found.symm.trans present
    rw [byteCount, byteCount, inserted, whole]
    simp only [total_append, total_cons]
    omega

theorem byteCount_insert_absent (absent : map.find? key = none) (value : Bytes) :
    (map.insert key value).byteCount = map.byteCount + (key.length + value.length) := by
  obtain ⟨before, after, inserted, ⟨whole, _⟩ | ⟨stored, _, found⟩⟩ := map.insert_split key value
  · rw [byteCount, byteCount, inserted, whole]
    simp only [total_append, total_cons]
    omega
  · cases found.symm.trans absent

theorem length_le_byteCount (present : map.find? key = some previous) :
    key.length + previous.length ≤ map.byteCount := by
  obtain ⟨before, after, split⟩ := List.append_of_mem (find?_eq_some_iff.mp present)
  rw [byteCount, split]
  simp only [total_append, total_cons]
  omega

theorem byteCount_insertAll_le (map : OrderedMap) (pairs : List (Bytes × Bytes)) :
    (map.insertAll pairs).byteCount ≤
      map.byteCount + total (fun pair => pair.1.length + pair.2.length) pairs := by
  induction pairs generalizing map with
  | nil => exact Nat.le_refl _
  | cons pair rest ih =>
      have further := ih (map.insert pair.1 pair.2)
      rw [total_cons]
      change ((map.insert pair.1 pair.2).insertAll rest).byteCount ≤ _
      cases found : map.find? pair.1 with
      | none =>
          have step := byteCount_insert_absent found pair.2
          omega
      | some previous =>
          have step := byteCount_insert_present found pair.2
          omega

end OrderedMap

namespace Contents

variable {contents : Contents} {key value previous : Bytes}

/-- The size is that of the entries. -/
def Counted (contents : Contents) : Prop :=
  contents.size = contents.map.byteCount

theorem counted_empty : empty.Counted := rfl

/-- What an overwritten value counted for has been counted before, so that it can be taken off. -/
theorem Counted.previous_le (counted : contents.Counted)
    (present : contents.find? key = some previous) : previous.length ≤ contents.size := by
  have bytes := OrderedMap.length_le_byteCount present
  rw [counted]
  omega

theorem Counted.put (counted : contents.Counted) (key value : Bytes) :
    (contents.put key value).Counted := by
  have size : contents.size = contents.map.byteCount := counted
  unfold Counted Contents.put
  cases found : contents.map.find? key with
  | none =>
      have step := OrderedMap.byteCount_insert_absent found value
      dsimp only
      omega
  | some previous =>
      have step := OrderedMap.byteCount_insert_present found value
      have taken := counted.previous_le found
      dsimp only
      split <;> omega

theorem Counted.putAll (counted : contents.Counted) (pairs : List (Bytes × Bytes)) :
    (contents.putAll pairs).Counted := by
  induction pairs generalizing contents with
  | nil => exact counted
  | cons pair rest ih => exact ih (counted.put pair.1 pair.2)

/-- How contents count that these pairs have been written to. They hold the last value of each key,
and no value that may be overwritten counts for more than there is. -/
structure AccountsFor (contents : Contents) (pairs : List (Bytes × Bytes)) : Prop where
  entries : ∀ key value, (key, value) ∈ contents.map.entries ↔ lastValue pairs key = some value
  count : contents.count = (pairs.map Prod.fst).toFinset.card
  size : contents.size = contents.map.byteCount
  covered : ∀ key previous, contents.find? key = some previous → previous.length ≤ contents.size
  bounded : contents.size ≤ total (fun pair => pair.1.length + pair.2.length) pairs

theorem accountsFor_putAll (pairs : List (Bytes × Bytes)) :
    (empty.putAll pairs).AccountsFor pairs := by
  have counted := counted_empty.putAll pairs
  have map : (empty.putAll pairs).map = OrderedMap.empty.insertAll pairs :=
    map_putAll empty pairs
  refine ⟨fun key value => ?_, ?_, counted, fun _ _ => counted.previous_le, ?_⟩
  · rw [map, ← OrderedMap.find?_eq_some_iff, OrderedMap.find?_insertAll, OrderedMap.find?_empty,
      Option.or_none]
  · rw [Contents.count, map, OrderedMap.count_empty_insertAll]
  · have bound := OrderedMap.empty.byteCount_insertAll_le pairs
    have nothing : OrderedMap.empty.byteCount = 0 := rfl
    rw [counted, map]
    omega

end Contents

namespace Snapshot

variable {entries : List (Bytes × Bytes)}

theorem length_block (entries : List (Bytes × Bytes)) :
    (block entries).length =
      8 * entries.length + total (fun entry => entry.1.length + entry.2.length) entries := by
  induction entries with
  | nil => rfl
  | cons entry rest ih =>
      rw [block_cons, List.length_append, ih, total_cons, List.length_cons, encodeEntry_eq]
      simp only [List.length_append, Bytes.length_littleEndian]
      omega

/-- Header, checksum and padding are 22 bytes, and every entry has two lengths of four. -/
theorem length_image (entries : List (Bytes × Bytes)) :
    (image entries).length =
      22 + 8 * entries.length + total (fun entry => entry.1.length + entry.2.length) entries := by
  rw [image_eq]
  simp only [List.length_append, length_header, length_block, Bytes.length_checksumField,
    headerWidth, padding, List.length_cons, List.length_nil]
  omega

theorem store_eq_ok {path : String} {files after : FileSystem} {info : SnapshotInfo}
    (fit : ChunksFit entries) (storing : (store path entries).perform files = (.ok info, after)) :
    info = { path, entries := entries.length, size := (image entries).length } := by
  cases opening : files.openFile (SnapshotWriter.temporaryName path) with
  | error fault => cases (store_refused opening entries).symm.trans storing
  | ok opened =>
      obtain ⟨full, _, _, stored⟩ := store_perform opening fit
      rw [stored] at storing
      split at storing
      · cases storing
        rfl
      · cases storing

end Snapshot

namespace Table

variable {table start next : Table} {files opened left after : FileSystem} {home : Location}
  {options : TableOptions} {write : Write} {writes : List Write} {info : SnapshotInfo}

/-- What a checkpoint has reported of a table is so, and the snapshot has the size reported. -/
structure ReportedBy (table : Table) (info : SnapshotInfo) (left : FileSystem) : Prop where
  entries : info.entries = table.contents.count
  size : info.size = 22 + 8 * table.contents.count + table.contents.size
  length : ∃ bytes, left.read table.options.snapshotPath = .ok bytes ∧ bytes.length = info.size

theorem WorksIn.checkpoint_reports (works : table.WorksIn files home) (fits : table.Fits)
    (counted : table.contents.Counted)
    (saving : table.checkpoint.perform files = (.ok (info, next), left)) :
    next.ReportedBy info left := by
  have free : ¬ Barred files home := fun barred => by
    obtain ⟨_, refused, _⟩ := works.checkpoint_barred fits barred
    cases refused.symm.trans saving
  obtain ⟨_, _, saved, savedWorks, snapshot, log⟩ := works.checkpoint_free fits free
  cases saved.symm.trans saving
  obtain ⟨reported, _, storing, returning⟩ := Disk.exists_of_perform_bind saving
  obtain ⟨_, _, _, finishing⟩ := Disk.exists_of_perform_bind returning
  cases finishing
  obtain rfl := Snapshot.store_eq_ok fits storing
  refine ⟨rfl, ?_, _, (savedWorks.savesAll fits snapshot log).snapshot, rfl⟩
  rw [Snapshot.length_image]
  exact congrArg _ counted.symm

theorem counted_openAt (opening : (openAt options).perform files = (.ok table, opened)) :
    table.contents.Counted := by
  obtain ⟨_, _, _, saved, _, _, _, _, _, _, rfl⟩ := exists_of_openAt opening
  exact (Contents.counted_empty.putAll saved).putAll _

theorem Course.counted (course : Course home start opened writes table files)
    (counted : start.contents.Counted) : table.contents.Counted := by
  induction course with
  | here => exact counted
  | put _ putting ih =>
      rw [contents_put putting]
      exact ih.put _ _
  | refused _ _ ih => exact ih
  | saved _ saving ih =>
      rw [contents_checkpoint saving]
      exact ih
  | failed _ _ ih => exact ih
  | meddled _ _ ih => exact ih

theorem Reached.counted (reached : Reached options home table files) :
    table.contents.Counted := by
  obtain ⟨_, _, _, _, opening, _, course⟩ := reached.course
  exact course.counted (counted_openAt opening)

theorem Reached.checkpoint_reports (reached : Reached options home table files)
    (saving : table.checkpoint.perform files = (.ok (info, next), left)) :
    next.ReportedBy info left := by
  obtain ⟨_, works, fits⟩ := reached.keeps
  exact works.checkpoint_reports fits reached.counted saving

/-- The same goes for the checkpoints that writes bring about. -/
theorem Reached.put_reports (reached : Reached options home table files)
    (putting : (table.putReporting write).perform files = (.ok (some (.ok info), next), left)) :
    next.ReportedBy info left := by
  obtain ⟨_, works, fits⟩ := reached.keeps
  obtain ⟨recorded, logged, recording, checkpointing⟩ := Disk.exists_of_perform_bind putting
  by_cases writeFits : write.Fits
  · obtain ⟨log, _, recordingFits, appends⟩ := table.record_fits files writeFits
    cases recordingFits.symm.trans recording
    rcases checkpointIfDue_eq_ok checkpointing with
      ⟨_, unasked, _⟩ | ⟨_, ⟨_, saving, outcome⟩ | ⟨_, _, outcome, _⟩⟩
    · cases unasked
    · cases outcome
      exact (works.recorded appends).checkpoint_reports (fits.put writeFits)
        (reached.counted.put _ _) saving
    · cases outcome
  · obtain ⟨_, refused⟩ := table.record_refused files writeFits
    cases refused.symm.trans recording

/-- These bytes are in the log. They are whole frames, and as many as the number of the frames and
the dirty bytes say. -/
structure LogMeasures (table : Table) (files : FileSystem) (bytes : Bytes) : Prop where
  read : files.read table.options.logPath = .ok bytes
  whole : (LogScan.ofBytes bytes).tail = []
  length : bytes.length = 40 * (LogScan.ofBytes bytes).entries.length + table.dirty

theorem KeepsLog.logMeasures {flushed held : List LogEntry}
    (keeps : table.KeepsLog files home flushed held) (nothingHeld : table.log.buffer.held = []) :
    table.LogMeasures files (LogEntry.frames flushed) := by
  have none : held = [] := LogEntry.frames_eq_nil_iff.mp (keeps.log.buffer.symm.trans nothingHeld)
  subst none
  obtain ⟨id, found, content⟩ := keeps.log.holdsFile
  have scanned := LogScan.ofBytes_frames fun entry member =>
    keeps.fit entry (List.mem_append_left [] member)
  have dirty := keeps.dirty
  rw [List.append_nil] at dirty
  refine ⟨?_, by rw [scanned], ?_⟩
  · rw [TableOptions.logPath, keeps.directory.read_join TableOptions.logName_isName found, content]
  · rw [scanned, LogEntry.length_frames, total_const_add, dirty]
    rfl

end Table

/-- The sizes that are kept count and those of the files. Contents that pairs have been written to,
however often, have the size of their entries. A checkpoint of a table, whatever files it was opened
on and whatever has become of them, reports the entries of the table and the length of the snapshot,
which follows from the count and the size of the contents. The log of a table, in a directory whose
log was whole frames to begin with if it had one, is as long as its frames and the dirty bytes say,
whenever nothing of it is held back. -/
theorem sizes_agree_across_layers :
    (∀ pairs, (Contents.empty.putAll pairs).AccountsFor pairs) ∧
    (∀ (options : TableOptions) (home : Location) (table : Table) (files : FileSystem),
      Table.Reached options home table files →
      table.contents.size = table.contents.map.byteCount ∧
      (∀ info next left, table.checkpoint.perform files = (.ok (info, next), left) →
        next.contents = table.contents ∧ next.ReportedBy info left) ∧
      ∀ write info next left,
        (table.putReporting write).perform files = (.ok (some (.ok info), next), left) →
        next.ReportedBy info left) ∧
    ∀ (path : String) (home : Location) (files : FileSystem) (logged : List LogEntry)
      (events : List Event) (table : Table), files.LogsFrames path home logged →
      (Lifetime.run path files events).table = some table → table.log.buffer.held = [] →
      ∃ bytes, table.LogMeasures (Lifetime.run path files events).files bytes := by
  refine ⟨Contents.accountsFor_putAll, ?_, ?_⟩
  · intro options home table files reached
    exact ⟨reached.counted,
      fun _ _ _ saving => ⟨Table.contents_checkpoint saving, reached.checkpoint_reports saving⟩,
      fun _ _ _ _ putting => reached.put_reports putting⟩
  · intro path home files logged events table frames isOpen nothingHeld
    cases Lifetime.run_keepsLog frames events with
    | atRest _ closed _ => cases closed.symm.trans isOpen
    | inUse other flushed held otherOpen _ keeps =>
        cases otherOpen.symm.trans isOpen
        exact ⟨LogEntry.frames flushed, keeps.logMeasures nothingHeld⟩

/-- A value is written over by a shorter one, which makes the log due. -/
def shortenedHistory : List Event :=
  [.openTable 4 (.everyEntries 2), .put ⟨[107], [49, 50], 0⟩, .put ⟨[107], [51], 0⟩]

theorem unsaved_shortened :
    Unsaved (.everyEntries 2) (Lifetime.run "" empty shortenedHistory) []
      [⟨[107], [49, 50], 0⟩, ⟨[107], [51], 0⟩] [] 0 := by
  have opened := unsaved_open emptyDirectory_empty (.everyEntries 2)
  have first := opened.put_waits "" (by decide : Write.Fits ⟨[107], [49, 50], 0⟩) (by decide)
    (by decide) (by decide) (by decide)
  exact first.put_due "" (by decide : Write.Fits ⟨[107], [51], 0⟩) (by decide) (by decide)
    (by decide)

/-- Of the two writes the log has two frames and the snapshot one entry. -/
theorem sizes_agree_across_layers_shortened :
    Lifetime.IsHistory "" [] empty shortenedHistory ∧
    ∃ table, (Lifetime.run "" empty shortenedHistory).table = some table ∧
      table.log.buffer.held = [] ∧
      (∃ bytes, (Lifetime.run "" empty shortenedHistory).files.read table.options.logPath =
        .ok bytes ∧ bytes.length = 85) ∧
      ∃ info saved left,
        table.checkpoint.perform (Lifetime.run "" empty shortenedHistory).files =
          (.ok (info, saved), left) ∧
        info.entries = 1 ∧ info.size = 32 := by
  have history : Lifetime.IsHistory "" [] empty shortenedHistory :=
    ⟨emptyDirectory_empty, Event.fit_of_writes (by decide), by decide⟩
  obtain ⟨table, flushed, held, isOpen, free, _, _, _, recent, coupled, sent, kept, _⟩ :=
    unsaved_shortened
  obtain rfl := List.map_eq_nil_iff.mp kept
  have nothingHeld : table.log.buffer.held = [] := coupled.log.buffer
  obtain ⟨-, ofTables, ofLogs⟩ := sizes_agree_across_layers
  obtain ⟨bytes, measures⟩ :=
    ofLogs _ _ _ _ _ table emptyDirectory_empty.logsFrames isOpen nothingHeld
  obtain ⟨options, _, reached⟩ := Lifetime.run_reaches history table isOpen
  obtain ⟨info, saved, left, saving, _⟩ := coupled.checkpoint_perform free
  obtain ⟨counted, reports, -⟩ := ofTables _ _ _ _ reached
  obtain ⟨same, reported⟩ := reports _ _ _ saving
  have map : table.contents.map = mapAfter [⟨[107], [49, 50], 0⟩, ⟨[107], [51], 0⟩] := by
    rw [coupled.contents, List.append_nil, sent]
    rfl
  have count : table.contents.count = 1 := by rw [Contents.count, map]; decide
  have size : table.contents.size = 2 := by rw [counted, map]; decide
  have dirty : table.dirty = 5 := by
    have weights : total LogEntry.weight flushed =
        total Write.weight (flushed.map LogEntry.write) :=
      (total_map Write.weight LogEntry.write flushed).symm
    rw [coupled.dirty, List.append_nil, weights, sent]
    rfl
  have reads := coupled.directory.read_join TableOptions.logName_isName coupled.log.named
  obtain rfl : bytes = LogEntry.frames flushed := by
    rw [coupled.log.content, ← TableOptions.logPath, measures.read] at reads
    exact Except.ok.inj reads
  have frames : (LogScan.ofBytes (LogEntry.frames flushed)).entries.length = 2 := by
    rw [LogScan.ofBytes_frames fun entry member =>
      coupled.loggedFit entry (List.mem_append_left [] member), ← List.length_map LogEntry.write,
      sent]
    rfl
  refine ⟨history, table, isOpen, nothingHeld, ⟨_, measures.read, ?_⟩, info, saved, left, saving,
    ?_, ?_⟩
  · rw [measures.length, frames, dirty]
  · rw [reported.entries, same, count]
  · rw [reported.size, same, count, size]

end RowStore
