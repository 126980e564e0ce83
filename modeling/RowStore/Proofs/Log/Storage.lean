import RowStore.Log.Writer
import RowStore.Proofs.FileSystem.Directory
import RowStore.Proofs.Log.Framing

namespace RowStore

open FileSystem

namespace SyncStrategy

/-- The most entries that wait for the next synchronisation. -/
def window : SyncStrategy → Nat
  | everyWrite => 0
  | everyEntries count => count - 1

theorem le_window {strategy : SyncStrategy} {waiting : Nat}
    (notDue : strategy.isDue waiting = false) : waiting ≤ strategy.window := by
  cases strategy with
  | everyWrite => cases notDue
  | everyEntries count =>
      have below : ¬ count ≤ waiting := of_decide_eq_false notDue
      simp only [window]
      omega

end SyncStrategy

variable {files after : FileSystem} {home : Location} {path name : String}
  {writer appended : LogWriter} {flushed held entries : List LogEntry} {entry : LogEntry}

namespace LogWriter

/-- A log open under a name: the entries whose frames are in the file and those whose frames are
held back. No more are held back than are counted, and none once a synchronisation is due. -/
structure Holds (writer : LogWriter) (files : FileSystem) (home : Location) (name : String)
    (flushed held : List LogEntry) : Prop where
  named : files.node? (home ++ [name]) = some (.file writer.file)
  content : files.content writer.file = LogEntry.frames flushed
  buffer : writer.buffer.held = LogEntry.frames held
  counted : held.length ≤ writer.unsynced
  awaited : held = [] ∨ writer.strategy.isDue writer.unsynced = false

theorem Holds.holdsFile (holds : writer.Holds files home name flushed held) :
    files.HoldsFile home name (LogEntry.frames flushed) :=
  ⟨writer.file, holds.named, holds.content⟩

theorem Holds.length_le_window (holds : writer.Holds files home name flushed held) :
    held.length ≤ writer.strategy.window := by
  rcases holds.awaited with none | notDue
  · simp [none]
  · exact Nat.le_trans holds.counted (SyncStrategy.le_window notDue)

theorem Holds.of_changesOnly {other : String} (holds : writer.Holds files home name flushed held)
    (changes : ChangesOnly home other files after) (different : name ≠ other) :
    writer.Holds after home name flushed held :=
  { holds with
    named := (changes.node?_other different).trans holds.named
    content := (changes.contents name writer.file different holds.named).trans holds.content }

theorem Holds.of_renames {other target : String}
    (holds : writer.Holds files home name flushed held)
    (renames : Renames home other target files after) (notTarget : name ≠ target)
    (notOther : name ≠ other) : writer.Holds after home name flushed held :=
  { holds with
    named := (renames.node?_other notTarget notOther).trans holds.named
    content := (renames.content writer.file).trans holds.content }

/-- A log in its file, or no file and no entries. -/
def Stands (files : FileSystem) (home : Location) (name : String) (entries : List LogEntry) :
    Prop :=
  files.HoldsFile home name (LogEntry.frames entries) ∨
    files.node? (home ++ [name]) = none ∧ entries = []

theorem openAt_perform (directory : files.DirectoryAt path home) (isName : Path.IsName name)
    (stands : Stands files home name entries) (strategy : SyncStrategy) (nextLsn : UInt64) :
    ∃ writer opened,
      (openAt (Path.join path name) strategy nextLsn).perform files = (.ok writer, opened) ∧
      ChangesOnly home name files opened ∧ writer.Holds opened home name entries [] ∧
      writer.strategy = strategy ∧ writer.nextLsn = nextLsn ∧ writer.unsynced = 0 := by
  rcases stands with ⟨id, found, content⟩ | ⟨absent, none⟩
  · have opening := directory.openFile_present isName found
    refine ⟨{ path := Path.join path name, file := id, nextLsn, strategy }, files, ?_,
      ChangesOnly.refl files, ⟨found, content, rfl, Nat.le_refl _, Or.inl rfl⟩, rfl, rfl, rfl⟩
    simp only [openAt, Disk.perform_bind, Disk.perform_openFile, opening, Disk.perform_pure]
  · obtain ⟨id, opened, opening, found, content, changes⟩ :=
      directory.openFile_absent isName absent
    refine ⟨{ path := Path.join path name, file := id, nextLsn, strategy }, opened, ?_, changes,
      ⟨found, ?_, rfl, Nat.le_refl _, Or.inl rfl⟩, rfl, rfl, rfl⟩
    · simp only [openAt, Disk.perform_bind, Disk.perform_openFile, opening, Disk.perform_pure]
    · rw [content, none, LogEntry.frames_nil]

/-- The writer once nothing is held back. -/
def synced (writer : LogWriter) : LogWriter :=
  { writer with buffer := {}, unsynced := 0 }

theorem sync_perform (writer : LogWriter) (files : FileSystem) :
    writer.sync.perform files = (.ok writer.synced, writer.flushed files) := rfl

theorem flushed_changesOnly (directory : files.DirectoryAt path home)
    (named : files.node? (home ++ [name]) = some (.file writer.file)) :
    ChangesOnly home name files (writer.flushed files) :=
  (WritesOnly.append files _).changesOnly directory named

theorem Holds.synced (holds : writer.Holds files home name flushed held) :
    writer.synced.Holds (writer.flushed files) home name (flushed ++ held) [] where
  named := ((WritesOnly.append files _).node? _).trans holds.named
  content := by
    simp only [LogWriter.synced, LogWriter.flushed, content_append, if_true, holds.content,
      holds.buffer, LogEntry.frames_append]
  buffer := rfl
  counted := Nat.le_refl _
  awaited := Or.inl rfl

theorem truncate_perform (directory : files.DirectoryAt path home)
    (holds : writer.Holds files home name flushed held) :
    ∃ emptied, writer.truncate.perform files = (.ok writer.synced, emptied) ∧
      ChangesOnly home name files emptied ∧ writer.synced.Holds emptied home name [] [] := by
  have flushing := flushed_changesOnly directory holds.named
  have syncedHolds := holds.synced
  have resizing : WritesOnly writer.file (writer.flushed files)
      ((writer.flushed files).resize writer.file 0) := WritesOnly.resize _ 0
  refine ⟨(writer.flushed files).resize writer.file 0, rfl,
    flushing.trans (resizing.changesOnly (flushing.directoryAt directory) syncedHolds.named),
    (resizing.node? _).trans syncedHolds.named, ?_, rfl, Nat.le_refl _, Or.inl rfl⟩
  simp [resize, content_setContent, resizeBytes, LogWriter.synced]

/-- How the entries of a log are divided between file and buffer after one more. -/
structure Divides (writer : LogWriter) (entry : LogEntry) (flushed held : List LogEntry)
    (appended : LogWriter) (flushed' held' : List LogEntry) : Prop where
  order : flushed' ++ held' = flushed ++ held ++ [entry]
  due : writer.strategy.isDue (writer.unsynced + 1) = true → held' = [] ∧ appended.unsynced = 0
  counts : writer.strategy.isDue (writer.unsynced + 1) = false →
    appended.unsynced = writer.unsynced + 1
  waits : writer.strategy.isDue (writer.unsynced + 1) = false →
    writer.buffer.held.length + (LogEntry.frames [entry]).length < OutputBuffer.capacity →
    flushed' = flushed ∧ held' = held ++ [entry]
  passes : OutputBuffer.capacity ≤ (LogEntry.frames [entry]).length → held' = []
  nextLsn : appended.nextLsn = writer.nextLsn + 1
  strategy : appended.strategy = writer.strategy

theorem append_refused {key value : Bytes} {timestamp : UInt64} (files : FileSystem)
    (unfit : ¬ LogEntry.Fits { lsn := writer.nextLsn, key, value, timestamp }) :
    (writer.append key value timestamp).perform files = (.error .frameTooLarge, files) := by
  have framing : ({ lsn := writer.nextLsn, key, value, timestamp } : LogEntry).frame =
      .error .frameTooLarge := if_neg unfit
  simp only [append, framing, Disk.perform_fail]

/-- A log with one more frame at its end, whatever else there is in it. -/
structure Appends (writer : LogWriter) (frame : Bytes) (files : FileSystem)
    (appended : LogWriter) (after : FileSystem) : Prop where
  writes : WritesOnly writer.file files after
  file : appended.file = writer.file
  nextLsn : appended.nextLsn = writer.nextLsn + 1
  bytes : after.content writer.file ++ appended.buffer.held =
    files.content writer.file ++ writer.buffer.held ++ frame

theorem append_appends {key value : Bytes} {timestamp : UInt64} (files : FileSystem)
    (isEntry : entry = { lsn := writer.nextLsn, key, value, timestamp }) (fits : entry.Fits) :
    ∃ appended after,
      (writer.append key value timestamp).perform files = (.ok (writer.nextLsn, appended), after) ∧
      writer.Appends (LogEntry.framed entry.payload) files appended after := by
  let frame := LogEntry.framed entry.payload
  have framing : ({ lsn := writer.nextLsn, key, value, timestamp } : LogEntry).frame = .ok frame := by
    rw [← isEntry, LogEntry.frame_of_fits fits]
  let middle := files.append writer.file (writer.buffer.accept frame).1
  have sending : WritesOnly writer.file files middle := WritesOnly.append files _
  have bytes : middle.content writer.file ++ (writer.buffer.accept frame).2.held =
      files.content writer.file ++ writer.buffer.held ++ frame := by
    simp only [middle, content_append, if_true, List.append_assoc, OutputBuffer.accept_append]
  simp only [append, framing, Disk.perform_bind, Disk.perform_modify]
  split
  · refine ⟨_, _, rfl, sending.trans (WritesOnly.append middle _), rfl, rfl, ?_⟩
    rw [List.append_nil]
    exact (content_append middle writer.file writer.file _).trans ((if_pos rfl).trans bytes)
  · exact ⟨_, _, rfl, sending, rfl, rfl, bytes⟩

theorem append_perform {key value : Bytes} {timestamp : UInt64}
    (directory : files.DirectoryAt path home) (holds : writer.Holds files home name flushed held)
    (isEntry : entry = { lsn := writer.nextLsn, key, value, timestamp }) (fits : entry.Fits) :
    ∃ appended after flushed' held',
      (writer.append key value timestamp).perform files = (.ok (writer.nextLsn, appended), after) ∧
      ChangesOnly home name files after ∧ appended.Holds after home name flushed' held' ∧
      writer.Divides entry flushed held appended flushed' held' := by
  obtain ⟨sent, kept, sentFrames, keptFrames, order, keptLength, small, large⟩ :=
    OutputBuffer.accept_pieces (fun entry : LogEntry => LogEntry.framed entry.payload)
      holds.buffer entry
  rw [← LogEntry.frames] at sentFrames keptFrames
  let buffer := (writer.buffer.accept (LogEntry.framed entry.payload)).2
  let appended := { writer with
    buffer, nextLsn := writer.nextLsn + 1, unsynced := writer.unsynced + 1 }
  let middle := files.append writer.file
    (writer.buffer.accept (LogEntry.framed entry.payload)).1
  have framing : ({ lsn := writer.nextLsn, key, value, timestamp } : LogEntry).frame =
      .ok (LogEntry.framed entry.payload) := by rw [← isEntry, LogEntry.frame_of_fits fits]
  have sending : ChangesOnly home name files middle :=
    (WritesOnly.append files _).changesOnly directory holds.named
  have named : middle.node? (home ++ [name]) = some (.file writer.file) :=
    ((WritesOnly.append files _).node? _).trans holds.named
  have content : middle.content writer.file = LogEntry.frames (flushed ++ sent) := by
    simp only [middle, content_append, if_true, holds.content, sentFrames, LogEntry.frames_append]
  have counted : kept.length ≤ writer.unsynced + 1 :=
    Nat.le_trans keptLength (Nat.succ_le_succ holds.counted)
  have middleOrder : (flushed ++ sent) ++ kept = flushed ++ held ++ [entry] := by
    rw [List.append_assoc, order, List.append_assoc]
  cases due : writer.strategy.isDue (writer.unsynced + 1) with
  | true =>
      -- The buffer goes to the file as well, so it does not matter what it took in.
      have flushing : ChangesOnly home name middle (appended.flushed middle) :=
        flushed_changesOnly (sending.directoryAt directory) named
      have sentOn : (appended.flushed middle).content writer.file =
          LogEntry.frames (flushed ++ held ++ [entry]) := by
        simp only [LogWriter.flushed, appended, content_append, if_true, content, buffer,
          keptFrames, ← LogEntry.frames_append, middleOrder]
      refine ⟨appended.synced, appended.flushed middle, flushed ++ held ++ [entry], [], ?_,
        sending.trans flushing,
        ⟨((WritesOnly.append middle _).node? _).trans named, sentOn, rfl, Nat.le_refl _,
          Or.inl rfl⟩,
        List.append_nil _, fun _ => ⟨rfl, rfl⟩, fun notDue => ?_, fun notDue => ?_, fun _ => rfl,
        rfl, rfl⟩
      · simp only [append, framing, Disk.perform_bind, Disk.perform_modify, due, if_true]
        rfl
      · cases notDue.symm.trans due
      · cases notDue.symm.trans due
  | false =>
      refine ⟨appended, middle, flushed ++ sent, kept, ?_, sending,
        ⟨named, content, keptFrames, counted, Or.inr due⟩, middleOrder, fun isDue => ?_,
        fun _ => rfl, fun _ fitsBuffer => ?_,
        fun isLarge => large (LogEntry.frames_singleton entry ▸ isLarge), rfl, rfl⟩
      · simp only [append, framing, Disk.perform_bind, Disk.perform_modify, due]
        rfl
      · cases isDue.symm.trans due
      · rw [LogEntry.frames_singleton] at fitsBuffer
        obtain ⟨nothing, all⟩ := small fitsBuffer
        exact ⟨by rw [nothing, List.append_nil], all⟩

end LogWriter

theorem LogScan.summary_lastLsn (entries : List LogEntry) :
    (LogScan.mk entries false []).summary.lastLsn =
      ((entries.getLast?.map LogEntry.lsn).getD 0) := by
  cases last : entries.getLast? <;> simp [summary, last]

/-- A log of whole frames is read back and left as it is. -/
theorem Log.recover_join (directory : files.DirectoryAt path home) (isName : Path.IsName name)
    (holds : files.HoldsFile home name (LogEntry.frames entries))
    (fit : ∀ entry ∈ entries, entry.Fits) :
    (Log.recover (Path.join path name)).perform files =
      (.ok (entries, (LogScan.mk entries false []).summary), files) := by
  obtain ⟨id, found, content⟩ := holds
  simp only [recover, Disk.perform_bind, Disk.perform_query, directory.fileAt_join isName found,
    Disk.perform_get, content, LogScan.ofBytes_frames fit]
  rfl

end RowStore
