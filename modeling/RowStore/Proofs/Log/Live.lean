import Mathlib.Data.List.Induction
import RowStore.Proofs.FileSystem.Naming
import RowStore.Proofs.Log.Recovery
import RowStore.Proofs.Log.Storage

/-!
A log that is being written. Frames pass through the buffer in whole, so the file ends on a frame
boundary whenever it is looked at, and how many frames it lacks is bounded by the strategy of
synchronisation.
-/

namespace RowStore

open FileSystem

inductive LogEvent
  | append (key value : Bytes) (timestamp : UInt64)
  | sync
  | truncate

/-- What the events alone determine: the next number and the frames since the log was last
emptied. -/
structure LogOutline where
  nextLsn : UInt64
  frames : List Bytes

namespace LogOutline

/-- An entry whose frame cannot be made is passed over. -/
def step (outline : LogOutline) : LogEvent → LogOutline
  | .append key value timestamp =>
    match ({ lsn := outline.nextLsn, key, value, timestamp } : LogEntry).frame with
    | .ok frame => { nextLsn := outline.nextLsn + 1, frames := outline.frames ++ [frame] }
    | .error _ => outline
  | .sync => outline
  | .truncate => { outline with frames := [] }

def run (outline : LogOutline) (events : List LogEvent) : LogOutline :=
  events.foldl step outline

theorem run_concat (outline : LogOutline) (events : List LogEvent) (event : LogEvent) :
    outline.run (events ++ [event]) = (outline.run events).step event := by
  rw [run, List.foldl_append]
  rfl

end LogOutline

/-- A log open for writing, and the files it is in. -/
structure LiveLog where
  writer : LogWriter
  files : FileSystem

namespace LiveLog

/-- An event that fails leaves the writer alone. -/
def after (log : LiveLog) : Except Fault LogWriter × FileSystem → LiveLog
  | (.ok writer, files) => { writer, files }
  | (.error _, files) => { log with files }

def step (log : LiveLog) : LogEvent → LiveLog
  | .append key value timestamp =>
    let (outcome, files) := (log.writer.append key value timestamp).perform log.files
    log.after (outcome.map Prod.snd, files)
  | .sync => log.after (log.writer.sync.perform log.files)
  | .truncate => log.after (log.writer.truncate.perform log.files)

/-- The log once its buffer has taken in a frame. -/
def accepted (log : LiveLog) (frame : Bytes) : LiveLog where
  writer := { log.writer with
    buffer := (log.writer.buffer.accept frame).2
    nextLsn := log.writer.nextLsn + 1
    unsynced := log.writer.unsynced + 1 }
  files := log.files.append log.writer.file (log.writer.buffer.accept frame).1

def run (log : LiveLog) (events : List LogEvent) : LiveLog :=
  events.foldl step log

theorem run_concat (log : LiveLog) (events : List LogEvent) (event : LogEvent) :
    log.run (events ++ [event]) = (log.run events).step event := by
  rw [run, List.foldl_append]
  rfl

/-- The files while an event is being carried out, before the last thing it does to them. -/
inductive During (log : LiveLog) : LogEvent → FileSystem → Prop
  | begun (event : LogEvent) : During log event log.files
  /-- The buffer has sent on what it held. -/
  | flushed (event : LogEvent) : During log event (log.writer.flushed log.files)
  | accepted (key value : Bytes) (timestamp : UInt64) {frame : Bytes}
      (framing : ({ lsn := log.writer.nextLsn, key, value, timestamp } : LogEntry).frame =
        .ok frame) :
      During log (.append key value timestamp) (log.accepted frame).files

end LiveLog

/-- The frames of some entries, each with whatever follows the entry in its payload. -/
def AreFrames (frames : List Bytes) : Prop :=
  ∀ frame ∈ frames, ∃ entry : LogEntry, entry.IsFrame frame

/-- The file consists of the frames, and a look at it finds nothing wrong. -/
def Log.ReadsAs (files : FileSystem) (path : String) (frames : List Bytes) : Prop :=
  files.read path = .ok frames.flatten ∧
    ∃ summary, (verify path).perform files = (.ok summary, files) ∧
      summary.recovered = frames.length ∧ summary.corrupted = 0 ∧ summary.truncated = false

/-- A file of frames, or no file yet where one can be made, and no frames. -/
def Log.StandsAt (files : FileSystem) (path : String) (frames : List Bytes) : Prop :=
  files.read path = .ok frames.flatten ∨
    frames = [] ∧ Path.endsInSlash path = false ∧
      ∃ location, files.locate path = .ok location ∧ files.node? location = none

variable {files : FileSystem} {path : String} {frames : List Bytes}

theorem AreFrames.exists_records (areFrames : AreFrames frames) :
    ∃ entries, LogEntry.Records entries frames.flatten ∧ entries.length = frames.length := by
  induction frames with
  | nil => exact ⟨[], .nil, rfl⟩
  | cons frame rest ih =>
      obtain ⟨entry, isFrame⟩ := areFrames frame List.mem_cons_self
      obtain ⟨entries, records, length⟩ :=
        ih fun other member => areFrames other (List.mem_cons_of_mem frame member)
      exact ⟨entry :: entries, .cons isFrame records, congrArg Nat.succ length⟩

theorem AreFrames.of_prefix {earlier : List Bytes} (areFrames : AreFrames frames)
    (begins : earlier <+: frames) : AreFrames earlier :=
  fun frame member => areFrames frame (begins.subset member)

theorem AreFrames.readsAs (areFrames : AreFrames frames)
    (reads : files.read path = .ok frames.flatten) : Log.ReadsAs files path frames := by
  obtain ⟨entries, records, length⟩ := areFrames.exists_records
  refine ⟨reads, _, Log.verify_perform reads, ?_⟩
  rw [LogScan.ofBytes_records records]
  exact ⟨length, rfl, rfl⟩

namespace LiveLog

/-- The frames of the outline divided between the file of the log and its buffer. No more are held
back than are counted. -/
structure Divided (log : LiveLog) (path : String) (strategy : SyncStrategy) (outline : LogOutline)
    (flushed held : List Bytes) : Prop where
  order : flushed ++ held = outline.frames
  areFrames : AreFrames outline.frames
  nextLsn : log.writer.nextLsn = outline.nextLsn
  strategy : log.writer.strategy = strategy
  found : log.files.fileAt path = .ok log.writer.file
  content : log.files.content log.writer.file = flushed.flatten
  buffer : log.writer.buffer.held = held.flatten
  counted : held.length ≤ log.writer.unsynced

/-- Nothing is held back once a synchronisation is due. -/
structure InTime (log : LiveLog) (path : String) (strategy : SyncStrategy) (outline : LogOutline)
    (flushed held : List Bytes) : Prop extends Divided log path strategy outline flushed held where
  awaited : held = [] ∨ log.writer.strategy.isDue log.writer.unsynced = false

variable {log : LiveLog} {strategy : SyncStrategy} {outline : LogOutline}
  {flushed held : List Bytes} {key value frame : Bytes} {timestamp : UInt64}

theorem Divided.readsAs (divided : log.Divided path strategy outline flushed held) :
    Log.ReadsAs log.files path flushed := by
  refine (divided.areFrames.of_prefix ?_).readsAs ?_
  · rw [← divided.order]
    exact List.prefix_append flushed held
  · rw [read_of_fileAt divided.found, divided.content]

theorem InTime.length_le_window (inTime : log.InTime path strategy outline flushed held) :
    held.length ≤ strategy.window := by
  rcases inTime.awaited with none | notDue
  · simp [none]
  · rw [inTime.strategy] at notDue
    exact Nat.le_trans inTime.counted (SyncStrategy.le_window notDue)

theorem Divided.sync (divided : log.Divided path strategy outline flushed held) :
    (log.step .sync).InTime path strategy outline (flushed ++ held) [] where
  order := by rw [List.append_nil, divided.order]
  areFrames := divided.areFrames
  nextLsn := divided.nextLsn
  strategy := divided.strategy
  found := (WritesOnly.append log.files _).fileAt path ▸ divided.found
  content := by
    change (log.writer.flushed log.files).content log.writer.file = _
    simp only [LogWriter.flushed, content_append, if_true, divided.content, divided.buffer,
      List.flatten_append]
  buffer := rfl
  counted := Nat.le_refl _
  awaited := Or.inl rfl

theorem Divided.truncate (divided : log.Divided path strategy outline flushed held) :
    (log.step .truncate).InTime path strategy (outline.step .truncate) [] [] := by
  have resizing : WritesOnly log.writer.file (log.step .sync).files (log.step .truncate).files :=
    WritesOnly.resize _ 0
  exact {
    order := rfl
    areFrames := nofun
    nextLsn := divided.nextLsn
    strategy := divided.strategy
    found := resizing.fileAt path ▸ divided.sync.found
    content := by
      change ((log.writer.flushed log.files).resize log.writer.file 0).content log.writer.file = _
      simp [resize, content_setContent, resizeBytes]
    buffer := rfl
    counted := Nat.le_refl _
    awaited := Or.inl rfl }

theorem Divided.accepted (divided : log.Divided path strategy outline flushed held)
    {entry : LogEntry} (isFrame : entry.IsFrame frame) :
    ∃ flushed' held', (log.accepted frame).Divided path strategy
      { nextLsn := outline.nextLsn + 1, frames := outline.frames ++ [frame] } flushed' held' := by
  have holds : log.writer.buffer.held = held.flatMap id := by
    rw [List.flatMap_id, divided.buffer]
  obtain ⟨sent, kept, isSent, isKept, order, fewer, _⟩ :=
    OutputBuffer.accept_pieces id holds frame
  rw [List.flatMap_id] at isSent isKept
  refine ⟨flushed ++ sent, kept, ?_⟩
  exact {
    order := by rw [List.append_assoc, order, ← List.append_assoc, divided.order]
    areFrames := by
      intro other member
      rcases List.mem_append.mp member with old | new
      · exact divided.areFrames other old
      · exact ⟨entry, List.mem_singleton.mp new ▸ isFrame⟩
    nextLsn := by
      rw [← divided.nextLsn]
      rfl
    strategy := divided.strategy
    found := (WritesOnly.append log.files _).fileAt path ▸ divided.found
    content := by
      change (log.files.append log.writer.file (log.writer.buffer.accept frame).1).content
        log.writer.file = _
      rw [content_append, if_pos rfl, divided.content, List.flatten_append]
      exact congrArg (flushed.flatten ++ ·) isSent
    buffer := isKept
    counted := Nat.le_trans fewer (Nat.succ_le_succ divided.counted) }

theorem step_append
    (framing : ({ lsn := log.writer.nextLsn, key, value, timestamp } : LogEntry).frame =
      .ok frame) :
    log.step (.append key value timestamp) =
      if log.writer.strategy.isDue (log.writer.unsynced + 1) then (log.accepted frame).step .sync
      else log.accepted frame := by
  simp only [step, LogWriter.append, framing, Disk.perform_bind, Disk.perform_modify]
  split <;> rfl

theorem step_append_refused {fault : Fault}
    (refusing : ({ lsn := log.writer.nextLsn, key, value, timestamp } : LogEntry).frame =
      .error fault) : log.step (.append key value timestamp) = log := by
  simp only [step, LogWriter.append, refusing, Disk.perform_fail]
  rfl

theorem InTime.append (inTime : log.InTime path strategy outline flushed held)
    (key value : Bytes) (timestamp : UInt64) :
    ∃ flushed' held', (log.step (.append key value timestamp)).InTime path strategy
      (outline.step (.append key value timestamp)) flushed' held' := by
  cases framing : ({ lsn := log.writer.nextLsn, key, value, timestamp } : LogEntry).frame with
  | error fault =>
      rw [step_append_refused framing]
      rw [inTime.nextLsn] at framing
      simp only [LogOutline.step, framing]
      exact ⟨flushed, held, inTime⟩
  | ok frame =>
      obtain ⟨flushed', held', accepted⟩ :=
        inTime.accepted (LogEntry.isFrame_of_frame framing)
      rw [step_append framing]
      rw [inTime.nextLsn] at framing
      simp only [LogOutline.step, framing]
      cases due : log.writer.strategy.isDue (log.writer.unsynced + 1) with
      | true => exact ⟨_, _, accepted.sync⟩
      | false => exact ⟨_, _, { accepted with awaited := Or.inr due }⟩

theorem InTime.step (inTime : log.InTime path strategy outline flushed held) (event : LogEvent) :
    ∃ flushed' held',
      (log.step event).InTime path strategy (outline.step event) flushed' held' ∧
      (event = .sync ∨ event = .truncate → held' = []) := by
  cases event with
  | append key value timestamp =>
      obtain ⟨flushed', held', appended⟩ := inTime.append key value timestamp
      exact ⟨flushed', held', appended, nofun⟩
  | sync => exact ⟨_, _, inTime.sync, fun _ => rfl⟩
  | truncate => exact ⟨_, _, inTime.truncate, fun _ => rfl⟩

theorem InTime.run (inTime : log.InTime path strategy outline flushed [])
    (events : List LogEvent) :
    ∃ flushed' held',
      (log.run events).InTime path strategy (outline.run events) flushed' held' ∧
      (events.getLast? = some .sync ∨ events.getLast? = some .truncate → held' = []) := by
  induction events using List.reverseRecOn with
  | nil => exact ⟨flushed, [], inTime, fun _ => rfl⟩
  | append_singleton earlier event ih =>
      obtain ⟨_, _, before, _⟩ := ih
      rw [run_concat, LogOutline.run_concat, List.getLast?_concat]
      simpa using before.step event

/-- Also while an event is being carried out, whole frames are in the file. -/
theorem Divided.during (divided : log.Divided path strategy outline flushed held)
    {event : LogEvent} {files : FileSystem} (during : log.During event files) :
    ∃ passed, Log.ReadsAs files path passed ∧
      (passed <+: outline.frames ∨ passed <+: (outline.step event).frames) := by
  cases during with
  | begun => exact ⟨flushed, divided.readsAs, Or.inl ⟨held, divided.order⟩⟩
  | flushed => exact ⟨flushed ++ held, divided.sync.readsAs, Or.inl ⟨[], by simp [divided.order]⟩⟩
  | accepted key value timestamp framing =>
      obtain ⟨passed, kept, accepted⟩ := divided.accepted (LogEntry.isFrame_of_frame framing)
      refine ⟨passed, accepted.readsAs, Or.inr ⟨kept, ?_⟩⟩
      rw [divided.nextLsn] at framing
      simp only [accepted.order, LogOutline.step, framing]

end LiveLog

theorem Log.StandsAt.openFile (stands : StandsAt files path frames) :
    ∃ id opened, files.openFile path = .ok (id, opened) ∧ opened.fileAt path = .ok id ∧
      opened.content id = frames.flatten := by
  rcases stands with reads | ⟨rfl, noSlash, location, located, absent⟩
  · obtain ⟨id, found, content⟩ := Log.fileAt_of_read reads
    exact ⟨id, files, openFile_of_fileAt found, found, content⟩
  · have opening := openFile_new noSlash located absent
    refine ⟨_, _, opening, fileAt_eq_ok_iff.mpr ⟨noSlash, names_of_openFile opening⟩, ?_⟩
    rw [content_withNewFile, if_pos rfl]
    rfl

/-- A log opened on a file of whole frames is at every moment a file of whole frames. They are the
first of those since the log was last emptied, the others are held back, and how many these can be
is up to the strategy. -/
theorem LiveLog.run_reads_whole_frames (stands : Log.StandsAt files path frames)
    (areFrames : AreFrames frames) (strategy : SyncStrategy) (nextLsn : UInt64) :
    ∃ writer opened, (LogWriter.openAt path strategy nextLsn).perform files = (.ok writer, opened) ∧
      ∀ events, ∃ flushed held,
        flushed ++ held = (LogOutline.run { nextLsn, frames } events).frames ∧
        Log.ReadsAs (run { writer, files := opened } events).files path flushed ∧
        (run { writer, files := opened } events).writer.buffer.held = held.flatten ∧
        (strategy = .everyWrite → held = []) ∧
        (∀ count, strategy = .everyEntries count → held.length < max count 1) ∧
        (events.getLast? = some .sync ∨ events.getLast? = some .truncate → held = []) ∧
        ∀ event during, (run { writer, files := opened } events).During event during →
          ∃ passed, Log.ReadsAs during path passed ∧
            (passed <+: (LogOutline.run { nextLsn, frames } events).frames ∨
              passed <+: (LogOutline.run { nextLsn, frames } (events ++ [event])).frames) := by
  obtain ⟨id, opened, opening, found, content⟩ := stands.openFile
  let writer : LogWriter := { path, file := id, nextLsn, strategy }
  have opens : (LogWriter.openAt path strategy nextLsn).perform files = (.ok writer, opened) := by
    simp only [LogWriter.openAt, Disk.perform_bind, Disk.perform_openFile, opening,
      Disk.perform_pure, writer]
  have start : LiveLog.InTime { writer, files := opened } path strategy { nextLsn, frames }
      frames [] := {
    order := List.append_nil frames
    areFrames := areFrames
    nextLsn := rfl
    strategy := rfl
    found := found
    content := content
    buffer := rfl
    counted := Nat.le_refl _
    awaited := Or.inl rfl }
  refine ⟨writer, opened, opens, fun events => ?_⟩
  obtain ⟨flushed, held, inTime, synchronised⟩ := start.run events
  have few := inTime.length_le_window
  refine ⟨flushed, held, inTime.order, inTime.readsAs, inTime.buffer, ?_, ?_, synchronised, ?_⟩
  · rintro rfl
    exact List.eq_nil_of_length_eq_zero (Nat.le_zero.mp few)
  · rintro count rfl
    simp only [SyncStrategy.window] at few
    omega
  · intro event during isDuring
    rw [LogOutline.run_concat]
    exact inTime.during isDuring

def writtenFrame : Bytes :=
  LogEntry.framed (LogEntry.payload ⟨7, [107], [118], 0⟩)

def writtenLog : FileSystem where
  nodes := Dictionary.empty.set ["log"] (.file 0)
  contents := Dictionary.empty.set 0 writtenFrame
  nextFile := 1

def twoAppends : List LogEvent :=
  [.append [107] [118] 0, .append [] [] 1, .sync]

theorem LiveLog.run_reads_whole_frames_written :
    Log.StandsAt writtenLog "log" [writtenFrame] ∧ AreFrames [writtenFrame] ∧
      ∃ writer opened,
        (LogWriter.openAt "log" (.everyEntries 3) 8).perform writtenLog = (.ok writer, opened) ∧
        ∃ flushed, flushed.length = 3 ∧
          Log.ReadsAs (run { writer, files := opened } twoAppends).files "log" flushed := by
  have stands : Log.StandsAt writtenLog "log" [writtenFrame] :=
    Or.inl (by rw [List.flatten_singleton]; rfl)
  have fits : LogEntry.Fits ⟨7, [107], [118], 0⟩ := by decide
  have areFrames : AreFrames [writtenFrame] := by
    intro frame member
    obtain rfl := List.mem_singleton.mp member
    exact ⟨_, fits.isFrame⟩
  obtain ⟨writer, opened, opening, always⟩ :=
    run_reads_whole_frames stands areFrames (.everyEntries 3) 8
  obtain ⟨flushed, held, order, readsAs, _, _, _, synchronised, _⟩ := always twoAppends
  have nothing := synchronised (Or.inl rfl)
  have three : (LogOutline.run { nextLsn := 8, frames := [writtenFrame] } twoAppends).frames.length =
      3 := rfl
  refine ⟨stands, areFrames, writer, opened, opening, flushed, ?_, readsAs⟩
  rw [← three, ← order, nothing, List.append_nil]

end RowStore
