import RowStore.Proofs.FileSystem.Directory
import RowStore.Proofs.Log.Framing

namespace RowStore

open FileSystem

variable {files : FileSystem} {path : String} {bytes part tail : Bytes}
  {entries : List LogEntry}

/-- The longest beginning of some bytes that is the frames of entries, one behind the other. -/
structure LegiblePart (bytes part : Bytes) (entries : List LogEntry) : Prop where
  begins : part <+: bytes
  records : LogEntry.Records entries part
  longest : ∀ other others, other <+: bytes → LogEntry.Records others other →
    other <+: part ∧ others <+: entries

/-- Where a scan stops, and whether for a damaged frame. -/
def StopsAt (tail : Bytes) (damaged : Bool) : Prop :=
  FrameReading.ofBytes tail = if damaged then .damaged else .torn

theorem StopsAt.not_whole {damaged : Bool} (stops : StopsAt tail damaged) (entry : LogEntry)
    (rest : Bytes) : FrameReading.ofBytes tail ≠ .whole entry rest := by
  intro read
  rw [StopsAt, read] at stops
  cases damaged <;> cases stops

theorem StopsAt.beginsDamaged_iff {damaged : Bool} (stops : StopsAt tail damaged) :
    FrameReading.BeginsDamaged tail ↔ damaged = true := by
  rw [← FrameReading.ofBytes_eq_damaged_iff, stops]
  cases damaged <;> simp

theorem stopsAt_nil : StopsAt [] false :=
  FrameReading.ofBytes_nil

/-- Each frame can be read in one way only, so no other frames reach further. -/
theorem LogEntry.Records.longest {damaged : Bool} (records : Records entries part)
    (stops : StopsAt tail damaged) {other : Bytes} {others : List LogEntry}
    (otherRecords : Records others other) (begins : other <+: part ++ tail) :
    other <+: part ∧ others <+: entries := by
  induction records generalizing other others with
  | nil =>
      cases otherRecords with
      | nil => exact ⟨List.nil_prefix, List.nil_prefix⟩
      | cons isFrame _ =>
          obtain ⟨rest, whole⟩ := begins
          rw [List.nil_append, List.append_assoc] at whole
          exact absurd (FrameReading.ofBytes_eq_whole_iff.mpr ⟨_, isFrame, whole.symm⟩)
            (stops.not_whole _ _)
  | @cons entry frame rest later isFrame _ ih =>
      cases otherRecords with
      | nil => exact ⟨List.nil_prefix, List.nil_prefix⟩
      | @cons otherEntry otherFrame otherRest otherLater otherIsFrame otherRecords =>
          obtain ⟨surplus, whole⟩ := begins
          rw [List.append_assoc, List.append_assoc] at whole
          have read := FrameReading.ofBytes_eq_whole_iff.mpr ⟨frame, isFrame, whole⟩
          have otherRead : FrameReading.ofBytes (otherFrame ++ (otherRest ++ surplus)) =
              .whole otherEntry (otherRest ++ surplus) :=
            FrameReading.ofBytes_eq_whole_iff.mpr ⟨otherFrame, otherIsFrame, rfl⟩
          obtain ⟨rfl, same⟩ := FrameReading.whole.inj (otherRead.symm.trans read)
          rw [same] at whole
          obtain rfl := List.append_cancel_right whole
          obtain ⟨shorter, fewer⟩ := ih otherRecords ⟨surplus, same⟩
          exact ⟨(List.prefix_append_right_inj _).mpr shorter,
            List.cons_prefix_cons.mpr ⟨rfl, fewer⟩⟩

theorem legiblePart_append {damaged : Bool} (records : LogEntry.Records entries part)
    (stops : StopsAt tail damaged) : LegiblePart (part ++ tail) part entries where
  begins := List.prefix_append part tail
  records := records
  longest _ _ begins otherRecords := records.longest stops otherRecords begins

theorem LegiblePart.unique {other : Bytes} {others : List LogEntry}
    (legible : LegiblePart bytes part entries) (otherLegible : LegiblePart bytes other others) :
    part = other ∧ entries = others := by
  obtain ⟨shorter, fewer⟩ := otherLegible.longest part entries legible.begins legible.records
  obtain ⟨longer, more⟩ := legible.longest other others otherLegible.begins otherLegible.records
  exact ⟨shorter.eq_of_length_le longer.length_le, fewer.eq_of_length_le more.length_le⟩

/-- A scan divides the bytes into frames of entries and a tail that does not begin with one. -/
theorem LogScan.exists_after (earlier : List LogEntry) (bytes : Bytes) :
    ∃ entries part tail damaged, bytes = part ++ tail ∧ LogEntry.Records entries part ∧
      StopsAt tail damaged ∧
      after earlier bytes = { entries := earlier.reverse ++ entries, damaged, tail } := by
  induction earlier, bytes using LogScan.after.induct with
  | case1 earlier bytes entry rest read ih =>
      obtain ⟨entries, part, tail, damaged, rfl, records, stops, scanned⟩ := ih
      obtain ⟨frame, isFrame, rfl⟩ := FrameReading.ofBytes_eq_whole_iff.mp read
      refine ⟨entry :: entries, frame ++ part, tail, damaged, (List.append_assoc ..).symm,
        .cons isFrame records, stops, ?_⟩
      rw [after, read]
      simp only [scanned, List.reverse_cons, List.append_assoc, List.singleton_append]
  | case2 earlier bytes read =>
      refine ⟨[], [], bytes, false, rfl, .nil, read, ?_⟩
      rw [after, read, List.append_nil]
  | case3 earlier bytes read =>
      refine ⟨[], [], bytes, true, rfl, .nil, read, ?_⟩
      rw [after, read, List.append_nil]

theorem LogScan.ofBytes_append {damaged : Bool} (records : LogEntry.Records entries part)
    (stops : StopsAt tail damaged) : ofBytes (part ++ tail) = { entries, damaged, tail } := by
  rw [ofBytes, after_records records, after, stops]
  cases damaged <;> simp

namespace LogSummary

/-- A summary of the entries that can be read and of the bytes behind them. -/
structure Describes (summary : LogSummary) (entries : List LogEntry) (tail : Bytes) : Prop where
  recovered : summary.recovered = entries.length
  lastLsn : summary.lastLsn = (entries.getLast?.map LogEntry.lsn).getD 0
  corrupted : FrameReading.BeginsDamaged tail → summary.corrupted = 1
  intact : ¬ FrameReading.BeginsDamaged tail → summary.corrupted = 0
  truncated : summary.truncated = true ↔ tail ≠ []

theorem describes_summary {damaged : Bool} (entries : List LogEntry)
    (stops : StopsAt tail damaged) :
    (LogScan.mk entries damaged tail).summary.Describes entries tail where
  recovered := rfl
  lastLsn := by cases last : entries.getLast? <;> simp [LogScan.summary, last]
  corrupted begins := if_pos (stops.beginsDamaged_iff.mp begins)
  intact notDamaged := if_neg fun damaged => notDamaged (stops.beginsDamaged_iff.mpr damaged)
  truncated := by simp [LogScan.summary]

end LogSummary

namespace Log

theorem fileAt_of_read (reads : files.read path = .ok bytes) :
    ∃ id, files.fileAt path = .ok id ∧ files.content id = bytes := by
  unfold FileSystem.read at reads
  cases found : files.fileAt path with
  | error fault =>
      rw [found] at reads
      cases reads
  | ok id =>
      rw [found] at reads
      exact ⟨id, rfl, Except.ok.inj reads⟩

theorem read_resize {id : FileId} (found : files.fileAt path = .ok id)
    (content : files.content id = part ++ tail) :
    (files.resize id part.length).read path = .ok part := by
  have still : (files.resize id part.length).fileAt path = .ok id := found
  simp only [FileSystem.read, still]
  simp [bind, Except.bind, pure, Except.pure, resize, content_setContent, content, resizeBytes]

theorem verify_perform (reads : files.read path = .ok bytes) :
    (verify path).perform files = (.ok (LogScan.ofBytes bytes).summary, files) := by
  simp only [verify, Disk.perform_bind, Disk.perform_query, reads, Disk.perform_pure]

/-- Recovery returns what the scan has found and leaves the file without its tail. -/
theorem recover_perform {damaged : Bool} (reads : files.read path = .ok (part ++ tail))
    (records : LogEntry.Records entries part) (stops : StopsAt tail damaged) :
    ∃ after, (recover path).perform files =
        (.ok (entries, (LogScan.mk entries damaged tail).summary), after) ∧
      after.read path = .ok part ∧ (tail = [] → after = files) := by
  obtain ⟨id, found, content⟩ := fileAt_of_read reads
  have scanned := LogScan.ofBytes_append records stops
  simp only [recover, Disk.perform_bind, Disk.perform_query, found, Disk.perform_get, content,
    scanned]
  cases tail with
  | nil =>
      refine ⟨files, rfl, ?_, fun _ => rfl⟩
      rwa [List.append_nil] at reads
  | cons byte rest =>
      have kept : (part ++ byte :: rest).length - (byte :: rest).length = part.length := by simp
      rw [kept]
      exact ⟨files.resize id part.length, rfl, read_resize found content, nofun⟩

/-- Recovery does nothing to any file but the log. -/
theorem recover_writesOnly {id : FileId} (found : files.fileAt path = .ok id) :
    WritesOnly id files ((recover path).perform files).2 := by
  simp only [recover, Disk.perform_bind, Disk.perform_query, found, Disk.perform_get]
  cases (LogScan.ofBytes (files.content id)).tail.isEmpty with
  | true => exact WritesOnly.refl files
  | false => exact WritesOnly.resize files _

theorem fit_of_recover {summary : LogSummary} {after : FileSystem}
    (recovering : (recover path).perform files = (.ok (entries, summary), after)) :
    ∀ entry ∈ entries, entry.Fits := by
  cases found : files.fileAt path with
  | error fault =>
      simp only [recover, Disk.perform_bind, Disk.perform_query, found] at recovering
      cases recovering
  | ok id =>
      have reads : files.read path = .ok (files.content id) := by
        simp only [FileSystem.read, found]
        rfl
      obtain ⟨scanned, part, tail, damaged, whole, records, stops, -⟩ :=
        LogScan.exists_after [] (files.content id)
      rw [whole] at reads
      obtain ⟨_, performed, -⟩ := recover_perform reads records stops
      cases performed.symm.trans recovering
      exact records.fit

theorem records_of_mapM_frame {more : List LogEntry} {frames : List Bytes}
    (framing : more.mapM LogEntry.frame = .ok frames) :
    LogEntry.Records more frames.flatten := by
  induction more generalizing frames with
  | nil =>
      cases framing
      exact .nil
  | cons entry rest ih =>
      rw [List.mapM_cons] at framing
      cases first : entry.frame with
      | error fault =>
          rw [first] at framing
          cases framing
      | ok frame =>
          cases later : rest.mapM LogEntry.frame with
          | error fault =>
              rw [first, later] at framing
              cases framing
          | ok restFrames =>
              rw [first, later] at framing
              cases framing
              exact .cons (LogEntry.isFrame_of_frame first) (ih later)

/-- Whatever is in the file, recovery returns the entries of its legible part and leaves that part
in the file. -/
theorem recover_reads_legible (reads : files.read path = .ok bytes) :
    ∃ part tail entries summary after, bytes = part ++ tail ∧ LegiblePart bytes part entries ∧
      (recover path).perform files = (.ok (entries, summary), after) ∧
      (verify path).perform files = (.ok summary, files) ∧
      summary.Describes entries tail ∧ after.read path = .ok part ∧
      (∃ again, (recover path).perform after = (.ok (entries, again), after) ∧
        again.corrupted = 0 ∧ again.truncated = false) ∧
      ∀ longer more frames, more.mapM LogEntry.frame = .ok frames →
        longer.read path = .ok (part ++ frames.flatten) →
        ∃ all, (recover path).perform longer = (.ok (entries ++ more, all), longer) := by
  obtain ⟨entries, part, tail, damaged, rfl, records, stops, -⟩ := LogScan.exists_after [] bytes
  obtain ⟨after, recovering, left, -⟩ := recover_perform reads records stops
  have verifying := verify_perform reads
  rw [LogScan.ofBytes_append records stops] at verifying
  -- A file of whole frames is recovered in full and left as it is.
  have whole : ∀ {others : FileSystem} {all : List LogEntry} {content : Bytes},
      others.read path = .ok content → LogEntry.Records all content →
      (recover path).perform others = (.ok (all, (LogScan.mk all false []).summary), others) := by
    intro others all content othersRead allRecords
    rw [← List.append_nil content] at othersRead
    obtain ⟨same, again, _, unchanged⟩ := recover_perform othersRead allRecords stopsAt_nil
    rwa [unchanged rfl] at again
  refine ⟨part, tail, entries, _, after, rfl, legiblePart_append records stops, recovering,
    verifying, LogSummary.describes_summary entries stops, left, ?_, ?_⟩
  · exact ⟨_, whole left records, rfl, rfl⟩
  · intro longer more frames framing longerRead
    exact ⟨_, whole longerRead (records.append (records_of_mapM_frame framing))⟩

/-- An entry, and behind it a frame whose checksum is not that of its empty payload. -/
def damagedLog : FileSystem where
  nodes := Dictionary.empty.set ["log"] (.file 0)
  contents := Dictionary.empty.set 0
    (LogEntry.framed (LogEntry.payload ⟨7, [107], [118], 0⟩) ++ [0, 0, 0, 0, 1, 0, 0, 0, 9])
  nextFile := 1

theorem recover_reads_legible_damaged :
    damagedLog.read "log" =
        .ok (LogEntry.framed (LogEntry.payload ⟨7, [107], [118], 0⟩) ++
          [0, 0, 0, 0, 1, 0, 0, 0, 9]) ∧
      ∃ summary after, (recover "log").perform damagedLog =
          (.ok ([⟨7, [107], [118], 0⟩], summary), after) ∧
        summary.corrupted = 1 ∧ summary.lastLsn = 7 ∧ summary.truncated = true ∧
        after.read "log" = .ok (LogEntry.framed (LogEntry.payload ⟨7, [107], [118], 0⟩)) := by
  have reads : damagedLog.read "log" =
      .ok (LogEntry.framed (LogEntry.payload ⟨7, [107], [118], 0⟩) ++
        [0, 0, 0, 0, 1, 0, 0, 0, 9]) := rfl
  have stops : StopsAt [0, 0, 0, 0, 1, 0, 0, 0, 9] true := by
    unfold StopsAt
    decide
  have fits : LogEntry.Fits ⟨7, [107], [118], 0⟩ := by decide
  have records : LogEntry.Records [⟨7, [107], [118], 0⟩]
      (LogEntry.framed (LogEntry.payload ⟨7, [107], [118], 0⟩)) := by
    rw [← LogEntry.frames_singleton]
    exact LogEntry.records_frames (by simpa using fits)
  obtain ⟨part, tail, entries, summary, after, whole, legible, recovering, _, describes, left, _⟩ :=
    recover_reads_legible reads
  obtain ⟨rfl, rfl⟩ := legible.unique (legiblePart_append records stops)
  obtain rfl := List.append_cancel_left whole
  refine ⟨reads, summary, after, recovering,
    describes.corrupted (stops.beginsDamaged_iff.mpr rfl), ?_, describes.truncated.mpr (by simp),
    left⟩
  rw [describes.lastLsn]
  rfl

end Log

end RowStore
