import RowStore.Proofs.FileSystem.Directory
import RowStore.Proofs.Snapshot.Image
import RowStore.Snapshot.Storage

namespace RowStore

open FileSystem

theorem OutputBuffer.acceptAll_append (buffer : OutputBuffer) (pieces : List Bytes) :
    (buffer.acceptAll pieces).1 ++ (buffer.acceptAll pieces).2.held =
      buffer.held ++ pieces.flatten := by
  suffices passed : ∀ sent (current : OutputBuffer),
      let result := pieces.foldl (fun (state : Bytes × OutputBuffer) piece =>
        (state.1 ++ (state.2.accept piece).1, (state.2.accept piece).2)) (sent, current)
      result.1 ++ result.2.held = sent ++ (current.held ++ pieces.flatten) by
    exact passed [] buffer
  induction pieces with
  | nil => simp
  | cons piece rest ih =>
      intro sent current
      have accepted := current.accept_append piece
      simp only [List.foldl_cons]
      rw [ih, List.flatten_cons, ← List.append_assoc current.held, ← accepted]
      simp

namespace FileSystem

variable {files : FileSystem} {id : FileId}

theorem resizeBytes_length (bytes : Bytes) : resizeBytes bytes bytes.length = bytes := by
  simp [resizeBytes]

theorem overwrite_end (bytes written : Bytes) :
    overwrite bytes bytes.length written = bytes ++ written := by
  simp [overwrite, resizeBytes_length]

theorem overwrite_middle {before old written : Bytes} (after : Bytes)
    (width : written.length = old.length) :
    overwrite (before ++ (old ++ after)) before.length written = before ++ (written ++ after) := by
  simp [overwrite, resizeBytes, width]

theorem content_writeAt (files : FileSystem) (id : FileId) (offset : Nat) (written : Bytes) :
    (files.writeAt id offset written).content id =
      if written = [] then files.content id else overwrite (files.content id) offset written := by
  unfold writeAt
  cases written with
  | nil => simp
  | cons byte rest => simp [content_setContent]

theorem content_writeAt_end {offset : Nat} (atEnd : offset = (files.content id).length)
    (written : Bytes) : (files.writeAt id offset written).content id =
      files.content id ++ written := by
  subst atEnd
  rw [content_writeAt, overwrite_end]
  split
  · rename_i nothing
    rw [nothing, List.append_nil]
  · rfl

end FileSystem

namespace SnapshotWriter

variable {writer : SnapshotWriter} {files opened : FileSystem} {id : FileId} {path : String}
  {entries : List (Bytes × Bytes)} {bytes : Bytes}

/-- What has been sent to the file, followed by what is still held back. -/
structure Carries (writer : SnapshotWriter) (files : FileSystem) (bytes : Bytes) : Prop where
  offset : writer.offset = (files.content writer.file).length
  whole : files.content writer.file ++ writer.buffer.held = bytes

/-- A writer after the pieces have been emitted. -/
def emitted (writer : SnapshotWriter) (pieces : List Bytes) : SnapshotWriter :=
  { writer with
    buffer := (writer.buffer.acceptAll pieces).2
    offset := writer.offset + (writer.buffer.acceptAll pieces).1.length }

@[simp] theorem emitted_temporaryPath (writer : SnapshotWriter) (pieces : List Bytes) :
    (writer.emitted pieces).temporaryPath = writer.temporaryPath := rfl

theorem emit_perform (writer : SnapshotWriter) (pieces : List Bytes) (files : FileSystem) :
    (writer.emit pieces).perform files =
      (.ok (writer.emitted pieces),
        files.writeAt writer.file writer.offset (writer.buffer.acceptAll pieces).1) := rfl

theorem Carries.emitted (carries : writer.Carries files bytes) (pieces : List Bytes) :
    (writer.emitted pieces).Carries
      (files.writeAt writer.file writer.offset (writer.buffer.acceptAll pieces).1)
      (bytes ++ pieces.flatten) where
  offset := by
    have content := content_writeAt_end carries.offset (writer.buffer.acceptAll pieces).1
    change writer.offset + _ = _
    rw [SnapshotWriter.emitted, content, List.length_append, carries.offset]
  whole := by
    have content := content_writeAt_end carries.offset (writer.buffer.acceptAll pieces).1
    simp only [SnapshotWriter.emitted, content, List.append_assoc,
      OutputBuffer.acceptAll_append, ← carries.whole]

theorem Carries.content_flushed (carries : writer.Carries files bytes) :
    (writer.flushed files).content writer.file = bytes := by
  rw [SnapshotWriter.flushed, content_writeAt_end carries.offset, carries.whole]

/-- A writer that has been given these entries for the snapshot at a path. -/
structure Collects (path : String) (id : FileId) (writer : SnapshotWriter) (files : FileSystem)
    (entries : List (Bytes × Bytes)) : Prop where
  path_eq : writer.path = path
  temporaryPath_eq : writer.temporaryPath = temporaryName path
  file_eq : writer.file = id
  carries : writer.Carries files (Snapshot.header 0 ++ Snapshot.block entries)
  count : writer.entries = entries.length
  register : writer.register = ChecksumRegister.initial.absorb (Snapshot.block entries)

theorem create_perform (result : files.openFile (temporaryName path) = .ok (id, opened)) :
    ∃ writer created, (create path).perform files = (.ok writer, created) ∧
      WritesOnly id opened created ∧ Collects path id writer created [] := by
  let fresh : SnapshotWriter := { path, temporaryPath := temporaryName path, file := id }
  let emptied := opened.setContent id []
  let pieces := [Snapshot.magic, Snapshot.versionField, Snapshot.countField 0]
  have empty : emptied.content id = [] := by simp [emptied, content_setContent]
  have blank : fresh.Carries emptied [] := ⟨by simp [fresh, empty], by simp [fresh, empty]⟩
  have header : pieces.flatten = Snapshot.header 0 ++ Snapshot.block [] := by
    simp [pieces, Snapshot.header, Snapshot.block]
  refine ⟨fresh.emitted pieces,
    emptied.writeAt id fresh.offset (fresh.buffer.acceptAll pieces).1, ?_,
    (WritesOnly.setContent opened []).trans (WritesOnly.writeAt emptied _ _), ?_⟩
  · simp only [create, Disk.perform_bind, Disk.perform_openFile, result, Disk.perform_modify]
    exact emit_perform fresh pieces emptied
  · exact ⟨rfl, by simp only [emitted_temporaryPath, fresh], rfl,
      by simpa only [List.nil_append, header] using blank.emitted pieces, rfl, rfl⟩

theorem create_refused {fault : FileFault}
    (refused : files.openFile (temporaryName path) = .error fault) :
    (create path).perform files = (.error (.file fault), files) := by
  simp only [create, Disk.perform_bind, Disk.perform_openFile, refused]

theorem add_perform {entry : Bytes × Bytes} (collects : Collects path id writer files entries)
    (fits : entry.1.length < Bytes.fieldRange 4 ∧ entry.2.length < Bytes.fieldRange 4) :
    ∃ written after, (writer.add entry.1 entry.2).perform files = (.ok written, after) ∧
      WritesOnly id files after ∧ Collects path id written after (entries ++ [entry]) := by
  obtain rfl := collects.file_eq
  let pieces := Snapshot.entryPieces entry.1 entry.2
  let after := files.writeAt writer.file writer.offset (writer.buffer.acceptAll pieces).1
  let written : SnapshotWriter := { writer.emitted pieces with
    entries := writer.entries + 1
    register := writer.register.absorb (Snapshot.encodeEntry entry) }
  have carries := collects.carries.emitted pieces
  have encoded : pieces.flatten = Snapshot.encodeEntry entry := rfl
  rw [encoded, List.append_assoc, ← Snapshot.block_singleton, ← Snapshot.block_append] at carries
  refine ⟨written, after, ?_, WritesOnly.writeAt files _ _, collects.path_eq,
    by simp only [written, emitted_temporaryPath, collects.temporaryPath_eq], rfl,
    ⟨carries.offset, carries.whole⟩, ?_, ?_⟩
  · simp only [add, Nat.not_le.mpr fits.1, Nat.not_le.mpr fits.2, if_false, Disk.perform_bind,
      Disk.perform_pure, emit_perform]
    rfl
  · simp [written, collects.count]
  · simp [written, collects.register, ← ChecksumRegister.absorb_append, Snapshot.block_singleton]

theorem addAll_perform (collects : Collects path id writer files entries)
    {added : List (Bytes × Bytes)} (fit : Snapshot.ChunksFit added) :
    ∃ written after, (writer.addAll added).perform files = (.ok written, after) ∧
      WritesOnly id files after ∧ Collects path id written after (entries ++ added) := by
  induction added generalizing writer files entries with
  | nil => exact ⟨writer, files, rfl, WritesOnly.refl files, by simpa using collects⟩
  | cons entry rest ih =>
      obtain ⟨next, middle, first, firstWrites, nextCollects⟩ :=
        add_perform collects (fit entry List.mem_cons_self)
      obtain ⟨written, after, later, laterWrites, writtenCollects⟩ :=
        ih nextCollects (fun other member => fit other (List.mem_cons_of_mem entry member))
      refine ⟨written, after, ?_, firstWrites.trans laterWrites, by simpa using writtenCollects⟩
      simpa only [addAll, List.foldlM_cons, Disk.perform_bind, first] using later

theorem complete_perform (collects : Collects path id writer files entries) :
    ∃ after, writer.complete.perform files = (.ok (Snapshot.image entries).length, after) ∧
      WritesOnly id files after ∧ after.content id = Snapshot.image entries := by
  obtain rfl := collects.file_eq
  let footer := [Bytes.littleEndian 4 writer.register.value.toNat, Snapshot.padding]
  let closed := writer.emitted footer
  let sent := files.writeAt writer.file writer.offset (writer.buffer.acceptAll footer).1
  let flushed := closed.flushed sent
  let after := flushed.writeAt writer.file Snapshot.countOffset (Snapshot.countField writer.entries)
  have checksum : footer.flatten = (Snapshot.block entries).checksumField ++ Snapshot.padding := by
    simp [footer, collects.register, Bytes.checksumField, Bytes.checksum]
  have flushedContent : flushed.content writer.file = Snapshot.magic ++ Snapshot.versionField ++
      (Snapshot.countField 0 ++ (Snapshot.block entries ++ footer.flatten)) := by
    have content : flushed.content writer.file = _ :=
      (collects.carries.emitted footer).content_flushed
    rw [content, Snapshot.header]
    simp only [List.append_assoc]
  have content : after.content writer.file = Snapshot.image entries := by
    have nonempty : Snapshot.countField writer.entries ≠ [] := by
      simp [← List.length_pos_iff, Snapshot.countField]
    have width : (Snapshot.countField writer.entries).length = (Snapshot.countField 0).length := by
      simp [Snapshot.countField]
    have offset : Snapshot.countOffset = (Snapshot.magic ++ Snapshot.versionField).length := rfl
    rw [content_writeAt, if_neg nonempty, flushedContent, offset, overwrite_middle _ width,
      collects.count, checksum, Snapshot.image_eq, Snapshot.header]
    simp only [List.append_assoc]
  refine ⟨after, ?_, ?_, content⟩
  · rw [← content]
    rfl
  · exact ((WritesOnly.writeAt files _ _).trans (WritesOnly.writeAt sent _ _)).trans
      (WritesOnly.writeAt flushed _ _)

/-- All that can still go wrong at the end is the change of name. -/
theorem finish_perform (collects : Collects path id writer files entries) :
    ∃ full, WritesOnly id files full ∧ full.content id = Snapshot.image entries ∧
      writer.finish.perform files =
        match full.rename (temporaryName path) path with
        | .ok renamed =>
          (.ok { path, entries := entries.length, size := (Snapshot.image entries).length },
            renamed)
        | .error fault => (.error (.file fault), full) := by
  obtain ⟨full, completing, writes, content⟩ := complete_perform collects
  refine ⟨full, writes, content, ?_⟩
  simp only [finish, Disk.perform_bind, completing, Disk.perform_change, collects.path_eq,
    collects.temporaryPath_eq, collects.count]
  cases full.rename (temporaryName path) path <;> rfl

end SnapshotWriter

namespace Snapshot

variable {files opened left saved : FileSystem} {id : FileId} {path name temporary : String}
  {home : Location} {entries : List (Bytes × Bytes)}

/-- Saving up to the last of the given entries. -/
def begin (path : String) (entries : List (Bytes × Bytes)) : Disk SnapshotWriter := do
  let writer ← SnapshotWriter.create path
  writer.addAll entries

/-- Saving up to the change of name. -/
def prepare (path : String) (entries : List (Bytes × Bytes)) : Disk Nat := do
  let filled ← begin path entries
  filled.complete

theorem begin_perform
    (opening : files.openFile (SnapshotWriter.temporaryName path) = .ok (id, opened))
    (fit : ChunksFit entries) :
    ∃ filled left, (begin path entries).perform files = (.ok filled, left) ∧
      WritesOnly id opened left ∧ SnapshotWriter.Collects path id filled left entries := by
  obtain ⟨writer, created, creating, createdWrites, collects⟩ :=
    SnapshotWriter.create_perform opening
  obtain ⟨filled, left, adding, addedWrites, filledCollects⟩ :=
    SnapshotWriter.addAll_perform collects fit
  refine ⟨filled, left, ?_, createdWrites.trans addedWrites, filledCollects⟩
  simp only [begin, Disk.perform_bind, creating, adding]

theorem begin_refused {fault : FileFault}
    (refused : files.openFile (SnapshotWriter.temporaryName path) = .error fault)
    (entries : List (Bytes × Bytes)) :
    (begin path entries).perform files = (.error (.file fault), files) := by
  simp only [begin, Disk.perform_bind, SnapshotWriter.create_refused refused]

theorem store_eq_begin (path : String) (entries : List (Bytes × Bytes)) :
    store path entries = begin path entries >>= SnapshotWriter.finish := by
  rw [store, begin, bind_assoc]

theorem store_perform
    (opening : files.openFile (SnapshotWriter.temporaryName path) = .ok (id, opened))
    (fit : ChunksFit entries) :
    ∃ full, WritesOnly id opened full ∧ full.content id = image entries ∧
      (store path entries).perform files =
        match full.rename (SnapshotWriter.temporaryName path) path with
        | .ok renamed =>
          (.ok { path, entries := entries.length, size := (image entries).length }, renamed)
        | .error fault => (.error (.file fault), full) := by
  obtain ⟨filled, left, beginning, writes, collects⟩ := begin_perform opening fit
  obtain ⟨full, fullWrites, content, finishing⟩ := SnapshotWriter.finish_perform collects
  refine ⟨full, writes.trans fullWrites, content, ?_⟩
  simp only [store_eq_begin, Disk.perform_bind, beginning, finishing]

theorem store_refused {fault : FileFault}
    (refused : files.openFile (SnapshotWriter.temporaryName path) = .error fault)
    (entries : List (Bytes × Bytes)) :
    (store path entries).perform files = (.error (.file fault), files) := by
  simp only [store_eq_begin, Disk.perform_bind, begin_refused refused]

/-- In a directory a snapshot can be saved under every name for which neither it nor the temporary
name belongs to a directory. -/
theorem store_join (directory : files.DirectoryAt path home) (isName : Path.IsName name)
    (temporaryIsName : Path.IsName temporary) (different : temporary ≠ name)
    (named : SnapshotWriter.temporaryName (Path.join path name) = Path.join path temporary)
    (free : files.node? (home ++ [name]) ≠ some .directory)
    (temporaryFree : files.node? (home ++ [temporary]) ≠ some .directory)
    (fit : ChunksFit entries) :
    ∃ full saved, ChangesOnly home temporary files full ∧
      Renames home temporary name full saved ∧ saved.DirectoryAt path home ∧
      saved.HoldsFile home name (image entries) ∧
      (store (Path.join path name) entries).perform files =
        (.ok { path := Path.join path name, entries := entries.length
               size := (image entries).length }, saved) := by
  obtain ⟨id, opened, opening, here, openedChanges⟩ :=
    directory.openFile_exists temporaryIsName temporaryFree
  rw [← named] at opening
  obtain ⟨full, writes, content, stored⟩ := store_perform opening fit
  have fullChanges := openedChanges.trans
    (writes.changesOnly (openedChanges.directoryAt directory) here)
  have fullDirectory := fullChanges.directoryAt directory
  have found : full.node? (home ++ [temporary]) = some (.file id) := (writes.node? _).trans here
  have fullFree : full.node? (home ++ [name]) ≠ some .directory := by
    rw [fullChanges.node?_other different.symm]
    exact free
  obtain ⟨saved, moved, renames⟩ :=
    fullDirectory.rename_join temporaryIsName isName different found fullFree
  refine ⟨full, saved, fullChanges, renames, renames.directoryAt fullDirectory,
    ⟨id, renames.here.trans found, (renames.content id).trans content⟩, ?_⟩
  rw [stored, named, moved]

theorem load_perform {bytes : Bytes} (reads : files.read path = .ok bytes) :
    (load path).perform files =
      match parse path bytes with
      | .ok entries =>
        (.ok (entries, { path, entries := entries.length, size := bytes.length }), files)
      | .error fault => (.error (.snapshot fault), files) := by
  simp only [load, Disk.perform_bind, Disk.perform_query, reads]
  cases parse path bytes <;> rfl

theorem load_join (directory : files.DirectoryAt path home) (isName : Path.IsName name)
    (holds : files.HoldsFile home name (image entries)) (storable : Storable entries) :
    (load (Path.join path name)).perform files =
      (.ok (entries, { path := Path.join path name, entries := entries.length
                       size := (image entries).length }), files) := by
  obtain ⟨id, found, content⟩ := holds
  have reads := directory.read_join isName found
  rw [content] at reads
  rw [load_perform reads, parse_image _ storable]

/-- What is left if saving a snapshot is broken off before the snapshot takes its name: all is as it
was, or the temporary file has been opened and holds whatever bytes have reached it. -/
inductive Underway (path : String) (files : FileSystem) : FileSystem → Prop
  | notBegun : Underway path files files
  | begun {id : FileId} {opened left : FileSystem}
      (opening : files.openFile (SnapshotWriter.temporaryName path) = .ok (id, opened))
      (writes : WritesOnly id opened left) : Underway path files left

theorem underway_begin (fit : ChunksFit entries) :
    Underway path files ((begin path entries).perform files).2 := by
  cases opening : files.openFile (SnapshotWriter.temporaryName path) with
  | error fault =>
      rw [begin_refused opening]
      exact .notBegun
  | ok result =>
      obtain ⟨filled, left, beginning, writes, _⟩ := begin_perform opening fit
      rw [beginning]
      exact .begun opening writes

theorem underway_prepare (fit : ChunksFit entries) :
    Underway path files ((prepare path entries).perform files).2 := by
  cases opening : files.openFile (SnapshotWriter.temporaryName path) with
  | error fault =>
      simp only [prepare, Disk.perform_bind, begin_refused opening]
      exact .notBegun
  | ok result =>
      obtain ⟨filled, left, beginning, writes, collects⟩ := begin_perform opening fit
      obtain ⟨full, completing, fullWrites, _⟩ := SnapshotWriter.complete_perform collects
      simp only [prepare, Disk.perform_bind, beginning, completing]
      exact .begun opening (writes.trans fullWrites)

theorem Underway.changesOnly (underway : Underway (Path.join path name) files left)
    (directory : files.DirectoryAt path home) (temporaryIsName : Path.IsName temporary)
    (named : SnapshotWriter.temporaryName (Path.join path name) = Path.join path temporary) :
    ChangesOnly home temporary files left := by
  cases underway with
  | notBegun => exact ChangesOnly.refl files
  | begun opening writes =>
      rw [named] at opening
      by_cases free : files.node? (home ++ [temporary]) = some .directory
      · rw [directory.openFile_obstructed temporaryIsName free] at opening
        cases opening
      · obtain ⟨id, opened, result, here, changes⟩ :=
          directory.openFile_exists temporaryIsName free
        rw [result] at opening
        cases opening
        exact changes.trans (writes.changesOnly (changes.directoryAt directory) here)

end Snapshot

end RowStore
