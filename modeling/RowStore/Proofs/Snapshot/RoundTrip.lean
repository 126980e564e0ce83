import RowStore.Proofs.FileSystem.Extension
import RowStore.Proofs.FileSystem.Naming
import RowStore.Proofs.Snapshot.Grammar
import RowStore.Proofs.Snapshot.Storage

namespace RowStore

open FileSystem

namespace SnapshotWriter

variable {writer : SnapshotWriter} {files created left saved : FileSystem} {id : FileId}
  {path : String} {entries : List (Bytes × Bytes)} {info : SnapshotInfo} {fault : Fault}

theorem create_eq_ok (creating : (create path).perform files = (.ok writer, created)) :
    ∃ id, Collects path id writer created [] ∧ created.Names (temporaryName path) id := by
  cases opening : files.openFile (temporaryName path) with
  | error fault =>
      cases creating.symm.trans (create_refused opening)
  | ok result =>
      obtain ⟨id, opened⟩ := result
      obtain ⟨fresh, after, performed, writes, collects⟩ := create_perform opening
      rw [performed] at creating
      cases creating
      exact ⟨id, collects, (names_of_openFile opening).of_writesOnly writes⟩

theorem Collects.finish_eq_ok (collects : Collects path id writer files entries)
    (names : files.Names (temporaryName path) id)
    (finishing : writer.finish.perform files = (.ok info, saved)) :
    info = { path, entries := entries.length, size := (Snapshot.image entries).length } ∧
      saved.read path = .ok (Snapshot.image entries) := by
  obtain ⟨full, writes, content, performed⟩ := finish_perform collects
  rw [performed] at finishing
  cases moved : full.rename (temporaryName path) path with
  | error refusal =>
      rw [moved] at finishing
      cases finishing
  | ok renamed =>
      rw [moved] at finishing
      cases finishing
      exact ⟨rfl, content ▸ (names.of_writesOnly writes).read_rename moved⟩

theorem Collects.finish_eq_error (collects : Collects path id writer files entries)
    (finishing : writer.finish.perform files = (.error fault, saved)) :
    ∃ refusal, fault = .file refusal ∧
      saved.rename (temporaryName path) path = .error refusal := by
  obtain ⟨full, _, _, performed⟩ := finish_perform collects
  rw [performed] at finishing
  cases moved : full.rename (temporaryName path) path with
  | error refusal =>
      rw [moved] at finishing
      cases finishing
      exact ⟨refusal, rfl, moved⟩
  | ok renamed =>
      rw [moved] at finishing
      cases finishing

end SnapshotWriter

namespace Snapshot

variable {files after : FileSystem} {path : String} {bytes : Bytes}
  {entries : List (Bytes × Bytes)} {info : SnapshotInfo}

theorem load_eq_ok_iff (reads : files.read path = .ok bytes) :
    (load path).perform files = (.ok (entries, info), after) ↔
      Represents entries bytes ∧
        info = { path, entries := entries.length, size := bytes.length } ∧ after = files := by
  rw [load_perform reads, ← parse_eq_ok_iff path]
  cases parse path bytes with
  | error fault => simp
  | ok found =>
      constructor
      · intro loaded
        cases loaded
        exact ⟨rfl, rfl, rfl⟩
      · rintro ⟨same, rfl, rfl⟩
        cases same
        rfl

theorem fit_of_load (loading : (load path).perform files = (.ok (entries, info), after)) :
    ChunksFit entries := by
  cases reads : files.read path with
  | error fault =>
      simp only [load, Disk.perform_bind, Disk.perform_query, reads] at loading
      cases loading
  | ok bytes =>
      obtain ⟨⟨storable, _⟩, _⟩ := (load_eq_ok_iff reads).mp loading
      exact storable.chunks

theorem load_unrepresented (reads : files.read path = .ok bytes)
    (unrepresented : ∀ entries, ¬ Represents entries bytes) :
    ∃ fault, (load path).perform files = (.error (.snapshot fault), files) := by
  rw [load_perform reads]
  cases parsed : parse path bytes with
  | error fault => exact ⟨fault, rfl⟩
  | ok found => exact absurd ((parse_eq_ok_iff path).mp parsed) (unrepresented found)

/-- Loading accepts exactly the files of the form of a snapshot, and so it returns what a writer
has been given once the writer has finished. All that the writer can fail at is the change of
name. -/
theorem load_accepts_represented (path : String) (files : FileSystem) :
    (∀ bytes, files.read path = .ok bytes →
      (∀ entries info after, (load path).perform files = (.ok (entries, info), after) ↔
        Represents entries bytes ∧
          info = { path, entries := entries.length, size := bytes.length } ∧ after = files) ∧
      ((∀ entries, ¬ Represents entries bytes) →
        ∃ fault, (load path).perform files = (.error (.snapshot fault), files))) ∧
    ∀ writer created entries,
      (SnapshotWriter.create path).perform files = (.ok writer, created) → Storable entries →
      ∃ filled left, (writer.addAll entries).perform created = (.ok filled, left) ∧
        (∀ info saved, filled.finish.perform left = (.ok info, saved) →
          info.entries = entries.length ∧
            (load path).perform saved = (.ok (entries, info), saved)) ∧
        ∀ fault saved, filled.finish.perform left = (.error fault, saved) →
          ∃ refusal, fault = .file refusal ∧
            saved.rename (SnapshotWriter.temporaryName path) path = .error refusal := by
  refine ⟨fun bytes reads => ⟨fun entries info after => load_eq_ok_iff reads,
    load_unrepresented reads⟩, fun writer created entries creating storable => ?_⟩
  obtain ⟨id, fresh, named⟩ := SnapshotWriter.create_eq_ok creating
  obtain ⟨filled, left, adding, writes, collects⟩ :=
    SnapshotWriter.addAll_perform fresh storable.chunks
  rw [List.nil_append] at collects
  refine ⟨filled, left, adding, fun info saved finishing => ?_,
    fun fault saved => collects.finish_eq_error⟩
  obtain ⟨rfl, reads⟩ := collects.finish_eq_ok (named.of_writesOnly writes) finishing
  exact ⟨rfl, (load_eq_ok_iff reads).mpr ⟨represents_image storable, rfl, rfl⟩⟩

def stockEntries : List (Bytes × Bytes) := [([97], [1]), ([98], [])]

/-- A file that breaks off behind the magic. -/
def shortFile : FileSystem where
  nodes := Dictionary.empty.set ["stock.snap"] (.file 0)
  contents := Dictionary.empty.set 0 magic
  nextFile := 1

theorem load_accepts_represented_stock :
    (∃ fault, (load "stock.snap").perform shortFile = (.error (.snapshot fault), shortFile)) ∧
      ∃ writer created filled left info saved,
        (SnapshotWriter.create "stock.snap").perform empty = (.ok writer, created) ∧
          Storable stockEntries ∧
          (writer.addAll stockEntries).perform created = (.ok filled, left) ∧
          filled.finish.perform left = (.ok info, saved) ∧ info.entries = 2 ∧
          (load "stock.snap").perform saved = (.ok (stockEntries, info), saved) := by
  have storable : Storable stockEntries := by
    constructor
    · unfold ChunksFit
      decide
    · decide
  have joined : Path.join "" "stock.snap" = "stock.snap" := by simp [Path.join]
  have isName : Path.IsName "stock.snap" := ⟨by decide, by decide, by decide, by decide⟩
  have temporaryIsName : Path.IsName "stock.snap.tmp" :=
    ⟨by decide, by decide, by decide, by decide⟩
  have named : SnapshotWriter.temporaryName (Path.join "" "stock.snap") =
      Path.join "" "stock.snap.tmp" :=
    Path.withExtension_join "" "snap.tmp" isName (by decide)
  have directory := emptyDirectory_empty.directoryAt
  have free : ∀ name, empty.node? ([] ++ [name]) ≠ some .directory := by
    intro name
    rw [emptyDirectory_empty.empty]
    nofun
  constructor
  · have reads : shortFile.read "stock.snap" = .ok magic := rfl
    refine ((load_accepts_represented "stock.snap" shortFile).1 magic reads).2 ?_
    intro entries represents
    obtain ⟨_, filler, _, whole⟩ := represents_iff.mp represents
    have width := congrArg List.length whole
    rw [List.length_append, length_header, magic, headerWidth] at width
    simp only [List.length_cons, List.length_nil] at width
    omega
  · obtain ⟨id, opened, opening, _⟩ := directory.openFile_exists temporaryIsName (free _)
    rw [← named] at opening
    obtain ⟨writer, created, creating, _⟩ := SnapshotWriter.create_perform opening
    obtain ⟨_, saved, _, _, _, _, storing⟩ :=
      store_join directory isName temporaryIsName (by decide) named (free _) (free _)
        storable.chunks
    rw [joined] at creating storing
    obtain ⟨filled, left, adding, finished, _⟩ :=
      (load_accepts_represented "stock.snap" empty).2 writer created _ creating storable
    -- Saving in one go is to create, to add and to finish.
    simp only [store, Disk.perform_bind, creating, adding] at storing
    obtain ⟨count, loading⟩ := finished _ _ storing
    exact ⟨writer, created, filled, left, _, saved, creating, storable, adding, storing, count,
      loading⟩

end Snapshot

end RowStore
