import RowStore.Proofs.Table.Opening
import RowStore.Proofs.Table.Steps

namespace RowStore

open FileSystem

def LogEntry.pair (entry : LogEntry) : Bytes × Bytes :=
  (entry.key, entry.value)

/-- Pairs that are written once more before others follow make no difference. -/
theorem OrderedMap.insertAll_repeated (map : OrderedMap) (applied later : List (Bytes × Bytes)) :
    (map.insertAll applied).insertAll (applied ++ later) = map.insertAll (applied ++ later) := by
  apply ext_find?
  intro key
  simp only [find?_insertAll, lastValue_append, Option.or_assoc]
  cases lastValue applied key <;> rfl

/-- What a directory may have for a snapshot to begin with a map: its snapshot or, if it is empty,
none. -/
inductive BeginsAt (map : OrderedMap) : Option Bytes → Prop
  | saved (storable : Snapshot.Storable map.entries) :
      BeginsAt map (some (Snapshot.image map.entries))
  | unsaved (empty : map = .empty) : BeginsAt map none

namespace Table

variable {files : FileSystem} {path : String} {home : Location}
  {options : TableOptions} {saved : Option Bytes} {map : OrderedMap} {logged : List LogEntry}
  {pairs : List (Bytes × Bytes)} {table : Table}

/-- The directory opens with all options to a table of a map, and opening it and giving the table up
leave its two files as they are. -/
def OpensUnchanged (files : FileSystem) (path : String) (home : Location) (saved : Option Bytes)
    (logged : List LogEntry) (map : OrderedMap) : Prop :=
  ∀ options : TableOptions, options.path = path →
    ∃ table opened, (openAt options).perform files = (.ok table, opened) ∧
      table.contents.map = map ∧
      Stocked opened path home saved (some (LogEntry.frames logged)) ∧
      Stocked (table.abandoned opened) path home saved (some (LogEntry.frames logged))

/-- The files after a table has been opened and given up. -/
def reopenedOnce (files : FileSystem) (options : TableOptions) : FileSystem :=
  match (openAt options).perform files with
  | (.ok table, opened) => table.abandoned opened
  | (.error _, left) => left

def reopened (path : String) (openings : List (Nat × SyncStrategy)) (files : FileSystem) :
    FileSystem :=
  openings.foldl
    (fun files opening => reopenedOnce files { path, pages := opening.1, strategy := opening.2 })
    files

theorem beginsWith_iff {log : Option Bytes} (stocked : Stocked files options.path home saved log)
    (begins : BeginsAt map saved) :
    BeginsWith files options saved pairs ↔ pairs = map.entries := by
  cases begins with
  | saved storable =>
      obtain ⟨id, found, content⟩ := stocked.snapshot
      have reads := stocked.leads.read_join TableOptions.snapshotName_isName found
      have loading := Snapshot.load_perform reads
      rw [content, Snapshot.parse_image _ storable] at loading
      constructor
      · rintro (⟨none, _⟩ | ⟨info, loads⟩)
        · cases none
        · cases loading.symm.trans loads
          rfl
      · rintro rfl
        exact Or.inr ⟨_, loading⟩
  | unsaved empty =>
      have absent : files.node? (home ++ [TableOptions.snapshotName]) = none := stocked.snapshot
      have missing := stocked.leads.lookup_join TableOptions.snapshotName_isName
      rw [absent] at missing
      subst empty
      constructor
      · rintro (⟨_, rfl⟩ | ⟨info, loads⟩)
        · rfl
        · have reads : files.read options.snapshotPath = .error .notFound := by
            simp only [FileSystem.read, FileSystem.fileAt, TableOptions.snapshotPath, missing]
            rfl
          simp only [Snapshot.load, Disk.perform_bind, Disk.perform_query, reads] at loads
          cases loads
      · rintro rfl
        exact Or.inl ⟨rfl, rfl⟩

theorem map_eq_of_restores (restores : table.Restores map.entries logged) :
    table.contents.map = map.insertAll (logged.map LogEntry.pair) := by
  apply OrderedMap.ext_find?
  intro key
  have answer := restores.contents key
  rw [lastValue_append, OrderedMap.lastValue_entries] at answer
  rw [OrderedMap.find?_insertAll]
  exact answer

theorem opensUnchanged
    (stocked : Stocked files path home saved (some (LogEntry.frames logged)))
    (begins : BeginsAt map saved) (fit : ∀ entry ∈ logged, entry.Fits) :
    OpensUnchanged files path home saved logged (map.insertAll (logged.map LogEntry.pair)) := by
  rintro options rfl
  have whole := legiblePart_append (LogEntry.records_frames fit) stopsAt_nil
  rw [List.append_nil] at whole
  obtain ⟨part, entries, legible, opens | ⟨refused, _⟩⟩ := openAt_cases stocked
  · obtain ⟨pairs, table, opened, beginsWith, opening, restores, kept⟩ := opens
    obtain ⟨rfl, rfl⟩ := legible.unique whole
    obtain rfl := (beginsWith_iff stocked begins).mp beginsWith
    refine ⟨table, opened, opening, map_eq_of_restores restores, kept, ?_⟩
    rw [abandoned_openAt opening]
    exact kept
  · exact absurd ((beginsWith_iff stocked begins).mpr rfl) (refused map.entries)

theorem OpensUnchanged.reopenedOnce {other : OrderedMap}
    (opens : OpensUnchanged files path home saved logged other) (pages : Nat)
    (strategy : SyncStrategy) :
    Stocked (reopenedOnce files { path, pages, strategy }) path home saved
      (some (LogEntry.frames logged)) := by
  obtain ⟨table, opened, opening, _, _, left⟩ := opens { path, pages, strategy } rfl
  rw [Table.reopenedOnce, opening]
  exact left

theorem reopened_unchanged
    (stocked : Stocked files path home saved (some (LogEntry.frames logged)))
    (begins : BeginsAt map saved) (fit : ∀ entry ∈ logged, entry.Fits)
    (openings : List (Nat × SyncStrategy)) :
    OpensUnchanged (reopened path openings files) path home saved logged
      (map.insertAll (logged.map LogEntry.pair)) := by
  induction openings generalizing files with
  | nil => exact opensUnchanged stocked begins fit
  | cons opening others ih =>
      exact ih ((opensUnchanged stocked begins fit).reopenedOnce opening.1 opening.2)

/-- Reading a log over a snapshot that holds its first entries already gives what reading it over
the snapshot before them gives, and so it stays however often the directory is opened again. -/
theorem openAt_replays_over_newer {older newer : FileSystem} {newPath : String}
    {newHome : Location} {applied later : List LogEntry}
    (old : Stocked older path home saved (some (LogEntry.frames (applied ++ later))))
    (begins : BeginsAt map saved)
    (new : Stocked newer newPath newHome
      (some (Snapshot.image (map.insertAll (applied.map LogEntry.pair)).entries))
      (some (LogEntry.frames (applied ++ later))))
    (storable : Snapshot.Storable (map.insertAll (applied.map LogEntry.pair)).entries)
    (fit : ∀ entry ∈ applied ++ later, entry.Fits) (openings : List (Nat × SyncStrategy)) :
    OpensUnchanged (reopened path openings older) path home saved (applied ++ later)
        (map.insertAll ((applied ++ later).map LogEntry.pair)) ∧
      OpensUnchanged (reopened newPath openings newer) newPath newHome
        (some (Snapshot.image (map.insertAll (applied.map LogEntry.pair)).entries))
        (applied ++ later) (map.insertAll ((applied ++ later).map LogEntry.pair)) := by
  refine ⟨reopened_unchanged old begins fit openings, ?_⟩
  have opens := reopened_unchanged new (.saved storable) fit openings
  rw [List.map_append, OrderedMap.insertAll_repeated, ← List.map_append] at opens
  exact opens

/-- A directory with these bytes in its snapshot and in its log. -/
def filledDirectory (saved logged : Bytes) : FileSystem where
  nodes := (Dictionary.empty.set [TableOptions.snapshotName] (.file 0)).set
    [TableOptions.logName] (.file 1)
  contents := (Dictionary.empty.set 0 saved).set 1 logged
  nextFile := 2

theorem stocked_filledDirectory (saved logged : Bytes) :
    Stocked (filledDirectory saved logged) "" [] (some saved) (some logged) := by
  refine ⟨rfl, ⟨0, rfl, rfl⟩, ⟨1, rfl, rfl⟩, fun id found => ?_, fun id found => ?_⟩
  · cases found
    exact Nat.two_pos
  · cases found
    nofun

def countedMap : OrderedMap :=
  OrderedMap.empty.insert [107] [48]

/-- Writes that are in the newer snapshot: the key of the map again, and another one. -/
def appliedEntries : List LogEntry :=
  [⟨1, [107], [49], 0⟩, ⟨2, [97], [49], 0⟩]

def laterEntries : List LogEntry :=
  [⟨3, [107], [50], 0⟩]

def overwrittenMap : OrderedMap :=
  countedMap.insertAll (appliedEntries.map LogEntry.pair)

def replayedLog : Bytes :=
  LogEntry.frames (appliedEntries ++ laterEntries)

theorem openAt_replays_over_newer_counted :
    Stocked (filledDirectory (Snapshot.image countedMap.entries) replayedLog) "" []
        (some (Snapshot.image countedMap.entries)) (some replayedLog) ∧
      Stocked (filledDirectory (Snapshot.image overwrittenMap.entries) replayedLog) "" []
        (some (Snapshot.image overwrittenMap.entries)) (some replayedLog) ∧
      ∃ table other opened left,
        (openAt { path := "", pages := 1 }).perform
            (reopened "" [(0, .standard), (2, .everyWrite)]
              (filledDirectory (Snapshot.image countedMap.entries) replayedLog)) =
          (.ok table, opened) ∧
        (openAt { path := "", pages := 1 }).perform
            (reopened "" [(0, .standard), (2, .everyWrite)]
              (filledDirectory (Snapshot.image overwrittenMap.entries) replayedLog)) =
          (.ok other, left) ∧
        table.contents.map = other.contents.map ∧
        table.find? [107] = some [50] ∧ other.find? [97] = some [49] := by
  have storable : Snapshot.Storable countedMap.entries := by
    constructor
    · unfold Snapshot.ChunksFit
      decide
    · decide
  have storableNew : Snapshot.Storable overwrittenMap.entries := by
    constructor
    · unfold Snapshot.ChunksFit
      decide
    · decide
  have old := stocked_filledDirectory (Snapshot.image countedMap.entries) replayedLog
  have new := stocked_filledDirectory (Snapshot.image overwrittenMap.entries) replayedLog
  obtain ⟨opensOld, opensNew⟩ := openAt_replays_over_newer old (.saved storable) new storableNew
    (by decide) [(0, .standard), (2, .everyWrite)]
  obtain ⟨table, opened, opening, same, -⟩ := opensOld { path := "", pages := 1 } rfl
  obtain ⟨other, left, openingNew, sameNew, -⟩ := opensNew { path := "", pages := 1 } rfl
  refine ⟨old, new, table, other, opened, left, opening, openingNew, same.trans sameNew.symm,
    ?_, ?_⟩
  · change table.contents.map.find? [107] = some [50]
    rw [same]
    decide
  · change other.contents.map.find? [97] = some [49]
    rw [sameNew]
    decide

end Table

end RowStore
