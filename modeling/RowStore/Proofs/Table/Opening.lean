import RowStore.Proofs.Log.Recovery
import RowStore.Proofs.Snapshot.RoundTrip
import RowStore.Proofs.Table.Directory

namespace RowStore

open FileSystem

variable {files after : FileSystem} {path : String} {home : Location} {id : FileId}
  {options : TableOptions} {saved logged : Option Bytes} {bytes : Bytes}

/-- Under the name there is a file with these bytes, or nothing when there are no bytes. -/
def FileSystem.HoldsIfAny (files : FileSystem) (home : Location) (name : String) :
    Option Bytes → Prop
  | some bytes => files.HoldsFile home name bytes
  | none => files.node? (home ++ [name]) = none

theorem FileSystem.HoldsIfAny.not_directory {name : String} {content : Option Bytes}
    (holds : files.HoldsIfAny home name content) :
    files.node? (home ++ [name]) ≠ some .directory := by
  intro directory
  cases content with
  | none => cases holds.symm.trans directory
  | some bytes =>
      obtain ⟨id, found, -⟩ := holds
      cases found.symm.trans directory

/-- A directory with any bytes in its snapshot and in its log, or without the one or the other. No
other name leads to the file of the snapshot. -/
structure Stocked (files : FileSystem) (path : String) (home : Location)
    (saved logged : Option Bytes) : Prop where
  leads : files.LeadsTo path home
  snapshot : files.HoldsIfAny home TableOptions.snapshotName saved
  log : files.HoldsIfAny home TableOptions.logName logged
  known : ∀ id, files.node? (home ++ [TableOptions.snapshotName]) = some (.file id) →
    id < files.nextFile
  apart : ∀ id, files.node? (home ++ [TableOptions.snapshotName]) = some (.file id) →
    files.node? (home ++ [TableOptions.logName]) ≠ some (.file id)

namespace Stocked

/-- What is done to the log, in its old file or in a new one, is done to nothing else. -/
theorem of_log (stocked : Stocked files path home saved logged)
    (elsewhere : ∀ location, location ≠ home ++ [TableOptions.logName] →
      after.node? location = files.node? location)
    (named : after.node? (home ++ [TableOptions.logName]) = some (.file id))
    (own : files.node? (home ++ [TableOptions.logName]) = some (.file id) ∨ id = files.nextFile)
    (contents : ∀ other, other ≠ id → after.content other = files.content other)
    (grows : files.nextFile ≤ after.nextFile) (content : after.content id = bytes) :
    Stocked after path home saved (some bytes) := by
  have snapshotKept := elsewhere (home ++ [TableOptions.snapshotName])
    (by simpa using TableOptions.logName_ne_snapshotName.symm)
  have different : ∀ other, files.node? (home ++ [TableOptions.snapshotName]) =
      some (.file other) → other ≠ id := by
    rintro other found rfl
    rcases own with old | new
    · exact stocked.apart other found old
    · exact Nat.ne_of_lt (stocked.known other found) new
  refine ⟨stocked.leads.mono fun location directory => ?_, ?_, ⟨id, named, content⟩,
    fun other found => ?_, fun other found same => ?_⟩
  · have notLog : location ≠ home ++ [TableOptions.logName] := by
      rintro rfl
      exact stocked.log.not_directory directory
    rw [elsewhere location notLog, directory]
  · have snapshot := stocked.snapshot
    cases saved with
    | none => exact snapshotKept.trans snapshot
    | some stored =>
        obtain ⟨snapshotId, found, stands⟩ := snapshot
        exact ⟨snapshotId, snapshotKept.trans found,
          (contents snapshotId (different snapshotId found)).trans stands⟩
  · exact Nat.lt_of_lt_of_le (stocked.known other (snapshotKept.symm.trans found)) grows
  · cases named.symm.trans same
    exact different id (snapshotKept.symm.trans found) rfl

/-- Recovery leaves the legible part in the log, and does nothing where there is no log. -/
theorem replayLog_perform (stocked : Stocked files options.path home saved logged) :
    ∃ part entries after, LegiblePart (logged.getD []) part entries ∧
      (Table.replayLog options.logPath).perform files =
        (.ok (entries, lastLsn entries + 1), after) ∧
      Stocked after options.path home saved (logged.map fun _ => part) := by
  have present := stocked.leads.pathExists_join TableOptions.logName_isName
  simp only [Table.replayLog, TableOptions.logPath, Disk.perform_bind, Disk.perform_get, present]
  cases logged with
  | none =>
      have absent : files.node? (home ++ [TableOptions.logName]) = none := stocked.log
      refine ⟨[], [], files, legiblePart_append .nil stopsAt_nil, ?_, stocked⟩
      simp only [absent, Option.isSome_none, Bool.false_eq_true, if_false]
      rfl
  | some bytes =>
      obtain ⟨id, found, content⟩ := stocked.log
      have located := stocked.leads.fileAt_join TableOptions.logName_isName found
      have reads := stocked.leads.read_join TableOptions.logName_isName found
      obtain ⟨entries, part, tail, damaged, rfl, records, stops, -⟩ := LogScan.exists_after [] bytes
      rw [content] at reads
      obtain ⟨after, recovering, left, -⟩ := Log.recover_perform reads records stops
      have writes := Log.recover_writesOnly located
      rw [recovering] at writes
      have named := (writes.node? _).trans found
      have leads : after.LeadsTo options.path home :=
        stocked.leads.mono fun location directory => (writes.node? location).trans directory
      rw [leads.read_join TableOptions.logName_isName named] at left
      refine ⟨part, entries, after, legiblePart_append records stops, ?_,
        stocked.of_log (fun location _ => writes.node? location) named (Or.inl found)
          writes.contents (Nat.le_of_eq writes.nextFile.symm) (Except.ok.inj left)⟩
      simp only [found, Option.isSome_some, if_true, Disk.perform_bind, recovering,
        Disk.perform_pure, (LogSummary.describes_summary entries stops).lastLsn]
      rfl

/-- A log that is opened stays as it is, and one that is made is empty. -/
theorem openLog_perform (stocked : Stocked files options.path home saved logged)
    (strategy : SyncStrategy) (nextLsn : UInt64) :
    ∃ log opened,
      (LogWriter.openAt options.logPath strategy nextLsn).perform files = (.ok log, opened) ∧
      log.nextLsn = nextLsn ∧ Stocked opened options.path home saved (some (logged.getD [])) := by
  simp only [LogWriter.openAt, TableOptions.logPath, Disk.perform_bind, Disk.perform_openFile]
  cases logged with
  | some bytes =>
      obtain ⟨id, found, -⟩ := stocked.log
      have opening := stocked.leads.openFile_present TableOptions.logName_isName found
      simp only [opening, Disk.perform_pure]
      exact ⟨_, files, rfl, rfl, stocked⟩
  | none =>
      have opening := stocked.leads.openFile_absent TableOptions.logName_isName stocked.log
      simp only [opening, Disk.perform_pure]
      refine ⟨_, _, rfl, rfl, stocked.of_log (fun location notLog => ?_) ?_ (Or.inr rfl)
        (fun other notNew => ?_) (Nat.le_succ _) ?_⟩
      · rw [node?_withNewFile, if_neg notLog]
      · rw [node?_withNewFile, if_pos rfl]
      · rw [content_withNewFile, if_neg notNew]
      · rw [content_withNewFile, if_pos rfl]
        rfl

end Stocked

/-- The pairs that a table begins with: those of its snapshot, and none where there is none. -/
def BeginsWith (files : FileSystem) (options : TableOptions) (saved : Option Bytes)
    (pairs : List (Bytes × Bytes)) : Prop :=
  saved = none ∧ pairs = [] ∨
    ∃ info, (Snapshot.load options.snapshotPath).perform files = (.ok (pairs, info), files)

namespace Stocked

theorem loadSnapshot_cases (stocked : Stocked files options.path home saved logged) :
    (∃ pairs, BeginsWith files options saved pairs ∧
      (Table.loadSnapshot options.snapshotPath).perform files = (.ok pairs, files)) ∨
    (∀ pairs, ¬ BeginsWith files options saved pairs) ∧ ∃ fault,
      (Table.loadSnapshot options.snapshotPath).perform files =
        (.error (.snapshot fault), files) := by
  have present := stocked.leads.pathExists_join TableOptions.snapshotName_isName
  simp only [Table.loadSnapshot, Disk.perform_bind, Disk.perform_get]
  cases saved with
  | none =>
      have absent : files.node? (home ++ [TableOptions.snapshotName]) = none := stocked.snapshot
      have missing : files.pathExists options.snapshotPath = false := by
        rw [TableOptions.snapshotPath, present, absent, Option.isSome_none]
      refine Or.inl ⟨[], Or.inl ⟨rfl, rfl⟩, ?_⟩
      simp only [missing, Bool.false_eq_true, if_false]
      rfl
  | some bytes =>
      obtain ⟨id, found, content⟩ := stocked.snapshot
      have reads := stocked.leads.read_join TableOptions.snapshotName_isName found
      have there : files.pathExists options.snapshotPath = true := by
        rw [TableOptions.snapshotPath, present, found, Option.isSome_some]
      have loading := Snapshot.load_perform reads
      simp only [there, if_true, Disk.perform_bind]
      cases parsed : Snapshot.parse (Path.join options.path TableOptions.snapshotName)
          (files.content id) with
      | ok pairs =>
          rw [parsed] at loading
          refine Or.inl ⟨pairs, Or.inr ⟨_, loading⟩, ?_⟩
          rw [TableOptions.snapshotPath, loading]
          rfl
      | error fault =>
          rw [parsed] at loading
          refine Or.inr ⟨?_, fault, ?_⟩
          · rintro pairs (⟨none, -⟩ | ⟨info, accepted⟩)
            · cases none
            · cases loading.symm.trans accepted
          · rw [TableOptions.snapshotPath, loading]

end Stocked

namespace Table

/-- A table of the pairs of a snapshot and of the entries that a log holds over them. -/
structure Restores (table : Table) (pairs : List (Bytes × Bytes)) (entries : List LogEntry) :
    Prop where
  contents : ∀ key, table.find? key =
    lastValue (pairs ++ entries.map fun entry => (entry.key, entry.value)) key
  nextLsn : (lastLsn entries).toNat < wordMax →
    table.log.nextLsn.toNat = (lastLsn entries).toNat + 1
  dirty : table.dirty = total LogEntry.weight entries

theorem openAt_cases (stocked : Stocked files options.path home saved logged) :
    ∃ part entries, LegiblePart (logged.getD []) part entries ∧
      ((∃ pairs table after, BeginsWith files options saved pairs ∧
        (openAt options).perform files = (.ok table, after) ∧ table.Restores pairs entries ∧
        Stocked after options.path home saved (some part)) ∨
      (∀ pairs, ¬ BeginsWith files options saved pairs) ∧
        ∃ fault, (openAt options).perform files = (.error (.snapshot fault), files)) := by
  have making := stocked.leads.makeDirectories
  obtain ⟨part, entries, recovered, legible, replaying, replayed⟩ := stocked.replayLog_perform
  obtain ⟨log, after, opening, nextLsn, opened⟩ :=
    replayed.openLog_perform options.strategy (lastLsn entries + 1)
  have left : (logged.map fun _ => part).getD [] = part := by
    cases logged with
    | some bytes => rfl
    | none => exact (List.prefix_nil.mp legible.begins).symm
  rw [left] at opened
  refine ⟨part, entries, legible, ?_⟩
  rcases stocked.loadSnapshot_cases with ⟨pairs, begins, loading⟩ | ⟨refused, fault, loading⟩
  · refine Or.inl ⟨pairs, restored options pairs entries log, after, begins,
      openAt_restored making loading replaying opening, ⟨fun key => ?_, fun bound => ?_, rfl⟩,
      opened⟩
    · have nothing : Contents.empty.map.find? key = none := rfl
      change (restored options pairs entries log).contents.map.find? key = _
      simp only [restored, Contents.map_putAll, OrderedMap.find?_insertAll, lastValue_append,
        nothing, Option.or_none]
    · have limit : (lastLsn entries).toNat + 1 < 2 ^ 64 := Nat.succ_lt_succ bound
      change log.nextLsn.toNat = _
      rw [nextLsn, UInt64.toNat_add, UInt64.toNat_one, Nat.mod_eq_of_lt limit]
  · refine Or.inr ⟨refused, fault, ?_⟩
    simp only [openAt, Disk.perform_bind, Disk.perform_makeDirectories, making, loading]

/-- Whatever its two files hold, a directory opens unless its snapshot cannot be loaded. The table
then begins with the snapshot and goes on with the legible part of the log; if it does not open,
nothing has been touched. -/
theorem openAt_all_or_nothing (stocked : Stocked files options.path home saved logged) :
    ∃ part entries, LegiblePart (logged.getD []) part entries ∧
      ((∃ table after, (openAt options).perform files = (.ok table, after)) ↔
        saved = none ∨ ∃ pairs info,
          (Snapshot.load options.snapshotPath).perform files = (.ok (pairs, info), files)) ∧
      (∀ table after, (openAt options).perform files = (.ok table, after) →
        (∃ pairs, BeginsWith files options saved pairs ∧ table.Restores pairs entries) ∧
          Stocked after options.path home saved (some part)) ∧
      ∀ fault after, (openAt options).perform files = (.error fault, after) →
        (∃ corruption, fault = .snapshot corruption) ∧ after = files := by
  obtain ⟨part, entries, legible, opens | fails⟩ := openAt_cases stocked
  · obtain ⟨pairs, table, after, begins, opening, restores, stands⟩ := opens
    refine ⟨part, entries, legible, iff_of_true ⟨table, after, opening⟩ ?_, ?_, ?_⟩
    · exact begins.imp And.left fun ⟨info, accepted⟩ => ⟨pairs, info, accepted⟩
    · intro other left performed
      cases opening.symm.trans performed
      exact ⟨⟨pairs, begins, restores⟩, stands⟩
    · intro fault left performed
      cases opening.symm.trans performed
  · obtain ⟨refused, corruption, opening⟩ := fails
    refine ⟨part, entries, legible, iff_of_false ?_ ?_, ?_, ?_⟩
    · rintro ⟨table, left, performed⟩
      cases opening.symm.trans performed
    · rintro (none | ⟨pairs, info, accepted⟩)
      · exact refused [] (Or.inl ⟨none, rfl⟩)
      · exact refused pairs (Or.inr ⟨info, accepted⟩)
    · intro table left performed
      cases opening.symm.trans performed
    · intro fault left performed
      cases opening.symm.trans performed
      exact ⟨⟨corruption, rfl⟩, rfl⟩

def untidyPairs : List (Bytes × Bytes) :=
  [([107], [1]), ([107], [2]), ([97], [3])]

def untidyEntry : LogEntry :=
  ⟨7, [97], [4], 0⟩

/-- A snapshot with a key that comes twice, and a log that breaks off behind its first entry. -/
def untidyDirectory : FileSystem where
  nodes := (Dictionary.empty.set [TableOptions.snapshotName] (.file 0)).set
    [TableOptions.logName] (.file 1)
  contents := (Dictionary.empty.set 0 (Snapshot.image untidyPairs)).set
    1 (LogEntry.framed untidyEntry.payload ++ [1, 2, 3])
  nextFile := 2

theorem openAt_all_or_nothing_untidy :
    Stocked untidyDirectory "" [] (some (Snapshot.image untidyPairs))
        (some (LogEntry.framed untidyEntry.payload ++ [1, 2, 3])) ∧
      ∃ table after, (openAt { path := "", pages := 1 }).perform untidyDirectory =
          (.ok table, after) ∧
        table.find? [107] = some [2] ∧ table.find? [97] = some [4] ∧
        table.log.nextLsn.toNat = 8 ∧ table.dirty = 2 ∧
        Stocked after "" [] (some (Snapshot.image untidyPairs))
          (some (LogEntry.framed untidyEntry.payload)) := by
  let options : TableOptions := { path := "", pages := 1 }
  have stocked : Stocked untidyDirectory options.path [] (some (Snapshot.image untidyPairs))
      (some (LogEntry.framed untidyEntry.payload ++ [1, 2, 3])) := by
    refine ⟨rfl, ⟨0, rfl, rfl⟩, ⟨1, rfl, rfl⟩, fun id found => ?_, fun id found => ?_⟩
    · cases found
      decide
    · cases found
      decide
  have stops : StopsAt [1, 2, 3] false := by
    unfold StopsAt
    decide
  have records : LogEntry.Records [untidyEntry] (LogEntry.framed untidyEntry.payload) := by
    rw [← LogEntry.frames_singleton]
    exact LogEntry.records_frames (by decide)
  have storable : Snapshot.Storable untidyPairs := by
    constructor
    · unfold Snapshot.ChunksFit
      decide
    · decide
  have found : untidyDirectory.node? ([] ++ [TableOptions.snapshotName]) = some (.file 0) := rfl
  have reads : untidyDirectory.read options.snapshotPath = .ok (Snapshot.image untidyPairs) :=
    stocked.leads.read_join TableOptions.snapshotName_isName found
  have loading := Snapshot.load_perform reads
  rw [Snapshot.parse_image _ storable] at loading
  obtain ⟨part, entries, legible, opens, restored, -⟩ := openAt_all_or_nothing stocked
  obtain ⟨rfl, rfl⟩ := legible.unique (legiblePart_append records stops)
  obtain ⟨table, after, opening⟩ := opens.mpr (Or.inr ⟨_, _, loading⟩)
  obtain ⟨⟨pairs, begins, restores⟩, stands⟩ := restored table after opening
  obtain rfl : pairs = untidyPairs := by
    rcases begins with ⟨none, -⟩ | ⟨info, accepted⟩
    · cases none
    · cases loading.symm.trans accepted
      rfl
  refine ⟨stocked, table, after, opening, ?_, ?_, restores.nextLsn (by decide), restores.dirty,
    stands⟩
  · rw [restores.contents]
    decide
  · rw [restores.contents]
    decide

end Table

end RowStore
