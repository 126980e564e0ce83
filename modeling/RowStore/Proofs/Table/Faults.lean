import RowStore.Proofs.Table.Steps

namespace RowStore

variable {Answer Next Item : Type}

/-- The outcome is not a fault of the configuration. -/
def NoConfigFault (outcome : Except Fault Answer) : Prop :=
  ∀ cause, outcome ≠ .error (.config cause)

theorem noConfigFault_ok (answer : Answer) : NoConfigFault (.ok answer) := nofun

theorem NoConfigFault.error {fault : Fault} {outcome : Except Fault Answer}
    (spared : NoConfigFault outcome) (failed : outcome = .error fault) :
    NoConfigFault (.error fault : Except Fault Next) := by
  rintro cause ⟨⟩
  exact spared cause failed

theorem NoConfigFault.bind {outcome : Except Fault Answer} {next : Answer → Except Fault Next}
    (first : NoConfigFault outcome) (later : ∀ answer, NoConfigFault (next answer)) :
    NoConfigFault (outcome >>= next) := by
  cases outcome with
  | error fault => exact first.error rfl
  | ok answer => exact later answer

namespace Disk

/-- Whatever the files, the action does not fail with a fault of the configuration. -/
def NoConfigFault (action : Disk Answer) : Prop :=
  ∀ files, RowStore.NoConfigFault (action.perform files).1

theorem noConfigFault_pure (answer : Answer) : NoConfigFault (pure answer) :=
  fun _ => noConfigFault_ok answer

theorem NoConfigFault.bind {action : Disk Answer} {next : Answer → Disk Next}
    (first : NoConfigFault action) (later : ∀ answer, NoConfigFault (next answer)) :
    NoConfigFault (action >>= next) := by
  intro files
  rw [perform_bind]
  cases performed : action.perform files with
  | mk outcome after =>
      cases outcome with
      | error fault => exact (first files).error (congrArg Prod.fst performed)
      | ok answer => exact later answer after

theorem NoConfigFault.foldlM {step : Answer → Item → Disk Answer}
    (each : ∀ state item, NoConfigFault (step state item)) (items : List Item) (start : Answer) :
    NoConfigFault (items.foldlM step start) := by
  induction items generalizing start with
  | nil => exact noConfigFault_pure start
  | cons item rest ih =>
      rw [List.foldlM_cons]
      exact (each start item).bind ih

theorem noConfigFault_get : NoConfigFault (get : Disk FileSystem) := fun _ => noConfigFault_ok _

theorem noConfigFault_modify (edit : FileSystem → FileSystem) :
    NoConfigFault (modify edit : Disk PUnit) := fun _ => noConfigFault_ok _

theorem noConfigFault_query (question : FileSystem → Except FileFault Answer) :
    NoConfigFault (query question) := by
  intro files
  rw [perform_query]
  split <;> nofun

theorem noConfigFault_change (attempt : FileSystem → Except FileFault FileSystem) :
    NoConfigFault (change attempt) := by
  intro files
  rw [perform_change]
  split <;> nofun

theorem noConfigFault_openFile (path : String) : NoConfigFault (openFile path) := by
  intro files
  rw [perform_openFile]
  split <;> nofun

theorem noConfigFault_makeDirectories (path : String) : NoConfigFault (makeDirectories path) := by
  intro files
  rw [perform_makeDirectories]
  split <;> nofun

theorem noConfigFault_attempt (action : Disk Answer) : NoConfigFault (attempt action) :=
  fun _ => noConfigFault_ok _

end Disk

open Disk (noConfigFault_pure noConfigFault_get noConfigFault_modify noConfigFault_query
  noConfigFault_openFile)

namespace LogWriter

theorem noConfigFault_truncate (writer : LogWriter) : writer.truncate.NoConfigFault :=
  fun _ => noConfigFault_ok _

theorem noConfigFault_append (writer : LogWriter) (key value : Bytes) (timestamp : UInt64) :
    (writer.append key value timestamp).NoConfigFault := by
  intro files
  by_cases fits : LogEntry.Fits { lsn := writer.nextLsn, key, value, timestamp }
  · obtain ⟨appended, after, performed, _⟩ := writer.append_appends files rfl fits
    rw [performed]
    exact noConfigFault_ok _
  · rw [append_refused files fits]
    nofun

theorem noConfigFault_openAt (path : String) (strategy : SyncStrategy) (nextLsn : UInt64) :
    (openAt path strategy nextLsn).NoConfigFault :=
  (noConfigFault_openFile path).bind fun _ => noConfigFault_pure _

end LogWriter

theorem Log.noConfigFault_recover (path : String) : (recover path).NoConfigFault := by
  refine (noConfigFault_query _).bind fun file => noConfigFault_get.bind fun files => ?_
  dsimp only
  split
  · exact (noConfigFault_modify _).bind fun _ => noConfigFault_pure _
  · exact noConfigFault_pure _

namespace SnapshotWriter

theorem noConfigFault_emit (writer : SnapshotWriter) (pieces : List Bytes) :
    (writer.emit pieces).NoConfigFault :=
  fun _ => noConfigFault_ok _

theorem noConfigFault_create (path : String) : (create path).NoConfigFault :=
  (noConfigFault_openFile _).bind fun _ =>
    (noConfigFault_modify _).bind fun _ => noConfigFault_emit _ _

theorem noConfigFault_add (writer : SnapshotWriter) (key value : Bytes) :
    (writer.add key value).NoConfigFault := by
  unfold add
  dsimp only
  split
  · exact fun _ => nofun
  · split
    · exact fun _ => nofun
    · exact (noConfigFault_emit _ _).bind fun _ => noConfigFault_pure _

theorem noConfigFault_addAll (writer : SnapshotWriter) (entries : List (Bytes × Bytes)) :
    (writer.addAll entries).NoConfigFault := by
  unfold addAll
  exact Disk.NoConfigFault.foldlM (fun writer entry => noConfigFault_add writer _ _) entries writer

theorem noConfigFault_finish (writer : SnapshotWriter) : writer.finish.NoConfigFault := by
  have completed : writer.complete.NoConfigFault := fun _ => noConfigFault_ok _
  exact completed.bind fun _ => (Disk.noConfigFault_change _).bind fun _ => noConfigFault_pure _

end SnapshotWriter

namespace Snapshot

theorem noConfigFault_store (path : String) (entries : List (Bytes × Bytes)) :
    (store path entries).NoConfigFault :=
  (SnapshotWriter.noConfigFault_create path).bind fun writer =>
    (writer.noConfigFault_addAll entries).bind SnapshotWriter.noConfigFault_finish

theorem noConfigFault_load (path : String) : (load path).NoConfigFault := by
  refine (noConfigFault_query _).bind fun bytes => ?_
  split
  · exact fun _ => nofun
  · exact noConfigFault_pure _

end Snapshot

namespace Table

theorem noConfigFault_loadSnapshot (path : String) : (loadSnapshot path).NoConfigFault := by
  refine noConfigFault_get.bind fun files => ?_
  split
  · exact (Snapshot.noConfigFault_load path).bind fun _ => noConfigFault_pure _
  · exact noConfigFault_pure _

theorem noConfigFault_replayLog (path : String) : (replayLog path).NoConfigFault := by
  refine noConfigFault_get.bind fun files => ?_
  split
  · exact (Log.noConfigFault_recover path).bind fun _ => noConfigFault_pure _
  · exact noConfigFault_pure _

theorem noConfigFault_openAt (options : TableOptions) : (openAt options).NoConfigFault :=
  (Disk.noConfigFault_makeDirectories _).bind fun _ =>
    (noConfigFault_loadSnapshot _).bind fun _ => (noConfigFault_replayLog _).bind fun _ =>
      (LogWriter.noConfigFault_openAt _ _ _).bind fun _ => noConfigFault_pure _

theorem noConfigFault_checkpoint (table : Table) : table.checkpoint.NoConfigFault :=
  (Snapshot.noConfigFault_store _ _).bind fun _ =>
    (LogWriter.noConfigFault_truncate _).bind fun _ => noConfigFault_pure _

theorem noConfigFault_checkpointIfDue (table : Table) : table.checkpointIfDue.NoConfigFault := by
  unfold checkpointIfDue
  split
  · exact noConfigFault_pure _
  · refine (Disk.noConfigFault_attempt _).bind fun tried => ?_
    split <;> exact noConfigFault_pure _

theorem noConfigFault_put (table : Table) (key value : Bytes) (timestamp : UInt64) :
    (table.put key value timestamp).NoConfigFault := by
  have recorded : (table.record key value timestamp).NoConfigFault :=
    (table.log.noConfigFault_append key value timestamp).bind fun _ => noConfigFault_pure _
  exact recorded.bind fun next =>
    next.noConfigFault_checkpointIfDue.bind fun _ => noConfigFault_pure _

theorem noConfigFault_close (table : Table) : table.close.NoConfigFault := by
  intro files
  by_cases clean : table.dirty = 0
  · rw [close_clean clean]
    exact noConfigFault_ok _
  · cases saving : table.checkpoint.perform files with
    | mk outcome after =>
        cases outcome with
        | ok saved =>
            rw [close_saved clean saving]
            exact noConfigFault_ok _
        | error fault =>
            rw [close_refused clean saving]
            exact (table.noConfigFault_checkpoint files).error (congrArg Prod.fst saving)

end Table

end RowStore
