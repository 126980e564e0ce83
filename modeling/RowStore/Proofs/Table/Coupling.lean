import RowStore.Proofs.Table.Directory

/-!
How an open table and its directory stay in step. The snapshot holds the settled writes, the file of
the log and the bytes held back hold the writes since, and the contents in memory are those of both.
Opening a directory at rest brings this about, and giving the table up leaves a directory at rest.
-/

namespace RowStore

open FileSystem

variable {files after : FileSystem} {home : Location} {path : String} {table recorded : Table}
  {settled : List Write} {flushed held logged : List LogEntry} {write : Write}

/-- Sequence numbers without a gap from `first` on. -/
def NumberedFrom (first : Nat) (entries : List LogEntry) : Prop :=
  entries.map (fun entry => entry.lsn.toNat) = List.range' first entries.length

namespace NumberedFrom

variable {first : Nat} {entries : List LogEntry}

theorem concat {entry : LogEntry} (numbered : NumberedFrom first entries)
    (next : entry.lsn.toNat = first + entries.length) :
    NumberedFrom first (entries ++ [entry]) := by
  have before : entries.map (fun entry => entry.lsn.toNat) = List.range' first entries.length :=
    numbered
  rw [NumberedFrom, List.map_append, before, List.length_append, List.length_singleton,
    List.range'_concat, List.map_singleton, next, Nat.one_mul]

theorem toNat_lastLsn (numbered : NumberedFrom first entries) (nonempty : entries ≠ []) :
    (lastLsn entries).toNat + 1 = first + entries.length := by
  obtain ⟨earlier, last, split⟩ := (List.eq_nil_or_concat entries).resolve_left nonempty
  rw [List.concat_eq_append] at split
  subst split
  have whole : (earlier ++ [last]).map (fun entry => entry.lsn.toNat) =
      List.range' first (earlier ++ [last]).length := numbered
  rw [List.map_append, List.length_append, List.length_singleton, List.range'_concat] at whole
  have same := (List.append_inj whole (by simp)).2
  simp only [List.map_singleton, List.cons.injEq, and_true, Nat.one_mul] at same
  simp [lastLsn, same, Nat.add_assoc]

end NumberedFrom

/-- Sequence numbers without a gap, which begin no later than if every settled write had one. -/
def Numbered (settled : List Write) (entries : List LogEntry) (next : Nat) : Prop :=
  ∃ first, 0 < first ∧ first ≤ settled.length + 1 ∧ NumberedFrom first entries ∧
    next = first + entries.length

/-- A directory on which no table is open. -/
structure AtRest (files : FileSystem) (path : String) (home : Location) (settled : List Write)
    (logged : List LogEntry) : Prop extends Durable files path home settled logged where
  numbered : ∃ next, Numbered settled logged next
  bounded : settled.length + logged.length < wordMax

/-- A table open on a directory. The entries logged since the last checkpoint are in the file, those
in `flushed`, or held back, those in `held`. -/
structure Coupled (table : Table) (files : FileSystem) (home : Location) (settled : List Write)
    (flushed held : List LogEntry) : Prop where
  directory : files.DirectoryAt table.options.path home
  saved : SavedAfter files home settled
  log : table.log.Holds files home TableOptions.logName flushed held
  contents : table.contents.map = mapAfter (settled ++ (flushed ++ held).map LogEntry.write)
  dirty : table.dirty = total LogEntry.weight (flushed ++ held)
  settledFit : ∀ write ∈ settled, write.Fits
  loggedFit : ∀ entry ∈ flushed ++ held, entry.Fits
  numbered : Numbered settled (flushed ++ held) table.log.nextLsn.toNat
  bounded : settled.length + (flushed ++ held).length < wordMax
  strategy : table.log.strategy = table.options.strategy

theorem wordMax_lt_wordLimit : wordMax < wordLimit := by decide

/-- What an open table has in its files is a directory to open a table on. -/
theorem Coupled.durable (coupled : Coupled table files home settled flushed held) :
    Durable files table.options.path home settled flushed where
  directory := coupled.directory
  saved := coupled.saved
  log := Or.inl coupled.log.holdsFile
  settledFit := coupled.settledFit
  loggedFit entry member := coupled.loggedFit entry (List.mem_append_left _ member)
  few := by
    have bounded := coupled.bounded
    have limit := wordMax_lt_wordLimit
    omega

theorem Coupled.writesFit (coupled : Coupled table files home settled flushed held) :
    ∀ write ∈ settled ++ (flushed ++ held).map LogEntry.write, write.Fits := by
  intro write member
  rcases List.mem_append.mp member with old | new
  · exact coupled.settledFit write old
  · obtain ⟨entry, isEntry, rfl⟩ := List.mem_map.mp new
    exact LogEntry.fits_write.mpr (coupled.loggedFit entry isEntry)

theorem Coupled.length_held_le (coupled : Coupled table files home settled flushed held) :
    held.length ≤ table.options.strategy.window :=
  coupled.strategy ▸ coupled.log.length_le_window

theorem Coupled.of_changesOnly (coupled : Coupled table files home settled flushed held)
    (changes : ChangesOnly home TableOptions.temporaryName files after) :
    Coupled table after home settled flushed held :=
  { coupled with
    directory := changes.directoryAt coupled.directory
    saved := coupled.saved.of_changesOnly changes TableOptions.snapshotName_ne_temporaryName
    log := coupled.log.of_changesOnly changes TableOptions.logName_ne_temporaryName }

theorem LogWriter.Stands.of_changesOnly {name other : String}
    (stands : Stands files home name logged) (changes : ChangesOnly home other files after)
    (different : name ≠ other) : Stands after home name logged := by
  rcases stands with holds | ⟨absent, none⟩
  · exact Or.inl (changes.holdsFile different holds)
  · exact Or.inr ⟨(changes.node?_other different).trans absent, none⟩

theorem Durable.of_changesOnly (durable : Durable files path home settled logged)
    (changes : ChangesOnly home TableOptions.temporaryName files after) :
    Durable after path home settled logged :=
  { durable with
    directory := changes.directoryAt durable.directory
    saved := durable.saved.of_changesOnly changes TableOptions.snapshotName_ne_temporaryName
    log := durable.log.of_changesOnly changes TableOptions.logName_ne_temporaryName }

theorem AtRest.of_changesOnly (atRest : AtRest files path home settled logged)
    (changes : ChangesOnly home TableOptions.temporaryName files after) :
    AtRest after path home settled logged :=
  { atRest with toDurable := atRest.toDurable.of_changesOnly changes }

theorem FileSystem.EmptyDirectory.atRest (vacant : files.EmptyDirectory path home) :
    AtRest files path home [] [] where
  directory := vacant.directoryAt
  saved := Or.inr ⟨vacant.empty _, rfl⟩
  log := Or.inr ⟨vacant.empty _, rfl⟩
  settledFit _ member := by cases member
  loggedFit _ member := by cases member
  few := by decide
  numbered := ⟨1, 1, Nat.one_pos, Nat.le_refl _, rfl, rfl⟩
  bounded := by decide

/-- Opening numbers on from the last entry, and from one if there is none. -/
private theorem numbered_reopened {nextLsn : UInt64}
    (numbered : ∃ next, Numbered settled logged next)
    (bounded : settled.length + logged.length < wordMax) (next_eq : nextLsn = lastLsn logged + 1) :
    Numbered settled logged nextLsn.toNat := by
  obtain ⟨_, first, positive, early, consecutive, -⟩ := numbered
  by_cases empty : logged = []
  · subst empty
    exact ⟨1, Nat.one_pos, by omega, rfl, by rw [next_eq]; rfl⟩
  · have last := consecutive.toNat_lastLsn empty
    have limit : (lastLsn logged).toNat + 1 < 2 ^ 64 := by
      have wide : wordMax < 2 ^ 64 := by decide
      omega
    refine ⟨first, positive, early, consecutive, ?_⟩
    rw [next_eq, UInt64.toNat_add, UInt64.toNat_one, Nat.mod_eq_of_lt limit, last]

theorem AtRest.openAt_perform (options : TableOptions)
    (atRest : AtRest files options.path home settled logged) :
    ∃ table opened, (Table.openAt options).perform files = (.ok table, opened) ∧
      table.OpenedOn opened files options home settled logged ∧
      Coupled table opened home settled logged [] := by
  obtain ⟨table, opened, opening, on⟩ := Table.openAt_perform atRest.toDurable
  have same := on.options_eq
  refine ⟨table, opened, opening, on, ?_⟩
  exact {
    directory := same ▸ on.changes.directoryAt atRest.directory
    saved := atRest.saved.of_changesOnly on.changes TableOptions.logName_ne_snapshotName.symm
    log := on.holds
    contents := by rw [List.append_nil, on.contents]
    dirty := by rw [List.append_nil, on.dirty]
    settledFit := atRest.settledFit
    loggedFit := by rw [List.append_nil]; exact atRest.loggedFit
    numbered := by
      rw [List.append_nil]
      exact numbered_reopened atRest.numbered atRest.bounded on.nextLsn
    bounded := by rw [List.append_nil]; exact atRest.bounded
    strategy := by rw [on.strategy, same] }

theorem Coupled.abandoned (coupled : Coupled table files home settled flushed held) :
    AtRest (table.abandoned files) table.options.path home settled (flushed ++ held) := by
  have flushing := LogWriter.flushed_changesOnly coupled.directory coupled.log.named
  exact {
    directory := flushing.directoryAt coupled.directory
    saved := coupled.saved.of_changesOnly flushing TableOptions.logName_ne_snapshotName.symm
    log := Or.inl coupled.log.synced.holdsFile
    settledFit := coupled.settledFit
    loggedFit := coupled.loggedFit
    few := coupled.durable.few
    numbered := ⟨_, coupled.numbered⟩
    bounded := coupled.bounded }

end RowStore
